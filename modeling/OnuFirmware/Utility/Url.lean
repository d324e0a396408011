import OnuFirmware.Clib.Buf
import OnuFirmware.Clib.Num

/-!
# Host and port of a URL (`parseUrlHostInfo` in `utility.c`)

The scheme is skipped, and the rest is cut at the first colon; what is in front of it is the host,
and the number behind it is the port. The colon is overwritten with a NUL in the caller's string.
Nothing looks for the slash of a path, so without a port the path belongs to the host, and a colon
in the path is taken for that of the port.
-/

namespace OnuFirmware.Utility

open Clib

/-! ## The function -/

/-- `strncasecmp(a, b, n) == 0`. -/
def strncasecmpEq (a b : Str) (n : Nat) : Bool := strcasecmpEq (a.take n) (b.take n)

/-- `strncpy(dst, src, n)`: the array afterwards, if it has `n` bytes. -/
def strncpy (src : Str) (n : Nat) : Str := src.take n ++ zeros (n - src.length)

/-- Whether `0` is returned, the array of the host, the port, and the URL afterwards. -/
structure HostInfo where
  ret : Bool
  host : Str
  port : Nat
  url : Str
deriving Repr, DecidableEq

/-- The length of the scheme that is skipped, and its port. -/
def skipScheme (pUrl : Str) : Nat × Nat :=
  if strncasecmpEq pUrl "https://".toList 8 then (8, 443)
  else if strncasecmpEq pUrl "http://".toList 7 then (7, 80)
  else (0, 80)

/-- `parseUrlHostInfo`, for an array of `hostlen` bytes. -/
def parseUrlHostInfo (pUrl pHost : Str) (hostlen : Nat) : HostInfo :=
  if hostlen = 0 then ⟨false, pHost, 0, pUrl⟩
  else
    let scheme := skipScheme pUrl
    let pSource := pUrl.drop scheme.1
    match pSource.idxOf? ':' with
    | some p =>
      if hostlen < p then ⟨false, pHost.set 0 '\x00', scheme.2, pUrl⟩
      else
        ⟨true, strncpy (pSource.take p) hostlen, (scanU (pSource.drop (p + 1))).toNat % 65536,
          pUrl.set (scheme.1 + p) '\x00'⟩
    | none =>
      if hostlen < pSource.length then ⟨false, pHost.set 0 '\x00', scheme.2, pUrl⟩
      else ⟨true, strncpy pSource hostlen, scheme.2, pUrl⟩

/-! ## URLs -/

/-- The scheme of a URL. -/
inductive Scheme
  | absent
  | http
  | https
deriving Repr, DecidableEq

/-- The text in front of the host. -/
def Scheme.text : Scheme → Str
  | .absent => []
  | .http => "http://".toList
  | .https => "https://".toList

/-- The port of a URL without one. -/
def Scheme.port : Scheme → Nat
  | .absent => 80
  | .http => 80
  | .https => 443

/-- A URL `[http://|https://]host[:port][/path]`. -/
structure Url where
  scheme : Scheme
  host : Str
  port : Option Str
  path : Option Str
  host_colon : ':' ∉ host
  host_slash : '/' ∉ host
  host_nul : '\x00' ∉ host
  path_nul : ∀ p ∈ path, '\x00' ∉ p
  port_digits : ∀ d ∈ port, d ≠ [] ∧ ∀ c ∈ d, isDigit c = true
  port_range : ∀ d ∈ port, 1 ≤ digitsVal 0 d ∧ digitsVal 0 d ≤ 65535

namespace Url

variable (u : Url)

/-- What follows the host. -/
def tail : Str :=
  (u.port.elim [] fun d => ':' :: d) ++ u.path.elim [] fun p => '/' :: p

/-- The URL as a string. -/
def text : Str := u.scheme.text ++ (u.host ++ u.tail)

/-- The port of the URL. -/
def portNum : Nat := u.port.elim u.scheme.port fun d => digitsVal 0 d

/-- **What `parseUrlHostInfo` is to do**: it gives the host, which ends within the array, and the
port, or fails because the host does not fit; the URL stays as it is. -/
def ParsedRight (pHost : Str) (hostlen : Nat) : Prop :=
  let r := parseUrlHostInfo u.text pHost hostlen
  r.url = u.text ∧
    ((r.ret = false ∧ hostlen ≤ u.host.length) ∨
      (r.ret = true ∧ cstr r.host = .ok u.host ∧ r.port = u.portNum))

/-- The URLs that are handled: without a port and a path, unless the host has just the length of the
array; others if the host is too long for being looked at. -/
def Handled (hostlen : Nat) : Prop :=
  match u.port, u.path with
  | none, none => u.host.length ≠ hostlen
  | none, some _ => hostlen ≤ u.host.length
  | some _, _ => hostlen < u.host.length

end Url

/-! ## The scheme -/

theorem toLower_colon {c : Char} (h : toLower c = ':') : c = ':' := toLower_eq (by decide) h

theorem toLower_slash {c : Char} (h : toLower c = '/') : c = '/' := toLower_eq (by decide) h

theorem notMem_of_map_toLower {x l : Str} {c : Char} (hl : c ∉ l)
    (hc : toLower c = c) (hlow : ∀ d, toLower d = c → d = c) (h : x.map toLower = l.map toLower) :
    c ∉ x := by
  intro hx
  have hmem : c ∈ l.map toLower := by
    rw [← h, ← hc]
    exact List.mem_map_of_mem hx
  obtain ⟨d, hd, hdc⟩ := List.mem_map.mp hmem
  exact hl (hlow d hdc ▸ hd)

/-- A string that starts with a scheme has a colon with a slash behind it, and neither before. -/
theorem exists_of_strncasecmpEq {s l : Str} (hcolon : ':' ∉ l) (hslash : '/' ∉ l)
    (h : strncasecmpEq s (l ++ "://".toList) (l.length + 3) = true) :
    ∃ x y, s = x ++ ':' :: '/' :: y ∧ ':' ∉ x ∧ '/' ∉ x := by
  have htake : (l ++ "://".toList).take (l.length + 3) = l ++ "://".toList :=
    List.take_of_length_le (by simp)
  rw [strncasecmpEq, htake, strcasecmpEq, beq_iff_eq, List.map_append] at h
  obtain ⟨x, r, hs, hx, hr⟩ := List.map_eq_append_iff.mp h
  obtain ⟨c1, c2, c3, rfl⟩ := List.length_eq_three.mp (by simpa using congrArg List.length hr)
  obtain ⟨h1, htl⟩ := List.cons.inj hr
  obtain ⟨h2, -⟩ := List.cons.inj htl
  obtain rfl := toLower_colon h1
  obtain rfl := toLower_slash h2
  refine ⟨x, c3 :: s.drop (l.length + 3), ?_,
    notMem_of_map_toLower hcolon rfl (fun _ => toLower_colon) hx,
    notMem_of_map_toLower hslash rfl (fun _ => toLower_slash) hx⟩
  calc s = s.take (l.length + 3) ++ s.drop (l.length + 3) := (List.take_append_drop _ s).symm
    _ = x ++ ':' :: '/' :: c3 :: s.drop (l.length + 3) := by
      rw [hs, List.append_assoc]
      rfl

theorem strncasecmpEq_append (l r : Str) : strncasecmpEq (l ++ r) l l.length = true := by
  rw [strncasecmpEq, List.take_left, List.take_length, strcasecmpEq, beq_self_eq_true]

/-- Strings that differ in a character among the first `n` are told apart. -/
theorem strncasecmpEq_ne {a r r' : Str} {c d : Char} {n : Nat} (hn : a.length < n)
    (h : toLower c ≠ toLower d) : ¬ strncasecmpEq (a ++ c :: r) (a ++ d :: r') n = true := by
  intro heq
  obtain ⟨m, hm⟩ : ∃ m, n = a.length + (m + 1) := ⟨n - a.length - 1, by omega⟩
  rw [hm, strncasecmpEq, List.take_length_add_append, List.take_length_add_append,
    List.take_succ_cons, List.take_succ_cons, strcasecmpEq, beq_iff_eq, List.map_append,
    List.map_append, List.append_cancel_left_eq, List.map_cons, List.map_cons] at heq
  exact h (List.cons.inj heq).1

/-- The copy is a string if there is room for its NUL. -/
theorem cstr_strncpy {s : Str} (h : '\x00' ∉ s) (n : Nat) :
    cstr (strncpy s n) = if s.length < n then .ok s else .error .overrun := by
  rw [strncpy]
  by_cases hn : s.length < n
  · obtain ⟨k, hk⟩ : ∃ k, n - s.length = k + 1 := ⟨n - s.length - 1, by omega⟩
    rw [if_pos hn, List.take_of_length_le (Nat.le_of_lt hn), hk, zeros_succ, cstr_append h]
  · have hz : n - s.length = 0 := by omega
    have hmem : '\x00' ∉ s.take n ++ zeros 0 := by
      rw [zeros, List.replicate_zero, List.append_nil]
      exact fun hm => h (List.mem_of_mem_take hm)
    rw [if_neg hn, hz, cstr, if_neg hmem]

namespace Url

variable {u : Url}

/-- The host of a URL without a scheme cannot be taken for one. -/
theorem not_scheme (x y : Str) (hcolon : ':' ∉ x) (hslash : '/' ∉ x) :
    u.host ++ u.tail ≠ x ++ ':' :: '/' :: y := by
  intro h
  cases hport : u.port with
  | some d =>
    -- behind the first colon is a digit
    obtain ⟨hd, hdig⟩ := u.port_digits d hport
    have htail : u.tail = ':' :: (d ++ u.path.elim [] fun p => '/' :: p) := by
      rw [tail, hport]
      rfl
    rw [htail] at h
    obtain ⟨-, hrest⟩ := append_cons_unique u.host_colon hcolon h
    cases d with
    | nil => exact absurd rfl hd
    | cons c d =>
      obtain ⟨rfl, -⟩ := List.cons.inj hrest
      exact absurd (hdig '/' List.mem_cons_self) (by decide)
  | none =>
    cases hpath : u.path with
    | some p =>
      -- in front of the first slash is no colon
      have htail : u.tail = '/' :: p := by
        rw [tail, hport, hpath]
        rfl
      have hsplit : u.host ++ '/' :: p = (x ++ [':']) ++ '/' :: y := by
        rw [← htail, h]
        simp
      obtain ⟨hhost, -⟩ := append_cons_unique u.host_slash (by simp [hslash]) hsplit
      exact u.host_colon (by rw [hhost]; simp)
    | none =>
      have htail : u.tail = [] := by
        rw [tail, hport, hpath]
        rfl
      rw [htail, List.append_nil] at h
      exact u.host_colon (by rw [h]; simp)

/-- The scheme is skipped. -/
theorem skipScheme_text : skipScheme u.text = (u.scheme.text.length, u.scheme.port) := by
  rw [skipScheme, text]
  cases u.scheme with
  | https =>
    have hhttps : strncasecmpEq (Scheme.https.text ++ (u.host ++ u.tail)) "https://".toList 8 =
        true := strncasecmpEq_append "https://".toList _
    rw [if_pos hhttps]
    rfl
  | http =>
    have hhttps : ¬ strncasecmpEq (Scheme.http.text ++ (u.host ++ u.tail)) "https://".toList 8 =
        true := by
      have hsplit : Scheme.http.text = "http".toList ++ ':' :: "//".toList := by decide
      have hsplit' : "https://".toList = "http".toList ++ 's' :: "://".toList := by decide
      rw [hsplit, hsplit', List.append_assoc, List.cons_append]
      exact strncasecmpEq_ne (by decide) (by decide)
    have hhttp : strncasecmpEq (Scheme.http.text ++ (u.host ++ u.tail)) "http://".toList 7 = true :=
      strncasecmpEq_append "http://".toList _
    rw [if_neg hhttps, if_pos hhttp]
    rfl
  | absent =>
    have hnone : ∀ l : Str, ':' ∉ l → '/' ∉ l →
        ¬ strncasecmpEq (u.host ++ u.tail) (l ++ "://".toList) (l.length + 3) = true := by
      intro l h1 h2 h
      obtain ⟨x, y, hs, hx, hy⟩ := exists_of_strncasecmpEq h1 h2 h
      exact not_scheme x y hx hy hs
    have hhttps : ¬ strncasecmpEq (Scheme.absent.text ++ (u.host ++ u.tail)) "https://".toList 8 =
        true := by
      have hsplit : "https://".toList = "https".toList ++ "://".toList := by decide
      rw [hsplit]
      exact hnone "https".toList (by decide) (by decide)
    have hhttp : ¬ strncasecmpEq (Scheme.absent.text ++ (u.host ++ u.tail)) "http://".toList 7 =
        true := by
      have hsplit : "http://".toList = "http".toList ++ "://".toList := by decide
      rw [hsplit]
      exact hnone "http".toList (by decide) (by decide)
    rw [if_neg hhttps, if_neg hhttp]
    rfl

/-! ## The host -/

/-- The result for a source without a colon. -/
theorem parseUrlHostInfo_whole {hostlen : Nat} (pHost : Str) (hlen : 0 < hostlen)
    (h : ':' ∉ u.host ++ u.tail) :
    parseUrlHostInfo u.text pHost hostlen =
      if hostlen < (u.host ++ u.tail).length then
        ⟨false, pHost.set 0 '\x00', u.scheme.port, u.text⟩
      else ⟨true, strncpy (u.host ++ u.tail) hostlen, u.scheme.port, u.text⟩ := by
  have hdrop : u.text.drop u.scheme.text.length = u.host ++ u.tail := List.drop_left
  rw [parseUrlHostInfo, if_neg (by omega), skipScheme_text]
  simp only [hdrop, List.idxOf?_eq_none_iff.mpr h]

/-- The result for a source with a colon. -/
theorem parseUrlHostInfo_cut {hostlen : Nat} (pHost : Str) (hlen : 0 < hostlen) {a b : Str}
    (hsrc : u.host ++ u.tail = a ++ ':' :: b) (ha : ':' ∉ a) :
    parseUrlHostInfo u.text pHost hostlen =
      if hostlen < a.length then ⟨false, pHost.set 0 '\x00', u.scheme.port, u.text⟩
      else ⟨true, strncpy a hostlen, (scanU b).toNat % 65536,
        u.scheme.text ++ (a ++ '\x00' :: b)⟩ := by
  have htext : u.text = u.scheme.text ++ (a ++ ':' :: b) := by rw [text, hsrc]
  have hdrop : u.text.drop u.scheme.text.length = a ++ ':' :: b := by rw [htext, List.drop_left]
  have hset : u.text.set (u.scheme.text.length + a.length) '\x00' =
      u.scheme.text ++ (a ++ '\x00' :: b) := by
    rw [htext]
    simp
  rw [parseUrlHostInfo, if_neg (by omega), skipScheme_text]
  simp only [hdrop, idxOf?_append_cons ha, hset]
  simp

/-- A cut URL is not the URL. -/
theorem cut_ne_text {a b : Str} (hsrc : u.host ++ u.tail = a ++ ':' :: b) :
    u.scheme.text ++ (a ++ '\x00' :: b) ≠ u.text := by
  rw [text, hsrc]
  simp

/-- Where the host is too short for a failure, a source with a colon is cut. -/
theorem parsedRight_cut {hostlen : Nat} (pHost : Str) (hlen : 0 < hostlen) {a b : Str}
    (hsrc : u.host ++ u.tail = a ++ ':' :: b) (ha : ':' ∉ a) :
    u.ParsedRight pHost hostlen ↔ hostlen < a.length ∧ hostlen ≤ u.host.length := by
  simp only [ParsedRight, parseUrlHostInfo_cut pHost hlen hsrc ha]
  by_cases hfit : hostlen < a.length
  · simp [hfit]
  · simp [hfit, cut_ne_text hsrc]

theorem parsedRight_whole {hostlen : Nat} (pHost : Str) (hlen : 0 < hostlen)
    (h : ':' ∉ u.host ++ u.tail) (hnul : '\x00' ∉ u.tail) (hport : u.port = none) :
    u.ParsedRight pHost hostlen ↔
      if hostlen < (u.host ++ u.tail).length then hostlen ≤ u.host.length
      else u.tail = [] ∧ u.host.length < hostlen := by
  have hnum : u.portNum = u.scheme.port := by rw [portNum, hport]; rfl
  simp only [ParsedRight, parseUrlHostInfo_whole pHost hlen h]
  by_cases hfit : hostlen < (u.host ++ u.tail).length
  · simp only [hfit, if_true]
    simp
  · have hnul' : '\x00' ∉ u.host ++ u.tail := by simp [hnul, u.host_nul]
    have hcopy : cstr (strncpy (u.host ++ u.tail) hostlen) = .ok u.host ↔
        u.tail = [] ∧ u.host.length < hostlen := by
      rw [cstr_strncpy hnul']
      by_cases hroom : (u.host ++ u.tail).length < hostlen
      · rw [if_pos hroom, Except.ok.injEq, List.append_right_eq_self]
        rw [List.length_append] at hroom
        exact ⟨fun ht => ⟨ht, by omega⟩, fun ht => ht.1⟩
      · rw [if_neg hroom]
        refine ⟨fun ht => (by cases ht), ?_⟩
        rintro ⟨ht, hh⟩
        exact absurd (by rw [ht, List.append_nil]; exact hh) hroom
    simp only [hfit, if_false, hnum, hcopy]
    simp

theorem handled_port {hostlen : Nat} {d : Str} (h : u.port = some d) :
    u.Handled hostlen ↔ hostlen < u.host.length := by
  rw [Handled, h]

theorem handled_path {hostlen : Nat} {p : Str} (h : u.port = none) (hp : u.path = some p) :
    u.Handled hostlen ↔ hostlen ≤ u.host.length := by
  rw [Handled, h, hp]

theorem handled_host {hostlen : Nat} (h : u.port = none) (hp : u.path = none) :
    u.Handled hostlen ↔ u.host.length ≠ hostlen := by
  rw [Handled, h, hp]

end Url

/-- **When `parseUrlHostInfo` is right**: for URLs without port and path whose host has not just the
length of the array; for others only if the host is too long. -/
theorem parsedRight_iff (u : Url) (pHost : Str) (hostlen : Nat) (hlen : 0 < hostlen) :
    u.ParsedRight pHost hostlen ↔ u.Handled hostlen := by
  cases hport : u.port with
  | some d =>
    have hsrc : u.host ++ u.tail = u.host ++ ':' :: (d ++ u.path.elim [] fun p => '/' :: p) := by
      rw [Url.tail, hport]
      rfl
    rw [Url.handled_port hport, Url.parsedRight_cut pHost hlen hsrc u.host_colon]
    omega
  | none =>
    cases hpath : u.path with
    | none =>
      have htail : u.tail = [] := by
        rw [Url.tail, hport, hpath]
        rfl
      have hcolon : ':' ∉ u.host ++ u.tail := by simp [htail, u.host_colon]
      rw [Url.handled_host hport hpath,
        Url.parsedRight_whole pHost hlen hcolon (by simp [htail]) hport, htail, List.append_nil]
      split
      · omega
      · simp only [true_and]
        omega
    | some p =>
      have htail : u.tail = '/' :: p := by
        rw [Url.tail, hport, hpath]
        rfl
      have hnul : '\x00' ∉ u.tail := by simp [htail, u.path_nul p hpath]
      rw [Url.handled_path hport hpath]
      by_cases hcolon : ':' ∈ p
      · -- the colon of the path is taken for that of the port
        obtain ⟨a, b, rfl, ha⟩ := List.eq_append_cons_of_mem hcolon
        have hsrc : u.host ++ u.tail = (u.host ++ '/' :: a) ++ ':' :: b := by simp [htail]
        rw [Url.parsedRight_cut pHost hlen hsrc (by simp [ha, u.host_colon]), List.length_append,
          List.length_cons]
        omega
      · rw [Url.parsedRight_whole pHost hlen (by simp [htail, hcolon, u.host_colon]) hnul hport,
          htail, List.length_append, List.length_cons]
        split
        · rfl
        · exact iff_of_false (fun h => List.cons_ne_nil '/' p h.1) (by omega)

/-- `http://a/b` for an array of 16 bytes: the host is to be `a`, and `a/b` is stored. -/
def pathUrl : Url where
  scheme := .http
  host := ['a']
  port := none
  path := some ['b']
  host_colon := by decide
  host_slash := by decide
  host_nul := by decide
  path_nul := by decide
  port_digits := by decide
  port_range := by decide

theorem not_parsedRight :
    cstr (parseUrlHostInfo pathUrl.text (zeros 16) 16).host = .ok "a/b".toList ∧
      ¬ pathUrl.ParsedRight (zeros 16) 16 := by
  have hcolon : ':' ∉ pathUrl.host ++ pathUrl.tail := by decide
  refine ⟨?_, fun h => ?_⟩
  · rw [Url.parseUrlHostInfo_whole (zeros 16) (by decide) hcolon]
    decide
  · rw [Url.parsedRight_whole (zeros 16) (by decide) hcolon (by decide) rfl] at h
    exact absurd h (by decide)

/-- The URL `http://a/b`, which is not handled. -/
theorem parsedRight_iff_pathUrl :
    pathUrl.ParsedRight (zeros 16) 16 ↔ pathUrl.Handled 16 :=
  parsedRight_iff pathUrl (zeros 16) 16 (by decide)

end OnuFirmware.Utility
