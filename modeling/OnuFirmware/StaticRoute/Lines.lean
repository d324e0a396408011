import OnuFirmware.StaticRoute.Script
import Mathlib.Data.Bool.AllAny

/-!
# The commands of a static route

For well-formed attributes no buffer is too short and nothing in a command is taken for injected
code, so each of the functions writes the command that the attributes give. The destination can be
read off it.
-/

namespace OnuFirmware.StaticRoute

open Clib Cfg Lib Utility

/-! ## Characters -/

section Chars

variable {t v : Str} {c : Char}

/-- A character that is neither taken for injected code nor escaped. -/
def Plain (c : Char) : Prop := checkInjectionCode c = false ∧ c ≠ backquote

theorem plain_of_iface (h : isIfaceChar c = true) : Plain c := by
  have hno : ∀ d ∈ backquote :: injectCode, isIfaceChar d = false :=
    List.all_iff_forall_prop.mp (by decide)
  have hnot : c ∉ backquote :: injectCode := fun hm => by
    rw [hno c hm] at h
    exact Bool.false_ne_true h
  rw [List.mem_cons, not_or] at hnot
  refine ⟨?_, hnot.1⟩
  rw [checkInjectionCode, List.contains_eq_mem, decide_eq_false_iff_not]
  exact hnot.2

theorem blank_notMem_of_iface (h : ∀ c ∈ t, isIfaceChar c = true) : ' ' ∉ t := fun hm =>
  absurd (h ' ' hm) (by decide)

theorem escape_plain {outp : Str} {len : Nat} (h : backquote ∉ t) :
    escapeSpecialCharacter t outp len = .ok t := by
  rw [escapeSpecialCharacter, List.idxOf?_eq_none_iff.mpr h]

/-- **A text of plain characters is written as it is**, also as a comment. -/
theorem fputsEscape_plain (h : ∀ c ∈ t, Plain c) :
    fputsEscape t = .ok (some t) ∧ fputsEscape ('#' :: t) = .ok (some ('#' :: t)) := by
  have hback : backquote ∉ t := fun hm => (h _ hm).2 rfl
  have hcheck : ∀ n i, checkInjectionLoop n i t = true := fun n i =>
    checkInjectionLoop_of_plain n t i fun c hc => (h c hc).1
  constructor
  · rw [fputsEscape, checkInjectionCodeCommand, if_pos (hcheck _ _), escape_plain hback]
    rfl
  · have hhash : checkInjectionCodeCommand ('#' :: t) = true := by
      rw [checkInjectionCodeCommand, checkInjectionLoop, if_pos (by decide),
        if_neg fun h => absurd h.1 (by decide), if_pos ⟨rfl, by simp, rfl⟩]
      exact hcheck _ _
    rw [fputsEscape, if_pos hhash, escape_plain (by
      rw [List.mem_cons, not_or]
      exact ⟨by decide, hback⟩)]
    rfl

theorem v4_text (h : (inetPton4 t).isSome = true) :
    t ≠ [] ∧ t.length ≤ 15 ∧ ∀ c ∈ t, isIfaceChar c = true := by
  obtain ⟨x, hx⟩ := Option.isSome_iff_exists.mp h
  obtain ⟨hlen, hchars⟩ := inetPton4_some hx
  refine ⟨fun hnil => ?_, hlen, fun c hc => ?_⟩
  · rw [hnil] at h
    exact absurd h (by decide)
  · rcases hchars c hc with hd | rfl
    · simp [isIfaceChar, hd]
    · decide

theorem metric_text {n : Nat} (h : n ≤ intMax) :
    (fmtNat n).length ≤ 10 ∧ ∀ c ∈ fmtNat n, isIfaceChar c = true :=
  ⟨(length_fmtNat_le (by decide)).mpr (lt_ten_digits h), fun c hc => by
    simp [isIfaceChar, isDigit_of_mem_fmtNat hc]⟩

end Chars

/-! ## Parts -/

section Parts

variable {skip : Prop} [Decidable skip] {keyword : String} {value string : Str}

theorem length_part : (part keyword value).length = keyword.toList.length + value.length + 2 := by
  rw [part, List.length_append, List.length_append, List.length_cons, List.length_singleton]
  omega

theorem length_optText_le :
    (optText skip keyword value).length ≤ keyword.toList.length + value.length + 2 := by
  rw [optText]
  split
  · exact Nat.zero_le _
  · exact Nat.le_of_eq length_part

/-- A part for which there is room. -/
theorem optPart_eq (hpart : keyword.toList.length + value.length + 2 < 32)
    (hroom : string.length + (keyword.toList.length + value.length + 2) < 128) :
    optPart skip keyword value string = .ok (string ++ optText skip keyword value) := by
  rw [optPart, optText]
  split
  · rw [List.append_nil]
  · rw [snprintf_eq (by rw [length_part]; exact hpart), strcat, if_pos (by
      rw [length_part]
      exact hroom)]

theorem optText_congr {skip' : Prop} [Decidable skip'] (h : skip ↔ skip') :
    optText skip keyword value = optText skip' keyword value := by
  rw [optText, optText]
  simp only [h]

theorem optText_false : optText False keyword value = part keyword value := if_neg id

theorem mem_part {c : Char} (h : c ∈ part keyword value) :
    c ∈ keyword.toList ∨ c = ' ' ∨ c ∈ value := by
  rw [part, List.append_assoc, List.mem_append, List.cons_append, List.mem_cons, List.mem_append,
    List.mem_singleton] at h
  tauto

theorem mem_optText {c : Char} (h : c ∈ optText skip keyword value) :
    c ∈ keyword.toList ∨ c = ' ' ∨ c ∈ value := by
  rw [optText] at h
  split at h
  · exact absurd h List.not_mem_nil
  · exact mem_part h

end Parts

/-! ## Commands -/

section Commands

variable {r : Route} {string : Str} {wan : Str → Option (Option Str)}

theorem read_attr {attr : Option Str} {size : Nat} (h : (attr.getD []).length < size) :
    attrText attr size [] = attr.getD [] := by
  rw [attrText_getD, snprintf_eq h]

theorem Route.device_text (r : Route) :
    (r.device.getD []).length ≤ 15 ∧ ∀ c ∈ r.device.getD [], isIfaceChar c = true := by
  cases hd : r.device with
  | none => exact ⟨Nat.zero_le _, fun c hc => absurd hc List.not_mem_nil⟩
  | some d => exact r.device_ok d hd

theorem Route.metric_eq_zero (r : Route) : fmtNat r.metric = "0".toList ↔ ¬ 0 < r.metric := by
  have hzero : "0".toList = fmtNat 0 := by decide
  rw [hzero, fmtNat_inj]
  omega

theorem length_routeArgs_le (a : RouteAttrs) : (routeArgs a).length ≤
    32 + (a.dst.getD []).length + (a.mask.getD []).length + (a.device.getD []).length +
      (a.gateway.getD []).length + (a.metric.getD []).length := by
  have hnet : "-net".toList.length = 4 := by decide
  have hnetmask : "netmask".toList.length = 7 := by decide
  have hdev : "dev".toList.length = 3 := by decide
  have hgw : "gw".toList.length = 2 := by decide
  have hmetric : "metric".toList.length = 6 := by decide
  have h3 := @length_optText_le (a.device.getD [] = []) _ "dev" (a.device.getD [])
  have h4 := @length_optText_le (a.gateway.getD [] = anyAddr) _ "gw" (a.gateway.getD [])
  have h5 := @length_optText_le (a.metric.getD [] = "0".toList) _ "metric" (a.metric.getD [])
  rw [routeArgs]
  simp only [List.length_append, length_part]
  omega

/-- What is in a command besides the values. -/
def commandChars : Str :=
  "-net".toList ++ "netmask".toList ++ "dev".toList ++ "gw".toList ++ "metric".toList ++ [' ']

theorem mem_routeArgs {a : RouteAttrs} {c : Char} (h : c ∈ routeArgs a) :
    c ∈ commandChars ∨ c ∈ a.dst.getD [] ∨ c ∈ a.mask.getD [] ∨ c ∈ a.device.getD [] ∨
      c ∈ a.gateway.getD [] ∨ c ∈ a.metric.getD [] := by
  have hblank : ' ' ∈ commandChars := by decide
  have hkey : ∀ {keyword : String} {value : Str}, keyword.toList.all (· ∈ commandChars) →
      c ∈ keyword.toList ∨ c = ' ' ∨ c ∈ value → c ∈ commandChars ∨ c ∈ value := by
    rintro keyword value hsub (h | rfl | h)
    · exact .inl (List.all_iff_forall_prop.mp hsub c h)
    · exact .inl hblank
    · exact .inr h
  simp only [routeArgs, List.mem_append] at h
  rcases h with (((h | h) | h) | h) | h
  · exact (hkey (by decide) (mem_part h)).imp_right .inl
  · exact (hkey (by decide) (mem_part h)).imp_right fun h => .inr (.inl h)
  · exact (hkey (by decide) (mem_optText h)).imp_right fun h => .inr (.inr (.inl h))
  · exact (hkey (by decide) (mem_optText h)).imp_right fun h => .inr (.inr (.inr (.inl h)))
  · exact (hkey (by decide) (mem_optText h)).imp_right fun h => .inr (.inr (.inr (.inr h)))

/-- The attributes of a route stay short of the buffer, and their characters are plain. -/
theorem routeArgs_text (r : Route) :
    (routeArgs r.attrs).length ≤ 102 ∧ ∀ c ∈ routeArgs r.attrs, Plain c := by
  obtain ⟨-, hdst, cdst⟩ := v4_text r.dst_ok
  obtain ⟨-, hmask, cmask⟩ := v4_text r.mask_ok
  obtain ⟨-, hgateway, cgateway⟩ := v4_text r.gateway_ok
  obtain ⟨hdevice, cdevice⟩ := r.device_text
  obtain ⟨hmetric, cmetric⟩ := metric_text r.metric_ok
  constructor
  · have hlen : (routeArgs r.attrs).length ≤ 32 + r.dst.length + r.mask.length +
        (r.device.getD []).length + r.gateway.length + (fmtNat r.metric).length :=
      length_routeArgs_le r.attrs
    omega
  · have hkeys : ∀ c ∈ commandChars, checkInjectionCode c = false ∧ c ≠ backquote :=
      List.all_iff_forall_prop.mp (by decide)
    intro c hc
    rcases mem_routeArgs hc with h | h | h | h | h | h
    · exact hkeys c h
    · exact plain_of_iface (cdst c h)
    · exact plain_of_iface (cmask c h)
    · exact plain_of_iface (cdevice c h)
    · exact plain_of_iface (cgateway c h)
    · exact plain_of_iface (cmetric c h)

theorem strcat_command (r : Route) {head : Str} (hlen : head.length ≤ 17) :
    strcat (head ++ routeArgs r.attrs) ['\n'] = .ok (head ++ routeArgs r.attrs ++ ['\n']) := by
  have hargs := (routeArgs_text r).1
  refine if_pos ?_
  rw [List.length_append, List.length_singleton]
  omega

/-- A command is written as it is. -/
theorem fputs_command (r : Route) {head : Str} (hhead : ∀ c ∈ head, Plain c) :
    fputsEscape (head ++ routeArgs r.attrs ++ ['\n']) =
        .ok (some (head ++ routeArgs r.attrs ++ ['\n'])) ∧
      fputsEscape ('#' :: (head ++ routeArgs r.attrs ++ ['\n'])) =
        .ok (some ('#' :: (head ++ routeArgs r.attrs ++ ['\n']))) := by
  have hend : checkInjectionCode '\n' = false ∧ '\n' ≠ backquote := by decide
  refine fputsEscape_plain fun c hc => ?_
  rw [List.mem_append, List.mem_append, List.mem_singleton] at hc
  rcases hc with (hc | hc) | rfl
  · exact hhead c hc
  · exact (routeArgs_text r).2 c hc
  · exact hend

/-- The heads of the commands. -/
theorem plain_heads : (∀ c ∈ addHead, Plain c) ∧ ∀ c ∈ delHead, Plain c := by
  have hadd : ∀ c ∈ addHead, checkInjectionCode c = false ∧ c ≠ backquote :=
    List.all_iff_forall_prop.mp (by decide)
  have hdel : ∀ c ∈ delHead, checkInjectionCode c = false ∧ c ≠ backquote :=
    List.all_iff_forall_prop.mp (by decide)
  exact ⟨hadd, hdel⟩

/-- The head of a line of `route.sh`. -/
def bootHead (active : Option Str) : Str := if active = some yes then addHead else markedHead

theorem length_bootHead (active : Option Str) : (bootHead active).length ≤ 17 := by
  rw [bootHead]
  split <;> decide

theorem fputs_bootHead (r : Route) (active : Option Str) :
    fputsEscape (bootHead active ++ routeArgs r.attrs ++ ['\n']) =
      .ok (some (bootHead active ++ routeArgs r.attrs ++ ['\n'])) := by
  obtain ⟨hadd, hmarked⟩ := fputs_command r plain_heads.1
  have hhead : markedHead = '#' :: addHead := by decide
  rw [bootHead]
  split
  · exact hadd
  · rw [hhead]
    exact hmarked

/-- The values of a route as they are read into buffers of 16 bytes or more. -/
theorem Route.read (r : Route) {size : Nat} (h : 16 ≤ size) :
    attrText r.attrs.dst size [] = r.dst ∧ attrText r.attrs.mask size [] = r.mask ∧
      attrText r.attrs.device size [] = r.device.getD [] ∧
      attrText r.attrs.gateway size [] = r.gateway ∧
      attrText r.attrs.metric size [] = fmtNat r.metric := by
  have hdst := (v4_text r.dst_ok).2.1
  have hmask := (v4_text r.mask_ok).2.1
  have hgateway := (v4_text r.gateway_ok).2.1
  have hmetric := (metric_text r.metric_ok).1
  have hdevice := r.device_text.1
  refine ⟨read_attr ?_, read_attr ?_, read_attr ?_, read_attr ?_, read_attr ?_⟩ <;>
    simp only [Route.attrs, Option.getD_some] <;> omega

/-- A part with a value of at most 15 characters, with what it adds at most. -/
theorem optPart_le {skip : Prop} [Decidable skip] {keyword : String} {value : Str} {n k : Nat}
    (hkeyword : keyword.toList.length = k) (hk : k ≤ 14) (hn : n + (k + 17) < 128)
    (hstring : string.length ≤ n) (hvalue : value.length ≤ 15) :
    optPart skip keyword value string = .ok (string ++ optText skip keyword value) ∧
      (string ++ optText skip keyword value).length ≤ n + (k + 17) := by
  have hlen := @length_optText_le skip _ keyword value
  refine ⟨optPart_eq (by omega) (by omega), ?_⟩
  rw [List.length_append]
  omega

theorem deviceUp_iff (env : Env) (r : Route) : DeviceUp env r.attrs ↔
    ¬ (r.device.getD [] ≠ [] ∧ r.device.getD [] ≠ "br0".toList ∧
      ¬ WanUp env.wan (r.device.getD [])) := by
  rw [DeviceUp]
  exact ⟨fun h hc => h.elim hc.1 fun h => h.elim hc.2.1 hc.2.2, fun h => by
    by_contra hc
    obtain ⟨h1, h2, h3⟩ := by simpa only [not_or] using hc
    exact h ⟨h1, h2, h3⟩⟩

/-- **The attributes of a route behind the head of a command**, if its device can be used. -/
theorem exeArgs_eq (env : Env) (r : Route) (hlen : string.length ≤ 17) :
    (DeviceUp env r.attrs →
      exeArgs env.wan r.attrs string = .ok (some (string ++ routeArgs r.attrs))) ∧
    (¬ DeviceUp env r.attrs → exeArgs env.wan r.attrs string = .ok none) := by
  obtain ⟨hdst, hmask, hdevice, hgateway, hmetric⟩ := r.read (le_refl 16)
  obtain ⟨hdst0, hdst15, -⟩ := v4_text r.dst_ok
  obtain ⟨hmask0, hmask15, -⟩ := v4_text r.mask_ok
  obtain ⟨hgateway0, hgateway15, -⟩ := v4_text r.gateway_ok
  have hdevice15 := r.device_text.1
  have hmetric15 := (metric_text r.metric_ok).1
  obtain ⟨e1, l1⟩ := @optPart_le string False _ "-net" r.dst 17 4 (by decide) (by decide)
    (by decide) hlen hdst15
  obtain ⟨e2, l2⟩ := @optPart_le _ (r.mask = []) _ "netmask" r.mask 38 7 (by decide) (by decide)
    (by decide) l1 hmask15
  obtain ⟨e3, l3⟩ := @optPart_le _ (r.device.getD [] = []) _ "dev" (r.device.getD []) 62 3
    (by decide) (by decide) (by decide) l2 hdevice15
  obtain ⟨e4, l4⟩ := @optPart_le _ (r.gateway = [] ∨ r.gateway = anyAddr) _ "gw" r.gateway 82 2
    (by decide) (by decide) (by decide) l3 hgateway15
  obtain ⟨e5, -⟩ := @optPart_le _ (¬ 0 < atoi (fmtNat r.metric)) _ "metric" (fmtNat r.metric) 101 6
    (by decide) (by decide) (by decide) l4 (by omega)
  rw [deviceUp_iff, exeArgs]
  simp only [hdst, hmask, hdevice, hgateway, hmetric, if_neg hdst0, bind, Except.bind, e1, e2]
  constructor
  · intro hup
    rw [if_neg hup]
    have hzero : ¬ 0 < atoi (fmtNat r.metric) ↔ fmtNat r.metric = "0".toList := by
      rw [atoi_fmtNat r.metric_ok, Int.natCast_pos, r.metric_eq_zero]
    simp only [e3, e4, e5]
    rw [optText_false, optText, if_neg hmask0, optText_congr (or_iff_right hgateway0),
      optText_congr hzero, routeArgs]
    simp only [List.append_assoc]
    rfl
  · intro hup
    rw [if_pos (not_not.mp hup)]

/-- **The line of a route.** -/
theorem bootLine_eq (r : Route) :
    bootLine r.attrs = .ok (some (bootHead r.active ++ routeArgs r.attrs ++ ['\n'])) := by
  obtain ⟨hdst, hmask, hdevice, hgateway, hmetric⟩ := r.read (by decide : 16 ≤ 32)
  obtain ⟨hdst0, hdst15, -⟩ := v4_text r.dst_ok
  obtain ⟨hmask0, hmask15, -⟩ := v4_text r.mask_ok
  obtain ⟨-, hgateway15, -⟩ := v4_text r.gateway_ok
  have hdevice15 := r.device_text.1
  have hmetric15 := (metric_text r.metric_ok).1
  have hactive : attrText r.attrs.active 32 [] = yes ↔ r.active = some yes :=
    attrText_nil_eq_iff (by decide) (by decide)
  have hhead := length_bootHead r.active
  obtain ⟨e1, l1⟩ := @optPart_le _ (r.dst = []) _ "-net" r.dst 17 4 (by decide) (by decide)
    (by decide) hhead hdst15
  obtain ⟨e2, l2⟩ := @optPart_le _ (r.mask = []) _ "netmask" r.mask 38 7 (by decide) (by decide)
    (by decide) l1 hmask15
  obtain ⟨e3, l3⟩ := @optPart_le _ (r.device.getD [] = []) _ "dev" (r.device.getD []) 62 3
    (by decide) (by decide) (by decide) l2 hdevice15
  obtain ⟨e4, l4⟩ := @optPart_le _ (r.gateway = anyAddr) _ "gw" r.gateway 82 2
    (by decide) (by decide) (by decide) l3 hgateway15
  obtain ⟨e5, -⟩ := @optPart_le _ (fmtNat r.metric = "0".toList) _ "metric" (fmtNat r.metric) 101 6
    (by decide) (by decide) (by decide) l4 (by omega)
  have hargs : bootHead r.active ++ optText (r.dst = []) "-net" r.dst ++
      optText (r.mask = []) "netmask" r.mask ++
      optText (r.device.getD [] = []) "dev" (r.device.getD []) ++
      optText (r.gateway = anyAddr) "gw" r.gateway ++
      optText (fmtNat r.metric = "0".toList) "metric" (fmtNat r.metric) =
        bootHead r.active ++ routeArgs r.attrs := by
    rw [optText, if_neg hdst0, optText, if_neg hmask0, routeArgs]
    simp only [List.append_assoc]
    rfl
  rw [bootLine]
  simp only [hdst, hmask, hdevice, hgateway, hmetric, hactive, bind, Except.bind]
  rw [← bootHead, e1]
  simp only [e2, e3, e4, e5, hargs, strcat_command r hhead]
  exact fputs_bootHead r r.active

end Commands

/-! ## The destination -/

section Destination

variable {r r' : Route} {l x y : Str}

/-- The fields of a command. -/
theorem splitOn_command (hx : ' ' ∉ x) (hy : ' ' ∉ y) (r : Route) :
    ∃ rest, (x ++ ' ' :: (y ++ ' ' :: (routeArgs r.attrs ++ ['\n']))).splitOn ' ' =
      x :: y :: "-net".toList :: r.dst :: rest := by
  have hdst := blank_notMem_of_iface (v4_text r.dst_ok).2.2
  have hargs : ∃ more, routeArgs r.attrs ++ ['\n'] =
      "-net".toList ++ ' ' :: (r.dst ++ ' ' :: more) := by
    rw [routeArgs, part]
    simp only [List.append_assoc, List.cons_append, List.nil_append]
    exact ⟨_, rfl⟩
  obtain ⟨more, hmore⟩ := hargs
  refine ⟨more.splitOn ' ', ?_⟩
  rw [hmore, List.splitOn_append_cons_self_of_not_mem hx,
    List.splitOn_append_cons_self_of_not_mem hy,
    List.splitOn_append_cons_self_of_not_mem (by decide),
    List.splitOn_append_cons_self_of_not_mem hdst]

theorem delLine_eq (a : RouteAttrs) : delLine a =
    "/sbin/route".toList ++ ' ' :: ("del".toList ++ ' ' :: (routeArgs a ++ ['\n'])) := by
  have hhead : delHead = "/sbin/route".toList ++ ' ' :: ("del".toList ++ [' ']) := by decide
  rw [delLine, hhead]
  simp only [List.append_assoc, List.cons_append, List.nil_append]

/-- **The destination can be read off the command.** -/
theorem lineDst_delLine (r : Route) : lineDst (delLine r.attrs) = some r.dst := by
  obtain ⟨rest, hrest⟩ := @splitOn_command "/sbin/route".toList "del".toList (by decide) (by decide) r
  rw [delLine_eq, lineDst, hrest]
  exact if_pos rfl

theorem delLine_inj (h : delLine r.attrs = delLine r'.attrs) : r.dst = r'.dst := by
  have hdst := congrArg lineDst h
  rw [lineDst_delLine, lineDst_delLine] at hdst
  exact Option.some.inj hdst

/-- `update_route_sh` finds it, too. -/
theorem findNet_delLine (r : Route) : ∃ ps, strtokAll ' ' (delLine r.attrs) =
    "/sbin/route".toList :: ps ∧ findNet ps = .ok (some r.dst) := by
  obtain ⟨rest, hrest⟩ := @splitOn_command "/sbin/route".toList "del".toList (by decide) (by decide) r
  have hdst : r.dst ≠ [] := (v4_text r.dst_ok).1
  refine ⟨"del".toList :: "-net".toList :: r.dst :: rest.filter (· ≠ []), ?_, rfl⟩
  rw [delLine_eq, strtokAll, hrest, List.filter_cons_of_pos (by decide),
    List.filter_cons_of_pos (by decide), List.filter_cons_of_pos (by decide),
    List.filter_cons_of_pos (by simpa using hdst)]

theorem slash_notMem_routeArgs (r : Route) : '/' ∉ routeArgs r.attrs := by
  have hiface : ∀ {t : Str}, (∀ c ∈ t, isIfaceChar c = true) → '/' ∉ t := fun h hm =>
    absurd (h '/' hm) (by decide)
  intro h
  rcases mem_routeArgs h with h | h | h | h | h | h
  · exact absurd h (by decide)
  · exact hiface (v4_text r.dst_ok).2.2 h
  · exact hiface (v4_text r.mask_ok).2.2 h
  · exact hiface r.device_text.2 h
  · exact hiface (v4_text r.gateway_ok).2.2 h
  · exact hiface (metric_text r.metric_ok).2 h

/-- The command is not taken for one that adds a route. -/
theorem hasStr_delLine (r : Route) :
    hasStr (delLine r.attrs) "/sbin/route add".toList = false := by
  have hrest : '/' ∉ "route del ".toList ++ (routeArgs r.attrs ++ ['\n']) := by
    rw [List.mem_append, List.mem_append, not_or, not_or]
    exact ⟨by decide, slash_notMem_routeArgs r, by decide⟩
  have hline : delLine r.attrs = '/' :: ("sbin".toList ++ '/' :: ("route del ".toList ++
      (routeArgs r.attrs ++ ['\n']))) := by
    have hhead : delHead = '/' :: ("sbin".toList ++ '/' :: "route del ".toList) := by decide
    rw [delLine, hhead]
    simp only [List.append_assoc, List.cons_append]
  have hkey : "/sbin/route add".toList = '/' :: "sbin/route add".toList := by decide
  -- the command is neither at the first slash nor at the second one
  have hfirst : ∀ t, List.isPrefixOf ('/' :: "sbin/route add".toList)
      ('/' :: ("sbin".toList ++ '/' :: ("route del ".toList ++ t))) = false := fun t => rfl
  have hsecond : ∀ t, List.isPrefixOf ('/' :: "sbin/route add".toList)
      ('/' :: ("route del ".toList ++ t)) = false := fun t => rfl
  have hnone := @strstrRest_append '/' "sbin/route add".toList _ [] hrest
  rw [List.append_nil] at hnone
  rw [hasStr, hline, hkey, strstrRest, hfirst, if_neg Bool.false_ne_true,
    strstrRest_append _ (by decide), strstrRest, hsecond, if_neg Bool.false_ne_true, hnone]
  rfl

/-- What is the destination of a line stands in it. -/
theorem hasStr_of_lineDst {d : Str} (h : lineDst l = some d) : hasStr l d = true := by
  rw [lineDst] at h
  split at h
  · next hl =>
    split at h
    · obtain rfl := Option.some.inj h
      exact hasStr_iff.mpr (infix_of_mem_splitOn (x := ' ') (by rw [hl]; simp))
    · exact nomatch h
  · exact nomatch h

end Destination

end OnuFirmware.StaticRoute
