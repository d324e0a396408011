import OnuFirmware.Lib.Cycle
import OnuFirmware.Tr181.LinkRuns
import OnuFirmware.Utility.Escape
import Mathlib.Data.Int.Interval
import Mathlib.Data.Set.Finite.Lattice

/-!
# The walks up to the IP entry

Three functions look for the IP entry above an interface. `getIpIFIdxByUplayer` follows `uplayer` by
the last character of each text, `setPVCIndexByUpLayer` by the number behind the last dot, and
`getIPIfByLowerlayerIf` searches the tables for the text in `LowerLayers`. They find the IP entry of
a WAN that has just been linked only if the numbers have one digit and no other entry has the same
`LowerLayers`; and the first two do not end if the texts lead back to where they came from.
-/

namespace OnuFirmware.Tr181

open Clib Cfg Lib Relation

/-! ## The functions -/

/-- The kind of interface that a text names: the first one whose path it has. -/
def layerOf (text : Str) : Option Layer :=
  if hasStr text Layer.ip.path then some .ip
  else if hasStr text Layer.ppp.path then some .ppp
  else if hasStr text Layer.vlanT.path then some .vlanT
  else if hasStr text Layer.link.path then some .link
  else none

/-- `getSuffixIntByInterface`. -/
def getSuffixIntByInterface (interface : Str) : Int :=
  if interface = [] then -1
  else
    match Utility.strrchr interface '.' with
    | none => -1
    | some p =>
      let ret := atoi (interface.drop (p + 1))
      if 0 < ret then ret else 0

variable (T : Tables)

/-- What `getIpIFIdxByUplayer` does in one call: the node that it calls itself with, or the result.
A node is an entry by its number, or an empty name. -/
def uplayerCall (node : Option (Layer × Int)) : Option (Layer × Int) ⊕ Int :=
  let uplayer := attrText (node.bind fun e => entryAttr T e.1 (e.2 - 1) uplayerAttr) 64 []
  if uplayer = [] then .inr (-1)
  else
    let index := atoi (uplayer.drop (uplayer.length - 1))
    if index < 0 then .inr (-1)
    else
      match layerOf uplayer with
      | some .ip => .inr index
      | some l => .inl (some (l, index))
      | none => .inl none

/-- `getUpperIfByLowerlayerIf`. -/
def getUpperIfByLowerlayerIf (l : Layer) (strInterface : Str) : Int :=
  match (T l).slots.findIdx? fun s =>
      let lowerlayer := attrText (readAttr s lowerLayersAttr) 256 []
      lowerlayer != [] && lowerlayer == strInterface with
  | some i => i
  | none => -1

/-- What `getIPIfByLowerlayerIf` does in one call. -/
def lowerlayerCall (strInterface : Str) : Str ⊕ Int :=
  if hasStr strInterface Layer.ppp.path then .inr (getUpperIfByLowerlayerIf T .ip strInterface)
  else if hasStr strInterface Layer.vlanT.path then
    let upIdx := getUpperIfByLowerlayerIf T .ppp strInterface
    if 0 ≤ upIdx then .inl (Layer.ppp.interface upIdx)
    else .inr (getUpperIfByLowerlayerIf T .ip strInterface)
  else .inr (-1)

/-- `setPvcIdxByTR181NodeEntry`. -/
def setPvcIdxByTR181NodeEntry (l : Layer) (index wanIf : Int) : Tables :=
  if index < 1 then T
  else setEntryAttr T l (index - 1) pvcIndexAttr (snprintf 8 (fmtInt wanIf))

/-- What `setPVCIndexByUpLayer` does in one call: the tables and the text that it calls itself with,
or the tables at the end. -/
def pvcIndexCall (newWanIf : Int) : Tables × Str → (Tables × Str) ⊕ Tables
  | (T, interface) =>
    match layerOf interface with
    | none => .inr T
    | some l =>
      let index := getSuffixIntByInterface interface
      let T := setPvcIdxByTR181NodeEntry T l index newWanIf
      if l = .ip then .inr T
      else .inl (T, attrText (entryAttr T l (index - 1) uplayerAttr) 256 [])

/-! ## Statement -/

/-- `getIpIFIdxByUplayer` on the entry with an index returns `r`. -/
def IpIFIdxByUplayer (l : Layer) (i r : Int) : Prop :=
  Returns (uplayerCall T) (some (l, i + 1)) r

/-- `setPVCIndexByUpLayer` on a text ends with the tables `T'`. -/
def PVCIndexByUpLayer (interface : Str) (newWanIf : Int) (T' : Tables) : Prop :=
  Returns (pvcIndexCall newWanIf) (T, interface) T'

/-- The three walks from the element find the IP entry with index `ip`. -/
structure WalksTo (l : Layer) (i ip : Int) : Prop where
  uplayer : IpIFIdxByUplayer T l i (ip + 1)
  lowerlayer : Returns (lowerlayerCall T) (l.interface i) ip
  pvcIndex : ∀ newWanIf, ∃ T', PVCIndexByUpLayer T (l.interface i) newWanIf T' ∧
    T' .ip = (T .ip).setAttr ip.toNat pvcIndexAttr (snprintf 8 (fmtInt newWanIf))

/-- The walks from the PPP and the VLANTermination entry of the WAN find its IP entry. -/
def WalksRight (e : WanEntries) (isPpp : Bool) (iVlanTag : Int) : Prop :=
  (isPpp = true → WalksTo T .ppp e.ppp e.ip) ∧ (0 ≤ iVlanTag → WalksTo T .vlanT e.vlanT e.ip)

/-- The three walks end, wherever they start. -/
structure WalksEnd : Prop where
  uplayer : ∀ node, ∃ r, Returns (uplayerCall T) node r
  lowerlayer : ∀ text, ∃ r, Returns (lowerlayerCall T) text r
  pvcIndex : ∀ text newWanIf, ∃ T', PVCIndexByUpLayer T text newWanIf T'

/-- The `uplayer` of an entry, as it is read into 64 bytes. -/
def uplayer64 (n : Layer × Int) : Str := attrText (entryAttr T n.1 (n.2 - 1) uplayerAttr) 64 []

/-- The number that the last character of a text is. -/
def lastNumber (text : Str) : Int := atoi (text.drop (text.length - 1))

/-- The `uplayer` of the entry with number `n.2` names an interface other than an IP interface, and
`n'` is that kind with the number of the last character. -/
def LastCharacter (n' n : Layer × Int) : Prop :=
  layerOf (uplayer64 T n) = some n'.1 ∧ n'.1 ≠ .ip ∧ n'.2 = lastNumber (uplayer64 T n)

/-- The `uplayer` of the entry names an IP interface, with a number that ends in `k`. -/
def NamesIp (n : Layer × Int) (k : Int) : Prop :=
  layerOf (uplayer64 T n) = some .ip ∧ k = lastNumber (uplayer64 T n)

/-- The text names an interface other than an IP interface by the number behind the last dot, and
`t'` is its `uplayer`. -/
def Suffix (t' t : Str) : Prop :=
  ∃ l, layerOf t = some l ∧ l ≠ .ip ∧
    t' = attrText (entryAttr T l (getSuffixIntByInterface t - 1) uplayerAttr) 256 []

/-- When the walks are right. -/
structure WalksCond (e : WanEntries) (isPpp : Bool) (iVlanTag : Int) : Prop where
  ipDigit : isPpp = true ∨ 0 ≤ iVlanTag → e.ip + 1 ≤ 9
  pppDigit : isPpp = true → 0 ≤ iVlanTag → e.ppp + 1 ≤ 9 ∨
    ∃ n, ReflTransGen (LastCharacter T) n (.ppp, (e.ppp + 1) % 10) ∧ NamesIp T n (e.ip + 1)
  ipFirst : isPpp = true ∨ 0 ≤ iVlanTag → ∀ j, 0 ≤ j → j < e.ip →
    entryAttr T .ip j lowerLayersAttr ≠ entryAttr T .ip e.ip lowerLayersAttr
  pppFirst : 0 ≤ iVlanTag → ∀ j, 0 ≤ j → (isPpp = true → j < e.ppp) →
    entryAttr T .ppp j lowerLayersAttr ≠ some (Layer.vlanT.interface e.vlanT)
  noCycle : ∀ n, ¬ TransGen (LastCharacter T) n n
  noCycleSuffix : ∀ t, ¬ TransGen (Suffix T) t t

variable {T : Tables}

/-! ## Texts -/

section Texts

variable {l : Layer} {i : Int} {s : Str}

/-- A keyword that does not end in a digit is not completed by digits. -/
theorem infix_of_append_digits {k p d : Str} {x : Char} (hd : ∀ c ∈ d, isDigit c = true)
    (hx : isDigit x = false) (h : k ++ [x] <:+: p ++ d) : k ++ [x] <:+: p := by
  obtain ⟨s, t, hst⟩ := h
  rcases List.append_eq_append_iff.mp hst with ⟨a, hp, -⟩ | ⟨a, ha, hda⟩
  · exact ⟨s, a, hp.symm⟩
  · rcases List.eq_nil_or_concat a with rfl | ⟨a, y, rfl⟩
    · exact ⟨s, [], by rw [List.append_nil, ha, List.append_nil]⟩
    · have hlast : x = y := by
        have hcat : s ++ k ++ [x] = p ++ a ++ [y] := by
          rw [List.append_assoc, ha]
          simp
        exact List.head_eq_of_cons_eq (List.append_inj' hcat rfl).2
      have hy : isDigit y = true := hd y (hda ▸ by simp)
      rw [← hlast, hx] at hy
      exact absurd hy Bool.false_ne_true

theorem interface_eq (l : Layer) (hi : 0 ≤ i) : l.interface i = l.path ++ fmtNat (i.toNat + 1) := by
  obtain ⟨n, rfl⟩ := Int.eq_ofNat_of_zero_le hi
  rw [Layer.interface, Int.toNat_natCast, ← fmtInt_natCast, Int.natCast_add]
  rfl

theorem interface_inj {j : Int} (hi : 0 ≤ i) (hj : 0 ≤ j) (h : l.interface i = l.interface j) :
    i = j := by
  rw [interface_eq l hi, interface_eq l hj] at h
  have hnum := fmtNat_inj.mp (List.append_cancel_left h)
  omega

theorem length_interface (hi : 0 ≤ i) (hlt : i + 1 ≤ intMax) : (l.interface i).length ≤ 42 := by
  have hlen : (fmtNat (i.toNat + 1)).length ≤ 10 :=
    (length_fmtNat_le (by decide)).mpr (lt_ten_digits (by omega))
  have hpath : l.path.length ≤ 32 := by cases l <;> decide
  rw [interface_eq l hi, List.length_append]
  omega

theorem interface_ne_nil (hi : 0 ≤ i) : l.interface i ≠ [] := by
  rw [interface_eq l hi]
  cases l <;> exact List.cons_ne_nil _ _

/-- The text is read as it is. -/
theorem attrText_interface (hi : 0 ≤ i) (hlt : i + 1 ≤ intMax) {size : Nat} (hsize : 42 < size) :
    attrText (some (l.interface i)) size [] = l.interface i := by
  have hlen := length_interface (l := l) hi hlt
  exact snprintf_eq (by omega)

theorem hasStr_interface (hi : 0 ≤ i) (l' : Layer) :
    hasStr (l.interface i) l'.path = decide (l' = l) := by
  rw [interface_eq l hi]
  by_cases hl : l' = l
  · subst hl
    simpa using hasStr_iff.mpr (List.infix_append' [] l'.path _)
  · rw [decide_eq_false hl, ← Bool.not_eq_true, hasStr_iff]
    intro h
    obtain ⟨k, hk⟩ : ∃ k, l'.path = k ++ ['.'] := ⟨l'.path.dropLast, by cases l' <;> rfl⟩
    rw [hk] at h
    have hin := infix_of_append_digits (fun c hc => isDigit_of_mem_fmtNat hc) (by decide) h
    rw [← hk, ← hasStr_iff] at hin
    cases l <;> cases l' <;> first | exact hl rfl | exact absurd hin (by decide)

theorem layerOf_interface (hi : 0 ≤ i) : layerOf (l.interface i) = some l := by
  rw [layerOf, hasStr_interface hi, hasStr_interface hi, hasStr_interface hi, hasStr_interface hi]
  cases l <;> rfl

theorem getSuffix_interface (hi : 0 ≤ i) (hlt : i + 1 ≤ intMax) :
    getSuffixIntByInterface (l.interface i) = i + 1 := by
  obtain ⟨k, hk⟩ : ∃ k, l.path = k ++ ['.'] := ⟨l.path.dropLast, by cases l <;> rfl⟩
  have hdot : '.' ∉ fmtNat (i.toNat + 1) := fun h => by
    exact absurd (isDigit_of_mem_fmtNat h) (by decide)
  have htext : l.interface i = k ++ '.' :: fmtNat (i.toNat + 1) := by
    rw [interface_eq l hi, hk, List.append_assoc]
    rfl
  have hval : atoi (fmtNat (i.toNat + 1)) = i + 1 := by
    rw [atoi_fmtNat (by omega)]
    omega
  have hdrop : (k ++ '.' :: fmtNat (i.toNat + 1)).drop (k.length + 1) = fmtNat (i.toNat + 1) := by
    have hcons : k ++ '.' :: fmtNat (i.toNat + 1) = (k ++ ['.']) ++ fmtNat (i.toNat + 1) := by
      rw [List.append_assoc]
      rfl
    rw [hcons, List.drop_left' (by simp)]
  rw [getSuffixIntByInterface, if_neg (interface_ne_nil hi), htext, Utility.strrchr_append hdot]
  simp only [hdrop, hval]
  rw [if_pos (by omega)]

theorem fmtNat_eq_append (n : Nat) : ∃ d, fmtNat n = d ++ [Nat.digitChar (n % 10)] := by
  by_cases hn : n < 10
  · exact ⟨[], by rw [fmtNat, Nat.toDigits_of_lt_base hn, Nat.mod_eq_of_lt hn, List.nil_append]⟩
  · exact ⟨_, by rw [fmtNat, Nat.toDigits_of_base_le (by decide) (Nat.le_of_not_lt hn)]⟩

theorem atoi_digitChar : ∀ {k : Nat}, k < 10 → atoi [Nat.digitChar k] = k := by decide

theorem lastNumber_interface (hi : 0 ≤ i) : lastNumber (l.interface i) = (i + 1) % 10 := by
  obtain ⟨d, hd⟩ := fmtNat_eq_append (i.toNat + 1)
  have hdrop : ∀ (u : Str) (x : Char), (u ++ [x]).drop ((u ++ [x]).length - 1) = [x] := fun u x =>
    List.drop_left' (by simp)
  rw [lastNumber, interface_eq l hi, hd, ← List.append_assoc, hdrop,
    atoi_digitChar (Nat.mod_lt _ (by decide))]
  omega

end Texts

/-! ## By the last character -/

section Uplayer

variable {n n' a : Layer × Int} {r : Int}

theorem layerOf_nil : layerOf [] = none := by decide

theorem lastNumber_nonneg (s : Str) : 0 ≤ lastNumber s := by
  have hone : ∀ c, 0 ≤ atoi [c] := fun c => by
    rw [atoi]
    by_cases hc : isSpace c = true
    · rw [List.dropWhile_cons_of_pos hc]
      exact le_rfl
    · rw [List.dropWhile_cons_of_neg hc]
      split
      · next h =>
        obtain ⟨-, rfl⟩ := List.cons.inj h
        exact le_rfl
      · exact Int.natCast_nonneg _
      · exact Int.natCast_nonneg _
  rcases List.eq_nil_or_concat s with rfl | ⟨d, c, rfl⟩
  · exact le_rfl
  · have hdrop : (d.concat c).drop ((d.concat c).length - 1) = [c] := by
      rw [List.concat_eq_append]
      exact List.drop_left' (by simp)
    rw [lastNumber, hdrop]
    exact hone c

/-- A call on an entry. -/
theorem uplayerCall_some (n : Layer × Int) : uplayerCall T (some n) =
    match layerOf (uplayer64 T n) with
    | some .ip => .inr (lastNumber (uplayer64 T n))
    | some l => .inl (some (l, lastNumber (uplayer64 T n)))
    | none => if uplayer64 T n = [] then .inr (-1) else .inl none := by
  rw [uplayerCall, Option.bind_some, ← uplayer64]
  simp only
  by_cases hnil : uplayer64 T n = []
  · rw [hnil, layerOf_nil]
    rfl
  · rw [if_neg hnil, ← lastNumber, if_neg (Int.not_lt.mpr (lastNumber_nonneg _)), if_neg hnil]

theorem uplayerCall_none : uplayerCall T none = .inr (-1) := rfl

theorem calls_uplayer : Calls (uplayerCall T) (some n') (some n) ↔ LastCharacter T n' n := by
  rw [Calls, uplayerCall_some, LastCharacter]
  obtain ⟨l, k⟩ := n'
  cases hlayer : layerOf (uplayer64 T n) with
  | none =>
    simp only [reduceCtorEq, false_and, iff_false]
    split <;> simp
  | some l' =>
    cases l' <;> simp only [reduceCtorEq, Option.some_inj, Sum.inl.injEq, Prod.mk.injEq]
    · simp +contextual
    all_goals
      constructor
      · rintro ⟨rfl, rfl⟩
        simp
      · rintro ⟨rfl, -, rfl⟩
        simp

theorem calls_uplayer_none (b : Option (Layer × Int)) : ¬ Calls (uplayerCall T) b none := by
  rw [Calls, uplayerCall_none]
  exact Sum.inr_ne_inl

/-- The calls behind a call on an entry, as long as they are on entries. -/
theorem reflTransGen_uplayer :
    ReflTransGen (Calls (uplayerCall T)) (some n) (some a) ↔
      ReflTransGen (LastCharacter T) n a := by
  constructor
  · intro h
    have hall : ∀ b, ReflTransGen (Calls (uplayerCall T)) (some n) b →
        ∃ x, b = some x ∧ ReflTransGen (LastCharacter T) n x := fun b hb => by
      induction hb with
      | refl => exact ⟨n, rfl, .refl⟩
      | @tail m b _ hmb ih =>
        obtain ⟨x, rfl, hx⟩ := ih
        cases b with
        | none => exact absurd hmb (calls_uplayer_none _)
        | some y => exact ⟨y, rfl, hx.tail (calls_uplayer.mp hmb)⟩
    obtain ⟨x, hx, hn⟩ := hall (some a) h
    exact Option.some.inj hx ▸ hn
  · intro h
    induction h with
    | refl => exact .refl
    | tail _ hx ih => exact ih.tail (calls_uplayer.mpr hx)

/-- A result that is not negative is the last character of an IP interface that is reached. -/
theorem returns_uplayer (hr : 0 ≤ r) : Returns (uplayerCall T) (some a) r ↔
    ∃ n, ReflTransGen (LastCharacter T) n a ∧ NamesIp T n r := by
  have hnames : ∀ n, uplayerCall T (some n) = .inr r ↔ NamesIp T n r := fun n => by
    rw [uplayerCall_some, NamesIp]
    cases hlayer : layerOf (uplayer64 T n) with
    | none =>
      simp only [reduceCtorEq, false_and, iff_false]
      split
      · exact fun h => absurd (Sum.inr.inj h) (by omega)
      · exact Sum.inl_ne_inr
    | some l =>
      cases l <;> simp [eq_comm]
  rw [returns_iff_calls]
  constructor
  · rintro ⟨_ | n, hn, hres⟩
    · rw [uplayerCall_none] at hres
      exact absurd (Sum.inr.inj hres) (by omega)
    · exact ⟨n, reflTransGen_uplayer.mp hn, (hnames n).mp hres⟩
  · rintro ⟨n, hn, hres⟩
    exact ⟨some n, reflTransGen_uplayer.mpr hn, (hnames n).mpr hres⟩

theorem acc_uplayer :
    (∀ node, Acc (Calls (uplayerCall T)) node) ↔ ∀ n, Acc (LastCharacter T) n := by
  constructor
  · intro h n
    refine Subrelation.accessible (fun hn => ?_) (InvImage.accessible some (h (some n)))
    exact calls_uplayer.mpr hn
  · have hnone : Acc (Calls (uplayerCall T)) none :=
      ⟨none, fun b hb => absurd hb (calls_uplayer_none b)⟩
    intro h node
    cases node with
    | none => exact hnone
    | some n =>
      induction h n with
      | intro n _ ih =>
        refine ⟨_, fun b hb => ?_⟩
        cases b with
        | none => exact hnone
        | some n' => exact ih n' (calls_uplayer.mp hb)

instance : Fintype Layer := ⟨{.ip, .ppp, .vlanT, .link}, fun l => by cases l <;> decide⟩

/-- The tables have finitely many entries. -/
theorem finite_entries : {n : Layer × Int | HasEntry T n.1 (n.2 - 1)}.Finite := by
  have hset : {n : Layer × Int | HasEntry T n.1 (n.2 - 1)} ⊆
      ⋃ l : Layer, (fun k : Int => (l, k)) '' Set.Icc 1 ((T l).slots.length : Int) := by
    rintro ⟨l, k⟩ ⟨hk, a, ha⟩
    obtain ⟨hlt, -⟩ := List.getElem?_eq_some_iff.mp ha
    simp only at hk hlt
    refine Set.mem_iUnion.mpr ⟨l, k, ⟨by omega, by omega⟩, rfl⟩
  exact (Set.finite_iUnion fun l => (Set.finite_Icc _ _).image _).subset hset

theorem hasEntry_of_layerOf {n : Layer × Int} {size : Nat} {l : Layer}
    (h : layerOf (attrText (entryAttr T n.1 (n.2 - 1) uplayerAttr) size []) = some l) :
    HasEntry T n.1 (n.2 - 1) := by
  by_contra hno
  rw [entryAttr_of_not hno] at h
  exact absurd (layerOf_nil.symm.trans h) (Option.some_ne_none l).symm

/-- **The walk by the last character ends from everywhere exactly if it leads to no cycle.** -/
theorem uplayer_ends_iff : (∀ node, ∃ r, Returns (uplayerCall T) node r) ↔
    ∀ n, ¬ TransGen (LastCharacter T) n n := by
  have hfin : ∀ a, {x | ReflTransGen (LastCharacter T) x a ∧ ∃ b, LastCharacter T b x}.Finite :=
    fun a => finite_entries.subset fun x hx => by
      obtain ⟨-, b, hb⟩ := hx
      exact hasEntry_of_layerOf hb.1
  rw [← forall_acc_iff_no_cycle hfin, ← acc_uplayer]
  exact forall_congr' fun node => returns_iff_acc

end Uplayer

/-! ## By the number behind the last dot -/

section Suffix

variable {T' T'' : Tables} {newWanIf : Int} {text : Str} {l : Layer}

/-- The two have the same `uplayer` texts. -/
def SameUplayer (T T' : Tables) : Prop :=
  ∀ l i, entryAttr T' l i uplayerAttr = entryAttr T l i uplayerAttr

theorem SameUplayer.setPvcIdx (h : SameUplayer T T') (l : Layer) (index wanIf : Int) :
    SameUplayer T (setPvcIdxByTR181NodeEntry T' l index wanIf) := by
  intro l' i
  rw [setPvcIdxByTR181NodeEntry]
  split
  · exact h l' i
  · rw [entryAttr_set_ne (.inr (.inr (by decide))), h l' i]

theorem pvcIndexCall_none (h : layerOf text = none) :
    pvcIndexCall newWanIf (T', text) = .inr T' := by
  rw [pvcIndexCall, h]

theorem pvcIndexCall_ip (h : layerOf text = some .ip) : pvcIndexCall newWanIf (T', text) =
    .inr (setPvcIdxByTR181NodeEntry T' .ip (getSuffixIntByInterface text) newWanIf) := by
  rw [pvcIndexCall, h]
  rfl

theorem pvcIndexCall_ne (hsame : SameUplayer T T') (h : layerOf text = some l) (hl : l ≠ .ip) :
    pvcIndexCall newWanIf (T', text) =
      .inl (setPvcIdxByTR181NodeEntry T' l (getSuffixIntByInterface text) newWanIf,
        attrText (entryAttr T l (getSuffixIntByInterface text - 1) uplayerAttr) 256 []) := by
  rw [pvcIndexCall, h]
  simp only [hl, if_false]
  rw [hsame.setPvcIdx]

/-- The walk from a text ends exactly if the texts do, whatever indexes were written before. -/
theorem pvcIndex_acc (hsame : SameUplayer T T') :
    (∃ T'', Returns (pvcIndexCall newWanIf) (T', text) T'') ↔ Acc (Suffix T) text := by
  constructor
  · rintro ⟨T'', n, hn⟩
    induction n generalizing T' text with
    | zero => exact absurd hn.symm (Option.some_ne_none T'')
    | succ n ih =>
      refine ⟨text, fun t' ht' => ?_⟩
      obtain ⟨l, hlayer, hl, rfl⟩ := ht'
      rw [follow, pvcIndexCall_ne hsame hlayer hl] at hn
      exact ih (hsame.setPvcIdx _ _ _) hn
  · intro h
    induction h generalizing T' with
    | intro text _ ih =>
      cases hlayer : layerOf text with
      | none => exact ⟨_, (returns_inr (pvcIndexCall_none hlayer)).mpr rfl⟩
      | some l =>
        by_cases hl : l = .ip
        · subst hl
          exact ⟨_, (returns_inr (pvcIndexCall_ip hlayer)).mpr rfl⟩
        · obtain ⟨T'', h⟩ := ih _ ⟨l, hlayer, hl, rfl⟩ (hsame.setPvcIdx _ _ _)
          exact ⟨T'', (returns_inl (pvcIndexCall_ne hsame hlayer hl)).mpr h⟩

/-- **The walk by the number behind the last dot ends from everywhere exactly if it leads to no
cycle.** -/
theorem pvcIndex_ends_iff : (∀ text newWanIf, ∃ T', PVCIndexByUpLayer T text newWanIf T') ↔
    ∀ t, ¬ TransGen (Suffix T) t t := by
  have hfin : ∀ a, {x | ReflTransGen (Suffix T) x a ∧ ∃ b, Suffix T b x}.Finite := fun a => by
    refine (((@finite_entries T).image fun n : Layer × Int =>
      attrText (entryAttr T n.1 (n.2 - 1) uplayerAttr) 256 []).insert a).subset ?_
    rintro x ⟨hx, b, l, hl, -⟩
    rcases ReflTransGen.cases_head hx with rfl | ⟨y, ⟨l', hl', -, hxy⟩, -⟩
    · exact .inl rfl
    · refine .inr ⟨(l', getSuffixIntByInterface y), ?_, hxy.symm⟩
      rw [hxy] at hl
      exact hasEntry_of_layerOf (n := (l', getSuffixIntByInterface y)) hl
  rw [← forall_acc_iff_no_cycle hfin]
  constructor
  · intro h a
    exact (pvcIndex_acc fun _ _ => rfl).mp (h a 0)
  · intro h text newWanIf
    exact (pvcIndex_acc fun _ _ => rfl).mpr (h text)

end Suffix

/-! ## By `LowerLayers` -/

section Lowerlayer

variable {l : Layer} {i k r : Int} {text : Str}

theorem entryAttr_of_lt {n : Nat} (hn : n < (T l).slots.length) (name : Str) :
    entryAttr T l n name = readAttr (T l).slots[n] name := by
  rw [entryAttr, if_pos (Int.natCast_nonneg n), Int.toNat_natCast, List.getElem?_eq_getElem hn,
    Option.getD_some]

/-- The search finds the first entry with the text. -/
theorem getUpper_spec (hne : text ≠ []) (hlen : text.length ≤ 42) :
    (0 ≤ getUpperIfByLowerlayerIf T l text ∧
        entryAttr T l (getUpperIfByLowerlayerIf T l text) lowerLayersAttr = some text ∧
        ∀ j, 0 ≤ j → j < getUpperIfByLowerlayerIf T l text →
          entryAttr T l j lowerLayersAttr ≠ some text) ∨
      (getUpperIfByLowerlayerIf T l text = -1 ∧
        ∀ j, 0 ≤ j → entryAttr T l j lowerLayersAttr ≠ some text) := by
  have hslot : ∀ s : Option Attrs, (attrText (readAttr s lowerLayersAttr) 256 [] != [] &&
      attrText (readAttr s lowerLayersAttr) 256 [] == text) = true ↔
      readAttr s lowerLayersAttr = some text := fun s => by
    rw [← @attrText_nil_eq_iff (readAttr s lowerLayersAttr) 256 text (by omega) hne]
    simp only [Bool.and_eq_true, bne_iff_ne, beq_iff_eq]
    exact ⟨And.right, fun h => ⟨h ▸ hne, h⟩⟩
  rw [getUpperIfByLowerlayerIf]
  split
  · next n hfind =>
    obtain ⟨hn, hp, hbefore⟩ := List.findIdx?_eq_some_iff_getElem.mp hfind
    refine .inl ⟨Int.natCast_nonneg n, ?_, fun j hj hjn he => ?_⟩
    · rw [entryAttr_of_lt hn]
      exact (hslot _).mp hp
    · obtain ⟨m, rfl⟩ := Int.eq_ofNat_of_zero_le hj
      have hmn : m < n := by omega
      rw [entryAttr_of_lt (hmn.trans hn)] at he
      exact hbefore m hmn ((hslot _).mpr he)
  · next hfind =>
    refine .inr ⟨rfl, fun j hj he => ?_⟩
    obtain ⟨m, rfl⟩ := Int.eq_ofNat_of_zero_le hj
    by_cases hm : m < (T l).slots.length
    · rw [entryAttr_of_lt hm] at he
      have hfalse := List.findIdx?_eq_none_iff.mp hfind _ (List.getElem_mem hm)
      rw [(hslot _).mpr he] at hfalse
      exact absurd hfalse (by decide)
    · rw [entryAttr, if_pos hj, Int.toNat_natCast, List.getElem?_eq_none (Nat.le_of_not_lt hm)]
        at he
      exact absurd he.symm (Option.some_ne_none text)

/-- The search finds an entry with the text exactly if no earlier one has it. -/
theorem getUpper_iff (hne : text ≠ []) (hlen : text.length ≤ 42) (hk : 0 ≤ k)
    (htext : entryAttr T l k lowerLayersAttr = some text) :
    getUpperIfByLowerlayerIf T l text = k ↔
      ∀ j, 0 ≤ j → j < k → entryAttr T l j lowerLayersAttr ≠ some text := by
  rcases @getUpper_spec T l text hne hlen with ⟨hpos, hself, hbefore⟩ | ⟨-, hnone⟩
  · constructor
    · rintro rfl
      exact hbefore
    · intro h
      by_contra hne
      rcases lt_or_gt_of_ne hne with hlt | hlt
      · exact h _ hpos hlt hself
      · exact hbefore k hk hlt htext
  · exact absurd htext (hnone k hk)

theorem lowerlayerCall_ppp (hi : 0 ≤ i) : lowerlayerCall T (Layer.ppp.interface i) =
    .inr (getUpperIfByLowerlayerIf T .ip (Layer.ppp.interface i)) := by
  rw [lowerlayerCall, hasStr_interface hi]
  rfl

theorem lowerlayerCall_vlanT (hi : 0 ≤ i) : lowerlayerCall T (Layer.vlanT.interface i) =
    if 0 ≤ getUpperIfByLowerlayerIf T .ppp (Layer.vlanT.interface i) then
      .inl (Layer.ppp.interface (getUpperIfByLowerlayerIf T .ppp (Layer.vlanT.interface i)))
    else .inr (getUpperIfByLowerlayerIf T .ip (Layer.vlanT.interface i)) := by
  rw [lowerlayerCall, hasStr_interface hi, hasStr_interface hi]
  rfl

/-- **The search by `LowerLayers` always ends.** -/
theorem lowerlayer_ends (text : Str) : ∃ r, Returns (lowerlayerCall T) text r := by
  rw [returns_iff_acc]
  refine ⟨text, fun b hb => ⟨b, fun c hc => ?_⟩⟩
  -- the second call is on a PPP interface
  obtain ⟨i, hi, rfl⟩ : ∃ i, 0 ≤ i ∧ b = Layer.ppp.interface i := by
    rw [Calls, lowerlayerCall] at hb
    split at hb
    · exact absurd hb Sum.inr_ne_inl
    · split at hb
      · simp only at hb
        split at hb
        · next hpos => exact ⟨_, hpos, (Sum.inl.inj hb).symm⟩
        · exact absurd hb Sum.inr_ne_inl
      · exact absurd hb Sum.inr_ne_inl
  rw [Calls, lowerlayerCall_ppp hi] at hc
  exact absurd hc Sum.inr_ne_inl

end Lowerlayer

/-! ## The elements of a WAN -/

section Elements

variable {T' : Tables} {l : Layer} {i k p r newWanIf : Int}

theorem uplayer64_interface {l' : Layer} (h : entryAttr T l i uplayerAttr = some (l'.interface k))
    (hk : 0 ≤ k) (hlt : k + 1 ≤ intMax) : uplayer64 T (l, i + 1) = l'.interface k := by
  rw [uplayer64, Int.add_sub_cancel, h, attrText_interface hk hlt (by decide)]

/-- Below the IP entry the walk returns the last digit of its number. -/
theorem uplayer_ip (h : entryAttr T l i uplayerAttr = some (Layer.ip.interface k)) (hk : 0 ≤ k)
    (hlt : k + 1 ≤ intMax) : IpIFIdxByUplayer T l i (k + 1) ↔ k + 1 ≤ 9 := by
  have hcall : uplayerCall T (some (l, i + 1)) = .inr ((k + 1) % 10) := by
    rw [uplayerCall_some, uplayer64_interface h hk hlt, layerOf_interface hk,
      lastNumber_interface hk]
  rw [IpIFIdxByUplayer, returns_inr hcall]
  omega

/-- Below the PPP entry the walk goes on at the PPP entry with the last digit of its number. -/
theorem uplayer_ppp (h : entryAttr T l i uplayerAttr = some (Layer.ppp.interface p)) (hp : 0 ≤ p)
    (hlt : p + 1 ≤ intMax) : IpIFIdxByUplayer T l i r ↔
      Returns (uplayerCall T) (some (.ppp, (p + 1) % 10)) r := by
  have hcall : uplayerCall T (some (l, i + 1)) = .inl (some (.ppp, (p + 1) % 10)) := by
    rw [uplayerCall_some, uplayer64_interface h hp hlt, layerOf_interface hp,
      lastNumber_interface hp]
  rw [IpIFIdxByUplayer, returns_inl hcall]

theorem setPvcIdx_ne (hl : l ≠ .ip) (index wanIf : Int) :
    setPvcIdxByTR181NodeEntry T l index wanIf .ip = T .ip := by
  rw [setPvcIdxByTR181NodeEntry, setEntryAttr]
  split
  · rfl
  · split
    · rw [Function.update_of_ne (Ne.symm hl)]
    · rfl

theorem pvcIndex_ip (hk : 0 ≤ k) (hlt : k + 1 ≤ intMax) : ∃ T'',
    Returns (pvcIndexCall newWanIf) (T', Layer.ip.interface k) T'' ∧
      T'' .ip = (T' .ip).setAttr k.toNat pvcIndexAttr (snprintf 8 (fmtInt newWanIf)) := by
  refine ⟨_, (returns_inr (pvcIndexCall_ip (layerOf_interface hk))).mpr rfl, ?_⟩
  rw [getSuffix_interface hk hlt, setPvcIdxByTR181NodeEntry, if_neg (by omega),
    Int.add_sub_cancel, setEntryAttr, if_pos hk, Function.update_self]

/-- The walk by the number behind the last dot takes a link up. -/
theorem pvcIndex_up {l' : Layer} (hsame : SameUplayer T T') (hl : l ≠ .ip) (hi : 0 ≤ i)
    (hilt : i + 1 ≤ intMax) (h : entryAttr T l i uplayerAttr = some (l'.interface k)) (hk : 0 ≤ k)
    (hlt : k + 1 ≤ intMax) : ∃ T₁, SameUplayer T T₁ ∧ T₁ .ip = T' .ip ∧ ∀ T'',
      Returns (pvcIndexCall newWanIf) (T', l.interface i) T'' ↔
        Returns (pvcIndexCall newWanIf) (T₁, l'.interface k) T'' := by
  have hcall : pvcIndexCall newWanIf (T', l.interface i) = _ :=
    pvcIndexCall_ne hsame (layerOf_interface hi) hl
  rw [getSuffix_interface hi hilt, Int.add_sub_cancel, h,
    attrText_interface hk hlt (by decide)] at hcall
  exact ⟨_, hsame.setPvcIdx _ _ _, setPvcIdx_ne hl _ _, fun T'' => returns_inl hcall⟩

/-- The walk finds the IP entry by one link. -/
theorem pvcIndex_one (hl : l ≠ .ip) (hi : 0 ≤ i) (hilt : i + 1 ≤ intMax)
    (h : entryAttr T l i uplayerAttr = some (Layer.ip.interface k)) (hk : 0 ≤ k)
    (hlt : k + 1 ≤ intMax) : ∃ T'', PVCIndexByUpLayer T (l.interface i) newWanIf T'' ∧
      T'' .ip = (T .ip).setAttr k.toNat pvcIndexAttr (snprintf 8 (fmtInt newWanIf)) := by
  obtain ⟨T₁, -, hip, hiff⟩ := pvcIndex_up (fun _ _ => rfl) hl hi hilt h hk hlt
  obtain ⟨T'', hT'', hres⟩ := @pvcIndex_ip T₁ k newWanIf hk hlt
  exact ⟨T'', (hiff T'').mpr hT'', by rw [hres, hip]⟩

/-- The walk finds the IP entry by two links. -/
theorem pvcIndex_two (hl : l ≠ .ip) (hi : 0 ≤ i) (hilt : i + 1 ≤ intMax)
    (h : entryAttr T l i uplayerAttr = some (Layer.ppp.interface p)) (hp : 0 ≤ p)
    (hplt : p + 1 ≤ intMax) (hppp : entryAttr T .ppp p uplayerAttr = some (Layer.ip.interface k))
    (hk : 0 ≤ k) (hlt : k + 1 ≤ intMax) :
    ∃ T'', PVCIndexByUpLayer T (l.interface i) newWanIf T'' ∧
      T'' .ip = (T .ip).setAttr k.toNat pvcIndexAttr (snprintf 8 (fmtInt newWanIf)) := by
  obtain ⟨T₁, hsame, hip, hiff⟩ := pvcIndex_up (fun _ _ => rfl) hl hi hilt h hp hplt
  obtain ⟨T₂, -, hip₂, hiff₂⟩ := pvcIndex_up hsame (by decide) hp hplt hppp hk hlt
  obtain ⟨T'', hT'', hres⟩ := @pvcIndex_ip T₂ k newWanIf hk hlt
  exact ⟨T'', (hiff T'').mpr ((hiff₂ T'').mpr hT''), by rw [hres, hip₂, hip]⟩

end Elements

/-! ## The walks of a WAN -/

section Walks

variable {T₁ T : Tables} {e : WanEntries} {isPpp : Bool} {iVlanTag : Int}

/-- The indexes of the WAN are those of entries, in tables whose size is an `int`. -/
structure InRange (e : WanEntries) (isPpp : Bool) (iVlanTag : Int) : Prop where
  ip : 0 ≤ e.ip ∧ e.ip + 1 ≤ intMax
  ppp : isPpp = true → 0 ≤ e.ppp ∧ e.ppp + 1 ≤ intMax
  vlanT : 0 ≤ iVlanTag → 0 ≤ e.vlanT ∧ e.vlanT + 1 ≤ intMax

/-- The text of the lower entry is searched in the IP table. -/
theorem getUpper_ip_iff {text : Str} (hne : text ≠ []) (hlen : text.length ≤ 42) (hip : 0 ≤ e.ip)
    (htext : entryAttr T .ip e.ip lowerLayersAttr = some text) :
    getUpperIfByLowerlayerIf T .ip text = e.ip ↔ ∀ j, 0 ≤ j → j < e.ip →
      entryAttr T .ip j lowerLayersAttr ≠ entryAttr T .ip e.ip lowerLayersAttr := by
  rw [getUpper_iff hne hlen hip htext, htext]

/-- The walks from the PPP entry. -/
theorem walksTo_ppp (hr : InRange e true iVlanTag) (hl : WanLinks T₁ T e true iVlanTag) :
    WalksTo T .ppp e.ppp e.ip ↔ e.ip + 1 ≤ 9 ∧ ∀ j, 0 ≤ j → j < e.ip →
      entryAttr T .ip j lowerLayersAttr ≠ entryAttr T .ip e.ip lowerLayersAttr := by
  obtain ⟨hip, hilt⟩ := hr.ip
  obtain ⟨hp, hplt⟩ := hr.ppp rfl
  have hupper := hl.pppUpper rfl
  have hlower : entryAttr T .ip e.ip lowerLayersAttr = some (Layer.ppp.interface e.ppp) :=
    hl.ipLower
  have hsearch : Returns (lowerlayerCall T) (Layer.ppp.interface e.ppp) e.ip ↔ ∀ j, 0 ≤ j →
      j < e.ip → entryAttr T .ip j lowerLayersAttr ≠ entryAttr T .ip e.ip lowerLayersAttr := by
    rw [returns_inr (lowerlayerCall_ppp hp),
      getUpper_ip_iff (interface_ne_nil hp) (length_interface hp hplt) hip hlower]
  constructor
  · intro h
    exact ⟨(uplayer_ip hupper hip hilt).mp h.uplayer, hsearch.mp h.lowerlayer⟩
  · rintro ⟨hdigit, hfirst⟩
    exact ⟨(uplayer_ip hupper hip hilt).mpr hdigit, hsearch.mpr hfirst,
      fun newWanIf => pvcIndex_one (by decide) hp hplt hupper hip hilt⟩

theorem hasEntry_of_attr {l : Layer} {i : Int} {name text : Str}
    (h : entryAttr T l i name = some text) : HasEntry T l i := by
  by_contra hno
  rw [entryAttr_of_not hno] at h
  exact absurd h.symm (Option.some_ne_none text)

theorem index_lt (hsize : ∀ l, (T l).slots.length ≤ intMax) {l : Layer} {i : Int}
    (h : HasEntry T l i) : 0 ≤ i ∧ i + 1 ≤ intMax := by
  obtain ⟨hi, a, ha⟩ := h
  obtain ⟨hlt, -⟩ := List.getElem?_eq_some_iff.mp ha
  have hle := hsize l
  exact ⟨hi, by omega⟩

theorem interface_layer_ne {l l' : Layer} {i j : Int} (hi : 0 ≤ i) (hj : 0 ≤ j) (hne : l ≠ l') :
    l.interface i ≠ l'.interface j := fun h => by
  have hlayer := layerOf_interface (l := l) hi
  rw [h, layerOf_interface hj] at hlayer
  exact hne (Option.some.inj hlayer).symm

/-- The search in the IP table for a text that the entry does not have. -/
theorem getUpper_ip_ne {text text' : Str} (hne : text ≠ []) (hlen : text.length ≤ 42)
    (hip : 0 ≤ e.ip) (hlower : entryAttr T .ip e.ip lowerLayersAttr = some text')
    (h : text' ≠ text) : getUpperIfByLowerlayerIf T .ip text ≠ e.ip := by
  intro he
  rcases @getUpper_spec T .ip text hne hlen with ⟨-, hself, -⟩ | ⟨hneg, -⟩
  · rw [he, hlower] at hself
    exact h (Option.some.inj hself)
  · omega

/-- The walks from the VLANTermination entry of a WAN without a PPP entry. -/
theorem walksTo_vlanT_ip (hsize : ∀ l, (T l).slots.length ≤ intMax)
    (hr : InRange e false iVlanTag) (htag : 0 ≤ iVlanTag)
    (hl : WanLinks T₁ T e false iVlanTag) (hv : HasEntry T₁ .vlanT e.vlanT) :
    WalksTo T .vlanT e.vlanT e.ip ↔ e.ip + 1 ≤ 9 ∧
      (∀ j, 0 ≤ j → j < e.ip →
        entryAttr T .ip j lowerLayersAttr ≠ entryAttr T .ip e.ip lowerLayersAttr) ∧
      ∀ j, 0 ≤ j → entryAttr T .ppp j lowerLayersAttr ≠ some (Layer.vlanT.interface e.vlanT) := by
  obtain ⟨hip, hilt⟩ := hr.ip
  obtain ⟨hv0, hvlt⟩ := hr.vlanT htag
  have hupper : entryAttr T .vlanT e.vlanT uplayerAttr = some (Layer.ip.interface e.ip) :=
    hl.vlanTUpper htag hv
  have hlower : entryAttr T .ip e.ip lowerLayersAttr = some (Layer.vlanT.interface e.vlanT) := by
    rw [hl.ipLower, if_neg Bool.false_ne_true, if_pos htag]
  have hsearch : Returns (lowerlayerCall T) (Layer.vlanT.interface e.vlanT) e.ip ↔
      (∀ j, 0 ≤ j → j < e.ip →
        entryAttr T .ip j lowerLayersAttr ≠ entryAttr T .ip e.ip lowerLayersAttr) ∧
      ∀ j, 0 ≤ j → entryAttr T .ppp j lowerLayersAttr ≠ some (Layer.vlanT.interface e.vlanT) := by
    have hcall := lowerlayerCall_vlanT (T := T) hv0
    rcases @getUpper_spec T .ppp (Layer.vlanT.interface e.vlanT) (interface_ne_nil hv0)
      (length_interface hv0 hvlt) with ⟨hpos, hself, -⟩ | ⟨hneg, hnone⟩
    · -- a PPP entry is taken for the one above
      obtain ⟨-, hplt⟩ := index_lt hsize (hasEntry_of_attr hself)
      rw [if_pos hpos] at hcall
      rw [returns_inl hcall, returns_inr (lowerlayerCall_ppp hpos)]
      refine iff_of_false (getUpper_ip_ne (interface_ne_nil hpos) (length_interface hpos hplt) hip
        hlower (interface_layer_ne hv0 hpos (by decide))) fun h => h.2 _ hpos hself
    · rw [if_neg (by omega)] at hcall
      rw [returns_inr hcall, getUpper_ip_iff (interface_ne_nil hv0) (length_interface hv0 hvlt) hip
        hlower]
      exact (and_iff_left hnone).symm
  constructor
  · intro h
    exact ⟨(uplayer_ip hupper hip hilt).mp h.uplayer, hsearch.mp h.lowerlayer⟩
  · rintro ⟨hdigit, hfirst⟩
    exact ⟨(uplayer_ip hupper hip hilt).mpr hdigit, hsearch.mpr hfirst,
      fun newWanIf => pvcIndex_one (by decide) hv0 hvlt hupper hip hilt⟩

/-- The walk by the last character from the VLANTermination entry of a WAN with a PPP entry. -/
theorem uplayer_vlanT_ppp (hr : InRange e true iVlanTag) (htag : 0 ≤ iVlanTag)
    (hl : WanLinks T₁ T e true iVlanTag) (hv : HasEntry T₁ .vlanT e.vlanT)
    (hdigit : e.ip + 1 ≤ 9) : IpIFIdxByUplayer T .vlanT e.vlanT (e.ip + 1) ↔ e.ppp + 1 ≤ 9 ∨
      ∃ n, ReflTransGen (LastCharacter T) n (.ppp, (e.ppp + 1) % 10) ∧ NamesIp T n (e.ip + 1) := by
  obtain ⟨hip, hilt⟩ := hr.ip
  obtain ⟨hp, hplt⟩ := hr.ppp rfl
  rw [uplayer_ppp (hl.vlanTUpper htag hv) hp hplt, ← returns_uplayer (by omega)]
  refine (or_iff_right_of_imp fun hpdigit => ?_).symm
  rw [Int.emod_eq_of_lt (by omega) (by omega)]
  exact (uplayer_ip (hl.pppUpper rfl) hip hilt).mpr hdigit

/-- The walks from the VLANTermination entry of a WAN with a PPP entry. -/
theorem walksTo_vlanT_ppp (hsize : ∀ l, (T l).slots.length ≤ intMax)
    (hr : InRange e true iVlanTag) (htag : 0 ≤ iVlanTag)
    (hl : WanLinks T₁ T e true iVlanTag) (hv : HasEntry T₁ .vlanT e.vlanT)
    (hdigit : e.ip + 1 ≤ 9) : WalksTo T .vlanT e.vlanT e.ip ↔
      (e.ppp + 1 ≤ 9 ∨ ∃ n, ReflTransGen (LastCharacter T) n (.ppp, (e.ppp + 1) % 10) ∧
        NamesIp T n (e.ip + 1)) ∧
      (∀ j, 0 ≤ j → j < e.ip →
        entryAttr T .ip j lowerLayersAttr ≠ entryAttr T .ip e.ip lowerLayersAttr) ∧
      ∀ j, 0 ≤ j → j < e.ppp →
        entryAttr T .ppp j lowerLayersAttr ≠ some (Layer.vlanT.interface e.vlanT) := by
  obtain ⟨hip, hilt⟩ := hr.ip
  obtain ⟨hp, hplt⟩ := hr.ppp rfl
  obtain ⟨hv0, hvlt⟩ := hr.vlanT htag
  have hlower : entryAttr T .ip e.ip lowerLayersAttr = some (Layer.ppp.interface e.ppp) :=
    hl.ipLower
  have hpLower : entryAttr T .ppp e.ppp lowerLayersAttr =
      some (Layer.vlanT.interface e.vlanT) := by
    rw [hl.pppLower rfl, if_pos htag]
  have hsearch : Returns (lowerlayerCall T) (Layer.vlanT.interface e.vlanT) e.ip ↔
      (∀ j, 0 ≤ j → j < e.ip →
        entryAttr T .ip j lowerLayersAttr ≠ entryAttr T .ip e.ip lowerLayersAttr) ∧
      ∀ j, 0 ≤ j → j < e.ppp →
        entryAttr T .ppp j lowerLayersAttr ≠ some (Layer.vlanT.interface e.vlanT) := by
    have hcall := lowerlayerCall_vlanT (T := T) hv0
    rw [← getUpper_iff (interface_ne_nil hv0) (length_interface hv0 hvlt) hp hpLower]
    by_cases hfirst : getUpperIfByLowerlayerIf T .ppp (Layer.vlanT.interface e.vlanT) = e.ppp
    · rw [hfirst, if_pos hp] at hcall
      rw [returns_inl hcall, returns_inr (lowerlayerCall_ppp hp),
        getUpper_ip_iff (interface_ne_nil hp) (length_interface hp hplt) hip hlower]
      exact (and_iff_left hfirst).symm
    · -- an earlier PPP entry is taken for the one above
      rcases @getUpper_spec T .ppp (Layer.vlanT.interface e.vlanT) (interface_ne_nil hv0)
        (length_interface hv0 hvlt) with ⟨hpos, hself, -⟩ | ⟨-, hnone⟩
      · obtain ⟨-, hklt⟩ := index_lt hsize (hasEntry_of_attr hself)
        rw [if_pos hpos] at hcall
        rw [returns_inl hcall, returns_inr (lowerlayerCall_ppp hpos)]
        refine iff_of_false (getUpper_ip_ne (interface_ne_nil hpos) (length_interface hpos hklt) hip
          hlower fun he => hfirst (interface_inj hp hpos he).symm) fun h => hfirst h.2
      · exact absurd hpLower (hnone _ hp)
  rw [← uplayer_vlanT_ppp hr htag hl hv hdigit]
  constructor
  · intro h
    exact ⟨h.uplayer, hsearch.mp h.lowerlayer⟩
  · rintro ⟨hup, hfirst⟩
    exact ⟨hup, hsearch.mpr hfirst, fun newWanIf =>
      pvcIndex_two (by decide) hv0 hvlt (hl.vlanTUpper htag hv) hp hplt (hl.pppUpper rfl) hip hilt⟩

theorem walksEnd_iff : WalksEnd T ↔
    (∀ n, ¬ TransGen (LastCharacter T) n n) ∧ ∀ t, ¬ TransGen (Suffix T) t t := by
  constructor
  · intro h
    exact ⟨uplayer_ends_iff.mp h.uplayer, pvcIndex_ends_iff.mp h.pvcIndex⟩
  · rintro ⟨hup, hsuffix⟩
    exact ⟨uplayer_ends_iff.mpr hup, lowerlayer_ends, pvcIndex_ends_iff.mpr hsuffix⟩

/-- **The walks from the elements of a WAN whose links have been written.** -/
theorem walksRight_iff (hsize : ∀ l, (T l).slots.length ≤ intMax) (hr : InRange e isPpp iVlanTag)
    (hl : WanLinks T₁ T e isPpp iVlanTag) (hv : 0 ≤ iVlanTag → HasEntry T₁ .vlanT e.vlanT) :
    WalksRight T e isPpp iVlanTag ∧ WalksEnd T ↔ WalksCond T e isPpp iVlanTag := by
  rw [walksEnd_iff, WalksRight]
  cases isPpp with
  | true =>
    rw [walksTo_ppp hr hl]
    constructor
    · rintro ⟨⟨hppp, hvlan⟩, hcycle, hsuffix⟩
      obtain ⟨hdigit, hfirst⟩ := hppp rfl
      exact {
        ipDigit := fun _ => hdigit
        pppDigit := fun _ ht => ((walksTo_vlanT_ppp hsize hr ht hl (hv ht) hdigit).mp (hvlan ht)).1
        ipFirst := fun _ => hfirst
        pppFirst := fun ht j hj hlt =>
          ((walksTo_vlanT_ppp hsize hr ht hl (hv ht) hdigit).mp (hvlan ht)).2.2 j hj (hlt rfl)
        noCycle := hcycle
        noCycleSuffix := hsuffix }
    · intro h
      have hdigit := h.ipDigit (.inl rfl)
      refine ⟨⟨fun _ => ⟨hdigit, h.ipFirst (.inl rfl)⟩, fun ht => ?_⟩, h.noCycle, h.noCycleSuffix⟩
      exact (walksTo_vlanT_ppp hsize hr ht hl (hv ht) hdigit).mpr ⟨h.pppDigit rfl ht,
        h.ipFirst (.inl rfl), fun j hj hlt => h.pppFirst ht j hj fun _ => hlt⟩
  | false =>
    constructor
    · rintro ⟨⟨-, hvlan⟩, hcycle, hsuffix⟩
      have hwalk := fun ht => (walksTo_vlanT_ip hsize hr ht hl (hv ht)).mp (hvlan ht)
      exact {
        ipDigit := fun ht => (hwalk (ht.resolve_left Bool.false_ne_true)).1
        pppDigit := fun hp => absurd hp Bool.false_ne_true
        ipFirst := fun ht => (hwalk (ht.resolve_left Bool.false_ne_true)).2.1
        pppFirst := fun ht j hj _ => (hwalk ht).2.2 j hj
        noCycle := hcycle
        noCycleSuffix := hsuffix }
    · intro h
      refine ⟨⟨fun hp => absurd hp Bool.false_ne_true, fun ht => ?_⟩, h.noCycle, h.noCycleSuffix⟩
      exact (walksTo_vlanT_ip hsize hr ht hl (hv ht)).mpr ⟨h.ipDigit (.inr ht), h.ipFirst (.inr ht),
        fun j hj => h.pppFirst ht j hj fun hp => absurd hp Bool.false_ne_true⟩

end Walks

/-- **After an update that has found an entry for each layer, the walks from its elements find its
IP entry, and walks end from everywhere, exactly under that condition.** -/
theorem walks_iff {c : Consts} {T T₁ : Tables} {wanIf : Int} {w : Wan} {isp : Str} {e : WanEntries}
    (hs : Sized T) (hsize : ∀ l, (T l).slots.length ≤ intMax) (hwan : 0 ≤ wanIf)
    (hlt : wanIf < c.wanInterfaceNum) (hisp : w.isp = some isp)
    (hres : 0 ≤ (updateTR181IFByPvcIdx c T wanIf w).2)
    (hfind : findWanEntries c T wanIf (isPpp c isp) (getWanVlanTag w) w.activeFlag = (T₁, some e))
    (hv : 0 ≤ getWanVlanTag w → e.vlanT ≠ -1) :
    WalksRight (updateTR181IFByPvcIdx c T wanIf w).1 e (isPpp c isp) (getWanVlanTag w) ∧
        WalksEnd (updateTR181IFByPvcIdx c T wanIf w).1 ↔
      WalksCond (updateTR181IFByPvcIdx c T wanIf w).1 e (isPpp c isp) (getWanVlanTag w) := by
  obtain ⟨T₁', e', hfind', -, hfound, hl⟩ := update_spec hs hwan hlt hisp hres
  obtain ⟨rfl, he⟩ := Prod.mk.inj (hfind'.symm.trans hfind)
  obtain rfl := Option.some.inj he
  have hsize₁ : ∀ l, (T₁' l).slots.length ≤ intMax := fun l => hfound.grown.length l ▸ hsize l
  have hv' : 0 ≤ getWanVlanTag w → HasEntry T₁' .vlanT e'.vlanT := fun ht =>
    (hfound.vlanT ht).resolve_right (hv ht)
  have hr : InRange e' (isPpp c isp) (getWanVlanTag w) :=
    ⟨index_lt hsize₁ hfound.ip, fun hp => index_lt hsize₁ (hfound.ppp hp),
      fun ht => index_lt hsize₁ (hv' ht)⟩
  exact walksRight_iff (fun l => hl.length l ▸ hsize₁ l) hr hl hv'

/-- A WAN with a PPP entry and a tag, from cleared tables. -/
theorem walks_iff_first :
    Sized (clearedTables someConsts) ∧
    (∀ l, (clearedTables someConsts l).slots.length ≤ intMax) ∧ (0 : Int) ≤ 0 ∧
    (0 : Int) < someConsts.wanInterfaceNum ∧
    0 ≤ (updateTR181IFByPvcIdx someConsts (clearedTables someConsts) 0 (pppWan "Yes".toList)).2 ∧
    (WalksRight (updateStep someConsts 0 (clearedTables someConsts) (pppWan "Yes".toList))
        ⟨0, 0, 0, 0⟩ (isPpp someConsts "2".toList) (getWanVlanTag (pppWan "Yes".toList)) ∧
      WalksEnd (updateStep someConsts 0 (clearedTables someConsts) (pppWan "Yes".toList)) ↔
      WalksCond (updateStep someConsts 0 (clearedTables someConsts) (pppWan "Yes".toList))
        ⟨0, 0, 0, 0⟩ (isPpp someConsts "2".toList) (getWanVlanTag (pppWan "Yes".toList))) := by
  have hlt : (0 : Int) < someConsts.wanInterfaceNum := by decide
  have hs : Sized (clearedTables someConsts) := (single_cleared le_rfl hlt).sized
  have hsize : ∀ l, (clearedTables someConsts l).slots.length ≤ intMax := fun l => by
    cases l <;> decide
  have hres : 0 ≤ (updateTR181IFByPvcIdx someConsts (clearedTables someConsts) 0
      (pppWan "Yes".toList)).2 := by decide
  have hfind : (findWanEntries someConsts (clearedTables someConsts) 0 (isPpp someConsts "2".toList)
      (getWanVlanTag (pppWan "Yes".toList)) (pppWan "Yes".toList).activeFlag).2 =
      some ⟨0, 0, 0, 0⟩ := by decide
  exact ⟨hs, hsize, le_rfl, hlt, hres,
    walks_iff hs hsize le_rfl hlt rfl hres (Prod.ext rfl hfind) fun _ => by decide⟩

/-- Constants of a build with 64 WANs. -/
def manyConsts : Consts := ⟨64, 9, 2, 0⟩

/-- Tables in which nine other WANs have IP entries. -/
def nineTables : Tables := fun l =>
  match l with
  | .ip => ⟨Layer.ip.node, (List.range 9).map (fun k =>
      some (writeIndexes ⟨k + 1, -1, 1⟩ fun _ => none)) ++ List.replicate 56 none, "9".toList⟩
  | l => clearedTables manyConsts l

/-- Tables whose first PPP entry names itself as the one above. -/
def cyclicTables : Tables := fun l =>
  ⟨l.node, [some fun n => if n = uplayerAttr then some (l.interface 0) else none], "1".toList⟩

/-- The tenth IP entry: the walk from its PPP entry returns 0. And an entry that names itself: two
walks do not end. -/
theorem walk_zero :
    0 ≤ (updateTR181IFByPvcIdx manyConsts nineTables 0 (pppWan "Yes".toList)).2 ∧
    IpIFIdxByUplayer (updateStep manyConsts 0 nineTables (pppWan "Yes".toList)) .ppp 0 0 ∧
    ¬ WalksRight (updateStep manyConsts 0 nineTables (pppWan "Yes".toList)) ⟨9, 0, 0, 0⟩ true 100 ∧
    (¬ ∃ r, Returns (uplayerCall cyclicTables) (some (.ppp, 1)) r) ∧
    ¬ ∃ T', PVCIndexByUpLayer cyclicTables (Layer.ppp.interface 0) 3 T' := by
  have hupper : entryAttr (updateStep manyConsts 0 nineTables (pppWan "Yes".toList)) .ppp 0
      uplayerAttr = some (Layer.ip.interface 9) := by decide +kernel
  refine ⟨by decide +kernel, ⟨1, by decide +kernel⟩, fun h => ?_, fun h => ?_, fun h => ?_⟩
  · exact absurd ((uplayer_ip hupper (by decide +kernel) (by decide +kernel)).mp
      (h.1 rfl).uplayer) (by decide +kernel)
  · have hcycle : Calls (uplayerCall cyclicTables) (some (.ppp, 1)) (some (.ppp, 1)) :=
      calls_uplayer.mpr ⟨by decide +kernel, by decide +kernel, by decide +kernel⟩
    exact not_transGen_of_acc (returns_iff_acc.mp h) (.single hcycle)
  · have hacc := (pvcIndex_acc (T := cyclicTables) fun _ _ => rfl).mp h
    refine not_transGen_of_acc hacc
      (.single ⟨.ppp, by decide +kernel, by decide +kernel, by decide +kernel⟩)

end OnuFirmware.Tr181
