import OnuFirmware.Cfg.ReadAttr
import OnuFirmware.Lib.Run
import OnuFirmware.Mesh.BssFile

/-!
# The primary VLAN of the mesh (`cfg_type_mesh_radio_bss_func_set`)

At most one BSS entry of the radios is to carry the primary VLAN. When `PrimaryVlan` of an entry is
set to `1`, the others are reset first: the entries of both radios up to the number in `BssidNum`
are gone through in order, and one that lacks the attribute ends this. In several cases the new
value is stored and nothing is reset at all. Build with `TCSUPPORT_MAP_R2`.
-/

namespace OnuFirmware.Mesh

open Clib Cfg Lib

/-! ## The tree -/

/-- The attributes of a BSS entry. -/
inductive BssAttr
  | frontHaul
  | backHaul
  | vlanID
  | primaryVlan
  | defaultPCP
deriving Repr, DecidableEq

def BssEntry.attr (e : BssEntry) : BssAttr → Option Str
  | .frontHaul => e.frontHaul
  | .backHaul => e.backHaul
  | .vlanID => e.vlanID
  | .primaryVlan => e.primaryVlan
  | .defaultPCP => e.defaultPCP

def BssEntry.setAttr (e : BssEntry) (a : BssAttr) (v : Str) : BssEntry :=
  match a with
  | .frontHaul => { e with frontHaul := some v }
  | .backHaul => { e with backHaul := some v }
  | .vlanID => { e with vlanID := some v }
  | .primaryVlan => { e with primaryVlan := some v }
  | .defaultPCP => { e with defaultPCP := some v }

@[simp] theorem BssEntry.attr_setAttr (e : BssEntry) (a : BssAttr) (v : Str) :
    (e.setAttr a v).attr a = some v := by
  cases a <;> rfl

theorem BssEntry.attr_setAttr_ne (e : BssEntry) {a b : BssAttr} (h : b ≠ a) (v : Str) :
    (e.setAttr a v).attr b = e.attr b := by
  cases a <;> cases b <;> first | rfl | exact absurd rfl h

/-- Number `k` of a radio stands for entry `k + 1`. -/
abbrev BssKey := Radio × Nat

/-- What the function reads and writes: `root.mesh.common`, `BssidNum` of `root.wlan.common` and
`root.wlan11ac.common`, and the entries that exist. -/
structure BssTree where
  deviceRole : Option Str
  reinitWifiFlag : Option Str
  bssidNum : Radio → Option Str
  entries : BssKey → Option BssEntry

/-- `cfg_obj_set_object_attr`: the return value, and the tree. -/
def BssTree.setObjectAttr (t : BssTree) (p : BssKey) (a : BssAttr) (v : Str) : Int × BssTree :=
  match t.entries p with
  | none => (-1, t)
  | some e => (0, { t with entries := Function.update t.entries p (some (e.setAttr a v)) })

/-- `cfg_get_object_attr` on an entry, into a buffer of eight bytes; `none` if it fails. -/
def BssTree.getObjectAttr (t : BssTree) (p : BssKey) (a : BssAttr) : Option Str :=
  ((t.entries p).bind (·.attr a)).map (snprintf 8)

/-! ## The loops -/

/-- The entries that a loop up to `BssidNum` goes through. -/
def bssKeys (r : Radio) (bssidNum : Str) : List BssKey :=
  (List.range (atoi (snprintf 8 bssidNum)).toNat).map (r, ·)

/-- Set all `VlanID`. -/
def resetVlanId (t : BssTree) (l : List BssKey) : BssTree :=
  l.foldl (fun t p => (t.setObjectAttr p .vlanID "4095".toList).2) t

/-- Reset the attribute of the other entries; `true` if an entry without it ends the loop. -/
def resetOthers (own : BssKey) (a : BssAttr) : List BssKey → BssTree → BssTree × Bool
  | [], t => (t, false)
  | p :: l, t =>
    match t.entries p with
    | none => resetOthers own a l t
    | some _ =>
      if p = own then resetOthers own a l t
      else
        match t.getObjectAttr p a with
        | none => (t, true)
        | some v =>
          if v ≠ "0".toList then resetOthers own a l (t.setObjectAttr p a "0".toList).2
          else resetOthers own a l t

/-- `cfg_type_mesh_radio_bss_func_set`. The event that has the file of the mesh written anew is left
out. -/
def radioBssFuncSet (t : BssTree) (path : BssKey) (a : BssAttr) (val : Str) : Int × BssTree :=
  match t.deviceRole.map (snprintf 8) with
  | none => t.setObjectAttr path a val
  | some role =>
    if a = .primaryVlan ∧ role = "1".toList then
      match t.bssidNum .radio2G, t.bssidNum .radio5GL, t.getObjectAttr path a with
      | some n2g, some n5g, some old =>
        if old = "1".toList ∧ val = "0".toList then
          let t := resetVlanId (resetVlanId t (bssKeys .radio2G n2g)) (bssKeys .radio5GL n5g)
          ({ t with reinitWifiFlag := some "1".toList } : BssTree).setObjectAttr path a val
        else if old = "0".toList ∧ val = "1".toList then
          let (t, stop) := resetOthers path a (bssKeys .radio2G n2g) t
          if stop then t.setObjectAttr path a val
          else (resetOthers path a (bssKeys .radio5GL n5g) t).1.setObjectAttr path a val
        else t.setObjectAttr path a val
      | _, _, _ => t.setObjectAttr path a val
    else t.setObjectAttr path a val

/-! ## Which entries have it -/

/-- The entry is there and its `PrimaryVlan` is `1`. -/
def HasPrimary (t : BssTree) (p : BssKey) : Prop :=
  ∃ e, t.entries p = some e ∧ e.primaryVlan = some "1".toList

def AtMostOnePrimary (t : BssTree) : Prop := ∀ p q, HasPrimary t p → HasPrimary t q → p = q

/-- The entry is there without the attribute. -/
def LacksPrimary (t : BssTree) (p : BssKey) : Prop :=
  ∃ e, t.entries p = some e ∧ e.primaryVlan = none

theorem setObjectAttr_none {t : BssTree} {p : BssKey} {a : BssAttr} {v : Str}
    (h : t.entries p = none) : (t.setObjectAttr p a v).2 = t := by
  rw [BssTree.setObjectAttr, h]

theorem setObjectAttr_some {t : BssTree} {p : BssKey} {a : BssAttr} {v : Str} {e : BssEntry}
    (h : t.entries p = some e) : (t.setObjectAttr p a v).2 =
      { t with entries := Function.update t.entries p (some (e.setAttr a v)) } := by
  rw [BssTree.setObjectAttr, h]

theorem setObjectAttr_deviceRole (t : BssTree) (p : BssKey) (a : BssAttr) (v : Str) :
    (t.setObjectAttr p a v).2.deviceRole = t.deviceRole := by
  rw [BssTree.setObjectAttr]
  split <;> rfl

theorem setObjectAttr_isSome (t : BssTree) (p q : BssKey) (a : BssAttr) (v : Str) :
    ((t.setObjectAttr p a v).2.entries q).isSome = (t.entries q).isSome := by
  cases h : t.entries p with
  | none => rw [setObjectAttr_none h]
  | some e =>
    rw [setObjectAttr_some h]
    by_cases hq : q = p
    · subst hq
      simp [h]
    · simp [hq]

/-- What a store of another attribute leaves. -/
theorem hasPrimary_set_other (t : BssTree) {p : BssKey} {a : BssAttr} (ha : .primaryVlan ≠ a)
    (v : Str) (q : BssKey) : HasPrimary (t.setObjectAttr p a v).2 q ↔ HasPrimary t q := by
  cases h : t.entries p with
  | none => rw [setObjectAttr_none h]
  | some e =>
    rw [setObjectAttr_some h, HasPrimary, HasPrimary]
    by_cases hq : q = p
    · subst hq
      have hkeep := e.attr_setAttr_ne ha v
      simp only [BssEntry.attr] at hkeep
      simp [h, hkeep]
    · simp [hq]

/-- What a store of `PrimaryVlan` in an entry that is there leaves. -/
theorem hasPrimary_set (t : BssTree) {p : BssKey} (h : (t.entries p).isSome) (v : Str)
    (q : BssKey) : HasPrimary (t.setObjectAttr p .primaryVlan v).2 q ↔
      (q = p ∧ v = "1".toList) ∨ (q ≠ p ∧ HasPrimary t q) := by
  obtain ⟨e, he⟩ := Option.isSome_iff_exists.mp h
  rw [setObjectAttr_some he, HasPrimary, HasPrimary]
  by_cases hq : q = p
  · subst hq
    simp [BssEntry.setAttr]
  · simp [hq]

theorem lacksPrimary_set (t : BssTree) {p : BssKey} (hp : ¬ LacksPrimary t p) (v : Str)
    (q : BssKey) : LacksPrimary (t.setObjectAttr p .primaryVlan v).2 q ↔ LacksPrimary t q := by
  cases h : t.entries p with
  | none => rw [setObjectAttr_none h]
  | some e =>
    rw [setObjectAttr_some h]
    by_cases hq : q = p
    · subst hq
      refine iff_of_false ?_ hp
      rintro ⟨e', he', hnone⟩
      obtain rfl := Option.some.inj ((Function.update_self q _ t.entries).symm.trans he')
      simp [BssEntry.setAttr] at hnone
    · simp [LacksPrimary, hq]

theorem hasPrimary_resetVlanId (l : List BssKey) (t : BssTree) (q : BssKey) :
    HasPrimary (resetVlanId t l) q ↔ HasPrimary t q := by
  induction l generalizing t with
  | nil => rfl
  | cons p l ih => exact (ih _).trans (hasPrimary_set_other t (by decide) _ q)

theorem resetVlanId_isSome (l : List BssKey) (t : BssTree) (q : BssKey) :
    ((resetVlanId t l).entries q).isSome = (t.entries q).isSome := by
  induction l generalizing t with
  | nil => rfl
  | cons p l ih => exact (ih _).trans (setObjectAttr_isSome t p q _ _)

theorem resetVlanId_deviceRole (l : List BssKey) (t : BssTree) :
    (resetVlanId t l).deviceRole = t.deviceRole := by
  induction l generalizing t with
  | nil => rfl
  | cons p l ih => exact (ih _).trans (setObjectAttr_deviceRole t p _ _)

/-! ## What is reset -/

/-- The loop over `l` gets to `q`: no entry before it lacks the attribute, the own one apart. -/
def Reached (t : BssTree) (own : BssKey) : List BssKey → BssKey → Prop
  | [], _ => False
  | p :: l, q => q = p ∨ ((p = own ∨ ¬ LacksPrimary t p) ∧ Reached t own l q)

theorem reached_congr {t t' : BssTree} {own : BssKey}
    (h : ∀ p, LacksPrimary t' p ↔ LacksPrimary t p) (q : BssKey) :
    ∀ l, Reached t' own l q ↔ Reached t own l q
  | [] => Iff.rfl
  | p :: l => by rw [Reached, Reached, h, reached_congr h q l]

theorem getObjectAttr_eq_none {t : BssTree} {p : BssKey} {e : BssEntry} (h : t.entries p = some e) :
    t.getObjectAttr p .primaryVlan = none ↔ LacksPrimary t p := by
  simp [BssTree.getObjectAttr, LacksPrimary, h, BssEntry.attr]

theorem getObjectAttr_eq_some {t : BssTree} {p : BssKey} {e : BssEntry} {v : Str}
    (h : t.entries p = some e) : t.getObjectAttr p .primaryVlan = some v ↔
      ∃ w, e.primaryVlan = some w ∧ snprintf 8 w = v := by
  simp [BssTree.getObjectAttr, h, BssEntry.attr]

/-- An entry whose text reads as `0` does not have it. -/
theorem not_hasPrimary_of_zero {t : BssTree} {p : BssKey}
    (h : t.getObjectAttr p .primaryVlan = some "0".toList) : ¬ HasPrimary t p := by
  rintro ⟨e, he, hone⟩
  obtain ⟨w, hw, hzero⟩ := (getObjectAttr_eq_some he).mp h
  rw [hone] at hw
  obtain rfl := Option.some.inj hw
  exact absurd hzero (by decide)

/-- **After the loop, the entries it got to do not have it.** -/
theorem hasPrimary_resetOthers {own : BssKey} (l : List BssKey) (t : BssTree) (q : BssKey) :
    HasPrimary (resetOthers own .primaryVlan l t).1 q ↔
      HasPrimary t q ∧ ¬ (q ≠ own ∧ Reached t own l q) := by
  induction l generalizing t with
  | nil => simp [resetOthers, Reached]
  | cons p l ih =>
    -- an entry at the head that neither has nor lacks it is passed over
    have hskip : ¬ HasPrimary t p ∨ p = own → (p = own ∨ ¬ LacksPrimary t p) →
        (HasPrimary t q ∧ ¬ (q ≠ own ∧ Reached t own l q) ↔
          HasPrimary t q ∧ ¬ (q ≠ own ∧ Reached t own (p :: l) q)) := by
      intro hoff hlack
      refine and_congr_right fun hq => not_congr (and_congr_right fun hne => ?_)
      rw [Reached]
      refine ⟨fun h => .inr ⟨hlack, h⟩, fun h => h.elim (fun he => ?_) (·.2)⟩
      rcases hoff with hoff | rfl
      · exact absurd (he ▸ hq) hoff
      · exact absurd he hne
    rw [resetOthers]
    split
    · next hnone =>
      rw [ih]
      refine hskip (.inl ?_) (.inr ?_)
      · rintro ⟨e, he, -⟩
        rw [hnone] at he
        simp at he
      · rintro ⟨e, he, -⟩
        rw [hnone] at he
        simp at he
    · next e he =>
      by_cases hown : p = own
      · rw [if_pos hown, ih]
        exact hskip (.inr hown) (.inl hown)
      · rw [if_neg hown]
        split
        · next hget =>
          -- the entry lacks the attribute: the loop ends here
          have hlack := (getObjectAttr_eq_none he).mp hget
          rw [Reached]
          refine (and_iff_left_of_imp fun hq => ?_).symm
          rintro ⟨-, rfl | ⟨hstop, -⟩⟩
          · obtain ⟨e1, he1, h1⟩ := hq
            obtain ⟨e2, he2, h2⟩ := hlack
            obtain rfl := Option.some.inj (he1.symm.trans he2)
            rw [h1] at h2
            simp at h2
          · exact hstop.elim hown (· hlack)
        · next v hv =>
          have hlack : ¬ LacksPrimary t p := by
            rw [← getObjectAttr_eq_none he, hv]
            simp
          by_cases hzero : v = "0".toList
          · rw [if_neg (not_not.mpr hzero), ih]
            exact hskip (.inl (not_hasPrimary_of_zero (hzero ▸ hv))) (.inr hlack)
          · have hp : (t.entries p).isSome := by rw [he]; rfl
            rw [if_pos hzero, ih, hasPrimary_set t hp,
              reached_congr (lacksPrimary_set t hlack _) q l, Reached]
            by_cases hq : q = p
            · simp [hq, hown]
            · simp [hq, hlack]

theorem resetOthers_isSome {own : BssKey} {a : BssAttr} (l : List BssKey) (t : BssTree)
    (q : BssKey) : ((resetOthers own a l t).1.entries q).isSome = (t.entries q).isSome := by
  induction l generalizing t with
  | nil => rfl
  | cons p l ih =>
    rw [resetOthers]
    split
    · exact ih t
    · split
      · exact ih t
      · split
        · rfl
        · split
          · exact (ih _).trans (setObjectAttr_isSome t p q _ _)
          · exact ih t

theorem resetOthers_deviceRole {own : BssKey} {a : BssAttr} (l : List BssKey) (t : BssTree) :
    (resetOthers own a l t).1.deviceRole = t.deviceRole := by
  induction l generalizing t with
  | nil => rfl
  | cons p l ih =>
    rw [resetOthers]
    split
    · exact ih t
    · split
      · exact ih t
      · split
        · rfl
        · split
          · exact (ih _).trans (setObjectAttr_deviceRole t p _ _)
          · exact ih t

/-- Two loops, the second of which is left out if the first one was ended, are one. -/
theorem resetOthers_append {own : BssKey} {a : BssAttr} (l m : List BssKey) (t : BssTree) :
    resetOthers own a (l ++ m) t =
      if (resetOthers own a l t).2 then resetOthers own a l t
      else resetOthers own a m (resetOthers own a l t).1 := by
  induction l generalizing t with
  | nil => rfl
  | cons p l ih =>
    rw [List.cons_append, resetOthers, resetOthers]
    split
    · exact ih t
    · split
      · exact ih t
      · split
        · rfl
        · split
          · exact ih _
          · exact ih t

/-! ## The step -/

/-- Setting `PrimaryVlan` of one entry resets that of another. -/
def Resets (t : BssTree) (p q : BssKey) : Prop :=
  t.getObjectAttr p .primaryVlan = some "0".toList ∧
    ∃ n2g n5g, t.bssidNum .radio2G = some n2g ∧ t.bssidNum .radio5GL = some n5g ∧
      Reached t p (bssKeys .radio2G n2g ++ bssKeys .radio5GL n5g) q

/-- Whatever is reset before, the value is stored at the end. -/
theorem radioBssFuncSet_eq (t : BssTree) (hrole : t.deviceRole = some "1".toList) (p : BssKey)
    (val : Str) : ∃ t' : BssTree, t'.deviceRole = t.deviceRole ∧
      (∀ q, (t'.entries q).isSome = (t.entries q).isSome) ∧
      (∀ q, HasPrimary t' q ↔ HasPrimary t q ∧ ¬ (val = "1".toList ∧ q ≠ p ∧ Resets t p q)) ∧
      radioBssFuncSet t p .primaryVlan val = t'.setObjectAttr p .primaryVlan val := by
  have hread : t.deviceRole.map (snprintf 8) = some "1".toList := by
    rw [hrole]
    rfl
  -- no entry is reset
  have hstay (hno : ¬ (val = "1".toList ∧ ∃ q, Resets t p q)) (q : BssKey) :
      HasPrimary t q ↔ HasPrimary t q ∧ ¬ (val = "1".toList ∧ q ≠ p ∧ Resets t p q) :=
    (and_iff_left fun h => hno ⟨h.1, q, h.2.2⟩).symm
  rw [radioBssFuncSet, hread]
  simp only [true_and, if_true]
  split
  · next n2g n5g old h2g h5g hold =>
    by_cases hclear : old = "1".toList ∧ val = "0".toList
    · rw [if_pos hclear]
      refine ⟨_, ?_, fun q => ?_, fun q => ?_, rfl⟩
      · exact (resetVlanId_deviceRole _ _).trans (resetVlanId_deviceRole _ _)
      · exact (resetVlanId_isSome _ _ q).trans (resetVlanId_isSome _ _ q)
      · refine Iff.trans ?_ (hstay ?_ q)
        · exact (hasPrimary_resetVlanId _ _ q).trans (hasPrimary_resetVlanId _ _ q)
        · rintro ⟨hone, -⟩
          rw [hclear.2] at hone
          exact absurd hone (by decide)
    · rw [if_neg hclear]
      by_cases hset : old = "0".toList ∧ val = "1".toList
      · -- both loops in one
        have hboth : (if (resetOthers p .primaryVlan (bssKeys .radio2G n2g) t).2 then
              (resetOthers p .primaryVlan (bssKeys .radio2G n2g) t).1.setObjectAttr p
                .primaryVlan val
            else
              (resetOthers p .primaryVlan (bssKeys .radio5GL n5g)
                (resetOthers p .primaryVlan (bssKeys .radio2G n2g) t).1).1.setObjectAttr p
                .primaryVlan val) =
            (resetOthers p .primaryVlan
              (bssKeys .radio2G n2g ++ bssKeys .radio5GL n5g) t).1.setObjectAttr p
                .primaryVlan val := by
          rw [resetOthers_append]
          split <;> rfl
        rw [if_pos hset, hboth]
        refine ⟨_, resetOthers_deviceRole _ _, resetOthers_isSome _ _, fun q => ?_, rfl⟩
        rw [hasPrimary_resetOthers, Resets, hold, hset.1]
        simp [hset.2, h2g, h5g]
      · rw [if_neg hset]
        refine ⟨t, rfl, fun q => rfl, hstay ?_, rfl⟩
        rintro ⟨hone, q, hold', -⟩
        rw [hold] at hold'
        exact hset ⟨Option.some.inj hold', hone⟩
  · next hnone =>
    refine ⟨t, rfl, fun q => rfl, hstay ?_, rfl⟩
    rintro ⟨-, q, hold, n2g, n5g, h2g, h5g, -⟩
    exact hnone n2g n5g _ h2g h5g hold

/-- One call on `PrimaryVlan`, with the value `1` or `0`. -/
def setPrimaryVlan (t : BssTree) (op : BssKey × Bool) : BssTree :=
  (radioBssFuncSet t op.1 .primaryVlan (if op.2 then "1".toList else "0".toList)).2

/-- The call resets every other entry that has it, if it sets `1` on an entry that is there. -/
def SetFits (t : BssTree) (op : BssKey × Bool) : Prop :=
  op.2 = true → (t.entries op.1).isSome → ∀ q, q ≠ op.1 → HasPrimary t q → Resets t op.1 q

theorem setPrimaryVlan_deviceRole {t : BssTree} (hrole : t.deviceRole = some "1".toList)
    (op : BssKey × Bool) : (setPrimaryVlan t op).deviceRole = some "1".toList := by
  obtain ⟨t', hr, -, -, he⟩ := radioBssFuncSet_eq t hrole op.1
    (if op.2 then "1".toList else "0".toList)
  rw [setPrimaryVlan, he, setObjectAttr_deviceRole, hr, hrole]

theorem setPrimaryVlan_isSome {t : BssTree} (hrole : t.deviceRole = some "1".toList)
    (op : BssKey × Bool) (q : BssKey) :
    ((setPrimaryVlan t op).entries q).isSome = (t.entries q).isSome := by
  obtain ⟨t', -, hs, -, he⟩ := radioBssFuncSet_eq t hrole op.1
    (if op.2 then "1".toList else "0".toList)
  rw [setPrimaryVlan, he, setObjectAttr_isSome, hs]

/-- Setting `0` gives it to no entry. -/
theorem hasPrimary_set_zero {t : BssTree} (hrole : t.deviceRole = some "1".toList) {p q : BssKey}
    (h : HasPrimary (setPrimaryVlan t (p, false)) q) : HasPrimary t q := by
  obtain ⟨t', -, hs, hprim, he⟩ := radioBssFuncSet_eq t hrole p "0".toList
  have hstep : setPrimaryVlan t (p, false) = (t'.setObjectAttr p .primaryVlan "0".toList).2 :=
    congrArg Prod.snd he
  rw [hstep] at h
  cases hp : t'.entries p with
  | none =>
    rw [setObjectAttr_none hp] at h
    exact ((hprim q).mp h).1
  | some e =>
    rcases (hasPrimary_set t' (by rw [hp]; rfl) _ q).mp h with ⟨-, hzero⟩ | ⟨-, hq⟩
    · exact absurd hzero (by decide)
    · exact ((hprim q).mp hq).1

/-- **Setting `1` gives it to the entry and leaves it to those that are not reset.** -/
theorem hasPrimary_set_one {t : BssTree} (hrole : t.deviceRole = some "1".toList) {p : BssKey}
    (hp : (t.entries p).isSome) (q : BssKey) : HasPrimary (setPrimaryVlan t (p, true)) q ↔
      q = p ∨ (q ≠ p ∧ HasPrimary t q ∧ ¬ Resets t p q) := by
  obtain ⟨t', -, hs, hprim, he⟩ := radioBssFuncSet_eq t hrole p "1".toList
  have hstep : setPrimaryVlan t (p, true) = (t'.setObjectAttr p .primaryVlan "1".toList).2 :=
    congrArg Prod.snd he
  rw [hstep, hasPrimary_set t' (by rw [hs, hp]), hprim]
  by_cases hq : q = p
  · simp [hq]
  · simp [hq]

/-- One call keeps the entry unique exactly if it fits. -/
theorem atMostOne_step {t : BssTree} (hrole : t.deviceRole = some "1".toList)
    (hone : AtMostOnePrimary t) (op : BssKey × Bool) :
    AtMostOnePrimary (setPrimaryVlan t op) ↔ SetFits t op := by
  obtain ⟨p, val⟩ := op
  cases val with
  | false =>
    refine iff_of_true (fun q r hq hr => ?_) (fun h => absurd h Bool.false_ne_true)
    exact hone q r (hasPrimary_set_zero hrole hq) (hasPrimary_set_zero hrole hr)
  | true =>
    by_cases hp : (t.entries p).isSome
    · constructor
      · intro huniq _ _ q hne hq
        by_contra hreset
        have hown := (hasPrimary_set_one hrole hp p).mpr (.inl rfl)
        exact hne (huniq q p ((hasPrimary_set_one hrole hp q).mpr (.inr ⟨hne, hq, hreset⟩)) hown)
      · intro hfit
        have hsame (q : BssKey) (hq : HasPrimary (setPrimaryVlan t (p, true)) q) : q = p := by
          rcases (hasPrimary_set_one hrole hp q).mp hq with rfl | ⟨hne, hq, hreset⟩
          · rfl
          · exact absurd (hfit rfl hp q hne hq) hreset
        intro q r hq hr
        rw [hsame q hq, hsame r hr]
    · refine iff_of_true (fun q r hq hr => ?_) (fun _ h => absurd h hp)
      -- nothing is stored in an entry that is not there
      obtain ⟨t', -, hs, hprim, he⟩ := radioBssFuncSet_eq t hrole p "1".toList
      have hnone : t'.entries p = none := by
        rw [← Option.not_isSome_iff_eq_none, hs]
        exact hp
      have hstep : setPrimaryVlan t (p, true) = t' :=
        (congrArg Prod.snd he).trans (setObjectAttr_none hnone)
      rw [hstep] at hq hr
      exact hone q r ((hprim q).mp hq).1 ((hprim r).mp hr).1

/-! ## Runs -/

/-- After every prefix of the calls at most one entry has it, and an entry that is there has it
after `1` was set on it. -/
def PrimaryRight (t : BssTree) (ops : List (BssKey × Bool)) : Prop :=
  (∀ pre, pre <+: ops → AtMostOnePrimary (pre.foldl setPrimaryVlan t)) ∧
    ∀ pre p, pre ++ [(p, true)] <+: ops → (t.entries p).isSome →
      HasPrimary ((pre ++ [(p, true)]).foldl setPrimaryVlan t) p

theorem run_deviceRole {t : BssTree} (hrole : t.deviceRole = some "1".toList)
    (ops : List (BssKey × Bool)) :
    (ops.foldl setPrimaryVlan t).deviceRole = some "1".toList := by
  induction ops generalizing t with
  | nil => exact hrole
  | cons op ops ih => exact ih (setPrimaryVlan_deviceRole hrole op)

theorem run_isSome {t : BssTree} (hrole : t.deviceRole = some "1".toList)
    (ops : List (BssKey × Bool)) (q : BssKey) :
    ((ops.foldl setPrimaryVlan t).entries q).isSome = (t.entries q).isSome := by
  induction ops generalizing t with
  | nil => rfl
  | cons op ops ih =>
    exact (ih (setPrimaryVlan_deviceRole hrole op)).trans (setPrimaryVlan_isSome hrole op q)

/-- The entry that is set has it afterwards, whatever is reset. -/
theorem hasPrimary_after {t : BssTree} (hrole : t.deviceRole = some "1".toList)
    (pre : List (BssKey × Bool)) {p : BssKey} (hp : (t.entries p).isSome) :
    HasPrimary ((pre ++ [(p, true)]).foldl setPrimaryVlan t) p := by
  rw [List.foldl_append]
  exact (hasPrimary_set_one (run_deviceRole hrole pre) (by rw [run_isSome hrole, hp]) p).mpr
    (.inl rfl)

/-- **The primary VLAN is kept unique by exactly the runs all of whose calls fit.** -/
theorem primaryRight_iff (t : BssTree) (hrole : t.deviceRole = some "1".toList)
    (hone : AtMostOnePrimary t) (ops : List (BssKey × Bool)) :
    PrimaryRight t ops ↔ RunOk setPrimaryVlan SetFits t ops := by
  constructor
  · rintro ⟨huniq, -⟩
    refine RunOk.iff_prefix.mpr fun pre op hpre => ?_
    have hbefore := huniq pre ((List.prefix_append pre [op]).trans hpre)
    have hafter := huniq _ hpre
    rw [List.foldl_append] at hafter
    exact (atMostOne_step (run_deviceRole hrole pre) hbefore op).mp hafter
  · intro hrun
    refine ⟨fun pre hpre => ?_, fun pre p _ hp => hasPrimary_after hrole pre hp⟩
    have hkeep : ∀ s op, (s.deviceRole = some "1".toList ∧ AtMostOnePrimary s) → SetFits s op →
        (setPrimaryVlan s op).deviceRole = some "1".toList ∧
          AtMostOnePrimary (setPrimaryVlan s op) := fun s op hs hfit =>
      ⟨setPrimaryVlan_deviceRole hs.1 op, (atMostOne_step hs.1 hs.2 op).mpr hfit⟩
    have hinv := RunOk.inv_prefix hkeep hrun ⟨hrole, hone⟩ hpre
    exact hinv.2

/-! ## An example -/

/-- Two entries of the first radio; the second one has no `PrimaryVlan`. -/
def twoBss : BssTree where
  deviceRole := some "1".toList
  reinitWifiFlag := none
  bssidNum := fun _ => some "2".toList
  entries := fun p =>
    if p = (.radio2G, 0) then some { primaryVlan := some "1".toList }
    else if p = (.radio2G, 1) then some {}
    else none

theorem hasPrimary_twoBss {q : BssKey} (h : HasPrimary twoBss q) : q = (.radio2G, 0) := by
  obtain ⟨e, he, hone⟩ := h
  by_contra hq
  simp only [twoBss, if_neg hq] at he
  split at he
  · obtain rfl := Option.some.inj he
    simp at hone
  · simp at he

theorem atMostOne_twoBss : AtMostOnePrimary twoBss := fun _ _ hp hq =>
  (hasPrimary_twoBss hp).trans (hasPrimary_twoBss hq).symm

/-- Three entries with the attribute; the first one has the primary VLAN. -/
def threeBss : BssTree where
  deviceRole := some "1".toList
  reinitWifiFlag := none
  bssidNum := fun _ => some "2".toList
  entries := fun p =>
    if p = (.radio2G, 0) then some { primaryVlan := some "1".toList }
    else if p = (.radio2G, 1) ∨ p = (.radio5GL, 0) then some { primaryVlan := some "0".toList }
    else none

theorem hasPrimary_threeBss {q : BssKey} (h : HasPrimary threeBss q) : q = (.radio2G, 0) := by
  obtain ⟨e, he, hone⟩ := h
  by_contra hq
  simp only [threeBss, if_neg hq] at he
  split at he
  · obtain rfl := Option.some.inj he
    simp at hone
  · simp at he

/-- The primary VLAN is moved to the second entry and on to one of the other radio. -/
def movedCalls : List (BssKey × Bool) := [((.radio2G, 1), true), ((.radio5GL, 0), true)]

/-- Both calls take it from the entry that has it. -/
theorem primaryRight_iff_moved : PrimaryRight threeBss movedCalls := by
  have hone : AtMostOnePrimary threeBss := fun _ _ hp hq =>
    (hasPrimary_threeBss hp).trans (hasPrimary_threeBss hq).symm
  have hkeys : bssKeys .radio2G "2".toList = [(.radio2G, 0), (.radio2G, 1)] := by decide
  have hfirst : SetFits threeBss ((.radio2G, 1), true) := by
    intro _ _ q _ hq
    rw [hasPrimary_threeBss hq]
    refine ⟨by decide, _, _, rfl, rfl, ?_⟩
    rw [hkeys]
    exact .inl rfl
  generalize ht : setPrimaryVlan threeBss ((.radio2G, 1), true) = t at *
  have hmoved : AtMostOnePrimary t := ht ▸ (atMostOne_step rfl hone _).mpr hfirst
  have hhas : HasPrimary t (.radio2G, 1) := by
    refine ⟨{ primaryVlan := some "1".toList }, ?_, rfl⟩
    rw [← ht]
    rfl
  have hsecond : SetFits t ((.radio5GL, 0), true) := by
    intro _ _ q _ hq
    rw [hmoved q (.radio2G, 1) hq hhas]
    refine ⟨by rw [← ht]; decide, "2".toList, "2".toList, by rw [← ht]; decide,
      by rw [← ht]; decide, ?_⟩
    rw [hkeys]
    -- The first entry has the attribute, so the loop goes on behind it.
    refine .inr ⟨.inr ?_, .inl rfl⟩
    rintro ⟨e, he, hnone⟩
    have hzero : (t.entries (.radio2G, 0)).bind (·.primaryVlan) = some "0".toList := by
      rw [← ht]
      decide
    rw [he, Option.bind_some, hnone] at hzero
    exact absurd hzero (by simp)
  refine (primaryRight_iff threeBss rfl hone movedCalls).mpr ⟨hfirst, ?_, trivial⟩
  rw [ht]
  exact hsecond

/-- An entry without the attribute gets it, and nothing is taken from the other one. -/
theorem primaryRight_wrong :
    AtMostOnePrimary twoBss ∧ ¬ PrimaryRight twoBss [((.radio2G, 1), true)] := by
  refine ⟨atMostOne_twoBss, ?_⟩
  rintro ⟨huniq, -⟩
  have hafter := huniq _ (List.prefix_refl _)
  have hfit := (atMostOne_step (t := twoBss) rfl atMostOne_twoBss _).mp hafter
  have hreset := hfit rfl rfl (.radio2G, 0) (by decide) ⟨_, rfl, rfl⟩
  exact absurd hreset.1 (by decide)

end OnuFirmware.Mesh
