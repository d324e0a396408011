import OnuFirmware.Lib.Run
import OnuFirmware.Tr181.PortMap
import Mathlib.Data.Finset.Card

/-!
# The links of virtual servers and port mappings in runs

Every event keeps the links inverse as long as its search does not meet the neighbour of the virtual
server, a port mapping without links, or a virtual server that belongs to another port mapping.
-/

namespace OnuFirmware.Tr181

open Clib Cfg Lib

variable {s : NatState} {num : Int}

/-! ## Links of changed tables -/

section Fields

variable (s : NatState) (q : Int) (n : Nat) (v : Int × Int) (e : Option PortMap)
  (x : Option VirServer)

@[simp] theorem setPm_vs : (s.setPm q e).vs = s.vs := rfl

@[simp] theorem setPm_pm : (s.setPm q e).pm = Function.update s.pm q e := rfl

@[simp] theorem setPm_num : (s.setPm q e).num = s.num := rfl

@[simp] theorem setPm_made : (s.setPm q e).made = s.made := rfl

@[simp] theorem setPm_link : (s.setPm q e).link = s.link := rfl

@[simp] theorem setVs_vs : (s.setVs v x).vs = Function.update s.vs v x := rfl

@[simp] theorem setVs_pm : (s.setVs v x).pm = s.pm := rfl

@[simp] theorem setVs_num : (s.setVs v x).num = s.num := rfl

@[simp] theorem setVs_made : (s.setVs v x).made = s.made := rfl

@[simp] theorem setVs_back : (s.setVs v x).back = s.back := rfl

theorem setVs_link : (s.setVs v x).link = Function.update s.link v (x.bind (·.pmEntryIdx)) := by
  funext v'
  by_cases hv : v' = v
  · rw [hv, Function.update_self, NatState.link, setVs_vs, Function.update_self]
  · rw [Function.update_of_ne hv, NatState.link, setVs_vs, Function.update_of_ne hv]
    rfl

theorem setPm_back : (s.setPm (n + 1) e).back = Function.update s.back n (backOf e) := by
  funext n'
  by_cases hn : n' = n
  · rw [hn, Function.update_self, NatState.back, setPm_pm, Function.update_self]
  · have hne : (n' : Int) + 1 ≠ n + 1 := by omega
    rw [Function.update_of_ne hn, NatState.back, setPm_pm, Function.update_of_ne hne]
    rfl

/-- A change that keeps what is named. -/
theorem setVs_link_same (h : x.bind (·.pmEntryIdx) = s.link v) : (s.setVs v x).link = s.link := by
  rw [setVs_link, h, Function.update_eq_self]

/-- A change that keeps the indices. -/
theorem setPm_back_same (h : backOf e = s.back n) : (s.setPm (n + 1) e).back = s.back := by
  rw [setPm_back, h, Function.update_eq_self]

end Fields

/-! ## The invariant -/

/-- What every event keeps. -/
structure NatInv (num : Int) (s : NatState) : Prop where
  linked : BackLinked s.link s.back
  keys : ∀ n v, s.back n = some v → 1 ≤ v.1 ∧ 1 ≤ v.2
  made : ∀ q ∈ s.made, (s.pm q).isSome = true
  num_eq : s.num = num + s.made.card

theorem backOf_eq_some {e : Option PortMap} {v : Int × Int} :
    backOf e = some v ↔ ∃ p, e = some p ∧ p.pvcIndex = some (v.1 - 1) ∧
      p.vsEntryIdx = some (v.2 - 1) := by
  obtain ⟨w, k⟩ := v
  cases e with
  | none => simp [backOf]
  | some p =>
    simp only [backOf, Option.bind_some, Option.some_inj, exists_eq_left']
    cases p.pvcIndex with
    | none => simp
    | some a =>
      cases p.vsEntryIdx with
      | none => simp
      | some b =>
        simp only [Option.some_inj, Prod.mk.injEq]
        omega

theorem NatInv.right (h : NatInv num s) : NatRight num s where
  inverse v n hv := backOf_eq_some.mp (h.linked v n hv)
  unique _ _ _ hv hv' := h.linked.inj hv hv'
  num_eq := h.num_eq

theorem natInv_of_unlinked (h : Unlinked s) : NatInv s.num s where
  linked v n hv := by
    rw [h.vs v] at hv
    exact absurd hv (Option.some_ne_none n).symm
  keys n v hv := by
    obtain ⟨p, hp, hpvc, -⟩ := backOf_eq_some.mp hv
    rw [(h.pm _ p hp).1] at hpvc
    exact absurd hpvc (Option.some_ne_none _).symm
  made q hq := by
    rw [h.made] at hq
    exact absurd hq (Finset.notMem_empty q)
  num_eq := by simp [h.made]

/-! ## One pair -/

/-- Outside of one virtual server and one port mapping nothing is changed. -/
structure Touched (s s' : NatState) (v : Int × Int) (q : Int) : Prop where
  vs : ∀ v' ≠ v, s'.vs v' = s.vs v'
  pm : ∀ q' ≠ q, s'.pm q' = s.pm q'

theorem Touched.trans {s₁ s₂ s₃ : NatState} {v : Int × Int} {q : Int} (h : Touched s₁ s₂ v q)
    (h' : Touched s₂ s₃ v q) : Touched s₁ s₃ v q where
  vs v' hv := (h'.vs v' hv).trans (h.vs v' hv)
  pm q' hq := (h'.pm q' hq).trans (h.pm q' hq)

/-- The state after the attributes of a virtual server have changed. -/
theorem NatInv.setVs (h : NatInv num s) {v : Int × Int} {x : Option VirServer}
    (hx : x.bind (·.pmEntryIdx) = s.link v) : NatInv num (s.setVs v x) where
  linked := by
    rw [setVs_link_same s v x hx, setVs_back]
    exact h.linked
  keys := h.keys
  made := h.made
  num_eq := h.num_eq

theorem touched_setVs (v : Int × Int) (x : Option VirServer) (q : Int) :
    Touched s (s.setVs v x) v q where
  vs v' hv := by rw [setVs_vs, Function.update_of_ne hv]
  pm _ _ := rfl

theorem touched_setPm (v : Int × Int) (e : Option PortMap) (q : Int) :
    Touched s (s.setPm q e) v q where
  vs _ _ := rfl
  pm q' hq := by rw [setPm_pm, Function.update_of_ne hq]

/-- **A virtual server and a port mapping are linked.** -/
theorem connect_spec (h : NatInv num s) {v : Int × Int} {n : Nat}
    (hkey : 1 ≤ v.1 ∧ 1 ≤ v.2) (hfree : ∀ v', s.link v' = some n → v' = v) {p : PortMap}
    (hp : backOf (some p) = some v) {x : VirServer} (hx : x.pmEntryIdx = some n) :
    NatInv num ((s.setPm (n + 1) (some p)).setVs v (some x)) ∧
      Touched s ((s.setPm (n + 1) (some p)).setVs v (some x)) v (n + 1) ∧
      ((s.setPm (n + 1) (some p)).setVs v (some x)).link v = some n := by
  have hlink : (some x).bind (·.pmEntryIdx) = some n := hx
  refine ⟨⟨?_, ?_, ?_, h.num_eq⟩, (touched_setPm v _ _).trans (touched_setVs v _ _), ?_⟩
  · rw [setVs_link, setVs_back, setPm_back, hp, hlink]
    exact h.linked.connect hfree
  · intro n' v' hv'
    rw [setVs_back, setPm_back, hp] at hv'
    by_cases hn : n' = n
    · rw [hn, Function.update_self] at hv'
      exact Option.some_inj.mp hv' ▸ hkey
    · rw [Function.update_of_ne hn] at hv'
      exact h.keys n' v' hv'
  · intro q hq
    by_cases hqn : q = n + 1
    · rw [hqn, setVs_pm, setPm_pm, Function.update_self]
      rfl
    · rw [setVs_pm, setPm_pm, Function.update_of_ne hqn]
      exact h.made q hq
  · rw [setVs_link, Function.update_self, hlink]

theorem moveVirServer_spec (env : NatEnv) {v : Int × Int} {n : Nat} (h : NatInv num s)
    (hkey : 1 ≤ v.1 ∧ 1 ≤ v.2) (hv : (s.vs v).isSome = true)
    (hpm : (s.pm (n + 1)).isSome = true) (hfree : ∀ v', s.link v' = some n → v' = v) :
    NatInv num (moveVirServerNodeToPortMap env v n s) ∧
      Touched s (moveVirServerNodeToPortMap env v n s) v (n + 1) ∧
      (moveVirServerNodeToPortMap env v n s).link v = some n := by
  obtain ⟨e, he⟩ := Option.isSome_iff_exists.mp hv
  obtain ⟨p, hp⟩ := Option.isSome_iff_exists.mp hpm
  have heq : moveVirServerNodeToPortMap env v n s =
      (s.setPm (n + 1) (some (fromVirServer env v (some e) p))).setVs v
        (some { e with pmEntryIdx := some n }) := by
    simp only [moveVirServerNodeToPortMap, hp, Option.isSome_some, if_true, setPm_vs, he,
      Option.map_some]
  rw [heq]
  exact connect_spec h hkey hfree (backOf_eq_some.mpr ⟨_, rfl, rfl, rfl⟩) rfl

/-- The link, where the virtual server exists. -/
theorem movePortMap_some (env : NatEnv) {a b : Int} {n : Nat} (h : NatInv num s)
    (hab : 0 ≤ a ∧ 0 ≤ b) (hpm : (s.pm (n + 1)).isSome = true) (hv : (s.vs (a + 1, b + 1)).isSome = true)
    (hfree : ∀ v', s.link v' = some n → v' = (a + 1, b + 1)) :
    NatInv num (movePortMapNodeToVirServer env a b (n + 1) s) ∧
      Touched s (movePortMapNodeToVirServer env a b (n + 1) s) (a + 1, b + 1) (n + 1) ∧
      ((movePortMapNodeToVirServer env a b (n + 1) s).link (a + 1, b + 1) = some n ∨
        movePortMapNodeToVirServer env a b (n + 1) s = s) := by
  obtain ⟨p, hp⟩ := Option.isSome_iff_exists.mp hpm
  obtain ⟨x, hx⟩ := Option.isSome_iff_exists.mp hv
  by_cases hname : attrText (env.ifName a) 256 [] = []
  · have heq : movePortMapNodeToVirServer env a b (n + 1) s = s := by
      simp only [movePortMapNodeToVirServer, hx, Option.isSome_some, if_true, hname]
    rw [heq]
    exact ⟨h, ⟨fun _ _ => rfl, fun _ _ => rfl⟩, .inr rfl⟩
  · have hnum : ((n : Int) + 1 - 1).toNat = n := by omega
    have heq : movePortMapNodeToVirServer env a b (n + 1) s =
        (s.setPm (n + 1) (some { p with pvcIndex := some a, vsEntryIdx := some b })).setVs
          (a + 1, b + 1) (some (toVirServer { p with pvcIndex := some a, vsEntryIdx := some b }
            (n + 1) x)) := by
      simp only [movePortMapNodeToVirServer, hx, Option.isSome_some, if_true, hname, if_false,
        setPm_vs, setPm_pm, hp, Option.map_some, Function.update_self, Option.getD_some]
    have hback : backOf (some { p with pvcIndex := some a, vsEntryIdx := some b }) =
        some (a + 1, b + 1) := rfl
    have hidx : (toVirServer { p with pvcIndex := some a, vsEntryIdx := some b } (n + 1) x).pmEntryIdx =
        some n := by rw [toVirServer, hnum]
    rw [heq]
    obtain ⟨hinv, htouched, hlink⟩ := connect_spec h (by constructor <;> simp only <;> omega) hfree hback
      hidx
    exact ⟨hinv, htouched, .inl hlink⟩

theorem movePortMap_spec (env : NatEnv) {a b : Int} {n : Nat} (h : NatInv num s)
    (hab : 0 ≤ a ∧ 0 ≤ b) (hpm : (s.pm (n + 1)).isSome = true)
    (hfree : ∀ v', s.link v' = some n → v' = (a + 1, b + 1)) :
    NatInv num (movePortMapNodeToVirServer env a b (n + 1) s) ∧
      Touched s (movePortMapNodeToVirServer env a b (n + 1) s) (a + 1, b + 1) (n + 1) ∧
      ((movePortMapNodeToVirServer env a b (n + 1) s).link (a + 1, b + 1) = some n ∨
        s.vs (a + 1, b + 1) = none ∨
        movePortMapNodeToVirServer env a b (n + 1) s = s) := by
  cases hv : s.vs (a + 1, b + 1) with
  | some x =>
    obtain ⟨hinv, htouched, hlink⟩ := movePortMap_some env h hab hpm (by rw [hv]; rfl) hfree
    exact ⟨hinv, htouched, hlink.imp_right .inr⟩
  | none =>
    have hnone : s.link (a + 1, b + 1) = none := by rw [NatState.link, hv]; rfl
    have hnew : (some ({} : VirServer)).bind (·.pmEntryIdx) = s.link (a + 1, b + 1) := hnone.symm
    have hfree' : ∀ v', (s.setVs (a + 1, b + 1) (some {})).link v' = some n → v' = (a + 1, b + 1) := by
      rw [setVs_link_same s _ _ hnew]
      exact hfree
    have heq : movePortMapNodeToVirServer env a b (n + 1) s =
        movePortMapNodeToVirServer env a b (n + 1) (s.setVs (a + 1, b + 1) (some {})) := by
      simp only [movePortMapNodeToVirServer, hv, setVs_vs, Function.update_self, Option.isSome_some,
        Option.isSome_none, if_true, Bool.false_eq_true, if_false]
    obtain ⟨hinv, htouched, -⟩ := movePortMap_some env (h.setVs hnew) hab hpm
      (by rw [setVs_vs, Function.update_self]; rfl) hfree'
    rw [heq]
    exact ⟨hinv, (touched_setVs _ _ _).trans htouched, .inr (.inl rfl)⟩

/-! ## Searches -/

theorem findPm_some {test : Option PortMap → Bool} {i : Nat} (h : findPm s test = some i) :
    i < natPortMappingNum ∧ test (s.pm (i + 1)) = true ∧ ∀ j < i, test (s.pm (j + 1)) = false := by
  rw [findPm, List.find?_range_eq_some, List.mem_range] at h
  exact ⟨h.2.1, h.1, fun j hj => Bool.not_eq_true' _ |>.mp (h.2.2 j hj)⟩

theorem findPm_none {test : Option PortMap → Bool} :
    findPm s test = none ↔ ∀ i < natPortMappingNum, test (s.pm (i + 1)) = false := by
  rw [findPm, List.find?_range_eq_none]
  simp only [Bool.not_eq_true']

theorem linkTest_iff {test : Int → Int → Bool} {e : Option PortMap} :
    linkTest test e = true ↔ ∃ v, backOf e = some v ∧ test (v.1 - 1) (v.2 - 1) = true := by
  rw [linkTest, backOf]
  cases e.bind (·.pvcIndex) with
  | none => simp
  | some a =>
    cases e.bind (·.vsEntryIdx) with
    | none => simp
    | some b => simp

/-! ## Events -/

/-- The links after a port mapping and the only virtual server that names it are deleted. -/
theorem drop_links (h : NatInv num s) {v : Int × Int} {n : Nat}
    (hfree : ∀ v', s.link v' = some n → v' = v) :
    BackLinked ((s.dropPm (n + 1)).setVs v none).link ((s.dropPm (n + 1)).setVs v none).back ∧
      ∀ n' v', ((s.dropPm (n + 1)).setVs v none).back n' = some v' → 1 ≤ v'.1 ∧ 1 ≤ v'.2 := by
  have hnone : ∀ v', Function.update s.link v none v' ≠ some n := by
    intro v' hv'
    by_cases hv : v' = v
    · rw [hv, Function.update_self] at hv'
      exact absurd hv' (Option.some_ne_none n).symm
    · rw [Function.update_of_ne hv] at hv'
      exact hv (hfree v' hv')
  have hback : (s.dropPm (n + 1)).back = Function.update s.back n none := setPm_back s n none
  rw [setVs_link, setVs_back, hback]
  refine ⟨(h.linked.unlink v).rewrite hnone none, fun n' v' hv' => ?_⟩
  by_cases hn : n' = n
  · rw [hn, Function.update_self] at hv'
    exact absurd hv' (Option.some_ne_none v').symm
  · rw [Function.update_of_ne hn] at hv'
    exact h.keys n' v' hv'

/-- The port mappings that are left. -/
theorem drop_made (h : NatInv num s) (q : Int) :
    ∀ q' ∈ (s.dropPm q).made, ((s.dropPm q).pm q').isSome = true := by
  intro q' hq'
  obtain ⟨hne, hmem⟩ := Finset.mem_erase.mp hq'
  have hpm : (s.dropPm q).pm q' = s.pm q' := Function.update_of_ne hne _ _
  rw [hpm]
  exact h.made q' hmem

theorem remove_spec (h : NatInv num s) (v : VsKey) (hc : NatCond s (.remove v)) :
    NatInv num (natStep s (.remove v)) ∧ NatFrame s (natStep s (.remove v)) (.remove v) := by
  obtain ⟨v, hv⟩ := v
  cases hlink : s.link v with
  | some n =>
    have hmade : (n + 1 : Int) ∈ s.made := by simpa only [NatCond, hlink] using hc
    have hstep : natStep s (.remove ⟨v, hv⟩) =
        ({ s.dropPm (n + 1) with num := s.num - 1 } : NatState).setVs v none := by
      have hbind : (s.vs v).bind (·.pmEntryIdx) = some n := hlink
      simp only [natStep, clearPortMapNodeByIdx, hbind, h.made _ hmade, if_true]
    have hcard := Finset.card_erase_add_one hmade
    have hnum := h.num_eq
    rw [hstep]
    obtain ⟨hlinked, hkeys⟩ := drop_links h fun v' hv' => h.linked.inj hv' hlink
    refine ⟨⟨hlinked, hkeys, drop_made h _, ?_⟩,
      fun v' hne => Function.update_of_ne hne _ _, fun q hq => ⟨n, ?_, hlink⟩⟩
    · show s.num - 1 = num + (s.made.erase (n + 1)).card
      omega
    · by_contra hne
      exact hq (Function.update_of_ne hne _ _)
  | none =>
    have hnone : ∀ i < natPortMappingNum, s.back i ≠ some (v.1 + 1, v.2 + 1) := by
      simpa only [NatCond, hlink] using hc
    have hfind : findPm s (linkTest fun a b => a == v.1 && b == v.2) = none := by
      refine findPm_none.mpr fun i hi => ?_
      rw [← Bool.not_eq_true, linkTest_iff]
      rintro ⟨⟨a, b⟩, hback, htest⟩
      simp only [Bool.and_eq_true, beq_iff_eq] at htest
      have hv' : ((a, b) : Int × Int) = (v.1 + 1, v.2 + 1) := Prod.ext (by omega) (by omega)
      exact hnone i hi (hv' ▸ hback)
    have hstep : natStep s (.remove ⟨v, hv⟩) = s.setVs v none := by
      have hbind : (s.vs v).bind (·.pmEntryIdx) = none := hlink
      simp only [natStep, clearPortMapNodeByIdx, hbind, hfind]
    rw [hstep]
    exact ⟨h.setVs hlink.symm, fun v' hne => Function.update_of_ne hne _ _,
      fun q hq => absurd rfl hq⟩

theorem delete_spec (h : NatInv num s) (q : PmKey) (hc : NatCond s (.delete q)) :
    NatInv num (natStep s (.delete q)) ∧ NatFrame s (natStep s (.delete q)) (.delete q) := by
  obtain ⟨q, hq⟩ := q
  obtain ⟨n, rfl⟩ : ∃ n : Nat, q = n + 1 := ⟨(q - 1).toNat, by omega⟩
  obtain ⟨hown, hmade⟩ := hc
  simp only at hown hmade
  generalize hv : (readIdx ((s.pm (n + 1)).bind (·.pvcIndex)) + 1,
    readIdx ((s.pm (n + 1)).bind (·.vsEntryIdx)) + 1) = v at hown
  have hfree : ∀ v', s.link v' = some n → v' = v := by
    intro v' hv'
    obtain ⟨p, hp, hpvc, hety⟩ := backOf_eq_some.mp (h.linked v' n hv')
    rw [← hv, hp, Option.bind_some, Option.bind_some, hpvc, hety]
    exact Prod.ext (by simp [readIdx]) (by simp [readIdx])
  have hstep : natStep s (.delete ⟨n + 1, hq⟩) = (s.dropPm (n + 1)).setVs v none := by
    simp only [natStep, natPortMapDelete]
    by_cases hidx : 0 ≤ readIdx ((s.pm (n + 1)).bind (·.pvcIndex)) ∧
        0 ≤ readIdx ((s.pm (n + 1)).bind (·.vsEntryIdx))
    · rw [if_pos hidx, hv]
      rfl
    · have hvs : s.vs v = none := hown.resolve_right fun hnames => by
        obtain ⟨m, hm, hlink⟩ := hnames
        have hkeys := h.keys m v (h.linked v m hlink)
        rw [← hv] at hkeys
        exact hidx ⟨by simp only at hkeys; omega, by simp only at hkeys; omega⟩
      have hself : Function.update (s.dropPm (n + 1)).vs v none = (s.dropPm (n + 1)).vs :=
        Function.update_eq_self_iff.mpr hvs.symm
      rw [if_neg hidx, NatState.setVs, hself]
  have hcard : s.made.erase (n + 1) = s.made := Finset.erase_eq_of_notMem hmade
  obtain ⟨hlinked, hkeys⟩ := drop_links h hfree
  rw [hstep]
  refine ⟨⟨hlinked, hkeys, drop_made h _, ?_⟩, fun q' hne => Function.update_of_ne hne _ _,
    fun v' hv' => ?_⟩
  · show s.num = num + (s.made.erase (n + 1)).card
    rw [hcard, h.num_eq]
  · have hvv : v' = v := by
      by_contra hne
      exact hv' (Function.update_of_ne hne _ _)
    rw [hvv] at hv' ⊢
    refine hown.resolve_left fun hnone => hv' ?_
    rw [hnone]
    exact Function.update_self ..

/-! ### Updates of a virtual server -/

/-- The port mapping that is found or created for a virtual server without one. -/
theorem create_spec (h : NatInv num s) {v : Int × Int} (hkey : 1 ≤ v.1 ∧ 1 ≤ v.2)
    (hnext : s.link (v.1 + 1, v.2 + 1) = none)
    (hempty : ∀ i < natPortMappingNum, (s.pm (i + 1)).bind (·.active) = none →
      ∃ j ≤ i, s.pm (j + 1) = none) {i : Nat} {s' : NatState}
    (hcreate : createPortMappingEntry v s = some (i, s')) :
    NatInv num s' ∧ Touched s s' v (i + 1) ∧ s'.vs = s.vs ∧ (s'.pm (i + 1)).isSome = true ∧
      ∀ v', s.link v' ≠ some i := by
  unfold createPortMappingEntry at hcreate
  cases hexist : findPm s fun e => !(e.bind (·.active)).isNone &&
      readIdx (e.bind (·.pvcIndex)) == v.1 && readIdx (e.bind (·.vsEntryIdx)) == v.2 with
  | some j =>
    have htest := (findPm_some hexist).2.1
    simp only [Bool.and_eq_true, beq_iff_eq] at htest
    obtain ⟨⟨hactive, hpvc⟩, hety⟩ := htest
    cases hp : s.pm (j + 1) with
    | none => simp [hp] at hactive
    | some p =>
      rw [hp, Option.bind_some] at hpvc hety
      simp only [hexist, Option.some_or, hp, Option.isSome_some, if_true, Option.some_inj,
        Prod.mk.injEq, Option.map_some] at hcreate
      obtain ⟨rfl, rfl⟩ := hcreate
      have hfree : ∀ v', s.link v' ≠ some j := by
        intro v' hv'
        obtain ⟨p', hp', hpvc', hety'⟩ := backOf_eq_some.mp (h.linked v' j hv')
        obtain rfl := Option.some_inj.mp (hp.symm.trans hp')
        rw [hpvc'] at hpvc
        rw [hety'] at hety
        simp only [readIdx, Option.getD_some] at hpvc hety
        have hvv : v' = (v.1 + 1, v.2 + 1) := Prod.ext (by simp only; omega) (by simp only; omega)
        rw [hvv, hnext] at hv'
        exact absurd hv' (Option.some_ne_none j).symm
      refine ⟨⟨?_, ?_, ?_, h.num_eq⟩, touched_setPm v _ _, rfl, ?_, hfree⟩
      · rw [setPm_link, setPm_back]
        exact h.linked.rewrite hfree _
      · intro n v' hv'
        rw [setPm_back] at hv'
        by_cases hn : n = j
        · rw [hn, Function.update_self] at hv'
          obtain ⟨p', hp', hpvc', hety'⟩ := backOf_eq_some.mp hv'
          obtain rfl := Option.some_inj.mp hp'
          simp only at hpvc' hety'
          rw [hety'] at hety
          simp only [readIdx, Option.getD_some] at hety
          have hpvc'' := Option.some_inj.mp hpvc'
          omega
        · rw [Function.update_of_ne hn] at hv'
          exact h.keys n v' hv'
      · intro q hq
        rw [setPm_pm]
        by_cases hqj : q = j + 1
        · rw [hqj, Function.update_self]
          rfl
        · rw [Function.update_of_ne hqj]
          exact h.made q hq
      · rw [setPm_pm, Function.update_self]
        rfl
  | none =>
    cases hfirst : findPm s fun e => (e.bind (·.active)).isNone with
    | none =>
      simp only [hexist, hfirst, Option.or_none] at hcreate
      exact absurd hcreate (Option.some_ne_none _).symm
    | some j =>
      have hfound := findPm_some hfirst
      obtain ⟨m, hm, hnone⟩ := hempty j hfound.1 (Option.isNone_iff_eq_none.mp hfound.2.1)
      have hj : m = j := by
        refine (Nat.lt_or_eq_of_le hm).resolve_left fun hlt => ?_
        have hbefore := hfound.2.2 m hlt
        rw [hnone] at hbefore
        exact absurd hbefore (by decide)
      rw [hj] at hnone
      simp only [hexist, hfirst, Option.none_or, hnone, Option.isSome_none, Bool.false_eq_true,
        if_false, Option.some_inj, Prod.mk.injEq] at hcreate
      obtain ⟨rfl, rfl⟩ := hcreate
      have hfree : ∀ v', s.link v' ≠ some j := by
        intro v' hv'
        have hback := h.linked v' j hv'
        rw [NatState.back, hnone] at hback
        exact absurd hback (Option.some_ne_none v').symm
      have hmade : ((j : Int) + 1) ∉ s.made := fun hq => by
        have hpm := h.made _ hq
        rw [hnone] at hpm
        exact absurd hpm (by decide)
      have hpm' : (s.makePm (j + 1)).pm (j + 1) = some {} := Function.update_self ..
      have hback : ∀ e, backOf e = none →
          ((s.makePm (j + 1)).setPm (j + 1) e).back = Function.update s.back j none := by
        intro e he
        have hmake : (s.makePm (j + 1)).back = Function.update s.back j none := setPm_back s j _
        rw [setPm_back, hmake, Function.update_idem, he]
      rw [hpm', Option.map_some]
      refine ⟨⟨?_, ?_, ?_, ?_⟩, ⟨fun _ _ => rfl, fun q hq => ?_⟩, rfl, ?_, hfree⟩
      · show BackLinked s.link ((s.makePm (j + 1)).setPm (j + 1) _).back
        rw [hback _ rfl]
        exact h.linked.rewrite hfree none
      · intro n v' hv'
        change ((s.makePm (j + 1)).setPm (j + 1) _).back n = some v' at hv'
        rw [hback _ rfl] at hv'
        by_cases hn : n = j
        · rw [hn, Function.update_self] at hv'
          exact absurd hv' (Option.some_ne_none v').symm
        · rw [Function.update_of_ne hn] at hv'
          exact h.keys n v' hv'
      · intro q hq
        show (Function.update (Function.update s.pm _ _) (j + 1 : Int) _ q).isSome = true
        rw [Function.update_idem]
        rcases Finset.mem_insert.mp hq with rfl | hq
        · rw [Function.update_self]
          rfl
        · have hne : q ≠ j + 1 := fun he => hmade (he ▸ hq)
          rw [Function.update_of_ne hne]
          exact h.made q hq
      · show s.num + 1 = num + (insert ((j : Int) + 1) s.made).card
        have hnum := h.num_eq
        rw [Finset.card_insert_of_notMem hmade]
        omega
      · show Function.update (Function.update s.pm _ _) (j + 1 : Int) _ q = s.pm q
        rw [Function.update_of_ne hq, Function.update_of_ne hq]
      · show (Function.update (Function.update s.pm _ _) (j + 1 : Int) _ (j + 1 : Int)).isSome = true
        rw [Function.update_self]
        rfl

/-- A virtual server is moved to a port mapping that no other one names. -/
theorem update_move (env : NatEnv) (attrs : VirServer) {s' : NatState} {v : VsKey} {i : Nat}
    (h : NatInv num s') (ht : Touched s s' v.1 (i + 1)) (hv : (s'.vs v.1).isSome = true)
    (hpm : (s'.pm (i + 1)).isSome = true) (hfree' : ∀ v', s'.link v' = some i → v' = v.1)
    (hfree : ∀ v', s.link v' = some i → v' = v.1) :
    NatInv num (moveVirServerNodeToPortMap env v.1 i s') ∧
      NatFrame s (moveVirServerNodeToPortMap env v.1 i s') (.update env v attrs) := by
  obtain ⟨hinv, htouched, hlink⟩ := moveVirServer_spec env h ⟨v.2.1, v.2.2.2.1⟩ hv hpm hfree'
  have hall := ht.trans htouched
  refine ⟨hinv, hall.vs, fun q hq => ?_⟩
  have hqi : q = i + 1 := by
    by_contra hne
    exact hq (hall.pm q hne)
  refine ⟨⟨i, hqi, hlink⟩, ?_⟩
  rintro v' ⟨m, hm, hv'⟩
  obtain rfl : m = i := by omega
  exact hfree v' hv'

theorem virServer_update_spec (h : NatInv num s) (env : NatEnv) (v : VsKey) (attrs : VirServer)
    (hc : NatCond s (.update env v attrs)) : NatInv num (natStep s (.update env v attrs)) ∧
      NatFrame s (natStep s (.update env v attrs)) (.update env v attrs) := by
  have h₁ : NatInv num (s.setVs v.1 (some { attrs with pmEntryIdx := s.link v.1 })) := h.setVs rfl
  have hvs : (s.setVs v.1 (some { attrs with pmEntryIdx := s.link v.1 })).vs v.1 =
      some { attrs with pmEntryIdx := s.link v.1 } := Function.update_self ..
  have hlink₁ : (s.setVs v.1 (some { attrs with pmEntryIdx := s.link v.1 })).link = s.link :=
    setVs_link_same s _ _ rfl
  have ht₁ : ∀ q, Touched s (s.setVs v.1 (some { attrs with pmEntryIdx := s.link v.1 })) v.1 q :=
    touched_setVs v.1 _
  have hstep : natStep s (.update env v attrs) = updatePortMapNodeByIdx env v.1
      (s.setVs v.1 (some { attrs with pmEntryIdx := s.link v.1 })) := rfl
  have hback₁ : (s.setVs v.1 (some { attrs with pmEntryIdx := s.link v.1 })).back = s.back := rfl
  have hpm₁ : (s.setVs v.1 (some { attrs with pmEntryIdx := s.link v.1 })).pm = s.pm := rfl
  rw [hstep]
  generalize s.setVs v.1 (some { attrs with pmEntryIdx := s.link v.1 }) = s₁ at *
  unfold updatePortMapNodeByIdx
  rw [hvs]
  simp only
  have hsome : (s₁.vs v.1).isSome = true := by rw [hvs]; rfl
  by_cases hactive : attrs.active = none
  · rw [if_pos hactive]
    exact ⟨h₁, (ht₁ 0).vs, fun q hq => absurd (congrFun hpm₁ q) hq⟩
  · rw [if_neg hactive]
    cases hlink : s.link v.1 with
    | some n =>
      obtain ⟨p, hp, -⟩ := backOf_eq_some.mp (h.linked v.1 n hlink)
      have hfree : ∀ v', s.link v' = some n → v' = v.1 := fun v' hv' => h.linked.inj hv' hlink
      exact update_move env attrs h₁ (ht₁ _) hsome (by rw [hpm₁, hp]; rfl)
        (by rwa [hlink₁]) hfree
    | none =>
      cases hfind : findPm s₁ (linkTest fun a b => a + 1 == v.1.1 && b + 1 == v.1.2) with
      | some i =>
        have htest := (findPm_some hfind).2.1
        obtain ⟨v', hv', hsame⟩ := linkTest_iff.mp htest
        simp only [Bool.and_eq_true, beq_iff_eq] at hsame
        have hvv : v' = v.1 := Prod.ext (by omega) (by omega)
        have hback : s.back i = some v.1 := by rw [NatState.back, ← hpm₁, hv', hvv]
        obtain ⟨p, hp, -⟩ := backOf_eq_some.mp hback
        have hfree : ∀ v', s.link v' = some i → v' = v.1 := fun v' hv' =>
          Option.some_inj.mp ((h.linked v' i hv').symm.trans hback)
        exact update_move env attrs h₁ (ht₁ _) hsome (by rw [hpm₁, hp]; rfl)
          (by rwa [hlink₁]) hfree
      | none =>
        have hnb : ∀ i < natPortMappingNum, s.back i ≠ some v.1 := by
          intro i hi hback
          have htest := findPm_none.mp hfind i hi
          rw [← Bool.not_eq_true, linkTest_iff] at htest
          refine htest ⟨v.1, ?_, ?_⟩
          · rw [hpm₁]
            exact hback
          · simp
        obtain ⟨hnext, hempty⟩ := hc hactive hlink hnb
        simp only
        cases hcreate : createPortMappingEntry v.1 s₁ with
        | none => exact ⟨h₁, (ht₁ 0).vs, fun q hq => absurd (congrFun hpm₁ q) hq⟩
        | some r =>
          obtain ⟨i, s₂⟩ := r
          obtain ⟨h₂, ht₂, hvs₂, hpm₂, hfree⟩ := create_spec h₁ ⟨v.2.1, v.2.2.2.1⟩
            (by rw [hlink₁, hnext]) (by rwa [hpm₁]) hcreate
          have hlink₂ : s₂.link = s₁.link := by
            funext v'
            rw [NatState.link, hvs₂, NatState.link]
          exact update_move env attrs h₂ ((ht₁ _).trans ht₂) (by rw [hvs₂, hvs]; rfl) hpm₂
            (by rw [hlink₂]; exact fun v' hv' => absurd hv' (hfree v'))
            (by rw [← hlink₁]; exact fun v' hv' => absurd hv' (hfree v'))

/-! ### Changes of a port mapping -/

/-- The rule that is chosen for a port mapping that no virtual server names. -/
theorem find_spec (env : NatEnv) {ip : Int} {n : Nat} (h : NatInv num s) (hip : 0 ≤ ip)
    (hpm : (s.pm (n + 1)).isSome = true) (hfree : ∀ v, s.link v ≠ some n) :
    NatInv num (findVirServerByIPPvcIdx env (n + 1) ip s) ∧
      (∀ q ≠ (n + 1 : Int), (findVirServerByIPPvcIdx env (n + 1) ip s).pm q = s.pm q) ∧
      ∀ v, (findVirServerByIPPvcIdx env (n + 1) ip s).vs v ≠ s.vs v →
        ∃ i : Nat, freeRule s ip = some i ∧ v = (ip + 1, (i + 1 : Int)) ∧
          ((findVirServerByIPPvcIdx env (n + 1) ip s).link v = some n ∨ s.vs v = none) := by
  rw [findVirServerByIPPvcIdx]
  cases hrule : freeRule s ip with
  | none => exact ⟨h, fun _ _ => rfl, fun v hv => absurd rfl hv⟩
  | some i =>
    obtain ⟨hinv, htouched, hres⟩ := movePortMap_spec env h ⟨hip, Int.natCast_nonneg i⟩ hpm
      fun v' hv' => absurd hv' (hfree v')
    refine ⟨hinv, htouched.pm, fun v hv => ⟨i, rfl, ?_⟩⟩
    have hvi : v = (ip + 1, (i + 1 : Int)) := by
      by_contra hne
      exact hv (htouched.vs v hne)
    refine ⟨hvi, ?_⟩
    rcases hres with hlink | hnone | hsame
    · exact .inl (hvi ▸ hlink)
    · exact .inr (hvi ▸ hnone)
    · exact absurd (congrFun (congrArg NatState.vs hsame) v) hv

/-- A virtual server is deleted, whatever it names. -/
theorem NatInv.unlink (h : NatInv num s) (v : Int × Int) : NatInv num (s.setVs v none) where
  linked := by
    rw [setVs_link, setVs_back]
    exact h.linked.unlink v
  keys := h.keys
  made := h.made
  num_eq := h.num_eq

/-- The state after the attributes of a port mapping have changed. -/
theorem NatInv.setPm (h : NatInv num s) {n : Nat} {p : PortMap} (hp : backOf (some p) = s.back n) :
    NatInv num (s.setPm (n + 1) (some p)) where
  linked := by
    rw [setPm_link, setPm_back_same s n _ hp]
    exact h.linked
  keys := by
    rw [setPm_back_same s n _ hp]
    exact h.keys
  made q hq := by
    rw [setPm_pm]
    by_cases hqn : q = n + 1
    · rw [hqn, Function.update_self]
      rfl
    · rw [Function.update_of_ne hqn]
      exact h.made q hq
  num_eq := h.num_eq

/-- A port mapping that no virtual server names is carried over to a free rule. -/
theorem sync_find (env : NatEnv) (attrs : PortMap) {s' : NatState} {q : PmKey} {n : Nat}
    (hq : q.1 = n + 1) {ip : Int} (h : NatInv num s') (hip : 0 ≤ ip)
    (hpm : (s'.pm (n + 1)).isSome = true) (hother : ∀ q' ≠ q.1, s'.pm q' = s.pm q')
    (hfree : ∀ v, s'.link v ≠ some n) (hvs : ∀ v, s'.vs v ≠ s.vs v → Names s v q.1)
    (hrule : ∀ i : Nat, freeRule s' ip = some i → s.link (ip + 1, i + 1) = none ∧
      s'.vs (ip + 1, i + 1) = s.vs (ip + 1, i + 1)) :
    NatInv num (findVirServerByIPPvcIdx env (n + 1) ip s') ∧
      NatFrame s (findVirServerByIPPvcIdx env (n + 1) ip s') (.sync env q attrs) := by
  obtain ⟨hinv, hpms, hvss⟩ := find_spec env h hip hpm hfree
  refine ⟨hinv, fun q' hne => (hpms q' (hq ▸ hne)).trans (hother q' hne), fun v hv => ?_⟩
  by_cases hsame : (findVirServerByIPPvcIdx env (n + 1) ip s').vs v = s'.vs v
  · exact .inl (hvs v (hsame ▸ hv))
  · obtain ⟨i, hi, rfl, hres⟩ := hvss v hsame
    obtain ⟨hlink, hold⟩ := hrule i hi
    refine .inr ⟨hlink, hres.imp (fun hn => ⟨n, hq, hn⟩) fun hn => ?_⟩
    rw [← hold, hn]

theorem sync_spec (h : NatInv num s) (env : NatEnv) (q : PmKey) (attrs : PortMap)
    (hc : NatCond s (.sync env q attrs)) : NatInv num (natStep s (.sync env q attrs)) ∧
      NatFrame s (natStep s (.sync env q attrs)) (.sync env q attrs) := by
  obtain ⟨q, hq⟩ := q
  obtain ⟨n, rfl⟩ : ∃ n : Nat, q = n + 1 := ⟨(q - 1).toNat, by omega⟩
  generalize hp : ({ attrs with
    pvcIndex := (s.pm (n + 1)).bind (·.pvcIndex)
    vsEntryIdx := (s.pm (n + 1)).bind (·.vsEntryIdx) } : PortMap) = p
  have hback : backOf (some p) = s.back n := by rw [← hp]; rfl
  have h₁ := h.setPm hback
  have hpm₁ : (s.setPm (n + 1) (some p)).pm (n + 1) = some p := Function.update_self ..
  have hsome : ((s.setPm (n + 1) (some p)).pm (n + 1)).isSome = true := by rw [hpm₁]; rfl
  have hother : ∀ q' ≠ (n + 1 : Int), (s.setPm (n + 1) (some p)).pm q' = s.pm q' := fun q' hne =>
    Function.update_of_ne hne _ _
  have hstep : natStep s (.sync env ⟨n + 1, hq⟩ attrs) =
      syncVirServer2 env (n + 1) (s.setPm (n + 1) (some p)) := by rw [← hp]; rfl
  have hcomplete : isComplete p = isComplete attrs := by rw [← hp]; rfl
  have hip : interfacePvc env p = interfacePvc env attrs := by rw [← hp]; rfl
  rw [hstep]
  unfold syncVirServer2
  rw [hpm₁]
  simp only [hcomplete, hip]
  have hkeep : NatInv num (s.setPm (n + 1) (some p)) ∧
      NatFrame s (s.setPm (n + 1) (some p)) (.sync env ⟨n + 1, hq⟩ attrs) :=
    ⟨h₁, hother, fun v hv => absurd rfl hv⟩
  by_cases hskip : (n : Int) + 1 < 1 ∨ isComplete attrs = false ∨ interfacePvc env attrs < 0
  · rw [if_pos hskip]
    exact hkeep
  · rw [if_neg hskip]
    have hpos : 0 ≤ interfacePvc env attrs := by
      by_contra hneg
      exact hskip (.inr (.inr (Int.not_le.mp hneg)))
    have hfull : isComplete attrs = true := by
      by_contra hnot
      exact hskip (.inr (.inl (Bool.not_eq_true _ ▸ hnot)))
    have hcond := hc hfull hpos
    have hpvc : (s.pm (n + 1)).bind (·.pvcIndex) = p.pvcIndex := by rw [← hp]
    have hety : (s.pm (n + 1)).bind (·.vsEntryIdx) = p.vsEntryIdx := by rw [← hp]
    simp only [hpvc, hety] at hcond
    have hnames : ∀ v, s.link v = some n → backOf (some p) = some v := fun v hv =>
      hback.trans (h.linked v n hv)
    have hunlinked : backOf (some p) = none → FreeOk s (interfacePvc env attrs) →
        NatInv num (findVirServerByIPPvcIdx env (n + 1) (interfacePvc env attrs)
            (s.setPm (n + 1) (some p))) ∧
          NatFrame s (findVirServerByIPPvcIdx env (n + 1) (interfacePvc env attrs)
            (s.setPm (n + 1) (some p))) (.sync env ⟨n + 1, hq⟩ attrs) := by
      intro hnone hfree
      refine sync_find env attrs rfl h₁ hpos hsome hother (fun v hv => ?_)
        (fun v hv => absurd rfl hv) fun i hi => ⟨hfree i hi, rfl⟩
      have hv' := hnames v hv
      rw [hnone] at hv'
      exact absurd hv' (Option.some_ne_none v).symm
    cases ha : p.pvcIndex with
    | none =>
      simp only [ha] at hcond ⊢
      exact hunlinked (by simp [backOf, ha]) hcond
    | some a =>
      cases hb : p.vsEntryIdx with
      | none =>
        simp only [ha, hb] at hcond ⊢
        exact hunlinked (by simp [backOf, ha, hb]) hcond
      | some b =>
        have hbackp : backOf (some p) = some (a + 1, b + 1) := by simp [backOf, ha, hb]
        have hown : ∀ v, s.link v = some n → v = (a + 1, b + 1) := fun v hv =>
          Option.some_inj.mp ((hnames v hv).symm.trans hbackp)
        simp only [ha, hb] at hcond ⊢
        by_cases hsame : interfacePvc env attrs = a
        · rw [if_pos hsame] at hcond ⊢
          have hkey := h.keys n _ (hback.symm.trans hbackp)
          have hab : 0 ≤ a ∧ 0 ≤ b := by
            constructor
            · omega
            · simp only at hkey
              omega
          rw [hsame]
          obtain ⟨hinv, htouched, hres⟩ := movePortMap_spec env h₁ hab hsome hown
          refine ⟨hinv, fun q' hne => (htouched.pm q' hne).trans (hother q' hne), fun v hv => ?_⟩
          have hvv : v = (a + 1, b + 1) := by
            by_contra hne
            exact hv (htouched.vs v hne)
          rw [hvv] at hv ⊢
          rcases hcond with hnone | hnames
          · refine .inr ⟨hnone, ?_⟩
            rcases hres with hlink | hvs | hres
            · exact .inl ⟨n, rfl, hlink⟩
            · exact .inr hvs
            · rw [hres] at hv
              exact absurd rfl hv
          · exact .inl hnames
        · rw [if_neg hsame] at hcond ⊢
          have hvs₂ : ∀ v ≠ (a + 1, b + 1),
              ((s.setPm (n + 1) (some p)).setVs (a + 1, b + 1) none).vs v = s.vs v := fun v hne =>
            Function.update_of_ne hne _ _
          have hne : ∀ k : Int, (interfacePvc env attrs + 1, k) ≠ (a + 1, b + 1) := by
            intro k he
            have hfst := congrArg Prod.fst he
            simp only at hfst
            omega
          refine sync_find env attrs rfl (h₁.unlink (a + 1, b + 1)) hpos hsome hother
            (fun v hv => ?_) (fun v hv => ?_) fun i hi => ⟨?_, hvs₂ _ (hne _)⟩
          · rw [setVs_link] at hv
            by_cases hvv : v = (a + 1, b + 1)
            · rw [hvv, Function.update_self] at hv
              exact absurd hv (Option.some_ne_none n).symm
            · rw [Function.update_of_ne hvv] at hv
              exact hvv (hown v hv)
          · have hvv : v = (a + 1, b + 1) := by
              by_contra hne
              exact hv (hvs₂ v hne)
            rw [hvv] at hv ⊢
            refine hcond.1.resolve_left fun hnone => hv ?_
            rw [hnone]
            exact Function.update_self ..
          · refine hcond.2 i ?_
            rw [← hi, freeRule, freeRule]
            simp only [hvs₂ _ (hne _)]

/-! ## Runs -/

theorem natStep_spec (h : NatInv num s) {e : NatEvent} (hc : NatCond s e) :
    NatInv num (natStep s e) ∧ NatFrame s (natStep s e) e := by
  cases e with
  | update env v attrs => exact virServer_update_spec h env v attrs hc
  | remove v => exact remove_spec h v hc
  | sync env q attrs => exact sync_spec h env q attrs hc
  | delete q => exact delete_spec h q hc

/-- **In a run from tables without links whose events meet the condition the links are inverse, `Num`
counts the port mappings that updates have created, and no event reaches beyond its pair.** -/
theorem portMap_run_right {s : NatState} (hs : Unlinked s) {es : List NatEvent}
    (h : RunOk natStep NatCond s es) :
    (∀ pre, pre <+: es → NatRight s.num (pre.foldl natStep s)) ∧
      ∀ pre e, pre ++ [e] <+: es →
        NatFrame (pre.foldl natStep s) (natStep (pre.foldl natStep s) e) e := by
  have hstep : ∀ s' e, NatInv s.num s' → NatCond s' e → NatInv s.num (natStep s' e) :=
    fun s' e hinv hc => (natStep_spec hinv hc).1
  have hinv : ∀ pre, pre <+: es → NatInv s.num (pre.foldl natStep s) := fun pre hp =>
    RunOk.inv_prefix hstep h (natInv_of_unlinked hs) hp
  refine ⟨fun pre hp => (hinv pre hp).right, fun pre e hp => ?_⟩
  exact (natStep_spec (hinv pre ((List.prefix_append pre [e]).trans hp)) (h.at_prefix hp)).2

/-! ## The next virtual server -/

/-- No tables yet. -/
def noTables : NatState := ⟨fun _ => none, fun _ => none, 0, ∅⟩

/-- No WAN yet. -/
def noWans : NatEnv := ⟨fun _ => none, fun _ => none, fun _ _ h => absurd h (Option.some_ne_none _).symm⟩

theorem unlinked_noTables : Unlinked noTables :=
  ⟨fun _ => rfl, fun _ _ h => absurd h (Option.some_ne_none _).symm, rfl⟩

/-- A virtual server is switched on. -/
def switchOn (v : VsKey) : NatEvent := .update noWans v { active := some "Yes".toList }

/-- Two virtual servers are switched on, the one of the first WAN first. -/
def twoServers : List NatEvent := [switchOn ⟨(1, 1), by decide⟩, switchOn ⟨(2, 2), by decide⟩]

/-- Each virtual server gets a port mapping of its own. -/
theorem portMap_run_first : (∀ pre, pre <+: twoServers → NatRight 0 (pre.foldl natStep noTables)) ∧
    (∀ pre e, pre ++ [e] <+: twoServers →
      NatFrame (pre.foldl natStep noTables) (natStep (pre.foldl natStep noTables) e) e) ∧
    (twoServers.foldl natStep noTables).link (1, 1) = some 0 ∧
    (twoServers.foldl natStep noTables).link (2, 2) = some 1 := by
  have hfirst : NatCond noTables (switchOn ⟨(1, 1), by decide⟩) := by
    intro _ _ _
    exact ⟨rfl, fun i _ _ => ⟨i, Nat.le_refl i, rfl⟩⟩
  have hsecond : NatCond (natStep noTables (switchOn ⟨(1, 1), by decide⟩))
      (switchOn ⟨(2, 2), by decide⟩) := by
    intro _ _ _
    refine ⟨by decide +kernel, fun i _ hnone => ⟨1, Nat.one_le_iff_ne_zero.mpr ?_, by decide +kernel⟩⟩
    -- The first port mapping is in use.
    rintro rfl
    exact absurd hnone (by decide +kernel)
  have hrun : RunOk natStep NatCond noTables twoServers := ⟨hfirst, hsecond, trivial⟩
  obtain ⟨hright, hframe⟩ := portMap_run_right unlinked_noTables hrun
  exact ⟨hright, hframe, by decide +kernel, by decide +kernel⟩

/-- The tables after virtual servers (2, 2) and (1, 1) are switched on. -/
def takenTables : NatState :=
  [switchOn ⟨(2, 2), by decide⟩, switchOn ⟨(1, 1), by decide⟩].foldl natStep noTables

theorem not_natRight {v : Int × Int} {n : Nat} (hlink : s.link v = some n)
    (hpvc : (s.pm (n + 1)).bind (·.pvcIndex) ≠ some (v.1 - 1)) : ¬ NatRight num s := by
  intro h
  obtain ⟨p, hp, hp1, -⟩ := h.inverse v n hlink
  rw [hp, Option.bind_some, hp1] at hpvc
  exact hpvc rfl

/-- Virtual server (2, 2) has port mapping 1, and virtual server (1, 1) takes it for its own. -/
theorem portMap_wrong : Unlinked noTables ∧ ¬ NatRight 0
    ([switchOn ⟨(2, 2), by decide⟩, switchOn ⟨(1, 1), by decide⟩].foldl natStep noTables) := by
  have hlink : takenTables.link (2, 2) = some 0 := by decide +kernel
  have hpvc : (takenTables.pm (((0 : Nat) : Int) + 1)).bind (·.pvcIndex) ≠ some (2 - 1) := by
    decide +kernel
  have hwrong : ¬ NatRight 0 takenTables := not_natRight hlink hpvc
  exact ⟨unlinked_noTables, hwrong⟩

end OnuFirmware.Tr181
