import OnuFirmware.Clib.Scan
import OnuFirmware.Lib.Visit
import OnuFirmware.Tr181.UpLayer
import Mathlib.Data.Finite.Prod

/-!
# The interface stack (`cfg_type_InterfaceStack.c`)

The stack table lists each pair of an interface and the one below it. `updateInterfaceStack` clears
the first entries and then follows `LowerLayers` down from every IP interface; one function for each
kind of interface writes an entry and calls the function of the kind that the text names. Bridge
port 1 has a lower layer for every other port. Nothing stops the functions at a cycle of bridge
ports, and the entries behind the ones that are cleared stay.
-/

namespace OnuFirmware.Tr181

open Clib Cfg Lib Relation

/-! ## The configuration -/

/-- The kinds of interfaces that the stack is made of. -/
inductive Kind
  | ip
  | ppp
  | vlanT
  | link
  | bridgePort
  | wifiSsid
deriving Repr, DecidableEq

/-- The path of an interface up to its number. -/
def Kind.path : Kind → Str
  | .ip => Layer.ip.path
  | .ppp => Layer.ppp.path
  | .vlanT => Layer.vlanT.path
  | .link => Layer.link.path
  | .bridgePort => "Device.Bridging.Bridge.1.Port.".toList
  | .wifiSsid => "Device.WiFi.SSID.".toList

/-- `TR181_ETHER_INTERFACE`. -/
def etherInterface : Str := "Device.Ethernet.Interface.".toList

/-- The path of the entry with an index. It fits the 256 bytes that it is printed into. -/
def Kind.interface (k : Kind) (index : Int) : Str := k.path ++ fmtInt (index + 1)

/-- The kinds whose path the function of a kind looks for in `lowerlayer`, in this order. A lower
layer of another kind ends the chain. -/
def Kind.next : Kind → List Kind
  | .ip => [.ppp, .vlanT, .link]
  | .ppp => [.vlanT, .link]
  | .vlanT => [.link]
  | .link => [.bridgePort]
  | .bridgePort => [.bridgePort, .wifiSsid]
  | .wifiSsid => []

/-- The kind that `lowerlayer` is followed to. -/
def Kind.nextOf (k : Kind) (lowerlayer : Str) : Option Kind :=
  k.next.find? fun k' => hasStr lowerlayer k'.path

/-- The attributes of the interfaces, by the number of the entry, and two sizes. No entry has a
number that `%d` does not read as it is. -/
structure Interfaces where
  attr : Kind → Int → Str → Option Str
  /-- `IP_INTERFACE_NUM`. -/
  ipInterfaceNum : Nat
  /-- `BRIDGE_PORT_NUM`. -/
  bridgePortNum : Nat
  number : ∀ k n name, attr k n name ≠ none → 1 ≤ n ∧ n < intMax

variable (A : Interfaces)

/-- The attributes that name the lower layers of an entry: bridge port 1 has one for every port. -/
def Interfaces.lowerAttrs (k : Kind) (index : Int) : List Str :=
  if k = .bridgePort ∧ index = 0 then
    (List.range A.bridgePortNum).map fun i => lowerLayersAttr ++ fmtNat i
  else [lowerLayersAttr]

/-- The texts that the function of the kind reads into `lowerlayer`, one after the other. -/
def Interfaces.lowers (k : Kind) (index : Int) : List Str :=
  (A.lowerAttrs k index).map fun name => attrText (A.attr k (index + 1) name) 256 []

/-! ## The functions -/

/-- The table: `high` and `lower` of entry `i + 1` in slot `i`, and `Num`. -/
structure Stack where
  slot : Nat → Option (Str × Str)
  num : Str

/-- `INTERFACE_STACK_NUM`. -/
def interfaceStackNum : Nat := 100

/-- `clearTR181InterfaceNode` on the stack. -/
def Stack.clear (s : Stack) : Stack where
  slot i := if i < interfaceStackNum then none else s.slot i
  num := "0".toList

/-- The entry behind `interfaceStackIdx` is made, if there is none, and set. There is no entry with
number 0, so this fails at -1. -/
def Stack.put (s : Stack) (interfaceStackIdx : Int) (high lower : Str) : Stack :=
  if 0 ≤ interfaceStackIdx then
    { s with slot := Function.update s.slot interfaceStackIdx.toNat (some (high, lower)) }
  else s

/-- The variables of a function. -/
structure StackVars where
  stack : Stack
  entryIdx : Int
  idx : Int

/-- What a function does with one `lowerlayer`. If there is no number in it, `idx` stays. -/
def stackRound (call : Kind → Stack → Int → Int → Option (Stack × Int)) (k : Kind) (index : Int)
    (v : StackVars) (lowerlayer : Str) : Option StackVars :=
  if lowerlayer = [] then some v
  else
    let s := v.stack.put v.entryIdx (k.interface index) lowerlayer
    match k.nextOf lowerlayer with
    | none => some ⟨s, v.entryIdx + 1, v.idx⟩
    | some k' =>
      let idx := (scanD (lowerlayer.drop k'.path.length)).elim v.idx (·.1)
      (call k' s (v.entryIdx + 1) (idx - 1)).map fun r => ⟨r.1, r.2, idx⟩

/-- The function of a kind: the stack and the next `interfaceStackIdx`. The fuel bounds the depth of
the calls. -/
def setStackNode : Nat → Kind → Stack → Int → Int → Option (Stack × Int)
  | 0, _, _, _, _ => none
  | fuel + 1, k, s, interfaceStackIdx, index =>
    if index < 0 then some (s, -1)
    else
      ((A.lowers k index).foldlM (stackRound (setStackNode fuel) k index)
        ⟨s, interfaceStackIdx, 0⟩).map fun v => (v.stack, v.entryIdx)

/-- `setWifiSSIDIFStackNode`. -/
def setWifiSSIDIFStackNode (fuel : Nat) := setStackNode A fuel .wifiSsid

/-- `setBridgePortIFStackNode`. -/
def setBridgePortIFStackNode (fuel : Nat) := setStackNode A fuel .bridgePort

/-- `setEtherLinkInterfaceStackNode`. -/
def setEtherLinkInterfaceStackNode (fuel : Nat) := setStackNode A fuel .link

/-- `setEtherVTInterfaceStackNode`. -/
def setEtherVTInterfaceStackNode (fuel : Nat) := setStackNode A fuel .vlanT

/-- `setPPPInterfaceStackNode`. -/
def setPPPInterfaceStackNode (fuel : Nat) := setStackNode A fuel .ppp

/-- `setIPInterfaceStackNode`. -/
def setIPInterfaceStackNode (fuel : Nat) := setStackNode A fuel .ip

/-- The loop of `updateInterfaceStack` over indexes of IP interfaces. -/
def ipRounds (fuel : Nat) (r : Stack × Int) (indexes : List Nat) : Option (Stack × Int) :=
  indexes.foldlM (fun r (i : Nat) => setIPInterfaceStackNode A fuel r.1 r.2 i) r

/-- `updateInterfaceStack`. -/
def updateInterfaceStack (fuel : Nat) (s : Stack) : Option (Stack × Int) :=
  (ipRounds A fuel (s.clear, 0) (List.range A.ipInterfaceNum)).map fun r =>
    ({ r.1 with num := snprintf 20 (fmtInt r.2) }, r.2)

/-- `updateInterfaceStack` ends and leaves the stack `s'`. -/
def Updates (s s' : Stack) : Prop := ∃ fuel r, updateInterfaceStack A fuel s = some (s', r)

/-! ## The calls -/

/-- The calls for a list of texts, with `idx` from before. -/
def roundCalls (k : Kind) : Int → List Str → List (Kind × Int)
  | _, [] => []
  | idx, lowerlayer :: lowers =>
    if lowerlayer = [] then roundCalls k idx lowers
    else
      match k.nextOf lowerlayer with
      | none => roundCalls k idx lowers
      | some k' =>
        let idx := (scanD (lowerlayer.drop k'.path.length)).elim idx (·.1)
        (k', idx - 1) :: roundCalls k idx lowers

/-- The function of `a` calls the function of `b`: kinds with an index. -/
def StackCall (b a : Kind × Int) : Prop := 0 ≤ a.2 ∧ b ∈ roundCalls a.1 0 (A.lowers a.1 a.2)

variable {A : Interfaces}

section Rounds

variable {call call' : Kind → Stack → Int → Int → Option (Stack × Int)} {k : Kind} {index : Int}
  {v w : StackVars} {lowers : List Str}

/-- What the calls return is enough for the rounds. -/
theorem rounds_mono (h : ∀ k s i x r, call k s i x = some r → call' k s i x = some r)
    (hv : lowers.foldlM (stackRound call k index) v = some w) :
    lowers.foldlM (stackRound call' k index) v = some w := by
  induction lowers generalizing v with
  | nil => exact hv
  | cons t lowers ih =>
    rw [List.foldlM_cons, Option.bind_eq_bind, Option.bind_eq_some_iff] at hv ⊢
    obtain ⟨u, hu, hw⟩ := hv
    refine ⟨u, ?_, ih hw⟩
    rw [stackRound] at hu ⊢
    split
    · next ht => rwa [if_pos ht] at hu
    · next ht =>
      rw [if_neg ht] at hu
      cases hk : k.nextOf t with
      | none => rwa [hk] at hu
      | some k' =>
        rw [hk] at hu
        obtain ⟨r, hr, hru⟩ := Option.map_eq_some_iff.mp hu
        exact Option.map_eq_some_iff.mpr ⟨r, h _ _ _ _ _ hr, hru⟩

theorem setStackNode_mono : ∀ {n : Nat} {k : Kind} {s : Stack} {i x : Int} {r : Stack × Int},
    setStackNode A n k s i x = some r → setStackNode A (n + 1) k s i x = some r
  | 0, _, _, _, _, _, h => absurd h.symm (Option.some_ne_none _)
  | n + 1, k, s, i, x, r, h => by
    rw [setStackNode] at h ⊢
    split
    · next hx => rwa [if_pos hx] at h
    · next hx =>
      rw [if_neg hx] at h
      obtain ⟨v, hv, hvr⟩ := Option.map_eq_some_iff.mp h
      exact Option.map_eq_some_iff.mpr
        ⟨v, rounds_mono (fun _ _ _ _ _ => setStackNode_mono) hv, hvr⟩

theorem setStackNode_le {m n : Nat} (hmn : m ≤ n) {s : Stack} {i x : Int} {r : Stack × Int}
    (h : setStackNode A m k s i x = some r) : setStackNode A n k s i x = some r := by
  induction hmn with
  | refl => exact h
  | step _ ih => exact setStackNode_mono ih

/-- If the rounds end, the calls have returned. -/
theorem calls_of_rounds (hv : lowers.foldlM (stackRound call k index) v = some w) :
    ∀ b ∈ roundCalls k v.idx lowers, ∃ s i r, call b.1 s i b.2 = some r := by
  induction lowers generalizing v with
  | nil => exact fun _ hb => absurd hb List.not_mem_nil
  | cons t lowers ih =>
    rw [List.foldlM_cons, Option.bind_eq_bind, Option.bind_eq_some_iff] at hv
    obtain ⟨u, hu, hw⟩ := hv
    rw [stackRound] at hu
    rw [roundCalls]
    split
    · next ht =>
      rw [if_pos ht] at hu
      exact Option.some.inj hu ▸ ih hw
    · next ht =>
      rw [if_neg ht] at hu
      cases hk : k.nextOf t with
      | none =>
        rw [hk] at hu
        rw [← Option.some.inj hu] at hw
        have hrest := ih hw
        exact hrest
      | some k' =>
        rw [hk] at hu
        obtain ⟨r, hr, rfl⟩ := Option.map_eq_some_iff.mp hu
        exact List.forall_mem_cons.mpr ⟨⟨_, _, r, hr⟩, ih hw⟩

/-- The rounds end if the calls do. -/
theorem rounds_of_calls
    (h : ∀ b ∈ roundCalls k v.idx lowers, ∀ s i, ∃ r, call b.1 s i b.2 = some r) :
    ∃ w, lowers.foldlM (stackRound call k index) v = some w := by
  induction lowers generalizing v with
  | nil => exact ⟨v, rfl⟩
  | cons t lowers ih =>
    rw [roundCalls] at h
    rw [List.foldlM_cons, stackRound]
    split
    · next ht =>
      rw [if_pos ht] at h
      exact ih h
    · next ht =>
      rw [if_neg ht] at h
      cases hk : k.nextOf t with
      | none =>
        rw [hk] at h
        exact @ih ⟨_, _, v.idx⟩ h
      | some k' =>
        rw [hk] at h
        obtain ⟨hcall, hrest⟩ := List.forall_mem_cons.mp h
        obtain ⟨r, hr⟩ := hcall (v.stack.put v.entryIdx (k.interface index) t) (v.entryIdx + 1)
        simp only [hr]
        exact @ih ⟨r.1, r.2, _⟩ hrest

end Rounds

/-- Enough fuel for each of finitely many calls. -/
theorem exists_fuel {l : List (Kind × Int)}
    (h : ∀ b ∈ l, ∃ n, ∀ s i, ∃ r, setStackNode A n b.1 s i b.2 = some r) :
    ∃ n, ∀ b ∈ l, ∀ s i, ∃ r, setStackNode A n b.1 s i b.2 = some r := by
  induction l with
  | nil => exact ⟨0, fun _ hb => absurd hb List.not_mem_nil⟩
  | cons b l ih =>
    obtain ⟨hb, hl⟩ := List.forall_mem_cons.mp h
    obtain ⟨n, hn⟩ := hb
    obtain ⟨m, hm⟩ := ih hl
    refine ⟨max n m, List.forall_mem_cons.mpr ⟨fun s i => ?_, fun c hc s i => ?_⟩⟩
    · obtain ⟨r, hr⟩ := hn s i
      exact ⟨r, setStackNode_le (Nat.le_max_left n m) hr⟩
    · obtain ⟨r, hr⟩ := hm c hc s i
      exact ⟨r, setStackNode_le (Nat.le_max_right n m) hr⟩

theorem acc_of_setStackNode : ∀ {n : Nat} {k : Kind} {s : Stack} {i x : Int} {r : Stack × Int},
    setStackNode A n k s i x = some r → Acc (StackCall A) (k, x)
  | 0, _, _, _, _, _, h => absurd h.symm (Option.some_ne_none _)
  | n + 1, k, s, i, x, r, h => by
    refine ⟨(k, x), fun b hb => ?_⟩
    rw [setStackNode, if_neg (Int.not_lt.mpr hb.1)] at h
    obtain ⟨v, hv, -⟩ := Option.map_eq_some_iff.mp h
    obtain ⟨s', i', r', hr⟩ := calls_of_rounds hv b hb.2
    exact acc_of_setStackNode hr

theorem setStackNode_of_acc {a : Kind × Int} (h : Acc (StackCall A) a) :
    ∃ n, ∀ s i, ∃ r, setStackNode A n a.1 s i a.2 = some r := by
  induction h with
  | intro a _ ih =>
    by_cases hx : a.2 < 0
    · exact ⟨1, fun s i => ⟨(s, -1), by rw [setStackNode, if_pos hx]⟩⟩
    · obtain ⟨n, hn⟩ := exists_fuel (l := roundCalls a.1 0 (A.lowers a.1 a.2))
        fun b hb => ih b ⟨Int.not_lt.mp hx, hb⟩
      refine ⟨n + 1, fun s i => ?_⟩
      obtain ⟨w, hw⟩ := @rounds_of_calls (setStackNode A n) a.1 a.2 ⟨s, i, 0⟩ _ hn
      exact ⟨(w.stack, w.entryIdx), by rw [setStackNode, if_neg hx, hw]; rfl⟩

theorem ipRounds_acc {n : Nat} {l : List Nat} {r r' : Stack × Int}
    (h : ipRounds A n r l = some r') : ∀ i ∈ l, Acc (StackCall A) (.ip, (i : Int)) := by
  induction l generalizing r with
  | nil => exact fun _ hi => absurd hi List.not_mem_nil
  | cons j l ih =>
    rw [ipRounds, List.foldlM_cons, Option.bind_eq_bind, Option.bind_eq_some_iff] at h
    obtain ⟨u, hu, hw⟩ := h
    exact List.forall_mem_cons.mpr ⟨acc_of_setStackNode hu, ih hw⟩

theorem ipRounds_le {m n : Nat} (hmn : m ≤ n) {l : List Nat} {r r' : Stack × Int}
    (h : ipRounds A m r l = some r') : ipRounds A n r l = some r' := by
  induction l generalizing r with
  | nil => exact h
  | cons j l ih =>
    rw [ipRounds, List.foldlM_cons, Option.bind_eq_bind, Option.bind_eq_some_iff] at h ⊢
    obtain ⟨u, hu, hw⟩ := h
    exact ⟨u, setStackNode_le hmn hu, ih hw⟩

theorem ipRounds_of_calls {n : Nat} {l : List Nat} {r : Stack × Int}
    (h : ∀ b ∈ l.map fun i : Nat => (Kind.ip, (i : Int)),
      ∀ s x, ∃ r, setStackNode A n b.1 s x b.2 = some r) : ∃ r', ipRounds A n r l = some r' := by
  induction l generalizing r with
  | nil => exact ⟨r, rfl⟩
  | cons j l ih =>
    obtain ⟨hj, hl⟩ := List.forall_mem_cons.mp h
    obtain ⟨u, hu⟩ := hj r.1 r.2
    obtain ⟨r', hr⟩ := @ih u hl
    refine ⟨r', ?_⟩
    rw [ipRounds, List.foldlM_cons, setIPInterfaceStackNode, hu]
    exact hr

/-- **The update ends exactly if the calls from every IP interface do.** -/
theorem updates_iff_acc {s : Stack} :
    (∃ s', Updates A s s') ↔ ∀ i < A.ipInterfaceNum, Acc (StackCall A) (.ip, (i : Int)) := by
  constructor
  · rintro ⟨s', n, r, h⟩ i hi
    obtain ⟨r', hr, -⟩ := Option.map_eq_some_iff.mp h
    exact ipRounds_acc hr i (List.mem_range.mpr hi)
  · intro h
    obtain ⟨n, hn⟩ := exists_fuel
        (l := (List.range A.ipInterfaceNum).map fun i : Nat => (Kind.ip, (i : Int))) fun b hb => by
      obtain ⟨i, hi, rfl⟩ := List.mem_map.mp hb
      exact setStackNode_of_acc (h i (List.mem_range.mp hi))
    obtain ⟨r, hr⟩ := @ipRounds_of_calls A n _ (s.clear, 0) hn
    exact ⟨_, n, r.2, Option.map_eq_some_iff.mpr ⟨r, hr, rfl⟩⟩

/-! ## Finitely many entries -/

/-- An interface is called on from an IP interface. -/
def Called (A : Interfaces) (b : Kind × Int) : Prop :=
  ∃ i < A.ipInterfaceNum, ReflTransGen (StackCall A) b (.ip, (i : Int))

theorem roundCalls_nil {k : Kind} {idx : Int} {l : List Str} (h : ∀ t ∈ l, t = []) :
    roundCalls k idx l = [] := by
  induction l with
  | nil => rfl
  | cons t l ih =>
    obtain ⟨ht, hl⟩ := List.forall_mem_cons.mp h
    rw [roundCalls, if_pos ht, ih hl]

/-- Only an entry that has an attribute is called from. -/
theorem number_of_call {a b : Kind × Int} (h : StackCall A b a) : 0 ≤ a.2 ∧ a.2 < intMax := by
  refine ⟨h.1, ?_⟩
  by_contra hge
  have hnil : roundCalls a.1 0 (A.lowers a.1 a.2) = [] := roundCalls_nil fun t ht => by
    obtain ⟨name, -, rfl⟩ := List.mem_map.mp ht
    have hnone : A.attr a.1 (a.2 + 1) name = none := by
      by_contra hne
      have hnumber := A.number _ _ _ hne
      omega
    rw [hnone]
    rfl
  exact absurd (hnil ▸ h.2) List.not_mem_nil

theorem finite_index (n : Int) : {x : Kind × Int | 0 ≤ x.2 ∧ x.2 < n}.Finite := by
  have hkind : (Set.univ : Set Kind).Finite :=
    (Set.finite_mem_finset {.ip, .ppp, .vlanT, .link, .bridgePort, .wifiSsid}).subset
      fun k _ => by cases k <;> decide
  exact (hkind.prod (Set.finite_Ico 0 n)).subset fun x hx => ⟨trivial, hx⟩

theorem finite_calls (a : Kind × Int) :
    {x | ReflTransGen (StackCall A) x a ∧ ∃ b, StackCall A b x}.Finite :=
  (finite_index intMax).subset fun _ hx => number_of_call hx.2.choose_spec

/-- **The update ends exactly if no interface that is called on leads back to itself.** -/
theorem updates_iff {s : Stack} :
    (∃ s', Updates A s s') ↔ ∀ b, Called A b → ¬ TransGen (StackCall A) b b := by
  rw [updates_iff_acc]
  constructor
  · rintro h b ⟨i, hi, hb⟩
    exact (acc_iff_no_cycle (finite_calls _)).mp (h i hi) b hb
  · intro h i hi
    exact (acc_iff_no_cycle (finite_calls _)).mpr fun b hb => h b ⟨i, hi, hb⟩

end OnuFirmware.Tr181
