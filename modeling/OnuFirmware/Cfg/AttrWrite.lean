import OnuFirmware.Cfg.Obj
import OnuFirmware.Lib.Overwrite

/-!
# Runs of attribute writes

A boot writes attributes of objects it has just loaded. Such a run of calls is a list of writes to
addresses, found once and for all at the start (`setAll_eq`), since a write moves no object. The run
leaves the tree as it is exactly if the last write to each attribute finds its value there
(`applyAll_eq_self_iff`).
-/

namespace OnuFirmware.Cfg

open Lib Clib

/-! ## Attributes of one object -/

theorem cfgXmlSetAttr_set_self (attrs : List (Str × Str)) (name val val' : Str) :
    cfgXmlSetAttr (cfgXmlSetAttr attrs name val) name val' = cfgXmlSetAttr attrs name val' := by
  induction attrs with
  | nil => simp [cfgXmlSetAttr]
  | cons a rest ih =>
    by_cases ha : a.1 = name
    · simp [cfgXmlSetAttr, ha]
    · simp [cfgXmlSetAttr, ha, ih]

theorem cfgXmlGetAttr_cons (a : Str × Str) (rest : List (Str × Str)) (name : Str) :
    cfgXmlGetAttr (a :: rest) name = if a.1 = name then some a.2 else cfgXmlGetAttr rest name := by
  unfold cfgXmlGetAttr
  rw [List.find?_cons]
  by_cases ha : a.1 = name
  · simp [ha]
  · simp [ha]

/-- Setting changes nothing exactly if the value is there. -/
theorem cfgXmlSetAttr_eq_self_iff {attrs : List (Str × Str)} {name val : Str} :
    cfgXmlSetAttr attrs name val = attrs ↔ cfgXmlGetAttr attrs name = some val := by
  induction attrs with
  | nil => simp [cfgXmlSetAttr, cfgXmlGetAttr]
  | cons a rest ih =>
    rw [cfgXmlSetAttr, cfgXmlGetAttr_cons]
    by_cases ha : a.1 = name
    · rw [if_pos ha, if_pos ha, List.cons.injEq, Option.some.injEq]
      exact ⟨fun h => h.1 ▸ rfl, fun h => ⟨Prod.ext ha.symm h.symm, rfl⟩⟩
    · rw [if_neg ha, if_neg ha, List.cons.injEq]
      exact ⟨fun h => ih.mp h.2, fun h => ⟨rfl, ih.mpr h⟩⟩

/-- Two attributes that are there already can be set in either order. -/
theorem cfgXmlSetAttr_comm {attrs : List (Str × Str)} {name other : Str} (val val' : Str)
    (hne : name ≠ other) (hname : (cfgXmlGetAttr attrs name).isSome)
    (hother : (cfgXmlGetAttr attrs other).isSome) :
    cfgXmlSetAttr (cfgXmlSetAttr attrs name val) other val' =
      cfgXmlSetAttr (cfgXmlSetAttr attrs other val') name val := by
  induction attrs with
  | nil => simp [cfgXmlGetAttr] at hname
  | cons a rest ih =>
    rw [cfgXmlGetAttr_cons] at hname hother
    by_cases ha : a.1 = name
    · have hb : ¬ a.1 = other := fun hb => hne (ha.symm.trans hb)
      simp [cfgXmlSetAttr, ha, hne]
    · by_cases hb : a.1 = other
      · simp [cfgXmlSetAttr, hb, hne.symm]
      · rw [if_neg ha] at hname
        rw [if_neg hb] at hother
        simp [cfgXmlSetAttr, ha, hb, ih hname hother]

theorem isSome_cfgXmlGetAttr_set {attrs : List (Str × Str)} {name : Str} (other val : Str)
    (h : (cfgXmlGetAttr attrs name).isSome) :
    (cfgXmlGetAttr (cfgXmlSetAttr attrs other val) name).isSome := by
  by_cases hne : name = other
  · rw [hne, cfgXmlGetAttr_set_self]
    rfl
  · rwa [cfgXmlGetAttr_set_of_ne attrs val hne]

/-! ## Writes -/

/-- A value for an attribute of the objects at an address. -/
structure AttrWrite where
  addr : Nat
  attr : Str
  value : Str
deriving Repr, DecidableEq

namespace AttrWrite

def place (w : AttrWrite) : Nat × Str := (w.addr, w.attr)

def apply (w : AttrWrite) (st : ObjState) : ObjState :=
  st.setPriv w.addr fun attrs => cfgXmlSetAttr attrs w.attr w.value

/-- What the write does to one object. -/
def edit (w : AttrWrite) (o : ObjInfo) : ObjInfo :=
  if o.addr == w.addr then { o with priv := cfgXmlSetAttr o.priv w.attr w.value } else o

/-- The value is there already. -/
def Held (w : AttrWrite) (st : ObjState) : Prop :=
  ∀ o ∈ st.tree.values, o.addr = w.addr → cfgXmlGetAttr o.priv w.attr = some w.value

end AttrWrite

/-- The objects at an address have the attribute. -/
def HasAttr (place : Nat × Str) (st : ObjState) : Prop :=
  ∀ o ∈ st.tree.values, o.addr = place.1 → (cfgXmlGetAttr o.priv place.2).isSome

/-- One write after the other. -/
def applyAll (ws : List AttrWrite) (st : ObjState) : ObjState :=
  ws.foldl (fun st w => w.apply st) st

section

variable {w v : AttrWrite} {st : ObjState}

theorem AttrWrite.apply_eq (w : AttrWrite) (st : ObjState) :
    w.apply st = { st with tree := st.tree.map w.edit } := by
  unfold AttrWrite.apply ObjState.setPriv
  rw [Lcrs.mapVal_eq_map]
  rfl

@[simp] theorem AttrWrite.edit_addr (w : AttrWrite) (o : ObjInfo) : (w.edit o).addr = o.addr := by
  unfold AttrWrite.edit
  split <;> rfl

@[simp] theorem AttrWrite.edit_id (w : AttrWrite) (o : ObjInfo) : (w.edit o).id = o.id := by
  unfold AttrWrite.edit
  split <;> rfl

theorem AttrWrite.edit_of_addr {o : ObjInfo} (h : o.addr = w.addr) :
    w.edit o = { o with priv := cfgXmlSetAttr o.priv w.attr w.value } := by
  rw [AttrWrite.edit, if_pos (beq_iff_eq.mpr h)]

theorem AttrWrite.edit_of_ne {o : ObjInfo} (h : o.addr ≠ w.addr) : w.edit o = o := by
  rw [AttrWrite.edit, if_neg (by rwa [beq_iff_eq])]

theorem AttrWrite.edit_edit_of_addr {o : ObjInfo} (hv : o.addr = v.addr) (hw : o.addr = w.addr) :
    w.edit (v.edit o) =
      { o with priv := cfgXmlSetAttr (cfgXmlSetAttr o.priv v.attr v.value) w.attr w.value } := by
  rw [AttrWrite.edit_of_addr ((v.edit_addr o).trans hw), AttrWrite.edit_of_addr hv]

theorem AttrWrite.mem_apply {o : ObjInfo} :
    o ∈ (w.apply st).tree.values ↔ ∃ p ∈ st.tree.values, w.edit p = o := by
  rw [AttrWrite.apply_eq, Lcrs.values_map, List.mem_map]

/-- A write changes nothing exactly if its value is there. -/
theorem AttrWrite.apply_eq_self_iff : w.apply st = st ↔ w.Held st := by
  rw [AttrWrite.apply_eq, show ({ st with tree := st.tree.map w.edit } = st) ↔
    st.tree.map w.edit = st.tree from ⟨congrArg ObjState.tree, fun h => by rw [h]⟩,
    Lcrs.map_eq_self_iff]
  refine forall₂_congr fun o _ => ?_
  by_cases ho : o.addr = w.addr
  · rw [AttrWrite.edit_of_addr ho, ← cfgXmlSetAttr_eq_self_iff]
    exact ⟨fun h _ => congrArg ObjInfo.priv h, fun h => by rw [h ho]⟩
  · exact iff_of_true (AttrWrite.edit_of_ne ho) fun h => absurd h ho

/-- Two writes, one object at a time. -/
theorem AttrWrite.apply_apply_congr {v w v' w' : AttrWrite}
    (h : ∀ o ∈ st.tree.values, w.edit (v.edit o) = w'.edit (v'.edit o)) :
    w.apply (v.apply st) = w'.apply (v'.apply st) := by
  simp only [AttrWrite.apply_eq, Lcrs.map_map, Lcrs.map_congr h]

theorem AttrWrite.Held.of_apply (hne : v.place ≠ w.place) (h : w.Held st) :
    w.Held (v.apply st) := by
  intro o ho haddr
  obtain ⟨p, hp, rfl⟩ := AttrWrite.mem_apply.mp ho
  rw [AttrWrite.edit_addr] at haddr
  by_cases hv : p.addr = v.addr
  · have hattr : w.attr ≠ v.attr := fun he => hne (Prod.ext (hv.symm.trans haddr) he.symm)
    rw [AttrWrite.edit_of_addr hv]
    exact (cfgXmlGetAttr_set_of_ne _ _ hattr).trans (h p hp haddr)
  · rw [AttrWrite.edit_of_ne hv]
    exact h p hp haddr

/-- Attribute writes follow the rules of writes. -/
theorem attrWriteRules : WriteRules AttrWrite.apply AttrWrite.place HasAttr where
  hides v w st hplace := by
    obtain ⟨haddr, hattr⟩ := Prod.mk.inj hplace
    rw [AttrWrite.apply_eq v, AttrWrite.apply_eq, AttrWrite.apply_eq, Lcrs.map_map,
      Lcrs.map_congr fun o _ => ?_]
    by_cases ho : o.addr = w.addr
    · have hv : o.addr = v.addr := ho.trans haddr.symm
      rw [AttrWrite.edit_edit_of_addr hv ho, AttrWrite.edit_of_addr ho, hattr,
        cfgXmlSetAttr_set_self]
    · rw [AttrWrite.edit_of_ne fun hv => ho (hv.trans haddr)]
  commute v w st hne hv hw := by
    refine AttrWrite.apply_apply_congr fun o ho => ?_
    by_cases hov : o.addr = v.addr
    · by_cases how : o.addr = w.addr
      · have hattr : v.attr ≠ w.attr := fun he => hne (Prod.ext (hov.symm.trans how) he)
        rw [AttrWrite.edit_edit_of_addr hov how, AttrWrite.edit_edit_of_addr how hov,
          cfgXmlSetAttr_comm v.value w.value hattr (hv o ho hov) (hw o ho how)]
      · rw [AttrWrite.edit_of_ne how, AttrWrite.edit_of_ne (by rwa [AttrWrite.edit_addr])]
    · rw [AttrWrite.edit_of_ne hov, AttrWrite.edit_of_ne (o := w.edit o)]
      rwa [AttrWrite.edit_addr]
  frame v w st hne hst :=
    AttrWrite.apply_eq_self_iff.mpr ((AttrWrite.apply_eq_self_iff.mp hst).of_apply hne)
  there_of_same w st hst o ho haddr := by
    exact Option.isSome_of_eq_some (AttrWrite.apply_eq_self_iff.mp hst o ho haddr)
  there_apply place w st h o ho haddr := by
    obtain ⟨p, hp, rfl⟩ := AttrWrite.mem_apply.mp ho
    rw [AttrWrite.edit_addr] at haddr
    by_cases hw : p.addr = w.addr
    · rw [AttrWrite.edit_of_addr hw]
      exact isSome_cfgXmlGetAttr_set _ _ (h p hp haddr)
    · rw [AttrWrite.edit_of_ne hw]
      exact h p hp haddr

/-- **A run of writes leaves the tree as it is exactly if the last write to each attribute finds its
value there.** -/
theorem applyAll_eq_self_iff (ws : List AttrWrite) (st : ObjState) :
    applyAll ws st = st ↔ ∀ w, LastWrite AttrWrite.place ws w → w.Held st := by
  unfold applyAll
  rw [attrWriteRules.foldl_apply_eq_self_iff]
  exact forall₂_congr fun w _ => AttrWrite.apply_eq_self_iff

end

/-! ## Calls by path -/

/-- `cfg_query_object` without a subtype, for a type with the default function. -/
def cfgQueryObject (tt : TypeTree) (st : ObjState) (path : Str) : Except Fault Int := do
  match ← cfgTypeQuery tt path with
  | none => .ok (-1)
  | some _ => .ok (← cfgObjQueryObject tt st path none).1

/-- `cfg_set_object_attr`, for a type with the default function. -/
def cfgSetObjectAttr (tt : TypeTree) (st : ObjState) (path attr val : Str) :
    Except Fault ObjState := do
  match ← cfgTypeQuery tt path with
  | none => .ok st
  | some _ => .ok (← cfgObjSetObjectAttr tt st path attr val).2

/-- `cfg_get_object_attr` into an empty buffer, for a type with the default function. -/
def cfgGetObjectAttrAt (tt : TypeTree) (st : ObjState) (path attr : Str) (size : Nat) :
    Except Fault (Int × Str) := do
  match ← cfgTypeQuery tt path with
  | none => .ok (-1, [])
  | some _ => cfgObjGetObjectAttr tt st path attr size

/-- A call of `cfg_set_object_attr`. -/
structure SetCall where
  path : Str
  attr : Str
  value : Str
deriving Repr, DecidableEq

/-- One call after the other. -/
def setAll (tt : TypeTree) (st : ObjState) (calls : List SetCall) : Except Fault ObjState :=
  calls.foldlM (fun st c => cfgSetObjectAttr tt st c.path c.attr c.value) st

/-- The write that a call makes: none if there is no such object. -/
def SetCall.write (tt : TypeTree) (st : ObjState) (c : SetCall) :
    Except Fault (List AttrWrite) := do
  match ← cfgTypeQuery tt c.path with
  | none => .ok []
  | some _ =>
    if c.attr = [] then .ok []
    else
      match ← cfgObjGetObj tt st c.path with
      | none => .ok []
      | some o => .ok [⟨o.1.addr, c.attr, c.value⟩]

/-- The writes that calls make. -/
def writesOf (tt : TypeTree) (st : ObjState) : List SetCall → Except Fault (List AttrWrite)
  | [] => .ok []
  | c :: calls => do
    let w ← c.write tt st
    let ws ← writesOf tt st calls
    .ok (w ++ ws)

section

variable {tt : TypeTree} {st st' : ObjState} {w : AttrWrite} {ws : List AttrWrite}

/-- An object and its children after a write. -/
def AttrWrite.editPtr (w : AttrWrite) (o : CfgObjPtr) : CfgObjPtr := (w.edit o.1, o.2.map w.edit)

theorem cfgObjGetObjLoop_edit (w : AttrWrite) : ∀ (ids : List Nat) (p : CfgObjPtr),
    cfgObjGetObjLoop (w.editPtr p) ids = (cfgObjGetObjLoop p ids).map w.editPtr
  | [], p => rfl
  | id :: ids, p => by
    have hchild : cfgObjGetChild (w.editPtr p) id = (cfgObjGetChild p id).map w.editPtr := by
      unfold cfgObjGetChild AttrWrite.editPtr
      simp only [Lcrs.findSib_map, AttrWrite.edit_id]
    unfold cfgObjGetObjLoop
    rw [hchild]
    cases cfgObjGetChild p id with
    | none => rfl
    | some child => exact cfgObjGetObjLoop_edit w ids child

/-- A write moves no object. -/
theorem cfgObjGetObj_apply (tt : TypeTree) (st : ObjState) (w : AttrWrite) (path : Str) :
    cfgObjGetObj tt (w.apply st) path = (cfgObjGetObj tt st path).map (Option.map w.editPtr) := by
  unfold cfgObjGetObj
  rw [AttrWrite.apply_eq]
  cases st.tree with
  | nil => rfl
  | node root child s =>
    dsimp only [Lcrs.map]
    cases cfgPathToOidArray tt path with
    | error e => rfl
    | ok ids =>
      cases ids with
      | none => rfl
      | some id => exact congrArg Except.ok (cfgObjGetObjLoop_edit w id.tail (root, child))

theorem SetCall.write_apply (c : SetCall) : c.write tt (w.apply st) = c.write tt st := by
  unfold SetCall.write
  rw [cfgObjGetObj_apply]
  cases cfgTypeQuery tt c.path with
  | error e => rfl
  | ok type =>
    cases type with
    | none => rfl
    | some type =>
      by_cases hattr : c.attr = []
      · simp only [hattr, if_true]
      · simp only [hattr, if_false, bind, Except.bind]
        cases cfgObjGetObj tt st c.path with
        | error e => rfl
        | ok o =>
          cases o with
          | none => rfl
          | some o => simp [Except.map, AttrWrite.editPtr]

theorem cfgQueryObject_apply (path : Str) :
    cfgQueryObject tt (w.apply st) path = cfgQueryObject tt st path := by
  unfold cfgQueryObject cfgObjQueryObject
  rw [cfgObjGetObj_apply]
  cases cfgTypeQuery tt path with
  | error e => rfl
  | ok type =>
    cases type with
    | none => rfl
    | some type =>
      cases cfgObjGetObj tt st path with
      | error e => rfl
      | ok o => cases o <;> rfl

/-- Reading an attribute does not see writes to attributes of another name. -/
theorem cfgGetObjectAttrAt_apply {attr : Str} (hne : attr ≠ w.attr) (path : Str) (size : Nat) :
    cfgGetObjectAttrAt tt (w.apply st) path attr size =
      cfgGetObjectAttrAt tt st path attr size := by
  unfold cfgGetObjectAttrAt cfgObjGetObjectAttr
  rw [cfgObjGetObj_apply]
  cases cfgTypeQuery tt path with
  | error e => rfl
  | ok type =>
    cases type with
    | none => rfl
    | some type =>
      by_cases hsize : size = 0
      · simp only [hsize, if_true]
      · cases cfgObjGetObj tt st path with
        | error e => simp [hsize, bind, Except.bind, Except.map]
        | ok o =>
          cases o with
          | none => simp [hsize, bind, Except.bind, Except.map]
          | some o =>
            have hget : cfgXmlGetAttr (w.edit o.1).priv attr = cfgXmlGetAttr o.1.priv attr := by
              by_cases haddr : o.1.addr = w.addr
              · rw [AttrWrite.edit_of_addr haddr]
                exact cfgXmlGetAttr_set_of_ne _ _ hne
              · rw [AttrWrite.edit_of_ne haddr]
            simp only [hsize, bind, Except.bind, Except.map, Option.map_some, AttrWrite.editPtr,
              hget]

/-! ### Runs of calls -/

theorem writesOf_apply : ∀ calls : List SetCall,
    writesOf tt (w.apply st) calls = writesOf tt st calls
  | [] => rfl
  | c :: calls => by
    unfold writesOf
    rw [SetCall.write_apply, writesOf_apply calls]

/-- The writes of one call, or none. -/
theorem cfgSetObjectAttr_eq (c : SetCall) : cfgSetObjectAttr tt st c.path c.attr c.value =
    (c.write tt st).map fun ws => applyAll ws st := by
  unfold cfgSetObjectAttr SetCall.write cfgObjSetObjectAttr
  cases cfgTypeQuery tt c.path with
  | error e => rfl
  | ok type =>
    cases type with
    | none => rfl
    | some type =>
      by_cases hattr : c.attr = []
      · simp [hattr, bind, Except.bind, Except.map, applyAll]
      · cases cfgObjGetObj tt st c.path with
        | error e => simp [hattr, bind, Except.bind, Except.map]
        | ok o => cases o <;> simp [hattr, bind, Except.bind, Except.map, applyAll, AttrWrite.apply]

theorem writesOf_applyAll (calls : List SetCall) :
    writesOf tt (applyAll ws st) calls = writesOf tt st calls := by
  induction ws generalizing st with
  | nil => rfl
  | cons w ws ih => exact ih.trans (writesOf_apply calls)

theorem setAll_cons (c : SetCall) (l : List SetCall) (st : ObjState) : setAll tt st (c :: l) =
    (cfgSetObjectAttr tt st c.path c.attr c.value).bind fun st => setAll tt st l := rfl

/-- **A run of calls is the run of the writes that the calls make on the first state.** -/
theorem setAll_eq : ∀ (calls : List SetCall) (st : ObjState),
    setAll tt st calls = (writesOf tt st calls).map fun ws => applyAll ws st
  | [], st => rfl
  | c :: calls, st => by
    rw [setAll_cons, cfgSetObjectAttr_eq]
    unfold writesOf
    cases c.write tt st with
    | error e => rfl
    | ok ws =>
      show setAll tt (applyAll ws st) calls = _
      rw [setAll_eq calls, writesOf_applyAll]
      show (writesOf tt st calls).map (fun ws' => applyAll ws' (applyAll ws st)) =
        ((writesOf tt st calls).bind fun ws' => .ok (ws ++ ws')).map fun ws => applyAll ws st
      cases writesOf tt st calls with
      | error e => rfl
      | ok ws' => simp [Except.map, Except.bind, applyAll]

theorem setAll_append (l l' : List SetCall) (st : ObjState) :
    setAll tt st (l ++ l') = (setAll tt st l).bind fun st => setAll tt st l' :=
  List.foldlM_append

/-- A write has the name of its call. -/
theorem attr_of_mem_write {c : SetCall} (h : c.write tt st = .ok ws) (hw : w ∈ ws) :
    w.attr = c.attr := by
  unfold SetCall.write at h
  simp only [bind, Except.bind] at h
  split at h
  · simp at h
  split at h
  · obtain rfl := Except.ok.inj h
    simp at hw
  split at h
  · obtain rfl := Except.ok.inj h
    simp at hw
  split at h
  · simp at h
  split at h
  · obtain rfl := Except.ok.inj h
    simp at hw
  · obtain rfl := Except.ok.inj h
    rw [List.mem_singleton.mp hw]

theorem attr_of_mem_writesOf : ∀ {calls : List SetCall} {ws : List AttrWrite},
    writesOf tt st calls = .ok ws → ∀ w ∈ ws, ∃ c ∈ calls, w.attr = c.attr
  | [], ws, h, w, hw => by
    obtain rfl := Except.ok.inj h
    exact absurd hw List.not_mem_nil
  | c :: calls, ws, h, w, hw => by
    simp only [writesOf, bind, Except.bind] at h
    split at h
    · simp at h
    rename_i ws₁ h₁
    split at h
    · simp at h
    rename_i ws₂ h₂
    obtain rfl := Except.ok.inj h
    rcases List.mem_append.mp hw with hw | hw
    · exact ⟨c, List.mem_cons_self, attr_of_mem_write h₁ hw⟩
    · obtain ⟨c', hc', hattr⟩ := attr_of_mem_writesOf h₂ w hw
      exact ⟨c', List.mem_cons_of_mem c hc', hattr⟩

theorem exists_applyAll_of_setAll {calls : List SetCall} (h : setAll tt st calls = .ok st') :
    ∃ ws, writesOf tt st calls = .ok ws ∧ st' = applyAll ws st := by
  rw [setAll_eq] at h
  cases hws : writesOf tt st calls with
  | error e => simp [hws, Except.map] at h
  | ok ws =>
    rw [hws] at h
    exact ⟨ws, rfl, (Except.ok.inj h).symm⟩

theorem cfgQueryObject_setAll {calls : List SetCall} (h : setAll tt st calls = .ok st')
    (path : Str) : cfgQueryObject tt st' path = cfgQueryObject tt st path := by
  obtain ⟨ws, -, rfl⟩ := exists_applyAll_of_setAll h
  clear h
  induction ws generalizing st with
  | nil => rfl
  | cons w ws ih => exact ih.trans (cfgQueryObject_apply path)

theorem cfgGetObjectAttrAt_setAll {calls : List SetCall} (h : setAll tt st calls = .ok st')
    {attr : Str} (hne : ∀ c ∈ calls, attr ≠ c.attr) (path : Str) (size : Nat) :
    cfgGetObjectAttrAt tt st' path attr size = cfgGetObjectAttrAt tt st path attr size := by
  obtain ⟨ws, hws, rfl⟩ := exists_applyAll_of_setAll h
  have hattr : ∀ w ∈ ws, attr ≠ w.attr := by
    intro w hw he
    obtain ⟨c, hc, hcw⟩ := attr_of_mem_writesOf hws w hw
    exact hne c hc (he.trans hcw)
  clear h hws
  induction ws generalizing st with
  | nil => rfl
  | cons w ws ih =>
    obtain ⟨hw, hws⟩ := List.forall_mem_cons.mp hattr
    exact (ih hws).trans (cfgGetObjectAttrAt_apply hw path size)

/-- **A run of calls leaves the tree as it is exactly if every attribute has the value that the last
call for it sets.** -/
theorem setAll_eq_self_iff {calls : List SetCall} : setAll tt st calls = .ok st ↔
    ∃ ws, writesOf tt st calls = .ok ws ∧ ∀ w, LastWrite AttrWrite.place ws w → w.Held st := by
  rw [setAll_eq]
  cases writesOf tt st calls with
  | error e => simp [Except.map]
  | ok ws => simp [Except.map, applyAll_eq_self_iff]

end

end OnuFirmware.Cfg
