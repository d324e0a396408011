import OnuFirmware.StaticRoute.Lines

/-!
# Commits and deletions of static routes

A deletion runs the command of the route that `route_id` stands for, if its device can be used, and
takes the lines out in which its destination stands; otherwise it runs nothing and leaves `route.sh`
alone. From this follows when each step of a run is right (`route_right_iff`).
-/

namespace OnuFirmware.StaticRoute

open Clib Cfg Lib Utility

/-! ## The entries -/

section Entries

variable {st : RouteState} {env : Env} {a : RouteAttrs} {i : Int} {n : Nat}

/-- The entries are those of routes. -/
def WellFormed (st : RouteState) : Prop := ∀ n a, st.entry n = some a → ∃ r : Route, a = r.attrs

theorem entryAt_eq_some : st.entryAt i = some a ↔ 0 ≤ i ∧ st.entry i.toNat = some a := by
  rw [RouteState.entryAt]
  split
  · next h => exact (and_iff_right h).symm
  · next h => exact iff_of_false (fun h => nomatch h) fun hc => h hc.1

theorem entryAt_natCast : st.entryAt n = st.entry n := if_pos (Int.natCast_nonneg n)

/-- The attributes of an entry that has become active by default. -/
def defaultActive (a : RouteAttrs) : RouteAttrs :=
  if a.active = none then { a with active := some yes } else a

theorem defaultActive_attrs (r : Route) : ∃ r' : Route, defaultActive r.attrs = r'.attrs := by
  rw [defaultActive]
  split
  · exact ⟨{ r with active := some yes }, rfl⟩
  · exact ⟨r, rfl⟩

theorem defaultActive_dst (a : RouteAttrs) : (defaultActive a).dst = a.dst := by
  rw [defaultActive]
  split <;> rfl

theorem deviceUp_defaultActive : DeviceUp env (defaultActive a) ↔ DeviceUp env a := by
  rw [defaultActive]
  split <;> rfl

theorem setActive_entry (st : RouteState) (i : Int) (n : Nat) : (st.setActive i).entry n =
    if (n : Int) = i then (st.entry n).map defaultActive else st.entry n := by
  rw [RouteState.setActive]
  cases he : st.entryAt i with
  | none =>
    simp only
    split
    · next hn =>
      rw [← hn, entryAt_natCast] at he
      rw [he]
      rfl
    · rfl
  | some a =>
    obtain ⟨hi, hentry⟩ := entryAt_eq_some.mp he
    simp only
    by_cases hn : (n : Int) = i
    · have hn' : i.toNat = n := by omega
      rw [if_pos hn, ← hn', hentry, Option.map_some, defaultActive]
      split
      · exact Function.update_self _ _ _
      · exact hentry
    · rw [if_neg hn]
      split
      · exact Function.update_of_ne (by omega) _ _
      · rfl

theorem setActive_scripts (st : RouteState) (i : Int) :
    (st.setActive i).routeSh = st.routeSh ∧ (st.setActive i).exeSh = st.exeSh := by
  rw [RouteState.setActive]
  split
  · split <;> exact ⟨rfl, rfl⟩
  · exact ⟨rfl, rfl⟩

/-- The state when the entry that `route_id` stands for has become active by default. -/
def activated (env : Env) (st : RouteState) : RouteState :=
  match env.target with
  | some i => st.setActive i
  | none => st

theorem activated_entry (env : Env) (st : RouteState) (n : Nat) : (activated env st).entry n =
    if env.target = some ↑n then (st.entry n).map defaultActive else st.entry n := by
  rw [activated]
  cases env.target with
  | none => rfl
  | some i =>
    simp only [setActive_entry, Option.some_inj]
    exact if_congr eq_comm rfl rfl

theorem activated_scripts (env : Env) (st : RouteState) :
    (activated env st).routeSh = st.routeSh ∧ (activated env st).exeSh = st.exeSh := by
  rw [activated]
  split
  · exact setActive_scripts st _
  · exact ⟨rfl, rfl⟩

theorem activated_eq_some (h : (activated env st).entry n = some a) :
    ∃ b, st.entry n = some b ∧ (a = b ∨ a = defaultActive b) := by
  rw [activated_entry] at h
  split at h
  · obtain ⟨b, hb, rfl⟩ := Option.map_eq_some_iff.mp h
    exact ⟨b, hb, .inr rfl⟩
  · exact ⟨a, h, .inl rfl⟩

theorem WellFormed.activated (h : WellFormed st) : WellFormed (activated env st) := by
  intro n a ha
  obtain ⟨b, hb, rfl | rfl⟩ := activated_eq_some ha
  · exact h n a hb
  · obtain ⟨r, rfl⟩ := h n b hb
    exact defaultActive_attrs r

end Entries

/-! ## The script that is run once -/

section Exe

variable {st : RouteState} {env : Env} {a : RouteAttrs}

theorem createRouteExeSh_eq (add : Bool) : createRouteExeSh add env st =
    match env.target with
    | none => .ok st
    | some i =>
      match (exeHead add i st).2.entryAt i with
      | none => .ok (exeHead add i st).2
      | some a => writeExe env a (exeHead add i st).1 (exeHead add i st).2 := by
  by_cases h : attrText env.routeId 16 [] = []
  · have htarget : env.target = none := if_pos h
    rw [createRouteExeSh, htarget]
    exact if_pos h
  · have htarget : env.target = some (atoi (attrText env.routeId 16 []) + 1) := if_neg h
    rw [createRouteExeSh, htarget]
    exact if_neg h

/-- The command of a route is written, if its device can be used. -/
theorem writeExe_eq (env : Env) (st : RouteState) (r : Route) {head : Str}
    (hlen : head.length ≤ 17) (hput : fputsEscape (head ++ routeArgs r.attrs ++ ['\n']) =
      .ok (some (head ++ routeArgs r.attrs ++ ['\n']))) :
    (DeviceUp env r.attrs → writeExe env r.attrs head st = .ok { st with
      exeSh := some (st.exeSh.getD [] ++ [head ++ routeArgs r.attrs ++ ['\n']]) }) ∧
    (¬ DeviceUp env r.attrs → writeExe env r.attrs head st = .ok st) := by
  obtain ⟨hup, hdown⟩ := exeArgs_eq env r hlen
  constructor
  · intro hdev
    simp only [writeExe, hup hdev, bind, Except.bind, strcat_command r hlen, hput]
    rfl
  · intro hdev
    simp only [writeExe, hdown hdev, bind, Except.bind]

/-- The command that deletes the route for which `route_id` stands. -/
theorem exe_del_reaches (hwf : WellFormed st) (h : Reaches env st a) :
    createRouteExeSh false env st =
      .ok { st with exeSh := some (st.exeSh.getD [] ++ [delLine a]) } := by
  obtain ⟨i, htarget, hentry, hup⟩ := h
  obtain ⟨r, rfl⟩ := hwf _ _ (entryAt_eq_some.mp hentry).2
  rw [createRouteExeSh_eq, htarget]
  simp only [exeHead, Bool.false_eq_true, if_false, hentry]
  exact (writeExe_eq env st r (by decide) (fputs_command r plain_heads.2).1).1 hup

theorem exe_del_not (hwf : WellFormed st) (h : ∀ a, ¬ Reaches env st a) :
    createRouteExeSh false env st = .ok st := by
  rw [createRouteExeSh_eq]
  cases htarget : env.target with
  | none => rfl
  | some i =>
    simp only [exeHead, Bool.false_eq_true, if_false]
    cases hentry : st.entryAt i with
    | none => rfl
    | some a =>
      obtain ⟨r, rfl⟩ := hwf _ _ (entryAt_eq_some.mp hentry).2
      exact (writeExe_eq env st r (by decide) (fputs_command r plain_heads.2).1).2 fun hup =>
        h _ ⟨i, htarget, hentry, hup⟩

/-- What is left of an addition, if the device cannot be used: the entry is active by default. -/
theorem exe_add (hwf : WellFormed st) : ∃ exe,
    createRouteExeSh true env st = .ok { activated env st with exeSh := exe } ∧
      ((∀ a, ¬ Reaches env st a) → exe = st.exeSh) := by
  have hexe := (activated_scripts env st).2
  have hkeep : { activated env st with exeSh := st.exeSh } = activated env st := by rw [← hexe]
  rw [createRouteExeSh_eq]
  cases htarget : env.target with
  | none => exact ⟨st.exeSh, by rw [hkeep, activated, htarget], fun _ => rfl⟩
  | some i =>
    have hact : st.setActive i = activated env st := by rw [activated, htarget]
    simp only [exeHead, if_true, hact]
    cases hentry : (activated env st).entryAt i with
    | none => exact ⟨st.exeSh, by rw [hkeep], fun _ => rfl⟩
    | some a =>
      obtain ⟨hi, ha⟩ := entryAt_eq_some.mp hentry
      obtain ⟨r, rfl⟩ := hwf.activated _ _ ha
      have hhead : ∀ t : Str, (if t = yes then addHead else markedHead) = bootHead (some t) :=
        fun t => by
          rw [bootHead]
          exact if_congr Option.some_inj.symm rfl rfl
      simp only [Option.map_some, Option.getD_some, hhead]
      obtain ⟨hup, hdown⟩ := writeExe_eq env (activated env st) r
        (length_bootHead (some (attrText r.attrs.active 8 []))) (fputs_bootHead r _)
      by_cases hdev : DeviceUp env r.attrs
      · refine ⟨_, hup hdev, fun hno => ?_⟩
        obtain ⟨b, hb, hab⟩ := activated_eq_some ha
        refine absurd ⟨i, htarget, entryAt_eq_some.mpr ⟨hi, hb⟩, ?_⟩ (hno b)
        rcases hab with hab | hab
        · rwa [← hab]
        · rwa [hab, deviceUp_defaultActive] at hdev
      · exact ⟨st.exeSh, by rw [hkeep, hdown hdev], fun _ => rfl⟩

end Exe

/-! ## Deletions -/

section Delete

variable {cmcc : Bool} {st : RouteState} {env : Env} {a : RouteAttrs} {n : Nat} {lines : List Str}

/-- A state between two steps. -/
structure Good (st : RouteState) : Prop where
  wf : WellFormed st
  distinct : ∀ m n a b, st.entry m = some a → st.entry n = some b → a.dst = b.dst → m = n
  routeSh : ∃ lines, st.routeSh = some lines
  exeSh : st.exeSh = none

/-- The lines in which the destination does not stand. -/
def withoutStr (dst : Str) (lines : List Str) : List Str := lines.filter fun l => !hasStr l dst

theorem updateRouteSh_del (r : Route) (lines : List Str) (hexe : st.exeSh = some [delLine r.attrs]) :
    updateRouteSh lines st = .ok { st with routeSh := some (withoutStr r.dst lines) } := by
  obtain ⟨ps, htok, hnet⟩ := findNet_delLine r
  have hne : delLine r.attrs ≠ [] := by
    rw [delLine_eq]
    exact List.cons_ne_nil _ _
  rw [updateRouteSh, hexe]
  simp only [List.headD_cons, if_neg hne, hasStr_delLine, Bool.false_eq_true, and_false, if_false,
    htok, hnet, bind, Except.bind, Option.any_some]
  rfl

/-- **A deletion while `route_id` stands for a route whose device can be used.** -/
theorem delete_reaches (hg : Good st) (hlines : st.routeSh = some lines) (h : Reaches env st a) :
    routeDelete cmcc env n st = .ok (some [delLine a], ⟨Function.update st.entry n none,
      some (withoutStr (a.dst.getD []) lines), none⟩) := by
  obtain ⟨r, rfl⟩ : ∃ r : Route, a = r.attrs := by
    obtain ⟨i, -, hentry, -⟩ := h
    exact hg.wf _ _ (entryAt_eq_some.mp hentry).2
  have hdel := exe_del_reaches hg.wf h
  rw [hg.exeSh] at hdel
  have hupdate := @updateRouteSh_del { st with exeSh := some [delLine r.attrs] } r lines rfl
  rw [routeDelete, hdel]
  simp only [routeCommit, bind, Except.bind, Option.getD_none, List.nil_append, reduceCtorEq,
    if_false, hlines]
  rw [hlines] at hupdate
  rw [hupdate]
  rfl

/-- **A deletion otherwise.** -/
theorem delete_not (hg : Good st) (hlines : st.routeSh = some lines) (h : ∀ a, ¬ Reaches env st a) :
    routeDelete cmcc env n st = .ok (none, ⟨Function.update (activated env st).entry n none,
      some lines, none⟩) := by
  obtain ⟨exe, hadd, hexe⟩ := @exe_add st env hg.wf
  rw [hexe h, hg.exeSh] at hadd
  have hsh := (activated_scripts env st).1
  rw [routeDelete, exe_del_not hg.wf h]
  simp only [routeCommit, bind, Except.bind, hg.exeSh, if_true, hadd, hsh, hlines, updateRouteSh]

theorem Good.deleted {entry : Nat → Option RouteAttrs} (hg : Good st)
    (hentry : ∀ m a, entry m = some a → ∃ b, st.entry m = some b ∧ a.dst = b.dst ∧
      ∃ r : Route, a = r.attrs) :
    Good ⟨Function.update entry n none, some lines, none⟩ := by
  have hold : ∀ m a, Function.update entry n none m = some a → entry m = some a := by
    intro m a h
    rw [Function.update_apply] at h
    split at h
    · exact nomatch h
    · exact h
  refine ⟨fun m a h => ?_, fun m m' a a' h h' hdst => ?_, ⟨lines, rfl⟩, rfl⟩
  · obtain ⟨b, -, -, hr⟩ := hentry m a (hold m a h)
    exact hr
  · obtain ⟨b, hb, hab, -⟩ := hentry m a (hold m a h)
    obtain ⟨b', hb', hab', -⟩ := hentry m' a' (hold m' a' h')
    exact hg.distinct m m' b b' hb hb' (by rw [← hab, ← hab', hdst])

theorem Good.activated_entry (hg : Good st) (m : Nat) (a : RouteAttrs)
    (h : (activated env st).entry m = some a) :
    ∃ b, st.entry m = some b ∧ a.dst = b.dst ∧ ∃ r : Route, a = r.attrs := by
  obtain ⟨b, hb, hab⟩ := activated_eq_some h
  refine ⟨b, hb, ?_, hg.wf.activated m a h⟩
  rcases hab with rfl | rfl
  · rfl
  · exact defaultActive_dst b

/-- Every deletion leads to a state between two steps. -/
theorem Good.step (hg : Good st) (d : Deletion) : Good (deleteStep cmcc st d) := by
  obtain ⟨env, n⟩ := d
  obtain ⟨lines, hlines⟩ := hg.routeSh
  rw [deleteStep]
  by_cases h : ∃ a, Reaches env st a
  · obtain ⟨a, ha⟩ := h
    rw [delete_reaches hg hlines ha]
    exact hg.deleted fun m a hm => ⟨a, hm, rfl, hg.wf m a hm⟩
  · rw [delete_not hg hlines fun a ha => h ⟨a, ha⟩]
    exact hg.deleted hg.activated_entry

/-- The lines in which a destination stands are those of the destination, if it stands in no
others. -/
theorem withoutStr_eq_iff (d : Str) (lines : List Str) :
    withoutStr d lines = lines.filter (lineDst · ≠ some d) ↔
      ∀ l ∈ lines, hasStr l d = true → lineDst l = some d := by
  constructor
  · intro h l hl hstr
    by_contra hdst
    have hmem : l ∈ withoutStr d lines := by
      rw [h]
      exact List.mem_filter.mpr ⟨hl, decide_eq_true hdst⟩
    have hno := (List.mem_filter.mp hmem).2
    rw [hstr] at hno
    exact Bool.false_ne_true hno
  · intro h
    refine List.filter_congr fun l hl => ?_
    cases hstr : hasStr l d with
    | true => simp [h l hl hstr]
    | false =>
      have hdst : lineDst l ≠ some d := fun hd => by
        rw [hasStr_of_lineDst hd] at hstr
        exact Bool.false_ne_true hstr.symm
      simp [hdst]

/-- **A deletion is right exactly under the condition.** -/
theorem deleteRight_iff (hg : Good st) (d : Deletion) :
    DeleteRight cmcc st d ↔ DeleteCond st d := by
  obtain ⟨env, n⟩ := d
  obtain ⟨lines, hlines⟩ := hg.routeSh
  rw [DeleteRight, DeleteCond]
  simp only [hlines, Option.map_some, Option.getD_some]
  by_cases h : ∃ a, Reaches env st a
  · obtain ⟨a, ha⟩ := h
    rw [delete_reaches hg hlines ha]
    obtain ⟨i, htarget, hentry, hup⟩ := ha
    obtain ⟨hi, hat⟩ := entryAt_eq_some.mp hentry
    obtain ⟨r, rfl⟩ := hg.wf _ _ hat
    cases hn : st.entry n with
    | none =>
      refine iff_of_false ?_ fun hno => hno _ ⟨i, htarget, hentry, hup⟩
      rintro ⟨script, st', hrun, hscript, -⟩
      obtain ⟨rfl, -⟩ := Prod.mk.inj (Except.ok.inj hrun)
      exact nomatch hscript
    | some b =>
      obtain ⟨r', rfl⟩ := hg.wf _ _ hn
      constructor
      · rintro ⟨script, st', hrun, hscript, hsh⟩
        obtain ⟨rfl, rfl⟩ := Prod.mk.inj (Except.ok.inj hrun)
        have hdst := delLine_inj (List.cons.inj (Option.some.inj hscript)).1
        have hin : i.toNat = n := hg.distinct _ _ _ _ hat hn (congrArg some hdst)
        obtain rfl : i = n := by omega
        rw [Int.toNat_natCast, hn] at hat
        have hattrs := Option.some.inj hat
        refine ⟨htarget, hattrs ▸ hup, ?_⟩
        rw [← hattrs] at hsh
        exact (withoutStr_eq_iff _ _).mp (Option.some.inj hsh)
      · rintro ⟨htarget', -, hstr⟩
        obtain rfl := Option.some.inj (htarget.symm.trans htarget')
        rw [Int.toNat_natCast, hn] at hat
        rw [← Option.some.inj hat]
        exact ⟨_, _, rfl, rfl, congrArg some ((withoutStr_eq_iff _ _).mpr hstr)⟩
  · have hno : ∀ a, ¬ Reaches env st a := fun a ha => h ⟨a, ha⟩
    rw [delete_not hg hlines hno]
    cases hn : st.entry n with
    | none => exact iff_of_true ⟨_, _, rfl, rfl, rfl⟩ hno
    | some b =>
      refine iff_of_false ?_ fun hc => hno b ⟨n, hc.1, by rw [entryAt_natCast, hn], hc.2.1⟩
      rintro ⟨script, st', hrun, hscript, -⟩
      obtain ⟨rfl, -⟩ := Prod.mk.inj (Except.ok.inj hrun)
      exact nomatch hscript

end Delete

/-! ## The first commit -/

section Boot

variable {cmcc : Bool} {st : RouteState} {env : Env} {R : Routes cmcc}

/-- The line of a number without an entry. -/
def emptyLine : Str := "#/sbin/route add gw  metric  \n".toList

/-- The line of a number. -/
def bootText : Option RouteAttrs → Str
  | some a => bootHead a.active ++ routeArgs a ++ ['\n']
  | none => emptyLine

theorem bootLine_bootText (hwf : WellFormed st) (n : Nat) :
    bootLine ((st.entry n).getD noAttrs) = .ok (some (bootText (st.entry n))) := by
  cases hn : st.entry n with
  | none =>
    have hempty : bootLine noAttrs = .ok (some emptyLine) := by decide
    exact hempty
  | some a =>
    obtain ⟨r, rfl⟩ := hwf n a hn
    exact bootLine_eq r

/-- The lines of all numbers but the highest. -/
def bootLines (cmcc : Bool) (st : RouteState) : List Str :=
  (List.range' 1 (maxStaticRouteNum cmcc - 1)).map fun n => bootText (st.entry n)

/-- **What `create_route_sh` writes.** -/
theorem createRouteSh_eq (hwf : WellFormed st) :
    createRouteSh cmcc st = .ok { st with routeSh := some (bootLines cmcc st) } := by
  have hrange : List.range (maxStaticRouteNum cmcc) =
      0 :: 1 :: List.range' 2 (maxStaticRouteNum cmcc - 2) ∧
      List.range' 1 (maxStaticRouteNum cmcc - 1) =
        1 :: List.range' 2 (maxStaticRouteNum cmcc - 2) := by
    cases cmcc <;> decide
  have hlines : ∀ (l : List Nat) (sh : List Str), (∀ n ∈ l, n ≠ 0) →
      l.foldl (fun sh n => if n = 0 then sh else some (sh.getD [] ++ [bootText (st.entry n)]))
        (some sh) = some (sh ++ l.map fun n => bootText (st.entry n)) := by
    intro l
    induction l with
    | nil =>
      intro sh _
      rw [List.foldl_nil, List.map_nil, List.append_nil]
    | cons n l ih =>
      intro sh hl
      rw [List.foldl_cons, if_neg (hl n List.mem_cons_self), Option.getD_some,
        ih _ fun m hm => hl m (List.mem_cons_of_mem n hm), List.map_cons, List.append_assoc,
        List.singleton_append]
  have hloop : (List.range (maxStaticRouteNum cmcc)).foldlM (fun sh routeCount =>
      if routeCount = 0 then .ok sh
      else (bootLine ((st.entry routeCount).getD noAttrs)).map fun text =>
        some (sh.getD [] ++ text.toList)) none = .ok (some (bootLines cmcc st)) := by
    refine (@foldlM_eq_ok_iff _ _ _ _ (fun sh n => if n = 0 then sh
      else some (sh.getD [] ++ [bootText (st.entry n)])) (fun _ => True) _ _ _ ?_ ?_).mpr
      ⟨fun _ _ => trivial, ?_⟩
    · intro sh n _ _
      rw [bootLine_bootText hwf]
      split <;> rfl
    · exact fun _ _ _ h => absurd trivial h
    · rw [hrange.1, List.foldl_cons, if_pos rfl, List.foldl_cons, if_neg (by decide),
        Option.getD_none, List.nil_append, hlines _ _ fun n hn => by
          rw [List.mem_range'_1] at hn
          omega, bootLines, hrange.2]
      rfl
  rw [createRouteSh, hloop]
  rfl

theorem start_wf (R : Routes cmcc) : WellFormed R.start := by
  intro n a h
  obtain ⟨r, -, rfl⟩ := Option.map_eq_some_iff.mp h
  exact ⟨r, rfl⟩

/-- The first commit. -/
theorem commit_start (env : Env) (R : Routes cmcc) : ∃ exe, routeCommit cmcc env R.start =
    .ok (exe, ⟨(activated env R.start).entry, some (bootLines cmcc (activated env R.start)),
      none⟩) := by
  obtain ⟨exe, hadd, -⟩ := @exe_add _ env (start_wf R)
  have hsh : (activated env R.start).routeSh = none := (activated_scripts env R.start).1
  have hcreate := @createRouteSh_eq cmcc ⟨(activated env R.start).entry, none, exe⟩
    (start_wf R).activated
  have hexe : R.start.exeSh = none := rfl
  refine ⟨exe, ?_⟩
  rw [routeCommit, if_pos hexe, hadd]
  simp only [bind, Except.bind, hsh, hcreate]
  rfl

theorem booted_eq (env : Env) (R : Routes cmcc) : booted cmcc env R =
    ⟨(activated env R.start).entry, some (bootLines cmcc (activated env R.start)), none⟩ := by
  obtain ⟨exe, h⟩ := commit_start env R
  rw [booted, h]

theorem good_booted (env : Env) (R : Routes cmcc) : Good (booted cmcc env R) := by
  rw [booted_eq]
  refine ⟨(start_wf R).activated, fun m n a b hm hn hdst => ?_, ⟨_, rfl⟩, rfl⟩
  have hroute : ∀ k c, (activated env R.start).entry k = some c →
      ∃ r, R.entry k = some r ∧ c.dst = some r.dst := by
    intro k c hc
    obtain ⟨c', hc', hcc⟩ := activated_eq_some hc
    obtain ⟨r, hr, rfl⟩ := Option.map_eq_some_iff.mp hc'
    rcases hcc with rfl | rfl
    · exact ⟨r, hr, rfl⟩
    · exact ⟨r, hr, defaultActive_dst _⟩
  obtain ⟨r, hr, hra⟩ := hroute m a hm
  obtain ⟨r', hr', hrb⟩ := hroute n b hn
  rw [hra, hrb, Option.some_inj] at hdst
  exact R.distinct m n r r' hr hr' hdst

theorem uncommented_bootText (o : Option RouteAttrs) : (if uncommented (bootText o) = true then
    [bootText o] else []) = activeLine o := by
  cases o with
  | none => rfl
  | some a =>
    simp only [bootText, bootHead, activeLine, addLine]
    split <;> rfl

theorem filter_map_eq_flatMap {α β : Type*} (f : α → β) (p : β → Bool) (l : List α) :
    (l.map f).filter p = l.flatMap fun x => if p (f x) = true then [f x] else [] := by
  induction l with
  | nil => rfl
  | cons x l ih =>
    rw [List.map_cons, List.filter_cons, List.flatMap_cons, ← ih]
    split <;> rfl

/-- **The first commit is right exactly if the entry with the highest number is not active.** -/
theorem bootRight_iff (env : Env) (R : Routes cmcc) : BootRight cmcc env R ↔ BootCond cmcc env R := by
  obtain ⟨exe, hrun⟩ := commit_start env R
  generalize hst : activated env R.start = st at hrun
  have hsucc : List.range' 1 (maxStaticRouteNum cmcc) =
      List.range' 1 (maxStaticRouteNum cmcc - 1) ++ [maxStaticRouteNum cmcc] := by
    cases cmcc <;> decide
  have hlines : (bootLines cmcc st).filter uncommented = activeLines cmcc st ↔
      ∀ a, st.entry (maxStaticRouteNum cmcc) = some a → a.active ≠ some yes := by
    rw [bootLines, filter_map_eq_flatMap, activeLines, hsucc, List.flatMap_append]
    simp only [uncommented_bootText, List.flatMap_singleton]
    rw [List.self_eq_append_right]
    cases st.entry (maxStaticRouteNum cmcc) with
    | none => exact iff_of_true rfl fun _ h => nomatch h
    | some a =>
      simp only [Option.some_inj, forall_eq', activeLine]
      split
      · next h => exact iff_of_false (List.cons_ne_nil _ _) fun hne => hne h
      · next h => exact iff_of_true rfl h
  have hright : BootRight cmcc env R ↔
      (bootLines cmcc st).filter uncommented = activeLines cmcc st := by
    rw [BootRight, hrun]
    constructor
    · rintro ⟨script, st', lines, he, hsh, hfilter⟩
      obtain ⟨-, rfl⟩ := Prod.mk.inj (Except.ok.inj he)
      rw [Option.some.inj hsh]
      exact hfilter
    · exact fun h => ⟨_, _, _, rfl, rfl, h⟩
  rw [hright, hlines, ← hst, BootCond]
  simp only [activated_entry]
  have hstart : R.start.entry (maxStaticRouteNum cmcc) =
      (R.entry (maxStaticRouteNum cmcc)).map Route.attrs := rfl
  rw [hstart]
  cases R.entry (maxStaticRouteNum cmcc) with
  | none =>
    refine iff_of_true (fun a h => ?_) fun r h => nomatch h
    split at h <;> exact nomatch h
  | some r =>
    simp only [Option.map_some, Option.some_inj, forall_eq']
    by_cases htarget : env.target = some ↑(maxStaticRouteNum cmcc)
    · rw [if_pos htarget]
      simp only [Option.some_inj, forall_eq', htarget, ne_eq, not_true_eq_false, imp_false,
        defaultActive]
      by_cases hnone : r.attrs.active = none
      · rw [if_pos hnone]
        exact iff_of_false (fun h => h rfl) fun h => h.2 hnone
      · rw [if_neg hnone]
        exact (and_iff_left hnone).symm
    · rw [if_neg htarget]
      simp only [Option.some_inj, forall_eq']
      exact (and_iff_left fun _ => htarget).symm

end Boot

/-- **A run is right exactly if the entry with the highest number is not active at the start and
every deletion meets its condition.** -/
theorem route_right_iff (cmcc : Bool) (R : Routes cmcc) (env : Env) (ds : List Deletion) :
    RouteRight cmcc R env ds ↔
      BootCond cmcc env R ∧ RunOk (deleteStep cmcc) DeleteCond (booted cmcc env R) ds :=
  and_congr (bootRight_iff env R)
    (@RunOk.congr _ _ (deleteStep cmcc) _ Good _ (fun _ d hg => hg.step d)
      (fun _ d hg => deleteRight_iff hg d) ds _ (good_booted env R))

/-! ## A destination that begins another one -/

/-- An active route to an address, over `10.0.1.1`. -/
def hostRoute (dst : Str) (h : (inetPton4 dst).isSome = true) : Route :=
  ⟨some yes, dst, "255.255.255.255".toList, none, "10.0.1.1".toList, 0, h, by decide, by decide,
    nofun, by decide⟩

/-- Routes to `10.0.0.1` and `10.0.0.10`. -/
def twoRoutes : Routes false where
  entry n :=
    if n = 1 then some (hostRoute "10.0.0.1".toList (by decide))
    else if n = 2 then some (hostRoute "10.0.0.10".toList (by decide))
    else none
  range n r h := by
    split_ifs at h with h1 h2
    · subst h1
      decide
    · subst h2
      decide
  distinct m n r r' hm hn hdst := by
    split_ifs at hm hn with h1 h2 h3 h4 h5 h6
    · exact h1.trans h2.symm
    · rw [← Option.some.inj hm, ← Option.some.inj hn] at hdst
      exact absurd hdst (by decide)
    · rw [← Option.some.inj hm, ← Option.some.inj hn] at hdst
      exact absurd hdst (by decide)
    · exact h4.trans h6.symm

/-- `route_id` of the first route. -/
def firstEnv : Env := ⟨some "0".toList, fun _ => none⟩

theorem route_wrong : ¬ RouteRight false twoRoutes firstEnv [(firstEnv, 1)] := by
  rintro ⟨-, ⟨script, st, hrun, hright⟩, -⟩
  have hboot : (booted false firstEnv twoRoutes).routeSh.map (fun lines => lines.map lineDst) =
      some (some "10.0.0.1".toList :: some "10.0.0.10".toList :: List.replicate 13 none) := by
    decide +kernel
  have hentry : ((booted false firstEnv twoRoutes).entry 1).map RouteAttrs.dst =
      some (some "10.0.0.1".toList) := by decide +kernel
  -- both lines are gone
  have hleft : (routeDelete false firstEnv 1 (booted false firstEnv twoRoutes)).toOption.map
      (fun r => r.2.routeSh.map fun lines => lines.map lineDst) =
        some (some (List.replicate 13 none)) := by decide +kernel
  obtain ⟨lines, hlines, hdsts⟩ := Option.map_eq_some_iff.mp hboot
  obtain ⟨a, ha, hdst⟩ := Option.map_eq_some_iff.mp hentry
  rw [hrun] at hleft
  simp only [ha, hlines, hdst, Option.map_some] at hright
  have hst : (st.routeSh.map fun lines => lines.map lineDst) = some (List.replicate 13 none) :=
    Option.some.inj hleft
  rw [hright.2, Option.map_some, Option.some_inj] at hst
  obtain ⟨l, hl, hld⟩ := List.mem_map.mp (hdsts ▸ List.mem_cons_of_mem _ List.mem_cons_self :
    some "10.0.0.10".toList ∈ lines.map lineDst)
  have hkept : lineDst l ∈ List.replicate 13 none := hst ▸ List.mem_map_of_mem
    (List.mem_filter.mpr ⟨hl, by rw [hld]; decide⟩)
  rw [hld] at hkept
  exact absurd hkept (by decide)
end OnuFirmware.StaticRoute
