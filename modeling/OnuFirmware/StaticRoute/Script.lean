import OnuFirmware.Cfg.ReadAttr
import OnuFirmware.Clib.Inet
import OnuFirmware.Clib.Scan
import OnuFirmware.Lib.Guard
import OnuFirmware.Lib.Run
import OnuFirmware.Utility.Escape

/-!
# The script of the static routes (`cfg_type_route.c`)

`route.sh` holds a command for each static route. It is written when the box starts. When a route is
deleted, a command goes into a script that is run once, and the lines of the route are taken out of
`route.sh`. Which route that is tells the number `route_id` of the web pages, not the path that is
deleted; and a line is taken for one of the route if its destination stands anywhere in it.
-/

namespace OnuFirmware.StaticRoute

open Clib Cfg Lib Utility

/-! ## Routes and scripts -/

/-- `MAX_STATIC_ROUTE_NUM`; `cmcc` is `TCSUPPORT_CMCC`. -/
def maxStaticRouteNum (cmcc : Bool) : Nat := if cmcc then 32 else 16

/-- The attributes of an entry. -/
structure RouteAttrs where
  active : Option Str
  dst : Option Str
  mask : Option Str
  device : Option Str
  gateway : Option Str
  metric : Option Str
deriving Repr, DecidableEq

/-- What is read where there is no entry. -/
def noAttrs : RouteAttrs := ⟨none, none, none, none, none, none⟩

/-- The entries by their numbers, and the two scripts with their lines, if they exist. A line has
less than `MAXSIZE` characters. -/
structure RouteState where
  entry : Nat → Option RouteAttrs
  routeSh : Option (List Str)
  exeSh : Option (List Str)

/-- `route_id` of the web pages, and the WANs: what `get_wanindex_by_name` and
`get_waninfo_by_index` find under the name of a device, which are an index and its `Active`. -/
structure Env where
  routeId : Option Str
  wan : Str → Option (Option Str)

/-- `"%s %s "`. -/
def part (keyword : String) (value : Str) : Str := keyword.toList ++ ' ' :: value ++ [' ']

/-- `strcat(string, tmp)`, with `char string[128]`. -/
def strcat (string tmp : Str) : Except Fault Str :=
  if string.length + tmp.length < 128 then .ok (string ++ tmp) else .error .overrun

/-- A part of a command, printed into `char tmp[32]`, unless it is left out. -/
def optPart (skip : Prop) [Decidable skip] (keyword : String) (value string : Str) :
    Except Fault Str :=
  if skip then .ok string else strcat string (snprintf 32 (part keyword value))

def addHead : Str := "/sbin/route add ".toList
def markedHead : Str := "#/sbin/route add ".toList
def delHead : Str := "/sbin/route del ".toList
def yes : Str := "Yes".toList
def anyAddr : Str := "0.0.0.0".toList

/-! ## The script that is run once (`create_route_exe_sh`) -/

/-- The WAN of a device can be used. -/
def WanUp (wan : Str → Option (Option Str)) (device : Str) : Prop :=
  ∃ active, wan device = some (some active) ∧ snprintf 6 active ≠ "No".toList

instance (wan : Str → Option (Option Str)) (device : Str) : Decidable (WanUp wan device) :=
  match h : wan device with
  | some (some active) => decidable_of_iff (snprintf 6 active ≠ "No".toList)
      ⟨fun hne => ⟨active, h, hne⟩, fun ⟨_, ha, hne⟩ =>
        Option.some.inj (Option.some.inj (h.symm.trans ha)) ▸ hne⟩
  | some none => isFalse fun ⟨_, ha, _⟩ => nomatch h.symm.trans ha
  | none => isFalse fun ⟨_, ha, _⟩ => nomatch h.symm.trans ha

/-- The attributes of a route behind the head of a command; `none` if `-1` is returned. -/
def exeArgs (wan : Str → Option (Option Str)) (a : RouteAttrs) (string : Str) :
    Except Fault (Option Str) :=
  let dst := attrText a.dst 16 []
  let mask := attrText a.mask 16 []
  let device := attrText a.device 16 []
  let gateway := attrText a.gateway 16 []
  let metric := attrText a.metric 16 []
  if dst = [] then .ok none
  else do
    let string ← optPart False "-net" dst string
    let string ← optPart (mask = []) "netmask" mask string
    if device ≠ [] ∧ device ≠ "br0".toList ∧ ¬ WanUp wan device then .ok none
    else do
      let string ← optPart (device = []) "dev" device string
      let string ← optPart (gateway = [] ∨ gateway = anyAddr) "gw" gateway string
      let string ← optPart (¬ 0 < atoi metric) "metric" metric string
      .ok (some string)

/-- The entry with the number `i`. -/
def RouteState.entryAt (st : RouteState) (i : Int) : Option RouteAttrs :=
  if 0 ≤ i then st.entry i.toNat else none

/-- `cfg_set_object_attr` of `Active`, if the entry has none. -/
def RouteState.setActive (st : RouteState) (i : Int) : RouteState :=
  match st.entryAt i with
  | some a =>
    if a.active = none then
      { st with entry := Function.update st.entry i.toNat (some { a with active := some yes }) }
    else st
  | none => st

/-- The head of the command, and the state behind it; `add` is whether the action is `ROUTE_ADD`. -/
def exeHead (add : Bool) (i : Int) (st : RouteState) : Str × RouteState :=
  if add then
    let st := st.setActive i
    let routeActive := ((st.entryAt i).map fun a => attrText a.active 8 []).getD yes
    (if routeActive = yes then addHead else markedHead, st)
  else (delHead, st)

/-- The command goes to the end of the script. -/
def writeExe (env : Env) (a : RouteAttrs) (string : Str) (st : RouteState) :
    Except Fault RouteState := do
  match ← exeArgs env.wan a string with
  | none => .ok st
  | some string =>
    let text ← fputsEscape (← strcat string ['\n'])
    .ok { st with exeSh := some (st.exeSh.getD [] ++ text.toList) }

/-- `create_route_exe_sh`. -/
def createRouteExeSh (add : Bool) (env : Env) (st : RouteState) : Except Fault RouteState :=
  let routeTmp := attrText env.routeId 16 []
  if routeTmp = [] then .ok st
  else
    let i := atoi routeTmp + 1
    let (string, st) := exeHead add i st
    match st.entryAt i with
    | none => .ok st
    | some a => writeExe env a string st

/-! ## `route.sh` -/

/-- One line of `create_route_sh`. -/
def bootLine (a : RouteAttrs) : Except Fault (Option Str) := do
  let dst := attrText a.dst 32 []
  let mask := attrText a.mask 32 []
  let device := attrText a.device 32 []
  let gateway := attrText a.gateway 32 []
  let metric := attrText a.metric 32 []
  let string := if attrText a.active 32 [] = yes then addHead else markedHead
  let string ← optPart (dst = []) "-net" dst string
  let string ← optPart (mask = []) "netmask" mask string
  let string ← optPart (device = []) "dev" device string
  let string ← optPart (gateway = anyAddr) "gw" gateway string
  let string ← optPart (metric = "0".toList) "metric" metric string
  fputsEscape (← strcat string ['\n'])

/-- `create_route_sh`. The type tree has no node `root.route.entry.0`, and one for each of the other
numbers, whether there is an entry or not. -/
def createRouteSh (cmcc : Bool) (st : RouteState) : Except Fault RouteState := do
  let sh ← (List.range (maxStaticRouteNum cmcc)).foldlM (fun sh routeCount =>
    if routeCount = 0 then .ok sh
    else (bootLine ((st.entry routeCount).getD noAttrs)).map fun text =>
      some (sh.getD [] ++ text.toList)) none
  .ok { st with routeSh := sh }

/-- The tokens behind the first one: what follows `-net`. At the end `strcmp` gets NULL. -/
def findNet : List Str → Except Fault (Option Str)
  | [] => .error .dangling
  | p :: ps => if p = "-net".toList then .ok ps.head? else findNet ps

/-- `update_route_sh`, with the lines of `route.sh`. -/
def updateRouteSh (lines : List Str) (st : RouteState) : Except Fault RouteState :=
  match st.exeSh with
  | none => .ok st
  | some exe =>
    let line := exe.headD []
    if line = [] then .ok st
    else if line.head? ≠ some '#' ∧ hasStr line "/sbin/route add".toList = true then
      .ok { st with routeSh := some (lines ++ [line, ['\n']]) }
    else do
      let destIpExe ← match strtokAll ' ' line with
        | [] => .ok none
        | _ :: ps => findNet ps
      .ok { st with routeSh := some (lines.filter fun l =>
        destIpExe.any fun dest => !hasStr l dest) }

/-! ## Commits and deletions -/

/-- `cfg_type_route_func_commit`: the script that is run by `wan_related_route_execute`, which
removes it, and the state. -/
def routeCommit (cmcc : Bool) (env : Env) (st : RouteState) :
    Except Fault (Option (List Str) × RouteState) := do
  let st ← if st.exeSh = none then createRouteExeSh true env st else .ok st
  let st ← match st.routeSh with
    | none => createRouteSh cmcc st
    | some lines => updateRouteSh lines st
  .ok (st.exeSh, { st with exeSh := none })

/-- `cfg_type_route_entry_func_delete` on the path of entry `n`. -/
def routeDelete (cmcc : Bool) (env : Env) (n : Nat) (st : RouteState) :
    Except Fault (Option (List Str) × RouteState) := do
  let st ← createRouteExeSh false env st
  let r ← routeCommit cmcc env st
  .ok (r.1, { r.2 with entry := Function.update r.2.entry n none })

/-! ## Statement -/

/-- The characters in names of interfaces. -/
def isIfaceChar (c : Char) : Bool :=
  isDigit c || ('a' ≤ c && c ≤ 'z') || ('A' ≤ c && c ≤ 'Z') || c == '_' || c == '.' || c == '-'

/-- A static route with well-formed attributes. -/
structure Route where
  active : Option Str
  dst : Str
  mask : Str
  device : Option Str
  gateway : Str
  metric : Nat
  dst_ok : (inetPton4 dst).isSome = true
  mask_ok : (inetPton4 mask).isSome = true
  gateway_ok : (inetPton4 gateway).isSome = true
  device_ok : ∀ d ∈ device, d.length ≤ 15 ∧ ∀ c ∈ d, isIfaceChar c = true
  metric_ok : metric ≤ intMax

/-- The attributes of a route. -/
def Route.attrs (r : Route) : RouteAttrs :=
  ⟨r.active, some r.dst, some r.mask, r.device, some r.gateway, some (fmtNat r.metric)⟩

/-- Static routes in the entries `1` to `MAX_STATIC_ROUTE_NUM`, with distinct destinations. -/
structure Routes (cmcc : Bool) where
  entry : Nat → Option Route
  range : ∀ n r, entry n = some r → 1 ≤ n ∧ n ≤ maxStaticRouteNum cmcc
  distinct : ∀ m n r r', entry m = some r → entry n = some r' → r.dst = r'.dst → m = n

/-- The state when the box starts. -/
def Routes.start {cmcc : Bool} (R : Routes cmcc) : RouteState :=
  ⟨fun n => (R.entry n).map Route.attrs, none, none⟩

/-- A part of a command, unless it is left out. -/
def optText (skip : Prop) [Decidable skip] (keyword : String) (value : Str) : Str :=
  if skip then [] else part keyword value

/-- The attributes of a route in a command. -/
def routeArgs (a : RouteAttrs) : Str :=
  part "-net" (a.dst.getD []) ++ part "netmask" (a.mask.getD []) ++
    optText (a.device.getD [] = []) "dev" (a.device.getD []) ++
    optText (a.gateway.getD [] = anyAddr) "gw" (a.gateway.getD []) ++
    optText (a.metric.getD [] = "0".toList) "metric" (a.metric.getD [])

/-- The command that adds a route. -/
def addLine (a : RouteAttrs) : Str := addHead ++ routeArgs a ++ ['\n']

/-- The command that deletes a route. -/
def delLine (a : RouteAttrs) : Str := delHead ++ routeArgs a ++ ['\n']

/-- The line is no comment. -/
def uncommented (l : Str) : Bool := l.head? != some '#'

/-- The command that adds an entry, if it is active. -/
def activeLine : Option RouteAttrs → List Str
  | some a => if a.active = some yes then [addLine a] else []
  | none => []

/-- The commands that add the active routes, in the order of their numbers. -/
def activeLines (cmcc : Bool) (st : RouteState) : List Str :=
  (List.range' 1 (maxStaticRouteNum cmcc)).flatMap fun n => activeLine (st.entry n)

/-- The destination in a line: what follows `-net`, if that is the third field. -/
def lineDst (l : Str) : Option Str :=
  match l.splitOn ' ' with
  | _ :: _ :: net :: dst :: _ => if net = "-net".toList then some dst else none
  | _ => none

/-- `route.sh` has a line for exactly the active routes after the first commit. -/
def BootRight (cmcc : Bool) (env : Env) (R : Routes cmcc) : Prop :=
  ∃ script st lines, routeCommit cmcc env R.start = .ok (script, st) ∧
    st.routeSh = some lines ∧ lines.filter uncommented = activeLines cmcc st

/-- The deletion of the route `n`, with what the web pages and the WANs are like. -/
abbrev Deletion := Env × Nat

/-- A deletion writes the command that deletes the route, if there is one, takes the lines of its
destination out of `route.sh` and reads no token behind the last one. -/
def DeleteRight (cmcc : Bool) (st : RouteState) (d : Deletion) : Prop :=
  ∃ script st', routeDelete cmcc d.1 d.2 st = .ok (script, st') ∧
    match st.entry d.2 with
    | some a => script = some [delLine a] ∧
        st'.routeSh = st.routeSh.map fun lines => lines.filter (lineDst · ≠ a.dst)
    | none => script = none ∧ st'.routeSh = st.routeSh

/-- The state after a deletion; after a fault nothing follows. -/
def deleteStep (cmcc : Bool) (st : RouteState) (d : Deletion) : RouteState :=
  match routeDelete cmcc d.1 d.2 st with
  | .ok r => r.2
  | .error _ => st

/-- The state after the first commit. -/
def booted (cmcc : Bool) (env : Env) (R : Routes cmcc) : RouteState :=
  match routeCommit cmcc env R.start with
  | .ok r => r.2
  | .error _ => R.start

/-- The first commit is right, and then every deletion. -/
def RouteRight (cmcc : Bool) (R : Routes cmcc) (env : Env) (ds : List Deletion) : Prop :=
  BootRight cmcc env R ∧ RunOk (deleteStep cmcc) (DeleteRight cmcc) (booted cmcc env R) ds

/-- The number of the entry that `route_id` stands for. -/
def Env.target (env : Env) : Option Int :=
  if attrText env.routeId 16 [] = [] then none else some (atoi (attrText env.routeId 16 []) + 1)

/-- The device of a route can be used. -/
def DeviceUp (env : Env) (a : RouteAttrs) : Prop :=
  a.device.getD [] = [] ∨ a.device.getD [] = "br0".toList ∨ WanUp env.wan (a.device.getD [])

/-- `route_id` stands for an entry whose device can be used. -/
def Reaches (env : Env) (st : RouteState) (a : RouteAttrs) : Prop :=
  ∃ i, env.target = some i ∧ st.entryAt i = some a ∧ DeviceUp env a

/-- The entry with the highest number is not active, and does not become active because `route_id`
stands for it and it has no `Active`. -/
def BootCond (cmcc : Bool) (env : Env) (R : Routes cmcc) : Prop :=
  ∀ r, R.entry (maxStaticRouteNum cmcc) = some r →
    r.active ≠ some yes ∧ (r.active = none → env.target ≠ some ↑(maxStaticRouteNum cmcc))

/-- When a deletion is right: `route_id` stands for the route that is deleted, its device can be
used, and its destination stands in no line of another route. Where there is no route, `route_id`
must not stand for one whose device can be used. -/
def DeleteCond (st : RouteState) (d : Deletion) : Prop :=
  match st.entry d.2 with
  | some a => d.1.target = some ↑d.2 ∧ DeviceUp d.1 a ∧
      ∀ l ∈ st.routeSh.getD [], hasStr l (a.dst.getD []) = true → lineDst l = a.dst
  | none => ∀ a, ¬ Reaches d.1 st a

end OnuFirmware.StaticRoute
