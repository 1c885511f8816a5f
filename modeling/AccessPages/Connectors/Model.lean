import AccessPages.Common.Prog
import AccessPages.Common.Python
/-!
# Connectors — the runtime identity of a page

`_reconcile_page_connectors` of the app runner. Each page has an endpoint
process with a user of its own and a loopback address of its own. Which
page has which is kept in two files: the registry holds the pages that are
published, the history those that were. A pass reads both, gives every
page on the list its identity and writes both, the history first.
-/

namespace AccessPages

namespace Connectors

/-! ## Dictionaries -/

/-- `d[key] = value`: the value is replaced in its place, or comes last. -/
def put (d : List (String × Json)) (key : String) (value : Json) : List (String × Json) :=
  if d.any (·.1 = key) then d.map fun f => if f.1 = key then (key, value) else f
  else d ++ [(key, value)]

/-- `{**d, **e}`. -/
def merge (d e : List (String × Json)) : List (String × Json) :=
  e.foldl (fun d f => put d f.1 f.2) d

/-- `isinstance(value, int)`, and which. -/
def int? : Json → Option Int
  | .bool b => some (if b then 1 else 0)
  | .int n => some n
  | _ => none

/-! ## Identities -/

/-- What is raised on the way. -/
inductive Exc where
  /-- "Could not read page connector registry". -/
  | registry
  /-- "Could not read page connector history". -/
  | history
  /-- "Invalid page connector runtime identity". -/
  | invalid
  /-- "Duplicate page connector runtime identity". -/
  | duplicate
  /-- "No page connector runtime identities remain". -/
  | exhausted
  /-- `KeyError` or `TypeError`. -/
  | python
  /-- Whatever the page store raises. -/
  | pages
  deriving DecidableEq, Repr

/-- `PAGE_CONNECTOR_UID_MIN`. -/
def uidMin : Int := 22000

/-- `PAGE_CONNECTOR_UID_MAX`. -/
def uidMax : Int := 22999

/-- `PAGE_ENDPOINT_UID_OFFSET`. -/
def endpointUidOffset : Int := 1000

/-- `_page_connector_target_ip`. -/
def pageConnectorTargetIp (runtimeUid : Int) : Except Exc String :=
  let offset := runtimeUid - uidMin
  if ¬ (0 ≤ offset ∧ offset ≤ uidMax - uidMin) then .error .invalid
  else .ok ("127.77." ++ toString (offset / 250) ++ "." ++ toString (offset % 250 + 1))

/-- One entry of `owner_by_uid`. -/
def claimUid (ownerByUid : List (Int × String)) (item : String × Json) :
    Except Exc (List (Int × String)) :=
  match item.2 with
  | .obj entry =>
      match Json.get? entry "runtime_uid" with
      | none => .ok ownerByUid
      | some uid =>
          match int? uid, int? (Json.getD entry "runtime_gid" uid) with
          | some uid, some gid =>
              if uid < uidMin ∨ uidMax < uid ∨ gid ≠ uid then .error .invalid
              else match ownerByUid.lookup uid with
                | none => .ok ((uid, item.1) :: ownerByUid)
                | some prior => if prior ≠ item.1 then .error .duplicate else .ok ownerByUid
          | _, _ => .error .invalid
  | _ => .ok ownerByUid

/-- `previous.get(page_id) or history.get(page_id) or {}`. -/
def existingEntry (pageId : String) (previous history : List (String × Json)) : Json :=
  let found := fun d => (Json.get? d pageId).filter Json.truthy
  ((found previous).or (found history)).getD (.obj [])

/-- `existing["runtime_uid"]`, if it is `in existing`. -/
def existingUid : Json → Except Exc (Option Int)
  | .obj entry =>
      match Json.get? entry "runtime_uid" with
      | none => .ok none
      | some uid => (int? uid).elim (.error .invalid) fun uid => .ok (some uid)
  | .str s => if (s.splitOn "runtime_uid").length = 1 then .ok none else .error .python
  | .arr items =>
      if items.any fun | .str s => s = "runtime_uid" | _ => false then .error .python else .ok none
  | _ => .error .python

/-- `range(PAGE_CONNECTOR_UID_MIN, PAGE_CONNECTOR_UID_MAX + 1)`. -/
def uids : List Int := (List.range 1000).map fun n : Nat => uidMin + n

/-- `_page_connector_identity`; the group is the user's. -/
def pageConnectorIdentity (pageId : String) (previous history : List (String × Json)) :
    Except Exc Int := do
  let ownerByUid ← (history ++ previous).foldlM claimUid []
  match ← existingUid (existingEntry pageId previous history) with
  | some uid => .ok uid
  | none =>
      match uids.find? fun uid => (ownerByUid.lookup uid).isNone with
      | some uid => .ok uid
      | none => .error .exhausted

/-- The entry of a published page. -/
def registryEntry (uid : Int) (targetIp : String) : Json :=
  .obj [("runtime_uid", .int uid), ("runtime_gid", .int uid), ("target_ip", .str targetIp)]

/-- The entry of one that was. -/
def historyEntry (uid gid : Json) : Json := .obj [("runtime_uid", uid), ("runtime_gid", gid)]

/-- A page of the list gets its identity. -/
def publish (previous history entries : List (String × Json)) (pageId : String) :
    Except Exc (List (String × Json)) := do
  let uid ← pageConnectorIdentity pageId (merge previous entries) history
  let targetIp ← pageConnectorTargetIp uid
  return put entries pageId (registryEntry uid targetIp)

/-- A page that is no longer on the list is remembered. -/
def remember (entries history : List (String × Json)) (item : String × Json) :
    Except Exc (List (String × Json)) :=
  if entries.any (·.1 = item.1) then .ok history
  else match item.2 with
    | .obj entry =>
        match Json.get? entry "runtime_uid", Json.get? entry "runtime_gid" with
        | some uid, some gid => .ok (put history item.1 (historyEntry uid gid))
        | _, _ => .error .python
    | _ => .error .python

/-! ## The files -/

/-- The two files, as `json.loads` reads them, and what the page store lists. -/
structure World where
  registry : Option Json
  history : Option Json
  pages : Except Exc (List String)

/-- What a pass does to the outside. -/
inductive Op where
  | readRegistry
  | readHistory
  | listPages
  | writeHistory (history : List (String × Json))
  | writeRegistry (entries : List (String × Json))
  | writeStatus (total : Nat)

def Op.Res : Op → Type
  | readRegistry => Option Json
  | readHistory => Option Json
  | listPages => Except Exc (List String)
  | writeHistory _ => Unit
  | writeRegistry _ => Unit
  | writeStatus _ => Unit

def Op.step : (e : Op) → World → e.Res × World
  | readRegistry, w => (w.registry, w)
  | readHistory, w => (w.history, w)
  | listPages, w => (w.pages, w)
  | writeHistory history, w => ((), { w with history := some (.obj history) })
  | writeRegistry entries, w =>
      ((), { w with registry := some (.obj [("version", .int 1), ("pages", .obj entries)]) })
  | writeStatus _, w => ((), w)

/-- `_read_page_connector_registry`. -/
def readPageConnectorRegistry : Option Json → Except Exc (List (String × Json))
  | none => .ok []
  | some (.obj payload) =>
      match Json.getD payload "pages" (.obj []) with
      | .obj pages => .ok pages
      | _ => .error .registry
  | some _ => .error .registry

/-- `_read_page_connector_history`. A number is what an older version kept. -/
def readPageConnectorHistory : Option Json → Except Exc (List (String × Json))
  | none => .ok []
  | some (.obj payload) => .ok (payload.filterMap fun item =>
      match item.2 with
      | .obj entry => some (item.1, .obj entry)
      | value =>
          match int? value with
          | some n => if 0 ≤ n then some (item.1, .obj [("generation", value)]) else none
          | none => none)
  | some _ => .error .history

/-- A pass in progress. -/
abbrev ConnectorM := ExceptT Exc (Prog Op Op.Res)

def ask (e : Op) : ConnectorM e.Res := ExceptT.lift (Prog.call e)

/-- `_reconcile_page_connectors`. An exception of the file system leaves the
files as a crash at that point does. -/
def reconcilePageConnectors : ConnectorM (List (String × Json)) := do
  let previous ← liftM (readPageConnectorRegistry (← ask .readRegistry))
  let history ← liftM (readPageConnectorHistory (← ask .readHistory))
  let pages ← liftM (← ask .listPages : Except Exc (List String))
  let entries ← liftM (pages.foldlM (publish previous history) [])
  let history ← liftM (previous.foldlM (remember entries) history)
  ask (.writeHistory history)
  ask (.writeRegistry entries)
  ask (.writeStatus entries.length)
  return entries

end Connectors

end AccessPages
