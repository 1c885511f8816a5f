import AccessPages.Common.Server
import AccessPages.HomeAssistant.Discovery
/-!
# Admin — the routes of a page

`handle_post` and `handle_delete` of a page with the `PolicyPublisher`:
a payload is checked against what Home Assistant offers, the intent to
publish is marked on the disk, the page is stored, and its policy is put
into the policy store. Any step can fail, the gateway can stop between
any two, and a request to the policy store may be applied although its
reply is lost.
-/

namespace AccessPages

namespace Admin

open HomeAssistant (Entity Filters Client Answers)
open Pages (Page PageError validatePageId)

/-! ## The gateway and the policy store -/

/-- The page store, the pages whose policy is marked as pending, and the
policy store. -/
structure World where
  disk : Pages.Disk
  pending : List String
  policies : Table (String × Json) Prod.fst

/-- A new installation. -/
def World.empty : World := ⟨.empty, [], .empty⟩

/-- What a handler raises: an exception of the page store, a
`PolicyPublishError`, or one of the discovery. -/
inductive Failure where
  | page (e : PageError)
  | publish
  | discovery (e : HomeAssistant.Failure)
  deriving DecidableEq, Repr

inductive Op where
  | file (e : Pages.FileOp)
  | openMarker (id : String)
  | syncMarkers
  | unlinkMarker (id : String)
  | listMarkers
  | put (id : String) (policy : Json)
  | remove (id : String)

@[reducible] def Op.Ans : Op → Type
  | file e => e.Ans
  | listMarkers => Except Failure (List String)
  | _ => Except Failure Unit

/-- What an operation meets. One that fails may have been applied. -/
structure Tick where
  file : Pages.Tick
  fault : Bool
  applied : Bool

/-- No test for a file is blind. -/
def Sighted (ts : List Tick) : Prop := ∀ t ∈ ts, t.file.blind = false

instance (ts : List Tick) : Decidable (Sighted ts) :=
  inferInstanceAs (Decidable (∀ t ∈ ts, t.file.blind = false))

/-- What an operation that is no file operation does. -/
def Op.apply : Op → World → World
  | openMarker id, w => { w with pending := if id ∈ w.pending then w.pending else id :: w.pending }
  | unlinkMarker id, w => { w with pending := w.pending.filter (· ≠ id) }
  | put id policy, w => { w with policies := w.policies.insertOrReplace (id, policy) }
  | remove id, w => { w with policies := w.policies.deleteWhere fun r => r.1 = id }
  | _, w => w

/-- An operation on a marker, or a request to the policy store. -/
def Op.settle (t : Tick) (error : Failure) (e : Op) (w : World) : Except Failure Unit × World :=
  if t.fault then (.error error, if t.applied then e.apply w else w) else (.ok (), e.apply w)

def Op.step (t : Tick) : (e : Op) → World → e.Ans × World
  | file e, w => ((e.step ⟨w.disk, [t.file]⟩).1, { w with disk := (e.step ⟨w.disk, [t.file]⟩).2.disk })
  | openMarker id, w => (openMarker id).settle t (.page .os) w
  | syncMarkers, w => syncMarkers.settle t (.page .os) w
  | unlinkMarker id, w => (unlinkMarker id).settle t (.page .os) w
  | listMarkers, w => (if t.fault then .error (.page .os) else .ok w.pending, w)
  | put id policy, w => (put id policy).settle t .publish w
  | remove id, w => (remove id).settle t .publish w

abbrev AdminM := ExceptT Failure (Prog Op Op.Ans)

/-- A method of the page store. -/
def store {α : Type} (x : Pages.FileM α) : AdminM α :=
  ExceptT.mk ((x.run.expand fun e => Prog.call (.file e)) >>= fun r => Prog.ret (r.mapError .page))

/-- A block with an `except` clause. -/
def attempt {α : Type} (x : AdminM α) : AdminM (Except Failure α) :=
  ExceptT.mk (x.run >>= fun r => Prog.ret (.ok r))

/-! ## PolicyPublisher -/

/-- The gateway's configuration: its client of Home Assistant, and whether
there is a policy store. -/
structure Config where
  client : Client
  configured : Bool

section Publisher

variable [Python] (cfg : Config)

/-- The identifier in the name of a marker. -/
def markerId (id : String) : AdminM String :=
  ExceptT.mk (Prog.ret (((validatePageId (.str id)).map Subtype.val).mapError .page))

/-- `_mark`. -/
def mark (id : String) : AdminM Unit :=
  if cfg.configured then do
    let id ← markerId id
    (ExceptT.mk (Prog.call (Op.openMarker id)) : AdminM Unit)
    (ExceptT.mk (Prog.call Op.syncMarkers) : AdminM Unit)
  else return ()

/-- `prepare`. -/
def prepare (id : String) : AdminM Unit := do
  match ← attempt (mark cfg id) with
  | .ok _ => return ()
  | .error (.page .os) => throw .publish
  | .error e => throw e

/-- `_clear`. The policy was acknowledged; a marker that stays is published
again. -/
def clear (id : String) : AdminM Unit :=
  if cfg.configured then do
    match ← attempt (do
      let id ← markerId id
      (ExceptT.mk (Prog.call (Op.unlinkMarker id)) : AdminM Unit)
      (ExceptT.mk (Prog.call Op.syncMarkers) : AdminM Unit) : AdminM Unit) with
    | .ok _ => return ()
    | .error (.page .os) => return ()
    | .error e => throw e
  else return ()

/-- The policy of a page: the page without its grants. -/
def policyOf (page : Page) : Json := { page with accessGrants := [] }.toJson

/-- `publish`. -/
def publish (page : Page) : AdminM Unit := do
  prepare cfg page.id
  if cfg.configured then (ExceptT.mk (Prog.call (Op.put page.id (policyOf page))) : AdminM Unit)
  clear cfg page.id

/-- `PolicyPublisher.delete`. -/
def deletePolicy (id : String) : AdminM Unit := do
  prepare cfg id
  if cfg.configured then (ExceptT.mk (Prog.call (Op.remove id)) : AdminM Unit)
  clear cfg id

end Publisher

/-! ## What a page may use -/

section Policy

variable [Python]

/-- `for item in value`. -/
def iterate : Json → Except PyError (List Json)
  | .arr items => .ok items
  | .obj fields => .ok (fields.map fun f => .str f.1)
  | .str s => .ok (s.toList.map fun c => .str (String.ofList [c]))
  | _ => .error .typeError

/-- `{str(action["service"]): str(action["name"])}` of an entity, with the
read-only action besides. -/
def allowedName (e : Entity) (service : String) : Option String :=
  ((e.actions.reverse ++ [("view", "Display")]).lookup service)

/-- An action has the service it is named after, under the name it is offered
by. -/
def checkAction (entityId domain : String) (e : Entity) : Json → Except PageError Unit
  | .obj raw =>
      let actionId := Json.text raw "id" ""
      let service := Json.text raw "service" ""
      let name := Json.text raw "name" ""
      if allowedName e service ≠ some name ∨ actionId ≠ service then
        .error (.config ("Action is unavailable under the gateway policy: " ++ domain ++ "." ++
          (if service = "" then actionId else service)))
      else .ok ()
  | _ => .error (.config ("Invalid action for " ++ entityId))

def checkActions (entityId domain : String) (e : Entity) : List Json → Except PageError Unit
  | [] => .ok ()
  | raw :: rest => do
      checkAction entityId domain e raw
      checkActions entityId domain e rest

/-- A resource whose entity is discovered and allowed. What is no object is
left to the validation of the page. -/
def checkResource (f : Filters) (entities : List Entity) : Json → Except PageError Unit
  | .obj raw =>
      let entityId := Json.text raw "entity_id" ""
      let domain := Json.text raw "domain" ""
      match entities.reverse.find? (·.entityId = entityId) with
      | none => .error (unavailable entityId)
      | some e =>
          if domain ≠ e.domain ∨ f.entityAllowed entityId domain e.deviceClass e.areaId = false then
            .error (unavailable entityId)
          else
            match iterate (Json.getD raw "actions" (.arr [])) with
            | .error error => .error (.python error)
            | .ok actions => checkActions entityId domain e actions
  | _ => .ok ()
where
  unavailable (entityId : String) : PageError :=
    .config ("Entity is unavailable under the gateway policy: " ++ entityId)

def checkResources (f : Filters) (entities : List Entity) : List Json → Except PageError Unit
  | [] => .ok ()
  | raw :: rest => do
      checkResource f entities raw
      checkResources f entities rest

/-- `_validate_entity_policy`. A payload without resources asks for no
discovery. -/
def validateEntityPolicy (c : Client) (a : Answers) : Json → Except Failure Unit
  | .obj fields =>
      let resources := Json.getD fields "resources" (.arr [])
      if !resources.truthy then .ok ()
      else
        match c.discover a with
        | .error e => .error (.discovery e)
        | .ok entities =>
            match iterate resources with
            | .error e => .error (.page (.python e))
            | .ok raws => (checkResources c.filters entities raws).mapError .page
  | _ => .error (.page (.python .attributeError))

end Policy

/-! ## The handlers -/

section Handlers

variable [Python] (cfg : Config)

/-- The policy of a page that was stored is published, or what was stored is
taken back. -/
def publishOr (page : Page) (rollback : AdminM Unit) : AdminM Unit := do
  match ← attempt (publish cfg page) with
  | .ok _ => return ()
  | .error .publish => do
      rollback
      throw .publish
  | .error e => throw e

/-- `str(payload.get("id", "")).strip()`. -/
def payloadId : Json → String
  | .obj fields => Json.text fields "id" ""
  | _ => ""

/-- A page that is accepted and stored. -/
def acceptPage (a : Answers) (payload : Json) : AdminM Page := do
  ExceptT.mk (Prog.ret (validateEntityPolicy cfg.client a payload))
  prepare cfg (payloadId payload)
  store (Pages.create payload)

/-- `POST /api/admin/pages`. -/
def createPage (a : Answers) (payload : Json) : AdminM Page := do
  let page ← acceptPage cfg a payload
  publishOr cfg page (store (Pages.delete page.id))
  return page

/-- An edit that is accepted and stored, with the page as it was. -/
def acceptEdit (a : Answers) (id : String) (payload : Json) : AdminM (Page × Page) := do
  ExceptT.mk (Prog.ret (validateEntityPolicy cfg.client a payload))
  let previous ← store (Pages.loadUnlocked id)
  prepare cfg id
  return (previous, ← store (Pages.update id payload))

/-- `POST /api/admin/pages/ID`. -/
def editPage (a : Answers) (id : String) (payload : Json) : AdminM Page := do
  let (previous, page) ← acceptEdit cfg a id payload
  publishOr cfg page (do let _ ← store (Pages.replaceUnlocked id previous.toJson))
  return page

/-- `DELETE /api/admin/pages/ID`, up to what other stores keep of the page's
guests. The local deletion stands even if the policy store cannot be
reached. -/
def deletePage (id : String) : AdminM Unit := do
  let _ ← store (Pages.loadUnlocked id)
  prepare cfg id
  store (Pages.delete id)
  match ← attempt (deletePolicy cfg id) with
  | .ok _ => return ()
  | .error .publish => return ()
  | .error e => throw e

/-- One page of `retry_pending_policies`. -/
def retryPolicy (id : String) : AdminM Unit := do
  match ← attempt (store (Pages.loadUnlocked id)) with
  | .ok page => publish cfg page
  | .error (.page (.notFound _)) => deletePolicy cfg id
  | .error e => throw e

def retryPolicies : List String → AdminM Unit
  | [] => return ()
  | id :: ids => do
      retryPolicy cfg id
      retryPolicies ids

/-- `retry_pending_policies`. -/
def retryPendingPolicies : AdminM Unit := do
  retryPolicies cfg (← (ExceptT.mk (Prog.call Op.listMarkers) : AdminM (List String)))

end Handlers

end Admin

end AccessPages
