import AccessPages.LayerV.Model
/-!
# LayerV — owned resources and their invitations

`layerv.py` and `guest_resources.py`: the client of the management API as
far as the broker uses it, the phases of `GuestResources`, and the journal
of invitations on page pools. The lock of `GuestResources` makes its
methods follow one another; a transaction is one question.
-/

namespace AccessPages

namespace LayerV

open Pages (UpstreamScope pageIdRe grantIdRe)

/-- How the broker is set up. What the publisher can do besides publishing
is read from it with `getattr`. -/
structure Config where
  installationId : String
  sha256 : String → String
  nativeRetirement : Bool
  hasCleanup : Bool
  hasEnsureReady : Bool
  gatewayGrantsDir : Bool
  resourceId : String
  maxDays : Nat
  isLoopback : String → Bool

/-- A `LayerVError` with nothing but a message. -/
def layerVError (message : String) : Failure := .layerV message none none

/-- The outcome of a block with an `except` clause. -/
def attempt {α : Type} (x : BrokerM α) : BrokerM (Except Failure α) := ExceptT.mk do
  return .ok (← x.run)

/-! ## The management API -/

/-- A `LayerVClient` for one resource. -/
structure Client where
  resourceId : String
  resourcePublicKey : String
  resourceScope : UpstreamScope
  deriving DecidableEq, Repr

/-- `LayerVClient(...)`, which strips its identifiers. -/
def Client.new (resourceId resourcePublicKey : String) (resourceScope : UpstreamScope) : Client :=
  ⟨strip resourceId, strip resourcePublicKey, resourceScope⟩

/-- What `create_qurl` returns, as far as the broker reads it. -/
structure QurlResult where
  qurlId : String
  resourceId : String
  resourceCrid : Option String
  upstreamScope : Option UpstreamScope
  deriving DecidableEq, Repr

/-- The effective expiry is aware, in the future and within the lifetime. -/
def expiryConfirmed (wanted : Wanted) (data : Minted) : Bool :=
  match data.expiresAt with
  | some (.aware deadline) =>
      data.requestedAt < deadline ∧
        deadline ≤ data.requestedAt + second * wanted.lifetimeSeconds + 5 * second
  | _ => false

/-- What the reply to a new invitation must confirm. -/
def checkMinted (client : Client) (wanted : Wanted) (data : Minted) : Except Failure Unit :=
  let expected :=
    if client.resourcePublicKey = "" then client.resourceId else client.resourcePublicKey
  if data.qurlLink = "" then .error (layerVError "LayerV response did not contain a qURL link")
  else if data.targetPath ≠ wanted.targetPath then
    .error (layerVError "LayerV did not confirm the requested target path")
  else if data.resourceId ≠ expected then
    .error (layerVError "LayerV response resource does not match the request")
  else if expiryConfirmed wanted data then .ok ()
  else .error (layerVError "LayerV returned an invalid effective expiry")

/-- The inventory lists the invitation with the settings that were asked
for. -/
def settingsConfirmed (wanted : Wanted) (qurlId : String) (rows : List Invitation) : Bool :=
  match rows.find? (·.qurlId = qurlId) with
  | some row => row.oneTimeUse = wanted.oneTimeUse ∧ row.sessionDuration = wanted.sessionSeconds ∧
      row.targetPath = wanted.targetPath
  | none => false

/-- The settings are read back from the inventory, where the resource has a
public key. -/
def confirmSettings (client : Client) (wanted : Wanted) (qurlId : String) : BrokerM Unit :=
  if client.resourcePublicKey = "" then return ()
  else do
    let rows ← ask (.listQurls client.resourceId)
    if settingsConfirmed wanted qurlId rows then return ()
    else throw (.layerV "LayerV did not confirm effective invitation settings" (some 503) (some 2))

/-- `create_qurl`. -/
def createQurl (client : Client) (page grantId : String) (wanted : Wanted) :
    BrokerM QurlResult := do
  if client.resourceId = "" then
    throw (layerVError ("LayerV API is not configured. Set " ++
      "LAYERV_API_TOKEN and LAYERV_RESOURCE_ID."))
  else do
    let data ← ask (.mint client.resourceId client.resourceScope page grantId wanted)
    let _ ← (liftM (checkMinted client wanted data) : BrokerM Unit)
    confirmSettings client wanted data.qurlId
    if client.resourcePublicKey = "" then return ⟨data.qurlId, data.resourceId, none, none⟩
    else return ⟨data.qurlId, data.resourceId, some client.resourceId, some client.resourceScope⟩

/-- `delete_qurl`. -/
def deleteQurl (clientResource resource qurlId : String) : BrokerM Bool :=
  let effective := strip (if resource = "" then clientResource else resource)
  if effective = "" ∨ strip qurlId = "" then
    throw (layerVError "LayerV resource ID and qURL ID are required")
  else ask (.deleteQurl effective (strip qurlId))

/-- `delete_resource`. -/
def deleteResource (crid : String) : BrokerM Bool :=
  if strip crid = "" then
    throw (layerVError "LayerV management credential and resource CRID are required")
  else ask (.deleteResource (strip crid))

/-! ## GuestResources -/

/-- `[a-z2-7]{40,128}`. -/
def cridRe (s : String) : Bool :=
  matchesClass (fun c => c.isLower || ('2' ≤ c && c ≤ '7')) 40 128 s.toList

section GuestResources

variable (cfg : Config)

/-- The stable identifier a resource is published under. -/
def connectorId (isolation : UpstreamScope) (page owner : String) (generation : Nat) : String :=
  let seed := cfg.installationId ++ "\x00" ++ page ++ "\x00" ++ owner ++
    if isolation = .page ∧ generation ≠ 0 then "\x00" ++ toString generation else ""
  "ha-" ++ isolation.name ++ "-" ++ slice (cfg.sha256 seed) 40

/-- Whose resource it is: the grant's, or the pool of the page. -/
def ownerId (grantId : String) : UpstreamScope → String
  | .guest => grantId
  | .page => "__page__"

/-- The generation of a page pool, and its binding unless that was revoked:
then it is put away and a new one begins. -/
def pageGeneration (isolation : UpstreamScope) (page : String) (binding : Option Resource) :
    BrokerM (Nat × Option Resource) :=
  match isolation with
  | .guest => return (0, binding)
  | .page =>
      if binding.any (·.phase = .revoked) then do
        return (← askRegistry (.generation page true), none)
      else do
        return (← askRegistry (.generation page false), binding)

/-- The row of a resource, recorded before it is published. -/
def allocate (isolation : UpstreamScope) (page owner target : String) (generation : Nat) :
    BrokerM Resource := do
  askRegistry (.insert page owner (connectorId cfg isolation page owner generation) target)
  match ← askRegistry (.binding page owner) with
  | some r => return r
  | none => throw (.python .typeError)

/-- The identity the publisher confirms, if it is serving. -/
def confirmedIdentity (target : String) (reply : Published) : Option (String × String) :=
  match reply.crid, reply.resourceId with
  | some crid, some publicKey =>
      if cridRe crid ∧ publicKey ≠ "" ∧ publicKey ≠ crid ∧ reply.targetUrl = some target ∧
        reply.status = some "serving" then some (crid, publicKey) else none
  | _, _ => none

/-- A CRID that is taken is a `LayerVError`. -/
def bindIdentity (page owner crid publicKey : String) : BrokerM Unit := do
  match ← attempt (askRegistry (.bind page owner crid publicKey)) with
  | .ok _ => return ()
  | .error (.integrity _) =>
      throw (layerVError "Connector resource is already bound to another guest")
  | .error e => throw e

/-- Publish a resource that is being created. The stable identifier lets an
interrupted publication be resumed. -/
def publishResource (page owner target connectorId : String) : BrokerM (String × String) := do
  match confirmedIdentity target (← ask (.publish connectorId target)) with
  | none =>
      throw (layerVError "Connector did not confirm the guest resource identity and readiness")
  | some (crid, publicKey) => do
      bindIdentity page owner crid publicKey
      return (crid, publicKey)

/-- The identity of a resource that is not retired. -/
def identity (page owner target : String) (r : Resource) : BrokerM (String × String) :=
  match r.phase, r.crid, r.publicKey with
  | .creating, _, _ => publishResource page owner target r.connectorId
  | .ready, some crid, some publicKey => return (crid, publicKey)
  | .ready, _, _ => throw (.python .attributeError)
  | .retiring, _, _ => throw (layerVError "Guest resource is revoked")
  | .revoked, _, _ => throw (layerVError "Guest resource is revoked")

/-- `ensure_ready`, where the publisher has it. -/
def ensureReady (publicKey : String) : BrokerM Unit :=
  if cfg.hasEnsureReady then ask (.ensureReady publicKey) else return ()

/-- The row there is, or a new one. -/
def bindingOrNew (isolation : UpstreamScope) (page owner target : String) (generation : Nat) :
    Option Resource → BrokerM Resource
  | some r => return r
  | none => allocate cfg isolation page owner target generation

/-- `ensure`. -/
def ensure (page grantId target : String) (isolation : UpstreamScope) : BrokerM Client := do
  if pageIdRe page = false ∨ grantIdRe grantId = false then
    throw (layerVError "Invalid guest resource binding")
  else do
    let owner := ownerId grantId isolation
    let binding ← askRegistry (.binding page owner)
    let (generation, binding) ← pageGeneration isolation page binding
    let r ← bindingOrNew cfg isolation page owner target generation binding
    if r.target ≠ target then
      throw (layerVError "Guest resource target changed; reconciliation is required")
    else do
      let (crid, publicKey) ← identity page owner target r
      ensureReady cfg publicKey
      return .new crid publicKey isolation

/-- Deleted by the management credential; the native cache is cleaned up
after that. -/
def deleteThenCleanup (crid : String) : BrokerM Bool := do
  let alreadyMissing ← deleteResource crid
  ask (.cleanup crid)
  return alreadyMissing

/-- The deletion upstream of a resource that is being retired. An old
identity, or a failed native retirement, falls back on the management
credential. -/
def retireUpstream (oldIdentity : Bool) (crid : String) : BrokerM Bool :=
  if oldIdentity then deleteResource crid
  else if cfg.nativeRetirement then do
    match ← attempt (ask (.cleanup crid)) with
    | .ok _ => return false
    | .error (.layerV ..) => deleteThenCleanup crid
    | .error e => throw e
  else if cfg.hasCleanup then deleteThenCleanup crid
  else deleteResource crid

/-- `revoke`. -/
def revoke (page grantId expectedCrid qurlId : String) : BrokerM Bool := do
  let mismatch := layerVError "Guest resource does not match its private binding"
  match ← askRegistry (.binding page grantId) with
  | none => throw mismatch
  | some r =>
      if r.crid ≠ some expectedCrid then throw mismatch
      else if r.phase = .revoked then return true
      else do
        askRegistry (.beginRetire page grantId expectedCrid qurlId)
        let oldIdentity ← askRegistry (.managementOnly page grantId)
        let alreadyMissing ← retireUpstream cfg oldIdentity expectedCrid
        askRegistry (.finishRetire page grantId)
        return alreadyMissing

/-- `revoke_owned`. -/
def revokeOwned (page grantId : String) : BrokerM Bool := do
  match ← askRegistry (.binding page grantId) with
  | none => return true
  | some r =>
      match r.crid.filter (· ≠ "") with
      | none => throw (.layerV "Resource allocation recovery is pending" (some 503) (some 5))
      | some crid => revoke cfg page grantId crid ""

def drainRetirementRows : List Retirement → BrokerM Unit
  | [] => return ()
  | q :: qs => do
      match ← attempt (revoke cfg q.page q.grantId q.crid "") with
      | .ok _ => drainRetirementRows qs
      | .error (.layerV _ _ retryAfter) => do
          askRegistry (.postponeRetirement q.page q.grantId
            (retryAfter.getD (min 3600 (2 ^ min (q.attempts + 1) 12))))
          drainRetirementRows qs
      | .error e => throw e

/-- `drain_retirements`. -/
def drainRetirements : BrokerM Unit := do
  drainRetirementRows cfg (← askRegistry .selectRetirements)

/-- The CRID of an orphan. A resource whose publication was interrupted is
published again to learn it. -/
def orphanCrid (r : Resource) : BrokerM String :=
  match r.phase with
  | .creating => do return (← ensure cfg r.page r.grantId r.target .guest).resourceId
  | _ => return r.crid.getD ""

def retireOrphan (r : Resource) : BrokerM Unit := do
  let crid ← orphanCrid cfg r
  let _ ← revoke cfg r.page r.grantId crid ""

/-- One scan; a rate limit ends it. -/
def retireOrphanRows (mappingExists : String → String → BrokerM Bool) :
    List Resource → BrokerM Unit
  | [] => return ()
  | r :: rs => do
      if ← mappingExists r.page r.grantId then retireOrphanRows mappingExists rs
      else do
        match ← attempt (retireOrphan cfg r) with
        | .ok _ => retireOrphanRows mappingExists rs
        | .error (.layerV _ status retryAfter) => do
            let rateLimited : Bool := status = some 429
            let floor : Int := if rateLimited then 60 else 5
            askRegistry (.postponeOrphan r.page r.grantId
              (max (retryAfter.getD 0) (min 3600 (floor * 2 ^ min r.recoveryAttempts 10)))
              rateLimited)
            if rateLimited then return () else retireOrphanRows mappingExists rs
        | .error e => throw e

/-- `retire_orphans`. -/
def retireOrphans (mappingExists : String → String → BrokerM Bool) : BrokerM Unit := do
  match ← askRegistry (.selectOrphans 300) with
  | none => return ()
  | some rows => retireOrphanRows cfg mappingExists rows

def retirePoolRows (pageExists : String → BrokerM Bool) : List Resource → BrokerM Unit
  | [] => return ()
  | r :: rs => do
      if ← pageExists r.page then retirePoolRows pageExists rs
      else do
        match ← attempt (revoke cfg r.page "__page__" (r.crid.getD "") "") with
        | .ok _ => retirePoolRows pageExists rs
        | .error (.layerV ..) => retirePoolRows pageExists rs
        | .error e => throw e

/-- `retire_deleted_page_pools`. -/
def retireDeletedPagePools (pageExists : String → BrokerM Bool) : BrokerM Unit := do
  retirePoolRows cfg pageExists (← askRegistry .selectPools)

/-- `invalidate_for_reset`. -/
def invalidateForReset : BrokerM Unit := askRegistry .invalidate

/-! ## PendingInvitations -/

/-- The label an invitation on a page pool is minted under. -/
def mintLabel (page grantId resource : String) : String :=
  "ha-invite-" ++ cfg.sha256 (resource ++ "\x00" ++ page ++ "\x00" ++ grantId)

/-- `prepare`. -/
def prepareMint (page grantId resource : String) : BrokerM String := do
  ask (.prepareMint page grantId resource (mintLabel cfg page grantId resource))
  return mintLabel cfg page grantId resource

/-- `q_[0-9a-f]{11}`. -/
def qurlIdRe (s : String) : Bool :=
  s.toList.take 2 = "q_".toList &&
    matchesClass (fun c => c.isDigit || ('a' ≤ c && c ≤ 'f')) 11 11 (s.toList.drop 2)

/-- Delete the invitations with a label. -/
def deleteLabelled (resource label : String) : List Invitation → BrokerM Unit
  | [] => return ()
  | i :: is =>
      if i.label ≠ label then deleteLabelled resource label is
      else if qurlIdRe i.qurlId = false then
        throw (layerVError "LayerV returned an invalid orphan invitation identifier")
      else do
        let _ ← deleteQurl cfg.resourceId resource i.qurlId
        deleteLabelled resource label is

def retireMint (m : Mint) : BrokerM Unit := do
  deleteLabelled cfg m.resource m.label (← ask (.listQurls m.resource))

def drainMints (mappingExists : String → String → BrokerM Bool) : List Mint → BrokerM Unit
  | [] => return ()
  | m :: ms => do
      if ← mappingExists m.page m.grantId then do
        ask (.completeMint m.page m.grantId)
        drainMints mappingExists ms
      else do
        match ← attempt (retireMint cfg m) with
        | .ok _ => do
            ask (.completeMint m.page m.grantId)
            drainMints mappingExists ms
        | .error (.layerV _ _ retryAfter) => do
            ask (.postponeMint m.page m.grantId
              (retryAfter.getD (min 3600 (2 ^ min (m.attempts + 1) 12))))
            drainMints mappingExists ms
        | .error e => throw e

/-- `PendingInvitations.drain`. -/
def drainInvitations (mappingExists : String → String → BrokerM Bool) : BrokerM Unit := do
  drainMints cfg mappingExists (← ask .selectMints)

end GuestResources

end LayerV

end AccessPages
