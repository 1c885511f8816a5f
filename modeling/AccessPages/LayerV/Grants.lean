import AccessPages.LayerV.Resources
/-!
# LayerV — the broker of grants

`layerv_broker.py`: creating a grant, deleting one, deferring a deletion,
and the reconciliation that runs in the background. `STORE_LOCK` makes
these follow one another, except for the row another thread's
`queue_revocation` inserts and for what the gateway does; both may happen
before any question. `run` sets `GUEST_RESOURCES` before it serves.
-/

namespace AccessPages

namespace LayerV

open Pages (UpstreamScope grantIdRe isTokenChar)

/-! ## Checks -/

/-- A number without leading zeros, of at most so many digits, and a unit:
the seconds it stands for. -/
def duration? (maxDigits : Nat) (unit : Char → Option Int) (s : String) : Option Int :=
  match s.toList.reverse with
  | [] => none
  | u :: ds =>
      let ds := ds.reverse
      match unit u, digits? ds with
      | some seconds, some n =>
          if ds.head? ≠ some '0' ∧ ds.length ≤ maxDigits then some (n * seconds) else none
      | _, _ => none

/-- The units of `LIFETIME`. -/
def lifetimeUnit (c : Char) : Option Int :=
  [('m', 60), ('h', 3600), ('d', 86400), ('w', 604800)].lookup c

/-- The units of a session. -/
def sessionUnit (c : Char) : Option Int := [('s', 1), ('m', 60), ('h', 3600)].lookup c

/-- `_lifetime`, in seconds. -/
def lifetime (cfg : Config) (value : String) : Except Failure Int :=
  match duration? 5 lifetimeUnit (Pages.lower (strip value)) with
  | none => .error (.policy "Invalid qURL lifetime" 400)
  | some seconds =>
      if 86400 * cfg.maxDays < seconds then
        .error (.policy "qURL lifetime exceeds configured maximum" 400)
      else .ok seconds

/-- `SAFE_ID`. -/
def safeId (s : String) : Bool := matchesClass isTokenChar 1 160 s.toList

/-- The check of `_grant_file`. -/
def grantFile (page grantId : String) : Except Failure Unit :=
  if safeId page ∧ safeId grantId then .ok ()
  else .error (.policy "Invalid page or grant ID" 400)

/-- The route grammar of `_target_path`. -/
def targetPathRe (page path : String) : Bool :=
  let lead := ("/g/" ++ page ++ "/").toList
  let rest := path.toList.drop lead.length
  path.toList.take lead.length = lead && grantIdRe (String.ofList (rest.take 22)) &&
    (rest.drop 22).take 12 = "/?bootstrap=".toList &&
      matchesClass isTokenChar 43 43 (rest.drop 34)

/-- What `create_grant` is asked for. -/
structure CreateRequest where
  pageId : String
  grantId : String
  label : String
  expiresIn : String
  targetPath : String
  oneTimeUse : Bool
  sessionDuration : String
  deriving DecidableEq, Repr

/-- The checks of `create_grant` before it takes the lock: what the
invitation has to be. -/
def checkCreate (cfg : Config) (r : CreateRequest) : Except Failure Wanted := do
  let lifetimeSeconds ← lifetime cfg r.expiresIn
  if targetPathRe r.pageId r.targetPath = false then
    throw (.policy "Invalid user-bound target path" 400)
  else if ("/g/" ++ r.pageId ++ "/" ++ r.grantId ++ "/").toList.isPrefixOf r.targetPath.toList =
      false then
    throw (.policy "Target path does not match the invitation" 400)
  else do
    let seconds := (duration? 6 sessionUnit r.sessionDuration).getD 0
    if ¬(1 ≤ seconds ∧ seconds ≤ min 86400 lifetimeSeconds) ∨
        (r.oneTimeUse = true ∧ 86400 < lifetimeSeconds) then
      throw (.policy "Invalid admission duration for the guest lifetime" 400)
    else do
      grantFile r.pageId r.grantId
      return ⟨r.label, lifetimeSeconds, r.targetPath, r.oneTimeUse, seconds⟩

/-! ## Mappings -/

/-- The mapping `_save_mapping` writes. -/
def savedMapping (page grantId : String) (result : QurlResult) (defaultResource : String) :
    Mapping :=
  ⟨page, grantId, result.qurlId,
    if result.resourceId = "" then defaultResource else result.resourceId,
    some (result.resourceCrid.getD ""), some (result.upstreamScope.getD .page)⟩

/-- `_save_mapping`. The file is renamed into place; the `fsync` of the
directory may fail after that. -/
def saveMapping (page grantId : String) (result : QurlResult) (defaultResource : String) :
    BrokerM Unit := do
  let mapping := savedMapping page grantId result defaultResource
  if mapping.qurlId = "" ∨ mapping.resourceId = "" then
    throw (.policy "LayerV response lacks durable identifiers" 400)
  else do
    ask (.writeMapping mapping)
    ask .syncData

/-- Read the file of a mapping; an `OSError` or a decoding error makes it
unavailable. -/
def readMapping (page grantId : String) : BrokerM (Option Mapping) := do
  match ← attempt (ask (.readMapping page grantId)) with
  | .ok m => return m
  | .error _ => throw (.policy "Stored grant mapping is unavailable" 500)

/-- `_load_mapping`. -/
def loadMapping (page grantId : String) : BrokerM Mapping := do
  let _ ← (liftM (grantFile page grantId) : BrokerM Unit)
  match ← readMapping page grantId with
  | none => throw (.policy "Grant not found" 404)
  | some m =>
      if m.pageId = page ∧ m.grantId = grantId then return m
      else throw (.policy "Stored grant mapping is invalid" 500)

/-- `_grant_file(...).exists()`. -/
def mappingExists (page grantId : String) : BrokerM Bool := do
  let _ ← (liftM (grantFile page grantId) : BrokerM Unit)
  ask (.mappingExists page grantId)

/-- `grant.get("resource_crid") or grant["resource_id"]`. -/
def Mapping.resource (m : Mapping) : String :=
  if m.resourceCrid.getD "" = "" then m.resourceId else m.resourceCrid.getD ""

section Broker

variable (cfg : Config)

/-! ## Creating a grant -/

/-- `_page`. -/
def requirePage (page : String) : BrokerM Unit := do
  match ← attempt (ask (.loadPolicy page)) with
  | .ok true => return ()
  | .ok false => throw (.policy "Page not found" 404)
  | .error .pageConfig => throw (.policy "Page policy is invalid" 400)
  | .error e => throw e

/-- A block whose `LayerVError` is passed over. -/
def passLayerV {α : Type} (x : BrokerM α) : BrokerM Unit := do
  match ← attempt x with
  | .ok _ => return ()
  | .error (.layerV ..) => return ()
  | .error e => throw e

/-- Where the page is served, on a loopback address. -/
def pageTarget (page : String) : BrokerM String := do
  match ← ask (.pageTarget page) with
  | none => throw (.policy "Page endpoint is not ready" 409)
  | some ip =>
      if cfg.isLoopback ip then return "http://" ++ ip ++ ":8080"
      else throw (.policy "Page endpoint target is invalid" 400)

/-- The label upstream: the journal's for a page pool, the owner's for a
guest's own resource. -/
def upstreamLabel (isolation : UpstreamScope) (r : CreateRequest) (client : Client) :
    BrokerM String :=
  match isolation with
  | .page => prepareMint cfg r.pageId r.grantId client.resourceId
  | .guest => return slice r.label 120

/-- The resource of a grant that cannot be used is retired: its qURL may
have been committed although the reply was lost. -/
def mintOrRetire (isolation : UpstreamScope) (r : CreateRequest) (client : Client)
    (wanted : Wanted) : BrokerM QurlResult := do
  match ← attempt (createQurl client r.pageId r.grantId wanted) with
  | .ok result => return result
  | .error (.layerV message status retryAfter) =>
      match isolation with
      | .guest => do
          passLayerV (revoke cfg r.pageId r.grantId client.resourceId "")
          throw (.layerV message status retryAfter)
      | .page => throw (.layerV message status retryAfter)
  | .error e => throw e

/-- Undo an invitation whose mapping could not be saved. -/
def compensateQurl (client : Client) (result : QurlResult) : BrokerM Unit :=
  if result.qurlId = "" then return ()
  else passLayerV (deleteQurl client.resourceId
    (if result.resourceCrid.getD "" = "" then client.resourceId else result.resourceCrid.getD "")
    result.qurlId)

def compensateResource (r : CreateRequest) (client : Client) (result : QurlResult) :
    BrokerM Unit :=
  if result.upstreamScope = some .guest then
    passLayerV (revoke cfg r.pageId r.grantId client.resourceId "")
  else return ()

/-- Save the mapping, or undo the invitation. -/
def saveOrCompensate (r : CreateRequest) (client : Client) (result : QurlResult) :
    BrokerM Unit := do
  match ← attempt (saveMapping r.pageId r.grantId result client.resourceId) with
  | .ok _ => return ()
  | .error e =>
      match e with
      | .os => compensate e
      | .policy .. => compensate e
      | _ => throw e
where
  compensate (e : Failure) : BrokerM Unit := do
    compensateQurl client result
    compensateResource cfg r client result
    throw e

/-- The resource the reply has to name. -/
def expectedResource (client : Client) : String :=
  if client.resourcePublicKey = "" then client.resourceId else client.resourcePublicKey

/-- `create_grant`, under the lock. -/
def createLocked (isolation : UpstreamScope) (r : CreateRequest) (wanted : Wanted) :
    BrokerM QurlResult := do
  if ← mappingExists r.pageId r.grantId then throw (.policy "Grant already exists" 409)
  else do
    let target ← pageTarget cfg r.pageId
    let client ← ensure cfg r.pageId r.grantId target isolation
    let label ← upstreamLabel cfg isolation r client
    let result ← mintOrRetire cfg isolation r client { wanted with label }
    let returned := if result.resourceId = "" then client.resourceId else result.resourceId
    if returned ≠ expectedResource client then
      throw (.policy "LayerV response resource does not match the page" 400)
    else do
      saveOrCompensate cfg r client result
      return result

/-- `create_grant`. -/
def createGrant (isolation : UpstreamScope) (r : CreateRequest) : BrokerM QurlResult := do
  requirePage r.pageId
  let wanted ← (liftM (checkCreate cfg r) : BrokerM Wanted)
  createLocked cfg isolation r wanted

/-! ## Deleting a grant -/

/-- The deletion upstream of what a mapping names. -/
def retireMapped (page grantId : String) (m : Mapping) : BrokerM Bool :=
  match m.upstreamScope with
  | some .guest =>
      match m.resourceCrid with
      | some crid => revoke cfg page grantId crid m.qurlId
      | none => throw (.python .keyError)
  | _ => deleteQurl cfg.resourceId m.resource m.qurlId

/-- `delete_grant`: whether it was already missing. -/
def deleteGrant (page grantId : String) : BrokerM Bool := do
  match ← attempt (loadMapping page grantId) with
  | .ok m => do
      let alreadyMissing ← retireMapped cfg page grantId m
      ask (.unlinkMapping page grantId)
      ask .syncData
      return alreadyMissing
  | .error (.policy message status) =>
      if status = 404 then revokeOwned cfg page grantId else throw (.policy message status)
  | .error e => throw e

/-- What a deletion answers. -/
inductive Deletion where
  | deleted (alreadyMissing : Bool)
  | pending (notBefore : Instant)
  deriving DecidableEq, Repr

/-- `queue_revocation`. -/
def queueRevocation (page grantId : String) : BrokerM Deletion := do
  match ← attempt (loadMapping page grantId) with
  | .ok _ => do return .pending (← ask (.insertRevocation page grantId))
  | .error (.policy message status) =>
      if status = 404 then do return .deleted (← deleteGrant cfg page grantId)
      else throw (.policy message status)
  | .error e => throw e

/-! ## Reconciliation -/

/-- The gateway's grant is the one the mapping was saved for. -/
def GatewayGrant.matches (grantId : String) (m : Mapping) (a : GatewayGrant) : Bool :=
  a.id = grantId ∧ a.qurlId = m.qurlId ∧ some a.resourceCrid = m.resourceCrid

/-- `_gateway_grant_live`. -/
def gatewayGrantLive (page grantId : String) : BrokerM Bool := do
  if ← mappingExists page grantId then
    if cfg.gatewayGrantsDir then do
      let m ← loadMapping page grantId
      match ← ask (.loadGateway page) with
      | none => return false
      | some grants => return grants.any (GatewayGrant.matches grantId m)
    else return true
  else return false

/-- A mapping without a grant is queued, and then owned by the queue. -/
def queueUnowned (page grantId : String) : BrokerM Bool := do
  if ← mappingExists page grantId then do
    let _ ← queueRevocation cfg page grantId
    return true
  else return false

/-- `_live_mapping`. -/
def liveMapping (page grantId : String) : BrokerM Bool := do
  if ← gatewayGrantLive cfg page grantId then return true
  else if cfg.gatewayGrantsDir then queueUnowned cfg page grantId
  else return false

/-- Whether the gateway still authorizes a grant that is queued. -/
def stillAuthorized (page grantId : String) : BrokerM Bool :=
  if cfg.gatewayGrantsDir then gatewayGrantLive cfg page grantId else return false

/-- The delay after a failed deletion. -/
def revocationDelay (attempts : Nat) : Failure → Int
  | .layerV _ _ (some retryAfter) =>
      if retryAfter = 0 then min 3600 (5 * 2 ^ min attempts 10) else retryAfter
  | _ => min 3600 (5 * 2 ^ min attempts 10)

/-- The failures `drain_revocations` retries after. -/
def Failure.retried : Failure → Bool
  | .layerV .. => true
  | .os => true
  | .policy .. => true
  | _ => false

/-- One row of `drain_revocations`. -/
def drainRevocation (r : Revocation) : BrokerM Unit := do
  if ← stillAuthorized cfg r.page r.grantId then return ()
  else do
    match ← attempt (deleteGrant cfg r.page r.grantId) with
    | .ok _ => ask (.deleteRevocation r.page r.grantId)
    | .error e =>
        if e.retried then
          ask (.postponeRevocation r.page r.grantId (revocationDelay r.attempts e))
        else throw e

def drainRevocationRows : List Revocation → BrokerM Unit
  | [] => return ()
  | r :: rs => do
      drainRevocation cfg r
      drainRevocationRows rs

/-- `drain_revocations`. -/
def drainRevocations : BrokerM Unit := do
  drainRevocationRows cfg (← ask .selectRevocations)

/-- `_page_exists`. -/
def pageExists (page : String) : BrokerM Bool := ask (.loadPolicy page)

/-- What the publisher says of itself. -/
def publisherState : BrokerM Bool := ask .outside

/-- `reconcile_once`. It waits for an Agent that is enrolled, and ends with
the publisher's own recovery. -/
def reconcileOnce : BrokerM Unit := do
  if ← publisherState then return ()
  else do
    drainRevocations cfg
    retireOrphans cfg (liveMapping cfg)
    retireDeletedPagePools cfg pageExists
    drainRetirements cfg
    drainInvitations cfg (liveMapping cfg)
    let _ ← publisherState

/-! ## Requests -/

inductive Request where
  | create (isolation : UpstreamScope) (r : CreateRequest)
  | delete (page grantId : String)
  | queue (page grantId : String)
  | reconcile

/-- What a request answers. -/
inductive Reply where
  | created (result : QurlResult)
  | deletion (d : Deletion)
  | none
  deriving DecidableEq, Repr

def Request.serve : Request → BrokerM Reply
  | create isolation r => return .created (← createGrant cfg isolation r)
  | delete page grantId => return .deletion (.deleted (← deleteGrant cfg page grantId))
  | queue page grantId => return .deletion (← queueRevocation cfg page grantId)
  | reconcile => do
      reconcileOnce cfg
      return .none

/-- The grant a reply hands to the gateway. -/
def issuedOf (r : CreateRequest) (result : QurlResult) : Issued :=
  ⟨r.pageId, r.grantId, result.qurlId, result.resourceId, result.resourceCrid.getD "",
    result.upstreamScope.getD .page⟩

/-- The reply goes out: the gateway may now hold the grant, or knows that a
deletion was accepted. -/
def Request.reply (r : Request) (a : Except Failure Reply) (w : World) : World :=
  match r, a with
  | create _ req, .ok (.created result) =>
      { w with gateway.issued := issuedOf req result :: w.gateway.issued }
  | delete page grantId, .ok _ => { w with gateway := w.gateway.acknowledge page grantId }
  | queue page grantId, .ok _ => { w with gateway := w.gateway.acknowledge page grantId }
  | _, _ => w

/-- The broker. -/
def broker : Server Request Tick Op Op.Ans (Except Failure Reply) World where
  serve r := (r.serve cfg).run
  perform := Op.step
  reply := Request.reply

end Broker

end LayerV

end AccessPages
