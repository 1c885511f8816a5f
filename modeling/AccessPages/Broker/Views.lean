import AccessPages.Broker.Action
/-!
# Broker — what a guest may look at

`_guest_resource_state`, `_guest_page_view` and `_guest_camera`: the
session is checked, the published policy read, Home Assistant asked, and
policy and session are checked again before anything is returned.
-/

namespace AccessPages

namespace Broker

open Pages (Page PageError Resource Action)

variable [Python]

/-- `get_states` of some entities. -/
def getStates (entityIds : List String) : BrokerM (List Json) := do
  let answer ← haRequest "/api/states"
  (liftM (statesOf entityIds answer) : BrokerM _)

/-- The status of a session that must be ready. -/
def readySession (pageId grantId session : String) : BrokerM (Option SessionResult) := do
  match ← guestSessionStatus pageId grantId session with
  | none => return none
  | some status =>
      if status.status ≠ .sessionReady then throw (.policy "Verification required" 403 none)
      else return some status

/-- Whether the session is still ready. -/
def stillReady (pageId grantId session : String) : BrokerM Bool := do
  match ← guestSessionStatus pageId grantId session with
  | none => return false
  | some status => return status.status = .sessionReady

/-! ## One resource -/

/-- `_published_guest_resource`. -/
def publishedGuestResource (pageId resourceId : String) : BrokerM (Option Resource) := do
  match ← ask (.loadPolicy pageId) with
  | .ok page =>
      return page.resources.find? fun item => item.id = resourceId ∧ item.domain ≠ "camera"
  | .error (.python e) => throw (.python e)
  | .error _ => return none

/-- The record of an entity among the states. -/
def recordOf (entityId : String) (states : List Json) : Json :=
  (states.find? fun item => match item.get "entity_id" with
    | .ok (.str s) => s = entityId
    | _ => false).getD (.obj [])

/-- `_guest_resource_state`. -/
def guestResourceState (pageId grantId session resourceId : String) :
    BrokerM (Option (String × HomeAssistant.PublicState)) := do
  match ← readySession pageId grantId session with
  | none => return none
  | some _ => do
      emitGuestEvent pageId grantId .initialAccess
      match ← publishedGuestResource pageId resourceId with
      | none => throw (.policy "Resource not assigned" 404 none)
      | some resource => do
          let states ← getStates [resource.entityId]
          let ready ← stillReady pageId grantId session
          match ← publishedGuestResource pageId resourceId with
          | none => return none
          | some current =>
              if !ready ∨ current.entityId ≠ resource.entityId then return none
              else do
                let fields ← (liftM (pyExc (HomeAssistant.publicStateFields
                  (recordOf resource.entityId states))) : BrokerM _)
                return some (current.id, fields)

/-! ## The page -/

/-- A resource as shown. -/
structure ResourceView where
  id : String
  name : Json
  domain : String
  shown : HomeAssistant.PublicState
  capabilities : HomeAssistant.Capabilities
  actions : List (String × String)
  cameraRefreshInterval : Option Int

/-- The actions an entity supports now. -/
def supportedActions (domain : String) (record : Json) :
    List Action → Except PyError (List Action)
  | [] => .ok []
  | action :: actions => do
      let supported ← HomeAssistant.actionSupported domain action.service record
      let rest ← supportedActions domain record actions
      return if supported then action :: rest else rest

/-- `resource["name"] or attributes.get("friendly_name") or resource["entity_id"]`. -/
def shownName (resource : Resource) (attributes : Json) : Except PyError Json :=
  if resource.name ≠ "" then .ok (.str resource.name)
  else do
    let friendly ← attributes.get "friendly_name"
    return if friendly.truthy then friendly else .str resource.entityId

/-- `public_resource_state`. -/
def publicResourceState (resource : Resource) (record : Json) : Except PyError ResourceView := do
  let attributes ← HomeAssistant.attributesOf record
  let actions ← supportedActions resource.domain record resource.actions
  let name ← shownName resource attributes
  let shown ← HomeAssistant.publicStateFields record
  let capabilities ← HomeAssistant.normalizeCapabilities resource.domain (← record.get "state")
    attributes (actions.map (·.service))
  return {
    id := resource.id
    name, domain := resource.domain, shown, capabilities
    actions := actions.map fun a => (a.id, a.name)
    cameraRefreshInterval :=
      if resource.domain = "camera" then some (resource.cameraRefreshInterval.getD 30) else none }

/-- A page as shown. -/
structure PageView where
  id : String
  title : String
  description : String
  proximityRequired : Bool
  radiusMeters : Int
  refreshedAt : Instant
  resources : List ResourceView

/-- The resources of a page with their records. -/
def viewResources (states : List Json) : List Resource → Except PyError (List ResourceView)
  | [] => .ok []
  | resource :: resources => do
      -- a later record of an entity replaces an earlier one
      let view ← publicResourceState resource (recordOf resource.entityId states.reverse)
      return view :: (← viewResources states resources)

/-- The states of a page's entities; without entities nothing is asked. -/
def pageStates (policy : Page) : BrokerM (List Json) :=
  if policy.resources = [] then pure [] else getStates (policy.resources.map (·.entityId))

/-- `_guest_page_view`. -/
def guestPageView (pageId grantId session : String) : BrokerM (Option PageView) := do
  match ← readySession pageId grantId session with
  | none => return none
  | some _ => do
      let policy ← page pageId
      if !(← stillReady pageId grantId session) then return none
      else do
        emitGuestEvent pageId grantId .initialAccess
        let states ← pageStates policy
        let current ← page pageId
        let ready ← stillReady pageId grantId session
        if !ready ∨ current ≠ policy then return none
        else do
          let refreshedAt ← time
          let resources ← (liftM (pyExc (viewResources states policy.resources)) : BrokerM _)
          return some {
            id := pageId
            title := policy.title
            description := policy.description
            proximityRequired := policy.proximity.enabled
            radiusMeters := policy.proximity.radiusMeters
            refreshedAt, resources }

/-! ## A camera -/

/-- `CAMERA_IMAGE_TYPES`. -/
def cameraImageTypes : List String := ["image/jpeg", "image/jpg", "image/png", "image/webp"]

/-- `CAMERA_IMAGE_MAX_BYTES`. -/
def cameraImageMaxBytes : Nat := 5 * 1024 * 1024

/-- `GUEST_CAMERA_REFRESH_LIMITER.check`. -/
def checkRefresh (key : String) (interval : Int) : BrokerM (Bool × Int) :=
  ask (.checkRefresh key interval)

/-- `GUEST_CAMERA_RATE_LIMITER.allow`. -/
def allowCamera (key : String) : BrokerM Bool := ask (.allowCamera key)

/-- `get_camera_image`. -/
def cameraImage (entityId : String) : BrokerM (List UInt8 × String) := do
  match ← ask (.cameraImage entityId) with
  | .ok image => return image
  | .error e => throw (.homeAssistant e)

/-- `_guest_camera`. -/
def guestCamera (pageId grantId session resourceId : String) :
    BrokerM (Option (List UInt8 × String)) := do
  match ← readySession pageId grantId session with
  | none => return none
  | some _ => do
      emitGuestEvent pageId grantId .initialAccess
      let policy ← page pageId
      match policy.resources.find? fun item => item.id = resourceId ∧ item.domain = "camera" with
      | none => throw (.policy "Camera not assigned" 404 none)
      | some resource => do
          let key := pageId ++ ":" ++ grantId ++ ":" ++ resourceId
          let interval := resource.cameraRefreshInterval.getD 30
          let (allowed, retryAfter) ← checkRefresh key (if interval = 0 then 2 else interval)
          if !allowed then
            throw (.policy "Camera image is not ready to refresh" 429 (some retryAfter))
          else do
            if !(← allowCamera key) then
              throw (.policy "Camera image refresh limit reached" 429 (some 6))
            else do
              let (body, contentType) ← cameraImage resource.entityId
              let current ← page pageId
              let ready ← stillReady pageId grantId session
              if !ready ∨ current ≠ policy ∨ cameraImageMaxBytes < body.length ∨
                  contentType ∉ cameraImageTypes then
                return none
              else return some (body, contentType)

end Broker

end AccessPages
