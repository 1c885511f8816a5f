import AccessPages.Broker.Helpers
/-!
# Broker — guest actions

`_guest_action`: the session, the published policy, the location reading
and the parameters are checked, then policy and session are read again,
and only then is the service called. Anything may change between any two
reads.
-/

namespace AccessPages

namespace Broker

open Pages (Page PageError Resource Action Proximity)

variable [Python]

/-! ## Policy -/

/-- `BrokerPolicyError(message)`. -/
def badRequest (message : String) : Exc := .policy message 400 none

/-- `_page`. -/
def page (pageId : String) : BrokerM Page := do
  match ← ask (.loadPolicy pageId) with
  | .ok page => return page
  | .error (.notFound _) => throw (.policy "Page not found" 404 none)
  | .error (.config _) => throw (badRequest "Page policy is invalid")
  | .error (.python e) => throw (.python e)
  | .error _ => throw .os

/-- `_resource_action`. -/
def resourceAction (page : Page) (resourceId actionId : String) : Except Exc (Resource × Action) :=
  match page.resources.find? (·.id = resourceId) with
  | none => .error (.policy "Resource not found" 404 none)
  | some resource =>
      match resource.actions.find? (·.id = actionId) with
      | none => .error (.policy "Action not permitted" 404 none)
      | some action =>
          if !HomeAssistant.curated resource.domain action.service then
            .error (.policy "Action not permitted" 403 none)
          else if resource.domain = "sensor" ∨ action.service = "view" then
            .error (.policy "Resource is read-only" 403 none)
          else .ok (resource, action)

/-! ## Parameters -/

/-- `_finite`. -/
def finite (value : Json) (message : String) : Except Exc Float :=
  match value.toFloat with
  | .ok x => if x.isFinite then .ok x else .error (badRequest message)
  | .error _ => .error (badRequest message)

/-- `_matches_step`. -/
def matchesStep (value : Float) (r : HomeAssistant.Range) : Except PyError Bool :=
  if value == r.max then .ok true
  else do
    let quotient := (value - r.min) / r.step
    return Json.isClose quotient (Float.ofInt (← Json.roundInt quotient)) 1e-7

/-- An exception of the language. -/
def pyExc {α : Type} : Except PyError α → Except Exc α
  | .ok a => .ok a
  | .error e => .error (.python e)

/-- A number within the range and on its step. -/
def inCapability (value : Float) (cap : Option HomeAssistant.Range) (message : String) :
    Except Exc Unit :=
  match cap with
  | none => .error (badRequest message)
  | some r =>
      if value < r.min ∨ r.max < value then .error (badRequest message)
      else do
        if !(← pyExc (matchesStep value r)) then .error (badRequest message)

/-- `int(value)`, where every failure is the one message. -/
def integer (value : Json) (message : String) : Except Exc Int :=
  match value.toInt with
  | .ok n => .ok n
  | .error _ => .error (badRequest message)

/-- The data of a service call and the parameters it takes. -/
def actionData (domain service : String) (supplied : List (String × Json))
    (capabilities : HomeAssistant.Capabilities) :
    Except Exc (List String × List (String × Json)) :=
  if domain = "climate" ∧ service = "set_temperature" then do
    let value ← finite (Json.getD supplied "temperature" .null) "Invalid temperature"
    inCapability value (capabilities.temperature.map (·.1))
      "Temperature is outside live capability"
    return (["temperature"], [("temperature", .float value)])
  else if domain = "climate" ∧ service = "set_hvac_mode" then
    let value := Json.text supplied "hvac_mode" ""
    if value ∉ capabilities.hvacModes.getD [] then .error (badRequest "Unsupported HVAC mode")
    else .ok (["hvac_mode"], [("hvac_mode", .str value)])
  else if domain ∈ ["number", "input_number"] then do
    let value ← finite (Json.getD supplied "value" .null) "Invalid numeric value"
    inCapability value (capabilities.number.map (·.1)) "Value is outside live capability"
    return (["value"], [("value", .float value)])
  else if domain ∈ ["select", "input_select"] then
    let value := Json.text supplied "option" ""
    if value ∉ (capabilities.select.map (·.2)).getD [] then
      .error (badRequest "Unsupported option")
    else .ok (["option"], [("option", .str value)])
  else if domain = "fan" ∧ service = "set_percentage" then do
    let value ← integer (Json.getD supplied "percentage" .null) "Invalid fan percentage"
    if value ∉ (capabilities.fanPercentage.map (·.2)).getD [] then
      .error (badRequest "Unsupported fan percentage")
    else .ok (["percentage"], [("percentage", .int value)])
  else if domain = "light" ∧ service = "turn_on" ∧ (Json.get? supplied "brightness_pct").isSome
      then do
    let value ← integer (Json.getD supplied "brightness_pct" .null) "Invalid brightness"
    if value < 1 ∨ 100 < value then .error (badRequest "Brightness is outside capability")
    else .ok (["brightness_pct"], [("brightness_pct", .int value)])
  else if domain = "media_player" ∧ service = "volume_set" then do
    let value ← finite (Json.getD supplied "volume_level" .null) "Invalid volume"
    if value < 0 ∨ 1 < value then .error (badRequest "Volume is outside capability")
    else .ok (["volume_level"], [("volume_level", .float value)])
  else .ok ([], [])

/-- The states `get_states` makes of what Home Assistant answers. -/
def statesOf (entityIds : List String) : Json → Except Exc (List Json)
  | .arr items => pyExc (HomeAssistant.filterStates entityIds items)
  | _ => .error (.homeAssistant ⟨"Home Assistant returned an invalid state list", none⟩)

/-- `_service_data`, of what Home Assistant answers. -/
def serviceDataOf (resource : Resource) (action : Action) (supplied : List (String × Json))
    (answer : Json) : Except Exc (List (String × Json)) := do
  let states ← statesOf [resource.entityId] answer
  let state ← match HomeAssistant.validateActionState resource.domain action.service
      resource.entityId states with
    | .ok state => .ok state
    | .error (.homeAssistant e) => .error (.policy e.message (e.status.getD 409) none)
    | .error (.python e) => .error (.python e)
  let capabilities ← pyExc (do
    HomeAssistant.normalizeCapabilities resource.domain (← state.get "state")
      (← HomeAssistant.attributesOf state) (resource.actions.map (·.service)))
  let (allowed, data) ← actionData resource.domain action.service supplied capabilities
  if supplied.any (·.1 ∉ allowed) then .error (badRequest "Unknown action parameters")
  else .ok data

/-- A request to Home Assistant. -/
def haRequest (path : String) : BrokerM Json := do
  match ← ask (.get path) with
  | .ok v => return v
  | .error e => throw (.homeAssistant e)

/-- `_service_data`. -/
def serviceData (resource : Resource) (action : Action) (supplied : Json) :
    BrokerM (List (String × Json)) := do
  match supplied with
  | .obj fields => do
      let answer ← haRequest "/api/states"
      (liftM (serviceDataOf resource action fields answer) : BrokerM _)
  | _ => throw (badRequest "Parameters must be an object")

/-! ## Proximity -/

/-- A location reading. -/
structure Reading where
  latitude : Float
  longitude : Float
  accuracyMeters : Float
  measuredAt : Float

/-- `reading[key]`. -/
def readingField (reading : List (String × Json)) (key : String) : Except Exc Float :=
  match Json.get? reading key with
  | none => .error (.python .keyError)
  | some v => finite v "Invalid location reading"

/-- The reading, within the globe and precise enough for the radius. -/
def readingOf (reading : List (String × Json)) (radius : Int) : Except Exc Reading := do
  let latitude ← readingField reading "latitude"
  let longitude ← readingField reading "longitude"
  let accuracyMeters ← readingField reading "accuracy_meters"
  let measuredAt ← readingField reading "measured_at"
  if !(-90 ≤ latitude && latitude ≤ 90 && -180 ≤ longitude && longitude ≤ 180) then
    .error (badRequest "Invalid location reading")
  else if accuracyMeters < 0 || Float.ofInt (min 1000 radius) < accuracyMeters then
    .error (.policy "Location is not accurate enough" 403 none)
  else .ok { latitude, longitude, accuracyMeters, measuredAt }

/-- Not from the future and at most five minutes old. -/
def Reading.fresh (r : Reading) (now : Instant) : Bool :=
  let age := floatTime now - r.measuredAt
  !(age < -30 || 300 < age)

/-- `verify_proximity`, of what Home Assistant answers. -/
def Reading.withinRange (r : Reading) (radius : Int) (config : Json) : Except Exc Bool :=
  match HomeAssistant.locationOf config with
  | .error (.homeAssistant e) => .error (.homeAssistant e)
  | .error (.python e) => .error (.python e)
  | .ok (lat, lon) => do
      let distance ← pyExc (HomeAssistant.distanceMeters r.latitude r.longitude lat lon)
      return distance ≤ Float.ofInt radius

/-- `_guest_action_proximity`. -/
def guestActionProximity (policy : Proximity) (reading : Option (List (String × Json))) :
    BrokerM Unit := do
  if policy.enabled then
    match reading with
    | none => throw (.policy "Proximity reading required" 403 none)
    | some reading => do
        let r ← (liftM (readingOf reading policy.radiusMeters) : BrokerM Reading)
        let now ← time
        if !r.fresh now then throw (.policy "Location reading expired" 403 none)
        else do
          let config ← haRequest "/api/config"
          let near ← (liftM (r.withinRange policy.radiusMeters config) : BrokerM Bool)
          if !near then throw (.policy "Location is out of range" 403 none) else return ()
  else return ()

/-! ## The action -/

/-- `GUEST_ACTION_RATE_LIMITER.allow`. -/
def allowAction (key : String) : BrokerM Bool := ask (.allowAction key)

/-- `lifetime.action_remaining`, and whether it raises. -/
def actionRemaining : BrokerM Bool := ask .actionRemaining

/-- `reason` of an attempt that is not permitted. -/
def refusal : Exc → String
  | .policy "Resource not found" _ _ => "resource_not_assigned"
  | _ => "action_not_permitted"

/-- `_guest_action`. -/
def guestAction (pageId grantId session resourceId actionId : String) (parameters : Json)
    (proximity : Option (List (String × Json))) : BrokerM (Option Unit) := do
  match ← guestSessionStatus pageId grantId session with
  | none => return none
  | some status =>
      if status.status ≠ .sessionReady then throw (.policy "Verification required" 403 none)
      else do
        emitGuestEvent pageId grantId .initialAccess
        if !(← allowAction (pageId ++ ":" ++ grantId)) then do
          emitGuestEvent pageId grantId .actionRateLimited
          throw (.policy "Too many action requests" 429 none)
        else do
          let policy ← page pageId
          match resourceAction policy resourceId actionId with
          | .error e => do
              emitGuestEvent pageId grantId (.unapprovedActionAttempt (refusal e))
              throw e
          | .ok (resource, action) => do
              guestActionProximity policy.proximity proximity
              let data ← serviceData resource action parameters
              recheck policy resource action data
where
  /-- Everything that may block is done; policy and session are read again. -/
  recheck (policy : Page) (resource : Resource) (action : Action) (data : List (String × Json)) :
      BrokerM (Option Unit) := do
    let current ← page pageId
    match resourceAction current resourceId actionId with
    | .error e => throw e
    | .ok (currentResource, currentAction) =>
        if currentResource ≠ resource ∨ currentAction ≠ action ∨
            current.proximity ≠ policy.proximity then
          return none
        else do
          match ← guestSessionStatus pageId grantId session with
          | none => return none
          | some status =>
              if status.status ≠ .sessionReady then return none
              else dispatch resource action data status.expiresAt
  /-- The call. The deadline is the session's expiry. -/
  dispatch (resource : Resource) (action : Action) (data : List (String × Json))
      (expiresAt : Int) : BrokerM (Option Unit) := do
    match fromTimestamp expiresAt with
    | none => throw (.python .valueError)
    | some _ => do
        if !(← actionRemaining) then throw .deadline
        else
          match ← ask (.callService resource.domain action.service resource.entityId data expiresAt) with
          | .error e => do
              emitGuestEvent pageId grantId
                (.actionFailed resource.id action.id resource.entityId resource.name data)
              throw (.homeAssistant e)
          | .ok _ => do
              emitGuestEvent pageId grantId
                (.actionSuccess resource.id action.id resource.entityId resource.name data)
              return some ()

end Broker

end AccessPages
