import AccessPages.Common.Python
/-!
# Home Assistant — actions and capabilities

`ha.py`: the curated actions, whether an entity supports one in its
current state, the controls an entity advertises, and the distance of a
location reading. Home Assistant's answers are JSON of any shape, so
every function says which exception an unexpected shape raises.
-/

namespace AccessPages

namespace HomeAssistant

/-- `HomeAssistantError`. -/
structure HomeAssistantError where
  message : String
  status : Option Nat
  deriving DecidableEq, Repr

/-- What a call raises. -/
inductive Failure where
  | homeAssistant (e : HomeAssistantError)
  | python (e : PyError)
  deriving DecidableEq, Repr

/-- `CURATED_ACTIONS`, with the names shown. -/
def curatedActions : List (String × List (String × String)) :=
  [("lock", [("lock", "Lock"), ("unlock", "Unlock")]),
    ("cover", [("open_cover", "Open"), ("close_cover", "Close"), ("stop_cover", "Stop"),
      ("open_cover_tilt", "Open tilt"), ("close_cover_tilt", "Close tilt"),
      ("stop_cover_tilt", "Stop tilt")]),
    ("switch", [("turn_on", "Turn on"), ("turn_off", "Turn off")]),
    ("input_boolean", [("turn_on", "Turn on"), ("turn_off", "Turn off")]),
    ("sensor", [("view", "Display")]),
    ("light", [("turn_on", "Turn on"), ("turn_off", "Turn off")]),
    ("climate", [("set_temperature", "Set temperature"), ("set_hvac_mode", "Set mode")]),
    ("fan", [("turn_on", "Turn on"), ("turn_off", "Turn off"), ("set_percentage", "Set speed")]),
    ("button", [("press", "Press")]),
    ("input_button", [("press", "Press")]),
    ("number", [("set_value", "Set value")]),
    ("input_number", [("set_value", "Set value")]),
    ("select", [("select_option", "Select option")]),
    ("input_select", [("select_option", "Select option")]),
    ("vacuum", [("start", "Start"), ("pause", "Pause"), ("stop", "Stop"),
      ("return_to_base", "Return to base")]),
    ("media_player", [("media_play", "Play"), ("media_pause", "Pause"), ("media_stop", "Stop"),
      ("volume_set", "Set volume")]),
    ("script", [("turn_on", "Run")]),
    ("scene", [("turn_on", "Activate")])]

/-- `service in CURATED_ACTIONS.get(domain, {})`. -/
def curated (domain service : String) : Bool :=
  ((curatedActions.lookup domain).getD []).any (·.1 = service)

/-- `ACTION_FEATURES`. -/
def actionFeatures : List (String × List (String × Nat)) :=
  [("cover", [("open_cover", 1), ("close_cover", 2), ("stop_cover", 8), ("open_cover_tilt", 16),
      ("close_cover_tilt", 32), ("stop_cover_tilt", 64)]),
    ("fan", [("set_percentage", 1), ("turn_off", 16), ("turn_on", 32)]),
    ("media_player", [("media_pause", 1), ("volume_set", 4), ("media_stop", 4096),
      ("media_play", 16384)]),
    ("vacuum", [("pause", 4), ("stop", 8), ("return_to_base", 16), ("start", 8192)]),
    ("climate", [("set_temperature", 1)])]

def actionFeature (domain service : String) : Option Nat :=
  ((actionFeatures.lookup domain).getD []).lookup service

/-! ## Supported actions -/

/-- `state.get("attributes") or {}`. -/
def attributesOf (state : Json) : Except PyError Json := do
  let attributes ← state.get "attributes"
  return if attributes.truthy then attributes else .obj []

/-- The feature flag of an action, if it has one. A `bool` is no flag. -/
def featureSupported (domain service : String) (attributes : Json) : Except PyError Bool :=
  match actionFeature domain service with
  | none => .ok true
  | some feature => do
      match ← attributes.get "supported_features" with
      | .int flags => return 0 ≤ flags && flags.toNat &&& feature ≠ 0
      | _ => return false

/-- `action_supported`. -/
def actionSupported (domain service : String) (state : Json) : Except PyError Bool :=
  if service = "view" then .ok true
  else if !curated domain service || !state.truthy then .ok false
  else do
    let current ← state.get "state"
    if (match current with | .null => true | _ => false) || (← current.inTexts ["unavailable"]) then
      return false
    else if (← current.inTexts ["unknown"]) &&
        domain ∉ ["button", "input_button", "scene", "script"] then
      -- stateless actions can have no previous invocation time
      return false
    else do
      let attributes ← attributesOf state
      if !(← featureSupported domain service attributes) then return false
      else if domain = "climate" && service = "set_hvac_mode" then
        return (← attributes.get "hvac_modes").texts?.isSome
      else return true

/-- `validate_action_state`. -/
def validateActionState (domain service entityId : String) (states : List Json) :
    Except Failure Json := do
  let state ← match states.find? fun v => match v.get "entity_id" with
      | .ok (.str s) => s = entityId
      | _ => false with
    | none => .error (.homeAssistant ⟨"Assigned entity not found", some 404⟩)
    | some state => .ok state
  match actionSupported domain service state with
  | .error e => .error (.python e)
  | .ok true => .ok state
  | .ok false => .error (.homeAssistant ⟨"Action is not supported by this entity", some 409⟩)

/-- The filter of `get_states`. -/
def filterStates (entityIds : List String) : List Json → Except PyError (List Json)
  | [] => .ok []
  | state :: states => do
      let keep ← (← state.get "entity_id").inTexts entityIds
      let rest ← filterStates entityIds states
      return if keep then state :: rest else rest

/-! ## Capabilities -/

section Capabilities

variable [Python]

/-- `_finite_number`. An `OverflowError` is not handled. -/
def finiteNumber (v : Json) : Except PyError (Option Float) :=
  match v.toFloat with
  | .ok x => .ok (if x.isFinite then some x else none)
  | .error .valueError => .ok none
  | .error .typeError => .ok none
  | .error e => .error e

/-- A range with a step. -/
structure Range where
  min : Float
  max : Float
  step : Float
  deriving DecidableEq

/-- The controls an entity advertises. -/
structure Capabilities where
  number : Option (Range × Float × List Json)
  fanPercentage : Option (Float × List Int)
  temperature : Option (Range × Float × Json)
  hvacModes : Option (List String)
  select : Option (Json × List String)
  brightness : Option Int
  volume : Option Int
  cover : Option (Option Float × Option Float × List String)

/-- `_small_discrete_values`. -/
def smallDiscreteValues (r : Range) : Except PyError (List Json) := do
  let count ← Json.roundInt ((r.max - r.min) / r.step)
  if count < 0 ∨ 6 < count + 1 then return []
  else do
    let values := (List.range (count.toNat + 1)).map fun index =>
      Python.roundDigits (r.min + Float.ofNat index * r.step) 9
    if !(values.getLast?.any fun x => Json.isClose x r.max 1e-7) then return []
    else return values.map fun x => if x.floor == x then .int (Json.truncate x) else .float x

/-- A range whose value lies in it. -/
def rangeWithValue (min max step value : Option Float) : Option (Range × Float) := do
  let min ← min
  let max ← max
  let step ← step
  let value ← value
  if 0 < step ∧ min ≤ value ∧ value ≤ max then some (⟨min, max, step⟩, value) else none

def numberCapability (state attributes : Json) :
    Except PyError (Option (Range × Float × List Json)) := do
  let min ← finiteNumber (← attributes.get "min")
  let max ← finiteNumber (← attributes.get "max")
  let step ← finiteNumber (← attributes.get "step")
  let value ← finiteNumber state
  match rangeWithValue min max step value with
  | none => return none
  | some (r, value) => return some (r, value, ← smallDiscreteValues r)

def fanCapability (attributes : Json) : Except PyError (Option (Float × List Int)) := do
  let percentage ← finiteNumber (← attributes.get "percentage")
  let step ← finiteNumber (← attributes.get "percentage_step")
  match percentage, step with
  | some percentage, some step =>
      if 0 < step then do
        let count := max 1 (← Json.roundInt (100 / step))
        let values := if count ≤ 100 then
            (List.range count.toNat).map fun index =>
              if (index : Int) = count - 1 then 100 else ((index : Int) + 1) * 100 / count
          else []
        return if values = [] then none else some (percentage, values)
      else return none
  | _, _ => return none

def temperatureCapability (attributes : Json) :
    Except PyError (Option (Range × Float × Json)) := do
  let min ← finiteNumber (← attributes.get "min_temp")
  let max ← finiteNumber (← attributes.get "max_temp")
  let rawStep ← attributes.get "target_temp_step"
  let step ← match rawStep with
    | .null => .ok (some 1.0)
    | v => finiteNumber v
  let value ← finiteNumber (← attributes.get "temperature")
  match rangeWithValue min max step value with
  | none => return none
  | some (r, value) => do
      let unit ← attributes.get "temperature_unit"
      return some (r, value, if unit.truthy then unit else .str "°")

/-- The value of a scale, rounded. -/
def scaled (v : Json) (top : Float) (scale : Float → Float) : Except PyError (Option Int) := do
  match ← finiteNumber v with
  | some x => if 0 ≤ x ∧ x ≤ top then return some (← Json.roundInt (scale x)) else return none
  | none => return none

/-- Evaluate under a condition. -/
def under {α : Type} (c : Bool) (x : Except PyError (Option α)) : Except PyError (Option α) :=
  if c then x else .ok none

/-- `normalize_capabilities`. -/
def normalizeCapabilities (domain : String) (state attributes : Json) (services : List String) :
    Except PyError Capabilities := do
  let attributes := if attributes.truthy then attributes else .obj []
  let number ← under (domain ∈ ["number", "input_number"] && "set_value" ∈ services)
    (numberCapability state attributes)
  let fanPercentage ← under (domain = "fan" && "set_percentage" ∈ services)
    (fanCapability attributes)
  let temperature ← under (domain = "climate" && "set_temperature" ∈ services)
    (temperatureCapability attributes)
  let hvacModes ← under (domain = "climate")
    (do let modes ← attributes.get "hvac_modes"
        return if "set_hvac_mode" ∈ services then modes.texts? else none)
  let select ← under (domain ∈ ["select", "input_select"] && "select_option" ∈ services)
    (do return (← attributes.get "options").texts?.map (state, ·))
  let brightness ← under (domain = "light" && "turn_on" ∈ services)
    (do return (← scaled (← attributes.get "brightness") 255 fun x => x / 255 * 100).map (max 1))
  let volume ← under (domain = "media_player" && "volume_set" ∈ services)
    (do scaled (← attributes.get "volume_level") 1 fun x => x * 100)
  let cover ← under (domain = "cover")
    (do let position ← finiteNumber (← attributes.get "current_position")
        let tilt ← finiteNumber (← attributes.get "current_tilt_position")
        return some (position, tilt,
          (((curatedActions.lookup "cover").getD []).map Prod.fst).filter (· ∈ services)))
  return { number, fanPercentage, temperature, hvacModes, select, brightness, volume, cover }

/-! ## What a guest is shown -/

/-- `PUBLIC_STATE_ATTRIBUTES`. -/
def publicStateAttributes : List String :=
  ["friendly_name", "device_class", "unit_of_measurement", "current_position",
    "current_tilt_position", "supported_features", "percentage", "percentage_step", "temperature",
    "current_temperature", "temperature_unit", "min_temp", "max_temp", "target_temp_step",
    "target_temp_low", "target_temp_high", "hvac_modes", "hvac_action", "last_triggered",
    "options", "min", "max", "step", "brightness", "volume_level", "media_title", "media_artist",
    "source", "latitude", "longitude", "location_name", "message", "start_time", "end_time",
    "forecast"]

/-- The state of an entity as shown. -/
structure PublicState where
  state : Json
  attributes : List (String × Json)

/-- The chosen attributes, in their order. -/
def pickAttributes (attributes : Json) : List String → Except PyError (List (String × Json))
  | [] => .ok []
  | key :: keys => do
      let v ← attributes.get key
      return (key, v) :: (← pickAttributes attributes keys)

/-- `public_state_fields`. -/
def publicStateFields (record : Json) : Except PyError PublicState := do
  let attributes ← attributesOf record
  let state ← match record with
    | .obj fields => .ok (Json.getD fields "state" (.str "unavailable"))
    | _ => .error .attributeError
  return ⟨state, ← pickAttributes attributes publicStateAttributes⟩

/-! ## Location -/

/-- `math.radians`. -/
def radians (x : Float) : Float := x * (3.141592653589793 / 180)

/-- `distance_meters`. Rounding can take the square root of a negative
number, which raises. -/
def distanceMeters (lat₁ lon₁ lat₂ lon₂ : Float) : Except PyError Float :=
  let one := radians lat₁
  let two := radians lat₂
  let value := Float.pow (Float.sin ((two - one) / 2)) 2 +
    Float.cos one * Float.cos two * Float.pow (Float.sin (radians (lon₂ - lon₁) / 2)) 2
  if value < 0 ∨ 1 - value < 0 then .error .valueError
  else .ok (6371008.8 * 2 * Float.atan2 (Float.sqrt value) (Float.sqrt (1 - value)))

/-- `get_location`, of what `/api/config` answers. -/
def locationOf (config : Json) : Except Failure (Float × Float) :=
  match config with
  | .obj fields =>
      match finiteNumber (Json.getD fields "latitude" .null),
        finiteNumber (Json.getD fields "longitude" .null) with
      | .error e, _ => .error (.python e)
      | _, .error e => .error (.python e)
      | .ok (some lat), .ok (some lon) =>
          if -90 ≤ lat ∧ lat ≤ 90 ∧ -180 ≤ lon ∧ lon ≤ 180 then .ok (lat, lon)
          else .error noLocation
      | _, _ => .error noLocation
  | _ => .error (.homeAssistant ⟨"Home Assistant returned invalid configuration", none⟩)
where
  noLocation : Failure :=
    .homeAssistant ⟨"Home Assistant has no valid registered location", none⟩

end Capabilities

end HomeAssistant

end AccessPages
