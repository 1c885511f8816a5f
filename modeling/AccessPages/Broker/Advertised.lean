import AccessPages.Broker.Views
import AccessPages.Pages.RoundTrip
/-!
# Broker — controls that are shown

`public_resource_state` shows the controls of an entity, and
`_resource_action` and `_service_data` take what a guest sends back. The
first computes the capabilities for the actions the entity supports, the
second for all that are saved, and strips a text before it looks it up.
Where a shown control can be used is said by `Clean`.
-/

namespace AccessPages

namespace Broker

open Pages (Page PageError Resource Action validatePage)
open HomeAssistant (actionSupported attributesOf finiteNumber normalizeCapabilities Capabilities
  under fanCapability temperatureCapability numberCapability scaled)

variable [Python]

/-! ## What is shown and what it is for -/

/-- An action that cannot be called without a parameter. -/
def needsParameter (domain service : String) : Bool :=
  (domain = "climate" && service ∈ ["set_temperature", "set_hvac_mode"]) ||
    domain ∈ ["number", "input_number", "select", "input_select"] ||
    (domain = "fan" && service = "set_percentage") ||
    (domain = "media_player" && service = "volume_set")

/-- The discrete values that are shown, each with its service and the
parameter it is sent as. -/
def discrete (c : Capabilities) : List (String × String × Json) :=
  (c.hvacModes.getD []).map (fun s => ("set_hvac_mode", "hvac_mode", .str s)) ++
    ((c.select.map (·.2)).getD []).map (fun s => ("select_option", "option", .str s)) ++
    ((c.fanPercentage.map (·.2)).getD []).map fun n => ("set_percentage", "percentage", .int n)

/-- The action is among those shown. -/
def ResourceView.Lists (view : ResourceView) (a : Action) : Prop := (a.id, a.name) ∈ view.actions

/-- **What is shown can be used**, while the record of the entity stays as
it is. -/
structure Usable (page : Page) (resource : Resource) (record : Json) (view : ResourceView) :
    Prop where
  plain : ∀ a ∈ resource.actions, view.Lists a → a.service ≠ "view" →
    needsParameter resource.domain a.service = false →
      resourceAction page resource.id a.id = .ok (resource, a) ∧
        ∃ data, serviceDataOf resource a [] (.arr [record]) = .ok data
  value : ∀ service key v, (service, key, v) ∈ discrete view.capabilities →
    ∀ a ∈ resource.actions, view.Lists a → a.service = service →
      serviceDataOf resource a [(key, v)] (.arr [record]) = .ok [(key, v)]

/-! ## What has to be clean -/

/-- An integer is within the range of a float. -/
def Fits : Json → Prop
  | .int n => (Float.ofInt n).isFinite = true
  | _ => True

/-- `round` has an answer. -/
def Rounds (x : Float) : Prop := x.isNaN = false ∧ x.isInf = false

/-- The attributes an action's capability reads as numbers. -/
def numbersOf (domain service : String) : List String :=
  if domain = "fan" ∧ service = "set_percentage" then ["percentage", "percentage_step"]
  else if domain = "climate" ∧ service = "set_temperature" then
    ["min_temp", "max_temp", "target_temp_step", "temperature"]
  else if domain = "media_player" ∧ service = "volume_set" then ["volume_level"]
  else []

/-- The numbers of an action's capability can be read, and what is rounded
is finite. -/
structure Legible (domain service : String) (fields : List (String × Json)) : Prop where
  fits : ∀ key ∈ numbersOf domain service, Fits (Json.getD fields key .null)
  speed : domain = "fan" → service = "set_percentage" → ∀ p s,
    finiteNumber (Json.getD fields "percentage" .null) = .ok (some p) →
    finiteNumber (Json.getD fields "percentage_step" .null) = .ok (some s) → 0 < s →
      Rounds (100 / s)
  volume : domain = "media_player" → service = "volume_set" → ∀ x,
    finiteNumber (Json.getD fields "volume_level" .null) = .ok (some x) → 0 ≤ x ∧ x ≤ 1 →
      Rounds (x * 100)

/-- The texts an action offers. -/
def offered (domain service : String) (fields : List (String × Json)) : List String :=
  if domain = "climate" ∧ service = "set_hvac_mode" then
    ((Json.getD fields "hvac_modes" .null).texts?).getD []
  else if domain ∈ ["select", "input_select"] ∧ service = "select_option" then
    ((Json.getD fields "options" .null).texts?).getD []
  else []

/-- The attributes of a record, if they are a dict. -/
def fieldsOf (record : Json) : List (String × Json) :=
  match attributesOf record with
  | .ok (.obj fields) => fields
  | _ => []

/-- **Where what is shown can be used**: no text that is offered begins or
ends with a blank, and the numbers of saved actions that the entity does
not support can be read. -/
structure Clean (resource : Resource) (record : Json) : Prop where
  texts : ∀ a ∈ resource.actions, actionSupported resource.domain a.service record = .ok true →
    ∀ s ∈ offered resource.domain a.service (fieldsOf record), strip s = s
  numbers : (∃ a ∈ resource.actions, a.service ≠ "view" ∧
      actionSupported resource.domain a.service record = .ok true) →
    ∀ a ∈ resource.actions, actionSupported resource.domain a.service record = .ok false →
      Legible resource.domain a.service (fieldsOf record)

/-! ## Numbers -/

section Numbers

variable {fields : List (String × Json)}

theorem finiteNumber_ok {v : Json} : (∃ o, finiteNumber v = .ok o) ↔ Fits v := by
  unfold finiteNumber
  cases v with
  | int n =>
      simp only [Json.toFloat, Fits]
      by_cases h : (Float.ofInt n).isFinite = true <;> simp [h]
  | str s =>
      simp only [Json.toFloat, Fits]
      cases Python.floatOfText s <;> simp
  | _ => simp [Json.toFloat, Fits]

omit [Python] in
theorem roundInt_ok {x : Float} : (∃ n, Json.roundInt x = .ok n) ↔ Rounds x := by
  unfold Json.roundInt Rounds
  cases x.isNaN with
  | true => exact iff_of_false (fun h => nomatch h.choose_spec) (fun h => nomatch h.1)
  | false =>
      cases x.isInf with
      | true => exact iff_of_false (fun h => nomatch h.choose_spec) (fun h => nomatch h.2)
      | false => exact iff_of_true ⟨_, rfl⟩ ⟨rfl, rfl⟩

omit [Python] in
@[simp] theorem get_obj (key : String) :
    Json.get (.obj fields) key = .ok (Json.getD fields key .null) := rfl

omit [Python] in
/-- The numbers are read one after the other. -/
theorem exists_bind_ok {ε α β : Type} {x : Except ε α} {f : α → Except ε β} :
    (∃ b, (x >>= f) = .ok b) ↔ ∃ a, x = .ok a ∧ ∃ b, f a = .ok b := by
  cases x with
  | error e => exact ⟨fun ⟨_, h⟩ => (nomatch h), fun ⟨_, h, _⟩ => (nomatch h)⟩
  | ok a => exact ⟨fun h => ⟨a, rfl, h⟩, fun ⟨_, h, h'⟩ => by cases h; exact h'⟩

omit [Python] in
theorem exists_ok_bind {ε α β : Type} {a : α} {f : α → Except ε β} :
    (∃ b, ((Except.ok a : Except ε α) >>= f) = .ok b) ↔ ∃ b, f a = .ok b := Iff.rfl

theorem fanCapability_ok :
    (∃ c, fanCapability (.obj fields) = .ok c) ↔ Legible "fan" "set_percentage" fields := by
  have hlegible : Legible "fan" "set_percentage" fields ↔
      (∃ o, finiteNumber (Json.getD fields "percentage" .null) = .ok o) ∧
        (∃ o, finiteNumber (Json.getD fields "percentage_step" .null) = .ok o) ∧
        ∀ p s, finiteNumber (Json.getD fields "percentage" .null) = .ok (some p) →
          finiteNumber (Json.getD fields "percentage_step" .null) = .ok (some s) → 0 < s →
            Rounds (100 / s) := by
    rw [finiteNumber_ok, finiteNumber_ok]
    constructor
    · intro h
      exact ⟨h.fits _ (by decide), h.fits _ (by decide), h.speed rfl rfl⟩
    · rintro ⟨hp, hs, hround⟩
      refine ⟨fun key hkey => ?_, fun _ _ => hround, fun h => absurd h (by decide)⟩
      rw [show numbersOf "fan" "set_percentage" = ["percentage", "percentage_step"] from rfl] at hkey
      simp only [List.mem_cons, List.not_mem_nil, or_false] at hkey
      rcases hkey with rfl | rfl
      · exact hp
      · exact hs
  rw [hlegible]
  unfold fanCapability
  simp only [get_obj, bind, Except.bind]
  generalize finiteNumber (Json.getD fields "percentage" .null) = x
  generalize finiteNumber (Json.getD fields "percentage_step" .null) = y
  rcases x with e | p
  · exact iff_of_false (by rintro ⟨_, ⟨⟩⟩) (by rintro ⟨⟨_, ⟨⟩⟩, -⟩)
  rcases y with e | s
  · exact iff_of_false (by rintro ⟨_, ⟨⟩⟩) (by rintro ⟨-, ⟨_, ⟨⟩⟩, -⟩)
  rcases p with _ | p
  · exact iff_of_true ⟨_, rfl⟩ ⟨⟨_, rfl⟩, ⟨_, rfl⟩, by rintro _ _ ⟨⟩⟩
  rcases s with _ | s
  · exact iff_of_true ⟨_, rfl⟩ ⟨⟨_, rfl⟩, ⟨_, rfl⟩, by rintro _ _ - ⟨⟩⟩
  -- both are numbers
  by_cases hpos : 0 < s
  · simp only [if_pos hpos]
    refine Iff.trans (b := Rounds (100 / s)) ?_ ⟨fun h => ⟨⟨_, rfl⟩, ⟨_, rfl⟩, ?_⟩, fun h => ?_⟩
    · rw [← roundInt_ok]
      cases Json.roundInt (100 / s) with
      | error e => exact iff_of_false (by rintro ⟨_, ⟨⟩⟩) (by rintro ⟨_, ⟨⟩⟩)
      | ok n => exact iff_of_true ⟨_, rfl⟩ ⟨n, rfl⟩
    · rintro _ _ ⟨⟩ ⟨⟩ _
      exact h
    · exact h.2.2 p s rfl rfl hpos
  · simp only [if_neg hpos]
    refine ⟨fun _ => ⟨⟨_, rfl⟩, ⟨_, rfl⟩, ?_⟩, fun _ => ⟨_, rfl⟩⟩
    rintro _ _ ⟨⟩ ⟨⟩ h
    exact absurd h hpos

theorem temperatureCapability_ok :
    (∃ c, temperatureCapability (.obj fields) = .ok c) ↔
      Legible "climate" "set_temperature" fields := by
  have hlegible : Legible "climate" "set_temperature" fields ↔
      (∃ o, finiteNumber (Json.getD fields "min_temp" .null) = .ok o) ∧
      (∃ o, finiteNumber (Json.getD fields "max_temp" .null) = .ok o) ∧
      (∃ o, finiteNumber (Json.getD fields "target_temp_step" .null) = .ok o) ∧
      (∃ o, finiteNumber (Json.getD fields "temperature" .null) = .ok o) := by
    simp only [finiteNumber_ok]
    constructor
    · intro h
      exact ⟨h.fits _ (by decide), h.fits _ (by decide), h.fits _ (by decide), h.fits _ (by decide)⟩
    · rintro ⟨hmin, hmax, hstep, hvalue⟩
      refine ⟨fun key hkey => ?_, fun h => absurd h (by decide), fun h => absurd h (by decide)⟩
      rw [show numbersOf "climate" "set_temperature" =
        ["min_temp", "max_temp", "target_temp_step", "temperature"] from rfl] at hkey
      simp only [List.mem_cons, List.not_mem_nil, or_false] at hkey
      rcases hkey with rfl | rfl | rfl | rfl <;> assumption
  rw [hlegible]
  unfold temperatureCapability
  simp only [get_obj, bind, Except.bind]
  generalize finiteNumber (Json.getD fields "min_temp" .null) = x
  generalize finiteNumber (Json.getD fields "max_temp" .null) = y
  generalize finiteNumber (Json.getD fields "temperature" .null) = z
  rcases x with e | x
  · exact iff_of_false (by rintro ⟨_, ⟨⟩⟩) (by rintro ⟨⟨_, ⟨⟩⟩, -⟩)
  rcases y with e | y
  · exact iff_of_false (by rintro ⟨_, ⟨⟩⟩) (by rintro ⟨-, ⟨_, ⟨⟩⟩, -⟩)
  cases hraw : Json.getD fields "target_temp_step" .null with
  | null =>
      -- a step that is missing is one degree
      rcases z with e | z
      · exact iff_of_false (by rintro ⟨_, ⟨⟩⟩) (by rintro ⟨-, -, -, _, ⟨⟩⟩)
      · refine iff_of_true ?_ ⟨⟨_, rfl⟩, ⟨_, rfl⟩, ⟨_, rfl⟩, _, rfl⟩
        dsimp only
        generalize HomeAssistant.rangeWithValue _ _ _ _ = range
        rcases range with _ | ⟨r, value⟩ <;> exact ⟨_, rfl⟩
  | _ =>
      dsimp only
      generalize finiteNumber _ = w
      rcases w with e | w
      · exact iff_of_false (by rintro ⟨_, ⟨⟩⟩) (by rintro ⟨-, -, ⟨_, ⟨⟩⟩, -⟩)
      rcases z with e | z
      · exact iff_of_false (by rintro ⟨_, ⟨⟩⟩) (by rintro ⟨-, -, -, _, ⟨⟩⟩)
      · refine iff_of_true ?_ ⟨⟨_, rfl⟩, ⟨_, rfl⟩, ⟨_, rfl⟩, _, rfl⟩
        dsimp only
        generalize HomeAssistant.rangeWithValue _ _ _ _ = range
        rcases range with _ | ⟨r, value⟩ <;> exact ⟨_, rfl⟩

theorem volumeCapability_ok :
    (∃ c, (do scaled (← (Json.obj fields).get "volume_level") 1 fun x => x * 100) = .ok c) ↔
      Legible "media_player" "volume_set" fields := by
  have hlegible : Legible "media_player" "volume_set" fields ↔
      (∃ o, finiteNumber (Json.getD fields "volume_level" .null) = .ok o) ∧
        ∀ x, finiteNumber (Json.getD fields "volume_level" .null) = .ok (some x) →
          0 ≤ x ∧ x ≤ 1 → Rounds (x * 100) := by
    rw [finiteNumber_ok]
    constructor
    · intro h
      exact ⟨h.fits _ (by decide), h.volume rfl rfl⟩
    · rintro ⟨hv, hround⟩
      refine ⟨fun key hkey => ?_, nofun, fun _ _ => hround⟩
      rw [show numbersOf "media_player" "volume_set" = ["volume_level"] from rfl] at hkey
      exact List.mem_singleton.mp hkey ▸ hv
  rw [hlegible]
  unfold scaled
  simp only [get_obj, bind, Except.bind]
  rcases finiteNumber (Json.getD fields "volume_level" .null) with e | _ | x
  · exact ⟨fun ⟨_, h⟩ => (nomatch h), fun ⟨⟨_, h⟩, _⟩ => (nomatch h)⟩
  · exact ⟨fun _ => ⟨⟨_, rfl⟩, nofun⟩, fun _ => ⟨_, rfl⟩⟩
  by_cases hrange : 0 ≤ x ∧ x ≤ 1
  · simp only [if_pos hrange]
    refine Iff.trans (b := Rounds (x * 100)) ?_ ⟨fun h => ⟨⟨_, rfl⟩, ?_⟩, fun h => h.2 x rfl hrange⟩
    · rw [← roundInt_ok]
      cases Json.roundInt (x * 100) with
      | error e => exact ⟨fun ⟨_, h⟩ => (nomatch h), fun ⟨_, h⟩ => (nomatch h)⟩
      | ok n => exact ⟨fun _ => ⟨n, rfl⟩, fun _ => ⟨_, rfl⟩⟩
    · rintro _ ⟨⟩ _
      exact h
  · simp only [if_neg hrange]
    refine ⟨fun _ => ⟨⟨_, rfl⟩, ?_⟩, fun _ => ⟨_, rfl⟩⟩
    rintro _ ⟨⟩ h
    exact absurd h hrange

end Numbers

/-! ## The capabilities of two lists of actions -/

/-- What `normalize_capabilities` computes, part by part. -/
structure Computed (domain : String) (state : Json) (fields : List (String × Json))
    (services : List String) (c : Capabilities) : Prop where
  number : under (domain ∈ ["number", "input_number"] && "set_value" ∈ services)
    (numberCapability state (.obj fields)) = .ok c.number
  fanPercentage : under (domain = "fan" && "set_percentage" ∈ services)
    (fanCapability (.obj fields)) = .ok c.fanPercentage
  temperature : under (domain = "climate" && "set_temperature" ∈ services)
    (temperatureCapability (.obj fields)) = .ok c.temperature
  hvacModes : c.hvacModes = if domain = "climate" ∧ "set_hvac_mode" ∈ services then
    (Json.getD fields "hvac_modes" .null).texts? else none
  select : c.select = if domain ∈ ["select", "input_select"] ∧ "select_option" ∈ services then
    (Json.getD fields "options" .null).texts?.map (state, ·) else none
  brightness : under (domain = "light" && "turn_on" ∈ services)
    (do let brightness ← (Json.obj fields).get "brightness"
        return (← scaled brightness 255 fun x => x / 255 * 100).map (max 1)) = .ok c.brightness
  volume : under (domain = "media_player" && "volume_set" ∈ services)
    (do scaled (← (Json.obj fields).get "volume_level") 1 fun x => x * 100) = .ok c.volume
  cover : under (domain = "cover")
    (do let position ← finiteNumber (← (Json.obj fields).get "current_position")
        let tilt ← finiteNumber (← (Json.obj fields).get "current_tilt_position")
        return some (position, tilt,
          (((HomeAssistant.curatedActions.lookup "cover").getD []).map Prod.fst).filter
            (· ∈ services))) = .ok c.cover

section Computed

variable {domain : String} {state : Json} {fields : List (String × Json)}
variable {services saved : List String} {c : Capabilities}

omit [Python] in
theorem under_pure {α : Type} {b : Bool} {o o' : Option α} :
    under b (.ok o) = .ok o' ↔ o' = if b = true then o else none := by
  cases b
  · exact ⟨fun h => (Except.ok.inj h).symm, fun h => h ▸ rfl⟩
  · exact ⟨fun h => (Except.ok.inj h).symm, fun h => h ▸ rfl⟩

theorem normalizeCapabilities_ok :
    normalizeCapabilities domain state (.obj fields) services = .ok c ↔
      Computed domain state fields services c := by
  have hobj : (if (Json.obj fields).truthy then Json.obj fields else .obj []) = .obj fields := by
    cases fields <;> rfl
  have hmodes : ∀ modes, under (domain = "climate") (do
      let modes ← (Json.obj fields).get "hvac_modes"
      return if "set_hvac_mode" ∈ services then modes.texts? else none) = .ok modes ↔
      modes = if domain = "climate" ∧ "set_hvac_mode" ∈ services then
        (Json.getD fields "hvac_modes" .null).texts? else none := by
    intro modes
    refine under_pure.trans ?_
    by_cases hd : domain = "climate" <;> simp [hd]
  have hselect : ∀ select, under (domain ∈ ["select", "input_select"] &&
      "select_option" ∈ services) (do
        return (← (Json.obj fields).get "options").texts?.map (state, ·)) = .ok select ↔
      select = if domain ∈ ["select", "input_select"] ∧ "select_option" ∈ services then
        (Json.getD fields "options" .null).texts?.map (state, ·) else none := by
    intro select
    refine under_pure.trans ?_
    simp only [Bool.and_eq_true, decide_eq_true_eq]
  unfold normalizeCapabilities
  rw [hobj]
  constructor
  · intro h
    obtain ⟨number, hnumber, h⟩ := Pages.except_bind_eq_ok.mp h
    obtain ⟨fan, hfan, h⟩ := Pages.except_bind_eq_ok.mp h
    obtain ⟨temperature, htemperature, h⟩ := Pages.except_bind_eq_ok.mp h
    obtain ⟨modes, hms, h⟩ := Pages.except_bind_eq_ok.mp h
    obtain ⟨select, hs, h⟩ := Pages.except_bind_eq_ok.mp h
    obtain ⟨brightness, hbrightness, h⟩ := Pages.except_bind_eq_ok.mp h
    obtain ⟨volume, hvolume, h⟩ := Pages.except_bind_eq_ok.mp h
    obtain ⟨cover, hcover, h⟩ := Pages.except_bind_eq_ok.mp h
    obtain rfl := Except.ok.inj h
    exact ⟨hnumber, hfan, htemperature, (hmodes _).mp hms, (hselect _).mp hs, hbrightness, hvolume,
      hcover⟩
  · intro h
    refine Pages.except_bind_eq_ok.mpr ⟨_, h.number, ?_⟩
    refine Pages.except_bind_eq_ok.mpr ⟨_, h.fanPercentage, ?_⟩
    refine Pages.except_bind_eq_ok.mpr ⟨_, h.temperature, ?_⟩
    refine Pages.except_bind_eq_ok.mpr ⟨_, (hmodes _).mpr h.hvacModes, ?_⟩
    refine Pages.except_bind_eq_ok.mpr ⟨_, (hselect _).mpr h.select, ?_⟩
    refine Pages.except_bind_eq_ok.mpr ⟨_, h.brightness, ?_⟩
    refine Pages.except_bind_eq_ok.mpr ⟨_, h.volume, ?_⟩
    exact Pages.except_bind_eq_ok.mpr ⟨_, h.cover, rfl⟩

omit [Python] in
/-- A part that is computed for some actions is the same for more of them,
if it can be computed at all. -/
theorem under_more {α : Type} {b p q : Bool} {x : Except PyError (Option α)} {o : Option α}
    (h : under (b && p) x = .ok o) (hpq : p = true → q = true)
    (hx : b = true → q = true → p = false → ∃ o, x = .ok o) :
    ∃ o', under (b && q) x = .ok o' ∧ (p = true → o' = o) := by
  cases b with
  | false => exact ⟨none, rfl, fun _ => Except.ok.inj h⟩
  | true =>
      cases p with
      | true =>
          rw [hpq rfl]
          exact ⟨o, h, fun _ => rfl⟩
      | false =>
          cases q with
          | false => exact ⟨none, rfl, nofun⟩
          | true =>
              obtain ⟨o', ho'⟩ := hx rfl rfl rfl
              exact ⟨o', ho', nofun⟩

/-- Nothing is read for an action without a number. -/
theorem legible_of_other {service : String} (hfan : ¬(domain = "fan" ∧ service = "set_percentage"))
    (hclimate : ¬(domain = "climate" ∧ service = "set_temperature"))
    (hvolume : ¬(domain = "media_player" ∧ service = "volume_set")) :
    Legible domain service fields := by
  refine ⟨fun key hkey => ?_, fun hd hs => absurd ⟨hd, hs⟩ hfan, fun hd hs => absurd ⟨hd, hs⟩ hvolume⟩
  unfold numbersOf at hkey
  rw [if_neg hfan, if_neg hclimate, if_neg hvolume] at hkey
  cases hkey

/-- Capabilities that were computed were legible. -/
theorem Computed.legible (h : Computed domain state fields services c) {service : String}
    (hs : service ∈ services) : Legible domain service fields := by
  by_cases hfan : domain = "fan" ∧ service = "set_percentage"
  · obtain ⟨rfl, rfl⟩ := hfan
    have hpart := h.fanPercentage
    rw [decide_eq_true hs] at hpart
    exact fanCapability_ok.mp ⟨_, hpart⟩
  by_cases hclimate : domain = "climate" ∧ service = "set_temperature"
  · obtain ⟨rfl, rfl⟩ := hclimate
    have hpart := h.temperature
    rw [decide_eq_true hs] at hpart
    exact temperatureCapability_ok.mp ⟨_, hpart⟩
  by_cases hvolume : domain = "media_player" ∧ service = "volume_set"
  · obtain ⟨rfl, rfl⟩ := hvolume
    have hpart := h.volume
    rw [decide_eq_true hs] at hpart
    exact volumeCapability_ok.mp ⟨_, hpart⟩
  exact legible_of_other hfan hclimate hvolume

/-- **The capabilities of more actions.** They can be computed where the
numbers of the further actions can be read, and what is offered as texts or
percentages is the same. -/
theorem Computed.more (h : Computed domain state fields services c)
    (hsub : ∀ s ∈ services, s ∈ saved)
    (hlegible : ∀ s ∈ saved, s ∉ services → Legible domain s fields)
    (hnumber : domain ∈ ["number", "input_number"] → "set_value" ∈ saved → "set_value" ∈ services)
    (hlight : domain = "light" → "turn_on" ∈ saved → "turn_on" ∈ services) :
    ∃ c', Computed domain state fields saved c' ∧
      ("set_hvac_mode" ∈ services → c'.hvacModes = c.hvacModes) ∧
      ("select_option" ∈ services → c'.select = c.select) ∧
      ("set_percentage" ∈ services → c'.fanPercentage = c.fanPercentage) := by
  have hin : ∀ s, decide (s ∈ services) = true → decide (s ∈ saved) = true := fun s hs =>
    decide_eq_true (hsub s (of_decide_eq_true hs))
  obtain ⟨number, hnum, -⟩ := under_more h.number (hin _) fun hd hs hno =>
    absurd (hnumber (of_decide_eq_true hd) (of_decide_eq_true hs)) (of_decide_eq_false hno)
  obtain ⟨fan, hfan, hfan'⟩ := under_more h.fanPercentage (hin _) fun hd hs hno =>
    fanCapability_ok.mpr (of_decide_eq_true hd ▸ hlegible _ (of_decide_eq_true hs)
      (of_decide_eq_false hno))
  obtain ⟨temperature, htemp, -⟩ := under_more h.temperature (hin _) fun hd hs hno =>
    temperatureCapability_ok.mpr (of_decide_eq_true hd ▸ hlegible _ (of_decide_eq_true hs)
      (of_decide_eq_false hno))
  obtain ⟨brightness, hbright, -⟩ := under_more h.brightness (hin _) fun hd hs hno =>
    absurd (hlight (of_decide_eq_true hd) (of_decide_eq_true hs)) (of_decide_eq_false hno)
  obtain ⟨volume, hvol, -⟩ := under_more h.volume (hin _) fun hd hs hno =>
    volumeCapability_ok.mpr (of_decide_eq_true hd ▸ hlegible _ (of_decide_eq_true hs)
      (of_decide_eq_false hno))
  -- the operations of a cover are only listed
  obtain ⟨cover, hcover⟩ : ∃ cover, under (domain = "cover")
      (do let position ← finiteNumber (← (Json.obj fields).get "current_position")
          let tilt ← finiteNumber (← (Json.obj fields).get "current_tilt_position")
          return some (position, tilt,
            (((HomeAssistant.curatedActions.lookup "cover").getD []).map Prod.fst).filter
              (· ∈ saved))) = .ok cover := by
    have hcover := h.cover
    by_cases hd : domain = "cover"
    · rw [decide_eq_true hd] at hcover ⊢
      obtain ⟨_, hget, hcover⟩ := Pages.except_bind_eq_ok.mp hcover
      obtain ⟨position, hposition, hcover⟩ := Pages.except_bind_eq_ok.mp hcover
      obtain ⟨_, hget', hcover⟩ := Pages.except_bind_eq_ok.mp hcover
      obtain ⟨tilt, htilt, -⟩ := Pages.except_bind_eq_ok.mp hcover
      exact ⟨_, Pages.except_bind_eq_ok.mpr ⟨_, hget, Pages.except_bind_eq_ok.mpr
        ⟨position, hposition, Pages.except_bind_eq_ok.mpr ⟨_, hget',
          Pages.except_bind_eq_ok.mpr ⟨tilt, htilt, rfl⟩⟩⟩⟩⟩
    · rw [decide_eq_false hd]
      exact ⟨none, rfl⟩
  obtain ⟨modes, hmodes⟩ : ∃ modes, modes =
      if domain = "climate" ∧ "set_hvac_mode" ∈ saved then
        (Json.getD fields "hvac_modes" .null).texts? else none := ⟨_, rfl⟩
  obtain ⟨select, hselect⟩ : ∃ select, select =
      if domain ∈ ["select", "input_select"] ∧ "select_option" ∈ saved then
        (Json.getD fields "options" .null).texts?.map (state, ·) else none := ⟨_, rfl⟩
  refine ⟨⟨number, fan, temperature, modes, select, brightness, volume, cover⟩,
    ⟨hnum, hfan, htemp, hmodes, hselect, hbright, hvol, hcover⟩, fun hs => ?_, fun hs => ?_,
    fun hs => hfan' (decide_eq_true hs)⟩
  · rw [hmodes, h.hvacModes]
    simp only [hs, hsub _ hs, and_true]
  · rw [hselect, h.select]
    simp only [hs, hsub _ hs, and_true]

end Computed

/-! ## Both sides -/

section Sides

variable {page : Page} {resource : Resource} {record state : Json} {view : ResourceView}
variable {fields : List (String × Json)} {a : Action}

omit [Python] in
theorem supportedActions_ok {domain : String} {as bs : List Action}
    (h : supportedActions domain record as = .ok bs) :
    (∀ a ∈ as, ∃ b, actionSupported domain a.service record = .ok b) ∧
      ∀ a, a ∈ bs ↔ a ∈ as ∧ actionSupported domain a.service record = .ok true := by
  induction as generalizing bs with
  | nil =>
      obtain rfl := Except.ok.inj h
      refine ⟨fun a ha => absurd ha List.not_mem_nil, fun a => iff_of_false List.not_mem_nil ?_⟩
      exact fun h => absurd h.1 List.not_mem_nil
  | cons c as ih =>
      obtain ⟨b, hb, h⟩ := Pages.except_bind_eq_ok.mp h
      obtain ⟨rest, hrest, h⟩ := Pages.except_bind_eq_ok.mp h
      obtain ⟨hall, hmem⟩ := ih hrest
      obtain rfl := Except.ok.inj h
      refine ⟨fun a ha => ?_, fun a => ?_⟩
      · rcases List.mem_cons.mp ha with rfl | ha
        · exact ⟨b, hb⟩
        · exact hall a ha
      · cases b with
        | true =>
            simp only [if_true, List.mem_cons, hmem]
            constructor
            · rintro (rfl | ⟨ha, hs⟩)
              · exact ⟨.inl rfl, hb⟩
              · exact ⟨.inr ha, hs⟩
            · rintro ⟨hin, hs⟩
              exact hin.imp_right fun ha => ⟨ha, hs⟩
        | false =>
            simp only [Bool.false_eq_true, if_false, List.mem_cons, hmem]
            constructor
            · rintro ⟨ha, hs⟩
              exact ⟨.inr ha, hs⟩
            · rintro ⟨rfl | ha, hs⟩
              · rw [hb] at hs
                cases hs
              · exact ⟨ha, hs⟩

/-- What a resource that is shown was made from. -/
structure Shown (resource : Resource) (record : Json) (fields : List (String × Json))
    (state : Json) (actions : List Action) (view : ResourceView) : Prop where
  attributes_eq : attributesOf record = .ok (.obj fields)
  state_eq : record.get "state" = .ok state
  actions_eq : supportedActions resource.domain record resource.actions = .ok actions
  capabilities : Computed resource.domain state fields (actions.map (·.service)) view.capabilities
  listed : view.actions = actions.map fun a => (a.id, a.name)

theorem publicResourceState_ok (h : publicResourceState resource record = .ok view) :
    ∃ fields state actions, Shown resource record fields state actions view := by
  obtain ⟨attributes, hattributes, h⟩ := Pages.except_bind_eq_ok.mp h
  obtain ⟨actions, hactions, h⟩ := Pages.except_bind_eq_ok.mp h
  obtain ⟨name, -, h⟩ := Pages.except_bind_eq_ok.mp h
  obtain ⟨shown, hshown, h⟩ := Pages.except_bind_eq_ok.mp h
  obtain ⟨state, hstate, h⟩ := Pages.except_bind_eq_ok.mp h
  obtain ⟨capabilities, hcapabilities, h⟩ := Pages.except_bind_eq_ok.mp h
  obtain rfl := Except.ok.inj h
  -- the shown attributes are picked from a dict
  have hobj : ∃ fields, attributes = .obj fields := by
    unfold HomeAssistant.publicStateFields at hshown
    obtain ⟨attributes', hattributes', hshown⟩ := Pages.except_bind_eq_ok.mp hshown
    obtain rfl : attributes = attributes' := Except.ok.inj (hattributes.symm.trans hattributes')
    have hpick : ∃ picked, HomeAssistant.pickAttributes attributes
        HomeAssistant.publicStateAttributes = .ok picked := by
      cases record with
      | obj _ =>
          obtain ⟨_, -, hshown⟩ := Pages.except_bind_eq_ok.mp hshown
          obtain ⟨picked, hpicked, -⟩ := Pages.except_bind_eq_ok.mp hshown
          exact ⟨picked, hpicked⟩
      | _ => cases hshown
    obtain ⟨picked, hpicked⟩ := hpick
    obtain ⟨_, hget, -⟩ := Pages.except_bind_eq_ok.mp hpicked
    cases attributes with
    | obj fields => exact ⟨fields, rfl⟩
    | _ => cases hget
  obtain ⟨fields, rfl⟩ := hobj
  exact ⟨fields, state, actions, hattributes, hstate, hactions,
    normalizeCapabilities_ok.mp hcapabilities, rfl⟩

omit [Python] in
theorem find?_key {α : Type} {f : α → String} {l : List α} (h : (l.map f).Nodup) {a : α}
    (ha : a ∈ l) : l.find? (fun b => f b = f a) = some a := by
  cases hfind : l.find? (fun b => f b = f a) with
  | none =>
      have := List.find?_eq_none.mp hfind a ha
      simp at this
  | some b =>
      have hb := List.find?_some hfind
      rw [decide_eq_true_eq] at hb
      exact congrArg some (List.inj_on_of_nodup_map h (List.mem_of_find?_eq_some hfind) ha hb)

/-- What `_service_data` answers, of a record that is the entity's. -/
theorem serviceDataOf_ok {supplied data : List (String × Json)}
    (hentity : record.get "entity_id" = .ok (.str resource.entityId))
    (hattributes : attributesOf record = .ok (.obj fields)) (hstate : record.get "state" = .ok state)
    (hsupported : actionSupported resource.domain a.service record = .ok true) :
    serviceDataOf resource a supplied (.arr [record]) = .ok data ↔ ∃ c,
      Computed resource.domain state fields (resource.actions.map (·.service)) c ∧ ∃ allowed,
        actionData resource.domain a.service supplied c = .ok (allowed, data) ∧
          supplied.any (·.1 ∉ allowed) = false := by
  have hstates : statesOf [resource.entityId] (.arr [record]) = .ok [record] := by
    simp [statesOf, HomeAssistant.filterStates, hentity, Json.inTexts, pyExc, bind, Except.bind,
      pure, Except.pure]
  have hvalid : HomeAssistant.validateActionState resource.domain a.service resource.entityId
      [record] = .ok record := by
    unfold HomeAssistant.validateActionState
    rw [List.find?_cons_of_pos (by simp [hentity])]
    simp only [bind, Except.bind, hsupported]
  unfold serviceDataOf
  rw [hstates]
  simp only [bind, Except.bind, hvalid, hstate, hattributes]
  simp only [← normalizeCapabilities_ok]
  cases normalizeCapabilities resource.domain state (.obj fields)
      (resource.actions.map (·.service)) with
  | error e => exact ⟨fun h => (nomatch h), fun ⟨_, h, _⟩ => (nomatch h)⟩
  | ok c =>
      refine Iff.trans ?_ (b := ∃ allowed, actionData resource.domain a.service supplied c =
        .ok (allowed, data) ∧ supplied.any (·.1 ∉ allowed) = false)
        ⟨fun h => ⟨c, rfl, h⟩, fun ⟨_, h, h'⟩ => by cases h; exact h'⟩
      simp only [pyExc]
      cases actionData resource.domain a.service supplied c with
      | error e => exact ⟨fun h => (nomatch h), fun ⟨_, h, _⟩ => (nomatch h)⟩
      | ok out =>
          obtain ⟨allowed, data'⟩ := out
          simp only
          constructor
          · intro h
            split at h
            · cases h
            · rename_i hany
              obtain rfl := Except.ok.inj h
              exact ⟨allowed, rfl, Bool.not_eq_true _ ▸ hany⟩
          · rintro ⟨_, h, hany⟩
            cases h
            rw [if_neg (by rw [hany]; exact Bool.false_ne_true)]

theorem Shown.lists {actions : List Action} (h : Shown resource record fields state actions view)
    (hnodup : (resource.actions.map (·.id)).Nodup) (ha : a ∈ resource.actions) :
    view.Lists a ↔ actionSupported resource.domain a.service record = .ok true := by
  have hmem := (supportedActions_ok h.actions_eq).2
  unfold ResourceView.Lists
  rw [h.listed]
  constructor
  · intro hlist
    obtain ⟨b, hb, heq⟩ := List.mem_map.mp hlist
    obtain ⟨hin, hs⟩ := (hmem b).mp hb
    obtain rfl := List.inj_on_of_nodup_map hnodup hin ha (Prod.mk.inj heq).1
    exact hs
  · intro hs
    exact List.mem_map_of_mem ((hmem a).mpr ⟨ha, hs⟩)

omit [Python] in
theorem curated_of_supported {domain service : String} (hview : service ≠ "view")
    (h : actionSupported domain service record = .ok true) :
    HomeAssistant.curated domain service = true := by
  unfold actionSupported at h
  rw [if_neg hview] at h
  split at h
  · cases h
  · rename_i hno
    by_contra hc
    rw [Bool.not_eq_true] at hc
    simp [hc] at hno

theorem resourceAction_ok (hpage : page.Checked) (hresource : resource ∈ page.resources)
    (ha : a ∈ resource.actions) (hview : a.service ≠ "view")
    (hcurated : HomeAssistant.curated resource.domain a.service = true) :
    resourceAction page resource.id a.id = .ok (resource, a) := by
  have hactions := (hpage.resources resource hresource).1.nodup
  have hsensor : resource.domain ≠ "sensor" := by
    intro hd
    rw [hd] at hcurated
    simp [HomeAssistant.curated, HomeAssistant.curatedActions, List.lookup] at hcurated
    exact hview hcurated.symm
  unfold resourceAction
  rw [find?_key hpage.nodup hresource]
  simp only
  rw [find?_key hactions ha]
  simp only [hcurated, Bool.not_true, Bool.false_eq_true, if_false, hsensor, hview, or_self]

/-! ## What the parameters become -/

section Parameters

variable {domain service : String} {c : Capabilities}

theorem actionData_plain (h : needsParameter domain service = false) :
    actionData domain service [] c = .ok ([], []) := by
  unfold needsParameter at h
  simp only [Bool.or_eq_false_iff, Bool.and_eq_false_iff, decide_eq_false_iff_not, List.mem_cons,
    List.not_mem_nil, or_false, not_or] at h
  obtain ⟨⟨⟨hclimate, hnumber, hinput, hselect, hinputSelect⟩, hfan⟩, hmedia⟩ := h
  unfold actionData
  rw [if_neg (by rintro ⟨hd, hs⟩; rcases hclimate with h | h; exacts [h hd, h.1 hs]),
    if_neg (by rintro ⟨hd, hs⟩; rcases hclimate with h | h; exacts [h hd, h.2 hs]),
    if_neg (by simp [hnumber, hinput]), if_neg (by simp [hselect, hinputSelect]),
    if_neg (by rintro ⟨hd, hs⟩; rcases hfan with h | h; exacts [h hd, h hs]),
    if_neg (by rintro ⟨-, -, h⟩; cases h),
    if_neg (by rintro ⟨hd, hs⟩; rcases hmedia with h | h; exacts [h hd, h hs])]

theorem actionData_mode (s : String) :
    actionData "climate" "set_hvac_mode" [("hvac_mode", .str s)] c =
      if strip s ∉ c.hvacModes.getD [] then .error (badRequest "Unsupported HVAC mode")
      else .ok (["hvac_mode"], [("hvac_mode", .str (strip s))]) := rfl

theorem actionData_option (h : domain ∈ ["select", "input_select"]) (s : String) :
    actionData domain service [("option", .str s)] c =
      if strip s ∉ (c.select.map (·.2)).getD [] then .error (badRequest "Unsupported option")
      else .ok (["option"], [("option", .str (strip s))]) := by
  simp only [List.mem_cons, List.not_mem_nil, or_false] at h
  rcases h with rfl | rfl <;> rfl

theorem actionData_percentage (n : Int) :
    actionData "fan" "set_percentage" [("percentage", .int n)] c =
      if n ∉ (c.fanPercentage.map (·.2)).getD [] then
        .error (badRequest "Unsupported fan percentage")
      else .ok (["percentage"], [("percentage", .int n)]) := rfl

/-- What a discrete value is: a text or a percentage the entity offers for
an action it supports. -/
theorem discrete_cases {services : List String} {key : String} {v : Json}
    (h : Computed domain state fields services c) (hv : (service, key, v) ∈ discrete c) :
    service ∈ services ∧
      ((domain = "climate" ∧ service = "set_hvac_mode" ∧ ∃ s, key = "hvac_mode" ∧ v = .str s ∧
          s ∈ c.hvacModes.getD []) ∨
        (domain ∈ ["select", "input_select"] ∧ service = "select_option" ∧ ∃ s, key = "option" ∧
          v = .str s ∧ s ∈ (c.select.map (·.2)).getD []) ∨
        (domain = "fan" ∧ service = "set_percentage" ∧ ∃ n, key = "percentage" ∧ v = .int n ∧
          n ∈ (c.fanPercentage.map (·.2)).getD [])) := by
  unfold discrete at hv
  rcases List.mem_append.mp hv with hv | hv
  · rcases List.mem_append.mp hv with hv | hv
    · obtain ⟨s, hs, heq⟩ := List.mem_map.mp hv
      cases heq
      have hmodes := h.hvacModes
      split at hmodes
      · rename_i hd
        exact ⟨hd.2, .inl ⟨hd.1, rfl, s, rfl, rfl, hs⟩⟩
      · rw [hmodes] at hs
        cases hs
    · obtain ⟨s, hs, heq⟩ := List.mem_map.mp hv
      cases heq
      have hselect := h.select
      split at hselect
      · rename_i hd
        exact ⟨hd.2, .inr (.inl ⟨hd.1, rfl, s, rfl, rfl, hs⟩)⟩
      · rw [hselect] at hs
        cases hs
  · obtain ⟨n, hn, heq⟩ := List.mem_map.mp hv
    cases heq
    have hfan := h.fanPercentage
    by_cases hd : domain = "fan" ∧ "set_percentage" ∈ services
    · exact ⟨hd.2, .inr (.inr ⟨hd.1, rfl, n, rfl, rfl, hn⟩)⟩
    · rw [show (decide (domain = "fan") && decide ("set_percentage" ∈ services)) = false by
        simpa using hd] at hfan
      rw [← Except.ok.inj hfan] at hn
      cases hn

theorem mem_offered_of_mode {services : List String} {s : String}
    (h : Computed "climate" state fields services c) (hs : s ∈ c.hvacModes.getD []) :
    s ∈ offered "climate" "set_hvac_mode" fields := by
  have hmodes := h.hvacModes
  split at hmodes
  · rw [hmodes] at hs
    exact hs
  · rw [hmodes] at hs
    cases hs

theorem mem_offered_of_option {services : List String} {s : String}
    (h : Computed domain state fields services c) (hs : s ∈ (c.select.map (·.2)).getD []) :
    s ∈ offered domain "select_option" fields := by
  have hselect := h.select
  split at hselect
  · rename_i hd
    unfold offered
    rw [if_neg fun h => absurd h.2 (by decide), if_pos ⟨hd.1, rfl⟩]
    rw [hselect] at hs
    cases ht : (Json.getD fields "options" .null).texts? with
    | none => rw [ht] at hs; cases hs
    | some texts => rw [ht] at hs; exact hs
  · rw [hselect] at hs
    cases hs

/-- A clean value is taken as it is. -/
theorem actionData_discrete {services : List String} {c' : Capabilities} {key : String} {v : Json}
    (h : Computed domain state fields services c) (hv : (service, key, v) ∈ discrete c)
    (hclean : ∀ s ∈ offered domain service fields, strip s = s)
    (hmodes : "set_hvac_mode" ∈ services → c'.hvacModes = c.hvacModes)
    (hselect : "select_option" ∈ services → c'.select = c.select)
    (hfan : "set_percentage" ∈ services → c'.fanPercentage = c.fanPercentage) :
    actionData domain service [(key, v)] c' = .ok ([key], [(key, v)]) := by
  obtain ⟨hin, hcases⟩ := discrete_cases h hv
  rcases hcases with ⟨rfl, rfl, s, rfl, rfl, hs⟩ | ⟨hd, rfl, s, rfl, rfl, hs⟩ |
    ⟨rfl, rfl, n, rfl, rfl, hn⟩
  · have hstrip := hclean s (mem_offered_of_mode h hs)
    rw [actionData_mode, hstrip, hmodes hin, if_neg (not_not.mpr hs)]
  · have hstrip := hclean s (mem_offered_of_option h hs)
    rw [actionData_option hd, hstrip, hselect hin, if_neg (not_not.mpr hs)]
  · rw [actionData_percentage, hfan hin, if_neg (not_not.mpr hn)]

theorem mem_discrete_of_offered {services : List String} {s : String}
    (h : Computed domain state fields services c) (hin : service ∈ services)
    (hs : s ∈ offered domain service fields) : ∃ key, (service, key, .str s) ∈ discrete c := by
  unfold offered at hs
  split at hs
  · rename_i hd
    obtain ⟨rfl, rfl⟩ := hd
    refine ⟨"hvac_mode", List.mem_append_left _ (List.mem_append_left _ ?_)⟩
    rw [h.hvacModes, if_pos ⟨rfl, hin⟩]
    exact List.mem_map_of_mem hs
  split at hs
  · rename_i hd
    obtain ⟨hd, rfl⟩ := hd
    refine ⟨"option", List.mem_append_left _ (List.mem_append_right _ ?_)⟩
    rw [h.select, if_pos ⟨hd, hin⟩]
    refine List.mem_map_of_mem ?_
    cases ht : (Json.getD fields "options" .null).texts? with
    | none => rw [ht] at hs; cases hs
    | some texts => rw [ht] at hs; exact hs
  · cases hs

/-- A text that is taken as it is has no blanks around it. -/
theorem strip_of_taken {services : List String} {c' : Capabilities} {key s : String}
    {allowed : List String} (h : Computed domain state fields services c)
    (hv : (service, key, .str s) ∈ discrete c)
    (hdata : actionData domain service [(key, .str s)] c' = .ok (allowed, [(key, .str s)])) :
    strip s = s := by
  obtain ⟨-, hcases⟩ := discrete_cases h hv
  rcases hcases with ⟨rfl, rfl, t, rfl, ht, -⟩ | ⟨hd, rfl, t, rfl, ht, -⟩ | ⟨-, -, n, -, hn, -⟩
  · rw [actionData_mode] at hdata
    split at hdata
    · cases hdata
    · exact Json.str.inj (Prod.mk.inj (List.cons.inj (Prod.mk.inj (Except.ok.inj hdata)).2).1).2
  · rw [actionData_option hd] at hdata
    split at hdata
    · cases hdata
    · exact Json.str.inj (Prod.mk.inj (List.cons.inj (Prod.mk.inj (Except.ok.inj hdata)).2).1).2
  · cases hn

end Parameters

/-! ## Where what is shown can be used -/

section Main

variable {actions : List Action}

theorem Shown.fieldsOf (h : Shown resource record fields state actions view) :
    fieldsOf record = fields := by
  unfold Broker.fieldsOf
  rw [h.attributes_eq]

theorem Shown.service_mem (h : Shown resource record fields state actions view)
    (ha : a ∈ resource.actions)
    (hs : actionSupported resource.domain a.service record = .ok true) :
    a.service ∈ actions.map (·.service) :=
  List.mem_map_of_mem (((supportedActions_ok h.actions_eq).2 a).mpr ⟨ha, hs⟩)

/-- An action of a service that is supported. -/
theorem Shown.supported (h : Shown resource record fields state actions view) {service : String}
    (hs : service ∈ actions.map (·.service)) : ∃ a ∈ resource.actions, a.service = service ∧
      actionSupported resource.domain service record = .ok true := by
  obtain ⟨a, ha, rfl⟩ := List.mem_map.mp hs
  obtain ⟨hin, hs⟩ := ((supportedActions_ok h.actions_eq).2 a).mp ha
  exact ⟨a, hin, rfl, hs⟩

/-- What is saved is supported, or is not. -/
theorem Shown.unsupported (h : Shown resource record fields state actions view)
    (ha : a ∈ resource.actions) (hno : a.service ∉ actions.map (·.service)) :
    actionSupported resource.domain a.service record = .ok false := by
  obtain ⟨b, hb⟩ := (supportedActions_ok h.actions_eq).1 a ha
  cases b with
  | true => exact absurd (h.service_mem ha hb) hno
  | false => exact hb

omit [Python] in
/-- Nothing else than the number of a number is set. -/
theorem service_of_number {domain service : String} (hd : domain ∈ ["number", "input_number"])
    (hcurated : HomeAssistant.curated domain service = true) : service = "set_value" := by
  simp only [List.mem_cons, List.not_mem_nil, or_false] at hd
  rcases hd with rfl | rfl <;>
    simp [HomeAssistant.curated, HomeAssistant.curatedActions, List.lookup] at hcurated <;>
    exact hcurated.symm

omit [Python] in
/-- A light that can be turned off can be turned on. -/
theorem light_supported {service : String} (hview : service ≠ "view")
    (h : actionSupported "light" service record = .ok true) :
    actionSupported "light" "turn_on" record = .ok true := by
  have hcurated := curated_of_supported hview h
  simp [HomeAssistant.curated, HomeAssistant.curatedActions, List.lookup] at hcurated
  rcases hcurated with rfl | rfl
  · exact h
  · exact h

/-- **Clean controls can be used.** -/
theorem usable_of_clean (hpage : page.Checked) (hresource : resource ∈ page.resources)
    (hentity : record.get "entity_id" = .ok (.str resource.entityId))
    (hshown : Shown resource record fields state actions view) (hclean : Clean resource record) :
    Usable page resource record view := by
  have hnodup := (hpage.resources resource hresource).1.nodup
  have hfields := hshown.fieldsOf
  -- the capabilities of all saved actions, once one of them is listed
  have hmore : ∀ a ∈ resource.actions, view.Lists a → a.service ≠ "view" → ∃ c',
      Computed resource.domain state fields (resource.actions.map (·.service)) c' ∧
        ("set_hvac_mode" ∈ actions.map (·.service) → c'.hvacModes = view.capabilities.hvacModes) ∧
        ("select_option" ∈ actions.map (·.service) → c'.select = view.capabilities.select) ∧
        ("set_percentage" ∈ actions.map (·.service) →
          c'.fanPercentage = view.capabilities.fanPercentage) := by
    intro a ha hlist hview
    have hsupported := (hshown.lists hnodup ha).mp hlist
    refine hshown.capabilities.more (fun s hs => ?_) (fun s hs hno => ?_) (fun hd hs => ?_)
      fun hd hs => ?_
    · obtain ⟨b, hb, rfl, -⟩ := hshown.supported hs
      exact List.mem_map_of_mem hb
    · obtain ⟨b, hb, rfl⟩ := List.mem_map.mp hs
      exact hfields ▸ hclean.numbers ⟨a, ha, hview, hsupported⟩ b hb (hshown.unsupported hb hno)
    · have hservice := service_of_number hd (curated_of_supported hview hsupported)
      exact hservice ▸ hshown.service_mem ha hsupported
    · obtain ⟨b, hb, hon⟩ := List.mem_map.mp hs
      rw [hd] at hsupported
      refine hon ▸ hshown.service_mem hb ?_
      rw [hd, hon]
      exact light_supported hview hsupported
  refine ⟨fun a ha hlist hview hplain => ?_, fun service key v hv a ha hlist hservice => ?_⟩
  · have hsupported := (hshown.lists hnodup ha).mp hlist
    refine ⟨resourceAction_ok hpage hresource ha hview (curated_of_supported hview hsupported),
      [], ?_⟩
    obtain ⟨c', hc', -⟩ := hmore a ha hlist hview
    refine (serviceDataOf_ok hentity hshown.attributes_eq hshown.state_eq hsupported).mpr
      ⟨c', hc', [], actionData_plain hplain, rfl⟩
  · have hsupported := (hshown.lists hnodup ha).mp hlist
    subst hservice
    have hview : a.service ≠ "view" := by
      intro hview
      obtain ⟨-, h | h | h⟩ := discrete_cases hshown.capabilities hv
      · exact absurd (hview.symm.trans h.2.1) (by decide)
      · exact absurd (hview.symm.trans h.2.1) (by decide)
      · exact absurd (hview.symm.trans h.2.1) (by decide)
    obtain ⟨c', hc', hmodes, hselect, hfan⟩ := hmore a ha hlist hview
    have hdata := actionData_discrete hshown.capabilities hv (hfields ▸ hclean.texts a ha hsupported)
      hmodes hselect hfan
    refine (serviceDataOf_ok hentity hshown.attributes_eq hshown.state_eq hsupported).mpr
      ⟨c', hc', [key], hdata, ?_⟩
    simp

omit [Python] in
theorem exists_mem_of_texts {v : Json} (h : v.texts?.isSome = true) : ∃ s, s ∈ v.texts?.getD [] := by
  cases v with
  | arr items =>
      unfold Json.texts? at h ⊢
      dsimp only at h ⊢
      cases items with
      | nil => cases h
      | cons v items =>
          split at h
          · cases h
          split at h
          · rename_i hlen
            rw [if_neg (by simp), if_pos hlen]
            refine List.exists_mem_of_length_pos ?_
            rw [Option.getD_some, hlen]
            exact Nat.zero_lt_succ _
          · cases h
  | _ => cases h

omit [Python] in
/-- A mode can be set where there are modes. -/
theorem modes_of_supported (hattributes : attributesOf record = .ok (.obj fields))
    (h : actionSupported "climate" "set_hvac_mode" record = .ok true) :
    ((Json.getD fields "hvac_modes" .null).texts?).isSome = true := by
  unfold actionSupported at h
  rw [if_neg (by decide)] at h
  split at h
  · cases h
  obtain ⟨current, -, h⟩ := Pages.except_bind_eq_ok.mp h
  obtain ⟨gone, -, h⟩ := Pages.except_bind_eq_ok.mp h
  split at h
  · cases h
  split at h
  · cases h
  obtain ⟨unknown, -, h⟩ := Pages.except_bind_eq_ok.mp h
  split at h
  · cases h
  rw [hattributes] at h
  obtain ⟨_, hobj, h⟩ := Pages.except_bind_eq_ok.mp h
  obtain rfl := Except.ok.inj hobj
  obtain ⟨feature, -, h⟩ := Pages.except_bind_eq_ok.mp h
  split at h
  · cases h
  · exact Except.ok.inj h

/-- **Controls that can be used are clean.** -/
theorem clean_of_usable (hpage : page.Checked) (hresource : resource ∈ page.resources)
    (hentity : record.get "entity_id" = .ok (.str resource.entityId))
    (hshown : Shown resource record fields state actions view)
    (husable : Usable page resource record view) : Clean resource record := by
  have hnodup := (hpage.resources resource hresource).1.nodup
  have hfields := hshown.fieldsOf
  have hvalue : ∀ a ∈ resource.actions,
      actionSupported resource.domain a.service record = .ok true → ∀ key v,
      (a.service, key, v) ∈ discrete view.capabilities → ∃ c',
        Computed resource.domain state fields (resource.actions.map (·.service)) c' ∧ ∃ allowed,
          actionData resource.domain a.service [(key, v)] c' = .ok (allowed, [(key, v)]) := by
    intro a ha hsupported key v hv
    have hdata := husable.value a.service key v hv a ha ((hshown.lists hnodup ha).mpr hsupported) rfl
    obtain ⟨c', hc', allowed, hdata, -⟩ :=
      (serviceDataOf_ok hentity hshown.attributes_eq hshown.state_eq hsupported).mp hdata
    exact ⟨c', hc', allowed, hdata⟩
  refine ⟨fun a ha hsupported s hs => ?_, fun ⟨a, ha, hview, hsupported⟩ b hb hno => ?_⟩
  · rw [hfields] at hs
    obtain ⟨key, hv⟩ :=
      mem_discrete_of_offered hshown.capabilities (hshown.service_mem ha hsupported) hs
    obtain ⟨c', -, allowed, hdata⟩ := hvalue a ha hsupported key _ hv
    exact strip_of_taken hshown.capabilities hv hdata
  · rw [hfields]
    have hcurated := curated_of_supported hview hsupported
    have hne : a.service ≠ b.service := by
      intro he
      rw [he, hno] at hsupported
      cases hsupported
    -- the capabilities of all saved actions were computed for `a`
    suffices hgo : needsParameter resource.domain a.service = false ∨
        (resource.domain = "climate" ∧ a.service = "set_hvac_mode") ∨
        Legible resource.domain b.service fields by
      rcases hgo with hplain | ⟨hd, hmode⟩ | hlegible
      · obtain ⟨-, data, hdata⟩ :=
          husable.plain a ha ((hshown.lists hnodup ha).mpr hsupported) hview hplain
        obtain ⟨c', hc', -⟩ :=
          (serviceDataOf_ok hentity hshown.attributes_eq hshown.state_eq hsupported).mp hdata
        exact hc'.legible (List.mem_map_of_mem hb)
      · have htexts : ((Json.getD fields "hvac_modes" .null).texts?).isSome = true :=
          modes_of_supported hshown.attributes_eq (hd ▸ hmode ▸ hsupported)
        obtain ⟨s, hs⟩ := exists_mem_of_texts htexts
        have hoffered : s ∈ offered resource.domain a.service fields := by
          unfold offered
          rw [if_pos ⟨hd, hmode⟩]
          exact hs
        obtain ⟨key, hv⟩ :=
          mem_discrete_of_offered hshown.capabilities (hshown.service_mem ha hsupported) hoffered
        obtain ⟨c', hc', -⟩ := hvalue a ha hsupported key _ hv
        exact hc'.legible (List.mem_map_of_mem hb)
      · exact hlegible
    by_cases hfan : resource.domain = "fan" ∧ b.service = "set_percentage"
    · rw [hfan.1] at hcurated
      simp [HomeAssistant.curated, HomeAssistant.curatedActions, List.lookup] at hcurated
      rcases hcurated with h | h | h
      · exact .inl (by rw [hfan.1, ← h]; decide)
      · exact .inl (by rw [hfan.1, ← h]; decide)
      · exact absurd (h.symm.trans hfan.2.symm) hne
    by_cases hclimate : resource.domain = "climate" ∧ b.service = "set_temperature"
    · rw [hclimate.1] at hcurated
      simp [HomeAssistant.curated, HomeAssistant.curatedActions, List.lookup] at hcurated
      rcases hcurated with h | h
      · exact absurd (h.symm.trans hclimate.2.symm) hne
      · exact .inr (.inl ⟨hclimate.1, h.symm⟩)
    by_cases hvolume : resource.domain = "media_player" ∧ b.service = "volume_set"
    · rw [hvolume.1] at hcurated
      simp [HomeAssistant.curated, HomeAssistant.curatedActions, List.lookup] at hcurated
      rcases hcurated with h | h | h | h
      · exact .inl (by rw [hvolume.1, ← h]; decide)
      · exact .inl (by rw [hvolume.1, ← h]; decide)
      · exact .inl (by rw [hvolume.1, ← h]; decide)
      · exact absurd (h.symm.trans hvolume.2.symm) hne
    exact .inr (.inr (legible_of_other hfan hclimate hvolume))

end Main

end Sides

/-- **Shown controls can be used** exactly where they are clean: for every
resource of a page that is accepted and every record of its entity that can
be shown. -/
theorem advertised_controls {payload : Json} {requiredId : Option String} {page : Page}
    {resource : Resource} {record : Json} {view : ResourceView}
    (hpage : validatePage payload requiredId = .ok page) (hresource : resource ∈ page.resources)
    (hentity : record.get "entity_id" = .ok (.str resource.entityId))
    (hview : publicResourceState resource record = .ok view) :
    Usable page resource record view ↔ Clean resource record := by
  have hchecked := Pages.validatePage_checked hpage
  obtain ⟨fields, state, actions, hshown⟩ := publicResourceState_ok hview
  exact ⟨clean_of_usable hchecked hresource hentity hshown,
    usable_of_clean hchecked hresource hentity hshown⟩

/-! ## A heating mode -/

/-- A page with the mode of a boiler. -/
def boilerPayload : Json :=
  .obj [("id", .str "home"), ("title", .str "Home"), ("resources", .arr [.obj [("id", .str "mode"),
    ("entity_id", .str "select.boiler"), ("domain", .str "select"), ("name", .str "Boiler"),
    ("actions", .arr [.obj [("id", .str "select_option"), ("name", .str "Select option"),
      ("service", .str "select_option")]])]])]

def boilerResource : Resource where
  id := "mode"
  name := "Boiler"
  entityId := "select.boiler"
  domain := "select"
  widget := .auto
  actions := [⟨"select_option", "Select option", "select_option"⟩]
  cameraRefreshInterval := none
  id_re := by decide
  domain_eq := by decide

def boilerPage : Page where
  id := "home"
  title := "Home"
  description := ""
  proximity := ⟨false, 500, Pages.radius_bounds⟩
  resources := [boilerResource]
  accessGrants := []
  id_re := by decide

/-- Its record, with one option. -/
def boilerRecord (option : String) : Json :=
  .obj [("entity_id", .str "select.boiler"), ("state", .str "off"),
    ("attributes", .obj [("options", .arr [.str option])])]

omit [Python] in
theorem boiler_shown (option : String) :
    letI := Python.plain
    ∃ view, publicResourceState boilerResource (boilerRecord option) = .ok view := by
  let _ := Python.plain
  exact ⟨_, rfl⟩

omit [Python] in
theorem boiler_accepted :
    letI := Python.plain
    validatePage boilerPayload none = .ok boilerPage := by
  let _ := Python.plain
  decide +kernel

omit [Python] in
theorem advertised_controls_boiler :
    letI := Python.plain
    ∃ view, publicResourceState boilerResource (boilerRecord "eco") = .ok view ∧
      (Usable boilerPage boilerResource (boilerRecord "eco") view ↔
        Clean boilerResource (boilerRecord "eco")) := by
  let _ := Python.plain
  obtain ⟨view, hview⟩ := boiler_shown "eco"
  exact ⟨view, hview, advertised_controls boiler_accepted List.mem_cons_self rfl hview⟩

omit [Python] in
/-- An option that begins with a blank is shown and cannot be chosen. -/
theorem advertised_controls_refused :
    letI := Python.plain
    ¬ ∀ (payload : Json) (page : Page) (resource : Resource) (record : Json) (view : ResourceView),
      validatePage payload none = .ok page → resource ∈ page.resources →
      record.get "entity_id" = .ok (.str resource.entityId) →
      publicResourceState resource record = .ok view → Usable page resource record view := by
  let _ := Python.plain
  intro h
  obtain ⟨view, hview⟩ := boiler_shown " eco"
  have husable := h boilerPayload boilerPage boilerResource (boilerRecord " eco") view
    boiler_accepted List.mem_cons_self rfl hview
  obtain ⟨fields, state, actions, hshown⟩ := publicResourceState_ok hview
  have hclean := clean_of_usable (Pages.validatePage_checked boiler_accepted) List.mem_cons_self rfl
    hshown husable
  have hsupported : actionSupported "select" "select_option" (boilerRecord " eco") = .ok true := rfl
  have hoffered : " eco" ∈ offered "select" "select_option" (fieldsOf (boilerRecord " eco")) :=
    List.mem_cons_self
  have hstrip := hclean.texts _ List.mem_cons_self hsupported " eco" hoffered
  exact absurd hstrip (by decide +kernel)

end Broker

end AccessPages
