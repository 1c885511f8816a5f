import AccessPages.HomeAssistant.Model
/-!
# Home Assistant — what the public attributes determine

A guest is shown the attributes of `PUBLIC_STATE_ATTRIBUTES`, but the
supported actions and the controls are computed from the attributes as
Home Assistant reports them. They read nothing else: on two records that
are `Alike` every one of these functions gives the same answer.
-/

namespace AccessPages

namespace HomeAssistant

/-! ## Records that are alike -/

/-- The attributes of a record that is a dict. -/
def attributesIn (fields : List (String × Json)) : Json :=
  let attributes := Json.getD fields "attributes" .null
  if attributes.truthy then attributes else .obj []

/-- The public attributes are the same. -/
def SamePublic (a b : Json) : Prop := ∀ key ∈ publicStateAttributes, a.get key = b.get key

/-- **Two records a guest cannot tell apart**: the state is the same, and so
are the public attributes. -/
inductive Alike : Json → Json → Prop
  | mk {fields fields' : List (String × Json)}
      (state : Json.get? fields "state" = Json.get? fields' "state")
      (attributes : SamePublic (attributesIn fields) (attributesIn fields')) :
      Alike (.obj fields) (.obj fields')

variable {fields fields' : List (String × Json)} {a b record record' : Json}

@[simp] theorem attributesOf_obj : attributesOf (.obj fields) = .ok (attributesIn fields) := rfl

@[simp] theorem get_obj_state :
    Json.get (.obj fields) "state" = .ok ((Json.get? fields "state").getD .null) := rfl

/-- What `attributesOf` gives is not defaulted again. -/
theorem attributesIn_defaulted :
    (if (attributesIn fields).truthy then attributesIn fields else .obj []) =
      attributesIn fields := by
  unfold attributesIn
  by_cases h : (Json.getD fields "attributes" .null).truthy = true
  · simp only [h, if_true]
  · simp only [h, Bool.false_eq_true, if_false, ite_self]

theorem SamePublic.refl (a : Json) : SamePublic a a := fun _ _ => rfl

theorem Alike.refl (fields : List (String × Json)) : Alike (.obj fields) (.obj fields) :=
  ⟨rfl, SamePublic.refl _⟩

/-! ## Supported actions -/

theorem SamePublic.featureSupported (h : SamePublic a b) (domain service : String) :
    featureSupported domain service a = featureSupported domain service b := by
  unfold HomeAssistant.featureSupported
  rw [h "supported_features" (by decide)]

/-- A record without a state supports only being looked at, as an empty one
does. -/
theorem actionSupported_stateless (hstate : Json.get? fields "state" = none)
    (domain service : String) :
    actionSupported domain service (.obj fields) = .ok (service = "view") := by
  unfold actionSupported
  by_cases hview : service = "view"
  · simp only [hview, if_true, decide_true]
  simp only [hview, if_false, decide_false, get_obj_state, hstate, Option.getD_none]
  split <;> rfl

theorem truthy_of_get? {key : String} {v : Json} (h : Json.get? fields key = some v) :
    (Json.obj fields).truthy = true := by
  cases fields with
  | nil => cases h
  | cons field fields => rfl

/-- **Which actions are supported is public.** -/
theorem Alike.actionSupported (h : Alike record record') (domain service : String) :
    actionSupported domain service record = actionSupported domain service record' := by
  obtain ⟨hstate, hattributes⟩ := h
  rename_i fields fields'
  cases hs : Json.get? fields "state" with
  | none =>
      rw [actionSupported_stateless hs, actionSupported_stateless (hstate.symm.trans hs)]
  | some state =>
      have hs' := hstate.symm.trans hs
      unfold HomeAssistant.actionSupported
      rw [truthy_of_get? hs, truthy_of_get? hs']
      simp only [get_obj_state, hs, hs', attributesOf_obj, bind, Except.bind,
        hattributes.featureSupported domain service, hattributes "hvac_modes" (by decide)]

/-! ## Capabilities -/

section Capabilities

variable [Python]

theorem SamePublic.numberCapability (h : SamePublic a b) (state : Json) :
    numberCapability state a = numberCapability state b := by
  unfold HomeAssistant.numberCapability
  rw [h "min" (by decide), h "max" (by decide), h "step" (by decide)]

theorem SamePublic.fanCapability (h : SamePublic a b) : fanCapability a = fanCapability b := by
  unfold HomeAssistant.fanCapability
  rw [h "percentage" (by decide), h "percentage_step" (by decide)]

theorem SamePublic.temperatureCapability (h : SamePublic a b) :
    temperatureCapability a = temperatureCapability b := by
  unfold HomeAssistant.temperatureCapability
  rw [h "min_temp" (by decide), h "max_temp" (by decide), h "target_temp_step" (by decide),
    h "temperature" (by decide), h "temperature_unit" (by decide)]

/-- **The controls are public.** -/
theorem SamePublic.normalizeCapabilities
    (h : SamePublic (attributesIn fields) (attributesIn fields')) (domain : String) (state : Json)
    (services : List String) :
    normalizeCapabilities domain state (attributesIn fields) services =
      normalizeCapabilities domain state (attributesIn fields') services := by
  unfold HomeAssistant.normalizeCapabilities
  simp only [attributesIn_defaulted]
  rw [h.numberCapability, h.fanCapability, h.temperatureCapability, h "hvac_modes" (by decide),
    h "options" (by decide), h "brightness" (by decide), h "volume_level" (by decide),
    h "current_position" (by decide), h "current_tilt_position" (by decide)]

end Capabilities

/-! ## What is shown -/

theorem SamePublic.pickAttributes (h : SamePublic a b) {keys : List String}
    (hkeys : keys ⊆ publicStateAttributes) : pickAttributes a keys = pickAttributes b keys := by
  induction keys with
  | nil => rfl
  | cons key keys ih =>
      unfold HomeAssistant.pickAttributes
      rw [h key (hkeys List.mem_cons_self), ih fun k hk => hkeys (List.mem_cons_of_mem _ hk)]

theorem Alike.publicStateFields (h : Alike record record') :
    publicStateFields record = publicStateFields record' := by
  obtain ⟨hstate, hattributes⟩ := h
  unfold HomeAssistant.publicStateFields
  simp only [attributesOf_obj, Json.getD, hstate, bind, Except.bind]
  rw [hattributes.pickAttributes (List.Subset.refl _)]

end HomeAssistant

end AccessPages
