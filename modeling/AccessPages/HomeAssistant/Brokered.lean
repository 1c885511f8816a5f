import AccessPages.HomeAssistant.Discovery
/-!
# Home Assistant — discovery through the broker

The gateway can ask the broker for a discovery instead of Home Assistant. The
broker answers with a result that it has sorted and counted, and the client
filters and counts again what it reads of it. Wherever the broker has an
answer, the client ends with the result of a discovery of its own.
-/

namespace AccessPages

namespace HomeAssistant

open Pages (except_bind_eq_ok)

/-! ## Sorting what passes a filter -/

section Sorting

variable {α : Type*} {le : α → α → Bool}

theorem filter_append_eq_left {q : α → Bool} {l₁ l₂ : List α} (h₁ : ∀ b ∈ l₁, q b = true)
    (h₂ : ∀ b ∈ l₂, q b = false) : (l₁ ++ l₂).filter q = l₁ := by
  rw [List.filter_append, List.filter_eq_self.mpr h₁, List.filter_eq_nil_iff.mpr, List.append_nil]
  intro b hb hq
  exact absurd (hq.symm.trans (h₂ b hb)) nofun

theorem filter_append_eq_right {q : α → Bool} {l₁ l₂ : List α} (h₁ : ∀ b ∈ l₁, q b = false)
    (h₂ : ∀ b ∈ l₂, q b = true) : (l₁ ++ l₂).filter q = l₂ := by
  rw [List.filter_append, List.filter_eq_self.mpr h₂, List.filter_eq_nil_iff.mpr, List.nil_append]
  intro b hb hq
  exact absurd (hq.symm.trans (h₁ b hb)) nofun

/-- A first element goes before the ones it is not after, which keep their
order. -/
theorem mergeSort_cons_eq (trans : ∀ a b c, le a b → le b c → le a c)
    (total : ∀ a b, le a b || le b a) (a : α) (l : List α) :
    (a :: l).mergeSort le =
      (l.mergeSort le).filter (fun b => !le a b) ++ a :: (l.mergeSort le).filter (le a) := by
  obtain ⟨l₁, l₂, hcons, hl, hfirst⟩ := List.mergeSort_cons trans total a l
  have hsorted : (l₁ ++ a :: l₂).Pairwise fun b c => le b c = true :=
    hcons ▸ List.pairwise_mergeSort trans total (a :: l)
  have hrest : ∀ b ∈ l₂, le a b = true :=
    (List.pairwise_cons.mp (List.pairwise_append.mp hsorted).2.1).1
  have hfirst' : ∀ b ∈ l₁, le a b = false := fun b hb => by simpa using hfirst b hb
  have hrest' : ∀ b ∈ l₂, (!le a b) = false := fun b hb => by rw [hrest b hb, Bool.not_true]
  rw [hcons, hl, filter_append_eq_left hfirst hrest', filter_append_eq_right hfirst' hrest]

/-- **Filtering a sorted list is sorting the filtered one.** -/
theorem mergeSort_filter (trans : ∀ a b c, le a b → le b c → le a c)
    (total : ∀ a b, le a b || le b a) (p : α → Bool) (l : List α) :
    (l.mergeSort le).filter p = (l.filter p).mergeSort le := by
  induction l with
  | nil => rw [List.mergeSort_nil, List.filter_nil, List.mergeSort_nil]
  | cons a l ih =>
      by_cases hp : p a = true
      · have hswap (q : α → Bool) : ((l.mergeSort le).filter q).filter p =
            ((l.filter p).mergeSort le).filter q := by
          rw [← ih, List.filter_filter, List.filter_filter]
          exact List.filter_congr fun b _ => Bool.and_comm _ _
        rw [mergeSort_cons_eq trans total, List.filter_append, List.filter_cons_of_pos hp, hswap,
          hswap, List.filter_cons_of_pos hp, mergeSort_cons_eq trans total]
      · obtain ⟨l₁, l₂, hcons, hl, -⟩ := List.mergeSort_cons trans total a l
        rw [hcons, List.filter_append, List.filter_cons_of_neg hp, List.filter_cons_of_neg hp, ← ih, hl,
          List.filter_append]

end Sorting

/-! ## The filters narrow a discovery -/

section Keyed

variable {α β : Type} {p : β → Bool} {k : α} {e : β} {keyed : List (α × β)}

theorem filter_snd_of_pos (he : p e = true) :
    ((k, e) :: keyed).filter (fun x => p x.2) = (k, e) :: keyed.filter fun x => p x.2 :=
  List.filter_cons_of_pos he

theorem filter_snd_of_neg (he : ¬ p e = true) :
    ((k, e) :: keyed).filter (fun x => p x.2) = keyed.filter fun x => p x.2 :=
  List.filter_cons_of_neg he

end Keyed

section Narrowing

variable {f : Filters}

theorem except_bind_ok {ε α β : Type} {x : Except ε α} {g : α → Except ε β} {a : α}
    (h : x = .ok a) : (x >>= g) = g a := by
  rw [h]
  rfl

theorem entityAllowed_unfiltered (entityId domain deviceClass areaId : String) :
    Filters.unfiltered.entityAllowed entityId domain deviceClass areaId = true := by
  simp [Filters.entityAllowed, Filters.unfiltered]

theorem byArea_unfiltered : Filters.unfiltered.byArea = false := by
  simp [Filters.byArea, Filters.unfiltered]

variable {l : Lookups}

/-- What is offered is what the filters were asked about. -/
theorem allowed_of_offered {state : Json} {s : Sight} {e : Entity}
    (h : offered l state s = .ok (some e)) : e.allowed f = s.allowed f := by
  unfold offered at h
  obtain ⟨current, -, h⟩ := except_bind_eq_ok.mp h
  obtain ⟨hidden, -, h⟩ := except_bind_eq_ok.mp h
  split at h
  · cases h
  obtain ⟨offers, -, h⟩ := except_bind_eq_ok.mp h
  obtain ⟨name, -, h⟩ := except_bind_eq_ok.mp h
  obtain rfl := Option.some.inj (Except.ok.inj h)
  rfl

variable [Python]

/-- An entity is left out for its own sake. -/
theorem entityOf_filter {state : Json} {entity : Option Entity}
    (h : entityOf .unfiltered l state = .ok entity) :
    entityOf f l state = .ok (entity.filter (Entity.allowed f)) := by
  obtain ⟨sight, hsight, h⟩ := except_bind_eq_ok.mp h
  refine except_bind_eq_ok.mpr ⟨sight, hsight, ?_⟩
  cases sight with
  | none =>
      obtain rfl := Except.ok.inj h
      rfl
  | some s =>
      have hoffered : offered l state s = .ok entity := by
        have hall : s.allowed .unfiltered = true := entityAllowed_unfiltered _ _ _ _
        dsimp only at h
        rw [hall] at h
        exact h
      dsimp only
      cases hs : s.allowed f with
      | true =>
          cases entity with
          | none => exact hoffered
          | some e =>
              rw [Option.filter_some, if_pos ((allowed_of_offered hoffered).trans hs)]
              exact hoffered
      | false =>
          cases entity with
          | none => rfl
          | some e =>
              have he : e.allowed f = false := (allowed_of_offered hoffered).trans hs
              rw [Option.filter_some, he]
              rfl

theorem entitiesOf_filter {states : List Json} {es : List Entity}
    (h : entitiesOf .unfiltered l states = .ok es) :
    entitiesOf f l states = .ok (es.filter (Entity.allowed f)) := by
  induction states generalizing es with
  | nil =>
      obtain rfl := Except.ok.inj h
      rfl
  | cons state states ih =>
      obtain ⟨entity, hentity, h⟩ := except_bind_eq_ok.mp h
      obtain ⟨rest, hrest, h⟩ := except_bind_eq_ok.mp h
      obtain rfl := Except.ok.inj h
      refine except_bind_eq_ok.mpr ⟨_, entityOf_filter hentity,
        except_bind_eq_ok.mpr ⟨_, ih hrest, ?_⟩⟩
      rw [List.filter_append]
      refine congrArg (fun es => Except.ok (es ++ rest.filter (Entity.allowed f))) ?_
      exact Option.toList_filter

theorem sortKeys_filter (p : Entity → Bool) {es : List Entity}
    {keyed : List ((String × String) × Entity)} (h : sortKeys es = .ok keyed) :
    sortKeys (es.filter p) = .ok (keyed.filter fun k => p k.2) := by
  induction es generalizing keyed with
  | nil =>
      obtain rfl := Except.ok.inj h
      rfl
  | cons e es ih =>
      obtain ⟨key, hkey, h⟩ := except_bind_eq_ok.mp h
      obtain ⟨rest, hrest, h⟩ := except_bind_eq_ok.mp h
      obtain rfl := Except.ok.inj h
      by_cases he : p e = true
      · rw [List.filter_cons_of_pos he, filter_snd_of_pos he]
        exact except_bind_eq_ok.mpr ⟨key, hkey, except_bind_eq_ok.mpr ⟨_, ih hrest, rfl⟩⟩
      · rw [List.filter_cons_of_neg he, filter_snd_of_neg he]
        exact ih hrest

omit [Python] in
theorem keyLe_trans (a b c : (String × String) × Entity) (hab : keyLe a b = true)
    (hbc : keyLe b c = true) : keyLe a c = true := by
  unfold keyLe at *
  simp only [Bool.or_eq_true, Bool.and_eq_true, decide_eq_true_eq] at *
  rcases hab with hab | ⟨hab, hab'⟩
  · rcases hbc with hbc | ⟨hbc, -⟩
    · exact .inl (hab.trans hbc)
    · exact .inl (hbc ▸ hab)
  · rcases hbc with hbc | ⟨hbc, hbc'⟩
    · exact .inl (hab ▸ hbc)
    · exact .inr ⟨hab.trans hbc, hab'.trans hbc'⟩

omit [Python] in
theorem keyLe_total (a b : (String × String) × Entity) : (keyLe a b || keyLe b a) = true := by
  unfold keyLe
  simp only [Bool.or_eq_true, Bool.and_eq_true, decide_eq_true_eq]
  rcases lt_trichotomy a.1.1 b.1.1 with h | h | h
  · exact .inl (.inl h)
  · rcases le_total a.1.2 b.1.2 with h' | h'
    · exact .inl (.inr ⟨h, h'⟩)
    · exact .inr (.inr ⟨h.symm, h'⟩)
  · exact .inr (.inl h)

/-- **Filtering commutes with the sort**, so it does not matter which comes
first. -/
theorem sortEntities_filter (p : Entity → Bool) {es sorted : List Entity}
    (h : sortEntities es = .ok sorted) : sortEntities (es.filter p) = .ok (sorted.filter p) := by
  obtain ⟨keyed, hkeyed, h⟩ := except_bind_eq_ok.mp h
  obtain rfl := Except.ok.inj h
  refine except_bind_eq_ok.mpr ⟨_, sortKeys_filter p hkeyed, ?_⟩
  rw [← mergeSort_filter keyLe_trans keyLe_total, List.filter_map]
  rfl

/-- **A filtered discovery is the unfiltered one, filtered**, wherever there
is an unfiltered one. -/
theorem discoverEntities_eq_under {a : Answers} {found : Found Entity}
    (h : discoverEntities .unfiltered a = .ok found) : discoverEntities f a = found.under f := by
  obtain ⟨states, hstates, h⟩ := except_bind_eq_ok.mp h
  obtain ⟨complete, hcomplete, h⟩ := except_bind_eq_ok.mp h
  refine (except_bind_ok hstates).trans ((except_bind_ok hcomplete).trans ?_)
  have hpass : ¬ (Filters.unfiltered.byArea = true ∧ complete = false) := fun hblocked =>
    absurd (byArea_unfiltered.symm.trans hblocked.1) nofun
  rw [if_neg hpass] at h
  obtain ⟨services, hservices, h⟩ := except_bind_eq_ok.mp h
  obtain ⟨domains, hdomains, h⟩ := except_bind_eq_ok.mp h
  obtain ⟨entities, hentities, h⟩ := except_bind_eq_ok.mp h
  obtain ⟨sorted, hsorted, h⟩ := except_bind_eq_ok.mp h
  obtain rfl := Except.ok.inj h
  unfold Found.under
  by_cases hblocked : f.byArea = true ∧ complete = false
  · obtain ⟨hby, rfl⟩ := hblocked
    rw [if_pos ⟨hby, rfl⟩]
    exact (if_pos ⟨hby, Bool.false_ne_true⟩).symm
  · have hknown : ¬ (f.byArea = true ∧ ¬ isTrue (Json.bool complete) = true) := fun h =>
      hblocked ⟨h.1, Bool.eq_false_iff.mpr h.2⟩
    rw [if_neg hblocked]
    refine Eq.trans ?_ (if_neg hknown).symm
    have hnarrowed := entitiesOf_filter (f := f) (pyFailure_ok hentities)
    have hsorted' := sortEntities_filter (Entity.allowed f) (pyFailure_ok hsorted)
    refine (except_bind_ok hservices).trans ((except_bind_ok hdomains).trans ?_)
    refine (except_bind_ok (congrArg pyFailure hnarrowed)).trans ?_
    exact except_bind_ok (congrArg pyFailure hsorted')

end Narrowing

/-! ## What crosses the process boundary -/

def textsJson (texts : List String) : Json := .arr (texts.map Json.str)

def Offer.toJson (o : Offer) : Json :=
  .obj [("service", .str o.service), ("name", .str o.name), ("description", o.description),
    ("fields", o.fields)]

def Entity.toJson (e : Entity) : Json :=
  .obj [("entity_id", .str e.entityId), ("domain", .str e.domain), ("name", e.name),
    ("state", e.state), ("device_class", .str e.deviceClass), ("type", .str e.type),
    ("area_id", .str e.areaId), ("area_name", .str e.areaName), ("attributes", e.attributes),
    ("actions", .arr (e.offers.map Offer.toJson))]

def Policy.toJson (p : Policy) : Json :=
  .obj [("restricted", .bool p.restricted), ("include_areas", textsJson p.includeAreas),
    ("include_domains", textsJson p.includeDomains),
    ("include_device_classes", textsJson p.includeDeviceClasses),
    ("include_entities", textsJson p.includeEntities),
    ("exclude_domains", textsJson p.excludeDomains), ("exclude_areas", textsJson p.excludeAreas),
    ("exclude_device_classes", textsJson p.excludeDeviceClasses),
    ("exclude_entities", textsJson p.excludeEntities)]

def Found.toJson (found : Found Entity) : Json :=
  .obj [("area_metadata_available", found.areaMetadataAvailable),
    ("entity_count", .int found.entityCount), ("domain_count", .int found.domainCount),
    ("domain_counts", .obj (found.domainCounts.map fun c => (c.1, .int c.2))),
    ("allowed_domains", textsJson found.allowedDomains), ("policy", found.policy.toJson),
    ("entities", .arr (found.entities.map Entity.toJson))]

section Boundary

variable [Python]

/-- `/v1/discovery` of a broker with the filters `b`, as a client meets it. -/
def brokerAnswer (b : Filters) (a : Answers) : Except HomeAssistantError Json :=
  match discoverEntities b a with
  | .ok found => .ok found.toJson
  | .error e => .error (brokerFailure e)

end Boundary

/-- `value[key]`. -/
def item (v : Json) (key : String) : Except PyError Json :=
  match v with
  | .obj fields =>
      match Json.get? fields key with
      | some value => .ok value
      | none => .error .keyError
  | _ => .error .typeError

/-- The entities of an answer, which are a list. -/
def itemsOf : Json → Except PyError (List Json)
  | .arr items => .ok items
  | _ => .error .typeError

/-- A field that the broker sends as a text. -/
def textOf : Json → Except PyError String
  | .str s => .ok s
  | _ => .error .typeError

/-- `entity.get(key, "")`. -/
def givenText (v : Json) (key : String) : Except PyError String :=
  match v with
  | .obj fields => textOf (Json.getD fields key (.str ""))
  | _ => .error .attributeError

/-- An entity of the answer passes the client's filters. -/
def clientAllowed (f : Filters) (v : Json) : Except PyError Bool := do
  let entityId ← textOf (← item v "entity_id")
  let domain ← textOf (← item v "domain")
  let deviceClass ← givenText v "device_class"
  let areaId ← givenText v "area_id"
  return f.entityAllowed entityId domain deviceClass areaId

def clientFilter (f : Filters) : List Json → Except PyError (List Json)
  | [] => .ok []
  | v :: vs => do
      let keep ← clientAllowed f v
      let rest ← clientFilter f vs
      return if keep then v :: rest else rest

def clientDomains : List Json → Except PyError (List String)
  | [] => .ok []
  | v :: vs => do
      let domain ← textOf (← item v "domain")
      return domain :: (← clientDomains vs)

/-- `discover_entities` of a client of the broker, of its answer. -/
def brokerDiscover (f : Filters) (answer : Except HomeAssistantError Json) :
    Except Failure (Found Json) := do
  match ← haFailure answer with
  | .obj fields =>
      let complete := Json.getD fields "area_metadata_available" .null
      if f.byArea ∧ ¬ isTrue complete then .error areasUnavailable
      else do
        let items ← pyFailure (itemsOf (← pyFailure (item (.obj fields) "entities")))
        let entities ← pyFailure (clientFilter f items)
        let domains ← pyFailure (clientDomains entities)
        return f.found complete domains entities
  | _ => .error (.homeAssistant ⟨"Home Assistant broker returned invalid discovery data", none⟩)

/-- A result with what is read for each entity. -/
def Found.map {ε ε' : Type} (g : ε → ε') (found : Found ε) : Found ε' :=
  { found with entities := found.entities.map g }

/-! ## The client reads what was written -/

section Reading

variable {f : Filters}

theorem clientAllowed_toJson (e : Entity) : clientAllowed f e.toJson = .ok (e.allowed f) := rfl

theorem clientFilter_toJson (es : List Entity) :
    clientFilter f (es.map Entity.toJson) = .ok ((es.filter (Entity.allowed f)).map Entity.toJson) := by
  induction es with
  | nil => rfl
  | cons e es ih =>
      refine (except_bind_ok (clientAllowed_toJson e)).trans ((except_bind_ok ih).trans ?_)
      by_cases he : e.allowed f = true
      · rw [List.filter_cons_of_pos he, if_pos he]
        rfl
      · rw [List.filter_cons_of_neg he, if_neg he]
        rfl

theorem clientDomains_toJson (es : List Entity) :
    clientDomains (es.map Entity.toJson) = .ok (es.map Entity.domain) := by
  induction es with
  | nil => rfl
  | cons e es ih => exact except_bind_ok ih

theorem found_map {ε ε' : Type} (g : ε → ε') (complete : Json) (domains : List String)
    (entities : List ε) :
    f.found complete domains (entities.map g) = (f.found complete domains entities).map g := by
  unfold Filters.found Found.map
  dsimp only
  rw [List.length_map]

/-- **The client reads the broker's result** as it was written. -/
theorem brokerDiscover_toJson (found : Found Entity) :
    brokerDiscover f (.ok found.toJson) = (found.under f).map (Found.map Entity.toJson) := by
  unfold Found.under
  by_cases hblocked : f.byArea = true ∧ ¬ isTrue found.areaMetadataAvailable = true
  · rw [if_pos hblocked]
    exact if_pos hblocked
  · rw [if_neg hblocked]
    refine (if_neg hblocked).trans ?_
    refine (except_bind_ok (congrArg pyFailure (clientFilter_toJson found.entities))).trans ?_
    refine (except_bind_ok (congrArg pyFailure (clientDomains_toJson _))).trans ?_
    exact congrArg Except.ok (found_map _ _ _ _)

end Reading

/-! ## Brokered discovery is direct discovery -/

section Brokered

variable [Python] {f : Filters}

omit [Python] in
/-- A failure of Home Assistant is none of Python's. -/
theorem pyFailure_bind_eq_error {α β : Type} {x : Except PyError α} {g : α → Except Failure β}
    {h : HomeAssistantError} (hx : (pyFailure x >>= g) = .error (.homeAssistant h)) :
    ∃ a, x = .ok a ∧ g a = .error (.homeAssistant h) := by
  cases x with
  | ok a => exact ⟨a, rfl, hx⟩
  | error e => cases hx

/-- Where a request to Home Assistant fails, a filtered discovery fails too,
with that failure or for want of areas. -/
theorem discoverEntities_error {a : Answers} {h : HomeAssistantError}
    (hall : discoverEntities .unfiltered a = .error (.homeAssistant h)) :
    discoverEntities f a = .error (.homeAssistant h) ∨
      f.byArea = true ∧ discoverEntities f a = .error areasUnavailable := by
  unfold discoverEntities at hall ⊢
  cases hstates : haFailure (listOf a.states "Home Assistant returned an invalid state list") with
  | error e =>
      rw [hstates] at hall
      exact .inl hall
  | ok states =>
      rw [hstates] at hall
      obtain ⟨complete, hcomplete, hall⟩ := pyFailure_bind_eq_error hall
      rw [except_bind_ok rfl, except_bind_ok (congrArg pyFailure hcomplete)]
      have hpass : ¬ (Filters.unfiltered.byArea = true ∧ complete = false) := fun hblocked =>
        absurd (byArea_unfiltered.symm.trans hblocked.1) nofun
      rw [if_neg hpass] at hall
      by_cases hblocked : f.byArea = true ∧ complete = false
      · rw [if_pos hblocked]
        exact .inr ⟨hblocked.1, rfl⟩
      · rw [if_neg hblocked]
        left
        cases hservices : haFailure
            (listOf a.services "Home Assistant returned an invalid service list") with
        | error e =>
            rw [hservices] at hall
            exact hall
        | ok services =>
            rw [hservices] at hall
            obtain ⟨domains, -, hall⟩ := pyFailure_bind_eq_error hall
            obtain ⟨entities, -, hall⟩ := pyFailure_bind_eq_error hall
            obtain ⟨sorted, -, hall⟩ := pyFailure_bind_eq_error hall
            cases hall

/-- **Brokered discovery equals direct discovery**, wherever the broker has
an answer: the client returns the same result, or both raise, which they do
only because a filter on areas lacks complete metadata. Where the broker's own
discovery raises, so does the client; and if it was a request to Home
Assistant that failed, direct discovery raises that failure too, or is
blocked for want of areas. -/
theorem brokered_discovery_eq_direct (f : Filters) (a : Answers) :
    match discoverEntities .unfiltered a with
    | .ok found =>
        brokerDiscover f (brokerAnswer .unfiltered a) =
            (discoverEntities f a).map (Found.map Entity.toJson) ∧
          ∀ e, discoverEntities f a = .error e ↔
            e = areasUnavailable ∧ f.byArea ∧ ¬ isTrue found.areaMetadataAvailable
    | .error e =>
        brokerDiscover f (brokerAnswer .unfiltered a) = .error (.homeAssistant (brokerFailure e)) ∧
          ∀ h, e = .homeAssistant h → discoverEntities f a = .error e ∨
            f.byArea ∧ discoverEntities f a = .error areasUnavailable := by
  cases hall : discoverEntities .unfiltered a with
  | error e =>
      refine ⟨?_, ?_⟩
      · unfold brokerAnswer
        rw [hall]
        rfl
      · rintro h rfl
        exact discoverEntities_error hall
  | ok found =>
      have hdirect := discoverEntities_eq_under (f := f) hall
      unfold brokerAnswer
      rw [hall, hdirect]
      refine ⟨brokerDiscover_toJson found, fun e => ?_⟩
      unfold Found.under
      by_cases hblocked : f.byArea = true ∧ ¬ isTrue found.areaMetadataAvailable = true
      · rw [if_pos hblocked]
        constructor
        · intro h
          exact ⟨(Except.error.inj h).symm, hblocked⟩
        · rintro ⟨rfl, -⟩
          rfl
      · rw [if_neg hblocked]
        exact iff_of_false nofun fun h => hblocked h.2

end Brokered

/-! ## Where the broker has no answer -/

/-- One light, named by a number. -/
def numberedLight : Answers where
  states := .ok (.arr [.obj [("entity_id", .str "light.door"), ("state", .str "on"),
    ("attributes", .obj [("friendly_name", .int 5)])]])
  areas := .error ⟨"Home Assistant returned an error", some 500⟩
  names := .error ⟨"Home Assistant returned an error", some 500⟩
  services := .ok (.arr [])

/-- The filters of a client that leaves the light out. -/
def withoutLight : Filters := { Filters.unfiltered with excludeEntities := {"light.door"} }

/-- A failure over an entity that the client leaves out still ends the
broker's discovery: the client raises, and a discovery of its own would have
returned. -/
theorem brokered_discovery_raises_alone :
    letI := Python.plain
    brokerDiscover withoutLight (brokerAnswer .unfiltered numberedLight) ≠
      (discoverEntities withoutLight numberedLight).map (Found.map Entity.toJson) := by
  let _ := Python.plain
  intro h
  have hbroker :
      (brokerDiscover withoutLight (brokerAnswer .unfiltered numberedLight)).toBool = false := by
    decide +kernel
  have hdirect : (discoverEntities withoutLight numberedLight).toBool = true := by
    decide +kernel
  rw [h] at hbroker
  cases hfound : discoverEntities withoutLight numberedLight with
  | error e =>
      rw [hfound] at hdirect
      cases hdirect
  | ok found =>
      rw [hfound] at hbroker
      cases hbroker

end HomeAssistant

end AccessPages
