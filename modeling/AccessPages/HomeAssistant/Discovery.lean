import AccessPages.HomeAssistant.Model
import AccessPages.Pages.Helpers
/-!
# Home Assistant — discovery

`discover_entities`: the entities a page may use, with the actions each
of them offers, under the filters of the configuration, sorted and counted.
The gateway asks Home Assistant itself or a broker that has filters of its
own.
-/

namespace AccessPages

namespace HomeAssistant

open Pages (entityDomain except_bind_eq_ok)

/-! ## Filters -/

/-- The configured filters. -/
structure Filters where
  includeAreas : Finset String
  includeDomains : Finset String
  includeDeviceClasses : Finset String
  includeEntities : Finset String
  excludeAreas : Finset String
  excludeDomains : Finset String
  excludeDeviceClasses : Finset String
  excludeEntities : Finset String
  deriving DecidableEq

/-- No filter at all. -/
def Filters.unfiltered : Filters := ⟨∅, ∅, ∅, ∅, ∅, ∅, ∅, ∅⟩

/-- `entity_allowed`. -/
def Filters.entityAllowed (f : Filters) (entityId domain deviceClass areaId : String) : Bool :=
  if (f.includeDomains ≠ ∅ ∧ domain ∉ f.includeDomains) ∨ entityId ∈ f.excludeEntities ∨
      domain ∈ f.excludeDomains ∨ (areaId ≠ "" ∧ areaId ∈ f.excludeAreas) ∨
      (deviceClass ≠ "" ∧ deviceClass ∈ f.excludeDeviceClasses) then false
  -- these filters narrow the domains, none of them enables another one
  else if f.includeAreas = ∅ ∧ f.includeDeviceClasses = ∅ ∧ f.includeEntities = ∅ then true
  else entityId ∈ f.includeEntities ∨ (areaId ≠ "" ∧ areaId ∈ f.includeAreas) ∨
    (deviceClass ≠ "" ∧ deviceClass ∈ f.includeDeviceClasses)

/-- `policy_restricted`. -/
def Filters.restricted (f : Filters) : Bool :=
  f.includeAreas ≠ ∅ ∨ f.includeDomains ≠ ∅ ∨ f.includeDeviceClasses ≠ ∅ ∨ f.includeEntities ≠ ∅

/-- The areas of the entities have to be known. -/
def Filters.byArea (f : Filters) : Bool := f.includeAreas ≠ ∅ ∨ f.excludeAreas ≠ ∅

/-- An action that is offered. -/
structure Offer where
  service : String
  name : String
  description : Json
  fields : Json

/-- The action of an entity that has no other. -/
def viewOffer (name description : String) : Offer := ⟨"view", name, .str description, .obj []⟩

/-- An entity that is offered, with its actions. -/
structure Entity where
  entityId : String
  domain : String
  name : Json
  state : Json
  deviceClass : String
  areaId : String
  areaName : String
  attributes : Json
  offers : List Offer

/-- `device_class or domain`. -/
def Entity.type (e : Entity) : String := if e.deviceClass ≠ "" then e.deviceClass else e.domain

/-- The service and the name of each action. -/
def Entity.actions (e : Entity) : List (String × String) := e.offers.map fun o => (o.service, o.name)

def Entity.allowed (f : Filters) (e : Entity) : Bool :=
  f.entityAllowed e.entityId e.domain e.deviceClass e.areaId

/-- `value is True`. -/
def isTrue : Json → Bool
  | .bool b => b
  | _ => false

/-! ## What Home Assistant answers -/

/-- The answers to the requests of a discovery. -/
structure Answers where
  states : Except HomeAssistantError Json
  areas : Except HomeAssistantError Json
  names : Except HomeAssistantError Json
  services : Except HomeAssistantError Json

/-- A request whose answer has to be a list. -/
def listOf (answer : Except HomeAssistantError Json) (message : String) :
    Except HomeAssistantError (List Json) :=
  match answer with
  | .error e => .error e
  | .ok (.arr items) => .ok items
  | .ok _ => .error ⟨message, none⟩

/-- A field that is a text. -/
def textField? (fields : List (String × Json)) (key : String) : Option String :=
  match Json.get? fields key with
  | some (.str s) => some s
  | _ => none

/-- Where an entity is. -/
structure Area where
  areaId : String
  areaName : String

/-- `{}`, of which either field is read as the empty text. -/
def Area.none : Area := ⟨"", ""⟩

/-- The rows of `get_entity_areas`: each entity once, with its area. -/
def areaRows (seen : List String) : List Json → Option (List (String × Area))
  | [] => some []
  | .obj fields :: items => do
      let entityId ← textField? fields "entity_id"
      let areaId ← textField? fields "area_id"
      let areaName ← textField? fields "area_name"
      if entityId = "" ∨ entityId ∈ seen then none
      else return (entityId, ⟨areaId, areaName⟩) :: (← areaRows (entityId :: seen) items)
  | _ => none

/-- `get_entity_areas`. -/
def getEntityAreas (a : Answers) : Except HomeAssistantError (List (String × Area)) := do
  let items ← listOf a.areas "Home Assistant returned invalid area metadata"
  match areaRows [] items with
  | some rows => return rows
  | none => .error ⟨"Home Assistant returned invalid area metadata", none⟩

/-- `get_entity_names`. A later row replaces an earlier one. -/
def getEntityNames (a : Answers) :
    Except HomeAssistantError (List (String × List (String × Json))) := do
  let items ← listOf a.names "Home Assistant returned invalid name metadata"
  return (items.filterMap fun
    | .obj fields => (textField? fields "entity_id").map (·, fields)
    | _ => none).reverse

/-- A domain with its services. A domain that is no text is never asked
for, but has to hash. -/
def serviceRow : Json → Except PyError (Option (String × Json))
  | .obj fields =>
      let domain := Json.getD fields "domain" .null
      if !domain.truthy then .ok none
      else match domain with
        | .str s => .ok (some (s, Json.getD fields "services" (.obj [])))
        | .arr _ => .error .typeError
        | .obj _ => .error .typeError
        | _ => .ok none
  | _ => .ok none

def serviceRows : List Json → Except PyError (List (String × Json))
  | [] => .ok []
  | item :: items => do
      let row ← serviceRow item
      return row.toList ++ (← serviceRows items)

/-- `{item.get("domain"): item.get("services", {}) for item in ...}`. A later
row replaces an earlier one. -/
def serviceDomains (items : List Json) : Except PyError (List (String × Json)) := do
  return (← serviceRows items).reverse

/-! ## Entities -/

/-- `"." in entity_id`. -/
def dotted : Json → Except PyError Bool
  | .str s => .ok ('.' ∈ s.toList)
  | .arr items => .ok (items.any fun | .str s => s = "." | _ => false)
  | .obj fields => .ok (fields.any (·.1 = "."))
  | _ => .error .typeError

/-- `state.get("entity_id") in entity_areas` for all of them; the first that
is not ends the search. -/
def allIn (areas : List (String × Area)) : List Json → Except PyError Bool
  | [] => .ok true
  | state :: states => do
      if ← (← state.get "entity_id").inTexts (areas.map Prod.fst) then allIn areas states
      else return false

/-- `entity_display_name`. -/
def entityDisplayName (state attributes : Json) (metadata : List (String × Json)) :
    Except PyError Json := do
  let parts := ((["device_name", "entity_name"].filterMap (textField? metadata)).map strip).filter
    (· ≠ "")
  let name := " ".intercalate parts.eraseDups
  if name ≠ "" then return .str name
  else do
    let friendly ← attributes.get "friendly_name"
    if friendly.truthy then return friendly else state.get "entity_id"

/-- The curated services of a domain that Home Assistant has for it and the
entity supports. -/
def offeredActions (domain : String) (state available : Json) :
    List (String × String) → Except PyError (List Offer)
  | [] => .ok []
  | (service, name) :: rest =>
      if domain = "sensor" ∧ service = "view" then do
        let offers ← offeredActions domain state available rest
        return viewOffer name "Show this sensor as read-only" :: offers
      else do
        match ← available.get service with
        | .obj definition =>
            match Json.getD definition "target" .null with
            | .null => offeredActions domain state available rest
            | _ => do
                let supported ← actionSupported domain service state
                let offers ← offeredActions domain state available rest
                return if supported then
                  ⟨service, name, Json.getD definition "description" (.str ""),
                    Json.getD definition "fields" (.obj [])⟩ :: offers
                else offers
        | _ => offeredActions domain state available rest

section Discovery

variable [Python]

/-- `state.get("entity_id", "")`. -/
def givenId : Json → Except PyError Json
  | .obj fields => .ok (Json.getD fields "entity_id" (.str ""))
  | _ => .error .attributeError

/-- What is looked up of every state. -/
structure Lookups where
  areas : List (String × Area)
  names : List (String × List (String × Json))
  domains : List (String × Json)

/-- What the filters ask of a state. -/
structure Sight where
  entityId : String
  domain : String
  attributes : Json
  deviceClass : String
  area : Area

/-- One turn of the loop of `discover_entities`, before the filters. -/
def sightOf (l : Lookups) (state : Json) : Except PyError (Option Sight) := do
  let entityId ← givenId state
  if !(← dotted entityId) then return none
  else match entityId with
    | .str entityId => do
        let attributes ← attributesOf state
        let given ← attributes.get "device_class"
        return some ⟨entityId, entityDomain entityId, attributes,
          if given.truthy then given.toStr else "", (l.areas.lookup entityId).getD .none⟩
    | _ => .error .attributeError

def Sight.allowed (f : Filters) (s : Sight) : Bool :=
  f.entityAllowed s.entityId s.domain s.deviceClass s.area.areaId

/-- And after them. -/
def offered (l : Lookups) (state : Json) (s : Sight) : Except PyError (Option Entity) := do
  let current ← state.get "state"
  if (← current.inTexts ["unavailable", "unknown"]) && s.domain ∉ ["button", "input_button"] then
    return none
  else do
    let offers ← offeredActions s.domain state ((l.domains.lookup s.domain).getD (.obj []))
      ((curatedActions.lookup s.domain).getD [])
    let name ← entityDisplayName state s.attributes ((l.names.lookup s.entityId).getD [])
    return some ⟨s.entityId, s.domain, name, current, s.deviceClass, s.area.areaId, s.area.areaName,
      s.attributes,
      -- what has no action is shared read-only
      if offers.isEmpty then [viewOffer "Display" "Show this entity as read-only"] else offers⟩

def entityOf (f : Filters) (l : Lookups) (state : Json) : Except PyError (Option Entity) := do
  match ← sightOf l state with
  | none => return none
  | some s => if !s.allowed f then return none else offered l state s

def entitiesOf (f : Filters) (l : Lookups) : List Json → Except PyError (List Entity)
  | [] => .ok []
  | state :: states => do
      let entity ← entityOf f l state
      return entity.toList ++ (← entitiesOf f l states)

/-- The key the entities are sorted by; only a text has a `lower`. -/
def sortKey (e : Entity) : Except PyError (String × String) :=
  match e.name with
  | .str s => .ok (e.domain, Python.lower s)
  | _ => .error .attributeError

def sortKeys : List Entity → Except PyError (List ((String × String) × Entity))
  | [] => .ok []
  | e :: es => do
      let key ← sortKey e
      return (key, e) :: (← sortKeys es)

/-- The order of the keys. -/
def keyLe (a b : (String × String) × Entity) : Bool :=
  a.1.1 < b.1.1 || (a.1.1 = b.1.1 && a.1.2 ≤ b.1.2)

/-- The entities by domain and name. -/
def sortEntities (es : List Entity) : Except PyError (List Entity) := do
  let keyed ← sortKeys es
  return (keyed.mergeSort keyLe).map Prod.snd

/-! ## The result -/

/-- `domain_counts[domain] = domain_counts.get(domain, 0) + 1`. -/
def countDomain : List (String × Nat) → String → List (String × Nat)
  | [], domain => [(domain, 1)]
  | (d, n) :: counts, domain =>
      if d = domain then (d, n + 1) :: counts else (d, n) :: countDomain counts domain

/-- The filters as they are shown, each of them sorted. -/
structure Policy where
  restricted : Bool
  includeAreas : List String
  includeDomains : List String
  includeDeviceClasses : List String
  includeEntities : List String
  excludeAreas : List String
  excludeDomains : List String
  excludeDeviceClasses : List String
  excludeEntities : List String
  deriving DecidableEq, Repr

def Filters.policy (f : Filters) : Policy where
  restricted := f.restricted
  includeAreas := f.includeAreas.sort (· ≤ ·)
  includeDomains := f.includeDomains.sort (· ≤ ·)
  includeDeviceClasses := f.includeDeviceClasses.sort (· ≤ ·)
  includeEntities := f.includeEntities.sort (· ≤ ·)
  excludeAreas := f.excludeAreas.sort (· ≤ ·)
  excludeDomains := f.excludeDomains.sort (· ≤ ·)
  excludeDeviceClasses := f.excludeDeviceClasses.sort (· ≤ ·)
  excludeEntities := f.excludeEntities.sort (· ≤ ·)

/-- What a discovery returns: of entities, or of what a client reads for
them. -/
structure Found (ε : Type) where
  areaMetadataAvailable : Json
  entityCount : Nat
  domainCount : Nat
  domainCounts : List (String × Nat)
  allowedDomains : List String
  policy : Policy
  entities : List ε

/-- The counts of the domains, and the result around them. -/
def Filters.found {ε : Type} (f : Filters) (complete : Json) (domains : List String)
    (entities : List ε) : Found ε :=
  let domainCounts := domains.foldl countDomain []
  { areaMetadataAvailable := complete
    entityCount := entities.length
    domainCount := domainCounts.length
    domainCounts := domainCounts
    allowedDomains := (domainCounts.map Prod.fst).mergeSort (· ≤ ·)
    policy := f.policy
    entities := entities }

/-- A failure of Home Assistant. -/
def haFailure {α : Type} : Except HomeAssistantError α → Except Failure α
  | .ok a => .ok a
  | .error e => .error (.homeAssistant e)

def pyFailure {α : Type} : Except PyError α → Except Failure α
  | .ok a => .ok a
  | .error e => .error (.python e)

/-- Discovery is blocked: a filter needs an area that is not known. -/
def areasUnavailable : Failure :=
  .homeAssistant ⟨"Area metadata is unavailable; area-filtered discovery is blocked", none⟩

/-- `discover_entities` of a client of Home Assistant. A result that is kept
for thirty seconds is the result of earlier answers. -/
def discoverEntities (f : Filters) (a : Answers) : Except Failure (Found Entity) := do
  let states ← haFailure (listOf a.states "Home Assistant returned an invalid state list")
  let areas := match getEntityAreas a with
    | .ok areas => areas
    | .error _ => []
  let complete ← pyFailure (allIn areas states)
  if f.byArea ∧ complete = false then .error areasUnavailable
  else do
    let names := match getEntityNames a with
      | .ok names => names
      | .error _ => []
    let services ← haFailure (listOf a.services "Home Assistant returned an invalid service list")
    let domains ← pyFailure (serviceDomains services)
    let entities ← pyFailure (entitiesOf f ⟨areas, names, domains⟩ states)
    let sorted ← pyFailure (sortEntities entities)
    return f.found (.bool complete) (sorted.map Entity.domain) sorted

/-- What a client of the broker is told that the discovery raises: a failure
of Home Assistant is answered with an error, anything else ends the
connection. -/
def brokerFailure : Failure → HomeAssistantError
  | .homeAssistant _ => ⟨"Home Assistant broker rejected the request", some 502⟩
  | .python _ => ⟨"Home Assistant broker connection was interrupted", none⟩

/-- What a client with the filters makes of a result. -/
def Found.under (f : Filters) (found : Found Entity) : Except Failure (Found Entity) :=
  if f.byArea ∧ ¬ isTrue found.areaMetadataAvailable then .error areasUnavailable
  else
    let entities := found.entities.filter (Entity.allowed f)
    .ok (f.found found.areaMetadataAvailable (entities.map Entity.domain) entities)

/-- `discover_entities` of a client of the broker, whose filters `b` come
first. -/
def brokerEntities (b f : Filters) (a : Answers) : Except Failure (Found Entity) :=
  match discoverEntities b a with
  | .error e => .error (.homeAssistant (brokerFailure e))
  | .ok found => found.under f

/-- The client the gateway is configured with. -/
structure Client where
  filters : Filters
  broker : Option Filters

def Client.discover (c : Client) (a : Answers) : Except Failure (List Entity) :=
  match c.broker with
  | none => (discoverEntities c.filters a).map Found.entities
  | some b => (brokerEntities b c.filters a).map Found.entities

end Discovery

/-! ## What is offered has a name -/

/-- Every action is offered by a name. -/
def Entity.Named (e : Entity) : Prop := ∀ a ∈ e.actions, a.2 ≠ ""

theorem curated_named (domain : String) :
    ∀ a ∈ (curatedActions.lookup domain).getD [], a.2 ≠ "" := by
  have hall : ∀ p ∈ curatedActions, ∀ a ∈ p.2, a.2 ≠ "" := by decide
  intro a ha
  cases h : curatedActions.lookup domain with
  | none =>
      rw [h] at ha
      cases ha
  | some actions =>
      rw [h] at ha
      obtain ⟨before, after, heq, -⟩ := List.lookup_eq_some_iff.mp h
      exact hall (domain, actions) (heq ▸ List.mem_append_right _ List.mem_cons_self) a ha

theorem offeredActions_subset {domain : String} {state available : Json}
    {curated : List (String × String)} {offers : List Offer}
    (h : offeredActions domain state available curated = .ok offers) :
    ∀ o ∈ offers, o.name ∈ curated.map Prod.snd := by
  induction curated generalizing offers with
  | nil =>
      obtain rfl := Except.ok.inj h
      exact nofun
  | cons c curated ih =>
      obtain ⟨service, name⟩ := c
      unfold offeredActions at h
      split at h
      · obtain ⟨rest, hrest, h⟩ := except_bind_eq_ok.mp h
        obtain rfl := Except.ok.inj h
        intro o ho
        rcases List.mem_cons.mp ho with rfl | ho
        · exact List.mem_cons_self
        · exact List.mem_cons_of_mem _ (ih hrest o ho)
      · obtain ⟨v, -, h⟩ := except_bind_eq_ok.mp h
        have hskip : offeredActions domain state available curated = .ok offers →
            ∀ o ∈ offers, o.name ∈ ((service, name) :: curated).map Prod.snd :=
          fun h o ho => List.mem_cons_of_mem _ (ih h o ho)
        split at h
        · split at h
          · exact hskip h
          · obtain ⟨supported, -, h⟩ := except_bind_eq_ok.mp h
            obtain ⟨rest, hrest, h⟩ := except_bind_eq_ok.mp h
            obtain rfl := Except.ok.inj h
            intro o ho
            split at ho
            · rcases List.mem_cons.mp ho with rfl | ho
              · exact List.mem_cons_self
              · exact List.mem_cons_of_mem _ (ih hrest o ho)
            · exact List.mem_cons_of_mem _ (ih hrest o ho)
        · exact hskip h

section Named

variable [Python] {f : Filters} {l : Lookups}

omit [Python] in
theorem offered_named {state : Json} {s : Sight} {e : Entity}
    (h : offered l state s = .ok (some e)) : e.Named := by
  unfold offered at h
  obtain ⟨current, -, h⟩ := except_bind_eq_ok.mp h
  obtain ⟨hidden, -, h⟩ := except_bind_eq_ok.mp h
  split at h
  · cases h
  obtain ⟨offers, hoffers, h⟩ := except_bind_eq_ok.mp h
  obtain ⟨name, -, h⟩ := except_bind_eq_ok.mp h
  obtain rfl := Option.some.inj (Except.ok.inj h)
  intro a ha
  obtain ⟨o, ho, rfl⟩ := List.mem_map.mp ha
  dsimp only at ho
  split at ho
  · rw [List.mem_singleton.mp ho]
    decide
  · obtain ⟨c, hc, hname⟩ := List.mem_map.mp (offeredActions_subset hoffers o ho)
    exact hname ▸ curated_named _ c hc

theorem entityOf_named {state : Json} {e : Entity} (h : entityOf f l state = .ok (some e)) :
    e.Named := by
  obtain ⟨sight, -, h⟩ := except_bind_eq_ok.mp h
  cases sight with
  | none => cases h
  | some s =>
      dsimp only at h
      split at h
      · cases h
      · exact offered_named h

theorem entitiesOf_named {states : List Json} {es : List Entity}
    (h : entitiesOf f l states = .ok es) : ∀ e ∈ es, e.Named := by
  induction states generalizing es with
  | nil =>
      obtain rfl := Except.ok.inj h
      exact nofun
  | cons state states ih =>
      obtain ⟨entity, hentity, h⟩ := except_bind_eq_ok.mp h
      obtain ⟨rest, hrest, h⟩ := except_bind_eq_ok.mp h
      obtain rfl := Except.ok.inj h
      intro e he
      rcases List.mem_append.mp he with he | he
      · rw [Option.mem_toList] at he
        exact entityOf_named (he ▸ hentity)
      · exact ih hrest e he

theorem sortKeys_snd {es : List Entity} {keyed : List ((String × String) × Entity)}
    (h : sortKeys es = .ok keyed) : keyed.map Prod.snd = es := by
  induction es generalizing keyed with
  | nil =>
      obtain rfl := Except.ok.inj h
      rfl
  | cons e es ih =>
      obtain ⟨key, -, h⟩ := except_bind_eq_ok.mp h
      obtain ⟨rest, hrest, h⟩ := except_bind_eq_ok.mp h
      obtain rfl := Except.ok.inj h
      exact congrArg (e :: ·) (ih hrest)

theorem mem_of_sortEntities {es sorted : List Entity} (h : sortEntities es = .ok sorted) {e : Entity}
    (he : e ∈ sorted) : e ∈ es := by
  obtain ⟨keyed, hkeyed, h⟩ := except_bind_eq_ok.mp h
  obtain rfl := Except.ok.inj h
  rw [← sortKeys_snd hkeyed]
  obtain ⟨x, hx, rfl⟩ := List.mem_map.mp he
  exact List.mem_map_of_mem (List.mem_mergeSort.mp hx)

omit [Python] in
theorem pyFailure_ok {α : Type} {x : Except PyError α} {a : α} (h : pyFailure x = .ok a) :
    x = .ok a := by
  cases x with
  | ok b => exact congrArg _ (Except.ok.inj h)
  | error e => cases h

theorem discoverEntities_named {a : Answers} {found : Found Entity}
    (h : discoverEntities f a = .ok found) : ∀ e ∈ found.entities, e.Named := by
  unfold discoverEntities at h
  obtain ⟨states, -, h⟩ := except_bind_eq_ok.mp h
  obtain ⟨known, -, h⟩ := except_bind_eq_ok.mp h
  split at h
  · cases h
  obtain ⟨services, -, h⟩ := except_bind_eq_ok.mp h
  obtain ⟨domains, -, h⟩ := except_bind_eq_ok.mp h
  obtain ⟨entities, hentities, h⟩ := except_bind_eq_ok.mp h
  obtain ⟨sorted, hsorted, h⟩ := except_bind_eq_ok.mp h
  obtain rfl := Except.ok.inj h
  intro e he
  exact entitiesOf_named (pyFailure_ok hentities) e (mem_of_sortEntities (pyFailure_ok hsorted) he)

theorem brokerEntities_named {b : Filters} {a : Answers} {found : Found Entity}
    (h : brokerEntities b f a = .ok found) : ∀ e ∈ found.entities, e.Named := by
  unfold brokerEntities at h
  split at h
  · cases h
  · rename_i all hall
    unfold Found.under at h
    split at h
    · cases h
    · obtain rfl := Except.ok.inj h
      exact fun e he => discoverEntities_named hall e (List.mem_filter.mp he).1

omit [Python] in
theorem map_eq_ok {ε α β : Type} {x : Except ε α} {g : α → β} {b : β} (h : x.map g = .ok b) :
    ∃ a, x = .ok a ∧ g a = b := by
  cases x with
  | error e => cases h
  | ok a => exact ⟨a, rfl, Except.ok.inj h⟩

/-- **Whatever is discovered offers its actions by name.** -/
theorem discover_named {c : Client} {a : Answers} {es : List Entity} (h : c.discover a = .ok es) :
    ∀ e ∈ es, e.Named := by
  unfold Client.discover at h
  split at h
  · obtain ⟨found, hfound, rfl⟩ := map_eq_ok h
    exact discoverEntities_named hfound
  · obtain ⟨found, hfound, rfl⟩ := map_eq_ok h
    exact brokerEntities_named hfound

end Named

end HomeAssistant

end AccessPages
