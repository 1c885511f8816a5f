import AccessPages.Broker.Dispatch
import AccessPages.Broker.Reading
import AccessPages.Common.Relational
import AccessPages.HomeAssistant.Public
/-!
# Broker — what a guest cannot find out

The guest socket reads the states of all entities and answers about the
assigned ones. Two homes that differ in anything but the public fields of
the entities a page has are put the same questions, and give the guest
the same answers: no attribute that is not public, no other entity and
not even its presence makes a difference.
-/

namespace AccessPages

namespace Broker

open Pages (Page Resource Action)
open Prog (Asks Agree Fixed Outcomes)
open HomeAssistant (Alike HomeAssistantError)

/-! ## Homes that look the same -/

/-- The record is one of the entity. -/
def isRecordOf (entityId : String) (record : Json) : Bool :=
  match record.get "entity_id" with
  | .ok (.str s) => s = entityId
  | _ => false

/-- The record names its entity. -/
def Named (record : Json) : Prop := ∃ s, record.get "entity_id" = .ok (.str s)

/-- The first records of the entity, and the last ones, are alike, or there
are none. -/
def AlikeIn (states states' : List Json) (entityId : String) : Prop :=
  Option.Rel Alike (states.find? (isRecordOf entityId)) (states'.find? (isRecordOf entityId)) ∧
    Option.Rel Alike (states.reverse.find? (isRecordOf entityId))
      (states'.reverse.find? (isRecordOf entityId))

/-- **What Home Assistant may answer instead.** The records of the assigned
entities are alike; there may be others, or other ones. -/
inductive StatesAlike (ids : Set String) :
    Except HomeAssistantError Json → Except HomeAssistantError Json → Prop
  | same (answer : Except HomeAssistantError Json) : StatesAlike ids answer answer
  | records {states states' : List Json} (named : ∀ r ∈ states, Named r)
      (named' : ∀ r ∈ states', Named r) (alike : ∀ id ∈ ids, AlikeIn states states' id) :
      StatesAlike ids (.ok (.arr states)) (.ok (.arr states'))

/-- **Two worlds with the same public fields of what a page has.** `ids` are
the entities its policies assign. -/
inductive SameToPage (pageId : String) (ids : Set String) : World → World → Prop
  | mk (w : World) (homeAssistant : String → Except HomeAssistantError Json)
      (assigned : ∀ page, w.policy pageId = .ok page → ∀ r ∈ page.resources, r.entityId ∈ ids)
      (paths : ∀ path, path ≠ "/api/states" → homeAssistant path = w.homeAssistant path)
      (states : StatesAlike ids (w.homeAssistant "/api/states") (homeAssistant "/api/states")) :
      SameToPage pageId ids w { w with homeAssistant }

/-! ## The records of the assigned entities -/

section Records

variable {entityId : String} {entityIds : List String} {states states' : List Json} {record : Json}

theorem isRecordOf_eq {s : String} (hs : record.get "entity_id" = .ok (.str s)) :
    isRecordOf entityId record = decide (s = entityId) := by
  unfold isRecordOf
  rw [hs]

theorem obj_of_isRecordOf (h : isRecordOf entityId record = true) :
    ∃ fields, record = .obj fields := by
  unfold isRecordOf at h
  cases record with
  | obj fields => exact ⟨fields, rfl⟩
  | _ => cases h

theorem alike_find_self (p : Json → Bool) (hp : ∀ r, p r = true → ∃ fields, r = .obj fields) :
    Option.Rel Alike (states.find? p) (states.find? p) := by
  cases h : states.find? p with
  | none => exact .none
  | some r =>
      obtain ⟨fields, rfl⟩ := hp r (List.find?_some h)
      exact .some (Alike.refl fields)

theorem AlikeIn.refl (states : List Json) (entityId : String) : AlikeIn states states entityId :=
  ⟨alike_find_self _ fun _ => obj_of_isRecordOf, alike_find_self _ fun _ => obj_of_isRecordOf⟩

theorem alike_getD {o o' : Option Json} (h : Option.Rel Alike o o') :
    Alike (o.getD (.obj [])) (o'.getD (.obj [])) := by
  cases h with
  | none => exact Alike.refl []
  | some h => exact h

theorem AlikeIn.recordOf (h : AlikeIn states states' entityId) :
    Alike (recordOf entityId states) (recordOf entityId states') := alike_getD h.1

theorem AlikeIn.recordOf_reverse (h : AlikeIn states states' entityId) :
    Alike (Broker.recordOf entityId states.reverse) (Broker.recordOf entityId states'.reverse) :=
  alike_getD h.2

/-- The record is kept by the filter. -/
def isKept (entityIds : List String) (record : Json) : Bool := entityIds.any (isRecordOf · record)

theorem filterStates_named (h : ∀ r ∈ states, Named r) :
    HomeAssistant.filterStates entityIds states = .ok (states.filter (isKept entityIds)) := by
  induction states with
  | nil => rfl
  | cons r states ih =>
      obtain ⟨s, hs⟩ := h r List.mem_cons_self
      have hkept : isKept entityIds r = decide (s ∈ entityIds) := by
        rw [isKept, List.any_eq]
        refine decide_eq_decide.mpr ⟨?_, fun h => ⟨s, h, ?_⟩⟩
        · rintro ⟨id, hid, h⟩
          rw [isRecordOf_eq hs, decide_eq_true_eq] at h
          exact h ▸ hid
        · rw [isRecordOf_eq hs, decide_eq_true_eq]
      unfold HomeAssistant.filterStates
      rw [hs, ih fun r hr => h r (List.mem_cons_of_mem _ hr), List.filter_cons, hkept]
      rfl

/-- The filter keeps every record of an entity that is asked for. -/
theorem find?_kept (h : entityId ∈ entityIds) :
    (states.filter (isKept entityIds)).find? (isRecordOf entityId) =
      states.find? (isRecordOf entityId) := by
  rw [List.find?_filter]
  congr 1
  funext r
  cases hr : isRecordOf entityId r with
  | false => simp only [Bool.false_eq_true, and_false, decide_false]
  | true =>
      have hkept : isKept entityIds r = true := List.any_eq_true.mpr ⟨entityId, h, hr⟩
      simp only [hkept, and_self, decide_true]

theorem AlikeIn.kept (halike : AlikeIn states states' entityId) (h : entityId ∈ entityIds) :
    AlikeIn (states.filter (isKept entityIds)) (states'.filter (isKept entityIds)) entityId := by
  unfold AlikeIn
  rw [← List.filter_reverse, ← List.filter_reverse, find?_kept h, find?_kept h, find?_kept h,
    find?_kept h]
  exact halike

/-- **`get_states` of assigned entities.** -/
theorem outcomes_statesOf {ids : Set String} {answer answer' : Json}
    (h : StatesAlike ids (.ok answer) (.ok answer')) (hids : ∀ id ∈ entityIds, id ∈ ids) :
    Outcomes (fun states states' => ∀ id ∈ entityIds, AlikeIn states states' id)
      (statesOf entityIds answer) (statesOf entityIds answer') := by
  cases h with
  | same => exact Outcomes.refl (fun states id _ => AlikeIn.refl states id) _
  | records named named' alike =>
      simp only [statesOf, filterStates_named named, filterStates_named named', pyExc]
      exact .ok fun id hid => (alike id (hids id hid)).kept hid

end Records

/-! ## What is shown and what is sent -/

section Shown

variable [Python] {resource : Resource} {record record' : Json}

omit [Python] in
theorem supportedActions_alike (h : Alike record record') (domain : String)
    (actions : List Action) :
    supportedActions domain record actions = supportedActions domain record' actions := by
  induction actions with
  | nil => rfl
  | cons action actions ih =>
      unfold supportedActions
      rw [h.actionSupported, ih]

/-- **A resource is shown the same.** -/
theorem publicResourceState_alike (h : Alike record record') :
    publicResourceState resource record = publicResourceState resource record' := by
  unfold publicResourceState
  rw [supportedActions_alike h, h.publicStateFields]
  obtain ⟨hstate, hattributes⟩ := h
  rename_i fields fields'
  have hname : shownName resource (HomeAssistant.attributesIn fields) =
      shownName resource (HomeAssistant.attributesIn fields') := by
    unfold shownName
    rw [hattributes "friendly_name" (by decide)]
  simp only [HomeAssistant.attributesOf_obj, HomeAssistant.get_obj_state, hstate, bind, Except.bind,
    hname, hattributes.normalizeCapabilities]

theorem viewResources_alike {states states' : List Json} {resources : List Resource}
    (h : ∀ r ∈ resources, AlikeIn states states' r.entityId) :
    viewResources states resources = viewResources states' resources := by
  induction resources with
  | nil => rfl
  | cons resource resources ih =>
      unfold viewResources
      rw [publicResourceState_alike (h resource List.mem_cons_self).recordOf_reverse,
        ih fun r hr => h r (List.mem_cons_of_mem _ hr)]

omit [Python] in
/-- The record an action is checked against is alike, or the same exception
is raised. -/
theorem validateActionState_alike {states states' : List Json} {entityId : String}
    (h : AlikeIn states states' entityId) (domain service : String) :
    Outcomes Alike (HomeAssistant.validateActionState domain service entityId states)
      (HomeAssistant.validateActionState domain service entityId states') := by
  have hfirst := h.1
  unfold HomeAssistant.validateActionState
  generalize hf : states.find? _ = o
  generalize hf' : states'.find? _ = o'
  rw [show states.find? (isRecordOf entityId) = o from hf,
    show states'.find? (isRecordOf entityId) = o' from hf'] at hfirst
  cases hfirst with
  | none => exact .error _
  | some halike =>
      simp only [bind, Except.bind]
      rw [halike.actionSupported]
      cases HomeAssistant.actionSupported domain service _ with
      | error e => exact .error _
      | ok supported =>
          cases supported with
          | false => exact .error _
          | true => exact .ok halike

/-- **What a service is called with is the same.** -/
theorem serviceDataOf_alike {ids : Set String} {answer answer' : Json} {action : Action}
    {supplied : List (String × Json)} (h : StatesAlike ids (.ok answer) (.ok answer'))
    (hid : resource.entityId ∈ ids) :
    serviceDataOf resource action supplied answer =
      serviceDataOf resource action supplied answer' := by
  have hids : ∀ id ∈ [resource.entityId], id ∈ ids := by
    intro id hmem
    obtain rfl := List.mem_singleton.mp hmem
    exact hid
  have hstates := outcomes_statesOf h hids
  unfold serviceDataOf
  generalize statesOf [resource.entityId] answer = x at hstates ⊢
  generalize statesOf [resource.entityId] answer' = x' at hstates ⊢
  cases hstates with
  | error e => rfl
  | ok hstates =>
      have hvalid := validateActionState_alike (hstates _ (List.mem_singleton.mpr rfl))
        resource.domain action.service
      simp only [bind, Except.bind]
      generalize HomeAssistant.validateActionState resource.domain _ _ _ = y at hvalid ⊢
      generalize HomeAssistant.validateActionState resource.domain _ _ _ = y' at hvalid ⊢
      cases hvalid with
      | error e => rfl
      | ok halike =>
          obtain ⟨hstate, hattributes⟩ := halike
          simp only [HomeAssistant.attributesOf_obj, HomeAssistant.get_obj_state, hstate,
            hattributes.normalizeCapabilities]

end Shown

/-! ## What does not ask for the states -/

/-- Every question but the one for the states. -/
def Op.Blind (e : Op) : Prop := e ≠ .get "/api/states"

theorem Op.Blind.fixed {sha256 : String → String} {pageId : String} {ids : Set String} {e : Op}
    (he : e.Blind) : Fixed (Op.answer sha256) (SameToPage pageId ids) e := by
  rintro w _ ⟨homeAssistant, -, hpaths, -⟩
  unfold Op.answer Op.step
  cases w.fault with
  | some x => rfl
  | none =>
      cases e with
      | get path =>
          have hpath : path ≠ "/api/states" := fun h => he (congrArg Op.get h)
          simp only [Op.result, hpaths path hpath]
      | _ => rfl

theorem asks_blind {sha256 : String → String} {pageId : String} {ids : Set String} {α : Type}
    {p : Prog Op Op.Ans α} (hp : Asks Op.Blind p) :
    Asks (Fixed (Op.answer sha256) (SameToPage pageId ids)) p :=
  hp.mono fun _ he => he.fixed

theorem blind_of_reads {α : Type} {p : Prog Op Op.Ans α} (hp : Asks Op.Reads p) :
    Asks Op.Blind p := by
  refine hp.mono fun e he => ?_
  rintro rfl
  cases he

section Blind

variable [Python] {sha256 : String → String} {pageId grantId session resourceId : String}


omit [Python] in
theorem blind_ask {e : Op} (he : e.Blind) : Asks Op.Blind (ask e).run := ⟨he, fun _ => trivial⟩

omit [Python] in
theorem blind_emitGuestEvent {event : GuestEvent} :
    Asks Op.Blind (emitGuestEvent pageId grantId event).run := blind_ask (by rintro ⟨⟩)

theorem blind_exchangeGuestBootstrap {secret : String} :
    Asks Op.Blind (exchangeGuestBootstrap sha256 pageId grantId secret).run := by
  have hrevoked : Asks Op.Blind (exchangeGuestBootstrap.revoked pageId grantId).run :=
    Prog.asks_except_bind (x := revoke _ _) (blind_ask (by rintro ⟨⟩)) fun _ => trivial
  refine Prog.asks_except_bind (blind_of_reads reads_currentGuestGrant) fun current => ?_
  split
  · trivial
  split
  · trivial
  refine Prog.asks_except_bind (blind_ask (by rintro ⟨⟩)) fun allowed => ?_
  split
  · trivial
  split
  · trivial
  refine Prog.asks_except_bind (blind_ask (by rintro ⟨⟩)) fun consumed => ?_
  split
  · trivial
  · trivial
  refine Prog.asks_except_bind (blind_of_reads reads_currentGuestGrant) fun again => ?_
  split
  · exact hrevoked
  split
  · exact hrevoked
  · exact Prog.asks_except_bind (blind_of_reads reads_guestSessionResult) fun _ => trivial

theorem blind_requestGuestVerification {replace : Bool} :
    Asks Op.Blind (requestGuestVerification pageId grantId session replace).run := by
  have hdeliver : ∀ code, Asks Op.Blind
      (requestGuestVerification.deliver pageId grantId session code).run := by
    intro code
    refine Prog.asks_except_bind (blind_ask (by rintro ⟨⟩)) fun delivered => ?_
    split
    · refine Prog.asks_except_bind (blind_of_reads reads_verifiedGuestContext) fun context => ?_
      split <;> trivial
    · trivial
  refine Prog.asks_except_bind (blind_of_reads reads_verifiedGuestContext) fun context => ?_
  split
  · trivial
  refine Prog.asks_except_bind (blind_ask (by rintro ⟨⟩)) fun issued => ?_
  split
  · trivial
  · trivial
  refine Prog.asks_except_bind (Prog.asks_except_tryCatch (hdeliver _) fun e => ?_) fun _ =>
    Prog.asks_except_bind blind_emitGuestEvent fun _ => trivial
  split
  · exact Prog.asks_except_bind (blind_ask (by rintro ⟨⟩)) fun _ => trivial
  · trivial

theorem blind_verifyGuestCode {code : String} :
    Asks Op.Blind (verifyGuestCode pageId grantId session code).run := by
  refine Prog.asks_except_bind (blind_of_reads reads_verifiedGuestContext) fun context => ?_
  split
  · trivial
  split
  · exact Prog.asks_except_bind blind_emitGuestEvent fun _ => trivial
  refine Prog.asks_except_bind (blind_ask (by rintro ⟨⟩)) fun verified => ?_
  split
  · split
    · trivial
    · exact Prog.asks_except_bind blind_emitGuestEvent fun _ => trivial
  · exact Prog.asks_except_bind blind_emitGuestEvent fun _ =>
      blind_of_reads reads_guestSessionStatus

/-- An image is not a state. -/
theorem blind_guestCamera : Asks Op.Blind (guestCamera pageId grantId session resourceId).run := by
  refine Prog.asks_except_bind (blind_of_reads reads_readySession) fun status => ?_
  split
  · trivial
  refine Prog.asks_except_bind blind_emitGuestEvent fun _ => ?_
  refine Prog.asks_except_bind (blind_of_reads reads_page) fun policy => ?_
  split
  · trivial
  rename_i resource hfind
  refine Prog.asks_except_bind (x := checkRefresh _ _) (blind_ask (by rintro ⟨⟩)) fun checked => ?_
  dsimp only
  split
  · trivial
  refine Prog.asks_except_bind (x := allowCamera _) (blind_ask (by rintro ⟨⟩)) fun allowed => ?_
  split
  · trivial
  have himage : Asks Op.Blind (cameraImage resource.entityId).run := by
    refine Prog.asks_except_bind (blind_ask (by rintro ⟨⟩)) fun answer => ?_
    split <;> trivial
  refine Prog.asks_except_bind himage fun image => ?_
  refine Prog.asks_except_bind (blind_of_reads reads_page) fun current => ?_
  refine Prog.asks_except_bind (blind_of_reads reads_stillReady) fun ready => ?_
  split <;> trivial

/-- The location is asked for under its own path. -/
theorem blind_guestActionProximity {policy : Pages.Proximity}
    {proximity : Option (List (String × Json))} :
    Asks Op.Blind (guestActionProximity policy proximity).run := by
  unfold guestActionProximity
  split
  swap
  · trivial
  split
  · trivial
  refine Prog.asks_except_bind Prog.asks_except_lift fun r => ?_
  refine Prog.asks_except_bind (x := time) (blind_ask (by rintro ⟨⟩)) fun now => ?_
  split
  · trivial
  have hconfig : Op.Blind (.get "/api/config") := fun h => absurd (Op.get.inj h) (by decide)
  have hrequest : Asks Op.Blind (haRequest "/api/config").run := by
    refine Prog.asks_except_bind (blind_ask hconfig) fun answer => ?_
    split <;> trivial
  refine Prog.asks_except_bind hrequest fun config => ?_
  refine Prog.asks_except_bind Prog.asks_except_lift fun near => ?_
  split <;> trivial

/-- Once the data is there, an action looks at no state. -/
theorem blind_recheck {actionId : String} {policy : Page} {resource : Resource} {action : Action}
    {data : List (String × Json)} :
    Asks Op.Blind
      (guestAction.recheck pageId grantId session resourceId actionId policy resource action
        data).run := by
  refine Prog.asks_except_bind (blind_of_reads reads_page) fun current => ?_
  split
  · trivial
  split
  · trivial
  refine Prog.asks_except_bind (blind_of_reads reads_guestSessionStatus) fun status => ?_
  split
  · trivial
  split
  · trivial
  unfold guestAction.dispatch
  split
  · trivial
  refine Prog.asks_except_bind (x := actionRemaining) (blind_ask (by rintro ⟨⟩)) fun inTime => ?_
  split
  · trivial
  refine Prog.asks_except_bind (blind_ask (by rintro ⟨⟩)) fun called => ?_
  split
  · exact Prog.asks_except_bind blind_emitGuestEvent fun _ => trivial
  · exact Prog.asks_except_bind blind_emitGuestEvent fun _ => trivial

end Blind

/-! ## What asks for the states -/

/-- **Nothing else makes a difference**: between worlds that look the same to
the page, the program puts the same questions and ends the same way. -/
def Oblivious (sha256 : String → String) (pageId : String) (ids : Set String) {α : Type}
    (x : BrokerM α) : Prop :=
  Agree (Op.answer sha256) (SameToPage pageId ids) (Outcomes Eq) x.run x.run

section Oblivious

variable [Python] {sha256 : String → String} {pageId grantId session resourceId : String}
  {ids : Set String} {α β : Type}

omit [Python] in
theorem oblivious_of_blind {x : BrokerM α} (hx : Asks Op.Blind x.run) :
    Oblivious sha256 pageId ids x := (asks_blind hx).agree_run

omit [Python] in
theorem oblivious_pure (a : α) : Oblivious sha256 pageId ids (pure a) := Agree.except_pure rfl

omit [Python] in
theorem oblivious_throw (e : Exc) : Oblivious sha256 pageId ids (throw e : BrokerM α) :=
  Agree.except_throw e

omit [Python] in
theorem oblivious_bind {x : BrokerM α} {f : α → BrokerM β} (hx : Asks Op.Blind x.run)
    (hf : ∀ a, Oblivious sha256 pageId ids (f a)) : Oblivious sha256 pageId ids (x >>= f) :=
  (asks_blind hx).agree_bind hf

omit [Python] in
theorem oblivious_map {x : BrokerM α} {g : α → β} (hx : Oblivious sha256 pageId ids x) :
    Oblivious sha256 pageId ids (g <$> x) :=
  Agree.except_map hx fun _ _ h => congrArg g h

omit [Python] in
/-- A question, by what the two worlds answer. -/
theorem agree_ask {e : Op} {Q : e.Res → e.Res → Prop}
    (h : ∀ w w', SameToPage pageId ids w w' → Q (e.result sha256 w) (e.result sha256 w')) :
    Agree (Op.answer sha256) (SameToPage pageId ids) (Outcomes Q) (ask e).run (ask e).run := by
  refine .op fun w w' hsame => .ret ?_
  have hresult := h w w' hsame
  obtain ⟨homeAssistant, -, -, -⟩ := hsame
  unfold Op.answer Op.step
  cases hfault : w.fault with
  | some x => exact .error x
  | none => exact .ok hresult

omit [Python] in
/-- The policy is the same, and its entities are among the assigned ones. -/
theorem agree_loadPolicy :
    Agree (Op.answer sha256) (SameToPage pageId ids)
      (Outcomes fun l l' : Except Pages.PageError Page => l = l' ∧ ∀ p, l = .ok p →
        ∀ r ∈ p.resources, r.entityId ∈ ids)
      (ask (.loadPolicy pageId)).run (ask (.loadPolicy pageId)).run := by
  refine agree_ask (e := .loadPolicy pageId) ?_
  rintro w _ ⟨homeAssistant, hassigned, -, -⟩
  exact ⟨rfl, hassigned⟩

omit [Python] in
theorem agree_page :
    Agree (Op.answer sha256) (SameToPage pageId ids)
      (Outcomes fun p p' : Page => p = p' ∧ ∀ r ∈ p.resources, r.entityId ∈ ids)
      (page pageId).run (page pageId).run := by
  refine Agree.except_bind agree_loadPolicy ?_
  rintro l _ ⟨rfl, hassigned⟩
  split
  · exact Agree.except_pure ⟨rfl, hassigned _ rfl⟩
  all_goals exact Agree.except_throw _

omit [Python] in
theorem agree_publishedGuestResource :
    Agree (Op.answer sha256) (SameToPage pageId ids)
      (Outcomes fun o o' : Option Resource => o = o' ∧ ∀ r, o = some r → r.entityId ∈ ids)
      (publishedGuestResource pageId resourceId).run
      (publishedGuestResource pageId resourceId).run := by
  refine Agree.except_bind agree_loadPolicy ?_
  rintro l _ ⟨rfl, hassigned⟩
  split
  · exact Agree.except_pure ⟨rfl, fun r hr => hassigned _ rfl r (List.mem_of_find?_eq_some hr)⟩
  · exact Agree.except_throw _
  · exact Agree.except_pure ⟨rfl, by rintro r ⟨⟩⟩

omit [Python] in
theorem agree_states :
    Agree (Op.answer sha256) (SameToPage pageId ids)
      (Outcomes fun v v' : Json => StatesAlike ids (.ok v) (.ok v'))
      (haRequest "/api/states").run (haRequest "/api/states").run := by
  refine Agree.except_bind (Q := StatesAlike ids) (agree_ask (e := .get "/api/states") ?_) ?_
  · rintro w _ ⟨homeAssistant, -, -, hstates⟩
    exact hstates
  · intro answer answer' h
    cases h with
    | same =>
        cases answer with
        | ok v => exact Agree.except_pure (.same _)
        | error e => exact Agree.except_throw _
    | records named named' alike => exact Agree.except_pure (.records named named' alike)

omit [Python] in
theorem agree_getStates {entityIds : List String} (hids : ∀ id ∈ entityIds, id ∈ ids) :
    Agree (Op.answer sha256) (SameToPage pageId ids)
      (Outcomes fun states states' => ∀ id ∈ entityIds, AlikeIn states states' id)
      (getStates entityIds).run (getStates entityIds).run :=
  Agree.except_bind agree_states fun _ _ h => Agree.except_lift (outcomes_statesOf h hids)

/-- `_guest_resource_state`. -/
theorem oblivious_guestResourceState :
    Oblivious sha256 pageId ids (guestResourceState pageId grantId session resourceId) := by
  refine oblivious_bind (blind_of_reads reads_readySession) fun status => ?_
  split
  · exact oblivious_pure _
  refine oblivious_bind blind_emitGuestEvent fun _ => ?_
  refine Agree.except_bind agree_publishedGuestResource ?_
  rintro o _ ⟨rfl, hassigned⟩
  split
  · exact Agree.except_throw _
  rename_i resource
  have hmem : ∀ id ∈ [resource.entityId], id ∈ ids := by
    intro id hid
    obtain rfl := List.mem_singleton.mp hid
    exact hassigned resource rfl
  refine Agree.except_bind (agree_getStates hmem) fun states states' halike => ?_
  refine (asks_blind (blind_of_reads reads_stillReady)).agree_bind fun ready => ?_
  refine (asks_blind (blind_of_reads reads_publishedGuestResource)).agree_bind fun current => ?_
  split
  · exact Agree.except_pure rfl
  split
  · exact Agree.except_pure rfl
  rw [(halike _ (List.mem_singleton.mpr rfl)).recordOf.publicStateFields]
  exact oblivious_bind Prog.asks_except_lift fun fields => oblivious_pure _

omit [Python] in
/-- The states of a page. -/
theorem agree_pageStates {policy : Page} (h : ∀ r ∈ policy.resources, r.entityId ∈ ids) :
    Agree (Op.answer sha256) (SameToPage pageId ids)
      (Outcomes fun states states' => ∀ r ∈ policy.resources, AlikeIn states states' r.entityId)
      (pageStates policy).run (pageStates policy).run := by
  unfold pageStates
  split
  · exact Agree.except_pure fun r _ => AlikeIn.refl [] r.entityId
  have hids : ∀ id ∈ policy.resources.map (·.entityId), id ∈ ids := by
    intro id hid
    obtain ⟨r, hr, rfl⟩ := List.mem_map.mp hid
    exact h r hr
  refine (agree_getStates hids).mono fun x x' hx => ?_
  cases hx with
  | error e => exact .error e
  | ok halike => exact .ok fun r hr => halike _ (List.mem_map_of_mem hr)

/-- `_guest_page_view`. -/
theorem oblivious_guestPageView :
    Oblivious sha256 pageId ids (guestPageView pageId grantId session) := by
  refine oblivious_bind (blind_of_reads reads_readySession) fun status => ?_
  split
  · exact oblivious_pure _
  refine Agree.except_bind agree_page ?_
  rintro policy _ ⟨rfl, hassigned⟩
  refine (asks_blind (blind_of_reads reads_stillReady)).agree_bind fun ready => ?_
  split
  · exact Agree.except_pure rfl
  refine (asks_blind blind_emitGuestEvent).agree_bind fun _ => ?_
  refine Agree.except_bind (agree_pageStates hassigned) fun states states' halike => ?_
  refine (asks_blind (blind_of_reads reads_page)).agree_bind fun current => ?_
  refine (asks_blind (blind_of_reads reads_stillReady)).agree_bind fun ready => ?_
  split
  · exact Agree.except_pure rfl
  have htime : Asks Op.Blind time.run := blind_ask (by rintro ⟨⟩)
  refine (asks_blind htime).agree_bind fun refreshedAt => ?_
  rw [viewResources_alike halike]
  exact oblivious_bind Prog.asks_except_lift fun resources => oblivious_pure _

/-- `_service_data`. -/
theorem oblivious_serviceData {resource : Resource} {action : Action} {supplied : Json}
    (hid : resource.entityId ∈ ids) :
    Oblivious sha256 pageId ids (serviceData resource action supplied) := by
  unfold serviceData
  split
  · refine Agree.except_bind agree_states fun answer answer' h => ?_
    rw [serviceDataOf_alike h hid]
    exact oblivious_of_blind Prog.asks_except_lift
  · exact oblivious_throw _

/-- `_guest_action`, up to the command and its outcome. -/
theorem oblivious_guestAction {actionId : String} {parameters : Json}
    {proximity : Option (List (String × Json))} :
    Oblivious sha256 pageId ids
      (guestAction pageId grantId session resourceId actionId parameters proximity) := by
  refine oblivious_bind (blind_of_reads reads_guestSessionStatus) fun status => ?_
  split
  · exact oblivious_pure _
  split
  · exact oblivious_throw _
  refine oblivious_bind blind_emitGuestEvent fun _ => ?_
  refine oblivious_bind (x := allowAction _) (blind_ask (by rintro ⟨⟩)) fun allowed => ?_
  split
  · exact oblivious_bind blind_emitGuestEvent fun _ => oblivious_throw _
  refine Agree.except_bind agree_page ?_
  rintro policy _ ⟨rfl, hassigned⟩
  split
  · exact oblivious_bind blind_emitGuestEvent fun _ => oblivious_throw _
  rename_i resource action hpermits
  refine oblivious_bind blind_guestActionProximity fun _ => ?_
  have hmem := hassigned _ (permits_of_resourceAction hpermits).resource_mem
  refine Agree.except_bind (oblivious_serviceData hmem) ?_
  rintro data _ rfl
  exact oblivious_of_blind blind_recheck

/-! ## The guest socket -/

theorem oblivious_run (call : Scoped) : Oblivious sha256 pageId ids (call.run sha256 pageId) := by
  cases call with
  | bootstrap => exact oblivious_map (oblivious_of_blind blind_exchangeGuestBootstrap)
  | bootstrapResume =>
      exact oblivious_map (oblivious_of_blind (blind_of_reads reads_resumeGuestBootstrap))
  | sessionStatus =>
      exact oblivious_map (oblivious_of_blind (blind_of_reads reads_guestSessionStatus))
  | verificationChallenge => exact oblivious_map (oblivious_of_blind blind_requestGuestVerification)
  | verificationVerify => exact oblivious_map (oblivious_of_blind blind_verifyGuestCode)
  | resourceState => exact oblivious_map oblivious_guestResourceState
  | pageView => exact oblivious_map oblivious_guestPageView
  | camera => exact oblivious_map (oblivious_of_blind blind_guestCamera)
  | action => exact oblivious_map oblivious_guestAction

theorem oblivious_respond {route : Route} {call : Scoped} :
    Oblivious sha256 pageId ids (route.respond sha256 pageId call) := by
  refine Agree.except_tryCatch ?_ fun e => ?_
  · refine Agree.except_bind (oblivious_run call) ?_
    rintro r _ rfl
    split <;> exact oblivious_pure _
  · split
    · exact oblivious_pure _
    · exact oblivious_throw _

omit [Python] in
/-- A page that is bound is the claimed one. -/
theorem agree_boundPage {headers : Headers}
    (hclaim : headers.getAll "X-Access-Pages-Page-ID" = [pageId]) (hne : pageId ≠ "") :
    Agree (Op.answer sha256) (SameToPage pageId ids)
      (Outcomes fun b b' : Except Nat String => b = b' ∧ ∀ q, b = .ok q → q = pageId)
      (boundPage sha256 headers).run (boundPage sha256 headers).run := by
  unfold boundPage
  rw [hclaim]
  split
  · rename_i heq
    cases heq
  · rename_i capability claimed heq
    cases heq
    split
    · exact Agree.except_pure ⟨rfl, by rintro q ⟨⟩⟩
    refine (asks_blind (blind_of_reads reads_guestPageIdentity)).agree_bind fun identity => ?_
    split
    · exact Agree.except_pure ⟨rfl, by rintro q ⟨⟩⟩
    split
    · exact Agree.except_pure ⟨rfl, by rintro q ⟨⟩⟩
    · rename_i hsame
      push Not at hsame
      refine Agree.except_pure ⟨rfl, ?_⟩
      rintro q ⟨⟩
      exact (hsame hne).symm
  · exact Agree.except_pure ⟨rfl, by rintro q ⟨⟩⟩

theorem oblivious_scopedPost {r : GuestRequest}
    (hclaim : r.headers.getAll "X-Access-Pages-Page-ID" = [pageId]) (hne : pageId ≠ "") :
    Oblivious sha256 pageId ids (scopedPost sha256 r) := by
  unfold scopedPost
  split
  · exact oblivious_pure _
  split
  · exact oblivious_pure _
  split
  · exact oblivious_pure _
  split
  · split
    · exact oblivious_pure _
    refine oblivious_bind (blind_of_reads reads_boundPage) fun bound => ?_
    split <;> exact oblivious_pure _
  split
  · exact oblivious_pure _
  refine Agree.except_bind (agree_boundPage hclaim hne) ?_
  rintro bound _ ⟨rfl, hbound⟩
  split
  · exact oblivious_pure _
  rename_i q
  obtain rfl := hbound q rfl
  split
  · exact oblivious_pure _
  · exact oblivious_respond

/-- The same questions, and the same answer. -/
theorem agree_guestPost {r : GuestRequest}
    (hclaim : r.headers.getAll "X-Access-Pages-Page-ID" = [pageId]) (hne : pageId ≠ "") :
    Agree (Op.answer sha256) (SameToPage pageId ids) Eq (guestPost sha256 r)
      (guestPost sha256 r) := by
  unfold guestPost
  dsimp only
  split
  · exact .ret rfl
  refine Agree.bind (oblivious_bind (blind_of_reads reads_arrive) fun _ =>
    oblivious_scopedPost hclaim hne) ?_
  intro result result' hresult
  rw [hresult.eq]
  split <;> exact .ret rfl

/-- **A guest finds out nothing but public fields.** Whatever the request for
the page is, and whatever happens around it: between two homes that differ
only in attributes that are not public and in entities the page does not
have, the broker puts the same questions to its stores, to the administrator
and to Home Assistant, one after the other, and gives the same answer. -/
theorem guestPost_reveals_public {r : GuestRequest}
    (hclaim : r.headers.getAll "X-Access-Pages-Page-ID" = [pageId]) (hne : pageId ≠ "")
    {ws ws' : List World} (hws : List.Forall₂ (SameToPage pageId ids) ws ws') :
    ((guestPost sha256 r).exec (Op.answer sha256) ws []).1.map Prod.fst =
        ((guestPost sha256 r).exec (Op.answer sha256) ws' []).1.map Prod.fst ∧
      ∀ answer, ((guestPost sha256 r).exec (Op.answer sha256) ws []).2 = .ret answer ↔
        ((guestPost sha256 r).exec (Op.answer sha256) ws' []).2 = .ret answer := by
  have hagree : Agree (Op.answer sha256) (SameToPage pageId ids) Eq (guestPost sha256 r)
      (guestPost sha256 r) := agree_guestPost hclaim hne
  have hexec := hagree.exec hws [] [] rfl
  exact ⟨hexec.1, fun answer => Prog.agree_eq_ret hexec.2 answer⟩

/-! ### The gate, and one with a secret code -/

/-- The digests of the capability and the session. -/
def lookDigest (s : String) : String :=
  if s = "gate-capability-0001" then
    "d3930529a0e4abc5cc23d7f1867bfe719ea574c3d11f3e5bbc978b3917fd2e59"
  else if s = "guest-session-0001" then
    "413cdeac008e2f3d1fed0559085da68fde091caa0b6446e8f83d51c80951d82e"
  else gateDigest s

/-- The gate's page, to which the invitation alone is enough. -/
def openGatePage : Page :=
  { gatePage with accessGrants := [{ gateGrant with verificationRequired := false }] }

/-- The gate while a guest looks at it. -/
def lookedAt : World :=
  { gateWorld with
    policy := fun _ => .ok openGatePage
    grants := fun _ => .ok openGatePage
    capabilities := some (.obj [("gate", .str (lookDigest "gate-capability-0001"))])
    db := (Sessions.consumeBootstrap lookDigest .empty gateWorld.clock "guest-session-0001"
      "gate" gateGrant.id "door-invitation-000000000000000000000000000"
      gateGrant.tokenHash (1894060800 * second) true).2 }

/-- The states of a home with someone in it, whose gate has a code. -/
def secretStates : List Json :=
  [.obj [("entity_id", .str "person.ann"), ("state", .str "home")],
    .obj [("entity_id", .str "switch.gate"), ("state", .str "off"),
      ("attributes", .obj [("code", .str "4711")])]]

def secretHome (path : String) : Except HomeAssistantError Json :=
  if path = "/api/states" then .ok (.arr secretStates) else gateWorld.homeAssistant path

/-- A guest asks for the page. -/
def lookRequest : GuestRequest where
  path := "/guest/v1/page-view"
  headers := [("X-Access-Pages-Page-ID", "gate"), ("X-Page-Capability", "gate-capability-0001"),
    ("Content-Length", "87")]
  body := some [("grant_id", .str gateGrant.id), ("session", .str "guest-session-0001")]
  clockNs := 0

/-- A page is shown. -/
def isView : Prog Op Op.Ans Answer → Bool
  | .ret (.result (.pageView _)) => true
  | _ => false

omit [Python] in
theorem lookedAt_same :
    SameToPage "gate" {"switch.gate"} lookedAt { lookedAt with homeAssistant := secretHome } := by
  refine .mk lookedAt secretHome ?_ ?_ ?_
  · rintro _ ⟨⟩ r hr
    obtain rfl := List.mem_singleton.mp hr
    rfl
  · intro path hpath
    exact if_neg hpath
  · change StatesAlike {"switch.gate"} (lookedAt.homeAssistant "/api/states")
      (.ok (.arr secretStates))
    refine .records ?_ ?_ ?_
    · intro r hr
      obtain rfl := List.mem_singleton.mp hr
      exact ⟨"switch.gate", rfl⟩
    · intro r hr
      rcases List.mem_cons.mp hr with rfl | hr
      · exact ⟨"person.ann", rfl⟩
      obtain rfl := List.mem_singleton.mp hr
      exact ⟨"switch.gate", rfl⟩
    · rintro id rfl
      have halike : Alike (.obj [("entity_id", .str "switch.gate"), ("state", .str "off")])
          (.obj [("entity_id", .str "switch.gate"), ("state", .str "off"),
            ("attributes", .obj [("code", .str "4711")])]) := by
        refine ⟨rfl, fun key hkey => ?_⟩
        have hcode : (key == "code") = false := by
          refine beq_eq_false_iff_ne.mpr ?_
          rintro rfl
          exact absurd hkey (by decide)
        have hget : Json.get? [("code", .str "4711")] key = none := by
          rw [Json.get?, List.lookup_cons, hcode, List.lookup_nil]
        change Except.ok Json.null = .ok ((Json.get? [("code", .str "4711")] key).getD .null)
        rw [hget, Option.getD_none]
      exact ⟨.some halike, .some halike⟩

omit [Python] in
theorem guestPost_reveals_public_gate :
    letI := Python.plain
    isView ((guestPost lookDigest lookRequest).exec (Op.answer lookDigest)
        (List.replicate 24 lookedAt) []).2 = true ∧
      ∀ answer, ((guestPost lookDigest lookRequest).exec (Op.answer lookDigest)
          (List.replicate 24 lookedAt) []).2 = .ret answer ↔
        ((guestPost lookDigest lookRequest).exec (Op.answer lookDigest)
          (List.replicate 24 { lookedAt with homeAssistant := secretHome }) []).2 =
            .ret answer := by
  have hsame : List.Forall₂ (SameToPage "gate" {"switch.gate"}) (List.replicate 24 lookedAt)
      (List.replicate 24 { lookedAt with homeAssistant := secretHome }) :=
    List.forall₂_iff_get.mpr ⟨by simp only [List.length_replicate], fun i _ _ => by
      simpa only [List.get_eq_getElem, List.getElem_replicate] using lookedAt_same⟩
  exact ⟨by decide +kernel,
    (@guestPost_reveals_public Python.plain lookDigest "gate" {"switch.gate"} lookRequest
      (by decide) (by decide) _ _ hsame).2⟩

end Oblivious

end Broker

end AccessPages
