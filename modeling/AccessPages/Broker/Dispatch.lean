import AccessPages.Broker.Action
import AccessPages.Broker.Verification
/-!
# Broker — what a dispatched action has passed

The service is called at one place. Reading back from it, the last reads
are those of the session and its grant, before them the published policy,
and before that the checks made under a policy that must have been the
same. Whatever changed in between, the call is one the final reads allow.
-/

namespace AccessPages

namespace Broker

open Pages (Page Grant Resource Action Proximity)
open Prog (History Spec)

variable [Python] {sha256 : String → String}

/-! ## What must hold of the reads -/

/-- The page publishes the action. -/
structure Permits (page : Page) (resourceId actionId : String) (resource : Resource)
    (action : Action) : Prop where
  resource_mem : resource ∈ page.resources
  resource_id : resource.id = resourceId
  action_mem : action ∈ resource.actions
  action_id : action.id = actionId
  curated : HomeAssistant.curated resource.domain action.service = true
  not_sensor : resource.domain ≠ "sensor"
  not_view : action.service ≠ "view"

/-- A reading was accepted against the radius. -/
def ReadingAccepted (radius : Int) (proximity : Option (List (String × Json)))
    (h : History Op World) : Prop :=
  ∃ reading r w w' config, proximity = some reading ∧ readingOf reading radius = .ok r ∧
    (.time, w) ∈ h ∧ r.fresh w.clock = true ∧
    (.get "/api/config", w') ∈ h ∧ w'.homeAssistant "/api/config" = .ok config ∧
    r.withinRange radius config = .ok true

/-- The session's row is bound to the page and the grant and is live, and
it was opened with the grant's secret. -/
def SessionBound (sha256 : String → String) (pageId grantId session : String) (w : World)
    (grant : Grant) : Prop :=
  (∃ s ∈ w.db.guestSessions, s.tokenHash = sha256 session ∧ s.pageId = pageId ∧
    s.grantId = grantId ∧ timestamp w.clock < s.expiresAt) ∧
  ∃ g ∈ w.db.guestSessionGrants, g.tokenHash = sha256 session ∧ g.grantHash = grant.tokenHash

/-- The session has a verification that has not expired. -/
def SessionVerified (sha256 : String → String) (pageId grantId session : String) (w : World) :
    Prop :=
  ∃ v ∈ w.db.guestVerifications, v.tokenHash = sha256 session ∧ v.pageId = pageId ∧
    v.grantId = grantId ∧ timestamp w.clock < v.expiresAt

/-- **What a call of a service rests on.** Its last reads, in order: the
published policy permits it, and a reading was accepted against the
radius of that policy if it is enabled; the session, the grant, the clock
and, where the grant asks for it, the verification. The data are what the
parameters make of a state of the entity. -/
def Authorized (sha256 : String → String)
    (pageId grantId session resourceId actionId : String) (parameters : Json)
    (proximity : Option (List (String × Json))) (h : History Op World)
    (domain service entityId : String) (data : List (String × Json)) : Prop :=
  ∃ page resource action grant expiry w₀ w₁ w₂ w₃ w₅ w₆ l earlier,
    h = (.actionRemaining, w₆) :: l ++
      boundReads pageId session w₀ w₁ w₂ w₃ ((.loadPolicy pageId, w₅) :: earlier) ∧
    (w₅.policy pageId = .ok page ∧ Permits page resourceId actionId resource action ∧
      resource.domain = domain ∧ resource.entityId = entityId ∧ action.service = service ∧
      (page.proximity.enabled = true →
        ReadingAccepted page.proximity.radiusMeters proximity earlier)) ∧
    (SessionBound sha256 pageId grantId session w₀ grant ∧
      w₁.grant? pageId grantId = some grant ∧ grantExpiry grant = .ok expiry ∧
      w₂.clock < expiry * second ∧ w₃.clock < expiry * second ∧
      (grant.verificationRequired = true → ∃ w₄,
        l = [(.verifiedUntil session pageId grantId, w₄)] ∧
          SessionVerified sha256 pageId grantId session w₄)) ∧
    ∃ fields answer w₇, parameters = .obj fields ∧ (.get "/api/states", w₇) ∈ earlier ∧
      w₇.homeAssistant "/api/states" = .ok answer ∧
      serviceDataOf resource action fields answer = .ok data

omit [Python] in
theorem sessionBound_of_info {w : World} {pageId grantId session : String} {stored : Int}
    {grant : Grant}
    (h : Sessions.guestSessionInfo sha256 w.db w.clock session pageId =
      some (grantId, stored, grant.tokenHash)) :
    SessionBound sha256 pageId grantId session w grant := by
  unfold Sessions.guestSessionInfo at h
  split at h
  · cases h
  · obtain ⟨s, hs, h⟩ := Option.bind_eq_some_iff.mp h
    obtain ⟨g, hg, h⟩ := Option.bind_eq_some_iff.mp h
    obtain ⟨hsm, hsk⟩ := Table.find?_eq_some.mp hs
    obtain ⟨hgm, hgk⟩ := Table.find?_eq_some.mp hg
    obtain ⟨⟨hp, hlive⟩, hres⟩ := Option.ite_none_right_eq_some.mp h
    obtain ⟨hgrant, -, hhash⟩ := by simpa using hres
    exact ⟨⟨s, hsm, hsk, hp, hgrant, hlive⟩, g, hgm, hgk, hhash⟩

omit [Python] in
theorem sessionVerified_of_until {w : World} {pageId grantId session : String} {v : Int}
    (h : Sessions.guestVerifiedUntil sha256 w.db w.clock session pageId grantId = some v) :
    SessionVerified sha256 pageId grantId session w := by
  obtain ⟨hmem, hlive⟩ := mem_of_guestVerifiedUntil h
  exact ⟨_, hmem, rfl, rfl, rfl, hlive⟩

omit [Python] in
theorem permits_of_resourceAction {page : Page} {resourceId actionId : String}
    {resource : Resource} {action : Action}
    (h : resourceAction page resourceId actionId = .ok (resource, action)) :
    Permits page resourceId actionId resource action := by
  unfold resourceAction at h
  split at h
  · cases h
  rename_i r hr
  split at h
  · cases h
  rename_i a ha
  split at h
  · cases h
  rename_i hcur
  split at h
  · cases h
  rename_i hread
  cases h
  push Not at hread
  exact {
    resource_mem := List.mem_of_find?_eq_some hr
    resource_id := by simpa using List.find?_some hr
    action_mem := List.mem_of_find?_eq_some ha
    action_id := by simpa using List.find?_some ha
    curated := by simpa using hcur
    not_sensor := hread.1
    not_view := hread.2 }

/-! ## The steps before the call -/

/-- The one question the result is about. -/
def Op.isCall : Op → Bool
  | .callService .. => true
  | _ => false

section Steps

variable {Φ : History Op World → Op → Prop} {h : History Op World}

omit [Python] in
theorem isCall_of_isCheck {e : Op} (he : e.isCheck = true) : e.isCall = false := by
  cases e <;> simp_all [Op.isCheck, Op.isCall]

omit [Python] in
@[simp] theorem spec_allowAction {key : String} {Q : Except Exc Bool → History Op World → Prop} :
    Spec (Op.answer sha256) Φ (allowAction key).run h Q ↔
      Φ h (.allowAction key) ∧
        ∀ w, Q ((Op.allowAction key).answer sha256 w) ((.allowAction key, w) :: h) := Iff.rfl

omit [Python] in
@[simp] theorem spec_actionRemaining {Q : Except Exc Bool → History Op World → Prop} :
    Spec (Op.answer sha256) Φ actionRemaining.run h Q ↔
      Φ h .actionRemaining ∧
        ∀ w, Q (Op.actionRemaining.answer sha256 w) ((.actionRemaining, w) :: h) := Iff.rfl

omit [Python] in
theorem spec_page {pageId : String} {Q : Except Exc Page → History Op World → Prop}
    (hΦ : Φ h (.loadPolicy pageId))
    (hok : ∀ w p, w.policy pageId = .ok p → Q (.ok p) ((.loadPolicy pageId, w) :: h))
    (herr : ∀ x h', Q (.error x) h') :
    Spec (Op.answer sha256) Φ (page pageId).run h Q := by
  unfold page
  rw [Prog.spec_except_bind, spec_ask]
  refine ⟨hΦ, fun w => ?_⟩
  cases hw : (Op.loadPolicy pageId).answer sha256 w with
  | error x => exact herr _ _
  | ok loaded =>
  obtain ⟨-, hloaded⟩ := answer_eq_ok hw
  cases loaded with
  | ok p => exact hok w p hloaded.symm
  | error e => cases e <;> exact herr _ _

omit [Python] in
theorem spec_haRequest {path : String} {Q : Except Exc Json → History Op World → Prop}
    (hΦ : ∀ h e, e.isCall = false → Φ h e)
    (hok : ∀ w v, w.homeAssistant path = .ok v → Q (.ok v) ((.get path, w) :: h))
    (herr : ∀ x h', Q (.error x) h') :
    Spec (Op.answer sha256) Φ (haRequest path).run h Q := by
  unfold haRequest
  rw [Prog.spec_except_bind, spec_ask]
  refine ⟨hΦ _ _ rfl, fun w => ?_⟩
  cases hw : (Op.get path).answer sha256 w with
  | error x => exact herr _ _
  | ok answered =>
  obtain ⟨-, hanswered⟩ := answer_eq_ok hw
  cases answered with
  | ok v => exact hok w v hanswered.symm
  | error e => exact herr _ _

theorem spec_serviceData {resource : Resource} {action : Action} {supplied : Json}
    {Q : Except Exc (List (String × Json)) → History Op World → Prop}
    (hΦ : ∀ h e, e.isCall = false → Φ h e)
    (hok : ∀ w fields answer data, supplied = .obj fields →
      w.homeAssistant "/api/states" = .ok answer →
      serviceDataOf resource action fields answer = .ok data →
      Q (.ok data) ((.get "/api/states", w) :: h))
    (herr : ∀ x h', Q (.error x) h') :
    Spec (Op.answer sha256) Φ (serviceData resource action supplied).run h Q := by
  unfold serviceData
  cases supplied with
  | obj fields =>
      dsimp only
      rw [Prog.spec_except_bind]
      refine spec_haRequest hΦ (fun w answer hw => ?_) fun x h' => herr x h'
      dsimp only
      rw [Prog.spec_except_lift]
      cases hdata : serviceDataOf resource action fields answer with
      | error x => exact herr _ _
      | ok data => exact hok w fields answer data rfl hw hdata
  | _ => exact herr _ _

theorem spec_guestActionProximity {policy : Proximity}
    {proximity : Option (List (String × Json))} {Q : Except Exc Unit → History Op World → Prop}
    (hΦ : ∀ h e, e.isCall = false → Φ h e)
    (hok : ∀ l, (policy.enabled = true → ReadingAccepted policy.radiusMeters proximity (l ++ h)) →
      Q (.ok ()) (l ++ h))
    (herr : ∀ x h', Q (.error x) h') :
    Spec (Op.answer sha256) Φ (guestActionProximity policy proximity).run h Q := by
  unfold guestActionProximity
  split
  swap
  · rename_i hoff
    exact hok [] fun hon => absurd hon hoff
  cases proximity with
  | none => exact herr _ _
  | some reading =>
  dsimp only
  rw [Prog.spec_except_bind, Prog.spec_except_lift]
  cases hr : readingOf reading policy.radiusMeters with
  | error x => exact herr _ _
  | ok r =>
  dsimp only
  rw [Prog.spec_except_bind, spec_time]
  refine ⟨hΦ _ _ rfl, fun w => ?_⟩
  cases hw : Op.time.answer sha256 w with
  | error x => exact herr _ _
  | ok now =>
  obtain ⟨-, rfl⟩ := answer_eq_ok hw
  dsimp only [Op.result]
  split
  · exact herr _ _
  rename_i hfresh
  rw [Prog.spec_except_bind]
  refine spec_haRequest hΦ (fun w' config hconfig => ?_) fun x h' => herr x h'
  dsimp only
  rw [Prog.spec_except_bind, Prog.spec_except_lift]
  cases hnear : r.withinRange policy.radiusMeters config with
  | error x => exact herr _ _
  | ok near =>
  dsimp only
  split
  · exact herr _ _
  rename_i hyes
  refine hok [(.get "/api/config", w'), (.time, w)] fun _ => ?_
  refine ⟨reading, r, w, w', config, rfl, hr, by simp, by simpa using hfresh, by simp, hconfig, ?_⟩
  rw [hnear]
  simpa using hyes

end Steps

/-! ## The call -/

section Call

variable {pageId grantId session resourceId actionId : String} {parameters : Json}
  {proximity : Option (List (String × Json))}

variable (sha256 pageId grantId session resourceId actionId parameters proximity) in
/-- Every call is authorized by what was read before it. -/
def OnlyAuthorized (h : History Op World) (e : Op) : Prop :=
  ∀ domain service entityId data deadline,
    e = .callService domain service entityId data deadline →
    Authorized sha256 pageId grantId session resourceId actionId parameters proximity h domain
      service entityId data

omit [Python] in
theorem onlyAuthorized_of_not_call [Python] (h : History Op World) (e : Op) (he : e.isCall = false) :
    OnlyAuthorized sha256 pageId grantId session resourceId actionId parameters proximity h e := by
  rintro domain service entityId data deadline rfl
  cases he

/-- The call itself, once the last question before it may be asked. -/
theorem spec_dispatch {resource : Resource} {action : Action} {data : List (String × Json)}
    {expiresAt : Int} {h : History Op World}
    (hauth : ∀ w, Authorized sha256 pageId grantId session resourceId actionId parameters proximity
      ((.actionRemaining, w) :: h) resource.domain action.service resource.entityId data) :
    Spec (Op.answer sha256)
      (OnlyAuthorized sha256 pageId grantId session resourceId actionId parameters proximity)
      (guestAction.dispatch pageId grantId resource action data expiresAt).run h
      fun _ _ => True := by
  unfold guestAction.dispatch
  split
  · trivial
  rw [Prog.spec_except_bind, spec_actionRemaining]
  refine ⟨onlyAuthorized_of_not_call _ _ rfl, fun w => ?_⟩
  cases Op.actionRemaining.answer sha256 w with
  | error x => trivial
  | ok inTime =>
  dsimp only
  split
  · trivial
  rw [Prog.spec_except_bind, spec_ask]
  refine ⟨?_, fun w' => ?_⟩
  · rintro domain service entityId data' deadline he
    cases he
    exact hauth w
  cases (Op.callService resource.domain action.service resource.entityId data expiresAt).answer
      sha256 w' with
  | error x => trivial
  | ok called =>
  cases called with
  | error e =>
      dsimp only
      rw [Prog.spec_except_bind, spec_emitGuestEvent]
      refine ⟨onlyAuthorized_of_not_call _ _ rfl, fun w => ?_⟩
      split <;> trivial
  | ok u =>
      dsimp only
      rw [Prog.spec_except_bind, spec_emitGuestEvent]
      refine ⟨onlyAuthorized_of_not_call _ _ rfl, fun w => ?_⟩
      split <;> trivial

/-- From the second reading of policy and session to the call. -/
theorem authorized_of_status {page : Page} {resource : Resource} {action : Action}
    {data fields : List (String × Json)} {answer : Json} {w₅ w₇ : World}
    {earlier h : History Op World} {status : SessionResult}
    (hpolicy : w₅.policy pageId = .ok page)
    (hpermits : resourceAction page resourceId actionId = .ok (resource, action))
    (hreading : page.proximity.enabled = true →
      ReadingAccepted page.proximity.radiusMeters proximity earlier)
    (hfields : parameters = .obj fields) (hstates : (.get "/api/states", w₇) ∈ earlier)
    (hanswer : w₇.homeAssistant "/api/states" = .ok answer)
    (hdata : serviceDataOf resource action fields answer = .ok data)
    (hstatus : Status sha256 pageId grantId session ((.loadPolicy pageId, w₅) :: earlier)
      (.ok (some status)) h) (hready : status.status = .sessionReady) (w : World) :
    Authorized sha256 pageId grantId session resourceId actionId parameters proximity
      ((.actionRemaining, w) :: h) resource.domain action.service resource.entityId data := by
  have hpart := permits_of_resourceAction hpermits
  have hsecond : (0 : Int) ≤ second := by decide
  cases hstatus with
  | pending => cases hready
  | @«open» w₀ w₁ w₂ w₃ grant stored expiry hbound hrequired =>
      refine ⟨page, resource, action, grant, expiry, w₀, w₁, w₂, w₃, w₅, w, [], earlier, rfl,
        ⟨hpolicy, hpart, rfl, rfl, rfl, hreading⟩, ?_, fields, answer, w₇, hfields, hstates, hanswer,
        hdata⟩
      refine ⟨sessionBound_of_info hbound.info, hbound.found, hbound.expires, hbound.grantLive,
        lt_of_lt_of_le hbound.live (Int.mul_le_mul_of_nonneg_right (min_le_right _ _) hsecond), ?_⟩
      intro h
      rw [hrequired] at h
      cases h
  | @verified w₀ w₁ w₂ w₃ w₄ grant stored expiry v hbound hrequired hv =>
      refine ⟨page, resource, action, grant, expiry, w₀, w₁, w₂, w₃, w₅, w, [_], earlier, rfl,
        ⟨hpolicy, hpart, rfl, rfl, rfl, hreading⟩, ?_, fields, answer, w₇, hfields, hstates, hanswer,
        hdata⟩
      refine ⟨sessionBound_of_info hbound.info, hbound.found, hbound.expires, hbound.grantLive,
        lt_of_lt_of_le hbound.live (Int.mul_le_mul_of_nonneg_right (min_le_right _ _) hsecond), ?_⟩
      exact fun _ => ⟨w₄, rfl, sessionVerified_of_until hv⟩

theorem spec_recheck {policy : Page} {resource : Resource} {action : Action}
    {data fields : List (String × Json)} {answer : Json} {w₇ : World} {h : History Op World}
    (hreading : policy.proximity.enabled = true →
      ReadingAccepted policy.proximity.radiusMeters proximity h)
    (hfields : parameters = .obj fields) (hstates : (.get "/api/states", w₇) ∈ h)
    (hanswer : w₇.homeAssistant "/api/states" = .ok answer)
    (hdata : serviceDataOf resource action fields answer = .ok data) :
    Spec (Op.answer sha256)
      (OnlyAuthorized sha256 pageId grantId session resourceId actionId parameters proximity)
      (guestAction.recheck pageId grantId session resourceId actionId policy resource action
        data).run h fun _ _ => True := by
  unfold guestAction.recheck
  rw [Prog.spec_except_bind]
  refine spec_page (onlyAuthorized_of_not_call _ _ rfl) (fun w₅ current hcurrent => ?_) fun _ _ => trivial
  dsimp only
  split
  · trivial
  rename_i currentResource currentAction hpermits
  split
  · trivial
  rename_i hsame
  push Not at hsame
  obtain ⟨rfl, rfl, hproximity⟩ := hsame
  rw [Prog.spec_except_bind]
  refine spec_guestSessionStatus
    (fun h e he => onlyAuthorized_of_not_call h e (isCall_of_isCheck he)) fun r h₁ hstatus => ?_
  cases r with
  | error x => trivial
  | ok status =>
  cases status with
  | none => trivial
  | some status =>
  dsimp only
  split
  · trivial
  rename_i hready
  exact spec_dispatch fun w => authorized_of_status hcurrent hpermits
    (by rwa [hproximity]) hfields hstates hanswer hdata hstatus (not_not.mp hready) w

theorem spec_guestAction {h : History Op World} :
    Spec (Op.answer sha256)
      (OnlyAuthorized sha256 pageId grantId session resourceId actionId parameters proximity)
      (guestAction pageId grantId session resourceId actionId parameters proximity).run h
      fun _ _ => True := by
  unfold guestAction
  rw [Prog.spec_except_bind]
  refine spec_guestSessionStatus
    (fun h e he => onlyAuthorized_of_not_call h e (isCall_of_isCheck he)) fun r h₁ _ => ?_
  cases r with
  | error x => trivial
  | ok status =>
  cases status with
  | none => trivial
  | some status =>
  dsimp only
  split
  · trivial
  rw [Prog.spec_except_bind, spec_emitGuestEvent]
  refine ⟨onlyAuthorized_of_not_call _ _ rfl, fun w₂ => ?_⟩
  split
  swap
  · trivial
  rw [Prog.spec_except_bind, spec_allowAction]
  refine ⟨onlyAuthorized_of_not_call _ _ rfl, fun w₃ => ?_⟩
  split
  swap
  · trivial
  split
  · rw [Prog.spec_except_bind, spec_emitGuestEvent]
    refine ⟨onlyAuthorized_of_not_call _ _ rfl, fun w₄ => ?_⟩
    split <;> trivial
  rw [Prog.spec_except_bind]
  refine spec_page (onlyAuthorized_of_not_call _ _ rfl) (fun w₄ policy _ => ?_) fun _ _ => trivial
  dsimp only
  split
  · rw [Prog.spec_except_bind, spec_emitGuestEvent]
    refine ⟨onlyAuthorized_of_not_call _ _ rfl, fun w₅ => ?_⟩
    split <;> trivial
  rw [Prog.spec_except_bind]
  refine spec_guestActionProximity onlyAuthorized_of_not_call (fun l hreading => ?_)
    fun _ _ => trivial
  dsimp only
  rw [Prog.spec_except_bind]
  refine spec_serviceData onlyAuthorized_of_not_call
    (fun w fields answer data hfields hanswer hdata => ?_) fun _ _ => trivial
  refine spec_recheck (fun hon => ?_) hfields List.mem_cons_self hanswer hdata
  -- a reading accepted before the states were read is still on record
  obtain ⟨reading, r, w, w', config, hsome, hr, ht, hfresh, hc, hrest⟩ := hreading hon
  exact ⟨reading, r, w, w', config, hsome, hr, List.mem_cons_of_mem _ ht, hfresh,
    List.mem_cons_of_mem _ hc, hrest⟩

/-- **The dispatch choke point.** Whatever the stores, Home Assistant and
the clock are at each of the reads of a guest action, every service call
it makes is authorized by the last of them. -/
theorem action_dispatch_choke_point (sha256 : String → String)
    (pageId grantId session resourceId actionId : String) (parameters : Json)
    (proximity : Option (List (String × Json))) (worlds : List World)
    (post : History Op World) (domain service entityId : String) (data : List (String × Json))
    (deadline : Int) (w : World) (pre : History Op World)
    (hcall : ((guestAction pageId grantId session resourceId actionId parameters proximity).run.exec
      (Op.answer sha256) worlds []).1 =
        post ++ (.callService domain service entityId data deadline, w) :: pre) :
    Authorized sha256 pageId grantId session resourceId actionId parameters proximity pre domain
      service entityId data :=
  spec_guestAction.exec.1 post _ w pre hcall (Nat.zero_le _) domain service entityId data deadline
    rfl

/-- The guest of the gate turns on its light. -/
def gateAction : History Op World :=
  letI := Python.plain
  ((guestAction "gate" gateGrant.id "guest-cookie-1" "light" "turn_on" (.obj []) none).run.exec
    (Op.answer gateDigest) (List.replicate 17 { gateWorld with db := gateVisited.world.db }) []).1

/-- The call a history ends with, and whether it has data. -/
def lastCall : History Op World → Option (String × String × String × Bool)
  | (.callService domain service entityId data _, _) :: _ =>
      some (domain, service, entityId, data.isEmpty)
  | _ => none

omit [Python] in
theorem eq_of_lastCall {h : History Op World} {domain service entityId : String}
    (hcall : lastCall h = some (domain, service, entityId, true)) :
    ∃ deadline w pre, h = (.callService domain service entityId [] deadline, w) :: pre := by
  unfold lastCall at hcall
  split at hcall
  · rename_i d s e data deadline w pre
    obtain ⟨rfl, rfl, rfl, hempty⟩ := by simpa using hcall
    exact ⟨deadline, w, pre, by rw [hempty]⟩
  · cases hcall

omit [Python] in
theorem action_dispatch_choke_point_gate :
    letI := Python.plain
    ∃ deadline w pre,
      gateAction = (.callService "switch" "turn_on" "switch.gate" [] deadline, w) :: pre ∧
      Authorized gateDigest "gate" gateGrant.id "guest-cookie-1" "light" "turn_on" (.obj []) none pre
        "switch" "turn_on" "switch.gate" [] := by
  have hlast : lastCall gateAction = some ("switch", "turn_on", "switch.gate", true) := by
    decide +kernel
  obtain ⟨deadline, w, pre, hcall⟩ := eq_of_lastCall hlast
  exact ⟨deadline, w, pre, hcall, @action_dispatch_choke_point Python.plain gateDigest "gate"
    gateGrant.id "guest-cookie-1" "light" "turn_on" (.obj []) none _ [] _ _ _ _ deadline w pre hcall⟩

end Call

end Broker

end AccessPages
