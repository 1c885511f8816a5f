import AccessPages.Broker.Dispatch
import AccessPages.Broker.Handler
/-!
# Broker — every operation is about one page

What a route runs for a page reads the policy, the grants and the
sessions of that page and of no other; what it asks of a camera or calls
is published there. The page is the one the capability resolves to, and
until it is resolved and compared with the claim nothing else is read.
-/

namespace AccessPages

namespace Broker

open Pages (Page Resource)
open Prog (History Spec Asks)

/-! ## What an operation is about -/

/-- The page an operation reads, writes or reports about. -/
def Op.page? : Op → Option String
  | loadPolicy pageId => some pageId
  | loadGrants pageId => some pageId
  | consumeBootstrap pageId .. => some pageId
  | sessionInfo _ pageId => some pageId
  | verifiedUntil _ pageId _ => some pageId
  | issueChallenge _ pageId _ _ => some pageId
  | verifyChallenge _ pageId .. => some pageId
  | revoke pageId _ => some pageId
  | sendEmail pageId .. => some pageId
  | emit pageId .. => some pageId
  | _ => none

/-- The key a limiter counts under. -/
def Op.key? : Op → Option String
  | allowSession key => some key
  | allowAction key => some key
  | allowCamera key => some key
  | checkRefresh key _ => some key
  | _ => none

/-- An operation reaches Home Assistant for one entity. -/
def Op.reaches : Op → Bool
  | cameraImage _ | callService .. => true
  | _ => false

/-- The operation names no other page. -/
def Op.OnPage (pageId : String) (e : Op) : Prop :=
  (∀ q, e.page? = some q → q = pageId) ∧
    (∀ key, e.key? = some key → (pageId ++ ":").toList <+: key.toList) ∧ e ≠ .registry

/-- The page's policy, as it was read, has such a resource. -/
def Published (pageId : String) (h : History Op World) (p : Resource → Prop) : Prop :=
  ∃ w page, (.loadPolicy pageId, w) ∈ h ∧ w.policy pageId = .ok page ∧ ∃ r ∈ page.resources, p r

/-- **What may be asked for a page**: nothing that names another, an image
only of a camera the page's policy has, a service only for an action it
has. -/
structure Op.For (pageId : String) (h : History Op World) (e : Op) : Prop where
  onPage : e.OnPage pageId
  image : ∀ entityId, e = .cameraImage entityId →
    Published pageId h fun r => r.domain = "camera" ∧ r.entityId = entityId
  call : ∀ domain service entityId data deadline,
    e = .callService domain service entityId data deadline →
    Published pageId h fun r => r.domain = domain ∧ r.entityId = entityId ∧
      ∃ a ∈ r.actions, a.service = service

/-- Questions that name no other page and reach no entity. -/
def Op.Plain (pageId : String) (e : Op) : Prop := e.OnPage pageId ∧ e.reaches = false

theorem Op.Plain.for {pageId : String} {e : Op} (he : e.Plain pageId) (h : History Op World) :
    e.For pageId h where
  onPage := he.1
  image := by rintro entityId rfl; cases he.2
  call := by rintro domain service entityId data deadline rfl; cases he.2

theorem plain_page {pageId : String} {e : Op} (hpage : e.page? = some pageId)
    (hkey : e.key? = none) (hreach : e.reaches = false) : e.Plain pageId := by
  refine ⟨⟨fun q hq => Option.some.inj (hq.symm.trans hpage), fun key hk => ?_, ?_⟩, hreach⟩
  · rw [hkey] at hk; cases hk
  · rintro rfl; cases hpage

theorem plain_other {pageId : String} {e : Op} (hpage : e.page? = none)
    (hkey : e.key? = none) (hreach : e.reaches = false) (hreg : e ≠ .registry) :
    e.Plain pageId := by
  refine ⟨⟨fun q hq => ?_, fun key hk => ?_, hreg⟩, hreach⟩
  · rw [hpage] at hq; cases hq
  · rw [hkey] at hk; cases hk

theorem onPage_key {pageId key : String} {e : Op} (hpage : e.page? = none)
    (hkey : e.key? = some key) (hpre : (pageId ++ ":").toList <+: key.toList) :
    e.OnPage pageId := by
  refine ⟨fun q hq => ?_, fun key' hk => ?_, ?_⟩
  · rw [hpage] at hq; cases hq
  · obtain rfl := Option.some.inj (hkey.symm.trans hk)
    exact hpre
  · rintro rfl; cases hkey

theorem prefix_key (pageId rest : String) : (pageId ++ ":").toList <+: (pageId ++ ":" ++ rest).toList :=
  ⟨rest.toList, by simp⟩

theorem prefix_cameraKey (pageId grantId resourceId : String) :
    (pageId ++ ":").toList <+: (pageId ++ ":" ++ grantId ++ ":" ++ resourceId).toList :=
  ⟨(grantId ++ ":" ++ resourceId).toList, by simp⟩

section Plain

variable {pageId : String}

theorem asks_ask {e : Op} (he : e.Plain pageId) : Asks (Op.Plain pageId) (ask e).run :=
  ⟨he, fun _ => trivial⟩

theorem asks_onPage {e : Op} (hpage : e.page? = some pageId) (hkey : e.key? = none)
    (hreach : e.reaches = false) : Asks (Op.Plain pageId) (ask e).run :=
  asks_ask (plain_page hpage hkey hreach)

theorem asks_time : Asks (Op.Plain pageId) time.run := asks_ask (plain_other rfl rfl rfl nofun)

theorem asks_revoke {grantId : String} : Asks (Op.Plain pageId) (revoke pageId grantId).run :=
  asks_onPage rfl rfl rfl

theorem asks_emitGuestEvent {grantId : String} {event : GuestEvent} :
    Asks (Op.Plain pageId) (emitGuestEvent pageId grantId event).run := asks_onPage rfl rfl rfl

theorem asks_haRequest {path : String} : Asks (Op.Plain pageId) (haRequest path).run := by
  refine Prog.asks_except_bind (asks_ask (plain_other rfl rfl rfl nofun)) fun answer => ?_
  split <;> trivial

theorem asks_page : Asks (Op.Plain pageId) (page pageId).run := by
  refine Prog.asks_except_bind (asks_onPage rfl rfl rfl) fun loaded => ?_
  split <;> trivial

end Plain

/-! ## Sessions -/

section Sessions

variable [Python] {sha256 : String → String} {pageId grantId session : String}

theorem asks_currentGuestGrant :
    Asks (Op.Plain pageId) (currentGuestGrant pageId grantId).run := by
  refine Prog.asks_except_bind (asks_onPage rfl rfl rfl) fun loaded => ?_
  split
  · trivial
  · trivial
  split
  · trivial
  refine Prog.asks_except_bind Prog.asks_except_lift fun expiry => ?_
  refine Prog.asks_except_bind asks_time fun now => ?_
  split <;> trivial

omit [Python] in
theorem asks_guestSessionResult {expiry : Int} {grant : Pages.Grant} :
    Asks (Op.Plain pageId) (guestSessionResult pageId grantId expiry grant session).run := by
  unfold guestSessionResult
  split
  · refine Prog.asks_except_bind (asks_onPage rfl rfl rfl) fun verified => ?_
    split <;> trivial
  · trivial

theorem asks_guestSessionStatus :
    Asks (Op.Plain pageId) (guestSessionStatus pageId grantId session).run := by
  refine Prog.asks_except_bind (asks_onPage rfl rfl rfl) fun info => ?_
  split
  · trivial
  split
  · trivial
  refine Prog.asks_except_bind asks_currentGuestGrant fun current => ?_
  split
  · trivial
  split
  · trivial
  refine Prog.asks_except_bind asks_time fun now => ?_
  split
  · trivial
  · exact Prog.asks_except_bind asks_guestSessionResult fun _ => trivial

theorem asks_exchangeGuestBootstrap {secret : String} :
    Asks (Op.Plain pageId) (exchangeGuestBootstrap sha256 pageId grantId secret).run := by
  refine Prog.asks_except_bind asks_currentGuestGrant fun current => ?_
  split
  · trivial
  split
  · trivial
  refine Prog.asks_except_bind (asks_ask ⟨onPage_key rfl rfl (prefix_key _ _), rfl⟩)
    fun allowed => ?_
  split
  · trivial
  split
  · trivial
  refine Prog.asks_except_bind (asks_onPage rfl rfl rfl) fun consumed => ?_
  have hrevoked : Asks (Op.Plain pageId) (exchangeGuestBootstrap.revoked pageId grantId).run :=
    Prog.asks_except_bind asks_revoke fun _ => trivial
  split
  · trivial
  · trivial
  refine Prog.asks_except_bind asks_currentGuestGrant fun again => ?_
  split
  · exact hrevoked
  split
  · exact hrevoked
  · exact Prog.asks_except_bind asks_guestSessionResult fun _ => trivial

theorem asks_resumeGuestBootstrap {secret : Json} :
    Asks (Op.Plain pageId) (resumeGuestBootstrap sha256 pageId grantId session secret).run := by
  refine Prog.asks_except_bind asks_guestSessionStatus fun status => ?_
  refine Prog.asks_except_bind asks_currentGuestGrant fun current => ?_
  split
  · split <;> trivial
  · trivial
  · trivial

theorem asks_verifiedGuestContext :
    Asks (Op.Plain pageId) (verifiedGuestContext pageId grantId session).run := by
  refine Prog.asks_except_bind asks_guestSessionStatus fun status => ?_
  refine Prog.asks_except_bind asks_currentGuestGrant fun current => ?_
  split <;> trivial

theorem asks_requestGuestVerification {replace : Bool} :
    Asks (Op.Plain pageId) (requestGuestVerification pageId grantId session replace).run := by
  have hdeliver : ∀ code, Asks (Op.Plain pageId)
      (requestGuestVerification.deliver pageId grantId session code).run := by
    intro code
    refine Prog.asks_except_bind (asks_onPage rfl rfl rfl) fun delivered => ?_
    split
    · refine Prog.asks_except_bind asks_verifiedGuestContext fun context => ?_
      split <;> trivial
    · trivial
  refine Prog.asks_except_bind asks_verifiedGuestContext fun context => ?_
  split
  · trivial
  refine Prog.asks_except_bind (asks_onPage rfl rfl rfl) fun issued => ?_
  split
  · trivial
  · trivial
  refine Prog.asks_except_bind (Prog.asks_except_tryCatch (hdeliver _) fun e => ?_) fun _ =>
    Prog.asks_except_bind asks_emitGuestEvent fun _ => trivial
  split
  · exact Prog.asks_except_bind (asks_ask (plain_other rfl rfl rfl nofun)) fun _ => trivial
  · trivial

theorem asks_verifyGuestCode {code : String} :
    Asks (Op.Plain pageId) (verifyGuestCode pageId grantId session code).run := by
  refine Prog.asks_except_bind asks_verifiedGuestContext fun context => ?_
  split
  · trivial
  split
  · exact Prog.asks_except_bind asks_emitGuestEvent fun _ => trivial
  refine Prog.asks_except_bind (asks_onPage rfl rfl rfl) fun verified => ?_
  split
  · split
    · trivial
    · exact Prog.asks_except_bind asks_emitGuestEvent fun _ => trivial
  · exact Prog.asks_except_bind asks_emitGuestEvent fun _ => asks_guestSessionStatus

end Sessions

/-! ## Views and actions -/

section Views

variable [Python] {sha256 : String → String} {pageId grantId session resourceId : String}

theorem asks_readySession :
    Asks (Op.Plain pageId) (readySession pageId grantId session).run := by
  refine Prog.asks_except_bind asks_guestSessionStatus fun status => ?_
  split
  · trivial
  · split <;> trivial

theorem asks_stillReady : Asks (Op.Plain pageId) (stillReady pageId grantId session).run := by
  refine Prog.asks_except_bind asks_guestSessionStatus fun status => ?_
  split <;> trivial

omit [Python] in
theorem asks_publishedGuestResource :
    Asks (Op.Plain pageId) (publishedGuestResource pageId resourceId).run := by
  refine Prog.asks_except_bind (asks_onPage rfl rfl rfl) fun loaded => ?_
  split <;> trivial

omit [Python] in
theorem asks_getStates {entityIds : List String} :
    Asks (Op.Plain pageId) (getStates entityIds).run :=
  Prog.asks_except_bind asks_haRequest fun _ => Prog.asks_except_lift

omit [Python] in
theorem asks_pageStates {policy : Page} : Asks (Op.Plain pageId) (pageStates policy).run := by
  unfold pageStates
  split
  · trivial
  · exact asks_getStates

theorem asks_guestResourceState :
    Asks (Op.Plain pageId) (guestResourceState pageId grantId session resourceId).run := by
  refine Prog.asks_except_bind asks_readySession fun status => ?_
  split
  · trivial
  refine Prog.asks_except_bind asks_emitGuestEvent fun _ => ?_
  refine Prog.asks_except_bind asks_publishedGuestResource fun resource => ?_
  split
  · trivial
  refine Prog.asks_except_bind asks_getStates fun states => ?_
  refine Prog.asks_except_bind asks_stillReady fun ready => ?_
  refine Prog.asks_except_bind asks_publishedGuestResource fun current => ?_
  split
  · trivial
  split
  · trivial
  · exact Prog.asks_except_bind Prog.asks_except_lift fun _ => trivial

theorem asks_guestActionProximity {policy : Pages.Proximity}
    {proximity : Option (List (String × Json))} :
    Asks (Op.Plain pageId) (guestActionProximity policy proximity).run := by
  unfold guestActionProximity
  split
  swap
  · trivial
  split
  · trivial
  refine Prog.asks_except_bind Prog.asks_except_lift fun r => ?_
  refine Prog.asks_except_bind asks_time fun now => ?_
  split
  · trivial
  refine Prog.asks_except_bind asks_haRequest fun config => ?_
  refine Prog.asks_except_bind Prog.asks_except_lift fun near => ?_
  split <;> trivial

theorem asks_serviceData {resource : Resource} {action : Pages.Action} {supplied : Json} :
    Asks (Op.Plain pageId) (serviceData resource action supplied).run := by
  unfold serviceData
  split
  · exact Prog.asks_except_bind asks_haRequest fun _ => Prog.asks_except_lift
  · trivial

end Views

/-! ## What a route runs -/

section Run

variable [Python] {sha256 : String → String} {pageId grantId session resourceId : String}
  {h : History Op World} {α β : Type}

omit [Python] in
/-- A step that reaches no entity, and what follows it. -/
theorem spec_plain_bind {x : BrokerM α} {f : α → BrokerM β}
    {Q : Except Exc β → History Op World → Prop} (hx : Asks (Op.Plain pageId) x.run)
    (hf : ∀ a h', h <:+ h' → Spec (Op.answer sha256) (Op.For pageId) (f a).run h' Q)
    (herr : ∀ e h', Q (.error e) h') :
    Spec (Op.answer sha256) (Op.For pageId) (x >>= f).run h Q := by
  rw [Prog.spec_except_bind]
  refine Prog.spec_mono (hx.spec (fun h e he => he.for h) h) fun r h' hs => ?_
  cases r with
  | ok a => exact hf a h' hs
  | error e => exact herr e h'

omit [Python] in
theorem spec_plain {x : BrokerM α} (hx : Asks (Op.Plain pageId) x.run) :
    Spec (Op.answer sha256) (Op.For pageId) x.run h fun _ _ => True :=
  Prog.spec_mono (hx.spec (fun h _ he => he.for h) h) fun _ _ _ => trivial

omit [Python] in
theorem for_loadPolicy : (Op.loadPolicy pageId).For pageId h := (plain_page rfl rfl rfl).for h

/-- The view is of the page, with the resources of a policy that was read. -/
def PageView.Of (pageId : String) (h : History Op World) (v : PageView) : Prop :=
  v.id = pageId ∧ ∃ w page, (.loadPolicy pageId, w) ∈ h ∧ w.policy pageId = .ok page ∧
    v.resources.map (·.id) = page.resources.map (·.id)

theorem id_of_publicResourceState {resource : Resource} {record : Json} {view : ResourceView}
    (hv : publicResourceState resource record = .ok view) : view.id = resource.id := by
  unfold publicResourceState at hv
  simp only [bind, Except.bind, pure, Except.pure] at hv
  repeat' split at hv
  all_goals cases hv
  all_goals rfl

theorem ids_of_viewResources {states : List Json} {resources : List Resource}
    {views : List ResourceView} (hv : viewResources states resources = .ok views) :
    views.map (·.id) = resources.map (·.id) := by
  induction resources generalizing views with
  | nil => cases hv; rfl
  | cons resource resources ih =>
      unfold viewResources at hv
      simp only [bind, Except.bind, pure, Except.pure] at hv
      split at hv
      · cases hv
      rename_i view hview
      split at hv
      · cases hv
      rename_i rest hrest
      cases hv
      rw [List.map_cons, List.map_cons, ih hrest, id_of_publicResourceState hview]

theorem spec_guestPageView :
    Spec (Op.answer sha256) (Op.For pageId) (guestPageView pageId grantId session).run h
      fun r h' => ∀ v, r = .ok (some v) → v.Of pageId h' := by
  refine spec_plain_bind asks_readySession (fun status h₁ _ => ?_) nofun
  split
  · exact nofun
  rw [Prog.spec_except_bind]
  refine spec_page for_loadPolicy (fun w policy hpolicy => ?_) nofun
  refine spec_plain_bind asks_stillReady (fun ready h₂ hs₂ => ?_) nofun
  split
  · exact nofun
  refine spec_plain_bind asks_emitGuestEvent (fun _ h₃ hs₃ => ?_) nofun
  refine spec_plain_bind asks_pageStates (fun states h₄ hs₄ => ?_) nofun
  refine spec_plain_bind asks_page (fun current h₅ hs₅ => ?_) nofun
  refine spec_plain_bind asks_stillReady (fun ready' h₆ hs₆ => ?_) nofun
  split
  · exact nofun
  refine spec_plain_bind asks_time (fun now h₇ hs₇ => ?_) nofun
  rw [Prog.spec_except_bind, Prog.spec_except_lift]
  cases hviews : viewResources states policy.resources with
  | error e => exact nofun
  | ok views =>
      rintro v hv
      cases hv
      -- the policy read first is still on record
      have hmem : (.loadPolicy pageId, w) ∈ h₇ :=
        (hs₂.trans (hs₃.trans (hs₄.trans (hs₅.trans (hs₆.trans hs₇))))).subset List.mem_cons_self
      exact ⟨rfl, w, policy, hmem, hpolicy, ids_of_viewResources hviews⟩

omit [Python] in
theorem spec_cameraImage {Φ : History Op World → Op → Prop} {entityId : String}
    {Q : Except Exc (List UInt8 × String) → History Op World → Prop}
    (hΦ : Φ h (.cameraImage entityId)) (hok : ∀ image h', Q (.ok image) h')
    (herr : ∀ x h', Q (.error x) h') :
    Spec (Op.answer sha256) Φ (cameraImage entityId).run h Q := by
  unfold cameraImage
  rw [Prog.spec_except_bind, spec_ask]
  refine ⟨hΦ, fun w => ?_⟩
  cases (Op.cameraImage entityId).answer sha256 w with
  | error x => exact herr _ _
  | ok answered => cases answered with
    | error e => exact herr _ _
    | ok image => exact hok _ _

theorem spec_guestCamera :
    Spec (Op.answer sha256) (Op.For pageId) (guestCamera pageId grantId session resourceId).run h
      fun _ _ => True := by
  refine spec_plain_bind asks_readySession (fun status h₁ _ => ?_) fun _ _ => trivial
  split
  · trivial
  refine spec_plain_bind asks_emitGuestEvent (fun _ h₂ _ => ?_) fun _ _ => trivial
  rw [Prog.spec_except_bind]
  refine spec_page for_loadPolicy (fun w policy hpolicy => ?_) fun _ _ => trivial
  dsimp only
  split
  · trivial
  rename_i resource hfind
  have hkey := prefix_cameraKey pageId grantId resourceId
  refine spec_plain_bind (x := checkRefresh _ _) (asks_ask ⟨onPage_key rfl rfl hkey, rfl⟩)
    (fun checked h₃ hs₃ => ?_) fun _ _ => trivial
  split
  · trivial
  refine spec_plain_bind (x := allowCamera _) (asks_ask ⟨onPage_key rfl rfl hkey, rfl⟩)
    (fun allowed h₄ hs₄ => ?_) fun _ _ => trivial
  split
  · trivial
  rw [Prog.spec_except_bind]
  refine spec_cameraImage ?_ (fun image h₅ => ?_) fun _ _ => trivial
  · refine ⟨⟨nofun, nofun, nofun⟩, fun entityId he => ?_, nofun⟩
    cases he
    refine ⟨w, policy, (hs₃.trans hs₄).subset List.mem_cons_self, hpolicy, resource,
      List.mem_of_find?_eq_some hfind, ?_, rfl⟩
    have := List.find?_some hfind
    simp only [decide_eq_true_eq] at this
    exact this.2
  refine spec_plain_bind asks_page (fun current h₆ _ => ?_) fun _ _ => trivial
  refine spec_plain_bind asks_stillReady (fun ready h₇ _ => ?_) fun _ _ => trivial
  split <;> trivial

/-- A call is for an action the page publishes. -/
theorem published_of_authorized {actionId : String} {parameters : Json}
    {proximity : Option (List (String × Json))} {domain service entityId : String}
    {data : List (String × Json)}
    (hauth : Authorized sha256 pageId grantId session resourceId actionId parameters proximity h
      domain service entityId data) :
    Published pageId h fun r => r.domain = domain ∧ r.entityId = entityId ∧
      ∃ a ∈ r.actions, a.service = service := by
  obtain ⟨page, resource, action, grant, expiry, w₀, w₁, w₂, w₃, w₅, w₆, l, earlier, rfl,
    ⟨hpolicy, hpermits, hdomain, hentity, hservice, -⟩, -⟩ := hauth
  refine ⟨w₅, page, ?_, hpolicy, resource, hpermits.resource_mem, hdomain, hentity, action,
    hpermits.action_mem, hservice⟩
  simp [boundReads]

/-- The questions of an action: none names another page, none is for an
image. -/
theorem asks_guestAction {actionId : String} {parameters : Json}
    {proximity : Option (List (String × Json))} :
    Asks (fun e => e.OnPage pageId ∧ ∀ entityId, e ≠ .cameraImage entityId)
      (guestAction pageId grantId session resourceId actionId parameters proximity).run := by
  have plain : ∀ {α : Type} {x : BrokerM α}, Asks (Op.Plain pageId) x.run →
      Asks (fun e => e.OnPage pageId ∧ ∀ entityId, e ≠ .cameraImage entityId) x.run := by
    refine fun hx => hx.mono fun e he => ⟨he.1, fun entityId => ?_⟩
    rintro rfl
    cases he.2
  refine Prog.asks_except_bind (plain asks_guestSessionStatus) fun status => ?_
  split
  · trivial
  split
  · trivial
  refine Prog.asks_except_bind (plain asks_emitGuestEvent) fun _ => ?_
  refine Prog.asks_except_bind (x := allowAction _)
    (plain (asks_ask ⟨onPage_key rfl rfl (prefix_key _ _), rfl⟩)) fun allowed => ?_
  split
  · exact Prog.asks_except_bind (plain asks_emitGuestEvent) fun _ => trivial
  refine Prog.asks_except_bind (plain asks_page) fun policy => ?_
  split
  · exact Prog.asks_except_bind (plain asks_emitGuestEvent) fun _ => trivial
  refine Prog.asks_except_bind (plain asks_guestActionProximity) fun _ => ?_
  refine Prog.asks_except_bind (plain asks_serviceData) fun data => ?_
  refine Prog.asks_except_bind (plain asks_page) fun current => ?_
  split
  · trivial
  split
  · trivial
  refine Prog.asks_except_bind (plain asks_guestSessionStatus) fun status => ?_
  split
  · trivial
  split
  · trivial
  unfold guestAction.dispatch
  split
  · trivial
  refine Prog.asks_except_bind (x := actionRemaining)
    (plain (asks_ask (plain_other rfl rfl rfl nofun))) fun inTime => ?_
  split
  · trivial
  refine Prog.asks_except_bind ⟨⟨⟨nofun, nofun, nofun⟩, nofun⟩, fun _ => trivial⟩ fun called => ?_
  split
  · exact Prog.asks_except_bind (plain asks_emitGuestEvent) fun _ => trivial
  · exact Prog.asks_except_bind (plain asks_emitGuestEvent) fun _ => trivial

theorem spec_guestAction_for {actionId : String} {parameters : Json}
    {proximity : Option (List (String × Json))} :
    Spec (Op.answer sha256) (Op.For pageId)
      (guestAction pageId grantId session resourceId actionId parameters proximity).run h
      fun _ _ => True := by
  refine Prog.spec_imp (Prog.spec_and (asks_guestAction.spec
    (Φ := fun _ e => e.OnPage pageId ∧ ∀ entityId, e ≠ .cameraImage entityId)
    (fun _ _ he => he) h) spec_guestAction) (fun h e he => ?_) fun _ _ _ => trivial
  obtain ⟨⟨honPage, himage⟩, hcall⟩ := he
  exact {
    onPage := honPage
    image := fun entityId he => absurd he (himage entityId)
    call := fun domain service entityId data deadline he =>
      published_of_authorized (hcall domain service entityId data deadline he) }

omit [Python] in
theorem map_ne_pageView {r : Except Exc (Option α)} {f : α → GuestResult}
    (hf : ∀ a v, f a ≠ .pageView v) (v : PageView) :
    r.map (Option.map f) ≠ .ok (some (.pageView v)) := by
  rcases r with e | _ | a
  · exact nofun
  · exact nofun
  · intro h
    exact hf a v (Option.some.inj (Except.ok.inj h))

/-- **What a route runs for a page asks only for that page**, and a view it
returns is of it. -/
theorem spec_run (call : Scoped) :
    Spec (Op.answer sha256) (Op.For pageId) (call.run sha256 pageId).run h
      fun r h' => ∀ v, r = .ok (some (.pageView v)) → v.Of pageId h' := by
  have other : ∀ {α : Type} {x : BrokerM (Option α)} {f : α → GuestResult},
      Spec (Op.answer sha256) (Op.For pageId) x.run h (fun _ _ => True) →
      (∀ a v, f a ≠ .pageView v) →
      Spec (Op.answer sha256) (Op.For pageId) (Option.map f <$> x).run h
        fun r h' => ∀ v, r = .ok (some (.pageView v)) → v.Of pageId h' := by
    intro α x f hx hf
    rw [Prog.spec_except_map]
    exact Prog.spec_mono hx fun r h' _ v hv => absurd hv (map_ne_pageView hf v)
  cases call with
  | bootstrap => exact other (spec_plain asks_exchangeGuestBootstrap) nofun
  | bootstrapResume => exact other (spec_plain asks_resumeGuestBootstrap) nofun
  | sessionStatus => exact other (spec_plain asks_guestSessionStatus) nofun
  | verificationChallenge => exact other (spec_plain asks_requestGuestVerification) nofun
  | verificationVerify => exact other (spec_plain asks_verifyGuestCode) nofun
  | resourceState => exact other (spec_plain asks_guestResourceState) nofun
  | camera => exact other spec_guestCamera nofun
  | action => exact other spec_guestAction_for nofun
  | pageView =>
      show Spec _ _ (Option.map GuestResult.pageView <$> guestPageView _ _ _).run h _
      rw [Prog.spec_except_map]
      refine Prog.spec_mono spec_guestPageView fun r h' hr v hv => ?_
      rcases r with e | _ | v'
      · cases hv
      · cases hv
      · cases hv
        exact hr v rfl

end Run

/-! ## The page of a request -/

section Identity

variable [Python] {sha256 : String → String} {capability pageId : String} {h : History Op World}

/-- The registry, as it was last read, has the capability for the page. -/
def Resolved (sha256 : String → String) (capability pageId : String) (h : History Op World) :
    Prop :=
  ∃ l w h', h = l ++ (.registry, w) :: h' ∧ (∀ q ∈ l, q.1 ≠ .registry) ∧ w.fault = none ∧
    resolvedPage sha256 capability w.capabilities = some pageId

/-- **What may be asked for a request that claims a page**: the registry,
whether the page it names is published, and, once it names the claimed
page, what concerns that page. -/
inductive Admitted (sha256 : String → String) (capability pageId : String)
    (h : History Op World) : Op → Prop where
  | registry : Admitted sha256 capability pageId h .registry
  | remaining : Admitted sha256 capability pageId h .actionRemaining
  | identity {w : World} {h' : History Op World} {q : String} (heq : h = (.registry, w) :: h')
      (hfault : w.fault = none) (hq : resolvedPage sha256 capability w.capabilities = some q) :
      Admitted sha256 capability pageId h (.loadPolicy q)
  | operation {e : Op} (hresolved : Resolved sha256 capability pageId h) (hfor : e.For pageId h) :
      Admitted sha256 capability pageId h e

omit [Python] in
theorem Resolved.cons (hr : Resolved sha256 capability pageId h) {e : Op} (he : e ≠ .registry)
    (w : World) : Resolved sha256 capability pageId ((e, w) :: h) := by
  obtain ⟨l, w', h', rfl, hl, hrest⟩ := hr
  exact ⟨(e, w) :: l, w', h', rfl, List.forall_mem_cons.mpr ⟨he, hl⟩, hrest⟩

omit [Python] in
@[simp] theorem spec_registryFile {Φ : History Op World → Op → Prop}
    {Q : Except Exc (Option Json) → History Op World → Prop} :
    Spec (Op.answer sha256) Φ registryFile.run h Q ↔
      Φ h .registry ∧ ∀ w, Q (Op.registry.answer sha256 w) ((.registry, w) :: h) := Iff.rfl

omit [Python] in
/-- Identity is the registry and one policy. -/
theorem spec_guestPageIdentity {Q : Except Exc (Option String) → History Op World → Prop}
    (hnone : ∀ h', Q (.ok none) h') (herr : ∀ e h', Q (.error e) h')
    (hsome : ∀ q h', Resolved sha256 capability q h' → Q (.ok (some q)) h') :
    Spec (Op.answer sha256) (Admitted sha256 capability pageId)
      (guestPageIdentity sha256 capability).run h Q := by
  unfold guestPageIdentity
  split
  · exact hnone _
  unfold readRegistry
  rw [Prog.spec_except_bind, Prog.spec_except_tryCatch, spec_registryFile]
  refine ⟨.registry, fun w => ?_⟩
  cases hw : Op.registry.answer sha256 w with
  | error e =>
      dsimp only
      split
      · exact hnone _
      · exact herr _ _
  | ok registry =>
      obtain ⟨hfault, rfl⟩ := answer_eq_ok hw
      dsimp only [Op.result]
      cases hq : resolvedPage sha256 capability w.capabilities with
      | none => exact hnone _
      | some q =>
          dsimp only
          rw [Prog.spec_except_bind, spec_ask]
          refine ⟨.identity rfl hfault hq, fun w' => ?_⟩
          have hres : Resolved sha256 capability q ((.loadPolicy q, w') :: (.registry, w) :: h) :=
            ⟨[_], w, h, rfl, by simp, hfault, hq⟩
          cases (Op.loadPolicy q).answer sha256 w' with
          | error e => exact herr _ _
          | ok loaded =>
              cases loaded with
              | ok page => exact hsome q _ hres
              | error e => cases e <;> first | exact herr _ _ | exact hnone _

omit [Python] in
/-- A page that is bound is the claimed one. -/
theorem spec_boundPage {headers : Headers}
    {Q : Except Exc (Except Nat String) → History Op World → Prop}
    (hcap : headers.getAll "X-Page-Capability" = [capability])
    (hclaim : headers.getAll "X-Access-Pages-Page-ID" = [pageId]) (hne : pageId ≠ "")
    (hrefuse : ∀ status h', Q (.ok (.error status)) h') (herr : ∀ e h', Q (.error e) h')
    (hok : ∀ h', Resolved sha256 capability pageId h' → Q (.ok (.ok pageId)) h') :
    Spec (Op.answer sha256) (Admitted sha256 capability pageId)
      (boundPage sha256 headers).run h Q := by
  unfold boundPage
  rw [hcap, hclaim]
  dsimp only
  split
  · exact hrefuse _ _
  unfold boundPage.resolve
  rw [Prog.spec_except_bind]
  refine spec_guestPageIdentity (fun _ => hrefuse _ _) (fun _ _ => herr _ _) fun q h' hq => ?_
  dsimp only
  split
  · exact hrefuse _ _
  · rename_i hsame
    push Not at hsame
    obtain rfl := hsame hne
    exact hok h' hq

/-- What a route answers with was run for the page. -/
def Answer.Of (sha256 : String → String) (capability pageId : String) (a : Answer)
    (h : History Op World) : Prop :=
  ∀ r, a = .result r → Resolved sha256 capability pageId h ∧
    ∀ v, r = .pageView v → v.Of pageId h

theorem spec_respond {route : Route} {call : Scoped}
    (hres : Resolved sha256 capability pageId h) :
    Spec (Op.answer sha256) (Admitted sha256 capability pageId)
      (route.respond sha256 pageId call).run h
      fun r h' => ∀ a, r = .ok a → a.Of sha256 capability pageId h' := by
  unfold Route.respond
  rw [Prog.spec_except_tryCatch, Prog.spec_except_bind]
  refine Prog.spec_mono (Prog.spec_invariant (J := Resolved sha256 capability pageId)
    (spec_run call) hres (fun h e w hJ he => hJ.cons he.onPage.2.2 w)
    fun h e hJ he => .operation hJ he) fun r h' hr => ?_
  obtain ⟨hJ, hview⟩ := hr
  rcases r with e | _ | result
  · dsimp only
    split
    · rename_i answer hdenial
      rintro a ⟨⟩ r rfl
      exact absurd hdenial (denial_ne_result route e r)
    · exact nofun
  · rintro a ⟨⟩
    exact nofun
  · rintro a ⟨⟩ r ⟨⟩
    refine ⟨hJ, fun v hv => hview v ?_⟩
    rw [hv]
where
  denial_ne_result (route : Route) (e : Exc) (r : GuestResult) :
      route.denial e ≠ some (.result r) := by
    unfold Route.denial Route.denial.valueError
    split <;> (try split) <;> exact nofun

/-- **The guest socket serves the claimed page or none.** -/
theorem spec_scopedPost {r : GuestRequest}
    (hcap : r.headers.getAll "X-Page-Capability" = [capability])
    (hclaim : r.headers.getAll "X-Access-Pages-Page-ID" = [pageId]) (hne : pageId ≠ "") :
    Spec (Op.answer sha256) (Admitted sha256 capability pageId) (scopedPost sha256 r).run h
      fun a h' => ∀ b, a = .ok b → b.Of sha256 capability pageId h' := by
  have refused : ∀ status h', ∀ b, (.ok (.error status) : Except Exc Answer) = .ok b →
      b.Of sha256 capability pageId h' := by
    rintro status h' b ⟨⟩
    exact nofun
  unfold scopedPost
  split
  · exact refused _ _
  split
  · exact refused _ _
  split
  · exact refused _ _
  split
  · split
    · exact refused _ _
    rw [Prog.spec_except_bind]
    refine spec_boundPage hcap hclaim hne (fun status h' => refused status h') (fun _ _ => nofun)
      fun h' _ => ?_
    rintro b ⟨⟩
    exact nofun
  split
  · exact refused _ _
  rw [Prog.spec_except_bind]
  refine spec_boundPage hcap hclaim hne (fun status h' => refused status h') (fun _ _ => nofun)
    fun h' hres => ?_
  dsimp only
  split
  · exact refused _ _
  · exact spec_respond hres

theorem spec_guestPost {r : GuestRequest}
    (hcap : r.headers.getAll "X-Page-Capability" = [capability])
    (hclaim : r.headers.getAll "X-Access-Pages-Page-ID" = [pageId]) (hne : pageId ≠ "") :
    Spec (Op.answer sha256) (Admitted sha256 capability pageId) (guestPost sha256 r) h
      fun a h' => a.Of sha256 capability pageId h' := by
  unfold guestPost
  dsimp only
  split
  · rintro _ ⟨⟩
  rw [Prog.spec_bind, Prog.spec_except_bind]
  -- what is served is the page's own, whatever was asked before
  have served : ∀ {K : Except Exc Answer → History Op World → Prop}, (∀ a h',
      (∀ answer, a = .ok answer → answer.Of sha256 capability pageId h') → K a h') → ∀ h₁,
      Spec (Op.answer sha256) (Admitted sha256 capability pageId) (scopedPost sha256 r).run h₁ K := by
    intro K hK h₁
    exact Prog.spec_mono (spec_scopedPost hcap hclaim hne) fun a h' ha => hK a h' ha
  unfold arrive
  split
  swap
  · refine served (fun a h' ha => ?_) _
    split
    · exact ha _ rfl
    · rintro _ ⟨⟩
    · rintro _ ⟨⟩
  rw [Prog.spec_except_bind, spec_actionRemaining]
  refine ⟨.remaining, fun w => ?_⟩
  cases Op.actionRemaining.answer sha256 w with
  | error e => cases e <;> rintro _ ⟨⟩
  | ok inTime =>
      dsimp only
      split
      · rintro _ ⟨⟩
      · refine served (fun a h' ha => ?_) _
        split
        · exact ha _ rfl
        · rintro _ ⟨⟩
        · rintro _ ⟨⟩

end Identity

end Broker

end AccessPages
