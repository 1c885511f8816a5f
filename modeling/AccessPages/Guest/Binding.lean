import AccessPages.Broker.Binding
import AccessPages.Guest.Endpoint
/-!
# Guest — a request to an endpoint is about its page

From the endpoint through the guest service to the broker: whatever a
client sends, the page in the path, the claim and the page of the
capability are compared at each hop, and what the broker then asks is
for the endpoint's page.
-/

namespace AccessPages

namespace Guest

open Broker (Op World Admitted Resolved Route GuestResult Answer)
open Prog (History Spec)

/-! ## Headers -/

section Headers

variable {e : Endpoint} {requestId : String} {started : Nat} {h : Headers}

theorem getAll_rewriteHeaders_page :
    (rewriteHeaders e requestId started h).getAll "X-Access-Pages-Page-ID" = [e.pageId] := by
  unfold rewriteHeaders
  rw [Headers.getAll_set_of_ne _ _ (by decide), Headers.getAll_set_of_ne _ _ (by decide),
    Headers.getAll_set_of_ne _ _ (by decide), Headers.getAll_set_self]

theorem getAll_rewriteHeaders_capability :
    (rewriteHeaders e requestId started h).getAll "X-Page-Capability" = [e.capability] := by
  unfold rewriteHeaders
  rw [Headers.getAll_set_of_ne _ _ (by decide), Headers.getAll_set_of_ne _ _ (by decide),
    Headers.getAll_set_self]

/-- What the transport writes for itself. -/
def transportNames : List String :=
  ["Host", "Connection", "Content-Length", "Transfer-Encoding", "Accept-Encoding", "Upgrade", "Te"]

theorem field_mem_transportNames (t : TransportField) : t.field.1 ∈ transportNames := by
  cases t <;> simp [TransportField.field, transportNames]

/-- The proxy passes a header on or drops it. -/
theorem getAll_forward (transport : List TransportField) (h : Headers) {name : String}
    (hname : ∀ own ∈ transportNames, lowerName own ≠ lowerName name) :
    (forward transport h).getAll name = h.getAll name ∨
      (forward transport h).getAll name = [] := by
  have hown : Headers.getAll (transport.map TransportField.field) name = [] := by
    unfold Headers.getAll
    rw [List.map_eq_nil_iff, List.filter_eq_nil_iff]
    rintro f hf
    obtain ⟨t, -, rfl⟩ := List.mem_map.mp hf
    simpa using hname _ (field_mem_transportNames t)
  have happ : (forward transport h).getAll name =
      Headers.getAll (h.filter fun f => !hopHeaders.contains (lowerName f.1) &&
        !(connectionNames h).contains (lowerName f.1)) name := by
    unfold forward Headers.getAll at *
    rw [List.filter_append, List.map_append, hown, List.append_nil]
  rw [happ]
  unfold Headers.getAll
  rw [List.filter_comm]
  -- all fields of the name are kept, or none is
  cases hkeep : !hopHeaders.contains (lowerName name) &&
      !(connectionNames h).contains (lowerName name) with
  | true =>
      left
      rw [List.filter_eq_self.mpr]
      intro f hf
      have hsame : lowerName f.1 = lowerName name := by simpa using (List.mem_filter.mp hf).2
      rw [hsame]
      exact hkeep
  | false =>
      right
      rw [List.map_eq_nil_iff, List.filter_eq_nil_iff]
      intro f hf
      have hsame : lowerName f.1 = lowerName name := by simpa using (List.mem_filter.mp hf).2
      rw [hsame, hkeep]
      exact Bool.false_ne_true

end Headers

/-! ## Paths -/

section Paths

/-- The root of every path of a page. -/
def pageRoot (pageId : String) : List Char := ("/g/" ++ pageId ++ "/").toList

theorem root_of_allowed {pageId path : String} (h : allowedGuestServicePath pageId path = true) :
    path ∈ staticPaths ∨ pageRoot pageId <+: path.toList := by
  unfold allowedGuestServicePath at h
  simp only [Bool.or_eq_true, List.contains_iff_mem, Bool.and_eq_true] at h
  rcases h with h | h
  · exact Or.inl h
  · exact Or.inr (List.isPrefixOf_iff_prefix.mp h.1.1.1.1)

theorem escapePath_cons {path : String} {c : Char} {cs : List Char} (h : path.toList = c :: cs)
    (hc : unescaped c = true) :
    escapePath path = c :: escapePath (String.ofList cs) := by
  unfold escapePath
  rw [h, List.flatMap_cons, if_pos hc, String.toList_ofList]
  rfl

/-- The second character tells a file from a page. -/
theorem requestUri_eq {r : Request} {c : Char} {cs : List Char}
    (h : r.path.toList = '/' :: c :: cs) (hc : unescaped c = true) :
    ∃ rest, requestUri r = '/' :: c :: rest := by
  unfold requestUri
  rw [escapePath_cons h (by decide), escapePath_cons (String.toList_ofList) hc]
  exact ⟨_, rfl⟩

theorem selfPath_slash {c : Char} (rest : List Char) (hc : c ≠ '/') :
    selfPath ('/' :: c :: rest) = '/' :: c :: rest := by
  unfold selfPath
  split
  · rename_i h
    exact absurd (List.cons.inj (List.cons.inj h).2).1 hc
  · rfl

/-- What starts with a slash has no scheme. -/
theorem afterScheme_slash (rest : List Char) : afterScheme ('/' :: rest) = '/' :: rest := by
  have hscheme : (('/' :: rest).takeWhile (· ≠ ':')).head? = some '/' := by
    rw [List.takeWhile_cons_of_pos (by decide), List.head?_cons]
  unfold afterScheme
  split
  · rfl
  · dsimp only
    rw [hscheme]
    exact if_neg fun h => absurd h.1 (by decide)

/-- A character that ends a path, or is dropped from it. -/
def strayChar (c : Char) : Bool := "\t\r\n#?".toList.contains c

/-- A path with one slash at its start is split as it stands. -/
theorem urlsplit_slash [Library] {c : Char} (rest : List Char) (hc : c ≠ '/')
    (hc' : strayChar c = false) :
    ∃ rest' query, urlsplit ('/' :: c :: rest) = some ('/' :: c :: rest', query) ∧
      ((∀ d ∈ rest, strayChar d = false) → rest' = rest ∧ query = []) := by
  have hstray : ∀ d, strayChar d = false →
      (!"\t\r\n".toList.contains d) = true ∧ d ≠ '#' ∧ d ≠ '?' := by
    intro d hd
    simp only [strayChar, String.reduceToList, List.contains_cons, Bool.or_eq_false_iff,
      beq_eq_false_iff_ne, ne_eq] at hd ⊢
    simp [hd.1, hd.2.1, hd.2.2.1, hd.2.2.2.1, hd.2.2.2.2.1]
  obtain ⟨hkept, hsharp, hquery⟩ := hstray c hc'
  have hfilter : ('/' :: c :: rest).filter (fun c => !"\t\r\n".toList.contains c) =
      '/' :: c :: rest.filter (fun c => !"\t\r\n".toList.contains c) := by
    rw [List.filter_cons, if_pos (by decide), List.filter_cons, if_pos hkept]
  have hnetloc : ∀ t, afterNetloc ('/' :: c :: t) = some ('/' :: c :: t) := by
    intro t
    unfold afterNetloc
    split
    · rename_i h
      exact absurd (List.cons.inj (List.cons.inj h).2).1 hc
    · rfl
  have htake : ∀ (x : Char) (t : List Char), '/' ≠ x → c ≠ x →
      ('/' :: c :: t).takeWhile (· ≠ x) = '/' :: c :: t.takeWhile (· ≠ x) ∧
        ('/' :: c :: t).dropWhile (· ≠ x) = t.dropWhile (· ≠ x) := by
    intro x t hx hx'
    simp [hx, hx']
  unfold urlsplit
  rw [List.dropWhile_cons_of_neg (by decide), hfilter]
  dsimp only
  rw [afterScheme_slash, hnetloc, Option.map_some]
  rw [(htake '#' _ (by decide) hsharp).1, (htake '?' _ (by decide) hquery).1,
    (htake '?' _ (by decide) hquery).2]
  refine ⟨_, _, rfl, fun hrest => ?_⟩
  have hall : ∀ d ∈ rest, _ := fun d hd => hstray d (hrest d hd)
  rw [List.filter_eq_self.mpr fun d hd => (hall d hd).1,
    List.takeWhile_eq_self_iff.mpr fun d hd => decide_eq_true (hall d hd).2.1,
    List.takeWhile_eq_self_iff.mpr fun d hd => decide_eq_true (hall d hd).2.2,
    List.dropWhile_eq_nil_iff.mpr fun d hd => decide_eq_true (hall d hd).2.2]
  exact ⟨rfl, rfl⟩

theorem static_second {path : String} (h : path ∈ staticPaths) :
    ∃ cs, path.toList = '/' :: 's' :: cs := by
  have htake : ∀ p ∈ staticPaths, p.toList.take 2 = ['/', 's'] := by decide
  refine ⟨path.toList.drop 2, ?_⟩
  calc path.toList = path.toList.take 2 ++ path.toList.drop 2 := (List.take_append_drop _ _).symm
    _ = '/' :: 's' :: path.toList.drop 2 := by rw [htake path h]; rfl

end Paths

/-! ## The broker's answer -/

section Ask

variable [Python] [Library] {sha256 : String → String} {capability pageId : String} {env : Env}
  {timing : Option RequestTiming} {h : History Op World}

omit [Python] in
theorem getAll_request (c : GuestCall) :
    (c.request env timing).headers.getAll "X-Page-Capability" = [c.capability] ∧
      (c.request env timing).headers.getAll "X-Access-Pages-Page-ID" = [c.pageId] := by
  have hnames : ∀ name ∈ ["Host", "Content-Length", requestIdHeader, startedHeader,
      operationHeader], lowerName name ≠ lowerName "X-Page-Capability" ∧
      lowerName name ≠ lowerName "X-Access-Pages-Page-ID" := by decide
  have hother : lowerName "X-Page-Capability" ≠ lowerName "X-Access-Pages-Page-ID" := by decide
  simp only [List.forall_mem_cons] at hnames
  cases timing <;>
    simp [GuestCall.request, Headers.getAll, RequestTiming.headers, hnames, hother, hother.symm]

/-- What the service is told: a denial, or a result for the page. -/
def BrokerReply.Of (sha256 : String → String) (capability pageId : String) (c : GuestCall)
    (h : History Op World) : BrokerReply → Prop
  | .ok r => Resolved sha256 capability pageId h ∧ c.accepts r = true ∧
      ∀ v, r = .pageView v → v.Of pageId h
  | .denied status _ _ => 400 ≤ status

omit [Python] [Library] in
theorem status_of_denied {status : Nat} {code : String} {retryAfter : Option Int}
    {c : GuestCall} {reply : BrokerReply} (hreply : denied status code retryAfter = .ok reply) :
    reply.Of sha256 capability pageId c h := by
  unfold denied at hreply
  split at hreply
  · rename_i hmem
    cases hreply
    show 400 ≤ status
    simp only [List.mem_cons, List.not_mem_nil, or_false] at hmem
    omega
  · cases hreply

omit [Python] in
theorem of_received {c : GuestCall} {answer : Answer} {reply : BrokerReply}
    (ha : answer.Of sha256 capability pageId h) (hreply : received c answer = .ok reply) :
    reply.Of sha256 capability pageId c h := by
  unfold received at hreply
  split at hreply
  · exact status_of_denied hreply
  · exact status_of_denied hreply
  · cases hreply
  · rename_i r
    split at hreply
    · cases hreply
    split at hreply
    · rename_i haccepts
      cases hreply
      obtain ⟨hres, hview⟩ := ha r rfl
      exact ⟨hres, haccepts, hview⟩
    · cases hreply
  · cases hreply

/-- The service asks the broker for the page it was claimed for. -/
theorem spec_brokerGuestAuth {c : GuestCall} (hpage : c.pageId = pageId)
    (hcap : c.capability = capability) :
    Spec (Op.answer sha256) (Admitted sha256 capability pageId)
      (brokerGuestAuth sha256 env timing c).run h
      fun x h' => ∀ reply, x = .ok reply → reply.Of sha256 capability pageId c h' := by
  subst hpage hcap
  unfold brokerGuestAuth
  split
  · exact nofun
  split
  · exact nofun
  split
  · exact nofun
  rename_i hvalid
  have hne : c.pageId ≠ "" := by
    intro hempty
    simp [GuestCall.valid, hempty, Pages.pageIdRe] at hvalid
  have raised : ∀ {Q : Except ServiceExc Unit → History Op World → Prop} {x : Option ServiceExc}
      {h : History Op World}, Q (.ok ()) h → (∀ e, Q (.error e) h) →
      Spec (Op.answer sha256) (Admitted sha256 c.capability c.pageId) (raise? x).run h Q := by
    intro Q x h hok herr
    cases x with
    | none => exact hok
    | some e => exact herr e
  rw [Prog.spec_except_bind]
  refine raised ?_ (fun _ => nofun)
  dsimp only
  rw [Prog.spec_except_bind, Prog.spec_except_call]
  refine Prog.spec_mono (Broker.spec_guestPost (getAll_request c).1 (getAll_request c).2 hne)
    fun answer h' ha => ?_
  dsimp only
  rw [Prog.spec_except_bind]
  refine raised ?_ (fun _ => nofun)
  dsimp only
  rw [Prog.spec_except_lift]
  exact fun reply hreply => of_received ha hreply

end Ask

/-! ## The service -/

section Service

variable [Python] [Library] {sha256 : String → String} {capability pageId : String} {env : Env}
  {timing : Option RequestTiming} {h : History Op World}

/-- What a response shows is the page's. -/
def Response.Of (pageId : String) (h : History Op World) : Response → Prop
  | .redirect location _ => pageRoot pageId <+: location.toList
  | .document shown location => shown = pageId ∧ pageRoot pageId <+: location.toList
  | .result (.session r _) => r.pageId = pageId
  | .result (.pageView v) => v.Of pageId h
  | .result (.action shown _ _) => shown = pageId
  | _ => True

/-- The response is a refusal, or for the page. -/
def Response.Bound (sha256 : String → String) (capability pageId : String) (r : Response)
    (h : History Op World) : Prop :=
  ∀ status, r.status = some status → status < 400 →
    Resolved sha256 capability pageId h ∧ r.Of pageId h

omit [Python] [Library] in
theorem bound_error {status : Nat} {message : String} {retryAfter : Option Int}
    (hstatus : 400 ≤ status) :
    (Response.error status message retryAfter).Bound sha256 capability pageId h := by
  rintro s ⟨⟩ hlt
  omega

omit [Python] [Library] in
theorem bound_exc (e : ServiceExc) : e.response.Bound sha256 capability pageId h := by
  cases e with
  | reset => exact nofun
  | _ => exact bound_error (by decide)

omit [Python] [Library] in
theorem spec_asset {Φ : History Op World → Op → Prop} {name : String}
    (hres : Resolved sha256 capability pageId h) :
    Spec (Op.answer sha256) Φ (asset env name).run h
      fun x h' => ∀ r, x = .ok r → r.Bound sha256 capability pageId h' := by
  unfold asset
  split
  · rintro r ⟨⟩
    exact bound_error (by decide)
  split
  · rintro r ⟨⟩ s - -
    exact ⟨hres, trivial⟩
  · exact nofun

omit [Python] [Library] in
theorem root_location (s : Scope) : pageRoot s.pageId <+: s.location.toList := by
  refine ⟨(s.grantId ++ "/").toList, ?_⟩
  simp [pageRoot, Scope.location]

variable {s : Scope}

theorem spec_exchange {secret : String} :
    Spec (Op.answer sha256) (Admitted sha256 s.capability s.pageId)
      (openInvitation.exchange sha256 env timing s secret).run h
      fun x h' => ∀ r, x = .ok r → r.Bound sha256 s.capability s.pageId h' := by
  unfold openInvitation.exchange
  rw [Prog.spec_except_bind]
  refine Prog.spec_mono (spec_brokerGuestAuth rfl rfl) fun x h' hx => ?_
  cases x with
  | error e => exact nofun
  | ok reply =>
      have hreply := hx reply rfl
      dsimp only
      split
      · rintro r ⟨⟩
        exact bound_error hreply
      · rintro r ⟨⟩ status - -
        exact ⟨hreply.1, root_location s⟩
      · exact nofun

theorem spec_openInvitation {session : Option String} {secret : String} :
    Spec (Op.answer sha256) (Admitted sha256 s.capability s.pageId)
      (openInvitation sha256 env timing s session secret).run h
      fun x h' => ∀ r, x = .ok r → r.Bound sha256 s.capability s.pageId h' := by
  unfold openInvitation
  cases session with
  | none => exact spec_exchange
  | some session =>
      dsimp only
      rw [Prog.spec_except_bind]
      refine Prog.spec_mono (spec_brokerGuestAuth rfl rfl) fun x h' hx => ?_
      cases x with
      | error e => exact nofun
      | ok reply =>
          have hreply := hx reply rfl
          cases reply with
          | ok result =>
              rintro r ⟨⟩ status - -
              exact ⟨hreply.1, root_location s⟩
          | denied status code retryAfter =>
              dsimp only
              split
              · rintro r ⟨⟩
                exact bound_error hreply
              split
              · rintro r ⟨⟩
                exact bound_error hreply
              · exact spec_exchange

theorem spec_showDocument {session : String} :
    Spec (Op.answer sha256) (Admitted sha256 s.capability s.pageId)
      (showDocument sha256 env timing s session).run h
      fun x h' => ∀ r, x = .ok r → r.Bound sha256 s.capability s.pageId h' := by
  unfold showDocument
  rw [Prog.spec_except_bind]
  refine Prog.spec_mono (spec_brokerGuestAuth rfl rfl) fun x h' hx => ?_
  cases x with
  | error e => exact nofun
  | ok reply =>
      have hreply := hx reply rfl
      cases reply with
      | denied status code retryAfter =>
          rintro r ⟨⟩
          exact bound_error hreply
      | ok result =>
          dsimp only
          split
          · split
            · rintro r ⟨⟩ status - -
              exact ⟨hreply.1, rfl, root_location s⟩
            · exact nofun
          · exact spec_asset hreply.1

theorem spec_relay {c : GuestCall} (hpage : c.pageId = pageId)
    (hcap : c.capability = capability) :
    Spec (Op.answer sha256) (Admitted sha256 capability pageId)
      (relay sha256 env timing c).run h
      fun x h' => ∀ r, x = .ok r → r.Bound sha256 capability pageId h' := by
  unfold relay
  rw [Prog.spec_except_bind]
  refine Prog.spec_mono (spec_brokerGuestAuth hpage hcap) fun x h' hx => ?_
  cases x with
  | error e => exact nofun
  | ok reply =>
      have hreply := hx reply rfl
      cases reply with
      | denied status code retryAfter =>
          dsimp only
          split
          · rintro r ⟨⟩ status ⟨⟩ hlt
            omega
          · rintro r ⟨⟩
            exact bound_error hreply
      | ok result =>
          obtain ⟨hres, haccepts, hview⟩ := hreply
          rintro r ⟨⟩ status - -
          refine ⟨hres, ?_⟩
          cases result with
          | session r token =>
              simp only [GuestCall.accepts, Bool.and_eq_true, decide_eq_true_eq] at haccepts
              exact haccepts.1.1.2.trans hpage
          | pageView v => exact hview v rfl
          | action shown resourceId actionId =>
              simp only [GuestCall.accepts, Bool.and_eq_true, decide_eq_true_eq] at haccepts
              exact haccepts.1.1.2.trans hpage
          | _ => trivial

omit [Python] [Library] in
theorem scope_of_getCall {session : String} {tail : List String} {c : GuestCall}
    (hc : getCall s session tail = some c) :
    c.pageId = s.pageId ∧ c.capability = s.capability := by
  unfold getCall at hc
  split at hc
  · cases hc; exact ⟨rfl, rfl⟩
  · split at hc
    · cases hc; exact ⟨rfl, rfl⟩
    · cases hc
  · cases hc

omit [Python] [Library] in
theorem scope_of_postCall {session : String} {fields : List (String × Json)}
    {tail : List String} {c : GuestCall} (hc : postCall s session fields tail = some c) :
    c.pageId = s.pageId ∧ c.capability = s.capability := by
  unfold postCall at hc
  split at hc
  · cases hc; exact ⟨rfl, rfl⟩
  · cases hc; exact ⟨rfl, rfl⟩
  · split at hc
    · cases hc; exact ⟨rfl, rfl⟩
    · cases hc
  · cases hc

theorem spec_sessionRequest {r : ServiceRequest} {session : String} :
    Spec (Op.answer sha256) (Admitted sha256 s.capability s.pageId)
      (sessionRequest sha256 env timing r s session).run h
      fun x h' => ∀ r, x = .ok r → r.Bound sha256 s.capability s.pageId h' := by
  have refused : ∀ {status : Nat} {message : String}, 400 ≤ status →
      ∀ r, (.ok (.error status message none) : Except ServiceExc Response) = .ok r →
        r.Bound sha256 s.capability s.pageId h := by
    rintro status message hstatus r ⟨⟩
    exact bound_error hstatus
  unfold sessionRequest
  dsimp only
  split
  · exact spec_showDocument
  split
  · exact refused (by decide)
  split
  · split
    · exact refused (by decide)
    · rename_i c hc
      obtain ⟨hpage, hcap⟩ := scope_of_getCall hc
      exact spec_relay hpage hcap
  split
  · exact refused (by decide)
  split
  · exact nofun
  split
  · exact refused (by decide)
  · rename_i c hc
    obtain ⟨hpage, hcap⟩ := scope_of_postCall hc
    exact spec_relay hpage hcap

theorem spec_scopedRequest {r : ServiceRequest} {query : List Char} :
    Spec (Op.answer sha256) (Admitted sha256 s.capability s.pageId)
      (scopedRequest sha256 env timing r query s).run h
      fun x h' => ∀ r, x = .ok r → r.Bound sha256 s.capability s.pageId h' := by
  unfold scopedRequest
  dsimp only
  split
  · split
    · split
      · exact spec_openInvitation
      · exact nofun
    · exact nofun
  split
  · exact nofun
  split
  · rintro r ⟨⟩
    exact bound_error (by decide)
  · exact spec_sessionRequest

/-- The page of the path is claimed, and there is one capability. -/
def ServiceRequest.Claims (r : ServiceRequest) (pageId capability : String) : Prop :=
  (∃ path query grantId suffix, urlsplit (selfPath r.target) = some (path, query) ∧
      guestRoute path = some (pageId, grantId, suffix)) ∧
    r.headers.getAll "X-Access-Pages-Page-ID" = [pageId] ∧
    r.headers.getAll "X-Page-Capability" = [capability]

omit [Python] in
theorem claims_of_scopeOf {r : ServiceRequest} {path query : List Char}
    (hsplit : urlsplit (selfPath r.target) = some (path, query)) (hs : scopeOf r.headers path = .ok s) :
    r.Claims s.pageId s.capability := by
  unfold scopeOf at hs
  split at hs
  · cases hs
  rename_i pageId grantId suffix hroute
  split at hs
  · cases hs
  split at hs
  · rename_i claim capability hclaims hcapabilities
    split at hs
    · rename_i hsame
      cases hs
      exact ⟨⟨path, query, grantId, suffix, hsplit, hroute⟩, by rw [hclaims, hsame], hcapabilities⟩
    · cases hs
  · cases hs

omit [Python] [Library] in
theorem status_of_scopeOf {headers : Headers} {path : List Char} {refusal : Response}
    (hs : scopeOf headers path = .error refusal) :
    ∀ status, refusal.status = some status → 400 ≤ status := by
  unfold scopeOf at hs
  repeat' split at hs
  all_goals cases hs
  all_goals
    rintro status ⟨⟩
    decide

/-- A file the service serves without asking anyone. -/
def ServiceRequest.Static (r : ServiceRequest) : Prop :=
  (∃ path query, urlsplit (selfPath r.target) = some (path, query) ∧ "/static/".toList <+: path) ∨
    selfPath r.target = "/health".toList ∨
    selfPath r.target = "/broker-health".toList

/-- A response of the service that is not a file: a refusal, or for the
page that was claimed. -/
def ServiceRequest.Serves (r : ServiceRequest) (sha256 : String → String)
    (capability pageId : String) (x : Response) (h : History Op World) : Prop :=
  r.Static ∨ ∀ status, x.status = some status → status < 400 → r.Claims pageId capability ∧
    Resolved sha256 capability pageId h ∧ x.Of pageId h

omit [Python] in
theorem serves_of_bound {r : ServiceRequest} {x : Response} (hr : r.Claims pageId capability)
    (hx : x.Bound sha256 capability pageId h) : r.Serves sha256 capability pageId x h :=
  Or.inr fun status hs hlt => ⟨hr, hx status hs hlt⟩

omit [Python] in
theorem serves_of_refusal {r : ServiceRequest} {x : Response}
    (hx : ∀ status, x.status = some status → 400 ≤ status) :
    r.Serves sha256 capability pageId x h :=
  Or.inr fun status hs hlt => absurd (hx status hs) (Nat.not_le.mpr hlt)

section Guest

variable {r : ServiceRequest}
  (hclaim : r.headers.getAll "X-Access-Pages-Page-ID" = [pageId] ∨
    r.headers.getAll "X-Access-Pages-Page-ID" = [])
  (hcap : r.headers.getAll "X-Page-Capability" = [capability] ∨
    r.headers.getAll "X-Page-Capability" = [])

include hclaim hcap

theorem spec_serveGuest :
    Spec (Op.answer sha256)
      (fun h e => r.Claims pageId capability ∧ Admitted sha256 capability pageId h e)
      (serveGuest sha256 env timing r).run h
      fun x h' => ∀ y, x = .ok y → r.Serves sha256 capability pageId y h' := by
  unfold serveGuest
  split
  · rintro y ⟨⟩
    exact serves_of_refusal nofun
  rename_i path query hsplit
  split
  · rename_i hstatic
    unfold asset
    split
    · exact fun y _ => Or.inl (Or.inl ⟨path, query, hsplit, hstatic.2.1⟩)
    split
    · exact fun y _ => Or.inl (Or.inl ⟨path, query, hsplit, hstatic.2.1⟩)
    · exact nofun
  rw [Prog.spec_except_bind, Prog.spec_except_lift]
  cases env.connector with
  | error e => exact nofun
  | ok healthy =>
  dsimp only
  split
  · rintro y ⟨⟩
    exact serves_of_refusal (by rintro status ⟨⟩; decide)
  split
  · rename_i refusal hs
    rintro y ⟨⟩
    exact serves_of_refusal (status_of_scopeOf hs)
  rename_i s hs
  have hclaims := claims_of_scopeOf hsplit hs
  -- what the endpoint sent is what the path was compared with
  obtain rfl : s.pageId = pageId := by
    rcases hclaim with h | h
    · exact List.head_eq_of_cons_eq (hclaims.2.1.symm.trans h)
    · exact absurd (hclaims.2.1.symm.trans h) (List.cons_ne_nil _ _)
  obtain rfl : s.capability = capability := by
    rcases hcap with h | h
    · exact List.head_eq_of_cons_eq (hclaims.2.2.symm.trans h)
    · exact absurd (hclaims.2.2.symm.trans h) (List.cons_ne_nil _ _)
  refine Prog.spec_imp spec_scopedRequest (fun h e he => ⟨hclaims, he⟩) fun x h' hx y hy => ?_
  exact serves_of_bound hclaims (hx y hy)

/-- **The guest service.** Whoever sends it the page and the capability of
an endpoint, or nothing under their names, has the broker asked for that
page only, and a response that is no refusal is for it. -/
theorem spec_guest :
    Spec (Op.answer sha256)
      (fun h e => r.Claims pageId capability ∧ Admitted sha256 capability pageId h e)
      (guest sha256 env r) h fun x h' => r.Serves sha256 capability pageId x h' := by
  unfold guest
  split
  · exact serves_of_refusal (by rintro status ⟨⟩; decide)
  split
  · rename_i hpath
    exact Or.inl (Or.inr (Or.inl hpath.2))
  split
  · rename_i hpath
    exact Or.inl (Or.inr (Or.inr hpath.2))
  split
  · exact serves_of_refusal nofun
  dsimp only
  split
  · exact serves_of_refusal (by rintro status ⟨⟩; decide)
  split
  · exact serves_of_refusal (by rintro status ⟨⟩; decide)
  split
  · exact serves_of_refusal (by rintro status ⟨⟩; decide)
  rw [Prog.spec_bind]
  refine Prog.spec_mono (spec_serveGuest hclaim hcap) fun x h' hx => ?_
  cases x with
  | ok y => exact hx y rfl
  | error e => exact serves_of_refusal (by cases e <;> rintro status ⟨⟩ <;> decide)

end Guest

end Service

/-! ## The endpoint -/

section Endpoint

variable [Python] [Library] {sha256 : String → String} {e : Endpoint} {r : Request}
  {env : EndpointEnv} {h : History Op World}

/-- What the endpoint sends on for its page: the path is one of the page's,
the guest service reads the page off it, and finds it claimed. -/
def PathBound (e : Endpoint) (r : Request) (env : EndpointEnv) : Prop :=
  pageRoot e.pageId <+: r.path.toList ∧ ∃ started, env.started = some started ∧
    (forwarded e r env started).Claims e.pageId e.capability

/-- Paths that are no guest operation. -/
def Request.isFile (r : Request) : Prop := r.path = "/health" ∨ r.path ∈ staticPaths

omit [Python] in
/-- A path of the page is read as one by the service, and a file as a file. -/
theorem file_or_root (hallowed : allowedGuestServicePath e.pageId r.path = true) (started : Nat) :
    (r.isFile ∧ ∀ p c, ¬ (forwarded e r env started).Claims p c) ∨
      (pageRoot e.pageId <+: r.path.toList ∧ ¬ (forwarded e r env started).Static) := by
  rcases root_of_allowed hallowed with hstatic | hroot
  · refine Or.inl ⟨Or.inr hstatic, fun p c hclaims => ?_⟩
    obtain ⟨cs, hcs⟩ := static_second hstatic
    obtain ⟨rest, hrest⟩ := requestUri_eq hcs (by decide)
    obtain ⟨rest', query', hread, -⟩ := urlsplit_slash rest (show 's' ≠ '/' by decide) (by decide)
    obtain ⟨⟨path, query, grantId, suffix, hsplit, hroute⟩, -⟩ := hclaims
    change urlsplit (selfPath (requestUri r)) = _ at hsplit
    rw [hrest, selfPath_slash rest (by decide), hread] at hsplit
    cases hsplit
    simp [guestRoute] at hroute
  · refine Or.inr ⟨hroot, ?_⟩
    obtain ⟨t, ht⟩ := hroot
    have hcs : r.path.toList = '/' :: 'g' :: ('/' :: (e.pageId.toList ++ ['/'] ++ t)) := by
      rw [← ht]
      simp [pageRoot]
    obtain ⟨rest, hrest⟩ := requestUri_eq hcs (by decide)
    obtain ⟨rest', query', hread, -⟩ := urlsplit_slash rest (show 'g' ≠ '/' by decide) (by decide)
    unfold ServiceRequest.Static
    change ¬((∃ path query, urlsplit (selfPath (requestUri r)) = some (path, query) ∧ _) ∨
      selfPath (requestUri r) = _ ∨ selfPath (requestUri r) = _)
    rw [hrest, selfPath_slash rest (by decide), hread]
    rintro (⟨path, query, hsplit, u, hu⟩ | h | h)
    · cases hsplit
      cases hu
    · cases h
    · cases h

omit [Python] [Library] in
/-- The two rewritten headers arrive, or nothing does under their names. -/
theorem headers_forwarded (e : Endpoint) (r : Request) (env : EndpointEnv) (started : Nat) :
    ((forwarded e r env started).headers.getAll "X-Access-Pages-Page-ID" = [e.pageId] ∨
      (forwarded e r env started).headers.getAll "X-Access-Pages-Page-ID" = []) ∧
    ((forwarded e r env started).headers.getAll "X-Page-Capability" = [e.capability] ∨
      (forwarded e r env started).headers.getAll "X-Page-Capability" = []) := by
  have hpage := getAll_forward env.transport (rewriteHeaders e env.requestId started r.headers)
    (show ∀ own ∈ transportNames, lowerName own ≠ lowerName "X-Access-Pages-Page-ID" by decide)
  have hcap := getAll_forward env.transport (rewriteHeaders e env.requestId started r.headers)
    (show ∀ own ∈ transportNames, lowerName own ≠ lowerName "X-Page-Capability" by decide)
  rw [getAll_rewriteHeaders_page] at hpage
  rw [getAll_rewriteHeaders_capability] at hcap
  exact ⟨hpage, hcap⟩

/-- What the endpoint answers itself is a refusal or the probe. -/
theorem spec_serveHTTP :
    Spec (Op.answer sha256)
      (fun h q => PathBound e r env ∧ Admitted sha256 e.capability e.pageId h q)
      (serveHTTP sha256 e r env) h fun x h' => ∀ status, x.status = some status → status < 400 →
        r.isFile ∨ (PathBound e r env ∧ Resolved sha256 e.capability e.pageId h' ∧
          x.Of e.pageId h') := by
  have refused : ∀ {n : Nat} {message : String}, 400 ≤ n → ∀ status,
      (Response.text n message).status = some status → status < 400 →
        r.isFile ∨ (PathBound e r env ∧ Resolved sha256 e.capability e.pageId h ∧
          (Response.text n message).Of e.pageId h) := by
    rintro n message hn status ⟨⟩ hlt
    omega
  unfold serveHTTP
  split
  · rename_i hpath
    exact fun _ _ _ => Or.inl (Or.inl hpath)
  split
  · exact refused (by decide)
  rename_i started hstarted
  split
  · exact refused (by decide)
  split
  · exact refused (by decide)
  split
  · exact refused (by decide)
  rename_i hallowed
  split
  · exact refused (by decide)
  split
  · exact refused (by decide)
  split
  · exact refused (by decide)
  · exact refused (by decide)
  have hpath : allowedGuestServicePath e.pageId r.path = true := by
    by_contra hnot
    exact hallowed (Or.inl (by simpa using hnot))
  obtain ⟨hclaim, hcap⟩ := headers_forwarded e r env started
  refine Prog.spec_imp (spec_guest hclaim hcap) (fun h q hq => ⟨?_, hq.2⟩) fun x h' hx => ?_
  · rcases file_or_root hpath started with ⟨-, hfile⟩ | ⟨hroot, -⟩
    · exact absurd hq.1 (hfile _ _)
    · exact ⟨hroot, started, hstarted, hq.1⟩
  · intro status hs hlt
    rcases file_or_root hpath started with ⟨hfile, -⟩ | ⟨hroot, hstatic⟩
    · exact Or.inl hfile
    · rcases hx with hx | hx
      · exact absurd hx hstatic
      · obtain ⟨hclaims, hres, hof⟩ := hx status hs hlt
        exact Or.inr ⟨⟨hroot, started, hstarted, hclaims⟩, hres, hof⟩

end Endpoint

end Guest

end AccessPages
