import AccessPages.Broker.Views
import AccessPages.Guest.Request
/-!
# Broker — the guest socket

`GuestHandler` of `ha_broker.py`: the only way in for guests. A request
names a route and carries a page capability; the page it may act on is
the one the capability resolves to, and every route runs for that page.
-/

namespace AccessPages

namespace Broker

/-! ## Routes -/

inductive Route where
  | pageIdentity
  | bootstrap
  | bootstrapResume
  | sessionStatus
  | verificationChallenge
  | verificationVerify
  | resourceState
  | pageView
  | camera
  | action
  deriving DecidableEq, Repr

def Route.path : Route → String
  | pageIdentity => "/guest/v1/page-identity"
  | bootstrap => "/guest/v1/bootstrap"
  | bootstrapResume => "/guest/v1/bootstrap-resume"
  | sessionStatus => "/guest/v1/session-status"
  | verificationChallenge => "/guest/v1/verification-challenge"
  | verificationVerify => "/guest/v1/verification-verify"
  | resourceState => "/guest/v1/resource-state"
  | pageView => "/guest/v1/page-view"
  | camera => "/guest/v1/camera"
  | action => "/guest/v1/action"

def Route.ofPath? (s : String) : Option Route :=
  [pageIdentity, bootstrap, bootstrapResume, sessionStatus, verificationChallenge,
    verificationVerify, resourceState, pageView, camera, action].find? (·.path = s)

/-- The fields a route's payload has, no more and no fewer. -/
def Route.fields : Route → List String
  | pageIdentity => []
  | bootstrap => ["grant_id", "bootstrap"]
  | bootstrapResume => ["grant_id", "session", "bootstrap"]
  | sessionStatus => ["grant_id", "session"]
  | verificationChallenge => ["grant_id", "session", "replace"]
  | verificationVerify => ["grant_id", "session", "code"]
  | resourceState => ["grant_id", "session", "resource_id"]
  | pageView => ["grant_id", "session"]
  | camera => ["grant_id", "session", "resource_id"]
  | action => ["grant_id", "session", "resource_id", "action_id", "parameters", "proximity"]

/-- A payload that was accepted. -/
inductive Scoped where
  | bootstrap (grantId bootstrap : String)
  | bootstrapResume (grantId session : String) (bootstrap : Json)
  | sessionStatus (grantId session : String)
  | verificationChallenge (grantId session : String) (replace : Bool)
  | verificationVerify (grantId session code : String)
  | resourceState (grantId session resourceId : String)
  | pageView (grantId session : String)
  | camera (grantId session resourceId : String)
  | action (grantId session resourceId actionId : String) (parameters : Json)
      (proximity : Option (List (String × Json)))

/-- `[A-Za-z0-9_-]{16,128}`. -/
def secretRe (s : String) : Bool := matchesClass Pages.isTokenChar 16 128 s.toList

/-- A text field that matches. -/
def textField (payload : List (String × Json)) (key : String) (re : String → Bool) :
    Option String :=
  match Json.get? payload key with
  | some (.str s) => if re s then some s else none
  | _ => none

/-- A location reading has these fields. -/
def proximityKeys : List String := ["latitude", "longitude", "accuracy_meters", "measured_at"]

/-- `set(payload) == keys`. -/
def hasKeys (payload : List (String × Json)) (keys : List String) : Bool :=
  payload.all (·.1 ∈ keys) && keys.all fun k => (Json.get? payload k).isSome

/-- A reading, or none. -/
def proximityField (payload : List (String × Json)) :
    Option (Option (List (String × Json))) :=
  match Json.get? payload "proximity" with
  | some .null => some none
  | some (.obj reading) => if hasKeys reading proximityKeys then some (some reading) else none
  | _ => none

/-- What a route makes of its payload; `none` is the `ValueError`. -/
def Route.parse (route : Route) (payload : List (String × Json)) : Option Scoped :=
  if !hasKeys payload route.fields then none
  else do
    let grantId ← textField payload "grant_id" Pages.grantIdRe
    let secret ← textField payload (if route = bootstrap then "bootstrap" else "session") secretRe
    match route with
    | pageIdentity => none
    | bootstrap => some (.bootstrap grantId secret)
    | bootstrapResume =>
        some (.bootstrapResume grantId secret (Json.getD payload "bootstrap" .null))
    | sessionStatus => some (.sessionStatus grantId secret)
    | verificationChallenge =>
        match Json.get? payload "replace" with
        | some (.bool replace) => some (.verificationChallenge grantId secret replace)
        | _ => none
    | verificationVerify => do
        let code ← textField payload "code" fun s => s.toList.length ≤ 32
        some (.verificationVerify grantId secret code)
    | resourceState => do
        some (.resourceState grantId secret (← textField payload "resource_id" Pages.pageIdRe))
    | pageView => some (.pageView grantId secret)
    | camera => do
        some (.camera grantId secret (← textField payload "resource_id" Pages.pageIdRe))
    | action => do
        let resourceId ← textField payload "resource_id" Pages.pageIdRe
        let actionId ← textField payload "action_id" Pages.pageIdRe
        let proximity ← proximityField payload
        match Json.get? payload "parameters" with
        | some (.obj parameters) =>
            some (.action grantId secret resourceId actionId (.obj parameters) proximity)
        | _ => none

/-! ## What is answered -/

/-- A result of a route. -/
inductive GuestResult where
  | session (r : SessionResult) (token : Option String)
  | verification (sent : Bool)
  | resourceState (resourceId : String) (s : HomeAssistant.PublicState)
  | pageView (v : PageView)
  | camera (body : List UInt8) (contentType : String)
  | action (pageId resourceId actionId : String)

/-- A response, or a connection closed without one. -/
inductive Answer where
  | error (status : Nat)
  | denial (status : Nat) (code : String) (retryAfter : Option Int)
  | page (pageId : String)
  | result (r : GuestResult)
  | closed

/-- `PUBLIC_DENIALS`. -/
def publicDenials : List (String × String) :=
  [("Verification required", "verification_required"),
    ("Resource not assigned", "resource_unavailable"),
    ("Camera not assigned", "camera_unavailable"),
    ("Camera image is not ready to refresh", "camera_refresh_wait"),
    ("Camera image refresh limit reached", "camera_refresh_limit"),
    ("Too many action requests", "action_rate_limit"),
    ("Too many new guest sessions", "session_rate_limit"),
    ("Resource not found", "action_unavailable"),
    ("Action not permitted", "action_unavailable"),
    ("Resource is read-only", "action_unavailable"),
    ("Proximity reading required", "proximity_required"),
    ("Location is not accurate enough", "proximity_inaccurate"),
    ("Location reading expired", "proximity_expired"),
    ("Location is out of range", "proximity_out_of_range"),
    ("Invalid location reading", "proximity_invalid"),
    ("Location reading is invalid", "proximity_invalid"),
    ("Assigned entity not found", "resource_unavailable"),
    ("Action is not supported by this entity", "control_unavailable"),
    ("Parameters must be an object", "invalid_parameters"),
    ("Unknown action parameters", "invalid_parameters"),
    ("Invalid temperature", "invalid_parameters"),
    ("Temperature is outside live capability", "control_unavailable"),
    ("Invalid numeric value", "invalid_parameters"),
    ("Value is outside live capability", "control_unavailable"),
    ("Unsupported option", "control_unavailable"),
    ("Unsupported HVAC mode", "control_unavailable"),
    ("Invalid fan percentage", "invalid_parameters"),
    ("Unsupported fan percentage", "control_unavailable"),
    ("Invalid brightness", "invalid_parameters"),
    ("Brightness is outside capability", "control_unavailable"),
    ("Invalid volume", "invalid_parameters"),
    ("Volume is outside capability", "control_unavailable")]

/-- The denial an exception of a route becomes; the others are not caught
there. -/
def Route.denial (route : Route) : Exc → Option Answer
  | .policy message status retryAfter =>
      some (.denial status ((publicDenials.lookup message).getD "access_denied") retryAfter)
  | .value _ => some valueError
  | .python .valueError => some valueError
  | .python _ => none
  | .homeAssistant _ =>
      some (.denial 502 (if route = action then "action_uncertain" else "ha_unavailable") none)
  | .os => some (.denial 503 "temporarily_unavailable" none)
  | .sqlite => some (.denial 503 "temporarily_unavailable" none)
  | .deadline => none
where
  valueError : Answer :=
    if route = verificationVerify then .denial 401 "verification_invalid" none
    else .denial 429 "request_limit" none

/-! ## The page of a request -/

/-- What the guest socket receives. `body` is what `json.loads` makes of
the announced length, if it is an object without duplicate keys, and
`clockNs` what the clock shows then. -/
structure GuestRequest where
  path : String
  headers : Headers
  body : Option (List (String × Json))
  clockNs : Int

section Serve

variable [Python] (sha256 : String → String)

/-- The pages whose entry is the digest; `none` if the registry is not as
it should be. -/
def registryMatches (digest : String) : List (String × Json) → Option (List String)
  | [] => some []
  | (pageId, expected) :: rest => do
      let .str hash := expected | none
      if !Pages.pageIdRe pageId || !Pages.tokenHashRe hash then none
      else do
        let others ← registryMatches digest rest
        return if digest = hash then pageId :: others else others

/-- The page a capability names in the registry. -/
def resolvedPage (capability : String) (registry : Option Json) : Option String :=
  match registry with
  | some (.obj items) =>
      match registryMatches (sha256 capability) items with
      | some [pageId] => some pageId
      | _ => none
  | _ => none

/-- `json.loads` of the registry file; `none` is the `ValueError`. -/
def registryFile : BrokerM (Option Json) := ask .registry

/-- The registry; a failure to read it is no registry. -/
def readRegistry : BrokerM (Option Json) :=
  tryCatch registryFile fun e => if e = .os then pure none else throw e

/-- `_guest_page_identity`. -/
def guestPageIdentity (capability : String) : BrokerM (Option String) :=
  if !secretRe capability then pure none
  else do
    let registry ← readRegistry
    match resolvedPage sha256 capability registry with
    | none => return none
    | some pageId => do
        match ← ask (.loadPolicy pageId) with
        | .ok _ => return some pageId
        | .error (.python e) => throw (.python e)
        | .error _ => return none

/-- `_bound_page`: the page, or the status of the refusal. -/
def boundPage (headers : Headers) : BrokerM (Except Nat String) :=
  match headers.getAll "X-Page-Capability", headers.getAll "X-Access-Pages-Page-ID" with
  | [capability], [] => resolve capability ""
  | [capability], [claimed] =>
      if claimed ≠ "" ∧ Pages.pageIdRe claimed = false then pure (.error 400)
      else resolve capability claimed
  | _, _ => pure (.error 401)
where
  resolve (capability claimed : String) : BrokerM (Except Nat String) := do
    match ← guestPageIdentity sha256 capability with
    | none => return .error 401
    | some pageId =>
        if claimed ≠ "" ∧ claimed ≠ pageId then return .error 403 else return .ok pageId

/-- What a payload runs, for the page. -/
def Scoped.run (pageId : String) : Scoped → BrokerM (Option GuestResult)
  | .bootstrap grantId secret =>
      (Option.map fun r => .session r.1 (some r.2)) <$>
        exchangeGuestBootstrap sha256 pageId grantId secret
  | .bootstrapResume grantId session secret =>
      (Option.map fun r => .session r none) <$>
        resumeGuestBootstrap sha256 pageId grantId session secret
  | .sessionStatus grantId session =>
      (Option.map fun r => .session r none) <$> guestSessionStatus pageId grantId session
  | .verificationChallenge grantId session replace =>
      (Option.map .verification) <$> requestGuestVerification pageId grantId session replace
  | .verificationVerify grantId session code =>
      (Option.map fun r => .session r none) <$> verifyGuestCode pageId grantId session code
  | .resourceState grantId session resourceId =>
      (Option.map fun r => .resourceState r.1 r.2) <$>
        guestResourceState pageId grantId session resourceId
  | .pageView grantId session => (Option.map .pageView) <$> guestPageView pageId grantId session
  | .camera grantId session resourceId =>
      (Option.map fun r => .camera r.1 r.2) <$> guestCamera pageId grantId session resourceId
  | .action grantId session resourceId actionId parameters proximity =>
      (Option.map fun _ => .action pageId resourceId actionId) <$>
        guestAction pageId grantId session resourceId actionId parameters proximity

/-- The body of a route: an exception becomes a denial, and nothing is
access that ended. -/
def Route.respond (route : Route) (pageId : String) (call : Scoped) : BrokerM Answer :=
  tryCatch (do
    match ← call.run sha256 pageId with
    | none => return .denial 401 "access_ended" none
    | some r => return .result r)
    fun e => match route.denial e with
      | some answer => pure answer
      | none => throw e

/-- `int(lengths[0]) if lengths else 0`. -/
def contentLength (headers : Headers) : Option Int :=
  match headers.getAll "Content-Length" with
  | [] => some 0
  | [text] => Python.intOfText text
  | _ => none

/-- `_scoped_POST`. -/
def scopedPost (r : GuestRequest) : BrokerM Answer :=
  match Route.ofPath? r.path, contentLength r.headers with
  | none, _ => pure (.error 404)
  | some route, length =>
      if ((r.headers.get? "Transfer-Encoding").getD "") ≠ "" then pure (.error 400)
      else match length with
        | none => pure (.error 400)
        | some length =>
            if route = .pageIdentity then
              if length ≠ 0 then pure (.error 400)
              else do
                match ← boundPage sha256 r.headers with
                | .error status => return .error status
                | .ok pageId => return .page pageId
            else if ¬ (0 < length ∧ length ≤ 1024) then pure (.error 400)
            else do
              match ← boundPage sha256 r.headers with
              | .error status => return .error status
              | .ok pageId =>
                  match r.body.bind route.parse with
                  | none => return .error 400
                  | some call => route.respond sha256 pageId call

/-- The listener is serial: an action may have waited too long already. -/
def arrive (timing : Option Guest.RequestTiming) : BrokerM Unit :=
  if timing.any (·.actionDeadline) then do
    if !(← actionRemaining) then throw .deadline else return ()
  else return ()

/-- `do_POST`. What escapes the routes closes the connection. -/
def guestPost (r : GuestRequest) : Prog Op Op.Ans Answer :=
  let operation : Guest.Operation := if r.path = Route.action.path then .action else .other
  match Guest.timingFromHeaders r.headers operation (operation = .action) true r.clockNs with
  | none => pure (.denial 400 "invalid_request" none)
  | some timing => do
      match ← (do arrive timing; scopedPost sha256 r : BrokerM Answer).run with
      | .ok answer => return answer
      | .error .deadline => return .denial 503 "action_deadline" none
      | .error _ => return .closed

end Serve

end Broker

end AccessPages
