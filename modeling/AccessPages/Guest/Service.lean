import AccessPages.Broker.Handler
/-!
# Guest — the guest service

`guest_service.py`: between the public endpoint of a page and the broker.
It reads the page and the grant off the path, compares the page with the
one the endpoint claims, and asks the broker with the capability the
endpoint holds. What the process meets on its way (its slots, files,
clocks and sockets) is an `Env`.
-/

namespace AccessPages

namespace Guest

open Broker (Op Answer GuestResult Route)

/-- Parsers of the standard library. -/
class Library where
  /-- `urllib.parse.unquote`. -/
  unquote : String → String
  /-- `urlsplit` takes an authority that has brackets or is not ASCII. -/
  netloc : String → Bool
  /-- `SimpleCookie.load`; `none` is a `CookieError` or `ValueError`. -/
  cookies : String → Option (List (String × String))
  /-- `len(json.dumps(fields))`. -/
  fieldsLength : List (String × Json) → Nat
  /-- The length of a result on the wire. -/
  resultLength : GuestResult → Nat

/-- What ends a request early. -/
inductive ServiceExc where
  | deadline
  | reset
  | timeout
  | value
  | other
  deriving DecidableEq, Repr

/-- What the process meets. A route of the broker is called once at most. -/
structure Env where
  clockNs : Int
  late : Bool
  overdue : Bool
  slot : Bool
  brokerHealthy : Bool
  connector : Except ServiceExc Bool
  now : Int
  readable : String → Bool
  connect : Route → Option ServiceExc
  brokerClockNs : Route → Int
  receive : Route → Option ServiceExc

/-- A request as it arrives at the service. `target` is what stands between
method and version; `body` is what `json.loads` makes of the announced
length, if it is an object without duplicate keys. -/
structure ServiceRequest where
  method : String
  target : List Char
  headers : Headers
  body : Option (List (String × Json))

/-- What is answered. -/
inductive Response where
  | health
  | text (status : Nat) (message : String)
  | error (status : Nat) (message : String) (retryAfter : Option Int)
  | verificationRequired
  | redirect (location : String) (cookie : Option (String × Int))
  | document (pageId location : String)
  | asset (name : String)
  | result (r : GuestResult)
  | closed

namespace Response

/-- The status; a connection that is closed has none. -/
def status : Response → Option Nat
  | health => some 200
  | text status _ => some status
  | error status _ _ => some status
  | verificationRequired => some 403
  | redirect _ _ => some 303
  | document _ _ => some 200
  | asset _ => some 200
  | result _ => some 200
  | closed => none

end Response

/-- `PUBLIC_GUEST_ERRORS`. -/
def publicGuestErrors : List (String × String) :=
  [("session_rate_limit", "Too many new guest sessions; try again in a minute"),
    ("verification_required", "Email verification is required"),
    ("verification_invalid", "The verification code is invalid or expired"),
    ("access_ended", "This access link has expired or been revoked"),
    ("access_denied", "Guest access is unavailable"),
    ("resource_unavailable", "This resource is not available on this page"),
    ("camera_unavailable", "This camera is not available on this page"),
    ("camera_refresh_wait", "Camera image is not ready to refresh"),
    ("camera_refresh_limit", "Camera image refresh limit reached"),
    ("action_unavailable", "This action is not permitted"),
    ("action_rate_limit", "Too many action requests; try again shortly"),
    ("request_limit", "Too many requests; try again shortly"),
    ("proximity_required", "A location reading is required"),
    ("proximity_inaccurate", "Location is not accurate enough"),
    ("proximity_expired", "Location reading expired; try again"),
    ("proximity_out_of_range", "Location is outside the allowed area"),
    ("proximity_invalid", "Invalid location reading"),
    ("invalid_parameters", "Invalid action parameters"),
    ("control_unavailable", "This control is not available for that value"),
    ("ha_unavailable", "Home Assistant could not complete the request"),
    ("temporarily_unavailable", "Guest access temporarily unavailable"),
    ("action_uncertain",
      "The command may have been sent. Check refreshed state before trying again."),
    ("action_deadline",
      "This command timed out before dispatch. Refresh state before trying again.")]

/-- `PUBLIC_GUEST_ERRORS.get(code, default)`. -/
def publicError (code : Option String) (default : String) : String :=
  (code.bind (publicGuestErrors.lookup ·)).getD default

/-- "Guest access temporarily unavailable". -/
def unavailable (status : Nat) : Response :=
  .error status "Guest access temporarily unavailable" none

def notFound : Response := .error 404 "not found" none

/-- A request in progress. -/
abbrev ServiceM := ExceptT ServiceExc (Prog Op Op.Ans)

/-- Raise what the process meets, if anything. -/
def raise? : Option ServiceExc → ServiceM Unit
  | none => pure ()
  | some e => throw e

/-! ## Reading the request -/

/-- `self.path`, as `http.server` leaves it: slashes at its start are one. -/
def selfPath (target : List Char) : List Char :=
  match target with
  | '/' :: '/' :: rest => '/' :: rest.dropWhile (· = '/')
  | target => target

/-- A URL without its scheme. -/
def afterScheme (url : List Char) : List Char :=
  let scheme := url.takeWhile (· ≠ ':')
  match url.dropWhile (· ≠ ':') with
  | [] => url
  | _ :: rest =>
      if scheme.head?.any Char.isAlpha ∧ scheme.all (fun c => c.isAlphanum || "+-.".toList.contains c)
      then rest else url

section Split

variable [Library]

/-- A URL without its authority; `none` is the `ValueError`. -/
def afterNetloc (url : List Char) : Option (List Char) :=
  match url with
  | '/' :: '/' :: rest =>
      let netloc := rest.takeWhile fun c => !"/?#".toList.contains c
      if netloc.all (fun c => c.toNat ≤ 127 && !"[]".toList.contains c) ∨
          Library.netloc (String.ofList netloc) = true then
        some (rest.drop netloc.length)
      else none
  | url => some url

/-- `urlsplit(url)`: the path and the query. -/
def urlsplit (url : List Char) : Option (List Char × List Char) :=
  let url := (url.dropWhile (·.toNat ≤ 32)).filter fun c => !"\t\r\n".toList.contains c
  (afterNetloc (afterScheme url)).map fun url =>
    let url := url.takeWhile (· ≠ '#')
    (url.takeWhile (· ≠ '?'), (url.dropWhile (· ≠ '?')).drop 1)

end Split

/-- `GUEST_ROUTE.fullmatch`: page, grant and suffix. Neither id has a
slash, so each ends at the next. -/
def guestRoute (path : List Char) : Option (String × String × List Char) :=
  match path with
  | '/' :: 'g' :: '/' :: rest =>
      let page := String.ofList (rest.takeWhile (· ≠ '/'))
      match rest.dropWhile (· ≠ '/') with
      | '/' :: rest =>
          let grant := String.ofList (rest.takeWhile (· ≠ '/'))
          match rest.dropWhile (· ≠ '/') with
          | '/' :: suffix =>
              if Pages.pageIdRe page = true ∧ Pages.grantIdRe grant = true ∧ '\n' ∉ suffix then
                some (page, grant, suffix)
              else none
          | _ => none
      | _ => none
  | _ => none

/-- A path without escapes, dots or empty parts. -/
def plainPath (path : List Char) : Bool :=
  path.all (fun c => c.toNat ≤ 127) && !path.contains '%' && !path.contains '\\' &&
    ((splitAt '/' path).drop 1).dropLast.all fun part =>
      part ≠ [] && part ≠ ['.'] && part ≠ ['.', '.']

section Read

variable [Library]

/-- One field of a query; a blank value counts only if it is kept. -/
def queryField (keepBlank : Bool) (part : List Char) : Option (String × String) :=
  let name := part.takeWhile (· ≠ '=')
  let value := (part.dropWhile (· ≠ '=')).drop 1
  if part = [] ∨ (value = [] ∧ keepBlank = false) then none
  else some (decode name, decode value)
where
  decode (text : List Char) : String :=
    Library.unquote (String.ofList (text.map fun c => if c = '+' then ' ' else c))

/-- `parse_qs`, with its values in order and not yet grouped by name. -/
def parseQs (keepBlank : Bool) (query : List Char) : List (String × String) :=
  (splitAt '&' query).filterMap (queryField keepBlank)

/-- `_cookie`. -/
def cookie (headers : Headers) : Option String :=
  match headers.getAll "Cookie" with
  | [value] =>
      match (Library.cookies value).bind (·.lookup "access_pages_guest") with
      | some token => if Broker.secretRe token then some token else none
      | none => none
  | _ => none

end Read

/-- `_payload`; `none` is the `ValueError`. -/
def payload (r : ServiceRequest) : Option (List (String × Json)) :=
  let contentType := ((r.headers.get? "Content-Type").getD "").toList.takeWhile (· ≠ ';')
  if ((r.headers.get? "Transfer-Encoding").getD "") ≠ "" ∨
      contentType ≠ "application/json".toList then none
  else match r.headers.getAll "Content-Length" with
    | [length] =>
        if length ≠ "" ∧ length.toList.all Char.isDigit = true ∧
            0 < natOfDigits length.toList ∧ natOfDigits length.toList ≤ 4096 then r.body
        else none
    | _ => none

/-- `_asset`. -/
def asset (env : Env) (name : String) : ServiceM Response :=
  if name ∉ assets then pure notFound
  else if env.readable name then pure (.asset name) else throw .other
where
  /-- `ASSETS`. -/
  assets : List String :=
    ["access.css", "themes.css", "access.js", "access-api.js", "home-assistant.png",
      "access-pages-mark.png", "access-pages-wordmark.png", "guest-access-lockup.png",
      "guest-access-mark-transparent.png", "layerv.png", "layerv-wordmark.png"]

/-! ## Asking the broker -/

/-- What the broker is asked. -/
structure GuestCall where
  route : Route
  capability : String
  pageId : String
  grantId : String
  secret : String
  /-- The fields that depend on the route. -/
  fields : List (String × Json)

namespace GuestCall

/-- The name under which the secret is sent. -/
def secretName (c : GuestCall) : String :=
  if c.route = .bootstrap then "bootstrap" else "session"

/-- The checks of the fields a route has of its own. -/
def fieldsValid (c : GuestCall) : Bool :=
  match c.route with
  | .verificationChallenge =>
      match Json.get? c.fields "replace" with
      | some (.bool _) => true
      | _ => false
  | .verificationVerify => (Broker.textField c.fields "code" (·.toList.length ≤ 32)).isSome
  | .bootstrapResume =>
      (Broker.textField c.fields "bootstrap" fun s =>
        matchesClass Pages.isTokenChar 43 43 s.toList).isSome
  | .resourceState => (Broker.textField c.fields "resource_id" Pages.pageIdRe).isSome
  | .camera => (Broker.textField c.fields "resource_id" Pages.pageIdRe).isSome
  | .action =>
      (Broker.textField c.fields "resource_id" Pages.pageIdRe).isSome &&
        (Broker.textField c.fields "action_id" Pages.pageIdRe).isSome &&
        (match Json.get? c.fields "parameters" with
          | some (.obj _) => true
          | _ => false) &&
        (Broker.proximityField c.fields).isSome
  | _ => true

/-- The checks before anything is sent. -/
def valid (c : GuestCall) : Bool :=
  Broker.secretRe c.capability && Pages.pageIdRe c.pageId && Pages.grantIdRe c.grantId &&
    Broker.secretRe c.secret && c.fieldsValid

/-- The payload. -/
def scopedFields (c : GuestCall) : List (String × Json) :=
  ("grant_id", .str c.grantId) :: (c.secretName, .str c.secret) :: c.fields

/-- The timing as the route refines it. -/
def refine (c : GuestCall) (t : RequestTiming) : RequestTiming :=
  match c.route with
  | .action => { t with operation := .action, actionDeadline := true }
  | .camera => { t with operation := .camera, actionDeadline := false }
  | .verificationChallenge => { t with operation := .verification, actionDeadline := false }
  | .verificationVerify => { t with operation := .verification, actionDeadline := false }
  | _ => t

/-- What is written to the broker's socket. Nothing in a header has a line
break: each was matched or is a number. -/
def request [Library] (c : GuestCall) (env : Env) (timing : Option RequestTiming) :
    Broker.GuestRequest where
  path := c.route.path
  headers :=
    [("Host", "guest-broker"), ("X-Page-Capability", c.capability),
      ("X-Access-Pages-Page-ID", c.pageId)] ++
    (timing.elim [] fun t => (c.refine t).headers) ++
    [("Content-Length", toString (Library.fieldsLength c.scopedFields))]
  body := some c.scopedFields
  clockNs := env.brokerClockNs c.route

/-- The bytes a result may have. -/
def limit (c : GuestCall) : Nat :=
  match c.route with
  | .camera => 5 * 1024 * 1024
  | .pageView => 256 * 1024
  | .resourceState => 128 * 1024
  | _ => 1024

/-- Whether a result is one for the call. -/
def accepts (c : GuestCall) : GuestResult → Bool
  | .camera body contentType =>
      c.route = .camera && !body.isEmpty && Broker.cameraImageTypes.contains contentType
  | .pageView v => c.route = .pageView && v.id = c.pageId
  | .action pageId resourceId actionId =>
      c.route = .action && pageId = c.pageId &&
        Broker.textField c.fields "resource_id" (fun _ => true) = some resourceId &&
        Broker.textField c.fields "action_id" (fun _ => true) = some actionId
  | .resourceState resourceId _ =>
      c.route = .resourceState &&
        Broker.textField c.fields "resource_id" (fun _ => true) = some resourceId
  | .verification _ => c.route = .verificationChallenge
  | .session r token =>
      [Route.bootstrap, .bootstrapResume, .sessionStatus, .verificationVerify].contains c.route &&
        r.pageId = c.pageId && r.grantId = c.grantId &&
        (if c.route = .bootstrap then token.any Broker.secretRe else token.isNone)

end GuestCall

/-- What the service makes of the broker's answer. -/
inductive BrokerReply where
  | ok (r : GuestResult)
  | denied (status : Nat) (code : Option String) (retryAfter : Option Int)

/-- A denial that is passed on, with the code if it is public. -/
def denied (status : Nat) (code : String) (retryAfter : Option Int) :
    Except ServiceExc BrokerReply :=
  if status ∈ [400, 401, 403, 404, 429, 502, 503] then
    .ok (.denied status (if (publicGuestErrors.lookup code).isSome then some code else none)
      (retryAfter.filter fun n => status = 429 ∧ 0 < n ∧ n ≤ 3600))
  else .error .other

section Ask

variable [Python] [Library] (sha256 : String → String) (env : Env)

/-- The answer of the broker, read and checked. -/
def received (c : GuestCall) : Answer → Except ServiceExc BrokerReply
  | .error status => denied status "invalid_request" none
  | .denial status code retryAfter => denied status code retryAfter
  | .page _ => .error .other
  | .result r =>
      if c.limit < Library.resultLength r then .error .other
      else if c.accepts r then .ok (.ok r) else .error .other
  | .closed => .error .reset

/-- `_broker_guest_auth`. -/
def brokerGuestAuth (timing : Option RequestTiming) (c : GuestCall) : ServiceM BrokerReply :=
  if c.route = .action ∧ timing = none then throw .value
  else if c.route = .action ∧ env.overdue = true then throw .deadline
  else if !c.valid then throw .value
  else do
    raise? (env.connect c.route)
    let answer ← (liftM (Broker.guestPost sha256 (c.request env timing)) : ServiceM Answer)
    raise? (env.receive c.route)
    liftM (received c answer)

/-! ## Serving a request -/

/-- What the path and the endpoint's headers say a request is for. -/
structure Scope where
  pageId : String
  grantId : String
  suffix : List Char
  capability : String

/-- `prefix`, where the cookie applies. -/
def Scope.location (s : Scope) : String := "/g/" ++ s.pageId ++ "/" ++ s.grantId ++ "/"

/-- The call of a route for the scope. -/
def Scope.call (s : Scope) (route : Route) (secret : String) (fields : List (String × Json)) :
    GuestCall :=
  { route, capability := s.capability, pageId := s.pageId, grantId := s.grantId, secret, fields }

/-- The scope, or the refusal: the page in the path is the one claim there
is, and there is one capability. -/
def scopeOf (headers : Headers) (path : List Char) : Except Response Scope :=
  match guestRoute path with
  | none => .error notFound
  | some (pageId, grantId, suffix) =>
      if !plainPath path then .error notFound
      else match headers.getAll "X-Access-Pages-Page-ID", headers.getAll "X-Page-Capability" with
        | [claim], [capability] =>
            if claim = pageId then .ok ⟨pageId, grantId, suffix, capability⟩
            else .error (.error 401 "Invalid page identity" none)
        | _, _ => .error (.error 401 "Invalid page identity" none)

/-- An invitation is opened: a session the browser has is resumed, else a
new one is made. -/
def openInvitation (timing : Option RequestTiming) (s : Scope) (session : Option String)
    (secret : String) : ServiceM Response :=
  match session with
  | none => exchange
  | some session => do
      match ← brokerGuestAuth sha256 env timing
          (s.call .bootstrapResume session [("bootstrap", .str secret)]) with
      | .ok _ => return .redirect s.location none
      | .denied status _ _ =>
          if 500 ≤ status then return unavailable status
          else if status ≠ 401 then return .error status "Invitation unavailable" none
          -- a stale cookie must not block an invitation that can be used again
          else exchange
where
  exchange : ServiceM Response := do
    match ← brokerGuestAuth sha256 env timing (s.call .bootstrap secret []) with
    | .denied status code retryAfter =>
        let message := if code = some "session_rate_limit" then publicError code ""
          else "Invitation unavailable"
        return .error status message retryAfter
    | .ok (.session r (some token)) =>
        return .redirect s.location (some (token, max 0 (r.expiresAt - env.now)))
    | .ok _ => throw .other

/-- The page itself, or one of its files. -/
def showDocument (timing : Option RequestTiming) (s : Scope) (session : String) :
    ServiceM Response := do
  match ← brokerGuestAuth sha256 env timing (s.call .sessionStatus session []) with
  | .denied status code _ =>
      return .error status (publicError code "Guest session unavailable") none
  | .ok _ =>
      if s.suffix = [] then
        if env.readable "access.html" then return .document s.pageId s.location else throw .other
      else asset env (String.ofList (s.suffix.drop "static/".length))

/-- What is asked of the broker is answered. -/
def relay (timing : Option RequestTiming) (c : GuestCall) : ServiceM Response := do
  match ← brokerGuestAuth sha256 env timing c with
  | .ok r => return .result r
  | .denied status code retryAfter =>
      if c.route = .pageView ∧ status = 403 then return .verificationRequired
      else return .error status (publicError code "Guest request denied") retryAfter

/-- `suffix[len(api):].strip("/").split("/")`. -/
def tailOf (rest : List Char) : List String :=
  let trimmed := (rest.dropWhile (· = '/')).rdropWhile (· = '/')
  (splitAt '/' trimmed).map String.ofList

/-- The call a method and the rest of the path ask for; `none` is a 404. -/
def getCall (s : Scope) (session : String) : List String → Option GuestCall
  | [] => some (s.call .pageView session [])
  | ["camera", resourceId] =>
      if Pages.pageIdRe resourceId then
        some (s.call .camera session [("resource_id", .str resourceId)])
      else none
  | _ => none

/-- The same for a `POST` with a payload. -/
def postCall (s : Scope) (session : String) (fields : List (String × Json)) (tail : List String) :
    Option GuestCall :=
  match tail, fields with
  | ["verification", "send"], [("replace", .bool replace)] =>
      some (s.call .verificationChallenge session [("replace", .bool replace)])
  | ["verification", "verify"], [("code", code)] =>
      some (s.call .verificationVerify session [("code", code)])
  | [resourceId, actionId], fields =>
      if Pages.pageIdRe resourceId = true ∧ Pages.pageIdRe actionId = true then
        some (s.call .action session
          [("resource_id", .str resourceId), ("action_id", .str actionId),
            ("parameters", .obj (fields.filter (·.1 ≠ "proximity"))),
            ("proximity", Json.getD fields "proximity" .null)])
      else none
  | _, _ => none

/-- A request of a session. -/
def sessionRequest (timing : Option RequestTiming) (r : ServiceRequest) (s : Scope)
    (session : String) : ServiceM Response :=
  let api := ("api/access/" ++ s.pageId).toList
  if r.method = "GET" ∧ (s.suffix = [] ∨ "static/".toList <+: s.suffix) then
    showDocument sha256 env timing s session
  else if s.suffix ≠ api ∧ ¬ (api ++ ['/']) <+: s.suffix then pure notFound
  else
    let tail := if s.suffix = api then [] else tailOf (s.suffix.drop api.length)
    if r.method = "GET" then
      match getCall s session tail with
      | none => pure notFound
      | some c => relay sha256 env timing c
    else if r.headers.get? "X-Guest-Request" ≠ some "1" then
      pure (.error 403 "Invalid guest request" none)
    else match payload r with
      | none => throw .value
      | some fields =>
          match postCall s session fields tail with
          | none => pure notFound
          | some c => relay sha256 env timing c

/-- A request whose page is established. -/
def scopedRequest (timing : Option RequestTiming) (r : ServiceRequest) (query : List Char)
    (s : Scope) : ServiceM Response :=
  let query := parseQs true query
  if query.any (·.1 = "bootstrap") then
    match query with
    | [(_, secret)] =>
        if r.method = "GET" ∧ s.suffix = [] then
          openInvitation sha256 env timing s (cookie r.headers) secret
        else throw .value
    | _ => throw .value
  else if query ≠ [] ∧ ¬ (r.method = "GET" ∧ "api/access/".toList <+: s.suffix ∧
      query.all (·.1 = "frame") = true) then throw .value
  else match cookie r.headers with
    | none => pure (.error 401 "A valid guest session is required" none)
    | some session => sessionRequest sha256 env timing r s session

/-- `_serve_guest`. -/
def serveGuest (timing : Option RequestTiming) (r : ServiceRequest) : ServiceM Response :=
  match urlsplit (selfPath r.target) with
  -- `_guest` has split it before
  | none => pure .closed
  | some (path, query) =>
      if r.method = "GET" ∧ "/static/".toList <+: path ∧ query = [] then
        asset env (String.ofList (path.drop "/static/".length))
      else do
        let healthy ← (liftM env.connector : ServiceM Bool)
        if !healthy then return unavailable 503
        else match scopeOf r.headers path with
          | .error refusal => return refusal
          | .ok s => scopedRequest sha256 env timing r query s

/-- `_guest_scoped`: what an exception is answered with. -/
def ServiceExc.response : ServiceExc → Response
  | deadline => .error 503 (publicError (some "action_deadline") "") none
  | reset => .closed
  | timeout => unavailable 503
  | value => .error 400 "Invalid guest request" none
  | other => unavailable 503

/-- `do_GET` and `do_POST` with `_guest`; there are no other methods. -/
def guest (r : ServiceRequest) : Prog Op Op.Ans Response :=
  if r.method ≠ "GET" ∧ r.method ≠ "POST" then pure (.error 501 "Guest request denied" none)
  else if r.method = "GET" ∧ selfPath r.target = "/health".toList then pure .health
  else if r.method = "GET" ∧ selfPath r.target = "/broker-health".toList then
    pure (if env.brokerHealthy then .health else .error 503 "Guest request denied" none)
  else match urlsplit (selfPath r.target) with
    -- nothing catches the `ValueError` here
    | none => pure .closed
    | some (path, query) =>
        let operation := guestOperation r.method path ((parseQs false query).any (·.1 = "bootstrap"))
        match timingFromHeaders r.headers operation (operation = .action) false env.clockNs with
        | none => pure (.error 400 "Invalid request timing" none)
        | some timing =>
            if !env.slot then pure (unavailable 503)
            else if timing.any (·.actionDeadline) = true ∧ env.late = true then
              pure ServiceExc.deadline.response
            else do
              match ← (serveGuest sha256 env timing r).run with
              | .ok response => return response
              | .error e => return e.response

end Ask

end Guest

end AccessPages
