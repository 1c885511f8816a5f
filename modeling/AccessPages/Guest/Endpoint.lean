import AccessPages.Guest.Service
/-!
# Guest — the public endpoint of a page

`cmd/guest-endpoint/main.go`: one process for each page, the only one
guests reach. It lets through the paths of its own page, drops every
header the processes behind it trust, and puts the page and its
capability in their place.
-/

namespace AccessPages

namespace Guest

open Broker (Op)

/-- The process: its page and the capability it was started with. -/
structure Endpoint where
  pageId : String
  capability : String

/-- A request as `net/http` hands it over: `path` is decoded, and `rawPath`
set when its encoding was not the usual one. -/
structure Request where
  method : String
  path : String
  rawPath : String
  isAbs : Bool
  rawQuery : String
  host : String
  headers : Headers
  contentLength : Int
  body : Option (List (String × Json))

/-- The fields the transport writes for itself. -/
inductive TransportField where
  | host
  | connectionClose
  | contentLength (n : Nat)
  | chunked
  | acceptEncoding
  | upgrade (protocol : String)
  | trailers

def TransportField.field : TransportField → String × String
  | host => ("Host", "guest-service")
  | connectionClose => ("Connection", "close")
  | contentLength n => ("Content-Length", toString n)
  | chunked => ("Transfer-Encoding", "chunked")
  | acceptEncoding => ("Accept-Encoding", "gzip")
  | upgrade protocol => ("Upgrade", protocol)
  | trailers => ("Te", "trailers")

/-- Why the proxy had no answer. -/
inductive ProxyError where
  | deadlineExceeded
  | badGateway

/-- What the process meets: its clock and slots, and how the proxy fares. -/
structure EndpointEnv where
  requestId : String
  started : Option Nat
  slot : Bool
  bootstrapQuery : Bool
  overdue : Bool
  transport : List TransportField
  proxyError : Option ProxyError
  service : Env

/-! ## Paths -/

/-- `staticPaths`. -/
def staticPaths : List String :=
  ["/static/access.css", "/static/access.js", "/static/access-api.js",
    "/static/home-assistant.png", "/static/access-pages-mark.png",
    "/static/access-pages-wordmark.png", "/static/guest-access-lockup.png",
    "/static/guest-access-mark-transparent.png", "/static/layerv.png",
    "/static/layerv-wordmark.png"]

/-- What may follow the grant in a path. -/
def allowedSuffix (pageId : String) (parts : List String) : Bool :=
  let suffix := String.ofList (joinWith '/' (parts.map String.toList))
  suffix = "" || staticPaths.contains ("/" ++ suffix) || suffix = "api/access/" ++ pageId ||
    match parts with
    | ["api", "access", page, kind, name] =>
        page = pageId &&
          if kind = "camera" then Pages.pageIdRe name
          else if kind = "verification" then name = "send" || name = "verify"
          else Pages.pageIdRe kind && Pages.pageIdRe name
    | _ => false

/-- `allowedGuestServicePath`. -/
def allowedGuestServicePath (pageId path : String) : Bool :=
  staticPaths.contains path ||
    let root := ("/g/" ++ pageId ++ "/").toList
    root.isPrefixOf path.toList && !path.toList.contains '%' && !path.toList.contains '\\' &&
      path.toList.all (fun c => c.toNat ≤ 127) &&
      match (splitAt '/' (path.toList.drop root.length)).map String.ofList with
      | grant :: part :: parts => Pages.grantIdRe grant && allowedSuffix pageId (part :: parts)
      | _ => false

/-- What `EscapedPath` leaves as it is. -/
def unescaped (c : Char) : Bool :=
  c.isAlphanum || "-_.~$&+,/:;=@".toList.contains c

/-- `EscapedPath`. -/
def escapePath (path : String) : List Char :=
  path.toList.flatMap fun c =>
    if unescaped c then [c]
    else (String.singleton c).toUTF8.toList.flatMap fun b =>
      '%' :: (Json.hex 2 b.toNat).toUpper.toList

/-- `RequestURI`. -/
def requestUri (r : Request) : List Char :=
  escapePath r.path ++ if r.rawQuery = "" then [] else '?' :: r.rawQuery.toList

/-! ## Headers -/

/-- A header the processes behind the endpoint trust. -/
def reservedHeader (name : String) : Bool :=
  let lower := lowerName name
  ["x-admin-", "x-ingress-", "x-page-", "x-access-pages-", "x-broker-", "x-ha-", "x-internal-",
      "x-guest-service-", "x-policy-", "x-forwarded-"].any
    (fun reserved => reserved.toList.isPrefixOf lower.toList) ||
  ["forwarded", "proxy-authorization", "authorization", "x-real-ip"].contains lower

/-- The headers as the endpoint rewrites them. -/
def rewriteHeaders (e : Endpoint) (requestId : String) (started : Nat) (h : Headers) : Headers :=
  let kept : Headers := h.filter fun f => !reservedHeader f.1
  (((kept.set "X-Access-Pages-Page-ID" e.pageId).set "X-Page-Capability" e.capability).set
    requestIdHeader requestId).set startedHeader (toString started)

/-- The names a `Connection` header gives up to the next hop. -/
def connectionNames (h : Headers) : List String :=
  (h.getAll "Connection").flatMap fun value =>
    (splitAt ',' value.toList).map fun part => lowerName (strip (String.ofList part))

/-- Headers that do not pass the proxy, or that the transport writes anew. -/
def hopHeaders : List String :=
  ["connection", "proxy-connection", "keep-alive", "proxy-authenticate", "proxy-authorization",
    "te", "trailer", "transfer-encoding", "upgrade", "host", "content-length"]

/-- `ReverseProxy`: what is not meant for this hop goes on. -/
def forward (transport : List TransportField) (h : Headers) : Headers :=
  (h.filter fun f => !hopHeaders.contains (lowerName f.1) &&
    !(connectionNames h).contains (lowerName f.1)) ++ transport.map TransportField.field

/-- The header fields and their bytes, `Host` included. -/
def headerSize (r : Request) : Nat × Nat :=
  (1 + r.headers.length,
    "Host".utf8ByteSize + r.host.utf8ByteSize + 4 +
      (r.headers.map fun f => f.1.utf8ByteSize + f.2.utf8ByteSize + 4).sum)

/-! ## Serving -/

section Serve

variable [Python] [Library] (sha256 : String → String)

/-- What the service is sent. -/
def forwarded (e : Endpoint) (r : Request) (env : EndpointEnv) (started : Nat) : ServiceRequest where
  method := r.method
  target := requestUri r
  headers := forward env.transport (rewriteHeaders e env.requestId started r.headers)
  body := r.body

/-- `ServeHTTP`. -/
def serveHTTP (e : Endpoint) (r : Request) (env : EndpointEnv) : Prog Op Op.Ans Response :=
  if r.path = "/health" then pure .health
  else match env.started with
    | none => pure (.text 503 "guest service unavailable")
    | some started =>
        if 64 < (headerSize r).1 ∨ 32 * 1024 < (headerSize r).2 then
          pure (.text 431 "request headers are too large")
        else if !env.slot then pure (.text 503 "guest service busy")
        else if !allowedGuestServicePath e.pageId r.path ∨ r.rawPath ≠ "" ∨ r.isAbs = true then
          pure (.text 404 "404 page not found")
        else if 512000 < r.contentLength then pure (.text 413 "request body too large")
        else if guestOperation r.method r.path.toList env.bootstrapQuery = .action ∧
            env.overdue = true then
          pure (.text 503 "guest request timed out")
        else match env.proxyError with
          | some .deadlineExceeded => pure (.text 503 "guest service unavailable")
          | some .badGateway => pure (.text 502 "guest service unavailable")
          | none => guest sha256 env.service (forwarded e r env started)

end Serve

end Guest

end AccessPages
