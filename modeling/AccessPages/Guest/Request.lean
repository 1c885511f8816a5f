import AccessPages.Common.Http
import AccessPages.Common.Python
/-!
# Guest — the lifetime of a request

`guest_request.py`, shared by the guest service and the broker: which
operation a path asks for, and the headers that carry the moment the
endpoint received the request.
-/

namespace AccessPages

namespace Guest

/-- `OPERATIONS`. -/
inductive Operation where
  | bootstrap
  | document
  | asset
  | state
  | camera
  | verification
  | action
  | other
  deriving DecidableEq, Repr

namespace Operation

def name : Operation → String
  | bootstrap => "bootstrap"
  | document => "document"
  | asset => "asset"
  | state => "state"
  | camera => "camera"
  | verification => "verification"
  | action => "action"
  | other => "other"

def ofName? (s : String) : Option Operation :=
  [bootstrap, document, asset, state, camera, verification, action, other].find? (·.name = s)

end Operation

/-- `guest_operation`; `guestOperation` of the endpoint is the same. -/
def guestOperation (method : String) (path : List Char) (bootstrap : Bool) : Operation :=
  let parts := (splitAt '/' path).map String.ofList
  let n := parts.length
  let part := fun i => parts.getD i ""
  if method = "GET" ∧ ((n = 3 ∧ part 1 = "static") ∨
      (n = 6 ∧ part 1 = "g" ∧ part 4 = "static")) then .asset
  else if n < 5 ∨ part 1 ≠ "g" then .other
  else if n = 5 ∧ part 4 = "" then if bootstrap then .bootstrap else .document
  else if method = "GET" ∧ n = 7 ∧ part 4 = "api" ∧ part 5 = "access" then .state
  else if n = 9 ∧ part 4 = "api" ∧ part 5 = "access" then
    if method = "GET" ∧ part 7 = "camera" then .camera
    else if method = "POST" then
      -- only the payload tells a verification from an action that was saved under its name
      if part 7 = "verification" ∧ (part 8 = "send" ∨ part 8 = "verify") then .other else .action
    else .other
  else .other

/-- `REQUEST_ID`. -/
def requestIdHeader : String := "X-Access-Pages-Request-ID"

/-- `STARTED_NS`. -/
def startedHeader : String := "X-Access-Pages-Started-Ns"

/-- `OPERATION`. -/
def operationHeader : String := "X-Access-Pages-Operation"

/-- `RequestTiming`, as far as it decides anything. -/
structure RequestTiming where
  requestId : String
  startedNs : Nat
  operation : Operation
  actionDeadline : Bool
  deriving DecidableEq, Repr

/-- `timing.headers()`. -/
def RequestTiming.headers (t : RequestTiming) : Headers :=
  [(requestIdHeader, t.requestId), (startedHeader, toString t.startedNs),
    (operationHeader, t.operation.name)]

/-- `[a-f0-9]`. -/
def isHexDigit (c : Char) : Bool := ('a' ≤ c && c ≤ 'f') || c.isDigit

/-- The number some digits are. -/
def natOfDigits (digits : List Char) : Nat :=
  digits.foldl (fun n c => 10 * n + (c.toNat - '0'.toNat)) 0

/-- `timing_from_headers`, when the clock shows `now`. Inside is `none`
where no timing came, outside it is the `ValueError`. -/
def timingFromHeaders (headers : Headers) (operation : Operation) (required internalRpc : Bool)
    (now : Int) : Option (Option RequestTiming) :=
  match headers.getAll requestIdHeader, headers.getAll startedHeader with
  | [], [] => if required then none else some none
  | [requestId], [started] =>
      if matchesClass isHexDigit 32 32 requestId.toList = true ∧
          matchesClass Char.isDigit 1 19 started.toList = true ∧
          0 < natOfDigits started.toList ∧ (natOfDigits started.toList : Int) ≤ now then
        some (some {
          requestId
          startedNs := natOfDigits started.toList
          operation := if internalRpc = true ∧ operation ≠ .action then reported else operation
          actionDeadline := operation = .action })
      else none
  | _, _ => none
where
  /-- What the caller says it is for; only diagnostics read it. -/
  reported : Operation :=
    match headers.getAll operationHeader with
    | [text] => (Operation.ofName? text).getD .other
    | _ => .other

end Guest

end AccessPages
