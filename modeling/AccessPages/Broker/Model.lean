import AccessPages.Common.Prog
import AccessPages.HomeAssistant.Model
import AccessPages.Pages.Model
import AccessPages.Sessions.Model
/-!
# Broker — guest sessions

`ha_broker.py`: the broker decides every guest request from four stores
it reads one at a time: the published policy, the administrator's
grants, the session database and Home Assistant. A request is a program
over these reads and transactions. What it meets at each of them is a
`World`; another request or process may have changed anything in between.
-/

namespace AccessPages

namespace Broker

open Pages (Page Grant PageError)

/-! ## What a request asks -/

/-- The exceptions a request can end in. -/
inductive Exc where
  | policy (message : String) (status : Nat) (retryAfter : Option Int)
  | value (message : String)
  | homeAssistant (e : HomeAssistant.HomeAssistantError)
  | python (e : PyError)
  | os
  | sqlite
  | deadline
  deriving DecidableEq, Repr

/-- What the broker reports to the administrator's gateway. -/
inductive GuestEvent where
  | initialAccess
  | verificationCodeSent
  | verificationFailed
  | guestEmailVerified
  | actionRateLimited
  | unapprovedActionAttempt (reason : String)
  | actionFailed (resourceId actionId entityId entityName : String)
      (parameters : List (String × Json))
  | actionSuccess (resourceId actionId entityId entityName : String)
      (parameters : List (String × Json))

/-- One read, transaction or call. -/
inductive Op where
  | loadPolicy (pageId : String)
  | loadGrants (pageId : String)
  | time
  | allowSession (key : String)
  | allowAction (key : String)
  | consumeBootstrap (pageId grantId secret expectedHash : String) (grantExpires : Instant)
      (oneTimeUse : Bool)
  | sessionInfo (session pageId : String)
  | verifiedUntil (session pageId grantId : String)
  | issueChallenge (session pageId grantId : String) (replace : Bool)
  | cancelChallenge (session challengeId : String)
  | verifyChallenge (session pageId grantId code : String) (grantExpiry : Int)
  | revoke (pageId grantId : String)
  | sendEmail (pageId grantId code : String)
  | emit (pageId grantId : String) (event : GuestEvent)
  | get (path : String)
  | cameraImage (entityId : String)
  | checkRefresh (key : String) (interval : Int)
  | allowCamera (key : String)
  | registry
  | actionRemaining
  | callService (domain service entityId : String) (data : List (String × Json)) (deadline : Int)

def Op.Res : Op → Type
  | loadPolicy _ => Except PageError Page
  | loadGrants _ => Except PageError Page
  | time => Instant
  | allowSession _ => Bool
  | allowAction _ => Bool
  | consumeBootstrap .. => Except Sessions.StoreError (String × Int)
  | sessionInfo .. => Option (String × Int × String)
  | verifiedUntil .. => Option Int
  | issueChallenge .. => Except Sessions.StoreError (Option (String × String))
  | cancelChallenge .. => Unit
  | verifyChallenge .. => Except Sessions.StoreError Int
  | revoke .. => Unit
  | sendEmail .. => Bool
  | emit .. => Unit
  | get _ => Except HomeAssistant.HomeAssistantError Json
  | cameraImage _ => Except HomeAssistant.HomeAssistantError (List UInt8 × String)
  | checkRefresh .. => Bool × Int
  | allowCamera _ => Bool
  | registry => Option Json
  | actionRemaining => Bool
  | callService .. => Except HomeAssistant.HomeAssistantError Unit

/-- Any of them may raise. -/
abbrev Op.Ans (e : Op) : Type := Except Exc e.Res

/-- What one operation meets: the stores, the clock, what would be drawn at
random, and how the services outside would answer. -/
structure World where
  policy : String → Except PageError Page
  grants : String → Except PageError Page
  db : Sessions.Database
  clock : Instant
  token : String
  draw : Nat
  challengeId : String
  allows : String → Bool
  delivers : Bool
  inTime : Bool
  homeAssistant : String → Except HomeAssistant.HomeAssistantError Json
  camera : String → Except HomeAssistant.HomeAssistantError (List UInt8 × String)
  refresh : String → Int → Bool × Int
  capabilities : Option Json
  accepts : Except HomeAssistant.HomeAssistantError Unit
  fault : Option Exc

section Step

variable (sha256 : String → String)

/-- The transaction an operation is, if it writes to the session store. -/
def Op.txn (w : World) : Op → Option Sessions.Txn
  | consumeBootstrap pageId grantId secret expectedHash grantExpires oneTimeUse =>
      some (.consumeBootstrap w.clock w.token pageId grantId secret expectedHash grantExpires
        oneTimeUse)
  | issueChallenge session pageId grantId replace =>
      some (.issueGuestChallenge w.clock w.draw w.challengeId session pageId grantId replace)
  | cancelChallenge session challengeId => some (.cancelGuestChallenge session challengeId)
  | verifyChallenge session pageId grantId code grantExpiry =>
      some (.verifyGuestChallenge w.clock session pageId grantId code grantExpiry)
  | revoke pageId grantId => some (.revoke pageId grantId)
  | _ => none

/-- What an operation that does not raise answers. -/
def Op.result (w : World) : (e : Op) → e.Res
  | loadPolicy pageId => w.policy pageId
  | loadGrants pageId => w.grants pageId
  | time => w.clock
  | allowSession key => w.allows key
  | allowAction key => w.allows key
  | consumeBootstrap pageId grantId secret expectedHash grantExpires oneTimeUse =>
      (Sessions.consumeBootstrap sha256 w.db w.clock w.token pageId grantId secret expectedHash
        grantExpires oneTimeUse).1
  | sessionInfo session pageId => Sessions.guestSessionInfo sha256 w.db w.clock session pageId
  | verifiedUntil session pageId grantId =>
      Sessions.guestVerifiedUntil sha256 w.db w.clock session pageId grantId
  | issueChallenge session pageId grantId replace =>
      (Sessions.issueGuestChallenge sha256 w.db w.clock w.draw w.challengeId session pageId grantId
        replace).1
  | cancelChallenge _ _ => ()
  | verifyChallenge session pageId grantId code grantExpiry =>
      (Sessions.verifyGuestChallenge sha256 w.db w.clock session pageId grantId code grantExpiry).1
  | revoke _ _ => ()
  | sendEmail _ _ _ => w.delivers
  | emit _ _ _ => ()
  | get path => w.homeAssistant path
  | cameraImage entityId => w.camera entityId
  | checkRefresh key interval => w.refresh key interval
  | allowCamera key => w.allows key
  | registry => w.capabilities
  | actionRemaining => w.inTime
  | callService .. => w.accepts

/-- One operation: it raises and changes nothing, or it is carried out. -/
def Op.step (e : Op) (w : World) : e.Ans × World :=
  match w.fault with
  | some x => (.error x, w)
  | none => (.ok (e.result sha256 w),
      { w with db := ((e.txn w).map (Sessions.Txn.apply sha256 w.db)).getD w.db })

/-- The answer alone. -/
def Op.answer (e : Op) (w : World) : e.Ans := (e.step sha256 w).1

end Step

/-- A request. -/
abbrev BrokerM := ExceptT Exc (Prog Op Op.Ans)

/-- Ask for one operation. -/
def ask (e : Op) : BrokerM e.Res := ExceptT.mk (Prog.call e)

/-- `time.time()`. -/
def time : BrokerM Instant := ask .time

/-- `GUEST_SESSION_STORE.revoke`. -/
def revoke (pageId grantId : String) : BrokerM Unit := ask (.revoke pageId grantId)

/-- `_emit_guest_event`. -/
def emitGuestEvent (pageId grantId : String) (event : GuestEvent) : BrokerM Unit :=
  ask (.emit pageId grantId event)

/-! ## Sessions -/

section Sessions

variable [Python] (sha256 : String → String)

/-- The expiry of a grant, in whole seconds. -/
def grantExpiry (g : Grant) : Except Exc Int :=
  match Pages.awareTime g.expiresAt with
  | some t => .ok (timestamp t)
  | none => .error (.value "Invalid isoformat string")

/-- `_current_guest_grant`. -/
def currentGuestGrant (pageId grantId : String) : BrokerM (Option (Grant × Int)) := do
  match ← ask (.loadGrants pageId) with
  | .error (.python e) => throw (.python e)
  | .error _ => return none
  | .ok page =>
      match page.accessGrants.find? (·.id = grantId) with
      | none => return none
      | some grant => do
          let expiry ← (liftM (grantExpiry grant) : BrokerM Int)
          let now ← time
          if expiry * second ≤ now then return none else return some (grant, expiry)

inductive SessionState where
  | sessionReady
  | verificationRequired
  deriving DecidableEq, Repr

structure SessionResult where
  pageId : String
  grantId : String
  expiresAt : Int
  status : SessionState
  deriving DecidableEq, Repr

/-- `_guest_session_result`. A stored expiry of zero is false to Python. -/
def guestSessionResult (pageId grantId : String) (expiry : Int) (grant : Grant)
    (session : String) : BrokerM SessionResult := do
  if grant.verificationRequired then do
    let verified ← ask (.verifiedUntil session pageId grantId)
    match verified.filter (· ≠ 0) with
    | none => return ⟨pageId, grantId, expiry, .verificationRequired⟩
    | some v => return ⟨pageId, grantId, min expiry v, .sessionReady⟩
  else return ⟨pageId, grantId, expiry, .sessionReady⟩

/-- `_exchange_guest_bootstrap`. -/
def exchangeGuestBootstrap (pageId grantId bootstrap : String) :
    BrokerM (Option (SessionResult × String)) := do
  match ← currentGuestGrant pageId grantId with
  | none => return none
  | some (grant, expiry) =>
      -- guesses are rejected before anything is charged or opened
      if bootstrap = "" ∨ sha256 bootstrap ≠ grant.tokenHash then return none
      else if !(← ask (.allowSession (pageId ++ ":" ++ grantId))) then
        throw (.policy "Too many new guest sessions" 429 (some 60))
      else do
        match fromTimestamp expiry with
        | none => return none
        | some expires => do
            match ← ask (.consumeBootstrap pageId grantId bootstrap grant.tokenHash expires
                grant.oneTimeUse) with
            | .error (.valueError _) => return none
            | .error .integrityError => throw .sqlite
            | .ok (session, storedExpiry) => confirm grant session storedExpiry
where
  /-- The grant is read again now that the session is open. -/
  confirm (grant : Grant) (session : String) (storedExpiry : Int) :
      BrokerM (Option (SessionResult × String)) := do
    match ← currentGuestGrant pageId grantId with
    | none => revoked
    | some (current, currentExpiry) =>
        if current.tokenHash ≠ grant.tokenHash then revoked
        else do
          let result ← guestSessionResult pageId grantId (min storedExpiry currentExpiry) current
            session
          return some (result, session)
  /-- The grant went away while the session was opened. -/
  revoked : BrokerM (Option (SessionResult × String)) := do
    revoke pageId grantId
    return none

/-- `_guest_session_status`. -/
def guestSessionStatus (pageId grantId session : String) : BrokerM (Option SessionResult) := do
  match ← ask (.sessionInfo session pageId) with
  | none => return none
  | some (boundGrant, storedExpiry, grantHash) =>
      if boundGrant ≠ grantId then return none
      else do
        match ← currentGuestGrant pageId grantId with
        | none => return none
        | some (grant, currentExpiry) =>
            if grantHash ≠ grant.tokenHash then return none
            else do
              let expiry := min storedExpiry currentExpiry
              let now ← time
              if expiry * second ≤ now then return none
              else return some (← guestSessionResult pageId grantId expiry grant session)

/-- `_resume_guest_bootstrap`. `re.fullmatch` takes only a text. -/
def resumeGuestBootstrap (pageId grantId session : String) (bootstrap : Json) :
    BrokerM (Option SessionResult) := do
  let status ← guestSessionStatus pageId grantId session
  let current ← currentGuestGrant pageId grantId
  match status, current, bootstrap with
  | some status, some (grant, _), .str bootstrap =>
      if matchesClass Pages.isTokenChar 43 43 bootstrap.toList = true ∧
          sha256 bootstrap = grant.tokenHash then
        return some status
      else return none
  | some _, some _, _ => throw (.python .typeError)
  | _, _, _ => return none

/-- `_verified_guest_context`. -/
def verifiedGuestContext (pageId grantId session : String) : BrokerM (Option Int) := do
  let status ← guestSessionStatus pageId grantId session
  let current ← currentGuestGrant pageId grantId
  match status, current with
  | some _, some (grant, expiry) =>
      return if grant.verificationRequired then some expiry else none
  | _, _ => return none

/-- What a method of the session store raises. -/
def storeExc : Sessions.StoreError → Exc
  | .valueError message => .value message
  | .integrityError => .sqlite

/-- `_request_guest_verification`: whether a code was sent; one is pending
either way. -/
def requestGuestVerification (pageId grantId session : String) (replace : Bool) :
    BrokerM (Option Bool) := do
  match ← verifiedGuestContext pageId grantId session with
  | none => return none
  | some _ => do
      match ← ask (.issueChallenge session pageId grantId replace) with
      | .error e => throw (storeExc e)
      | .ok none => return some false
      | .ok (some (code, challengeId)) => do
          tryCatch (deliver code) fun e => do
            if e = .os then ask (.cancelChallenge session challengeId) else return ()
            throw e
          emitGuestEvent pageId grantId .verificationCodeSent
          return some true
where
  /-- The mail, and whether the grant is still as it was. -/
  deliver (code : String) : BrokerM Unit := do
    let delivered : Bool ← ask (.sendEmail pageId grantId code)
    if delivered then
      match ← verifiedGuestContext pageId grantId session with
      | none => throw .os
      | some _ => return ()
    else throw .os

/-- `_verify_guest_code`. -/
def verifyGuestCode (pageId grantId session code : String) : BrokerM (Option SessionResult) := do
  match ← verifiedGuestContext pageId grantId session with
  | none => return none
  | some grantExpiry =>
      if !matchesClass Python.decimal 6 6 code.toList then do
        emitGuestEvent pageId grantId .verificationFailed
        throw (.value "Invalid verification code")
      else do
        match ← ask (.verifyChallenge session pageId grantId code grantExpiry) with
        | .error e => do
            if storeExc e = .sqlite then throw .sqlite
            else do
              emitGuestEvent pageId grantId .verificationFailed
              throw (storeExc e)
        | .ok _ => do
            emitGuestEvent pageId grantId .guestEmailVerified
            guestSessionStatus pageId grantId session

/-- `/v1/revoke-guest-sessions`. A session of a grant that is still live is
never deleted. -/
def revokeGuestSessions (payload : List (String × Json)) : BrokerM Unit := do
  let keys := payload.map Prod.fst
  match Json.get? payload "page_id", Json.get? payload "grant_id" with
  | some (.str pageId), some (.str grantId) =>
      if (∀ k ∈ keys, k ∈ ["page_id", "grant_id"]) ∧ Pages.pageIdRe pageId = true ∧
          Pages.grantIdRe grantId = true then do
        match ← currentGuestGrant pageId grantId with
        | some _ => throw (.policy "Guest grant remains active" 409 none)
        | none => revoke pageId grantId
      else throw (.policy "Invalid guest session cleanup" 400 none)
  | _, _ => throw (.policy "Invalid guest session cleanup" 400 none)

end Sessions

end Broker

end AccessPages
