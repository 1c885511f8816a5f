import AccessPages.Common.Table
import AccessPages.Common.Python
/-!
# Sessions — the verification store

`verification.py`: the SQLite database of guest sessions, one-time-code
challenges and verifications. Every method that writes is one
transaction, modelled as a function from the database to its outcome and
the database it leaves; what the method draws at random is an argument.
A method that raises leaves the database as it was, with one exception:
`verify_guest_challenge` commits the attempt it has counted before it
raises over a wrong code.

Times are integers in microseconds, the resolution of a `datetime`, and
`timestamp` takes the whole seconds the store records. The digest is a
parameter.
-/

namespace AccessPages

namespace Sessions

/-! ## Tables -/

/-- A row of `challenges`, which only older versions wrote. -/
structure Challenge where
  pageId : String
  grantId : String
  codeHash : String
  expiresAt : Int
  attempts : Nat
  sentAt : Int
  deriving DecidableEq, Repr

/-- A row of `guest_sessions`, and of the older `sessions`. -/
structure GuestSession where
  tokenHash : String
  pageId : String
  grantId : String
  expiresAt : Int
  deriving DecidableEq, Repr

/-- A row of `guest_session_grants`. -/
structure GuestSessionGrant where
  tokenHash : String
  grantHash : String
  deriving DecidableEq, Repr

/-- A row of `guest_challenges`. -/
structure GuestChallenge where
  tokenHash : String
  pageId : String
  grantId : String
  challengeId : String
  codeHash : String
  expiresAt : Int
  attempts : Nat
  sentAt : Int
  deriving DecidableEq, Repr

/-- A row of `guest_verifications`. -/
structure GuestVerification where
  tokenHash : String
  pageId : String
  grantId : String
  expiresAt : Int
  deriving DecidableEq, Repr

/-- A row of `consumed_bootstraps`. -/
structure ConsumedBootstrap where
  tokenHash : String
  pageId : String
  grantId : String
  deriving DecidableEq, Repr

/-- The schema. There are no foreign keys. -/
structure Database where
  challenges : Table Challenge fun r => (r.pageId, r.grantId)
  sessions : Table GuestSession GuestSession.tokenHash
  consumedBootstraps : Table ConsumedBootstrap ConsumedBootstrap.tokenHash
  guestSessions : Table GuestSession GuestSession.tokenHash
  guestSessionGrants : Table GuestSessionGrant GuestSessionGrant.tokenHash
  guestChallenges : Table GuestChallenge GuestChallenge.tokenHash
  guestVerifications : Table GuestVerification GuestVerification.tokenHash

/-- What `CREATE TABLE IF NOT EXISTS` leaves on a new file. -/
def Database.empty : Database :=
  ⟨.empty, .empty, .empty, .empty, .empty, .empty, .empty⟩

/-- What a method raises: a `ValueError` with its text, or the
`sqlite3.IntegrityError` of a primary key that is taken. -/
inductive StoreError where
  | valueError (message : String)
  | integrityError
  deriving DecidableEq, Repr

def invitationInvalid : StoreError :=
  .valueError "The invitation is invalid or already consumed"

def sessionInvalid : StoreError := .valueError "Guest session is invalid"

def waitForCode : StoreError :=
  .valueError "Wait 60 seconds before requesting another code"

def codeInvalid : StoreError :=
  .valueError "The verification code is invalid or expired"

variable (sha256 : String → String)

/-! ## Reads -/

/-- The row of `guest_sessions` under a token hash, bound to the page and
the grant and not expired. -/
def liveSession (db : Database) (key pageId grantId : String) (now : Int) :
    Option GuestSession :=
  (db.guestSessions.find? key).filter fun s =>
    s.pageId = pageId ∧ s.grantId = grantId ∧ now < s.expiresAt

/-- `guest_session_info`: the bound grant, the stored expiry and the grant
hash of a live cookie. The join reads both tables. -/
def guestSessionInfo (db : Database) (now : Instant) (token pageId : String) :
    Option (String × Int × String) :=
  if token = "" then none
  else do
    let s ← db.guestSessions.find? (sha256 token)
    let g ← db.guestSessionGrants.find? (sha256 token)
    if s.pageId = pageId ∧ timestamp now < s.expiresAt then
      some (s.grantId, s.expiresAt, g.grantHash)
    else none

/-- `guest_verified_until`. -/
def guestVerifiedUntil (db : Database) (now : Instant) (token pageId grantId : String) :
    Option Int := do
  let v ← db.guestVerifications.find? (sha256 token)
  if v.pageId = pageId ∧ v.grantId = grantId ∧ timestamp now < v.expiresAt then
    some v.expiresAt
  else none

/-! ## Transactions -/

/-- A transaction whose exception rolls everything back. -/
def transaction {α : Type} (db : Database) (body : Except StoreError (α × Database)) :
    Except StoreError α × Database :=
  match body with
  | .ok (a, db') => (.ok a, db')
  | .error e => (.error e, db)

/-- `INSERT`, raising the integrity error. -/
def insertRow {α κ : Type} {key : α → κ} [DecidableEq κ] (t : Table α key) (r : α)
    (error : StoreError) : Except StoreError (Table α key) :=
  (t.insert r).elim (.error error) .ok

/-- The marker of a single-use invitation. Reusable grants ignore it: older
versions consumed reusable invitations too. -/
def markConsumed (db : Database) (row : ConsumedBootstrap) (oneTimeUse : Bool) :
    Except StoreError (Table ConsumedBootstrap ConsumedBootstrap.tokenHash) :=
  if oneTimeUse then insertRow db.consumedBootstraps row invitationInvalid
  else .ok db.consumedBootstraps

/-- `consume_bootstrap`, with the token it draws. -/
def consumeBootstrap (db : Database) (now : Instant) (token : String)
    (pageId grantId secret expectedHash : String) (grantExpires : Instant)
    (oneTimeUse : Bool) : Except StoreError (String × Int) × Database :=
  let actual := sha256 secret
  if secret = "" ∨ actual ≠ expectedHash then (.error invitationInvalid, db)
  else transaction db do
    let expires := timestamp grantExpires
    if expires ≤ timestamp now then .error invitationInvalid
    let consumed ← markConsumed db ⟨actual, pageId, grantId⟩ oneTimeUse
    let sessions ←
      insertRow db.guestSessions ⟨sha256 token, pageId, grantId, expires⟩ .integrityError
    let grants ← insertRow db.guestSessionGrants ⟨sha256 token, expectedHash⟩ .integrityError
    .ok ((token, expires), { db with
      consumedBootstraps := consumed
      guestSessions := sessions
      guestSessionGrants := grants })

/-- `f"{n:06d}"`. -/
def codeText (n : Nat) : String :=
  let digits := (toString n).toList
  String.ofList (List.replicate (6 - digits.length) '0' ++ digits)

/-- `issue_guest_challenge`, with the number and the identifier it draws.
`none` is the answer that a usable code is already out. -/
def issueGuestChallenge (db : Database) (clock : Instant) (draw : Nat) (challengeId : String)
    (token pageId grantId : String) (replace : Bool) :
    Except StoreError (Option (String × String)) × Database :=
  let key := sha256 token
  let now := timestamp clock
  let issue : Except StoreError (Option (String × String)) × Database :=
    (.ok (some (codeText draw, challengeId)), { db with
      guestChallenges := db.guestChallenges.insertOrReplace
        ⟨key, pageId, grantId, challengeId, sha256 (codeText draw), now + 600, 0, now⟩ })
  match liveSession db key pageId grantId now with
  | none => (.error sessionInvalid, db)
  | some _ =>
    match db.guestChallenges.find? key with
    | none => issue
    | some current =>
      if now < current.expiresAt ∧ current.attempts < 5 ∧ !replace then (.ok none, db)
      else if now - current.sentAt < 60 then (.error waitForCode, db)
      else issue

/-- `cancel_guest_challenge`. -/
def cancelGuestChallenge (db : Database) (token challengeId : String) : Database :=
  { db with guestChallenges := db.guestChallenges.deleteWhere fun r =>
      r.tokenHash = sha256 token ∧ r.challengeId = challengeId }

/-- `UPDATE guest_challenges SET attempts=attempts+1 WHERE token_hash=?`. -/
def countAttempt (t : Table GuestChallenge GuestChallenge.tokenHash) (key : String) :
    Table GuestChallenge GuestChallenge.tokenHash :=
  t.updateWhere (fun r => r.tokenHash = key) (fun r => { r with attempts := r.attempts + 1 })
    fun _ => rfl

/-- The challenge `verify_guest_challenge` will compare against: the
session is live, the challenge is bound to it, neither expired nor
exhausted, and the grant has not expired. -/
def openChallenge (db : Database) (key pageId grantId : String) (now grantExpiry : Int) :
    Option (GuestSession × GuestChallenge) := do
  let session ← liveSession db key pageId grantId now
  let row ← (db.guestChallenges.find? key).filter fun r =>
    r.pageId = pageId ∧ r.grantId = grantId
  if row.expiresAt ≤ now ∨ 5 ≤ row.attempts ∨ grantExpiry ≤ now then none
  else some (session, row)

/-- `verify_guest_challenge`. -/
def verifyGuestChallenge (db : Database) (clock : Instant) (token pageId grantId code : String)
    (grantExpiry : Int) : Except StoreError Int × Database :=
  let key := sha256 token
  let now := timestamp clock
  match openChallenge db key pageId grantId now grantExpiry with
  | none => (.error codeInvalid, db)
  | some (session, row) =>
    let counted := countAttempt db.guestChallenges key
    if row.codeHash ≠ sha256 code then
      -- committed before the exception, so the attempt stays counted
      (.error codeInvalid, { db with guestChallenges := counted })
    else
      let expires := min (now + 12 * 3600) (min session.expiresAt grantExpiry)
      (.ok expires, { db with
        guestChallenges := counted.deleteWhere fun r => r.tokenHash = key
        guestVerifications :=
          db.guestVerifications.insertOrReplace ⟨key, pageId, grantId, expires⟩ })

/-- `revoke`. The grant hashes go by what is left of the sessions; the
consumed bootstraps stay. -/
def revoke (db : Database) (pageId grantId : String) : Database :=
  let left := db.guestSessions.deleteWhere fun r => r.pageId = pageId ∧ r.grantId = grantId
  { db with
    challenges := db.challenges.deleteWhere fun r => r.pageId = pageId ∧ r.grantId = grantId
    guestSessions := left
    guestSessionGrants := db.guestSessionGrants.deleteWhere fun r =>
      r.tokenHash ∉ left.rows.map GuestSession.tokenHash
    guestChallenges := db.guestChallenges.deleteWhere fun r =>
      r.pageId = pageId ∧ r.grantId = grantId
    guestVerifications := db.guestVerifications.deleteWhere fun r =>
      r.pageId = pageId ∧ r.grantId = grantId
    sessions := db.sessions.deleteWhere fun r => r.pageId = pageId ∧ r.grantId = grantId }

/-! ## Runs -/

/-- One transaction of any caller, with its clock reading and what it
draws. -/
inductive Txn where
  | consumeBootstrap (now : Instant) (token pageId grantId secret expectedHash : String)
      (grantExpires : Instant) (oneTimeUse : Bool)
  | issueGuestChallenge (now : Instant) (draw : Nat) (challengeId token pageId grantId : String)
      (replace : Bool)
  | cancelGuestChallenge (token challengeId : String)
  | verifyGuestChallenge (now : Instant) (token pageId grantId code : String)
      (grantExpiry : Int)
  | revoke (pageId grantId : String)
  deriving DecidableEq, Repr

/-- The database a transaction leaves, whatever its outcome. -/
def Txn.apply (db : Database) : Txn → Database
  | .consumeBootstrap now token pageId grantId secret expectedHash grantExpires oneTimeUse =>
      (Sessions.consumeBootstrap sha256 db now token pageId grantId secret expectedHash
        grantExpires oneTimeUse).2
  | .issueGuestChallenge now draw challengeId token pageId grantId replace =>
      (Sessions.issueGuestChallenge sha256 db now draw challengeId token pageId grantId
        replace).2
  | .cancelGuestChallenge token challengeId =>
      Sessions.cancelGuestChallenge sha256 db token challengeId
  | .verifyGuestChallenge now token pageId grantId code grantExpiry =>
      (Sessions.verifyGuestChallenge sha256 db now token pageId grantId code grantExpiry).2
  | .revoke pageId grantId => Sessions.revoke db pageId grantId

/-- The database after a run of transactions, in the order they commit. -/
def runFrom (db : Database) (txns : List Txn) : Database := txns.foldl (Txn.apply sha256) db

@[simp] theorem runFrom_nil {db : Database} : runFrom sha256 db [] = db := rfl

@[simp] theorem runFrom_cons {db : Database} {t : Txn} {txns : List Txn} :
    runFrom sha256 db (t :: txns) = runFrom sha256 (t.apply sha256 db) txns := rfl

theorem runFrom_append {db : Database} {s t : List Txn} :
    runFrom sha256 db (s ++ t) = runFrom sha256 (runFrom sha256 db s) t := List.foldl_append

/-- What every transaction preserves, a run preserves. -/
theorem runFrom_invariant {I : Database → Prop} (step : ∀ db (t : Txn), I db → I (t.apply sha256 db))
    {db : Database} (h : I db) (txns : List Txn) : I (runFrom sha256 db txns) := by
  induction txns generalizing db with
  | nil => exact h
  | cons t txns ih => exact ih (step db t h)

end Sessions

end AccessPages
