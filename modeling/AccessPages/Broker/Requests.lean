import AccessPages.Broker.Model
import AccessPages.Common.Pool
import AccessPages.Sessions.Helpers
/-!
# Broker — requests over one session database

The broker as a system: any number of guest requests and cleanup requests
take turns at the stores, one read or transaction at a time. From outside
anything may change between two of them except the session database,
which only its transactions write, and the clock does not go back. The
database a question meets is the one the questions before it left
(`Traced`), so what every transaction preserves holds in every run.
-/

namespace AccessPages

namespace Broker

/-- The requests that reach the session store. -/
inductive Request where
  | exchange (pageId grantId bootstrap : String)
  | status (pageId grantId session : String)
  | resume (pageId grantId session bootstrap : String)
  | requestVerification (pageId grantId session : String) (replace : Bool)
  | verifyCode (pageId grantId session code : String)
  | revokeSessions (payload : List (String × Json))

/-- What they return. -/
inductive Reply where
  | session (r : Option (SessionResult × String))
  | status (r : Option SessionResult)
  | sent (r : Option Bool)
  | revoked
  deriving DecidableEq, Repr

/-- A change from outside: any other world, later by so much, over the same
database. -/
def World.change (c : World × Nat) (w : World) : World :=
  { c.1 with db := w.db, clock := w.clock + c.2 }

/-- The broker at one moment. -/
abbrev BrokerPool := Pool Request Op Op.Ans (Except Exc Reply) World

section Machine

variable [Python] (sha256 : String → String)

def Request.serve : Request → Prog Op Op.Ans (Except Exc Reply)
  | exchange pageId grantId bootstrap =>
      (Reply.session <$> exchangeGuestBootstrap sha256 pageId grantId bootstrap).run
  | status pageId grantId session =>
      (Reply.status <$> guestSessionStatus pageId grantId session).run
  | resume pageId grantId session bootstrap =>
      (Reply.status <$> resumeGuestBootstrap sha256 pageId grantId session (.str bootstrap)).run
  | requestVerification pageId grantId session replace =>
      (Reply.sent <$> requestGuestVerification pageId grantId session replace).run
  | verifyCode pageId grantId session code =>
      (Reply.status <$> verifyGuestCode pageId grantId session code).run
  | revokeSessions payload => ((fun _ => Reply.revoked) <$> revokeGuestSessions payload).run

/-- The broker. SQLite waits for its own locks, so a question is always
ready. -/
def machine : Machine Request (World × Nat) Op Op.Ans (Except Exc Reply) World where
  serve := Request.serve sha256
  step := Op.step sha256
  ready _ _ := true
  change := World.change

end Machine

/-! ## What a question does to the database -/

section Step

variable {sha256 : String → String}

/-- The transaction that commits when `e` is asked in `w`. -/
def Op.commits (e : Op) (w : World) : Option Sessions.Txn :=
  match w.fault with
  | some _ => none
  | none => e.txn w

theorem step_db (e : Op) (w : World) :
    (e.step sha256 w).2.db = ((e.commits w).map (Sessions.Txn.apply sha256 w.db)).getD w.db := by
  unfold Op.step Op.commits
  cases w.fault <;> rfl

theorem step_clock (e : Op) (w : World) : (e.step sha256 w).2.clock = w.clock := by
  unfold Op.step
  cases w.fault <;> rfl

theorem step_grants (e : Op) (w : World) : (e.step sha256 w).2.grants = w.grants := by
  unfold Op.step
  cases w.fault <;> rfl

theorem step_fault (e : Op) (w : World) : (e.step sha256 w).2.fault = w.fault := by
  unfold Op.step
  cases h : w.fault with
  | none => rfl
  | some x => exact h

theorem answer_eq (e : Op) {w : World} (h : w.fault = none) :
    e.answer sha256 w = .ok (e.result sha256 w) := by
  unfold Op.answer Op.step
  rw [h]

/-- An answer that is not an exception is the operation's result, and the
operation was carried out. -/
theorem answer_eq_ok {e : Op} {w : World} {r : e.Res} (h : e.answer sha256 w = .ok r) :
    w.fault = none ∧ r = e.result sha256 w := by
  unfold Op.answer Op.step at h
  cases hf : w.fault with
  | none =>
      rw [hf] at h
      exact ⟨rfl, by cases h; rfl⟩
  | some x =>
      rw [hf] at h
      cases h

/-- What every transaction preserves, a question preserves. -/
theorem step_invariant {I : Sessions.Database → Prop}
    (hI : ∀ db (t : Sessions.Txn), I db → I (t.apply sha256 db)) (e : Op) {w : World}
    (h : I w.db) : I (e.step sha256 w).2.db := by
  rw [step_db]
  cases e.commits w with
  | none => exact h
  | some t => exact hI _ t h

end Step

/-! ## The database along the log -/

section Traced

variable {sha256 : String → String} {db₀ : Sessions.Database}

/-- The log of a run that began with `db₀` and has reached `db` by `now`:
each question met what those before it left, no earlier. -/
inductive Traced (sha256 : String → String) (db₀ : Sessions.Database) :
    Prog.History Op World → Sessions.Database → Instant → Prop where
  | start {now : Instant} : Traced sha256 db₀ [] db₀ now
  | ask {log : Prog.History Op World} {w : World} {e : Op} (h : Traced sha256 db₀ log w.db w.clock) :
      Traced sha256 db₀ ((e, w) :: log) (e.step sha256 w).2.db w.clock
  | wait {log : Prog.History Op World} {db : Sessions.Database} {now later : Instant}
      (h : Traced sha256 db₀ log db now) (hle : now ≤ later) : Traced sha256 db₀ log db later

variable [Python]

/-- **Every run of the broker is traced.** -/
theorem traced_play (w : World) (ms : List (Move Request (World × Nat))) :
    let P := (machine sha256).play (.new w) ms
    Traced sha256 w.db P.log P.world.db P.world.clock := by
  refine Machine.play_invariant (I := fun P => Traced sha256 w.db P.log P.world.db P.world.clock)
    (A := fun _ => True) (fun P m _ h => ?_) (fun _ _ => trivial) .start
  cases m with
  | start r => exact h
  | ask i =>
      rcases (machine sha256).ask_cases P i with he | ⟨r, hist, e, k, -, -, he⟩
      · rw [he]; exact h
      · rw [he]
        show Traced sha256 w.db _ (e.step sha256 P.world).2.db (e.step sha256 P.world).2.clock
        rw [step_clock]
        exact .ask h
  | change c =>
      exact .wait h (Int.le_add_of_nonneg_right (Int.natCast_nonneg c.2))
  | restart => exact h

omit [Python] in
/-- What every transaction preserves holds of every world in the log. -/
theorem Traced.invariant {I : Sessions.Database → Prop}
    (hI : ∀ db (t : Sessions.Txn), I db → I (t.apply sha256 db)) {log : Prog.History Op World}
    {db : Sessions.Database} {now : Instant} (h : Traced sha256 db₀ log db now) (h₀ : I db₀) :
    I db := by
  induction h with
  | start => exact h₀
  | ask h ih => exact step_invariant hI _ ih
  | wait h hle ih => exact ih

omit [Python] in
/-- A run up to one of its questions is a run. -/
theorem Traced.before {log : Prog.History Op World} {db : Sessions.Database} {now : Instant}
    (h : Traced sha256 db₀ log db now) {post : Prog.History Op World} {e : Op} {w : World}
    {pre : Prog.History Op World} (hlog : log = post ++ (e, w) :: pre) :
    Traced sha256 db₀ pre w.db w.clock ∧ w.clock ≤ now := by
  induction h generalizing post with
  | start => simp at hlog
  | @ask log w' e' h ih =>
      cases post with
      | nil =>
          obtain ⟨hhead, rfl⟩ := List.cons.inj hlog
          obtain ⟨rfl, rfl⟩ := Prod.mk.inj hhead
          exact ⟨h, le_refl _⟩
      | cons x post =>
          obtain ⟨-, rfl⟩ := List.cons.inj hlog
          exact ih rfl
  | wait h hle ih =>
      obtain ⟨hpre, hclock⟩ := ih hlog
      exact ⟨hpre, hclock.trans hle⟩

end Traced

/-! ## A guest at the gate -/

/-- The digests of the texts below. -/
def gateDigest (s : String) : String :=
  if s = "door-invitation-000000000000000000000000000" then
    "44a89908ba9b27ed911a890e5906a9ec479e7d1dc44f7c50cc35b7255c9981be"
  else if s = "guest-cookie-1" then
    "307c9881b5136ec32aca13d111e17d0219554d6505beabb5e9c0e7b8be4f6c3a"
  else if s = "042137" then
    "3c7c7de6d5b7a01573616c308f8cc35144db986cfeb9728a4aab9d581e747b95"
  else ""

theorem gateGrant_id_re : Pages.grantIdRe "grant_AAAAAAAAAAAAAAAA" = true := by decide

theorem gateGrant_stripped : ∀ s ∈ ["2030-01-01T00:00:00Z", "2030-01-08T00:00:00Z", "", "", "",
    "q1", "", "crid1"], strip s = s := by decide

theorem gatePage_id_re : Pages.pageIdRe "gate" = true := by decide

/-- An invitation that asks for email verification. -/
def gateGrant : Pages.Grant where
  id := "grant_AAAAAAAAAAAAAAAA"
  tokenHash := "44a89908ba9b27ed911a890e5906a9ec479e7d1dc44f7c50cc35b7255c9981be"
  createdAt := "2030-01-01T00:00:00Z"
  expiresAt := "2030-01-08T00:00:00Z"
  label := "Guest"
  lifetime := "7d"
  oneTimeUse := true
  qurlLink := ""
  qurlSite := ""
  resourceId := ""
  qurlId := "q1"
  type := ""
  verificationRequired := true
  notifications := ⟨[], []⟩
  targetPathApplied := false
  resourceCrid := "crid1"
  upstreamScope := .page
  id_re := gateGrant_id_re
  tokenHash_re := by decide
  stripped := gateGrant_stripped

/-- A page with one switch. -/
def gatePage : Pages.Page where
  id := "gate"
  title := "Gate"
  description := ""
  proximity := ⟨false, 500, Pages.radius_bounds⟩
  resources := [{
    id := "light"
    name := "Light"
    entityId := "switch.gate"
    domain := "switch"
    widget := .toggle
    actions := [⟨"turn_on", "Turn on", "turn_on"⟩]
    cameraRefreshInterval := none
    id_re := by decide
    domain_eq := by decide }]
  accessGrants := [gateGrant]
  id_re := gatePage_id_re

/-- The first of January, with everything in order. -/
def gateWorld : World where
  policy _ := .ok gatePage
  grants _ := .ok gatePage
  db := .empty
  clock := 1893456000 * second
  token := "guest-cookie-1"
  draw := 42137
  challengeId := "c1"
  allows _ := true
  delivers := true
  inTime := true
  homeAssistant _ := .ok (.arr [.obj [("entity_id", .str "switch.gate"), ("state", .str "off")]])
  camera _ := .error ⟨"Camera entity is invalid", none⟩
  refresh _ _ := (true, 0)
  capabilities := none
  accepts := .ok ()
  fault := none

end Broker

end AccessPages
