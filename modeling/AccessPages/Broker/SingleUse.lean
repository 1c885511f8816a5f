import AccessPages.Broker.Requests
/-!
# Broker — a single-use invitation opens one session

`consume_bootstrap` leaves a marker under the digest of the secret in the
transaction that opens the session. No transaction removes a marker, not
even the revocation that deletes every other row of the grant, so the
first success is the last, whatever else happens to the grant, the page
or the process.
-/

namespace AccessPages

namespace Broker

open Sessions (Database Txn)

variable {sha256 : String → String} {db : Database} {secret : String}

/-- The secret has left its marker. -/
def Consumed (sha256 : String → String) (secret : String) (db : Database) : Prop :=
  ∃ r ∈ db.consumedBootstraps, r.tokenHash = sha256 secret

variable (sha256) in
/-- `e`, asked in `w`, opens a session with a single-use secret. -/
def Op.opens (secret : String) (e : Op) (w : World) : Bool :=
  match e with
  | .consumeBootstrap pageId grantId s expectedHash grantExpires oneTimeUse =>
      s = secret ∧ oneTimeUse = true ∧ w.fault.isNone ∧
        (Sessions.consumeBootstrap sha256 w.db w.clock w.token pageId grantId s expectedHash
          grantExpires oneTimeUse).1.isOk
  | _ => false

/-- A call that fails leaves the database as it was. -/
theorem consumeBootstrap_error {now : Instant} {token pageId grantId s expectedHash : String}
    {grantExpires : Instant} {oneTimeUse : Bool} {e : Sessions.StoreError}
    (h : (Sessions.consumeBootstrap sha256 db now token pageId grantId s expectedHash grantExpires
      oneTimeUse).1 = .error e) :
    (Sessions.consumeBootstrap sha256 db now token pageId grantId s expectedHash grantExpires
      oneTimeUse).2 = db := by
  rcases Sessions.consumeBootstrap_cases now token pageId grantId s expectedHash grantExpires
    oneTimeUse with ⟨e', he⟩ | ⟨_, _, _, -, -, -, -, -, -, -, he⟩
  · rw [he]
  · rw [he] at h
    cases h

/-- A marked secret is refused, and nothing is written. -/
theorem consumeBootstrap_of_consumed (h : Consumed sha256 secret db) (now : Instant)
    (token pageId grantId expectedHash : String) (grantExpires : Instant) :
    ∃ e, Sessions.consumeBootstrap sha256 db now token pageId grantId secret expectedHash
      grantExpires true = (.error e, db) := by
  rcases Sessions.consumeBootstrap_cases now token pageId grantId secret expectedHash grantExpires
    true with he | ⟨_, _, _, -, -, -, hmark, -, -, -, -⟩
  · exact he
  · -- the marker's key is taken, so the insertion cannot have gone through
    obtain ⟨r, hr, hk⟩ := h
    exact absurd hk ((Table.insert_eq_some (hmark rfl)).1 r hr)

/-- No transaction removes a marker. -/
theorem consumed_apply (t : Txn) (h : Consumed sha256 secret db) :
    Consumed sha256 secret (t.apply sha256 db) := by
  obtain ⟨r, hr, hk⟩ := h
  cases t with
  | consumeBootstrap now token pageId grantId s expectedHash grantExpires oneTimeUse =>
      rcases Sessions.consumeBootstrap_cases now token pageId grantId s expectedHash grantExpires
        oneTimeUse with ⟨e, he⟩ | ⟨consumed, _, _, -, -, -, hmark, hkeep, -, -, he⟩
      · exact ⟨r, by rwa [Txn.apply, he], hk⟩
      · rw [Txn.apply, he]
        refine ⟨r, ?_, hk⟩
        show r ∈ consumed
        cases oneTimeUse with
        | true => exact ((Table.insert_eq_some (hmark rfl)).2 r).mpr (Or.inl hr)
        | false => rwa [hkeep rfl]
  | issueGuestChallenge now draw challengeId token pageId grantId replace =>
      rcases Sessions.issueGuestChallenge_cases now draw challengeId token pageId grantId replace
        with ⟨_, he, -⟩ | ⟨-, -, he⟩ <;>
      exact ⟨r, by rwa [Txn.apply, he], hk⟩
  | cancelGuestChallenge token challengeId => exact ⟨r, hr, hk⟩
  | verifyGuestChallenge now token pageId grantId code grantExpiry =>
      rcases Sessions.verifyGuestChallenge_cases now token pageId grantId code grantExpiry with
        ⟨-, he⟩ | ⟨_, _, -, ⟨-, he⟩ | ⟨-, he⟩⟩ <;>
      exact ⟨r, by rwa [Txn.apply, he], hk⟩
  | revoke pageId grantId => exact ⟨r, hr, hk⟩

/-- Opening a session leaves the marker, and there was none before. -/
theorem consumed_of_opens {e : Op} {w : World} (h : e.opens sha256 secret w = true) :
    Consumed sha256 secret (e.step sha256 w).2.db ∧ ¬ Consumed sha256 secret w.db := by
  cases e with
  | consumeBootstrap pageId grantId s expectedHash grantExpires oneTimeUse =>
      simp only [Op.opens, decide_eq_true_eq] at h
      obtain ⟨rfl, rfl, hf, hok⟩ := h
      rcases Sessions.consumeBootstrap_cases w.clock w.token pageId grantId s expectedHash
        grantExpires true with ⟨e, he⟩ | ⟨consumed, _, _, -, -, -, hmark, -, -, -, he⟩
      · rw [he] at hok
        cases hok
      · have hins := Table.insert_eq_some (hmark rfl)
        refine ⟨⟨⟨sha256 s, pageId, grantId⟩, ?_, rfl⟩, fun ⟨r, hr, hk⟩ => hins.1 r hr hk⟩
        rw [step_db, Op.commits, Option.isNone_iff_eq_none.mp hf]
        simp only [Op.txn, Option.map_some, Option.getD_some, Txn.apply, he]
        exact (hins.2 _).mpr (Or.inr rfl)
  | _ => cases h

/-- Along a run: at most one opening, and after it the marker. -/
theorem Traced.opens {db₀ : Database} {log : Prog.History Op World} {now : Instant}
    (h : Traced sha256 db₀ log db now) :
    log.countP (fun q => q.1.opens sha256 secret q.2) ≤ 1 ∧
      (0 < log.countP (fun q => q.1.opens sha256 secret q.2) → Consumed sha256 secret db) := by
  induction h with
  | start => exact ⟨Nat.zero_le _, fun h => absurd h (by simp)⟩
  | @ask log w e h ih =>
      rw [List.countP_cons]
      by_cases ho : e.opens sha256 secret w = true
      · obtain ⟨hafter, hbefore⟩ := consumed_of_opens ho
        have hnone : log.countP (fun q => q.1.opens sha256 secret q.2) = 0 :=
          Nat.eq_zero_of_not_pos fun hpos => hbefore (ih.2 hpos)
        rw [hnone, if_pos ho]
        exact ⟨le_refl _, fun _ => hafter⟩
      · rw [if_neg ho]
        exact ⟨ih.1, fun hpos => step_invariant (fun _ t => consumed_apply t) e (ih.2 hpos)⟩
  | wait h hle ih => exact ih

/-- **A single-use invitation opens at most one session, ever.** Over any
interleaving of requests, changes to pages and grants, and restarts, on
whatever database the run began with: at most one single-use exchange of
a secret succeeds; once one has, every further one is refused and writes
nothing; and a call that fails writes neither marker nor session. -/
theorem single_use_invitation [Python] (sha256 : String → String) (w : World)
    (ms : List (Move Request (World × Nat))) (secret : String) :
    let P := (machine sha256).play (.new w) ms
    P.log.countP (fun q => q.1.opens sha256 secret q.2) ≤ 1 ∧
    (0 < P.log.countP (fun q => q.1.opens sha256 secret q.2) →
      ∀ now token pageId grantId expectedHash grantExpires, ∃ e,
        Sessions.consumeBootstrap sha256 P.world.db now token pageId grantId secret expectedHash
          grantExpires true = (.error e, P.world.db)) ∧
    ∀ now token pageId grantId s expectedHash grantExpires oneTimeUse e,
      (Sessions.consumeBootstrap sha256 P.world.db now token pageId grantId s expectedHash
        grantExpires oneTimeUse).1 = .error e →
      (Sessions.consumeBootstrap sha256 P.world.db now token pageId grantId s expectedHash
        grantExpires oneTimeUse).2 = P.world.db := by
  intro P
  obtain ⟨hone, hafter⟩ := @Traced.opens sha256 _ secret _ _ _ (traced_play w ms)
  refine ⟨hone, fun hpos now token pageId grantId expectedHash grantExpires => ?_, ?_⟩
  · exact consumeBootstrap_of_consumed (hafter hpos) now token pageId grantId expectedHash
      grantExpires
  · intro now token pageId grantId s expectedHash grantExpires oneTimeUse e he
    exact consumeBootstrap_error he

end Broker

end AccessPages
