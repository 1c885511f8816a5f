import AccessPages.Sessions.Model
/-!
# Sessions — what a transaction can do

One inversion lemma for each transaction, saying every way it can end
with the guards it passed. The results about runs read these and never
unfold a transaction.
-/

namespace AccessPages

namespace Sessions

variable {sha256 : String → String} {db : Database}

theorem liveSession_eq_some {key pageId grantId : String} {now : Int} {s : GuestSession} :
    liveSession db key pageId grantId now = some s ↔
      s ∈ db.guestSessions ∧ s.tokenHash = key ∧ s.pageId = pageId ∧ s.grantId = grantId ∧
        now < s.expiresAt := by
  simp only [liveSession, Option.filter_eq_some_iff, Table.find?_eq_some, decide_eq_true_eq]
  tauto

theorem openChallenge_eq_some {key pageId grantId : String} {now grantExpiry : Int}
    {s : GuestSession} {r : GuestChallenge} :
    openChallenge db key pageId grantId now grantExpiry = some (s, r) ↔
      liveSession db key pageId grantId now = some s ∧
      (r ∈ db.guestChallenges ∧ r.tokenHash = key) ∧ r.pageId = pageId ∧ r.grantId = grantId ∧
        now < r.expiresAt ∧ r.attempts < 5 ∧ now < grantExpiry := by
  simp only [openChallenge, bind, Option.bind_eq_some_iff, Option.filter_eq_some_iff,
    Table.find?_eq_some, decide_eq_true_eq]
  constructor
  · rintro ⟨s', hs, r', ⟨hr, hb⟩, h⟩
    split at h
    · cases h
    · rename_i hguard
      cases h
      exact ⟨hs, hr, hb.1, hb.2, by omega, by omega, by omega⟩
  · rintro ⟨hs, hr, hp, hg, h⟩
    refine ⟨s, hs, r, ⟨hr, hp, hg⟩, ?_⟩
    rw [if_neg (by omega)]

theorem insertRow_eq_ok {α κ : Type} {key : α → κ} [DecidableEq κ] {t t' : Table α key} {r : α}
    {e : StoreError} : insertRow t r e = .ok t' ↔ t.insert r = some t' := by
  unfold insertRow
  cases t.insert r <;> simp

/-- **What `consume_bootstrap` can do.** It raises and leaves the database
alone, or every check passed and both session rows are new, and the
marker with them for a single-use grant. -/
theorem consumeBootstrap_cases (now : Instant) (token pageId grantId secret expectedHash : String)
    (grantExpires : Instant) (oneTimeUse : Bool) :
    (∃ e, consumeBootstrap sha256 db now token pageId grantId secret expectedHash grantExpires
      oneTimeUse = (.error e, db)) ∨
    ∃ consumed sessions grants, secret ≠ "" ∧ sha256 secret = expectedHash ∧
      timestamp now < timestamp grantExpires ∧
      (oneTimeUse = true →
        db.consumedBootstraps.insert ⟨sha256 secret, pageId, grantId⟩ = some consumed) ∧
      (oneTimeUse = false → consumed = db.consumedBootstraps) ∧
      db.guestSessions.insert ⟨sha256 token, pageId, grantId, timestamp grantExpires⟩
        = some sessions ∧
      db.guestSessionGrants.insert ⟨sha256 token, expectedHash⟩ = some grants ∧
      consumeBootstrap sha256 db now token pageId grantId secret expectedHash grantExpires
        oneTimeUse = (.ok (token, timestamp grantExpires), { db with
          consumedBootstraps := consumed
          guestSessions := sessions
          guestSessionGrants := grants }) := by
  unfold consumeBootstrap
  by_cases hs : secret = "" ∨ sha256 secret ≠ expectedHash
  · exact Or.inl ⟨_, by simp only [if_pos hs]; rfl⟩
  simp only [if_neg hs]
  push Not at hs
  by_cases he : timestamp grantExpires ≤ timestamp now
  · exact Or.inl ⟨_, by simp only [if_pos he]; rfl⟩
  simp only [if_neg he]
  cases hc : markConsumed db ⟨sha256 secret, pageId, grantId⟩ oneTimeUse with
  | error e => exact Or.inl ⟨e, rfl⟩
  | ok consumed =>
      cases h₁ : insertRow db.guestSessions
          ⟨sha256 token, pageId, grantId, timestamp grantExpires⟩ .integrityError with
      | error e => exact Or.inl ⟨e, rfl⟩
      | ok sessions =>
          cases h₂ : insertRow db.guestSessionGrants ⟨sha256 token, expectedHash⟩
              .integrityError with
          | error e => exact Or.inl ⟨e, rfl⟩
          | ok grants =>
              refine Or.inr ⟨consumed, sessions, grants, hs.1, hs.2, by omega, ?_, ?_,
                insertRow_eq_ok.mp h₁, insertRow_eq_ok.mp h₂, rfl⟩
              · intro ho
                rw [markConsumed, if_pos ho] at hc
                exact insertRow_eq_ok.mp hc
              · intro ho
                rw [markConsumed, if_neg (by simp [ho])] at hc
                cases hc; rfl

/-- The row `issue_guest_challenge` stores. -/
def issuedRow (sha256 : String → String) (clock : Instant) (draw : Nat)
    (challengeId token pageId grantId : String) : GuestChallenge :=
  ⟨sha256 token, pageId, grantId, challengeId, sha256 (codeText draw), timestamp clock + 600, 0,
    timestamp clock⟩

/-- **What `issue_guest_challenge` can do.** It leaves the database alone,
having raised or found a code already out, or it stores a fresh row for
a live session whose previous challenge, if it still has one, went out at
least sixty seconds ago. -/
theorem issueGuestChallenge_cases (clock : Instant) (draw : Nat)
    (challengeId token pageId grantId : String) (replace : Bool) :
    (∃ r, issueGuestChallenge sha256 db clock draw challengeId token pageId grantId replace
      = (r, db) ∧ ∀ c, r ≠ .ok (some c)) ∨
    (∃ s, liveSession db (sha256 token) pageId grantId (timestamp clock) = some s) ∧
      (∀ r ∈ db.guestChallenges, r.tokenHash = sha256 token →
        60 ≤ timestamp clock - r.sentAt) ∧
      issueGuestChallenge sha256 db clock draw challengeId token pageId grantId replace =
        (.ok (some (codeText draw, challengeId)), { db with
          guestChallenges := db.guestChallenges.insertOrReplace
            (issuedRow sha256 clock draw challengeId token pageId grantId) }) := by
  simp only [issueGuestChallenge]
  cases hs : liveSession db (sha256 token) pageId grantId (timestamp clock) with
  | none => exact Or.inl ⟨_, rfl, by simp⟩
  | some s =>
      cases hc : db.guestChallenges.find? (sha256 token) with
      | none =>
          refine Or.inr ⟨⟨s, rfl⟩, fun r hr hk => ?_, rfl⟩
          exact absurd hk (Table.find?_eq_none.mp hc r hr)
      | some current =>
          obtain ⟨hmem, hkey⟩ := Table.find?_eq_some.mp hc
          dsimp only
          split
          · exact Or.inl ⟨_, rfl, by simp⟩
          · split
            · exact Or.inl ⟨_, rfl, by simp⟩
            · refine Or.inr ⟨⟨s, rfl⟩, fun r hr hk => ?_, rfl⟩
              rw [Table.eq_of_key_eq hr hmem (hk.trans hkey.symm)]
              omega

/-- **What `verify_guest_challenge` can do.** There is nothing to compare
against and it raises; the code is wrong, and it raises with the attempt
counted; or the code is right, the challenge is spent and the session is
verified up to the least of the three bounds. -/
theorem verifyGuestChallenge_cases (clock : Instant) (token pageId grantId code : String)
    (grantExpiry : Int) :
    (openChallenge db (sha256 token) pageId grantId (timestamp clock) grantExpiry = none ∧
      verifyGuestChallenge sha256 db clock token pageId grantId code grantExpiry
        = (.error codeInvalid, db)) ∨
    ∃ s r, openChallenge db (sha256 token) pageId grantId (timestamp clock) grantExpiry
        = some (s, r) ∧
      ((r.codeHash ≠ sha256 code ∧
        verifyGuestChallenge sha256 db clock token pageId grantId code grantExpiry
          = (.error codeInvalid, { db with
            guestChallenges := countAttempt db.guestChallenges (sha256 token) })) ∨
      (r.codeHash = sha256 code ∧
        verifyGuestChallenge sha256 db clock token pageId grantId code grantExpiry
          = (.ok (min (timestamp clock + 12 * 3600) (min s.expiresAt grantExpiry)), { db with
            guestChallenges := (countAttempt db.guestChallenges (sha256 token)).deleteWhere
              fun r => r.tokenHash = sha256 token
            guestVerifications := db.guestVerifications.insertOrReplace
              ⟨sha256 token, pageId, grantId,
                min (timestamp clock + 12 * 3600) (min s.expiresAt grantExpiry)⟩ }))) := by
  simp only [verifyGuestChallenge]
  cases h : openChallenge db (sha256 token) pageId grantId (timestamp clock) grantExpiry with
  | none => exact Or.inl ⟨rfl, rfl⟩
  | some p =>
      obtain ⟨s, r⟩ := p
      refine Or.inr ⟨s, r, rfl, ?_⟩
      by_cases hc : r.codeHash = sha256 code
      · exact Or.inr ⟨hc, if_neg (not_not_intro hc)⟩
      · exact Or.inl ⟨hc, if_pos hc⟩

theorem mem_countAttempt {t : Table GuestChallenge GuestChallenge.tokenHash} {key : String}
    {r : GuestChallenge} :
    r ∈ countAttempt t key ↔ ∃ c ∈ t,
      (if c.tokenHash = key then { c with attempts := c.attempts + 1 } else c) = r := by
  simp [countAttempt, Table.mem_updateWhere]

/-- Counting an attempt keeps a row's key, page, grant and challenge. -/
theorem exists_of_mem_countAttempt {t : Table GuestChallenge GuestChallenge.tokenHash}
    {key : String} {r : GuestChallenge} (h : r ∈ countAttempt t key) :
    ∃ c ∈ t, r = { c with attempts := if c.tokenHash = key then c.attempts + 1 else c.attempts }
      := by
  obtain ⟨c, hc, rfl⟩ := mem_countAttempt.mp h
  refine ⟨c, hc, ?_⟩
  split <;> rfl

/-- With the row gone, counting it first made no difference. -/
theorem mem_countAttempt_deleteWhere {t : Table GuestChallenge GuestChallenge.tokenHash}
    {key : String} {r : GuestChallenge} :
    r ∈ (countAttempt t key).deleteWhere (fun r => r.tokenHash = key) ↔
      r ∈ t ∧ r.tokenHash ≠ key := by
  simp only [Table.mem_deleteWhere, mem_countAttempt, decide_eq_false_iff_not]
  constructor
  · rintro ⟨⟨c, hc, rfl⟩, hk⟩
    by_cases hck : c.tokenHash = key
    · simp [hck] at hk
    · simpa [hck] using hc
  · rintro ⟨hr, hk⟩
    exact ⟨⟨r, hr, by simp [hk]⟩, hk⟩

end Sessions

end AccessPages
