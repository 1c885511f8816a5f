import AccessPages.Sessions.Helpers
/-!
# Sessions — referential integrity without foreign keys

The four guest tables are keyed by the token hash and deleted partly by
page and grant, partly by what is left of the sessions. `Integrity` is
what the schema does not declare: each row of the other three tables
belongs to a session, bound as the session is and no longer lived. Every
transaction keeps it, so `revoke` deletes by pair exactly what belongs to
the pair's sessions.
-/

namespace AccessPages

namespace Sessions

variable {sha256 : String → String} {db : Database} {pageId grantId : String}

/-- The token hashes of `guest_sessions`. -/
def Database.sessionKeys (db : Database) : Set String :=
  { k | ∃ s ∈ db.guestSessions, s.tokenHash = k }

/-- The token hashes of `guest_session_grants`. -/
def Database.grantKeys (db : Database) : Set String :=
  { k | ∃ g ∈ db.guestSessionGrants, g.tokenHash = k }

/-- `s` is the session a row with this key, page and grant belongs to. -/
def Owns (s : GuestSession) (key pageId grantId : String) : Prop :=
  s.tokenHash = key ∧ s.pageId = pageId ∧ s.grantId = grantId

/-- What the schema does not declare. -/
structure Integrity (db : Database) : Prop where
  keys : db.grantKeys = db.sessionKeys
  challenge : ∀ c ∈ db.guestChallenges,
    ∃ s ∈ db.guestSessions, Owns s c.tokenHash c.pageId c.grantId
  verification : ∀ v ∈ db.guestVerifications,
    ∃ s ∈ db.guestSessions, Owns s v.tokenHash v.pageId v.grantId ∧ v.expiresAt ≤ s.expiresAt

theorem integrity_empty : Integrity Database.empty where
  keys := by simp [Database.grantKeys, Database.sessionKeys, Database.empty]
  challenge c hc := absurd hc Table.not_mem_empty
  verification v hv := absurd hv Table.not_mem_empty

/-- Both session tables take the same new key. -/
theorem keys_of_insert {s : GuestSession} {g : GuestSessionGrant}
    {sessions : Table GuestSession GuestSession.tokenHash}
    {grants : Table GuestSessionGrant GuestSessionGrant.tokenHash}
    (h : db.grantKeys = db.sessionKeys) (hs : db.guestSessions.insert s = some sessions)
    (hg : db.guestSessionGrants.insert g = some grants) (he : g.tokenHash = s.tokenHash) :
    { k | ∃ g ∈ grants, g.tokenHash = k } = { k | ∃ s ∈ sessions, s.tokenHash = k } := by
  have hs' := (Table.insert_eq_some hs).2
  have hg' := (Table.insert_eq_some hg).2
  ext k
  have hk : (∃ g ∈ db.guestSessionGrants, g.tokenHash = k) ↔
      ∃ s ∈ db.guestSessions, s.tokenHash = k := Set.ext_iff.mp h k
  simp only [Set.mem_ofPred_eq, hs', hg', or_and_right, exists_or, exists_eq_left, hk, he]

theorem integrity_consumeBootstrap (h : Integrity db) (now : Instant)
    (token secret expectedHash : String) (grantExpires : Instant) (oneTimeUse : Bool) :
    Integrity (consumeBootstrap sha256 db now token pageId grantId secret expectedHash
      grantExpires oneTimeUse).2 := by
  rcases consumeBootstrap_cases now token pageId grantId secret expectedHash grantExpires
    oneTimeUse with ⟨e, he⟩ | ⟨consumed, sessions, grants, -, -, -, -, -, hs, hg, he⟩
  · rw [he]; exact h
  · rw [he]
    -- the sessions only grow, so what belonged to one still does
    have hmem := (Table.insert_eq_some hs).2
    exact {
      keys := keys_of_insert h.keys hs hg rfl
      challenge := fun c hc => by
        obtain ⟨s, hsm, ho⟩ := h.challenge c hc
        exact ⟨s, (hmem s).mpr (Or.inl hsm), ho⟩
      verification := fun v hv => by
        obtain ⟨s, hsm, ho⟩ := h.verification v hv
        exact ⟨s, (hmem s).mpr (Or.inl hsm), ho⟩ }

theorem integrity_issueGuestChallenge (h : Integrity db) (clock : Instant) (draw : Nat)
    (challengeId token : String) (replace : Bool) :
    Integrity (issueGuestChallenge sha256 db clock draw challengeId token pageId grantId
      replace).2 := by
  rcases issueGuestChallenge_cases clock draw challengeId token pageId grantId replace with
    ⟨r, he, -⟩ | ⟨⟨s, hs⟩, -, he⟩
  · rw [he]; exact h
  · rw [he]
    obtain ⟨hsm, hk, hp, hg, -⟩ := liveSession_eq_some.mp hs
    refine { keys := h.keys, challenge := fun c hc => ?_, verification := h.verification }
    rcases Table.mem_insertOrReplace.mp hc with ⟨hc, -⟩ | rfl
    · exact h.challenge c hc
    · exact ⟨s, hsm, hk, hp, hg⟩

theorem integrity_cancelGuestChallenge (h : Integrity db) (token challengeId : String) :
    Integrity (cancelGuestChallenge sha256 db token challengeId) where
  keys := h.keys
  challenge c hc := h.challenge c (Table.mem_deleteWhere.mp hc).1
  verification := h.verification

theorem integrity_verifyGuestChallenge (h : Integrity db) (clock : Instant)
    (token code : String) (grantExpiry : Int) :
    Integrity (verifyGuestChallenge sha256 db clock token pageId grantId code grantExpiry).2 := by
  rcases verifyGuestChallenge_cases clock token pageId grantId code grantExpiry with
    ⟨-, he⟩ | ⟨s, r, ho, ⟨-, he⟩ | ⟨-, he⟩⟩
  · rw [he]; exact h
  · rw [he]
    refine { keys := h.keys, challenge := fun c hc => ?_, verification := h.verification }
    obtain ⟨c', hc', rfl⟩ := exists_of_mem_countAttempt hc
    exact h.challenge c' hc'
  · rw [he]
    obtain ⟨hlive, -⟩ := openChallenge_eq_some.mp ho
    obtain ⟨hsm, hk, hp, hg, -⟩ := liveSession_eq_some.mp hlive
    refine { keys := h.keys, challenge := fun c hc => ?_, verification := fun v hv => ?_ }
    · exact h.challenge c (mem_countAttempt_deleteWhere.mp hc).1
    · rcases Table.mem_insertOrReplace.mp hv with ⟨hv, -⟩ | rfl
      · exact h.verification v hv
      · exact ⟨s, hsm, ⟨hk, hp, hg⟩, by simp⟩

/-! ## Revocation -/

theorem mem_revoke_guestSessions {s : GuestSession} :
    s ∈ (revoke db pageId grantId).guestSessions ↔
      s ∈ db.guestSessions ∧ ¬ (s.pageId = pageId ∧ s.grantId = grantId) := by
  simp [revoke]

theorem mem_revoke_guestChallenges {c : GuestChallenge} :
    c ∈ (revoke db pageId grantId).guestChallenges ↔
      c ∈ db.guestChallenges ∧ ¬ (c.pageId = pageId ∧ c.grantId = grantId) := by
  simp [revoke]

theorem mem_revoke_guestVerifications {v : GuestVerification} :
    v ∈ (revoke db pageId grantId).guestVerifications ↔
      v ∈ db.guestVerifications ∧ ¬ (v.pageId = pageId ∧ v.grantId = grantId) := by
  simp [revoke]

/-- A grant hash survives with the session it belongs to. -/
theorem mem_revoke_guestSessionGrants {g : GuestSessionGrant} :
    g ∈ (revoke db pageId grantId).guestSessionGrants ↔
      g ∈ db.guestSessionGrants ∧
        g.tokenHash ∈ (revoke db pageId grantId).sessionKeys := by
  simp only [revoke, Table.mem_deleteWhere, decide_eq_false_iff_not, not_not, List.mem_map]
  exact Iff.rfl

theorem integrity_revoke (h : Integrity db) (pageId grantId : String) :
    Integrity (revoke db pageId grantId) where
  keys := by
    ext k
    constructor
    · rintro ⟨g, hg, rfl⟩
      exact (mem_revoke_guestSessionGrants.mp hg).2
    · rintro ⟨s, hs, rfl⟩
      have hk : s.tokenHash ∈ db.grantKeys := by
        rw [h.keys]
        exact ⟨s, (mem_revoke_guestSessions.mp hs).1, rfl⟩
      obtain ⟨g, hg, hgk⟩ := hk
      exact ⟨g, mem_revoke_guestSessionGrants.mpr ⟨hg, s, hs, hgk.symm⟩, hgk⟩
  challenge c hc := by
    obtain ⟨hc, hne⟩ := mem_revoke_guestChallenges.mp hc
    obtain ⟨s, hs, hk, hp, hg⟩ := h.challenge c hc
    exact ⟨s, mem_revoke_guestSessions.mpr ⟨hs, by rwa [hp, hg]⟩, hk, hp, hg⟩
  verification v hv := by
    obtain ⟨hv, hne⟩ := mem_revoke_guestVerifications.mp hv
    obtain ⟨s, hs, ⟨hk, hp, hg⟩, hle⟩ := h.verification v hv
    exact ⟨s, mem_revoke_guestSessions.mpr ⟨hs, by rwa [hp, hg]⟩, ⟨hk, hp, hg⟩, hle⟩

/-- **Every transaction keeps the integrity.** -/
theorem integrity_apply (h : Integrity db) (t : Txn) : Integrity (t.apply sha256 db) := by
  cases t with
  | consumeBootstrap now token pageId grantId secret expectedHash grantExpires oneTimeUse =>
      exact integrity_consumeBootstrap h now token secret expectedHash grantExpires oneTimeUse
  | issueGuestChallenge now draw challengeId token pageId grantId replace =>
      exact integrity_issueGuestChallenge h now draw challengeId token replace
  | cancelGuestChallenge token challengeId =>
      exact integrity_cancelGuestChallenge h token challengeId
  | verifyGuestChallenge now token pageId grantId code grantExpiry =>
      exact integrity_verifyGuestChallenge h now token code grantExpiry
  | revoke pageId grantId => exact integrity_revoke h pageId grantId

theorem integrity_run (txns : List Txn) : Integrity (runFrom sha256 .empty txns) :=
  runFrom_invariant sha256 (I := Integrity) (fun _ t h => integrity_apply h t) integrity_empty txns

/-- `s` belongs to another page or grant than these. -/
def Foreign (pageId grantId : String) (s : GuestSession) : Prop :=
  ¬ (s.pageId = pageId ∧ s.grantId = grantId)

/-- What revoking a pair must do: nothing of it is left in the four
tables, and every row of every other pair is. -/
structure Revoked (db db' : Database) (pageId grantId : String) : Prop where
  sessions : ∀ s ∈ db'.guestSessions, Foreign pageId grantId s
  grants : ∀ g ∈ db'.guestSessionGrants, ∀ s ∈ db.guestSessions,
    s.tokenHash = g.tokenHash → Foreign pageId grantId s
  challenges : ∀ c ∈ db'.guestChallenges, ¬ (c.pageId = pageId ∧ c.grantId = grantId)
  verifications : ∀ v ∈ db'.guestVerifications, ¬ (v.pageId = pageId ∧ v.grantId = grantId)
  other_sessions : ∀ s, Foreign pageId grantId s →
    (s ∈ db'.guestSessions ↔ s ∈ db.guestSessions)
  other_grants : ∀ s ∈ db.guestSessions, Foreign pageId grantId s → ∀ g,
    g.tokenHash = s.tokenHash → (g ∈ db'.guestSessionGrants ↔ g ∈ db.guestSessionGrants)
  other_challenges : ∀ c : GuestChallenge, ¬ (c.pageId = pageId ∧ c.grantId = grantId) →
    (c ∈ db'.guestChallenges ↔ c ∈ db.guestChallenges)
  other_verifications : ∀ v : GuestVerification, ¬ (v.pageId = pageId ∧ v.grantId = grantId) →
    (v ∈ db'.guestVerifications ↔ v ∈ db.guestVerifications)

theorem revoked_revoke (db : Database) (pageId grantId : String) :
    Revoked db (revoke db pageId grantId) pageId grantId where
  sessions s hs := (mem_revoke_guestSessions.mp hs).2
  grants g hg s hs hk := by
    obtain ⟨s', hs', hk'⟩ := (mem_revoke_guestSessionGrants.mp hg).2
    obtain ⟨hm, hf⟩ := mem_revoke_guestSessions.mp hs'
    rwa [Table.eq_of_key_eq hs hm (hk.trans hk'.symm)]
  challenges c hc := (mem_revoke_guestChallenges.mp hc).2
  verifications v hv := (mem_revoke_guestVerifications.mp hv).2
  other_sessions s hf := by rw [mem_revoke_guestSessions]; exact and_iff_left hf
  other_grants s hs hf g hk := by
    rw [mem_revoke_guestSessionGrants]
    exact and_iff_left ⟨s, mem_revoke_guestSessions.mpr ⟨hs, hf⟩, hk.symm⟩
  other_challenges c hc := by rw [mem_revoke_guestChallenges]; exact and_iff_left hc
  other_verifications v hv := by rw [mem_revoke_guestVerifications]; exact and_iff_left hv

/-- **Referential integrity and the revocation frame.** After any run of
transactions on a new database, whatever their outcomes, the session
tables hold the same keys, every challenge and verification belongs to a
session bound as it is, no verification outlives its session, and
revoking a pair takes its rows and no others. -/
theorem referential_integrity (sha256 : String → String) (txns : List Txn) :
    Integrity (runFrom sha256 .empty txns) ∧
      ∀ pageId grantId, Revoked (runFrom sha256 .empty txns)
        (revoke (runFrom sha256 .empty txns) pageId grantId) pageId grantId :=
  ⟨integrity_run txns, fun pageId grantId => revoked_revoke _ pageId grantId⟩

end Sessions

end AccessPages
