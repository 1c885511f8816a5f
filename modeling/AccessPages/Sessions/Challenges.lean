import AccessPages.Sessions.Integrity
/-!
# Sessions — how often a one-time code can be guessed

A session has one slot for a challenge. `Effect` is what an event may do
to the slot, over any number of concurrent callers, since every
transaction is one event at most; the store refines it
(`effect_of_event`). The bounds are then facts about a chain of effects:
a challenge is compared at most five times and matched once, the count
survives the exception it is raised with, a second challenge waits a
minute unless the first is gone, and cancelling an older challenge does
nothing.
-/

namespace AccessPages

namespace Sessions

variable {sha256 : String → String} {db : Database} {key : String}

/-! ## Events -/

/-- What a transaction did to the challenges of a session. -/
inductive Event where
  | issued (key pageId grantId challengeId : String) (sentAt : Int)
  | compared (key : String) (matched : Bool)
  | cancelled (key challengeId : String)
  | revoked (pageId grantId : String)
  deriving DecidableEq, Repr

variable (sha256) in
/-- The event of a transaction. A comparison takes place where the guards
of `verify_guest_challenge` pass. -/
def Txn.event (db : Database) : Txn → Option Event
  | .consumeBootstrap .. => none
  | .issueGuestChallenge now draw challengeId token pageId grantId replace =>
      match (Sessions.issueGuestChallenge sha256 db now draw challengeId token pageId grantId
        replace).1 with
      | .ok (some _) => some (.issued (sha256 token) pageId grantId challengeId (timestamp now))
      | _ => none
  | .cancelGuestChallenge token challengeId => some (.cancelled (sha256 token) challengeId)
  | .verifyGuestChallenge now token pageId grantId code grantExpiry =>
      (openChallenge db (sha256 token) pageId grantId (timestamp now) grantExpiry).map
        fun p => .compared (sha256 token) (p.2.codeHash = sha256 code)
  | .revoke pageId grantId => some (.revoked pageId grantId)

variable (sha256) in
/-- The events of a run, in order. -/
def trace (db : Database) : List Txn → List Event
  | [] => []
  | t :: txns => (t.event sha256 db).toList ++ trace (t.apply sha256 db) txns

/-! ## The slot of one session -/

/-- The challenge a session has, if any. -/
def slot (db : Database) (key : String) : Option GuestChallenge := db.guestChallenges.find? key

/-- The event may do something to the slot. -/
def Concerns (key : String) (before : Option GuestChallenge) : Event → Prop
  | .issued k .. => k = key
  | .compared k _ => k = key
  | .cancelled k challengeId => k = key ∧ ∃ c, before = some c ∧ c.challengeId = challengeId
  | .revoked pageId grantId => ∃ c, before = some c ∧ c.pageId = pageId ∧ c.grantId = grantId

/-- What an event does to the slot of one session. -/
inductive Effect (key : String) :
    Event → Option GuestChallenge → Option GuestChallenge → Prop where
  | issue {before : Option GuestChallenge} {r : GuestChallenge} (hattempts : r.attempts = 0)
      (hwait : ∀ c, before = some c →
        60 ≤ r.sentAt - c.sentAt ∧ c.pageId = r.pageId ∧ c.grantId = r.grantId) :
      Effect key (.issued key r.pageId r.grantId r.challengeId r.sentAt) before (some r)
  | miss {r : GuestChallenge} (h : r.attempts < 5) :
      Effect key (.compared key false) (some r) (some { r with attempts := r.attempts + 1 })
  | hit {r : GuestChallenge} (h : r.attempts < 5) : Effect key (.compared key true) (some r) none
  | cancel {r : GuestChallenge} : Effect key (.cancelled key r.challengeId) (some r) none
  | revoke {r : GuestChallenge} : Effect key (.revoked r.pageId r.grantId) (some r) none
  | skip {e : Event} {before : Option GuestChallenge} (h : ¬ Concerns key before e) :
      Effect key e before before

/-- The effects of a list of events, one after another. -/
inductive Chain (key : String) :
    List Event → Option GuestChallenge → Option GuestChallenge → Prop where
  | nil {b : Option GuestChallenge} : Chain key [] b b
  | cons {e : Event} {es : List Event} {a b c : Option GuestChallenge} :
      Effect key e a b → Chain key es b c → Chain key (e :: es) a c

theorem chain_append {s t : List Event} {a c : Option GuestChallenge} :
    Chain key (s ++ t) a c ↔ ∃ b, Chain key s a b ∧ Chain key t b c := by
  induction s generalizing a with
  | nil =>
      constructor
      · exact fun h => ⟨a, .nil, h⟩
      · rintro ⟨b, h, ht⟩
        cases h
        exact ht
  | cons e s ih =>
      constructor
      · intro h
        cases h with
        | cons he h =>
            obtain ⟨b, hs, ht⟩ := ih.mp h
            exact ⟨b, .cons he hs, ht⟩
      · rintro ⟨b, h, ht⟩
        cases h with
        | cons he h => exact .cons he (ih.mpr ⟨b, h, ht⟩)

/-! ## The store refines the slot -/

theorem slot_eq_some {c : GuestChallenge} :
    slot db key = some c ↔ c ∈ db.guestChallenges ∧ c.tokenHash = key := Table.find?_eq_some

/-- A new challenge for a session that still has one is bound as that one
is: both belong to the session. -/
theorem bound_of_liveSession (h : Integrity db) {c : GuestChallenge} {s : GuestSession}
    {pageId grantId : String} {now : Int} (hc : slot db key = some c)
    (hs : liveSession db key pageId grantId now = some s) :
    c.pageId = pageId ∧ c.grantId = grantId := by
  obtain ⟨hmem, hk⟩ := slot_eq_some.mp hc
  obtain ⟨hsm, hsk, hp, hg, -⟩ := liveSession_eq_some.mp hs
  obtain ⟨s', hs', hk', hp', hg'⟩ := h.challenge c hmem
  have : s' = s := Table.eq_of_key_eq hs' hsm (by rw [hk', hk, hsk])
  subst this
  exact ⟨hp'.symm.trans hp, hg'.symm.trans hg⟩

theorem effect_issueGuestChallenge (h : Integrity db) (clock : Instant) (draw : Nat)
    (challengeId token pageId grantId : String) (replace : Bool) :
    let t := Txn.issueGuestChallenge clock draw challengeId token pageId grantId replace
    (t.event sha256 db = none ∧ slot (t.apply sha256 db) key = slot db key) ∨
      ∃ e, t.event sha256 db = some e ∧
        Effect key e (slot db key) (slot (t.apply sha256 db) key) := by
  simp only [Txn.event, Txn.apply]
  rcases issueGuestChallenge_cases clock draw challengeId token pageId grantId replace with
    ⟨r, he, hr⟩ | ⟨⟨s, hs⟩, hwait, he⟩
  · left
    rw [he]
    refine ⟨?_, rfl⟩
    split
    · rename_i c hc
      exact absurd hc (hr c)
    · rfl
  · right
    rw [he]
    refine ⟨_, rfl, ?_⟩
    show Effect _ _ _ (Table.find? _ _)
    rw [Table.find?_insertOrReplace]
    split
    · rename_i hk
      subst hk
      refine Effect.issue (r := issuedRow sha256 clock draw challengeId token pageId grantId) rfl
        fun c hc => ?_
      obtain ⟨hmem, hck⟩ := slot_eq_some.mp hc
      obtain ⟨hp, hg⟩ := bound_of_liveSession h hc hs
      exact ⟨hwait c hmem hck, hp, hg⟩
    · rename_i hk
      exact Effect.skip hk

/-- Counting an attempt changes the one slot. -/
theorem slot_countAttempt {k : String} :
    (countAttempt db.guestChallenges k).find? key =
      if k = key then
        (slot db key).map fun r => { r with attempts := r.attempts + 1 }
      else slot db key := by
  unfold countAttempt
  rw [Table.find?_updateWhere]
  show (slot db key).map _ = _
  cases hc : slot db key with
  | none => simp
  | some c =>
      have hk := (slot_eq_some.mp hc).2
      by_cases h : k = key
      · simp [h, hk]
      · simp [h, hk, Ne.symm h]

theorem effect_verifyGuestChallenge (clock : Instant) (token pageId grantId code : String)
    (grantExpiry : Int) :
    let t := Txn.verifyGuestChallenge clock token pageId grantId code grantExpiry
    (t.event sha256 db = none ∧ slot (t.apply sha256 db) key = slot db key) ∨
      ∃ e, t.event sha256 db = some e ∧
        Effect key e (slot db key) (slot (t.apply sha256 db) key) := by
  simp only [Txn.event, Txn.apply]
  rcases verifyGuestChallenge_cases clock token pageId grantId code grantExpiry with
    ⟨ho, he⟩ | ⟨s, r, ho, ⟨hcode, he⟩ | ⟨hcode, he⟩⟩
  · exact Or.inl ⟨by rw [ho]; rfl, by rw [he]⟩
  · right
    obtain ⟨-, hr, -, -, -, hatt, -⟩ := openChallenge_eq_some.mp ho
    refine ⟨_, by rw [ho]; rfl, ?_⟩
    rw [he]
    show Effect _ _ _ (Table.find? _ _)
    rw [slot_countAttempt]
    by_cases hk : sha256 token = key
    · subst hk
      rw [if_pos rfl, slot_eq_some.mpr hr]
      simpa [hcode] using @Effect.miss (sha256 token) _ hatt
    · rw [if_neg hk]
      exact Effect.skip hk
  · right
    obtain ⟨-, hr, -, -, -, hatt, -⟩ := openChallenge_eq_some.mp ho
    refine ⟨_, by rw [ho]; rfl, ?_⟩
    rw [he]
    show Effect _ _ _ (Table.find? _ _)
    rw [Table.find?_deleteWhere, slot_countAttempt]
    by_cases hk : sha256 token = key
    · subst hk
      rw [if_pos rfl, slot_eq_some.mpr hr, Option.map_some, Option.filter_some,
        if_neg (by simp [hr.2])]
      simpa [hcode] using @Effect.hit (sha256 token) _ hatt
    · rw [if_neg hk]
      cases hc : slot db key with
      | none => exact Effect.skip hk
      | some c =>
          rw [Option.filter_some, if_pos (by simpa [(slot_eq_some.mp hc).2] using Ne.symm hk)]
          exact Effect.skip hk

/-- **Every transaction is an effect on every slot**, or no event and no
change. -/
theorem effect_of_event (h : Integrity db) (t : Txn) (key : String) :
    (t.event sha256 db = none ∧ slot (t.apply sha256 db) key = slot db key) ∨
      ∃ e, t.event sha256 db = some e ∧
        Effect key e (slot db key) (slot (t.apply sha256 db) key) := by
  cases t with
  | consumeBootstrap now token pageId grantId secret expectedHash grantExpires oneTimeUse =>
      refine Or.inl ⟨rfl, ?_⟩
      rcases @consumeBootstrap_cases sha256 db now token pageId grantId secret
        expectedHash grantExpires oneTimeUse with ⟨e, he⟩ | ⟨_, _, _, -, -, -, -, -, -, -, he⟩ <;>
        simp only [Txn.apply, he, slot]
  | issueGuestChallenge now draw challengeId token pageId grantId replace =>
      exact effect_issueGuestChallenge h now draw challengeId token pageId grantId replace
  | cancelGuestChallenge token challengeId =>
      refine Or.inr ⟨_, rfl, ?_⟩
      show Effect _ _ _ ((db.guestChallenges.deleteWhere _).find? key)
      rw [Table.find?_deleteWhere]
      show Effect _ _ _ ((slot db key).filter _)
      cases hc : slot db key with
      | none => exact Effect.skip (by rintro ⟨-, c, hc', -⟩; cases hc')
      | some c =>
          have hck := (slot_eq_some.mp hc).2
          by_cases hp : c.tokenHash = sha256 token ∧ c.challengeId = challengeId
          · rw [Option.filter_some, if_neg (by simp [hp]), ← hp.1, ← hp.2, hck]
            exact Effect.cancel
          · rw [Option.filter_some, if_pos (by simpa using not_and_or.mp hp)]
            refine Effect.skip ?_
            rintro ⟨hk, c', hc', hid⟩
            cases hc'
            exact hp ⟨hck.trans hk.symm, hid⟩
  | verifyGuestChallenge now token pageId grantId code grantExpiry =>
      exact effect_verifyGuestChallenge now token pageId grantId code grantExpiry
  | revoke pageId grantId =>
      refine Or.inr ⟨_, rfl, ?_⟩
      show Effect _ _ _ ((db.guestChallenges.deleteWhere _).find? key)
      rw [Table.find?_deleteWhere]
      show Effect _ _ _ ((slot db key).filter _)
      cases hc : slot db key with
      | none => exact Effect.skip (by rintro ⟨c, hc', -⟩; cases hc')
      | some c =>
          by_cases hp : c.pageId = pageId ∧ c.grantId = grantId
          · rw [Option.filter_some, if_neg (by simp [hp]), ← hp.1, ← hp.2]
            exact Effect.revoke
          · rw [Option.filter_some, if_pos (by simpa using not_and_or.mp hp)]
            refine Effect.skip ?_
            rintro ⟨c', hc', hb⟩
            cases hc'
            exact hp hb

/-- **A run is a chain of effects on every slot.** -/
theorem chain_trace (h : Integrity db) (txns : List Txn) (key : String) :
    Chain key (trace sha256 db txns) (slot db key) (slot (runFrom sha256 db txns) key) := by
  induction txns generalizing db with
  | nil => exact Chain.nil
  | cons t txns ih =>
      have hrest := ih (@integrity_apply sha256 _ h t)
      rcases @effect_of_event sha256 _ h t key with ⟨hn, hs⟩ | ⟨e, he, heff⟩
      · rw [trace, hn, ← hs]
        exact hrest
      · rw [trace, he]
        exact Chain.cons heff hrest

/-! ## Bounds along a chain -/

/-- An event that issues a challenge to the session. -/
def Event.isIssue (key : String) : Event → Bool
  | .issued k .. => k = key
  | _ => false

/-- An event that compares a code with the session's challenge. -/
def Event.isComparison (key : String) : Event → Bool
  | .compared k _ => k = key
  | _ => false

/-- A comparison that succeeds. -/
def Event.isMatch (key : String) : Event → Bool
  | .compared k matched => k = key ∧ matched
  | _ => false

/-- What a stretch with no new challenge can do to the slot. An empty slot
stays empty and nothing is compared. A challenge counts its comparisons,
at most five, and is gone with the one that matches. -/
theorem chain_bound {es : List Event} {before after : Option GuestChallenge}
    (h : Chain key es before after) (hno : ∀ e ∈ es, e.isIssue key = false) :
    (before = none → after = none ∧ es.countP (·.isComparison key) = 0 ∧
      es.countP (·.isMatch key) = 0) ∧
    ∀ r, before = some r → r.attempts ≤ 5 →
      r.attempts + es.countP (·.isComparison key) ≤ 5 ∧ es.countP (·.isMatch key) ≤ 1 ∧
        ∀ r', after = some r' → r'.challengeId = r.challengeId ∧
          r'.attempts = r.attempts + es.countP (·.isComparison key) := by
  induction h with
  | nil => exact ⟨fun h => ⟨h, rfl, rfl⟩, fun r h hr => ⟨hr, Nat.zero_le _,
      fun r' h' => by cases h.symm.trans h'; exact ⟨rfl, rfl⟩⟩⟩
  | @cons e es a b c he hes ih =>
      have ih := ih fun e' he' => hno e' (List.mem_cons_of_mem _ he')
      have hhead := hno e List.mem_cons_self
      simp only [List.countP_cons]
      cases he with
      | issue => simp [Event.isIssue] at hhead
      | @miss r hlt =>
          refine ⟨nofun, fun r₀ h hr => ?_⟩
          cases h
          obtain ⟨h1, h2, h3⟩ := ih.2 _ rfl (by simp only; omega)
          simp only [Event.isComparison, Event.isMatch] at h1 h2 h3 ⊢
          refine ⟨by simp only [decide_true, if_true]; omega, by simpa using h2,
            fun r' hr' => ?_⟩
          obtain ⟨hid, hatt⟩ := h3 r' hr'
          exact ⟨hid, by simp only [decide_true, if_true]; omega⟩
      | @hit r hlt =>
          refine ⟨nofun, fun r₀ h hr => ?_⟩
          cases h
          obtain ⟨h1, h2, h3⟩ := ih.1 rfl
          subst h1
          refine ⟨?_, ?_, fun r' hr' => by cases hr'⟩
          · rw [h2]; simp only [Event.isComparison, decide_true, if_true]; omega
          · rw [h3]; split <;> simp
      | @cancel r =>
          refine ⟨nofun, fun r₀ h hr => ?_⟩
          cases h
          obtain ⟨h1, h2, h3⟩ := ih.1 rfl
          subst h1
          rw [h2, h3]
          exact ⟨by simpa [Event.isComparison] using hr, by simp [Event.isMatch], nofun⟩
      | @revoke r =>
          refine ⟨nofun, fun r₀ h hr => ?_⟩
          cases h
          obtain ⟨h1, h2, h3⟩ := ih.1 rfl
          subst h1
          rw [h2, h3]
          exact ⟨by simpa [Event.isComparison] using hr, by simp [Event.isMatch], nofun⟩
      | skip hskip =>
          have hcmp : e.isComparison key = false := by
            cases e <;> simp_all [Event.isComparison, Concerns]
          have hmat : e.isMatch key = false := by
            cases e <;> simp_all [Event.isMatch, Concerns]
          simpa [hcmp, hmat] using ih

/-- The event takes the session's challenge away, or may: a cancellation
of any challenge of the session, a successful comparison, or the
revocation of the session's pair. -/
def Event.clears (key pageId grantId : String) : Event → Bool
  | .cancelled k _ => k = key
  | .compared k matched => k = key ∧ matched
  | .revoked p g => p = pageId ∧ g = grantId
  | .issued .. => false

/-- A stretch that clears nothing leaves a challenge in the slot, sent no
earlier. -/
theorem chain_wait {es : List Event} {before after : Option GuestChallenge}
    (h : Chain key es before after) {r : GuestChallenge} (hb : before = some r)
    (hno : ∀ e ∈ es, e.clears key r.pageId r.grantId = false) :
    ∃ r', after = some r' ∧ r.sentAt ≤ r'.sentAt := by
  induction h generalizing r with
  | nil => exact ⟨r, hb, le_rfl⟩
  | @cons e es a b c he hes ih =>
      have hhead := hno e List.mem_cons_self
      have htail := fun e' he' => hno e' (List.mem_cons_of_mem _ he')
      subst hb
      cases he with
      | @issue _ r₁ hatt hwait =>
          obtain ⟨hw, hp, hg⟩ := hwait r rfl
          rw [hp, hg] at htail
          obtain ⟨r', hr', hle⟩ := ih rfl htail
          exact ⟨r', hr', by omega⟩
      | @miss _ hlt => exact ih (r := { r with attempts := r.attempts + 1 }) rfl htail
      | hit hlt => simp [Event.clears] at hhead
      | cancel => simp [Event.clears] at hhead
      | revoke => simp [Event.clears] at hhead
      | skip hskip => exact ih rfl htail

/-- The slot right after a challenge is issued. -/
theorem chain_issued {es : List Event} {before after : Option GuestChallenge}
    {pageId grantId challengeId : String} {sentAt : Int}
    (h : Chain key (.issued key pageId grantId challengeId sentAt :: es) before after) :
    ∃ r : GuestChallenge, r.pageId = pageId ∧ r.grantId = grantId ∧
      r.challengeId = challengeId ∧ r.sentAt = sentAt ∧ r.attempts = 0 ∧
      (∀ c, before = some c → 60 ≤ sentAt - c.sentAt) ∧ Chain key es (some r) after := by
  cases h with
  | cons he hes =>
      cases he with
      | @issue _ r hatt hwait =>
          exact ⟨r, rfl, rfl, rfl, rfl, hatt, fun c hc => (hwait c hc).1, hes⟩
      | skip hskip => exact absurd rfl hskip

/-! ## Every run -/

/-- The guess bound of one session over the events and the final database
of a run. -/
structure GuessBound (sha256 : String → String) (events : List Event) (db : Database)
    (key : String) : Prop where
  /-- A challenge is compared at most five times and matched at most once,
  up to the next one issued to the session. -/
  bound : ∀ pre pageId grantId challengeId sentAt es post,
    events = pre ++ .issued key pageId grantId challengeId sentAt :: (es ++ post) →
    (∀ e ∈ es, e.isIssue key = false) →
    es.countP (·.isComparison key) ≤ 5 ∧ es.countP (·.isMatch key) ≤ 1
  /-- While a challenge is stored its row has counted every comparison. -/
  recorded : ∀ pre pageId grantId challengeId sentAt es,
    events = pre ++ .issued key pageId grantId challengeId sentAt :: es →
    (∀ e ∈ es, e.isIssue key = false) → ∀ r ∈ db.guestChallenges, r.tokenHash = key →
    r.challengeId = challengeId ∧ r.attempts = es.countP (·.isComparison key)
  /-- A code is accepted by a comparison that matched, and by nothing else. -/
  accepted : ∀ clock token pageId grantId code grantExpiry, sha256 token = key →
    ((∃ expires, (verifyGuestChallenge sha256 db clock token pageId grantId code grantExpiry).1
        = .ok expires) ↔
      (Txn.verifyGuestChallenge clock token pageId grantId code grantExpiry).event sha256 db
        = some (.compared key true))
  /-- Where nothing is compared the call raises, and changes nothing. -/
  uncompared : ∀ clock token pageId grantId code grantExpiry, sha256 token = key →
    (Txn.verifyGuestChallenge clock token pageId grantId code grantExpiry).event sha256 db = none →
    verifyGuestChallenge sha256 db clock token pageId grantId code grantExpiry
      = (.error codeInvalid, db)
  /-- A failed comparison raises and its attempt is in the database. -/
  raised : ∀ clock token pageId grantId code grantExpiry s r, sha256 token = key →
    openChallenge db key pageId grantId (timestamp clock) grantExpiry = some (s, r) →
    r.codeHash ≠ sha256 code →
    (verifyGuestChallenge sha256 db clock token pageId grantId code grantExpiry).1
      = .error codeInvalid ∧
    { r with attempts := r.attempts + 1 } ∈
      (verifyGuestChallenge sha256 db clock token pageId grantId code
        grantExpiry).2.guestChallenges
  /-- Two challenges with nothing clearing the first between them are a
  minute apart. -/
  apart : ∀ pre pageId₁ grantId₁ id₁ sentAt₁ es pageId₂ grantId₂ id₂ sentAt₂ post,
    events = pre ++ .issued key pageId₁ grantId₁ id₁ sentAt₁ ::
      (es ++ .issued key pageId₂ grantId₂ id₂ sentAt₂ :: post) →
    (∀ e ∈ es, e.clears key pageId₁ grantId₁ = false) → 60 ≤ sentAt₂ - sentAt₁
  /-- Cancelling an older challenge changes nothing. -/
  cancelled : ∀ pre pageId₁ grantId₁ id₁ sentAt₁ mid pageId₂ grantId₂ id₂ sentAt₂ es,
    events = pre ++ .issued key pageId₁ grantId₁ id₁ sentAt₁ ::
      (mid ++ .issued key pageId₂ grantId₂ id₂ sentAt₂ :: es) →
    (∀ e ∈ es, e.isIssue key = false) → id₁ ≠ id₂ →
    ∀ token, sha256 token = key → cancelGuestChallenge sha256 db token id₁ = db

/-- A code is accepted where it is compared and matches. -/
theorem accepted_iff_matched {clock : Instant} {token pageId grantId code : String}
    {grantExpiry : Int} :
    (∃ expires, (verifyGuestChallenge sha256 db clock token pageId grantId code grantExpiry).1
        = .ok expires) ↔
      (Txn.verifyGuestChallenge clock token pageId grantId code grantExpiry).event sha256 db
        = some (.compared (sha256 token) true) := by
  dsimp only [Txn.event]
  rcases @verifyGuestChallenge_cases sha256 db clock token pageId grantId code grantExpiry with
    ⟨hnone, he⟩ | ⟨s, r, hopen, ⟨hcode, he⟩ | ⟨hcode, he⟩⟩
  · rw [he, hnone]
    exact ⟨nofun, nofun⟩
  · rw [he, hopen, Option.map_some, decide_eq_false hcode]
    exact ⟨nofun, nofun⟩
  · rw [he, hopen, Option.map_some, decide_eq_true hcode]
    exact ⟨fun _ => rfl, fun _ => ⟨_, rfl⟩⟩

/-- Without a comparison there is nothing but the exception. -/
theorem eq_of_uncompared {clock : Instant} {token pageId grantId code : String}
    {grantExpiry : Int}
    (h : (Txn.verifyGuestChallenge clock token pageId grantId code grantExpiry).event sha256 db
      = none) :
    verifyGuestChallenge sha256 db clock token pageId grantId code grantExpiry
      = (.error codeInvalid, db) := by
  rcases @verifyGuestChallenge_cases sha256 db clock token pageId grantId code grantExpiry with
    ⟨-, he⟩ | ⟨s, r, hopen, -⟩
  · exact he
  · rw [Txn.event, hopen] at h
    cases h

theorem guessBound_of_chain {events : List Event} {b : Option GuestChallenge}
    (h : Chain key events b (slot db key)) : GuessBound sha256 events db key where
  bound pre pageId grantId challengeId sentAt es post he hno := by
    subst he
    obtain ⟨a, -, hi⟩ := chain_append.mp h
    obtain ⟨r, -, -, -, -, hatt, -, hes⟩ := chain_issued hi
    obtain ⟨c, hes, -⟩ := chain_append.mp hes
    obtain ⟨h1, h2, -⟩ := (chain_bound hes hno).2 r rfl (by omega)
    exact ⟨by omega, h2⟩
  recorded pre pageId grantId challengeId sentAt es he hno r' hr' hk := by
    subst he
    obtain ⟨a, -, hi⟩ := chain_append.mp h
    obtain ⟨r, -, -, hid, -, hatt, -, hes⟩ := chain_issued hi
    obtain ⟨-, -, h3⟩ := (chain_bound hes hno).2 r rfl (by omega)
    obtain ⟨h4, h5⟩ := h3 r' (slot_eq_some.mpr ⟨hr', hk⟩)
    exact ⟨h4.trans hid, by omega⟩
  accepted _ _ _ _ _ _ hk := by
    subst hk
    exact accepted_iff_matched
  uncompared _ _ _ _ _ _ _ h := eq_of_uncompared h
  raised clock token pageId grantId code grantExpiry s r hk ho hcode := by
    subst hk
    rcases @verifyGuestChallenge_cases sha256 db clock token pageId grantId code
      grantExpiry with ⟨hn, -⟩ | ⟨s', r', ho', ⟨-, he⟩ | ⟨hc, -⟩⟩
    · rw [ho] at hn; cases hn
    · obtain ⟨-, ⟨hmem, hrk⟩, -⟩ := openChallenge_eq_some.mp ho
      rw [he]
      exact ⟨rfl, mem_countAttempt.mpr ⟨r, hmem, by simp [hrk]⟩⟩
    · rw [ho] at ho'
      cases ho'
      exact absurd hc hcode
  apart pre pageId₁ grantId₁ id₁ sentAt₁ es pageId₂ grantId₂ id₂ sentAt₂ post he hno := by
    subst he
    obtain ⟨a, -, hi⟩ := chain_append.mp h
    obtain ⟨r, hp, hg, -, hsent, -, -, hes⟩ := chain_issued hi
    obtain ⟨c, hes, hi₂⟩ := chain_append.mp hes
    obtain ⟨r', hr', hle⟩ := chain_wait hes rfl (by rwa [hp, hg])
    obtain ⟨_, -, -, -, -, -, hwait, -⟩ := chain_issued hi₂
    have := hwait r' hr'
    omega
  cancelled pre pageId₁ grantId₁ id₁ sentAt₁ mid pageId₂ grantId₂ id₂ sentAt₂ es he hno hne
      token hk := by
    subst he hk
    obtain ⟨a, -, hi⟩ := chain_append.mp h
    obtain ⟨_, -, -, -, -, -, -, hmid⟩ := chain_issued hi
    obtain ⟨c, -, hi₂⟩ := chain_append.mp hmid
    obtain ⟨r, -, -, hid, -, hatt, -, hes⟩ := chain_issued hi₂
    obtain ⟨-, -, h3⟩ := (chain_bound hes hno).2 r rfl (by omega)
    unfold cancelGuestChallenge
    rw [Table.deleteWhere_eq_self]
    intro r' hr'
    by_cases hk : r'.tokenHash = sha256 token
    · have := (h3 r' (slot_eq_some.mpr ⟨hr', hk⟩)).1
      simp [hk, this, hid, Ne.symm hne]
    · simp [hk]

/-- **The one-time code guess bound.** Over any order of transactions from
any number of callers, every session's challenges are compared at most
five times and matched once each, a code is accepted by such a match
alone, failed comparisons stay counted, challenges are a minute apart
unless the earlier is gone, and cancelling an older one leaves the newer
alone. -/
theorem one_time_code_guess_bound (sha256 : String → String) (txns : List Txn) (key : String) :
    GuessBound sha256 (trace sha256 .empty txns) (runFrom sha256 .empty txns) key :=
  guessBound_of_chain (chain_trace integrity_empty txns key)

end Sessions

end AccessPages
