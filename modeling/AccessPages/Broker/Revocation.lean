import AccessPages.Broker.Helpers
import AccessPages.Sessions.Integrity
/-!
# Broker — no session outlives a completed revocation

An exchange reads the grant, opens the session and reads the grant again;
a revocation finds the grant gone and deletes the sessions. Whoever opens
a session of a grant that is gone owes its deletion, and so does the
cleanup request from its start. Each pays before it is done, whatever
the order, so when all are done nothing is left.
-/

namespace AccessPages

namespace Broker

open Pages (Page Grant)
open Prog (History Spec)
open Sessions (Database Txn)
open Machine (Debt Covered)

variable {sha256 : String → String} {pageId grantId : String}

/-- No session, challenge or verification of the pair is left. -/
structure NoRows (pageId grantId : String) (db : Database) : Prop where
  sessions : ∀ s ∈ db.guestSessions, ¬ (s.pageId = pageId ∧ s.grantId = grantId)
  challenges : ∀ c ∈ db.guestChallenges, ¬ (c.pageId = pageId ∧ c.grantId = grantId)
  verifications : ∀ v ∈ db.guestVerifications, ¬ (v.pageId = pageId ∧ v.grantId = grantId)

variable (sha256) in
/-- `e`, asked in `w`, opens a session of the pair. -/
def Op.Inserts (pageId grantId : String) (e : Op) (w : World) : Prop :=
  match e with
  | .consumeBootstrap p g secret expectedHash grantExpires oneTimeUse =>
      p = pageId ∧ g = grantId ∧ ∃ r, (Op.consumeBootstrap p g secret expectedHash grantExpires
        oneTimeUse).answer sha256 w = .ok (.ok r)
  | _ => False

/-! ## The store -/

theorem noRows_revoke (db : Database) : NoRows pageId grantId (Sessions.revoke db pageId grantId)
    where
  sessions _ hs := (Sessions.mem_revoke_guestSessions.mp hs).2
  challenges _ hc := (Sessions.mem_revoke_guestChallenges.mp hc).2
  verifications _ hv := (Sessions.mem_revoke_guestVerifications.mp hv).2

/-- With no session of the pair, none of it is live. -/
theorem NoRows.liveSession {db : Database} (h : NoRows pageId grantId db) {key p g : String}
    {now : Int} {s : Sessions.GuestSession}
    (hs : Sessions.liveSession db key p g now = some s) : ¬ (p = pageId ∧ g = grantId) := by
  obtain ⟨hmem, -, rfl, rfl, -⟩ := Sessions.liveSession_eq_some.mp hs
  exact h.sessions s hmem

/-- Only opening a session brings rows of the pair. -/
theorem noRows_step {e : Op} {w : World} (h : NoRows pageId grantId w.db)
    (hi : ¬ e.Inserts sha256 pageId grantId w) :
    NoRows pageId grantId (e.step sha256 w).2.db := by
  cases hf : w.fault with
  | some x =>
      rw [step_db, Op.commits, hf]
      exact h
  | none =>
  rw [step_db, Op.commits, hf]
  cases e with
  | consumeBootstrap p g secret expectedHash grantExpires oneTimeUse =>
      show NoRows pageId grantId (Sessions.consumeBootstrap sha256 w.db w.clock w.token p g secret
        expectedHash grantExpires oneTimeUse).2
      rcases Sessions.consumeBootstrap_cases w.clock w.token p g secret expectedHash grantExpires
        oneTimeUse with ⟨e, he⟩ | ⟨_, sessions, _, -, -, -, -, -, hs, -, he⟩
      · rw [he]; exact h
      · have hne : ¬ (p = pageId ∧ g = grantId) := fun hpg =>
          hi ⟨hpg.1, hpg.2, _, by rw [answer_eq _ hf]; exact congrArg (Except.ok ·.1) he⟩
        rw [he]
        refine ⟨fun s hsm => ?_, h.challenges, h.verifications⟩
        rcases ((Table.insert_eq_some hs).2 s).mp hsm with hsm | rfl
        · exact h.sessions s hsm
        · exact hne
  | issueChallenge session p g replace =>
      show NoRows pageId grantId (Sessions.issueGuestChallenge sha256 w.db w.clock w.draw
        w.challengeId session p g replace).2
      rcases Sessions.issueGuestChallenge_cases w.clock w.draw w.challengeId session p g replace
        with ⟨_, he, -⟩ | ⟨⟨s, hs⟩, -, he⟩
      · rw [he]; exact h
      · rw [he]
        refine ⟨h.sessions, fun c hc => ?_, h.verifications⟩
        rcases Table.mem_insertOrReplace.mp hc with ⟨hc, -⟩ | rfl
        · exact h.challenges c hc
        · exact h.liveSession hs
  | cancelChallenge session challengeId =>
      exact ⟨h.sessions, fun c hc => h.challenges c (Table.mem_deleteWhere.mp hc).1,
        h.verifications⟩
  | verifyChallenge session p g code grantExpiry =>
      show NoRows pageId grantId (Sessions.verifyGuestChallenge sha256 w.db w.clock session p g
        code grantExpiry).2
      rcases Sessions.verifyGuestChallenge_cases w.clock session p g code grantExpiry with
        ⟨-, he⟩ | ⟨s, r, ho, ⟨-, he⟩ | ⟨-, he⟩⟩
      · rw [he]; exact h
      · rw [he]
        refine ⟨h.sessions, fun c hc => ?_, h.verifications⟩
        obtain ⟨c', hc', rfl⟩ := Sessions.exists_of_mem_countAttempt hc
        exact h.challenges c' hc'
      · rw [he]
        refine ⟨h.sessions, fun c hc => ?_, fun v hv => ?_⟩
        · exact h.challenges c (Sessions.mem_countAttempt_deleteWhere.mp hc).1
        · rcases Table.mem_insertOrReplace.mp hv with ⟨hv, -⟩ | rfl
          · exact h.verifications v hv
          · exact h.liveSession (Sessions.openChallenge_eq_some.mp ho).1
  | revoke p g =>
      exact ⟨fun s hs => h.sessions s (Sessions.mem_revoke_guestSessions.mp hs).1,
        fun c hc => h.challenges c (Sessions.mem_revoke_guestChallenges.mp hc).1,
        fun v hv => h.verifications v (Sessions.mem_revoke_guestVerifications.mp hv).1⟩
  | _ => exact h

/-! ## What each request owes -/

variable (sha256) in
/-- A thread opened a session and neither deleted it nor found the grant
still there. -/
abbrev Owes (pageId grantId : String) (owing : Prop) : History Op World → Prop :=
  Debt (Op.Inserts sha256 pageId grantId) (· = .revoke pageId grantId) (World.Gone pageId grantId)
    owing

section Owes

variable {owing : Prop} {h : History Op World}

theorem not_owes_cons {e : Op} {w : World} (hh : ¬ Owes sha256 pageId grantId owing h)
    (he : ¬ e.Inserts sha256 pageId grantId w) :
    ¬ Owes sha256 pageId grantId owing ((e, w) :: h) :=
  fun hd => hd.elim he fun hd => hh hd.1

/-- A read that finds the grant clears the debt: the session is wanted. -/
theorem not_owes_of_not_gone {e : Op} {w : World} (hw : ¬ w.Gone pageId grantId)
    (he : ¬ e.Inserts sha256 pageId grantId w) :
    ¬ Owes sha256 pageId grantId owing ((e, w) :: h) :=
  fun hd => hd.elim he fun hd => hw hd.2.2

theorem not_owes_revoke {w : World} :
    ¬ Owes sha256 pageId grantId owing ((.revoke pageId grantId, w) :: h) :=
  fun hd => hd.elim id fun hd => hd.2.1 rfl

end Owes

/-- The worlds in which the page's grants were read. -/
def grantReads (pageId : String) (h : History Op World) : List World :=
  h.filterMap fun q =>
    match q.1 with
    | .loadGrants p => if p = pageId then some q.2 else none
    | _ => none

@[simp] theorem grantReads_load {h : History Op World} {w : World} :
    grantReads pageId ((.loadGrants pageId, w) :: h) = w :: grantReads pageId h := by
  simp [grantReads]

theorem grantReads_other {h : History Op World} {e : Op} {w : World} (he : e ≠ .loadGrants pageId) :
    grantReads pageId ((e, w) :: h) = grantReads pageId h := by
  cases e <;> simp_all [grantReads]

theorem grantReads_append {l h : History Op World} :
    grantReads pageId (l ++ h) = grantReads pageId l ++ grantReads pageId h := List.filterMap_append

theorem of_mem_grantReads {A : World → Prop} {h : History Op World} (hA : ∀ q ∈ h, A q.2)
    {w : World} (hw : w ∈ grantReads pageId h) : A w := by
  obtain ⟨q, hq, hqw⟩ := List.mem_filterMap.mp hw
  have : q.2 = w := by
    split at hqw
    · split at hqw
      · exact Option.some.inj hqw
      · cases hqw
    · cases hqw
  exact this ▸ hA q hq

/-- What an exchange has done when it is done: it owes nothing, and if it
returns a session, both its reads found the grant. -/
def ExchangeDone (sha256 : String → String) (pageId grantId : String)
    (r : Except Exc (Option (SessionResult × String))) (h : History Op World) : Prop :=
  ¬ Owes sha256 pageId grantId False h ∧
    ∀ s, r = .ok (some s) →
      2 ≤ (grantReads pageId h).length ∧ ∀ w ∈ grantReads pageId h, ¬ w.Gone pageId grantId

theorem exchangeDone_none {r : Except Exc (Option (SessionResult × String))}
    {h : History Op World} (hr : ∀ s, r ≠ .ok (some s)) (hh : ¬ Owes sha256 pageId grantId False h) :
    ExchangeDone sha256 pageId grantId r h :=
  ⟨hh, fun s hs => absurd hs (hr s)⟩

variable [Python]

omit [Python] in
theorem spec_revoked {h : History Op World} :
    Spec (Op.answer sha256) (fun _ _ => True) (exchangeGuestBootstrap.revoked pageId grantId).run h
      (ExchangeDone sha256 pageId grantId) := by
  unfold exchangeGuestBootstrap.revoked
  rw [Prog.spec_except_bind, spec_revoke]
  refine ⟨trivial, fun w => ?_⟩
  cases (Op.revoke pageId grantId).answer sha256 w <;>
    exact exchangeDone_none (by simp) not_owes_revoke

/-- The second read settles the exchange, whatever it owed before. -/
theorem spec_confirm {h : History Op World} {grant : Grant} {session : String} {stored : Int}
    (hread : 1 ≤ (grantReads pageId h).length)
    (hfound : ∀ w ∈ grantReads pageId h, ¬ w.Gone pageId grantId) :
    Spec (Op.answer sha256) (fun _ _ => True)
      (exchangeGuestBootstrap.confirm pageId grantId grant session stored).run h
      (ExchangeDone sha256 pageId grantId) := by
  unfold exchangeGuestBootstrap.confirm
  rw [Prog.spec_except_bind]
  refine spec_currentGuestGrant (fun _ _ _ => trivial) fun r h' hcur => ?_
  cases hcur with
  | missing => exact spec_revoked
  | expired => exact spec_revoked
  | raised hgone => exact exchangeDone_none (by simp) (not_owes_of_not_gone hgone id)
  | clockRaised hgone =>
      exact exchangeDone_none (by simp) (not_owes_cons (not_owes_of_not_gone hgone id) id)
  | @current w w' current expiry hgone _ _ _ =>
  dsimp only
  split
  · exact spec_revoked
  -- the grant is there again, so nothing is owed and both reads have found it
  have hclear : ¬ Owes sha256 pageId grantId False
      ((.time, w') :: (.loadGrants pageId, w) :: h) :=
    not_owes_cons (not_owes_of_not_gone hgone id) id
  have hreads : grantReads pageId ((.time, w') :: (.loadGrants pageId, w) :: h) =
      w :: grantReads pageId h := by
    rw [grantReads_other (by simp), grantReads_load]
  have hboth : 2 ≤ (w :: grantReads pageId h).length ∧
      ∀ w₁ ∈ w :: grantReads pageId h, ¬ w₁.Gone pageId grantId :=
    ⟨Nat.succ_le_succ hread, List.forall_mem_cons.mpr ⟨hgone, hfound⟩⟩
  rw [Prog.spec_except_bind]
  refine spec_guestSessionResult (fun _ _ _ => trivial) fun r h'' hres => ?_
  cases hres with
  | «open» =>
      exact ⟨hclear, fun _ _ => by rw [hreads]; exact hboth⟩
  | verified | pending =>
      exact ⟨not_owes_cons hclear id, fun _ _ => by
        rw [grantReads_other (by simp), hreads]; exact hboth⟩
  | raised => exact exchangeDone_none (by simp) (not_owes_cons hclear id)

theorem spec_exchangeGuestBootstrap (bootstrap : String) :
    Spec (Op.answer sha256) (fun _ _ => True)
      (exchangeGuestBootstrap sha256 pageId grantId bootstrap).run []
      (ExchangeDone sha256 pageId grantId) := by
  unfold exchangeGuestBootstrap
  rw [Prog.spec_except_bind]
  refine spec_currentGuestGrant (fun _ _ _ => trivial) fun r h' hcur => ?_
  have h₁ : ¬ Owes sha256 pageId grantId False h' := by
    cases hcur <;> simp [Owes, Debt, Op.Inserts]
  cases hcur with
  | missing | expired | raised | clockRaised => exact exchangeDone_none (by simp) h₁
  | @current w₁ w₂ grant expiry hgone _ _ _ =>
  dsimp only
  split
  · exact exchangeDone_none (by simp) h₁
  rw [Prog.spec_except_bind, spec_ask]
  refine ⟨trivial, fun w₃ => ?_⟩
  have h₃ := @not_owes_cons sha256 _ _ _ _ (.allowSession (pageId ++ ":" ++ grantId)) w₃ h₁ id
  cases (Op.allowSession (pageId ++ ":" ++ grantId)).answer sha256 w₃ with
  | error x => exact exchangeDone_none (by simp) h₃
  | ok allowed =>
  dsimp only
  split
  · exact exchangeDone_none (by simp) h₃
  split
  · exact exchangeDone_none (by simp) h₃
  rename_i expires _
  rw [Prog.spec_except_bind, spec_ask]
  refine ⟨trivial, fun w₄ => ?_⟩
  -- a call that raises opens nothing
  have hfail : (∀ r, (Op.consumeBootstrap pageId grantId bootstrap grant.tokenHash expires
      grant.oneTimeUse).answer sha256 w₄ ≠ .ok (.ok r)) →
      ¬ Owes sha256 pageId grantId False ((.consumeBootstrap pageId grantId bootstrap
        grant.tokenHash expires grant.oneTimeUse, w₄) ::
          [(.allowSession (pageId ++ ":" ++ grantId), w₃), (.time, w₂),
            (.loadGrants pageId, w₁)]) := fun hne =>
    not_owes_cons h₃ fun ⟨_, _, r, hr⟩ => hne r hr
  cases hc : (Op.consumeBootstrap pageId grantId bootstrap grant.tokenHash expires
      grant.oneTimeUse).answer sha256 w₄ with
  | error x => exact exchangeDone_none (by simp) (hfail fun r hr => nomatch hc.symm.trans hr)
  | ok consumed =>
  cases consumed with
  | error e =>
      have h₄ := hfail fun r hr => nomatch hc.symm.trans hr
      cases e <;> exact exchangeDone_none (by simp) h₄
  | ok opened =>
      obtain ⟨session, stored⟩ := opened
      refine spec_confirm ?_ ?_ <;>
        simp [grantReads, hgone]

/-- The request that cleans up after the grant. -/
def cleanupPayload (pageId grantId : String) : List (String × Json) :=
  [("page_id", .str pageId), ("grant_id", .str grantId)]

theorem spec_revokeGuestSessions (hpage : Pages.pageIdRe pageId = true)
    (hgrant : Pages.grantIdRe grantId = true) :
    Spec (Op.answer sha256) (fun _ _ => True)
      (revokeGuestSessions (cleanupPayload pageId grantId)).run []
      fun _ h => ¬ Owes sha256 pageId grantId True h := by
  have hcheck : (∀ k ∈ (cleanupPayload pageId grantId).map Prod.fst,
      k ∈ ["page_id", "grant_id"]) ∧ Pages.pageIdRe pageId = true ∧
        Pages.grantIdRe grantId = true := by
    simp [cleanupPayload, hpage, hgrant]
  have hp : Json.get? (cleanupPayload pageId grantId) "page_id" = some (.str pageId) := rfl
  have hg : Json.get? (cleanupPayload pageId grantId) "grant_id" = some (.str grantId) := rfl
  unfold revokeGuestSessions
  simp only [hp, hg, if_pos hcheck]
  rw [Prog.spec_except_bind]
  refine spec_currentGuestGrant (fun _ _ _ => trivial) fun r h' hcur => ?_
  cases hcur with
  | missing | expired => exact ⟨trivial, fun w => not_owes_revoke⟩
  | raised hgone => exact not_owes_of_not_gone hgone id
  | clockRaised hgone | current hgone => exact not_owes_cons (not_owes_of_not_gone hgone id) id

/-! ## The run -/

/-- Before the removal: exchanges of the grant start and go on, and
anything may change or fail. -/
def Exchanging (pageId grantId : String) : Move Request (World × Nat) → Prop
  | .start r => ∃ bootstrap, r = .exchange pageId grantId bootstrap
  | _ => True

/-- From the removal on: the grant stays gone, and no store fails and no
process crashes. -/
def Withdrawn (pageId grantId : String) : Move Request (World × Nat) → Prop
  | .start r => ∃ bootstrap, r = .exchange pageId grantId bootstrap
  | .ask _ => True
  | .change c => c.1.Gone pageId grantId
  | .restart => False

/-- The moves after the removal. -/
def Withdrawal (pageId grantId : String) (m : Move Request (World × Nat)) : Prop :=
  Withdrawn pageId grantId m ∨ m = .start (.revokeSessions (cleanupPayload pageId grantId))

omit [Python] in
theorem gone_step {e : Op} {w : World} (h : w.Gone pageId grantId) :
    ((e.step sha256 w).2).Gone pageId grantId := by
  unfold World.Gone
  rw [step_fault, step_grants]
  exact h

theorem gone_move {P : BrokerPool}
    {m : Move Request (World × Nat)} (hm : Withdrawal pageId grantId m)
    (h : P.world.Gone pageId grantId) :
    ((machine sha256).move P m).world.Gone pageId grantId := by
  cases m with
  | start r => exact h
  | ask i =>
      rcases (machine sha256).ask_cases P i with he | ⟨_, _, e, _, -, -, he⟩
      · rw [he]; exact h
      · rw [he]; exact gone_step h
  | change c => exact hm.elim id nofun
  | restart => exact h

/-- Every request of the run, by what it owes from its start. -/
def owesFrom (pageId grantId : String) (r : Request) : Prop :=
  r = .revokeSessions (cleanupPayload pageId grantId)

variable (sha256) in
/-- The store is clean, or a thread owes its cleaning. -/
abbrev Accounted (pageId grantId : String)
    (P : BrokerPool) : Prop :=
  Covered (Op.Inserts sha256 pageId grantId) (· = .revoke pageId grantId)
    (World.Gone pageId grantId) (fun w => NoRows pageId grantId w.db) (owesFrom pageId grantId) P

theorem accounted_move {P : BrokerPool}
    {m : Move Request (World × Nat)} (hm : Withdrawn pageId grantId m)
    (hgone : P.world.Gone pageId grantId) (h : Accounted sha256 pageId grantId P) :
    Accounted sha256 pageId grantId ((machine sha256).move P m) := by
  cases m with
  | start r =>
      exact h.imp id fun ⟨t, ht, hd⟩ => ⟨t, List.mem_append_left _ ht, hd⟩
  | ask i =>
      refine Machine.covered_ask (fun e w hw he => ?_) (fun e w hw he => noRows_step hw he) hgone h i
      subst he
      show NoRows pageId grantId ((Op.revoke pageId grantId).step sha256 w).2.db
      rw [step_db, Op.commits, hw.1]
      exact noRows_revoke w.db
  | change c => exact h
  | restart => exact hm.elim

/-- A thread of the run that is done owes nothing. -/
theorem not_owes_of_done {t : Thread Request Op Op.Ans (Except Exc Reply) World}
    (hserves : (machine sha256).Serves t)
    (hrequest : (∃ bootstrap, t.request = .exchange pageId grantId bootstrap) ∨
      owesFrom pageId grantId t.request)
    (hpage : Pages.pageIdRe pageId = true) (hgrant : Pages.grantIdRe grantId = true)
    {a : Except Exc Reply} (ha : t.prog = .ret a) :
    ¬ Owes sha256 pageId grantId (owesFrom pageId grantId t.request) t.history := by
  obtain ⟨request, history, prog⟩ := t
  rcases hrequest with ⟨bootstrap, rfl⟩ | rfl
  · have howes : owesFrom pageId grantId (.exchange pageId grantId bootstrap) = False :=
      eq_false (by simp [owesFrom])
    rw [howes]
    refine hserves.spec (Φ := fun _ _ => True)
      (Q := fun _ h => ¬ Owes sha256 pageId grantId False h) (Prog.spec_except_map.mpr ?_) ha
    exact Prog.spec_mono (spec_exchangeGuestBootstrap bootstrap) fun _ _ h => h.1
  · have howes : owesFrom pageId grantId (.revokeSessions (cleanupPayload pageId grantId)) = True :=
      eq_true rfl
    rw [howes]
    refine hserves.spec (Φ := fun _ _ => True)
      (Q := fun _ h => ¬ Owes sha256 pageId grantId True h) (Prog.spec_except_map.mpr ?_) ha
    exact spec_revokeGuestSessions hpage hgrant

/-- An exchange that returned a session read the grant twice and found it. -/
theorem reads_of_session {t : Thread Request Op Op.Ans (Except Exc Reply) World}
    (hserves : (machine sha256).Serves t) {bootstrap : String}
    (hrequest : t.request = .exchange pageId grantId bootstrap) {s : SessionResult × String}
    (ht : t.prog = .ret (.ok (.session (some s)))) :
    2 ≤ (grantReads pageId t.history).length ∧
      ∀ w ∈ grantReads pageId t.history, ¬ w.Gone pageId grantId := by
  obtain ⟨request, history, prog⟩ := t
  cases hrequest
  refine hserves.spec (Φ := fun _ _ => True)
    (Q := fun r h => ∀ s, r = .ok (.session (some s)) → 2 ≤ (grantReads pageId h).length ∧
      ∀ w ∈ grantReads pageId h, ¬ w.Gone pageId grantId) (Prog.spec_except_map.mpr ?_) ht s rfl
  refine Prog.spec_mono (spec_exchangeGuestBootstrap bootstrap) fun r h hdone s hs => ?_
  cases r with
  | error x => cases hs
  | ok r =>
      cases hs
      exact hdone.2 s rfl

/-- **No session outlives a completed revocation.** Any number of exchanges
of a grant run while it is removed from the administrator's store and one
cleanup request for it follows. When all are done the store holds no
session, challenge or verification of the pair; and an exchange that
returned a session had made both its grant reads before the removal. -/
theorem no_session_outlives_revocation (sha256 : String → String) (w : World) (page : Page)
    (grant : Grant) (before middle after : List (Move Request (World × Nat)))
    (removal : World × Nat) (hbefore : ∀ m ∈ before, Exchanging page.id grant.id m)
    (hremoval : removal.1.Gone page.id grant.id)
    (hmiddle : ∀ m ∈ middle, Withdrawn page.id grant.id m)
    (hafter : ∀ m ∈ after, Withdrawn page.id grant.id m) :
    let P₁ := (machine sha256).play (.new w) before
    let P₂ := (machine sha256).play P₁ (.change removal ::
      (middle ++ .start (.revokeSessions (cleanupPayload page.id grant.id)) :: after))
    (∀ t ∈ P₂.threads, ∃ a, t.prog = .ret a) →
    NoRows page.id grant.id P₂.world.db ∧
      ∀ (i : Nat) t bootstrap s, P₂.threads[i]? = some t →
        t.request = .exchange page.id grant.id bootstrap →
        t.prog = .ret (.ok (.session (some s))) →
        ∃ t₁, P₁.threads[i]? = some t₁ ∧ 2 ≤ (grantReads page.id t₁.history).length := by
  intro P₁ P₂ hdone
  have hrun : P₂ = (machine sha256).play (.new w) (before ++ .change removal ::
      (middle ++ .start (.revokeSessions (cleanupPayload page.id grant.id)) :: after)) := by
    rw [Machine.play_append]
  have hserves : ∀ t ∈ P₂.threads, (machine sha256).Serves t := by
    rw [hrun]
    exact Machine.serves_play w _
  have hlater : ∀ m ∈ middle ++ .start (.revokeSessions (cleanupPayload page.id grant.id)) :: after,
      Withdrawal page.id grant.id m := by
    intro m hm
    rcases List.mem_append.mp hm with hm | hm
    · exact Or.inl (hmiddle m hm)
    rcases List.mem_cons.mp hm with rfl | hm
    · exact Or.inr rfl
    · exact Or.inl (hafter m hm)
  have hrequests : ∀ t ∈ P₂.threads,
      (∃ bootstrap, t.request = .exchange page.id grant.id bootstrap) ∨
        owesFrom page.id grant.id t.request := by
    rw [hrun]
    refine Machine.requests_play (C := fun r =>
      (∃ bootstrap, r = .exchange page.id grant.id bootstrap) ∨ owesFrom page.id grant.id r)
      fun r hr => ?_
    rcases List.mem_append.mp hr with hr | hr
    · exact Or.inl (hbefore _ hr)
    rcases List.mem_cons.mp hr with hr | hr
    · cases hr
    · exact (hlater _ hr).imp id fun h => by cases h; rfl
  constructor
  · -- the cleanup request covers whatever is open when it starts
    have hmid : ((machine sha256).play P₁ (.change removal :: middle)).world.Gone page.id grant.id := by
      rw [Machine.play_cons]
      exact Machine.play_invariant (I := fun P : BrokerPool => P.world.Gone page.id grant.id)
        (fun _ _ hm h => gone_move hm h) (fun m hm => Or.inl (hmiddle m hm)) hremoval
    have hend : P₂.world.Gone page.id grant.id ∧ Accounted sha256 page.id grant.id P₂ := by
      have hsplit : P₂ = (machine sha256).play ((machine sha256).move
          ((machine sha256).play P₁ (.change removal :: middle))
          (.start (.revokeSessions (cleanupPayload page.id grant.id)))) after := by
        rw [← Machine.play_cons, ← Machine.play_append, List.cons_append]
      rw [hsplit]
      refine Machine.play_invariant
        (I := fun P : BrokerPool => P.world.Gone page.id grant.id ∧ Accounted sha256 page.id grant.id P)
        (fun P m hm h => ⟨gone_move (Or.inl hm) h.1, accounted_move hm h.1 h.2⟩) hafter ?_
      exact ⟨hmid, Machine.covered_start rfl⟩
    refine Machine.settled_of_covered hend.2 fun t ht => ?_
    obtain ⟨a, ha⟩ := hdone t ht
    exact not_owes_of_done (hserves t ht) (hrequests t ht) page.id_re grant.id_re ha
  · intro i t bootstrap s hi hreq hs
    obtain ⟨htwo, hfound⟩ := reads_of_session (hserves t (List.mem_of_getElem? hi)) hreq hs
    obtain ⟨l, hl, hist⟩ := Machine.history_play (A := World.Gone page.id grant.id)
      (fun _ _ hm h => gone_move hm h) (by rintro (h | h) <;> cases h) hlater
      (P := (machine sha256).move P₁ (.change removal)) hremoval hi
    -- what was read after the removal did not find the grant, so nothing was
    have hnone : grantReads page.id l = [] := by
      refine List.eq_nil_iff_forall_not_mem.mpr fun w' hw' => ?_
      refine hfound w' ?_ (of_mem_grantReads hl hw')
      rw [hist, grantReads_append]
      exact List.mem_append_left _ hw'
    rw [hist, grantReads_append, hnone, List.nil_append] at htwo
    cases hi₁ : P₁.threads[i]? with
    | none =>
        have : ((machine sha256).move P₁ (.change removal)).threads[i]? = none := hi₁
        rw [this] at htwo
        exact absurd htwo (by simp [grantReads])
    | some t₁ =>
        have : ((machine sha256).move P₁ (.change removal)).threads[i]? = some t₁ := hi₁
        rw [this] at htwo
        exact ⟨t₁, rfl, htwo⟩

/-- The gate's world without the grant. -/
def gateClosed : World := { gateWorld with grants := fun _ => .ok { gatePage with accessGrants := [] } }

/-- An exchange has opened its session. -/
def gateBefore : List (Move Request (World × Nat)) :=
  [.start (.exchange gatePage.id gateGrant.id "door-invitation-000000000000000000000000000"),
    .ask 0, .ask 0, .ask 0, .ask 0]

/-- Then the grant goes; the cleanup request runs, and the exchange after it. -/
def gateAfter : List (Move Request (World × Nat)) := [.ask 1, .ask 1, .ask 0, .ask 0]

def gateOpened : BrokerPool :=
  letI := Python.plain
  (machine gateDigest).play (.new gateWorld) gateBefore

def gateCleaned : BrokerPool :=
  letI := Python.plain
  (machine gateDigest).play gateOpened (.change (gateClosed, 1) ::
    ([] ++ .start (.revokeSessions (cleanupPayload gatePage.id gateGrant.id)) :: gateAfter))

/-- Whether a program is done. -/
def isDone {α : Type} : Prog Op Op.Ans α → Bool
  | .ret _ => true
  | .op _ _ => false

omit [Python] in
theorem no_session_outlives_revocation_gate :
    gateOpened.world.db.guestSessions.rows.length = 1 ∧
      NoRows gatePage.id gateGrant.id gateCleaned.world.db := by
  have hdone : ∀ t ∈ gateCleaned.threads, isDone t.prog = true := by decide +kernel
  refine ⟨by decide +kernel, ?_⟩
  refine (@no_session_outlives_revocation Python.plain gateDigest gateWorld gatePage gateGrant
    gateBefore [] gateAfter (gateClosed, 1) ?_ ?_ ?_ ?_ ?_).1
  · simp [gateBefore, Exchanging]
  · exact ⟨rfl, rfl⟩
  · simp
  · simp [gateAfter, Withdrawn]
  · intro t ht
    have := hdone t ht
    cases hp : t.prog with
    | ret a => exact ⟨a, rfl⟩
    | op e k =>
        rw [hp] at this
        cases this

end Broker

end AccessPages
