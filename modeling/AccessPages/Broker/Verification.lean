import AccessPages.Broker.Helpers
import AccessPages.Sessions.Challenges
/-!
# Broker — a verified session was verified

A status of `session_ready` under a grant that asks for verification rests
on a row of `guest_verifications`, and that row on a code check
arbitrarily far back. Reading the log backwards, the row leads to the
check that stored it (`verification_origin`) and the challenge it was
checked against to the request that issued it (`slot_origin`). Neither a
replaced grant nor a restart comes between.
-/

namespace AccessPages

namespace Broker

open Pages (Grant)
open Prog (History Spec)
open Sessions (Database GuestChallenge GuestVerification slot)

variable {sha256 : String → String} {key : String}

/-! ## Issues and comparisons -/

variable (sha256) in
/-- `e`, asked in `w`, issues a challenge to the session. -/
def Op.issues (key : String) (e : Op) (w : World) : Bool :=
  match e with
  | .issueChallenge session pageId grantId replace =>
      sha256 session = key &&
        match (Op.issueChallenge session pageId grantId replace).answer sha256 w with
        | .ok (.ok (some _)) => true
        | _ => false
  | _ => false

variable (sha256) in
/-- `e`, asked in `w`, compares a code with the session's challenge. -/
def Op.compares (key : String) (e : Op) (w : World) : Bool :=
  match e with
  | .verifyChallenge session pageId grantId _ grantExpiry =>
      sha256 session = key ∧ w.fault.isNone ∧
        (Sessions.openChallenge w.db key pageId grantId (timestamp w.clock) grantExpiry).isSome
  | _ => false

/-- A question that does not commit issues and compares nothing. -/
theorem commits_of_issues {e : Op} {w : World}
    (h : e.issues sha256 key w = true ∨ e.compares sha256 key w = true) : w.fault = none := by
  cases hf : w.fault with
  | none => rfl
  | some x =>
      exfalso
      cases e <;> simp_all [Op.issues, Op.compares, Op.answer, Op.step]

/-- **What a question can do to a session's challenge.** It is the one just
issued, or the one there was, with the comparison counted. -/
theorem slot_step {e : Op} {w : World} {r : GuestChallenge}
    (h : slot (e.step sha256 w).2.db key = some r) :
    (∃ session pageId grantId replace code challengeId,
      e = .issueChallenge session pageId grantId replace ∧ sha256 session = key ∧
      (Op.issueChallenge session pageId grantId replace).answer sha256 w =
        .ok (.ok (some (code, challengeId))) ∧ code = Sessions.codeText w.draw ∧
      r = ⟨key, pageId, grantId, challengeId, sha256 code, timestamp w.clock + 600, 0,
        timestamp w.clock⟩) ∨
    e.issues sha256 key w = false ∧ ∃ r₀, slot w.db key = some r₀ ∧
      r = { r₀ with attempts := r₀.attempts + if e.compares sha256 key w then 1 else 0 } := by
  -- what leaves the slot alone and is neither of the two
  have same : slot w.db key = some r → e.issues sha256 key w = false →
      e.compares sha256 key w = false → e.issues sha256 key w = false ∧
        ∃ r₀, slot w.db key = some r₀ ∧
          r = { r₀ with attempts := r₀.attempts + if e.compares sha256 key w then 1 else 0 } :=
    fun hr hi hc => ⟨hi, r, hr, by rw [hc]; rfl⟩
  cases hf : w.fault with
  | some x =>
      have hn : ∀ b : Bool, (b = true → w.fault = none) → b = false := fun b hb => by
        cases b with
        | false => rfl
        | true => cases hf.symm.trans (hb rfl)
      rw [step_db, Op.commits, hf] at h
      exact Or.inr (same h (hn _ fun hi => commits_of_issues (Or.inl hi))
        (hn _ fun hc => commits_of_issues (Or.inr hc)))
  | none =>
  rw [step_db, Op.commits, hf] at h
  cases e with
  | consumeBootstrap pageId grantId secret expectedHash grantExpires oneTimeUse =>
      refine Or.inr (same ?_ rfl rfl)
      rcases @Sessions.consumeBootstrap_cases sha256 w.db w.clock w.token pageId grantId secret
        expectedHash grantExpires oneTimeUse with ⟨e, he⟩ | ⟨_, _, _, -, -, -, -, -, -, -, he⟩ <;>
      · simp only [Op.txn, Option.map_some, Option.getD_some, Sessions.Txn.apply, he] at h
        exact h
  | issueChallenge session pageId grantId replace =>
      simp only [Op.txn, Option.map_some, Option.getD_some, Sessions.Txn.apply] at h
      have hans : (Op.issueChallenge session pageId grantId replace).answer sha256 w =
        .ok (Sessions.issueGuestChallenge sha256 w.db w.clock w.draw w.challengeId session pageId
          grantId replace).1 := answer_eq _ hf
      rcases @Sessions.issueGuestChallenge_cases sha256 w.db w.clock w.draw w.challengeId session
        pageId grantId replace with ⟨a, he, ha⟩ | ⟨-, -, he⟩
      · rw [he] at h hans
        refine Or.inr (same h ?_ rfl)
        simp only [Op.issues, hans, Bool.and_eq_false_iff]
        right
        split
        · rename_i c hc
          cases hc
          exact absurd rfl (ha c)
        · rfl
      · rw [he] at h hans
        change Table.find? _ _ = _ at h
        rw [Table.find?_insertOrReplace] at h
        split at h
        · rename_i hk
          refine Or.inl ⟨session, pageId, grantId, replace, _, _, rfl, hk, hans, rfl, ?_⟩
          rw [← Option.some.inj h, Sessions.issuedRow, ← hk]
          rfl
        · rename_i hk
          refine Or.inr (same h ?_ rfl)
          rw [Op.issues, decide_eq_false (p := sha256 session = key) hk]
          rfl
  | cancelChallenge session challengeId =>
      refine Or.inr (same ?_ rfl rfl)
      change Table.find? (Table.deleteWhere _ _) _ = _ at h
      rw [Table.find?_deleteWhere] at h
      exact (Option.filter_eq_some_iff.mp h).1
  | verifyChallenge session pageId grantId code grantExpiry =>
      simp only [Op.txn, Option.map_some, Option.getD_some, Sessions.Txn.apply] at h
      rcases @Sessions.verifyGuestChallenge_cases sha256 w.db w.clock session pageId grantId code
        grantExpiry with ⟨ho, he⟩ | ⟨s, r', ho, ⟨-, he⟩ | ⟨-, he⟩⟩
      · rw [he] at h
        refine Or.inr (same h rfl ?_)
        simp only [Op.compares, decide_eq_false_iff_not, not_and]
        rintro rfl - hs
        rw [ho] at hs
        cases hs
      · rw [he] at h
        change (Sessions.countAttempt _ _).find? _ = _ at h
        rw [Sessions.slot_countAttempt] at h
        split at h
        · rename_i hk
          obtain ⟨r₀, hr₀, rfl⟩ := Option.map_eq_some_iff.mp h
          refine Or.inr ⟨rfl, r₀, hr₀, ?_⟩
          have : (Op.verifyChallenge session pageId grantId code grantExpiry).compares sha256 key w
              = true := by
            subst hk
            simp [Op.compares, hf, ho]
          rw [this]
          rfl
        · rename_i hk
          refine Or.inr (same h rfl ?_)
          simp [Op.compares, hk]
      · rw [he] at h
        change Table.find? (Table.deleteWhere _ _) _ = _ at h
        rw [Table.find?_deleteWhere, Sessions.slot_countAttempt] at h
        obtain ⟨h, hne⟩ := Option.filter_eq_some_iff.mp h
        split at h
        · rename_i hk
          obtain ⟨r₀, hr₀, rfl⟩ := Option.map_eq_some_iff.mp h
          simp [(Sessions.slot_eq_some.mp hr₀).2, hk] at hne
        · rename_i hk
          refine Or.inr (same h rfl ?_)
          simp [Op.compares, hk]
  | revoke pageId grantId =>
      refine Or.inr (same ?_ rfl rfl)
      change Table.find? (Table.deleteWhere _ _) _ = _ at h
      rw [Table.find?_deleteWhere] at h
      exact (Option.filter_eq_some_iff.mp h).1
  | _ => exact Or.inr (same h rfl rfl)

/-- **Where a session's challenge comes from.** The latest request that
issued one to the session; what was compared since is counted in it. -/
theorem slot_origin {log : History Op World} {db : Database} {now : Instant}
    (h : Traced sha256 .empty log db now) {r : GuestChallenge} (hr : slot db key = some r) :
    ∃ mid session pageId grantId replace code challengeId w pre,
      log = mid ++ (.issueChallenge session pageId grantId replace, w) :: pre ∧
      sha256 session = key ∧
      (Op.issueChallenge session pageId grantId replace).answer sha256 w =
        .ok (.ok (some (code, challengeId))) ∧ code = Sessions.codeText w.draw ∧
      (∀ q ∈ mid, q.1.issues sha256 key q.2 = false) ∧
      r = ⟨key, pageId, grantId, challengeId, sha256 code, timestamp w.clock + 600,
        mid.countP (fun q => q.1.compares sha256 key q.2), timestamp w.clock⟩ := by
  induction h generalizing r with
  | start => exact absurd (Sessions.slot_eq_some.mp hr).1 Table.not_mem_empty
  | @ask log w e h ih =>
      rcases slot_step hr with ⟨session, pageId, grantId, replace, code, challengeId, rfl, hk,
        hans, hcode, rfl⟩ | ⟨hi, r₀, hr₀, rfl⟩
      · exact ⟨[], session, pageId, grantId, replace, code, challengeId, w, log, rfl, hk, hans,
          hcode, fun q hq => absurd hq List.not_mem_nil, rfl⟩
      · obtain ⟨mid, session, pageId, grantId, replace, code, challengeId, w', pre, rfl, hk, hans,
          hcode, hmid, rfl⟩ := ih hr₀
        refine ⟨(e, w) :: mid, session, pageId, grantId, replace, code, challengeId, w', pre, rfl,
          hk, hans, hcode, List.forall_mem_cons.mpr ⟨hi, hmid⟩, ?_⟩
        rw [List.countP_cons]
  | wait h hle ih => exact ih hr

/-- **What a question can do to the verifications.** A new row is that of a
code check that passed. -/
theorem verification_step {e : Op} {w : World} {v : GuestVerification}
    (h : v ∈ (e.step sha256 w).2.db.guestVerifications) :
    v ∈ w.db.guestVerifications ∨
    ∃ session pageId grantId code grantExpiry s r,
      e = .verifyChallenge session pageId grantId code grantExpiry ∧
      (Op.verifyChallenge session pageId grantId code grantExpiry).answer sha256 w =
        .ok (.ok v.expiresAt) ∧
      Sessions.openChallenge w.db (sha256 session) pageId grantId (timestamp w.clock) grantExpiry =
        some (s, r) ∧ r.codeHash = sha256 code ∧
      v = ⟨sha256 session, pageId, grantId,
        min (timestamp w.clock + 12 * 3600) (min s.expiresAt grantExpiry)⟩ := by
  cases hf : w.fault with
  | some x =>
      rw [step_db, Op.commits, hf] at h
      exact Or.inl h
  | none =>
  rw [step_db, Op.commits, hf] at h
  cases e with
  | consumeBootstrap pageId grantId secret expectedHash grantExpires oneTimeUse =>
      left
      rcases @Sessions.consumeBootstrap_cases sha256 w.db w.clock w.token pageId grantId secret
        expectedHash grantExpires oneTimeUse with ⟨e, he⟩ | ⟨_, _, _, -, -, -, -, -, -, -, he⟩ <;>
      · simp only [Op.txn, Option.map_some, Option.getD_some, Sessions.Txn.apply, he] at h
        exact h
  | issueChallenge session pageId grantId replace =>
      left
      rcases @Sessions.issueGuestChallenge_cases sha256 w.db w.clock w.draw w.challengeId session
        pageId grantId replace with ⟨_, he, -⟩ | ⟨-, -, he⟩ <;>
      · simp only [Op.txn, Option.map_some, Option.getD_some, Sessions.Txn.apply, he] at h
        exact h
  | verifyChallenge session pageId grantId code grantExpiry =>
      simp only [Op.txn, Option.map_some, Option.getD_some, Sessions.Txn.apply] at h
      have hans : (Op.verifyChallenge session pageId grantId code grantExpiry).answer sha256 w =
        .ok (Sessions.verifyGuestChallenge sha256 w.db w.clock session pageId grantId code
          grantExpiry).1 := answer_eq _ hf
      rcases @Sessions.verifyGuestChallenge_cases sha256 w.db w.clock session pageId grantId code
        grantExpiry with ⟨-, he⟩ | ⟨s, r, ho, ⟨-, he⟩ | ⟨hcode, he⟩⟩
      · rw [he] at h
        exact Or.inl h
      · rw [he] at h
        exact Or.inl h
      · rw [he] at h hans
        rcases Table.mem_insertOrReplace.mp h with ⟨h, -⟩ | rfl
        · exact Or.inl h
        · exact Or.inr ⟨session, pageId, grantId, code, grantExpiry, s, r, rfl, hans, ho, hcode,
            rfl⟩
  | revoke pageId grantId => exact Or.inl (Sessions.mem_revoke_guestVerifications.mp h).1
  | _ => exact Or.inl h

/-- **Where a verification comes from**: a code check that passed, while the
challenge it was checked against stood. -/
theorem verification_origin {log : History Op World} {db : Database} {now : Instant}
    (h : Traced sha256 .empty log db now) {v : GuestVerification} (hv : v ∈ db.guestVerifications) :
    ∃ post session pageId grantId code grantExpiry w pre s r,
      log = post ++ (.verifyChallenge session pageId grantId code grantExpiry, w) :: pre ∧
      (Op.verifyChallenge session pageId grantId code grantExpiry).answer sha256 w =
        .ok (.ok v.expiresAt) ∧
      Sessions.openChallenge w.db (sha256 session) pageId grantId (timestamp w.clock) grantExpiry =
        some (s, r) ∧ r.codeHash = sha256 code ∧
      v = ⟨sha256 session, pageId, grantId,
        min (timestamp w.clock + 12 * 3600) (min s.expiresAt grantExpiry)⟩ := by
  induction h with
  | start => exact absurd hv Table.not_mem_empty
  | @ask log w e h ih =>
      rcases verification_step hv with hv | ⟨session, pageId, grantId, code, grantExpiry, s, r, rfl,
        hans, ho, hcode, rfl⟩
      · obtain ⟨post, session, pageId, grantId, code, grantExpiry, w', pre, s, r, rfl, hrest⟩ :=
          ih hv
        exact ⟨(e, w) :: post, session, pageId, grantId, code, grantExpiry, w', pre, s, r, rfl,
          hrest⟩
      · exact ⟨[], session, pageId, grantId, code, grantExpiry, w, log, s, r, rfl, hans, ho, hcode,
          rfl⟩
  | wait h hle ih => exact ih hv

/-! ## The clock along the log -/

theorem Traced.clock_le {db₀ : Database} {log : History Op World} {db : Database} {now : Instant}
    (h : Traced sha256 db₀ log db now) : ∀ q ∈ log, q.2.clock ≤ now := by
  intro q hq
  obtain ⟨post, pre, rfl⟩ := List.append_of_mem hq
  exact (h.before rfl).2

theorem Traced.pairwise {db₀ : Database} {log : History Op World} {db : Database} {now : Instant}
    (h : Traced sha256 db₀ log db now) :
    log.Pairwise fun q q' => q'.2.clock ≤ q.2.clock := by
  induction h with
  | start => exact List.Pairwise.nil
  | ask h ih => exact List.Pairwise.cons (fun q hq => h.clock_le q hq) ih
  | wait h hle ih => exact ih

/-! ## Soundness -/

/-- The texts a question has hashed. -/
def Op.hashed (w : World) : Op → List String
  | .consumeBootstrap _ _ secret _ _ _ => [secret, w.token]
  | .sessionInfo session _ => [session]
  | .verifiedUntil session _ _ => [session]
  | .issueChallenge session _ _ _ => [session, Sessions.codeText w.draw]
  | .cancelChallenge session _ => [session]
  | .verifyChallenge session _ _ code _ => [session, code]
  | _ => []

/-- The digest tells the texts of the run apart. -/
def CollisionFree (sha256 : String → String) (log : History Op World) : Prop :=
  ∀ q ∈ log, ∀ q' ∈ log, ∀ x ∈ q.1.hashed q.2, ∀ y ∈ q'.1.hashed q'.2, sha256 x = sha256 y → x = y

/-- At `t₀` a code check of the session passed: with the code of the
challenge issued last, at most ten minutes old and compared fewer than
five times before. -/
def VerifiedAt (sha256 : String → String) (log : History Op World)
    (pageId grantId session : String) (t₀ : Int) : Prop :=
  ∃ post code grantExpiry verified w pre,
    log = post ++ (.verifyChallenge session pageId grantId code grantExpiry, w) :: pre ∧
    (Op.verifyChallenge session pageId grantId code grantExpiry).answer sha256 w =
      .ok (.ok verified) ∧ t₀ = timestamp w.clock ∧
    ∃ mid replace challengeId w' pre',
      pre = mid ++ (.issueChallenge session pageId grantId replace, w') :: pre' ∧
      (Op.issueChallenge session pageId grantId replace).answer sha256 w' =
        .ok (.ok (some (code, challengeId))) ∧
      (∀ q ∈ mid, q.1.issues sha256 (sha256 session) q.2 = false) ∧
      t₀ - timestamp w'.clock ≤ 600 ∧
      mid.countP (fun q => q.1.compares sha256 (sha256 session) q.2) < 5

theorem verifiedAt_of_row {log whole : History Op World} {db : Database} {now : Instant}
    (h : Traced sha256 .empty log db now) (hsub : ∀ q ∈ log, q ∈ whole)
    (hfree : CollisionFree sha256 whole) {pageId grantId session : String} {w₄ : World}
    (hread : (.verifiedUntil session pageId grantId, w₄) ∈ whole) {until_ : Int}
    (hv : (⟨sha256 session, pageId, grantId, until_⟩ : GuestVerification) ∈ db.guestVerifications) :
    ∃ t₀, VerifiedAt sha256 log pageId grantId session t₀ ∧ until_ ≤ t₀ + 12 * 3600 := by
  obtain ⟨post, session', pageId', grantId', code, grantExpiry, w, pre, s, r, rfl, hans, ho, hcode,
    hrow⟩ := verification_origin h hv
  obtain ⟨hkey, rfl, rfl, rfl⟩ := GuestVerification.mk.inj hrow
  -- the same digest, so the same session
  obtain rfl : session = session' :=
    hfree _ hread _ (hsub _ (List.mem_append_right _ List.mem_cons_self)) session
      List.mem_cons_self session' List.mem_cons_self hkey
  obtain ⟨-, hr, hrp, hrg, hexp, hatt, -⟩ := Sessions.openChallenge_eq_some.mp ho
  obtain ⟨hpre, -⟩ := h.before rfl
  obtain ⟨mid, session', pageId', grantId', replace, code', challengeId, w', pre', rfl, hkey',
    hans', hcode', hmid, rfl⟩ := slot_origin hpre (Sessions.slot_eq_some.mpr hr)
  have hissue : ((.issueChallenge session' pageId' grantId' replace, w') : Op × World) ∈ whole :=
    hsub _ (List.mem_append_right _ (List.mem_cons_of_mem _
      (List.mem_append_right _ List.mem_cons_self)))
  obtain rfl : session' = session :=
    hfree _ hissue _ hread session' List.mem_cons_self session List.mem_cons_self hkey'
  obtain rfl : code' = code := by
    refine hfree _ hissue _ (hsub _ (List.mem_append_right _ List.mem_cons_self)) code' ?_ code ?_
      hcode
    · rw [hcode']
      exact List.mem_cons_of_mem _ List.mem_cons_self
    · exact List.mem_cons_of_mem _ List.mem_cons_self
  cases hrp
  cases hrg
  refine ⟨timestamp w.clock, ⟨post, code', grantExpiry, _, w, _, rfl, hans, rfl, mid, replace,
    challengeId, w', pre', rfl, hans', hmid, ?_, hatt⟩, min_le_left _ _⟩
  simp only at hexp
  omega

/-- A session's live verification is a row of the store. -/
theorem mem_of_guestVerifiedUntil {db : Database} {now : Instant} {session pageId grantId : String}
    {v : Int} (h : Sessions.guestVerifiedUntil sha256 db now session pageId grantId = some v) :
    (⟨sha256 session, pageId, grantId, v⟩ : GuestVerification) ∈ db.guestVerifications ∧
      timestamp now < v := by
  unfold Sessions.guestVerifiedUntil at h
  obtain ⟨row, hrow, hif⟩ := Option.bind_eq_some_iff.mp h
  obtain ⟨hmem, hk⟩ := Table.find?_eq_some.mp hrow
  obtain ⟨⟨rfl, rfl, hlt⟩, hv⟩ := Option.ite_none_right_eq_some.mp hif
  cases hv
  rw [← hk]
  exact ⟨hmem, hlt⟩

variable [Python]

/-- What a ready status rests on. Its reads found the session bound to the
grant and neither expired; and if the grant asks for verification, a
check of the session's latest code had passed, and the time the status
read lies before the end of the twelve hours, of the session and of the
grant, which also bound the expiry it reports. -/
def RestsOnVerification (sha256 : String → String) (log history : History Op World)
    (pageId grantId session : String) (r : SessionResult) : Prop :=
  ∃ w₀ w₁ w₂ w₃ grant stored expiry l,
    history = l ++ boundReads pageId session w₀ w₁ w₂ w₃ [] ∧
    Bound sha256 pageId grantId session w₀ w₁ w₂ w₃ grant stored expiry ∧
    (grant.verificationRequired = true → ∃ w₄ later earlier t₀,
      l = [(.verifiedUntil session pageId grantId, w₄)] ∧
      log = later ++ (.verifiedUntil session pageId grantId, w₄) :: earlier ∧
      VerifiedAt sha256 earlier pageId grantId session t₀ ∧
      w₃.clock < (t₀ + 12 * 3600) * second ∧ w₃.clock < stored * second ∧
      w₃.clock < expiry * second ∧
      r.expiresAt ≤ t₀ + 12 * 3600 ∧ r.expiresAt ≤ stored ∧ r.expiresAt ≤ expiry)

/-- **A session is only reported ready if it was verified.** In any run of
the broker from a new session database, over any interleaving of
requests, changes to grants, faults and restarts, with a clock that does
not go back, every status request that returns `session_ready` rests on a
verification where its grant asks for one. -/
theorem email_verification_sound (sha256 : String → String) (w : World)
    (ms : List (Move Request (World × Nat))) :
    let P := (machine sha256).play (.new { w with db := .empty }) ms
    CollisionFree sha256 P.log →
    ∀ t ∈ P.threads, ∀ pageId grantId session r,
      t.request = .status pageId grantId session →
      t.prog = .ret (.ok (.status (some r))) → r.status = .sessionReady →
      RestsOnVerification sha256 P.log t.history pageId grantId session r := by
  intro P hfree t ht pageId grantId session r hreq hret hready
  have htraced : Traced sha256 .empty P.log P.world.db P.world.clock :=
    traced_play { w with db := .empty } ms
  have hlog : t.history.Sublist P.log := Machine.logged_play _ ms t ht
  have hserves := Machine.serves_play _ ms t ht
  obtain ⟨request, history, prog⟩ := t
  cases hreq
  have hstatus : Status sha256 pageId grantId session [] (.ok (some r)) history := by
    refine hserves.spec (Φ := fun _ _ => True)
      (Q := fun a h => ∀ r, a = .ok (.status (some r)) →
        Status sha256 pageId grantId session [] (.ok (some r)) h) (Prog.spec_except_map.mpr ?_) hret r rfl
    refine spec_guestSessionStatus (fun _ _ _ => trivial) fun a h ha r hr => ?_
    cases a with
    | error x => cases hr
    | ok a => cases hr; exact ha
  cases hstatus with
  | @«open» w₀ w₁ w₂ w₃ grant stored expiry hbound hrequired =>
      refine ⟨w₀, w₁, w₂, w₃, grant, stored, expiry, [], rfl, hbound, fun h => ?_⟩
      rw [hrequired] at h
      cases h
  | pending => cases hready
  | @verified w₀ w₁ w₂ w₃ w₄ grant stored expiry v hbound hrequired hv =>
      refine ⟨w₀, w₁, w₂, w₃, grant, stored, expiry, [_], rfl, hbound, fun _ => ?_⟩
      have hread : ((.verifiedUntil session pageId grantId, w₄) : Op × World) ∈ P.log :=
        hlog.subset List.mem_cons_self
      obtain ⟨later, log, hsplit⟩ := List.append_of_mem hread
      obtain ⟨hrow, hlive⟩ := mem_of_guestVerifiedUntil hv
      obtain ⟨t₀, hat, hle⟩ := verifiedAt_of_row (htraced.before hsplit).1
        (fun q hq => by rw [hsplit]; exact List.mem_append_right _ (List.mem_cons_of_mem _ hq))
        hfree hread hrow
      have hclock : w₃.clock ≤ w₄.clock :=
        List.rel_of_pairwise_cons (htraced.pairwise.sublist hlog) List.mem_cons_self
      have hbefore := lt_mul_second_of_timestamp_lt (lt_of_lt_of_le hlive hle)
      have hlive₃ := hbound.live
      refine ⟨w₄, later, log, t₀, rfl, hsplit, hat, lt_of_le_of_lt hclock hbefore, ?_, ?_, ?_, ?_,
        ?_⟩
      · exact lt_of_lt_of_le hlive₃ (Int.mul_le_mul_of_nonneg_right (min_le_left _ _) (by decide))
      · exact lt_of_lt_of_le hlive₃ (Int.mul_le_mul_of_nonneg_right (min_le_right _ _) (by decide))
      · exact (min_le_right _ _).trans hle
      · exact (min_le_left _ _).trans (min_le_left _ _)
      · exact (min_le_left _ _).trans (min_le_right _ _)

/-- A visit to the gate: the exchange, a code by mail, the check, and a
status. -/
def gateVisit : List (Move Request (World × Nat)) :=
  let visit (i : Nat) (r : Request) (n : Nat) : List (Move Request (World × Nat)) :=
    .start r :: List.replicate n (.ask i)
  visit 0 (.exchange "gate" gateGrant.id "door-invitation-000000000000000000000000000") 7 ++
    visit 1 (.requestVerification "gate" gateGrant.id "guest-cookie-1" false) 17 ++
    visit 2 (.verifyCode "gate" gateGrant.id "guest-cookie-1" "042137") 14 ++
    visit 3 (.status "gate" gateGrant.id "guest-cookie-1") 5

def gateVisited : BrokerPool :=
  letI := Python.plain
  (machine gateDigest).play (.new { gateWorld with db := .empty }) gateVisit

/-- The texts hashed on the way. -/
def gateTexts : List String :=
  ["door-invitation-000000000000000000000000000", "guest-cookie-1", "042137"]

/-- What a status thread was asked, and answered. -/
def statusOf (t : Thread Request Op Op.Ans (Except Exc Reply) World) :
    Option (String × String × String × SessionResult) :=
  match t.request, t.prog with
  | .status pageId grantId session, .ret (.ok (.status (some r))) =>
      some (pageId, grantId, session, r)
  | _, _ => none

omit [Python] in
theorem eq_of_statusOf {t : Thread Request Op Op.Ans (Except Exc Reply) World}
    {pageId grantId session : String} {r : SessionResult}
    (h : statusOf t = some (pageId, grantId, session, r)) :
    t.request = .status pageId grantId session ∧ t.prog = .ret (.ok (.status (some r))) := by
  unfold statusOf at h
  split at h
  · rename_i hr hp
    cases h
    exact ⟨hr, hp⟩
  · cases h

/-- The status after the visit. -/
def gateStatus : SessionResult := ⟨"gate", gateGrant.id, 1893456000 + 12 * 3600, .sessionReady⟩

omit [Python] in
theorem email_verification_sound_gate :
    letI := Python.plain
    gateVisited.world.db.guestVerifications.rows.length = 1 ∧
      ∃ t ∈ gateVisited.threads, t.prog = .ret (.ok (.status (some gateStatus))) ∧
        RestsOnVerification gateDigest gateVisited.log t.history "gate" gateGrant.id
          "guest-cookie-1" gateStatus := by
  have hfree : CollisionFree gateDigest gateVisited.log := by
    have htexts : ∀ q ∈ gateVisited.log, ∀ x ∈ q.1.hashed q.2, x ∈ gateTexts := by decide +kernel
    have hinj : ∀ x ∈ gateTexts, ∀ y ∈ gateTexts, gateDigest x = gateDigest y → x = y := by
      decide +kernel
    exact fun q hq q' hq' x hx y hy => hinj x (htexts q hq x hx) y (htexts q' hq' y hy)
  have hanswer : ∃ t ∈ gateVisited.threads,
      statusOf t = some ("gate", gateGrant.id, "guest-cookie-1", gateStatus) := by decide +kernel
  obtain ⟨t, ht, hstatus⟩ := hanswer
  obtain ⟨hreq, hret⟩ := eq_of_statusOf hstatus
  refine ⟨by decide +kernel, t, ht, hret, ?_⟩
  exact @email_verification_sound Python.plain gateDigest gateWorld gateVisit hfree t ht _ _ _ _
    hreq hret rfl

end Broker

end AccessPages
