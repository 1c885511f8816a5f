import AccessPages.Broker.Requests
/-!
# Broker — what a check has read

One lemma for each of the checks every guest request makes, saying which
reads it performs, in which order, and what they must have answered for
it to pass. The results about requests read these and never unfold a
check.
-/

namespace AccessPages

namespace Broker

open Pages (Page Grant)
open Prog (History Spec)

section Rules

variable {sha256 : String → String} {Φ : History Op World → Op → Prop} {h : History Op World}

@[simp] theorem spec_ask {e : Op} {Q : Except Exc e.Res → History Op World → Prop} :
    Spec (Op.answer sha256) Φ (ask e).run h Q ↔
      Φ h e ∧ ∀ w, Q (e.answer sha256 w) ((e, w) :: h) := Iff.rfl

@[simp] theorem spec_time {Q : Except Exc Instant → History Op World → Prop} :
    Spec (Op.answer sha256) Φ time.run h Q ↔
      Φ h .time ∧ ∀ w, Q (Op.time.answer sha256 w) ((.time, w) :: h) := Iff.rfl

@[simp] theorem spec_revoke {pageId grantId : String}
    {Q : Except Exc Unit → History Op World → Prop} :
    Spec (Op.answer sha256) Φ (revoke pageId grantId).run h Q ↔
      Φ h (.revoke pageId grantId) ∧
        ∀ w, Q ((Op.revoke pageId grantId).answer sha256 w) ((.revoke pageId grantId, w) :: h) :=
  Iff.rfl

@[simp] theorem spec_emitGuestEvent {pageId grantId : String} {event : GuestEvent}
    {Q : Except Exc Unit → History Op World → Prop} :
    Spec (Op.answer sha256) Φ (emitGuestEvent pageId grantId event).run h Q ↔
      Φ h (.emit pageId grantId event) ∧
        ∀ w, Q ((Op.emit pageId grantId event).answer sha256 w)
          ((.emit pageId grantId event, w) :: h) := Iff.rfl

end Rules

/-- The reads a check consists of. -/
def Op.isCheck : Op → Bool
  | .loadGrants _ | .time | .sessionInfo .. | .verifiedUntil .. => true
  | _ => false

/-! ## The current grant -/

/-- The grant the administrator's store holds under the id. -/
def World.grant? (w : World) (pageId grantId : String) : Option Grant :=
  match w.grants pageId with
  | .ok page => page.accessGrants.find? (·.id = grantId)
  | .error _ => none

/-- The store answers, and has no such grant. -/
def World.Gone (pageId grantId : String) (w : World) : Prop :=
  w.fault = none ∧
    match w.grants pageId with
    | .ok page => page.accessGrants.find? (·.id = grantId) = none
    | .error (.python _) => False
    | .error _ => True

variable [Python]

/-- What `_current_guest_grant` may return, and what it has read by then. -/
inductive CurrentGrant (pageId grantId : String) (h : History Op World) :
    Except Exc (Option (Grant × Int)) → History Op World → Prop where
  | missing {w : World} (hgone : w.Gone pageId grantId) :
      CurrentGrant pageId grantId h (.ok none) ((.loadGrants pageId, w) :: h)
  | expired {w w' : World} (hgone : ¬ w.Gone pageId grantId) :
      CurrentGrant pageId grantId h (.ok none) ((.time, w') :: (.loadGrants pageId, w) :: h)
  | current {w w' : World} {grant : Grant} {expiry : Int} (hgone : ¬ w.Gone pageId grantId)
      (hgrant : w.grant? pageId grantId = some grant) (hexpiry : grantExpiry grant = .ok expiry)
      (hlive : w'.clock < expiry * second) :
      CurrentGrant pageId grantId h (.ok (some (grant, expiry)))
        ((.time, w') :: (.loadGrants pageId, w) :: h)
  | raised {w : World} {x : Exc} (hgone : ¬ w.Gone pageId grantId) :
      CurrentGrant pageId grantId h (.error x) ((.loadGrants pageId, w) :: h)
  | clockRaised {w w' : World} {x : Exc} (hgone : ¬ w.Gone pageId grantId) :
      CurrentGrant pageId grantId h (.error x) ((.time, w') :: (.loadGrants pageId, w) :: h)

variable {sha256 : String → String} {Φ : History Op World → Op → Prop} {h : History Op World}
variable {pageId grantId session : String}

theorem spec_currentGuestGrant {Q : Except Exc (Option (Grant × Int)) → History Op World → Prop}
    (hΦ : ∀ h e, e.isCheck = true → Φ h e)
    (hQ : ∀ r h', CurrentGrant pageId grantId h r h' → Q r h') :
    Spec (Op.answer sha256) Φ (currentGuestGrant pageId grantId).run h Q := by
  unfold currentGuestGrant
  rw [Prog.spec_except_bind, spec_ask]
  refine ⟨hΦ _ _ rfl, fun w => ?_⟩
  cases hf : w.fault with
  | some x =>
      have : (Op.loadGrants pageId).answer sha256 w = .error x := by
        unfold Op.answer Op.step; rw [hf]
      rw [this]
      exact hQ _ _ (.raised fun hg => by rw [hg.1] at hf; cases hf)
  | none =>
      have hr : (Op.loadGrants pageId).answer sha256 w = .ok (w.grants pageId) := answer_eq _ hf
      rw [hr]
      dsimp only
      cases hg : w.grants pageId with
      | error e =>
          cases e with
          | python e => exact hQ _ _ (.raised fun hgone => by simp [World.Gone, hg] at hgone)
          | _ => exact hQ _ _ (.missing ⟨hf, by rw [hg]; trivial⟩)
      | ok page =>
          dsimp only
          cases hfind : page.accessGrants.find? (·.id = grantId) with
          | none => exact hQ _ _ (.missing ⟨hf, by rw [hg]; exact hfind⟩)
          | some grant =>
              have hgone : ¬ w.Gone pageId grantId := by
                rintro ⟨-, hgone⟩
                rw [hg] at hgone
                exact absurd (hfind.symm.trans hgone) (by simp)
              dsimp only
              rw [Prog.spec_except_bind, Prog.spec_except_lift]
              cases hexp : grantExpiry grant with
              | error x => exact hQ _ _ (.raised hgone)
              | ok expiry =>
                  dsimp only
                  rw [Prog.spec_except_bind, spec_time]
                  refine ⟨hΦ _ _ rfl, fun w' => ?_⟩
                  cases hclock : Op.time.answer sha256 w' with
                  | error x => exact hQ _ _ (.clockRaised hgone)
                  | ok now =>
                      obtain ⟨-, rfl⟩ := answer_eq_ok hclock
                      dsimp only [Op.result]
                      split
                      · exact hQ _ _ (.expired hgone)
                      · rename_i hlt
                        refine hQ _ _ (.current hgone ?_ hexp (not_le.mp hlt))
                        rw [World.grant?, hg]
                        exact hfind

/-! ## The session -/

/-- What `_guest_session_result` may return, and what it has read by then. -/
inductive Checked (sha256 : String → String) (pageId grantId session : String) (expiry : Int)
    (grant : Grant) (h : History Op World) :
    Except Exc SessionResult → History Op World → Prop where
  | open (hrequired : grant.verificationRequired = false) :
      Checked sha256 pageId grantId session expiry grant h
        (.ok ⟨pageId, grantId, expiry, .sessionReady⟩) h
  | verified {w : World} {v : Int} (hrequired : grant.verificationRequired = true)
      (hv : Sessions.guestVerifiedUntil sha256 w.db w.clock session pageId grantId = some v) :
      Checked sha256 pageId grantId session expiry grant h
        (.ok ⟨pageId, grantId, min expiry v, .sessionReady⟩)
        ((.verifiedUntil session pageId grantId, w) :: h)
  | pending {w : World} (hrequired : grant.verificationRequired = true) :
      Checked sha256 pageId grantId session expiry grant h
        (.ok ⟨pageId, grantId, expiry, .verificationRequired⟩)
        ((.verifiedUntil session pageId grantId, w) :: h)
  | raised {w : World} {x : Exc} :
      Checked sha256 pageId grantId session expiry grant h (.error x)
        ((.verifiedUntil session pageId grantId, w) :: h)

omit [Python] in
theorem spec_guestSessionResult {expiry : Int} {grant : Grant}
    {Q : Except Exc SessionResult → History Op World → Prop}
    (hΦ : ∀ h e, e.isCheck = true → Φ h e)
    (hQ : ∀ r h', Checked sha256 pageId grantId session expiry grant h r h' → Q r h') :
    Spec (Op.answer sha256) Φ
      (guestSessionResult pageId grantId expiry grant session).run h Q := by
  unfold guestSessionResult
  cases hreq : grant.verificationRequired with
  | false => exact hQ _ _ (.open hreq)
  | true =>
  rw [if_pos rfl, Prog.spec_except_bind, spec_ask]
  refine ⟨hΦ _ _ rfl, fun w => ?_⟩
  cases hw : (Op.verifiedUntil session pageId grantId).answer sha256 w with
  | error x => exact hQ _ _ .raised
  | ok verified =>
  obtain ⟨-, hv⟩ := answer_eq_ok hw
  dsimp only
  -- a stored expiry of zero counts as none
  cases hz : verified.filter (· ≠ 0) with
  | none => exact hQ _ _ (.pending hreq)
  | some v =>
      refine hQ _ _ (.verified hreq ?_)
      rw [← (Option.filter_eq_some_iff.mp hz).1]
      exact hv.symm

/-- The reads of a session that passes: the row is bound to the page and
the grant, the grant is the one it was opened with, and neither has
expired. -/
structure Bound (sha256 : String → String) (pageId grantId session : String)
    (w₀ w₁ w₂ w₃ : World) (grant : Grant) (stored expiry : Int) : Prop where
  info : Sessions.guestSessionInfo sha256 w₀.db w₀.clock session pageId =
    some (grantId, stored, grant.tokenHash)
  found : w₁.grant? pageId grantId = some grant
  expires : grantExpiry grant = .ok expiry
  grantLive : w₂.clock < expiry * second
  live : w₃.clock < min stored expiry * second

/-- The history of those reads. -/
def boundReads (pageId session : String) (w₀ w₁ w₂ w₃ : World) (h : History Op World) :
    History Op World :=
  (.time, w₃) :: (.time, w₂) :: (.loadGrants pageId, w₁) :: (.sessionInfo session pageId, w₀) :: h

/-- What `_guest_session_status` may return, and what it has read by then. -/
inductive Status (sha256 : String → String) (pageId grantId session : String)
    (h : History Op World) : Except Exc (Option SessionResult) → History Op World → Prop where
  | refused {l : History Op World} : Status sha256 pageId grantId session h (.ok none) (l ++ h)
  | raised {x : Exc} {l : History Op World} :
      Status sha256 pageId grantId session h (.error x) (l ++ h)
  | open {w₀ w₁ w₂ w₃ : World} {grant : Grant} {stored expiry : Int}
      (hbound : Bound sha256 pageId grantId session w₀ w₁ w₂ w₃ grant stored expiry)
      (hrequired : grant.verificationRequired = false) :
      Status sha256 pageId grantId session h
        (.ok (some ⟨pageId, grantId, min stored expiry, .sessionReady⟩))
        (boundReads pageId session w₀ w₁ w₂ w₃ h)
  | verified {w₀ w₁ w₂ w₃ w₄ : World} {grant : Grant} {stored expiry v : Int}
      (hbound : Bound sha256 pageId grantId session w₀ w₁ w₂ w₃ grant stored expiry)
      (hrequired : grant.verificationRequired = true)
      (hv : Sessions.guestVerifiedUntil sha256 w₄.db w₄.clock session pageId grantId = some v) :
      Status sha256 pageId grantId session h
        (.ok (some ⟨pageId, grantId, min (min stored expiry) v, .sessionReady⟩))
        ((.verifiedUntil session pageId grantId, w₄) :: boundReads pageId session w₀ w₁ w₂ w₃ h)
  | pending {w₀ w₁ w₂ w₃ w₄ : World} {grant : Grant} {stored expiry : Int}
      (hbound : Bound sha256 pageId grantId session w₀ w₁ w₂ w₃ grant stored expiry)
      (hrequired : grant.verificationRequired = true) :
      Status sha256 pageId grantId session h
        (.ok (some ⟨pageId, grantId, min stored expiry, .verificationRequired⟩))
        ((.verifiedUntil session pageId grantId, w₄) :: boundReads pageId session w₀ w₁ w₂ w₃ h)

theorem spec_guestSessionStatus {Q : Except Exc (Option SessionResult) → History Op World → Prop}
    (hΦ : ∀ h e, e.isCheck = true → Φ h e)
    (hQ : ∀ r h', Status sha256 pageId grantId session h r h' → Q r h') :
    Spec (Op.answer sha256) Φ (guestSessionStatus pageId grantId session).run h Q := by
  have refused : ∀ l, Q (.ok none) (l ++ h) := fun l => hQ _ _ .refused
  have raised : ∀ x l, Q (.error x) (l ++ h) := fun x l => hQ _ _ .raised
  unfold guestSessionStatus
  rw [Prog.spec_except_bind, spec_ask]
  refine ⟨hΦ _ _ rfl, fun w₀ => ?_⟩
  cases h₀ : (Op.sessionInfo session pageId).answer sha256 w₀ with
  | error x => exact raised x [_]
  | ok info =>
  obtain ⟨-, hinfo⟩ := answer_eq_ok h₀
  dsimp only
  cases info with
  | none => exact refused [_]
  | some info =>
  obtain ⟨boundGrant, stored, grantHash⟩ := info
  dsimp only
  split
  · exact refused [_]
  rename_i hgrant
  rw [Prog.spec_except_bind]
  refine spec_currentGuestGrant hΦ fun r h' hcur => ?_
  cases hcur with
  | missing => exact refused [_, _]
  | expired => exact refused [_, _, _]
  | raised => exact raised _ [_, _]
  | clockRaised => exact raised _ [_, _, _]
  | @current w₁ w₂ grant expiry _ hfound hexpiry hlive =>
  dsimp only
  split
  · exact refused [_, _, _]
  rename_i hhash
  rw [Prog.spec_except_bind, spec_time]
  refine ⟨hΦ _ _ rfl, fun w₃ => ?_⟩
  cases h₃ : Op.time.answer sha256 w₃ with
  | error x => exact raised x [_, _, _, _]
  | ok now =>
  obtain ⟨-, rfl⟩ := answer_eq_ok h₃
  dsimp only [Op.result]
  split
  · exact refused [_, _, _, _]
  rename_i hnow
  have hbound : Bound sha256 pageId grantId session w₀ w₁ w₂ w₃ grant stored expiry :=
    { info := by
        rw [← not_not.mp hgrant, ← not_not.mp hhash]
        exact hinfo.symm
      found := hfound
      expires := hexpiry
      grantLive := hlive
      live := not_le.mp hnow }
  rw [Prog.spec_except_bind]
  refine spec_guestSessionResult hΦ fun r h' hres => ?_
  cases hres with
  | «open» hreq => exact hQ _ _ (.open hbound hreq)
  | verified hreq hv => exact hQ _ _ (.verified hbound hreq hv)
  | pending hreq => exact hQ _ _ (.pending hbound hreq)
  | raised => exact raised _ [_, _, _, _, _]

end Broker

end AccessPages
