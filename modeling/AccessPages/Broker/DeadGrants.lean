import AccessPages.Broker.Helpers
/-!
# Broker — whose sessions are deleted

`_current_guest_grant` answers `None` for a grant that is absent, one that
has expired and one that could not be read, and two callers delete the
sessions of the grant on that answer. Here a read has an outcome of its
own beside what the store holds: a page that is held may be unreadable,
and it is not found either where its file cannot be tested for. The
sessions of a live grant are deleted exactly when the deciding read
raised, so the two differ there and nowhere else.
-/

namespace AccessPages

namespace Broker

open Pages (Page Grant PageError)
open Prog (History Spec)

/-! ## The store and a read of it -/

/-- A world, and the grants the administrator's store holds of each page. A
read that succeeds returns them; one that raises says nothing of them. -/
structure Moment where
  world : World
  held : String → List Grant
  nodup : ∀ p, ((held p).map (·.id)).Nodup
  read : ∀ p page, world.grants p = .ok page → page.accessGrants = held p

/-- The read of the page raises one of the exceptions that count as no
grant: `PageNotFoundError`, `PageConfigError` or `OSError`. -/
def Moment.Unreadable (m : Moment) (pageId : String) : Prop :=
  m.world.fault = none ∧
    match m.world.grants pageId with
    | .error (.python _) => False
    | .error _ => True
    | .ok _ => False

/-- What an operation of a request answers. -/
def Op.answerAt (sha256 : String → String) (e : Op) (m : Moment) : e.Ans := e.answer sha256 m.world

theorem spec_askAt {sha256 : String → String} {Φ : History Op Moment → Op → Prop}
    {h : History Op Moment} {e : Op} {Q : Except Exc e.Res → History Op Moment → Prop} :
    Spec (Op.answerAt sha256) Φ (ask e).run h Q ↔
      Φ h e ∧ ∀ m, Q (e.answerAt sha256 m) ((e, m) :: h) := Iff.rfl

theorem spec_timeAt {sha256 : String → String} {Φ : History Op Moment → Op → Prop}
    {h : History Op Moment} {Q : Except Exc Instant → History Op Moment → Prop} :
    Spec (Op.answerAt sha256) Φ time.run h Q ↔
      Φ h .time ∧ ∀ m, Q (Op.time.answerAt sha256 m) ((.time, m) :: h) := Iff.rfl

theorem spec_revokeAt {sha256 : String → String} {Φ : History Op Moment → Op → Prop}
    {h : History Op Moment} {pageId grantId : String}
    {Q : Except Exc Unit → History Op Moment → Prop} :
    Spec (Op.answerAt sha256) Φ (revoke pageId grantId).run h Q ↔
      Φ h (.revoke pageId grantId) ∧ ∀ m, Q ((Op.revoke pageId grantId).answerAt sha256 m)
        ((.revoke pageId grantId, m) :: h) := Iff.rfl

theorem eq_of_find? {m : Moment} {pageId grantId : String} {grant : Grant}
    (hf : (m.held pageId).find? (·.id = grantId) = some grant) :
    ∀ g ∈ m.held pageId, g.id = grantId → g = grant := by
  intro g hg hid
  have hgrant : grant.id = grantId := by simpa using List.find?_some hf
  exact List.inj_on_of_nodup_map (m.nodup pageId) hg (List.mem_of_find?_eq_some hf)
    (hid.trans hgrant.symm)

section Live

variable [Python]

/-- A grant has not expired; the broker counts in whole seconds. -/
def Live (g : Grant) (now : Instant) : Prop := ∃ e, grantExpiry g = .ok e ∧ now < e * second

/-- The store holds an unexpired grant under the id, of the kind. -/
def Moment.Holds (m : Moment) (pageId grantId : String) (kind : Grant → Prop) (now : Instant) :
    Prop :=
  ∃ g ∈ m.held pageId, g.id = grantId ∧ Live g now ∧ kind g

/-! ## What the check has read -/

/-- What `_current_guest_grant` may return, by what the store held. -/
inductive Verdict (pageId grantId : String) (h : History Op Moment) :
    Except Exc (Option (Grant × Int)) → History Op Moment → Prop where
  | unreadable {m : Moment} (hm : m.Unreadable pageId) :
      Verdict pageId grantId h (.ok none) ((.loadGrants pageId, m) :: h)
  | absent {m : Moment} (hread : ¬ m.Unreadable pageId)
      (hnone : ∀ g ∈ m.held pageId, g.id ≠ grantId) :
      Verdict pageId grantId h (.ok none) ((.loadGrants pageId, m) :: h)
  | expired {m m' : Moment} {grant : Grant}
      (hone : ∀ g ∈ m.held pageId, g.id = grantId → g = grant)
      (hdead : ¬ Live grant m'.world.clock) :
      Verdict pageId grantId h (.ok none) ((.time, m') :: (.loadGrants pageId, m) :: h)
  | current {m m' : Moment} {grant : Grant} {expiry : Int}
      (hone : ∀ g ∈ m.held pageId, g.id = grantId → g = grant) :
      Verdict pageId grantId h (.ok (some (grant, expiry)))
        ((.time, m') :: (.loadGrants pageId, m) :: h)
  | raised {m : Moment} {x : Exc} (hread : ¬ m.Unreadable pageId) :
      Verdict pageId grantId h (.error x) ((.loadGrants pageId, m) :: h)
  | clockRaised {m m' : Moment} {x : Exc} :
      Verdict pageId grantId h (.error x) ((.time, m') :: (.loadGrants pageId, m) :: h)

variable {sha256 : String → String} {Φ : History Op Moment → Op → Prop} {h : History Op Moment}
variable {pageId grantId : String}

theorem spec_verdict {Q : Except Exc (Option (Grant × Int)) → History Op Moment → Prop}
    (hload : Φ h (.loadGrants pageId)) (htime : ∀ m, ¬ m.Unreadable pageId →
      Φ ((.loadGrants pageId, m) :: h) .time)
    (hQ : ∀ r h', Verdict pageId grantId h r h' → Q r h') :
    Spec (Op.answerAt sha256) Φ (currentGuestGrant pageId grantId).run h Q := by
  unfold currentGuestGrant
  rw [Prog.spec_except_bind, spec_askAt]
  refine ⟨hload, fun m => ?_⟩
  cases hf : m.world.fault with
  | some x =>
      have hans : Op.answerAt sha256 (.loadGrants pageId) m = .error x := by
        unfold Op.answerAt Op.answer Op.step
        rw [hf]
      rw [hans]
      exact hQ _ _ (.raised fun hm => by rw [hm.1] at hf; cases hf)
  | none =>
      have hans : Op.answerAt sha256 (.loadGrants pageId) m = .ok (m.world.grants pageId) :=
        answer_eq _ hf
      rw [hans]
      cases hg : m.world.grants pageId with
      | error e =>
          cases e with
          | python e =>
              exact hQ _ _ (.raised fun hm => by simp [Moment.Unreadable, hg] at hm)
          | notFound what => exact hQ _ _ (.unreadable ⟨hf, by rw [hg]; trivial⟩)
          | config message => exact hQ _ _ (.unreadable ⟨hf, by rw [hg]; trivial⟩)
          | os => exact hQ _ _ (.unreadable ⟨hf, by rw [hg]; trivial⟩)
          | database => exact hQ _ _ (.unreadable ⟨hf, by rw [hg]; trivial⟩)
      | ok page =>
          have hread : ¬ m.Unreadable pageId := fun hm => by simp [Moment.Unreadable, hg] at hm
          dsimp only
          rw [m.read pageId page hg]
          cases hfind : (m.held pageId).find? (·.id = grantId) with
          | none =>
              refine hQ _ _ (.absent hread fun g hmem hid => ?_)
              exact absurd (List.find?_eq_none.mp hfind g hmem) (by simp [hid])
          | some grant =>
              dsimp only
              rw [Prog.spec_except_bind, Prog.spec_except_lift]
              cases hexp : grantExpiry grant with
              | error x => exact hQ _ _ (.raised hread)
              | ok expiry =>
                  dsimp only
                  rw [Prog.spec_except_bind, spec_timeAt]
                  refine ⟨htime m hread, fun m' => ?_⟩
                  cases hclock : Op.answerAt sha256 .time m' with
                  | error x => exact hQ _ _ .clockRaised
                  | ok now =>
                      obtain ⟨-, rfl⟩ := answer_eq_ok hclock
                      dsimp only [Op.result]
                      split
                      · rename_i hle
                        refine hQ _ _ (.expired (eq_of_find? hfind) ?_)
                        rintro ⟨e, he, hlt⟩
                        rw [hexp] at he
                        cases he
                        exact absurd hlt (not_lt.mpr hle)
                      · exact hQ _ _ (.current (eq_of_find? hfind))

/-! ## The two requests -/

/-- The transaction that opens a session. -/
def Op.isConsume : Op → Bool
  | .consumeBootstrap .. => true
  | _ => false

/-- The store as it was last read. -/
def lastRead (pageId : String) : History Op Moment → Option Moment
  | [] => none
  | (.loadGrants p, m) :: h => if p = pageId then some m else lastRead pageId h
  | _ :: h => lastRead pageId h

/-- The clock at the last question. -/
def lastClock : History Op Moment → Instant
  | [] => 0
  | (_, m) :: _ => m.world.clock

/-- By what was read last, the grant is dead. -/
def Dead (pageId grantId : String) (kind : Grant → Prop) (h : History Op Moment) : Prop :=
  ∀ m, lastRead pageId h = some m → ¬ m.Holds pageId grantId kind (lastClock h)

/-- The last question was a read that decides over the sessions, it raised,
and the store held a live grant. -/
def Misread (pageId grantId : String) (kind : Grant → Prop) (decides : History Op Moment → Prop)
    (h : History Op Moment) : Prop :=
  ∃ m t, h = (.loadGrants pageId, m) :: t ∧ decides t ∧ m.Unreadable pageId ∧
    m.Holds pageId grantId kind m.world.clock

/-- What is asked after `h`: sessions are deleted only of a dead grant or
after a read that misled, and such a read is followed by the deletion. -/
def Decides (pageId grantId : String) (kind : Grant → Prop) (decides : History Op Moment → Prop)
    (h : History Op Moment) (e : Op) : Prop :=
  (e = .revoke pageId grantId →
    Dead pageId grantId kind h ∨ Misread pageId grantId kind decides h) ∧
  (Misread pageId grantId kind decides h → e = .revoke pageId grantId)

/-- A request deletes the sessions of dead grants only. -/
def DeletesDead (pageId grantId : String) (kind : Grant → Prop) (H : History Op Moment) : Prop :=
  ∀ post m pre, H = post ++ (.revoke pageId grantId, m) :: pre → Dead pageId grantId kind pre

/-- None of its deciding reads raised over a live grant. -/
def ReadsWell (pageId grantId : String) (kind : Grant → Prop) (decides : History Op Moment → Prop)
    (H : History Op Moment) : Prop :=
  ∀ post m t, H = post ++ (.loadGrants pageId, m) :: t → decides t → m.Unreadable pageId →
    ¬ m.Holds pageId grantId kind m.world.clock

section Requests

variable {kind : Grant → Prop} {decides : History Op Moment → Prop}

/-- **Deleting dead grants' sessions only is reading well**, for a request
that goes by `Decides`. -/
theorem deletesDead_iff {α : Type} {p : Prog Op Op.Ans α}
    (hp : Spec (Op.answerAt sha256) (Decides pageId grantId kind decides) p []
      fun _ h => ¬ Misread pageId grantId kind decides h)
    {ms : List Moment} {r : α} (hdone : (p.exec (Op.answerAt sha256) ms []).2 = .ret r) :
    let H := (p.exec (Op.answerAt sha256) ms []).1
    DeletesDead pageId grantId kind H ↔ ReadsWell pageId grantId kind decides H := by
  intro H
  obtain ⟨hasked, hend⟩ := @Prog.Spec.exec _ _ _ _ _ _ _ _ ms _ hp
  constructor
  · rintro hdead post m t hH hdecides hread hholds
    have hmis : Misread pageId grantId kind decides ((.loadGrants pageId, m) :: t) :=
      ⟨m, t, rfl, hdecides, hread, hholds⟩
    rcases List.eq_nil_or_concat post with rfl | ⟨post, q, rfl⟩
    · have hmis' : Misread pageId grantId kind decides H := by rw [hH]; exact hmis
      exact hend r hdone hmis'
    · -- the next question after the read is the deletion
      obtain ⟨e, w⟩ := q
      have hH' : H = post ++ (e, w) :: (.loadGrants pageId, m) :: t := by
        rw [hH, List.concat_eq_append, List.append_assoc]
        rfl
      have hrevoke := (hasked post e w _ hH' (Nat.zero_le _)).2 hmis
      rw [hrevoke] at hH'
      exact hdead post w _ hH' m (if_pos rfl) hholds
  · rintro hwell post m pre hH
    rcases (hasked post _ m pre hH (Nat.zero_le _)).1 rfl with hdead | ⟨m', t, rfl, hd, hr, hh⟩
    · exact hdead
    · refine absurd hh (hwell (post ++ [(.revoke pageId grantId, m)]) m' t ?_ hd hr)
      show H = _
      rw [hH, List.append_assoc]
      rfl

theorem decides_other {e : Op} (hmis : ¬ Misread pageId grantId kind decides h)
    (he : e ≠ .revoke pageId grantId) : Decides pageId grantId kind decides h e :=
  ⟨fun h => absurd h he, fun h => absurd h hmis⟩

theorem not_misread_of_ne {e : Op} {m : Moment} (he : e ≠ .loadGrants pageId) :
    ¬ Misread pageId grantId kind decides ((e, m) :: h) := by
  rintro ⟨m', t, heq, -⟩
  exact he (congrArg Prod.fst (List.cons.inj heq).1)

theorem not_misread_of_read {m : Moment} (hm : ¬ m.Unreadable pageId) :
    ¬ Misread pageId grantId kind decides ((.loadGrants pageId, m) :: h) := by
  rintro ⟨m', t, heq, -, hread, -⟩
  cases heq
  exact hm hread

/-- Nobody has the id. -/
theorem dead_of_absent {m : Moment} (hnone : ∀ g ∈ m.held pageId, g.id ≠ grantId) :
    Dead pageId grantId kind ((.loadGrants pageId, m) :: h) := by
  rintro m' hm' ⟨g, hg, hid, -⟩
  obtain rfl : m = m' := by simpa [lastRead] using hm'
  exact hnone g hg hid

/-- The one that has it is not live, or not of the kind. -/
theorem dead_of_one {m m' : Moment} {grant : Grant}
    (hone : ∀ g ∈ m.held pageId, g.id = grantId → g = grant)
    (hdead : ¬ (Live grant m'.world.clock ∧ kind grant)) :
    Dead pageId grantId kind ((.time, m') :: (.loadGrants pageId, m) :: h) := by
  rintro m₁ hm₁ ⟨g, hg, hid, hlive, hkind⟩
  obtain rfl : m = m₁ := by simpa [lastRead] using hm₁
  obtain rfl := hone g hg hid
  exact hdead ⟨hlive, hkind⟩

/-- A read that raised decides over the sessions rightly, or misleads. -/
theorem decides_of_unreadable {m : Moment} (hm : m.Unreadable pageId) (hdecides : decides h) :
    Decides pageId grantId kind decides ((.loadGrants pageId, m) :: h) (.revoke pageId grantId) := by
  refine ⟨fun _ => ?_, fun _ => rfl⟩
  by_cases hholds : m.Holds pageId grantId kind m.world.clock
  · exact .inr ⟨m, h, rfl, hdecides, hm, hholds⟩
  · refine .inl fun m' hm' => ?_
    obtain rfl : m = m' := by simpa [lastRead] using hm'
    exact hholds

theorem decides_of_dead (hdead : Dead pageId grantId kind h) :
    Decides pageId grantId kind decides h (.revoke pageId grantId) :=
  ⟨fun _ => .inl hdead, fun _ => rfl⟩

/-! ### The cleanup request -/

/-- Its one read decides. -/
theorem spec_revokeGuestSessions_decides (payload : List (String × Json))
    (hpage : Json.get? payload "page_id" = some (.str pageId))
    (hgrant : Json.get? payload "grant_id" = some (.str grantId)) :
    Spec (Op.answerAt sha256) (Decides pageId grantId kind fun _ => True)
      (revokeGuestSessions payload).run []
      fun _ h => ¬ Misread pageId grantId kind (fun _ => True) h := by
  have hstart : ¬ Misread pageId grantId kind (fun _ => True) [] := by
    rintro ⟨_, _, heq, -⟩
    cases heq
  unfold revokeGuestSessions
  simp only [hpage, hgrant]
  split
  · rw [Prog.spec_except_bind]
    refine spec_verdict (decides_other hstart nofun)
      (fun m hm => decides_other (not_misread_of_read hm) nofun) fun r h' hv => ?_
    cases hv with
    | unreadable hm =>
        exact spec_revokeAt.mpr ⟨decides_of_unreadable hm trivial, fun _ => not_misread_of_ne nofun⟩
    | absent hread hnone =>
        exact spec_revokeAt.mpr ⟨decides_of_dead (dead_of_absent hnone),
          fun _ => not_misread_of_ne nofun⟩
    | expired hone hdead =>
        exact spec_revokeAt.mpr ⟨decides_of_dead (dead_of_one hone fun hl => hdead hl.1),
          fun _ => not_misread_of_ne nofun⟩
    | current hone => exact not_misread_of_ne nofun
    | raised hread => exact not_misread_of_read hread
    | clockRaised => exact not_misread_of_ne nofun
  · exact hstart

/-! ### The exchange -/

/-- A session was opened before. -/
def Opened (h : History Op Moment) : Prop := ∃ q ∈ h, q.1.isConsume = true

theorem not_misread_of_not_opened (hopened : ¬ Opened h) :
    ¬ Misread pageId grantId kind Opened h := by
  rintro ⟨m, t, rfl, ⟨q, hq, hc⟩, -⟩
  exact hopened ⟨q, List.mem_cons_of_mem _ hq, hc⟩

omit [Python] in
theorem not_opened_cons {e : Op} {m : Moment} (hh : ¬ Opened h) (he : e.isConsume = false) :
    ¬ Opened ((e, m) :: h) := by
  rintro ⟨q, hq, hc⟩
  rcases List.mem_cons.mp hq with rfl | hq
  · rw [he] at hc
    cases hc
  · exact hh ⟨q, hq, hc⟩

theorem spec_revoked_decides
    (hdecides : Decides pageId grantId kind Opened h (.revoke pageId grantId)) :
    Spec (Op.answerAt sha256) (Decides pageId grantId kind Opened)
      (exchangeGuestBootstrap.revoked pageId grantId).run h
      fun _ h => ¬ Misread pageId grantId kind Opened h := by
  unfold exchangeGuestBootstrap.revoked
  rw [Prog.spec_except_bind, spec_revokeAt]
  refine ⟨hdecides, fun m => ?_⟩
  cases (Op.revoke pageId grantId).answerAt sha256 m <;> exact not_misread_of_ne nofun

theorem spec_result_decides {expiry : Int} {grant : Grant} {session : String} {m : Moment} :
    Spec (Op.answerAt sha256) (Decides pageId grantId kind Opened)
      (guestSessionResult pageId grantId expiry grant session).run ((.time, m) :: h)
      fun _ h => ¬ Misread pageId grantId kind Opened h := by
  unfold guestSessionResult
  split
  · rw [Prog.spec_except_bind, spec_askAt]
    refine ⟨decides_other (not_misread_of_ne nofun) nofun, fun m' => ?_⟩
    cases (Op.verifiedUntil session pageId grantId).answerAt sha256 m' with
    | error x => exact not_misread_of_ne nofun
    | ok verified =>
        dsimp only
        cases verified.filter (· ≠ 0) <;> exact not_misread_of_ne nofun
  · exact not_misread_of_ne nofun

/-- The second read decides: the session is open by then. -/
theorem spec_confirm_decides {grant : Grant} {session : String} {stored : Int}
    (hopened : Opened h) (hstart : ¬ Misread pageId grantId
      (fun g => g.tokenHash = grant.tokenHash) Opened h) :
    Spec (Op.answerAt sha256)
      (Decides pageId grantId (fun g => g.tokenHash = grant.tokenHash) Opened)
      (exchangeGuestBootstrap.confirm pageId grantId grant session stored).run h
      fun _ h => ¬ Misread pageId grantId (fun g => g.tokenHash = grant.tokenHash) Opened h := by
  unfold exchangeGuestBootstrap.confirm
  rw [Prog.spec_except_bind]
  refine spec_verdict (decides_other hstart nofun)
    (fun m hm => decides_other (not_misread_of_read hm) nofun) fun r h' hv => ?_
  cases hv with
  | unreadable hm => exact spec_revoked_decides (decides_of_unreadable hm hopened)
  | absent hread hnone => exact spec_revoked_decides (decides_of_dead (dead_of_absent hnone))
  | expired hone hdead =>
      exact spec_revoked_decides (decides_of_dead (dead_of_one hone fun hl => hdead hl.1))
  | raised hread => exact not_misread_of_read hread
  | clockRaised => exact not_misread_of_ne nofun
  | @current m m' current expiry hone =>
      dsimp only
      split
      · rename_i hne
        exact spec_revoked_decides (decides_of_dead (dead_of_one hone fun hl => hne hl.2))
      · rw [Prog.spec_except_bind]
        refine Prog.spec_mono spec_result_decides fun r h' hr => ?_
        cases r <;> exact hr

theorem spec_exchange_decides (bootstrap : String) :
    Spec (Op.answerAt sha256)
      (Decides pageId grantId (fun g => g.tokenHash = sha256 bootstrap) Opened)
      (exchangeGuestBootstrap sha256 pageId grantId bootstrap).run []
      fun _ h => ¬ Misread pageId grantId (fun g => g.tokenHash = sha256 bootstrap) Opened h := by
  have hnil : ¬ Opened [] := fun ⟨_, hq, _⟩ => absurd hq List.not_mem_nil
  have hload : ∀ {m : Moment}, ¬ Opened [(.loadGrants pageId, m)] :=
    not_opened_cons hnil rfl
  unfold exchangeGuestBootstrap
  rw [Prog.spec_except_bind]
  refine spec_verdict (decides_other (not_misread_of_not_opened hnil) nofun)
    (fun m _ => decides_other (not_misread_of_not_opened hload) nofun) fun r h' hv => ?_
  cases hv with
  | unreadable | absent | raised => exact not_misread_of_not_opened hload
  | expired | clockRaised => exact not_misread_of_ne nofun
  | @current m m' grant expiry hone =>
      have htime : ¬ Opened [(.time, m'), (.loadGrants pageId, m)] := not_opened_cons hload rfl
      dsimp only
      split
      · exact not_misread_of_not_opened htime
      rename_i hguess
      rw [not_or, not_not] at hguess
      rw [hguess.2]
      rw [Prog.spec_except_bind, spec_askAt]
      refine ⟨decides_other (not_misread_of_not_opened htime) nofun, fun m₃ => ?_⟩
      cases (Op.allowSession (pageId ++ ":" ++ grantId)).answerAt sha256 m₃ with
      | error x => exact not_misread_of_ne nofun
      | ok allowed =>
          dsimp only
          split
          · exact not_misread_of_ne nofun
          split
          · exact not_misread_of_ne nofun
          rename_i expires _
          rw [Prog.spec_except_bind, spec_askAt]
          refine ⟨decides_other (not_misread_of_ne nofun) nofun, fun m₄ => ?_⟩
          cases (Op.consumeBootstrap pageId grantId bootstrap grant.tokenHash expires
              grant.oneTimeUse).answerAt sha256 m₄ with
          | error x => exact not_misread_of_ne nofun
          | ok consumed =>
              cases consumed with
              | error e => cases e <;> exact not_misread_of_ne nofun
              | ok opened =>
                  exact spec_confirm_decides ⟨_, List.mem_cons_self, rfl⟩ (not_misread_of_ne nofun)

end Requests

/-- **When the broker deletes sessions of dead grants only.** A completed
exchange deletes the sessions of its grant only if the store held no
unexpired grant under the id with the hash just exchanged, exactly if the
read after the session was opened did not raise over such a grant; and a
completed cleanup request only if the store held no unexpired grant under
the id, exactly if its read did not raise over one. -/
theorem deletes_sessions_of_dead_grants_iff (sha256 : String → String) :
    (∀ pageId grantId bootstrap ms r,
      ((exchangeGuestBootstrap sha256 pageId grantId bootstrap).run.exec (Op.answerAt sha256) ms
        []).2 = .ret r →
      let H := ((exchangeGuestBootstrap sha256 pageId grantId bootstrap).run.exec
        (Op.answerAt sha256) ms []).1
      let exchanged := fun g : Grant => g.tokenHash = sha256 bootstrap
      DeletesDead pageId grantId exchanged H ↔ ReadsWell pageId grantId exchanged Opened H) ∧
    ∀ payload pageId grantId ms r,
      Json.get? payload "page_id" = some (.str pageId) →
      Json.get? payload "grant_id" = some (.str grantId) →
      ((revokeGuestSessions payload).run.exec (Op.answerAt sha256) ms []).2 = .ret r →
      let H := ((revokeGuestSessions payload).run.exec (Op.answerAt sha256) ms []).1
      DeletesDead pageId grantId (fun _ => True) H ↔
        ReadsWell pageId grantId (fun _ => True) (fun _ => True) H :=
  ⟨fun _ _ bootstrap _ _ hdone => deletesDead_iff (spec_exchange_decides bootstrap) hdone,
    fun payload _ _ _ _ hpage hgrant hdone =>
      deletesDead_iff (spec_revokeGuestSessions_decides payload hpage hgrant) hdone⟩

/-! ## The gate -/

/-- The gate's store, read without trouble. -/
def gateRead : Moment where
  world := gateWorld
  held _ := gatePage.accessGrants
  nodup _ := by decide
  read _ page h := by
    cases h
    rfl

/-- The same store in a moment in which its files cannot be opened. -/
def gateUnread : Moment where
  world := { gateWorld with grants := fun _ => .error .os }
  held _ := gatePage.accessGrants
  nodup _ := by decide
  read _ _ h := by cases h

/-- And in one in which its file cannot be tested for. -/
def gateUntested : Moment where
  world := { gateWorld with grants := fun pageId => .error (.notFound pageId) }
  held _ := gatePage.accessGrants
  nodup _ := by decide
  read _ _ h := by cases h

/-- The cleanup of the gate's grant. -/
def gateCleanup : List (String × Json) :=
  [("page_id", .str gatePage.id), ("grant_id", .str gateGrant.id)]

/-- An exchange whose second read fails. -/
def gateExchanged :
    History Op Moment × Prog Op Op.Ans (Except Exc (Option (SessionResult × String))) :=
  letI := Python.plain
  (exchangeGuestBootstrap gateDigest gatePage.id gateGrant.id
    "door-invitation-000000000000000000000000000").run.exec (Op.answerAt gateDigest)
      [gateRead, gateRead, gateRead, gateRead, gateUnread, gateUnread] []

/-- A cleanup request while the grant is live, with its read failing or not. -/
def gateCleaning (m : Moment) : History Op Moment × Prog Op Op.Ans (Except Exc Unit) :=
  letI := Python.plain
  (revokeGuestSessions gateCleanup).run.exec (Op.answerAt gateDigest) [m, m] []

omit [Python] in
theorem gate_holds {m : Moment} (hheld : m.held gatePage.id = [gateGrant])
    {kind : Grant → Prop} (hkind : kind gateGrant) :
    letI := Python.plain
    m.Holds gatePage.id gateGrant.id kind gateWorld.clock := by
  let _ := Python.plain
  have hexp : grantExpiry gateGrant = .ok 1894060800 := by decide +kernel
  have hclock : gateWorld.clock < 1894060800 * second := by decide
  exact ⟨gateGrant, hheld ▸ List.mem_singleton.mpr rfl, rfl, ⟨_, hexp, hclock⟩, hkind⟩

omit [Python] in
/-- One read that fails, and the sessions of a live grant are gone. -/
theorem deletes_sessions_of_live_grant :
    letI := Python.plain
    ¬ DeletesDead gatePage.id gateGrant.id (fun g => g.tokenHash =
        gateDigest "door-invitation-000000000000000000000000000") gateExchanged.1 ∧
      ¬ DeletesDead gatePage.id gateGrant.id (fun _ => True) (gateCleaning gateUnread).1 ∧
      ¬ DeletesDead gatePage.id gateGrant.id (fun _ => True) (gateCleaning gateUntested).1 := by
  let _ := Python.plain
  refine ⟨fun hdead => ?_, fun hdead => ?_, fun hdead => ?_⟩
  · exact hdead [] gateUnread _ rfl gateUnread rfl (gate_holds rfl rfl)
  · exact hdead [] gateUnread _ rfl gateUnread rfl (gate_holds rfl trivial)
  · exact hdead [] gateUntested _ rfl gateUntested rfl (gate_holds rfl trivial)

omit [Python] in
theorem deletes_sessions_of_dead_grants_iff_gate :
    letI := Python.plain
    let exchanged := fun g : Grant =>
      g.tokenHash = gateDigest "door-invitation-000000000000000000000000000"
    (DeletesDead gatePage.id gateGrant.id exchanged gateExchanged.1 ↔
        ReadsWell gatePage.id gateGrant.id exchanged Opened gateExchanged.1) ∧
      ReadsWell gatePage.id gateGrant.id (fun _ => True) (fun _ => True) (gateCleaning gateRead).1 ∧
      DeletesDead gatePage.id gateGrant.id (fun _ => True) (gateCleaning gateRead).1 := by
  let _ := Python.plain
  have hreads : ReadsWell gatePage.id gateGrant.id (fun _ => True) (fun _ => True)
      (gateCleaning gateRead).1 := by
    rintro post m t hH - hread -
    have hall : ∀ q ∈ (gateCleaning gateRead).1, q.2 = gateRead := by
      have hH' : (gateCleaning gateRead).1 =
          [(.time, gateRead), (.loadGrants gatePage.id, gateRead)] := rfl
      simp [hH']
    have hm : m = gateRead := hall (.loadGrants gatePage.id, m) (by rw [hH]; simp)
    rw [hm] at hread
    exact hread.2
  obtain ⟨hexchange, hcleanup⟩ := @deletes_sessions_of_dead_grants_iff Python.plain gateDigest
  exact ⟨hexchange gatePage.id gateGrant.id "door-invitation-000000000000000000000000000"
      [gateRead, gateRead, gateRead, gateRead, gateUnread, gateUnread] _ rfl, hreads,
    (hcleanup gateCleanup gatePage.id gateGrant.id [gateRead, gateRead] _ rfl rfl rfl).mpr hreads⟩

end Live

end Broker

end AccessPages
