import AccessPages.Admin.Publication
/-!
# Admin — a revoked grant does not come back

A revocation that is done has taken its grant from the page. The requests
that follow store pages they loaded, and take back edits whose publication
failed; the gateway dies in the middle of some. As long as nobody brings a
grant of the same identifier, the page stays without it.
-/

namespace AccessPages

namespace Admin

open Pages (Page Grant visible pageIdRe)

section Revocations

variable [Python] {T : Json → Prop} {R : Grant → Prop} {cfg : Config} {p grantId : String}

/-- The job of the page has just ended, and it revoked the grant. -/
def justRevoked (p grantId : String)
    (P : Service.Pool String Op Op.Ans (Job × Except Failure Unit) World) : Bool :=
  match P.threads p with
  | some (.ret (j, .ok ())) => j.revokes grantId
  | _ => false

/-- Does not bring a grant of that identifier to the page. -/
def Job.Spares (p grantId : String) (j : Job) : Prop := j.page = p → j.Brings (RawOther grantId)

/-! ## One page among the others -/

theorem Trait.under (hT : Trait T R) (c : Prop) : Trait (fun v => c → T v) (fun g => c → R g) where
  valid h := forall_congr' fun _ => hT.valid h
  toJson h hc := hT.toJson (h hc)
  forgetLink h hc := hT.forgetLink (h hc)

omit [Python] in
theorem brings_under {c : Prop} {j : Job} (h : c → j.Brings T) : j.Brings fun v => c → T v := by
  cases j with
  | create a payload => exact fun r hr hc => h hc r hr
  | invite id grant => exact h
  | _ => trivial

omit [Python] in
theorem justRevoked_eq {P : Service.Pool String Op Op.Ans (Job × Except Failure Unit) World}
    (h : justRevoked p grantId P = true) :
    ∃ j, P.threads p = some (.ret (j, .ok ())) ∧ j.revokes grantId = true := by
  unfold justRevoked at h
  split at h
  · rename_i j hj
    exact ⟨j, hj, h⟩
  · cases h

/-- Once the revocation is done, its page is tracked without the grant. -/
theorem accounted_revoked {P : Service.Pool String Op Op.Ans (Job × Except Failure Unit) World}
    (hP : Accounted cfg (fun _ _ => True) grantId P) (hdone : justRevoked p grantId P = true) :
    Accounted cfg (fun q g => q = p → Other grantId g) grantId P := by
  obtain ⟨j, hj, hrevokes⟩ := justRevoked_eq hdone
  obtain ⟨-, rfl, htracked⟩ := (hP p).2 _ hj
  have hwithout : Tracked (Other grantId) j.page P.world := htracked rfl hrevokes
  intro q
  by_cases hq : q = j.page
  · subst hq
    refine ⟨hwithout.mono fun g hg _ => hg, fun x hx => ?_⟩
    obtain rfl := Option.some.inj (hj.symm.trans hx)
    exact ⟨hwithout.mono fun g hg _ => hg, rfl, htracked⟩
  · have hany : (fun g : Grant => q = j.page → Other grantId g) = fun _ => True :=
      funext fun g => eq_true fun h => absurd h hq
    simp only [hany]
    exact hP q

/-- **A revoked grant does not come back.** A revocation, a revocation of the
whole page or its deletion is done at some point of a run. Whatever runs
from there, in any interleaving and with any failure and crash, the page is
not loaded with that grant again, unless a request brings one of the same
identifier. No test for a file is blind: a recovery would leave the page as
it is. -/
theorem revoked_grant_stays_away (cfg : Config) (hc : cfg.configured = true) (p grantId : String)
    (before after : List (Service.Move Job String Tick))
    (hsight : ∀ p t, .turn p t ∈ before ++ after → t.file.blind = false)
    (hdone : justRevoked p grantId ((service cfg).play (.new .empty) before) = true)
    (hspares : ∀ j, .start j ∈ after → j.Spares p grantId) :
    ∀ page, visible ((service cfg).play (.new .empty) (before ++ after)).world.disk p = some page →
      ∀ g ∈ page.accessGrants, g.id ≠ grantId := by
  have hbefore : Accounted cfg (fun _ _ => True) grantId
      ((service cfg).play (.new .empty) before) :=
    accounted_play (fun _ => trait_any) hc accounted_new before
      (fun p t ht => hsight p t (List.mem_append_left _ ht)) fun j _ => brings_any j
  have hT : ∀ q, Trait (fun v => q = p → RawOther grantId v) (fun g => q = p → Other grantId g) :=
    fun q => (trait_other grantId).under (q = p)
  have hafter := accounted_play hT hc (accounted_revoked hbefore hdone) after
    (fun p t ht => hsight p t (List.mem_append_right _ ht)) fun j hj => brings_under (hspares j hj)
  intro page hpage g hg
  have htracked := (hafter p).1
  rw [← Service.play_append] at htracked
  obtain ⟨o, ho⟩ := htracked.filed
  exact ho.shownGrants (hT p) hpage g hg rfl

/-! ### The door -/

/-- The job of the door goes on while nothing fails. -/
def doorTurns (n : Nat) : List (Service.Move Job String Tick) :=
  List.replicate n (.turn "door" calmTick)

/-- The door is created, a guest is invited, and the invitation is revoked. -/
def doorRevoked : List (Service.Move Job String Tick) :=
  [.start (.create noAnswers (plainPage "door"))] ++ doorTurns 12 ++
    [.start (.invite "door" Pages.doorGrant.toJson)] ++ doorTurns 8 ++
    [.start (.revoke "door" Pages.doorGrant.id)] ++ doorTurns 8

/-- The identifier of the door, as its file is named. -/
def doorId : { id : String // pageIdRe id = true } := ⟨"door", rfl⟩

/-- The door is edited. Its policy is stored and the reply is lost, so the edit is
taken back, and the gateway dies before that is done. The policy is retried. -/
def doorEdited : List (Service.Move Job String Tick) :=
  doorTurns 1 ++ [.start (.edit noAnswers "door" (plainPage "door"))] ++ doorTurns 14 ++
    [.turn "door" lostTick] ++ doorTurns 3 ++ [.crash, .start (.retry doorId)] ++ doorTurns 12

/-- How many grants the door is loaded with. -/
def doorGrants (ms : List (Service.Move Job String Tick)) : Option Nat :=
  letI := Python.plain
  (visible ((service doorConfig).play (.new .empty) ms).world.disk "door").map
    (·.accessGrants.length)

omit [Python] in
theorem door_sighted : ∀ p t, .turn p t ∈ doorRevoked ++ doorEdited → t.file.blind = false := by
  intro p t ht
  have htick : t = calmTick ∨ t = lostTick := by
    simp only [doorRevoked, doorEdited, doorTurns, List.mem_cons, List.mem_append,
      List.mem_replicate] at ht
    aesop
  rcases htick with rfl | rfl <;> rfl

omit [Python] in
theorem revoked_grant_stays_away_door :
    letI := Python.plain
    doorGrants (doorRevoked ++ doorEdited) = some 0 ∧
      ∀ page, visible ((service doorConfig).play (.new .empty)
        (doorRevoked ++ doorEdited)).world.disk "door" = some page →
          ∀ g ∈ page.accessGrants, g.id ≠ Pages.doorGrant.id := by
  let _ := Python.plain
  have hafter : doorGrants (doorRevoked ++ doorEdited) = some 0 := by decide +kernel
  have hdone : justRevoked "door" Pages.doorGrant.id
      ((service doorConfig).play (.new .empty) doorRevoked) = true := by decide +kernel
  refine ⟨hafter, @revoked_grant_stays_away Python.plain doorConfig rfl "door"
    Pages.doorGrant.id doorRevoked doorEdited door_sighted hdone ?_⟩
  intro j hj
  have hjobs : j = .edit noAnswers "door" (plainPage "door") ∨ j = .retry doorId := by
    simpa [doorEdited, doorTurns] using hj
  rcases hjobs with rfl | rfl
  · exact fun _ => trivial
  · exact fun _ => trivial

end Revocations

end Admin

end AccessPages
