import AccessPages.Pages.Durable
/-!
# Pages — crash-safe masking

Once the marker of a revocation is on disk, no grant it lists is seen
again, whatever is called afterwards and wherever that stops, as long as
no caller hands one back in. Two facts carry this. A marker masks every
grant; and a page file without the listed grants stays without them,
because what the store writes by itself it has first loaded.
-/

namespace AccessPages

namespace Pages

variable [Python] {id : String} {gone : Set String} {d : Disk}

/-- The page file holds no grant of the set. -/
def Clean (id : String) (gone : Set String) (d : Disk) : Prop :=
  ∀ v, d.content (.page id) = some (.ok v) → ∀ r ∈ rawGrants v, rawId r ∉ gone

/-- No grant of the set can be seen: they are masked, or not there. -/
def Masked (id : String) (gone : Set String) (d : Disk) : Prop :=
  marked d id = true ∨ Clean id gone d

/-- A page handed in for `id` has no grant of the set. -/
def Withholds (id : String) (gone : Set String) (_ : Disk) (id' : String) (page : Page) : Prop :=
  id' = id → ∀ g ∈ page.accessGrants, g.id ∉ gone

theorem clean_write_page {page : Page} (h : ∀ g ∈ page.accessGrants, g.id ∉ gone) :
    Clean id gone (d.write (.page id) page.toJson) := by
  intro v hv r hr
  rw [content_write, if_pos rfl] at hv
  cases hv
  rw [rawGrants_toJson] at hr
  obtain ⟨g, hg, rfl⟩ := List.mem_map.mp hr
  rw [(same_toJson g).1]
  exact h g hg

/-- Nothing else is about this page's file. -/
theorem clean_congr {d' : Disk} (h : d'.content (.page id) = d.content (.page id))
    (hc : Clean id gone d) : Clean id gone d' := fun v hv => hc v (h ▸ hv)

/-- What is seen of a clean page is clean. -/
theorem clean_visible {page : Page} (hc : Clean id gone d) (hv : visible d id = some page) :
    ∀ g ∈ page.accessGrants, g.id ∉ gone := by
  obtain ⟨full, hfull, rfl⟩ := Option.map_eq_some_iff.mp hv
  intro g hg
  split at hg
  · cases hg
  · obtain ⟨v, hcontent, hpage⟩ := onFile_eq_some.mp hfull
    obtain ⟨r, hr, hsame⟩ := (validatePage_eq_ok hpage).2.1 g hg
    rw [← hsame.1]
    exact hc v hcontent r hr

/-- What is seen of a masked page is clean. -/
theorem masked_visible {page : Page} (hm : Masked id gone d) (hv : visible d id = some page) :
    ∀ g ∈ page.accessGrants, g.id ∉ gone := by
  rcases hm with hm | hc
  · obtain ⟨full, -, rfl⟩ := Option.map_eq_some_iff.mp hv
    rw [if_pos hm]
    exact nofun
  · exact clean_visible hc hv

/-- Writing any page keeps the file clean if what is written is. -/
theorem clean_write {id' : String} {page : Page} (hc : Clean id gone d)
    (h : id' = id → ∀ g ∈ page.accessGrants, g.id ∉ gone) :
    Clean id gone (d.write (.page id') page.toJson) := by
  by_cases hid : id' = id
  · subst hid
    exact clean_write_page (h rfl)
  · exact clean_congr (by simp [hid]) hc

/-- **A clean page file stays clean.** -/
theorem clean_step {d' : Disk} (h : Step (Withholds id gone) d d') (hc : Clean id gone d) :
    Clean id gone d' := by
  cases h with
  | enqueue id' g now => exact clean_congr content_enqueue hc
  | mark hmarker hfile => exact clean_congr (by simp) hc
  | erase hmarker hlisted hqueued => exact clean_write hc fun _ => nofun
  | unmark hmarker hlisted hqueued herased => exact clean_congr (by simp) hc
  | edit hshown hold hkept =>
      refine clean_write hc fun hid g hg => ?_
      subst hid
      obtain ⟨g', hg', hid'⟩ := hold g hg
      rw [← hid']
      exact clean_visible hc hshown g' hg'
  | submit haccepts => exact clean_write hc haccepts
  | @unlink id' hmarker herased =>
      intro v hv
      rw [content_unlink] at hv
      split at hv
      · cases hv
      · exact hc v hv
  | reportDeleted r => exact clean_congr rfl hc
  | complete h => exact clean_congr rfl hc
  | postpone r retryAfter now => exact clean_congr rfl hc

/-- **A masked page stays masked.** Only the end of a recovery takes the
marker away, and by then the file has no grants. -/
theorem masked_step {d' : Disk} (h : Step (Withholds id gone) d d') (hm : Masked id gone d) :
    Masked id gone d' := by
  rcases hm with hm | hc
  · have keep : d'.content (.marker id) = d.content (.marker id) → Masked id gone d' :=
      fun he => .inl (by rw [marked, he]; exact hm)
    cases h with
    | enqueue id' g now => exact keep content_enqueue
    | @mark id' page hmarker hfile =>
        by_cases hid : id' = id
        · exact .inl (by simp [marked, hid])
        · exact keep (by simp [hid])
    | erase hmarker hlisted hqueued => exact keep (by simp)
    | @unmark id' c gs hmarker hlisted hqueued herased =>
        by_cases hid : id' = id
        · subst hid
          refine .inr fun v hv r hr => ?_
          obtain ⟨v', hv', hnil⟩ := herased _ (by simpa using hv)
          cases hv'
          rw [hnil] at hr
          cases hr
        · exact keep (by simp [hid])
    | edit hshown hold hkept => exact keep (by simp)
    | submit haccepts => exact keep (by simp)
    | unlink hmarker herased => exact keep (by simp)
    | reportDeleted r => exact keep rfl
    | complete h => exact keep rfl
    | postpone r retryAfter now => exact keep rfl
  · exact .inr (clean_step h hc)

/-! ## Runs -/

/-- No call hands a grant of the set back in for this page, and no test for a file
is blind. -/
def CallWithholds (id : String) (gone : Set String) (d : Disk) (a : Act) (ticks : List Tick) :
    Prop :=
  Sighted ticks ∧ ∀ page, a.submits d = some (id, page) → ∀ g ∈ page.accessGrants, g.id ∉ gone

theorem withholds_of_call (d : Disk) (a : Act) (ticks : List Tick)
    (h : CallWithholds id gone d a ticks) : Admits (Withholds id gone) d a ticks := by
  refine ⟨h.1, ?_⟩
  rintro id' page hs rfl
  exact h.2 page hs

theorem clean_run {d' : Disk} (hrun : Run (CallWithholds id gone) d d') (hc : Clean id gone d) :
    Clean id gone d' :=
  run_invariant withholds_of_call (fun _ _ h => clean_step h) hc hrun

theorem masked_run {d' : Disk} (hrun : Run (CallWithholds id gone) d d')
    (hm : Masked id gone d) : Masked id gone d' :=
  run_invariant withholds_of_call (fun _ _ h => masked_step h) hm hrun

/-! ## Recovery -/

theorem masked_steps {d' : Disk} (h : Steps (Withholds id gone) d d') (hm : Masked id gone d) :
    Masked id gone d' := by
  induction h with
  | refl => exact hm
  | tail _ hs ih => exact masked_step hs ih

theorem clean_steps {d' : Disk} (h : Steps (Withholds id gone) d d') (hc : Clean id gone d) :
    Clean id gone d' := by
  induction h with
  | refl => exact hc
  | tail _ hs ih => exact clean_step hs ih

theorem clean_of_unmarked (hm : Masked id gone d) (h : d.content (.marker id) = none) :
    Clean id gone d := hm.resolve_left (by simp [marked, h])

/-- A recovery that is done leaves the page file clean. -/
theorem keeps_recover_clean (hm : Masked id gone d) :
    Keeps False (Masked id gone) (recoverRevocationUnlocked id)
      (OnOk fun _ d' => Clean id gone d') d := by
  refine keeps_mono (keeps_weaken (keeps_recover (@Relation.ReflTransGen.refl _ (Step (Withholds id gone)) d))
    fun d' h => masked_steps h hm) fun r d' hm' hr => ?_
  cases r with
  | ok _ => exact clean_of_unmarked hm' hr.1.1
  | error e => trivial

theorem keeps_recoverEach_clean (hm : Masked id gone d) (ids : List String)
    (h : id ∈ ids ∨ Clean id gone d) :
    Keeps False (Masked id gone) (recoverEach ids) (OnOk fun _ d' => Clean id gone d') d := by
  induction ids generalizing d with
  | nil => exact keeps_pure hm (h.resolve_left nofun)
  | cons id' ids ih =>
      by_cases hid : id' = id
      · subst hid
        exact keeps_seq (keeps_recover_clean hm) fun _ d' hm' hc => ih hm' (.inr hc)
      · refine keeps_seq (keeps_weaken (keeps_recover (@Relation.ReflTransGen.refl _ (Step (Withholds id gone)) d))
          fun d' h => masked_steps h hm) fun _ d' hm' ⟨_, hsteps⟩ => ih hm' ?_
        rcases h with h | hc
        · exact .inl ((List.mem_cons.mp h).resolve_left (Ne.symm hid))
        · exact .inr (clean_steps hsteps hc)

theorem keeps_recoverPending_clean (hm : Masked id gone d) :
    Keeps False (Masked id gone) recoverPendingRevocations (OnOk fun _ d' => Clean id gone d') d := by
  refine keeps_bind (keeps_ask hm trivial fun _ => ⟨hm, ?_⟩)
  refine keeps_bind (keeps_ask hm trivial fun _ => ⟨hm, ?_⟩)
  refine keeps_recoverEach_clean hm _ ?_
  -- a marker that is there is in the listing
  rcases hm with hm | hc
  · exact .inl (List.mem_insertionSort _ |>.mpr (mem_markers.mpr hm))
  · exact .inr hc

/-- The identifiers of the grants a marker lists. -/
def listed (grants : List Grant) : Set String := { i | ∃ g ∈ grants, g.id = i }

/-- **Crash-safe masking.** From the moment the marker lists `grants`,
through any calls that do not hand one of them back in, each stopped
anywhere, loading the page never returns one of them; and once a recovery
of the page has been completed, by itself or in a pass over all pages,
the page file holds none of them from then on. No test for a file is
blind: `load` would miss the marker, and recovery the page. -/
theorem crash_safe_masking {id : String} {grants : List Grant} {d₀ d : Disk}
    (hmarker : d₀.content (.marker id) = some (.ok (markerJson grants)))
    (hrun : Run (CallWithholds id (listed grants)) d₀ d) :
    (∀ ticks page w, Sighted ticks →
      (loadUnlocked id).run.run FileOp.step ⟨d, ticks⟩ = (.ok page, w) →
      ∀ g ∈ page.accessGrants, g.id ∉ listed grants) ∧
    ∀ recovery ∈ [recoverRevocationUnlocked id, recoverPendingRevocations],
      ∀ ticks w, Sighted ticks → recovery.run.run FileOp.step ⟨d, ticks⟩ = (.ok (), w) →
      ∀ d', Run (CallWithholds id (listed grants)) w.disk d' → Clean id (listed grants) d' := by
  have hm : Masked id (listed grants) d :=
    masked_run hrun (.inl (by simp [marked, hmarker]))
  refine ⟨fun ticks page w hsight hload => ?_,
    fun recovery hrec ticks w hsight hdone d' hrun' => ?_⟩
  · have hout := (@keeps_load _ (fun _ => True) d id trivial).outcome (blind_sighted hsight)
    rw [hload] at hout
    exact masked_visible hm (hout.2 page rfl)
  · have hkeeps : Keeps False (Masked id (listed grants)) recovery
        (OnOk fun _ d' => Clean id (listed grants) d') d := by
      simp only [List.mem_cons, List.not_mem_nil, or_false] at hrec
      rcases hrec with rfl | rfl
      · exact keeps_recover_clean hm
      · exact keeps_recoverPending_clean hm
    have hout := hkeeps.outcome (blind_sighted hsight)
    rw [hdone] at hout
    exact clean_run hrun' hout

/-! ## An interrupted revocation -/

/-- A grant of the page below. -/
def doorGrant : Grant where
  id := "grant_AAAAAAAAAAAAAAAA"
  tokenHash := "0123456789abcdef0123456789abcdef0123456789abcdef0123456789abcdef"
  createdAt := "2030-01-01T00:00:00Z"
  expiresAt := "2030-01-08T00:00:00Z"
  label := "Guest"
  lifetime := "7d"
  oneTimeUse := false
  qurlLink := ""
  qurlSite := ""
  resourceId := ""
  qurlId := "q1"
  type := ""
  verificationRequired := false
  notifications := ⟨[], []⟩
  targetPathApplied := false
  resourceCrid := "crid1"
  upstreamScope := .page
  id_re := by decide
  tokenHash_re := by decide
  stripped := by decide

/-- A page with one grant. -/
def doorPage : Page where
  id := "door"
  title := "Door"
  description := ""
  proximity := ⟨false, 500, radius_bounds⟩
  resources := []
  accessGrants := [doorGrant]
  id_re := by decide

/-- Its revocation stopped right after the marker was written. -/
def doorRevoking : Disk :=
  (Disk.empty.write (.page "door") doorPage.toJson).write (.marker "door") (markerJson [doorGrant])

/-- An edit of the page. -/
def doorEdit : Act := .update "door" { doorPage with title := "Front door" }.toJson

/-- The page was edited afterwards. -/
def doorEdited : Disk :=
  letI := Python.plain
  (doorEdit.method.run.run FileOp.step ⟨doorRevoking, []⟩).2.disk

/-- And then the revocation was recovered. -/
def doorRecovery : Except PageError Unit × Host :=
  letI := Python.plain
  (recoverRevocationUnlocked "door").run.run FileOp.step ⟨doorEdited, []⟩

omit [Python] in
theorem doorRecovery_done :
    letI := Python.plain
    (recoverRevocationUnlocked "door").run.run FileOp.step ⟨doorEdited, []⟩ =
      (.ok (), doorRecovery.2) := by
  have hdone : doorRecovery.1 = .ok () := by decide +kernel
  change doorRecovery = _
  rw [← hdone]

omit [Python] in
theorem crash_safe_masking_door :
    letI := Python.plain
    doorRevoking.content (.marker "door") = some (.ok (markerJson [doorGrant])) ∧
      Run (CallWithholds "door" (listed [doorGrant])) doorRevoking doorEdited ∧
      (∀ ticks page w, Sighted ticks →
        (loadUnlocked "door").run.run FileOp.step ⟨doorEdited, ticks⟩ = (.ok page, w) →
        ∀ g ∈ page.accessGrants, g.id ∉ listed [doorGrant]) ∧
      (recoverRevocationUnlocked "door").run.run FileOp.step ⟨doorEdited, []⟩ =
        (.ok (), doorRecovery.2) ∧ Clean "door" (listed [doorGrant]) doorRecovery.2.disk := by
  let _ := Python.plain
  have hmarker : doorRevoking.content (.marker "door") = some (.ok (markerJson [doorGrant])) := by
    simp [doorRevoking]
  have hedit : CallWithholds "door" (listed [doorGrant]) doorRevoking doorEdit [] := by
    refine ⟨by decide, ?_⟩
    simp [doorEdit, Act.submits]
  have hrun : Run (CallWithholds "door" (listed [doorGrant])) doorRevoking doorEdited := by
    unfold doorEdited
    exact .single (@stopped_done Python.plain _ _ doorEdit [] hedit)
  obtain ⟨hloads, hrecovered⟩ := @crash_safe_masking Python.plain _ _ _ _ hmarker hrun
  refine ⟨hmarker, hrun, hloads, doorRecovery_done, ?_⟩
  exact hrecovered _ List.mem_cons_self [] _ (by decide) doorRecovery_done _ .refl

end Pages

end AccessPages
