import AccessPages.Pages.Masking
/-!
# Pages — what is owed upstream

A grant with a link upstream has to stay on record until the link is
deleted there: in the page file, in the marker of a revocation, in the
queue, or as a deletion reported successful. The store keeps this through
every stop, except on one path: a grant handed in with `replace` while
the marker of an interrupted revocation is still there. The page file is
then more than what the marker lists, and recovery erases it without
queueing the rest.
-/

namespace AccessPages

namespace Pages

section Accounting

variable [Python] {id : String} {d : Disk} {ob : Obligation}

/-! ## Where an obligation is -/

/-- The raw grants of a marker. -/
def markerRaws : Content → List Json
  | .ok (.obj fields) =>
      match Json.get? fields "grants" with
      | some (.arr raws) => raws
      | _ => []
  | _ => []

/-- The obligation is in a list of raw grants. -/
def Among (raws : List Json) (ob : Obligation) : Prop := ∃ r ∈ raws, rawObligation r = some ob

/-- The page file has it. -/
def OnFile (d : Disk) (id : String) (ob : Obligation) : Prop :=
  ∃ v, d.content (.page id) = some (.ok v) ∧ Among (rawGrants v) ob

/-- The marker has it. -/
def InMarker (d : Disk) (id : String) (ob : Obligation) : Prop :=
  ∃ c, d.content (.marker id) = some c ∧ Among (markerRaws c) ob

omit [Python] in
/-- The queue has it, or its deletion was reported. -/
def Settled (d : Disk) (ob : Obligation) : Prop :=
  (∃ r ∈ d.cleanup, r.resource = ob.resource ∧ r.qurl = ob.qurl) ∨
    (ob.resource, ob.qurl) ∈ d.deleted

/-- The obligation is on record. -/
def Accounted (d : Disk) (id : String) (ob : Obligation) : Prop :=
  OnFile d id ob ∨ InMarker d id ob ∨ Settled d ob

theorem markerGrants_eq_ok {c : Content} {gs : List Grant} (h : markerGrants c = .ok gs) :
    Matches (markerRaws c) gs := by
  unfold markerGrants at h
  split at h
  · split at h
    · rename_i fields _ v hv
      cases v with
      | arr raws => simpa only [markerRaws, hv] using validateAccessGrants_eq_ok h
      | null =>
          cases h
          simp [markerRaws, hv, Matches]
      | _ => cases h
    · cases h
  · cases h

theorem Matches.among {raws : List Json} {gs : List Grant} (h : Matches raws gs) :
    Among raws ob ↔ ∃ g ∈ gs, g.obligation = some ob := by
  constructor
  · rintro ⟨r, hr, hob⟩
    obtain ⟨g, hg, hsame⟩ := h.2 r hr
    exact ⟨g, hg, hsame.2.symm.trans hob⟩
  · rintro ⟨g, hg, hob⟩
    obtain ⟨r, hr, hsame⟩ := h.1 g hg
    exact ⟨r, hr, hsame.2.trans hob⟩

theorem among_toJson {gs : List Grant} :
    Among (gs.map Grant.toJson) ob ↔ ∃ g ∈ gs, g.obligation = some ob := by
  constructor
  · rintro ⟨r, hr, hob⟩
    obtain ⟨g, hg, rfl⟩ := List.mem_map.mp hr
    exact ⟨g, hg, (same_toJson g).2.symm.trans hob⟩
  · rintro ⟨g, hg, hob⟩
    exact ⟨_, List.mem_map_of_mem hg, (same_toJson g).2.trans hob⟩

theorem onFile_write {page : Page} :
    OnFile (d.write (.page id) page.toJson) id ob ↔
      ∃ g ∈ page.accessGrants, g.obligation = some ob := by
  rw [← among_toJson, ← rawGrants_toJson]
  constructor
  · rintro ⟨v, hv, ha⟩
    rw [content_write, if_pos rfl] at hv
    cases hv
    exact ha
  · exact fun ha => ⟨_, by simp, ha⟩

omit [Python] in
theorem settled_of_queued {g : Grant} (h : Queued d g) (hob : g.obligation = some ob) :
    Settled d ob := .inl (h ob hob)

/-! ## The invariant -/

/-- What the store keeps. -/
structure Recorded (d : Disk) : Prop where
  /-- A page under revocation has its file. -/
  file : ∀ id c, d.content (.marker id) = some c → (d.content (.page id)).isSome = true
  /-- While a marker is there, recovery will not lose what the file holds. -/
  listed : ∀ id c ob, d.content (.marker id) = some c → OnFile d id ob →
    Among (markerRaws c) ob ∨ Settled d ob
  /-- Everything ever written is on record. -/
  accounted : ∀ p ∈ d.written, ∀ ob, Among (rawGrants p.2) ob → Accounted d p.1 ob

/-- A page a caller may hand in: a new page, or one that has everything
the page shows, with nothing new while a marker is there. -/
def Covers (d : Disk) (id : String) (page : Page) : Prop :=
  d.content (.page id) = none ∨
    (∃ shown, visible d id = some shown ∧ ∀ g ∈ shown.accessGrants, ∀ ob,
      g.obligation = some ob → ∃ g' ∈ page.accessGrants, g'.obligation = some ob) ∧
    ∀ c, d.content (.marker id) = some c → ∀ g ∈ page.accessGrants, ∀ ob,
      g.obligation = some ob → Among (markerRaws c) ob ∨ Settled d ob

/-- A change that leaves the files alone and settles no less. -/
theorem recorded_settle {d' : Disk} (h : Recorded d) (hc : ∀ p, d'.content p = d.content p)
    (hw : d'.written = d.written) (hs : ∀ ob, Settled d ob → Settled d' ob) : Recorded d' where
  file id c := by
    rw [hc, hc]
    exact h.file id c
  listed id c ob hm hf := by
    rw [hc] at hm
    exact (h.listed id c ob hm (by simpa only [OnFile, hc] using hf)).imp_right (hs ob)
  accounted p hp ob ha := by
    rw [hw] at hp
    refine (h.accounted p hp ob ha).imp ?_ (Or.imp ?_ (hs ob))
    · simp only [OnFile, hc]
      exact fun h => h
    · simp only [InMarker, hc]
      exact fun h => h

/-- A page file is written: what it held is still on record, and what it
holds is listed if a marker is there. -/
theorem recorded_write {page : Page} (h : Recorded d)
    (hkeep : ∀ ob, OnFile d id ob → (∃ g ∈ page.accessGrants, g.obligation = some ob) ∨
      InMarker d id ob ∨ Settled d ob)
    (hlisted : ∀ c ob, d.content (.marker id) = some c →
      (∃ g ∈ page.accessGrants, g.obligation = some ob) → Among (markerRaws c) ob ∨ Settled d ob) :
    Recorded (d.write (.page id) page.toJson) where
  file id' c hm := by
    rw [content_write] at hm ⊢
    split
    · rfl
    · exact h.file id' c (by simpa using hm)
  listed id' c ob hm hf := by
    have hm' : d.content (.marker id') = some c := by simpa using hm
    by_cases hid : id = id'
    · subst hid
      exact hlisted c ob hm' (onFile_write.mp hf)
    · exact h.listed id' c ob hm' (by simpa [OnFile, hid] using hf)
  accounted p hp ob ha := by
    have hold : ∀ id', Accounted d id' ob → Accounted (d.write (.page id) page.toJson) id' ob := by
      intro id' hacc
      have hmark : InMarker d id' ob → InMarker (d.write (.page id) page.toJson) id' ob := by
        simp [InMarker]
      by_cases hid : id = id'
      · subst hid
        rcases hacc with hf | hrest
        · exact (hkeep ob hf).imp onFile_write.mpr (Or.imp_left hmark)
        · exact .inr (hrest.imp_left hmark)
      · exact hacc.imp (by simp [OnFile, hid]) (Or.imp_left hmark)
    rcases List.mem_cons.mp hp with rfl | hp
    · exact .inl ⟨_, by simp, ha⟩
    · exact hold p.1 (h.accounted p hp ob ha)

/-- What a page without a marker shows is what its file holds. -/
theorem onFile_of_visible {shown : Page} (hm : d.content (.marker id) = none)
    (hv : visible d id = some shown) :
    OnFile d id ob ↔ ∃ g ∈ shown.accessGrants, g.obligation = some ob := by
  obtain ⟨v, hcontent, hpage⟩ := onFile_eq_some.mp (visible_of_unmarked hm hv)
  rw [← (validatePage_eq_ok hpage).2.among]
  constructor
  · rintro ⟨v', hv', ha⟩
    cases hcontent.symm.trans hv'
    exact ha
  · exact fun ha => ⟨v, hcontent, ha⟩

/-- A page under revocation shows no grants. -/
theorem visible_marked {shown : Page} {c : Content} (hm : d.content (.marker id) = some c)
    (hv : visible d id = some shown) : shown.accessGrants = [] := by
  obtain ⟨full, -, rfl⟩ := Option.map_eq_some_iff.mp hv
  simp [marked, hm]

/-- Under a marker, the file may be overwritten. -/
theorem kept_of_marked {c : Content} (h : Recorded d) (hm : d.content (.marker id) = some c)
    (hf : OnFile d id ob) : InMarker d id ob ∨ Settled d ob :=
  (h.listed id c ob hm hf).imp_left fun ha => ⟨c, hm, ha⟩

theorem not_onFile_of_erased (h : Erased d id) : ¬ OnFile d id ob := by
  rintro ⟨v, hv, r, hr, -⟩
  obtain ⟨v', hv', hnil⟩ := h _ hv
  cases hv'
  rw [hnil] at hr
  cases hr

/-- **Every step keeps the record.** -/
theorem recorded_step {d' : Disk} (hstep : Step Covers d d') (h : Recorded d) : Recorded d' := by
  cases hstep with
  | enqueue id g now =>
      refine recorded_settle h (fun _ => content_enqueue) ?_ fun ob => Or.imp ?_ ?_
      · unfold Disk.enqueue
        split <;> rfl
      · rintro ⟨r, hr, hkey⟩
        unfold Disk.enqueue
        split
        · exact ⟨r, hr, hkey⟩
        · exact ⟨r, Table.mem_insertOrIgnore_of_mem hr, hkey⟩
      · unfold Disk.enqueue
        split <;> exact fun h => h
  | @mark id page hmarker hfile =>
      obtain ⟨v, hv, hpage⟩ := onFile_eq_some.mp hfile
      have hlisted : ∀ ob, OnFile d id ob → Among (markerRaws (.ok (markerJson page.accessGrants))) ob := by
        rintro ob ⟨v', hv', ha⟩
        cases hv.symm.trans hv'
        exact among_toJson.mpr ((validatePage_eq_ok hpage).2.among.mp ha)
      have hfile' : ∀ id' ob, OnFile (d.write (.marker id) (markerJson page.accessGrants)) id' ob ↔
          OnFile d id' ob := by simp [OnFile]
      constructor
      · intro id' c hm
        by_cases hid : id = id'
        · subst hid
          simp [hv]
        · simpa using h.file id' c (by simpa [hid] using hm)
      · intro id' c ob hm hf
        rw [hfile'] at hf
        by_cases hid : id = id'
        · subst hid
          obtain rfl : Except.ok (markerJson page.accessGrants) = c := by simpa using hm
          exact .inl (hlisted ob hf)
        · exact h.listed id' c ob (by simpa [hid] using hm) hf
      · intro p hp ob ha
        refine (h.accounted p hp ob ha).imp (hfile' p.1 ob).mpr (Or.imp_left ?_)
        -- there was no marker to overwrite
        rintro ⟨c, hc, hin⟩
        refine ⟨c, ?_, hin⟩
        rw [content_write, if_neg]
        · exact hc
        · rintro ⟨⟩
          rw [hmarker] at hc
          cases hc
  | @erase id c gs page hmarker hlisted hqueued =>
      exact recorded_write h (fun ob hf => .inr (kept_of_marked h hmarker hf))
        fun _ _ _ ⟨_, hg, _⟩ => nomatch hg
  | @unmark id c gs hmarker hlisted hqueued herased =>
      constructor
      · intro id' c' hm
        by_cases hid : id = id'
        · simp [hid] at hm
        · simpa using h.file id' c' (by simpa [hid] using hm)
      · intro id' c' ob hm hf
        by_cases hid : id = id'
        · simp [hid] at hm
        · exact h.listed id' c' ob (by simpa [hid] using hm) (by simpa [OnFile] using hf)
      · intro p hp ob ha
        rcases h.accounted p hp ob ha with hf | ⟨c', hc', hin⟩ | hs
        · exact .inl (by simpa [OnFile] using hf)
        · by_cases hid : id = p.1
          · -- what the marker listed is queued
            rw [← hid, hmarker] at hc'
            cases hc'
            obtain ⟨g, hg, hob⟩ := (markerGrants_eq_ok hlisted).among.mp hin
            exact .inr (.inr (settled_of_queued (hqueued g hg) hob))
          · exact .inr (.inl ⟨c', by simpa [hid] using hc', hin⟩)
        · exact .inr (.inr hs)
  | @edit id shown page hshown hold hkept =>
      cases hm : d.content (.marker id) with
      | some c =>
          have hnil : page.accessGrants = [] := by
            have := visible_marked hm hshown
            rw [this] at hold
            exact List.eq_nil_iff_forall_not_mem.mpr fun g hg => by
              obtain ⟨_, h', -⟩ := hold g hg
              cases h'
          refine recorded_write h (fun ob hf => .inr (kept_of_marked h hm hf)) ?_
          rw [hnil]
          exact fun _ _ _ ⟨_, hg, _⟩ => nomatch hg
      | none =>
          refine recorded_write h (fun ob hf => ?_) fun c _ hc => by rw [hm] at hc; cases hc
          obtain ⟨g', hg', hob⟩ := (onFile_of_visible hm hshown).mp hf
          rcases hkept g' hg' with hq | ⟨g, hg, hsame⟩
          · exact .inr (.inr (settled_of_queued hq hob))
          · exact .inl ⟨g, hg, hsame.trans hob⟩
  | @submit id page haccepts =>
      rcases haccepts with hnone | ⟨⟨shown, hshown, hcover⟩, hmarked⟩
      · refine recorded_write h (fun ob ⟨v, hv, _⟩ => ?_) fun c _ hc => ?_
        · rw [hnone] at hv
          cases hv
        · have := h.file id c hc
          rw [hnone] at this
          cases this
      · refine recorded_write h (fun ob hf => ?_) fun c ob hc ⟨g, hg, hob⟩ => hmarked c hc g hg ob hob
        cases hm : d.content (.marker id) with
        | some c => exact .inr (kept_of_marked h hm hf)
        | none =>
            obtain ⟨g', hg', hob⟩ := (onFile_of_visible hm hshown).mp hf
            exact .inl (hcover g' hg' ob hob)
  | @unlink id hmarker herased =>
      have hfile : ∀ id' ob, OnFile d id' ob → OnFile (d.unlink (.page id)) id' ob := by
        rintro id' ob hf
        by_cases hid : id = id'
        · subst hid
          exact absurd hf (not_onFile_of_erased herased)
        · simpa [OnFile, hid] using hf
      constructor
      · intro id' c hm
        by_cases hid : id = id'
        · subst hid
          rw [content_unlink, if_neg (by simp), hmarker] at hm
          cases hm
        · simpa [hid] using h.file id' c (by simpa using hm)
      · rintro id' c ob hm ⟨v, hv, ha⟩
        refine h.listed id' c ob (by simpa using hm) ⟨v, ?_, ha⟩
        rw [content_unlink] at hv
        split at hv
        · cases hv
        · exact hv
      · intro p hp ob ha
        exact (h.accounted p hp ob ha).imp (hfile p.1 ob) (Or.imp_left (by simp [InMarker]))
  | reportDeleted r =>
      exact recorded_settle h (fun _ => rfl) rfl fun _ => Or.imp_right (List.mem_cons_of_mem _)
  | @complete resource qurl hdeleted =>
      refine recorded_settle h (fun _ => rfl) rfl fun ob hs => ?_
      rcases hs with ⟨r, hr, hkey⟩ | hd
      · by_cases hrow : r.resource = resource ∧ r.qurl = qurl
        · refine .inr ?_
          rw [← hkey.1, ← hkey.2, hrow.1, hrow.2]
          exact hdeleted
        · exact .inl ⟨r, Table.mem_deleteWhere.mpr ⟨hr, by simpa using hrow⟩, hkey⟩
      · exact .inr hd
  | postpone r retryAfter now =>
      refine recorded_settle h (fun _ => rfl) rfl fun ob => Or.imp_left ?_
      rintro ⟨q, hq, hkey⟩
      have hsame : ∃ q' ∈ (d.postpone r retryAfter now).cleanup,
          (q'.resource, q'.qurl) = (q.resource, q.qurl) := Table.exists_key_updateWhere (by intro; rfl) hq
      obtain ⟨q', hq', hkey'⟩ := hsame
      obtain ⟨hres, hqurl⟩ := Prod.ext_iff.mp hkey'
      exact ⟨q', hq', hres.trans hkey.1, hqurl.trans hkey.2⟩

/-! ## Runs -/

/-- How the gateway calls `replace`: with the page it loaded, grants added
in front or nothing. -/
def Appends (d : Disk) : Act → Prop
  | .replace id v => ∃ shown new, visible d id = some shown ∧
      v = { shown with accessGrants := new ++ shown.accessGrants }.toJson
  | _ => True

/-- Under a marker, `replace` brings nothing that is not on record outside
the page file. -/
def NothingNew (d : Disk) : Act → Prop
  | .replace id v => ∀ c, d.content (.marker id) = some c → ∀ ob, Among (rawGrants v) ob →
      Among (markerRaws c) ob ∨ Settled d ob
  | _ => True

theorem covers_of_call (d : Disk) (a : Act) (ticks : List Tick)
    (h : Appends d a ∧ NothingNew d a ∧ Sighted ticks) : Admits Covers d a ticks := by
  obtain ⟨happend, hnew, hsight⟩ := h
  refine ⟨hsight, fun id page hs => ?_⟩
  cases a with
  | create payload =>
      simp only [Act.submits] at hs
      split at hs
      · split at hs
        · rename_i hnone
          cases hs
          exact .inl hnone
        · cases hs
      · cases hs
  | replace id' v =>
      simp only [Act.submits] at hs
      split at hs
      · rename_i page' hpage
        cases hs
        obtain ⟨shown, new, hshown, rfl⟩ := happend
        have hmatch := (validatePage_eq_ok hpage).2
        refine .inr ⟨⟨shown, hshown, fun g hg ob hob => ?_⟩, fun c hc g hg ob hob => ?_⟩
        · refine hmatch.among.mp (among_toJson.mpr ⟨g, ?_, hob⟩)
          exact List.mem_append_right _ hg
        · exact hnew c hc ob (hmatch.among.mpr ⟨g, hg, hob⟩)
      · cases hs
  | _ => cases hs

end Accounting

/-- The page of `doorPage`, before anything is revoked. -/
def doorOpen : Disk := Disk.empty.write (.page "door") doorPage.toJson

theorem doorOpen_markers (id : String) : doorOpen.content (.marker id) = none := by
  simp [doorOpen]

theorem doorOpen_written :
    ∀ p ∈ doorOpen.written, doorOpen.content (.page p.1) = some (.ok p.2) := by
  intro p hp
  obtain rfl : p = ("door", doorPage.toJson) := by
    simpa [doorOpen, Disk.write, Disk.empty] using hp
  simp [doorOpen]

/-- What the revocation meets: an error right after its marker is in place. -/
def doorError : List Tick :=
  List.replicate 6 ⟨false, false, 0, .success⟩ ++ [⟨true, false, 0, .success⟩]

/-- What it leaves. -/
def doorStopped : Disk :=
  letI := Python.plain
  ((Act.revokePageAccessGrants "door").method.run.run FileOp.step ⟨doorOpen, doorError⟩).2.disk

section Decide

variable [Python]

instance (raws : List Json) (ob : Obligation) : Decidable (Among raws ob) :=
  inferInstanceAs (Decidable (∃ r ∈ raws, rawObligation r = some ob))

instance (d : Disk) (id : String) (ob : Obligation) : Decidable (OnFile d id ob) :=
  match h : d.content (.page id) with
  | some (.ok v) => decidable_of_iff (Among (rawGrants v) ob) (by simp [OnFile, h])
  | some (.error e) => isFalse (by simp [OnFile, h])
  | none => isFalse (by simp [OnFile, h])

instance (d : Disk) (id : String) (ob : Obligation) : Decidable (InMarker d id ob) :=
  match h : d.content (.marker id) with
  | some c => decidable_of_iff (Among (markerRaws c) ob) (by simp [InMarker, h])
  | none => isFalse (by simp [InMarker, h])

omit [Python] in
instance (d : Disk) (ob : Obligation) : Decidable (Settled d ob) :=
  inferInstanceAs (Decidable ((∃ r ∈ d.cleanup.rows, r.resource = ob.resource ∧ r.qurl = ob.qurl) ∨
    (ob.resource, ob.qurl) ∈ d.deleted))

instance (d : Disk) (id : String) (ob : Obligation) : Decidable (Accounted d id ob) :=
  inferInstanceAs (Decidable (OnFile d id ob ∨ InMarker d id ob ∨ Settled d ob))

end Decide

/-- An invitation made afterwards. -/
def newGrant : Grant :=
  { doorGrant with
    id := "grant_BBBBBBBBBBBBBBBB"
    qurlId := "q2"
    id_re := by decide
    stripped := by decide }

/-- The page as it is loaded then, with the invitation in front. -/
def doorInvitation : Act :=
  .replace "door" { doorPage with accessGrants := [newGrant] ++ [] }.toJson

def doorInvited : Disk :=
  letI := Python.plain
  (doorInvitation.method.run.run FileOp.step ⟨doorStopped, []⟩).2.disk

/-- The store recovers. -/
def doorRecovered : Disk :=
  letI := Python.plain
  (Act.recoverPendingRevocations.method.run.run FileOp.step ⟨doorInvited, []⟩).2.disk

end Pages

end AccessPages
