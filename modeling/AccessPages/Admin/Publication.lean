import AccessPages.Common.Keyed
import AccessPages.Admin.Grants
import AccessPages.Pages.Failures
/-!
# Admin — the policy store follows the gateway

A page is in the gateway's store and its policy in the policy store. The
two change one after the other, with a marker on the disk in between, and
the gateway can die between any two steps, lose a request or only its
reply. Creations, edits, deletions and retries of different pages
interleave; those of one page exclude each other.
-/

namespace AccessPages

namespace Admin

open HomeAssistant (Answers)
open Pages (Disk Page Grant PageError validatePage validatePageId pageIdRe rawGrants Keeps OnOk
  NamesResource keeps_mono keeps_bind keeps_pure keeps_throw keeps_lift keeps_ask keeps_seq
  keeps_checkId keeps_isFile keeps_requireFile keeps_read keeps_write keeps_load_bind
  onFile_eq_some visible marked onFile content_write content_unlink content_enqueue
  validatePage_toJson validatePage_checked validatePageId_of_re validatePage_eq_ok
  validatePage_erased update_grants visible_checked strip_pageId)

/-! ## What belongs to a page -/

section Parts

/-- The file operations on the files of a page, and those on no file. -/
def OwnFile (p : String) : Pages.FileOp → Prop
  | .isFile q => q = .page p ∨ q = .marker p
  | .read q => q = .page p ∨ q = .marker p
  | .write q _ => q = .page p ∨ q = .marker p
  | .unlink q => q = .page p ∨ q = .marker p
  | .ensureDirectory => True
  | .sync => True
  | .enqueue .. => True
  | _ => False

/-- The operations on a page. -/
def For (p : String) : Op → Prop
  | .file e => OwnFile p e
  | .openMarker q => q = p
  | .unlinkMarker q => q = p
  | .put q _ => q = p
  | .remove q => q = p
  | .syncMarkers => True
  | .listMarkers => False

/-- Two disks have the same files of a page. -/
structure SameFiles (p : String) (d d' : Disk) : Prop where
  page : d'.content (.page p) = d.content (.page p)
  marker : d'.content (.marker p) = d.content (.marker p)

/-- Two worlds agree on a page: on its files, on whether its policy is pending,
and on its policy. -/
structure SamePage (p : String) (w w' : World) : Prop where
  files : SameFiles p w.disk w'.disk
  pending : p ∈ w'.pending ↔ p ∈ w.pending
  policy : w'.policies.find? p = w.policies.find? p

theorem SameFiles.refl (p : String) (d : Disk) : SameFiles p d d := ⟨rfl, rfl⟩

theorem SamePage.refl (p : String) (w : World) : SamePage p w w := ⟨.refl p _, Iff.rfl, rfl⟩

variable {p : String} {d d' : Disk} {q : Pages.Path}

theorem SameFiles.content (h : SameFiles p d d') (hq : q = .page p ∨ q = .marker p) :
    d'.content q = d.content q := by
  rcases hq with rfl | rfl
  · exact h.page
  · exact h.marker

theorem SameFiles.congr {c c' : Disk} (h : SameFiles p d d')
    (hc : ∀ q, c.content q = d.content q) (hc' : ∀ q, c'.content q = d'.content q) :
    SameFiles p c c' :=
  ⟨by rw [hc, hc', h.page], by rw [hc, hc', h.marker]⟩

theorem SameFiles.write (h : SameFiles p d d') (v : Json) :
    SameFiles p (d.write q v) (d'.write q v) := by
  constructor
  · rw [content_write, content_write, h.page]
  · rw [content_write, content_write, h.marker]

theorem SameFiles.unlink (h : SameFiles p d d') : SameFiles p (d.unlink q) (d'.unlink q) := by
  constructor
  · rw [content_unlink, content_unlink, h.page]
  · rw [content_unlink, content_unlink, h.marker]

/-- Such an operation reads and changes the files of the page alone. -/
theorem own_perform {e : Pages.FileOp} (he : OwnFile p e) (t : Pages.Tick)
    (h : SameFiles p d d') :
    (e.perform t d').1 = (e.perform t d).1 ∧ SameFiles p (e.perform t d).2 (e.perform t d').2 := by
  cases e with
  | isFile q =>
      refine ⟨?_, h⟩
      show Except.ok (d'.content q).isSome = Except.ok (d.content q).isSome
      rw [h.content he]
  | read q =>
      refine ⟨?_, h⟩
      show Except.ok ((d'.content q).getD _) = Except.ok ((d.content q).getD _)
      rw [h.content he]
  | write q v => exact ⟨rfl, h.write v⟩
  | unlink q =>
      simp only [Pages.FileOp.perform, h.content he]
      split
      · exact ⟨rfl, h.unlink⟩
      · exact ⟨rfl, h⟩
  | enqueue i g => exact ⟨rfl, h.congr (fun _ => content_enqueue) fun _ => content_enqueue⟩
  | ensureDirectory => exact ⟨rfl, h⟩
  | sync => exact ⟨rfl, h⟩
  | _ => exact he.elim

theorem other_perform {p' : String} {e : Pages.FileOp} (hp : p' ≠ p) (he : OwnFile p' e)
    (t : Pages.Tick) : SameFiles p d (e.perform t d).2 := by
  have hne : ∀ q : Pages.Path, q = .page p' ∨ q = .marker p' → q ≠ .page p ∧ q ≠ .marker p := by
    rintro q (rfl | rfl)
    · exact ⟨fun h => hp (Pages.Path.page.inj h), (by rintro ⟨⟩)⟩
    · exact ⟨(by rintro ⟨⟩), fun h => hp (Pages.Path.marker.inj h)⟩
  cases e with
  | write q v =>
      obtain ⟨hpage, hmarker⟩ := hne q he
      constructor
      · exact content_write.trans (if_neg hpage)
      · exact content_write.trans (if_neg hmarker)
  | unlink q =>
      obtain ⟨hpage, hmarker⟩ := hne q he
      simp only [Pages.FileOp.perform]
      split
      · constructor
        · exact content_unlink.trans (if_neg hpage)
        · exact content_unlink.trans (if_neg hmarker)
      · exact .refl p d
  | enqueue i g => exact ⟨content_enqueue, content_enqueue⟩
  | isFile q => exact .refl p d
  | read q => exact .refl p d
  | ensureDirectory => exact .refl p d
  | sync => exact .refl p d
  | _ => exact he.elim

/-- An operation on one file, at its tick. -/
theorem fileOp_step (e : Pages.FileOp) (d : Disk) (t : Pages.Tick) :
    e.step ⟨d, [t]⟩ = if e.fails t then (e.failed, ⟨d, []⟩)
      else ((e.perform t d).1, ⟨(e.perform t d).2, []⟩) := rfl

variable {w w' : World}

theorem same_apply {e : Op} (he : For p e) (h : SamePage p w w') :
    SamePage p (e.apply w) (e.apply w') := by
  cases e with
  | openMarker r =>
      obtain rfl : r = p := he
      have hmem : ∀ w : World, r ∈ ((Op.openMarker r).apply w).pending := by
        intro w
        show r ∈ if r ∈ w.pending then w.pending else r :: w.pending
        split
        · assumption
        · exact List.mem_cons_self
      exact ⟨h.files, ⟨fun _ => hmem w, fun _ => hmem w'⟩, h.policy⟩
  | unlinkMarker r =>
      obtain rfl : r = p := he
      have hmem : ∀ w : World, r ∉ ((Op.unlinkMarker r).apply w).pending := by
        intro w hr
        simpa using (List.mem_filter.mp hr).2
      exact ⟨h.files, ⟨fun hr => absurd hr (hmem w'), fun hr => absurd hr (hmem w)⟩, h.policy⟩
  | put r v =>
      obtain rfl : r = p := he
      refine ⟨h.files, h.pending, ?_⟩
      show (w'.policies.insertOrReplace (r, v)).find? r =
        (w.policies.insertOrReplace (r, v)).find? r
      rw [Table.find?_insertOrReplace, Table.find?_insertOrReplace, if_pos rfl, if_pos rfl]
  | remove r =>
      refine ⟨h.files, h.pending, ?_⟩
      show (w'.policies.deleteWhere _).find? p = (w.policies.deleteWhere _).find? p
      rw [Table.find?_deleteWhere, Table.find?_deleteWhere, h.policy]
  | file e => exact h
  | syncMarkers => exact h
  | listMarkers => exact h

theorem other_apply {p' : String} {e : Op} (hp : p' ≠ p) (he : For p' e) (w : World) :
    SamePage p w (e.apply w) := by
  cases e with
  | openMarker r =>
      obtain rfl : r = p' := he
      refine ⟨.refl p _, ?_, rfl⟩
      show p ∈ (if r ∈ w.pending then w.pending else r :: w.pending) ↔ _
      split
      · exact Iff.rfl
      · rw [List.mem_cons]
        exact or_iff_right (Ne.symm hp)
  | unlinkMarker r =>
      obtain rfl : r = p' := he
      refine ⟨.refl p _, ?_, rfl⟩
      show p ∈ w.pending.filter _ ↔ _
      rw [List.mem_filter]
      exact and_iff_left (by simpa using Ne.symm hp)
  | put r v =>
      obtain rfl : r = p' := he
      refine ⟨.refl p _, Iff.rfl, ?_⟩
      show (w.policies.insertOrReplace (r, v)).find? p = _
      rw [Table.find?_insertOrReplace, if_neg hp]
  | remove r =>
      obtain rfl : r = p' := he
      refine ⟨.refl p _, Iff.rfl, ?_⟩
      show (w.policies.deleteWhere _).find? p = _
      rw [Table.find?_deleteWhere]
      cases hf : w.policies.find? p with
      | none => rfl
      | some f =>
          have hkey : f.1 = p := (Table.find?_eq_some.mp hf).2
          refine Option.filter_eq_some_iff.mpr ⟨rfl, ?_⟩
          simpa [hkey] using Ne.symm hp
  | file e => exact .refl p w
  | syncMarkers => exact .refl p w
  | listMarkers => exact .refl p w

theorem same_settle {e : Op} {error : Failure} (he : For p e) (t : Tick) (h : SamePage p w w') :
    (e.settle t error w').1 = (e.settle t error w).1 ∧
      SamePage p (e.settle t error w).2 (e.settle t error w').2 := by
  unfold Op.settle
  split
  · refine ⟨rfl, ?_⟩
    dsimp only
    split
    · exact same_apply he h
    · exact h
  · exact ⟨rfl, same_apply he h⟩

theorem other_settle {p' : String} {e : Op} {error : Failure} (hp : p' ≠ p) (he : For p' e)
    (t : Tick) (w : World) : SamePage p w (e.settle t error w).2 := by
  unfold Op.settle
  split
  · dsimp only
    split
    · exact other_apply hp he w
    · exact .refl p w
  · exact other_apply hp he w

theorem same_step {e : Op} (he : For p e) (t : Tick) (h : SamePage p w w') :
    (e.step t w').1 = (e.step t w).1 ∧ SamePage p (e.step t w).2 (e.step t w').2 := by
  cases e with
  | file e =>
      simp only [Op.step, fileOp_step]
      split
      · exact ⟨rfl, h⟩
      · obtain ⟨hans, hfiles⟩ := own_perform he t.file h.files
        exact ⟨hans, hfiles, h.pending, h.policy⟩
  | openMarker r => exact same_settle (e := .openMarker r) he t h
  | syncMarkers => exact same_settle (e := .syncMarkers) he t h
  | unlinkMarker r => exact same_settle (e := .unlinkMarker r) he t h
  | put r v => exact same_settle (e := .put r v) he t h
  | remove r => exact same_settle (e := .remove r) he t h
  | listMarkers => exact he.elim

theorem other_step {p' : String} {e : Op} (hp : p' ≠ p) (he : For p' e) (t : Tick) (w : World) :
    SamePage p w (e.step t w).2 := by
  cases e with
  | file e =>
      simp only [Op.step, fileOp_step]
      split
      · exact .refl p w
      · exact ⟨other_perform hp he t.file, Iff.rfl, rfl⟩
  | openMarker r => exact other_settle (e := .openMarker r) hp he t w
  | syncMarkers => exact other_settle (e := .syncMarkers) hp he t w
  | unlinkMarker r => exact other_settle (e := .unlinkMarker r) hp he t w
  | put r v => exact other_settle (e := .put r v) hp he t w
  | remove r => exact other_settle (e := .remove r) hp he t w
  | listMarkers => exact he.elim

end Parts

section Publication

variable [Python]

/-! ## The page and its policy -/

/-- What is true of a raw grant and of the grant it is validated to alike, and
stays true when a grant is stored again. -/
structure Trait (T : Json → Prop) (R : Grant → Prop) : Prop where
  valid : ∀ {seen v g}, Pages.validateGrant seen v = .ok g → (T v ↔ R g)
  toJson : ∀ {g : Grant}, R g → T g.toJson
  forgetLink : ∀ {g : Grant}, R g → R g.forgetLink

/-- What the gateway has on file of a page: a validated page with the policy
`o`, or nothing. `R` is what is tracked of its grants. -/
def Files (R : Grant → Prop) (p : String) (o : Option Json) (d : Disk) : Prop :=
  match o with
  | none => d.content (.page p) = none
  | some policy => ∃ q : Page, d.content (.page p) = some (.ok q.toJson) ∧ q.Checked ∧ q.id = p ∧
      (∀ g ∈ q.accessGrants, R g) ∧ policyOf q = policy

/-- Neither store has the page, or the policy store holds the gateway's page
without its grants. -/
def Agrees (p : String) (w : World) : Prop :=
  (w.disk.content (.page p) = none ∧ w.policies.find? p = none) ∨
    ∃ q : Page, w.disk.content (.page p) = some (.ok q.toJson) ∧ q.id = p ∧
      w.policies.find? p = some (p, policyOf q)

/-- What holds of a page at any time: a page without a marker agrees. -/
structure Tracked (R : Grant → Prop) (p : String) (w : World) : Prop where
  valid : p ∈ w.pending → pageIdRe p = true
  filed : ∃ o, Files R p o w.disk
  agrees : p ∉ w.pending → Agrees p w

/-- A change of the page is under way. -/
structure Open (R : Grant → Prop) (p : String) (o : Option Json) (w : World) : Prop where
  valid : pageIdRe p = true
  pending : p ∈ w.pending
  files : Files R p o w.disk

variable {T : Json → Prop} {R : Grant → Prop} {p : String} {o : Option Json} {d d' : Disk}
variable {w w' : World}

theorem Files.congr (h : Files R p o d) (hp : d'.content (.page p) = d.content (.page p)) :
    Files R p o d' := by
  cases o with
  | none => exact hp.trans h
  | some policy =>
      obtain ⟨q, hc, hq⟩ := h
      exact ⟨q, hp.trans hc, hq⟩

theorem files_write {q : Page} (hq : q.Checked) (hid : q.id = p)
    (hgrants : ∀ g ∈ q.accessGrants, R g) :
    Files R p (some (policyOf q)) (d.write (.page p) q.toJson) :=
  ⟨q, by rw [content_write, if_pos rfl], hq, hid, hgrants, rfl⟩

theorem Files.mono {R' : Grant → Prop} (h : Files R p o d) (hR : ∀ g, R g → R' g) :
    Files R' p o d := by
  cases o with
  | none => exact h
  | some policy =>
      obtain ⟨q, hc, hchecked, hid, hgrants, hpolicy⟩ := h
      exact ⟨q, hc, hchecked, hid, fun g hg => hR g (hgrants g hg), hpolicy⟩

theorem Tracked.mono {R' : Grant → Prop} (h : Tracked R p w) (hR : ∀ g, R g → R' g) :
    Tracked R' p w := ⟨h.valid, h.filed.imp fun _ ho => ho.mono hR, h.agrees⟩

theorem files_unlink : Files R p none (d.unlink (.page p)) := by
  show (d.unlink (.page p)).content (.page p) = none
  rw [content_unlink, if_pos rfl]

/-- The grants of a validated document have what its raw grants have. -/
theorem Trait.grants (hT : Trait T R) {v : Json} {requiredId : Option String} {q : Page}
    (hq : validatePage v requiredId = .ok q) :
    (∀ r ∈ rawGrants v, T r) ↔ ∀ g ∈ q.accessGrants, R g :=
  Pages.rawGrants_forall_iff (fun _ _ _ h => hT.valid h) hq

/-- A page that is stored again. -/
theorem Trait.page (hT : Trait T R) {q : Page} (h : ∀ g ∈ q.accessGrants, R g) :
    ∀ r ∈ rawGrants q.toJson, T r := by
  intro r hr
  rw [Pages.rawGrants_toJson] at hr
  obtain ⟨g, hg, rfl⟩ := List.mem_map.mp hr
  exact hT.toJson (h g hg)

/-- What a file of the page is read as has the policy on file. -/
theorem Files.read {v : Json} {page : Page} (h : Files R p o d)
    (hc : d.content (.page p) = some (.ok v)) (hv : validatePage v (some p) = .ok page) :
    page.Checked ∧ page.id = p ∧ o = some (policyOf page) := by
  cases o with
  | none =>
      rw [show d.content (.page p) = none from h] at hc
      cases hc
  | some policy =>
      obtain ⟨q, hq, hchecked, hid, -, rfl⟩ := h
      obtain rfl := Except.ok.inj (Option.some.inj (hq.symm.trans hc))
      have hpage := validatePage_checked hv
      obtain ⟨-, rfl⟩ := (validatePage_toJson hchecked (by rintro r ⟨⟩; exact hid)).mp hv
      exact ⟨hpage, hid, rfl⟩

/-- And the grants on file. -/
theorem Files.grants (hT : Trait T R) {v : Json} {page : Page} (h : Files R p o d)
    (hc : d.content (.page p) = some (.ok v)) (hv : validatePage v (some p) = .ok page) :
    ∀ g ∈ page.accessGrants, R g := by
  refine (hT.grants hv).mp ?_
  cases o with
  | none =>
      rw [show d.content (.page p) = none from h] at hc
      cases hc
  | some policy =>
      obtain ⟨q, hq, -, -, hgrants, -⟩ := h
      obtain rfl := Except.ok.inj (Option.some.inj (hq.symm.trans hc))
      exact hT.page hgrants

/-- The same of what is shown. -/
theorem Files.shown {page : Page} (h : Files R p o d) (hv : visible d p = some page) :
    page.Checked ∧ page.id = p ∧ o = some (policyOf page) := by
  have hchecked := visible_checked hv
  obtain ⟨full, hfull, rfl⟩ := Option.map_eq_some_iff.mp hv
  obtain ⟨v, hc, hread⟩ := onFile_eq_some.mp hfull
  obtain ⟨-, hid, ho⟩ := h.read hc hread
  refine ⟨hchecked, ?_, ?_⟩
  · split <;> exact hid
  · split <;> exact ho

theorem Files.shownGrants (hT : Trait T R) {page : Page} (h : Files R p o d)
    (hv : visible d p = some page) : ∀ g ∈ page.accessGrants, R g := by
  obtain ⟨full, hfull, rfl⟩ := Option.map_eq_some_iff.mp hv
  obtain ⟨v, hc, hread⟩ := onFile_eq_some.mp hfull
  split
  · exact fun g hg => absurd hg List.not_mem_nil
  · exact h.grants hT hc hread

omit [Python] in
theorem Agrees.same (hs : SamePage p w w') (h : Agrees p w) : Agrees p w' := by
  unfold Agrees
  rw [hs.files.page, hs.policy]
  exact h

theorem Tracked.same (hs : SamePage p w w') (h : Tracked R p w) : Tracked R p w' where
  valid hp := h.valid (hs.pending.mp hp)
  filed := h.filed.imp fun _ ho => ho.congr hs.files.page
  agrees hp := (h.agrees fun hp' => hp (hs.pending.mpr hp')).same hs

/-- Both stores have what is on file. -/
theorem agrees_of_files (h : Files R p o w.disk) (hp : w.policies.find? p = o.map (p, ·)) :
    Agrees p w := by
  cases o with
  | none => exact .inl ⟨h, hp⟩
  | some policy =>
      obtain ⟨q, hc, -, hid, -, rfl⟩ := h
      exact .inr ⟨q, hc, hid, hp⟩

omit [Python] in
theorem policyOf_toJson (q : Page) : Pages.withGrants [] q.toJson = policyOf q := rfl

/-- What the policy store has of a page that agrees. -/
theorem Agrees.policy (h : Agrees p w) (hf : Files R p o w.disk) :
    w.policies.find? p = o.map (p, ·) := by
  cases o with
  | none =>
      rcases h with ⟨-, hp⟩ | ⟨q, hc, -⟩
      · exact hp
      · rw [show w.disk.content (.page p) = none from hf] at hc
        cases hc
  | some policy =>
      obtain ⟨q, hq, hchecked, hid, -, rfl⟩ := hf
      rcases h with ⟨hc, -⟩ | ⟨q', hc, hid', hp⟩
      · rw [hq] at hc
        cases hc
      · rw [hp]
        have hjson := Except.ok.inj (Option.some.inj (hc.symm.trans hq))
        rw [← policyOf_toJson q', hjson, policyOf_toJson]
        rfl

theorem Open.tracked (h : Open R p o w) : Tracked R p w :=
  ⟨fun _ => h.valid, ⟨o, h.files⟩, fun hp => absurd h.pending hp⟩

/-- A page without a file has no grants. -/
theorem Open.withoutFile {R' : Grant → Prop} (h : Open R p none w) : Open R' p none w :=
  ⟨h.valid, h.pending, h.files⟩

/-- A step on the files of a page whose change is under way. -/
theorem Open.on {o' : Option Json} (h : Open R p o w) (hf : Files R p o' d) :
    Open R p o' (w.on d) := ⟨h.valid, h.pending, hf⟩

/-- A step on the files of a page that leaves its policy as it is. -/
theorem Tracked.on {R' : Grant → Prop} (h : Tracked R p w) (hf : Files R p o w.disk)
    (hd : Files R' p o d) : Tracked R' p (w.on d) :=
  ⟨h.valid, ⟨o, hd⟩, fun hp => agrees_of_files (w := w.on d) hd ((h.agrees hp).policy hf)⟩

/-- **The policy store takes a policy as it is**: its own validation changes
nothing. -/
theorem policy_accepted {q : Page} (hq : q.Checked) :
    validatePage (Pages.withGrants [] (policyOf q)) (some q.id) =
      .ok { q with accessGrants := [] } := by
  have hsame : Pages.withGrants [] (policyOf q) = policyOf q :=
    policyOf_toJson { q with accessGrants := [] }
  rw [hsame]
  exact validatePage_erased hq (by rintro r ⟨⟩; rfl)

/-! ## The page store -/

section Store

open Prog (Returns returns_bind returns_pure returns_throw returns_lift)

omit [Python] in
theorem own_write {v : Json} {q : Pages.Path} (hq : q = .page p ∨ q = .marker p) :
    Returns (OwnFile p) (Pages.write q v) fun _ => True := by
  refine returns_bind (returns_ask trivial) fun _ _ => ?_
  exact returns_bind (returns_ask hq) fun _ _ => returns_ask trivial

omit [Python] in
theorem own_requireFile : Returns (OwnFile p) (Pages.requireFile p) fun _ => True := by
  refine returns_bind (returns_ask (.inl rfl)) fun b _ => ?_
  split
  · exact returns_pure trivial
  · exact returns_throw

theorem own_load : Returns (OwnFile p) (Pages.loadUnlocked p) fun _ => True := by
  refine returns_bind returns_checkId fun _ _ => returns_bind own_requireFile fun _ _ => ?_
  refine returns_bind (returns_ask (.inl rfl)) fun content _ => ?_
  split
  · exact returns_throw
  · exact returns_throw
  · exact returns_throw
  · refine returns_bind (returns_lift fun _ _ => trivial) fun page _ => ?_
    refine returns_bind (returns_ask (.inr rfl)) fun b _ => ?_
    split
    · exact returns_pure trivial
    · exact returns_pure trivial

omit [Python] in
theorem own_enqueueAll (gs : List Grant) :
    Returns (OwnFile p) (Pages.enqueueAll p gs) fun _ => True := by
  induction gs with
  | nil => exact returns_pure trivial
  | cons g gs ih => exact returns_bind (returns_ask trivial) fun _ _ => ih

theorem own_eraseGrants : Returns (OwnFile p) (Pages.eraseGrants p) fun _ => True := by
  refine returns_bind (returns_ask (.inl rfl)) fun b _ => ?_
  split
  · refine returns_bind (returns_ask (.inl rfl)) fun content _ => ?_
    split
    · exact returns_throw
    · exact returns_throw
    · exact returns_bind (returns_lift fun _ _ => trivial) fun page _ => own_write (.inl rfl)
  · exact returns_pure trivial

theorem own_recover : Returns (OwnFile p) (Pages.recoverRevocationUnlocked p) fun _ => True := by
  refine returns_bind returns_checkId fun _ _ => returns_bind (returns_ask (.inr rfl)) fun b _ => ?_
  split
  · refine returns_bind (returns_ask (.inr rfl)) fun content _ => ?_
    split
    · exact returns_throw
    · refine returns_bind (own_enqueueAll _) fun _ _ => returns_bind own_eraseGrants fun _ _ => ?_
      exact returns_bind (returns_ask (.inr rfl)) fun _ _ => returns_ask trivial
  · exact returns_pure trivial

theorem own_revokePage : Returns (OwnFile p) (Pages.revokePageAccessGrants p) fun _ => True := by
  refine returns_bind own_recover fun _ _ => returns_bind own_load fun page _ => ?_
  dsimp only
  split
  · exact returns_pure trivial
  · refine returns_bind (own_write (.inr rfl)) fun _ _ => ?_
    exact returns_bind own_recover fun _ _ => returns_pure trivial

theorem own_delete : Returns (OwnFile p) (Pages.delete p) fun _ => True := by
  refine returns_bind returns_checkId fun _ _ => returns_bind own_requireFile fun _ _ => ?_
  refine returns_bind own_revokePage fun _ _ => ?_
  exact returns_bind (returns_ask (.inl rfl)) fun _ _ => returns_ask trivial

theorem own_replace {v : Json} : Returns (OwnFile p) (Pages.replaceUnlocked p v) fun _ => True := by
  refine returns_bind returns_checkId fun _ _ => returns_bind own_requireFile fun _ _ => ?_
  refine returns_bind (returns_lift fun _ _ => trivial) fun page _ => ?_
  exact returns_bind (own_write (.inl rfl)) fun _ _ => returns_pure trivial

theorem own_update {payload : Json} :
    Returns (OwnFile p) (Pages.update p payload) fun _ => True := by
  refine returns_bind returns_checkId fun _ _ => returns_bind own_requireFile fun _ _ => ?_
  refine returns_bind own_load fun current _ => returns_bind (returns_lift fun _ _ => trivial) ?_
  exact fun page _ => returns_bind (own_write (.inl rfl)) fun _ _ => returns_pure trivial

theorem own_create {payload : Json}
    (hid : ∀ page, validatePage payload none = .ok page → page.id = p) :
    Returns (OwnFile p) (Pages.create payload) fun _ => True := by
  refine returns_bind (returns_lift (Q := fun page => page.id = p) hid) fun page hp => ?_
  subst hp
  refine returns_bind (returns_ask (.inl rfl)) fun b _ => ?_
  split
  · exact returns_throw
  · exact returns_bind (own_write (.inl rfl)) fun _ _ => returns_pure trivial

/-! ### What they leave on file -/

variable {α : Type}

omit [Python] in
theorem keeps_imp {S : Prop} {J J' : Disk → Prop} {m : Pages.FileM α}
    {Q : Except PageError α → Disk → Prop} (h : Keeps S J m Q d) (hJ : ∀ d', J d' → J' d') :
    Keeps S J' m Q d := by
  refine ⟨fun ticks hticks => Prog.wp_iff.mpr ⟨fun w hw => ?_, h.outcome hticks⟩⟩
  obtain ⟨hblind, hw⟩ := (Prog.wp_iff.mp (h.wp ticks hticks)).1 w hw
  exact ⟨hblind, hJ _ hw⟩

omit [Python] in
theorem keeps_and {S : Prop} {J J' : Disk → Prop} {m : Pages.FileM α}
    {Q Q' : Except PageError α → Disk → Prop} (h : Keeps S J m Q d) (h' : Keeps S J' m Q' d) :
    Keeps S J m (fun r d' => Q r d' ∧ Q' r d') d :=
  ⟨fun ticks hticks => Prog.wp_iff.mpr ⟨(Prog.wp_iff.mp (h.wp ticks hticks)).1,
    h.outcome hticks, h'.outcome hticks⟩⟩

omit [Python] in
/-- Nothing is told of the end. -/
theorem keeps_end {S : Prop} {J : Disk → Prop} {m : Pages.FileM α} {P : α → Disk → Prop}
    (h : Keeps S J m (OnOk P) d) : Keeps S J m (OnOk fun _ _ => True) d :=
  keeps_mono h fun r _ _ _ => by cases r <;> trivial

/-- The records of a cleanup are on no page's file. -/
theorem keeps_enqueue (h : Files R p o d) (gs : List Grant) :
    Keeps False (Files R p o) (Pages.enqueueAll p gs) (OnOk fun _ d' => ∀ q, d'.content q = d.content q)
      d := by
  have hkeeps : ∀ d', (∀ q, d'.content q = d.content q) →
      Keeps False (fun c => ∀ q, c.content q = d.content q) (Pages.enqueueAll p gs)
        (OnOk fun _ c => ∀ q, c.content q = d.content q) d' := by
    induction gs with
    | nil => exact fun d' hd => keeps_pure hd hd
    | cons g gs ih =>
        intro d' hd
        refine keeps_seq (P := fun _ _ => True) (keeps_ask hd trivial fun t => ⟨?_, trivial⟩)
          fun _ d'' hd'' _ => ih d'' hd''
        exact fun q => content_enqueue.trans (hd q)
  exact keeps_imp (hkeeps d fun _ => rfl) fun d' hd => h.congr (hd _)

/-- A page that replaces one with its policy. -/
theorem keeps_writePage {q : Page} (h : Files R p o d) (hq : q.Checked) (hid : q.id = p)
    (hgrants : ∀ g ∈ q.accessGrants, R g) (ho : o = some (policyOf q)) :
    Keeps False (Files R p o) (Pages.write (.page p) q.toJson) (OnOk fun _ _ => True) d := by
  subst ho
  exact keeps_end (keeps_write h (files_write hq hid hgrants))

theorem keeps_writeMarker {v : Json} (h : Files R p o d) :
    Keeps False (Files R p o) (Pages.write (.marker p) v) (OnOk fun _ _ => True) d := by
  have hmarker : Files R p o (d.write (.marker p) v) :=
    h.congr (content_write.trans (if_neg (by rintro ⟨⟩)))
  exact keeps_end (keeps_write h hmarker)

theorem keeps_erase (h : Files R p o d) :
    Keeps False (Files R p o) (Pages.eraseGrants p) (OnOk fun _ _ => True) d := by
  unfold Pages.eraseGrants
  refine keeps_isFile h ?_
  split
  · refine keeps_read h fun c hc => ?_
    split
    · exact keeps_throw h trivial
    · exact keeps_throw h trivial
    · rename_i v
      refine keeps_lift h (fun _ => trivial) fun page hpage => ?_
      have hcontent : d.content (.page p) = some (.ok v) := by
        rcases hc with ⟨text, htext⟩ | hc
        · cases htext
        · exact hc
      obtain ⟨hchecked, hid, ho⟩ := h.read hcontent hpage
      exact keeps_writePage h hchecked.erase hid (fun _ hg => absurd hg List.not_mem_nil) ho
  · exact keeps_pure h trivial

theorem keeps_recoverPage (h : Files R p o d) :
    Keeps False (Files R p o) (Pages.recoverRevocationUnlocked p) (OnOk fun _ _ => True) d := by
  unfold Pages.recoverRevocationUnlocked
  refine Pages.keeps_checkId h (fun _ => trivial) (keeps_isFile h ?_)
  split
  · refine keeps_read h fun c _ => ?_
    split
    · exact keeps_throw h trivial
    · refine keeps_seq (keeps_enqueue h _) fun _ d₁ h₁ _ => ?_
      refine keeps_seq (keeps_erase h₁) fun _ d₂ h₂ _ => ?_
      refine keeps_seq (P := fun _ _ => True) (keeps_ask h₂ trivial fun t => ?_) fun _ d₃ h₃ _ =>
        keeps_ask h₃ trivial fun _ => ⟨h₃, trivial⟩
      simp only [Pages.FileOp.perform]
      split
      · exact ⟨h₂.congr (content_unlink.trans (if_neg (by rintro ⟨⟩))), trivial⟩
      · exact ⟨h₂, trivial⟩
  · exact keeps_pure h trivial

/-- A revocation leaves the policy as it is. -/
theorem keeps_revoke (h : Files R p o d) :
    Keeps False (Files R p o) (Pages.revokePageAccessGrants p) (OnOk fun _ _ => True) d := by
  unfold Pages.revokePageAccessGrants
  refine keeps_seq (keeps_recoverPage h) fun _ d₁ h₁ _ => ?_
  refine keeps_load_bind h₁ (fun _ => trivial) fun page _ => ?_
  dsimp only
  split
  · exact keeps_pure h₁ trivial
  · refine keeps_seq (keeps_writeMarker h₁) fun _ d₂ h₂ _ => ?_
    exact keeps_seq (keeps_recoverPage h₂) fun _ d₃ h₃ _ => keeps_pure h₃ trivial

/-- A page on file without grants has none of any kind. -/
theorem Files.erased {R' : Grant → Prop} (h : Files R p o d) (he : Pages.Erased d p) :
    Files R' p o d := by
  cases o with
  | none => exact h
  | some policy =>
      obtain ⟨q, hc, hchecked, hid, -, hpolicy⟩ := h
      obtain ⟨v, hv, hraw⟩ := he _ hc
      obtain rfl := Except.ok.inj hv
      rw [Pages.rawGrants_toJson, List.map_eq_nil_iff] at hraw
      have hnone : ∀ g ∈ q.accessGrants, R' g := fun g hg => absurd hg (hraw ▸ List.not_mem_nil)
      exact ⟨q, hc, hchecked, hid, hnone, hpolicy⟩

/-- And no grant on file. -/
theorem keeps_revokeAll (h : Files R p o d) :
    Keeps False (Files R p o) (Pages.revokePageAccessGrants p)
      (OnOk fun _ d' => Files (fun _ => False) p o d') d := by
  have herased : Keeps False (Pages.Steps (fun _ _ _ => False) d) (Pages.revokePageAccessGrants p)
      (OnOk fun _ d' => d'.content (.marker p) = none ∧ Pages.Erased d' p) d :=
    Pages.keeps_revokePage .refl
  refine keeps_mono (keeps_and (keeps_revoke h) herased) fun r d' h' hr => ?_
  cases r with
  | error e => trivial
  | ok _ => exact Files.erased h' hr.2.2

/-- A deletion of the page ends without its file. -/
theorem keeps_deletePage (h : Files R p o d) :
    Keeps False (fun d' => ∃ o', Files R p o' d') (Pages.delete p) (OnOk fun _ d' => Files R p none d')
      d := by
  unfold Pages.delete
  refine Pages.keeps_checkId ⟨o, h⟩ (fun _ => trivial)
    (keeps_requireFile ⟨o, h⟩ (fun _ => trivial) fun _ => ?_)
  refine keeps_seq (keeps_mono (keeps_imp (keeps_revoke h) fun _ h' => ⟨o, h'⟩) fun r _ _ hr => hr)
    fun _ d₁ h₁ _ => ?_
  refine keeps_seq (P := fun _ d' => Files R p none d') (keeps_ask h₁ trivial fun t => ?_)
    fun _ d₂ h₂ hnone => keeps_ask h₂ trivial fun _ => ⟨h₂, hnone⟩
  simp only [Pages.FileOp.perform]
  split
  · exact ⟨⟨none, files_unlink⟩, @files_unlink _ R p d₁⟩
  · exact ⟨h₁, trivial⟩

/-! ### Pages that are stored again -/

omit [Python] in
theorem getD_withGrants_of_ne {fields : List (String × Json)} {gs v : Json} {key : String}
    (hkey : key ≠ "access_grants") :
    Json.getD (fields.filter (·.1 ≠ "access_grants") ++ [("access_grants", gs)]) key v =
      Json.getD fields key v := by
  induction fields with
  | nil => simp [Json.getD, Json.get?, List.lookup, beq_false_of_ne hkey]
  | cons f fields ih =>
      obtain ⟨k, x⟩ := f
      by_cases hf : k = "access_grants"
      · have hne : (key == k) = false := by simpa [hf] using hkey
        rw [List.filter_cons_of_neg (by simpa using hf), ih]
        simp only [Json.getD, Json.get?, List.lookup_cons, hne]
      · rw [List.filter_cons_of_pos (by simpa using hf), List.cons_append]
        simp only [Json.getD, Json.get?, List.lookup_cons] at ih ⊢
        cases key == k with
        | true => rfl
        | false => exact ih

/-- Fields that agree but for the grants make the same page, but for the
grants. -/
theorem validatePage_same {raw raw' : List (String × Json)} {requiredId : Option String} {q : Page}
    (hget : ∀ key v, key ≠ "access_grants" → Json.getD raw' key v = Json.getD raw key v)
    (hgrants : Json.getD raw' "access_grants" (.arr []) = .arr [])
    (h : validatePage (.obj raw) requiredId = .ok q) :
    validatePage (.obj raw') requiredId = .ok { q with accessGrants := [] } := by
  have htext : ∀ key, key ≠ "access_grants" → Json.text raw' key "" = Json.text raw key "" := by
    intro key hkey
    rw [Json.text, Json.text, hget key _ hkey]
  have hnone : Pages.validateAccessGrants (.arr []) = .ok [] := rfl
  unfold validatePage at h ⊢
  dsimp only at h ⊢
  rw [hget "id" _ (by decide), htext "title" (by decide), htext "description" (by decide),
    hget "proximity" _ (by decide), hget "resources" _ (by decide), hgrants, hnone]
  simp only [Pages.except_bind_eq_ok] at h ⊢
  obtain ⟨id, hid, hr, hrequired, ht, htitle, hd, hdescription, proximity, hproximity, h⟩ := h
  refine ⟨id, hid, hr, hrequired, ht, htitle, hd, hdescription, proximity, hproximity, ?_⟩
  split at h
  · simp only [Pages.except_bind_eq_ok] at h ⊢
    obtain ⟨resources, hresources, gs, -, h⟩ := h
    cases h
    exact ⟨resources, hresources, [], rfl, rfl⟩
  · cases h

/-- **The grants of a page are validated apart from the rest**: without them the
page is the same. -/
theorem validatePage_withoutGrants {v : Json} {requiredId : Option String} {q : Page}
    (h : validatePage v requiredId = .ok q) :
    validatePage (Pages.withGrants [] v) requiredId = .ok { q with accessGrants := [] } := by
  cases v with
  | obj raw =>
      exact validatePage_same (fun _ _ hkey => getD_withGrants_of_ne hkey)
        (Pages.getD_withGrants [] raw) h
  | _ => cases h

/-- A page that is stored again with other grants has the policy it had. -/
theorem policyOf_regranted {v : Json} {page q : Page} (hpage : page.Checked) (hid : page.id = p)
    (hsame : Pages.withGrants [] v = policyOf page) (hq : validatePage v (some p) = .ok q) :
    policyOf q = policyOf page := by
  have hread := validatePage_withoutGrants hq
  rw [hsame] at hread
  have herased := @validatePage_erased _ page (some p) hpage (by rintro r ⟨⟩; exact hid)
  have heq := Except.ok.inj (hread.symm.trans herased)
  unfold policyOf
  rw [heq]

theorem namesResource_toJson {g : Grant} (h : g.Named) : NamesResource g.toJson := by
  have hcrid : Json.text g.fields "resource_crid" "" = g.resourceCrid :=
    Pages.text_of rfl (g.stripped _ (by simp))
  have hscope : Json.get? g.fields "upstream_scope" = some (.str g.upstreamScope.name) := rfl
  show Pages.isText (Json.get? g.fields "upstream_scope") "guest" = true →
    Json.text g.fields "resource_crid" "" ≠ ""
  rw [hcrid, hscope]
  intro hguest
  refine h ?_
  cases hs : g.upstreamScope with
  | guest => rfl
  | page =>
      rw [hs] at hguest
      exact absurd hguest (by decide)

/-- What `replace` writes is what was validated. -/
theorem keeps_replace {S : Prop} {J : Disk → Prop} {v : Json} (hJ : J d)
    (hw : ∀ q, validatePage v (some p) = .ok q → J (d.write (.page p) q.toJson)) :
    Keeps S J (Pages.replaceUnlocked p v) (OnOk fun q d' => validatePage v (some p) = .ok q ∧
      d' = d.write (.page p) q.toJson) d := by
  unfold Pages.replaceUnlocked
  refine Pages.keeps_checkId hJ (fun _ => trivial) ?_
  refine keeps_requireFile hJ (fun _ => trivial) fun _ => ?_
  refine keeps_lift hJ (fun _ => trivial) fun q hq => ?_
  exact keeps_seq (keeps_write hJ (hw q hq)) fun _ _ h' hd => keeps_pure h' ⟨hq, hd⟩

/-- What was loaded is stored again with other grants. -/
theorem keeps_regrant {T' : Json → Prop} {R' : Grant → Prop} (hT : Trait T R) (hT' : Trait T' R')
    {v : Json} {page : Page} (h : Files R p o d) (hv : visible d p = some page)
    (hsame : Pages.withGrants [] v = policyOf page) (hraw : ∀ r ∈ rawGrants v, T r ∧ T' r) :
    Keeps False (Files R p o) (Pages.replaceUnlocked p v) (OnOk fun _ d' => Files R' p o d') d := by
  obtain ⟨hchecked, hid, rfl⟩ := h.shown hv
  have hwritten : ∀ {T : Json → Prop} {R : Grant → Prop} {q : Page}, Trait T R →
      (∀ r ∈ rawGrants v, T r) → validatePage v (some p) = .ok q →
      Files R p (some (policyOf page)) (d.write (.page p) q.toJson) := by
    intro T R q hT hraw hq
    rw [← policyOf_regranted hchecked hid hsame hq]
    exact files_write (validatePage_checked hq) ((validatePage_eq_ok hq).1 p rfl)
      ((hT.grants hq).mp hraw)
  have hkeeps := keeps_replace (S := False) h fun q hq => hwritten hT (fun r hr => (hraw r hr).1) hq
  refine keeps_mono hkeeps fun r d' _ hr => ?_
  cases r with
  | error e => trivial
  | ok q =>
      obtain ⟨hq, rfl⟩ := hr
      exact hwritten hT' (fun r hr => (hraw r hr).2) hq

end Store

/-! ## The jobs -/

/-- The last step of an invitation: the page is loaded again and stored with one
more grant. -/
def addGrant (id : String) (grant : Json) : Pages.FileM Page := do
  let page ← Pages.loadUnlocked id
  Pages.replaceUnlocked id (.obj (page.fields.filter (·.1 ≠ "access_grants") ++
    [("access_grants", .arr (grant :: page.accessGrants.map Grant.toJson))]))

theorem own_addGrant {grant : Json} :
    Prog.Returns (OwnFile p) (addGrant p grant) fun _ => True :=
  Prog.returns_bind own_load fun _ _ => own_replace

theorem own_removeGrant {grantId : String} :
    Prog.Returns (OwnFile p) (Pages.removeAccessGrant p grantId) fun _ => True := by
  refine Prog.returns_bind own_load fun page _ => ?_
  dsimp only
  split
  · exact Prog.returns_throw
  · exact Prog.returns_bind (own_enqueueAll _) fun _ _ => own_replace

theorem own_forgetLink {grantId : String} :
    Prog.Returns (OwnFile p) (Pages.removeSavedGuestLink p grantId) fun _ => True := by
  refine Prog.returns_bind own_load fun page _ => ?_
  split
  · exact Prog.returns_throw
  · exact own_replace

/-- What is done to one page, under its lock: the requests of the owner, and one
page of `retry_pending_policies`. -/
inductive Job where
  | create (a : Answers) (payload : Json)
  | edit (a : Answers) (id : String) (payload : Json)
  | delete (id : String)
  | invite (id : String) (grant : Json)
  | revoke (id grantId : String)
  | forget (id grantId : String)
  | revokeAll (id : String)
  | retry (id : { id : String // pageIdRe id = true })

/-- The page that a job locks. -/
def Job.page : Job → String
  | create _ payload => payloadId payload
  | edit _ id _ => id
  | delete id => id
  | invite id _ => id
  | revoke id _ => id
  | forget id _ => id
  | revokeAll id => id
  | retry id => id.1

def Job.handler (cfg : Config) : Job → AdminM Unit
  | create a payload => do let _ ← createPage cfg a payload
  | edit a id payload => do let _ ← editPage cfg a id payload
  | delete id => deletePage cfg id
  | invite id grant => do let _ ← store (addGrant id grant)
  | revoke id grantId => do let _ ← store (Pages.removeAccessGrant id grantId)
  | forget id grantId => do let _ ← store (Pages.removeSavedGuestLink id grantId)
  | revokeAll id => do let _ ← store (Pages.revokePageAccessGrants id)
  | retry id => retryPolicy cfg id.1

/-- The gateway, with what happens to its disk and to its policy store. A job is
answered by its name and its outcome. -/
def service (cfg : Config) :
    Service Job String Tick Op Op.Ans (Job × Except Failure Unit) World where
  serve j := (j.handler cfg).run >>= fun r => pure (j, r)
  key := Job.page
  perform := Op.step

/-- What is true of the grants that a job brings. -/
def Job.Brings (T : Json → Prop) : Job → Prop
  | create _ payload => ∀ r ∈ rawGrants payload, T r
  | invite _ grant => T grant
  | _ => True

/-! ### Grants -/

section Grants

theorem keeps_addGrant (hT : Trait T R) {grant : Json} (h : Files R p o d) (hgrant : T grant) :
    Keeps False (Files R p o) (addGrant p grant) (OnOk fun _ d' => Files R p o d') d := by
  unfold addGrant
  refine keeps_load_bind h (fun _ => trivial) fun page hv => ?_
  refine keeps_regrant hT hT h hv rfl fun r hr => and_self_iff.mpr ?_
  have hraw : rawGrants (.obj (page.fields.filter (·.1 ≠ "access_grants") ++
      [("access_grants", .arr (grant :: page.accessGrants.map Grant.toJson))])) =
      grant :: page.accessGrants.map Grant.toJson := rfl
  rw [hraw] at hr
  rcases List.mem_cons.mp hr with rfl | hr
  · exact hgrant
  · obtain ⟨g, hg, rfl⟩ := List.mem_map.mp hr
    exact hT.toJson (h.shownGrants hT hv g hg)

/-- Grants of the page, or made of them. -/
theorem keeps_regrantPage {T' : Json → Prop} {R' : Grant → Prop} (hT : Trait T R)
    (hT' : Trait T' R') {page : Page} {gs : List Grant} (h : Files R p o d)
    (hv : visible d p = some page) (hgs : ∀ g ∈ gs, R g ∧ R' g) :
    Keeps False (Files R p o) (Pages.replaceUnlocked p { page with accessGrants := gs }.toJson)
      (OnOk fun _ d' => Files R' p o d') d := by
  refine keeps_regrant hT hT' h hv rfl fun r hr => ⟨?_, ?_⟩
  · exact hT.page (q := { page with accessGrants := gs }) (fun g hg => (hgs g hg).1) r hr
  · exact hT'.page (q := { page with accessGrants := gs }) (fun g hg => (hgs g hg).2) r hr

/-- Is not the grant. -/
def Other (grantId : String) (g : Grant) : Prop := g.id ≠ grantId

/-- Does not become the grant. -/
def RawOther (grantId : String) (v : Json) : Prop := Pages.rawId v ≠ grantId

theorem trait_other (grantId : String) : Trait (RawOther grantId) (Other grantId) where
  valid h := by
    unfold RawOther Other
    rw [(Pages.validateGrant_eq_ok h).1]
  toJson h := by
    unfold RawOther
    rw [(Pages.same_toJson _).1]
    exact h
  forgetLink h := h

/-- A revocation leaves the other grants. -/
theorem keeps_removeGrant (hT : Trait T R) {grantId : String} (h : Files R p o d) :
    Keeps False (Files R p o) (Pages.removeAccessGrant p grantId)
      (OnOk fun _ d' => Files (Other grantId) p o d') d := by
  unfold Pages.removeAccessGrant
  refine keeps_load_bind h (fun _ => trivial) fun page hv => ?_
  dsimp only
  split
  · exact keeps_throw h trivial
  · refine keeps_seq (keeps_enqueue h _) fun _ d' h' hd => ?_
    have hv' : visible d' p = some page := (Pages.visible_congr hd).trans hv
    refine keeps_regrantPage hT (trait_other grantId) h' hv' fun g hg => ?_
    obtain ⟨hmem, hkept⟩ := List.mem_filter.mp hg
    have hne : g.id ≠ grantId := by simpa using hkept
    exact ⟨h.shownGrants hT hv g hmem, hne⟩

theorem keeps_forgetLink (hT : Trait T R) {grantId : String} (h : Files R p o d) :
    Keeps False (Files R p o) (Pages.removeSavedGuestLink p grantId)
      (OnOk fun _ d' => Files R p o d') d := by
  unfold Pages.removeSavedGuestLink
  refine keeps_load_bind h (fun _ => trivial) fun page hv => ?_
  split
  · exact keeps_throw h trivial
  · refine keeps_regrantPage hT hT h hv fun g hg => and_self_iff.mpr ?_
    obtain ⟨g', hg', rfl⟩ := List.mem_map.mp hg
    have hold := h.shownGrants hT hv g' hg'
    split
    · exact hT.forgetLink hold
    · exact hold

end Grants

/-! ### The publisher -/

section Publisher

variable {α : Type} {cfg : Config}

omit [Python] in
theorem asks_own {x : Pages.FileM α} (hx : Prog.Returns (OwnFile p) x fun _ => True) :
    Prog.Asks (fun e => For p (.file e)) x.run := by
  have hends := hx.ends
  generalize x.run = m at hends
  induction m with
  | ret r => trivial
  | op e k ih => exact ⟨hends.1, fun r => ih r (hends.2 r)⟩

/-- A method of the page store, on the files of the page. -/
theorem handles_own {x : Pages.FileM α} {K : Disk → Prop} {Q' : Except PageError α → Disk → Prop}
    {Q : Except Failure α → World → Prop} (hx : Prog.Returns (OwnFile p) x fun _ => True)
    (h : Keeps False K x Q' w.disk) (hK : ∀ d, K d → Tracked R p (w.on d))
    (hQ : ∀ r d, K d → Q' r d → Q (r.mapError .page) (w.on d)) :
    Handles (For p) (Tracked R p) (store x) Q w :=
  handles_store (asks_own hx) (keeps_imp (keeps_mono h hQ) hK)

/-- A method that leaves the policy as it is. -/
theorem handles_kept {R' : Grant → Prop} {x : Pages.FileM α} (hw : Tracked R p w)
    (hx : Prog.Returns (OwnFile p) x fun _ => True)
    (h : ∀ o, Files R p o w.disk →
      Keeps False (Files R p o) x (OnOk fun _ d' => Files R' p o d') w.disk) :
    Handles (For p) (Tracked R p) (store x) (fun r w' => ∀ a, r = .ok a → Tracked R' p w') w := by
  obtain ⟨o, ho⟩ := hw.filed
  refine handles_own hx (h o ho) (fun d hd => hw.on ho hd) fun r d _ hr a ha => ?_
  rw [mapError_eq_ok ha] at hr
  exact hw.on ho hr

theorem Open.of_same (h : Open R p o w) (hdisk : w'.disk = w.disk) (hp : p ∈ w'.pending) :
    Open R p o w' := ⟨h.valid, hp, hdisk ▸ h.files⟩

omit [Python] in
theorem mem_marked (w : World) (p : String) : p ∈ (w.marked p).pending := by
  show p ∈ if p ∈ w.pending then w.pending else p :: w.pending
  split
  · assumption
  · exact List.mem_cons_self

omit [Python] in
theorem not_mem_cleared (w : World) (p : String) : p ∉ (w.cleared p).pending := by
  intro hp
  simpa using (List.mem_filter.mp hp).2

/-- The intent to publish is on the disk before anything changes. -/
theorem handles_open (hc : cfg.configured = true) (hw : Tracked R p w) (hf : Files R p o w.disk)
    (hstrip : strip p = p) :
    Handles (For p) (Tracked R p) (prepare cfg p) (fun r w' => w'.disk = w.disk ∧
      (p ∈ w.pending → p ∈ w'.pending) ∧ (r = .ok () → Open R p o w')) w := by
  refine handles_prepare hw (fun e => ⟨rfl, id, (by rintro ⟨⟩)⟩) (fun n hn => ?_) fun hf => ?_
  · have hname : n.1 = p := by
      unfold validatePageId at hn
      simp only [Pages.except_bind_eq_ok] at hn
      obtain ⟨hre, -, hn⟩ := hn
      rw [← Except.ok.inj hn]
      exact hstrip
    have hvalid : pageIdRe p = true := hname ▸ n.2
    have hopen : Open R p o (w.marked p) := ⟨hvalid, mem_marked w p, hf⟩
    rw [hname]
    exact ⟨rfl, trivial, hopen.tracked, fun e => ⟨rfl, fun _ => hopen.pending, (by rintro ⟨⟩)⟩,
      rfl, fun _ => hopen.pending, fun _ => hopen⟩
  · rw [hc] at hf
    cases hf

/-- The policy store acknowledged what is on file. -/
theorem handles_close (hw : Open R p o w) (hp : w.policies.find? p = o.map (p, ·)) :
    Handles (For p) (Tracked R p) (clear cfg p) (fun r _ => r = .ok ()) w := by
  have hagrees : Agrees p (w.cleared p) := agrees_of_files (w := w.cleared p) hw.files hp
  have hcleared : Tracked R p (w.cleared p) :=
    ⟨fun h => absurd h (not_mem_cleared w p), ⟨o, hw.files⟩, fun _ => hagrees⟩
  exact handles_clear (fun _ => hw.valid) hw.tracked rfl trivial rfl ⟨hcleared, rfl⟩

/-- What is left of a request that went wrong, of a page that was marked. -/
def StillOpen (R : Grant → Prop) (p : String) (o : Option Json) (w : World)
    (r : Except Failure Unit) (w' : World) : Prop := p ∈ w.pending → r = .error .publish → Open R p o w'

/-- A request to the policy store with what is on file. -/
theorem leads_request {e : Op} (hw : Open R p o w) (he : For p e)
    (hdisk : (e.apply w).disk = w.disk) (hpending : (e.apply w).pending = w.pending)
    (hp : (e.apply w).policies.find? p = o.map (p, ·)) :
    Leads (For p) (Tracked R p) (fun r w' => Open R p o w' ∧
      (r = .ok () → w'.policies.find? p = o.map (p, ·))) e .publish w := by
  have hafter : Open R p o (e.apply w) := hw.of_same hdisk (hpending ▸ hw.pending)
  exact ⟨he, hw.tracked, hafter.tracked, ⟨hw, (by rintro ⟨⟩)⟩, ⟨hafter, (by rintro ⟨⟩)⟩,
    hafter, fun _ => hp⟩

theorem handles_publish (hc : cfg.configured = true) {page : Page} (hid : page.id = p)
    (hw : Tracked R p w) (hf : Files R p (some (policyOf page)) w.disk) :
    Handles (For p) (Tracked R p) (publish cfg page)
      (StillOpen R p (some (policyOf page)) w) w := by
  subst hid
  unfold publish
  refine handles_seq (handles_open hc hw hf (strip_pageId page.id_re)) ?_ ?_
  · rintro e w' - ⟨hdisk, hpending, -⟩ hp -
    exact ⟨page.id_re, hpending hp, hdisk ▸ hf⟩
  rintro _ w' - ⟨-, -, hopen⟩
  dsimp only
  rw [if_pos hc]
  have hput : ((Op.put page.id (policyOf page)).apply w').policies.find? page.id =
      some (page.id, policyOf page) := by
    show (w'.policies.insertOrReplace (page.id, policyOf page)).find? page.id = _
    rw [Table.find?_insertOrReplace, if_pos rfl]
  refine handles_seq (handles_put (leads_request (hopen rfl) rfl rfl rfl hput)) ?_ ?_
  · exact fun e w'' _ h _ _ => h.1
  · rintro _ w'' - ⟨hopen', hp⟩
    refine handles_mono (handles_close hopen' (hp rfl)) fun r _ _ hr _ hr' => ?_
    rw [hr] at hr'
    cases hr'

theorem handles_deletePolicy (hc : cfg.configured = true) (hvalid : pageIdRe p = true)
    (hw : Tracked R p w) (hf : Files R p none w.disk) :
    Handles (For p) (Tracked R p) (deletePolicy cfg p) (fun _ _ => True) w := by
  unfold deletePolicy
  refine handles_seq (handles_open hc hw hf (strip_pageId hvalid)) (fun _ _ _ _ => trivial) ?_
  rintro _ w' - ⟨-, -, hopen⟩
  dsimp only
  rw [if_pos hc]
  have hremove : ((Op.remove p).apply w').policies.find? p = none := by
    show (w'.policies.deleteWhere fun r => r.1 = p).find? p = none
    rw [Table.find?_deleteWhere, Option.filter_eq_none_iff]
    intro r hr
    simpa using (Table.find?_eq_some.mp hr).2
  refine handles_seq (handles_remove (leads_request (hopen rfl) rfl rfl rfl hremove))
    (fun _ _ _ _ => trivial) ?_
  rintro _ w'' - ⟨hopen', hp⟩
  exact handles_mono (handles_close hopen' (hp rfl)) fun _ _ _ _ => trivial

/-- A page that is published, or taken back. -/
theorem handles_publishOrBack (hc : cfg.configured = true) {page : Page} {rollback : AdminM Unit}
    (hid : page.id = p) (hw : Open R p (some (policyOf page)) w)
    (hback : ∀ w', Open R p (some (policyOf page)) w' →
      Handles (For p) (Tracked R p) rollback (fun _ _ => True) w') :
    Handles (For p) (Tracked R p) (publishOr cfg page rollback) (fun _ _ => True) w := by
  unfold publishOr
  refine handles_seq (P := fun r w' => ∃ r', r = .ok r' ∧
    StillOpen R p (some (policyOf page)) w r' w') (handles_attempt
      (handles_mono (handles_publish hc hid hw.tracked hw.files) fun r w' _ hr => ⟨r, rfl, hr⟩))
      ?_ ?_
  · exact fun _ _ _ _ => trivial
  · rintro r w' hw' ⟨r', hr, hopen⟩
    obtain rfl := Except.ok.inj hr
    split
    · exact handles_pure hw' trivial
    · exact handles_seq (hback w' (hopen hw.pending rfl)) (fun _ _ _ _ => trivial) fun _ _ h' _ =>
        handles_throw h' trivial
    · exact handles_throw hw' trivial

end Publisher

/-! ### The requests -/

section Requests

variable {cfg : Config}

omit [Python] in
theorem mem_rawGrants_withGrants {gs : List Grant} {v r : Json}
    (hr : r ∈ rawGrants (Pages.withGrants gs v)) : ∃ g ∈ gs, g.toJson = r := by
  cases v with
  | obj fields =>
      rw [Pages.rawGrants_withGrants] at hr
      exact List.mem_map.mp hr
  | _ => cases hr

/-- What was stored is what was validated. -/
theorem keeps_createPolicy (hT : Trait T R) {payload : Json} (h : Files R p o d)
    (hid : ∀ page, validatePage payload none = .ok page → page.id = p)
    (hraw : ∀ r ∈ rawGrants payload, T r) :
    Keeps False (fun d' => ∃ o', Files R p o' d') (Pages.create payload)
      (OnOk fun page d' => page.id = p ∧ Files R p (some (policyOf page)) d') d := by
  unfold Pages.create
  refine keeps_lift ⟨o, h⟩ (fun _ => trivial) fun page hpage => ?_
  obtain rfl := hid page hpage
  refine keeps_isFile ⟨o, h⟩ ?_
  split
  · exact keeps_throw ⟨o, h⟩ trivial
  · have hw : Files R page.id (some (policyOf page)) (d.write (.page page.id) page.toJson) :=
      files_write (validatePage_checked hpage) rfl ((hT.grants hpage).mp hraw)
    refine keeps_seq (keeps_write ⟨o, h⟩ ⟨_, hw⟩) fun _ d' hd' hwritten => ?_
    exact keeps_pure hd' ⟨rfl, hwritten ▸ hw⟩

theorem keeps_updatePolicy (hT : Trait T R) {payload : Json} (h : Files R p o d) :
    Keeps False (fun d' => ∃ o', Files R p o' d') (Pages.update p payload)
      (OnOk fun page d' => page.id = p ∧ Files R p (some (policyOf page)) d') d := by
  unfold Pages.update
  refine Pages.keeps_checkId ⟨o, h⟩ (fun _ => trivial)
    (keeps_requireFile ⟨o, h⟩ (fun _ => trivial) fun _ => ?_)
  refine keeps_load_bind ⟨o, h⟩ (fun _ => trivial) fun current hv => ?_
  refine keeps_lift ⟨o, h⟩ (fun _ => trivial) fun page hpage => ?_
  have hid : page.id = p := (validatePage_eq_ok hpage).1 p rfl
  have hw : Files R p (some (policyOf page)) (d.write (.page p) page.toJson) := by
    refine files_write (validatePage_checked hpage) hid ((hT.grants hpage).mp fun r hr => ?_)
    obtain ⟨g, hg, rfl⟩ := mem_rawGrants_withGrants hr
    exact hT.toJson (h.shownGrants hT hv g hg)
  refine keeps_seq (keeps_write ⟨o, h⟩ ⟨_, hw⟩) fun _ d' hd' hwritten => ?_
  exact keeps_pure hd' ⟨hid, hwritten ▸ hw⟩

theorem validatePage_found {v : Json} {n : String} :
    validatePage v (some p) ≠ .error (.notFound n) := by
  intro h
  rcases Pages.validatePage_eq_error h with ⟨message, hm⟩ | ⟨he, -⟩ | ⟨he, -⟩
  · cases hm
  · cases he
  · cases he

/-- A page that has a file is not missing. -/
theorem keeps_loadFound {c : Pages.Content} (hvalid : pageIdRe p = true)
    (hc : d.content (.page p) = some c) :
    Keeps False (fun d' => d' = d) (Pages.loadUnlocked p)
      (fun r _ => ∀ n, r ≠ .error (.notFound n)) d := by
  have hpresent : (d.content (.page p)).isSome = true := by rw [hc]; rfl
  unfold Pages.loadUnlocked Pages.checkId Pages.requireFile
  rw [validatePageId_of_re hvalid]
  refine keeps_bind (keeps_bind (keeps_pure rfl (keeps_pure rfl ?_)))
  refine keeps_bind (keeps_isFile rfl ?_)
  rw [if_pos hpresent]
  refine keeps_pure rfl (keeps_read rfl fun c' _ => ?_)
  split
  · exact keeps_throw rfl (by rintro n ⟨⟩)
  · exact keeps_throw rfl (by rintro n ⟨⟩)
  · exact keeps_throw rfl (by rintro n ⟨⟩)
  · rename_i v _
    cases hv : validatePage v (some p) with
    | error e =>
        refine keeps_bind (keeps_throw rfl fun n hn => ?_)
        rw [Except.error.inj hn] at hv
        exact validatePage_found hv
    | ok page =>
        refine keeps_bind (keeps_pure rfl (keeps_isFile rfl ?_))
        split
        · exact keeps_pure rfl (by rintro n ⟨⟩)
        · exact keeps_pure rfl (by rintro n ⟨⟩)

/-- What a load says of the page. -/
def Loaded (p : String) (w : World) (r : Except Failure Page) (w' : World) : Prop :=
  w' = w ∧ (∀ page, r = .ok page → visible w.disk p = some page) ∧
    ∀ n, pageIdRe p = true → r = .error (.page (.notFound n)) → w.disk.content (.page p) = none

theorem handles_load (hw : Tracked R p w) :
    Handles (For p) (Tracked R p) (store (Pages.loadUnlocked p)) (Loaded p w) w := by
  have hmissing : Keeps False (fun d' => d' = w.disk) (Pages.loadUnlocked p) (fun r _ =>
      ∀ n, pageIdRe p = true → r = .error (.notFound n) → w.disk.content (.page p) = none)
      w.disk := by
    cases hc : w.disk.content (.page p) with
    | none => exact keeps_mono (Pages.keeps_load rfl) fun _ _ _ _ _ _ _ => rfl
    | some c =>
        by_cases hvalid : pageIdRe p = true
        · exact keeps_mono (keeps_loadFound hvalid hc) fun r _ _ hr n _ h => absurd h (hr n)
        · exact keeps_mono (Pages.keeps_load rfl) fun _ _ _ _ _ h => absurd h hvalid
  refine handles_own own_load (keeps_and (Pages.keeps_load (J := (· = w.disk)) rfl) hmissing) ?_ ?_
  · rintro d rfl
    exact hw
  · rintro r d rfl ⟨⟨-, hv⟩, hm⟩
    refine ⟨rfl, fun page hpage => ?_, fun n hvalid hr => ?_⟩
    · exact hv page (mapError_eq_ok hpage)
    · cases r with
      | ok page => cases hr
      | error e => exact hm n hvalid (congrArg _ (Failure.page.inj (Except.error.inj hr)))

theorem strip_payloadId (payload : Json) : strip (payloadId payload) = payloadId payload := by
  cases payload with
  | obj fields => exact Pages.strip_text ..
  | _ => rfl

/-- A page has the identifier its payload names. -/
theorem id_of_payload {payload : Json} {page : Page} (h : validatePage payload none = .ok page) :
    page.id = payloadId payload := by
  cases payload with
  | obj fields =>
      simp only [validatePage, Pages.except_bind_eq_ok] at h
      obtain ⟨n, hn, _, -, _, -, _, -, _, -, h⟩ := h
      have hid : n.1 = payloadId (.obj fields) := by
        unfold validatePageId at hn
        simp only [Pages.except_bind_eq_ok] at hn
        obtain ⟨hre, -, hn⟩ := hn
        exact (congrArg Subtype.val (Except.ok.inj hn)).symm
      split at h
      · simp only [Pages.except_bind_eq_ok] at h
        obtain ⟨_, -, _, -, h⟩ := h
        cases h
        exact hid
      · cases h
  | _ => cases h

/-- A write to the page whose change is under way. -/
theorem handles_stored {x : Pages.FileM Page} (hw : Open R p o w)
    (hx : Prog.Returns (OwnFile p) x fun _ => True)
    (h : Keeps False (fun d' => ∃ o', Files R p o' d') x
      (OnOk fun page d' => page.id = p ∧ Files R p (some (policyOf page)) d') w.disk) :
    Handles (For p) (Tracked R p) (store x) (fun r w' => ∀ page, r = .ok page →
      page.id = p ∧ Open R p (some (policyOf page)) w') w := by
  refine handles_own hx h (fun d hd => ?_) fun r d _ hr page hpage => ?_
  · obtain ⟨o', ho'⟩ := hd
    exact (hw.on ho').tracked
  · rw [mapError_eq_ok hpage] at hr
    exact ⟨hr.1, hw.on hr.2⟩

/-- A page whose change is under way is deleted. -/
theorem handles_deleted (hw : Open R p o w) :
    Handles (For p) (Tracked R p) (store (Pages.delete p))
      (fun r w' => r = .ok () → Open R p none w') w := by
  refine handles_own own_delete (keeps_deletePage hw.files) (fun d hd => ?_) fun r d _ hr hok => ?_
  · obtain ⟨o', ho'⟩ := hd
    exact (hw.on ho').tracked
  · rw [mapError_eq_ok hok] at hr
    exact hw.on hr

/-- A page as it was loaded is stored again. -/
theorem handles_restored (hT : Trait T R) {previous : Page} (hw : Open R p o w)
    (hgrants : ∀ g ∈ previous.accessGrants, R g) :
    Handles (For p) (Tracked R p) (store (Pages.replaceUnlocked p previous.toJson))
      (fun _ _ => True) w := by
  have hkeeps : Keeps False (fun d' => ∃ o', Files R p o' d')
      (Pages.replaceUnlocked p previous.toJson) (OnOk fun _ _ => True) w.disk := by
    refine keeps_end (keeps_replace ⟨o, hw.files⟩ fun q hq =>
      ⟨_, files_write (validatePage_checked hq) ?_ ?_⟩)
    · exact (validatePage_eq_ok hq).1 p rfl
    · exact (hT.grants hq).mp (hT.page hgrants)
  refine handles_own own_replace hkeeps (fun d hd => ?_) fun _ _ _ _ => trivial
  obtain ⟨o', ho'⟩ := hd
  exact (hw.on ho').tracked

theorem handles_create (hT : Trait T R) {a : Answers} {payload : Json} (hc : cfg.configured = true)
    (hw : Tracked R p w) (hp : payloadId payload = p)
    (hraw : ∀ r ∈ rawGrants payload, T r) :
    Handles (For p) (Tracked R p) (createPage cfg a payload) (fun _ _ => True) w := by
  have hid : ∀ page, validatePage payload none = .ok page → page.id = p :=
    fun page h => (id_of_payload h).trans hp
  obtain ⟨o, ho⟩ := hw.filed
  unfold createPage
  refine handles_seq (P := fun r w' => ∀ page, r = .ok page →
    page.id = p ∧ Open R p (some (policyOf page)) w') ?_ (fun _ _ _ _ => trivial) ?_
  · unfold acceptPage
    refine handles_bind (handles_ret hw ?_)
    cases validateEntityPolicy cfg.client a payload with
    | error e => exact fun _ h => by cases h
    | ok u =>
        rw [hp]
        refine handles_seq (handles_open hc hw ho (hp ▸ strip_payloadId payload)) ?_ ?_
        · exact fun e w' _ _ page h => by cases h
        · rintro _ w' - ⟨hdisk, -, hopen⟩
          have hfiles := (hopen rfl).files
          exact handles_stored (hopen rfl) (own_create hid) (keeps_createPolicy hT hfiles hid hraw)
  · intro page w' hw' hpage
    obtain ⟨hid', hopen⟩ := hpage page rfl
    refine handles_seq (handles_publishOrBack hc hid' hopen fun w'' hopen' => ?_)
      (fun _ _ _ _ => trivial) fun _ _ h' _ => handles_pure h' trivial
    rw [hid']
    exact handles_mono (handles_deleted hopen') fun _ _ _ _ => trivial

theorem handles_edit (hT : Trait T R) {a : Answers} {payload : Json} (hc : cfg.configured = true)
    (hw : Tracked R p w) :
    Handles (For p) (Tracked R p) (editPage cfg a p payload) (fun _ _ => True) w := by
  obtain ⟨o, ho⟩ := hw.filed
  unfold editPage
  refine handles_seq (P := fun r w' => ∀ previous page, r = .ok (previous, page) →
    page.id = p ∧ Open R p (some (policyOf page)) w' ∧ ∀ g ∈ previous.accessGrants, R g) ?_
    (fun _ _ _ _ => trivial) ?_
  · unfold acceptEdit
    refine handles_bind (handles_ret hw ?_)
    cases validateEntityPolicy cfg.client a payload with
    | error e => exact fun _ _ h => by cases h
    | ok u =>
        refine handles_seq (handles_load hw) (fun _ _ _ _ _ _ h => by cases h) ?_
        rintro previous w' - ⟨rfl, hv, -⟩
        obtain ⟨-, hid, -⟩ := ho.shown (hv previous rfl)
        have hgrants := ho.shownGrants hT (hv previous rfl)
        have hvalid : pageIdRe p = true := hid ▸ previous.id_re
        refine handles_seq (handles_open hc hw ho (strip_pageId hvalid)) ?_ ?_
        · exact fun e w' _ _ _ _ h => by cases h
        · rintro _ w' - ⟨-, -, hopen⟩
          have hstored := handles_stored (x := Pages.update p payload) (hopen rfl) own_update
            (keeps_updatePolicy hT (hopen rfl).files)
          refine handles_seq hstored (fun _ _ _ _ _ _ h => by cases h) fun page w'' h'' hpage => ?_
          refine handles_pure h'' fun previous' page' h => ?_
          cases h
          exact ⟨(hpage page rfl).1, (hpage page rfl).2, hgrants⟩
  · rintro ⟨previous, page⟩ w' hw' hpage
    obtain ⟨hid, hopen, hgrants⟩ := hpage previous page rfl
    refine handles_seq (handles_publishOrBack hc hid hopen fun w'' hopen' => ?_)
      (fun _ _ _ _ => trivial) fun _ _ h' _ => handles_pure h' trivial
    exact handles_seq (handles_restored hT hopen' hgrants) (fun _ _ _ _ => trivial)
      fun _ _ h' _ => handles_pure h' trivial

theorem handles_deletePage (hc : cfg.configured = true) (hw : Tracked R p w) :
    Handles (For p) (Tracked R p) (deletePage cfg p)
      (fun r w' => r = .ok () → Tracked (fun _ => False) p w') w := by
  obtain ⟨o, ho⟩ := hw.filed
  unfold deletePage
  refine handles_seq (handles_load hw) (fun _ _ _ _ h => by cases h) ?_
  rintro page w' - ⟨rfl, hv, -⟩
  obtain ⟨-, hid, -⟩ := ho.shown (hv page rfl)
  have hvalid : pageIdRe p = true := hid ▸ page.id_re
  refine handles_seq (handles_open hc hw ho (strip_pageId hvalid)) (fun _ _ _ _ h => by cases h) ?_
  rintro _ w' - ⟨-, -, hopen⟩
  refine handles_seq (handles_deleted (hopen rfl)) (fun _ _ _ _ h => by cases h) ?_
  intro _ w'' _ hnone
  have hgone : Open (fun _ => False) p none w'' := (hnone rfl).withoutFile
  have hpolicy : Handles (For p) (Tracked R p) (attempt (deletePolicy cfg p))
      (fun _ w' => Tracked (fun _ => False) p w') w'' := by
    refine handles_imp (handles_attempt (handles_mono
      (handles_deletePolicy hc hvalid hgone.tracked hgone.files) fun _ _ h _ => h)) ?_
    exact fun w' h => h.mono fun _ hg => hg.elim
  refine handles_seq hpolicy (fun _ _ _ h => fun _ => h) fun r _ h' hnothing => ?_
  split
  · exact handles_pure h' fun _ => hnothing
  · exact handles_pure h' fun _ => hnothing
  · exact handles_throw h' fun _ => hnothing

theorem handles_retry (hc : cfg.configured = true) (hvalid : pageIdRe p = true)
    (hw : Tracked R p w) :
    Handles (For p) (Tracked R p) (retryPolicy cfg p) (fun _ _ => True) w := by
  obtain ⟨o, ho⟩ := hw.filed
  unfold retryPolicy
  refine handles_seq (P := fun r w' => ∃ r', r = .ok r' ∧ Loaded p w r' w') (handles_attempt
    (handles_mono (handles_load hw) fun r _ _ hr => ⟨r, rfl, hr⟩)) (fun _ _ _ _ => trivial) ?_
  rintro r w' - ⟨r', hr, rfl, hv, hm⟩
  obtain rfl := Except.ok.inj hr
  split
  · rename_i page
    obtain ⟨-, hid, rfl⟩ := ho.shown (hv page rfl)
    exact handles_mono (handles_publish hc hid hw ho) fun _ _ _ _ => trivial
  · exact handles_deletePolicy hc hvalid hw (hm _ hvalid rfl)
  · exact handles_throw hw trivial

/-- The jobs that take a grant from its page. -/
def Job.revokes (grantId : String) : Job → Bool
  | revoke _ revoked => revoked == grantId
  | revokeAll _ => true
  | delete _ => true
  | _ => false

/-- What is left by a job that is done. -/
def Job.Done (grantId : String) (j : Job) (r : Except Failure Unit) (w : World) : Prop :=
  r = .ok () → j.revokes grantId = true → Tracked (Other grantId) j.page w

/-- **A job keeps its page**, and a revocation takes its grant. -/
theorem handles_job (hT : Trait T R) (hc : cfg.configured = true) (j : Job) (hj : j.Brings T)
    (hw : Tracked R j.page w) (grantId : String) :
    Handles (For j.page) (Tracked R j.page) (j.handler cfg) (j.Done grantId) w := by
  have hkept : ∀ {α : Type} {R' : Grant → Prop} {x : Pages.FileM α},
      Prog.Returns (OwnFile j.page) x (fun _ => True) →
      (∀ o, Files R j.page o w.disk →
        Keeps False (Files R j.page o) x (OnOk fun _ d' => Files R' j.page o d') w.disk) →
      Handles (For j.page) (Tracked R j.page) (do let _ ← store x)
        (fun r w' => r = .ok () → Tracked R' j.page w') w := by
    intro α R' x hx h
    refine handles_seq (handles_kept hw hx h) (fun _ _ _ _ hr => by cases hr) fun a _ h' ha => ?_
    exact handles_pure h' fun _ => ha a rfl
  have hdrop : ∀ {α : Type} {x : AdminM α}, Handles (For j.page) (Tracked R j.page) x
      (fun _ _ => True) w → j.revokes grantId = false →
      Handles (For j.page) (Tracked R j.page) (do let _ ← x) (j.Done grantId) w := fun h hno =>
    handles_seq h (fun _ _ _ _ _ hr => Bool.noConfusion (hno.symm.trans hr)) fun _ _ h' _ =>
      handles_pure h' fun _ hr => Bool.noConfusion (hno.symm.trans hr)
  cases j with
  | create a payload => exact hdrop (handles_create hT hc hw rfl hj) rfl
  | edit a id payload => exact hdrop (handles_edit hT hc hw) rfl
  | delete id =>
      refine handles_mono (handles_deletePage hc hw) fun r w' _ hr hok _ => ?_
      exact (hr hok).mono fun _ hg => hg.elim
  | invite id grant =>
      refine handles_mono (hkept own_addGrant fun _ ho => keeps_addGrant hT ho hj) ?_
      exact fun _ _ _ _ _ hr => Bool.noConfusion hr
  | revoke id revoked =>
      refine handles_mono (hkept own_removeGrant fun _ ho => keeps_removeGrant hT ho) ?_
      rintro r w' - hr hok hrevoked
      obtain rfl : revoked = grantId := by simpa [Job.revokes] using hrevoked
      exact hr hok
  | forget id grantId =>
      refine handles_mono (hkept own_forgetLink fun _ ho => keeps_forgetLink hT ho) ?_
      exact fun _ _ _ _ _ hr => Bool.noConfusion hr
  | revokeAll id =>
      refine handles_mono (hkept own_revokePage fun _ ho => keeps_revokeAll ho) ?_
      exact fun r w' _ hr hok _ => (hr hok).mono fun _ hg => hg.elim
  | retry id =>
      refine handles_mono (handles_retry hc id.2 hw) fun _ _ _ _ _ hr => Bool.noConfusion hr

end Requests

/-! ## The service -/

section Run

variable {cfg : Config}

theorem tracked_empty : Tracked R p .empty :=
  ⟨fun h => absurd h List.not_mem_nil, ⟨none, rfl⟩, fun _ => .inl ⟨rfl, rfl⟩⟩

/-- The service where no test for a file is blind. -/
abbrev sighted (cfg : Config) := (service cfg).among fun t : Tick => t.file.blind = false

theorem slices_service : Service.Slices (sighted cfg) For SamePage where
  refl := SamePage.refl
  answer t _ _ he hs := (same_step he t.1 hs).1
  own t _ _ he hs := (same_step he t.1 hs).2
  other t w hp he := other_step hp he t.1 w

/-- What holds of every page, and is promised by the jobs that run. -/
def Accounted (cfg : Config) (R : String → Grant → Prop) (grantId : String)
    (P : Service.Pool String Op Op.Ans (Job × Except Failure Unit) World) : Prop :=
  Service.Sound (sighted cfg) For (fun p => Tracked (R p) p)
    (fun p a w => a.1.page = p ∧ a.1.Done grantId a.2 w) P

/-- **All pages are tracked at any time**, whatever runs. -/
theorem accounted_play {T : String → Json → Prop} {R : String → Grant → Prop} {grantId : String}
    {P : Service.Pool String Op Op.Ans (Job × Except Failure Unit) World}
    (hT : ∀ p, Trait (T p) (R p)) (hc : cfg.configured = true) (hP : Accounted cfg R grantId P)
    (ms : List (Service.Move Job String Tick))
    (hsight : ∀ p t, .turn p t ∈ ms → t.file.blind = false)
    (hms : ∀ j, .start j ∈ ms → j.Brings (T j.page)) :
    Accounted cfg R grantId ((service cfg).play P ms) := by
  obtain ⟨ms, rfl⟩ := Service.exists_among hsight
  rw [Service.play_among]
  refine Service.sound_play slices_service (fun p w w' hs h => h.same hs) ?_
    (A := fun j => j.Brings (T j.page)) (fun j w hj hw => ?_) hP ms
    fun j hj => hms j (List.mem_map_of_mem hj)
  · rintro p a w w' hs ⟨rfl, hdone⟩
    exact ⟨rfl, fun hok hr => (hdone hok hr).same hs⟩
  · have hjob := handles_job (hT j.page) hc j hj hw grantId
    exact Prog.holds_bind.mpr (Prog.holds_mono hjob.holds fun r w' hw' hr => ⟨hw', rfl, hr⟩)

theorem accounted_new {R : String → Grant → Prop} {grantId : String} :
    Accounted cfg R grantId (.new .empty) := Service.sound_new fun _ => tracked_empty

theorem tracked_play (hT : Trait T R) (hc : cfg.configured = true)
    (ms : List (Service.Move Job String Tick))
    (hsight : ∀ p t, .turn p t ∈ ms → t.file.blind = false)
    (hms : ∀ j, .start j ∈ ms → j.Brings T) (p : String) :
    Tracked R p ((service cfg).play (.new .empty) ms).world :=
  (accounted_play (fun _ => hT) hc (@accounted_new _ cfg (fun _ => R) "") ms hsight hms p).1

theorem trait_any : Trait (fun _ => True) (fun _ => True) :=
  ⟨fun _ => Iff.rfl, fun _ => trivial, fun _ => trivial⟩

omit [Python] in
theorem brings_any (j : Job) : j.Brings fun _ => True := by
  cases j with
  | create a payload => exact fun _ _ => trivial
  | _ => trivial

/-- **The policy store follows the gateway.** Jobs of different pages
interleave step by step, the gateway dies wherever it is, and requests to
the policy store are lost or lose their replies: a page without a marker is
in neither store, or in both with one policy. No test for a file is blind:
a retry would take the policy of a page that is there. -/
theorem unmarked_pages_agree (cfg : Config) (hc : cfg.configured = true)
    (ms : List (Service.Move Job String Tick))
    (hsight : ∀ p t, .turn p t ∈ ms → t.file.blind = false)
    (p : String) (hp : p ∉ ((service cfg).play (.new .empty) ms).world.pending) :
    Agrees p ((service cfg).play (.new .empty) ms).world :=
  (tracked_play trait_any hc ms hsight (fun j _ => brings_any j) p).agrees hp

/-! ### Two pages at once -/

/-- A page without resources. -/
def plainPage (id : String) : Json := .obj [("id", .str id), ("title", .str id)]

/-- A step that is done although its reply is lost. -/
def lostTick : Tick := { calmTick with fault := true, applied := true }

/-- The door and the hall are created at once. The reply of the policy store to
the hall's is lost, and the gateway dies before the hall is taken back. -/
def twoPages : List (Service.Move Job String Tick) :=
  .start (.create noAnswers (plainPage "door")) :: .start (.create noAnswers (plainPage "hall")) ::
    (List.replicate 8 [.turn "hall" calmTick, .turn "door" calmTick]).flatten ++
      .turn "hall" lostTick :: List.replicate 4 (.turn "door" calmTick) ++ [.crash]

/-- What they leave. -/
def twoPagesLeft : World :=
  letI := Python.plain
  ((service doorConfig).play (.new .empty) twoPages).world

omit [Python] in
theorem twoPages_sighted : ∀ p t, .turn p t ∈ twoPages → t.file.blind = false := by
  intro p t ht
  have htick : t = calmTick ∨ t = lostTick := by
    simp only [twoPages, List.mem_cons, List.mem_append, List.mem_flatten, List.mem_replicate] at ht
    aesop
  rcases htick with rfl | rfl <;> rfl

omit [Python] in
theorem unmarked_pages_agree_door :
    "hall" ∈ twoPagesLeft.pending ∧ "door" ∉ twoPagesLeft.pending ∧
      (twoPagesLeft.policies.find? "door").isSome = true ∧ Agrees "door" twoPagesLeft := by
  let _ := Python.plain
  have hdoor : "door" ∉ twoPagesLeft.pending := by decide +kernel
  have hhall : "hall" ∈ twoPagesLeft.pending := by decide +kernel
  have hpolicy : (twoPagesLeft.policies.find? "door").isSome = true := by decide +kernel
  exact ⟨hhall, hdoor, hpolicy,
    @unmarked_pages_agree Python.plain doorConfig rfl twoPages twoPages_sighted "door" hdoor⟩

end Run

end Publication

end Admin

end AccessPages
