import AccessPages.Pages.Failures
import AccessPages.Pages.Stored
/-!
# Pages — whether a bad file is isolated

Listing and bulk revocation skip a page whose `load` raises a
`PageConfigError` or a `PageNotFoundError`, and are taken down by anything
else. Here every operation succeeds and the files hold what they hold:
which contents take the store down, and which revocation records and
grants a bulk revocation cannot get past.
-/

namespace AccessPages

namespace Pages

/-! ## The content of a file -/

/-- What a file of these bytes reads as, by `json.loads`. -/
def contentOf (loads : String → Content) (bytes : ByteArray) : Content :=
  match String.fromUTF8? bytes with
  | none => .error .value
  | some text => loads text

/-- `PageConfigError` or `PageNotFoundError`. -/
def IsPageError (e : PageError) : Prop := IsConfig e ∨ ∃ what, e = .notFound what

variable [Python]
variable {d : Disk} {id : String}

/-- A content on which `load` raises something else: it is no text, or
`json.loads` raises another `ValueError`, or validation does. -/
def Escapes (id : String) : Content → Prop
  | .error .value => True
  | .error _ => False
  | .ok v => Overflows id v ∨ Unhashable id v

theorem readContent_eq_error {c : Content} {e : PageError} (h : readContent id c = .error e) :
    IsConfig e ∨ (∃ x, e = .python x) ∧ Escapes id c := by
  cases c with
  | error r =>
      cases r with
      | value =>
          cases h
          exact .inr ⟨⟨_, rfl⟩, trivial⟩
      | _ =>
          cases h
          exact .inl ⟨_, rfl⟩
  | ok v =>
      rcases validatePage_eq_error h with h | ⟨rfl, hv⟩ | ⟨rfl, hv⟩
      · exact .inl h
      · exact .inr ⟨⟨_, rfl⟩, .inl hv⟩
      · exact .inr ⟨⟨_, rfl⟩, .inr hv⟩

theorem readContent_of_escapes {c : Content} (h : Escapes id c) :
    ∃ x, readContent id c = .error (.python x) := by
  cases c with
  | error r =>
      cases r with
      | value => exact ⟨_, rfl⟩
      | _ => cases h
  | ok v =>
      rcases h with h | h
      · exact ⟨_, validatePage_of_overflows h⟩
      · exact ⟨_, validatePage_of_unhashable h⟩

theorem validatePageId_cases (id : String) :
    (pageIdRe (strip id) = true ∧ ∃ a, validatePageId (.str id) = .ok a) ∨
      pageIdRe (strip id) ≠ true ∧ ∃ message, validatePageId (.str id) = .error (.config message) := by
  by_cases h : pageIdRe (strip id) = true
  · exact .inl ⟨h, ⟨strip id, h⟩, require_bind h _⟩
  · exact .inr ⟨h, _, require_bind_false h _⟩

/-- **A load raises something else exactly on such a content**, under a name
that could be a page's. -/
theorem loads_isPageError_iff :
    Raises IsPageError (d.loads id) ↔
      (pageIdRe (strip id) = true → ∀ c, d.content (.page id) = some c → ¬ Escapes id c) := by
  unfold Disk.loads
  rcases validatePageId_cases id with ⟨hid, a, ha⟩ | ⟨hid, message, hm⟩
  · rw [ha]
    cases hc : d.content (.page id) with
    | none => exact iff_of_true (fun e he => by cases he; exact .inr ⟨_, rfl⟩) fun _ _ h => by cases h
    | some c =>
        have hmap : ∀ e, (readContent id c).map (·.maskedBy (marked d id)) = .error e ↔
            readContent id c = .error e := by
          intro e
          cases readContent id c <;> simp [Except.map]
        constructor
        · rintro hr - c' hc' hescapes
          cases hc'
          obtain ⟨x, hx⟩ := readContent_of_escapes hescapes
          rcases hr _ ((hmap _).mpr hx) with ⟨_, h⟩ | ⟨_, h⟩ <;> cases h
        · intro hc' e he
          rcases readContent_eq_error ((hmap e).mp he) with h | ⟨-, h⟩
          · exact .inl h
          · exact absurd h (hc' hid c rfl)
  · rw [hm]
    exact iff_of_true (fun e he => by cases he; exact .inl ⟨_, rfl⟩) fun h => absurd h hid

/-! ## Recovering a revocation -/

omit [Python] in
@[simp] theorem calm_isFile (p : Path) : calm (isFile p) d = (.ok (d.content p).isSome, d) := rfl

omit [Python] in
theorem calm_read {p : Path} {c : Content} (h : d.content p = some c) :
    calm (ask (.read p)) d = (.ok c, d) := by
  show (Except.ok ((d.content p).getD _), d) = _
  rw [h]
  rfl

omit [Python] in
theorem calm_write (p : Path) (v : Json) : calm (write p v) d = (.ok (), d.write p v) := rfl

omit [Python] in
theorem calm_unlink {p : Path} (h : (d.content p).isSome = true) :
    calm (ask (.unlink p)) d = (.ok (), d.unlink p) := by
  show (if (d.content p).isSome then _ else _) = _
  rw [if_pos h]

omit [Python] in
theorem calm_enqueueAll (id : String) (gs : List Grant) (d : Disk) :
    ∃ d', calm (enqueueAll id gs) d = (.ok (), d') ∧ ∀ p, d'.content p = d.content p := by
  induction gs generalizing d with
  | nil => exact ⟨d, rfl, fun _ => rfl⟩
  | cons g gs ih =>
      obtain ⟨d', hrun, hsame⟩ := ih (d.enqueue id g 0)
      have hfirst : calm (ask (.enqueue id g) : FileM Unit) d = (.ok (), d.enqueue id g 0) := rfl
      exact ⟨d', (calm_bind_ok hfirst).trans hrun, fun p => (hsame p).trans content_enqueue⟩

/-- The page file is a valid page, if it is there. -/
def ValidIfThere (d : Disk) (id : String) : Prop :=
  ∀ c, d.content (.page id) = some c → ∃ v page, c = .ok v ∧ validatePage v (some id) = .ok page

/-- A revocation record that can be acted on: it lists grants that validate,
and the page file is in order. -/
structure Recoverable (d : Disk) (id : String) : Prop where
  id_re : pageIdRe (strip id) = true
  listed : ∀ c, d.content (.marker id) = some c → ∃ gs, markerGrants c = .ok gs
  file : ValidIfThere d id

/-- A disk with the revocation of a page completed. -/
structure Recovered (id : String) (d d' : Disk) : Prop where
  marker : d'.content (.marker id) = none
  file : d'.content (.page id) = (onFile d id).map fun page =>
    .ok { page with accessGrants := [] }.toJson
  other : ∀ p, p ≠ .marker id → p ≠ .page id → d'.content p = d.content p

theorem Recovered.marker_other {d' : Disk} {i : String} (h : Recovered id d d')
    (hne : i ≠ id) : d'.content (.marker i) = d.content (.marker i) :=
  h.other (.marker i) (by simpa using hne) nofun

theorem Recovered.page_other {d' : Disk} {i : String} (h : Recovered id d d') (hne : i ≠ id) :
    d'.content (.page i) = d.content (.page i) :=
  h.other (.page i) nofun (by simpa using hne)

/-- Erasing the grants of a page, by what its file holds. -/
theorem calm_eraseGrants {c : Content} (hc : d.content (.page id) = some c) :
    calm (eraseGrants id) d = match c with
      | .error (.os _) => (.error .os, d)
      | .error _ => (.error (.python .valueError), d)
      | .ok v => match validatePage v (some id) with
        | .error e => (.error e, d)
        | .ok page => (.ok (), d.write (.page id) { page with accessGrants := [] }.toJson) := by
  have hsome : calm (isFile (.page id)) d = (.ok true, d) := by rw [calm_isFile, hc]; rfl
  unfold eraseGrants
  rw [calm_bind_ok hsome, if_pos rfl]
  refine (calm_bind_ok (calm_read hc)).trans ?_
  cases c with
  | error r => cases r <;> rfl
  | ok v =>
      dsimp only
      rw [calm_bind, calm_lift]
      cases validatePage v (some id) <;> rfl

theorem calm_eraseGrants_none (hc : d.content (.page id) = none) :
    calm (eraseGrants id) d = (.ok (), d) := by
  have hnone : calm (isFile (.page id)) d = (.ok false, d) := by rw [calm_isFile, hc]; rfl
  unfold eraseGrants
  rw [calm_bind_ok hnone]
  rfl

/-- A page file in order is rewritten; anything else stops the recovery. -/
theorem eraseGrants_ok {d' : Disk} (h : calm (eraseGrants id) d = (.ok (), d')) :
    ValidIfThere d id ∧
      d'.content (.page id) = (onFile d id).map (fun page =>
        .ok { page with accessGrants := [] }.toJson) ∧
      ∀ p, p ≠ .page id → d'.content p = d.content p := by
  cases hc : d.content (.page id) with
  | none =>
      rw [calm_eraseGrants_none hc] at h
      cases h
      refine ⟨fun c hc' => ?_, ?_, fun _ _ => rfl⟩
      · rw [hc] at hc'
        cases hc'
      · rw [hc, onFile, hc]
        rfl
  | some c =>
      rw [calm_eraseGrants hc] at h
      cases c with
      | error r => cases r <;> cases h
      | ok v =>
          dsimp only at h
          cases hv : validatePage v (some id) with
          | error e =>
              rw [hv] at h
              cases h
          | ok page =>
              rw [hv] at h
              cases h
              refine ⟨fun c hc' => ?_, ?_, fun p hp => by rw [content_write, if_neg (Ne.symm hp)]⟩
              · rw [hc] at hc'
                cases hc'
                exact ⟨v, page, rfl, hv⟩
              · rw [content_write, if_pos rfl, onFile_eq_some.mpr ⟨v, hc, hv⟩]
                rfl

theorem eraseGrants_of_valid (h : ValidIfThere d id) :
    ∃ d', calm (eraseGrants id) d = (.ok (), d') := by
  cases hc : d.content (.page id) with
  | none => exact ⟨d, calm_eraseGrants_none hc⟩
  | some c =>
      obtain ⟨v, page, rfl, hv⟩ := h c hc
      rw [calm_eraseGrants hc]
      dsimp only
      rw [hv]
      exact ⟨_, rfl⟩

theorem calm_checkId_ok (hid : pageIdRe (strip id) = true) : calm (checkId id) d = (.ok (), d) := by
  rcases validatePageId_cases id with ⟨-, a, ha⟩ | ⟨hne, -⟩
  · rw [calm_checkId, ha]
    rfl
  · exact absurd hid hne

theorem calm_recover_none (hid : pageIdRe (strip id) = true) (hm : d.content (.marker id) = none) :
    calm (recoverRevocationUnlocked id) d = (.ok (), d) := by
  have hnone : calm (isFile (.marker id)) d = (.ok false, d) := by rw [calm_isFile, hm]; rfl
  unfold recoverRevocationUnlocked
  rw [calm_bind_ok (calm_checkId_ok hid), calm_bind_ok hnone]
  rfl

/-- The end of a recovery. -/
def dropMarker (id : String) : FileM Unit := do
  (ask (.unlink (.marker id)) : FileM Unit)
  ask .sync

omit [Python] in
theorem calm_dropMarker (h : (d.content (.marker id)).isSome = true) :
    calm (dropMarker id) d = (.ok (), d.unlink (.marker id)) :=
  calm_bind_ok (calm_unlink h)

/-- The rest of a recovery, from the record that was read. -/
def recoverFrom (id : String) (c : Content) : FileM Unit :=
  match markerGrants c with
  | .error _ => throw (.config "Invalid durable revocation record")
  | .ok grants => do
      enqueueAll id grants
      eraseGrants id
      dropMarker id

theorem calm_recover_some {c : Content} (hid : pageIdRe (strip id) = true)
    (hm : d.content (.marker id) = some c) :
    calm (recoverRevocationUnlocked id) d = calm (recoverFrom id c) d := by
  have hsome : calm (isFile (.marker id)) d = (.ok true, d) := by rw [calm_isFile, hm]; rfl
  unfold recoverRevocationUnlocked
  rw [calm_bind_ok (calm_checkId_ok hid), calm_bind_ok hsome, if_pos rfl]
  exact calm_bind_ok (calm_read hm)

/-- **A recovery that ends well had a record it could act on**, and has
completed the revocation. -/
theorem recover_ok {c : Content} {d' : Disk} (hm : d.content (.marker id) = some c)
    (h : calm (recoverRevocationUnlocked id) d = (.ok (), d')) :
    Recoverable d id ∧ Recovered id d d' := by
  have hid : pageIdRe (strip id) = true := by
    unfold recoverRevocationUnlocked at h
    obtain ⟨_, _, hcheck, -⟩ := calm_bind_eq_ok.mp h
    rcases validatePageId_cases id with ⟨hid, -⟩ | ⟨-, message, hm⟩
    · exact hid
    · rw [calm_checkId, hm] at hcheck
      cases hcheck
  rw [calm_recover_some hid hm] at h
  unfold recoverFrom at h
  cases hgs : markerGrants c with
  | error e =>
      rw [hgs] at h
      cases h
  | ok gs =>
      rw [hgs] at h
      obtain ⟨d₁, hq, hsame⟩ := calm_enqueueAll id gs d
      dsimp only at h
      rw [calm_bind_ok hq] at h
      obtain ⟨_, d₂, herase, hrest⟩ := calm_bind_eq_ok.mp h
      obtain ⟨hvalid, hpage, hother⟩ := eraseGrants_ok herase
      have hmarker : (d₂.content (.marker id)).isSome = true := by
        rw [hother (.marker id) nofun, hsame, hm]
        rfl
      have hfile : onFile d₁ id = onFile d id := by rw [onFile, onFile, hsame]
      rw [calm_dropMarker hmarker] at hrest
      cases hrest
      refine ⟨⟨hid, fun c' hc' => ?_, fun c' hc' => hvalid c' ((hsame _).trans hc')⟩, ?_, ?_, ?_⟩
      · rw [hm] at hc'
        cases hc'
        exact ⟨gs, hgs⟩
      · rw [content_unlink, if_pos rfl]
      · rw [content_unlink, if_neg nofun, hpage, hfile]
      · intro p hmark hp
        rw [content_unlink, if_neg (Ne.symm hmark), hother p hp, hsame]

theorem recover_of_recoverable {c : Content} (hm : d.content (.marker id) = some c)
    (h : Recoverable d id) : ∃ d', calm (recoverRevocationUnlocked id) d = (.ok (), d') := by
  obtain ⟨gs, hgs⟩ := h.listed c hm
  obtain ⟨d₁, hq, hsame⟩ := calm_enqueueAll id gs d
  have hvalid : ValidIfThere d₁ id := fun c hc => h.file c ((hsame _).symm.trans hc)
  obtain ⟨d₂, herase⟩ := eraseGrants_of_valid hvalid
  have hmarker : (d₂.content (.marker id)).isSome = true := by
    rw [(eraseGrants_ok herase).2.2 (.marker id) nofun, hsame, hm]
    rfl
  rw [calm_recover_some h.id_re hm]
  unfold recoverFrom
  rw [hgs]
  dsimp only
  rw [calm_bind_ok hq, calm_bind_ok herase, calm_dropMarker hmarker]
  exact ⟨_, rfl⟩

/-! ## What is loaded afterwards -/

theorem loads_congr {d' : Disk} (hp : d'.content (.page id) = d.content (.page id))
    (hm : d'.content (.marker id) = d.content (.marker id)) : d'.loads id = d.loads id := by
  unfold Disk.loads marked
  rw [hp, hm]

/-- A page under an identifier that is no page's is not there. -/
theorem pageIdRe_of_onFile {page : Page} (h : onFile d id = some page) :
    page.id = id ∧ pageIdRe id = true := by
  obtain ⟨v, -, hv⟩ := onFile_eq_some.mp h
  have hid : page.id = id := (validatePage_eq_ok hv).1 id rfl
  exact ⟨hid, hid ▸ page.id_re⟩

/-- A page that is on file is loaded, masked by its marker. -/
theorem loads_of_onFile {page : Page} (h : onFile d id = some page) :
    d.loads id = .ok (page.maskedBy (marked d id)) := by
  obtain ⟨v, hc, hv⟩ := onFile_eq_some.mp h
  unfold Disk.loads
  rw [validatePageId_of_re (pageIdRe_of_onFile h).2, hc]
  show (validatePage v (some id)).map _ = _
  rw [hv]
  rfl

/-- What is loaded is on file. -/
theorem onFile_of_loads {shown : Page} (h : d.loads id = .ok shown) :
    ∃ page, onFile d id = some page ∧ shown = page.maskedBy (marked d id) := by
  unfold Disk.loads at h
  rw [except_bind_eq_ok] at h
  obtain ⟨-, -, h⟩ := h
  split at h
  · cases h
  · rename_i c hc
    cases hr : readContent id c with
    | error e =>
        rw [hr] at h
        cases h
    | ok page =>
        rw [hr] at h
        cases h
        cases c with
        | error r => cases r <;> cases hr
        | ok v => exact ⟨page, onFile_eq_some.mpr ⟨v, hc, hr⟩, rfl⟩

/-- A page without its grants, stored under its name. -/
theorem loads_erased {d' : Disk} {page : Page} (h : onFile d id = some page)
    (hm : d'.content (.marker id) = none)
    (hc : d'.content (.page id) = some (.ok { page with accessGrants := [] }.toJson)) :
    d'.loads id = .ok { page with accessGrants := [] } := by
  obtain ⟨v, -, hv⟩ := onFile_eq_some.mp h
  rw [loads_of_content (pageIdRe_of_onFile h).2 hc hm]
  exact validatePage_erased (validatePage_checked hv) fun r hr => by
    cases hr
    exact (pageIdRe_of_onFile h).1

/-- A recovery shows what was shown: the marker hid the grants already. -/
theorem Recovered.loads {d' : Disk} {c : Content} (h : Recovered id d d')
    (hvalid : ValidIfThere d id) (hm : d.content (.marker id) = some c) (id' : String) :
    d'.loads id' = d.loads id' := by
  by_cases hid : id' = id
  · subst hid
    have hmarked : marked d id' = true := by rw [marked, hm]; rfl
    cases hc : d.content (.page id') with
    | none =>
        have hnone : onFile d id' = none := by rw [onFile, hc]
        have hc' := h.file
        rw [hnone] at hc'
        unfold Disk.loads
        rw [hc, hc']
        rfl
    | some c =>
        obtain ⟨v, page, rfl, hv⟩ := hvalid c hc
        have hfile := onFile_eq_some.mpr ⟨v, hc, hv⟩
        have hc' := h.file
        rw [hfile] at hc'
        rw [loads_erased hfile h.marker hc', loads_of_onFile hfile, hmarked]
        rfl
  · exact loads_congr (h.page_other hid) (h.marker_other hid)

/-! ## Recovering every revocation -/

omit [Python] in
theorem mem_pages : id ∈ d.pages ↔ (d.content (.page id)).isSome = true := by
  simp only [Disk.pages, Disk.content, List.mem_filterMap, Option.isSome_map]
  constructor
  · rintro ⟨⟨p, c⟩, hf, hp⟩
    cases p with
    | marker _ => cases hp
    | page id' =>
        cases hp
        exact Option.isSome_iff_exists.mpr ⟨_, Table.find?_eq_some.mpr ⟨hf, rfl⟩⟩
  · intro h
    obtain ⟨f, hf⟩ := Option.isSome_iff_exists.mp h
    obtain ⟨hmem, hkey⟩ := Table.find?_eq_some.mp hf
    exact ⟨f, hmem, by rw [hkey]⟩

omit [Python] in
theorem nodup_stems {α : Type} {f : Path × Content → Option α} (t : Table (Path × Content) Prod.fst)
    (hf : ∀ x y a, f x = some a → f y = some a → x.1 = y.1) : (t.rows.filterMap f).Nodup := by
  refine List.pairwise_filterMap.mpr ((List.pairwise_map.mp t.nodup).imp ?_)
  intro x y hne a ha b hb hab
  exact hne (hf x y a ha (hab ▸ hb))

omit [Python] in
theorem nodup_pages (d : Disk) : d.pages.Nodup := by
  refine nodup_stems d.files ?_
  rintro ⟨p, c⟩ ⟨q, c'⟩ a hp hq
  cases p <;> cases q <;> cases hp <;> cases hq
  rfl

omit [Python] in
theorem nodup_markers (d : Disk) : d.markers.Nodup := by
  refine nodup_stems d.files ?_
  rintro ⟨p, c⟩ ⟨q, c'⟩ a hp hq
  cases p <;> cases q <;> cases hp <;> cases hq
  rfl

omit [Python] in
theorem sortedStems_perm (suffix : String) (stems : List String) :
    (sortedStems suffix stems).Perm stems := List.perm_insertionSort _ _

/-- The revocations of some pages have been completed. -/
structure Completed (ids : List String) (d d' : Disk) : Prop where
  gone : ∀ id ∈ ids, d'.content (.marker id) = none
  kept : ∀ id, id ∉ ids → d'.content (.marker id) = d.content (.marker id)
  loads : ∀ id, d'.loads id = d.loads id
  pages : ∀ id, (d'.content (.page id)).isSome = (d.content (.page id)).isSome

theorem completed_nil (d : Disk) : Completed [] d d :=
  ⟨nofun, fun _ _ => rfl, fun _ => rfl, fun _ => rfl⟩

theorem Recovered.completed {c : Content} {d₁ d' : Disk} {ids : List String}
    (h : Recovered id d d₁) (hvalid : ValidIfThere d id) (hm : d.content (.marker id) = some c)
    (hnew : id ∉ ids) (h' : Completed ids d₁ d') : Completed (id :: ids) d d' where
  gone := List.forall_mem_cons.mpr ⟨(h'.kept id hnew).trans h.marker, h'.gone⟩
  kept := fun i hi => by
    rw [List.mem_cons, not_or] at hi
    exact (h'.kept i hi.2).trans (h.marker_other hi.1)
  loads := fun i => (h'.loads i).trans (h.loads hvalid hm i)
  pages := fun i => by
    rw [h'.pages]
    by_cases hi : i = id
    · subst hi
      rw [h.file]
      cases hc : d.content (.page i) with
      | none => rw [onFile, hc]; rfl
      | some c =>
          obtain ⟨v, page, rfl, hv⟩ := hvalid c hc
          rw [onFile_eq_some.mpr ⟨v, hc, hv⟩]
          rfl
    · rw [h.page_other hi]

/-- Recovering a page leaves the records of the others as they are. -/
theorem Recovered.recoverable_iff {d' : Disk} {id' : String} (h : Recovered id d d')
    (hne : id' ≠ id) : Recoverable d' id' ↔ Recoverable d id' := by
  have hmarker := h.marker_other hne
  have hpage := h.page_other hne
  constructor
  · rintro ⟨hid, hlisted, hfile⟩
    refine ⟨hid, fun c hc => hlisted c (hmarker.trans hc), fun c hc => hfile c (hpage.trans hc)⟩
  · rintro ⟨hid, hlisted, hfile⟩
    exact ⟨hid, fun c hc => hlisted c (hmarker.symm.trans hc),
      fun c hc => hfile c (hpage.symm.trans hc)⟩

theorem recoverEach_ok {ids : List String} {d' : Disk} (hnodup : ids.Nodup)
    (hmarked : ∀ id ∈ ids, (d.content (.marker id)).isSome = true)
    (h : calm (recoverEach ids) d = (.ok (), d')) :
    (∀ id ∈ ids, Recoverable d id) ∧ Completed ids d d' := by
  induction ids generalizing d with
  | nil =>
      cases h
      exact ⟨nofun, completed_nil _⟩
  | cons id ids ih =>
      obtain ⟨hnew, hnodup⟩ := List.nodup_cons.mp hnodup
      obtain ⟨hm, hrest⟩ := List.forall_mem_cons.mp hmarked
      obtain ⟨c, hc⟩ := Option.isSome_iff_exists.mp hm
      unfold recoverEach at h
      obtain ⟨_, d₁, hfirst, hthen⟩ := calm_bind_eq_ok.mp h
      obtain ⟨hrec, hrecovered⟩ := recover_ok hc hfirst
      have hne : ∀ i ∈ ids, i ≠ id := fun i hi h => hnew (h ▸ hi)
      obtain ⟨hall, hdone⟩ := ih hnodup (fun i hi => by
        rw [hrecovered.marker_other (hne i hi)]
        exact hrest i hi) hthen
      exact ⟨List.forall_mem_cons.mpr ⟨hrec, fun i hi =>
          (hrecovered.recoverable_iff (hne i hi)).mp (hall i hi)⟩,
        hrecovered.completed hrec.file hc hnew hdone⟩

theorem recoverEach_of_recoverable {d : Disk} {ids : List String} (hnodup : ids.Nodup)
    (hmarked : ∀ id ∈ ids, (d.content (.marker id)).isSome = true)
    (h : ∀ id ∈ ids, Recoverable d id) : ∃ d', calm (recoverEach ids) d = (.ok (), d') := by
  induction ids generalizing d with
  | nil => exact ⟨d, rfl⟩
  | cons id ids ih =>
      obtain ⟨hnew, hnodup⟩ := List.nodup_cons.mp hnodup
      obtain ⟨hm, hrest⟩ := List.forall_mem_cons.mp hmarked
      obtain ⟨hrec, hall⟩ := List.forall_mem_cons.mp h
      obtain ⟨c, hc⟩ := Option.isSome_iff_exists.mp hm
      obtain ⟨d₁, hfirst⟩ := recover_of_recoverable hc hrec
      have hrecovered := (recover_ok hc hfirst).2
      have hne : ∀ i ∈ ids, i ≠ id := fun i hi h => hnew (h ▸ hi)
      obtain ⟨d', hthen⟩ := @ih d₁ hnodup (fun i hi => by
          rw [hrecovered.marker_other (hne i hi)]
          exact hrest i hi)
        fun i hi => (hrecovered.recoverable_iff (hne i hi)).mpr (hall i hi)
      exact ⟨d', (calm_bind_ok hfirst).trans hthen⟩

/-- **Every revocation is recovered if and only if every record can be acted
on**; afterwards no page is marked and every page is shown as before. -/
theorem recoverPending_ok {d' : Disk} (h : calm recoverPendingRevocations d = (.ok (), d')) :
    (∀ id ∈ d.markers, Recoverable d id) ∧ (∀ id, d'.content (.marker id) = none) ∧
      (∀ id, d'.loads id = d.loads id) ∧ ∀ id, id ∈ d'.pages ↔ id ∈ d.pages := by
  have hperm := sortedStems_perm ".revoking" d.markers
  obtain ⟨hall, hdone⟩ := recoverEach_ok (hperm.nodup_iff.mpr (nodup_markers d))
    (fun id hid => mem_markers.mp (hperm.mem_iff.mp hid)) h
  refine ⟨fun id hid => hall id (hperm.mem_iff.mpr hid), fun id => ?_, hdone.loads, fun id => ?_⟩
  · by_cases hid : id ∈ sortedStems ".revoking" d.markers
    · exact hdone.gone id hid
    · rw [hdone.kept id hid, ← Option.not_isSome_iff_eq_none, ← mem_markers]
      exact fun hm => hid (hperm.mem_iff.mpr hm)
  · rw [mem_pages, mem_pages, hdone.pages]

theorem recoverPending_of_recoverable (h : ∀ id ∈ d.markers, Recoverable d id) :
    ∃ d', calm recoverPendingRevocations d = (.ok (), d') := by
  have hperm := sortedStems_perm ".revoking" d.markers
  exact recoverEach_of_recoverable (hperm.nodup_iff.mpr (nodup_markers d))
    (fun id hid => mem_markers.mp (hperm.mem_iff.mp hid))
    fun id hid => h id (hperm.mem_iff.mp hid)

/-! ## Listing and revoking -/

theorem calm_loadOrSkip (id : String) (d : Disk) :
    calm (loadOrSkip id) d = match d.loads id with
      | .ok page => (.ok (some page), d)
      | .error (.config _) => (.ok none, d)
      | .error (.notFound _) => (.ok none, d)
      | .error e => (.error e, d) := by
  unfold loadOrSkip
  rw [calm_tryCatch, calm_bind, calm_load]
  cases d.loads id with
  | ok page => rfl
  | error e => cases e <;> rfl

/-- A load that raises nothing else is taken, or skipped. -/
theorem calm_loadOrSkip_of (h : Raises IsPageError (d.loads id)) :
    calm (loadOrSkip id) d = (.ok (d.loads id).toOption, d) := by
  rw [calm_loadOrSkip]
  cases hl : d.loads id with
  | ok page => rfl
  | error e => rcases h e hl with ⟨_, rfl⟩ | ⟨_, rfl⟩ <;> rfl

theorem loadOrSkip_ok {r : Option Page} {d' : Disk} (h : calm (loadOrSkip id) d = (.ok r, d')) :
    r = (d.loads id).toOption ∧ d' = d := by
  rw [calm_loadOrSkip] at h
  cases hl : d.loads id with
  | ok page =>
      rw [hl] at h
      cases h
      exact ⟨rfl, rfl⟩
  | error e =>
      rw [hl] at h
      cases e <;> cases h <;> exact ⟨rfl, rfl⟩

theorem calm_loadEach {ids : List String} (h : ∀ id ∈ ids, Raises IsPageError (d.loads id)) :
    calm (loadEach ids) d = (.ok (ids.filterMap fun id => (d.loads id).toOption), d) := by
  induction ids with
  | nil => rfl
  | cons id ids ih =>
      obtain ⟨hid, hids⟩ := List.forall_mem_cons.mp h
      unfold loadEach
      rw [calm_bind_ok (calm_loadOrSkip_of hid), calm_bind_ok (ih hids), List.filterMap_cons]
      cases (d.loads id).toOption <;> rfl

/-- **Listing lists every valid page**, if no file raises anything else. -/
theorem calm_listPages (h : ∀ id ∈ d.pages, Raises IsPageError (d.loads id)) :
    ∃ summaries, calm listPages d = (.ok summaries, d) ∧
      summaries.Perm ((d.pages.filterMap fun id => (d.loads id).toOption).map pageAdminSummary) := by
  have hperm := sortedStems_perm ".json" d.pages
  have heach := @calm_loadEach _ d (sortedStems ".json" d.pages)
    fun id hid => h id (hperm.mem_iff.mp hid)
  have hrun : calm listPages d = (.ok ((((sortedStems ".json" d.pages).filterMap fun id =>
      (d.loads id).toOption).map pageAdminSummary).insertionSort fun a b =>
        ¬ Python.lower b.title < Python.lower a.title), d) := calm_bind_ok heach
  exact ⟨_, hrun, (List.perm_insertionSort _ _).trans ((hperm.filterMap _).map _)⟩

/-- A page under no revocation is on file as it is shown. -/
theorem onFile_of_unmarked {page : Page} (hm : d.content (.marker id) = none)
    (h : d.loads id = .ok page) : onFile d id = some page := by
  obtain ⟨full, hfull, rfl⟩ := onFile_of_loads h
  rw [hfull, marked, hm]
  rfl

theorem markerGrants_markerJson {gs gs' : List Grant} (h : Listed gs) :
    markerGrants (.ok (markerJson gs)) = .ok gs' ↔
      (∀ g ∈ gs, g.Named) ∧ gs' = gs.map Grant.reread := validateAccessGrants_toJson h

section Revoke

variable {page : Page}

/-- The record of a revocation that has just begun. -/
theorem recoverable_mark (hm : d.content (.marker id) = none) (h : d.loads id = .ok page) :
    Recoverable (d.write (.marker id) (markerJson page.accessGrants)) id ↔
      ∀ g ∈ page.accessGrants, g.Named := by
  obtain ⟨v, hc, hv⟩ := onFile_eq_some.mp (onFile_of_unmarked hm h)
  have hlisted : Listed page.accessGrants := (validatePage_checked hv).grants
  have hpid := pageIdRe_of_onFile (onFile_of_unmarked hm h)
  constructor
  · intro hrec
    obtain ⟨gs, hgs⟩ := hrec.listed (.ok (markerJson page.accessGrants)) (by
      rw [content_write, if_pos rfl])
    exact ((markerGrants_markerJson hlisted).mp hgs).1
  · intro hnamed
    refine ⟨by rw [strip_pageId hpid.2]; exact hpid.2, fun c hc' => ?_, fun c hc' => ?_⟩
    · rw [content_write, if_pos rfl] at hc'
      cases hc'
      exact ⟨_, (markerGrants_markerJson hlisted).mpr ⟨hnamed, rfl⟩⟩
    · rw [content_write, if_neg nofun, hc] at hc'
      cases hc'
      exact ⟨v, page, rfl, hv⟩

/-- What a completed revocation of a page is. -/
structure Revoked (id : String) (page : Page) (d d' : Disk) : Prop where
  named : ∀ g ∈ page.accessGrants, g.Named
  marker : d'.content (.marker id) = none
  loads : d'.loads id = .ok { page with accessGrants := [] }
  other : ∀ i, i ≠ id → d'.content (.marker i) = d.content (.marker i) ∧
    d'.content (.page i) = d.content (.page i)

theorem calm_revokePage (hm : d.content (.marker id) = none) (h : d.loads id = .ok page)
    (hgrants : page.accessGrants ≠ []) :
    calm (revokePageAccessGrants id) d = calm (do
      recoverRevocationUnlocked id
      return ({ page with accessGrants := [] }, page.accessGrants))
      (d.write (.marker id) (markerJson page.accessGrants)) := by
  have hpid := pageIdRe_of_onFile (onFile_of_unmarked hm h)
  have hid : pageIdRe (strip id) = true := by rw [strip_pageId hpid.2]; exact hpid.2
  have hload : calm (loadUnlocked id) d = (.ok page, d) := by rw [calm_load, h]
  unfold revokePageAccessGrants
  rw [calm_bind_ok (calm_recover_none hid hm), calm_bind_ok hload]
  dsimp only
  rw [if_neg hgrants, calm_bind_ok (calm_write _ _)]

theorem revokePage_ok {r : Page × List Grant} {d' : Disk} (hm : d.content (.marker id) = none)
    (h : d.loads id = .ok page) (hgrants : page.accessGrants ≠ [])
    (hrun : calm (revokePageAccessGrants id) d = (.ok r, d')) : Revoked id page d d' := by
  rw [calm_revokePage hm h hgrants] at hrun
  obtain ⟨_, d₂, hrecover, hret⟩ := calm_bind_eq_ok.mp hrun
  cases hret
  have hmarked : (d.write (.marker id) (markerJson page.accessGrants)).content (.marker id) =
      some (.ok (markerJson page.accessGrants)) := by rw [content_write, if_pos rfl]
  obtain ⟨hrec, hdone⟩ := recover_ok hmarked hrecover
  have hfile : onFile (d.write (.marker id) (markerJson page.accessGrants)) id = some page := by
    rw [onFile, content_write, if_neg nofun]
    exact onFile_of_unmarked hm h
  have hpage := hdone.file
  rw [hfile] at hpage
  refine ⟨(recoverable_mark hm h).mp hrec, hdone.marker, loads_erased hfile hdone.marker hpage,
    fun i hi => ⟨?_, ?_⟩⟩
  · rw [hdone.marker_other hi, content_write, if_neg (by simpa using Ne.symm hi)]
  · rw [hdone.page_other hi, content_write, if_neg nofun]

theorem revokePage_of_named (hm : d.content (.marker id) = none) (h : d.loads id = .ok page)
    (hgrants : page.accessGrants ≠ []) (hnamed : ∀ g ∈ page.accessGrants, g.Named) :
    ∃ r d', calm (revokePageAccessGrants id) d = (.ok r, d') := by
  have hmarked : (d.write (.marker id) (markerJson page.accessGrants)).content (.marker id) =
      some (.ok (markerJson page.accessGrants)) := by rw [content_write, if_pos rfl]
  obtain ⟨d₂, hrecover⟩ := recover_of_recoverable hmarked ((recoverable_mark hm h).mpr hnamed)
  rw [calm_revokePage hm h hgrants, calm_bind_ok hrecover]
  exact ⟨_, _, rfl⟩

/-- **The pages a bulk revocation went through** show no grants, every one of
theirs was named and is reported, and no other page has changed. -/
theorem revokeEach_ok {ids : List String} {n : Nat} {revoked : List (String × Grant)} {d' : Disk}
    (hm : ∀ id, d.content (.marker id) = none) (hnodup : ids.Nodup)
    (h : calm (revokeEach ids) d = (.ok (n, revoked), d')) :
    (∀ id ∈ ids, ∀ page, d.loads id = .ok page →
      (∀ g ∈ page.accessGrants, g.Named ∧ (id, g) ∈ revoked) ∧
        d'.loads id = .ok { page with accessGrants := [] }) ∧
      ∀ id, id ∉ ids → d'.loads id = d.loads id := by
  induction ids generalizing d n revoked with
  | nil =>
      cases h
      exact ⟨nofun, fun _ _ => rfl⟩
  | cons id ids ih =>
      obtain ⟨hnew, hnodup⟩ := List.nodup_cons.mp hnodup
      unfold revokeEach at h
      obtain ⟨r, d₀, hskip, h⟩ := calm_bind_eq_ok.mp h
      obtain ⟨rfl, rfl⟩ := loadOrSkip_ok hskip
      cases hl : d₀.loads id with
      | error e =>
          rw [hl] at h
          obtain ⟨hall, hother⟩ := ih hm hnodup h
          refine ⟨List.forall_mem_cons.mpr ⟨fun page hp => ?_, hall⟩, fun i hi => ?_⟩
          · rw [hl] at hp
            cases hp
          · exact hother i fun hmem => hi (List.mem_cons_of_mem _ hmem)
      | ok page =>
          rw [hl] at h
          change calm (if page.accessGrants = [] then _ else _) d₀ = _ at h
          split at h
          · rename_i hnil
            obtain ⟨hall, hother⟩ := ih hm hnodup h
            refine ⟨List.forall_mem_cons.mpr ⟨fun p hp => ?_, hall⟩, fun i hi => ?_⟩
            · rw [hl] at hp
              cases hp
              refine ⟨by rw [hnil]; exact nofun, ?_⟩
              rw [hother id hnew, hl, ← hnil]
            · exact hother i fun hmem => hi (List.mem_cons_of_mem _ hmem)
          · rename_i hgrants
            have hpid := (pageIdRe_of_onFile (onFile_of_unmarked (hm id) hl)).1
            rw [hpid] at h
            obtain ⟨r, d₁, hrevoke, h⟩ := calm_bind_eq_ok.mp h
            obtain ⟨⟨n', revoked'⟩, d₂, hrest, hret⟩ := calm_bind_eq_ok.mp h
            cases hret
            have hrev := revokePage_ok (hm id) hl hgrants hrevoke
            have hm₁ : ∀ i, d₁.content (.marker i) = none := fun i => by
              by_cases hi : i = id
              · exact hi ▸ hrev.marker
              · rw [(hrev.other i hi).1, hm i]
            have hsame : ∀ i, i ≠ id → d₁.loads i = d₀.loads i := fun i hi =>
              loads_congr (hrev.other i hi).2 (hrev.other i hi).1
            obtain ⟨hall, hother⟩ := ih hm₁ hnodup hrest
            refine ⟨List.forall_mem_cons.mpr ⟨fun p hp => ?_, fun i hi p hp => ?_⟩, fun i hi => ?_⟩
            · rw [hl] at hp
              cases hp
              refine ⟨fun g hg => ⟨hrev.named g hg, ?_⟩, (hother id hnew).trans hrev.loads⟩
              exact List.mem_append_left _ (List.mem_map_of_mem hg)
            · have hne : i ≠ id := fun h => hnew (h ▸ hi)
              obtain ⟨hgs, hloads⟩ := hall i hi p ((hsame i hne).trans hp)
              exact ⟨fun g hg => ⟨(hgs g hg).1, List.mem_append_right _ (hgs g hg).2⟩, hloads⟩
            · rw [List.mem_cons, not_or] at hi
              exact (hother i hi.2).trans (hsame i hi.1)

theorem revokeEach_of_named {ids : List String} (hm : ∀ id, d.content (.marker id) = none)
    (hnodup : ids.Nodup) (hraises : ∀ id ∈ ids, Raises IsPageError (d.loads id))
    (hnamed : ∀ id ∈ ids, ∀ page, d.loads id = .ok page → ∀ g ∈ page.accessGrants, g.Named) :
    ∃ n revoked d', calm (revokeEach ids) d = (.ok (n, revoked), d') := by
  induction ids generalizing d with
  | nil => exact ⟨0, [], d, rfl⟩
  | cons id ids ih =>
      obtain ⟨hnew, hnodup⟩ := List.nodup_cons.mp hnodup
      obtain ⟨hr, hraises⟩ := List.forall_mem_cons.mp hraises
      obtain ⟨hn, hnamed⟩ := List.forall_mem_cons.mp hnamed
      have hskip := calm_loadOrSkip_of hr
      unfold revokeEach
      rw [calm_bind_ok hskip]
      cases hl : d.loads id with
      | error e => exact ih hm hnodup hraises hnamed
      | ok page =>
          change ∃ n revoked d', calm (if page.accessGrants = [] then _ else _) d = _
          split
          · exact ih hm hnodup hraises hnamed
          · rename_i hgrants
            have hpid := (pageIdRe_of_onFile (onFile_of_unmarked (hm id) hl)).1
            rw [hpid]
            obtain ⟨r, d₁, hrevoke⟩ := revokePage_of_named (hm id) hl hgrants (hn page hl)
            have hrev := revokePage_ok (hm id) hl hgrants hrevoke
            have hm₁ : ∀ i, d₁.content (.marker i) = none := fun i => by
              by_cases hi : i = id
              · exact hi ▸ hrev.marker
              · rw [(hrev.other i hi).1, hm i]
            have hsame : ∀ i ∈ ids, d₁.loads i = d.loads i := fun i hi =>
              have hne : i ≠ id := fun h => hnew (h ▸ hi)
              loads_congr (hrev.other i hne).2 (hrev.other i hne).1
            obtain ⟨n, revoked, d', hrest⟩ := ih hm₁ hnodup
              (fun i hi => hsame i hi ▸ hraises i hi)
              fun i hi p hp => hnamed i hi p ((hsame i hi).symm.trans hp)
            exact ⟨n + 1, _, d', (calm_bind_ok hrevoke).trans (calm_bind_ok hrest)⟩

end Revoke

/-! ## The theorem -/

/-- Bad files are isolated: every load ends in a page, a `PageConfigError` or
a `PageNotFoundError`; listing returns the summaries of the valid pages; and
a bulk revocation returns, with every grant of every valid page reported and
none of them shown any more. -/
structure Isolated (d : Disk) : Prop where
  load : ∀ id ∈ d.pages, Raises IsPageError (calm (loadUnlocked id) d).1
  list : ∃ summaries, (calm listPages d).1 = .ok summaries ∧ summaries.Perm
    ((d.pages.filterMap fun id => (calm (loadUnlocked id) d).1.toOption).map pageAdminSummary)
  revoke : ∃ n revoked, (calm revokeAllAccessGrants d).1 = .ok (n, revoked) ∧
    ∀ id ∈ d.pages, ∀ page, (calm (loadUnlocked id) d).1 = .ok page →
      (∀ g ∈ page.accessGrants, (id, g) ∈ revoked) ∧
        (calm (loadUnlocked id) (calm revokeAllAccessGrants d).2).1 =
          .ok { page with accessGrants := [] }

theorem calm_revokeAll {d₁ : Disk} (h : calm recoverPendingRevocations d = (.ok (), d₁)) :
    calm revokeAllAccessGrants d = calm (revokeEach (sortedStems ".json" d₁.pages)) d₁ :=
  calm_bind_ok h

/-- A directory of one file. -/
def oneFile (id : String) (c : Content) : Disk :=
  { Disk.empty with files := ⟨[(.page id, c)], List.nodup_singleton _⟩ }

/-- A byte that begins no character. -/
def noText : ByteArray := ⟨#[0xff]⟩

omit [Python] in
theorem contentOf_noText (loads : String → Content) : contentOf loads noText = .error .value := by
  have hnone : String.fromUTF8? noText = none := by decide +kernel
  rw [contentOf, hnone]

omit [Python] in
theorem content_oneFile (id : String) (c : Content) :
    (oneFile id c).content (.page id) = some c := by
  simp [oneFile, Disk.content, Table.find?]

/-- The text of a page without resources. -/
def doorText : String := "\x7b\"id\": \"door\", \"title\": \"Door\"\x7d"

/-- What `json.loads` makes of it. -/
def doorFields : Json := .obj [("id", .str "door"), ("title", .str "Door")]

/-- `json.loads`, of that text. -/
def doorLoads (text : String) : Content :=
  if text = doorText then .ok doorFields
  else .error (.jsonDecode "Expecting value: line 1 column 1 (char 0)")

omit [Python] in
theorem contentOf_toUTF8 (loads : String → Content) (text : String) :
    contentOf loads text.toUTF8 = loads text := by
  have hsome : String.fromUTF8? text.toUTF8 = some text := dif_pos text.isValidUTF8
  rw [contentOf, hsome]

end Pages

end AccessPages
