import AccessPages.Pages.Helpers
/-!
# Pages — what the store can durably do

`Step` is every change the store makes to its disk, with what is known
when it makes it; the page a caller hands in is the one thing `Step` is
open about (`accepts`). Each method, stopped anywhere by an error or a
crash, has only taken such steps. The results about revocation and
cleanup are invariants of `Step`.
-/

namespace AccessPages

namespace Pages

variable [Python]

/-! ## Reading the disk -/

/-- The page a file validates to. -/
def onFile (d : Disk) (id : String) : Option Page :=
  match d.content (.page id) with
  | some (.ok v) => (validatePage v (some id)).toOption
  | _ => none

/-- A revocation is under way. -/
def marked (d : Disk) (id : String) : Bool := (d.content (.marker id)).isSome

/-- What `load` returns: a marker masks the grants. -/
def visible (d : Disk) (id : String) : Option Page :=
  (onFile d id).map fun page => if marked d id then { page with accessGrants := [] } else page

/-- The page file holds no grants, if it is there. -/
def Erased (d : Disk) (id : String) : Prop :=
  ∀ c, d.content (.page id) = some c → ∃ v, c = .ok v ∧ rawGrants v = []

/-- What a grant owes is in the queue. -/
def Queued (d : Disk) (g : Grant) : Prop :=
  ∀ o, g.obligation = some o → ∃ r ∈ d.cleanup, r.resource = o.resource ∧ r.qurl = o.qurl

theorem onFile_eq_some {d : Disk} {id : String} {page : Page} :
    onFile d id = some page ↔
      ∃ v, d.content (.page id) = some (.ok v) ∧ validatePage v (some id) = .ok page := by
  unfold onFile
  split
  · rename_i v hv
    rw [hv]
    cases hp : validatePage v (some id) with
    | ok p => simp [Except.toOption, hp]
    | error e => simp [Except.toOption, hp]
  · rename_i hne
    exact ⟨nofun, fun ⟨v, hv, _⟩ => absurd hv (hne v)⟩

/-! ## Steps -/

/-- One durable change. -/
inductive Step (accepts : Disk → String → Page → Prop) (d : Disk) : Disk → Prop where
  /-- A grant joins the queue. -/
  | enqueue (id : String) (g : Grant) (now : Instant) : Step accepts d (d.enqueue id g now)
  /-- A revocation starts: the marker lists every grant of the page. -/
  | mark {id : String} {page : Page} (hmarker : d.content (.marker id) = none)
      (hfile : onFile d id = some page) :
      Step accepts d (d.write (.marker id) (markerJson page.accessGrants))
  /-- Recovery erases the grants, with everything the marker lists queued. -/
  | erase {id : String} {c : Content} {gs : List Grant} {page : Page}
      (hmarker : d.content (.marker id) = some c) (hlisted : markerGrants c = .ok gs)
      (hqueued : ∀ g ∈ gs, Queued d g) :
      Step accepts d (d.write (.page id) { page with accessGrants := [] }.toJson)
  /-- A revocation ends. -/
  | unmark {id : String} {c : Content} {gs : List Grant}
      (hmarker : d.content (.marker id) = some c) (hlisted : markerGrants c = .ok gs)
      (hqueued : ∀ g ∈ gs, Queued d g) (herased : Erased d id) :
      Step accepts d (d.unlink (.marker id))
  /-- A page is rewritten with grants it shows; those left out are queued. -/
  | edit {id : String} {shown page : Page} (hshown : visible d id = some shown)
      (hold : ∀ g ∈ page.accessGrants, ∃ g' ∈ shown.accessGrants, g'.id = g.id)
      (hkept : ∀ g' ∈ shown.accessGrants,
        Queued d g' ∨ ∃ g ∈ page.accessGrants, g.obligation = g'.obligation) :
      Step accepts d (d.write (.page id) page.toJson)
  /-- A caller hands in a page. -/
  | submit {id : String} {page : Page} (haccepts : accepts d id page) :
      Step accepts d (d.write (.page id) page.toJson)
  /-- A page is deleted, with no grants left. -/
  | unlink {id : String} (hmarker : d.content (.marker id) = none) (herased : Erased d id) :
      Step accepts d (d.unlink (.page id))
  | reportDeleted (r : CleanupRow) : Step accepts d (d.reportDeleted r)
  /-- A row is dropped once its deletion was reported. -/
  | complete {resource qurl : String} (h : (resource, qurl) ∈ d.deleted) :
      Step accepts d (d.complete resource qurl)
  | postpone (r : CleanupRow) (retryAfter : Option Int) (now : Instant) :
      Step accepts d (d.postpone r retryAfter now)

/-- Any number of steps. -/
abbrev Steps (accepts : Disk → String → Page → Prop) : Disk → Disk → Prop :=
  Relation.ReflTransGen (Step accepts)

/-! ## Rules for the parts of a method -/

section Rules

variable {α β : Type} {S : Prop} {J : Disk → Prop} {d : Disk}
variable {Q : Except PageError β → Disk → Prop}

theorem keeps_checkId {id : String} {f : Unit → FileM β} (hJ : J d) (herr : ∀ e, Q (.error e) d)
    (hok : Keeps S J (f ()) Q d) : Keeps S J (checkId id >>= f) Q d :=
  keeps_bind (keeps_lift hJ herr fun _ _ => keeps_pure hJ hok)

omit [Python] in
/-- A test for a file, which may be blind. -/
theorem keeps_test {p : Path} {f : Bool → FileM β} (hJ : J d)
    (hblind : S → Keeps S J (f false) Q d) (hok : Keeps S J (f (d.content p).isSome) Q d) :
    Keeps S J (isFile p >>= f) Q d :=
  keeps_bind (keeps_step hJ (fun _ ht hfails => hblind (ht hfails)) fun _ => ⟨hJ, hok⟩)

omit [Python] in
theorem keeps_isFile {p : Path} {f : Bool → FileM β} (hJ : J d)
    (hok : Keeps False J (f (d.content p).isSome) Q d) : Keeps False J (isFile p >>= f) Q d :=
  keeps_test hJ False.elim hok

omit [Python] in
theorem keeps_requireFile {id : String} {f : Unit → FileM β} (hJ : J d)
    (herr : ∀ e, Q (.error e) d)
    (hok : (d.content (.page id)).isSome = true → Keeps S J (f ()) Q d) :
    Keeps S J (requireFile id >>= f) Q d := by
  refine keeps_bind (keeps_test hJ (fun _ => keeps_throw hJ (herr _)) ?_)
  split
  · rename_i h
    exact keeps_pure hJ (hok h)
  · exact keeps_throw hJ (herr _)

omit [Python] in
theorem keeps_read {p : Path} {f : Content → FileM β} (hJ : J d)
    (hok : ∀ c, (∃ text, c = .error (.os text)) ∨ d.content p = some c → Keeps S J (f c) Q d) :
    Keeps S J (ask (.read p) >>= f) Q d := by
  refine keeps_bind (keeps_ask hJ (hok _ (.inl ⟨_, rfl⟩)) fun _ => ⟨hJ, hok _ ?_⟩)
  cases h : d.content p with
  | none => exact .inl ⟨_, rfl⟩
  | some c => exact .inr rfl

omit [Python] in
/-- A write: nothing is written, or the file is. -/
theorem keeps_write {p : Path} {v : Json} (hJ : J d) (hw : J (d.write p v)) :
    Keeps S J (write p v) (OnOk fun _ d' => d' = d.write p v) d := by
  refine keeps_bind (keeps_ask hJ trivial fun _ => ⟨hJ, ?_⟩)
  refine keeps_bind (keeps_ask hJ trivial fun _ => ⟨hw, ?_⟩)
  exact keeps_ask hw trivial fun _ => ⟨hw, rfl⟩

/-- What `load` may return: what the disk shows, or, where a test may be blind,
what is on file. -/
def Shows (S : Prop) (d : Disk) (id : String) (page : Page) : Prop :=
  visible d id = some page ∨ S ∧ onFile d id = some page

/-- `load` changes nothing and returns what the disk shows. -/
theorem keeps_loads {id : String} (hJ : J d) :
    Keeps S J (loadUnlocked id)
      (fun r d' => d' = d ∧ ∀ page, r = .ok page → Shows S d id page) d := by
  have herr : ∀ e : PageError, d = d ∧ ∀ page, (Except.error e : Except PageError Page) = .ok page →
      Shows S d id page := fun e => ⟨rfl, nofun⟩
  unfold loadUnlocked
  refine keeps_checkId hJ herr (keeps_requireFile hJ herr fun _ => keeps_read hJ fun c hc => ?_)
  split
  · exact keeps_throw hJ (herr _)
  · exact keeps_throw hJ (herr _)
  · exact keeps_throw hJ (herr _)
  · rename_i v
    refine keeps_lift hJ herr fun page hpage => ?_
    have hfile : onFile d id = some page := by
      rcases hc with ⟨_, hc⟩ | hc
      · cases hc
      · exact onFile_eq_some.mpr ⟨v, hc, hpage⟩
    refine keeps_test hJ (fun hS => ?_) ?_
    · refine keeps_pure hJ ⟨rfl, fun p hp => .inr ⟨hS, ?_⟩⟩
      cases hp
      exact hfile
    split
    · rename_i hm
      refine keeps_pure hJ ⟨rfl, fun p hp => .inl ?_⟩
      cases hp
      simp [visible, hfile, marked, hm]
    · rename_i hm
      refine keeps_pure hJ ⟨rfl, fun p hp => .inl ?_⟩
      cases hp
      simp [visible, hfile, marked, hm]

theorem shows_sighted {id : String} {page : Page} :
    Shows False d id page ↔ visible d id = some page := by
  simp [Shows]

theorem keeps_load {id : String} (hJ : J d) :
    Keeps False J (loadUnlocked id)
      (fun r d' => d' = d ∧ ∀ page, r = .ok page → visible d id = some page) d :=
  keeps_mono (keeps_loads hJ) fun _ _ _ hr =>
    ⟨hr.1, fun page hpage => shows_sighted.mp (hr.2 page hpage)⟩

/-- A method that goes on from a load. -/
theorem keeps_loads_bind {id : String} {f : Page → FileM β} (hJ : J d)
    (herr : ∀ e, Q (.error e) d) (hok : ∀ page, Shows S d id page → Keeps S J (f page) Q d) :
    Keeps S J (loadUnlocked id >>= f) Q d := by
  apply keeps_bind
  apply keeps_mono (keeps_loads hJ)
  rintro r d' - ⟨rfl, hr⟩
  cases r with
  | ok page => exact hok page (hr page rfl)
  | error e => exact herr e

theorem keeps_load_bind {id : String} {f : Page → FileM β} (hJ : J d)
    (herr : ∀ e, Q (.error e) d)
    (hok : ∀ page, visible d id = some page → Keeps False J (f page) Q d) :
    Keeps False J (loadUnlocked id >>= f) Q d :=
  keeps_loads_bind hJ herr fun page hpage => hok page (shows_sighted.mp hpage)

/-- The same where a failure skips the page. -/
theorem keeps_loadOrSkip {id : String} {f : Option Page → FileM β} (hJ : J d)
    (herr : ∀ e, Q (.error e) d)
    (hok : ∀ page, (∀ p, page = some p → visible d id = some p) → Keeps False J (f page) Q d) :
    Keeps False J (loadOrSkip id >>= f) Q d := by
  unfold loadOrSkip
  apply keeps_bind
  apply keeps_tryCatch
  apply keeps_bind
  apply keeps_mono (keeps_load hJ)
  rintro r d' - ⟨rfl, hr⟩
  cases r with
  | ok page =>
      refine keeps_pure hJ (hok _ ?_)
      rintro p ⟨⟩
      exact hr page rfl
  | error e =>
      cases e with
      | config _ => exact keeps_pure hJ (hok none nofun)
      | notFound _ => exact keeps_pure hJ (hok none nofun)
      | _ => exact keeps_throw hJ (herr _)

end Rules

/-! ## Every method takes steps -/

section Methods

variable {accepts : Disk → String → Page → Prop} {o d : Disk} {id : String}

/-- Queueing leaves the files alone and the queue no shorter. -/
structure Grows (d d' : Disk) : Prop where
  content : ∀ p, d'.content p = d.content p
  queued : ∀ g, Queued d g → Queued d' g

omit [Python] in
theorem queued_mono {d' : Disk} (h : ∀ r ∈ d.cleanup, r ∈ d'.cleanup) {g : Grant}
    (hg : Queued d g) : Queued d' g := fun ob hob =>
  let ⟨r, hr, hkey⟩ := hg ob hob
  ⟨r, h r hr, hkey⟩

omit [Python] in
theorem grows_enqueue (g : Grant) (now : Instant) : Grows d (d.enqueue id g now) where
  content _ := content_enqueue
  queued _ := queued_mono fun r hr => by
    unfold Disk.enqueue
    split
    · exact hr
    · exact Table.mem_insertOrIgnore_of_mem hr

omit [Python] in
theorem queued_enqueue (g : Grant) (now : Instant) : Queued (d.enqueue id g now) g := by
  intro ob hob
  simp only [Disk.enqueue, hob]
  obtain ⟨r, hr, hkey⟩ := Table.exists_key_insertOrIgnore (t := d.cleanup)
    (r := cleanupRow id ob now)
  exact ⟨r, hr, Prod.ext_iff.mp hkey⟩

theorem keeps_enqueueAll (h : Steps accepts o d) (gs : List Grant) :
    Keeps False (Steps accepts o) (enqueueAll id gs)
      (OnOk fun _ d' => Grows d d' ∧ ∀ g ∈ gs, Queued d' g) d := by
  induction gs generalizing d with
  | nil => exact keeps_pure h ⟨⟨fun _ => rfl, fun _ h => h⟩, nofun⟩
  | cons g gs ih =>
      refine keeps_bind (keeps_ask h trivial fun t => ?_)
      have hstep := h.tail (.enqueue id g t.now)
      refine ⟨hstep, keeps_mono (ih hstep) fun r d' _ hr => ?_⟩
      cases r with
      | error e => trivial
      | ok _ =>
          obtain ⟨hg, hall⟩ := hr
          have hone := @grows_enqueue d id g t.now
          refine ⟨⟨fun p => (hg.content p).trans (hone.content p),
            fun g' h' => hg.queued g' (hone.queued g' h')⟩, ?_⟩
          simp only [List.mem_cons, forall_eq_or_imp]
          exact ⟨hg.queued g (queued_enqueue g t.now), hall⟩

omit [Python] in
theorem erased_write (page : Page) :
    Erased (d.write (.page id) { page with accessGrants := [] }.toJson) id := by
  intro c hc
  rw [content_write, if_pos rfl] at hc
  cases hc
  exact ⟨_, rfl, rfl⟩

/-- Recovery under way: the marker is there and what it lists is queued. -/
structure Recovering (d : Disk) (id : String) (c : Content) (gs : List Grant) : Prop where
  marker : d.content (.marker id) = some c
  listed : markerGrants c = .ok gs
  queued : ∀ g ∈ gs, Queued d g

theorem keeps_eraseGrants {c : Content} {gs : List Grant} (h : Steps accepts o d)
    (hr : Recovering d id c gs) :
    Keeps False (Steps accepts o) (eraseGrants id)
      (OnOk fun _ d' => Recovering d' id c gs ∧ Erased d' id) d := by
  unfold eraseGrants
  refine keeps_isFile h ?_
  split
  · refine keeps_read h fun c' _ => ?_
    split
    · exact keeps_throw h trivial
    · exact keeps_throw h trivial
    · refine keeps_lift h (fun _ => trivial) fun page _ => ?_
      have hstep := h.tail (@Step.erase _ accepts d id c gs page hr.marker hr.listed hr.queued)
      refine keeps_mono (keeps_write h hstep) fun r d' _ hd => ?_
      cases r with
      | error e => trivial
      | ok _ =>
          obtain rfl : d' = _ := hd
          exact ⟨⟨by simpa using hr.marker, hr.listed, hr.queued⟩, erased_write page⟩
  · rename_i hnone
    refine keeps_pure h ⟨hr, fun c' hc' => ?_⟩
    simp [hc'] at hnone

/-- **Recovery.** When it is done the marker is gone; if there was one, so
are the grants of the page file. -/
theorem keeps_recover (h : Steps accepts o d) :
    Keeps False (Steps accepts o) (recoverRevocationUnlocked id)
      (OnOk fun _ d' => d'.content (.marker id) = none ∧ (d' = d ∨ Erased d' id)) d := by
  unfold recoverRevocationUnlocked
  refine keeps_checkId h (fun _ => trivial) (keeps_isFile h ?_)
  split
  · refine keeps_read h fun c hc => ?_
    split
    · exact keeps_throw h trivial
    · rename_i gs hgs
      have hmarker : d.content (.marker id) = some c := by
        rcases hc with ⟨text, rfl⟩ | hc
        · cases hgs
        · exact hc
      refine keeps_seq (keeps_enqueueAll h gs) fun _ d₁ h₁ ⟨hgrow, hqueued⟩ => ?_
      refine keeps_seq (keeps_eraseGrants h₁ ⟨(hgrow.content _).trans hmarker, hgs, hqueued⟩)
        fun _ d₂ h₂ ⟨hr, herased⟩ => ?_
      have hstep := h₂.tail (.unmark hr.marker hr.listed hr.queued herased)
      refine keeps_bind (keeps_ask h₂ trivial fun t => ?_)
      simp only [FileOp.perform, hr.marker, Option.isSome_some, if_true]
      refine ⟨hstep, keeps_ask hstep trivial fun _ => ⟨hstep, by simp [FileOp.perform], .inr ?_⟩⟩
      intro c' hc'
      simp only [FileOp.perform, content_unlink] at hc'
      exact herased c' (by simpa using hc')
  · rename_i hnone
    exact keeps_pure h ⟨by simpa using hnone, .inl rfl⟩

theorem keeps_recoverEach (h : Steps accepts o d) (ids : List String) :
    Keeps False (Steps accepts o) (recoverEach ids) (OnOk fun _ _ => True) d := by
  induction ids generalizing d with
  | nil => exact keeps_pure h trivial
  | cons id ids ih => exact keeps_seq (keeps_recover h) fun _ d' h' _ => ih h'

theorem keeps_recoverPendingRevocations (h : Steps accepts o d) :
    Keeps False (Steps accepts o) recoverPendingRevocations (OnOk fun _ _ => True) d := by
  refine keeps_bind (keeps_ask h trivial fun _ => ⟨h, ?_⟩)
  exact keeps_bind (keeps_ask h trivial fun _ => ⟨h, keeps_recoverEach h _⟩)

/-- What is seen without a marker is what the file has. -/
theorem visible_of_unmarked {page : Page} (hm : d.content (.marker id) = none)
    (hv : visible d id = some page) : onFile d id = some page := by
  simpa [visible, marked, hm] using hv

/-- A page without grants is erased. -/
theorem erased_of_onFile {page : Page} (hf : onFile d id = some page)
    (hg : page.accessGrants = []) : Erased d id := by
  obtain ⟨v, hv, hpage⟩ := onFile_eq_some.mp hf
  intro c hc
  obtain rfl : Except.ok v = c := Option.some.inj (hv.symm.trans hc)
  refine ⟨v, rfl, ?_⟩
  have hall := (validatePage_eq_ok hpage).2.2
  rw [hg] at hall
  exact List.eq_nil_iff_forall_not_mem.mpr fun r hr => by
    obtain ⟨g, hg, -⟩ := hall r hr
    cases hg

/-- **Revoking a page** leaves no marker and no grants on file. -/
theorem keeps_revokePage (h : Steps accepts o d) :
    Keeps False (Steps accepts o) (revokePageAccessGrants id)
      (OnOk fun _ d' => d'.content (.marker id) = none ∧ Erased d' id) d := by
  unfold revokePageAccessGrants
  refine keeps_seq (keeps_recover h) ?_
  rintro _ d₁ h₁ ⟨hm, -⟩
  refine keeps_load_bind h₁ (fun _ => trivial) fun page hpage => ?_
  have hfile := visible_of_unmarked hm hpage
  dsimp only
  split
  · rename_i hg
    exact keeps_pure h₁ ⟨hm, erased_of_onFile hfile hg⟩
  · have hstep := h₁.tail (.mark hm hfile)
    refine keeps_seq (keeps_write h₁ hstep) fun _ d₂ h₂ hd₂ => ?_
    refine keeps_seq (keeps_recover h₂) ?_
    rintro _ d₃ h₃ ⟨hm₃, he₃⟩
    refine keeps_pure h₃ ⟨hm₃, he₃.resolve_left ?_⟩
    rintro rfl
    rw [hd₂, content_write, if_pos rfl] at hm₃
    cases hm₃

theorem keeps_create {payload : Json} (h : Steps accepts o d)
    (haccepts : ∀ page, validatePage payload none = .ok page →
      d.content (.page page.id) = none → accepts d page.id page) :
    Keeps False (Steps accepts o) (create payload) (OnOk fun _ _ => True) d := by
  unfold create
  refine keeps_lift h (fun _ => trivial) fun page hpage => keeps_isFile h ?_
  split
  · exact keeps_throw h trivial
  · rename_i hnone
    have hstep := h.tail (.submit (haccepts page hpage (by simpa using hnone)))
    exact keeps_seq (keeps_write h hstep) fun _ _ h' _ => keeps_pure h' trivial

theorem keeps_replaceUnlocked {v : Json} (h : Steps accepts o d)
    (hstep : ∀ page, validatePage v (some id) = .ok page → (d.content (.page id)).isSome = true →
      Step accepts d (d.write (.page id) page.toJson)) :
    Keeps False (Steps accepts o) (replaceUnlocked id v) (OnOk fun _ _ => True) d := by
  unfold replaceUnlocked
  refine keeps_checkId h (fun _ => trivial) (keeps_requireFile h (fun _ => trivial) fun hsome => ?_)
  refine keeps_lift h (fun _ => trivial) fun page hpage => ?_
  exact keeps_seq (keeps_write h (h.tail (hstep page hpage hsome))) fun _ _ h' _ =>
    keeps_pure h' trivial

/-! ## Edits -/

theorem Matches.exists_old {gs gs' : List Grant} (h : Matches (gs.map Grant.toJson) gs')
    {g : Grant} (hg : g ∈ gs') : ∃ g' ∈ gs, g'.id = g.id ∧ g'.obligation = g.obligation := by
  obtain ⟨r, hr, hsame⟩ := h.1 g hg
  obtain ⟨g', hg', rfl⟩ := List.mem_map.mp hr
  have hself := same_toJson g'
  exact ⟨g', hg', hself.1.symm.trans hsame.1, hself.2.symm.trans hsame.2⟩

theorem Matches.exists_new {gs gs' : List Grant} (h : Matches (gs.map Grant.toJson) gs')
    {g : Grant} (hg : g ∈ gs) : ∃ g' ∈ gs', g'.id = g.id ∧ g'.obligation = g.obligation := by
  obtain ⟨g', hg', hsame⟩ := h.2 g.toJson (List.mem_map_of_mem hg)
  have hself := same_toJson g
  exact ⟨g', hg', hsame.1.symm.trans hself.1, hsame.2.symm.trans hself.2⟩

omit [Python] in
theorem getD_withGrants (gs : List Grant) (fields : List (String × Json)) :
    Json.getD (fields.filter (·.1 ≠ "access_grants") ++
      [("access_grants", .arr (gs.map Grant.toJson))]) "access_grants" (.arr []) =
      .arr (gs.map Grant.toJson) := by
  induction fields with
  | nil => rfl
  | cons f fields ih =>
      by_cases hf : f.1 = "access_grants"
      · simpa [hf] using ih
      · have hne : ("access_grants" == f.1) = false := by simpa using Ne.symm hf
        rw [List.filter_cons_of_pos (by simpa using hf), List.cons_append, Json.getD, Json.get?,
          List.lookup_cons, hne]
        exact ih

omit [Python] in
/-- An edit's payload has the grants it is given. -/
theorem rawGrants_withGrants (gs : List Grant) (fields : List (String × Json)) :
    rawGrants (withGrants gs (.obj fields)) = gs.map Grant.toJson := by
  simp only [withGrants, rawGrants, getD_withGrants]

/-- A page rewritten with grants it shows. -/
theorem step_edit {shown page : Page} {gs : List Grant} (hshown : visible d id = some shown)
    (hold : ∀ g ∈ gs, ∃ g' ∈ shown.accessGrants, g'.id = g.id)
    (hkept : ∀ g' ∈ shown.accessGrants, Queued d g' ∨ ∃ g ∈ gs, g.obligation = g'.obligation)
    (hmatch : Matches (gs.map Grant.toJson) page.accessGrants) :
    Step accepts d (d.write (.page id) page.toJson) := by
  refine .edit hshown (fun g hg => ?_) fun g' hg' => ?_
  · obtain ⟨g₁, hg₁, hid₁, -⟩ := hmatch.exists_old hg
    obtain ⟨g', hg', hid'⟩ := hold g₁ hg₁
    exact ⟨g', hg', hid'.trans hid₁⟩
  · rcases hkept g' hg' with hq | ⟨g₁, hg₁, hob⟩
    · exact .inl hq
    · obtain ⟨g, hg, -, hob'⟩ := hmatch.exists_new hg₁
      exact .inr ⟨g, hg, hob'.trans hob⟩

theorem keeps_update {payload : Json} (h : Steps accepts o d) :
    Keeps False (Steps accepts o) (update id payload) (OnOk fun _ _ => True) d := by
  unfold update
  refine keeps_checkId h (fun _ => trivial) (keeps_requireFile h (fun _ => trivial) fun _ => ?_)
  refine keeps_load_bind h (fun _ => trivial) fun current hcurrent => ?_
  refine keeps_lift h (fun _ => trivial) fun page hpage => ?_
  have hmatch : Matches (current.accessGrants.map Grant.toJson) page.accessGrants := by
    cases payload with
    | obj fields =>
        rw [← rawGrants_withGrants current.accessGrants fields]
        exact (validatePage_eq_ok hpage).2
    | _ => cases hpage
  have hstep : Step accepts d _ := step_edit hcurrent (fun g hg => ⟨g, hg, rfl⟩)
    (fun g hg => .inr ⟨g, hg, rfl⟩) hmatch
  exact keeps_seq (keeps_write h (h.tail hstep)) fun _ _ h' _ => keeps_pure h' trivial

/-- Writing back a page that was loaded, with other grants. -/
theorem keeps_rewrite {shown : Page} {gs : List Grant} (h : Steps accepts o d)
    (hshown : visible d id = some shown)
    (hold : ∀ g ∈ gs, ∃ g' ∈ shown.accessGrants, g'.id = g.id)
    (hkept : ∀ g' ∈ shown.accessGrants, Queued d g' ∨ ∃ g ∈ gs, g.obligation = g'.obligation) :
    Keeps False (Steps accepts o) (replaceUnlocked id { shown with accessGrants := gs }.toJson)
      (OnOk fun _ _ => True) d :=
  keeps_replaceUnlocked h fun _ hpage _ =>
    step_edit hshown hold hkept (validatePage_eq_ok hpage).2

theorem visible_congr {d' : Disk} (h : ∀ p, d'.content p = d.content p) :
    visible d' id = visible d id := by
  have hfile : onFile d' id = onFile d id := by
    unfold onFile
    rw [h]
  have hmark : marked d' id = marked d id := by
    unfold marked
    rw [h]
  unfold visible
  rw [hfile, hmark]

theorem keeps_removeSavedGuestLink {grantId : String} (h : Steps accepts o d) :
    Keeps False (Steps accepts o) (removeSavedGuestLink id grantId) (OnOk fun _ _ => True) d := by
  unfold removeSavedGuestLink
  refine keeps_load_bind h (fun _ => trivial) fun shown hshown => ?_
  split
  · exact keeps_throw h trivial
  · -- the grant forgets its link, nothing else
    have hsame : ∀ g : Grant, (if g.id = grantId then g.forgetLink else g).id = g.id ∧
        (if g.id = grantId then g.forgetLink else g).obligation = g.obligation := by
      intro g
      split <;> exact ⟨rfl, rfl⟩
    refine keeps_rewrite h hshown (fun g hg => ?_) fun g hg => .inr ?_
    · obtain ⟨g', hg', rfl⟩ := List.mem_map.mp hg
      exact ⟨g', hg', (hsame g').1.symm⟩
    · exact ⟨_, List.mem_map_of_mem hg, (hsame g).2⟩

theorem keeps_removeAccessGrant {grantId : String} (h : Steps accepts o d) :
    Keeps False (Steps accepts o) (removeAccessGrant id grantId) (OnOk fun _ _ => True) d := by
  unfold removeAccessGrant
  refine keeps_load_bind h (fun _ => trivial) fun shown hshown => ?_
  dsimp only
  split
  · exact keeps_throw h trivial
  · refine keeps_seq (keeps_enqueueAll h _) ?_
    rintro _ d₁ h₁ ⟨hgrow, hqueued⟩
    refine keeps_rewrite h₁ ((visible_congr hgrow.content).trans hshown) (fun g hg => ?_)
      fun g hg => ?_
    · exact ⟨g, List.mem_of_mem_filter hg, rfl⟩
    · by_cases hid : g.id = grantId
      · exact .inl (hqueued g (List.mem_filter.mpr ⟨hg, by simpa using hid⟩))
      · exact .inr ⟨g, List.mem_filter.mpr ⟨hg, by simpa using hid⟩, rfl⟩

theorem mem_splitExpired {now : Instant} {gs expired active : List Grant}
    (h : splitExpired now gs = .ok (expired, active)) (g : Grant) :
    g ∈ gs ↔ g ∈ expired ∨ g ∈ active := by
  induction gs generalizing expired active with
  | nil =>
      cases h
      simp
  | cons g' gs ih =>
      simp only [splitExpired, except_bind_eq_ok] at h
      obtain ⟨gone, -, ⟨expired', active'⟩, hsplit, h⟩ := h
      have := ih hsplit
      cases gone <;> cases h <;> simp [this] <;> tauto

theorem keeps_expireAccessGrants {now : Instant} (h : Steps accepts o d) :
    Keeps False (Steps accepts o) (expireAccessGrants id now) (OnOk fun _ _ => True) d := by
  unfold expireAccessGrants
  refine keeps_load_bind h (fun _ => trivial) fun shown hshown => ?_
  refine keeps_lift h (fun _ => trivial) ?_
  rintro ⟨expired, active⟩ hsplit
  have hmem := mem_splitExpired hsplit
  dsimp only
  split
  · exact keeps_pure h trivial
  · refine keeps_seq (keeps_enqueueAll h _) ?_
    rintro _ d₁ h₁ ⟨hgrow, hqueued⟩
    refine keeps_seq (keeps_rewrite h₁ ((visible_congr hgrow.content).trans hshown)
      (fun g hg => ⟨g, (hmem g).mpr (.inr hg), rfl⟩) fun g hg => ?_)
      fun _ _ h' _ => keeps_pure h' trivial
    rcases (hmem g).mp hg with hg | hg
    · exact .inl (hqueued g hg)
    · exact .inr ⟨g, hg, rfl⟩

/-! ## The rest -/

theorem keeps_loadEach (h : Steps accepts o d) (ids : List String) :
    Keeps False (Steps accepts o) (loadEach ids) (OnOk fun _ d' => d' = d) d := by
  induction ids with
  | nil => exact keeps_pure h rfl
  | cons id ids ih =>
      refine keeps_loadOrSkip h (fun _ => trivial) fun page _ => ?_
      exact keeps_seq ih fun _ _ h' hd => keeps_pure h' hd

theorem keeps_listPages (h : Steps accepts o d) :
    Keeps False (Steps accepts o) listPages (OnOk fun _ _ => True) d := by
  refine keeps_bind (keeps_ask h trivial fun _ => ⟨h, ?_⟩)
  refine keeps_bind (keeps_ask h trivial fun _ => ⟨h, ?_⟩)
  exact keeps_seq (keeps_loadEach h _) fun _ _ h' _ => keeps_pure h' trivial

theorem keeps_revokeEach (h : Steps accepts o d) (ids : List String) :
    Keeps False (Steps accepts o) (revokeEach ids) (OnOk fun _ _ => True) d := by
  induction ids generalizing d with
  | nil => exact keeps_pure h trivial
  | cons id ids ih =>
      refine keeps_loadOrSkip h (fun _ => trivial) fun page _ => ?_
      cases page with
      | none => exact ih h
      | some page =>
          dsimp only
          split
          · exact ih h
          · refine keeps_seq (keeps_revokePage h) fun _ _ h₁ _ => ?_
            exact keeps_seq (ih h₁) fun _ _ h₂ _ => keeps_pure h₂ trivial

theorem keeps_revokeAllAccessGrants (h : Steps accepts o d) :
    Keeps False (Steps accepts o) revokeAllAccessGrants (OnOk fun _ _ => True) d := by
  refine keeps_seq (keeps_recoverPendingRevocations h) fun _ d₁ h₁ _ => ?_
  refine keeps_bind (keeps_ask h₁ trivial fun _ => ⟨h₁, ?_⟩)
  exact keeps_bind (keeps_ask h₁ trivial fun _ => ⟨h₁, keeps_revokeEach h₁ _⟩)

theorem keeps_delete (h : Steps accepts o d) :
    Keeps False (Steps accepts o) (delete id) (OnOk fun _ _ => True) d := by
  unfold delete
  refine keeps_checkId h (fun _ => trivial) (keeps_requireFile h (fun _ => trivial) fun _ => ?_)
  refine keeps_seq (keeps_revokePage h) fun _ d₁ h₁ ⟨hm, he⟩ => ?_
  refine keeps_bind (keeps_ask h₁ trivial fun t => ?_)
  simp only [FileOp.perform]
  split
  · have hstep := h₁.tail (.unlink hm he)
    exact ⟨hstep, keeps_ask hstep trivial fun _ => ⟨hstep, trivial⟩⟩
  · exact ⟨h₁, trivial⟩

theorem keeps_drainRows (h : Steps accepts o d) (rows : List CleanupRow) :
    Keeps False (Steps accepts o) (drainRows rows) (OnOk fun _ _ => True) d := by
  induction rows generalizing d with
  | nil => exact keeps_pure h trivial
  | cons r rows ih =>
      refine keeps_bind (keeps_ask h trivial fun t => ?_)
      simp only [FileOp.perform]
      split
      · have hdel := h.tail (.reportDeleted r)
        refine ⟨hdel, keeps_bind (keeps_ask hdel trivial fun _ => ?_)⟩
        have hstep := hdel.tail (.complete List.mem_cons_self)
        exact ⟨hstep, ih hstep⟩
      · rename_i retryAfter _
        refine ⟨h, keeps_bind (keeps_ask h trivial fun t => ?_)⟩
        have hstep := h.tail (.postpone r retryAfter t.now)
        exact ⟨hstep, ih hstep⟩
      · exact ⟨h, trivial⟩

theorem keeps_drain (h : Steps accepts o d) :
    Keeps False (Steps accepts o) drain (OnOk fun _ _ => True) d :=
  keeps_bind (keeps_ask h trivial fun _ => ⟨h, keeps_drainRows h _⟩)

end Methods

/-! ## Runs -/

/-- A call of the store or of its queue. -/
inductive Act where
  | load (id : String)
  | listPages
  | create (payload : Json)
  | update (id : String) (payload : Json)
  | replace (id : String) (page : Json)
  | removeSavedGuestLink (id grantId : String)
  | removeAccessGrant (id grantId : String)
  | expireAccessGrants (id : String) (now : Instant)
  | revokePageAccessGrants (id : String)
  | revokeAllAccessGrants
  | delete (id : String)
  | recoverPendingRevocations
  | drain

/-- The method, its result put aside. -/
def Act.method : Act → FileM Unit
  | load id => discard (loadUnlocked id)
  | listPages => discard Pages.listPages
  | create payload => discard (Pages.create payload)
  | update id payload => discard (Pages.update id payload)
  | replace id page => discard (replaceUnlocked id page)
  | removeSavedGuestLink id grantId => discard (Pages.removeSavedGuestLink id grantId)
  | removeAccessGrant id grantId => discard (Pages.removeAccessGrant id grantId)
  | expireAccessGrants id now => discard (Pages.expireAccessGrants id now)
  | revokePageAccessGrants id => discard (Pages.revokePageAccessGrants id)
  | revokeAllAccessGrants => discard Pages.revokeAllAccessGrants
  | delete id => Pages.delete id
  | recoverPendingRevocations => Pages.recoverPendingRevocations
  | drain => Pages.drain
where
  discard {α : Type} (m : FileM α) : FileM Unit := m >>= fun _ => pure ()

/-- The page a caller hands in, if the call writes it. -/
def Act.submits (d : Disk) : Act → Option (String × Page)
  | create payload =>
      match validatePage payload none with
      | .ok page => if d.content (.page page.id) = none then some (page.id, page) else none
      | .error _ => none
  | replace id v =>
      match validatePage v (some id) with
      | .ok page => some (id, page)
      | .error _ => none
  | _ => none

/-- A call, begun on `d` and stopped at `d'`: by an error, by a crash, or
because it is done. -/
def Stopped (allowed : Disk → Act → List Tick → Prop) (d d' : Disk) : Prop :=
  ∃ a ticks w, allowed d a ticks ∧ Prog.Stops FileOp.step a.method.run ⟨d, ticks⟩ w ∧ w.disk = d'

/-- Any number of calls, one after another. A restart keeps nothing but the
disk. -/
abbrev Run (allowed : Disk → Act → List Tick → Prop) : Disk → Disk → Prop :=
  Relation.ReflTransGen (Stopped allowed)

/-- A call that is done. -/
theorem stopped_done {allowed : Disk → Act → List Tick → Prop} {d : Disk} {a : Act}
    {ticks : List Tick} (h : allowed d a ticks) :
    Stopped allowed d (a.method.run.run FileOp.step ⟨d, ticks⟩).2.disk :=
  ⟨a, ticks, _, h, Prog.stops_run, rfl⟩

section Runs

variable {accepts : Disk → String → Page → Prop} {allowed : Disk → Act → List Tick → Prop}
variable {o d : Disk}

theorem keeps_discard {α : Type} {m : FileM α} {Q : α → Disk → Prop}
    (h : Keeps False (Steps accepts o) m (OnOk Q) d) :
    Keeps False (Steps accepts o) (Act.method.discard m) (OnOk fun _ _ => True) d :=
  keeps_seq h fun _ _ h' _ => keeps_pure h' trivial

/-- **Every call takes steps**, wherever it stops. -/
theorem keeps_method (h : Steps accepts o d) (a : Act)
    (haccepts : ∀ id page, a.submits d = some (id, page) → accepts d id page) :
    Keeps False (Steps accepts o) a.method (OnOk fun _ _ => True) d := by
  cases a with
  | load id =>
      refine keeps_seq (P := fun _ _ => True) (keeps_mono (keeps_load h) fun r _ _ _ => ?_)
        fun _ _ h' _ => keeps_pure h' trivial
      cases r <;> trivial
  | listPages => exact keeps_discard (keeps_listPages h)
  | create payload =>
      refine keeps_discard (keeps_create h fun page hpage hnone => haccepts page.id page ?_)
      simp [Act.submits, hpage, hnone]
  | update id payload => exact keeps_discard (keeps_update h)
  | replace id v =>
      refine keeps_discard (keeps_replaceUnlocked h fun page hpage _ => .submit ?_)
      exact haccepts id page (by simp [Act.submits, hpage])
  | removeSavedGuestLink id grantId => exact keeps_discard (keeps_removeSavedGuestLink h)
  | removeAccessGrant id grantId => exact keeps_discard (keeps_removeAccessGrant h)
  | expireAccessGrants id now => exact keeps_discard (keeps_expireAccessGrants h)
  | revokePageAccessGrants id => exact keeps_discard (keeps_revokePage h)
  | revokeAllAccessGrants => exact keeps_discard (keeps_revokeAllAccessGrants h)
  | delete id => exact keeps_delete h
  | recoverPendingRevocations => exact keeps_recoverPendingRevocations h
  | drain => exact keeps_drain h

/-- What a call may be: its tests for a file are not blind, and the page it hands
in is accepted. -/
def Admits (accepts : Disk → String → Page → Prop) (d : Disk) (a : Act) (ticks : List Tick) :
    Prop :=
  Sighted ticks ∧ ∀ id page, a.submits d = some (id, page) → accepts d id page

/-- **Every run takes steps.** -/
theorem run_steps (h : ∀ d a ticks, allowed d a ticks → Admits accepts d a ticks)
    (hrun : Run allowed o d) : Steps accepts o d := by
  induction hrun with
  | refl => exact .refl
  | tail _ hstop ih =>
      obtain ⟨a, ticks, w, hallowed, hw, rfl⟩ := hstop
      obtain ⟨hsight, haccepts⟩ := h _ a ticks hallowed
      exact (keeps_method ih a haccepts).stops (blind_sighted hsight) hw

/-- What every step preserves, a run preserves. -/
theorem run_invariant {I : Disk → Prop}
    (h : ∀ d a ticks, allowed d a ticks → Admits accepts d a ticks)
    (hstep : ∀ d d', Step accepts d d' → I d → I d') (hI : I o) (hrun : Run allowed o d) : I d := by
  have hsteps := run_steps h hrun
  clear hrun
  induction hsteps with
  | refl => exact hI
  | tail _ hs ih => exact hstep _ _ hs ih

end Runs

end Pages

end AccessPages
