import AccessPages.Admin.Handlers
import AccessPages.Pages.Cleanup
import AccessPages.Pages.Stored
/-!
# Admin — edits and grants

A payload may carry grants of its own. An edit gives it the grants the page
has, once more validated; a creation takes what it carries. A page that was
stored and cannot be published is taken back.
-/

namespace AccessPages

namespace Admin

open HomeAssistant (Answers Filters)
open Pages (Disk Page Grant visible onFile marked Erased validatePage rawGrants Keeps OnOk
  keeps_mono keeps_pure keeps_throw keeps_lift keeps_checkId keeps_requireFile keeps_isFile
  keeps_load keeps_load_bind keeps_write keeps_seq onFile_eq_some visible_checked update_grants
  validatePage_checked validatePage_eq_ok validatePage_toJson reread_eq_self_iff content_write
  content_unlink content_enqueue)

section Requests

variable [Python]

/-- The grants of a page, if it can be read. -/
def grantsOf (d : Disk) (id : String) : Option (List Grant) := (visible d id).map Page.accessGrants

/-- A request of the owner, with what Home Assistant answers to it. -/
inductive Request where
  | create (a : Answers) (payload : Json)
  | edit (a : Answers) (id : String) (payload : Json)

/-- The gateway. The process may stop within a request. -/
def gateway (cfg : Config) : Server Request Tick Op Op.Ans (Except Failure Page) World where
  serve
    | .create a payload => (createPage cfg a payload).run
    | .edit a id payload => (editPage cfg a id payload).run
  perform := Op.step
  reply _ _ w := w

def SameGrants (d d' : Disk) : Prop := ∀ id, grantsOf d' id = grantsOf d id

/-- Every page has the grants it had; one that was created has none. -/
def Request.Leaves (d d' : Disk) : Request → Prop
  | create .. => ∀ id, grantsOf d' id = grantsOf d id ∨
      grantsOf d id = none ∧ grantsOf d' id = some []
  | edit .. => SameGrants d d'

/-- A payload that creates a page carries no grants; the grants of a page that
is edited can be validated once more, if at all, without a change. -/
def Request.Harmless (cfg : Config) (d : Disk) : Request → Prop
  | create a payload => ∀ page, validatePage payload none = .ok page →
      validateEntityPolicy cfg.client a payload = .ok () →
      d.content (.page page.id) = none → rawGrants payload = []
  | edit _ id _ => ∀ gs, grantsOf d id = some gs → (∀ g ∈ gs, g.Named) → ∀ g ∈ gs, g.reread = g

theorem leaves_create {a : Answers} {payload : Json} {d d' : Disk} :
    (Request.create a payload).Leaves d d' ↔ ∀ id, grantsOf d' id = grantsOf d id ∨
      grantsOf d id = none ∧ grantsOf d' id = some [] := Iff.rfl

theorem harmless_edit {cfg : Config} {a : Answers} {id : String} {payload : Json} {d : Disk} :
    (Request.edit a id payload).Harmless cfg d ↔ ∀ gs, grantsOf d id = some gs →
      (∀ g ∈ gs, g.Named) → ∀ g ∈ gs, g.reread = g := Iff.rfl

/-- Each request of a run does. -/
def EachLeaves (cfg : Config) : World → List (Request × List Tick) → Prop
  | _, [] => True
  | w, r :: rs => r.1.Leaves w.disk ((gateway cfg).request w r).disk ∧
      EachLeaves cfg ((gateway cfg).request w r) rs

def EachHarmless (cfg : Config) : World → List (Request × List Tick) → Prop
  | _, [] => True
  | w, r :: rs => r.1.Harmless cfg w.disk ∧ EachHarmless cfg ((gateway cfg).request w r) rs

/-! ## Reading grants -/

variable {d d' : Disk} {id : String}

theorem grantsOf_congr (hpage : d'.content (.page id) = d.content (.page id))
    (hmarker : d'.content (.marker id) = d.content (.marker id)) : grantsOf d' id = grantsOf d id := by
  have hfile : onFile d' id = onFile d id := by
    unfold onFile
    rw [hpage]
  have hmarked : marked d' id = marked d id := by
    unfold marked
    rw [hmarker]
  unfold grantsOf visible
  rw [hfile, hmarked]

theorem grantsOf_eq_some {gs : List Grant} : grantsOf d id = some gs ↔
    ∃ page, onFile d id = some page ∧ (if marked d id then [] else page.accessGrants) = gs := by
  unfold grantsOf visible
  rw [Option.map_map, Option.map_eq_some_iff]
  refine exists_congr fun page => and_congr_right fun _ => ?_
  show Page.accessGrants (if marked d id then _ else _) = gs ↔ _
  rw [apply_ite Page.accessGrants]

theorem grantsOf_of_visible {page : Page} (h : visible d id = some page) :
    grantsOf d id = some page.accessGrants := by
  unfold grantsOf
  rw [h]
  rfl

/-- A page without a file has no grants. -/
theorem grantsOf_absent (h : d.content (.page id) = none) : grantsOf d id = none := by
  have hfile : onFile d id = none := by
    unfold onFile
    rw [h]
  unfold grantsOf visible
  rw [hfile]
  rfl

/-- A page without grants on file shows none. -/
theorem grantsOf_erased (h : Erased d id) : grantsOf d id = none ∨ grantsOf d id = some [] := by
  cases hgs : grantsOf d id with
  | none => exact .inl rfl
  | some gs =>
      refine .inr (congrArg some ?_)
      obtain ⟨page, hfile, rfl⟩ := grantsOf_eq_some.mp hgs
      obtain ⟨v, hv, hpage⟩ := onFile_eq_some.mp hfile
      obtain ⟨v', hv', hnone⟩ := h _ hv
      obtain rfl := Except.ok.inj hv'
      have hmatch := (validatePage_eq_ok hpage).2.1
      rw [hnone] at hmatch
      have hgrants : page.accessGrants = [] := List.eq_nil_iff_forall_not_mem.mpr fun g hg => by
        obtain ⟨r, hr, -⟩ := hmatch g hg
        cases hr
      rw [hgrants, ite_self]

/-- Writing a page with the grants it shows. -/
theorem grantsOf_write {page : Page} (hpage : page.Checked) (hid : page.id = id)
    (hgs : grantsOf d id = some page.accessGrants)
    (hself : ∀ g ∈ page.accessGrants, g.Named ∧ g.reread = g) :
    SameGrants d (d.write (.page id) page.toJson) := by
  intro i
  by_cases hi : i = id
  · subst hi
    have hread : validatePage page.toJson (some i) = .ok page := by
      refine (validatePage_toJson hpage ?_).mpr ⟨fun g hg => (hself g hg).1, ?_⟩
      · rintro r ⟨⟩
        exact hid
      · exact reread_eq_self_iff.mpr fun g hg => (hself g hg).2
    have hfile : onFile (d.write (.page i) page.toJson) i = some page :=
      onFile_eq_some.mpr ⟨_, by rw [content_write, if_pos rfl], hread⟩
    have hmarked : marked (d.write (.page i) page.toJson) i = marked d i := by
      unfold marked
      rw [content_write, if_neg nofun]
    rw [hgs]
    refine grantsOf_eq_some.mpr ⟨page, hfile, ?_⟩
    rw [hmarked]
    split
    · rename_i hm
      -- what is shown under a marker has no grants
      obtain ⟨shown, -, hshown⟩ := grantsOf_eq_some.mp hgs
      rw [← hshown, if_pos hm]
    · rfl
  · refine grantsOf_congr ?_ ?_
    · rw [content_write, if_neg]
      rintro ⟨⟩
      exact hi rfl
    · rw [content_write, if_neg nofun]

/-! ## A page that is added -/

/-- The files of the other pages are as they were, and the page has no grants on
file. -/
structure Adds (d : Disk) (id : String) (d' : Disk) : Prop where
  others : ∀ i, i ≠ id → d'.content (.page i) = d.content (.page i) ∧
    d'.content (.marker i) = d.content (.marker i)
  erased : Erased d' id

theorem Adds.leaves {a : Answers} {payload : Json} (h : Adds d id d')
    (habsent : d.content (.page id) = none) : (Request.create a payload).Leaves d d' := by
  intro i
  by_cases hi : i = id
  · subst hi
    have hnone := grantsOf_absent habsent
    rcases grantsOf_erased h.erased with herased | herased
    · exact .inl (herased.trans hnone.symm)
    · exact .inr ⟨hnone, herased⟩
  · obtain ⟨hpage, hmarker⟩ := h.others i hi
    exact .inl (grantsOf_congr hpage hmarker)

omit [Python] in
theorem Adds.congr {d'' : Disk} (h : Adds d id d') (hc : ∀ p, d''.content p = d'.content p) :
    Adds d id d'' where
  others i hi := by
    rw [hc, hc]
    exact h.others i hi
  erased c hpage := h.erased c (by rwa [hc] at hpage)

omit [Python] in
theorem adds_write {v : Json} (hv : rawGrants v = []) :
    Adds d id (d.write (.page id) v) where
  others i hi := by
    rw [content_write, content_write, if_neg (by rintro ⟨⟩; exact hi rfl), if_neg nofun]
    exact ⟨rfl, rfl⟩
  erased c hc := by
    rw [content_write, if_pos rfl] at hc
    exact ⟨v, (Option.some.inj hc).symm, hv⟩

/-- Of the files, only those of the page are changed, and its page file is
written without grants. -/
def Strips (id : String) : Pages.FileOp → Prop
  | .write p v => p = .marker id ∨ p = .page id ∧ rawGrants v = []
  | .unlink p => p = .marker id ∨ p = .page id
  | _ => True

omit [Python] in
theorem strips_of_reads (e : Pages.FileOp) (he : Reads e) : Strips id e := by
  cases e with
  | write p v => exact he.elim
  | unlink p => exact he.elim
  | _ => trivial

omit [Python] in
theorem adds_perform {t : Pages.Tick} {e : Pages.FileOp} (he : Strips id e) (h : Adds d id d') :
    Adds d id (e.perform t d').2 := by
  have hne : ∀ i, i ≠ id → ∀ p, p = Pages.Path.marker id ∨ p = .page id →
      p ≠ .page i ∧ p ≠ .marker i := by
    rintro i hi p (rfl | rfl)
    · exact ⟨nofun, fun h => hi (Pages.Path.marker.inj h).symm⟩
    · exact ⟨fun h => hi (Pages.Path.page.inj h).symm, nofun⟩
  cases e with
  | write p v =>
      refine ⟨fun i hi => ?_, fun c hc => ?_⟩
      · obtain ⟨hpage, hmarker⟩ := hne i hi p (he.imp_right And.left)
        show (d'.write p v).content _ = _ ∧ (d'.write p v).content _ = _
        rw [content_write, content_write, if_neg hpage, if_neg hmarker]
        exact h.others i hi
      · replace hc : (d'.write p v).content (.page id) = some c := hc
        rw [content_write] at hc
        rcases he with rfl | ⟨rfl, hv⟩
        · rw [if_neg nofun] at hc
          exact h.erased c hc
        · rw [if_pos rfl] at hc
          exact ⟨v, (Option.some.inj hc).symm, hv⟩
  | unlink p =>
      simp only [Pages.FileOp.perform]
      split
      · refine ⟨fun i hi => ?_, fun c hc => ?_⟩
        · obtain ⟨hpage, hmarker⟩ := hne i hi p he
          rw [content_unlink, content_unlink, if_neg hpage, if_neg hmarker]
          exact h.others i hi
        · rw [content_unlink] at hc
          split at hc
          · cases hc
          · exact h.erased c hc
      · exact h
  | enqueue i g => exact h.congr fun p => content_enqueue
  | deleteQurl r =>
      simp only [Pages.FileOp.perform]
      split
      · exact h.congr fun p => rfl
      · exact h
      · exact h
  | complete resource qurl => exact h.congr fun p => rfl
  | retry r retryAfter => exact h.congr fun p => rfl
  | _ => exact h

/-! ### What a deletion asks for -/

omit [Python] in
theorem returns_enqueueAll (gs : List Grant) :
    Prog.Returns (Strips id) (Pages.enqueueAll id gs) fun _ => True := by
  induction gs with
  | nil => exact Prog.returns_pure trivial
  | cons g gs ih => exact Prog.returns_bind (returns_ask trivial) fun _ _ => ih

theorem returns_eraseGrants : Prog.Returns (Strips id) (Pages.eraseGrants id) fun _ => True := by
  refine Prog.returns_bind (returns_ask trivial) fun present _ => ?_
  split
  · refine Prog.returns_bind (returns_ask trivial) fun content _ => ?_
    split
    · exact Prog.returns_throw
    · exact Prog.returns_throw
    · refine Prog.returns_bind (Prog.returns_lift fun _ _ => trivial) fun page _ => ?_
      exact returns_write strips_of_reads (.inr ⟨rfl, rfl⟩)
  · exact Prog.returns_pure trivial

theorem returns_recover :
    Prog.Returns (Strips id) (Pages.recoverRevocationUnlocked id) fun _ => True := by
  refine Prog.returns_bind returns_checkId fun _ _ => ?_
  refine Prog.returns_bind (returns_ask trivial) fun present _ => ?_
  split
  · refine Prog.returns_bind (returns_ask trivial) fun content _ => ?_
    split
    · exact Prog.returns_throw
    · refine Prog.returns_bind (returns_enqueueAll _) fun _ _ => ?_
      refine Prog.returns_bind returns_eraseGrants fun _ _ => ?_
      exact Prog.returns_bind (returns_ask (.inl rfl)) fun _ _ => returns_ask trivial
  · exact Prog.returns_pure trivial

theorem returns_revokePage :
    Prog.Returns (Strips id) (Pages.revokePageAccessGrants id) fun _ => True := by
  refine Prog.returns_bind returns_recover fun _ _ => ?_
  refine Prog.returns_bind (returns_load strips_of_reads) fun page _ => ?_
  dsimp only
  split
  · exact Prog.returns_pure trivial
  · refine Prog.returns_bind (returns_write strips_of_reads (.inl rfl)) fun _ _ => ?_
    exact Prog.returns_bind returns_recover fun _ _ => Prog.returns_pure trivial

theorem returns_delete : Prog.Returns (Strips id) (Pages.delete id) fun _ => True := by
  refine Prog.returns_bind returns_checkId fun _ _ => ?_
  refine Prog.returns_bind (returns_requireFile strips_of_reads) fun _ _ => ?_
  refine Prog.returns_bind returns_revokePage fun _ _ => ?_
  exact Prog.returns_bind (returns_ask (.inr rfl)) fun _ _ => returns_ask trivial

/-! ## Creating a page -/

variable {cfg : Config} {w : World} {a : Answers} {payload : Json}

/-- A page that is published, or taken back: what is true of the disk it was
stored on and kept by taking it back is true throughout. -/
theorem handles_publishOr {J : World → Prop} {page : Page} {rollback : AdminM Unit}
    (hJ : ∀ w', w'.disk = w.disk → J w')
    (hrollback : ∀ w', w'.disk = w.disk → Handles Any J rollback (fun _ _ => True) w') :
    Handles Any J (publishOr cfg page rollback) (fun _ _ => True) w := by
  unfold publishOr
  refine handles_seq (P := fun _ w' => w'.disk = w.disk)
    (handles_remote (returns_attempt (returns_publish (fun _ he => he) cfg page)) hJ)
    (fun _ _ _ _ => trivial) fun r w' hw' hdisk => ?_
  split
  · exact handles_pure hw' trivial
  · refine handles_seq (hrollback w' hdisk) (fun _ _ _ _ => trivial) fun _ w'' hw'' _ => ?_
    exact handles_throw hw'' trivial
  · exact handles_throw hw' trivial

theorem handles_delete {d₀ : Disk} (h : Adds d₀ id w.disk) :
    Handles Any (fun w' => Adds d₀ id w'.disk) (store (Pages.delete id)) (fun _ _ => True) w :=
  handles_store_any (keeps_of_returns returns_delete h fun _ _ _ he h => adds_perform he h)

/-- A creation leaves the disk as it is until the page is written. -/
theorem keeps_createPage (hraw : ∀ page, validatePage payload none = .ok page →
      d.content (.page page.id) = none → rawGrants payload = []) :
    Keeps False (fun d' => (Request.create a payload).Leaves d d') (Pages.create payload)
      (OnOk fun page d' => d.content (.page page.id) = none ∧ Adds d page.id d') d := by
  have hleaves : (Request.create a payload).Leaves d d := fun _ => .inl rfl
  refine keeps_lift hleaves (fun _ => trivial) fun page hpage =>
    keeps_isFile hleaves ?_
  split
  · exact keeps_throw hleaves trivial
  · rename_i hfree
    have habsent : d.content (.page page.id) = none := by simpa using hfree
    have hnone : rawGrants page.toJson = [] := by
      have hmatch := (validatePage_eq_ok hpage).2.1
      rw [hraw page hpage habsent] at hmatch
      have hgrants : page.accessGrants = [] := List.eq_nil_iff_forall_not_mem.mpr fun g hg => by
        obtain ⟨r, hr, -⟩ := hmatch g hg
        cases hr
      rw [Pages.rawGrants_toJson, hgrants]
      rfl
    have hadds := @adds_write d page.id _ hnone
    refine keeps_seq (keeps_write hleaves (hadds.leaves habsent)) fun _ d' hd' hwritten => ?_
    exact keeps_pure hd' ⟨habsent, hwritten ▸ hadds⟩

theorem handles_createPage (h : (Request.create a payload).Harmless cfg w.disk) :
    Handles Any (fun w' => (Request.create a payload).Leaves w.disk w'.disk)
      (createPage cfg a payload) (fun _ _ => True) w := by
  have hsame : ∀ w' : World, w'.disk = w.disk →
      (Request.create a payload).Leaves w.disk w'.disk := by
    intro w' hdisk
    rw [hdisk]
    exact fun _ => .inl rfl
  have haccept : Handles Any (fun w' => (Request.create a payload).Leaves w.disk w'.disk)
      (acceptPage cfg a payload) (fun r w' => ∀ page, r = .ok page →
        w.disk.content (.page page.id) = none ∧ Adds w.disk page.id w'.disk) w := by
    refine handles_bind (handles_ret (hsame w rfl) ?_)
    split
    · rename_i hcheck
      refine handles_seq (handles_remote (returns_prepare (fun _ he => he) cfg _) hsame)
        (fun _ _ _ _ => nofun) fun _ w' _ hdisk => handles_store_any ?_
      show Keeps False (fun d' => (Request.create a payload).Leaves w.disk d') _ _ w'.disk
      rw [hdisk]
      refine keeps_mono (keeps_createPage fun page hpage => h page hpage hcheck) ?_
      rintro (e | page) d' - hr
      · exact nofun
      · rintro _ ⟨⟩
        exact hr
    · exact nofun
  refine handles_seq haccept (fun _ _ _ _ => trivial) fun page w' _ hpage => ?_
  obtain ⟨habsent, hadds⟩ := hpage page rfl
  refine handles_seq (P := fun _ _ => True) (handles_imp (J := fun w'' => Adds w.disk page.id w''.disk)
    ?_ fun w'' hw'' => hw''.leaves habsent) (fun _ _ _ _ => trivial)
    fun _ w'' hw'' _ => handles_pure hw'' trivial
  refine handles_publishOr (fun w'' hdisk => hdisk ▸ hadds) fun w'' hdisk => ?_
  exact handles_delete (hdisk ▸ hadds)

/-! ## Editing a page -/

/-- A page is written with the grants it shows, validated once more. -/
theorem keeps_rewriteGrants {d₀ : Disk} {page : Page} {gs : List Grant} (hsame : SameGrants d₀ d)
    (hgs : grantsOf d₀ id = some gs) (hpage : page.Checked) (hid : page.id = id)
    (hgrants : (∀ g ∈ gs, g.Named) ∧ page.accessGrants = gs.map Grant.reread)
    (hself : (∀ g ∈ gs, g.Named) → ∀ g ∈ gs, g.reread = g) :
    SameGrants d₀ (d.write (.page id) page.toJson) := by
  obtain ⟨hnamed, hgrants⟩ := hgrants
  have hkept : page.accessGrants = gs := by
    rw [hgrants]
    exact (List.map_congr_left (hself hnamed)).trans (List.map_id _)
  have hshown : grantsOf d id = some page.accessGrants := by rw [hsame id, hgs, hkept]
  have hwrite := grantsOf_write hpage hid hshown (by
    rw [hkept]
    exact fun g hg => ⟨hnamed g hg, hself hnamed g hg⟩)
  exact fun i => (hwrite i).trans (hsame i)

variable {d₀ : Disk}

theorem keeps_updateGrants (hsame : SameGrants d₀ d)
    (h : ∀ gs, grantsOf d₀ id = some gs → (∀ g ∈ gs, g.Named) → ∀ g ∈ gs, g.reread = g) :
    Keeps False (SameGrants d₀) (Pages.update id payload) (OnOk fun _ _ => True) d := by
  refine keeps_checkId hsame (fun _ => trivial) (keeps_requireFile hsame (fun _ => trivial)
    fun _ => keeps_load_bind hsame (fun _ => trivial) fun current hcurrent => ?_)
  refine keeps_lift hsame (fun _ => trivial) fun page hpage => ?_
  have hshown : grantsOf d₀ id = some current.accessGrants :=
    (hsame id).symm.trans (grantsOf_of_visible hcurrent)
  have hwrite := keeps_rewriteGrants hsame hshown (validatePage_checked hpage)
    ((validatePage_eq_ok hpage).1 id rfl) (update_grants (visible_checked hcurrent) hpage)
    (h _ hshown)
  exact keeps_seq (keeps_write hsame hwrite) fun _ _ hd' _ => keeps_pure hd' trivial

theorem visible_id {page : Page} (h : visible d id = some page) : page.id = id := by
  unfold visible at h
  rw [Option.map_eq_some_iff] at h
  obtain ⟨full, hfull, rfl⟩ := h
  obtain ⟨v, -, hv⟩ := onFile_eq_some.mp hfull
  have hid := (validatePage_eq_ok hv).1 id rfl
  split
  · exact hid
  · exact hid

/-- Writing back a page that was loaded. -/
theorem keeps_restoreGrants {previous : Page} (hsame : SameGrants d₀ d)
    (hprevious : visible d₀ id = some previous)
    (h : ∀ gs, grantsOf d₀ id = some gs → (∀ g ∈ gs, g.Named) → ∀ g ∈ gs, g.reread = g) :
    Keeps False (SameGrants d₀) (Pages.replaceUnlocked id previous.toJson)
      (OnOk fun _ _ => True) d := by
  refine keeps_checkId hsame (fun _ => trivial) (keeps_requireFile hsame (fun _ => trivial)
    fun _ => keeps_lift hsame (fun _ => trivial) fun page hpage => ?_)
  have hshown := grantsOf_of_visible hprevious
  have hid : ∀ r ∈ some id, previous.id = r := by
    rintro r ⟨⟩
    exact visible_id hprevious
  obtain ⟨hnamed, hreread⟩ := (validatePage_toJson (visible_checked hprevious) hid).mp hpage
  have hwrite := keeps_rewriteGrants hsame hshown (validatePage_checked hpage)
    ((validatePage_eq_ok hpage).1 id rfl) ⟨hnamed, congrArg Page.accessGrants hreread⟩ (h _ hshown)
  exact keeps_seq (keeps_write hsame hwrite) fun _ _ hd' _ => keeps_pure hd' trivial

/-- An edit is accepted with the page as it was, and stored with its grants. -/
theorem handles_acceptEdit (h : (Request.edit a id payload).Harmless cfg w.disk) :
    Handles Any (fun w' => SameGrants w.disk w'.disk) (acceptEdit cfg a id payload)
      (fun r _ => ∀ p, r = .ok p → visible w.disk id = some p.1) w := by
  have hsame : ∀ w' : World, w'.disk = w.disk → SameGrants w.disk w'.disk := by
    intro w' hdisk
    rw [hdisk]
    exact fun _ => rfl
  have hload : Handles Any (fun w' => SameGrants w.disk w'.disk) (store (Pages.loadUnlocked id))
      (fun r w' => w'.disk = w.disk ∧ ∀ page, r = .ok page → visible w.disk id = some page) w := by
    refine handles_store_any (keeps_mono (keeps_load (hsame w rfl)) ?_)
    rintro r d' - ⟨rfl, hr⟩
    exact ⟨rfl, fun page hpage => hr page (mapError_eq_ok hpage)⟩
  refine handles_bind (handles_ret (hsame w rfl) ?_)
  cases validateEntityPolicy cfg.client a payload with
  | error e => exact nofun
  | ok u =>
      refine handles_seq hload (fun _ _ _ _ => nofun) fun previous w' hw' hprevious => ?_
      obtain ⟨hdisk, hprevious⟩ := hprevious
      have hprepare : Handles Any (fun w' => SameGrants w.disk w'.disk) (prepare cfg id)
          (fun _ w'' => w''.disk = w'.disk) w' :=
        handles_remote (returns_prepare (fun _ he => he) cfg id) fun w'' hw'' =>
          hsame w'' (hw''.trans hdisk)
      refine handles_seq hprepare (fun _ _ _ _ => nofun) fun _ w'' hw'' _ => ?_
      have hupdate : Handles Any (fun w' => SameGrants w.disk w'.disk)
          (store (Pages.update id payload)) (fun _ _ => True) w'' :=
        handles_store_any (keeps_mono (keeps_updateGrants hw'' h) fun _ _ _ _ => trivial)
      refine handles_seq hupdate (fun _ _ _ _ => nofun) fun page w₃ hw₃ _ => handles_pure hw₃ ?_
      intro p hp
      rw [← Except.ok.inj hp]
      exact hprevious previous rfl

theorem handles_editPage (h : (Request.edit a id payload).Harmless cfg w.disk) :
    Handles Any (fun w' => SameGrants w.disk w'.disk) (editPage cfg a id payload) (fun _ _ => True)
      w := by
  refine handles_seq (handles_acceptEdit h) (fun _ _ _ _ => trivial) fun p w' hw' hp => ?_
  have hprevious := hp p rfl
  have hrestore : ∀ w'' : World, w''.disk = w'.disk → Handles Any
      (fun w₃ => SameGrants w.disk w₃.disk) (store (Pages.replaceUnlocked id p.1.toJson))
      (fun _ _ => True) w'' := by
    intro w'' hdisk
    refine handles_store_any (keeps_mono
      (keeps_restoreGrants ?_ hprevious h) fun _ _ _ _ => trivial)
    rw [hdisk]
    exact hw'
  have hpublish : Handles Any (fun w₃ => SameGrants w.disk w₃.disk) (publishOr cfg p.2 (do
      let _ ← store (Pages.replaceUnlocked id p.1.toJson))) (fun _ _ => True) w' := by
    refine handles_publishOr (fun w'' hdisk => ?_) fun w'' hdisk => ?_
    · rw [hdisk]
      exact hw'
    · exact handles_seq (hrestore w'' hdisk) (fun _ _ _ _ => trivial) fun _ w₃ hw₃ _ =>
        handles_pure hw₃ trivial
  exact handles_seq hpublish (fun _ _ _ _ => trivial) fun _ w'' hw'' _ => handles_pure hw'' trivial

/-! ## Runs -/

/-- One request, wherever it may stop. -/
theorem request_leaves {r : Request × List Tick} (h : r.1.Harmless cfg w.disk)
    (hsight : Sighted r.2) : r.1.Leaves w.disk ((gateway cfg).request w r).disk := by
  obtain ⟨r, ts⟩ := r
  cases r with
  | create a payload =>
      exact Server.request_kept (S := gateway cfg) (fun _ _ h => h) (handles_createPage h).holds
        hsight
  | edit a id payload =>
      exact Server.request_kept (S := gateway cfg) (fun _ _ h => h) (handles_editPage h).holds
        hsight

/-- **Edits introduce no authority**, in every run of creations and edits whose
payloads are harmless: whether a request succeeds, is rejected or rolled
back, or is the last one of its process. No test for a file is blind: a
creation would write over the page it does not see. -/
theorem edits_introduce_no_authority (cfg : Config) (w : World) (rs : List (Request × List Tick))
    (hsight : ∀ r ∈ rs, Sighted r.2) (h : EachHarmless cfg w rs) : EachLeaves cfg w rs := by
  induction rs generalizing w with
  | nil => trivial
  | cons r rs ih =>
      obtain ⟨hr, hrs⟩ := List.forall_mem_cons.mp hsight
      exact ⟨request_leaves h.1 hr, ih _ hrs h.2⟩

/-! ## A payload with a grant -/

/-- A gateway with a policy store, which is always reached. -/
def doorConfig : Config := ⟨⟨Filters.unfiltered, none⟩, true⟩

/-- Home Assistant is not asked. -/
def noAnswers : Answers where
  states := .error ⟨"Home Assistant is unavailable", none⟩
  areas := .error ⟨"Home Assistant is unavailable", none⟩
  names := .error ⟨"Home Assistant is unavailable", none⟩
  services := .error ⟨"Home Assistant is unavailable", none⟩

/-- Nothing fails. -/
def calmTick : Tick := ⟨⟨false, false, 0, .success⟩, false, false⟩

/-- The page of the door is created with a grant in the payload. -/
def doorCreation : Request × List Tick :=
  (.create noAnswers (Pages.doorPayload "7d"), List.replicate 20 calmTick)

/-- The world it leaves. -/
def doorCreated : World :=
  letI := Python.plain
  (gateway doorConfig).request .empty doorCreation

omit [Python] in
/-- The page is stored with that grant. -/
theorem creation_introduces_authority :
    letI := Python.plain
    grantsOf World.empty.disk "door" = none ∧ ¬ EachLeaves doorConfig .empty [doorCreation] := by
  let _ := Python.plain
  have hbefore : grantsOf World.empty.disk "door" = none := rfl
  have hafter : grantsOf doorCreated.disk "door" = some [Pages.doorGrant] := by decide +kernel
  refine ⟨hbefore, fun h => ?_⟩
  have hleaves : doorCreation.1.Leaves World.empty.disk doorCreated.disk := h.1
  have hdoor := leaves_create.mp hleaves "door"
  rw [hbefore, hafter] at hdoor
  simp at hdoor

/-- A hall is created without grants. -/
def hallCreation : Request × List Tick :=
  (.create noAnswers (.obj [("id", .str "hall"), ("title", .str "Hall")]),
    List.replicate 20 calmTick)

/-- The door is edited by a payload with a grant of its own. Its policy is stored,
the reply is lost, and the edit is taken back. -/
def doorEdition : Request × List Tick :=
  (.edit noAnswers "door" (Pages.doorPayload "30d"), List.replicate 14 calmTick ++
    { calmTick with fault := true, applied := true } :: List.replicate 20 calmTick)

/-- The hall is there beside the door. -/
def hallCreated : World :=
  letI := Python.plain
  (gateway doorConfig).request { World.empty with disk := Pages.doorOpen } hallCreation

omit [Python] in
theorem edits_introduce_no_authority_hall :
    letI := Python.plain
    EachHarmless doorConfig { World.empty with disk := Pages.doorOpen } [hallCreation, doorEdition] ∧
      EachLeaves doorConfig { World.empty with disk := Pages.doorOpen }
        [hallCreation, doorEdition] := by
  let _ := Python.plain
  have hdoor : grantsOf hallCreated.disk "door" = some [Pages.doorGrant] := by decide +kernel
  have hhall : hallCreation.1.Harmless doorConfig Pages.doorOpen := fun _ _ _ _ => rfl
  have hedit : doorEdition.1.Harmless doorConfig hallCreated.disk := by
    refine harmless_edit.mpr ?_
    rw [hdoor]
    rintro gs ⟨⟩ - g hg
    rw [List.mem_singleton.mp hg]
    decide +kernel
  have hharmless : EachHarmless doorConfig { World.empty with disk := Pages.doorOpen }
      [hallCreation, doorEdition] := ⟨hhall, hedit, trivial⟩
  exact ⟨hharmless, @edits_introduce_no_authority Python.plain _ _ _ (by decide) hharmless⟩

end Requests

end Admin

end AccessPages
