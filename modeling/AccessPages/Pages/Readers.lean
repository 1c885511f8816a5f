import AccessPages.Common.Server
import AccessPages.Pages.Cleanup
/-!
# Pages — a reader in another process

The store's lock is of one process, and the broker reads the same
directory. A load there is three file operations, which the operations of
a revocation may fall between. The reader looks at the page file before
it looks for the marker; a revocation that rewrites the page file and
takes its marker away in between is missed. That is the only way a
revoked grant is read.
-/

namespace AccessPages

namespace Pages

/-! ## The writer -/

/-- The disk, and the operations the writer is done with, latest first. -/
structure Progress where
  disk : Disk
  done : List FileOp

/-- One operation of the writer. -/
def FileOp.record (t : Tick) (e : FileOp) (w : Progress) : e.Ans × Progress :=
  if e.fails t then (e.failed, w)
  else
    ((e.perform t w.disk).1, ⟨(e.perform t w.disk).2,
      match (e.perform t w.disk).1 with
      | .ok _ => e :: w.done
      | .error _ => w.done⟩)

section Writer

variable {α β : Type} {I : Progress → Prop} {w : Progress}

/-- **The rule the writer is checked by**: `I` holds wherever it is, and `Q`
of what it returns. No test for a file is blind. -/
structure Makes (I : Progress → Prop) (m : FileM α) (Q : α → Progress → Prop) (w : Progress) :
    Prop where
  holds : Prog.Holds (fun t : { t : Tick // t.blind = false } => FileOp.record t.1) I
    (fun _ => True) m.run (fun r w' => ∀ a, r = .ok a → Q a w') w

theorem makes_pure {a : α} {Q : α → Progress → Prop} (hI : I w) (hQ : Q a w) :
    Makes I (pure a) Q w := ⟨hI, fun b hb => by cases hb; exact hQ⟩

theorem makes_throw {e : PageError} {Q : α → Progress → Prop} (hI : I w) :
    Makes I (throw e) Q w := ⟨hI, nofun⟩

theorem makes_mono {m : FileM α} {Q Q' : α → Progress → Prop} (h : Makes I m Q w)
    (hQ : ∀ a w', I w' → Q a w' → Q' a w') : Makes I m Q' w :=
  ⟨Prog.holds_mono h.holds fun _ w' hI hr a ha => hQ a w' hI (hr a ha)⟩

theorem makes_bind {m : FileM α} {f : α → FileM β} {P : α → Progress → Prop}
    {Q : β → Progress → Prop} (h : Makes I m P w)
    (hf : ∀ a w', I w' → P a w' → Makes I (f a) Q w') : Makes I (m >>= f) Q w := by
  refine ⟨Prog.holds_except_bind (Prog.holds_mono h.holds fun r w' hI hr => ?_)⟩
  cases r with
  | ok a => exact (hf a w' hI (hr a rfl)).holds
  | error e => exact nofun

theorem makes_lift {x : Except PageError α} {Q : α → Progress → Prop} (hI : I w)
    (hQ : ∀ a, x = .ok a → Q a w) : Makes I (liftM x : FileM α) Q w :=
  ⟨Prog.holds_except_lift.mpr ⟨hI, hQ⟩⟩

/-- One operation: it fails and nothing is done, or it is done. -/
theorem makes_ask {e : FileOp} {Q : e.Res → Progress → Prop} (hI : I w)
    (hfail : ∀ t : Tick, t.blind = false → e.fails t = true → ∀ a, e.failed = .ok a → Q a w)
    (hraise : ∀ t x, (e.perform t w.disk).1 = .error x → I ⟨(e.perform t w.disk).2, w.done⟩)
    (hok : ∀ t a, (e.perform t w.disk).1 = .ok a →
      I ⟨(e.perform t w.disk).2, e :: w.done⟩ ∧ Q a ⟨(e.perform t w.disk).2, e :: w.done⟩) :
    Makes I (ask e) Q w := by
  refine ⟨hI, fun t => ⟨trivial, ?_⟩⟩
  show I (FileOp.record t.1 e w).2 ∧
    ∀ a, (FileOp.record t.1 e w).1 = .ok a → Q a (FileOp.record t.1 e w).2
  unfold FileOp.record
  split
  · rename_i hfails
    exact ⟨hI, hfail t.1 t.2 hfails⟩
  · have hok := hok t.1
    have hraise := hraise t.1
    revert hok hraise
    cases (e.perform t.1 w.disk).1 with
    | ok a =>
        intro hok _
        exact ⟨(hok a rfl).1, fun b hb => by cases hb; exact (hok a rfl).2⟩
    | error x =>
        intro _ hraise
        exact ⟨hraise x rfl, nofun⟩

end Writer

/-! ## What each part of the writer keeps -/

/-- An operation that changes no file. -/
def FileOp.Plain : FileOp → Prop
  | isFile _ => True
  | read _ => True
  | ensureDirectory => True
  | sync => True
  | enqueue .. => True
  | _ => False

/-- The same files. -/
def SameFiles (d d' : Disk) : Prop := ∀ p, d'.content p = d.content p

/-- Operations that change no file keep `I`. -/
def Lasting (I : Progress → Prop) : Prop :=
  ∀ (w : Progress) (e : FileOp) (d' : Disk), e.Plain → SameFiles w.disk d' → I w →
    I ⟨d', e :: w.done⟩

section Parts

variable {I : Progress → Prop} {w : Progress} (hI : Lasting I)
include hI

theorem makes_isFile {p : Path} (hw : I w) :
    Makes I (isFile p) (fun b w' => b = (w.disk.content p).isSome ∧ SameFiles w.disk w'.disk) w :=
  makes_ask hw (fun _ hsight hfails => absurd (hfails.symm.trans hsight) nofun)
    (fun _ _ h => nomatch h)
    fun _ _ ha => ⟨hI w _ _ trivial (fun _ => rfl) hw, (Except.ok.inj ha).symm, fun _ => rfl⟩

theorem makes_read {p : Path} (hw : I w) :
    Makes I (ask (.read p)) (fun c w' => ((∃ text, c = .error (.os text)) ∨
      w.disk.content p = some c) ∧ SameFiles w.disk w'.disk) w := by
  refine makes_ask hw (fun _ _ _ a ha => ?_) (fun _ _ h => nomatch h) fun _ a ha => ?_
  · cases ha
    exact ⟨.inl ⟨_, rfl⟩, fun _ => rfl⟩
  · refine ⟨hI w _ _ trivial (fun _ => rfl) hw, ?_, fun _ => rfl⟩
    have ha : (w.disk.content p).getD (.error (.os "")) = a := Except.ok.inj ha
    cases hc : w.disk.content p with
    | none => exact .inl ⟨_, by rw [← ha, hc]; rfl⟩
    | some c => exact .inr (by rw [← ha, hc]; rfl)

theorem makes_unit {e : FileOp} (he : e = .ensureDirectory ∨ e = .sync ∨ ∃ id g, e = .enqueue id g)
    (hw : I w) : Makes I (ask e) (fun _ w' => SameFiles w.disk w'.disk) w := by
  rcases he with rfl | rfl | ⟨id, g, rfl⟩
  · exact makes_ask hw (fun _ _ _ => nofun) (fun _ _ h => nomatch h) fun _ _ _ =>
      ⟨hI w _ _ trivial (fun _ => rfl) hw, fun _ => rfl⟩
  · exact makes_ask hw (fun _ _ _ => nofun) (fun _ _ h => nomatch h) fun _ _ _ =>
      ⟨hI w _ _ trivial (fun _ => rfl) hw, fun _ => rfl⟩
  · exact makes_ask hw (fun _ _ _ => nofun) (fun _ _ h => nomatch h) fun _ _ _ =>
      ⟨hI w _ _ trivial (fun _ => content_enqueue) hw, fun _ => content_enqueue⟩

theorem makes_enqueueAll {id : String} {gs : List Grant} (hw : I w) :
    Makes I (enqueueAll id gs) (fun _ w' => SameFiles w.disk w'.disk) w := by
  induction gs generalizing w with
  | nil => exact makes_pure hw fun _ => rfl
  | cons g gs ih =>
      refine makes_bind (makes_unit hI (.inr (.inr ⟨id, g, rfl⟩)) hw) fun _ w' hw' hs => ?_
      exact makes_mono (ih hw') fun _ w'' _ hs' p => (hs' p).trans (hs p)

theorem makes_write {p : Path} {v : Json} (hw : I w)
    (hstep : ∀ w', SameFiles w.disk w'.disk → I w' →
      I ⟨w'.disk.write p v, .write p v :: w'.done⟩) :
    Makes I (write p v) (fun _ w' => ∀ q, w'.disk.content q = (w.disk.write p v).content q) w := by
  refine makes_bind (makes_unit hI (.inl rfl) hw) fun _ w₁ hw₁ hs₁ => ?_
  have hwrite : Makes I (ask (.write p v))
      (fun _ w' => ∀ q, w'.disk.content q = (w.disk.write p v).content q) w₁ := by
    refine makes_ask hw₁ (fun _ _ _ => nofun) (fun _ _ h => nomatch h) fun _ _ _ => ⟨hstep w₁ hs₁ hw₁, fun q => ?_⟩
    show (w₁.disk.write p v).content q = _
    rw [content_write, content_write, hs₁ q]
  refine makes_bind hwrite fun _ w₂ hw₂ hs₂ => ?_
  exact makes_mono (makes_unit hI (.inr (.inl rfl)) hw₂) fun _ w₃ _ hs₃ q => (hs₃ q).trans (hs₂ q)

end Parts

variable [Python]

/-! ## The revocation and what it has done -/

/-- `revoke_page_access_grants`, as far as the ticks last. -/
def revoking (id : String) (d : Disk) (ts : List Tick) : Progress :=
  ((revokePageAccessGrants id).run.meet FileOp.record ts ⟨d, []⟩).2

/-- The marker became durable: it was written and the directory synced. -/
def Progress.Durable (w : Progress) (id : String) (grants : List Grant) : Prop :=
  ∃ post pre, w.done = post ++ .sync :: .write (.marker id) (markerJson grants) :: pre

/-- The page was rewritten. -/
def Progress.Rewritten (w : Progress) (id : String) : Prop := ∃ v, .write (.page id) v ∈ w.done

/-- The marker was taken away. -/
def Progress.Unlinked (w : Progress) (id : String) : Prop := .unlink (.marker id) ∈ w.done

/-! ## The reader -/

/-- What an operation of the reader sees. -/
def FileOp.answer (e : FileOp) (d : Disk) : e.Ans := (e.perform ⟨false, false, 0, .success⟩ d).1

/-- `load` in another process: it tests for the page file, reads it and
tests for the marker, each on the disk there is at the time. -/
def loadAcross (id : String) (d₁ d₂ d₃ : Disk) : Prog FileOp FileOp.Ans (Except PageError Page) :=
  ((loadUnlocked id).run.exec FileOp.answer [d₁, d₂, d₃] []).2

variable {id : String}

/-- The last of the three operations. -/
def testMarker (id : String) (page : Page) : Prog FileOp FileOp.Ans (Except PageError Page) :=
  .op (.isFile (.marker id)) fun
    | .ok true => .ret (.ok { page with accessGrants := [] })
    | .ok false => .ret (.ok page)
    | .error e => .ret (.error e)

/-- What is made of the page file. -/
def readPage (id : String) : Content → Prog FileOp FileOp.Ans (Except PageError Page)
  | .error (.os text) => .ret (.error (.config ("Could not read page configuration: " ++ text)))
  | .error (.jsonDecode text) =>
      .ret (.error (.config ("Could not read page configuration: " ++ text)))
  | .error .value => .ret (.error (.python .valueError))
  | .ok payload =>
      match validatePage payload (some id) with
      | .error e => .ret (.error e)
      | .ok page => testMarker id page

theorem loadUnlocked_eq (id : String) :
    (loadUnlocked id).run =
      match validatePageId (.str id) with
      | .error e => .ret (.error e)
      | .ok _ => .op (.isFile (.page id)) fun
          | .error e => .ret (.error e)
          | .ok false => .ret (.error (.notFound id))
          | .ok true => .op (.read (.page id)) fun
              | .error e => .ret (.error e)
              | .ok c => readPage id c := by
  unfold loadUnlocked
  cases hid : validatePageId (.str id) with
  | error e =>
      simp only [checkId, hid]
      rfl
  | ok a =>
      simp only [checkId, hid]
      show Prog.op _ _ = _
      congr 1
      funext r
      rcases r with e | b
      · rfl
      · cases b with
        | false => rfl
        | true =>
            show Prog.op _ _ = _
            congr 1
            funext r
            rcases r with e | c
            · rfl
            · rcases c with e | payload
              · cases e <;> rfl
              · show ExceptT.run ((liftM (validatePage payload (some id)) : FileM Page) >>= _) = _
                simp only [readPage]
                cases hv : validatePage payload (some id) with
                | error e => rfl
                | ok page =>
                    show Prog.op _ _ = Prog.op _ _
                    congr 1
                    funext r
                    rcases r with e | b
                    · rfl
                    · cases b <;> rfl

/-- What a load returns: the page file as it was read, masked if the marker
was there when it was tested. -/
theorem loadAcross_ok {d₁ d₂ d₃ : Disk} {page : Page}
    (h : loadAcross id d₁ d₂ d₃ = .ret (.ok page)) :
    ∃ full, onFile d₂ id = some full ∧
      page = if marked d₃ id then { full with accessGrants := [] } else full := by
  unfold loadAcross at h
  rw [loadUnlocked_eq] at h
  split at h
  · cases h
  · rw [Prog.exec] at h
    rw [show FileOp.answer (.isFile (.page id)) d₁ = .ok (d₁.content (.page id)).isSome from rfl] at h
    cases hfile : (d₁.content (.page id)).isSome with
    | false => rw [hfile] at h; cases h
    | true =>
        rw [hfile] at h
        change (Prog.exec FileOp.answer (readPage id ((d₂.content (.page id)).getD _)) [d₃] _).2 = _
          at h
        cases hc : d₂.content (.page id) with
        | none => rw [hc] at h; cases h
        | some c =>
            rw [hc, Option.getD_some] at h
            rcases c with e | payload
            · cases e <;> cases h
            · simp only [readPage] at h
              cases hv : validatePage payload (some id) with
              | error e => rw [hv] at h; cases h
              | ok full =>
                  rw [hv] at h
                  refine ⟨full, onFile_eq_some.mpr ⟨payload, hc, hv⟩, ?_⟩
                  change (Prog.exec FileOp.answer (testMarker id full) [d₃] _).2 = _ at h
                  rw [testMarker, Prog.exec, show FileOp.answer (.isFile (.marker id)) d₃ =
                    .ok (marked d₃ id) from rfl] at h
                  cases hm : marked d₃ id with
                  | false => rw [hm] at h; cases h; rfl
                  | true => rw [hm] at h; cases h; rfl

theorem loadAcross_of_onFile {d₁ d₂ d₃ : Disk} {full : Page}
    (hfile : (d₁.content (.page id)).isSome = true) (h : onFile d₂ id = some full) :
    loadAcross id d₁ d₂ d₃ =
      .ret (.ok (if marked d₃ id then { full with accessGrants := [] } else full)) := by
  obtain ⟨payload, hc, hv⟩ := onFile_eq_some.mp h
  have hid : pageIdRe id = true := by
    rw [← (validatePage_eq_ok hv).1 id rfl]
    exact full.id_re
  have ha := validatePageId_of_re hid
  unfold loadAcross
  rw [loadUnlocked_eq, ha]
  simp only
  rw [Prog.exec, show FileOp.answer (.isFile (.page id)) d₁ = .ok (d₁.content (.page id)).isSome
    from rfl, hfile]
  show (Prog.exec FileOp.answer (readPage id ((d₂.content (.page id)).getD _)) [d₃] _).2 = _
  rw [hc, Option.getD_some, readPage, hv]
  show (Prog.exec FileOp.answer (testMarker id full) [d₃] _).2 = _
  rw [testMarker, Prog.exec, show FileOp.answer (.isFile (.marker id)) d₃ =
    .ok (marked d₃ id) from rfl]
  cases marked d₃ id <;> rfl

/-! ## What the writer has done -/

/-- Where a revocation is, when its marker was written: what the page file
and the marker hold by what it has done since. -/
structure Progress.Sound (w : Progress) (id : String) (v : Json) : Prop where
  marker : ¬ w.Unlinked id → w.disk.content (.marker id) = some (.ok v)
  page : ¬ w.Rewritten id → ∃ full, onFile w.disk id = some full ∧
    markerJson full.accessGrants = v ∧ full.accessGrants ≠ []
  there : (w.disk.content (.page id)).isSome = true
  rewritten : w.Rewritten id → Erased w.disk id
  unlinked : w.Unlinked id → w.Rewritten id ∧ w.disk.content (.marker id) = none

theorem makes_checkId {I : Progress → Prop} {w : Progress} (hw : I w) :
    Makes I (checkId id) (fun _ w' => w' = w) w :=
  makes_bind (makes_lift hw (Q := fun _ w' => w' = w) fun _ _ => rfl) fun _ _ hw' he =>
    makes_pure hw' he

/-- `load` returns what the files show. -/
theorem makes_load {I : Progress → Prop} {w : Progress} (hI : Lasting I) (hw : I w) :
    Makes I (loadUnlocked id) (fun page w' => visible w.disk id = some page ∧
      SameFiles w.disk w'.disk) w := by
  refine makes_bind (makes_checkId hw) fun _ w₀ hw₀ h₀ => ?_
  subst h₀
  have hrequire : Makes I (requireFile id) (fun _ w' => SameFiles w₀.disk w'.disk) w₀ := by
    refine makes_bind (makes_isFile hI hw₀) fun b w' hw' h => ?_
    cases b with
    | true => exact makes_pure hw' h.2
    | false => exact makes_throw hw'
  refine makes_bind hrequire fun _ w₁ hw₁ hs₁ => ?_
  refine makes_bind (makes_read hI hw₁) fun c w₂ hw₂ ⟨hc, hs₂⟩ => ?_
  rcases c with e | payload
  · cases e <;> exact makes_throw hw₂
  · have hcontent : w₀.disk.content (.page id) = some (.ok payload) := by
      rcases hc with ⟨_, hc⟩ | hc
      · cases hc
      · rw [← hs₁]
        exact hc
    refine makes_bind (makes_lift hw₂ (Q := fun page w' => validatePage payload (some id) = .ok page
      ∧ w' = w₂) fun page hv => ⟨hv, rfl⟩) fun page w' hw' ⟨hv, he⟩ => ?_
    subst he
    refine makes_bind (makes_isFile hI hw') fun b w₃ hw₃ ⟨hb, hs₃⟩ => ?_
    have hmarked : b = marked w₀.disk id := by
      rw [hb, marked, hs₂, hs₁]
    have hvisible : visible w₀.disk id =
        some (if b then { page with accessGrants := [] } else page) := by
      rw [visible, onFile_eq_some.mpr ⟨payload, hcontent, hv⟩, hmarked]
      rfl
    have hsame : SameFiles w₀.disk w₃.disk := fun p => (hs₃ p).trans ((hs₂ p).trans (hs₁ p))
    cases b with
    | true => exact makes_pure hw₃ ⟨hvisible, hsame⟩
    | false => exact makes_pure hw₃ ⟨hvisible, hsame⟩

/-- Rewriting the page without grants, and taking the marker away from an
erased page, keep `I`. -/
structure Recovers (I : Progress → Prop) (id : String) : Prop where
  lasting : Lasting I
  erase : ∀ (w : Progress) (page : Page), I w →
    I ⟨w.disk.write (.page id) { page with accessGrants := [] }.toJson,
      .write (.page id) { page with accessGrants := [] }.toJson :: w.done⟩
  unmark : ∀ w : Progress, I w → Erased w.disk id →
    I ⟨w.disk.unlink (.marker id), .unlink (.marker id) :: w.done⟩

omit [Python] in
theorem erased_congr {d d' : Disk} (h : SameFiles d d') (he : Erased d id) : Erased d' id :=
  fun c hc => he c ((h _).symm.trans hc)

theorem makes_eraseGrants {I : Progress → Prop} {w : Progress} (hI : Recovers I id) (hw : I w) :
    Makes I (eraseGrants id) (fun _ w' => Erased w'.disk id) w := by
  refine makes_bind (makes_isFile hI.lasting hw) fun b w₁ hw₁ ⟨hb, hs₁⟩ => ?_
  cases b with
  | false =>
      refine makes_pure hw₁ fun c hc => ?_
      rw [hs₁] at hc
      rw [hc] at hb
      cases hb
  | true =>
      refine makes_bind (makes_read hI.lasting hw₁) fun c w₂ hw₂ ⟨_, _⟩ => ?_
      rcases c with e | payload
      · cases e <;> exact makes_throw hw₂
      · refine makes_bind (makes_lift hw₂ (Q := fun _ w' => w' = w₂) fun _ _ => rfl)
          fun page w' hw' he => ?_
        subst he
        refine makes_mono (makes_write hI.lasting hw' fun w'' _ hw'' => hI.erase w'' page hw'')
          fun _ w₃ _ hs₃ c hc => ?_
        rw [hs₃, content_write, if_pos rfl] at hc
        exact ⟨_, (Option.some.inj hc).symm, rawGrants_toJson _⟩

/-- **`_recover_revocation_unlocked`** erases the page before it takes the
marker away. -/
theorem makes_recover {I : Progress → Prop} {w : Progress} (hI : Recovers I id) (hw : I w) :
    Makes I (recoverRevocationUnlocked id) (fun _ _ => True) w := by
  refine makes_bind (makes_checkId hw) fun _ w₀ hw₀ _ => ?_
  refine makes_bind (makes_isFile hI.lasting hw₀) fun b w₁ hw₁ _ => ?_
  cases b with
  | false => exact makes_pure hw₁ trivial
  | true =>
      refine makes_bind (makes_read hI.lasting hw₁) fun c w₂ hw₂ _ => ?_
      cases markerGrants c with
      | error e => exact makes_throw hw₂
      | ok gs =>
          refine makes_bind (makes_enqueueAll hI.lasting hw₂) fun _ w₃ hw₃ _ => ?_
          refine makes_bind (makes_eraseGrants hI hw₃) fun _ w₄ hw₄ herased => ?_
          have hunlink : Makes I (ask (.unlink (.marker id))) (fun _ _ => True) w₄ := by
            refine makes_ask hw₄ (fun _ _ _ => nofun) (fun t x hx => ?_) fun t a ha => ?_
            · have hnone : (w₄.disk.content (.marker id)).isSome = false := by
                by_contra h
                simp only [Bool.not_eq_false] at h
                simp only [FileOp.perform, if_pos h] at hx
                cases hx
              simp only [FileOp.perform, hnone]
              exact hw₄
            · have hsome : (w₄.disk.content (.marker id)).isSome = true := by
                by_contra h
                simp only [FileOp.perform, if_neg h] at ha
                cases ha
              simp only [FileOp.perform, if_pos hsome]
              exact ⟨hI.unmark w₄ hw₄ herased, trivial⟩
          refine makes_bind hunlink fun _ w₅ hw₅ _ => ?_
          exact makes_mono (makes_unit hI.lasting (.inr (.inl rfl)) hw₅) fun _ _ _ _ => trivial

/-! ## The revocation -/

/-- Before the marker is written: an earlier revocation may have been
finished, and then the page has no grants. -/
structure Progress.Early (w : Progress) (id : String) : Prop where
  unmarked : ∀ v, .write (.marker id) v ∉ w.done
  rewritten : w.Rewritten id → Erased w.disk id
  unlinked : w.Unlinked id → Erased w.disk id

/-- **Where a revocation is.** -/
def Progress.Inv (id : String) (w : Progress) : Prop :=
  w.Early id ∨ ∃ v, (∀ v', .write (.marker id) v' ∈ w.done → v' = v) ∧ w.Sound id v

theorem grants_eq_nil_of_erased {d : Disk} {full : Page} (he : Erased d id)
    (h : onFile d id = some full) : full.accessGrants = [] := by
  obtain ⟨v, hc, hv⟩ := onFile_eq_some.mp h
  obtain ⟨v', hv', hnil⟩ := he _ hc
  cases hv'
  have hmatch := (validatePage_eq_ok hv).2.1
  rw [hnil] at hmatch
  refine List.eq_nil_iff_forall_not_mem.mpr fun g hg => ?_
  obtain ⟨r, hr, -⟩ := hmatch g hg
  exact absurd hr List.not_mem_nil

theorem onFile_congr {d d' : Disk} (h : d'.content (.page id) = d.content (.page id)) :
    onFile d' id = onFile d id := by
  rw [onFile, onFile, h]

omit [Python] in
theorem erased_write_page {d : Disk} {page : Page} :
    Erased (d.write (.page id) { page with accessGrants := [] }.toJson) id := by
  intro c hc
  rw [content_write, if_pos rfl] at hc
  exact ⟨_, (Option.some.inj hc).symm, rawGrants_toJson _⟩

omit [Python] in
theorem early_recovers : Recovers (fun w : Progress => w.Early id) id where
  lasting := by
    intro w e d' he hs h
    refine ⟨fun v hv => ?_, fun ⟨v, hv⟩ => ?_, fun hv => ?_⟩
    · rcases List.mem_cons.mp hv with rfl | hv
      · exact he
      · exact h.unmarked v hv
    · refine erased_congr hs (h.rewritten ?_)
      rcases List.mem_cons.mp hv with rfl | hv
      · exact he.elim
      · exact ⟨v, hv⟩
    · refine erased_congr hs (h.unlinked ?_)
      rcases List.mem_cons.mp hv with rfl | hv
      · exact he.elim
      · exact hv
  erase := by
    intro w page h
    refine ⟨fun v hv => ?_, fun _ => erased_write_page, fun _ => erased_write_page⟩
    rcases List.mem_cons.mp hv with hv | hv
    · cases hv
    · exact h.unmarked v hv
  unmark := by
    intro w h he
    have hkeep : Erased (w.disk.unlink (.marker id)) id := by
      intro c hc
      rw [content_unlink, if_neg nofun] at hc
      exact he c hc
    refine ⟨fun v hv => ?_, fun _ => hkeep, fun _ => hkeep⟩
    rcases List.mem_cons.mp hv with hv | hv
    · cases hv
    · exact h.unmarked v hv

/-- What was done stays done; one that changes no file is none of the
three. -/
theorem Progress.Sound.later {w : Progress} {d' : Disk} {v : Json} {e : FileOp}
    (h : w.Sound id v) (hs : SameFiles w.disk d') (he : e.Plain) :
    Progress.Sound ⟨d', e :: w.done⟩ id v := by
  have hrew : Progress.Rewritten ⟨d', e :: w.done⟩ id ↔ w.Rewritten id := by
    refine ⟨fun ⟨v, hv⟩ => ?_, fun ⟨v, hv⟩ => ⟨v, List.mem_cons_of_mem e hv⟩⟩
    rcases List.mem_cons.mp hv with rfl | hv
    · exact he.elim
    · exact ⟨v, hv⟩
  have hunl : Progress.Unlinked ⟨d', e :: w.done⟩ id ↔ w.Unlinked id := by
    refine ⟨fun hv => ?_, List.mem_cons_of_mem e⟩
    rcases List.mem_cons.mp hv with rfl | hv
    · exact he.elim
    · exact hv
  refine ⟨fun hn => ?_, fun hn => ?_, ?_, fun hr => ?_, fun hu => ?_⟩
  · rw [hs]
    exact h.marker fun hu => hn (hunl.mpr hu)
  · rw [onFile_congr (hs _)]
    exact h.page fun hr => hn (hrew.mpr hr)
  · rw [hs]
    exact h.there
  · exact erased_congr hs (h.rewritten (hrew.mp hr))
  · rw [hs]
    exact ⟨hrew.mpr (h.unlinked (hunl.mp hu)).1, (h.unlinked (hunl.mp hu)).2⟩

theorem sound_recovers (v : Json) : Recovers (fun w : Progress =>
    (∀ v', .write (.marker id) v' ∈ w.done → v' = v) ∧ w.Sound id v) id where
  lasting := by
    intro w e d' he hs ⟨hone, h⟩
    refine ⟨fun v' hv' => ?_, h.later hs he⟩
    rcases List.mem_cons.mp hv' with rfl | hv'
    · exact he.elim
    · exact hone v' hv'
  erase := by
    intro w page ⟨hone, h⟩
    refine ⟨fun v' hv' => ?_, fun hn => ?_, fun hn => ?_, ?_, fun _ => erased_write_page,
      fun hu => ⟨⟨_, List.mem_cons_self⟩, ?_⟩⟩
    · rcases List.mem_cons.mp hv' with hv' | hv'
      · cases hv'
      · exact hone v' hv'
    · rw [content_write, if_neg nofun]
      exact h.marker fun hu => hn (List.mem_cons_of_mem _ hu)
    · exact absurd ⟨_, List.mem_cons_self⟩ hn
    · rw [content_write, if_pos rfl]
      rfl
    · rw [content_write, if_neg nofun]
      rcases List.mem_cons.mp hu with hu | hu
      · cases hu
      · exact (h.unlinked hu).2
  unmark := by
    intro w ⟨hone, h⟩ he
    -- an erased page is a rewritten one: it had grants when the marker was written
    have hrew : w.Rewritten id := by
      by_contra hn
      obtain ⟨full, hfull, -, hne⟩ := h.page hn
      exact hne (grants_eq_nil_of_erased he hfull)
    have hrew' : Progress.Rewritten ⟨w.disk.unlink (.marker id), .unlink (.marker id) :: w.done⟩
        id := ⟨hrew.choose, List.mem_cons_of_mem _ hrew.choose_spec⟩
    refine ⟨fun v' hv' => ?_, fun hn => absurd List.mem_cons_self hn, fun hn => absurd hrew' hn,
      ?_, fun _ c hc => ?_, fun _ => ⟨hrew', ?_⟩⟩
    · rcases List.mem_cons.mp hv' with hv' | hv'
      · cases hv'
      · exact hone v' hv'
    · rw [content_unlink, if_neg nofun]
      exact h.there
    · rw [content_unlink, if_neg nofun] at hc
      exact he c hc
    · rw [content_unlink, if_pos rfl]

omit [Python] in
theorem Makes.weaken {α : Type} {I J : Progress → Prop} {m : FileM α} {Q : α → Progress → Prop}
    {w : Progress} (h : Makes I m Q w) (hIJ : ∀ w, I w → J w) :
    Makes J m (fun a w' => Q a w' ∧ I w') w :=
  ⟨Prog.holds_imp (Prog.holds_mono h.holds fun _ _ hI hr a ha => ⟨hr a ha, hI⟩) hIJ
    fun _ _ _ _ _ => trivial⟩

/-- The marker is written for a page that shows grants. -/
theorem Progress.Early.mark {w w' : Progress} {page : Page} (h : w'.Early id)
    (hs : SameFiles w.disk w'.disk) (hpage : visible w.disk id = some page)
    (hne : page.accessGrants ≠ []) :
    let v := markerJson page.accessGrants
    let w'' : Progress := ⟨w'.disk.write (.marker id) v, .write (.marker id) v :: w'.done⟩
    (∀ v', .write (.marker id) v' ∈ w''.done → v' = v) ∧ w''.Sound id v := by
  intro v w''
  obtain ⟨full, hfull, hshown⟩ := Option.map_eq_some_iff.mp hpage
  have hunmarked : marked w.disk id = false := by
    by_contra hm
    rw [if_pos (by simpa using hm)] at hshown
    rw [← hshown] at hne
    exact hne rfl
  rw [hunmarked, if_neg Bool.false_ne_true] at hshown
  subst hshown
  have hfile : onFile w'.disk id = some full := by rw [onFile_congr (hs _)]; exact hfull
  have hnotErased : ¬ Erased w'.disk id := fun he => hne (grants_eq_nil_of_erased he hfile)
  have hrew : ¬ w''.Rewritten id := by
    rintro ⟨v', hv'⟩
    rcases List.mem_cons.mp hv' with hv' | hv'
    · cases hv'
    · exact hnotErased (h.rewritten ⟨v', hv'⟩)
  have hunl : ¬ w''.Unlinked id := by
    intro hu
    rcases List.mem_cons.mp hu with hu | hu
    · cases hu
    · exact hnotErased (h.unlinked hu)
  have hcontent : w''.disk.content (.page id) = w'.disk.content (.page id) := by
    show (w'.disk.write (.marker id) v).content (.page id) = _
    rw [content_write, if_neg nofun]
  refine ⟨fun v' hv' => ?_, fun _ => ?_, fun _ => ⟨full, ?_, rfl, hne⟩, ?_,
    fun hr => absurd hr hrew, fun hu => absurd hu hunl⟩
  · rcases List.mem_cons.mp hv' with hv' | hv'
    · exact (FileOp.write.inj hv').2
    · exact absurd hv' (h.unmarked v')
  · show (w'.disk.write (.marker id) v).content (.marker id) = _
    rw [content_write, if_pos rfl]
  · rw [onFile_congr hcontent]
    exact hfile
  · obtain ⟨payload, hc, -⟩ := onFile_eq_some.mp hfile
    rw [hcontent, hc]
    rfl

/-- **Where a revocation can be**, whatever its operations meet. -/
theorem makes_revoke (d : Disk) :
    Makes (Progress.Inv id) (revokePageAccessGrants id) (fun _ _ => True) ⟨d, []⟩ := by
  have hstart : Progress.Early ⟨d, []⟩ id :=
    ⟨fun _ => List.not_mem_nil, fun h => absurd h.choose_spec List.not_mem_nil,
      fun h => absurd h List.not_mem_nil⟩
  refine makes_bind ((makes_recover early_recovers hstart).weaken fun _ => Or.inl) ?_
  rintro _ w₁ - ⟨-, hearly₁⟩
  refine makes_bind ((makes_load early_recovers.lasting hearly₁).weaken fun _ => Or.inl) ?_
  rintro page w₂ hw₂ ⟨⟨hpage, hs₂⟩, hearly₂⟩
  dsimp only
  split
  · exact makes_pure hw₂ trivial
  · rename_i hne
    -- the marker is written, or not; then the recovery runs under it
    have hmark : Makes (Progress.Inv id) (write (.marker id) (markerJson page.accessGrants))
        (fun _ w' => (∀ v', .write (.marker id) v' ∈ w'.done →
          v' = markerJson page.accessGrants) ∧ w'.Sound id (markerJson page.accessGrants)) w₂ := by
      refine makes_bind ((makes_unit early_recovers.lasting (.inl rfl) hearly₂).weaken fun _ => .inl) ?_
      rintro _ w₃ hw₃ ⟨hs₃, hearly₃⟩
      have hsound := hearly₃.mark (fun p => (hs₃ p).trans (hs₂ p)) hpage hne
      have hwrite : Makes (Progress.Inv id)
          (ask (.write (.marker id) (markerJson page.accessGrants)))
          (fun _ w' => (∀ v', .write (.marker id) v' ∈ w'.done →
            v' = markerJson page.accessGrants) ∧ w'.Sound id (markerJson page.accessGrants)) w₃ :=
        makes_ask hw₃ (by intro _ _ _ _ h; cases (show Except.error PageError.os = Except.ok () from h))
          (by rintro _ _ ⟨⟩) fun _ _ _ => ⟨.inr ⟨_, hsound⟩, hsound⟩
      refine makes_bind hwrite fun _ w₄ _ hsound₄ => ?_
      have hsync := (makes_unit (sound_recovers _).lasting (.inr (.inl rfl)) hsound₄).weaken
        (J := Progress.Inv id) fun _ h => .inr ⟨_, h⟩
      exact makes_mono hsync fun _ _ _ h => h.2
    refine makes_bind hmark fun _ w₃ _ hsound => ?_
    refine makes_bind ((makes_recover (sound_recovers _) hsound).weaken fun _ h => .inr ⟨_, h⟩)
      fun _ w₄ hw₄ _ => makes_pure hw₄ trivial

/-! ## Reader and writer -/

omit [Python] in
theorem done_subset {α : Type} (p : Prog FileOp FileOp.Ans α) (ts : List Tick) (w : Progress) :
    w.done ⊆ (p.meet FileOp.record ts w).2.done := by
  induction p generalizing ts w with
  | ret a => exact fun _ h => h
  | op e k ih =>
      cases ts with
      | nil => exact fun _ h => h
      | cons t ts =>
          refine fun x hx => ih _ ts _ ?_
          unfold FileOp.record
          split
          · exact hx
          · show x ∈ (match (e.perform t w.disk).1 with | .ok _ => e :: w.done | .error _ => w.done)
            split
            · exact List.mem_cons_of_mem _ hx
            · exact hx

omit [Python] in
/-- A longer run has done what a shorter one has. -/
theorem done_subset_append {α : Type} (p : Prog FileOp FileOp.Ans α) (ts ts' : List Tick)
    (w : Progress) :
    (p.meet FileOp.record ts w).2.done ⊆ (p.meet FileOp.record (ts ++ ts') w).2.done := by
  induction p generalizing ts w with
  | ret a => exact fun _ h => h
  | op e k ih =>
      cases ts with
      | nil => exact done_subset _ ts' w
      | cons t ts => exact ih _ ts _

omit [Python] in
theorem sighted_append {ts ts' : List Tick} :
    Sighted (ts ++ ts') ↔ Sighted ts ∧ Sighted ts' := List.forall_mem_append

theorem revoking_inv (id : String) (d : Disk) {ts : List Tick} (hsight : Sighted ts) :
    (revoking id d ts).Inv id :=
  ((makes_revoke d).holds.meet_of hsight).2.1

/-- When its marker was written, a revocation is as sound as it says. -/
theorem sound_of_mem {d : Disk} {ts : List Tick} {v : Json} (hsight : Sighted ts)
    (h : .write (.marker id) v ∈ (revoking id d ts).done) : (revoking id d ts).Sound id v := by
  rcases revoking_inv id d hsight with hearly | ⟨v', hone, hsound⟩
  · exact absurd h (hearly.unmarked v)
  · rw [hone v h]
    exact hsound

theorem listed_of_markerJson {gs gs' : List Grant} (h : markerJson gs = markerJson gs') :
    listed gs = listed gs' := by
  have hids : gs.map Grant.toJson = gs'.map Grant.toJson := by
    simpa [markerJson] using h
  have hsub : ∀ {as bs : List Grant}, as.map Grant.toJson = bs.map Grant.toJson →
      listed as ⊆ listed bs := by
    rintro as bs he i ⟨g, hg, rfl⟩
    have hmem : g.toJson ∈ bs.map Grant.toJson := he ▸ List.mem_map.mpr ⟨g, hg, rfl⟩
    obtain ⟨g', hg', heq⟩ := List.mem_map.mp hmem
    refine ⟨g', hg', ?_⟩
    rw [← (same_toJson g').1, heq, (same_toJson g).1]
  exact Set.Subset.antisymm (hsub hids) (hsub hids.symm)

theorem mem_revoking_append {d : Disk} {ts : List Tick} {e : FileOp}
    (h : e ∈ (revoking id d ts).done) (ts' : List Tick) :
    e ∈ (revoking id d (ts ++ ts')).done := by
  unfold revoking at h ⊢
  generalize (revokePageAccessGrants id).run = p at h ⊢
  exact done_subset_append p ts ts' ⟨d, []⟩ h

omit [Python] in
theorem Progress.Durable.mem {w : Progress} {grants : List Grant} (h : w.Durable id grants) :
    .write (.marker id) (markerJson grants) ∈ w.done := by
  obtain ⟨post, pre, hdone⟩ := h
  rw [hdone]
  simp

section Load

variable {grants : List Grant} {w₁ w₂ w₃ : Progress} (h₂ : w₂.Sound id (markerJson grants))
  (h₃ : w₃.Sound id (markerJson grants))
include h₂ h₃

/-- Read before the rewrite and tested after the marker is gone, a load
returns a grant that was revoked. -/
theorem exists_listed_of_straddled (h₁ : w₁.Sound id (markerJson grants))
    (hrew : ¬ w₂.Rewritten id) (hunl : w₃.Unlinked id) :
    ∃ page, loadAcross id w₁.disk w₂.disk w₃.disk = .ret (.ok page) ∧
      ∃ g ∈ page.accessGrants, g.id ∈ listed grants := by
  obtain ⟨full, hfull, hlisted, hne⟩ := h₂.page hrew
  have hload := @loadAcross_of_onFile _ _ _ _ w₃.disk _ h₁.there hfull
  rw [marked, (h₃.unlinked hunl).2] at hload
  obtain ⟨g, hg⟩ := List.exists_mem_of_ne_nil _ hne
  refine ⟨full, hload, g, hg, ?_⟩
  rw [← listed_of_markerJson hlisted]
  exact ⟨g, hg, rfl⟩

theorem not_listed_of_not_straddled (hcond : ¬(¬ w₂.Rewritten id ∧ w₃.Unlinked id)) {page : Page}
    (hload : loadAcross id w₁.disk w₂.disk w₃.disk = .ret (.ok page)) :
    ∀ g ∈ page.accessGrants, g.id ∉ listed grants := by
  obtain ⟨full, hfull, rfl⟩ := loadAcross_ok hload
  by_cases hunl : w₃.Unlinked id
  · -- the marker is gone, so the page had been rewritten when it was read
    have hrew : w₂.Rewritten id := by
      by_contra hn
      exact hcond ⟨hn, hunl⟩
    have hnil := grants_eq_nil_of_erased (h₂.rewritten hrew) hfull
    intro g hg
    split at hg
    · exact absurd hg List.not_mem_nil
    · rw [hnil] at hg
      exact absurd hg List.not_mem_nil
  · rw [marked, h₃.marker hunl]
    exact fun g hg => absurd hg List.not_mem_nil

end Load

/-- **When a reader in another process is masked.** A load that begins after
the marker of a revocation became durable returns none of the grants it
lists, exactly if it does not read the page file before the revocation
rewrites it and then test for the marker after the revocation took it
away. No test for a file is blind: the revocation would not rewrite the
page. -/
theorem cross_process_masking_iff (id : String) (d : Disk) (ts₁ ts₂ ts₃ : List Tick)
    (grants : List Grant) (hsight : Sighted (ts₁ ++ ts₂ ++ ts₃)) (hdurable : (revoking id d ts₁).Durable id grants) :
    (∀ page, loadAcross id (revoking id d ts₁).disk (revoking id d (ts₁ ++ ts₂)).disk
        (revoking id d (ts₁ ++ ts₂ ++ ts₃)).disk = .ret (.ok page) →
      ∀ g ∈ page.accessGrants, g.id ∉ listed grants) ↔
    ¬(¬(revoking id d (ts₁ ++ ts₂)).Rewritten id ∧
      (revoking id d (ts₁ ++ ts₂ ++ ts₃)).Unlinked id) := by
  obtain ⟨hsight₂, -⟩ := sighted_append.mp hsight
  have hmem₂ := mem_revoking_append hdurable.mem ts₂
  have h₁ := sound_of_mem (sighted_append.mp hsight₂).1 hdurable.mem
  have h₂ := sound_of_mem hsight₂ hmem₂
  have h₃ := sound_of_mem hsight (mem_revoking_append hmem₂ ts₃)
  constructor
  · rintro hsafe ⟨hrew, hunl⟩
    obtain ⟨page, hload, g, hg, hlisted⟩ := exists_listed_of_straddled h₂ h₃ h₁ hrew hunl
    exact hsafe page hload g hg hlisted
  · exact fun hcond page => not_listed_of_not_straddled h₂ h₃ hcond

/-! ## A reader that is too slow -/

def FileOp.rewrites (id : String) : FileOp → Bool
  | write p _ => p = .page id
  | _ => false

def FileOp.unlinks (id : String) : FileOp → Bool
  | unlink p => p = .marker id
  | _ => false

omit [Python] in
theorem rewritten_iff {w : Progress} : w.Rewritten id ↔ w.done.any (·.rewrites id) = true := by
  rw [List.any_eq_true]
  constructor
  · rintro ⟨v, hv⟩
    exact ⟨_, hv, decide_eq_true rfl⟩
  · rintro ⟨e, he, hr⟩
    cases e with
    | write p v =>
        obtain rfl : p = .page id := of_decide_eq_true hr
        exact ⟨v, he⟩
    | _ => cases hr

omit [Python] in
theorem unlinked_iff {w : Progress} : w.Unlinked id ↔ w.done.any (·.unlinks id) = true := by
  rw [List.any_eq_true]
  constructor
  · intro hv
    exact ⟨_, hv, decide_eq_true rfl⟩
  · rintro ⟨e, he, hr⟩
    cases e with
    | unlink p =>
        obtain rfl : p = .marker id := of_decide_eq_true hr
        exact he
    | _ => cases hr

/-- The last two operations were the marker and its sync. -/
def Progress.justMarked (w : Progress) (id : String) : Bool :=
  match w.done with
  | .sync :: .write p _ :: _ => p = .marker id
  | _ => false

theorem durable_of_justMarked {d : Disk} {ts : List Tick} {full : Page} (hsight : Sighted ts)
    (h : (revoking id d ts).justMarked id = true)
    (hrew : (revoking id d ts).done.any (·.rewrites id) = false)
    (hfull : onFile (revoking id d ts).disk id = some full) :
    (revoking id d ts).Durable id full.accessGrants := by
  unfold Progress.justMarked at h
  split at h
  · rename_i p v pre hdone
    obtain rfl : p = .marker id := of_decide_eq_true h
    have hsound := sound_of_mem hsight (show .write (.marker id) v ∈ (revoking id d ts).done by
      rw [hdone]; simp)
    obtain ⟨full', hfull', hv, -⟩ := hsound.page (by rw [rewritten_iff, hrew]; exact nofun)
    rw [hfull] at hfull'
    cases hfull'
    exact ⟨[], pre, by rw [hv]; exact hdone⟩
  · cases h

/-- So many operations that go through. -/
def doorTicks (n : Nat) : List Tick := List.replicate n ⟨false, false, 0, .success⟩

omit [Python] in
theorem doorTicks_sighted (n : Nat) : Sighted (doorTicks n) := by
  intro t ht
  rw [List.eq_of_mem_replicate ht]

omit [Python] in
theorem doorTicks_durable :
    letI := Python.plain
    (revoking "door" doorOpen (doorTicks 7)).Durable "door" [doorGrant] :=
  letI := Python.plain
  @durable_of_justMarked _ _ _ _ doorPage (doorTicks_sighted 7) (by decide +kernel) (by decide +kernel)
    (by decide +kernel)

omit [Python] in
/-- The reader reads the door's page, the revocation runs to the end of its
marker, and the reader looks for the marker. -/
theorem cross_process_masking_missed :
    letI := Python.plain
    (revoking "door" doorOpen (doorTicks 7)).Durable "door" [doorGrant] ∧
    ¬∀ page, loadAcross "door" (revoking "door" doorOpen (doorTicks 7)).disk
        (revoking "door" doorOpen (doorTicks 7 ++ doorTicks 0)).disk
        (revoking "door" doorOpen (doorTicks 7 ++ doorTicks 0 ++ doorTicks 9)).disk =
          .ret (.ok page) →
      ∀ g ∈ page.accessGrants, g.id ∉ listed [doorGrant] := by
  let _ := Python.plain
  refine ⟨doorTicks_durable, fun hsafe => ?_⟩
  have hsight₁ := doorTicks_sighted 7
  have hsight₂ := sighted_append.mpr ⟨hsight₁, doorTicks_sighted 0⟩
  have hsight₃ := sighted_append.mpr ⟨hsight₂, doorTicks_sighted 9⟩
  have hmem₂ := mem_revoking_append doorTicks_durable.mem (doorTicks 0)
  have h₃ := sound_of_mem hsight₃ (mem_revoking_append hmem₂ (doorTicks 9))
  obtain ⟨page, hload, g, hg, hlisted⟩ := exists_listed_of_straddled (sound_of_mem hsight₂ hmem₂)
    h₃ (sound_of_mem hsight₁ doorTicks_durable.mem)
    (fun h => absurd (rewritten_iff.mp h) (by decide +kernel))
    (unlinked_iff.mpr (by decide +kernel))
  exact hsafe page hload g hg hlisted

omit [Python] in
/-- A load that falls between the marker and the rewrite. -/
theorem cross_process_masking_iff_door :
    letI := Python.plain
    (revoking "door" doorOpen (doorTicks 7)).Durable "door" [doorGrant] ∧
    ((∀ page, loadAcross "door" (revoking "door" doorOpen (doorTicks 7)).disk
        (revoking "door" doorOpen (doorTicks 7 ++ doorTicks 1)).disk
        (revoking "door" doorOpen (doorTicks 7 ++ doorTicks 1 ++ doorTicks 2)).disk =
          .ret (.ok page) →
      ∀ g ∈ page.accessGrants, g.id ∉ listed [doorGrant]) ↔
    ¬(¬(revoking "door" doorOpen (doorTicks 7 ++ doorTicks 1)).Rewritten "door" ∧
      (revoking "door" doorOpen (doorTicks 7 ++ doorTicks 1 ++ doorTicks 2)).Unlinked "door")) :=
  letI := Python.plain
  ⟨doorTicks_durable, cross_process_masking_iff "door" doorOpen (doorTicks 7) (doorTicks 1)
    (doorTicks 2) [doorGrant] (by decide) doorTicks_durable⟩

end Pages

end AccessPages
