import AccessPages.Pages.Store
/-!
# Pages — what validation keeps, and how methods are reasoned about

Validation keeps the identifier and the obligation of every raw grant,
and a page is written with what it has. `Keeps` is the rule a method is
checked by: what holds at every point it may fail or crash, and at its
end, whatever the ticks are.
-/

namespace AccessPages

namespace Pages

theorem except_bind_eq_ok {ε α β : Type} {x : Except ε α} {f : α → Except ε β} {b : β} :
    (x >>= f) = .ok b ↔ ∃ a, x = .ok a ∧ f a = .ok b := by
  cases x with
  | error e => exact ⟨nofun, fun ⟨_, h, _⟩ => nomatch h⟩
  | ok a => exact ⟨fun h => ⟨a, rfl, h⟩, fun ⟨_, h, h'⟩ => by cases h; exact h'⟩

theorem require_eq_ok {c : Prop} [Decidable c] {message : String} {x : PLift c} :
    require c message = .ok x ↔ c := by
  unfold require
  split
  · rename_i h
    exact ⟨fun _ => h, fun _ => rfl⟩
  · rename_i h
    exact ⟨nofun, fun hc => absurd hc h⟩

/-! ## Grants of a document -/

/-- The raw grants of a document. -/
def rawGrants : Json → List Json
  | .obj fields =>
      match Json.getD fields "access_grants" (.arr []) with
      | .arr raws => raws
      | _ => []
  | _ => []

theorem rawGrants_toJson (page : Page) :
    rawGrants page.toJson = page.accessGrants.map Grant.toJson := rfl

/-! ## Identifiers -/

theorem toNat_of_isTokenChar {c : Char} (h : isTokenChar c = true) :
    c.toNat = 45 ∨ (48 ≤ c.toNat ∧ c.toNat ≤ 57) ∨ (65 ≤ c.toNat ∧ c.toNat ≤ 90) ∨
      c.toNat = 95 ∨ (97 ≤ c.toNat ∧ c.toNat ≤ 122) := by
  simp only [isTokenChar, Char.isAlphanum, Char.isAlpha, Char.isUpper, Char.isLower,
    Char.isDigit, Bool.or_eq_true, Bool.and_eq_true, decide_eq_true_eq, ge_iff_le,
    UInt32.le_iff_toNat_le] at h
  have hn : c.toNat = c.val.toNat := rfl
  have h0 : '0'.val.toNat = 48 := rfl
  have hz : 'z'.val.toNat = 122 := rfl
  have hA : 'A'.val.toNat = 65 := rfl
  have hZ : 'Z'.val.toNat = 90 := rfl
  have ha : 'a'.val.toNat = 97 := rfl
  have h9 : '9'.val.toNat = 57 := rfl
  rcases h with (h | rfl) | rfl
  · omega
  · decide
  · decide

theorem isSpace_of_isTokenChar {c : Char} (h : isTokenChar c = true) : isSpace c = false := by
  have hrange := toNat_of_isTokenChar h
  simp only [isSpace, Bool.or_eq_false_iff, Bool.and_eq_false_iff, decide_eq_false_iff_not,
    beq_eq_false_iff_ne]
  omega

theorem isTokenChar_of_isIdChar {c : Char} (h : isIdChar c = true) : isTokenChar c = true := by
  simp only [isIdChar, isLowerAlnum, isTokenChar, Char.isAlphanum, Char.isAlpha,
    Bool.or_eq_true] at h ⊢
  tauto

theorem isIdChar_of_pageIdRe {id : String} (h : pageIdRe id = true) :
    ∀ c ∈ id.toList, isIdChar c = true := by
  intro c hc
  unfold pageIdRe at h
  cases hl : id.toList with
  | nil => rw [hl] at hc; cases hc
  | cons c' cs =>
      rw [hl] at h hc
      simp only [Bool.and_eq_true, matchesClass, List.all_eq_true] at h
      rcases List.mem_cons.mp hc with rfl | hc
      · simp [isIdChar, h.1]
      · exact h.2.2 c hc

theorem isTokenChar_of_grantIdRe {id : String} (h : grantIdRe id = true) :
    ∀ c ∈ id.toList, isTokenChar c = true := by
  simp only [grantIdRe, matchesClass, Bool.and_eq_true, decide_eq_true_eq, List.all_eq_true] at h
  obtain ⟨hlead, -, hrest⟩ := h
  intro c hc
  rw [← List.take_append_drop 6 id.toList, List.mem_append, hlead] at hc
  rcases hc with hc | hc
  · have hlead : "grant_".toList.all isTokenChar = true := by decide
    exact List.all_eq_true.mp hlead c hc
  · exact hrest c hc

/-- A grant's identifier has no spaces. -/
theorem strip_grantId {id : String} (h : grantIdRe id = true) : strip id = id :=
  strip_eq_self fun c hc => isSpace_of_isTokenChar (isTokenChar_of_grantIdRe h c hc)

theorem isSpace_of_isIdChar {c : Char} (h : isIdChar c = true) : isSpace c = false :=
  isSpace_of_isTokenChar (isTokenChar_of_isIdChar h)

/-- Nor has a page's. -/
theorem strip_pageId {id : String} (h : pageIdRe id = true) : strip id = id :=
  strip_eq_self fun c hc => isSpace_of_isIdChar (isIdChar_of_pageIdRe h c hc)

section Raw

variable [Python]

/-- A valid identifier is taken as it is. -/
theorem validatePageId_of_re {id : String} (h : pageIdRe id = true) :
    validatePageId (.str id) = .ok ⟨id, h⟩ := by
  have hid : strip (Json.str id).toStr = id := strip_pageId h
  have hre : pageIdRe (strip (Json.str id).toStr) = true := by rw [hid]; exact h
  simp only [validatePageId, except_bind_eq_ok]
  exact ⟨⟨hre⟩, require_eq_ok.mpr hre, congrArg Except.ok (Subtype.ext hid)⟩

/-- The identifier of a raw grant. -/
def rawId : Json → String
  | .obj raw => Json.text raw "id" ""
  | _ => ""

/-- The obligation of a raw grant. -/
def rawObligation : Json → Option Obligation
  | .obj raw =>
      let crid := Json.text raw "resource_crid" ""
      let resource := if crid = "" then Json.text raw "resource_id" "" else crid
      let qurl := Json.text raw "qurl_id" ""
      if qurl = "" ∨ resource = "" then none else some ⟨Json.text raw "id" "", resource, qurl⟩
  | _ => none

theorem validateGrant_eq_ok {seen : List String} {r : Json} {g : Grant}
    (h : validateGrant seen r = .ok g) : rawId r = g.id ∧ rawObligation r = g.obligation := by
  cases r with
  | obj raw =>
      simp only [validateGrant, except_bind_eq_ok] at h
      obtain ⟨-, -, -, -, -, -, _, -, -, -, _, -, _, -, -, -, -, -, -, -, _, -, h⟩ := h
      cases h
      exact ⟨rfl, rfl⟩
  | _ => cases h

/-- A raw grant and the grant it validates to. -/
def Same (r : Json) (g : Grant) : Prop := rawId r = g.id ∧ rawObligation r = g.obligation

/-- Every grant of a validated document is a raw grant of it, and every raw
grant is there. -/
def Matches (raws : List Json) (gs : List Grant) : Prop :=
  (∀ g ∈ gs, ∃ r ∈ raws, Same r g) ∧ ∀ r ∈ raws, ∃ g ∈ gs, Same r g

theorem validateGrants_eq_ok {seen : List String} {raws : List Json} {gs : List Grant}
    (h : validateGrants seen raws = .ok gs) : Matches raws gs := by
  induction raws generalizing seen gs with
  | nil =>
      cases h
      exact ⟨nofun, nofun⟩
  | cons r raws ih =>
      simp only [validateGrants, except_bind_eq_ok] at h
      obtain ⟨g, hg, gs', hgs, h⟩ := h
      cases h
      have hsame : Same r g := validateGrant_eq_ok hg
      obtain ⟨hraw, hval⟩ := ih hgs
      simp only [Matches, List.mem_cons, forall_eq_or_imp, exists_eq_or_imp]
      exact ⟨⟨.inl hsame, fun g hg => .inr (hraw g hg)⟩, .inl hsame, fun r hr => .inr (hval r hr)⟩

theorem validateAccessGrants_eq_ok {raws : List Json} {gs : List Grant}
    (h : validateAccessGrants (.arr raws) = .ok gs) : Matches raws gs := by
  simp only [validateAccessGrants, except_bind_eq_ok] at h
  obtain ⟨gs', hgs, h⟩ := h
  cases h
  simpa only [Matches, sortGrants, List.mem_insertionSort] using validateGrants_eq_ok hgs

/-- **Validation keeps every grant**, by its identifier and what it owes. -/
theorem validatePage_eq_ok {v : Json} {requiredId : Option String} {page : Page}
    (h : validatePage v requiredId = .ok page) :
    (∀ id ∈ requiredId, page.id = id) ∧ Matches (rawGrants v) page.accessGrants := by
  cases v with
  | obj raw =>
      simp only [validatePage, except_bind_eq_ok] at h
      obtain ⟨id, -, _, hid, _, -, _, -, _, -, h⟩ := h
      split at h
      · simp only [except_bind_eq_ok] at h
        obtain ⟨_, -, gs, hgs, h⟩ := h
        cases h
        refine ⟨require_eq_ok.mp hid, ?_⟩
        cases hv : Json.getD raw "access_grants" (.arr []) with
        | arr raws =>
            rw [hv] at hgs
            simpa only [rawGrants, hv] using validateAccessGrants_eq_ok hgs
        | null =>
            rw [hv] at hgs
            cases hgs
            simp [rawGrants, hv, Matches]
        | _ =>
            rw [hv] at hgs
            cases hgs
      · cases h
  | _ => cases h

theorem same_toJson (g : Grant) : Same g.toJson g := by
  have hs := g.stripped
  simp only [List.mem_cons, List.not_mem_nil, or_false, forall_eq_or_imp, forall_eq] at hs
  obtain ⟨-, -, -, -, hrid, hqurl, -, hcrid⟩ := hs
  have hid := strip_grantId g.id_re
  have field : ∀ key s, Json.get? (Grant.fields g) key = some (.str s) → strip s = s →
      Json.text (Grant.fields g) key "" = s := by
    intro key s hkey hstrip
    rw [Json.text, Json.getD, hkey, Option.getD_some, Json.toStr_str, hstrip]
  have eid := field "id" _ rfl hid
  refine ⟨eid, ?_⟩
  simp only [rawObligation, Grant.toJson, eid, field "resource_crid" _ rfl hcrid,
    field "resource_id" _ rfl hrid, field "qurl_id" _ rfl hqurl]
  rfl

end Raw

/-! ## Contents -/

@[simp] theorem content_empty {p : Path} : Disk.empty.content p = none := rfl

@[simp] theorem content_write {d : Disk} {p q : Path} {v : Json} :
    (d.write p v).content q = if p = q then some (.ok v) else d.content q := by
  unfold Disk.content Disk.write
  rw [Table.find?_insertOrReplace]
  split <;> rfl

@[simp] theorem content_unlink {d : Disk} {p q : Path} :
    (d.unlink p).content q = if p = q then none else d.content q := by
  unfold Disk.content Disk.unlink
  rw [Table.find?_deleteWhere]
  cases hf : d.files.find? q with
  | none => simp
  | some f =>
      obtain ⟨q', c⟩ := f
      obtain rfl : q' = q := (Table.find?_eq_some.mp hf).2
      by_cases h : p = q'
      · simp [h]
      · simp [h, Ne.symm h]

@[simp] theorem content_enqueue {d : Disk} {id : String} {g : Grant} {now : Instant} {q : Path} :
    (d.enqueue id g now).content q = d.content q := by
  unfold Disk.enqueue
  split <;> rfl

theorem mem_markers {d : Disk} {id : String} :
    id ∈ d.markers ↔ (d.content (.marker id)).isSome = true := by
  simp only [Disk.markers, Disk.content, List.mem_filterMap, Option.isSome_map]
  constructor
  · rintro ⟨⟨p, c⟩, hf, hp⟩
    cases p with
    | page _ => cases hp
    | marker id' =>
        cases hp
        exact Option.isSome_iff_exists.mpr ⟨_, Table.find?_eq_some.mpr ⟨hf, rfl⟩⟩
  · intro h
    obtain ⟨f, hf⟩ := Option.isSome_iff_exists.mp h
    obtain ⟨hmem, hkey⟩ := Table.find?_eq_some.mp hf
    exact ⟨f, hmem, by rw [hkey]⟩

/-! ## Methods -/

section Keeps

variable {α β : Type} {S : Prop} {J : Disk → Prop} {d : Disk}

/-- The tests for a file are blind under `S` alone. -/
def Blind (S : Prop) (ticks : List Tick) : Prop := ∀ t ∈ ticks, t.blind = true → S

theorem blind_nil : Blind S [] := fun _ ht => absurd ht List.not_mem_nil

theorem blind_cons {t : Tick} {ticks : List Tick} :
    Blind S (t :: ticks) ↔ (t.blind = true → S) ∧ Blind S ticks := List.forall_mem_cons

theorem blind_sighted {ticks : List Tick} (h : Sighted ticks) : Blind False ticks :=
  fun t ht hb => absurd (hb.symm.trans (h t ht)) nofun

/-- **The rule a method is checked by**: whatever its operations meet, `J`
holds of the disk wherever it may stop, and `Q` of its outcome. `S` is
whether its tests for a file may be blind. -/
structure Keeps (S : Prop) (J : Disk → Prop) (m : FileM α)
    (Q : Except PageError α → Disk → Prop) (d : Disk) : Prop where
  wp : ∀ ticks, Blind S ticks →
    Prog.Wp FileOp.step (fun w => Blind S w.ticks ∧ J w.disk) m.run (fun r w => Q r w.disk)
      ⟨d, ticks⟩

/-- The postcondition of a method that asks nothing of its failures. -/
def OnOk (Q : α → Disk → Prop) : Except PageError α → Disk → Prop
  | .ok a, d => Q a d
  | .error _, _ => True

theorem Keeps.stops {m : FileM α} {Q : Except PageError α → Disk → Prop} (h : Keeps S J m Q d)
    {ticks : List Tick} (hticks : Blind S ticks) {w : Host}
    (hw : Prog.Stops FileOp.step m.run ⟨d, ticks⟩ w) : J w.disk :=
  ((Prog.wp_iff.mp (h.wp ticks hticks)).1 w hw).2

theorem Keeps.outcome {m : FileM α} {Q : Except PageError α → Disk → Prop} (h : Keeps S J m Q d)
    {ticks : List Tick} (hticks : Blind S ticks) :
    Q (m.run.run FileOp.step ⟨d, ticks⟩).1 (m.run.run FileOp.step ⟨d, ticks⟩).2.disk :=
  (Prog.wp_iff.mp (h.wp ticks hticks)).2

theorem keeps_mono {m : FileM α} {Q Q' : Except PageError α → Disk → Prop} (h : Keeps S J m Q d)
    (hQ : ∀ r d', J d' → Q r d' → Q' r d') : Keeps S J m Q' d :=
  ⟨fun ticks hticks => Prog.wp_mono (h.wp ticks hticks) fun r w hJ hr => hQ r w.disk hJ.2 hr⟩

/-- A weaker condition is kept too, and the end can be told by the
stronger one. -/
theorem keeps_weaken {J' : Disk → Prop} {m : FileM α} {P : α → Disk → Prop}
    (h : Keeps S J m (OnOk P) d) (hJ : ∀ d', J d' → J' d') :
    Keeps S J' m (OnOk fun a d' => P a d' ∧ J d') d := by
  refine ⟨fun ticks hticks => Prog.wp_iff.mpr ⟨fun w hw => ?_, ?_⟩⟩
  · obtain ⟨hblind, hw⟩ := (Prog.wp_iff.mp (h.wp ticks hticks)).1 w hw
    exact ⟨hblind, hJ _ hw⟩
  have hend : J (m.run.run FileOp.step ⟨d, ticks⟩).2.disk := h.stops hticks Prog.stops_run
  have hout := h.outcome hticks
  generalize (m.run.run FileOp.step ⟨d, ticks⟩) = out at hend hout
  obtain ⟨r, w⟩ := out
  cases r with
  | ok a => exact ⟨hout, hend⟩
  | error e => trivial

theorem keeps_pure {a : α} {Q : Except PageError α → Disk → Prop} (hJ : J d) (hQ : Q (.ok a) d) :
    Keeps S J (pure a) Q d := ⟨fun _ hticks => ⟨⟨hticks, hJ⟩, hQ⟩⟩

theorem keeps_throw {e : PageError} {Q : Except PageError α → Disk → Prop} (hJ : J d)
    (hQ : Q (.error e) d) : Keeps S J (throw e) Q d := ⟨fun _ hticks => ⟨⟨hticks, hJ⟩, hQ⟩⟩

/-- One operation: it fails and changes nothing, or it is performed. -/
theorem keeps_step {e : FileOp} {Q : e.Ans → Disk → Prop} (hJ : J d)
    (hfail : ∀ t : Tick, (t.blind = true → S) → e.fails t = true → Q e.failed d)
    (hok : ∀ t, J (e.perform t d).2 ∧ Q (e.perform t d).1 (e.perform t d).2) :
    Keeps S J (ask e) Q d := by
  refine ⟨fun ticks hticks => ⟨⟨hticks, hJ⟩, ?_⟩⟩
  cases ticks with
  | nil => exact ⟨⟨blind_nil, (hok _).1⟩, (hok _).2⟩
  | cons t ticks =>
      obtain ⟨ht, hrest⟩ := blind_cons.mp hticks
      simp only [FileOp.step]
      split
      · rename_i hfails
        exact ⟨⟨hrest, hJ⟩, hfail t ht hfails⟩
      · exact ⟨⟨hrest, (hok t).1⟩, (hok t).2⟩

theorem keeps_ask {e : FileOp} {Q : e.Ans → Disk → Prop} (hJ : J d) (hfail : Q e.failed d)
    (hok : ∀ t, J (e.perform t d).2 ∧ Q (e.perform t d).1 (e.perform t d).2) :
    Keeps S J (ask e) Q d := keeps_step hJ (fun _ _ _ => hfail) hok

theorem keeps_bind {m : FileM α} {f : α → FileM β} {Q : Except PageError β → Disk → Prop}
    (h : Keeps S J m (fun r d' => match r with
      | .ok a => Keeps S J (f a) Q d'
      | .error e => Q (.error e) d') d) : Keeps S J (m >>= f) Q d := by
  refine ⟨fun ticks hticks =>
    Prog.wp_bind.mpr (Prog.wp_mono (h.wp ticks hticks) fun r w hJ hr => ?_)⟩
  cases r with
  | ok a => exact hr.wp w.ticks hJ.1
  | error e => exact ⟨hJ, hr⟩

/-- One method after another, where failures are let through. -/
theorem keeps_seq {m : FileM α} {f : α → FileM β} {P : α → Disk → Prop} {Q : β → Disk → Prop}
    (h : Keeps S J m (OnOk P) d)
    (hf : ∀ a d', J d' → P a d' → Keeps S J (f a) (OnOk Q) d') :
    Keeps S J (m >>= f) (OnOk Q) d := by
  refine keeps_bind (keeps_mono h fun r d' hJ hr => ?_)
  cases r with
  | ok a => exact hf a d' hJ hr
  | error e => trivial

/-- A method with a handler. -/
theorem keeps_tryCatch {m : FileM α} {handler : PageError → FileM α}
    {Q : Except PageError α → Disk → Prop}
    (h : Keeps S J m (fun r d' => match r with
      | .ok a => Q (.ok a) d'
      | .error e => Keeps S J (handler e) Q d') d) : Keeps S J (tryCatch m handler) Q d := by
  refine ⟨fun ticks hticks =>
    Prog.wp_bind.mpr (Prog.wp_mono (h.wp ticks hticks) fun r w hJ hr => ?_)⟩
  cases r with
  | ok a => exact ⟨hJ, hr⟩
  | error e => exact hr.wp w.ticks hJ.1

/-- A check that reads nothing. -/
theorem keeps_lift {x : Except PageError α} {f : α → FileM β}
    {Q : Except PageError β → Disk → Prop} (hJ : J d) (herr : ∀ e, Q (.error e) d)
    (hok : ∀ a, x = .ok a → Keeps S J (f a) Q d) : Keeps S J (liftM x >>= f) Q d := by
  refine keeps_bind ⟨fun _ hticks => ⟨⟨hticks, hJ⟩, ?_⟩⟩
  cases x with
  | ok a => exact hok a rfl
  | error e => exact herr e

end Keeps

end Pages

end AccessPages
