import AccessPages.Pages.RoundTrip
import AccessPages.Pages.Masking
/-!
# Pages — what a store gives back

`calm` runs a method in a store whose operations all succeed: it is a
function of the disk. `loads` is what `load` answers there. With what
validation makes of a written page it says what a caller reads after a
page was created, replaced or edited.
-/

namespace AccessPages

namespace Pages

/-! ## Methods that nothing fails -/

/-- An operation that meets nothing: the epoch, and a willing service. -/
abbrev FileOp.quiet (e : FileOp) (d : Disk) : e.Ans × Disk := e.perform ⟨false, false, 0, .success⟩ d

/-- A method run where no operation fails. -/
def calm {α : Type} (m : FileM α) (d : Disk) : Except PageError α × Disk :=
  m.run.run FileOp.quiet d

section Calm

variable {α β : Type} {d : Disk}

/-- A host without ticks runs a method so. -/
theorem run_calm (m : FileM α) (d : Disk) :
    m.run.run FileOp.step ⟨d, []⟩ = ((calm m d).1, ⟨(calm m d).2, []⟩) := by
  unfold calm
  generalize m.run = p
  induction p generalizing d with
  | ret a => rfl
  | op e k ih => exact ih _ _

@[simp] theorem calm_pure (a : α) : calm (pure a) d = (.ok a, d) := rfl

@[simp] theorem calm_throw (e : PageError) : calm (throw e : FileM α) d = (.error e, d) := rfl

@[simp] theorem calm_lift (x : Except PageError α) : calm (liftM x) d = (x, d) := by
  cases x <;> rfl

@[simp] theorem calm_ask (e : FileOp) : calm (ask e) d = e.quiet d := rfl

theorem calm_bind {m : FileM α} {f : α → FileM β} :
    calm (m >>= f) d = match calm m d with
      | (.ok a, d') => calm (f a) d'
      | (.error e, d') => (.error e, d') := by
  unfold calm
  rw [Prog.run_except_bind]
  rcases Prog.run FileOp.quiet m.run d with ⟨r, d'⟩
  cases r <;> rfl

/-- A method that succeeds and leaves the disk goes on from it. -/
theorem calm_bind_ok {m : FileM α} {f : α → FileM β} {a : α} {d' : Disk}
    (h : calm m d = (.ok a, d')) : calm (m >>= f) d = calm (f a) d' := by
  rw [calm_bind, h]

theorem calm_bind_error {m : FileM α} {f : α → FileM β} {e : PageError} {d' : Disk}
    (h : calm m d = (.error e, d')) : calm (m >>= f) d = (.error e, d') := by
  rw [calm_bind, h]

/-- What a sequence that ends well went through. -/
theorem calm_bind_eq_ok {m : FileM α} {f : α → FileM β} {b : β} {d'' : Disk} :
    calm (m >>= f) d = (.ok b, d'') ↔
      ∃ a d', calm m d = (.ok a, d') ∧ calm (f a) d' = (.ok b, d'') := by
  rw [calm_bind]
  rcases calm m d with ⟨r, d'⟩
  cases r with
  | error e => exact ⟨nofun, fun ⟨_, _, h, _⟩ => by cases h⟩
  | ok a => exact ⟨fun h => ⟨a, d', rfl, h⟩, fun ⟨_, _, h, h'⟩ => by cases h; exact h'⟩

theorem calm_tryCatch {m : FileM α} {handler : PageError → FileM α} :
    calm (tryCatch m handler) d = match calm m d with
      | (.ok a, d') => (.ok a, d')
      | (.error e, d') => calm (handler e) d' := by
  unfold calm
  change Prog.run FileOp.quiet (m.run >>= _) d = _
  rw [Prog.run_bind]
  rcases Prog.run FileOp.quiet m.run d with ⟨r, d'⟩
  cases r <;> rfl

end Calm

variable [Python]
variable {d : Disk} {id : String}

/-- A page as it is shown while a revocation is under way. -/
def Page.maskedBy (page : Page) (masked : Bool) : Page :=
  if masked then { page with accessGrants := [] } else page

/-- What `load` makes of the content of a page file. -/
def readContent (id : String) : Content → Except PageError Page
  | .error (.os text) => .error (.config ("Could not read page configuration: " ++ text))
  | .error (.jsonDecode text) => .error (.config ("Could not read page configuration: " ++ text))
  | .error .value => .error (.python .valueError)
  | .ok v => validatePage v (some id)

/-- What `load` answers when no operation fails. -/
def Disk.loads (d : Disk) (id : String) : Except PageError Page := do
  let _ ← validatePageId (.str id)
  match d.content (.page id) with
  | none => .error (.notFound id)
  | some c => (readContent id c).map (·.maskedBy (marked d id))

theorem calm_checkId :
    calm (checkId id) d = ((validatePageId (.str id)).map fun _ => (), d) := by
  unfold checkId
  rw [calm_bind, calm_lift]
  cases validatePageId (.str id) <;> rfl

omit [Python] in
theorem calm_requireFile :
    calm (requireFile id) d =
      (if (d.content (.page id)).isSome then .ok () else .error (.notFound id), d) := by
  unfold requireFile
  rw [calm_bind]
  show calm (if (d.content (.page id)).isSome then _ else _) d = _
  split <;> rfl

omit [Python] in
theorem calm_showPage (page : Page) :
    calm (do
      if ← isFile (.marker id) then return { page with accessGrants := [] }
      else return page) d = (.ok (page.maskedBy (marked d id)), d) := by
  rw [calm_bind]
  show calm (if (d.content (.marker id)).isSome then _ else _) d = _
  unfold Page.maskedBy marked
  split <;> rfl

/-- **A load that nothing fails answers `loads`**, and changes nothing. -/
theorem calm_load (d : Disk) (id : String) : calm (loadUnlocked id) d = (d.loads id, d) := by
  unfold loadUnlocked Disk.loads
  rw [calm_bind, calm_checkId]
  cases validatePageId (.str id) with
  | error e => rfl
  | ok a =>
      show calm _ d = _
      rw [calm_bind, calm_requireFile]
      cases hc : d.content (.page id) with
      | none => rfl
      | some c =>
          show calm _ d = _
          rw [calm_bind, calm_ask]
          have hread : FileOp.quiet (.read (.page id)) d = (.ok c, d) := by
            show (Except.ok ((d.content (.page id)).getD _), d) = _
            rw [hc]
            rfl
          rw [hread]
          dsimp only
          cases c with
          | error e => cases e <;> rfl
          | ok v =>
              dsimp only
              rw [calm_bind, calm_lift]
              show _ = ((validatePage v (some id)).map _, d)
              cases validatePage v (some id) with
              | error e => rfl
              | ok page => exact calm_showPage page

/-- Without a marker, a page is loaded as its file validates. -/
theorem loads_of_content {v : Json} (hid : pageIdRe id = true)
    (hc : d.content (.page id) = some (.ok v)) (hm : d.content (.marker id) = none) :
    d.loads id = validatePage v (some id) := by
  have hmarked : marked d id = false := by rw [marked, hm]; rfl
  unfold Disk.loads
  rw [validatePageId_of_re hid, hc, hmarked]
  show (validatePage v (some id)).map _ = _
  cases validatePage v (some id) <;> rfl

/-! ## What a method that writes a page leaves -/

/-- A method of the store ends with a page. -/
def Yields (m : FileM Page) (w : Host) (page : Page) (w' : Host) : Prop :=
  m.run.run FileOp.step w = (.ok page, w')

omit [Python] in
theorem yields_of_fst {m : FileM Page} {w : Host} {page : Page}
    (h : (m.run.run FileOp.step w).1 = .ok page) : Yields m w page (m.run.run FileOp.step w).2 :=
  Prod.ext h rfl

/-- The file of a page is a page that was validated. -/
def Stored (d : Disk) (page : Page) : Prop :=
  d.content (.page page.id) = some (.ok page.toJson) ∧
    ∃ v requiredId, validatePage v requiredId = .ok page

variable {w w' : Host} {payload : Json} {page : Page}

omit [Python] in
/-- What a method keeps although a test for a file may be blind. -/
theorem Keeps.yields {m : FileM Page} {Q : Page → Disk → Prop}
    (h : Keeps True (fun _ => True) m (OnOk Q) w.disk) (hy : Yields m w page w') :
    Q page w'.disk := by
  have hblind : Blind True w.ticks := fun _ _ _ => trivial
  have hout := h.outcome hblind
  change OnOk Q (m.run.run FileOp.step w).1 (m.run.run FileOp.step w).2.disk at hout
  rw [hy] at hout
  exact hout

theorem create_yields (h : Yields (create payload) w page w') :
    validatePage payload none = .ok page ∧ Stored w'.disk page := by
  refine Keeps.yields (Q := fun page d => validatePage payload none = .ok page ∧ Stored d page) ?_ h
  unfold create
  refine keeps_lift trivial (fun _ => trivial) fun p hp => ?_
  have hwritten : Keeps True (fun _ => True) (do
      write (.page p.id) p.toJson
      return p)
      (OnOk fun page d => validatePage payload none = .ok page ∧ Stored d page) w.disk := by
    refine keeps_seq (keeps_write trivial trivial) fun _ d' _ hd' => keeps_pure trivial ⟨hp, ?_⟩
    exact ⟨by rw [hd', content_write, if_pos rfl], _, _, hp⟩
  refine keeps_test trivial (fun _ => hwritten) ?_
  split
  · exact keeps_throw trivial trivial
  · exact hwritten

theorem replace_yields (h : Yields (replaceUnlocked id payload) w page w') :
    validatePage payload (some id) = .ok page ∧ Stored w'.disk page := by
  refine Keeps.yields
    (Q := fun page d => validatePage payload (some id) = .ok page ∧ Stored d page) ?_ h
  unfold replaceUnlocked
  refine keeps_checkId trivial (fun _ => trivial) (keeps_requireFile trivial (fun _ => trivial)
    fun _ => keeps_lift trivial (fun _ => trivial) fun p hp => ?_)
  refine keeps_seq (keeps_write trivial trivial) fun _ d' _ hd' => keeps_pure trivial ⟨hp, ?_⟩
  have hpid : p.id = id := (validatePage_eq_ok hp).1 id rfl
  exact ⟨by rw [hd', content_write, hpid, if_pos rfl], _, _, hp⟩

theorem update_yields (h : Yields (update id payload) w page w') :
    ∃ current, Shows True w.disk id current ∧
      validatePage (withGrants current.accessGrants payload) (some id) = .ok page ∧
      Stored w'.disk page := by
  refine Keeps.yields (Q := fun page d => ∃ current, Shows True w.disk id current ∧
    validatePage (withGrants current.accessGrants payload) (some id) = .ok page ∧
    Stored d page) ?_ h
  unfold update
  refine keeps_checkId trivial (fun _ => trivial) (keeps_requireFile trivial (fun _ => trivial)
    fun _ => keeps_loads_bind trivial (fun _ => trivial) fun current hcurrent => ?_)
  refine keeps_lift trivial (fun _ => trivial) fun p hp => ?_
  refine keeps_seq (keeps_write trivial trivial) fun _ d' _ hd' =>
    keeps_pure trivial ⟨current, hcurrent, hp, ?_⟩
  have hpid : p.id = id := (validatePage_eq_ok hp).1 id rfl
  exact ⟨by rw [hd', content_write, hpid, if_pos rfl], _, _, hp⟩

/-! ## What is read back -/

/-- Without a marker a stored page is loaded as it is read again. -/
theorem Stored.loads (h : Stored d page) (hm : d.content (.marker page.id) = none) :
    d.loads page.id = validatePage page.toJson (some page.id) :=
  loads_of_content page.id_re h.1 hm

omit [Python] in
theorem mem_some_id {page : Page} : ∀ r ∈ some page.id, page.id = r := fun _ h => by
  simpa using h

/-- A page that was edited shows its grants read once more. -/
theorem update_grants {current : Page}
    (hcurrent : current.Checked)
    (h : validatePage (withGrants current.accessGrants payload) (some id) = .ok page) :
    (∀ g ∈ current.accessGrants, g.Named) ∧
      page.accessGrants = current.accessGrants.map Grant.reread := by
  cases payload with
  | obj fields =>
      have hgs := validatePage_grants h
      rw [getD_withGrants] at hgs
      exact (validateAccessGrants_toJson hcurrent.grants).mp hgs
  | _ => cases h

/-- What `load` shows was validated, but for its grants being masked. -/
theorem visible_checked {shown : Page} (h : visible d id = some shown) : shown.Checked := by
  unfold visible at h
  rw [Option.map_eq_some_iff] at h
  obtain ⟨full, hfull, rfl⟩ := h
  obtain ⟨v, -, hv⟩ := onFile_eq_some.mp hfull
  have hc := validatePage_checked hv
  split
  · exact hc.erase
  · exact hc

theorem shows_checked {S : Prop} {shown : Page} (h : Shows S d id shown) : shown.Checked := by
  rcases h with h | ⟨-, h⟩
  · exact visible_checked h
  · obtain ⟨v, -, hv⟩ := onFile_eq_some.mp h
    exact validatePage_checked hv

/-- An edited page survives a second validation: its grants have had theirs. -/
theorem update_idem (h : Yields (update id payload) w page w') :
    validatePage page.toJson (some page.id) = .ok page := by
  obtain ⟨current, hcurrent, hv, -⟩ := update_yields h
  obtain ⟨hnamed, hgs⟩ := update_grants (shows_checked hcurrent) hv
  refine (validatePage_toJson (validatePage_checked hv) mem_some_id).mpr
    ⟨?_, reread_eq_self_iff.mpr ?_⟩
  all_goals
    intro g hg
    rw [hgs] at hg
    obtain ⟨g₀, hg₀, rfl⟩ := List.mem_map.mp hg
  · exact hnamed g₀ hg₀
  · simp only [Grant.reread, strip_strip]

omit [Python] in
/-- Submitting what was loaded submits the page itself. -/
theorem withGrants_toJson (page : Page) : withGrants page.accessGrants page.toJson = page.toJson := by
  rfl

/-- **What is stored is read back**, exactly if its document was tidy: for a
validated page, and for one that was created or replaced while no
revocation is under way. A page that was edited is always read back, and
an edit that submits a stored page as it was loaded changes nothing. -/
theorem stored_pages_round_trip_iff :
    (∀ payload requiredId page, validatePage payload requiredId = .ok page →
      (validatePage page.toJson none = .ok page ↔ Tidy payload)) ∧
    (∀ payload w page w', Yields (create payload) w page w' →
      w'.disk.content (.marker page.id) = none →
      (w'.disk.loads page.id = .ok page ↔ Tidy payload)) ∧
    (∀ id payload w page w', Yields (replaceUnlocked id payload) w page w' →
      w'.disk.content (.marker page.id) = none →
      (w'.disk.loads page.id = .ok page ↔ Tidy payload)) ∧
    (∀ id payload w page w', Yields (update id payload) w page w' →
      w'.disk.content (.marker page.id) = none → w'.disk.loads page.id = .ok page) ∧
    ∀ w w' stored shown page, Stored w.disk stored →
      w.disk.content (.marker stored.id) = none → w.disk.loads stored.id = .ok shown →
      Yields (update stored.id shown.toJson) w page w' →
      page = shown ∧ (w'.disk.content (.marker page.id) = none → w'.disk.loads page.id = .ok page) := by
  refine ⟨?_, ?_, ?_, ?_, ?_⟩
  · rintro payload requiredId page h
    exact validatePage_idem_iff h nofun
  · rintro payload w page w' h hm
    obtain ⟨hv, hstored⟩ := create_yields h
    rw [hstored.loads hm]
    exact validatePage_idem_iff hv mem_some_id
  · rintro id payload w page w' h hm
    obtain ⟨hv, hstored⟩ := replace_yields h
    rw [hstored.loads hm]
    exact validatePage_idem_iff hv mem_some_id
  · rintro id payload w page w' h hm
    obtain ⟨-, -, -, hstored⟩ := update_yields h
    rw [hstored.loads hm]
    exact update_idem h
  · rintro w w' stored shown page hstored hm hload h
    obtain ⟨current, hcurrent, hv, hstored'⟩ := update_yields h
    rw [hstored.loads hm] at hload
    obtain rfl : shown = current := by
      have hfile := onFile_eq_some.mpr ⟨_, hstored.1, hload⟩
      have hvisible : visible w.disk stored.id = some shown := by
        rw [visible, hfile, marked, hm]
        rfl
      rcases hcurrent with hcurrent | ⟨-, hcurrent⟩
      · exact Option.some.inj (hvisible.symm.trans hcurrent)
      · exact Option.some.inj (hfile.symm.trans hcurrent)
    rw [withGrants_toJson] at hv
    obtain ⟨-, v, requiredId, hvalidated⟩ := hstored
    have hagain := validatePage_reread hvalidated mem_some_id hload
    obtain rfl : page = shown := by
      rw [hagain] at hv
      exact (Except.ok.inj hv).symm
    exact ⟨rfl, fun hm' => (hstored'.loads hm').trans (update_idem h)⟩

/-! ## A lifetime cut behind a space -/

/-- The door's page as a request hands it in, with a lifetime of its own. -/
def doorPayload (lifetime : String) : Json :=
  .obj [("id", .str "door"), ("title", .str "Door"), ("access_grants", .arr [.obj [
    ("id", .str doorGrant.id), ("token_hash", .str doorGrant.tokenHash),
    ("created_at", .str doorGrant.createdAt), ("expires_at", .str doorGrant.expiresAt),
    ("label", .str "Guest"), ("lifetime", .str lifetime), ("qurl_id", .str "q1"),
    ("credential_flow", .str "bootstrap-v1"), ("resource_crid", .str "crid1")]])]

/-- The twenty characters that are kept end in a space. -/
def cutPage : Page :=
  { doorPage with accessGrants := [{ doorGrant with lifetime := "seven days and some " }] }

omit [Python] in
theorem stored_pages_round_trip_cut :
    letI := Python.plain
    ¬ ∀ payload page, validatePage payload none = .ok page →
      validatePage page.toJson none = .ok page := by
  let _ := Python.plain
  intro h
  have hcut : validatePage (doorPayload "seven days and some hours") none = .ok cutPage := by
    decide +kernel
  have hagain := h _ _ hcut
  have hnone : ∀ r ∈ (none : Option String), cutPage.id = r := nofun
  rw [validatePage_toJson (validatePage_checked hcut) hnone] at hagain
  have hlifetime := congrArg (fun p : Page => p.accessGrants.map (·.lifetime)) hagain.2
  revert hlifetime
  decide

/-- The store after the door's page was created in it. -/
def doorCreated : Host :=
  letI := Python.plain
  ((create (doorPayload "7d")).run.run FileOp.step ⟨.empty, []⟩).2

omit [Python] in
theorem stored_pages_round_trip_iff_door :
    letI := Python.plain
    Yields (create (doorPayload "7d")) ⟨.empty, []⟩ doorPage doorCreated ∧
      (doorCreated.disk.loads doorPage.id = .ok doorPage ↔ Tidy (doorPayload "7d")) := by
  let _ := Python.plain
  have hcreate : Yields (create (doorPayload "7d")) ⟨.empty, []⟩ doorPage doorCreated := by
    refine yields_of_fst ?_
    decide +kernel
  have hmarker : doorCreated.disk.content (.marker doorPage.id) = none := by
    rw [← Option.not_isSome_iff_eq_none]
    decide +kernel
  obtain ⟨-, hcreated, -⟩ := @stored_pages_round_trip_iff Python.plain
  exact ⟨hcreate, hcreated _ _ _ _ hcreate hmarker⟩

end Pages

end AccessPages
