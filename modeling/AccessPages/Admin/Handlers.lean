import AccessPages.Admin.Model
import AccessPages.Pages.Durable
/-!
# Admin — the rules of a handler

A handler asks the disk, the markers and the policy store, and any of its
steps can fail, be lost with its reply, or be the last one. `Handles` is
the rule it is checked by: what holds of the world wherever it may stop,
and what holds of its outcome, as long as no test for a file is blind. A
method of the page store keeps its own rule.
-/

namespace AccessPages

namespace Admin

open Pages (validatePageId)

/-- What an operation meets that is not blind. -/
abbrev SightedTick := { t : Tick // t.file.blind = false }

section Handles

variable {α β : Type} {A : Op → Prop} {J : World → Prop} {w : World}

/-- **The rule a handler is checked by**: whatever its steps meet, `A` holds
of all of them, `J` of the world wherever it may stop, and `Q` of its
outcome. -/
structure Handles (A : Op → Prop) (J : World → Prop) (x : AdminM α)
    (Q : Except Failure α → World → Prop) (w : World) : Prop where
  holds : Prog.Holds (fun t : SightedTick => Op.step t.1) J (fun ev => A ev.op) x.run Q w

/-- Nothing is asked of the steps. -/
def Any : Op → Prop := fun _ => True

theorem handles_mono {x : AdminM α} {Q Q' : Except Failure α → World → Prop}
    (h : Handles A J x Q w) (hQ : ∀ r w', J w' → Q r w' → Q' r w') : Handles A J x Q' w :=
  ⟨Prog.holds_mono h.holds hQ⟩

theorem handles_imp {x : AdminM α} {J' : World → Prop} {Q : Except Failure α → World → Prop}
    (h : Handles A J x Q w) (hJ : ∀ w', J w' → J' w') : Handles A J' x Q w :=
  ⟨Prog.holds_imp h.holds hJ fun _ _ _ _ he => he⟩

theorem handles_pure {a : α} {Q : Except Failure α → World → Prop} (hJ : J w) (hQ : Q (.ok a) w) :
    Handles A J (pure a) Q w := ⟨⟨hJ, hQ⟩⟩

theorem handles_throw {e : Failure} {Q : Except Failure α → World → Prop} (hJ : J w)
    (hQ : Q (.error e) w) : Handles A J (throw e) Q w := ⟨⟨hJ, hQ⟩⟩

theorem handles_ret {x : Except Failure α} {Q : Except Failure α → World → Prop} (hJ : J w)
    (hQ : Q x w) : Handles A J (ExceptT.mk (Prog.ret x)) Q w := ⟨⟨hJ, hQ⟩⟩

theorem handles_bind {x : AdminM α} {f : α → AdminM β} {Q : Except Failure β → World → Prop}
    (h : Handles A J x (fun r w' => match r with
      | .ok a => Handles A J (f a) Q w'
      | .error e => Q (.error e) w') w) : Handles A J (x >>= f) Q w := by
  refine ⟨Prog.holds_except_bind (Prog.holds_mono h.holds fun r w' _ hr => ?_)⟩
  cases r with
  | ok a => exact hr.holds
  | error e => exact hr

/-- One handler after another. -/
theorem handles_seq {x : AdminM α} {f : α → AdminM β} {P : Except Failure α → World → Prop}
    {Q : Except Failure β → World → Prop} (h : Handles A J x P w)
    (herror : ∀ e w', J w' → P (.error e) w' → Q (.error e) w')
    (hf : ∀ a w', J w' → P (.ok a) w' → Handles A J (f a) Q w') : Handles A J (x >>= f) Q w := by
  refine handles_bind (handles_mono h fun r w' hJ hr => ?_)
  cases r with
  | ok a => exact hf a w' hJ hr
  | error e => exact herror e w' hJ hr

theorem handles_attempt {x : AdminM α} {Q : Except Failure (Except Failure α) → World → Prop}
    (h : Handles A J x (fun r w' => Q (.ok r) w') w) : Handles A J (attempt x) Q w :=
  ⟨Prog.holds_bind.mpr (Prog.holds_mono h.holds fun _ _ hJ hr => ⟨hJ, hr⟩)⟩

end Handles

/-! ## Methods of the page store -/

section Store

variable {α β : Type} {A : Op → Prop} {w : World}

/-- The world with another disk. -/
def World.on (w : World) (d : Pages.Disk) : World := { w with disk := d }

/-- One operation of the store meets the first tick. -/
theorem fileOp_step_cons (e : Pages.FileOp) (d : Pages.Disk) (t : Pages.Tick)
    (ts : List Pages.Tick) :
    e.step ⟨d, t :: ts⟩ = ((e.step ⟨d, [t]⟩).1, ⟨(e.step ⟨d, [t]⟩).2.disk, ts⟩) := by
  unfold Pages.FileOp.step
  dsimp only
  by_cases hfails : e.fails t
  · rw [if_pos hfails, if_pos hfails]
  · rw [if_neg hfails, if_neg hfails]

theorem holds_expand {K : Pages.Disk → Prop} {Q : β → Pages.Disk → Prop}
    {p : Prog Pages.FileOp Pages.FileOp.Ans β} {d : Pages.Disk}
    (hA : Prog.Asks (fun e => A (.file e)) p)
    (h : ∀ ticks, Pages.Blind False ticks → Prog.Wp Pages.FileOp.step
      (fun v => Pages.Blind False v.ticks ∧ K v.disk) p (fun r v => Q r v.disk) ⟨d, ticks⟩) :
    Prog.Holds (fun t : SightedTick => Op.step t.1) (fun w' => ∃ d', K d' ∧ w' = w.on d')
      (fun ev => A ev.op) (p.expand fun e => Prog.call (.file e))
      (fun r w' => ∃ d', Q r d' ∧ w' = w.on d') (w.on d) := by
  induction p generalizing d with
  | ret b => exact ⟨⟨d, (h [] Pages.blind_nil).1.2, rfl⟩, d, (h [] Pages.blind_nil).2, rfl⟩
  | op e k ih =>
      refine ⟨⟨d, (h [] Pages.blind_nil).1.2, rfl⟩, fun t => ⟨hA.1, ?_⟩⟩
      refine ih _ (hA.2 _) fun ticks hticks => ?_
      have hsight : t.1.file.blind = true → False := fun hb => absurd (hb.symm.trans t.2) nofun
      have hnext := (h (t.1.file :: ticks) (Pages.blind_cons.mpr ⟨hsight, hticks⟩)).2
      rw [fileOp_step_cons] at hnext
      exact hnext

/-- **A method of the page store**, with the markers and the policies as they
are. -/
theorem handles_store {J : World → Prop} {x : Pages.FileM α}
    {Q : Except Failure α → World → Prop} (hA : Prog.Asks (fun e => A (.file e)) x.run)
    (h : Pages.Keeps False (fun d => J (w.on d)) x (fun r d => Q (r.mapError .page) (w.on d)) w.disk) :
    Handles A J (store x) Q w := by
  refine ⟨Prog.holds_bind.mpr ?_⟩
  have hx := @holds_expand _ A w (fun d => J (w.on d))
    (fun (r : Except Pages.PageError α) d => Q (r.mapError .page) (w.on d)) _ _ hA h.wp
  refine Prog.holds_mono (Prog.holds_imp hx ?_ fun _ _ _ _ he => he) ?_
  · rintro w' ⟨d, hd, rfl⟩
    exact hd
  · rintro r w' hJ ⟨d, hd, rfl⟩
    exact ⟨hJ, hd⟩

theorem asks_any (x : Pages.FileM α) : Prog.Asks (fun e => Any (.file e)) x.run := by
  generalize x.run = p
  induction p with
  | ret r => trivial
  | op e k ih => exact ⟨trivial, ih⟩

/-- The same, where nothing is asked of the steps. -/
theorem handles_store_any {J : World → Prop} {x : Pages.FileM α}
    {Q : Except Failure α → World → Prop}
    (h : Pages.Keeps False (fun d => J (w.on d)) x (fun r d => Q (r.mapError .page) (w.on d)) w.disk) :
    Handles Any J (store x) Q w := handles_store (asks_any x) h

end Store

/-! ## Markers and requests -/

section Calls

variable {A : Op → Prop} {J : World → Prop} {Q : Except Failure Unit → World → Prop} {w : World}
variable {e : Op}

/-- What an operation that may fail, applied or not, leads to. -/
structure Leads (A : Op → Prop) (J : World → Prop) (Q : Except Failure Unit → World → Prop)
    (e : Op) (error : Failure) (w : World) : Prop where
  asked : A e
  before : J w
  after : J (e.apply w)
  lost : Q (.error error) w
  unknown : Q (.error error) (e.apply w)
  done : Q (.ok ()) (e.apply w)

theorem Leads.settle {error : Failure} (h : Leads A J Q e error w) (t : Tick) :
    J (e.settle t error w).2 ∧ Q (e.settle t error w).1 (e.settle t error w).2 := by
  unfold Op.settle
  split
  · dsimp only
    split
    · exact ⟨h.after, h.unknown⟩
    · exact ⟨h.before, h.lost⟩
  · exact ⟨h.after, h.done⟩

theorem handles_openMarker {id : String} (h : Leads A J Q (.openMarker id) (.page .os) w) :
    Handles A J (ExceptT.mk (Prog.call (Op.openMarker id)) : AdminM Unit) Q w :=
  ⟨h.before, fun t => ⟨h.asked, h.settle t.1⟩⟩

theorem handles_syncMarkers (h : Leads A J Q .syncMarkers (.page .os) w) :
    Handles A J (ExceptT.mk (Prog.call Op.syncMarkers) : AdminM Unit) Q w :=
  ⟨h.before, fun t => ⟨h.asked, h.settle t.1⟩⟩

theorem handles_unlinkMarker {id : String} (h : Leads A J Q (.unlinkMarker id) (.page .os) w) :
    Handles A J (ExceptT.mk (Prog.call (Op.unlinkMarker id)) : AdminM Unit) Q w :=
  ⟨h.before, fun t => ⟨h.asked, h.settle t.1⟩⟩

theorem handles_put {id : String} {policy : Json} (h : Leads A J Q (.put id policy) .publish w) :
    Handles A J (ExceptT.mk (Prog.call (Op.put id policy)) : AdminM Unit) Q w :=
  ⟨h.before, fun t => ⟨h.asked, h.settle t.1⟩⟩

theorem handles_remove {id : String} (h : Leads A J Q (.remove id) .publish w) :
    Handles A J (ExceptT.mk (Prog.call (Op.remove id)) : AdminM Unit) Q w :=
  ⟨h.before, fun t => ⟨h.asked, h.settle t.1⟩⟩

end Calls

/-! ## The publisher -/

section Publisher

variable [Python] {A : Op → Prop} {J : World → Prop} {Q : Except Failure Unit → World → Prop}
variable {w : World} {cfg : Config} {id : String}

/-- The marker of a page is there. -/
def World.marked (w : World) (id : String) : World := (Op.openMarker id).apply w

/-- And not there. -/
def World.cleared (w : World) (id : String) : World := (Op.unlinkMarker id).apply w

/-- Where a page may be marked. -/
structure Markable (A : Op → Prop) (J : World → Prop) (Q : Except Failure Unit → World → Prop)
    (id : String) (w : World) : Prop where
  opened : A (.openMarker id)
  synced : A .syncMarkers
  holds : J (w.marked id)
  failed : ∀ e, Q (.error e) (w.marked id)
  done : Q (.ok ()) (w.marked id)

theorem handles_mark (hJ : J w) (herror : ∀ e, Q (.error e) w)
    (hmark : ∀ n, validatePageId (.str id) = .ok n → Markable A J Q n.1 w)
    (hplain : cfg.configured = false → Q (.ok ()) w) : Handles A J (mark cfg id) Q w := by
  unfold mark
  by_cases hc : cfg.configured = true
  · rw [if_pos hc]
    unfold markerId
    cases hid : validatePageId (.str id) with
    | error e => exact handles_bind (handles_ret hJ (herror _))
    | ok n =>
        have hn := hmark n hid
        refine handles_bind (handles_ret hJ ?_)
        refine handles_bind (handles_openMarker
          ⟨hn.opened, hJ, hn.holds, herror _, hn.failed _, ?_⟩)
        exact handles_syncMarkers
          ⟨hn.synced, hn.holds, hn.holds, hn.failed _, hn.failed _, hn.done⟩
  · rw [if_neg hc]
    exact handles_pure hJ (hplain (Bool.eq_false_iff.mpr hc))

/-- `prepare`: nothing happens, or the page is marked. -/
theorem handles_prepare (hJ : J w) (herror : ∀ e, Q (.error e) w)
    (hmark : ∀ n, validatePageId (.str id) = .ok n → Markable A J Q n.1 w)
    (hplain : cfg.configured = false → Q (.ok ()) w) : Handles A J (prepare cfg id) Q w := by
  unfold prepare
  -- whatever `mark` raises, `prepare` raises in the same world
  refine handles_seq (P := fun r w' => ∃ r', r = .ok r' ∧ (∀ e, Q (.error e) w') ∧
    (∀ u, r' = .ok u → Q (.ok ()) w')) (handles_attempt (handles_mark hJ ?_ ?_ ?_)) ?_ ?_
  · exact fun e => ⟨_, rfl, herror, nofun⟩
  · intro n hn
    have h := hmark n hn
    exact ⟨h.opened, h.synced, h.holds, fun e => ⟨_, rfl, h.failed, nofun⟩,
      _, rfl, h.failed, fun _ _ => h.done⟩
  · exact fun hc => ⟨_, rfl, herror, fun _ _ => hplain hc⟩
  · rintro e w' - ⟨r', hr, -⟩
    cases hr
  · rintro r w' hJ' ⟨r', hr, herror', hok⟩
    obtain rfl := Except.ok.inj hr
    split
    · exact handles_pure hJ' (hok _ rfl)
    · exact handles_throw hJ' (herror' _)
    · exact handles_throw hJ' (herror' _)

/-- `_clear` of a page with a marker: whether it goes or stays, nothing is
raised. -/
theorem handles_clear (hid : cfg.configured = true → Pages.pageIdRe id = true) (hJ : J w)
    (hunlink : A (.unlinkMarker id)) (hsync : A .syncMarkers) (hok : Q (.ok ()) w)
    (hclear : J (w.cleared id) ∧ Q (.ok ()) (w.cleared id)) : Handles A J (clear cfg id) Q w := by
  unfold clear
  by_cases hc : cfg.configured = true
  · rw [if_pos hc]
    refine handles_seq (P := fun r w' => ∃ r', r = .ok r' ∧ Q (.ok ()) w' ∧
      (r' = .ok () ∨ r' = .error (.page .os))) (handles_attempt ?_) ?_ ?_
    · unfold markerId
      rw [Pages.validatePageId_of_re (hid hc)]
      refine handles_bind (handles_ret hJ ?_)
      refine handles_bind (handles_unlinkMarker ⟨hunlink, hJ, hclear.1, ⟨_, rfl, hok, .inr rfl⟩,
        ⟨_, rfl, hclear.2, .inr rfl⟩, ?_⟩)
      exact handles_syncMarkers ⟨hsync, hclear.1, hclear.1, ⟨_, rfl, hclear.2, .inr rfl⟩,
        ⟨_, rfl, hclear.2, .inr rfl⟩, ⟨_, rfl, hclear.2, .inl rfl⟩⟩
    · rintro e w' - ⟨r', hr, -⟩
      cases hr
    · rintro r w' hJ' ⟨r', hr, hok', hr'⟩
      obtain rfl := Except.ok.inj hr
      rcases hr' with rfl | rfl
      · exact handles_pure hJ' hok'
      · exact handles_pure hJ' hok'
  · rw [if_neg hc]
    exact handles_pure hJ hok

end Publisher

/-! ## Which questions are asked -/

/-- The questions of the page store that leave its disk as it is. -/
def Reads : Pages.FileOp → Prop
  | .write .. | .unlink _ | .enqueue .. | .deleteQurl _ | .complete .. | .retry .. => False
  | _ => True

/-- The questions that are none of the page store's. -/
def Remote : Op → Prop
  | .file _ => False
  | _ => True

theorem settle_disk {e : Op} {error : Failure} {w : World} (h : (e.apply w).disk = w.disk)
    (t : Tick) : (e.settle t error w).2.disk = w.disk := by
  unfold Op.settle
  split
  · dsimp only
    split
    · exact h
    · rfl
  · exact h

theorem remote_disk {e : Op} (he : Remote e) (t : Tick) (w : World) :
    (e.step t w).2.disk = w.disk := by
  cases e with
  | file e => exact he.elim
  | listMarkers => rfl
  | openMarker id => exact @settle_disk (.openMarker id) _ w rfl t
  | syncMarkers => exact @settle_disk .syncMarkers _ w rfl t
  | unlinkMarker id => exact @settle_disk (.unlinkMarker id) _ w rfl t
  | put id policy => exact @settle_disk (.put id policy) _ w rfl t
  | remove id => exact @settle_disk (.remove id) _ w rfl t

section Questions

variable {α : Type} {A : Op → Prop} {B : Pages.FileOp → Prop}

theorem mapError_eq_ok {ε ε' α : Type} {x : Except ε α} {g : ε → ε'} {a : α}
    (h : x.mapError g = .ok a) : x = .ok a := by
  cases x with
  | ok b => exact congrArg _ (Except.ok.inj h)
  | error e => cases h

theorem returns_ask {e : Pages.FileOp} (h : B e) : Prog.Returns B (Pages.ask e) fun _ => True :=
  ⟨h, fun _ _ _ => trivial⟩

theorem returns_store {x : Pages.FileM α} {Q : α → Prop} (hfile : ∀ e, B e → A (.file e))
    (hx : Prog.Returns B x Q) : Prog.Returns A (store x) Q := by
  refine ⟨Prog.ends_bind (Prog.ends_mono (Prog.ends_expand hx.ends fun e he => ?_) ?_)⟩
  · exact ⟨hfile e he, fun _ => trivial⟩
  · intro r hr a ha
    exact hr a (mapError_eq_ok ha)

theorem returns_attempt {x : AdminM α} {Q : α → Prop} (hx : Prog.Returns A x Q) :
    Prog.Returns A (attempt x) fun _ => True :=
  ⟨Prog.ends_bind (Prog.ends_mono hx.ends fun _ _ _ _ => trivial)⟩

/-- What is asked of others leaves the disk as it is. -/
theorem handles_remote {x : AdminM α} {Q : α → Prop} {J : World → Prop} {w : World}
    (hx : Prog.Returns Remote x Q) (hJ : ∀ w', w'.disk = w.disk → J w') :
    Handles Any J x (fun _ w' => w'.disk = w.disk) w := by
  have hdisk : Prog.Holds (fun t : SightedTick => Op.step t.1) (fun w' => w'.disk = w.disk)
      (fun _ => True) x.run (fun r _ => ∀ a, r = .ok a → Q a) w :=
    hx.ends.holds rfl fun t e w' he hw' => (remote_disk he t.1 w').trans hw'
  refine handles_imp (J := fun w' => w'.disk = w.disk) ⟨Prog.holds_imp (Prog.holds_mono hdisk ?_)
    (fun _ h => h) fun _ _ _ _ _ => trivial⟩ hJ
  exact fun _ _ h _ => h

/-- What every question of a class keeps, a method of that class keeps. -/
theorem keeps_of_returns {S : Prop} {x : Pages.FileM α} {Q : α → Prop} {J : Pages.Disk → Prop}
    {d : Pages.Disk} (hx : Prog.Returns B x Q) (hJ : J d)
    (hstep : ∀ t e d, B e → J d → J (e.perform t d).2) :
    Pages.Keeps S J x (fun _ _ => True) d := by
  refine ⟨fun ticks hticks => Prog.wp_mono (hx.ends.wp ⟨hticks, hJ⟩ fun e v he hv => ?_)
    fun _ _ _ _ => trivial⟩
  obtain ⟨hblind, hv⟩ := hv
  unfold Pages.FileOp.step
  split
  · exact ⟨Pages.blind_nil, hstep _ e _ he hv⟩
  · rename_i t ticks hticks
    rw [hticks] at hblind
    have hrest := (Pages.blind_cons.mp hblind).2
    split
    · exact ⟨hrest, hv⟩
    · exact ⟨hrest, hstep _ e _ he hv⟩

/-! ### The publisher's -/

section Publisher

variable [Python] (hA : ∀ e, Remote e → A e)

include hA

theorem returns_mark (cfg : Config) (id : String) :
    Prog.Returns A (mark cfg id) fun _ => True := by
  unfold mark
  split
  · refine Prog.returns_bind (Q := fun _ => True) ⟨fun _ _ => trivial⟩ fun id _ => ?_
    refine Prog.returns_bind (Q := fun _ => True) ⟨hA (.openMarker id) trivial,
      fun _ _ _ => trivial⟩ fun _ _ => ?_
    exact ⟨hA .syncMarkers trivial, fun _ _ _ => trivial⟩
  · exact Prog.returns_pure trivial

theorem returns_prepare (cfg : Config) (id : String) :
    Prog.Returns A (prepare cfg id) fun _ => True := by
  unfold prepare
  refine Prog.returns_bind (returns_attempt (returns_mark hA cfg id)) fun r _ => ?_
  split
  · exact Prog.returns_pure trivial
  · exact Prog.returns_throw
  · exact Prog.returns_throw

theorem returns_clear (cfg : Config) (id : String) :
    Prog.Returns A (clear cfg id) fun _ => True := by
  unfold clear
  split
  · refine Prog.returns_bind (returns_attempt (Q := fun _ => True) ?_) fun r _ => ?_
    · refine Prog.returns_bind (Q := fun _ => True) ⟨fun _ _ => trivial⟩ fun id _ => ?_
      refine Prog.returns_bind (Q := fun _ => True) ⟨hA (.unlinkMarker id) trivial,
        fun _ _ _ => trivial⟩ fun _ _ => ?_
      exact ⟨hA .syncMarkers trivial, fun _ _ _ => trivial⟩
    · split
      · exact Prog.returns_pure trivial
      · exact Prog.returns_pure trivial
      · exact Prog.returns_throw
  · exact Prog.returns_pure trivial

theorem returns_publish (cfg : Config) (page : Pages.Page) :
    Prog.Returns A (publish cfg page) fun _ => True := by
  unfold publish
  refine Prog.returns_bind (returns_prepare hA cfg page.id) fun _ _ => ?_
  dsimp only
  split
  · refine Prog.returns_bind (Q := fun _ => True) ⟨hA (.put page.id (policyOf page)) trivial,
      fun _ _ _ => trivial⟩ fun _ _ => ?_
    exact returns_clear hA cfg page.id
  · exact returns_clear hA cfg page.id

end Publisher

/-! ### The page store's -/

section Store

variable (hB : ∀ e, Reads e → B e)

include hB

theorem returns_write {p : Pages.Path} {v : Json} (hw : B (.write p v)) :
    Prog.Returns B (Pages.write p v) fun _ => True := by
  refine Prog.returns_bind (returns_ask (hB _ trivial)) fun _ _ => ?_
  exact Prog.returns_bind (returns_ask hw) fun _ _ => returns_ask (hB _ trivial)

theorem returns_requireFile {id : String} :
    Prog.Returns B (Pages.requireFile id) fun _ => True := by
  refine Prog.returns_bind (returns_ask (hB _ trivial)) fun present _ => ?_
  split
  · exact Prog.returns_pure trivial
  · exact Prog.returns_throw

variable [Python]

omit hB in
theorem returns_checkId {id : String} : Prog.Returns B (Pages.checkId id) fun _ => True :=
  Prog.returns_bind (Prog.returns_lift fun _ _ => trivial) fun _ _ => Prog.returns_pure trivial

theorem returns_load {id : String} :
    Prog.Returns B (Pages.loadUnlocked id) fun _ => True := by
  refine Prog.returns_bind returns_checkId fun _ _ => ?_
  refine Prog.returns_bind (returns_requireFile hB) fun _ _ => ?_
  refine Prog.returns_bind (returns_ask (hB _ trivial)) fun content _ => ?_
  split
  · exact Prog.returns_throw
  · exact Prog.returns_throw
  · exact Prog.returns_throw
  · refine Prog.returns_bind (Prog.returns_lift fun _ _ => trivial) fun page _ => ?_
    refine Prog.returns_bind (returns_ask (hB _ trivial)) fun marked _ => ?_
    split
    · exact Prog.returns_pure trivial
    · exact Prog.returns_pure trivial

end Store

end Questions

end Admin

end AccessPages
