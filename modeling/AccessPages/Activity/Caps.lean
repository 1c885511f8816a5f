import AccessPages.Activity.Model
/-!
# Activity — the caps keep the newest rows

A guest's actions and a page's events are trimmed to the newest by the
texts of their times. The texts follow the times but within one second: a
whole second is written without a fraction, and its text comes after those
of the fractions that follow it. So the caps keep the last rows exactly as
long as the first row of a full log is not read as later than another.
-/

namespace AccessPages

namespace Activity

open CappedLog (ofOwner Numbered trim newestFirst)

/-! ## Texts that are read as their times -/

/-- The times of two texts, the earlier one first, are not misread. -/
def WellRead (a b : String) : Prop :=
  ∀ u v, InCalendar u → InCalendar v → a = zulu u → b = zulu v → ¬ Misread u v

/-- The first of the texts is read as the earliest, if they are more than
the cap. -/
def TextsRead (cap : Nat) (texts : List String) : Prop :=
  texts.length ≤ cap ∨ ∀ a rest, texts = a :: rest → ∀ b ∈ rest, WellRead a b

theorem zulu_ne {u v : Int} (hu : InCalendar u) (hv : InCalendar v) (h : u < v) :
    zulu u ≠ zulu v := by
  by_cases hm : Misread u v
  · exact (ne_of_lt (zulu_lt_of_misread hm)).symm
  · exact ne_of_lt (zulu_lt hu hv h hm)

theorem zulu_inj {u v : Int} (hu : InCalendar u) (hv : InCalendar v) (h : zulu u = zulu v) :
    u = v := by
  rcases lt_trichotomy u v with hlt | he | hlt
  · exact absurd h (zulu_ne hu hv hlt)
  · exact he
  · exact absurd h.symm (zulu_ne hv hu hlt)

theorem wellRead_zulu {u v : Int} (hu : InCalendar u) (hv : InCalendar v) :
    WellRead (zulu u) (zulu v) ↔ ¬ Misread u v := by
  constructor
  · exact fun h => h u v hu hv rfl rfl
  · intro h u' v' hu' hv' heu hev
    rwa [← zulu_inj hu hu' heu, ← zulu_inj hv hv' hev]

theorem zulu_le_iff {u v : Int} (hu : InCalendar u) (hv : InCalendar v) (h : u ≤ v) :
    zulu u ≤ zulu v ↔ WellRead (zulu u) (zulu v) := by
  rw [wellRead_zulu hu hv, ← not_lt, zulu_lt_iff hv hu]
  constructor
  · exact fun hno hm => hno (.inr hm)
  · rintro hm (⟨hlt, -⟩ | hm')
    · exact absurd hlt (not_lt.mpr h)
    · exact hm hm'

/-- Between a text and a bound that are read well, the texts decide as the
times do. -/
theorem not_zulu_le_iff {u v : Int} (hu : InCalendar u) (hv : InCalendar v)
    (huv : WellRead (zulu u) (zulu v)) (hvu : WellRead (zulu v) (zulu u)) :
    ¬ zulu u ≤ zulu v ↔ v < u := by
  rw [wellRead_zulu hu hv] at huv
  rw [wellRead_zulu hv hu] at hvu
  rw [not_le, zulu_lt_iff hv hu]
  constructor
  · rintro (⟨hlt, -⟩ | hm)
    · exact hlt
    · exact absurd hm huv
  · exact fun hlt => .inl ⟨hlt, hvu⟩

/-! ## Dated rows -/

section Dated

variable {ρ : Type} {c : CappedLog.Columns ρ String String} {key : String} {cap : Nat}

/-- A log of rows with the times they were recorded at. -/
structure Dated (c : CappedLog.Columns ρ String String) (log : List (Int × ρ)) : Prop where
  order : log.Pairwise fun a b => a.1 ≤ b.1
  calendar : ∀ e ∈ log, InCalendar e.1
  text : ∀ e ∈ log, c.occurredAt e.2 = zulu e.1

theorem Dated.sublist {log log' : List (Int × ρ)} (h : Dated c log) (hsub : log'.Sublist log) :
    Dated c log' :=
  ⟨h.order.sublist hsub, fun e he => h.calendar e (hsub.subset he),
    fun e he => h.text e (hsub.subset he)⟩

theorem rtake_map {α β : Type*} (f : α → β) (l : List α) (n : Nat) :
    (l.map f).rtake n = (l.rtake n).map f := by
  unfold List.rtake
  rw [List.length_map, List.map_drop]

theorem rtake_sublist {α : Type*} (l : List α) (n : Nat) : (l.rtake n).Sublist l := List.drop_sublist _ _

/-- **A capped log after one more record.** -/
theorem capped_append {log : List (Int × ρ)} {rows : List ρ} {r : ρ} {u : Int}
    (hnum : Numbered c (rows ++ [r])) (hr : c.owner r = key)
    (hown : ofOwner c key rows = (log.map Prod.snd).rtake cap) (hdated : Dated c (log ++ [(u, r)])) :
    ofOwner c key (trim c key cap (rows ++ [r])) = ((log ++ [(u, r)]).map Prod.snd).rtake cap ↔
      TextsRead cap ((ofOwner c key rows).map c.occurredAt ++ [zulu u]) := by
  rw [List.map_append, List.map_singleton, CappedLog.ofOwner_trim_append hnum hr hown]
  have hall : Dated c (log.rtake cap ++ [(u, r)]) :=
    hdated.sublist ((rtake_sublist log cap).append_right _)
  have happ : ofOwner c key (rows ++ [r]) = (log.rtake cap ++ [(u, r)]).map Prod.snd := by
    rw [List.map_append, ← rtake_map, ← hown]
    simp [ofOwner, hr]
  have htexts : (ofOwner c key rows).map c.occurredAt ++ [zulu u] =
      (log.rtake cap ++ [(u, r)]).map fun e => c.occurredAt e.2 := by
    rw [List.map_append, hown, rtake_map, List.map_map,
      ← hdated.text (u, r) (List.mem_append_right _ (List.mem_singleton_self _))]
    rfl
  unfold CappedLog.InOrder TextsRead
  rw [happ, htexts, List.length_map, List.length_map]
  refine or_congr_right ?_
  cases hl : log.rtake cap ++ [(u, r)] with
  | nil => exact absurd hl (List.append_ne_nil_of_right_ne_nil _ (List.cons_ne_nil _ _))
  | cons e es =>
      rw [hl] at hall
      have hle : ∀ f ∈ es, (c.occurredAt e.2 ≤ c.occurredAt f.2 ↔
          WellRead (c.occurredAt e.2) (c.occurredAt f.2)) := by
        intro f hf
        rw [hall.text e List.mem_cons_self, hall.text f (List.mem_cons_of_mem e hf)]
        exact zulu_le_iff (hall.calendar e List.mem_cons_self)
          (hall.calendar f (List.mem_cons_of_mem e hf)) ((List.pairwise_cons.mp hall.order).1 f hf)
      constructor
      · intro h a rest heq b hb
        obtain ⟨rfl, rfl⟩ := List.cons.inj heq
        obtain ⟨f, hf, rfl⟩ := List.mem_map.mp hb
        exact (hle f hf).mp (h e.2 _ rfl f.2 (List.mem_map_of_mem hf))
      · intro h a rest heq b hb
        obtain ⟨rfl, rfl⟩ := List.cons.inj heq
        obtain ⟨f, hf, rfl⟩ := List.mem_map.mp hb
        exact (hle f hf).mpr (h _ _ rfl _ (List.mem_map_of_mem hf))

end Dated

/-! ## Guests that stay -/

section Stay

variable {s : Store} {t : Tick} {g p : String}

theorem registered_iff : s.registered g = true ↔ ∃ r ∈ s.guests, r.grantId = g := by
  unfold Store.registered
  rw [Option.isSome_iff_exists]
  simp only [Table.find?_eq_some]

/-- A guest that is still registered was not deleted. -/
theorem not_deleted {q : Guest → Bool} (h : (s.deleteGuests q).registered g = true) :
    (s.guests.rows.any fun r => r.grantId = g && q r) = false := by
  obtain ⟨r, hr, hg⟩ := registered_iff.mp h
  obtain ⟨hr, hq⟩ := Table.mem_deleteWhere.mp hr
  rw [List.any_eq_false]
  intro r' hr' hp
  rw [Bool.and_eq_true, decide_eq_true_eq] at hp
  rw [Table.eq_of_key_eq hr' hr (hp.1.trans hg.symm), hq] at hp
  exact absurd hp.2 (by decide)

theorem actionsOf_deleteGuests {q : Guest → Bool}
    (h : (s.deleteGuests q).registered g = true ∨ s.actionsOf g = []) :
    (s.deleteGuests q).actionsOf g = s.actionsOf g := by
  rcases h with h | h
  · have hstay := not_deleted h
    unfold Store.actionsOf Store.deleteGuests ofOwner
    dsimp only
    rw [List.filter_filter]
    refine List.filter_congr fun a _ => ?_
    by_cases ha : actionColumns.owner a = g
    · have : a.grantId = g := ha
      simp [ha, this, hstay]
    · simp [ha]
  · rw [h]
    unfold Store.actionsOf Store.deleteGuests ofOwner at *
    dsimp only
    rw [List.filter_filter]
    refine List.filter_eq_nil_iff.mpr fun a ha hno => ?_
    exact List.filter_eq_nil_iff.mp h a ha (Bool.and_eq_true _ _ ▸ hno).1

theorem events_deleteGuests {q : Guest → Bool} (h : ∀ e ∈ s.events, ∀ g, e.grantId = some g →
    (s.deleteGuests q).registered g = true) : (s.deleteGuests q).events = s.events := by
  refine List.filter_eq_self.mpr fun e he => ?_
  cases hg : e.grantId with
  | none => rfl
  | some g => simpa using not_deleted (h e he g hg)

theorem actionsOf_purge (h : (s.purge t).registered g = true ∨ s.actionsOf g = []) :
    (s.purge t).actionsOf g = s.actionsOf g := actionsOf_deleteGuests h

theorem eventsOf_purge (h : ∀ e ∈ s.events, ∀ g, e.grantId = some g →
    (s.purge t).registered g = true) : (s.purge t).eventsOf p =
      (s.eventsOf p).filter fun e => !(e.occurredAt ≤ zulu (t.cutoff - retention)) := by
  have hevents := events_deleteGuests h
  unfold Store.purge Store.eventsOf ofOwner
  dsimp only
  rw [hevents, List.filter_filter, List.filter_filter]
  exact List.filter_congr fun e _ => Bool.and_comm _ _

end Stay

/-! ## What a call does -/

/-- Nothing but the guests' rows changed, and none is gone. -/
structure Grown (s s' : Store) : Prop where
  actions : s'.actions = s.actions
  events : s'.events = s.events
  nextAction : s'.nextAction = s.nextAction
  nextEvent : s'.nextEvent = s.nextEvent
  registered : ∀ g, s.registered g = true → s'.registered g = true

section Step

variable {s s' : Store} {t : Tick} {g p : String} {x : Call}

theorem Grown.refl (s : Store) : Grown s s := ⟨rfl, rfl, rfl, rfl, fun _ h => h⟩

theorem Grown.update {q : Guest → Bool} {f : Guest → Guest} (hf : ∀ r, (f r).grantId = r.grantId)
    (h : Grown s s') : Grown s { s' with guests := s'.guests.updateWhere q f hf } := by
  refine ⟨h.actions, h.events, h.nextAction, h.nextEvent, fun g hg => ?_⟩
  obtain ⟨r, hr, rfl⟩ := registered_iff.mp (h.registered g hg)
  exact registered_iff.mpr (Table.exists_key_updateWhere hf hr)

theorem grown_upsertGuest (s : Store) (pageId : String) (grant : Grant) :
    Grown s (s.upsertGuest pageId grant) := by
  unfold Store.upsertGuest
  split
  · refine ⟨rfl, rfl, rfl, rfl, fun g hg => ?_⟩
    rename_i hnone
    obtain ⟨r, hr, rfl⟩ := registered_iff.mp hg
    exact registered_iff.mpr ⟨r, Table.mem_insertOrReplace.mpr
      (.inl ⟨hr, Table.find?_eq_none.mp hnone r hr⟩), rfl⟩
  · exact (Grown.refl s).update _

/-- Whether a call, if it succeeds, purges. -/
def Op.purges : Op → Bool
  | .deleteRevokedGuest .. => false
  | .deletePage _ => false
  | _ => true

/-- The store a record leaves to be purged. -/
def Store.withAction (s : Store) (t : Tick) (r : ActionRecord) : Store :=
  { s with
    actions := trim actionColumns r.grantId maxActionsPerGuest (s.actions ++ [s.actionRow t r])
    nextAction := s.nextAction + 1 }

def Store.withEvent (s : Store) (t : Tick) (r : EventRecord) : Store :=
  { s with
    events := trim eventColumns r.pageId maxSecurityEventsPerPage (s.events ++ [s.eventRow t r])
    nextEvent := s.nextEvent + 1 }

/-- A call that takes effect: rows of guests are written, or a row is
recorded, and the store purged; or guests are deleted. -/
inductive Effect (s : Store) (t : Tick) : Op → Store → Prop where
  | grown {op : Op} {s₁ : Store} (h : Grown s s₁) (hop : op.purges = true)
      (ha : ∀ r, op ≠ .recordAction r) (he : ∀ r, op ≠ .recordSecurityEvent r) :
      Effect s t op (s₁.purge t)
  | action (r : ActionRecord) (h : s.registered r.grantId = true) :
      Effect s t (.recordAction r) ((s.withAction t r).purge t)
  | event (r : EventRecord) (h : (s.eventRow t r).grantId.all s.registered = true) :
      Effect s t (.recordSecurityEvent r) ((s.withEvent t r).purge t)
  | revoked (pageId grantId : String) (q : Guest → Bool) :
      Effect s t (.deleteRevokedGuest pageId grantId) (s.deleteGuests q)
  | page (pageId : String) (q : Guest → Bool) :
      Effect s t (.deletePage pageId)
        ({ s with events := s.events.filter fun e => e.pageId ≠ pageId }.deleteGuests q)

/-- **The effect of a call.** -/
theorem effect (h : s.transact x = some s') : Effect s x.1 x.2 s' := by
  obtain ⟨t, op⟩ := x
  unfold Store.transact at h
  split at h
  · cases h
  cases op with
  | registerGuest pageId grant =>
      obtain rfl := Option.some.inj h
      exact .grown (grown_upsertGuest s pageId grant) rfl nofun nofun
  | markRevoked pageId grant revokedAt =>
      obtain rfl := Option.some.inj h
      exact .grown ((grown_upsertGuest s pageId grant).update _) rfl nofun nofun
  | recordAction r =>
      simp only [Store.perform, Store.recordAction] at h
      split at h
      · obtain rfl := Option.some.inj h
        exact .action r ‹_›
      · cases h
  | recordRegisteredInitialAccess pageId grantId =>
      obtain rfl := Option.some.inj h
      exact .grown ((Grown.refl s).update _) rfl nofun nofun
  | recordSecurityEvent r =>
      simp only [Store.perform, Store.recordSecurityEvent] at h
      split at h
      · obtain rfl := Option.some.inj h
        exact .event r ‹_›
      · cases h
  | read =>
      obtain rfl := Option.some.inj h
      exact .grown (Grown.refl s) rfl nofun nofun
  | deleteRevokedGuest pageId grantId =>
      obtain rfl := Option.some.inj h
      exact .revoked pageId grantId _
  | deletePage pageId =>
      obtain rfl := Option.some.inj h
      exact .page pageId _

/-- Rows are numbered, and belong to registered guests. -/
structure Sound (s : Store) : Prop where
  actions : Numbered actionColumns s.actions
  nextAction : ∀ a ∈ s.actions, a.id < s.nextAction
  actionGuest : ∀ a ∈ s.actions, s.registered a.grantId = true
  events : Numbered eventColumns s.events
  nextEvent : ∀ e ∈ s.events, e.id < s.nextEvent
  eventGuest : ∀ e ∈ s.events, ∀ g, e.grantId = some g → s.registered g = true

theorem Sound.empty : Sound .empty := ⟨.nil, nofun, nofun, .nil, nofun, nofun⟩

theorem Sound.grown (h : Sound s) (hg : Grown s s') : Sound s' := by
  obtain ⟨ha, he, hna, hne, hreg⟩ := hg
  refine ⟨ha ▸ h.actions, ?_, ?_, he ▸ h.events, ?_, ?_⟩
  · rw [ha, hna]
    exact h.nextAction
  · rw [ha]
    exact fun a hmem => hreg _ (h.actionGuest a hmem)
  · rw [he, hne]
    exact h.nextEvent
  · rw [he]
    exact fun e hmem g hg => hreg g (h.eventGuest e hmem g hg)

theorem Sound.filterEvents {q : Event → Bool} (h : Sound s) :
    Sound { s with events := s.events.filter q } :=
  ⟨h.actions, h.nextAction, h.actionGuest, h.events.sublist List.filter_sublist,
    fun e he => h.nextEvent e (List.mem_filter.mp he).1,
    fun e he => h.eventGuest e (List.mem_filter.mp he).1⟩

theorem registered_deleteGuests {q : Guest → Bool} (h : s.registered g = true)
    (hq : (s.guests.rows.any fun r => r.grantId = g && q r) = false) :
    (s.deleteGuests q).registered g = true := by
  obtain ⟨r, hr, rfl⟩ := registered_iff.mp h
  refine registered_iff.mpr ⟨r, Table.mem_deleteWhere.mpr ⟨hr, ?_⟩, rfl⟩
  have := List.any_eq_false.mp hq r hr
  simpa using this

theorem Sound.deleteGuests {q : Guest → Bool} (h : Sound s) : Sound (s.deleteGuests q) := by
  refine ⟨h.actions.sublist List.filter_sublist, fun a ha => h.nextAction a (List.mem_filter.mp ha).1,
    fun a ha => ?_, h.events.sublist List.filter_sublist,
    fun e he => h.nextEvent e (List.mem_filter.mp he).1, fun e he g hg => ?_⟩
  · obtain ⟨ha, hgone⟩ := List.mem_filter.mp ha
    exact registered_deleteGuests (h.actionGuest a ha) (by simpa using hgone)
  · obtain ⟨he, hgone⟩ := List.mem_filter.mp he
    rw [hg] at hgone
    exact registered_deleteGuests (h.eventGuest e he g hg) (by simpa using hgone)

theorem Sound.purge (h : Sound s) : Sound (s.purge t) := h.deleteGuests.filterEvents

theorem numbered_action (h : Sound s) (r : ActionRecord) :
    Numbered actionColumns (s.actions ++ [s.actionRow t r]) := by
  refine List.pairwise_append.mpr ⟨h.actions, List.pairwise_singleton _ _, fun a ha b hb => ?_⟩
  obtain rfl := List.mem_singleton.mp hb
  exact h.nextAction a ha

theorem numbered_event (h : Sound s) (r : EventRecord) :
    Numbered eventColumns (s.events ++ [s.eventRow t r]) := by
  refine List.pairwise_append.mpr ⟨h.events, List.pairwise_singleton _ _, fun a ha b hb => ?_⟩
  obtain rfl := List.mem_singleton.mp hb
  exact h.nextEvent a ha

theorem Sound.withAction {r : ActionRecord} (h : Sound s) (hr : s.registered r.grantId = true) :
    Sound (s.withAction t r) := by
  have hmem : ∀ a ∈ (s.withAction t r).actions, a ∈ s.actions ∨ a = s.actionRow t r := by
    intro a ha
    have := List.mem_append.mp (List.mem_filter.mp ha).1
    exact this.imp_right List.mem_singleton.mp
  refine ⟨(numbered_action h r).sublist List.filter_sublist, fun a ha => ?_, fun a ha => ?_,
    h.events, h.nextEvent, h.eventGuest⟩
  · rcases hmem a ha with ha | rfl
    · exact Nat.lt_succ_of_lt (h.nextAction a ha)
    · exact Nat.lt_succ_self _
  · rcases hmem a ha with ha | rfl
    · exact h.actionGuest a ha
    · exact hr

theorem Sound.withEvent {r : EventRecord} (h : Sound s)
    (hr : (s.eventRow t r).grantId.all s.registered = true) : Sound (s.withEvent t r) := by
  have hmem : ∀ e ∈ (s.withEvent t r).events, e ∈ s.events ∨ e = s.eventRow t r := by
    intro e he
    have := List.mem_append.mp (List.mem_filter.mp he).1
    exact this.imp_right List.mem_singleton.mp
  refine ⟨h.actions, h.nextAction, h.actionGuest,
    (numbered_event h r).sublist List.filter_sublist, fun e he => ?_, fun e he g hg => ?_⟩
  · rcases hmem e he with he | rfl
    · exact Nat.lt_succ_of_lt (h.nextEvent e he)
    · exact Nat.lt_succ_self _
  · rcases hmem e he with he | rfl
    · exact h.eventGuest e he g hg
    · rw [hg] at hr
      exact hr

theorem Sound.effect {op : Op} (h : Sound s) (he : Effect s t op s') : Sound s' := by
  cases he with
  | grown hg => exact (h.grown hg).purge
  | action r hr => exact (h.withAction hr).purge
  | event r hr => exact (h.withEvent hr).purge
  | revoked _ _ q => exact h.deleteGuests
  | page pageId q => exact h.filterEvents.deleteGuests

/-- A call takes effect, or changes nothing. -/
theorem step_cases (s : Store) (x : Call) :
    (s.transact x = none ∧ s.step x = s) ∨
      ∃ s', s.transact x = some s' ∧ s.step x = s' ∧ Effect s x.1 x.2 s' := by
  unfold Store.step
  cases h : s.transact x with
  | none => exact .inl ⟨rfl, rfl⟩
  | some s' => exact .inr ⟨s', rfl, rfl, effect h⟩

theorem Sound.step (h : Sound s) (x : Call) : Sound (s.step x) := by
  rcases step_cases s x with ⟨-, he⟩ | ⟨s', -, he, heff⟩
  · rwa [he]
  · rw [he]
    exact h.effect heff

end Step

/-! ## What was recorded -/

/-- The rows calls record, with their times. -/
def history {ρ : Type} (new : Store → Call → List (Int × ρ)) : Store → List Call → List (Int × ρ)
  | _, [] => []
  | s, x :: xs => new s x ++ history new (s.step x) xs

/-- The action a call records of a guest, if it does not raise. -/
def newAction (g : String) (s : Store) (x : Call) : List (Int × Action) :=
  match x.2 with
  | .recordAction r =>
      if r.grantId = g ∧ (s.transact x).isSome then [(x.1.now, s.actionRow x.1 r)] else []
  | _ => []

/-- The event a call records of a page, if it does not raise. -/
def newEvent (p : String) (s : Store) (x : Call) : List (Int × Event) :=
  match x.2 with
  | .recordSecurityEvent r =>
      if r.pageId = p ∧ (s.transact x).isSome then [(x.1.now, s.eventRow x.1 r)] else []
  | _ => []

/-- The clock does not go back from one call to the next. -/
def Clocked (xs : List Call) : Prop := xs.Pairwise fun x y => x.1.purge ≤ y.1.now

theorem Tick.now_inCalendar (t : Tick) : InCalendar t.now := by
  have hfirst := t.first.first
  have hlast := t.last.last
  obtain ⟨hc, hp⟩ := t.ordered
  unfold retention retentionDays second at *
  exact ⟨by unfold second; omega, by unfold second; omega⟩

theorem Tick.cutoff_inCalendar (t : Tick) : InCalendar (t.cutoff - retention) := by
  have hfirst := t.first.first
  have hlast := t.last.last
  obtain ⟨hc, hp⟩ := t.ordered
  unfold retention retentionDays second at *
  exact ⟨by unfold second; omega, by unfold second; omega⟩

section History

variable {ρ : Type} {new : Store → Call → List (Int × ρ)} {s : Store} {xs : List Call} {x : Call}
  {c : CappedLog.Columns ρ String String}

theorem history_snoc (new : Store → Call → List (Int × ρ)) (s : Store) (xs : List Call) (x : Call) :
    history new s (xs ++ [x]) = history new s xs ++ new (s.after xs) x := by
  induction xs generalizing s with
  | nil => exact List.append_nil _
  | cons y ys ih =>
      rw [List.cons_append, history, ih, ← List.append_assoc]
      rfl

theorem after_snoc (s : Store) (xs : List Call) (x : Call) :
    s.after (xs ++ [x]) = (s.after xs).step x := List.foldl_append

/-- A call records at most one row, with the time it has read. -/
def Stamps (c : CappedLog.Columns ρ String String) (new : Store → Call → List (Int × ρ)) : Prop :=
  ∀ s x, new s x = [] ∨ ∃ r, new s x = [(x.1.now, r)] ∧ c.occurredAt r = zulu x.1.now

theorem stamps_newAction (g : String) : Stamps actionColumns (newAction g) := by
  intro s x
  unfold newAction
  split
  · split
    · exact .inr ⟨_, rfl, rfl⟩
    · exact .inl rfl
  · exact .inl rfl

theorem stamps_newEvent (p : String) : Stamps eventColumns (newEvent p) := by
  intro s x
  unfold newEvent
  split
  · split
    · exact .inr ⟨_, rfl, rfl⟩
    · exact .inl rfl
  · exact .inl rfl

theorem time_of_mem_history (hnew : Stamps c new) {e : Int × ρ} (h : e ∈ history new s xs) :
    ∃ y ∈ xs, e.1 = y.1.now := by
  induction xs generalizing s with
  | nil => cases h
  | cons y ys ih =>
      rcases List.mem_append.mp h with h | h
      · refine ⟨y, List.mem_cons_self, ?_⟩
        rcases hnew s y with hnil | ⟨r, hr, -⟩
        · rw [hnil] at h
          cases h
        · rw [hr, List.mem_singleton] at h
          rw [h]
      · obtain ⟨z, hz, he⟩ := ih h
        exact ⟨z, List.mem_cons_of_mem y hz, he⟩

/-- **A history is dated**, under a clock that does not go back. -/
theorem dated_history (hnew : Stamps c new) (hclock : Clocked xs) : Dated c (history new s xs) := by
  induction xs using List.reverseRecOn with
  | nil => exact ⟨.nil, nofun, nofun⟩
  | append_singleton xs x ih =>
      obtain ⟨hxs, -, hlast⟩ := List.pairwise_append.mp hclock
      have ih := ih hxs
      rw [history_snoc]
      rcases hnew (s.after xs) x with hnil | ⟨r, hr, htext⟩
      · rwa [hnil, List.append_nil]
      · rw [hr]
        refine ⟨List.pairwise_append.mpr ⟨ih.order, List.pairwise_singleton _ _, ?_⟩, ?_, ?_⟩
        · intro a ha b hb
          obtain rfl := List.mem_singleton.mp hb
          obtain ⟨y, hy, he⟩ := time_of_mem_history hnew ha
          have := hlast y hy x (List.mem_singleton_self x)
          have := y.1.ordered
          dsimp only
          omega
        · intro e he
          rcases List.mem_append.mp he with he | he
          · exact ih.calendar e he
          · rw [List.mem_singleton.mp he]
            exact x.1.now_inCalendar
        · intro e he
          rcases List.mem_append.mp he with he | he
          · exact ih.text e he
          · rw [List.mem_singleton.mp he]
            exact htext

theorem Sound.after (xs : List Call) : Sound (Store.empty.after xs) := by
  induction xs using List.reverseRecOn with
  | nil => exact .empty
  | append_singleton xs x ih =>
      rw [after_snoc]
      exact ih.step x

end History

/-! ## The actions of a guest -/

/-- A call that records an action of the guest reads the actions well. -/
def ActionsRead (g : String) (s : Store) (x : Call) : Prop :=
  ∀ r, x.2 = .recordAction r → r.grantId = g → (s.transact x).isSome = true →
    TextsRead maxActionsPerGuest ((s.actionsOf g).map Action.occurredAt ++ [zulu x.1.now])

section Actions

variable {s : Store} {g : String} {x : Call}

theorem newAction_eq_nil (h : ∀ r, x.2 = .recordAction r → r.grantId = g → s.transact x = none) :
    newAction g s x = [] := by
  unfold newAction
  split
  · rename_i r hop
    refine if_neg fun hr => ?_
    rw [h r hop hr.1] at hr
    cases hr.2
  · rfl

/-- **A call records an action of the guest, or leaves the guest's actions
as they are**, while the guest stays. -/
theorem actionsOf_step (hs : Sound s)
    (hstay : s.registered g = true → (s.step x).registered g = true) :
    ((∀ r, x.2 = .recordAction r → r.grantId = g → s.transact x = none) ∧
      (s.step x).actionsOf g = s.actionsOf g) ∨
    ∃ r, x.2 = .recordAction r ∧ r.grantId = g ∧ (s.transact x).isSome = true ∧
      (s.step x).actionsOf g = ofOwner actionColumns g
        (trim actionColumns g maxActionsPerGuest (s.actions ++ [s.actionRow x.1 r])) := by
  have hnone : s.registered g = false → s.actionsOf g = [] := by
    intro hno
    refine List.filter_eq_nil_iff.mpr fun a ha hg => ?_
    have hreg := hs.actionGuest a ha
    rw [show a.grantId = g from of_decide_eq_true hg, hno] at hreg
    cases hreg
  rcases step_cases s x with ⟨hfail, he⟩ | ⟨s', hok, he, heff⟩
  · rw [he]
    exact .inl ⟨fun _ _ _ => hfail, rfl⟩
  rw [he] at hstay ⊢
  have hkept : s'.registered g = true ∨ s.actionsOf g = [] := by
    cases hreg : s.registered g with
    | true => exact .inl (hstay hreg)
    | false => exact .inr (hnone hreg)
  obtain ⟨t, op⟩ := x
  cases heff with
  | grown hgrown hop ha he =>
      have hsame : ∀ {s₁ : Store}, Grown s s₁ → s₁.actionsOf g = s.actionsOf g := by
        intro s₁ h
        unfold Store.actionsOf
        rw [h.actions]
      refine .inl ⟨fun r hr => absurd hr (ha r), ?_⟩
      rw [actionsOf_purge (by rwa [hsame hgrown]), hsame hgrown]
  | action r hr =>
      by_cases hg : r.grantId = g
      · subst hg
        refine .inr ⟨r, rfl, rfl, by rw [hok]; rfl, ?_⟩
        exact actionsOf_purge (.inl (hstay hr))
      · have hsame : (s.withAction t r).actionsOf g = s.actionsOf g := by
          refine (CappedLog.ofOwner_trim_of_ne (Ne.symm hg)).trans ?_
          have hne : actionColumns.owner (s.actionRow t r) ≠ g := hg
          simp [ofOwner, Store.actionsOf, hne]
        refine .inl ⟨fun r' hr' hg' => ?_, ?_⟩
        · obtain rfl := Op.recordAction.inj hr'
          exact absurd hg' hg
        · rw [actionsOf_purge (by rwa [hsame]), hsame]
  | event r hr => exact .inl ⟨nofun, actionsOf_purge hkept⟩
  | revoked _ _ q => exact .inl ⟨nofun, actionsOf_deleteGuests hkept⟩
  | page pageId q =>
      exact .inl ⟨nofun, actionsOf_deleteGuests
        (s := { s with events := s.events.filter fun e => e.pageId ≠ pageId }) hkept⟩

/-- **One call keeps the last actions** exactly if it reads them well. -/
theorem actions_step_iff {log : List (Int × Action)} (hs : Sound s)
    (hstay : s.registered g = true → (s.step x).registered g = true)
    (hown : s.actionsOf g = (log.map Prod.snd).rtake maxActionsPerGuest)
    (hdated : Dated actionColumns (log ++ newAction g s x)) :
    (s.step x).actionsOf g =
        ((log ++ newAction g s x).map Prod.snd).rtake maxActionsPerGuest ↔ ActionsRead g s x := by
  rcases actionsOf_step hs hstay with ⟨hno, he⟩ | ⟨r, hop, hg, hok, he⟩
  · rw [newAction_eq_nil hno, List.append_nil, he]
    refine ⟨fun _ r hop hg hok => ?_, fun _ => hown⟩
    rw [hno r hop hg] at hok
    cases hok
  · have hnew : newAction g s x = [(x.1.now, s.actionRow x.1 r)] := by
      unfold newAction
      rw [hop]
      exact if_pos ⟨hg, hok⟩
    rw [hnew] at hdated ⊢
    rw [he, capped_append (numbered_action hs r) hg hown hdated]
    constructor
    · exact fun h _ _ _ _ => h
    · exact fun h => h r hop hg hok

end Actions

/-- The guest is never deleted. -/
def Stays (g : String) (xs : List Call) : Prop :=
  ∀ pre x post, xs = pre ++ x :: post → (Store.empty.after pre).registered g = true →
    (Store.empty.after (pre ++ [x])).registered g = true

/-- The guest's actions are the last ones recorded. -/
def KeepsActions (g : String) (xs : List Call) : Prop :=
  (Store.empty.after xs).actionsOf g =
    ((history (newAction g) .empty xs).map Prod.snd).rtake maxActionsPerGuest

theorem keepsActions_snoc_iff {g : String} {pre post : List Call} {x : Call}
    (hclock : Clocked (pre ++ x :: post)) (hstays : Stays g (pre ++ x :: post))
    (h : KeepsActions g pre) :
    KeepsActions g (pre ++ [x]) ↔ ActionsRead g (Store.empty.after pre) x := by
  have hstay := hstays pre x post rfl
  have hdated : Dated actionColumns (history (newAction g) .empty (pre ++ [x])) := by
    refine dated_history (stamps_newAction g) (hclock.sublist ?_)
    exact (List.singleton_sublist.mpr List.mem_cons_self).append_left pre
  rw [history_snoc] at hdated
  rw [after_snoc] at hstay
  unfold KeepsActions
  rw [after_snoc, history_snoc]
  exact actions_step_iff (Sound.after pre) hstay h hdated

/-- **The actions of a guest that stays are the last ones recorded** after
each call, exactly if each call reads them well. -/
theorem actions_capped_iff {g : String} {xs : List Call} (hclock : Clocked xs)
    (hstays : Stays g xs) :
    (∀ pre x post, xs = pre ++ x :: post → ActionsRead g (Store.empty.after pre) x) ↔
      ∀ pre post, xs = pre ++ post → KeepsActions g pre := by
  constructor
  · intro hread pre
    induction pre using List.reverseRecOn with
    | nil => exact fun _ _ => (List.rtake_nil _).symm
    | append_singleton pre x ih =>
        rintro post rfl
        rw [List.append_assoc, List.singleton_append] at hclock hstays hread ih
        exact (keepsActions_snoc_iff hclock hstays (ih _ rfl)).mpr (hread pre x post rfl)
  · rintro hkeeps pre x post rfl
    refine (keepsActions_snoc_iff hclock hstays (hkeeps pre _ rfl)).mp (hkeeps _ post ?_)
    rw [List.append_assoc, List.singleton_append]

/-! ## The events of a page -/

/-- The texts of a page's events when a call trims them. -/
def eventTexts (p : String) (s : Store) (x : Call) : List String :=
  (s.eventsOf p).map Event.occurredAt ++ (newEvent p s x).map fun e => zulu e.1

/-- A call that does not raise reads the events of the page well: when it
trims them, and then when it purges those it leaves. -/
def EventsRead (p : String) (s : Store) (x : Call) : Prop :=
  (s.transact x).isSome = true → x.2.purges = true →
    TextsRead maxSecurityEventsPerPage (eventTexts p s x) ∧
    ∀ text ∈ (eventTexts p s x).rtake maxSecurityEventsPerPage,
      WellRead text (zulu (x.1.cutoff - retention)) ∧ WellRead (zulu (x.1.cutoff - retention)) text

/-- A page identifier that is stored whole, as every caller's is. -/
def FitsPage (x : Call) : Prop := ∀ r, x.2 = .recordSecurityEvent r → r.pageId.length ≤ 64

/-- The events of a page after a time, of those recorded. -/
def since (bound : Int) (log : List (Int × Event)) : List Event :=
  (log.filter fun e => bound < e.1).map Prod.snd

section Events

variable {s : Store} {p : String} {x : Call}

theorem slice_eq_self {a : String} {n : Nat} (h : a.length ≤ n) : slice a n = a := by
  unfold slice
  rw [List.take_of_length_le (by rwa [String.length_toList]), String.ofList_toList]

/-- The events of the page that a call leaves to be purged. -/
def eventsLeft (p : String) (s : Store) (x : Call) : List Event :=
  match x.2 with
  | .recordSecurityEvent r =>
      if r.pageId = p then ofOwner eventColumns p
        (trim eventColumns p maxSecurityEventsPerPage (s.events ++ [s.eventRow x.1 r]))
      else s.eventsOf p
  | _ => s.eventsOf p

/-- **What a call does to a page's events**, when it deletes neither a guest
nor the page. -/
theorem eventsOf_step (hs : Sound s)
    (hstay : ∀ g, s.registered g = true → (s.step x).registered g = true)
    (hpage : x.2 ≠ .deletePage p) (hfit : FitsPage x) :
    ((s.transact x).isSome = true ∧ x.2.purges = true ∧ (s.step x).eventsOf p =
      (eventsLeft p s x).filter fun e => !(e.occurredAt ≤ zulu (x.1.cutoff - retention))) ∨
    (((s.transact x).isSome = true → x.2.purges = false) ∧
      (s.step x).eventsOf p = s.eventsOf p) := by
  rcases step_cases s x with ⟨hfail, he⟩ | ⟨s', hok, he, heff⟩
  · rw [he]
    exact .inr ⟨fun hok => (by rw [hfail] at hok; cases hok), rfl⟩
  rw [he] at hstay ⊢
  have hsome : (s.transact x).isSome = true := by rw [hok]; rfl
  obtain ⟨t, op⟩ := x
  cases heff with
  | @grown _ s₁ hgrown hop ha hev =>
      refine .inl ⟨hsome, hop, ?_⟩
      have hsame : s₁.eventsOf p = s.eventsOf p := by
        unfold Store.eventsOf
        rw [hgrown.events]
      have hleft : eventsLeft p s (t, op) = s.eventsOf p := by
        unfold eventsLeft
        split
        · exact absurd ‹_› (hev _)
        · rfl
      rw [hleft, ← hsame]
      refine eventsOf_purge fun e he g hg => hstay g ?_
      rw [hgrown.events] at he
      exact hs.eventGuest e he g hg
  | action r hr =>
      exact .inl ⟨hsome, rfl, eventsOf_purge fun e he g hg => hstay g (hs.eventGuest e he g hg)⟩
  | event r hr =>
      refine .inl ⟨hsome, rfl, ?_⟩
      have hslice : slice r.pageId 64 = r.pageId := slice_eq_self (hfit r rfl)
      have hleft : eventsLeft p s (t, .recordSecurityEvent r) = (s.withEvent t r).eventsOf p := by
        unfold eventsLeft
        dsimp only
        split
        · rename_i hp
          rw [← hp]
          rfl
        · rename_i hp
          refine ((CappedLog.ofOwner_trim_of_ne (Ne.symm hp)).trans ?_).symm
          have hne : eventColumns.owner (s.eventRow t r) ≠ p := by
            show slice r.pageId 64 ≠ p
            rwa [hslice]
          simp [ofOwner, Store.eventsOf, hne]
      rw [hleft]
      refine eventsOf_purge fun e he g hg => hstay g ?_
      exact (hs.withEvent hr).eventGuest e he g hg
  | revoked pageId grantId q =>
      refine .inr ⟨fun _ => rfl, ?_⟩
      unfold Store.eventsOf
      rw [events_deleteGuests fun e he g hg => hstay g (hs.eventGuest e he g hg)]
  | page pageId q =>
      refine .inr ⟨fun _ => rfl, ?_⟩
      have hne : pageId ≠ p := fun h => hpage (h ▸ rfl)
      unfold Store.eventsOf
      rw [events_deleteGuests fun e he g hg =>
        hstay g (hs.eventGuest e (List.mem_filter.mp he).1 g hg)]
      unfold ofOwner
      rw [List.filter_filter]
      refine List.filter_congr fun e _ => ?_
      by_cases hp : eventColumns.owner e = p
      · have : e.pageId ≠ pageId := fun h => hne (h.symm.trans hp)
        simp [hp, this]
      · simp [hp]

theorem rtake_rtake_append {α : Type*} (l m : List α) (n : Nat) :
    (l.rtake n ++ m).rtake n = (l ++ m).rtake n := by
  rw [List.rtake_eq_reverse_take_reverse, List.rtake_eq_reverse_take_reverse,
    List.rtake_eq_reverse_take_reverse, List.reverse_append, List.reverse_append,
    List.reverse_reverse, List.take_append, List.take_append, List.take_take,
    Nat.min_eq_left (Nat.sub_le _ _)]

theorem newEvent_cases (p : String) (s : Store) (x : Call) (hok : (s.transact x).isSome = true) :
    (∃ r, x.2 = .recordSecurityEvent r ∧ r.pageId = p ∧
      newEvent p s x = [(x.1.now, s.eventRow x.1 r)] ∧ eventsLeft p s x = ofOwner eventColumns p
        (trim eventColumns p maxSecurityEventsPerPage (s.events ++ [s.eventRow x.1 r]))) ∨
    (newEvent p s x = [] ∧ eventsLeft p s x = s.eventsOf p) := by
  unfold newEvent eventsLeft
  split
  · rename_i r hop
    by_cases hp : r.pageId = p
    · exact .inl ⟨r, hop, hp, if_pos ⟨hp, hok⟩, if_pos hp⟩
    · exact .inr ⟨if_neg fun h => hp h.1, if_neg hp⟩
  · exact .inr ⟨rfl, rfl⟩

/-- What a call records is inside every retention period before it. -/
theorem filter_newEvent {bound : Int} (hbound : bound < x.1.now) :
    ((newEvent p s x).filter fun e => bound < e.1) = newEvent p s x := by
  refine List.filter_eq_self.mpr fun e he => ?_
  rcases stamps_newEvent p s x with hnil | ⟨r, hr, -⟩
  · rw [hnil] at he
    cases he
  · rw [hr, List.mem_singleton] at he
    rw [he]
    exact decide_eq_true hbound

/-- What is left to be purged, of a log whose bound is before the call. -/
theorem eventsLeft_eq {log : List (Int × Event)} {bound : Int} (hs : Sound s) (hfit : FitsPage x)
    (hok : (s.transact x).isSome = true)
    (hown : s.eventsOf p = (since bound log).rtake maxSecurityEventsPerPage)
    (hbound : bound < x.1.now) (hdated : Dated eventColumns (log ++ newEvent p s x))
    (htexts : TextsRead maxSecurityEventsPerPage (eventTexts p s x)) :
    eventsLeft p s x =
      (since bound (log ++ newEvent p s x)).rtake maxSecurityEventsPerPage := by
  have hsplit : since bound (log ++ newEvent p s x) =
      ((log.filter fun e => bound < e.1) ++ newEvent p s x).map Prod.snd := by
    unfold since
    rw [List.filter_append, filter_newEvent hbound]
  rw [hsplit]
  unfold eventTexts at htexts
  rcases newEvent_cases p s x hok with ⟨r, hop, hp, hnew, hleft⟩ | ⟨hnew, hleft⟩
  · have hslice : (s.eventRow x.1 r).pageId = p := (slice_eq_self (hfit r hop)).trans hp
    rw [hnew] at hdated htexts ⊢
    rw [hleft]
    exact (capped_append (numbered_event hs r) hslice hown
      (hdated.sublist (List.filter_sublist.append_right _))).mpr htexts
  · rw [hnew, hleft, List.append_nil]
    exact hown

/-- The texts a purge compares are those of the last events. -/
theorem eventTexts_rtake {log : List (Int × Event)} {bound : Int}
    (hown : s.eventsOf p = (since bound log).rtake maxSecurityEventsPerPage)
    (hbound : bound < x.1.now) (hdated : Dated eventColumns (log ++ newEvent p s x)) :
    (eventTexts p s x).rtake maxSecurityEventsPerPage =
      (((log ++ newEvent p s x).filter fun e => bound < e.1).rtake maxSecurityEventsPerPage).map
        fun e => zulu e.1 := by
  have htext : ∀ l : List (Int × Event), (∀ e ∈ l, e ∈ log ++ newEvent p s x) →
      (l.map Prod.snd).map Event.occurredAt = l.map fun e => zulu e.1 := by
    intro l hl
    rw [List.map_map]
    exact List.map_congr_left fun e he => hdated.text e (hl e he)
  unfold eventTexts
  rw [hown, since, rtake_map, htext, ← rtake_map, rtake_rtake_append, ← List.map_append, rtake_map,
    List.filter_append, filter_newEvent hbound]
  intro e he
  exact List.mem_append_left _ (List.mem_filter.mp ((rtake_sublist _ _).subset he)).1

/-- **One call that purges keeps the last events inside the retention
period.** -/
theorem events_step {log : List (Int × Event)} {bound : Int} (hs : Sound s)
    (hstay : ∀ g, s.registered g = true → (s.step x).registered g = true)
    (hpage : x.2 ≠ .deletePage p) (hfit : FitsPage x) (hok : (s.transact x).isSome = true)
    (hpurges : x.2.purges = true)
    (hown : s.eventsOf p = (since bound log).rtake maxSecurityEventsPerPage)
    (hbound : bound ≤ x.1.now - retention)
    (hdated : Dated eventColumns (log ++ newEvent p s x)) (hread : EventsRead p s x) :
    (s.step x).eventsOf p = (since (x.1.cutoff - retention) (log ++ newEvent p s x)).rtake
      maxSecurityEventsPerPage := by
  obtain ⟨htexts, hpurge⟩ := hread hok hpurges
  have hret : (0 : Int) < retention := by decide
  have hleft := eventsLeft_eq hs hfit hok hown (by omega) hdated htexts
  rcases eventsOf_step (p := p) hs hstay hpage hfit with ⟨-, -, he⟩ | ⟨hno, -⟩
  swap
  · rw [hno hok] at hpurges
    cases hpurges
  rw [eventTexts_rtake hown (by omega) hdated] at hpurge
  rw [he, hleft]
  generalize log ++ newEvent p s x = all at hdated hpurge ⊢
  have hrest : Dated eventColumns ((all.filter fun e => bound < e.1).rtake
      maxSecurityEventsPerPage) :=
    hdated.sublist ((rtake_sublist _ _).trans List.filter_sublist)
  -- each of the last events is purged by its text exactly if it is by its time
  have hdecides : ∀ e ∈ (all.filter fun e => bound < e.1).rtake maxSecurityEventsPerPage,
      (!decide (e.2.occurredAt ≤ zulu (x.1.cutoff - retention))) =
        decide (x.1.cutoff - retention < e.1) := by
    intro e he
    obtain ⟨hbefore, hafter⟩ := hpurge _ (List.mem_map_of_mem he)
    have hiff := not_zulu_le_iff (hrest.calendar e he) x.1.cutoff_inCalendar hbefore hafter
    rw [show e.2.occurredAt = zulu e.1 from hrest.text e he, ← decide_not]
    exact decide_eq_decide.mpr hiff
  have hlater : bound ≤ x.1.cutoff - retention := by
    have := x.1.ordered
    omega
  unfold since
  rw [rtake_map, List.filter_map, List.filter_congr (q := fun e => x.1.cutoff - retention < e.1)
    hdecides, CappedLog.rtake_filter _ ?_, List.filter_filter, rtake_map]
  · congr 3
    funext e
    rw [Bool.and_eq_left_iff_imp]
    intro hin
    exact decide_eq_true (lt_of_le_of_lt hlater (of_decide_eq_true hin))
  · refine (hdated.order.sublist List.filter_sublist).imp fun hab ha => ?_
    exact decide_eq_true (lt_of_lt_of_le (of_decide_eq_true ha) hab)

end Events

/-- A run that deletes no guest, nor the page, and records under page
identifiers that are stored whole. -/
structure PageRun (p : String) (xs : List Call) : Prop where
  stays : ∀ g, Stays g xs
  undeleted : ∀ x ∈ xs, x.2 ≠ .deletePage p
  fits : ∀ x ∈ xs, FitsPage x

section PageRuns

variable {p : String} {xs : List Call}

theorem Clocked.until (hclock : Clocked xs) {pre post : List Call} {x : Call}
    (h : xs = pre ++ x :: post) : Clocked (pre ++ [x]) := by
  refine hclock.sublist ?_
  rw [h]
  exact (List.singleton_sublist.mpr List.mem_cons_self).append_left pre

/-- The page's events after the calls so far, with the bound of the last
purge. -/
theorem events_bounded (hclock : Clocked xs) (hrun : PageRun p xs)
    (hread : ∀ pre x post, xs = pre ++ x :: post → EventsRead p (Store.empty.after pre) x)
    (pre : List Call) : ∀ post, xs = pre ++ post → ∃ bound,
      (∀ y ∈ post, bound ≤ y.1.now - retention) ∧ (Store.empty.after pre).eventsOf p =
        (since bound (history (newEvent p) .empty pre)).rtake maxSecurityEventsPerPage := by
  induction pre using List.reverseRecOn with
  | nil =>
      refine fun post _ => ⟨-62135596800 * second, fun y _ => y.1.first.first, ?_⟩
      exact (List.rtake_nil _).symm
  | append_singleton pre x ih =>
      intro post hsplit
      rw [List.append_assoc, List.singleton_append] at hsplit
      obtain ⟨bound, hbound, hown⟩ := ih (x :: post) hsplit
      have hmem : x ∈ xs := hsplit ▸ List.mem_append_right pre List.mem_cons_self
      have hsound := Sound.after pre
      have hstay : ∀ g, (Store.empty.after pre).registered g = true →
          ((Store.empty.after pre).step x).registered g = true := by
        intro g hg
        rw [← after_snoc]
        exact hrun.stays g pre x post hsplit hg
      have hdated := dated_history (s := .empty) (stamps_newEvent p) (hclock.until hsplit)
      rw [history_snoc] at hdated
      rw [after_snoc, history_snoc]
      rcases eventsOf_step (p := p) hsound hstay (hrun.undeleted x hmem) (hrun.fits x hmem) with
        ⟨hok, hpurges, -⟩ | ⟨hno, he⟩
      · refine ⟨x.1.cutoff - retention, fun y hy => ?_, events_step hsound hstay
          (hrun.undeleted x hmem) (hrun.fits x hmem) hok hpurges hown
          (hbound x List.mem_cons_self) hdated (hread pre x post hsplit)⟩
        rw [hsplit] at hclock
        obtain ⟨-, htail, -⟩ := List.pairwise_append.mp hclock
        have := (List.pairwise_cons.mp htail).1 y hy
        have := x.1.ordered
        omega
      · refine ⟨bound, fun y hy => hbound y (List.mem_cons_of_mem x hy), ?_⟩
        have hnone : newEvent p (Store.empty.after pre) x = [] := by
          unfold newEvent
          split
          · rename_i r hop
            refine if_neg fun h => ?_
            have := hno h.2
            rw [hop] at this
            cases this
          · rfl
        rw [hnone, List.append_nil, he, hown]

/-- **A page's events are the last ones inside the retention period** after
each call that purges, if each reads them well. -/
theorem events_capped (hclock : Clocked xs) (hrun : PageRun p xs)
    (hread : ∀ pre x post, xs = pre ++ x :: post → EventsRead p (Store.empty.after pre) x)
    {pre post : List Call} {x : Call} (hsplit : xs = pre ++ x :: post)
    (hok : ((Store.empty.after pre).transact x).isSome = true) (hpurges : x.2.purges = true) :
    (Store.empty.after (pre ++ [x])).eventsOf p =
      (since (x.1.cutoff - retention) (history (newEvent p) .empty (pre ++ [x]))).rtake
        maxSecurityEventsPerPage := by
  obtain ⟨bound, hbound, hown⟩ := events_bounded hclock hrun hread pre (x :: post) hsplit
  have hmem : x ∈ xs := hsplit ▸ List.mem_append_right pre List.mem_cons_self
  have hdated := dated_history (s := .empty) (stamps_newEvent p) (hclock.until hsplit)
  rw [history_snoc] at hdated
  rw [after_snoc, history_snoc]
  refine events_step (Sound.after pre) (fun g hg => ?_) (hrun.undeleted x hmem) (hrun.fits x hmem)
    hok hpurges hown (hbound x List.mem_cons_self) hdated (hread pre x post hsplit)
  rw [← after_snoc]
  exact hrun.stays g pre x post hsplit hg

end PageRuns

/-- A whole second, and the microsecond after it. -/
def gateSecond : Int := 1785369600 * second

def gateTick (now : Int) (first : InCalendar (now - retention)) (last : InCalendar now) : Tick :=
  ⟨false, now, now, now, first, last, ⟨le_rfl, le_rfl⟩⟩

def gateWhole : Tick := gateTick gateSecond ⟨by decide, by decide⟩ ⟨by decide, by decide⟩

def gateFraction : Tick := gateTick (gateSecond + 1) ⟨by decide, by decide⟩ ⟨by decide, by decide⟩

def gateGuest : String := "grant_0123456789abcdef"

def gateAction : ActionRecord := ⟨gateGuest, "light.kitchen", "Kitchen", "turn_on", [], "success", ""⟩

def gateOpening : Call :=
  (gateWhole, .registerGuest "gate" ⟨gateGuest, "Guest", "2026-07-30T00:00:00Z", "2026-07-31T00:00:00Z"⟩)

/-- The guest, and so many actions within the whole second. -/
def gateActions (n : Nat) : List Call :=
  gateOpening :: List.replicate n (gateWhole, .recordAction gateAction)

theorem gateActions_succ (n : Nat) :
    gateActions (n + 1) = gateActions n ++ [(gateWhole, .recordAction gateAction)] := by
  unfold gateActions
  rw [List.replicate_succ', List.cons_append]

/-- The guest is registered, and nobody is about to be purged. -/
structure Open (s : Store) : Prop where
  registered : s.registered gateGuest = true
  unpurged : ∀ r ∈ s.guests, r.purgeAfter = none

theorem Open.record {s : Store} (h : Open s) (t : Tick) (ht : t.fault = false) :
    (s.transact (t, .recordAction gateAction)).isSome = true ∧
      (s.step (t, .recordAction gateAction)).guests = s.guests := by
  have hguests : ((s.withAction t gateAction).purge t).guests = s.guests := by
    refine Table.deleteWhere_eq_self fun r hr => ?_
    rw [h.unpurged r hr]
    rfl
  have hok : s.transact (t, .recordAction gateAction) =
      some ((s.withAction t gateAction).purge t) := by
    unfold Store.transact Store.perform Store.recordAction
    rw [ht, if_neg (by decide)]
    exact if_pos h.registered
  refine ⟨by rw [hok]; rfl, ?_⟩
  unfold Store.step
  rw [hok]
  exact hguests

theorem Open.step {s : Store} (h : Open s) (t : Tick) (ht : t.fault = false) :
    Open (s.step (t, .recordAction gateAction)) := by
  have hguests := (h.record t ht).2
  refine ⟨?_, by rw [hguests]; exact h.unpurged⟩
  unfold Store.registered
  rw [hguests]
  exact h.registered

theorem gateActions_open (n : Nat) : Open (Store.empty.after (gateActions n)) := by
  induction n with
  | zero => exact ⟨by decide +kernel, by decide +kernel⟩
  | succ n ih =>
      rw [gateActions_succ, after_snoc]
      exact ih.step gateWhole rfl

theorem Open.after {s : Store} (h : Open s) {ys : List Call}
    (hys : ∀ y ∈ ys, y.1.fault = false ∧ y.2 = .recordAction gateAction) : Open (s.after ys) := by
  induction ys generalizing s with
  | nil => exact h
  | cons y ys ih =>
      obtain ⟨t, op⟩ := y
      obtain ⟨ht, rfl⟩ := hys _ List.mem_cons_self
      exact ih (h.step t ht) fun y hy => hys y (List.mem_cons_of_mem _ hy)

/-- The guest stays, through all the actions and one more. -/
theorem gateActions_stays (n : Nat) :
    Stays gateGuest (gateActions n ++ [(gateFraction, .recordAction gateAction)]) := by
  have hrecords : ∀ y ∈ List.replicate n (gateWhole, Op.recordAction gateAction) ++
      [(gateFraction, .recordAction gateAction)],
      y.1.fault = false ∧ y.2 = .recordAction gateAction := by
    intro y hy
    rcases List.mem_append.mp hy with hy | hy
    · rw [List.eq_of_mem_replicate hy]
      exact ⟨rfl, rfl⟩
    · rw [List.mem_singleton.mp hy]
      exact ⟨rfl, rfl⟩
  intro pre x post hsplit hreg
  cases pre with
  | nil => exact absurd hreg (by decide)
  | cons c pre =>
      obtain ⟨rfl, htail⟩ := List.cons.inj hsplit
      have htail : List.replicate n (gateWhole, Op.recordAction gateAction) ++
          [(gateFraction, .recordAction gateAction)] = pre ++ x :: post := htail
      have hall : ∀ y ∈ pre ++ [x], y.1.fault = false ∧ y.2 = .recordAction gateAction := by
        intro y hy
        refine hrecords y ?_
        rw [htail]
        rcases List.mem_append.mp hy with hy | hy
        · exact List.mem_append_left _ hy
        · rw [List.mem_singleton.mp hy]
          exact List.mem_append_right _ List.mem_cons_self
      exact (Open.after (gateActions_open 0) hall).registered

theorem gateActions_clocked (n : Nat) :
    Clocked (gateActions n ++ [(gateFraction, .recordAction gateAction)]) := by
  have hwhole : ∀ y ∈ gateActions n, y.1 = gateWhole := by
    intro y hy
    rcases List.mem_cons.mp hy with rfl | hy
    · rfl
    · rw [List.eq_of_mem_replicate hy]
  refine List.pairwise_append.mpr ⟨?_, List.pairwise_singleton _ _, fun y hy z hz => ?_⟩
  · refine List.pairwise_of_forall_mem_list fun y hy z hz => ?_
    rw [hwhole y hy, hwhole z hz]
    exact le_rfl
  · rw [hwhole y hy, List.mem_singleton.mp hz]
    decide

/-- As many actions as were recorded, up to the cap. -/
theorem gateActions_kept {n : Nat} (hn : n ≤ maxActionsPerGuest) :
    KeepsActions gateGuest (gateActions n) ∧
      (history (newAction gateGuest) .empty (gateActions n)).length = n ∧
      ∀ e ∈ history (newAction gateGuest) .empty (gateActions n), e.1 = gateSecond := by
  induction n with
  | zero => exact ⟨(List.rtake_nil _).symm, rfl, nofun⟩
  | succ n ih =>
      obtain ⟨hkept, hlen, htimes⟩ := ih (by omega)
      have hopen := gateActions_open n
      have hnew : newAction gateGuest (Store.empty.after (gateActions n))
          (gateWhole, .recordAction gateAction) =
          [(gateSecond, (Store.empty.after (gateActions n)).actionRow gateWhole gateAction)] :=
        if_pos ⟨rfl, (hopen.record gateWhole rfl).1⟩
      have hclock : Clocked (gateActions n ++ (gateWhole, .recordAction gateAction) ::
          [(gateFraction, .recordAction gateAction)]) := by
        have := gateActions_clocked (n + 1)
        rwa [gateActions_succ, List.append_assoc, List.singleton_append] at this
      have hstays : Stays gateGuest (gateActions n ++ (gateWhole, .recordAction gateAction) ::
          [(gateFraction, .recordAction gateAction)]) := by
        have := gateActions_stays (n + 1)
        rwa [gateActions_succ, List.append_assoc, List.singleton_append] at this
      rw [gateActions_succ, history_snoc, hnew]
      refine ⟨(keepsActions_snoc_iff hclock hstays hkept).mpr fun _ _ _ _ => .inl ?_, ?_, ?_⟩
      · rw [hkept, rtake_map, List.length_append, List.length_map, List.length_map]
        have := (rtake_sublist (history (newAction gateGuest) .empty (gateActions n))
          maxActionsPerGuest).length_le
        rw [List.length_singleton]
        omega
      · rw [List.length_append, hlen]
        rfl
      · intro e he
        rcases List.mem_append.mp he with he | he
        · exact htimes e he
        · rw [List.mem_singleton.mp he]

theorem gate_misread : Misread gateSecond (gateSecond + 1) := ⟨by decide, by decide, by decide⟩

/-- A month and a day before. -/
def gateBefore : Tick :=
  gateTick (gateSecond - 31 * 86400 * second) ⟨by decide, by decide⟩ ⟨by decide, by decide⟩

def gateEvent : EventRecord := ⟨"gate", "denied", some gateGuest, none⟩

def gateRegister : Call :=
  (gateBefore, .registerGuest "gate"
    ⟨gateGuest, "Guest", "2026-06-29T00:00:00Z", "2026-07-31T00:00:00Z"⟩)

/-- An event that is purged, one that stays, and an action. -/
def gateMonth : List Call :=
  [gateRegister, (gateBefore, .recordSecurityEvent gateEvent), (gateWhole, .read),
    (gateWhole, .recordSecurityEvent gateEvent), (gateFraction, .recordAction gateAction)]

/-- A call of a run, after those before it. -/
theorem mem_zip_inits {xs pre post : List Call} {x : Call} (h : xs = pre ++ x :: post) :
    (pre, x) ∈ xs.inits.zip xs := by
  subst h
  induction pre with
  | nil => exact List.mem_cons_self
  | cons y pre ih =>
      rw [List.cons_append, List.inits_cons, List.zip_cons_cons, List.zip_map_left]
      exact List.mem_cons_of_mem _ (List.mem_map.mpr ⟨(pre, x), ih, rfl⟩)

theorem gateMonth_clocked : Clocked gateMonth := by
  unfold Clocked gateMonth
  simp only [List.pairwise_cons]
  decide

theorem gateMonth_stays (g : String) : Stays g gateMonth := by
  have hguests : ∀ q ∈ gateMonth.inits.zip gateMonth, ∀ r ∈ (Store.empty.after q.1).guests.rows,
      r ∈ (Store.empty.after (q.1 ++ [q.2])).guests.rows := by decide +kernel
  intro pre x post h hreg
  obtain ⟨r, hr, hg⟩ := registered_iff.mp hreg
  exact registered_iff.mpr ⟨r, hguests (pre, x) (mem_zip_inits h) r hr, hg⟩

theorem gateMonth_pageRun : PageRun "gate" gateMonth where
  stays := gateMonth_stays
  undeleted x hx := by
    simp only [gateMonth, gateRegister, List.mem_cons, List.not_mem_nil, or_false] at hx
    rcases hx with rfl | rfl | rfl | rfl | rfl <;> exact nofun
  fits x hx r hr := by
    simp only [gateMonth, gateRegister, List.mem_cons, List.not_mem_nil, or_false] at hx
    rcases hx with rfl | rfl | rfl | rfl | rfl <;> cases hr <;> decide

theorem gateMonth_actionsRead {pre post : List Call} {x : Call} (h : gateMonth = pre ++ x :: post) :
    ActionsRead gateGuest (Store.empty.after pre) x := by
  have hnone : ∀ q ∈ gateMonth.inits.zip gateMonth,
      ((Store.empty.after q.1).actionsOf gateGuest).length = 0 := by decide +kernel
  intro r hop hown hok
  refine .inl ?_
  rw [List.length_append, List.length_map, hnone (pre, x) (mem_zip_inits h), List.length_singleton]
  decide

theorem gateMonth_eventsRead {pre post : List Call} {x : Call} (h : gateMonth = pre ++ x :: post) :
    EventsRead "gate" (Store.empty.after pre) x := by
  have htexts : ∀ q ∈ gateMonth.inits.zip gateMonth,
      (eventTexts "gate" (Store.empty.after q.1) q.2).length ≤ 1 ∧
      ∀ text ∈ eventTexts "gate" (Store.empty.after q.1) q.2,
        text = zulu gateBefore.now ∨ text = zulu gateWhole.now := by decide +kernel
  have hmisread : ∀ y ∈ gateMonth, ∀ t ∈ [gateBefore, gateWhole],
      ¬ Misread t.now (y.1.cutoff - retention) ∧ ¬ Misread (y.1.cutoff - retention) t.now := by
    unfold Misread
    decide +kernel
  obtain ⟨hlen, hall⟩ := htexts (pre, x) (mem_zip_inits h)
  have hx : x ∈ gateMonth := h ▸ List.mem_append_right pre List.mem_cons_self
  have hread : ∀ t ∈ [gateBefore, gateWhole],
      WellRead (zulu t.now) (zulu (x.1.cutoff - retention)) ∧
        WellRead (zulu (x.1.cutoff - retention)) (zulu t.now) := by
    intro t ht
    have hnow := t.now_inCalendar
    have hcutoff := x.1.cutoff_inCalendar
    exact ⟨(wellRead_zulu hnow hcutoff).mpr (hmisread x hx t ht).1,
      (wellRead_zulu hcutoff hnow).mpr (hmisread x hx t ht).2⟩
  refine fun _ _ => ⟨.inl (hlen.trans (by decide)), fun text htext => ?_⟩
  rcases hall text ((List.drop_sublist _ _).subset htext) with rfl | rfl
  · exact hread _ List.mem_cons_self
  · exact hread _ (List.mem_cons_of_mem _ List.mem_cons_self)

end Activity

end AccessPages
