import AccessPages.LayerV.Seeding
/-!
# LayerV — what a pass without failures leaves behind

`reconcile_once` where nothing fails, nobody else is about and every
schedule is past. A pass moves rows along their phases or counts an
attempt, and neither is ever taken back, so a pass that changes nothing
found nothing to do. What it selects is another matter: the scan for
orphans looks at fifty rows, rows it keeps included, and the scan for
page pools at those that are ready.
-/

namespace AccessPages

namespace LayerV

open Pages (UpstreamScope grantIdRe pageIdRe)

/-! ## How far a row has come -/

def Phase.rank : Phase → Nat
  | creating => 0
  | ready => 1
  | retiring => 2
  | revoked => 3

theorem Phase.Moves.rank_le {reset : Prop} {p q : Phase} (h : Phase.Moves reset p q) :
    p.rank ≤ q.rank := by
  cases h <;> simp only [Phase.rank] <;> omega

/-- Nothing of the row was taken back. -/
structure Resource.Le (r s : Resource) : Prop where
  connectorId : s.connectorId = r.connectorId
  phase : r.phase.rank ≤ s.phase.rank
  attempts : r.recoveryAttempts ≤ s.recoveryAttempts

theorem Resource.Le.refl (r : Resource) : r.Le r := ⟨rfl, Nat.le_refl _, Nat.le_refl _⟩

/-- The row moved, or an attempt was counted. -/
def Resource.Lt (r s : Resource) : Prop :=
  r.phase.rank < s.phase.rank ∨ r.recoveryAttempts < s.recoveryAttempts

theorem Resource.Lt.trans_le {r s t : Resource} (h : r.Lt s) (h' : s.Le t) : r.Lt t := by
  have hphase := h'.phase
  have hattempts := h'.attempts
  rcases h with h | h
  · exact .inl (by omega)
  · exact .inr (by omega)

theorem Resource.Lt.irrefl (r : Resource) : ¬ r.Lt r := by
  rintro (h | h) <;> omega

/-- Every row is still there. -/
def Registry.Past (g g' : Registry) : Prop :=
  ∀ r ∈ g.resources, ∃ s ∈ g'.resources, r.Le s

theorem Registry.Past.refl (g : Registry) : g.Past g := fun r hr => ⟨r, hr, .refl r⟩

theorem Registry.Past.of_eq {g g' : Registry} (h : g'.resources = g.resources) : g.Past g' :=
  fun r hr => ⟨r, h ▸ hr, .refl r⟩

/-- A row of `g'` is ahead of what it was in `g`, if it was there. -/
def Registry.Behind (g g' : Registry) : Prop :=
  ∃ s ∈ g'.resources, ∀ r ∈ g.resources, r.connectorId = s.connectorId → r.Lt s

/-- **What is behind stays behind.** -/
theorem Registry.Behind.trans {g g' g'' : Registry} (h : g.Behind g') (h' : g'.Past g'') :
    g.Behind g'' := by
  obtain ⟨s, hs, hlt⟩ := h
  obtain ⟨t, ht, hle⟩ := h' s hs
  refine ⟨t, ht, fun r hr he => ?_⟩
  exact (hlt r hr (he.trans hle.connectorId)).trans_le hle

/-- **Nothing is behind itself.** -/
theorem Registry.Behind.irrefl (g : Registry) : ¬ g.Behind g := by
  rintro ⟨s, hs, hlt⟩
  exact Resource.Lt.irrefl s (hlt s hs rfl)

section Change

variable {g g' : Registry} {r r' : Resource}

theorem Registry.Changes.past (h : g.Changes g' r r') (hle : r.Le r') : g.Past g' := by
  intro s hs
  by_cases hsr : s = r
  · exact ⟨r', (h r').mpr (.inr rfl), hsr ▸ hle⟩
  · exact ⟨s, (h s).mpr (.inl ⟨hs, hsr⟩), .refl s⟩

theorem Registry.Changes.behind (h : g.Changes g' r r') (hg : g.Inv) (hr : r ∈ g.resources)
    (hle : r.Le r') (hlt : r.Lt r') : g.Behind g' := by
  refine ⟨r', (h r').mpr (.inr rfl), fun s hs he => ?_⟩
  obtain rfl := hg.connector_unique s hs r hr (he.trans hle.connectorId)
  exact hlt

end Change

/-! ## Worlds of a pass -/

/-- The clock is past every due time, recovery gate and grace period. -/
structure Registry.Late (g : Registry) (now : Instant) : Prop where
  gate : ∀ due, g.gate = some due → due ≤ now
  grace : ∀ r ∈ g.resources, r.createdAt ≤ now - second * 300
  recovery : ∀ r ∈ g.resources, r.recoveryDue ≤ now
  retirement : ∀ q ∈ g.retirements, q.due ≤ now

/-- A tick of a pass that starts from `w₀`. -/
abbrev CalmTick (w₀ : World) := {t : Tick // t.Calm ∧ w₀.registry.Late t.now}

def calmly (w₀ : World) (t : CalmTick w₀) (e : Op) (w : World) : e.Ans × World := e.step t.1 w

theorem calmly_eq {w₀ : World} (t : CalmTick w₀) (e : Op) (w : World) :
    calmly w₀ t e w = e.perform t.1 w := t.2.1.step e w

/-- **A world of the pass.** No file is new and the policy store is as it
was. Some row is ahead, or else, if `p`, the database is as it was. -/
structure World.Kept (w₀ : World) (p : Prop) (w : World) : Prop where
  registry : w.registry.Inv
  mappings : ∀ path, w₀.mappings.find? path = none → w.mappings.find? path = none
  policy : w.policy = w₀.policy
  same : w₀.registry.Behind w.registry ∨ (p ∧ w.registry = w₀.registry)

section Kept

variable {w₀ w w' : World} {p : Prop}

theorem World.Kept.start (hw : w.registry.Inv) : w.Kept True w :=
  ⟨hw, fun _ h => h, rfl, .inr ⟨trivial, rfl⟩⟩

theorem World.Kept.imp {q : Prop} (h : w₀.Kept q w) (hq : q → p) : w₀.Kept p w :=
  ⟨h.registry, h.mappings, h.policy, h.same.imp_right fun h => ⟨hq h.1, h.2⟩⟩

theorem World.Kept.weaken (h : w₀.Kept False w) : w₀.Kept p w := h.imp False.elim

theorem World.Kept.both {c : Prop} (h : w₀.Kept False w) :
    w₀.Kept p w ∧ (c → w₀.Kept False w) := ⟨h.weaken, fun _ => h⟩

/-- Only the database differs, if anything does. -/
structure World.Frame (w w' : World) : Prop where
  mappings : ∀ path, w.mappings.find? path = none → w'.mappings.find? path = none
  policy : w'.policy = w.policy

theorem World.Frame.refl (w : World) : w.Frame w := ⟨fun _ h => h, rfl⟩

theorem World.Frame.trans {w'' : World} (h : w.Frame w') (h' : w'.Frame w'') : w.Frame w'' :=
  ⟨fun path hp => h'.mappings path (h.mappings path hp), h'.policy.trans h.policy⟩

theorem World.Kept.frame (h : w₀.Kept p w) (hf : w.Frame w') (hr : w'.registry = w.registry) :
    w₀.Kept p w' := by
  refine ⟨hr ▸ h.registry, fun path hp => hf.mappings path (h.mappings path hp),
    hf.policy.trans h.policy, ?_⟩
  rw [hr]
  exact h.same

theorem World.Kept.ahead (h : w₀.Kept p w) (hf : w.Frame w') (hinv : w'.registry.Inv)
    {r r' : Resource} (hr : r ∈ w.registry.resources) (hc : w.registry.Changes w'.registry r r')
    (hle : r.Le r') (hlt : r.Lt r') : w₀.Kept False w' := by
  refine ⟨hinv, fun path hp => hf.mappings path (h.mappings path hp), hf.policy.trans h.policy,
    .inl ?_⟩
  rcases h.same with hb | ⟨-, he⟩
  · exact hb.trans (hc.past hle)
  · rw [← he]
    exact hc.behind h.registry hr hle hlt

theorem World.Kept.past (h : w₀.Kept False w) (hf : w.Frame w') (hinv : w'.registry.Inv)
    (hp : w.registry.Past w'.registry) : w₀.Kept False w' := by
  refine ⟨hinv, fun path hp => hf.mappings path (h.mappings path hp), hf.policy.trans h.policy,
    .inl ?_⟩
  rcases h.same with hb | ⟨hf, -⟩
  · exact hb.trans hp
  · exact hf.elim

end Kept

/-! ## Rules -/

section Rules

variable {w₀ w : World} {α β : Type}

/-- If the pass gets through `x`, then with `Q`. -/
structure Leaves (w₀ : World) (x : BrokerM α) (Q : Except Failure α → World → Prop)
    (w : World) : Prop where
  holds : x.run.Holds (calmly w₀) (fun _ => True) (fun _ => True) Q w

theorem leaves_mono {x : BrokerM α} {Q Q' : Except Failure α → World → Prop}
    (h : Leaves w₀ x Q w) (hQ : ∀ o w', Q o w' → Q' o w') : Leaves w₀ x Q' w :=
  ⟨Prog.holds_mono h.holds fun o w' _ ho => hQ o w' ho⟩

theorem leaves_pure {a : α} {Q : Except Failure α → World → Prop} (h : Q (.ok a) w) :
    Leaves w₀ (pure a) Q w := ⟨trivial, h⟩

theorem leaves_throw {e : Failure} {Q : Except Failure α → World → Prop} (h : Q (.error e) w) :
    Leaves w₀ (throw e) Q w := ⟨trivial, h⟩

theorem leaves_bind {x : BrokerM α} {f : α → BrokerM β} {P : Except Failure α → World → Prop}
    {Q : Except Failure β → World → Prop} (h : Leaves w₀ x P w)
    (hok : ∀ a w', P (.ok a) w' → Leaves w₀ (f a) Q w')
    (herr : ∀ e w', P (.error e) w' → Q (.error e) w') : Leaves w₀ (x >>= f) Q w := by
  refine ⟨Prog.holds_except_bind (Prog.holds_mono h.holds fun o w' _ ho => ?_)⟩
  cases o with
  | ok a => exact (hok a w' ho).holds
  | error e => exact herr e w' ho

theorem leaves_attempt {x : BrokerM α} {f : Except Failure α → BrokerM β}
    {P : Except Failure α → World → Prop} {Q : Except Failure β → World → Prop}
    (h : Leaves w₀ x P w) (hf : ∀ o w', P o w' → Leaves w₀ (f o) Q w') :
    Leaves w₀ (attempt x >>= f) Q w := by
  refine ⟨Prog.holds_except_bind ?_⟩
  rw [show (attempt x).run = (x.run >>= fun o =>
    (pure (Except.ok o) : Prog Op Op.Ans (Except Failure (Except Failure α)))) from rfl,
    Prog.holds_bind]
  exact Prog.holds_mono h.holds fun o w' _ ho => ⟨trivial, (hf o w' ho).holds⟩

theorem leaves_lift {x : Except Failure α} {f : α → BrokerM β}
    {Q : Except Failure β → World → Prop} (hok : ∀ a, Leaves w₀ (f a) Q w)
    (herr : ∀ e, Q (.error e) w) : Leaves w₀ ((liftM x : BrokerM α) >>= f) Q w := by
  refine ⟨Prog.holds_except_bind (Prog.holds_except_lift.mpr ⟨trivial, ?_⟩)⟩
  cases x with
  | ok a => exact (hok a).holds
  | error e => exact herr e

theorem leaves_ask {e : Op} {Q : e.Ans → World → Prop}
    (hQ : ∀ t : CalmTick w₀, Q (e.perform t.1 w).1 (e.perform t.1 w).2) : Leaves w₀ (ask e) Q w := by
  refine ⟨trivial, fun t => ⟨trivial, trivial, ?_⟩⟩
  rw [calmly_eq]
  exact hQ t

theorem leaves_registry {e : RegistryOp} {Q : Except Failure e.Res → World → Prop}
    (hQ : ∀ t : CalmTick w₀, Q (e.perform t.1.now w.registry).1
      { w with registry := (e.perform t.1.now w.registry).2 }) : Leaves w₀ (askRegistry e) Q w :=
  leaves_ask (e := .registry e) hQ

end Rules

/-! ## Questions outside the database -/

/-- Neither a transaction of the resource database nor a new mapping. -/
def Op.Plain : Op → Prop
  | registry _ => False
  | writeMapping _ => False
  | _ => True

theorem Op.Plain.frame {e : Op} (he : e.Plain) (t : Tick) (w : World) :
    w.Frame (e.perform t w).2 ∧ (e.perform t w).2.registry = w.registry := by
  cases e with
  | registry e => exact he.elim
  | writeMapping m => exact he.elim
  | unlinkMapping page grantId =>
      refine ⟨⟨fun path hp => ?_, rfl⟩, rfl⟩
      rw [Table.find?_eq_none] at hp ⊢
      exact fun row hrow => hp row (Table.mem_deleteWhere.mp hrow).1
  | _ => exact ⟨⟨fun _ hp => hp, rfl⟩, rfl⟩

section Passes

variable {w₀ w : World} {p : Prop}

/-- A program whose questions are all plain. -/
structure Plain {α : Type} (x : BrokerM α) : Prop where
  asks : x.run.Asks Op.Plain

theorem plain_pure {α : Type} (a : α) : Plain (pure a) := ⟨trivial⟩

theorem plain_throw {α : Type} (e : Failure) : Plain (throw e : BrokerM α) := ⟨trivial⟩

theorem plain_ask {e : Op} (h : e.Plain) : Plain (ask e) := ⟨h, fun _ => trivial⟩

theorem plain_bind {α β : Type} {x : BrokerM α} {f : α → BrokerM β} (hx : Plain x)
    (hf : ∀ a, Plain (f a)) : Plain (x >>= f) :=
  ⟨Prog.asks_except_bind hx.asks fun a => (hf a).asks⟩

theorem plain_lift {α : Type} (x : Except Failure α) : Plain (liftM x : BrokerM α) :=
  ⟨Prog.asks_except_lift⟩

theorem plain_attempt {α : Type} {x : BrokerM α} (hx : Plain x) : Plain (attempt x) :=
  ⟨Prog.asks_bind (f := fun o => (pure (Except.ok o) : Prog Op Op.Ans _)) hx.asks fun _ => trivial⟩

theorem leaves_plain {α : Type} {x : BrokerM α} (hx : Plain x) (h : w₀.Kept p w) :
    Leaves w₀ x (fun _ w' => w₀.Kept p w') w := by
  constructor
  suffices hgo : ∀ (y : Prog Op Op.Ans (Except Failure α)) (v : World), y.Asks Op.Plain →
      w₀.Kept p v → y.Holds (calmly w₀) (fun _ => True) (fun _ => True)
        (fun _ w' => w₀.Kept p w') v from hgo _ w hx.asks h
  intro y
  induction y with
  | ret o => exact fun v _ hv => ⟨trivial, hv⟩
  | op e k ih =>
      refine fun v hy hv => ⟨trivial, fun t => ⟨trivial, ?_⟩⟩
      rw [calmly_eq]
      obtain ⟨hframe, hreg⟩ := Op.Plain.frame hy.1 t.1 v
      exact ih _ _ (hy.2 _) (hv.frame hframe hreg)

/-! ## Retiring -/

/-- A request upstream gets through and leaves the database alone. -/
def Through {α : Type} (w : World) (o : Except Failure α) (w' : World) : Prop :=
  (∃ a, o = .ok a) ∧ w.Frame w' ∧ w'.registry = w.registry

theorem leaves_deleteResource {crid : String} (hcrid : cridRe crid = true) :
    Leaves w₀ (deleteResource crid) (Through w) w := by
  unfold deleteResource
  rw [strip_crid hcrid, if_neg (crid_ne_empty hcrid)]
  refine leaves_ask fun t => ⟨⟨t.1.answer, rfl⟩, ?_⟩
  exact Op.Plain.frame (e := .deleteResource crid) trivial t.1 w

theorem leaves_cleanup {crid : String} : Leaves w₀ (ask (.cleanup crid)) (Through w) w :=
  leaves_ask fun t => ⟨⟨(), rfl⟩, Op.Plain.frame (e := .cleanup crid) trivial t.1 w⟩

theorem leaves_deleteThenCleanup {crid : String} (hcrid : cridRe crid = true) :
    Leaves w₀ (deleteThenCleanup crid) (Through w) w := by
  unfold deleteThenCleanup
  refine leaves_bind (leaves_deleteResource hcrid) (fun missing w₁ h₁ => ?_) fun e w₁ h₁ => ?_
  · refine leaves_bind leaves_cleanup (fun _ w₂ h₂ => leaves_pure ?_) fun e w₂ h₂ => ?_
    · exact ⟨⟨missing, rfl⟩, h₁.2.1.trans h₂.2.1, h₂.2.2.trans h₁.2.2⟩
    · obtain ⟨⟨_, h⟩, -⟩ := h₂
      cases h
  · obtain ⟨⟨_, h⟩, -⟩ := h₁
    cases h

theorem leaves_retireUpstream (cfg : Config) {old : Bool} {crid : String}
    (hcrid : cridRe crid = true) : Leaves w₀ (retireUpstream cfg old crid) (Through w) w := by
  unfold retireUpstream
  split
  · exact leaves_deleteResource hcrid
  split
  · refine leaves_attempt leaves_cleanup fun o w₁ h₁ => ?_
    obtain ⟨⟨_, rfl⟩, h₁⟩ := h₁
    exact leaves_pure ⟨⟨false, rfl⟩, h₁⟩
  split
  · exact leaves_deleteThenCleanup hcrid
  · exact leaves_deleteResource hcrid

/-- The row after it was retired. -/
theorem finished {g : Registry} {r : Resource} {page grantId crid qurlId : String}
    {now now' : Instant} (hg : g.Inv) (hr : r ∈ g.resources) (hat : r.At page grantId)
    (hcrid : r.crid = some crid) (hphase : r.phase ≠ .revoked) :
    let g₁ := ((RegistryOp.beginRetire page grantId crid qurlId).perform now g).2
    let g₂ := ((RegistryOp.finishRetire page grantId).perform now' g₁).2
    g₂.Inv ∧ g.Changes g₂ r { r with phase := .revoked } := by
  intro g₁ g₂
  have hchange₁ : g.Changes g₁ r { r with phase := .retiring } := changes_setPhase hr hat
  have hr₁ : { r with phase := .retiring } ∈ g₁.resources := (hchange₁ _).mpr (.inr rfl)
  have hinv₁ : g₁.Inv :=
    (RegistryOp.perform_inv now (.beginRetire page grantId crid qurlId) hg
      ⟨r, hr, hat, hcrid, hphase⟩).1
  have hchange₂ : g₁.Changes g₂ { r with phase := .retiring } { r with phase := .revoked } :=
    changes_setPhase hr₁ hat
  refine ⟨?_, .trans hg hr hchange₁ hchange₂ rfl⟩
  exact (RegistryOp.perform_inv now' (.finishRetire page grantId) hinv₁ ⟨_, hr₁, hat, rfl⟩).1

/-- **`revoke`.** It retires the row it is asked for. -/
theorem leaves_revoke (cfg : Config) {page grantId crid qurlId : String} (h : w₀.Kept p w) :
    Leaves w₀ (revoke cfg page grantId crid qurlId) (fun o w' => w₀.Kept p w' ∧
      ∀ r ∈ w.registry.resources, r.At page grantId → r.crid = some crid → r.phase ≠ .revoked →
        (∃ b, o = .ok b) ∧ w₀.Kept False w') w := by
  unfold revoke
  refine leaves_bind (P := fun o w' => o = .ok (w.registry.resources.find? (page, grantId)) ∧ w = w')
    (leaves_registry fun t => ⟨rfl, rfl⟩) ?_ fun e w' he => nomatch he.1
  rintro _ _ ⟨⟨⟩, rfl⟩
  cases hfind : w.registry.resources.find? (page, grantId) with
  | none =>
      refine leaves_throw ⟨h, fun r hr hat => ?_⟩
      exact absurd hat (find?_resources_none.mp hfind r hr)
  | some r =>
      obtain ⟨hr, hat⟩ := find?_resources.mp hfind
      have hself : ∀ s ∈ w.registry.resources, s.At page grantId → s = r :=
        fun s hs hsat => Resource.At.unique hs hr hsat hat
      simp only
      split
      · rename_i hcrid
        exact leaves_throw ⟨h, fun s hs hsat hc => absurd (hself s hs hsat ▸ hc) hcrid⟩
      rename_i hcrid
      rw [ne_eq, not_not] at hcrid
      split
      · rename_i hrev
        exact leaves_pure ⟨h, fun s hs hsat _ hp => absurd hrev (hself s hs hsat ▸ hp)⟩
      rename_i hphase
      -- from here on nothing can stop it
      suffices hgo : Leaves w₀ (do
          askRegistry (.beginRetire page grantId crid qurlId)
          let oldIdentity ← askRegistry (.managementOnly page grantId)
          let alreadyMissing ← retireUpstream cfg oldIdentity crid
          askRegistry (.finishRetire page grantId)
          return alreadyMissing) (fun o w₁ => (∃ b, o = .ok b) ∧ w₀.Kept False w₁) w from
        leaves_mono hgo fun o w₁ ho => ⟨ho.2.weaken, fun _ _ _ _ _ => ho⟩
      refine leaves_bind (P := fun o w₁ => o = .ok () ∧ w.Frame w₁ ∧ ∃ now, w₁.registry =
        ((RegistryOp.beginRetire page grantId crid qurlId).perform now w.registry).2)
        (leaves_registry fun t => ⟨rfl, ⟨fun _ hp => hp, rfl⟩, t.1.now, rfl⟩) ?_ fun e w₁ he => nomatch he.1
      rintro _ w₁ ⟨-, hframe₁, now, hreg₁⟩
      refine leaves_bind (P := fun o w₂ => (∃ b, o = .ok b) ∧ w₁ = w₂)
        (leaves_registry fun t => ⟨⟨_, rfl⟩, rfl⟩) ?_ fun e w₂ he => nomatch he.1
      rintro old _ ⟨-, rfl⟩
      refine leaves_bind (leaves_retireUpstream cfg (h.registry.crid_re r hr crid hcrid)) ?_
        fun e w₂ he => nomatch he.1
      rintro missing w₂ ⟨-, hframe₂, hreg₂⟩
      refine leaves_bind (P := fun o w₃ => o = .ok () ∧ w₂.Frame w₃ ∧ ∃ now', w₃.registry =
        ((RegistryOp.finishRetire page grantId).perform now' w₂.registry).2)
        (leaves_registry fun t => ⟨rfl, ⟨fun _ hp => hp, rfl⟩, t.1.now, rfl⟩) ?_ fun e w₃ he => nomatch he.1
      rintro _ w₃ ⟨-, hframe₃, now', hreg₃⟩
      obtain ⟨hinv, hchange⟩ := @finished _ _ _ _ _ qurlId now now' h.registry
        hr hat hcrid hphase
      rw [hreg₂, hreg₁] at hreg₃
      have hlt : r.phase.rank < Phase.revoked.rank := by
        cases hp : r.phase with
        | revoked => exact absurd hp hphase
        | _ => simp only [Phase.rank]; omega
      have hle : r.Le { r with phase := .revoked } := ⟨rfl, hlt.le, Nat.le_refl _⟩
      refine leaves_pure ⟨⟨missing, rfl⟩, h.ahead (hframe₁.trans (hframe₂.trans hframe₃)) ?_ hr ?_
        hle (.inl hlt)⟩
      · exact hreg₃ ▸ hinv
      · exact hreg₃ ▸ hchange

/-! ## Deleting a grant -/

/-- The programs that keep `Kept`, whatever they end with. -/
def Keeps {α : Type} (w₀ : World) (p : Prop) (x : BrokerM α) (w : World) : Prop :=
  Leaves w₀ x (fun _ w' => w₀.Kept p w') w

theorem keeps_pure {α : Type} {a : α} (h : w₀.Kept p w) : Keeps w₀ p (pure a) w := leaves_pure h

theorem keeps_throw {α : Type} {e : Failure} (h : w₀.Kept p w) :
    Keeps w₀ p (throw e : BrokerM α) w := leaves_throw h

theorem keeps_bind {α β : Type} {x : BrokerM α} {f : α → BrokerM β} (hx : Keeps w₀ p x w)
    (hf : ∀ a w', w₀.Kept p w' → Keeps w₀ p (f a) w') : Keeps w₀ p (x >>= f) w :=
  leaves_bind hx hf fun _ _ h => h

theorem keeps_attempt {α β : Type} {x : BrokerM α} {f : Except Failure α → BrokerM β}
    (hx : Keeps w₀ p x w) (hf : ∀ o w', w₀.Kept p w' → Keeps w₀ p (f o) w') :
    Keeps w₀ p (attempt x >>= f) w := leaves_attempt hx hf

theorem keeps_plain {α : Type} {x : BrokerM α} (hx : Plain x) (h : w₀.Kept p w) :
    Keeps w₀ p x w := leaves_plain hx h

theorem keeps_ask {e : Op} (he : e.Plain) (h : w₀.Kept p w) : Keeps w₀ p (ask e) w :=
  keeps_plain (plain_ask he) h

theorem plain_readMapping (page grantId : String) : Plain (readMapping page grantId) := by
  refine plain_bind (plain_attempt (plain_ask (e := .readMapping page grantId) trivial)) fun o => ?_
  cases o with
  | ok m => exact plain_pure m
  | error e => exact plain_throw _

theorem plain_loadMapping (page grantId : String) : Plain (loadMapping page grantId) := by
  refine plain_bind (plain_lift _) fun _ => plain_bind (plain_readMapping page grantId) fun m => ?_
  cases m with
  | none => exact plain_throw _
  | some m =>
      simp only
      split
      · exact plain_pure m
      · exact plain_throw _

theorem plain_deleteQurl (clientResource resource qurlId : String) :
    Plain (deleteQurl clientResource resource qurlId) := by
  rw [deleteQurl_eq rfl rfl]
  generalize strip (if resource = "" then clientResource else resource) = effective
  split
  · exact plain_throw _
  · exact plain_ask (e := .deleteQurl _ _) trivial

theorem keeps_revoke (cfg : Config) {page grantId crid qurlId : String} (h : w₀.Kept p w) :
    Keeps w₀ p (revoke cfg page grantId crid qurlId) w :=
  leaves_mono (leaves_revoke cfg h) fun _ _ h => h.1

/-- A transaction that only reads. -/
theorem leaves_binding {page owner : String} :
    Leaves w₀ (askRegistry (.binding page owner)) (fun o w' =>
      o = .ok (w.registry.resources.find? (page, owner)) ∧ w = w') w :=
  leaves_registry fun _ => ⟨rfl, rfl⟩

theorem keeps_revokeOwned (cfg : Config) {page grantId : String} (h : w₀.Kept p w) :
    Keeps w₀ p (revokeOwned cfg page grantId) w := by
  unfold revokeOwned
  refine leaves_bind leaves_binding ?_ fun e w' he => nomatch he.1
  rintro _ _ ⟨⟨⟩, rfl⟩
  cases w.registry.resources.find? (page, grantId) with
  | none => exact keeps_pure h
  | some r =>
      simp only
      split
      · exact keeps_throw h
      · exact keeps_revoke cfg h

theorem keeps_retireMapped (cfg : Config) {page grantId : String} {m : Mapping}
    (h : w₀.Kept p w) : Keeps w₀ p (retireMapped cfg page grantId m) w := by
  unfold retireMapped
  split
  · split
    · exact keeps_revoke cfg h
    · exact keeps_throw h
  · exact keeps_plain (plain_deleteQurl cfg.resourceId m.resource m.qurlId) h

theorem keeps_deleteGrant (cfg : Config) {page grantId : String} (h : w₀.Kept p w) :
    Keeps w₀ p (deleteGrant cfg page grantId) w := by
  unfold deleteGrant
  refine keeps_attempt (keeps_plain (plain_loadMapping page grantId) h) fun o w₁ h₁ => ?_
  split
  · rename_i m
    refine keeps_bind (keeps_retireMapped cfg h₁) fun missing w₂ h₂ => ?_
    refine keeps_bind (keeps_ask (e := .unlinkMapping page grantId) trivial h₂) fun _ w₃ h₃ => ?_
    exact keeps_bind (keeps_ask (e := .syncData) trivial h₃) fun _ w₄ h₄ => keeps_pure h₄
  · split
    · exact keeps_revokeOwned cfg h₁
    · exact keeps_throw h₁
  · exact keeps_throw h₁

theorem keeps_queueRevocation (cfg : Config) {page grantId : String} (h : w₀.Kept p w) :
    Keeps w₀ p (queueRevocation cfg page grantId) w := by
  unfold queueRevocation
  refine keeps_attempt (keeps_plain (plain_loadMapping page grantId) h) fun o w₁ h₁ => ?_
  split
  · exact keeps_bind (keeps_ask (e := .insertRevocation page grantId) trivial h₁)
      fun _ w₂ h₂ => keeps_pure h₂
  · split
    · exact keeps_bind (keeps_deleteGrant cfg h₁) fun _ w₂ h₂ => keeps_pure h₂
    · exact keeps_throw h₁
  · exact keeps_throw h₁

/-! ## Whether a grant is live -/

/-- A file that is found was there from the start. -/
theorem leaves_mappingExists {page grantId : String} (h : w₀.Kept p w) :
    Leaves w₀ (mappingExists page grantId) (fun o w' => w₀.Kept p w' ∧ (o = .ok true →
      w₀.mappings.find? (mappingPath page grantId) ≠ none)) w := by
  unfold mappingExists
  refine leaves_lift (fun _ => leaves_ask fun t => ⟨h.frame ?_ rfl, fun ho hnone => ?_⟩)
    fun e => ⟨h, nofun⟩
  · exact (Op.Plain.frame (e := .mappingExists page grantId) trivial t.1 w).1
  · have hfind := h.mappings _ hnone
    rw [Op.perform, hfind, Option.isSome_none, Bool.and_false] at ho
    cases ho

theorem keeps_mappingExists {page grantId : String} (h : w₀.Kept p w) :
    Keeps w₀ p (mappingExists page grantId) w :=
  leaves_mono (leaves_mappingExists h) fun _ _ h => h.1

theorem leaves_gatewayGrantLive (cfg : Config) {page grantId : String} (h : w₀.Kept p w) :
    Leaves w₀ (gatewayGrantLive cfg page grantId) (fun o w' => w₀.Kept p w' ∧ (o = .ok true →
      w₀.mappings.find? (mappingPath page grantId) ≠ none)) w := by
  unfold gatewayGrantLive
  refine leaves_bind (leaves_mappingExists h) ?_ fun e w₁ h₁ => ⟨h₁.1, by rintro ⟨⟩⟩
  rintro b w₁ ⟨h₁, hb⟩
  cases b with
  | false => exact leaves_pure ⟨h₁, by rintro ⟨⟩⟩
  | true =>
      have hfile := hb rfl
      refine leaves_mono (Q := fun _ w' => w₀.Kept p w') ?_ fun _ _ h => ⟨h, fun _ => hfile⟩
      rw [if_pos rfl]
      split
      · refine keeps_bind (keeps_plain (plain_loadMapping page grantId) h₁) fun m w₂ h₂ => ?_
        refine keeps_bind (keeps_ask (e := .loadGateway page) trivial h₂) fun grants w₃ h₃ => ?_
        cases grants <;> exact keeps_pure h₃
      · exact keeps_pure h₁

theorem leaves_liveMapping (cfg : Config) {page grantId : String} (h : w₀.Kept p w) :
    Leaves w₀ (liveMapping cfg page grantId) (fun o w' => w₀.Kept p w' ∧ (o = .ok true →
      w₀.mappings.find? (mappingPath page grantId) ≠ none)) w := by
  unfold liveMapping
  refine leaves_bind (leaves_gatewayGrantLive cfg h) ?_ fun e w₁ h₁ => ⟨h₁.1, by rintro ⟨⟩⟩
  rintro b w₁ ⟨h₁, hb⟩
  cases b with
  | true => exact leaves_pure ⟨h₁, fun _ => hb rfl⟩
  | false =>
      show Leaves w₀ (if cfg.gatewayGrantsDir then queueUnowned cfg page grantId
        else pure false : BrokerM Bool) _ w₁
      split
      · unfold queueUnowned
        refine leaves_bind (leaves_mappingExists h₁) ?_ fun e w₂ h₂ => ⟨h₂.1, by rintro ⟨⟩⟩
        rintro b w₂ ⟨h₂, hb⟩
        cases b with
        | false => exact leaves_pure ⟨h₂, by rintro ⟨⟩⟩
        | true =>
            have hqueue : Keeps w₀ p (do
                let _ ← queueRevocation cfg page grantId
                return true : BrokerM Bool) w₂ :=
              keeps_bind (keeps_queueRevocation cfg h₂) fun _ w₃ h₃ => keeps_pure h₃
            exact leaves_mono hqueue fun _ _ h => ⟨h, fun _ => hb rfl⟩
      · exact leaves_pure ⟨h₁, by rintro ⟨⟩⟩

theorem keeps_drainRevocation (cfg : Config) {r : Revocation} (h : w₀.Kept p w) :
    Keeps w₀ p (drainRevocation cfg r) w := by
  unfold drainRevocation
  refine keeps_bind ?_ fun live w₁ h₁ => ?_
  · unfold stillAuthorized
    split
    · exact leaves_mono (leaves_gatewayGrantLive cfg h) fun _ _ h => h.1
    · exact keeps_pure h
  split
  · exact keeps_pure h₁
  refine keeps_attempt (keeps_deleteGrant cfg h₁) fun o w₂ h₂ => ?_
  split
  · exact keeps_ask (e := .deleteRevocation r.page r.grantId) trivial h₂
  · split
    · exact keeps_ask (e := .postponeRevocation r.page r.grantId _) trivial h₂
    · exact keeps_throw h₂

theorem keeps_drainRevocations (cfg : Config) (h : w₀.Kept p w) :
    Keeps w₀ p (drainRevocations cfg) w := by
  have hrows : ∀ (rs : List Revocation) (w : World), w₀.Kept p w →
      Keeps w₀ p (drainRevocationRows cfg rs) w := by
    intro rs
    induction rs with
    | nil => exact fun w h => keeps_pure h
    | cons r rs ih => exact fun w h => keeps_bind (keeps_drainRevocation cfg h) fun _ w' h' => ih w' h'
  unfold drainRevocations
  exact keeps_bind (keeps_ask (e := .selectRevocations) trivial h) fun rs w' h' => hrows rs w' h'

/-! ## Orphans -/

/-- A row that is being created becomes ready, or nothing comes of it. -/
theorem leaves_bindIdentity {page owner crid publicKey : String} {r : Resource} (h : w₀.Kept p w)
    (hr : r ∈ w.registry.resources) (hat : r.At page owner) (hphase : r.phase = .creating)
    (hcrid : cridRe crid = true) (hkey : strip publicKey = publicKey ∧ publicKey ≠ "") :
    Leaves w₀ (bindIdentity page owner crid publicKey) (fun o w' => w₀.Kept p w' ∧
      ((∃ a, o = .ok a) → w₀.Kept False w')) w := by
  unfold bindIdentity
  refine leaves_attempt (P := fun o w' => w₀.Kept p w' ∧ ((∃ a, o = .ok a) → w₀.Kept False w'))
    (leaves_registry fun t => ?_) fun o w₁ h₁ => ?_
  · have hinv := (RegistryOp.perform_inv t.1.now (.bind page owner crid publicKey) h.registry
      ⟨hcrid, hkey, r, hr, hat, hphase⟩).1
    simp only [RegistryOp.perform] at hinv ⊢
    split
    · exact ⟨h, by rintro ⟨_, ⟨⟩⟩⟩
    · rename_i hfree
      rw [if_neg hfree] at hinv
      have hle : r.Le { r with crid := some crid, publicKey := some publicKey, phase := .ready } :=
        ⟨rfl, by rw [hphase]; exact Nat.zero_le _, Nat.le_refl _⟩
      have hlt : r.Lt { r with crid := some crid, publicKey := some publicKey, phase := .ready } := by
        refine .inl ?_
        rw [hphase]
        exact Nat.zero_lt_one
      exact World.Kept.both (h.ahead ⟨fun _ hp => hp, rfl⟩ hinv hr (changes_setResource hr hat) hle hlt)
  · split
    · exact leaves_pure ⟨h₁.1, fun _ => h₁.2 ⟨_, rfl⟩⟩
    · exact leaves_throw ⟨h₁.1, by rintro ⟨_, ⟨⟩⟩⟩
    · exact leaves_throw ⟨h₁.1, by rintro ⟨_, ⟨⟩⟩⟩

theorem leaves_publishResource {page owner target : String} {r : Resource} (h : w₀.Kept p w)
    (hr : r ∈ w.registry.resources) (hat : r.At page owner) (hphase : r.phase = .creating) :
    Leaves w₀ (publishResource page owner target r.connectorId) (fun o w' => w₀.Kept p w' ∧
      ((∃ a, o = .ok a) → w₀.Kept False w')) w := by
  unfold publishResource
  refine leaves_bind (P := fun o w' => w₀.Kept p w' ∧ w'.registry = w.registry ∧
    ∀ reply, o = .ok reply → ∀ k, reply.resourceId = some k → strip k = k)
    (leaves_ask fun t => ⟨h.frame ⟨fun _ hp => hp, rfl⟩ rfl, rfl, ?_⟩) (fun reply w₁ h₁ => ?_)
    fun e w₁ h₁ => ⟨h₁.1, nofun⟩
  · rintro _ ⟨⟩ k hk
    obtain ⟨k', -, rfl⟩ := Option.map_eq_some_iff.mp hk
    exact strip_strip k'
  · obtain ⟨h₁, hreg₁, hkey⟩ := h₁
    split
    · exact leaves_throw ⟨h₁, nofun⟩
    · rename_i crid publicKey hid
      obtain ⟨-, hk, hcrid, hne⟩ := confirmedIdentity_eq_some hid
      refine leaves_bind (leaves_bindIdentity h₁ (hreg₁ ▸ hr) hat hphase hcrid
        ⟨hkey reply rfl _ hk, hne⟩) (fun _ w₂ h₂ => leaves_pure ⟨h₂.1, fun _ => h₂.2 ⟨_, rfl⟩⟩)
        fun e w₂ h₂ => ⟨h₂.1, nofun⟩

theorem leaves_identity {page owner target : String} {r : Resource} (h : w₀.Kept p w)
    (hr : r ∈ w.registry.resources) (hat : r.At page owner) :
    Leaves w₀ (identity page owner target r) (fun o w' => w₀.Kept p w' ∧
      ((r.phase = .creating ∧ ∃ a, o = .ok a) → w₀.Kept False w')) w := by
  unfold identity
  split
  · rename_i hphase
    exact leaves_mono (leaves_publishResource h hr hat hphase) fun o w' ho => ⟨ho.1, fun hc => ho.2 hc.2⟩
  · rename_i hphase _ _
    refine leaves_pure ⟨h, fun hc => ?_⟩
    rw [hphase] at hc
    cases hc.1
  · exact leaves_throw ⟨h, nofun⟩
  · exact leaves_throw ⟨h, nofun⟩
  · exact leaves_throw ⟨h, nofun⟩

/-- A row that is new was not there at the start. -/
theorem World.Kept.insert {page owner connectorId target : String} {now : Instant}
    {t : Table Resource _} (h : w₀.Kept p w)
    (hfresh : ∀ r ∈ w.registry.resources, r.connectorId ≠ connectorId)
    (hname : owner = "__page__" ∨ grantIdRe owner = true)
    (ht : w.registry.resources.insert
      ⟨page, owner, connectorId, target, none, none, .creating, now, 0, 0⟩ = some t) :
    w₀.Kept False { w with registry := { w.registry with resources := t } } := by
  obtain ⟨-, hmem⟩ := Table.insert_eq_some ht
  have hpast : w.registry.Past { w.registry with resources := t } :=
    fun r hr => ⟨r, (hmem r).mpr (.inl hr), .refl r⟩
  refine ⟨(inv_insert h.registry hfresh hname ht).1, h.mappings, h.policy, .inl ?_⟩
  rcases h.same with hb | ⟨-, he⟩
  · exact hb.trans hpast
  · refine ⟨_, (hmem _).mpr (.inr rfl), fun r hr hc => ?_⟩
    rw [← he] at hr
    exact absurd hc (hfresh r hr)

theorem leaves_bindingOrNew (cfg : Config) {page owner target : String} {generation : Nat}
    (h : w₀.Kept p w) (hname : grantIdRe owner = true) :
    Leaves w₀ (bindingOrNew cfg .guest page owner target generation
      (w.registry.resources.find? (page, owner))) (fun o w' => w₀.Kept p w' ∧
        (∀ r, o = .ok r → r ∈ w'.registry.resources ∧ r.At page owner) ∧
        ∀ r ∈ w.registry.resources, r.At page owner → o = .ok r ∧ w' = w) w := by
  cases hfind : w.registry.resources.find? (page, owner) with
  | some r =>
      obtain ⟨hr, hat⟩ := find?_resources.mp hfind
      refine leaves_pure ⟨h, ?_, fun s hs hsat => ?_⟩
      · rintro _ ⟨⟩
        exact ⟨hr, hat⟩
      · obtain rfl := Resource.At.unique hs hr hsat hat
        exact ⟨rfl, rfl⟩
  | none =>
      have hnone := find?_resources_none.mp hfind
      suffices hnew : Leaves w₀ (allocate cfg .guest page owner target generation)
          (fun o w' => w₀.Kept p w' ∧ ∀ r, o = .ok r → r ∈ w'.registry.resources ∧ r.At page owner) w
          from leaves_mono hnew fun o w' ho => ⟨ho.1, ho.2, fun r hr hat => absurd hat (hnone r hr)⟩
      unfold allocate
      refine leaves_bind (P := fun _ w' => w₀.Kept p w') (leaves_registry fun t => ?_)
        (fun _ w₁ h₁ => ?_) fun e w₁ h₁ => ⟨h₁, by rintro _ ⟨⟩⟩
      · simp only [RegistryOp.perform]
        split
        · exact h
        · rename_i hfresh
          rw [Bool.not_eq_true, List.any_eq_false] at hfresh
          split
          · rename_i t ht
            exact (h.insert (fun r hr he => hfresh r hr (decide_eq_true he)) (.inr hname) ht).weaken
          · exact h
      · refine leaves_bind leaves_binding ?_ (by rintro e w' ⟨⟨⟩, -⟩)
        rintro _ _ ⟨⟨⟩, rfl⟩
        cases hfind : w₁.registry.resources.find? (page, owner) with
        | none => exact leaves_throw ⟨h₁, by rintro _ ⟨⟩⟩
        | some r =>
            refine leaves_pure ⟨h₁, ?_⟩
            rintro _ ⟨⟩
            exact find?_resources.mp hfind

/-- **`ensure`** of a guest: a row that was being created is ready when it
returns. -/
theorem leaves_ensure (cfg : Config) {page grantId target : String} (h : w₀.Kept p w) :
    Leaves w₀ (ensure cfg page grantId target .guest) (fun o w' => w₀.Kept p w' ∧
      ∀ r ∈ w.registry.resources, r.At page grantId → r.phase = .creating → (∃ c, o = .ok c) →
        w₀.Kept False w') w := by
  unfold ensure
  split
  · exact leaves_throw ⟨h, fun _ _ _ _ => nofun⟩
  rename_i hvalid
  have hgrant : grantIdRe grantId = true := by
    rw [not_or, Bool.not_eq_false, Bool.not_eq_false] at hvalid
    exact hvalid.2
  refine leaves_bind leaves_binding ?_ fun e w' he => nomatch he.1
  rintro _ _ ⟨⟨⟩, rfl⟩
  refine leaves_bind (P := fun o w' =>
    o = .ok (0, w.registry.resources.find? (page, grantId)) ∧ w = w') (leaves_pure ⟨rfl, rfl⟩) ?_
    fun e w' he => nomatch he.1
  rintro _ _ ⟨⟨⟩, rfl⟩
  refine leaves_bind (leaves_bindingOrNew cfg h hgrant) (fun r w₁ ⟨h₁, hrow, hself⟩ => ?_)
    fun e w₁ h₁ => ⟨h₁.1, fun _ _ _ _ => nofun⟩
  obtain ⟨hr, hat⟩ := hrow r rfl
  have hcreating : ∀ s ∈ w.registry.resources, s.At page grantId → s.phase = .creating →
      r.phase = .creating := by
    intro s hs hsat hp
    obtain ⟨⟨⟩, -⟩ := hself s hs hsat
    exact hp
  split
  · exact leaves_throw ⟨h₁, fun _ _ _ _ => nofun⟩
  refine leaves_bind (leaves_identity h₁ hr hat) (fun q w₂ ⟨h₂, hahead⟩ => ?_)
    fun e w₂ h₂ => ⟨h₂.1, fun _ _ _ _ => nofun⟩
  obtain ⟨crid, publicKey⟩ := q
  have hdone : ∀ {q : Prop}, w₀.Kept q w₂ → Keeps w₀ q (do
      ensureReady cfg publicKey
      return Client.new crid publicKey .guest) w₂ := by
    intro q hq
    refine keeps_bind ?_ fun _ w₃ h₃ => keeps_pure h₃
    unfold ensureReady
    split
    · exact keeps_ask (e := .ensureReady publicKey) trivial hq
    · exact keeps_pure hq
  by_cases hphase : r.phase = .creating
  · refine leaves_mono (hdone (hahead ⟨hphase, _, rfl⟩)) fun o w₃ h₃ => ?_
    exact ⟨h₃.weaken, fun _ _ _ _ _ => h₃⟩
  · exact leaves_mono (hdone h₂) fun o w₃ h₃ =>
      ⟨h₃, fun s hs hsat hp => absurd (hcreating s hs hsat hp) hphase⟩

theorem leaves_retireOrphan (cfg : Config) {r : Resource} (h : w₀.Kept p w) :
    Leaves w₀ (retireOrphan cfg r) (fun o w' => w₀.Kept p w' ∧
      (r ∈ w.registry.resources → r.phase = .creating ∨ r.phase = .ready → (∃ u, o = .ok u) →
        w₀.Kept False w')) w := by
  have hrevoke : ∀ {q : Prop} {w : World} {crid : String}, w₀.Kept q w → Keeps w₀ q (do
      let _ ← revoke cfg r.page r.grantId crid ""
      return () : BrokerM Unit) w :=
    fun h => keeps_bind (keeps_revoke cfg h) fun _ _ h => keeps_pure h
  unfold retireOrphan orphanCrid
  split
  · rename_i hphase
    refine leaves_bind (P := fun o w' => w₀.Kept p w' ∧ (r ∈ w.registry.resources →
      (∃ c, o = .ok c) → w₀.Kept False w')) ?_ (fun crid w₁ ⟨h₁, hahead⟩ => ?_)
      fun e w₁ h₁ => ⟨h₁.1, fun _ _ => nofun⟩
    · refine leaves_bind (leaves_ensure cfg h) (fun c w₁ h₁ => leaves_pure ?_)
        fun e w₁ h₁ => ⟨h₁.1, fun _ => nofun⟩
      exact ⟨h₁.1, fun hr _ => h₁.2 r hr ⟨rfl, rfl⟩ hphase ⟨c, rfl⟩⟩
    · by_cases hr : r ∈ w.registry.resources
      · exact leaves_mono (hrevoke (hahead hr ⟨crid, rfl⟩)) fun o w₂ h₂ => ⟨h₂.weaken, fun _ _ _ => h₂⟩
      · exact leaves_mono (hrevoke h₁) fun o w₂ h₂ => ⟨h₂, fun hr' => absurd hr' hr⟩
  · rename_i hne
    refine leaves_bind (P := fun o w' => o = .ok (r.crid.getD "") ∧ w = w') (leaves_pure ⟨rfl, rfl⟩) ?_
      fun e w' he => nomatch he.1
    rintro _ _ ⟨⟨⟩, rfl⟩
    refine leaves_bind (leaves_revoke cfg h) (fun b w₁ h₁ => leaves_pure ⟨h₁.1, fun hr hp _ => ?_⟩)
      fun e w₁ h₁ => ⟨h₁.1, fun _ _ => nofun⟩
    have hready : r.phase = .ready := hp.resolve_left hne
    obtain ⟨crid, hcrid⟩ := h.registry.bound r hr (.inl hready)
    refine (h₁.2 r hr ⟨rfl, rfl⟩ ?_ ?_).2
    · rw [hcrid]
      rfl
    · rw [hready]
      exact nofun

/-- An orphan that is postponed had an attempt. -/
theorem World.Kept.postpone {r : Resource} {now : Instant} {delay : Int} {rateLimited : Bool}
    (h : w₀.Kept p w) (hr : p → r ∈ w₀.registry.resources)
    (hp : r.phase = .creating ∨ r.phase = .ready) :
    w₀.Kept False { w with registry :=
      ((RegistryOp.postponeOrphan r.page r.grantId delay rateLimited).perform now w.registry).2 } := by
  obtain ⟨hinv, -⟩ := postponeOrphan_inv r.page r.grantId now delay rateLimited h.registry
  have hmem : ∀ a ∈ w.registry.resources, (if a.page = r.page ∧ a.grantId = r.grantId ∧
      (a.phase = .creating ∨ a.phase = .ready) then
        { a with
          recoveryDue := now + second * delay
          recoveryAttempts := a.recoveryAttempts + 1 } else a) ∈
      ((RegistryOp.postponeOrphan r.page r.grantId delay rateLimited).perform now
        w.registry).2.resources := by
    intro a ha
    simp only [RegistryOp.perform, Table.mem_updateWhere, decide_eq_true_eq]
    exact ⟨a, ha, rfl⟩
  refine ⟨hinv, h.mappings, h.policy, .inl ?_⟩
  rcases h.same with hb | ⟨hq, he⟩
  · refine hb.trans fun a ha => ⟨_, hmem a ha, ?_⟩
    split
    · exact ⟨rfl, Nat.le_refl _, Nat.le_succ _⟩
    · exact .refl a
  · have hr₀ : r ∈ w.registry.resources := he ▸ hr hq
    have hrow := hmem r hr₀
    rw [if_pos ⟨rfl, rfl, hp⟩] at hrow
    refine ⟨_, hrow, fun a ha hc => ?_⟩
    obtain rfl := h.registry.connector_unique a (he ▸ ha) r hr₀ hc
    exact .inr (Nat.lt_succ_self _)

/-- A row that was selected is in the database as it is, or some row is
ahead already. -/
theorem World.Kept.selected {r : Resource} (h : w₀.Kept p w) (hr : p → r ∈ w₀.registry.resources) :
    ∃ q : Prop, (q → p) ∧ w₀.Kept q w ∧ (q → r ∈ w.registry.resources) := by
  rcases h.same with hb | ⟨hp, he⟩
  · exact ⟨False, False.elim, ⟨h.registry, h.mappings, h.policy, .inl hb⟩, False.elim⟩
  · exact ⟨p, id, h, fun hp => he ▸ hr hp⟩

/-- **The scan for orphans.** Every row it looks at has its mapping, or some
row got ahead. -/
theorem leaves_retireOrphanRows (cfg : Config) {rs : List Resource} (h : w₀.Kept p w)
    (hrs : ∀ r ∈ rs, (r.phase = .creating ∨ r.phase = .ready) ∧ (p → r ∈ w₀.registry.resources)) :
    Leaves w₀ (retireOrphanRows cfg (liveMapping cfg) rs) (fun o w' => w₀.Kept p w' ∧
      ((∃ u, o = .ok u) → w₀.Kept False w' ∨
        ∀ r ∈ rs, w₀.mappings.find? (mappingPath r.page r.grantId) ≠ none)) w := by
  induction rs generalizing w p with
  | nil => exact leaves_pure ⟨h, fun _ => .inr fun _ hr => absurd hr List.not_mem_nil⟩
  | cons r rs ih =>
      obtain ⟨hphase, hr⟩ := hrs r List.mem_cons_self
      have hrest : ∀ s ∈ rs, (s.phase = .creating ∨ s.phase = .ready) ∧
          (p → s ∈ w₀.registry.resources) := fun s hs => hrs s (List.mem_cons_of_mem _ hs)
      -- once a row is ahead, the others do not matter
      have hahead : ∀ {w : World}, w₀.Kept False w →
          Leaves w₀ (retireOrphanRows cfg (liveMapping cfg) rs) (fun o w' => w₀.Kept p w' ∧
            ((∃ u, o = .ok u) → w₀.Kept False w' ∨
              ∀ s ∈ r :: rs, w₀.mappings.find? (mappingPath s.page s.grantId) ≠ none)) w := by
        intro w hw
        refine leaves_mono (ih hw fun s hs => ⟨(hrest s hs).1, False.elim⟩) fun o w' h' => ?_
        exact ⟨h'.1.weaken, fun _ => .inl h'.1⟩
      unfold retireOrphanRows
      refine leaves_bind (leaves_liveMapping cfg h) ?_ fun e w₁ h₁ => ⟨h₁.1, by rintro ⟨_, ⟨⟩⟩⟩
      rintro b w₁ ⟨h₁, hb⟩
      cases b with
      | true =>
          refine leaves_mono (ih h₁ hrest) fun o w₂ h₂ => ⟨h₂.1, fun hok => (h₂.2 hok).imp_right ?_⟩
          intro hall s hs
          rcases List.mem_cons.mp hs with rfl | hs
          · exact hb rfl
          · exact hall s hs
      | false =>
          obtain ⟨q, hqp, h₁, hrow⟩ := h₁.selected hr
          refine leaves_attempt (leaves_retireOrphan cfg h₁) ?_
          rintro o w₂ ⟨h₂, hlt⟩
          split
          · refine hahead ?_
            by_cases hq : q
            · exact hlt (hrow hq) hphase ⟨_, rfl⟩
            · exact h₂.imp hq
          · refine leaves_bind (P := fun _ w₃ => w₀.Kept False w₃)
              (leaves_registry fun t => h₂.postpone (fun hq => hr (hqp hq)) hphase)
              (fun _ w₃ h₃ => ?_) fun e w₃ h₃ => ⟨h₃.weaken, by rintro ⟨_, ⟨⟩⟩⟩
            split
            · exact leaves_pure ⟨h₃.weaken, fun _ => .inl h₃⟩
            · exact hahead h₃
          · exact leaves_throw ⟨h₂.imp hqp, by rintro ⟨_, ⟨⟩⟩⟩

/-! ## What is selected -/

/-- The rows the scan for orphans takes its fifty from, in the order they
are in. -/
def Registry.orphanScan (g : Registry) : List Resource :=
  g.resources.rows.filter fun r => r.grantId ≠ "__page__" ∧ (r.phase = .creating ∨ r.phase = .ready)

theorem mem_orphanScan {g : Registry} {r : Resource} : r ∈ g.orphanScan ↔
    r ∈ g.resources ∧ r.grantId ≠ "__page__" ∧ (r.phase = .creating ∨ r.phase = .ready) := by
  rw [Registry.orphanScan, List.mem_filter, decide_eq_true_eq]
  rfl

/-- The scan once every schedule is past. -/
theorem selectOrphans_late {g : Registry} {now : Instant} (h : g.Late now) :
    (RegistryOp.selectOrphans 300).perform now g = (.ok (some (g.orphanScan.take 50)), g) := by
  have hgate : (g.gate.any fun due => now < due) = false := by
    cases hg : g.gate with
    | none => rfl
    | some due => simpa using h.gate due hg
  have hrows : (g.resources.rows.filter fun r => r.grantId ≠ "__page__" ∧
      (r.phase = .creating ∨ r.phase = .ready) ∧ r.createdAt ≤ now - second * 300 ∧
        r.recoveryDue ≤ now) = g.orphanScan := by
    refine List.filter_congr fun r hr => ?_
    have hgrace := h.grace r hr
    have hrecovery := h.recovery r hr
    simp only [decide_eq_decide]
    tauto
  simp only [RegistryOp.perform, hrows]
  rw [hgate]
  rfl

theorem leaves_retireOrphans (cfg : Config) (h : w₀.Kept p w) :
    Leaves w₀ (retireOrphans cfg (liveMapping cfg)) (fun o w' => w₀.Kept p w' ∧
      ((∃ u, o = .ok u) → w₀.Kept False w' ∨ ∀ r ∈ w₀.registry.orphanScan.take 50,
        w₀.mappings.find? (mappingPath r.page r.grantId) ≠ none)) w := by
  unfold retireOrphans
  rcases h.same with hb | ⟨hp, he⟩
  · have hF : w₀.Kept False w := ⟨h.registry, h.mappings, h.policy, .inl hb⟩
    suffices hgo : Leaves w₀ (retireOrphans cfg (liveMapping cfg)) (fun _ w' => w₀.Kept False w') w
      from leaves_mono hgo fun o w' h' => ⟨h'.weaken, fun _ => .inl h'⟩
    unfold retireOrphans
    -- once a row is ahead, what is selected does not matter
    refine leaves_bind (P := fun o w' => w₀.Kept False w' ∧ ∀ rs, o = .ok (some rs) →
      ∀ r ∈ rs, r.phase = .creating ∨ r.phase = .ready) (leaves_registry fun t => ?_)
      (fun rows w₁ h₁ => ?_) fun e w₁ h₁ => h₁.1
    · simp only [RegistryOp.perform]
      split
      · exact ⟨hF, by rintro _ ⟨⟩⟩
      · refine ⟨hF, ?_⟩
        rintro _ ⟨⟩ r hr
        have hsel := (List.mem_filter.mp (List.mem_of_mem_take hr)).2
        rw [decide_eq_true_eq] at hsel
        exact hsel.2.1
    · cases rows with
      | none => exact leaves_pure h₁.1
      | some rs =>
          refine leaves_mono (leaves_retireOrphanRows cfg h₁.1 fun r hr => ?_) fun _ _ h' => h'.1
          exact ⟨h₁.2 rs rfl r hr, False.elim⟩
  · refine leaves_bind (P := fun o w' => o = .ok (some (w₀.registry.orphanScan.take 50)) ∧ w = w')
      (leaves_registry fun t => ?_) ?_ (by rintro e w₁ ⟨⟨⟩, -⟩)
    · rw [he, selectOrphans_late t.2.2, ← he]
      exact ⟨rfl, rfl⟩
    · rintro _ _ ⟨⟨⟩, rfl⟩
      refine leaves_retireOrphanRows cfg h fun r hr => ?_
      obtain ⟨hr, -, hphase⟩ := mem_orphanScan.mp (List.mem_of_mem_take hr)
      exact ⟨hphase, fun _ => hr⟩

/-! ## Page pools -/

theorem leaves_retirePoolRows (cfg : Config) {rs : List Resource} (h : w₀.Kept p w)
    (hrs : p → ∀ r ∈ rs, r ∈ w₀.registry.resources ∧ r.grantId = "__page__" ∧ r.phase = .ready) :
    Leaves w₀ (retirePoolRows cfg pageExists rs) (fun o w' => w₀.Kept p w' ∧
      ((∃ u, o = .ok u) → w₀.Kept False w' ∨ ∀ r ∈ rs, r.page ∈ w₀.policy)) w := by
  induction rs generalizing w p with
  | nil => exact leaves_pure ⟨h, fun _ => .inr fun _ hr => absurd hr List.not_mem_nil⟩
  | cons r rs ih =>
      have hrest : p → ∀ s ∈ rs, s ∈ w₀.registry.resources ∧ s.grantId = "__page__" ∧
          s.phase = .ready := fun hp s hs => hrs hp s (List.mem_cons_of_mem _ hs)
      have hahead : ∀ {w : World}, w₀.Kept False w →
          Leaves w₀ (retirePoolRows cfg pageExists rs) (fun o w' => w₀.Kept p w' ∧
            ((∃ u, o = .ok u) → w₀.Kept False w' ∨ ∀ s ∈ r :: rs, s.page ∈ w₀.policy)) w := by
        intro w hw
        refine leaves_mono (ih hw False.elim) fun o w' h' => ?_
        exact ⟨h'.1.weaken, fun _ => .inl h'.1⟩
      unfold retirePoolRows
      refine leaves_bind (P := fun o w' => w₀.Kept p w' ∧ (o = .ok true → r.page ∈ w₀.policy))
        (leaves_ask fun t => ⟨h.frame ⟨fun _ hp => hp, rfl⟩ rfl, fun ho => ?_⟩)
        ?_ fun e w₁ h₁ => ⟨h₁.1, by rintro ⟨_, ⟨⟩⟩⟩
      · rw [← h.policy]
        exact of_decide_eq_true (Bool.and_eq_true_iff.mp (Except.ok.inj ho)).2
      rintro b w₁ ⟨h₁, hb⟩
      cases b with
      | true =>
          refine leaves_mono (ih h₁ hrest) fun o w₂ h₂ => ⟨h₂.1, fun hok => (h₂.2 hok).imp_right ?_⟩
          intro hall s hs
          rcases List.mem_cons.mp hs with rfl | hs
          · exact hb rfl
          · exact hall s hs
      | false =>
          obtain ⟨q, hqp, h₁, hrow⟩ := h₁.selected fun hp => (hrs hp r List.mem_cons_self).1
          refine leaves_attempt (leaves_revoke cfg h₁) ?_
          rintro o w₂ ⟨h₂, hlt⟩
          have hF : w₀.Kept False w₂ := by
            by_cases hq : q
            · obtain ⟨hr₀, hpool, hready⟩ := hrs (hqp hq) r List.mem_cons_self
              obtain ⟨crid, hcrid⟩ := h₁.registry.bound r (hrow hq) (.inl hready)
              refine (hlt r (hrow hq) ⟨rfl, hpool⟩ ?_ ?_).2
              · rw [hcrid]
                rfl
              · rw [hready]
                rintro ⟨⟩
            · exact h₂.imp hq
          split
          · exact hahead hF
          · exact hahead hF
          · exact leaves_throw ⟨hF.weaken, by rintro ⟨_, ⟨⟩⟩⟩

theorem leaves_retireDeletedPagePools (cfg : Config) (h : w₀.Kept p w) :
    Leaves w₀ (retireDeletedPagePools cfg pageExists) (fun o w' => w₀.Kept p w' ∧
      ((∃ u, o = .ok u) → w₀.Kept False w' ∨ ∀ r ∈ w₀.registry.resources,
        r.grantId = "__page__" → r.phase = .ready → r.page ∈ w₀.policy)) w := by
  unfold retireDeletedPagePools
  refine leaves_bind (P := fun o w' => o = .ok (w.registry.resources.rows.filter fun r =>
    r.grantId = "__page__" ∧ r.phase = .ready) ∧ w = w') (leaves_registry fun t => ⟨rfl, rfl⟩) ?_
    fun e w₁ he => nomatch he.1
  rintro _ _ ⟨⟨⟩, rfl⟩
  rcases h.same with hb | ⟨hp, he⟩
  · have hF : w₀.Kept False w := ⟨h.registry, h.mappings, h.policy, .inl hb⟩
    refine leaves_mono (leaves_retirePoolRows cfg hF False.elim) fun o w' h' => ?_
    exact ⟨h'.1.weaken, fun _ => .inl h'.1⟩
  · rw [he]
    refine leaves_mono (leaves_retirePoolRows cfg h fun _ r hr => ?_) fun o w' h' =>
      ⟨h'.1, fun ho => (h'.2 ho).imp_right fun hall r hr hpool hready => hall r ?_⟩
    · have hr := List.mem_filter.mp hr
      rw [decide_eq_true_eq] at hr
      exact hr
    · exact List.mem_filter.mpr ⟨hr, decide_eq_true ⟨hpool, hready⟩⟩

/-! ## Retirements -/

theorem World.Kept.postponeRetirement {page grantId : String} {now : Instant} {delay : Int}
    (h : w₀.Kept False w) : w₀.Kept False { w with registry :=
      ((RegistryOp.postponeRetirement page grantId delay).perform now w.registry).2 } :=
  h.past ⟨fun _ hp => hp, rfl⟩ (postponeRetirement_inv h.registry) (.of_eq rfl)

/-- A retirement that is drained moves its row. -/
theorem leaves_drainRetirementRows (cfg : Config) {qs : List Retirement} (h : w₀.Kept p w)
    (hqs : p → ∀ q ∈ qs, q ∈ w₀.registry.retirements) :
    Leaves w₀ (drainRetirementRows cfg qs) (fun o w' => w₀.Kept p w' ∧
      ((∃ u, o = .ok u) → w₀.Kept False w' ∨ qs = [])) w := by
  induction qs generalizing w p with
  | nil => exact leaves_pure ⟨h, fun _ => .inr rfl⟩
  | cons q qs ih =>
      have hahead : ∀ {w : World}, w₀.Kept False w →
          Leaves w₀ (drainRetirementRows cfg qs) (fun o w' => w₀.Kept p w' ∧
            ((∃ u, o = .ok u) → w₀.Kept False w' ∨ q :: qs = [])) w := by
        intro w hw
        refine leaves_mono (ih hw False.elim) fun o w' h' => ?_
        exact ⟨h'.1.weaken, fun _ => .inl h'.1⟩
      unfold drainRetirementRows
      have hrevoke : Leaves w₀ (revoke cfg q.page q.grantId q.crid "") (fun _ w' => w₀.Kept False w') w := by
        rcases h.same with hb | ⟨hp, he⟩
        · exact leaves_mono (leaves_revoke cfg ⟨h.registry, h.mappings, h.policy, .inl hb⟩)
            fun _ _ h' => h'.1
        · have hq : q ∈ w.registry.retirements := he ▸ hqs hp q List.mem_cons_self
          obtain ⟨r, hr, hat, hcrid, hphase⟩ := h.registry.retirement q hq
          refine leaves_mono (leaves_revoke cfg h) fun o w' h' => (h'.2 r hr hat hcrid ?_).2
          rw [hphase]
          rintro ⟨⟩
      refine leaves_attempt hrevoke fun o w₁ h₁ => ?_
      split
      · exact hahead h₁
      · refine leaves_bind (P := fun _ w₂ => w₀.Kept False w₂)
          (leaves_registry fun t => h₁.postponeRetirement) (fun _ w₂ h₂ => hahead h₂)
          fun e w₂ h₂ => ⟨h₂.weaken, by rintro ⟨_, ⟨⟩⟩⟩
      · exact leaves_throw ⟨h₁.weaken, by rintro ⟨_, ⟨⟩⟩⟩

theorem leaves_drainRetirements (cfg : Config) (h : w₀.Kept p w) :
    Leaves w₀ (drainRetirements cfg) (fun o w' => w₀.Kept p w' ∧
      ((∃ u, o = .ok u) → w₀.Kept False w' ∨ ∀ q, q ∉ w₀.registry.retirements)) w := by
  unfold drainRetirements
  refine leaves_bind (P := fun o w' => w = w' ∧ ∃ now, w₀.registry.Late now ∧
    o = .ok ((w.registry.retirements.rows.filter fun q => q.due ≤ now).take 50))
    (leaves_registry fun t => ?_) ?_ fun e w₁ ⟨_, _, _, he⟩ => nomatch he
  · have hsame := selectRetirements_eq t.1.now h.registry
    refine ⟨?_, t.1.now, t.2.2, ?_⟩
    · rw [hsame]
    · simp only [RegistryOp.perform] at hsame ⊢
      rw [hsame]
  rintro rows _ ⟨rfl, now, hlate, ⟨⟩⟩
  rcases h.same with hb | ⟨hp, he⟩
  · have hF : w₀.Kept False w := ⟨h.registry, h.mappings, h.policy, .inl hb⟩
    refine leaves_mono (leaves_drainRetirementRows cfg hF False.elim) fun o w' h' => ?_
    exact ⟨h'.1.weaken, fun _ => .inl h'.1⟩
  · rw [he]
    refine leaves_mono (leaves_drainRetirementRows cfg h fun _ q hq => ?_) fun o w' h' =>
      ⟨h'.1, fun ho => (h'.2 ho).imp_right fun hnil q hq => ?_⟩
    · exact (List.mem_filter.mp (List.mem_of_mem_take hq)).1
    · have hq : q ∈ w₀.registry.retirements.rows.filter fun q => q.due ≤ now :=
        List.mem_filter.mpr ⟨hq, decide_eq_true (hlate.retirement q hq)⟩
      have hlen := congrArg List.length hnil
      rw [List.length_take, List.length_nil] at hlen
      have hpos := List.length_pos_of_mem hq
      omega

/-! ## Invitations -/

theorem plain_deleteLabelled (cfg : Config) (resource label : String) (is : List Invitation) :
    Plain (deleteLabelled cfg resource label is) := by
  induction is with
  | nil => exact plain_pure ()
  | cons i is ih =>
      unfold deleteLabelled
      split
      · exact ih
      · split
        · exact plain_throw _
        · exact plain_bind (plain_deleteQurl cfg.resourceId resource i.qurlId) fun _ => ih

theorem keeps_drainMints (cfg : Config) {ms : List Mint} (h : w₀.Kept p w) :
    Keeps w₀ p (drainMints cfg (liveMapping cfg) ms) w := by
  induction ms generalizing w with
  | nil => exact keeps_pure h
  | cons m ms ih =>
      have hcomplete : ∀ {w : World}, w₀.Kept p w → Keeps w₀ p (do
          ask (.completeMint m.page m.grantId)
          drainMints cfg (liveMapping cfg) ms) w :=
        fun h => keeps_bind (keeps_ask (e := .completeMint m.page m.grantId) trivial h) fun _ _ h => ih h
      unfold drainMints
      refine keeps_bind (leaves_mono (leaves_liveMapping cfg h) fun _ _ h => h.1) fun b w₁ h₁ => ?_
      cases b with
      | true => exact hcomplete h₁
      | false =>
          refine keeps_attempt (keeps_plain ?_ h₁) fun o w₂ h₂ => ?_
          · exact plain_bind (plain_ask (e := .listQurls m.resource) trivial)
              fun is => plain_deleteLabelled cfg m.resource m.label is
          split
          · exact hcomplete h₂
          · exact keeps_bind (keeps_ask (e := .postponeMint m.page m.grantId _) trivial h₂)
              fun _ _ h => ih h
          · exact keeps_throw h₂

theorem keeps_drainInvitations (cfg : Config) (h : w₀.Kept p w) :
    Keeps w₀ p (drainInvitations cfg (liveMapping cfg)) w := by
  unfold drainInvitations
  exact keeps_bind (keeps_ask (e := .selectMints) trivial h) fun _ _ h => keeps_drainMints cfg h

/-! ## The pass -/

/-- There was nothing to do: the scan found a mapping for each row it looked
at, the pages of the pools that are ready are there, and nothing is being
retired. -/
structure World.Idle (w : World) : Prop where
  orphans : ∀ r ∈ w.registry.orphanScan.take 50,
    w.mappings.find? (mappingPath r.page r.grantId) ≠ none
  pools : ∀ r ∈ w.registry.resources, r.grantId = "__page__" → r.phase = .ready → r.page ∈ w.policy
  retirements : ∀ q, q ∉ w.registry.retirements

/-- `reconcile_once` of a publisher that is enrolled. -/
def enrolledPass (cfg : Config) : BrokerM Unit := do
  drainRevocations cfg
  retireOrphans cfg (liveMapping cfg)
  retireDeletedPagePools cfg pageExists
  drainRetirements cfg
  drainInvitations cfg (liveMapping cfg)
  let _ ← publisherState

theorem World.Kept.and {P : Prop} (h : w₀.Kept p w) (hP : w₀.Kept False w ∨ P) :
    w₀.Kept (p ∧ P) w := by
  rcases hP with hF | hP
  · exact hF.weaken
  · exact h.imp fun hp => ⟨hp, hP⟩

/-- **A pass gets some row ahead, or there was nothing to do.** -/
theorem leaves_enrolledPass (cfg : Config) (h : w₀.Kept True w) :
    Leaves w₀ (enrolledPass cfg) (OnOk fun _ w' => w₀.Kept w₀.Idle w') w := by
  unfold enrolledPass
  refine leaves_bind (keeps_drainRevocations cfg h) (fun _ w₁ h₁ => ?_) fun _ _ _ => trivial
  refine leaves_bind (leaves_retireOrphans cfg h₁) (fun _ w₂ h₂ => ?_) fun _ _ _ => trivial
  have h₂ := h₂.1.and (h₂.2 ⟨_, rfl⟩)
  refine leaves_bind (leaves_retireDeletedPagePools cfg h₂) (fun _ w₃ h₃ => ?_) fun _ _ _ => trivial
  have h₃ := h₃.1.and (h₃.2 ⟨_, rfl⟩)
  refine leaves_bind (leaves_drainRetirements cfg h₃) (fun _ w₄ h₄ => ?_) fun _ _ _ => trivial
  have h₄ := (h₄.1.and (h₄.2 ⟨_, rfl⟩)).imp (p := w₀.Idle) fun h => ⟨h.1.1.2, h.1.2, h.2⟩
  refine leaves_bind (keeps_drainInvitations cfg h₄) (fun _ w₅ h₅ => ?_) fun _ _ _ => trivial
  exact leaves_bind (keeps_ask (e := .outside) trivial h₅) (fun _ w₆ h₆ => leaves_pure h₆)
    fun _ _ _ => trivial

end Passes

/-! ## What is left behind -/

/-- The row belongs to a guest whose grant has neither a mapping file nor a
gateway grant. -/
def World.Unowned (w : World) (r : Resource) : Prop :=
  r.grantId ≠ "__page__" ∧ w.mappings.find? (mappingPath r.page r.grantId) = none ∧
    ∀ a ∈ grantsOf w.gateway.pages r.page, a.id ≠ r.grantId

/-- The row is the pool of a page that is not in the policy store. -/
def World.Deserted (w : World) (r : Resource) : Prop := r.grantId = "__page__" ∧ r.page ∉ w.policy

/-- A row to be retired: creating, ready or retiring, and nobody's. -/
def World.Stale (w : World) (r : Resource) : Prop :=
  r.phase ≠ .revoked ∧ (w.Unowned r ∨ w.Deserted r)

/-- The records are what they were. -/
structure World.Unchanged (w w' : World) : Prop where
  registry : w'.registry = w.registry
  mints : w'.mints = w.mints
  mappings : w'.mappings = w.mappings
  revocations : w'.revocations = w.revocations

/-- A pass that changes nothing: the publisher is enrolled, nothing fails,
every schedule is past, and the records are afterwards what they were. -/
structure Quiescent (cfg : Config) (w : World) (ts : List Tick) (w' : World) : Prop where
  enrolled : ∀ t ∈ ts.head?, t.answer = false
  calm : ∀ t ∈ ts, t.Calm ∧ w.registry.Late t.now
  completes : (reconcileOnce cfg).run.meet Op.step ts w = (some (.ok ()), w')
  unchanged : w.Unchanged w'

theorem Quiescent.idle {cfg : Config} {w w' : World} {ts : List Tick} (hw : w.registry.Inv)
    (h : Quiescent cfg w ts w') : w.Idle := by
  obtain ⟨henrolled, hcalm, hrun, hsame⟩ := h
  cases ts with
  | nil => cases hrun
  | cons t ts =>
      have hanswer := henrolled t rfl
      obtain ⟨ht, -⟩ := hcalm t List.mem_cons_self
      have hstep : Op.step t .outside w = (.ok false, w) := by
        rw [ht.step, Op.perform, hanswer]
      have hpass : (enrolledPass cfg).run.meet Op.step ts w = (some (.ok ()), w') := by
        rw [← hrun]
        show _ = Prog.meet Op.step (Prog.op .outside _) (t :: ts) w
        rw [Prog.meet, hstep]
        rfl
      -- the ticks that are left are those of the pass
      obtain ⟨ts', rfl⟩ : ∃ ts' : List (CalmTick w), ts = ts'.map Subtype.val :=
        ⟨ts.attach.map fun t => ⟨t.1, hcalm t.1 (List.mem_cons_of_mem _ t.2)⟩, by simp⟩
      rw [Prog.meet_map] at hpass
      have hpass : (enrolledPass cfg).run.meet (calmly w) ts' w = (some (.ok ()), w') := hpass
      obtain ⟨-, -, hend⟩ := (leaves_enrolledPass cfg (.start hw)).holds.meet ts'
      rw [hpass] at hend
      rcases (hend (.ok ()) rfl).same with hb | ⟨hidle, -⟩
      · rw [hsame.registry] at hb
        exact absurd hb (Registry.Behind.irrefl _)
      · exact hidle

/-- **When a fixpoint is complete.** After a pass that changes nothing, no
row that is creating, ready or retiring is nobody's if and only if no page
pool of a deserted page was interrupted while it was created, and the rows
the scan for orphans did not get to (those after its first fifty) are all
owned. -/
theorem reconcile_complete_iff (cfg : Config) {w w' : World} {ts : List Tick}
    (hw : w.registry.Inv) (h : Quiescent cfg w ts w') :
    (∀ r ∈ w.registry.resources, ¬ w.Stale r) ↔
      (∀ r ∈ w.registry.resources, r.phase = .creating → ¬ w.Deserted r) ∧
        ∀ r ∈ w.registry.orphanScan.drop 50, ¬ w.Unowned r := by
  have hidle := h.idle hw
  constructor
  · intro hall
    refine ⟨fun r hr hphase hdeserted => hall r hr ⟨?_, .inr hdeserted⟩, fun r hr hunowned => ?_⟩
    · rw [hphase]
      exact nofun
    · obtain ⟨hr, -, hphase⟩ := mem_orphanScan.mp (List.mem_of_mem_drop hr)
      refine hall r hr ⟨?_, .inl hunowned⟩
      rcases hphase with hphase | hphase <;> rw [hphase] <;> exact nofun
  · rintro ⟨hpools, hscan⟩ r hr ⟨hphase, hstale⟩
    have hactive : r.phase = .creating ∨ r.phase = .ready := by
      cases hp : r.phase with
      | creating => exact .inl rfl
      | ready => exact .inr rfl
      | retiring =>
          obtain ⟨q, hq, -⟩ := hw.retiring r hr hp
          exact absurd hq (hidle.retirements q)
      | revoked => exact absurd hp hphase
    rcases hstale with hunowned | hdeserted
    · have hmem : r ∈ w.registry.orphanScan := mem_orphanScan.mpr ⟨hr, hunowned.1, hactive⟩
      rw [← List.take_append_drop 50 w.registry.orphanScan, List.mem_append] at hmem
      rcases hmem with hmem | hmem
      · exact hidle.orphans r hmem hunowned.2.1
      · exact hscan r hmem hunowned
    · rcases hactive with hp | hp
      · exact hpools r hr hp hdeserted
      · exact hdeserted.2 (hidle.pools r hr hdeserted.1 hp)

/-! ## An interrupted page pool -/

/-- The process dies before the pool of the page is published; then the page
is deleted. -/
def gateStranding : List (Request × List Tick) :=
  [(.create .page gateRequest, List.replicate 7 gateTick),
    (.reconcile, [{ gateTick with meanwhile := [.policy []], answer := true }])]

theorem gateStranding_fresh : Server.Admits Fresh [] gateStranding :=
  ⟨fun ⟨_, _, h, _⟩ => absurd h List.not_mem_nil, trivial, trivial⟩

def gateStranded : World := (broker gateConfig).play .empty gateStranding

/-- A thousand seconds later. -/
def gateCalm : List Tick := List.replicate 7 { gateTick with meanwhile := [], now := 1000 * second }

def gateQuiet : World := ((reconcileOnce gateConfig).run.meet Op.step gateCalm gateStranded).2

def gatePool : Resource :=
  ⟨"gate", "__page__", connectorId gateConfig .page "gate" "__page__" 0, "http://127.0.0.1:8080",
    none, none, .creating, 0, 0, 0⟩

theorem Registry.eq_of_rows {g g' : Registry} (hr : g.resources.rows = g'.resources.rows)
    (hn : g.generations.rows = g'.generations.rows) (hq : g.retirements.rows = g'.retirements.rows)
    (hg : g.gate = g'.gate) : g = g' := by
  obtain ⟨r, n, q, d⟩ := g
  obtain ⟨r', n', q', d'⟩ := g'
  obtain rfl : r = r' := Table.ext hr
  obtain rfl : n = n' := Table.ext hn
  obtain rfl : q = q' := Table.ext hq
  obtain rfl : d = d' := hg
  rfl

theorem gateStranded_rows : gateStranded.registry.resources.rows = [gatePool] ∧
    gateStranded.registry.retirements.rows = [] ∧ gateStranded.registry.gate = none := by
  decide +kernel

theorem gateQuiet_quiescent : Quiescent gateConfig gateStranded gateCalm gateQuiet := by
  obtain ⟨hrows, hretirements, hgate⟩ := gateStranded_rows
  have hlate : gateStranded.registry.Late (1000 * second) := by
    refine ⟨?_, ?_, ?_, ?_⟩
    · rw [hgate]
      exact nofun
    · intro r hr
      rw [Table.mem_def, hrows, List.mem_singleton] at hr
      subst hr
      decide
    · intro r hr
      rw [Table.mem_def, hrows, List.mem_singleton] at hr
      subst hr
      decide
    · intro q hq
      rw [Table.mem_def, hretirements] at hq
      cases hq
  refine ⟨fun t ht => ?_, fun t ht => ?_, ?_, ?_, ?_, ?_, ?_⟩
  · cases ht
    rfl
  · obtain rfl := List.eq_of_mem_replicate ht
    exact ⟨⟨rfl, rfl, rfl⟩, hlate⟩
  · refine Prod.ext ?_ rfl
    decide +kernel
  · exact Registry.eq_of_rows (by decide +kernel) (by decide +kernel) (by decide +kernel)
      (by decide +kernel)
  · exact Table.ext (by decide +kernel)
  · exact Table.ext (by decide +kernel)
  · exact Table.ext (by decide +kernel)

/-- The pass changes nothing, and the pool of the page that was deleted is
still there to be created. -/
theorem reconcile_strands_pool : Quiescent gateConfig gateStranded gateCalm gateQuiet ∧
    ¬ ∀ r ∈ gateStranded.registry.resources, ¬ gateStranded.Stale r := by
  refine ⟨gateQuiet_quiescent, fun hall => hall gatePool ?_ ⟨nofun, .inr ⟨rfl, ?_⟩⟩⟩
  · rw [Table.mem_def, gateStranded_rows.1]
    exact List.mem_singleton_self _
  · decide +kernel

/-! ## A crowded scan -/

/-- The page of one of many interrupted invitations. -/
def crowdPage (n : Nat) : String := "room" ++ toString n

def crowdRow (n : Nat) : Resource :=
  ⟨crowdPage n, gateGrant, crowdPage n, "http://127.0.0.1:8080", none, none, .creating, 0, 0, 0⟩

def crowdMapping (n : Nat) : String × Mapping :=
  (mappingPath (crowdPage n) gateGrant, ⟨crowdPage n, gateGrant, "q_0123456789a", "key", none, none⟩)

theorem crowdPage_injective {m n : Nat} (h : crowdPage m = crowdPage n) : m = n := by
  have h := congrArg String.toList h
  rw [crowdPage, crowdPage, String.toList_append, String.toList_append] at h
  have h : Nat.toDigits 10 m = Nat.toDigits 10 n := by
    rw [← Nat.toList_repr, ← Nat.toList_repr]
    exact List.append_cancel_left h
  rw [← Nat.ofDigitChars_ten_toDigits (n := m), h, Nat.ofDigitChars_ten_toDigits]

theorem nodup_crowd {α κ : Type} (n : Nat) {f : Nat → α} {key : α → κ}
    (h : ∀ i j, key (f i) = key (f j) → crowdPage i = crowdPage j) :
    (((List.range n).map f).map key).Nodup := by
  rw [List.map_map]
  exact List.nodup_range.map fun i j hij => crowdPage_injective (h i j hij)

/-- Fifty rows with their mappings, and one without. -/
def crowded : World :=
  { World.empty with
    registry := ⟨⟨(List.range 51).map crowdRow, nodup_crowd 51 fun _ _ h => (Prod.mk.inj h).1⟩,
      .empty, .empty, none⟩
    mappings := ⟨(List.range 50).map crowdMapping, nodup_crowd 50 fun _ _ h =>
      (mappingPath_injective (by decide) (by decide) h).1⟩ }

def crowdConfig : Config := { gateConfig with gatewayGrantsDir := false }

def crowdCalm : List Tick := List.replicate 57 { gateTick with meanwhile := [], now := 1000 * second }

theorem mem_crowded {r : Resource} (hr : r ∈ crowded.registry.resources) : ∃ n, r = crowdRow n := by
  obtain ⟨n, -, rfl⟩ := List.mem_map.mp hr
  exact ⟨n, rfl⟩

theorem crowded_inv : crowded.registry.Inv where
  connector_unique r hr s hs h := by
    obtain ⟨m, rfl⟩ := mem_crowded hr
    obtain ⟨n, rfl⟩ := mem_crowded hs
    have h : crowdPage m = crowdPage n := h
    rw [crowdRow, h, crowdRow]
  crid_unique r hr s hs c hc := by
    obtain ⟨m, rfl⟩ := mem_crowded hr
    cases hc
  crid_re r hr c hc := by
    obtain ⟨m, rfl⟩ := mem_crowded hr
    cases hc
  public_key r hr k hk := by
    obtain ⟨m, rfl⟩ := mem_crowded hr
    cases hk
  creating r hr _ := by
    obtain ⟨m, rfl⟩ := mem_crowded hr
    rfl
  bound r hr h := by
    obtain ⟨m, rfl⟩ := mem_crowded hr
    rcases h with h | h <;> cases h
  retiring r hr h := by
    obtain ⟨m, rfl⟩ := mem_crowded hr
    cases h
  retirement q hq := absurd hq List.not_mem_nil
  retired_lt r hr k h := by
    obtain ⟨m, rfl⟩ := mem_crowded hr
    have hre : grantIdRe gateGrant = true := by decide
    have h : gateGrant = retiredName k := h
    rw [h, grantIdRe_retiredName] at hre
    cases hre
  active r hr _ := by
    obtain ⟨m, rfl⟩ := mem_crowded hr
    exact .inr (show grantIdRe gateGrant = true by decide)

theorem crowded_late : crowded.registry.Late (1000 * second) := by
  refine ⟨nofun, fun r hr => ?_, fun r hr => ?_, fun q hq => absurd hq List.not_mem_nil⟩
  · obtain ⟨n, rfl⟩ := mem_crowded hr
    show (0 : Int) ≤ 1000 * second - second * 300
    decide
  · obtain ⟨n, rfl⟩ := mem_crowded hr
    show (0 : Int) ≤ 1000 * second
    decide

theorem crowded_quiescent : ∃ w', Quiescent crowdConfig crowded crowdCalm w' := by
  have hrun : ∃ out, (reconcileOnce crowdConfig).run.meet Op.step crowdCalm crowded = out ∧
      out.1 = some (.ok ()) ∧
      (out.2.registry.resources.rows = crowded.registry.resources.rows ∧
        out.2.registry.generations.rows = crowded.registry.generations.rows ∧
        out.2.registry.retirements.rows = crowded.registry.retirements.rows ∧
        out.2.registry.gate = crowded.registry.gate) ∧
      out.2.mints.rows = crowded.mints.rows ∧ out.2.mappings.rows = crowded.mappings.rows ∧
      out.2.revocations.rows = crowded.revocations.rows := ⟨_, rfl, by decide +kernel⟩
  obtain ⟨⟨r, w'⟩, hout, rfl, ⟨hresources, hgenerations, hretirements, hgate⟩, hmints, hmappings,
    hrevocations⟩ := hrun
  refine ⟨w', fun t ht => ?_, fun t ht => ?_, hout,
    Registry.eq_of_rows hresources hgenerations hretirements hgate, Table.ext hmints,
    Table.ext hmappings, Table.ext hrevocations⟩
  · cases ht
    rfl
  · obtain rfl := List.eq_of_mem_replicate ht
    exact ⟨⟨rfl, rfl, rfl⟩, crowded_late⟩

/-- The pool is stranded, and the row without a mapping is not seen. -/
theorem reconcile_complete_iff_gate :
    ((∀ r ∈ gateStranded.registry.resources, ¬ gateStranded.Stale r) ↔
      (∀ r ∈ gateStranded.registry.resources, r.phase = .creating → ¬ gateStranded.Deserted r) ∧
        ∀ r ∈ gateStranded.registry.orphanScan.drop 50, ¬ gateStranded.Unowned r) ∧
    crowded.registry.orphanScan.drop 50 = [crowdRow 50] ∧ crowded.Unowned (crowdRow 50) ∧
    ((∀ r ∈ crowded.registry.resources, ¬ crowded.Stale r) ↔
      (∀ r ∈ crowded.registry.resources, r.phase = .creating → ¬ crowded.Deserted r) ∧
        ∀ r ∈ crowded.registry.orphanScan.drop 50, ¬ crowded.Unowned r) := by
  obtain ⟨hbase, -⟩ := broker_run gateConfig (J := fun _ => True) gateStranding_fresh trivial
    (fun _ _ _ _ _ _ _ => trivial) fun _ _ _ _ _ _ _ => trivial
  obtain ⟨w', hquiet⟩ := crowded_quiescent
  exact ⟨reconcile_complete_iff gateConfig hbase.registry gateQuiet_quiescent, by decide +kernel,
    ⟨by decide, by decide +kernel, nofun⟩,
    reconcile_complete_iff crowdConfig crowded_inv hquiet⟩

end LayerV

end AccessPages
