import AccessPages.LayerV.Walk
/-!
# LayerV — the life of a resource

`GuestResources` over any sequence of calls, on any outcome of the
publisher and of the management API, interrupted after any transaction:
rows move along the phases, a CRID is set once and names one row, the
retirements are those of the rows that are retiring, a pool that was put
away has the number of an earlier generation, and no client is handed out
for a row that is retiring or revoked.
-/

namespace AccessPages

namespace LayerV

open Pages (UpstreamScope)

/-! ## Calls -/

/-- The calls of `GuestResources`. -/
inductive Call where
  | ensure (page grantId target : String) (isolation : UpstreamScope)
  | revoke (page grantId expectedCrid qurlId : String)
  | revokeOwned (page grantId : String)
  | drainRetirements
  | retireOrphans
  | retireDeletedPagePools
  | invalidateForReset

/-- A callback may answer, or raise, as it likes. -/
def consult : BrokerM Bool := ask .outside

/-- A call; `ensure` returns a client. -/
def Call.run (cfg : Config) : Call → BrokerM (Option Client)
  | ensure page grantId target isolation => do
      return some (← LayerV.ensure cfg page grantId target isolation)
  | revoke page grantId expectedCrid qurlId => do
      let _ ← LayerV.revoke cfg page grantId expectedCrid qurlId
      return none
  | revokeOwned page grantId => do
      let _ ← LayerV.revokeOwned cfg page grantId
      return none
  | drainRetirements => do
      LayerV.drainRetirements cfg
      return none
  | retireOrphans => do
      LayerV.retireOrphans cfg fun _ _ => consult
      return none
  | retireDeletedPagePools => do
      LayerV.retireDeletedPagePools cfg fun _ => consult
      return none
  | invalidateForReset => do
      LayerV.invalidateForReset
      return none

/-- `GuestResources`, called by whoever likes. -/
def guestResources (cfg : Config) :
    Server Call Tick Op Op.Ans (Except Failure (Option Client)) World where
  serve c := (c.run cfg).run
  perform := Op.step
  reply _ _ w := w

/-- Nothing is known besides. -/
def free : Side :=
  ⟨True, True, fun _ => True, fun _ _ => True, fun _ _ _ => True, fun _ _ _ _ => True,
    fun _ _ _ _ _ h => h⟩

/-! ## One question -/

/-- What a question does to the database. -/
theorem registry_step {S : Side} {w : World} (t : Tick) (e : Op) (hg : w.registry.Inv)
    (hpre : e.Pre S w) :
    (Op.step t e w).2.registry.Inv ∧
      w.registry.Moves (e = .registry .invalidate) (Op.step t e w).2.registry := by
  have hs := same_meet t w
  have hsame : ∀ reset, (t.meet w).registry.Inv ∧ w.registry.Moves reset (t.meet w).registry := by
    intro reset
    rw [hs.registry]
    exact ⟨hg, .refl _⟩
  rcases step_cases t e w with he | he | he <;> rw [he]
  · exact hsame _
  · cases e <;> exact hsame _
  · cases e with
    | registry e =>
        obtain ⟨hinv, hmoves, -⟩ := RegistryOp.perform_inv t.now e hg hpre.1
        show (e.perform t.now (t.meet w).registry).2.Inv ∧ _
        rw [Op.perform, hs.registry]
        exact ⟨hinv, by rwa [Op.registry.injEq]⟩
    | _ => exact hsame _

/-- No transaction violates a primary key. -/
theorem registry_ans {S : Side} {w : World} (t : Tick) (e : RegistryOp) (hg : w.registry.Inv)
    (hpre : (Op.registry e).Pre S w) :
    (Op.step t (.registry e) w).1 ≠ .error (.integrity .primaryKey) := by
  have hs := same_meet t w
  rcases step_cases t (.registry e) w with he | he | he <;> rw [he]
  · exact nofun
  · exact nofun
  · show (e.perform t.now (t.meet w).registry).1 ≠ _
    rw [hs.registry]
    exact (RegistryOp.perform_inv t.now e hg hpre.1).2.2

theorem stable_free : Stable free fun w => w.registry.Inv :=
  ⟨fun _ h => h, fun t e _ h hpre => (registry_step t e h hpre).1⟩

/-! ## Runs -/

/-- What a result of a call says. -/
def Call.Delivers : Call → Except Failure (Option Client) → World → Prop
  | ensure page grantId _ isolation, .ok (some c), w =>
      ∃ r ∈ w.registry.resources, r.At page (ownerId grantId isolation) ∧
        r.crid = some c.resourceId ∧ r.phase = .ready
  | _, _, _ => True

theorem walks_consult {S : Side} {I : World → Prop} {w : World} (hI : Stable S I) (hw : I w)
    {P : Bool → World → Prop} (hP : ∀ b w', P b w') : Walks S I consult (OnOk P) w :=
  walks_ask_ok hI hw trivial fun _ _ _ => hP _ _

/-- Every call keeps the invariant and asks knowingly. -/
theorem walks_call (cfg : Config) (c : Call) {w : World} (hw : w.registry.Inv) :
    Walks free (fun w => w.registry.Inv) (c.run cfg) c.Delivers w := by
  have hI := stable_free
  have unit : ∀ {α : Type} {x : BrokerM α} {P : α → World → Prop},
      Walks free (fun w => w.registry.Inv) x (OnOk P) w →
      Walks free (fun w => w.registry.Inv) (do let _ ← x; return none : BrokerM (Option Client))
        (OnOk fun o _ => o = none) w :=
    fun h => walks_seq h fun _ w' hw' _ => walks_pure hw' rfl
  have done : ∀ {c : Call} {x : BrokerM (Option Client)},
      Walks free (fun w => w.registry.Inv) x (OnOk fun o _ => o = none) w →
      Walks free (fun w => w.registry.Inv) x c.Delivers w := by
    intro c x h
    refine walks_mono h fun o w' _ ho => ?_
    cases o with
    | error e => cases c <;> trivial
    | ok o =>
        obtain rfl : o = none := ho
        cases c <;> trivial
  cases c with
  | ensure page grantId target isolation =>
      have hensure : Walks free (fun w => w.registry.Inv)
          (LayerV.ensure cfg page grantId target isolation)
          (OnOk fun c w' => c.For w' page grantId isolation) w :=
        walks_ok (walks_ensure cfg hI hw fun _ _ => trivial) fun _ _ _ h => h.1
      have hcall : Walks free (fun w => w.registry.Inv)
          ((Call.ensure page grantId target isolation).run cfg)
          (OnOk fun o w' => ∀ c, o = some c → c.For w' page grantId isolation) w := by
        refine walks_seq hensure fun c w' hw' hc => walks_pure hw' ?_
        rintro _ ⟨⟩
        exact hc
      refine walks_mono hcall fun o w' _ ho => ?_
      match o with
      | .error e => trivial
      | .ok none => trivial
      | .ok (some c) => exact (ho c rfl).ready
  | revoke page grantId expectedCrid qurlId =>
      exact done (unit (walks_revoke cfg hI hw fun _ _ _ _ _ => trivial))
  | revokeOwned page grantId =>
      exact done (unit (walks_revokeOwned cfg hI hw fun _ _ _ _ _ _ => trivial))
  | drainRetirements => exact done (unit (walks_drainRetirements cfg hI (fun _ _ _ _ => trivial) hw))
  | retireOrphans =>
      exact done (unit (walks_retireOrphans cfg hI
        (fun _ _ _ hw => walks_consult hI hw fun _ _ _ _ _ => trivial) hw))
  | retireDeletedPagePools =>
      exact done (unit (walks_retireDeletedPagePools cfg hI
        (fun _ _ hw => walks_consult hI hw fun _ _ _ _ _ => trivial) hw))
  | invalidateForReset =>
      exact done (unit (P := fun _ _ => True)
        (walks_registry hI hw trivial trivial fun _ _ _ _ _ => by
          cases (RegistryOp.invalidate.perform _ _).1 <;> trivial))

/-- **The life of a resource.** After any calls, on any outcomes, wherever
the last one was interrupted: a CRID is shared by no two rows; a row is
retiring exactly when there is a retirement under its key and CRID, and
every retirement is one of these; a pool that was put away has a number
below the generation of its page. Every question on the way moved each
row by one phase at most, in order (and from creating to revoked only on
a reset), set a CRID only as a row became ready and never changed one,
added no row but one being created, and violated no primary key. And
`ensure` returned a client only for a row that is ready. -/
theorem resource_lifecycle (cfg : Config) (calls : List (Call × List Tick)) :
    let g := ((guestResources cfg).play .empty calls).registry
    (∀ r ∈ g.resources, ∀ s ∈ g.resources, ∀ c, r.crid = some c → s.crid = some c → r = s) ∧
    (∀ r ∈ g.resources, r.phase = .retiring ↔
      ∃ q ∈ g.retirements, q.page = r.page ∧ q.grantId = r.grantId ∧ r.crid = some q.crid) ∧
    (∀ q ∈ g.retirements, ∃ r ∈ g.resources, r.page = q.page ∧ r.grantId = q.grantId) ∧
    (∀ r ∈ g.resources, ∀ k, r.grantId = retiredName k → k < g.generation r.page) ∧
    (∀ ev ∈ (guestResources cfg).events .empty calls,
      ev.before.registry.Moves (ev.op = .registry .invalidate) ev.after.registry ∧
      ∀ e, ev.op = .registry e → ¬ HEq ev.ans (.error (.integrity .primaryKey) :
        Except Failure e.Res)) ∧
    ∀ q ∈ (guestResources cfg).results .empty calls, q.1.Delivers q.2.1 q.2.2 := by
  intro g
  have hstep : ∀ (past : List Call) c (w : World), True → w.registry.Inv →
      ((guestResources cfg).serve c).Holds Op.step (fun w => w.registry.Inv)
        (fun ev => ev.before.registry.Moves (ev.op = .registry .invalidate) ev.after.registry ∧
          ∀ e, ev.op = .registry e → ¬ HEq ev.ans (.error (.integrity .primaryKey) :
            Except Failure e.Res))
        (fun a w' => c.Delivers a w' ∧ w'.registry.Inv) w := by
    intro past c w _ hw
    refine Prog.holds_mono (Prog.holds_imp ((walks_call cfg c hw).all trivial)
      (fun _ h => h) ?_)
      fun a w' hw' ha => ⟨ha, hw'⟩
    intro t e w hw hpre
    refine ⟨(registry_step t e hw hpre).2, ?_⟩
    rintro e' rfl h
    exact registry_ans t e' hw hpre (eq_of_heq h)
  have hadmits : ∀ past : List Call, Server.Admits (fun _ _ => True) past calls := by
    induction calls with
    | nil => exact fun _ => trivial
    | cons c cs ih => exact fun past => ⟨trivial, ih _⟩
  obtain ⟨hg, hev, hres⟩ := (guestResources cfg).play_holds
    (I := fun _ w => w.registry.Inv) hstep (hadmits []) (w := .empty) Registry.Inv.empty
  refine ⟨hg.crid_unique, fun r hr => ⟨fun hp => ?_, fun ⟨q, hq, hp, hi, _⟩ => ?_⟩, fun q hq => ?_,
    hg.retired_lt, hev, hres⟩
  · obtain ⟨q, hq, hk⟩ := hg.retiring r hr hp
    exact ⟨q, hq, hk.1, hk.2, (hg.own hr hq hk.1 hk.2).1⟩
  · exact (hg.own hr hq hp hi).2
  · obtain ⟨r, hr, hat, -⟩ := hg.retirement q hq
    exact ⟨r, hr, hat⟩

end LayerV

end AccessPages
