import AccessPages.LayerV.Authorized
/-!
# LayerV — cleanup obligations survive every hand-off

A grant the gateway removed is in its cleanup queue until the broker
accepts the deletion; from then on it is in the queue of revocations with
its mapping, until what the mapping names was reported deleted. Each side
may die after any step, and any request or reply may be lost.
-/

namespace AccessPages

namespace LayerV

open Pages (UpstreamScope grantIdRe CleanupRow FileOp)

/-! ## The gateway's drain -/

/-- The row is about the grant. -/
structure RowOf (r : CleanupRow) (j : Issued) : Prop where
  page : r.page = j.pageId
  grantId : r.grantId = j.grantId
  resource : r.resource = j.resource
  qurl : r.qurl = j.qurlId

/-- The row is about a grant that was sent. -/
def Gateway.Legit (g : Gateway) (r : CleanupRow) : Prop := ∃ j ∈ g.issued, RowOf r j

/-- The deletion of the row's grant was accepted. -/
def Gateway.Accepted (g : Gateway) (r : CleanupRow) : Prop := (r.page, r.grantId) ∈ g.acknowledged

/-- How far a drain may be. It completes only a row whose deletion was
accepted. -/
inductive Draining (g : Gateway) :
    Prog FileOp FileOp.Ans (Except Pages.PageError Unit) → Prop where
  | start : Draining g Pages.drain.run
  | rows {rs : List CleanupRow} (h : ∀ r ∈ rs, g.Legit r) : Draining g (Pages.drainRows rs).run
  | complete {r : CleanupRow} {rs : List CleanupRow} (hr : g.Legit r) (ha : g.Accepted r)
      (h : ∀ r ∈ rs, g.Legit r) :
      Draining g (do Pages.ask (.complete r.resource r.qurl); Pages.drainRows rs).run
  | retry {r : CleanupRow} {retryAfter : Option Int} {rs : List CleanupRow}
      (h : ∀ r ∈ rs, g.Legit r) :
      Draining g (do Pages.ask (.retry r retryAfter); Pages.drainRows rs).run
  | done (a : Except Pages.PageError Unit) : Draining g (.ret a)

/-- The same row, but for its schedule. -/
def SameRow (r r' : CleanupRow) : Prop :=
  r'.page = r.page ∧ r'.grantId = r.grantId ∧ r'.resource = r.resource ∧ r'.qurl = r.qurl

/-- What one question of the drain does to the queue. -/
structure Gateway.Turned (g g' : Gateway) : Prop where
  issued : g'.issued = g.issued
  owed : g'.owed = g.owed
  acknowledged : g'.acknowledged = g.acknowledged
  rows : ∀ r' ∈ g'.disk.cleanup, ∃ r ∈ g.disk.cleanup, SameRow r r'
  kept : ∀ r ∈ g.disk.cleanup, (∃ r' ∈ g'.disk.cleanup, SameRow r r') ∨
    ∃ r₀, g.Legit r₀ ∧ g.Accepted r₀ ∧ r₀.resource = r.resource ∧ r₀.qurl = r.qurl
  drain : Draining g g'.drain

theorem Draining.mono {g g' : Gateway} {p : Prog FileOp FileOp.Ans (Except Pages.PageError Unit)}
    (h : Draining g p) (hlegit : ∀ r, g.Legit r → g'.Legit r)
    (hack : ∀ r, g.Accepted r → g'.Accepted r) : Draining g' p := by
  cases h with
  | start => exact .start
  | rows h => exact .rows fun r hr => hlegit r (h r hr)
  | complete hr ha h => exact .complete (hlegit _ hr) (hack _ ha) fun r hr => hlegit r (h r hr)
  | retry h => exact .retry fun r hr => hlegit r (h r hr)
  | done a => exact .done a

section Turn

variable {g : Gateway}

/-- The queue is as it was. -/
theorem Gateway.Turned.same {d : Pages.Disk}
    {p : Prog FileOp FileOp.Ans (Except Pages.PageError Unit)}
    (hd : d.cleanup = g.disk.cleanup) (hp : Draining g p) :
    g.Turned { g with disk := d, drain := p } :=
  ⟨rfl, rfl, rfl, fun r hr => ⟨r, hd ▸ hr, rfl, rfl, rfl, rfl⟩,
    fun r hr => .inl ⟨r, hd.symm ▸ hr, rfl, rfl, rfl, rfl⟩, hp⟩

theorem turn_eq {t : Pages.Tick} {e : FileOp}
    {k : e.Ans → Prog FileOp FileOp.Ans (Except Pages.PageError Unit)} (h : g.drain = .op e k) :
    g.turn t =
      if e.fails (g.tick t e) then { g with drain := k e.failed }
      else { g with
        disk := (e.perform (g.tick t e) g.disk).2
        drain := k (e.perform (g.tick t e) g.disk).1 } := by
  unfold Gateway.turn
  rw [h]
  simp only [FileOp.step]
  split <;> rfl

theorem ask_bind_run {α : Type} (e : FileOp) (f : e.Res → Pages.FileM α) :
    (Pages.ask e >>= f).run = .op e fun a => match a with
      | .ok x => (f x).run
      | .error err => .ret (.error err) := by
  show Prog.op e _ = _
  congr 1
  funext a
  cases a <;> rfl

theorem turned_start (t : Pages.Tick) (h : g.drain = Pages.drain.run)
    (hlegit : ∀ r ∈ g.disk.cleanup, g.Legit r) : g.Turned (g.turn t) := by
  rw [turn_eq (h.trans (ask_bind_run .selectDue Pages.drainRows))]
  split
  · exact .same rfl (.done _)
  · refine .same rfl (.rows fun r hr => hlegit r ?_)
    exact (List.mem_filter.mp (List.mem_of_mem_take hr)).1

/-- A deletion that was not accepted does not succeed. -/
theorem accepted_of_success {t : Pages.Tick} {r : CleanupRow}
    (h : (g.tick t (.deleteQurl r)).upstream = .success) : g.Accepted r := by
  by_contra hack
  simp only [Gateway.tick, if_neg (show (r.page, r.grantId) ∉ g.acknowledged from hack)] at h
  cases hu : t.upstream <;> rw [hu] at h <;> cases h

theorem turned_rows (t : Pages.Tick) {rs : List CleanupRow}
    (h : g.drain = (Pages.drainRows rs).run) (hrs : ∀ r ∈ rs, g.Legit r) :
    g.Turned (g.turn t) := by
  cases rs with
  | nil =>
      have hret : g.drain = .ret (.ok ()) := h
      have hturn : g.turn t = g := by
        unfold Gateway.turn
        rw [hret]
      rw [hturn]
      exact .same rfl (hret ▸ .done _)
  | cons r rs =>
      have htail : ∀ s ∈ rs, g.Legit s := fun s hs => hrs s (List.mem_cons_of_mem _ hs)
      rw [turn_eq (h.trans (ask_bind_run (.deleteQurl r) _))]
      split
      · exact .same rfl (.done _)
      · cases hup : (g.tick t (.deleteQurl r)).upstream with
        | success =>
            simp only [FileOp.perform, hup]
            exact .same rfl (.complete (hrs r List.mem_cons_self) (accepted_of_success hup) htail)
        | layerVError retryAfter =>
            simp only [FileOp.perform, hup]
            exact .same rfl (.retry htail)
        | raises =>
            simp only [FileOp.perform, hup]
            exact .same rfl (.done _)

theorem turned_complete (t : Pages.Tick) {r : CleanupRow} {rs : List CleanupRow}
    (h : g.drain = (do Pages.ask (.complete r.resource r.qurl); Pages.drainRows rs).run)
    (hr : g.Legit r) (ha : g.Accepted r) (hrs : ∀ r ∈ rs, g.Legit r) : g.Turned (g.turn t) := by
  rw [turn_eq (h.trans (ask_bind_run (.complete r.resource r.qurl) _))]
  split
  · exact .same rfl (.done _)
  · refine ⟨rfl, rfl, rfl, fun s hs => ?_, fun s hs => ?_, .rows hrs⟩
    · exact ⟨s, (Table.mem_deleteWhere.mp hs).1, rfl, rfl, rfl, rfl⟩
    · by_cases hkey : s.resource = r.resource ∧ s.qurl = r.qurl
      · exact .inr ⟨r, hr, ha, hkey.1.symm, hkey.2.symm⟩
      · exact .inl ⟨s, Table.mem_deleteWhere.mpr ⟨hs, decide_eq_false hkey⟩, rfl, rfl, rfl, rfl⟩

theorem turned_retry (t : Pages.Tick) {r : CleanupRow} {retryAfter : Option Int}
    {rs : List CleanupRow}
    (h : g.drain = (do Pages.ask (.retry r retryAfter); Pages.drainRows rs).run)
    (hrs : ∀ r ∈ rs, g.Legit r) : g.Turned (g.turn t) := by
  rw [turn_eq (h.trans (ask_bind_run (.retry r retryAfter) _))]
  split
  · exact .same rfl (.done _)
  · refine ⟨rfl, rfl, rfl, fun s hs => ?_, fun s hs => .inl ?_, .rows hrs⟩
    · simp only [FileOp.perform, Pages.Disk.postpone, Table.mem_updateWhere] at hs
      obtain ⟨q, hq, rfl⟩ := hs
      refine ⟨q, hq, ?_⟩
      split <;> exact ⟨rfl, rfl, rfl, rfl⟩
    · simp only [FileOp.perform, Pages.Disk.postpone, Table.mem_updateWhere]
      refine ⟨_, ⟨s, hs, rfl⟩, ?_⟩
      split <;> exact ⟨rfl, rfl, rfl, rfl⟩

/-- **One question of the drain.** A row leaves the queue only when its
deletion was accepted. -/
theorem Draining.turned (t : Pages.Tick) (h : Draining g g.drain)
    (hlegit : ∀ r ∈ g.disk.cleanup, g.Legit r) : g.Turned (g.turn t) := by
  generalize hp : g.drain = p at h
  cases h with
  | start => exact turned_start t hp hlegit
  | rows hrs => exact turned_rows t hp hrs
  | complete hr ha hrs => exact turned_complete t hp hr ha hrs
  | retry hrs => exact turned_retry t hp hrs
  | done a =>
      have hturn : g.turn t = g := by
        unfold Gateway.turn
        rw [hp]
      rw [hturn]
      exact .same rfl (hp ▸ .done _)

end Turn

/-! ## Obligations -/

/-- The deletion of a grant is queued with its mapping, or what it gave
access to is gone. -/
def World.Pursued (w : World) (i : Invitation) : Prop :=
  (w.Queued i.page i.grantId ∧ w.Filed i) ∨ w.Retired i

/-- **What is owed is on record.** -/
structure World.Owes (w : World) : Prop where
  gone : ∀ r ∈ w.registry.resources, r.phase = .revoked → ∀ c, r.crid = some c →
    c ∈ w.cloud.deletedResources
  accepted : ∀ p ∈ w.gateway.acknowledged, ∃ i ∈ w.cloud.created,
    (i.page = p.1 ∧ i.grantId = p.2) ∧ w.Pursued i
  owed : ∀ j ∈ w.gateway.owed, j ∈ w.gateway.issued ∧
    ((∃ r ∈ w.gateway.disk.cleanup, RowOf r j) ∨ (j.pageId, j.grantId) ∈ w.gateway.acknowledged)
  rows : ∀ r ∈ w.gateway.disk.cleanup, w.gateway.Legit r
  drain : Draining w.gateway w.gateway.drain

section Owes

variable {U : String → Prop} {S : Side} {w : World}

/-! ### What others do -/

theorem Gateway.acknowledge_cases (g : Gateway) (page grantId : String) :
    (∃ j ∈ g.issued, j.pageId = page ∧ j.grantId = grantId) ∧
      g.acknowledge page grantId = { g with acknowledged := (page, grantId) :: g.acknowledged } ∨
    g.acknowledge page grantId = g := by
  unfold Gateway.acknowledge
  split
  · rename_i hany
    obtain ⟨j, hj, hkey⟩ := List.any_eq_true.mp hany
    exact .inl ⟨⟨j, hj, of_decide_eq_true hkey⟩, rfl⟩
  · exact .inr rfl

/-- A deletion is accepted for a grant that is pursued. -/
theorem World.Owes.acknowledge (h : w.Owes) {page grantId : String}
    (hpursued : ∀ j ∈ w.gateway.issued, j.pageId = page → j.grantId = grantId →
      ∃ i ∈ w.cloud.created, (i.page = page ∧ i.grantId = grantId) ∧ w.Pursued i) :
    World.Owes { w with gateway := w.gateway.acknowledge page grantId } := by
  rcases w.gateway.acknowledge_cases page grantId with ⟨⟨j, hj, hp, hg⟩, he⟩ | he <;> rw [he]
  · refine { h with accepted := fun p hp => ?_, owed := fun j hj => ?_, rows := h.rows, drain := ?_ }
    · rcases List.mem_cons.mp hp with rfl | hp
      · exact hpursued j hj (by assumption) hg
      · exact h.accepted p hp
    · obtain ⟨hissued, hrow⟩ := h.owed j hj
      exact ⟨hissued, hrow.imp_right (List.mem_cons_of_mem _)⟩
    · exact h.drain.mono (fun _ h => h) fun _ h => List.mem_cons_of_mem _ h
  · exact h

/-- What `create_grant` returned names its resource by the CRID. -/
theorem World.Base.issued_resource (hb : w.Base U) {j : Issued} {i : Invitation}
    (hi : i ∈ w.cloud.created) (hfor : j.For i) : j.resource = i.resource := by
  unfold Issued.resource
  rw [hfor.resourceCrid, if_neg (crid_ne_empty (hb.resource_re hi))]

/-- A row under the key of a grant is about the grant. -/
theorem World.Issues.rowOf (h : w.Issues) (hb : w.Base U) {j : Issued} (hj : j ∈ w.gateway.issued)
    {r : CleanupRow} (hr : w.gateway.Legit r) (hres : r.resource = j.resource)
    (hqurl : r.qurl = j.qurlId) : RowOf r j := by
  obtain ⟨l, hl, hrow⟩ := hr
  obtain ⟨i, hi, hfor, -⟩ := h.issued j hj
  obtain ⟨i', hi', hfor', -⟩ := h.issued l hl
  have hres' : i'.resource = i.resource := by
    rw [← hb.issued_resource hi' hfor', ← hb.issued_resource hi hfor, ← hrow.resource, hres]
  have hqurl' : i'.qurlId = i.qurlId := by
    rw [← hfor'.qurlId, ← hfor.qurlId, ← hrow.qurl, hqurl]
  obtain rfl := hb.qurl_unique i' hi' i hi hres' hqurl'
  exact ⟨hrow.page.trans (hfor'.pageId.trans hfor.pageId.symm),
    hrow.grantId.trans (hfor'.grantId.trans hfor.grantId.symm), hres, hqurl⟩

/-- The queue has a row for a grant once it was queued. -/
theorem World.Owes.owe (h : w.Owes) (hb : w.Base U) (hissues : w.Issues) {j : Issued}
    (hj : j ∈ w.gateway.issued) (now : Instant) :
    World.Owes { w with gateway := w.gateway.owe j now } := by
  have hlegit : ∀ r ∈ (w.gateway.owe j now).disk.cleanup, w.gateway.Legit r := by
    intro r hr
    rcases Table.mem_insertOrIgnore.mp hr with hr | ⟨rfl, -⟩
    · exact h.rows r hr
    · exact ⟨j, hj, rfl, rfl, rfl, rfl⟩
  refine { h with owed := fun k hk => ?_, rows := hlegit, drain := h.drain.mono (fun _ h => h) fun _ h => h }
  rcases List.mem_cons.mp hk with rfl | hk
  · refine ⟨hj, .inl ?_⟩
    obtain ⟨r, hr, hkey⟩ := Table.exists_key_insertOrIgnore (t := w.gateway.disk.cleanup)
      (r := k.row now)
    exact ⟨r, hr, hissues.rowOf hb hj (hlegit r hr) (Prod.mk.inj hkey).1 (Prod.mk.inj hkey).2⟩
  · obtain ⟨hissued, hrow⟩ := h.owed k hk
    exact ⟨hissued, hrow.imp_left fun ⟨r, hr, hof⟩ => ⟨r, Table.mem_insertOrIgnore_of_mem hr, hof⟩⟩

theorem World.Owes.turned {g : Gateway} (h : w.Owes) (hb : w.Base U) (hissues : w.Issues)
    (ht : w.gateway.Turned g) : World.Owes { w with gateway := g } := by
  have hlegit : ∀ r, w.gateway.Legit r → g.Legit r := by
    unfold Gateway.Legit
    rw [ht.issued]
    exact fun _ => id
  have hack : ∀ r, w.gateway.Accepted r → g.Accepted r := by
    unfold Gateway.Accepted
    rw [ht.acknowledged]
    exact fun _ => id
  refine { gone := h.gone, accepted := ?_, owed := fun j hj => ?_, rows := fun r hr => ?_,
           drain := ht.drain.mono hlegit hack }
  · show ∀ p ∈ g.acknowledged, _
    rw [ht.acknowledged]
    exact h.accepted
  · obtain ⟨hissued, hrow⟩ := h.owed j (ht.owed ▸ hj)
    refine ⟨ht.issued.symm ▸ hissued, ?_⟩
    rcases hrow with ⟨r, hr, hof⟩ | hacked
    · rcases ht.kept r hr with ⟨r', hr', hp, hg, hres, hq⟩ | ⟨r₀, hr₀, ha, hres, hq⟩
      · exact .inl ⟨r', hr', hp.trans hof.page, hg.trans hof.grantId, hres.trans hof.resource,
          hq.trans hof.qurl⟩
      · have hof₀ := hissues.rowOf hb hissued hr₀ (hres.trans hof.resource) (hq.trans hof.qurl)
        refine .inr ?_
        rw [← hof₀.page, ← hof₀.grantId]
        exact hack r₀ ha
    · exact .inr (ht.acknowledged.symm ▸ hacked)
  · obtain ⟨q, hq, hp, hg, hres, hqurl⟩ := ht.rows r hr
    obtain ⟨j, hj, hof⟩ := h.rows q hq
    exact ⟨j, ht.issued.symm ▸ hj, hp.trans hof.page, hg.trans hof.grantId, hres.trans hof.resource,
      hqurl.trans hof.qurl⟩

theorem World.Owes.meanwhile (h : w.Owes) (hb : w.Base U) (hissues : w.Issues) (m : Meanwhile) :
    (m.apply w).Owes := by
  cases m with
  | queue page grantId due =>
      simp only [Meanwhile.apply]
      split
      · have hqueued : (w.queueRevocation page grantId due).Owes := by
          refine { h with accepted := fun p hp => ?_ }
          obtain ⟨i, hi, hip, hpursued⟩ := h.accepted p hp
          refine ⟨i, hi, hip, hpursued.imp_left ?_⟩
          rintro ⟨⟨r, hr, hk⟩, hfiled⟩
          exact ⟨⟨r, Table.mem_insertOrIgnore_of_mem hr, hk⟩, hfiled⟩
        refine hqueued.acknowledge fun j hj hp hg => ?_
        obtain ⟨i, hi, hfor, hstate⟩ := hissues.issued j hj
        refine ⟨i, hi, ⟨hfor.pageId.symm.trans hp, hfor.grantId.symm.trans hg⟩,
          hstate.imp_left fun hfiled => ⟨?_, hfiled⟩⟩
        obtain ⟨r, hr, hk⟩ := Table.exists_key_insertOrIgnore (t := w.revocations)
          (r := ⟨page, grantId, due, 0⟩)
        exact ⟨r, hr, (Prod.mk.inj hk).1.trans (hp.symm.trans hfor.pageId),
          (Prod.mk.inj hk).2.trans (hg.symm.trans hfor.grantId)⟩
      · exact h
  | policy pages => exact { h with }
  | gateway pages =>
      simp only [Meanwhile.apply]
      split
      · exact { h with drain := h.drain.mono (fun _ h => h) fun _ h => h }
      · exact h
  | owe grant now =>
      simp only [Meanwhile.apply]
      split
      · rename_i hj
        exact h.owe hb hissues hj now
      · exact h
  | drain => exact { h with drain := .start }
  | die => exact { h with drain := .done _ }
  | turn t => exact h.turned hb hissues (h.drain.turned t h.rows)

/-! ### Questions of the broker -/

theorem deletedResources_step (t : Tick) (e : Op) {c : String}
    (h : c ∈ w.cloud.deletedResources) : c ∈ (Op.step t e w).2.cloud.deletedResources := by
  have h : c ∈ (t.meet w).cloud.deletedResources := by rwa [(same_meet t w).cloud]
  have happly : c ∈ (e.apply t (t.meet w)).cloud.deletedResources := by
    cases e with
    | mint crid scope page grantId wanted =>
        rcases create_cases (t.meet w).cloud t crid scope page grantId wanted with he | ⟨-, he⟩ <;>
          simp only [Op.apply, he, Option.getD_none, Option.getD_some] <;> exact h
    | _ => exact h
  rcases step_cases t e w with he | he | he <;> rw [he]
  · exact h
  · exact happly
  · cases e with
    | mint crid scope page grantId wanted => exact happly
    | deleteResource crid => exact List.mem_cons_of_mem _ h
    | cleanup crid => exact List.mem_cons_of_mem _ h
    | _ => exact h

/-- A row is revoked when its resource was reported deleted. -/
theorem gone_step (t : Tick) (e : Op) (hb : w.Base U) (hreset : ¬ S.reset) (hpre : e.Pre S w)
    (h : ∀ r ∈ w.registry.resources, r.phase = .revoked → ∀ c, r.crid = some c →
      c ∈ w.cloud.deletedResources) :
    ∀ r ∈ (Op.step t e w).2.registry.resources, r.phase = .revoked → ∀ c, r.crid = some c →
      c ∈ (Op.step t e w).2.cloud.deletedResources := by
  intro s hs hphase c hc
  refine deletedResources_step t e ?_
  have hsame := same_meet t w
  have hmeet : s ∈ (t.meet w).registry.resources → c ∈ w.cloud.deletedResources := by
    intro hs
    exact h s (hsame.registry ▸ hs) hphase c hc
  rcases step_cases t e w with he | he | he <;> rw [he] at hs
  · exact hmeet hs
  · cases e <;> exact hmeet hs
  · cases e with
    | registry e =>
        have hs : s ∈ (e.perform t.now w.registry).2.resources := by
          rw [← hsame.registry]
          exact hs
        have hne : e ≠ .invalidate := by
          rintro rfl
          exact hreset hpre.2
        rcases RegistryOp.perform_rows t.now e hb.registry hpre.1 hne hs with
          ⟨_, _, _, -, hnone, -⟩ | ⟨r, hr, hm, hrev⟩
        · rw [hnone] at hc
          cases hc
        · have hcrid : r.crid = some c := by
            rcases hm.crid with heq | ⟨-, -, hready⟩
            · exact heq.symm.trans hc
            · rw [hphase] at hready
              cases hready
          rcases hrev hphase with hrevoked | ⟨rfl, hname⟩
          · exact h r hr hrevoked c hcrid
          · exact hpre.2 r hr ⟨hm.page.symm, hname⟩ c hcrid
    | _ => exact hmeet hs

/-- A queued deletion stays queued until the mapping is gone. -/
theorem queued_perform (t : Tick) (e : Op) {page grantId : String} (hpre : e.Pre S w)
    (hmapped : ∃ m, w.Mapped page grantId m) (h : w.Queued page grantId) :
    (e.perform t w).2.Queued page grantId := by
  obtain ⟨r, hr, hp, hg⟩ := h
  cases e with
  | insertRevocation p g => exact ⟨r, Table.mem_insertOrIgnore_of_mem hr, hp, hg⟩
  | postponeRevocation p g delay =>
      obtain ⟨q, hq, hk⟩ := Table.exists_key_updateWhere
        (p := fun r : Revocation => r.page = p ∧ r.grantId = g)
        (f := fun r => { r with due := t.now + second * max 5 delay, attempts := r.attempts + 1 })
        (fun _ => rfl) hr
      exact ⟨q, hq, (Prod.mk.inj hk).1.trans hp, (Prod.mk.inj hk).2.trans hg⟩
  | deleteRevocation p g =>
      refine ⟨r, Table.mem_deleteWhere.mpr ⟨hr, decide_eq_false fun hkey => ?_⟩, hp, hg⟩
      obtain ⟨m, hm⟩ := hmapped
      refine hpre m ?_
      rw [← hkey.1, ← hkey.2, hp, hg]
      exact hm
  | _ => exact ⟨r, hr, hp, hg⟩

theorem queued_step (t : Tick) (e : Op) {page grantId : String} (hpre : e.Pre S w)
    (hmapped : ∃ m, w.Mapped page grantId m) (hmeet : (t.meet w).Queued page grantId) :
    (Op.step t e w).2.Queued page grantId := by
  have hs := same_meet t w
  rcases step_cases t e w with he | he | he <;> rw [he]
  · exact hmeet
  · cases e <;> exact hmeet
  · refine queued_perform t e (hpre.same hs) ?_ hmeet
    obtain ⟨m, hm⟩ := hmapped
    exact ⟨m, hs.still.mapped.mpr hm⟩

/-- The gateway is the one that was met. -/
theorem gateway_step (t : Tick) (e : Op) :
    (Op.step t e w).2.gateway = (t.meet w).gateway := by
  rcases step_cases t e w with he | he | he <;> rw [he]
  · exact (gateway_apply t e _).1
  · cases e <;> rfl

/-- **One question keeps what is owed on record.** -/
theorem owes_step (t : Tick) (e : Op) (hb : w.Base U) (hissues : w.Issues) (h : w.Owes)
    (hreset : ¬ S.reset) (hpre : e.Pre S w) : (Op.step t e w).2.Owes := by
  obtain ⟨-, -, hmeet⟩ : (t.meet w).Base U ∧ (t.meet w).Issues ∧ (t.meet w).Owes :=
    meet_induction (J := fun w => w.Base U ∧ w.Issues ∧ w.Owes) (fun w m ⟨hb, hissues, h⟩ =>
      ⟨hb.same (same_apply w m), hissues.meanwhile m, h.meanwhile hb hissues m⟩) t
      ⟨hb, hissues, h⟩
  have hs := same_meet t w
  have hgateway := gateway_step (w := w) t e
  refine { gone := gone_step t e hb hreset hpre h.gone, accepted := fun p hp => ?_,
           owed := by rw [hgateway]; exact hmeet.owed, rows := by rw [hgateway]; exact hmeet.rows,
           drain := by rw [hgateway]; exact hmeet.drain }
  rw [hgateway] at hp
  obtain ⟨i, hi, hip, hpursued⟩ := hmeet.accepted p hp
  have hi : i ∈ w.cloud.created := hs.cloud ▸ hi
  refine ⟨i, created_step t e hi, hip, ?_⟩
  rcases hpursued with ⟨hqueued, m, hm, hd⟩ | hretired
  · have hm : w.Mapped i.page i.grantId m := hs.still.mapped.mp hm
    rcases filed_step t e hb hi hpre ⟨m, hm, hd⟩ with hfiled | hretired
    · exact .inl ⟨queued_step t e hpre ⟨m, hm⟩ hqueued, hfiled⟩
    · exact .inr hretired
  · refine .inr (retired_step t e hb hi hpre ?_)
    simpa only [World.Retired, hs.registry, hs.cloud] using hretired

theorem owes_reply (r : Request) (a : Except Failure Reply) (hissues : w.Issues) (h : w.Owes)
    (hd : r.Delivers a w) : (r.reply a w).Owes := by
  -- what has no mapping is gone, if it was sent
  have pursued : ∀ page grantId, (w.Deferred page grantId ∨ w.Deleted page grantId) →
      ∀ j ∈ w.gateway.issued, j.pageId = page → j.grantId = grantId →
      ∃ i ∈ w.cloud.created, (i.page = page ∧ i.grantId = grantId) ∧ w.Pursued i := by
    rintro page grantId hcase j hj rfl rfl
    obtain ⟨i, hi, hfor, hstate⟩ := hissues.issued j hj
    refine ⟨i, hi, ⟨hfor.pageId.symm, hfor.grantId.symm⟩, ?_⟩
    rw [hfor.pageId, hfor.grantId] at hcase
    rcases hstate with ⟨m, hm, hdm⟩ | hretired
    · rcases hcase with ⟨hqueued, -⟩ | ⟨hnone, -⟩
      · exact .inl ⟨hqueued, m, hm, hdm⟩
      · exact absurd hm (hnone m)
    · exact .inr hretired
  unfold Request.reply
  split
  · refine { h with owed := fun j hj => ?_, rows := fun r hr => ?_, drain := ?_ }
    · obtain ⟨hissued, hrow⟩ := h.owed j hj
      exact ⟨List.mem_cons_of_mem _ hissued, hrow⟩
    · obtain ⟨j, hj, hof⟩ := h.rows r hr
      exact ⟨j, List.mem_cons_of_mem _ hj, hof⟩
    · exact h.drain.mono (fun r ⟨j, hj, hof⟩ => ⟨j, List.mem_cons_of_mem _ hj, hof⟩) fun _ h => h
  · exact h.acknowledge (pursued _ _ (.inr hd))
  · exact h.acknowledge (pursued _ _ hd)
  · exact h

theorem World.Owes.empty : World.empty.Owes where
  gone := nofun
  accepted := nofun
  owed := nofun
  rows := nofun
  drain := .done _

/-! ### A grant that is not asked for again -/

/-- No row of its own comes back. -/
theorem settled_step (hS : S.Knows U) (t : Tick) (e : Op) (hb : w.Base U) {i : Invitation}
    (hi : i ∈ w.cloud.created) (hpre : e.Pre S w) (h : w.Settled i.page i.grantId) :
    (Op.step t e w).2.Settled i.page i.grantId := by
  have hafter := (stable_base hS).step t e w hb hpre
  cases hscope : i.scope with
  | page => exact .inl fun r hr hat => hafter.pool i (created_step t e hi) hscope r hr hat.2
  | guest =>
      rcases h with hnone | ⟨c, hrevoked⟩
      · obtain ⟨r, hr, -, hp, ho⟩ := hb.row i hi
        rw [hscope] at ho
        exact absurd ⟨hp, ho⟩ (hnone r hr)
      · exact .inr ⟨c, revoked_step (hb.grantId_ne_page hi) t e hb.registry hpre hrevoked⟩

theorem deleted_step (hS : S.Knows U) (t : Tick) (e : Op) (hb : w.Base U) {i : Invitation}
    (hi : i ∈ w.cloud.created) (hspared : ¬ S.used i.grantId) (hpre : e.Pre S w)
    (h : w.Deleted i.page i.grantId) : (Op.step t e w).2.Deleted i.page i.grantId := by
  refine ⟨unmapped_step t e ?_ h.1, settled_step hS t e hb hi hpre h.2⟩
  -- a mapping that is written is that of a grant somebody asks for
  rintro n rfl hpath
  obtain ⟨hused, j, hj, hd⟩ := hpre
  have hre : grantIdRe n.grantId = true := hd.grantId ▸ (hb.created j hj).2.1
  obtain ⟨-, hid⟩ := mappingPath_injective (hb.created i hi).2.1 hre hpath
  exact hspared (hid ▸ hused)

theorem queued_meet (t : Tick) {page grantId : String} (h : w.Queued page grantId) :
    (t.meet w).Queued page grantId := by
  refine meet_induction (J := fun w => w.Queued page grantId) (fun w m h => ?_) t h
  cases m with
  | queue page grantId due =>
      simp only [Meanwhile.apply]
      split
      · obtain ⟨r, hr, hk⟩ := h
        exact ⟨r, Table.mem_insertOrIgnore_of_mem hr, hk⟩
      · exact h
  | gateway pages =>
      simp only [Meanwhile.apply]
      split <;> exact h
  | owe grant now =>
      simp only [Meanwhile.apply]
      split <;> exact h
  | _ => exact h

/-- What is queued stays so until it is deleted. -/
theorem deferred_step (hS : S.Knows U) (t : Tick) (e : Op) (hb : w.Base U) {i : Invitation}
    (hi : i ∈ w.cloud.created) (hpre : e.Pre S w) (h : w.Deferred i.page i.grantId) :
    (Op.step t e w).2.Deferred i.page i.grantId ∨ (Op.step t e w).2.Deleted i.page i.grantId := by
  obtain ⟨hqueued, m, hm, -⟩ := h
  have hafter := (stable_base hS).step t e w hb hpre
  have hi' := created_step t e hi
  by_cases hmapped : ∃ n, (Op.step t e w).2.Mapped i.page i.grantId n
  · obtain ⟨n, hn⟩ := hmapped
    have hd := hafter.describes hn hi'
    exact .inl ⟨queued_step t e hpre ⟨m, hm⟩ (queued_meet t hqueued), n, hn, hd.pageId, hd.grantId⟩
  · rw [not_exists] at hmapped
    rcases filed_step t e hb hi hpre ⟨m, hm, hb.describes hm hi⟩ with ⟨n, hn, -⟩ | hretired
    · exact absurd hn (hmapped n)
    · exact .inr ⟨hmapped, hafter.settled hi' hretired⟩

end Owes

/-! ## Twice is once -/

/-- Nothing else happens before the question. -/
def Tick.quiet (t : Tick) : Tick := { t with meanwhile := [] }

section Idle

variable {α β : Type} {w : World} (cfg : Config)

/-- The program leaves the world exactly as it is. -/
structure Idles (w : World) (x : BrokerM α) (Q : Except Failure α → Prop) : Prop where
  holds : x.run.Holds (fun t : Tick => Op.step t.quiet) (fun w' => w' = w) (fun _ => True)
    (fun r _ => Q r) w

theorem idles_pure {a : α} {Q : Except Failure α → Prop} (h : Q (.ok a)) : Idles w (pure a) Q :=
  ⟨rfl, h⟩

theorem idles_throw {e : Failure} {Q : Except Failure α → Prop} (h : Q (.error e)) :
    Idles w (throw e) Q := ⟨rfl, h⟩

theorem idles_mono {x : BrokerM α} {P Q : Except Failure α → Prop} (h : Idles w x P)
    (hPQ : ∀ r, P r → Q r) : Idles w x Q := ⟨Prog.holds_mono h.holds fun r _ _ => hPQ r⟩

theorem idles_bind {x : BrokerM α} {f : α → BrokerM β} {P : Except Failure α → Prop}
    {Q : Except Failure β → Prop} (h : Idles w x P) (hok : ∀ a, P (.ok a) → Idles w (f a) Q)
    (herr : ∀ e, P (.error e) → Q (.error e)) : Idles w (x >>= f) Q := by
  refine ⟨Prog.holds_except_bind (Prog.holds_mono h.holds fun r w' hw hr => ?_)⟩
  subst hw
  cases r with
  | ok a => exact (hok a hr).holds
  | error e => exact herr e hr

theorem idles_attempt {x : BrokerM α} {f : Except Failure α → BrokerM β}
    {P : Except Failure α → Prop} {Q : Except Failure β → Prop} (h : Idles w x P)
    (hf : ∀ r, P r → Idles w (f r) Q) : Idles w (attempt x >>= f) Q := by
  refine ⟨Prog.holds_except_bind ?_⟩
  rw [show (attempt x).run = (x.run >>= fun r =>
    (pure (Except.ok r) : Prog Op Op.Ans (Except Failure (Except Failure α)))) from rfl,
    Prog.holds_bind]
  refine Prog.holds_mono h.holds fun r w' hw hr => ?_
  subst hw
  exact ⟨rfl, (hf r hr).holds⟩

/-- A question that changes nothing. -/
theorem idles_ask {e : Op} {Q : e.Ans → Prop} (happly : ∀ t, e.apply t w = w)
    (hperform : ∀ t, (e.perform t w).2 = w) (hfail : ∀ t, Q (.error (e.failure t)))
    (hok : ∀ t, Q (e.perform t w).1) : Idles w (ask e) Q := by
  refine ⟨rfl, fun t => ⟨trivial, ?_⟩⟩
  show (Op.step t.quiet e w).2 = w ∧ Q (Op.step t.quiet e w).1
  rcases step_cases t.quiet e w with he | he | he <;> rw [he]
  · exact ⟨rfl, hfail _⟩
  · exact ⟨happly _, hfail _⟩
  · exact ⟨hperform _, hok _⟩

theorem idles_loadMapping {page grantId : String} :
    Idles w (loadMapping page grantId) fun o => Loaded page grantId o w := by
  unfold loadMapping
  refine idles_bind (P := fun o => ∀ e, o = .error e → ∃ message, e = .policy message 400)
    ⟨Prog.holds_except_lift.mpr ⟨rfl, fun e he => ?_⟩⟩ (fun _ _ => ?_) fun e he => ?_
  · unfold grantFile at he
    split at he
    · cases he
    · cases he
      exact ⟨_, rfl⟩
  · refine idles_bind (P := fun o => match o with
      | .ok r => r = (w.mappings.find? (mappingPath page grantId)).map Prod.snd
      | .error e => ∃ message, e = .policy message 500) ?_ (fun r hr => ?_) fun e he => ?_
    · unfold readMapping
      refine idles_attempt (P := fun o => ∀ r, o = .ok r →
        r = (w.mappings.find? (mappingPath page grantId)).map Prod.snd)
        (idles_ask (fun _ => rfl) (fun _ => rfl) (fun _ => nofun)
          fun _ r hr => (Except.ok.inj hr).symm) fun o ho => ?_
      cases o with
      | ok r => exact idles_pure (ho r rfl)
      | error e => exact idles_throw ⟨_, rfl⟩
    · cases r with
      | none =>
          refine idles_throw fun _ => ?_
          exact find?_mappings_none.mp (Option.map_eq_none_iff.mp hr.symm)
      | some m =>
          simp only
          split
          · rename_i hid
            exact idles_pure ⟨find?_mappings.mp hr.symm, hid⟩
          · exact idles_throw fun h => by cases h
    · obtain ⟨message, rfl⟩ := he
      exact fun h => by cases h
  · obtain ⟨message, rfl⟩ := he e rfl
    exact fun h => by cases h

theorem idles_revokeOwned {page grantId : String} (h : w.Settled page grantId) :
    Idles w (revokeOwned cfg page grantId) fun _ => True := by
  have hbinding : Idles w (askRegistry (.binding page grantId)) fun o => ∀ r, o = .ok r →
      r = w.registry.resources.find? (page, grantId) :=
    idles_ask (e := .registry (.binding page grantId)) (fun _ => rfl) (fun _ => rfl)
      (fun _ => nofun) fun _ r hr => (Except.ok.inj hr).symm
  unfold revokeOwned
  refine idles_bind hbinding (fun b hb => ?_) fun _ _ => trivial
  have hb := hb b rfl
  rcases h with hnone | ⟨c, r, hr, hat, hc, hp⟩
  · rw [find?_resources_none.mpr hnone] at hb
    subst hb
    exact idles_pure trivial
  · rw [find?_resources.mpr ⟨hr, hat⟩] at hb
    subst hb
    simp only
    split
    · exact idles_throw trivial
    rename_i crid hcrid
    obtain rfl : crid = c := by
      have := Option.mem_filter_iff.mp (show crid ∈ r.crid.filter _ from hcrid)
      exact Option.some.inj (this.1.symm.trans hc)
    unfold revoke
    refine idles_bind hbinding (fun b hb => ?_) fun _ _ => trivial
    have hb := hb b rfl
    rw [find?_resources.mpr ⟨hr, hat⟩] at hb
    subst hb
    simp only [hc, hp, ne_eq, not_true_eq_false, if_false, if_true]
    exact idles_pure trivial

/-- Nothing is left to do for a grant that was deleted. -/
theorem idles_deleteGrant {page grantId : String} (h : w.Deleted page grantId) :
    Idles w (deleteGrant cfg page grantId) fun _ => True := by
  unfold deleteGrant
  refine idles_attempt idles_loadMapping fun o hload => ?_
  match o, hload with
  | .ok m, ⟨hm, _⟩ => exact absurd hm (h.1 m)
  | .error (.policy message status), _ =>
      simp only
      split
      · exact idles_revokeOwned cfg h.2
      · exact idles_throw trivial
  | .error (.layerV ..), _ => exact idles_throw trivial
  | .error .pageConfig, _ => exact idles_throw trivial
  | .error .os, _ => exact idles_throw trivial
  | .error (.integrity _), _ => exact idles_throw trivial
  | .error .database, _ => exact idles_throw trivial
  | .error (.python _), _ => exact idles_throw trivial

/-- Nor for one that is queued. -/
theorem idles_queueRevocation {page grantId : String}
    (h : w.Deferred page grantId ∨ w.Deleted page grantId) :
    Idles w (queueRevocation cfg page grantId) fun _ => True := by
  unfold queueRevocation
  refine idles_attempt idles_loadMapping fun o hload => ?_
  match o, hload with
  | .ok m, ⟨hm, _⟩ =>
      obtain ⟨r, hr, hp, hg⟩ := (h.resolve_right fun hdel => hdel.1 m hm).1
      have hsame : ∀ due, w.queueRevocation page grantId due = w := by
        intro due
        have hnone : w.revocations.insert ⟨page, grantId, due, 0⟩ = none :=
          Table.insert_eq_none.mpr ⟨r, hr, Prod.ext hp hg⟩
        unfold World.queueRevocation Table.insertOrIgnore
        rw [hnone]
        rfl
      refine idles_bind (P := fun _ => True) ?_ (fun _ _ => idles_pure trivial) fun _ _ => trivial
      exact idles_ask (fun _ => rfl) (fun t => hsame _) (fun _ => trivial) fun _ => trivial
  | .error (.policy message status), hload =>
      simp only
      split
      · rename_i hstatus
        have hdel := h.resolve_left fun ⟨_, m, hm, _⟩ => hload hstatus m hm
        exact idles_bind (idles_deleteGrant cfg hdel) (fun _ _ => idles_pure trivial)
          fun _ _ => trivial
      · exact idles_throw trivial
  | .error (.layerV ..), _ => exact idles_throw trivial
  | .error .pageConfig, _ => exact idles_throw trivial
  | .error .os, _ => exact idles_throw trivial
  | .error (.integrity _), _ => exact idles_throw trivial
  | .error .database, _ => exact idles_throw trivial
  | .error (.python _), _ => exact idles_throw trivial

/-- A request to delete a grant. -/
def Request.Deletes : Request → Prop
  | delete .. => True
  | queue .. => True
  | _ => False

/-- The deletion the request asks for is queued, or done. -/
def Request.Handed : Request → World → Prop
  | delete page grantId, w => w.Deleted page grantId
  | queue page grantId, w => w.Deferred page grantId ∨ w.Deleted page grantId
  | _, _ => False

theorem Request.Handed.of_delivers {r : Request} (hr : r.Deletes) {a : Reply}
    (h : r.Delivers (.ok a) w) : r.Handed w := by
  cases r with
  | delete page grantId => exact h
  | queue page grantId => exact h
  | create isolation r => exact hr.elim
  | reconcile => exact hr.elim

theorem Request.Handed.reply {r : Request} (h : r.Handed w) (q : Request)
    (a : Except Failure Reply) : r.Handed (q.reply a w) := by
  obtain ⟨hs, hrev⟩ := same_reply q a w
  cases r with
  | delete page grantId => exact hs.still.deleted.mpr h
  | queue page grantId => exact h.imp (hs.still.deferred hrev).mpr hs.still.deleted.mpr
  | create isolation r => exact h
  | reconcile => exact h

/-- **What was handed over is not handed over twice.** -/
theorem Request.Handed.again {r : Request} (h : r.Handed w) (ts : List Tick) :
    ((r.serve cfg).run.meet Op.step (ts.map Tick.quiet) w).2 = w := by
  have idle : Idles w (r.serve cfg) fun _ => True := by
    cases r with
    | delete page grantId =>
        exact idles_bind (idles_deleteGrant cfg h) (fun _ _ => idles_pure trivial)
          fun _ _ => trivial
    | queue page grantId =>
        exact idles_bind (idles_queueRevocation cfg h) (fun _ _ => idles_pure trivial)
          fun _ _ => trivial
    | create isolation r => exact h.elim
    | reconcile => exact h.elim
  rw [Prog.meet_map]
  exact (idle.holds.meet ts).2.1

/-- The request is about the grant of the invitation. -/
def Request.About (r : Request) (i : Invitation) : Prop :=
  r = .delete i.page i.grantId ∨ r = .queue i.page i.grantId

theorem Request.About.deletes {r : Request} {i : Invitation} (h : r.About i) : r.Deletes := by
  rcases h with rfl | rfl <;> trivial

/-- **One question of others.** -/
theorem Request.Handed.step {U : String → Prop} {S : Side} (hS : S.Knows U) (t : Tick) (e : Op)
    (hb : w.Base U) {r : Request} {i : Invitation} (hi : i ∈ w.cloud.created)
    (hspared : ¬ S.used i.grantId) (hpre : e.Pre S w) (habout : r.About i) (h : r.Handed w) :
    r.Handed (Op.step t e w).2 := by
  rcases habout with rfl | rfl
  · exact deleted_step hS t e hb hi hspared hpre h
  · exact h.elim (deferred_step hS t e hb hi hpre)
      fun h => .inr (deleted_step hS t e hb hi hspared hpre h)

section Twice

variable {cfg} {past : List Request} {r : Request} {ts : List Tick} {a : Reply} {w₁ : World}

/-- What an accepted deletion leaves. -/
theorem handed_of_done (hb : w.Base (usedBy past)) (hr : r.Deletes)
    (hdone : ((broker cfg).serve r).meet Op.step ts w = (some (.ok a), w₁)) :
    (r.reply (.ok a) w₁).Base (usedBy (r :: past)) ∧ r.Handed (r.reply (.ok a) w₁) ∧
      ∀ i ∈ w.cloud.created, i ∈ (r.reply (.ok a) w₁).cloud.created := by
  have hfresh : Fresh past r := by
    cases r with
    | create isolation r => exact hr.elim
    | _ => trivial
  have hmeet := ((request_holds cfg (J := fun w' => ∀ i ∈ w.cloud.created, i ∈ w'.cloud.created)
    (serves_brokerSide past r) hfresh (fun t e _ _ h _ i hi => created_step t e (h i hi))
    (fun a w' _ h _ i hi => (same_reply r a w').1.cloud ▸ h i hi) hb fun _ => id).meet ts).2.2
  rw [hdone] at hmeet
  obtain ⟨hd, hbase, hcreated⟩ := hmeet (.ok a) rfl
  exact ⟨hbase, (Request.Handed.of_delivers hr hd).reply r (.ok a), hcreated⟩

/-- **A deletion that was accepted leaves nothing to a second one**,
whatever was asked in between. -/
theorem handed_after (hb : w.Base (usedBy past)) {i : Invitation} (hi : i ∈ w.cloud.created)
    (habout : r.About i) (hdone : ((broker cfg).serve r).meet Op.step ts w = (some (.ok a), w₁))
    {rs : List (Request × List Tick)} (hfresh : Server.Admits Fresh (r :: past) rs) :
    r.Handed ((broker cfg).play (r.reply (.ok a) w₁) rs) := by
  obtain ⟨hbase, hhanded, hcreated⟩ := handed_of_done hb habout.deletes hdone
  refine (broker_run_sparing cfg (J := fun w => i ∈ w.cloud.created ∧ r.Handed w)
    (hbase.created i (hcreated i hi)).1 hfresh hbase ⟨hcreated i hi, hhanded⟩
    (fun U t e w hb h hpre => ⟨created_step t e h.1, ?_⟩) fun U q a w hb h _ => ⟨?_, ?_⟩).2
  · have hknows : ((brokerSide U).sparing i.grantId).Knows U := ⟨id, fun _ h => h.1, fun _ _ h => h⟩
    exact Request.Handed.step hknows t e hb h.1 (fun hused => hused.2 rfl) hpre habout h.2
  · exact (same_reply q a w).1.cloud ▸ h.1
  · exact h.2.reply q a

end Twice

end Idle

/-- **Cleanup obligations survive every hand-off.** After any requests in
which each grant is asked for once, whatever is lost or fails and wherever
either process dies: a grant whose cleanup was queued, or whose deletion
was accepted, is in the gateway's cleanup queue, or in the broker's queue
of revocations with a mapping that names its resource and qURL, or its
qURL or resource was reported deleted or already absent. And a deletion
that was accepted leaves nothing to a second one, at once or, of a grant
that was created, whenever it comes. -/
theorem cleanup_handoff (cfg : Config) (rs : List (Request × List Tick))
    (hfresh : Server.Admits Fresh [] rs) :
    let w := (broker cfg).play .empty rs
    (∀ j, j ∈ w.gateway.owed ∨
        (j ∈ w.gateway.issued ∧ (j.pageId, j.grantId) ∈ w.gateway.acknowledged) →
      (∃ r ∈ w.gateway.disk.cleanup, r.page = j.pageId ∧ r.grantId = j.grantId ∧
        r.resource = j.resource ∧ r.qurl = j.qurlId) ∨
      ((∃ r ∈ w.revocations, r.page = j.pageId ∧ r.grantId = j.grantId) ∧
        ∃ m, w.Mapped j.pageId j.grantId m ∧ m.resource = j.resource ∧ m.qurlId = j.qurlId) ∨
      (j.resource, j.qurlId) ∈ w.cloud.deletedQurls ∨ j.resource ∈ w.cloud.deletedResources) ∧
    (∀ r : Request, r.Deletes → ∀ ts a w₁,
      ((broker cfg).serve r).meet Op.step ts w = (some (.ok a), w₁) →
      ∀ ts' : List Tick,
        (((broker cfg).serve r).meet Op.step (ts'.map Tick.quiet) (r.reply (.ok a) w₁)).2 =
          r.reply (.ok a) w₁) ∧
    ∀ pre r ts post, rs = pre ++ (r, ts) :: post →
      ∀ i ∈ ((broker cfg).play .empty pre).cloud.created, r.About i →
      ∀ a w₁, ((broker cfg).serve r).meet Op.step ts ((broker cfg).play .empty pre) =
        (some (.ok a), w₁) →
      ∀ ts' : List Tick, (((broker cfg).serve r).meet Op.step (ts'.map Tick.quiet) w).2 = w := by
  intro w
  obtain ⟨hb, hissues, howes⟩ := broker_run cfg (J := fun w => w.Issues ∧ w.Owes) hfresh
    ⟨⟨nofun, nofun, nofun⟩, .empty⟩
    (fun U t e _ hb h hpre => ⟨issues_step t e hb h.1 hpre,
      owes_step t e hb h.1 h.2 (brokerSide_knows U).reset hpre⟩)
    fun _ r a _ hb h hd => ⟨issues_reply r a hb h.1 hd, owes_reply r a h.1 h.2 hd⟩
  refine ⟨fun j hj => ?_, fun r hr ts a w₁ hdone ts' => ?_, ?_⟩
  rotate_left
  · exact (handed_of_done hb hr hdone).2.1.again cfg ts'
  · rintro pre r ts post rfl i hi habout a w₁ hdone ts'
    obtain ⟨hpre, hpost⟩ := Server.Admits.append hfresh
    obtain ⟨hbase, -⟩ := broker_run cfg (J := fun _ => True) hpre trivial
      (fun _ _ _ _ _ _ _ => trivial) fun _ _ _ _ _ _ _ => trivial
    have hw : w = (broker cfg).play (r.reply (.ok a) w₁) post := by
      show (broker cfg).play .empty (pre ++ (r, ts) :: post) = _
      rw [Server.play_append]
      show (broker cfg).play ((broker cfg).request _ (r, ts)) post = _
      rw [Server.request, show ((broker cfg).serve r).meet (broker cfg).perform ts _ = _ from hdone]
      rfl
    rw [hw]
    exact (handed_after hbase hi habout hdone hpost.2).again cfg ts'
  have hcase : j ∈ w.gateway.issued ∧ ((∃ r ∈ w.gateway.disk.cleanup, RowOf r j) ∨
      (j.pageId, j.grantId) ∈ w.gateway.acknowledged) :=
    hj.elim (howes.owed j) fun hj => ⟨hj.1, .inr hj.2⟩
  obtain ⟨hissued, ⟨r, hr, hof⟩ | hack⟩ := hcase
  · exact .inl ⟨r, hr, hof.page, hof.grantId, hof.resource, hof.qurl⟩
  -- the broker accepted the deletion
  obtain ⟨i, hi, hfor, -⟩ := hissues.issued j hissued
  obtain ⟨i', hi', ⟨-, hg⟩, hpursued⟩ := howes.accepted _ hack
  obtain rfl := hb.grant_unique i' hi' i hi (hg.trans hfor.grantId)
  have hres := hb.issued_resource hi hfor
  refine .inr ?_
  rw [hres, hfor.qurlId, hfor.pageId, hfor.grantId]
  rcases hpursued with ⟨hqueued, m, hm, hd⟩ | hretired
  · refine .inl ⟨hqueued, m, hm, ?_, hd.qurlId⟩
    unfold Mapping.resource
    rw [hd.resourceCrid, Option.getD_some, if_neg (crid_ne_empty (hb.resource_re hi))]
  · unfold World.Retired at hretired
    cases hscope : i'.scope with
    | guest =>
        rw [hscope] at hretired
        obtain ⟨r, hr, -, hc, hp⟩ := hretired
        exact .inr (.inr (howes.gone r hr hp _ hc))
    | page =>
        rw [hscope] at hretired
        exact .inr (.inl hretired)

/-- What the gateway was sent for the guest of the gate. -/
def gateIssued : Issued :=
  ⟨"gate", gateGrant, "q_0123456789a", "key", "aaaaaaaaaaaaaaaaaaaaaaaaaaaaaaaaaaaaaaaa", .page⟩

def gateTurn : Pages.Tick := ⟨false, false, 0, .success⟩

/-- The gateway queues the cleanup, the broker accepts the deletion, and
the drain hands it over. -/
def gateHandoff : List (Request × List Tick) :=
  [(.create .page gateRequest, List.replicate 20 gateTick),
    (.queue "gate" gateGrant,
      List.replicate 5 { gateTick with meanwhile := [.owe gateIssued 0] }),
    (.queue "gate" gateGrant,
      [{ gateTick with meanwhile := [.drain, .turn gateTurn, .turn gateTurn, .turn gateTurn] }])]

theorem gateHandoff_fresh : Server.Admits Fresh [] gateHandoff :=
  ⟨fun ⟨_, _, h, _⟩ => absurd h List.not_mem_nil, trivial, trivial, trivial⟩

/-- What the first deletion meets. -/
def gateOwing : List Tick := List.replicate 5 { gateTick with meanwhile := [.owe gateIssued 0] }

/-- It is accepted. -/
theorem gateHandoff_accepted :
    (∃ i ∈ ((broker gateConfig).play .empty (gateHandoff.take 1)).cloud.created,
      Request.About (.queue "gate" gateGrant) i) ∧
    ∃ a w₁, ((broker gateConfig).serve (.queue "gate" gateGrant)).meet Op.step gateOwing
      ((broker gateConfig).play .empty (gateHandoff.take 1)) = (some (.ok a), w₁) := by
  constructor
  · obtain ⟨i, hi, hp, hg⟩ : ∃ i ∈ ((broker gateConfig).play .empty
        (gateHandoff.take 1)).cloud.created, i.page = "gate" ∧ i.grantId = gateGrant := by
      decide +kernel
    exact ⟨i, hi, .inr (by rw [hp, hg])⟩
  · have hok : (((broker gateConfig).serve (.queue "gate" gateGrant)).meet Op.step gateOwing
        ((broker gateConfig).play .empty (gateHandoff.take 1))).1.any Except.isOk = true := by
      decide +kernel
    generalize ((broker gateConfig).serve _).meet Op.step _ _ = x at hok
    obtain ⟨_ | _ | a, w₁⟩ := x
    · cases hok
    · cases hok
    · exact ⟨a, w₁, rfl⟩

theorem cleanup_handoff_gate :
    let w := (broker gateConfig).play .empty gateHandoff
    (gateIssued ∈ w.gateway.owed ∧ w.gateway.disk.cleanup.rows = [] ∧
      w.revocations.rows.length = 1) ∧
    (∀ j, j ∈ w.gateway.owed ∨
        (j ∈ w.gateway.issued ∧ (j.pageId, j.grantId) ∈ w.gateway.acknowledged) →
      (∃ r ∈ w.gateway.disk.cleanup, r.page = j.pageId ∧ r.grantId = j.grantId ∧
        r.resource = j.resource ∧ r.qurl = j.qurlId) ∨
      ((∃ r ∈ w.revocations, r.page = j.pageId ∧ r.grantId = j.grantId) ∧
        ∃ m, w.Mapped j.pageId j.grantId m ∧ m.resource = j.resource ∧ m.qurlId = j.qurlId) ∨
      (j.resource, j.qurlId) ∈ w.cloud.deletedQurls ∨ j.resource ∈ w.cloud.deletedResources) ∧
    (∀ r : Request, r.Deletes → ∀ ts a w₁,
      ((broker gateConfig).serve r).meet Op.step ts w = (some (.ok a), w₁) →
      ∀ ts' : List Tick,
        (((broker gateConfig).serve r).meet Op.step (ts'.map Tick.quiet) (r.reply (.ok a) w₁)).2 =
          r.reply (.ok a) w₁) ∧
    (∀ pre r ts post, gateHandoff = pre ++ (r, ts) :: post →
      ∀ i ∈ ((broker gateConfig).play .empty pre).cloud.created, r.About i →
      ∀ a w₁, ((broker gateConfig).serve r).meet Op.step ts
        ((broker gateConfig).play .empty pre) = (some (.ok a), w₁) →
      ∀ ts' : List Tick,
        (((broker gateConfig).serve r).meet Op.step (ts'.map Tick.quiet) w).2 = w) ∧
    ∀ ts' : List Tick, (((broker gateConfig).serve (.queue "gate" gateGrant)).meet Op.step
      (ts'.map Tick.quiet) w).2 = w := by
  obtain ⟨honce, htwice, hagain⟩ := cleanup_handoff gateConfig gateHandoff gateHandoff_fresh
  obtain ⟨⟨i, hi, habout⟩, a, w₁, hdone⟩ := gateHandoff_accepted
  exact ⟨by decide +kernel, honce, htwice, hagain,
    hagain (gateHandoff.take 1) _ _ (gateHandoff.drop 2) rfl i hi habout a w₁ hdone⟩

end LayerV

end AccessPages
