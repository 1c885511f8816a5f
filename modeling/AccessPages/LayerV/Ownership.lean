import AccessPages.LayerV.Creating
/-!
# LayerV — every allocation has an owner

The broker over any requests, each grant asked for once, on any outcome
upstream, with lost replies, failed writes and a crash after any step.
`broker_run` is the rule for its runs. What was published has a row of the
resource database; an invitation on a page pool is named by the journal
or by a mapping, at every moment of the hand-over between the two.
-/

namespace AccessPages

namespace LayerV

open Pages (UpstreamScope grantIdRe)

/-! ## Runs -/

/-- The grants that were asked for. -/
def usedBy (past : List Request) (grantId : String) : Prop :=
  ∃ isolation r, Request.create isolation r ∈ past ∧ r.grantId = grantId

/-- A grant is asked for once: the gateway draws a new identifier for each. -/
def Fresh (past : List Request) : Request → Prop
  | .create _ r => ¬ usedBy past r.grantId
  | _ => True

/-- What is known of the grants, and nothing of what is deleted. -/
def brokerSide (U : String → Prop) : Side where
  reset := False
  blind := True
  used := U
  owner g c := U g ∧ ∀ i ∈ c.created, i.grantId ≠ g
  qurl _ _ _ := True
  resource _ _ _ _ := True
  qurl_purges _ _ _ _ _ h := h

theorem brokerSide_knows (U : String → Prop) : (brokerSide U).Knows U :=
  ⟨id, fun _ => id, fun _ _ => id⟩

theorem brokerSide_open (U : String → Prop) : (brokerSide U).Open :=
  ⟨fun _ _ _ => trivial, fun _ _ _ _ => trivial⟩

/-- The side of those who do not ask for the grant. -/
def Side.sparing (S : Side) (grantId : String) : Side :=
  { S with used := fun g => S.used g ∧ g ≠ grantId }

/-- The request may be served after those before it. -/
structure Side.Serves (S : Side) (past : List Request) (r : Request) : Prop
    extends S.Knows (usedBy (r :: past)), S.Open where
  blind : S.blind
  creates : ∀ isolation q, r = .create isolation q → S.Creates q.grantId

theorem serves_brokerSide (past : List Request) (r : Request) :
    (brokerSide (usedBy (r :: past))).Serves past r :=
  { brokerSide_knows _, brokerSide_open _ with
    blind := trivial
    creates := by
      rintro isolation q rfl
      exact { brokerSide_open _ with
        reset := id
        used := ⟨isolation, q, List.mem_cons_self, rfl⟩
        owner := fun _ h => ⟨⟨isolation, q, List.mem_cons_self, rfl⟩, h⟩ } }

/-- A grant that was asked for is not asked for again. -/
theorem serves_sparing {past : List Request} {r : Request} {grantId : String}
    (hused : usedBy past grantId) (hfresh : Fresh past r) :
    ((brokerSide (usedBy (r :: past))).sparing grantId).Serves past r where
  reset := id
  used _ h := h.1
  owner _ _ h := h
  qurl _ _ _ := trivial
  resource _ _ _ _ := trivial
  blind := trivial
  creates := by
    rintro isolation q rfl
    exact { (serves_brokerSide past _).creates isolation q rfl with
      used := ⟨⟨isolation, q, List.mem_cons_self, rfl⟩, fun h => hfresh (h ▸ hused)⟩ }

/-- There is nothing left to delete of the grant. -/
def World.Deleted (w : World) (page grantId : String) : Prop :=
  (∀ m, ¬ w.Mapped page grantId m) ∧ w.Settled page grantId

/-- The deletion of the grant is queued. -/
def World.Deferred (w : World) (page grantId : String) : Prop :=
  w.Queued page grantId ∧ ∃ m, w.Mapped page grantId m ∧ m.pageId = page ∧ m.grantId = grantId

theorem World.Still.deleted {w w' : World} (h : w.Still w') {page grantId : String} :
    w'.Deleted page grantId ↔ w.Deleted page grantId := by
  simp only [World.Deleted, h.mapped, h.settled]

theorem World.Still.deferred {w w' : World} (h : w.Still w') (hrev : w'.revocations = w.revocations)
    {page grantId : String} : w'.Deferred page grantId ↔ w.Deferred page grantId := by
  simp only [World.Deferred, World.Queued, h.mapped, hrev]

/-- What the result of a request says. -/
def Request.Delivers : Request → Except Failure Reply → World → Prop
  | create _ r, .ok (.created q), w => Granted r q w
  | delete page grantId, .ok _, w => w.Deleted page grantId
  | queue page grantId, .ok _, w => w.Deferred page grantId ∨ w.Deleted page grantId
  | _, _, _ => True

section Serve

variable {S : Side} {I : World → Prop} {U : String → Prop} {w : World} (cfg : Config)

theorem Side.Open.mayDelete (hS : S.Open) (w : World) (i : Invitation) : w.MayDelete S i := by
  unfold World.MayDelete
  split
  · exact hS.resource _ _ _ _
  · exact hS.qurl _ _ _

theorem walks_reconcileOnce (hI : Stable S I) (hbase : ∀ w, I w → w.Base U) (hS : S.Open)
    (hw : I w) : Walks S I (reconcileOnce cfg) (OnOk fun _ _ => True) w := by
  have hallows : Allows cfg S I :=
    ⟨fun w _ _ _ i _ _ _ _ _ _ _ => hS.mayDelete w i,
      fun _ _ _ _ _ _ _ _ _ _ _ _ => hS.resource _ _ _ _⟩
  have houtside : ∀ w, I w → Walks S I publisherState (OnOk fun _ _ => True) w :=
    fun w hw => walks_ask_ok hI hw trivial fun _ _ _ => trivial
  have hlive : ∀ page grantId w, I w → Walks S I (liveMapping cfg page grantId)
      (OnOk fun b w' => b = false → Judged S page grantId w') w :=
    fun page grantId w hw => walks_ok (walks_liveMapping cfg hI hbase hw)
      fun _ _ _ _ _ _ _ => hS.resource _ _ _ _
  have hpage : ∀ page w, I w → Walks S I (pageExists page)
      (OnOk fun b w' => b = false → Judged S page "__page__" w') w :=
    fun page w hw => walks_ask_ok hI hw trivial fun _ _ _ _ _ _ => hS.resource _ _ _ _
  unfold reconcileOnce
  refine walks_seq (houtside w hw) fun b w₁ hw₁ _ => ?_
  cases b with
  | true => exact walks_pure hw₁ trivial
  | false =>
      refine walks_seq (walks_drainRevocations cfg hI hbase hallows hw₁) fun _ w₂ hw₂ _ => ?_
      refine walks_seq (walks_retireOrphans cfg hI hlive hw₂) fun _ w₃ hw₃ _ => ?_
      refine walks_seq (walks_retireDeletedPagePools cfg hI hpage hw₃) fun _ w₄ hw₄ _ => ?_
      refine walks_seq (walks_drainRetirements cfg hI hS.resource hw₄) fun _ w₅ hw₅ _ => ?_
      refine walks_seq (walks_drainInvitations cfg hI hbase
        (fun _ _ _ _ _ _ _ _ _ => hS.qurl _ _ _) hw₅) fun _ w₆ hw₆ _ => ?_
      exact walks_seq (houtside w₆ hw₆) fun _ w₇ hw₇ _ => walks_pure hw₇ trivial

/-- A grant that was not asked for is untouched. -/
theorem World.Base.untouched {grantId : String} (h : w.Base U) (hU : ¬ U grantId) :
    w.Untouched grantId := by
  refine ⟨⟨?_, ?_⟩, ?_⟩
  · rintro i hi rfl
    exact hU (h.created i hi).1
  · rintro m hm rfl
    exact hU (h.mint m hm).1
  · rintro hre r hr rfl
    exact hU (h.owner r hr hre)

theorem walks_serve_delete (hS : S.Knows U) (hopen : S.Open) (page grantId : String)
    (hw : w.Base U) :
    Walks S (World.Base U) ((Request.delete page grantId).serve cfg)
      (Request.delete page grantId).Delivers w := by
  have hserve : Walks S (World.Base U) ((Request.delete page grantId).serve cfg)
      (OnOk fun _ w' => w'.Deleted page grantId) w :=
    walks_seq (walks_deleteGrant cfg (stable_base hS) (fun _ => id) hw
      (fun _ i _ _ _ _ _ => hopen.mayDelete w i) fun _ _ _ _ _ _ _ => hopen.resource _ _ _ _)
      fun _ w₁ hw₁ h => walks_pure hw₁ h
  refine walks_mono hserve fun a w' _ h => ?_
  cases a with
  | error e => trivial
  | ok a => exact h

theorem walks_serve_queue (hS : S.Knows U) (hopen : S.Open) (page grantId : String)
    (hw : w.Base U) :
    Walks S (World.Base U) ((Request.queue page grantId).serve cfg)
      (Request.queue page grantId).Delivers w := by
  have hserve : Walks S (World.Base U) ((Request.queue page grantId).serve cfg)
      (OnOk fun _ w' => w'.Deferred page grantId ∨ w'.Deleted page grantId) w := by
    refine walks_seq (walks_queueRevocation cfg (stable_base hS) (fun _ => id) hw
      fun _ _ _ _ _ _ _ => hopen.resource _ _ _ _) fun _ w₁ hw₁ h => walks_pure hw₁ ?_
    rcases h with ⟨⟨m, hm, hids⟩, hs, -, hq⟩ | ⟨-, hdeleted⟩
    · exact .inl ⟨hq, m, hs.mapped.mpr hm, hids⟩
    · exact .inr hdeleted
  refine walks_mono hserve fun a w' _ h => ?_
  cases a with
  | error e => trivial
  | ok a => exact h

/-- **One request.** -/
theorem walks_serve {past : List Request} {r : Request} (hS : S.Serves past r)
    (hw : w.Base (usedBy past)) (hfresh : Fresh past r) :
    Walks S (World.Base (usedBy (r :: past))) (r.serve cfg) r.Delivers w := by
  have hw' : w.Base (usedBy (r :: past)) :=
    hw.mono fun g ⟨i, q, hq, hg⟩ => ⟨i, q, List.mem_cons_of_mem _ hq, hg⟩
  have hI := stable_base hS.toKnows
  cases r with
  | create isolation r =>
      have hserve : Walks S (World.Base (usedBy (.create isolation r :: past)))
          ((Request.create isolation r).serve cfg)
          (OnOk fun a w' => ∃ q, a = .created q ∧ Granted r q w') w :=
        walks_seq (walks_createGrant cfg hI (fun _ => id) (hS.creates isolation r rfl) hw'
          (hw.untouched hfresh)) fun q w₁ hw₁ h => walks_pure hw₁ ⟨q, rfl, h⟩
      refine walks_mono hserve fun a w' _ h => ?_
      match a, h with
      | .error e, _ => trivial
      | .ok _, ⟨q, rfl, hq⟩ => exact hq
  | delete page grantId => exact walks_serve_delete cfg hS.toKnows hS.toOpen page grantId hw'
  | queue page grantId => exact walks_serve_queue cfg hS.toKnows hS.toOpen page grantId hw'
  | reconcile =>
      refine walks_mono (Q := OnOk fun _ _ => True) (walks_seq
        (walks_reconcileOnce cfg hI (fun _ => id) hS.toOpen hw')
        fun _ w₁ hw₁ _ => walks_pure hw₁ trivial) fun a w' _ _ => ?_
      cases a <;> trivial

/-- A reply is the gateway's affair. -/
theorem same_reply (r : Request) (a : Except Failure Reply) (w : World) :
    w.Same (r.reply a w) ∧ (r.reply a w).revocations = w.revocations := by
  unfold Request.reply
  split <;> exact ⟨⟨rfl, rfl, rfl, rfl, rfl⟩, rfl⟩

theorem World.Base.reply (h : w.Base U) (r : Request) (a : Except Failure Reply) :
    (r.reply a w).Base U := h.same (same_reply r a w).1

/-- **The rule of requests.** What every question and the reply keep, given
that the records hang together, a request keeps. -/
theorem request_holds {J : World → Prop} {past : List Request} {r : Request}
    (hS : S.Serves past r) (hfresh : Fresh past r)
    (hstep : ∀ t e w, w.Base (usedBy (r :: past)) → J w → e.Pre S w → J (Op.step t e w).2)
    (hreply : ∀ a w, w.Base (usedBy (r :: past)) → J w → r.Delivers a w → J (r.reply a w))
    (hw : w.Base (usedBy past)) (hJ : J w) :
    ((broker cfg).serve r).Holds Op.step (fun w => w.Base (usedBy (r :: past)) ∧ J w)
      (fun _ => True) (fun a w' => r.Delivers a w' ∧
        (r.reply a w').Base (usedBy (r :: past)) ∧ J (r.reply a w')) w := by
  have hwalk := walks_with (walks_serve cfg hS hw hfresh) hJ hstep
  refine Prog.holds_imp (Prog.holds_mono (hwalk.all hS.blind) fun a w' hw' ha => ?_) (fun _ h => h)
    fun _ _ _ _ _ => trivial
  exact ⟨ha.1, hw'.1.reply r a, hreply a w' hw'.1 ha.2 ha.1⟩

/-- **The rule of runs.** What every question and every reply keeps, given
that the records hang together, holds after every run. -/
theorem broker_run {J : World → Prop} {rs : List (Request × List Tick)}
    (hfresh : Server.Admits Fresh [] rs) (hempty : J .empty)
    (hstep : ∀ U t e w, w.Base U → J w → e.Pre (brokerSide U) w → J (Op.step t e w).2)
    (hreply : ∀ U r a w, w.Base U → J w → Request.Delivers r a w → J (r.reply a w)) :
    ((broker cfg).play .empty rs).Base (usedBy (Server.made [] rs)) ∧
      J ((broker cfg).play .empty rs) :=
  ((broker cfg).play_holds (I := fun past w => w.Base (usedBy past) ∧ J w)
    (fun past r _ hr hw => request_holds cfg (serves_brokerSide past r) hr (hstep _) (hreply _ r)
      hw.1 hw.2) hfresh ⟨.empty _, hempty⟩).1

/-- The same from a world where the grant was asked for: nobody asks for it
again. -/
theorem broker_run_sparing {J : World → Prop} {past : List Request}
    {rs : List (Request × List Tick)} {grantId : String} (hused : usedBy past grantId)
    (hfresh : Server.Admits Fresh past rs) (hw : w.Base (usedBy past)) (hJ : J w)
    (hstep : ∀ U t e w, w.Base U → J w → e.Pre ((brokerSide U).sparing grantId) w →
      J (Op.step t e w).2)
    (hreply : ∀ U r a w, w.Base U → J w → Request.Delivers r a w → J (r.reply a w)) :
    J ((broker cfg).play w rs) := by
  have later : ∀ {past : List Request} {r : Request}, usedBy past grantId →
      usedBy (r :: past) grantId :=
    fun ⟨isolation, q, hq, hid⟩ => ⟨isolation, q, List.mem_cons_of_mem _ hq, hid⟩
  refine ((broker cfg).play_holds
    (I := fun past w => (usedBy past grantId ∧ w.Base (usedBy past)) ∧ J w)
    (Q := fun r a w => r.Delivers a w) (G := fun _ => True) (fun past r w hr hw => ?_) hfresh
    ⟨⟨hused, hw⟩, hJ⟩).1.2
  refine Prog.holds_mono (Prog.holds_imp (request_holds cfg (serves_sparing hw.1.1 hr) hr (hstep _)
    (hreply _ r) hw.1.2 hw.2) (fun w' h => ⟨⟨later hw.1.1, h.1⟩, h.2⟩) fun _ _ _ _ _ => trivial)
    fun a w' _ h => ⟨h.1, ⟨later hw.1.1, h.2.1⟩, h.2.2⟩

end Serve

/-! ## Owners -/

/-- The journal names the invitation. -/
def World.Pending (w : World) (i : Invitation) : Prop :=
  ∃ m ∈ w.mints, m.page = i.page ∧ m.grantId = i.grantId ∧ m.resource = i.resource ∧
    m.label = i.label

/-- The mapping of its grant names the invitation. -/
def World.Filed (w : World) (i : Invitation) : Prop :=
  ∃ m, w.Mapped i.page i.grantId m ∧ m.Describes i

/-- **Every allocation has an owner.** -/
structure World.Owned (w : World) : Prop where
  published : ∀ c ∈ w.cloud.published, ∃ r ∈ w.registry.resources, r.connectorId = c
  invitation : ∀ i ∈ w.cloud.invitations, i.scope = .page → w.Pending i ∨ w.Filed i

section Step

variable {U : String → Prop} {S : Side} {w : World}

theorem World.Owned.same {w' : World} (h : w.Owned) (hs : w.Same w') : w'.Owned := by
  obtain ⟨g, m, p, v, c, y, o, l⟩ := w
  obtain ⟨g', m', p', v', c', y', o', l'⟩ := w'
  obtain ⟨rfl, rfl, rfl, rfl, rfl⟩ := hs
  exact { h with }

theorem World.Owned.apply (h : w.Owned) (t : Tick) {e : Op} (hpre : e.Pre S w) :
    (e.apply t w).Owned := by
  cases e with
  | publish connectorId target =>
      refine { h with published := fun c hc => ?_ }
      rcases List.mem_cons.mp hc with rfl | hc
      · exact hpre
      · exact h.published c hc
  | mint crid scope page grantId wanted =>
      obtain ⟨-, -, -, -, hjournal, hpool⟩ := hpre
      rcases create_cases w.cloud t crid scope page grantId wanted with he | ⟨-, he⟩ <;>
        simp only [Op.apply, he, Option.getD_none, Option.getD_some]
      · exact h
      refine { h with invitation := fun i hi hscope => ?_ }
      rcases List.mem_append.mp hi with hi | hi
      · exact h.invitation i hi hscope
      · obtain rfl := List.mem_singleton.mp hi
        -- the journal was prepared before the invitation was asked for
        obtain ⟨⟨m, hm, hp, hg⟩, -⟩ := hpool hscope
        obtain ⟨-, -, hr, hl⟩ := hjournal m hm hg
        exact .inl ⟨m, hm, hp, hg, hr, hl⟩
  | deleteQurl resource qurlId =>
      exact { h with invitation := fun i hi => h.invitation i (List.mem_filter.mp hi).1 }
  | deleteResource crid =>
      exact { h with invitation := fun i hi => h.invitation i (List.mem_filter.mp hi).1 }
  | cleanup crid =>
      exact { h with invitation := fun i hi => h.invitation i (List.mem_filter.mp hi).1 }
  | _ => exact h

/-- A mapping that is written over describes the same invitation. -/
theorem World.Base.filed_write (hb : w.Base U) (t : Tick) {m : Mapping} {i : Invitation}
    (hm : ∃ j ∈ w.cloud.created, m.Describes j) (hi : i ∈ w.cloud.created) (h : w.Filed i) :
    ((Op.writeMapping m).perform t w).2.Filed i := by
  obtain ⟨n, hn, hd⟩ := h
  obtain ⟨j, hj, hmj⟩ := hm
  by_cases hpath : mappingPath i.page i.grantId = mappingPath m.pageId m.grantId
  · have hre : grantIdRe m.grantId = true := hmj.grantId ▸ (hb.created j hj).2.1
    obtain ⟨-, hid⟩ := mappingPath_injective (hb.created i hi).2.1 hre hpath
    obtain rfl := hb.grant_unique j hj i hi (hmj.grantId.symm.trans hid.symm)
    refine ⟨m, Table.mem_insertOrReplace.mpr (.inr ?_), hmj⟩
    rw [hpath]
  · exact ⟨n, Table.mem_insertOrReplace.mpr (.inl ⟨hn, hpath⟩), hd⟩

/-- A journal row keeps naming its invitation when it is postponed. -/
theorem World.Pending.postpone {i : Invitation} {page grantId : String} {delay : Int} (t : Tick)
    (h : w.Pending i) : ((Op.postponeMint page grantId delay).perform t w).2.Pending i := by
  obtain ⟨m, hm, hp, hg, hr, hl⟩ := h
  obtain ⟨n, hn, hrow⟩ := journaled_postponeMint page grantId delay t ⟨m, hm, rfl, rfl, rfl, rfl⟩
  exact ⟨n, hn, hrow.page.trans hp, hrow.grantId.trans hg, hrow.resource.trans hr,
    hrow.label.trans hl⟩

theorem World.Owned.perform (h : w.Owned) (hb : w.Base U) (t : Tick) {e : Op}
    (hpre : e.Pre S w) : (e.perform t w).2.Owned := by
  cases e with
  | registry e =>
      obtain ⟨-, hmoves, -⟩ := RegistryOp.perform_inv t.now e hb.registry hpre.1
      refine { h with published := fun c hc => ?_ }
      obtain ⟨r, hr, rfl⟩ := h.published c hc
      obtain ⟨s, hs, hm⟩ := hmoves.kept r hr
      exact ⟨s, hs, hm.connectorId⟩
  | prepareMint page grantId resource label =>
      refine { h with invitation := fun i hi hscope => (h.invitation i hi hscope).imp_left ?_ }
      rintro ⟨m, hm, hk⟩
      exact ⟨m, Table.mem_insertOrIgnore_of_mem hm, hk⟩
  | completeMint page grantId =>
      refine { h with invitation := fun i hi hscope => ?_ }
      rcases h.invitation i hi hscope with ⟨m, hm, hp, hg, hk⟩ | hfiled
      · by_cases hkey : m.page = page ∧ m.grantId = grantId
        · -- the journal lets go of it only for the mapping
          rcases hpre with ⟨n, hn, -⟩ | hnone
          · have hn : w.Mapped i.page i.grantId n := by
              rwa [← hp, ← hg, hkey.1, hkey.2]
            exact .inr ⟨n, hn, hb.describes hn (hb.listed i hi).1⟩
          · exact absurd hscope
              (hnone i hi (hp.symm.trans hkey.1) (hg.symm.trans hkey.2))
        · exact .inl ⟨m, Table.mem_deleteWhere.mpr ⟨hm, decide_eq_false hkey⟩, hp, hg, hk⟩
      · exact .inr hfiled
  | postponeMint page grantId delay =>
      exact { h with
        invitation := fun i hi hscope => (h.invitation i hi hscope).imp_left (.postpone t) }
  | writeMapping m =>
      exact { h with
        invitation := fun i hi hscope => (h.invitation i hi hscope).imp_right
          (hb.filed_write t hpre.2 (hb.listed i hi).1) }
  | unlinkMapping page grantId =>
      refine { h with invitation := fun i hi hscope => (h.invitation i hi hscope).imp_right ?_ }
      rintro ⟨m, hm, hd⟩
      refine ⟨m, Table.mem_deleteWhere.mpr ⟨hm, decide_eq_false fun hpath => ?_⟩, hd⟩
      -- what the mapping names was reported deleted, so it is not there
      have hretired := hpre m (by rw [World.Mapped, ← hpath]; exact hm) i (hb.listed i hi).1 hd
      unfold World.Retired at hretired
      rw [hscope] at hretired
      exact (hb.listed i hi).2 hretired
  | deleteQurl resource qurlId => exact { h.apply t hpre with }
  | deleteResource crid => exact { h.apply t hpre with }
  | cleanup crid => exact { h.apply t hpre with }
  | publish connectorId target => exact h.apply t hpre
  | mint crid scope page grantId wanted => exact h.apply t hpre
  | insertRevocation page grantId => exact { h with }
  | postponeRevocation page grantId delay => exact { h with }
  | deleteRevocation page grantId => exact { h with }
  | mappingExists page grantId => exact { h with }
  | loadPolicy page => exact { h with }
  | loadGateway page => exact { h with }
  | _ => exact h

theorem owned_step (t : Tick) (e : Op) (hb : w.Base U) (h : w.Owned) (hpre : e.Pre S w) :
    (Op.step t e w).2.Owned := by
  have hs := same_meet t w
  rcases step_cases t e w with he | he | he <;> rw [he]
  · exact h.same hs
  · exact (h.same hs).apply t (hpre.same hs)
  · exact (h.same hs).perform (hb.same hs) t (hpre.same hs)

theorem World.Owned.reply (h : w.Owned) (r : Request) (a : Except Failure Reply) :
    (r.reply a w).Owned := h.same (same_reply r a w).1

end Step

/-- **Every upstream allocation has a durable owner.** After any requests
in which each grant is asked for once, in either isolation mode, on any
outcome and wherever the last one was interrupted: every resource that
was published has a row with its connector identifier, and every
invitation on a page pool that is there is named, by its resource and
label in the journal, or by its resource and qURL in the mapping of its
grant. -/
theorem upstream_allocation_owned (cfg : Config) (rs : List (Request × List Tick))
    (hfresh : Server.Admits Fresh [] rs) :
    let w := (broker cfg).play .empty rs
    (∀ c ∈ w.cloud.published, ∃ r ∈ w.registry.resources, r.connectorId = c) ∧
    ∀ i ∈ w.cloud.invitations, i.scope = .page →
      (∃ m ∈ w.mints, m.page = i.page ∧ m.grantId = i.grantId ∧ m.resource = i.resource ∧
        m.label = i.label) ∨
      ∃ m, w.Mapped i.page i.grantId m ∧ m.pageId = i.page ∧ m.grantId = i.grantId ∧
        m.resource = i.resource ∧ m.qurlId = i.qurlId := by
  intro w
  obtain ⟨hb, howned⟩ := broker_run cfg (J := World.Owned) hfresh ⟨nofun, nofun⟩
    (fun _ t e _ hb h hpre => owned_step t e hb h hpre) fun _ r a _ _ h _ => h.reply r a
  refine ⟨howned.published, fun i hi hscope => (howned.invitation i hi hscope).imp_right ?_⟩
  rintro ⟨m, hm, hd⟩
  have hre := hb.resource_re (hb.listed i hi).1
  refine ⟨m, hm, hd.pageId, hd.grantId, ?_, hd.qurlId⟩
  unfold Mapping.resource
  rw [hd.resourceCrid, Option.getD_some, if_neg (crid_ne_empty hre)]

/-! ## One page with one guest -/

def gateConfig : Config where
  installationId := "home"
  sha256 s := s
  nativeRetirement := false
  hasCleanup := false
  hasEnsureReady := false
  gatewayGrantsDir := true
  resourceId := ""
  maxDays := 30
  isLoopback _ := true

def gateGrant : String := "grant_0123456789abcdef"

def gatePath : String :=
  "/g/gate/" ++ gateGrant ++ "/?bootstrap=0123456789012345678901234567890123456789012"

def gateRequest : CreateRequest := ⟨"gate", gateGrant, "Guest", "1h", gatePath, false, "1h"⟩

/-- Nothing fails, and everything is confirmed. -/
def gateTick : Tick where
  meanwhile := [.policy ["gate"]]
  now := 0
  blind := false
  fault := false
  error := .os
  applied := false
  answer := false
  target := some "127.0.0.1"
  published := ⟨some "aaaaaaaaaaaaaaaaaaaaaaaaaaaaaaaaaaaaaaaa", some "key",
    some "http://127.0.0.1:8080", some "serving"⟩
  minted := ⟨"q_0123456789a", "link", "key", gatePath, some (.aware (3600 * second)), 0⟩
  effective := ⟨"", 3600, gatePath, false, 3600⟩

/-- The process dies when the invitation was created and its mapping is not
yet written. -/
def gateCrash : List (Request × List Tick) :=
  [(.create .page gateRequest, List.replicate 11 gateTick)]

theorem gateCrash_fresh : Server.Admits Fresh [] gateCrash :=
  ⟨fun ⟨_, _, h, _⟩ => absurd h List.not_mem_nil, trivial⟩

theorem upstream_allocation_owned_gate :
    let w := (broker gateConfig).play .empty gateCrash
    (w.cloud.invitations.length = 1 ∧ w.mappings.rows = []) ∧
    (∀ c ∈ w.cloud.published, ∃ r ∈ w.registry.resources, r.connectorId = c) ∧
    ∀ i ∈ w.cloud.invitations, i.scope = .page →
      (∃ m ∈ w.mints, m.page = i.page ∧ m.grantId = i.grantId ∧ m.resource = i.resource ∧
        m.label = i.label) ∨
      ∃ m, w.Mapped i.page i.grantId m ∧ m.pageId = i.page ∧ m.grantId = i.grantId ∧
        m.resource = i.resource ∧ m.qurlId = i.qurlId :=
  ⟨by decide +kernel, upstream_allocation_owned gateConfig gateCrash gateCrash_fresh⟩

end LayerV

end AccessPages
