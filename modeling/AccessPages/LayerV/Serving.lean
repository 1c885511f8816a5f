import AccessPages.LayerV.Records
/-!
# LayerV — the walk through the broker

Every request of the broker asks its questions knowingly, whatever they
meet. A deletion is walked through with what its caller knows of the
invitation; the passes of the reconciliation bring that knowledge along.
-/

namespace AccessPages

namespace LayerV

open Pages (UpstreamScope grantIdRe)

/-! ## What a question leaves alone -/

section Frame

variable {S : Side} {w : World}

/-- The broker's own records and its look are as they were. -/
structure World.Still (w w' : World) : Prop where
  registry : w'.registry = w.registry
  mints : w'.mints = w.mints
  mappings : w'.mappings = w.mappings
  cloud : w'.cloud = w.cloud

theorem World.Still.refl (w : World) : w.Still w := ⟨rfl, rfl, rfl, rfl⟩

theorem World.Still.trans {w w' w'' : World} (h : w.Still w') (h' : w'.Still w'') : w.Still w'' :=
  ⟨h'.registry.trans h.registry, h'.mints.trans h.mints, h'.mappings.trans h.mappings,
    h'.cloud.trans h.cloud⟩

theorem World.Same.still {w w' : World} (h : w.Same w') : w.Still w' :=
  ⟨h.registry, h.mints, h.mappings, h.cloud⟩

theorem World.Still.mapped {w' : World} (h : w.Still w') {page grantId : String} {m : Mapping} :
    w'.Mapped page grantId m ↔ w.Mapped page grantId m := by
  unfold World.Mapped
  rw [h.mappings]

theorem created_apply (t : Tick) (e : Op) (w : World) {i : Invitation}
    (hi : i ∈ w.cloud.created) : i ∈ (e.apply t w).cloud.created := by
  cases e with
  | mint crid scope page grantId wanted =>
      rcases create_cases w.cloud t crid scope page grantId wanted with he | ⟨-, he⟩ <;>
        simp only [Op.apply, he, Option.getD_none, Option.getD_some]
      · exact hi
      · exact List.mem_cons_of_mem _ hi
  | _ => exact hi

/-- What was created stays on record. -/
theorem created_step (t : Tick) (e : Op) {i : Invitation} (hi : i ∈ w.cloud.created) :
    i ∈ (Op.step t e w).2.cloud.created := by
  have hi : i ∈ (t.meet w).cloud.created := by rwa [(same_meet t w).cloud]
  rcases step_cases t e w with he | he | he <;> rw [he]
  · exact hi
  · exact created_apply t e _ hi
  · cases e with
    | mint crid scope page grantId wanted => exact created_apply t _ _ hi
    | _ => exact hi

/-- No grant is being created. -/
def Side.quiet (S : Side) : Side := { S with used := fun _ => False }

theorem Side.quiet_le (S : Side) : S.quiet.Le S :=
  ⟨id, id, fun _ => False.elim, fun _ _ => id, fun _ _ _ => id, fun _ _ _ _ => id⟩

/-- Nor is a resource of its own allocated. -/
def Side.still (S : Side) : Side :=
  { S with
    used := fun _ => False
    owner := fun _ _ => False }

theorem Side.still_le (S : Side) : S.still.Le S :=
  ⟨id, id, fun _ => False.elim, fun _ _ => False.elim, fun _ _ _ => id, fun _ _ _ _ => id⟩

/-- There is neither an invitation nor a row of the journal. -/
def World.Unseen (w : World) (grantId : String) : Prop :=
  (∀ i ∈ w.cloud.created, i.grantId ≠ grantId) ∧ ∀ m ∈ w.mints, m.grantId ≠ grantId

theorem unseen_step (hS : ∀ g, ¬ S.used g) {grantId : String} (t : Tick) (e : Op)
    (hpre : e.Pre S w) (h : w.Unseen grantId) : (Op.step t e w).2.Unseen grantId := by
  have hs := same_meet t w
  have h : (t.meet w).Unseen grantId := by
    unfold World.Unseen
    rwa [hs.cloud, hs.mints]
  rcases step_cases t e w with he | he | he <;> rw [he]
  · exact h
  · cases e with
    | mint crid scope page grantId wanted => exact absurd hpre.1 (hS _)
    | _ => exact h
  · cases e with
    | mint crid scope page grantId wanted => exact absurd hpre.1 (hS _)
    | prepareMint page grantId resource label => exact absurd hpre.1 (hS _)
    | completeMint page grantId => exact ⟨h.1, fun m hm => h.2 m (Table.mem_deleteWhere.mp hm).1⟩
    | postponeMint page grantId delay =>
        refine ⟨h.1, fun m hm => ?_⟩
        simp only [Op.perform, Table.mem_updateWhere] at hm
        obtain ⟨n, hn, rfl⟩ := hm
        have := h.2 n hn
        split <;> exact this
    | _ => exact h

/-- A grant without a mapping has none until one is written. -/
theorem unmapped_step {page grantId : String} (t : Tick) (e : Op)
    (hwrite : ∀ n, e = .writeMapping n →
      mappingPath page grantId ≠ mappingPath n.pageId n.grantId)
    (h : ∀ m, ¬ w.Mapped page grantId m) :
    ∀ m, ¬ (Op.step t e w).2.Mapped page grantId m := by
  have hs := same_meet t w
  have h : ∀ m, ¬ (t.meet w).Mapped page grantId m := by
    unfold World.Mapped
    rwa [hs.mappings]
  rcases step_cases t e w with he | he | he <;> rw [he]
  · exact h
  · cases e <;> exact h
  · cases e with
    | writeMapping n =>
        intro m hm
        rcases Table.mem_insertOrReplace.mp hm with ⟨hm, -⟩ | hm
        · exact h m hm
        · exact hwrite n rfl (congrArg Prod.fst hm)
    | unlinkMapping p g => exact fun m hm => h m (Table.mem_deleteWhere.mp hm).1
    | _ => exact h

/-- No row gets the name of a grant. -/
theorem unnamed_step (hS : ∀ g c, ¬ S.owner g c) (hreset : ¬ S.reset) {grantId : String}
    (hre : grantIdRe grantId = true) (t : Tick) (e : Op) (hg : w.registry.Inv) (hpre : e.Pre S w)
    (h : ∀ r ∈ w.registry.resources, r.grantId ≠ grantId) :
    ∀ r ∈ (Op.step t e w).2.registry.resources, r.grantId ≠ grantId := by
  have hs := same_meet t w
  have hmeet : ∀ r ∈ (t.meet w).registry.resources, r.grantId ≠ grantId := by rwa [hs.registry]
  rcases step_cases t e w with he | he | he <;> rw [he]
  · exact hmeet
  · cases e <;> exact hmeet
  · cases e with
    | registry e =>
        show ∀ r ∈ (e.perform t.now (t.meet w).registry).2.resources, _
        rw [hs.registry]
        intro s hs heq
        have hne : e ≠ .invalidate := by
          rintro rfl
          exact hreset hpre.2
        rcases RegistryOp.perform_rows t.now e hg hpre.1 hne hs with
          ⟨page, c, l, rfl, -⟩ | ⟨r, hr, hm, -⟩
        · refine hS _ _ (hpre.2 fun hpage => ?_)
          rw [← heq, hpage, grantIdRe_page] at hre
          cases hre
        · rcases hm.name with hn | ⟨-, k, hn⟩
          · exact h r hr (hn.symm.trans heq)
          · rw [← heq, hn, grantIdRe_retiredName] at hre
            cases hre
    | _ => exact hmeet

end Frame

section Serve

variable {S : Side} {I : World → Prop} {U : String → Prop} {w : World} (cfg : Config)

/-! ## Reading a mapping -/

theorem find?_mappings {page grantId : String} {m : Mapping} :
    (w.mappings.find? (mappingPath page grantId)).map Prod.snd = some m ↔
      w.Mapped page grantId m := by
  unfold World.Mapped
  constructor
  · intro h
    obtain ⟨⟨name, m'⟩, hp, rfl⟩ := Option.map_eq_some_iff.mp h
    obtain ⟨hmem, rfl⟩ := Table.find?_eq_some.mp hp
    exact hmem
  · intro h
    rw [Table.find?_eq_some.mpr ⟨h, rfl⟩]
    rfl

theorem find?_mappings_none {page grantId : String} :
    w.mappings.find? (mappingPath page grantId) = none ↔ ∀ m, ¬ w.Mapped page grantId m := by
  rw [← not_iff_not, ← ne_eq, Option.ne_none_iff_exists']
  push Not
  constructor
  · rintro ⟨p, hp⟩
    exact ⟨p.2, find?_mappings.mp (by rw [hp]; rfl)⟩
  · rintro ⟨m, hm⟩
    exact ⟨_, Table.find?_eq_some.mpr ⟨hm, rfl⟩⟩

/-- What the outcome of `_load_mapping` says. -/
def Loaded (page grantId : String) : Except Failure Mapping → World → Prop
  | .ok m, w => w.Mapped page grantId m ∧ m.pageId = page ∧ m.grantId = grantId
  | .error (.policy _ status), w => status = 404 → ∀ m, ¬ w.Mapped page grantId m
  | .error _, _ => True

theorem walks_readMapping (hI : Stable S I) {page grantId : String} (hw : I w) :
    Walks S I (readMapping page grantId) (fun o w' => w.Same w' ∧ match o with
      | .ok (some m) => w'.Mapped page grantId m
      | .ok none => ∀ m, ¬ w'.Mapped page grantId m
      | .error e => ∃ message, e = .policy message 500) w := by
  unfold readMapping
  refine walks_attempt (P := fun o w' => w.Same w' ∧ ∀ r, o = .ok r →
    r = (w'.mappings.find? (mappingPath page grantId)).map Prod.snd) ?_ fun o w₁ hw₁ h₁ => ?_
  · refine walks_ask hI hw trivial fun t => ?_
    rcases step_cases t.1 (.readMapping page grantId) w with he | he | he <;> rw [he]
    · exact ⟨same_meet t.1 w, nofun⟩
    · exact ⟨same_meet t.1 w, nofun⟩
    · exact ⟨same_meet t.1 w, fun r hr => (Except.ok.inj hr).symm⟩
  · cases o with
    | error e => exact walks_raise hw₁ ⟨h₁.1, _, rfl⟩
    | ok r =>
        refine walks_pure hw₁ ⟨h₁.1, ?_⟩
        have hr := h₁.2 r rfl
        cases r with
        | some m => exact find?_mappings.mp hr.symm
        | none => exact find?_mappings_none.mp (Option.map_eq_none_iff.mp hr.symm)

theorem walks_loadMapping (hI : Stable S I) {page grantId : String} (hw : I w) :
    Walks S I (loadMapping page grantId)
      (fun o w' => w.Same w' ∧ Loaded page grantId o w') w := by
  unfold loadMapping
  refine walks_bind (P := fun o w' => w' = w ∧ ∀ e, o = .error e →
    ∃ message, e = .policy message 400) ?_ (fun _ w₁ hw₁ h₁ => ?_) fun e w₁ _ h₁ => ?_
  · refine ⟨Prog.holds_except_lift.mpr ⟨hw, rfl, fun e he => ?_⟩⟩
    unfold grantFile at he
    split at he
    · cases he
    · cases he
      exact ⟨_, rfl⟩
  · obtain ⟨rfl, -⟩ := h₁
    refine walks_bind (walks_readMapping hI hw₁) (fun r w₂ hw₂ h₂ => ?_) fun e w₂ _ h₂ => ?_
    · cases r with
      | none => exact walks_raise hw₂ ⟨h₂.1, fun _ => h₂.2⟩
      | some m =>
          simp only
          split
          · rename_i hid
            exact walks_pure hw₂ ⟨h₂.1, h₂.2, hid⟩
          · exact walks_raise hw₂ ⟨h₂.1, fun h => by cases h⟩
    · obtain ⟨message, rfl⟩ := h₂.2
      exact ⟨h₂.1, fun h => by cases h⟩
  · obtain ⟨rfl, he⟩ := h₁
    obtain ⟨message, rfl⟩ := he e rfl
    exact ⟨.refl _, fun h => by cases h⟩

/-! ## Deleting -/

theorem deleteQurl_eq {clientResource resource qurlId effective id : String}
    (hr : strip (if resource = "" then clientResource else resource) = effective)
    (hq : strip qurlId = id) :
    deleteQurl clientResource resource qurlId =
      if effective = "" ∨ id = "" then
        throw (layerVError "LayerV resource ID and qURL ID are required")
      else ask (.deleteQurl effective id) := by
  subst hr hq
  rfl

/-- `delete_qurl` of an invitation. -/
theorem walks_deleteQurl (hI : Stable S I) {clientResource : String} {i : Invitation} (hw : I w)
    (hi : i ∈ w.cloud.created) (hresource : strip i.resource = i.resource ∧ i.resource ≠ "")
    (hqurl : strip i.qurlId = i.qurlId) (hS : S.qurl i.resource i.qurlId w) :
    Walks S I (deleteQurl clientResource i.resource i.qurlId) (fun o w' => w.Purges w' ∧
      ∀ b, o = .ok b → (i.resource, i.qurlId) ∈ w'.cloud.deletedQurls ∧
        ∀ j ∈ w'.cloud.invitations, ¬(j.resource = i.resource ∧ j.qurlId = i.qurlId)) w := by
  rw [deleteQurl_eq (by rw [if_neg hresource.2, hresource.1]) hqurl]
  split
  · exact walks_raise hw ⟨(World.Same.refl w).purges, nofun⟩
  refine walks_ask hI hw ⟨hS, i, hi, rfl, rfl⟩ fun t => ?_
  have hs := same_meet t.1 w
  have hpurge : w.Purges ((Op.deleteQurl i.resource i.qurlId).apply t.1 (t.1.meet w)) :=
    hs.purges.trans ⟨rfl, rfl, rfl, rfl, rfl, fun j hj => (List.mem_filter.mp hj).1⟩
  rcases step_cases t.1 (.deleteQurl i.resource i.qurlId) w with he | he | he <;> rw [he]
  · exact ⟨hs.purges, nofun⟩
  · exact ⟨hpurge, nofun⟩
  · refine ⟨hpurge.trans ⟨rfl, rfl, rfl, rfl, rfl, fun _ h => h⟩, fun b _ =>
      ⟨List.mem_cons_self, fun j hj => ?_⟩⟩
    exact of_decide_eq_true (List.mem_filter.mp hj).2

/-- What has to be known to delete what an invitation gave access to. -/
def World.MayDelete (S : Side) (w : World) (i : Invitation) : Prop :=
  match i.scope with
  | .guest => S.resource i.page i.grantId i.resource w.look
  | .page => S.qurl i.resource i.qurlId w

theorem World.MayDelete.same {w' : World} {i : Invitation} (h : w.MayDelete S i)
    (hs : w.Same w') : w'.MayDelete S i := by
  unfold World.MayDelete at h ⊢
  split
  · rename_i hscope
    rw [hscope] at h
    rw [hs.look]
    exact h
  · rename_i hscope
    rw [hscope] at h
    exact S.qurl_purges _ _ _ _ hs.purges h

/-- The resource of an invitation is a CRID. -/
theorem World.Base.resource_re (h : w.Base U) {i : Invitation} (hi : i ∈ w.cloud.created) :
    cridRe i.resource = true := by
  obtain ⟨r, hr, hc, -⟩ := h.row i hi
  exact h.registry.crid_re r hr _ hc

theorem walks_retireMapped (hI : Stable S I) (hbase : ∀ w, I w → w.Base U) {m : Mapping}
    {i : Invitation} (hw : I w) (hi : i ∈ w.cloud.created) (hd : m.Describes i)
    (hS : w.MayDelete S i) :
    Walks S I (retireMapped cfg i.page i.grantId m) (OnOk fun _ w' =>
      w'.Retired i ∧ i ∈ w'.cloud.created) w := by
  have hre := (hbase w hw).resource_re hi
  unfold retireMapped
  rw [hd.upstreamScope]
  cases hscope : i.scope with
  | guest =>
      simp only [hd.resourceCrid]
      have hS : S.resource i.page i.grantId i.resource w.look := by
        unfold World.MayDelete at hS
        rwa [hscope] at hS
      refine walks_mono (walks_keep (J := fun w => i ∈ w.cloud.created)
        (walks_revoke cfg hI hw fun _ _ _ _ _ => hS) hi
        fun t e w _ hi _ => created_step t e hi) fun o w' _ h => ?_
      cases o with
      | error e => trivial
      | ok b =>
          refine ⟨?_, h.2⟩
          unfold World.Retired
          rw [hscope]
          exact h.1
  | page =>
      have hS : S.qurl i.resource i.qurlId w := by
        unfold World.MayDelete at hS
        rwa [hscope] at hS
      have hresource : m.resource = i.resource := by
        unfold Mapping.resource
        rw [hd.resourceCrid, Option.getD_some, if_neg (crid_ne_empty hre)]
      simp only [hresource, hd.qurlId]
      refine walks_mono (walks_deleteQurl hI hw hi ⟨strip_crid hre, crid_ne_empty hre⟩
        ((hbase w hw).created i hi).2.2 hS) fun o w' _ h => ?_
      cases o with
      | error e => trivial
      | ok b =>
          refine ⟨?_, h.1.created ▸ hi⟩
          unfold World.Retired
          rw [hscope]
          exact (h.2 b rfl).1

theorem World.Still.settled {w' : World} (h : w.Still w') {page grantId : String} :
    w'.Settled page grantId ↔ w.Settled page grantId := by
  unfold World.Settled World.Revoked
  rw [h.registry]

/-- What is gone leaves no row behind that is not revoked. -/
theorem World.Base.settled (hb : w.Base U) {i : Invitation} (hi : i ∈ w.cloud.created)
    (h : w.Retired i) : w.Settled i.page i.grantId := by
  unfold World.Retired at h
  cases hscope : i.scope with
  | guest =>
      rw [hscope] at h
      exact .inr ⟨i.resource, h⟩
  | page => exact .inl fun r hr hat => hb.pool i hi hscope r hr hat.2

/-- **`delete_grant`.** What it deletes is what the mapping describes, or
the row of a grant that has no mapping; at its end there is no mapping. -/
theorem walks_deleteGrant (hI : Stable S I) (hbase : ∀ w, I w → w.Base U) {page grantId : String}
    (hw : I w)
    (hmapped : ∀ m i, w.Mapped page grantId m → i ∈ w.cloud.created → m.Describes i →
      i.page = page → i.grantId = grantId → w.MayDelete S i)
    (howned : (∀ m, ¬ w.Mapped page grantId m) → ∀ r ∈ w.registry.resources,
      r.At page grantId → r.phase ≠ .revoked → ∀ c, r.crid = some c →
      S.resource page grantId c w.look) :
    Walks S I (deleteGrant cfg page grantId)
      (OnOk fun _ w' => (∀ m, ¬ w'.Mapped page grantId m) ∧ w'.Settled page grantId) w := by
  unfold deleteGrant
  refine walks_attempt (walks_loadMapping hI hw) fun o w₁ hw₁ ⟨hs, hload⟩ => ?_
  match o, hload with
  | .ok m, ⟨hm, hp, hg⟩ =>
      obtain ⟨-, i, hi, hd⟩ := (hbase w₁ hw₁).mapping _ hm
      obtain rfl : i.page = page := hd.pageId.symm.trans hp
      obtain rfl : i.grantId = grantId := hd.grantId.symm.trans hg
      have hmay : w₁.MayDelete S i :=
        (hmapped m i (hs.still.mapped.mp hm) (hs.cloud ▸ hi) hd rfl rfl).same hs
      refine walks_seq (walks_retireMapped cfg hI hbase hw₁ hi hd hmay)
        fun missing w₂ hw₂ ⟨hretired, hi₂⟩ => ?_
      have hsettled := (hbase w₂ hw₂).settled hi₂ hretired
      refine walks_seq (P := fun _ w' => (∀ m, ¬ w'.Mapped i.page i.grantId m) ∧
        w'.Settled i.page i.grantId) ?_ fun _ w₃ hw₃ h₃ => ?_
      · refine walks_ask_ok hI hw₂ ?_ fun t w₃ hs₃ =>
          ⟨fun m hm => ?_, hs₃.still.settled.mpr hsettled⟩
        · intro m' hm' j hj hdj
          have hb := hbase w₂ hw₂
          have hid := (hb.mapped hm' (hb.created i hi₂).2.1).2.1
          obtain rfl := hb.grant_unique j hj i hi₂ (hdj.grantId.symm.trans hid)
          exact hretired
        · have := (Table.mem_deleteWhere.mp hm).2
          simp at this
      · refine walks_seq (P := fun _ w' => (∀ m, ¬ w'.Mapped i.page i.grantId m) ∧
          w'.Settled i.page i.grantId) ?_ fun _ w₄ hw₄ h => walks_pure hw₄ h
        exact walks_ask_ok hI hw₃ trivial fun t w₄ hs₄ =>
          ⟨fun m hm => h₃.1 m (hs₄.still.mapped.mp hm), hs₄.still.settled.mpr h₃.2⟩
  | .error (.policy message status), hload =>
      simp only
      split
      · rename_i hstatus
        have hnone := hload hstatus
        have hrows : ∀ r ∈ w₁.registry.resources, r.At page grantId → r.phase ≠ .revoked → ∀ c,
            r.crid = some c → S.quiet.resource page grantId c w₁.look := by
          rw [hs.registry, hs.look]
          exact howned fun m hm => hnone m (hs.still.mapped.mpr hm)
        refine walks_le (walks_mono (walks_keep (J := fun w => ∀ m, ¬ w.Mapped page grantId m)
          (walks_revokeOwned cfg (hI.le S.quiet_le) hw₁ hrows) hnone
          fun t e w _ h hpre => unmapped_step t e (by rintro n rfl; exact hpre.1.elim) h)
          fun o w' _ h => ?_)
          S.quiet_le
        cases o with
        | ok b => exact ⟨h.2, h.1⟩
        | error e => trivial
      · exact walks_throw hw₁
  | .error (.layerV ..), _ => exact walks_throw hw₁
  | .error .pageConfig, _ => exact walks_throw hw₁
  | .error .os, _ => exact walks_throw hw₁
  | .error (.integrity _), _ => exact walks_throw hw₁
  | .error .database, _ => exact walks_throw hw₁
  | .error (.python _), _ => exact walks_throw hw₁

/-- There is a row in the queue of revocations. -/
def World.Queued (w : World) (page grantId : String) : Prop :=
  ∃ r ∈ w.revocations, r.page = page ∧ r.grantId = grantId

/-- **`queue_revocation`.** A mapped grant is queued; one without a mapping
is deleted at once. -/
theorem walks_queueRevocation (hI : Stable S I) (hbase : ∀ w, I w → w.Base U)
    {page grantId : String} (hw : I w)
    (howned : (∀ m, ¬ w.Mapped page grantId m) → ∀ r ∈ w.registry.resources,
      r.At page grantId → r.phase ≠ .revoked → ∀ c, r.crid = some c →
      S.resource page grantId c w.look) :
    Walks S I (queueRevocation cfg page grantId) (OnOk fun _ w' =>
      ((∃ m, w.Mapped page grantId m ∧ m.pageId = page ∧ m.grantId = grantId) ∧ w.Still w' ∧ w'.look = w.look ∧ w'.Queued page grantId) ∨
      (∀ m, ¬ w.Mapped page grantId m) ∧ (∀ m, ¬ w'.Mapped page grantId m) ∧
        w'.Settled page grantId) w := by
  unfold queueRevocation
  refine walks_attempt (walks_loadMapping hI hw) fun o w₁ hw₁ ⟨hs, hload⟩ => ?_
  match o, hload with
  | .ok m, ⟨hm, hp, hg⟩ =>
      refine walks_seq (P := fun _ w' => w.Still w' ∧ w'.look = w.look ∧ w'.Queued page grantId) ?_
        fun due w₂ hw₂ h => walks_pure hw₂ (.inl ⟨⟨m, hs.still.mapped.mp hm, hp, hg⟩, h⟩)
      refine walks_ask_ok hI hw₁ trivial fun t w₂ hs₂ => ?_
      refine ⟨(hs.still.trans hs₂.still).trans ⟨rfl, rfl, rfl, rfl⟩, hs₂.look.trans hs.look, ?_⟩
      obtain ⟨r, hr, hk⟩ := Table.exists_key_insertOrIgnore (t := w₂.revocations)
        (r := ⟨page, grantId, t.1.now + 15 * second, 0⟩)
      exact ⟨r, hr, (Prod.mk.inj hk).1, (Prod.mk.inj hk).2⟩
  | .error (.policy message status), hload =>
      simp only
      split
      · rename_i hstatus
        have hnone : ∀ m, ¬ w.Mapped page grantId m :=
          fun m hm => hload hstatus m (hs.still.mapped.mpr hm)
        refine walks_seq (walks_deleteGrant cfg hI hbase hw₁ ?_ ?_)
          fun b w₂ hw₂ h => walks_pure hw₂ (.inr ⟨hnone, h⟩)
        · exact fun m i hm => absurd hm (hload hstatus m)
        · intro _
          rw [hs.registry, hs.look]
          exact howned hnone
      · exact walks_throw hw₁
  | .error (.layerV ..), _ => exact walks_throw hw₁
  | .error .pageConfig, _ => exact walks_throw hw₁
  | .error .os, _ => exact walks_throw hw₁
  | .error (.integrity _), _ => exact walks_throw hw₁
  | .error .database, _ => exact walks_throw hw₁
  | .error (.python _), _ => exact walks_throw hw₁

/-! ## What the gateway authorizes -/

theorem walks_mappingExists (hI : Stable S I) {page grantId : String} (hw : I w) :
    Walks S I (mappingExists page grantId) (OnOk fun b w' => w.Still w' ∧
      w'.look.page = page ∧ w'.look.grantId = grantId ∧
      (b = true → ∃ m, w'.Mapped page grantId m) ∧
      (b = false → ¬ S.blind → ∀ m, ¬ w'.Mapped page grantId m)) w := by
  unfold mappingExists
  refine walks_lift hw fun _ _ => walks_ask_ok hI hw trivial fun t w' hs => ?_
  refine ⟨hs.still.trans ⟨rfl, rfl, rfl, rfl⟩, rfl, rfl, fun hb => ?_, fun hb hsight => ?_⟩
  · obtain ⟨-, hsome⟩ := Bool.and_eq_true_iff.mp hb
    rw [Option.isSome_iff_ne_none, ne_eq, find?_mappings_none] at hsome
    push Not at hsome
    exact hsome
  · rw [Bool.eq_false_iff.mpr (mt t.2 hsight), Bool.not_false, Bool.true_and,
      Option.isSome_eq_false_iff, Option.isNone_iff_eq_none, find?_mappings_none] at hb
    exact hb

/-- What the answer about a mapping that may be live says. -/
structure Judges (S : Side) (cfg : Config) (page grantId : String) (w : World) (b : Bool)
    (w' : World) : Prop where
  still : w.Still w'
  about : w'.look.page = page ∧ w'.look.grantId = grantId
  mapped : b = true → ∃ m, w'.Mapped page grantId m
  dead : b = false → ¬ S.blind → (∀ m, ¬ w'.Mapped page grantId m) ∨
    cfg.gatewayGrantsDir = true ∧ ∃ m, w'.Mapped page grantId m ∧
      ∀ a ∈ grantsOf w'.look.pages page, a.matches grantId m = false

theorem walks_gatewayGrantLive (hI : Stable S I) {page grantId : String} (hw : I w) :
    Walks S I (gatewayGrantLive cfg page grantId)
      (OnOk (Judges S cfg page grantId w)) w := by
  unfold gatewayGrantLive
  refine walks_seq (walks_mappingExists hI hw) fun b w₁ hw₁ ⟨hs₁, hp₁, hg₁, hsome, hnone⟩ => ?_
  cases b with
  | false => exact walks_pure hw₁ ⟨hs₁, ⟨hp₁, hg₁⟩, nofun, fun _ hsight => .inl (hnone rfl hsight)⟩
  | true =>
      have hsome := hsome rfl
      simp only [if_true]
      split
      · rename_i hdir
        refine walks_seq (P := fun m w' => w₁.Same w' ∧ w'.Mapped page grantId m) ?_
          fun m w₂ hw₂ ⟨hs₂, hm⟩ => ?_
        · refine walks_mono (walks_loadMapping hI hw₁) fun o w₂ _ h => ?_
          cases o with
          | ok m => exact ⟨h.1, h.2.1⟩
          | error e => trivial
        refine walks_seq (P := fun gs w' => w₂.Still w' ∧ w'.look.page = page ∧
          w'.look.grantId = grantId ∧ (¬ S.blind → grantsOf w'.look.pages page = gs.getD [])) ?_
          fun gs w₃ hw₃ ⟨hs₃, hp₃, hg₃, hgrants⟩ => ?_
        · refine walks_ask_ok hI hw₂ trivial fun t w₃ hs₃ => ?_
          refine ⟨hs₃.still.trans ⟨rfl, rfl, rfl, rfl⟩, ?_, ?_, fun hsight => ?_⟩
          · show w₃.look.page = page
            rw [hs₃.look, hs₂.look, hp₁]
          · show w₃.look.grantId = grantId
            rw [hs₃.look, hs₂.look, hg₁]
          · rw [Bool.eq_false_iff.mpr (mt t.2 hsight), if_neg Bool.false_ne_true]
            rfl
        have hstill := (hs₁.trans hs₂.still).trans hs₃
        have hm₃ := hs₃.mapped.mpr hm
        cases gs with
        | none =>
            refine walks_pure hw₃
              ⟨hstill, ⟨hp₃, hg₃⟩, nofun, fun _ hsight => .inr ⟨hdir, m, hm₃, ?_⟩⟩
            rw [hgrants hsight]
            exact nofun
        | some grants =>
            refine walks_pure hw₃
              ⟨hstill, ⟨hp₃, hg₃⟩, fun _ => ⟨m, hm₃⟩, fun h hsight => .inr ⟨hdir, m, hm₃, ?_⟩⟩
            rw [hgrants hsight]
            intro a ha
            rw [Bool.eq_false_iff]
            exact List.any_eq_false.mp h a ha
      · exact walks_pure hw₁ ⟨hs₁, ⟨hp₁, hg₁⟩, fun _ => hsome, nofun⟩

/-- What `_live_mapping` says: where it denies, there is no mapping, unless
a test failed. -/
structure Spares (S : Side) (page grantId : String) (w : World) (b : Bool) (w' : World) :
    Prop where
  still : w.Still w'
  mapped : b = true → ∃ m, w'.Mapped page grantId m
  dead : b = false → ¬ S.blind → (∀ m, ¬ w'.Mapped page grantId m) ∧ w'.look.page = page ∧
    w'.look.grantId = grantId

theorem walks_queueUnowned (hI : Stable S I) (hbase : ∀ w, I w → w.Base U)
    {page grantId : String} (hw : I w) :
    Walks S I (queueUnowned cfg page grantId) (OnOk (Spares S page grantId w)) w := by
  unfold queueUnowned
  refine walks_seq (walks_mappingExists hI hw) fun b w₁ hw₁ ⟨hs₁, hp₁, hg₁, hsome, hnone⟩ => ?_
  cases b with
  | false =>
      exact walks_pure hw₁ ⟨hs₁, nofun, fun _ hsight => ⟨hnone rfl hsight, hp₁, hg₁⟩⟩
  | true =>
      obtain ⟨m, hm⟩ := hsome rfl
      refine walks_seq (walks_queueRevocation cfg hI hbase hw₁ fun hnone => absurd hm (hnone m))
        fun _ w₂ hw₂ h => walks_pure hw₂ ?_
      rcases h with ⟨-, hs₂, -⟩ | ⟨hnone, -⟩
      · exact ⟨hs₁.trans hs₂, fun _ => ⟨m, hs₂.mapped.mpr hm⟩, nofun⟩
      · exact absurd hm (hnone m)

theorem walks_liveMapping (hI : Stable S I) (hbase : ∀ w, I w → w.Base U)
    {page grantId : String} (hw : I w) :
    Walks S I (liveMapping cfg page grantId) (OnOk (Spares S page grantId w)) w := by
  unfold liveMapping
  refine walks_seq (walks_gatewayGrantLive cfg hI hw) fun b w₁ hw₁ h => ?_
  cases b with
  | true => exact walks_pure hw₁ ⟨h.still, h.mapped, nofun⟩
  | false =>
      simp only [Bool.false_eq_true, if_false]
      split
      · refine walks_ok (walks_queueUnowned cfg hI hbase hw₁) fun b w₂ _ h₂ => ?_
        exact ⟨h.still.trans h₂.still, h₂.mapped, h₂.dead⟩
      · rename_i hno
        refine walks_pure hw₁ ⟨h.still, nofun, fun _ hsight => ⟨?_, h.about⟩⟩
        exact (h.dead rfl hsight).resolve_right fun hdir => hno hdir.1

/-! ## The queue of revocations -/

/-- What is known when a queued grant is about to be deleted. -/
def Condemned (S : Side) (page grantId : String) (w : World) : Prop :=
  cfg.gatewayGrantsDir = true → ¬ S.blind →
    (w.look.page = page ∧ w.look.grantId = grantId) ∧
      ((∀ m, ¬ w.Mapped page grantId m) ∨ ∃ m, w.Mapped page grantId m ∧
        ∀ a ∈ grantsOf w.look.pages page, a.matches grantId m = false)

theorem walks_stillAuthorized (hI : Stable S I) {page grantId : String} (hw : I w) :
    Walks S I (stillAuthorized cfg page grantId)
      (OnOk fun b w' => b = false → Condemned cfg S page grantId w') w := by
  unfold stillAuthorized
  split
  · refine walks_ok (walks_gatewayGrantLive cfg hI hw) fun b w' _ h hb _ hsight => ⟨h.about, ?_⟩
    exact (h.dead hb hsight).imp_right And.right
  · rename_i hno
    exact walks_pure hw fun _ hdir => absurd hdir hno

/-- What allows the deletions of `drain_revocations`. -/
structure Allows (S : Side) (I : World → Prop) : Prop where
  mapped : ∀ w page grantId m i, I w → Condemned cfg S page grantId w → w.Mapped page grantId m →
    i ∈ w.cloud.created → m.Describes i → i.page = page → i.grantId = grantId → w.MayDelete S i
  owned : ∀ w page grantId, I w → Condemned cfg S page grantId w →
    (∀ m, ¬ w.Mapped page grantId m) → ∀ r ∈ w.registry.resources, r.At page grantId →
      r.phase ≠ .revoked → ∀ c, r.crid = some c → S.resource page grantId c w.look

theorem walks_drainRevocation (hI : Stable S I) (hbase : ∀ w, I w → w.Base U)
    (hS : Allows cfg S I) {r : Revocation} (hw : I w) :
    Walks S I (drainRevocation cfg r) (OnOk fun _ _ => True) w := by
  unfold drainRevocation
  refine walks_seq (walks_stillAuthorized cfg hI hw) fun b w₁ hw₁ hb => ?_
  cases b with
  | true => exact walks_pure hw₁ trivial
  | false =>
      have hdead := hb rfl
      simp only [Bool.false_eq_true, if_false]
      refine walks_attempt (walks_deleteGrant cfg hI hbase hw₁
        (fun m i => hS.mapped w₁ _ _ m i hw₁ hdead) (hS.owned w₁ _ _ hw₁ hdead))
        fun o w₂ hw₂ h₂ => ?_
      cases o with
      | ok b => exact walks_ask_ok hI hw₂ h₂.1 fun _ _ _ => trivial
      | error e =>
          simp only
          split
          · exact walks_ask_ok hI hw₂ trivial fun _ _ _ => trivial
          · exact walks_throw hw₂

theorem walks_drainRevocations (hI : Stable S I) (hbase : ∀ w, I w → w.Base U)
    (hS : Allows cfg S I) (hw : I w) :
    Walks S I (drainRevocations cfg) (OnOk fun _ _ => True) w := by
  unfold drainRevocations
  refine walks_seq (P := fun _ _ => True) (walks_ask_ok hI hw trivial fun _ _ _ => trivial)
    fun rs w₁ hw₁ _ => ?_
  induction rs generalizing w₁ with
  | nil => exact walks_pure hw₁ trivial
  | cons r rs ih =>
      exact walks_seq (walks_drainRevocation cfg hI hbase hS hw₁) fun _ w₂ hw₂ _ => ih w₂ hw₂

/-! ## The journal -/

/-- The same row, but for its schedule. -/
structure Mint.SameRow (m n : Mint) : Prop where
  page : n.page = m.page
  grantId : n.grantId = m.grantId
  resource : n.resource = m.resource
  label : n.label = m.label

theorem Mint.SameRow.refl (m : Mint) : m.SameRow m := ⟨rfl, rfl, rfl, rfl⟩

theorem Mint.SameRow.symm {m n : Mint} (h : m.SameRow n) : n.SameRow m :=
  ⟨h.page.symm, h.grantId.symm, h.resource.symm, h.label.symm⟩

theorem Mint.SameRow.trans {m n o : Mint} (h : m.SameRow n) (h' : n.SameRow o) : m.SameRow o :=
  ⟨h'.page.trans h.page, h'.grantId.trans h.grantId, h'.resource.trans h.resource,
    h'.label.trans h.label⟩

/-- The journal has the row, whatever its schedule. -/
def World.Journaled (w : World) (m : Mint) : Prop := ∃ n ∈ w.mints, m.SameRow n

theorem journaled_postponeMint {m : Mint} (page grantId : String) (delay : Int) (t : Tick)
    (h : w.Journaled m) : ((Op.postponeMint page grantId delay).perform t w).2.Journaled m := by
  obtain ⟨n, hn, hrow⟩ := h
  refine ⟨if n.page = page ∧ n.grantId = grantId then
    { n with due := t.now + second * max 1 delay, attempts := n.attempts + 1 } else n, ?_, ?_⟩
  · simp only [Op.perform, Table.mem_updateWhere, decide_eq_true_eq]
    exact ⟨n, hn, rfl⟩
  · split <;> exact ⟨hrow.page, hrow.grantId, hrow.resource, hrow.label⟩

theorem walks_deleteLabelled (hI : Stable S I) {resource label : String} {is : List Invitation}
    (hw : I w) (hresource : strip resource = resource ∧ resource ≠ "")
    (his : ∀ i ∈ is, i.label = label → i ∈ w.cloud.created ∧ i.resource = resource ∧
      strip i.qurlId = i.qurlId ∧ S.qurl i.resource i.qurlId w) :
    Walks S I (deleteLabelled cfg resource label is) (fun o w' => w.Purges w' ∧
      ∀ u, o = .ok u → ∀ i ∈ is, i.label = label → i ∉ w'.cloud.invitations) w := by
  induction is generalizing w with
  | nil => exact walks_pure hw ⟨(World.Same.refl w).purges, fun _ _ => nofun⟩
  | cons i is ih =>
      unfold deleteLabelled
      have htail : ∀ j ∈ is, j.label = label → j ∈ w.cloud.created ∧ j.resource = resource ∧
          strip j.qurlId = j.qurlId ∧ S.qurl j.resource j.qurlId w :=
        fun j hj => his j (List.mem_cons_of_mem _ hj)
      split
      · rename_i hlabel
        refine walks_mono (ih hw htail) fun o w' _ h => ⟨h.1, fun u hu j hj hjl => ?_⟩
        rcases List.mem_cons.mp hj with rfl | hj
        · exact absurd hjl hlabel
        · exact h.2 u hu j hj hjl
      rename_i hlabel
      rw [ne_eq, not_not] at hlabel
      split
      · exact walks_raise hw ⟨(World.Same.refl w).purges, nofun⟩
      obtain ⟨hi, rfl, hqurl, hS⟩ := his i List.mem_cons_self hlabel
      refine walks_bind (walks_deleteQurl hI hw hi hresource hqurl hS)
        (fun b w₁ hw₁ h₁ => ?_) fun e w₁ _ h₁ => ⟨h₁.1, nofun⟩
      refine walks_mono (ih hw₁ fun j hj hjl => ?_) fun o w₂ _ h₂ =>
        ⟨h₁.1.trans h₂.1, fun u hu j hj hjl => ?_⟩
      · obtain ⟨hjc, hjr, hjq, hjS⟩ := htail j hj hjl
        exact ⟨h₁.1.created ▸ hjc, hjr, hjq, S.qurl_purges _ _ _ _ h₁.1 hjS⟩
      · rcases List.mem_cons.mp hj with rfl | hj
        · exact fun hin => (h₁.2 b rfl).2 _ (h₂.1.invitations _ hin) ⟨rfl, rfl⟩
        · exact h₂.2 u hu j hj hjl

theorem walks_retireMint (hI : Stable S I) (hbase : ∀ w, I w → w.Base U) {m : Mint} (hw : I w)
    (hm : w.Journaled m)
    (hS : ∀ w', w.Same w' → I w' → ∀ i ∈ w'.cloud.invitations, i.resource = m.resource →
      i.label = m.label → S.qurl i.resource i.qurlId w') :
    Walks S I (retireMint cfg m) (fun o w' => w.Purges w' ∧ ∀ u, o = .ok u →
      ∀ i ∈ w'.cloud.invitations, i.resource = m.resource → i.label ≠ m.label) w := by
  obtain ⟨n, hn, hrow⟩ := hm
  have hresource := ((hbase w hw).mint n hn).2.2
  rw [hrow.resource] at hresource
  unfold retireMint
  refine walks_bind (P := fun o w' => w.Same w' ∧ ∀ is, o = .ok is →
    is = w'.cloud.invitations.filter (·.resource = m.resource)) ?_ (fun is w₁ hw₁ h₁ => ?_)
    fun e w₁ _ h₁ => ⟨h₁.1.purges, nofun⟩
  · refine walks_ask hI hw trivial fun t => ?_
    rcases step_cases t.1 (.listQurls m.resource) w with he | he | he <;> rw [he]
    · exact ⟨same_meet t.1 w, nofun⟩
    · exact ⟨same_meet t.1 w, nofun⟩
    · exact ⟨same_meet t.1 w, fun is h => (Except.ok.inj h).symm⟩
  · obtain rfl := h₁.2 is rfl
    refine walks_mono (walks_deleteLabelled cfg hI hw₁ hresource fun i hi hl => ?_)
      fun o w₂ _ h₂ => ⟨h₁.1.purges.trans h₂.1, fun u hu i hi hr hl => ?_⟩
    · obtain ⟨hi, hr⟩ := List.mem_filter.mp hi
      have hr := of_decide_eq_true hr
      have hc := ((hbase w₁ hw₁).listed i hi).1
      exact ⟨hc, hr, ((hbase w₁ hw₁).created i hc).2.2, hS w₁ h₁.1 hw₁ i hi hr hl⟩
    · exact h₂.2 u hu i (List.mem_filter.mpr ⟨h₂.1.invitations i hi, decide_eq_true hr⟩) hl hi

/-- What allows the deletions of `PendingInvitations.drain`. -/
def AllowsMints (S : Side) (I : World → Prop) : Prop :=
  ∀ w m, I w → w.Journaled m →
    (¬ S.blind → (∀ n, ¬ w.Mapped m.page m.grantId n) ∧ w.look.page = m.page ∧
      w.look.grantId = m.grantId) →
    ∀ i ∈ w.cloud.invitations, i.resource = m.resource → i.label = m.label →
      S.qurl i.resource i.qurlId w

theorem walks_completeMint (hI : Stable S I) {m : Mint} {ms : List Mint} (hw : I w)
    (hpre : (Op.completeMint m.page m.grantId).Pre S w)
    (hnd : ((m :: ms).map fun m => (m.page, m.grantId)).Nodup)
    (hms : ∀ n ∈ m :: ms, w.Journaled n) :
    Walks S I (ask (.completeMint m.page m.grantId))
      (OnOk fun _ w' => ∀ n ∈ ms, w'.Journaled n) w := by
  refine walks_ask_ok hI hw hpre fun t w' hs n hn => ?_
  obtain ⟨n', hn', hrow⟩ := hms n (List.mem_cons_of_mem _ hn)
  refine ⟨n', Table.mem_deleteWhere.mpr ⟨hs.mints ▸ hn', ?_⟩, hrow⟩
  rw [decide_eq_false_iff_not, hrow.page, hrow.grantId]
  intro hkey
  rw [List.map_cons, List.nodup_cons] at hnd
  exact hnd.1 (List.mem_map.mpr ⟨n, hn, Prod.ext hkey.1 hkey.2⟩)

theorem walks_drainMints (hI : Stable S I) (hbase : ∀ w, I w → w.Base U) (hS : AllowsMints S I)
    {ms : List Mint} (hw : I w) (hnd : (ms.map fun m => (m.page, m.grantId)).Nodup)
    (hms : ∀ m ∈ ms, w.Journaled m) :
    Walks S I (drainMints cfg (liveMapping cfg) ms) (OnOk fun _ _ => True) w := by
  induction ms generalizing w with
  | nil => exact walks_pure hw trivial
  | cons m ms ih =>
      have hnd' : (ms.map fun m => (m.page, m.grantId)).Nodup := (List.nodup_cons.mp hnd).2
      unfold drainMints
      refine walks_seq (walks_liveMapping cfg hI hbase hw) fun b w₁ hw₁ hb => ?_
      have hms₁ : ∀ n ∈ m :: ms, w₁.Journaled n := by
        unfold World.Journaled
        rw [hb.still.mints]
        exact hms
      obtain ⟨n, hn, hrow⟩ := hms₁ m List.mem_cons_self
      have hre := ((hbase w₁ hw₁).mint n hn).2.1
      rw [hrow.grantId] at hre
      cases b with
      | true =>
          obtain ⟨p, hp⟩ := hb.mapped rfl
          obtain ⟨hpage, hid, -⟩ := (hbase w₁ hw₁).mapped hp hre
          exact walks_seq (walks_completeMint hI hw₁ (.inl ⟨p, hp, hpage, hid⟩) hnd hms₁)
            fun _ w₂ hw₂ h => ih hw₂ hnd' h
      | false =>
          have hallow : ∀ w', w₁.Same w' → I w' → ∀ i ∈ w'.cloud.invitations,
              i.resource = m.resource → i.label = m.label → S.qurl i.resource i.qurlId w' := by
            intro w' hs hw'
            refine hS w' m hw' ⟨n, hs.mints ▸ hn, hrow⟩ fun hsight => ?_
            obtain ⟨hnone, hlook⟩ := hb.dead rfl hsight
            refine ⟨fun p hp => hnone p (hs.still.mapped.mp hp), ?_⟩
            rw [hs.look]
            exact hlook
          refine walks_attempt (walks_retireMint cfg hI hbase hw₁ (hms₁ m List.mem_cons_self) hallow)
            fun o w₂ hw₂ ⟨hpurge, hgone⟩ => ?_
          have hms₂ : ∀ n ∈ m :: ms, w₂.Journaled n := by
            unfold World.Journaled
            rw [hpurge.mints]
            exact hms₁
          split
          · refine walks_seq (walks_completeMint hI hw₂ (.inr fun i hi _ hid hscope => ?_) hnd hms₂)
              fun _ w₃ hw₃ h => ih hw₃ hnd' h
            have hb₂ := hbase w₂ hw₂
            obtain ⟨-, -, hr, hl⟩ := hb₂.journal n (hpurge.mints ▸ hn) i (hb₂.listed i hi).1
              (hid.trans hrow.grantId.symm)
            exact hgone _ rfl i hi (hr.symm.trans hrow.resource) (hl.symm.trans hrow.label)
          · refine walks_seq (P := fun _ w' => ∀ n ∈ ms, w'.Journaled n) ?_
              fun _ w₃ hw₃ h => ih hw₃ hnd' h
            refine walks_ask_ok hI hw₂ trivial fun t w₃ hs₃ n hn => ?_
            refine journaled_postponeMint _ _ _ t.1 ?_
            unfold World.Journaled
            rw [hs₃.mints]
            exact hms₂ n (List.mem_cons_of_mem _ hn)
          · exact walks_throw hw₂

theorem walks_drainInvitations (hI : Stable S I) (hbase : ∀ w, I w → w.Base U)
    (hS : AllowsMints S I) (hw : I w) :
    Walks S I (drainInvitations cfg (liveMapping cfg)) (OnOk fun _ _ => True) w := by
  unfold drainInvitations
  refine walks_seq (P := fun ms w' => (ms.map fun m => (m.page, m.grantId)).Nodup ∧
    ∀ m ∈ ms, w'.Journaled m) ?_ fun ms w₁ hw₁ h => walks_drainMints cfg hI hbase hS hw₁ h.1 h.2
  refine walks_ask_ok hI hw trivial fun t w₁ _ => ⟨?_, fun m hm => ?_⟩
  · exact w₁.mints.nodup.sublist
      (((List.take_sublist _ _).trans List.filter_sublist).map _)
  · exact ⟨m, (List.mem_filter.mp (List.mem_of_mem_take hm)).1, rfl, rfl, rfl, rfl⟩

end Serve

end LayerV

end AccessPages
