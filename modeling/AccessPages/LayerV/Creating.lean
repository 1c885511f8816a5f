import AccessPages.LayerV.Serving
/-!
# LayerV — the walk through `create_grant`

A grant that was never asked for has no invitation, no row of the journal
and no resource of its own. It keeps none of them until `create_grant`
makes them, in the order that leaves each one on record: the row of the
resource, the row of the journal, the invitation, the mapping.
-/

namespace AccessPages

namespace LayerV

open Pages (UpstreamScope grantIdRe)

/-- Whoever creates a grant may undo what it made. -/
structure Side.Open (S : Side) : Prop where
  qurl : ∀ r q w, S.qurl r q w
  resource : ∀ p g c l, S.resource p g c l

/-- What `create_grant` may do for its grant. -/
structure Side.Creates (S : Side) (grantId : String) : Prop extends S.Open where
  reset : ¬ S.reset
  used : S.used grantId
  owner : ∀ c : Cloud, (∀ i ∈ c.created, i.grantId ≠ grantId) → S.owner grantId c

/-- The invitation a client was given for a grant. -/
structure Invitation.Of (i : Invitation) (client : Client) (page grantId : String) : Prop where
  page : i.page = page
  grantId : i.grantId = grantId
  resource : i.resource = client.resourceId
  scope : i.scope = client.resourceScope

/-- What `create_qurl` returns for an invitation. -/
structure QurlResult.For (q : QurlResult) (i : Invitation) : Prop where
  qurlId : q.qurlId = i.qurlId
  resourceCrid : q.resourceCrid = some i.resource
  upstreamScope : q.upstreamScope = some i.scope

theorem savedMapping_describes {q : QurlResult} {i : Invitation} {page grantId resource : String}
    (h : q.For i) (hp : i.page = page) (hg : i.grantId = grantId) :
    (savedMapping page grantId q resource).Describes i where
  pageId := hp.symm
  grantId := hg.symm
  qurlId := h.qurlId
  resourceCrid := by simp only [savedMapping, h.resourceCrid, Option.getD_some]
  upstreamScope := by simp only [savedMapping, h.upstreamScope, Option.getD_some]

section Create

variable {S : Side} {I : World → Prop} {U : String → Prop} {w : World} (cfg : Config)

/-- What is known when an invitation is asked for. -/
structure MintReady (w : World) (client : Client) (page grantId : String)
    (isolation : UpstreamScope) (label : String) : Prop where
  serves : client.For w page grantId isolation
  re : grantIdRe grantId = true
  new : ∀ i ∈ w.cloud.created, i.grantId ≠ grantId
  journal : ∀ m ∈ w.mints, m.grantId = grantId → m.page = page ∧ isolation = .page ∧
    m.resource = client.resourceId ∧ m.label = label
  pool : isolation = .page → (∃ m ∈ w.mints, m.page = page ∧ m.grantId = grantId) ∧
    ∀ r ∈ w.registry.resources, r.grantId ≠ grantId

theorem MintReady.pre {client : Client} {page grantId : String} {isolation : UpstreamScope}
    {wanted : Wanted} (h : MintReady w client page grantId isolation wanted.label)
    (hused : S.used grantId) :
    (Op.mint client.resourceId client.resourceScope page grantId wanted).Pre S w := by
  obtain ⟨r, hr, hat, hc, -⟩ := h.serves.ready
  refine ⟨hused, h.re, h.new, ⟨r, hr, hc, hat.1, ?_⟩, ?_, ?_⟩
  · rw [h.serves.scope, show r.grantId = ownerId grantId isolation from hat.2]
    cases isolation with
    | guest => rfl
    | page => exact grantIdRe_page
  · rw [h.serves.scope]
    exact h.journal
  · rw [h.serves.scope]
    exact h.pool

theorem walks_confirmSettings (hI : Stable S I) {client : Client} {wanted : Wanted}
    {qurlId : String} (hw : I w) :
    Walks S I (confirmSettings client wanted qurlId) (OnOk fun _ _ => True) w := by
  unfold confirmSettings
  split
  · exact walks_pure hw trivial
  · refine walks_seq (P := fun _ _ => True) (walks_ask_ok hI hw trivial fun _ _ _ => trivial)
      fun rows w₁ hw₁ _ => ?_
    split
    · exact walks_pure hw₁ trivial
    · exact walks_throw hw₁

/-- **`create_qurl`.** What it returns is an invitation that exists. -/
theorem walks_createQurl (hI : Stable S I) {client : Client} {page grantId : String}
    {isolation : UpstreamScope} {wanted : Wanted} (hw : I w)
    (h : MintReady w client page grantId isolation wanted.label) (hused : S.used grantId) :
    Walks S I (createQurl client page grantId wanted) (OnOk fun q w' =>
      ∃ i ∈ w'.cloud.created, i.Of client page grantId ∧ q.For i) w := by
  unfold createQurl
  split
  · exact walks_throw hw
  refine walks_seq (P := fun data w' => ∃ i ∈ w'.cloud.created,
    i.Of client page grantId ∧ i.qurlId = data.qurlId) ?_ fun data w₁ hw₁ ⟨i, hi, hof, hq⟩ => ?_
  · refine walks_ask_ok hI hw (h.pre hused) fun t w₁ hs => ?_
    rcases create_cases w₁.cloud t client.resourceId client.resourceScope page grantId wanted with
      he | ⟨-, he⟩
    · simp only [Op.perform, he]
      trivial
    · simp only [Op.perform, Op.apply, he, Option.isSome_some, if_true, Option.getD_some]
      exact ⟨_, List.mem_cons_self, ⟨rfl, rfl, rfl, rfl⟩, rfl⟩
  · refine walks_lift hw₁ fun _ _ => ?_
    refine walks_seq (P := fun _ w' => i ∈ w'.cloud.created) ?_ fun _ w₂ hw₂ hi₂ => ?_
    · refine walks_mono (walks_keep (J := fun w => i ∈ w.cloud.created)
        (walks_confirmSettings hI hw₁) hi fun t e w _ hi _ => created_step t e hi) fun o w' _ h => ?_
      cases o with
      | ok u => exact h.2
      | error e => trivial
    · rw [if_neg h.serves.publicKey]
      refine walks_pure hw₂ ⟨i, hi₂, hof, hq.symm, ?_, ?_⟩
      · rw [hof.resource]
      · rw [hof.scope]

theorem walks_passLayerV {α : Type} {x : BrokerM α} {P : α → World → Prop}
    (h : Walks S I x (OnOk P) w) : Walks S I (passLayerV x) (OnOk fun _ _ => True) w := by
  unfold passLayerV
  refine walks_attempt h fun o w₁ hw₁ _ => ?_
  split
  · exact walks_pure hw₁ trivial
  · exact walks_pure hw₁ trivial
  · exact walks_throw hw₁

theorem walks_mintOrRetire (hI : Stable S I) (hS : S.Open) {isolation : UpstreamScope}
    {r : CreateRequest} {client : Client} (wanted : Wanted) (hw : I w)
    (h : MintReady w client r.pageId r.grantId isolation wanted.label) (hused : S.used r.grantId) :
    Walks S I (mintOrRetire cfg isolation r client wanted) (OnOk fun q w' =>
      ∃ i ∈ w'.cloud.created, i.Of client r.pageId r.grantId ∧ q.For i) w := by
  unfold mintOrRetire
  refine walks_attempt (walks_createQurl hI hw h hused) fun o w₁ hw₁ h₁ => ?_
  split
  · exact walks_pure hw₁ h₁
  · split
    · refine walks_seq (walks_passLayerV (walks_revoke cfg hI hw₁
        fun _ _ _ _ _ => hS.resource _ _ _ _)) fun _ w₂ hw₂ _ => walks_throw hw₂
    · exact walks_throw hw₁
  · exact walks_throw hw₁

theorem walks_compensateQurl (hI : Stable S I) (hbase : ∀ w, I w → w.Base U) (hS : S.Open)
    {client : Client} {q : QurlResult} {i : Invitation} (hw : I w) (hi : i ∈ w.cloud.created)
    (hq : q.For i) : Walks S I (compensateQurl client q) (OnOk fun _ _ => True) w := by
  have hre := (hbase w hw).resource_re hi
  unfold compensateQurl
  split
  · exact walks_pure hw trivial
  · simp only [hq.resourceCrid, Option.getD_some, if_neg (crid_ne_empty hre), hq.qurlId]
    refine walks_passLayerV (P := fun _ _ => True) (walks_mono (walks_deleteQurl hI hw hi
      ⟨strip_crid hre, crid_ne_empty hre⟩ ((hbase w hw).created i hi).2.2 (hS.qurl _ _ _))
      fun o w' _ _ => ?_)
    cases o <;> trivial

theorem walks_compensateResource (hI : Stable S I) (hS : S.Open) {r : CreateRequest}
    {client : Client} {q : QurlResult} (hw : I w) :
    Walks S I (compensateResource cfg r client q) (OnOk fun _ _ => True) w := by
  unfold compensateResource
  split
  · exact walks_passLayerV (walks_revoke cfg hI hw fun _ _ _ _ _ => hS.resource _ _ _ _)
  · exact walks_pure hw trivial

theorem walks_saveMapping (hI : Stable S I) {page grantId resource : String} {q : QurlResult}
    {i : Invitation} (hw : I w) (hi : i ∈ w.cloud.created)
    (hd : (savedMapping page grantId q resource).Describes i) (hused : S.used grantId) :
    Walks S I (saveMapping page grantId q resource) (fun o w' => i ∈ w'.cloud.created ∧
      ∀ u, o = .ok u → w'.Mapped page grantId (savedMapping page grantId q resource)) w := by
  unfold saveMapping
  simp only
  split
  · exact walks_raise hw ⟨hi, nofun⟩
  refine walks_bind (P := fun o w' => i ∈ w'.cloud.created ∧ ∀ u, o = .ok u →
    w'.Mapped page grantId (savedMapping page grantId q resource)) ?_ (fun u w₁ hw₁ h₁ => ?_)
    fun e w₁ _ h₁ => ⟨h₁.1, nofun⟩
  · refine walks_ask hI hw ⟨hused, i, hi, hd⟩ fun t => ⟨created_step t.1 _ hi, ?_⟩
    rcases step_cases t.1 (.writeMapping (savedMapping page grantId q resource)) w with
      he | he | he <;> rw [he]
    · exact nofun
    · exact nofun
    · exact fun u _ => Table.mem_insertOrReplace.mpr (.inr rfl)
  · refine walks_ask hI hw₁ trivial fun t => ⟨created_step t.1 _ h₁.1, fun u hu => ?_⟩
    have hs := same_meet t.1 w₁
    have hm := h₁.2 () rfl
    rcases step_cases t.1 .syncData w₁ with he | he | he <;> rw [he]
    all_goals exact hs.still.mapped.mpr hm

theorem walks_saveOrCompensate (hI : Stable S I) (hbase : ∀ w, I w → w.Base U) (hS : S.Open)
    {r : CreateRequest} {client : Client} {q : QurlResult} {i : Invitation} (hw : I w)
    (hi : i ∈ w.cloud.created) (hof : i.Of client r.pageId r.grantId) (hq : q.For i)
    (hused : S.used r.grantId) :
    Walks S I (saveOrCompensate cfg r client q) (OnOk fun _ w' => i ∈ w'.cloud.created ∧
      ∃ m, w'.Mapped r.pageId r.grantId m) w := by
  have hcompensate : ∀ e w', I w' → i ∈ w'.cloud.created →
      Walks S I (saveOrCompensate.compensate cfg r client q e) (OnOk fun _ w' =>
        i ∈ w'.cloud.created ∧ ∃ m, w'.Mapped r.pageId r.grantId m) w' := by
    intro e w' hw' hi'
    unfold saveOrCompensate.compensate
    refine walks_seq (walks_compensateQurl hI hbase hS hw' hi' hq) fun _ w₂ hw₂ _ => ?_
    exact walks_seq (walks_compensateResource cfg hI hS hw₂) fun _ w₃ hw₃ _ => walks_throw hw₃
  unfold saveOrCompensate
  refine walks_attempt (walks_saveMapping hI hw hi
    (savedMapping_describes hq hof.page hof.grantId) hused) fun o w₁ hw₁ ⟨hi₁, hm⟩ => ?_
  cases o with
  | ok u => exact walks_pure hw₁ ⟨hi₁, _, hm u rfl⟩
  | error e =>
      simp only
      split
      · exact hcompensate _ w₁ hw₁ hi₁
      · exact hcompensate _ w₁ hw₁ hi₁
      · exact walks_throw hw₁

/-- There is nothing of a grant that was never asked for. -/
def World.Untouched (w : World) (grantId : String) : Prop :=
  w.Unseen grantId ∧
    (grantIdRe grantId = true → ∀ r ∈ w.registry.resources, r.grantId ≠ grantId)

theorem World.Still.untouched {w' : World} {grantId : String} (hs : w.Still w')
    (h : w.Untouched grantId) : w'.Untouched grantId := by
  unfold World.Untouched World.Unseen
  rw [hs.cloud, hs.mints, hs.registry]
  exact h

theorem walks_newClient (hI : Stable S I) {page grantId target : String}
    {isolation : UpstreamScope} (hS : S.Creates grantId) (hw : I w) (h : w.Untouched grantId) :
    Walks S I (ensure cfg page grantId target isolation) (OnOk fun c w' =>
      c.For w' page grantId isolation ∧ grantIdRe grantId = true ∧ w'.Unseen grantId ∧
        (isolation = .page → ∀ r ∈ w'.registry.resources, r.grantId ≠ grantId)) w := by
  cases isolation with
  | guest =>
      refine walks_le (walks_mono (walks_keep (J := fun w => w.Unseen grantId)
        (walks_ensure cfg (hI.le S.quiet_le) hw fun _ _ => hS.owner _ h.1.1) h.1
        fun t e w _ h hpre => unseen_step (fun _ h => h) t e hpre h) fun o w' _ h => ?_) S.quiet_le
      cases o with
      | ok c => exact ⟨h.1.1, h.1.2.2, h.2, nofun⟩
      | error e => trivial
  | page =>
      by_cases hre : grantIdRe grantId = true
      · refine walks_le (walks_mono (walks_keep (J := fun w => w.Untouched grantId)
          (walks_ensure cfg (hI.le S.still_le) hw nofun) h
          fun t e w hw h hpre => ⟨unseen_step (fun _ h => h) t e hpre h.1,
            fun hre => unnamed_step (S := S.still) (fun _ _ h => h) hS.reset hre t e
              (hI.registry w hw) hpre (h.2 hre)⟩)
          fun o w' _ h => ?_) S.still_le
        cases o with
        | ok c => exact ⟨h.1.1, h.1.2.2, h.2.1, fun _ => h.2.2 hre⟩
        | error e => trivial
      · refine walks_ok (walks_ensure cfg hI hw nofun) fun c w' _ h => ?_
        exact absurd h.2.2 hre

theorem walks_upstreamLabel (hI : Stable S I) {isolation : UpstreamScope} {r : CreateRequest}
    {client : Client} (hw : I w) (hc : client.For w r.pageId r.grantId isolation)
    (hre : grantIdRe r.grantId = true) (hunseen : w.Unseen r.grantId)
    (hnamed : isolation = .page → ∀ s ∈ w.registry.resources, s.grantId ≠ r.grantId)
    (hused : S.used r.grantId) :
    Walks S I (upstreamLabel cfg isolation r client) (OnOk fun label w' =>
      MintReady w' client r.pageId r.grantId isolation label) w := by
  cases isolation with
  | guest =>
      exact walks_pure hw ⟨hc, hre, hunseen.1, fun m hm hid => absurd hid (hunseen.2 m hm), nofun⟩
  | page =>
      unfold upstreamLabel prepareMint
      refine walks_seq (P := fun _ w' => MintReady w' client r.pageId r.grantId .page
        (mintLabel cfg r.pageId r.grantId client.resourceId)) ?_ fun _ w₁ hw₁ h => walks_pure hw₁ h
      refine walks_ask_ok hI hw ⟨hused, hre, strip_crid hc.crid, crid_ne_empty hc.crid,
        hunseen.1, hunseen.2⟩ fun t w₁ hs => ?_
      have hfree : ∀ m ∈ w₁.mints, m.grantId ≠ r.grantId := by
        rw [hs.mints]
        exact hunseen.2
      refine ⟨⟨?_, hc.crid, hc.publicKey, hc.scope⟩, hre, ?_, fun m hm hid => ?_, fun _ => ⟨?_, ?_⟩⟩
      · show w₁.Ready _ _ _
        unfold World.Ready
        rw [hs.registry]
        exact hc.ready
      · show ∀ i ∈ w₁.cloud.created, _
        rw [hs.cloud]
        exact hunseen.1
      · rcases Table.mem_insertOrIgnore.mp hm with hm | ⟨rfl, -⟩
        · exact absurd hid (hfree m hm)
        · exact ⟨rfl, rfl, rfl, rfl⟩
      · obtain ⟨m, hm, hk⟩ := Table.exists_key_insertOrIgnore (t := w₁.mints)
          (r := ⟨r.pageId, r.grantId, client.resourceId,
            mintLabel cfg r.pageId r.grantId client.resourceId, t.1.now, t.1.now + 300 * second, 0⟩)
        exact ⟨m, hm, (Prod.mk.inj hk).1, (Prod.mk.inj hk).2⟩
      · show ∀ s ∈ w₁.registry.resources, _
        rw [hs.registry]
        exact hnamed rfl

/-- What a grant that was created is known by. -/
def Granted (r : CreateRequest) (q : QurlResult) (w : World) : Prop :=
  ∃ i ∈ w.cloud.created, i.page = r.pageId ∧ i.grantId = r.grantId ∧ q.For i ∧
    ∃ m, w.Mapped r.pageId r.grantId m

theorem walks_createLocked (hI : Stable S I) (hbase : ∀ w, I w → w.Base U)
    {isolation : UpstreamScope} {r : CreateRequest} {wanted : Wanted} (hS : S.Creates r.grantId)
    (hw : I w) (h : w.Untouched r.grantId) :
    Walks S I (createLocked cfg isolation r wanted) (OnOk (Granted r)) w := by
  unfold createLocked
  refine walks_seq (walks_mappingExists hI hw) fun b w₁ hw₁ ⟨hs₁, _⟩ => ?_
  cases b with
  | true => exact walks_throw hw₁
  | false =>
      simp only [Bool.false_eq_true, if_false]
      refine walks_seq (P := fun _ w' => w'.Untouched r.grantId) ?_ fun target w₂ hw₂ h₂ => ?_
      · unfold pageTarget
        refine walks_seq (P := fun _ w' => w'.Untouched r.grantId) ?_ fun ip w₂ hw₂ h₂ => ?_
        · exact walks_ask_ok hI hw₁ trivial fun t w₂ hs => (hs₁.trans hs.still).untouched h
        · split
          · exact walks_throw hw₂
          · split
            · exact walks_pure hw₂ h₂
            · exact walks_throw hw₂
      refine walks_seq (walks_newClient cfg hI hS hw₂ h₂)
        fun client w₃ hw₃ ⟨hc, hre, hunseen, hnamed⟩ => ?_
      refine walks_seq (walks_upstreamLabel cfg hI hw₃ hc hre hunseen hnamed hS.used)
        fun label w₄ hw₄ hready => ?_
      refine walks_seq (walks_mintOrRetire cfg hI hS.toOpen { wanted with label } hw₄
        hready hS.used) fun q w₅ hw₅ ⟨i, hi, hof, hq⟩ => ?_
      generalize (if q.resourceId = "" then client.resourceId else q.resourceId) = returned
      split
      · exact walks_throw hw₅
      · refine walks_seq (walks_saveOrCompensate cfg hI hbase hS.toOpen hw₅ hi hof hq hS.used)
          fun _ w₆ hw₆ h₆ => walks_pure hw₆ ⟨i, h₆.1, hof.page, hof.grantId, hq, h₆.2⟩

/-- **`create_grant`.** -/
theorem walks_createGrant (hI : Stable S I) (hbase : ∀ w, I w → w.Base U)
    {isolation : UpstreamScope} {r : CreateRequest} (hS : S.Creates r.grantId) (hw : I w)
    (h : w.Untouched r.grantId) :
    Walks S I (createGrant cfg isolation r) (OnOk (Granted r)) w := by
  unfold createGrant
  refine walks_seq (P := fun _ w' => w'.Untouched r.grantId) ?_ fun _ w₁ hw₁ h₁ => ?_
  · unfold requirePage
    refine walks_attempt (P := fun _ w' => w'.Untouched r.grantId) ?_ fun o w₁ hw₁ h₁ => ?_
    · refine walks_ask hI hw trivial fun t => ?_
      have h := (same_meet t.1 w).still.untouched h
      rcases step_cases t.1 (.loadPolicy r.pageId) w with he | he | he <;> rw [he]
      · exact h
      · exact h
      · exact h
    · split
      · exact walks_pure hw₁ h₁
      · exact walks_throw hw₁
      · exact walks_throw hw₁
      · exact walks_throw hw₁
  · exact walks_lift hw₁ fun wanted _ => walks_createLocked cfg hI hbase hS hw₁ h₁

end Create

end LayerV

end AccessPages
