import AccessPages.LayerV.Ownership
/-!
# LayerV — the reconciliation spares what is authorized

What `create_grant` returned is in the mapping of its grant until what it
gave access to is gone (`World.Issues`), and the gateway holds nothing
else. So a pass that finds no mapping may delete, and one that finds a
mapping no grant of the gateway answers to may delete what it names.
-/

namespace AccessPages

namespace LayerV

open Pages (UpstreamScope grantIdRe)

/-! ## What the gateway was sent -/

/-- What `create_grant` returned for an invitation. -/
structure Issued.For (j : Issued) (i : Invitation) : Prop where
  pageId : j.pageId = i.page
  grantId : j.grantId = i.grantId
  qurlId : j.qurlId = i.qurlId
  resourceCrid : j.resourceCrid = i.resource
  upstreamScope : j.upstreamScope = i.scope

/-- The grant was sent by the broker. -/
def Gateway.Sent (g : Gateway) (page : String) (a : GatewayGrant) : Prop :=
  ∃ j ∈ g.issued, j.pageId = page ∧ j.stored = a

/-- **What the gateway was sent is on file, or gone.** -/
structure World.Issues (w : World) : Prop where
  issued : ∀ j ∈ w.gateway.issued, ∃ i ∈ w.cloud.created, j.For i ∧ (w.Filed i ∨ w.Retired i)
  pages : ∀ p, ∀ a ∈ grantsOf w.gateway.pages p, w.gateway.Sent p a
  look : ∀ p, ∀ a ∈ grantsOf w.look.pages p, w.gateway.Sent p a

theorem mem_grantsOf {pages : List (String × List GatewayGrant)} {page : String}
    {a : GatewayGrant} (h : a ∈ grantsOf pages page) : ∃ gs, (page, gs) ∈ pages ∧ a ∈ gs := by
  unfold grantsOf at h
  cases hf : pages.find? (·.1 = page) with
  | none =>
      rw [hf] at h
      exact absurd h List.not_mem_nil
  | some p =>
      rw [hf] at h
      have hp : p.1 = page := by simpa using List.find?_some hf
      exact ⟨p.2, hp ▸ List.mem_of_find?_eq_some hf, h⟩

section Issues

variable {U : String → Prop} {S : Side} {w : World}

theorem Gateway.acknowledge_issued (g : Gateway) (page grantId : String) :
    (g.acknowledge page grantId).issued = g.issued ∧
      (g.acknowledge page grantId).pages = g.pages := by
  unfold Gateway.acknowledge
  split <;> exact ⟨rfl, rfl⟩

theorem Gateway.turn_issued (g : Gateway) (t : Pages.Tick) :
    (g.turn t).issued = g.issued ∧ (g.turn t).pages = g.pages := by
  unfold Gateway.turn
  split <;> exact ⟨rfl, rfl⟩

/-- The records and what was sent are as they were. -/
theorem World.Issues.congr {w' : World} (h : w.Issues) (hs : w.Still w')
    (hissued : w'.gateway.issued = w.gateway.issued)
    (hpages : ∀ p, ∀ a ∈ grantsOf w'.gateway.pages p, w.gateway.Sent p a)
    (hlook : ∀ p, ∀ a ∈ grantsOf w'.look.pages p, w.gateway.Sent p a) : w'.Issues := by
  have hsent : ∀ {p a}, w.gateway.Sent p a → w'.gateway.Sent p a := by
    unfold Gateway.Sent
    rw [hissued]
    exact id
  refine ⟨fun j hj => ?_, fun p a ha => hsent (hpages p a ha), fun p a ha => hsent (hlook p a ha)⟩
  obtain ⟨i, hi, hfor, hstate⟩ := h.issued j (hissued ▸ hj)
  refine ⟨i, hs.cloud ▸ hi, hfor, ?_⟩
  simpa only [World.Filed, World.Retired, World.Mapped, hs.registry, hs.mappings, hs.cloud]
    using hstate

theorem World.Issues.meanwhile (h : w.Issues) (m : Meanwhile) : (m.apply w).Issues := by
  have hs := same_apply w m
  refine h.congr hs.still ?_ ?_ (by rw [hs.look]; exact h.look)
  · cases m with
    | queue page grantId due =>
        simp only [Meanwhile.apply]
        split
        · exact (Gateway.acknowledge_issued _ _ _).1
        · rfl
    | gateway pages =>
        simp only [Meanwhile.apply]
        split <;> rfl
    | owe grant now =>
        simp only [Meanwhile.apply]
        split <;> rfl
    | turn t => exact (Gateway.turn_issued _ _).1
    | _ => rfl
  · cases m with
    | queue page grantId due =>
        simp only [Meanwhile.apply]
        split
        · rw [(Gateway.acknowledge_issued _ _ _).2]
          exact h.pages
        · exact h.pages
    | gateway pages =>
        simp only [Meanwhile.apply]
        split
        · rename_i hmay
          intro p a ha
          obtain ⟨gs, hgs, ha⟩ := mem_grantsOf ha
          have hmay := List.all_eq_true.mp (List.all_eq_true.mp hmay (p, gs) hgs) a ha
          rw [Bool.or_eq_true, decide_eq_true_eq, List.any_eq_true] at hmay
          rcases hmay with hold | ⟨j, hj, hja⟩
          · exact h.pages p a hold
          · exact ⟨j, hj, of_decide_eq_true hja⟩
        · exact h.pages
    | owe grant now =>
        simp only [Meanwhile.apply]
        split <;> exact h.pages
    | turn t =>
        show ∀ p, ∀ a ∈ grantsOf (w.gateway.turn t).pages p, _
        rw [(Gateway.turn_issued _ _).2]
        exact h.pages
    | _ => exact h.pages

/-! ## Retired for good -/

theorem deletedQurls_step (t : Tick) (e : Op) {p : String × String}
    (h : p ∈ w.cloud.deletedQurls) : p ∈ (Op.step t e w).2.cloud.deletedQurls := by
  have h : p ∈ (t.meet w).cloud.deletedQurls := by rwa [(same_meet t w).cloud]
  have happly : p ∈ (e.apply t (t.meet w)).cloud.deletedQurls := by
    cases e with
    | mint crid scope page grantId wanted =>
        rcases create_cases (t.meet w).cloud t crid scope page grantId wanted with he | ⟨-, he⟩ <;>
          simp only [Op.apply, he, Option.getD_none, Option.getD_some] <;> exact h
    | _ => exact h
  rcases step_cases t e w with he | he | he <;> rw [he]
  · exact h
  · exact happly
  · cases e with
    | mint crid scope page grantId wanted => exact happly
    | deleteQurl resource qurlId => exact List.mem_cons_of_mem _ h
    | _ => exact h

theorem World.Base.grantId_ne_page (hb : w.Base U) {i : Invitation} (hi : i ∈ w.cloud.created) :
    i.grantId ≠ "__page__" := by
  intro h
  have hre := (hb.created i hi).2.1
  rw [h, grantIdRe_page] at hre
  cases hre

/-- What is gone stays gone. -/
theorem retired_step (t : Tick) (e : Op) (hb : w.Base U) {i : Invitation}
    (hi : i ∈ w.cloud.created) (hpre : e.Pre S w) (h : w.Retired i) :
    (Op.step t e w).2.Retired i := by
  unfold World.Retired at h ⊢
  cases hscope : i.scope with
  | guest =>
      rw [hscope] at h
      exact revoked_step (hb.grantId_ne_page hi) t e hb.registry hpre h
  | page =>
      rw [hscope] at h
      exact deletedQurls_step t e h

/-- A mapping stays, or what it names is gone. -/
theorem filed_step (t : Tick) (e : Op) (hb : w.Base U) {i : Invitation}
    (hi : i ∈ w.cloud.created) (hpre : e.Pre S w) (h : w.Filed i) :
    (Op.step t e w).2.Filed i ∨ (Op.step t e w).2.Retired i := by
  by_cases hretired : w.Retired i
  · exact .inr (retired_step t e hb hi hpre hretired)
  refine .inl ?_
  have hs := same_meet t w
  have hfiled : (t.meet w).Filed i := by
    simpa only [World.Filed, hs.still.mapped] using h
  rcases step_cases t e w with he | he | he <;> rw [he]
  · exact hfiled
  · cases e <;> exact hfiled
  · cases e with
    | writeMapping m =>
        exact (hb.same hs).filed_write t (hpre.same hs).2 (hs.cloud ▸ hi) hfiled
    | unlinkMapping page grantId =>
        obtain ⟨m, hm, hd⟩ := h
        refine ⟨m, Table.mem_deleteWhere.mpr ⟨hs.mappings ▸ hm, decide_eq_false fun hpath => ?_⟩, hd⟩
        refine hretired (hpre m ?_ i hi hd)
        rw [World.Mapped, ← hpath]
        exact hm
    | _ => exact hfiled

theorem World.Issues.perform (h : w.Issues) (t : Tick) (e : Op) :
    ((e.perform t w).2.gateway.issued = w.gateway.issued ∧
      (e.perform t w).2.gateway.pages = w.gateway.pages) ∧
    ∀ p, ∀ a ∈ grantsOf (e.perform t w).2.look.pages p, w.gateway.Sent p a := by
  cases e with
  | mappingExists page grantId => exact ⟨⟨rfl, rfl⟩, h.pages⟩
  | loadPolicy page => exact ⟨⟨rfl, rfl⟩, h.pages⟩
  | loadGateway page => exact ⟨⟨rfl, rfl⟩, h.pages⟩
  | _ => exact ⟨⟨rfl, rfl⟩, h.look⟩

theorem gateway_apply (t : Tick) (e : Op) (w : World) :
    (e.apply t w).gateway = w.gateway ∧ (e.apply t w).look = w.look := by
  cases e <;> exact ⟨rfl, rfl⟩

/-- **One question keeps what was sent on file.** -/
theorem issues_step (t : Tick) (e : Op) (hb : w.Base U) (h : w.Issues) (hpre : e.Pre S w) :
    (Op.step t e w).2.Issues := by
  have hmeet : (t.meet w).Issues := meet_induction (fun _ m h => h.meanwhile m) t h
  have hgateway : (Op.step t e w).2.gateway.issued = (t.meet w).gateway.issued ∧
      (∀ p, ∀ a ∈ grantsOf (Op.step t e w).2.gateway.pages p, (t.meet w).gateway.Sent p a) ∧
      ∀ p, ∀ a ∈ grantsOf (Op.step t e w).2.look.pages p, (t.meet w).gateway.Sent p a := by
    rcases step_cases t e w with he | he | he <;> rw [he]
    · exact ⟨rfl, hmeet.pages, hmeet.look⟩
    · rw [(gateway_apply t e _).1, (gateway_apply t e _).2]
      exact ⟨rfl, hmeet.pages, hmeet.look⟩
    · obtain ⟨⟨hi, hp⟩, hl⟩ := hmeet.perform t e
      exact ⟨hi, by rw [hp]; exact hmeet.pages, hl⟩
  obtain ⟨hissued, hpages, hlook⟩ := hgateway
  have hsent : ∀ {p a}, (t.meet w).gateway.Sent p a → (Op.step t e w).2.gateway.Sent p a := by
    unfold Gateway.Sent
    rw [hissued]
    exact id
  refine ⟨fun j hj => ?_, fun p a ha => hsent (hpages p a ha), fun p a ha => hsent (hlook p a ha)⟩
  obtain ⟨i, hi, hfor, hstate⟩ := hmeet.issued j (hissued ▸ hj)
  have hs := same_meet t w
  have hi : i ∈ w.cloud.created := hs.cloud ▸ hi
  refine ⟨i, created_step t e hi, hfor, ?_⟩
  have hstate : w.Filed i ∨ w.Retired i := by
    simpa only [World.Filed, World.Retired, World.Mapped, hs.registry, hs.mappings, hs.cloud]
      using hstate
  rcases hstate with hfiled | hretired
  · exact filed_step t e hb hi hpre hfiled
  · exact .inr (retired_step t e hb hi hpre hretired)

/-- A reply hands out what is on file. -/
theorem issues_reply (r : Request) (a : Except Failure Reply) (hb : w.Base U) (h : w.Issues)
    (hd : r.Delivers a w) : (r.reply a w).Issues := by
  have hack : ∀ page grantId, World.Issues { w with gateway := w.gateway.acknowledge page grantId } := by
    intro page grantId
    obtain ⟨hissued, hpages⟩ := Gateway.acknowledge_issued w.gateway page grantId
    refine h.congr ⟨rfl, rfl, rfl, rfl⟩ hissued ?_ h.look
    show ∀ p, ∀ a ∈ grantsOf (w.gateway.acknowledge page grantId).pages p, _
    rw [hpages]
    exact h.pages
  unfold Request.reply
  split
  · rename_i isolation req q
    obtain ⟨i, hi, hp, hg, hq, m, hm⟩ := hd
    have hfor : (issuedOf req q).For i := by
      refine ⟨hp.symm, hg.symm, hq.qurlId, ?_, ?_⟩
      · simp only [issuedOf, hq.resourceCrid, Option.getD_some]
      · simp only [issuedOf, hq.upstreamScope, Option.getD_some]
    rw [← hp, ← hg] at hm
    refine ⟨fun j hj => ?_, fun p a ha => ?_, fun p a ha => ?_⟩
    · rcases List.mem_cons.mp hj with rfl | hj
      · exact ⟨i, hi, hfor, .inl ⟨m, hm, hb.describes hm hi⟩⟩
      · exact h.issued j hj
    · obtain ⟨j, hj, hja⟩ := h.pages p a ha
      exact ⟨j, List.mem_cons_of_mem _ hj, hja⟩
    · obtain ⟨j, hj, hja⟩ := h.look p a ha
      exact ⟨j, List.mem_cons_of_mem _ hj, hja⟩
  · exact hack _ _
  · exact hack _ _
  · exact h

end Issues

/-! ## What a pass knows -/

/-- The gateway held no grant under that identifier with that resource. -/
def Look.Free (l : Look) (crid : String) : Prop :=
  ∀ a ∈ grantsOf l.pages l.page, ¬(a.id = l.grantId ∧ a.resourceCrid = crid)

/-- Nor one with that resource and qURL. -/
def Look.FreeQurl (l : Look) (resource qurlId : String) : Prop :=
  ∀ a ∈ grantsOf l.pages l.page,
    ¬(a.id = l.grantId ∧ a.qurlId = qurlId ∧ a.resourceCrid = resource)

/-- The qURL is the one the mapping of the grant names, or one the journal
has for it. -/
def World.Names (w : World) (page grantId resource qurlId : String) : Prop :=
  (∃ m, w.Mapped page grantId m ∧ m.resource = resource ∧ m.qurlId = qurlId) ∨
  ∃ m ∈ w.mints, m.page = page ∧ m.grantId = grantId ∧ m.resource = resource ∧
    ∃ i ∈ w.cloud.created, i.resource = resource ∧ i.qurlId = qurlId ∧ i.label = m.label

theorem World.Purges.names {w w' : World} (h : w.Purges w') {page grantId resource qurlId : String}
    (hn : w.Names page grantId resource qurlId) : w'.Names page grantId resource qurlId := by
  unfold World.Names World.Mapped at hn ⊢
  rwa [h.mappings, h.mints, h.created]

/-- The knowledge of the passes that look at the gateway. -/
def passSide : Side where
  reset := False
  blind := False
  used _ := False
  owner _ _ := False
  qurl resource qurlId w :=
    w.Names w.look.page w.look.grantId resource qurlId ∧ w.look.FreeQurl resource qurlId
  resource page grantId crid l := (l.page = page ∧ l.grantId = grantId) ∧ l.Free crid
  qurl_purges _ _ _ _ hp h := ⟨hp.look ▸ hp.names h.1, hp.look ▸ h.2⟩

/-- The knowledge of the pass that looks at the policy store. -/
def poolSide : Side where
  reset := False
  blind := False
  used _ := False
  owner _ _ := False
  qurl _ _ _ := False
  resource page grantId _ l := grantId = "__page__" ∧ l.page = page ∧ page ∉ l.policy
  qurl_purges _ _ _ _ _ h := h

section Passes

variable {U : String → Prop} {w : World} {cfg : Config}

theorem knows_pass (U : String → Prop) : passSide.Knows U :=
  ⟨id, fun _ => False.elim, fun _ _ => False.elim⟩

theorem knows_pool (U : String → Prop) : poolSide.Knows U :=
  ⟨id, fun _ => False.elim, fun _ _ => False.elim⟩

/-- The records, and what was sent. -/
def World.Ledger (U : String → Prop) (w : World) : Prop := w.Base U ∧ w.Issues

theorem stable_ledger {S : Side} (hS : S.Knows U) : Stable S (World.Ledger U) :=
  ⟨fun _ h => h.1.registry, fun t e w h hpre =>
    ⟨(stable_base hS).step t e w h.1 hpre, issues_step t e h.1 h.2 hpre⟩⟩

/-- A grant the gateway held is that of an invitation. -/
theorem World.Ledger.held (h : w.Ledger U) {page : String} {a : GatewayGrant}
    (ha : a ∈ grantsOf w.look.pages page) :
    ∃ i ∈ w.cloud.created, i.page = page ∧ i.grantId = a.id ∧ i.qurlId = a.qurlId ∧
      i.resource = a.resourceCrid ∧ (w.Filed i ∨ w.Retired i) := by
  obtain ⟨j, hj, rfl, rfl⟩ := h.2.look page a ha
  obtain ⟨i, hi, hfor, hstate⟩ := h.2.issued j hj
  exact ⟨i, hi, hfor.pageId.symm, hfor.grantId.symm, hfor.qurlId.symm, hfor.resourceCrid.symm,
    hstate⟩

/-- **Without a mapping there is no grant** for a row that is not revoked. -/
theorem World.Ledger.unmapped (h : w.Ledger U)
    (hnone : ∀ m, ¬ w.Mapped w.look.page w.look.grantId m) {r : Resource}
    (hr : r ∈ w.registry.resources) (hat : r.At w.look.page w.look.grantId)
    (hphase : r.phase ≠ .revoked) (crid : String) : w.look.Free crid := by
  rintro a ha ⟨hid, -⟩
  obtain ⟨i, hi, hp, hg, -, -, hstate⟩ := h.held ha
  rcases hstate with ⟨m, hm, -⟩ | hretired
  · rw [hp, hg, hid] at hm
    exact hnone m hm
  · unfold World.Retired at hretired
    cases hscope : i.scope with
    | guest =>
        rw [hscope] at hretired
        obtain ⟨s, hs, hsat, -, hsp⟩ := hretired
        rw [hp, hg, hid] at hsat
        exact hphase ((Resource.At.unique hr hs hat hsat) ▸ hsp)
    | page => exact h.1.pool i hi hscope r hr (hat.2.trans (hg.trans hid).symm)

/-- **A grant that answers to the mapping is a match.** -/
theorem World.Ledger.unmatched (h : w.Ledger U) {m : Mapping} {i : Invitation}
    (hi : i ∈ w.cloud.created) (hd : m.Describes i) (hg : i.grantId = w.look.grantId)
    (hmatch : ∀ a ∈ grantsOf w.look.pages w.look.page,
      GatewayGrant.matches w.look.grantId m a = false) : w.look.Free i.resource := by
  rintro a ha ⟨hid, hc⟩
  obtain ⟨k, hk, -, hkg, hkq, -⟩ := h.held ha
  obtain rfl := h.1.grant_unique k hk i hi (hkg.trans (hid.trans hg.symm))
  have hm := hmatch a ha
  simp only [GatewayGrant.matches, decide_eq_false_iff_not] at hm
  exact hm ⟨hid, hkq.symm.trans hd.qurlId.symm, hc ▸ hd.resourceCrid.symm⟩

theorem allows_pass (hdir : cfg.gatewayGrantsDir = true) :
    Allows cfg passSide (World.Ledger U) := by
  refine ⟨fun w page grantId m i hw hdead hm hi hd hp hg => ?_,
    fun w page grantId hw hdead hnone r hr hat hphase c hc => ?_⟩
  · obtain ⟨hlook, hcase⟩ := hdead hdir id
    obtain rfl := hlook.1
    obtain rfl := hlook.2
    rcases hcase with hnone | ⟨m', hm', hmatch⟩
    · exact absurd hm (hnone m)
    -- the file holds one mapping
    obtain rfl : m' = m := congrArg Prod.snd (Table.eq_of_key_eq hm' hm rfl)
    have hfree := hw.unmatched hi hd hg hmatch
    unfold World.MayDelete
    split
    · exact ⟨⟨hp.symm, hg.symm⟩, hfree⟩
    · refine ⟨.inl ⟨m', hm, ?_, hd.qurlId⟩, fun a ha h => hfree a ha ⟨h.1, h.2.2⟩⟩
      unfold Mapping.resource
      rw [hd.resourceCrid, Option.getD_some, if_neg (crid_ne_empty (hw.1.resource_re hi))]
  · obtain ⟨hlook, -⟩ := hdead hdir id
    obtain rfl := hlook.1
    obtain rfl := hlook.2
    exact ⟨⟨rfl, rfl⟩, hw.unmapped hnone hr hat hphase c⟩

theorem allowsMints_pass : AllowsMints passSide (World.Ledger U) := by
  rintro w m hw ⟨n, hn, hrow⟩ hdead i hi hr hl
  obtain ⟨hnone, hp, hg⟩ := hdead id
  have hc := (hw.1.listed i hi).1
  refine ⟨.inr ⟨n, hn, hrow.page.trans hp.symm, hrow.grantId.trans hg.symm,
    hrow.resource.trans hr.symm, i, hc, rfl, rfl, hl.trans hrow.label.symm⟩, ?_⟩
  rintro a ha ⟨hid, hq, hcrid⟩
  obtain ⟨k, hk, hkp, hkg, hkq, hkr, hstate⟩ := hw.held ha
  obtain rfl := hw.1.qurl_unique k hk i hc (hkr.trans hcrid) (hkq.trans hq)
  have hkm : k.grantId = n.grantId := hkg.trans (hid.trans (hg.trans hrow.grantId.symm))
  rcases hstate with ⟨p, hmap, -⟩ | hretired
  · rw [hkp, hp, hkm, hrow.grantId] at hmap
    exact hnone p hmap
  · obtain ⟨-, hscope, -⟩ := hw.1.journal n hn k hk hkm
    unfold World.Retired at hretired
    rw [hscope] at hretired
    exact (hw.1.listed k hi).2 hretired

theorem judged_pass {page grantId : String} {b : Bool} {w w' : World} (hw : w'.Ledger U)
    (h : Spares passSide page grantId w b w') (hb : b = false) : Judged passSide page grantId w' := by
  obtain ⟨hnone, hp, hg⟩ := h.dead hb id
  rintro ⟨r, hr, hat, hphase⟩ c
  subst hp hg
  exact ⟨⟨rfl, rfl⟩, hw.unmapped hnone hr hat hphase c⟩

end Passes

/-! ## Deletions -/

/-- Every deletion upstream is for the grant that was last looked at, which
the gateway did not hold then. -/
def Spared (ev : Event Op Op.Ans World) : Prop :=
  let w := ev.before
  let l := ev.before.look
  match ev.op with
  | .deleteQurl resource qurlId =>
      w.Names l.page l.grantId resource qurlId ∧ ∀ a ∈ grantsOf l.pages l.page,
        ¬(a.id = l.grantId ∧ a.qurlId = qurlId ∧ a.resourceCrid = resource)
  | .deleteResource crid | .cleanup crid =>
      (∃ r ∈ w.registry.resources, r.At l.page l.grantId ∧ r.crid = some crid) ∧
        ∀ a ∈ grantsOf l.pages l.page, ¬(a.id = l.grantId ∧ a.resourceCrid = crid)
  | _ => True

/-- Every deletion upstream is of a pool of the page that was last looked
at, which was not published then. -/
def Unpublished (ev : Event Op Op.Ans World) : Prop :=
  let l := ev.before.look
  match ev.op with
  | .deleteQurl .. => False
  | .deleteResource crid | .cleanup crid =>
      (∃ r ∈ ev.before.registry.resources, r.At l.page "__page__" ∧ r.crid = some crid) ∧
        l.page ∉ l.policy
  | _ => True

theorem spared_of_asked {ev : Event Op Op.Ans World} (h : Asked passSide ev) : Spared ev := by
  obtain ⟨w, e, a, w'⟩ := ev
  have deletable : ∀ {crid}, w.Deletable passSide crid →
      (∃ r ∈ w.registry.resources, r.At w.look.page w.look.grantId ∧ r.crid = some crid) ∧
        w.look.Free crid := by
    rintro crid ⟨r, hr, hc, -, ⟨hp, hg⟩, hfree⟩
    exact ⟨⟨r, hr, ⟨hp.symm, hg.symm⟩, hc⟩, hfree⟩
  cases e with
  | deleteQurl resource qurlId => exact h.1
  | deleteResource crid => exact deletable h
  | cleanup crid => exact deletable h
  | _ => trivial

theorem unpublished_of_asked {ev : Event Op Op.Ans World} (h : Asked poolSide ev) :
    Unpublished ev := by
  obtain ⟨w, e, a, w'⟩ := ev
  have deletable : ∀ {crid}, w.Deletable poolSide crid →
      (∃ r ∈ w.registry.resources, r.At w.look.page "__page__" ∧ r.crid = some crid) ∧
        w.look.page ∉ w.look.policy := by
    rintro crid ⟨r, hr, hc, -, hg, hp, hgone⟩
    exact ⟨⟨r, hr, ⟨hp.symm, hg⟩, hc⟩, hp ▸ hgone⟩
  cases e with
  | deleteQurl resource qurlId => exact h.1
  | deleteResource crid => exact deletable h
  | cleanup crid => exact deletable h
  | _ => trivial

/-- The passes of the reconciliation that look at the gateway. -/
def passes (cfg : Config) : List (BrokerM Unit) :=
  [drainRevocations cfg, retireOrphans cfg (liveMapping cfg),
    drainInvitations cfg (liveMapping cfg)]

/-- **When reconciliation retires no authorized invitation.** With the
gateway's grants at hand, after any requests in which each grant is asked
for once, wherever the last one was interrupted, and whatever the gateway
does meanwhile: unless an existence test of the pass fails, whenever one
of the three passes deletes upstream for a grant, the gateway held no
grant under that identifier with that qURL and resource when the pass last
looked; and a page pool is deleted only when the policy store had no such
page. -/
theorem reconciliation_spares_authorized (cfg : Config) (hdir : cfg.gatewayGrantsDir = true)
    (rs : List (Request × List Tick)) (hfresh : Server.Admits Fresh [] rs) (ts : List Tick)
    (hsight : ∀ t ∈ ts, t.blind = false) :
    let w := (broker cfg).play .empty rs
    (∀ pass ∈ passes cfg, ∀ ev ∈ pass.run.events Op.step ts w, Spared ev) ∧
    ∀ ev ∈ (retireDeletedPagePools cfg pageExists).run.events Op.step ts w, Unpublished ev := by
  intro w
  obtain ⟨hb, hissues⟩ := broker_run cfg (J := World.Issues) hfresh ⟨nofun, nofun, nofun⟩
    (fun _ t e _ hb h hpre => issues_step t e hb h hpre)
    fun _ r a _ hb h hd => issues_reply r a hb h hd
  generalize usedBy (Server.made [] rs) = U at hb
  have hw : w.Ledger U := ⟨hb, hissues⟩
  have hbase : ∀ w, World.Ledger U w → w.Base U := fun _ => And.left
  have hI := stable_ledger (knows_pass U)
  have spared : ∀ {α : Type} {pass : BrokerM α} {Q : Except Failure α → World → Prop},
      Walks passSide (World.Ledger U) pass Q w → ∀ ev ∈ pass.run.events Op.step ts w, Spared ev :=
    fun h ev hev => spared_of_asked (h.asked hsight ev hev)
  refine ⟨fun pass hpass => ?_, fun ev hev => ?_⟩
  · simp only [passes, List.mem_cons, List.not_mem_nil, or_false] at hpass
    rcases hpass with rfl | rfl | rfl
    · exact spared (walks_drainRevocations cfg hI hbase (allows_pass hdir) hw)
    · exact spared (walks_retireOrphans cfg hI (fun page grantId w hw =>
        walks_ok (walks_liveMapping cfg hI hbase hw) fun b w' hw' h => judged_pass hw' h) hw)
    · exact spared (walks_drainInvitations cfg hI hbase allowsMints_pass hw)
  · refine unpublished_of_asked ((walks_retireDeletedPagePools cfg
      (stable_ledger (knows_pool U)) (fun page w hw => ?_) hw).asked hsight ev hev)
    refine walks_ask_ok (stable_ledger (knows_pool U)) hw trivial fun t w' _ hgone _ c => ?_
    rw [Bool.eq_false_iff.mpr (mt t.2 id), Bool.not_false, Bool.true_and] at hgone
    exact ⟨rfl, rfl, of_decide_eq_false hgone⟩

/-- The guest of the gate is created and its revocation is queued. -/
def gateQueued : List (Request × List Tick) :=
  [(.create .page gateRequest, List.replicate 20 gateTick),
    (.queue "gate" gateGrant, List.replicate 5 gateTick)]

theorem gateQueued_fresh : Server.Admits Fresh [] gateQueued :=
  ⟨fun ⟨_, _, h, _⟩ => absurd h List.not_mem_nil, trivial, trivial⟩

/-- A minute later. -/
def gateLater : List Tick := List.replicate 20 { gateTick with now := 60 * second }

theorem gateLater_sighted : ∀ t ∈ gateLater, t.blind = false := by
  intro t ht
  rw [List.eq_of_mem_replicate ht]
  rfl

def Op.isDeleteQurl : Op → Bool
  | deleteQurl .. => true
  | _ => false

theorem reconciliation_spares_authorized_gate :
    let w := (broker gateConfig).play .empty gateQueued
    (((drainRevocations gateConfig).run.events Op.step gateLater w).any
      (·.op.isDeleteQurl) = true) ∧
    (∀ pass ∈ passes gateConfig, ∀ ev ∈ pass.run.events Op.step gateLater w, Spared ev) ∧
    ∀ ev ∈ (retireDeletedPagePools gateConfig pageExists).run.events Op.step gateLater w,
      Unpublished ev :=
  ⟨by decide +kernel,
    reconciliation_spares_authorized gateConfig rfl gateQueued gateQueued_fresh gateLater
      gateLater_sighted⟩

/-! ## Where a test fails -/

/-- A qURL is deleted that the gateway held at the last look. -/
def Strikes (ev : Event Op Op.Ans World) : Bool :=
  let l := ev.before.look
  match ev.op with
  | .deleteQurl resource qurlId => (grantsOf l.pages l.page).any fun a =>
      a.id = l.grantId ∧ a.qurlId = qurlId ∧ a.resourceCrid = resource
  | _ => false

theorem not_spared {ev : Event Op Op.Ans World} (h : Strikes ev = true) : ¬ Spared ev := by
  obtain ⟨w, e, a, w'⟩ := ev
  cases e with
  | deleteQurl resource qurlId =>
      rintro ⟨-, hnone⟩
      obtain ⟨a, ha, hheld⟩ := List.any_eq_true.mp h
      exact hnone a ha (of_decide_eq_true hheld)
  | _ => cases h

/-- What the gateway stores of the guest of the gate. -/
def gateHeld : GatewayGrant := ⟨gateGrant, "q_0123456789a", "aaaaaaaaaaaaaaaaaaaaaaaaaaaaaaaaaaaaaaaa"⟩

/-- The guest of the gate is created, the gateway commits the grant, and its
revocation is queued. -/
def gateCommitted : List (Request × List Tick) :=
  [(.create .page gateRequest, List.replicate 20 gateTick),
    (.queue "gate" gateGrant,
      List.replicate 5 { gateTick with meanwhile := [.gateway [("gate", [gateHeld])]] })]

/-- Ten minutes later, no file can be seen. -/
def gateBlind : List Tick :=
  List.replicate 20 { gateTick with now := 600 * second, blind := true }

/-- The gateway holds the grant throughout, and two passes delete its
qURL: the one that finds it queued, and the one that finds it journaled. -/
theorem reconciliation_retires_authorized :
    let w := (broker gateConfig).play .empty gateCommitted
    Server.Admits Fresh [] gateCommitted ∧ gateHeld ∈ grantsOf w.gateway.pages "gate" ∧
    (∃ ev ∈ (drainRevocations gateConfig).run.events Op.step gateBlind w, ¬ Spared ev) ∧
    ∃ ev ∈ (drainInvitations gateConfig (liveMapping gateConfig)).run.events Op.step gateBlind w,
      ¬ Spared ev := by
  intro w
  have hrevocations : ((drainRevocations gateConfig).run.events Op.step gateBlind w).any
      Strikes = true := by decide +kernel
  have hinvitations : ((drainInvitations gateConfig (liveMapping gateConfig)).run.events Op.step
      gateBlind w).any Strikes = true := by decide +kernel
  obtain ⟨ev, hev, hstrikes⟩ := List.any_eq_true.mp hrevocations
  obtain ⟨ev', hev', hstrikes'⟩ := List.any_eq_true.mp hinvitations
  refine ⟨⟨fun ⟨_, _, h, _⟩ => absurd h List.not_mem_nil, trivial, trivial⟩, ?_,
    ⟨ev, hev, not_spared hstrikes⟩, ev', hev', not_spared hstrikes'⟩
  decide +kernel

end LayerV

end AccessPages
