import AccessPages.LayerV.Ownership
/-!
# LayerV — mappings seeded from the gateway's pages

`_seed_authoritative_policy` of the app runner: before the broker starts,
the policy store is made to hold the pages of the gateway, and a grant
whose mapping file is missing gets one. The file it writes has neither
the CRID nor the scope that `_save_mapping` writes, so a seeded mapping
is not the mapping that was lost. What follows from that is exactly
which grants are still taken for live, and what deleting them deletes.
-/

namespace AccessPages

namespace LayerV

open Pages (Page Grant UpstreamScope)

/-! ## The seeding -/

/-- The mapping that is written for a grant without one. -/
def seededMapping (page : String) (g : Grant) : Mapping :=
  ⟨page, g.id, strip g.qurlId, strip g.resourceId, none, none⟩

/-- The file of a grant with durable identifiers. -/
def seedRow (page : String) (g : Grant) : Option (String × Mapping) :=
  if strip g.qurlId = "" ∨ strip g.resourceId = "" then none
  else some (mappingPath page g.id, seededMapping page g)

/-- One turn of the inner loop. A file that exists stays. -/
def seedGrant (page : String) (mappings : Table (String × Mapping) Prod.fst) (g : Grant) :
    Table (String × Mapping) Prod.fst :=
  match seedRow page g with
  | none => mappings
  | some row => mappings.insertOrIgnore row

/-- One turn of the outer loop: the page is replaced in the policy store, or
created there. -/
def seedPage (w : World) (p : Page) : World :=
  { w with
    mappings := p.accessGrants.foldl (seedGrant p.id) w.mappings
    policy := if p.id ∈ w.policy then w.policy else w.policy ++ [p.id] }

/-- `_seed_authoritative_policy`. Pages only the policy store has are
deleted there. -/
def seedAuthoritativePolicy (pages : List Page) (w : World) : Nat × World :=
  let sourceIds := (pages.map (·.id)).eraseDups
  let w := pages.foldl seedPage w
  (sourceIds.length, { w with policy := w.policy.filter (· ∈ sourceIds) })

/-! ## What it is run on -/

/-- What `create_qurl` had returned for a grant the gateway stores. -/
def resultOf (g : Grant) : QurlResult :=
  ⟨g.qurlId, g.resourceId, some g.resourceCrid, some g.upstreamScope⟩

/-- The mapping that was saved when the grant was created. -/
def createdMapping (page : String) (g : Grant) : Mapping :=
  savedMapping page g.id (resultOf g) g.resourceCrid

/-- What the broker reads of the gateway's pages. -/
def gatewayView (pages : List Page) : List (String × List GatewayGrant) :=
  pages.map fun p => (p.id, p.accessGrants.map fun g => ⟨g.id, g.qurlId, g.resourceCrid⟩)

/-- A gateway's page store, and a broker's data directory with any mapping
files in it. -/
structure Restored where
  pages : List Page
  world : World
  pages_nodup : (pages.map (·.id)).Nodup
  grants_nodup : ∀ p ∈ pages, (p.accessGrants.map (·.id)).Nodup
  gateway_pages : world.gateway.pages = gatewayView pages

/-- After the seeding. -/
def Restored.seeded (d : Restored) : World := (seedAuthoritativePolicy d.pages d.world).2

/-- A grant of the gateway with a nonempty `qurl_id` and `resource_id`. -/
structure Restored.Durable (d : Restored) (p : Page) (g : Grant) : Prop where
  page : p ∈ d.pages
  grant : g ∈ p.accessGrants
  qurlId : g.qurlId ≠ ""
  resourceId : g.resourceId ≠ ""

/-- The mapping in its file, before the seeding. -/
def Restored.mapping (d : Restored) (p : Page) (g : Grant) : Option Mapping :=
  (d.world.mappings.find? (mappingPath p.id g.id)).map Prod.snd

/-- Its mapping is one the seeding created: the file is missing, or an
earlier seeding wrote it. -/
def Restored.Seeds (d : Restored) (p : Page) (g : Grant) : Prop :=
  d.mapping p g = none ∨ d.mapping p g = some (seededMapping p.id g)

/-- The mapping is of the grant, with its qURL and CRID. -/
structure Mapping.Agrees (m : Mapping) (page : String) (g : Grant) : Prop where
  pageId : m.pageId = page
  grantId : m.grantId = g.id
  qurlId : m.qurlId = g.qurlId
  resourceCrid : m.resourceCrid = some g.resourceCrid

/-! ## Which rows there are afterwards -/

def seedRows (pages : List Page) : List (String × Mapping) :=
  pages.flatMap fun p => p.accessGrants.filterMap (seedRow p.id)

theorem foldl_seedGrant (page : String) (gs : List Grant)
    (t : Table (String × Mapping) Prod.fst) :
    gs.foldl (seedGrant page) t = (gs.filterMap (seedRow page)).foldl Table.insertOrIgnore t := by
  induction gs generalizing t with
  | nil => rfl
  | cons g gs ih =>
      rw [List.foldl_cons, ih, seedGrant]
      cases h : seedRow page g with
      | none => rw [List.filterMap_cons_none h]
      | some row => rw [List.filterMap_cons_some h, List.foldl_cons]

theorem mappings_foldl_seedPage (pages : List Page) (w : World) :
    (pages.foldl seedPage w).mappings = (seedRows pages).foldl Table.insertOrIgnore w.mappings := by
  induction pages generalizing w with
  | nil => rfl
  | cons p ps ih =>
      rw [List.foldl_cons, ih, seedRows, seedRows, List.flatMap_cons, List.foldl_append,
        ← foldl_seedGrant]
      rfl

/-- The seeding only adds files. -/
theorem mappings_seeded (d : Restored) :
    d.seeded.mappings = (seedRows d.pages).foldl Table.insertOrIgnore d.world.mappings :=
  mappings_foldl_seedPage d.pages d.world

theorem gateway_foldl_seedPage (pages : List Page) (w : World) :
    (pages.foldl seedPage w).gateway = w.gateway := by
  induction pages generalizing w with
  | nil => rfl
  | cons p ps ih => exact ih (seedPage w p)

theorem gateway_seeded (d : Restored) : d.seeded.gateway.pages = gatewayView d.pages :=
  (congrArg Gateway.pages (gateway_foldl_seedPage d.pages d.world)).trans d.gateway_pages

theorem strip_qurlId (g : Grant) : strip g.qurlId = g.qurlId := g.stripped _ (by simp)

theorem strip_resourceId (g : Grant) : strip g.resourceId = g.resourceId := g.stripped _ (by simp)

theorem seededMapping_eq (page : String) (g : Grant) :
    seededMapping page g = ⟨page, g.id, g.qurlId, g.resourceId, none, none⟩ := by
  rw [seededMapping, strip_qurlId, strip_resourceId]

theorem mem_seedRows {pages : List Page} {row : String × Mapping} :
    row ∈ seedRows pages ↔ ∃ p ∈ pages, ∃ g ∈ p.accessGrants, g.qurlId ≠ "" ∧ g.resourceId ≠ "" ∧
      row = (mappingPath p.id g.id, seededMapping p.id g) := by
  simp only [seedRows, List.mem_flatMap, List.mem_filterMap, seedRow, strip_qurlId,
    strip_resourceId]
  refine exists_congr fun p => and_congr_right fun _ => exists_congr fun g =>
    and_congr_right fun _ => ?_
  by_cases h : g.qurlId = "" ∨ g.resourceId = ""
  · rw [if_pos h]
    rcases h with h | h <;> simp [h]
  · rw [if_neg h, Option.some.injEq]
    rw [not_or] at h
    exact ⟨fun he => ⟨h.1, h.2, he.symm⟩, fun ⟨_, _, he⟩ => he.symm⟩

variable {d : Restored} {p : Page} {g : Grant}

/-- Two grants of the gateway under one file name are one grant. -/
theorem Restored.eq_of_path {p' : Page} {g' : Grant} (hp : p ∈ d.pages) (hg : g ∈ p.accessGrants)
    (hp' : p' ∈ d.pages) (hg' : g' ∈ p'.accessGrants)
    (h : mappingPath p.id g.id = mappingPath p'.id g'.id) : p = p' ∧ g = g' := by
  obtain ⟨hpage, hgrant⟩ := mappingPath_injective g.id_re g'.id_re h
  have hpp : p = p' := List.inj_on_of_nodup_map d.pages_nodup hp hp' hpage
  subst hpp
  exact ⟨rfl, List.inj_on_of_nodup_map (d.grants_nodup p hp) hg hg' hgrant⟩

/-- **What the seeding leaves for a grant.** The file there was, or the
seeded one. -/
theorem Restored.Durable.find?_seeded (h : d.Durable p g) :
    d.seeded.mappings.find? (mappingPath p.id g.id) =
      some (mappingPath p.id g.id, (d.mapping p g).getD (seededMapping p.id g)) := by
  rw [mappings_seeded, Restored.mapping]
  cases hf : d.world.mappings.find? (mappingPath p.id g.id) with
  | some row =>
      obtain ⟨path, m⟩ := row
      obtain ⟨hmem, rfl⟩ := Table.find?_eq_some.mp hf
      exact Table.find?_eq_some.mpr ⟨Table.mem_foldl_insertOrIgnore_of_mem hmem, rfl⟩
  | none =>
      have hrow := mem_seedRows.mpr ⟨p, h.page, g, h.grant, h.qurlId, h.resourceId, rfl⟩
      obtain ⟨row, hmem, hk⟩ := Table.exists_key_foldl_insertOrIgnore (t := d.world.mappings) hrow
      rcases Table.mem_of_mem_foldl_insertOrIgnore hmem with hold | hnew
      · exact absurd hk (Table.find?_eq_none.mp hf row hold)
      · obtain ⟨p', hp', g', hg', -, -, rfl⟩ := mem_seedRows.mp hnew
        obtain ⟨rfl, rfl⟩ := d.eq_of_path hp' hg' h.page h.grant hk
        exact Table.find?_eq_some.mpr ⟨hmem, rfl⟩

/-! ## Whether it is live -/

/-- A question that does not fail, with nobody else about. -/
structure Tick.Calm (t : Tick) : Prop where
  fault : t.fault = false
  meanwhile : t.meanwhile = []
  blind : t.blind = false

theorem Tick.Calm.step {t : Tick} (ht : t.Calm) (e : Op) (w : World) :
    e.step t w = e.perform t w := by
  rw [Op.step, ht.fault, ht.meanwhile]
  rfl

theorem safeId_page (p : Page) : safeId p.id = true := by
  have hchars := Pages.isIdChar_of_pageIdRe p.id_re
  have h := p.id_re
  unfold Pages.pageIdRe at h
  cases hl : p.id.toList with
  | nil => rw [hl] at h; cases h
  | cons c cs =>
      rw [hl] at h hchars
      simp only [Bool.and_eq_true, matchesClass, decide_eq_true_eq] at h
      obtain ⟨-, ⟨-, hlen⟩, -⟩ := h
      simp only [safeId, hl, matchesClass, List.length_cons, Bool.and_eq_true, List.all_eq_true,
        decide_eq_true_eq]
      exact ⟨⟨by omega, by omega⟩, fun x hx => Pages.isTokenChar_of_isIdChar (hchars x hx)⟩

theorem safeId_grant (g : Grant) : safeId g.id = true := by
  have hlen := length_grantId g.id_re
  simp only [safeId, matchesClass, Bool.and_eq_true, decide_eq_true_eq, List.all_eq_true]
  exact ⟨⟨by omega, by omega⟩, Pages.isTokenChar_of_grantIdRe g.id_re⟩

theorem grantFile_stored (p : Page) (g : Grant) : grantFile p.id g.id = .ok () := by
  rw [grantFile, if_pos ⟨safeId_page p, safeId_grant g⟩]

variable {cfg : Config} {t : Tick} {w : World} {m : Mapping}

theorem run_mappingExists (ht : t.Calm) (hf : w.mappings.find? (mappingPath p.id g.id) =
    some (mappingPath p.id g.id, m)) :
    (mappingExists p.id g.id).run.run (Op.step t) w =
      (.ok true, { w with look := ⟨p.id, g.id, w.gateway.pages, w.policy⟩ }) := by
  rw [mappingExists, grantFile_stored, Prog.run_except_bind]
  show Prog.run (Op.step t) (ask (.mappingExists p.id g.id)).run w = _
  show Op.step t (.mappingExists p.id g.id) w = _
  rw [ht.step, Op.perform, hf, ht.blind]
  rfl

theorem run_loadMapping (ht : t.Calm) (hf : w.mappings.find? (mappingPath p.id g.id) =
    some (mappingPath p.id g.id, m)) :
    (loadMapping p.id g.id).run.run (Op.step t) w =
      (if m.pageId = p.id ∧ m.grantId = g.id then .ok m
        else .error (.policy "Stored grant mapping is invalid" 500), w) := by
  have hread : (readMapping p.id g.id).run.run (Op.step t) w = (.ok (some m), w) := by
    rw [readMapping, Prog.run_except_bind]
    have hstep : Op.step t (.readMapping p.id g.id) w = (.ok (some m), w) := by
      rw [ht.step, Op.perform, hf]
      rfl
    have : (attempt (ask (.readMapping p.id g.id))).run.run (Op.step t) w =
        (.ok (.ok (some m)), w) := by
      show Prog.run (Op.step t) (Prog.op _ _) w = _
      rw [Prog.run_op, hstep]
      rfl
    rw [this]
    rfl
  rw [loadMapping, grantFile_stored, Prog.run_except_bind]
  show Prog.run (Op.step t) (readMapping p.id g.id >>= _).run w = _
  rw [Prog.run_except_bind, hread]
  show Prog.run (Op.step t) (if m.pageId = p.id ∧ m.grantId = g.id then (pure m : BrokerM Mapping)
    else _).run w = _
  split <;> rfl

/-- `_gateway_grant_live`, where the file is there. -/
theorem run_gatewayGrantLive (ht : t.Calm) (hf : w.mappings.find? (mappingPath p.id g.id) =
    some (mappingPath p.id g.id, m)) {grants : List GatewayGrant}
    (hgw : w.gateway.pages.find? (·.1 = p.id) = some (p.id, grants)) :
    ((gatewayGrantLive cfg p.id g.id).run.run (Op.step t) w).1 =
      if cfg.gatewayGrantsDir = true then
        if m.pageId = p.id ∧ m.grantId = g.id then .ok (grants.any (GatewayGrant.matches g.id m))
        else .error (.policy "Stored grant mapping is invalid" 500)
      else .ok true := by
  rw [gatewayGrantLive, Prog.run_except_bind, run_mappingExists ht hf]
  by_cases hdir : cfg.gatewayGrantsDir = true
  · have hload := run_loadMapping (p := p) (g := g) (m := m)
      (w := { w with look := ⟨p.id, g.id, w.gateway.pages, w.policy⟩ }) ht hf
    simp only [hdir, if_true]
    rw [Prog.run_except_bind, hload]
    by_cases hm : m.pageId = p.id ∧ m.grantId = g.id
    · rw [if_pos hm, if_pos hm]
      show (Prog.run (Op.step t) (ask (.loadGateway p.id) >>= _).run _).1 = _
      rw [Prog.run_except_bind]
      have : (ask (.loadGateway p.id)).run.run (Op.step t)
          { w with look := ⟨p.id, g.id, w.gateway.pages, w.policy⟩ } =
          (.ok (some grants), { w with look := ⟨p.id, g.id, w.gateway.pages, w.policy⟩ }) := by
        show Op.step t (.loadGateway p.id) _ = _
        rw [ht.step, Op.perform, ht.blind]
        simp only [hgw]
        rfl
      rw [this]
      rfl
    · rw [if_neg hm, if_neg hm]
  · simp only [if_true, if_neg hdir]
    rfl

/-! ## What deleting it deletes -/

/-- A guest's resource, or one qURL. -/
inductive Upstream where
  | resource (crid : String)
  | qurl (resource qurlId : String)
  deriving DecidableEq, Repr

/-- What a request asks LayerV to delete. -/
def Op.target : Op → Option Upstream
  | deleteQurl resource qurlId => some (.qurl resource qurlId)
  | deleteResource crid => some (.resource crid)
  | cleanup crid => some (.resource crid)
  | _ => none

/-- `delete_grant` may ask for the deletion of `o`. -/
def Retires (cfg : Config) (page grantId : String) (w : World) (o : Upstream) : Prop :=
  ∃ ts, ∃ ev ∈ (deleteGrant cfg page grantId).run.events Op.step ts w, ev.op.target = some o

/-- `delete_grant` after its mapping was read. -/
def deleteFound (cfg : Config) (page grantId : String) :
    Except Failure (Option Mapping) → BrokerM Bool
  | .error _ => throw (.policy "Stored grant mapping is unavailable" 500)
  | .ok none => revokeOwned cfg page grantId
  | .ok (some m) =>
      if m.pageId = page ∧ m.grantId = grantId then do
        let alreadyMissing ← retireMapped cfg page grantId m
        ask (.unlinkMapping page grantId)
        ask .syncData
        return alreadyMissing
      else throw (.policy "Stored grant mapping is invalid" 500)

theorem deleteGrant_eq (cfg : Config) (p : Page) (g : Grant) :
    (deleteGrant cfg p.id g.id).run =
      .op (.readMapping p.id g.id) fun r => (deleteFound cfg p.id g.id r).run := by
  rw [deleteGrant, loadMapping, grantFile_stored]
  show Prog.op _ _ = _
  congr 1
  funext r
  rcases r with e | m
  · rfl
  · cases m with
    | none => rfl
    | some m =>
        show (_ : Prog _ _ _) = (if m.pageId = p.id ∧ m.grantId = g.id then _ else _ : BrokerM Bool)
        split
        · rename_i h
          show (attempt (if m.pageId = p.id ∧ m.grantId = g.id then (pure m : BrokerM Mapping)
            else _) >>= _ : BrokerM Bool) = _
          rw [if_pos h]
          rfl
        · rename_i h
          show (attempt (if m.pageId = p.id ∧ m.grantId = g.id then (pure m : BrokerM Mapping)
            else _) >>= _ : BrokerM Bool) = _
          rw [if_neg h]
          rfl

/-- Every deletion a request asks for is one of `P`. -/
def Deletes (P : Upstream → Prop) (e : Op) : Prop := ∀ o, e.target = some o → P o

theorem deletes_of_none {P : Upstream → Prop} {e : Op} (h : e.target = none) : Deletes P e := by
  intro o ho
  rw [h] at ho
  cases ho

section Asking

variable {P : Upstream → Prop}

theorem asks_ask {e : Op} (h : Deletes P e) : Prog.Asks (Deletes P) (ask e).run :=
  ⟨h, fun _ => trivial⟩

theorem asks_attempt {α : Type} {x : BrokerM α} (hx : Prog.Asks (Deletes P) x.run) :
    Prog.Asks (Deletes P) (attempt x).run :=
  Prog.asks_bind hx fun _ => trivial

theorem asks_registry (e : RegistryOp) : Prog.Asks (Deletes P) (askRegistry e).run :=
  asks_ask (deletes_of_none rfl)

variable (hP : ∀ crid, P (.resource crid))
include hP

theorem asks_deleteResource (crid : String) : Prog.Asks (Deletes P) (deleteResource crid).run := by
  unfold deleteResource
  split
  · trivial
  · exact asks_ask fun o ho => by cases ho; exact hP _

theorem asks_cleanup (crid : String) : Prog.Asks (Deletes P) (ask (.cleanup crid)).run :=
  asks_ask fun o ho => by cases ho; exact hP crid

theorem asks_deleteThenCleanup (crid : String) :
    Prog.Asks (Deletes P) (deleteThenCleanup crid).run :=
  Prog.asks_except_bind (asks_deleteResource hP crid) fun _ =>
    Prog.asks_except_bind (asks_cleanup hP crid) fun _ => trivial

theorem asks_retireUpstream (old : Bool) (crid : String) :
    Prog.Asks (Deletes P) (retireUpstream cfg old crid).run := by
  unfold retireUpstream
  split
  · exact asks_deleteResource hP crid
  split
  · refine Prog.asks_except_bind (asks_attempt (asks_cleanup hP crid)) fun r => ?_
    cases r with
    | ok _ => trivial
    | error e =>
        cases e with
        | layerV _ _ _ => exact asks_deleteThenCleanup hP crid
        | _ => trivial
  split
  · exact asks_deleteThenCleanup hP crid
  · exact asks_deleteResource hP crid

/-- `revoke` deletes resources only. -/
theorem asks_revoke (page grantId crid qurlId : String) :
    Prog.Asks (Deletes P) (revoke cfg page grantId crid qurlId).run := by
  unfold revoke
  refine Prog.asks_except_bind (asks_registry _) fun r => ?_
  cases r with
  | none => trivial
  | some r =>
      dsimp only
      split
      · trivial
      split
      · trivial
      refine Prog.asks_except_bind (asks_registry _) fun _ => ?_
      refine Prog.asks_except_bind (asks_registry _) fun _ => ?_
      refine Prog.asks_except_bind (asks_retireUpstream hP _ _) fun _ => ?_
      exact Prog.asks_except_bind (asks_registry _) fun _ => trivial

end Asking

/-- Deleting a grant with this mapping asks for nothing but `P`. -/
theorem asks_deleteFound {P : Upstream → Prop} {page grantId : String}
    (h : Prog.Asks (Deletes P) (retireMapped cfg page grantId m).run) :
    Prog.Asks (Deletes P) (deleteFound cfg page grantId (.ok (some m))).run := by
  rw [deleteFound]
  split
  · refine Prog.asks_except_bind h fun _ => ?_
    refine Prog.asks_except_bind (asks_ask (deletes_of_none rfl)) fun _ => ?_
    exact Prog.asks_except_bind (asks_ask (deletes_of_none rfl)) fun _ => trivial
  · trivial

theorem mem_events_asks {α : Type} {A : Op → Prop} {x : Prog Op Op.Ans α} (h : Prog.Asks A x)
    {ts : List Tick} {ev : Event Op Op.Ans World} (hev : ev ∈ x.events Op.step ts w) : A ev.op := by
  induction x generalizing ts w with
  | ret a => exact absurd hev List.not_mem_nil
  | op e k ih =>
      cases ts with
      | nil => exact absurd hev List.not_mem_nil
      | cons t ts =>
          rcases List.mem_cons.mp hev with rfl | hev
          · exact h.1
          · exact ih _ (h.2 _) hev

theorem mappings_meanwhile (ms : List Meanwhile) (w : World) :
    (ms.foldl Meanwhile.apply w).mappings = w.mappings := by
  induction ms generalizing w with
  | nil => rfl
  | cons m ms ih =>
      rw [List.foldl_cons, ih]
      cases m <;> simp only [Meanwhile.apply, World.queueRevocation] <;> split <;> rfl

/-- What is read of the file, unless the read fails. -/
theorem readMapping_step (hf : w.mappings.find? (mappingPath p.id g.id) =
    some (mappingPath p.id g.id, m)) (t : Tick) :
    (Op.step t (.readMapping p.id g.id) w).1 = .ok (some m) ∨
      (Op.step t (.readMapping p.id g.id) w).1 = .error .os := by
  rw [Op.step]
  split
  · exact Or.inr rfl
  · left
    rw [Op.perform, mappings_meanwhile, hf]
    rfl

theorem retires_only {P : Upstream → Prop} (hf : w.mappings.find? (mappingPath p.id g.id) =
    some (mappingPath p.id g.id, m))
    (h : Prog.Asks (Deletes P) (retireMapped cfg p.id g.id m).run) {o : Upstream}
    (ho : Retires cfg p.id g.id w o) : P o := by
  obtain ⟨ts, ev, hev, htarget⟩ := ho
  rw [deleteGrant_eq] at hev
  cases ts with
  | nil => exact absurd hev List.not_mem_nil
  | cons t ts =>
      rcases List.mem_cons.mp hev with rfl | hev
      · cases htarget
      · rcases readMapping_step hf t with hr | hr <;> rw [hr] at hev
        · exact mem_events_asks (asks_deleteFound h) hev o htarget
        · exact absurd hev List.not_mem_nil

theorem calmTick : { gateTick with meanwhile := [] }.Calm := ⟨rfl, rfl, rfl⟩

/-- A mapping without the guest's scope deletes its qURL. -/
theorem retires_qurl (hf : w.mappings.find? (mappingPath p.id g.id) =
    some (mappingPath p.id g.id, m)) (hm : m.pageId = p.id ∧ m.grantId = g.id)
    (hscope : m.upstreamScope ≠ some .guest) (hres : strip m.resource = m.resource)
    (hne : m.resource ≠ "") (hqurl : strip m.qurlId = m.qurlId) (hqne : m.qurlId ≠ "") :
    Retires cfg p.id g.id w (.qurl m.resource m.qurlId) := by
  have hread : (Op.step { gateTick with meanwhile := [] } (.readMapping p.id g.id) w).1 =
      .ok (some m) := by
    rw [calmTick.step, Op.perform, hf]
    rfl
  have hmapped : retireMapped cfg p.id g.id m = deleteQurl cfg.resourceId m.resource m.qurlId := by
    unfold retireMapped
    split
    · rename_i h
      exact absurd h hscope
    · rfl
  have hdelete : deleteQurl cfg.resourceId m.resource m.qurlId =
      ask (.deleteQurl m.resource m.qurlId) := by
    rw [deleteQurl_eq (by rw [if_neg hne, hres]) hqurl, if_neg (by simp [hne, hqne])]
  refine ⟨[{ gateTick with meanwhile := [] }, { gateTick with meanwhile := [] }], ?_⟩
  rw [deleteGrant_eq, Prog.events, hread, deleteFound, if_pos hm, hmapped, hdelete]
  exact ⟨_, List.mem_cons_of_mem _ List.mem_cons_self, rfl⟩

/-! ## When the seeding keeps what was live -/

/-- `_gateway_grant_live` of a grant, after the seeding. -/
def Restored.Live (d : Restored) (cfg : Config) (p : Page) (g : Grant) : Prop :=
  ∀ t : Tick, t.Calm → ((gatewayGrantLive cfg p.id g.id).run.run (Op.step t) d.seeded).1 = .ok true

/-- The same, with the mapping that was saved when the grant was created. -/
def Restored.unharmed (d : Restored) (p : Page) (g : Grant) : World :=
  { d.seeded with
    mappings := d.seeded.mappings.insertOrReplace
      (mappingPath p.id g.id, createdMapping p.id g) }

theorem Restored.Durable.createdMapping_eq (h : d.Durable p g) :
    createdMapping p.id g =
      ⟨p.id, g.id, g.qurlId, g.resourceId, some g.resourceCrid, some g.upstreamScope⟩ := by
  rw [createdMapping, savedMapping]
  congr 1
  exact if_neg h.resourceId

theorem Restored.Durable.find?_gateway (h : d.Durable p g) :
    d.seeded.gateway.pages.find? (·.1 = p.id) =
      some (p.id, p.accessGrants.map fun g => ⟨g.id, g.qurlId, g.resourceCrid⟩) := by
  rw [gateway_seeded, gatewayView, List.find?_map]
  have hfind : d.pages.find? (fun q => decide (q.id = p.id)) = some p := by
    cases hf : d.pages.find? (fun q => decide (q.id = p.id)) with
    | none => exact absurd (List.find?_eq_none.mp hf p h.page) (by simp)
    | some q =>
        have hid : q.id = p.id := by simpa using List.find?_some hf
        rw [List.inj_on_of_nodup_map d.pages_nodup (List.mem_of_find?_eq_some hf) h.page hid]
  show (d.pages.find? fun q => decide (q.id = p.id)).map _ = _
  rw [hfind]
  rfl

/-- No other grant of the page answers to the mapping. -/
theorem Restored.Durable.any_matches (h : d.Durable p g) (m : Mapping) :
    (p.accessGrants.map fun a => (⟨a.id, a.qurlId, a.resourceCrid⟩ : GatewayGrant)).any
      (GatewayGrant.matches g.id m) = true ↔
    m.qurlId = g.qurlId ∧ m.resourceCrid = some g.resourceCrid := by
  simp only [List.any_map, List.any_eq_true, Function.comp, GatewayGrant.matches,
    decide_eq_true_eq]
  constructor
  · rintro ⟨a, ha, hid, hq, hc⟩
    obtain rfl := List.inj_on_of_nodup_map (d.grants_nodup p h.page) ha h.grant hid
    exact ⟨hq.symm, hc.symm⟩
  · rintro ⟨hq, hc⟩
    exact ⟨g, h.grant, rfl, hq.symm, hc.symm⟩

/-- A seeded mapping has no CRID to agree on. -/
theorem Restored.agrees_iff (d : Restored) (p : Page) (g : Grant) :
    ((d.mapping p g).getD (seededMapping p.id g)).Agrees p.id g ↔
      ∃ m, d.mapping p g = some m ∧ m.Agrees p.id g := by
  cases d.mapping p g with
  | some m => exact ⟨fun hm => ⟨m, rfl, hm⟩, fun ⟨_, he, hm⟩ => Option.some.inj he ▸ hm⟩
  | none => exact iff_of_false (fun hm => nomatch hm.resourceCrid) nofun

/-- **When a grant is taken for live.** Nothing is compared, or the file
there was agrees with the gateway. -/
theorem Restored.Durable.live_iff (h : d.Durable p g) :
    d.Live cfg p g ↔
      cfg.gatewayGrantsDir = false ∨ ∃ m, d.mapping p g = some m ∧ m.Agrees p.id g := by
  rw [← d.agrees_iff]
  have hrun : ∀ t : Tick, t.Calm →
      (((gatewayGrantLive cfg p.id g.id).run.run (Op.step t) d.seeded).1 = .ok true ↔
        cfg.gatewayGrantsDir = false ∨
          ((d.mapping p g).getD (seededMapping p.id g)).Agrees p.id g) := by
    intro t ht
    rw [run_gatewayGrantLive ht h.find?_seeded h.find?_gateway]
    generalize (d.mapping p g).getD (seededMapping p.id g) = m
    by_cases hdir : cfg.gatewayGrantsDir = true
    · rw [if_pos hdir, hdir]
      by_cases hm : m.pageId = p.id ∧ m.grantId = g.id
      · rw [if_pos hm, Except.ok.injEq, h.any_matches]
        refine ⟨fun hq => .inr ⟨hm.1, hm.2, hq.1, hq.2⟩, fun hq => ?_⟩
        obtain ⟨-, -, hq, hc⟩ := hq.resolve_left nofun
        exact ⟨hq, hc⟩
      · rw [if_neg hm]
        refine iff_of_false nofun fun hq => ?_
        obtain ⟨hp, hg, -⟩ := hq.resolve_left nofun
        exact hm ⟨hp, hg⟩
    · rw [if_neg hdir]
      exact iff_of_true rfl (.inl (Bool.not_eq_true _ ▸ hdir))
  exact ⟨fun hlive => (hrun _ calmTick).mp (hlive _ calmTick), fun hc t ht => (hrun t ht).mpr hc⟩

/-- A seeded mapping deletes the qURL under the resource's public name. -/
theorem Restored.Durable.retires_seeded (h : d.Durable p g) (hseeds : d.Seeds p g)
    (o : Upstream) : Retires cfg p.id g.id d.seeded o ↔ o = .qurl g.resourceId g.qurlId := by
  have hfind := h.find?_seeded
  rw [show (d.mapping p g).getD (seededMapping p.id g) = seededMapping p.id g by
    rcases hseeds with he | he <;> rw [he] <;> rfl, seededMapping_eq] at hfind
  constructor
  · refine fun ho => retires_only (P := (· = .qurl g.resourceId g.qurlId)) hfind ?_ ho
    show Prog.Asks _ (deleteQurl cfg.resourceId g.resourceId g.qurlId).run
    rw [deleteQurl_eq (by rw [if_neg h.resourceId, strip_resourceId]) (strip_qurlId g)]
    split
    · trivial
    · exact asks_ask fun o ho => by cases ho; rfl
  · rintro rfl
    exact retires_qurl hfind ⟨rfl, rfl⟩ (by rintro ⟨⟩) (strip_resourceId g) h.resourceId (strip_qurlId g)
      h.qurlId

theorem Restored.Durable.find?_unharmed (h : d.Durable p g) :
    (d.unharmed p g).mappings.find? (mappingPath p.id g.id) =
      some (mappingPath p.id g.id,
        ⟨p.id, g.id, g.qurlId, g.resourceId, some g.resourceCrid, some g.upstreamScope⟩) := by
  rw [Restored.unharmed, Table.find?_insertOrReplace, if_pos rfl, h.createdMapping_eq]

/-- With the guest's scope, the saved mapping deletes no single qURL. -/
theorem Restored.Durable.not_retires_qurl (h : d.Durable p g) (hscope : g.upstreamScope = .guest)
    (r q : String) : ¬ Retires cfg p.id g.id (d.unharmed p g) (.qurl r q) := by
  intro ho
  have hnot := retires_only (P := fun o => ∃ crid, o = .resource crid) h.find?_unharmed ?_ ho
  · obtain ⟨crid, hc⟩ := hnot
    cases hc
  · rw [retireMapped, hscope]
    exact asks_revoke (fun crid => ⟨crid, rfl⟩) _ _ _ _

/-- With the page's, it deletes the qURL under the CRID, where there is one. -/
theorem Restored.Durable.retires_unharmed (h : d.Durable p g) (hscope : g.upstreamScope = .page)
    (o : Upstream) : Retires cfg p.id g.id (d.unharmed p g) o ↔
      o = .qurl (if g.resourceCrid = "" then g.resourceId else g.resourceCrid) g.qurlId := by
  have hstrip : strip (if g.resourceCrid = "" then g.resourceId else g.resourceCrid) =
      if g.resourceCrid = "" then g.resourceId else g.resourceCrid := by
    split
    · exact strip_resourceId g
    · exact g.stripped _ (by simp)
  have hne : (if g.resourceCrid = "" then g.resourceId else g.resourceCrid) ≠ "" := by
    split
    · exact h.resourceId
    · assumption
  have hfind := h.find?_unharmed
  rw [hscope] at hfind
  constructor
  · refine fun ho => retires_only (P := (· = .qurl (if g.resourceCrid = "" then g.resourceId
      else g.resourceCrid) g.qurlId)) hfind ?_ ho
    show Prog.Asks _ (deleteQurl cfg.resourceId (if g.resourceCrid = "" then g.resourceId
      else g.resourceCrid) g.qurlId).run
    rw [deleteQurl_eq (by rw [if_neg hne, hstrip]) (strip_qurlId g)]
    generalize (if g.resourceCrid = "" then g.resourceId else g.resourceCrid) = r
    split
    · trivial
    · exact asks_ask fun o ho => by cases ho; rfl
  · rintro rfl
    exact retires_qurl hfind ⟨rfl, rfl⟩ nofun hstrip hne (strip_qurlId g) h.qurlId

theorem Restored.Durable.retires_iff (h : d.Durable p g) (hseeds : d.Seeds p g) :
    (∀ o, Retires cfg p.id g.id d.seeded o ↔ Retires cfg p.id g.id (d.unharmed p g) o) ↔
      g.upstreamScope = .page ∧ (g.resourceCrid = "" ∨ g.resourceCrid = g.resourceId) := by
  simp only [h.retires_seeded hseeds]
  cases hscope : g.upstreamScope with
  | guest =>
      refine iff_of_false (fun ho => ?_) nofun
      exact h.not_retires_qurl hscope _ _ ((ho (.qurl g.resourceId g.qurlId)).mp rfl)
  | page =>
      simp only [h.retires_unharmed hscope, true_and]
      constructor
      · intro ho
        have heq := (ho (.qurl g.resourceId g.qurlId)).mp rfl
        by_cases hc : g.resourceCrid = ""
        · exact Or.inl hc
        · rw [if_neg hc, Upstream.qurl.injEq] at heq
          exact Or.inr heq.1.symm
      · rintro hc o
        have : (if g.resourceCrid = "" then g.resourceId else g.resourceCrid) = g.resourceId := by
          rcases hc with hc | hc
          · rw [if_pos hc]
          · rw [hc, ite_self]
        rw [this]

/-- **When seeded mappings keep live grants live.** Every grant with
durable identifiers is live after the seeding, and deleting one whose
mapping the seeding created deletes what the saved mapping would have,
exactly if each has a mapping that agrees with the gateway, or the broker
does not compare them, and each whose mapping the seeding creates has the
page's scope and no CRID besides its resource. -/
theorem seeding_keeps_live_iff (cfg : Config) (d : Restored) :
    ((∀ p g, d.Durable p g → d.Live cfg p g) ∧
      ∀ p g, d.Durable p g → d.Seeds p g → ∀ o,
        Retires cfg p.id g.id d.seeded o ↔ Retires cfg p.id g.id (d.unharmed p g) o) ↔
    ∀ p g, d.Durable p g →
      (cfg.gatewayGrantsDir = false ∨ ∃ m, d.mapping p g = some m ∧ m.Agrees p.id g) ∧
      (d.Seeds p g → g.upstreamScope = .page ∧
        (g.resourceCrid = "" ∨ g.resourceCrid = g.resourceId)) := by
  constructor
  · rintro ⟨hlive, hretires⟩ p g h
    exact ⟨h.live_iff.mp (hlive p g h), fun hseeds => (h.retires_iff hseeds).mp
      (hretires p g h hseeds)⟩
  · intro hcond
    exact ⟨fun p g h => h.live_iff.mpr (hcond p g h).1, fun p g h hseeds =>
      (h.retires_iff hseeds).mpr ((hcond p g h).2 hseeds)⟩

theorem gateStored_tokenHash_re : Pages.tokenHashRe
    "0123456789abcdef0123456789abcdef0123456789abcdef0123456789abcdef" = true := by decide

/-- An invitation to the gate. -/
def gateStored : Grant where
  id := gateGrant
  tokenHash := "0123456789abcdef0123456789abcdef0123456789abcdef0123456789abcdef"
  createdAt := "2026-01-01T00:00:00+00:00"
  expiresAt := "2026-02-01T00:00:00+00:00"
  label := "Guest"
  lifetime := "1h"
  oneTimeUse := false
  qurlLink := "link"
  qurlSite := ""
  resourceId := "key"
  qurlId := "q_0123456789a"
  type := ""
  verificationRequired := false
  notifications := ⟨[], []⟩
  targetPathApplied := true
  resourceCrid := "aaaaaaaaaaaaaaaaaaaaaaaaaaaaaaaaaaaaaaaa"
  upstreamScope := .page
  id_re := by decide
  tokenHash_re := gateStored_tokenHash_re
  stripped := by decide

def gatePage : Page where
  id := "gate"
  title := "Gate"
  description := ""
  proximity := ⟨false, 500, Pages.radius_bounds⟩
  resources := []
  accessGrants := [gateStored]
  id_re := by decide

/-- The gateway's page and its invitation, and a broker whose data directory
was lost. -/
def gateRestored : Restored where
  pages := [gatePage]
  world := { World.empty with gateway.pages := gatewayView [gatePage] }
  pages_nodup := by decide
  grants_nodup := by decide
  gateway_pages := rfl

theorem gateRestored_durable : gateRestored.Durable gatePage gateStored :=
  ⟨List.mem_singleton_self _, List.mem_singleton_self _, by decide, by decide⟩

/-- A live invitation is no longer taken for live. -/
theorem seeding_loses_gate :
    ¬((∀ p g, gateRestored.Durable p g → gateRestored.Live gateConfig p g) ∧
      ∀ p g, gateRestored.Durable p g → gateRestored.Seeds p g → ∀ o,
        Retires gateConfig p.id g.id gateRestored.seeded o ↔
          Retires gateConfig p.id g.id (gateRestored.unharmed p g) o) := by
  rintro ⟨hlive, -⟩
  rcases gateRestored_durable.live_iff.mp (hlive gatePage gateStored gateRestored_durable) with
    hdir | ⟨m, hm, -⟩
  · cases hdir
  · cases hm

end LayerV

end AccessPages
