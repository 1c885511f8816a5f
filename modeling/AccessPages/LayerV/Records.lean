import AccessPages.LayerV.Walk
/-!
# LayerV — how the records hang together

What is true of the broker's four records, taken together with LayerV, at
every moment of every run in which each grant is asked for once: an
invitation belongs to a row of the resource database, a mapping describes
an invitation, a row of the journal is about the invitation of its grant
or about none. `base_step` proves it once for all questions.
-/

namespace AccessPages

namespace LayerV

open Pages (UpstreamScope grantIdRe)

/-! ## File names -/

theorem length_grantId {s : String} (h : grantIdRe s = true) : s.toList.length = 22 := by
  simp only [grantIdRe, matchesClass, Bool.and_eq_true, decide_eq_true_eq] at h
  obtain ⟨hlead, ⟨hlo, hhi⟩, -⟩ := h
  have hlead := congrArg List.length hlead
  rw [List.length_take, show "grant_".toList.length = 6 from rfl] at hlead
  rw [List.length_drop] at hlo hhi
  omega

/-- Two grants do not share a file. -/
theorem mappingPath_injective {page page' grantId grantId' : String}
    (hg : grantIdRe grantId = true) (hg' : grantIdRe grantId' = true)
    (h : mappingPath page grantId = mappingPath page' grantId') :
    page = page' ∧ grantId = grantId' := by
  have h := congrArg String.toList h
  simp only [mappingPath, String.toList_append] at h
  have h := List.append_cancel_right h
  obtain ⟨hp, hid⟩ := List.append_inj' h (by rw [length_grantId hg, length_grantId hg'])
  exact ⟨String.toList_inj.mp (List.append_cancel_right hp), String.toList_inj.mp hid⟩

/-! ## The invariant -/

/-- **The records of the broker and what is upstream.** `U` are the grants
that were asked for. -/
structure World.Base (U : String → Prop) (w : World) : Prop where
  registry : w.registry.Inv
  owner : ∀ r ∈ w.registry.resources, grantIdRe r.grantId = true → U r.grantId
  mint : ∀ m ∈ w.mints, U m.grantId ∧ grantIdRe m.grantId = true ∧
    strip m.resource = m.resource ∧ m.resource ≠ ""
  created : ∀ i ∈ w.cloud.created, U i.grantId ∧ grantIdRe i.grantId = true ∧
    strip i.qurlId = i.qurlId
  /-- An invitation is on the resource of its guest, or on a pool of its
  page. -/
  row : ∀ i ∈ w.cloud.created, ∃ r ∈ w.registry.resources, r.crid = some i.resource ∧
    r.page = i.page ∧ Owns i.scope r.grantId i.grantId
  pool : ∀ i ∈ w.cloud.created, i.scope = .page → ∀ r ∈ w.registry.resources,
    r.grantId ≠ i.grantId
  grant_unique : ∀ i ∈ w.cloud.created, ∀ j ∈ w.cloud.created, i.grantId = j.grantId → i = j
  qurl_unique : ∀ i ∈ w.cloud.created, ∀ j ∈ w.cloud.created,
    i.resource = j.resource → i.qurlId = j.qurlId → i = j
  /-- The journal is about invitations on page pools. -/
  journal : ∀ m ∈ w.mints, ∀ i ∈ w.cloud.created, i.grantId = m.grantId →
    m.page = i.page ∧ i.scope = .page ∧ m.resource = i.resource ∧ m.label = i.label
  listed : ∀ i ∈ w.cloud.invitations, i ∈ w.cloud.created ∧
    (i.resource, i.qurlId) ∉ w.cloud.deletedQurls
  deleted : ∀ p ∈ w.cloud.deletedQurls, ∃ i ∈ w.cloud.created, i.resource = p.1 ∧ i.qurlId = p.2
  mapping : ∀ p ∈ w.mappings, p.1 = mappingPath p.2.pageId p.2.grantId ∧
    ∃ i ∈ w.cloud.created, p.2.Describes i

theorem World.Base.empty (U : String → Prop) : World.empty.Base U where
  registry := Registry.Inv.empty
  owner := nofun
  mint := nofun
  created := nofun
  row := nofun
  pool := nofun
  grant_unique := nofun
  qurl_unique := nofun
  journal := nofun
  listed := nofun
  deleted := nofun
  mapping := nofun

theorem World.Base.mono {U V : String → Prop} {w : World} (h : w.Base U) (hUV : ∀ g, U g → V g) :
    w.Base V :=
  { h with
    owner := fun r hr hg => hUV _ (h.owner r hr hg)
    mint := fun m hm => ⟨hUV _ (h.mint m hm).1, (h.mint m hm).2⟩
    created := fun i hi => ⟨hUV _ (h.created i hi).1, (h.created i hi).2⟩ }

/-- What a caller may know of the grants. -/
structure Side.Knows (S : Side) (U : String → Prop) : Prop where
  reset : ¬ S.reset
  used : ∀ g, S.used g → U g
  owner : ∀ g c, S.owner g c → U g ∧ ∀ i ∈ c.created, i.grantId ≠ g

section Base

variable {U : String → Prop} {S : Side} {w : World}

/-- The file of a grant holds its mapping. -/
theorem World.Base.mapped (h : w.Base U) {page grantId : String} {m : Mapping}
    (hm : w.Mapped page grantId m) (hg : grantIdRe grantId = true) :
    m.pageId = page ∧ m.grantId = grantId ∧ ∃ i ∈ w.cloud.created, m.Describes i := by
  obtain ⟨hpath, i, hi, hd⟩ := h.mapping _ hm
  have hre : grantIdRe m.grantId = true := hd.grantId ▸ (h.created i hi).2.1
  obtain ⟨hp, hid⟩ := mappingPath_injective hg hre hpath
  exact ⟨hp.symm, hid.symm, i, hi, hd⟩

/-- The mapping under the identifiers of an invitation describes it. -/
theorem World.Base.describes (h : w.Base U) {m : Mapping} {i : Invitation}
    (hm : w.Mapped i.page i.grantId m) (hi : i ∈ w.cloud.created) : m.Describes i := by
  obtain ⟨-, hid, j, hj, hd⟩ := h.mapped hm (h.created i hi).2.1
  obtain rfl := h.grant_unique j hj i hi (hd.grantId.symm.trans hid)
  exact hd

/-! ## What others do -/

theorem World.Base.same {w' : World} (h : w.Base U) (hs : w.Same w') : w'.Base U := by
  obtain ⟨g, m, p, v, c, y, o, l⟩ := w
  obtain ⟨g', m', p', v', c', y', o', l'⟩ := w'
  obtain ⟨rfl, rfl, rfl, rfl, rfl⟩ := hs
  exact { h with }

/-! ## The resource database -/

/-- Where the rows after a transaction come from. -/
theorem RegistryOp.perform_rows {g : Registry} (now : Instant) (e : RegistryOp) (hg : g.Inv)
    (hpre : e.Pre g) (hne : e ≠ .invalidate) {s : Resource}
    (hs : s ∈ (e.perform now g).2.resources) :
    (∃ page c t, e = .insert page s.grantId c t ∧ s.crid = none ∧ s.phase = .creating) ∨
    ∃ r ∈ g.resources, r.Moves False s ∧
      (s.phase = .revoked → r.phase = .revoked ∨
        e = .finishRetire s.page s.grantId ∧ r.grantId = s.grantId) := by
  have same : s ∈ g.resources → ∃ r ∈ g.resources, r.Moves False s ∧
      (s.phase = .revoked → r.phase = .revoked ∨
        e = .finishRetire s.page s.grantId ∧ r.grantId = s.grantId) :=
    fun hs => ⟨s, hs, .refl s, .inl⟩
  have change : ∀ {r u : Resource}, g.Changes (e.perform now g).2 r u → r ∈ g.resources →
      r.Moves False u →
      (u.phase = .revoked → r.phase = .revoked ∨
        e = .finishRetire u.page u.grantId ∧ r.grantId = u.grantId) →
      ∃ r ∈ g.resources, r.Moves False s ∧
        (s.phase = .revoked → r.phase = .revoked ∨
          e = .finishRetire s.page s.grantId ∧ r.grantId = s.grantId) := by
    intro r u hchange hr hm hrev
    rcases (hchange s).mp hs with ⟨hs, -⟩ | rfl
    · exact same hs
    · exact ⟨r, hr, hm, hrev⟩
  cases e with
  | generation page revoked =>
      refine .inr ?_
      cases revoked with
      | false => exact same hs
      | true =>
          obtain ⟨r, hr, hat, -⟩ := hpre
          obtain ⟨g', hput, hchange, -, -⟩ := exists_putAway hg hr hat
          have hg' : ((RegistryOp.generation page true).perform now g).2 = g' := by
            simp only [RegistryOp.perform, hput, if_true]
          rw [← hg'] at hchange
          exact change hchange hr ⟨rfl, rfl, rfl, .inr ⟨hat.2, _, rfl⟩, .stay _, .inl rfl⟩ .inl
  | insert page owner connectorId target =>
      simp only [RegistryOp.perform] at hs
      split at hs
      · exact .inr (same hs)
      split at hs
      · rename_i t ht
        rcases ((Table.insert_eq_some ht).2 s).mp hs with hs | rfl
        · exact .inr (same hs)
        · exact .inl ⟨page, connectorId, target, rfl, rfl, rfl⟩
      · exact .inr (same hs)
  | bind page owner crid publicKey =>
      obtain ⟨-, -, r, hr, hat, hphase⟩ := hpre
      refine .inr ?_
      by_cases hfree : g.resources.rows.any fun r =>
          r.crid = some crid ∧ ¬(r.page = page ∧ r.grantId = owner)
      · simp only [RegistryOp.perform, if_pos hfree] at hs
        exact same hs
      · refine change (r := r)
          (u := { r with crid := some crid, publicKey := some publicKey, phase := .ready }) ?_ hr
          ⟨rfl, rfl, rfl, .inl rfl, hphase ▸ .publish, .inr ⟨hg.creating r hr hphase, hphase, rfl⟩⟩
          (by rintro ⟨⟩)
        simp only [RegistryOp.perform, if_neg hfree]
        exact changes_setResource hr hat
  | beginRetire page grantId crid qurlId =>
      obtain ⟨r, hr, hat, hcrid, hphase⟩ := hpre
      exact .inr (change (r := r) (u := { r with phase := .retiring }) (changes_setPhase hr hat) hr
        ⟨rfl, rfl, rfl, .inl rfl, hg.moves_retiring hr hcrid hphase _, .inl rfl⟩ (by rintro ⟨⟩))
  | finishRetire page grantId =>
      obtain ⟨r, hr, hat, hphase⟩ := hpre
      refine .inr (change (r := r) (u := { r with phase := .revoked }) (changes_setPhase hr hat) hr
        ⟨rfl, rfl, rfl, .inl rfl, hphase ▸ .finish, .inl rfl⟩ fun _ => .inr ⟨?_, rfl⟩)
      rw [show r.page = page from hat.1, show r.grantId = grantId from hat.2]
  | selectRetirements =>
      rw [selectRetirements_eq now hg] at hs
      exact .inr (same hs)
  | selectOrphans graceSeconds =>
      simp only [RegistryOp.perform] at hs
      split at hs <;> exact .inr (same hs)
  | postponeOrphan page grantId delay rateLimited =>
      simp only [RegistryOp.perform, Table.mem_updateWhere] at hs
      obtain ⟨r, hr, rfl⟩ := hs
      refine .inr ⟨r, hr, ?_⟩
      split
      · exact ⟨⟨rfl, rfl, rfl, .inl rfl, .stay _, .inl rfl⟩, .inl⟩
      · exact ⟨.refl r, .inl⟩
  | invalidate => exact absurd rfl hne
  | _ => exact .inr (same hs)

/-- An owner keeps owning while its row moves. -/
theorem Owns.moves {scope : UpstreamScope} {r s : Resource} {reset : Prop} {grantId : String}
    (h : Owns scope r.grantId grantId) (hg : grantIdRe grantId = true) (hm : r.Moves reset s) :
    Owns scope s.grantId grantId := by
  rcases hm.name with hn | ⟨hpage, k, hn⟩ <;> rw [hn]
  · exact h
  · cases scope with
    | guest =>
        rw [show grantId = r.grantId from h.symm, hpage, grantIdRe_page] at hg
        cases hg
    | page => exact grantIdRe_retiredName k

theorem World.Base.registry_perform (hS : S.Knows U) (h : w.Base U) (now : Instant)
    (e : RegistryOp) (hpre : e.Pre w.registry) (hknown : e.Known S w) :
    World.Base U { w with registry := (e.perform now w.registry).2 } := by
  obtain ⟨hinv, hmoves, -⟩ := RegistryOp.perform_inv now e h.registry hpre
  have hne : e ≠ .invalidate := by
    rintro rfl
    exact hS.reset hknown
  refine { h with registry := hinv, owner := ?_, row := ?_, pool := ?_ }
  · intro s hs hg
    rcases RegistryOp.perform_rows now e h.registry hpre hne hs with
      ⟨page, c, t, rfl, -⟩ | ⟨r, hr, hm, -⟩
    · refine (hS.owner _ _ (hknown ?_)).1
      rintro he
      rw [he, grantIdRe_page] at hg
      cases hg
    · rcases hm.name with hn | ⟨-, k, hn⟩
      · exact hn ▸ h.owner r hr (hn ▸ hg)
      · rw [hn, grantIdRe_retiredName] at hg
        cases hg
  · intro i hi
    obtain ⟨r, hr, hc, hp, ho⟩ := h.row i hi
    obtain ⟨s, hs, hm⟩ := hmoves.kept r hr
    refine ⟨s, hs, ?_, hm.page.trans hp, ho.moves (h.created i hi).2.1 hm⟩
    rcases hm.crid with hcrid | ⟨hnone, -⟩
    · exact hcrid.trans hc
    · rw [hnone] at hc
      cases hc
  · intro i hi hscope s hs heq
    have hre := (h.created i hi).2.1
    rcases RegistryOp.perform_rows now e h.registry hpre hne hs with
      ⟨page, c, t, rfl, -⟩ | ⟨r, hr, hm, -⟩
    · refine (hS.owner _ _ (hknown ?_)).2 i hi heq.symm
      intro he
      rw [← heq, he, grantIdRe_page] at hre
      cases hre
    · rcases hm.name with hn | ⟨-, k, hn⟩
      · exact h.pool i hi hscope r hr (hn.symm.trans heq)
      · rw [← heq, hn, grantIdRe_retiredName] at hre
        cases hre

/-! ## Invitations -/

/-- The invitation a request creates. -/
def newInvitation (t : Tick) (crid : String) (scope : UpstreamScope) (page grantId : String)
    (wanted : Wanted) : Invitation :=
  ⟨crid, strip t.minted.qurlId, wanted.label, page, grantId, scope, t.effective.oneTimeUse,
    t.effective.sessionSeconds, t.effective.targetPath⟩

theorem create_cases (c : Cloud) (t : Tick) (crid : String) (scope : UpstreamScope)
    (page grantId : String) (wanted : Wanted) :
    c.create t crid scope page grantId wanted = none ∨
      (∀ i ∈ c.created, i.resource = crid →
        i.qurlId ≠ (newInvitation t crid scope page grantId wanted).qurlId) ∧
      c.create t crid scope page grantId wanted = some { c with
        created := newInvitation t crid scope page grantId wanted :: c.created
        invitations := c.invitations ++ [newInvitation t crid scope page grantId wanted] } := by
  unfold Cloud.create
  simp only
  split
  · exact .inl rfl
  · rename_i hany
    refine .inr ⟨fun i hi hr hq => hany ?_, rfl⟩
    exact List.any_eq_true.mpr ⟨i, hi, decide_eq_true ⟨hr, hq⟩⟩

theorem World.Base.mint_apply (hS : S.Knows U) (h : w.Base U) (t : Tick) {crid : String}
    {scope : UpstreamScope} {page grantId : String} {wanted : Wanted}
    (hpre : (Op.mint crid scope page grantId wanted).Pre S w) :
    ((Op.mint crid scope page grantId wanted).apply t w).Base U := by
  obtain ⟨hused, hre, hnew, hrow, hjournal, hpool⟩ := hpre
  rcases create_cases w.cloud t crid scope page grantId wanted with he | ⟨hfree, he⟩ <;>
    simp only [Op.apply, he, Option.getD_none, Option.getD_some]
  · exact h
  generalize hi : newInvitation t crid scope page grantId wanted = i at hfree
  have hresource : i.resource = crid := hi ▸ rfl
  have hid : i.grantId = grantId := hi ▸ rfl
  have hscope : i.scope = scope := hi ▸ rfl
  have hpage : i.page = page := hi ▸ rfl
  have hlabel : i.label = wanted.label := hi ▸ rfl
  refine { h with
    created := ?_, row := ?_, pool := ?_, grant_unique := ?_, qurl_unique := ?_, journal := ?_,
    listed := ?_, deleted := ?_, mapping := ?_ }
  · intro j hj
    rcases List.mem_cons.mp hj with rfl | hj
    · exact ⟨hid ▸ hS.used _ hused, hid ▸ hre, hi ▸ strip_strip _⟩
    · exact h.created j hj
  · intro j hj
    rcases List.mem_cons.mp hj with rfl | hj
    · rwa [hresource, hpage, hscope, hid]
    · exact h.row j hj
  · intro j hj hs
    rcases List.mem_cons.mp hj with rfl | hj
    · rw [hid]
      exact (hpool (hscope.symm.trans hs)).2
    · exact h.pool j hj hs
  · intro j hj k hk hjk
    rcases List.mem_cons.mp hj with rfl | hj' <;> rcases List.mem_cons.mp hk with rfl | hk'
    · rfl
    · exact absurd (hjk.symm.trans hid) (hnew k hk')
    · exact absurd (hjk.trans hid) (hnew j hj')
    · exact h.grant_unique j hj' k hk' hjk
  · intro j hj k hk hr hq
    rcases List.mem_cons.mp hj with rfl | hj' <;> rcases List.mem_cons.mp hk with rfl | hk'
    · rfl
    · exact absurd hq.symm (hfree k hk' (hr.symm.trans hresource))
    · exact absurd hq (hfree j hj' (hr.trans hresource))
    · exact h.qurl_unique j hj' k hk' hr hq
  · intro m hm j hj hjm
    rcases List.mem_cons.mp hj with rfl | hj
    · rw [hpage, hscope, hresource, hlabel]
      exact hjournal m hm (hjm.symm.trans hid)
    · exact h.journal m hm j hj hjm
  · intro j hj
    rcases List.mem_append.mp hj with hj | hj
    · exact ⟨List.mem_cons_of_mem _ (h.listed j hj).1, (h.listed j hj).2⟩
    · obtain rfl := List.mem_singleton.mp hj
      refine ⟨List.mem_cons_self, fun hdel => ?_⟩
      obtain ⟨k, hk, hr, hq⟩ := h.deleted _ hdel
      exact hfree k hk (hr.trans hresource) hq
  · intro p hp
    obtain ⟨k, hk, hkp⟩ := h.deleted p hp
    exact ⟨k, List.mem_cons_of_mem _ hk, hkp⟩
  · intro p hp
    obtain ⟨hpath, k, hk, hd⟩ := h.mapping p hp
    exact ⟨hpath, k, List.mem_cons_of_mem _ hk, hd⟩

/-- A request upstream that is applied. -/
theorem World.Base.apply (hS : S.Knows U) (h : w.Base U) (t : Tick) {e : Op} (hpre : e.Pre S w) :
    (e.apply t w).Base U := by
  cases e with
  | publish connectorId target => exact { h with }
  | mint crid scope page grantId wanted => exact h.mint_apply hS t hpre
  | deleteQurl resource qurlId =>
      exact { h with listed := fun i hi => h.listed i (List.mem_filter.mp hi).1 }
  | deleteResource crid =>
      exact { h with listed := fun i hi => h.listed i (List.mem_filter.mp hi).1 }
  | cleanup crid =>
      exact { h with listed := fun i hi => h.listed i (List.mem_filter.mp hi).1 }
  | _ => exact h

theorem World.Base.prepareMint_perform (hS : S.Knows U) (h : w.Base U) (t : Tick)
    {page grantId resource label : String}
    (hpre : (Op.prepareMint page grantId resource label).Pre S w) :
    ((Op.prepareMint page grantId resource label).perform t w).2.Base U := by
  obtain ⟨hused, hre, hstrip, hne, hnew, -⟩ := hpre
  refine { h with mint := ?_, journal := ?_ }
  · intro m hm
    rcases Table.mem_insertOrIgnore.mp hm with hm | ⟨rfl, -⟩
    · exact h.mint m hm
    · exact ⟨hS.used _ hused, hre, hstrip, hne⟩
  · intro m hm i hi him
    rcases Table.mem_insertOrIgnore.mp hm with hm | ⟨rfl, -⟩
    · exact h.journal m hm i hi him
    · exact absurd him (hnew i hi)

theorem World.Base.postponeMint_perform (h : w.Base U) (t : Tick) {page grantId : String}
    {delay : Int} : ((Op.postponeMint page grantId delay).perform t w).2.Base U := by
  have hrow : ∀ m ∈ ((Op.postponeMint page grantId delay).perform t w).2.mints,
      ∃ n ∈ w.mints, n.page = m.page ∧ n.grantId = m.grantId ∧ n.resource = m.resource ∧
        n.label = m.label := by
    intro m hm
    simp only [Op.perform, Table.mem_updateWhere] at hm
    obtain ⟨n, hn, rfl⟩ := hm
    refine ⟨n, hn, ?_⟩
    split <;> exact ⟨rfl, rfl, rfl, rfl⟩
  refine { h with mint := ?_, journal := ?_ }
  · intro m hm
    obtain ⟨n, hn, -, hid, hr, -⟩ := hrow m hm
    have := h.mint n hn
    rwa [hid, hr] at this
  · intro m hm i hi him
    obtain ⟨n, hn, hp, hid, hr, hl⟩ := hrow m hm
    have := h.journal n hn i hi (him.trans hid.symm)
    rwa [hp, hr, hl] at this

/-- A question that is answered. -/
theorem World.Base.perform (hS : S.Knows U) (h : w.Base U) (t : Tick) {e : Op}
    (hpre : e.Pre S w) : (e.perform t w).2.Base U := by
  cases e with
  | registry e => exact h.registry_perform hS t.now e hpre.1 hpre.2
  | prepareMint page grantId resource label => exact h.prepareMint_perform hS t hpre
  | postponeMint page grantId delay => exact h.postponeMint_perform t
  | completeMint page grantId =>
      exact { h with
        mint := fun m hm => h.mint m (Table.mem_deleteWhere.mp hm).1
        journal := fun m hm => h.journal m (Table.mem_deleteWhere.mp hm).1 }
  | writeMapping m =>
      refine { h with mapping := fun p hp => ?_ }
      rcases Table.mem_insertOrReplace.mp hp with ⟨hp, -⟩ | rfl
      · exact h.mapping p hp
      · exact ⟨rfl, hpre.2⟩
  | unlinkMapping page grantId =>
      exact { h with mapping := fun p hp => h.mapping p (Table.mem_deleteWhere.mp hp).1 }
  | deleteQurl resource qurlId =>
      refine { h.apply hS t hpre with listed := fun i hi => ?_, deleted := fun p hp => ?_ }
      · obtain ⟨hi, hne⟩ := List.mem_filter.mp hi
        refine ⟨(h.listed i hi).1, fun hdel => ?_⟩
        rcases List.mem_cons.mp hdel with he | hdel
        · rw [Prod.mk.injEq] at he
          exact (of_decide_eq_true hne) he
        · exact (h.listed i hi).2 hdel
      · rcases List.mem_cons.mp hp with rfl | hp
        · exact hpre.2
        · exact h.deleted p hp
  | deleteResource crid => exact { h.apply hS t hpre with }
  | cleanup crid => exact { h.apply hS t hpre with }
  | publish connectorId target => exact h.apply hS t hpre
  | mint crid scope page grantId wanted => exact h.apply hS t hpre
  | insertRevocation page grantId => exact { h with }
  | postponeRevocation page grantId delay => exact { h with }
  | deleteRevocation page grantId => exact { h with }
  | mappingExists page grantId => exact { h with }
  | loadPolicy page => exact { h with }
  | loadGateway page => exact { h with }
  | _ => exact h

/-- **One question keeps the records together.** -/
theorem stable_base (hS : S.Knows U) : Stable S (World.Base U) := by
  refine ⟨fun w h => h.registry, fun t e w h hpre => ?_⟩
  have hmeet := h.same (same_meet t w)
  have hpre := hpre.same (same_meet t w)
  rcases step_cases t e w with he | he | he <;> rw [he]
  · exact hmeet
  · exact hmeet.apply hS t hpre
  · exact hmeet.perform hS t hpre

end Base

end LayerV

end AccessPages
