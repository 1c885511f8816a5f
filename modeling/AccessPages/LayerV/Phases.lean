import AccessPages.LayerV.Grants
/-!
# LayerV — the phases of a resource

What a committed transaction may do to the resource database. Every
transaction but one changes a single row, so the invariant is proved once
for such a change (`Registry.Inv.change`) and each transaction says which
row it changes and how. `RegistryOp.Pre` is what the methods know when
they ask for one.
-/

namespace AccessPages

namespace LayerV

open Pages (UpstreamScope grantIdRe)

/-! ## Names -/

theorem retiredName_toList (k : Nat) :
    (retiredName k).toList = "__retired_page_".toList ++ (Nat.toDigits 10 k ++ "__".toList) := by
  unfold retiredName
  rw [String.toList_append, String.toList_append, List.append_assoc]
  congr 2
  exact Nat.toList_repr

theorem retiredName_injective {j k : Nat} (h : retiredName j = retiredName k) : j = k := by
  have h := congrArg String.toList h
  rw [retiredName_toList, retiredName_toList] at h
  have h := List.append_cancel_right (List.append_cancel_left h)
  rw [← Nat.ofDigitChars_ten_toDigits (n := j), h, Nat.ofDigitChars_ten_toDigits]

theorem head_grantId {s : String} (h : grantIdRe s = true) : s.toList.head? = some 'g' := by
  simp only [grantIdRe, Bool.and_eq_true, decide_eq_true_eq] at h
  have := congrArg List.head? h.1
  rwa [List.head?_take] at this

theorem grantIdRe_retiredName (k : Nat) : grantIdRe (retiredName k) = false := by
  rw [Bool.eq_false_iff]
  intro h
  have := head_grantId h
  rw [retiredName_toList] at this
  simp at this

theorem grantIdRe_page : grantIdRe "__page__" = false := by decide

theorem retiredName_ne_page (k : Nat) : retiredName k ≠ "__page__" := by
  intro h
  have := congrArg String.toList h
  rw [retiredName_toList] at this
  simp at this

/-! ## The invariant -/

/-- The row is under the key. -/
def Resource.At (r : Resource) (page grantId : String) : Prop := r.page = page ∧ r.grantId = grantId

/-- **The invariant of the resource database.** -/
structure Registry.Inv (g : Registry) : Prop where
  /-- A connector identifier names one row, and so does a CRID. -/
  connector_unique : ∀ r ∈ g.resources, ∀ s ∈ g.resources, r.connectorId = s.connectorId → r = s
  crid_unique : ∀ r ∈ g.resources, ∀ s ∈ g.resources, ∀ c,
    r.crid = some c → s.crid = some c → r = s
  crid_re : ∀ r ∈ g.resources, ∀ c, r.crid = some c → cridRe c = true
  public_key : ∀ r ∈ g.resources, ∀ k, r.publicKey = some k → strip k = k ∧ k ≠ ""
  /-- A row has its CRID from when it is ready. -/
  creating : ∀ r ∈ g.resources, r.phase = .creating → r.crid = none
  bound : ∀ r ∈ g.resources, r.phase = .ready ∨ r.phase = .retiring → ∃ c, r.crid = some c
  /-- The rows that are retiring are the ones with a retirement. -/
  retiring : ∀ r ∈ g.resources, r.phase = .retiring →
    ∃ q ∈ g.retirements, q.page = r.page ∧ q.grantId = r.grantId
  retirement : ∀ q ∈ g.retirements, ∃ r ∈ g.resources,
    r.At q.page q.grantId ∧ r.crid = some q.crid ∧ r.phase = .retiring
  /-- A pool that was put away has the number of an earlier generation. -/
  retired_lt : ∀ r ∈ g.resources, ∀ k, r.grantId = retiredName k → k < g.generation r.page
  active : ∀ r ∈ g.resources, r.phase = .creating ∨ r.phase = .ready →
    r.grantId = "__page__" ∨ grantIdRe r.grantId = true

theorem Registry.Inv.empty : Registry.Inv ⟨.empty, .empty, .empty, none⟩ := by
  constructor <;>
  · intro r hr
    exact absurd hr List.not_mem_nil

/-- A key names one row. -/
theorem Resource.At.unique {g : Registry} {r s : Resource} (hr : r ∈ g.resources)
    (hs : s ∈ g.resources) {page grantId : String} (h : r.At page grantId)
    (h' : s.At page grantId) : r = s :=
  Table.eq_of_key_eq hr hs (Prod.ext (h.1.trans h'.1.symm) (h.2.trans h'.2.symm))

theorem find?_resources {g : Registry} {page grantId : String} {r : Resource} :
    g.resources.find? (page, grantId) = some r ↔ r ∈ g.resources ∧ r.At page grantId := by
  rw [Table.find?_eq_some, Prod.mk.injEq]
  rfl

theorem find?_resources_none {g : Registry} {page grantId : String} :
    g.resources.find? (page, grantId) = none ↔ ∀ r ∈ g.resources, ¬ r.At page grantId := by
  rw [Table.find?_eq_none]
  exact forall₂_congr fun r _ => by rw [Ne, Prod.mk.injEq]; rfl

/-- The moves between phases; the last only on a reset. -/
inductive Phase.Moves (reset : Prop) : Phase → Phase → Prop where
  | stay (p : Phase) : Moves reset p p
  | publish : Moves reset .creating .ready
  | retire : Moves reset .ready .retiring
  | finish : Moves reset .retiring .revoked
  | discard (h : reset) : Moves reset .creating .revoked

/-- What may become of a row: it moves by one phase at most, and its CRID is
what it was, or set as it becomes ready. Its name changes when its pool is
put away. -/
structure Resource.Moves (reset : Prop) (r s : Resource) : Prop where
  connectorId : s.connectorId = r.connectorId
  page : s.page = r.page
  target : s.target = r.target
  name : s.grantId = r.grantId ∨ (r.grantId = "__page__" ∧ ∃ k, s.grantId = retiredName k)
  phase : Phase.Moves reset r.phase s.phase
  crid : s.crid = r.crid ∨ (r.crid = none ∧ r.phase = .creating ∧ s.phase = .ready)

theorem Resource.Moves.refl {reset : Prop} (r : Resource) : r.Moves reset r :=
  ⟨rfl, rfl, rfl, .inl rfl, .stay _, .inl rfl⟩

/-- Every row is kept and moves; a row that is new is being created. -/
structure Registry.Moves (reset : Prop) (g g' : Registry) : Prop where
  kept : ∀ r ∈ g.resources, ∃ s ∈ g'.resources, r.Moves reset s
  fresh : ∀ s ∈ g'.resources, (∃ r ∈ g.resources, r.Moves reset s) ∨
    (s.phase = .creating ∧ s.crid = none)

theorem Registry.Moves.refl {reset : Prop} (g : Registry) : g.Moves reset g :=
  ⟨fun r hr => ⟨r, hr, .refl r⟩, fun s hs => .inl ⟨s, hs, .refl s⟩⟩

/-! ## Changing one row -/

/-- The rows of `g'` are those of `g`, with `r'` for `r`. -/
def Registry.Changes (g g' : Registry) (r r' : Resource) : Prop :=
  ∀ s, s ∈ g'.resources ↔ (s ∈ g.resources ∧ s ≠ r) ∨ s = r'

section Change

variable {g g' : Registry} {r r' : Resource} {reset : Prop}

theorem Registry.Changes.moves (h : g.Changes g' r r') (hr : r ∈ g.resources)
    (hm : r.Moves reset r') : g.Moves reset g' := by
  refine ⟨fun s hs => ?_, fun s hs => .inl ?_⟩
  · by_cases hsr : s = r
    · exact ⟨r', (h r').mpr (.inr rfl), hsr ▸ hm⟩
    · exact ⟨s, (h s).mpr (.inl ⟨hs, hsr⟩), .refl s⟩
  · rcases (h s).mp hs with ⟨hs, -⟩ | rfl
    · exact ⟨s, hs, .refl s⟩
    · exact ⟨r, hr, hm⟩

/-- What a change of one row must say of the row and of the retirements. -/
structure Registry.Lawful (g g' : Registry) (r r' : Resource) : Prop where
  moves : ∃ reset, r.Moves reset r'
  crid : r'.crid = r.crid ∨ ∃ c, r'.crid = some c ∧ cridRe c = true ∧
    ∀ s ∈ g.resources, s ≠ r → s.crid ≠ some c
  public_key : r'.publicKey = r.publicKey ∨
    ∃ k, r'.publicKey = some k ∧ strip k = k ∧ k ≠ ""
  creating : r'.phase = .creating → r'.crid = none
  bound : r'.phase = .ready ∨ r'.phase = .retiring → ∃ c, r'.crid = some c
  active : r'.phase = .creating ∨ r'.phase = .ready →
    r'.grantId = "__page__" ∨ grantIdRe r'.grantId = true
  name : ∀ k, r'.grantId = retiredName k → k < g'.generation r'.page
  generation : ∀ page, g.generation page ≤ g'.generation page
  /-- The other retirements stay, the row's own follows its phase. -/
  others : ∀ q ∈ g.retirements, ¬(q.page = r.page ∧ q.grantId = r.grantId) →
    ∃ q' ∈ g'.retirements, q'.page = q.page ∧ q'.grantId = q.grantId
  retiring : r'.phase = .retiring →
    ∃ q ∈ g'.retirements, q.page = r'.page ∧ q.grantId = r'.grantId
  retirement : ∀ q ∈ g'.retirements,
    (∃ q' ∈ g.retirements, q'.page = q.page ∧ q'.grantId = q.grantId ∧ q'.crid = q.crid ∧
      ¬(q.page = r.page ∧ q.grantId = r.grantId)) ∨
    (r'.At q.page q.grantId ∧ r'.crid = some q.crid ∧ r'.phase = .retiring)

/-- **A lawful change of one row keeps the invariant.** -/
theorem Registry.Inv.change (hg : g.Inv) (hr : r ∈ g.resources) (h : g.Changes g' r r')
    (hl : g.Lawful g' r r') : g'.Inv := by
  obtain ⟨reset, hm⟩ := hl.moves
  constructor
  · intro a ha b hb hab
    rcases (h a).mp ha with ⟨ha, har⟩ | rfl <;> rcases (h b).mp hb with ⟨hb, hbr⟩ | rfl
    · exact hg.connector_unique a ha b hb hab
    · exact absurd (hg.connector_unique a ha r hr (hab.trans hm.connectorId)) har
    · exact absurd (hg.connector_unique b hb r hr (hab.symm.trans hm.connectorId)) hbr
    · rfl
  · intro a ha b hb c hac hbc
    have hnew : ∀ s ∈ g.resources, s ≠ r → s.crid = some c → r'.crid ≠ some c := by
      intro s hs hsr hsc hrc
      rcases hl.crid with he | ⟨d, hd, -, hfree⟩
      · exact hsr (hg.crid_unique s hs r hr c hsc (he.symm.trans hrc))
      · obtain rfl : d = c := Option.some.inj (hd.symm.trans hrc)
        exact hfree s hs hsr hsc
    rcases (h a).mp ha with ⟨ha, har⟩ | rfl <;> rcases (h b).mp hb with ⟨hb, hbr⟩ | rfl
    · exact hg.crid_unique a ha b hb c hac hbc
    · exact absurd hbc (hnew a ha har hac)
    · exact absurd hac (hnew b hb hbr hbc)
    · rfl
  · intro a ha c hac
    rcases (h a).mp ha with ⟨ha, -⟩ | rfl
    · exact hg.crid_re a ha c hac
    · rcases hl.crid with he | ⟨d, hd, hre, -⟩
      · exact hg.crid_re r hr c (he.symm.trans hac)
      · exact Option.some.inj (hd.symm.trans hac) ▸ hre
  · intro a ha k hk
    rcases (h a).mp ha with ⟨ha, -⟩ | rfl
    · exact hg.public_key a ha k hk
    · rcases hl.public_key with he | ⟨k', hk', hre⟩
      · exact hg.public_key r hr k (he.symm.trans hk)
      · exact Option.some.inj (hk'.symm.trans hk) ▸ hre
  · intro a ha hp
    rcases (h a).mp ha with ⟨ha, -⟩ | rfl
    · exact hg.creating a ha hp
    · exact hl.creating hp
  · intro a ha hp
    rcases (h a).mp ha with ⟨ha, -⟩ | rfl
    · exact hg.bound a ha hp
    · exact hl.bound hp
  · intro a ha hp
    rcases (h a).mp ha with ⟨ha, har⟩ | rfl
    · obtain ⟨q, hq, hk⟩ := hg.retiring a ha hp
      obtain ⟨q', hq', hk'⟩ := hl.others q hq fun hqr =>
        har (Resource.At.unique ha hr ⟨hk.1.symm, hk.2.symm⟩ ⟨hqr.1.symm, hqr.2.symm⟩)
      exact ⟨q', hq', hk'.1.trans hk.1, hk'.2.trans hk.2⟩
    · exact hl.retiring hp
  · intro q hq
    rcases hl.retirement q hq with ⟨q', hq', hp, hi, hc, hne⟩ | hrow
    · obtain ⟨s, hs, hat, hsc, hsp⟩ := hg.retirement q' hq'
      rw [hp, hi] at hat
      refine ⟨s, (h s).mpr (.inl ⟨hs, ?_⟩), hat, hc ▸ hsc, hsp⟩
      rintro rfl
      exact hne ⟨hat.1.symm, hat.2.symm⟩
    · exact ⟨r', (h r').mpr (.inr rfl), hrow⟩
  · intro a ha k hk
    rcases (h a).mp ha with ⟨ha, -⟩ | rfl
    · exact lt_of_lt_of_le (hg.retired_lt a ha k hk) (hl.generation _)
    · exact hl.name k hk
  · intro a ha hp
    rcases (h a).mp ha with ⟨ha, -⟩ | rfl
    · exact hg.active a ha hp
    · exact hl.active hp

end Change

/-! ## Transactions -/

/-- What the methods know when they ask for a transaction. -/
def RegistryOp.Pre (g : Registry) : RegistryOp → Prop
  | generation page true => ∃ r ∈ g.resources, r.At page "__page__" ∧ r.phase = .revoked
  | insert page owner _ _ =>
      (∀ r ∈ g.resources, ¬ r.At page owner) ∧ (owner = "__page__" ∨ grantIdRe owner = true)
  | bind page owner crid publicKey =>
      cridRe crid = true ∧ (strip publicKey = publicKey ∧ publicKey ≠ "") ∧ ∃ r ∈ g.resources, r.At page owner ∧ r.phase = .creating
  | beginRetire page grantId crid _ =>
      ∃ r ∈ g.resources, r.At page grantId ∧ r.crid = some crid ∧ r.phase ≠ .revoked
  | finishRetire page grantId => ∃ r ∈ g.resources, r.At page grantId ∧ r.phase = .retiring
  | _ => True

section Transactions

variable {g : Registry} {r : Resource} {page grantId : String}

theorem changes_setResource {f : Resource → Resource}
    {hf : ∀ r, ((f r).page, (f r).grantId) = (r.page, r.grantId)} (hr : r ∈ g.resources)
    (hat : r.At page grantId) : g.Changes (g.setResource page grantId f hf) r (f r) := by
  intro s
  show s ∈ g.resources.updateWhere _ f hf ↔ _
  rw [Table.mem_updateWhere]
  constructor
  · rintro ⟨a, ha, rfl⟩
    by_cases h : a.page = page ∧ a.grantId = grantId
    · obtain rfl := Resource.At.unique ha hr h hat
      exact .inr (if_pos (by simpa using h))
    · rw [if_neg (by simpa using h)]
      refine .inl ⟨ha, ?_⟩
      rintro rfl
      exact h hat
  · rintro (⟨hs, hsr⟩ | rfl)
    · refine ⟨s, hs, if_neg ?_⟩
      rw [decide_eq_true_eq]
      exact fun h => hsr (Resource.At.unique hs hr h hat)
    · exact ⟨r, hr, if_pos (decide_eq_true (show r.page = page ∧ _ from hat))⟩

theorem changes_setPhase {phase : Phase} (hr : r ∈ g.resources) (hat : r.At page grantId) :
    g.Changes (g.setPhase page grantId phase) r { r with phase } :=
  changes_setResource hr hat

/-- Retirements only count by their key and CRID. -/
theorem Registry.Inv.congr {g' : Registry} (hg : g.Inv) (hres : g'.resources = g.resources)
    (hgen : g'.generations = g.generations)
    (hto : ∀ q ∈ g'.retirements, ∃ q' ∈ g.retirements,
      q'.page = q.page ∧ q'.grantId = q.grantId ∧ q'.crid = q.crid)
    (hof : ∀ q ∈ g.retirements, ∃ q' ∈ g'.retirements, q'.page = q.page ∧ q'.grantId = q.grantId) :
    g'.Inv := by
  constructor
  · rw [hres]; exact hg.connector_unique
  · rw [hres]; exact hg.crid_unique
  · rw [hres]; exact hg.crid_re
  · rw [hres]; exact hg.public_key
  · rw [hres]; exact hg.creating
  · rw [hres]; exact hg.bound
  · rw [hres]
    intro r hr hp
    obtain ⟨q, hq, hk⟩ := hg.retiring r hr hp
    obtain ⟨q', hq', hk'⟩ := hof q hq
    exact ⟨q', hq', hk'.1.trans hk.1, hk'.2.trans hk.2⟩
  · rw [hres]
    intro q hq
    obtain ⟨q', hq', hp, hi, hc⟩ := hto q hq
    obtain ⟨r, hr, hat, hrc, hrp⟩ := hg.retirement q' hq'
    rw [hp, hi] at hat
    exact ⟨r, hr, hat, hc ▸ hrc, hrp⟩
  · rw [hres]
    unfold Registry.generation
    rw [hgen]
    exact hg.retired_lt
  · rw [hres]; exact hg.active

/-- A retirement under the key of a row is that row's. -/
theorem Registry.Inv.own (hg : g.Inv) (hr : r ∈ g.resources) {q : Retirement}
    (hq : q ∈ g.retirements) (hp : q.page = r.page) (hi : q.grantId = r.grantId) :
    r.crid = some q.crid ∧ r.phase = .retiring := by
  obtain ⟨s, hs, hat, hc, hphase⟩ := hg.retirement q hq
  obtain rfl := Resource.At.unique hs hr hat ⟨hp.symm, hi.symm⟩
  exact ⟨hc, hphase⟩

theorem lawful_bind {crid publicKey : String} (hg : g.Inv) (hr : r ∈ g.resources)
    (hphase : r.phase = .creating) (hcrid : cridRe crid = true)
    (hkey : strip publicKey = publicKey ∧ publicKey ≠ "")
    (hfree : ∀ s ∈ g.resources, s ≠ r → s.crid ≠ some crid) :
    g.Lawful (g.setResource page grantId
      (fun r => { r with crid := some crid, publicKey := some publicKey, phase := .ready })
      fun _ => rfl) r { r with crid := some crid, publicKey := some publicKey, phase := .ready } where
  moves := ⟨False, rfl, rfl, rfl, .inl rfl, hphase ▸ .publish, .inr ⟨hg.creating r hr hphase, hphase, rfl⟩⟩
  crid := .inr ⟨crid, rfl, hcrid, hfree⟩
  public_key := .inr ⟨publicKey, rfl, hkey⟩
  creating := nofun
  bound _ := ⟨crid, rfl⟩
  active _ := hg.active r hr (.inl hphase)
  name := hg.retired_lt r hr
  generation _ := Nat.le_refl _
  others q hq _ := ⟨q, hq, rfl, rfl⟩
  retiring := nofun
  retirement q hq := by
    refine .inl ⟨q, hq, rfl, rfl, rfl, fun h => ?_⟩
    rw [(hg.own hr hq h.1 h.2).2] at hphase
    cases hphase

/-- A row with a CRID that is not revoked is ready or retiring. -/
theorem Registry.Inv.moves_retiring (hg : g.Inv) (hr : r ∈ g.resources) {crid : String}
    (hcrid : r.crid = some crid) (hphase : r.phase ≠ .revoked) (reset : Prop) :
    Phase.Moves reset r.phase .retiring := by
  cases hp : r.phase with
  | creating => rw [hg.creating r hr hp] at hcrid; cases hcrid
  | ready => exact .retire
  | retiring => exact .stay _
  | revoked => exact absurd hp hphase

theorem lawful_beginRetire {crid qurlId : String} {now : Instant} (hg : g.Inv)
    (hr : r ∈ g.resources) (hat : r.At page grantId) (hcrid : r.crid = some crid)
    (hphase : r.phase ≠ .revoked) :
    g.Lawful ((RegistryOp.beginRetire page grantId crid qurlId).perform now g).2 r
      { r with phase := .retiring } where
  moves := ⟨False, rfl, rfl, rfl, .inl rfl, hg.moves_retiring hr hcrid hphase _, .inl rfl⟩
  crid := .inl rfl
  public_key := .inl rfl
  creating := nofun
  bound _ := ⟨crid, hcrid⟩
  active := nofun
  name := hg.retired_lt r hr
  generation _ := Nat.le_refl _
  others q hq _ := by
    obtain ⟨q', hq', hk⟩ := Table.exists_key_updateWhere
      (p := fun q : Retirement => q.page = page ∧ q.grantId = grantId ∧ qurlId ≠ "")
      (f := fun q => { q with qurlId }) (fun _ => rfl)
      (Table.mem_insertOrIgnore_of_mem (r := ⟨page, grantId, crid, now, 0, "", false⟩) hq)
    exact ⟨q', hq', (Prod.mk.inj hk).1, (Prod.mk.inj hk).2⟩
  retiring _ := by
    obtain ⟨q, hq, hk⟩ := Table.exists_key_insertOrIgnore (t := g.retirements)
      (r := ⟨page, grantId, crid, now, 0, "", false⟩)
    obtain ⟨q', hq', hk'⟩ := Table.exists_key_updateWhere
      (p := fun q : Retirement => q.page = page ∧ q.grantId = grantId ∧ qurlId ≠ "")
      (f := fun q => { q with qurlId }) (fun _ => rfl) hq
    have hkey := Prod.mk.inj (hk'.trans hk)
    exact ⟨q', hq', hkey.1.trans hat.1.symm, hkey.2.trans hat.2.symm⟩
  retirement q hq := by
    simp only [RegistryOp.perform, Table.mem_updateWhere] at hq
    obtain ⟨q₀, hq₀, hsame⟩ := hq
    have hfields : q.page = q₀.page ∧ q.grantId = q₀.grantId ∧ q.crid = q₀.crid := by
      rw [← hsame]
      split <;> exact ⟨rfl, rfl, rfl⟩
    obtain ⟨hp, hi, hc⟩ := hfields
    rw [hp, hi, hc]
    rcases Table.mem_insertOrIgnore.mp hq₀ with hq₀ | ⟨rfl, -⟩
    · by_cases hkey : q₀.page = r.page ∧ q₀.grantId = r.grantId
      · exact .inr ⟨⟨hkey.1.symm, hkey.2.symm⟩, (hg.own hr hq₀ hkey.1 hkey.2).1, rfl⟩
      · exact .inl ⟨q₀, hq₀, rfl, rfl, rfl, hkey⟩
    · exact .inr ⟨hat, hcrid, rfl⟩

theorem lawful_finishRetire {now : Instant} (hg : g.Inv) (hr : r ∈ g.resources)
    (hat : r.At page grantId) (hphase : r.phase = .retiring) :
    g.Lawful ((RegistryOp.finishRetire page grantId).perform now g).2 r
      { r with phase := .revoked } where
  moves := ⟨False, rfl, rfl, rfl, .inl rfl, hphase ▸ .finish, .inl rfl⟩
  crid := .inl rfl
  public_key := .inl rfl
  creating := nofun
  bound := nofun
  active := nofun
  name := hg.retired_lt r hr
  generation _ := Nat.le_refl _
  others q hq hne := by
    refine ⟨q, Table.mem_deleteWhere.mpr ⟨hq, ?_⟩, rfl, rfl⟩
    rw [decide_eq_false_iff_not, ← hat.1, ← hat.2]
    exact hne
  retiring := nofun
  retirement q hq := by
    obtain ⟨hq, hne⟩ := Table.mem_deleteWhere.mp hq
    rw [decide_eq_false_iff_not, ← hat.1, ← hat.2] at hne
    exact .inl ⟨q, hq, rfl, rfl, rfl, hne⟩

/-! ### Pools -/

/-- The generation after a pool was put away. -/
theorem generation_putAway {g' : Registry} {name : String}
    (h : g'.generations = g.generations.insertOrReplace (page, g.generation page + 1)) :
    g'.generation name = if page = name then g.generation page + 1 else g.generation name := by
  unfold Registry.generation at h ⊢
  rw [h, Table.find?_insertOrReplace]
  split
  · rfl
  · rfl

/-- **A pool can always be put away**: the name of its generation is free. -/
theorem exists_putAway (hg : g.Inv) (hr : r ∈ g.resources) (hat : r.At page "__page__") :
    ∃ g', g.putAway page = some g' ∧
      g.Changes g' r { r with grantId := retiredName (g.generation page) } ∧
      g'.retirements = g.retirements ∧
      g'.generations = g.generations.insertOrReplace (page, g.generation page + 1) := by
  have hone : ∀ a ∈ g.resources, a.page = page ∧ a.grantId = "__page__" → a = r :=
    fun a ha h => Resource.At.unique ha hr h hat
  have hsome : (g.resources.update? (fun r => r.page = page ∧ r.grantId = "__page__")
      fun r => { r with grantId := retiredName (g.generation page) }).isSome = true := by
    refine Table.update?_isSome (fun a ha b hb pa pb => ?_) fun a ha pa b hb hk => ?_
    · rw [hone a ha (by simpa using pa), hone b hb (by simpa using pb)]
    · have hpa : a.page = page := (show a.page = page ∧ _ by simpa using pa).1
      have hk := Prod.mk.inj hk
      have := hg.retired_lt b hb _ hk.2
      rw [hk.1, hpa] at this
      exact Nat.lt_irrefl _ this
  obtain ⟨t, ht⟩ := Option.isSome_iff_exists.mp hsome
  refine ⟨{ g with
    resources := t
    generations := g.generations.insertOrReplace (page, g.generation page + 1) },
    by rw [Registry.putAway, ht]; rfl, fun s => ?_, rfl, rfl⟩
  show s ∈ t ↔ _
  rw [Table.mem_update? ht]
  constructor
  · rintro ⟨a, ha, rfl⟩
    by_cases h : a.page = page ∧ a.grantId = "__page__"
    · rw [hone a ha h]
      exact .inr (if_pos (decide_eq_true (show r.page = page ∧ _ from hat)))
    · rw [if_neg (by simpa using h)]
      refine .inl ⟨ha, ?_⟩
      rintro rfl
      exact h hat
  · rintro (⟨hs, hsr⟩ | rfl)
    · refine ⟨s, hs, if_neg ?_⟩
      rw [decide_eq_true_eq]
      exact fun h => hsr (hone s hs h)
    · exact ⟨r, hr, if_pos (decide_eq_true (show r.page = page ∧ _ from hat))⟩

theorem generation_le {g' : Registry}
    (h : g'.generations = g.generations.insertOrReplace (page, g.generation page + 1))
    (name : String) : g.generation name ≤ g'.generation name := by
  rw [generation_putAway h]
  split
  · rename_i he
    rw [he]
    exact Nat.le_succ _
  · exact Nat.le_refl _

theorem retiredName_lt {g' : Registry} {k : Nat}
    (h : g'.generations = g.generations.insertOrReplace (page, g.generation page + 1))
    (hk : retiredName (g.generation page) = retiredName k) : k < g'.generation page := by
  rw [generation_putAway h, if_pos rfl, ← retiredName_injective hk]
  exact Nat.lt_succ_self _

theorem lawful_putAway {g' : Registry} (hg : g.Inv) (hr : r ∈ g.resources)
    (hat : r.At page "__page__") (hphase : r.phase = .revoked)
    (hret : g'.retirements = g.retirements)
    (hgen : g'.generations = g.generations.insertOrReplace (page, g.generation page + 1)) :
    g.Lawful g' r { r with grantId := retiredName (g.generation page) } where
  moves := ⟨False, rfl, rfl, rfl, .inr ⟨hat.2, _, rfl⟩, .stay _, .inl rfl⟩
  crid := .inl rfl
  public_key := .inl rfl
  creating h := absurd (hphase.symm.trans h) nofun
  bound h := h.elim (fun h => absurd (hphase.symm.trans h) nofun)
    fun h => absurd (hphase.symm.trans h) nofun
  active h := h.elim (fun h => absurd (hphase.symm.trans h) nofun)
    fun h => absurd (hphase.symm.trans h) nofun
  name k hk := by
    show k < g'.generation r.page
    rw [hat.1]
    exact retiredName_lt hgen hk
  generation := generation_le hgen
  others q hq _ := ⟨q, hret ▸ hq, rfl, rfl⟩
  retiring h := absurd (hphase.symm.trans h) nofun
  retirement q hq := by
    rw [hret] at hq
    refine .inl ⟨q, hq, rfl, rfl, rfl, fun h => ?_⟩
    rw [(hg.own hr hq h.1 h.2).2] at hphase
    cases hphase

/-! ### Resets -/

/-- One row changed twice is one row changed. -/
theorem Registry.Changes.trans {g₁ g₂ : Registry} {r₁ r₂ : Resource} (hg : g.Inv)
    (hr : r ∈ g.resources) (h₁ : g.Changes g₁ r r₁) (h₂ : g₁.Changes g₂ r₁ r₂)
    (hc : r₁.connectorId = r.connectorId) : g.Changes g₂ r r₂ := by
  intro s
  rw [h₂ s, h₁ s]
  constructor
  · rintro (⟨hs | hs, hne⟩ | hs)
    · exact .inl hs
    · exact absurd hs hne
    · exact .inr hs
  · rintro (hs | hs)
    · refine .inl ⟨.inl hs, ?_⟩
      rintro rfl
      exact hs.2 (hg.connector_unique _ hs.1 r hr hc)
    · exact .inr hs

/-- What `rename` does: the row has a name that is free or its own, its
retirement follows it, and the generation goes up with a pool. -/
theorem exists_rename (hg : g.Inv) (hr : r ∈ g.resources) :
    ∃ name g', g.rename r = some (name, g') ∧ g.Changes g' r { r with grantId := name } ∧
      (name = r.grantId ∨ (r.grantId = "__page__" ∧ ∃ k, name = retiredName k)) ∧
      (∀ page, g.generation page ≤ g'.generation page) ∧
      (∀ k, name = retiredName k → k < g'.generation r.page) ∧
      (∀ q ∈ g.retirements, ¬(q.page = r.page ∧ q.grantId = r.grantId) → q ∈ g'.retirements) ∧
      ∀ q ∈ g'.retirements, (q ∈ g.retirements ∧ ¬(q.page = r.page ∧ q.grantId = r.grantId)) ∨
        (q.page = r.page ∧ q.grantId = name ∧ r.crid = some q.crid) := by
  unfold Registry.rename
  by_cases hpool : r.grantId = "__page__"
  · have hat : r.At r.page "__page__" := ⟨rfl, hpool⟩
    obtain ⟨g₁, hput, hchange, -, hgen⟩ := exists_putAway hg hr hat
    -- the retirement of the pool, if any, takes the free name too
    have hsome : (g.retirements.update? (fun q => q.page = r.page ∧ q.grantId = "__page__")
        fun q => { q with grantId := retiredName (g.generation r.page) }).isSome = true := by
      refine Table.update?_isSome (fun a ha b hb pa pb => ?_) fun a ha pa b hb hk => ?_
      · rw [decide_eq_true_eq] at pa pb
        exact Table.eq_of_key_eq ha hb
          (Prod.ext (pa.1.trans pb.1.symm) (pa.2.trans pb.2.symm))
      · rw [decide_eq_true_eq] at pa
        obtain ⟨s, hs, hsat, -⟩ := hg.retirement b hb
        have hk := Prod.mk.inj hk
        have := hg.retired_lt s hs _ (hsat.2.trans hk.2)
        rw [hsat.1.trans (hk.1.trans pa.1)] at this
        exact Nat.lt_irrefl _ this
    obtain ⟨t, ht⟩ := Option.isSome_iff_exists.mp hsome
    refine ⟨retiredName (g.generation r.page), { g₁ with retirements := t }, ?_, hchange,
      .inr ⟨hpool, _, rfl⟩, generation_le hgen, fun k hk => retiredName_lt hgen hk, ?_, ?_⟩
    · simp only [if_pos hpool, ht, hput]
      rfl
    · intro q hq hne
      refine (Table.mem_update? ht).mpr ⟨q, hq, if_neg ?_⟩
      rw [decide_eq_true_eq, ← hpool]
      exact hne
    · intro q hq
      obtain ⟨q₀, hq₀, rfl⟩ := (Table.mem_update? ht).mp hq
      by_cases h : q₀.page = r.page ∧ q₀.grantId = "__page__"
      · rw [if_pos (decide_eq_true h)]
        exact .inr ⟨h.1, rfl, (hg.own hr hq₀ h.1 (h.2.trans hpool.symm)).1⟩
      · rw [if_neg (by simpa using h)]
        exact .inl ⟨hq₀, by rwa [hpool]⟩
  · rw [if_neg hpool]
    refine ⟨r.grantId, g, rfl, fun s => ?_, .inl rfl, fun _ => Nat.le_refl _, hg.retired_lt r hr,
      fun q hq _ => hq, fun q hq => ?_⟩
    · by_cases hs : s = r
      · simp [hs, hr]
      · simp [hs]
    · by_cases h : q.page = r.page ∧ q.grantId = r.grantId
      · exact .inr ⟨h.1, h.2, (hg.own hr hq h.1 h.2).1⟩
      · exact .inl ⟨hq, h⟩

theorem filter_crid (hg : g.Inv) (hr : r ∈ g.resources) : r.crid.filter (· ≠ "") = r.crid := by
  cases h : r.crid with
  | none => rfl
  | some c =>
      refine Option.filter_eq_some_iff.mpr ⟨rfl, decide_eq_true ?_⟩
      rintro rfl
      exact absurd (hg.crid_re r hr "" h) (by decide)

/-- **A row that is reset** is retiring if it has a CRID and revoked if it
was still being created. -/
theorem exists_invalidateRow (now : Instant) (hg : g.Inv) (hr : r ∈ g.resources)
    (hphase : r.phase ≠ .revoked) :
    ∃ g' r', g.invalidateRow now r = some g' ∧ g.Changes g' r r' ∧ r.Moves True r' ∧ g'.Inv := by
  obtain ⟨name, g₁, hren, hchange, hrenamed, hgen, hname, hothers, hof⟩ := exists_rename hg hr
  have hr₁ : { r with grantId := name } ∈ g₁.resources := (hchange _).mpr (.inr rfl)
  have hat₁ : Resource.At { r with grantId := name } r.page name := ⟨rfl, rfl⟩
  unfold Registry.invalidateRow
  rw [hren]
  simp only [Option.bind_eq_bind, Option.bind_some, filter_crid hg hr]
  cases hcrid : r.crid with
  | some crid =>
      have hmoves : r.Moves True { r with grantId := name, phase := .retiring } :=
        ⟨rfl, rfl, rfl, hrenamed, hg.moves_retiring hr hcrid hphase _, .inl rfl⟩
      have hchange₂ : g.Changes ((g₁.setPhase r.page name .retiring).retire r.page name crid now) r
          { r with grantId := name, phase := .retiring } :=
        .trans hg hr hchange (changes_setPhase hr₁ hat₁) rfl
      refine ⟨_, _, rfl, hchange₂, hmoves, hg.change hr hchange₂ ?_⟩
      refine
        { moves := ⟨_, hmoves⟩, crid := .inl rfl, public_key := .inl rfl, creating := nofun, bound := fun _ => ⟨_, hcrid⟩,
          active := nofun, name := hname, generation := hgen, others := ?_, retiring := ?_,
          retirement := ?_ }
      · intro q hq hne
        exact ⟨q, Table.mem_insertOrIgnore.mpr (.inl (hothers q hq hne)), rfl, rfl⟩
      · intro _
        obtain ⟨q, hq, hk⟩ := Table.exists_key_insertOrIgnore (t := g₁.retirements)
          (r := ⟨r.page, name, crid, now, 0, "", false⟩)
        exact ⟨q, hq, (Prod.mk.inj hk).1, (Prod.mk.inj hk).2⟩
      · intro q hq
        rcases Table.mem_insertOrIgnore.mp hq with hq | ⟨rfl, -⟩
        · rcases hof q hq with ⟨hq, hne⟩ | ⟨hp, hi, hc⟩
          · exact .inl ⟨q, hq, rfl, rfl, rfl, hne⟩
          · exact .inr ⟨⟨hp.symm, hi.symm⟩, hc, rfl⟩
        · exact .inr ⟨⟨rfl, rfl⟩, hcrid, rfl⟩
  | none =>
      have hcreating : r.phase = .creating := by
        have hnb : ¬(r.phase = .ready ∨ r.phase = .retiring) := by
          intro h
          obtain ⟨c, hc⟩ := hg.bound r hr h
          rw [hcrid] at hc
          cases hc
        cases hp : r.phase with
        | creating => rfl
        | ready => exact absurd (.inl hp) hnb
        | retiring => exact absurd (.inr hp) hnb
        | revoked => exact absurd hp hphase
      have hmoves : r.Moves True { r with grantId := name, phase := .revoked } :=
        ⟨rfl, rfl, rfl, hrenamed, hcreating ▸ .discard trivial, .inl rfl⟩
      have hchange₂ : g.Changes (g₁.setPhase r.page name .revoked) r
          { r with grantId := name, phase := .revoked } :=
        .trans hg hr hchange (changes_setPhase hr₁ hat₁) rfl
      refine ⟨_, _, rfl, hchange₂, hmoves, hg.change hr hchange₂ ?_⟩
      refine
        { moves := ⟨_, hmoves⟩, crid := .inl rfl, public_key := .inl rfl, creating := nofun, bound := nofun,
          active := nofun, name := hname, generation := hgen, others := ?_, retiring := nofun,
          retirement := ?_ }
      · intro q hq hne
        exact ⟨q, hothers q hq hne, rfl, rfl⟩
      · intro q hq
        rcases hof q hq with ⟨hq, hne⟩ | ⟨-, -, hc⟩
        · exact .inl ⟨q, hq, rfl, rfl, rfl, hne⟩
        · rw [hcrid] at hc
          cases hc

/-- The loop of a reset: each row selected moves once, the others stay. -/
theorem exists_invalidateRows (now : Instant) {rs : List Resource} (hg : g.Inv) (hnd : rs.Nodup)
    (hrs : ∀ r ∈ rs, r ∈ g.resources ∧ r.phase ≠ .revoked) :
    ∃ g', g.invalidateRows now rs = some g' ∧ g'.Inv ∧
      (∀ s ∈ g.resources, s ∉ rs → s ∈ g'.resources) ∧
      (∀ s ∈ rs, ∃ s' ∈ g'.resources, s.Moves True s') ∧
      ∀ s' ∈ g'.resources, (s' ∈ g.resources ∧ s' ∉ rs) ∨ ∃ s ∈ rs, s.Moves True s' := by
  induction rs generalizing g with
  | nil => exact ⟨g, rfl, hg, fun s hs _ => hs, nofun, fun s hs => .inl ⟨hs, List.not_mem_nil⟩⟩
  | cons r rs ih =>
      obtain ⟨hr, hphase⟩ := hrs r List.mem_cons_self
      obtain ⟨hnr, hnd⟩ := List.nodup_cons.mp hnd
      obtain ⟨g₁, r', hrow, hchange, hmoves, hg₁⟩ := exists_invalidateRow now hg hr hphase
      have hne : ∀ s ∈ rs, s ≠ r := fun s hs he => hnr (he ▸ hs)
      have hrest : ∀ s ∈ rs, s ∈ g.resources := fun s hs => (hrs s (List.mem_cons_of_mem _ hs)).1
      -- the row as it is now is not selected again
      have hr' : r' ∉ rs := fun h =>
        hne r' h (hg.connector_unique r' (hrest r' h) r hr hmoves.connectorId)
      obtain ⟨g', hrows, hg', hkept, hmoved, hof⟩ := ih hg₁ hnd fun s hs =>
        ⟨(hchange s).mpr (.inl ⟨hrest s hs, hne s hs⟩), (hrs s (List.mem_cons_of_mem _ hs)).2⟩
      refine ⟨g', by rw [Registry.invalidateRows, hrow]; exact hrows, hg', ?_, ?_, ?_⟩
      · intro s hs hns
        rw [List.mem_cons, not_or] at hns
        obtain ⟨hsr, hns⟩ := hns
        exact hkept s ((hchange s).mpr (.inl ⟨hs, hsr⟩)) hns
      · intro s hs
        rcases List.mem_cons.mp hs with rfl | hs
        · exact ⟨r', hkept r' ((hchange r').mpr (.inr rfl)) hr', hmoves⟩
        · exact hmoved s hs
      · intro s' hs'
        rcases hof s' hs' with ⟨hs, hns⟩ | ⟨s, hs, hm⟩
        · rcases (hchange s').mp hs with ⟨hs, hsr⟩ | rfl
          · refine .inl ⟨hs, ?_⟩
            rw [List.mem_cons, not_or]
            exact ⟨hsr, hns⟩
          · exact .inr ⟨r, List.mem_cons_self, hmoves⟩
        · exact .inr ⟨s, List.mem_cons_of_mem _ hs, hm⟩

/-! ### Insertion and schedules -/

theorem inv_insert {connectorId target : String} {now : Instant} {t : Table Resource _}
    (hg : g.Inv) (hfresh : ∀ r ∈ g.resources, r.connectorId ≠ connectorId)
    (hname : grantId = "__page__" ∨ grantIdRe grantId = true)
    (ht : g.resources.insert
      ⟨page, grantId, connectorId, target, none, none, .creating, now, 0, 0⟩ = some t) :
    Registry.Inv { g with resources := t } ∧ g.Moves False { g with resources := t } := by
  obtain ⟨-, hmem⟩ := Table.insert_eq_some ht
  refine ⟨?_, fun r hr => ⟨r, (hmem r).mpr (.inl hr), .refl r⟩, fun s hs => ?_⟩
  · constructor
    · intro a ha b hb hab
      rcases (hmem a).mp ha with ha | rfl <;> rcases (hmem b).mp hb with hb | rfl
      · exact hg.connector_unique a ha b hb hab
      · exact absurd hab (hfresh a ha)
      · exact absurd hab.symm (hfresh b hb)
      · rfl
    · intro a ha b hb c hac hbc
      rcases (hmem a).mp ha with ha | rfl
      · rcases (hmem b).mp hb with hb | rfl
        · exact hg.crid_unique a ha b hb c hac hbc
        · cases hbc
      · cases hac
    · intro a ha c hac
      rcases (hmem a).mp ha with ha | rfl
      · exact hg.crid_re a ha c hac
      · cases hac
    · intro a ha k hk
      rcases (hmem a).mp ha with ha | rfl
      · exact hg.public_key a ha k hk
      · cases hk
    · intro a ha hp
      rcases (hmem a).mp ha with ha | rfl
      · exact hg.creating a ha hp
      · rfl
    · intro a ha hp
      rcases (hmem a).mp ha with ha | rfl
      · exact hg.bound a ha hp
      · rcases hp with hp | hp <;> cases hp
    · intro a ha hp
      rcases (hmem a).mp ha with ha | rfl
      · exact hg.retiring a ha hp
      · cases hp
    · intro q hq
      obtain ⟨r, hr, h⟩ := hg.retirement q hq
      exact ⟨r, (hmem r).mpr (.inl hr), h⟩
    · intro a ha k hk
      rcases (hmem a).mp ha with ha | rfl
      · exact hg.retired_lt a ha k hk
      · obtain rfl | h := hname
        · exact absurd hk.symm (retiredName_ne_page k)
        · rw [show grantId = retiredName k from hk, grantIdRe_retiredName] at h
          cases h
    · intro a ha hp
      rcases (hmem a).mp ha with ha | rfl
      · exact hg.active a ha hp
      · exact hname
  · rcases (hmem s).mp hs with hs | rfl
    · exact .inl ⟨s, hs, .refl s⟩
    · exact .inr ⟨rfl, rfl⟩

/-- Postponing an orphan changes its schedule only. -/
theorem postponeOrphan_inv (page grantId : String) (now : Instant) (delay : Int)
    (rateLimited : Bool) (hg : g.Inv) :
    let g' := ((RegistryOp.postponeOrphan page grantId delay rateLimited).perform now g).2
    g'.Inv ∧ g.Moves False g' := by
  intro g'
  have hmem : ∀ s, s ∈ g'.resources ↔ ∃ a ∈ g.resources,
      (if a.page = page ∧ a.grantId = grantId ∧ (a.phase = .creating ∨ a.phase = .ready) then
        { a with
          recoveryDue := now + second * delay
          recoveryAttempts := a.recoveryAttempts + 1 } else a) = s := by
    intro s
    show s ∈ (RegistryOp.perform now (.postponeOrphan page grantId delay rateLimited) g).2.resources
      ↔ _
    simp only [RegistryOp.perform, Table.mem_updateWhere, decide_eq_true_eq]
  by_cases h : ∃ r ∈ g.resources, r.At page grantId ∧ (r.phase = .creating ∨ r.phase = .ready)
  · obtain ⟨r, hr, hat, hp⟩ := h
    have hchange : g.Changes g' r { r with
        recoveryDue := now + second * delay
        recoveryAttempts := r.recoveryAttempts + 1 } := by
      intro s
      rw [hmem s]
      constructor
      · rintro ⟨a, ha, rfl⟩
        by_cases hc : a.page = page ∧ a.grantId = grantId ∧ (a.phase = .creating ∨ a.phase = .ready)
        · obtain rfl := Resource.At.unique ha hr ⟨hc.1, hc.2.1⟩ hat
          exact .inr (if_pos hc)
        · rw [if_neg hc]
          refine .inl ⟨ha, ?_⟩
          rintro rfl
          exact hc ⟨hat.1, hat.2, hp⟩
      · rintro (⟨hs, hsr⟩ | rfl)
        · exact ⟨s, hs, if_neg fun hc => hsr (Resource.At.unique hs hr ⟨hc.1, hc.2.1⟩ hat)⟩
        · exact ⟨r, hr, if_pos ⟨hat.1, hat.2, hp⟩⟩
    have hmoves : r.Moves False { r with
        recoveryDue := now + second * delay
        recoveryAttempts := r.recoveryAttempts + 1 } := ⟨rfl, rfl, rfl, .inl rfl, .stay _, .inl rfl⟩
    refine ⟨hg.change hr hchange ?_, hchange.moves hr hmoves⟩
    exact
      { moves := ⟨_, hmoves⟩, crid := .inl rfl, public_key := .inl rfl, creating := hg.creating r hr
        bound := hg.bound r hr, active := hg.active r hr, name := hg.retired_lt r hr
        generation := fun _ => Nat.le_refl _
        others := fun q hq _ => ⟨q, hq, rfl, rfl⟩, retiring := hg.retiring r hr
        retirement := fun q hq => by
          by_cases hk : q.page = r.page ∧ q.grantId = r.grantId
          · obtain ⟨hc, hq⟩ := hg.own hr hq hk.1 hk.2
            exact .inr ⟨⟨hk.1.symm, hk.2.symm⟩, hc, hq⟩
          · exact .inl ⟨q, hq, rfl, rfl, rfl, hk⟩ }
  · have hsame : g'.resources = g.resources := by
      ext1
      show g.resources.rows.map _ = g.resources.rows
      refine (List.map_congr_left fun a ha => if_neg ?_).trans (List.map_id _)
      rw [decide_eq_true_eq]
      exact fun hc => h ⟨a, ha, ⟨hc.1, hc.2.1⟩, hc.2.2⟩
    refine ⟨hg.congr hsame rfl (fun q hq => ⟨q, hq, rfl, rfl, rfl⟩) fun q hq => ⟨q, hq, rfl, rfl⟩, ?_⟩
    exact ⟨fun r hr => ⟨r, hsame ▸ hr, .refl r⟩, fun s hs => .inl ⟨s, hsame ▸ hs, .refl s⟩⟩

/-- A fold whose steps change nothing. -/
theorem foldl_eq_self {α β : Type} {f : β → α → β} {b : β} {l : List α} (h : ∀ a ∈ l, f b a = b) :
    l.foldl f b = b := by
  induction l with
  | nil => rfl
  | cons a l ih =>
      rw [List.foldl_cons, h a List.mem_cons_self]
      exact ih fun a' ha' => h a' (List.mem_cons_of_mem _ ha')

/-- Every retiring row has its retirement already. -/
theorem selectRetirements_eq (now : Instant) (hg : g.Inv) :
    (RegistryOp.selectRetirements.perform now g).2 = g := by
  refine foldl_eq_self fun r hr => ?_
  split
  · rename_i crid hp hc
    obtain ⟨q, hq, hk⟩ := hg.retiring r hr hp
    have hnone : g.retirements.insert ⟨r.page, r.grantId, crid, now, 0, "", false⟩ = none :=
      Table.insert_eq_none.mpr ⟨q, hq, Prod.ext hk.1 hk.2⟩
    unfold Registry.retire Table.insertOrIgnore
    rw [hnone]
    rfl
  · rfl

theorem postponeRetirement_inv {now : Instant} {delay : Int} (hg : g.Inv) :
    ((RegistryOp.postponeRetirement page grantId delay).perform now g).2.Inv := by
  refine hg.congr rfl rfl (fun q hq => ?_) fun q hq => ?_
  · simp only [RegistryOp.perform, Table.mem_updateWhere] at hq
    obtain ⟨q₀, hq₀, rfl⟩ := hq
    exact ⟨q₀, hq₀, by split <;> exact ⟨rfl, rfl, rfl⟩⟩
  · obtain ⟨q', hq', hk⟩ := Table.exists_key_updateWhere
      (p := fun q : Retirement => q.page = page ∧ q.grantId = grantId)
      (f := fun q => { q with due := now + second * max 1 delay, attempts := q.attempts + 1 })
      (fun _ => rfl) hq
    exact ⟨q', hq', (Prod.mk.inj hk).1, (Prod.mk.inj hk).2⟩

theorem invalidate_inv (now : Instant) (hg : g.Inv) :
    let out := RegistryOp.invalidate.perform now g
    out.2.Inv ∧ g.Moves True out.2 ∧ out.1 = .ok () := by
  have hnd : (g.resources.rows.filter fun r => r.phase ≠ .revoked).Nodup :=
    (List.Nodup.of_map _ g.resources.nodup).filter _
  obtain ⟨g', hrows, hg', hkept, hmoved, hof⟩ := exists_invalidateRows now hg hnd
    fun r hr => ⟨(List.mem_filter.mp hr).1, by simpa using (List.mem_filter.mp hr).2⟩
  intro out
  have hout : out = (.ok (), { g' with
      retirements := g'.retirements.updateWhere (fun _ => true)
        (fun q => { q with managementOnly := true }) fun _ => rfl }) := by
    show RegistryOp.invalidate.perform now g = _
    simp only [RegistryOp.perform, hrows]
  rw [hout]
  refine ⟨hg'.congr rfl rfl (fun q hq => ?_) fun q hq => ?_, ⟨fun r hr => ?_, fun s hs => ?_⟩, rfl⟩
  · rw [Table.mem_updateWhere] at hq
    obtain ⟨q₀, hq₀, rfl⟩ := hq
    exact ⟨q₀, hq₀, rfl, rfl, rfl⟩
  · refine ⟨{ q with managementOnly := true }, ?_, rfl, rfl⟩
    rw [Table.mem_updateWhere]
    exact ⟨q, hq, rfl⟩
  · by_cases hsel : r ∈ g.resources.rows.filter fun r => r.phase ≠ .revoked
    · exact hmoved r hsel
    · exact ⟨r, hkept r hr hsel, .refl r⟩
  · rcases hof s hs with ⟨hs, -⟩ | ⟨r, hr, hm⟩
    · exact .inl ⟨s, hs, .refl s⟩
    · exact .inl ⟨r, (List.mem_filter.mp hr).1, hm⟩

theorem not_any_crid {crid : String} (hr : r ∈ g.resources) (hat : r.At page grantId)
    (h : (g.resources.rows.any fun r =>
      r.crid = some crid ∧ ¬(r.page = page ∧ r.grantId = grantId)) = false) :
    ∀ s ∈ g.resources, s ≠ r → s.crid ≠ some crid := by
  intro s hs hsr hc
  have := List.any_eq_false.mp h s hs
  rw [decide_eq_true_eq] at this
  exact this ⟨hc, fun hsat => hsr (Resource.At.unique hs hr hsat hat)⟩

theorem Registry.Moves.weaken {g' : Registry} {reset : Prop} (h : g.Moves False g') :
    g.Moves reset g' := by
  have phase : ∀ {p p' : Phase}, p.Moves False p' → p.Moves reset p' := by
    intro p p' hp
    cases hp with
    | stay => exact .stay _
    | publish => exact .publish
    | retire => exact .retire
    | finish => exact .finish
    | discard h => exact h.elim
  have weak : ∀ {r s : Resource}, r.Moves False s → r.Moves reset s := fun h =>
    ⟨h.connectorId, h.page, h.target, h.name, phase h.phase, h.crid⟩
  exact ⟨fun r hr => (h.kept r hr).imp fun s hs => ⟨hs.1, weak hs.2⟩,
    fun s hs => (h.fresh s hs).imp_left fun ⟨r, hr, hm⟩ => ⟨r, hr, weak hm⟩⟩

/-- **What one transaction does.** The invariant is kept, rows only move
along the phases, and no primary key is ever violated. -/
theorem RegistryOp.perform_inv (now : Instant) (e : RegistryOp) (hg : g.Inv) (hpre : e.Pre g) :
    (e.perform now g).2.Inv ∧ g.Moves (e = .invalidate) (e.perform now g).2 ∧
      (e.perform now g).1 ≠ .error (.integrity .primaryKey) := by
  cases e with
  | binding page owner => exact ⟨hg, .refl g, nofun⟩
  | generation page revoked =>
      cases revoked with
      | false => exact ⟨hg, .refl g, nofun⟩
      | true =>
          obtain ⟨r, hr, hat, hphase⟩ := hpre
          obtain ⟨g', hput, hchange, hret, hgen⟩ := exists_putAway hg hr hat
          have hl := lawful_putAway hg hr hat hphase hret hgen
          simp only [RegistryOp.perform, hput, if_true]
          exact ⟨hg.change hr hchange hl,
            hchange.moves hr ⟨rfl, rfl, rfl, .inr ⟨hat.2, _, rfl⟩, .stay _, .inl rfl⟩, nofun⟩
  | insert page owner connectorId target =>
      simp only [RegistryOp.perform]
      split
      · exact ⟨hg, .refl g, nofun⟩
      · rename_i hfresh
        rw [Bool.not_eq_true, List.any_eq_false] at hfresh
        split
        · rename_i t ht
          obtain ⟨hinv, hmoves⟩ := inv_insert hg
            (fun r hr he => hfresh r hr (decide_eq_true he)) hpre.2 ht
          exact ⟨hinv, hmoves.weaken, nofun⟩
        · rename_i hnone
          obtain ⟨s, hs, hk⟩ := Table.insert_eq_none.mp hnone
          exact absurd ⟨(Prod.mk.inj hk).1, (Prod.mk.inj hk).2⟩ (hpre.1 s hs)
  | bind page owner crid publicKey =>
      obtain ⟨hcrid, hkey, r, hr, hat, hphase⟩ := hpre
      simp only [RegistryOp.perform]
      split
      · exact ⟨hg, .refl g, nofun⟩
      · rename_i hfree
        have hchange : g.Changes (g.setResource page owner (fun r =>
            { r with crid := some crid, publicKey := some publicKey, phase := .ready })
            fun _ => rfl) r
            { r with crid := some crid, publicKey := some publicKey, phase := .ready } :=
          changes_setResource hr hat
        refine ⟨hg.change hr hchange (lawful_bind hg hr hphase hcrid hkey
          (not_any_crid hr hat (by simpa using hfree))), hchange.moves hr ?_, nofun⟩
        exact ⟨rfl, rfl, rfl, .inl rfl, hphase ▸ .publish, .inr ⟨hg.creating r hr hphase, hphase, rfl⟩⟩
  | beginRetire page grantId crid qurlId =>
      obtain ⟨r, hr, hat, hcrid, hphase⟩ := hpre
      have hchange : g.Changes ((RegistryOp.beginRetire page grantId crid qurlId).perform now g).2 r
        { r with phase := .retiring } := changes_setPhase hr hat
      exact ⟨hg.change hr hchange (lawful_beginRetire hg hr hat hcrid hphase),
        hchange.moves hr ⟨rfl, rfl, rfl, .inl rfl, hg.moves_retiring hr hcrid hphase _, .inl rfl⟩, nofun⟩
  | managementOnly page grantId => exact ⟨hg, .refl g, nofun⟩
  | finishRetire page grantId =>
      obtain ⟨r, hr, hat, hphase⟩ := hpre
      have hchange : g.Changes ((RegistryOp.finishRetire page grantId).perform now g).2 r
        { r with phase := .revoked } := changes_setPhase hr hat
      exact ⟨hg.change hr hchange (lawful_finishRetire hg hr hat hphase),
        hchange.moves hr ⟨rfl, rfl, rfl, .inl rfl, hphase ▸ .finish, .inl rfl⟩, nofun⟩
  | selectRetirements =>
      rw [selectRetirements_eq now hg]
      exact ⟨hg, .refl g, nofun⟩
  | postponeRetirement page grantId delay =>
      exact ⟨postponeRetirement_inv hg,
        ⟨fun r hr => ⟨r, hr, .refl r⟩, fun s hs => .inl ⟨s, hs, .refl s⟩⟩, nofun⟩
  | selectOrphans graceSeconds =>
      simp only [RegistryOp.perform]
      split <;> exact ⟨hg, .refl g, nofun⟩
  | postponeOrphan page grantId delay rateLimited =>
      obtain ⟨hinv, hmoves⟩ := postponeOrphan_inv page grantId now delay rateLimited hg
      exact ⟨hinv, hmoves.weaken, nofun⟩
  | selectPools => exact ⟨hg, .refl g, nofun⟩
  | invalidate =>
      obtain ⟨hinv, hmoves, hok⟩ := invalidate_inv now hg
      refine ⟨hinv, ?_, ?_⟩
      · rwa [eq_self_iff_true]
      · rw [hok]
        exact nofun

end Transactions

end LayerV

end AccessPages
