import AccessPages.LayerV.Lifecycle
import AccessPages.LayerV.Ownership
/-!
# LayerV — the names resources are published under

`ensure` publishes a binding under a connector identifier: the truncated
digest of the installation, the page, the owner and, for the pool of a
page, its generation. A reset gives the installation another identifier.
What keeps two bindings apart is not the digest alone: a guest's row is
never removed, and a pool makes room for the next one only by raising the
generation of its page.
-/

namespace AccessPages

namespace LayerV

open Pages (UpstreamScope pageIdRe grantIdRe)

/-! ## Bindings -/

def isolationOf (owner : String) : UpstreamScope := if owner = "__page__" then .page else .guest

/-- The generation a row of an owner is inserted at. -/
def generationOf (g : Registry) (page owner : String) : Nat :=
  if owner = "__page__" then g.generation page else 0

/-- A row of `resources` as it was inserted. -/
structure Birth where
  installation : String
  page : String
  owner : String
  generation : Nat
  connectorId : String
  deriving DecidableEq, Repr

/-- What is hashed. -/
def Birth.seed (b : Birth) : String :=
  b.installation ++ "\x00" ++ b.page ++ "\x00" ++ b.owner ++
    if isolationOf b.owner = .page ∧ b.generation ≠ 0 then "\x00" ++ toString b.generation else ""

/-- Which binding it is. -/
def Birth.key (b : Birth) : String × String × Nat := (b.page, b.owner, b.generation)

/-- The page and the owner pass the checks of `ensure`. -/
structure Birth.Valid (b : Birth) : Prop where
  page : pageIdRe b.page = true
  owner : b.owner = "__page__" ∨ grantIdRe b.owner = true
  generation : b.owner ≠ "__page__" → b.generation = 0

/-! ## What is hashed differs -/

/-- A text is cut at its last separator. -/
theorem append_separator_inj {α : Type} {s : α} {a b c d : List α} (hb : s ∉ b) (hd : s ∉ d)
    (h : a ++ s :: b = c ++ s :: d) : a = c ∧ b = d := by
  induction a generalizing c with
  | nil =>
      cases c with
      | nil => exact ⟨rfl, (List.cons.inj h).2⟩
      | cons x c =>
          obtain ⟨-, h⟩ := List.cons.inj h
          exact absurd (h ▸ List.mem_append_right c List.mem_cons_self) hb
  | cons x a ih =>
      cases c with
      | nil =>
          obtain ⟨-, h⟩ := List.cons.inj h
          exact absurd (h ▸ List.mem_append_right a List.mem_cons_self) hd
      | cons y c =>
          obtain ⟨rfl, htail⟩ := List.cons.inj h
          obtain ⟨rfl, rfl⟩ := ih htail
          exact ⟨rfl, rfl⟩

theorem nul_notMem_page {s : String} (h : pageIdRe s = true) : '\x00' ∉ s.toList := by
  intro hc
  exact absurd (Pages.isIdChar_of_pageIdRe h _ hc) (by decide)

theorem nul_notMem_owner {s : String} (h : s = "__page__" ∨ grantIdRe s = true) :
    '\x00' ∉ s.toList := by
  rcases h with rfl | h
  · decide
  · intro hc
    exact absurd (Pages.isTokenChar_of_grantIdRe h _ hc) (by decide)

theorem isDigit_of_mem_toDigits {n : Nat} {c : Char} (h : c ∈ Nat.toDigits 10 n) :
    c.isDigit = true := Nat.isDigit_of_mem_toDigits (by omega) (by omega) h

theorem nul_notMem_toDigits (n : Nat) : '\x00' ∉ Nat.toDigits 10 n := by
  intro hc
  exact absurd (isDigit_of_mem_toDigits hc) (by decide)

theorem toDigits_ne_page (n : Nat) : "__page__".toList ≠ Nat.toDigits 10 n := by
  intro h
  have hc : '_' ∈ Nat.toDigits 10 n := h ▸ (by decide : '_' ∈ "__page__".toList)
  exact absurd (isDigit_of_mem_toDigits hc) (by decide)

theorem toDigits_injective {m n : Nat} (h : Nat.toDigits 10 m = Nat.toDigits 10 n) : m = n := by
  rw [← Nat.ofDigitChars_ten_toDigits (n := m), h, Nat.ofDigitChars_ten_toDigits]

theorem Birth.seed_toList (b : Birth) : b.seed.toList =
    (b.installation.toList ++ '\x00' :: b.page.toList) ++ '\x00' :: b.owner.toList ++
      if isolationOf b.owner = .page ∧ b.generation ≠ 0 then
        '\x00' :: Nat.toDigits 10 b.generation else [] := by
  unfold Birth.seed
  simp only [String.toList_append]
  split
  · rw [String.toList_append, show (toString b.generation).toList = Nat.toDigits 10 b.generation
      from Nat.toList_repr]
    simp
  · simp

/-- **Different bindings hash different texts.** -/
theorem Birth.key_of_seed {a b : Birth} (ha : a.Valid) (hb : b.Valid)
    (hiso : isolationOf a.owner = isolationOf b.owner) (h : a.seed = b.seed) : a.key = b.key := by
  have h := congrArg String.toList h
  rw [a.seed_toList, b.seed_toList, hiso] at h
  have howner : ∀ {x y : List Char},
      (x ++ '\x00' :: a.page.toList) ++ '\x00' :: a.owner.toList =
        (y ++ '\x00' :: b.page.toList) ++ '\x00' :: b.owner.toList →
      a.page = b.page ∧ a.owner = b.owner := by
    intro x y h
    obtain ⟨h, ho⟩ := append_separator_inj (nul_notMem_owner ha.owner) (nul_notMem_owner hb.owner) h
    have hp := (append_separator_inj (nul_notMem_page ha.page) (nul_notMem_page hb.page) h).2
    exact ⟨String.toList_inj.mp hp, String.toList_inj.mp ho⟩
  have hpool : ∀ {o : String}, isolationOf o = .page → o = "__page__" := by
    intro o ho
    unfold isolationOf at ho
    split at ho
    · assumption
    · cases ho
  unfold Birth.key
  by_cases hA : isolationOf b.owner = .page ∧ a.generation ≠ 0
  · by_cases hB : isolationOf b.owner = .page ∧ b.generation ≠ 0
    · rw [if_pos hA, if_pos hB] at h
      obtain ⟨h, hgen⟩ := append_separator_inj (nul_notMem_toDigits _) (nul_notMem_toDigits _) h
      obtain ⟨hp, ho⟩ := howner h
      rw [hp, ho, toDigits_injective hgen]
    · rw [if_pos hA, if_neg hB, List.append_nil, hpool hA.1] at h
      have hname := (append_separator_inj (nul_notMem_toDigits _) (by decide) h).2
      exact absurd hname.symm (toDigits_ne_page _)
  · by_cases hB : isolationOf b.owner = .page ∧ b.generation ≠ 0
    · rw [if_neg hA, if_pos hB, List.append_nil, hpool (hiso.trans hB.1)] at h
      have hname := (append_separator_inj (by decide) (nul_notMem_toDigits _) h).2
      exact absurd hname (toDigits_ne_page _)
    · rw [if_neg hA, if_neg hB, List.append_nil, List.append_nil] at h
      obtain ⟨hp, ho⟩ := howner h
      have hgen : a.generation = b.generation := by
        by_cases hiso : isolationOf b.owner = .page
        · have hazero : a.generation = 0 := by simpa [hiso] using hA
          have hbzero : b.generation = 0 := by simpa [hiso] using hB
          rw [hazero, hbzero]
        · have hne : b.owner ≠ "__page__" := fun h => hiso (by rw [h]; rfl)
          rw [ha.generation (ho ▸ hne), hb.generation hne]
      rw [hp, ho, hgen]

/-! ## Births and rows -/

/-- The binding is in the row: under its owner, or, a pool, put away with
the generation of its page raised. -/
def Birth.Names (b : Birth) (g : Registry) (r : Resource) : Prop :=
  r.connectorId = b.connectorId ∧ r.page = b.page ∧
    ((r.grantId = b.owner ∧ b.generation = generationOf g b.page b.owner) ∨
      (b.owner = "__page__" ∧ (∃ k, r.grantId = retiredName k) ∧
        b.generation < g.generation b.page))

/-- **Births and rows correspond.** -/
structure Registry.Born (B : List Birth) (g : Registry) : Prop where
  row : ∀ r ∈ g.resources, ∃ b ∈ B, b.Names g r
  birth : ∀ b ∈ B, ∃ r ∈ g.resources, b.Names g r
  valid : ∀ b ∈ B, b.Valid
  keys : B.Pairwise fun a b => a.key ≠ b.key
  names : B.Pairwise fun a b => a.connectorId ≠ b.connectorId

theorem Registry.Born.empty : Registry.Born [] ⟨.empty, .empty, .empty, none⟩ :=
  ⟨fun _ hr => absurd hr List.not_mem_nil, nofun, nofun, .nil, .nil⟩

section Step

variable {B : List Birth} {g g' : Registry}

/-- Rows that keep their names, at the same generations. -/
theorem Registry.Born.congr (h : g.Born B)
    (hto : ∀ s ∈ g'.resources, ∃ r ∈ g.resources, s.connectorId = r.connectorId ∧
      s.page = r.page ∧ s.grantId = r.grantId)
    (hof : ∀ r ∈ g.resources, ∃ s ∈ g'.resources, s.connectorId = r.connectorId ∧
      s.page = r.page ∧ s.grantId = r.grantId)
    (hgen : g'.generations = g.generations) : g'.Born B := by
  have hgeneration : ∀ page, g'.generation page = g.generation page := by
    intro page
    unfold Registry.generation
    rw [hgen]
  have hnames : ∀ {b : Birth} {r s : Resource}, s.connectorId = r.connectorId → s.page = r.page →
      s.grantId = r.grantId → b.Names g r → b.Names g' s := by
    intro b r s hc hp hi h
    unfold Birth.Names generationOf
    rw [hc, hp, hi, hgeneration]
    exact h
  refine ⟨fun s hs => ?_, fun b hb => ?_, h.valid, h.keys, h.names⟩
  · obtain ⟨r, hr, hc, hp, hi⟩ := hto s hs
    obtain ⟨b, hb, hn⟩ := h.row r hr
    exact ⟨b, hb, hnames hc hp hi hn⟩
  · obtain ⟨r, hr, hn⟩ := h.birth b hb
    obtain ⟨s, hs, hc, hp, hi⟩ := hof r hr
    exact ⟨s, hs, hnames hc hp hi hn⟩

/-- Columns outside the names. -/
theorem Registry.Born.update {p : Resource → Bool} {f : Resource → Resource}
    (h : g.Born B) (hf : ∀ r, ((f r).page, (f r).grantId) = (r.page, r.grantId))
    (hres : g'.resources = g.resources.updateWhere p f hf)
    (hid : ∀ r, (f r).connectorId = r.connectorId) (hgen : g'.generations = g.generations) :
    g'.Born B := by
  have hsame : ∀ r, (if p r then f r else r).connectorId = r.connectorId ∧
      (if p r then f r else r).page = r.page ∧ (if p r then f r else r).grantId = r.grantId := by
    intro r
    split
    · exact ⟨hid r, (Prod.mk.inj (hf r)).1, (Prod.mk.inj (hf r)).2⟩
    · exact ⟨rfl, rfl, rfl⟩
  refine h.congr (fun s hs => ?_) (fun r hr => ?_) hgen
  · rw [hres, Table.mem_updateWhere] at hs
    obtain ⟨r, hr, rfl⟩ := hs
    exact ⟨r, hr, hsame r⟩
  · refine ⟨_, ?_, hsame r⟩
    rw [hres, Table.mem_updateWhere]
    exact ⟨r, hr, rfl⟩

/-- **A pool is put away.** -/
theorem Registry.Changes.born_putAway {r : Resource} {name : String}
    (hc : g.Changes g' r { r with grantId := name }) (hr : r ∈ g.resources)
    (hpool : r.grantId = "__page__") (hname : ∃ k, name = retiredName k)
    (hgen : ∀ page, g'.generation page =
      if r.page = page then g.generation r.page + 1 else g.generation page)
    (h : g.Born B) : g'.Born B := by
  have hother : ∀ {b : Birth} {s : Resource}, s ∈ g.resources → s ≠ r → b.Names g s →
      b.Names g' s := by
    rintro b s hs hsr ⟨hid, hp, hin⟩
    refine ⟨hid, hp, ?_⟩
    rcases hin with ⟨hi, hb⟩ | ⟨ho, hne, hlt⟩
    · refine .inl ⟨hi, ?_⟩
      rw [hb]
      unfold generationOf
      by_cases ho : b.owner = "__page__"
      · rw [if_pos ho, if_pos ho, hgen, if_neg]
        intro hpage
        exact hsr (Resource.At.unique hs hr ⟨hp.trans hpage.symm, hi.trans ho⟩ ⟨rfl, hpool⟩)
      · rw [if_neg ho, if_neg ho]
    · refine .inr ⟨ho, hne, ?_⟩
      rw [hgen]
      split
      · rename_i hpage
        rw [hpage]
        omega
      · exact hlt
  have hrow : ∀ {b : Birth}, b.Names g r → b.Names g' { r with grantId := name } := by
    rintro b ⟨hid, hp, hin⟩
    refine ⟨hid, hp, ?_⟩
    rcases hin with ⟨hi, hb⟩ | ⟨ho, hne, -⟩
    · have ho : b.owner = "__page__" := hi.symm.trans hpool
      refine .inr ⟨ho, hname, ?_⟩
      rw [hb, generationOf, if_pos ho, hgen, if_pos hp, hp]
      omega
    · obtain ⟨k, hk⟩ := hne
      exact absurd (hk.symm.trans hpool) (retiredName_ne_page k)
  refine ⟨fun s hs => ?_, fun b hb => ?_, h.valid, h.keys, h.names⟩
  · rcases (hc s).mp hs with ⟨hs, hsr⟩ | rfl
    · obtain ⟨b, hb, hn⟩ := h.row s hs
      exact ⟨b, hb, hother hs hsr hn⟩
    · obtain ⟨b, hb, hn⟩ := h.row r hr
      exact ⟨b, hb, hrow hn⟩
  · obtain ⟨s, hs, hn⟩ := h.birth b hb
    by_cases hsr : s = r
    · exact ⟨_, (hc _).mpr (.inr rfl), hrow (hsr ▸ hn)⟩
    · exact ⟨s, (hc s).mpr (.inl ⟨hs, hsr⟩), hother hs hsr hn⟩

theorem rename_eq {r : Resource} {name : String} (h : g.rename r = some (name, g')) :
    if r.grantId = "__page__" then name = retiredName (g.generation r.page) ∧
      g'.generations = g.generations.insertOrReplace (r.page, g.generation r.page + 1)
    else name = r.grantId ∧ g'.generations = g.generations := by
  unfold Registry.rename at h
  split at h
  · rename_i hpool
    rw [if_pos hpool]
    obtain ⟨retirements, -, h⟩ := Option.bind_eq_some_iff.mp h
    obtain ⟨g₁, hput, h⟩ := Option.bind_eq_some_iff.mp h
    obtain ⟨resources, -, hput⟩ := Option.bind_eq_some_iff.mp hput
    cases hput
    cases h
    exact ⟨rfl, rfl⟩
  · rename_i hpool
    rw [if_neg hpool]
    cases h
    exact ⟨rfl, rfl⟩

/-- The generations after a pool is put away. -/
theorem generation_insertOrReplace {page : String}
    (h : g'.generations = g.generations.insertOrReplace (page, g.generation page + 1)) :
    ∀ name, g'.generation name = if page = name then g.generation page + 1 else g.generation name :=
  fun _ => generation_putAway h

theorem Registry.Born.rename {r : Resource} {name : String} (hg : g.Inv) (hr : r ∈ g.resources)
    (h : g.Born B) (hren : g.rename r = some (name, g')) : g'.Born B := by
  obtain ⟨name', g₁, hren', hc, -⟩ := exists_rename hg hr
  obtain ⟨rfl, rfl⟩ := Prod.mk.inj (Option.some.inj (hren'.symm.trans hren))
  have hgen := rename_eq hren
  split at hgen
  · rename_i hpool
    refine hc.born_putAway hr hpool ?_ (generation_insertOrReplace hgen.2) h
    exact ⟨_, hgen.1⟩
  · refine h.congr (fun s hs => ?_) (fun s hs => ?_) hgen.2
    · rcases (hc s).mp hs with ⟨hs, -⟩ | rfl
      · exact ⟨s, hs, rfl, rfl, rfl⟩
      · exact ⟨r, hr, rfl, rfl, hgen.1⟩
    · by_cases hsr : s = r
      · exact ⟨_, (hc _).mpr (.inr rfl), hsr ▸ rfl, hsr ▸ rfl, hsr ▸ hgen.1⟩
      · exact ⟨s, (hc s).mpr (.inl ⟨hs, hsr⟩), rfl, rfl, rfl⟩

theorem Registry.Born.setPhase {page grantId : String} {phase : Phase} (h : g.Born B) :
    (g.setPhase page grantId phase).Born B :=
  h.update (f := fun r => { r with phase }) (fun _ => rfl) rfl (fun _ => rfl) rfl

theorem Registry.Born.retire {page grantId crid : String} {now : Instant} (h : g.Born B) :
    (g.retire page grantId crid now).Born B :=
  h.congr (fun s hs => ⟨s, hs, rfl, rfl, rfl⟩) (fun s hs => ⟨s, hs, rfl, rfl, rfl⟩) rfl

theorem Registry.Born.invalidateRow {r : Resource} {now : Instant} (hg : g.Inv)
    (hr : r ∈ g.resources) (h : g.Born B) (hrow : g.invalidateRow now r = some g') : g'.Born B := by
  obtain ⟨⟨name, g₁⟩, hren, hrow⟩ := Option.bind_eq_some_iff.mp hrow
  have h₁ := h.rename hg hr hren
  simp only at hrow
  split at hrow
  · cases hrow
    exact h₁.setPhase.retire
  · cases hrow
    exact h₁.setPhase

theorem Registry.Born.invalidateRows {rs : List Resource} {now : Instant} (hg : g.Inv)
    (hnd : rs.Nodup) (hrs : ∀ r ∈ rs, r ∈ g.resources ∧ r.phase ≠ .revoked) (h : g.Born B)
    (hrows : g.invalidateRows now rs = some g') : g'.Born B := by
  induction rs generalizing g with
  | nil =>
      cases hrows
      exact h
  | cons r rs ih =>
      obtain ⟨hr, hphase⟩ := hrs r List.mem_cons_self
      obtain ⟨hnr, hnd⟩ := List.nodup_cons.mp hnd
      obtain ⟨g₁, r', hrow, hc, hmoves, hg₁⟩ := exists_invalidateRow now hg hr hphase
      rw [Registry.invalidateRows, hrow] at hrows
      refine ih hg₁ hnd (fun s hs => ?_) (h.invalidateRow hg hr hrow) hrows
      obtain ⟨hmem, hsphase⟩ := hrs s (List.mem_cons_of_mem _ hs)
      exact ⟨(hc s).mpr (.inl ⟨hmem, fun he => hnr (he ▸ hs)⟩), hsphase⟩

/-- **A transaction that is no insertion keeps the correspondence.** -/
theorem Registry.Born.perform {e : RegistryOp} (now : Instant) (hg : g.Inv) (hpre : e.Pre g)
    (hne : ∀ page owner connectorId target, e ≠ .insert page owner connectorId target)
    (h : g.Born B) : (e.perform now g).2.Born B := by
  cases e with
  | binding page owner => exact h
  | generation page revoked =>
      cases revoked with
      | false => exact h
      | true =>
          obtain ⟨r, hr, hat, hphase⟩ := hpre
          obtain ⟨g', hput, hc, -, hgen⟩ := exists_putAway hg hr hat
          simp only [RegistryOp.perform, hput, if_true]
          obtain rfl : r.page = page := hat.1
          exact hc.born_putAway hr hat.2 ⟨_, rfl⟩ (generation_insertOrReplace hgen) h
  | insert page owner connectorId target => exact absurd rfl (hne _ _ _ _)
  | bind page owner crid publicKey =>
      simp only [RegistryOp.perform]
      split
      · exact h
      · exact h.update (f := fun r =>
          { r with crid := some crid, publicKey := some publicKey, phase := .ready })
          (fun _ => rfl) rfl (fun _ => rfl) rfl
  | beginRetire page grantId crid qurlId =>
      exact h.update (f := fun r => { r with phase := .retiring }) (fun _ => rfl) rfl (fun _ => rfl) rfl
  | managementOnly page grantId => exact h
  | finishRetire page grantId =>
      exact h.update (f := fun r => { r with phase := .revoked }) (fun _ => rfl) rfl (fun _ => rfl) rfl
  | selectRetirements =>
      rw [selectRetirements_eq now hg]
      exact h
  | postponeRetirement page grantId delay =>
      exact h.congr (fun s hs => ⟨s, hs, rfl, rfl, rfl⟩) (fun s hs => ⟨s, hs, rfl, rfl, rfl⟩) rfl
  | selectOrphans graceSeconds =>
      simp only [RegistryOp.perform]
      split <;> exact h
  | postponeOrphan page grantId delay rateLimited =>
      exact h.update (f := fun r =>
        { r with recoveryDue := now + second * delay, recoveryAttempts := r.recoveryAttempts + 1 })
        (fun _ => rfl) rfl (fun _ => rfl) rfl
  | selectPools => exact h
  | invalidate =>
      have hnd : (g.resources.rows.filter fun r => r.phase ≠ .revoked).Nodup :=
        (List.Nodup.of_map _ g.resources.nodup).filter _
      have hrs : ∀ r ∈ g.resources.rows.filter fun r => r.phase ≠ .revoked,
          r ∈ g.resources ∧ r.phase ≠ .revoked :=
        fun r hr => ⟨(List.mem_filter.mp hr).1, by simpa using (List.mem_filter.mp hr).2⟩
      simp only [RegistryOp.perform]
      split
      · rename_i g' hrows
        refine (h.invalidateRows hg hnd hrs hrows).congr ?_ ?_ rfl <;>
          exact fun s hs => ⟨s, hs, rfl, rfl, rfl⟩
      · exact h

/-! ## A new binding -/

/-- **A binding that is new was never born before.** -/
theorem Registry.Born.key_fresh {b : Birth} (h : g.Born B)
    (hgen : b.generation = generationOf g b.page b.owner)
    (hnone : ∀ r ∈ g.resources, ¬ r.At b.page b.owner) : ∀ a ∈ B, a.key ≠ b.key := by
  intro a ha hk
  obtain ⟨hp, hk⟩ := Prod.mk.inj hk
  obtain ⟨ho, hn⟩ := Prod.mk.inj hk
  obtain ⟨r, hr, -, hrp, hin⟩ := h.birth a ha
  rcases hin with ⟨hi, -⟩ | ⟨hpool, -, hlt⟩
  · exact hnone r hr ⟨hrp.trans hp, hi.trans ho⟩
  · rw [hn, hgen, generationOf, if_pos (ho.symm.trans hpool), hp] at hlt
    exact Nat.lt_irrefl _ hlt

theorem Registry.Born.insert {b : Birth} {target : String} {now : Instant} {t : Table Resource _}
    (h : g.Born B) (hb : b.Valid) (hgen : b.generation = generationOf g b.page b.owner)
    (hnone : ∀ r ∈ g.resources, ¬ r.At b.page b.owner)
    (hfresh : ∀ r ∈ g.resources, r.connectorId ≠ b.connectorId)
    (ht : g.resources.insert
      ⟨b.page, b.owner, b.connectorId, target, none, none, .creating, now, 0, 0⟩ = some t) :
    Registry.Born (B ++ [b]) { g with resources := t } := by
  obtain ⟨-, hmem⟩ := Table.insert_eq_some ht
  have hkey := h.key_fresh hgen hnone
  refine ⟨fun s hs => ?_, fun a ha => ?_, fun a ha => ?_, ?_, ?_⟩
  · rcases (hmem s).mp hs with hs | rfl
    · obtain ⟨a, ha, hn⟩ := h.row s hs
      exact ⟨a, List.mem_append_left _ ha, hn⟩
    · exact ⟨b, List.mem_append_right _ (List.mem_singleton_self b), rfl, rfl, .inl ⟨rfl, hgen⟩⟩
  · rcases List.mem_append.mp ha with ha | ha
    · obtain ⟨s, hs, hn⟩ := h.birth a ha
      exact ⟨s, (hmem s).mpr (.inl hs), hn⟩
    · obtain rfl := List.mem_singleton.mp ha
      exact ⟨_, (hmem _).mpr (.inr rfl), rfl, rfl, .inl ⟨rfl, hgen⟩⟩
  · rcases List.mem_append.mp ha with ha | ha
    · exact h.valid a ha
    · exact List.mem_singleton.mp ha ▸ hb
  · refine List.pairwise_append.mpr ⟨h.keys, List.pairwise_singleton _ _, fun a ha c hc => ?_⟩
    exact List.mem_singleton.mp hc ▸ hkey a ha
  · refine List.pairwise_append.mpr ⟨h.names, List.pairwise_singleton _ _, fun a ha c hc => ?_⟩
    obtain ⟨r, hr, hid, -⟩ := h.birth a ha
    rw [List.mem_singleton.mp hc, ← hid]
    exact hfresh r hr

end Step

/-! ## Questions with names -/

/-- The names in a question: a row is inserted under the name of its
binding, a resource is published under the name of a row that is being
created. `K` says for which bindings. -/
def Op.Named (cfg : Config) (K : String → String → Prop) (w : World) : Op → Prop
  | .registry (.insert page owner name _) =>
      K page owner ∧ pageIdRe page = true ∧ (owner = "__page__" ∨ grantIdRe owner = true) ∧
        name = connectorId cfg (isolationOf owner) page owner (generationOf w.registry page owner)
  | .publish name _ => ∃ r ∈ w.registry.resources, K r.page r.grantId ∧ r.phase = .creating ∧
      r.connectorId = name
  | _ => True

/-- No names. -/
def Op.Nameless : Op → Prop
  | .registry (.insert ..) => False
  | .publish .. => False
  | _ => True

section Names

variable {cfg : Config} {K : String → String → Prop} {w : World}

/-- Whatever its questions meet, `x` asks with the right names, and `Q`
holds of the outcome. -/
structure Names {α : Type} (cfg : Config) (K : String → String → Prop) (x : BrokerM α)
    (Q : Except Failure α → World → Prop) (w : World) : Prop where
  holds : x.run.Holds Op.step (fun _ => True) (fun ev => ev.op.Named cfg K ev.before) Q w

variable {α β : Type}

theorem names_pure {a : α} {Q : Except Failure α → World → Prop} (h : Q (.ok a) w) :
    Names cfg K (pure a) Q w := ⟨trivial, h⟩

theorem names_throw {e : Failure} {P : α → World → Prop} : Names cfg K (throw e) (OnOk P) w :=
  ⟨trivial, trivial⟩

theorem names_seq {x : BrokerM α} {f : α → BrokerM β} {P : α → World → Prop} {Q : β → World → Prop}
    (h : Names cfg K x (OnOk P) w) (hf : ∀ a w', P a w' → Names cfg K (f a) (OnOk Q) w') :
    Names cfg K (x >>= f) (OnOk Q) w := by
  refine ⟨Prog.holds_except_bind (Prog.holds_mono h.holds fun o w' _ ho => ?_)⟩
  cases o with
  | ok a => exact (hf a w' ho).holds
  | error e => trivial

theorem names_attempt {x : BrokerM α} {f : Except Failure α → BrokerM β}
    {P : α → World → Prop} {Q : Except Failure β → World → Prop} (h : Names cfg K x (OnOk P) w)
    (hf : ∀ o w', Names cfg K (f o) Q w') : Names cfg K (attempt x >>= f) Q w := by
  refine ⟨Prog.holds_except_bind ?_⟩
  rw [show (attempt x).run = (x.run >>= fun r =>
    (pure (Except.ok r) : Prog Op Op.Ans (Except Failure (Except Failure α)))) from rfl,
    Prog.holds_bind]
  exact Prog.holds_mono h.holds fun o w' _ _ => ⟨trivial, (hf o w').holds⟩

theorem names_nameless {x : BrokerM α} (hx : x.run.Asks Op.Nameless) :
    Names cfg K x (OnOk fun _ _ => True) w := by
  constructor
  suffices hgo : ∀ (y : Prog Op Op.Ans (Except Failure α)) (v : World), y.Asks Op.Nameless →
      y.Holds Op.step (fun _ => True) (fun ev => ev.op.Named cfg K ev.before)
        (OnOk fun _ _ => True) v from hgo _ w hx
  intro y
  induction y with
  | ret o =>
      intro v _
      cases o <;> exact ⟨trivial, trivial⟩
  | op e k ih =>
      refine fun v hy => ⟨trivial, fun t => ⟨?_, ih _ _ (hy.2 _)⟩⟩
      have he := hy.1
      cases e with
      | registry e => cases e <;> first | exact he.elim | trivial
      | publish connectorId target => exact he.elim
      | _ => trivial

/-- A transaction, of which only a normal answer counts. -/
theorem names_registry {e : RegistryOp} {P : e.Res → World → Prop}
    (he : (Op.registry e).Named cfg K w)
    (hP : ∀ now w', w'.registry = (e.perform now w.registry).2 →
      OnOk P (e.perform now w.registry).1 w') : Names cfg K (askRegistry e) (OnOk P) w := by
  refine ⟨trivial, fun t => ⟨he, trivial, ?_⟩⟩
  have hs := same_meet t w
  rcases step_cases t (.registry e) w with h | h | h <;> rw [h]
  · trivial
  · trivial
  · show OnOk P (e.perform t.now (t.meet w).registry).1 _
    rw [hs.registry]
    refine hP t.now _ ?_
    rw [Op.perform, hs.registry]

theorem names_binding {page owner : String} :
    Names cfg K (askRegistry (.binding page owner)) (OnOk fun b w' =>
      b = w'.registry.resources.find? (page, owner)) w :=
  names_registry trivial fun _ w' hr => by
    show w.registry.resources.find? _ = _
    rw [hr]
    rfl

/-! ### `ensure` -/

theorem isolationOf_ownerId {grantId : String} (h : grantIdRe grantId = true)
    (isolation : UpstreamScope) : isolationOf (ownerId grantId isolation) = isolation := by
  cases isolation with
  | page => rfl
  | guest =>
      refine if_neg ?_
      rintro rfl
      rw [grantIdRe_page] at h
      cases h

theorem generationOf_ownerId {grantId page : String} {g : Registry} (h : grantIdRe grantId = true)
    (isolation : UpstreamScope) : generationOf g page (ownerId grantId isolation) =
      match isolation with
      | .page => g.generation page
      | .guest => 0 := by
  cases isolation with
  | page => rfl
  | guest =>
      refine if_neg ?_
      rintro rfl
      rw [grantIdRe_page] at h
      cases h

theorem names_pageGeneration {isolation : UpstreamScope} {page grantId : String}
    {b : Option Resource} (hgrant : grantIdRe grantId = true)
    (hb : b = w.registry.resources.find? (page, ownerId grantId isolation)) :
    Names cfg K (pageGeneration isolation page b) (OnOk fun p w' =>
      p.1 = generationOf w'.registry page (ownerId grantId isolation) ∧
        ∀ r, p.2 = some r → w'.registry.resources.find? (page, ownerId grantId isolation) = some r)
      w := by
  cases isolation with
  | guest =>
      refine names_pure ⟨(generationOf_ownerId hgrant .guest).symm, fun r hr => ?_⟩
      rw [← hb]
      exact hr
  | page =>
      unfold pageGeneration
      simp only
      split
      · refine names_seq (P := fun n w' => n = w'.registry.generation page)
          (names_registry trivial fun now w' hr => ?_) fun n w' hn => names_pure ⟨hn, by rintro _ ⟨⟩⟩
        simp only [RegistryOp.perform, if_true] at hr ⊢
        cases hput : w.registry.putAway page with
        | none => trivial
        | some g' =>
            rw [hput] at hr
            show g'.generation page = w'.registry.generation page
            rw [hr]
      · refine names_seq (P := fun n w' => n = w'.registry.generation page ∧
          w'.registry = w.registry) (names_registry trivial fun now w' hr => ?_)
          fun n w' hn => names_pure ⟨hn.1, fun r hr => ?_⟩
        · have hr : w'.registry = w.registry := hr
          refine ⟨?_, hr⟩
          rw [hr]
        · rw [hn.2, ← hb]
          exact hr

/-- The row is in the database, under the binding that was asked for. -/
def World.Row (w : World) (page owner : String) (r : Resource) : Prop :=
  r ∈ w.registry.resources ∧ r.At page owner

theorem names_bindingOrNew {isolation : UpstreamScope} {page grantId target : String}
    {generation : Nat} {b : Option Resource} (hpage : pageIdRe page = true)
    (hgrant : grantIdRe grantId = true) (hK : K page (ownerId grantId isolation))
    (hgen : generation = generationOf w.registry page (ownerId grantId isolation))
    (hb : ∀ r, b = some r →
      w.registry.resources.find? (page, ownerId grantId isolation) = some r) :
    Names cfg K (bindingOrNew cfg isolation page (ownerId grantId isolation) target generation b)
      (OnOk fun r w' => w'.Row page (ownerId grantId isolation) r) w := by
  cases b with
  | some r => exact names_pure (find?_resources.mp (hb r rfl))
  | none =>
      unfold bindingOrNew allocate
      refine names_seq (P := fun _ _ => True) (names_registry ⟨hK, hpage, ?_, ?_⟩ fun now w' _ => ?_)
        fun _ w₁ _ => ?_
      · cases isolation with
        | page => exact .inl rfl
        | guest => exact .inr hgrant
      · rw [hgen, isolationOf_ownerId hgrant]
      · cases (RegistryOp.perform now _ w.registry).1 <;> trivial
      · refine names_seq names_binding fun b w₂ hb => ?_
        cases hbr : b with
        | none => exact names_throw
        | some r => exact names_pure (find?_resources.mp (hb.symm.trans hbr))

theorem nameless_bindIdentity (page owner crid publicKey : String) :
    (bindIdentity page owner crid publicKey).run.Asks Op.Nameless := by
  refine ⟨trivial, fun o => ?_⟩
  rcases o with e | a
  · cases e <;> trivial
  · trivial

theorem names_identity {page owner target : String} {r : Resource} (hK : K page owner)
    (hr : w.Row page owner r) :
    Names cfg K (identity page owner target r) (OnOk fun _ _ => True) w := by
  unfold identity
  split
  · rename_i hphase
    unfold publishResource
    refine names_seq (P := fun _ _ => True) ⟨trivial, fun t => ⟨?_, trivial, ?_⟩⟩ fun reply w₁ _ => ?_
    · refine ⟨r, hr.1, ?_, hphase, rfl⟩
      rw [hr.2.1, hr.2.2]
      exact hK
    · cases (Op.step t (.publish r.connectorId target) w).1 <;> trivial
    · split
      · exact names_throw
      · exact names_seq (names_nameless (nameless_bindIdentity _ _ _ _)) fun _ w₂ _ => names_pure trivial
  · exact names_pure trivial
  · exact names_throw
  · exact names_throw
  · exact names_throw

/-- **`ensure`** names the binding it is asked for, and no other. -/
theorem names_ensure {page grantId target : String} {isolation : UpstreamScope}
    (hK : K page (ownerId grantId isolation)) :
    Names cfg K (ensure cfg page grantId target isolation) (OnOk fun _ _ => True) w := by
  unfold ensure
  split
  · exact names_throw
  rename_i hvalid
  rw [not_or, Bool.not_eq_false, Bool.not_eq_false] at hvalid
  obtain ⟨hpage, hgrant⟩ := hvalid
  refine names_seq names_binding fun b w₁ hb => ?_
  refine names_seq (names_pageGeneration hgrant hb) fun p w₂ hp => ?_
  refine names_seq (names_bindingOrNew hpage hgrant hK hp.1 hp.2) fun r w₃ hr => ?_
  split
  · exact names_throw
  refine names_seq (names_identity hK hr) fun q w₄ _ => ?_
  refine names_seq (P := fun _ _ => True) (names_nameless ?_) fun _ w₅ _ => names_pure trivial
  unfold ensureReady
  split
  · exact ⟨trivial, fun _ => trivial⟩
  · trivial

/-! ### The other calls -/

theorem nameless_ask {e : Op} (h : e.Nameless) : (ask e).run.Asks Op.Nameless :=
  ⟨h, fun _ => trivial⟩

theorem names_askQuietly {e : Op} (h : e.Nameless) :
    Names cfg K (ask e) (OnOk fun _ _ => True) w := names_nameless (nameless_ask h)

theorem names_deleteResource (crid : String) :
    Names cfg K (deleteResource crid) (OnOk fun _ _ => True) w := by
  unfold deleteResource
  split
  · exact names_throw
  · exact names_askQuietly (e := .deleteResource (strip crid)) trivial

theorem names_deleteThenCleanup (crid : String) :
    Names cfg K (deleteThenCleanup crid) (OnOk fun _ _ => True) w :=
  names_seq (names_deleteResource crid) fun _ _ _ =>
    names_seq (names_askQuietly (e := .cleanup crid) trivial) fun _ _ _ => names_pure trivial

theorem names_retireUpstream (old : Bool) (crid : String) :
    Names cfg K (retireUpstream cfg old crid) (OnOk fun _ _ => True) w := by
  unfold retireUpstream
  split
  · exact names_deleteResource crid
  split
  · refine names_attempt (names_askQuietly (e := .cleanup crid) trivial) fun o w' => ?_
    split
    · exact names_pure trivial
    · exact names_deleteThenCleanup crid
    · exact names_throw
  split
  · exact names_deleteThenCleanup crid
  · exact names_deleteResource crid

theorem names_revoke (page grantId crid qurlId : String) :
    Names cfg K (revoke cfg page grantId crid qurlId) (OnOk fun _ _ => True) w := by
  unfold revoke
  refine names_seq names_binding fun b w₁ _ => ?_
  cases b with
  | none => exact names_throw
  | some r =>
      simp only
      split
      · exact names_throw
      split
      · exact names_pure trivial
      refine names_seq (names_askQuietly (e := .registry (.beginRetire page grantId crid qurlId))
        trivial) fun _ _ _ => ?_
      refine names_seq (names_askQuietly (e := .registry (.managementOnly page grantId)) trivial)
        fun old _ _ => ?_
      refine names_seq (names_retireUpstream old crid) fun _ _ _ => ?_
      exact names_seq (names_askQuietly (e := .registry (.finishRetire page grantId)) trivial)
        fun _ _ _ => names_pure trivial

theorem names_revokeOwned (page grantId : String) :
    Names cfg K (revokeOwned cfg page grantId) (OnOk fun _ _ => True) w := by
  unfold revokeOwned
  refine names_seq names_binding fun b w₁ _ => ?_
  cases b with
  | none => exact names_pure trivial
  | some r =>
      simp only
      split
      · exact names_throw
      · exact names_revoke _ _ _ _

theorem names_drainRetirements : Names cfg K (drainRetirements cfg) (OnOk fun _ _ => True) w := by
  have hrows : ∀ (qs : List Retirement) (w : World),
      Names cfg K (drainRetirementRows cfg qs) (OnOk fun _ _ => True) w := by
    intro qs
    induction qs with
    | nil => exact fun w => names_pure trivial
    | cons q qs ih =>
        intro w
        unfold drainRetirementRows
        refine names_attempt (names_revoke _ _ _ _) fun o w' => ?_
        split
        · exact ih w'
        · exact names_seq (names_askQuietly (e := .registry (.postponeRetirement _ _ _)) trivial)
            fun _ w'' _ => ih w''
        · exact names_throw
  unfold drainRetirements
  exact names_seq (names_askQuietly (e := .registry .selectRetirements) trivial)
    fun qs w' _ => hrows qs w'

theorem names_retireDeletedPagePools {pageExists : String → BrokerM Bool}
    (hcall : ∀ page w, Names cfg K (pageExists page) (OnOk fun _ _ => True) w) :
    Names cfg K (retireDeletedPagePools cfg pageExists) (OnOk fun _ _ => True) w := by
  have hrows : ∀ (rs : List Resource) (w : World),
      Names cfg K (retirePoolRows cfg pageExists rs) (OnOk fun _ _ => True) w := by
    intro rs
    induction rs with
    | nil => exact fun w => names_pure trivial
    | cons r rs ih =>
        intro w
        unfold retirePoolRows
        refine names_seq (hcall r.page w) fun b w' _ => ?_
        split
        · exact ih w'
        · refine names_attempt (names_revoke _ _ _ _) fun o w'' => ?_
          split
          · exact ih w''
          · exact ih w''
          · exact names_throw
  unfold retireDeletedPagePools
  exact names_seq (names_askQuietly (e := .registry .selectPools) trivial) fun rs w' _ => hrows rs w'

theorem names_retireOrphans {mappingExists : String → String → BrokerM Bool}
    (hcall : ∀ page grantId w, Names cfg (fun _ _ => True) (mappingExists page grantId)
      (OnOk fun _ _ => True) w) :
    Names cfg (fun _ _ => True) (retireOrphans cfg mappingExists) (OnOk fun _ _ => True) w := by
  have horphan : ∀ (r : Resource) (w : World),
      Names cfg (fun _ _ => True) (retireOrphan cfg r) (OnOk fun _ _ => True) w := by
    intro r w
    refine names_seq (P := fun _ _ => True) ?_ fun crid w' _ =>
      names_seq (names_revoke _ _ _ _) fun _ _ _ => names_pure trivial
    unfold orphanCrid
    split
    · exact names_seq (names_ensure trivial) fun _ _ _ => names_pure trivial
    · exact names_pure trivial
  have hrows : ∀ (rs : List Resource) (w : World),
      Names cfg (fun _ _ => True) (retireOrphanRows cfg mappingExists rs) (OnOk fun _ _ => True) w := by
    intro rs
    induction rs with
    | nil => exact fun w => names_pure trivial
    | cons r rs ih =>
        intro w
        unfold retireOrphanRows
        refine names_seq (hcall r.page r.grantId w) fun b w' _ => ?_
        split
        · exact ih w'
        · refine names_attempt (horphan r w') fun o w'' => ?_
          split
          · exact ih w''
          · refine names_seq (names_askQuietly (e := .registry (.postponeOrphan _ _ _ _)) trivial)
              fun _ w₃ _ => ?_
            split
            · exact names_pure trivial
            · exact ih w₃
          · exact names_throw
  unfold retireOrphans
  refine names_seq (names_askQuietly (e := .registry (.selectOrphans 300)) trivial) fun rs w' _ => ?_
  split
  · exact names_pure trivial
  · exact hrows _ w'

/-- The bindings a call names. -/
def Call.Keys : Call → String → String → Prop
  | .ensure page grantId _ isolation => fun p o => p = page ∧ o = ownerId grantId isolation
  | _ => fun _ _ => True

theorem names_call (c : Call) : Names cfg c.Keys (c.run cfg) (OnOk fun _ _ => True) w := by
  cases c with
  | ensure page grantId target isolation =>
      exact names_seq (names_ensure ⟨rfl, rfl⟩) fun _ _ _ => names_pure trivial
  | revoke page grantId expectedCrid qurlId =>
      exact names_seq (names_revoke _ _ _ _) fun _ _ _ => names_pure trivial
  | revokeOwned page grantId =>
      exact names_seq (names_revokeOwned _ _) fun _ _ _ => names_pure trivial
  | drainRetirements => exact names_seq names_drainRetirements fun _ _ _ => names_pure trivial
  | retireOrphans =>
      exact names_seq (names_retireOrphans fun _ _ _ => names_askQuietly (e := .outside) trivial)
        fun _ _ _ => names_pure trivial
  | retireDeletedPagePools =>
      exact names_seq (names_retireDeletedPagePools fun _ _ => names_askQuietly (e := .outside) trivial)
        fun _ _ _ => names_pure trivial
  | invalidateForReset =>
      exact names_seq (names_askQuietly (e := .registry .invalidate) trivial)
        fun _ _ _ => names_pure trivial

end Names

/-! ## Runs -/

/-- An installation with another identifier. -/
def Config.at (cfg : Config) (installation : String) : Config :=
  { cfg with installationId := installation }

/-- `GuestResources`, called under one installation after another. -/
def installations (cfg : Config) :
    Server (String × Call) Tick Op Op.Ans (Except Failure (Option Client)) World where
  serve c := (c.2.run (cfg.at c.1)).run
  perform := Op.step
  reply _ _ w := w

/-- The binding a question tries to insert. -/
def attempts (x : (String × Call) × Event Op Op.Ans World) : List Birth :=
  match x.2.op with
  | .registry (.insert page owner connectorId _) =>
      [⟨x.1.1, page, owner, generationOf x.2.before.registry page owner, connectorId⟩]
  | _ => []

def succeeds (ev : Event Op Op.Ans World) : Bool :=
  match ev.ans with
  | .ok _ => true
  | .error _ => false

/-- The binding a question inserts. -/
def births (x : (String × Call) × Event Op Op.Ans World) : List Birth :=
  if succeeds x.2 then attempts x else []

theorem mem_births {x : (String × Call) × Event Op Op.Ans World} {b : Birth} (h : b ∈ births x) :
    b ∈ attempts x := by
  unfold births at h
  split at h
  · exact h
  · cases h

/-- A question is asked knowingly, with the right names, and answered. -/
structure NamedEvent (cfg : Config) (c : String × Call) (ev : Event Op Op.Ans World) : Prop where
  asked : Asked free ev
  named : ev.op.Named (cfg.at c.1) c.2.Keys ev.before
  answered : ∃ t, ev.ans = (Op.step t ev.op ev.before).1

section Runs

variable {cfg : Config} {w : World} {B : List Birth}

theorem valid_attempt {c : String × Call} {ev : Event Op Op.Ans World} {b : Birth}
    (hev : NamedEvent cfg c ev) (hb : b ∈ attempts (c, ev)) :
    b.Valid ∧ b.connectorId =
        connectorId (cfg.at b.installation) (isolationOf b.owner) b.page b.owner b.generation ∧
      b.generation = generationOf ev.before.registry b.page b.owner ∧
      ∀ r ∈ ev.before.registry.resources, ¬ r.At b.page b.owner := by
  obtain ⟨v, e, o, v'⟩ := ev
  obtain ⟨hasked, hnamed, -⟩ := hev
  unfold attempts at hb
  split at hb
  · rename_i page owner name target he
    obtain rfl : e = .registry (.insert page owner name target) := he
    obtain rfl := List.mem_singleton.mp hb
    obtain ⟨-, hpage, howner, hname⟩ := hnamed
    exact ⟨⟨hpage, howner, fun hne => if_neg hne⟩, hname, rfl, hasked.1.1⟩
  · cases hb

theorem births_of_error {c : String × Call} {v v' : World} {e : Op} {f : Failure} :
    births (c, ⟨v, e, .error f, v'⟩) = [] := if_neg nofun

theorem attempts_of_ne {c : String × Call} {ev : Event Op Op.Ans World}
    (h : ∀ page owner name target, ev.op ≠ .registry (.insert page owner name target)) :
    attempts (c, ev) = [] := by
  unfold attempts
  split
  · exact absurd ‹_› (h _ _ _ _)
  · rfl

theorem births_of_ne {c : String × Call} {ev : Event Op Op.Ans World}
    (h : ∀ page owner name target, ev.op ≠ .registry (.insert page owner name target)) :
    births (c, ev) = [] := by
  unfold births
  rw [attempts_of_ne h, ite_self]

theorem registry_of_ne {e : Op} (t : Tick) (he : ∀ e', e ≠ .registry e') :
    (Op.step t e w).2.registry = w.registry := by
  have hs := (same_meet t w).registry
  rcases step_cases t e w with h | h | h <;> rw [h]
  · exact hs
  · cases e <;> exact hs
  · cases e with
    | registry e => exact absurd rfl (he e)
    | _ => exact hs

/-- A binding that is inserted. -/
theorem born_insert {c : String × Call} {page owner name target : String} {t : Tick}
    (hev : NamedEvent cfg c ⟨w, .registry (.insert page owner name target),
      (Op.step t (.registry (.insert page owner name target)) w).1,
      (Op.step t (.registry (.insert page owner name target)) w).2⟩) (h : w.registry.Born B) :
    (Op.step t (.registry (.insert page owner name target)) w).2.registry.Born
      (B ++ births (c, ⟨w, .registry (.insert page owner name target),
        (Op.step t (.registry (.insert page owner name target)) w).1,
        (Op.step t (.registry (.insert page owner name target)) w).2⟩)) := by
  obtain ⟨hvalid, -, hgen, hnone⟩ := valid_attempt hev
    (b := ⟨c.1, page, owner, generationOf w.registry page owner, name⟩) (List.mem_singleton_self _)
  have hs := (same_meet t w).registry
  rcases step_cases t (.registry (.insert page owner name target)) w with he | he | he <;> rw [he]
  · rw [births_of_error, List.append_nil, hs]
    exact h
  · rw [births_of_error, List.append_nil]
    exact hs ▸ h
  · simp only [Op.perform, RegistryOp.perform, hs]
    split
    · rw [births_of_error, List.append_nil]
      exact h
    rename_i hfresh
    rw [Bool.not_eq_true, List.any_eq_false] at hfresh
    split
    · rename_i resources ht
      exact h.insert hvalid hgen hnone (fun r hr he => hfresh r hr (decide_eq_true he)) ht
    · rw [births_of_error, List.append_nil]
      exact h

/-- **What a question does to the births.** -/
theorem born_step {c : String × Call} (t : Tick) (e : Op) (hg : w.registry.Inv)
    (hev : NamedEvent cfg c ⟨w, e, (Op.step t e w).1, (Op.step t e w).2⟩) (h : w.registry.Born B) :
    (Op.step t e w).2.registry.Born
      (B ++ births (c, ⟨w, e, (Op.step t e w).1, (Op.step t e w).2⟩)) := by
  by_cases hins : ∃ page owner name target, e = .registry (.insert page owner name target)
  · obtain ⟨page, owner, name, target, rfl⟩ := hins
    exact born_insert hev h
  · have hne : ∀ page owner name target, e ≠ .registry (.insert page owner name target) :=
      fun page owner name target he => hins ⟨page, owner, name, target, he⟩
    rw [births_of_ne hne, List.append_nil]
    by_cases hreg : ∃ e', e = .registry e'
    · obtain ⟨e, rfl⟩ := hreg
      have hs := (same_meet t w).registry
      rcases step_cases t (.registry e) w with he | he | he <;> rw [he]
      · exact hs ▸ h
      · exact hs ▸ h
      · rw [Op.perform, hs]
        refine h.perform t.now hg hev.asked.1 fun page owner name target he => ?_
        exact hne page owner name target (congrArg Op.registry he)
    · rw [registry_of_ne t fun e' he => hreg ⟨e', he⟩]
      exact h

theorem serve_named (cfg : Config) (c : String × Call) (hw : w.registry.Inv) :
    ((installations cfg).serve c).Holds Op.step (fun w => w.registry.Inv) (NamedEvent cfg c)
      (fun _ w' => w'.registry.Inv) w := by
  have hcall := Prog.holds_and ((walks_call (cfg.at c.1) c.2 hw).all trivial)
    (@names_call (cfg.at c.1) w c.2).holds
  refine Prog.holds_mono (Prog.holds_imp hcall (fun _ h => h.1)
    fun t _ _ _ h => ⟨h.1, h.2, t, rfl⟩) ?_
  exact fun _ _ h _ => h

/-- **Births along a run**: at its end, and before each of its questions. -/
theorem trace_born (cfg : Config) (calls : List ((String × Call) × List Tick)) :
    let trace := (installations cfg).trace .empty calls
    ((installations cfg).play .empty calls).registry.Born (trace.flatMap births) ∧
    ∀ x ∈ trace, ∃ D, D ++ births x <+: trace.flatMap births ∧ x.2.before.registry.Inv ∧
      x.2.before.registry.Born D ∧ NamedEvent cfg x.1 x.2 := by
  intro trace
  obtain ⟨hend, hall⟩ := @Server.trace_record _ _ _ _ _ _ (installations cfg) _
    (fun w => w.registry.Inv) (NamedEvent cfg) births
    (fun C w => w.registry.Inv ∧ w.registry.Born C) (fun c w hw => serve_named cfg c hw)
    (fun c t e w C _ hev h =>
      ⟨(registry_step t e h.1 hev.asked).1, born_step t e h.1 hev h.2⟩)
    (fun _ _ _ _ h => h) calls .empty [] Registry.Inv.empty
    ⟨Registry.Inv.empty, .empty⟩
  refine ⟨hend.2, fun x hx => ?_⟩
  obtain ⟨D, hD, hborn, hev⟩ := hall x hx
  exact ⟨D, hD, hborn.1, hborn.2, hev⟩

/-! ## Names along a run -/

theorem connectorId_seed (cfg : Config) (b : Birth) :
    connectorId (cfg.at b.installation) (isolationOf b.owner) b.page b.owner b.generation =
      "ha-" ++ (isolationOf b.owner).name ++ "-" ++ slice (cfg.sha256 b.seed) 40 := rfl

/-- A name tells its isolation mode and its digest. -/
theorem name_inj {i j : UpstreamScope} {s t : String}
    (h : "ha-" ++ i.name ++ "-" ++ s = "ha-" ++ j.name ++ "-" ++ t) : i = j ∧ s = t := by
  have h := congrArg String.toList h
  simp only [String.toList_append] at h
  cases i <;> cases j
  · exact ⟨rfl, String.toList_inj.mp (List.append_cancel_left h)⟩
  · simp [UpstreamScope.name] at h
  · simp [UpstreamScope.name] at h
  · exact ⟨rfl, String.toList_inj.mp (List.append_cancel_left h)⟩

/-- A binding is published, its page, its owner and its generation: the one
that `ensure` is called for, or one that another call finds still being
created. -/
def Publishes (x : (String × Call) × Event Op Op.Ans World) (k : String × String × Nat)
    (name : String) : Prop :=
  ∃ page owner url, x.2.op = .publish name url ∧
    k = (page, owner, generationOf x.2.before.registry page owner) ∧
    ((∃ grantId target isolation, x.1.2 = .ensure page grantId target isolation ∧
        owner = ownerId grantId isolation) ∨
      ((∀ page grantId target isolation, x.1.2 ≠ .ensure page grantId target isolation) ∧
        ∃ r ∈ x.2.before.registry.resources, r.At page owner ∧ r.phase = .creating ∧
          r.connectorId = name))

/-- Every publication is of a binding. -/
theorem publishes_of_op {c : String × Call} {ev : Event Op Op.Ans World} {name url : String}
    (hev : NamedEvent cfg c ev) (hop : ev.op = .publish name url) : ∃ k, Publishes (c, ev) k name := by
  obtain ⟨v, e, o, v'⟩ := ev
  obtain rfl : e = .publish name url := hop
  obtain ⟨r, hr, hkeys, hphase, hid⟩ := hev.named
  refine ⟨_, r.page, r.grantId, url, rfl, rfl, ?_⟩
  obtain ⟨i, call⟩ := c
  cases call with
  | ensure page grantId target isolation =>
      obtain ⟨hpage, howner⟩ : r.page = page ∧ r.grantId = ownerId grantId isolation := hkeys
      exact .inl ⟨grantId, target, isolation, by rw [hpage], howner⟩
  | _ => exact .inr ⟨fun _ _ _ _ => nofun, r, hr, ⟨rfl, rfl⟩, hphase, hid⟩

/-- What is published was born, under that name. -/
theorem birth_of_publishes {c : String × Call} {ev : Event Op Op.Ans World}
    {k : String × String × Nat} {name : String} (hg : ev.before.registry.Inv)
    (h : ev.before.registry.Born B) (hev : NamedEvent cfg c ev) (hp : Publishes (c, ev) k name) :
    ∃ b ∈ B, b.key = k ∧ b.connectorId = name := by
  obtain ⟨page, owner, url, hop, rfl, hcase⟩ := hp
  obtain ⟨v, e, o, v'⟩ := ev
  obtain rfl : e = .publish name url := hop
  have hrow : ∃ r ∈ v.registry.resources, r.At page owner ∧ r.phase = .creating ∧
      r.connectorId = name := by
    rcases hcase with ⟨grantId, target, isolation, hc, rfl⟩ | ⟨-, hrow⟩
    · obtain ⟨i, call⟩ := c
      obtain rfl : call = .ensure page grantId target isolation := hc
      exact hev.named
    · exact hrow
  obtain ⟨r, hr, ⟨hpage, howner⟩, hphase, hid⟩ := hrow
  obtain ⟨b, hb, hbid, hbpage, hin⟩ := h.row r hr
  refine ⟨b, hb, ?_, hbid.symm.trans hid⟩
  rcases hin with ⟨hbo, hgen⟩ | ⟨-, ⟨n, hn⟩, -⟩
  · unfold Birth.key
    rw [hgen, ← hbo, ← hbpage, howner, hpage]
  · rcases hg.active r hr (.inl hphase) with hpool | hgrant
    · exact absurd (hn.symm.trans hpool) (retiredName_ne_page n)
    · rw [hn, grantIdRe_retiredName] at hgrant
      cases hgrant

/-- A name that is taken belongs to a row. -/
theorem taken_of_unique {t : Tick} {page owner name target : String}
    (h : (Op.step t (.registry (.insert page owner name target)) w).1 = .error (.integrity .unique)) :
    ∃ r ∈ w.registry.resources, r.connectorId = name := by
  have hs := (same_meet t w).registry
  rcases step_cases t (.registry (.insert page owner name target)) w with he | he | he <;>
    rw [he] at h
  · cases h
  · cases h
  · simp only [Op.perform, RegistryOp.perform, hs] at h
    split at h
    · rename_i htaken
      obtain ⟨r, hr, hid⟩ := List.any_eq_true.mp htaken
      exact ⟨r, hr, of_decide_eq_true hid⟩
    · split at h <;> cases h

/-- **Connector identities are never reused.** Over any calls of
`GuestResources`, under any installation identifiers, interrupted anywhere,
provided the truncated digests of what the run hashes do not collide: every
binding that is inserted has the name its installation, page, owner and
generation give it; no two have the same page, owner and generation, nor
the same name; what is published is a binding, under the name it was
inserted with, so the name is the same in every retry and another for every
other binding; and no insertion finds its name taken. -/
theorem connector_identities (cfg : Config) (calls : List ((String × Call) × List Tick))
    (hsha : ∀ a ∈ ((installations cfg).trace .empty calls).flatMap attempts,
      ∀ b ∈ ((installations cfg).trace .empty calls).flatMap attempts,
        slice (cfg.sha256 a.seed) 40 = slice (cfg.sha256 b.seed) 40 → a.seed = b.seed) :
    let trace := (installations cfg).trace .empty calls
    (∀ b ∈ trace.flatMap births, b.connectorId =
      connectorId (cfg.at b.installation) (isolationOf b.owner) b.page b.owner b.generation) ∧
    ((trace.flatMap births).Pairwise fun a b => a.key ≠ b.key ∧ a.connectorId ≠ b.connectorId) ∧
    (∀ x ∈ trace, ∀ name url, x.2.op = .publish name url → ∃ k, Publishes x k name) ∧
    (∀ x ∈ trace, ∀ k name, Publishes x k name →
      ∃ b ∈ trace.flatMap births, b.key = k ∧ b.connectorId = name) ∧
    (∀ x ∈ trace, ∀ y ∈ trace, ∀ k l m n, Publishes x k m → Publishes y l n → (m = n ↔ k = l)) ∧
    ∀ x ∈ trace, ∀ page owner name target,
      x.2.op = .registry (.insert page owner name target) →
        ¬ HEq x.2.ans (.error (.integrity .unique) : Except Failure Unit) := by
  intro trace
  obtain ⟨hend, hall⟩ := trace_born cfg calls
  have hdistinct : (trace.flatMap births).Pairwise fun a b =>
      a.key ≠ b.key ∧ a.connectorId ≠ b.connectorId := hend.keys.and hend.names
  have hpublish : ∀ x ∈ trace, ∀ k name, Publishes x k name →
      ∃ b ∈ trace.flatMap births, b.key = k ∧ b.connectorId = name := by
    intro x hx k name hp
    obtain ⟨D, hD, hg, hborn, hev⟩ := hall x hx
    obtain ⟨b, hb, hk, hn⟩ := birth_of_publishes hg hborn hev hp
    exact ⟨b, hD.subset (List.mem_append_left _ hb), hk, hn⟩
  have hsame : ∀ a ∈ trace.flatMap births, ∀ b ∈ trace.flatMap births,
      (a.connectorId = b.connectorId ↔ a.key = b.key) := by
    intro a ha b hb
    by_cases hab : a = b
    · exact ⟨fun _ => congrArg _ hab, fun _ => congrArg _ hab⟩
    · have : Std.Symm fun a b : Birth => a.key ≠ b.key ∧ a.connectorId ≠ b.connectorId :=
        ⟨fun _ _ h => ⟨h.1.symm, h.2.symm⟩⟩
      obtain ⟨hk, hn⟩ := hdistinct.forall ha hb hab
      exact ⟨fun h => absurd h hn, fun h => absurd h hk⟩
  have hbinding : ∀ x ∈ trace, ∀ name url, x.2.op = .publish name url →
      ∃ k, Publishes x k name := by
    intro x hx name url hop
    obtain ⟨-, -, -, -, hev⟩ := hall x hx
    exact publishes_of_op hev hop
  refine ⟨fun b hb => ?_, hdistinct, hbinding, hpublish, fun x hx y hy k l m n hxp hyp => ?_, ?_⟩
  · obtain ⟨x, hx, hbx⟩ := List.mem_flatMap.mp hb
    obtain ⟨-, -, -, -, hev⟩ := hall x hx
    exact (valid_attempt hev (mem_births hbx)).2.1
  · obtain ⟨a, ha, rfl, rfl⟩ := hpublish x hx k m hxp
    obtain ⟨b, hb, rfl, rfl⟩ := hpublish y hy l n hyp
    exact hsame a ha b hb
  · rintro ⟨c, v, e, o, v'⟩ hx page owner name target rfl hans
    obtain ⟨D, hD, hg, hborn, hev⟩ := hall _ hx
    obtain ⟨t, ht⟩ := hev.answered
    obtain ⟨r, hr, hid⟩ := taken_of_unique (ht.symm.trans (eq_of_heq hans))
    obtain ⟨b, hb, hbid, -⟩ := hborn.row r hr
    let a : Birth := ⟨c.1, page, owner, generationOf v.registry page owner, name⟩
    have ha : a ∈ attempts (c, ⟨v, .registry (.insert page owner name target), o, v'⟩) :=
      List.mem_singleton_self a
    obtain ⟨hvalid, hname, hgen, hnone⟩ := valid_attempt hev ha
    have hfresh : b.key ≠ a.key := hborn.key_fresh hgen hnone b hb
    have hbtrace : b ∈ trace.flatMap births := hD.subset (List.mem_append_left _ hb)
    obtain ⟨y, hy, hby⟩ := List.mem_flatMap.mp hbtrace
    obtain ⟨-, -, -, -, hyev⟩ := hall y hy
    obtain ⟨hbvalid, hbname, -, -⟩ := valid_attempt hyev (mem_births hby)
    -- the row that has the name was named after a text of its own
    have hnames : b.connectorId = a.connectorId := hbid.symm.trans hid
    rw [hbname, hname, connectorId_seed, connectorId_seed] at hnames
    obtain ⟨hiso, hslice⟩ := name_inj hnames
    have hseed : b.seed = a.seed :=
      hsha b (List.mem_flatMap.mpr ⟨y, hy, mem_births hby⟩) a (List.mem_flatMap.mpr ⟨_, hx, ha⟩) hslice
    exact hfresh (Birth.key_of_seed hbvalid hvalid hiso hseed)

end Runs

/-! ## A pool that a reset puts away -/

/-- The pool is published, invalidated, and published again by the next
installation. -/
def gateMoves : List ((String × Call) × List Tick) :=
  let ensured : Call := .ensure "gate" gateGrant "http://127.0.0.1:8080" .page
  [(("home", ensured), List.replicate 9 gateTick), (("home", .invalidateForReset), [gateTick]),
    (("away", ensured), List.replicate 9 gateTick)]

def gateBirths : List Birth :=
  [⟨"home", "gate", "__page__", 0, "ha-page-home\x00gate\x00__page__"⟩,
    ⟨"away", "gate", "__page__", 1, "ha-page-away\x00gate\x00__page__\x001"⟩]

theorem gateMoves_attempts :
    ((installations gateConfig).trace .empty gateMoves).flatMap attempts = gateBirths := by
  decide +kernel

theorem connector_identities_gate :
    let trace := (installations gateConfig).trace .empty gateMoves
    trace.flatMap births = gateBirths ∧
    (∀ b ∈ trace.flatMap births, b.connectorId =
      connectorId (gateConfig.at b.installation) (isolationOf b.owner) b.page b.owner b.generation) ∧
    ((trace.flatMap births).Pairwise fun a b => a.key ≠ b.key ∧ a.connectorId ≠ b.connectorId) ∧
    (∀ x ∈ trace, ∀ name url, x.2.op = .publish name url → ∃ k, Publishes x k name) ∧
    (∀ x ∈ trace, ∀ k name, Publishes x k name →
      ∃ b ∈ trace.flatMap births, b.key = k ∧ b.connectorId = name) ∧
    (∀ x ∈ trace, ∀ y ∈ trace, ∀ k l m n, Publishes x k m → Publishes y l n → (m = n ↔ k = l)) ∧
    ∀ x ∈ trace, ∀ page owner name target,
      x.2.op = .registry (.insert page owner name target) →
        ¬ HEq x.2.ans (.error (.integrity .unique) : Except Failure Unit) :=
  ⟨by decide +kernel, connector_identities gateConfig gateMoves (by
    rw [gateMoves_attempts]
    decide +kernel)⟩

end LayerV

end AccessPages
