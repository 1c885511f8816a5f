import AccessPages.Common.Http
import AccessPages.Connectors.Model
/-!
# Connectors — an identity belongs to one page, for good

The two files together say who owns which identity. A pass never takes a
pair away from them, whether it is finished or not, and gives a page that
owns none an identity nobody owns. So two pages never share one, at no
two moments, and a page keeps the one it was given.
-/

namespace AccessPages

namespace Connectors

variable {p q : String} {u v : Int} {d e r h : List (String × Json)}

/-! ## Who owns what -/

/-- The identity an entry says. -/
def uidOf : Json → Option Int
  | .obj entry => (Json.get? entry "runtime_uid").bind int?
  | _ => none

/-- The page `p` has an entry with `u`. -/
def Owns (d : List (String × Json)) (p : String) (u : Int) : Prop :=
  ∃ entry, (p, entry) ∈ d ∧ uidOf entry = some u

/-- One page, one identity. -/
def Exclusive (d : List (String × Json)) : Prop :=
  ∀ p q u v, Owns d p u → Owns d q v → (p = q ↔ u = v)

/-- An identity there is. -/
def InRange (u : Int) : Prop := uidMin ≤ u ∧ u ≤ uidMax

/-- What a pass writes for `u`, in either file. -/
inductive IsEntry : Json → Int → Prop where
  | registered {u : Int} {targetIp : String} (h : InRange u)
      (hip : pageConnectorTargetIp u = .ok targetIp) : IsEntry (registryEntry u targetIp) u
  | remembered {u : Int} (h : InRange u) : IsEntry (historyEntry (.int u) (.int u)) u

def Entries (d : List (String × Json)) : Prop := ∀ f ∈ d, ∃ u, IsEntry f.2 u

theorem IsEntry.inRange {entry : Json} (h : IsEntry entry u) : InRange u := by
  cases h <;> assumption

theorem IsEntry.uidOf {entry : Json} (h : IsEntry entry u) : uidOf entry = some u := by
  cases h <;> rfl

theorem owns_append : Owns (d ++ e) p u ↔ Owns d p u ∨ Owns e p u := by
  unfold Owns
  constructor
  · rintro ⟨entry, hmem, hu⟩
    exact (List.mem_append.mp hmem).imp (fun h => ⟨entry, h, hu⟩) fun h => ⟨entry, h, hu⟩
  · rintro (⟨entry, hmem, hu⟩ | ⟨entry, hmem, hu⟩)
    · exact ⟨entry, List.mem_append_left _ hmem, hu⟩
    · exact ⟨entry, List.mem_append_right _ hmem, hu⟩

theorem owns_singleton {f : String × Json} (hf : IsEntry f.2 v) :
    Owns [f] p u ↔ p = f.1 ∧ u = v := by
  unfold Owns
  constructor
  · rintro ⟨entry, hmem, hu⟩
    cases List.mem_singleton.mp hmem
    exact ⟨rfl, Option.some.inj (hu.symm.trans hf.uidOf)⟩
  · rintro ⟨rfl, rfl⟩
    exact ⟨f.2, List.mem_singleton.mpr rfl, hf.uidOf⟩

theorem not_owns_nil : ¬ Owns [] p u := by
  rintro ⟨entry, hmem, -⟩
  exact absurd hmem List.not_mem_nil

theorem Exclusive.mono (hd : Exclusive d) (h : ∀ p u, Owns e p u → Owns d p u) : Exclusive e :=
  fun p q u v hu hv => hd p q u v (h p u hu) (h q v hv)

theorem Entries.append (hd : Entries d) (he : Entries e) : Entries (d ++ e) := by
  intro f hf
  exact (List.mem_append.mp hf).elim (hd f) (he f)

theorem Entries.inRange (hd : Entries d) (h : Owns d p u) : InRange u := by
  obtain ⟨entry, hmem, hu⟩ := h
  obtain ⟨v, hv⟩ := hd _ hmem
  obtain rfl : u = v := Option.some.inj (hu.symm.trans hv.uidOf)
  exact hv.inRange

/-! ## Dictionaries -/

theorem mem_put {entry entry' : Json} :
    (p, entry') ∈ put d q entry ↔ (p = q ∧ entry' = entry) ∨ (p ≠ q ∧ (p, entry') ∈ d) := by
  unfold put
  split
  · rename_i hany
    simp only [List.mem_map]
    constructor
    · rintro ⟨f, hf, heq⟩
      split at heq
      · cases heq
        exact Or.inl ⟨rfl, rfl⟩
      · rename_i hne
        subst heq
        exact Or.inr ⟨hne, hf⟩
    · rintro (⟨rfl, rfl⟩ | ⟨hne, hf⟩)
      · obtain ⟨f, hf, hkey⟩ := List.any_eq_true.mp hany
        exact ⟨f, hf, if_pos (of_decide_eq_true hkey)⟩
      · exact ⟨(p, entry'), hf, if_neg hne⟩
  · rename_i hany
    have hfresh : ∀ f ∈ d, f.1 ≠ q := fun f hf hkey =>
      hany (List.any_eq_true.mpr ⟨f, hf, decide_eq_true hkey⟩)
    rw [List.mem_append, List.mem_singleton, Prod.mk.injEq]
    constructor
    · rintro (hf | ⟨rfl, rfl⟩)
      · exact Or.inr ⟨hfresh _ hf, hf⟩
      · exact Or.inl ⟨rfl, rfl⟩
    · rintro (h | ⟨-, hf⟩)
      · exact Or.inr h
      · exact Or.inl hf

theorem Entries.put (hd : Entries d) {entry : Json} (he : IsEntry entry u) :
    Entries (put d q entry) := by
  rintro ⟨p, entry'⟩ hf
  rcases mem_put.mp hf with ⟨rfl, rfl⟩ | ⟨-, hf⟩
  · exact ⟨u, he⟩
  · exact hd _ hf

/-- Writing an entry that agrees with the others adds its pair and takes
none away. -/
theorem owns_put {entry : Json} (he : IsEntry entry v) (hex : Exclusive (d ++ [(q, entry)])) :
    Owns (put d q entry) p u ↔ Owns (d ++ [(q, entry)]) p u := by
  have hq : Owns (d ++ [(q, entry)]) q v :=
    owns_append.mpr (Or.inr ((owns_singleton he).mpr ⟨rfl, rfl⟩))
  constructor
  · rintro ⟨entry', hmem, hu⟩
    rcases mem_put.mp hmem with ⟨rfl, rfl⟩ | ⟨-, hf⟩
    · exact ⟨entry', List.mem_append_right _ (List.mem_singleton.mpr rfl), hu⟩
    · exact ⟨entry', List.mem_append_left _ hf, hu⟩
  · intro hown
    by_cases hp : p = q
    · subst hp
      have hv : u = v := (hex p p u v hown hq).mp rfl
      exact ⟨entry, mem_put.mpr (Or.inl ⟨rfl, rfl⟩), hv ▸ he.uidOf⟩
    · rcases owns_append.mp hown with ⟨entry', hmem, hu⟩ | h
      · exact ⟨entry', mem_put.mpr (Or.inr ⟨hp, hmem⟩), hu⟩
      · exact absurd ((owns_singleton he).mp h).1 hp

theorem merge_cons (f : String × Json) : merge d (f :: e) = merge (put d f.1 f.2) e := rfl

theorem Entries.merge (hd : Entries d) (he : Entries e) : Entries (merge d e) := by
  induction e generalizing d with
  | nil => exact hd
  | cons f e ih =>
      obtain ⟨u, hu⟩ := he f List.mem_cons_self
      exact ih (hd.put hu) fun g hg => he g (List.mem_cons_of_mem f hg)

/-- Merging two dictionaries that agree owns what both do. -/
theorem owns_merge (he : Entries e) (hex : Exclusive (d ++ e)) :
    Owns (merge d e) p u ↔ Owns (d ++ e) p u := by
  induction e generalizing d with
  | nil => rw [List.append_nil]; exact Iff.rfl
  | cons f e ih =>
      obtain ⟨v, hv⟩ := he f List.mem_cons_self
      have hsplit : d ++ f :: e = (d ++ [f]) ++ e := by simp
      rw [hsplit] at hex ⊢
      have hput : ∀ p u, Owns (put d f.1 f.2) p u ↔ Owns (d ++ [f]) p u := fun p u =>
        owns_put hv (hex.mono fun p u h => owns_append.mpr (Or.inl h))
      have hboth : ∀ p u, Owns (put d f.1 f.2 ++ e) p u ↔ Owns ((d ++ [f]) ++ e) p u := by
        intro p u
        rw [owns_append, owns_append, hput p u]
      rw [merge_cons, ih (fun g hg => he g (List.mem_cons_of_mem f hg))
        (hex.mono fun p u h => (hboth p u).mp h), hboth]

/-! ## The owners of a pass -/

/-- An entry that was written is claimed for its page. -/
theorem claimUid_entry {owners : List (Int × String)} {f : String × Json} (hf : IsEntry f.2 u) :
    claimUid owners f = match owners.lookup u with
      | none => .ok ((u, f.1) :: owners)
      | some prior => if prior ≠ f.1 then .error .duplicate else .ok owners := by
  obtain ⟨p, entry⟩ := f
  have hrange := hf.inRange
  have hcheck : ¬ (u < uidMin ∨ uidMax < u ∨ u ≠ u) := by
    unfold InRange at hrange
    omega
  cases hf <;> exact if_neg hcheck

/-- `owner_by_uid` says who owns what. -/
theorem foldlM_claimUid {owners : List (Int × String)} (he : Entries e)
    (hex : Exclusive (d ++ e)) (howners : ∀ u p, owners.lookup u = some p ↔ Owns d p u) :
    ∃ owners', e.foldlM claimUid owners = .ok owners' ∧
      ∀ u p, owners'.lookup u = some p ↔ Owns (d ++ e) p u := by
  induction e generalizing d owners with
  | nil => exact ⟨owners, rfl, by rw [List.append_nil]; exact howners⟩
  | cons f e ih =>
      obtain ⟨v, hv⟩ := he f List.mem_cons_self
      have hsplit : d ++ f :: e = (d ++ [f]) ++ e := by simp
      rw [hsplit] at hex ⊢
      have hf : Owns ((d ++ [f]) ++ e) f.1 v :=
        owns_append.mpr (Or.inl (owns_append.mpr (Or.inr ((owns_singleton hv).mpr ⟨rfl, rfl⟩))))
      have hrest := fun g hg => he g (List.mem_cons_of_mem f hg)
      rw [List.foldlM_cons, claimUid_entry hv]
      cases hlookup : owners.lookup v with
      | none =>
          refine ih hrest hex fun u p => ?_
          rw [owns_append, owns_singleton hv, List.lookup_cons]
          by_cases hu : u = v
          · subst hu
            have hnone : ¬ Owns d p u := fun h => by
              rw [(howners u p).mpr h] at hlookup
              cases hlookup
            simp only [beq_self_eq_true, Option.some.injEq, hnone, false_or, and_true]
            exact eq_comm
          · rw [beq_false_of_ne hu]
            simp only [hu, and_false, or_false]
            exact howners u p
      | some prior =>
          have hprior : Owns d prior v := (howners v prior).mp hlookup
          -- the uid was claimed before, by the same page
          obtain rfl : prior = f.1 := (hex _ _ _ _
            (owns_append.mpr (Or.inl (owns_append.mpr (Or.inl hprior)))) hf).mpr rfl
          have hsame : (if f.1 ≠ f.1 then Except.error Exc.duplicate else .ok owners) =
              (Except.ok owners : Except Exc _) := if_neg (not_not_intro rfl)
          dsimp only
          rw [hsame]
          refine ih hrest hex fun u p => ?_
          rw [owns_append, owns_singleton hv, howners]
          exact ⟨Or.inl, fun h => h.elim id fun h => by rw [h.1, h.2]; exact hprior⟩

theorem get?_eq_some_mem {entry : Json} (h : Json.get? d p = some entry) : (p, entry) ∈ d := by
  obtain ⟨l, r, rfl, -⟩ := List.lookup_eq_some_iff.mp h
  exact List.mem_append_right _ List.mem_cons_self

theorem get?_eq_none_not_mem (hd : Json.get? d p = none) : ¬ Owns d p u := by
  rintro ⟨entry, hmem, -⟩
  have := List.lookup_eq_none_iff.mp hd _ hmem
  simp at this

theorem IsEntry.existing {entry : Json} (h : IsEntry entry u) :
    Json.truthy entry = true ∧ existingUid entry = .ok (some u) := by
  cases h <;> exact ⟨rfl, rfl⟩

/-- The entry that is looked up is the page's, in one file or the other. -/
theorem existingUid_eq (hd : Entries d) (hh : Entries h) :
    (∃ u, Owns (h ++ d) p u ∧ existingUid (existingEntry p d h) = .ok (some u)) ∨
      ((∀ u, ¬ Owns (h ++ d) p u) ∧ existingUid (existingEntry p d h) = .ok none) := by
  have hfound : ∀ {d}, Entries d → ∀ {entry}, Json.get? d p = some entry →
      ∃ u, Owns d p u ∧ Json.truthy entry = true ∧ existingUid entry = .ok (some u) := by
    intro d hd entry hget
    have hmem := get?_eq_some_mem hget
    obtain ⟨u, hu⟩ := hd _ hmem
    exact ⟨u, ⟨entry, hmem, hu.uidOf⟩, hu.existing⟩
  unfold existingEntry
  dsimp only
  cases hgd : Json.get? d p with
  | some entry =>
      obtain ⟨u, hown, htruthy, hexisting⟩ := hfound hd hgd
      refine Or.inl ⟨u, owns_append.mpr (Or.inr hown), ?_⟩
      rw [Option.filter_some, if_pos htruthy]
      exact hexisting
  | none =>
      rw [Option.filter_none, Option.none_or]
      cases hgh : Json.get? h p with
      | some entry =>
          obtain ⟨u, hown, htruthy, hexisting⟩ := hfound hh hgh
          refine Or.inl ⟨u, owns_append.mpr (Or.inl hown), ?_⟩
          rw [Option.filter_some, if_pos htruthy]
          exact hexisting
      | none =>
          refine Or.inr ⟨fun u hu => ?_, rfl⟩
          exact (owns_append.mp hu).elim (get?_eq_none_not_mem hgh) (get?_eq_none_not_mem hgd)

theorem mem_uids : u ∈ uids ↔ InRange u := by
  unfold InRange
  simp only [uids, List.mem_map, List.mem_range, uidMin, uidMax]
  constructor
  · rintro ⟨n, hn, rfl⟩
    omega
  · intro hu
    exact ⟨(u - 22000).toNat, by omega, by omega⟩

theorem pageConnectorIdentity_of_owners {owners : List (Int × String)} {existing : Option Int}
    (hfold : (h ++ d).foldlM claimUid [] = .ok owners)
    (hexisting : existingUid (existingEntry p d h) = .ok existing) :
    pageConnectorIdentity p d h = match existing with
      | some uid => .ok uid
      | none =>
          match uids.find? fun uid => (owners.lookup uid).isNone with
          | some uid => .ok uid
          | none => .error .exhausted := by
  cases existing with
  | some uid => simp only [pageConnectorIdentity, hfold, bind, Except.bind, hexisting]
  | none =>
      cases hfind : uids.find? fun uid => (owners.lookup uid).isNone <;>
        simp only [pageConnectorIdentity, hfold, bind, Except.bind, hexisting, hfind]

/-- **What a page is given**: its own identity, else one that is free, else
nothing when there is none. -/
theorem pageConnectorIdentity_eq (hd : Entries d) (hh : Entries h) (hex : Exclusive (h ++ d)) :
    (∃ u, Owns (h ++ d) p u ∧ pageConnectorIdentity p d h = .ok u) ∨
      (∃ u, InRange u ∧ (∀ q, ¬ Owns (h ++ d) q u) ∧ (∀ u, ¬ Owns (h ++ d) p u) ∧
        pageConnectorIdentity p d h = .ok u) ∨
      ((∀ u, InRange u → ∃ q, Owns (h ++ d) q u) ∧ (∀ u, ¬ Owns (h ++ d) p u) ∧
        pageConnectorIdentity p d h = .error .exhausted) := by
  obtain ⟨owners, hfold, howners⟩ := @foldlM_claimUid [] _ [] (hh.append hd)
    (by rw [List.nil_append]; exact hex)
    fun u p => iff_of_false (by simp) not_owns_nil
  rw [List.nil_append] at howners
  rcases existingUid_eq (p := p) hd hh with ⟨u, hown, hexisting⟩ | ⟨hnone, hexisting⟩
  · exact Or.inl ⟨u, hown, pageConnectorIdentity_of_owners hfold hexisting⟩
  · refine Or.inr ?_
    rw [pageConnectorIdentity_of_owners hfold hexisting]
    cases hfind : uids.find? fun uid => (owners.lookup uid).isNone with
    | some u =>
        have hfree : owners.lookup u = none := by simpa using List.find?_some hfind
        refine Or.inl ⟨u, mem_uids.mp (List.mem_of_find?_eq_some hfind), fun q hq => ?_, hnone, rfl⟩
        rw [(howners u q).mpr hq] at hfree
        cases hfree
    | none =>
        refine Or.inr ⟨fun u hu => ?_, hnone, rfl⟩
        have htaken := List.find?_eq_none.mp hfind u (mem_uids.mpr hu)
        cases hlookup : owners.lookup u with
        | none => rw [hlookup] at htaken; exact absurd rfl htaken
        | some q => exact ⟨q, (howners u q).mp hlookup⟩

/-! ## Addresses -/

theorem pageConnectorTargetIp_eq (hu : InRange u) :
    pageConnectorTargetIp u = .ok ("127.77." ++ toString ((u - uidMin) / 250) ++ "." ++
      toString ((u - uidMin) % 250 + 1)) := by
  unfold InRange at hu
  exact if_neg (by omega)

/-- The four numbers of a dotted address. -/
def octets (ip : String) : Option (List Nat) :=
  ((splitAt '.' ip.toList).mapM digits?).filter fun ns => ns.length = 4 ∧ ∀ n ∈ ns, n ≤ 255

/-- Small numbers are written in digits. -/
theorem digits_toString : ∀ n : Nat, n < 256 → digits? (toString (n : Int)).toList = some n ∧
    '.' ∉ (toString (n : Int)).toList := by decide +kernel

/-- **The address of an identity** is one of 127.77.0.0/16, and tells it. -/
theorem octets_targetIp {targetIp : String} (hu : InRange u)
    (hip : pageConnectorTargetIp u = .ok targetIp) :
    octets targetIp =
      some [127, 77, ((u - uidMin) / 250).toNat, ((u - uidMin) % 250 + 1).toNat] := by
  unfold InRange uidMin uidMax at hu
  have ha : ((((u - uidMin) / 250).toNat : Nat) : Int) = (u - uidMin) / 250 := by
    unfold uidMin
    omega
  have hb : ((((u - uidMin) % 250 + 1).toNat : Nat) : Int) = (u - uidMin) % 250 + 1 := by
    unfold uidMin
    omega
  have ha' : ((u - uidMin) / 250).toNat < 256 := by
    unfold uidMin
    omega
  have hb' : ((u - uidMin) % 250 + 1).toNat < 256 := by
    unfold uidMin
    omega
  rw [pageConnectorTargetIp_eq hu, Except.ok.injEq, ← ha, ← hb] at hip
  generalize ((u - uidMin) / 250).toNat = a at ha' hip
  generalize ((u - uidMin) % 250 + 1).toNat = b at hb' hip
  obtain ⟨hdigits, hdot⟩ := digits_toString a ha'
  obtain ⟨hdigits', hdot'⟩ := digits_toString b hb'
  have hsplit : splitAt '.' targetIp.toList = ["127".toList, "77".toList,
      (toString (a : Int)).toList, (toString (b : Int)).toList] := by
    have htext : targetIp.toList = "127.77".toList ++ '.' :: ((toString (a : Int)).toList ++
        '.' :: (toString (b : Int)).toList) := by
      rw [← hip]
      simp
    rw [htext, splitAt_append, splitAt_append, splitAt_of_notMem hdot, splitAt_of_notMem hdot']
    rfl
  unfold octets
  rw [hsplit]
  have hparts : List.mapM digits? ["127".toList, "77".toList, (toString (a : Int)).toList,
      (toString (b : Int)).toList] = some [127, 77, a, b] := by
    have h127 : digits? "127".toList = some 127 := by decide
    have h77 : digits? "77".toList = some 77 := by decide
    simp only [List.mapM_cons, List.mapM_nil, h127, h77, hdigits, hdigits', Option.pure_def,
      Option.bind_eq_bind, Option.bind_some]
  rw [hparts]
  refine Option.filter_eq_some_iff.mpr ⟨rfl, ?_⟩
  simp only [decide_eq_true_eq, List.mem_cons, List.not_mem_nil, or_false]
  refine ⟨rfl, ?_⟩
  rintro n (rfl | rfl | rfl | rfl) <;> omega

theorem targetIp_injective {targetIp : String} (hu : InRange u) (hv : InRange v)
    (hip : pageConnectorTargetIp u = .ok targetIp) (hip' : pageConnectorTargetIp v = .ok targetIp) :
    u = v := by
  have hsame := (octets_targetIp hu hip).symm.trans (octets_targetIp hv hip')
  simp only [Option.some.injEq, List.cons.injEq, and_true, true_and] at hsame
  unfold InRange uidMin uidMax at hu hv
  unfold uidMin at hsame
  omega

/-! ## The pages of a pass -/

/-- What the registry holds. -/
def Registered (d : List (String × Json)) : Prop :=
  ∀ f ∈ d, ∃ u targetIp, InRange u ∧ pageConnectorTargetIp u = .ok targetIp ∧
    f.2 = registryEntry u targetIp

theorem Registered.entries (hd : Registered d) : Entries d := by
  intro f hf
  obtain ⟨u, targetIp, hu, hip, hentry⟩ := hd f hf
  exact ⟨u, hentry ▸ .registered hu hip⟩

theorem Registered.put (hd : Registered d) {targetIp : String} (hu : InRange u)
    (hip : pageConnectorTargetIp u = .ok targetIp) :
    Registered (put d q (registryEntry u targetIp)) := by
  rintro ⟨p, entry⟩ hf
  rcases mem_put.mp hf with ⟨rfl, rfl⟩ | ⟨-, hf⟩
  · exact ⟨u, targetIp, hu, hip, rfl⟩
  · exact hd _ hf

/-- The dictionary has the page. -/
def Has (d : List (String × Json)) (p : String) : Prop := ∃ entry, (p, entry) ∈ d

theorem has_put {entry : Json} : Has (put d q entry) p ↔ p = q ∨ Has d p := by
  constructor
  · rintro ⟨entry', hmem⟩
    rcases mem_put.mp hmem with ⟨hp, -⟩ | ⟨-, hmem⟩
    · exact Or.inl hp
    · exact Or.inr ⟨entry', hmem⟩
  · intro h
    by_cases hp : p = q
    · exact ⟨entry, mem_put.mpr (Or.inl ⟨hp, rfl⟩)⟩
    · obtain ⟨entry', hmem⟩ := h.resolve_left hp
      exact ⟨entry', mem_put.mpr (Or.inr ⟨hp, hmem⟩)⟩

theorem has_append : Has (d ++ e) p ↔ Has d p ∨ Has e p := by
  simp only [Has, List.mem_append, exists_or]

theorem Entries.owns_of_has (hd : Entries d) (h : Has d p) : ∃ u, Owns d p u := by
  obtain ⟨entry, hmem⟩ := h
  obtain ⟨u, hu⟩ := hd _ hmem
  exact ⟨u, entry, hmem, hu.uidOf⟩

/-- A pair that is there already, or whose page and identity are both new,
breaks nothing. -/
theorem Exclusive.add {entry : Json} (hd : Exclusive d) (he : IsEntry entry u)
    (hnew : Owns d p u ∨ (∀ q, ¬ Owns d q u) ∧ ∀ v, ¬ Owns d p v) :
    Exclusive (d ++ [(p, entry)]) := by
  rcases hnew with hown | ⟨hfree, hnone⟩
  · refine hd.mono fun q v h => ?_
    rcases owns_append.mp h with h | h
    · exact h
    · obtain ⟨rfl, rfl⟩ := (owns_singleton he).mp h
      exact hown
  · intro q q' v v' hv hv'
    rcases owns_append.mp hv with hold | hadd <;> rcases owns_append.mp hv' with hold' | hadd'
    · exact hd q q' v v' hold hold'
    · obtain ⟨rfl, rfl⟩ := (owns_singleton he).mp hadd'
      exact ⟨fun hq => absurd (hq ▸ hold) (hnone v), fun hu => absurd (hu ▸ hold) (hfree q)⟩
    · obtain ⟨rfl, rfl⟩ := (owns_singleton he).mp hadd
      exact ⟨fun hq => absurd (hq ▸ hold') (hnone v'), fun hu => absurd (hu ▸ hold') (hfree q')⟩
    · obtain ⟨rfl, rfl⟩ := (owns_singleton he).mp hadd
      obtain ⟨rfl, rfl⟩ := (owns_singleton he).mp hadd'
      exact iff_of_true rfl rfl

/-- No identity is free, and the page has none. -/
structure Exhausted (d : List (String × Json)) (p : String) : Prop where
  taken : ∀ u, InRange u → ∃ q, Owns d q u
  none : ∀ u, ¬ Owns d p u

/-- **One page**: it gets its identity, and the pairs still agree; or there
is no identity left. -/
theorem publish_eq (hr : Registered r) (hh : Entries h) (he : Registered e)
    (hex : Exclusive (h ++ r ++ e)) :
    (∃ u targetIp, InRange u ∧ pageConnectorTargetIp u = .ok targetIp ∧
        publish r h e p = .ok (put e p (registryEntry u targetIp)) ∧
        Exclusive (h ++ r ++ put e p (registryEntry u targetIp))) ∨
      (Exhausted (h ++ r ++ e) p ∧ publish r h e p = .error .exhausted) := by
  have hboth : Exclusive (r ++ e) := hex.mono fun q v hv => by
    rw [List.append_assoc]
    exact owns_append.mpr (Or.inr hv)
  have hsame : ∀ q v, Owns (h ++ merge r e) q v ↔ Owns (h ++ r ++ e) q v := fun q v => by
    rw [List.append_assoc, owns_append, owns_append, owns_merge he.entries hboth]
  -- a page with the identity `u` is put among the entries
  have hok : ∀ u, InRange u → (Owns (h ++ r ++ e) p u ∨
      (∀ q, ¬ Owns (h ++ r ++ e) q u) ∧ ∀ v, ¬ Owns (h ++ r ++ e) p v) →
      pageConnectorIdentity p (merge r e) h = .ok u →
      ∃ u targetIp, InRange u ∧ pageConnectorTargetIp u = .ok targetIp ∧
        publish r h e p = .ok (put e p (registryEntry u targetIp)) ∧
        Exclusive (h ++ r ++ put e p (registryEntry u targetIp)) := by
    intro u hu hnew hident
    have hip := pageConnectorTargetIp_eq hu
    have hentry := IsEntry.registered hu hip
    have hadd := hex.add hentry hnew
    refine ⟨u, _, hu, hip, ?_, hadd.mono fun q v hv => ?_⟩
    · unfold publish
      rw [hident]
      change (pageConnectorTargetIp u >>= _) = _
      rw [hip]
      rfl
    · have hput := owns_put (p := q) (u := v) hentry (hadd.mono fun q v hv => by
        rw [List.append_assoc (h ++ r)]
        exact owns_append.mpr (Or.inr hv))
      rw [List.append_assoc (h ++ r)]
      rcases owns_append.mp hv with hv | hv
      · exact owns_append.mpr (Or.inl hv)
      · exact owns_append.mpr (Or.inr (hput.mp hv))
  rcases pageConnectorIdentity_eq (p := p) (hr.entries.merge he.entries) hh
      (hex.mono fun q v => (hsame q v).mp) with
    ⟨u, hown, hident⟩ | ⟨u, hu, hfree, hnone, hident⟩ | ⟨htaken, hnone, hident⟩
  · have hown := (hsame p u).mp hown
    exact Or.inl (hok u (((hh.append hr.entries).append he.entries).inRange hown) (Or.inl hown)
      hident)
  · exact Or.inl (hok u hu (Or.inr ⟨fun q hq => hfree q ((hsame q u).mpr hq),
      fun v hv => hnone v ((hsame p v).mpr hv)⟩) hident)
  · refine Or.inr ⟨⟨fun u hu => ?_, fun v hv => hnone v ((hsame p v).mpr hv)⟩, ?_⟩
    · obtain ⟨q, hq⟩ := htaken u hu
      exact ⟨q, (hsame q u).mp hq⟩
    · unfold publish
      rw [hident]
      rfl

/-- **The whole list**, page by page. -/
theorem foldlM_publish (hr : Registered r) (hh : Entries h) {ids : List String}
    (he : Registered e) (hex : Exclusive (h ++ r ++ e)) :
    (∃ e', ids.foldlM (publish r h) e = .ok e' ∧ Registered e' ∧ Exclusive (h ++ r ++ e') ∧
        ∀ p, Has e' p ↔ p ∈ ids ∨ Has e p) ∨
      (ids.foldlM (publish r h) e = .error .exhausted ∧ ∃ e' p, p ∈ ids ∧ Registered e' ∧
        Exclusive (h ++ r ++ e') ∧ (∀ q, Has e' q → q ∈ ids ∨ Has e q) ∧
        Exhausted (h ++ r ++ e') p) := by
  induction ids generalizing e with
  | nil => exact Or.inl ⟨e, rfl, he, hex, fun p => by simp⟩
  | cons id ids ih =>
      rw [List.foldlM_cons]
      rcases publish_eq (p := id) hr hh he hex with
        ⟨u, targetIp, hu, hip, hpublish, hex'⟩ | ⟨hexhausted, hpublish⟩
      · rw [hpublish]
        rcases ih (he.put hu hip) hex' with
          ⟨e', hfold, he', hexe', hhas⟩ | ⟨hfold, e', p, hp, he', hexe', hhas, hexhausted⟩
        · refine Or.inl ⟨e', hfold, he', hexe', fun p => ?_⟩
          rw [hhas, has_put, List.mem_cons]
          tauto
        · refine Or.inr ⟨hfold, e', p, List.mem_cons_of_mem _ hp, he', hexe', fun q hq => ?_,
            hexhausted⟩
          have := hhas q hq
          rw [has_put] at this
          rw [List.mem_cons]
          tauto
      · rw [hpublish]
        exact Or.inr ⟨rfl, e, id, List.mem_cons_self, he, hex, fun q hq => Or.inr hq, hexhausted⟩

/-- A page that is gone is remembered with what it owned. -/
theorem foldlM_remember (hd : Entries d) (hh : Entries h) (hex : Exclusive (h ++ d)) :
    ∃ h', d.foldlM (remember e) h = .ok h' ∧ Entries h' ∧
      ∀ p u, Owns h' p u ↔ Owns h p u ∨ (Owns d p u ∧ ¬ Has e p) := by
  induction d generalizing h with
  | nil => exact ⟨h, rfl, hh, fun p u => by simp [not_owns_nil]⟩
  | cons f d ih =>
      obtain ⟨v, hv⟩ := hd f List.mem_cons_self
      have hrest := fun g hg => hd g (List.mem_cons_of_mem f hg)
      have hcons : ∀ p u, Owns (f :: d) p u ↔ (p = f.1 ∧ u = v) ∨ Owns d p u := fun p u => by
        rw [← List.singleton_append, owns_append, owns_singleton hv]
      rw [List.foldlM_cons]
      by_cases hhas : Has e f.1
      · have hany : e.any (·.1 = f.1) = true := by
          obtain ⟨entry, hmem⟩ := hhas
          exact List.any_eq_true.mpr ⟨_, hmem, decide_eq_true rfl⟩
        have hkeep : remember e h f = .ok h := if_pos hany
        obtain ⟨h', hfold, hh', howns⟩ := ih hrest hh (hex.mono fun p u hp => by
          rcases owns_append.mp hp with hp | hp
          · exact owns_append.mpr (Or.inl hp)
          · exact owns_append.mpr (Or.inr ((hcons p u).mpr (Or.inr hp))))
        refine ⟨h', by rw [hkeep]; exact hfold, hh', fun p u => ?_⟩
        rw [howns, hcons]
        refine or_congr_right (and_congr_left fun hp => ?_)
        exact ⟨Or.inr, fun h => h.resolve_left fun h => hp (h.1 ▸ hhas)⟩
      · have hany : ¬ e.any (·.1 = f.1) = true := fun hany => by
          obtain ⟨g, hmem, hkey⟩ := List.any_eq_true.mp hany
          exact hhas ⟨g.2, of_decide_eq_true hkey ▸ hmem⟩
        have hput : remember e h f = .ok (put h f.1 (historyEntry (.int v) (.int v))) := by
          obtain ⟨q, entry⟩ := f
          unfold remember
          rw [if_neg hany]
          cases hv <;> rfl
        have hentry := IsEntry.remembered hv.inRange
        have hpair : ∀ p u, Owns [(f.1, historyEntry (.int v) (.int v))] p u ↔ p = f.1 ∧ u = v :=
          fun p u => owns_singleton (f := (f.1, historyEntry (.int v) (.int v))) hentry
        have hadd : Exclusive (h ++ [(f.1, historyEntry (.int v) (.int v))]) :=
          hex.mono fun p u hp => by
            rcases owns_append.mp hp with hp | hp
            · exact owns_append.mpr (Or.inl hp)
            · exact owns_append.mpr (Or.inr ((hcons p u).mpr (Or.inl ((hpair p u).mp hp))))
        have howns' : ∀ p u, Owns (put h f.1 (historyEntry (.int v) (.int v))) p u ↔
            Owns h p u ∨ (p = f.1 ∧ u = v) := fun p u => by
          rw [owns_put hentry hadd, owns_append, hpair]
        obtain ⟨h', hfold, hh', howns⟩ := ih hrest (hh.put hentry) (hex.mono fun p u hp => by
          rcases owns_append.mp hp with hp | hp
          · rcases (howns' p u).mp hp with hp | hp
            · exact owns_append.mpr (Or.inl hp)
            · exact owns_append.mpr (Or.inr ((hcons p u).mpr (Or.inl hp)))
          · exact owns_append.mpr (Or.inr ((hcons p u).mpr (Or.inr hp))))
        refine ⟨h', by rw [hput]; exact hfold, hh', fun p u => ?_⟩
        rw [howns, howns', hcons]
        have hfirst : p = f.1 → ¬ Has e p := fun hp => hp ▸ hhas
        tauto

end Connectors

end AccessPages
