import Mathlib
/-!
# Common — a log with a cap

Rows with an owner, a text that says when, and a number that grows. The
newest rows of an owner are chosen by the text, rows with one text by the
number, and the others of that owner are deleted. Nothing is said here of
the texts: the rows that stay are the last ones exactly when the texts do
not put a later row before the first.
-/

namespace AccessPages

namespace CappedLog

variable {ρ κ τ : Type*} [DecidableEq κ] [LinearOrder τ]

/-- The columns the statement reads. -/
structure Columns (ρ κ τ : Type*) where
  owner : ρ → κ
  occurredAt : ρ → τ
  id : ρ → Nat

variable (c : Columns ρ κ τ)

/-- `ORDER BY occurred_at DESC, id DESC`. -/
def newestFirst (a b : ρ) : Bool :=
  c.occurredAt b < c.occurredAt a ∨ (c.occurredAt a = c.occurredAt b ∧ c.id b ≤ c.id a)

def ofOwner (key : κ) (rows : List ρ) : List ρ := rows.filter (c.owner · = key)

/-- `SELECT id FROM rows WHERE owner = ? ORDER BY ... LIMIT cap`. -/
def newest (key : κ) (cap : Nat) (rows : List ρ) : List Nat :=
  (((ofOwner c key rows).mergeSort (newestFirst c)).take cap).map c.id

/-- `DELETE FROM rows WHERE owner = ? AND id NOT IN (SELECT ...)`. -/
def trim (key : κ) (cap : Nat) (rows : List ρ) : List ρ :=
  rows.filter fun r => !(c.owner r = key && c.id r ∉ newest c key cap rows)

/-- Each row has a number above those before it. -/
def Numbered (rows : List ρ) : Prop := rows.Pairwise fun a b => c.id a < c.id b

variable {c} {key : κ} {cap : Nat} {rows : List ρ}

omit [DecidableEq κ] in
theorem newestFirst_trans (a b d : ρ) (h : newestFirst c a b = true) (h' : newestFirst c b d = true) :
    newestFirst c a d = true := by
  unfold newestFirst at *
  rw [decide_eq_true_eq] at *
  rcases h with h | ⟨he, hi⟩ <;> rcases h' with h' | ⟨he', hi'⟩
  · exact .inl (h'.trans h)
  · exact .inl (he' ▸ h)
  · exact .inl (he ▸ h')
  · exact .inr ⟨he.trans he', hi'.trans hi⟩

omit [DecidableEq κ] in
theorem newestFirst_total (a b : ρ) : (newestFirst c a b || newestFirst c b a) = true := by
  unfold newestFirst
  rw [Bool.or_eq_true, decide_eq_true_eq, decide_eq_true_eq]
  rcases lt_trichotomy (c.occurredAt a) (c.occurredAt b) with h | h | h
  · exact .inr (.inl h)
  · rcases Nat.le_total (c.id a) (c.id b) with hi | hi
    · exact .inr (.inr ⟨h.symm, hi⟩)
    · exact .inl (.inr ⟨h, hi⟩)
  · exact .inl (.inl h)

omit [DecidableEq κ] [LinearOrder τ] in
theorem Numbered.eq_of_id {a b : ρ} (h : Numbered c rows) (ha : a ∈ rows) (hb : b ∈ rows)
    (he : c.id a = c.id b) : a = b := by
  have hnodup : (rows.map c.id).Nodup := by
    rw [List.Nodup, List.pairwise_map]
    exact h.imp Nat.ne_of_lt
  exact List.inj_on_of_nodup_map hnodup ha hb he

/-- The rows of the owner that stay are the newest. -/
theorem ofOwner_trim : ofOwner c key (trim c key cap rows) =
    (ofOwner c key rows).filter (c.id · ∈ newest c key cap rows) := by
  unfold ofOwner trim
  rw [List.filter_filter, List.filter_filter]
  refine List.filter_congr fun r _ => ?_
  by_cases hk : c.owner r = key
  · simp [hk]
  · simp [hk]

/-- The rows of another owner stay. -/
theorem ofOwner_trim_of_ne {key' : κ} (hne : key' ≠ key) :
    ofOwner c key' (trim c key cap rows) = ofOwner c key' rows := by
  unfold ofOwner trim
  rw [List.filter_filter]
  refine List.filter_congr fun r _ => ?_
  by_cases hk : c.owner r = key'
  · simp [hk, hne]
  · simp [hk]

/-- An owner within the cap keeps all rows. -/
theorem trim_eq_self (hcap : (ofOwner c key rows).length ≤ cap) : trim c key cap rows = rows := by
  refine List.filter_eq_self.mpr fun r hr => ?_
  by_cases hk : c.owner r = key
  · have hmem : r ∈ (ofOwner c key rows).mergeSort (newestFirst c) :=
      List.mem_mergeSort.mpr (List.mem_filter.mpr ⟨hr, decide_eq_true hk⟩)
    have hall : c.id r ∈ newest c key cap rows := by
      unfold newest
      rw [List.take_of_length_le (by rwa [List.length_mergeSort])]
      exact List.mem_map_of_mem hmem
    simp [hall]
  · simp [hk]

omit [DecidableEq κ] in
/-- The row a cap deletes: the last one in the order of the texts. -/
theorem mergeSort_concat {rs : List ρ} (hlen : rs.length = cap + 1) : ∃ z,
    rs.mergeSort (newestFirst c) = (rs.mergeSort (newestFirst c)).take cap ++ [z] ∧
      ∀ r ∈ rs, newestFirst c r z = true ∨ r = z := by
  have hsorted := @List.pairwise_mergeSort _ (newestFirst c) newestFirst_trans
    newestFirst_total rs
  rcases List.eq_nil_or_concat' (rs.mergeSort (newestFirst c)) with hnil | ⟨l, z, hl⟩
  · have := congrArg List.length hnil
    rw [List.length_mergeSort, hlen] at this
    cases this
  · have hlen' : l.length = cap := by
      have := congrArg List.length hl
      rw [List.length_mergeSort, hlen, List.length_append, List.length_singleton] at this
      omega
    refine ⟨z, ?_, fun r hr => ?_⟩
    · rw [hl, ← hlen', List.take_left']
      rfl
    · have hmem : r ∈ l ++ [z] := hl ▸ List.mem_mergeSort.mpr hr
      rw [hl] at hsorted
      rcases List.mem_append.mp hmem with h | h
      · exact .inl ((List.pairwise_append.mp hsorted).2.2 r h z (List.mem_singleton_self z))
      · exact .inr (List.mem_singleton.mp h)

section Full

variable {a : ρ} {rest : List ρ}

omit [LinearOrder τ] in
theorem Numbered.ofOwner (h : Numbered c rows) (key : κ) : Numbered c (ofOwner c key rows) :=
  h.sublist List.filter_sublist

/-- **The cap deletes the first row** of an owner one above it, when no
later row's text is before the first one's. -/
theorem ofOwner_trim_eq_tail (h : Numbered c rows) (hown : ofOwner c key rows = a :: rest)
    (hlen : rest.length = cap) (htexts : ∀ b ∈ rest, c.occurredAt a ≤ c.occurredAt b) :
    ofOwner c key (trim c key cap rows) = rest := by
  have hnum : Numbered c (a :: rest) := hown ▸ h.ofOwner key
  obtain ⟨z, hsort, hlast⟩ := @mergeSort_concat _ _ _ _ c cap (a :: rest)
    (by rw [List.length_cons, hlen])
  -- the last row in the order of the texts is the first in the log
  have hz : z = a := by
    have hmem : z ∈ a :: rest := by
      rw [← @List.mem_mergeSort _ (newestFirst c), hsort]
      exact List.mem_append_right _ (List.mem_singleton_self z)
    rcases List.mem_cons.mp hmem with rfl | hz
    · rfl
    rcases hlast a List.mem_cons_self with haz | rfl
    · have hid := (List.pairwise_cons.mp hnum).1 z hz
      have htext := htexts z hz
      rw [newestFirst, decide_eq_true_eq] at haz
      rcases haz with hlt | ⟨-, hle⟩
      · exact absurd hlt (not_lt.mpr htext)
      · omega
    · rfl
  subst hz
  have hperm : (((z :: rest).mergeSort (newestFirst c)).take cap ++ [z]).Perm (z :: rest) := by
    rw [← hsort]
    exact List.mergeSort_perm _ _
  have hmem : ∀ {r}, r ∈ ((z :: rest).mergeSort (newestFirst c)).take cap ↔ r ∈ rest :=
    ((List.perm_cons z).mp ((List.perm_append_singleton z _).symm.trans hperm)).mem_iff
  rw [ofOwner_trim, newest, hown, List.filter_cons_of_neg, List.filter_eq_self]
  · intro r hr
    exact decide_eq_true (List.mem_map_of_mem (hmem.mpr hr))
  · rw [decide_eq_true_eq]
    intro hin
    obtain ⟨r, hr, hid⟩ := List.mem_map.mp hin
    have hlt := (List.pairwise_cons.mp hnum).1 r (hmem.mp hr)
    omega

/-- A later row whose text is before the first one's lets the first stay. -/
theorem mem_trim_of_lt (hown : ofOwner c key rows = a :: rest)
    (hlen : rest.length = cap) {b : ρ} (hb : b ∈ rest) (htext : c.occurredAt b < c.occurredAt a) :
    a ∈ CappedLog.ofOwner c key (trim c key cap rows) := by
  obtain ⟨z, hsort, hlast⟩ := @mergeSort_concat _ _ _ _ c cap (a :: rest)
    (by rw [List.length_cons, hlen])
  have hmem : a ∈ (a :: rest).mergeSort (newestFirst c) :=
    List.mem_mergeSort.mpr List.mem_cons_self
  rw [hsort] at hmem
  rcases List.mem_append.mp hmem with hin | hz
  · rw [ofOwner_trim, newest, hown]
    exact List.mem_filter.mpr ⟨List.mem_cons_self, decide_eq_true (List.mem_map_of_mem hin)⟩
  · exfalso
    obtain rfl := List.mem_singleton.mp hz
    rcases hlast b (List.mem_cons_of_mem a hb) with hba | rfl
    · rw [newestFirst, decide_eq_true_eq] at hba
      rcases hba with hlt | ⟨he, -⟩
      · exact lt_asymm hlt htext
      · exact htext.ne he
    · exact lt_irrefl _ htext

end Full

/-! ## One more row -/

/-- The last rows of a log that grows by one. -/
theorem rtake_append_singleton {α : Type*} (l : List α) (x : α) (n : Nat) :
    (l ++ [x]).rtake n =
      if (l.rtake n).length < n then l.rtake n ++ [x] else (l.rtake n ++ [x]).tail := by
  unfold List.rtake
  rw [List.length_drop, List.length_append, List.length_singleton]
  split
  · have h : l.length + 1 - n = l.length - n := by omega
    rw [h, List.drop_append_of_le_length (by omega)]
  · have h : l.length + 1 - n = (l.length - n) + 1 := by omega
    rw [h, ← List.drop_drop, List.drop_append_of_le_length (by omega), List.drop_one]

/-- The last rows among those from some point on. -/
theorem rtake_filter {α : Type*} {p : α → Bool} {l : List α} (n : Nat)
    (h : l.Pairwise fun a b => p a = true → p b = true) :
    (l.rtake n).filter p = (l.filter p).rtake n := by
  induction l using List.reverseRecOn generalizing n with
  | nil => simp
  | append_singleton l x ih =>
      obtain ⟨hl, -, hx⟩ := List.pairwise_append.mp h
      cases n with
      | zero => simp
      | succ n =>
          rw [List.rtake_concat_succ, List.filter_append, List.filter_append, ih n hl]
          by_cases hp : p x = true
          · rw [List.filter_cons_of_pos hp, List.filter_nil, List.rtake_concat_succ]
          · have hnone : l.filter p = [] := List.filter_eq_nil_iff.mpr fun a ha hpa =>
              hp (hx a ha x (List.mem_singleton_self x) hpa)
            rw [hnone, List.filter_cons_of_neg hp, List.filter_nil]
            simp

variable (c) in
/-- No row of the owner has a text before the first one's, when the cap is
reached. -/
def InOrder (key : κ) (cap : Nat) (rows : List ρ) : Prop :=
  (ofOwner c key rows).length ≤ cap ∨
    ∀ a rest, ofOwner c key rows = a :: rest → ∀ b ∈ rest, c.occurredAt a ≤ c.occurredAt b

/-- **A log of the last rows stays one** when a row is added and the log
trimmed, exactly if the rows are in order. -/
theorem ofOwner_trim_append {log : List ρ} {r : ρ} (h : Numbered c (rows ++ [r]))
    (hr : c.owner r = key) (hown : ofOwner c key rows = log.rtake cap) :
    ofOwner c key (trim c key cap (rows ++ [r])) = (log ++ [r]).rtake cap ↔
      InOrder c key cap (rows ++ [r]) := by
  have happ : ofOwner c key (rows ++ [r]) = log.rtake cap ++ [r] := by
    unfold ofOwner at *
    rw [List.filter_append, hown]
    simp [hr]
  have hle : (log.rtake cap).length ≤ cap := by
    unfold List.rtake
    rw [List.length_drop]
    omega
  rw [rtake_append_singleton]
  by_cases hroom : (log.rtake cap).length < cap
  · have hlen : (ofOwner c key (rows ++ [r])).length ≤ cap := by
      rw [happ, List.length_append, List.length_singleton]
      omega
    rw [if_pos hroom, trim_eq_self hlen, happ]
    exact ⟨fun _ => .inl hlen, fun _ => rfl⟩
  · rw [if_neg hroom, ← happ]
    cases hcons : ofOwner c key (rows ++ [r]) with
    | nil =>
        rw [hcons] at happ
        exact absurd happ.symm (List.append_ne_nil_of_right_ne_nil _ (List.cons_ne_nil r []))
    | cons a rest =>
        have hlen : rest.length = cap := by
          have := congrArg List.length happ
          rw [hcons, List.length_cons, List.length_append, List.length_singleton] at this
          omega
        rw [List.tail_cons]
        constructor
        · intro he
          refine .inr fun a' rest' hcons' b hb => ?_
          obtain ⟨rfl, rfl⟩ := List.cons.inj (hcons.symm.trans hcons')
          by_contra hlt
          have hmem := mem_trim_of_lt hcons hlen hb (not_le.mp hlt)
          rw [he] at hmem
          have hnum : Numbered c (a :: rest) := hcons ▸ h.ofOwner key
          have := (List.pairwise_cons.mp hnum).1 a hmem
          omega
        · rintro (hcap | htexts)
          · rw [hcons, List.length_cons] at hcap
            omega
          · exact ofOwner_trim_eq_tail h hcons hlen (htexts a rest hcons)

end CappedLog

end AccessPages
