import Mathlib
/-!
# Common — tables with a primary key

A table is a list of rows no two of which share a key, in the order they
were inserted. The operations are the ones a statement can perform:
`INSERT`, which fails on a taken key, `INSERT OR REPLACE`, `INSERT OR
IGNORE`, `UPDATE` of columns outside the key and `DELETE ... WHERE`. Each
has one lemma saying which rows the result holds.
-/

namespace AccessPages

variable {α κ : Type*}

/-- Rows under a primary key. -/
structure Table (α : Type*) {κ : Type*} (key : α → κ) where
  rows : List α
  nodup : (rows.map key).Nodup

namespace Table

variable {key : α → κ}

instance : Membership α (Table α key) := ⟨fun t r => r ∈ t.rows⟩

theorem mem_def {t : Table α key} {r : α} : r ∈ t ↔ r ∈ t.rows := Iff.rfl

@[ext] theorem ext {s t : Table α key} (h : s.rows = t.rows) : s = t := by
  cases s; cases t; cases h; rfl

/-- The table with no rows. -/
def empty : Table α key := ⟨[], List.nodup_nil⟩

@[simp] theorem not_mem_empty {r : α} : r ∉ (empty : Table α key) := List.not_mem_nil

/-- A key names one row. -/
theorem eq_of_key_eq {t : Table α key} {r s : α} (hr : r ∈ t) (hs : s ∈ t)
    (h : key r = key s) : r = s :=
  List.inj_on_of_nodup_map t.nodup hr hs h

section Delete

/-- `DELETE ... WHERE p`. -/
def deleteWhere (t : Table α key) (p : α → Bool) : Table α key :=
  ⟨t.rows.filter (fun r => !p r), t.nodup.sublist (List.filter_sublist.map key)⟩

@[simp] theorem mem_deleteWhere {t : Table α key} {p : α → Bool} {r : α} :
    r ∈ t.deleteWhere p ↔ r ∈ t ∧ p r = false := by
  simp [deleteWhere, mem_def]

/-- Nothing to delete leaves the table as it is. -/
theorem deleteWhere_eq_self {t : Table α key} {p : α → Bool} (h : ∀ r ∈ t, p r = false) :
    t.deleteWhere p = t := by
  ext1
  exact List.filter_eq_self.mpr fun r hr => by simp [h r hr]

end Delete

section Update

/-- `UPDATE ... SET f WHERE p`, of columns outside the key. -/
def updateWhere (t : Table α key) (p : α → Bool) (f : α → α) (hf : ∀ r, key (f r) = key r) :
    Table α key :=
  ⟨t.rows.map (fun r => if p r then f r else r), by
    have : key ∘ (fun r => if p r then f r else r) = key := by
      funext r; by_cases h : p r <;> simp [h, hf]
    rw [List.map_map, this]; exact t.nodup⟩

theorem mem_updateWhere {t : Table α key} {p : α → Bool} {f : α → α}
    {hf : ∀ r, key (f r) = key r} {r : α} :
    r ∈ t.updateWhere p f hf ↔ ∃ s ∈ t, (if p s then f s else s) = r :=
  List.mem_map

theorem exists_key_updateWhere {t : Table α key} {p : α → Bool} {f : α → α}
    (hf : ∀ r, key (f r) = key r) {s : α} (hs : s ∈ t) :
    ∃ r ∈ t.updateWhere p f hf, key r = key s := by
  refine ⟨if p s then f s else s, mem_updateWhere.mpr ⟨s, hs, rfl⟩, ?_⟩
  split
  · exact hf s
  · rfl

end Update

variable [DecidableEq κ]

section Rekey

/-- `UPDATE ... SET f WHERE p`, of any column; nothing where two rows would
share a key, which is the integrity error. -/
def update? (t : Table α key) (p : α → Bool) (f : α → α) : Option (Table α key) :=
  if h : ((t.rows.map fun r => if p r then f r else r).map key).Nodup then some ⟨_, h⟩ else none

theorem mem_update? {t t' : Table α key} {p : α → Bool} {f : α → α} (h : t.update? p f = some t')
    {r : α} : r ∈ t' ↔ ∃ s ∈ t, (if p s then f s else s) = r := by
  unfold update? at h
  split at h
  · cases h
    exact List.mem_map
  · cases h

/-- Giving one row a free key goes through. -/
theorem update?_isSome {t : Table α key} {p : α → Bool} {f : α → α}
    (hone : ∀ r ∈ t, ∀ s ∈ t, p r → p s → r = s)
    (hfree : ∀ r ∈ t, p r → ∀ s ∈ t, key s ≠ key (f r)) : (t.update? p f).isSome = true := by
  unfold update?
  rw [dif_pos]
  · rfl
  rw [List.map_map]
  refine (List.Nodup.of_map key t.nodup).map_on fun r hr s hs h => ?_
  simp only [Function.comp_apply] at h
  by_cases hpr : p r <;> by_cases hps : p s
  · exact hone r hr s hs hpr hps
  · rw [if_pos hpr, if_neg hps] at h
    exact absurd h.symm (hfree r hr hpr s hs)
  · rw [if_neg hpr, if_pos hps] at h
    exact absurd h (hfree s hs hps r hr)
  · rw [if_neg hpr, if_neg hps] at h
    exact eq_of_key_eq hr hs h

end Rekey

section Select

/-- The row under a key. -/
def find? (t : Table α key) (k : κ) : Option α := t.rows.find? (fun r => key r = k)

theorem find?_eq_some {t : Table α key} {k : κ} {r : α} :
    t.find? k = some r ↔ r ∈ t ∧ key r = k := by
  constructor
  · intro h
    exact ⟨List.mem_of_find?_eq_some h, by simpa using List.find?_some h⟩
  · rintro ⟨hr, hk⟩
    cases h : t.find? k with
    | none => exact absurd hk (by simpa using List.find?_eq_none.mp h r hr)
    | some s =>
        have hs : s ∈ t := List.mem_of_find?_eq_some h
        have hsk : key s = k := by simpa using List.find?_some h
        rw [eq_of_key_eq hs hr (hsk.trans hk.symm)]

theorem find?_eq_none {t : Table α key} {k : κ} :
    t.find? k = none ↔ ∀ r ∈ t, key r ≠ k := by
  simp [find?, List.find?_eq_none, mem_def]

theorem find?_deleteWhere {t : Table α key} {p : α → Bool} {k : κ} :
    (t.deleteWhere p).find? k = (t.find? k).filter fun r => !p r := by
  ext r
  simp only [find?_eq_some, mem_deleteWhere, Option.filter_eq_some_iff, Bool.not_eq_true']
  tauto

theorem find?_updateWhere {t : Table α key} {p : α → Bool} {f : α → α}
    {hf : ∀ r, key (f r) = key r} {k : κ} :
    (t.updateWhere p f hf).find? k = (t.find? k).map fun r => if p r then f r else r := by
  have hkey : ∀ r, key (if p r then f r else r) = key r := by
    intro r; by_cases h : p r <;> simp [h, hf]
  ext r
  simp only [find?_eq_some, mem_updateWhere, Option.map_eq_some_iff]
  constructor
  · rintro ⟨⟨s, hs, rfl⟩, hk⟩
    exact ⟨s, ⟨hs, (hkey s).symm.trans hk⟩, rfl⟩
  · rintro ⟨s, ⟨hs, hk⟩, rfl⟩
    exact ⟨⟨s, hs, rfl⟩, (hkey s).trans hk⟩

end Select

section Insert

/-- `INSERT`; nothing where the key is taken, which is the integrity error. -/
def insert (t : Table α key) (r : α) : Option (Table α key) :=
  if h : key r ∈ t.rows.map key then none
  else some ⟨t.rows ++ [r], by
    rw [List.map_append, List.nodup_append]
    exact ⟨t.nodup, by simp, by rintro a ha b hb rfl; simp at hb; exact h (hb ▸ ha)⟩⟩

theorem insert_eq_none {t : Table α key} {r : α} :
    t.insert r = none ↔ ∃ s ∈ t, key s = key r := by
  simp [insert, mem_def]

/-- What an insertion that goes through says: the key was free, and the
rows are the old ones and the new one. -/
theorem insert_eq_some {t t' : Table α key} {r : α} (h : t.insert r = some t') :
    (∀ s ∈ t, key s ≠ key r) ∧ ∀ s, s ∈ t' ↔ s ∈ t ∨ s = r := by
  unfold insert at h
  split at h
  · cases h
  · rename_i hk
    cases h
    refine ⟨fun s hs he => hk (List.mem_map.mpr ⟨s, hs, he⟩), fun s => ?_⟩
    simp [mem_def]

/-- `INSERT OR REPLACE`. -/
def insertOrReplace (t : Table α key) (r : α) : Table α key :=
  ⟨t.rows.filter (fun s => key s ≠ key r) ++ [r], by
    rw [List.map_append, List.nodup_append]
    refine ⟨t.nodup.sublist (List.filter_sublist.map key), by simp, ?_⟩
    rintro a ha b hb rfl
    obtain ⟨s, hs, rfl⟩ := List.mem_map.mp ha
    simp only [List.map_cons, List.map_nil, List.mem_singleton] at hb
    simp [hb] at hs⟩

@[simp] theorem mem_insertOrReplace {t : Table α key} {r s : α} :
    s ∈ t.insertOrReplace r ↔ (s ∈ t ∧ key s ≠ key r) ∨ s = r := by
  simp [insertOrReplace, mem_def]

theorem find?_insertOrReplace {t : Table α key} {r : α} {k : κ} :
    (t.insertOrReplace r).find? k = if key r = k then some r else t.find? k := by
  split
  · rename_i h
    exact find?_eq_some.mpr ⟨mem_insertOrReplace.mpr (Or.inr rfl), h⟩
  · rename_i h
    ext s
    simp only [find?_eq_some, mem_insertOrReplace]
    constructor
    · rintro ⟨⟨hs, -⟩ | rfl, hk⟩
      · exact ⟨hs, hk⟩
      · exact absurd hk h
    · rintro ⟨hs, hk⟩
      exact ⟨Or.inl ⟨hs, fun he => h (he.symm.trans hk)⟩, hk⟩

/-- `INSERT OR IGNORE`. -/
def insertOrIgnore (t : Table α key) (r : α) : Table α key := (t.insert r).getD t

theorem mem_insertOrIgnore {t : Table α key} {r s : α} :
    s ∈ t.insertOrIgnore r ↔ s ∈ t ∨ (s = r ∧ ∀ q ∈ t, key q ≠ key r) := by
  unfold insertOrIgnore
  cases h : t.insert r with
  | none =>
      obtain ⟨q, hq, hk⟩ := insert_eq_none.mp h
      exact ⟨.inl, fun hs => hs.elim id fun hs => absurd hk (hs.2 q hq)⟩
  | some t' =>
      obtain ⟨hfree, hmem⟩ := insert_eq_some h
      exact (hmem s).trans (or_congr_right ⟨fun hs => ⟨hs, hfree⟩, And.left⟩)

/-- Ignoring a taken key still leaves a row under it. -/
theorem exists_key_insertOrIgnore {t : Table α key} {r : α} :
    ∃ s ∈ t.insertOrIgnore r, key s = key r := by
  unfold insertOrIgnore
  cases h : t.insert r with
  | none => simpa using insert_eq_none.mp h
  | some t' => exact ⟨r, ((insert_eq_some h).2 r).mpr (Or.inr rfl), rfl⟩

theorem mem_insertOrIgnore_of_mem {t : Table α key} {r s : α} (hs : s ∈ t) :
    s ∈ t.insertOrIgnore r := by
  unfold insertOrIgnore
  cases h : t.insert r with
  | none => exact hs
  | some t' => exact ((insert_eq_some h).2 s).mpr (Or.inl hs)

/-- Inserting one row after another keeps what is there. -/
theorem mem_foldl_insertOrIgnore_of_mem {rs : List α} {t : Table α key} {s : α} (hs : s ∈ t) :
    s ∈ rs.foldl insertOrIgnore t := by
  induction rs generalizing t with
  | nil => exact hs
  | cons r rs ih => exact ih (mem_insertOrIgnore_of_mem hs)

theorem mem_of_mem_foldl_insertOrIgnore {rs : List α} {t : Table α key} {s : α}
    (hs : s ∈ rs.foldl insertOrIgnore t) : s ∈ t ∨ s ∈ rs := by
  induction rs generalizing t with
  | nil => exact Or.inl hs
  | cons r rs ih =>
      rcases ih hs with h | h
      · rcases mem_insertOrIgnore.mp h with h | ⟨rfl, -⟩
        · exact Or.inl h
        · exact Or.inr List.mem_cons_self
      · exact Or.inr (List.mem_cons_of_mem r h)

theorem exists_key_foldl_insertOrIgnore {rs : List α} {t : Table α key} {r : α} (hr : r ∈ rs) :
    ∃ s ∈ rs.foldl insertOrIgnore t, key s = key r := by
  induction rs generalizing t with
  | nil => exact absurd hr List.not_mem_nil
  | cons r' rs ih =>
      rcases List.mem_cons.mp hr with rfl | hr
      · obtain ⟨s, hs, hk⟩ := exists_key_insertOrIgnore (t := t) (r := r)
        refine ⟨s, ?_, hk⟩
        rw [List.foldl_cons]
        exact mem_foldl_insertOrIgnore_of_mem hs
      · exact ih hr

end Insert

end Table

end AccessPages
