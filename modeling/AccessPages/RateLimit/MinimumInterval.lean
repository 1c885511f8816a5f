import AccessPages.Common.Table
/-!
# RateLimit — the minimum interval

`MinimumIntervalRateLimiter` of `rate_limit.py`. It keeps the time of the
last granted check of each key and denies a check that comes too early.
The map is bounded, and a grant that finds it full evicts the earliest
entry, also when the key it grants is stored already: then the map shrinks
and another key is forgotten while its interval is running.
-/

namespace AccessPages

namespace RateLimit

variable {K : Type} [DecidableEq K]

/-! ## The limiter -/

/-- `_last`: the last granted check of each key, in the order of the dict. -/
abbrev Last (K : Type) [DecidableEq K] := Table (K × ℚ) (Prod.fst : K × ℚ → K)

/-- `last[key] = now`: a stored key keeps its place. -/
def Last.set (last : Last K) (key : K) (now : ℚ) : Last K :=
  match last.find? key with
  | some _ => last.updateWhere (·.1 = key) (fun r => (r.1, now)) fun _ => rfl
  | none => last.insertOrReplace (key, now)

/-- `min(last, key=last.get)`: the first of the earliest entries, if any. -/
def Last.oldest (last : Last K) : Option (K × ℚ) := last.rows.argmin Prod.snd

structure MinimumInterval (K : Type) [DecidableEq K] where
  maxEntries : Nat
  last : Last K

def MinimumInterval.new (maxEntries : Nat) : MinimumInterval K := ⟨maxEntries, .empty⟩

/-- The part of `check` that grants. `min` of no entries raises: then there
is no answer, and nothing is changed. -/
def MinimumInterval.grant (l : MinimumInterval K) (key : K) (now : ℚ) :
    Option (Bool × ℤ) × MinimumInterval K :=
  if l.maxEntries ≤ l.last.rows.length then
    match l.last.oldest with
    | some oldest =>
        (some (true, 0), { l with last := Last.set (l.last.deleteWhere (·.1 = oldest.1)) key now })
    | none => (none, l)
  else (some (true, 0), { l with last := l.last.set key now })

def MinimumInterval.check (l : MinimumInterval K) (key : K) (interval now : ℚ) :
    Option (Bool × ℤ) × MinimumInterval K :=
  match l.last.find? key with
  | some previous =>
      if now - previous.2 < interval then
        let remaining := interval - (now - previous.2)
        (some (false, max 1 ⌈remaining⌉), l)
      else l.grant key now
  | none => l.grant key now

/-! ## Runs -/

/-- A call of `check` at a reading of the clock. -/
structure Check (K : Type) where
  key : K
  interval : ℚ
  now : ℚ
  deriving DecidableEq, Repr

/-- The answer, and the limiter after it. -/
def MinimumInterval.step (l : MinimumInterval K) (c : Check K) :
    Option (Bool × ℤ) × MinimumInterval K := l.check c.key c.interval c.now

def MinimumInterval.after (l : MinimumInterval K) (cs : List (Check K)) : MinimumInterval K :=
  cs.foldl (fun l c => (l.step c).2) l

/-- The check, if it is granted. -/
def MinimumInterval.granted (l : MinimumInterval K) (c : Check K) : List (Check K) :=
  if (l.step c).1 = some (true, 0) then [c] else []

/-- The granted checks, in order. -/
def MinimumInterval.grants (l : MinimumInterval K) : List (Check K) → List (Check K)
  | [] => []
  | c :: cs => l.granted c ++ grants (l.step c).2 cs

/-- Checks of a clock that does not go back, with intervals, of no more
keys than the map may hold. -/
structure Admitted (maxEntries : Nat) (cs : List (Check K)) : Prop where
  clock : cs.Pairwise fun a b => a.now ≤ b.now
  intervals : ∀ c ∈ cs, 0 < c.interval
  keys : (cs.map Check.key).toFinset.card ≤ maxEntries

/-- Two checks of one key are the later one's interval apart. -/
def Spaced (log : List (Check K)) : Prop :=
  log.Pairwise fun a b => a.key = b.key → b.interval ≤ b.now - a.now

/-- A check that forgets no other key: it is denied, or the map has room,
or the entry it evicts is its own. -/
def Spares (l : MinimumInterval K) (c : Check K) : Prop :=
  (∃ r ∈ l.last, r.1 = c.key ∧ c.now - r.2 < c.interval) ∨
    l.last.rows.length < l.maxEntries ∨ ∃ r, l.last.oldest = some r ∧ r.1 = c.key

theorem after_append (l : MinimumInterval K) (cs ds : List (Check K)) :
    l.after (cs ++ ds) = (l.after cs).after ds := List.foldl_append

theorem after_snoc (l : MinimumInterval K) (cs : List (Check K)) (c : Check K) :
    l.after (cs ++ [c]) = ((l.after cs).step c).2 := after_append l cs [c]

theorem grants_append (l : MinimumInterval K) (cs ds : List (Check K)) :
    l.grants (cs ++ ds) = l.grants cs ++ (l.after cs).grants ds := by
  induction cs generalizing l with
  | nil => rfl
  | cons c cs ih =>
      rw [List.cons_append, MinimumInterval.grants, ih, ← List.append_assoc]
      rfl

theorem grants_snoc (l : MinimumInterval K) (cs : List (Check K)) (c : Check K) :
    l.grants (cs ++ [c]) = l.grants cs ++ (l.after cs).granted c := by
  have hone : (l.after cs).grants [c] = (l.after cs).granted c := List.append_nil _
  rw [grants_append, hone]

theorem granted_subset (l : MinimumInterval K) (c : Check K) : l.granted c ⊆ [c] := by
  unfold MinimumInterval.granted
  split
  · exact fun _ h => h
  · exact List.nil_subset _

theorem grants_subset (l : MinimumInterval K) (cs : List (Check K)) : l.grants cs ⊆ cs := by
  induction cs generalizing l with
  | nil => exact fun _ h => h
  | cons c cs ih =>
      intro g hg
      rcases List.mem_append.mp hg with h | h
      · exact List.mem_cons.mpr (.inl (List.mem_singleton.mp (granted_subset l c h)))
      · exact List.mem_cons_of_mem c (ih _ h)

/-! ## The map -/

section Map

variable {last : Last K} {key : K} {now : ℚ}

theorem mem_set {r : K × ℚ} :
    r ∈ last.set key now ↔ r = (key, now) ∨ (r ∈ last ∧ r.1 ≠ key) := by
  unfold Last.set
  split
  · rename_i s hs
    obtain ⟨hs, hk⟩ := Table.find?_eq_some.mp hs
    rw [Table.mem_updateWhere]
    constructor
    · rintro ⟨q, hq, rfl⟩
      by_cases hqk : q.1 = key
      · exact .inl (by simp [hqk])
      · exact .inr (by simpa [hqk] using hq)
    · rintro (rfl | ⟨hr, hne⟩)
      · exact ⟨s, hs, by simp [hk]⟩
      · exact ⟨r, hr, by simp [hne]⟩
  · rw [Table.mem_insertOrReplace, or_comm]

theorem length_set : (last.set key now).rows.length ≤ last.rows.length + 1 := by
  unfold Last.set
  split
  · simp [Table.updateWhere]
  · have := List.length_filter_le (fun s : K × ℚ => decide (s.1 ≠ (key, now).1)) last.rows
    simpa [Table.insertOrReplace] using this

theorem length_evict {r : K × ℚ} (h : r ∈ last) :
    (last.deleteWhere (·.1 = r.1)).rows.length < last.rows.length :=
  List.length_filter_lt_length_iff_exists.mpr ⟨r, h, by simp⟩

theorem oldest_mem {r : K × ℚ} (h : last.oldest = some r) : r ∈ last :=
  List.argmin_mem h

end Map

/-! ## One check -/

section Check

variable {l : MinimumInterval K} {c : Check K}

/-- A check that is granted without forgetting, or by forgetting the oldest
entry, or that raises. -/
def Grants (l : MinimumInterval K) (c : Check K) : Prop :=
  (l.last.rows.length < l.maxEntries ∧
      l.step c = (some (true, 0), { l with last := l.last.set c.key c.now })) ∨
    (l.maxEntries ≤ l.last.rows.length ∧ ∃ r, l.last.oldest = some r ∧ l.step c =
      (some (true, 0), { l with last := Last.set (l.last.deleteWhere (·.1 = r.1)) c.key c.now })) ∨
    (l.maxEntries = 0 ∧ l.step c = (none, l))

/-- **What a check does.** -/
theorem step_cases (l : MinimumInterval K) (c : Check K) :
    (∃ r ∈ l.last, r.1 = c.key ∧ c.now - r.2 < c.interval ∧
      l.step c = (some (false, max 1 ⌈c.interval - (c.now - r.2)⌉), l)) ∨
    ((∀ r ∈ l.last, r.1 = c.key → c.interval ≤ c.now - r.2) ∧ Grants l c) := by
  have hgrant : l.step c = l.grant c.key c.now → Grants l c := by
    intro h
    unfold MinimumInterval.grant at h
    split at h
    · rename_i hfull
      split at h
      · rename_i r hr
        exact .inr (.inl ⟨hfull, r, hr, h⟩)
      · rename_i hnone
        have hnil : l.last.rows = [] := List.argmin_eq_none.mp hnone
        rw [hnil] at hfull
        exact .inr (.inr ⟨Nat.le_zero.mp hfull, h⟩)
    · rename_i hroom
      exact .inl ⟨not_le.mp hroom, h⟩
  cases hfind : l.last.find? c.key with
  | none =>
      refine .inr ⟨fun r hr hk => absurd hk (Table.find?_eq_none.mp hfind r hr), hgrant ?_⟩
      simp only [MinimumInterval.step, MinimumInterval.check, hfind]
  | some previous =>
      obtain ⟨hmem, hkey⟩ := Table.find?_eq_some.mp hfind
      by_cases hearly : c.now - previous.2 < c.interval
      · refine .inl ⟨previous, hmem, hkey, hearly, ?_⟩
        simp only [MinimumInterval.step, MinimumInterval.check, hfind, if_pos hearly]
      · refine .inr ⟨fun r hr hk => ?_, hgrant ?_⟩
        · rw [Table.eq_of_key_eq hr hmem (hk.trans hkey.symm)]
          exact not_lt.mp hearly
        · simp only [MinimumInterval.step, MinimumInterval.check, hfind, if_neg hearly]

theorem step_maxEntries (l : MinimumInterval K) (c : Check K) :
    (l.step c).2.maxEntries = l.maxEntries := by
  rcases step_cases l c with ⟨r, -, -, -, h⟩ | ⟨-, ⟨-, h⟩ | ⟨-, r, -, h⟩ | ⟨-, h⟩⟩ <;> rw [h]

/-- The map stays within its bound. -/
theorem step_bounded (h : l.last.rows.length ≤ l.maxEntries) :
    (l.step c).2.last.rows.length ≤ (l.step c).2.maxEntries := by
  rcases step_cases l c with ⟨r, -, -, -, he⟩ | ⟨-, ⟨hroom, he⟩ | ⟨-, r, hr, he⟩ | ⟨-, he⟩⟩ <;> rw [he]
  · exact h
  · exact length_set.trans hroom
  · have hevict := length_evict (oldest_mem hr)
    exact length_set.trans (hevict.trans_le h)
  · exact h

/-- Every entry is a granted check. -/
def Recalls (l : MinimumInterval K) (log : List (Check K)) : Prop :=
  ∀ r ∈ l.last, ∃ g ∈ log, g.key = r.1 ∧ g.now = r.2

/-- No granted check is forgotten. -/
def Recorded (l : MinimumInterval K) (log : List (Check K)) : Prop :=
  ∀ g ∈ log, ∃ r ∈ l.last, r.1 = g.key ∧ g.now ≤ r.2

variable {log : List (Check K)}

theorem granted_of_step {l' : MinimumInterval K} (h : l.step c = (some (true, 0), l')) :
    l.granted c = [c] := if_pos (congrArg Prod.fst h)

theorem granted_of_denied {l' : MinimumInterval K} {r : ℤ} (h : l.step c = (some (false, r), l')) :
    l.granted c = [] := by
  refine if_neg fun h' => ?_
  rw [h] at h'
  cases h'

theorem Recalls.step (h : Recalls l log) : Recalls (l.step c).2 (log ++ l.granted c) := by
  have hset : ∀ {last : Last K}, (∀ r ∈ last, r ∈ l.last) →
      ∀ r ∈ last.set c.key c.now, ∃ g ∈ log ++ [c], g.key = r.1 ∧ g.now = r.2 := by
    intro last hsub r hr
    rcases mem_set.mp hr with rfl | ⟨hr, -⟩
    · exact ⟨c, List.mem_append_right _ (List.mem_singleton_self c), rfl, rfl⟩
    · obtain ⟨g, hg, hgr⟩ := h r (hsub r hr)
      exact ⟨g, List.mem_append_left _ hg, hgr⟩
  rcases step_cases l c with ⟨r, -, -, -, he⟩ | ⟨-, ⟨-, he⟩ | ⟨-, r, -, he⟩ | ⟨-, he⟩⟩
  · rw [granted_of_denied he, he, List.append_nil]
    exact h
  · rw [granted_of_step he, he]
    exact hset fun _ hr => hr
  · rw [granted_of_step he, he]
    exact hset fun _ hr => (Table.mem_deleteWhere.mp hr).1
  · rw [he]
    intro r hr
    obtain ⟨g, hg, hgr⟩ := h r hr
    exact ⟨g, List.mem_append_left _ hg, hgr⟩

/-- A grant that forgets at most its own key keeps the record, and is
spaced. -/
theorem Recorded.grant {last : Last K} (h : Recorded l log)
    (hlate : ∀ r ∈ l.last, r.1 = c.key → c.interval ≤ c.now - r.2) (hpos : 0 < c.interval)
    (hkept : ∀ r ∈ l.last, r.1 ≠ c.key → r ∈ last) :
    Recorded { l with last := last.set c.key c.now } (log ++ [c]) ∧
      ∀ g ∈ log, g.key = c.key → c.interval ≤ c.now - g.now := by
  have hspaced : ∀ g ∈ log, g.key = c.key → c.interval ≤ c.now - g.now := by
    intro g hg hk
    obtain ⟨r, hr, hrk, hle⟩ := h g hg
    have := hlate r hr (hrk.trans hk)
    linarith
  refine ⟨fun g hg => ?_, hspaced⟩
  rcases List.mem_append.mp hg with hg | hg
  · by_cases hk : g.key = c.key
    · have := hspaced g hg hk
      exact ⟨(c.key, c.now), mem_set.mpr (.inl rfl), hk.symm, by dsimp only; linarith⟩
    · obtain ⟨r, hr, hrk, hle⟩ := h g hg
      have hne : r.1 ≠ c.key := fun he => hk (hrk.symm.trans he)
      exact ⟨r, mem_set.mpr (.inr ⟨hkept r hr hne, hne⟩), hrk, hle⟩
  · obtain rfl := List.mem_singleton.mp hg
    exact ⟨(g.key, g.now), mem_set.mpr (.inl rfl), rfl, le_rfl⟩

theorem Recorded.step (h : Recorded l log) (hpos : 0 < c.interval) (hmax : l.maxEntries ≠ 0)
    (hroom : Spares l c) : Recorded (l.step c).2 (log ++ l.granted c) ∧
      ∀ g ∈ log, ∀ d ∈ l.granted c, g.key = d.key → d.interval ≤ d.now - g.now := by
  have hone : (∀ g ∈ log, g.key = c.key → c.interval ≤ c.now - g.now) →
      ∀ g ∈ log, ∀ d ∈ [c], g.key = d.key → d.interval ≤ d.now - g.now := by
    intro hc g hg d hd
    obtain rfl := List.mem_singleton.mp hd
    exact hc g hg
  rcases step_cases l c with ⟨r, -, -, -, he⟩ | ⟨hlate, ⟨-, he⟩ | ⟨hfull, r, hold, he⟩ | ⟨hzero, -⟩⟩
  · rw [granted_of_denied he, he, List.append_nil]
    exact ⟨h, nofun⟩
  · rw [granted_of_step he, he]
    obtain ⟨hrec, hsp⟩ := h.grant hlate hpos fun r hr _ => hr
    exact ⟨hrec, hone hsp⟩
  · rw [granted_of_step he, he]
    have hown : r.1 = c.key := by
      rcases hroom with ⟨s, hs, hk, hlt⟩ | hlt | ⟨s, hs, hk⟩
      · exact absurd (hlate s hs hk) (not_le.mpr hlt)
      · omega
      · obtain rfl := Option.some.inj (hold.symm.trans hs)
        exact hk
    have hkept : ∀ s ∈ l.last, s.1 ≠ c.key → s ∈ l.last.deleteWhere (·.1 = r.1) :=
      fun s hs hne => Table.mem_deleteWhere.mpr ⟨hs, decide_eq_false (hown ▸ hne)⟩
    obtain ⟨hrec, hsp⟩ := h.grant hlate hpos hkept
    exact ⟨hrec, hone hsp⟩
  · exact absurd hzero hmax

/-- A key that is not stored is granted. -/
theorem step_of_absent (hmax : l.maxEntries ≠ 0) (h : ∀ r ∈ l.last, r.1 ≠ c.key) :
    (l.step c).1 = some (true, 0) := by
  rcases step_cases l c with ⟨r, hr, hk, -⟩ | ⟨-, ⟨-, he⟩ | ⟨-, r, -, he⟩ | ⟨hzero, -⟩⟩
  · exact absurd hk (h r hr)
  · rw [he]
  · rw [he]
  · exact absurd hzero hmax

/-- **What a check that does not spare the others does**: it forgets a key
whose last grant was at most so long ago as any. -/
theorem evicts_of_not_spares (hmax : l.maxEntries ≠ 0) (h : ¬ Spares l c) :
    ∃ r ∈ l.last, r.1 ≠ c.key ∧ ∀ s ∈ (l.step c).2.last, s.1 ≠ r.1 := by
  unfold Spares at h
  rw [not_or, not_or] at h
  obtain ⟨hdenied, hroom, hown⟩ := h
  rcases step_cases l c with ⟨r, hr, hk, hlt, -⟩ | ⟨-, ⟨hlt, -⟩ | ⟨-, r, hold, he⟩ | ⟨hzero, -⟩⟩
  · exact absurd ⟨r, hr, hk, hlt⟩ hdenied
  · exact absurd hlt hroom
  · have hne : r.1 ≠ c.key := fun hk => hown ⟨r, hold, hk⟩
    refine ⟨r, oldest_mem hold, hne, fun s hs => ?_⟩
    rw [he] at hs
    rcases mem_set.mp hs with rfl | ⟨hs, -⟩
    · exact hne.symm
    · exact of_decide_eq_false (Table.mem_deleteWhere.mp hs).2
  · exact absurd hzero hmax

end Check

/-! ## Whole runs -/

section Run

variable {maxEntries : Nat} {cs pre post : List (Check K)} {c : Check K}

theorem Admitted.initial (h : Admitted maxEntries (pre ++ post)) : Admitted maxEntries pre := by
  refine ⟨(List.pairwise_append.mp h.clock).1,
    fun c hc => h.intervals c (List.mem_append_left _ hc), le_trans (Finset.card_le_card ?_) h.keys⟩
  rw [List.map_append, List.toFinset_append]
  exact Finset.subset_union_left

/-- A check of a run has a map to go to. -/
theorem Admitted.ne_zero (h : Admitted maxEntries cs) (hc : c ∈ cs) : maxEntries ≠ 0 := by
  have hkey : c.key ∈ (cs.map Check.key).toFinset :=
    List.mem_toFinset.mpr (List.mem_map_of_mem hc)
  have := Finset.card_pos.mpr ⟨_, hkey⟩
  have := h.keys
  omega

theorem after_maxEntries (cs : List (Check K)) :
    ((MinimumInterval.new maxEntries).after cs).maxEntries = maxEntries := by
  induction cs using List.reverseRecOn with
  | nil => rfl
  | append_singleton cs c ih => rw [after_snoc, step_maxEntries, ih]

theorem after_bounded (cs : List (Check K)) :
    ((MinimumInterval.new maxEntries).after cs).last.rows.length ≤
      ((MinimumInterval.new maxEntries).after cs).maxEntries := by
  induction cs using List.reverseRecOn with
  | nil => exact Nat.zero_le _
  | append_singleton cs c ih =>
      rw [after_snoc]
      exact step_bounded ih

theorem Recalls.run (cs : List (Check K)) :
    Recalls ((MinimumInterval.new maxEntries).after cs)
      ((MinimumInterval.new maxEntries).grants cs) := by
  induction cs using List.reverseRecOn with
  | nil => exact fun r hr => absurd hr Table.not_mem_empty
  | append_singleton cs c ih =>
      rw [after_snoc, grants_snoc]
      exact ih.step

/-- **The record through a run** whose checks all spare the other keys. -/
theorem Recorded.run (hcs : Admitted maxEntries cs)
    (hspares : ∀ pre c post, cs = pre ++ c :: post →
      Spares ((MinimumInterval.new maxEntries).after pre) c) :
    Recorded ((MinimumInterval.new maxEntries).after cs)
        ((MinimumInterval.new maxEntries).grants cs) ∧
      Spaced ((MinimumInterval.new maxEntries).grants cs) := by
  induction cs using List.reverseRecOn with
  | nil => exact ⟨nofun, .nil⟩
  | append_singleton cs c ih =>
      have hc : c ∈ cs ++ [c] := List.mem_append_right _ (List.mem_singleton_self c)
      obtain ⟨hrec, hsp⟩ := ih hcs.initial fun pre d post he =>
        hspares pre d (post ++ [c]) (by rw [he, List.append_assoc, List.cons_append])
      have hmax : ((MinimumInterval.new maxEntries).after cs).maxEntries ≠ 0 := by
        rw [after_maxEntries]
        exact hcs.ne_zero hc
      obtain ⟨hstep, hlast⟩ := hrec.step (hcs.intervals c hc) hmax (hspares cs c [] rfl)
      rw [after_snoc, grants_snoc]
      refine ⟨hstep, List.pairwise_append.mpr ⟨hsp, ?_, hlast⟩⟩
      unfold MinimumInterval.granted
      split
      · exact List.pairwise_singleton _ c
      · exact .nil

/-- What is stored of a key stays, or is forgotten, until it is checked. -/
theorem entry_after {l : MinimumInterval K} {key : K} (hmid : ∀ e ∈ cs, e.key ≠ key) :
    ∀ r ∈ (l.after cs).last, r.1 = key → r ∈ l.last := by
  induction cs using List.reverseRecOn with
  | nil => exact fun r hr _ => hr
  | append_singleton cs c ih =>
      have hne : c.key ≠ key := hmid c (List.mem_append_right _ (List.mem_singleton_self c))
      have ih := ih fun e he => hmid e (List.mem_append_left _ he)
      intro r hr hk
      rw [after_snoc] at hr
      rcases step_cases (l.after cs) c with
        ⟨s, -, -, -, he⟩ | ⟨-, ⟨-, he⟩ | ⟨-, s, -, he⟩ | ⟨-, he⟩⟩ <;> rw [he] at hr
      · exact ih r hr hk
      · rcases mem_set.mp hr with rfl | ⟨hr, -⟩
        · exact absurd hk hne
        · exact ih r hr hk
      · rcases mem_set.mp hr with rfl | ⟨hr, -⟩
        · exact absurd hk hne
        · exact ih r (Table.mem_deleteWhere.mp hr).1 hk
      · exact ih r hr hk

/-- **A denied check is granted once the time it was told has passed.** -/
theorem granted_after_retry {l : MinimumInterval K} {mid : List (Check K)} {d : Check K} {r : ℤ}
    (hdenied : (l.step c).1 = some (false, r)) (hmid : ∀ e ∈ mid, e.key ≠ c.key)
    (hkey : d.key = c.key) (hint : d.interval = c.interval) (hlater : c.now + r ≤ d.now)
    (hmax : ((l.step c).2.after mid).maxEntries ≠ 0) :
    (((l.step c).2.after mid).step d).1 = some (true, 0) := by
  rcases step_cases ((l.step c).2.after mid) d with
    ⟨s, hs, hsk, hearly, -⟩ | ⟨-, ⟨-, he⟩ | ⟨-, s, -, he⟩ | ⟨hzero, -⟩⟩
  · -- the entry that would deny it is the one that denied the first
    exfalso
    have hsk := hsk.trans hkey
    have hs := entry_after hmid s hs hsk
    rcases step_cases l c with ⟨q, hq, hqk, -, he⟩ | ⟨-, ⟨-, he⟩ | ⟨-, q, -, he⟩ | ⟨-, he⟩⟩ <;>
      rw [he] at hdenied
    · rw [he] at hs
      obtain rfl := Table.eq_of_key_eq hs hq (hsk.trans hqk.symm)
      obtain rfl : max 1 ⌈c.interval - (c.now - s.2)⌉ = r := by simpa using hdenied
      have hceil : c.interval - (c.now - s.2) ≤ ((max 1 ⌈c.interval - (c.now - s.2)⌉ : ℤ) : ℚ) :=
        (Int.le_ceil _).trans (Int.cast_le.mpr (le_max_right _ _))
      rw [hint] at hearly
      linarith
    · cases hdenied
    · cases hdenied
    · cases hdenied
  · rw [he]
  · rw [he]
  · exact absurd hzero hmax

/-- **A check that does not spare the others opens a gap**: the key it
forgets can be granted again at once, whatever its interval. -/
theorem gap_of_not_spares (h : Admitted maxEntries (pre ++ [c]))
    (hc : ¬ Spares ((MinimumInterval.new maxEntries).after pre) c) :
    ∃ d, Admitted maxEntries (pre ++ [c, d]) ∧
      ¬ Spaced ((MinimumInterval.new maxEntries).grants (pre ++ [c, d])) := by
  have hmax : ∀ cs, ((MinimumInterval.new (K := K) maxEntries).after cs).maxEntries ≠ 0 := by
    intro cs
    rw [after_maxEntries]
    exact h.ne_zero (List.mem_append_right _ (List.mem_singleton_self c))
  obtain ⟨r, hr, hne, hgone⟩ := evicts_of_not_spares (hmax pre) hc
  obtain ⟨g, hg, hgk, hgt⟩ := Recalls.run pre r hr
  have hpre : g ∈ pre := grants_subset _ _ hg
  have hclock : g.now ≤ c.now :=
    (List.pairwise_append.mp h.clock).2.2 g hpre c (List.mem_singleton_self c)
  let d : Check K := ⟨g.key, c.now - g.now + 1, c.now⟩
  have hd : ((MinimumInterval.new maxEntries).after (pre ++ [c])).granted d = [d] := by
    rw [after_snoc]
    refine if_pos (step_of_absent ?_ fun s hs => ?_)
    · rw [step_maxEntries]
      exact hmax pre
    · rw [hgk]
      exact hgone s hs
  have hsplit : pre ++ [c, d] = (pre ++ [c]) ++ [d] := by simp
  refine ⟨d, ⟨?_, ?_, ?_⟩, fun hsp => ?_⟩
  · rw [hsplit]
    refine List.pairwise_append.mpr ⟨h.clock, List.pairwise_singleton _ d, fun a ha b hb => ?_⟩
    obtain rfl := List.mem_singleton.mp hb
    rcases List.mem_append.mp ha with ha | ha
    · exact (List.pairwise_append.mp h.clock).2.2 a ha c (List.mem_singleton_self c)
    · exact (congrArg Check.now (List.mem_singleton.mp ha)).le
  · rw [hsplit]
    intro e he
    rcases List.mem_append.mp he with he | he
    · exact h.intervals e he
    · obtain rfl := List.mem_singleton.mp he
      dsimp only [d]
      linarith
  · refine le_trans (Finset.card_le_card fun k hk => ?_) h.keys
    rw [hsplit, List.map_append, List.toFinset_append, Finset.mem_union] at hk
    rcases hk with hk | hk
    · exact hk
    · obtain rfl : k = g.key := by simpa [d] using hk
      exact List.mem_toFinset.mpr (List.mem_map_of_mem (List.mem_append_left _ hpre))
  · rw [hsplit, grants_snoc, hd, grants_snoc] at hsp
    have hgap := (List.pairwise_append.mp hsp).2.2 g (List.mem_append_left _ hg) d
      (List.mem_singleton_self d) rfl
    dsimp only [d] at hgap
    linarith

/-- **The minimum interval, and when it is kept.** In every admitted run
whose checks all spare the other keys, two granted checks of one key are
the later one's interval apart; a check that does not spare them can be
followed by one that breaks this. Without any condition, a denied check is
granted once the time it was told has passed, every check is answered, and
the map stays within its bound. -/
theorem minimum_interval_kept (maxEntries : Nat) (cs : List (Check K))
    (hcs : Admitted maxEntries cs) :
    let l : MinimumInterval K := .new maxEntries
    ((∀ pre c post, cs = pre ++ c :: post → Spares (l.after pre) c) → Spaced (l.grants cs)) ∧
    (∀ pre c post, cs = pre ++ c :: post → ¬ Spares (l.after pre) c →
      ∃ d, Admitted maxEntries (pre ++ [c, d]) ∧ ¬ Spaced (l.grants (pre ++ [c, d]))) ∧
    (∀ pre c mid d post r, cs = pre ++ c :: (mid ++ d :: post) →
      ((l.after pre).step c).1 = some (false, r) → (∀ e ∈ mid, e.key ≠ c.key) →
      d.key = c.key → d.interval = c.interval → c.now + r ≤ d.now →
      ((l.after (pre ++ c :: mid)).step d).1 = some (true, 0)) ∧
    ∀ pre c post, cs = pre ++ c :: post → ((l.after pre).step c).1 ≠ none ∧
      ((l.after pre).step c).2.last.rows.length ≤ maxEntries := by
  intro l
  have hmax : ∀ {c}, c ∈ cs → ∀ pre, (l.after pre).maxEntries ≠ 0 := by
    intro c hc pre
    rw [after_maxEntries]
    exact hcs.ne_zero hc
  refine ⟨fun h => (Recorded.run hcs h).2, ?_, ?_, ?_⟩
  · rintro pre c post rfl hc
    rw [← List.singleton_append, ← List.append_assoc] at hcs
    exact gap_of_not_spares hcs.initial hc
  · rintro pre c mid d post r rfl hdenied hmid hkey hint hlater
    have hafter : l.after (pre ++ c :: mid) = ((l.after pre).step c).2.after mid :=
      after_append l pre (c :: mid)
    have hzero := hmax (List.mem_append_right pre List.mem_cons_self) (pre ++ c :: mid)
    rw [hafter] at hzero ⊢
    exact granted_after_retry hdenied hmid hkey hint hlater hzero
  · rintro pre c post rfl
    have hzero := hmax (List.mem_append_right pre List.mem_cons_self) pre
    have hbound := step_bounded (c := c) (@after_bounded _ _ maxEntries pre)
    rw [step_maxEntries, after_maxEntries] at hbound
    refine ⟨fun hnone => ?_, hbound⟩
    rcases step_cases (l.after pre) c with ⟨r, -, -, -, he⟩ | ⟨-, ⟨-, he⟩ | ⟨-, r, -, he⟩ | ⟨h0, -⟩⟩
    · rw [he] at hnone
      cases hnone
    · rw [he] at hnone
      cases hnone
    · rw [he] at hnone
      cases hnone
    · exact hzero h0

end Run

/-! ## Two cameras in a map of two -/

/-- One is refreshed every hundred seconds, the other every second. -/
def cameraChecks : List (Check String) := [⟨"a", 100, 0⟩, ⟨"b", 1, 1⟩, ⟨"b", 1, 2⟩, ⟨"a", 100, 3⟩]

theorem cameraChecks_admitted : Admitted 2 cameraChecks :=
  ⟨by decide +kernel, by decide +kernel, by decide +kernel⟩

/-- The second refresh of `b` evicts `a`, which is then refreshed after
three seconds. -/
theorem minimum_interval_broken : Admitted 2 cameraChecks ∧
    ¬ Spaced ((MinimumInterval.new (K := String) 2).grants cameraChecks) :=
  ⟨cameraChecks_admitted, by
    have : (MinimumInterval.new (K := String) 2).grants cameraChecks = cameraChecks := by
      decide +kernel
    rw [this]
    unfold Spaced
    decide +kernel⟩

/-- A map of three keeps both. -/
theorem minimum_interval_kept_cameras :
    let l : MinimumInterval String := .new 3
    l.grants cameraChecks = [⟨"a", 100, 0⟩, ⟨"b", 1, 1⟩, ⟨"b", 1, 2⟩] ∧
    ((∀ pre c post, cameraChecks = pre ++ c :: post → Spares (l.after pre) c) →
      Spaced (l.grants cameraChecks)) ∧
    (∀ pre c post, cameraChecks = pre ++ c :: post → ¬ Spares (l.after pre) c →
      ∃ d, Admitted 3 (pre ++ [c, d]) ∧ ¬ Spaced (l.grants (pre ++ [c, d]))) ∧
    (∀ pre c mid d post r, cameraChecks = pre ++ c :: (mid ++ d :: post) →
      ((l.after pre).step c).1 = some (false, r) → (∀ e ∈ mid, e.key ≠ c.key) →
      d.key = c.key → d.interval = c.interval → c.now + r ≤ d.now →
      ((l.after (pre ++ c :: mid)).step d).1 = some (true, 0)) ∧
    ∀ pre c post, cameraChecks = pre ++ c :: post → ((l.after pre).step c).1 ≠ none ∧
      ((l.after pre).step c).2.last.rows.length ≤ 3 :=
  ⟨by decide +kernel, minimum_interval_kept 3 cameraChecks
    ⟨by decide +kernel, by decide +kernel, by decide +kernel⟩⟩

end RateLimit

end AccessPages
