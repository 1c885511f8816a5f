import AccessPages.Common.Table
/-!
# RateLimit — the sliding window

`SlidingWindowRateLimiter` of `rate_limit.py`. It keeps the accepted
calls of each key and forgets those that left the window, when a key is
asked for, when a window has passed since the last cleanup, or when the
map is full. What it is for needs no map: the log of all accepted calls
says of every call whether it is allowed. The code's map tracks that log
up to what the window has left behind, and that is all its answers read.
-/

namespace AccessPages

namespace RateLimit

variable {K T : Type} [DecidableEq K]

/-! ## The clock -/

/-- A difference of two readings may be rounded, as one of floats is, but
rounding keeps the order: from a later reading it is no smaller. -/
class RoundsMonotone (T : Type) [LE T] [Sub T] : Prop where
  sub_le_sub : ∀ {now now' : T} (window : T), now ≤ now' → now - window ≤ now' - window

/-- Exact differences are not rounded. -/
instance {T : Type} [AddCommGroup T] [LinearOrder T] [IsOrderedAddMonoid T] : RoundsMonotone T where
  sub_le_sub window h := sub_le_sub_right h window

/-! ## The limiter -/

section Limiter

variable [LinearOrder T] [Sub T]

/-- `_events`: the accepted calls of each key, oldest first. -/
abbrev Events (K T : Type) [DecidableEq K] := Table (K × List T) (Prod.fst : K × List T → K)

structure SlidingWindow (K T : Type) [DecidableEq K] where
  limit : Nat
  window : T
  maxKeys : Option Nat
  events : Events K T
  lastCleanup : T

/-- A limiter made at `now`. -/
def SlidingWindow.new (limit : Nat) (window : T) (maxKeys : Option Nat) (now : T) :
    SlidingWindow K T :=
  ⟨limit, window, maxKeys, .empty, now⟩

/-- `while events and events[0] <= cutoff: events.popleft()`. -/
def expire (cutoff : T) (events : List T) : List T := events.dropWhile (· ≤ cutoff)

/-- `_cleanup`. -/
def cleanup (cutoff : T) (events : Events K T) : Events K T :=
  (events.updateWhere (fun _ => true) (fun r => (r.1, expire cutoff r.2)) fun _ => rfl).deleteWhere
    (·.2.isEmpty)

/-- The deque of a key, in a map that has one for every key. -/
def Events.get (events : Events K T) (key : K) : List T :=
  ((events.find? key).map Prod.snd).getD []

/-- The cleanup a window after the last one. -/
def SlidingWindow.periodic (l : SlidingWindow K T) (now : T) : SlidingWindow K T :=
  if l.window ≤ now - l.lastCleanup then
    { l with events := cleanup (now - l.window) l.events, lastCleanup := now }
  else l

/-- `max_keys` are stored. -/
def SlidingWindow.full (l : SlidingWindow K T) (events : Events K T) : Bool :=
  l.maxKeys.any (· ≤ events.rows.length)

/-- The events after making room for a new key, if there is room. -/
def SlidingWindow.room (l : SlidingWindow K T) (key : K) (now : T) : Bool × Events K T :=
  if (l.events.find? key).isNone ∧ l.full l.events then
    let events := cleanup (now - l.window) l.events
    (!l.full events, events)
  else (true, l.events)

/-- `allow` of a key there is room for. Denied or not, its expired events
are dropped. -/
def SlidingWindow.charge (l : SlidingWindow K T) (key : K) (now : T) (events : Events K T) :
    Bool × Events K T :=
  let mine := expire (now - l.window) (events.get key)
  if l.limit ≤ mine.length then (false, events.insertOrReplace (key, mine))
  else (true, events.insertOrReplace (key, mine ++ [now]))

/-- `allow`. -/
def SlidingWindow.allow (l : SlidingWindow K T) (key : K) (now : T) :
    Bool × SlidingWindow K T :=
  let l := l.periodic now
  let room := l.room key now
  if room.1 then
    let out := l.charge key now room.2
    (out.1, { l with events := out.2 })
  else (false, { l with events := room.2 })

/-! ## Runs -/

/-- A call of `allow`, or the periodic cleanup, at a reading of the clock. -/
inductive Call (K T : Type) where
  | allow (key : K) (now : T)
  | cleanup (now : T)

def Call.now : Call K T → T
  | allow _ now => now
  | cleanup now => now

def Call.isAllow : Call K T → Bool
  | allow .. => true
  | cleanup _ => false

/-- The answer, if the call has one, and the limiter after it. -/
def SlidingWindow.step (l : SlidingWindow K T) : Call K T → Option Bool × SlidingWindow K T
  | .allow key now => (some (l.allow key now).1, (l.allow key now).2)
  | .cleanup now =>
      (none, { l with events := RateLimit.cleanup (now - l.window) l.events, lastCleanup := now })

/-- The limiter after the calls. -/
def SlidingWindow.after (l : SlidingWindow K T) (cs : List (Call K T)) : SlidingWindow K T :=
  cs.foldl (fun l c => (l.step c).2) l

/-- What was answered. -/
def SlidingWindow.answers (l : SlidingWindow K T) : List (Call K T) → List Bool
  | [] => []
  | c :: cs => (l.step c).1.toList ++ answers (l.step c).2 cs

/-- The entry a call makes in the log: its key and time, if accepted. -/
def SlidingWindow.entry (l : SlidingWindow K T) : Call K T → List (K × T)
  | .allow key now => if (l.allow key now).1 then [(key, now)] else []
  | .cleanup _ => []

/-- The accepted calls, in order. -/
def SlidingWindow.accepted (l : SlidingWindow K T) : List (Call K T) → List (K × T)
  | [] => []
  | c :: cs => l.entry c ++ accepted (l.step c).2 cs

/-! ## What the log says -/

/-- The accepted calls of a key in the interval `(now - window, now]`, the
difference as the clock has it. -/
def recent (window : T) (log : List (K × T)) (key : K) (now : T) : List (K × T) :=
  log.filter fun e => e.1 = key ∧ now - window < e.2 ∧ e.2 ≤ now

/-- The other keys with one. -/
def others (window : T) (log : List (K × T)) (key : K) (now : T) : Finset K :=
  ((log.filter fun e => e.1 ≠ key ∧ now - window < e.2 ∧ e.2 ≤ now).map Prod.fst).toFinset

/-- The log allows a call. -/
def Allowed (limit : Nat) (window : T) (maxKeys : Option Nat) (log : List (K × T)) (key : K)
    (now : T) : Prop :=
  (recent window log key now).length < limit ∧
    ∀ n, maxKeys = some n → recent window log key now ≠ [] ∨ (others window log key now).card < n

end Limiter

/-! ## The map and the log -/

theorem expire_eq_filter [LinearOrder T] {cutoff : T} {ts : List T} (h : ts.Pairwise (· ≤ ·)) :
    expire cutoff ts = ts.filter (cutoff < ·) := by
  induction ts with
  | nil => rfl
  | cons t ts ih =>
      obtain ⟨hle, hts⟩ := List.pairwise_cons.mp h
      unfold expire at ih ⊢
      by_cases ht : t ≤ cutoff
      · rw [List.dropWhile_cons_of_pos (by simpa using ht), ih hts,
          List.filter_cons_of_neg (by simpa using ht)]
      · rw [List.dropWhile_cons_of_neg (by simpa using ht), List.filter_eq_self.mpr]
        intro x hx
        rw [not_le] at ht
        rcases List.mem_cons.mp hx with rfl | hx
        · simpa using ht
        · simpa using ht.trans_le (hle x hx)

/-- The times of a key in the log. -/
def times (log : List (K × T)) (key : K) : List T := (log.filter (·.1 = key)).map Prod.snd

theorem times_append {log log' : List (K × T)} {key : K} :
    times (log ++ log') key = times log key ++ times log' key := by
  rw [times, List.filter_append, List.map_append]
  rfl

theorem times_singleton {key : K} {t : T} : times [(key, t)] key = [t] := by
  simp [times]

theorem times_singleton_of_ne {key key' : K} {t : T} (h : key' ≠ key) :
    times [(key, t)] key' = [] := by
  simp [times, Ne.symm h]

/-- **The map tracks the log at `now`.** Of every key it has what the
window has not left behind, and it has only keys with an event. -/
structure Tracks [LinearOrder T] [Sub T] (l : SlidingWindow K T) (log : List (K × T)) (now : T) :
    Prop where
  nonempty : ∀ r ∈ l.events, r.2 ≠ []
  sorted : ∀ key, (l.events.get key).Pairwise (· ≤ ·)
  past : ∀ key, ∀ t ∈ l.events.get key, t ≤ now
  logged : ∀ e ∈ log, e.2 ≤ now
  agrees : ∀ key cutoff, now - l.window ≤ cutoff →
    (l.events.get key).filter (cutoff < ·) = (times log key).filter (cutoff < ·)
  bounded : ∀ n, l.maxKeys = some n → l.events.rows.length ≤ n

theorem get_of_mem {events : Events K T} {r : K × List T} (h : r ∈ events) :
    events.get r.1 = r.2 := by
  rw [Events.get, Table.find?_eq_some.mpr ⟨h, rfl⟩]
  rfl

theorem exists_of_get {events : Events K T} {key : K} (h : events.get key ≠ []) :
    ∃ r ∈ events, r.1 = key := by
  unfold Events.get at h
  cases hf : events.find? key with
  | none => rw [hf] at h; exact absurd rfl h
  | some r => exact ⟨r, Table.find?_eq_some.mp hf⟩

theorem get_insertOrReplace {events : Events K T} {key key' : K} {ts : List T} :
    Events.get (events.insertOrReplace (key, ts)) key' = if key = key' then ts else events.get key' := by
  unfold Events.get
  rw [Table.find?_insertOrReplace]
  split <;> rfl

theorem get_cleanup [LinearOrder T] {events : Events K T} {cutoff : T} (key : K) :
    (cleanup cutoff events).get key = expire cutoff (events.get key) := by
  unfold Events.get cleanup
  rw [Table.find?_deleteWhere, Table.find?_updateWhere]
  cases events.find? key with
  | none => rfl
  | some r =>
      simp only [Option.map_some, if_true]
      by_cases h : expire cutoff r.2 = []
      · simp [Option.filter, h]
      · simp [Option.filter, h]

theorem length_cleanup_le [LinearOrder T] {events : Events K T} {cutoff : T} :
    (cleanup cutoff events).rows.length ≤ events.rows.length := by
  unfold cleanup Table.deleteWhere Table.updateWhere
  exact (List.length_filter_le _ _).trans (List.length_map _).le

theorem length_insertOrReplace_le {events : Events K T} {r : K × List T} :
    (events.insertOrReplace r).rows.length ≤ events.rows.length + 1 := by
  simp only [Table.insertOrReplace, List.length_append, List.length_singleton]
  exact Nat.add_le_add_right (List.length_filter_le _ _) 1

/-- Replacing a stored key stores no more. -/
theorem length_insertOrReplace_of_mem {events : Events K T} {r : K × List T}
    (h : ∃ s ∈ events, s.1 = r.1) :
    (events.insertOrReplace r).rows.length ≤ events.rows.length := by
  obtain ⟨s, hs, hk⟩ := h
  have hlt : (events.rows.filter fun q => decide (q.1 ≠ r.1)).length < events.rows.length := by
    refine List.length_filter_lt_length_iff_exists.mpr ⟨s, hs, ?_⟩
    simp [hk]
  simp only [Table.insertOrReplace, List.length_append, List.length_singleton]
  omega

section Tracking

variable [LinearOrder T] [Sub T] {l : SlidingWindow K T} {log : List (K × T)} {now : T}

theorem Tracks.new (limit : Nat) (window : T) (maxKeys : Option Nat) (start : T) :
    Tracks (SlidingWindow.new limit window maxKeys start : SlidingWindow K T) [] start where
  nonempty := fun _ hr => absurd hr Table.not_mem_empty
  sorted := fun _ => List.Pairwise.nil
  past := fun _ _ ht => absurd ht List.not_mem_nil
  logged := nofun
  agrees := fun _ _ _ => rfl
  bounded := fun n _ => Nat.zero_le n

theorem Tracks.later [RoundsMonotone T] {now' : T} (h : Tracks l log now) (hle : now ≤ now') :
    Tracks l log now' :=
  { h with
    past := fun key t ht => (h.past key t ht).trans hle
    logged := fun e he => (h.logged e he).trans hle
    agrees := fun key cutoff hc => h.agrees key cutoff ((RoundsMonotone.sub_le_sub _ hle).trans hc) }

/-- Forgetting what the window has left behind is no loss. -/
theorem Tracks.cleaned (h : Tracks l log now) (last : T) :
    Tracks { l with events := RateLimit.cleanup (now - l.window) l.events, lastCleanup := last }
      log now where
  nonempty := by
    intro r hr
    have := (Table.mem_deleteWhere.mp hr).2
    simpa using this
  sorted := fun key => by
    show ((RateLimit.cleanup _ _).get key).Pairwise _
    rw [get_cleanup]
    exact (h.sorted key).sublist (List.dropWhile_sublist _)
  past := fun key t ht => by
    change t ∈ (RateLimit.cleanup _ _).get key at ht
    rw [get_cleanup] at ht
    exact h.past key t ((List.dropWhile_sublist _).subset ht)
  logged := h.logged
  agrees := fun key cutoff hc => by
    show ((RateLimit.cleanup _ _).get key).filter _ = _
    rw [get_cleanup, expire_eq_filter (h.sorted key), List.filter_filter, ← h.agrees key cutoff hc]
    refine List.filter_congr fun t _ => ?_
    have himp : cutoff < t → now - l.window < t := fun ht => lt_of_le_of_lt hc ht
    by_cases ht : cutoff < t
    · simp [ht, himp ht]
    · simp [ht]
  bounded := fun n hn => length_cleanup_le.trans (h.bounded n hn)

theorem Tracks.periodic (h : Tracks l log now) : Tracks (l.periodic now) log now := by
  unfold SlidingWindow.periodic
  split
  · exact h.cleaned now
  · exact h

/-- What `allow` counts is what the log has in the window. -/
theorem Tracks.expire_eq (h : Tracks l log now) (key : K) :
    expire (now - l.window) (l.events.get key) = (recent l.window log key now).map Prod.snd := by
  rw [expire_eq_filter (h.sorted key), h.agrees key _ le_rfl, times, recent, List.filter_map,
    List.filter_filter]
  congr 1
  refine List.filter_congr fun e he => ?_
  have hle := h.logged e he
  simp only [Function.comp_apply, hle, and_true, Bool.decide_and]
  exact Bool.and_comm _ _

/-- A key with a recent event is stored. -/
theorem Tracks.stored (h : Tracks l log now) {key : K} {t : T} (ht : (key, t) ∈ log)
    (hlt : now - l.window < t) : ∃ r ∈ l.events, r.1 = key := by
  refine exists_of_get fun hnil => ?_
  have hagree := h.agrees key (now - l.window) le_rfl
  rw [hnil] at hagree
  have hmem : t ∈ (times log key).filter (now - l.window < ·) := by
    refine List.mem_filter.mpr ⟨List.mem_map.mpr ⟨(key, t), ?_, rfl⟩, by simpa using hlt⟩
    exact List.mem_filter.mpr ⟨ht, by simp⟩
  rw [← hagree] at hmem
  exact absurd hmem List.not_mem_nil

omit [LinearOrder T] [Sub T] in
/-- The stored keys. -/
theorem card_keys (events : Events K T) :
    (events.rows.map Prod.fst).toFinset.card = events.rows.length := by
  rw [List.toFinset_card_of_nodup events.nodup, List.length_map]

theorem Tracks.others_subset (h : Tracks l log now) (key : K) :
    others l.window log key now ⊆ (l.events.rows.map Prod.fst).toFinset.erase key := by
  intro k hk
  simp only [others, List.mem_toFinset, List.mem_map, List.mem_filter] at hk
  obtain ⟨⟨k', t⟩, ⟨hlog, hwin⟩, rfl⟩ := hk
  simp only [decide_eq_true_eq] at hwin
  obtain ⟨r, hr, hrk⟩ := h.stored hlog hwin.2.1
  rw [Finset.mem_erase, List.mem_toFinset]
  exact ⟨hwin.1, List.mem_map.mpr ⟨r, hr, hrk⟩⟩

end Tracking

/-! ## One call -/

section Call

variable [LinearOrder T] [Sub T] {l : SlidingWindow K T} {log : List (K × T)} {now : T} {key : K}

/-- The events of a call that is charged, where the key may be stored. -/
theorem Tracks.charge (h : Tracks l log now) (hlimit : 1 ≤ l.limit)
    (hroom : ∀ n, l.maxKeys = some n → (∃ r ∈ l.events, r.1 = key) ∨ l.events.rows.length < n) :
    Tracks { l with events := (l.charge key now l.events).2 }
      (log ++ if (l.charge key now l.events).1 then [(key, now)] else []) now := by
  have hmine : ∀ ts : List T, ts ≠ [] → ts.Pairwise (· ≤ ·) → (∀ t ∈ ts, t ≤ now) →
      ∀ log' : List (K × T), (∀ e ∈ log', e.2 ≤ now) →
      (∀ k, k ≠ key → times log' k = times log k) →
      (∀ cutoff, now - l.window ≤ cutoff →
        ts.filter (cutoff < ·) = (times log' key).filter (cutoff < ·)) →
      Tracks { l with events := l.events.insertOrReplace (key, ts) } log' now := by
    intro ts hne hsort hpast log' hlog' hother hagree
    refine ⟨fun r hr => ?_, fun k => ?_, fun k t ht => ?_, hlog', fun k cutoff hc => ?_,
      fun n hn => ?_⟩
    · rcases Table.mem_insertOrReplace.mp hr with ⟨hr, -⟩ | rfl
      · exact h.nonempty r hr
      · exact hne
    · show (Events.get (Table.insertOrReplace l.events (key, ts)) k).Pairwise _
      rw [get_insertOrReplace]
      split
      · exact hsort
      · exact h.sorted k
    · change t ∈ Events.get (Table.insertOrReplace l.events (key, ts)) k at ht
      rw [get_insertOrReplace] at ht
      split at ht
      · exact hpast t ht
      · exact h.past k t ht
    · show (Events.get (Table.insertOrReplace l.events (key, ts)) k).filter _ = _
      rw [get_insertOrReplace]
      split
      · rename_i hk
        rw [← hk]
        exact hagree cutoff hc
      · rename_i hk
        rw [hother k (Ne.symm hk)]
        exact h.agrees k cutoff hc
    · rcases hroom n hn with hstored | hlt
      · exact (length_insertOrReplace_of_mem hstored).trans (h.bounded n hn)
      · exact length_insertOrReplace_le.trans hlt
  have hsort : (expire (now - l.window) (l.events.get key)).Pairwise (· ≤ ·) :=
    (h.sorted key).sublist (List.dropWhile_sublist _)
  have hpast : ∀ t ∈ expire (now - l.window) (l.events.get key), t ≤ now :=
    fun t ht => h.past key t ((List.dropWhile_sublist _).subset ht)
  have hagree : ∀ cutoff, now - l.window ≤ cutoff →
      (expire (now - l.window) (l.events.get key)).filter (cutoff < ·) =
        (times log key).filter (cutoff < ·) := by
    intro cutoff hc
    have := (h.cleaned now).agrees key cutoff hc
    rwa [get_cleanup] at this
  unfold SlidingWindow.charge
  by_cases hfull : l.limit ≤ (expire (now - l.window) (l.events.get key)).length
  · -- denied: only expired events are dropped
    simp only [if_pos hfull, Bool.false_eq_true, if_false, List.append_nil]
    refine hmine _ (fun hnil => ?_) hsort hpast log h.logged (fun _ _ => rfl) hagree
    rw [hnil, List.length_nil] at hfull
    omega
  · simp only [if_neg hfull, if_true]
    refine hmine _ (by simp) ?_ ?_ _ ?_ (fun k hk => ?_) fun cutoff hc => ?_
    · refine List.pairwise_append.mpr ⟨hsort, List.pairwise_singleton _ _, fun t ht x hx => ?_⟩
      rw [List.mem_singleton.mp hx]
      exact hpast t ht
    · intro t ht
      rcases List.mem_append.mp ht with ht | ht
      · exact hpast t ht
      · exact (List.mem_singleton.mp ht).le
    · intro e he
      rcases List.mem_append.mp he with he | he
      · exact h.logged e he
      · rw [List.mem_singleton.mp he]
    · rw [times_append, times_singleton_of_ne hk, List.append_nil]
    · rw [times_append, times_singleton, List.filter_append, List.filter_append, hagree cutoff hc]

theorem Tracks.charge_iff (h : Tracks l log now)
    (hroom : ∀ n, l.maxKeys = some n → (∃ r ∈ l.events, r.1 = key) ∨ l.events.rows.length < n) :
    (l.charge key now l.events).1 = true ↔ Allowed l.limit l.window l.maxKeys log key now := by
  have hothers : ∀ n, l.maxKeys = some n → (others l.window log key now).card < n := by
    intro n hn
    have hsub := Finset.card_le_card (h.others_subset key)
    rcases hroom n hn with ⟨r, hr, rfl⟩ | hlt
    · have hmem : r.1 ∈ (l.events.rows.map Prod.fst).toFinset :=
        List.mem_toFinset.mpr (List.mem_map.mpr ⟨r, hr, rfl⟩)
      have hpos := Finset.card_pos.mpr ⟨_, hmem⟩
      have hbound := h.bounded n hn
      rw [Finset.card_erase_of_mem hmem, card_keys] at hsub
      rw [card_keys] at hpos
      omega
    · have herase := Finset.card_erase_le (s := (l.events.rows.map Prod.fst).toFinset) (a := key)
      rw [card_keys] at herase
      omega
  have hlen : (expire (now - l.window) (l.events.get key)).length =
      (recent l.window log key now).length := by
    rw [h.expire_eq, List.length_map]
  simp only [SlidingWindow.charge, Allowed]
  rw [hlen]
  constructor
  · intro hok
    refine ⟨?_, fun n hn => Or.inr (hothers n hn)⟩
    by_contra hge
    rw [if_pos (by omega)] at hok
    cases hok
  · rintro ⟨hlt, -⟩
    rw [if_neg (by omega)]

/-- In a map that was just cleaned, every key has a recent event. -/
theorem Tracks.keys_subset_others (h : Tracks l log now) (hkey : ∀ r ∈ l.events, r.1 ≠ key) :
    ((cleanup (now - l.window) l.events).rows.map Prod.fst).toFinset ⊆
      others l.window log key now := by
  intro k hk
  obtain ⟨r, hr, rfl⟩ := List.mem_map.mp (List.mem_toFinset.mp hk)
  have hclean := h.cleaned now
  have hget : expire (now - l.window) (l.events.get r.1) = r.2 := by
    rw [← get_cleanup]
    exact get_of_mem hr
  obtain ⟨t, ht⟩ := List.exists_mem_of_ne_nil _ (hclean.nonempty r hr)
  rw [← hget, h.expire_eq] at ht
  obtain ⟨e, he, -⟩ := List.mem_map.mp ht
  obtain ⟨hlog, hwin⟩ := List.mem_filter.mp he
  simp only [decide_eq_true_eq] at hwin
  have hstored : ∃ q ∈ l.events, q.1 = r.1 := h.stored (hwin.1 ▸ hlog) hwin.2.1
  obtain ⟨q, hq, hqr⟩ := hstored
  simp only [others, List.mem_toFinset, List.mem_map, List.mem_filter, decide_eq_true_eq]
  exact ⟨e, ⟨hlog, fun heq => hkey q hq (hqr.trans (hwin.1.symm.trans heq)), hwin.2⟩, hwin.1⟩

theorem recent_eq_nil (h : Tracks l log now) (hkey : ∀ r ∈ l.events, r.1 ≠ key) :
    recent l.window log key now = [] := by
  refine List.eq_nil_iff_forall_not_mem.mpr fun e he => ?_
  obtain ⟨hlog, hwin⟩ := List.mem_filter.mp he
  simp only [decide_eq_true_eq] at hwin
  obtain ⟨r, hr, hrk⟩ := h.stored hlog hwin.2.1
  exact hkey r hr (hrk.trans hwin.1)

omit [LinearOrder T] [Sub T] in
theorem full_iff {events : Events K T} :
    l.full events = true ↔ ∃ n, l.maxKeys = some n ∧ n ≤ events.rows.length := by
  unfold SlidingWindow.full
  cases l.maxKeys with
  | none => simp
  | some n => simp

/-- **One call**, when the periodic cleanup is done. -/
theorem Tracks.admit (h : Tracks l log now) (hlimit : 1 ≤ l.limit) :
    let room := l.room key now
    let out : Bool × Events K T := if room.1 then l.charge key now room.2 else (false, room.2)
    (out.1 = true ↔ Allowed l.limit l.window l.maxKeys log key now) ∧
      Tracks { l with events := out.2 } (log ++ if out.1 then [(key, now)] else []) now := by
  have hclean := h.cleaned l.lastCleanup
  unfold SlidingWindow.room
  by_cases hnew : (l.events.find? key).isNone ∧ l.full l.events
  · rw [if_pos hnew]
    have hkey : ∀ r ∈ l.events, r.1 ≠ key := Table.find?_eq_none.mp (Option.isNone_iff_eq_none.mp hnew.1)
    by_cases hfull : l.full (cleanup (now - l.window) l.events) = true
    · -- every stored key has a recent event, and there are enough of them
      obtain ⟨n, hn, hle⟩ := full_iff.mp hfull
      simp only [hfull, Bool.not_true, Bool.false_eq_true, if_false, List.append_nil, false_iff]
      refine ⟨fun hallow => ?_, hclean⟩
      rcases hallow.2 n hn with hrecent | hlt
      · exact hrecent (recent_eq_nil h hkey)
      · have hcard := Finset.card_le_card (h.keys_subset_others hkey)
        rw [card_keys] at hcard
        omega
    · have hroom : ∀ n, l.maxKeys = some n →
          (∃ r ∈ cleanup (now - l.window) l.events, r.1 = key) ∨
            (cleanup (now - l.window) l.events).rows.length < n := by
        intro n hn
        refine Or.inr (Nat.lt_of_not_le fun hle => hfull (full_iff.mpr ⟨n, hn, hle⟩))
      simp only [hfull, Bool.not_false, if_true]
      exact ⟨hclean.charge_iff hroom, hclean.charge hlimit hroom⟩
  · rw [if_neg hnew]
    have hroom : ∀ n, l.maxKeys = some n →
        (∃ r ∈ l.events, r.1 = key) ∨ l.events.rows.length < n := by
      intro n hn
      by_cases hf : (l.events.find? key).isNone
      · refine Or.inr (Nat.lt_of_not_le fun hle => hnew ⟨hf, full_iff.mpr ⟨n, hn, hle⟩⟩)
      · obtain ⟨r, hr⟩ := Option.ne_none_iff_exists'.mp (by simpa using hf)
        exact Or.inl ⟨r, Table.find?_eq_some.mp hr⟩
    exact ⟨h.charge_iff hroom, h.charge hlimit hroom⟩

theorem periodic_settings (l : SlidingWindow K T) (now : T) :
    (l.periodic now).limit = l.limit ∧ (l.periodic now).window = l.window ∧
      (l.periodic now).maxKeys = l.maxKeys := by
  unfold SlidingWindow.periodic
  split <;> exact ⟨rfl, rfl, rfl⟩

theorem allow_eq (l : SlidingWindow K T) (key : K) (now : T) :
    l.allow key now =
      let room := (l.periodic now).room key now
      let out : Bool × Events K T :=
        if room.1 then (l.periodic now).charge key now room.2 else (false, room.2)
      (out.1, { l.periodic now with events := out.2 }) := by
  unfold SlidingWindow.allow
  dsimp only
  split <;> rfl

theorem Tracks.allow (h : Tracks l log now) (hlimit : 1 ≤ l.limit) :
    ((l.allow key now).1 = true ↔ Allowed l.limit l.window l.maxKeys log key now) ∧
      Tracks (l.allow key now).2 (log ++ if (l.allow key now).1 then [(key, now)] else []) now := by
  obtain ⟨hl, hw, hm⟩ := periodic_settings l now
  rw [allow_eq, ← hl, ← hw, ← hm]
  exact h.periodic.admit (hl ▸ hlimit)

end Call

/-! ## Whole runs -/

section Run

variable [LinearOrder T] [Sub T]

theorem step_settings (l : SlidingWindow K T) (c : Call K T) :
    (l.step c).2.limit = l.limit ∧ (l.step c).2.window = l.window ∧
      (l.step c).2.maxKeys = l.maxKeys := by
  cases c with
  | cleanup now => exact ⟨rfl, rfl, rfl⟩
  | allow key now =>
      show (l.allow key now).2.limit = _ ∧ (l.allow key now).2.window = _ ∧
        (l.allow key now).2.maxKeys = _
      rw [allow_eq]
      exact periodic_settings l now

theorem Tracks.step [RoundsMonotone T] {l : SlidingWindow K T} {log : List (K × T)} {start : T}
    (c : Call K T) (h : Tracks l log start) (hlimit : 1 ≤ l.limit) (hle : start ≤ c.now) :
    Tracks (l.step c).2 (log ++ l.entry c) c.now := by
  cases c with
  | allow key now => exact ((h.later hle).allow hlimit).2
  | cleanup now =>
      show Tracks _ (log ++ []) now
      rw [List.append_nil]
      exact (h.later hle).cleaned now

/-- The clock never goes back. -/
def Clocked (start : T) (cs : List (Call K T)) : Prop :=
  (start :: cs.map Call.now).Pairwise (· ≤ ·)

omit [DecidableEq K] [Sub T] in
theorem Clocked.head {start : T} {c : Call K T} {cs : List (Call K T)}
    (h : Clocked start (c :: cs)) : start ≤ c.now ∧ Clocked c.now cs :=
  ⟨(List.pairwise_cons.mp h).1 _ List.mem_cons_self, (List.pairwise_cons.mp h).2⟩

/-- The reading of the last call. -/
def lastNow (start : T) (cs : List (Call K T)) : T := cs.foldl (fun _ c => c.now) start

structure Settings (l : SlidingWindow K T) (limit : Nat) (window : T) (maxKeys : Option Nat) :
    Prop where
  limit : l.limit = limit
  window : l.window = window
  maxKeys : l.maxKeys = maxKeys

theorem Settings.step {l : SlidingWindow K T} {limit : Nat} {window : T} {maxKeys : Option Nat}
    (h : Settings l limit window maxKeys) (c : Call K T) :
    Settings (l.step c).2 limit window maxKeys := by
  obtain ⟨hl, hw, hm⟩ := step_settings l c
  exact ⟨hl.trans h.limit, hw.trans h.window, hm.trans h.maxKeys⟩

variable [RoundsMonotone T] {limit : Nat} {window : T} {maxKeys : Option Nat}

/-- **The map tracks the log through every run.** -/
theorem Tracks.run {l : SlidingWindow K T} {log : List (K × T)} {start : T}
    {pre post : List (Call K T)} (h : Tracks l log start) (hset : Settings l limit window maxKeys)
    (hlimit : 1 ≤ limit) (hclock : Clocked start (pre ++ post)) :
    Tracks (l.after pre) (log ++ l.accepted pre) (lastNow start pre) ∧
      Settings (l.after pre) limit window maxKeys ∧ Clocked (lastNow start pre) post := by
  induction pre generalizing l log start with
  | nil =>
      rw [SlidingWindow.accepted, List.append_nil]
      exact ⟨h, hset, hclock⟩
  | cons c cs ih =>
      obtain ⟨hle, hrest⟩ := hclock.head
      have hstep := h.step c (hset.limit ▸ hlimit) hle
      rw [SlidingWindow.accepted, ← List.append_assoc]
      exact ih hstep (hset.step c) hrest

/-- Two limiters that track one log answer alike, whatever cleanups there
are in between. -/
theorem answers_eq {l l' : SlidingWindow K T} {log : List (K × T)} {start : T}
    {cs : List (Call K T)} (h : Tracks l log start) (h' : Tracks l' log start)
    (hset : Settings l limit window maxKeys) (hset' : Settings l' limit window maxKeys)
    (hlimit : 1 ≤ limit) (hclock : Clocked start cs) :
    l.answers cs = l'.answers (cs.filter Call.isAllow) := by
  induction cs generalizing l l' log start with
  | nil => rfl
  | cons c cs ih =>
      obtain ⟨hle, hrest⟩ := hclock.head
      cases c with
      | cleanup now =>
          have hstep := h.step (.cleanup now) (hset.limit ▸ hlimit) hle
          rw [show log ++ l.entry (.cleanup now) = log from List.append_nil log] at hstep
          exact ih hstep (h'.later hle) (hset.step (.cleanup now)) hset' hrest
      | allow key now =>
          have hiff := (@Tracks.allow _ _ _ _ _ _ _ _ key (h.later hle) (hset.limit ▸ hlimit)).1
          have hiff' := (@Tracks.allow _ _ _ _ _ _ _ _ key (h'.later hle) (hset'.limit ▸ hlimit)).1
          rw [hset.limit, hset.window, hset.maxKeys] at hiff
          rw [hset'.limit, hset'.window, hset'.maxKeys] at hiff'
          have hans : (l.allow key now).1 = (l'.allow key now).1 :=
            Bool.eq_iff_iff.mpr (hiff.trans hiff'.symm)
          have hstep := h.step (.allow key now) (hset.limit ▸ hlimit) hle
          have hstep' := h'.step (.allow key now) (hset'.limit ▸ hlimit) hle
          have hentry : l'.entry (.allow key now) = l.entry (.allow key now) := by
            rw [SlidingWindow.entry, SlidingWindow.entry, hans]
          rw [hentry] at hstep'
          have hrec := ih hstep hstep' (hset.step (.allow key now)) (hset'.step (.allow key now)) hrest
          rw [List.filter_cons_of_pos (show Call.isAllow (.allow key now) = true from rfl)]
          show (l.allow key now).1 :: _ = (l'.allow key now).1 :: _
          rw [hans]
          exact congrArg _ hrec

/-- **The limiter meets its log.** In every run with a clock that does not
go back, and with cleanups anywhere in between: a call is answered as the
log of accepted calls says, no more than `max_keys` keys are stored, a
key with an event in the window is stored, and the answers are those of
the run without the cleanups. -/
theorem sliding_window_meets_log (limit : Nat) (window : T) (maxKeys : Option Nat) (start : T)
    (cs : List (Call K T)) (hlimit : 1 ≤ limit) (hclock : Clocked start cs) :
    let l : SlidingWindow K T := .new limit window maxKeys start
    (∀ pre key now post, cs = pre ++ .allow key now :: post →
      (((l.after pre).allow key now).1 = true ↔
        Allowed limit window maxKeys (l.accepted pre) key now)) ∧
    (∀ pre post, cs = pre ++ post →
      ∀ n, maxKeys = some n → (l.after pre).events.rows.length ≤ n) ∧
    (∀ pre c post, cs = pre ++ c :: post → ∀ key t, (key, t) ∈ l.accepted (pre ++ [c]) →
      c.now - window < t → ((l.after (pre ++ [c])).events.find? key).isSome) ∧
    l.answers cs = l.answers (cs.filter Call.isAllow) := by
  intro l
  have hnew : Tracks l [] start := Tracks.new limit window maxKeys start
  have hset : Settings l limit window maxKeys := ⟨rfl, rfl, rfl⟩
  refine ⟨?_, ?_, ?_, answers_eq hnew hnew hset hset hlimit hclock⟩
  · rintro pre key now post rfl
    obtain ⟨htracks, hset', hclk⟩ := hnew.run hset hlimit hclock
    have hiff := (@Tracks.allow _ _ _ _ _ _ _ _ key (htracks.later hclk.head.1) (hset'.limit ▸ hlimit)).1
    rwa [hset'.limit, hset'.window, hset'.maxKeys] at hiff
  · rintro pre post rfl n hn
    obtain ⟨htracks, hset', -⟩ := hnew.run hset hlimit hclock
    exact htracks.bounded n (hset'.maxKeys.trans hn)
  · rintro pre c post rfl key t ht hlt
    rw [← List.singleton_append, ← List.append_assoc] at hclock
    obtain ⟨htracks, hset', -⟩ := hnew.run hset hlimit hclock
    rw [show lastNow start (pre ++ [c]) = c.now by
      rw [lastNow, List.foldl_append]; rfl] at htracks
    obtain ⟨r, hr, hrk⟩ := htracks.stored ht (hset'.window.symm ▸ hlt)
    rw [Table.find?_eq_some.mpr ⟨hr, hrk⟩]
    rfl

end Run

/-! ### An attacker, and a clock that rounds -/

/-- Readings whose differences are rounded to the next even number below. -/
structure Coarse where
  reading : ℤ
  deriving DecidableEq

instance : LinearOrder Coarse :=
  LinearOrder.lift' Coarse.reading fun a b h => by
    cases a
    cases b
    exact congrArg _ h

instance : Sub Coarse := ⟨fun a b => ⟨2 * ((a.reading - b.reading) / 2)⟩⟩

instance : RoundsMonotone Coarse where
  sub_le_sub {now now'} window h := by
    have hle : now.reading ≤ now'.reading := h
    show 2 * ((now.reading - window.reading) / 2) ≤ 2 * ((now'.reading - window.reading) / 2)
    omega

def coarseMinute : Coarse := ⟨60⟩

/-- Two calls of one key, one of another, and the first again when the clock
reads 161: its window is taken to begin at 100. -/
def attackerCalls : List (Call String Coarse) :=
  [.allow "a" ⟨100⟩, .allow "a" ⟨100⟩, .allow "b" ⟨101⟩, .allow "c" ⟨102⟩, .cleanup ⟨130⟩,
    .allow "a" ⟨161⟩]

theorem sliding_window_meets_log_attacker :
    let l : SlidingWindow String Coarse := .new 2 coarseMinute (some 2) ⟨100⟩
    l.answers attackerCalls = [true, true, true, false, true] ∧
    (∀ pre key now post, attackerCalls = pre ++ .allow key now :: post →
      (((l.after pre).allow key now).1 = true ↔
        Allowed 2 coarseMinute (some 2) (l.accepted pre) key now)) ∧
    (∀ pre post, attackerCalls = pre ++ post →
      ∀ n, some 2 = some n → (l.after pre).events.rows.length ≤ n) ∧
    (∀ pre c post, attackerCalls = pre ++ c :: post → ∀ key t,
      (key, t) ∈ l.accepted (pre ++ [c]) →
      c.now - coarseMinute < t → ((l.after (pre ++ [c])).events.find? key).isSome) ∧
    l.answers attackerCalls = l.answers (attackerCalls.filter Call.isAllow) :=
  ⟨by decide +kernel,
    sliding_window_meets_log 2 coarseMinute (some 2) ⟨100⟩ attackerCalls (by decide)
      (by unfold Clocked; decide +kernel)⟩

end RateLimit

end AccessPages
