import AccessPages.Common.Server
/-!
# Common — jobs under keys

A service runs jobs, each under the lock of its key: two jobs of one key
exclude each other, and jobs of different keys interleave at the
granularity of one question. All of them can die at once, each wherever it
is. Where the questions of a job change only the part of the world that
belongs to its key, what a job keeps of that part when it runs alone holds
in every interleaving.
-/

namespace AccessPages

/-- What jobs `J` ask, and the key each of them locks. -/
structure Service (J K T E : Type) (R : E → Type) (α W : Type) where
  serve : J → Prog E R α
  key : J → K
  perform : T → (e : E) → W → R e × W

namespace Service

/-- The world, and the job that holds the lock of each key. -/
structure Pool (K E : Type) (R : E → Type) (α W : Type) where
  world : W
  threads : K → Option (Prog E R α)

/-- A job takes its lock if it is free; the job of a key asks its next
question, or is done and gives the lock back; the process dies. -/
inductive Move (J K T : Type) where
  | start (j : J)
  | turn (k : K) (t : T)
  | crash

variable {J K T E α W : Type} {R : E → Type}

/-- Nothing runs. -/
def Pool.new (w : W) : Pool K E R α W := ⟨w, fun _ => none⟩

section Threads

variable [DecidableEq K]

/-- The lock of a key is taken, passed on or given back. -/
def Pool.set (P : Pool K E R α W) (k : K) (p : Option (Prog E R α)) : Pool K E R α W :=
  { P with threads := Function.update P.threads k p }

theorem threads_set_self (P : Pool K E R α W) (k : K) (p : Option (Prog E R α)) :
    (P.set k p).threads k = p := Function.update_self ..

theorem threads_set_of_ne (P : Pool K E R α W) {k k' : K} (h : k' ≠ k) (p : Option (Prog E R α)) :
    (P.set k p).threads k' = P.threads k' := Function.update_of_ne h ..

end Threads

variable (S : Service J K T E R α W)

section Moves

variable [DecidableEq K]

def move (P : Pool K E R α W) : Move J K T → Pool K E R α W
  | .start j =>
      if (P.threads (S.key j)).isSome then P
      else P.set (S.key j) (some (S.serve j))
  | .turn k t =>
      match P.threads k with
      | none => P
      | some (.ret _) => P.set k none
      | some (.op e c) =>
          { P with world := (S.perform t e P.world).2 }.set k (some (c (S.perform t e P.world).1))
  | .crash => { P with threads := fun _ => none }

def play (P : Pool K E R α W) (ms : List (Move J K T)) : Pool K E R α W := ms.foldl S.move P

theorem play_append (P : Pool K E R α W) (ms ms' : List (Move J K T)) :
    S.play P (ms ++ ms') = S.play (S.play P ms) ms' := List.foldl_append

/-! ### Ticks of a kind -/

variable (C : T → Prop)

/-- The service where it meets ticks of a kind alone. -/
def among : Service J K { t // C t } E R α W where
  serve := S.serve
  key := S.key
  perform t := S.perform t.1

/-- A move with its tick. -/
def Move.val : Move J K { t // C t } → Move J K T
  | .start j => .start j
  | .turn k t => .turn k t.1
  | .crash => .crash

variable {C}

theorem play_among (P : Pool K E R α W) (ms : List (Move J K { t // C t })) :
    S.play P (ms.map (Move.val C)) = (S.among C).play P ms := by
  induction ms generalizing P with
  | nil => rfl
  | cons m ms ih =>
      have hmove : S.move P (m.val C) = (S.among C).move P m := by
        cases m with
        | start j => rfl
        | turn k t => rfl
        | crash => rfl
      show S.play (S.move P (m.val C)) _ = (S.among C).play ((S.among C).move P m) ms
      rw [hmove]
      exact ih _

omit [DecidableEq K] in
/-- Moves whose ticks are of a kind. -/
theorem exists_among {ms : List (Move J K T)} (h : ∀ k t, .turn k t ∈ ms → C t) :
    ∃ ms' : List (Move J K { t // C t }), ms'.map (Move.val C) = ms := by
  induction ms with
  | nil => exact ⟨[], rfl⟩
  | cons m ms ih =>
      obtain ⟨ms', rfl⟩ := ih fun k t hm => h k t (List.mem_cons_of_mem _ hm)
      cases m with
      | start j => exact ⟨.start j :: ms', rfl⟩
      | turn k t => exact ⟨.turn k ⟨t, h k t List.mem_cons_self⟩ :: ms', rfl⟩
      | crash => exact ⟨.crash :: ms', rfl⟩

end Moves

/-! ## Parts of the world -/

/-- `For k` are the questions a job of the key may ask, and `Same k` relates
worlds that agree on the part of the key: what they answer and do there is
settled by that part, and the questions of another key leave it alone. -/
structure Slices (For : K → E → Prop) (Same : K → W → W → Prop) : Prop where
  refl : ∀ k w, Same k w w
  answer : ∀ {k e} t {w w'}, For k e → Same k w w' → (S.perform t e w').1 = (S.perform t e w).1
  own : ∀ {k e} t {w w'}, For k e → Same k w w' →
    Same k (S.perform t e w).2 (S.perform t e w').2
  other : ∀ {k k' e} t w, k' ≠ k → For k' e → Same k w (S.perform t e w).2

variable {S} {For : K → E → Prop} {Same : K → W → W → Prop} {I : K → W → Prop}
variable {Q : K → α → W → Prop}

/-- What is promised of a job in one world is promised in every world with the
same part of its key. -/
theorem Slices.holds (h : Slices S For Same) {k : K} (hI : ∀ w w', Same k w w' → I k w → I k w')
    (hQ : ∀ a w w', Same k w w' → Q k a w → Q k a w') {p : Prog E R α} {w w' : W}
    (hp : p.Holds S.perform (I k) (fun ev => For k ev.op) (Q k) w) (hs : Same k w w') :
    p.Holds S.perform (I k) (fun ev => For k ev.op) (Q k) w' := by
  induction p generalizing w w' with
  | ret a => exact ⟨hI w w' hs hp.1, hQ a w w' hs hp.2⟩
  | op e c ih =>
      refine ⟨hI w w' hs hp.1, fun t => ?_⟩
      obtain ⟨hfor, hrest⟩ := hp.2 t
      refine ⟨hfor, ?_⟩
      rw [h.answer t hfor hs]
      exact ih _ hrest (h.own t hfor hs)

/-- What holds of every key, and is promised by every job that runs. -/
def Sound (S : Service J K T E R α W) (For : K → E → Prop) (I : K → W → Prop)
    (Q : K → α → W → Prop) (P : Pool K E R α W) : Prop :=
  ∀ k, I k P.world ∧ ∀ p, P.threads k = some p →
    p.Holds S.perform (I k) (fun ev => For k ev.op) (Q k) P.world

theorem sound_new {w : W} (h : ∀ k, I k w) : Sound S For I Q (Pool.new w) :=
  fun k => ⟨h k, fun _ hp => by cases hp⟩

variable [DecidableEq K]

/-- One move, if a job that starts keeps the part of its own key when it runs
alone. -/
theorem sound_move {A : J → Prop} (h : Slices S For Same)
    (hI : ∀ k w w', Same k w w' → I k w → I k w')
    (hQ : ∀ k a w w', Same k w w' → Q k a w → Q k a w')
    (hserve : ∀ j w, A j → I (S.key j) w → (S.serve j).Holds S.perform (I (S.key j))
      (fun ev => For (S.key j) ev.op) (Q (S.key j)) w)
    {P : Pool K E R α W} (hP : Sound S For I Q P) (m : Move J K T) (hm : ∀ j, m = .start j → A j) :
    Sound S For I Q (S.move P m) := by
  cases m with
  | crash => exact fun k => ⟨(hP k).1, fun _ hp => by cases hp⟩
  | start j =>
      rw [move]
      split
      · exact hP
      · refine fun k => ⟨(hP k).1, fun p hp => ?_⟩
        by_cases hk : k = S.key j
        · subst hk
          rw [threads_set_self] at hp
          rw [← Option.some.inj hp]
          exact hserve j _ (hm j rfl) (hP _).1
        · rw [threads_set_of_ne _ hk] at hp
          exact (hP k).2 p hp
  | turn k t =>
      rw [move]
      rcases hk : P.threads k with _ | ⟨a | ⟨e, c⟩⟩
      · exact hP
      · refine fun k' => ⟨(hP k').1, fun p hp => ?_⟩
        by_cases hkk : k' = k
        · subst hkk
          rw [threads_set_self] at hp
          cases hp
        · rw [threads_set_of_ne _ hkk] at hp
          exact (hP k').2 p hp
      · obtain ⟨hfor, hrest⟩ := ((hP k).2 _ hk).2 t
        refine fun k' => ?_
        by_cases hkk : k' = k
        · subst hkk
          refine ⟨hrest.start, fun p hp => ?_⟩
          rw [threads_set_self] at hp
          rw [← Option.some.inj hp]
          exact hrest
        · have hs := h.other t P.world (Ne.symm hkk) hfor
          refine ⟨hI k' _ _ hs (hP k').1, fun p hp => ?_⟩
          rw [threads_set_of_ne _ hkk] at hp
          exact h.holds (hI k') (hQ k') ((hP k').2 p hp) hs

/-- **What each job keeps alone, all of them keep together**, in every
interleaving and across crashes. -/
theorem sound_play {A : J → Prop} (h : Slices S For Same)
    (hI : ∀ k w w', Same k w w' → I k w → I k w')
    (hQ : ∀ k a w w', Same k w w' → Q k a w → Q k a w')
    (hserve : ∀ j w, A j → I (S.key j) w → (S.serve j).Holds S.perform (I (S.key j))
      (fun ev => For (S.key j) ev.op) (Q (S.key j)) w)
    {P : Pool K E R α W} (hP : Sound S For I Q P) (ms : List (Move J K T))
    (hms : ∀ j, .start j ∈ ms → A j) : Sound S For I Q (S.play P ms) := by
  induction ms generalizing P with
  | nil => exact hP
  | cons m ms ih =>
      have hm : ∀ j, m = .start j → A j := fun j hj => hms j (hj ▸ List.mem_cons_self)
      exact ih (sound_move h hI hQ hserve hP m hm) fun j hj => hms j (List.mem_cons_of_mem _ hj)

end Service

end AccessPages
