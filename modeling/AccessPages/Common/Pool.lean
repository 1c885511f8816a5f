import AccessPages.Common.Prog
/-!
# Common — programs that take turns at one world

A `Machine` serves requests: each is a program, and the programs in
progress take turns at one world, a question at a time. A `Move` is what
happens next, and `play` is the pool after any list of them, so a
statement about all lists is one about every interleaving. The pool
keeps what was asked and in which world, for each thread and overall.
-/

namespace AccessPages

open Prog (History)

/-- What serves requests `ι` over a world `W` that changes `κ` may reach
from outside. A question that is not `ready` waits. -/
structure Machine (ι κ E : Type) (R : E → Type) (α W : Type) where
  serve : ι → Prog E R α
  step : (e : E) → W → R e × W
  ready : E → W → Bool
  change : κ → W → W

/-- A request in progress, with what it has asked so far. -/
structure Thread (ι E : Type) (R : E → Type) (α W : Type) where
  request : ι
  history : History E W
  prog : Prog E R α

/-- The world, everything asked of it, and the requests in progress or
done. -/
structure Pool (ι E : Type) (R : E → Type) (α W : Type) where
  world : W
  log : History E W
  threads : List (Thread ι E R α W)

/-- What happens next: a request arrives, a thread asks its question, the
world changes, or the process restarts and loses its threads. -/
inductive Move (ι κ : Type) where
  | start (r : ι)
  | ask (i : Nat)
  | change (c : κ)
  | restart

variable {ι κ E α W : Type} {R : E → Type}

/-- A pool nothing was asked of yet. -/
def Pool.new (w : W) : Pool ι E R α W := ⟨w, [], []⟩

namespace Machine

variable (S : Machine ι κ E R α W)

/-- The answer alone. -/
def answer (e : E) (w : W) : R e := (S.step e w).1

/-- One move. A thread that is done, or not ready, stays where it is. -/
def move (P : Pool ι E R α W) : Move ι κ → Pool ι E R α W
  | .start r => { P with threads := P.threads ++ [⟨r, [], S.serve r⟩] }
  | .ask i =>
      match P.threads[i]? with
      | some ⟨r, h, .op e k⟩ =>
          if S.ready e P.world then
            { world := (S.step e P.world).2
              log := (e, P.world) :: P.log
              threads := P.threads.set i ⟨r, (e, P.world) :: h, k (S.answer e P.world)⟩ }
          else P
      | _ => P
  | .change c => { P with world := S.change c P.world }
  | .restart => { P with threads := [] }

/-- The pool after the moves. -/
def play (P : Pool ι E R α W) (ms : List (Move ι κ)) : Pool ι E R α W := ms.foldl S.move P

variable {S} {P : Pool ι E R α W}

@[simp] theorem play_nil : S.play P [] = P := rfl

@[simp] theorem play_cons {m : Move ι κ} {ms : List (Move ι κ)} :
    S.play P (m :: ms) = S.play (S.move P m) ms := rfl

theorem play_append {ms ns : List (Move ι κ)} : S.play P (ms ++ ns) = S.play (S.play P ms) ns :=
  List.foldl_append

/-- **What a thread's turn can do.** Nothing, or its question is asked and
answered. -/
theorem ask_cases (S : Machine ι κ E R α W) (P : Pool ι E R α W) (i : Nat) :
    S.move P (.ask i) = P ∨
    ∃ r h e k, P.threads[i]? = some ⟨r, h, .op e k⟩ ∧ S.ready e P.world = true ∧
      S.move P (.ask i) =
        ⟨(S.step e P.world).2, (e, P.world) :: P.log,
          P.threads.set i ⟨r, (e, P.world) :: h, k (S.answer e P.world)⟩⟩ := by
  simp only [move]
  split
  · rename_i r h e k hi
    split
    · rename_i hr
      exact Or.inr ⟨r, h, e, k, hi, hr, rfl⟩
    · exact Or.inl rfl
  · exact Or.inl rfl

/-- What every allowed move preserves, the moves preserve. -/
theorem play_invariant {I : Pool ι E R α W → Prop} {A : Move ι κ → Prop}
    (hstep : ∀ P m, A m → I P → I (S.move P m)) {ms : List (Move ι κ)} (hms : ∀ m ∈ ms, A m)
    (h : I P) : I (S.play P ms) := by
  induction ms generalizing P with
  | nil => exact h
  | cons m ms ih =>
      exact ih (fun m' hm' => hms m' (List.mem_cons_of_mem _ hm'))
        (hstep P m (hms m List.mem_cons_self) h)

/-! ## Each thread runs its own program -/

/-- The history and what is left of a thread are its program's, on the
worlds it met. -/
def Serves (S : Machine ι κ E R α W) (t : Thread ι E R α W) : Prop :=
  ∃ ws, (S.serve t.request).exec S.answer ws [] = (t.history, t.prog)

theorem serves_move (h : ∀ t ∈ P.threads, S.Serves t) (m : Move ι κ) :
    ∀ t ∈ (S.move P m).threads, S.Serves t := by
  cases m with
  | start r =>
      intro t ht
      rcases List.mem_append.mp ht with ht | ht
      · exact h t ht
      · rw [List.mem_singleton.mp ht]
        exact ⟨[], Prog.exec_nil S.answer⟩
  | ask i =>
      rcases S.ask_cases P i with he | ⟨r, hist, e, k, hi, -, he⟩
      · rw [he]; exact h
      · rw [he]
        intro t ht
        rcases List.mem_or_eq_of_mem_set ht with ht | rfl
        · exact h t ht
        · obtain ⟨ws, hws⟩ := h _ (List.mem_of_getElem? hi)
          refine ⟨ws ++ [P.world], ?_⟩
          rw [Prog.exec_append, hws]
          exact Prog.exec_nil S.answer
  | change c => exact h
  | restart => exact fun t ht => absurd ht List.not_mem_nil

theorem serves_play (w : W) (ms : List (Move ι κ)) :
    ∀ t ∈ (S.play (.new w) ms).threads, S.Serves t := by
  refine play_invariant (I := fun P => ∀ t ∈ P.threads, S.Serves t) (A := fun _ => True)
    (fun _ m _ h => serves_move h m) (fun _ _ => trivial) ?_
  exact fun t ht => absurd ht List.not_mem_nil

/-- **What a specification says of a thread.** -/
theorem Serves.spec {t : Thread ι E R α W} (ht : S.Serves t) {Φ : History E W → E → Prop}
    {Q : α → History E W → Prop} (h : Prog.Spec S.answer Φ (S.serve t.request) [] Q) {a : α}
    (ha : t.prog = .ret a) : Q a t.history := by
  obtain ⟨ws, hws⟩ := ht
  have hend : ((S.serve t.request).exec S.answer ws []).2 = .ret a := by
    rw [hws]
    exact ha
  have hQ := h.exec.2 a hend
  rwa [hws] at hQ

/-- The threads serve what was started. -/
theorem requests_move {C : ι → Prop} (h : ∀ t ∈ P.threads, C t.request) {m : Move ι κ}
    (hm : ∀ r, m = .start r → C r) : ∀ t ∈ (S.move P m).threads, C t.request := by
  cases m with
  | start r =>
      intro t ht
      rcases List.mem_append.mp ht with ht | ht
      · exact h t ht
      · rw [List.mem_singleton.mp ht]
        exact hm r rfl
  | ask i =>
      rcases S.ask_cases P i with he | ⟨r, hist, e, k, hi, -, he⟩
      · rw [he]; exact h
      · rw [he]
        intro t ht
        rcases List.mem_or_eq_of_mem_set ht with ht | rfl
        · exact h t ht
        · exact h ⟨r, hist, .op e k⟩ (List.mem_of_getElem? hi)
  | change c => exact h
  | restart => exact fun t ht => absurd ht List.not_mem_nil

theorem requests_play {C : ι → Prop} {w : W} {ms : List (Move ι κ)}
    (hms : ∀ r, .start r ∈ ms → C r) :
    ∀ t ∈ (S.play (.new w) ms).threads, C t.request := by
  refine play_invariant (I := fun P => ∀ t ∈ P.threads, C t.request)
    (A := fun m => ∀ r, m = .start r → C r) (fun _ m hm h => requests_move h hm) ?_ ?_
  · rintro m hm r rfl
    exact hms r hm
  · exact fun t ht => absurd ht List.not_mem_nil

/-! ## What is asked stays on record -/

/-- Threads ask what the log has. -/
def Logged (P : Pool ι E R α W) : Prop := ∀ t ∈ P.threads, t.history.Sublist P.log

theorem logged_move (h : Logged P) (m : Move ι κ) : Logged (S.move P m) := by
  cases m with
  | start r =>
      intro t ht
      rcases List.mem_append.mp ht with ht | ht
      · exact h t ht
      · rw [List.mem_singleton.mp ht]
        exact List.nil_sublist _
  | ask i =>
      rcases S.ask_cases P i with he | ⟨r, hist, e, k, hi, -, he⟩
      · rw [he]; exact h
      · rw [he]
        intro t ht
        rcases List.mem_or_eq_of_mem_set ht with ht | rfl
        · exact (h t ht).cons _
        · exact (h _ (List.mem_of_getElem? hi)).cons_cons _
  | change c => exact h
  | restart => exact fun t ht => absurd ht List.not_mem_nil

theorem logged_play (w : W) (ms : List (Move ι κ)) : Logged (S.play (.new w) ms) := by
  refine play_invariant (I := Logged) (A := fun _ => True) (fun _ m _ h => logged_move h m)
    (fun _ _ => trivial) ?_
  exact fun t ht => absurd ht List.not_mem_nil

/-- With no restart a thread keeps its place, and its history only grows by
questions asked in worlds that keep `A`. -/
theorem history_play {A : W → Prop} {M : Move ι κ → Prop}
    (hM : ∀ P m, M m → A P.world → A (S.move P m).world) (hr : ¬ M .restart)
    {ms : List (Move ι κ)} (hms : ∀ m ∈ ms, M m) (hA : A P.world) {i : Nat}
    {t : Thread ι E R α W} (ht : (S.play P ms).threads[i]? = some t) :
    ∃ l, (∀ q ∈ l, A q.2) ∧
      t.history = l ++ ((P.threads[i]?).map Thread.history).getD [] := by
  induction ms generalizing P with
  | nil =>
      refine ⟨[], fun _ h => absurd h List.not_mem_nil, ?_⟩
      rw [play_nil] at ht
      simp [ht]
  | cons m ms ih =>
      have hm := hms m List.mem_cons_self
      obtain ⟨l, hl, hist⟩ :=
        ih (fun m' hm' => hms m' (List.mem_cons_of_mem _ hm')) (hM P m hm hA) ht
      cases m with
      | start r =>
          refine ⟨l, hl, ?_⟩
          rw [hist]
          rcases Nat.lt_trichotomy i P.threads.length with h | rfl | h
          · simp [move, List.getElem?_append_left h]
          · simp [move]
          · rw [List.getElem?_eq_none (by simp [move]; omega),
              List.getElem?_eq_none (Nat.le_of_lt h)]
      | ask j =>
          rcases S.ask_cases P j with he | ⟨r, h, e, k, hj, -, he⟩
          · rw [he] at hist
            exact ⟨l, hl, hist⟩
          · rw [he] at hist
            by_cases hij : j = i
            · subst hij
              refine ⟨l ++ [(e, P.world)], ?_, ?_⟩
              · intro q hq
                rcases List.mem_append.mp hq with hq | hq
                · exact hl q hq
                · rw [List.mem_singleton.mp hq]
                  exact hA
              · have hlt := (List.getElem?_eq_some_iff.mp hj).1
                rw [hist, hj, List.getElem?_set_self hlt]
                simp
            · refine ⟨l, hl, ?_⟩
              rw [hist, List.getElem?_set_ne hij]
      | change c => exact ⟨l, hl, hist⟩
      | restart => exact absurd hm hr

/-! ## Debts

A question may leave the world unsettled; whoever asked it then owes a
question that settles it. If every thread pays before it is done, the
world is settled when all are done. -/

section Debt

variable {incurs : E → W → Prop} {pays : E → Prop} {A Settled : W → Prop} {owes : ι → Prop}

/-- Whether a thread still owes, by what it asked, most recent first.
Outside `A` nothing is promised. -/
def Debt (incurs : E → W → Prop) (pays : E → Prop) (A : W → Prop) (owing : Prop) :
    History E W → Prop
  | [] => owing
  | (e, w) :: h => incurs e w ∨ (Debt incurs pays A owing h ∧ ¬ pays e ∧ A w)

/-- The world is settled, or a thread owes it. -/
def Covered (incurs : E → W → Prop) (pays : E → Prop) (A Settled : W → Prop) (owes : ι → Prop)
    (P : Pool ι E R α W) : Prop :=
  Settled P.world ∨ ∃ t ∈ P.threads, Debt incurs pays A (owes t.request) t.history

/-- A request that owes from the start covers whatever is open. -/
theorem covered_start {r : ι} (hr : owes r) :
    Covered incurs pays A Settled owes (S.move P (.start r)) := by
  refine Or.inr ⟨⟨r, [], S.serve r⟩, ?_, hr⟩
  simp [move]

theorem covered_ask (hpay : ∀ e w, A w → pays e → Settled (S.step e w).2)
    (hkeep : ∀ e w, Settled w → ¬ incurs e w → Settled (S.step e w).2) (hA : A P.world)
    (h : Covered incurs pays A Settled owes P) (i : Nat) :
    Covered incurs pays A Settled owes (S.move P (.ask i)) := by
  rcases S.ask_cases P i with he | ⟨r, hist, e, k, hi, -, he⟩
  · rw [he]; exact h
  rw [he]
  have hlt := (List.getElem?_eq_some_iff.mp hi).1
  by_cases hinc : incurs e P.world
  · exact Or.inr ⟨_, List.mem_set hlt _, Or.inl hinc⟩
  by_cases hp : pays e
  · exact Or.inl (hpay e P.world hA hp)
  rcases h with hs | ⟨t, ht, hdebt⟩
  · exact Or.inl (hkeep e P.world hs hinc)
  · -- the thread that owes either is the one that asked, and owes on, or is still there
    obtain ⟨j, hj⟩ := List.mem_iff_getElem?.mp ht
    by_cases hij : i = j
    · subst hij
      obtain rfl : t = ⟨r, hist, .op e k⟩ := Option.some.inj (hj.symm.trans hi)
      exact Or.inr ⟨_, List.mem_set hlt _, Or.inr ⟨hdebt, hp, hA⟩⟩
    · refine Or.inr ⟨t, ?_, hdebt⟩
      rw [List.mem_iff_getElem?]
      exact ⟨j, by rw [List.getElem?_set_ne hij]; exact hj⟩

/-- **When all are done and none owes, the world is settled.** -/
theorem settled_of_covered (h : Covered incurs pays A Settled owes P)
    (hdone : ∀ t ∈ P.threads, ¬ Debt incurs pays A (owes t.request) t.history) :
    Settled P.world :=
  h.resolve_right fun ⟨t, ht, hdebt⟩ => hdone t ht hdebt

end Debt

end Machine

end AccessPages
