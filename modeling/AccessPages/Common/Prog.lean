import Mathlib
/-!
# Common — programs that ask a changing world

A program asks its environment one question after another and goes on
with the answers. The same program is read in two ways. Over a world
that anything may change between two questions, `Spec` says what holds of
the history at every question and at the end. Over a world only the
program itself changes, `run` is its result and `Always` what holds
wherever it may be interrupted.
-/

namespace AccessPages

/-- A program over questions `e : E` with answers in `R e`. -/
inductive Prog (E : Type) (R : E → Type) (α : Type) where
  | ret (a : α)
  | op (e : E) (k : R e → Prog E R α)

namespace Prog

variable {E : Type} {R : E → Type} {α β : Type}

/-- Sequencing. -/
def bind : Prog E R α → (α → Prog E R β) → Prog E R β
  | ret a, f => f a
  | op e k, f => op e fun r => (k r).bind f

/-- Ask one question. -/
def call (e : E) : Prog E R (R e) := op e ret

instance : Monad (Prog E R) where
  pure := ret
  bind := bind

@[simp] theorem pure_eq (a : α) : (pure a : Prog E R α) = ret a := rfl

@[simp] theorem ret_bind (a : α) (f : α → Prog E R β) : (ret a >>= f) = f a := rfl

@[simp] theorem op_bind (e : E) (k : R e → Prog E R α) (f : α → Prog E R β) :
    (op e k >>= f) = op e fun r => k r >>= f := rfl

@[simp] theorem call_bind (e : E) (f : R e → Prog E R β) : (call e >>= f) = op e f := rfl

theorem bind_assoc {γ : Type} (p : Prog E R α) (f : α → Prog E R β) (g : β → Prog E R γ) :
    (p >>= f) >>= g = p >>= fun a => f a >>= g := by
  induction p with
  | ret a => rfl
  | op e k ih => simp only [op_bind, ih]

/-! ## Over a world anything may change -/

section History

variable {W : Type} (answer : (e : E) → W → R e)

/-- What has been asked, and in which world, most recent first. -/
abbrev History (E W : Type) := List (E × W)

/-- `p` on the worlds `ws`, one for each question: the history, and the
program that is left. -/
def exec : Prog E R α → List W → History E W → History E W × Prog E R α
  | ret a, _, h => (h, ret a)
  | op e k, [], h => (h, op e k)
  | op e k, w :: ws, h => exec (k (answer e w)) ws ((e, w) :: h)

@[simp] theorem exec_nil {p : Prog E R α} {h : History E W} : exec answer p [] h = (h, p) := by
  cases p <;> rfl

theorem exec_append {p : Prog E R α} {ws ws' : List W} {h : History E W} :
    exec answer p (ws ++ ws') h =
      exec answer (exec answer p ws h).2 ws' (exec answer p ws h).1 := by
  induction ws generalizing p h with
  | nil => simp only [List.nil_append, exec_nil]
  | cons w ws ih =>
      cases p with
      | ret a => cases ws' <;> rfl
      | op e k => exact ih

/-- Whatever the worlds are, `Φ` holds of the history at every question
and `Q` of the result. -/
def Spec (Φ : History E W → E → Prop) :
    Prog E R α → History E W → (α → History E W → Prop) → Prop
  | ret a, h, Q => Q a h
  | op e k, h, Q => Φ h e ∧ ∀ w, Spec Φ (k (answer e w)) ((e, w) :: h) Q

variable {answer} {Φ : History E W → E → Prop} {Q Q' : α → History E W → Prop}

@[simp] theorem spec_ret {a : α} {h : History E W} : Spec answer Φ (ret a) h Q ↔ Q a h := Iff.rfl

@[simp] theorem spec_op {e : E} {k : R e → Prog E R α} {h : History E W} :
    Spec answer Φ (op e k) h Q ↔
      Φ h e ∧ ∀ w, Spec answer Φ (k (answer e w)) ((e, w) :: h) Q := Iff.rfl

theorem spec_mono {p : Prog E R α} {h : History E W} (hp : Spec answer Φ p h Q)
    (hQ : ∀ a h', Q a h' → Q' a h') : Spec answer Φ p h Q' := by
  induction p generalizing h with
  | ret a => exact hQ a h hp
  | op e k ih => exact ⟨hp.1, fun w => ih _ (hp.2 w)⟩

theorem spec_bind {p : Prog E R α} {f : α → Prog E R β} {h : History E W}
    {Q : β → History E W → Prop} :
    Spec answer Φ (p >>= f) h Q ↔
      Spec answer Φ p h fun a h' => Spec answer Φ (f a) h' Q := by
  induction p generalizing h with
  | ret a => exact Iff.rfl
  | op e k ih =>
      simp only [op_bind, spec_op]
      exact and_congr_right fun _ => forall_congr' fun w => ih _

/-! ### Programs that may raise -/

section Except

variable {ε : Type} {Q : Except ε β → History E W → Prop} {h : History E W}

@[simp] theorem spec_except_bind {x : ExceptT ε (Prog E R) α} {f : α → ExceptT ε (Prog E R) β} :
    Spec answer Φ (x >>= f).run h Q ↔
      Spec answer Φ x.run h fun r h' =>
        match r with
        | .ok a => Spec answer Φ (f a).run h' Q
        | .error e => Q (.error e) h' := by
  show Spec answer Φ (x.run >>= ExceptT.bindCont f) h Q ↔ _
  rw [spec_bind]
  constructor <;>
  · intro hx
    refine spec_mono hx fun r h' hr => ?_
    cases r <;> exact hr

@[simp] theorem spec_except_pure {b : β} :
    Spec answer Φ (pure b : ExceptT ε (Prog E R) β).run h Q ↔ Q (.ok b) h := Iff.rfl

@[simp] theorem spec_except_throw {e : ε} :
    Spec answer Φ (throw e : ExceptT ε (Prog E R) β).run h Q ↔ Q (.error e) h := Iff.rfl

@[simp] theorem spec_except_map {x : ExceptT ε (Prog E R) α} {f : α → β} :
    Spec answer Φ (f <$> x).run h Q ↔ Spec answer Φ x.run h fun r h' => Q (r.map f) h' := by
  show Spec answer Φ (x >>= fun a => pure (f a)).run h Q ↔ _
  rw [spec_except_bind]
  constructor <;>
  · intro hx
    refine spec_mono hx fun r h' hr => ?_
    cases r <;> exact hr

@[simp] theorem spec_except_lift {x : Except ε β} :
    Spec answer Φ (liftM x : ExceptT ε (Prog E R) β).run h Q ↔ Q x h := by
  cases x <;> exact Iff.rfl

@[simp] theorem spec_except_call {p : Prog E R β} :
    Spec answer Φ (liftM p : ExceptT ε (Prog E R) β).run h Q ↔
      Spec answer Φ p h fun b h' => Q (.ok b) h' := by
  show Spec answer Φ (p >>= fun b => ret (.ok b)) h Q ↔ _
  exact spec_bind

@[simp] theorem spec_except_tryCatch {x : ExceptT ε (Prog E R) β}
    {f : ε → ExceptT ε (Prog E R) β} :
    Spec answer Φ (tryCatch x f).run h Q ↔
      Spec answer Φ x.run h fun r h' =>
        match r with
        | .ok b => Q (.ok b) h'
        | .error e => Spec answer Φ (f e).run h' Q := by
  show Spec answer Φ (x.run >>= fun r => _) h Q ↔ _
  rw [spec_bind]
  constructor <;>
  · intro hx
    refine spec_mono hx fun r h' hr => ?_
    cases r <;> exact hr

end Except

theorem spec_imp {Φ' : History E W → E → Prop} {p : Prog E R α} {h : History E W}
    (hp : Spec answer Φ p h Q) (hΦ : ∀ h e, Φ h e → Φ' h e) (hQ : ∀ a h', Q a h' → Q' a h') :
    Spec answer Φ' p h Q' := by
  induction p generalizing h with
  | ret a => exact hQ a h hp
  | op e k ih => exact ⟨hΦ h e hp.1, fun w => ih _ (hp.2 w)⟩

/-- Two specifications of one program hold together. -/
theorem spec_and {Φ' : History E W → E → Prop} {p : Prog E R α} {h : History E W}
    (hp : Spec answer Φ p h Q) (hp' : Spec answer Φ' p h Q') :
    Spec answer (fun h e => Φ h e ∧ Φ' h e) p h fun a h' => Q a h' ∧ Q' a h' := by
  induction p generalizing h with
  | ret a => exact ⟨hp, hp'⟩
  | op e k ih => exact ⟨⟨hp.1, hp'.1⟩, fun w => ih _ (hp.2 w) (hp'.2 w)⟩

/-- What the questions keep true of the history is true at every question. -/
theorem spec_invariant {Φ' : History E W → E → Prop} {J : History E W → Prop} {p : Prog E R α}
    {h : History E W} (hp : Spec answer Φ p h Q) (hJ : J h)
    (hstep : ∀ h e w, J h → Φ h e → J ((e, w) :: h)) (hΦ : ∀ h e, J h → Φ h e → Φ' h e) :
    Spec answer Φ' p h fun a h' => J h' ∧ Q a h' := by
  induction p generalizing h with
  | ret a => exact ⟨hJ, hp⟩
  | op e k ih => exact ⟨hΦ h e hJ hp.1, fun w => ih _ (hp.2 w) (hstep h e w hJ hp.1)⟩

/-- **What `Spec` promises.** At every question the program reaches, `Φ`
holds of what was asked before it; and `Q` holds when it is done. -/
theorem Spec.exec {p : Prog E R α} {ws : List W} {h : History E W}
    (hp : Spec answer Φ p h Q) :
    (∀ post e w pre, (p.exec answer ws h).1 = post ++ (e, w) :: pre →
      h.length ≤ pre.length → Φ pre e) ∧
    ∀ a, (p.exec answer ws h).2 = ret a → Q a (p.exec answer ws h).1 := by
  induction ws generalizing p h with
  | nil =>
      have hnil : (p.exec answer [] h).1 = h := by rw [exec_nil]
      refine ⟨fun post e w pre he hle => ?_, fun a ha => ?_⟩
      · rw [hnil] at he
        have := congrArg List.length he
        simp only [List.length_append, List.length_cons] at this
        omega
      · cases p with
        | ret b => cases ha; exact hp
        | op e k => cases ha
  | cons w ws ih =>
      cases p with
      | ret b =>
          refine ⟨fun post e w pre he hle => ?_, fun a ha => ?_⟩
          · have := congrArg List.length (show h = _ from he)
            simp only [List.length_append, List.length_cons] at this
            omega
          · cases ha; exact hp
      | op e k =>
          have hk := ih (hp.2 w)
          refine ⟨fun post e' w' pre he hle => ?_, hk.2⟩
          rcases Nat.lt_or_ge h.length pre.length with hlt | hge
          · exact hk.1 post e' w' pre he (by rw [List.length_cons]; omega)
          · -- the question at hand is the one just answered
            have hsuf := exec_suffix (k (answer e w)) ws ((e, w) :: h)
            obtain ⟨l, hl⟩ := hsuf
            have heq : post ++ (e', w') :: pre = l ++ (e, w) :: h := he.symm.trans hl
            obtain ⟨-, htail⟩ := List.append_inj' heq (by simp; omega)
            cases htail
            exact hp.1
where
  /-- Running on only adds to the history. -/
  exec_suffix : ∀ (p : Prog E R α) (ws : List W) (h : History E W),
      ∃ l, (p.exec answer ws h).1 = l ++ h
    | ret _, _, h => ⟨[], rfl⟩
    | op _ _, [], h => ⟨[], rfl⟩
    | op e k, w :: ws, h => by
        obtain ⟨l, hl⟩ := exec_suffix (k (answer e w)) ws ((e, w) :: h)
        exact ⟨l ++ [(e, w)], by simpa [Prog.exec] using hl⟩

end History

/-! ## Which questions a program has -/

section Asks

/-- Every question is in `A`, whatever the answers are. -/
def Asks (A : E → Prop) : Prog E R α → Prop
  | ret _ => True
  | op e k => A e ∧ ∀ r, Asks A (k r)

variable {A : E → Prop} {ε : Type}

theorem asks_bind {p : Prog E R α} {f : α → Prog E R β} (hp : Asks A p)
    (hf : ∀ a, Asks A (f a)) : Asks A (p >>= f) := by
  induction p with
  | ret a => exact hf a
  | op e k ih => exact ⟨hp.1, fun r => ih r (hp.2 r)⟩

theorem asks_except_bind {x : ExceptT ε (Prog E R) α} {f : α → ExceptT ε (Prog E R) β}
    (hx : Asks A x.run) (hf : ∀ a, Asks A (f a).run) : Asks A (x >>= f).run := by
  refine asks_bind (f := ExceptT.bindCont f) hx fun r => ?_
  cases r with
  | ok a => exact hf a
  | error e => trivial

theorem asks_except_tryCatch {x : ExceptT ε (Prog E R) α} {f : ε → ExceptT ε (Prog E R) α}
    (hx : Asks A x.run) (hf : ∀ e, Asks A (f e).run) : Asks A (tryCatch x f).run := by
  refine asks_bind hx fun r => ?_
  cases r with
  | ok a => trivial
  | error e => exact hf e

theorem asks_except_map {x : ExceptT ε (Prog E R) α} {f : α → β} (hx : Asks A x.run) :
    Asks A (f <$> x).run :=
  asks_except_bind hx fun _ => trivial

theorem asks_except_lift {x : Except ε α} :
    Asks A (liftM x : ExceptT ε (Prog E R) α).run := by
  cases x <;> trivial

theorem Asks.mono {B : E → Prop} {p : Prog E R α} (hp : Asks A p) (h : ∀ e, A e → B e) :
    Asks B p := by
  induction p with
  | ret a => trivial
  | op e k ih => exact ⟨h e hp.1, fun r => ih r (hp.2 r)⟩

/-- Such a program meets what `A` gives, in any world, and its questions go
on record. -/
theorem Asks.spec {W : Type} {answer : (e : E) → W → R e} {Φ : History E W → E → Prop}
    {p : Prog E R α} (hp : Asks A p) (hΦ : ∀ h e, A e → Φ h e) (h : History E W) :
    Spec answer Φ p h fun _ h' => h <:+ h' := by
  induction p generalizing h with
  | ret a => exact List.suffix_rfl
  | op e k ih =>
      refine ⟨hΦ h e hp.1, fun w => spec_mono (ih _ (hp.2 _) _) fun _ h' hs => ?_⟩
      exact (List.suffix_cons _ _).trans hs

end Asks

/-! ## Over a world of its own -/

section Run

variable {W : Type} (step : (e : E) → W → R e × W)

/-- The result and the world it leaves. -/
def run : Prog E R α → W → α × W
  | ret a, w => (a, w)
  | op e k, w => run (k (step e w).1) (step e w).2

/-- `I` holds wherever the program may be interrupted. -/
def Always (I : W → Prop) : Prog E R α → W → Prop
  | ret _, w => I w
  | op e k, w => I w ∧ Always I (k (step e w).1) (step e w).2

/-- The worlds the program may be interrupted in: before any of its
questions, or when it is done. -/
def Stops : Prog E R α → W → W → Prop
  | ret _, w, w' => w' = w
  | op e k, w, w' => w' = w ∨ Stops (k (step e w).1) (step e w).2 w'

/-- `I` holds wherever the program may be interrupted and `Q` of the
result, when it gets there. -/
def Wp (I : W → Prop) : Prog E R α → (α → W → Prop) → W → Prop
  | ret a, Q, w => I w ∧ Q a w
  | op e k, Q, w => I w ∧ Wp I (k (step e w).1) Q (step e w).2

variable {step} {I J : W → Prop}

@[simp] theorem run_ret {a : α} {w : W} : run step (ret a) w = (a, w) := rfl

@[simp] theorem run_op {e : E} {k : R e → Prog E R α} {w : W} :
    run step (op e k) w = run step (k (step e w).1) (step e w).2 := rfl

@[simp] theorem run_bind {p : Prog E R α} {f : α → Prog E R β} {w : W} :
    run step (p >>= f) w = run step (f (run step p w).1) (run step p w).2 := by
  induction p generalizing w with
  | ret a => rfl
  | op e k ih => simp only [op_bind, run_op, ih]

theorem run_except_bind {ε : Type} {x : ExceptT ε (Prog E R) α} {f : α → ExceptT ε (Prog E R) β}
    {w : W} :
    run step (x >>= f).run w =
      match run step x.run w with
      | (.ok a, w') => run step (f a).run w'
      | (.error e, w') => (.error e, w') := by
  show run step (x.run >>= ExceptT.bindCont f) w = _
  rw [run_bind]
  rcases run step x.run w with ⟨r, w'⟩
  cases r <;> rfl

@[simp] theorem always_ret {a : α} {w : W} : Always step I (ret a : Prog E R α) w ↔ I w := Iff.rfl

@[simp] theorem always_op {e : E} {k : R e → Prog E R α} {w : W} :
    Always step I (op e k) w ↔ I w ∧ Always step I (k (step e w).1) (step e w).2 := Iff.rfl

/-- The invariant holds at the start. -/
theorem Always.start {p : Prog E R α} {w : W} (hp : Always step I p w) : I w := by
  cases p with
  | ret a => exact hp
  | op e k => exact hp.1

/-- **`Always` is about every interruption.** -/
theorem always_iff_stops {p : Prog E R α} {w : W} :
    Always step I p w ↔ ∀ w', Stops step p w w' → I w' := by
  induction p generalizing w with
  | ret a => exact ⟨fun h w' hw => hw ▸ h, fun h => h w rfl⟩
  | op e k ih =>
      rw [always_op, ih]
      constructor
      · rintro ⟨hw, hk⟩ w' (rfl | hs)
        · exact hw
        · exact hk w' hs
      · exact fun h => ⟨h w (Or.inl rfl), fun w' hs => h w' (Or.inr hs)⟩

@[simp] theorem wp_ret {a : α} {Q : α → W → Prop} {w : W} :
    Wp step I (ret a) Q w ↔ I w ∧ Q a w := Iff.rfl

@[simp] theorem wp_op {e : E} {k : R e → Prog E R α} {Q : α → W → Prop} {w : W} :
    Wp step I (op e k) Q w ↔ I w ∧ Wp step I (k (step e w).1) Q (step e w).2 := Iff.rfl

theorem Wp.start {p : Prog E R α} {Q : α → W → Prop} {w : W} (hp : Wp step I p Q w) : I w := by
  cases p with
  | ret a => exact hp.1
  | op e k => exact hp.1

theorem wp_mono {p : Prog E R α} {Q Q' : α → W → Prop} {w : W} (hp : Wp step I p Q w)
    (hQ : ∀ a w', I w' → Q a w' → Q' a w') : Wp step I p Q' w := by
  induction p generalizing w with
  | ret a => exact ⟨hp.1, hQ a w hp.1 hp.2⟩
  | op e k ih => exact ⟨hp.1, ih _ hp.2⟩

theorem wp_bind {p : Prog E R α} {f : α → Prog E R β} {Q : β → W → Prop} {w : W} :
    Wp step I (p >>= f) Q w ↔ Wp step I p (fun a w' => Wp step I (f a) Q w') w := by
  induction p generalizing w with
  | ret a => exact ⟨fun h => ⟨h.start, h⟩, fun h => h.2⟩
  | op e k ih => exact and_congr_right fun _ => ih _

theorem wp_except_bind {ε : Type} {x : ExceptT ε (Prog E R) α} {f : α → ExceptT ε (Prog E R) β}
    {Q : Except ε β → W → Prop} {w : W} :
    Wp step I (x >>= f).run Q w ↔ Wp step I x.run (fun r w' =>
      match r with
      | .ok a => Wp step I (f a).run Q w'
      | .error e => I w' ∧ Q (.error e) w') w := by
  show Wp step I (x.run >>= ExceptT.bindCont f) Q w ↔ _
  rw [wp_bind]
  constructor <;>
  · intro hx
    refine wp_mono hx fun r w' _ hr => ?_
    cases r <;> exact hr

theorem wp_except_lift {ε : Type} {x : Except ε β} {Q : Except ε β → W → Prop} {w : W} :
    Wp step I (liftM x : ExceptT ε (Prog E R) β).run Q w ↔ I w ∧ Q x w := by
  cases x <;> exact Iff.rfl

/-- **What `Wp` promises**, of every interruption and of the result. -/
theorem wp_iff {p : Prog E R α} {Q : α → W → Prop} {w : W} :
    Wp step I p Q w ↔
      (∀ w', Stops step p w w' → I w') ∧ Q (p.run step w).1 (p.run step w).2 := by
  rw [← always_iff_stops]
  induction p generalizing w with
  | ret a => exact Iff.rfl
  | op e k ih =>
      rw [wp_op, ih, always_op, run_op]
      exact and_assoc.symm

/-- A finished run is one of the worlds it may stop in. -/
theorem stops_run {p : Prog E R α} {w : W} : Stops step p w (p.run step w).2 := by
  induction p generalizing w with
  | ret a => exact rfl
  | op e k ih => exact Or.inr (ih _)

end Run

end Prog

end AccessPages
