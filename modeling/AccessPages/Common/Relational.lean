import AccessPages.Common.Prog
/-!
# Common — two runs side by side

Two programs agree over a relation of worlds if, asked in worlds that are
related, they put the same questions and end in related results. A
program agrees with itself where the relation fixes the answers to all
its questions; it is at the others that something is left to prove.
-/

namespace AccessPages

namespace Prog

variable {E : Type} {R : E → Type} {W α α' β β' ε : Type}
variable {answer : (e : E) → W → R e} {S : W → W → Prop}

/-! ## Agreement -/

/-- **The same questions, and related results**, whatever the worlds are, so
long as `S` relates them. -/
inductive Agree (answer : (e : E) → W → R e) (S : W → W → Prop) (Q : α → α' → Prop) :
    Prog E R α → Prog E R α' → Prop
  | ret {a : α} {a' : α'} (h : Q a a') : Agree answer S Q (ret a) (ret a')
  | op {e : E} {k : R e → Prog E R α} {k' : R e → Prog E R α'}
      (h : ∀ w w', S w w' → Agree answer S Q (k (answer e w)) (k' (answer e w'))) :
      Agree answer S Q (op e k) (op e k')

/-- The answer to a question is the same in related worlds. -/
def Fixed (answer : (e : E) → W → R e) (S : W → W → Prop) (e : E) : Prop :=
  ∀ w w', S w w' → answer e w = answer e w'

theorem Agree.mono {Q Q' : α → α' → Prop} {p : Prog E R α} {p' : Prog E R α'}
    (hp : Agree answer S Q p p') (hQ : ∀ a a', Q a a' → Q' a a') : Agree answer S Q' p p' := by
  induction hp with
  | ret h => exact .ret (hQ _ _ h)
  | op h ih => exact .op ih

theorem Agree.bind {Q : α → α' → Prop} {Q' : β → β' → Prop} {p : Prog E R α} {p' : Prog E R α'}
    {f : α → Prog E R β} {f' : α' → Prog E R β'} (hp : Agree answer S Q p p')
    (hf : ∀ a a', Q a a' → Agree answer S Q' (f a) (f' a')) :
    Agree answer S Q' (p >>= f) (p' >>= f') := by
  induction hp with
  | ret h => exact hf _ _ h
  | op h ih => exact .op ih

/-- A program agrees with itself if its questions are fixed. -/
theorem Asks.agree {p : Prog E R α} (hp : Asks (Fixed answer S) p) :
    Agree answer S Eq p p := by
  induction p with
  | ret a => exact .ret rfl
  | op e k ih =>
      refine .op fun w w' hS => ?_
      rw [hp.1 w w' hS]
      exact ih _ (hp.2 _)

theorem agree_eq_ret {p p' : Prog E R α} (hp : Agree answer S Eq p p') (a : α) :
    p = ret a ↔ p' = ret a := by
  cases hp with
  | ret h => rw [h]
  | op h => exact iff_of_false (by rintro ⟨⟩) (by rintro ⟨⟩)

/-- **What agreement promises.** On two sequences of worlds that are related
one by one, the questions are the same, and so is what is left to do. -/
theorem Agree.exec {Q : α → α' → Prop} {p : Prog E R α} {p' : Prog E R α'} {ws ws' : List W}
    (hp : Agree answer S Q p p') (hws : List.Forall₂ S ws ws') (h h' : History E W)
    (hh : h.map Prod.fst = h'.map Prod.fst) :
    (p.exec answer ws h).1.map Prod.fst = (p'.exec answer ws' h').1.map Prod.fst ∧
      Agree answer S Q (p.exec answer ws h).2 (p'.exec answer ws' h').2 := by
  induction hws generalizing p p' h h' with
  | nil =>
      rw [exec_nil, exec_nil]
      exact ⟨hh, hp⟩
  | cons hw _ ih =>
      cases hp with
      | ret ha => exact ⟨hh, .ret ha⟩
      | op hk => exact ih (hk _ _ hw) _ _ (by rw [List.map_cons, List.map_cons, hh])

/-! ## Programs that may raise -/

/-- Related values, or the same exception. -/
inductive Outcomes (Q : α → α' → Prop) : Except ε α → Except ε α' → Prop
  | ok {a : α} {a' : α'} (h : Q a a') : Outcomes Q (.ok a) (.ok a')
  | error (e : ε) : Outcomes Q (.error e) (.error e)

theorem Outcomes.refl {Q : α → α → Prop} (hQ : ∀ a, Q a a) (x : Except ε α) :
    Outcomes Q x x := by
  cases x with
  | ok a => exact .ok (hQ a)
  | error e => exact .error e

theorem Outcomes.of_eq {x x' : Except ε α} (h : x = x') : Outcomes Eq x x' :=
  h ▸ Outcomes.refl (fun _ => rfl) x

theorem Outcomes.eq {x x' : Except ε α} (h : Outcomes Eq x x') : x = x' := by
  cases h with
  | ok h => rw [h]
  | error e => rfl

section Except

variable {Q : α → α' → Prop} {Q' : β → β' → Prop} {x : ExceptT ε (Prog E R) α}
  {x' : ExceptT ε (Prog E R) α'}

theorem Agree.except_bind {f : α → ExceptT ε (Prog E R) β} {f' : α' → ExceptT ε (Prog E R) β'}
    (hx : Agree answer S (Outcomes Q) x.run x'.run)
    (hf : ∀ a a', Q a a' → Agree answer S (Outcomes Q') (f a).run (f' a').run) :
    Agree answer S (Outcomes Q') (x >>= f).run (x' >>= f').run := by
  change Agree answer S (Outcomes Q') (x.run >>= ExceptT.bindCont f)
    (x'.run >>= ExceptT.bindCont f')
  refine Agree.bind hx fun r r' hr => ?_
  cases hr with
  | ok h => exact hf _ _ h
  | error e => exact .ret (.error e)

/-- What is fixed runs first, and its value is the same in both. -/
theorem Asks.agree_bind {y : ExceptT ε (Prog E R) α} {f : α → ExceptT ε (Prog E R) β}
    {f' : α → ExceptT ε (Prog E R) β'} (hy : Asks (Fixed answer S) y.run)
    (hf : ∀ a, Agree answer S (Outcomes Q') (f a).run (f' a).run) :
    Agree answer S (Outcomes Q') (y >>= f).run (y >>= f').run := by
  refine Agree.except_bind (hy.agree.mono fun r r' hr => Outcomes.of_eq hr) ?_
  rintro a _ rfl
  exact hf a

theorem Asks.agree_run {y : ExceptT ε (Prog E R) α} (hy : Asks (Fixed answer S) y.run) :
    Agree answer S (Outcomes Eq) y.run y.run :=
  hy.agree.mono fun _ _ hr => Outcomes.of_eq hr

theorem Agree.except_pure {a : α} {a' : α'} (h : Q a a') :
    Agree answer S (Outcomes Q) (pure a : ExceptT ε (Prog E R) α).run
      (pure a' : ExceptT ε (Prog E R) α').run :=
  .ret (.ok h)

theorem Agree.except_throw (e : ε) :
    Agree answer S (Outcomes Q) (throw e : ExceptT ε (Prog E R) α).run
      (throw e : ExceptT ε (Prog E R) α').run :=
  .ret (.error e)

theorem Agree.except_lift {y : Except ε α} {y' : Except ε α'} (h : Outcomes Q y y') :
    Agree answer S (Outcomes Q) (liftM y : ExceptT ε (Prog E R) α).run
      (liftM y' : ExceptT ε (Prog E R) α').run := by
  cases h with
  | ok h => exact .ret (.ok h)
  | error e => exact .ret (.error e)

theorem Agree.except_map {g : α → β} {g' : α' → β'}
    (hx : Agree answer S (Outcomes Q) x.run x'.run) (hg : ∀ a a', Q a a' → Q' (g a) (g' a')) :
    Agree answer S (Outcomes Q') (g <$> x).run (g' <$> x').run :=
  Agree.except_bind hx fun a a' h => Agree.except_pure (hg a a' h)

theorem Agree.except_tryCatch {f : ε → ExceptT ε (Prog E R) α}
    {f' : ε → ExceptT ε (Prog E R) α'} (hx : Agree answer S (Outcomes Q) x.run x'.run)
    (hf : ∀ e, Agree answer S (Outcomes Q) (f e).run (f' e).run) :
    Agree answer S (Outcomes Q) (tryCatch x f).run (tryCatch x' f').run := by
  refine Agree.bind hx fun r r' hr => ?_
  cases hr with
  | ok h => exact .ret (.ok h)
  | error e => exact hf e

end Except

end Prog

end AccessPages
