import AccessPages.Common.Prog
/-!
# Common — requests served one after another

A server runs one request at a time. What each of its questions meets (a
fault, an answer from outside, what others do in the meantime) is a tick,
and a request that runs out of ticks is one the process died in. `Holds`
says what is true whatever the ticks are: `I` of every world, `G` of
every question with its answer and the world it leaves, `Q` of the
result. A property of all runs is then a property of each request.
-/

namespace AccessPages

/-- A question that was answered. -/
structure Event (E : Type) (R : E → Type) (W : Type) where
  before : W
  op : E
  ans : R op
  after : W

namespace Prog

variable {E : Type} {R : E → Type} {α β T W : Type}
variable (perform : T → (e : E) → W → R e × W)

/-- The result, if the ticks last, and the world that is left. -/
def meet : Prog E R α → List T → W → Option α × W
  | ret a, _, w => (some a, w)
  | op _ _, [], w => (none, w)
  | op e k, t :: ts, w => meet (k (perform t e w).1) ts (perform t e w).2

/-- Ticks of another kind, read as ticks. -/
theorem meet_map {T' : Type} (f : T' → T) (p : Prog E R α) (ts : List T') (w : W) :
    p.meet perform (ts.map f) w = p.meet (fun t => perform (f t)) ts w := by
  induction p generalizing ts w with
  | ret a => rfl
  | op e k ih =>
      cases ts with
      | nil => rfl
      | cons t ts => exact ih _ ts _

/-- The questions asked, in order. -/
def events : Prog E R α → List T → W → List (Event E R W)
  | ret _, _, _ => []
  | op _ _, [], _ => []
  | op e k, t :: ts, w =>
      ⟨w, e, (perform t e w).1, (perform t e w).2⟩ ::
        events (k (perform t e w).1) ts (perform t e w).2

theorem events_map {T' : Type} (f : T' → T) (p : Prog E R α) (ts : List T') (w : W) :
    p.events perform (ts.map f) w = p.events (fun t => perform (f t)) ts w := by
  induction p generalizing ts w with
  | ret a => rfl
  | op e k ih =>
      cases ts with
      | nil => rfl
      | cons t ts =>
          rw [List.map_cons, events, events, ih]

/-- Whatever the ticks are: `I` of the world at every point, `G` of every
question, `Q` of the result. -/
def Holds (I : W → Prop) (G : Event E R W → Prop) :
    Prog E R α → (α → W → Prop) → W → Prop
  | ret a, Q, w => I w ∧ Q a w
  | op e k, Q, w => I w ∧ ∀ t, G ⟨w, e, (perform t e w).1, (perform t e w).2⟩ ∧
      Holds I G (k (perform t e w).1) Q (perform t e w).2

variable {perform} {I : W → Prop} {G : Event E R W → Prop} {w : W}

@[simp] theorem holds_ret {a : α} {Q : α → W → Prop} :
    Holds perform I G (ret a) Q w ↔ I w ∧ Q a w := Iff.rfl

theorem Holds.start {p : Prog E R α} {Q : α → W → Prop} (hp : Holds perform I G p Q w) : I w := by
  cases p with
  | ret a => exact hp.1
  | op e k => exact hp.1

theorem holds_mono {p : Prog E R α} {Q Q' : α → W → Prop} (hp : Holds perform I G p Q w)
    (hQ : ∀ a w', I w' → Q a w' → Q' a w') : Holds perform I G p Q' w := by
  induction p generalizing w with
  | ret a => exact ⟨hp.1, hQ a w hp.1 hp.2⟩
  | op e k ih => exact ⟨hp.1, fun t => ⟨(hp.2 t).1, ih _ (hp.2 t).2⟩⟩

theorem holds_bind {p : Prog E R α} {f : α → Prog E R β} {Q : β → W → Prop} :
    Holds perform I G (p >>= f) Q w ↔
      Holds perform I G p (fun a w' => Holds perform I G (f a) Q w') w := by
  induction p generalizing w with
  | ret a => exact ⟨fun h => ⟨h.start, h⟩, fun h => h.2⟩
  | op e k ih =>
      exact and_congr_right fun _ => forall_congr' fun t => and_congr_right fun _ => ih _

/-- What the questions of a class keep holds throughout, and at the end. -/
theorem Holds.keeps {A : E → Prop} {J : W → Prop} {p : Prog E R α} {Q : α → W → Prop}
    (hp : Holds perform I G p Q w) (hA : Asks A p) (hJ : J w)
    (hstep : ∀ t e w, A e → I w → J w → G ⟨w, e, (perform t e w).1, (perform t e w).2⟩ →
      J (perform t e w).2) :
    Holds perform (fun w => I w ∧ J w) G p (fun a w' => Q a w' ∧ J w') w := by
  induction p generalizing w with
  | ret a => exact ⟨⟨hp.1, hJ⟩, hp.2, hJ⟩
  | op e k ih =>
      refine ⟨⟨hp.1, hJ⟩, fun t => ⟨(hp.2 t).1, ih _ (hp.2 t).2 (hA.2 _) ?_⟩⟩
      exact hstep t e w hA.1 hp.1 hJ (hp.2 t).1

theorem holds_imp {I' : W → Prop} {G' : Event E R W → Prop} {p : Prog E R α} {Q : α → W → Prop}
    (hp : Holds perform I G p Q w) (hI : ∀ w, I w → I' w)
    (hG : ∀ t e w, I w → G ⟨w, e, (perform t e w).1, (perform t e w).2⟩ →
      G' ⟨w, e, (perform t e w).1, (perform t e w).2⟩) :
    Holds perform I' G' p Q w := by
  induction p generalizing w with
  | ret a => exact ⟨hI _ hp.1, hp.2⟩
  | op e k ih => exact ⟨hI _ hp.1, fun t => ⟨hG t e w hp.1 (hp.2 t).1, ih _ (hp.2 t).2⟩⟩

/-- What holds whatever the ticks are holds of ticks of another kind. -/
theorem holds_ticks {T' : Type} (f : T' → T) {p : Prog E R α} {Q : α → W → Prop}
    (hp : Holds perform I G p Q w) : Holds (fun t => perform (f t)) I G p Q w := by
  induction p generalizing w with
  | ret a => exact hp
  | op e k ih => exact ⟨hp.1, fun t => ⟨(hp.2 (f t)).1, ih _ (hp.2 (f t)).2⟩⟩

/-- Two such facts about one program hold together. -/
theorem holds_and {I' : W → Prop} {G' : Event E R W → Prop} {p : Prog E R α}
    {Q Q' : α → W → Prop} (hp : Holds perform I G p Q w) (hp' : Holds perform I' G' p Q' w) :
    Holds perform (fun w => I w ∧ I' w) (fun ev => G ev ∧ G' ev) p (fun a w' => Q a w' ∧ Q' a w')
      w := by
  induction p generalizing w with
  | ret a => exact ⟨⟨hp.1, hp'.1⟩, hp.2, hp'.2⟩
  | op e k ih =>
      exact ⟨⟨hp.1, hp'.1⟩, fun t => ⟨⟨(hp.2 t).1, (hp'.2 t).1⟩, ih _ (hp.2 t).2 (hp'.2 t).2⟩⟩

/-- **What `Holds` promises** of every question the program gets to, of
the world it is left in, and of its result. -/
theorem Holds.meet {p : Prog E R α} {Q : α → W → Prop} (hp : Holds perform I G p Q w)
    (ts : List T) :
    (∀ ev ∈ p.events perform ts w, G ev) ∧ I (p.meet perform ts w).2 ∧
      ∀ a, (p.meet perform ts w).1 = some a → Q a (p.meet perform ts w).2 := by
  induction p generalizing w ts with
  | ret a => exact ⟨nofun, hp.1, fun b hb => by cases hb; exact hp.2⟩
  | op e k ih =>
      cases ts with
      | nil => exact ⟨nofun, hp.1, nofun⟩
      | cons t ts =>
          obtain ⟨hev, hrest⟩ := ih _ (hp.2 t).2 ts
          refine ⟨fun ev h => ?_, hrest⟩
          rcases List.mem_cons.mp h with rfl | h
          · exact (hp.2 t).1
          · exact hev ev h

/-- What `Holds` promises where it is known of ticks of a kind alone. -/
theorem Holds.meet_of {C : T → Prop} {p : Prog E R α} {Q : α → W → Prop}
    (hp : Holds (fun t : {t // C t} => perform t.1) I G p Q w) {ts : List T}
    (hts : ∀ t ∈ ts, C t) :
    (∀ ev ∈ p.events perform ts w, G ev) ∧ I (p.meet perform ts w).2 ∧
      ∀ a, (p.meet perform ts w).1 = some a → Q a (p.meet perform ts w).2 := by
  have hmeet := hp.meet (ts.attachWith C hts)
  rw [← events_map perform Subtype.val, ← meet_map perform Subtype.val,
    List.attachWith_map_subtype_val] at hmeet
  exact hmeet

/-- What the questions put on record. `J` relates the record to the world;
it holds at every question and at the end. -/
theorem Holds.record {γ : Type} {f : Event E R W → List γ} {J : List γ → W → Prop}
    {p : Prog E R α} {Q : α → W → Prop} (hp : Holds perform I G p Q w)
    (hstep : ∀ t e w C, I w → G ⟨w, e, (perform t e w).1, (perform t e w).2⟩ → J C w →
      J (C ++ f ⟨w, e, (perform t e w).1, (perform t e w).2⟩) (perform t e w).2)
    {C : List γ} (hJ : J C w) (ts : List T) :
    J (C ++ (p.events perform ts w).flatMap f) (p.meet perform ts w).2 ∧
      ∀ ev ∈ p.events perform ts w, ∃ D,
        D ++ f ev <+: C ++ (p.events perform ts w).flatMap f ∧ J D ev.before ∧ G ev := by
  induction p generalizing w ts C with
  | ret a => exact ⟨(List.append_nil C).symm ▸ hJ, nofun⟩
  | op e k ih =>
      cases ts with
      | nil => exact ⟨(List.append_nil C).symm ▸ hJ, nofun⟩
      | cons t ts =>
          obtain ⟨hend, hev⟩ := ih _ (hp.2 t).2 (hstep t e w C hp.1 (hp.2 t).1 hJ) ts
          rw [List.append_assoc] at hend hev
          refine ⟨hend, fun ev h => ?_⟩
          rcases List.mem_cons.mp h with rfl | h
          · refine ⟨C, ?_, hJ, (hp.2 t).1⟩
            rw [events, List.flatMap_cons, ← List.append_assoc]
            exact List.prefix_append _ _
          · exact hev ev h

/-! ## Whatever the answers are -/

section Ends

variable {A : E → Prop} {ε : Type}

/-- Whatever the answers are: `A` of every question, `Q` of the result. -/
def Ends (A : E → Prop) (Q : α → Prop) : Prog E R α → Prop
  | ret a => Q a
  | op e k => A e ∧ ∀ r, Ends A Q (k r)

theorem ends_mono {p : Prog E R α} {Q Q' : α → Prop} (hp : Ends A Q p) (hQ : ∀ a, Q a → Q' a) :
    Ends A Q' p := by
  induction p with
  | ret a => exact hQ a hp
  | op e k ih => exact ⟨hp.1, fun r => ih r (hp.2 r)⟩

theorem ends_bind {p : Prog E R α} {f : α → Prog E R β} {Q : β → Prop}
    (hp : Ends A (fun a => Ends A Q (f a)) p) : Ends A Q (p >>= f) := by
  induction p with
  | ret a => exact hp
  | op e k ih => exact ⟨hp.1, fun r => ih r (hp.2 r)⟩

/-- **What `Ends` promises** of every question the program gets to, and of
its result. -/
theorem Ends.meet {p : Prog E R α} {Q : α → Prop} (hp : Ends A Q p)
    (perform : T → (e : E) → W → R e × W) (ts : List T) (w : W) :
    (∀ ev ∈ p.events perform ts w, A ev.op) ∧ ∀ a, (p.meet perform ts w).1 = some a → Q a := by
  induction p generalizing ts w with
  | ret a => exact ⟨nofun, fun b hb => Option.some.inj hb ▸ hp⟩
  | op e k ih =>
      cases ts with
      | nil => exact ⟨nofun, nofun⟩
      | cons t ts =>
          obtain ⟨hev, hrest⟩ := ih _ (hp.2 _) ts _
          exact ⟨List.forall_mem_cons.mpr ⟨hp.1, hev⟩, hrest⟩

/-- What every question of the class keeps holds throughout. -/
theorem Ends.holds {perform : T → (e : E) → W → R e × W} {I : W → Prop} {w : W} {p : Prog E R α}
    {Q : α → Prop} (hp : Ends A Q p) (hI : I w)
    (hstep : ∀ t e w, A e → I w → I (perform t e w).2) :
    Holds perform I (fun _ => True) p (fun a _ => Q a) w := by
  induction p generalizing w with
  | ret a => exact ⟨hI, hp⟩
  | op e k ih => exact ⟨hI, fun t => ⟨trivial, ih _ (hp.2 _) (hstep t e w hp.1 hI)⟩⟩

/-- The same, over a world of its own. -/
theorem Ends.wp {step : (e : E) → W → R e × W} {I : W → Prop} {w : W} {p : Prog E R α}
    {Q : α → Prop} (hp : Ends A Q p) (hI : I w) (hstep : ∀ e w, A e → I w → I (step e w).2) :
    Wp step I p (fun a _ => Q a) w := by
  induction p generalizing w with
  | ret a => exact ⟨hI, hp⟩
  | op e k ih => exact ⟨hI, ih _ (hp.2 _) (hstep e w hp.1 hI)⟩

/-- **A program that may raise**: `A` of every question, `Q` of what it
returns. -/
structure Returns (A : E → Prop) (x : ExceptT ε (Prog E R) α) (Q : α → Prop) : Prop where
  ends : Ends A (fun r => ∀ a, r = .ok a → Q a) x.run

variable {Q : α → Prop}

theorem returns_pure {a : α} (h : Q a) : Returns A (pure a : ExceptT ε (Prog E R) α) Q :=
  ⟨fun _ hb => Except.ok.inj hb ▸ h⟩

theorem returns_throw {e : ε} : Returns A (throw e : ExceptT ε (Prog E R) α) Q := ⟨nofun⟩

theorem returns_lift {x : Except ε α} (h : ∀ a, x = .ok a → Q a) :
    Returns A (liftM x : ExceptT ε (Prog E R) α) Q := by
  refine ⟨?_⟩
  cases x with
  | ok a => exact fun b hb => Except.ok.inj hb ▸ h a rfl
  | error e => exact nofun

theorem returns_mono {x : ExceptT ε (Prog E R) α} {Q' : α → Prop} (hx : Returns A x Q)
    (hQ : ∀ a, Q a → Q' a) : Returns A x Q' :=
  ⟨ends_mono hx.ends fun _ h a ha => hQ a (h a ha)⟩

theorem returns_bind {x : ExceptT ε (Prog E R) α} {f : α → ExceptT ε (Prog E R) β} {Q' : β → Prop}
    (hx : Returns A x Q) (hf : ∀ a, Q a → Returns A (f a) Q') : Returns A (x >>= f) Q' := by
  refine ⟨?_⟩
  show Ends A _ (x.run >>= ExceptT.bindCont f)
  refine ends_bind (ends_mono hx.ends fun r hr => ?_)
  cases r with
  | ok a => exact (hf a (hr a rfl)).ends
  | error e => exact nofun

end Ends

/-! ## Questions asked by programs -/

section Expand

variable {E' : Type} {R' : E' → Type}

/-- The program, each of its questions asked as `ask` says. -/
def expand (ask : (e : E) → Prog E' R' (R e)) : Prog E R α → Prog E' R' α
  | ret a => ret a
  | op e k => (ask e).bind fun r => (k r).expand ask

/-- Wherever its questions are asked, it ends so. -/
theorem ends_expand {A : E → Prop} {A' : E' → Prop} {ask : (e : E) → Prog E' R' (R e)}
    {p : Prog E R α} {Q : α → Prop} (hp : Ends A Q p)
    (hask : ∀ e, A e → Ends A' (fun _ => True) (ask e)) : Ends A' Q (p.expand ask) := by
  induction p with
  | ret a => exact hp
  | op e k ih => exact ends_bind (ends_mono (hask e hp.1) fun r _ => ih r (hp.2 r))

/-- **A program and its questions' programs.** Where the program of every
question does what one step of a smaller world does, what the program
promises of that world holds of the view of the larger one. -/
theorem holds_expand {T' W' : Type} {perform' : T' → (e : E') → W' → R' e × W'}
    {I : W → Prop} {G : Event E R W → Prop} {I' : W' → Prop} {G' : Event E' R' W' → Prop}
    {ask : (e : E) → Prog E' R' (R e)} {view : W' → W}
    (hask : ∀ e w', I' w' →
      (∀ t, G ⟨view w', e, (perform t e (view w')).1, (perform t e (view w')).2⟩ ∧
        I (perform t e (view w')).2) →
      (ask e).Holds perform' I' G' (fun r w'' => ∃ t, perform t e (view w') = (r, view w'')) w')
    {p : Prog E R α} {Q : α → W → Prop} {w' : W'} (hp : p.Holds perform I G Q (view w'))
    (hw' : I' w') : (p.expand ask).Holds perform' I' G' (fun a w'' => Q a (view w'')) w' := by
  induction p generalizing w' with
  | ret a => exact ⟨hw', hp.2⟩
  | op e k ih =>
      have hhere := hask e w' hw' fun t => ⟨(hp.2 t).1, (hp.2 t).2.start⟩
      show Holds perform' I' G' (ask e >>= fun r => (k r).expand ask) _ w'
      rw [holds_bind]
      refine holds_mono hhere fun r w'' hw'' hr => ?_
      obtain ⟨t, ht⟩ := hr
      have hrest := (hp.2 t).2
      rw [ht] at hrest
      exact ih r hrest hw''

end Expand

/-! ## Programs that may raise -/

section Except

variable {ε : Type} {Q : Except ε β → W → Prop}

@[simp] theorem holds_except_pure {b : β} :
    Holds perform I G (pure b : ExceptT ε (Prog E R) β).run Q w ↔ I w ∧ Q (.ok b) w := Iff.rfl

@[simp] theorem holds_except_throw {e : ε} :
    Holds perform I G (throw e : ExceptT ε (Prog E R) β).run Q w ↔ I w ∧ Q (.error e) w := Iff.rfl

theorem holds_except_bind {x : ExceptT ε (Prog E R) α} {f : α → ExceptT ε (Prog E R) β}
    (hx : Holds perform I G x.run (fun r w' => match r with
      | .ok a => Holds perform I G (f a).run Q w'
      | .error e => Q (.error e) w') w) :
    Holds perform I G (x >>= f).run Q w := by
  show Holds perform I G (x.run >>= ExceptT.bindCont f) Q w
  rw [holds_bind]
  refine holds_mono hx fun r w' hI hr => ?_
  cases r with
  | ok a => exact hr
  | error e => exact ⟨hI, hr⟩

theorem holds_except_tryCatch {x : ExceptT ε (Prog E R) β} {f : ε → ExceptT ε (Prog E R) β}
    (hx : Holds perform I G x.run (fun r w' => match r with
      | .ok b => Q (.ok b) w'
      | .error e => Holds perform I G (f e).run Q w') w) :
    Holds perform I G (tryCatch x f).run Q w := by
  show Holds perform I G (x.run >>= fun r => _) Q w
  rw [holds_bind]
  refine holds_mono hx fun r w' hI hr => ?_
  cases r with
  | ok b => exact ⟨hI, hr⟩
  | error e => exact hr

theorem holds_except_lift {x : Except ε β} :
    Holds perform I G (liftM x : ExceptT ε (Prog E R) β).run Q w ↔ I w ∧ Q x w := by
  cases x <;> exact Iff.rfl

end Except

/-! ## When all goes well -/

section Calm

variable {T E α β W ε : Type} {R : E → Type}

/-- Whatever the ticks of a kind are, the program ends with a result, and in a
world. -/
def Gives (perform : T → (e : E) → W → R e × W) (C : T → Prop) :
    Prog E R α → W → α → W → Prop
  | ret a, w, b, w' => a = b ∧ w = w'
  | op e k, w, b, w' => ∀ t, C t → Gives perform C (k (perform t e w).1) (perform t e w).2 b w'

variable {perform : T → (e : E) → W → R e × W} {C : T → Prop} {w w' w'' : W}

theorem gives_bind {a : α} {b : β} {p : Prog E R α} {f : α → Prog E R β}
    (hp : p.Gives perform C w a w') (hf : (f a).Gives perform C w' b w'') :
    (p >>= f).Gives perform C w b w'' := by
  induction p generalizing w with
  | ret a' =>
      obtain ⟨rfl, rfl⟩ := hp
      exact hf
  | op e k ih => exact fun t ht => ih _ (hp t ht)

theorem gives_except_bind {a : α} {r : Except ε β} {x : ExceptT ε (Prog E R) α}
    {f : α → ExceptT ε (Prog E R) β} (hx : x.run.Gives perform C w (.ok a) w')
    (hf : (f a).run.Gives perform C w' r w'') : (x >>= f).run.Gives perform C w r w'' :=
  gives_bind hx hf

/-- **With ticks of the kind, the program ends.** -/
theorem Gives.meet {a : α} {p : Prog E R α} (hp : p.Gives perform C w a w') (ticks : ℕ → T)
    (hticks : ∀ i, C (ticks i)) :
    ∃ n, p.meet perform ((List.range n).map ticks) w = (some a, w') := by
  induction p generalizing w ticks with
  | ret a' =>
      obtain ⟨rfl, rfl⟩ := hp
      exact ⟨0, rfl⟩
  | op e k ih =>
      obtain ⟨n, hmeet⟩ :=
        ih _ (hp _ (hticks 0)) (fun i => ticks (i + 1)) fun i => hticks (i + 1)
      refine ⟨n + 1, ?_⟩
      rw [List.range_succ_eq_map, List.map_cons, List.map_map]
      exact hmeet

end Calm

end Prog

/-! ## Runs -/

/-- What serves requests `ι`. The reply goes out when a request is done. -/
structure Server (ι T E : Type) (R : E → Type) (α W : Type) where
  serve : ι → Prog E R α
  perform : T → (e : E) → W → R e × W
  reply : ι → α → W → W

namespace Server

variable {ι T E α W : Type} {R : E → Type} (S : Server ι T E R α W)

/-- One request, and the reply if it is done. -/
def request (w : W) (r : ι × List T) : W :=
  match (S.serve r.1).meet S.perform r.2 w with
  | (some a, w') => S.reply r.1 a w'
  | (none, w') => w'

/-- The world after the requests. -/
def play (w : W) (rs : List (ι × List T)) : W := rs.foldl S.request w

/-- All questions of the requests. -/
def events (w : W) : List (ι × List T) → List (Event E R W)
  | [] => []
  | r :: rs => (S.serve r.1).events S.perform r.2 w ++ events (S.request w r) rs

/-- The same, each with its request. -/
def trace (w : W) : List (ι × List T) → List (ι × Event E R W)
  | [] => []
  | r :: rs => ((S.serve r.1).events S.perform r.2 w).map (r.1, ·) ++ trace (S.request w r) rs

/-- The requests that are done, with their results and the world they are
done in. -/
def results (w : W) : List (ι × List T) → List (ι × α × W)
  | [] => []
  | r :: rs =>
      (match (S.serve r.1).meet S.perform r.2 w with
        | (some a, w') => [(r.1, a, w')]
        | (none, _) => []) ++ results (S.request w r) rs

/-- Every request is admitted after those before it. -/
def Admits (A : List ι → ι → Prop) : List ι → List (ι × List T) → Prop
  | _, [] => True
  | past, r :: rs => A past r.1 ∧ Admits A (r.1 :: past) rs

/-- The requests made, the last one first. -/
def made (past : List ι) (rs : List (ι × List T)) : List ι :=
  rs.foldl (fun past r => r.1 :: past) past

variable {S} {A : List ι → ι → Prop} {I : List ι → W → Prop} {G : Event E R W → Prop}
variable {Q : ι → α → W → Prop}

theorem play_append (w : W) (rs rs' : List (ι × List T)) :
    S.play w (rs ++ rs') = S.play (S.play w rs) rs' := List.foldl_append

theorem Admits.append {past : List ι} {rs rs' : List (ι × List T)} (h : Admits A past (rs ++ rs')) :
    Admits A past rs ∧ Admits A (made past rs) rs' := by
  induction rs generalizing past with
  | nil => exact ⟨trivial, h⟩
  | cons r rs ih =>
      obtain ⟨hrs, hrs'⟩ := ih h.2
      exact ⟨⟨h.1, hrs⟩, hrs'⟩

/-- **The rule of runs.** What every request keeps, from a world that has
it, holds after every run: of the world, of each question and of each
result. -/
theorem play_holds
    (hstep : ∀ past r w, A past r → I past w →
      (S.serve r).Holds S.perform (I (r :: past)) G (fun a w' => Q r a w' ∧
        I (r :: past) (S.reply r a w')) w)
    {past : List ι} {rs : List (ι × List T)} (hA : Admits A past rs) {w : W} (h : I past w) :
    I (made past rs) (S.play w rs) ∧ (∀ ev ∈ S.events w rs, G ev) ∧
      ∀ q ∈ S.results w rs, Q q.1 q.2.1 q.2.2 := by
  induction rs generalizing past w with
  | nil => exact ⟨h, nofun, nofun⟩
  | cons r rs ih =>
      obtain ⟨hev, hI, hQ⟩ := (hstep past r.1 w hA.1 h).meet r.2
      have hnext : I (r.1 :: past) (S.request w r) := by
        unfold request
        rcases hm : (S.serve r.1).meet S.perform r.2 w with ⟨a | a, w'⟩
        · rw [hm] at hI
          exact hI
        · rw [hm] at hQ
          exact (hQ a rfl).2
      obtain ⟨hlast, hevs, hres⟩ := ih hA.2 hnext
      refine ⟨hlast, fun ev he => ?_, fun q hq => ?_⟩
      · rcases List.mem_append.mp he with he | he
        · exact hev ev he
        · exact hevs ev he
      · rcases List.mem_append.mp hq with hq | hq
        · rcases hm : (S.serve r.1).meet S.perform r.2 w with ⟨a | a, w'⟩
          · rw [hm] at hq
            exact absurd hq List.not_mem_nil
          · rw [hm] at hq hQ
            rw [List.mem_singleton.mp hq]
            exact (hQ a rfl).1
        · exact hres q hq

/-- A request keeps what is kept on ticks of a kind, if its ticks are of that
kind. -/
theorem request_kept {C : T → Prop} {I : W → Prop} {G : Event E R W → Prop} {Q : α → W → Prop}
    {w : W} {r : ι × List T} (hreply : ∀ a w, I w → I (S.reply r.1 a w))
    (h : Prog.Holds (fun t : { t // C t } => S.perform t.1) I G (S.serve r.1) Q w)
    (hr : ∀ t ∈ r.2, C t) : I (S.request w r) := by
  have hI := (h.meet_of hr).2.1
  unfold request
  generalize (S.serve r.1).meet S.perform r.2 w = x at hI
  obtain ⟨a | a, w'⟩ := x
  · exact hI
  · exact hreply a w' hI

/-- **The rule of invariants.** What every request keeps on ticks of a kind
holds after every run on such ticks. -/
theorem play_kept {C : T → Prop} {I : W → Prop} (hreply : ∀ r a w, I w → I (S.reply r a w))
    (hserve : ∀ r w, I w → ∃ (G : Event E R W → Prop) (Q : α → W → Prop),
      Prog.Holds (fun t : { t // C t } => S.perform t.1) I G (S.serve r) Q w)
    {rs : List (ι × List T)} (hC : ∀ r ∈ rs, ∀ t ∈ r.2, C t) {w : W} (h : I w) :
    I (S.play w rs) := by
  induction rs generalizing w with
  | nil => exact h
  | cons r rs ih =>
      obtain ⟨hr, hrs⟩ := List.forall_mem_cons.mp hC
      obtain ⟨G, Q, hp⟩ := hserve r.1 w h
      exact ih hrs (request_kept (hreply r.1) hp hr)

/-- **The rule of records.** What every question keeps between the record
and the world holds at every question of a run, and at its end. -/
theorem trace_record {γ : Type} {I : W → Prop} {G : ι → Event E R W → Prop}
    {f : ι × Event E R W → List γ} {J : List γ → W → Prop}
    (hserve : ∀ r w, I w →
      (S.serve r).Holds S.perform I (G r) (fun a w' => I (S.reply r a w')) w)
    (hstep : ∀ r t e w C, I w → G r ⟨w, e, (S.perform t e w).1, (S.perform t e w).2⟩ → J C w →
      J (C ++ f (r, ⟨w, e, (S.perform t e w).1, (S.perform t e w).2⟩)) (S.perform t e w).2)
    (hreply : ∀ r a w C, J C w → J C (S.reply r a w))
    {rs : List (ι × List T)} {w : W} {C : List γ} (hI : I w) (hJ : J C w) :
    J (C ++ (S.trace w rs).flatMap f) (S.play w rs) ∧ ∀ x ∈ S.trace w rs, ∃ D,
      D ++ f x <+: C ++ (S.trace w rs).flatMap f ∧ J D x.2.before ∧ G x.1 x.2 := by
  induction rs generalizing w C with
  | nil => exact ⟨(List.append_nil C).symm ▸ hJ, nofun⟩
  | cons r rs ih =>
      have hp := hserve r.1 w hI
      obtain ⟨hJ', hev⟩ := hp.record (f := fun ev => f (r.1, ev)) (J := J) (hstep r.1) hJ r.2
      obtain ⟨-, hI', hQ⟩ := hp.meet r.2
      have hnext : I (S.request w r) ∧ J (C ++ ((S.serve r.1).events S.perform r.2 w).flatMap
          fun ev => f (r.1, ev)) (S.request w r) := by
        unfold request
        rcases hm : (S.serve r.1).meet S.perform r.2 w with ⟨a | a, w'⟩
        · rw [hm] at hI' hJ'
          exact ⟨hI', hJ'⟩
        · rw [hm] at hQ hJ'
          exact ⟨hQ a rfl, hreply _ _ _ _ hJ'⟩
      obtain ⟨hlast, hrest⟩ := ih hnext.1 hnext.2
      have hsplit : (S.trace w (r :: rs)).flatMap f =
          (((S.serve r.1).events S.perform r.2 w).flatMap fun ev => f (r.1, ev)) ++
            (S.trace (S.request w r) rs).flatMap f := by
        rw [trace, List.flatMap_append, List.flatMap_map]
      rw [List.append_assoc, ← hsplit] at hlast hrest
      refine ⟨hlast, fun x hx => ?_⟩
      rcases List.mem_append.mp hx with hx | hx
      · obtain ⟨ev, hmem, rfl⟩ := List.mem_map.mp hx
        obtain ⟨D, hD, hat⟩ := hev ev hmem
        refine ⟨D, hD.trans ?_, hat⟩
        rw [hsplit, ← List.append_assoc]
        exact List.prefix_append _ _
      · exact hrest x hx

/-! ### Requests that leave no trace -/

section Inert

variable (S) (quiet : E → Bool)

/-- The request leaves the world as it is and asks quiet questions only. -/
def Inert (w : W) (r : ι × List T) : Prop :=
  S.request w r = w ∧ ∀ ev ∈ (S.serve r.1).events S.perform r.2 w, quiet ev.op = true

/-- The requests that are marked are such where they are made. -/
def Marks (P : W → ι × List T → Prop) : W → List (Bool × ι × List T) → Prop
  | _, [] => True
  | w, x :: xs => (x.1 = true → P w x.2) ∧ Marks P (S.request w x.2) xs

/-- What each request is answered, if it is done. -/
def outcomes (w : W) : List (ι × List T) → List (Option α)
  | [] => []
  | r :: rs => ((S.serve r.1).meet S.perform r.2 w).1 :: outcomes (S.request w r) rs

variable {S quiet}

theorem Marks.mono {P P' : W → ι × List T → Prop} (h : ∀ w r, P w r → P' w r) {w : W}
    {xs : List (Bool × ι × List T)} (hxs : S.Marks P w xs) : S.Marks P' w xs := by
  induction xs generalizing w with
  | nil => trivial
  | cons x xs ih => exact ⟨fun hx => h w x.2 (hxs.1 hx), ih hxs.2⟩

/-- What is not marked, of a list as long. -/
def unmarked {β : Type} (xs : List (Bool × ι × List T)) (bs : List β) : List β :=
  ((xs.zip bs).filter fun p => !p.1.1).map Prod.snd

/-- **Inert requests can be left out.** The world after the others is the
same, they are answered the same, and the questions that are not quiet are
the same, asked in the same worlds. -/
theorem play_unmarked {w : W} {xs : List (Bool × ι × List T)} (hxs : S.Marks (S.Inert quiet) w xs) :
    S.play w (xs.map Prod.snd) = S.play w ((xs.filter fun x => !x.1).map Prod.snd) ∧
      unmarked xs (S.outcomes w (xs.map Prod.snd)) =
        S.outcomes w ((xs.filter fun x => !x.1).map Prod.snd) ∧
      ((S.events w (xs.map Prod.snd)).filter fun ev => !quiet ev.op) =
        (S.events w ((xs.filter fun x => !x.1).map Prod.snd)).filter fun ev => !quiet ev.op := by
  induction xs generalizing w with
  | nil => exact ⟨rfl, rfl, rfl⟩
  | cons x xs ih =>
      obtain ⟨hinert, hrest⟩ := hxs
      obtain ⟨marked, r⟩ := x
      obtain ⟨hplay, hout, hev⟩ := ih hrest
      cases marked with
      | false =>
          refine ⟨hplay, ?_, ?_⟩
          · exact congrArg _ hout
          · show List.filter _ (_ ++ _) = List.filter _ (_ ++ _)
            rw [List.filter_append, List.filter_append, hev]
      | true =>
          obtain ⟨hsame, hquiet⟩ := hinert rfl
          have hnone :
              (((S.serve r.1).events S.perform r.2 w).filter fun ev => !quiet ev.op) = [] := by
            rw [List.filter_eq_nil_iff]
            intro ev hmem
            rw [hquiet ev hmem]
            exact Bool.false_ne_true
          rw [hsame] at hplay hout hev
          refine ⟨?_, ?_, ?_⟩
          · show S.play (S.request w r) _ = _
            rw [hsame]
            exact hplay
          · show unmarked xs (S.outcomes (S.request w r) _) = _
            rw [hsame]
            exact hout
          · show List.filter _ (_ ++ S.events (S.request w r) _) = _
            rw [List.filter_append, hnone, hsame, List.nil_append]
            exact hev

end Inert

end Server

end AccessPages
