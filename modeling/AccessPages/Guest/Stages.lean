import AccessPages.Guest.Request
/-!
# Guest — the stages of a request

`guest_diagnostics.py`: a request carries twelve numbers, the offsets of
seven moments in milliseconds (`-1` for one not reached yet), three
counters, what is known of the dispatch, and the failure. They cross from
the broker to the guest service and from there to the endpoint in a
header, which each receiver parses by its own rules. What is only emitted
to the log is left out: it reads the stages and writes none.
-/

namespace AccessPages

namespace Guest

/-! ## The numbers -/

/-- `LIMIT`, and `diagnosticLimit` of the endpoint. -/
def stageLimit : Int := 600000

abbrev Stages := Fin 12 → Int

/-- A request with its stages. -/
structure Timed where
  timing : RequestTiming
  stages : Stages

/-- `[-1] * 7 + [0, 0, 0, 1, 0]`. -/
def Timed.new (timing : RequestTiming) : Timed :=
  ⟨timing, fun i => if i < 7 then -1 else if i = 10 then 1 else 0⟩

def Timed.set (t : Timed) (i : Fin 12) (n : Int) : Timed :=
  { t with stages := Function.update t.stages i n }

/-- `offset`, when the clock shows `now`. -/
def offset (t : Timed) (now : Int) : Int :=
  min stageLimit (max 0 ((now - t.timing.startedNs) / 1000000))

/-- `boundary`. The service's second moment is the first RPC. -/
def boundary (i : Fin 7) (now : Int) (t : Timed) : Timed :=
  if t.timing.operation = .asset then t
  else
    let i : Fin 12 := i.castLE (by decide)
    if i ≠ 1 ∨ t.stages i < 0 then t.set i (offset t now) else t

/-- What `failure` is called with. -/
def failureCodes : List Int := [1, 2, 3, 4, 6, 7]

/-- `failure`. -/
def failure (code : Int) (t : Timed) : Timed := t.set 11 code

/-- `min(LIMIT, stages[i] + n)`. -/
def Timed.add (t : Timed) (i : Fin 12) (n : Int) : Timed := t.set i (min stageLimit (t.stages i + n))

/-- `ha_request`, before the request. -/
def haStarts (service : Bool) (now : Int) (t : Timed) : Timed :=
  let t := t.add 7 1
  let t := if service then t.set 10 2 else t
  if t.stages 3 < 0 then boundary 3 now t else t

/-- How the body of `ha_request` ends. -/
inductive HaEnd where
  | returned
  | raised
  /-- By what is no `Exception`. -/
  | stopped
  deriving DecidableEq, Repr

/-- `ha_request`, after it. The clock showed `started` before the request and
shows `ended` and then `now`. -/
def haEnds (service : Bool) (how : HaEnd) (started ended now : Int) (t : Timed) : Timed :=
  let t := match how with
    | .raised => failure 1 t
    | .returned => if service then t.set 10 3 else t
    | .stopped => t
  boundary 4 now (t.add 8 (max 0 ((ended - started) / 1000000)))

/-! ## The header -/

/-- `stage_header`. -/
def stageHeader (t : Timed) : String :=
  if t.timing.operation = .asset then ""
  else String.ofList (joinWith ',' ((List.ofFn t.stages).map fun n => (toString n).toList))

/-- `-1|[0-9]{1,6}`. -/
def stageValue (part : List Char) : Option Int :=
  if part = ['-', '1'] then some (-1)
  else if matchesClass Char.isDigit 1 6 part then some (natOfDigits part)
  else none

/-- Twelve numbers. -/
def stagesOf (values : List Int) : Option Stages :=
  if h : values.length = 12 then some fun i => values[i] else none

/-- The values of a header `receive_stages` goes on with. -/
def acceptedStages (value : String) : Option Stages :=
  if 96 < value.length then none
  else do
    let v ← stagesOf (← (splitAt ',' value.toList).mapM stageValue)
    if (∃ i, stageLimit < v i) ∨ (∃ i, 7 ≤ i ∧ v i < 0) ∨ 3 < v 10 ∨ 7 < v 11 then none
    else some v

/-- What `receive_stages` makes of its own values: the first start, the latest
completion, and totals of the counters. -/
def merged (s v : Stages) : Stages := fun i =>
  if 2 ≤ i ∧ i < 7 then
    if 0 ≤ v i then
      if (i ≠ 2 ∧ i ≠ 3) ∨ s i < 0 then v i else min (s i) (v i)
    else s i
  else if i = 7 ∨ i = 8 then min stageLimit (s i + v i)
  else if i = 10 then v i
  else if i = 11 then max (s i) (v i)
  else s i

/-- `receive_stages`; a response without the header has no value. -/
def receiveStages (value : Option String) (t : Timed) : Timed :=
  match value with
  | none => t
  | some value =>
      match acceptedStages value with
      | none => t
      | some v => { t with stages := merged t.stages v }

/-- `strconv.ParseInt(s, 10, 64)`. -/
def parseInt (s : List Char) : Option Int :=
  match s with
  | '-' :: ds => if digitsOnly ds ∧ natOfDigits ds ≤ 2 ^ 63 then some (-(natOfDigits ds : Int)) else none
  | '+' :: ds => if digitsOnly ds ∧ natOfDigits ds < 2 ^ 63 then some (natOfDigits ds) else none
  | ds => if digitsOnly ds ∧ natOfDigits ds < 2 ^ 63 then some (natOfDigits ds) else none
where
  digitsOnly (ds : List Char) : Bool := !ds.isEmpty && ds.all Char.isDigit

/-- `captureDiagnosticStages`, of the values of the header: what the trace is
set to. -/
def captureDiagnosticStages (values : List String) : Option Stages :=
  match values with
  | [value] =>
      if 96 < value.utf8ByteSize then none
      else do
        let v ← stagesOf (← (splitAt ',' value.toList).mapM parseInt)
        if (∃ i, v i < -1 ∨ stageLimit < v i ∨ (7 ≤ i ∧ v i < 0)) ∨ 3 < v 10 ∨ 7 < v 11 then none
        else some v
  | _ => none

/-! ## A request's stages -/

/-- What happens to the stages of a request. -/
inductive Step where
  | boundary (i : Fin 7) (now : Int)
  | failure (code : {code : Int // code ∈ failureCodes})
  | haStarts (service : Bool) (now : Int)
  | haEnds (service : Bool) (how : HaEnd) (started ended now : Int)
  /-- The guest service counts an RPC. -/
  | counted
  /-- It sends an action, whose dispatch is then unknown. -/
  | sent
  | receives (value : Option String)

def Timed.step (t : Timed) : Step → Timed
  | .boundary i now => boundary i now t
  | .failure code => failure code.1 t
  | .haStarts service now => haStarts service now t
  | .haEnds service how started ended now => haEnds service how started ended now t
  | .counted => t.add 9 1
  | .sent => t.set 10 0
  | .receives value => receiveStages value t

def Timed.after (t : Timed) (steps : List Step) : Timed := steps.foldl Timed.step t

/-- What both receivers check of the numbers. -/
structure Stages.InRange (v : Stages) : Prop where
  lower : ∀ i, -1 ≤ v i
  upper : ∀ i, v i ≤ stageLimit
  counters : ∀ i, 7 ≤ i → 0 ≤ v i
  dispatch : v 10 ≤ 3
  fault : v 11 ≤ 7

/-! ## They stay in range -/

variable {t : Timed} {v s : Stages}

theorem inRange_new (timing : RequestTiming) : (Timed.new timing).stages.InRange where
  lower i := by
    simp only [Timed.new]
    split <;> [skip; split] <;> omega
  upper i := by
    simp only [Timed.new, stageLimit]
    split <;> [skip; split] <;> omega
  counters i hi := by
    simp only [Timed.new]
    rw [if_neg (by omega)]
    split <;> omega
  dispatch := (by decide : (1 : Int) ≤ 3)
  fault := (by decide : (0 : Int) ≤ 7)

/-- A number that is set stays in range if it is. -/
theorem Stages.InRange.set (h : t.stages.InRange) {i : Fin 12} {n : Int} (hlower : 0 ≤ n)
    (hupper : n ≤ stageLimit) (hdispatch : i = 10 → n ≤ 3) (hfault : i = 11 → n ≤ 7) :
    (t.set i n).stages.InRange := by
  have hcases : ∀ j, (t.set i n).stages j = if j = i then n else t.stages j :=
    fun j => Function.update_apply _ _ _ _
  refine ⟨fun j => ?_, fun j => ?_, fun j hj => ?_, ?_, ?_⟩
  all_goals
    rw [hcases]
    split
  · omega
  · exact h.lower j
  · exact hupper
  · exact h.upper j
  · exact hlower
  · exact h.counters j hj
  · rename_i hi
    exact hdispatch hi.symm
  · exact h.dispatch
  · rename_i hi
    exact hfault hi.symm
  · exact h.fault

theorem offset_nonneg (t : Timed) (now : Int) : 0 ≤ offset t now := by
  have hlimit : (0 : Int) ≤ stageLimit := by decide
  exact le_min hlimit (le_max_left _ _)

theorem inRange_boundary (h : t.stages.InRange) (i : Fin 7) (now : Int) :
    (boundary i now t).stages.InRange := by
  unfold boundary
  split
  · exact h
  · dsimp only
    split
    · refine h.set (offset_nonneg t now) (min_le_left _ _) ?_ ?_
      all_goals
        intro hi
        have hval := congrArg Fin.val hi
        simp only [Fin.val_castLE] at hval
        omega
    · exact h

theorem inRange_add (h : t.stages.InRange) {i : Fin 12} {n : Int} (hi : 7 ≤ i ∧ i < 10)
    (hn : 0 ≤ n) : (t.add i n).stages.InRange := by
  have hcounter := h.counters i hi.1
  have hlimit : (0 : Int) ≤ stageLimit := by decide
  refine h.set (le_min hlimit (by omega)) (min_le_left _ _) ?_ ?_
  · rintro rfl
    exact absurd hi.2 (by decide)
  · rintro rfl
    exact absurd hi.2 (by decide)

theorem inRange_haStarts (h : t.stages.InRange) (service : Bool) (now : Int) :
    (haStarts service now t).stages.InRange := by
  have hcounted : (t.add 7 1).stages.InRange := inRange_add h (by decide) (by decide)
  have hservice : (if service = true then (t.add 7 1).set 10 2 else t.add 7 1).stages.InRange := by
    split
    · exact hcounted.set (by decide) (by decide) (fun _ => by decide) nofun
    · exact hcounted
  unfold haStarts
  dsimp only
  generalize (if service = true then (t.add 7 1).set 10 2 else t.add 7 1) = t' at hservice
  split
  · exact inRange_boundary hservice 3 now
  · exact hservice

theorem inRange_haEnds (h : t.stages.InRange) (service : Bool) (how : HaEnd)
    (started ended now : Int) : (haEnds service how started ended now t).stages.InRange := by
  unfold haEnds
  refine inRange_boundary (inRange_add ?_ (by decide) (le_max_left _ _)) 4 now
  cases how with
  | raised => exact h.set (by decide) (by decide) nofun fun _ => by decide
  | returned =>
      dsimp only
      split
      · exact h.set (by decide) (by decide) (fun _ => by decide) nofun
      · exact h
  | stopped => exact h

theorem mem_of_mapM {α β : Type} {f : α → Option β} {l : List α} {l' : List β}
    (h : l.mapM f = some l') : ∀ b ∈ l', ∃ a ∈ l, f a = some b := by
  induction l generalizing l' with
  | nil =>
      rw [List.mapM_nil] at h
      obtain rfl := Option.some.inj h
      exact nofun
  | cons a l ih =>
      simp only [List.mapM_cons, Option.bind_eq_bind, Option.bind_eq_some_iff, Option.pure_def,
        Option.some.injEq] at h
      obtain ⟨b, hb, bs, hbs, rfl⟩ := h
      intro c hc
      rcases List.mem_cons.mp hc with rfl | hc
      · exact ⟨a, List.mem_cons_self, hb⟩
      · obtain ⟨a', ha', hf⟩ := ih hbs c hc
        exact ⟨a', List.mem_cons_of_mem _ ha', hf⟩

theorem mapM_map_eq {α β : Type} {f : α → Option β} {g : β → α} {l : List β}
    (h : ∀ b ∈ l, f (g b) = some b) : (l.map g).mapM f = some l := by
  induction l with
  | nil => rfl
  | cons b l ih =>
      obtain ⟨hb, hl⟩ := List.forall_mem_cons.mp h
      rw [List.map_cons, List.mapM_cons, hb, ih hl]
      rfl

theorem mem_of_stagesOf {values : List Int} (h : stagesOf values = some v) : ∀ i, v i ∈ values := by
  unfold stagesOf at h
  split at h
  · obtain rfl := Option.some.inj h
    exact fun i => List.getElem_mem _
  · cases h

theorem stagesOf_ofFn (v : Stages) : stagesOf (List.ofFn v) = some v := by
  unfold stagesOf
  rw [dif_pos List.length_ofFn]
  refine congrArg some (funext fun i => ?_)
  exact List.getElem_ofFn _

theorem stageValue_lower {part : List Char} {n : Int} (h : stageValue part = some n) : -1 ≤ n := by
  unfold stageValue at h
  split at h
  · obtain rfl := Option.some.inj h
    omega
  · split at h
    · obtain rfl := Option.some.inj h
      omega
    · cases h

theorem acceptedStages_eq_some {value : String} :
    acceptedStages value = some v ↔ value.length ≤ 96 ∧
      ∃ values, (splitAt ',' value.toList).mapM stageValue = some values ∧
        stagesOf values = some v ∧ (∀ i, v i ≤ stageLimit) ∧ (∀ i, 7 ≤ i → 0 ≤ v i) ∧
        v 10 ≤ 3 ∧ v 11 ≤ 7 := by
  unfold acceptedStages
  split
  · rename_i hlong
    exact iff_of_false nofun fun h => absurd h.1 (by omega)
  · rename_i hlong
    simp only [Option.bind_eq_bind, Option.bind_eq_some_iff]
    constructor
    · rintro ⟨values, hvalues, v', hv, h⟩
      split at h
      · cases h
      · rename_i hok
        obtain rfl := Option.some.inj h
        simp only [not_or, not_exists, not_and, not_lt] at hok
        exact ⟨by omega, values, hvalues, hv, hok⟩
    · rintro ⟨-, values, hvalues, hv, hok⟩
      refine ⟨values, hvalues, v, hv, if_neg ?_⟩
      simpa only [not_or, not_exists, not_and, not_lt] using hok

/-- The values that are accepted are in range. -/
theorem inRange_accepted {value : String} (h : acceptedStages value = some v) : v.InRange := by
  obtain ⟨-, values, hvalues, hv, hupper, hcounters, hdispatch, hfault⟩ :=
    acceptedStages_eq_some.mp h
  refine ⟨fun i => ?_, hupper, hcounters, hdispatch, hfault⟩
  obtain ⟨part, -, hpart⟩ := mem_of_mapM hvalues (v i) (mem_of_stagesOf hv i)
  exact stageValue_lower hpart

theorem inRange_merged (hs : s.InRange) (hv : v.InRange) : (merged s v).InRange := by
  have hlimit : stageLimit = 600000 := rfl
  have hcounters : ∀ i, 7 ≤ i → 0 ≤ merged s v i := by
    intro i hi
    have h := hs.counters i hi
    have h' := hv.counters i hi
    unfold merged
    split_ifs <;> omega
  refine ⟨fun i => ?_, fun i => ?_, hcounters, hv.dispatch, max_le hs.fault hv.fault⟩
  · by_cases hi : 7 ≤ i
    · have h := hcounters i hi
      omega
    · have h := hs.lower i
      have h' := hv.lower i
      have hsum : ¬ (i = 7 ∨ i = 8) := by
        rintro (rfl | rfl) <;> exact hi (by decide)
      unfold merged
      rw [if_neg hsum]
      split_ifs <;> omega
  · have h := hs.upper i
    have h' := hv.upper i
    unfold merged
    split_ifs <;> omega

theorem inRange_step (h : t.stages.InRange) (step : Step) : (t.step step).stages.InRange := by
  cases step with
  | boundary i now => exact inRange_boundary h i now
  | failure code =>
      obtain ⟨code, hcode⟩ := code
      have hrange : ∀ c ∈ failureCodes, 0 ≤ c ∧ c ≤ stageLimit ∧ c ≤ 7 := by decide
      obtain ⟨hlower, hupper, hfault⟩ := hrange code hcode
      exact h.set hlower hupper nofun fun _ => hfault
  | haStarts service now => exact inRange_haStarts h service now
  | haEnds service how started ended now => exact inRange_haEnds h service how started ended now
  | counted => exact inRange_add h (by decide) (by decide)
  | sent => exact h.set (by decide) (by decide) (fun _ => by decide) nofun
  | receives value =>
      unfold Timed.step receiveStages
      dsimp only
      split
      · exact h
      · split
        · exact h
        · rename_i v hv
          exact inRange_merged h (inRange_accepted hv)

theorem inRange_after (h : t.stages.InRange) (steps : List Step) :
    (t.after steps).stages.InRange := by
  induction steps generalizing t with
  | nil => exact h
  | cons step steps ih => exact ih (inRange_step h step)

theorem timing_step (t : Timed) (step : Step) : (t.step step).timing = t.timing := by
  cases step with
  | boundary i now =>
      unfold Timed.step boundary
      dsimp only
      split_ifs <;> rfl
  | failure code => rfl
  | haStarts service now =>
      unfold Timed.step haStarts boundary
      dsimp only
      split_ifs <;> rfl
  | haEnds service how started ended now =>
      unfold Timed.step haEnds boundary
      dsimp only
      cases how <;> dsimp only <;> split_ifs <;> rfl
  | counted => rfl
  | sent => rfl
  | receives value =>
      unfold Timed.step receiveStages
      dsimp only
      split
      · rfl
      · split <;> rfl

theorem timing_after (t : Timed) (steps : List Step) : (t.after steps).timing = t.timing := by
  induction steps generalizing t with
  | nil => rfl
  | cons step steps ih => exact (ih (t.step step)).trans (timing_step t step)

/-! ## They are read as they were written -/

/-- What is joined is split again. -/
theorem splitAt_joinWith {sep : Char} {parts : List (List Char)} (hne : parts ≠ [])
    (h : ∀ p ∈ parts, sep ∉ p) : splitAt sep (joinWith sep parts) = parts := by
  induction parts with
  | nil => exact absurd rfl hne
  | cons part parts ih =>
      obtain ⟨hpart, hparts⟩ := List.forall_mem_cons.mp h
      cases parts with
      | nil => exact splitAt_of_notMem hpart
      | cons part' parts =>
          have hrest := ih (List.cons_ne_nil _ _) hparts
          rw [joinWith, splitAt_append, splitAt_of_notMem hpart, hrest]
          · rfl
          · exact List.cons_ne_nil _ _

theorem length_joinWith {sep : Char} {parts : List (List Char)} {k : Nat}
    (h : ∀ p ∈ parts, p.length ≤ k) : (joinWith sep parts).length ≤ (k + 1) * parts.length := by
  induction parts with
  | nil => exact Nat.zero_le _
  | cons part parts ih =>
      obtain ⟨hpart, hparts⟩ := List.forall_mem_cons.mp h
      have hrest := ih hparts
      cases parts with
      | nil =>
          rw [joinWith, List.length_singleton]
          omega
      | cons part' parts =>
          rw [joinWith, List.length_append, List.length_cons, List.length_cons, Nat.mul_succ]
          · omega
          · exact List.cons_ne_nil _ _

theorem mem_joinWith {sep c : Char} {parts : List (List Char)} (h : c ∈ joinWith sep parts) :
    c = sep ∨ ∃ p ∈ parts, c ∈ p := by
  induction parts with
  | nil => cases h
  | cons part parts ih =>
      cases parts with
      | nil => exact .inr ⟨part, List.mem_cons_self, h⟩
      | cons part' parts =>
          rw [joinWith] at h
          · rcases List.mem_append.mp h with h | h
            · exact .inr ⟨part, List.mem_cons_self, h⟩
            · rcases List.mem_cons.mp h with h | h
              · exact .inl h
              · refine (ih h).imp_right ?_
                rintro ⟨p, hp, hc⟩
                exact ⟨p, List.mem_cons_of_mem _ hp, hc⟩
          · exact List.cons_ne_nil _ _

/-- An ASCII text has a byte for each character. -/
theorem utf8ByteSize_ofList {cs : List Char} (h : ∀ c ∈ cs, c.toNat ≤ 127) :
    (String.ofList cs).utf8ByteSize = cs.length := by
  induction cs with
  | nil => rfl
  | cons c cs ih =>
      obtain ⟨hc, hcs⟩ := List.forall_mem_cons.mp h
      have hone : c.utf8Size = 1 := Char.utf8Size_eq_one_iff.mpr hc
      rw [← List.singleton_append, String.ofList_append, String.utf8ByteSize_append, ih hcs,
        ← String.singleton_eq_ofList, String.utf8ByteSize_singleton, hone, List.length_append,
        List.length_singleton]

/-- A stage is written as `-1`, or in at most six digits. -/
theorem stage_cases {n : Int} (hlower : -1 ≤ n) (hupper : n ≤ stageLimit) :
    n = -1 ∨ ∃ ds, (toString n).toList = ds ∧ ds ≠ [] ∧ ds.length ≤ 6 ∧
      (∀ c ∈ ds, c.isDigit = true) ∧ (natOfDigits ds : Int) = n := by
  by_cases hneg : n < 0
  · exact .inl (by omega)
  · obtain ⟨m, rfl⟩ := Int.eq_ofNat_of_zero_le (not_lt.mp hneg)
    have hlimit : stageLimit = 600000 := rfl
    refine .inr ⟨Nat.toDigits 10 m, Nat.toList_repr, Nat.toDigits_ne_nil, ?_, ?_, ?_⟩
    · exact (Nat.length_toDigits_le_iff (by decide) (by decide)).mpr (by omega)
    · exact fun c hc => Nat.isDigit_of_mem_toDigits (by decide) (by decide) hc
    · have hvalue : natOfDigits (Nat.toDigits 10 m) = m := by
        rw [natOfDigits, ← Nat.ofDigitChars_eq_foldl, Nat.ofDigitChars_ten_toDigits]
      rw [hvalue]

theorem stageValue_toString {n : Int} (hlower : -1 ≤ n) (hupper : n ≤ stageLimit) :
    stageValue (toString n).toList = some n := by
  rcases stage_cases hlower hupper with rfl | ⟨ds, hds, hne, hlen, hdigits, hvalue⟩
  · decide
  · have hminus : ds ≠ ['-', '1'] := by
      rintro rfl
      exact absurd (hdigits '-' List.mem_cons_self) (by decide)
    have hclass : matchesClass Char.isDigit 1 6 ds = true := by
      have hpos := List.length_pos_iff.mpr hne
      simp only [matchesClass, Bool.and_eq_true, decide_eq_true_eq, List.all_eq_true]
      exact ⟨⟨by omega, hlen⟩, hdigits⟩
    rw [hds, stageValue, if_neg hminus, if_pos hclass, hvalue]

theorem parseInt_toString {n : Int} (hlower : -1 ≤ n) (hupper : n ≤ stageLimit) :
    parseInt (toString n).toList = some n := by
  rcases stage_cases hlower hupper with rfl | ⟨ds, hds, hne, -, hdigits, hvalue⟩
  · decide
  · have hlimit : stageLimit = 600000 := rfl
    have hdigit : parseInt.digitsOnly ds = true ∧ natOfDigits ds < 2 ^ 63 := by
      refine ⟨?_, by omega⟩
      simp only [parseInt.digitsOnly, Bool.and_eq_true, Bool.not_eq_true', List.all_eq_true]
      exact ⟨List.isEmpty_eq_false_iff.mpr hne, hdigits⟩
    rw [hds]
    unfold parseInt
    -- no digit is a sign
    split
    · exact absurd (hdigits '-' List.mem_cons_self) (by decide)
    · exact absurd (hdigits '+' List.mem_cons_self) (by decide)
    · rw [if_pos hdigit, hvalue]

/-- What a stage is written with. -/
theorem mem_toString {n : Int} (hlower : -1 ≤ n) (hupper : n ≤ stageLimit) :
    (toString n).toList.length ≤ 6 ∧
      ∀ c ∈ (toString n).toList, c.toNat ≤ 127 ∧ c ≠ ',' := by
  rcases stage_cases hlower hupper with rfl | ⟨ds, hds, -, hlen, hdigits, -⟩
  · have hunset : ((toString (-1 : Int)).toList.all fun c => c.toNat ≤ 127 ∧ c ≠ ',') = true := by
      decide
    refine ⟨by decide, fun c hc => ?_⟩
    exact of_decide_eq_true (List.all_eq_true.mp hunset c hc)
  · rw [hds]
    refine ⟨hlen, fun c hc => ?_⟩
    have hdigit := hdigits c hc
    simp only [Char.isDigit, Bool.and_eq_true, decide_eq_true_eq] at hdigit
    have hge : c.toNat ≤ '9'.toNat := hdigit.2
    have hnine : '9'.toNat = 57 := rfl
    refine ⟨by omega, ?_⟩
    rintro rfl
    exact absurd hdigit.1 (by decide)

/-- The text of twelve numbers. -/
def stagesText (v : Stages) : List Char :=
  joinWith ',' ((List.ofFn v).map fun n => (toString n).toList)

theorem splitAt_stagesText (hv : v.InRange) :
    splitAt ',' (stagesText v) = (List.ofFn v).map fun n => (toString n).toList := by
  refine splitAt_joinWith ?_ fun p hp => ?_
  · rw [Ne, List.map_eq_nil_iff, ← List.length_eq_zero_iff, List.length_ofFn]
    decide
  · obtain ⟨n, hn, rfl⟩ := List.mem_map.mp hp
    obtain ⟨i, rfl⟩ := List.mem_ofFn.mp hn
    exact fun hc => ((mem_toString (hv.lower i) (hv.upper i)).2 ',' hc).2 rfl

theorem length_stagesText (hv : v.InRange) : (stagesText v).length ≤ 84 := by
  have hparts : ∀ p ∈ (List.ofFn v).map fun n => (toString n).toList, p.length ≤ 6 := by
    intro p hp
    obtain ⟨n, hn, rfl⟩ := List.mem_map.mp hp
    obtain ⟨i, rfl⟩ := List.mem_ofFn.mp hn
    exact (mem_toString (hv.lower i) (hv.upper i)).1
  have hlen : (stagesText v).length ≤ _ := length_joinWith hparts
  rw [List.length_map, List.length_ofFn] at hlen
  omega

theorem ascii_stagesText (hv : v.InRange) : ∀ c ∈ stagesText v, c.toNat ≤ 127 := by
  intro c hc
  rcases mem_joinWith hc with rfl | ⟨p, hp, hc⟩
  · decide
  · obtain ⟨n, hn, rfl⟩ := List.mem_map.mp hp
    obtain ⟨i, rfl⟩ := List.mem_ofFn.mp hn
    exact ((mem_toString (hv.lower i) (hv.upper i)).2 c hc).1

theorem mapM_stagesText {f : List Char → Option Int}
    (hf : ∀ n, -1 ≤ n → n ≤ stageLimit → f (toString n).toList = some n) (hv : v.InRange) :
    (splitAt ',' (stagesText v)).mapM f = some (List.ofFn v) := by
  rw [splitAt_stagesText hv]
  refine mapM_map_eq fun n hn => ?_
  obtain ⟨i, rfl⟩ := List.mem_ofFn.mp hn
  exact hf _ (hv.lower i) (hv.upper i)

/-- `receive_stages` reads the numbers that were written. -/
theorem acceptedStages_stagesText (hv : v.InRange) :
    acceptedStages (String.ofList (stagesText v)) = some v := by
  have hlen := length_stagesText hv
  refine acceptedStages_eq_some.mpr ⟨?_, List.ofFn v, ?_, stagesOf_ofFn v, hv.upper, hv.counters,
    hv.dispatch, hv.fault⟩
  · rw [String.length_ofList]
    omega
  · rw [String.toList_ofList]
    exact mapM_stagesText (fun n => stageValue_toString) hv

/-- And so does the endpoint. -/
theorem captureDiagnosticStages_stagesText (hv : v.InRange) :
    captureDiagnosticStages [String.ofList (stagesText v)] = some v := by
  have hlen := length_stagesText hv
  have hbytes := utf8ByteSize_ofList (ascii_stagesText hv)
  have hvalues := mapM_stagesText (f := parseInt) (fun n => parseInt_toString) hv
  have hok : ¬ ((∃ i, v i < -1 ∨ stageLimit < v i ∨ (7 ≤ i ∧ v i < 0)) ∨ 3 < v 10 ∨ 7 < v 11) := by
    rintro (⟨i, h | h | ⟨hi, h⟩⟩ | h | h)
    · exact absurd (hv.lower i) (by omega)
    · exact absurd (hv.upper i) (by omega)
    · exact absurd (hv.counters i hi) (by omega)
    · exact absurd hv.dispatch (by omega)
    · exact absurd hv.fault (by omega)
  unfold captureDiagnosticStages
  dsimp only
  rw [if_neg (by omega), String.toList_ofList, hvalues]
  rw [Option.bind_eq_bind, Option.bind_some, Option.bind_eq_bind, stagesOf_ofFn, Option.bind_some]
  exact if_neg hok

/-- The stages are in range, and the header carries them to both receivers. -/
def Timed.Survives (t : Timed) : Prop :=
  t.stages.InRange ∧ (stageHeader t).length ≤ 96 ∧ acceptedStages (stageHeader t) = some t.stages ∧
    captureDiagnosticStages [stageHeader t] = some t.stages

/-- **The stages survive every hop**, whatever happened to them before, unless
the request is for an asset, which sends no header. A header that is not
accepted changes nothing. -/
theorem stages_survive (timing : RequestTiming) (steps : List Step) :
    let t := (Timed.new timing).after steps
    t.stages.InRange ∧ (timing.operation ≠ .asset → t.Survives) ∧
      (timing.operation = .asset → stageHeader t = "") ∧
      ∀ value, acceptedStages value = none → receiveStages (some value) t = t := by
  intro t
  have hrange : t.stages.InRange := inRange_after (inRange_new timing) steps
  have htiming : t.timing = timing := timing_after _ steps
  refine ⟨hrange, fun hop => ?_, fun hop => ?_, fun value hvalue => ?_⟩
  · have hheader : stageHeader t = String.ofList (stagesText t.stages) := if_neg (htiming ▸ hop)
    have hlen := length_stagesText hrange
    refine ⟨hrange, ?_, ?_, ?_⟩
    · rw [hheader, String.length_ofList]
      omega
    · rw [hheader]
      exact acceptedStages_stagesText hrange
    · rw [hheader]
      exact captureDiagnosticStages_stagesText hrange
  · exact if_pos (htiming ▸ hop)
  · unfold receiveStages
    dsimp only
    rw [hvalue]

/-- The header of a request for an asset is empty, which is none either
receiver accepts. -/
theorem asset_header_not_accepted :
    ¬ ((Timed.new ⟨"00000000000000000000000000000000", 1, .asset, false⟩).after []).Survives := by
  rintro ⟨-, -, haccepted, -⟩
  have hrejected : acceptedStages "" = none := by decide
  exact absurd (hrejected.symm.trans haccepted) nofun

end Guest

end AccessPages
