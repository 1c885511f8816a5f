import Mathlib
/-!
# Common — requests over HTTP

What the endpoint, the guest service and the broker share of the
protocol: header fields in the order they arrive, read without regard to
case, and paths split at a slash.
-/

namespace AccessPages

/-- Header fields, in order and with repetitions. -/
abbrev Headers := List (String × String)

/-- ASCII lower case, as field names are compared. -/
def lowerName (s : String) : String := String.ofList (s.toList.map Char.toLower)

namespace Headers

/-- `headers.get_all(name, [])`. -/
def getAll (h : Headers) (name : String) : List String :=
  (h.filter fun f => lowerName f.1 = lowerName name).map Prod.snd

/-- `headers.get(name)`: the first. -/
def get? (h : Headers) (name : String) : Option String := (h.getAll name).head?

/-- `Header.Set`: the one value of the name. -/
def set (h : Headers) (name value : String) : Headers :=
  (h.filter fun f => lowerName f.1 ≠ lowerName name) ++ [(name, value)]

@[simp] theorem getAll_set_self (h : Headers) (name value : String) :
    (h.set name value).getAll name = [value] := by
  simp [getAll, set, List.filter_append, List.filter_filter]

theorem getAll_set_of_ne (h : Headers) {name other : String} (value : String)
    (hne : lowerName other ≠ lowerName name) :
    (h.set other value).getAll name = h.getAll name := by
  have hkeep : ∀ f ∈ h.filter fun f => decide (lowerName f.1 = lowerName name),
      decide (lowerName f.1 ≠ lowerName other) = true := by
    intro f hf
    have := (List.mem_filter.mp hf).2
    simp only [decide_eq_true_eq] at this ⊢
    rw [this]
    exact Ne.symm hne
  unfold getAll set
  rw [List.filter_append, List.filter_cons_of_neg (by simpa using hne), List.filter_nil,
    List.append_nil, List.filter_comm, List.filter_eq_self.mpr hkeep]

end Headers

/-- `text.split(sep)`. -/
def splitAt (sep : Char) : List Char → List (List Char)
  | [] => [[]]
  | c :: cs =>
      match splitAt sep cs with
      | [] => [[c]]
      | part :: parts => if c = sep then [] :: part :: parts else (c :: part) :: parts

/-- `sep.join(parts)`. -/
def joinWith (sep : Char) : List (List Char) → List Char
  | [] => []
  | [part] => part
  | part :: parts => part ++ sep :: joinWith sep parts

/-! ## Parts of a path -/

section Split

variable {sep : Char}

theorem splitAt_ne_nil (s : List Char) : splitAt sep s ≠ [] := by
  cases s with
  | nil => exact List.cons_ne_nil _ _
  | cons c s =>
      rw [splitAt]
      split
      · exact List.cons_ne_nil _ _
      · split <;> exact List.cons_ne_nil _ _

theorem splitAt_cons (c : Char) (s : List Char) :
    splitAt sep (c :: s) =
      if c = sep then [] :: splitAt sep s else (splitAt sep s).modifyHead (c :: ·) := by
  rw [splitAt]
  cases hs : splitAt sep s with
  | nil => exact absurd hs (splitAt_ne_nil s)
  | cons part parts => rfl

/-- A text is split at each of its separators. -/
theorem splitAt_append (s t : List Char) :
    splitAt sep (s ++ sep :: t) = splitAt sep s ++ splitAt sep t := by
  induction s with
  | nil =>
      rw [List.nil_append, splitAt_cons, if_pos rfl]
      rfl
  | cons c s ih =>
      rw [List.cons_append, splitAt_cons, splitAt_cons, ih]
      split
      · rfl
      · cases hs : splitAt sep s with
        | nil => exact absurd hs (splitAt_ne_nil s)
        | cons part parts => rfl

theorem splitAt_of_notMem {s : List Char} (h : sep ∉ s) : splitAt sep s = [s] := by
  induction s with
  | nil => rfl
  | cons c s ih =>
      have hc : c ≠ sep := fun hc => h (hc ▸ List.mem_cons_self)
      rw [splitAt_cons, if_neg hc, ih fun hs => h (List.mem_cons_of_mem c hs)]
      rfl

theorem joinWith_splitAt (s : List Char) : joinWith sep (splitAt sep s) = s := by
  induction s with
  | nil => rfl
  | cons c s ih =>
      rw [splitAt_cons]
      cases hs : splitAt sep s with
      | nil => exact absurd hs (splitAt_ne_nil s)
      | cons part parts =>
          rw [hs] at ih
          split
          · rename_i hc
            rw [joinWith, ih, hc, List.nil_append]
            exact List.cons_ne_nil _ _
          · cases parts with
            | nil => exact congrArg (c :: ·) ih
            | cons _ _ => exact congrArg (c :: ·) ih

end Split

end AccessPages
