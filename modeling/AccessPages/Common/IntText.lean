import AccessPages.Common.Python
/-!
# Common — `int` of a text and `str` of an integer

`int(text)` accepts more than `str` writes: spaces around the number, a
sign, underscores between digits, the decimal digits of every script, and
zeros in front. Both directions refuse more than `maxStrDigits` digits.
Which digits other scripts have is a parameter.
-/

namespace AccessPages

namespace IntText

/-- What `int` drops at both ends. `str.isspace` has four more of the ASCII
control characters. -/
def isIntSpace (c : Char) : Bool :=
  (0x09 ≤ c.toNat && c.toNat ≤ 0x0d) || c = ' ' || (0x80 ≤ c.toNat && isSpace c)

/-- The limit of a conversion, in digits. -/
def maxStrDigits : Nat := 4300

/-- The number some digits are. -/
def value (ds : List Nat) : Nat := ds.foldl (fun n d => 10 * n + d) 0

section Parse

variable (unicodeDigit : Char → Option (Fin 10))

/-- The value of a decimal digit. -/
def digit (c : Char) : Option Nat :=
  if c.isDigit then some (c.toNat - '0'.toNat)
  else if c.toNat < 0x80 then none
  else (unicodeDigit c).map Fin.val

/-- Digits, with single underscores between them. -/
def digits : List Char → Option (List Nat)
  | [] => none
  | [c] => (digit unicodeDigit c).map ([·])
  | c :: '_' :: cs => do return (← digit unicodeDigit c) :: (← digits cs)
  | c :: c' :: cs => do return (← digit unicodeDigit c) :: (← digits (c' :: cs))

/-- A number without a sign. -/
def magnitude (cs : List Char) : Option Nat := do
  let ds ← digits unicodeDigit cs
  if ds.length ≤ maxStrDigits then return value ds else none

/-- `int(text)`; `none` is a `ValueError`. -/
def ofText (text : String) : Option Int :=
  match (text.toList.dropWhile isIntSpace).rdropWhile isIntSpace with
  | '-' :: cs => (magnitude unicodeDigit cs).map fun n : Nat => -(n : Int)
  | '+' :: cs => (magnitude unicodeDigit cs).map fun n : Nat => (n : Int)
  | cs => (magnitude unicodeDigit cs).map fun n : Nat => (n : Int)

end Parse

/-- `str(n)`; `none` is a `ValueError`. -/
def toText (n : Int) : Option String :=
  if (Nat.toDigits 10 n.natAbs).length ≤ maxStrDigits then some (toString n) else none

/-! ## One undoes the other -/

variable {unicodeDigit : Char → Option (Fin 10)}

theorem digit_of_isDigit {c : Char} (h : c.isDigit = true) :
    digit unicodeDigit c = some (c.toNat - '0'.toNat) := if_pos h

theorem digit_lt {c : Char} {d : Nat} (h : digit unicodeDigit c = some d) : d < 10 := by
  unfold digit at h
  split at h
  · rename_i hc
    obtain rfl := Option.some.inj h
    simp only [Char.isDigit, Bool.and_eq_true, decide_eq_true_eq] at hc
    have hle : c.toNat ≤ '9'.toNat := hc.2
    have hnine : '9'.toNat = 57 := rfl
    have hzero : '0'.toNat = 48 := rfl
    omega
  · split at h
    · cases h
    · obtain ⟨d', -, rfl⟩ := Option.map_eq_some_iff.mp h
      exact d'.isLt

theorem isDigit_ne_underscore {c : Char} (h : c.isDigit = true) : c ≠ '_' := by
  rintro rfl
  exact absurd h (by decide)

theorem digits_of_isDigit {cs : List Char} (hne : cs ≠ []) (h : ∀ c ∈ cs, c.isDigit = true) :
    digits unicodeDigit cs = some (cs.map fun c => c.toNat - '0'.toNat) := by
  induction cs with
  | nil => exact absurd rfl hne
  | cons c cs ih =>
      obtain ⟨hc, hcs⟩ := List.forall_mem_cons.mp h
      cases cs with
      | nil => simp only [digits, digit_of_isDigit hc, Option.map_some, List.map_cons, List.map_nil]
      | cons c' cs =>
          have hunder := isDigit_ne_underscore (hcs c' List.mem_cons_self)
          have hrest := ih (List.cons_ne_nil _ _) hcs
          rw [digits, digit_of_isDigit hc, hrest]
          · rfl
          · exact hunder

theorem digits_lt {cs : List Char} {ds : List Nat} (h : digits unicodeDigit cs = some ds) :
    ∀ d ∈ ds, d < 10 := by
  induction cs using digits.induct generalizing ds with
  | case1 => cases h
  | case2 c =>
      obtain ⟨d, hd, rfl⟩ := Option.map_eq_some_iff.mp h
      exact fun d' hd' => List.mem_singleton.mp hd' ▸ digit_lt hd
  | case3 c cs ih =>
      simp only [digits, Option.bind_eq_bind, Option.bind_eq_some_iff, Option.pure_def,
        Option.some.injEq] at h
      obtain ⟨d, hd, ds, hds, rfl⟩ := h
      exact List.forall_mem_cons.mpr ⟨digit_lt hd, ih hds⟩
  | case4 c c' cs hunder ih =>
      rw [digits] at h
      · simp only [Option.bind_eq_bind, Option.bind_eq_some_iff, Option.pure_def,
          Option.some.injEq] at h
        obtain ⟨d, hd, ds, hds, rfl⟩ := h
        exact List.forall_mem_cons.mpr ⟨digit_lt hd, ih hds⟩
      · exact hunder

theorem value_append (ds : List Nat) (d : Nat) : value (ds ++ [d]) = 10 * value ds + d := by
  simp only [value, List.foldl_append, List.foldl_cons, List.foldl_nil]

theorem value_lt {ds : List Nat} (h : ∀ d ∈ ds, d < 10) : value ds < 10 ^ ds.length := by
  induction ds using List.reverseRecOn with
  | nil => exact Nat.one_pos
  | append_singleton ds d ih =>
      have hds := ih fun d' hd' => h d' (List.mem_append_left _ hd')
      have hd := h d (List.mem_append_right _ List.mem_cons_self)
      rw [value_append, List.length_append, List.length_singleton, Nat.pow_succ]
      omega

theorem value_toDigits (n : Nat) :
    value ((Nat.toDigits 10 n).map fun c => c.toNat - '0'.toNat) = n := by
  rw [value, List.foldl_map, ← Nat.ofDigitChars_eq_foldl, Nat.ofDigitChars_ten_toDigits]

theorem magnitude_toDigits {n : Nat} (h : (Nat.toDigits 10 n).length ≤ maxStrDigits) :
    magnitude unicodeDigit (Nat.toDigits 10 n) = some n := by
  have hds : digits unicodeDigit (Nat.toDigits 10 n) =
      some ((Nat.toDigits 10 n).map fun c => c.toNat - '0'.toNat) :=
    digits_of_isDigit Nat.toDigits_ne_nil
      fun c hc => Nat.isDigit_of_mem_toDigits (by decide) (by decide) hc
  simp only [magnitude, hds, Option.bind_eq_bind, Option.bind_some, List.length_map, if_pos h,
    value_toDigits, Option.pure_def]

theorem magnitude_bound {cs : List Char} {n : Nat} (h : magnitude unicodeDigit cs = some n) :
    (Nat.toDigits 10 n).length ≤ maxStrDigits := by
  simp only [magnitude, Option.bind_eq_bind, Option.bind_eq_some_iff] at h
  obtain ⟨ds, hds, h⟩ := h
  split at h
  · rename_i hlen
    obtain rfl := Option.some.inj h
    have hlt := value_lt (digits_lt hds)
    refine (Nat.length_toDigits_le_iff (by decide) (by decide)).mpr (hlt.trans_le ?_)
    exact Nat.pow_le_pow_right (by decide) hlen
  · cases h

/-- A digit, or a minus sign. -/
theorem mem_toString {n : Int} {c : Char} (h : c ∈ (toString n).toList) :
    c.isDigit = true ∨ c = '-' := by
  have hdigits : ∀ {m : Nat}, c ∈ m.repr.toList → c.isDigit = true := by
    intro m hm
    rw [Nat.toList_repr] at hm
    exact Nat.isDigit_of_mem_toDigits (by decide) (by decide) hm
  cases n with
  | ofNat m => exact .inl (hdigits h)
  | negSucc m =>
      have h' : c ∈ ("-" ++ (m + 1).repr).toList := h
      rw [String.toList_append] at h'
      rcases List.mem_append.mp h' with hc | hc
      · exact .inr (List.mem_singleton.mp hc)
      · exact .inl (hdigits hc)

theorem not_isIntSpace {c : Char} (h : c.isDigit = true ∨ c = '-') : isIntSpace c = false := by
  rcases h with h | rfl
  · simp only [Char.isDigit, Bool.and_eq_true, decide_eq_true_eq] at h
    have hle : '0'.toNat ≤ c.toNat := h.1
    have hge : c.toNat ≤ '9'.toNat := h.2
    have hnine : '9'.toNat = 57 := rfl
    have hzero : '0'.toNat = 48 := rfl
    have hspace : c ≠ ' ' := by
      rintro rfl
      exact absurd hle (by decide)
    simp only [isIntSpace, Bool.or_eq_false_iff, Bool.and_eq_false_iff, decide_eq_false_iff_not]
    exact ⟨⟨by omega, hspace⟩, .inl (by omega)⟩
  · decide

theorem trim_eq_self {cs : List Char} (h : ∀ c ∈ cs, isIntSpace c = false) :
    (cs.dropWhile isIntSpace).rdropWhile isIntSpace = cs := by
  have hdrop : cs.dropWhile isIntSpace = cs := by
    cases cs with
    | nil => rfl
    | cons c cs => exact List.dropWhile_cons_of_neg (by simp [h c List.mem_cons_self])
  rw [hdrop, List.rdropWhile_eq_self_iff]
  intro hne
  simp [h _ (List.getLast_mem hne)]

/-- **What `str` writes, `int` reads.** -/
theorem ofText_of_toText {n : Int} {s : String} (h : toText n = some s) :
    ofText unicodeDigit s = some n := by
  unfold toText at h
  split at h
  · rename_i hlen
    obtain rfl := Option.some.inj h
    have htrim := trim_eq_self fun c hc => not_isIntSpace (mem_toString (n := n) hc)
    unfold ofText
    rw [htrim]
    cases n with
    | ofNat m =>
        have hlist : (toString (Int.ofNat m)).toList = Nat.toDigits 10 m := Nat.toList_repr
        have hmag : magnitude unicodeDigit (Nat.toDigits 10 m) = some m := magnitude_toDigits hlen
        rw [hlist]
        -- no digit is a sign
        split
        · rename_i cs hcs
          have hc := Nat.isDigit_of_mem_toDigits (n := m) (b := 10) (c := '-') (by decide) (by decide)
            (hcs ▸ List.mem_cons_self)
          exact absurd hc (by decide)
        · rename_i cs hcs
          have hc := Nat.isDigit_of_mem_toDigits (n := m) (b := 10) (c := '+') (by decide) (by decide)
            (hcs ▸ List.mem_cons_self)
          exact absurd hc (by decide)
        · rw [hmag]
          rfl
    | negSucc m =>
        have hlist : (toString (Int.negSucc m)).toList = '-' :: Nat.toDigits 10 (m + 1) := by
          show ("-" ++ (m + 1).repr).toList = _
          rw [String.toList_append, Nat.toList_repr]
          rfl
        have hmag : magnitude unicodeDigit (Nat.toDigits 10 (m + 1)) = some (m + 1) :=
          magnitude_toDigits hlen
        rw [hlist]
        show (magnitude unicodeDigit (Nat.toDigits 10 (m + 1))).map _ = _
        rw [hmag]
        rfl
  · cases h

/-- **What `int` reads, `str` writes.** -/
theorem toText_of_ofText {n : Int} {s : String} (h : ofText unicodeDigit s = some n) :
    toText n = some (toString n) := by
  have hbound : (Nat.toDigits 10 n.natAbs).length ≤ maxStrDigits := by
    unfold ofText at h
    split at h
    all_goals
      obtain ⟨m, hm, rfl⟩ := Option.map_eq_some_iff.mp h
      have hlen := magnitude_bound hm
    · rwa [Int.natAbs_neg, Int.natAbs_natCast]
    · exact hlen
    · exact hlen
  exact if_pos hbound

end IntText

end AccessPages
