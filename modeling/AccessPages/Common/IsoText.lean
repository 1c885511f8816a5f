import AccessPages.Common.Python
/-!
# Common — the text of a time

`datetime.isoformat` of a time in UTC, and how such texts compare. A text
has its parts in the order of their weight, each with a fixed number of
digits, so up to the second the order of the texts is the order of the
times. The fraction is left out when it is zero: then what follows the
seconds is compared with the `.` of another time's fraction.
-/

namespace AccessPages

/-! ## Digits -/

/-- The last `w` decimal digits of `n`. -/
def digits : Nat → Nat → List Char
  | 0, _ => []
  | w + 1, n => digits w (n / 10) ++ [Nat.digitChar (n % 10)]

@[simp] theorem length_digits (w n : Nat) : (digits w n).length = w := by
  induction w generalizing n with
  | zero => rfl
  | succ w ih => rw [digits, List.length_append, ih, List.length_singleton]

/-- What is smaller in a part of the same length is smaller. -/
theorem append_lt_append {a b s t : List Char} (hlen : a.length = b.length) (h : a < b) :
    a ++ s < b ++ t := by
  induction a generalizing b with
  | nil =>
      obtain rfl : b = [] := List.length_eq_zero_iff.mp hlen.symm
      exact absurd h (List.lt_irrefl [])
  | cons x a ih =>
      cases b with
      | nil => cases hlen
      | cons y b =>
          rcases List.cons_lt_cons_iff.mp h with hxy | ⟨rfl, hab⟩
          · exact List.cons_lt_cons_iff.mpr (.inl hxy)
          · exact List.cons_lt_cons_iff.mpr (.inr ⟨rfl, ih (Nat.succ.inj hlen) hab⟩)

theorem digitChar_lt {m n : Nat} (h : m < n) (hn : n < 10) :
    Nat.digitChar m < Nat.digitChar n := by
  have hall : ∀ n < 10, ∀ m < n, Nat.digitChar m < Nat.digitChar n := by decide
  exact hall n hn m h

theorem digits_lt {w m n : Nat} (h : m < n) (hn : n < 10 ^ w) : digits w m < digits w n := by
  induction w generalizing m n with
  | zero => omega
  | succ w ih =>
      have hdiv : n / 10 < 10 ^ w := by
        rw [Nat.div_lt_iff_lt_mul (by omega)]
        rwa [Nat.pow_succ] at hn
      rw [digits, digits]
      rcases Nat.lt_or_ge (m / 10) (n / 10) with hlt | hge
      · exact append_lt_append (by rw [length_digits, length_digits]) (ih hlt hdiv)
      · have heq : m / 10 = n / 10 := by omega
        rw [heq]
        exact List.append_left_lt (List.cons_lt_cons_iff.mpr
          (.inl (digitChar_lt (by omega) (Nat.mod_lt n (by omega)))))

/-- No digit is another kind of character. -/
theorem isDigit_of_mem_digits {w n : Nat} {c : Char} (h : c ∈ digits w n) : c.isDigit = true := by
  induction w generalizing n with
  | zero => cases h
  | succ w ih =>
      rcases List.mem_append.mp h with h | h
      · exact ih h
      · obtain rfl := List.mem_singleton.mp h
        have hall : ∀ d < 10, (Nat.digitChar d).isDigit = true := by decide
        exact hall _ (Nat.mod_lt n (by omega))

/-! ## Dates -/

def leap (y : Nat) : Bool := y % 4 = 0 ∧ (y % 100 ≠ 0 ∨ y % 400 = 0)

/-- The year and the day of it, from the counts of periods of 400, 100, 4 and
1 years before it: the last day of a leap year at the end of a period is
counted as one more year. -/
def yearOf (n400 n100 n4 n1 days : Nat) : Nat × Nat :=
  let year := n400 * 400 + 1 + n100 * 100 + n4 * 4 + n1
  if n1 = 4 ∨ n100 = 4 then (year - 1, 365) else (year, days)

/-- The year of the day so many days after the first of January of the year
1, and its days before that one. -/
def yearDay (n : Nat) : Nat × Nat :=
  yearOf (n / 146097) (n % 146097 / 36524) (n % 146097 % 36524 / 1461)
    (n % 146097 % 36524 % 1461 / 365) (n % 146097 % 36524 % 1461 % 365)

def daysBeforeMonth (leap : Bool) (month : Nat) : Nat :=
  [0, 31, 59, 90, 120, 151, 181, 212, 243, 273, 304, 334].getD (month - 1) 0 +
    if leap && 2 < month then 1 else 0

/-- The month and the day of a day of the year: a guess at the month is at
most one too high. -/
def monthDay (leap : Bool) (n : Nat) : Nat × Nat :=
  let month := (n + 50) / 32
  if n < daysBeforeMonth leap month then (month - 1, n - daysBeforeMonth leap (month - 1) + 1)
  else (month, n - daysBeforeMonth leap month + 1)

/-- `MM-DD`. -/
def monthText (leap : Bool) (n : Nat) : List Char :=
  digits 2 (monthDay leap n).1 ++ '-' :: digits 2 (monthDay leap n).2

/-- `YYYY-MM-DD`. -/
def dayText (n : Nat) : List Char :=
  digits 4 (yearDay n).1 ++ '-' :: monthText (leap (yearDay n).1) (yearDay n).2

/-- The next number has the next remainder, or begins the next multiple. -/
theorem succ_divMod (n : Nat) {k : Nat} (hk : 0 < k) :
    ((n + 1) / k = n / k ∧ (n + 1) % k = n % k + 1 ∧ n % k + 1 < k) ∨
      ((n + 1) / k = n / k + 1 ∧ (n + 1) % k = 0 ∧ n % k + 1 = k) := by
  have hdiv := Nat.div_add_mod n k
  rcases Nat.lt_or_ge (n % k + 1) k with hlt | hge
  · have h : n + 1 = n % k + 1 + k * (n / k) := by omega
    refine .inl ⟨?_, ?_, hlt⟩
    · rw [h, Nat.add_mul_div_left _ _ hk, Nat.div_eq_of_lt hlt, Nat.zero_add]
    · rw [h, Nat.add_mul_mod_self_left, Nat.mod_eq_of_lt hlt]
  · have hmod := Nat.mod_lt n hk
    have h : n + 1 = 0 + k * (n / k + 1) := by
      rw [Nat.mul_add]
      omega
    refine .inr ⟨?_, ?_, by omega⟩
    · rw [h, Nat.add_mul_div_left _ _ hk, Nat.zero_div, Nat.zero_add]
    · rw [h, Nat.add_mul_mod_self_left, Nat.zero_mod]

/-- The next day is in the same year, or the next one begins. -/
def Next (d e : Nat × Nat) : Prop :=
  (e.1 = d.1 ∧ e.2 = d.2 + 1 ∧ d.2 < 365) ∨ d.1 < e.1

/-- A day that ends no four years. -/
theorem next_yearOf {a b c q : Nat} (hb : b ≤ 3) (hq : q + 1 < 1461) :
    Next (yearOf a b c (q / 365) (q % 365)) (yearOf a b c ((q + 1) / 365) ((q + 1) % 365)) := by
  rcases succ_divMod q (show 0 < 365 by omega) with ⟨hd, he, hlt⟩ | ⟨hd, he, hmax⟩
  · rw [hd, he]
    have hfour : q / 365 ≤ 3 := by omega
    unfold Next yearOf
    rw [if_neg (by omega), if_neg (by omega)]
    exact .inl ⟨rfl, rfl, by omega⟩
  · rw [hd, he]
    have hfour : q / 365 ≤ 3 := by omega
    unfold Next yearOf
    rw [if_neg (by omega : ¬ (q / 365 = 4 ∨ b = 4))]
    split
    · exact .inl ⟨by dsimp only; omega, by dsimp only; omega, by dsimp only; omega⟩
    · exact .inr (by dsimp only; omega)

/-- **Day follows day.** The cases are the longest of the periods that ends
with the day. -/
theorem yearDay_succ (n : Nat) : Next (yearDay n) (yearDay (n + 1)) := by
  unfold yearDay
  rcases succ_divMod n (show 0 < 146097 by omega) with ⟨ha, hr, hlt⟩ | ⟨ha, hr, hmax⟩
  · rw [ha, hr]
    generalize n % 146097 = r at hlt
    rcases succ_divMod r (show 0 < 36524 by omega) with ⟨hb, hs, hslt⟩ | ⟨hb, hs, hmax⟩
    · rw [hb, hs]
      have hble : r / 36524 ≤ 3 := by omega
      generalize r % 36524 = s at hslt
      rcases succ_divMod s (show 0 < 1461 by omega) with ⟨hc, hq, hqlt⟩ | ⟨hc, hq, hmax⟩
      · rw [hc, hq]
        exact next_yearOf hble hqlt
      · rw [hc, hq, show s % 1461 = 1460 by omega]
        simp only [Nat.reduceMod, Nat.reduceDiv, Nat.zero_mod, Nat.zero_div]
        refine .inr ?_
        unfold yearOf
        rw [if_pos (.inl rfl), if_neg (by omega)]
        dsimp only
        omega
    · rw [hb, hs, show r % 36524 = 36523 by omega]
      have hble : r / 36524 ≤ 3 := by omega
      simp only [Nat.reduceMod, Nat.reduceDiv, Nat.zero_mod, Nat.zero_div]
      unfold Next yearOf
      rw [if_neg (by omega : ¬ (3 = 4 ∨ r / 36524 = 4))]
      split
      · exact .inl ⟨by dsimp only; omega, by dsimp only, by dsimp only; omega⟩
      · exact .inr (by dsimp only; omega)
  · rw [ha, hr, show n % 146097 = 146096 by omega]
    simp only [Nat.reduceMod, Nat.reduceDiv, Nat.zero_mod, Nat.zero_div]
    refine .inr ?_
    unfold yearOf
    rw [if_pos (.inr rfl), if_neg (by omega)]
    dsimp only
    omega
theorem monthText_succ (leap : Bool) {n : Nat} (h : n < 365) :
    monthText leap n < monthText leap (n + 1) := by
  have hall : ∀ leap, ∀ n < 365, monthText leap n < monthText leap (n + 1) := by decide +kernel
  exact hall leap n h

theorem yearDay_mono {m n : Nat} (h : m ≤ n) : (yearDay m).1 ≤ (yearDay n).1 := by
  refine monotone_nat_of_le_succ (f := fun n => (yearDay n).1) (fun n => ?_) h
  rcases yearDay_succ n with ⟨h, -⟩ | h
  · exact h.ge
  · exact h.le

theorem dayText_succ {n : Nat} (h : (yearDay (n + 1)).1 < 10 ^ 4) :
    dayText n < dayText (n + 1) := by
  unfold dayText
  rcases yearDay_succ n with ⟨hy, hd, hlt⟩ | hy
  · rw [hy, hd]
    exact List.append_left_lt (List.cons_lt_cons_iff.mpr (.inr ⟨rfl, monthText_succ _ hlt⟩))
  · exact append_lt_append (by rw [length_digits, length_digits]) (digits_lt hy h)

theorem dayText_lt {m n : Nat} (h : m < n) (hn : (yearDay n).1 < 10 ^ 4) :
    dayText m < dayText n := by
  induction n with
  | zero => omega
  | succ n ih =>
      have hstep := dayText_succ hn
      rcases Nat.lt_or_ge m n with hlt | hge
      · exact List.lt_trans (ih hlt ((yearDay_mono (Nat.le_succ n)).trans_lt hn)) hstep
      · obtain rfl : m = n := by omega
        exact hstep

@[simp] theorem length_dayText (n : Nat) : (dayText n).length = 10 := by
  simp [dayText, monthText]

/-! ## Times of a day -/

/-- `HH:MM:SS`. -/
def clockText (s : Nat) : List Char :=
  digits 2 (s / 3600) ++ ':' :: (digits 2 (s / 60 % 60) ++ ':' :: digits 2 (s % 60))

@[simp] theorem length_clockText (s : Nat) : (clockText s).length = 8 := by
  simp [clockText]

theorem clockText_lt {s t : Nat} (h : s < t) (ht : t < 86400) : clockText s < clockText t := by
  have hcut : ∀ {m n : Nat} {a b : List Char}, m < n → n < 10 ^ 2 →
      digits 2 m ++ a < digits 2 n ++ b := fun hmn hn =>
    append_lt_append (by rw [length_digits, length_digits]) (digits_lt hmn hn)
  have hcons : ∀ {c : Char} {a b : List Char}, a < b → c :: a < c :: b := fun hab =>
    List.cons_lt_cons_iff.mpr (.inr ⟨rfl, hab⟩)
  unfold clockText
  rcases Nat.lt_or_ge (s / 3600) (t / 3600) with hlt | hge
  · exact hcut hlt (by omega)
  have hhour : s / 3600 = t / 3600 := by omega
  rw [hhour]
  refine List.append_left_lt (hcons ?_)
  rcases Nat.lt_or_ge (s / 60 % 60) (t / 60 % 60) with hlt | hge
  · exact hcut hlt (by omega)
  have hminute : s / 60 % 60 = t / 60 % 60 := by omega
  rw [hminute]
  exact List.append_left_lt (hcons (digits_lt (by omega) (by omega)))

/-- `YYYY-MM-DDTHH:MM:SS` of the second so many seconds after the year 1
began. -/
def secondText (n : Nat) : List Char := dayText (n / 86400) ++ 'T' :: clockText (n % 86400)

@[simp] theorem length_secondText (n : Nat) : (secondText n).length = 19 := by
  simp [secondText]

/-- The seconds before the year 10000. -/
def endOfTime : Nat := 315537897600

theorem yearDay_lt {n : Nat} (h : n < endOfTime / 86400) : (yearDay n).1 < 10 ^ 4 := by
  have hlast : (yearDay 3652058).1 = 9999 := by decide
  have hmono : (yearDay n).1 ≤ (yearDay 3652058).1 :=
    yearDay_mono (by unfold endOfTime at h; omega)
  omega

/-- **Texts of seconds are in the order of the seconds.** -/
theorem secondText_lt {m n : Nat} (h : m < n) (hn : n < endOfTime) :
    secondText m < secondText n := by
  unfold secondText
  rcases Nat.lt_or_ge (m / 86400) (n / 86400) with hlt | hge
  · refine append_lt_append (by rw [length_dayText, length_dayText]) (dayText_lt hlt ?_)
    exact yearDay_lt (by unfold endOfTime at *; omega)
  · have hday : m / 86400 = n / 86400 := by omega
    rw [hday]
    exact List.append_left_lt (List.cons_lt_cons_iff.mpr
      (.inr ⟨rfl, clockText_lt (by omega) (Nat.mod_lt n (by omega))⟩))

/-! ## Fractions -/

/-- The microseconds since the year 1 began. -/
def sinceYearOne (t : Int) : Nat := (t + 62135596800 * second).toNat

/-- `.ffffff`, unless it is zero. -/
def fractionText (us : Nat) : List Char := if us = 0 then [] else '.' :: digits 6 us

/-- `t.isoformat()`, of a time in UTC. -/
def isoformat (t : Int) : String :=
  String.ofList (secondText (sinceYearOne t / 1000000) ++
    (fractionText (sinceYearOne t % 1000000) ++ "+00:00".toList))

/-- A time of the years 1 to 9999. -/
structure InCalendar (t : Int) : Prop where
  first : -62135596800 * second ≤ t
  last : t < 253402300800 * second

theorem InCalendar.second_lt {t : Int} (h : InCalendar t) :
    sinceYearOne t / 1000000 < endOfTime := by
  have hlast : t < 253402300800 * 1000000 := h.last
  unfold sinceYearOne endOfTime second
  omega

theorem sinceYearOne_lt {s t : Int} (hs : InCalendar s) (h : s < t) :
    sinceYearOne s < sinceYearOne t := by
  have hfirst : -62135596800 * 1000000 ≤ s := hs.first
  unfold sinceYearOne second
  omega

/-! ## Replacing -/

/-- `text.replace(old, new)`, for an `old` that is not empty; the number is
how many characters are part of the last match. -/
def replaceFrom (old new : List Char) : Nat → List Char → List Char
  | _, [] => []
  | 0, c :: cs =>
      if old.isPrefixOf (c :: cs) then new ++ replaceFrom old new (old.length - 1) cs
      else c :: replaceFrom old new 0 cs
  | k + 1, _ :: cs => replaceFrom old new k cs

def replace (s old new : String) : String :=
  String.ofList (replaceFrom old.toList new.toList 0 s.toList)

theorem replaceFrom_length {old new l : List Char} : replaceFrom old new l.length l = [] := by
  induction l with
  | nil => rfl
  | cons c l ih => exact ih

/-- What is replaced at the end, and cannot begin before. -/
theorem replaceFrom_append {c : Char} {old new l : List Char} (h : c ∉ l) :
    replaceFrom (c :: old) new 0 (l ++ c :: old) = l ++ new := by
  induction l with
  | nil =>
      have hself : (c :: old).isPrefixOf (c :: old) = true :=
        List.isPrefixOf_iff_prefix.mpr (List.prefix_refl _)
      show (if (c :: old).isPrefixOf (c :: old) then _ else _) = _
      rw [if_pos hself]
      show new ++ replaceFrom (c :: old) new old.length old = new
      rw [replaceFrom_length, List.append_nil]
  | cons d l ih =>
      have hne : d ≠ c := fun he => h (he ▸ List.mem_cons_self)
      have hno : ¬ (c :: old).isPrefixOf (d :: (l ++ c :: old)) = true := by
        intro hp
        exact hne (List.cons_prefix_cons.mp (List.isPrefixOf_iff_prefix.mp hp)).1.symm
      show (if (c :: old).isPrefixOf (d :: (l ++ c :: old)) then _ else _) = _
      rw [if_neg hno]
      exact congrArg (d :: ·) (ih fun hc => h (List.mem_cons_of_mem d hc))

/-! ## Texts that end in `Z` -/

/-- `value.isoformat().replace("+00:00", "Z")`. -/
@[irreducible] def zulu (t : Int) : String := replace (isoformat t) "+00:00" "Z"

theorem plus_notMem_secondText (n : Nat) : '+' ∉ secondText n := by
  have hdigits : ∀ {w n}, '+' ∉ digits w n := fun h => absurd (isDigit_of_mem_digits h) (by decide)
  simp [secondText, dayText, monthText, clockText, hdigits]

theorem plus_notMem_fractionText (us : Nat) : '+' ∉ fractionText us := by
  unfold fractionText
  split
  · exact List.not_mem_nil
  · simp only [List.mem_cons, not_or]
    exact ⟨by decide, fun h => absurd (isDigit_of_mem_digits h) (by decide)⟩

theorem zulu_toList (t : Int) : (zulu t).toList =
    secondText (sinceYearOne t / 1000000) ++ (fractionText (sinceYearOne t % 1000000) ++ ['Z']) := by
  have hplus : '+' ∉ secondText (sinceYearOne t / 1000000) ++
      fractionText (sinceYearOne t % 1000000) := by
    rw [List.mem_append, not_or]
    exact ⟨plus_notMem_secondText _, plus_notMem_fractionText _⟩
  unfold zulu replace isoformat
  simp only [String.toList_ofList]
  rw [show "+00:00".toList = ['+', '0', '0', ':', '0', '0'] from String.toList_ofList,
    show "Z".toList = ['Z'] from String.toList_ofList, ← List.append_assoc,
    replaceFrom_append hplus, List.append_assoc]

/-- Two times of one second, of which the first has no fraction and the
second has one: the texts are in the other order. -/
def Misread (s t : Int) : Prop :=
  sinceYearOne s / 1000000 = sinceYearOne t / 1000000 ∧ sinceYearOne s % 1000000 = 0 ∧
    sinceYearOne t % 1000000 ≠ 0

theorem zulu_lt {s t : Int} (hs : InCalendar s) (ht : InCalendar t) (h : s < t)
    (hread : ¬ Misread s t) : zulu s < zulu t := by
  have hlt := sinceYearOne_lt hs h
  rw [String.lt_iff, zulu_toList, zulu_toList]
  rcases Nat.lt_or_ge (sinceYearOne s / 1000000) (sinceYearOne t / 1000000) with hsec | hsec
  · exact append_lt_append (by rw [length_secondText, length_secondText])
      (secondText_lt hsec ht.second_lt)
  · have hsame : sinceYearOne s / 1000000 = sinceYearOne t / 1000000 := by omega
    have htfrac : sinceYearOne t % 1000000 ≠ 0 := by omega
    have hsfrac : sinceYearOne s % 1000000 ≠ 0 := fun hz => hread ⟨hsame, hz, htfrac⟩
    rw [hsame, fractionText, fractionText, if_neg hsfrac, if_neg htfrac]
    refine List.append_left_lt (List.cons_lt_cons_iff.mpr (.inr ⟨rfl, ?_⟩))
    exact append_lt_append (by rw [length_digits, length_digits]) (digits_lt (by omega) (by omega))

theorem zulu_lt_of_misread {s t : Int} (h : Misread t s) : zulu s < zulu t := by
  obtain ⟨hsame, ht, hs⟩ := h
  rw [String.lt_iff, zulu_toList, zulu_toList, hsame, ht, fractionText, fractionText, if_neg hs,
    if_pos rfl]
  exact List.append_left_lt (List.cons_lt_cons_iff.mpr (.inl (by decide)))

/-- **How texts of times compare**: as the times do, but for a whole second
and a fraction of that second. -/
theorem zulu_lt_iff {s t : Int} (hs : InCalendar s) (ht : InCalendar t) :
    zulu s < zulu t ↔ (s < t ∧ ¬ Misread s t) ∨ Misread t s := by
  constructor
  · intro h
    rcases lt_trichotomy s t with hst | rfl | hts
    · exact .inl ⟨hst, fun hm => absurd h (String.lt_asymm (zulu_lt_of_misread hm))⟩
    · exact absurd h (String.lt_irrefl _)
    · by_contra hno
      rw [not_or] at hno
      exact absurd h (String.lt_asymm (zulu_lt ht hs hts hno.2))
  · rintro (⟨hst, hread⟩ | hm)
    · exact zulu_lt hs ht hst hread
    · exact zulu_lt_of_misread hm

end AccessPages
