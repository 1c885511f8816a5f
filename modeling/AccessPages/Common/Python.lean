import Mathlib
/-!
# Common — Python values

What the modelled programs share of their language: JSON values with the
conversions `str`, `int`, `float` and `bool`, string stripping and
slicing, and times. A `float` is Lean's `Float`, both being IEEE doubles.
The interpreter's tables (number syntax, the shortest representation of
a float, Unicode categories, ISO dates) are the class `Python`; nothing
is assumed of them.
-/

namespace AccessPages

/-! ## The order of strings -/

instance stringLe_trans : IsTrans String (· ≤ ·) := inferInstance

instance stringLe_antisymm : Std.Antisymm (α := String) (· ≤ ·) := inferInstance

instance stringLe_total : Std.Total (α := String) (· ≤ ·) := inferInstance

/-! ## Time -/

/-- Microseconds since the epoch, the resolution of a `datetime`. -/
abbrev Instant := Int

/-- Microseconds in a second. -/
abbrev second : Int := 1000000

/-- `int(value.timestamp())`: `int` drops the fraction. -/
def timestamp (t : Instant) : Int := t.tdiv second

theorem timestamp_mono {s t : Instant} (h : s ≤ t) : timestamp s ≤ timestamp t :=
  Int.tdiv_le_tdiv (by decide) h

@[simp] theorem timestamp_mul_second (n : Int) : timestamp (n * second) = n :=
  Int.mul_tdiv_cancel n (by decide)

theorem lt_mul_second_of_timestamp_lt {t n : Int} (h : timestamp t < n) :
    t < n * second := by
  have hdiv := Int.tmod_add_tdiv_mul t second
  have hlt := Int.tmod_lt_of_pos t (show (0 : Int) < second by decide)
  unfold timestamp at h
  simp only [second] at *
  omega

/-- `datetime.fromtimestamp(n, tz=timezone.utc)`; outside the years 1 to 9999
it raises a `ValueError`. -/
def fromTimestamp (n : Int) : Option Instant :=
  if -62135596800 ≤ n ∧ n ≤ 253402300799 then some (n * second) else none

/-- What `datetime.fromisoformat` makes of a text. -/
inductive IsoTime where
  | naive
  | aware (t : Instant)
  deriving DecidableEq, Repr

/-- The parts of the interpreter that are tables. -/
class Python where
  /-- `float(text)`; `none` is a `ValueError`. -/
  floatOfText : String → Option Float
  /-- `int(text)`; `none` is a `ValueError`. -/
  intOfText : String → Option Int
  /-- `repr` of a float. -/
  floatRepr : Float → String
  /-- `str.isprintable` of one character. -/
  printable : Char → Bool
  /-- `round(x, digits)`. -/
  roundDigits : Float → Nat → Float
  /-- `text.lower()`. -/
  lower : String → String
  /-- What `\d` matches. -/
  decimal : Char → Bool
  /-- `datetime.fromisoformat(text)`; `none` is a `ValueError`. -/
  fromIsoFormat : String → Option IsoTime

/-! ## Strings -/

/-- `str.isspace` of one character. -/
def isSpace (c : Char) : Bool :=
  let n := c.toNat
  (0x09 ≤ n && n ≤ 0x0d) || (0x1c ≤ n && n ≤ 0x20) || n == 0x85 || n == 0xa0 || n == 0x1680 ||
    (0x2000 ≤ n && n ≤ 0x200a) || n == 0x2028 || n == 0x2029 || n == 0x202f || n == 0x205f ||
    n == 0x3000

/-- `text.strip()`. -/
def strip (s : String) : String :=
  String.ofList ((s.toList.dropWhile isSpace).rdropWhile isSpace)

/-- `text[:n]`. -/
def slice (s : String) (n : Nat) : String := String.ofList (s.toList.take n)

/-- `re.fullmatch` of a class of characters repeated between `lo` and `hi`
times. -/
def matchesClass (p : Char → Bool) (lo hi : Nat) (s : List Char) : Bool :=
  lo ≤ s.length && s.length ≤ hi && s.all p

theorem strip_toList (s : String) :
    (strip s).toList = (s.toList.dropWhile isSpace).rdropWhile isSpace := String.toList_ofList

/-- A text without spaces is as it is. -/
theorem strip_eq_self {s : String} (h : ∀ c ∈ s.toList, isSpace c = false) : strip s = s := by
  have hdrop : s.toList.dropWhile isSpace = s.toList := by
    cases hs : s.toList with
    | nil => rfl
    | cons c cs =>
        refine List.dropWhile_cons_of_neg ?_
        simp [h c (by simp [hs])]
  have hrdrop : s.toList.rdropWhile isSpace = s.toList := by
    rw [List.rdropWhile_eq_self_iff]
    intro hne
    simp [h _ (List.getLast_mem hne)]
  rw [strip, hdrop, hrdrop, String.ofList_toList]

/-- Stripping twice is stripping once. -/
@[simp] theorem strip_strip (s : String) : strip (strip s) = strip s := by
  have hdrop : ((s.toList.dropWhile isSpace).rdropWhile isSpace).dropWhile isSpace =
      (s.toList.dropWhile isSpace).rdropWhile isSpace := by
    obtain ⟨t, ht⟩ := List.rdropWhile_prefix isSpace (l := s.toList.dropWhile isSpace)
    cases hl : (s.toList.dropWhile isSpace).rdropWhile isSpace with
    | nil => rfl
    | cons c cs =>
        -- the first character left is the first one `dropWhile` kept
        refine List.dropWhile_cons_of_neg ?_
        rw [hl] at ht
        have := List.head_dropWhile_not isSpace (l := s.toList) (by rw [← ht]; simp)
        simpa [← ht] using this
  unfold strip
  rw [String.toList_ofList, hdrop, List.rdropWhile_idempotent]

/-! ## JSON values -/

/-- A value of `json.loads`. An object keeps its fields in order; a field
is read by its first occurrence. -/
inductive Json where
  | null
  | bool (b : Bool)
  | int (n : Int)
  | float (x : Float)
  | str (s : String)
  | arr (items : List Json)
  | obj (fields : List (String × Json))

/-- The exceptions of the language itself. -/
inductive PyError where
  | valueError
  | typeError
  | overflowError
  | attributeError
  | keyError
  deriving DecidableEq, Repr

namespace Json

/-- `fields.get(key)`. -/
def get? (fields : List (String × Json)) (key : String) : Option Json := fields.lookup key

/-- `fields.get(key, default)`. -/
def getD (fields : List (String × Json)) (key : String) (default : Json) : Json :=
  (get? fields key).getD default

/-- `value.get(key)`, which only a dict has. -/
def get (v : Json) (key : String) : Except PyError Json :=
  match v with
  | obj fields => .ok (getD fields key null)
  | _ => .error .attributeError

/-- `value in texts`, of a set: a list or a dict does not hash. -/
def inTexts (v : Json) (texts : List String) : Except PyError Bool :=
  match v with
  | str s => .ok (s ∈ texts)
  | arr _ => .error .typeError
  | obj _ => .error .typeError
  | _ => .ok false

/-- `isinstance(value, list)` with strings only, and some. -/
def texts? : Json → Option (List String)
  | arr items =>
      let texts := items.filterMap fun | str s => some s | _ => none
      if items.isEmpty then none else if texts.length = items.length then some texts else none
  | _ => none

/-- `bool(value)`. -/
def truthy : Json → Bool
  | null => false
  | bool b => b
  | int n => n ≠ 0
  | float x => x != 0
  | str s => s ≠ ""
  | arr items => !items.isEmpty
  | obj fields => !fields.isEmpty

section Text

variable [Python]

/-- A number in lower-case hexadecimal, `width` digits at least. -/
def hex (width n : Nat) : String :=
  let digits := (Nat.toDigits 16 n)
  String.ofList (List.replicate (width - digits.length) '0' ++ digits)

/-- One character inside `repr` of a string. -/
def reprChar (quote c : Char) : String :=
  if c = quote ∨ c = '\\' then String.ofList ['\\', c]
  else if c = '\n' then "\\n"
  else if c = '\r' then "\\r"
  else if c = '\t' then "\\t"
  else if Python.printable c then String.ofList [c]
  else if c.toNat < 0x100 then "\\x" ++ hex 2 c.toNat
  else if c.toNat < 0x10000 then "\\u" ++ hex 4 c.toNat
  else "\\U" ++ hex 8 c.toNat

/-- `repr` of a string. -/
def reprStr (s : String) : String :=
  let quote := if s.toList.contains '\'' && !s.toList.contains '"' then '"' else '\''
  String.ofList [quote] ++ String.join (s.toList.map (reprChar quote)) ++ String.ofList [quote]

mutual

/-- `repr(value)`. -/
def repr : Json → String
  | null => "None"
  | bool true => "True"
  | bool false => "False"
  | int n => toString n
  | float x => Python.floatRepr x
  | str s => reprStr s
  | arr items => "[" ++ ", ".intercalate (reprItems items) ++ "]"
  | obj fields => "\x7b" ++ ", ".intercalate (reprFields fields) ++ "\x7d"

def reprItems : List Json → List String
  | [] => []
  | v :: vs => repr v :: reprItems vs

def reprFields : List (String × Json) → List String
  | [] => []
  | (k, v) :: vs => (reprStr k ++ ": " ++ repr v) :: reprFields vs

end

/-- `str(value)`. -/
def toStr : Json → String
  | str s => s
  | v => repr v

@[simp] theorem toStr_str (s : String) : toStr (str s) = s := rfl

/-- `str(fields.get(key, default)).strip()`. -/
def text (fields : List (String × Json)) (key : String) (default : String) : String :=
  strip (toStr (getD fields key (str default)))

/-- `int(x)` of a finite float, truncating. -/
def truncate (x : Float) : Int :=
  let (m, e) := x.frExp
  let n := (m * 9007199254740992.0).toInt64.toInt
  if 53 ≤ e then n * 2 ^ (e - 53).toNat else n.tdiv (2 ^ (53 - e).toNat)

/-- `int(value)`. -/
def toInt : Json → Except PyError Int
  | bool b => .ok (if b then 1 else 0)
  | int n => .ok n
  | float x =>
      if x.isNaN then .error .valueError
      else if x.isInf then .error .overflowError
      else .ok (truncate x)
  | str s => (Python.intOfText s).elim (.error .valueError) .ok
  | _ => .error .typeError

/-- `float(value)`. An integer beyond the range of a double overflows. -/
def toFloat : Json → Except PyError Float
  | bool b => .ok (if b then 1 else 0)
  | int n => if (Float.ofInt n).isFinite then .ok (Float.ofInt n) else .error .overflowError
  | float x => .ok x
  | str s => (Python.floatOfText s).elim (.error .valueError) .ok
  | _ => .error .typeError

/-- `round(x)`, half to even. -/
def roundInt (x : Float) : Except PyError Int :=
  if x.isNaN then .error .valueError
  else if x.isInf then .error .overflowError
  else
    let n := truncate x.floor
    let rest := x - x.floor
    .ok (if rest < 0.5 ∨ (rest = 0.5 ∧ n % 2 = 0) then n else n + 1)

/-- `math.isclose(a, b, abs_tol=tol)`. -/
def isClose (a b tol : Float) : Bool :=
  a == b || (!a.isInf && !b.isInf &&
    let diff := (b - a).abs
    diff ≤ (1e-9 * b).abs || diff ≤ (1e-9 * a).abs || diff ≤ tol)

end Text

end Json

/-- `time.time()`. -/
def floatTime (t : Instant) : Float := Float.ofInt t / 1000000.0

/-! ## A plain interpreter -/

/-- The number a run of decimal digits stands for. -/
def digits? (cs : List Char) : Option Nat :=
  if cs ≠ [] ∧ cs.all Char.isDigit then
    some (cs.foldl (fun n c => 10 * n + (c.toNat - '0'.toNat)) 0)
  else none

/-- Days from the epoch to a date of the Gregorian calendar. -/
def daysFromCivil (y m d : Nat) : Int :=
  let y' := if m ≤ 2 then y - 1 else y
  let m' := if m ≤ 2 then m + 9 else m - 3
  365 * y' + y' / 4 - y' / 100 + y' / 400 + (153 * m' + 2) / 5 + d - 1 - 719468

/-- `YYYY-MM-DDTHH:MM:SS`, with `+00:00` or without an offset. -/
def isoUtc (s : String) : Option IsoTime := do
  let cs := s.toList
  let part (start len : Nat) : Option Nat := digits? ((cs.drop start).take len)
  let y ← part 0 4
  let m ← part 5 2
  let d ← part 8 2
  let hour ← part 11 2
  let minute ← part 14 2
  let sec ← part 17 2
  let t := ((daysFromCivil y m d * 24 + hour) * 60 + minute) * 60 + sec
  if cs.drop 19 = "+00:00".toList then some (.aware (t * second))
  else if cs.drop 19 = [] then some .naive
  else none

/-- The tables as far as plain texts need them: ASCII, decimal integers,
dates of one form. -/
@[reducible] def Python.plain : Python where
  floatOfText _ := none
  intOfText s := (digits? (strip s).toList).map Int.ofNat
  floatRepr _ := ""
  roundDigits x _ := x
  printable c := 32 ≤ c.toNat && c.toNat < 127
  lower s := String.ofList (s.toList.map Char.toLower)
  decimal := Char.isDigit
  fromIsoFormat := isoUtc

example : isoUtc "2030-01-01T00:00:00+00:00" = some (.aware (1893456000 * second)) := by decide

end AccessPages
