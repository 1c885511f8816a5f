import AccessPages.Common.Python
/-!
# Connectors — what a failure may say

A connector command that fails writes what it likes on its error output:
credentials, identifiers, answers of the cloud. `_invalid_connector_request`
reads a prefix of it, line by line, and words its own message. The message is
built from five sentences, a status, a support code and the names of an
allowlist, and nothing else of the output can change it.
-/

namespace AccessPages

namespace Connectors

/-! ## Lines -/

/-- Where `str.splitlines` ends a line. -/
def isLineEnd (c : Char) : Bool :=
  (0x0a ≤ c.toNat ∧ c.toNat ≤ 0x0d) ∨ (0x1c ≤ c.toNat ∧ c.toNat ≤ 0x1e) ∨ c.toNat = 0x85 ∨
    c.toNat = 0x2028 ∨ c.toNat = 0x2029

def splitlines : List Char → List (List Char)
  | [] => []
  | '\r' :: '\n' :: s => [] :: splitlines s
  | c :: s =>
      if isLineEnd c then [] :: splitlines s
      else match splitlines s with
        | [] => [[c]]
        | line :: lines => (c :: line) :: lines

example : splitlines "a\r\n\nb\u2028c\r".toList = [['a'], [], ['b'], ['c']] := by decide

/-! ## The vocabulary -/

/-- The reason shown when no headline is recognised. -/
def invalidRequest : String := "LayerV rejected the Connector request as invalid"

/-- The vendor's headlines, and the reason shown for each. -/
def headlines : List (String × String) :=
  [("The qURL platform refused this Connector's device enrollment request.",
      "LayerV rejected the Connector device enrollment request"),
    ("The qURL platform refused this Connector's enrollment request.",
      "LayerV rejected the Connector enrollment request"),
    ("The qURL platform and this CLI did not agree on the registered-device recovery response, so qURL stopped safely.",
      "LayerV rejected the registered-device recovery request"),
    ("This Connector's saved resource request is invalid, so it stopped instead of sending or changing it.",
      "The Connector resource request is invalid")]

def allowedFields : List String :=
  ["type", "slug", "target_url", "private", "allowed_device_keys", "access_requests",
    "find_or_create", "connector_id"]

/-! ## One line -/

/-- The line starts with the text. -/
def startsWith (line : List Char) (text : String) : Bool := text.toList.isPrefixOf line

/-- `Error: [^\r\n]{1,160} \(HTTP ([45][0-9]{2})\)`, matched to the end: the
status. -/
def httpStatus? (line : List Char) : Option Nat :=
  let n := line.length - 18
  if startsWith line "Error: " ∧
      matchesClass (fun c => c ≠ '\r' ∧ c ≠ '\n') 1 160 ((line.drop 7).take n) ∧
      startsWith (line.drop (7 + n)) " (HTTP " then
    match line.drop (14 + n) with
    | [a, b, c, ')'] =>
        if (a = '4' ∨ a = '5') ∧ b.isDigit ∧ c.isDigit then
          some (100 * (a.toNat - 48) + 10 * (b.toNat - 48) + (c.toNat - 48))
        else none
    | _ => none
  else none

/-- `  Error code: ([0-9]{5})`, matched to the end: the code. -/
def nativeCode? (line : List Char) : Option String :=
  let code := line.drop 14
  if startsWith line "  Error code: " ∧ matchesClass Char.isDigit 5 5 code then
    some (String.ofList code)
  else none

/-- The name before the first colon of an indented line. -/
def fieldName (line : List Char) : String := String.ofList ((line.drop 4).takeWhile (· ≠ ':'))

example : httpStatus? "Error: Private account title (HTTP 422)".toList = some 422 ∧
    httpStatus? "Error: credential (HTTP 422) injected-secret".toList = none ∧
    nativeCode? "  Error code: 52205".toList = some "52205" ∧
    nativeCode? "  Error code: 52205-private".toList = none := by decide

/-! ## The loop -/

/-- What the loop has read so far. -/
structure Scan where
  reason : String
  httpStatus : Option Nat
  nativeCode : Option String
  invalidFields : Finset String
  inFields : Bool

namespace Scan

variable (s : Scan) (line : List Char)

def start : Scan := ⟨invalidRequest, none, none, ∅, false⟩

/-- An error headline, and its status. -/
def headline : Scan :=
  if startsWith line "Error: " then
    { s with
      reason := (headlines.lookup (String.ofList (line.drop 7))).getD s.reason
      httpStatus := (httpStatus? line).or s.httpStatus }
  else s

/-- A support code. -/
def code : Scan := { s with nativeCode := (nativeCode? line).or s.nativeCode }

/-- The block of invalid fields: it starts at its title and ends at the first
line that is not indented. -/
def fields : Scan :=
  if line = "  Invalid fields:".toList then { s with inFields := true }
  else if s.inFields then
    if startsWith line "    " then
      if fieldName line ∈ allowedFields then
        { s with invalidFields := insert (fieldName line) s.invalidFields }
      else s
    else { s with inFields := false }
  else s

def step : Scan := ((s.headline line).code line).fields line

/-- The clauses after the reason. -/
def details : List String :=
  (match s.httpStatus with
    | some n => ["LayerV HTTP " ++ toString n]
    | none => []) ++
  (match s.nativeCode with
    | some code => ["LayerV code " ++ code]
    | none => []) ++
  (if s.invalidFields = ∅ then []
    else ["invalid fields: " ++ ", ".intercalate (s.invalidFields.sort (· ≤ ·))])

def text : String :=
  if s.details = [] then s.reason else s.reason ++ "; " ++ "; ".intercalate s.details

end Scan

/-- The lines that are read. -/
def linesOf (stderr : String) : List (List Char) := splitlines (stderr.toList.take 16384)

/-- `_invalid_connector_request`. -/
def invalidConnectorRequest (stderr : String) : String :=
  ((linesOf stderr).foldl Scan.step Scan.start).text

/-! ## What is recognised -/

/-- The vendor's headline on a line. -/
def headline? (line : List Char) : Option String :=
  let title := String.ofList (line.drop 7)
  if startsWith line "Error: " ∧ (headlines.lookup title).isSome then some title else none

/-- The last that is read of the lines. -/
def lastOf {α : Type} (read : List Char → Option α) (lines : List (List Char)) : Option α :=
  (lines.filterMap read).getLast?

/-- The lines end inside a block of invalid fields. -/
def InBlock (lines : List (List Char)) : Prop :=
  ∃ before block, lines = before ++ "  Invalid fields:".toList :: block ∧
    ∀ line ∈ block, startsWith line "    "

/-- A line of a block of invalid fields starts with the name, and the name is
allowed. -/
def NamesField (lines : List (List Char)) (name : String) : Prop :=
  ∃ before line after, lines = before ++ line :: after ∧ InBlock before ∧
    startsWith line "    " ∧ fieldName line = name ∧ name ∈ allowedFields

section Last

variable {α : Type} {read : List Char → Option α} {lines : List (List Char)} {line : List Char}

theorem lastOf_nil : lastOf read [] = none := rfl

theorem lastOf_concat : lastOf read (lines ++ [line]) = (read line).or (lastOf read lines) := by
  unfold lastOf
  rw [List.filterMap_append, List.getLast?_append]
  cases h : read line with
  | none => rw [List.filterMap_cons_none h, List.filterMap_nil, List.getLast?_nil]
  | some a => rw [List.filterMap_cons_some h, List.filterMap_nil, List.getLast?_singleton]

end Last

/-! ## Blocks -/

section Blocks

variable {lines : List (List Char)} {line : List Char} {name : String}

theorem not_inBlock_nil : ¬ InBlock [] := by
  rintro ⟨before, block, h, -⟩
  exact absurd h.symm (List.append_ne_nil_of_right_ne_nil before (List.cons_ne_nil _ block))

theorem inBlock_title : InBlock (lines ++ ["  Invalid fields:".toList]) :=
  ⟨lines, [], rfl, fun _ h => absurd h List.not_mem_nil⟩

theorem inBlock_concat (hline : line ≠ "  Invalid fields:".toList) :
    InBlock (lines ++ [line]) ↔ InBlock lines ∧ startsWith line "    " := by
  constructor
  · rintro ⟨before, block, h, hblock⟩
    rcases List.eq_nil_or_concat block with rfl | ⟨block, last, rfl⟩
    · exact absurd (List.append_inj' h rfl).2 (by simpa using hline)
    · rw [List.concat_eq_append] at h hblock
      have hsplit : lines ++ [line] = (before ++ "  Invalid fields:".toList :: block) ++ [last] := by
        rw [h, List.append_assoc, List.cons_append]
      obtain ⟨hlines, hlast⟩ := List.append_inj' hsplit rfl
      have heq : line = last := (List.cons.inj hlast).1
      refine ⟨⟨before, block, hlines, fun l hl => hblock l ?_⟩, ?_⟩
      · exact List.mem_append_left _ hl
      · rw [heq]
        exact hblock last (List.mem_append_right _ (List.mem_singleton_self last))
  · rintro ⟨⟨before, block, rfl, hblock⟩, hindent⟩
    refine ⟨before, block ++ [line], ?_, fun l hl => ?_⟩
    · rw [List.append_assoc, List.cons_append]
    · rcases List.mem_append.mp hl with hl | hl
      · exact hblock l hl
      · rw [List.mem_singleton.mp hl]
        exact hindent

theorem not_namesField_nil : ¬ NamesField [] name := by
  rintro ⟨before, line, after, h, -⟩
  exact absurd h.symm (List.append_ne_nil_of_right_ne_nil before (List.cons_ne_nil line after))

theorem namesField_concat :
    NamesField (lines ++ [line]) name ↔ NamesField lines name ∨
      (InBlock lines ∧ startsWith line "    " ∧ fieldName line = name ∧ name ∈ allowedFields) := by
  constructor
  · rintro ⟨before, found, after, h, hfound⟩
    rcases List.eq_nil_or_concat after with rfl | ⟨after, last, rfl⟩
    · obtain ⟨hlines, hlast⟩ := List.append_inj' h rfl
      rw [hlines, (List.cons.inj hlast).1]
      exact .inr hfound
    · rw [List.concat_eq_append] at h
      have hsplit : lines ++ [line] = (before ++ found :: after) ++ [last] := by
        rw [h, List.append_assoc, List.cons_append]
      exact .inl ⟨before, found, after, (List.append_inj' hsplit rfl).1, hfound⟩
  · rintro (⟨before, found, after, rfl, hfound⟩ | hfound)
    · refine ⟨before, found, after ++ [line], ?_, hfound⟩
      rw [List.append_assoc, List.cons_append]
    · exact ⟨lines, line, [], rfl, hfound⟩

end Blocks

/-! ## The loop reads the last of each -/

/-- The reason for a headline. -/
def reasonFor (headline : Option String) : String :=
  (headline.bind fun title => headlines.lookup title).getD invalidRequest

/-- **What the loop has read**, said of the lines alone. -/
structure Scan.Reads (s : Scan) (lines : List (List Char)) : Prop where
  reason : s.reason = reasonFor (lastOf headline? lines)
  httpStatus : s.httpStatus = lastOf httpStatus? lines
  nativeCode : s.nativeCode = lastOf nativeCode? lines
  invalidFields : ∀ name, name ∈ s.invalidFields ↔ NamesField lines name
  inFields : s.inFields = true ↔ InBlock lines

section Loop

variable {s : Scan} {lines : List (List Char)} {line : List Char}

theorem reads_start : Scan.start.Reads [] where
  reason := rfl
  httpStatus := rfl
  nativeCode := rfl
  invalidFields _ := iff_of_false (Finset.notMem_empty _) not_namesField_nil
  inFields := iff_of_false Bool.false_ne_true not_inBlock_nil

theorem httpStatus?_of_not_startsWith (h : ¬ startsWith line "Error: ") : httpStatus? line = none :=
  if_neg fun hline => h hline.1

theorem headline_reason (h : s.reason = reasonFor (lastOf headline? lines)) :
    (s.headline line).reason = reasonFor (lastOf headline? (lines ++ [line])) := by
  rw [lastOf_concat]
  unfold Scan.headline headline?
  dsimp only
  by_cases hline : startsWith line "Error: "
  · rw [if_pos hline]
    cases hlookup : headlines.lookup (String.ofList (line.drop 7)) with
    | none =>
        rw [if_neg (by simp only [Option.isSome_none]; exact fun h => absurd h.2 nofun)]
        exact h
    | some reason =>
        rw [if_pos ⟨hline, Option.isSome_some⟩, Option.some_or]
        unfold reasonFor
        rw [Option.bind_some, hlookup, Option.getD_some]
        rfl
  · rw [if_neg hline, if_neg fun hline' => hline hline'.1]
    exact h

theorem headline_httpStatus (h : s.httpStatus = lastOf httpStatus? lines) :
    (s.headline line).httpStatus = lastOf httpStatus? (lines ++ [line]) := by
  rw [lastOf_concat, ← h]
  unfold Scan.headline
  by_cases hline : startsWith line "Error: "
  · rw [if_pos hline]
  · rw [if_neg hline, httpStatus?_of_not_startsWith hline, Option.none_or]

theorem headline_rest (s : Scan) (line : List Char) : (s.headline line).nativeCode = s.nativeCode ∧
    (s.headline line).invalidFields = s.invalidFields ∧
    (s.headline line).inFields = s.inFields := by
  unfold Scan.headline
  split
  · exact ⟨rfl, rfl, rfl⟩
  · exact ⟨rfl, rfl, rfl⟩

theorem fields_rest (s : Scan) (line : List Char) : (s.fields line).reason = s.reason ∧
    (s.fields line).httpStatus = s.httpStatus ∧ (s.fields line).nativeCode = s.nativeCode := by
  unfold Scan.fields
  repeat' split
  all_goals exact ⟨rfl, rfl, rfl⟩

/-- The title of a block is not an entry of one. -/
theorem title_not_indented : startsWith "  Invalid fields:".toList "    " = false := by decide

theorem fields_invalidFields (hblock : s.inFields = true ↔ InBlock lines)
    (h : ∀ name, name ∈ s.invalidFields ↔ NamesField lines name) (name : String) :
    name ∈ (s.fields line).invalidFields ↔ NamesField (lines ++ [line]) name := by
  rw [namesField_concat, ← h, ← hblock]
  unfold Scan.fields
  by_cases htitle : line = "  Invalid fields:".toList
  · rw [if_pos htitle, htitle, title_not_indented]
    exact (or_iff_left fun hfound => absurd hfound.2.1 Bool.false_ne_true).symm
  rw [if_neg htitle]
  by_cases hin : s.inFields = true
  swap
  · rw [if_neg hin]
    exact (or_iff_left fun hfound => hin hfound.1).symm
  rw [if_pos hin]
  by_cases hindent : startsWith line "    "
  swap
  · rw [if_neg hindent]
    exact (or_iff_left fun hfound => hindent hfound.2.1).symm
  rw [if_pos hindent]
  by_cases hallowed : fieldName line ∈ allowedFields
  · rw [if_pos hallowed, Finset.mem_insert, or_comm]
    refine or_congr_right (Iff.intro ?_ fun ⟨_, _, hname, _⟩ => hname.symm)
    rintro rfl
    exact ⟨hin, hindent, rfl, hallowed⟩
  · rw [if_neg hallowed]
    refine (or_iff_left ?_).symm
    rintro ⟨-, -, rfl, hname⟩
    exact hallowed hname

theorem fields_inFields (hblock : s.inFields = true ↔ InBlock lines) :
    (s.fields line).inFields = true ↔ InBlock (lines ++ [line]) := by
  unfold Scan.fields
  by_cases htitle : line = "  Invalid fields:".toList
  · rw [if_pos htitle, htitle]
    exact iff_of_true rfl inBlock_title
  rw [if_neg htitle, inBlock_concat htitle, ← hblock]
  by_cases hin : s.inFields = true
  swap
  · rw [if_neg hin]
    exact iff_of_false hin fun h => hin h.1
  rw [if_pos hin]
  by_cases hindent : startsWith line "    "
  · rw [if_pos hindent]
    split <;> exact iff_of_true hin ⟨hin, hindent⟩
  · rw [if_neg hindent]
    exact iff_of_false Bool.false_ne_true fun h => hindent h.2

theorem Scan.Reads.step (h : s.Reads lines) : (s.step line).Reads (lines ++ [line]) := by
  obtain ⟨hcode, hfields, hin⟩ := headline_rest s line
  obtain ⟨hreason, hstatus, hnative⟩ := fields_rest ((s.headline line).code line) line
  have hblock : ((s.headline line).code line).inFields = true ↔ InBlock lines := by
    rw [← h.inFields, ← hin]
    rfl
  refine ⟨hreason.trans (headline_reason h.reason), hstatus.trans (headline_httpStatus h.httpStatus),
    hnative.trans ?_, fields_invalidFields hblock fun name => ?_, fields_inFields hblock⟩
  · show (nativeCode? line).or (s.headline line).nativeCode = _
    rw [lastOf_concat, hcode, h.nativeCode]
  · rw [← h.invalidFields, ← hfields]
    rfl

/-- **The loop reads the last of each**, and the names of every block. -/
theorem reads_foldl (lines : List (List Char)) :
    (lines.foldl Scan.step Scan.start).Reads lines := by
  induction lines using List.reverseRecOn with
  | nil => exact reads_start
  | append_singleton lines line ih =>
      rw [List.foldl_append]
      exact ih.step

end Loop

/-! ## The message -/

/-- The five sentences. -/
def reasons : List String :=
  [invalidRequest, "LayerV rejected the Connector device enrollment request",
    "LayerV rejected the Connector enrollment request",
    "LayerV rejected the registered-device recovery request",
    "The Connector resource request is invalid"]

/-- A sentence, then perhaps a status, a support code and names. -/
def worded (reason : String) (status : Option Nat) (code : Option String) (names : List String) :
    String :=
  reason ++ (status.elim "" fun n => "; LayerV HTTP " ++ toString n) ++
    (code.elim "" fun c => "; LayerV code " ++ c) ++
    (if names = [] then "" else "; invalid fields: " ++ ", ".intercalate names)

/-- **What may be said**: one of the five sentences, an error status, a code of
five digits and allowed names in order. -/
def Wordable (text : String) : Prop :=
  ∃ reason ∈ reasons, ∃ status : Option Nat, ∃ code : Option String, ∃ names : List String,
    (∀ n ∈ status, 400 ≤ n ∧ n ≤ 599) ∧
    (∀ c ∈ code, c.length = 5 ∧ ∀ d ∈ c.toList, d.isDigit) ∧
    names.Pairwise (· < ·) ∧ (∀ name ∈ names, name ∈ allowedFields) ∧
    text = worded reason status code names

section Message

variable {s : Scan} {lines : List (List Char)}

/-- A clause with the separator before it. -/
theorem separated {label clause : String} (text : String) (h : "; " ++ label = clause) :
    "; " ++ (label ++ text) = clause ++ text := by
  rw [← String.append_assoc, h]

theorem text_eq_worded (s : Scan) :
    s.text = worded s.reason s.httpStatus s.nativeCode (s.invalidFields.sort (· ≤ ·)) := by
  have hempty : s.invalidFields.sort (· ≤ ·) = [] ↔ s.invalidFields = ∅ := by
    rw [← List.toFinset_eq_empty_iff, Finset.sort_toFinset]
  have hstatus (text : String) : "; " ++ ("LayerV HTTP " ++ text) = "; LayerV HTTP " ++ text :=
    separated text (by decide)
  have hcode (text : String) : "; " ++ ("LayerV code " ++ text) = "; LayerV code " ++ text :=
    separated text (by decide)
  have hnames (text : String) : "; " ++ ("invalid fields: " ++ text) = "; invalid fields: " ++ text :=
    separated text (by decide)
  unfold Scan.text Scan.details worded
  by_cases hfields : s.invalidFields = ∅
  · rw [if_pos hfields, if_pos (hempty.mpr hfields)]
    cases s.httpStatus <;> cases s.nativeCode <;>
      simp [String.append_assoc, hstatus, hcode]
  · rw [if_neg hfields, if_neg (mt hempty.mp hfields)]
    cases s.httpStatus <;> cases s.nativeCode <;>
      simp [String.append_assoc, hstatus, hcode, hnames]

theorem reasonFor_mem (headline : Option String) : reasonFor headline ∈ reasons := by
  cases hfound : headline.bind fun title => headlines.lookup title with
  | none =>
      unfold reasonFor
      rw [hfound]
      exact List.mem_cons_self
  | some reason =>
      unfold reasonFor
      rw [hfound]
      obtain ⟨title, -, hlookup⟩ := Option.bind_eq_some_iff.mp hfound
      have hall : ∀ entry ∈ headlines, entry.2 ∈ reasons := by decide
      obtain ⟨before, after, hmem, -⟩ := List.lookup_eq_some_iff.mp hlookup
      refine hall (title, reason) ?_
      rw [hmem]
      exact List.mem_append_right _ List.mem_cons_self

theorem lastOf_mem {α : Type} {read : List Char → Option α} {a : α} (h : lastOf read lines = some a) :
    ∃ line, read line = some a := by
  obtain ⟨line, -, hread⟩ := List.mem_filterMap.mp (List.mem_of_getLast? h)
  exact ⟨line, hread⟩

theorem digit_le {c : Char} (h : c.isDigit) : 48 ≤ c.toNat ∧ c.toNat ≤ 57 :=
  Char.isDigit_iff_toNat.mp h

theorem httpStatus?_range {line : List Char} {n : Nat} (h : httpStatus? line = some n) :
    400 ≤ n ∧ n ≤ 599 := by
  unfold httpStatus? at h
  dsimp only at h
  split at h
  swap
  · cases h
  split at h
  swap
  · cases h
  rename_i a b c _
  split at h
  swap
  · cases h
  rename_i hdigits
  obtain ⟨ha, hb, hc⟩ := hdigits
  have hbdigit := digit_le hb
  have hcdigit := digit_le hc
  have hn := Option.some.inj h
  have hvalue : a.toNat = 52 ∨ a.toNat = 53 := ha.imp (fun h => by rw [h]; rfl) fun h => by rw [h]; rfl
  omega

theorem nativeCode?_digits {line : List Char} {code : String} (h : nativeCode? line = some code) :
    code.length = 5 ∧ ∀ d ∈ code.toList, d.isDigit := by
  unfold nativeCode? at h
  dsimp only at h
  split at h
  swap
  · cases h
  rename_i hcode
  obtain rfl := Option.some.inj h
  obtain ⟨-, hclass⟩ := hcode
  unfold matchesClass at hclass
  simp only [Bool.and_eq_true, decide_eq_true_eq, List.all_eq_true] at hclass
  refine ⟨?_, ?_⟩
  · rw [String.length_ofList]
    omega
  · rw [String.toList_ofList]
    exact fun d hd => hclass.2 d hd

/-- The reason, the names and what the lines show. -/
theorem Scan.Reads.wordable (h : s.Reads lines) : Wordable s.text := by
  refine ⟨s.reason, h.reason ▸ reasonFor_mem _, s.httpStatus, s.nativeCode,
    s.invalidFields.sort (· ≤ ·), fun n hn => ?_, fun code hcode => ?_, ?_, fun name hname => ?_,
    text_eq_worded s⟩
  · obtain ⟨line, hline⟩ := lastOf_mem (h.httpStatus.symm.trans hn)
    exact httpStatus?_range hline
  · obtain ⟨line, hline⟩ := lastOf_mem (h.nativeCode.symm.trans hcode)
    exact nativeCode?_digits hline
  · exact (Finset.sortedLT_sort s.invalidFields).pairwise
  · obtain ⟨-, -, -, -, -, -, -, hallowed⟩ := (h.invalidFields name).mp ((Finset.mem_sort _).mp hname)
    exact hallowed

end Message

/-! ## How long it is -/

section Length

theorem length_intercalate (sep : String) (parts : List String) :
    (sep.intercalate parts).length ≤ (parts.map fun p => sep.length + p.length).sum := by
  induction parts with
  | nil => exact Nat.le_refl _
  | cons part parts ih =>
      rw [List.map_cons, List.sum_cons]
      by_cases hparts : parts = []
      · rw [hparts, String.intercalate_singleton]
        omega
      · rw [String.intercalate_cons_of_ne_nil hparts, String.length_append, String.length_append]
        omega

theorem length_names {names : List String} (hnodup : names.Nodup)
    (hallowed : ∀ name ∈ names, name ∈ allowedFields) : (", ".intercalate names).length ≤ 101 := by
  obtain ⟨sub, hperm, hsub⟩ := hnodup.subperm hallowed
  have hsum : (sub.map fun p => ", ".length + p.length).sum ≤ 101 := by
    refine ((hsub.map _).sum_le_sum fun _ _ => Nat.zero_le _).trans ?_
    decide
  have hsame := (hperm.map fun p => ", ".length + p.length).sum_eq
  have hlen := length_intercalate ", " names
  omega

theorem length_status {n : Nat} (h : n ≤ 599) : (toString n).length ≤ 3 := by
  have hlt : n < 10 ^ 3 := by omega
  exact (Nat.length_repr_le_iff (by decide)).mpr hlt

/-- **Every message fits**, with room to spare. -/
theorem Wordable.length_lt {text : String} (h : Wordable text) : text.length < 512 := by
  obtain ⟨reason, hreason, status, code, names, hstatus, hcode, hsorted, hallowed, rfl⟩ := h
  have hreasons : ∀ reason ∈ reasons, reason.length ≤ 60 := by decide
  have hsentence := hreasons reason hreason
  have hnames := length_names (hsorted.imp fun hlt => ne_of_lt hlt) hallowed
  have hstatus' : (status.elim "" fun n => "; LayerV HTTP " ++ toString n).length ≤ 20 := by
    cases status with
    | none => exact Nat.zero_le _
    | some n =>
        have hn := length_status (hstatus n rfl).2
        have hlabel : "; LayerV HTTP ".length = 14 := by decide
        rw [Option.elim_some, String.length_append]
        omega
  have hcode' : (code.elim "" fun c => "; LayerV code " ++ c).length ≤ 20 := by
    cases code with
    | none => exact Nat.zero_le _
    | some c =>
        have hc := (hcode c rfl).1
        have hlabel : "; LayerV code ".length = 14 := by decide
        rw [Option.elim_some, String.length_append]
        omega
  have hnames' : (if names = [] then "" else "; invalid fields: " ++ ", ".intercalate names).length
      ≤ 120 := by
    split
    · exact Nat.zero_le _
    · have hlabel : "; invalid fields: ".length = 18 := by decide
      rw [String.length_append]
      omega
  unfold worded
  rw [String.length_append, String.length_append, String.length_append]
  omega

end Length

/-! ## What may show -/

/-- What the two outputs must share: the last headline that is recognised, the
last status, the last support code and the names of invalid fields. -/
structure SameFindings (stderr other : String) : Prop where
  headline : lastOf headline? (linesOf other) = lastOf headline? (linesOf stderr)
  httpStatus : lastOf httpStatus? (linesOf other) = lastOf httpStatus? (linesOf stderr)
  nativeCode : lastOf nativeCode? (linesOf other) = lastOf nativeCode? (linesOf stderr)
  fields : ∀ name, NamesField (linesOf other) name ↔ NamesField (linesOf stderr) name

theorem text_of_reads {s t : Scan} (hreason : t.reason = s.reason)
    (hstatus : t.httpStatus = s.httpStatus) (hcode : t.nativeCode = s.nativeCode)
    (hfields : t.invalidFields = s.invalidFields) : t.text = s.text := by
  rw [text_eq_worded, text_eq_worded, hreason, hstatus, hcode, hfields]

/-- **A connector's failure message leaks nothing.** It is worded from the
fixed vocabulary and short; and two outputs with the same findings give the
same message, whatever else they hold. -/
theorem failure_message_leaks_nothing (stderr : String) :
    Wordable (invalidConnectorRequest stderr) ∧ (invalidConnectorRequest stderr).length < 512 ∧
      ∀ other, SameFindings stderr other →
        invalidConnectorRequest other = invalidConnectorRequest stderr := by
  have hreads := reads_foldl (linesOf stderr)
  refine ⟨hreads.wordable, hreads.wordable.length_lt, fun other hsame => ?_⟩
  have hother := reads_foldl (linesOf other)
  refine text_of_reads ?_ ?_ ?_ ?_
  · rw [hother.reason, hreads.reason, hsame.headline]
  · rw [hother.httpStatus, hreads.httpStatus, hsame.httpStatus]
  · rw [hother.nativeCode, hreads.nativeCode, hsame.nativeCode]
  · refine Finset.ext fun name => ?_
    rw [hother.invalidFields, hreads.invalidFields, hsame.fields]

example : invalidConnectorRequest
      "Error: Private title (HTTP 422)\n\n  lv_live_k\n\n  Invalid fields:\n    slug: taken\n\n    type: x\n" =
    "LayerV rejected the Connector request as invalid; LayerV HTTP 422; invalid fields: slug" := by
  decide +kernel

end Connectors

end AccessPages
