import FortranMarkup.Proofs.Source.Spelling

/-!
# Tokens of a line

Lines that are made of blanks, words, numbers and the marks of a simple statement, and the characters
of which they consist.
-/

namespace FortranMarkup

/-- A piece of a line. -/
inductive Token where
  | blank
  | mark (c : Char)
  | word (letters : List Char)
  | digits (letters : List Char)
deriving Repr, DecidableEq

/-- A letter, a digit or an underscore. -/
def isNameChar (c : Char) : Bool :=
  c.isAlphanum || c = '_'

theorem toNat_of_isAlpha {c : Char} (letter : c.isAlpha = true) :
    (65 ≤ c.toNat ∧ c.toNat ≤ 90) ∨ (97 ≤ c.toNat ∧ c.toNat ≤ 122) := by
  rcases (Bool.or_eq_true _ _).mp letter with upper | lower
  · obtain ⟨low, high⟩ := of_decide_eq_true upper
    exact .inl ⟨UInt32.le_iff_toNat_le.1 low, UInt32.le_iff_toNat_le.1 high⟩
  · obtain ⟨low, high⟩ := (Bool.and_eq_true _ _).mp lower
    exact .inr ⟨UInt32.le_iff_toNat_le.1 (of_decide_eq_true low),
      UInt32.le_iff_toNat_le.1 (of_decide_eq_true high)⟩

theorem isDigit_of_isAlpha {c : Char} (letter : c.isAlpha = true) : c.isDigit = false := by
  have letters := toNat_of_isAlpha letter
  apply Bool.eq_false_iff.2
  intro digit
  have digits := Char.isDigit_iff_toNat.1 digit
  have zero : '0'.toNat = 48 := rfl
  have nine : '9'.toNat = 57 := rfl
  omega

theorem isNameChar_of_isAlpha {c : Char} (letter : c.isAlpha = true) : isNameChar c = true := by
  rw [isNameChar, Char.isAlphanum, letter, Bool.true_or, Bool.true_or]

theorem isNameChar_of_isDigit {c : Char} (digit : c.isDigit = true) : isNameChar c = true := by
  rw [isNameChar, Char.isAlphanum, digit, Bool.or_true, Bool.true_or]

theorem ne_of_isNameChar {c d : Char} (name : isNameChar c = true) (other : isNameChar d = false) :
    c ≠ d := by
  intro same
  rw [same, other] at name
  cases name

theorem isLineEnd_of_isNameChar {c : Char} (name : isNameChar c = true) : isLineEnd c = false := by
  simp [isLineEnd, ne_of_isNameChar name (show isNameChar '\n' = false from rfl),
    ne_of_isNameChar name (show isNameChar '\r' = false from rfl)]

theorem isWordChar_of_isNameChar {c : Char} (name : isNameChar c = true) : isWordChar c = true := by
  rw [isWordChar, ← isNameChar, name, Bool.true_or]

theorem toNat_of_isNameChar {c : Char} (name : isNameChar c = true) :
    48 ≤ c.toNat ∧ c.toNat ≤ 122 := by
  have zero : '0'.toNat = 48 := rfl
  have nine : '9'.toNat = 57 := rfl
  simp only [isNameChar, Char.isAlphanum, Bool.or_eq_true, decide_eq_true_eq] at name
  rcases name with (letter | digit) | rfl
  · have letters := toNat_of_isAlpha letter
    omega
  · have digits := Char.isDigit_iff_toNat.1 digit
    omega
  · decide

theorem isSpace_of_isNameChar {c : Char} (name : isNameChar c = true) : isSpace c = false := by
  have low := (toNat_of_isNameChar name).1
  have control : ¬c ≤ '\r' := by
    intro le
    have le : c.toNat ≤ 13 := UInt32.le_iff_toNat_le.1 le
    omega
  simp [isSpace, control, ne_of_isNameChar name (show isNameChar ' ' = false from rfl)]

theorem isFoldWordChar_of_isNameChar {c : Char} (name : isNameChar c = true) :
    isFoldWordChar c = true := by
  simp only [isNameChar, Bool.or_eq_true] at name
  rcases name with alphanumeric | underscore
  · rw [isFoldWordChar, alphanumeric, Bool.true_or, Bool.true_or]
  · rw [isFoldWordChar, underscore, Bool.or_true]

namespace Token

/-- The characters of a token. -/
def chars : Token → List Char
  | blank => [' ']
  | mark c => [c]
  | word letters | digits letters => letters

/-- Whether a token goes on with letters. -/
def isWordy : Token → Bool
  | blank | mark _ => false
  | word _ | digits _ => true

/-- A token with characters of its kind. -/
def Proper : Token → Prop
  | blank => True
  | mark c => c = '(' ∨ c = ')' ∨ c = '='
  | word letters => ∃ first rest, letters = first :: rest ∧ first.isAlpha = true ∧
      ∀ c ∈ rest, isNameChar c = true
  | digits letters => ∃ first rest, letters = first :: rest ∧ first.isDigit = true ∧
      ∀ c ∈ rest, c.isDigit = true

theorem letters_of_proper {token : Token} (proper : token.Proper) (wordy : token.isWordy = true) :
    token.chars ≠ [] ∧ ∀ c ∈ token.chars, isNameChar c = true := by
  cases token with
  | blank => cases wordy
  | mark c => cases wordy
  | word letters =>
    obtain ⟨first, rest, rfl, letter, names⟩ := proper
    refine ⟨List.cons_ne_nil _ _, ?_⟩
    intro c mem
    rcases List.mem_cons.1 mem with rfl | later
    · exact isNameChar_of_isAlpha letter
    · exact names c later
  | digits letters =>
    obtain ⟨first, rest, rfl, digit, digits⟩ := proper
    refine ⟨List.cons_ne_nil _ _, ?_⟩
    intro c mem
    rcases List.mem_cons.1 mem with rfl | later
    · exact isNameChar_of_isDigit digit
    · exact isNameChar_of_isDigit (digits c later)

/-- A character of a token. -/
def isTokenChar (c : Char) : Bool :=
  isNameChar c || [' ', '(', ')', '='].contains c

theorem isTokenChar_of_proper {token : Token} (proper : token.Proper) {c : Char}
    (mem : c ∈ token.chars) : isTokenChar c = true := by
  cases wordy : token.isWordy with
  | true => rw [isTokenChar, (letters_of_proper proper wordy).2 c mem, Bool.true_or]
  | false =>
    cases token with
    | blank =>
      obtain rfl := List.mem_singleton.1 mem
      rfl
    | mark d =>
      obtain rfl := List.mem_singleton.1 mem
      rcases proper with rfl | rfl | rfl
      · rfl
      · rfl
      · rfl
    | word letters => cases wordy
    | digits letters => cases wordy

theorem ne_of_isTokenChar {c d : Char} (token : isTokenChar c = true)
    (other : isTokenChar d = false) : c ≠ d := by
  intro same
  rw [same, other] at token
  cases token

theorem isLineEnd_of_isTokenChar {c : Char} (token : isTokenChar c = true) :
    isLineEnd c = false := by
  simp [isLineEnd, ne_of_isTokenChar token (show isTokenChar '\n' = false from rfl),
    ne_of_isTokenChar token (show isTokenChar '\r' = false from rfl)]

theorem toNat_of_isTokenChar {c : Char} (token : isTokenChar c = true) : c.toNat < 256 := by
  simp only [isTokenChar, Bool.or_eq_true, List.contains_iff_mem, List.mem_cons, List.not_mem_nil,
    or_false] at token
  rcases token with name | rfl | rfl | rfl | rfl
  · have bound := (toNat_of_isNameChar name).2
    omega
  all_goals decide

/-- Tokens that can follow on a line: no two that go on with letters meet, and the line does not begin
with a number. -/
def Line (wordy shown : Bool) : List Token → Prop
  | [] => True
  | token :: rest =>
    token.Proper ∧ (token.isWordy = true → wordy = false) ∧
      ((∃ letters, token = digits letters) → shown = true) ∧
      Line token.isWordy (shown || token ≠ blank) rest

section Line

variable {wordy shown : Bool} {rest : List Token}

theorem line_blank (later : Line false shown rest) : Line wordy shown (blank :: rest) := by
  refine ⟨trivial, nofun, nofun, ?_⟩
  have same : (shown || decide (blank ≠ blank)) = shown := by simp
  rw [same]
  exact later

theorem line_mark {c : Char} (proper : (mark c).Proper) (later : Line false true rest) :
    Line wordy shown (mark c :: rest) := by
  refine ⟨proper, nofun, nofun, ?_⟩
  rw [decide_eq_true (show mark c ≠ blank from nofun), Bool.or_true]
  exact later

theorem line_word {letters : List Char} (proper : (word letters).Proper)
    (later : Line true true rest) : Line false shown (word letters :: rest) := by
  refine ⟨proper, fun _ => rfl, nofun, ?_⟩
  rw [decide_eq_true (show word letters ≠ blank from nofun), Bool.or_true]
  exact later

theorem line_digits {letters : List Char} (proper : (digits letters).Proper)
    (later : Line true true rest) : Line false true (digits letters :: rest) :=
  ⟨proper, fun _ => rfl, fun _ => rfl, later⟩

end Line

theorem proper_of_line {wordy shown : Bool} {tokens : List Token} (line : Line wordy shown tokens) :
    ∀ token ∈ tokens, token.Proper := by
  induction tokens generalizing wordy shown with
  | nil => exact nofun
  | cons token rest ih =>
    intro other mem
    rcases List.mem_cons.1 mem with rfl | later
    · exact line.1
    · exact ih line.2.2.2 other later

/-- The characters of a line with its line end. -/
def lineChars (tokens : List Token) : List Char :=
  tokens.flatMap chars ++ ['\n']

theorem isTokenChar_of_mem {tokens : List Token} (proper : ∀ token ∈ tokens, token.Proper) {c : Char}
    (mem : c ∈ tokens.flatMap chars) : isTokenChar c = true := by
  obtain ⟨token, among, inside⟩ := List.mem_flatMap.1 mem
  exact isTokenChar_of_proper (proper token among) inside

theorem isTokenChar_of_lines {lines : List (List Token)} {wordy shown : Bool}
    (proper : ∀ tokens ∈ lines, Line wordy shown tokens) {c : Char}
    (mem : c ∈ lines.flatMap lineChars) : isTokenChar c = true ∨ c = '\n' := by
  obtain ⟨tokens, among, inside⟩ := List.mem_flatMap.1 mem
  rcases List.mem_append.1 inside with token | newline
  · exact .inl (isTokenChar_of_mem (proper_of_line (proper tokens among)) token)
  · exact .inr (List.mem_singleton.1 newline)

end Token

end FortranMarkup
