import FortranMarkup.Toml.Value

/-!
# Reading TOML texts and numbers

The values that hold no others. Texts are read from the character after their opening marks, numbers
from a word that is already cut out.
-/

namespace FortranMarkup.Toml

/-! ## Texts -/

/-- A character that a comment can hold. -/
def isCommentChar (c : Char) : Bool :=
  c = '\t' || (' ' ≤ c && c.toNat ≠ 0x7F)

/-- A character that stands for itself between quotation marks. -/
def isBasicChar (c : Char) : Bool :=
  isCommentChar c && c ≠ '"' && c ≠ '\\'

/-- A character that stands for itself between apostrophes. -/
def isLiteralChar (c : Char) : Bool :=
  isCommentChar c && c ≠ '\''

/-- The value of a hexadecimal digit. -/
def hexDigit? (c : Char) : Option Nat :=
  if c.isDigit then some (c.toNat - '0'.toNat)
  else if 'a' ≤ c.toLower ∧ c.toLower ≤ 'f' then some (c.toLower.toNat - 'a'.toNat + 10)
  else none

/-- The character whose number some hexadecimal digits write, if there are as many as there should
be. -/
def scalar? (count : Nat) (cs : List Char) : Option Char :=
  match cs.mapM hexDigit? with
  | some digits =>
    let number := digits.foldl (fun n digit => 16 * n + digit) 0
    if digits.length = count ∧ number.isValidChar then some (Char.ofNat number) else none
  | none => none

/-- The character that a backslash and a letter stand for. -/
def shortEscape? (c : Char) : Option Char :=
  if c = 'b' then some '\x08'
  else if c = 't' then some '\t'
  else if c = 'n' then some '\n'
  else if c = 'f' then some '\x0c'
  else if c = 'r' then some '\r'
  else if c = '"' ∨ c = '\\' then some c
  else none

/-- The character that an escape stands for, and the number of characters that the escape takes
after its backslash. -/
def escape? : List Char → Option (Char × Nat)
  | 'u' :: rest => (scalar? 4 (rest.take 4)).map (·, 5)
  | 'U' :: rest => (scalar? 8 (rest.take 8)).map (·, 9)
  | c :: _ => (shortEscape? c).map (·, 1)
  | [] => none

/-- A text that is read, and what follows it. -/
abbrev ReadText := List Char × List Char

/-- Puts a character in front of a text. -/
def ReadText.cons (c : Char) (read : ReadText) : ReadText :=
  (c :: read.1, read.2)

/-- Reads a text on one line up to its closing quotation mark. -/
def basicText? : List Char → Option ReadText
  | [] => none
  | c :: rest =>
    if c = '"' then some ([], rest)
    else if c = '\\' then
      match escape? rest with
      | some (escaped, taken) => (basicText? (rest.drop taken)).map (ReadText.cons escaped)
      | none => none
    else if isBasicChar c then (basicText? rest).map (ReadText.cons c)
    else none
termination_by cs => cs.length
decreasing_by
  · rw [List.length_drop, List.length_cons]
    omega
  · rw [List.length_cons]
    omega

/-- Reads a text on one line up to its closing apostrophe. -/
def literalText? : List Char → Option ReadText
  | [] => none
  | c :: rest =>
    if c = '\'' then some ([], rest)
    else if isLiteralChar c then (literalText? rest).map (ReadText.cons c)
    else none

/-- Ends a text at three marks. Up to two more marks belong to the text, in front of the closing
ones. -/
def longEnd? (mark : Char) (cs : List Char) : Option ReadText :=
  if cs.take 3 = [mark, mark, mark] then
    let extra := min 2 ((cs.drop 3).takeWhile (· = mark)).length
    some (List.replicate extra mark, cs.drop (3 + extra))
  else none

/-- Takes one line end off the front, if there is one. -/
def dropNewline : List Char → List Char
  | '\n' :: rest => rest
  | '\r' :: '\n' :: rest => rest
  | cs => cs

/-- Takes blanks and line ends off the front. -/
def dropBlankLines : List Char → List Char
  | ' ' :: rest => dropBlankLines rest
  | '\t' :: rest => dropBlankLines rest
  | '\n' :: rest => dropBlankLines rest
  | '\r' :: '\n' :: rest => dropBlankLines rest
  | cs => cs

theorem length_dropBlankLines_le (cs : List Char) : (dropBlankLines cs).length ≤ cs.length := by
  fun_induction dropBlankLines cs <;> grind

/-- A space or a tab. -/
def isGap (c : Char) : Bool :=
  c = ' ' || c = '\t'

/-- Whether a line ends in front of some characters. -/
def atNewline : List Char → Bool
  | '\n' :: _ => true
  | '\r' :: '\n' :: _ => true
  | _ => false

/-- Reads a text of several lines between quotation marks. Each line end is read as a line feed; a
backslash at the end of a line takes the line end away with all blanks after it. -/
def longBasicText? : List Char → Option ReadText
  | [] => none
  | c :: rest =>
    if c = '"' then
      match longEnd? '"' (c :: rest) with
      | some read => some read
      | none => (longBasicText? rest).map (ReadText.cons c)
    else if c = '\\' then
      if atNewline (rest.dropWhile isGap) then longBasicText? (dropBlankLines rest)
      else
        match escape? rest with
        | some (escaped, taken) => (longBasicText? (rest.drop taken)).map (ReadText.cons escaped)
        | none => none
    else if c = '\n' ∨ isBasicChar c then (longBasicText? rest).map (ReadText.cons c)
    else if c = '\r' ∧ rest.head? = some '\n' then longBasicText? rest
    else none
termination_by cs => cs.length
decreasing_by
  all_goals have := length_dropBlankLines_le rest
  all_goals simp <;> omega

/-- Reads a text of several lines between apostrophes. Each line end is read as a line feed. -/
def longLiteralText? : List Char → Option ReadText
  | [] => none
  | c :: rest =>
    if c = '\'' then
      match longEnd? '\'' (c :: rest) with
      | some read => some read
      | none => (longLiteralText? rest).map (ReadText.cons c)
    else if c = '\n' ∨ isLiteralChar c then (longLiteralText? rest).map (ReadText.cons c)
    else if c = '\r' ∧ rest.head? = some '\n' then longLiteralText? rest
    else none

/-! ## Numbers -/

/-- The digits of a number, without the underscores that can stand between two digits. -/
def digitsOf? (isDigit : Char → Bool) : List Char → Option (List Char)
  | [] => none
  | [c] => if isDigit c then some [c] else none
  | c :: '_' :: rest => if isDigit c then (digitsOf? isDigit rest).map (c :: ·) else none
  | c :: rest => if isDigit c then (digitsOf? isDigit rest).map (c :: ·) else none

/-- The number that some digits write in a base. -/
def ofDigits (base : Nat) (digits : List Char) : Nat :=
  digits.foldl (fun n c => base * n + (hexDigit? c).getD 0) 0

/-- The digits of a whole number; zero is the only one to begin with a zero. -/
def wholeDigits? (cs : List Char) : Option (List Char) :=
  (digitsOf? Char.isDigit cs).filter (fun digits => digits.length = 1 || digits.head? ≠ some '0')

/-- Takes a sign off the front: whether the number is negative, and the rest. -/
def splitSign : List Char → Bool × List Char
  | '-' :: rest => (true, rest)
  | '+' :: rest => (false, rest)
  | cs => (false, cs)

/-- Whether an integer has 64 bits. -/
def isInteger64 (number : Int) : Bool :=
  -0x8000000000000000 ≤ number && number < 0x8000000000000000

/-- The number that some decimal digits write, below zero if there is a minus sign. -/
def signed (negative : Bool) (digits : List Char) : Int :=
  if negative then -(ofDigits 10 digits : Int) else ofDigits 10 digits

/-- Reads an integer. -/
def integer? (cs : List Char) : Option Int :=
  let number? := match cs with
    | '0' :: 'x' :: rest =>
      (digitsOf? (fun c => (hexDigit? c).isSome) rest).map (fun ds => (ofDigits 16 ds : Int))
    | '0' :: 'o' :: rest =>
      (digitsOf? (fun c => '0' ≤ c && c ≤ '7') rest).map (fun ds => (ofDigits 8 ds : Int))
    | '0' :: 'b' :: rest =>
      (digitsOf? (fun c => c = '0' || c = '1') rest).map (fun ds => (ofDigits 2 ds : Int))
    | _ =>
      let (negative, body) := splitSign cs
      (wholeDigits? body).map (signed negative)
  number?.filter isInteger64

/-- Reads the exponent that follows the letter for it. -/
def exponent? (cs : List Char) : Option Int :=
  let (negative, body) := splitSign cs
  (digitsOf? Char.isDigit body).map (signed negative)

/-- Reads the rest of a number after its digits: nothing, or an exponent. -/
def exponentPart? : List Char → Option Int
  | [] => some 0
  | c :: rest => if c = 'e' ∨ c = 'E' then exponent? rest else none

/-- Reads a number with a fraction, with an exponent or with both. One that is too large is refused
if it is positive. -/
def float? (cs : List Char) : Option Binary64 :=
  let (negative, body) := splitSign cs
  if body = ['i', 'n', 'f'] then some (.infinite negative)
  else if body = ['n', 'a', 'n'] then some .nan
  else
    let inNumber (c : Char) : Bool := c.isDigit || c = '_'
    let number? := do
      let whole ← wholeDigits? (body.takeWhile inNumber)
      match body.dropWhile inNumber with
      | [] => none
      | '.' :: rest =>
        let places ← digitsOf? Char.isDigit (rest.takeWhile inNumber)
        let exponent ← exponentPart? (rest.dropWhile inNumber)
        let digits := ofDigits 10 (whole ++ places)
        return Binary64.ofDecimal negative digits (exponent - places.length)
      | rest => do
        let exponent ← exponentPart? rest
        return Binary64.ofDecimal negative (ofDigits 10 whole) exponent
    number?.filter (· ≠ .infinite false)

/-- A character of a word that writes a value: a number, a date-time or a truth value. -/
def isScalarChar (c : Char) : Bool :=
  c.isAlphanum || ['_', '+', '-', '.', ':'].contains c

/-- The value that a word writes. -/
def scalarOf? (cs : List Char) : Option Value :=
  if cs = ['t', 'r', 'u', 'e'] then some (.boolean true)
  else if cs = ['f', 'a', 'l', 's', 'e'] then some (.boolean false)
  else
    match DateTime.read? cs, float? cs, integer? cs with
    | some moment, _, _ => some (.dateTime moment)
    | _, some number, _ => some (.float number)
    | _, _, some number => some (.integer number)
    | _, _, _ => none

/-- Reads a value that holds no others and is no text. After a date, a space and a digit begin its
time of day. -/
def readScalar? (cs : List Char) : Option (Value × List Char) :=
  let word := cs.takeWhile isScalarChar
  let rest := cs.dropWhile isScalarChar
  match Date.read? word, rest with
  | some _, ' ' :: c :: after =>
    if c.isDigit then
      let clock := (c :: after).takeWhile isScalarChar
      (scalarOf? (word ++ ' ' :: clock)).map (·, (c :: after).dropWhile isScalarChar)
    else (scalarOf? word).map (·, rest)
  | _, _ => (scalarOf? word).map (·, rest)

end FortranMarkup.Toml
