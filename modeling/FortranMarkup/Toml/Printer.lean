import FortranMarkup.Number.Shortest
import FortranMarkup.Toml.Value

/-!
# Printing TOML values

A value is printed on one line, apart from the line feeds of its texts. A text is written in the
plainest way that can show it: between quotation marks, between apostrophes if that spares an
escape, and between three marks if it has several lines or both kinds of mark.
-/

namespace FortranMarkup.Toml

/-! ## Texts -/

/-- The length of the longest run of a character. -/
def longestRun (mark : Char) : List Char → Nat → Nat
  | [], run => run
  | c :: rest, run =>
    if c = mark then longestRun mark rest (run + 1) else max run (longestRun mark rest 0)

/-- Whether a character has to be escaped wherever it stands: a control character other than a tab
and a line feed. -/
def needsCode (c : Char) : Bool :=
  (c.toNat < 0x20 && c ≠ '\t' && c ≠ '\n') || c.toNat = 0x7F

/-- The ways to write a text. -/
inductive Quoting where
  | basic
  | literal
  | longBasic
  | longLiteral
deriving Repr, DecidableEq

/-- The way in which a text is written. -/
def quotingOf (cs : List Char) : Quoting :=
  let coded := cs.any needsCode
  let escaped := coded || cs.contains '\\'
  let lines := cs.contains '\n'
  if !escaped && longestRun '"' cs 0 = 0 && !lines then .basic
  else if !coded && longestRun '\'' cs 0 = 0 && !lines then .literal
  else if !escaped && longestRun '"' cs 0 ≤ 2 then .longBasic
  else if !coded && longestRun '\'' cs 0 ≤ 2 then .longLiteral
  else if lines then .longBasic
  else .basic

/-- The code of a character as an escape. -/
def codeEscape (c : Char) : List Char :=
  let digits := (Nat.toDigits 16 c.toNat).map Char.toUpper
  ['\\', 'u'] ++ List.replicate (4 - digits.length) '0' ++ digits

/-- How a character other than a quotation mark is written between quotation marks. -/
def escapeChar (keepLines : Bool) (c : Char) : List Char :=
  if c = '\\' then ['\\', '\\']
  else if c = '\t' then ['\\', 't']
  else if c = '\n' then if keepLines then [c] else ['\\', 'n']
  else if c = '\r' then ['\\', 'r']
  else if c.toNat = 8 then ['\\', 'b']
  else if c.toNat = 0xC then ['\\', 'f']
  else if needsCode c then codeEscape c
  else [c]

/-- Writes the characters between quotation marks. So many quotation marks in a row stand for
themselves; the next one is escaped. -/
def escapeFrom (keepLines : Bool) (room : Nat) : List Char → Nat → List Char
  | [], _ => []
  | c :: rest, run =>
    if c = '"' then
      if run < room then c :: escapeFrom keepLines room rest (run + 1)
      else '\\' :: c :: escapeFrom keepLines room rest 0
    else escapeChar keepLines c ++ escapeFrom keepLines room rest 0

/-- Writes a text. After three marks, a text of several lines begins on a line of its own. -/
def showText (text : String) : String :=
  let cs := text.toList
  let gap := if cs.contains '\n' then "\n" else ""
  match quotingOf cs with
  | .basic => "\"" ++ String.ofList (escapeFrom false 0 cs 0) ++ "\""
  | .literal => "'" ++ text ++ "'"
  | .longBasic => "\"\"\"" ++ gap ++ String.ofList (escapeFrom true 2 cs 0) ++ "\"\"\""
  | .longLiteral => "'''" ++ gap ++ text ++ "'''"

/-! ## Keys -/

/-- A character of a key that needs no marks. -/
def isBareKeyChar (c : Char) : Bool :=
  c.isAlphanum || c = '_' || c = '-'

/-- Writes a key, on one line in any case. -/
def showKey (key : String) : String :=
  let cs := key.toList
  let coded := cs.any (fun c => needsCode c || c = '\n')
  let needsEscape := cs.contains '\\' || cs.contains '"'
  if cs ≠ [] ∧ cs.all isBareKeyChar then key
  else if !coded && needsEscape && !cs.contains '\'' then "'" ++ key ++ "'"
  else "\"" ++ String.ofList (escapeFrom false 0 cs 0) ++ "\""

/-! ## Values -/

/-- Writes a number of double precision. The sign of what is no number is left out. -/
def showFloat (number : Binary64) : String :=
  number.positional

/-- The entries of a table in the order in which they are written: plain values, then arrays that
have a table among their items, then tables. -/
def writingOrder (entries : List (String × String × Value)) : List (String × String × Value) :=
  entries.filter (fun entry => !entry.2.2.isTable && !entry.2.2.holdsTable) ++
    entries.filter (fun entry => entry.2.2.holdsTable) ++
    entries.filter (fun entry => entry.2.2.isTable)

mutual

/-- Writes a value that stands in another one. -/
def showInner : Value → String
  | .string text => showText text
  | .integer number => toString number
  | .float number => showFloat number
  | .boolean truth => if truth then "true" else "false"
  | .dateTime moment => moment.show
  | .array items => "[" ++ String.intercalate ", " (showItems items) ++ "]"
  | .table [] => "\x7b\x7d"
  | .table entries =>
    "\x7b " ++ String.intercalate ", " ((writingOrder (showEntries entries)).map
      (fun entry => showKey entry.1 ++ " = " ++ entry.2.1)) ++ " \x7d"

/-- Writes each item of an array. -/
def showItems : List Value → List String
  | [] => []
  | item :: rest => showInner item :: showItems rest

/-- Writes the value of each entry of a table, next to the value itself. -/
def showEntries : List (String × Value) → List (String × String × Value)
  | [] => []
  | (key, value) :: rest => (key, showInner value, value) :: showEntries rest

end

/-- The key under which a date-time is kept where only tables can be. -/
def dateTimeKey : String := "$__toml_private_datetime"

/-- Writes a value. A date-time by itself is written as a table with the one key that marks it. -/
def Value.show : Value → String
  | .dateTime moment => "\x7b \"" ++ dateTimeKey ++ "\" = \"" ++ moment.show ++ "\" \x7d"
  | value => showInner value

end FortranMarkup.Toml
