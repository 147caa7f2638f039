import FortranMarkup.Style.Look
import FortranMarkup.Text.Case

/-!
# Styles

Every byte of styled source has one `Style`, the lexical category to which it belongs. Styles are
numbered from 0; the numbers are how styles are stored and exchanged.
-/

namespace FortranMarkup

/-- The lexical category of a source byte. -/
inductive Style where
  /-- Space between tokens, and whatever no rule claims. -/
  | plain
  /-- A comment; in fixed form also everything from column 72 on. -/
  | comment
  /-- A number with its kind, or a literal with a radix. -/
  | number
  /-- A character literal between apostrophes. -/
  | apostropheLiteral
  /-- A character literal between quotation marks. -/
  | quoteLiteral
  /-- A character literal that its line leaves open. -/
  | openLiteral
  /-- An operator of one character. -/
  | operator
  /-- A word that no word list holds. -/
  | identifier
  /-- A word of the primary list. -/
  | keyword
  /-- A word of the list of intrinsic functions. -/
  | intrinsic
  /-- A word of the list of extended functions. -/
  | extended
  /-- A directive, or a line for the preprocessor. -/
  | preprocessor
  /-- An operator between dots. -/
  | dottedOperator
  /-- A statement label. -/
  | label
  /-- A continuation mark. -/
  | continuation
deriving Repr, DecidableEq

namespace Style

instance : Inhabited Style := ⟨.plain⟩

/-- All styles, in the order of their numbers. -/
def all : List Style :=
  [plain, comment, number, apostropheLiteral, quoteLiteral, openLiteral, operator, identifier,
    keyword, intrinsic, extended, preprocessor, dottedOperator, label, continuation]

/-- The number of a style. -/
def code (style : Style) : Nat :=
  style.ctorIdx

/-- The style with a number; a number without a style reads as plain. -/
def ofCode (code : Nat) : Style :=
  all[code]?.getD plain

/-- The name under which a style is shown. -/
def name : Style → String
  | plain => "Default"
  | comment => "Comment"
  | number => "Number"
  | apostropheLiteral => "String1"
  | quoteLiteral => "String2"
  | openLiteral => "StringEOL"
  | operator => "Operator"
  | identifier => "Identifier"
  | keyword => "Word"
  | intrinsic => "Word2"
  | extended => "Word3"
  | preprocessor => "Preprocessor"
  | dottedOperator => "Operator2"
  | label => "Label"
  | continuation => "Continuation"

/-- The style with a name, in any case. -/
def ofName? (name : String) : Option Style :=
  all.find? (fun style => Case.lower style.name = Case.lower name)

/-- Whether a style is that of a listed word. -/
def isListed : Style → Bool
  | keyword | intrinsic | extended => true
  | _ => false

/-- How text of a style is shown. -/
def look : Style → Look
  | plain | identifier => {}
  | comment => Look.withItalic { color := .brightBlack }
  | number => { color := .cyan }
  | apostropheLiteral | quoteLiteral => { color := .green }
  | openLiteral => Look.withUnderline { color := .green }
  | operator => { color := .brightWhite }
  | keyword => Look.withBold { color := .magenta }
  | intrinsic => { color := .blue }
  | extended => { color := .brightBlue }
  | preprocessor => { color := .brightMagenta }
  | dottedOperator => { color := .yellow }
  | label => Look.withUnderline { color := .yellow }
  | continuation => { color := .brightRed }

@[simp] theorem ofCode_code (style : Style) : ofCode style.code = style := by
  cases style <;> rfl

end Style

end FortranMarkup
