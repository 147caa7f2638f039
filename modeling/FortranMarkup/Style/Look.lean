/-!
# Looks

A `Look` is how a terminal shows a piece of text: a colour from the palette of sixteen and three
attributes.
-/

namespace FortranMarkup

/-- A terminal colour; `standard` is the colour that the terminal uses by itself. -/
inductive Color where
  | standard
  | black
  | red
  | green
  | yellow
  | blue
  | magenta
  | cyan
  | white
  | brightBlack
  | brightRed
  | brightGreen
  | brightYellow
  | brightBlue
  | brightMagenta
  | brightCyan
  | brightWhite
deriving Repr, DecidableEq

namespace Color

/-- The name under which a colour is shown. -/
def name : Color → String
  | standard => "Default"
  | black => "Black"
  | red => "Red"
  | green => "Green"
  | yellow => "Yellow"
  | blue => "Blue"
  | magenta => "Magenta"
  | cyan => "Cyan"
  | white => "White"
  | brightBlack => "BrightBlack"
  | brightRed => "BrightRed"
  | brightGreen => "BrightGreen"
  | brightYellow => "BrightYellow"
  | brightBlue => "BrightBlue"
  | brightMagenta => "BrightMagenta"
  | brightCyan => "BrightCyan"
  | brightWhite => "BrightWhite"

/-- All colours, the standard one first. -/
def all : List Color :=
  [standard, black, red, green, yellow, blue, magenta, cyan, white, brightBlack, brightRed,
    brightGreen, brightYellow, brightBlue, brightMagenta, brightCyan, brightWhite]

/-- The number of a colour in the palette; the standard colour has none. -/
def palette? : Color → Option Nat
  | standard => none
  | black => some 0
  | red => some 1
  | green => some 2
  | yellow => some 3
  | blue => some 4
  | magenta => some 5
  | cyan => some 6
  | white => some 7
  | brightBlack => some 8
  | brightRed => some 9
  | brightGreen => some 10
  | brightYellow => some 11
  | brightBlue => some 12
  | brightMagenta => some 13
  | brightCyan => some 14
  | brightWhite => some 15

end Color

/-- How a piece of text is shown. -/
structure Look where
  color : Color := .standard
  bold : Bool := false
  italic : Bool := false
  underline : Bool := false
deriving Repr, DecidableEq

namespace Look

/-- Shows in bold. -/
def withBold (look : Look) : Look := { look with bold := true }

/-- Shows in italics. -/
def withItalic (look : Look) : Look := { look with italic := true }

/-- Shows underlined. -/
def withUnderline (look : Look) : Look := { look with underline := true }

/-- Whether a look leaves the text as the terminal shows it by itself. -/
def isPlain (look : Look) : Bool := look = {}

end Look

end FortranMarkup
