import FortranMarkup.Source.Classes

/-!
# Source text

A `Source` is a byte text with the table of its lines. Reading is total: a position past the end has
no character, and a line past the end starts at the end of the text.

A line ends with a line feed, with a carriage return and a line feed, or with a carriage return
alone. Text that ends with a line end has an empty last line after it; `lineCount` leaves that line
out.
-/

namespace FortranMarkup

/-- The character with the number of the byte at a position. -/
def charAt? (bytes : Array UInt8) (pos : Nat) : Option Char :=
  bytes[pos]?.map Char.ofUInt8

/-- Whether the byte at a position is the last one of its line end. -/
def endsLineAt (bytes : Array UInt8) (pos : Nat) : Bool :=
  charAt? bytes pos = some '\n' ||
    (charAt? bytes pos = some '\r' && charAt? bytes (pos + 1) ≠ some '\n')

/-- The positions at which the lines of a text start. -/
def lineStarts (bytes : Array UInt8) : Array Nat :=
  (0 :: ((List.range bytes.size).filter (endsLineAt bytes)).map (· + 1)).toArray

/-- A byte text and the positions at which its lines start. -/
structure Source where
  bytes : Array UInt8
  starts : Array Nat
deriving Repr, DecidableEq

namespace Source

/-- The source with the given bytes. -/
def ofBytes (bytes : Array UInt8) : Source :=
  ⟨bytes, lineStarts bytes⟩

/-- The number of bytes. -/
def size (src : Source) : Nat :=
  src.bytes.size

/-- The character at a position, if the text reaches that far. -/
def char? (src : Source) (pos : Nat) : Option Char :=
  charAt? src.bytes pos

/-- The character at a position, or the given one past the end. -/
def charD (src : Source) (pos : Nat) (past : Char) : Char :=
  (src.char? pos).getD past

/-- The character a distance after or before a position, or the given one outside the text. -/
def relative (src : Source) (pos : Nat) (distance : Int) (outside : Char) : Char :=
  if pos + distance < 0 then outside else src.charD (pos + distance).toNat outside

/-- The characters at the positions from one up to another, with the given one past the end. -/
def charsD (src : Source) (first stop : Nat) (past : Char) : List Char :=
  (List.range' first (stop - first)).map (fun pos => src.charD pos past)

/-- The number of lines, with the empty one after a last line end. -/
def lines (src : Source) : Nat :=
  src.starts.size

/-- The line that holds a position; the last line for a position past the end. -/
def lineAt (src : Source) (pos : Nat) : Nat :=
  src.starts.countP (fun start => start ≤ pos) - 1

/-- The position at which a line starts; the end of the text for a line past the last one. -/
def lineStart (src : Source) (line : Nat) : Nat :=
  src.starts[line]?.getD src.size

/-- The position after the last byte of a line, its line end included. -/
def lineEnd (src : Source) (line : Nat) : Nat :=
  src.lineStart (line + 1)

/-- The number of lines that hold at least one byte, and 1 for the empty text: only the last line
can be empty. -/
def lineCount (src : Source) : Nat :=
  if src.size ≠ 0 ∧ src.lineStart (src.lines - 1) = src.size then src.lines - 1 else src.lines

/-- Takes one line end off the end of some bytes. -/
def dropLineEnd (bytes : Array UInt8) : Array UInt8 :=
  if bytes.back? = some 0x0A then
    if bytes.pop.back? = some 0x0D then bytes.pop.pop else bytes.pop
  else if bytes.back? = some 0x0D then bytes.pop
  else bytes

/-- The bytes of a line without its line end. -/
def lineBytes (src : Source) (line : Nat) : Array UInt8 :=
  dropLineEnd (src.bytes.extract (src.lineStart line) (src.lineEnd line))

/-- The first position from `pos` on, and before `stop`, whose character is not in the class; the
larger of `pos` and `stop` if there is none. Positions past the end are read as spaces. -/
def skipWhile (src : Source) (inClass : Char → Bool) (stop pos : Nat) : Nat :=
  if pos < stop then
    if inClass (src.charD pos ' ') then src.skipWhile inClass stop (pos + 1) else pos
  else pos
termination_by stop - pos

theorem le_skipWhile (src : Source) (inClass : Char → Bool) (stop pos : Nat) :
    pos ≤ src.skipWhile inClass stop pos := by
  fun_induction skipWhile src inClass stop pos with
  | case1 pos _ _ ih => omega
  | case2 => exact Nat.le_refl _
  | case3 => exact Nat.le_refl _

end Source

end FortranMarkup
