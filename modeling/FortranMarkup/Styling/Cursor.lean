import FortranMarkup.Keyword.BoundedWord
import FortranMarkup.Source.Basic
import FortranMarkup.Style.Span

/-!
# The styling cursor

A `Cursor` walks over source one byte at a time, from a start to a stop. It knows the characters
around its position and whether a line starts or ends there, and it carries the style of the segment
that is open. A segment is painted where it ends, so its style can still change until then: that is
how an identifier becomes a keyword and an unfinished literal an open one.

The cursor keeps the spans that it has painted, each of which begins where the one before it ends.
Nothing else is written, so a walk is a function of the source alone.
-/

namespace FortranMarkup

/-- The position at which a walk up to `stop` ends. A walk to the end of the source goes one
position further, so that the last token is followed by something. -/
def Source.walkEnd (src : Source) (stop : Nat) : Nat :=
  if stop = src.size then stop + 1 else stop

/-- Whether a position that a walk has reached on a line is the last one of that line. The last line
has no line end, so its last position is the end of the source. -/
def Source.endsLine (src : Source) (line pos : Nat) : Bool :=
  if line + 1 < src.lines then src.lineEnd line ≤ pos + 1 else src.lineEnd line ≤ pos

/-- A position in source between `start` and `stop`, with what is painted before it. -/
structure Cursor (src : Source) (start stop : Nat) where
  pos : Nat
  /-- The line of the position. -/
  line : Nat
  atLineStart : Bool
  atLineEnd : Bool
  /-- The style of the open segment. -/
  state : Style
  /-- The character before the position. -/
  prev : Char
  /-- The character at the position. -/
  ch : Char
  /-- The character after the position. -/
  next : Char
  /-- The segments painted so far, the latest first. -/
  painted : List Span
deriving Repr, DecidableEq

namespace Cursor

variable {src : Source} {start stop : Nat}

/-- A cursor at its start, in a given state. -/
def atStart (src : Source) (start stop : Nat) (state : Style) : Cursor src start stop where
  pos := start
  line := src.lineAt start
  atLineStart := src.lineStart (src.lineAt start) = start
  atLineEnd := src.endsLine (src.lineAt start) start
  state := state
  prev := '\x00'
  ch := src.charD start '\x00'
  next := src.charD (start + 1) '\x00'
  painted := []

/-- Whether the walk goes on. -/
def more (c : Cursor src start stop) : Bool :=
  c.pos < stop

/-- The first position of the open segment. -/
def segment (c : Cursor src start stop) : Nat :=
  match c.painted with
  | [] => start
  | last :: _ => last.stop

/-- Moves to the next position. At the stop, the characters around the cursor become spaces. -/
def forward (c : Cursor src start stop) : Cursor src start stop :=
  if c.pos < stop then
    let line := if c.atLineEnd then c.line + 1 else c.line
    { c with
      pos := c.pos + 1
      line := line
      atLineStart := c.atLineEnd
      atLineEnd := src.endsLine line (c.pos + 1)
      prev := c.ch
      ch := c.next
      next := src.charD (c.pos + 2) '\x00' }
  else
    { c with atLineStart := false, atLineEnd := true, prev := ' ', ch := ' ', next := ' ' }

/-- Paints the open segment up to the cursor, if it has any byte. -/
def paint (c : Cursor src start stop) : Cursor src start stop :=
  { c with
    painted :=
      if c.segment < min c.pos src.size then ⟨c.segment, min c.pos src.size, c.state⟩ :: c.painted
      else c.painted }

/-- Gives the open segment another style. -/
def relabel (c : Cursor src start stop) (state : Style) : Cursor src start stop :=
  { c with state := state }

/-- Paints the open segment and opens one of another style. -/
def setState (c : Cursor src start stop) (state : Style) : Cursor src start stop :=
  c.paint.relabel state

/-- Moves on and opens a segment there. -/
def forwardSetState (c : Cursor src start stop) (state : Style) : Cursor src start stop :=
  c.forward.setState state

/-- The character a distance from the cursor, and NUL outside the source. -/
def relative (c : Cursor src start stop) (distance : Int) : Char :=
  src.relative c.pos distance '\x00'

/-- Whether the text from the cursor on begins with the given small characters, in any case. -/
def matchesText (c : Cursor src start stop) : List Char → Bool
  | [] => true
  | [a] => c.ch.toLower = a
  | a :: b :: rest =>
    c.ch.toLower = a && c.next.toLower = b &&
      (rest.zipIdx 2).all (fun (expected, distance) =>
        (src.charD (c.pos + distance) '\x00').toLower = expected)

/-- The styles of the bytes painted so far, from the start on. -/
def styles (c : Cursor src start stop) : List Style :=
  Span.expand c.painted.reverse

/-- The word that the open segment spells. -/
def openWord (capacity : Nat) (c : Cursor src start stop) : BoundedWord capacity :=
  .ofChars (src.charsD c.segment c.pos '\x00')

/-- The column of the cursor on its line. -/
def column (c : Cursor src start stop) : Nat :=
  c.pos - src.lineStart c.line

/-! ## Where the operations leave the cursor -/

@[simp] theorem pos_paint (c : Cursor src start stop) : c.paint.pos = c.pos := rfl

@[simp] theorem pos_relabel (c : Cursor src start stop) (state : Style) :
    (c.relabel state).pos = c.pos := rfl

@[simp] theorem pos_setState (c : Cursor src start stop) (state : Style) :
    (c.setState state).pos = c.pos := rfl

theorem pos_forward (c : Cursor src start stop) :
    c.forward.pos = if c.pos < stop then c.pos + 1 else c.pos := by
  unfold forward
  split <;> rfl

theorem pos_le_forward (c : Cursor src start stop) : c.pos ≤ c.forward.pos := by
  rw [pos_forward]
  split <;> omega

theorem pos_lt_forward {c : Cursor src start stop} (more : c.pos < stop) :
    c.pos < c.forward.pos := by
  simp [pos_forward, more]

@[simp] theorem pos_forwardSetState (c : Cursor src start stop) (state : Style) :
    (c.forwardSetState state).pos = c.forward.pos := rfl

/-- Moves on to the end of the line, or to the stop. -/
def toLineEnd (c : Cursor src start stop) : Cursor src start stop :=
  if c.atLineEnd = false ∧ c.pos < stop then c.forward.toLineEnd else c
termination_by stop - c.pos
decreasing_by
  rename_i going
  have := pos_lt_forward going.2
  omega

theorem pos_le_toLineEnd (c : Cursor src start stop) : c.pos ≤ c.toLineEnd.pos := by
  fun_induction toLineEnd c with
  | case1 c _ ih => exact Nat.le_trans (pos_le_forward c) ih
  | case2 => exact Nat.le_refl _

end Cursor

end FortranMarkup
