import FortranMarkup.Keyword.Dictionary
import FortranMarkup.Source.Form
import FortranMarkup.Styling.Cursor
import FortranMarkup.Styling.Restart

/-!
# Scanning tokens

A `Scan` is a cursor with what a styling pass remembers beside it: how many visible bytes the line
has shown and which literal a continued line resumes. `Scan.step` handles the byte at the cursor. It
closes the token that the byte ends and opens the one that the byte begins; columns of fixed form
and continuation marks of free form come first.

Main statement: a step never moves the cursor back (`pos_le_step`), so `Scan.run` ends.
-/

namespace FortranMarkup

/-- A cursor in a styling pass. -/
structure Scan (src : Source) (start stop : Nat) where
  cursor : Cursor src start stop
  /-- How many bytes of the line so far are neither spaces nor tabs. -/
  nonBlank : Nat
  /-- The state that a continued line of fixed form resumes. -/
  carried : Style
deriving Repr, DecidableEq

/-- The longest distance at which a line end or a comment is looked for after a continuation mark.
-/
def markReach : Nat := 132

/-- The beginnings of a comment that make it a directive, in any form. -/
def directives : List String := ["!dec$", "!dir$", "!ms$"]

/-- The beginnings of a line that make it a directive, in fixed form. -/
def fixedDirectives : List String :=
  ["cdec$", "*dec$", "!dec$", "cdir$", "*dir$", "!dir$", "cms$", "*ms$", "!ms$"]

/-- The capacity of the word that is looked up where an identifier ends. -/
def identifierCapacity : Nat := 99

namespace Scan

variable {src : Source} {start stop : Nat}

/-- Replaces the cursor. -/
def withCursor (s : Scan src start stop) (c : Cursor src start stop) : Scan src start stop :=
  { s with cursor := c }

/-- Begins afresh where a line starts. -/
def beginLine (s : Scan src start stop) : Scan src start stop :=
  if s.cursor.atLineStart then { s with cursor := s.cursor.setState .plain, nonBlank := 0 } else s

/-- Counts the byte at the cursor. -/
def countByte (s : Scan src start stop) : Scan src start stop :=
  if isSpaceOrTab s.cursor.ch then s else { s with nonBlank := s.nonBlank + 1 }

@[simp] theorem cursor_withCursor (s : Scan src start stop) (c : Cursor src start stop) :
    (s.withCursor c).cursor = c := rfl

@[simp] theorem pos_beginLine (s : Scan src start stop) :
    s.beginLine.cursor.pos = s.cursor.pos := by
  unfold beginLine
  split <;> rfl

@[simp] theorem pos_countByte (s : Scan src start stop) :
    s.countByte.cursor.pos = s.cursor.pos := by
  unfold countByte
  split <;> rfl

/-- Whether a comment that begins at the cursor with one of the given texts, or with its mark and a
dollar sign, is a directive. -/
def commentStyle (c : Cursor src start stop) (beginnings : List String) : Style :=
  if beginnings.any (fun text => c.matchesText text.toList) || c.next = '$' then .preprocessor
  else .comment

/-! ## Columns of fixed form -/

/-- Handles the column of the mark. A mark resumes the literal that the statement has left open, on
the byte after it. -/
def markStep (s : Scan src start stop) : Scan src start stop :=
  let c := s.cursor
  if isLineEnd c.ch then { s with cursor := c.setState .plain, carried := .plain }
  else if isSpace c.ch || c.ch = '0' then
    { s with cursor := c.setState .continuation, carried := .plain }
  else s.withCursor ((c.setState .continuation).forwardSetState s.carried)

/-- Handles a column with a fixed meaning: a comment letter, the label, the mark, or the tail of the
line after the statement. -/
def fixedStep (s : Scan src start stop) (column : Nat) : Scan src start stop :=
  let c := s.cursor
  if (column = 0 ∧ (c.ch.toLower = 'c' ∨ c.ch = '*')) ∨ c.ch = '!' then
    s.withCursor (c.setState (commentStyle c fixedDirectives)).toLineEnd
  else if tailColumn ≤ column then s.withCursor (c.setState .comment).toLineEnd
  else if column < markColumn then
    s.withCursor (c.setState (if c.ch.isDigit then .label else .plain))
  else s.markStep

/-! ## Continuation in free form -/

/-- The first character after the cursor that is not blank; a space if there is none within reach.
-/
def afterBlanks (c : Cursor src start stop) : Char :=
  let pos := src.skipWhile isBlank (min (c.pos + markReach) src.size) (c.pos + 1)
  if pos < c.pos + markReach then src.charD pos '\x00' else ' '

/-- Skips the line end and the spaces before the continued text, counting bytes line by line. -/
def skipSpaces (s : Scan src start stop) : Scan src start stop :=
  if isSpace s.cursor.ch = true ∧ s.cursor.pos < stop then
    skipSpaces (countByte
      { s with
        cursor := s.cursor.forward
        nonBlank := if s.cursor.forward.atLineStart then 0 else s.nonBlank })
  else s
termination_by stop - s.cursor.pos
decreasing_by
  rename_i going
  have := Cursor.pos_lt_forward going.2
  rw [pos_countByte]
  simp only
  omega

/-- Steps over the mark with which the continued text may begin. -/
def skipLeadingMark (c : Cursor src start stop) : Cursor src start stop :=
  if c.ch = '&' then (c.setState .continuation).forward else c

/-- Goes from a mark at the end of a line to the text that continues it, and resumes there. -/
def resumeNextLine (s : Scan src start stop) : Scan src start stop :=
  let skipped := skipSpaces
    (s.withCursor ((s.cursor.setState .continuation).forwardSetState .plain))
  skipped.withCursor ((skipLeadingMark skipped.cursor).setState s.cursor.state)

/-- Handles an ampersand outside comments. It is a mark if only blanks are between it and a comment
or the line end, and otherwise an operator, which is left to the rules for tokens. -/
def ampersandStep (s : Scan src start stop) : Scan src start stop :=
  let c := s.cursor
  let ahead := afterBlanks c
  if ahead = '!' then
    let after := if c.next = '!' then .comment else .plain
    s.withCursor ((c.setState .continuation).forwardSetState after)
  else if isLineEnd ahead then s.resumeNextLine
  else s

/-! ## Tokens -/

/-- Handles a number sign that is the first visible byte of its line: the rest of the line is for
the preprocessor. -/
def numberSignStep (s : Scan src start stop) : Scan src start stop :=
  if s.cursor.ch = '#' ∧ s.nonBlank = 1 then
    s.withCursor (s.cursor.setState .preprocessor).toLineEnd
  else s

/-- Handles a byte in a literal that `quote` delimits; a quote inside is written twice. -/
def literalStep (s : Scan src start stop) (quote : Char) : Scan src start stop :=
  let c := s.cursor
  if c.ch = quote then
    if c.next = quote then { s with cursor := c.forward, carried := c.state }
    else { s with cursor := c.forwardSetState .plain, carried := .plain }
  else { s with carried := c.state }

/-- Relabels a literal that its line leaves open. -/
def leaveOpen (s : Scan src start stop) : Scan src start stop :=
  { s with cursor := s.cursor.relabel .openLiteral, carried := s.cursor.state }

/-- Styles the identifier that ends at the cursor. -/
def closeIdentifier (c : Cursor src start stop) (words : Dictionary) : Cursor src start stop :=
  let found := words.classify (c.openWord identifierCapacity).spelling
  (c.relabel (found.getD c.state)).setState .plain

/-- Whether a label cannot go on at the cursor for the room that labels have. -/
def pastLabel (s : Scan src start stop) (form : SourceForm) : Bool :=
  match form with
  | .fixed => 4 < s.cursor.column
  | .free => 5 < s.nonBlank

/-- Closes the open token if the byte at the cursor ends it. -/
def closeToken (s : Scan src start stop) (words : Dictionary) (form : SourceForm) :
    Scan src start stop :=
  let c := s.cursor
  match c.state with
  | .operator | .continuation => s.withCursor (c.setState .plain)
  | .number =>
    if isWordChar c.ch || c.ch = '\'' || c.ch = '"' || c.ch = '.' then s
    else s.withCursor (c.setState .plain)
  | .identifier =>
    if isWordChar c.ch && c.ch ≠ '%' then s else s.withCursor (closeIdentifier c words)
  | .comment | .preprocessor => if isLineEnd c.ch then s.withCursor (c.setState .plain) else s
  | .apostropheLiteral =>
    if c.ch ≠ '\'' ∧ c.atLineEnd then s.leaveOpen else s.literalStep '\''
  | .quoteLiteral => if c.atLineEnd then s.leaveOpen else s.literalStep '"'
  | .dottedOperator => if c.ch = '.' then s.withCursor (c.forwardSetState .plain) else s
  | .label => if c.ch.isDigit && !s.pastLabel form then s else s.withCursor (c.setState .plain)
  | .plain | .openLiteral | .keyword | .intrinsic | .extended => s

/-- Opens the token that the byte at the cursor begins. -/
def openToken (s : Scan src start stop) (form : SourceForm) : Scan src start stop :=
  let c := s.cursor
  if c.ch = '!' then s.withCursor (c.setState (commentStyle c directives))
  else if form = .free ∧ c.ch.isDigit ∧ s.nonBlank = 1 then s.withCursor (c.setState .label)
  else if c.ch.isDigit || (c.ch = '.' && c.next.isDigit) then s.withCursor (c.setState .number)
  else if ['b', 'o', 'z'].contains c.ch.toLower && (c.next = '"' || c.next = '\'') then
    s.withCursor (c.setState .number).forward
  else if c.ch = '.' && c.next.isAlpha then s.withCursor (c.setState .dottedOperator)
  else if isWordStart c.ch then s.withCursor (c.setState .identifier)
  else if c.ch = '"' then s.withCursor (c.setState .quoteLiteral)
  else if c.ch = '\'' then s.withCursor (c.setState .apostropheLiteral)
  else if isOperator c.ch then s.withCursor (c.setState .operator)
  else s

/-- Closes and opens tokens at the cursor. -/
def tokenStep (s : Scan src start stop) (words : Dictionary) (form : SourceForm) :
    Scan src start stop :=
  let closed := s.numberSignStep.closeToken words form
  if closed.cursor.state = .plain then closed.openToken form else closed

/-- Handles the byte at the cursor. -/
def step (words : Dictionary) (form : SourceForm) (s : Scan src start stop) : Scan src start stop :=
  let s := s.beginLine.countByte
  match form with
  | .fixed =>
    if s.cursor.column ≤ markColumn ∨ tailColumn ≤ s.cursor.column then s.fixedStep s.cursor.column
    else s.tokenStep words .fixed
  | .free =>
    if s.cursor.ch = '&' ∧ s.cursor.state ≠ .comment then s.ampersandStep.tokenStep words .free
    else s.tokenStep words .free

/-! ## No step moves the cursor back -/

theorem pos_le_skipSpaces (s : Scan src start stop) : s.cursor.pos ≤ s.skipSpaces.cursor.pos := by
  fun_induction skipSpaces s with
  | case1 s _ ih =>
    rw [pos_countByte] at ih
    exact Nat.le_trans (Cursor.pos_le_forward s.cursor) ih
  | case2 => exact Nat.le_refl _

theorem pos_le_skipLeadingMark (c : Cursor src start stop) : c.pos ≤ (skipLeadingMark c).pos := by
  unfold skipLeadingMark
  split
  · exact Cursor.pos_le_forward (c.setState .continuation)
  · exact Nat.le_refl _

theorem pos_le_resumeNextLine (s : Scan src start stop) :
    s.cursor.pos ≤ s.resumeNextLine.cursor.pos := by
  let moved := s.withCursor ((s.cursor.setState .continuation).forwardSetState .plain)
  calc s.cursor.pos
    _ ≤ moved.cursor.pos := Cursor.pos_le_forward (s.cursor.setState .continuation)
    _ ≤ (skipSpaces moved).cursor.pos := pos_le_skipSpaces moved
    _ ≤ (skipLeadingMark (skipSpaces moved).cursor).pos := pos_le_skipLeadingMark _

theorem pos_le_markStep (s : Scan src start stop) : s.cursor.pos ≤ s.markStep.cursor.pos := by
  unfold markStep
  dsimp only
  split
  · exact Nat.le_refl _
  · split
    · exact Nat.le_refl _
    · exact Cursor.pos_le_forward (s.cursor.setState .continuation)

theorem pos_le_fixedStep (s : Scan src start stop) (column : Nat) :
    s.cursor.pos ≤ (s.fixedStep column).cursor.pos := by
  unfold fixedStep
  dsimp only
  split
  · exact Cursor.pos_le_toLineEnd (s.cursor.setState (commentStyle s.cursor fixedDirectives))
  · split
    · exact Cursor.pos_le_toLineEnd (s.cursor.setState .comment)
    · split
      · exact Nat.le_refl _
      · exact pos_le_markStep s

theorem pos_le_ampersandStep (s : Scan src start stop) :
    s.cursor.pos ≤ s.ampersandStep.cursor.pos := by
  unfold ampersandStep
  dsimp only
  split
  · exact Cursor.pos_le_forward (s.cursor.setState .continuation)
  · split
    · exact pos_le_resumeNextLine s
    · exact Nat.le_refl _

theorem pos_le_numberSignStep (s : Scan src start stop) :
    s.cursor.pos ≤ s.numberSignStep.cursor.pos := by
  unfold numberSignStep
  split
  · exact Cursor.pos_le_toLineEnd (s.cursor.setState .preprocessor)
  · exact Nat.le_refl _

theorem pos_le_literalStep (s : Scan src start stop) (quote : Char) :
    s.cursor.pos ≤ (s.literalStep quote).cursor.pos := by
  unfold literalStep
  dsimp only
  split
  · split <;> exact Cursor.pos_le_forward s.cursor
  · exact Nat.le_refl _

theorem pos_le_closeToken (s : Scan src start stop) (words : Dictionary) (form : SourceForm) :
    s.cursor.pos ≤ (s.closeToken words form).cursor.pos := by
  cases state : s.cursor.state <;> simp only [closeToken, state]
  case apostropheLiteral =>
    split
    · exact Nat.le_refl _
    · exact pos_le_literalStep s '\''
  case quoteLiteral =>
    split
    · exact Nat.le_refl _
    · exact pos_le_literalStep s '"'
  case dottedOperator =>
    split
    · exact Cursor.pos_le_forward s.cursor
    · exact Nat.le_refl _
  case number | identifier | comment | preprocessor | label => split <;> exact Nat.le_refl _
  all_goals exact Nat.le_refl _

theorem pos_le_openToken (s : Scan src start stop) (form : SourceForm) :
    s.cursor.pos ≤ (s.openToken form).cursor.pos := by
  have forward := Cursor.pos_le_forward (s.cursor.setState .number)
  rw [Cursor.pos_setState] at forward
  unfold openToken
  grind [cursor_withCursor, Cursor.pos_setState]

theorem pos_le_tokenStep (s : Scan src start stop) (words : Dictionary) (form : SourceForm) :
    s.cursor.pos ≤ (s.tokenStep words form).cursor.pos := by
  have closed : s.cursor.pos ≤ (s.numberSignStep.closeToken words form).cursor.pos :=
    Nat.le_trans (pos_le_numberSignStep s) (pos_le_closeToken _ words form)
  unfold tokenStep
  dsimp only
  split
  · exact Nat.le_trans closed (pos_le_openToken _ form)
  · exact closed

theorem pos_le_step (words : Dictionary) (form : SourceForm) (s : Scan src start stop) :
    s.cursor.pos ≤ (s.step words form).cursor.pos := by
  have begun : s.beginLine.countByte.cursor.pos = s.cursor.pos := by simp
  rw [← begun]
  unfold step
  dsimp only
  split
  · split
    · exact pos_le_fixedStep _ _
    · exact pos_le_tokenStep _ words .fixed
  · split
    · exact Nat.le_trans (pos_le_ampersandStep _) (pos_le_tokenStep _ words .free)
    · exact pos_le_tokenStep _ words .free

/-- Handles byte after byte up to the stop. -/
def run (words : Dictionary) (form : SourceForm) (s : Scan src start stop) : Scan src start stop :=
  if s.cursor.pos < stop then
    let stepped := s.step words form
    run words form (stepped.withCursor stepped.cursor.forward)
  else s
termination_by stop - s.cursor.pos
decreasing_by
  rename_i going
  have moved := pos_le_step words form s
  have ahead := Cursor.pos_forward (s.step words form).cursor
  simp only [cursor_withCursor]
  split at ahead <;> omega

end Scan

end FortranMarkup
