import FortranMarkup.Document.Basic
import FortranMarkup.Source.Form

/-!
# Where styling restarts

A styling pass may be asked to start anywhere. It goes back to the start of a statement: to the line
of a keyword near by, and from there over every line that continues an earlier one.
`restartPosition` finds that line start.
-/

namespace FortranMarkup

/-- The column that holds the continuation mark of a line in fixed form. -/
def markColumn : Nat := 5

/-- The first column after the statement in fixed form. -/
def tailColumn : Nat := 72

/-- The most lines that a pass goes back over a continued statement. -/
def maxContinuationLines : Nat := 255

namespace Source

/-- The character in a column of the line that starts at a position; past the end of the source it
is a line feed. -/
def columnChar (src : Source) (start column : Nat) : Char :=
  src.charD (start + column) '\n'

/-- Whether the line in fixed form that starts at a position begins with a comment letter. -/
def hasCommentLetter (src : Source) (start : Nat) : Bool :=
  (src.columnChar start 0).toLower = 'c' || src.columnChar start 0 = '*'

/-- Whether a character ends the columns in front of the mark: a comment begins there, or the line
ends. -/
def endsLeadColumns (c : Char) : Bool :=
  c = '!' || isLineEnd c

/-- Whether the line in fixed form that starts at a position has no statement: it is a comment, or
it ends before the column of the mark. -/
def isFixedComment (src : Source) (start : Nat) : Bool :=
  src.hasCommentLetter start ||
    (List.range markColumn).any (fun column => endsLeadColumns (src.columnChar start column)) ||
    src.columnChar start markColumn = '!'

/-- Whether a character in the column of the mark continues the statement of an earlier line. -/
def isMark (c : Char) : Bool :=
  !isSpace c && c ≠ '0' && c ≠ '!'

/-- Whether the line in fixed form that starts at a position continues a statement. -/
def isFixedContinuation (src : Source) (start : Nat) : Bool :=
  start ≠ 0 && !src.hasCommentLetter start &&
    !(List.range markColumn).any (fun column => endsLeadColumns (src.columnChar start column)) &&
    isMark (src.columnChar start markColumn)

/-- The last position before `stop`, and from `first` on, that does not hold a space character. -/
def lastVisible? (src : Source) (first : Nat) : Nat → Option Nat
  | 0 => none
  | pos + 1 =>
    if pos < first then none
    else if isSpace (src.charD pos ' ') then src.lastVisible? first pos
    else some pos

end Source

namespace Document

/-- The line before a line in fixed form that continues a statement or stands inside one as a
comment. -/
def fixedPrevious? (doc : Document) : Nat → Option Nat
  | 0 => none
  | line + 1 =>
    let start := doc.source.lineStart (line + 1)
    if doc.source.isFixedContinuation start || doc.source.isFixedComment start then some line
    else none

/-- The nearest line before a line in free form that shows anything, if it ends with a continuation
mark outside a comment. -/
def freePrevious? (doc : Document) : Nat → Option Nat
  | 0 => none
  | line + 1 =>
    match doc.source.lastVisible? (doc.source.lineStart line) (doc.source.lineEnd line) with
    | some pos =>
      if doc.source.charD pos ' ' = '&' ∧ doc.styleAt pos ≠ .comment then some line else none
    | none => doc.freePrevious? line

/-- The line that a line continues. -/
def previous? (doc : Document) (form : SourceForm) (line : Nat) : Option Nat :=
  match form with
  | .fixed => doc.fixedPrevious? line
  | .free => doc.freePrevious? line

/-- Goes back over continued lines, a bounded number of times. -/
def statementLine (doc : Document) (form : SourceForm) : Nat → Nat → Nat
  | 0, line => line
  | hops + 1, line =>
    match doc.previous? form line with
    | some previous => doc.statementLine form hops previous
    | none => line

/-- The last position from `floor` on, and not after `pos`, that has the style of a keyword. The
position `pos` itself counts also below `floor`. -/
def keywordBefore? (doc : Document) (floor : Nat) : Nat → Option Nat
  | 0 => if doc.styleAt 0 = .keyword then some 0 else none
  | pos + 1 =>
    if doc.styleAt (pos + 1) = .keyword then some (pos + 1)
    else if floor < pos + 1 then doc.keywordBefore? floor pos
    else none

/-- The line of the nearest keyword before a position, looked for as far back as the line before, or
else the line of the position. -/
def nearLine (doc : Document) (start : Nat) : Nat :=
  let startLine := doc.source.lineAt start
  match doc.keywordBefore? (doc.source.lineStart (startLine - 1)) start with
  | some pos => doc.source.lineAt pos
  | none => startLine

/-- The line with which a pass begins that is asked to start at `start`: a near one, and from there
back over continued lines. -/
def restartLine (doc : Document) (form : SourceForm) (start : Nat) : Nat :=
  doc.statementLine form maxContinuationLines (doc.nearLine start)

/-- The position at which a pass begins that is asked to start at `start`. -/
def restartPosition (doc : Document) (form : SourceForm) (start : Nat) : Nat :=
  doc.source.lineStart (doc.restartLine form start)

end Document

end FortranMarkup
