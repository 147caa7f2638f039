import FortranMarkup.Document.Basic
import FortranMarkup.Source.Form

/-!
# Comment blocks

Whole-line comments in one column fold like a block if there are enough of them in a row. A
`CommentWindow` holds the comment columns of the lines around the current one; it is built where a
fold pass begins and moves on line by line.
-/

namespace FortranMarkup

/-- How many lines before the current one, and how many after it, a window holds. -/
def windowReach : Nat := 3

/-- The fewest comment lines in a row that fold. -/
def minCommentRun : Nat := 3

namespace Source

/-- The column of the first comment mark on a line in front of which there are only blanks, counted
from a position in a column. -/
def commentColumnFrom? (src : Source) (form : SourceForm) (pos column : Nat) : Option Nat :=
  if pos < src.size then
    let c := src.charD pos ' '
    if c = '!' ∨ (form = .fixed ∧ column = 0 ∧ (c.toLower = 'c' ∨ c = '*')) then some column
    else if isBlank c then src.commentColumnFrom? form (pos + 1) (column + 1)
    else none
  else none
termination_by src.size - pos

/-- The column of the comment mark of a line that is a comment as a whole. -/
def commentColumn? (src : Source) (form : SourceForm) (line : Nat) : Option Nat :=
  src.commentColumnFrom? form (src.lineStart line) 0

end Source

/-- The comment columns of the lines around the current one, from the earliest to the latest. -/
structure CommentWindow where
  columns : List (Option Nat)
deriving Repr, DecidableEq

namespace CommentWindow

/-- The window that knows of no comment. -/
def empty : CommentWindow :=
  ⟨List.replicate (2 * windowReach + 1) none⟩

/-- The comment column of the line some lines after the current one, or before it. -/
def at? (window : CommentWindow) (offset : Int) : Option Nat :=
  if offset + windowReach < 0 then none else window.columns[(offset + windowReach).toNat]?.getD none

/-- The comment column of the current line. -/
def current? (window : CommentWindow) : Option Nat :=
  window.at? 0

/-- Forgets the earliest line and adds a later one. -/
def shift (window : CommentWindow) (column : Option Nat) : CommentWindow :=
  ⟨window.columns.drop 1 ++ [column]⟩

/-- The comment columns of so many lines before a line, the nearest one first. After a line that is
no comment, nothing is looked up. -/
def columnsBefore (src : Source) (form : SourceForm) : Nat → Nat → List (Option Nat)
  | 0, _ => []
  | count + 1, 0 => List.replicate (count + 1) none
  | count + 1, line + 1 =>
    match src.commentColumn? form line with
    | some column => some column :: columnsBefore src form count line
    | none => List.replicate (count + 1) none

/-- The comment column of a line, if the line has any byte. -/
def ahead? (src : Source) (form : SourceForm) (line : Nat) : Option Nat :=
  if line < src.lineCount then src.commentColumn? form line else none

/-- The window around a line. -/
def around (src : Source) (form : SourceForm) (line : Nat) : CommentWindow :=
  ⟨(columnsBefore src form windowReach line).reverse ++ src.commentColumn? form line ::
    (List.range windowReach).map (fun i => ahead? src form (line + 1 + i))⟩

/-- Moves on to a line; past the last line the window stays. -/
def advance (window : CommentWindow) (src : Source) (form : SourceForm) (line : Nat) :
    CommentWindow :=
  if line < src.lineCount then window.shift (ahead? src form (line + windowReach)) else window

/-- By how many blocks the comments take the lines after the current one further in: a run begins on
its first line and ends on its last one. -/
def foldChange (window : CommentWindow) : Int :=
  match window.current? with
  | none => 0
  | some column =>
    let aligned (offset : Int) : Bool := window.at? offset = some column
    let others := List.range' 1 (minCommentRun - 1)
    if !aligned 1 then
      if others.all (fun i => aligned (-i)) then -1 else 0
    else if !aligned (-1) && others.all (fun i => aligned i) then 1
    else 0

/-! ## Levels of the lines before the current one -/

/-- Whether a comment run begins so many lines before the current one. -/
def begins (window : CommentWindow) (back : Nat) : Bool :=
  (window.at? (-back)).isSome && window.at? (-back - 1) ≠ window.at? (-back)

/-- Whether the run that begins so many lines before the current one is long enough to fold. -/
def folds (window : CommentWindow) (back : Nat) : Bool :=
  (List.range' 1 (minCommentRun - 1)).all (fun i => window.at? (i - back) = window.at? (-back))

/-- Sets right the levels of the lines that are so far before `line`, from the earliest on; `run?`
is the level number of the comment run at hand. A run that folds opens a block, and all lines up to
`line` are in it. The comments of other runs have the level number of the first of them. -/
def recheckLines (window : CommentWindow) (line : Nat) :
    List Nat → Array FoldLevel → Option Int → Array FoldLevel
  | [], levels, _ => levels
  | back :: rest, levels, run? =>
    let current := line - back
    let number := (levels[current]?.getD .base).number
    if line < back then window.recheckLines line rest levels run?
    else if window.begins back then
      if window.folds back then
        let opened := levels.setIfInBounds current (FoldLevel.withFlags ⟨number⟩ ⟨false, true⟩)
        overwrite opened (current + 1) (.replicate back ⟨number + 1⟩)
      else window.recheckLines line rest (levels.setIfInBounds current ⟨number⟩) (some number)
    else
      match run?, window.at? (-back) with
      | some first, some _ =>
        window.recheckLines line rest (levels.setIfInBounds current ⟨first⟩) (some first)
      | _, _ => window.recheckLines line rest levels run?

/-- Sets right the levels of the lines that lead up to a line, where a comment run may stretch over
the beginning of a pass. -/
def recheck (window : CommentWindow) (levels : Array FoldLevel) (line : Nat) : Array FoldLevel :=
  window.recheckLines line (List.range windowReach).reverse levels none

end CommentWindow

end FortranMarkup
