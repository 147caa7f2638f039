import FortranMarkup.Document.Basic
import FortranMarkup.Source.Form

/-!
# Constructs and statements

`forall (…)` and `where (…)` open a block if the statement ends after the parenthesis; with a body
after it they are statements that open none. The parenthesis, and what follows it, can be broken
over lines, so the answer takes a scan of the styled source.

Main statement: the scan in free form never steps back (`le_continuedText`), and in fixed form it
moves on by lines where it does, so both end.
-/

namespace FortranMarkup

/-- The position of the byte that continues the line of a position: the first one on the next line
that is not blank, and not a leading continuation mark. -/
def Source.continuedText (src : Source) (pos : Nat) : Nat :=
  let atEnd := src.skipWhile (fun c => !isLineEnd c) src.size pos
  let afterReturn := if src.charD atEnd ' ' = '\r' then atEnd + 1 else atEnd
  let afterFeed := if src.charD afterReturn ' ' = '\n' then afterReturn + 1 else afterReturn
  let text := src.skipWhile isBlank src.size afterFeed
  if src.charD text ' ' = '&' then src.skipWhile isBlank src.size (text + 1) else text

theorem Source.le_continuedText (src : Source) (pos : Nat) : pos ≤ src.continuedText pos := by
  unfold continuedText
  dsimp only
  generalize atEndEq : src.skipWhile (fun c => !isLineEnd c) src.size pos = atEnd
  have atEndLe : pos ≤ atEnd := atEndEq ▸ src.le_skipWhile _ _ _
  generalize returnEq : (if src.charD atEnd ' ' = '\r' then atEnd + 1 else atEnd) = afterReturn
  have returnLe : atEnd ≤ afterReturn := by grind
  generalize feedEq :
    (if src.charD afterReturn ' ' = '\n' then afterReturn + 1 else afterReturn) = afterFeed
  have feedLe : afterReturn ≤ afterFeed := by grind
  have textLe := src.le_skipWhile isBlank src.size afterFeed
  split
  · have markLe := src.le_skipWhile isBlank src.size (src.skipWhile isBlank src.size afterFeed + 1)
    omega
  · omega

namespace Document

/-- The position of the parenthesis that closes `depth` open ones, looked for after `pos` among the
bytes of one style; `stop` if there is none. -/
def closingParenthesis (doc : Document) (style : Style) (stop pos depth : Nat) : Nat :=
  if pos < stop then
    if doc.styleAt (pos + 1) = style then
      match doc.source.charD (pos + 1) ' ' with
      | '(' => doc.closingParenthesis style stop (pos + 1) (depth + 1)
      | ')' =>
        if depth ≤ 1 then pos + 1 else doc.closingParenthesis style stop (pos + 1) (depth - 1)
      | _ => doc.closingParenthesis style stop (pos + 1) depth
    else doc.closingParenthesis style stop (pos + 1) depth
  else pos
termination_by stop - pos

/-- Whether a position shows nothing of a statement: a blank or part of a comment, but no line end.
-/
def isFiller (doc : Document) (pos : Nat) : Bool :=
  !isLineEnd (doc.source.charD pos ' ') &&
    (doc.styleAt pos = .comment || isBlank (doc.source.charD pos ' '))

/-- Whether a statement in free form ends after a position without showing anything more. -/
def endsFree (doc : Document) (stop pos : Nat) : Bool :=
  if pos < stop then
    let c := doc.source.charD (pos + 1) ' '
    if doc.isFiller (pos + 1) then doc.endsFree stop (pos + 1)
    else if c = '&' ∧ doc.styleAt (pos + 1) = .continuation then
      doc.endsFree stop (doc.source.continuedText (pos + 2) - 1)
    else isLineEnd c
  else false
termination_by stop - pos
decreasing_by
  · omega
  · have := doc.source.le_continuedText (pos + 2)
    omega

/-- Whether a line in fixed form has a continuation mark, going by the style in its column. -/
def isStyledContinuation (doc : Document) (line : Nat) : Bool :=
  let pos := doc.source.lineStart line + 5
  let c := doc.source.charD pos ' '
  doc.styleAt pos = .continuation && !isBlank c && c ≠ '0'

/-- Whether a statement in fixed form ends after a position, on what counts as the line `line`,
without showing anything more. The lines after that one are tried in turn for a mark that continues
the statement. -/
def endsFixed (doc : Document) (stop line pos : Nat) : Bool :=
  if pos < stop then
    if doc.isFiller (pos + 1) then doc.endsFixed stop line (pos + 1)
    else if !isLineEnd (doc.source.charD (pos + 1) ' ') then false
    else if line + 1 < doc.source.lineCount then
      if doc.isStyledContinuation (line + 1) then
        doc.endsFixed stop (line + 1) (doc.source.lineStart (line + 1) + 5)
      else true
    else doc.endsFixed stop line (pos + 1)
  else false
termination_by (doc.source.lineCount - line) * (stop + 1) + (stop - pos)
decreasing_by
  · omega
  · rename_i inside _ _ earlier _
    obtain ⟨more, left⟩ : ∃ more, doc.source.lineCount - line = more + 1 :=
      ⟨doc.source.lineCount - line - 1, by omega⟩
    have one : doc.source.lineCount - (line + 1) = more := by omega
    rw [left, one, Nat.succ_mul]
    omega
  · omega

/-- Whether `forall` or `where`, ending at a position of a line, opens a block: nothing but blanks
and a comment is between its parenthesis and the end of the statement. -/
def opensBlock (doc : Document) (form : SourceForm) (stop line pos : Nat) : Bool :=
  let opening := doc.source.skipWhile (· ≠ '(') stop (pos + 1)
  let closing := doc.closingParenthesis (doc.styleAt opening) stop opening 1
  match form with
  | .fixed => doc.endsFixed stop line closing
  | .free => doc.endsFree stop closing

end Document

end FortranMarkup
