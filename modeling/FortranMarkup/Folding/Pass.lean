import FortranMarkup.Folding.CommentWindow
import FortranMarkup.Folding.Construct
import FortranMarkup.Folding.Rules
import FortranMarkup.Keyword.BoundedWord
import FortranMarkup.Styling.Pass

/-!
# Fold passes

A pass gives lines of a styled document their fold levels. It begins one line before the range it is
asked for, whose stored level tells how deep the source is nested there, and it emits the level of
each line whose line end it reaches. Only those levels change, and those of comments just before.
-/

namespace FortranMarkup

/-- The capacity of the words that fold rules look at. -/
def foldWordCapacity : Nat := 31

/-- What a fold pass reads. -/
structure FoldPass where
  doc : Document
  form : SourceForm
  /-- The style in effect at the start of the document. -/
  outside : Style
  /-- The line with which the pass begins. -/
  firstLine : Nat
  /-- The position before which the pass ends. -/
  stop : Nat

/-- Where a fold pass is on its way. -/
structure FoldState where
  /-- The level number of the current line. -/
  level : Int
  /-- By how many blocks the next line is further in. -/
  change : Int
  /-- Whether the line has shown anything. -/
  visible : Bool
  /-- Whether the line is the one before the range, which gives only context. -/
  isContext : Bool
  /-- The keyword before on the line. -/
  previous : String
  /-- The position at which the word at hand starts. -/
  wordStart : Nat
  window : CommentWindow
  /-- The levels of the lines done, from the first line of the pass on. -/
  emitted : Array FoldLevel
deriving Repr, DecidableEq

namespace FoldPass

/-- Whether comment runs fold. -/
def foldsComments (pass : FoldPass) : Bool :=
  pass.doc.property "fold.comment" 1 ≠ 0

/-- Whether lines that show nothing are marked. -/
def marksWhite (pass : FoldPass) : Bool :=
  pass.doc.property "fold.compact" 1 ≠ 0

/-- The line that a state has reached. -/
def line (pass : FoldPass) (s : FoldState) : Nat :=
  pass.firstLine + s.emitted.size

/-- Whether a keyword can start at a position, going by the style before it. -/
def afterSeparator (pass : FoldPass) (pos : Nat) : Bool :=
  match pass.doc.styleBefore pos pass.outside with
  | .plain | .operator => true
  | .continuation => pass.form = .fixed
  | _ => false

/-- Notes where a keyword or a label starts. -/
def noteStart (pass : FoldPass) (s : FoldState) (pos : Nat) : FoldState :=
  let style := pass.doc.styleAt pos
  if pass.afterSeparator pos ∧ (style = .keyword ∨ style = .label) then
    { s with wordStart := pos }
  else s

/-- Whether the keyword at a position ends there. -/
def endsWord (pass : FoldPass) (pos : Nat) : Bool :=
  pass.doc.styleAt pos = .keyword && isFoldWordChar (pass.doc.source.charD pos ' ') &&
    !isFoldWordChar (pass.doc.source.charD (pos + 1) ' ')

/-- The keyword that ends at a position. -/
def wordAt (pass : FoldPass) (s : FoldState) (pos : Nat) : String :=
  (BoundedWord.ofChars (pass.doc.source.charsD s.wordStart (pos + 1) ' ') :
    BoundedWord foldWordCapacity).spelling

/-- Applies the rules to a keyword that ends at a position. -/
def applyWord (pass : FoldPass) (s : FoldState) (pos : Nat) (word : String) : FoldState :=
  if word = "forall" ∨ (word = "where" ∧ s.previous ≠ "else") then
    if s.previous ≠ "end" ∧ pass.doc.opensBlock pass.form pass.stop (pass.line s) pos then
      { s with change := s.change + 1 }
    else s
  else
    let after := pass.doc.source.skipWhile isBlank pass.stop (pos + 1)
    let next := pass.doc.source.charD after ' '
    let effect := foldEffect word s.previous next (isLineEnd next || after = pass.stop)
    { s with
      change := s.change + effect.change
      level := if effect.dedent && !s.isContext then s.level - 1 else s.level }

/-- Looks at the keyword that ends at a position, if one does. -/
def wordStep (pass : FoldPass) (s : FoldState) (pos : Nat) : FoldState :=
  if pass.endsWord pos then
    let word := pass.wordAt s pos
    { pass.applyWord s pos word with previous := word }
  else s

/-- Emits the level of the current line and goes on to the next one. -/
def endLine (pass : FoldPass) (s : FoldState) : FoldState :=
  let change := if pass.foldsComments then s.change + s.window.foldChange else s.change
  let flags : FoldFlags := ⟨!s.visible && pass.marksWhite, 0 < change && s.visible⟩
  let emitted := s.emitted.push (FoldLevel.withFlags ⟨s.level⟩ flags)
  { level := s.level + change
    change := 0
    visible := false
    isContext := false
    previous := ""
    wordStart := s.wordStart
    window :=
      if pass.foldsComments then
        s.window.advance pass.doc.source pass.form (pass.firstLine + emitted.size)
      else s.window
    emitted := emitted }

/-- Handles the byte at a position. -/
def step (pass : FoldPass) (s : FoldState) (pos : Nat) : FoldState :=
  let s := pass.wordStep (pass.noteStart s pos) pos
  if endsLineAt pass.doc.source.bytes pos then pass.endLine s
  else if isSpace (pass.doc.source.charD pos ' ') then s
  else { s with visible := true }

/-- Handles the bytes from a position up to the stop. -/
def run (pass : FoldPass) (s : FoldState) (start : Nat) : FoldState :=
  (List.range' start (pass.stop - start)).foldl pass.step s

end FoldPass

namespace Document

/-- Recomputes the fold levels of the lines of a range, given the style that is in effect at the
start of the document. A pass from the first line begins at the base level whatever levels are
stored. -/
def foldRange (doc : Document) (form : SourceForm) (start length : Nat) (outside : Style) :
    Document :=
  let startLine := doc.source.lineAt start
  let pass : FoldPass := ⟨doc, form, outside, startLine - 1, min (start + length) doc.size⟩
  let window :=
    if pass.foldsComments then CommentWindow.around doc.source form pass.firstLine else .empty
  let levels := if pass.foldsComments then window.recheck doc.levels pass.firstLine else doc.levels
  let level : FoldLevel := if startLine = 0 then .base else levels[pass.firstLine]?.getD .base
  let first := doc.source.lineStart pass.firstLine
  let begun : FoldState :=
    ⟨level.number, 0, false, startLine ≠ 0, "", first, window, #[]⟩
  { doc with levels := overwrite levels pass.firstLine (pass.run begun first).emitted.toList }

end Document

end FortranMarkup
