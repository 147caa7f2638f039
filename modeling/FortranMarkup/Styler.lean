import FortranMarkup.Document.Edit
import FortranMarkup.Folding.Pass
import FortranMarkup.Style.Span

/-!
# Stylers

A `Styler` keeps documents styled and folded in one source form with one dictionary. It works on
demand: a document remembers up to where it is current, and the styler goes on from there to the
line that is asked for.
-/

namespace FortranMarkup

/-- The source form and the words with which documents are styled. -/
structure Styler where
  form : SourceForm := .free
  words : Dictionary := .fortran

namespace Styler

/-- The styler with the words of the language, in the form that the name of a file tells. -/
def forPath (path : String) : Styler where
  form := (SourceForm.ofPath? path).getD .free

/-- Styles and folds a range of whole lines. -/
def refresh (styler : Styler) (doc : Document) (start stop : Nat) : Document :=
  let before := doc.styleBefore start .plain
  let styled := doc.styleRange styler.words styler.form start (stop - start) before
  (styled.foldRange styler.form start (stop - start) before).setStyledTo stop

/-- Makes styles and levels current to the end of the line of a position. -/
def ensure (styler : Styler) (doc : Document) (pos : Nat) : Document :=
  let stop := min (doc.source.lineEnd (doc.source.lineAt pos)) doc.size
  let start := doc.source.lineStart (doc.source.lineAt doc.styledTo)
  if stop ≤ start then doc else styler.refresh doc start stop

/-- Styles and folds all of a document afresh. -/
def restyle (styler : Styler) (doc : Document) : Document :=
  styler.ensure (doc.setStyledTo 0) doc.size

/-- Changes the source form. In another form, nothing that is styled is current any more. -/
def setForm (styler : Styler) (doc : Document) (form : SourceForm) : Styler × Document :=
  if styler.form = form then (styler, doc) else ({ styler with form := form }, doc.setStyledTo 0)

/-- The style runs of a line, which is made current first. -/
def spans (styler : Styler) (doc : Document) (line : Nat) : List Span × Document :=
  let start := doc.source.lineStart line
  let stop := doc.source.lineEnd line
  if stop ≤ start then ([], doc)
  else
    let styled := styler.ensure doc start
    (Span.runs start (styled.stylesIn start stop), styled)

/-- The style runs of some lines in turn, each with its line. -/
def spansOfLines (styler : Styler) : List Nat → Document → List (Nat × List Span) × Document
  | [], doc => ([], doc)
  | line :: rest, doc =>
    let (first, styled) := styler.spans doc line
    let (others, done) := styler.spansOfLines rest styled
    ((line, first) :: others, done)

end Styler

end FortranMarkup
