import FortranMarkup.Styling.Scan

/-!
# Styling passes

A pass styles a range of a document. It begins at the restart position of the range, so that styling
after a small edit has the result of styling everything, and it writes nothing but the styles from
there to the end of the range.
-/

namespace FortranMarkup

/-- The styles of the bytes from a line start up to a stop. -/
def Source.stylesFrom (src : Source) (words : Dictionary) (form : SourceForm) (start stop : Nat)
    (state : Style) : List Style :=
  let begun : Scan src start (src.walkEnd stop) :=
    ⟨.atStart src start (src.walkEnd stop) state, 0, .plain⟩
  (begun.run words form).cursor.paint.styles

namespace Document

/-- The style before a position; the given one at the start of the document. -/
def styleBefore (doc : Document) (pos : Nat) (outside : Style) : Style :=
  if pos = 0 then outside else doc.styleAt (pos - 1)

/-- Styles a range, given the style that is in effect at the start of the document. -/
def styleRange (doc : Document) (words : Dictionary) (form : SourceForm) (start length : Nat)
    (outside : Style) : Document :=
  let stop := min (start + length) doc.size
  let restart := doc.restartPosition form (min start stop)
  let styles := doc.source.stylesFrom words form restart stop (doc.styleBefore restart outside)
  { doc with styles := overwrite doc.styles restart styles }

end Document

end FortranMarkup
