import FortranMarkup.Document.Basic

/-!
# Edits

Inserting and removing bytes keeps the styles of the other bytes, keeps fold levels with their
lines, and takes back the position up to which styles are current to where the text changed.
-/

namespace FortranMarkup

/-- Fits fold levels to the lines after an edit that began on `line`. New lines have the level of
that line, and the levels of lines that are gone are those after it. -/
def realignLevels (levels : Array FoldLevel) (line oldLines newLines : Nat) : Array FoldLevel :=
  let edge := min (line + 1) levels.size
  let levels :=
    if oldLines < newLines then
      levels.extract 0 edge ++ .replicate (newLines - oldLines) (levels[line]?.getD .base) ++
        levels.extract edge levels.size
    else
      levels.extract 0 edge ++ levels.extract (edge + (oldLines - newLines)) levels.size
  levels.extract 0 newLines ++ .replicate (newLines - levels.size) .base

namespace Document

/-- The document with other text, after an edit that began at `pos` on what was `line`. -/
def withText (doc : Document) (bytes : Array UInt8) (styles : Array Style) (line pos : Nat) :
    Document :=
  { doc with
    source := .ofBytes bytes
    styles := styles
    levels := realignLevels doc.levels line doc.source.lines (lineStarts bytes).size
    styledTo := min doc.styledTo pos }

/-- Inserts bytes at a position, or at the end if the position is past it. -/
def insert (doc : Document) (pos : Nat) (bytes : Array UInt8) : Document :=
  let pos := min pos doc.size
  doc.withText
    (doc.source.bytes.extract 0 pos ++ bytes ++ doc.source.bytes.extract pos doc.size)
    (doc.styles.extract 0 pos ++ .replicate bytes.size .plain ++
      doc.styles.extract pos doc.styles.size)
    (doc.source.lineAt pos) pos

/-- Removes the bytes from one position up to another. -/
def delete (doc : Document) (first stop : Nat) : Document :=
  let stop := min stop doc.size
  let first := min first stop
  if first = stop then doc
  else
    doc.withText
      (doc.source.bytes.extract 0 first ++ doc.source.bytes.extract stop doc.size)
      (doc.styles.extract 0 first ++ doc.styles.extract stop doc.styles.size)
      (doc.source.lineAt first) first

/-- Puts bytes in the place of those from one position up to another. -/
def replace (doc : Document) (first stop : Nat) (bytes : Array UInt8) : Document :=
  (doc.delete first stop).insert (min first doc.size) bytes

end Document

end FortranMarkup
