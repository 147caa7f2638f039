import FortranMarkup.Folding.Level
import FortranMarkup.Source.Basic
import FortranMarkup.Style.Basic

/-!
# Documents

A `Document` is source together with what is known of it: a style for every byte, a fold level for
every line, whole numbers kept under names, and the position up to which styles are current.

Reading and writing are total. What lies outside the document reads as plain style and base level,
and writing there has no effect.
-/

namespace FortranMarkup

/-- Puts values into an array from a position on, as far as the array reaches. -/
def overwrite {α : Type} (values : Array α) (pos : Nat) : List α → Array α
  | [] => values
  | value :: rest => overwrite (values.setIfInBounds pos value) (pos + 1) rest

@[simp] theorem size_overwrite {α : Type} (values : Array α) (pos : Nat) (news : List α) :
    (overwrite values pos news).size = values.size := by
  induction news generalizing values pos with
  | nil => rfl
  | cons value rest ih => simp [overwrite, ih]

/-- Source with its styles, fold levels and properties. -/
structure Document where
  source : Source
  styles : Array Style
  levels : Array FoldLevel
  properties : List (String × Int)
  /-- Every byte before this position has a current style. -/
  styledTo : Nat
deriving Repr, DecidableEq

namespace Document

/-- A document of which nothing is known yet. -/
def ofBytes (bytes : Array UInt8) : Document where
  source := .ofBytes bytes
  styles := .replicate bytes.size .plain
  levels := .replicate (lineStarts bytes).size .base
  properties := []
  styledTo := 0

/-- The number of bytes. -/
def size (doc : Document) : Nat :=
  doc.source.size

/-- The style of the byte at a position. -/
def styleAt (doc : Document) (pos : Nat) : Style :=
  doc.styles[pos]?.getD .plain

/-- The styles of the bytes from one position up to another. -/
def stylesIn (doc : Document) (first stop : Nat) : List Style :=
  (doc.styles.extract first stop).toList

/-- The fold level of a line. -/
def levelAt (doc : Document) (line : Nat) : FoldLevel :=
  doc.levels[line]?.getD .base

/-- The value kept under a name, or the given one if there is none. -/
def property (doc : Document) (key : String) (unset : Int) : Int :=
  (doc.properties.lookup key).getD unset

/-- Gives the bytes from one position up to another a style. -/
def paint (doc : Document) (first stop : Nat) (style : Style) : Document :=
  let length := min stop doc.styles.size - first
  { doc with styles := overwrite doc.styles first (.replicate length style) }

/-- Gives a line a fold level. -/
def setLevel (doc : Document) (line : Nat) (level : FoldLevel) : Document :=
  { doc with levels := doc.levels.setIfInBounds line level }

/-- Keeps a value under a name. -/
def setProperty (doc : Document) (key : String) (value : Int) : Document :=
  { doc with properties := (key, value) :: doc.properties.filter (·.1 ≠ key) }

/-- Declares the styles before a position current. -/
def setStyledTo (doc : Document) (pos : Nat) : Document :=
  { doc with styledTo := min pos doc.size }

end Document

end FortranMarkup
