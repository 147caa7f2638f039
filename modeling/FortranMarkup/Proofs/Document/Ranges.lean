import FortranMarkup.Proofs.Document.Edit

/-!
# Ranges that lie in their arrays

What an edit does to the arrays of a document it does to ranges of them. The operations on ranges here
have a result only if the range lies in the array, and a difference has one only if it is not
negative. Written with them, each edit of a fitting document still has a result, and it is that of
the edit (`Document.insert?_eq`, `delete?_eq`, `replace?_eq`, `paint?_eq`): nothing is out of range.
-/

namespace FortranMarkup

/-! ## Operations on ranges -/

section Ranges

variable {α : Type}

/-- The difference of two numbers, if it is not negative. -/
def sub? (a b : Nat) : Option Nat :=
  if b ≤ a then some (a - b) else none

/-- The values in a range. -/
def slice? (values : Array α) (first stop : Nat) : Option (Array α) :=
  if first ≤ stop ∧ stop ≤ values.size then some (values.extract first stop) else none

/-- The array with new values in the place of those in a range. -/
def splice? (values : Array α) (first stop : Nat) (news : Array α) : Option (Array α) :=
  if first ≤ stop ∧ stop ≤ values.size then
    some (values.extract 0 first ++ news ++ values.extract stop values.size)
  else none

/-- The array without the values in a range. -/
def drain? (values : Array α) (first stop : Nat) : Option (Array α) :=
  if first ≤ stop ∧ stop ≤ values.size then
    some (values.extract 0 first ++ values.extract stop values.size)
  else none

/-- The array with one value everywhere in a range. -/
def fill? (values : Array α) (first stop : Nat) (value : α) : Option (Array α) :=
  if first ≤ stop ∧ stop ≤ values.size then
    some (overwrite values first (.replicate (stop - first) value))
  else none

variable {values news : Array α} {first stop : Nat}

theorem sub?_of_le {a b : Nat} (le : b ≤ a) : sub? a b = some (a - b) :=
  if_pos le

theorem slice?_of_le (le : first ≤ stop) (inside : stop ≤ values.size) :
    slice? values first stop = some (values.extract first stop) :=
  if_pos ⟨le, inside⟩

theorem splice?_of_le (le : first ≤ stop) (inside : stop ≤ values.size) :
    splice? values first stop news =
      some (values.extract 0 first ++ news ++ values.extract stop values.size) :=
  if_pos ⟨le, inside⟩

theorem drain?_of_le (le : first ≤ stop) (inside : stop ≤ values.size) :
    drain? values first stop = some (values.extract 0 first ++ values.extract stop values.size) :=
  if_pos ⟨le, inside⟩

theorem fill?_of_le (value : α) (le : first ≤ stop) (inside : stop ≤ values.size) :
    fill? values first stop value =
      some (overwrite values first (.replicate (stop - first) value)) :=
  if_pos ⟨le, inside⟩

theorem extract_min_size (values : Array α) (first : Nat) :
    values.extract (min first values.size) values.size = values.extract first values.size := by
  rcases Nat.le_total first values.size with le | le
  · rw [Nat.min_eq_left le]
  · rw [Nat.min_eq_right le, Array.extract_empty_of_size_le_start (Nat.le_refl _),
      Array.extract_empty_of_size_le_start le]

end Ranges

/-! ## Edits -/

/-- `realignLevels` within range. -/
def realignLevels? (levels : Array FoldLevel) (line oldLines newLines : Nat) :
    Option (Array FoldLevel) := do
  let edge := min (line + 1) levels.size
  let aligned ←
    if oldLines < newLines then do
      let added ← sub? newLines oldLines
      splice? levels edge edge (.replicate added (levels[line]?.getD .base))
    else if newLines < oldLines then do
      let past ← sub? (edge + oldLines) newLines
      drain? levels edge (min past levels.size)
    else some levels
  some (aligned.extract 0 newLines ++ .replicate (newLines - aligned.size) .base)

theorem realignLevels?_eq (levels : Array FoldLevel) (line oldLines newLines : Nat) :
    realignLevels? levels line oldLines newLines =
      some (realignLevels levels line oldLines newLines) := by
  unfold realignLevels? realignLevels
  dsimp only
  generalize edgeEq : min (line + 1) levels.size = edge
  have inside : edge ≤ levels.size := by omega
  split
  · rename_i more
    rw [sub?_of_le (Nat.le_of_lt more), Option.bind_eq_bind, Option.bind_some,
      splice?_of_le (Nat.le_refl edge) inside]
    rfl
  · split
    · rename_i fewer
      rw [sub?_of_le (by omega), Option.bind_eq_bind, Option.bind_some,
        drain?_of_le (by omega) (Nat.min_le_right _ _)]
      rw [Nat.add_sub_assoc (Nat.le_of_lt fewer), extract_min_size]
      rfl
    · obtain rfl : oldLines = newLines := by omega
      rw [Nat.sub_self, Nat.add_zero, Array.extract_append_extract, Nat.zero_min,
        Nat.max_eq_right inside, Array.extract_size]
      rfl

namespace Document

variable {doc : Document}

/-- `withText` within range. -/
def withText? (doc : Document) (bytes : Array UInt8) (styles : Array Style) (line pos : Nat) :
    Option Document := do
  let levels ← realignLevels? doc.levels line doc.source.lines (lineStarts bytes).size
  some { doc with
    source := .ofBytes bytes, styles := styles, levels := levels, styledTo := min doc.styledTo pos }

theorem withText?_eq (doc : Document) (bytes : Array UInt8) (styles : Array Style) (line pos : Nat) :
    doc.withText? bytes styles line pos = some (doc.withText bytes styles line pos) := by
  rw [withText?, realignLevels?_eq]
  rfl

/-- `insert` within range. -/
def insert? (doc : Document) (pos : Nat) (bytes : Array UInt8) : Option Document := do
  let pos := min pos doc.size
  let text ← splice? doc.source.bytes pos pos bytes
  let styles ← splice? doc.styles pos pos (.replicate bytes.size .plain)
  doc.withText? text styles (doc.source.lineAt pos) pos

/-- `delete` within range. -/
def delete? (doc : Document) (first stop : Nat) : Option Document := do
  let stop := min stop doc.size
  let first := min first stop
  if first = stop then some doc
  else
    let text ← drain? doc.source.bytes first stop
    let styles ← drain? doc.styles first stop
    doc.withText? text styles (doc.source.lineAt first) first

/-- `replace` within range. -/
def replace? (doc : Document) (first stop : Nat) (bytes : Array UInt8) : Option Document := do
  let rest ← doc.delete? first stop
  rest.insert? (min first doc.size) bytes

/-- `paint` within range. -/
def paint? (doc : Document) (first stop : Nat) (style : Style) : Option Document := do
  let stop := min stop doc.styles.size
  let first := min first stop
  let styles ← fill? doc.styles first stop style
  some { doc with styles := styles }

theorem insert?_eq (fits : doc.Fits) (pos : Nat) (bytes : Array UInt8) :
    doc.insert? pos bytes = some (doc.insert pos bytes) := by
  have inside : min pos doc.size ≤ doc.source.bytes.size := Nat.min_le_right _ _
  have inStyles : min pos doc.size ≤ doc.styles.size := fits.styles ▸ Nat.min_le_right _ _
  unfold insert?
  dsimp only
  rw [splice?_of_le (Nat.le_refl _) inside, Option.bind_eq_bind, Option.bind_some,
    splice?_of_le (Nat.le_refl _) inStyles, Option.bind_eq_bind, Option.bind_some, withText?_eq]
  rfl

theorem delete?_eq (fits : doc.Fits) (first stop : Nat) :
    doc.delete? first stop = some (doc.delete first stop) := by
  have le : min first (min stop doc.size) ≤ min stop doc.size := Nat.min_le_right _ _
  have inside : min stop doc.size ≤ doc.source.bytes.size := Nat.min_le_right _ _
  have inStyles : min stop doc.size ≤ doc.styles.size := fits.styles ▸ Nat.min_le_right _ _
  unfold delete? delete
  dsimp only
  split
  · rfl
  · rw [drain?_of_le le inside, Option.bind_eq_bind, Option.bind_some, drain?_of_le le inStyles,
      Option.bind_eq_bind, Option.bind_some, withText?_eq]
    rfl

theorem fits_delete (fits : doc.Fits) (first stop : Nat) : (doc.delete first stop).Fits := by
  rcases delete_eq_or_editedFrom fits first stop with same | ⟨pos, edited⟩
  · rw [same]
    exact fits
  · exact edited.fits

theorem replace?_eq (fits : doc.Fits) (first stop : Nat) (bytes : Array UInt8) :
    doc.replace? first stop bytes = some (doc.replace first stop bytes) := by
  rw [replace?, delete?_eq fits, Option.bind_eq_bind, Option.bind_some,
    insert?_eq (fits_delete fits first stop)]
  rfl

theorem paint?_eq (doc : Document) (first stop : Nat) (style : Style) :
    doc.paint? first stop style = some (doc.paint first stop style) := by
  unfold paint? paint
  dsimp only
  rw [fill?_of_le style (Nat.min_le_right _ _) (Nat.min_le_right _ _), Option.bind_eq_bind,
    Option.bind_some]
  rcases Nat.le_total first (min stop doc.styles.size) with le | le
  · rw [Nat.min_eq_left le]
  · rw [Nat.min_eq_right le, Nat.sub_self, Nat.sub_eq_zero_of_le le]
    rfl

end Document

end FortranMarkup
