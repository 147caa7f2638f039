import FortranMarkup.Proofs.Folding.LastLine
import FortranMarkup.Proofs.Styler.Respelling
import FortranMarkup.Proofs.Styling.ContinuationLines

/-!
# Restyling a text and a line end for its last line

A text whose last line has no line end has the levels of the same text with a line feed there but for
two things (`Styler.number_restyle_of_endsLast`). A `forall` or `where` whose statement goes on up to
the end of the text opens a block only where a line feed ends the text, and the lines after it are one
block further in there; this is so for no text that ends in a name, a number or a literal. And the last
line without a line end is given no level: it keeps the one that is stored, which for a text just opened
is that of a line outside every block (`Styler.not_number_restyle_unendedLoop`).
-/

namespace FortranMarkup

theorem Document.number_rechecked_zero {doc : Document} (table : doc.source.Tabled)
    (form : SourceForm) (outside : Style) :
    ((doc.rechecked form outside 0).levelAt 0).number = (doc.levelAt 0).number := by
  unfold rechecked levelAt
  rw [Source.lineAt_zero table]
  dsimp only
  split
  · exact CommentWindow.number_recheck_zero _ _
  · rfl

namespace Styler

variable {styler : Styler} {doc doc₁ doc₂ : Document}

/-! ## What both texts share -/

theorem isStyledContinuation_styled_iff (fits : doc.Fits) (fixed : styler.form = .fixed) {line : Nat}
    (bound : line < doc.source.lines) :
    (styler.styled doc).isStyledContinuation line = true ↔
      (doc.source.isFixedComment (doc.source.lineStart line) = false ∧
          isLineEnd (doc.source.columnChar (doc.source.lineStart line) markColumn) = false) ∧
        isBlank (doc.source.columnChar (doc.source.lineStart line) markColumn) = false ∧
        doc.source.columnChar (doc.source.lineStart line) markColumn ≠ '0' := by
  rw [styled, fixed]
  exact Document.isStyledContinuation_iff (Document.fits_setStyledTo fits 0) styler.words .plain bound

/-- In fixed form, a line continues a statement in both texts or in none. -/
theorem isStyledContinuation_of_endsLast (fits₁ : doc₁.Fits) (fits₂ : doc₂.Fits)
    (ends : Source.EndsLast doc₁.source doc₂.source) (fixed : styler.form = .fixed) {line : Nat}
    (bound : line < doc₁.source.lines) :
    (styler.styled doc₂).isStyledContinuation line =
      (styler.styled doc₁).isStyledContinuation line := by
  have bound₂ : line < doc₂.source.lines := by
    rw [ends.lines_eq]
    exact Nat.lt_succ_of_lt bound
  rw [Bool.eq_iff_iff, isStyledContinuation_styled_iff fits₁ fixed bound,
    isStyledContinuation_styled_iff fits₂ fixed bound₂, ends.lineStart_eq bound]
  by_cases inside : doc₁.source.lineStart line + markColumn < doc₁.source.size
  · have same : ∀ column, column ≤ markColumn → doc₂.source.columnChar (doc₁.source.lineStart line)
        column = doc₁.source.columnChar (doc₁.source.lineStart line) column :=
      fun column le => ends.charD_eq (Nat.lt_of_le_of_lt (Nat.add_le_add_left le _) inside) _
    rw [Source.isFixedComment_eq_of_same same, same markColumn (Nat.le_refl _)]
  · exact iff_of_false (fun mark => inside (ends.lt_size_of_inLine mark.1.2))
      (fun mark => inside (Source.lt_size_of_columnChar mark.1.2))

theorem endsLast_styled (fits₁ : doc₁.Fits) (fits₂ : doc₂.Fits)
    (ends : Source.EndsLast doc₁.source doc₂.source)
    (property : ∀ key unset, doc₂.property key unset = doc₁.property key unset) :
    (styler.styled doc₁).EndsLast styler.form (styler.styled doc₂) where
  source := ends
  styleAt pos less := by
    rw [styleAt_styled styler fits₁, styleAt_styled styler fits₂]
    exact Source.freshStyle_of_agree fits₁.table fits₂.table ends.agree _ _ _ less
  property := property
  mark fixed _ bound := isStyledContinuation_of_endsLast fits₁ fits₂ ends fixed bound

/-- The last line keeps the number that is stored for it. -/
theorem number_restyle_last (styler : Styler) (fits : doc.Fits) :
    ((styler.restyle doc).levelAt (doc.source.lines - 1)).number =
      (doc.levelAt (doc.source.lines - 1)).number := by
  by_cases more : 1 < doc.source.lines
  · rw [levelAt_restyle_last styler fits more]
  · rcases Nat.eq_zero_or_pos doc.size with empty | some
    · rw [restyle_of_empty styler fits.table empty]
      rfl
    · have only : doc.source.lines - 1 = 0 := by omega
      have styled := fits_styled styler fits
      have last : ((styler.styled doc).folded styler.form .plain).levelAt (doc.source.lines - 1) =
          ((styler.styled doc).rechecked styler.form .plain 0).levelAt (doc.source.lines - 1) :=
        Document.levelAt_folded_last styled styler.form .plain
      rw [restyle_eq_folded styler fits.table some]
      refine (congrArg FoldLevel.number last).trans ?_
      rw [only]
      exact Document.number_rechecked_zero styled.table styler.form .plain

/-- A line feed at the end of a text takes each line before the last one as many blocks further in as
`forall` and `where` open before it with the line feed only. There are none if the last byte shows a
part of a statement, other than a closing parenthesis or a mark. The last line without a line end
keeps the number that is stored for it. -/
theorem number_restyle_of_endsLast (styler : Styler) {doc₁ doc₂ : Document} (fits₁ : doc₁.Fits)
    (fits₂ : doc₂.Fits) (ends : Source.EndsLast doc₁.source doc₂.source)
    (property : ∀ key unset, doc₂.property key unset = doc₁.property key unset) :
    (∀ line, line + 1 < doc₁.source.lines →
      ((styler.restyle doc₂).levelAt line).number =
        (((styler.restyle doc₁).levelAt line).number +
          Document.lateMasks (styler.styled doc₁) (styler.styled doc₂) styler.form .plain 0
            (doc₁.source.lineStart line)) % 0x1000) ∧
    ((styler.styled doc₂).ShowsAt (doc₁.size - 1) → ∀ line, line + 1 < doc₁.source.lines →
      ((styler.restyle doc₂).levelAt line).number = ((styler.restyle doc₁).levelAt line).number) ∧
    ((styler.restyle doc₁).levelAt (doc₁.source.lines - 1)).number =
      (doc₁.levelAt (doc₁.source.lines - 1)).number := by
  have sides : (styler.styled doc₁).EndsLast styler.form (styler.styled doc₂) :=
    endsLast_styled fits₁ fits₂ ends property
  have some₁ : 0 < doc₁.size := ends.nonempty
  have some₂ : 0 < doc₂.size := Nat.lt_of_lt_of_eq (Nat.succ_pos _) ends.size_eq.symm
  have numbers (line : Nat) (more : line + 1 < doc₁.source.lines) :
      ((styler.restyle doc₂).levelAt line).number =
        (((styler.restyle doc₁).levelAt line).number +
          Document.lateMasks (styler.styled doc₁) (styler.styled doc₂) styler.form .plain 0
            (doc₁.source.lineStart line)) % 0x1000 := by
    rw [restyle_eq_folded styler fits₁.table some₁, restyle_eq_folded styler fits₂.table some₂]
    exact sides.number_folded (fits_styled styler fits₁) (fits_styled styler fits₂) .plain more
  refine ⟨numbers, fun shows line more => ?_, number_restyle_last styler fits₁⟩
  have before : line ≤ doc₁.source.lines - 1 := by omega
  have none : Document.lateMasks (styler.styled doc₁) (styler.styled doc₂) styler.form .plain 0
      (doc₁.source.lineStart line) = 0 :=
    sides.lateMasks_eq_zero .plain shows (Source.lineStart_mono fits₁.table before)
  have bounds := FoldLevel.number_bounds ((styler.restyle doc₁).levelAt line)
  rw [numbers line more, none, Int.natCast_zero, Int.add_zero]
  omega

/-- `where (a &`, `b &` and `c)` as three lines, of which the last has no line end. -/
def openCondition : Document :=
  .ofBytes #[119, 104, 101, 114, 101, 32, 40, 97, 32, 38, 10, 98, 32, 38, 10, 99, 41]

/-- `openCondition` with a line feed for its last line. -/
def endedCondition : Document :=
  .ofBytes (openCondition.source.bytes.push 0x0A)

/-- The statement opens a block only if its last line has a line end. -/
theorem number_restyle_of_endsLast_openCondition :
    Source.EndsLast openCondition.source endedCondition.source ∧
      ((Styler.restyle {} endedCondition).levelAt 1).number =
        (((Styler.restyle {} openCondition).levelAt 1).number + 1) % 0x1000 ∧
      ((Styler.restyle {} openCondition).levelAt 2).number = (openCondition.levelAt 2).number := by
  have ends : Source.EndsLast openCondition.source endedCondition.source :=
    ⟨rfl, rfl, rfl, by decide +kernel, by decide +kernel⟩
  have fits₁ : openCondition.Fits := Document.fits_ofBytes _
  have fits₂ : endedCondition.Fits := Document.fits_ofBytes _
  have levels := number_restyle_of_endsLast {} fits₁ fits₂ ends (fun _ _ => rfl)
  have late : Document.lateMasks (Styler.styled {} openCondition) (Styler.styled {} endedCondition)
      (Styler.form {}) .plain 0 (openCondition.source.lineStart 1) = 1 := by decide +kernel
  have second := levels.1 1 (by decide +kernel)
  have last : openCondition.source.lines - 1 = 2 := by decide +kernel
  rw [late] at second
  exact ⟨ends, second, last ▸ levels.2.2⟩

/-- The name on the last line of `do`, `x`. -/
example : (Styler.styled {} (.ofBytes #[100, 111, 10, 120, 10])).ShowsAt 3 := by decide +kernel

/-- A loop that goes on to the end of a text: the last line, which is in it, has the level of a line
outside. -/
theorem not_number_restyle_unendedLoop :
    ¬∀ (styler : Styler) (properties : List (String × Int)) (text : Array UInt8), 0 < text.size →
      text.back? ≠ some 0x0D → text.back? ≠ some 0x0A →
      let unended := Document.opened text properties
      let ended := Document.opened (text.push 0x0A) properties
      ∀ line, line < unended.source.lines →
        ((styler.restyle unended).levelAt line).number =
          ((styler.restyle ended).levelAt line).number := by
  intro all
  have same := all {} [] #[100, 111, 10, 120] (by decide) (by decide) (by decide) 1
    (by decide +kernel)
  revert same
  decide +kernel

end Styler

end FortranMarkup
