import FortranMarkup.Proofs.Styling.Consistency

/-!
# What a styling pass covers

A pass over a range writes the styles from its restart position to the end of the range, all of them
and nothing else (`Document.styleRange_covers`). What it writes does not depend on the styles that it
finds there: a pass begins at a line start, where the style that it is given has no effect
(`Source.stylesFrom_state`), and after that it reads no style at all.
-/

namespace FortranMarkup

namespace Document

variable {doc : Document}

/-- The position before which a pass over a range ends. -/
def passStop (doc : Document) (start length : Nat) : Nat :=
  min (start + length) doc.size

/-- The position with which a pass over a range begins. -/
def passStart (doc : Document) (form : SourceForm) (start length : Nat) : Nat :=
  doc.restartPosition form (min start (doc.passStop start length))

theorem passStop_le (doc : Document) (start length : Nat) : doc.passStop start length ≤ doc.size :=
  Nat.min_le_right _ _

theorem passStart_le (table : doc.source.Tabled) (form : SourceForm) (start length : Nat) :
    doc.passStart form start length ≤ doc.passStop start length :=
  Nat.le_trans (restartPosition_le form table _) (Nat.min_le_right _ _)

/-- A pass over a range is one over the part of it that lies in the document. -/
theorem styleRange_clipped (doc : Document) (words : Dictionary) (form : SourceForm)
    (start length : Nat) (outside : Style) :
    doc.styleRange words form start length outside =
      doc.styleRange words form (min start (doc.passStop start length))
        (doc.passStop start length - min start (doc.passStop start length)) outside := by
  have clipped : min (min start (doc.passStop start length) +
      (doc.passStop start length - min start (doc.passStop start length))) doc.size =
      doc.passStop start length := by
    rw [Nat.add_sub_cancel' (Nat.min_le_right _ _), Nat.min_eq_left (doc.passStop_le start length)]
  have begins : min (min start (doc.passStop start length)) (doc.passStop start length) =
      min start (doc.passStop start length) := by simp
  simp only [styleRange, clipped, begins]
  rfl

theorem styleAt_styleRange_eq (fits : doc.Fits) (words : Dictionary) (form : SourceForm)
    (start length : Nat) (outside : Style) (pos : Nat) :
    (doc.styleRange words form start length outside).styleAt pos =
      if doc.passStart form start length ≤ pos ∧ pos < doc.passStop start length then
        (doc.source.stylesFrom words form (doc.passStart form start length)
          (doc.passStop start length) .plain)[pos - doc.passStart form start length]?.getD .plain
      else doc.styleAt pos := by
  have starts : doc.source.StartsLine (doc.passStart form start length) :=
    Source.startsLine_lineStart fits.table (restartLine_lt_lines fits.table _)
  have written : doc.passStyles words form (min start (doc.passStop start length))
      (doc.passStop start length) outside =
      doc.source.stylesFrom words form (doc.passStart form start length)
        (doc.passStop start length) .plain :=
    Source.stylesFrom_state fits.table words form starts (passStart_le fits.table form start length)
      (doc.passStop_le start length) _ _
  rw [styleRange_clipped, styleAt_styleRange fits words form (Nat.min_le_right _ _)
    (doc.passStop_le start length), written]
  rfl

/-- A pass over a range changes no style before its restart position or after the range, and nothing
but styles. Two passes over one text that begin and end at the same positions leave the same styles
in between, whatever styles they are given and find. -/
theorem styleRange_covers (fits : doc.Fits) (words : Dictionary) (form : SourceForm)
    (start length : Nat) (outside : Style) :
    let restart := doc.passStart form start length
    let stop := doc.passStop start length
    let styled := doc.styleRange words form start length outside
    (styled.source = doc.source ∧ styled.levels = doc.levels ∧
      styled.properties = doc.properties ∧ styled.styledTo = doc.styledTo ∧
      styled.styles.size = doc.styles.size) ∧
    (∀ pos, pos < restart ∨ stop ≤ pos → styled.styleAt pos = doc.styleAt pos) ∧
    ∀ other : Document, other.Fits → other.source = doc.source → ∀ start' length' outside',
      other.passStart form start' length' = restart → other.passStop start' length' = stop →
      ∀ pos, restart ≤ pos → pos < stop →
        (other.styleRange words form start' length' outside').styleAt pos =
          styled.styleAt pos := by
  intro restart stop styled
  refine ⟨⟨rfl, rfl, rfl, rfl, size_overwrite _ _ _⟩, ?_, ?_⟩
  · intro pos outer
    rw [styleAt_styleRange_eq fits, if_neg]
    rintro ⟨low, high⟩
    rcases outer with before | after
    · exact Nat.not_lt.2 low before
    · exact Nat.not_lt.2 after high
  · intro other fits' source start' length' outside' begins ends pos low high
    rw [styleAt_styleRange_eq fits', begins, ends, source, if_pos ⟨low, high⟩,
      styleAt_styleRange_eq fits, if_pos ⟨low, high⟩]

/-- The pass from the second line of `continuedLiteral` goes back to the first. It writes the styles
that a pass with another style outside writes into the same text without styles, and leaves the
comments after its range. -/
theorem styleRange_covers_continuedLiteral :
    (∀ pos, pos < 0 ∨ 12 ≤ pos →
      (continuedLiteral.styleRange .fortran .free 9 3 .plain).styleAt pos =
        continuedLiteral.styleAt pos) ∧
    ∀ pos, 0 ≤ pos → pos < 12 →
      ((ofBytes continuedLiteral.source.bytes).styleRange .fortran .free 10 2 .comment).styleAt pos =
        (continuedLiteral.styleRange .fortran .free 9 3 .plain).styleAt pos := by
  have fits : continuedLiteral.Fits := ⟨rfl, by decide +kernel, by decide +kernel⟩
  have restart : continuedLiteral.passStart .free 9 3 = 0 := by decide +kernel
  have stop : continuedLiteral.passStop 9 3 = 12 := by decide +kernel
  have covers := styleRange_covers fits .fortran .free 9 3 .plain
  rw [restart, stop] at covers
  refine ⟨covers.2.1, covers.2.2 _ (fits_ofBytes _) rfl 10 2 .comment ?_ ?_⟩
  · decide +kernel
  · decide +kernel

end Document

end FortranMarkup
