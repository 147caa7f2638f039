import FortranMarkup.Proofs.Folding.RespelledPass
import FortranMarkup.Proofs.Source.CaseAndReturns
import FortranMarkup.Proofs.Styler.Session
import FortranMarkup.Proofs.Styling.RespelledScan

/-!
# Restyling respelled text

Restyling a document and a respelling of it gives the bytes the same styles and the lines the same
levels. So letters may stand in another case (`Styler.restyle_of_sameLetters`), and in free form a
carriage return may stand before each line feed (`Styler.restyle_withReturns`).

No line end ends the last line of a document, so no pass gives it a level. It keeps the one that is
stored, which can be that of an earlier text
(`Styler.not_levels_of_sameLetters_staleHeader`).
-/

namespace FortranMarkup

/-- Two documents with the same properties, of which the second respells the text of the first. -/
structure Document.RespellsText (place : Nat → Nat) (form : SourceForm) (doc₁ doc₂ : Document) :
    Prop where
  fits₁ : doc₁.Fits
  fits₂ : doc₂.Fits
  text : Source.Respells place doc₁.source doc₂.source
  fixed : form = .fixed → ∀ pos, place pos = pos
  property : ∀ key unset, doc₂.property key unset = doc₁.property key unset

/-- A document of which nothing is known yet but its properties. -/
def Document.opened (bytes : Array UInt8) (properties : List (String × Int)) : Document :=
  { ofBytes bytes with properties := properties }

theorem Document.fits_opened (bytes : Array UInt8) (properties : List (String × Int)) :
    (opened bytes properties).Fits :=
  ⟨(fits_ofBytes bytes).table, (fits_ofBytes bytes).styles, (fits_ofBytes bytes).levels⟩

theorem Document.levelAt_opened (bytes : Array UInt8) (properties : List (String × Int))
    (line : Nat) : (opened bytes properties).levelAt line = .base := by
  rw [levelAt, opened, ofBytes, Array.getElem?_replicate]
  split <;> rfl

namespace Styler

variable {styler : Styler} {place : Nat → Nat} {doc doc₁ doc₂ : Document}

/-! ## What restyling does -/

/-- The document with the styles that restyling gives it. -/
def styled (styler : Styler) (doc : Document) : Document :=
  (doc.setStyledTo 0).styleRange styler.words styler.form 0 doc.size .plain

theorem fits_styled (styler : Styler) (fits : doc.Fits) : (styler.styled doc).Fits :=
  Document.fits_styleRange (Document.fits_setStyledTo fits 0) styler.words styler.form 0 doc.size
    .plain

theorem styleAt_styled (styler : Styler) (fits : doc.Fits) (pos : Nat) :
    (styler.styled doc).styleAt pos = styler.freshStyle doc.source pos :=
  Document.styleAt_styleRange_all (Document.fits_setStyledTo fits 0) styler.words styler.form .plain
    pos

theorem restyle_eq_folded (styler : Styler) (table : doc.source.Tabled) (some : 0 < doc.size) :
    styler.restyle doc =
      ((styler.styled doc).folded styler.form .plain).setStyledTo doc.size :=
  restyle_eq styler table some

theorem restyle_of_empty (styler : Styler) (table : doc.source.Tabled) (empty : doc.size = 0) :
    styler.restyle doc = doc.setStyledTo 0 := by
  have table : (doc.setStyledTo 0).source.Tabled := table
  have stop : lineEndOf (doc.setStyledTo 0) doc.size = doc.size :=
    Source.lineEnd_lineAt_size table
  rw [restyle, ensure_eq table, stop, empty, if_pos (Nat.zero_le _)]

theorem fits_restyle (styler : Styler) (fits : doc.Fits) : (styler.restyle doc).Fits :=
  fits_ensure (Document.fits_setStyledTo fits 0) styler doc.size

theorem size_restyle (styler : Styler) (doc : Document) : (styler.restyle doc).size = doc.size :=
  congrArg Source.size (source_ensure styler (doc.setStyledTo 0) doc.size)

/-- Any text gets its fresh styles, also one with carriage returns. -/
theorem styleAt_restyle_of_fits (styler : Styler) (fits : doc.Fits) (pos : Nat) :
    (styler.restyle doc).styleAt pos = styler.freshStyle doc.source pos := by
  rcases Nat.eq_zero_or_pos doc.size with empty | some
  · have past : doc.source.size ≤ pos := Nat.le_trans (Nat.le_of_eq empty) (Nat.zero_le pos)
    rw [restyle_of_empty styler fits.table empty,
      Document.styleAt_of_le (Document.fits_setStyledTo fits 0) past, freshStyle,
      Source.freshStyle_of_le past]
  · rw [restyle_eq_folded styler fits.table some]
    exact styleAt_styled styler fits pos

/-- A last line after others keeps the level that is stored for it. -/
theorem levelAt_restyle_last (styler : Styler) (fits : doc.Fits) (more : 1 < doc.source.lines) :
    (styler.restyle doc).levelAt (doc.source.lines - 1) = doc.levelAt (doc.source.lines - 1) := by
  rcases Nat.eq_zero_or_pos doc.size with empty | some
  · rw [restyle_of_empty styler fits.table empty]
    rfl
  · have styled := fits_styled styler fits
    have last : 0 < doc.source.lines - 1 := by omega
    rw [restyle_eq_folded styler fits.table some]
    calc ((styler.styled doc).folded styler.form .plain).levelAt (doc.source.lines - 1)
        = ((styler.styled doc).rechecked styler.form .plain 0).levelAt (doc.source.lines - 1) :=
          Document.levelAt_folded_last styled styler.form .plain
      _ = doc.levelAt (doc.source.lines - 1) :=
          Document.levelAt_rechecked_of_pos styled.table styler.form .plain last

theorem lines_of_empty (table : doc.source.Tabled) (empty : doc.size = 0) :
    doc.source.lines = 1 := by
  have lines := Source.lineAt_size table
  rw [show doc.source.size = 0 from empty, Source.lineAt_zero table] at lines
  exact lines.symm

/-! ## Respelled documents -/

section Respelt

variable (respells : Document.RespellsText place styler.form doc₁ doc₂)
include respells

theorem freshStyle_of_respells {pos₁ pos₂ : Nat} (last : pos₂ + 1 = place (pos₁ + 1)) :
    styler.freshStyle doc₂.source pos₂ = styler.freshStyle doc₁.source pos₁ :=
  (Source.freshStyle_of_respells respells.text respells.fixed styler.words .plain last).symm

theorem styleAt_restyle_of_respells {pos₁ pos₂ : Nat} (last : pos₂ + 1 = place (pos₁ + 1)) :
    (styler.restyle doc₂).styleAt pos₂ = (styler.restyle doc₁).styleAt pos₁ := by
  rw [styleAt_restyle_of_fits styler respells.fits₁, styleAt_restyle_of_fits styler respells.fits₂,
    freshStyle_of_respells respells last]

theorem respells_styled :
    Document.Respells place styler.form (styler.styled doc₁) (styler.styled doc₂) where
  text := respells.text
  fixed := respells.fixed
  styleAt last := by
    rw [styleAt_styled styler respells.fits₁, styleAt_styled styler respells.fits₂,
      freshStyle_of_respells respells last]
  property := respells.property

theorem levelAt_restyle_of_respells {line : Nat} (ends : line + 1 < doc₁.source.lines) :
    (styler.restyle doc₂).levelAt line = (styler.restyle doc₁).levelAt line := by
  have fits₁ := respells.fits₁
  have fits₂ := respells.fits₂
  have some : doc₁.size ≠ 0 := by
    intro empty
    rw [lines_of_empty fits₁.table empty] at ends
    omega
  have some₂ : doc₂.size ≠ 0 := mt respells.text.empty_iff.1 some
  rw [restyle_eq_folded styler fits₁.table (Nat.pos_of_ne_zero some),
    restyle_eq_folded styler fits₂.table (Nat.pos_of_ne_zero some₂)]
  exact (respells_styled respells).levelAt_folded (fits_styled styler fits₁)
    (fits_styled styler fits₂) .plain ends

theorem levels_restyle_of_respells
    (last : doc₂.levelAt (doc₁.source.lines - 1) = doc₁.levelAt (doc₁.source.lines - 1)) :
    (styler.restyle doc₂).levels = (styler.restyle doc₁).levels := by
  have fits₁ := respells.fits₁
  have fits₂ := respells.fits₂
  by_cases empty : doc₁.size = 0
  · have empty₂ : doc₂.size = 0 := respells.text.empty_iff.2 empty
    rw [restyle_of_empty styler fits₁.table empty, restyle_of_empty styler fits₂.table empty₂]
    have lines := lines_of_empty fits₁.table empty
    apply Document.levels_ext
    · exact fits₂.levels.trans (respells.text.lines_eq.trans fits₁.levels.symm)
    · intro line inside
      have only : line < doc₁.levels.size := inside
      obtain rfl : line = doc₁.source.lines - 1 := by
        rw [fits₁.levels] at only
        omega
      exact last
  · have empty₂ : doc₂.size ≠ 0 := mt respells.text.empty_iff.1 empty
    rw [restyle_eq_folded styler fits₁.table (Nat.pos_of_ne_zero empty),
      restyle_eq_folded styler fits₂.table (Nat.pos_of_ne_zero empty₂)]
    exact (respells_styled respells).levels_folded (fits_styled styler fits₁)
      (fits_styled styler fits₂) .plain last

end Respelt

/-! ## Letters in another case -/

theorem respellsText_of_sameLetters (fits₁ : doc₁.Fits) (fits₂ : doc₂.Fits)
    (letters : Source.SameLetters doc₁.source.bytes doc₂.source.bytes)
    (property : ∀ key unset, doc₂.property key unset = doc₁.property key unset) :
    Document.RespellsText id styler.form doc₁ doc₂ where
  fits₁ := fits₁
  fits₂ := fits₂
  text := Source.respells_of_sameLetters fits₁.table fits₂.table letters
  fixed _ _ := rfl
  property := property

/-- The case of letters makes no difference to styles, nor to the levels of lines that end. All
levels are the same if the last line has the same one stored, and, unless it is the only line, only
then. -/
theorem restyle_of_sameLetters (styler : Styler) {doc₁ doc₂ : Document} (fits₁ : doc₁.Fits)
    (fits₂ : doc₂.Fits) (letters : Source.SameLetters doc₁.source.bytes doc₂.source.bytes)
    (property : ∀ key unset, doc₂.property key unset = doc₁.property key unset) :
    (styler.restyle doc₂).styles = (styler.restyle doc₁).styles ∧
    (∀ line, line + 1 < doc₁.source.lines →
      (styler.restyle doc₂).levelAt line = (styler.restyle doc₁).levelAt line) ∧
    (doc₂.levelAt (doc₁.source.lines - 1) = doc₁.levelAt (doc₁.source.lines - 1) →
      (styler.restyle doc₂).levels = (styler.restyle doc₁).levels) ∧
    (1 < doc₁.source.lines → (styler.restyle doc₂).levels = (styler.restyle doc₁).levels →
      doc₂.levelAt (doc₁.source.lines - 1) = doc₁.levelAt (doc₁.source.lines - 1)) := by
  have respells : Document.RespellsText id styler.form doc₁ doc₂ :=
    respellsText_of_sameLetters fits₁ fits₂ letters property
  refine ⟨?_, fun _ => levelAt_restyle_of_respells respells,
    levels_restyle_of_respells respells, ?_⟩
  · apply Document.styles_ext
    · rw [(fits_restyle styler fits₁).styles, (fits_restyle styler fits₂).styles, size_restyle,
        size_restyle]
      exact respells.text.size.symm
    · intro pos
      exact styleAt_restyle_of_respells respells rfl
  · intro more same
    have kept₁ := levelAt_restyle_last styler fits₁ more
    have kept₂ := levelAt_restyle_last styler fits₂ (respells.text.lines_eq ▸ more)
    rw [respells.text.lines_eq] at kept₂
    rw [← kept₁, ← kept₂, Document.levelAt, Document.levelAt, same]

theorem restyle_of_sameLetters_endDo :
    let small : Document := .ofBytes #[100, 111, 10, 101, 110, 100, 32, 100, 111, 10, 120]
    let large : Document := .ofBytes #[68, 79, 10, 69, 110, 68, 32, 100, 79, 10, 88]
    Source.SameLetters small.source.bytes large.source.bytes ∧
      (Styler.restyle {} large).styles = (Styler.restyle {} small).styles ∧
      (Styler.restyle {} large).levels = (Styler.restyle {} small).levels := by
  intro small large
  have letters : Source.SameLetters small.source.bytes large.source.bytes := by decide +kernel
  have same := restyle_of_sameLetters {} (Document.fits_ofBytes _) (Document.fits_ofBytes _) letters
    (fun _ _ => rfl)
  exact ⟨letters, same.1, same.2.2.1 rfl⟩

/-- One letter, before which a line that opens a block has come and gone. -/
def staleHeader : Document :=
  let styler : Styler := {}
  (styler.restyle ((Document.ofBytes #[120]).insert 0 #[100, 111, 10])).replace 0 4 #[88]

/-- A last line keeps the level that it has from an earlier text. -/
theorem not_levels_of_sameLetters_staleHeader :
    ¬∀ (styler : Styler) (doc₁ doc₂ : Document), doc₁.Fits → doc₂.Fits →
      Source.SameLetters doc₁.source.bytes doc₂.source.bytes →
      (∀ key unset, doc₂.property key unset = doc₁.property key unset) →
      (styler.restyle doc₂).styles = (styler.restyle doc₁).styles ∧
        (styler.restyle doc₂).levels = (styler.restyle doc₁).levels := by
  intro all
  have fits : staleHeader.Fits := ⟨rfl, by decide +kernel, by decide +kernel⟩
  have letters : Source.SameLetters #[120] staleHeader.source.bytes := by decide +kernel
  have same := (all {} (.ofBytes #[120]) staleHeader (Document.fits_ofBytes _) fits letters
    (fun _ _ => rfl)).2
  have different : (Styler.restyle {} staleHeader).levels ≠
      (Styler.restyle {} (.ofBytes #[120])).levels := by decide +kernel
  exact different same

/-! ## Carriage returns -/

/-- In free form a carriage return before each line feed makes no difference to the styles of other
bytes, nor to any level of a document that has just been opened. -/
theorem restyle_withReturns (styler : Styler) (free : styler.form = .free)
    (properties : List (String × Int)) {text : Array UInt8} (crFree : CrFree text) :
    let feeds := styler.restyle (.opened text properties)
    let returns := styler.restyle (.opened (Source.withReturns text) properties)
    (∀ pos (inside : pos < text.size), text[pos] ≠ 0x0A →
      (Source.withReturns text)[pos + Source.feedsBefore text pos]? = some text[pos] ∧
        returns.styleAt (pos + Source.feedsBefore text pos) = feeds.styleAt pos) ∧
      returns.levels = feeds.levels := by
  intro feeds returns
  have fits₁ := Document.fits_opened text properties
  have fits₂ := Document.fits_opened (Source.withReturns text) properties
  have respells : Document.RespellsText (fun pos => pos + Source.feedsBefore text pos) styler.form
      (.opened text properties) (.opened (Source.withReturns text) properties) :=
    { fits₁ := fits₁
      fits₂ := fits₂
      text := Source.respells_of_withReturns crFree rfl fits₁.table fits₂.table
      fixed := fun fixed => nomatch free.symm.trans fixed
      property := fun _ _ => rfl }
  refine ⟨fun pos inside other => ⟨Source.getElem?_withReturns_of_ne inside other, ?_⟩, ?_⟩
  · apply styleAt_restyle_of_respells respells
    rw [Source.feedsBefore_succ inside, if_neg other]
    exact Nat.add_right_comm pos _ 1
  · apply levels_restyle_of_respells respells
    rw [Document.levelAt_opened, Document.levelAt_opened]

/-- A literal that is not closed on its line and a block. -/
theorem restyle_withReturns_openLiteral :
    let text : Array UInt8 := #[100, 111, 10, 120, 61, 39, 97, 10, 10, 101, 110, 100, 100, 111, 10]
    let feeds := Styler.restyle {} (.opened text [])
    let returns := Styler.restyle {} (.opened (Source.withReturns text) [])
    CrFree text ∧ returns.styleAt 7 = feeds.styleAt 6 ∧ returns.levels = feeds.levels := by
  intro text feeds returns
  have crFree : CrFree text := by decide
  have same := restyle_withReturns {} rfl [] crFree
  exact ⟨crFree, (same.1 6 (by decide) (by decide)).2, same.2⟩

end Styler

end FortranMarkup
