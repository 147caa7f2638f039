import FortranMarkup.Proofs.Styling.Restart
import FortranMarkup.Styling.Pass

/-!
# Passes agree

A pass over a range leaves the styles that a pass over the whole document leaves, and touches none
after the range, as long as the styles before the range were those already
(`Document.styleRange_consistent`).
-/

namespace FortranMarkup

theorem Source.ofBytes_bytes {src : Source} (table : src.Tabled) : .ofBytes src.bytes = src := by
  cases src
  exact congrArg _ table.symm

/-- The style that a pass over everything gives to a position. -/
def Source.freshStyle (src : Source) (words : Dictionary) (form : SourceForm) (outside : Style)
    (pos : Nat) : Style :=
  (src.allStyles words form outside)[pos]?.getD .plain

theorem Source.freshStyle_of_le {src : Source} {pos : Nat} (past : src.size ≤ pos)
    (words : Dictionary) (form : SourceForm) (outside : Style) :
    src.freshStyle words form outside pos = .plain := by
  have length : (src.allStyles words form outside).length = src.size :=
    length_stylesFrom words form (Nat.zero_le _) (Nat.le_refl _) outside
  rw [freshStyle, List.getElem?_eq_none (length ▸ past), Option.getD_none]

/-- Before a line start up to which two texts agree, a pass gives both the same styles. -/
theorem Source.freshStyle_of_agree {src₁ src₂ : Source} {limit pos : Nat} (table₁ : src₁.Tabled)
    (table₂ : src₂.Tabled) (agree : src₁.AgreeTo limit src₂) (words : Dictionary)
    (form : SourceForm) (outside : Style) (less : pos < limit) :
    src₂.freshStyle words form outside pos = src₁.freshStyle words form outside pos := by
  have fresh := take_allStyles_of_agree table₁ table₂ agree words form outside outside
  rw [freshStyle, freshStyle, ← List.getElem?_take_of_lt less, ← fresh,
    List.getElem?_take_of_lt less]

namespace Document

variable {doc : Document} {words : Dictionary} {form : SourceForm} {outside : Style}

theorem le_size_of_ends {stop : Nat} (ends : doc.source.StartsLine stop ∨ stop = doc.size) :
    stop ≤ doc.size := by
  rcases ends with starts | rfl
  · exact Source.le_size_of_startsLine starts
  · exact Nat.le_refl _

/-- What a pass over a range writes. -/
def passStyles (doc : Document) (words : Dictionary) (form : SourceForm) (start stop : Nat)
    (outside : Style) : List Style :=
  let restart := doc.restartPosition form start
  doc.source.stylesFrom words form restart stop (doc.styleBefore restart outside)

theorem styles_styleRange (words : Dictionary) (form : SourceForm) {start stop : Nat}
    (le : start ≤ stop) (inside : stop ≤ doc.size) (outside : Style) :
    (doc.styleRange words form start (stop - start) outside).styles =
      overwrite doc.styles (doc.restartPosition form start)
        (doc.passStyles words form start stop outside) := by
  have range : min (start + (stop - start)) doc.size = stop := by omega
  have begin_eq : min start stop = start := Nat.min_eq_left le
  simp only [styleRange, passStyles, range, begin_eq]

theorem fits_styleRange (fits : doc.Fits) (words : Dictionary) (form : SourceForm)
    (start length : Nat) (outside : Style) :
    (doc.styleRange words form start length outside).Fits where
  table := fits.table
  styles := (size_overwrite _ _ _).trans fits.styles
  levels := fits.levels

theorem length_passStyles (fits : doc.Fits) (words : Dictionary) (form : SourceForm)
    {start stop : Nat} (le : start ≤ stop) (inside : stop ≤ doc.size) (outside : Style) :
    (doc.passStyles words form start stop outside).length =
      stop - doc.restartPosition form start :=
  Source.length_stylesFrom words form (Nat.le_trans (restartPosition_le form fits.table start) le) inside
    _

theorem styleAt_styleRange (fits : doc.Fits) (words : Dictionary) (form : SourceForm)
    {start stop : Nat} (le : start ≤ stop) (inside : stop ≤ doc.size) (outside : Style) (pos : Nat) :
    (doc.styleRange words form start (stop - start) outside).styleAt pos =
      if doc.restartPosition form start ≤ pos ∧ pos < stop then
        (doc.passStyles words form start stop outside)[pos - doc.restartPosition form start]?.getD
          .plain
      else doc.styleAt pos := by
  have restart := restartPosition_le form fits.table start
  have length := length_passStyles fits words form le inside outside
  have sizes : doc.styles.size = doc.size := fits.styles
  rw [styleAt, styles_styleRange words form le inside, getElem?_overwrite, length]
  by_cases written : doc.restartPosition form start ≤ pos ∧ pos < stop
  · rw [if_pos written, if_pos (by omega)]
  · rw [if_neg written, if_neg (by omega), styleAt]

theorem restartPosition_zero (table : doc.source.Tabled) : doc.restartPosition form 0 = 0 :=
  Nat.le_zero.1 (restartPosition_le form table 0)

theorem passStyles_all (table : doc.source.Tabled) (words : Dictionary) (form : SourceForm)
    (outside : Style) :
    doc.passStyles words form 0 doc.size outside = doc.source.allStyles words form outside := by
  simp only [passStyles, restartPosition_zero table, styleBefore, if_pos]
  rfl

theorem toList_styleRange_all (fits : doc.Fits) (words : Dictionary) (form : SourceForm)
    (outside : Style) :
    (doc.styleRange words form 0 doc.size outside).styles.toList =
      doc.source.allStyles words form outside := by
  have written : (doc.styleRange words form 0 (doc.size - 0) outside).styles = _ :=
    styles_styleRange words form (Nat.zero_le doc.size) (Nat.le_refl _) outside
  have length : (doc.source.allStyles words form outside).length = doc.size :=
    Source.length_stylesFrom words form (Nat.zero_le _) (Nat.le_refl _) outside
  rw [passStyles_all fits.table, restartPosition_zero fits.table] at written
  simp only [Nat.sub_zero] at written
  have sizes : doc.styles.toList.length ≤ doc.size := Nat.le_of_eq fits.styles
  rw [written, toList_overwrite _ _ (Nat.le_of_eq (length.trans fits.styles.symm)), length,
    List.drop_eq_nil_of_le sizes, List.append_nil]

theorem styleAt_styleRange_all (fits : doc.Fits) (words : Dictionary) (form : SourceForm)
    (outside : Style) (pos : Nat) :
    (doc.styleRange words form 0 doc.size outside).styleAt pos =
      doc.source.freshStyle words form outside pos := by
  rw [styleAt, ← Array.getElem?_toList, toList_styleRange_all fits, Source.freshStyle]

/-- A pass over a range of whole lines writes what the pass over everything writes there. -/
theorem getElem?_passStyles (fits : doc.Fits) {start stop : Nat} (le : start ≤ stop)
    (ends : doc.source.StartsLine stop ∨ stop = doc.size)
    (held : ∀ pos, pos < start → doc.styleAt pos = doc.source.freshStyle words form outside pos)
    (uncut : doc.previous? form (doc.restartLine form start) = none) {pos : Nat}
    (low : doc.restartPosition form start ≤ pos) (high : pos < stop) :
    (doc.passStyles words form start stop outside)[pos - doc.restartPosition form start]? =
      (doc.source.allStyles words form outside)[pos]? := by
  have restart := restartPosition_le form fits.table start
  have inside : stop ≤ doc.source.size := le_size_of_ends ends
  have length : (doc.source.allStyles words form outside).length = doc.source.size :=
    Source.length_stylesFrom words form (Nat.zero_le _) (Nat.le_refl _) outside
  have resumable : doc.source.Resumable form (doc.source.allStyles words form outside)
      (doc.restartPosition form start) := by
    refine resumable_of_previous fits.table (restartLine_lt_lines fits.table start) uncut ?_
    intro pos before style found
    rw [held pos (Nat.lt_of_lt_of_le before restart), Source.freshStyle, found, Option.getD_some]
  have whole := Source.take_allStyles fits.table outside resumable (Nat.le_trans restart le) inside
    ends (doc.styleBefore (doc.restartPosition form start) outside)
  rw [← List.getElem?_take_of_lt high, whole, List.getElem?_append_right, List.length_take,
    Nat.min_eq_left (by omega)]
  · rfl
  · rw [List.length_take]
    omega

theorem styleAt_styleRange_of_lt (fits : doc.Fits) {start stop : Nat} (le : start ≤ stop)
    (ends : doc.source.StartsLine stop ∨ stop = doc.size)
    (held : ∀ pos, pos < start → doc.styleAt pos = doc.source.freshStyle words form outside pos)
    (uncut : doc.previous? form (doc.restartLine form start) = none) {pos : Nat}
    (before : pos < stop) :
    (doc.styleRange words form start (stop - start) outside).styleAt pos =
      doc.source.freshStyle words form outside pos := by
  have restart := restartPosition_le form fits.table start
  rw [styleAt_styleRange fits words form le (le_size_of_ends ends)]
  by_cases written : doc.restartPosition form start ≤ pos
  · rw [if_pos ⟨written, before⟩, getElem?_passStyles fits le ends held uncut written before,
      Source.freshStyle]
  · rw [if_neg (by omega)]
    exact held pos (by omega)

/-- A pass over a range has the result of a pass over everything: what it finds right before its
range it leaves right up to the end, and it touches nothing after. -/
theorem styleRange_consistent (fits : doc.Fits) (words : Dictionary) (form : SourceForm)
    (outside : Style) {start stop : Nat} (le : start ≤ stop)
    (ends : doc.source.StartsLine stop ∨ stop = doc.size)
    (held : ∀ pos, pos < start → doc.styleAt pos =
      ((ofBytes doc.source.bytes).styleRange words form 0 doc.size outside).styleAt pos)
    (uncut : doc.previous? form (doc.restartLine form start) = none) :
    (∀ pos, pos < stop →
      (doc.styleRange words form start (stop - start) outside).styleAt pos =
        ((ofBytes doc.source.bytes).styleRange words form 0 doc.size outside).styleAt pos) ∧
    ∀ pos, stop ≤ pos →
      (doc.styleRange words form start (stop - start) outside).styleAt pos = doc.styleAt pos := by
  have whole (pos : Nat) :
      ((ofBytes doc.source.bytes).styleRange words form 0 doc.size outside).styleAt pos =
        doc.source.freshStyle words form outside pos := by
    have all := styleAt_styleRange_all (fits_ofBytes doc.source.bytes) words form outside pos
    rwa [show (ofBytes doc.source.bytes).source = doc.source from
      Source.ofBytes_bytes fits.table] at all
  simp only [whole] at held ⊢
  refine ⟨fun pos before => styleAt_styleRange_of_lt fits le ends held uncut before, ?_⟩
  intro pos after
  rw [styleAt_styleRange fits words form le (le_size_of_ends ends), if_neg (by omega)]

/-- Two statements in free form, the first of which continues a literal, with the styles of a pass
over everything up to the second mark and comments from there on. -/
def continuedLiteral : Document :=
  let bytes : Array UInt8 :=
    #[120, 32, 61, 32, 39, 97, 38, 10, 38, 98, 39, 10, 121, 32, 61, 32, 49, 10]
  ((ofBytes bytes).styleRange .fortran .free 0 18 .plain).paint 9 18 .comment

theorem styleRange_continuedLiteral :
    (∀ pos, pos < 12 →
      (continuedLiteral.styleRange .fortran .free 9 3 .plain).styleAt pos =
        ((ofBytes continuedLiteral.source.bytes).styleRange .fortran .free 0 18 .plain).styleAt
          pos) ∧
    ∀ pos, 12 ≤ pos → (continuedLiteral.styleRange .fortran .free 9 3 .plain).styleAt pos =
      continuedLiteral.styleAt pos := by
  have fits : continuedLiteral.Fits := ⟨rfl, by decide +kernel, by decide +kernel⟩
  have le : 9 ≤ 12 := by decide
  have ends : continuedLiteral.source.StartsLine 12 := by decide +kernel
  exact styleRange_consistent fits .fortran .free .plain le (.inl ends) (by decide +kernel)
    (by decide +kernel)

end Document

end FortranMarkup
