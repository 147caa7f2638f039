import FortranMarkup.Proofs.Document.Basic
import FortranMarkup.Proofs.Folding.Construct
import FortranMarkup.Proofs.Folding.Passes
import FortranMarkup.Proofs.Source.Respelling

/-!
# Folding respelled text

Two fold passes over a text and a respelling of it, styled alike, emit the same levels. The lines
and their comments are the same, so are the words of the rules and the scans for the end of a
statement.
-/

namespace FortranMarkup

theorem Source.not_inClass_skipWhile {src : Source} {inClass : Char → Bool} {stop pos : Nat}
    (inside : src.skipWhile inClass stop pos < stop) :
    inClass (src.charD (src.skipWhile inClass stop pos) ' ') = false := by
  fun_induction skipWhile src inClass stop pos with
  | case1 pos more member ih => exact ih inside
  | case2 pos more other => exact Bool.eq_false_iff.2 other
  | case3 pos done => exact absurd inside done

namespace Document

open Source (Stands)

/-- The second document is a respelling of the first one, styled alike and with the same
properties. -/
structure Respells (place : Nat → Nat) (form : SourceForm) (doc₁ doc₂ : Document) : Prop where
  text : Source.Respells place doc₁.source doc₂.source
  fixed : form = .fixed → ∀ pos, place pos = pos
  styleAt : ∀ {pos₁ pos₂}, pos₂ + 1 = place (pos₁ + 1) → doc₂.styleAt pos₂ = doc₁.styleAt pos₁
  property : ∀ key unset, doc₂.property key unset = doc₁.property key unset

theorem closingParenthesis_of_le {doc : Document} {style : Style} {stop pos depth : Nat}
    (past : stop ≤ pos) : doc.closingParenthesis style stop pos depth = pos := by
  unfold closingParenthesis
  rw [if_neg (Nat.not_lt_of_le past)]

namespace Respells

variable {place : Nat → Nat} {form : SourceForm} {doc₁ doc₂ : Document}
  (respells : Respells place form doc₁ doc₂)
include respells

theorem nestingAt_of_last (style : Style) {pos₁ pos₂ : Nat} (last : pos₂ + 1 = place (pos₁ + 1)) :
    doc₂.nestingAt style pos₂ = doc₁.nestingAt style pos₁ := by
  have same := respells.text.charD_of_last last ' '
  have opening := eq_iff_of_toLower same '(' rfl
  have closing := eq_iff_of_toLower same ')' rfl
  simp only [nestingAt, respells.styleAt last, opening, closing]

theorem size_eq : doc₂.size = place doc₁.size :=
  respells.text.size.symm

theorem less_iff {pos₁ pos₂ : Nat} (stands : Stands place pos₁ pos₂) :
    pos₂ < doc₂.size ↔ pos₁ < doc₁.size := by
  rw [respells.size_eq]
  exact respells.text.stands_lt_iff stands

theorem closingParenthesis_of_last (style : Style) {pos₁ pos₂ depth : Nat}
    (last : pos₂ + 1 = place (pos₁ + 1)) (positive : 0 < depth) :
    doc₂.closingParenthesis style doc₂.size pos₂ depth + 1 =
      place (doc₁.closingParenthesis style doc₁.size pos₁ depth + 1) := by
  -- The induction is on the bytes of the first text that are left.
  induction left : doc₁.size - pos₁ generalizing pos₁ pos₂ depth with
  | zero =>
    have past : ¬pos₁ < doc₁.size := by omega
    have past₂ := mt (respells.less_iff (.inr last)).1 past
    rw [closingParenthesis_of_le (Nat.le_of_not_lt past),
      closingParenthesis_of_le (Nat.le_of_not_lt past₂)]
    exact last
  | succ left ih =>
    have less : pos₁ < doc₁.size := by omega
    have less₂ := (respells.less_iff (.inr last)).2 less
    have goOn {pos₂ : Nat} (last₂ : pos₂ + 1 + 1 = place (pos₁ + 1 + 1)) (less₂ : pos₂ < doc₂.size) :
        doc₂.closingParenthesis style doc₂.size pos₂ depth + 1 =
          place (doc₁.closingParenthesis style doc₁.size pos₁ depth + 1) := by
      rw [closingParenthesis_succ less positive, closingParenthesis_succ less₂ positive,
        respells.nestingAt_of_last style last₂]
      split
      · exact last₂
      · have low := neg_one_le_nestingAt doc₁ style (pos₁ + 1)
        exact ih last₂ (by omega) (by omega)
    rcases respells.text.place_succ (pos₁ + 1) with single | double
    · exact goOn (by omega) less₂
    · -- A carriage return is no parenthesis.
      have ret := (respells.text.charD_of_double double ' ').2.1
      rw [← last] at ret
      have nesting : doc₂.nestingAt style (pos₂ + 1) = 0 := by
        simp [nestingAt, ret]
      rw [closingParenthesis_succ less₂ positive, nesting, if_neg (by omega), Int.add_zero,
        Int.toNat_natCast]
      have more : place (pos₁ + 1) < place doc₁.size :=
        respells.text.place_lt (respells.text.lt_size_of_double double)
      refine goOn (by omega) ?_
      rw [respells.size_eq]
      omega

theorem styleAt_place_of_inLine {pos : Nat} {past : Char}
    (inLine : isLineEnd (doc₁.source.charD pos past) = false) :
    doc₂.styleAt (place pos) = doc₁.styleAt pos :=
  respells.styleAt (respells.text.place_succ_of_inLine inLine).symm

theorem isFiller_place (pos : Nat) : doc₂.isFiller (place pos) = doc₁.isFiller pos := by
  have ch := respells.text.charD_of_first (rfl : place pos = place pos) ' '
  have lineEnd := blind_isLineEnd _ _ ch
  have blank := blind_isBlank _ _ ch
  simp only [isFiller, ← lineEnd, ← blank]
  cases ends : isLineEnd (doc₁.source.charD pos ' ') with
  | true => rfl
  | false => rw [respells.styleAt_place_of_inLine ends]

/-- The parenthesis after a position, or the end of the text, stands as one byte. -/
theorem last_skipWhile_opening (pos : Nat) :
    place (doc₁.source.skipWhile (fun c => !decide (c = '(')) doc₁.size pos) + 1 =
      place (doc₁.source.skipWhile (fun c => !decide (c = '(')) doc₁.size pos + 1) := by
  generalize found : doc₁.source.skipWhile (fun c => !decide (c = '(')) doc₁.size pos = opening
  rcases respells.text.place_succ opening with single | double
  · exact single.symm
  · have inside : opening < doc₁.size := respells.text.lt_size_of_double double
    subst found
    have parenthesis := Source.not_inClass_skipWhile inside
    rw [(respells.text.charD_of_double double ' ').1] at parenthesis
    cases parenthesis

/-- A statement in free form ends in both texts or in neither. -/
theorem endsFree_of_last {pos₁ pos₂ : Nat} (last : pos₂ + 1 = place (pos₁ + 1)) :
    doc₂.endsFree doc₂.size pos₂ = doc₁.endsFree doc₁.size pos₁ := by
  -- The induction follows the scan in the first text, which also goes on by whole lines.
  fun_induction endsFree doc₁ doc₁.size pos₁ generalizing pos₂ with
  | case1 pos₁ less filler ih =>
    have inLine : isLineEnd (doc₁.source.charD (pos₁ + 1) ' ') = false := by
      simp only [isFiller, Bool.and_eq_true, Bool.not_eq_true'] at filler
      exact filler.1
    have single := respells.text.place_succ_of_inLine inLine
    have filler₂ : doc₂.isFiller (pos₂ + 1) = true := by rw [last, respells.isFiller_place, filler]
    rw [endsFree, if_pos ((respells.less_iff (.inr last)).2 less), if_pos filler₂]
    exact ih (by omega)
  | case2 pos₁ less c other mark =>
    rename_i ih
    have same := respells.text.charD_of_first last ' '
    have inLine : isLineEnd (doc₁.source.charD (pos₁ + 1) ' ') = false := by
      rw [show doc₁.source.charD (pos₁ + 1) ' ' = '&' from mark.1]
      rfl
    have single : place (pos₁ + 2) = place (pos₁ + 1) + 1 :=
      respells.text.place_succ_of_inLine inLine
    have style : doc₂.styleAt (pos₂ + 1) = doc₁.styleAt (pos₁ + 1) :=
      respells.styleAt (by rw [last]; exact single.symm)
    have other₂ : ¬doc₂.isFiller (pos₂ + 1) = true := by rwa [last, respells.isFiller_place]
    have text₂ : doc₂.source.continuedText (pos₂ + 2) =
        place (doc₁.source.continuedText (pos₁ + 2)) := by
      rw [show pos₂ + 2 = place (pos₁ + 2) by rw [single, ← last], respells.text.continuedText_place]
    have low := doc₁.source.le_continuedText (pos₁ + 2)
    have high := respells.text.le_place (doc₁.source.continuedText (pos₁ + 2))
    rw [endsFree, if_pos ((respells.less_iff (.inr last)).2 less), if_neg other₂,
      if_pos ⟨(same.eq_iff '&' rfl rfl).2 mark.1, style.trans mark.2⟩]
    refine ih ?_
    rw [text₂, Nat.sub_add_cancel (by omega), Nat.sub_add_cancel (by omega)]
  | case3 pos₁ less c other =>
    rename_i noMark
    have same := respells.text.charD_of_first last ' '
    have other₂ : ¬doc₂.isFiller (pos₂ + 1) = true := by rwa [last, respells.isFiller_place]
    have noMark₂ : ¬(doc₂.source.charD (pos₂ + 1) ' ' = '&' ∧
        doc₂.styleAt (pos₂ + 1) = .continuation) := by
      rintro ⟨mark₂, style₂⟩
      have mark := (same.eq_iff '&' rfl rfl).1 mark₂
      have inLine : isLineEnd (doc₁.source.charD (pos₁ + 1) ' ') = false := by rw [mark]; rfl
      rw [last, respells.styleAt_place_of_inLine inLine] at style₂
      exact noMark ⟨mark, style₂⟩
    rw [endsFree, if_pos ((respells.less_iff (.inr last)).2 less), if_neg other₂, if_neg noMark₂]
    exact (blind_isLineEnd _ _ same).symm
  | case4 pos₁ done =>
    rw [endsFree, if_neg (mt (respells.less_iff (.inr last)).1 done)]

theorem endsFixed_eq (fixed : form = .fixed) (line pos : Nat) :
    doc₂.endsFixed doc₂.size line pos = doc₁.endsFixed doc₁.size line pos := by
  -- No byte is added in fixed form, so the scan there goes over the same positions.
  have same := respells.fixed fixed
  have size : doc₂.size = doc₁.size := by rw [respells.size_eq, same]
  have ch (pos : Nat) : CharRespells (doc₁.source.charD pos ' ') (doc₂.source.charD pos ' ') :=
    respells.text.charD_of_first (same pos).symm ' '
  have style (pos : Nat) : doc₂.styleAt pos = doc₁.styleAt pos :=
    respells.styleAt (by rw [same])
  have filler (pos : Nat) : doc₂.isFiller pos = doc₁.isFiller pos := by
    have there := respells.isFiller_place pos
    rwa [same] at there
  have lineEnd (pos : Nat) := blind_isLineEnd _ _ (ch pos)
  have lineStart (line : Nat) : doc₂.source.lineStart line = doc₁.source.lineStart line := by
    rw [respells.text.lineStart_eq, same]
  have mark (line : Nat) : doc₂.isStyledContinuation line = doc₁.isStyledContinuation line := by
    have blank := blind_isBlank _ _ (ch (doc₁.source.lineStart line + 5))
    have zero := (ch (doc₁.source.lineStart line + 5)).eq_iff '0' rfl rfl
    simp only [isStyledContinuation, lineStart, style, ← blank, ne_eq, zero]
  fun_induction endsFixed doc₁ doc₁.size line pos with
  | case1 line pos less isFiller ih =>
    rw [endsFixed, size, if_pos less, filler, if_pos isFiller, ← size, ih, size]
  | case2 line pos less noFiller shows =>
    rw [endsFixed, size, if_pos less, filler, if_neg noFiller, ← lineEnd, if_pos shows]
  | case3 line pos less noFiller ends more isMark ih =>
    rw [endsFixed, size, if_pos less, filler, if_neg noFiller, ← lineEnd, if_neg ends,
      respells.text.lineCount_eq, if_pos more, mark, if_pos isMark, lineStart, ← size, ih, size]
  | case4 line pos less noFiller ends more noMark =>
    rw [endsFixed, size, if_pos less, filler, if_neg noFiller, ← lineEnd, if_neg ends,
      respells.text.lineCount_eq, if_pos more, mark, if_neg noMark]
  | case5 line pos less noFiller ends last ih =>
    rw [endsFixed, size, if_pos less, filler, if_neg noFiller, ← lineEnd, if_neg ends,
      respells.text.lineCount_eq, if_neg last, ← size, ih, size]
  | case6 line pos done => rw [endsFixed, size, if_neg done]

/-- `forall` and `where` open a block in both texts or in neither. -/
theorem opensBlock_of_last (line : Nat) {pos₁ pos₂ : Nat} (last : pos₂ + 1 = place (pos₁ + 1)) :
    doc₂.opensBlock form doc₂.size line pos₂ = doc₁.opensBlock form doc₁.size line pos₁ := by
  -- The searches for the two parentheses and for the end of the statement correspond in turn.
  have opening := respells.text.skipWhile_place (blind_eq '(' rfl rfl).not doc₁.size
    (pos₁ + 1)
  rw [← respells.size_eq, ← last] at opening
  have there := respells.last_skipWhile_opening (pos₁ + 1)
  rw [← opening] at there
  have closing := respells.closingParenthesis_of_last
    (doc₁.styleAt (doc₁.source.skipWhile (fun c => !decide (c = '(')) doc₁.size (pos₁ + 1))) there
    Nat.one_pos
  simp only [opensBlock, ne_eq, decide_not]
  rw [respells.styleAt there]
  cases free : form with
  | free => exact respells.endsFree_of_last closing
  | fixed =>
    rw [respells.fixed free, Nat.add_right_cancel_iff] at closing
    rw [closing, respells.endsFixed_eq free]

end Respells

end Document

/-! ## Comments -/

namespace Source.Respells

variable {place : Nat → Nat} {src₁ src₂ : Source} (respells : Respells place src₁ src₂)
  (form : SourceForm)
include respells

theorem commentColumnFrom?_place (pos column : Nat) :
    src₂.commentColumnFrom? form (place pos) column = src₁.commentColumnFrom? form pos column := by
  have inside (pos : Nat) : place pos < src₂.size ↔ pos < src₁.size := by
    rw [← respells.size, respells.place_lt_iff]
  have same (pos : Nat) := respells.charD_of_first (rfl : place pos = place pos) ' '
  have letter (pos : Nat) : (src₂.charD (place pos) ' ').toLower = 'c' ↔
      (src₁.charD pos ' ').toLower = 'c' := (same pos).toLower_eq_iff rfl
  have marks (pos column : Nat) :
      (src₂.charD (place pos) ' ' = '!' ∨ (form = .fixed ∧ column = 0 ∧
        ((src₂.charD (place pos) ' ').toLower = 'c' ∨ src₂.charD (place pos) ' ' = '*'))) ↔
      (src₁.charD pos ' ' = '!' ∨ (form = .fixed ∧ column = 0 ∧
        ((src₁.charD pos ' ').toLower = 'c' ∨ src₁.charD pos ' ' = '*'))) := by
    rw [(same pos).eq_iff '!' rfl rfl, (same pos).eq_iff '*' rfl rfl, letter]
  have blank (pos : Nat) := blind_isBlank _ _ (same pos)
  fun_induction commentColumnFrom? src₁ form pos column with
  | case1 pos column more c mark =>
    rw [commentColumnFrom?, if_pos ((inside pos).2 more)]
    exact if_pos ((marks pos column).2 mark)
  | case2 pos column more c noMark skips ih =>
    have single := respells.place_succ_of_inLine (isLineEnd_of_isBlank skips)
    rw [commentColumnFrom?, if_pos ((inside pos).2 more)]
    dsimp only
    rw [if_neg (mt (marks pos column).1 noMark), if_pos (blank pos ▸ skips), ← single, ih]
  | case3 pos column more c noMark other =>
    rw [commentColumnFrom?, if_pos ((inside pos).2 more)]
    dsimp only
    rw [if_neg (mt (marks pos column).1 noMark), if_neg (blank pos ▸ other)]
  | case4 pos column done =>
    rw [commentColumnFrom?, if_neg (mt (inside pos).1 done)]

theorem commentColumn?_eq (line : Nat) :
    src₂.commentColumn? form line = src₁.commentColumn? form line := by
  rw [commentColumn?, respells.lineStart_eq, respells.commentColumnFrom?_place, commentColumn?]

theorem ahead?_eq (line : Nat) :
    CommentWindow.ahead? src₂ form line = CommentWindow.ahead? src₁ form line := by
  rw [CommentWindow.ahead?, respells.lineCount_eq, respells.commentColumn?_eq, CommentWindow.ahead?]

theorem columnsBefore_eq (count line : Nat) :
    CommentWindow.columnsBefore src₂ form count line =
      CommentWindow.columnsBefore src₁ form count line := by
  induction count generalizing line with
  | zero => rfl
  | succ count ih =>
    cases line with
    | zero => rfl
    | succ line =>
      simp only [CommentWindow.columnsBefore, respells.commentColumn?_eq, ih]

theorem around_eq (line : Nat) :
    CommentWindow.around src₂ form line = CommentWindow.around src₁ form line := by
  simp only [CommentWindow.around, respells.columnsBefore_eq, respells.commentColumn?_eq,
    respells.ahead?_eq]

theorem advance_eq (window : CommentWindow) (line : Nat) :
    window.advance src₂ form line = window.advance src₁ form line := by
  rw [CommentWindow.advance, respells.lineCount_eq, respells.ahead?_eq, CommentWindow.advance]

end Source.Respells

end FortranMarkup
