import FortranMarkup.Folding.Construct
import FortranMarkup.Proofs.Source.Spelling

/-!
# Where constructs open blocks

After `forall` or `where`, the parenthesis that closes the control expression is found wherever its
line is (`closingParenthesis_of_encloses`). In free form, a block follows exactly if nothing but
blanks and a comment is between the parenthesis and a line end. In fixed form, the lines that may
continue the statement are counted from the line of the keyword, and not from that of the
parenthesis: a block follows if the statement has ended with the former (`opensBlock_iff`).
-/

namespace FortranMarkup

theorem Source.skipWhile_of_forall {src : Source} {inClass : Char → Bool} {stop pos found : Nat}
    (le : pos ≤ found) (inside : found < stop)
    (all : ∀ p, pos ≤ p → p < found → inClass (src.charD p ' ') = true)
    (other : inClass (src.charD found ' ') = false) : src.skipWhile inClass stop pos = found := by
  obtain ⟨count, rfl⟩ : ∃ count, found = pos + count := ⟨found - pos, by omega⟩
  induction count generalizing pos with
  | zero =>
    rw [Nat.add_zero] at inside other ⊢
    unfold skipWhile
    rw [if_pos inside, other, if_neg Bool.false_ne_true]
  | succ count ih =>
    have next : pos + (count + 1) = pos + 1 + count := by omega
    rw [next] at inside other all ⊢
    unfold skipWhile
    rw [if_pos (by omega), if_pos (all pos (Nat.le_refl _) (by omega))]
    exact ih (Nat.le_add_right _ _) inside (fun p low => all p (by omega)) other

namespace Document

variable {doc : Document} {style : Style} {form : SourceForm} {stop line pos : Nat}

/-! ## The closing parenthesis -/

/-- By how much a byte changes how many parentheses of a style are open. -/
def nestingAt (doc : Document) (style : Style) (pos : Nat) : Int :=
  if doc.styleAt pos ≠ style then 0
  else if doc.source.charD pos ' ' = '(' then 1
  else if doc.source.charD pos ' ' = ')' then -1
  else 0

theorem neg_one_le_nestingAt (doc : Document) (style : Style) (pos : Nat) :
    -1 ≤ doc.nestingAt style pos := by
  unfold nestingAt
  repeat' split
  all_goals decide

/-- How many parentheses of a style are open so many bytes after one of them. -/
def depthAfter (doc : Document) (style : Style) (opening : Nat) : Nat → Int
  | 0 => 1
  | count + 1 => doc.depthAfter style opening count + doc.nestingAt style (opening + count + 1)

theorem depthAfter_succ (doc : Document) (style : Style) (opening count : Nat) :
    doc.depthAfter style opening (count + 1) =
      doc.depthAfter style opening count + doc.nestingAt style (opening + count + 1) := rfl

theorem depthAfter_of_ne {opening count : Nat}
    (other : ∀ i, i < count → doc.styleAt (opening + 1 + i) ≠ style) :
    doc.depthAfter style opening count = 1 := by
  induction count with
  | zero => rfl
  | succ count ih =>
    have here : doc.nestingAt style (opening + count + 1) = 0 := by
      rw [Nat.add_right_comm]
      exact if_pos (other count (Nat.lt_succ_self _))
    rw [depthAfter_succ, ih (fun i less => other i (Nat.lt_succ_of_lt less)), here, Int.add_zero]

/-- A parenthesis closes an earlier one, by the parentheses in the style of that one. -/
structure Encloses (doc : Document) (opening closing : Nat) : Prop where
  less : opening < closing
  inside : ∀ count, count < closing - opening →
    0 < doc.depthAfter (doc.styleAt opening) opening count
  closes : doc.depthAfter (doc.styleAt opening) opening (closing - opening) = 0

instance (doc : Document) (opening closing : Nat) : Decidable (doc.Encloses opening closing) :=
  decidable_of_iff
    (opening < closing ∧
      (∀ count, count < closing - opening →
        0 < doc.depthAfter (doc.styleAt opening) opening count) ∧
      doc.depthAfter (doc.styleAt opening) opening (closing - opening) = 0)
    ⟨fun ⟨less, inside, closes⟩ => ⟨less, inside, closes⟩,
      fun ⟨less, inside, closes⟩ => ⟨less, inside, closes⟩⟩

theorem closingParenthesis_succ {depth : Nat} (less : pos < stop) (positive : 0 < depth) :
    doc.closingParenthesis style stop pos depth =
      if depth + doc.nestingAt style (pos + 1) = 0 then pos + 1
      else doc.closingParenthesis style stop (pos + 1)
        (depth + doc.nestingAt style (pos + 1)).toNat := by
  rw [closingParenthesis, if_pos less]
  by_cases same : doc.styleAt (pos + 1) = style
  · have nesting : doc.nestingAt style (pos + 1) =
        if doc.source.charD (pos + 1) ' ' = '(' then 1
        else if doc.source.charD (pos + 1) ' ' = ')' then -1 else 0 := if_neg (not_not_intro same)
    rw [if_pos same, nesting]
    split
    case h_1 opens =>
      rw [if_pos opens, if_neg (by omega)]
      rfl
    case h_2 closes =>
      have shut : (if doc.source.charD (pos + 1) ' ' = '(' then (1 : Int)
          else if doc.source.charD (pos + 1) ' ' = ')' then -1 else 0) = -1 := by
        rw [closes]
        rfl
      rw [shut]
      by_cases last : depth ≤ 1
      · rw [if_pos last, if_pos (by omega)]
      · rw [if_neg last, if_neg (by omega), show ((depth : Int) + -1).toNat = depth - 1 by omega]
    case h_3 opens closes =>
      rw [if_neg opens, if_neg closes, Int.add_zero, if_neg (by omega), Int.toNat_natCast]
  · have nesting : doc.nestingAt style (pos + 1) = 0 := if_pos same
    rw [if_neg same, nesting, Int.add_zero, if_neg (by omega), Int.toNat_natCast]

theorem closingParenthesis_of_encloses {opening closing : Nat} (encloses : doc.Encloses opening closing)
    (le : closing ≤ stop) :
    doc.closingParenthesis (doc.styleAt opening) stop opening 1 = closing := by
  obtain ⟨less, inside, closes⟩ := encloses
  obtain ⟨width, rfl⟩ : ∃ width, closing = opening + width := ⟨closing - opening, by omega⟩
  rw [Nat.add_sub_cancel_left] at inside closes
  -- The induction is on the bytes left before the closing parenthesis.
  have search (left count : Nat) (sum : count + left + 1 = width) :
      doc.closingParenthesis (doc.styleAt opening) stop (opening + count)
        (doc.depthAfter (doc.styleAt opening) opening count).toNat = opening + width := by
    induction left generalizing count with
    | zero =>
      have positive := inside count (by omega)
      rw [← sum] at closes
      rw [closingParenthesis_succ (by omega) (by omega), Int.toNat_of_nonneg (Int.le_of_lt positive),
        ← depthAfter_succ, if_pos closes]
      omega
    | succ left ih =>
      have positive := inside count (by omega)
      have next : 0 < doc.depthAfter (doc.styleAt opening) opening (count + 1) :=
        inside (count + 1) (by omega)
      rw [closingParenthesis_succ (by omega) (by omega), Int.toNat_of_nonneg (Int.le_of_lt positive),
        ← depthAfter_succ, if_neg (Int.ne_of_gt next)]
      exact ih (count + 1) (by omega)
  exact search (width - 1) 0 (by omega)

theorem Encloses.lt_size {opening closing : Nat} (encloses : doc.Encloses opening closing) :
    closing < doc.size := by
  obtain ⟨less, inside, closes⟩ := encloses
  obtain ⟨width, rfl⟩ : ∃ width, closing = opening + width + 1 := ⟨closing - opening - 1, by omega⟩
  have before := inside width (by omega)
  rw [show opening + width + 1 - opening = width + 1 by omega, depthAfter] at closes
  apply Nat.lt_of_not_le
  intro past
  -- Past the end there are only blanks, which leave the depth as it is.
  rw [nestingAt, Source.charD_of_le past, if_neg (by decide : ' ' ≠ '('),
    if_neg (by decide : ' ' ≠ ')'), ite_self] at closes
  omega

/-! ## What follows it -/

/-- Nothing but blanks and comments is between a position and a line end. -/
def BlankToEnd (doc : Document) (pos : Nat) : Prop :=
  ∃ last, pos < last ∧ isLineEnd (doc.source.charD last ' ') = true ∧
    ∀ p, p < last → pos < p → doc.isFiller p = true

/-- More of the statement follows a position on the same line. -/
def ShowsAfter (doc : Document) (form : SourceForm) (pos : Nat) : Prop :=
  ∃ shown, pos < shown ∧ doc.isFiller shown = false ∧
    isLineEnd (doc.source.charD shown ' ') = false ∧
    (form = .free → ¬(doc.source.charD shown ' ' = '&' ∧ doc.styleAt shown = .continuation)) ∧
    ∀ p, p < shown → pos < p → doc.isFiller p = true

/-- The lines after a line show no more of its statement in fixed form: they have nothing behind
their continuation marks, up to a line that has no mark. -/
inductive EndsAfter (doc : Document) : Nat → Prop
  | initial {line : Nat} (more : line + 1 < doc.source.lineCount)
      (initial : doc.isStyledContinuation (line + 1) = false) : EndsAfter doc line
  | empty {line : Nat} (more : line + 1 < doc.source.lineCount)
      (mark : doc.isStyledContinuation (line + 1) = true)
      (blank : doc.BlankToEnd (doc.source.lineStart (line + 1) + 5))
      (rest : EndsAfter doc (line + 1)) : EndsAfter doc line

theorem lt_size_of_isLineEnd (ends : isLineEnd (doc.source.charD pos ' ') = true) :
    pos < doc.size := by
  apply Nat.lt_of_not_le
  intro past
  rw [Source.charD_of_le past] at ends
  cases ends

theorem lt_size_of_not_isFiller (shown : doc.isFiller pos = false) : pos < doc.size := by
  apply Nat.lt_of_not_le
  intro past
  rw [isFiller, Source.charD_of_le past] at shown
  simp [isLineEnd, isBlank] at shown

theorem isFiller_of_isLineEnd (ends : isLineEnd (doc.source.charD pos ' ') = true) :
    doc.isFiller pos = false := by
  rw [isFiller, ends]
  rfl

theorem eq_of_fillers {f : Nat → Bool} {last : Nat}
    (skips : ∀ p, p < stop → doc.isFiller (p + 1) = true → f p = f (p + 1)) (less : pos < last + 1)
    (inside : last ≤ stop) (fillers : ∀ p, p < last + 1 → pos < p → doc.isFiller p = true) :
    f pos = f last := by
  have le : pos ≤ last := Nat.le_of_lt_succ less
  induction le with
  | refl => rfl
  | @step last le ih =>
    have le : pos ≤ last := le
    rw [ih (by omega) (by omega) (fun p high => fillers p (by omega))]
    exact skips last (by omega) (fillers (last + 1) (Nat.lt_succ_self _) (by omega))

/-- Blanks and comments do not decide whether a statement has ended. -/
theorem endsFree_of_fillers {last : Nat} (less : pos < last + 1) (inside : last ≤ stop)
    (fillers : ∀ p, p < last + 1 → pos < p → doc.isFiller p = true) :
    doc.endsFree stop pos = doc.endsFree stop last := by
  refine eq_of_fillers (fun p before filler => ?_) less inside fillers
  conv => lhs; unfold endsFree
  rw [if_pos before, if_pos filler]

theorem endsFixed_of_fillers {last : Nat} (less : pos < last + 1) (inside : last ≤ stop)
    (fillers : ∀ p, p < last + 1 → pos < p → doc.isFiller p = true) :
    doc.endsFixed stop line pos = doc.endsFixed stop line last := by
  refine eq_of_fillers (fun p before filler => ?_) less inside fillers
  conv => lhs; unfold endsFixed
  rw [if_pos before, if_pos filler]

theorem endsFree_of_blankToEnd (blank : doc.BlankToEnd pos) : doc.endsFree doc.size pos = true := by
  obtain ⟨last, less, ends, fillers⟩ := blank
  have inside := lt_size_of_isLineEnd ends
  obtain ⟨before, rfl⟩ : ∃ before, last = before + 1 := ⟨last - 1, by omega⟩
  rw [endsFree_of_fillers less (by omega) fillers, endsFree]
  dsimp only
  rw [if_pos (by omega), isFiller_of_isLineEnd ends, if_neg Bool.false_ne_true, if_neg, ends]
  rintro ⟨mark, -⟩
  rw [mark] at ends
  cases ends

theorem ends_of_showsAfter (shows : doc.ShowsAfter form pos) (line : Nat) :
    (form = .free → doc.endsFree doc.size pos = false) ∧
      doc.endsFixed doc.size line pos = false := by
  obtain ⟨shown, less, filler, inLine, mark, fillers⟩ := shows
  have inside := lt_size_of_not_isFiller filler
  obtain ⟨before, rfl⟩ : ∃ before, shown = before + 1 := ⟨shown - 1, by omega⟩
  constructor
  · intro free
    rw [endsFree_of_fillers less (by omega) fillers, endsFree]
    dsimp only
    rw [if_pos (by omega), filler, if_neg Bool.false_ne_true, if_neg (mark free), inLine]
  · rw [endsFixed_of_fillers less (by omega) fillers, endsFixed, if_pos (by omega), filler,
      if_neg Bool.false_ne_true, inLine]
    rfl

theorem blankToEnd_of_endsFixed (ended : doc.endsFixed stop line pos = true) :
    line + 1 < doc.source.lineCount ∧ doc.BlankToEnd pos := by
  -- A mark with nothing behind it leaves the search on a later line: what ends there has a next line.
  fun_induction endsFixed doc stop line pos with
  | case1 line pos inside filler ih =>
    obtain ⟨more, last, less, ends, fillers⟩ := ih ended
    refine ⟨more, last, by omega, ends, fun p high low => ?_⟩
    rcases Nat.lt_or_eq_of_le (show pos + 1 ≤ p from low) with later | rfl
    · exact fillers p high later
    · exact filler
  | case2 => cases ended
  | case3 line pos inside _ ends more | case4 line pos inside _ ends more =>
    refine ⟨more, pos + 1, Nat.lt_succ_self _, by simpa using ends, fun p high low => ?_⟩
    omega
  | case5 line pos inside _ ends last ih => exact absurd (ih ended).1 last
  | case6 => cases ended

theorem endsFixed_of_blankToEnd (more : line + 1 < doc.source.lineCount)
    (blank : doc.BlankToEnd pos) :
    doc.endsFixed doc.size line pos =
      if doc.isStyledContinuation (line + 1) then
        doc.endsFixed doc.size (line + 1) (doc.source.lineStart (line + 1) + 5)
      else true := by
  obtain ⟨last, less, ends, fillers⟩ := blank
  have inside := lt_size_of_isLineEnd ends
  obtain ⟨before, rfl⟩ : ∃ before, last = before + 1 := ⟨last - 1, by omega⟩
  rw [endsFixed_of_fillers less (by omega) fillers]
  conv => lhs; unfold endsFixed
  rw [if_pos (by omega), isFiller_of_isLineEnd ends, if_neg Bool.false_ne_true, ends, if_pos more]
  rfl

/-- In fixed form a statement that shows nothing more after a position has ended, for the search from
a line, exactly if the lines after that line show no more of it. -/
theorem endsFixed_iff (blank : doc.BlankToEnd pos) :
    doc.endsFixed doc.size line pos = true ↔ doc.EndsAfter line := by
  constructor
  · intro ended
    -- Each continuation mark takes the search one line further, so the induction is on the lines left.
    obtain ⟨left, sum⟩ : ∃ left, left + line = doc.source.lineCount :=
      ⟨doc.source.lineCount - line, by have := (blankToEnd_of_endsFixed ended).1; omega⟩
    induction left generalizing line pos with
    | zero =>
      have more := (blankToEnd_of_endsFixed ended).1
      omega
    | succ left ih =>
      have more := (blankToEnd_of_endsFixed ended).1
      rw [endsFixed_of_blankToEnd more blank] at ended
      cases mark : doc.isStyledContinuation (line + 1) with
      | false => exact .initial more mark
      | true =>
        rw [mark, if_pos rfl] at ended
        have next := (blankToEnd_of_endsFixed ended).2
        exact .empty more mark next (ih next ended (by omega))
  · intro ended
    induction ended generalizing pos with
    | initial more initial =>
      rw [endsFixed_of_blankToEnd more blank, initial]
      rfl
    | empty more mark next _ ih =>
      rw [endsFixed_of_blankToEnd more blank, mark]
      exact ih next

/-! ## The answer -/

/-- A control expression in parentheses after a position, which a parenthesis at another one closes.
-/
structure Controls (doc : Document) (pos opening closing : Nat) : Prop where
  less : pos < opening
  blank : ∀ p, p < opening → pos < p → isBlank (doc.source.charD p ' ') = true
  opens : doc.source.charD opening ' ' = '('
  encloses : doc.Encloses opening closing

instance (doc : Document) (pos opening closing : Nat) :
    Decidable (doc.Controls pos opening closing) :=
  decidable_of_iff
    (pos < opening ∧
      (∀ p, p < opening → pos < p → isBlank (doc.source.charD p ' ') = true) ∧
      doc.source.charD opening ' ' = '(' ∧ doc.Encloses opening closing)
    ⟨fun ⟨less, blank, opens, encloses⟩ => ⟨less, blank, opens, encloses⟩,
      fun ⟨less, blank, opens, encloses⟩ => ⟨less, blank, opens, encloses⟩⟩

theorem opensBlock_of_controls {opening closing : Nat} (controls : doc.Controls pos opening closing)
    (line : Nat) :
    doc.opensBlock .fixed doc.size line pos = doc.endsFixed doc.size line closing ∧
      doc.opensBlock .free doc.size line pos = doc.endsFree doc.size closing := by
  have inside := controls.encloses.lt_size
  have less := controls.encloses.less
  have found : doc.source.skipWhile (· ≠ '(') doc.size (pos + 1) = opening := by
    refine Source.skipWhile_of_forall controls.less (Nat.lt_trans less inside) (fun p low high => ?_) ?_
    · have blank := controls.blank p high low
      rw [decide_eq_true_eq]
      intro opens
      rw [opens] at blank
      cases blank
    · rw [controls.opens]
      rfl
  have closed := closingParenthesis_of_encloses controls.encloses (Nat.le_of_lt inside)
  constructor
  all_goals
    unfold opensBlock
    dsimp only
    rw [found, closed]

/-- A keyword with nothing after its control expression opens a block, in fixed form only if the
lines after that of the keyword show no more of the statement. -/
theorem opensBlock_iff {opening closing : Nat} (controls : doc.Controls pos opening closing)
    (blank : doc.BlankToEnd closing) :
    doc.opensBlock form doc.size line pos = true ↔ (form = .fixed → doc.EndsAfter line) := by
  obtain ⟨fixed, free⟩ := opensBlock_of_controls controls line
  cases form with
  | fixed =>
    rw [fixed, endsFixed_iff blank]
    exact ⟨fun ended _ => ended, fun ended => ended rfl⟩
  | free =>
    rw [free, endsFree_of_blankToEnd blank]
    exact iff_of_true rfl (fun fixed => absurd fixed (by decide))

theorem opensBlock_of_showsAfter {opening closing : Nat} (controls : doc.Controls pos opening closing)
    (shows : doc.ShowsAfter form closing) : doc.opensBlock form doc.size line pos = false := by
  obtain ⟨fixed, free⟩ := opensBlock_of_controls controls line
  obtain ⟨shown, shown'⟩ := ends_of_showsAfter shows line
  cases form with
  | fixed => rw [fixed, shown']
  | free => rw [free, shown rfl]

end Document

end FortranMarkup
