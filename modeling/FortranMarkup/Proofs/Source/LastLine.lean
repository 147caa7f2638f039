import FortranMarkup.Folding.CommentWindow
import FortranMarkup.Folding.Construct
import FortranMarkup.Proofs.Source.Spelling

/-!
# A line end for the last line

A text whose last line has no line end, and the same text with a line feed there
(`Source.EndsLast`). Both have the same lines, but for the empty one after the line feed, and they
agree before the last line (`EndsLast.agree`); the comments of their lines are the same.
-/

namespace FortranMarkup

namespace Source

/-- The second text is the first one, whose last line has no line end, with a line feed after it. -/
structure EndsLast (src₁ src₂ : Source) : Prop where
  table₁ : src₁.Tabled
  table₂ : src₂.Tabled
  bytes : src₂.bytes = src₁.bytes.push 0x0A
  nonempty : 0 < src₁.size
  unended : isLineEnd (src₁.charD (src₁.size - 1) '\x00') = false

/-- The position at which the last line starts. -/
def lastStart (src : Source) : Nat :=
  src.lineStart (src.lines - 1)

namespace EndsLast

variable {src₁ src₂ : Source} (ends : EndsLast src₁ src₂)
include ends

theorem size_eq : src₂.size = src₁.size + 1 := by
  unfold size
  rw [ends.bytes, Array.size_push]

theorem char?_eq {pos : Nat} (inside : pos < src₁.size) : src₂.char? pos = src₁.char? pos := by
  unfold char? charAt?
  rw [ends.bytes, Array.getElem?_push_lt inside, Array.getElem?_eq_getElem inside]

theorem char?_size : src₂.char? src₁.size = some '\n' := by
  unfold char? charAt? size
  rw [ends.bytes, Array.getElem?_push_size]
  rfl

theorem charD_eq {pos : Nat} (inside : pos < src₁.size) (past : Char) :
    src₂.charD pos past = src₁.charD pos past :=
  congrArg (Option.getD · past) (ends.char?_eq inside)

theorem charD_size (past : Char) : src₂.charD src₁.size past = '\n' := by
  rw [charD, ends.char?_size]
  rfl

/-- What is no line end in the second text is a byte of the first one. -/
theorem lt_size_of_inLine {pos : Nat} (inLine : isLineEnd (src₂.charD pos '\n') = false) :
    pos < src₁.size := by
  apply Nat.lt_of_not_le
  intro past
  rcases Nat.lt_or_eq_of_le past with past | rfl
  · rw [charD_of_le (ends.size_eq ▸ Nat.succ_le_of_lt past)] at inLine
    cases inLine
  · rw [ends.charD_size] at inLine
    cases inLine

/-! ## Lines -/

theorem not_endsLineAt_last {pos : Nat} (last : pos + 1 = src₁.size) (src : Source)
    (same : src.char? pos = src₁.char? pos) : endsLineAt src.bytes pos = false := by
  apply Bool.eq_false_iff.2
  intro here
  have lineEnd : isLineEnd (src.charD pos '\x00') = true := isLineEnd_of_endsLineAt _ here
  have inLine := ends.unended
  rw [← last, Nat.add_sub_cancel, charD, ← same] at inLine
  rw [charD, inLine] at lineEnd
  cases lineEnd

theorem endsLineAt_eq {pos : Nat} (inside : pos < src₁.size) :
    endsLineAt src₂.bytes pos = endsLineAt src₁.bytes pos := by
  rcases Nat.lt_or_eq_of_le (Nat.succ_le_of_lt inside) with next | last
  · have here : charAt? src₂.bytes pos = charAt? src₁.bytes pos := ends.char?_eq inside
    have after : charAt? src₂.bytes (pos + 1) = charAt? src₁.bytes (pos + 1) := ends.char?_eq next
    rw [endsLineAt, endsLineAt, here, after]
  · rw [ends.not_endsLineAt_last last src₁ rfl,
      ends.not_endsLineAt_last last src₂ (ends.char?_eq inside)]

theorem endsLineAt_size : endsLineAt src₂.bytes src₁.size = true := by
  have feed : charAt? src₂.bytes src₁.size = some '\n' := ends.char?_size
  simp [endsLineAt, feed]

theorem lineAt_eq {pos : Nat} (inside : pos ≤ src₁.size) : src₂.lineAt pos = src₁.lineAt pos := by
  induction pos with
  | zero => rw [lineAt_zero ends.table₁, lineAt_zero ends.table₂]
  | succ pos ih =>
    rw [lineAt_succ ends.table₁, lineAt_succ ends.table₂, ends.endsLineAt_eq inside,
      ih (Nat.le_of_lt inside)]

theorem lines_eq : src₂.lines = src₁.lines + 1 := by
  rw [← lineAt_size ends.table₁, ← lineAt_size ends.table₂, ends.size_eq, lineAt_succ ends.table₂,
    if_pos ends.endsLineAt_size, ends.lineAt_eq (Nat.le_refl _)]

theorem startsLine_iff {pos : Nat} (inside : pos ≤ src₁.size) :
    src₂.StartsLine pos ↔ src₁.StartsLine pos := by
  cases pos with
  | zero => simp
  | succ pos => rw [startsLine_succ, startsLine_succ, ends.endsLineAt_eq inside]

theorem lineStart_eq {line : Nat} (bound : line < src₁.lines) :
    src₂.lineStart line = src₁.lineStart line := by
  have starts := startsLine_lineStart ends.table₁ bound
  have inside := lineStart_le_size ends.table₁ line
  rw [← lineStart_lineAt_of_startsLine ends.table₂ ((ends.startsLine_iff inside).2 starts),
    ends.lineAt_eq inside, lineAt_lineStart ends.table₁ bound]

theorem lineStart_lines : src₂.lineStart src₁.lines = src₂.size := by
  have starts : src₂.StartsLine (src₁.size + 1) := startsLine_succ.2 ends.endsLineAt_size
  have last := lineAt_size ends.table₂
  rw [ends.lines_eq, Nat.add_right_cancel_iff] at last
  rw [← ends.size_eq] at starts
  rw [← last, lineStart_lineAt_of_startsLine ends.table₂ starts]

theorem lastStart_lt : src₁.lastStart < src₁.size := by
  have bound := lines_pos ends.table₁
  have starts : src₁.StartsLine src₁.lastStart :=
    startsLine_lineStart ends.table₁ (Nat.sub_lt bound Nat.one_pos)
  refine Nat.lt_of_le_of_ne (lineStart_le_size ends.table₁ _) ?_
  intro same
  obtain ⟨last, is⟩ : ∃ last, src₁.size = last + 1 := ⟨src₁.size - 1, by have := ends.nonempty; omega⟩
  rw [same, is, startsLine_succ, ends.not_endsLineAt_last is.symm src₁ rfl] at starts
  cases starts

/-- The texts agree before the last line. -/
theorem agree : src₁.AgreeTo src₁.lastStart src₂ where
  char := fun _ less => (ends.char?_eq (Nat.lt_trans less ends.lastStart_lt)).symm
  starts₁ := startsLine_lineStart ends.table₁ (Nat.sub_lt (lines_pos ends.table₁) Nat.one_pos)
  starts₂ := (ends.startsLine_iff (Nat.le_of_lt ends.lastStart_lt)).2
    (startsLine_lineStart ends.table₁ (Nat.sub_lt (lines_pos ends.table₁) Nat.one_pos))

theorem lineCount₁ : src₁.lineCount = src₁.lines := by
  have less := ends.lastStart_lt
  unfold lastStart at less
  rw [lineCount, if_neg (by omega)]

theorem lineCount₂ : src₂.lineCount = src₁.lines := by
  have size := ends.size_eq
  rw [lineCount, if_pos, ends.lines_eq, Nat.add_sub_cancel]
  rw [ends.lines_eq, Nat.add_sub_cancel]
  exact ⟨by omega, ends.lineStart_lines⟩

theorem lt_lastStart_of_endsLineAt {pos : Nat} (here : endsLineAt src₁.bytes pos = true) :
    pos < src₁.lastStart := by
  apply Nat.lt_of_not_le
  intro le
  have mono := lineAt_mono ends.table₁ le
  have bound := lineAt_lt_lines ends.table₁ (pos + 1)
  have last := lineAt_lineStart ends.table₁ (Nat.sub_lt (lines_pos ends.table₁) Nat.one_pos)
  rw [← lastStart] at last
  rw [lineAt_succ ends.table₁, if_pos here] at bound
  omega

/-- The last line of the first text shows no line end. -/
theorem lt_lastStart {pos : Nat} (lineEnd : isLineEnd (src₁.charD pos ' ') = true) :
    pos < src₁.lastStart := by
  simp only [isLineEnd, Bool.or_eq_true, decide_eq_true_eq] at lineEnd
  have held {pos : Nat} {c : Char} (here : src₁.charD pos ' ' = c) (other : c ≠ ' ') :
      charAt? src₁.bytes pos = some c := char?_of_charD here other
  rcases lineEnd with feed | ret
  · apply ends.lt_lastStart_of_endsLineAt
    simp [endsLineAt, held feed (by decide)]
  · by_cases feed : charAt? src₁.bytes (pos + 1) = some '\n'
    · have next : endsLineAt src₁.bytes (pos + 1) = true := by simp [endsLineAt, feed]
      exact Nat.lt_of_succ_lt (ends.lt_lastStart_of_endsLineAt next)
    · apply ends.lt_lastStart_of_endsLineAt
      simp [endsLineAt, held ret (by decide), feed]

/-- The second text shows no other line end from there on than the line feed that it has more. -/
theorem lt_lastStart_of_ne {pos : Nat} (lineEnd : isLineEnd (src₂.charD pos ' ') = true)
    (other : pos ≠ src₁.size) : pos < src₁.lastStart := by
  have size := ends.size_eq
  rcases Nat.lt_or_gt_of_ne other with inside | past
  · rw [ends.charD_eq inside] at lineEnd
    exact ends.lt_lastStart lineEnd
  · rw [charD_of_le (by omega)] at lineEnd
    cases lineEnd

/-! ## Comments -/

theorem commentColumnFrom?_eq (form : SourceForm) {pos : Nat} (inside : pos ≤ src₁.size)
    (column : Nat) :
    src₂.commentColumnFrom? form pos column = src₁.commentColumnFrom? form pos column := by
  have size := ends.size_eq
  fun_induction commentColumnFrom? src₁ form pos column with
  | case1 pos column less c mark =>
    rw [commentColumnFrom?, if_pos (by omega), ends.charD_eq less]
    exact if_pos mark
  | case2 pos column less c noMark blank ih =>
    rw [commentColumnFrom?, if_pos (by omega), ends.charD_eq less]
    dsimp only
    rw [if_neg noMark, if_pos blank, ih (Nat.succ_le_of_lt less)]
  | case3 pos column less c noMark other =>
    rw [commentColumnFrom?, if_pos (by omega), ends.charD_eq less]
    dsimp only
    rw [if_neg noMark, if_neg other]
  | case4 pos column done =>
    obtain rfl : pos = src₁.size := Nat.le_antisymm inside (Nat.le_of_not_lt done)
    rw [commentColumnFrom?, if_pos (by omega), ends.charD_size]
    simp [isBlank]

theorem commentColumn?_eq (form : SourceForm) {line : Nat} (bound : line < src₁.lines) :
    src₂.commentColumn? form line = src₁.commentColumn? form line := by
  rw [commentColumn?, ends.lineStart_eq bound,
    ends.commentColumnFrom?_eq form (lineStart_le_size ends.table₁ line), commentColumn?]

theorem ahead?_eq (form : SourceForm) (line : Nat) :
    CommentWindow.ahead? src₂ form line = CommentWindow.ahead? src₁ form line := by
  rw [CommentWindow.ahead?, CommentWindow.ahead?, ends.lineCount₁, ends.lineCount₂]
  split
  · exact ends.commentColumn?_eq form ‹_›
  · rfl

/-- The window around the first line. -/
theorem around_zero_eq (form : SourceForm) :
    CommentWindow.around src₂ form 0 = CommentWindow.around src₁ form 0 := by
  simp only [CommentWindow.around, CommentWindow.columnsBefore, windowReach, ends.ahead?_eq,
    ends.commentColumn?_eq form (lines_pos ends.table₁)]

theorem advance_eq (window : CommentWindow) (form : SourceForm) (line : Nat) :
    window.advance src₂ form line = window.advance src₁ form line := by
  rw [CommentWindow.advance, CommentWindow.advance, ends.lineCount₁, ends.lineCount₂,
    ends.ahead?_eq]

end EndsLast

end Source

end FortranMarkup
