import FortranMarkup.Folding.CommentWindow
import FortranMarkup.Proofs.Source.Lines

/-!
# What a comment window tells

A window that is built where a pass begins knows less of the lines before than one that has moved
there line by line: it looks no further back than to the nearest line that is no comment. Both tell
what the fold rules for comments ask (`Tells`), so the rules have one outcome
(`CommentWindow.foldChange_eq`).
-/

namespace FortranMarkup

namespace Source

variable {src : Source} {form : SourceForm}

theorem commentColumn?_of_lineStart {line : Nat} (past : src.size ≤ src.lineStart line) :
    src.commentColumn? form line = none := by
  unfold commentColumn? commentColumnFrom?
  rw [if_neg (Nat.not_lt_of_le past)]

theorem commentColumn?_of_lineCount_le {line : Nat} (past : src.lineCount ≤ line) :
    src.commentColumn? form line = none := by
  apply commentColumn?_of_lineStart
  unfold lineCount at past
  by_cases gone : src.lines ≤ line
  · exact Nat.le_of_eq (lineStart_of_le gone).symm
  · split at past
    · rename_i last
      obtain rfl : line = src.lines - 1 := by omega
      exact Nat.le_of_eq last.2.symm
    · exact absurd past gone

/-- The comment column of the line before a line. -/
def columnBefore? (src : Source) (form : SourceForm) : Nat → Option Nat
  | 0 => none
  | line + 1 => src.commentColumn? form line

/-- By how many blocks comments take the line after a line further in: a run of at least three lines
in one column begins on its first line and ends on its last one. -/
def commentChange (src : Source) (form : SourceForm) (line : Nat) : Int :=
  match src.commentColumn? form line with
  | none => 0
  | some column =>
    if src.commentColumn? form (line + 1) = some column then
      if src.columnBefore? form line ≠ some column ∧
          src.commentColumn? form (line + 2) = some column then 1
      else 0
    else if src.columnBefore? form line = some column ∧
        src.columnBefore? form (line - 1) = some column then -1
    else 0

end Source

namespace CommentWindow

variable {src : Source} {form : SourceForm} {line : Nat} {window : CommentWindow}

theorem ahead?_eq (src : Source) (form : SourceForm) (line : Nat) :
    ahead? src form line = src.commentColumn? form line := by
  unfold ahead?
  split
  · rfl
  · rename_i past
    exact (Source.commentColumn?_of_lineCount_le (Nat.le_of_not_lt past)).symm

/-- The window knows the comments from a line on and the one just before it, and those before that
as far as they are comments one after the other. -/
structure Tells (src : Source) (form : SourceForm) (line : Nat) (window : CommentWindow) : Prop where
  length : window.columns.length = 2 * windowReach + 1
  ahead : ∀ offset : Nat, offset ≤ windowReach →
    window.at? offset = src.commentColumn? form (line + offset)
  first : window.at? (-1) = src.columnBefore? form line
  second : window.at? (-1) ≠ none → window.at? (-2) = src.columnBefore? form (line - 1)
  third : window.at? (-1) ≠ none → window.at? (-2) ≠ none →
    window.at? (-3) = src.columnBefore? form (line - 2)

theorem length_columnsBefore (src : Source) (form : SourceForm) (count line : Nat) :
    (columnsBefore src form count line).length = count := by
  fun_induction columnsBefore src form count line with
  | case1 => rfl
  | case2 => simp
  | case3 _ _ _ _ ih => rw [List.length_cons, ih]
  | case4 => simp

theorem at?_around_before (src : Source) (form : SourceForm) (line back : Nat)
    (reach : back < windowReach) :
    (around src form line).at? (-(back + 1 : Nat)) =
      (columnsBefore src form windowReach line)[back]?.getD none := by
  have length := length_columnsBefore src form windowReach line
  have index : (-((back + 1 : Nat) : Int) + windowReach).toNat = windowReach - 1 - back := by
    unfold windowReach
    unfold windowReach at reach
    omega
  rw [at?, if_neg (by unfold windowReach at *; omega), index, around,
    List.getElem?_append_left (by rw [List.length_reverse, length]; omega),
    List.getElem?_reverse (by omega), length]
  congr 3
  omega

theorem at?_around_ahead (src : Source) (form : SourceForm) (line ahead : Nat)
    (reach : ahead ≤ windowReach) :
    (around src form line).at? ahead = src.commentColumn? form (line + ahead) := by
  have length := length_columnsBefore src form windowReach line
  have index : ((ahead : Int) + windowReach).toNat = windowReach + ahead := by omega
  rw [at?, if_neg (by omega), index, around, List.getElem?_append_right (by simp [length])]
  rw [List.length_reverse, length, Nat.add_sub_cancel_left]
  cases ahead with
  | zero => rfl
  | succ ahead =>
    rw [List.getElem?_cons_succ, List.getElem?_map, List.getElem?_range (by omega)]
    simp only [Option.map_some, Option.getD_some, ahead?_eq]
    congr 1
    omega

theorem getElem?_columnsBefore_zero (src : Source) (form : SourceForm) (count line : Nat) :
    (columnsBefore src form (count + 1) line)[0]?.getD none = src.columnBefore? form line := by
  cases line with
  | zero => rfl
  | succ line =>
    rw [columnsBefore, Source.columnBefore?]
    split <;> simp [*]

theorem getElem?_columnsBefore_succ (count back : Nat)
    (comment : src.columnBefore? form line ≠ none) :
    (columnsBefore src form (count + 1) line)[back + 1]? =
      (columnsBefore src form count (line - 1))[back]? := by
  cases line with
  | zero => exact absurd rfl comment
  | succ line =>
    rw [columnsBefore]
    split
    · rfl
    · rename_i none
      exact absurd none comment

theorem tells_around (src : Source) (form : SourceForm) (line : Nat) :
    Tells src form line (around src form line) := by
  have at_one : (around src form line).at? (-1) = _ :=
    at?_around_before src form line 0 (by decide)
  have at_two : (around src form line).at? (-2) = _ :=
    at?_around_before src form line 1 (by decide)
  have at_three : (around src form line).at? (-3) = _ :=
    at?_around_before src form line 2 (by decide)
  rw [windowReach, getElem?_columnsBefore_zero] at at_one
  have second : (around src form line).at? (-1) ≠ none →
      (around src form line).at? (-2) = src.columnBefore? form (line - 1) := by
    intro comment
    rw [at_one] at comment
    rw [at_two, windowReach, getElem?_columnsBefore_succ _ _ comment, getElem?_columnsBefore_zero]
  refine ⟨?_, at?_around_ahead src form line, at_one, second, ?_⟩
  · simp [around, length_columnsBefore]
    rfl
  · intro comment earlier
    rw [second comment] at earlier
    rw [at_one] at comment
    rw [at_three, windowReach, getElem?_columnsBefore_succ _ _ comment,
      getElem?_columnsBefore_succ _ _ earlier, getElem?_columnsBefore_zero]
    rfl

theorem at?_shift (length : window.columns.length = 2 * windowReach + 1) (column : Option Nat)
    {offset : Int} (low : -windowReach ≤ offset) (high : offset < windowReach) :
    (window.shift column).at? offset = window.at? (offset + 1) := by
  obtain ⟨index, same⟩ : ∃ index : Nat, offset + windowReach = index :=
    ⟨(offset + windowReach).toNat, by omega⟩
  have next : offset + 1 + windowReach = (index + 1 : Nat) := by omega
  have bound : index < (window.columns.drop 1).length := by
    rw [List.length_drop, length]
    omega
  rw [at?, at?, if_neg (by omega), if_neg (by omega), same, next, Int.toNat_natCast,
    Int.toNat_natCast, shift, List.getElem?_append_left bound, List.getElem?_drop, Nat.add_comm 1]

theorem at?_shift_last (length : window.columns.length = 2 * windowReach + 1)
    (column : Option Nat) : (window.shift column).at? windowReach = column := by
  have index : ((windowReach : Int) + windowReach).toNat = 2 * windowReach := by decide
  rw [at?, if_neg (by decide), index, shift, List.getElem?_append_right (by simp [length])]
  simp [length]

theorem Tells.advance (tells : Tells src form line window) (more : line + 1 < src.lineCount) :
    Tells src form (line + 1) (window.advance src form (line + 1)) := by
  have length := tells.length
  rw [CommentWindow.advance, if_pos more]
  have back_one : (window.shift (ahead? src form (line + 1 + windowReach))).at? (-1) =
      src.commentColumn? form line :=
    (at?_shift length _ (by decide) (by decide)).trans (tells.ahead 0 (by decide))
  have back_two : (window.shift (ahead? src form (line + 1 + windowReach))).at? (-2) =
      src.columnBefore? form line :=
    (at?_shift length _ (by decide) (by decide)).trans tells.first
  refine ⟨?_, ?_, back_one, fun _ => back_two, ?_⟩
  · simp [shift, length]
  · intro offset reach
    rcases Nat.lt_or_eq_of_le reach with less | rfl
    · rw [at?_shift length _ (by omega) (by omega)]
      refine (tells.ahead (offset + 1) (by omega)).trans ?_
      congr 1
      omega
    · rw [at?_shift_last length, ahead?_eq]
  · intro _ earlier
    rw [back_two] at earlier
    refine (at?_shift length _ (by decide) (by decide)).trans ?_
    exact tells.second (tells.first ▸ earlier)

theorem foldChange_def (window : CommentWindow) :
    window.foldChange =
      match window.at? 0 with
      | none => 0
      | some column =>
        if window.at? 1 = some column then
          if window.at? (-1) ≠ some column ∧ window.at? 2 = some column then 1 else 0
        else if window.at? (-1) = some column ∧ window.at? (-2) = some column then -1 else 0 := by
  have others : List.range' 1 (minCommentRun - 1) = [1, 2] := rfl
  unfold foldChange current?
  cases window.at? 0 with
  | none => rfl
  | some column =>
    by_cases next : window.at? 1 = some column
    · simp [others, next]
    · simp [others, next]

theorem foldChange_of_tells (tells : Tells src form line window) :
    window.foldChange = src.commentChange form line := by
  have zero : window.at? 0 = src.commentColumn? form line := tells.ahead 0 (by decide)
  have one : window.at? 1 = src.commentColumn? form (line + 1) := tells.ahead 1 (by decide)
  have two : window.at? 2 = src.commentColumn? form (line + 2) := tells.ahead 2 (by decide)
  have second := tells.second
  rw [tells.first] at second
  rw [foldChange_def, Source.commentChange, zero, one, two, tells.first]
  split
  · rfl
  · rename_i column _
    by_cases comment : src.columnBefore? form line = some column
    · rw [second (by simp [comment])]
    · simp [comment]

/-! ## Runs before the current line -/

theorem getElem?_columnsBefore_of_none (count back : Nat)
    (none : src.columnBefore? form line = none) :
    (columnsBefore src form (count + 1) line)[back]?.getD Option.none = Option.none := by
  have all : columnsBefore src form (count + 1) line = List.replicate (count + 1) Option.none := by
    cases line with
    | zero => rfl
    | succ line =>
      rw [columnsBefore]
      split
      · rename_i some
        exact absurd (some.symm.trans none) (by simp)
      · rfl
  rw [all, List.getElem?_replicate]
  split <;> rfl

/-- A window that is built for a line looks no further back than to a line that is no comment. -/
theorem columnBefore?_ne_none_of_second (comment : (around src form line).at? (-2) ≠ none) :
    src.columnBefore? form line ≠ none := by
  intro none
  apply comment
  have at_two : (around src form line).at? (-2) = _ :=
    at?_around_before src form line 1 (by decide)
  rw [at_two, windowReach, getElem?_columnsBefore_of_none _ _ none]

/-- The window that is built for a line holds the columns around a comment that it knows of. -/
structure Holds (src : Source) (form : SourceForm) (line : Nat) (window : CommentWindow)
    (back : Nat) : Prop where
  here : window.at? (-back) = src.commentColumn? form line
  before : window.at? (-back - 1) = src.columnBefore? form line
  one : window.at? (1 - back) = src.commentColumn? form (line + 1)
  two : window.at? (2 - back) = src.commentColumn? form (line + 2)

theorem holds_around {back : Nat} (reach : back < windowReach)
    (comment : (around src form (line + back)).at? (-back) ≠ none) :
    Holds src form line (around src form (line + back)) back := by
  have tells := tells_around src form (line + back)
  match back, reach with
  | 0, _ =>
    exact ⟨tells.ahead 0 (by decide), tells.first, tells.ahead 1 (by decide),
      tells.ahead 2 (by decide)⟩
  | 1, _ =>
    exact ⟨tells.first, tells.second comment, tells.ahead 0 (by decide), tells.ahead 1 (by decide)⟩
  | 2, _ =>
    have first : (around src form (line + 2)).at? (-1) ≠ none := by
      rw [tells.first]
      exact columnBefore?_ne_none_of_second comment
    exact ⟨tells.second first, tells.third first comment, tells.first, tells.ahead 0 (by decide)⟩

namespace Holds

variable {back : Nat}

theorem begins_iff (holds : Holds src form line window back) :
    window.begins back = true ↔ src.commentColumn? form line ≠ none ∧
      src.columnBefore? form line ≠ src.commentColumn? form line := by
  simp only [begins, holds.here, holds.before, Bool.and_eq_true, Option.isSome_iff_ne_none,
    decide_eq_true_eq]

theorem folds_iff (holds : Holds src form line window back) :
    window.folds back = true ↔ src.commentColumn? form (line + 1) = src.commentColumn? form line ∧
      src.commentColumn? form (line + 2) = src.commentColumn? form line := by
  have others : List.range' 1 (minCommentRun - 1) = [1, 2] := rfl
  have one : window.at? (((1 : Nat) : Int) - back) = _ := holds.one
  have two : window.at? (((2 : Nat) : Int) - back) = _ := holds.two
  simp only [folds, others, List.all_cons, List.all_nil, Bool.and_true, Bool.and_eq_true,
    decide_eq_true_eq, one, two, holds.here]

end Holds

end CommentWindow

end FortranMarkup
