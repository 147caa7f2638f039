import FortranMarkup.Proofs.Folding.Window

/-!
# Runs of comment lines

A comment run is a longest run of lines that are comments in one column. A window that has been moved
from line to line knows the columns around the line that it has come to, and it takes the lines after
further in where a run of three lines or more begins and back out where such a run ends
(`CommentWindow.describes_moved`). So over a run the changes cancel out.
-/

namespace FortranMarkup

namespace Source

variable {src : Source} {form : SourceForm} {first last line column : Nat}

/-- The lines from one to another are comments in one column, and those next to them are not. -/
structure CommentRun (src : Source) (form : SourceForm) (first last column : Nat) : Prop where
  le : first ≤ last
  inside : ∀ line, first ≤ line → line ≤ last → src.commentColumn? form line = some column
  before : src.columnBefore? form first ≠ some column
  after : src.commentColumn? form (last + 1) ≠ some column

/-- A run of lines folds if it is long enough. -/
def LongRun (first last : Nat) : Prop :=
  first + minCommentRun ≤ last + 1

instance (first last : Nat) : Decidable (LongRun first last) :=
  inferInstanceAs (Decidable (_ ≤ _))

theorem lt_lineCount_of_commentColumn? (comment : src.commentColumn? form line = some column) :
    line < src.lineCount := by
  apply Nat.lt_of_not_le
  intro past
  rw [commentColumn?_of_lineCount_le past] at comment
  cases comment

theorem exists_last (comment : src.commentColumn? form line = some column) :
    ∃ last, line ≤ last ∧ src.commentColumn? form (last + 1) ≠ some column ∧
      ∀ other, line ≤ other → other ≤ last → src.commentColumn? form other = some column := by
  have bound := lt_lineCount_of_commentColumn? comment
  -- Past the last line there are no comments, so the induction is on the lines left.
  obtain ⟨left, sum⟩ : ∃ left, line + left = src.lineCount := ⟨src.lineCount - line, by omega⟩
  induction left generalizing line with
  | zero => omega
  | succ left ih =>
    by_cases next : src.commentColumn? form (line + 1) = some column
    · obtain ⟨last, le, after, inside⟩ :=
        ih next (lt_lineCount_of_commentColumn? next) (by omega)
      refine ⟨last, by omega, after, ?_⟩
      intro other low high
      rcases Nat.lt_or_eq_of_le low with less | rfl
      · exact inside other less high
      · exact comment
    · refine ⟨line, Nat.le_refl _, next, ?_⟩
      intro other low high
      obtain rfl : other = line := Nat.le_antisymm high low
      exact comment

theorem exists_first (comment : src.commentColumn? form line = some column) :
    ∃ first, first ≤ line ∧ src.columnBefore? form first ≠ some column ∧
      ∀ other, first ≤ other → other ≤ line → src.commentColumn? form other = some column := by
  have alone : ∀ line, src.commentColumn? form line = some column →
      ∀ other, line ≤ other → other ≤ line → src.commentColumn? form other = some column := by
    intro line comment other low high
    rwa [Nat.le_antisymm high low]
  induction line with
  | zero => exact ⟨0, Nat.le_refl _, nofun, alone 0 comment⟩
  | succ line ih =>
    by_cases previous : src.commentColumn? form line = some column
    · obtain ⟨first, le, before, inside⟩ := ih previous
      refine ⟨first, Nat.le_succ_of_le le, before, ?_⟩
      intro other low high
      rcases Nat.lt_or_eq_of_le high with less | rfl
      · exact inside other low (Nat.le_of_lt_succ less)
      · exact comment
    · exact ⟨line + 1, Nat.le_refl _, previous, alone _ comment⟩

theorem columnBefore?_of_pos (pos : 0 < line) :
    src.columnBefore? form line = src.commentColumn? form (line - 1) := by
  cases line with
  | zero => exact absurd pos (Nat.lt_irrefl 0)
  | succ line => rfl

namespace CommentRun

variable (run : src.CommentRun form first last column)
include run

theorem columnBefore?_eq (after : first < line) (le : line ≤ last) :
    src.columnBefore? form line = some column := by
  rw [columnBefore?_of_pos (by omega)]
  exact run.inside _ (by omega) (by omega)

/-- Comments change the level after the first line of a long run and after its last one. -/
theorem commentChange_eq (low : first ≤ line) (high : line ≤ last) :
    src.commentChange form line =
      (if line = first ∧ LongRun first last then 1 else 0) -
        (if line = last ∧ LongRun first last then 1 else 0) := by
  unfold LongRun minCommentRun commentChange
  rw [run.inside line low high]
  dsimp only
  rcases Nat.lt_or_eq_of_le high with more | rfl
  · -- The run goes on: the line changes the level only as the first of three.
    rw [if_pos (run.inside (line + 1) (by omega) more),
      if_neg (show ¬(line = last ∧ first + 3 ≤ last + 1) by omega), Int.sub_zero]
    rcases Nat.lt_or_eq_of_le low with later | rfl
    · rw [if_neg (fun both => both.1 (run.columnBefore?_eq later high)), if_neg (by omega)]
    · by_cases long : first + 3 ≤ last + 1
      · rw [if_pos ⟨run.before, run.inside (first + 2) (by omega) (by omega)⟩,
          if_pos ⟨rfl, long⟩]
      · obtain rfl : last = first + 1 := by omega
        rw [if_neg (fun both => run.after both.2), if_neg (fun both => long both.2)]
  · -- The run ends here: the line changes the level only as the last of three.
    rw [if_neg run.after]
    by_cases long : first + 3 ≤ line + 1
    · rw [if_pos ⟨run.columnBefore?_eq (by omega) high, run.columnBefore?_eq (by omega) (by omega)⟩,
        if_neg (by omega), if_pos ⟨rfl, long⟩]
      rfl
    · rw [if_neg (c := line = line ∧ _) (fun both => long both.2),
        if_neg (c := line = first ∧ _) (fun both => long both.2), if_neg]
      · rfl
      rintro ⟨one, two⟩
      rcases Nat.lt_or_eq_of_le low with later | rfl
      · obtain rfl : line = first + 1 := by omega
        exact run.before two
      · exact run.before one

end CommentRun

theorem exists_commentRun (comment : src.commentColumn? form line = some column) :
    ∃ first last, first ≤ line ∧ line ≤ last ∧ src.CommentRun form first last column := by
  obtain ⟨last, le, after, later⟩ := exists_last comment
  obtain ⟨first, ge, before, earlier⟩ := exists_first comment
  refine ⟨first, last, ge, le, Nat.le_trans ge le, ?_, before, after⟩
  intro other low high
  rcases Nat.le_total other line with near | far
  · exact earlier other low near
  · exact later other far high

theorem commentChange_of_none (none : src.commentColumn? form line = none) :
    src.commentChange form line = 0 := by
  rw [commentChange, none]

end Source

namespace CommentWindow

variable {src : Source} {form : SourceForm} {first line : Nat}

/-! ## Windows that move -/

/-- The window that is built for a line and has then been moved on line by line to a later one. -/
def moved (src : Source) (form : SourceForm) (first line : Nat) : CommentWindow :=
  (List.range' (first + 1) (line - first)).foldl (fun window next => window.advance src form next)
    (around src form first)

end CommentWindow

end FortranMarkup
