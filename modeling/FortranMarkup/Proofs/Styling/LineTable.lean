import FortranMarkup.Proofs.Styling.Tracking

/-!
# The cursor and the table of lines

A cursor never looks its position up again. It takes its line and its flags along when it moves
forward, and the last line and the step past the end are cases of their own. However it gets to a
position in the text (`Cursor.Walks`), it knows of it what the table says
(`Cursor.agrees_of_walks`).
-/

namespace FortranMarkup

theorem Source.endsLine_lineAt_iff {src : Source} (table : src.Tabled) {pos : Nat}
    (inside : pos ≤ src.size) :
    src.endsLine (src.lineAt pos) pos = true ↔
      (src.lineAt pos + 1 < src.lines ∧ pos + 1 = src.lineEnd (src.lineAt pos)) ∨
        pos = src.size := by
  have last := lineAt_size table
  unfold endsLine
  by_cases more : src.lineAt pos + 1 < src.lines
  · have before := lt_lineEnd_lineAt table more
    have notAtEnd : pos ≠ src.size := by
      rintro rfl
      omega
    simp only [more, notAtEnd, if_true, decide_eq_true_eq, true_and, or_false]
    exact ⟨Nat.le_antisymm before, Nat.le_of_eq ∘ Eq.symm⟩
  · have lineEnd : src.lineEnd (src.lineAt pos) = src.size :=
      lineStart_of_le (Nat.le_of_not_lt more)
    simp only [more, lineEnd, if_false, decide_eq_true_eq, false_and, false_or]
    exact ⟨Nat.le_antisymm inside, Nat.le_of_eq ∘ Eq.symm⟩

namespace Cursor

variable {src : Source} {start stop : Nat} {c d : Cursor src start stop}

/-- The second cursor comes from the first by moving forward as long as the walk goes on, by opening
segments and by relabeling them, in any order. -/
inductive Walks : Cursor src start stop → Cursor src start stop → Prop
  | here (c : Cursor src start stop) : Walks c c
  | forward {c d : Cursor src start stop} : Walks c d → d.more = true → Walks c d.forward
  | setState {c d : Cursor src start stop} (state : Style) : Walks c d → Walks c (d.setState state)
  | relabel {c d : Cursor src start stop} (state : Style) : Walks c d → Walks c (d.relabel state)

/-- One step past the end of the text the cursor tracks nothing any more, and it never comes back. -/
theorem Walks.tracks (walks : Walks c d) (table : src.Tabled) (tracks : c.Tracks)
    (inside : d.pos ≤ src.size) : d.Tracks := by
  induction walks with
  | here => exact tracks
  | forward _ more ih =>
    have going := of_decide_eq_true more
    rw [pos_forward_of_lt going] at inside
    exact (ih (Nat.le_of_lt inside)).forward table inside going
  | setState state _ ih => exact (ih inside).paint.relabel state
  | relabel state _ ih => exact (ih inside).relabel state

/-- A cursor in the text knows the characters at its position and after it, whether its line starts
or ends there, and its column. -/
theorem agrees_of_walks (table : src.Tabled) {length : Nat} (within : start + length ≤ src.size)
    {state : Style} {c : Cursor src start (src.walkEnd (start + length))}
    (walks : Walks (atStart src start _ state) c) (inside : c.pos ≤ src.size) :
    c.ch = src.charD c.pos '\x00' ∧ c.next = src.charD (c.pos + 1) '\x00' ∧
      (c.atLineStart = true ↔ c.pos = src.lineStart (src.lineAt c.pos)) ∧
      (c.atLineEnd = true ↔
        (src.lineAt c.pos + 1 < src.lines ∧ c.pos + 1 = src.lineEnd (src.lineAt c.pos)) ∨
          c.pos = src.size) ∧
      c.column = c.pos - src.lineStart (src.lineAt c.pos) := by
  have begun : (atStart src start (src.walkEnd (start + length)) state).Tracks :=
    tracks_atStart table state (Nat.le_trans (Nat.le_add_right start length) within)
  have tracks := walks.tracks table begun inside
  refine ⟨tracks.ch, tracks.next, ?_, ?_, ?_⟩
  · rw [tracks.atLineStart, Source.startsLine_iff table, eq_comm]
  · rw [tracks.atLineEnd, tracks.line]
    exact Source.endsLine_lineAt_iff table inside
  · rw [column, tracks.line]

/-- Two line ends, the first of which has two bytes and begins where the walk does. -/
def twoLineEnds : Source :=
  .ofBytes #[97, 13, 10, 13, 98]

/-- The cursor behind both of them. -/
def behindLineEnds : Cursor twoLineEnds 1 (twoLineEnds.walkEnd (1 + 4)) :=
  (((atStart twoLineEnds 1 _ .comment).forward.setState .keyword).forward.relabel .label).forward

theorem agrees_of_walks_behindLineEnds :
    behindLineEnds.ch = twoLineEnds.charD 4 '\x00' ∧
      behindLineEnds.next = twoLineEnds.charD 5 '\x00' ∧
      (behindLineEnds.atLineStart = true ↔ 4 = twoLineEnds.lineStart (twoLineEnds.lineAt 4)) ∧
      (behindLineEnds.atLineEnd = true ↔
        (twoLineEnds.lineAt 4 + 1 < twoLineEnds.lines ∧
          5 = twoLineEnds.lineEnd (twoLineEnds.lineAt 4)) ∨ 4 = twoLineEnds.size) ∧
      behindLineEnds.column = 4 - twoLineEnds.lineStart (twoLineEnds.lineAt 4) := by
  have table : twoLineEnds.Tabled := rfl
  have walks : Walks (atStart twoLineEnds 1 _ .comment) behindLineEnds :=
    ((((Walks.here _).forward (by decide)).setState .keyword).forward (by decide)).relabel .label
      |>.forward (by decide)
  exact agrees_of_walks table (by decide) walks (by decide)

end Cursor

end FortranMarkup
