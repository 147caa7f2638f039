import FortranMarkup.Proofs.Styling.Agreement

/-!
# Where a statement begins in fixed form

A scan in fixed form carries the state of an open literal over line starts, and only the column of
the mark looks at it. On a line that is no comment and continues no other (`BeginsStatement`), what
is carried has no effect on what is painted (`Scan.painted_run_withCarried`).
-/

namespace FortranMarkup

namespace Cursor

variable {src : Source} {start stop : Nat}

theorem Leads.painted_eq_of_full {c d : Cursor src start stop} (leads : Leads c d)
    (full : src.size ≤ c.segment) : d.painted = c.painted := by
  have paint {d : Cursor src start stop} (same : d.painted = c.painted) :
      d.paint.painted = c.painted := by
    rw [paint_of_segment, same]
    rw [segment_eq_edge, same, ← segment_eq_edge]
    exact Nat.le_trans (Nat.min_le_right _ _) full
  induction leads with
  | refl => rfl
  | forward _ ih => rw [painted_forward, ih]
  | paint _ ih | setState _ _ ih => exact paint ih
  | relabel _ _ ih => exact ih

end Cursor

namespace Scan

variable {src : Source} {start stop : Nat} {words : Dictionary}

/-! ## Columns up to the mark -/

/-- Replaces the state that a continued line resumes. -/
def withCarried (s : Scan src start stop) (carried : Style) : Scan src start stop :=
  { s with carried := carried }

theorem step_of_edge {s : Scan src start stop} (words : Dictionary)
    (edge : s.cursor.column ≤ markColumn ∨ tailColumn ≤ s.cursor.column) :
    s.step words .fixed = s.beginLine.countByte.fixedStep s.cursor.column := by
  unfold step
  dsimp only
  rw [cursor_countByte, column_beginLine, if_pos edge]

theorem step_of_statement {s : Scan src start stop} (words : Dictionary)
    (statement : ¬(s.cursor.column ≤ markColumn ∨ tailColumn ≤ s.cursor.column)) :
    s.step words .fixed = s.beginLine.countByte.tokenStep words .fixed := by
  unfold step
  dsimp only
  rw [cursor_countByte, column_beginLine, if_neg statement]

/-- The cursor stands before the column of the mark, on a byte that begins no comment. -/
structure InLead (c : Cursor src start stop) : Prop where
  column : c.column < markColumn
  letter : ¬(c.column = 0 ∧ (c.ch.toLower = 'c' ∨ c.ch = '*'))
  bang : c.ch ≠ '!'

theorem advance_of_inLead {s : Scan src start stop} (lead : InLead s.cursor) :
    s.advance words .fixed = s.beginLine.countByte.withCursor
      (s.beginLine.cursor.setState (if s.cursor.ch.isDigit then .label else .plain)).forward := by
  have notComment : ¬((s.cursor.column = 0 ∧ (s.cursor.ch.toLower = 'c' ∨ s.cursor.ch = '*')) ∨
      s.cursor.ch = '!') := not_or.2 ⟨lead.letter, lead.bang⟩
  have tail : ¬tailColumn ≤ s.cursor.column := by
    have := lead.column
    unfold markColumn at this
    unfold tailColumn
    omega
  rw [advance, step_of_edge _ (.inl (Nat.le_of_lt lead.column)), fixedStep]
  simp only [cursor_countByte, ch_beginLine, if_neg notComment, if_neg tail, if_pos lead.column]
  rfl

theorem begun_withCarried (s : Scan src start stop) (carried : Style) :
    (s.withCarried carried).beginLine.countByte = s.beginLine.countByte.withCarried carried := by
  unfold beginLine countByte withCarried
  dsimp only
  split <;> split <;> rfl

theorem cursor_beginLine_withCarried (s : Scan src start stop) (carried : Style) :
    (s.withCarried carried).beginLine.cursor = s.beginLine.cursor := by
  unfold beginLine withCarried
  dsimp only
  split <;> rfl

theorem advance_withCarried {s : Scan src start stop} (lead : InLead s.cursor) (carried : Style) :
    (s.withCarried carried).advance words .fixed = (s.advance words .fixed).withCarried carried := by
  rw [advance_of_inLead lead, advance_of_inLead (s := s.withCarried carried) lead,
    begun_withCarried, cursor_beginLine_withCarried]
  rfl

theorem tracks_advance_of_inLead (words : Dictionary) {s : Scan src start stop}
    (lead : InLead s.cursor)
    (table : src.Tabled) (tracks : s.cursor.Tracks) (inside : s.cursor.pos < src.size)
    (more : s.cursor.pos < stop) :
    (s.advance words .fixed).cursor.Tracks ∧
      (s.advance words .fixed).cursor.pos = s.cursor.pos + 1 := by
  have begun := tracks_beginLine tracks
  have pos := pos_beginLine s
  rw [advance_of_inLead lead]
  refine ⟨(begun.paint.relabel _).forward table ?_ ?_, ?_⟩
  · change s.beginLine.cursor.pos < _
    rwa [pos]
  · change s.beginLine.cursor.pos < _
    rwa [pos]
  · change (s.beginLine.cursor.setState _).forward.pos = _
    rw [Cursor.pos_forward, Cursor.pos_setState, pos, if_pos more]

theorem step_of_markColumn {s : Scan src start stop} (column : s.cursor.column = markColumn)
    (bang : s.cursor.ch ≠ '!') : s.step words .fixed = s.beginLine.countByte.markStep := by
  rw [step_of_edge _ (.inl (Nat.le_of_eq column)), column, fixedStep]
  simp [bang, markColumn, tailColumn]

theorem markStep_withCarried {s : Scan src start stop}
    (initial : isSpace s.cursor.ch = true ∨ s.cursor.ch = '0') (carried : Style) :
    (s.withCarried carried).markStep = s.markStep := by
  by_cases ends : isLineEnd s.cursor.ch = true
  · simp [markStep, withCarried, ends]
  · rcases initial with space | zero
    · simp [markStep, withCarried, ends, space]
    · simp [markStep, withCarried, zero]

theorem advance_withCarried_of_space {s : Scan src start stop}
    (column : s.cursor.column = markColumn) (bang : s.cursor.ch ≠ '!')
    (initial : isSpace s.cursor.ch = true ∨ s.cursor.ch = '0') (carried : Style) :
    (s.withCarried carried).advance words .fixed = s.advance words .fixed := by
  rw [advance, advance, step_of_markColumn column bang,
    step_of_markColumn (s := s.withCarried carried) column bang, begun_withCarried,
    markStep_withCarried (by simpa using initial)]

/-- Past the end of the text, the column of the mark paints what is open and nothing more. -/
theorem painted_run_of_markColumn {s : Scan src start stop} (sound : s.cursor.Sound)
    (column : s.cursor.column = markColumn) (ch : s.cursor.ch = '\x00')
    (past : src.size ≤ s.cursor.pos) (more : s.cursor.pos < stop) :
    (s.run words .fixed).cursor.paint.painted = s.beginLine.cursor.paint.painted := by
  have full : src.size ≤ (s.beginLine.cursor.setState .continuation).segment := by
    have segment := Cursor.segment_paint (sound_beginLine sound)
    rw [pos_beginLine, Nat.min_eq_right past] at segment
    exact Nat.le_of_eq segment.symm
  have marked : Cursor.Leads (s.beginLine.cursor.setState .continuation)
      (s.step words .fixed).cursor := by
    rw [step_of_markColumn column (by simp [ch])]
    simp only [markStep, cursor_countByte, ch_beginLine, ch]
    exact (Cursor.Leads.refl _).forwardSetState _
  have run := marked.forward.trans (leads_run words .fixed (s.advance words .fixed))
  rw [run_of_lt more]
  exact run.paint.painted_eq_of_full full

end Scan

/-! ## Lines that begin a statement -/

namespace Source

variable {src : Source}

/-- A line of fixed form that begins a statement: it is no comment and continues no other line. -/
structure BeginsStatement (src : Source) (first : Nat) : Prop where
  starts : src.StartsLine first
  comment : src.isFixedComment first = false
  mark : isMark (src.columnChar first markColumn) = false

theorem BeginsStatement.lead {first : Nat} (line : src.BeginsStatement first) {column : Nat}
    (lead : column < markColumn) :
    first + column < src.size ∧ src.columnChar first column ≠ '!' ∧
      isLineEnd (src.columnChar first column) = false := by
  have comment := line.comment
  simp only [isFixedComment, Bool.or_eq_false_iff, List.any_eq_false, List.mem_range] at comment
  have inside := comment.1.2 column lead
  simp only [endsLeadColumns, Bool.or_eq_true, decide_eq_true_eq, not_or, Bool.not_eq_true]
    at inside
  refine ⟨?_, inside⟩
  apply Nat.lt_of_not_le
  intro past
  rw [columnChar, charD_of_le past] at inside
  cases inside.2

theorem beginsStatement_of_initial {first : Nat} (starts : src.StartsLine first)
    (later : first ≠ 0) (comment : src.isFixedComment first = false)
    (continuation : src.isFixedContinuation first = false) : src.BeginsStatement first := by
  refine ⟨starts, comment, ?_⟩
  simp only [isFixedComment, Bool.or_eq_false_iff] at comment
  simpa [isFixedContinuation, later, comment.1.1, comment.1.2] using continuation

theorem BeginsStatement.initial {first : Nat} (line : src.BeginsStatement first) :
    src.columnChar first markColumn ≠ '!' ∧
      (isSpace (src.columnChar first markColumn) = true ∨ src.columnChar first markColumn = '0') := by
  have comment := line.comment
  have mark := line.mark
  simp only [isFixedComment, Bool.or_eq_false_iff, decide_eq_false_iff_not] at comment
  simp only [isMark, comment.2, Bool.and_eq_false_iff, Bool.not_eq_false', ne_eq,
    not_false_eq_true, decide_true, decide_eq_false_iff_not, Decidable.not_not,
    Bool.true_eq_false, or_false] at mark
  exact ⟨comment.2, mark⟩

theorem BeginsStatement.lineAt_add {first : Nat} (line : src.BeginsStatement first)
    (table : src.Tabled) {column : Nat} (le : column ≤ markColumn) :
    src.lineAt (first + column) = src.lineAt first := by
  induction column with
  | zero => rfl
  | succ column ih =>
    have inLine := (line.lead le).2.2
    have stays : ¬endsLineAt src.bytes (first + column) = true := by
      intro ends
      rw [columnChar, isLineEnd_of_endsLineAt _ ends] at inLine
      cases inLine
    rw [← Nat.add_assoc, lineAt_succ table, if_neg stays, ih (Nat.le_of_lt le)]

end Source

namespace Scan

variable {src : Source} {start stop : Nat} {words : Dictionary} {first : Nat}

theorem column_eq_of_beginsStatement {s : Scan src start stop} (table : src.Tabled)
    (line : src.BeginsStatement first) (tracks : s.cursor.Tracks) {column : Nat}
    (le : column ≤ markColumn) (pos : s.cursor.pos = first + column) :
    s.cursor.column = column := by
  rw [Cursor.column, tracks.line, pos, line.lineAt_add table le,
    Source.lineStart_lineAt_of_startsLine table line.starts]
  omega

theorem inLead_of_beginsStatement {s : Scan src start stop} (table : src.Tabled)
    (line : src.BeginsStatement first) (tracks : s.cursor.Tracks) {column : Nat}
    (lead : column < markColumn) (pos : s.cursor.pos = first + column) : InLead s.cursor := by
  obtain ⟨inside, bang, -⟩ := line.lead lead
  have ch : s.cursor.ch = src.columnChar first column := by
    rw [tracks.ch, pos, Source.columnChar, Source.charD_eq_of_lt inside]
  have same := column_eq_of_beginsStatement table line tracks (Nat.le_of_lt lead) pos
  refine ⟨same ▸ lead, ?_, ch ▸ bang⟩
  rintro ⟨zero, letter⟩
  obtain rfl : column = 0 := same ▸ zero
  have comment := line.comment
  rw [ch] at letter
  simp only [Source.isFixedComment, Source.hasCommentLetter, Bool.or_eq_false_iff,
    decide_eq_false_iff_not] at comment
  rcases letter with c | star
  · exact comment.1.1.1 c
  · exact comment.1.1.2 star

theorem run_withCarried_of_le {s : Scan src start stop} (done : stop ≤ s.cursor.pos)
    (carried : Style) :
    ((s.withCarried carried).run words .fixed).cursor = (s.run words .fixed).cursor := by
  rw [run_of_le done, run_of_le (s := s.withCarried carried) done]
  rfl

/-- On a line that begins a statement, what is carried has no effect on what is painted. -/
theorem painted_run_withCarried {s : Scan src start stop} (table : src.Tabled)
    (line : src.BeginsStatement first) (sound : s.cursor.Sound) (tracks : s.cursor.Tracks)
    (column left : Nat) (here : s.cursor.pos = first + column) (sum : column + left = markColumn)
    (carried : Style) :
    ((s.withCarried carried).run words .fixed).cursor.paint.painted =
      (s.run words .fixed).cursor.paint.painted := by
  induction left generalizing s column with
  | zero =>
    by_cases more : s.cursor.pos < stop
    case neg => rw [run_withCarried_of_le (Nat.le_of_not_lt more)]
    obtain rfl : column = markColumn := sum
    have same := column_eq_of_beginsStatement table line tracks (Nat.le_refl _) here
    by_cases inside : first + markColumn < src.size
    · have ch : s.cursor.ch = src.columnChar first markColumn := by
        rw [tracks.ch, here, Source.columnChar, Source.charD_eq_of_lt inside]
      obtain ⟨bang, space⟩ := line.initial
      rw [run_of_lt more, run_of_lt (s := s.withCarried carried) more,
        advance_withCarried_of_space same (ch ▸ bang) (ch ▸ space)]
    · have past := Nat.le_of_not_lt inside
      have ch : s.cursor.ch = '\x00' := by
        rw [tracks.ch, here, Source.charD_of_le past]
      rw [painted_run_of_markColumn sound same ch (here ▸ past) more,
        painted_run_of_markColumn (s := s.withCarried carried) sound same ch (here ▸ past) more,
        cursor_beginLine_withCarried]
  | succ left ih =>
    by_cases more : s.cursor.pos < stop
    case neg => rw [run_withCarried_of_le (Nat.le_of_not_lt more)]
    have lead : column < markColumn := by omega
    have inLead := inLead_of_beginsStatement table line tracks lead here
    have inside := (line.lead lead).1
    obtain ⟨tracks', pos'⟩ := tracks_advance_of_inLead words inLead table tracks
      (here ▸ inside) more
    have sound' := (leads_advance words .fixed s).sound sound
    rw [run_of_lt more, run_of_lt (s := s.withCarried carried) more, advance_withCarried inLead]
    exact ih sound' tracks' (column + 1) (by omega) (by omega)

end Scan

end FortranMarkup
