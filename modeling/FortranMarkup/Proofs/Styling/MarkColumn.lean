import FortranMarkup.Proofs.Styling.Moves
import FortranMarkup.Proofs.Styling.Resumption

/-!
# The column of the mark

What a byte in the columns up to that of the mark is styled as depends on its line up to there alone.
The byte in the column of the mark has the style of a mark exactly if no comment begins up to there and
the line goes on that far (`Source.freshStyle_markColumn_iff`).
-/

namespace FortranMarkup

/-- Whether a comment begins in a column of the line in fixed form that starts at a position. -/
def Source.commentBegins (src : Source) (start column : Nat) : Bool :=
  (column = 0 && src.hasCommentLetter start) || src.columnChar start column = '!'

namespace Scan

variable {src : Source} {stop line column : Nat} {words : Dictionary}

/-- A scan that has come to a column of a line. -/
structure OnColumn (line column : Nat) (s : Scan src 0 stop) : Prop where
  pos : s.cursor.pos = src.lineStart line + column
  tracks : s.cursor.Tracks
  sound : s.cursor.Sound

section Column

variable (table : src.Tabled) (bound : line < src.lines)
  (within : src.lineStart line + column < src.lineEnd line)
include table bound within

omit bound in
theorem lt_size_of_within : src.lineStart line + column < src.size :=
  Nat.lt_of_lt_of_le within (Source.lineStart_le_size table (line + 1))

theorem lineAt_of_within : src.lineAt (src.lineStart line + column) = line :=
  Source.lineAt_of_lt table bound (Nat.le_add_right _ _) within

namespace OnColumn

variable {s : Scan src 0 stop} (on : OnColumn line column s)
include on

theorem column_eq : s.cursor.column = column := by
  rw [on.tracks.column_eq, Source.columnAt, on.pos, lineAt_of_within table bound within,
    Nat.add_sub_cancel_left]

omit bound in
theorem ch_eq : s.cursor.ch = src.columnChar (src.lineStart line) column := by
  rw [on.tracks.ch, on.pos, Source.columnChar,
    Source.charD_eq_of_lt (lt_size_of_within table within)]

omit bound in
theorem commentBegins_iff :
    src.commentBegins (src.lineStart line) column = true ↔
      (column = 0 ∧ (s.cursor.ch.toLower = 'c' ∨ s.cursor.ch = '*')) ∨ s.cursor.ch = '!' := by
  rw [on.ch_eq table within]
  simp only [Source.commentBegins, Source.hasCommentLetter, Bool.or_eq_true, Bool.and_eq_true,
    decide_eq_true_eq]
  apply or_congr_left
  apply and_congr_right
  rintro rfl
  exact Iff.rfl

theorem step_eq (le : column ≤ markColumn) (words : Dictionary) :
    s.step words .fixed = s.beginLine.countByte.fixedStep column := by
  have here := on.column_eq table bound within
  rw [step_of_edge words (.inl (here ▸ le)), here]

theorem advance (room : src.size < stop) (less : column < markColumn)
    (clean : src.commentBegins (src.lineStart line) column = false) (words : Dictionary) :
    OnColumn line (column + 1) (s.advance words .fixed) := by
  have here := on.column_eq table bound within
  have inside : s.cursor.pos < src.size := on.pos ▸ lt_size_of_within table within
  rw [Bool.eq_false_iff, ne_eq, on.commentBegins_iff table within, not_or, ← here] at clean
  obtain ⟨tracks, pos⟩ := tracks_advance_of_inLead words ⟨here ▸ less, clean.1, clean.2⟩ table
    on.tracks inside (Nat.lt_trans inside room)
  exact ⟨pos.trans (congrArg (· + 1) on.pos), tracks,
    (leads_advance words .fixed s).sound on.sound⟩

/-- The turn at the beginning of a comment passes the rest of the line. -/
theorem comment (le : column ≤ markColumn)
    (begins : src.commentBegins (src.lineStart line) column = true) (words : Dictionary)
    (room : src.size < stop) :
    ∃ style : Style, (style = .comment ∨ style = .preprocessor) ∧
      (s.advance words .fixed).cursor = (s.beginLine.cursor.setState style).toLineEnd.forward ∧
      ∀ pos, pos ≤ src.size → src.lineAt pos = line →
        pos < (s.beginLine.cursor.setState style).toLineEnd.forward.pos := by
  have comment := (on.commentBegins_iff table within).1 begins
  refine ⟨commentStyle s.beginLine.cursor fixedDirectives, commentStyle_cases _ _, ?_, ?_⟩
  · rw [Scan.advance, on.step_eq table bound within le, fixedStep, cursor_countByte, ch_beginLine,
      if_pos comment]
    rfl
  · intro pos inside here
    have tracks := (tracks_beginLine on.tracks).paint.relabel
      (commentStyle s.beginLine.cursor fixedDirectives)
    have same : src.lineAt pos = src.lineAt s.beginLine.cursor.pos := by
      rw [pos_beginLine, on.pos, lineAt_of_within table bound within, here]
    have passed := Cursor.le_toLineEnd table room tracks inside same
    change pos ≤ (s.beginLine.cursor.setState _).toLineEnd.pos at passed
    rw [Cursor.pos_forward]
    split <;> omega

end OnColumn

/-- A pass comes to a column up to that of the mark if no comment begins before it. -/
theorem exists_onColumn (le : column ≤ markColumn)
    (clean : ∀ before, before < column → src.commentBegins (src.lineStart line) before = false)
    (words : Dictionary) : ∃ s, Reaches words .fixed (whole src) s ∧ OnColumn line column s := by
  induction column with
  | zero =>
    have starts := Source.startsLine_lineStart table bound
    have sound := sound_whole src
    obtain ⟨s, reaches, tracks, pos | ⟨free, -⟩⟩ := reaches_line table starts
      (Nat.le_trans (Source.lineStart_le_size table line) (src.le_walkEnd src.size)) sound
      (tracks_whole table) (Nat.zero_le _) words .fixed
    · exact ⟨s, reaches, pos, tracks, reaches.leads.sound sound⟩
    · cases free
  | succ column ih =>
    have within' : src.lineStart line + column < src.lineEnd line := Nat.lt_of_succ_lt within
    obtain ⟨s, reaches, on⟩ := ih within' (Nat.le_of_succ_le le)
      (fun before less => clean before (Nat.lt_succ_of_lt less))
    have more : s.cursor.pos < src.walkEnd src.size :=
      Nat.lt_trans (on.pos ▸ lt_size_of_within table within') src.size_lt_walkEnd
    exact ⟨s.advance words .fixed, reaches.trans (.turn more (.refl _)),
      on.advance table bound within' src.size_lt_walkEnd le (clean column (Nat.lt_succ_self _))
        words⟩

omit bound in
/-- What the turn at a column opens is styled so in the end, unless it is part of a word or a
literal. -/
theorem OnColumn.freshStyle_eq {s : Scan src 0 (src.walkEnd src.size)}
    (reaches : Reaches words .fixed (whole src) s) (on : OnColumn line column s) {style : Style}
    {d : Cursor src 0 (src.walkEnd src.size)} (opens : s.beginLine.cursor.Opens style d)
    (leads : Cursor.Leads d (s.advance words .fixed).cursor) (firm : style.isLoose = false)
    {pos : Nat} (low : src.lineStart line + column ≤ pos) (high : pos < min d.pos src.size) :
    src.freshStyle words .fixed .plain pos = style := by
  have more : s.cursor.pos < src.walkEnd src.size :=
    Nat.lt_trans (on.pos ▸ lt_size_of_within table within) src.size_lt_walkEnd
  have begun : s.beginLine.cursor.pos ≤ pos := by rwa [pos_beginLine, on.pos]
  exact (reaches.trans (.turn more (.refl _))).style_of_opens (sound_beginLine on.sound) opens firm
    leads begun high

omit bound in
theorem OnColumn.freshStyle_of_setState {s : Scan src 0 (src.walkEnd src.size)}
    (reaches : Reaches words .fixed (whole src) s) (on : OnColumn line column s) {style : Style}
    (leads : Cursor.Leads (s.beginLine.cursor.setState style).forward
      (s.advance words .fixed).cursor) (firm : style.isLoose = false) :
    src.freshStyle words .fixed .plain (src.lineStart line + column) = style := by
  have inside := lt_size_of_within table within
  have begun : (s.beginLine.cursor.setState style).pos = src.lineStart line + column :=
    (pos_beginLine s).trans on.pos
  have moved := Cursor.pos_forward_of_lt (begun ▸ Nat.lt_trans inside src.size_lt_walkEnd)
  exact on.freshStyle_eq table within reaches (Cursor.Opens.here _ style).forward leads firm
    (Nat.le_refl _) (by omega)

end Column

end Scan

namespace Source

/-- Up to a column no comment begins, or there is a first one that does. -/
theorem clean_or_begins (src : Source) (start column : Nat) :
    (∀ before, before ≤ column → src.commentBegins start before = false) ∨
      ∃ first, first ≤ column ∧ (∀ before, before < first → src.commentBegins start before = false) ∧
        src.commentBegins start first = true := by
  induction column with
  | zero =>
    cases here : src.commentBegins start 0 with
    | false => exact .inl fun before le => Nat.le_zero.1 le ▸ here
    | true => exact .inr ⟨0, Nat.le_refl 0, nofun, here⟩
  | succ column ih =>
    rcases ih with clean | ⟨first, le, clean, begins⟩
    · cases here : src.commentBegins start (column + 1) with
      | false =>
        refine .inl fun before le => ?_
        rcases Nat.lt_or_eq_of_le le with less | rfl
        · exact clean before (Nat.le_of_lt_succ less)
        · exact here
      | true => exact .inr ⟨column + 1, Nat.le_refl _, fun before less =>
          clean before (Nat.le_of_lt_succ less), here⟩
    · exact .inr ⟨first, Nat.le_succ_of_le le, clean, begins⟩

theorem isFixedComment_eq_false_iff {src : Source} {start : Nat} :
    src.isFixedComment start = false ↔
      (∀ column, column ≤ markColumn → src.commentBegins start column = false) ∧
        ∀ column, column < markColumn → isLineEnd (src.columnChar start column) = false := by
  simp only [isFixedComment, endsLeadColumns, commentBegins, Bool.or_eq_false_iff,
    Bool.and_eq_false_iff, List.any_eq_false, List.mem_range, decide_eq_false_iff_not,
    Bool.or_eq_true, decide_eq_true_eq, not_or, Bool.not_eq_true]
  constructor
  · rintro ⟨⟨letter, lead⟩, mark⟩
    refine ⟨fun column le => ⟨.inr letter, ?_⟩, fun column less => (lead column less).2⟩
    rcases Nat.lt_or_eq_of_le le with less | rfl
    · exact (lead column less).1
    · exact mark
  · rintro ⟨clean, inLine⟩
    refine ⟨⟨?_, fun column less => ⟨(clean column (Nat.le_of_lt less)).2, inLine column less⟩⟩,
      (clean markColumn (Nat.le_refl _)).2⟩
    exact (clean 0 (Nat.zero_le _)).1.resolve_left fun other => other rfl

theorem isFixedComment_eq_of_same {src₁ src₂ : Source} {start : Nat}
    (same : ∀ column, column ≤ markColumn →
      src₂.columnChar start column = src₁.columnChar start column) :
    src₂.isFixedComment start = src₁.isFixedComment start := by
  have lead : (List.range markColumn).any (fun column => endsLeadColumns (src₂.columnChar start column)) =
      (List.range markColumn).any (fun column => endsLeadColumns (src₁.columnChar start column)) := by
    rw [Bool.eq_iff_iff, List.any_eq_true, List.any_eq_true]
    apply exists_congr
    intro column
    apply and_congr_right
    intro mem
    rw [same column (Nat.le_of_lt (List.mem_range.1 mem))]
  rw [isFixedComment, isFixedComment, hasCommentLetter, hasCommentLetter, lead,
    same 0 (Nat.zero_le _), same markColumn (Nat.le_refl _)]

theorem lt_size_of_columnChar {src : Source} {start column : Nat}
    (inLine : isLineEnd (src.columnChar start column) = false) : start + column < src.size :=
  lt_size_of_charD fun feed => by
    rw [columnChar, feed] at inLine
    cases inLine

variable {src : Source} {line column pos : Nat} (table : src.Tabled) (bound : line < src.lines)
  (words : Dictionary)
include table bound

open Scan (exists_onColumn)

/-- A comment of fixed form takes the rest of its line. -/
theorem freshStyle_of_commentBegins (le : column ≤ markColumn)
    (clean : ∀ before, before < column → src.commentBegins (src.lineStart line) before = false)
    (begins : src.commentBegins (src.lineStart line) column = true)
    (low : src.lineStart line + column ≤ pos) (high : pos < src.lineEnd line) :
    src.freshStyle words .fixed .plain pos = .comment ∨
      src.freshStyle words .fixed .plain pos = .preprocessor := by
  have within := Nat.lt_of_le_of_lt low high
  have inside : pos < src.size := Nat.lt_of_lt_of_le high (lineStart_le_size table (line + 1))
  obtain ⟨s, reaches, on⟩ := exists_onColumn table bound within le clean words
  obtain ⟨style, shown, cursor, passed⟩ := on.comment table bound within le begins words
    src.size_lt_walkEnd
  have firm : style.isLoose = false := by rcases shown with rfl | rfl <;> rfl
  have opens := (Cursor.Opens.here s.beginLine.cursor style).toLineEnd.forward
  have last := passed pos (Nat.le_of_lt inside) (lineAt_of_lt table bound (by omega) high)
  rw [on.freshStyle_eq table within reaches opens (cursor ▸ .refl _) firm low (by omega)]
  exact shown

/-- A byte before the column of the mark is one of a label, or plain, if no comment has begun. -/
theorem freshStyle_of_lead (less : column < markColumn)
    (clean : ∀ before, before ≤ column → src.commentBegins (src.lineStart line) before = false)
    (within : src.lineStart line + column < src.lineEnd line) :
    src.freshStyle words .fixed .plain (src.lineStart line + column) = .label ∨
      src.freshStyle words .fixed .plain (src.lineStart line + column) = .plain := by
  obtain ⟨s, reaches, on⟩ := exists_onColumn table bound within (Nat.le_of_lt less)
    (fun before earlier => clean before (Nat.le_of_lt earlier)) words
  have here := on.column_eq table bound within
  have quiet := clean column (Nat.le_refl _)
  rw [Bool.eq_false_iff, ne_eq, on.commentBegins_iff table within, not_or, ← here] at quiet
  have lead : Scan.InLead s.cursor := ⟨here ▸ less, quiet.1, quiet.2⟩
  have cursor : (s.advance words .fixed).cursor =
      (s.beginLine.cursor.setState (if s.cursor.ch.isDigit then .label else .plain)).forward := by
    rw [Scan.advance_of_inLead lead, Scan.cursor_withCursor]
  split at cursor
  · exact .inl (on.freshStyle_of_setState table within reaches (cursor ▸ .refl _) rfl)
  · exact .inr (on.freshStyle_of_setState table within reaches (cursor ▸ .refl _) rfl)

theorem freshStyle_of_mark
    (clean : ∀ before, before ≤ markColumn →
      src.commentBegins (src.lineStart line) before = false)
    (within : src.lineStart line + markColumn < src.lineEnd line) :
    src.freshStyle words .fixed .plain (src.lineStart line + markColumn) =
      if isLineEnd (src.columnChar (src.lineStart line) markColumn) then .plain
      else .continuation := by
  obtain ⟨s, reaches, on⟩ := exists_onColumn table bound within (Nat.le_refl _)
    (fun before earlier => clean before (Nat.le_of_lt earlier)) words
  have here := on.column_eq table bound within
  have quiet := clean markColumn (Nat.le_refl _)
  rw [Bool.eq_false_iff, ne_eq, on.commentBegins_iff table within, not_or] at quiet
  rw [← on.ch_eq table within]
  have cursor : (s.advance words .fixed).cursor = s.beginLine.countByte.markStep.cursor.forward := by
    rw [Scan.advance, Scan.step_of_markColumn here quiet.2, Scan.cursor_withCursor]
  unfold Scan.markStep at cursor
  simp only [Scan.cursor_countByte, Scan.ch_beginLine] at cursor
  by_cases ends : isLineEnd s.cursor.ch = true
  · rw [if_pos ends] at cursor ⊢
    exact on.freshStyle_of_setState table within reaches (cursor ▸ .refl _) rfl
  · rw [if_neg ends] at cursor ⊢
    split at cursor
    · exact on.freshStyle_of_setState table within reaches (cursor ▸ .refl _) rfl
    · have leads := ((Cursor.Leads.refl (s.beginLine.cursor.setState .continuation).forward).setState
        s.beginLine.countByte.carried).forward
      exact on.freshStyle_of_setState table within reaches (cursor ▸ leads) rfl

/-- No byte before the column of the mark has the style of a mark. -/
theorem freshStyle_ne_of_lead (less : column < markColumn)
    (within : src.lineStart line + column < src.lineEnd line) :
    src.freshStyle words .fixed .plain (src.lineStart line + column) ≠ .continuation := by
  rcases src.clean_or_begins (src.lineStart line) column with clean | ⟨first, le, clean, begins⟩
  · rcases freshStyle_of_lead table bound words less clean within with shown | shown <;>
      rw [shown] <;> decide
  · rcases freshStyle_of_commentBegins table bound words (Nat.le_trans le (Nat.le_of_lt less)) clean
      begins (Nat.add_le_add_left le _) within with shown | shown <;> rw [shown] <;> decide

omit table bound in
/-- A line end that does not end its line is a return before a feed. -/
theorem feed_of_stays (inside : pos < src.size) (lineEnd : isLineEnd (src.charD pos '\n') = true)
    (stays : ¬endsLineAt src.bytes pos = true) : src.char? (pos + 1) = some '\n' := by
  rw [charD_eq_of_lt inside _ ' '] at lineEnd
  simp only [isLineEnd, Bool.or_eq_true, decide_eq_true_eq] at lineEnd
  rcases lineEnd with feed | ret
  · exact absurd (endsLineAt_newline (char?_of_charD feed (by decide))) stays
  · have here : charAt? src.bytes pos = some '\r' := char?_of_charD ret (by decide)
    simpa [endsLineAt, here, char?] using stays

/-- On a line, only a line end follows a line end. -/
theorem isLineEnd_succ (low : src.lineStart line ≤ pos) (high : pos + 1 < src.lineEnd line)
    (lineEnd : isLineEnd (src.charD pos '\n') = true) :
    isLineEnd (src.charD (pos + 1) '\n') = true := by
  have inside : pos < src.size :=
    Nat.lt_of_lt_of_le (Nat.lt_of_succ_lt high) (lineStart_le_size table (line + 1))
  have stays : ¬endsLineAt src.bytes pos = true :=
    not_ends_of_lt table (Nat.lt_succ_self pos) (by
      rw [lineAt_of_lt table bound low (Nat.lt_of_succ_lt high),
        lineAt_of_lt table bound (Nat.le_succ_of_le low) high])
  rw [charD_of_char? (feed_of_stays inside lineEnd stays)]
  rfl

theorem isLineEnd_markColumn (le : column ≤ markColumn)
    (within : src.lineStart line + markColumn < src.lineEnd line)
    (lineEnd : isLineEnd (src.columnChar (src.lineStart line) column) = true) :
    isLineEnd (src.columnChar (src.lineStart line) markColumn) = true := by
  obtain ⟨left, sum⟩ := Nat.exists_eq_add_of_le le
  induction left generalizing column with
  | zero => rwa [sum]
  | succ left ih =>
    have high : src.lineStart line + column + 1 < src.lineEnd line := by omega
    have next : isLineEnd (src.columnChar (src.lineStart line) (column + 1)) = true :=
      isLineEnd_succ table bound (Nat.le_add_right _ _) high lineEnd
    exact ih (by omega) next (by omega)

/-- A line that does not go on to the column of the mark is one without a statement. -/
theorem isFixedComment_of_short (short : src.lineEnd line ≤ src.lineStart line + markColumn)
    (more : line + 1 < src.lines) : src.isFixedComment (src.lineStart line) = true := by
  obtain ⟨pos, ends, here, next⟩ := exists_end_of_lt table more
  have low : src.lineStart line ≤ pos := (lineStart_le_iff table bound pos).2 (Nat.le_of_eq here.symm)
  obtain ⟨column, rfl⟩ := Nat.exists_eq_add_of_le low
  have less : column < markColumn := by
    unfold lineEnd at short
    omega
  apply Bool.not_eq_false _ ▸ mt isFixedComment_eq_false_iff.1
  exact fun lead => Bool.false_ne_true (((lead.2 column less).symm.trans
    (isLineEnd_of_endsLineAt _ ends)))

omit bound in
/-- The byte that is as far from a line that is too short for a mark as the mark would be has the style
of none. -/
theorem freshStyle_ne_of_short (short : src.lineEnd line ≤ src.lineStart line + markColumn) :
    src.freshStyle words .fixed .plain (src.lineStart line + markColumn) ≠ .continuation := by
  by_cases past : src.size ≤ src.lineStart line + markColumn
  · rw [freshStyle_of_le past]
    decide
  · have more : line + 1 < src.lines := by
      apply Nat.lt_of_not_le
      intro last
      rw [lineEnd, lineStart_of_le last] at short
      exact past short
    -- The byte is on a later line, in one of the columns before that of the mark.
    generalize here : src.lineStart line + markColumn = pos at *
    have later : line < src.lineAt pos := (lineStart_le_iff table more pos).1 short
    have bound := lineAt_lt_lines table pos
    have further := lineStart_lt table later bound
    obtain ⟨column, same⟩ := Nat.exists_eq_add_of_le (lineStart_lineAt_le table pos)
    have within : pos < src.lineEnd (src.lineAt pos) := by
      by_cases next : src.lineAt pos + 1 < src.lines
      · exact lt_lineEnd_lineAt table next
      · rw [lineEnd, lineStart_of_le (Nat.le_of_not_lt next)]
        exact Nat.lt_of_not_le past
    have less : column < markColumn := by omega
    have lead := freshStyle_ne_of_lead table bound words less (same ▸ within)
    rwa [← same] at lead

/-- The byte in the column of the mark has the style of a mark exactly if no comment begins up to
there and the line goes on that far. -/
theorem freshStyle_markColumn_iff :
    src.freshStyle words .fixed .plain (src.lineStart line + markColumn) = .continuation ↔
      src.isFixedComment (src.lineStart line) = false ∧
        isLineEnd (src.columnChar (src.lineStart line) markColumn) = false := by
  rw [isFixedComment_eq_false_iff]
  by_cases within : src.lineStart line + markColumn < src.lineEnd line
  · rcases src.clean_or_begins (src.lineStart line) markColumn with clean | ⟨first, le, clean, begins⟩
    · rw [freshStyle_of_mark table bound words clean within]
      cases ends : isLineEnd (src.columnChar (src.lineStart line) markColumn) with
      | true => simp
      | false =>
        refine iff_of_true rfl ⟨⟨clean, fun column less => ?_⟩, rfl⟩
        apply Bool.eq_false_iff.2
        intro lineEnd
        rw [isLineEnd_markColumn table bound (Nat.le_of_lt less) within lineEnd] at ends
        cases ends
    · have shown := freshStyle_of_commentBegins table bound words le clean begins
        (Nat.add_le_add_left le _) within
      refine iff_of_false (fun mark => ?_) (fun lead => ?_)
      · rw [mark] at shown
        simp at shown
      · rw [lead.1.1 first le] at begins
        cases begins
  · have short := Nat.le_of_not_lt within
    refine iff_of_false ?_ (fun lead => ?_)
    · exact freshStyle_ne_of_short table words short
    · by_cases past : src.size ≤ src.lineStart line + markColumn
      · rw [columnChar, charD_of_le past] at lead
        cases lead.2
      · have more : line + 1 < src.lines := by
          apply Nat.lt_of_not_le
          intro last
          rw [lineEnd, lineStart_of_le last] at short
          exact past short
        have comment := isFixedComment_of_short table bound short more
        rw [isFixedComment_eq_false_iff.2 lead.1] at comment
        cases comment

end Source

end FortranMarkup
