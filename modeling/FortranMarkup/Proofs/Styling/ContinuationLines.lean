import FortranMarkup.Folding.Construct
import FortranMarkup.Proofs.Styling.MarkColumn

/-!
# Lines that continue a statement

Three tests tell whether a line of fixed form continues a statement. `Source.isFixedContinuation` goes
by the bytes of the line. The pass over the text resumes what was open before the line
(`Source.PassResumes`). And where the end of a statement is looked for, its bytes and styles count
(`Document.isStyledContinuation`).

They agree but for two kinds of lines (`Document.marksAgree_iff`). Where the text ends in the column of
the mark, the pass takes the end for a mark. And a form feed there is a space for the first two tests
but no blank for the third (`Document.not_allMarksAgree_formFeed`).
-/

namespace FortranMarkup

theorem Source.isMark_iff {c : Char} :
    isMark c = true ↔ isSpace c = false ∧ c ≠ '0' ∧ c ≠ '!' := by
  simp [isMark, and_assoc]

namespace Scan

section Turns

variable {src : Source} {words : Dictionary} {form : SourceForm}

theorem beginLine_fresh (table : src.Tabled) (stop : Nat) (outside₁ outside₂ : Style) :
    (fresh src 0 stop outside₁).beginLine = (fresh src 0 stop outside₂).beginLine := by
  have starts (outside : Style) : (fresh src 0 stop outside).cursor.atLineStart = true :=
    decide_eq_true (by rw [Source.lineAt_zero table, Source.lineStart_zero table])
  have empty (outside : Style) :
      (fresh src 0 stop outside).cursor.paint = (fresh src 0 stop outside).cursor :=
    Cursor.paint_of_segment (Nat.min_le_left _ _)
  rw [beginLine, beginLine, if_pos (starts outside₁), if_pos (starts outside₂), Cursor.setState,
    Cursor.setState, empty, empty]
  rfl

/-- The style in effect before a text is forgotten with the first turn. -/
theorem Reaches.outside {s : Scan src 0 stop} (table : src.Tabled) {outside₁ : Style}
    (reaches : Reaches words form (fresh src 0 stop outside₁) s) (moved : 0 < s.cursor.pos)
    (outside₂ : Style) : Reaches words form (fresh src 0 stop outside₂) s := by
  cases reaches with
  | refl => exact absurd moved (Nat.lt_irrefl 0)
  | turn more rest =>
    have same : (fresh src 0 stop outside₁).advance words form =
        (fresh src 0 stop outside₂).advance words form := by
      unfold advance step
      rw [beginLine_fresh table stop outside₁ outside₂]
    exact .turn more (same ▸ rest)

end Turns

/-! ## A turn that takes a mark -/

section Marks

variable {src : Source} {start stop column : Nat} {words : Dictionary} {s : Scan src start stop}

/-- The scan that has taken the byte at the cursor for a mark: what is carried is resumed on the byte
after it. -/
def resumed (s : Scan src start stop) : Scan src start stop :=
  s.withCursor ((s.cursor.setState .continuation).forwardSetState s.carried)

theorem pos_resumed (more : s.cursor.pos < stop) : s.resumed.cursor.pos = s.cursor.pos + 1 :=
  Cursor.pos_forward_of_lt (c := s.cursor.setState .continuation) more

/-- A mark is painted, while a comment is still open where it has come to its line end. -/
theorem toLineEnd_ne_resumed (sound : s.cursor.Sound) (inside : s.cursor.pos < src.size)
    (more : s.cursor.pos < stop) (style : Style) :
    (s.cursor.setState style).toLineEnd ≠ s.resumed.cursor := by
  intro same
  have opened := (Cursor.Opens.here s.cursor style).toLineEnd.segment sound
  have painted : s.resumed.cursor.segment = min s.resumed.cursor.pos src.size :=
    Cursor.segment_paint
      (Cursor.sound_forward (Cursor.sound_relabel (Cursor.sound_paint sound) .continuation))
  rw [← same, opened, same, pos_resumed more] at painted
  omega

/-- A step that leaves the cursor where it is resumes nothing. -/
theorem ne_resumed_of_pos (more : s.cursor.pos < stop) {t : Scan src start stop}
    (pos : t.cursor.pos = s.cursor.pos) : t ≠ s.resumed := by
  rintro rfl
  rw [pos_resumed more] at pos
  omega

theorem markStep_eq_resumed_iff (more : s.cursor.pos < stop) (noBang : s.cursor.ch ≠ '!') :
    s.markStep = s.resumed ↔ Source.isMark s.cursor.ch = true := by
  unfold markStep
  dsimp only
  split
  · rename_i ends
    refine iff_of_false (ne_resumed_of_pos more rfl) (fun mark => ?_)
    rw [Source.isLineEnd_of_not_isSpace (Source.isMark_iff.1 mark).1] at ends
    cases ends
  split
  · rename_i blank
    refine iff_of_false (ne_resumed_of_pos more rfl) (fun mark => ?_)
    simp [Source.isMark_iff.1 mark] at blank
  · rename_i other
    simp only [Bool.or_eq_true, decide_eq_true_eq, not_or, Bool.not_eq_true] at other
    exact iff_of_true rfl (Source.isMark_iff.2 ⟨other.1, other.2, noBang⟩)

/-- In the columns up to that of the mark, only a mark in its column is taken for one. -/
theorem fixedStep_eq_resumed_iff (sound : s.cursor.Sound) (tracks : s.cursor.Tracks)
    (more : s.cursor.pos < stop) (le : column ≤ markColumn) :
    s.fixedStep column = s.resumed ↔ column = markColumn ∧ Source.isMark s.cursor.ch = true := by
  unfold fixedStep
  dsimp only
  split
  · rename_i comment
    have visible : s.cursor.ch ≠ '\x00' := by
      intro nul
      rw [nul] at comment
      rcases comment with ⟨-, letter | star⟩ | bang
      · exact absurd letter (by decide)
      · cases star
      · cases bang
    refine iff_of_false (fun same => ?_) ?_
    · exact toLineEnd_ne_resumed sound (tracks.lt_size visible) more _ (congrArg Scan.cursor same)
    · rintro ⟨rfl, mark⟩
      rcases comment with ⟨first, -⟩ | bang
      · cases first
      · rw [bang] at mark
        cases mark
  rename_i quiet
  rw [if_neg (Nat.not_le_of_lt (Nat.lt_of_le_of_lt le (by decide)))]
  split
  · rename_i lead
    exact iff_of_false (ne_resumed_of_pos more rfl) (fun mark => Nat.ne_of_lt lead mark.1)
  · rename_i beyond
    have atMark : column = markColumn := Nat.le_antisymm le (Nat.le_of_not_lt beyond)
    rw [markStep_eq_resumed_iff more (not_or.1 quiet).2]
    exact (and_iff_right atMark).symm

/-- The turn at the byte of a scan takes it for a mark. -/
def TakesMark (words : Dictionary) (s : Scan src start stop) : Prop :=
  s.step words .fixed = s.beginLine.countByte.resumed

theorem takesMark_iff (sound : s.cursor.Sound) (tracks : s.cursor.Tracks) (more : s.cursor.pos < stop)
    (le : s.cursor.column ≤ markColumn) :
    s.TakesMark words ↔ s.cursor.column = markColumn ∧ Source.isMark s.cursor.ch = true := by
  have begun := fixedStep_eq_resumed_iff (s := s.beginLine.countByte)
    (by rw [cursor_countByte]; exact sound_beginLine sound)
    (by rw [cursor_countByte]; exact tracks_beginLine tracks) (by simpa using more) le
  rwa [cursor_countByte, ch_beginLine, ← step_of_edge words (.inl le)] at begun

end Marks

end Scan

/-! ## Lines on which the pass takes a mark -/

namespace Source

variable {src : Source} {line : Nat} {words : Dictionary}

/-- The pass over everything takes the byte in the column of the mark of a line for a mark. -/
def PassResumes (src : Source) (words : Dictionary) (outside : Style) (line : Nat) : Prop :=
  ∃ s : Scan src 0 (src.walkEnd src.size),
    Scan.Reaches words .fixed (Scan.fresh src 0 (src.walkEnd src.size) outside) s ∧
      s.cursor.pos < src.walkEnd src.size ∧
      s.cursor.pos = src.lineStart line + markColumn ∧ s.TakesMark words

theorem passResumes_outside (table : src.Tabled) {outside₁ : Style}
    (resumes : src.PassResumes words outside₁ line) (outside₂ : Style) :
    src.PassResumes words outside₂ line := by
  obtain ⟨s, reaches, more, pos, resumes⟩ := resumes
  exact ⟨s, reaches.outside table (by rw [pos]; exact Nat.succ_pos _) outside₂, more, pos, resumes⟩

theorem isFixedContinuation_iff (src : Source) {start : Nat} (later : start ≠ 0) :
    src.isFixedContinuation start = true ↔
      src.isFixedComment start = false ∧ isMark (src.columnChar start markColumn) = true := by
  simp only [isFixedContinuation, isFixedComment, isMark_iff, Bool.and_eq_true, Bool.or_eq_false_iff,
    decide_eq_true_eq, decide_eq_false_iff_not, Bool.not_eq_true']
  constructor
  · rintro ⟨⟨⟨-, letter⟩, lead⟩, mark⟩
    exact ⟨⟨⟨letter, lead⟩, mark.2.2⟩, mark⟩
  · rintro ⟨⟨⟨letter, lead⟩, -⟩, mark⟩
    exact ⟨⟨⟨later, letter⟩, lead⟩, mark⟩

section Line

variable (table : src.Tabled) (bound : line < src.lines)
include table bound

/-- The last line holds no character of a line end. -/
theorem isLineEnd_of_last (last : line + 1 = src.lines) {pos : Nat} (low : src.lineStart line ≤ pos)
    (inside : pos < src.size) : isLineEnd (src.charD pos '\n') = false := by
  have stays (later : Nat) (le : pos ≤ later) : ¬endsLineAt src.bytes later = true := by
    intro ends
    have at_least := (lineStart_le_iff table bound later).1 (Nat.le_trans low le)
    have at_most := lineAt_lt_lines table (later + 1)
    rw [lineAt_succ table, if_pos ends] at at_most
    omega
  apply Bool.eq_false_iff.2
  intro lineEnd
  exact stays (pos + 1) (Nat.le_succ pos)
    (endsLineAt_newline (feed_of_stays inside lineEnd (stays pos (Nat.le_refl pos))))

/-- A line with a statement goes on to the column of the mark, unless it is the last one. -/
theorem markColumn_lt_of_statement (statement : src.isFixedComment (src.lineStart line) = false)
    (more : line + 1 < src.lines) : src.lineStart line + markColumn < src.lineEnd line := by
  apply Nat.lt_of_not_le
  intro short
  rw [isFixedComment_of_short table bound short more] at statement
  cases statement

theorem lineAt_markColumn (statement : src.isFixedComment (src.lineStart line) = false) :
    src.lineAt (src.lineStart line + markColumn) = line := by
  by_cases more : line + 1 < src.lines
  · exact lineAt_of_lt table bound (Nat.le_add_right _ _)
      (markColumn_lt_of_statement table bound statement more)
  · have at_least := (lineStart_le_iff table bound (src.lineStart line + markColumn)).1
      (Nat.le_add_right _ _)
    have at_most := lineAt_lt_lines table (src.lineStart line + markColumn)
    omega

omit bound in
theorem lt_lineEnd_of_le {before pos : Nat} (le : before ≤ pos) (inside : before < src.size)
    (here : src.lineAt pos = line) : before < src.lineEnd line := by
  by_cases more : line + 1 < src.lines
  · subst here
    exact Nat.lt_of_le_of_lt le (lt_lineEnd_lineAt table more)
  · rwa [lineEnd, lineStart_of_le (Nat.le_of_not_lt more)]

/-- Where the pass makes a turn in the column of the mark, no comment begins before it. -/
theorem commentBegins_of_turn {s : Scan src 0 (src.walkEnd src.size)}
    (reaches : Scan.Reaches words .fixed (Scan.whole src) s) (inside : s.cursor.pos ≤ src.size)
    (pos : s.cursor.pos = src.lineStart line + markColumn) (here : src.lineAt s.cursor.pos = line)
    {column : Nat} (less : column < markColumn) :
    src.commentBegins (src.lineStart line) column = false := by
  rcases src.clean_or_begins (src.lineStart line) column with clean | ⟨first, le, clean, begins⟩
  · exact clean column (Nat.le_refl _)
  · have before : src.lineStart line + first < s.cursor.pos := by omega
    have within := lt_lineEnd_of_le table (Nat.le_of_lt before) (Nat.lt_of_lt_of_le before inside) here
    have le : first ≤ markColumn := by omega
    obtain ⟨t, reaches', on⟩ := Scan.exists_onColumn table bound within le clean words
    obtain ⟨style, -, cursor, passed⟩ := on.comment table bound within le begins words
      src.size_lt_walkEnd
    have beyond := passed s.cursor.pos inside here
    have back := reaches'.advance_le reaches (on.pos ▸ before)
    rw [cursor] at back
    omega

/-- What the pass has read when it takes the byte in the column of the mark for a mark. -/
theorem PassResumes.read {outside : Style} (resumes : src.PassResumes words outside line) :
    src.lineStart line + markColumn ≤ src.size ∧
      src.lineAt (src.lineStart line + markColumn) = line ∧
      isMark (src.charD (src.lineStart line + markColumn) '\x00') = true ∧
      ∀ column, column < markColumn → src.commentBegins (src.lineStart line) column = false := by
  obtain ⟨s, reaches, more, pos, resumes⟩ := passResumes_outside table resumes .plain
  have room : src.walkEnd src.size = src.size + 1 := if_pos rfl
  have inside : s.cursor.pos ≤ src.size := by omega
  have tracks := reaches.leads.tracks table src.size_lt_walkEnd (Scan.tracks_whole table) inside
  have column : s.cursor.column = s.cursor.pos - src.lineStart (src.lineAt s.cursor.pos) :=
    tracks.column_eq
  have low : src.lineStart line ≤ src.lineStart (src.lineAt s.cursor.pos) :=
    lineStart_mono table ((lineStart_le_iff table bound s.cursor.pos).1 (by omega))
  have high := lineStart_lineAt_le table s.cursor.pos
  obtain ⟨atMark, mark⟩ := (Scan.takesMark_iff (reaches.leads.sound (Scan.sound_whole src)) tracks more
    (by omega)).1 resumes
  -- The turn is in the column of the mark, so it is on the line that starts that far before it.
  have same : src.lineStart (src.lineAt s.cursor.pos) = src.lineStart line := by omega
  have here : src.lineAt s.cursor.pos = line := by
    rw [← lineAt_lineStart table (lineAt_lt_lines table s.cursor.pos), same,
      lineAt_lineStart table bound]
  refine ⟨pos ▸ inside, pos ▸ here, ?_, fun column less => ?_⟩
  · rwa [← pos, ← tracks.ch]
  · exact commentBegins_of_turn table bound reaches inside pos here less

theorem PassResumes.marked {outside : Style} (resumes : src.PassResumes words outside line) :
    src.isFixedComment (src.lineStart line) = false ∧
      (isMark (src.columnChar (src.lineStart line) markColumn) = true ∨
        src.lineStart line + markColumn = src.size) := by
  obtain ⟨inside, here, mark, clean⟩ := resumes.read table bound
  -- It is left to see that no comment begins in the column of the mark and no line ends before it.
  have statement (noBang : src.columnChar (src.lineStart line) markColumn ≠ '!')
      (inLine : ∀ column, column < markColumn →
        isLineEnd (src.columnChar (src.lineStart line) column) = false) :
      src.isFixedComment (src.lineStart line) = false := by
    refine isFixedComment_eq_false_iff.2 ⟨fun column le => ?_, inLine⟩
    rcases Nat.lt_or_eq_of_le le with less | rfl
    · exact clean column less
    · exact Bool.or_eq_false_iff.2 ⟨rfl, decide_eq_false noBang⟩
  rcases Nat.lt_or_eq_of_le inside with within | ended
  · rw [charD_eq_of_lt within _ '\n'] at mark
    have visible := isMark_iff.1 mark
    refine ⟨statement visible.2.2 fun column less => Bool.eq_false_iff.2 fun lineEnd => ?_, .inl mark⟩
    have ends := isLineEnd_markColumn table bound (Nat.le_of_lt less)
      (lt_lineEnd_of_le table (Nat.le_refl _) within here) lineEnd
    rw [columnChar, isLineEnd_of_not_isSpace visible.1] at ends
    cases ends
  · have last : line + 1 = src.lines := by
      rw [← here, ended]
      exact lineAt_size table
    refine ⟨statement ?_ fun column less => ?_, .inr ended⟩
    · rw [columnChar, charD_of_le (Nat.le_of_eq ended.symm)]
      decide
    · exact isLineEnd_of_last table bound last (Nat.le_add_right _ _) (by omega)

/-- The pass makes a turn in the column of the mark on a line with a statement, also where that is the
end of the source. -/
theorem exists_onMark (statement : src.isFixedComment (src.lineStart line) = false)
    (inside : src.lineStart line + markColumn ≤ src.size) (words : Dictionary) :
    ∃ s, Scan.Reaches words .fixed (Scan.whole src) s ∧ Scan.OnColumn line markColumn s ∧
      s.cursor.column = markColumn := by
  obtain ⟨clean, -⟩ := isFixedComment_eq_false_iff.1 statement
  have here := lineAt_markColumn table bound statement
  -- The column before is in the source, and from there it is one turn more.
  have within : src.lineStart line + 4 < src.lineEnd line :=
    lt_lineEnd_of_le table (Nat.le_succ _) (Nat.lt_of_succ_le inside) here
  obtain ⟨s, reaches, before⟩ := Scan.exists_onColumn table bound within (by decide)
    (fun before less => clean before (Nat.le_of_lt (Nat.lt_succ_of_lt less))) words
  have on : Scan.OnColumn line markColumn (s.advance words .fixed) :=
    before.advance table bound within src.size_lt_walkEnd (by decide) (clean 4 (by decide)) words
  have more : s.cursor.pos < src.walkEnd src.size := by
    rw [before.pos]
    exact Nat.lt_trans (Nat.lt_of_succ_le inside) src.size_lt_walkEnd
  refine ⟨_, reaches.trans (.turn more (.refl _)), on, ?_⟩
  rw [on.tracks.column_eq, columnAt, on.pos, here]
  exact Nat.add_sub_cancel_left _ _

/-- The pass takes for a mark what is in the column of the mark on a line with a statement, be it a
mark or the end of the source. -/
theorem passResumes_iff (words : Dictionary) (outside : Style) :
    src.PassResumes words outside line ↔
      src.isFixedComment (src.lineStart line) = false ∧
        (isMark (src.columnChar (src.lineStart line) markColumn) = true ∨
          src.lineStart line + markColumn = src.size) := by
  constructor
  · exact PassResumes.marked table bound
  · rintro ⟨statement, marked⟩
    obtain ⟨inside, mark⟩ : src.lineStart line + markColumn ≤ src.size ∧
        isMark (src.charD (src.lineStart line + markColumn) '\x00') = true := by
      rcases marked with mark | ended
      · have within := lt_size_of_columnChar (isLineEnd_of_not_isSpace (isMark_iff.1 mark).1)
        exact ⟨Nat.le_of_lt within, by rwa [charD_eq_of_lt within _ '\n']⟩
      · refine ⟨Nat.le_of_eq ended, ?_⟩
        rw [charD_of_le (Nat.le_of_eq ended.symm)]
        decide
    obtain ⟨s, reaches, on, column⟩ := exists_onMark table bound statement inside words
    have more : s.cursor.pos < src.walkEnd src.size := by
      rw [on.pos]
      exact Nat.lt_of_le_of_lt inside src.size_lt_walkEnd
    have resumes : s.TakesMark words :=
      (Scan.takesMark_iff on.sound on.tracks more (Nat.le_of_eq column)).2
        ⟨column, by rwa [on.tracks.ch, on.pos]⟩
    exact passResumes_outside table ⟨s, reaches, more, on.pos, resumes⟩ outside

end Line

end Source

/-! ## The other tests -/

namespace Source

variable {src : Source} {line : Nat}

/-- Of the characters other than a line end, a blank and a zero, which the test by styles takes for
marks, only a form feed is none. -/
theorem isMark_or_formFeed_iff {c : Char} (noBang : c ≠ '!') :
    isLineEnd c = false ∧ isBlank c = false ∧ c ≠ '0' ↔ isMark c = true ∨ c = '\x0c' := by
  by_cases feed : c = '\x0c'
  · subst feed
    decide
  · have space : isSpace c = false ↔ isBlank c = false ∧ isLineEnd c = false := by
      rw [← Bool.not_eq_true, isSpace_iff, or_iff_left feed, not_or, Bool.not_eq_true,
        Bool.not_eq_true]
    rw [isMark_iff, space, or_iff_left feed, and_iff_left noBang, and_assoc]
    exact and_left_comm

/-- The source ends in the column of the mark of a line on which no comment has begun. -/
def EndsAtMark (src : Source) (line : Nat) : Prop :=
  src.isFixedComment (src.lineStart line) = false ∧ src.lineStart line + markColumn = src.size

/-- A form feed is in the column of the mark of a line on which no comment has begun. -/
def FormFeedAtMark (src : Source) (line : Nat) : Prop :=
  src.isFixedComment (src.lineStart line) = false ∧
    src.columnChar (src.lineStart line) markColumn = '\x0c'

theorem isFixedContinuation_of_endsAtMark (ends : src.EndsAtMark line) :
    src.isFixedContinuation (src.lineStart line) = false := by
  have beyond : src.columnChar (src.lineStart line) markColumn = '\n' :=
    charD_of_le (Nat.le_of_eq ends.2.symm) '\n'
  rw [isFixedContinuation, beyond]
  exact Bool.and_false _

/-- Five blanks on a last line without a line end. -/
example : (Document.ofBytes #[120, 10, 32, 32, 32, 32, 32]).source.EndsAtMark 1 :=
  ⟨by decide +kernel, by decide +kernel⟩

theorem isFixedContinuation_of_formFeedAtMark (feed : src.FormFeedAtMark line) :
    src.isFixedContinuation (src.lineStart line) = false := by
  rw [isFixedContinuation, feed.2]
  exact Bool.and_false _

end Source

namespace Document

variable {doc : Document} {line : Nat}

/-- A line of a styled text continues a statement exactly if no comment begins up to the column of the
mark and that holds a character other than a blank, a zero or a line end. -/
theorem isStyledContinuation_iff (fits : doc.Fits) (words : Dictionary) (outside : Style)
    (bound : line < doc.source.lines) :
    (doc.styleRange words .fixed 0 doc.size outside).isStyledContinuation line = true ↔
      (doc.source.isFixedComment (doc.source.lineStart line) = false ∧
          isLineEnd (doc.source.columnChar (doc.source.lineStart line) markColumn) = false) ∧
        isBlank (doc.source.columnChar (doc.source.lineStart line) markColumn) = false ∧
        doc.source.columnChar (doc.source.lineStart line) markColumn ≠ '0' := by
  have mark := Source.freshStyle_markColumn_iff fits.table bound words
  rw [← styleAt_styleRange_fresh fits words .fixed outside] at mark
  rw [← mark]
  have unfolded : (doc.styleRange words .fixed 0 doc.size outside).isStyledContinuation line =
      (decide ((doc.styleRange words .fixed 0 doc.size outside).styleAt
            (doc.source.lineStart line + markColumn) = .continuation) &&
        !isBlank (doc.source.charD (doc.source.lineStart line + markColumn) ' ') &&
        decide (doc.source.charD (doc.source.lineStart line + markColumn) ' ' ≠ '0')) := rfl
  rw [unfolded]
  simp only [Bool.and_eq_true, decide_eq_true_eq, Bool.not_eq_true', and_assoc]
  apply and_congr_right
  intro styled
  rw [Source.columnChar, Source.charD_eq_of_lt (Source.lt_size_of_columnChar (mark.1 styled).2)]

/-- The three tests for a continuation line agree: what its bytes say, what the pass over everything
does in the column of the mark, and what the bytes and styles say after that pass. -/
def MarksAgree (doc : Document) (words : Dictionary) (outside : Style) (line : Nat) : Prop :=
  (doc.source.PassResumes words outside line ↔
    doc.source.isFixedContinuation (doc.source.lineStart line) = true) ∧
  ((doc.styleRange words .fixed 0 doc.size outside).isStyledContinuation line = true ↔
    doc.source.isFixedContinuation (doc.source.lineStart line) = true)

/-- After the first line the pass also resumes a statement at the end of the text, if that is in the
column of the mark, and the test by styles also takes a form feed for a mark. So the three tests agree
on all lines but these two kinds. -/
theorem marksAgree_iff (fits : doc.Fits) (words : Dictionary) (outside : Style) (later : 0 < line)
    (bound : line < doc.source.lines) :
    (doc.source.PassResumes words outside line ↔
      doc.source.isFixedContinuation (doc.source.lineStart line) = true ∨
        doc.source.EndsAtMark line) ∧
    ((doc.styleRange words .fixed 0 doc.size outside).isStyledContinuation line = true ↔
      doc.source.isFixedContinuation (doc.source.lineStart line) = true ∨
        doc.source.FormFeedAtMark line) ∧
    (doc.MarksAgree words outside line ↔
      ¬doc.source.EndsAtMark line ∧ ¬doc.source.FormFeedAtMark line) := by
  have start : doc.source.lineStart line ≠ 0 :=
    Nat.ne_of_gt (Nat.lt_of_le_of_lt (Nat.zero_le _) (Source.lineStart_lt fits.table later bound))
  have bytes := doc.source.isFixedContinuation_iff start
  have pass : doc.source.PassResumes words outside line ↔
      doc.source.isFixedContinuation (doc.source.lineStart line) = true ∨
        doc.source.EndsAtMark line := by
    rw [Source.passResumes_iff fits.table bound, bytes]
    exact and_or_left
  have styles : (doc.styleRange words .fixed 0 doc.size outside).isStyledContinuation line = true ↔
      doc.source.isFixedContinuation (doc.source.lineStart line) = true ∨
        doc.source.FormFeedAtMark line := by
    rw [isStyledContinuation_iff fits words outside bound, bytes, Source.FormFeedAtMark, ← and_or_left,
      and_assoc]
    apply and_congr_right
    intro statement
    have clean := (Source.isFixedComment_eq_false_iff.1 statement).1 markColumn (Nat.le_refl _)
    exact Source.isMark_or_formFeed_iff (of_decide_eq_false (Bool.or_eq_false_iff.1 clean).2)
  refine ⟨pass, styles, ?_⟩
  rw [MarksAgree, pass, styles, or_iff_left_iff_imp, or_iff_left_iff_imp]
  refine and_congr ⟨fun agree ends => ?_, fun never ends => absurd ends never⟩
    ⟨fun agree feed => ?_, fun never feed => absurd feed never⟩
  · exact Bool.false_ne_true ((Source.isFixedContinuation_of_endsAtMark ends).symm.trans (agree ends))
  · exact Bool.false_ne_true
      ((Source.isFixedContinuation_of_formFeedAtMark feed).symm.trans (agree feed))

/-- A mask, and an assignment on the next line behind a character in the column of the mark. -/
def maskThen (mark : UInt8) : Document :=
  ofBytes (#[32, 32, 32, 32, 32, 32, 119, 104, 101, 114, 101, 32, 40, 97, 41, 10, 32, 32, 32, 32, 32] ++
    #[mark, 99, 61, 100, 10])

theorem marksAgree_iff_ampersand :
    (0 < 1 ∧ 1 < (maskThen 38).source.lines) ∧ (maskThen 38).MarksAgree .fortran .plain 1 ∧
      (maskThen 38).source.isFixedContinuation ((maskThen 38).source.lineStart 1) = true := by
  have bound : 1 < (maskThen 38).source.lines := by decide +kernel
  have inside : (maskThen 38).source.lineStart 1 + markColumn ≠ (maskThen 38).source.size := by
    decide +kernel
  have ampersand : (maskThen 38).source.columnChar ((maskThen 38).source.lineStart 1) markColumn ≠
      '\x0c' := by decide +kernel
  have agree := (marksAgree_iff (fits_ofBytes _) .fortran .plain (by decide) bound).2.2.2
    ⟨fun ends => inside ends.2, fun feed => ampersand feed.2⟩
  exact ⟨⟨by decide, bound⟩, agree, by decide +kernel⟩

/-- On every line but the first, the three tests for a continuation line agree. -/
def AllMarksAgree (words : Dictionary) : Prop :=
  ∀ (doc : Document) (outside : Style) (line : Nat), doc.Fits → 0 < line → line < doc.source.lines →
    doc.MarksAgree words outside line

/-- With a form feed in the column of the mark, the assignment goes on with the statement of the mask
only if one goes by the styles. -/
theorem not_allMarksAgree_formFeed : ¬AllMarksAgree .fortran := by
  intro agree
  have marks := agree (maskThen 12) .plain 1 (fits_ofBytes _) (by decide) (by decide +kernel)
  have styled : ((maskThen 12).styleRange .fortran .fixed 0 (maskThen 12).size
      .plain).isStyledContinuation 1 = true := by decide +kernel
  have bytes : (maskThen 12).source.isFixedContinuation ((maskThen 12).source.lineStart 1) = false := by
    decide +kernel
  rw [marks.2.1 styled] at bytes
  cases bytes

end Document

end FortranMarkup
