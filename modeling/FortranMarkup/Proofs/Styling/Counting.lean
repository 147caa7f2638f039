import FortranMarkup.Proofs.Styling.Moves

/-!
# Visible bytes of a line

A scan counts bytes that are neither spaces nor tabs, but not those that it passes within a step. So
the count is not their number; it is zero exactly while the line has shown none
(`Scan.CountedBefore`). A step that handles a byte in place, or passes it and others that are
visible, keeps it so (`Scan.Tallied.countedBefore`), and so does the way to a continued text
(`Scan.Counted.skipSpaces`), where a line begins on the way. So all turns of a pass begin with a
count that is right (`Scan.Reaches.onCourse`).
-/

namespace FortranMarkup

namespace Source

variable {src : Source} {first pos : Nat}

/-- The bytes before a position on its line are spaces and tabs. -/
def BlankBefore (src : Source) (pos : Nat) : Prop :=
  ∀ before, before < pos → src.lineAt before = src.lineAt pos →
    isSpaceOrTab (src.charD before '\x00') = true

theorem blankBefore_of_starts (table : src.Tabled) (starts : src.StartsLine pos) :
    src.BlankBefore pos := by
  intro before less same
  exact absurd same (Nat.ne_of_lt (lineAt_lt_of_startsLine table less starts))

theorem blankBefore_iff (table : src.Tabled) (le : first ≤ pos)
    (line : src.lineAt pos = src.lineAt first) :
    src.BlankBefore pos ↔ src.BlankBefore first ∧
      ∀ between, first ≤ between → between < pos →
        isSpaceOrTab (src.charD between '\x00') = true := by
  constructor
  · intro blank
    refine ⟨fun before less same => ?_, fun between low high => blank between high ?_⟩
    · exact blank before (Nat.lt_of_lt_of_le less le) (same.trans line.symm)
    · have up := lineAt_mono table low
      have down := lineAt_mono table (Nat.le_of_lt high)
      omega
  · rintro ⟨blank, later⟩ before less same
    by_cases early : before < first
    · exact blank before early (same.trans line)
    · exact later before (Nat.le_of_not_lt early) less

theorem blankBefore_succ (table : src.Tabled) (line : src.lineAt (pos + 1) = src.lineAt pos) :
    src.BlankBefore (pos + 1) ↔
      src.BlankBefore pos ∧ isSpaceOrTab (src.charD pos '\x00') = true := by
  rw [blankBefore_iff table (Nat.le_succ pos) line]
  refine and_congr_right (fun _ => ⟨fun all => all pos (Nat.le_refl _) (Nat.lt_succ_self _), ?_⟩)
  intro blank between low high
  rwa [Nat.le_antisymm (Nat.le_of_lt_succ high) low]

end Source

namespace Scan

variable {src : Source} {start stop : Nat} {s t : Scan src start stop}

/-- The count tells whether the line has shown a visible byte before the cursor. -/
def CountedBefore (s : Scan src start stop) : Prop :=
  s.nonBlank = 0 ↔ src.BlankBefore s.cursor.pos

/-- A count that is right before the cursor, and to which the byte there has been added. -/
def Counted (s : Scan src start stop) : Prop :=
  ∃ before, (before = 0 ↔ src.BlankBefore s.cursor.pos) ∧
    s.nonBlank = before + if isSpaceOrTab s.cursor.ch then 0 else 1

theorem CountedBefore.countByte (counted : s.CountedBefore) : s.countByte.Counted := by
  refine ⟨s.nonBlank, by rwa [pos_countByte], ?_⟩
  rw [cursor_countByte, Scan.countByte]
  split
  · rfl
  · rfl

/-- What a count tells at a byte that has been counted: whether visible bytes are before it, but for
a continuation mark that stands right before it. -/
structure Tallied (s : Scan src start stop) : Prop where
  zero : s.nonBlank = 0 ↔ src.BlankBefore s.cursor.pos ∧ isSpaceOrTab s.cursor.ch = true
  one : src.BlankBefore s.cursor.pos → isSpaceOrTab s.cursor.ch = false → s.nonBlank = 1

theorem Counted.tallied (counted : s.Counted) : s.Tallied := by
  obtain ⟨before, none, total⟩ := counted
  refine ⟨?_, ?_⟩
  · rw [total, ← none]
    split
    · simp_all
    · simp_all
  · intro blank visible
    rw [total, none.2 blank, visible]
    rfl

theorem Counted.first (counted : s.Counted) (visible : isSpaceOrTab s.cursor.ch = false)
    (one : s.nonBlank = 1) : src.BlankBefore s.cursor.pos := by
  obtain ⟨before, none, total⟩ := counted
  rw [visible] at total
  exact none.1 (by simpa [one] using total.symm)

/-- A count stays right over bytes that are passed in one step if the first of them is visible. -/
theorem Tallied.countedBefore (table : src.Tabled) (tallied : s.Tallied) (tracks : s.cursor.Tracks)
    (count : t.nonBlank = s.nonBlank) (later : s.cursor.pos < t.cursor.pos)
    (line : src.lineAt t.cursor.pos = src.lineAt s.cursor.pos)
    (stays : isSpaceOrTab s.cursor.ch = true → t.cursor.pos = s.cursor.pos + 1) :
    t.CountedBefore := by
  rw [CountedBefore, count, tallied.zero,
    Source.blankBefore_iff table (Nat.le_of_lt later) line]
  refine and_congr_right (fun _ => ⟨?_, ?_⟩)
  · intro blank between low high
    rw [stays blank] at high
    obtain rfl : between = s.cursor.pos := Nat.le_antisymm (Nat.le_of_lt_succ high) low
    rwa [← tracks.ch]
  · intro all
    rw [tracks.ch]
    exact all _ (Nat.le_refl _) later

/-! ## Steps that count -/

theorem CountedBefore.beginLine (table : src.Tabled) (tracks : s.cursor.Tracks)
    (counted : ¬src.StartsLine s.cursor.pos → s.CountedBefore) : s.beginLine.CountedBefore := by
  rw [CountedBefore, pos_beginLine]
  by_cases starts : src.StartsLine s.cursor.pos
  · rw [Scan.beginLine, if_pos (tracks.atLineStart.2 starts)]
    exact iff_of_true rfl (Source.blankBefore_of_starts table starts)
  · rw [Scan.beginLine, if_neg (mt tracks.atLineStart.1 starts)]
    exact counted starts

theorem counted_skipOne (table : src.Tabled) (room : src.size < stop) (tracks : s.cursor.Tracks)
    (inside : s.cursor.pos < src.size)
    (counted : src.lineAt (s.cursor.pos + 1) = src.lineAt s.cursor.pos →
      (s.nonBlank = 0 ↔ src.BlankBefore (s.cursor.pos + 1))) : s.skipOne.Counted := by
  have more := Nat.lt_trans inside room
  have moved := tracks.forward table inside more
  have pos := Cursor.pos_forward_of_lt more
  refine CountedBefore.countByte ?_
  rw [CountedBefore]
  change ((if s.cursor.forward.atLineStart then 0 else s.nonBlank) = 0) ↔
    src.BlankBefore s.cursor.forward.pos
  by_cases starts : src.StartsLine s.cursor.forward.pos
  · rw [if_pos (moved.atLineStart.2 starts)]
    exact iff_of_true rfl (Source.blankBefore_of_starts table starts)
  · rw [if_neg (mt moved.atLineStart.1 starts), pos]
    apply counted
    rw [pos, Source.startsLine_succ] at starts
    rw [Source.lineAt_succ table, if_neg starts]

/-- The way over spaces, on which lines may begin, counts the bytes of each line. -/
theorem Counted.skipSpaces (table : src.Tabled) (room : src.size < stop) (tracks : s.cursor.Tracks)
    (counted : s.Counted) : s.skipSpaces.Counted ∧ s.skipSpaces.cursor.Tracks := by
  fun_induction Scan.skipSpaces s with
  | case1 s going ih =>
    have before := tracks.lt_size (by intro none; rw [none] at going; cases going.1)
    refine ih ?_ ?_
    · rw [cursor_countByte]
      exact tracks.forward table before going.2
    · refine counted_skipOne table room tracks before (fun line => ?_)
      rw [Source.blankBefore_succ table line, ← tracks.ch]
      exact counted.tallied.zero
  | case2 => exact ⟨counted, tracks⟩

theorem isSpace_of_skipSpaces (table : src.Tabled) (tracks : s.cursor.Tracks)
    {pos : Nat} (low : s.cursor.pos ≤ pos) (high : pos < s.skipSpaces.cursor.pos) :
    isSpace (src.charD pos '\x00') = true := by
  fun_induction Scan.skipSpaces s with
  | case1 s going ih =>
    have before := tracks.lt_size (by intro none; rw [none] at going; cases going.1)
    rcases Nat.lt_or_eq_of_le low with later | rfl
    · refine ih ?_ ?_ high
      · rw [cursor_countByte]
        exact tracks.forward table before going.2
      · rw [pos_countByte]
        exact Nat.le_trans (Cursor.pos_forward_le _) later
    · rw [← tracks.ch]
      exact going.1
  | case2 => omega

/-! ## Continuation marks -/

theorem afterBlanks_eq_next {c : Cursor src start stop} (tracks : c.Tracks)
    (visible : isBlank c.next = false) : afterBlanks c = c.next := by
  have reach : markReach = 132 := rfl
  have first :
      src.skipWhile isBlank (min (c.pos + markReach) src.size) (c.pos + 1) = c.pos + 1 := by
    unfold Source.skipWhile
    split
    · rename_i inside
      have here : isBlank (src.charD (c.pos + 1) ' ') = false := by
        rwa [Source.charD_eq_of_lt (by omega) ' ' '\x00', ← tracks.next]
      rw [if_neg (by rw [here]; exact Bool.false_ne_true)]
    · rfl
  unfold afterBlanks
  dsimp only
  rw [first, if_pos (by omega), tracks.next]

/-- Where the text that a mark continues goes on. -/
structure Resumes (s t : Scan src start stop) : Prop where
  tracks : t.cursor.Tracks
  tallied : t.Tallied
  later : s.cursor.pos < t.cursor.pos
  passed : ∀ pos, s.cursor.pos < pos → pos < t.cursor.pos →
    isSpace (src.charD pos '\x00') = true ∨
      (pos + 1 = t.cursor.pos ∧ src.charD pos '\x00' = '&')
  first : isSpaceOrTab t.cursor.ch = false → t.nonBlank = 1 →
    src.BlankBefore t.cursor.pos ∨
      (src.charD (t.cursor.pos - 1) '\x00' = '&' ∧ src.BlankBefore (t.cursor.pos - 1))
  state : t.cursor.state = s.cursor.state
  leads : Cursor.Leads (s.cursor.setState .continuation).forward t.cursor

section Mark

variable (table : src.Tabled) (room : src.size < stop) (tracks : s.cursor.Tracks)
  (mark : s.cursor.ch = '&')
include table room tracks mark

theorem tracks_pastMark :
    s.pastMark.cursor.Tracks ∧ s.pastMark.cursor.pos = s.cursor.pos + 1 ∧
      s.pastMark.cursor.ch = s.cursor.next ∧
      src.lineAt (s.cursor.pos + 1) = src.lineAt s.cursor.pos := by
  have inside : s.cursor.pos < src.size := tracks.lt_size (by rw [mark]; decide)
  have more := Nat.lt_trans inside room
  have pos := pos_pastMark more
  have moved : s.pastMark.cursor.Tracks :=
    ((tracks.paint.relabel .continuation).forward table inside more).paint.relabel .plain
  refine ⟨moved, pos, ?_, ?_⟩
  · rw [moved.ch, pos, tracks.next]
  · refine (Source.columnAt_succ table ?_).1
    rw [← tracks.ch, mark]
    rfl

theorem not_blankBefore_of_mark : ¬src.BlankBefore (s.cursor.pos + 1) := by
  obtain ⟨-, -, -, line⟩ := tracks_pastMark table room tracks mark
  rw [Source.blankBefore_succ table line, ← tracks.ch, mark]
  exact fun both => Bool.false_ne_true both.2

/-- Where the text goes on, the bytes of its line are counted. -/
theorem Counted.pastMark (counted : s.Counted) (space : isSpace s.cursor.next = true) :
    s.pastMark.skipSpaces.Counted ∧ s.pastMark.skipSpaces.cursor.Tracks := by
  obtain ⟨moved, pos, ch, line⟩ := tracks_pastMark table room tracks mark
  rw [← ch] at space
  have inside : s.pastMark.cursor.pos < src.size :=
    moved.lt_size (by intro none; rw [none] at space; cases space)
  have more := Nat.lt_trans inside room
  have some : s.nonBlank ≠ 0 := by
    intro none
    have blank := (counted.tallied.zero.1 none).2
    rw [mark] at blank
    cases blank
  have first : s.pastMark.skipOne.Counted := by
    refine counted_skipOne table room moved inside (fun same => iff_of_false some ?_)
    rw [pos] at same ⊢
    rw [Source.blankBefore_iff table (Nat.le_succ _) same]
    exact fun both => not_blankBefore_of_mark table room tracks mark both.1
  rw [skipSpaces_eq, if_pos ⟨space, more⟩]
  refine first.skipSpaces table room ?_
  rw [cursor_skipOne]
  exact moved.forward table inside more

theorem resumes_resumeNextLine (counted : s.Counted) (space : isSpace s.cursor.next = true) :
    s.Resumes s.resumeNextLine := by
  obtain ⟨-, mark_pos, -, -⟩ := tracks_pastMark table room tracks mark
  obtain ⟨skipped_counted, skipped_tracks⟩ := counted.pastMark table room tracks mark space
  have skipped_leads := leads_skipSpaces s.pastMark
  have marked : Cursor.Leads (s.cursor.setState .continuation).forward s.pastMark.cursor :=
    (Cursor.Leads.refl _).setState .plain
  have after_mark := skipped_leads.pos_le
  have spaces {pos : Nat} (low : s.cursor.pos < pos)
      (high : pos < s.pastMark.skipSpaces.cursor.pos) :=
    isSpace_of_skipSpaces table (tracks_pastMark table room tracks mark).1
      (Nat.le_trans (Nat.le_of_eq mark_pos) low) high
  have cursor : s.resumeNextLine.cursor =
      (skipLeadingMark s.pastMark.skipSpaces.cursor).setState s.cursor.state := rfl
  have nonBlank : s.resumeNextLine.nonBlank = s.pastMark.skipSpaces.nonBlank := rfl
  generalize s.resumeNextLine = t at *
  generalize s.pastMark.skipSpaces = u at *
  by_cases again : u.cursor.ch = '&'
  · -- The mark with which the next line begins is counted, and the byte after it is not.
    have inside : u.cursor.pos < src.size := skipped_tracks.lt_size (by rw [again]; decide)
    have more := Nat.lt_trans inside room
    have led : skipLeadingMark u.cursor = (u.cursor.setState .continuation).forward := if_pos again
    rw [led] at cursor
    have pos : t.cursor.pos = u.cursor.pos + 1 := by
      rw [cursor]
      exact Cursor.pos_forward_of_lt more
    have marked_tracks := (skipped_tracks.paint.relabel .continuation).forward table inside more
    have tracks' : t.cursor.Tracks := cursor ▸ marked_tracks.paint.relabel _
    have shown := not_blankBefore_of_mark table room skipped_tracks again
    have visible : isSpaceOrTab u.cursor.ch = false := by rw [again]; rfl
    rw [← pos] at shown
    refine ⟨tracks', ⟨iff_of_false ?_ (fun both => shown both.1), fun blank => absurd blank shown⟩,
      by omega, ?_, ?_, by rw [cursor]; rfl, ?_⟩
    · rw [nonBlank]
      intro none
      rw [(skipped_counted.tallied.zero.1 none).2] at visible
      cases visible
    · intro q low high
      rcases Nat.lt_or_eq_of_le (Nat.le_of_lt_succ (pos ▸ high)) with early | rfl
      · exact .inl (spaces low early)
      · exact .inr ⟨pos.symm, skipped_tracks.ch ▸ again⟩
    · intro _ one
      have first := skipped_counted.first visible (nonBlank ▸ one)
      have before : t.cursor.pos - 1 = u.cursor.pos := by omega
      rw [before]
      exact .inr ⟨skipped_tracks.ch ▸ again, first⟩
    · exact cursor ▸ (((marked.trans skipped_leads).setState .continuation).forward).setState _
  · have led : skipLeadingMark u.cursor = u.cursor := if_neg again
    rw [led] at cursor
    have pos : t.cursor.pos = u.cursor.pos := by rw [cursor, Cursor.pos_setState]
    have ch : t.cursor.ch = u.cursor.ch := by rw [cursor]; rfl
    have counted' : t.Counted := by
      obtain ⟨before, none, total⟩ := skipped_counted
      exact ⟨before, by rwa [pos], by rwa [nonBlank, ch]⟩
    refine ⟨cursor ▸ skipped_tracks.paint.relabel _, counted'.tallied, by omega, ?_, ?_,
      by rw [cursor]; rfl, cursor ▸ (marked.trans skipped_leads).setState _⟩
    · intro q low high
      exact .inl (spaces low (pos ▸ high))
    · exact fun visible one => .inl (counted'.first visible one)

end Mark

/-! ## Where the rules for tokens begin -/

/-- Where the rules for tokens begin in a turn: at its byte, behind a mark before a comment, or
where a continued text goes on. -/
inductive Arrives (form : SourceForm) (b : Scan src start stop) : Scan src start stop → Prop
  | here : Arrives form b b
  | comment {after : Style} (free : form = .free) (mark : b.cursor.ch = '&')
      (next : b.cursor.next ≠ '#') (begins : after ≠ .preprocessor) :
      Arrives form b (b.withCursor ((b.cursor.setState .continuation).forwardSetState after))
  | resume (free : form = .free) (mark : b.cursor.ch = '&') (space : isSpace b.cursor.next = true) :
      Arrives form b b.resumeNextLine

theorem arrives_ampersandStep {b : Scan src start stop} (tracks : b.cursor.Tracks)
    (mark : b.cursor.ch = '&') : Arrives .free b b.ampersandStep := by
  unfold ampersandStep
  dsimp only
  split
  · rename_i bang
    refine .comment rfl mark ?_ (by split <;> decide)
    intro sign
    rw [afterBlanks_eq_next tracks (by rw [sign]; rfl), sign] at bang
    cases bang
  split
  · rename_i ends
    refine .resume rfl mark ?_
    cases blank : isBlank b.cursor.next with
    | true =>
      simp only [isBlank, Bool.or_eq_true, decide_eq_true_eq] at blank
      rcases blank with (blank | blank) | blank <;> rw [blank] <;> rfl
    | false =>
      rw [afterBlanks_eq_next tracks blank] at ends
      simp only [isLineEnd, Bool.or_eq_true, decide_eq_true_eq] at ends
      rcases ends with ends | ends <;> rw [ends] <;> rfl
  · exact .here

/-- A turn in the columns of the statement ends with the rules for tokens. -/
theorem exists_arrives (words : Dictionary) {form : SourceForm} (tracks : s.cursor.Tracks)
    (statement : form = .fixed → ¬(s.cursor.column ≤ markColumn ∨ tailColumn ≤ s.cursor.column)) :
    ∃ m, Arrives form s.beginLine.countByte m ∧ s.step words form = m.tokenStep words form := by
  cases form with
  | fixed => exact ⟨_, .here, step_of_statement words (statement rfl)⟩
  | free =>
    unfold step
    dsimp only
    split
    · rename_i mark
      refine ⟨_, arrives_ampersandStep ?_ mark.1, rfl⟩
      rw [cursor_countByte]
      exact tracks_beginLine tracks
    · exact ⟨_, .here, rfl⟩

section Arrival

variable {form : SourceForm} {b m : Scan src start stop} (table : src.Tabled)
  (room : src.size < stop) (begun : b.cursor.Tracks) (counted : b.Counted)
  (arrives : Arrives form b m)

include arrives in
theorem Arrives.leads : Cursor.Leads b.cursor m.cursor := by
  cases arrives with
  | here => exact .refl _
  | comment => exact ((Cursor.Leads.refl _).setState _).forwardSetState _
  | resume => exact leads_resumeNextLine b

include table room begun counted arrives

theorem Arrives.tracks : m.cursor.Tracks := by
  cases arrives with
  | here => exact begun
  | comment _ mark => exact (tracks_pastMark table room begun mark).1.relabel _
  | resume _ mark space => exact (resumes_resumeNextLine table room begun mark counted space).tracks

theorem Arrives.tallied : m.Tallied := by
  cases arrives with
  | here => exact counted.tallied
  | comment _ mark =>
    -- The mark has been counted, and the byte after it has not.
    have pos := (tracks_pastMark table room begun mark).2.1
    have shown := not_blankBefore_of_mark table room begun mark
    have some : b.nonBlank ≠ 0 := by
      intro none
      have blank := (counted.tallied.zero.1 none).2
      rw [mark] at blank
      cases blank
    refine ⟨iff_of_false some ?_, ?_⟩
    · exact fun both => shown (pos ▸ both.1)
    · exact fun blank => absurd (pos ▸ blank) shown
  | resume _ mark space =>
    exact (resumes_resumeNextLine table room begun mark counted space).tallied

/-- No number sign is passed before the rules for tokens. -/
theorem Arrives.unsigned {pos : Nat} (low : b.cursor.pos ≤ pos) (high : pos < m.cursor.pos) :
    src.charD pos '\x00' ≠ '#' := by
  have mark_ne (mark : b.cursor.ch = '&') (here : pos = b.cursor.pos) :
      src.charD pos '\x00' ≠ '#' := by
    rw [here, ← begun.ch, mark]
    decide
  cases arrives with
  | here => omega
  | comment _ mark =>
    have after := (tracks_pastMark table room begun mark).2.1
    have early : pos < b.cursor.pos + 1 := Nat.lt_of_lt_of_eq high after
    exact mark_ne mark (Nat.le_antisymm (Nat.le_of_lt_succ early) low)
  | resume _ mark space =>
    have resumes := resumes_resumeNextLine table room begun mark counted space
    rcases Nat.lt_or_eq_of_le low with later | here
    · intro sign
      rcases resumes.passed pos later high with space | ⟨-, again⟩
      · rw [sign] at space
        cases space
      · rw [sign] at again
        cases again
    · exact mark_ne mark here.symm

end Arrival

/-! ## All turns -/

/-- What holds wherever a turn begins. -/
structure OnCourse (form : SourceForm) (s : Scan src start stop) : Prop where
  counted : ¬src.StartsLine s.cursor.pos → s.CountedBefore
  directive : s.cursor.state = .preprocessor → s.cursor.segment < s.cursor.pos
  carried : form = .fixed → s.carried ≠ .preprocessor

theorem onCourse_whole (form : SourceForm) (src : Source) : OnCourse form (whole src) where
  counted := fun later => absurd (.inl rfl) later
  directive := Style.noConfusion
  carried := fun _ => Style.noConfusion

theorem OnCourse.begun {form : SourceForm} (course : OnCourse form s) (table : src.Tabled)
    (tracks : s.cursor.Tracks) : s.beginLine.countByte.Counted :=
  (CountedBefore.beginLine table tracks course.counted).countByte

theorem OnCourse.directive_begun {form : SourceForm} (course : OnCourse form s)
    (state : s.beginLine.countByte.cursor.state = .preprocessor) :
    s.beginLine.countByte.cursor.segment < s.beginLine.countByte.cursor.pos := by
  rw [cursor_countByte, beginLine] at state ⊢
  split at state
  · cases state
  · rename_i later
    rw [if_neg later]
    exact course.directive state

section Advance

variable {words : Dictionary} {form : SourceForm} (table : src.Tabled) (room : src.size < stop)
  (tracks : s.cursor.Tracks) (course : OnCourse form s)
  (inside : (s.advance words form).cursor.pos ≤ src.size)

include room inside in
theorem pos_advance_of_inside :
    (s.advance words form).cursor.pos = (s.step words form).cursor.pos + 1 := by
  have moved := Cursor.pos_le_forward (s.step words form).cursor
  exact Cursor.pos_forward_of_lt (Nat.lt_of_le_of_lt (Nat.le_trans moved inside) room)

include table room tracks course inside

theorem OnCourse.counted_advance (later : ¬src.StartsLine (s.advance words form).cursor.pos) :
    (s.advance words form).CountedBefore := by
  have next := pos_advance_of_inside room inside
  have step_line : src.lineAt (s.advance words form).cursor.pos =
      src.lineAt (s.step words form).cursor.pos := by
    rw [next, Source.startsLine_succ] at later
    rw [next, Source.lineAt_succ table, if_neg later]
  have step_nonBlank : (s.advance words form).nonBlank = (s.step words form).nonBlank := rfl
  have begun := course.begun table tracks
  have begun_tracks : s.beginLine.countByte.cursor.Tracks := by
    rw [cursor_countByte]
    exact tracks_beginLine tracks
  by_cases edge : form = .fixed ∧ (s.cursor.column ≤ markColumn ∨ tailColumn ≤ s.cursor.column)
  · obtain ⟨rfl, edge⟩ := edge
    have nonBlank := (remembers_fixedStep s.beginLine.countByte s.cursor.column).1
    have le := (leads_step_of_begun words .fixed s).pos_le
    have moves := fixedMoves_fixedStep s.beginLine.countByte edge
    rw [← step_of_edge words edge] at nonBlank moves
    generalize s.beginLine.countByte = b at *
    generalize s.step words .fixed = t at *
    have ended {style : Style} (moved : t.cursor = (b.cursor.setState style).toLineEnd) :
        src.StartsLine (s.advance words .fixed).cursor.pos := by
      rw [next, moved]
      exact Cursor.startsLine_toLineEnd table room (begun_tracks.paint.relabel style)
        (moved ▸ (by omega))
    have tallied := begun.tallied.countedBefore table begun_tracks (step_nonBlank.trans nonBlank)
    generalize moved : t.cursor = d at moves
    rw [moved] at le next step_line
    have line : src.lineAt d.pos = src.lineAt b.cursor.pos :=
      moves.lineAt table begun_tracks le (Nat.le_refl _)
    cases moves with
    | comment => exact absurd (ended moved) later
    | tail => exact absurd (ended moved) later
    | stay => exact tallied (by omega) (step_line.trans line) (fun _ => next)
    | mark _ visible =>
      refine tallied (by omega) (step_line.trans line) ?_
      intro blank
      rw [Source.isSpaceOrTab_of_not_isSpace visible] at blank
      cases blank
  · obtain ⟨m, arrives, step⟩ := exists_arrives words tracks (fun fixed here => edge ⟨fixed, here⟩)
    have arrived := arrives.tracks table room begun_tracks begun
    have moved := pos_le_tokenStep m words form
    rw [step] at next step_line step_nonBlank
    refine (arrives.tallied table room begun_tracks begun).countedBefore table arrived
      (step_nonBlank.trans (remembers_tokenStep m words form).1) (by omega) ?_ ?_
    · rw [step_line]
      exact lineAt_tokenStep table room arrived moved (Nat.le_refl _)
    · intro blank
      rw [next, pos_tokenStep_of_blank table room arrived blank]

end Advance

theorem OnCourse.advance {words : Dictionary} {form : SourceForm} (course : OnCourse form s)
    (table : src.Tabled) (room : src.size < stop) (sound : s.cursor.Sound)
    (tracks : s.cursor.Tracks) (inside : (s.advance words form).cursor.pos ≤ src.size) :
    OnCourse form (s.advance words form) where
  counted := course.counted_advance table room tracks inside
  directive _ := by
    have segment_le := ((leads_step words form s).sound sound).segment_le_pos
    have next := pos_advance_of_inside room inside
    have segment : (s.advance words form).cursor.segment = (s.step words form).cursor.segment :=
      Cursor.segment_forward _
    omega
  carried := by
    rintro rfl
    have begun : s.beginLine.countByte.carried = s.carried := by simp
    have kept := course.carried rfl
    change (s.step words .fixed).carried ≠ _
    by_cases edge : s.cursor.column ≤ markColumn ∨ tailColumn ≤ s.cursor.column
    · rw [step_of_edge words edge]
      rcases (remembers_fixedStep s.beginLine.countByte s.cursor.column).2 with same | plain
      · rwa [same, begun]
      · rw [plain]
        exact Style.noConfusion
    · rw [step_of_statement words edge]
      rcases (remembers_tokenStep s.beginLine.countByte words .fixed).2 with same | literal
      · rwa [same, begun]
      · intro directive
        rw [directive] at literal
        revert literal
        decide

/-- All turns of a pass begin on course. -/
theorem Reaches.onCourse {words : Dictionary} {form : SourceForm} (reaches : Reaches words form s t)
    (table : src.Tabled) (room : src.size < stop) (sound : s.cursor.Sound)
    (tracks : s.cursor.Tracks) (course : OnCourse form s) (inside : t.cursor.pos ≤ src.size) :
    OnCourse form t := by
  induction reaches with
  | refl => exact course
  | @turn s t more rest ih =>
    have leads : Cursor.Leads s.cursor (s.advance words form).cursor :=
      (leads_step words form s).forward
    have inside' := Nat.le_trans rest.leads.pos_le inside
    exact ih (leads.sound sound) (leads.tracks table room tracks inside')
      (course.advance table room sound tracks inside') inside

end Scan

end FortranMarkup
