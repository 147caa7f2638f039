import FortranMarkup.Proofs.Folding.Words
import FortranMarkup.Proofs.Source.Lines
import FortranMarkup.Proofs.Styling.Field

/-!
# Lines of fixed form up to their text

A line of fixed form has blanks, the column of the mark and the statement text (`Source.FieldLine`).
A scan comes from its start to the column of the mark (`Scan.OnLead.reaches`). A mark that resumes no
literal takes the first byte of the text along (`Scan.OnLead.pastFirst`); after a blank there, the
rules for tokens see that byte in plain text (`Scan.OnLead.openToken`).
-/

namespace FortranMarkup

namespace Source

variable {src : Source} {line : Nat} {mark : Char} {text ending : List Char}

/-- A line of fixed form with blanks in front of the column of the mark: a character in that column,
statement text that ends before the columns after the statement, and the line end. -/
structure FieldLine (src : Source) (line : Nat) (mark : Char) (text ending : List Char) : Prop where
  table : src.Tabled
  bound : line < src.lines
  chars : ∃ lead : List Char, lead.length = markColumn ∧ (∀ c ∈ lead, isSpaceOrTab c = true) ∧
    src.charsD (src.lineStart line) (src.lineEnd line) '\x00' = lead ++ mark :: (text ++ ending)
  inLine : ∀ c ∈ text, isLineEnd c = false
  ends : ∀ c ∈ ending, isLineEnd c = true
  short : markColumn + 1 + text.length ≤ tailColumn

theorem spells_of_charsD {pos : Nat} {chars : List Char} (inside : pos + chars.length ≤ src.size)
    (same : src.charsD pos (pos + chars.length) '\x00' = chars) : src.Spells pos chars := by
  induction chars generalizing pos with
  | nil => trivial
  | cons c rest ih =>
    have count : pos + (rest.length + 1) - pos = rest.length + 1 := by omega
    rw [List.length_cons] at inside
    rw [charsD, List.length_cons, count, List.range'_succ, List.map_cons, List.cons.injEq] at same
    obtain ⟨here, later⟩ := same
    refine ⟨?_, ih (by omega) ?_⟩
    · have less : pos < src.bytes.size := Nat.lt_of_lt_of_le (by omega) inside
      simpa [charD, char?, charAt?, less] using here
    · rwa [charsD, Nat.add_sub_cancel_left]

/-- The position after the column of the mark. -/
def fieldStart (src : Source) (line : Nat) : Nat :=
  src.lineStart line + (markColumn + 1)

theorem FieldLine.spells (fieldLine : src.FieldLine line mark text ending) :
    ∃ lead : List Char, lead.length = markColumn ∧ (∀ c ∈ lead, isSpaceOrTab c = true) ∧
      src.Spells (src.lineStart line) (lead ++ mark :: (text ++ ending)) ∧
      src.lineEnd line = src.fieldStart line + (text ++ ending).length := by
  obtain ⟨lead, length, blank, chars⟩ := fieldLine.chars
  have mono : src.lineStart line ≤ src.lineEnd line :=
    lineStart_mono fieldLine.table (Nat.le_succ line)
  have inside : src.lineEnd line ≤ src.size := lineStart_le_size fieldLine.table (line + 1)
  have total := congrArg List.length chars
  rw [charsD, List.length_map, List.length_range', List.length_append, List.length_cons, length]
    at total
  have stop : src.lineEnd line = src.fieldStart line + (text ++ ending).length := by
    unfold fieldStart
    omega
  refine ⟨lead, length, blank, spells_of_charsD ?_ ?_, stop⟩
  · rw [List.length_append, List.length_cons]
    omega
  · have last : src.lineStart line + (lead ++ mark :: (text ++ ending)).length = src.lineEnd line := by
      rw [List.length_append, List.length_cons]
      omega
    rw [last, chars]

theorem exists_endsLineAt {pos : Nat} {c : Char} (here : src.char? pos = some c)
    (ends : isLineEnd c = true) : ∃ last, pos ≤ last ∧ endsLineAt src.bytes last = true := by
  simp only [isLineEnd, Bool.or_eq_true, decide_eq_true_eq] at ends
  rcases ends with rfl | rfl
  · exact ⟨pos, Nat.le_refl _, endsLineAt_newline here⟩
  · by_cases next : src.char? (pos + 1) = some '\n'
    · exact ⟨pos + 1, Nat.le_succ _, endsLineAt_newline next⟩
    · refine ⟨pos, Nat.le_refl _, ?_⟩
      unfold char? at here next
      simp [endsLineAt, here, next]

theorem length_pos_of_filled (filled : text ≠ []) : 0 < (text ++ ending).length := by
  rw [List.length_append]
  exact Nat.lt_of_lt_of_le (List.length_pos_iff.2 filled) (Nat.le_add_right _ _)

theorem FieldLine.field (fieldLine : src.FieldLine line mark text ending) (filled : text ≠ []) :
    src.Field (src.fieldStart line) (text ++ ending) := by
  obtain ⟨lead, length, -, spells, stop⟩ := fieldLine.spells
  have table := fieldLine.table
  have bound := fieldLine.bound
  have some : 0 < (text ++ ending).length := length_pos_of_filled filled
  have start : src.fieldStart line = src.lineStart line + lead.length + 1 := by
    rw [length, fieldStart, Nat.add_assoc]
  have line_at {i : Nat} (less : i < (text ++ ending).length) :
      src.lineAt (src.fieldStart line + i) = line :=
    lineAt_of_lt table bound (by omega) (by omega)
  have spelled : src.Spells (src.fieldStart line) (text ++ ending) :=
    start ▸ (spells_append.1 spells).2.2
  refine ⟨table, spelled, ?_, ?_, ?_, ?_⟩
  · have here := line_at some
    rw [Nat.add_zero] at here
    rw [columnAt, here, fieldStart]
    omega
  · intro i less
    apply Bool.eq_false_iff.2
    refine not_ends_of_lt table (Nat.lt_succ_self _) ?_
    rw [line_at (Nat.lt_of_succ_lt less), Nat.succ_eq_add_one, Nat.add_assoc, line_at less]
  · intro none
    by_cases more : line + 1 < src.lines
    · obtain ⟨pos, ends, -, next⟩ := exists_end_of_lt table more
      have last : (text ++ ending).length - 1 < (text ++ ending).length := by omega
      have here := char?_of_spells spelled last
      have same : src.fieldStart line + ((text ++ ending).length - 1) = pos := by
        unfold lineEnd at stop
        omega
      rw [same] at here
      exact absurd ends (not_endsLineAt_of_char? here (none _ (List.getElem_mem last)))
    · rw [← stop, lineEnd, lineStart_of_le (Nat.le_of_not_lt more)]
  · rintro ⟨c, mem, isEnd⟩
    rw [← stop]
    by_cases more : line + 1 < src.lines
    · exact startsLine_lineStart table more
    · obtain ⟨i, less, rfl⟩ := List.getElem_of_mem mem
      obtain ⟨last, after, ends⟩ := exists_endsLineAt (char?_of_spells spelled less) isEnd
      have later := more_lines_of_startsLine table (Nat.lt_succ_self last) (startsLine_succ.2 ends)
      have onLine := (lineStart_le_iff table bound last).1 (by omega)
      omega

theorem FieldLine.start_lt_size (fieldLine : src.FieldLine line mark text ending)
    (filled : text ≠ []) : src.fieldStart line < src.size :=
  (fieldLine.field filled).lt_size (length_pos_of_filled filled)

end Source

/-! ## Up to the text -/

namespace Scan

variable {src : Source} {stop line : Nat} {mark : Char} {text ending : List Char}
  {carried : Style}

/-- A scan in the columns up to that of the mark, before which a line has blanks. -/
structure OnLead (line column : Nat) (carried : Style) (s : Scan src 0 stop) : Prop where
  pos : s.cursor.pos = src.lineStart line + column
  tracks : s.cursor.Tracks
  sound : s.cursor.Sound
  carried : s.carried = carried
  nonBlank : 0 < column → s.nonBlank = 0

section Lead

variable (fieldLine : src.FieldLine line mark text ending) (room : src.size < stop)
include fieldLine

theorem OnLead.column_eq {column : Nat} (le : column ≤ markColumn) {s : Scan src 0 stop}
    (lead : OnLead line column carried s) :
    s.cursor.column = column ∧ s.cursor.pos < src.size := by
  obtain ⟨-, -, -, -, stops⟩ := fieldLine.spells
  have start : src.fieldStart line = src.lineStart line + (markColumn + 1) := rfl
  have pos := lead.pos
  have inside : src.lineEnd line ≤ src.size := Source.lineStart_le_size fieldLine.table (line + 1)
  have here := Source.lineAt_of_lt fieldLine.table fieldLine.bound
    (show src.lineStart line ≤ s.cursor.pos by omega) (by omega)
  rw [lead.tracks.column_eq, Source.columnAt, here]
  omega

include room

theorem OnLead.advance {column : Nat} (less : column < markColumn) {s : Scan src 0 stop}
    (lead : OnLead line column carried s) (words : Dictionary) :
    OnLead line (column + 1) carried (s.advance words .fixed) := by
  obtain ⟨at_column, inside⟩ := lead.column_eq fieldLine (Nat.le_of_lt less)
  obtain ⟨blanks, length, blank, spells, -⟩ := fieldLine.spells
  have bound : column < blanks.length := length ▸ less
  have here := Source.char?_of_spells (Source.spells_append.1 spells).1 bound
  rw [← lead.pos] at here
  have ch : s.cursor.ch = blanks[column] :=
    lead.tracks.ch.trans (Source.charD_of_char? here _)
  have space : isSpaceOrTab s.cursor.ch = true := ch ▸ blank _ (List.getElem_mem bound)
  have inLead : InLead s.cursor := by
    simp only [isSpaceOrTab, Bool.or_eq_true, decide_eq_true_eq] at space
    refine ⟨at_column ▸ less, ?_, ?_⟩
    · rcases space with space | space <;> simp [space]
    · rcases space with space | space <;> simp [space]
  have more : s.cursor.pos < stop := Nat.lt_trans inside room
  obtain ⟨tracks, pos⟩ := tracks_advance_of_inLead words inLead fieldLine.table lead.tracks inside
    more
  refine ⟨by rw [pos, lead.pos, Nat.add_assoc], tracks, (leads_advance words .fixed s).sound lead.sound,
    ?_, fun _ => ?_⟩
  · rw [advance_of_inLead inLead]
    exact (carried_countByte _).trans ((carried_beginLine s).trans lead.carried)
  · rw [advance_of_inLead inLead]
    change s.beginLine.countByte.nonBlank = 0
    rw [countByte, ch_beginLine, if_pos space, beginLine]
    split
    · rfl
    · rename_i later
      apply lead.nonBlank
      apply Nat.pos_of_ne_zero
      intro zero
      apply later
      rw [lead.tracks.atLineStart, lead.pos, zero, Nat.add_zero]
      exact Source.startsLine_lineStart fieldLine.table fieldLine.bound

theorem OnLead.reaches {column left : Nat} (sum : column + left = markColumn) {s : Scan src 0 stop}
    (lead : OnLead line column carried s) (words : Dictionary) :
    ∃ t, Reaches words .fixed s t ∧ OnLead line markColumn carried t := by
  induction left generalizing column s with
  | zero =>
    obtain rfl : column = markColumn := sum
    exact ⟨s, .refl s, lead⟩
  | succ left ih =>
    have less : column < markColumn := by omega
    have more := Nat.lt_trans (lead.column_eq fieldLine (Nat.le_of_lt less)).2 room
    have moved : OnLead line (column + 1) carried (s.advance words .fixed) :=
      lead.advance fieldLine room less words
    obtain ⟨t, reaches, done⟩ := ih (by omega) moved
    exact ⟨t, .turn more reaches, done⟩

omit room in
theorem OnLead.step_eq {s : Scan src 0 stop} (lead : OnLead line markColumn carried s)
    (bang : mark ≠ '!') :
    s.step words .fixed = s.countByte.markStep ∧ s.cursor.ch = mark := by
  obtain ⟨column, inside⟩ := lead.column_eq fieldLine (Nat.le_refl _)
  obtain ⟨blanks, length, -, spells, -⟩ := fieldLine.spells
  have here := (Source.spells_append.1 spells).2.1
  rw [length, ← lead.pos] at here
  have ch : s.cursor.ch = mark := lead.tracks.ch.trans (Source.charD_of_char? here _)
  have begun : s.beginLine = s := by
    rw [beginLine, if_neg]
    intro starts
    have same := (Source.startsLine_iff fieldLine.table).1 (lead.tracks.atLineStart.1 starts)
    rw [lead.tracks.column_eq, Source.columnAt, same] at column
    unfold markColumn at column
    omega
  refine ⟨?_, ch⟩
  rw [step_of_markColumn column (ch ▸ bang), begun]

/-- A scan right after the first byte of a text, which is in the open segment. -/
structure PastFirst (line : Nat) (s : Scan src 0 stop) : Prop where
  pos : s.cursor.pos = src.fieldStart line + 1
  tracks : s.cursor.Tracks
  sound : s.cursor.Sound
  segment : s.cursor.segment = src.fieldStart line

/-- A mark that resumes nothing is followed by a byte that opens nothing. -/
theorem OnLead.pastFirst {s : Scan src 0 stop} (lead : OnLead line markColumn .plain s)
    (isMark : Source.isMark mark = true) (filled : text ≠ []) (words : Dictionary) :
    PastFirst line (s.advance words .fixed) ∧ (s.advance words .fixed).cursor.state = .plain ∧
      0 < (s.advance words .fixed).nonBlank := by
  simp only [Source.isMark, Bool.and_eq_true, Bool.not_eq_true', decide_eq_true_eq] at isMark
  obtain ⟨⟨visible, notZero⟩, bang⟩ := isMark
  obtain ⟨step, ch⟩ : s.step words .fixed = s.countByte.markStep ∧ s.cursor.ch = mark :=
    lead.step_eq fieldLine bang
  have inside := fieldLine.start_lt_size filled
  have pos : s.cursor.pos + 1 = src.fieldStart line := by rw [lead.pos, Nat.add_assoc]; rfl
  have resumed : s.step words .fixed = s.countByte.withCursor
      ((s.cursor.setState .continuation).forwardSetState .plain) := by
    rw [step]
    unfold markStep
    simp only [cursor_countByte, carried_countByte, lead.carried, ch, visible,
      Source.isLineEnd_of_not_isSpace visible, notZero, decide_false, Bool.or_self]
    rfl
  have moved : (s.cursor.setState .continuation).forward.pos = src.fieldStart line := by
    rw [Cursor.pos_forward, Cursor.pos_setState, if_pos (by omega), pos]
  have tracks : ((s.cursor.setState .continuation).forwardSetState .plain).Tracks :=
    ((lead.tracks.paint.relabel .continuation).forward fieldLine.table
      (show s.cursor.pos < src.size by omega) (show s.cursor.pos < stop by omega)).paint.relabel _
  have leads : Cursor.Leads s.cursor ((s.cursor.setState .continuation).forwardSetState .plain) :=
    ((Cursor.Leads.refl _).setState _).forwardSetState _
  have segment : ((s.cursor.setState .continuation).forwardSetState .plain).segment =
      src.fieldStart line := by
    have settled := Cursor.segment_paint
      (((Cursor.Leads.refl s.cursor).setState .continuation).forward.sound lead.sound)
    rw [moved, Nat.min_eq_left (Nat.le_of_lt inside)] at settled
    exact settled
  rw [Scan.advance, resumed]
  refine ⟨⟨?_, ?_, ?_, ?_⟩, ?_, ?_⟩
  · change ((s.cursor.setState .continuation).forwardSetState .plain).forward.pos = _
    rw [Cursor.pos_forward, Cursor.pos_forwardSetState, moved, if_pos (by omega)]
  · exact tracks.forward fieldLine.table (show _ < _ from moved.symm ▸ inside)
      (show _ < _ from moved.symm ▸ Nat.lt_trans inside room)
  · exact Cursor.sound_forward (leads.sound lead.sound)
  · exact (Cursor.segment_forward _).trans segment
  · exact Cursor.state_forward _
  · change 0 < s.countByte.nonBlank
    rw [countByte, ch, if_neg]
    · exact Nat.succ_pos _
    · rw [Source.isSpaceOrTab_of_not_isSpace visible]
      exact Bool.false_ne_true

/-- A blank in the column of the mark is followed by a byte that the rules for tokens see in plain
text. -/
theorem OnLead.openToken {s : Scan src 0 stop} (lead : OnLead line markColumn carried s)
    (blank : isSpaceOrTab mark = true) (filled : text ≠ [])
    (signFree : SignFree (text ++ ending)) (words : Dictionary) :
    ∃ t : Scan src 0 stop, (s.advance words .fixed).step words .fixed = t.openToken .fixed ∧
      (s.advance words .fixed).cursor.pos = src.fieldStart line ∧
      t.cursor.pos = src.fieldStart line ∧ t.cursor.Tracks ∧ t.cursor.Sound ∧
      t.cursor.segment = src.fieldStart line ∧ t.cursor.state = .plain ∧
      t.nonBlank = if isSpaceOrTab t.cursor.ch then 0 else 1 := by
  have spaces : mark ≠ '!' ∧ isLineEnd mark = false ∧ isSpace mark = true := by
    simp only [isSpaceOrTab, Bool.or_eq_true, decide_eq_true_eq] at blank
    rcases blank with rfl | rfl <;> decide
  obtain ⟨step, ch⟩ : s.step words .fixed = s.countByte.markStep ∧ s.cursor.ch = mark :=
    lead.step_eq fieldLine spaces.1
  have field := fieldLine.field filled
  have some : 0 < (text ++ ending).length := Source.length_pos_of_filled filled
  have inside := fieldLine.start_lt_size filled
  have pos : s.cursor.pos + 1 = src.fieldStart line := by rw [lead.pos, Nat.add_assoc]; rfl
  have counted : s.countByte.nonBlank = 0 := by
    rw [countByte, ch, if_pos blank]
    exact lead.nonBlank (by decide)
  obtain ⟨w, advanced, cursor, nonBlank⟩ : ∃ w : Scan src 0 stop, s.advance words .fixed = w ∧
      w.cursor = (s.cursor.setState .continuation).forward ∧ w.nonBlank = 0 := by
    refine ⟨_, rfl, ?_, ?_⟩
    all_goals
      rw [Scan.advance, step]
      unfold markStep
      simp only [cursor_countByte, ch, spaces.2.1, spaces.2.2, Bool.true_or, if_true]
    · rfl
    · exact counted
  rw [advanced]
  have at_start : w.cursor.pos = src.fieldStart line := by
    rw [cursor, Cursor.pos_forward, Cursor.pos_setState, if_pos (by omega), pos]
  have tracks : w.cursor.Tracks := by
    rw [cursor]
    exact (lead.tracks.paint.relabel .continuation).forward fieldLine.table
      (show s.cursor.pos < src.size by omega) (show s.cursor.pos < stop by omega)
  have sound : w.cursor.Sound := by
    rw [cursor]
    exact ((Cursor.Leads.refl s.cursor).setState .continuation).forward.sound lead.sound
  have state : w.cursor.state = .continuation := by
    rw [cursor]
    exact Cursor.state_forward _
  have first : w.cursor.ch = (text ++ ending)[0] := by
    rw [tracks.ch, at_start]
    exact Source.charD_of_char? (field.char? some) _
  have sign : w.countByte.numberSignStep = w.countByte := by
    rw [numberSignStep, cursor_countByte, if_neg]
    rintro ⟨isSign, -⟩
    obtain ⟨_, less, -⟩ := signFree 0 some (first ▸ isSign)
    exact absurd less (Nat.not_lt_zero _)
  have closed : w.countByte.closeToken words .fixed =
      w.countByte.withCursor (w.cursor.setState .plain) := by
    simp only [closeToken, cursor_countByte, state]
  have opens : w.step words .fixed =
      (w.countByte.withCursor (w.cursor.setState .plain)).openToken .fixed := by
    rw [step_of_field field (.inl some) tracks at_start (by decide), tokenStep, sign, closed]
    exact if_pos rfl
  refine ⟨_, opens, at_start, at_start, tracks.paint.relabel .plain,
    Cursor.sound_relabel (Cursor.sound_paint sound) .plain, ?_, rfl, ?_⟩
  · have settled := Cursor.segment_paint sound
    rw [at_start, Nat.min_eq_left (Nat.le_of_lt inside)] at settled
    exact settled
  · change w.countByte.nonBlank = if isSpaceOrTab w.cursor.ch then 0 else 1
    rw [countByte]
    split
    · exact nonBlank
    · exact congrArg (· + 1) nonBlank

end Lead

end Scan

end FortranMarkup
