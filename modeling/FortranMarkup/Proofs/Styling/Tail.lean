import FortranMarkup.Proofs.Styling.Moves
import FortranMarkup.Proofs.Styling.StatementStart

/-!
# Columns after the statement

In fixed form the columns from 72 on are a comment, whatever the statement leaves open before them.
The pass misses this only where it does not come to column 72 as the first byte of a turn: a byte in
column 71 that ends a token takes the next one along, and so does the letter of a literal with a
radix (`Source.TakesNext`). Then column 72 has the style that the statement gives to it, and column
73 with it if both spell the beginning of such a literal; all later columns are a comment
(`Document.styleAt_tail`).
-/

namespace FortranMarkup

/-- By its style and its character, the byte at a position ends a literal or an operator between
dots, or begins a literal with a radix. A pass takes the byte after it along. -/
def Source.TakesNext (src : Source) (styleAt : Nat → Style) (pos : Nat) : Prop :=
  (styleAt pos = .apostropheLiteral ∧ src.charD pos '\x00' = '\'') ∨
    (styleAt pos = .quoteLiteral ∧ src.charD pos '\x00' = '"') ∨
    (styleAt pos = .dottedOperator ∧ src.charD pos '\x00' = '.') ∨
    (styleAt pos = .number ∧ src.BeginsRadix pos)

theorem Cursor.EndsToken.takesNext {src : Source} {start stop : Nat} {c : Cursor src start stop}
    (ends : c.EndsToken) (tracks : c.Tracks) {styleAt : Nat → Style}
    (style : styleAt c.pos = c.state) : src.TakesNext styleAt c.pos := by
  rw [EndsToken, tracks.ch, ← style] at ends
  rcases ends with ends | ends | ends
  · exact .inl ends
  · exact .inr (.inl ends)
  · exact .inr (.inr (.inl ends))

namespace Scan

variable {src : Source} {words : Dictionary} {pos : Nat}

section Steps

variable {start stop : Nat} {s : Scan src start stop}

theorem shade_beginLine (sound : s.cursor.Sound) : s.beginLine.cursor.shade = s.cursor.shade := by
  unfold beginLine
  split
  · exact Cursor.shade_setState sound .plain
  · rfl

end Steps

variable {s : Scan src 0 (src.walkEnd src.size)}

/-- The first turn after the statement paints what the statement has left open. -/
theorem Reaches.freshStyle_of_tail (reaches : Reaches words .fixed (whole src) s)
    (tail : tailColumn ≤ s.cursor.column) (more : s.cursor.pos < src.walkEnd src.size)
    (high : pos < min s.cursor.pos src.size) :
    src.freshStyle words .fixed .plain pos = s.cursor.shade pos := by
  have sound := reaches.leads.sound (sound_whole src)
  have begun := sound_beginLine sound
  have painted : s.beginLine.cursor.paint.painted <:+ (s.advance words .fixed).cursor.painted := by
    have step := (fixedMoves_fixedStep s.beginLine.countByte (.inr tail)).painted_suffix
    rw [cursor_countByte, ← step_of_edge words (.inr tail)] at step
    exact (Cursor.painted_forward _).symm ▸ step
  have segment := Cursor.segment_paint begun
  rw [pos_beginLine] at segment
  have settled : (s.beginLine.cursor.setState .comment).Sound :=
    Cursor.sound_relabel (Cursor.sound_paint begun) .comment
  rw [(reaches.trans (.turn more (.refl _))).freshStyle_eq settled painted (segment ▸ high),
    Cursor.shade_setState begun, shade_beginLine sound]

section Moved

variable {c d : Cursor src 0 (src.walkEnd src.size)}
  (reaches : Reaches words .fixed (whole src) s) (sound : c.Sound) (inside : c.pos < src.size)
include reaches sound inside

theorem Reaches.style_of_close (leads : Cursor.Leads (c.forwardSetState .plain) s.cursor) :
    src.freshStyle words .fixed .plain c.pos = c.state := by
  have room := src.size_lt_walkEnd
  have segment_le := sound.segment_le_pos
  have moved := Cursor.pos_forward_of_lt (Nat.lt_trans inside room)
  have sound' := Cursor.sound_forward sound
  have opened : (c.forwardSetState .plain).Sound :=
    Cursor.sound_relabel (Cursor.sound_paint sound') .plain
  have segment : (c.forwardSetState .plain).segment = min c.forward.pos src.size :=
    Cursor.segment_paint sound'
  rw [reaches.freshStyle_eq opened leads.painted_suffix (by omega), Cursor.forwardSetState,
    Cursor.shade_setState sound',
    Cursor.shade_of_segment_le sound' (by rwa [Cursor.segment_forward]) (by omega),
    Cursor.state_forward]

omit inside in
theorem Reaches.style_of_twice (table : src.Tabled) (tracks : c.Tracks) (ends : c.EndsToken)
    (again : c.next = c.ch) (cursor : s.cursor = c.forward.forward) (second : c.pos + 1 < src.size)
    (tail : tailColumn ≤ src.columnAt (c.pos + 1)) :
    src.freshStyle words .fixed .plain c.pos = c.state := by
  have room := src.size_lt_walkEnd
  have segment_le := sound.segment_le_pos
  have next : c.forward.pos = c.pos + 1 := Cursor.pos_forward_of_lt (by omega)
  have moved : c.forward.forward.pos = c.forward.pos + 1 := Cursor.pos_forward_of_lt (by omega)
  rw [next, ← cursor] at moved
  have tracks' := reaches.leads.tracks table room (tracks_whole table) (by omega)
  have inLine : isLineEnd (src.charD (c.pos + 1) '\x00') = false := by
    rw [← tracks.next, again]
    exact Source.isLineEnd_of_not_isSpace ends.visible.1
  -- The second quote ends no line, so the next turn is one in the columns after the statement.
  have column : s.cursor.column = src.columnAt (c.pos + 1) + 1 := by
    rw [tracks'.column_eq, moved]
    exact (Source.columnAt_succ table inLine).2
  have leads : Cursor.Leads c s.cursor := cursor ▸ (Cursor.Leads.refl c).forward.forward
  have segment : s.cursor.segment = c.segment := by
    rw [cursor, Cursor.segment_forward, Cursor.segment_forward]
  rw [reaches.freshStyle_of_tail (by omega) (by omega) (by omega),
    Cursor.shade_of_segment_le (leads.sound sound) (by omega) (by omega), cursor,
    Cursor.state_forward, Cursor.state_forward]

/-- What the rules for tokens take along over the last column of the statement. -/
theorem Reaches.tail_of_moves (table : src.Tabled) (tracks : c.Tracks) (moves : c.Moves d)
    (cursor : s.cursor = d.forward) (before : src.columnAt c.pos < tailColumn)
    (inside' : pos < src.size) (low : c.pos ≤ pos) (last : pos ≤ d.pos)
    (tail : tailColumn ≤ src.columnAt pos) :
    let styleAt := src.freshStyle words .fixed .plain
    (src.columnAt pos = tailColumn ∧ src.TakesNext styleAt (pos - 1)) ∨
      (src.columnAt pos = tailColumn + 1 ∧ styleAt pos = .number ∧ styleAt (pos - 1) = .number ∧
        src.TakesNext styleAt (pos - 2)) := by
  have room := src.size_lt_walkEnd
  have more : c.pos < src.walkEnd src.size := Nat.lt_trans inside room
  have next := Cursor.pos_forward_of_lt more
  have near_one : src.columnAt (c.pos + 1) ≤ src.columnAt c.pos + 1 :=
    Source.columnAt_add_le table c.pos 1
  have near_two : src.columnAt (c.pos + 2) ≤ src.columnAt c.pos + 2 :=
    Source.columnAt_add_le table c.pos 2
  have later : c.pos < pos := by
    refine Nat.lt_of_le_of_ne low ?_
    rintro rfl
    omega
  dsimp only
  cases moves with
  | stay leads same => omega
  | @radix e leads same begins =>
    have moved := Cursor.pos_forward_le (e.setState .number)
    rw [Cursor.pos_setState, same] at moved
    obtain rfl : pos = c.pos + 1 := by omega
    have letter : src.freshStyle words .fixed .plain c.pos = .number :=
      reaches.style_of_opens (leads.sound sound) (Cursor.Opens.here _ .number).forward rfl
        (cursor ▸ (Cursor.Leads.refl _).forward) (Nat.le_of_eq same) (by omega)
    exact .inl ⟨by omega, .inr (.inr (.inr ⟨letter, begins⟩))⟩
  | twice ends again =>
    obtain rfl : pos = c.pos + 1 := by omega
    have style := reaches.style_of_twice sound table tracks ends again cursor inside' tail
    exact .inl ⟨by omega, ends.takesNext tracks style⟩
  | close ends leads same =>
    obtain rfl : pos = c.pos + 1 := by omega
    have style := reaches.style_of_close sound inside (cursor ▸ leads.forward)
    exact .inl ⟨by omega, ends.takesNext tracks style⟩
  | closeRadix ends begins =>
    have at_letter : (c.forwardSetState .plain).pos = c.pos + 1 := next
    have moved := Cursor.pos_forward_of_lt (c := (c.forwardSetState .plain).setState .number)
      (by rw [Cursor.pos_setState, at_letter]; omega)
    rw [Cursor.pos_setState, at_letter] at moved
    have opened := ((Cursor.Leads.refl c).forwardSetState .plain).sound sound
    have style := reaches.style_of_close sound inside
      (cursor ▸ ((Cursor.Leads.refl _).setState .number).forward.forward)
    have number := (Cursor.Opens.here (c.forwardSetState .plain) .number).forward
    have letter : src.freshStyle words .fixed .plain (c.pos + 1) = .number :=
      reaches.style_of_opens opened number rfl (cursor ▸ (Cursor.Leads.refl _).forward) (by omega)
        (by omega)
    rw [next] at begins
    by_cases first : pos = c.pos + 1
    · subst first
      exact .inl ⟨by omega, ends.takesNext tracks style⟩
    · obtain rfl : pos = c.pos + 2 := by omega
      by_cases cut : src.columnAt (c.pos + 2) = tailColumn
      · exact .inl ⟨cut, .inr (.inr (.inr ⟨letter, begins⟩))⟩
      · have moved' := Cursor.pos_forward_of_lt
          (c := ((c.forwardSetState .plain).setState .number).forward) (by omega)
        have quote : src.freshStyle words .fixed .plain (c.pos + 2) = .number :=
          reaches.style_of_opens opened number.forward rfl (cursor ▸ Cursor.Leads.refl _) (by omega)
            (by omega)
        exact .inr ⟨by omega, quote, letter, ends.takesNext tracks style⟩

end Moved

section Covered

variable (table : src.Tabled) (reaches : Reaches words .fixed (whole src) s)
  (inside : pos < src.size) (low : s.cursor.pos ≤ pos)
  (high : pos < (s.advance words .fixed).cursor.pos)
include table reaches inside low high

/-- The part of a comment that is in the columns after the statement. -/
theorem Reaches.tail_of_edge (edge : s.cursor.column ≤ markColumn ∨ tailColumn ≤ s.cursor.column)
    (tail : tailColumn ≤ src.columnAt pos) :
    src.freshStyle words .fixed .plain pos = .comment ∨
      src.freshStyle words .fixed .plain pos = .preprocessor := by
  have room := src.size_lt_walkEnd
  have tracks := reaches.leads.tracks table room (tracks_whole table) (by omega)
  have reaches' := reaches.trans (.turn (Nat.lt_of_le_of_lt low (by omega)) (.refl _))
  have begun_sound := sound_beginLine (reaches.leads.sound (sound_whole src))
  have pos_eq := pos_beginLine s
  have cursor : (s.advance words .fixed).cursor = (s.step words .fixed).cursor.forward := rfl
  have bound := Source.columnAt_add_le table s.cursor.pos (pos - s.cursor.pos)
  rw [Nat.add_sub_cancel' low, ← tracks.column_eq] at bound
  have moves := fixedMoves_fixedStep s.beginLine.countByte edge
  rw [cursor_countByte, ← step_of_edge words edge] at moves
  have comment {style : Style} (firm : style.isLoose = false)
      (moved : (s.step words .fixed).cursor = (s.beginLine.cursor.setState style).toLineEnd) :
      src.freshStyle words .fixed .plain pos = style := by
    rw [moved] at cursor
    exact reaches'.style_of_opens begun_sound (Cursor.Opens.here _ style).toLineEnd.forward firm
      (cursor ▸ .refl _) (pos_eq ▸ low) (Nat.lt_min.2 ⟨cursor ▸ high, inside⟩)
  have last : pos ≤ (s.step words .fixed).cursor.pos := le_step_of_lt_advance high
  have small : markColumn + 1 < tailColumn := by decide
  generalize (s.step words .fixed).cursor = d at *
  cases moves with
  | @comment style _ shown =>
    rcases shown with rfl | rfl
    · exact .inl (comment rfl rfl)
    · exact .inr (comment rfl rfl)
  | tail => exact .inl (comment rfl rfl)
  | stay before =>
    rw [Cursor.pos_setState] at last
    omega
  | mark before =>
    have moved := Cursor.pos_forward_le (s.beginLine.cursor.setState .continuation)
    rw [Cursor.pos_setState] at moved
    rw [Cursor.pos_forwardSetState] at last
    omega

/-- A turn in the columns of the statement goes past them with what one of its last bytes takes
along, or with a line for the preprocessor. -/
theorem Reaches.tail_of_statement
    (statement : ¬(s.cursor.column ≤ markColumn ∨ tailColumn ≤ s.cursor.column))
    (tail : tailColumn ≤ src.columnAt pos) :
    let styleAt := src.freshStyle words .fixed .plain
    (∃ other, other < src.size ∧ src.lineAt other = src.lineAt pos ∧
        styleAt other = .preprocessor) ∨
      (src.columnAt pos = tailColumn ∧ src.TakesNext styleAt (pos - 1)) ∨
      (src.columnAt pos = tailColumn + 1 ∧ styleAt pos = .number ∧ styleAt (pos - 1) = .number ∧
        src.TakesNext styleAt (pos - 2)) := by
  have room := src.size_lt_walkEnd
  have last : pos ≤ (s.step words .fixed).cursor.pos := le_step_of_lt_advance high
  have tracks := reaches.leads.tracks table room (tracks_whole table) (by omega)
  have before : src.columnAt s.cursor.pos < tailColumn := by
    rw [← tracks.column_eq]
    exact Nat.lt_of_not_le (fun after => statement (.inr after))
  have later : s.cursor.pos < pos := by
    refine Nat.lt_of_le_of_ne low ?_
    rintro rfl
    omega
  have reaches' := reaches.trans (.turn (Nat.lt_trans later (by omega)) (.refl _))
  have cursor : (s.advance words .fixed).cursor = (s.step words .fixed).cursor.forward := rfl
  have begun_tracks := tracks_beginLine tracks
  have begun_sound := sound_beginLine (reaches.leads.sound (sound_whole src))
  have pos_eq := pos_beginLine s
  have cursor_eq := cursor_countByte s.beginLine
  rw [step_of_statement words statement] at last cursor
  generalize s.beginLine.countByte = b at *
  rw [← cursor_eq] at begun_tracks begun_sound pos_eq
  by_cases sign : b.cursor.ch = '#' ∧ b.nonBlank = 1
  · have line := lineAt_of_sign sign.1 sign.2 table begun_tracks (by omega) last
    have style := reaches'.style_of_sign cursor begun_sound sign.1 sign.2 (Nat.le_refl _) (by omega)
    exact .inl ⟨b.cursor.pos, by omega, line.symm, style⟩
  · have moves := moves_tokenStep table room begun_tracks sign words .fixed
    refine .inr (reaches'.tail_of_moves begun_sound (by omega) table begun_tracks moves cursor ?_
      inside (by omega) last tail)
    rwa [pos_eq]

end Covered

end Scan

theorem Source.freshStyle_tail {src : Source} (table : src.Tabled) (words : Dictionary) {pos : Nat}
    (inside : pos < src.size) (tail : tailColumn ≤ src.columnAt pos)
    (statement : ∀ other, other < src.size → src.lineAt other = src.lineAt pos →
      src.freshStyle words .fixed .plain other ≠ .preprocessor) :
    let styleAt := src.freshStyle words .fixed .plain
    styleAt pos = .comment ∨
      (src.columnAt pos = tailColumn ∧ src.TakesNext styleAt (pos - 1)) ∨
      (src.columnAt pos = tailColumn + 1 ∧ styleAt pos = .number ∧ styleAt (pos - 1) = .number ∧
        src.TakesNext styleAt (pos - 2)) := by
  have room := src.size_lt_walkEnd
  obtain ⟨s, reaches, low, high⟩ :=
    Scan.exists_turn (s := Scan.whole src) (Nat.zero_le pos) (Nat.lt_trans inside room) words .fixed
  by_cases edge : s.cursor.column ≤ markColumn ∨ tailColumn ≤ s.cursor.column
  · rcases reaches.tail_of_edge table inside low high edge tail with comment | directive
    · exact .inl comment
    · exact absurd directive (statement pos inside rfl)
  · rcases reaches.tail_of_statement table inside low high edge tail with
      ⟨other, here, line, directive⟩ | taken
    · exact absurd directive (statement other here line)
    · exact .inr taken

namespace Document

/-- On a line of fixed form that is not for the preprocessor, the columns from 72 on are a comment,
but for what a byte in column 71 takes along: column 72 behind one that ends a literal or an
operator between dots or that begins a literal with a radix, and column 73 where the one behind the
end of a token begins such a literal. -/
theorem styleAt_tail {doc : Document} (fits : doc.Fits) (words : Dictionary) (outside : Style)
    {pos : Nat} (inside : pos < doc.size) (tail : tailColumn ≤ doc.source.columnAt pos)
    (statement : ∀ other, other < doc.size → doc.source.lineAt other = doc.source.lineAt pos →
      (doc.styleRange words .fixed 0 doc.size outside).styleAt other ≠ .preprocessor) :
    let styled := doc.styleRange words .fixed 0 doc.size outside
    styled.styleAt pos = .comment ∨
      (doc.source.columnAt pos = tailColumn ∧ doc.source.TakesNext styled.styleAt (pos - 1)) ∨
      (doc.source.columnAt pos = tailColumn + 1 ∧ styled.styleAt pos = .number ∧
        styled.styleAt (pos - 1) = .number ∧ doc.source.TakesNext styled.styleAt (pos - 2)) := by
  have same : (doc.styleRange words .fixed 0 doc.size outside).styleAt =
      doc.source.freshStyle words .fixed .plain :=
    funext (styleAt_styleRange_fresh fits words .fixed outside)
  rw [same] at statement
  dsimp only
  rw [same]
  exact Source.freshStyle_tail fits.table words inside tail statement

/-- A literal that ends in column 71, with two letters behind it. -/
def literalToEdge : Document :=
  ofBytes (Array.replicate 6 32 ++ #[115, 61, 39] ++ Array.replicate 62 97 ++ #[39, 120, 121, 10])

theorem statement_literalToEdge (other : Nat) :
    (literalToEdge.styleRange .fortran .fixed 0 literalToEdge.size .plain).styleAt other ≠
      .preprocessor := by
  have none : (literalToEdge.styleRange .fortran .fixed 0 literalToEdge.size .plain).styles.all
      (· ≠ .preprocessor) = true := by
    decide +kernel
  rw [styleAt]
  generalize (literalToEdge.styleRange .fortran .fixed 0 literalToEdge.size .plain).styles = styles
    at none
  by_cases inside : other < styles.size
  · rw [Array.getElem?_eq_getElem inside]
    exact of_decide_eq_true (Array.all_eq_true.1 none other inside)
  · rw [Array.getElem?_eq_none (Nat.le_of_not_lt inside)]
    exact Style.noConfusion

theorem styleAt_tail_literalToEdge :
    let styled := literalToEdge.styleRange .fortran .fixed 0 literalToEdge.size .plain
    (73 < literalToEdge.size ∧ tailColumn ≤ literalToEdge.source.columnAt 73 ∧
      ∀ other, other < literalToEdge.size →
        literalToEdge.source.lineAt other = literalToEdge.source.lineAt 73 →
        styled.styleAt other ≠ .preprocessor) ∧
    styled.styleAt 73 = .comment := by
  have inside : 73 < literalToEdge.size := by decide
  have tail : tailColumn ≤ literalToEdge.source.columnAt 73 := by decide +kernel
  have statement := fun other (_ : other < literalToEdge.size)
    (_ : literalToEdge.source.lineAt other = literalToEdge.source.lineAt 73) =>
      statement_literalToEdge other
  have edge : literalToEdge.source.columnAt 73 ≠ tailColumn := by decide +kernel
  have other : (literalToEdge.styleRange .fortran .fixed 0 literalToEdge.size .plain).styleAt 73 ≠
      .number := by decide +kernel
  refine ⟨⟨inside, tail, statement⟩, ?_⟩
  rcases styleAt_tail (fits_ofBytes _) .fortran .plain inside tail statement with
    comment | ⟨here, -⟩ | ⟨-, number, -⟩
  · exact comment
  · exact absurd here edge
  · exact absurd number other

/-- On a line of fixed form that is not for the preprocessor, the columns from 72 on are a comment.
-/
def TailIsComment (words : Dictionary) : Prop :=
  ∀ (doc : Document) (pos : Nat), doc.Fits → pos < doc.size →
    tailColumn ≤ doc.source.columnAt pos →
    (∀ other, other < doc.size → doc.source.lineAt other = doc.source.lineAt pos →
      (doc.styleRange words .fixed 0 doc.size .plain).styleAt other ≠ .preprocessor) →
    (doc.styleRange words .fixed 0 doc.size .plain).styleAt pos = .comment

/-- A letter behind a literal that ends in column 71 is an identifier. -/
theorem not_tailIsComment_literalToEdge : ¬TailIsComment .fortran := by
  intro isComment
  have comment := isComment literalToEdge 72 (fits_ofBytes _) (by decide) (by decide +kernel)
    (fun other _ _ => statement_literalToEdge other)
  revert comment
  decide +kernel

end Document

end FortranMarkup
