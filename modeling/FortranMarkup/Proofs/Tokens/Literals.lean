import FortranMarkup.Proofs.Styling.Consistency
import FortranMarkup.Proofs.Tokens.Styles

/-!
# Literals over several lines

A literal of free form is delimited exactly, also where it is continued line by line: its bytes have
the style of literals, the marks that break it that of continuations, and what is between two marks
is plain (`Document.stylesIn_of_literal`). Quotes in it are written twice and take one step of the
scan; a mark takes one step up to the first byte of the next piece, which is handled in that step
(`Scan.InLiteral.resumed`). So what is kept from one byte to the next is kept at two places: before
a step (`Scan.InLiteral`) and within it, where its tokens are closed (`Scan.Handling`).
-/

namespace FortranMarkup

/-- A piece of a literal that continues it on the next line. -/
structure ContinuedPiece where
  /-- What stands between the mark and its line end. -/
  trailing : List Char
  /-- What stands in front of the mark with which the next line begins. -/
  leading : List Char
  content : List Char

/-- An assignment of a literal to a variable, with the pieces of the literal. -/
structure LiteralLine where
  quote : Char
  first : List Char
  later : List ContinuedPiece

/-- The style of literals with a quote. -/
def literalStyle (quote : Char) : Style :=
  if quote = '"' then .quoteLiteral else .apostropheLiteral

/-- The characters with which a literal spells a character. -/
def spelledInLiteral (quote c : Char) : List Char :=
  if c = quote then [c, c] else [c]

namespace ContinuedPiece

/-- The characters of a piece, from the mark on the line before to the end of the content. -/
def chars (quote : Char) (piece : ContinuedPiece) : List Char :=
  '&' :: (piece.trailing ++ '\n' :: piece.leading) ++
    '&' :: piece.content.flatMap (spelledInLiteral quote)

def styles (quote : Char) (piece : ContinuedPiece) : List Style :=
  .continuation :: .replicate (piece.trailing ++ '\n' :: piece.leading).length .plain ++
    .continuation ::
      .replicate (piece.content.flatMap (spelledInLiteral quote)).length (literalStyle quote)

end ContinuedPiece

theorem exists_spelledInLiteral (quote c : Char) :
    ∃ rest, spelledInLiteral quote c = c :: rest := by
  unfold spelledInLiteral
  split
  · exact ⟨[c], rfl⟩
  · exact ⟨[], rfl⟩

/-- Characters that neither break a literal nor end its line. -/
def IsContent (content : List Char) : Prop :=
  ∀ c ∈ content, c ≠ '&' ∧ isLineEnd c = false

instance (content : List Char) : Decidable (IsContent content) :=
  List.decidableBAll _ content

/-- A piece that a mark within reach leads on to. -/
structure ContinuedPiece.Proper (piece : ContinuedPiece) : Prop where
  trailing : ∀ c ∈ piece.trailing, isBlank c = true
  near : piece.trailing.length ≤ 130
  leading : ∀ c ∈ piece.leading, isBlank c = true
  content : IsContent piece.content
  notSign : piece.content.head? ≠ some '#'

namespace LiteralLine

/-- The characters of the pieces after the first one, up to the line end after the literal. -/
def laterChars (quote : Char) (later : List ContinuedPiece) : List Char :=
  later.flatMap (ContinuedPiece.chars quote) ++ [quote, '\n']

def laterStyles (quote : Char) (later : List ContinuedPiece) : List Style :=
  later.flatMap (ContinuedPiece.styles quote) ++ [literalStyle quote, .plain]

/-- The characters of the assignment with its line end. -/
def chars (line : LiteralLine) : List Char :=
  ['s', ' ', '=', ' ', line.quote] ++ line.first.flatMap (spelledInLiteral line.quote) ++
    laterChars line.quote line.later

/-- The style of each of its bytes. -/
def styles (words : Dictionary) (line : LiteralLine) : List Style :=
  [(Token.word ['s']).style words, .plain, .operator, .plain, literalStyle line.quote] ++
    .replicate (line.first.flatMap (spelledInLiteral line.quote)).length (literalStyle line.quote) ++
    laterStyles line.quote line.later

/-- A literal of which only the first and the last piece may be empty. -/
structure Proper (line : LiteralLine) : Prop where
  quote : line.quote = '\'' ∨ line.quote = '"'
  first : IsContent line.first
  later : ∀ piece ∈ line.later, piece.Proper
  filled : ∀ piece ∈ line.later.dropLast, piece.content ≠ []

theorem length_laterStyles (quote : Char) (later : List ContinuedPiece) :
    (laterStyles quote later).length = (laterChars quote later).length := by
  induction later with
  | nil => rfl
  | cons piece rest ih =>
    have piece_length : (piece.styles quote).length = (piece.chars quote).length := by
      simp [ContinuedPiece.styles, ContinuedPiece.chars]
      omega
    simp only [laterStyles, laterChars, List.flatMap_cons, List.length_append] at ih ⊢
    omega

theorem length_styles (words : Dictionary) (line : LiteralLine) :
    (line.styles words).length = line.chars.length := by
  simp [styles, chars, length_laterStyles]

end LiteralLine

/-! ## Cursors with the styles before them -/

namespace Cursor

variable {src : Source} {stop : Nat} {styles : List Style} {c : Cursor src 0 stop}

/-- A cursor before which these are the styles once the open segment is painted. -/
structure Done (styles : List Style) (c : Cursor src 0 stop) : Prop where
  sound : c.Sound
  tracks : c.Tracks
  styles : c.paint.styles = styles

theorem Done.setState (done : c.Done styles) (state : Style) : (c.setState state).Done styles := by
  refine ⟨sound_relabel (sound_paint done.sound) state, done.tracks.paint.relabel state, ?_⟩
  rw [paint_of_segment (Nat.le_of_eq (segment_paint done.sound).symm)]
  exact done.styles

section Inside

variable (table : src.Tabled) (room : src.size < stop)
include table room

theorem Done.forward (done : c.Done styles) (inside : c.pos < src.size) :
    c.forward.Done (styles ++ [c.state]) ∧ c.forward.pos = c.pos + 1 := by
  have more : c.pos < stop := by omega
  refine ⟨⟨sound_forward done.sound, done.tracks.forward table inside more, ?_⟩, ?_⟩
  · rw [Scan.styles_paint_forward done.sound inside more, done.styles]
  · rw [pos_forward, if_pos more]

end Inside

theorem Done.ch_eq (done : c.Done styles) {d : Char} (here : src.char? c.pos = some d) : c.ch = d :=
  done.tracks.ch.trans (Source.charD_of_char? here _)

theorem Done.next_eq (done : c.Done styles) {d : Char} (here : src.char? (c.pos + 1) = some d) :
    c.next = d :=
  done.tracks.next.trans (Source.charD_of_char? here _)

end Cursor

/-! ## Bytes of a literal -/

namespace Scan

variable {src : Source} {stop : Nat} {words : Dictionary} {styles : List Style} {quote c : Char}
  {s : Scan src 0 stop}

/-- A scan in a literal, before the step that handles its next byte. -/
structure InLiteral (quote : Char) (styles : List Style) (s : Scan src 0 stop) : Prop where
  done : s.cursor.Done styles
  state : s.cursor.state = literalStyle quote
  begun : s.beginLine = s
  counted : 0 < s.nonBlank

/-- A scan in a literal, within a step where the rules for tokens come to its byte. -/
structure Handling (quote : Char) (styles : List Style) (s : Scan src 0 stop) : Prop where
  done : s.cursor.Done styles
  state : s.cursor.state = literalStyle quote
  counted : 0 < s.nonBlank
  notSign : s.cursor.ch = '#' → s.nonBlank ≠ 1

/-- The rest of a turn of the loop, once the rules for tokens come to the byte. -/
def finish (words : Dictionary) (s : Scan src 0 stop) : Scan src 0 stop :=
  (s.tokenStep words .free).withCursor (s.tokenStep words .free).cursor.forward

theorem InLiteral.handling (inLiteral : InLiteral quote styles s) :
    Handling quote styles s.countByte := by
  refine ⟨?_, ?_, ?_, ?_⟩
  · rw [cursor_countByte]
    exact inLiteral.done
  · rw [cursor_countByte, inLiteral.state]
  · exact Nat.lt_of_lt_of_le inLiteral.counted (nonBlank_le_countByte s)
  · intro sign
    rw [cursor_countByte] at sign
    have counted := inLiteral.counted
    rw [countByte, sign, if_neg (by decide)]
    change s.nonBlank + 1 ≠ 1
    omega

/-- A byte that is no mark is left to the rules for tokens. -/
theorem InLiteral.advance_eq (words : Dictionary) (inLiteral : InLiteral quote styles s)
    (notMark : s.cursor.ch ≠ '&') : s.advance words .free = s.countByte.finish words := by
  have step : s.step words .free = s.countByte.tokenStep words .free := by
    unfold step
    rw [inLiteral.begun]
    dsimp only
    rw [cursor_countByte, if_neg (fun both => notMark both.1)]
  rw [advance, step, finish]

theorem literalStyle_ne_plain (quote : Char) : literalStyle quote ≠ .plain := by
  unfold literalStyle
  split
  · decide
  · decide

theorem isLineEnd_of_isQuote (isQuote : quote = '\'' ∨ quote = '"') : isLineEnd quote = false := by
  rcases isQuote with rfl | rfl <;> rfl

section Inside

variable (words) (table : src.Tabled) (room : src.size < stop)
  (isQuote : quote = '\'' ∨ quote = '"')
include table isQuote

theorem Handling.tokenStep_eq (handling : Handling quote styles s)
    (here : src.char? s.cursor.pos = some c) (inLine : isLineEnd c = false) :
    s.tokenStep words .free =
      if (s.literalStep quote).cursor.state = .plain then (s.literalStep quote).openToken .free
      else s.literalStep quote := by
  have sign : s.numberSignStep = s := by
    rw [numberSignStep, if_neg (fun both => handling.notSign both.1 both.2)]
  have notEnd : s.cursor.atLineEnd = false := by
    rw [handling.done.tracks.atLineEnd_eq table (Source.lt_size_of_char? here)]
    exact Bool.eq_false_iff.2 (Source.not_endsLineAt_of_char? here inLine)
  have closes : s.closeToken words .free = s.literalStep quote := by
    rw [closeToken, handling.state]
    rcases isQuote with rfl | rfl
    · exact if_neg (by simp [notEnd])
    · exact if_neg (by simp [notEnd])
  rw [tokenStep, sign, closes]

include room

/-- A byte that is no quote stays in the literal. -/
theorem Handling.byte (handling : Handling quote styles s)
    (here : src.char? s.cursor.pos = some c) (inLine : isLineEnd c = false) (other : c ≠ quote) :
    InLiteral quote (styles ++ [literalStyle quote]) (s.finish words) ∧
      (s.finish words).cursor.pos = s.cursor.pos + 1 := by
  have stays : s.literalStep quote = { s with carried := s.cursor.state } := by
    rw [literalStep, if_neg (by rw [handling.done.ch_eq here]; exact other)]
  have step : s.tokenStep words .free = { s with carried := s.cursor.state } := by
    rw [handling.tokenStep_eq words table isQuote here inLine, stays]
    exact if_neg (by rw [handling.state]; exact literalStyle_ne_plain quote)
  have finished : s.finish words =
      { s with cursor := s.cursor.forward, carried := s.cursor.state } := by rw [finish, step]; rfl
  obtain ⟨moved, pos⟩ := handling.done.forward table room (Source.lt_size_of_char? here)
  rw [handling.state] at moved
  rw [finished]
  refine ⟨⟨moved, ?_, beginLine_of_inLine moved.tracks ?_, handling.counted⟩, pos⟩
  · rw [Cursor.state_forward, handling.state]
  · rw [pos, Source.startsLine_succ]
    exact Source.not_endsLineAt_of_char? here inLine

/-- A quote that is written twice stays in the literal, with the second one. -/
theorem Handling.twice (handling : Handling quote styles s)
    (spells : src.Spells s.cursor.pos [quote, quote]) :
    InLiteral quote (styles ++ [literalStyle quote, literalStyle quote]) (s.finish words) ∧
      (s.finish words).cursor.pos = s.cursor.pos + 2 := by
  obtain ⟨here, second, -⟩ := spells
  have inLine := isLineEnd_of_isQuote isQuote
  have skips : s.literalStep quote =
      { s with cursor := s.cursor.forward, carried := s.cursor.state } := by
    rw [literalStep, if_pos (handling.done.ch_eq here), if_pos (handling.done.next_eq second)]
  obtain ⟨moved, pos⟩ := handling.done.forward table room (Source.lt_size_of_char? here)
  rw [← pos] at second
  obtain ⟨moved', pos'⟩ := moved.forward table room (Source.lt_size_of_char? second)
  have state : s.cursor.forward.state = literalStyle quote := by
    rw [Cursor.state_forward, handling.state]
  have step : s.tokenStep words .free =
      { s with cursor := s.cursor.forward, carried := s.cursor.state } := by
    rw [handling.tokenStep_eq words table isQuote here inLine, skips]
    exact if_neg (by rw [state]; exact literalStyle_ne_plain quote)
  have finished : s.finish words =
      { s with cursor := s.cursor.forward.forward, carried := s.cursor.state } := by
    rw [finish, step]
    rfl
  rw [handling.state, state, List.append_assoc] at moved'
  rw [finished]
  refine ⟨⟨moved', ?_, beginLine_of_inLine moved'.tracks ?_, handling.counted⟩, ?_⟩
  · rw [Cursor.state_forward, state]
  · rw [pos', Source.startsLine_succ]
    exact Source.not_endsLineAt_of_char? second inLine
  · rw [pos', pos]

/-- A quote at the end of a line closes the literal, and the line end is plain. -/
theorem Handling.closes (handling : Handling quote styles s)
    (spells : src.Spells s.cursor.pos [quote, '\n']) :
    (s.finish words).cursor.Done (styles ++ [literalStyle quote, .plain]) ∧
      (s.finish words).cursor.atLineStart = true := by
  obtain ⟨here, second, -⟩ := spells
  have inLine := isLineEnd_of_isQuote isQuote
  have other : '\n' ≠ quote := by
    rcases isQuote with rfl | rfl <;> decide
  have closed : s.literalStep quote =
      { s with cursor := s.cursor.forwardSetState .plain, carried := .plain } := by
    rw [literalStep, if_pos (handling.done.ch_eq here),
      if_neg (by rw [handling.done.next_eq second]; exact other)]
  obtain ⟨moved, pos⟩ := handling.done.forward table room (Source.lt_size_of_char? here)
  rw [← pos] at second
  have opened := moved.setState .plain
  obtain ⟨moved', pos'⟩ := opened.forward table room (Source.lt_size_of_char? second)
  have stays : (s.literalStep quote).openToken .free = s.literalStep quote := by
    rw [closed]
    exact openToken_of_space (.inr (opened.ch_eq second))
  have step : s.tokenStep words .free =
      { s with cursor := s.cursor.forwardSetState .plain, carried := .plain } := by
    rw [handling.tokenStep_eq words table isQuote here inLine, stays, closed]
    exact if_pos rfl
  have finished : (s.finish words).cursor = (s.cursor.forward.setState .plain).forward := by
    rw [finish, step]
    rfl
  rw [handling.state, List.append_assoc] at moved'
  rw [finished]
  refine ⟨moved', moved'.tracks.atLineStart.2 ?_⟩
  rw [pos', Source.startsLine_succ]
  exact Source.endsLineAt_newline second

/-- A character that is spelled in a literal stays in it. -/
theorem Handling.spelled (handling : Handling quote styles s) (isContent : isLineEnd c = false)
    (spells : src.Spells s.cursor.pos (spelledInLiteral quote c)) :
    InLiteral quote (styles ++ .replicate (spelledInLiteral quote c).length (literalStyle quote))
        (s.finish words) ∧
      (s.finish words).cursor.pos = s.cursor.pos + (spelledInLiteral quote c).length := by
  unfold spelledInLiteral at spells ⊢
  by_cases same : c = quote
  · subst same
    rw [if_pos rfl] at spells ⊢
    exact handling.twice words table room isQuote spells
  · rw [if_neg same] at spells ⊢
    exact handling.byte words table room isQuote spells.1 isContent same

/-- Content stays in the literal. -/
theorem InLiteral.content {content : List Char} (inLiteral : InLiteral quote styles s)
    (isContent : IsContent content)
    (spells : src.Spells s.cursor.pos (content.flatMap (spelledInLiteral quote))) :
    ∃ t : Scan src 0 stop, s.run words .free = t.run words .free ∧
      InLiteral quote (styles ++ .replicate (content.flatMap (spelledInLiteral quote)).length
        (literalStyle quote)) t ∧
      t.cursor.pos = s.cursor.pos + (content.flatMap (spelledInLiteral quote)).length := by
  induction content generalizing styles s with
  | nil =>
    refine ⟨s, rfl, ?_, rfl⟩
    rw [List.flatMap_nil, List.length_nil, List.replicate_zero, List.append_nil]
    exact inLiteral
  | cons c rest ih =>
    rw [List.flatMap_cons, Source.spells_append] at spells
    obtain ⟨spelled, further⟩ := spells
    obtain ⟨notMark, inLine⟩ := isContent c List.mem_cons_self
    have here : src.char? s.cursor.pos = some c := by
      obtain ⟨more, same⟩ := exists_spelledInLiteral quote c
      rw [same] at spelled
      exact spelled.1
    have more : s.cursor.pos < stop := Nat.lt_trans (Source.lt_size_of_char? here) room
    have advanced := inLiteral.advance_eq words
      (by rw [inLiteral.done.ch_eq here]; exact notMark)
    obtain ⟨stays, pos⟩ := inLiteral.handling.spelled words table room isQuote inLine
      ((pos_countByte s).symm ▸ spelled)
    rw [pos_countByte] at pos
    obtain ⟨t, run, inside, pos'⟩ :=
      ih stays (fun d mem => isContent d (List.mem_cons_of_mem _ mem))
      (pos.symm ▸ further)
    refine ⟨t, (run_of_lt more).trans (advanced ▸ run), ?_, ?_⟩
    · rwa [List.append_assoc, List.replicate_append_replicate, ← List.length_append,
        ← List.flatMap_cons] at inside
    · rw [pos', pos, List.flatMap_cons, List.length_append, Nat.add_assoc]

/-- Content that the rules for tokens have come to stays in the literal. -/
theorem Handling.content {content : List Char} (handling : Handling quote styles s)
    (isContent : IsContent (c :: content))
    (spells : src.Spells s.cursor.pos ((c :: content).flatMap (spelledInLiteral quote))) :
    ∃ t : Scan src 0 stop, (s.finish words).run words .free = t.run words .free ∧
      InLiteral quote (styles ++ .replicate ((c :: content).flatMap (spelledInLiteral quote)).length
        (literalStyle quote)) t ∧
      t.cursor.pos = s.cursor.pos + ((c :: content).flatMap (spelledInLiteral quote)).length := by
  rw [List.flatMap_cons, Source.spells_append] at spells
  obtain ⟨stays, pos⟩ := handling.spelled words table room isQuote
    (isContent c List.mem_cons_self).2 spells.1
  obtain ⟨t, run, inside, pos'⟩ := stays.content words table room isQuote
    (fun d mem => isContent d (List.mem_cons_of_mem _ mem)) (pos.symm ▸ spells.2)
  refine ⟨t, run, ?_, ?_⟩
  · rwa [List.append_assoc, List.replicate_append_replicate, ← List.length_append,
      ← List.flatMap_cons] at inside
  · rw [pos', pos, List.flatMap_cons, List.length_append, Nat.add_assoc]

end Inside

/-! ## From a mark to the next piece -/

section Resuming

variable (table : src.Tabled) (room : src.size < stop)
include table room

/-- Spaces are skipped in plain style up to a visible byte, which is counted. -/
theorem skipSpaces_of_spells {spaces : List Char} (done : s.cursor.Done styles)
    (plain : s.cursor.state = .plain) (spells : src.Spells s.cursor.pos (spaces ++ [c]))
    (skipped : ∀ d ∈ spaces, isSpace d = true) (visible : isSpace c = false)
    (counted : spaces ≠ [] ∨ 0 < s.nonBlank) :
    s.skipSpaces.cursor.Done (styles ++ .replicate spaces.length .plain) ∧
      s.skipSpaces.cursor.state = .plain ∧ 0 < s.skipSpaces.nonBlank ∧
      s.skipSpaces.cursor.pos = s.cursor.pos + spaces.length := by
  induction spaces generalizing s styles with
  | nil =>
    have stays : s.skipSpaces = s := by
      rw [skipSpaces_eq, if_neg]
      rintro ⟨space, -⟩
      rw [done.ch_eq spells.1, visible] at space
      cases space
    rw [stays, List.length_nil, List.replicate_zero, List.append_nil]
    exact ⟨done, plain, counted.resolve_left (fun some => some rfl), rfl⟩
  | cons d rest ih =>
    obtain ⟨here, further⟩ := spells
    have inside := Source.lt_size_of_char? here
    have goes : s.skipSpaces = s.skipOne.skipSpaces := by
      rw [skipSpaces_eq, if_pos]
      refine ⟨?_, Nat.lt_trans inside room⟩
      rw [done.ch_eq here]
      exact skipped d List.mem_cons_self
    obtain ⟨moved, pos⟩ := done.forward table room inside
    rw [plain, ← cursor_skipOne] at moved
    rw [← cursor_skipOne] at pos
    have plain' : s.skipOne.cursor.state = .plain := by
      rw [cursor_skipOne, Cursor.state_forward, plain]
    have counted' : rest ≠ [] ∨ 0 < s.skipOne.nonBlank := by
      cases rest with
      | nil =>
        right
        rw [skipOne, countByte, ← cursor_skipOne, moved.ch_eq (pos.symm ▸ further.1),
          if_neg (by rw [Source.isSpaceOrTab_of_not_isSpace visible]; decide)]
        exact Nat.succ_pos _
      | cons => exact .inl (List.cons_ne_nil _ _)
    obtain ⟨done', state, shown, pos'⟩ := ih moved plain' (pos ▸ further)
      (fun e mem => skipped e (List.mem_cons_of_mem _ mem)) counted'
    rw [goes]
    refine ⟨?_, state, shown, ?_⟩
    · rwa [List.append_assoc] at done'
    · rw [pos', pos, List.length_cons]
      omega

omit table room in
/-- The line end after a mark is found within reach. -/
theorem afterBlanks_of_spells {trailing : List Char}
    (spells : src.Spells (s.cursor.pos + 1) (trailing ++ ['\n']))
    (blank : ∀ c ∈ trailing, isBlank c = true) (near : trailing.length ≤ 130) :
    afterBlanks s.cursor = '\n' := by
  have newline : src.char? (s.cursor.pos + 1 + trailing.length) = some '\n' :=
    (Source.spells_append.1 spells).2.1
  have reached : src.skipWhile isBlank (min (s.cursor.pos + markReach) src.size) (s.cursor.pos + 1) =
      s.cursor.pos + 1 + trailing.length := by
    apply Source.skipWhile_of_spells spells blank rfl
    have bound := Source.lt_size_of_char? newline
    unfold markReach
    omega
  unfold afterBlanks
  dsimp only
  rw [reached, if_pos (by unfold markReach; omega), Source.charD_of_char? newline]

omit table room in
theorem InLiteral.step_of_mark (words : Dictionary) (inLiteral : InLiteral quote styles s)
    (mark : s.cursor.ch = '&') (ahead : afterBlanks s.cursor = '\n') :
    s.step words .free = s.countByte.resumeNextLine.tokenStep words .free := by
  have notComment : s.cursor.state ≠ .comment := by
    rw [inLiteral.state]
    unfold literalStyle
    split
    · decide
    · decide
  unfold step
  rw [inLiteral.begun]
  dsimp only
  rw [cursor_countByte, if_pos ⟨mark, notComment⟩, ampersandStep]
  dsimp only
  rw [cursor_countByte, ahead, if_neg (by decide), if_pos (by decide)]

/-- From a mark to the text after the mark on the next line: both marks are painted, and the space
between them in plain style. -/
theorem resumeNextLine_of_spells {spaces : List Char} (done : s.cursor.Done styles)
    (spells : src.Spells s.cursor.pos ('&' :: spaces ++ ['&'])) (some : spaces ≠ [])
    (skipped : ∀ d ∈ spaces, isSpace d = true) :
    s.resumeNextLine.cursor.Done
        (styles ++ .continuation :: .replicate spaces.length .plain ++ [.continuation]) ∧
      s.resumeNextLine.cursor.state = s.cursor.state ∧ 0 < s.resumeNextLine.nonBlank ∧
      s.resumeNextLine.cursor.pos = s.cursor.pos + spaces.length + 2 := by
  obtain ⟨here, further⟩ := spells
  obtain ⟨passed, pos⟩ :=
    (done.setState .continuation).forward table room (Source.lt_size_of_char? here)
  have pos : s.pastMark.cursor.pos = s.cursor.pos + 1 := pos
  obtain ⟨skips, state, counted, pos'⟩ := skipSpaces_of_spells table room
    (s := s.pastMark) (passed.setState .plain) rfl (pos.symm ▸ further) skipped rfl (.inl some)
  have mark : src.char? s.pastMark.skipSpaces.cursor.pos = Option.some '&' := by
    rw [pos', pos]
    exact (Source.spells_append.1 further).2.1
  obtain ⟨marked, pos''⟩ :=
    (skips.setState .continuation).forward table room (Source.lt_size_of_char? mark)
  have resumed : s.resumeNextLine.cursor =
      (s.pastMark.skipSpaces.cursor.setState .continuation).forward.setState s.cursor.state := by
    change (skipLeadingMark s.pastMark.skipSpaces.cursor).setState s.cursor.state = _
    rw [skipLeadingMark, if_pos (skips.ch_eq mark)]
  rw [resumed]
  refine ⟨?_, rfl, counted, ?_⟩
  · have done := marked.setState s.cursor.state
    rw [List.append_assoc, List.append_assoc] at done
    rw [List.append_assoc]
    exact done
  · rw [Cursor.pos_setState, pos'', Cursor.pos_setState, pos', pos]
    omega

/-- A mark at the end of a line leads on to the first byte of the next piece, in one step. -/
theorem InLiteral.resumed (words : Dictionary) {piece : ContinuedPiece}
    (inLiteral : InLiteral quote styles s) (proper : piece.Proper) {d : Char} {rest : List Char}
    (spells : src.Spells s.cursor.pos
      ('&' :: (piece.trailing ++ '\n' :: piece.leading) ++ '&' :: d :: rest))
    (notSign : d ≠ '#') :
    ∃ t : Scan src 0 stop, s.advance words .free = t.finish words ∧
      Handling quote (styles ++ .continuation ::
        .replicate (piece.trailing ++ '\n' :: piece.leading).length .plain ++ [.continuation]) t ∧
      src.Spells t.cursor.pos (d :: rest) := by
  have space (c : Char) (blank : isBlank c = true) : isSpace c = true := by
    simp only [isBlank, Bool.or_eq_true, decide_eq_true_eq] at blank
    rcases blank with (rfl | rfl) | rfl <;> rfl
  have skipped : ∀ c ∈ piece.trailing ++ '\n' :: piece.leading, isSpace c = true := by
    intro c mem
    rcases List.mem_append.1 mem with before | after
    · exact space c (proper.trailing c before)
    · rcases List.mem_cons.1 after with rfl | later
      · rfl
      · exact space c (proper.leading c later)
  obtain ⟨⟨here, spaces⟩, mark, further⟩ := Source.spells_append.1 spells
  have ahead : afterBlanks s.cursor = '\n' := by
    obtain ⟨blanks, newline, -⟩ := Source.spells_append.1 spaces
    exact afterBlanks_of_spells (Source.spells_append.2 ⟨blanks, newline, trivial⟩) proper.trailing
      proper.near
  have step := inLiteral.step_of_mark words (inLiteral.done.ch_eq here) ahead
  have marks : src.Spells s.cursor.pos
      ('&' :: (piece.trailing ++ '\n' :: piece.leading) ++ ['&']) :=
    Source.spells_append.2 ⟨⟨here, spaces⟩, mark, trivial⟩
  obtain ⟨done, state, counted, pos⟩ := resumeNextLine_of_spells table room (s := s.countByte)
    ((cursor_countByte s).symm ▸ inLiteral.done) ((pos_countByte s).symm ▸ marks) (by simp) skipped
  rw [cursor_countByte] at state pos
  have further : src.Spells s.countByte.resumeNextLine.cursor.pos (d :: rest) := by
    rw [pos]
    exact further
  refine ⟨s.countByte.resumeNextLine, by rw [advance, step, finish], ⟨done, state.trans
    inLiteral.state, counted, ?_⟩, further⟩
  intro sign
  exact absurd ((done.ch_eq further.1).symm.trans sign) notSign

end Resuming

/-! ## Up to the end of the literal -/

/-- Where the later pieces of a literal begin, the run goes on to the line start after it. -/
theorem InLiteral.later (words : Dictionary) (table : src.Tabled) (room : src.size < stop)
    (isQuote : quote = '\'' ∨ quote = '"') {later : List ContinuedPiece}
    (inLiteral : InLiteral quote styles s) (proper : ∀ piece ∈ later, piece.Proper)
    (filled : ∀ piece ∈ later.dropLast, piece.content ≠ [])
    (spells : src.Spells s.cursor.pos (LiteralLine.laterChars quote later)) :
    ∃ t : Scan src 0 stop, s.run words .free = t.run words .free ∧
      t.cursor.Done (styles ++ LiteralLine.laterStyles quote later) ∧
      t.cursor.atLineStart = true := by
  have notSign : quote ≠ '#' := by
    rcases isQuote with rfl | rfl <;> decide
  induction later generalizing styles s with
  | nil =>
    have more : s.cursor.pos < stop := Nat.lt_trans (Source.lt_size_of_char? spells.1) room
    have notMark : s.cursor.ch ≠ '&' := by
      rw [inLiteral.done.ch_eq spells.1]
      rcases isQuote with rfl | rfl <;> decide
    have closes := inLiteral.handling.closes words table room isQuote
      ((pos_countByte s).symm ▸ spells)
    rw [← inLiteral.advance_eq words notMark] at closes
    exact ⟨_, run_of_lt more, closes⟩
  | cons piece rest ih =>
    obtain ⟨trailing, leading, content⟩ := piece
    have ofPiece := proper _ List.mem_cons_self
    have text : LiteralLine.laterChars quote (⟨trailing, leading, content⟩ :: rest) =
        '&' :: (trailing ++ '\n' :: leading) ++ '&' ::
          (content.flatMap (spelledInLiteral quote) ++ LiteralLine.laterChars quote rest) := by
      simp [LiteralLine.laterChars, ContinuedPiece.chars]
    rw [text] at spells
    have more : s.cursor.pos < stop := Nat.lt_trans (Source.lt_size_of_char? spells.1) room
    cases content with
    | nil =>
      -- Only the last piece can be empty, so the quote follows.
      obtain rfl : rest = [] := by
        cases rest with
        | nil => rfl
        | cons other rest => exact absurd rfl (filled _ List.mem_cons_self)
      obtain ⟨t, advanced, handling, further⟩ :=
        inLiteral.resumed table room words ofPiece spells notSign
      have closes := handling.closes words table room isQuote further
      refine ⟨t.finish words, (run_of_lt more).trans (by rw [advanced]), ?_, closes.2⟩
      have done := closes.1
      simpa [LiteralLine.laterStyles, ContinuedPiece.styles] using done
    | cons c content =>
      obtain ⟨twin, spelled⟩ := exists_spelledInLiteral quote c
      have begins : (c :: content).flatMap (spelledInLiteral quote) ++
            LiteralLine.laterChars quote rest =
          c :: (twin ++ content.flatMap (spelledInLiteral quote) ++
            LiteralLine.laterChars quote rest) := by
        rw [List.flatMap_cons, spelled]
        simp
      rw [begins] at spells
      obtain ⟨t, advanced, handling, further⟩ := inLiteral.resumed table room words ofPiece spells
        (fun sign => ofPiece.notSign (congrArg some sign))
      rw [← begins, Source.spells_append] at further
      obtain ⟨u, run, inside, pos⟩ :=
        handling.content words table room isQuote ofPiece.content further.1
      have filled' : ∀ other ∈ rest.dropLast, other.content ≠ [] := by
        intro other mem
        cases rest with
        | nil => cases mem
        | cons second rest => exact filled other (List.mem_cons_of_mem _ mem)
      obtain ⟨v, run', done, starts⟩ := ih inside
        (fun other mem => proper other (List.mem_cons_of_mem _ mem)) filled' (pos.symm ▸ further.2)
      refine ⟨v, (run_of_lt more).trans ((advanced ▸ run).trans run'), ?_, starts⟩
      simpa [LiteralLine.laterStyles, ContinuedPiece.styles] using done

/-- A quote where a token can begin opens a literal. -/
theorem Ready.openLiteral {shown : Bool} (table : src.Tabled) (room : src.size < stop)
    (isQuote : quote = '\'' ∨ quote = '"') (ready : Ready words styles false shown s)
    (here : src.char? s.cursor.pos = some quote) :
    InLiteral quote (styles ++ [literalStyle quote]) (s.advance words .free) ∧
      (s.advance words .free).cursor.pos = s.cursor.pos + 1 := by
  have ch : s.cursor.ch = quote := ready.tracks.ch.trans (Source.charD_of_char? here _)
  have closed := ready.closed nofun
  have opens : (s.countByte.closeToken words .free).openToken .free =
      (s.countByte.closeToken words .free).withCursor
        ((s.countByte.closeToken words .free).cursor.setState (literalStyle quote)) := by
    have ch' := closed.ch.trans ch
    unfold openToken
    dsimp only
    rw [ch']
    rcases isQuote with rfl | rfl
    · rfl
    · rfl
  have notMark : s.cursor.ch ≠ '&' := by
    rw [ch]
    rcases isQuote with rfl | rfl <;> decide
  have notSign : s.cursor.ch ≠ '#' := by
    rw [ch]
    rcases isQuote with rfl | rfl <;> decide
  have notSpace : isSpaceOrTab s.cursor.ch = false := by
    rw [ch]
    rcases isQuote with rfl | rfl <;> decide
  have step : s.step words .free = (s.countByte.closeToken words .free).withCursor
      ((s.countByte.closeToken words .free).cursor.setState (literalStyle quote)) := by
    rw [step_free ready.begun notMark notSign, if_pos closed.state, opens]
  have counted : 0 < (s.countByte.closeToken words .free).nonBlank := by
    rw [closed.nonBlank, countByte, notSpace]
    exact Nat.succ_pos _
  have advanced : s.advance words .free = (s.countByte.closeToken words .free).withCursor
      ((s.countByte.closeToken words .free).cursor.setState (literalStyle quote)).forward := by
    rw [advance, step]
    rfl
  have done : (s.countByte.closeToken words .free).cursor.Done styles :=
    ⟨closed.sound, closed.tracks, closed.styles⟩
  obtain ⟨moved, pos⟩ := (done.setState (literalStyle quote)).forward table room
    (by rw [Cursor.pos_setState, closed.pos]; exact Source.lt_size_of_char? here)
  rw [Cursor.pos_setState, closed.pos] at pos
  rw [advanced]
  refine ⟨⟨moved, ?_, beginLine_of_inLine moved.tracks ?_, counted⟩, pos⟩
  · exact Cursor.state_forward _
  · rw [cursor_withCursor, pos, Source.startsLine_succ]
    exact Source.not_endsLineAt_of_char? here (isLineEnd_of_isQuote isQuote)

/-- From the start of a line that assigns a literal, the run comes to the first byte of its content.
-/
theorem Ready.assignment (table : src.Tabled) (room : src.size < stop)
    (isQuote : quote = '\'' ∨ quote = '"') (ready : Ready words [] false false s)
    (spells : src.Spells s.cursor.pos ['s', ' ', '=', ' ', quote]) :
    ∃ t : Scan src 0 stop, s.run words .free = t.run words .free ∧
      InLiteral quote
        [(Token.word ['s']).style words, .plain, .operator, .plain, literalStyle quote] t ∧
      t.cursor.pos = s.cursor.pos + 5 := by
  obtain ⟨name, space, equals, blank, opening, -⟩ := spells
  have proper : (Token.word ['s']).Proper := ⟨'s', [], rfl, rfl, nofun⟩
  obtain ⟨t, run, named, pos⟩ := ready.token table room (by rw [space]; decide) proper
    (fun _ => rfl) nofun ⟨name, trivial⟩
  have pos : t.cursor.pos = s.cursor.pos + 1 := pos
  rw [← pos] at space equals blank opening
  obtain ⟨spaced, pos₁⟩ := named.blank table room space
  rw [← pos₁] at equals blank opening
  obtain ⟨marked, pos₂⟩ := spaced.mark table room equals (.inr (.inr rfl))
  rw [← pos₂] at blank opening
  obtain ⟨spaced', pos₃⟩ := marked.blank table room blank
  rw [← pos₃] at opening
  obtain ⟨opened, pos₄⟩ := spaced'.openLiteral table room isQuote opening
  refine ⟨_, ?_, opened, by omega⟩
  have size := Source.lt_size_of_char? opening
  rw [run, run_of_lt (by omega), run_of_lt (by omega), run_of_lt (by omega), run_of_lt (by omega)]

end Scan

namespace Source

/-- A pass over text that begins with the assignment of a literal gives it the styles of its parts.
-/
theorem prefix_allStyles_of_literal {src : Source} (table : src.Tabled) (words : Dictionary)
    {line : LiteralLine} (proper : line.Proper) (spells : src.Spells 0 line.chars) :
    line.styles words <+: src.allStyles words .free .plain := by
  have stop : src.walkEnd src.size = src.size + 1 := if_pos rfl
  have room : src.size < src.walkEnd src.size := by omega
  obtain ⟨s, all, ready, pos⟩ := exists_ready table words
  rw [← pos, LiteralLine.chars, spells_append, spells_append] at spells
  obtain ⟨⟨opening, first⟩, later⟩ := spells
  obtain ⟨t, run, opened, pos₁⟩ := ready.assignment table room proper.quote opening
  obtain ⟨u, run', inside, pos₂⟩ := opened.content words table room proper.quote proper.first
    (pos₁.symm ▸ first)
  have pos₂ : u.cursor.pos = s.cursor.pos + (['s', ' ', '=', ' ', line.quote] ++
      line.first.flatMap (spelledInLiteral line.quote)).length := by
    rw [pos₂, pos₁, List.length_append, Nat.add_assoc]
    rfl
  obtain ⟨v, run'', done, starts⟩ := inside.later words table room proper.quote proper.later
    proper.filled (pos₂.symm ▸ later)
  have painted : line.styles words = v.cursor.paint.styles := done.styles.symm
  rw [all, run, run', run'', painted]
  exact Span.shades_prefix (Scan.painted_run_of_atLineStart words .free starts)

end Source

namespace Document

/-- In a document that begins with the assignment of a literal, the bytes of the literal with its
quotes are styled as such, the marks that break it as continuations, and the space between two marks
and the line end after it are plain. -/
theorem stylesIn_of_literal {doc : Document} (fits : doc.Fits) (words : Dictionary)
    (line : LiteralLine) (proper : line.Proper) (spells : doc.source.Spells 0 line.chars) :
    (doc.styleRange words .free 0 doc.size .plain).stylesIn 0 line.chars.length =
      line.styles words := by
  obtain ⟨rest, all⟩ := Source.prefix_allStyles_of_literal fits.table words proper spells
  rw [stylesIn, Array.toList_extract, toList_styleRange_all fits, ← all,
    ← LiteralLine.length_styles words line]
  simp

/-- A literal with an apostrophe in it, broken after a blank. -/
def brokenLiteral : LiteralLine :=
  ⟨'\'', ['i', 't', '\'', 's', ' '], [⟨[' '], [' ', ' '], ['o', 'n']⟩]⟩

theorem stylesIn_of_literal_brokenLiteral :
    let doc := ofBytes (brokenLiteral.chars.map Char.toUInt8).toArray
    (brokenLiteral.Proper ∧ doc.source.Spells 0 brokenLiteral.chars) ∧
      (doc.styleRange .fortran .free 0 doc.size .plain).stylesIn 0 brokenLiteral.chars.length =
        [.identifier, .plain, .operator, .plain] ++ .replicate 7 .apostropheLiteral ++
          [.continuation, .plain, .plain, .plain, .plain, .continuation] ++
          .replicate 3 .apostropheLiteral ++ [.plain] := by
  have proper : brokenLiteral.Proper := by
    refine ⟨.inl rfl, by decide, ?_, by decide⟩
    intro piece mem
    obtain rfl := List.mem_singleton.1 mem
    exact ⟨List.all_eq_true.1 rfl, by decide, List.all_eq_true.1 rfl, by decide, by decide⟩
  have bytes : brokenLiteral.chars.all (·.toNat < 256) = true := by decide
  have spells := Source.spells_ofChars brokenLiteral.chars
    (fun c mem => of_decide_eq_true (List.all_eq_true.1 bytes c mem))
  have fits := fits_ofBytes (brokenLiteral.chars.map Char.toUInt8).toArray
  have styles := stylesIn_of_literal fits .fortran brokenLiteral proper spells
  exact ⟨⟨proper, spells⟩, styles.trans (by decide +kernel)⟩

end Document

end FortranMarkup
