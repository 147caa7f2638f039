import FortranMarkup.Proofs.Tokens.Basic
import FortranMarkup.Proofs.Styling.Resumption

/-!
# Styles of tokens

In free form each token has the style that its own letters tell, whatever is around it: a scan that
is `Ready` where a token begins is ready again after it, with the styles of the token added
(`Scan.Ready.token`). So a pass over lines of tokens gives each of them its style
(`Source.allStyles_of_lines`).
-/

namespace FortranMarkup

namespace Token

/-- The style of each byte of a token. -/
def style (words : Dictionary) : Token → Style
  | blank => .plain
  | mark _ => .operator
  | word letters =>
    (words.classify (BoundedWord.ofChars letters :
      BoundedWord identifierCapacity).spelling).getD .identifier
  | digits _ => .number

def styles (words : Dictionary) (token : Token) : List Style :=
  .replicate token.chars.length (token.style words)

/-- The styles of a line with its line end. -/
def lineStyles (words : Dictionary) (tokens : List Token) : List Style :=
  tokens.flatMap (styles words) ++ [.plain]

theorem length_flatMap_styles (words : Dictionary) (tokens : List Token) :
    (tokens.flatMap (styles words)).length = (tokens.flatMap chars).length := by
  induction tokens with
  | nil => rfl
  | cons token rest ih =>
    rw [List.flatMap_cons, List.flatMap_cons, List.length_append, List.length_append, ih, styles,
      List.length_replicate]

theorem length_lineStyles (words : Dictionary) (tokens : List Token) :
    (lineStyles words tokens).length = (lineChars tokens).length := by
  rw [lineStyles, lineChars, List.length_append, List.length_append, length_flatMap_styles]
  rfl

theorem length_flatMap_lineStyles (words : Dictionary) (lines : List (List Token)) :
    (lines.flatMap (lineStyles words)).length = (lines.flatMap lineChars).length := by
  induction lines with
  | nil => rfl
  | cons tokens rest ih =>
    rw [List.flatMap_cons, List.flatMap_cons, List.length_append, List.length_append, ih,
      length_lineStyles]

end Token

/-! ## The style of the open segment -/

namespace Cursor

variable {src : Source} {start stop : Nat}

/-- The style that the open segment has if its token ends at the cursor. -/
def closing (words : Dictionary) (c : Cursor src start stop) : Style :=
  match c.state with
  | .identifier => (words.classify (c.openWord identifierCapacity).spelling).getD .identifier
  | state => state

/-- The styles up to the cursor if the open token ends there. -/
def settled (words : Dictionary) (c : Cursor src start stop) : List Style :=
  (c.relabel (c.closing words)).paint.styles

theorem closing_of_ne {words : Dictionary} {c : Cursor src start stop}
    (other : c.state ≠ .identifier) : c.closing words = c.state := by
  unfold closing
  split
  · exact absurd (by assumption) other
  · rfl

theorem settled_of_ne {words : Dictionary} {c : Cursor src start stop}
    (other : c.state ≠ .identifier) : c.settled words = c.paint.styles := by
  rw [settled, closing_of_ne other]
  rfl

theorem styles_paint {c : Cursor src start stop} (sound : c.Sound) (inside : c.pos ≤ src.size) :
    c.paint.styles = c.styles ++ .replicate (c.pos - c.segment) c.state := by
  have le := sound.segment_le_pos
  rw [styles_eq_shades, styles_eq_shades, painted_paint]
  split
  · rw [Span.shades_cons]
    congr 2
    dsimp only
    omega
  · have none : c.pos - c.segment = 0 := by omega
    rw [none, List.replicate_zero, List.append_nil]

theorem styles_setState {c : Cursor src start stop} (state : Style) :
    (c.setState state).styles = c.paint.styles := rfl

theorem segment_setState {c : Cursor src start stop} (sound : c.Sound) (inside : c.pos ≤ src.size)
    (state : Style) : (c.setState state).segment = c.pos :=
  (segment_paint sound).trans (Nat.min_eq_left inside)

end Cursor

/-! ## Bytes of a token -/

namespace Scan

variable {src : Source} {stop : Nat} {words : Dictionary}

/-- A scan at a position where a token can begin, given the styles before it, whether the token before
goes on with letters, and whether the line has shown a token. -/
structure Ready (words : Dictionary) (styles : List Style) (wordy shown : Bool)
    (s : Scan src 0 stop) : Prop where
  sound : s.cursor.Sound
  tracks : s.cursor.Tracks
  begun : s.beginLine = s
  calm : wordy = false → s.cursor.state = .plain ∨ s.cursor.state = .operator
  busy : wordy = true → s.cursor.state = .number ∨ s.cursor.state = .identifier
  counted : shown = true → 0 < s.nonBlank
  settled : s.cursor.settled words = styles

/-- A scan whose last token is closed. -/
structure Closed (styles : List Style) (s t : Scan src 0 stop) : Prop where
  state : t.cursor.state = .plain
  sound : t.cursor.Sound
  tracks : t.cursor.Tracks
  pos : t.cursor.pos = s.cursor.pos
  ch : t.cursor.ch = s.cursor.ch
  next : t.cursor.next = s.cursor.next
  nonBlank : t.nonBlank = s.countByte.nonBlank
  styles : t.cursor.paint.styles = styles

theorem step_free {s : Scan src 0 stop} (begun : s.beginLine = s) (notMark : s.cursor.ch ≠ '&')
    (notSign : s.cursor.ch ≠ '#') :
    s.step words .free =
      if (s.countByte.closeToken words .free).cursor.state = .plain then
        (s.countByte.closeToken words .free).openToken .free
      else s.countByte.closeToken words .free := by
  have sign : s.countByte.numberSignStep = s.countByte := by
    rw [numberSignStep, cursor_countByte, if_neg (fun both => notSign both.1)]
  unfold step
  rw [begun]
  dsimp only
  rw [cursor_countByte, if_neg (fun both => notMark both.1), tokenStep, sign]

theorem closed_setState {s : Scan src 0 stop} (sound : s.cursor.Sound) (tracks : s.cursor.Tracks)
    (style : Style) :
    Closed (s.cursor.relabel style).paint.styles s
      (s.countByte.withCursor ((s.cursor.relabel style).setState .plain)) := by
  have sound' := Cursor.sound_paint (Cursor.sound_relabel sound style)
  refine ⟨rfl, Cursor.sound_relabel sound' .plain, (tracks.relabel style).paint.relabel .plain, rfl,
    rfl, rfl, rfl, ?_⟩
  have settled : (s.cursor.relabel style).paint.segment = min s.cursor.pos src.size :=
    Cursor.segment_paint (Cursor.sound_relabel sound style)
  have same : ((s.cursor.relabel style).setState .plain).paint =
      (s.cursor.relabel style).setState .plain :=
    Cursor.paint_of_segment (Nat.le_of_eq settled.symm)
  rw [cursor_withCursor, same]
  rfl

/-- A byte that goes on with no word closes the token before it. -/
theorem Ready.closed {styles : List Style} {wordy shown : Bool} {s : Scan src 0 stop}
    (ready : Ready words styles wordy shown s)
    (ends : wordy = true → isWordChar s.cursor.ch = false ∧ s.cursor.ch ≠ '\'' ∧
      s.cursor.ch ≠ '"' ∧ s.cursor.ch ≠ '.') :
    Closed styles s (s.countByte.closeToken words .free) := by
  have sound := ready.sound
  have tracks := ready.tracks
  rw [← ready.settled]
  cases wordy with
  | false =>
    rcases ready.calm rfl with plain | operator
    · rw [closeToken, cursor_countByte, plain, Cursor.settled_of_ne (by rw [plain]; decide)]
      dsimp only
      refine ⟨?_, ?_, ?_, ?_, ?_, ?_, rfl, ?_⟩
      all_goals rw [cursor_countByte]
      · exact plain
      · exact sound
      · exact tracks
    · rw [closeToken, cursor_countByte, operator, Cursor.settled_of_ne (by rw [operator]; decide)]
      exact closed_setState sound tracks s.cursor.state
  | true =>
    obtain ⟨notWord, notApostrophe, notQuote, notStop⟩ := ends rfl
    rcases ready.busy rfl with number | identifier
    · rw [closeToken, cursor_countByte, number, Cursor.settled_of_ne (by rw [number]; decide)]
      dsimp only
      rw [if_neg (by simp [notWord, notApostrophe, notQuote, notStop])]
      exact closed_setState sound tracks s.cursor.state
    · rw [closeToken, cursor_countByte, identifier]
      dsimp only
      rw [if_neg (by simp [notWord])]
      have closing : s.cursor.closing words =
          (words.classify (s.cursor.openWord identifierCapacity).spelling).getD s.cursor.state := by
        rw [Cursor.closing, identifier]
      rw [closeIdentifier, Cursor.settled, closing]
      exact closed_setState sound tracks _

/-! ## Turns -/

theorem styles_paint_forward {c : Cursor src 0 stop} (sound : c.Sound) (inside : c.pos < src.size)
    (more : c.pos < stop) : c.forward.paint.styles = c.paint.styles ++ [c.state] := by
  have pos : c.forward.pos = c.pos + 1 := by rw [Cursor.pos_forward, if_pos more]
  have painted : c.forward.styles = c.styles := by
    rw [Cursor.styles_eq_shades, Cursor.painted_forward, Cursor.styles_eq_shades]
  rw [Cursor.styles_paint (Cursor.sound_forward sound) (by omega), painted, pos,
    Cursor.segment_forward, Cursor.state_forward, Cursor.styles_paint sound (by omega),
    Nat.succ_sub sound.segment_le_pos, List.replicate_succ', List.append_assoc]

theorem openToken_of_space {s : Scan src 0 stop} (space : s.cursor.ch = ' ' ∨ s.cursor.ch = '\n') :
    s.openToken .free = s := by
  unfold openToken
  dsimp only
  rcases space with here | here
  · rw [here]
    rfl
  · rw [here]
    rfl

theorem openToken_of_mark {s : Scan src 0 stop}
    (mark : s.cursor.ch = '(' ∨ s.cursor.ch = ')' ∨ s.cursor.ch = '=') :
    s.openToken .free = s.withCursor (s.cursor.setState .operator) := by
  unfold openToken
  dsimp only
  rcases mark with here | here | here
  · rw [here]
    rfl
  · rw [here]
    rfl
  · rw [here]
    rfl

theorem openToken_of_digit {s : Scan src 0 stop} (digit : s.cursor.ch.isDigit = true)
    (later : s.nonBlank ≠ 1) : s.openToken .free = s.withCursor (s.cursor.setState .number) := by
  have notMark : s.cursor.ch ≠ '!' := by
    intro here
    rw [here] at digit
    cases digit
  unfold openToken
  dsimp only
  rw [if_neg notMark, if_neg (fun label => later label.2.2), digit, Bool.true_or, if_pos rfl]

theorem openToken_of_letter {s : Scan src 0 stop} (letter : s.cursor.ch.isAlpha = true)
    (notQuote : s.cursor.next ≠ '"' ∧ s.cursor.next ≠ '\'') :
    s.openToken .free = s.withCursor (s.cursor.setState .identifier) := by
  have other (c : Char) (noLetter : c.isAlpha = false) : s.cursor.ch ≠ c := by
    intro here
    rw [here, noLetter] at letter
    cases letter
  have notDigit := isDigit_of_isAlpha letter
  have wordStart : isWordStart s.cursor.ch = true := by
    rw [isWordStart, Char.isAlphanum, letter, Bool.true_or]
  unfold openToken
  dsimp only
  rw [if_neg (other '!' rfl), if_neg (by simp [notDigit]), if_neg (by simp [notDigit, other '.' rfl]),
    if_neg (by simp [notQuote]), if_neg (by simp [other '.' rfl]), if_pos wordStart]

theorem beginLine_of_inLine {s : Scan src 0 stop} (tracks : s.cursor.Tracks)
    (inLine : ¬src.StartsLine s.cursor.pos) : s.beginLine = s := by
  rw [beginLine, if_neg (fun starts => inLine (tracks.atLineStart.1 starts))]

section Turns

variable (table : src.Tabled) (room : src.size < stop) {styles : List Style}
  {wordy shown : Bool} {s : Scan src 0 stop} {c : Char}

include table room

theorem ready_advance {t : Scan src 0 stop} (step : s.step words .free = t)
    (pos : t.cursor.pos = s.cursor.pos) (tracks : t.cursor.Tracks) (sound : t.cursor.Sound)
    (here : src.char? s.cursor.pos = some c) (inLine : isLineEnd c = false)
    (calm : t.cursor.state = .plain ∨ t.cursor.state = .operator)
    (counted : shown = true → 0 < t.nonBlank) (settled : t.cursor.paint.styles = styles) :
    Ready words (styles ++ [t.cursor.state]) false shown (s.advance words .free) ∧
      (s.advance words .free).cursor.pos = s.cursor.pos + 1 := by
  rw [← pos] at here ⊢
  have inside := Source.lt_size_of_char? here
  have more : t.cursor.pos < stop := by omega
  have tracks' := tracks.forward table inside more
  have pos' : t.cursor.forward.pos = t.cursor.pos + 1 := by rw [Cursor.pos_forward, if_pos more]
  have advanced : s.advance words .free = t.withCursor t.cursor.forward := by rw [advance, step]
  have notIdentifier : t.cursor.forward.state ≠ .identifier := by
    rw [Cursor.state_forward]
    rcases calm with plain | operator
    · rw [plain]
      decide
    · rw [operator]
      decide
  rw [advanced]
  refine ⟨⟨Cursor.sound_forward sound, tracks', beginLine_of_inLine tracks' ?_, ?_,
    fun wordy => absurd wordy Bool.false_ne_true, counted, ?_⟩, pos'⟩
  · rw [cursor_withCursor, pos', Source.startsLine_succ]
    exact Source.not_endsLineAt_of_char? here inLine
  · intro _
    rw [cursor_withCursor, Cursor.state_forward]
    exact calm
  · rw [cursor_withCursor, Cursor.settled_of_ne notIdentifier,
      styles_paint_forward sound inside more, settled]

theorem Ready.blank (ready : Ready words styles wordy shown s)
    (here : src.char? s.cursor.pos = some ' ') :
    Ready words (styles ++ [.plain]) false shown (s.advance words .free) ∧
      (s.advance words .free).cursor.pos = s.cursor.pos + 1 := by
  have ch : s.cursor.ch = ' ' := ready.tracks.ch.trans (Source.charD_of_char? here _)
  have closed := ready.closed (fun _ => by rw [ch]; decide)
  have stays := openToken_of_space (s := s.countByte.closeToken words .free)
    (.inl (closed.ch.trans ch))
  have step : s.step words .free = s.countByte.closeToken words .free := by
    rw [step_free ready.begun (by rw [ch]; decide) (by rw [ch]; decide), if_pos closed.state, stays]
  have counted : shown = true → 0 < (s.countByte.closeToken words .free).nonBlank := by
    intro before
    rw [closed.nonBlank]
    exact Nat.lt_of_lt_of_le (ready.counted before) (nonBlank_le_countByte s)
  have advanced := ready_advance table room step closed.pos closed.tracks closed.sound here rfl
    (.inl closed.state) counted closed.styles
  rwa [closed.state] at advanced

theorem Ready.mark (ready : Ready words styles wordy shown s)
    (here : src.char? s.cursor.pos = some c) (isMark : c = '(' ∨ c = ')' ∨ c = '=') :
    Ready words (styles ++ [.operator]) false true (s.advance words .free) ∧
      (s.advance words .free).cursor.pos = s.cursor.pos + 1 := by
  have ch : s.cursor.ch = c := ready.tracks.ch.trans (Source.charD_of_char? here _)
  have other : isWordChar c = false ∧ c ≠ '\'' ∧ c ≠ '"' ∧ c ≠ '.' ∧ c ≠ '&' ∧ c ≠ '#' ∧
      isSpaceOrTab c = false ∧ isLineEnd c = false := by
    rcases isMark with rfl | rfl | rfl <;> decide
  obtain ⟨notWord, notApostrophe, notQuote, notStop, notMark, notSign, notSpace, inLine⟩ := other
  rw [← ch] at isMark notWord notApostrophe notQuote notStop notMark notSign notSpace
  have closed := ready.closed (fun _ => ⟨notWord, notApostrophe, notQuote, notStop⟩)
  have opens := openToken_of_mark (s := s.countByte.closeToken words .free)
    (closed.ch.symm ▸ isMark)
  have step : s.step words .free = (s.countByte.closeToken words .free).withCursor
      ((s.countByte.closeToken words .free).cursor.setState .operator) := by
    rw [step_free ready.begun notMark notSign, if_pos closed.state, opens]
  have counted : true = true → 0 < (s.countByte.closeToken words .free).nonBlank := by
    intro _
    rw [closed.nonBlank, countByte, notSpace]
    exact Nat.succ_pos _
  have sound := Cursor.sound_relabel (Cursor.sound_paint closed.sound) .operator
  have inside := closed.tracks.inside
  have settled : ((s.countByte.closeToken words .free).cursor.setState .operator).paint.styles =
      styles := by
    rw [← closed.styles, Cursor.paint_of_segment]
    · rfl
    · exact Nat.le_of_eq (Cursor.segment_paint closed.sound).symm
  exact ready_advance table room step closed.pos (closed.tracks.paint.relabel .operator) sound here
    inLine (.inr rfl) counted settled

theorem Ready.newline (ready : Ready words styles wordy shown s)
    (here : src.char? s.cursor.pos = some '\n') :
    s.run words .free = (s.advance words .free).beginLine.run words .free ∧
      Ready words (styles ++ [.plain]) false false (s.advance words .free).beginLine ∧
      (s.advance words .free).beginLine.cursor.pos = s.cursor.pos + 1 := by
  have inside := Source.lt_size_of_char? here
  have more : s.cursor.pos < stop := by omega
  have ch : s.cursor.ch = '\n' := ready.tracks.ch.trans (Source.charD_of_char? here _)
  have closed := ready.closed (fun _ => by rw [ch]; decide)
  have stays := openToken_of_space (s := s.countByte.closeToken words .free)
    (.inr (closed.ch.trans ch))
  have step : s.step words .free = s.countByte.closeToken words .free := by
    rw [step_free ready.begun (by rw [ch]; decide) (by rw [ch]; decide), if_pos closed.state, stays]
  have pos := closed.pos
  have state := closed.state
  have tracks := closed.tracks
  have sound := closed.sound
  have settled := closed.styles
  have advanced : s.advance words .free =
      (s.countByte.closeToken words .free).withCursor
        (s.countByte.closeToken words .free).cursor.forward := by rw [advance, step]
  generalize s.countByte.closeToken words .free = t at *
  have tracks' := tracks.forward table (pos ▸ inside) (pos ▸ more)
  have pos' : t.cursor.forward.pos = s.cursor.pos + 1 := by
    rw [Cursor.pos_forward, if_pos (pos ▸ more), pos]
  have starts : t.cursor.forward.atLineStart = true := by
    rw [tracks'.atLineStart, pos', Source.startsLine_succ]
    exact Source.endsLineAt_newline here
  have sound' := Cursor.sound_forward sound
  have begins : (s.advance words .free).beginLine =
      { t with cursor := t.cursor.forward.setState .plain, nonBlank := 0 } := by
    rw [advanced, beginLine]
    exact if_pos starts
  have again := beginLine_beginLine (s := s.advance words .free) (by rw [advanced]; exact sound')
  refine ⟨?_, ?_, ?_⟩
  · rw [run_of_lt more, run_beginLine]
    · rw [advanced]
      exact sound'
    · rw [advanced, cursor_withCursor, pos']
      omega
  · rw [begins] at again ⊢
    refine ⟨Cursor.sound_relabel (Cursor.sound_paint sound') .plain, tracks'.paint.relabel .plain,
      again, fun _ => .inl rfl, fun wordy => absurd wordy Bool.false_ne_true,
      fun shown => absurd shown Bool.false_ne_true, ?_⟩
    have painted : (t.cursor.forward.setState .plain).paint = t.cursor.forward.setState .plain :=
      Cursor.paint_of_segment (Nat.le_of_eq (Cursor.segment_paint sound').symm)
    rw [Cursor.settled_of_ne (show Style.plain ≠ .identifier by decide), painted,
      Cursor.styles_setState,
      styles_paint_forward sound (pos ▸ inside) (pos ▸ more), settled, state]
  · rw [pos_beginLine, advanced, cursor_withCursor, pos']

/-! ## Words and numbers -/

/-- A scan in a token that goes on with letters. -/
structure Inside (styles : List Style) (state : Style) (first : Nat) (s : Scan src 0 stop) :
    Prop where
  sound : s.cursor.Sound
  tracks : s.cursor.Tracks
  begun : s.beginLine = s
  state : s.cursor.state = state
  segment : s.cursor.segment = first
  counted : 0 < s.nonBlank
  styles : s.cursor.styles = styles

theorem inside_advance {t : Scan src 0 stop} {state : Style} {first : Nat}
    (step : s.step words .free = t) (pos : t.cursor.pos = s.cursor.pos) (tracks : t.cursor.Tracks)
    (sound : t.cursor.Sound) (here : src.char? s.cursor.pos = some c) (inLine : isLineEnd c = false)
    (is : t.cursor.state = state) (segment : t.cursor.segment = first) (counted : 0 < t.nonBlank)
    (painted : t.cursor.styles = styles) :
    Inside styles state first (s.advance words .free) ∧
      (s.advance words .free).cursor.pos = s.cursor.pos + 1 := by
  rw [← pos] at here ⊢
  have inside := Source.lt_size_of_char? here
  have more : t.cursor.pos < stop := by omega
  have tracks' := tracks.forward table inside more
  have pos' : t.cursor.forward.pos = t.cursor.pos + 1 := by rw [Cursor.pos_forward, if_pos more]
  have advanced : s.advance words .free = t.withCursor t.cursor.forward := by rw [advance, step]
  rw [advanced]
  refine ⟨⟨Cursor.sound_forward sound, tracks', beginLine_of_inLine tracks' ?_, ?_, ?_, counted,
    ?_⟩, pos'⟩
  · rw [cursor_withCursor, pos', Source.startsLine_succ]
    exact Source.not_endsLineAt_of_char? here inLine
  · rw [cursor_withCursor, Cursor.state_forward, is]
  · rw [cursor_withCursor, Cursor.segment_forward, segment]
  · rw [cursor_withCursor, Cursor.styles_eq_shades, Cursor.painted_forward, ← Cursor.styles_eq_shades,
      painted]

theorem Inside.letter {state : Style} {first : Nat} (inside : Inside styles state first s)
    (wordy : state = .number ∨ state = .identifier) (here : src.char? s.cursor.pos = some c)
    (name : isNameChar c = true) :
    Inside styles state first (s.advance words .free) ∧
      (s.advance words .free).cursor.pos = s.cursor.pos + 1 := by
  have ch : s.cursor.ch = c := inside.tracks.ch.trans (Source.charD_of_char? here _)
  have notMark := ne_of_isNameChar name (show isNameChar '&' = false from rfl)
  have notSign := ne_of_isNameChar name (show isNameChar '#' = false from rfl)
  have notPercent := ne_of_isNameChar name (show isNameChar '%' = false from rfl)
  have stays : s.countByte.closeToken words .free = s.countByte := by
    rw [closeToken, cursor_countByte, inside.state]
    rcases wordy with rfl | rfl
    · dsimp only
      rw [if_pos (by simp [ch, isWordChar_of_isNameChar name])]
    · dsimp only
      rw [if_pos (by simp [ch, isWordChar_of_isNameChar name, notPercent])]
  have notPlain : s.countByte.cursor.state ≠ .plain := by
    rw [cursor_countByte, inside.state]
    rcases wordy with rfl | rfl
    · decide
    · decide
  have step : s.step words .free = s.countByte := by
    rw [step_free inside.begun (ch ▸ notMark) (ch ▸ notSign), stays, if_neg notPlain]
  have counted := Nat.lt_of_lt_of_le inside.counted (nonBlank_le_countByte s)
  have cursor := cursor_countByte s
  exact inside_advance table room step (by rw [cursor]) (cursor ▸ inside.tracks)
    (cursor ▸ inside.sound) here (isLineEnd_of_isNameChar name) (cursor ▸ inside.state)
    (cursor ▸ inside.segment) counted (cursor ▸ inside.styles)

theorem Inside.letters {state : Style} {first : Nat} (inside : Inside styles state first s)
    (wordy : state = .number ∨ state = .identifier) {letters : List Char}
    (spells : src.Spells s.cursor.pos letters) (names : ∀ c ∈ letters, isNameChar c = true) :
    ∃ t : Scan src 0 stop, s.run words .free = t.run words .free ∧ Inside styles state first t ∧
      t.cursor.pos = s.cursor.pos + letters.length := by
  induction letters generalizing s with
  | nil => exact ⟨s, rfl, inside, rfl⟩
  | cons c rest ih =>
    obtain ⟨here, further⟩ := spells
    obtain ⟨moved, pos⟩ := inside.letter table room wordy here (names c List.mem_cons_self)
    obtain ⟨t, run, done, pos'⟩ := ih moved (pos.symm ▸ further)
      (fun d mem => names d (List.mem_cons_of_mem _ mem))
    have more : s.cursor.pos < stop := by
      have less := Source.lt_size_of_char? here
      omega
    refine ⟨t, (run_of_lt more).trans run, done, ?_⟩
    rw [pos', pos, List.length_cons]
    omega

/-- A token that goes on with letters, from its first byte to the position after its last one. -/
theorem Ready.named {state : Style} {letters : List Char} (ready : Ready words styles false shown s)
    (isWordy : state = .number ∨ state = .identifier)
    (spells : src.Spells s.cursor.pos (c :: letters)) (name : isNameChar c = true)
    (names : ∀ d ∈ letters, isNameChar d = true)
    (opens : (s.countByte.closeToken words .free).openToken .free =
      (s.countByte.closeToken words .free).withCursor
        ((s.countByte.closeToken words .free).cursor.setState state)) :
    ∃ t : Scan src 0 stop, s.run words .free = t.run words .free ∧
      Inside styles state s.cursor.pos t ∧
      t.cursor.pos = s.cursor.pos + (c :: letters).length := by
  obtain ⟨here, further⟩ := spells
  have more : s.cursor.pos < stop := by
    have less := Source.lt_size_of_char? here
    omega
  have ch : s.cursor.ch = c := ready.tracks.ch.trans (Source.charD_of_char? here _)
  have notMark := ne_of_isNameChar name (show isNameChar '&' = false from rfl)
  have notSign := ne_of_isNameChar name (show isNameChar '#' = false from rfl)
  have notSpace : isSpaceOrTab c = false := by
    simp [isSpaceOrTab, ne_of_isNameChar name (show isNameChar ' ' = false from rfl),
      ne_of_isNameChar name (show isNameChar '\t' = false from rfl)]
  have closed := ready.closed Bool.noConfusion
  have step : s.step words .free = (s.countByte.closeToken words .free).withCursor
      ((s.countByte.closeToken words .free).cursor.setState state) := by
    rw [step_free ready.begun (ch ▸ notMark) (ch ▸ notSign), if_pos closed.state, opens]
  have counted : 0 < (s.countByte.closeToken words .free).nonBlank := by
    rw [closed.nonBlank, countByte, ch, notSpace]
    exact Nat.succ_pos _
  have segment := Cursor.segment_setState closed.sound closed.tracks.inside state
  obtain ⟨inside, pos⟩ := inside_advance table room step closed.pos
    (closed.tracks.paint.relabel state) (Cursor.sound_relabel (Cursor.sound_paint closed.sound) state)
    here (isLineEnd_of_isNameChar name) rfl (segment.trans closed.pos) counted
    ((Cursor.styles_setState state).trans closed.styles)
  obtain ⟨t, run, done, pos'⟩ := inside.letters table room isWordy (pos.symm ▸ further) names
  refine ⟨t, (run_of_lt more).trans run, done, ?_⟩
  rw [pos', pos, List.length_cons]
  omega

omit table room in
theorem Inside.ready (words : Dictionary) {state : Style} {letters : List Char} {first : Nat}
    (inside : Inside styles state first s) (isWordy : state = .number ∨ state = .identifier)
    (pos : s.cursor.pos = first + letters.length) :
    Ready words (styles ++ .replicate letters.length (s.cursor.closing words)) true true s := by
  refine ⟨inside.sound, inside.tracks, inside.begun, nofun, fun _ => inside.state.symm ▸ isWordy,
    fun _ => inside.counted, ?_⟩
  have painted := Cursor.styles_paint
    (Cursor.sound_relabel inside.sound (s.cursor.closing words)) inside.tracks.inside
  rw [Cursor.settled, painted]
  change s.cursor.styles ++ List.replicate (s.cursor.pos - s.cursor.segment) _ = _
  rw [inside.styles, inside.segment, pos, Nat.add_sub_cancel_left]
  rfl

theorem Ready.token {token : Token} (ready : Ready words styles wordy shown s)
    (quoteless : src.char? (s.cursor.pos + 1) ≠ some '"' ∧ src.char? (s.cursor.pos + 1) ≠ some '\'')
    (proper : token.Proper) (apart : token.isWordy = true → wordy = false)
    (label : (∃ letters, token = .digits letters) → shown = true)
    (spells : src.Spells s.cursor.pos token.chars) :
    ∃ t : Scan src 0 stop, s.run words .free = t.run words .free ∧
      Ready words (styles ++ token.styles words) token.isWordy (shown || token ≠ .blank) t ∧
      t.cursor.pos = s.cursor.pos + token.chars.length := by
  cases token with
  | blank =>
    have here := spells.1
    have more : s.cursor.pos < stop := by
      have less := Source.lt_size_of_char? here
      omega
    obtain ⟨moved, pos⟩ := ready.blank table room here
    have same : (shown || decide (Token.blank ≠ Token.blank)) = shown := by simp
    refine ⟨_, run_of_lt more, ?_, pos⟩
    rw [same]
    exact moved
  | mark c =>
    have here : src.char? s.cursor.pos = some c := spells.1
    have more : s.cursor.pos < stop := by
      have less := Source.lt_size_of_char? here
      omega
    obtain ⟨moved, pos⟩ := ready.mark table room here proper
    have later : (shown || decide (Token.mark c ≠ Token.blank)) = true := by simp
    refine ⟨_, run_of_lt more, ?_, pos⟩
    rw [later]
    exact moved
  | word letters =>
    obtain ⟨first, rest, rfl, letter, names⟩ := proper
    obtain rfl := apart rfl
    have closed := ready.closed nofun
    have ch : s.cursor.ch = first := ready.tracks.ch.trans (Source.charD_of_char? spells.1 _)
    have notQuote : s.cursor.next ≠ '"' ∧ s.cursor.next ≠ '\'' := by
      rw [ready.tracks.next]
      constructor
      · intro quote
        exact quoteless.1 (Source.char?_of_charD quote (by decide))
      · intro apostrophe
        exact quoteless.2 (Source.char?_of_charD apostrophe (by decide))
    have opens := openToken_of_letter (s := s.countByte.closeToken words .free)
      (by rw [closed.ch, ch, letter]) (by rwa [closed.next])
    obtain ⟨t, run, inside, pos⟩ := ready.named table room (.inr rfl) spells
      (isNameChar_of_isAlpha letter) names opens
    have closing : t.cursor.closing words = (Token.word (first :: rest)).style words := by
      have letters : src.charsD s.cursor.pos (s.cursor.pos + (first :: rest).length) '\x00' =
          first :: rest := Source.charsD_of_spells spells _
      rw [Cursor.closing, inside.state, Cursor.openWord, inside.segment, pos, letters]
      rfl
    have later : (shown || decide (Token.word (first :: rest) ≠ Token.blank)) = true := by simp
    have done := inside.ready words (.inr rfl) pos
    refine ⟨t, run, ?_, pos⟩
    rw [later]
    rwa [closing] at done
  | digits letters =>
    obtain ⟨first, rest, rfl, digit, digits⟩ := proper
    obtain rfl := apart rfl
    have closed := ready.closed nofun
    have ch : s.cursor.ch = first := ready.tracks.ch.trans (Source.charD_of_char? spells.1 _)
    have notSpace : isSpaceOrTab first = false := by
      simp [isSpaceOrTab, ne_of_isNameChar (isNameChar_of_isDigit digit) (show isNameChar ' ' = false
        from rfl), ne_of_isNameChar (isNameChar_of_isDigit digit) (show isNameChar '\t' = false
        from rfl)]
    have second : (s.countByte.closeToken words .free).nonBlank ≠ 1 := by
      have counted := ready.counted (label ⟨_, rfl⟩)
      rw [closed.nonBlank, countByte, ch, notSpace]
      change s.nonBlank + 1 ≠ 1
      omega
    have opens := openToken_of_digit (s := s.countByte.closeToken words .free)
      (by rw [closed.ch, ch, digit]) second
    obtain ⟨t, run, inside, pos⟩ := ready.named table room (.inl rfl) spells
      (isNameChar_of_isDigit digit) (fun d mem => isNameChar_of_isDigit (digits d mem)) opens
    have closing : t.cursor.closing words = .number := by
      rw [Cursor.closing, inside.state]
    have later : (shown || decide (Token.digits (first :: rest) ≠ Token.blank)) = true := by simp
    have done := inside.ready words (.inl rfl) pos
    refine ⟨t, run, ?_, pos⟩
    rw [later]
    rwa [closing] at done

theorem Ready.tokens {tokens : List Token} (ready : Ready words styles wordy shown s)
    (quoteless : ∀ pos, src.char? pos ≠ some '"' ∧ src.char? pos ≠ some '\'')
    (line : Token.Line wordy shown tokens)
    (spells : src.Spells s.cursor.pos (tokens.flatMap Token.chars)) :
    ∃ t : Scan src 0 stop, s.run words .free = t.run words .free ∧
      (∃ wordy shown, Ready words (styles ++ tokens.flatMap (Token.styles words)) wordy shown t) ∧
      t.cursor.pos = s.cursor.pos + (tokens.flatMap Token.chars).length := by
  induction tokens generalizing styles wordy shown s with
  | nil =>
    rw [List.flatMap_nil, List.append_nil]
    exact ⟨s, rfl, ⟨wordy, shown, ready⟩, rfl⟩
  | cons token rest ih =>
    obtain ⟨proper, apart, label, further⟩ := line
    rw [List.flatMap_cons, Source.spells_append] at spells
    obtain ⟨t, run, ready, pos⟩ := ready.token table room (quoteless _) proper apart label spells.1
    obtain ⟨u, run', ready', pos'⟩ := ih ready further (pos.symm ▸ spells.2)
    refine ⟨u, run.trans run', ?_, ?_⟩
    · rw [List.flatMap_cons, ← List.append_assoc]
      exact ready'
    · rw [pos', pos, List.flatMap_cons, List.length_append, Nat.add_assoc]

end Turns

end Scan

/-! ## Lines -/

namespace Scan

variable {src : Source} {stop : Nat} {words : Dictionary}

theorem Ready.lines {lines : List (List Token)} (table : src.Tabled) (room : src.size < stop)
    {styles : List Style} {s : Scan src 0 stop} (ready : Ready words styles false false s)
    (quoteless : ∀ pos, src.char? pos ≠ some '"' ∧ src.char? pos ≠ some '\'')
    (proper : ∀ tokens ∈ lines, Token.Line false false tokens)
    (spells : src.Spells s.cursor.pos (lines.flatMap Token.lineChars))
    (starts : src.StartsLine s.cursor.pos) :
    ∃ t : Scan src 0 stop, s.run words .free = t.run words .free ∧
      Ready words (styles ++ lines.flatMap (Token.lineStyles words)) false false t ∧
      t.cursor.pos = s.cursor.pos + (lines.flatMap Token.lineChars).length ∧
      src.StartsLine t.cursor.pos := by
  induction lines generalizing styles s with
  | nil =>
    rw [List.flatMap_nil, List.append_nil]
    exact ⟨s, rfl, ready, rfl, starts⟩
  | cons tokens rest ih =>
    rw [List.flatMap_cons, Source.spells_append, Token.lineChars, Source.spells_append] at spells
    obtain ⟨⟨spells_tokens, newline, -⟩, further⟩ := spells
    obtain ⟨t, run, ⟨wordy, shown, ready'⟩, pos⟩ :=
      ready.tokens table room quoteless (proper tokens List.mem_cons_self) spells_tokens
    rw [← pos] at newline
    obtain ⟨run', ready'', pos'⟩ := ready'.newline table room newline
    have starts' : src.StartsLine (t.advance words .free).beginLine.cursor.pos := by
      rw [pos', Source.startsLine_succ]
      exact Source.endsLineAt_newline newline
    rw [List.length_append, ← Nat.add_assoc, ← pos] at further
    obtain ⟨u, run'', ready''', pos'', starts''⟩ :=
      ih ready'' (fun line mem => proper line (List.mem_cons_of_mem _ mem))
        (pos'.symm ▸ further) starts'
    refine ⟨u, run.trans (run'.trans run''), ?_, ?_, starts''⟩
    · rw [List.flatMap_cons, Token.lineStyles, ← List.append_assoc, ← List.append_assoc]
      exact ready'''
    · rw [pos'', pos', pos, List.flatMap_cons, List.length_append, Token.lineChars,
        List.length_append, List.length_singleton]
      omega

end Scan

namespace Source

/-- A pass over everything begins ready for the first token. -/
theorem exists_ready {src : Source} (table : src.Tabled) (words : Dictionary) :
    ∃ s : Scan src 0 (src.walkEnd src.size),
      src.allStyles words .free .plain = (s.run words .free).cursor.paint.styles ∧
        Scan.Ready words [] false false s ∧ s.cursor.pos = 0 := by
  have stop : src.walkEnd src.size = src.size + 1 := if_pos rfl
  have room : 0 < src.walkEnd src.size := by omega
  have begun := Scan.begun_fresh table (startsLine_zero src) (src.walkEnd src.size) .plain
  have again := Scan.beginLine_beginLine (s := Scan.fresh src 0 (src.walkEnd src.size) .plain)
    (Cursor.sound_atStart .plain (Nat.zero_le _))
  have run : (Scan.fresh src 0 (src.walkEnd src.size) .plain).beginLine.run words .free =
      (Scan.fresh src 0 (src.walkEnd src.size) .plain).run words .free :=
    Scan.run_beginLine (Cursor.sound_atStart .plain (Nat.zero_le _)) room
  have all : src.allStyles words .free .plain =
      ((Scan.fresh src 0 (src.walkEnd src.size) .plain).run words .free).cursor.paint.styles := rfl
  refine ⟨(Scan.fresh src 0 (src.walkEnd src.size) .plain).beginLine, by rw [all, run], ?_, begun.pos⟩
  refine ⟨begun.sound, begun.tracks, again, fun _ => .inl begun.state, nofun, nofun, ?_⟩
  rw [Cursor.settled_of_ne (by rw [begun.state]; decide),
    Cursor.styles_paint begun.sound begun.tracks.inside, Cursor.styles_eq_shades, begun.painted,
    begun.segment, begun.pos]
  rfl

/-- A pass over lines of tokens gives every token its style. -/
theorem allStyles_of_lines {src : Source} (table : src.Tabled) (words : Dictionary)
    {lines : List (List Token)}
    (quoteless : ∀ pos, src.char? pos ≠ some '"' ∧ src.char? pos ≠ some '\'')
    (proper : ∀ tokens ∈ lines, Token.Line false false tokens)
    (spells : src.Spells 0 (lines.flatMap Token.lineChars))
    (size : src.size = (lines.flatMap Token.lineChars).length) :
    src.allStyles words .free .plain = lines.flatMap (Token.lineStyles words) := by
  have stop : src.walkEnd src.size = src.size + 1 := if_pos rfl
  have length : (src.allStyles words .free .plain).length = src.size - 0 :=
    length_stylesFrom words .free (Nat.zero_le _) (Nat.le_refl _) .plain
  obtain ⟨s, all, ready, pos⟩ := exists_ready table words
  obtain ⟨t, run, ready', -, starts⟩ := ready.lines table (by omega) quoteless proper
    (pos.symm ▸ spells) (pos.symm ▸ startsLine_zero src)
  have notIdentifier : t.cursor.state ≠ .identifier := by
    rcases ready'.calm rfl with plain | operator
    · rw [plain]
      decide
    · rw [operator]
      decide
  have painted : lines.flatMap (Token.lineStyles words) = t.cursor.paint.styles := by
    rw [← Cursor.settled_of_ne notIdentifier, ready'.settled, List.nil_append]
  have before : t.cursor.paint.styles <+: (t.run words .free).cursor.paint.styles :=
    Span.shades_prefix
      (Scan.painted_run_of_atLineStart words .free (ready'.tracks.atLineStart.2 starts))
  rw [all, run] at length ⊢
  rw [painted]
  refine (before.eq_of_length ?_).symm
  rw [← painted, length, size, Token.length_flatMap_lineStyles]
  rfl

end Source

end FortranMarkup
