import FortranMarkup.Proofs.Styling.Resumption
import FortranMarkup.Proofs.Tokens.Basic

/-!
# Words that a scan paints

Whatever a scan paints in the style of a word is made of letters, digits and underscores. It has the
style that its spelling tells if a token rule has ended it; what a continuation mark or the columns
after the statement end is painted without a look at the dictionary (`Source.WordEnd`). Every
operation of a cursor and every step of a scan keeps what is painted so
(`Cursor.Worded`, `Scan.Between.step`), so it holds of all that a run paints
(`Scan.Between.wordsIn_run`).
-/

namespace FortranMarkup

/-- Whether a style is one that words have. -/
def Style.isWord (style : Style) : Bool :=
  style = .identifier || style.isListed

theorem Style.isWord_eq_false_iff {style : Style} :
    style.isWord = false ↔ style ≠ .identifier ∧ style.isListed = false := by
  simp [isWord]

theorem Style.ne_identifier {style : Style} (notWord : style.isWord = false) :
    style ≠ .identifier :=
  (isWord_eq_false_iff.1 notWord).1

namespace Source

/-- The column of a position on its line. -/
def columnAt (src : Source) (pos : Nat) : Nat :=
  pos - src.lineStart (src.lineAt pos)

/-- The word under which the bytes from one position up to another are looked up: their first
characters, in small letters. -/
def wordAt (src : Source) (first stop : Nat) : String :=
  String.ofList (((src.charsD first stop '\x00').take identifierCapacity).map Char.toLower)

/-- The style that the spelling of a word tells. -/
def wordStyle (src : Source) (words : Dictionary) (first stop : Nat) : Style :=
  (words.classify (src.wordAt first stop)).getD .identifier

/-- How a painted word ends, and what is known of its style then. -/
inductive WordEnd (src : Source) (words : Dictionary) (form : SourceForm) (painted : List Span)
    (span : Span) : Prop
  /-- A byte that goes on with no word ends it. -/
  | closed (other : isNameChar (src.charD span.stop '\x00') = false)
      (column : form = .fixed → src.columnAt span.stop < tailColumn)
      (style : span.style = src.wordStyle words span.start span.stop)
  /-- A continuation mark ends it. -/
  | continued (free : form = .free) (mark : src.charD span.stop '\x00' = '&')
      (styled : ⟨span.stop, span.stop + 1, .continuation⟩ ∈ painted)
  /-- The columns after the statement end it. -/
  | cut (fixed : form = .fixed) (column : tailColumn ≤ src.columnAt span.stop)
      (style : span.style = .identifier)

/-- A word as scans paint it. -/
structure PaintedWord (src : Source) (words : Dictionary) (form : SourceForm)
    (painted : List Span) (span : Span) : Prop where
  names : ∀ pos, span.start ≤ pos → pos < span.stop → isNameChar (src.charD pos '\x00') = true
  ending : src.WordEnd words form painted span

/-- All spans that have the style of a word are words as scans paint them. -/
def WordsIn (src : Source) (words : Dictionary) (form : SourceForm) (painted : List Span) : Prop :=
  ∀ span ∈ painted, span.style.isWord = true → src.PaintedWord words form painted span

variable {src : Source} {words : Dictionary} {form : SourceForm} {painted : List Span} {span : Span}

theorem PaintedWord.cons (word : src.PaintedWord words form painted span) (later : Span) :
    src.PaintedWord words form (later :: painted) span := by
  refine ⟨word.names, ?_⟩
  cases word.ending with
  | closed other column style => exact .closed other column style
  | continued free mark styled => exact .continued free mark (List.mem_cons_of_mem _ styled)
  | cut fixed column style => exact .cut fixed column style

theorem WordsIn.cons (all : src.WordsIn words form painted) (later : Span)
    (word : later.style.isWord = true → src.PaintedWord words form (later :: painted) later) :
    src.WordsIn words form (later :: painted) := by
  intro span mem isWord
  rcases List.mem_cons.1 mem with rfl | old
  · exact word isWord
  · exact (all span old isWord).cons later

theorem columnAt_succ (table : src.Tabled) {pos : Nat}
    (inLine : isLineEnd (src.charD pos '\x00') = false) :
    src.lineAt (pos + 1) = src.lineAt pos ∧ src.columnAt (pos + 1) = src.columnAt pos + 1 := by
  have stays : ¬endsLineAt src.bytes pos = true := by
    intro ends
    rw [isLineEnd_of_endsLineAt _ ends] at inLine
    cases inLine
  have line : src.lineAt (pos + 1) = src.lineAt pos := by rw [lineAt_succ table, if_neg stays]
  have low := lineStart_lineAt_le table pos
  refine ⟨line, ?_⟩
  rw [columnAt, columnAt, line]
  omega

theorem PaintedWord.lineAt_eq (word : src.PaintedWord words form painted span)
    (table : src.Tabled) {pos : Nat} (low : span.start ≤ pos) (high : pos ≤ span.stop) :
    src.lineAt pos = src.lineAt span.start := by
  induction pos with
  | zero =>
    obtain start : span.start = 0 := Nat.le_zero.1 low
    rw [start]
  | succ pos ih =>
    rcases Nat.lt_or_eq_of_le low with later | first
    · have name := word.names pos (by omega) high
      rw [(columnAt_succ table (isLineEnd_of_isNameChar name)).1, ih (by omega) (by omega)]
    · rw [first]

end Source

/-! ## Cursors -/

namespace Cursor

variable {src : Source} {start stop : Nat} {words : Dictionary} {form : SourceForm}

/-- A cursor in the text whose painted words are right so far, and whose open identifier, if it has
one, is made of letters, digits and underscores. -/
structure Worded (words : Dictionary) (form : SourceForm) (c : Cursor src start stop) : Prop where
  sound : c.Sound
  tracks : c.Tracks
  painted : src.WordsIn words form c.painted
  unlisted : c.state.isListed = false
  names : c.state = .identifier →
    ∀ pos, c.segment ≤ pos → pos < c.pos → isNameChar (src.charD pos '\x00') = true

theorem Tracks.column_eq {c : Cursor src start stop} (tracks : c.Tracks) :
    c.column = src.columnAt c.pos := by
  rw [column, tracks.line, Source.columnAt]

theorem Tracks.lt_size {c : Cursor src start stop} (tracks : c.Tracks) (here : c.ch ≠ '\x00') :
    c.pos < src.size :=
  Source.lt_size_of_charD (tracks.ch ▸ here)

theorem Tracks.lt_size_of_atLineEnd {c : Cursor src start stop} (tracks : c.Tracks)
    (table : src.Tabled) (inLine : c.atLineEnd = false) : c.pos < src.size := by
  rcases Nat.lt_or_eq_of_le tracks.inside with less | last
  · exact less
  · have lines := Source.lineAt_size table
    have past : src.lineStart (src.lineAt src.size + 1) = src.size :=
      Source.lineStart_of_le (by omega)
    rw [tracks.atLineEnd, tracks.line, last, Source.endsLine, if_neg (by omega), Source.lineEnd,
      past] at inLine
    simp at inLine

/-- Painting keeps words right if the open segment is one or has another style. -/
theorem wordsIn_paint {c : Cursor src start stop} (tracks : c.Tracks)
    (painted : src.WordsIn words form c.painted)
    (word : c.segment < c.pos → c.state.isWord = true →
      src.PaintedWord words form (⟨c.segment, c.pos, c.state⟩ :: c.painted)
        ⟨c.segment, c.pos, c.state⟩) : src.WordsIn words form c.paint.painted := by
  rw [painted_paint, Nat.min_eq_left tracks.inside]
  split
  · rename_i filled
    exact painted.cons _ (word filled)
  · exact painted

section Worded

variable {c : Cursor src start stop}

theorem Worded.of_paint (sound : c.Sound) (tracks : c.Tracks)
    (painted : src.WordsIn words form c.paint.painted) {state : Style}
    (unlisted : state.isListed = false) : (c.setState state).Worded words form := by
  refine ⟨sound_relabel (sound_paint sound) state, tracks.paint.relabel state, painted, unlisted, ?_⟩
  intro _ pos low high
  have segment : (c.setState state).segment = c.pos :=
    (segment_paint sound).trans (Nat.min_eq_left tracks.inside)
  rw [segment] at low
  exact absurd high (Nat.not_lt_of_le low)

theorem Worded.wordsIn_paint (worded : c.Worded words form) (calm : c.state ≠ .identifier) :
    src.WordsIn words form c.paint.painted := by
  apply Cursor.wordsIn_paint worded.tracks worded.painted
  intro _ isWord
  rw [Style.isWord_eq_false_iff.2 ⟨calm, worded.unlisted⟩] at isWord
  cases isWord

theorem Worded.setState (worded : c.Worded words form) (calm : c.state ≠ .identifier)
    {state : Style} (unlisted : state.isListed = false) : (c.setState state).Worded words form :=
  .of_paint worded.sound worded.tracks (worded.wordsIn_paint calm) unlisted

theorem Worded.setState_of_empty (worded : c.Worded words form) (empty : c.segment = c.pos)
    {state : Style} (unlisted : state.isListed = false) :
    (c.setState state).Worded words form := by
  refine .of_paint worded.sound worded.tracks ?_ unlisted
  rw [paint_of_segment (empty ▸ Nat.min_le_left _ _)]
  exact worded.painted

theorem Worded.state_of_isWord (worded : c.Worded words form) (isWord : c.state.isWord = true) :
    c.state = .identifier := by
  simpa [Style.isWord, worded.unlisted] using isWord

theorem Worded.cut (worded : c.Worded words form) (fixed : form = .fixed)
    (column : tailColumn ≤ src.columnAt c.pos) {state : Style}
    (unlisted : state.isListed = false) : (c.setState state).Worded words form := by
  refine .of_paint worded.sound worded.tracks ?_ unlisted
  refine Cursor.wordsIn_paint worded.tracks worded.painted ?_
  intro _ isWord
  have identifier := worded.state_of_isWord isWord
  exact ⟨worded.names identifier, .cut fixed column identifier⟩

theorem Worded.close (worded : c.Worded words form) (identifier : c.state = .identifier)
    (other : isNameChar c.ch = false) (column : form = .fixed → src.columnAt c.pos < tailColumn) :
    (Scan.closeIdentifier c words).Worded words form := by
  refine .of_paint (sound_relabel worded.sound _) (worded.tracks.relabel _) ?_ rfl
  refine Cursor.wordsIn_paint (worded.tracks.relabel _) worded.painted ?_
  intro _ _
  refine ⟨worded.names identifier, .closed (worded.tracks.ch ▸ other) column ?_⟩
  change (words.classify _).getD c.state = src.wordStyle words c.segment c.pos
  rw [identifier]
  rfl

theorem Worded.mark (table : src.Tabled) (room : src.size < stop) (worded : c.Worded words form)
    (free : form = .free) (mark : c.ch = '&') {state : Style} (unlisted : state.isListed = false) :
    ((c.setState .continuation).forwardSetState state).Worded words form := by
  have inside : c.pos < src.size := worded.tracks.lt_size (by rw [mark]; decide)
  have more : c.pos < stop := Nat.lt_trans inside room
  have painted : (c.setState .continuation).forward.paint.painted =
      ⟨c.pos, c.pos + 1, .continuation⟩ :: c.paint.painted :=
    Scan.painted_pastMark (s := ⟨c, 0, .plain⟩) worded.sound inside more
  have sound : (c.setState .continuation).Sound :=
    sound_relabel (sound_paint worded.sound) .continuation
  have tracks : (c.setState .continuation).Tracks := worded.tracks.paint.relabel .continuation
  refine .of_paint (sound_forward sound) (tracks.forward table inside more) ?_ unlisted
  rw [painted]
  -- The mark is the last span; an open identifier is the one before it, which the mark ends.
  intro span mem isWord
  rcases List.mem_cons.1 mem with rfl | before
  · cases isWord
  rw [painted_paint, Nat.min_eq_left worded.tracks.inside] at before ⊢
  by_cases filled : c.segment < c.pos
  · rw [if_pos filled] at before ⊢
    rcases List.mem_cons.1 before with rfl | old
    · have identifier := worded.state_of_isWord isWord
      exact ⟨worded.names identifier,
        .continued free (worded.tracks.ch ▸ mark) List.mem_cons_self⟩
    · exact ((worded.painted span old isWord).cons _).cons _
  · rw [if_neg filled] at before ⊢
    exact (worded.painted span before isWord).cons _

theorem Worded.relabel (worded : c.Worded words form) {state : Style}
    (notWord : state.isWord = false) : (c.relabel state).Worded words form := by
  obtain ⟨other, unlisted⟩ := Style.isWord_eq_false_iff.1 notWord
  exact ⟨sound_relabel worded.sound state, worded.tracks.relabel state, worded.painted, unlisted,
    fun same => absurd same other⟩

theorem Worded.forward (table : src.Tabled) (room : src.size < stop)
    (worded : c.Worded words form) (inside : c.pos < src.size)
    (goesOn : c.state = .identifier → isNameChar c.ch = true) : c.forward.Worded words form := by
  have more : c.pos < stop := Nat.lt_trans inside room
  refine ⟨sound_forward worded.sound, worded.tracks.forward table inside more, ?_, ?_, ?_⟩
  · rw [painted_forward]
    exact worded.painted
  · rw [state_forward]
    exact worded.unlisted
  · rw [state_forward, segment_forward, pos_forward, if_pos more]
    intro identifier pos low high
    rcases Nat.lt_or_eq_of_le (Nat.le_of_lt_succ high) with before | rfl
    · exact worded.names identifier pos low before
    · rw [← worded.tracks.ch]
      exact goesOn identifier

theorem Worded.toLineEnd (table : src.Tabled) (room : src.size < stop)
    (worded : c.Worded words form) (calm : c.state ≠ .identifier) :
    c.toLineEnd.Worded words form ∧ c.toLineEnd.state = c.state := by
  fun_induction Cursor.toLineEnd c with
  | case1 c going ih =>
    have inside := worded.tracks.lt_size_of_atLineEnd table going.1
    have moved := worded.forward table room inside (fun same => absurd same calm)
    rw [← state_forward c] at calm ⊢
    exact ih moved calm
  | case2 => exact ⟨worded, rfl⟩

end Worded

end Cursor

/-! ## Steps -/

namespace Scan

variable {src : Source} {start stop : Nat} {words : Dictionary} {form : SourceForm}
  {s : Scan src start stop}

/-- A scan between two turns. -/
structure Between (words : Dictionary) (form : SourceForm) (s : Scan src start stop) : Prop where
  cursor : s.cursor.Worded words form
  carried : s.carried.isWord = false
  filled : s.cursor.state = .identifier → s.cursor.segment < s.cursor.pos
  counted : s.cursor.state = .identifier → 0 < s.nonBlank
  column : s.cursor.state = .identifier → form = .fixed → markColumn < s.cursor.column

/-- A scan that has handled the byte at its cursor. -/
structure Handled (words : Dictionary) (form : SourceForm) (s : Scan src start stop) : Prop where
  cursor : s.cursor.Worded words form
  carried : s.carried.isWord = false
  name : s.cursor.state = .identifier → isNameChar s.cursor.ch = true
  counted : s.cursor.state = .identifier → 0 < s.nonBlank
  column : s.cursor.state = .identifier → form = .fixed → markColumn < s.cursor.column

theorem Handled.of_calm (cursor : s.cursor.Worded words form) (carried : s.carried.isWord = false)
    (calm : s.cursor.state ≠ .identifier) : Handled words form s :=
  ⟨cursor, carried, fun same => absurd same calm, fun same => absurd same calm,
    fun same => absurd same calm⟩

/-- A scan at a byte that token rules handle. -/
structure AtToken (words : Dictionary) (form : SourceForm) (s : Scan src start stop) : Prop where
  cursor : s.cursor.Worded words form
  carried : s.carried.isWord = false
  counted : isSpaceOrTab s.cursor.ch = true ∨ 0 < s.nonBlank
  column : form = .fixed → markColumn < s.cursor.column

theorem AtToken.counted_of_ne (token : AtToken words form s)
    (visible : isSpaceOrTab s.cursor.ch = false) : 0 < s.nonBlank := by
  rcases token.counted with space | counted
  · rw [visible] at space
    cases space
  · exact counted

theorem isSpaceOrTab_of_isNameChar {c : Char} (name : isNameChar c = true) :
    isSpaceOrTab c = false := by
  simp [isSpaceOrTab, ne_of_isNameChar name (show isNameChar ' ' = false from rfl),
    ne_of_isNameChar name (show isNameChar '\t' = false from rfl)]

theorem AtToken.handled (token : AtToken words form s)
    (name : s.cursor.state = .identifier → isNameChar s.cursor.ch = true) :
    Handled words form s :=
  ⟨token.cursor, token.carried, name,
    fun same => token.counted_of_ne (isSpaceOrTab_of_isNameChar (name same)),
    fun _ => token.column⟩

theorem AtToken.stay (token : AtToken words form s) {c : Cursor src start stop} {carried : Style}
    (worded : c.Worded words form) (notWord : carried.isWord = false)
    (pos : c.pos = s.cursor.pos) : AtToken words form ⟨c, s.nonBlank, carried⟩ := by
  have ch : c.ch = s.cursor.ch := by rw [worded.tracks.ch, token.cursor.tracks.ch, pos]
  have column : c.column = s.cursor.column := by
    rw [worded.tracks.column_eq, token.cursor.tracks.column_eq, pos]
  refine ⟨worded, notWord, ?_, ?_⟩
  · rw [show (Scan.mk c s.nonBlank carried).cursor.ch = s.cursor.ch from ch]
    exact token.counted
  · rw [show (Scan.mk c s.nonBlank carried).cursor.column = s.cursor.column from column]
    exact token.column

theorem AtToken.pass (table : src.Tabled) (token : AtToken words form s)
    (visible : isSpaceOrTab s.cursor.ch = false) (inLine : isLineEnd s.cursor.ch = false)
    {c : Cursor src start stop} {carried : Style} (worded : c.Worded words form)
    (notWord : carried.isWord = false) (pos : c.pos = s.cursor.pos + 1) :
    AtToken words form ⟨c, s.nonBlank, carried⟩ := by
  refine ⟨worded, notWord, .inr (token.counted_of_ne visible), ?_⟩
  -- A byte that ends no line is followed by one in a later column of the same line.
  intro fixed
  have before := token.column fixed
  rw [token.cursor.tracks.column_eq] at before
  rw [token.cursor.tracks.ch] at inLine
  change markColumn < c.column
  rw [worded.tracks.column_eq, pos, (Source.columnAt_succ table inLine).2]
  omega

/-- A scan after the rule that closes tokens: if it has left an identifier open, the byte at the
cursor goes on with it. -/
structure ClosedToken (words : Dictionary) (form : SourceForm) (s : Scan src start stop) : Prop where
  token : AtToken words form s
  name : s.cursor.state = .identifier → isNameChar s.cursor.ch = true

theorem AtToken.closed_of_calm (token : AtToken words form s) (calm : s.cursor.state ≠ .identifier) :
    ClosedToken words form s :=
  ⟨token, fun same => absurd same calm⟩

theorem AtToken.closed_setState (token : AtToken words form s)
    (calm : s.cursor.state ≠ .identifier) :
    ClosedToken words form (s.withCursor (s.cursor.setState .plain)) :=
  closed_of_calm (token.stay (token.cursor.setState calm rfl) token.carried rfl)
    (Style.ne_identifier rfl)

theorem isNameChar_iff {c : Char} : isNameChar c = true ↔ (isWordChar c && c ≠ '%') = true := by
  by_cases percent : c = '%'
  · subst percent
    decide
  · simp [isNameChar, isWordChar, percent]

theorem commentStyle_isWord (c : Cursor src start stop) (beginnings : List String) :
    (commentStyle c beginnings).isWord = false := by
  unfold commentStyle
  split <;> rfl

theorem handled_of_preprocessor (worded : s.cursor.Worded words form)
    (carried : s.carried.isWord = false) (state : s.cursor.state = .preprocessor) :
    Handled words form
      (if (s.closeToken words form).cursor.state = .plain then
        (s.closeToken words form).openToken form else s.closeToken words form) := by
  have calm : s.cursor.state ≠ .identifier := by rw [state]; decide
  by_cases ends : isLineEnd s.cursor.ch = true
  · have closed : s.closeToken words form = s.withCursor (s.cursor.setState .plain) := by
      simp only [Scan.closeToken, state, if_pos ends]
    have stays := Alike.openToken_of_lineEnd (s := s.withCursor (s.cursor.setState .plain)) ends form
    rw [closed, stays, ite_self]
    exact .of_calm (worded.setState calm rfl) carried (Style.ne_identifier rfl)
  · have closed : s.closeToken words form = s := by
      simp only [Scan.closeToken, state, if_neg ends]
    rw [closed, if_neg (by rw [state]; decide)]
    exact .of_calm worded carried calm

section Tokens

variable (table : src.Tabled) (room : src.size < stop)
include table room

theorem AtToken.literalStep (token : AtToken words form s) {quote : Char}
    (isQuote : quote = '\'' ∨ quote = '"') (calm : s.cursor.state.isWord = false) :
    ClosedToken words form (s.literalStep quote) := by
  have notIdentifier : s.cursor.state ≠ .identifier := Style.ne_identifier calm
  unfold Scan.literalStep
  dsimp only
  split
  · rename_i here
    have facts : isSpaceOrTab s.cursor.ch = false ∧ isLineEnd s.cursor.ch = false ∧
        s.cursor.ch ≠ '\x00' := by
      rw [here]
      rcases isQuote with rfl | rfl
      · decide
      · decide
    have inside := token.cursor.tracks.lt_size facts.2.2
    have pos : s.cursor.forward.pos = s.cursor.pos + 1 := by
      rw [Cursor.pos_forward, if_pos (Nat.lt_trans inside room)]
    have moved := token.cursor.forward table room inside (fun same => absurd same notIdentifier)
    rw [← Cursor.state_forward] at notIdentifier
    split
    · exact closed_of_calm (token.pass table facts.1 facts.2.1 moved calm pos) notIdentifier
    · exact closed_of_calm (token.pass table facts.1 facts.2.1 (moved.setState notIdentifier rfl)
        rfl pos) (Style.ne_identifier rfl)
  · exact closed_of_calm (token.stay token.cursor calm rfl) notIdentifier

theorem AtToken.closeToken (token : AtToken words form s)
    (column : form = .fixed → s.cursor.column < tailColumn) :
    ClosedToken words form (s.closeToken words form) := by
  have worded := token.cursor
  cases state : s.cursor.state <;> simp only [Scan.closeToken, state]
  case identifier =>
    split
    · rename_i goesOn
      exact ⟨token, fun _ => isNameChar_iff.2 goesOn⟩
    · rename_i ends
      have other : isNameChar s.cursor.ch = false := by
        rwa [← isNameChar_iff, Bool.not_eq_true] at ends
      rw [worded.tracks.column_eq] at column
      exact closed_of_calm (token.stay (worded.close state other column) token.carried rfl)
        (Style.ne_identifier rfl)
  all_goals have calm : s.cursor.state ≠ .identifier := by rw [state]; decide
  case operator | continuation => exact token.closed_setState calm
  case number | label =>
    split
    · exact token.closed_of_calm calm
    · exact token.closed_setState calm
  case comment | preprocessor =>
    split
    · exact token.closed_setState calm
    · exact token.closed_of_calm calm
  case apostropheLiteral | quoteLiteral =>
    have notWord : s.cursor.state.isWord = false := by rw [state]; rfl
    split
    · exact closed_of_calm (token.stay (worded.relabel rfl) notWord rfl) (Style.ne_identifier rfl)
    · exact token.literalStep table room (by simp) notWord
  case dottedOperator =>
    split
    · rename_i stopped
      have inside := worded.tracks.lt_size (by rw [stopped]; decide)
      have moved := worded.forward table room inside (fun same => absurd same calm)
      have pos : s.cursor.forward.pos = s.cursor.pos + 1 := by
        rw [Cursor.pos_forward, if_pos (Nat.lt_trans inside room)]
      have notIdentifier : s.cursor.forward.state ≠ .identifier := by
        rwa [Cursor.state_forward]
      exact closed_of_calm (token.pass table (by rw [stopped]; decide) (by rw [stopped]; decide)
        (moved.setState notIdentifier rfl) token.carried pos) (Style.ne_identifier rfl)
    · exact token.closed_of_calm calm
  all_goals exact token.closed_of_calm calm

theorem AtToken.openToken (token : AtToken words form s) (plain : s.cursor.state = .plain) :
    Handled words form (s.openToken form) := by
  have calm : s.cursor.state ≠ .identifier := by rw [plain]; decide
  have opened {style : Style} (notWord : style.isWord = false) :
      Handled words form (s.withCursor (s.cursor.setState style)) := by
    obtain ⟨other, unlisted⟩ := Style.isWord_eq_false_iff.1 notWord
    exact .of_calm (token.cursor.setState calm unlisted) token.carried other
  unfold Scan.openToken
  dsimp only
  split
  · exact opened (commentStyle_isWord _ _)
  split
  · exact opened rfl
  split
  · exact opened rfl
  split
  · rename_i radix
    have inside : s.cursor.pos < src.size := by
      apply token.cursor.tracks.lt_size
      intro none
      rw [none] at radix
      simp at radix
    have numbered : (s.cursor.setState .number).Worded words form := token.cursor.setState calm rfl
    have other : (s.cursor.setState .number).state ≠ .identifier := Style.ne_identifier rfl
    have moved := numbered.forward table room inside (fun same => absurd same other)
    have state : (s.cursor.setState .number).forward.state = .number := Cursor.state_forward _
    exact .of_calm moved token.carried (by rw [cursor_withCursor, state]; decide)
  split
  · exact opened rfl
  split
  · rename_i wordStart
    have name : isNameChar s.cursor.ch = true := by
      rw [isNameChar, show s.cursor.ch.isAlphanum = true from wordStart, Bool.true_or]
    have stays : AtToken words form (s.withCursor (s.cursor.setState .identifier)) :=
      token.stay (token.cursor.setState calm rfl) token.carried rfl
    exact stays.handled (fun _ => name)
  split
  · exact opened rfl
  split
  · exact opened rfl
  split
  · exact opened rfl
  · exact token.handled (fun same => absurd same calm)

/-- The rules for tokens handle a byte, unless it is a number sign that an identifier stands before
and that is counted as the first one of its line. -/
theorem AtToken.tokenStep (token : AtToken words form s)
    (column : form = .fixed → s.cursor.column < tailColumn)
    (sign : s.cursor.state = .identifier → s.cursor.ch = '#' → s.nonBlank = 1 →
      s.cursor.segment = s.cursor.pos) : Handled words form (s.tokenStep words form) := by
  unfold Scan.tokenStep
  dsimp only
  -- The line of a number sign is painted without a look at what is open before the sign.
  by_cases isSign : s.cursor.ch = '#' ∧ s.nonBlank = 1
  · have begun : (s.cursor.setState .preprocessor).Worded words form := by
      by_cases identifier : s.cursor.state = .identifier
      · exact token.cursor.setState_of_empty (sign identifier isSign.1 isSign.2) rfl
      · exact token.cursor.setState identifier rfl
    obtain ⟨ended, state⟩ := begun.toLineEnd table room (Style.ne_identifier rfl)
    rw [numberSignStep, if_pos isSign]
    exact handled_of_preprocessor ended token.carried state
  · have same : s.numberSignStep = s := by rw [numberSignStep, if_neg isSign]
    have closed := token.closeToken table room column
    rw [same]
    split
    · rename_i plain
      exact closed.token.openToken table room plain
    · exact closed.token.handled closed.name

/-! ### Columns of fixed form and continuation marks -/

/-- In the columns before the statement no word is open, and those after it cut one off. -/
theorem handled_fixedStep (worded : s.cursor.Worded words .fixed) (carried : s.carried.isWord = false)
    (columns : s.cursor.column ≤ markColumn ∨ tailColumn ≤ s.cursor.column)
    (inside : s.cursor.column = markColumn → s.cursor.pos < src.size)
    (cut : s.cursor.state = .identifier → tailColumn ≤ s.cursor.column) :
    Handled words .fixed (s.fixedStep s.cursor.column) := by
  -- Only the columns after the statement can find an identifier open, and they end it unread.
  have set {style : Style} (unlisted : style.isListed = false) :
      (s.cursor.setState style).Worded words .fixed := by
    by_cases identifier : s.cursor.state = .identifier
    · exact worded.cut rfl (worded.tracks.column_eq ▸ cut identifier) unlisted
    · exact worded.setState identifier unlisted
  have toEnd {style : Style} (notWord : style.isWord = false) :
      Handled words .fixed (s.withCursor (s.cursor.setState style).toLineEnd) := by
    obtain ⟨other, unlisted⟩ := Style.isWord_eq_false_iff.1 notWord
    obtain ⟨ended, state⟩ := (set unlisted).toLineEnd table room other
    exact .of_calm ended carried (by rw [cursor_withCursor, state]; exact other)
  unfold fixedStep
  dsimp only
  split
  · exact toEnd (commentStyle_isWord _ _)
  split
  · exact toEnd rfl
  rename_i early
  split
  · split
    · exact .of_calm (set rfl) carried (Style.ne_identifier rfl)
    · exact .of_calm (set rfl) carried (Style.ne_identifier rfl)
  rename_i late
  have before : s.cursor.pos < src.size := inside (by omega)
  unfold markStep
  dsimp only
  split
  · exact .of_calm (set rfl) rfl (Style.ne_identifier rfl)
  split
  · exact .of_calm (set rfl) rfl (Style.ne_identifier rfl)
  · obtain ⟨notIdentifier, unlisted⟩ := Style.isWord_eq_false_iff.1 carried
    have begun : (s.cursor.setState .continuation).Worded words .fixed := set rfl
    have other : (s.cursor.setState .continuation).state ≠ .identifier := Style.ne_identifier rfl
    have marked := begun.forward table room before (fun same => absurd same other)
    refine .of_calm (marked.setState ?_ unlisted) carried notIdentifier
    rwa [Cursor.state_forward]

omit table room in
@[simp] theorem carried_countByte (s : Scan src start stop) :
    s.countByte.carried = s.carried := by
  unfold countByte
  split <;> rfl

omit table room in
theorem counted_countByte (s : Scan src start stop) :
    isSpaceOrTab s.countByte.cursor.ch = true ∨ 0 < s.countByte.nonBlank := by
  rw [cursor_countByte]
  unfold countByte
  split
  · exact .inl (by assumption)
  · exact .inr (Nat.succ_pos _)

theorem worded_skipSpaces (worded : s.cursor.Worded words form) (calm : s.cursor.state ≠ .identifier)
    (counted : isSpaceOrTab s.cursor.ch = true ∨ 0 < s.nonBlank) :
    s.skipSpaces.cursor.Worded words form ∧ s.skipSpaces.carried = s.carried ∧
      (isSpaceOrTab s.skipSpaces.cursor.ch = true ∨ 0 < s.skipSpaces.nonBlank) := by
  fun_induction Scan.skipSpaces s with
  | case1 s going ih =>
    have inside := worded.tracks.lt_size (by intro none; rw [none] at going; cases going.1)
    have moved := worded.forward table room inside (fun same => absurd same calm)
    have cursor : s.skipOne.cursor = s.cursor.forward := cursor_skipOne s
    replace ih : s.skipOne.cursor.Worded words form → s.skipOne.cursor.state ≠ .identifier →
        (isSpaceOrTab s.skipOne.cursor.ch = true ∨ 0 < s.skipOne.nonBlank) →
        s.skipOne.skipSpaces.cursor.Worded words form ∧
          s.skipOne.skipSpaces.carried = s.skipOne.carried ∧
          (isSpaceOrTab s.skipOne.skipSpaces.cursor.ch = true ∨
            0 < s.skipOne.skipSpaces.nonBlank) := ih
    obtain ⟨skipped, carried, shown⟩ := ih (cursor ▸ moved)
      (by rwa [cursor, Cursor.state_forward]) (counted_countByte _)
    exact ⟨skipped, carried.trans (carried_countByte _), shown⟩
  | case2 => exact ⟨worded, rfl, counted⟩

theorem AtToken.resumeNextLine (token : AtToken words .free s) (mark : s.cursor.ch = '&') :
    AtToken words .free s.resumeNextLine ∧
      s.resumeNextLine.cursor.segment = s.resumeNextLine.cursor.pos := by
  have visible : isSpaceOrTab s.cursor.ch = false := by rw [mark]; decide
  have past : s.pastMark.cursor.Worded words .free :=
    token.cursor.mark table room rfl mark rfl
  obtain ⟨skipped, carried, counted⟩ :=
    worded_skipSpaces table room past (Style.ne_identifier rfl)
      (.inr (token.counted_of_ne visible))
  have state : s.pastMark.skipSpaces.cursor.state = .plain := (skipSpaces_cursor _).2
  have calm : s.pastMark.skipSpaces.cursor.state ≠ .identifier := by rw [state]; decide
  have led : (skipLeadingMark s.pastMark.skipSpaces.cursor).Worded words .free ∧
      (skipLeadingMark s.pastMark.skipSpaces.cursor).state ≠ .identifier ∧
      (isSpaceOrTab (skipLeadingMark s.pastMark.skipSpaces.cursor).ch = true ∨
        0 < s.pastMark.skipSpaces.nonBlank) := by
    unfold skipLeadingMark
    split
    · rename_i again
      have inside := skipped.tracks.lt_size (by rw [again]; decide)
      have marked : (s.pastMark.skipSpaces.cursor.setState .continuation).Worded words .free :=
        skipped.setState calm rfl
      have other : (s.pastMark.skipSpaces.cursor.setState .continuation).state ≠ .identifier :=
        Style.ne_identifier rfl
      refine ⟨marked.forward table room inside (fun same => absurd same other), ?_, .inr ?_⟩
      · rwa [Cursor.state_forward]
      · rcases counted with space | counted
        · rw [again] at space
          cases space
        · exact counted
    · exact ⟨skipped, calm, counted⟩
  have resumed := led.1.setState led.2.1 token.cursor.unlisted
  have notWord : s.pastMark.skipSpaces.carried.isWord = false := carried ▸ token.carried
  refine ⟨⟨resumed, notWord, led.2.2, fun fixed => absurd fixed (by decide)⟩, ?_⟩
  exact (Cursor.segment_paint led.1.sound).trans (Nat.min_eq_left led.1.tracks.inside)

theorem AtToken.ampersandStep (token : AtToken words .free s) (mark : s.cursor.ch = '&') :
    AtToken words .free s.ampersandStep ∧
      (s.ampersandStep.cursor.state = .identifier → s.ampersandStep.cursor.ch = '#' →
        s.ampersandStep.nonBlank = 1 →
          s.ampersandStep.cursor.segment = s.ampersandStep.cursor.pos) := by
  have inside := token.cursor.tracks.lt_size (by rw [mark]; decide)
  unfold Scan.ampersandStep
  dsimp only
  split
  · have pos : (s.cursor.setState .continuation).forward.pos = s.cursor.pos + 1 := by
      rw [Cursor.pos_forward, Cursor.pos_setState, if_pos (Nat.lt_trans inside room)]
    have passed {style : Style} (unlisted : style.isListed = false) :=
      token.pass table (by rw [mark]; decide) (by rw [mark]; decide)
        (token.cursor.mark table room rfl mark unlisted) token.carried pos
    have calm {t : Scan src start stop} (notWord : t.cursor.state.isWord = false) :
        t.cursor.state = .identifier → t.cursor.ch = '#' → t.nonBlank = 1 →
          t.cursor.segment = t.cursor.pos :=
      fun same => absurd same (Style.ne_identifier notWord)
    split
    · exact ⟨passed rfl, calm rfl⟩
    · exact ⟨passed rfl, calm rfl⟩
  split
  · obtain ⟨resumed, empty⟩ := token.resumeNextLine table room mark
    exact ⟨resumed, fun _ _ _ => empty⟩
  · refine ⟨token, ?_⟩
    intro _ sign
    rw [mark] at sign
    cases sign

/-! ### Turns -/

omit table room in
/-- A scan at the start of a pass has no word open. -/
theorem Begun.between {first : Nat} (begun : Begun first [] s)
    (carried : s.carried.isWord = false) : Between words form s := by
  have plain := begun.state
  have calm : s.cursor.state ≠ .identifier := by rw [plain]; decide
  refine ⟨⟨begun.sound, begun.tracks, ?_, ?_, fun same => absurd same calm⟩, carried,
    fun same => absurd same calm, fun same => absurd same calm, fun same => absurd same calm⟩
  · rw [begun.painted]
    intro _ mem
    cases mem
  · rw [plain]
    rfl

omit table room in
/-- No identifier is open where a line starts. -/
theorem Between.not_starts (between : Between words form s)
    (identifier : s.cursor.state = .identifier) : ¬src.StartsLine s.cursor.pos := by
  intro starts
  have filled := between.filled identifier
  obtain ⟨pos, here⟩ : ∃ pos, s.cursor.pos = pos + 1 := ⟨s.cursor.pos - 1, by omega⟩
  rw [here, Source.startsLine_succ] at starts
  have name := between.cursor.names identifier pos (by omega) (by omega)
  have inLine := isLineEnd_of_isNameChar name
  rw [Source.isLineEnd_of_endsLineAt _ starts] at inLine
  cases inLine

omit table room in
theorem Between.beginLine (between : Between words form s) : Between words form s.beginLine := by
  unfold Scan.beginLine
  split
  · rename_i starts
    have calm : s.cursor.state ≠ .identifier := fun identifier =>
      between.not_starts identifier (between.cursor.tracks.atLineStart.1 starts)
    have other : (s.cursor.setState .plain).state ≠ .identifier := Style.ne_identifier rfl
    exact ⟨between.cursor.setState calm rfl, between.carried, fun same => absurd same other,
      fun same => absurd same other, fun same => absurd same other⟩
  · exact between

theorem Between.step (between : Between words form s)
    (inside : form = .fixed → s.cursor.column = markColumn → s.cursor.pos < src.size) :
    Handled words form (s.step words form) := by
  have begun := between.beginLine
  have column := column_beginLine s
  have pos := pos_beginLine s
  have counted := counted_countByte s.beginLine
  rw [← column, ← pos] at inside
  unfold Scan.step
  dsimp only
  generalize s.beginLine = s at *
  have worded : s.countByte.cursor.Worded words form := by
    rw [cursor_countByte]
    exact begun.cursor
  have carried : s.countByte.carried.isWord = false := by
    rw [carried_countByte]
    exact begun.carried
  have sign : s.countByte.cursor.state = .identifier → s.countByte.cursor.ch = '#' →
      s.countByte.nonBlank = 1 → s.countByte.cursor.segment = s.countByte.cursor.pos := by
    intro identifier isSign one
    rw [cursor_countByte] at identifier isSign
    have before := begun.counted identifier
    rw [countByte, isSign, if_neg (by decide)] at one
    have one : s.nonBlank + 1 = 1 := one
    omega
  cases form with
  | fixed =>
    dsimp only
    split
    · rename_i columns
      refine handled_fixedStep table room worded carried columns ?_ ?_
      · rw [cursor_countByte]
        exact inside rfl
      · intro identifier
        rw [cursor_countByte] at identifier columns ⊢
        have after := begun.column identifier rfl
        omega
    · rename_i columns
      have token : AtToken words .fixed s.countByte :=
        ⟨worded, carried, counted, fun _ => by omega⟩
      exact token.tokenStep table room (fun _ => by omega) sign
  | free =>
    have other : SourceForm.free ≠ .fixed := by decide
    have token : AtToken words .free s.countByte :=
      ⟨worded, carried, counted, fun fixed => absurd fixed other⟩
    dsimp only
    split
    · rename_i mark
      obtain ⟨marked, sign⟩ := token.ampersandStep table room mark.1
      exact marked.tokenStep table room (fun fixed => absurd fixed other) sign
    · exact token.tokenStep table room (fun fixed => absurd fixed other) sign

theorem Handled.advance (handled : Handled words form (s.step words form))
    (inside : (s.step words form).cursor.pos < src.size) :
    Between words form (s.advance words form) := by
  have worded := handled.cursor
  have more := Nat.lt_trans inside room
  have moved := worded.forward table room inside handled.name
  have state : (s.advance words form).cursor.state = (s.step words form).cursor.state :=
    Cursor.state_forward _
  have pos : (s.advance words form).cursor.pos = (s.step words form).cursor.pos + 1 := by
    change (s.step words form).cursor.forward.pos = _
    rw [Cursor.pos_forward, if_pos more]
  refine ⟨moved, handled.carried, ?_, ?_, ?_⟩
  all_goals rw [state]; intro identifier
  · have le := worded.sound.segment_le_pos
    change (s.step words form).cursor.forward.segment < _
    rw [Cursor.segment_forward, pos]
    omega
  · exact handled.counted identifier
  · intro fixed
    have before := handled.column identifier fixed
    have inLine := isLineEnd_of_isNameChar (handled.name identifier)
    rw [worded.tracks.column_eq] at before
    rw [worded.tracks.ch] at inLine
    have column := moved.tracks.column_eq
    change markColumn < (s.step words form).cursor.forward.column
    rw [column]
    change markColumn < src.columnAt (s.advance words form).cursor.pos
    rw [pos, (Source.columnAt_succ table inLine).2]
    omega

end Tokens

/-- All words that a run to the end of the source paints are right. -/
theorem Between.wordsIn_run (table : src.Tabled) (last : stop = src.size + 1)
    (between : Between words form s) :
    src.WordsIn words form (s.run words form).cursor.paint.painted := by
  induction s using turns words form with
  | done s done =>
    have inside := between.cursor.tracks.inside
    omega
  | turn s more ih =>
    have room : src.size < stop := by omega
    by_cases pastText : form = .fixed ∧ s.cursor.column = markColumn ∧ src.size ≤ s.cursor.pos
    · -- A step from the end of the text to a position past it paints nothing.
      obtain ⟨rfl, column, past⟩ := pastText
      have ch : s.cursor.ch = '\x00' := by
        rw [between.cursor.tracks.ch, Source.charD_of_le past]
      have begun := between.beginLine
      rw [painted_run_of_markColumn between.cursor.sound column ch past more]
      apply begun.cursor.wordsIn_paint
      intro identifier
      have after := begun.column identifier rfl
      rw [column_beginLine] at after
      omega
    · have handled := between.step table room (by
        intro fixed column
        apply Nat.lt_of_not_le
        intro past
        exact pastText ⟨fixed, column, past⟩)
      rw [run_of_lt more]
      -- The induction goes on inside the text; at its end no name goes on, so no identifier is open.
      rcases Nat.lt_or_eq_of_le handled.cursor.tracks.inside with inside | ended
      · exact ih (handled.advance table room inside)
      · have calm : (s.step words form).cursor.state ≠ .identifier := by
          intro identifier
          have name := handled.name identifier
          rw [handled.cursor.tracks.ch, Source.charD_of_le (Nat.le_of_eq ended.symm)] at name
          cases name
        have pos : (s.advance words form).cursor.pos = stop := by
          change (s.step words form).cursor.forward.pos = _
          rw [Cursor.pos_forward, if_pos (by omega)]
          omega
        have painted : (s.advance words form).cursor.paint.painted =
            (s.step words form).cursor.paint.painted :=
          Cursor.painted_paint_forward (Nat.le_of_eq ended.symm)
        rw [run_of_le (Nat.le_of_eq pos.symm), painted]
        exact handled.cursor.wordsIn_paint calm

end Scan

end FortranMarkup
