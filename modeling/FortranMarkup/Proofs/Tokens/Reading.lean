import FortranMarkup.Proofs.Folding.Restart
import FortranMarkup.Proofs.Tokens.Styles

/-!
# What a fold pass reads of a line

What a fold pass keeps of a line is a `Reading`. A byte of another style than that of keywords shows
something and has no other effect (`Document.readingAt_succ`), and a keyword has the effect that the
rules give it (`Document.readingAt_word`). `Token.read?` is what the tokens of a line tell of it, where
the rules look at nothing but those tokens.
-/

namespace FortranMarkup

/-- A word as the fold rules look it up. -/
def foldWord (letters : List Char) : String :=
  (BoundedWord.ofChars letters : BoundedWord foldWordCapacity).spelling

/-- What has been read of a line. -/
structure Reading where
  /-- The level number of the line. -/
  level : Int
  /-- By how many blocks the next line is further in. -/
  change : Int
  /-- The keyword before. -/
  previous : String
  /-- Whether the line has shown anything. -/
  visible : Bool
deriving Repr, DecidableEq

namespace Reading

def shown (r : Reading) (shows : Bool) : Reading :=
  { r with visible := r.visible || shows }

/-- Goes on after a keyword with an effect. -/
def take (r : Reading) (word : String) (effect : FoldEffect) : Reading where
  level := if effect.dedent then r.level - 1 else r.level
  change := r.change + effect.change
  previous := word
  visible := true

/-- What has been read of a line where it begins. -/
def begun (level : Int) : Reading :=
  ⟨level, 0, "", false⟩

end Reading

def FoldState.reading (s : FoldState) : Reading :=
  ⟨s.level, s.change, s.previous, s.visible⟩

/-! ## What tokens tell -/

namespace Token

/-- The first character of a token, as far as the fold rules look at it. -/
def look : Token → Char
  | blank => ' '
  | mark c => c
  | word _ => 'a'
  | digits _ => '0'

/-- The next character that tokens show, as far as the fold rules look at it. -/
def next : List Token → Char
  | [] => '\n'
  | blank :: rest => next rest
  | token :: _ => token.look

/-- Whether tokens are a word in parentheses and nothing more. -/
def isCondition : List Token → Bool
  | [blank, mark '(', word _, mark ')'] => true
  | _ => false

/-- The effect of a keyword, if it can be told from the tokens after it on its line. -/
def effect? (word previous : String) (rest : List Token) : Option FoldEffect :=
  if word = "forall" ∨ (word = "where" ∧ previous ≠ "else") then
    if previous = "end" then some ⟨0, false⟩
    else if isCondition rest then some ⟨1, false⟩
    else none
  else some (foldEffect word previous (next rest) (isLineEnd (next rest)))

/-- What has been read of a line after some tokens. -/
def read? (words : Dictionary) (r : Reading) : List Token → Option Reading
  | [] => some r
  | token :: rest =>
    if token.style words = .keyword then
      (effect? (foldWord token.chars) r.previous rest).bind fun effect =>
        read? words (r.take (foldWord token.chars) effect) rest
    else read? words (r.shown (token ≠ blank)) rest

theorem alikeNext_of_isNameChar {c d : Char} (name : isNameChar c = true)
    (name' : isNameChar d = true) (digit : c.isDigit = d.isDigit) : AlikeNext c d := by
  refine ⟨digit, ?_, ?_⟩
  · intro e mem
    have other : isNameChar e = false := by
      simp only [List.mem_cons, List.not_mem_nil, or_false] at mem
      rcases mem with rfl | rfl | rfl
      · rfl
      · rfl
      · rfl
    constructor
    · intro same
      exact absurd same (ne_of_isNameChar name other)
    · intro same
      exact absurd same (ne_of_isNameChar name' other)
  · rw [isLineEnd_of_isNameChar name, isLineEnd_of_isNameChar name']

theorem isBlank_of_isNameChar {c : Char} (name : isNameChar c = true) : isBlank c = false := by
  simp [isBlank, ne_of_isNameChar name (show isNameChar ' ' = false from rfl),
    ne_of_isNameChar name (show isNameChar '\t' = false from rfl),
    ne_of_isNameChar name (show isNameChar '\x0b' = false from rfl)]

/-- The first character after blanks is alike to the one that the tokens tell. -/
theorem exists_next {tokens : List Token} (proper : ∀ token ∈ tokens, token.Proper) :
    ∃ blanks c more, tokens.flatMap chars ++ ['\n'] = blanks ++ c :: more ∧
      (∀ b ∈ blanks, isBlank b = true) ∧ isBlank c = false ∧ AlikeNext c (next tokens) := by
  induction tokens with
  | nil => exact ⟨[], '\n', [], rfl, nofun, rfl, .refl _⟩
  | cons token rest ih =>
    have here := proper token List.mem_cons_self
    cases token with
    | blank =>
      obtain ⟨blanks, c, more, whole, all, shows, alike⟩ :=
        ih (fun other mem => proper other (List.mem_cons_of_mem _ mem))
      refine ⟨' ' :: blanks, c, more, congrArg (' ' :: ·) whole, ?_, shows, alike⟩
      intro b mem
      rcases List.mem_cons.1 mem with rfl | later
      · rfl
      · exact all b later
    | mark c =>
      refine ⟨[], c, rest.flatMap chars ++ ['\n'], rfl, nofun, ?_, .refl c⟩
      rcases here with rfl | rfl | rfl
      · rfl
      · rfl
      · rfl
    | word letters =>
      obtain ⟨first, others, rfl, letter, -⟩ := here
      have name := isNameChar_of_isAlpha letter
      exact ⟨[], first, others ++ rest.flatMap chars ++ ['\n'], rfl, nofun,
        isBlank_of_isNameChar name,
        alikeNext_of_isNameChar name (show isNameChar 'a' = true from rfl) (isDigit_of_isAlpha letter)⟩
    | digits letters =>
      obtain ⟨first, others, rfl, digit, -⟩ := here
      have name := isNameChar_of_isDigit digit
      exact ⟨[], first, others ++ rest.flatMap chars ++ ['\n'], rfl, nofun,
        isBlank_of_isNameChar name,
        alikeNext_of_isNameChar name (show isNameChar '0' = true from rfl) digit⟩

end Token

/-! ## Styles by position -/

namespace Document

/-- The bytes from a position on have some styles, one after the other. -/
def Shades (doc : Document) (pos : Nat) : List Style → Prop
  | [] => True
  | style :: rest => doc.styleAt pos = style ∧ doc.Shades (pos + 1) rest

variable {doc : Document} {pos : Nat}

theorem shades_append {a b : List Style} :
    doc.Shades pos (a ++ b) ↔ doc.Shades pos a ∧ doc.Shades (pos + a.length) b := by
  induction a generalizing pos with
  | nil => simp [Shades]
  | cons style rest ih =>
    rw [List.cons_append, Shades, Shades, ih, and_assoc, List.length_cons, Nat.add_assoc,
      Nat.add_comm 1]

theorem styleAt_of_shades {count : Nat} {style : Style}
    (shades : doc.Shades pos (.replicate count style)) {i : Nat} (less : i < count) :
    doc.styleAt (pos + i) = style := by
  induction count generalizing pos i with
  | zero => exact absurd less (Nat.not_lt_zero i)
  | succ count ih =>
    cases i with
    | zero => exact shades.1
    | succ i =>
      have later := ih shades.2 (Nat.lt_of_succ_lt_succ less)
      rwa [Nat.add_assoc, Nat.add_comm 1] at later

theorem shades_styles (doc : Document) : doc.Shades 0 doc.styles.toList := by
  suffices later : ∀ before after, doc.styles.toList = before ++ after →
      doc.Shades before.length after from later [] _ rfl
  intro before after whole
  induction after generalizing before with
  | nil => trivial
  | cons style rest ih =>
    refine ⟨?_, ?_⟩
    · rw [styleAt, ← Array.getElem?_toList, whole, List.getElem?_append_right (Nat.le_refl _),
        Nat.sub_self]
      rfl
    · have further := ih (before ++ [style]) (by rw [whole, List.append_assoc]; rfl)
      rwa [List.length_append] at further

/-! ## Bytes -/

/-- The whole pass in free form. -/
def freePass (doc : Document) : FoldPass :=
  doc.foldPass .free .plain 0

/-- The state of that pass before a position. -/
def freeStateAt (doc : Document) (pos : Nat) : FoldState :=
  doc.foldStateAt .free .plain 0 pos

/-- What that pass has read of the line of a position before it. -/
def readingAt (doc : Document) (pos : Nat) : Reading :=
  (doc.freeStateAt pos).reading

variable {c : Char}

theorem isContext_freeStateAt (table : doc.source.Tabled) (pos : Nat) :
    (doc.freeStateAt pos).isContext = false :=
  (alongside_self table .free .plain pos).inRange

theorem freeStateAt_succ_of_char? (table : doc.source.Tabled) (here : doc.source.char? pos = some c)
    (inLine : isLineEnd c = false) :
    doc.freeStateAt (pos + 1) =
      { doc.freePass.looked (doc.freeStateAt pos) pos with
        visible := (doc.freeStateAt pos).visible || !isSpace c } := by
  have frame := (doc.freePass.looked_frame (doc.freeStateAt pos) pos).1
  have ends : ¬endsLineAt doc.freePass.doc.source.bytes pos = true :=
    Source.not_endsLineAt_of_char? here inLine
  have byte : doc.freePass.doc.source.charD pos ' ' = c := Source.charD_of_char? here _
  have step : doc.freeStateAt (pos + 1) = doc.freePass.step (doc.freeStateAt pos) pos :=
    foldStateAt_succ (foldStart_zero_le table pos)
  rw [step, FoldPass.step_eq, if_neg ends, byte, ← frame]
  cases isSpace c with
  | false => rw [if_neg Bool.false_ne_true, Bool.not_false, Bool.or_true]
  | true => rw [if_pos rfl, Bool.not_true, Bool.or_false]

theorem readingAt_succ (table : doc.source.Tabled) (here : doc.source.char? pos = some c)
    (inLine : isLineEnd c = false) (quiet : doc.styleAt pos ≠ .keyword) :
    doc.readingAt (pos + 1) = (doc.readingAt pos).shown (!isSpace c) := by
  have ends : ¬doc.freePass.endsWord pos = true := by
    intro ends
    simp only [FoldPass.endsWord, Bool.and_eq_true, decide_eq_true_eq] at ends
    exact quiet ends.1.1
  obtain ⟨change, level, previous⟩ :=
    FoldPass.looked_of_not_endsWord (s := doc.freeStateAt pos) ends
  rw [readingAt, freeStateAt_succ_of_char? table here inLine]
  simp only [FoldState.reading, change, level, previous]
  rfl

theorem readingAt_add (table : doc.source.Tabled) {letters : List Char}
    (spells : doc.source.Spells pos letters) (names : ∀ c ∈ letters, isNameChar c = true)
    (quiet : ∀ i, i < letters.length → doc.styleAt (pos + i) ≠ .keyword) :
    doc.readingAt (pos + letters.length) = (doc.readingAt pos).shown (!letters.isEmpty) := by
  induction letters generalizing pos with
  | nil => rw [Reading.shown, List.isEmpty_nil, Bool.not_true, Bool.or_false]; rfl
  | cons d rest ih =>
    have name := names d List.mem_cons_self
    have first := readingAt_succ table spells.1 (isLineEnd_of_isNameChar name) (quiet 0 (by simp))
    have later : ∀ i, i < rest.length → doc.styleAt (pos + 1 + i) ≠ .keyword := by
      intro i less
      have further := quiet (i + 1) (Nat.succ_lt_succ less)
      rwa [Nat.add_comm i, ← Nat.add_assoc] at further
    have others := ih spells.2 (fun e mem => names e (List.mem_cons_of_mem _ mem)) later
    rw [List.length_cons, Nat.add_comm rest.length, ← Nat.add_assoc, others, first,
      isSpace_of_isNameChar name]
    simp [Reading.shown]

/-! ## Keywords -/

section Keywords

variable (table : doc.source.Tabled) {letters : List Char}
  (spells : doc.source.Spells pos letters) (names : ∀ c ∈ letters, isNameChar c = true)
  (shades : ∀ i, i < letters.length → doc.styleAt (pos + i) = .keyword)
  (starts : doc.freePass.afterSeparator pos = true)

include table spells names shades starts

/-- Inside a keyword, nothing has changed yet, and the word at hand is that keyword. -/
theorem readingAt_inside {i : Nat} (less : i < letters.length) :
    doc.readingAt (pos + i) = (doc.readingAt pos).shown (0 < i) ∧
      (doc.freePass.looked (doc.freeStateAt (pos + i)) (pos + i)).wordStart = pos := by
  have char (j : Nat) (bound : j < letters.length) : ∃ d, doc.source.char? (pos + j) = some d ∧
      isNameChar d = true := by
    refine ⟨letters[j], Source.char?_of_spells spells bound, names _ (List.getElem_mem bound)⟩
  induction i with
  | zero =>
    have notes : doc.freePass.Notes pos := ⟨starts, .inl (shades 0 less)⟩
    refine ⟨?_, ?_⟩
    · simp [Reading.shown]
    · have frame := (doc.freePass.looked_frame (doc.freeStateAt pos) pos).2.2.2.2
      rwa [if_pos notes] at frame
  | succ i ih =>
    have before := Nat.lt_of_succ_lt less
    obtain ⟨reading, start⟩ := ih before
    obtain ⟨d, here, name⟩ := char i before
    obtain ⟨e, next, name'⟩ := char (i + 1) less
    have ends : ¬doc.freePass.endsWord (pos + i) = true := by
      have more : doc.freePass.doc.source.charD (pos + i + 1) ' ' = e :=
        Source.charD_of_char? next _
      rw [FoldPass.endsWord, more, isFoldWordChar_of_isNameChar name']
      simp
    have succ := freeStateAt_succ_of_char? table here (isLineEnd_of_isNameChar name)
    have same := FoldPass.looked_of_not_endsWord (s := doc.freeStateAt (pos + i)) ends
    refine ⟨?_, ?_⟩
    · have read : doc.readingAt (pos + i + 1) = (doc.readingAt (pos + i)).shown true := by
        rw [readingAt, succ]
        simp only [FoldState.reading, same, isSpace_of_isNameChar name]
        rfl
      rw [← Nat.add_assoc, read, reading]
      simp [Reading.shown]
    · have notes : ¬doc.freePass.Notes (pos + i + 1) := by
        intro notes
        have separator := notes.1
        have style : doc.freePass.doc.styleBefore (pos + i + 1) doc.freePass.outside = .keyword :=
          shades i before
        rw [FoldPass.afterSeparator, style] at separator
        cases separator
      have frame := (doc.freePass.looked_frame (doc.freeStateAt (pos + i + 1)) (pos + i + 1)).2.2.2.2
      rw [← Nat.add_assoc, frame, if_neg notes, succ]
      exact start

theorem readingAt_word (some : letters ≠ [])
    (ends : isFoldWordChar (doc.source.charD (pos + letters.length) ' ') = false) :
    doc.readingAt (pos + letters.length) = (doc.readingAt pos).take (foldWord letters)
      (doc.freePass.wordEffect 0 (pos + letters.length - 1) (foldWord letters)
        (doc.readingAt pos).previous) := by
  obtain ⟨n, length⟩ : ∃ n, letters.length = n + 1 :=
    ⟨letters.length - 1, by have := List.length_pos_iff.2 some; omega⟩
  have last : n < letters.length := by omega
  obtain ⟨reading, start⟩ := readingAt_inside table spells names shades starts last
  have here := Source.char?_of_spells spells last
  have name := names _ (List.getElem_mem last)
  have word : doc.freePass.wordBy (doc.freeStateAt (pos + n)) (pos + n) = foldWord letters := by
    have chars : doc.source.charsD pos (pos + letters.length) ' ' = letters :=
      Source.charsD_of_spells spells ' '
    rw [length] at chars
    rw [FoldPass.wordBy, start, FoldPass.wordFrom]
    exact congrArg foldWord chars
  have endsWord : doc.freePass.endsWord (pos + n) = true := by
    have byte : doc.freePass.doc.source.charD (pos + n) ' ' = letters[n] :=
      Source.charD_of_char? here _
    have after : isFoldWordChar (doc.freePass.doc.source.charD (pos + n + 1) ' ') = false := by
      rwa [length] at ends
    have style : doc.freePass.doc.styleAt (pos + n) = .keyword := shades n last
    rw [FoldPass.endsWord, after, byte, style, isFoldWordChar_of_isNameChar name]
    rfl
  have effect : doc.freePass.effectAt (doc.freeStateAt (pos + n)) (pos + n) =
      doc.freePass.wordEffect 0 (pos + letters.length - 1) (foldWord letters)
        (doc.readingAt pos).previous := by
    have previous : (doc.freeStateAt (pos + n)).previous = (doc.readingAt pos).previous :=
      congrArg Reading.previous reading
    rw [FoldPass.effectAt, word, previous, length]
    rfl
  obtain ⟨change, level, previous⟩ :=
    FoldPass.looked_of_endsWord (s := doc.freeStateAt (pos + n)) endsWord
  have change₀ : (doc.freeStateAt (pos + n)).change = (doc.readingAt pos).change :=
    congrArg Reading.change reading
  have level₀ : (doc.freeStateAt (pos + n)).level = (doc.readingAt pos).level :=
    congrArg Reading.level reading
  rw [effect, change₀] at change
  rw [effect, level₀, isContext_freeStateAt table, Bool.not_false, Bool.and_true] at level
  rw [word] at previous
  rw [length, ← Nat.add_assoc, readingAt,
    freeStateAt_succ_of_char? table here (isLineEnd_of_isNameChar name)]
  simp only [FoldState.reading, change, level, previous, isSpace_of_isNameChar name]
  simp only [Reading.take, length, ← Nat.add_assoc, Bool.not_false, Bool.or_true]

end Keywords

end Document

end FortranMarkup
