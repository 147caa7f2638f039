import FortranMarkup.Proofs.Styling.Consistency
import FortranMarkup.Proofs.Styling.Respelling

/-!
# Scanning respelled text

The turns of two scans, over a text and over a respelling of it, correspond: before each turn the
scans are in like states at the first byte that a byte stands as (`Scan.AtTurn`), and the rules of a
turn do the same in both (`Scan.Respelt`). A carriage return that is added before a line feed takes
a turn of its own. It closes tokens and opens none, and the line feed after it finds nothing more to
close (`Scan.BothClosed`). So bytes that correspond have the same fresh style
(`Source.freshStyle_of_respells`).
-/

namespace FortranMarkup

namespace Scan

/-! ## Line ends -/

section LineEnds

variable {src : Source} {start stop : Nat} {words : Dictionary} {form : SourceForm}
  {s : Scan src start stop}

theorem ne_of_isLineEnd {c other : Char} (ends : isLineEnd c = true)
    (inLine : isLineEnd other = false) : c ≠ other := by
  rintro rfl
  rw [ends] at inLine
  cases inLine

theorem literalStep_of_isLineEnd (ends : isLineEnd s.cursor.ch = true) {quote : Char}
    (inLine : isLineEnd quote = false) :
    s.literalStep quote = { s with carried := s.cursor.state } := by
  rw [literalStep, if_neg (ne_of_isLineEnd ends inLine)]

/-- A byte of a line end opens nothing, so it is handled by the rule that closes tokens. -/
theorem tokenStep_of_isLineEnd (ends : isLineEnd s.cursor.ch = true) :
    s.tokenStep words form = s.closeToken words form := by
  have sign : s.numberSignStep = s := by
    rw [numberSignStep, if_neg (fun sign => ne_of_isLineEnd ends rfl sign.1)]
  have ch : (s.closeToken words form).cursor.ch = s.cursor.ch := by
    have dot : s.cursor.ch ≠ '.' := ne_of_isLineEnd ends rfl
    cases state : s.cursor.state <;> simp only [Scan.closeToken, state]
    case apostropheLiteral =>
      rw [literalStep_of_isLineEnd ends rfl]
      split <;> rfl
    case quoteLiteral =>
      rw [literalStep_of_isLineEnd ends rfl]
      split <;> rfl
    case dottedOperator => rw [if_neg dot]
    all_goals first | rfl | (split <;> rfl)
  unfold Scan.tokenStep
  dsimp only
  rw [sign, Alike.openToken_of_lineEnd (ch ▸ ends), ite_self]

/-- Past the last byte of a line end, only an open literal changes. -/
theorem closeToken_of_calm (ends : isLineEnd s.cursor.ch = true)
    (calm : s.cursor.state ∈ [Style.plain, .openLiteral, .keyword, .intrinsic, .extended,
      .dottedOperator]) : s.closeToken words form = s := by
  have dot : s.cursor.ch ≠ '.' := ne_of_isLineEnd ends rfl
  cases state : s.cursor.state <;> simp only [Scan.closeToken, state, if_neg dot]
  all_goals (rw [state] at calm; simp at calm)

end LineEnds

/-! ## Scans in corresponding places -/

variable {place : Nat → Nat} {form : SourceForm} {src₁ src₂ : Source} {stop₁ stop₂ : Nat}

/-- Two scans in corresponding places. Only fixed form resumes what is carried. -/
structure Respelt (place : Nat → Nat) (form : SourceForm) (s₁ : Scan src₁ 0 stop₁)
    (s₂ : Scan src₂ 0 stop₂) : Prop where
  cursor : s₁.cursor.Respelt place s₂.cursor
  carried : form = .fixed → s₁.carried = s₂.carried

/-- Two scans at the first bytes that a byte stands as. -/
structure AtFirst (place : Nat → Nat) (form : SourceForm) (s₁ : Scan src₁ 0 stop₁)
    (s₂ : Scan src₂ 0 stop₂) : Prop extends Respelt place form s₁ s₂ where
  first : s₂.cursor.pos = place s₁.cursor.pos
  nonBlank : s₁.nonBlank = s₂.nonBlank

/-- Two scans at the last bytes that a byte stands as. At the end of a line, a carriage return may
have been counted. -/
structure AtLast (place : Nat → Nat) (form : SourceForm) (s₁ : Scan src₁ 0 stop₁)
    (s₂ : Scan src₂ 0 stop₂) : Prop extends Respelt place form s₁ s₂ where
  last : s₂.cursor.pos + 1 = place (s₁.cursor.pos + 1)
  nonBlank : s₁.nonBlank = s₂.nonBlank ∨ s₁.cursor.atLineEnd = true

variable {s₁ : Scan src₁ 0 stop₁} {s₂ : Scan src₂ 0 stop₂}

section Tokens

variable (sides : Respelling place form src₁ stop₁ src₂ stop₂)
include sides

theorem AtFirst.setState (atFirst : AtFirst place form s₁ s₂) (state : Style) :
    AtFirst place form (s₁.withCursor (s₁.cursor.setState state))
      (s₂.withCursor (s₂.cursor.setState state)) :=
  ⟨⟨atFirst.cursor.setState sides state, atFirst.carried⟩, atFirst.first, atFirst.nonBlank⟩

theorem AtLast.setState (atLast : AtLast place form s₁ s₂) (state : Style) :
    AtLast place form (s₁.withCursor (s₁.cursor.setState state))
      (s₂.withCursor (s₂.cursor.setState state)) :=
  ⟨⟨atLast.cursor.setState sides state, atLast.carried⟩, atLast.last, atLast.nonBlank⟩

omit sides in
theorem AtLast.leaveOpen (atLast : AtLast place form s₁ s₂) :
    AtLast place form s₁.leaveOpen s₂.leaveOpen :=
  ⟨⟨atLast.cursor.relabel _, fun _ => atLast.cursor.state⟩, atLast.last, atLast.nonBlank⟩

theorem AtFirst.atLast (atFirst : AtFirst place form s₁ s₂)
    (inLine : isLineEnd s₁.cursor.ch = false) : AtLast place form s₁ s₂ :=
  ⟨atFirst.toRespelt, atFirst.cursor.last_of_inLine sides atFirst.first inLine,
    .inl atFirst.nonBlank⟩

/-- A byte in a line stands as one byte, so the scans are at its first one as well. -/
theorem AtLast.atFirst (atLast : AtLast place form s₁ s₂)
    (inLine : isLineEnd s₁.cursor.ch = false) (char : s₁.cursor.ch ≠ '\x00') :
    AtFirst place form s₁ s₂ := by
  have inside := atLast.cursor.tracks₁.lt_size char
  rw [atLast.cursor.tracks₁.ch] at inLine
  have single := sides.text.place_succ_of_inLine inLine
  have last := atLast.last
  refine ⟨atLast.toRespelt, by omega, atLast.nonBlank.resolve_right ?_⟩
  rw [atLast.cursor.tracks₁.atLineEnd_eq sides.text.table₁ inside]
  intro ends
  rw [Source.isLineEnd_of_endsLineAt _ ends] at inLine
  cases inLine

/-- The scans go on from a byte to the next one. -/
theorem AtFirst.forward (atFirst : AtFirst place form s₁ s₂)
    (inLine : isLineEnd s₁.cursor.ch = false) (char : s₁.cursor.ch ≠ '\x00') {carried₁ carried₂ : Style}
    (carried : form = .fixed → carried₁ = carried₂) :
    AtFirst place form ⟨s₁.cursor.forward, s₁.nonBlank, carried₁⟩
      ⟨s₂.cursor.forward, s₂.nonBlank, carried₂⟩ :=
  have ⟨moved, first⟩ := atFirst.cursor.forward sides (atFirst.atLast sides inLine).last
    (atFirst.cursor.tracks₁.lt_size char)
  ⟨⟨moved, carried⟩, first, atFirst.nonBlank⟩

/-- The scans pass a byte for the next one, and that ends no line either. -/
theorem AtFirst.pass (atFirst : AtFirst place form s₁ s₂) (inLine : isLineEnd s₁.cursor.ch = false)
    (char : s₁.cursor.ch ≠ '\x00') (next : isLineEnd s₁.cursor.next = false)
    {carried₁ carried₂ : Style} (carried : form = .fixed → carried₁ = carried₂) :
    AtLast place form ⟨s₁.cursor.forward, s₁.nonBlank, carried₁⟩
      ⟨s₂.cursor.forward, s₂.nonBlank, carried₂⟩ := by
  have inside := atFirst.cursor.tracks₁.lt_size char
  have end₁ := sides.end₁
  refine (atFirst.forward sides inLine char carried).atLast sides ?_
  rwa [Cursor.ch_forward (by omega)]

/-- Two scans that have closed a token are at the last bytes of a place, or in plain text at the
first ones of the next. -/
def BothClosed (place : Nat → Nat) (form : SourceForm) (s₁ : Scan src₁ 0 stop₁)
    (s₂ : Scan src₂ 0 stop₂) : Prop :=
  AtLast place form s₁ s₂ ∨ (AtFirst place form s₁ s₂ ∧ s₁.cursor.state = .plain)

theorem AtLast.literalStep (atLast : AtLast place form s₁ s₂) {quote : Char}
    (isQuote : quote = '\'' ∨ quote = '"') :
    BothClosed place form (s₁.literalStep quote) (s₂.literalStep quote) := by
  have facts : quote.isAlpha = false ∧ isLineEnd quote = false ∧ quote ≠ '\x00' := by
    rcases isQuote with rfl | rfl <;> decide
  have here := CharRespells.eq_iff (.inl (atLast.cursor.ch_of_last sides atLast.last)) quote facts.1
    facts.2.1
  have twice := (atLast.cursor.next_of_last sides atLast.last).eq_iff quote facts.1 facts.2.1
  simp only [Scan.literalStep, here, twice]
  split
  · rename_i same
    have first := atLast.atFirst sides (same ▸ facts.2.1) (same ▸ facts.2.2)
    split
    · rename_i again
      exact .inl (first.pass sides (same ▸ facts.2.1) (same ▸ facts.2.2) (again ▸ facts.2.1)
        (fun _ => atLast.cursor.state))
    · have moved := first.forward sides (same ▸ facts.2.1) (same ▸ facts.2.2)
        (show form = .fixed → Style.plain = .plain from fun _ => rfl)
      exact .inr ⟨moved.setState sides .plain, rfl⟩
  · exact .inl ⟨⟨atLast.cursor, fun _ => atLast.cursor.state⟩, atLast.last, atLast.nonBlank⟩

theorem closeIdentifier_of_respelt {c₁ : Cursor src₁ 0 stop₁} {c₂ : Cursor src₂ 0 stop₂}
    (respelt : c₁.Respelt place c₂) (first : c₂.pos = place c₁.pos)
    (inLine : ∀ pos, c₁.segment ≤ pos → pos < c₁.pos → isLineEnd (src₁.charD pos '\x00') = false)
    (words : Dictionary) :
    (closeIdentifier c₁ words).Respelt place (closeIdentifier c₂ words) := by
  unfold closeIdentifier
  dsimp only
  rw [respelt.openWord_eq sides first inLine, ← respelt.state]
  exact (respelt.relabel _).setState sides .plain

theorem pastLabel_of_respelt (respelt : Respelt place form s₁ s₂)
    (nonBlank : s₁.nonBlank = s₂.nonBlank) : s₂.pastLabel form = s₁.pastLabel form := by
  cases form with
  | fixed => rw [pastLabel, pastLabel, respelt.cursor.column_eq sides rfl]
  | free => rw [pastLabel, pastLabel, nonBlank]

theorem AtLast.atFirst_of_isDigit (atLast : AtLast place form s₁ s₂)
    (digit : s₁.cursor.ch.isDigit = true) : AtFirst place form s₁ s₂ := by
  have name := isNameChar_of_isDigit digit
  exact atLast.atFirst sides (isLineEnd_of_isNameChar name) (ne_of_isNameChar name rfl)

theorem AtLast.closeToken (atLast : AtLast place form s₁ s₂) (words : Dictionary)
    (first : s₁.cursor.state = .identifier → s₂.cursor.pos = place s₁.cursor.pos)
    (names : s₁.cursor.state = .identifier → ∀ pos, s₁.cursor.segment ≤ pos → pos < s₁.cursor.pos →
      isLineEnd (src₁.charD pos '\x00') = false) :
    BothClosed place form (s₁.closeToken words form) (s₂.closeToken words form) := by
  -- What the rules ask of the byte and of the one after it they ask alike of both texts.
  have plain := atLast.setState sides .plain
  have state₂ := atLast.cursor.state
  have lower : CharRespells s₁.cursor.ch s₂.cursor.ch :=
    .inl (atLast.cursor.ch_of_last sides atLast.last)
  have atLineEnd := atLast.cursor.atLineEnd_of_last sides atLast.last
  have wordChar := blind_isWordChar _ _ lower
  have lineEnd := blind_isLineEnd _ _ lower
  have digit := blind_isDigit _ _ lower
  have dot := lower.eq_iff '.' rfl rfl
  have apostrophe := lower.eq_iff '\'' rfl rfl
  have quote := lower.eq_iff '"' rfl rfl
  have percent := lower.eq_iff '%' rfl rfl
  cases state : s₁.cursor.state <;> rw [state] at state₂ <;>
    simp only [Scan.closeToken, state, ← state₂, atLineEnd, ← wordChar, ← lineEnd, ← digit, dot,
      apostrophe, quote, percent, ne_eq]
  case apostropheLiteral =>
    split
    · exact .inl atLast.leaveOpen
    · exact atLast.literalStep sides (.inl rfl)
  case quoteLiteral =>
    split
    · exact .inl atLast.leaveOpen
    · exact atLast.literalStep sides (.inr rfl)
  case dottedOperator =>
    split
    · rename_i isDot
      have first := atLast.atFirst sides (isDot ▸ rfl) (by rw [isDot]; decide)
      have moved := first.forward sides (isDot ▸ rfl) (by rw [isDot]; decide) atLast.carried
      exact .inr ⟨moved.setState sides .plain, rfl⟩
    · exact .inl atLast
  case identifier =>
    split
    · exact .inl atLast
    · have closed := closeIdentifier_of_respelt sides atLast.cursor (first state) (names state) words
      exact .inl ⟨⟨closed, atLast.carried⟩, atLast.last, atLast.nonBlank⟩
  case label =>
    have goesOn : (s₁.cursor.ch.isDigit && !s₂.pastLabel form) =
        (s₁.cursor.ch.isDigit && !s₁.pastLabel form) := by
      cases isDigit : s₁.cursor.ch.isDigit with
      | false => rfl
      | true =>
        have nonBlank := (atLast.atFirst_of_isDigit sides isDigit).nonBlank
        rw [pastLabel_of_respelt sides atLast.toRespelt nonBlank]
    rw [goesOn]
    split
    · exact .inl atLast
    · exact .inl plain
  case number =>
    split
    · exact .inl atLast
    · exact .inl plain
  case comment | preprocessor =>
    split
    · exact .inl plain
    · exact .inl atLast
  case operator | continuation => exact .inl plain
  all_goals exact .inl atLast

omit sides in
theorem AtLast.branch {p : Prop} [Decidable p] {t₁ : Scan src₁ 0 stop₁} {t₂ : Scan src₂ 0 stop₂}
    (yes : p → AtLast place form s₁ s₂) (no : AtLast place form t₁ t₂) :
    AtLast place form (if p then s₁ else t₁) (if p then s₂ else t₂) := by
  split
  · exact yes (by assumption)
  · exact no

theorem AtLast.openToken (atLast : AtLast place form s₁ s₂) :
    AtLast place form (s₁.openToken form) (s₂.openToken form) := by
  have lower := atLast.cursor.ch_of_last sides atLast.last
  have ch : CharRespells s₁.cursor.ch s₂.cursor.ch := .inl lower
  have lineEnd := blind_isLineEnd _ _ ch
  by_cases ends : isLineEnd s₁.cursor.ch = true
  · rwa [Alike.openToken_of_lineEnd ends, Alike.openToken_of_lineEnd (lineEnd ▸ ends)]
  have inLine := Bool.eq_false_iff.2 ends
  have next := atLast.cursor.next_of_last sides atLast.last
  have opened (style : Style) := atLast.setState sides style
  have digit := blind_isDigit _ _ ch
  have nextDigit := blind_isDigit _ _ next
  have nextAlpha := blind_isAlpha _ _ next
  have wordStart := blind_isWordStart _ _ ch
  have operator := blind_isOperator _ _ ch
  have bang := ch.eq_iff '!' rfl rfl
  have dot := ch.eq_iff '.' rfl rfl
  have apostrophe := ch.eq_iff '\'' rfl rfl
  have quote := ch.eq_iff '"' rfl rfl
  have nextApostrophe := next.eq_iff '\'' rfl rfl
  have nextQuote := next.eq_iff '"' rfl rfl
  have first : s₂.cursor.pos = place s₁.cursor.pos := by
    have last := atLast.last
    have single := sides.text.place_succ_of_inLine (atLast.cursor.tracks₁.ch ▸ inLine)
    omega
  have comment := atLast.cursor.commentStyle_eq sides first atLast.last
    (show (directives.all fun text => text.toList.all (!isLineEnd ·)) = true from rfl)
  have label : (form = .free ∧ s₁.cursor.ch.isDigit = true ∧ s₂.nonBlank = 1) ↔
      (form = .free ∧ s₁.cursor.ch.isDigit = true ∧ s₁.nonBlank = 1) := by
    refine and_congr_right fun _ => and_congr_right fun isDigit => ?_
    rw [(atLast.atFirst_of_isDigit sides isDigit).nonBlank]
  have radix (isRadix : (['b', 'o', 'z'].contains s₁.cursor.ch.toLower &&
      (s₁.cursor.next = '"' || s₁.cursor.next = '\'')) = true) :
      AtLast place form (s₁.withCursor (s₁.cursor.setState .number).forward)
        (s₂.withCursor (s₂.cursor.setState .number).forward) := by
    have char : s₁.cursor.ch ≠ '\x00' := by
      intro none
      simp [none] at isRadix
    refine ((atLast.atFirst sides inLine char).setState sides .number).pass sides inLine char ?_
      atLast.carried
    change isLineEnd s₁.cursor.next = false
    simp only [Bool.and_eq_true, Bool.or_eq_true, decide_eq_true_eq] at isRadix
    rcases isRadix.2 with quote | apostrophe
    · exact quote ▸ rfl
    · exact apostrophe ▸ rfl
  simp only [Scan.openToken, bang, comment, ← digit, label, dot, ← nextDigit, ← lower, nextQuote,
    nextApostrophe, ← nextAlpha, ← wordStart, quote, apostrophe, ← operator]
  refine .branch (fun _ => opened _) (.branch (fun _ => opened _) (.branch (fun _ => opened _)
    (.branch radix (.branch (fun _ => opened _) (.branch (fun _ => opened _)
      (.branch (fun _ => opened _) (.branch (fun _ => opened _) (.branch (fun _ => opened _)
        atLast))))))))

end Tokens

/-! ### Carriage returns -/

/-- The scan after the next byte is handled as well. -/
def goOn (words : Dictionary) (form : SourceForm) {src : Source} {start stop : Nat}
    (s : Scan src start stop) : Scan src start stop :=
  (s.withCursor s.cursor.forward).step words form

section Returns

variable (sides : Respelling place .free src₁ stop₁ src₂ stop₂)
include sides

/-- Between the bytes of a line end no line begins, so the line feed is handled by the rule that
closes tokens. -/
theorem AtFirst.goOn_of_double (atFirst : AtFirst place .free s₁ s₂)
    (double : place (s₁.cursor.pos + 1) = place s₁.cursor.pos + 2) (words : Dictionary) :
    s₂.goOn words .free =
      (Scan.mk s₂.cursor.forward (s₂.nonBlank + 1) s₂.carried).closeToken words .free := by
  obtain ⟨moved, last⟩ := atFirst.cursor.forward_of_double sides atFirst.first double
  have inside := (atFirst.cursor.inside_iff sides).2 (sides.text.lt_size_of_double double)
  have end₂ := sides.end₂
  have pos : s₂.cursor.forward.pos = place s₁.cursor.pos + 1 := by omega
  have ch : s₂.cursor.forward.ch = '\n' := by
    rw [moved.tracks₂.ch, pos, (sides.text.charD_of_double double _).2.2]
  have begun : (s₂.withCursor s₂.cursor.forward).beginLine = s₂.withCursor s₂.cursor.forward := by
    have inLine := atFirst.cursor.atLineEnd_of_double sides atFirst.first double
    rw [beginLine, if_neg]
    rw [cursor_withCursor, Cursor.forward, if_pos (by omega)]
    exact Bool.eq_false_iff.1 inLine
  have counted : (s₂.withCursor s₂.cursor.forward).countByte =
      ⟨s₂.cursor.forward, s₂.nonBlank + 1, s₂.carried⟩ := by
    rw [countByte, if_neg (by rw [cursor_withCursor, ch]; decide)]
    rfl
  rw [goOn, step, begun, counted]
  simp only [ch]
  rw [if_neg (fun mark => absurd mark.1 (by decide)), tokenStep_of_isLineEnd (by rw [ch]; rfl)]

/-- What a text has at a line feed with a carriage return before it in the other. -/
theorem AtFirst.lineEnd_of_double (atFirst : AtFirst place .free s₁ s₂)
    (double : place (s₁.cursor.pos + 1) = place s₁.cursor.pos + 2) :
    s₁.cursor.ch = '\n' ∧ s₂.cursor.ch = '\r' ∧ s₁.cursor.atLineEnd = true := by
  have chars := sides.text.charD_of_double double '\x00'
  refine ⟨?_, ?_, ?_⟩
  · rw [atFirst.cursor.tracks₁.ch, chars.1]
  · rw [atFirst.cursor.tracks₂.ch, atFirst.first, chars.2.1]
  · rw [atFirst.cursor.tracks₁.atLineEnd_eq sides.text.table₁ (sides.text.lt_size_of_double double),
      sides.text.endsLineAt_feed_of_double double]

/-- The last bytes of a line end, one turn after its first ones. -/
theorem AtFirst.feed_of_double (atFirst : AtFirst place .free s₁ s₂)
    (double : place (s₁.cursor.pos + 1) = place s₁.cursor.pos + 2) :
    AtLast place .free s₁ ⟨s₂.cursor.forward, s₂.nonBlank + 1, s₂.carried⟩ ∧
      isLineEnd s₂.cursor.forward.ch = true := by
  obtain ⟨moved, last⟩ := atFirst.cursor.forward_of_double sides atFirst.first double
  have lineEnd := atFirst.lineEnd_of_double sides double
  refine ⟨⟨⟨moved, fun fixed => absurd fixed (by decide)⟩, last, .inr lineEnd.2.2⟩, ?_⟩
  rw [← blind_isLineEnd _ _ (.inl (moved.ch_of_last sides last)), lineEnd.1]
  rfl

/-- Where only an open literal would change, the line feed after a carriage return changes nothing.
-/
theorem AtFirst.atLast_of_calm (atFirst : AtFirst place .free s₁ s₂)
    (double : place (s₁.cursor.pos + 1) = place s₁.cursor.pos + 2)
    (calm : s₁.cursor.state ∈ [Style.plain, .openLiteral, .keyword, .intrinsic, .extended,
      .dottedOperator]) (words : Dictionary) :
    AtLast place .free s₁ (s₂.goOn words .free) := by
  obtain ⟨atLast, ends⟩ := atFirst.feed_of_double sides double
  rw [atFirst.goOn_of_double sides double, closeToken_of_calm ends]
  · exact atLast
  · rw [Cursor.state_forward, ← atFirst.cursor.state]
    exact calm

/-- An open literal is relabeled at the line feed. -/
theorem AtFirst.atLast_of_literal (atFirst : AtFirst place .free s₁ s₂)
    (double : place (s₁.cursor.pos + 1) = place s₁.cursor.pos + 2)
    (literal : s₁.cursor.state = .apostropheLiteral ∨ s₁.cursor.state = .quoteLiteral)
    (words : Dictionary) : AtLast place .free s₁.leaveOpen (s₂.goOn words .free) := by
  obtain ⟨atLast, ends⟩ := atFirst.feed_of_double sides double
  have atLineEnd := atLast.cursor.atLineEnd_of_last sides atLast.last
  rw [(atFirst.lineEnd_of_double sides double).2.2] at atLineEnd
  have state : s₂.cursor.forward.state = s₁.cursor.state := atLast.cursor.state.symm
  have other : s₂.cursor.forward.ch ≠ '\'' := ne_of_isLineEnd ends rfl
  have left : (Scan.mk s₂.cursor.forward (s₂.nonBlank + 1) s₂.carried).closeToken words .free =
      (Scan.mk s₂.cursor.forward (s₂.nonBlank + 1) s₂.carried).leaveOpen := by
    rcases literal with apostrophe | quote
    · rw [apostrophe] at state
      simp only [Scan.closeToken, state]
      rw [if_pos ⟨other, atLineEnd⟩]
    · rw [quote] at state
      simp only [Scan.closeToken, state]
      rw [if_pos atLineEnd]
  rw [atFirst.goOn_of_double sides double, left]
  exact atLast.leaveOpen

/-- At a line feed with a carriage return before it, the second scan takes a turn more. -/
theorem AtFirst.tokenStep_of_double (atFirst : AtFirst place .free s₁ s₂)
    (double : place (s₁.cursor.pos + 1) = place s₁.cursor.pos + 2) (words : Dictionary)
    (names : s₁.cursor.state = .identifier → ∀ pos, s₁.cursor.segment ≤ pos → pos < s₁.cursor.pos →
      isLineEnd (src₁.charD pos '\x00') = false) :
    AtLast place .free (s₁.tokenStep words .free) ((s₂.tokenStep words .free).goOn words .free) := by
  obtain ⟨ch₁, ch₂, atLineEnd₁⟩ := atFirst.lineEnd_of_double sides double
  have atLineEnd₂ := atFirst.cursor.atLineEnd_of_double sides atFirst.first double
  rw [tokenStep_of_isLineEnd (by rw [ch₁]; rfl), tokenStep_of_isLineEnd (by rw [ch₂]; rfl)]
  have state₂ := atFirst.cursor.state
  have calm := atFirst.atLast_of_calm sides double
  have plain := (atFirst.setState sides .plain).atLast_of_calm sides double
    (show Style.plain ∈ _ from List.mem_cons_self) words
  -- The carriage return does not end its line, so it only notes that the literal is open.
  have noted (carried : Style) : AtFirst place .free s₁ { s₂ with carried := carried } :=
    ⟨⟨atFirst.cursor, fun fixed => absurd fixed (by decide)⟩, atFirst.first, atFirst.nonBlank⟩
  cases state : s₁.cursor.state <;> rw [state] at state₂ calm <;>
    simp only [Scan.closeToken, state, ← state₂]
  case operator | continuation => exact plain
  case number => rwa [if_neg (by rw [ch₁]; decide), if_neg (by rw [ch₂]; decide)]
  case comment | preprocessor => rwa [if_pos (by rw [ch₁]; rfl), if_pos (by rw [ch₂]; rfl)]
  case label =>
    rwa [if_neg (by rw [ch₁, Bool.and_eq_true]; exact fun digit => absurd digit.1 (by decide)),
      if_neg (by rw [ch₂, Bool.and_eq_true]; exact fun digit => absurd digit.1 (by decide))]
  case identifier =>
    rw [if_neg (by rw [ch₁]; decide), if_neg (by rw [ch₂]; decide)]
    have closed : AtFirst place .free (s₁.withCursor (closeIdentifier s₁.cursor words))
        (s₂.withCursor (closeIdentifier s₂.cursor words)) :=
      ⟨⟨closeIdentifier_of_respelt sides atFirst.cursor atFirst.first (names state) words,
        atFirst.carried⟩, atFirst.first, atFirst.nonBlank⟩
    exact closed.atLast_of_calm sides double (show Style.plain ∈ _ from List.mem_cons_self) words
  case apostropheLiteral =>
    rw [if_pos ⟨by rw [ch₁]; decide, atLineEnd₁⟩, if_neg (by rw [atLineEnd₂]; simp),
      literalStep_of_isLineEnd (by rw [ch₂]; rfl) rfl]
    exact (noted _).atLast_of_literal sides double (.inl state) words
  case quoteLiteral =>
    rw [if_pos atLineEnd₁, if_neg (by rw [atLineEnd₂]; simp),
      literalStep_of_isLineEnd (by rw [ch₂]; rfl) rfl]
    exact (noted _).atLast_of_literal sides double (.inr state) words
  case dottedOperator =>
    rw [if_neg (by rw [ch₁]; decide), if_neg (by rw [ch₂]; decide)]
    exact calm (by decide) words
  all_goals exact calm (by decide) words

end Returns

/-! ### Steps -/

section Steps

variable (sides : Respelling place form src₁ stop₁ src₂ stop₂)
include sides

/-- The second scan, once it has handled the same bytes as the first one, or after one turn more. -/
def Handles (place : Nat → Nat) (words : Dictionary) (form : SourceForm) (t₁ : Scan src₁ 0 stop₁)
    (t₂ : Scan src₂ 0 stop₂) : Prop :=
  AtLast place form t₁ t₂ ∨ AtLast place form t₁ (t₂.goOn words form)

theorem free_of_double {pos : Nat} (double : place (pos + 1) = place pos + 2) : form = .free := by
  cases form with
  | free => rfl
  | fixed =>
    have same := sides.fixed rfl
    rw [same, same] at double
    omega

theorem BothClosed.opened {t₁ : Scan src₁ 0 stop₁} {t₂ : Scan src₂ 0 stop₂}
    (closed : BothClosed place form t₁ t₂) (words : Dictionary) :
    Handles place words form (if t₁.cursor.state = .plain then t₁.openToken form else t₁)
      (if t₂.cursor.state = .plain then t₂.openToken form else t₂) := by
  rcases closed with atLast | ⟨atFirst, plain⟩
  · rw [← atLast.cursor.state]
    exact .inl (.branch (fun _ => atLast.openToken sides) atLast)
  · rw [← atFirst.cursor.state, if_pos plain, if_pos plain]
    rcases sides.text.place_succ t₁.cursor.pos with single | double
    · have atLast : AtLast place form t₁ t₂ :=
        ⟨atFirst.toRespelt, by rw [atFirst.first, single], .inl atFirst.nonBlank⟩
      exact .inl (atLast.openToken sides)
    · obtain rfl := free_of_double sides double
      obtain ⟨ch₁, ch₂, -⟩ := atFirst.lineEnd_of_double sides double
      rw [Alike.openToken_of_lineEnd (by rw [ch₁]; rfl), Alike.openToken_of_lineEnd (by rw [ch₂]; rfl)]
      exact .inr (atFirst.atLast_of_calm sides double (by rw [plain]; exact List.mem_cons_self) words)

theorem AtFirst.tokenStep (atFirst : AtFirst place form s₁ s₂) (words : Dictionary)
    (names : s₁.cursor.state = .identifier → ∀ pos, s₁.cursor.segment ≤ pos → pos < s₁.cursor.pos →
      isLineEnd (src₁.charD pos '\x00') = false) :
    Handles place words form (s₁.tokenStep words form) (s₂.tokenStep words form) := by
  rcases sides.text.place_succ s₁.cursor.pos with single | double
  · have atLast : AtLast place form s₁ s₂ :=
      ⟨atFirst.toRespelt, by rw [atFirst.first, single], .inl atFirst.nonBlank⟩
    have isSign := atFirst.cursor.ch sides |>.eq_iff '#' rfl rfl
    simp only [Scan.tokenStep, numberSignStep, isSign, ← atFirst.nonBlank]
    split
    · obtain ⟨ended, last⟩ := (atFirst.cursor.setState sides .preprocessor).toLineEnd sides atLast.last
      have rest : AtLast place form (s₁.withCursor (s₁.cursor.setState .preprocessor).toLineEnd)
          (s₂.withCursor (s₂.cursor.setState .preprocessor).toLineEnd) :=
        ⟨⟨ended, atFirst.carried⟩, last, .inl atFirst.nonBlank⟩
      have other : (s₁.cursor.setState .preprocessor).toLineEnd.state ≠ .identifier := by
        rw [Cursor.state_toLineEnd]
        exact Style.ne_identifier rfl
      exact (rest.closeToken sides words (absurd · other) (absurd · other)).opened sides words
    · exact (atLast.closeToken sides words (fun _ => atFirst.first) names).opened sides words
  · obtain rfl := free_of_double sides double
    exact .inr (atFirst.tokenStep_of_double sides double words names)

/-! ### Continuation marks -/

theorem AtFirst.countByte (atFirst : AtFirst place form s₁ s₂) :
    AtFirst place form s₁.countByte s₂.countByte := by
  have space := blind_isSpaceOrTab _ _ (atFirst.cursor.ch sides)
  simp only [Scan.countByte, ← space]
  split
  · exact atFirst
  · exact ⟨⟨atFirst.cursor, atFirst.carried⟩, atFirst.first, congrArg (· + 1) atFirst.nonBlank⟩

theorem AtLast.skipOne (atLast : AtLast place form s₁ s₂) (inside : s₁.cursor.pos < src₁.size) :
    AtFirst place form s₁.skipOne s₂.skipOne := by
  obtain ⟨moved, first⟩ := atLast.cursor.forward sides atLast.last inside
  have end₁ := sides.end₁
  have starts := moved.atLineStart_of_first sides first
  have started : s₁.cursor.forward.atLineStart = s₁.cursor.atLineEnd := by
    rw [Cursor.forward, if_pos (by omega)]
  refine AtFirst.countByte sides ⟨⟨moved, atLast.carried⟩, first, ?_⟩
  dsimp only
  rw [starts, started]
  split
  · rfl
  · rename_i inLine
    exact atLast.nonBlank.resolve_right inLine

theorem AtFirst.skipSpaces (atFirst : AtFirst place form s₁ s₂) :
    AtFirst place form s₁.skipSpaces s₂.skipSpaces := by
  have end₁ := sides.end₁
  have end₂ := sides.end₂
  fun_induction Scan.skipSpaces s₁ generalizing s₂ with
  | case1 s₁ going ih =>
    replace ih : ∀ {s₂ : Scan src₂ 0 stop₂}, AtFirst place form s₁.skipOne s₂ →
        AtFirst place form s₁.skipOne.skipSpaces s₂.skipSpaces := ih
    change AtFirst place form s₁.skipOne.skipSpaces s₂.skipSpaces
    have inside := atFirst.cursor.tracks₁.lt_size (by intro none; rw [none] at going; cases going.1)
    have inside₂ := (atFirst.cursor.inside_iff sides).2 inside
    have space₂ : isSpace s₂.cursor.ch = true := by
      rw [← blind_isSpace _ _ (atFirst.cursor.ch sides), going.1]
    rw [skipSpaces_eq s₂, if_pos ⟨space₂, by omega⟩]
    rcases sides.text.place_succ s₁.cursor.pos with single | double
    · have atLast : AtLast place form s₁ s₂ :=
        ⟨atFirst.toRespelt, by rw [atFirst.first, single], .inl atFirst.nonBlank⟩
      exact ih (atLast.skipOne sides inside)
    · -- The second scan skips the carriage return as well.
      obtain rfl := free_of_double sides double
      obtain ⟨feed, ends⟩ := atFirst.feed_of_double sides double
      have atLast : AtLast place .free s₁ s₂.skipOne := by
        refine ⟨⟨?_, fun fixed => absurd fixed (by decide)⟩, ?_, .inr ?_⟩
        · rw [cursor_skipOne]
          exact feed.cursor
        · rw [cursor_skipOne]
          exact feed.last
        · exact (atFirst.lineEnd_of_double sides double).2.2
      have space₃ : isSpace s₂.skipOne.cursor.ch = true ∧ s₂.skipOne.cursor.pos < stop₂ := by
        have inside₃ := (atLast.cursor.inside_iff sides).2 inside
        refine ⟨?_, by omega⟩
        rw [← blind_isSpace _ _ (atLast.cursor.ch sides), going.1]
      rw [skipSpaces_eq s₂.skipOne, if_pos space₃]
      exact ih (atLast.skipOne sides inside)
  | case2 s₁ stays =>
    have inside := atFirst.cursor.tracks₁.inside
    have stays₂ : ¬(isSpace s₂.cursor.ch = true ∧ s₂.cursor.pos < stop₂) := by
      rw [← blind_isSpace _ _ (atFirst.cursor.ch sides)]
      exact fun going => stays ⟨going.1, by omega⟩
    rwa [skipSpaces_eq s₂, if_neg stays₂]

theorem AtFirst.forwardMark (atFirst : AtFirst place form s₁ s₂) (mark : s₁.cursor.ch = '&') :
    AtFirst place form (s₁.withCursor (s₁.cursor.setState .continuation).forward)
      (s₂.withCursor (s₂.cursor.setState .continuation).forward) :=
  (atFirst.setState sides .continuation).forward sides
    (show isLineEnd s₁.cursor.ch = false by rw [mark]; rfl)
    (show s₁.cursor.ch ≠ '\x00' by rw [mark]; decide) atFirst.carried

theorem AtFirst.resumeNextLine (atFirst : AtFirst place form s₁ s₂) (mark : s₁.cursor.ch = '&') :
    AtFirst place form s₁.resumeNextLine s₂.resumeNextLine := by
  have past : AtFirst place form s₁.pastMark s₂.pastMark :=
    (atFirst.forwardMark sides mark).setState sides .plain
  have skipped := past.skipSpaces sides
  have led : AtFirst place form
      (s₁.pastMark.skipSpaces.withCursor (skipLeadingMark s₁.pastMark.skipSpaces.cursor))
      (s₂.pastMark.skipSpaces.withCursor (skipLeadingMark s₂.pastMark.skipSpaces.cursor)) := by
    have again := (skipped.cursor.ch sides).eq_iff '&' rfl rfl
    simp only [skipLeadingMark, again]
    split
    · exact skipped.forwardMark sides (by assumption)
    · exact skipped
  have resumed := led.setState sides s₁.cursor.state
  have state := atFirst.cursor.state
  unfold Scan.resumeNextLine
  dsimp only
  rw [← state]
  exact resumed

theorem AtFirst.ampersandStep (atFirst : AtFirst place form s₁ s₂) (mark : s₁.cursor.ch = '&') :
    AtFirst place form s₁.ampersandStep s₂.ampersandStep := by
  have atLast := atFirst.atLast sides (by rw [mark]; rfl)
  have ahead := Cursor.Respelt.afterBlanks_respells sides.text atLast.last
  have comment := ahead.eq_iff '!' rfl rfl
  have lineEnd := blind_isLineEnd _ _ ahead
  have next := (atFirst.cursor.next_of_last sides atLast.last).eq_iff '!' rfl rfl
  simp only [Scan.ampersandStep, comment, ← lineEnd, next]
  split
  · exact (atFirst.forwardMark sides mark).setState sides _
  split
  · exact atFirst.resumeNextLine sides mark
  · exact atFirst

end Steps

/-! ### Columns of fixed form -/

section Fixed

variable (sides : Respelling place .fixed src₁ stop₁ src₂ stop₂)
include sides

theorem AtFirst.atLast_of_fixed (atFirst : AtFirst place .fixed s₁ s₂) :
    AtLast place .fixed s₁ s₂ := by
  have same := sides.fixed rfl
  exact ⟨atFirst.toRespelt, by rw [atFirst.first, same, same], .inl atFirst.nonBlank⟩

theorem AtFirst.toLineEnd (atFirst : AtFirst place .fixed s₁ s₂) (state : Style) :
    AtLast place .fixed (s₁.withCursor (s₁.cursor.setState state).toLineEnd)
      (s₂.withCursor (s₂.cursor.setState state).toLineEnd) :=
  have ⟨ended, last⟩ := (atFirst.cursor.setState sides state).toLineEnd sides
    (atFirst.atLast_of_fixed sides).last
  ⟨⟨ended, atFirst.carried⟩, last, .inl atFirst.nonBlank⟩

theorem AtFirst.markStep (atFirst : AtFirst place .fixed s₁ s₂)
    (inside : s₁.cursor.pos < src₁.size) : AtLast place .fixed s₁.markStep s₂.markStep := by
  have ch := atFirst.cursor.ch sides
  have lineEnd := blind_isLineEnd _ _ ch
  have space := blind_isSpace _ _ ch
  have zero := ch.eq_iff '0' rfl rfl
  have set (state carried : Style) : AtLast place .fixed
      { s₁ with cursor := s₁.cursor.setState state, carried := carried }
      { s₂ with cursor := s₂.cursor.setState state, carried := carried } :=
    ⟨⟨atFirst.cursor.setState sides state, fun _ => rfl⟩, (atFirst.atLast_of_fixed sides).last,
      .inl atFirst.nonBlank⟩
  simp only [Scan.markStep, ← lineEnd, ← space, zero, ← atFirst.carried rfl]
  split
  · exact set _ _
  split
  · exact set _ _
  · have marked := atFirst.setState sides .continuation
    obtain ⟨moved, first⟩ :=
      marked.cursor.forwardSetState sides (marked.atLast_of_fixed sides).last inside s₁.carried
    have resumed : AtFirst place .fixed
        (s₁.withCursor ((s₁.cursor.setState .continuation).forwardSetState s₁.carried))
        (s₂.withCursor ((s₂.cursor.setState .continuation).forwardSetState s₁.carried)) :=
      ⟨⟨moved, atFirst.carried⟩, first, atFirst.nonBlank⟩
    exact resumed.atLast_of_fixed sides

theorem AtFirst.fixedStep (atFirst : AtFirst place .fixed s₁ s₂) {column : Nat}
    (columns : column ≤ markColumn ∨ tailColumn ≤ column)
    (inside : column = markColumn → s₁.cursor.pos < src₁.size) :
    AtLast place .fixed (s₁.fixedStep column) (s₂.fixedStep column) := by
  have atLast := atFirst.atLast_of_fixed sides
  have lower := atLast.cursor.ch_of_last sides atLast.last
  have ch : CharRespells s₁.cursor.ch s₂.cursor.ch := .inl lower
  have star := ch.eq_iff '*' rfl rfl
  have bang := ch.eq_iff '!' rfl rfl
  have digit := blind_isDigit _ _ ch
  have comment := atLast.cursor.commentStyle_eq sides atFirst.first atLast.last
    (show (fixedDirectives.all fun text => text.toList.all (!isLineEnd ·)) = true from rfl)
  simp only [Scan.fixedStep, ← lower, star, bang, comment, ← digit]
  split
  · exact atFirst.toLineEnd sides _
  split
  · exact atFirst.toLineEnd sides _
  split
  · exact atLast.setState sides _
  · exact atFirst.markStep sides (inside (by omega))

end Fixed

/-! ### Turns -/

/-- Two scans between two turns. Where a line begins, both begin to count afresh. -/
structure AtTurn (place : Nat → Nat) (form : SourceForm) (s₁ : Scan src₁ 0 stop₁)
    (s₂ : Scan src₂ 0 stop₂) : Prop extends Respelt place form s₁ s₂ where
  first : s₂.cursor.pos = place s₁.cursor.pos
  nonBlank : s₁.nonBlank = s₂.nonBlank ∨ s₁.cursor.atLineStart = true

theorem painted_run_of_end_of_text {src : Source} {stop : Nat} {t : Scan src 0 stop}
    {words : Dictionary} (ended : t.cursor.pos = src.size) (size : stop = src.size + 1) :
    ((t.withCursor t.cursor.forward).run words form).cursor.paint.painted =
      t.cursor.paint.painted := by
  have pos : (t.withCursor t.cursor.forward).cursor.pos = stop := by
    change t.cursor.forward.pos = stop
    rw [Cursor.pos_forward, if_pos (by omega), ended, size]
  rw [run_of_le (Nat.le_of_eq pos.symm)]
  exact Cursor.painted_paint_forward (Nat.le_of_eq ended.symm)

section Turns

variable (sides : Respelling place form src₁ stop₁ src₂ stop₂)
include sides

theorem AtTurn.beginLine (atTurn : AtTurn place form s₁ s₂) :
    AtFirst place form s₁.beginLine s₂.beginLine := by
  have starts := atTurn.cursor.atLineStart_of_first sides atTurn.first
  simp only [Scan.beginLine, starts]
  split
  · exact ⟨⟨atTurn.cursor.setState sides .plain, atTurn.carried⟩, atTurn.first, rfl⟩
  · rename_i inLine
    exact ⟨atTurn.toRespelt, atTurn.first, atTurn.nonBlank.resolve_right inLine⟩

theorem AtTurn.step {words : Dictionary} (atTurn : AtTurn place form s₁ s₂)
    (between : Between words form s₁)
    (inside : form = .fixed → s₁.cursor.column = markColumn → s₁.cursor.pos < src₁.size) :
    Handles place words form (s₁.step words form) (s₂.step words form) := by
  have room : src₁.size < stop₁ := by rw [sides.end₁]; exact Nat.lt_succ_self _
  have begun := between.beginLine
  have atFirst := (atTurn.beginLine sides).countByte sides
  have column := column_beginLine s₁
  have pos := pos_beginLine s₁
  have counted := counted_countByte s₁.beginLine
  rw [← column, ← pos] at inside
  unfold Scan.step
  dsimp only
  generalize s₁.beginLine = s₁ at *
  generalize s₂.beginLine = s₂ at *
  have inLine {s : Scan src₁ 0 stop₁} (worded : s.cursor.Worded words form)
      (identifier : s.cursor.state = .identifier) (pos : Nat) (low : s.cursor.segment ≤ pos)
      (high : pos < s.cursor.pos) : isLineEnd (src₁.charD pos '\x00') = false :=
    isLineEnd_of_isNameChar (worded.names identifier pos low high)
  have worded : s₁.countByte.cursor.Worded words form := by
    rw [cursor_countByte]
    exact begun.cursor
  cases form with
  | fixed =>
    have columns := atFirst.cursor.column_eq sides rfl
    dsimp only
    rw [columns]
    split
    · rename_i early
      refine .inl (atFirst.fixedStep sides early ?_)
      rw [cursor_countByte]
      exact inside rfl
    · exact atFirst.tokenStep sides words (inLine worded)
  | free =>
    have mark := (atFirst.cursor.ch sides).eq_iff '&' rfl rfl
    have other : SourceForm.free ≠ .fixed := by decide
    have carried : s₁.countByte.carried.isWord = false := by
      rw [carried_countByte]
      exact begun.carried
    dsimp only
    simp only [mark, ← atFirst.cursor.state]
    split
    · rename_i marked
      have token : AtToken words .free s₁.countByte :=
        ⟨worded, carried, counted, fun fixed => absurd fixed other⟩
      have resumed := (token.ampersandStep sides.text.table₁ room marked.1).1.cursor
      exact (atFirst.ampersandStep sides marked.1).tokenStep sides words (inLine resumed)
    · exact atFirst.tokenStep sides words (inLine worded)

theorem AtLast.atTurn (atLast : AtLast place form s₁ s₂) (inside : s₁.cursor.pos < src₁.size) :
    AtTurn place form (s₁.withCursor s₁.cursor.forward) (s₂.withCursor s₂.cursor.forward) := by
  obtain ⟨moved, first⟩ := atLast.cursor.forward sides atLast.last inside
  have end₁ := sides.end₁
  refine ⟨⟨moved, atLast.carried⟩, first, atLast.nonBlank.imp_right fun ends => ?_⟩
  change s₁.cursor.forward.atLineStart = true
  rw [Cursor.forward, if_pos (by omega)]
  exact ends

theorem AtLast.shades_run_of_end {words : Dictionary} (atLast : AtLast place form s₁ s₂)
    (ended : s₁.cursor.pos = src₁.size) {pos₁ pos₂ : Nat} (last : pos₂ + 1 = place (pos₁ + 1))
    (inside : pos₁ < src₁.size) :
    (Span.shades ((s₁.withCursor s₁.cursor.forward).run words form).cursor.paint.painted)[pos₁]? =
      (Span.shades ((s₂.withCursor s₂.cursor.forward).run words form).cursor.paint.painted)[pos₂]? := by
  have ended₂ : s₂.cursor.pos = src₂.size := by
    have past := mt (atLast.cursor.inside_iff sides).1 (Nat.not_lt_of_le (Nat.le_of_eq ended.symm))
    have inside₂ := atLast.cursor.tracks₂.inside
    omega
  rw [painted_run_of_end_of_text ended sides.end₁, painted_run_of_end_of_text ended₂ sides.end₂]
  exact atLast.cursor.shades_paint sides last (ended.symm ▸ inside)

/-- A step from the end of the text to a position past it paints nothing. -/
theorem AtTurn.shades_run_pastText {words : Dictionary} (atTurn : AtTurn place form s₁ s₂)
    (fixed : form = .fixed) (column : s₁.cursor.column = markColumn)
    (past : src₁.size ≤ s₁.cursor.pos) (more₁ : s₁.cursor.pos < stop₁)
    (more₂ : s₂.cursor.pos < stop₂) {pos₁ pos₂ : Nat} (last : pos₂ + 1 = place (pos₁ + 1))
    (inside : pos₁ < src₁.size) :
    (Span.shades (s₁.run words form).cursor.paint.painted)[pos₁]? =
      (Span.shades (s₂.run words form).cursor.paint.painted)[pos₂]? := by
  subst fixed
  have past₂ : src₂.size ≤ s₂.cursor.pos :=
    Nat.le_of_not_lt (mt (atTurn.cursor.inside_iff sides).1 (Nat.not_lt_of_le past))
  have ch₁ : s₁.cursor.ch = '\x00' := by
    rw [atTurn.cursor.tracks₁.ch, Source.charD_of_le past]
  have ch₂ : s₂.cursor.ch = '\x00' := by
    rw [atTurn.cursor.tracks₂.ch, Source.charD_of_le past₂]
  have column₂ : s₂.cursor.column = markColumn := by
    rw [atTurn.cursor.column_eq sides rfl, column]
  rw [painted_run_of_markColumn atTurn.cursor.sound₁ column ch₁ past more₁,
    painted_run_of_markColumn atTurn.cursor.sound₂ column₂ ch₂ past₂ more₂]
  refine (atTurn.beginLine sides).cursor.shades_paint sides last ?_
  rw [pos_beginLine]
  omega

/-- The second scan comes to the end of the place in one turn or in two. -/
theorem Handles.run {words : Dictionary} {t₁ : Scan src₁ 0 stop₁}
    (handles : Handles place words form t₁ (s₂.step words form)) (more : s₂.cursor.pos < stop₂) :
    ∃ t₂ : Scan src₂ 0 stop₂,
      s₂.run words form = (t₂.withCursor t₂.cursor.forward).run words form ∧
        AtLast place form t₁ t₂ := by
  rcases handles with atLast | atLast
  · exact ⟨_, run_of_lt more, atLast⟩
  · refine ⟨_, ?_, atLast⟩
    have end₂ := sides.end₂
    have moved := pos_le_step words form (s₂.advance words form)
    have inside : ((s₂.advance words form).step words form).cursor.pos ≤ src₂.size :=
      atLast.cursor.tracks₂.inside
    rw [run_of_lt more, run_of_lt (by omega)]
    rfl

theorem AtTurn.shades_run {words : Dictionary} (atTurn : AtTurn place form s₁ s₂)
    (between : Between words form s₁) {pos₁ pos₂ : Nat} (last : pos₂ + 1 = place (pos₁ + 1))
    (inside : pos₁ < src₁.size) :
    (Span.shades (s₁.run words form).cursor.paint.painted)[pos₁]? =
      (Span.shades (s₂.run words form).cursor.paint.painted)[pos₂]? := by
  have end₁ := sides.end₁
  have end₂ := sides.end₂
  -- The induction is on the turns of the first scan.
  induction s₁ using turns words form generalizing s₂ with
  | done s₁ done =>
    have inside := between.cursor.tracks.inside
    omega
  | turn s₁ more ih =>
    have room : src₁.size < stop₁ := by omega
    have more₂ : s₂.cursor.pos < stop₂ := by
      have := atTurn.cursor.tracks₂.inside
      omega
    by_cases pastText : form = .fixed ∧ s₁.cursor.column = markColumn ∧ src₁.size ≤ s₁.cursor.pos
    · obtain ⟨fixed, column, past⟩ := pastText
      exact atTurn.shades_run_pastText sides fixed column past more more₂ last inside
    · have inText (fixed : form = .fixed) (column : s₁.cursor.column = markColumn) :
          s₁.cursor.pos < src₁.size :=
        Nat.lt_of_not_le fun past => pastText ⟨fixed, column, past⟩
      have handled := between.step sides.text.table₁ room inText
      obtain ⟨t₂, run₂, atLast⟩ := (atTurn.step sides between inText).run sides more₂
      rw [run_of_lt more, run₂]
      rcases Nat.lt_or_eq_of_le handled.cursor.tracks.inside with further | ended
      · exact ih (atLast.atTurn sides further) (handled.advance sides.text.table₁ room further)
      · exact atLast.shades_run_of_end sides ended last inside

end Turns

theorem Begun.atTurn (sides : Respelling place form src₁ stop₁ src₂ stop₂)
    (begun₁ : Begun 0 [] s₁) (begun₂ : Begun 0 [] s₂)
    (carried : form = .fixed → s₁.carried = s₂.carried) : AtTurn place form s₁ s₂ := by
  have first : s₂.cursor.pos = place s₁.cursor.pos := by
    rw [begun₁.pos, begun₂.pos, sides.text.zero]
  refine ⟨⟨⟨begun₁.sound, begun₂.sound, begun₁.tracks, begun₂.tracks, .inl first, ?_, .inl ?_, ?_⟩,
    carried⟩, first, .inl ?_⟩
  · rw [begun₁.state, begun₂.state]
  · rw [begun₁.segment, begun₂.segment, sides.text.zero]
  · intro pos₁ _ _ before
    rw [begun₁.segment] at before
    exact absurd before (Nat.not_lt_zero _)
  · rw [begun₁.nonBlank, begun₂.nonBlank]

end Scan

/-! ## Styles -/

namespace Source

variable {place : Nat → Nat} {src₁ src₂ : Source} {form : SourceForm}

/-- A pass over a respelling of a text gives the last byte that a byte stands as its style. -/
theorem freshStyle_of_respells (respells : Respells place src₁ src₂)
    (fixed : form = .fixed → ∀ pos, place pos = pos) (words : Dictionary) (outside : Style)
    {pos₁ pos₂ : Nat} (last : pos₂ + 1 = place (pos₁ + 1)) :
    src₁.freshStyle words form outside pos₁ = src₂.freshStyle words form outside pos₂ := by
  have end₁ : src₁.walkEnd src₁.size = src₁.size + 1 := if_pos rfl
  have end₂ : src₂.walkEnd src₂.size = src₂.size + 1 := if_pos rfl
  have sides : Respelling place form src₁ (src₁.walkEnd src₁.size) src₂ (src₂.walkEnd src₂.size) :=
    ⟨respells, end₁, end₂, fixed⟩
  have begun₁ := Scan.begun_fresh respells.table₁ src₁.startsLine_zero (src₁.walkEnd src₁.size)
    outside
  have begun₂ := Scan.begun_fresh respells.table₂ src₂.startsLine_zero (src₂.walkEnd src₂.size)
    outside
  by_cases inside : pos₁ < src₁.size
  · have between : Scan.Between words form
        (Scan.fresh src₁ 0 (src₁.walkEnd src₁.size) outside).beginLine :=
      begun₁.between (by rw [Scan.carried_beginLine]; rfl)
    have atTurn := begun₁.atTurn sides begun₂ (fun _ => by
      rw [Scan.carried_beginLine, Scan.carried_beginLine]; rfl)
    have same := atTurn.shades_run sides between last inside
    rw [Scan.run_beginLine (Cursor.sound_atStart outside (Nat.zero_le _)) (by change 0 < _; omega),
      Scan.run_beginLine (Cursor.sound_atStart outside (Nat.zero_le _)) (by change 0 < _; omega)]
      at same
    exact congrArg (Option.getD · .plain) same
  · have stands : Stands place pos₁ pos₂ := .inr last
    have past₂ : ¬pos₂ < src₂.size := by rwa [← respells.size, respells.stands_lt_iff stands]
    rw [freshStyle_of_le (Nat.le_of_not_lt inside), freshStyle_of_le (Nat.le_of_not_lt past₂)]

end Source

end FortranMarkup
