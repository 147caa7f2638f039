import FortranMarkup.Proofs.Styling.Moves
import FortranMarkup.Proofs.Styling.WordStyles

/-!
# Equal statement fields

What a scan in fixed form does between the column of the mark and the columns after the statement
depends on the text there alone. Two scans as far into two fields of equal text
(`Scan.Abreast`), which may stand in different places of different sources, paint the field alike
(`Scan.Abreast.run`).
-/

namespace FortranMarkup

namespace Source

/-- From a position, which is right after the column of the mark, to the end of its line there are
some characters. -/
structure Field (src : Source) (first : Nat) (chars : List Char) : Prop where
  table : src.Tabled
  spells : src.Spells first chars
  column : src.columnAt first = markColumn + 1
  inLine : ∀ i, i + 1 < chars.length → endsLineAt src.bytes (first + i) = false
  last : (∀ c ∈ chars, isLineEnd c = false) → src.size = first + chars.length
  ends : (∃ c ∈ chars, isLineEnd c = true) → src.StartsLine (first + chars.length)

/-- A distance into a field at which a scan is still on its line: it is at a character, or at the end
of the source. -/
def OnLine (chars : List Char) (offset : Nat) : Prop :=
  offset < chars.length ∨ offset = chars.length ∧ ∀ c ∈ chars, isLineEnd c = false

theorem OnLine.le {chars : List Char} {offset : Nat} (onLine : OnLine chars offset) :
    offset ≤ chars.length := by
  rcases onLine with less | ⟨same, -⟩
  · exact Nat.le_of_lt less
  · exact Nat.le_of_eq same

namespace Field

variable {src : Source} {first : Nat} {chars : List Char} {offset : Nat}

theorem char? (field : src.Field first chars) (bound : offset < chars.length) :
    src.char? (first + offset) = some chars[offset] :=
  char?_of_spells field.spells bound

theorem lt_size (field : src.Field first chars) (bound : offset < chars.length) :
    first + offset < src.size :=
  lt_size_of_char? (field.char? bound)

theorem charD (field : src.Field first chars) (onLine : OnLine chars offset) (past : Char) :
    src.charD (first + offset) past = chars[offset]?.getD past := by
  rcases onLine with less | ⟨rfl, none⟩
  · rw [charD_of_char? (field.char? less), List.getElem?_eq_getElem less, Option.getD_some]
  · rw [charD_of_le (Nat.le_of_eq (field.last none)), List.getElem?_eq_none (Nat.le_refl _),
      Option.getD_none]

theorem columnAt (field : src.Field first chars) (onLine : OnLine chars offset) :
    src.columnAt (first + offset) = markColumn + 1 + offset := by
  induction offset with
  | zero => exact field.column
  | succ offset ih =>
    have before : OnLine chars offset := .inl (Nat.lt_of_succ_le onLine.le)
    have stays : endsLineAt src.bytes (first + offset) = false := by
      rcases onLine with less | ⟨same, none⟩
      · exact field.inLine offset less
      · have bound : offset < chars.length := by omega
        have inLine := none _ (List.getElem_mem bound)
        apply Bool.eq_false_iff.2
        exact not_endsLineAt_of_char? (field.char? bound) inLine
    have low := lineStart_lineAt_le field.table (first + offset)
    have here := ih before
    unfold Source.columnAt at here ⊢
    rw [← Nat.add_assoc, lineAt_succ field.table, stays, if_neg Bool.false_ne_true]
    omega

theorem endsLineAt_eq (field : src.Field first chars) (bound : offset < chars.length) :
    endsLineAt src.bytes (first + offset) =
      (offset + 1 = chars.length && isLineEnd chars[offset]) := by
  by_cases inside : offset + 1 < chars.length
  · rw [field.inLine offset inside, decide_eq_false (by omega), Bool.false_and]
  · have last : offset + 1 = chars.length := by omega
    rw [decide_eq_true last, Bool.true_and]
    cases ends : isLineEnd chars[offset] with
    | true =>
      have starts := field.ends ⟨_, List.getElem_mem bound, ends⟩
      rwa [← last, ← Nat.add_assoc, startsLine_succ] at starts
    | false =>
      apply Bool.eq_false_iff.2
      exact not_endsLineAt_of_char? (field.char? bound) ends

theorem onLine_succ (field : src.Field first chars) (bound : offset < chars.length)
    (inLine : isLineEnd chars[offset] = false) : OnLine chars (offset + 1) := by
  by_cases more : offset + 1 < chars.length
  · exact .inl more
  · refine .inr ⟨by omega, ?_⟩
    intro c mem
    apply Bool.eq_false_iff.2
    intro ends
    have starts := field.ends ⟨c, mem, ends⟩
    have same : first + chars.length = first + offset + 1 := by omega
    rw [same, startsLine_succ] at starts
    exact not_endsLineAt_of_char? (field.char? bound) inLine starts

theorem charsD (field : src.Field first chars) {low : Nat} (bound : offset ≤ chars.length) :
    src.charsD (first + low) (first + offset) '\x00' =
      (List.range' low (offset - low)).map (fun i => chars[i]?.getD '\x00') := by
  have length : first + offset - (first + low) = offset - low := by omega
  rw [Source.charsD, length, ← List.map_add_range', List.map_map]
  apply List.map_congr_left
  intro i mem
  rw [List.mem_range'_1] at mem
  exact field.charD (.inl (by omega)) _

end Field

end Source

/-- A span with its positions counted from an earlier one. -/
def Span.shift (distance : Nat) (span : Span) : Span :=
  ⟨distance + span.start, distance + span.stop, span.style⟩

@[simp] theorem Span.shades_map_shift (distance : Nat) (spans : List Span) :
    shades (spans.map (shift distance)) = shades spans := by
  induction spans with
  | nil => rfl
  | cons span rest ih =>
    rw [List.map_cons, shades_cons, shades_cons, ih, shift]
    simp only [Nat.add_sub_add_left]

namespace Cursor

variable {chars : List Char} {offset : Nat} {old₁ old₂ : List Span} {src₁ src₂ : Source}
  {first₁ first₂ start₁ stop₁ start₂ stop₂ : Nat}

/-- Two cursors as far into two fields, which have painted the same there. -/
structure Abreast (chars : List Char) (offset first₁ first₂ : Nat) (old₁ old₂ : List Span)
    (c₁ : Cursor src₁ start₁ stop₁) (c₂ : Cursor src₂ start₂ stop₂) : Prop where
  onLine : Source.OnLine chars offset
  pos₁ : c₁.pos = first₁ + offset
  pos₂ : c₂.pos = first₂ + offset
  tracks₁ : c₁.Tracks
  tracks₂ : c₂.Tracks
  sound₁ : c₁.Sound
  sound₂ : c₂.Sound
  state : c₁.state = c₂.state
  segment : ∃ low, c₁.segment = first₁ + low ∧ c₂.segment = first₂ + low
  painted : ∃ new : List Span, c₁.painted = new.map (Span.shift first₁) ++ old₁ ∧
    c₂.painted = new.map (Span.shift first₂) ++ old₂

namespace Abreast

variable {c₁ : Cursor src₁ start₁ stop₁} {c₂ : Cursor src₂ start₂ stop₂}

theorem relabel (abreast : Abreast chars offset first₁ first₂ old₁ old₂ c₁ c₂) (state : Style) :
    Abreast chars offset first₁ first₂ old₁ old₂ (c₁.relabel state) (c₂.relabel state) :=
  ⟨abreast.onLine, abreast.pos₁, abreast.pos₂, abreast.tracks₁.relabel state,
    abreast.tracks₂.relabel state, sound_relabel abreast.sound₁ state,
    sound_relabel abreast.sound₂ state, rfl, abreast.segment, abreast.painted⟩

theorem painted_paint (abreast : Abreast chars offset first₁ first₂ old₁ old₂ c₁ c₂)
    {d₁ : Cursor src₁ start₁ stop₁} {d₂ : Cursor src₂ start₂ stop₂}
    (painted₁ : d₁.painted = c₁.painted) (painted₂ : d₂.painted = c₂.painted)
    (state₁ : d₁.state = c₁.state) (state₂ : d₂.state = c₂.state) {high : Nat}
    (edge₁ : min d₁.pos src₁.size = first₁ + high) (edge₂ : min d₂.pos src₂.size = first₂ + high) :
    ∃ new : List Span, d₁.paint.painted = new.map (Span.shift first₁) ++ old₁ ∧
      d₂.paint.painted = new.map (Span.shift first₂) ++ old₂ := by
  obtain ⟨new, same₁, same₂⟩ := abreast.painted
  obtain ⟨low, segment₁, segment₂⟩ := abreast.segment
  rw [segment_eq_edge] at segment₁ segment₂
  rw [Cursor.painted_paint, Cursor.painted_paint, edge₁, edge₂, segment_eq_edge, segment_eq_edge,
    painted₁, painted₂, segment₁, segment₂, state₁, state₂, abreast.state, same₁, same₂]
  by_cases filled : low < high
  · rw [if_pos (by omega), if_pos (by omega)]
    exact ⟨⟨low, high, c₂.state⟩ :: new, rfl, rfl⟩
  · rw [if_neg (by omega), if_neg (by omega)]
    exact ⟨new, rfl, rfl⟩

theorem paint (abreast : Abreast chars offset first₁ first₂ old₁ old₂ c₁ c₂) :
    Abreast chars offset first₁ first₂ old₁ old₂ c₁.paint c₂.paint := by
  have edge₁ := (Nat.min_eq_left abreast.tracks₁.inside).trans abreast.pos₁
  have edge₂ := (Nat.min_eq_left abreast.tracks₂.inside).trans abreast.pos₂
  refine ⟨abreast.onLine, abreast.pos₁, abreast.pos₂, abreast.tracks₁.paint, abreast.tracks₂.paint,
    sound_paint abreast.sound₁, sound_paint abreast.sound₂, abreast.state, ⟨offset, ?_, ?_⟩, ?_⟩
  · rw [segment_paint abreast.sound₁, edge₁]
  · rw [segment_paint abreast.sound₂, edge₂]
  · exact abreast.painted_paint rfl rfl rfl rfl edge₁ edge₂

theorem setState (abreast : Abreast chars offset first₁ first₂ old₁ old₂ c₁ c₂) (state : Style) :
    Abreast chars offset first₁ first₂ old₁ old₂ (c₁.setState state) (c₂.setState state) :=
  abreast.paint.relabel state

section Fields

variable (field₁ : src₁.Field first₁ chars) (field₂ : src₂.Field first₂ chars)
include field₁ field₂

theorem ch_eq (abreast : Abreast chars offset first₁ first₂ old₁ old₂ c₁ c₂) :
    c₁.ch = chars[offset]?.getD '\x00' ∧ c₂.ch = chars[offset]?.getD '\x00' := by
  constructor
  · rw [abreast.tracks₁.ch, abreast.pos₁, field₁.charD abreast.onLine]
  · rw [abreast.tracks₂.ch, abreast.pos₂, field₂.charD abreast.onLine]

theorem ch (abreast : Abreast chars offset first₁ first₂ old₁ old₂ c₁ c₂) : c₁.ch = c₂.ch := by
  obtain ⟨ch₁, ch₂⟩ := abreast.ch_eq field₁ field₂
  rw [ch₁, ch₂]

theorem next (abreast : Abreast chars offset first₁ first₂ old₁ old₂ c₁ c₂)
    (inLine : isLineEnd c₁.ch = false) : c₁.next = c₂.next := by
  obtain ⟨ch₁, -⟩ := abreast.ch_eq field₁ field₂
  rw [abreast.tracks₁.next, abreast.tracks₂.next, abreast.pos₁, abreast.pos₂, Nat.add_assoc,
    Nat.add_assoc]
  rcases abreast.onLine with less | ⟨rfl, none⟩
  · rw [ch₁, List.getElem?_eq_getElem less] at inLine
    have later := field₁.onLine_succ less inLine
    rw [field₁.charD later, field₂.charD later]
  · have last₁ := field₁.last none
    have last₂ := field₂.last none
    rw [Source.charD_of_le (by omega), Source.charD_of_le (by omega)]

theorem atLineEnd (abreast : Abreast chars offset first₁ first₂ old₁ old₂ c₁ c₂) :
    c₁.atLineEnd = c₂.atLineEnd := by
  rcases abreast.onLine with less | ⟨rfl, none⟩
  · rw [abreast.tracks₁.atLineEnd_eq field₁.table (abreast.pos₁ ▸ field₁.lt_size less),
      abreast.tracks₂.atLineEnd_eq field₂.table (abreast.pos₂ ▸ field₂.lt_size less),
      abreast.pos₁, abreast.pos₂, field₁.endsLineAt_eq less, field₂.endsLineAt_eq less]
  · have ends {src : Source} {start stop first : Nat} {c : Cursor src start stop}
        (field : src.Field first chars) (tracks : c.Tracks) (pos : c.pos = first + chars.length) :
        c.atLineEnd = true := by
      rw [← Bool.not_eq_false]
      intro inLine
      have inside := tracks.lt_size_of_atLineEnd field.table inLine
      have last := field.last none
      omega
    rw [ends field₁ abreast.tracks₁ abreast.pos₁, ends field₂ abreast.tracks₂ abreast.pos₂]

theorem column_eq (abreast : Abreast chars offset first₁ first₂ old₁ old₂ c₁ c₂) :
    c₁.column = markColumn + 1 + offset ∧ c₂.column = markColumn + 1 + offset := by
  rw [abreast.tracks₁.column_eq, abreast.tracks₂.column_eq, abreast.pos₁, abreast.pos₂]
  exact ⟨field₁.columnAt abreast.onLine, field₂.columnAt abreast.onLine⟩

theorem openWord_eq (abreast : Abreast chars offset first₁ first₂ old₁ old₂ c₁ c₂)
    (capacity : Nat) : c₁.openWord capacity = c₂.openWord capacity := by
  obtain ⟨low, segment₁, segment₂⟩ := abreast.segment
  rw [openWord, openWord, segment₁, segment₂, abreast.pos₁, abreast.pos₂,
    field₁.charsD abreast.onLine.le, field₂.charsD abreast.onLine.le]

theorem forward (abreast : Abreast chars offset first₁ first₂ old₁ old₂ c₁ c₂)
    (room₁ : src₁.size < stop₁) (room₂ : src₂.size < stop₂) (less : offset < chars.length)
    (later : Source.OnLine chars (offset + 1)) :
    Abreast chars (offset + 1) first₁ first₂ old₁ old₂ c₁.forward c₂.forward := by
  have pos₁ := abreast.pos₁
  have pos₂ := abreast.pos₂
  have inside₁ := field₁.lt_size less
  have inside₂ := field₂.lt_size less
  refine ⟨later, ?_, ?_, abreast.tracks₁.forward field₁.table (by omega) (by omega),
    abreast.tracks₂.forward field₂.table (by omega) (by omega), sound_forward abreast.sound₁,
    sound_forward abreast.sound₂, ?_, ?_, ?_⟩
  · rw [pos_forward, if_pos (by omega), pos₁, Nat.add_assoc]
  · rw [pos_forward, if_pos (by omega), pos₂, Nat.add_assoc]
  · rw [state_forward, state_forward, abreast.state]
  · rw [segment_forward, segment_forward]
    exact abreast.segment
  · rw [painted_forward, painted_forward]
    exact abreast.painted

theorem lt_length (abreast : Abreast chars offset first₁ first₂ old₁ old₂ c₁ c₂)
    (here : c₁.ch ≠ '\x00') : offset < chars.length := by
  rcases abreast.onLine with less | ⟨rfl, -⟩
  · exact less
  · obtain ⟨ch₁, -⟩ := abreast.ch_eq field₁ field₂
    rw [List.getElem?_eq_none (Nat.le_refl _)] at ch₁
    exact absurd ch₁ here

theorem forward_of_inLine (abreast : Abreast chars offset first₁ first₂ old₁ old₂ c₁ c₂)
    (room₁ : src₁.size < stop₁) (room₂ : src₂.size < stop₂) (here : c₁.ch ≠ '\x00')
    (inLine : isLineEnd c₁.ch = false) :
    Abreast chars (offset + 1) first₁ first₂ old₁ old₂ c₁.forward c₂.forward := by
  have less := abreast.lt_length field₁ field₂ here
  obtain ⟨ch₁, -⟩ := abreast.ch_eq field₁ field₂
  rw [ch₁, List.getElem?_eq_getElem less] at inLine
  exact abreast.forward field₁ field₂ room₁ room₂ less (field₁.onLine_succ less inLine)

/-! ### Looking ahead -/

omit field₂ in
theorem onLine_add (onLine : Source.OnLine chars offset) (distance : Nat)
    (inLine : ∀ i, i < distance → isLineEnd (src₁.charD (first₁ + (offset + i)) '\x00') = false) :
    Source.OnLine chars (offset + distance) ∨
      (∀ c ∈ chars, isLineEnd c = false) ∧ chars.length ≤ offset + distance := by
  induction distance with
  | zero => exact .inl onLine
  | succ distance ih =>
    have before := ih (fun i less => inLine i (Nat.lt_succ_of_lt less))
    have here := inLine distance (Nat.lt_succ_self _)
    rcases before with (less | ⟨same, none⟩) | ⟨none, past⟩
    · left
      rw [field₁.charD (.inl less), List.getElem?_eq_getElem less] at here
      exact field₁.onLine_succ less here
    · exact .inr ⟨none, by omega⟩
    · exact .inr ⟨none, by omega⟩

theorem charD_add (onLine : Source.OnLine chars offset) (distance : Nat)
    (inLine : ∀ i, i < distance → isLineEnd (src₁.charD (first₁ + (offset + i)) '\x00') = false) :
    src₁.charD (first₁ + (offset + distance)) '\x00' =
      src₂.charD (first₂ + (offset + distance)) '\x00' := by
  rcases onLine_add field₁ onLine distance inLine with here | ⟨none, past⟩
  · rw [field₁.charD here, field₂.charD here]
  · have last₁ := field₁.last none
    have last₂ := field₂.last none
    rw [Source.charD_of_le (by omega), Source.charD_of_le (by omega)]

theorem matchesText_of_abreast (abreast : Abreast chars offset first₁ first₂ old₁ old₂ c₁ c₂)
    {text : List Char} (inLine : ∀ a ∈ text, isLineEnd a = false)
    (matches₁ : c₁.matchesText text = true) : c₂.matchesText text = true := by
  rw [matchesText_iff abreast.tracks₁] at matches₁
  rw [matchesText_iff abreast.tracks₂]
  simp only [abreast.pos₁, abreast.pos₂, Nat.add_assoc] at matches₁ ⊢
  intro distance bound
  rw [← charD_add field₁ field₂ abreast.onLine distance]
  · exact matches₁ distance bound
  · intro i less
    apply Bool.eq_false_iff.2
    intro ends
    have lower := isLineEnd_toLower ends
    rw [matches₁ i (Nat.lt_trans less bound), inLine _ (List.getElem_mem _)] at lower
    cases lower

end Fields

theorem symm (abreast : Abreast chars offset first₁ first₂ old₁ old₂ c₁ c₂) :
    Abreast chars offset first₂ first₁ old₂ old₁ c₂ c₁ :=
  ⟨abreast.onLine, abreast.pos₂, abreast.pos₁, abreast.tracks₂, abreast.tracks₁, abreast.sound₂,
    abreast.sound₁, abreast.state.symm,
    abreast.segment.imp fun _ both => ⟨both.2, both.1⟩,
    abreast.painted.imp fun _ both => ⟨both.2, both.1⟩⟩

theorem commentStyle_eq (abreast : Abreast chars offset first₁ first₂ old₁ old₂ c₁ c₂)
    (field₁ : src₁.Field first₁ chars) (field₂ : src₂.Field first₂ chars)
    (inLine : isLineEnd c₁.ch = false) :
    Scan.commentStyle c₁ directives = Scan.commentStyle c₂ directives := by
  have all : (directives.all fun text => text.toList.all (!isLineEnd ·)) = true := rfl
  have inLines : ∀ text ∈ directives, ∀ a ∈ text.toList, isLineEnd a = false := by
    intro text mem a letter
    simpa using List.all_eq_true.1 (List.all_eq_true.1 all text mem) a letter
  have any : directives.any (fun text => c₁.matchesText text.toList) =
      directives.any (fun text => c₂.matchesText text.toList) := by
    rw [Bool.eq_iff_iff, List.any_eq_true, List.any_eq_true]
    constructor
    · rintro ⟨text, mem, found⟩
      exact ⟨text, mem, abreast.matchesText_of_abreast field₁ field₂ (inLines text mem) found⟩
    · rintro ⟨text, mem, found⟩
      exact ⟨text, mem, abreast.symm.matchesText_of_abreast field₂ field₁ (inLines text mem) found⟩
  rw [Scan.commentStyle, Scan.commentStyle, any, abreast.next field₁ field₂ inLine]

end Abreast

end Cursor

/-! ## Steps -/

namespace Scan

variable {chars : List Char} {offset : Nat} {old₁ old₂ : List Span} {src₁ src₂ : Source}
  {first₁ first₂ start₁ stop₁ start₂ stop₂ : Nat} {words : Dictionary}

/-- Two scans that a rule has brought as far into two fields, past the character at hand only if it is
visible. -/
structure Brought (chars : List Char) (offset first₁ first₂ : Nat) (old₁ old₂ : List Span)
    (visible : Prop) (t₁ : Scan src₁ start₁ stop₁) (t₂ : Scan src₂ start₂ stop₂) : Prop where
  cursor : ∃ later, t₁.cursor.Abreast chars later first₁ first₂ old₁ old₂ t₂.cursor ∧
    (later = offset ∨ offset < later ∧ visible)

section Rules

variable {s₁ : Scan src₁ start₁ stop₁} {s₂ : Scan src₂ start₂ stop₂} {visible : Prop}

theorem brought_of_abreast {t₁ : Scan src₁ start₁ stop₁} {t₂ : Scan src₂ start₂ stop₂}
    (abreast : t₁.cursor.Abreast chars offset first₁ first₂ old₁ old₂ t₂.cursor) :
    Brought chars offset first₁ first₂ old₁ old₂ visible t₁ t₂ :=
  ⟨offset, abreast, .inl rfl⟩

theorem Brought.branch {p : Prop} [Decidable p] {t₁ : Scan src₁ start₁ stop₁}
    {t₂ : Scan src₂ start₂ stop₂}
    (yes : Brought chars offset first₁ first₂ old₁ old₂ visible s₁ s₂)
    (no : Brought chars offset first₁ first₂ old₁ old₂ visible t₁ t₂) :
    Brought chars offset first₁ first₂ old₁ old₂ visible (if p then s₁ else t₁)
      (if p then s₂ else t₂) := by
  split
  · exact yes
  · exact no

variable (field₁ : src₁.Field first₁ chars) (field₂ : src₂.Field first₂ chars)
  (room₁ : src₁.size < stop₁) (room₂ : src₂.size < stop₂)
include field₁ field₂ room₁ room₂

theorem brought_literalStep {quote : Char} (isQuote : quote = '\'' ∨ quote = '"')
    (abreast : s₁.cursor.Abreast chars offset first₁ first₂ old₁ old₂ s₂.cursor) :
    Brought chars offset first₁ first₂ old₁ old₂ (isSpaceOrTab s₁.cursor.ch = false)
      (s₁.literalStep quote) (s₂.literalStep quote) := by
  unfold literalStep
  dsimp only
  rw [← abreast.ch field₁ field₂]
  split
  · rename_i here
    have facts : isSpaceOrTab s₁.cursor.ch = false ∧ isLineEnd s₁.cursor.ch = false ∧
        s₁.cursor.ch ≠ '\x00' := by
      rw [here]
      rcases isQuote with rfl | rfl
      · decide
      · decide
    have moved := abreast.forward_of_inLine field₁ field₂ room₁ room₂ facts.2.2 facts.2.1
    rw [← abreast.next field₁ field₂ facts.2.1]
    split
    · exact ⟨offset + 1, moved, .inr ⟨Nat.lt_succ_self _, facts.1⟩⟩
    · exact ⟨offset + 1, moved.setState .plain, .inr ⟨Nat.lt_succ_self _, facts.1⟩⟩
  · exact brought_of_abreast abreast

theorem brought_closeToken
    (abreast : s₁.cursor.Abreast chars offset first₁ first₂ old₁ old₂ s₂.cursor) :
    Brought chars offset first₁ first₂ old₁ old₂ (isSpaceOrTab s₁.cursor.ch = false)
      (s₁.closeToken words .fixed) (s₂.closeToken words .fixed) := by
  have plain : Brought chars offset first₁ first₂ old₁ old₂ (isSpaceOrTab s₁.cursor.ch = false)
      (s₁.withCursor (s₁.cursor.setState .plain)) (s₂.withCursor (s₂.cursor.setState .plain)) :=
    brought_of_abreast (abreast.setState .plain)
  have same : Brought chars offset first₁ first₂ old₁ old₂ (isSpaceOrTab s₁.cursor.ch = false)
      s₁ s₂ := brought_of_abreast abreast
  have state₂ := abreast.state
  have ch := abreast.ch field₁ field₂
  have atLineEnd := abreast.atLineEnd field₁ field₂
  cases state : s₁.cursor.state <;> rw [state] at state₂ <;>
    simp only [closeToken, state, ← state₂, ← ch, ← atLineEnd]
  case apostropheLiteral | quoteLiteral =>
    split
    · exact brought_of_abreast (abreast.relabel .openLiteral)
    · exact brought_literalStep field₁ field₂ room₁ room₂ (by simp) abreast
  case dottedOperator =>
    split
    · rename_i stopped
      have moved := abreast.forward_of_inLine field₁ field₂ room₁ room₂ (by rw [stopped]; decide)
        (by rw [stopped]; decide)
      exact ⟨offset + 1, moved.setState .plain, .inr ⟨Nat.lt_succ_self _, by rw [stopped]; decide⟩⟩
    · exact same
  case identifier =>
    split
    · exact same
    · refine brought_of_abreast ?_
      unfold closeIdentifier
      rw [cursor_withCursor, cursor_withCursor, ← abreast.openWord_eq field₁ field₂,
        ← abreast.state]
      exact (abreast.relabel _).setState .plain
  case label =>
    have columns := abreast.column_eq field₁ field₂
    have past : s₁.pastLabel .fixed = s₂.pastLabel .fixed := by
      simp only [pastLabel, columns.1, columns.2]
    rw [← past]
    exact same.branch plain
  case number => exact same.branch plain
  case comment | preprocessor => exact plain.branch same
  case operator | continuation => exact plain
  all_goals exact same

theorem brought_openToken
    (abreast : s₁.cursor.Abreast chars offset first₁ first₂ old₁ old₂ s₂.cursor) :
    Brought chars offset first₁ first₂ old₁ old₂ (isSpaceOrTab s₁.cursor.ch = false)
      (s₁.openToken .fixed) (s₂.openToken .fixed) := by
  have opened (style : Style) :
      Brought chars offset first₁ first₂ old₁ old₂ (isSpaceOrTab s₁.cursor.ch = false)
        (s₁.withCursor (s₁.cursor.setState style)) (s₂.withCursor (s₂.cursor.setState style)) :=
    brought_of_abreast (abreast.setState style)
  have ch := abreast.ch field₁ field₂
  by_cases ends : isLineEnd s₁.cursor.ch = true
  · rw [Alike.openToken_of_lineEnd ends, Alike.openToken_of_lineEnd (ch ▸ ends)]
    exact brought_of_abreast abreast
  · have inLine := Bool.eq_false_iff.2 ends
    have next := abreast.next field₁ field₂ inLine
    have comment := abreast.commentStyle_eq field₁ field₂ inLine
    unfold openToken
    simp only [← ch, ← next, ← comment, reduceCtorEq, false_and, if_false]
    refine (opened _).branch ((opened _).branch ?_)
    split
    · rename_i radix
      have here : s₁.cursor.ch ≠ '\x00' := by
        intro none
        rw [none] at radix
        simp at radix
      have visible : isSpaceOrTab s₁.cursor.ch = false := by
        apply Bool.eq_false_iff.2
        intro space
        simp only [isSpaceOrTab, Bool.or_eq_true, decide_eq_true_eq] at space
        rcases space with space | space <;> simp [space] at radix
      have numbered := abreast.setState .number
      exact ⟨offset + 1, numbered.forward_of_inLine field₁ field₂ room₁ room₂ here inLine,
        .inr ⟨Nat.lt_succ_self _, visible⟩⟩
    · exact (opened _).branch ((opened _).branch ((opened _).branch ((opened _).branch
        ((opened _).branch (brought_of_abreast abreast)))))

theorem brought_tokenStep
    (abreast : s₁.cursor.Abreast chars offset first₁ first₂ old₁ old₂ s₂.cursor)
    (sign : s₁.cursor.ch = '#' → s₁.nonBlank ≠ 1 ∧ s₂.nonBlank ≠ 1) :
    Brought chars offset first₁ first₂ old₁ old₂ (isSpaceOrTab s₁.cursor.ch = false)
      (s₁.tokenStep words .fixed) (s₂.tokenStep words .fixed) := by
  have same₁ : s₁.numberSignStep = s₁ := by
    rw [numberSignStep, if_neg (fun both => (sign both.1).1 both.2)]
  have same₂ : s₂.numberSignStep = s₂ := by
    rw [numberSignStep, if_neg (fun both => (sign (abreast.ch field₁ field₂ ▸ both.1)).2 both.2)]
  have closed : Brought chars offset first₁ first₂ old₁ old₂ (isSpaceOrTab s₁.cursor.ch = false)
      (s₁.closeToken words .fixed) (s₂.closeToken words .fixed) :=
    brought_closeToken field₁ field₂ room₁ room₂ abreast
  obtain ⟨between, reached, moved⟩ := closed
  unfold tokenStep
  dsimp only
  rw [same₁, same₂, ← reached.state]
  split
  · obtain ⟨later, done, again⟩ := brought_openToken field₁ field₂ room₁ room₂ reached
    refine ⟨later, done, ?_⟩
    rcases moved with rfl | ⟨further, visible⟩
    · rwa [(reached.ch_eq field₁ field₂).1, ← (abreast.ch_eq field₁ field₂).1] at again
    · exact .inr ⟨by omega, visible⟩
  · exact ⟨between, reached, moved⟩

end Rules

/-! ## Turns -/

/-- Two scans as far into two fields, whose lines have shown as much as matters. -/
structure Abreast (chars : List Char) (offset first₁ first₂ : Nat) (old₁ old₂ : List Span)
    (s₁ : Scan src₁ start₁ stop₁) (s₂ : Scan src₂ start₂ stop₂) : Prop where
  cursor : s₁.cursor.Abreast chars offset first₁ first₂ old₁ old₂ s₂.cursor
  counted₁ : 0 < s₁.nonBlank
  counted₂ : (∀ i (bound : i < chars.length), i < offset → isSpaceOrTab chars[i] = true) ∨
    0 < s₂.nonBlank

/-- No number sign is the first visible character. -/
def SignFree (chars : List Char) : Prop :=
  ∀ i (bound : i < chars.length), chars[i] = '#' →
    ∃ (earlier : Nat) (less : earlier < i), isSpaceOrTab chars[earlier] = false

/-- Two runs have painted so many bytes of two fields alike. -/
def PaintAlike (count start₁ first₁ first₂ : Nat) (old₁ old₂ painted₁ painted₂ : List Span) : Prop :=
  ∃ (new : List Span) (high : Nat), count ≤ high ∧
    Span.edge start₁ (new.map (Span.shift first₁) ++ old₁) = first₁ + high ∧
    new.map (Span.shift first₁) ++ old₁ <:+ painted₁ ∧
    new.map (Span.shift first₂) ++ old₂ <:+ painted₂

theorem PaintAlike.getElem?_eq {count first₁ first₂ : Nat} {old₁ old₂ painted₁ painted₂ : List Span}
    (alike : PaintAlike count 0 first₁ first₂ old₁ old₂ painted₁ painted₂)
    (joined : Span.Joined 0 painted₁) (length₁ : (Span.shades old₁).length = first₁)
    (length₂ : (Span.shades old₂).length = first₂) {k : Nat} (less : k < count) :
    (Span.shades painted₁)[first₁ + k]? = (Span.shades painted₂)[first₂ + k]? := by
  obtain ⟨new, high, le, edge, suffix₁, suffix₂⟩ := alike
  have length : high = (Span.shades new).length := by
    obtain ⟨later, rfl⟩ := suffix₁
    have total := Span.length_shades (Span.joined_of_append joined)
    rw [edge, Span.shades_append, Span.shades_map_shift, List.length_append, length₁] at total
    omega
  have here {first : Nat} {old painted : List Span} (length : (Span.shades old).length = first)
      (suffix : new.map (Span.shift first) ++ old <:+ painted) :
      (Span.shades painted)[first + k]? = (Span.shades new)[k]? := by
    obtain ⟨rest, same⟩ := Span.shades_prefix suffix
    rw [← same, Span.shades_append, Span.shades_map_shift, List.append_assoc,
      List.getElem?_append_right (by omega), length, Nat.add_sub_cancel_left,
      List.getElem?_append_left (by omega)]
  rw [here length₁ suffix₁, here length₂ suffix₂]

section Turns

variable {src : Source} {start stop : Nat} {form : SourceForm}

/-- The columns after the statement end what is open. -/
theorem painted_run_of_tail {s : Scan src start stop} (tail : tailColumn ≤ s.cursor.column)
    (more : s.cursor.pos < stop) :
    s.cursor.paint.painted <:+ (s.run words .fixed).cursor.paint.painted := by
  have begun : s.cursor.paint.painted <:+ s.beginLine.cursor.paint.painted := by
    unfold beginLine
    split
    · exact ((Cursor.Leads.refl (s.cursor.setState .plain)).paint).painted_suffix
    · exact List.suffix_refl _
  have stepped : s.beginLine.cursor.paint.painted <:+ (s.step words .fixed).cursor.painted := by
    rw [step_of_edge words (.inr tail), ← cursor_countByte]
    exact (fixedMoves_fixedStep _ (.inr tail)).painted_suffix
  have rest : (s.step words .fixed).cursor.painted <:+
      (s.run words .fixed).cursor.paint.painted := by
    rw [run_of_lt more]
    have run := leads_run words .fixed (s.advance words .fixed)
    exact ((Cursor.Leads.refl (s.step words .fixed).cursor).forward.trans run).paint.painted_suffix
  exact begun.trans (stepped.trans rest)

end Turns

section Fields

variable {s₁ : Scan src₁ start₁ stop₁} {s₂ : Scan src₂ start₂ stop₂}
  (field₁ : src₁.Field first₁ chars) (field₂ : src₂.Field first₂ chars)
  (last₁ : stop₁ = src₁.size + 1) (last₂ : stop₂ = src₂.size + 1)

/-- In a field, the rules for tokens handle the byte at the cursor. -/
theorem step_of_field {src : Source} {start stop first : Nat} {s : Scan src start stop}
    (field : src.Field first chars) (onLine : Source.OnLine chars offset)
    (tracks : s.cursor.Tracks) (pos : s.cursor.pos = first + offset)
    (early : markColumn + 1 + offset < tailColumn) :
    s.step words .fixed = s.countByte.tokenStep words .fixed := by
  have column : s.cursor.column = markColumn + 1 + offset := by
    rw [tracks.column_eq, pos, field.columnAt onLine]
  have begun : s.beginLine = s := by
    rw [beginLine, if_neg]
    intro starts
    have same := (Source.startsLine_iff field.table).1 (tracks.atLineStart.1 starts)
    rw [tracks.column_eq, Source.columnAt, same] at column
    omega
  rw [step_of_statement words (by omega), begun]

include field₁ field₂ last₁ last₂ in
theorem Abreast.step (abreast : Abreast chars offset first₁ first₂ old₁ old₂ s₁ s₂)
    (signFree : SignFree chars) (early : markColumn + 1 + offset < tailColumn) (words : Dictionary) :
    ∃ later, (s₁.step words .fixed).cursor.Abreast chars later first₁ first₂ old₁ old₂
        (s₂.step words .fixed).cursor ∧ offset ≤ later ∧ 0 < (s₁.step words .fixed).nonBlank ∧
      ((∀ i (bound : i < chars.length), i ≤ later → isSpaceOrTab chars[i] = true) ∨
        0 < (s₂.step words .fixed).nonBlank) := by
  obtain ⟨cursor, counted₁, counted₂⟩ := abreast
  have ch₁ := (cursor.ch_eq field₁ field₂).1
  have ch₂ := (cursor.ch_eq field₁ field₂).2
  have step₁ : s₁.step words .fixed = s₁.countByte.tokenStep words .fixed :=
    step_of_field field₁ cursor.onLine cursor.tracks₁ cursor.pos₁ early
  have step₂ : s₂.step words .fixed = s₂.countByte.tokenStep words .fixed :=
    step_of_field field₂ cursor.onLine cursor.tracks₂ cursor.pos₂ early
  have same : s₁.cursor.ch = s₂.cursor.ch := cursor.ch field₁ field₂
  have count {src : Source} {start stop : Nat} {s : Scan src start stop}
      (visible : isSpaceOrTab s.cursor.ch = false) : s.countByte.nonBlank = s.nonBlank + 1 := by
    rw [countByte, visible, if_neg Bool.false_ne_true]
  -- In both fields something visible stands before a number sign, so neither line counts it first.
  have sign : s₁.countByte.cursor.ch = '#' →
      s₁.countByte.nonBlank ≠ 1 ∧ s₂.countByte.nonBlank ≠ 1 := by
    rw [cursor_countByte]
    intro isSign
    have less : offset < chars.length := cursor.lt_length field₁ field₂ (by rw [isSign]; decide)
    have shown : 0 < s₂.nonBlank := by
      rw [ch₁, List.getElem?_eq_getElem less] at isSign
      obtain ⟨earlier, before, visible⟩ := signFree offset less isSign
      apply counted₂.resolve_left
      intro blank
      rw [blank earlier (by omega) before] at visible
      cases visible
    rw [count (by rw [isSign]; decide), count (by rw [← same, isSign]; decide)]
    omega
  have begun : s₁.countByte.cursor.Abreast chars offset first₁ first₂ old₁ old₂
      s₂.countByte.cursor := by
    rwa [cursor_countByte, cursor_countByte]
  obtain ⟨later, moved, further⟩ : Brought chars offset first₁ first₂ old₁ old₂
      (isSpaceOrTab s₁.countByte.cursor.ch = false) (s₁.countByte.tokenStep words .fixed)
      (s₂.countByte.tokenStep words .fixed) :=
    brought_tokenStep field₁ field₂ (by omega) (by omega) begun sign
  rw [cursor_countByte] at further
  rw [step₁, step₂, (remembers_tokenStep _ words .fixed).1, (remembers_tokenStep _ words .fixed).1]
  refine ⟨later, moved, ?_, Nat.lt_of_lt_of_le counted₁ (nonBlank_le_countByte s₁), ?_⟩
  · omega
  · cases visible : isSpaceOrTab s₁.cursor.ch with
    | false =>
      right
      rw [count (same ▸ visible)]
      exact Nat.succ_pos _
    | true =>
      -- The rules move on by themselves over visible bytes only.
      obtain rfl : later = offset := by
        apply further.resolve_right
        rw [visible]
        exact fun both => absurd both.2.symm Bool.false_ne_true
      rcases counted₂ with blank | shown
      · left
        intro i bound le
        rcases Nat.lt_or_eq_of_le le with before | rfl
        · exact blank i bound before
        · rw [ch₁, List.getElem?_eq_getElem bound] at visible
          exact visible
      · exact .inr (Nat.lt_of_lt_of_le shown (nonBlank_le_countByte s₂))

theorem paintAlike_of_abreast {c₁ d₁ : Cursor src₁ start₁ stop₁} {c₂ d₂ : Cursor src₂ start₂ stop₂}
    (abreast : c₁.Abreast chars offset first₁ first₂ old₁ old₂ c₂)
    (leads₁ : d₁ = c₁ ∨ d₁ = c₁.forward) (leads₂ : d₂ = c₂ ∨ d₂ = c₂.forward) {high count : Nat}
    (edge₁ : min d₁.pos src₁.size = first₁ + high) (edge₂ : min d₂.pos src₂.size = first₂ + high)
    (le : count ≤ high) {painted₁ painted₂ : List Span} (suffix₁ : d₁.paint.painted <:+ painted₁)
    (suffix₂ : d₂.paint.painted <:+ painted₂) :
    PaintAlike count start₁ first₁ first₂ old₁ old₂ painted₁ painted₂ := by
  have same {src : Source} {start stop : Nat} {c d : Cursor src start stop} (sound : c.Sound)
      (leads : d = c ∨ d = c.forward) : d.painted = c.painted ∧ d.state = c.state ∧ d.Sound := by
    rcases leads with rfl | rfl
    · exact ⟨rfl, rfl, sound⟩
    · exact ⟨Cursor.painted_forward c, Cursor.state_forward c, Cursor.sound_forward sound⟩
  obtain ⟨painted_eq₁, state₁, sound₁⟩ := same abreast.sound₁ leads₁
  obtain ⟨painted_eq₂, state₂, -⟩ := same abreast.sound₂ leads₂
  obtain ⟨new, new₁, new₂⟩ :=
    abreast.painted_paint painted_eq₁ painted_eq₂ state₁ state₂ edge₁ edge₂
  refine ⟨new, high, le, ?_, new₁ ▸ suffix₁, new₂ ▸ suffix₂⟩
  rw [← new₁, ← Cursor.segment_eq_edge, Cursor.segment_paint sound₁, edge₁]

theorem painted_run_of_lineEnd {src : Source} {start stop first : Nat} {s : Scan src start stop}
    (field : src.Field first chars) (ended : ∃ c ∈ chars, isLineEnd c = true)
    (less : offset < chars.length) (last : offset + 1 = chars.length)
    (tracks : (s.step words .fixed).cursor.Tracks)
    (pos : (s.step words .fixed).cursor.pos = first + offset) (room : src.size < stop) :
    (s.step words .fixed).cursor.forward.pos = first + chars.length ∧
      (s.step words .fixed).cursor.forward.paint.painted <:+
        ((s.advance words .fixed).run words .fixed).cursor.paint.painted := by
  have inside := field.lt_size less
  have tracks' := tracks.forward field.table (by omega) (by omega)
  have pos' : (s.step words .fixed).cursor.forward.pos = first + chars.length := by
    rw [Cursor.pos_forward, if_pos (by omega), pos, ← last, Nat.add_assoc]
  have starts := field.ends ended
  rw [← pos'] at starts
  exact ⟨pos', painted_run_of_atLineStart words .fixed (s := s.advance words .fixed)
    (tracks'.atLineStart.2 starts)⟩

theorem painted_run_of_end {src : Source} {start stop first : Nat} {s : Scan src start stop}
    (field : src.Field first chars) (none : ∀ c ∈ chars, isLineEnd c = false)
    (pos : (s.step words .fixed).cursor.pos = first + chars.length) (last : stop = src.size + 1) :
    min (s.step words .fixed).cursor.forward.pos src.size = first + chars.length ∧
      (s.step words .fixed).cursor.forward.paint.painted <:+
        ((s.advance words .fixed).run words .fixed).cursor.paint.painted := by
  have size := field.last none
  have pos' : (s.step words .fixed).cursor.forward.pos = stop := by
    rw [Cursor.pos_forward, if_pos (by omega)]
    omega
  have done : (s.advance words .fixed).run words .fixed = s.advance words .fixed :=
    run_of_le (Nat.le_of_eq pos'.symm)
  rw [done]
  exact ⟨by omega, List.suffix_refl _⟩

include field₁ field₂ last₁ last₂ in
/-- Runs from places as far into two fields paint the fields alike. -/
theorem Abreast.run (abreast : Abreast chars offset first₁ first₂ old₁ old₂ s₁ s₂)
    (signFree : SignFree chars) {count : Nat} (inField : count ≤ chars.length)
    (short : markColumn + 1 + count ≤ tailColumn) (words : Dictionary) :
    PaintAlike count start₁ first₁ first₂ old₁ old₂ (s₁.run words .fixed).cursor.paint.painted
      (s₂.run words .fixed).cursor.paint.painted := by
  induction s₁ using turns words .fixed generalizing s₂ offset with
  | done s₁ done =>
    have inside := abreast.cursor.tracks₁.inside
    omega
  | turn s₁ more₁ ih =>
    have cursor := abreast.cursor
    have inside₂ := cursor.tracks₂.inside
    have more₂ : s₂.cursor.pos < stop₂ := by omega
    by_cases early : markColumn + 1 + offset < tailColumn
    · obtain ⟨later, moved, le, counted₁, counted₂⟩ :=
        abreast.step field₁ field₂ last₁ last₂ signFree early words
      have pos₁ := moved.pos₁
      have pos₂ := moved.pos₂
      rw [run_of_lt more₁, run_of_lt more₂]
      rcases moved.onLine with less | ⟨ended, none⟩
      · have inside₁ := field₁.lt_size less
        have inside₂ := field₂.lt_size less
        by_cases next : Source.OnLine chars (later + 1)
        · have forward := moved.forward field₁ field₂ (by omega) (by omega) less next
          refine ih ⟨forward, counted₁, counted₂.imp_left ?_⟩
          exact fun blank i bound before => blank i bound (Nat.le_of_lt_succ before)
        · -- The line is over, and what is open on it ends where the next one starts.
          have last : later + 1 = chars.length := by
            apply Nat.le_antisymm less
            apply Nat.le_of_not_lt
            exact fun more => next (.inl more)
          have ended : ∃ c ∈ chars, isLineEnd c = true := by
            apply Classical.byContradiction
            intro none
            exact next (.inr ⟨last, fun c mem => Bool.eq_false_iff.2 fun ends => none ⟨c, mem, ends⟩⟩)
          obtain ⟨end₁, suffix₁⟩ := painted_run_of_lineEnd field₁ ended less last moved.tracks₁ pos₁
            (by omega)
          obtain ⟨end₂, suffix₂⟩ := painted_run_of_lineEnd field₂ ended less last moved.tracks₂ pos₂
            (by omega)
          exact paintAlike_of_abreast moved (.inr rfl) (.inr rfl) (by omega) (by omega) inField
            suffix₁ suffix₂
      · -- The source is over, and with it the run.
        obtain ⟨end₁, suffix₁⟩ := painted_run_of_end field₁ none (ended ▸ pos₁) last₁
        obtain ⟨end₂, suffix₂⟩ := painted_run_of_end field₂ none (ended ▸ pos₂) last₂
        exact paintAlike_of_abreast moved (.inr rfl) (.inr rfl) end₁ end₂ inField suffix₁ suffix₂
    · -- The columns after the statement end what is open.
      have column := cursor.column_eq field₁ field₂
      exact paintAlike_of_abreast cursor (.inl rfl) (.inl rfl)
        ((Nat.min_eq_left cursor.tracks₁.inside).trans cursor.pos₁)
        ((Nat.min_eq_left cursor.tracks₂.inside).trans cursor.pos₂) (by omega)
        (painted_run_of_tail (by omega) more₁) (painted_run_of_tail (by omega) more₂)

end Fields

end Scan

end FortranMarkup
