import FortranMarkup.Proofs.Source.Respelling
import FortranMarkup.Proofs.Styling.WordSpans

/-!
# Styling respelled text

Two walks over a text and a respelling of it, each to the end, paint corresponding bytes alike. The
cursors stand in corresponding places (`Cursor.Respelt`): both at the first byte that a byte stands
as, or both at the last one. A step goes from the first to the last. Only at a line feed with a
carriage return before it the second walk takes two turns for one of the first.
-/

namespace FortranMarkup

open Source (Stands)

/-- Two walks to the end of a text and of a respelling of it; in fixed form, no byte is added. -/
structure Respelling (place : Nat → Nat) (form : SourceForm) (src₁ : Source) (stop₁ : Nat)
    (src₂ : Source) (stop₂ : Nat) : Prop where
  text : Source.Respells place src₁ src₂
  end₁ : stop₁ = src₁.size + 1
  end₂ : stop₂ = src₂.size + 1
  fixed : form = .fixed → ∀ pos, place pos = pos

namespace Cursor

/-- The style that a cursor has given to a byte after painting. -/
theorem getElem?_shades_paint {src : Source} {stop : Nat} {c : Cursor src 0 stop} (sound : c.Sound)
    (tracks : c.Tracks) (pos : Nat) :
    (Span.shades c.paint.painted)[pos]? =
      if pos < c.segment then (Span.shades c.painted)[pos]?
      else if pos < c.pos then some c.state else none := by
  have length := Span.length_shades sound.joined
  rw [← segment_eq_edge, Nat.zero_add] at length
  rw [painted_paint, Nat.min_eq_left tracks.inside]
  by_cases before : pos < c.segment
  · rw [if_pos before]
    split
    · rw [Span.shades_cons, List.getElem?_append_left (length.symm ▸ before)]
    · rfl
  · rw [if_neg before]
    have le := Nat.le_of_not_lt before
    by_cases here : pos < c.pos
    · have bound : pos - c.segment < c.pos - c.segment := by omega
      rw [if_pos here, if_pos (Nat.lt_of_le_of_lt le here), Span.shades_cons,
        List.getElem?_append_right (length ▸ le), length, List.getElem?_replicate_of_lt bound]
    · rw [if_neg here, List.getElem?_eq_none]
      split
      · rw [Span.shades_cons, List.length_append, List.length_replicate, length]
        dsimp only
        omega
      · rwa [length]

variable {place : Nat → Nat} {form : SourceForm} {src₁ src₂ : Source} {stop₁ stop₂ : Nat}

/-- Two cursors in corresponding places that have painted corresponding bytes alike. -/
structure Respelt (place : Nat → Nat) (c₁ : Cursor src₁ 0 stop₁) (c₂ : Cursor src₂ 0 stop₂) :
    Prop where
  sound₁ : c₁.Sound
  sound₂ : c₂.Sound
  tracks₁ : c₁.Tracks
  tracks₂ : c₂.Tracks
  stands : Stands place c₁.pos c₂.pos
  state : c₁.state = c₂.state
  segment : Stands place c₁.segment c₂.segment
  shades : ∀ pos₁ pos₂, pos₂ + 1 = place (pos₁ + 1) → pos₁ < c₁.segment →
    (Span.shades c₁.painted)[pos₁]? = (Span.shades c₂.painted)[pos₂]?

namespace Respelt

variable {c₁ : Cursor src₁ 0 stop₁} {c₂ : Cursor src₂ 0 stop₂}

theorem relabel (respelt : Respelt place c₁ c₂) (state : Style) :
    Respelt place (c₁.relabel state) (c₂.relabel state) where
  sound₁ := sound_relabel respelt.sound₁ state
  sound₂ := sound_relabel respelt.sound₂ state
  tracks₁ := respelt.tracks₁.relabel state
  tracks₂ := respelt.tracks₂.relabel state
  stands := respelt.stands
  state := rfl
  segment := respelt.segment
  shades := respelt.shades

section

variable (sides : Respelling place form src₁ stop₁ src₂ stop₂)
include sides

theorem shades_paint (respelt : Respelt place c₁ c₂) {pos₁ pos₂ : Nat}
    (last : pos₂ + 1 = place (pos₁ + 1)) (before : pos₁ < c₁.pos) :
    (Span.shades c₁.paint.painted)[pos₁]? = (Span.shades c₂.paint.painted)[pos₂]? := by
  have stands : Stands place pos₁ pos₂ := .inr last
  rw [getElem?_shades_paint respelt.sound₁ respelt.tracks₁,
    getElem?_shades_paint respelt.sound₂ respelt.tracks₂]
  have before₂ : pos₂ < c₂.pos := by
    have le : place (pos₁ + 1) ≤ place c₁.pos := sides.text.place_le before
    have := (sides.text.stands_bounds respelt.stands).1
    omega
  rw [if_pos before, if_pos before₂, respelt.state]
  by_cases painted : pos₁ < c₁.segment
  · have painted₂ : pos₂ < c₂.segment := by
      have le : place (pos₁ + 1) ≤ place c₁.segment := sides.text.place_le painted
      have := (sides.text.stands_bounds respelt.segment).1
      omega
    rw [if_pos painted, if_pos painted₂]
    exact respelt.shades pos₁ pos₂ last painted
  · have open₂ : ¬pos₂ < c₂.segment := by
      have le : place (c₁.segment + 1) ≤ place (pos₁ + 1) := sides.text.place_le (by omega)
      have := (sides.text.stands_bounds respelt.segment).2
      omega
    rw [if_neg painted, if_neg open₂]

theorem paint (respelt : Respelt place c₁ c₂) : Respelt place c₁.paint c₂.paint := by
  have segment₁ := segment_paint respelt.sound₁
  have segment₂ := segment_paint respelt.sound₂
  rw [Nat.min_eq_left respelt.tracks₁.inside] at segment₁
  rw [Nat.min_eq_left respelt.tracks₂.inside] at segment₂
  refine ⟨sound_paint respelt.sound₁, sound_paint respelt.sound₂, respelt.tracks₁.paint,
    respelt.tracks₂.paint, respelt.stands, respelt.state, ?_, ?_⟩
  · rw [segment₁, segment₂]
    exact respelt.stands
  · intro pos₁ pos₂ last painted
    rw [segment₁] at painted
    exact respelt.shades_paint sides last painted

theorem setState (respelt : Respelt place c₁ c₂) (state : Style) :
    Respelt place (c₁.setState state) (c₂.setState state) :=
  (respelt.paint sides).relabel state

/-! ### Where the cursors stand -/

theorem inside_iff (respelt : Respelt place c₁ c₂) : c₂.pos < src₂.size ↔ c₁.pos < src₁.size := by
  rw [← sides.text.size, sides.text.stands_lt_iff respelt.stands]

theorem ch (respelt : Respelt place c₁ c₂) : CharRespells c₁.ch c₂.ch := by
  rw [respelt.tracks₁.ch, respelt.tracks₂.ch]
  exact sides.text.charD_of_stands respelt.stands _

theorem ch_of_last (respelt : Respelt place c₁ c₂) (last : c₂.pos + 1 = place (c₁.pos + 1)) :
    c₁.ch.toLower = c₂.ch.toLower := by
  rw [respelt.tracks₁.ch, respelt.tracks₂.ch]
  exact sides.text.charD_of_last last _

theorem next_of_last (respelt : Respelt place c₁ c₂) (last : c₂.pos + 1 = place (c₁.pos + 1)) :
    CharRespells c₁.next c₂.next := by
  rw [respelt.tracks₁.next, respelt.tracks₂.next]
  exact sides.text.charD_of_first last _

theorem last_of_inLine (respelt : Respelt place c₁ c₂) (first : c₂.pos = place c₁.pos)
    (inLine : isLineEnd c₁.ch = false) : c₂.pos + 1 = place (c₁.pos + 1) := by
  rw [respelt.tracks₁.ch] at inLine
  rw [first, sides.text.place_succ_of_inLine inLine]

theorem atLineEnd_of_last (respelt : Respelt place c₁ c₂)
    (last : c₂.pos + 1 = place (c₁.pos + 1)) : c₂.atLineEnd = c₁.atLineEnd := by
  have atEnd {src : Source} {stop : Nat} {c : Cursor src 0 stop} (table : src.Tabled)
      (tracks : c.Tracks) (past : ¬c.pos < src.size) : c.atLineEnd = true := by
    apply Bool.of_not_eq_false
    exact fun inLine => past (tracks.lt_size_of_atLineEnd table inLine)
  by_cases inside : c₁.pos < src₁.size
  · rw [respelt.tracks₁.atLineEnd_eq sides.text.table₁ inside,
      respelt.tracks₂.atLineEnd_eq sides.text.table₂ ((respelt.inside_iff sides).2 inside),
      sides.text.endsLineAt_of_last last]
  · rw [atEnd sides.text.table₁ respelt.tracks₁ inside,
      atEnd sides.text.table₂ respelt.tracks₂ (mt (respelt.inside_iff sides).1 inside)]

theorem atLineStart_of_first (respelt : Respelt place c₁ c₂) (first : c₂.pos = place c₁.pos) :
    c₂.atLineStart = c₁.atLineStart := by
  rw [Bool.eq_iff_iff, respelt.tracks₁.atLineStart, respelt.tracks₂.atLineStart, first,
    sides.text.startsLine_place]

/-- From the last byte of one place to the first of the next. -/
theorem forward (respelt : Respelt place c₁ c₂) (last : c₂.pos + 1 = place (c₁.pos + 1))
    (inside : c₁.pos < src₁.size) :
    Respelt place c₁.forward c₂.forward ∧ c₂.forward.pos = place c₁.forward.pos := by
  have inside₂ := (respelt.inside_iff sides).2 inside
  have end₁ := sides.end₁
  have end₂ := sides.end₂
  have first : c₂.forward.pos = place c₁.forward.pos := by
    rwa [pos_forward, pos_forward, if_pos (by omega), if_pos (by omega)]
  refine ⟨⟨sound_forward respelt.sound₁, sound_forward respelt.sound₂,
    respelt.tracks₁.forward sides.text.table₁ inside (by omega),
    respelt.tracks₂.forward sides.text.table₂ inside₂ (by omega), .inl first, ?_, ?_, ?_⟩, first⟩
  · rw [state_forward, state_forward, respelt.state]
  · rw [segment_forward, segment_forward]
    exact respelt.segment
  · rw [segment_forward, painted_forward, painted_forward]
    exact respelt.shades

/-- Only the second cursor goes on from a carriage return to the line feed after it. -/
theorem forward_of_double (respelt : Respelt place c₁ c₂) (first : c₂.pos = place c₁.pos)
    (double : place (c₁.pos + 1) = place c₁.pos + 2) :
    Respelt place c₁ c₂.forward ∧ c₂.forward.pos + 1 = place (c₁.pos + 1) := by
  have inside := sides.text.lt_size_of_double double
  have inside₂ := (respelt.inside_iff sides).2 inside
  have end₂ := sides.end₂
  have last : c₂.forward.pos + 1 = place (c₁.pos + 1) := by
    rw [pos_forward, if_pos (by omega)]
    omega
  refine ⟨⟨respelt.sound₁, sound_forward respelt.sound₂, respelt.tracks₁,
    respelt.tracks₂.forward sides.text.table₂ inside₂ (by omega), .inr last, ?_, ?_, ?_⟩, last⟩
  · rw [state_forward, respelt.state]
  · rw [segment_forward]
    exact respelt.segment
  · rw [painted_forward]
    exact respelt.shades

theorem forwardSetState (respelt : Respelt place c₁ c₂) (last : c₂.pos + 1 = place (c₁.pos + 1))
    (inside : c₁.pos < src₁.size) (state : Style) :
    Respelt place (c₁.forwardSetState state) (c₂.forwardSetState state) ∧
      (c₂.forwardSetState state).pos = place (c₁.forwardSetState state).pos :=
  have ⟨moved, first⟩ := respelt.forward sides last inside
  ⟨moved.setState sides state, first⟩

/-- The carriage return of a line end is not its last byte. -/
theorem atLineEnd_of_double (respelt : Respelt place c₁ c₂) (first : c₂.pos = place c₁.pos)
    (double : place (c₁.pos + 1) = place c₁.pos + 2) : c₂.atLineEnd = false := by
  have inside₂ := (respelt.inside_iff sides).2 (sides.text.lt_size_of_double double)
  rw [respelt.tracks₂.atLineEnd_eq sides.text.table₂ inside₂, first,
    sides.text.endsLineAt_of_double double]

/-- Both cursors come to the last byte of a line end. -/
theorem toLineEnd (respelt : Respelt place c₁ c₂) (last : c₂.pos + 1 = place (c₁.pos + 1)) :
    Respelt place c₁.toLineEnd c₂.toLineEnd ∧
      c₂.toLineEnd.pos + 1 = place (c₁.toLineEnd.pos + 1) := by
  have end₁ := sides.end₁
  have end₂ := sides.end₂
  fun_induction Cursor.toLineEnd c₁ generalizing c₂ with
  | case1 c₁ going ih =>
    have inside := respelt.tracks₁.lt_size_of_atLineEnd sides.text.table₁ going.1
    have inside₂ := (respelt.inside_iff sides).2 inside
    have going₂ : c₂.atLineEnd = false ∧ c₂.pos < stop₂ :=
      ⟨by rw [respelt.atLineEnd_of_last sides last, going.1], by omega⟩
    obtain ⟨moved, first⟩ := respelt.forward sides last inside
    have goes : c₂.toLineEnd = c₂.forward.toLineEnd := by rw [Cursor.toLineEnd, if_pos going₂]
    rw [goes]
    rcases sides.text.place_succ c₁.forward.pos with single | double
    · exact ih moved (by omega)
    · -- The second cursor is at a carriage return, which it passes as well.
      obtain ⟨passed, last⟩ := moved.forward_of_double sides first double
      have inside₂ := (moved.inside_iff sides).2 (sides.text.lt_size_of_double double)
      have going₂ : c₂.forward.atLineEnd = false ∧ c₂.forward.pos < stop₂ :=
        ⟨moved.atLineEnd_of_double sides first double, by omega⟩
      have goes : c₂.forward.toLineEnd = c₂.forward.forward.toLineEnd := by
        rw [Cursor.toLineEnd, if_pos going₂]
      rw [goes]
      exact ih passed last
  | case2 c₁ stays =>
    have inside := respelt.tracks₁.inside
    have stays₂ : ¬(c₂.atLineEnd = false ∧ c₂.pos < stop₂) := by
      rw [respelt.atLineEnd_of_last sides last]
      exact fun going₂ => stays ⟨going₂.1, by omega⟩
    rw [Cursor.toLineEnd, if_neg stays₂]
    exact ⟨respelt, last⟩

/-! ### Looking back and ahead -/

theorem column_eq (respelt : Respelt place c₁ c₂) (fixed : form = .fixed) :
    c₂.column = c₁.column := by
  have same := sides.fixed fixed
  have pos : c₂.pos = c₁.pos := by
    rcases respelt.stands with first | last
    · rw [first, same]
    · rw [same] at last
      omega
  rw [column, column, respelt.tracks₁.line, respelt.tracks₂.line,
    sides.text.lineAt_of_stands respelt.stands, sides.text.lineStart_eq, same, pos]

/-- An open segment without line ends spells the same word. -/
theorem openWord_eq (respelt : Respelt place c₁ c₂) (first : c₂.pos = place c₁.pos)
    (inLine : ∀ pos, c₁.segment ≤ pos → pos < c₁.pos → isLineEnd (src₁.charD pos '\x00') = false)
    (capacity : Nat) : c₂.openWord capacity = c₁.openWord capacity := by
  have le₁ := respelt.sound₁.segment_le_pos
  have le₂ := respelt.sound₂.segment_le_pos
  have bounds := sides.text.stands_bounds respelt.segment
  have segment : c₂.segment = place c₁.segment := by
    rcases Nat.lt_or_eq_of_le le₁ with less | empty
    · have := sides.text.place_succ_of_inLine (inLine c₁.segment (Nat.le_refl _) less)
      omega
    · rw [first, ← empty] at le₂
      omega
  have same := sides.text.charsD_eq le₁ inLine
  rw [openWord, openWord, BoundedWord.ofChars, BoundedWord.ofChars, first, segment, List.map_take,
    List.map_take, same]

theorem matchesText_eq (respelt : Respelt place c₁ c₂) (first : c₂.pos = place c₁.pos)
    {text : List Char} (inLine : ∀ a ∈ text, isLineEnd a = false) :
    c₂.matchesText text = c₁.matchesText text := by
  rw [Bool.eq_iff_iff, matchesText_iff respelt.tracks₁, matchesText_iff respelt.tracks₂, first]
  exact sides.text.matches_iff _ _ inLine _

theorem commentStyle_eq (respelt : Respelt place c₁ c₂) (first : c₂.pos = place c₁.pos)
    (last : c₂.pos + 1 = place (c₁.pos + 1)) {beginnings : List String}
    (inLines : (beginnings.all fun text => text.toList.all (!isLineEnd ·)) = true) :
    Scan.commentStyle c₂ beginnings = Scan.commentStyle c₁ beginnings := by
  have any : beginnings.any (fun text => c₂.matchesText text.toList) =
      beginnings.any (fun text => c₁.matchesText text.toList) := by
    rw [Bool.eq_iff_iff, List.any_eq_true, List.any_eq_true]
    refine exists_congr fun text => and_congr_right fun mem => ?_
    rw [respelt.matchesText_eq sides first]
    intro a inside
    have all := List.all_eq_true.1 (List.all_eq_true.1 inLines text mem) a inside
    rwa [Bool.not_eq_true'] at all
  have dollar := (respelt.next_of_last sides last).eq_iff '$' rfl rfl
  simp only [Scan.commentStyle, any, dollar]

omit sides in
theorem afterBlanks_respells (text : Source.Respells place src₁ src₂)
    (last : c₂.pos + 1 = place (c₁.pos + 1)) :
    CharRespells (Scan.afterBlanks c₁) (Scan.afterBlanks c₂) := by
  obtain ⟨count, skips₁, skips₂, same⟩ := text.skipWhile_within blind_isBlank
    (fun _ blank => Source.isLineEnd_of_isBlank blank) (markReach - 1) (c₁.pos + 1)
  have reach (pos : Nat) : pos + 1 + (markReach - 1) = pos + markReach := by
    rw [Nat.add_assoc]
    rfl
  rw [reach] at skips₁
  rw [← last, reach] at skips₂
  rw [← last] at same
  have near : c₂.pos + 1 + count < c₂.pos + markReach ↔ c₁.pos + 1 + count < c₁.pos + markReach := by
    omega
  simp only [Scan.afterBlanks, skips₁, skips₂, near]
  split
  · exact text.charD_of_first same.symm _
  · exact .inl rfl

end

end Respelt

end Cursor

end FortranMarkup
