import FortranMarkup.Proofs.Styling.Lockstep

/-!
# Crossing line starts

The only step that goes past a line start without beginning that line is the one of a continuation
mark in free form: it skips space up to the text that continues its line (`Crosses`). So the step of
two scans alike either leaves them alike or crosses the limit in both.
-/

namespace FortranMarkup

namespace Scan

section Skipping

variable {src : Source} {start stop : Nat}

/-- The scan one byte of space further. -/
def skipOne (s : Scan src start stop) : Scan src start stop :=
  countByte
    { s with
      cursor := s.cursor.forward
      nonBlank := if s.cursor.forward.atLineStart then 0 else s.nonBlank }

theorem cursor_skipOne (s : Scan src start stop) : s.skipOne.cursor = s.cursor.forward :=
  cursor_countByte _

theorem skipSpaces_eq (s : Scan src start stop) :
    s.skipSpaces =
      if isSpace s.cursor.ch = true ∧ s.cursor.pos < stop then s.skipOne.skipSpaces else s := by
  conv => lhs; unfold skipSpaces
  rfl

theorem skipSpaces_cursor (s : Scan src start stop) :
    s.skipSpaces.cursor.painted = s.cursor.painted ∧
      s.skipSpaces.cursor.state = s.cursor.state := by
  fun_induction skipSpaces s with
  | case1 s _ ih =>
    replace ih : s.skipOne.skipSpaces.cursor.painted = s.skipOne.cursor.painted ∧
      s.skipOne.skipSpaces.cursor.state = s.skipOne.cursor.state := ih
    rw [cursor_skipOne, Cursor.painted_forward, Cursor.state_forward] at ih
    exact ih
  | case2 => exact ⟨rfl, rfl⟩

/-- The scan after the mark that ends a line, with the mark painted. -/
def pastMark (s : Scan src start stop) : Scan src start stop :=
  s.withCursor ((s.cursor.setState .continuation).forwardSetState .plain)

theorem painted_resumeNextLine (s : Scan src start stop) :
    s.pastMark.skipSpaces.cursor.paint.painted <:+ s.resumeNextLine.cursor.painted := by
  have resumed : s.resumeNextLine.cursor =
      (skipLeadingMark s.pastMark.skipSpaces.cursor).setState s.cursor.state := rfl
  rw [resumed]
  unfold skipLeadingMark
  split
  · have leads := (Cursor.Leads.refl (s.pastMark.skipSpaces.cursor.setState .continuation)).forward
    exact (leads.setState s.cursor.state).painted_suffix
  · exact List.suffix_refl _

theorem pos_pastMark {s : Scan src start stop} (more : s.cursor.pos < stop) :
    s.pastMark.cursor.pos = s.cursor.pos + 1 := by
  change (s.cursor.setState .continuation).forward.pos = _
  rw [Cursor.pos_forward, Cursor.pos_setState, if_pos more]

theorem painted_pastMark {s : Scan src start stop} (sound : s.cursor.Sound)
    (inside : s.cursor.pos < src.size) (more : s.cursor.pos < stop) :
    s.pastMark.cursor.painted =
      ⟨s.cursor.pos, s.cursor.pos + 1, .continuation⟩ :: s.cursor.paint.painted := by
  let marked := s.cursor.setState .continuation
  have segment : marked.forward.segment = s.cursor.pos := by
    rw [Cursor.segment_forward]
    change s.cursor.paint.segment = _
    rw [Cursor.segment_paint sound]
    omega
  have pos : marked.forward.pos = s.cursor.pos + 1 := by
    rw [Cursor.pos_forward, Cursor.pos_setState, if_pos more]
  have state : marked.forward.state = .continuation := Cursor.state_forward marked
  change marked.forward.paint.painted = _
  rw [Cursor.painted_paint, segment, pos, if_pos (by omega), state, Cursor.painted_forward,
    Nat.min_eq_left (by omega)]
  rfl

/-- A step from a mark on the way past a limit: between the mark and the limit there is only space,
and it is painted as such. -/
structure Crosses (limit : Nat) (s t : Scan src start stop) : Prop where
  isMark : s.cursor.ch = '&'
  space : ∀ pos, s.cursor.pos < pos → pos < limit → isSpace (src.charD pos ' ') = true
  painted : ∃ edge, limit ≤ edge ∧
    ⟨s.cursor.pos + 1, edge, .plain⟩ :: ⟨s.cursor.pos, s.cursor.pos + 1, .continuation⟩ ::
      s.cursor.paint.painted <:+ t.cursor.painted
  passed : limit ≤ t.cursor.pos

theorem Crosses.trans {limit : Nat} {s t u : Scan src start stop} (crosses : Crosses limit s t)
    (leads : Cursor.Leads t.cursor u.cursor) : Crosses limit s u where
  isMark := crosses.isMark
  space := crosses.space
  painted :=
    have ⟨edge, past, suffix⟩ := crosses.painted
    ⟨edge, past, suffix.trans leads.painted_suffix⟩
  passed := Nat.le_trans crosses.passed leads.pos_le

theorem crosses_resumeNextLine {limit : Nat} {s : Scan src start stop} (sound : s.cursor.Sound)
    (isMark : s.cursor.ch = '&') (less : s.cursor.pos + 1 < limit) (inside : limit ≤ src.size)
    (more : s.cursor.pos < stop) (passed : limit ≤ s.pastMark.skipSpaces.cursor.pos)
    (space : ∀ pos, s.cursor.pos < pos → pos < limit → isSpace (src.charD pos ' ') = true) :
    Crosses limit s s.resumeNextLine where
  isMark := isMark
  space := space
  painted := by
    have marked := painted_pastMark sound (by omega) more
    have segment : s.pastMark.skipSpaces.cursor.segment = s.cursor.pos + 1 := by
      rw [Cursor.segment_eq_edge, (skipSpaces_cursor _).1, marked, Span.edge]
    have state : s.pastMark.skipSpaces.cursor.state = .plain := (skipSpaces_cursor _).2
    have painted := painted_resumeNextLine s
    rw [Cursor.painted_paint, segment, if_pos (by omega), state, (skipSpaces_cursor _).1, marked]
      at painted
    exact ⟨_, by omega, painted⟩
  passed := by
    have resumed := (leads_skipLeadingMark s.pastMark.skipSpaces.cursor).setState s.cursor.state
    exact Nat.le_trans passed resumed.pos_le

end Skipping

variable {form : SourceForm} {limit? : Option Nat} {old₁ old₂ : List Span} {src₁ src₂ : Source}
  {start₁ stop₁ start₂ stop₂ : Nat} {s₁ : Scan src₁ start₁ stop₁} {s₂ : Scan src₂ start₂ stop₂}

theorem Alike.skipSpaces (shared : Shared limit? src₁ stop₁ src₂ stop₂)
    (alike : Alike form limit? old₁ old₂ s₁ s₂) :
    Alike form limit? old₁ old₂ s₁.skipSpaces s₂.skipSpaces ∨
      ∃ limit, limit? = some limit ∧ limit ≤ s₁.skipSpaces.cursor.pos ∧
        limit ≤ s₂.skipSpaces.cursor.pos ∧
        ∀ pos, s₁.cursor.pos ≤ pos → pos < limit → isSpace (src₁.charD pos ' ') = true := by
  fun_induction Scan.skipSpaces s₁ generalizing s₂ with
  | case1 s₁ going ih =>
    replace ih : ∀ {s₂ : Scan src₂ start₂ stop₂}, Alike form limit? old₁ old₂ s₁.skipOne s₂ →
        Alike form limit? old₁ old₂ s₁.skipOne.skipSpaces s₂.skipSpaces ∨
          ∃ limit, limit? = some limit ∧ limit ≤ s₁.skipOne.skipSpaces.cursor.pos ∧
            limit ≤ s₂.skipSpaces.cursor.pos ∧
            ∀ pos, s₁.skipOne.cursor.pos ≤ pos → pos < limit →
              isSpace (src₁.charD pos ' ') = true := ih
    have going₂ : isSpace s₂.cursor.ch = true ∧ s₂.cursor.pos < stop₂ := by
      rwa [← alike.cursor.ch, ← alike.cursor.more shared]
    have pos : s₁.skipOne.cursor.pos = s₁.cursor.pos + 1 := by
      rw [cursor_skipOne, Cursor.pos_forward, if_pos going.2]
    have pos₂ : s₂.skipOne.cursor.pos = s₂.cursor.pos + 1 := by
      rw [cursor_skipOne, Cursor.pos_forward, if_pos going₂.2]
    have here : ∀ limit, limit? = some limit → isSpace (src₁.charD s₁.cursor.pos ' ') = true := by
      intro limit is
      obtain ⟨-, tracks, -⟩ := alike.cursor.below limit is
      exact Source.isSpace_charD (tracks.ch ▸ going.1) ' '
    rw [skipSpaces_eq s₂, if_pos going₂]
    by_cases next : ∀ limit, limit? = some limit → s₁.cursor.pos + 1 < limit
    · have cursor := alike.cursor.forward shared next
      have stepped : Alike form limit? old₁ old₂ s₁.skipOne s₂.skipOne :=
        countByte ⟨cursor, by simp only [cursor.atLineStart, alike.nonBlank], alike.carried⟩
      rcases ih stepped with same | ⟨limit, is, passed₁, passed₂, space⟩
      · exact .inl same
      · refine .inr ⟨limit, is, passed₁, passed₂, ?_⟩
        intro at_pos low high
        rcases Nat.lt_or_eq_of_le low with less | rfl
        · exact space at_pos (pos ▸ less) high
        · exact here limit is
    · obtain ⟨limit, stops⟩ := Classical.not_forall.1 next
      obtain ⟨is, reached⟩ := Classical.not_imp.1 stops
      have less := (alike.cursor.below limit is).1
      have same := alike.cursor.pos
      refine .inr ⟨limit, is, ?_, ?_, ?_⟩
      · have led : s₁.skipOne.cursor.pos ≤ s₁.skipOne.skipSpaces.cursor.pos :=
          (leads_skipSpaces s₁.skipOne).pos_le
        exact Nat.le_trans (by omega) led
      · have led := (leads_skipSpaces s₂.skipOne).pos_le
        omega
      · intro at_pos low high
        obtain rfl : at_pos = s₁.cursor.pos := by omega
        exact here limit is
  | case2 s₁ stays =>
    have stays₂ : ¬(isSpace s₂.cursor.ch = true ∧ s₂.cursor.pos < stop₂) := by
      rwa [← alike.cursor.ch, ← alike.cursor.more shared]
    rw [skipSpaces_eq s₂, if_neg stays₂]
    exact .inl alike

theorem Alike.skipLeadingMark {c₁ : Cursor src₁ start₁ stop₁} {c₂ : Cursor src₂ start₂ stop₂}
    (shared : Shared limit? src₁ stop₁ src₂ stop₂) (alike : c₁.Alike limit? old₁ old₂ c₂) :
    (Scan.skipLeadingMark c₁).Alike limit? old₁ old₂ (Scan.skipLeadingMark c₂) := by
  have marked := alike.setState shared .continuation
  unfold Scan.skipLeadingMark
  rw [← alike.ch]
  split
  · rename_i isMark
    have inLine : isLineEnd c₁.ch = false := isMark ▸ rfl
    exact marked.forward shared (marked.succ_lt_of_inLine shared inLine)
  · exact alike

/-- Both steps cross the limit. -/
def CrossBoth (limit? : Option Nat) (s₁ t₁ : Scan src₁ start₁ stop₁)
    (s₂ t₂ : Scan src₂ start₂ stop₂) : Prop :=
  ∃ limit, limit? = some limit ∧ Crosses limit s₁ t₁ ∧ Crosses limit s₂ t₂

theorem Alike.resumeNextLine (shared : Shared limit? src₁ stop₁ src₂ stop₂)
    (alike : Alike form limit? old₁ old₂ s₁ s₂) (sound₁ : s₁.cursor.Sound) (sound₂ : s₂.cursor.Sound)
    (isMark : s₁.cursor.ch = '&') :
    Alike form limit? old₁ old₂ s₁.resumeNextLine s₂.resumeNextLine ∨
      CrossBoth limit? s₁ s₁.resumeNextLine s₂ s₂.resumeNextLine := by
  have inLine : isLineEnd s₁.cursor.ch = false := isMark ▸ rfl
  have marked : Alike form limit? old₁ old₂ s₁.pastMark s₂.pastMark :=
    alike.withCursor ((alike.cursor.setState shared .continuation).forwardSetState shared inLine _)
  rcases marked.skipSpaces shared with skipped | ⟨limit, rfl, passed₁, passed₂, space₁⟩
  · have resumed := (skipLeadingMark shared skipped.cursor).setState shared s₁.cursor.state
    refine .inl ⟨?_, skipped.nonBlank, skipped.carried⟩
    rw [Scan.resumeNextLine, Scan.resumeNextLine, ← alike.cursor.state]
    exact resumed
  · refine .inr ⟨limit, rfl, ?_⟩
    have next := alike.cursor.succ_lt_of_inLine shared inLine limit rfl
    have pos := alike.cursor.pos
    cases shared with
    | below table₁ table₂ agree le₁ le₂ =>
      have size₁ := Source.le_size_of_startsLine agree.starts₁
      have size₂ := Source.le_size_of_startsLine agree.starts₂
      have more₁ : s₁.cursor.pos < stop₁ := by omega
      have more₂ : s₂.cursor.pos < stop₂ := by omega
      rw [pos_pastMark more₁] at space₁
      refine ⟨crosses_resumeNextLine sound₁ isMark next size₁ more₁ passed₁ space₁,
        crosses_resumeNextLine sound₂ (alike.cursor.ch ▸ isMark) (pos ▸ next) size₂ more₂ passed₂ ?_⟩
      intro at_pos low high
      rw [← agree.charD high]
      exact space₁ at_pos (by omega) high

theorem Alike.ampersandStep (shared : Shared limit? src₁ stop₁ src₂ stop₂)
    (alike : Alike form limit? old₁ old₂ s₁ s₂) (sound₁ : s₁.cursor.Sound) (sound₂ : s₂.cursor.Sound)
    (isMark : s₁.cursor.ch = '&') :
    Alike form limit? old₁ old₂ s₁.ampersandStep s₂.ampersandStep ∨
      CrossBoth limit? s₁ s₁.ampersandStep s₂ s₂.ampersandStep := by
  have inLine : isLineEnd s₁.cursor.ch = false := isMark ▸ rfl
  have marked := alike.cursor.setState shared .continuation
  unfold Scan.ampersandStep
  dsimp only
  rw [← alike.cursor.afterBlanks_eq shared inLine, ← alike.cursor.next (.inr inLine)]
  split
  · exact .inl (alike.withCursor (marked.forwardSetState shared inLine _))
  · split
    · exact alike.resumeNextLine shared sound₁ sound₂ isMark
    · exact .inl alike

/-- A step of two scans alike leaves them alike or crosses the limit. -/
theorem Alike.step (shared : Shared limit? src₁ stop₁ src₂ stop₂)
    (alike : Alike form limit? old₁ old₂ s₁ s₂) (sound₁ : s₁.cursor.Sound) (sound₂ : s₂.cursor.Sound)
    (words : Dictionary) :
    Alike form limit? old₁ old₂ (s₁.step words form) (s₂.step words form) ∨
      (form = .free ∧ CrossBoth limit? s₁.beginLine.countByte (s₁.step words form)
        s₂.beginLine.countByte (s₂.step words form)) := by
  have begun := (alike.beginLine shared).countByte
  have sound₁ : s₁.beginLine.countByte.cursor.Sound := by
    rw [cursor_countByte]
    exact sound_beginLine sound₁
  have sound₂ : s₂.beginLine.countByte.cursor.Sound := by
    rw [cursor_countByte]
    exact sound_beginLine sound₂
  unfold Scan.step
  dsimp only
  cases form with
  | fixed =>
    refine .inl ?_
    dsimp only
    rw [← begun.cursor.column_eq shared]
    split
    · exact begun.fixedStep shared _
    · exact begun.tokenStep shared words
  | free =>
    dsimp only
    rw [← begun.cursor.ch, ← begun.cursor.state]
    split
    · rename_i isMark
      rcases begun.ampersandStep shared sound₁ sound₂ isMark.1 with same | ⟨limit, is, cross₁, cross₂⟩
      · exact .inl (same.tokenStep shared words)
      · exact .inr ⟨rfl, limit, is, cross₁.trans (leads_tokenStep _ words .free),
          cross₂.trans (leads_tokenStep _ words .free)⟩
    · exact .inl (begun.tokenStep shared words)

end Scan

end FortranMarkup
