import FortranMarkup.Proofs.Styling.Tracking

/-!
# Walks in lockstep

Two walks that see the same text do the same. They may have begun in different places, be about to
stop in different places, and belong to texts that agree only up to a line start: as long as both
cursors are before that limit, each step of a scan keeps them alike.
-/

namespace FortranMarkup

/-- What two walks have in common: all of the text and the stop, or the text before a line start
that neither stops short of. -/
inductive Shared : Option Nat → Source → Nat → Source → Nat → Prop
  | all (src : Source) (stop : Nat) : Shared none src stop src stop
  | below {limit : Nat} {src₁ src₂ : Source} {stop₁ stop₂ : Nat} (table₁ : src₁.Tabled)
      (table₂ : src₂.Tabled) (agree : src₁.AgreeTo limit src₂) (le₁ : limit ≤ stop₁)
      (le₂ : limit ≤ stop₂) : Shared (some limit) src₁ stop₁ src₂ stop₂

namespace Cursor

variable {limit? : Option Nat} {old₁ old₂ : List Span} {src₁ src₂ : Source}
  {start₁ stop₁ start₂ stop₂ : Nat}

/-- Two cursors that differ at most in what they had painted before. -/
structure Alike (limit? : Option Nat) (old₁ old₂ : List Span) (c₁ : Cursor src₁ start₁ stop₁)
    (c₂ : Cursor src₂ start₂ stop₂) : Prop where
  pos : c₁.pos = c₂.pos
  line : c₁.line = c₂.line
  atLineStart : c₁.atLineStart = c₂.atLineStart
  atLineEnd : c₁.atLineEnd = c₂.atLineEnd
  state : c₁.state = c₂.state
  ch : c₁.ch = c₂.ch
  next : limit? = none ∨ isLineEnd c₁.ch = false → c₁.next = c₂.next
  segment : c₁.segment = c₂.segment
  painted : ∃ new, c₁.painted = new ++ old₁ ∧ c₂.painted = new ++ old₂
  below : ∀ limit, limit? = some limit → c₁.pos < limit ∧ c₁.Tracks ∧ c₂.Tracks

namespace Alike

variable {c₁ : Cursor src₁ start₁ stop₁} {c₂ : Cursor src₂ start₂ stop₂}

theorem of_tracks {limit : Nat} (shared : Shared (some limit) src₁ stop₁ src₂ stop₂)
    (tracks₁ : c₁.Tracks) (tracks₂ : c₂.Tracks) (less : c₁.pos < limit) (pos : c₁.pos = c₂.pos)
    (state : c₁.state = c₂.state) (segment : c₁.segment = c₂.segment)
    (painted : ∃ new, c₁.painted = new ++ old₁ ∧ c₂.painted = new ++ old₂) :
    Alike (some limit) old₁ old₂ c₁ c₂ := by
  cases shared with
  | below table₁ table₂ agree le₁ le₂ =>
    have size₁ := Source.le_size_of_startsLine agree.starts₁
    have size₂ := Source.le_size_of_startsLine agree.starts₂
    refine ⟨pos, ?_, ?_, ?_, state, ?_, ?_, segment, painted, ?_⟩
    · rw [tracks₁.line, tracks₂.line, ← pos]
      exact agree.lineAt_eq table₁ table₂ (Nat.le_of_lt less)
    · rw [Bool.eq_iff_iff, tracks₁.atLineStart, tracks₂.atLineStart, ← pos]
      exact agree.startsLine_iff (Nat.le_of_lt less)
    · rw [tracks₁.atLineEnd_eq table₁ (by omega), tracks₂.atLineEnd_eq table₂ (by omega), ← pos]
      exact agree.endsLineAt_eq less
    · rw [tracks₁.ch, tracks₂.ch, ← pos]
      exact agree.charD less _
    · rintro (none | inLine)
      · cases none
      · rw [tracks₁.ch] at inLine
        rw [tracks₁.next, tracks₂.next, ← pos]
        exact agree.charD (agree.succ_lt less inLine) _
    · rintro _ ⟨⟩
      exact ⟨less, tracks₁, tracks₂⟩

theorem of_tracks_same {src : Source} {c₁ : Cursor src start₁ stop₁} {c₂ : Cursor src start₂ stop₂}
    (tracks₁ : c₁.Tracks) (tracks₂ : c₂.Tracks) (pos : c₁.pos = c₂.pos)
    (state : c₁.state = c₂.state) (segment : c₁.segment = c₂.segment)
    (painted : ∃ new, c₁.painted = new ++ old₁ ∧ c₂.painted = new ++ old₂) :
    Alike none old₁ old₂ c₁ c₂ where
  pos := pos
  line := by rw [tracks₁.line, tracks₂.line, pos]
  atLineStart := by rw [Bool.eq_iff_iff, tracks₁.atLineStart, tracks₂.atLineStart, pos]
  atLineEnd := by rw [tracks₁.atLineEnd, tracks₂.atLineEnd, tracks₁.line, tracks₂.line, pos]
  state := state
  ch := by rw [tracks₁.ch, tracks₂.ch, pos]
  next := fun _ => by rw [tracks₁.next, tracks₂.next, pos]
  segment := segment
  painted := painted
  below := by rintro _ ⟨⟩

theorem relabel (alike : Alike limit? old₁ old₂ c₁ c₂) (state : Style) :
    Alike limit? old₁ old₂ (c₁.relabel state) (c₂.relabel state) where
  pos := alike.pos
  line := alike.line
  atLineStart := alike.atLineStart
  atLineEnd := alike.atLineEnd
  state := rfl
  ch := alike.ch
  next := alike.next
  segment := alike.segment
  painted := alike.painted
  below := fun limit is =>
    have ⟨less, tracks₁, tracks₂⟩ := alike.below limit is
    ⟨less, tracks₁.relabel state, tracks₂.relabel state⟩

theorem painted_stop (shared : Shared limit? src₁ stop₁ src₂ stop₂)
    (alike : Alike limit? old₁ old₂ c₁ c₂) : min c₁.pos src₁.size = min c₂.pos src₂.size := by
  cases shared with
  | all => rw [alike.pos]
  | below table₁ table₂ agree le₁ le₂ =>
    have less := (alike.below _ rfl).1
    have size₁ := Source.le_size_of_startsLine agree.starts₁
    have size₂ := Source.le_size_of_startsLine agree.starts₂
    have pos := alike.pos
    omega

theorem paint (shared : Shared limit? src₁ stop₁ src₂ stop₂)
    (alike : Alike limit? old₁ old₂ c₁ c₂) : Alike limit? old₁ old₂ c₁.paint c₂.paint where
  pos := alike.pos
  line := alike.line
  atLineStart := alike.atLineStart
  atLineEnd := alike.atLineEnd
  state := alike.state
  ch := alike.ch
  next := alike.next
  segment := by
    have same := alike.painted_stop shared
    have segment := alike.segment
    rw [segment_eq_edge, segment_eq_edge, painted_paint, painted_paint, same, segment, alike.state]
    split
    · rfl
    · rwa [← segment_eq_edge, ← segment_eq_edge]
  painted := by
    obtain ⟨new, painted₁, painted₂⟩ := alike.painted
    rw [painted_paint, painted_paint, alike.painted_stop shared, alike.segment, alike.state,
      painted₁, painted₂]
    split
    · exact ⟨_ :: new, rfl, rfl⟩
    · exact ⟨new, rfl, rfl⟩
  below := fun limit is =>
    have ⟨less, tracks₁, tracks₂⟩ := alike.below limit is
    ⟨less, tracks₁.paint, tracks₂.paint⟩

theorem setState (shared : Shared limit? src₁ stop₁ src₂ stop₂)
    (alike : Alike limit? old₁ old₂ c₁ c₂) (state : Style) :
    Alike limit? old₁ old₂ (c₁.setState state) (c₂.setState state) :=
  (alike.paint shared).relabel state

theorem more (shared : Shared limit? src₁ stop₁ src₂ stop₂)
    (alike : Alike limit? old₁ old₂ c₁ c₂) : c₁.pos < stop₁ ↔ c₂.pos < stop₂ := by
  cases shared with
  | all => rw [alike.pos]
  | below table₁ table₂ agree le₁ le₂ =>
    have less := (alike.below _ rfl).1
    have pos := alike.pos
    omega

theorem succ_lt (shared : Shared limit? src₁ stop₁ src₂ stop₂)
    (alike : Alike limit? old₁ old₂ c₁ c₂) (inside : c₁.atLineEnd = false) :
    ∀ limit, limit? = some limit → c₁.pos + 1 < limit := by
  cases shared with
  | all => rintro _ ⟨⟩
  | below table₁ table₂ agree le₁ le₂ =>
    rintro _ ⟨⟩
    obtain ⟨less, tracks₁, -⟩ := alike.below _ rfl
    have size₁ := Source.le_size_of_startsLine agree.starts₁
    rw [tracks₁.atLineEnd_eq table₁ (by omega)] at inside
    exact agree.succ_lt_of_not_endsLineAt less inside

theorem succ_lt_of_inLine (shared : Shared limit? src₁ stop₁ src₂ stop₂)
    (alike : Alike limit? old₁ old₂ c₁ c₂) (inLine : isLineEnd c₁.ch = false) :
    ∀ limit, limit? = some limit → c₁.pos + 1 < limit := by
  cases shared with
  | all => rintro _ ⟨⟩
  | below table₁ table₂ agree le₁ le₂ =>
    rintro _ ⟨⟩
    obtain ⟨less, tracks₁, -⟩ := alike.below _ rfl
    rw [tracks₁.ch] at inLine
    exact agree.succ_lt less inLine

theorem forward (shared : Shared limit? src₁ stop₁ src₂ stop₂)
    (alike : Alike limit? old₁ old₂ c₁ c₂)
    (next : ∀ limit, limit? = some limit → c₁.pos + 1 < limit) :
    Alike limit? old₁ old₂ c₁.forward c₂.forward := by
  cases shared with
  | all src stop =>
    have next₂ : c₁.next = c₂.next := alike.next (.inl rfl)
    have segment : c₁.forward.segment = c₂.forward.segment := by
      rw [segment_forward, segment_forward, alike.segment]
    have painted := alike.painted
    rw [← painted_forward c₁, ← painted_forward c₂] at painted
    have line := alike.line
    have atLineEnd := alike.atLineEnd
    have ch := alike.ch
    have pos := alike.pos
    have state := alike.state
    refine ⟨?_, ?_, ?_, ?_, ?_, ?_, ?_, segment, painted, ?_⟩
    · rw [pos_forward, pos_forward, pos]
    all_goals unfold Cursor.forward; rw [pos]; split <;> simp [*]
  | @below limit _ _ _ _ table₁ table₂ agree le₁ le₂ =>
    obtain ⟨less, tracks₁, tracks₂⟩ := alike.below _ rfl
    have pos := alike.pos
    have size₁ := Source.le_size_of_startsLine agree.starts₁
    have size₂ := Source.le_size_of_startsLine agree.starts₂
    have next := next limit rfl
    refine of_tracks (.below table₁ table₂ agree le₁ le₂) (tracks₁.forward table₁ (by omega)
      (by omega)) (tracks₂.forward table₂ (by omega) (by omega)) ?_ ?_ ?_ ?_ ?_
    · rwa [pos_forward, if_pos (by omega)]
    · rw [pos_forward, pos_forward, if_pos (by omega), if_pos (by omega), pos]
    · rw [state_forward, state_forward, alike.state]
    · rw [segment_forward, segment_forward, alike.segment]
    · rw [painted_forward, painted_forward]
      exact alike.painted

theorem forwardSetState (shared : Shared limit? src₁ stop₁ src₂ stop₂)
    (alike : Alike limit? old₁ old₂ c₁ c₂) (inLine : isLineEnd c₁.ch = false) (state : Style) :
    Alike limit? old₁ old₂ (c₁.forwardSetState state) (c₂.forwardSetState state) :=
  (alike.forward shared (alike.succ_lt_of_inLine shared inLine)).setState shared state

theorem toLineEnd (shared : Shared limit? src₁ stop₁ src₂ stop₂)
    (alike : Alike limit? old₁ old₂ c₁ c₂) :
    Alike limit? old₁ old₂ c₁.toLineEnd c₂.toLineEnd := by
  fun_induction Cursor.toLineEnd c₁ generalizing c₂ with
  | case1 c₁ going ih =>
    have going₂ : c₂.atLineEnd = false ∧ c₂.pos < stop₂ := by
      rwa [← alike.atLineEnd, ← alike.more shared]
    have moved : c₂.toLineEnd = c₂.forward.toLineEnd := by rw [Cursor.toLineEnd, if_pos going₂]
    rw [moved]
    exact ih (alike.forward shared (alike.succ_lt shared going.1))
  | case2 c₁ stays =>
    have stays₂ : ¬(c₂.atLineEnd = false ∧ c₂.pos < stop₂) := by
      rwa [← alike.atLineEnd, ← alike.more shared]
    rwa [Cursor.toLineEnd, if_neg stays₂]

theorem column_eq (shared : Shared limit? src₁ stop₁ src₂ stop₂)
    (alike : Alike limit? old₁ old₂ c₁ c₂) : c₁.column = c₂.column := by
  unfold column
  cases shared with
  | all => rw [alike.pos, alike.line]
  | below table₁ table₂ agree le₁ le₂ =>
    obtain ⟨less, tracks₁, tracks₂⟩ := alike.below _ rfl
    rw [tracks₁.line, tracks₂.line, ← alike.pos,
      agree.lineStart_lineAt_eq table₁ table₂ (Nat.le_of_lt less)]

theorem openWord_eq (shared : Shared limit? src₁ stop₁ src₂ stop₂)
    (alike : Alike limit? old₁ old₂ c₁ c₂) (capacity : Nat) :
    c₁.openWord capacity = c₂.openWord capacity := by
  unfold openWord
  cases shared with
  | all => rw [alike.pos, alike.segment]
  | below table₁ table₂ agree le₁ le₂ =>
    have less := (alike.below _ rfl).1
    have same : src₁.charsD c₁.segment c₁.pos '\x00' = src₂.charsD c₁.segment c₁.pos '\x00' := by
      apply List.map_congr_left
      intro pos mem
      rw [List.mem_range'_1] at mem
      exact agree.charD (by omega) _
    rw [same, alike.pos, alike.segment]

end Alike

/-! ## Looking ahead -/

variable {src : Source} {start stop : Nat}

theorem matchesText_iff {c : Cursor src start stop} (tracks : c.Tracks) (text : List Char) :
    c.matchesText text = true ↔
      ∀ k (h : k < text.length), (src.charD (c.pos + k) '\x00').toLower = text[k] := by
  have ch := tracks.ch
  have next := tracks.next
  match text with
  | [] => simp [matchesText]
  | [a] => simp [matchesText, ch]
  | a :: b :: rest =>
    simp only [matchesText, Bool.and_eq_true, decide_eq_true_eq, List.all_eq_true, ch, next]
    constructor
    · rintro ⟨⟨first, second⟩, others⟩ k h
      match k with
      | 0 => exact first
      | 1 => exact second
      | k + 2 =>
        have bound : k < rest.length := by simpa using h
        exact others (rest[k], k + 2)
          (List.mk_mem_zipIdx_iff_le_and_getElem?_sub.2 ⟨by omega, by simp [bound]⟩)
    · intro all
      refine ⟨⟨all 0 (by simp), all 1 (by simp)⟩, ?_⟩
      rintro ⟨expected, distance⟩ mem
      obtain ⟨low, at_distance⟩ := List.mk_mem_zipIdx_iff_le_and_getElem?_sub.1 mem
      obtain ⟨k, rfl⟩ : ∃ k, distance = k + 2 := ⟨distance - 2, by omega⟩
      obtain ⟨bound, same⟩ := List.getElem?_eq_some_iff.1 at_distance
      rw [← same]
      exact all (k + 2) (Nat.add_lt_add_right bound 2)

theorem isLineEnd_toLower {c : Char} (ends : isLineEnd c = true) : isLineEnd c.toLower = true := by
  simp only [isLineEnd, Bool.or_eq_true, decide_eq_true_eq] at ends
  rcases ends with rfl | rfl <;> rfl

/-- A text without line ends that stands below the limit in one source does so in the other. -/
theorem matchesText_of_agree {limit : Nat} {c₁ : Cursor src₁ start₁ stop₁}
    {c₂ : Cursor src₂ start₂ stop₂} (agree : src₁.AgreeTo limit src₂) (tracks₁ : c₁.Tracks)
    (tracks₂ : c₂.Tracks) (less : c₁.pos < limit) (pos : c₁.pos = c₂.pos) {text : List Char}
    (inLine : ∀ a ∈ text, isLineEnd a = false) (matches₁ : c₁.matchesText text = true) :
    c₂.matchesText text = true := by
  rw [matchesText_iff tracks₁] at matches₁
  have below : ∀ k, k < text.length → c₁.pos + k < limit := by
    intro k bound
    induction k with
    | zero => exact less
    | succ k ih =>
      have here := ih (Nat.lt_of_succ_lt bound)
      apply agree.succ_lt here
      apply Bool.eq_false_iff.2
      intro ends
      have lower := isLineEnd_toLower ends
      rw [matches₁ k (Nat.lt_of_succ_lt bound), inLine _ (List.getElem_mem _)] at lower
      cases lower
  rw [matchesText_iff tracks₂]
  intro k bound
  rw [← pos, ← agree.charD (below k bound)]
  exact matches₁ k bound

namespace Alike

variable {c₁ : Cursor src₁ start₁ stop₁} {c₂ : Cursor src₂ start₂ stop₂}

theorem matchesText_eq (shared : Shared limit? src₁ stop₁ src₂ stop₂)
    (alike : Alike limit? old₁ old₂ c₁ c₂) {text : List Char}
    (inLine : ∀ a ∈ text, isLineEnd a = false) : c₁.matchesText text = c₂.matchesText text := by
  cases shared with
  | all =>
    have next : c₁.next = c₂.next := alike.next (.inl rfl)
    match text with
    | [] => rfl
    | [a] => simp only [matchesText, alike.ch]
    | a :: b :: rest => simp only [matchesText, alike.ch, next, alike.pos]
  | below table₁ table₂ agree le₁ le₂ =>
    obtain ⟨less, tracks₁, tracks₂⟩ := alike.below _ rfl
    rw [Bool.eq_iff_iff]
    exact ⟨matchesText_of_agree agree tracks₁ tracks₂ less alike.pos inLine,
      matchesText_of_agree agree.symm tracks₂ tracks₁ (alike.pos ▸ less) alike.pos.symm inLine⟩

theorem commentStyle_eq (shared : Shared limit? src₁ stop₁ src₂ stop₂)
    (alike : Alike limit? old₁ old₂ c₁ c₂) (inLine : isLineEnd c₁.ch = false)
    {beginnings : List String}
    (inLines : (beginnings.all fun text => text.toList.all (!isLineEnd ·)) = true) :
    Scan.commentStyle c₁ beginnings = Scan.commentStyle c₂ beginnings := by
  have inLines : ∀ text ∈ beginnings, ∀ a ∈ text.toList, isLineEnd a = false := by
    intro text mem a inside
    have all := List.all_eq_true.1 (List.all_eq_true.1 inLines text mem) a inside
    rwa [Bool.not_eq_true'] at all
  have any : beginnings.any (fun text => c₁.matchesText text.toList) =
      beginnings.any (fun text => c₂.matchesText text.toList) := by
    rw [Bool.eq_iff_iff, List.any_eq_true, List.any_eq_true]
    constructor
    · rintro ⟨text, mem, found⟩
      exact ⟨text, mem, alike.matchesText_eq shared (inLines text mem) ▸ found⟩
    · rintro ⟨text, mem, found⟩
      exact ⟨text, mem, (alike.matchesText_eq shared (inLines text mem)).symm ▸ found⟩
  rw [Scan.commentStyle, Scan.commentStyle, any, alike.next (.inr inLine)]

theorem afterBlanks_eq (shared : Shared limit? src₁ stop₁ src₂ stop₂)
    (alike : Alike limit? old₁ old₂ c₁ c₂) (inLine : isLineEnd c₁.ch = false) :
    Scan.afterBlanks c₁ = Scan.afterBlanks c₂ := by
  unfold Scan.afterBlanks
  cases shared with
  | all => rw [alike.pos]
  | @below limit _ _ _ _ table₁ table₂ agree le₁ le₂ =>
    obtain ⟨less, tracks₁, -⟩ := alike.below _ rfl
    rw [tracks₁.ch] at inLine
    obtain ⟨same, found⟩ := agree.skipWhile_eq (fun _ blank => Source.isLineEnd_of_isBlank blank)
      (c₁.pos + markReach) (c₁.pos + 1) (agree.succ_lt less inLine)
    dsimp only
    rw [← alike.pos, ← same, agree.charD found]

end Alike

end Cursor

/-! ## Steps of a scan -/

namespace Scan

variable {form : SourceForm} {limit? : Option Nat} {old₁ old₂ : List Span} {src₁ src₂ : Source}
  {start₁ stop₁ start₂ stop₂ : Nat}

/-- Two scans with cursors alike that remember the same. Only fixed form resumes what is carried. -/
structure Alike (form : SourceForm) (limit? : Option Nat) (old₁ old₂ : List Span)
    (s₁ : Scan src₁ start₁ stop₁) (s₂ : Scan src₂ start₂ stop₂) : Prop where
  cursor : s₁.cursor.Alike limit? old₁ old₂ s₂.cursor
  nonBlank : s₁.nonBlank = s₂.nonBlank
  carried : form = .fixed → s₁.carried = s₂.carried

namespace Alike

variable {s₁ : Scan src₁ start₁ stop₁} {s₂ : Scan src₂ start₂ stop₂}

theorem withCursor (alike : Alike form limit? old₁ old₂ s₁ s₂) {c₁ : Cursor src₁ start₁ stop₁}
    {c₂ : Cursor src₂ start₂ stop₂} (cursor : c₁.Alike limit? old₁ old₂ c₂) :
    Alike form limit? old₁ old₂ (s₁.withCursor c₁) (s₂.withCursor c₂) :=
  ⟨cursor, alike.nonBlank, alike.carried⟩

theorem beginLine (shared : Shared limit? src₁ stop₁ src₂ stop₂)
    (alike : Alike form limit? old₁ old₂ s₁ s₂) :
    Alike form limit? old₁ old₂ s₁.beginLine s₂.beginLine := by
  unfold Scan.beginLine
  rw [← alike.cursor.atLineStart]
  split
  · exact ⟨alike.cursor.setState shared .plain, rfl, alike.carried⟩
  · exact alike

theorem countByte (alike : Alike form limit? old₁ old₂ s₁ s₂) :
    Alike form limit? old₁ old₂ s₁.countByte s₂.countByte := by
  unfold Scan.countByte
  rw [← alike.cursor.ch]
  split
  · exact alike
  · exact ⟨alike.cursor, congrArg (· + 1) alike.nonBlank, alike.carried⟩

theorem markStep (shared : Shared limit? src₁ stop₁ src₂ stop₂)
    (alike : Alike .fixed limit? old₁ old₂ s₁ s₂) :
    Alike .fixed limit? old₁ old₂ s₁.markStep s₂.markStep := by
  have marked := alike.cursor.setState shared .continuation
  unfold Scan.markStep
  dsimp only
  rw [← alike.cursor.ch, ← alike.carried rfl]
  split
  · exact ⟨alike.cursor.setState shared .plain, alike.nonBlank, fun _ => rfl⟩
  · split
    · exact ⟨marked, alike.nonBlank, fun _ => rfl⟩
    · rename_i inLine _
      exact alike.withCursor (marked.forwardSetState shared (Bool.eq_false_iff.2 inLine) _)

theorem fixedStep (shared : Shared limit? src₁ stop₁ src₂ stop₂)
    (alike : Alike .fixed limit? old₁ old₂ s₁ s₂) (column : Nat) :
    Alike .fixed limit? old₁ old₂ (s₁.fixedStep column) (s₂.fixedStep column) := by
  unfold Scan.fixedStep
  dsimp only
  rw [← alike.cursor.ch]
  split
  · rename_i comment
    have inLine : isLineEnd s₁.cursor.ch = false := by
      apply Bool.eq_false_iff.2
      intro ends
      simp only [isLineEnd, Bool.or_eq_true, decide_eq_true_eq] at ends
      rcases ends with ends | ends <;> simp [ends] at comment
    rw [alike.cursor.commentStyle_eq shared inLine rfl]
    exact alike.withCursor ((alike.cursor.setState shared _).toLineEnd shared)
  · split
    · exact alike.withCursor ((alike.cursor.setState shared _).toLineEnd shared)
    · split
      · exact alike.withCursor (alike.cursor.setState shared _)
      · exact alike.markStep shared

theorem numberSignStep (shared : Shared limit? src₁ stop₁ src₂ stop₂)
    (alike : Alike form limit? old₁ old₂ s₁ s₂) :
    Alike form limit? old₁ old₂ s₁.numberSignStep s₂.numberSignStep := by
  unfold Scan.numberSignStep
  rw [← alike.cursor.ch, ← alike.nonBlank]
  split
  · exact alike.withCursor ((alike.cursor.setState shared _).toLineEnd shared)
  · exact alike

theorem leaveOpen (alike : Alike form limit? old₁ old₂ s₁ s₂) :
    Alike form limit? old₁ old₂ s₁.leaveOpen s₂.leaveOpen :=
  ⟨alike.cursor.relabel _, alike.nonBlank, fun _ => alike.cursor.state⟩

theorem literalStep (shared : Shared limit? src₁ stop₁ src₂ stop₂)
    (alike : Alike form limit? old₁ old₂ s₁ s₂) {quote : Char} (inLine : isLineEnd quote = false) :
    Alike form limit? old₁ old₂ (s₁.literalStep quote) (s₂.literalStep quote) := by
  unfold Scan.literalStep
  dsimp only
  rw [← alike.cursor.ch]
  split
  · rename_i isQuote
    have inLine : isLineEnd s₁.cursor.ch = false := isQuote ▸ inLine
    rw [← alike.cursor.next (.inr inLine)]
    split
    · exact ⟨alike.cursor.forward shared (alike.cursor.succ_lt_of_inLine shared inLine),
        alike.nonBlank, fun _ => alike.cursor.state⟩
    · exact ⟨alike.cursor.forwardSetState shared inLine _, alike.nonBlank, fun _ => rfl⟩
  · exact ⟨alike.cursor, alike.nonBlank, fun _ => alike.cursor.state⟩

theorem closeIdentifier (shared : Shared limit? src₁ stop₁ src₂ stop₂)
    (alike : Alike form limit? old₁ old₂ s₁ s₂) (words : Dictionary) :
    (Scan.closeIdentifier s₁.cursor words).Alike limit? old₁ old₂
      (Scan.closeIdentifier s₂.cursor words) := by
  unfold Scan.closeIdentifier
  dsimp only
  rw [← alike.cursor.openWord_eq shared, ← alike.cursor.state]
  exact (alike.cursor.relabel _).setState shared _

theorem pastLabel_eq (shared : Shared limit? src₁ stop₁ src₂ stop₂)
    (alike : Alike form limit? old₁ old₂ s₁ s₂) :
    s₁.pastLabel form = s₂.pastLabel form := by
  unfold Scan.pastLabel
  rw [← alike.cursor.column_eq shared, ← alike.nonBlank]

theorem closeToken (shared : Shared limit? src₁ stop₁ src₂ stop₂)
    (alike : Alike form limit? old₁ old₂ s₁ s₂) (words : Dictionary) :
    Alike form limit? old₁ old₂ (s₁.closeToken words form) (s₂.closeToken words form) := by
  have plain := alike.withCursor (alike.cursor.setState shared .plain)
  have state₂ := alike.cursor.state
  have ch := alike.cursor.ch
  have atLineEnd := alike.cursor.atLineEnd
  cases state : s₁.cursor.state <;> rw [state] at state₂ <;>
    simp only [Scan.closeToken, state, ← state₂, ← ch, ← atLineEnd]
  case apostropheLiteral =>
    split
    · exact alike.leaveOpen
    · exact alike.literalStep shared rfl
  case quoteLiteral =>
    split
    · exact alike.leaveOpen
    · exact alike.literalStep shared rfl
  case dottedOperator =>
    split
    · rename_i dot
      have inLine : isLineEnd s₁.cursor.ch = false := dot ▸ rfl
      exact alike.withCursor (alike.cursor.forwardSetState shared inLine _)
    · exact alike
  case identifier =>
    split
    · exact alike
    · exact alike.withCursor (alike.closeIdentifier shared words)
  case label =>
    rw [← alike.pastLabel_eq shared]
    split
    · exact alike
    · exact plain
  case number =>
    split
    · exact alike
    · exact plain
  case comment | preprocessor =>
    split
    · exact plain
    · exact alike
  case operator | continuation => exact plain
  all_goals exact alike

theorem branch {p : Prop} [Decidable p] {t₁ : Scan src₁ start₁ stop₁}
    {t₂ : Scan src₂ start₂ stop₂} (yes : Alike form limit? old₁ old₂ s₁ s₂)
    (no : Alike form limit? old₁ old₂ t₁ t₂) :
    Alike form limit? old₁ old₂ (if p then s₁ else t₁) (if p then s₂ else t₂) := by
  split
  · exact yes
  · exact no

theorem openToken_of_lineEnd {src : Source} {start stop : Nat} {s : Scan src start stop}
    (ends : isLineEnd s.cursor.ch = true) (form : SourceForm) : s.openToken form = s := by
  simp only [isLineEnd, Bool.or_eq_true, decide_eq_true_eq] at ends
  rcases ends with ends | ends <;> simp [Scan.openToken, ends, isWordStart, isOperator]

theorem openToken (shared : Shared limit? src₁ stop₁ src₂ stop₂)
    (alike : Alike form limit? old₁ old₂ s₁ s₂) :
    Alike form limit? old₁ old₂ (s₁.openToken form) (s₂.openToken form) := by
  have opened (style : Style) := alike.withCursor (alike.cursor.setState shared style)
  have ch := alike.cursor.ch
  by_cases ends : isLineEnd s₁.cursor.ch = true
  · rwa [openToken_of_lineEnd ends, openToken_of_lineEnd (ch ▸ ends)]
  · have inLine := Bool.eq_false_iff.2 ends
    have next := alike.cursor.next (.inr inLine)
    have comment := alike.cursor.commentStyle_eq shared inLine
      (show (directives.all fun text => text.toList.all (!isLineEnd ·)) = true from rfl)
    unfold Scan.openToken
    simp only [← ch, ← next, ← comment, ← alike.nonBlank]
    refine branch (opened _) (branch (opened _) (branch (opened _) (branch ?_ (branch (opened _)
      (branch (opened _) (branch (opened _) (branch (opened _) (branch (opened _) alike))))))))
    have radix := alike.cursor.setState shared .number
    exact alike.withCursor (radix.forward shared (radix.succ_lt_of_inLine shared inLine))

theorem tokenStep (shared : Shared limit? src₁ stop₁ src₂ stop₂)
    (alike : Alike form limit? old₁ old₂ s₁ s₂) (words : Dictionary) :
    Alike form limit? old₁ old₂ (s₁.tokenStep words form) (s₂.tokenStep words form) := by
  have closed := (alike.numberSignStep shared).closeToken shared words
  unfold Scan.tokenStep
  dsimp only
  rw [← closed.cursor.state]
  split
  · exact closed.openToken shared
  · exact closed

end Alike

end Scan

end FortranMarkup
