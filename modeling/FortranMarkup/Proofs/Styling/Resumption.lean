import FortranMarkup.Proofs.Styling.StatementStart

/-!
# Resuming at a line start

A run from the beginning of the text comes to a line start, or crosses it from a mark
(`Scan.reaches_line`). Where the text before a line does not go on in it (`Source.Resumable`), what
a scan remembers there has no effect on what it paints, so a pass that begins at that line gives the
styles that a pass over everything gives (`Source.take_allStyles`).
-/

namespace FortranMarkup

namespace Scan

variable {src : Source} {start stop : Nat} {words : Dictionary} {form : SourceForm}

/-! ## Coming to a line start -/

theorem reaches_line {s : Scan src start stop} {first : Nat}
    (table : src.Tabled) (starts : src.StartsLine first) (le : first ≤ stop)
    (sound : s.cursor.Sound) (tracks : s.cursor.Tracks) (before : s.cursor.pos ≤ first)
    (words : Dictionary) (form : SourceForm) :
    ∃ t, Reaches words form s t ∧ t.cursor.Tracks ∧
      (t.cursor.pos = first ∨
        (form = .free ∧ t.cursor.pos < first ∧ t.cursor.pos < stop ∧
          Crosses first t.beginLine.countByte (t.advance words form))) := by
  rcases Nat.lt_or_eq_of_le before with less | same
  · have shared : Shared (some first) src stop src stop :=
      .below table table (.refl starts) le le
    have alike : Alike form (some first) s.cursor.painted s.cursor.painted s s :=
      ⟨.of_tracks shared tracks tracks less rfl rfl rfl ⟨[], rfl, rfl⟩, rfl, fun _ => rfl⟩
    obtain ⟨t, _, reaches, -, meets | leaps⟩ := alike.reach shared sound sound words
    · exact ⟨t, reaches, meets.tracks₁, .inl meets.pos₁⟩
    · obtain ⟨less, tracks, -⟩ := leaps.alike.cursor.below first rfl
      exact ⟨t, reaches, tracks, .inr ⟨leaps.free, less, Nat.lt_of_lt_of_le less le,
        leaps.crosses₁.trans (Cursor.Leads.refl _).forward⟩⟩
  · exact ⟨s, .refl s, tracks, .inl same⟩

/-! ## Where a line begins -/

variable {limit first : Nat} {old₁ old₂ : List Span} {src₁ src₂ : Source}
  {start₁ stop₁ start₂ stop₂ : Nat}

/-- A scan that has begun a line. -/
structure Begun (first : Nat) (old : List Span) (s : Scan src start stop) : Prop where
  pos : s.cursor.pos = first
  tracks : s.cursor.Tracks
  sound : s.cursor.Sound
  state : s.cursor.state = .plain
  segment : s.cursor.segment = first
  painted : s.cursor.painted = old
  nonBlank : s.nonBlank = 0

theorem Begun.length {s : Scan src start stop} {old : List Span} (begun : Begun first old s) :
    start + (Span.shades old).length = first := by
  have length := Span.length_shades begun.sound.joined
  rwa [← Cursor.segment_eq_edge, begun.segment, begun.painted] at length

theorem begun_beginLine {s : Scan src start stop} (sound : s.cursor.Sound)
    (tracks : s.cursor.Tracks) (starts : src.StartsLine s.cursor.pos) :
    Begun s.cursor.pos s.cursor.paint.painted s.beginLine := by
  have segment : s.cursor.paint.segment = s.cursor.pos := by
    rw [Cursor.segment_paint sound, Nat.min_eq_left tracks.inside]
  have tracks' := tracks_beginLine tracks
  have sound' := sound_beginLine sound
  have begun : s.beginLine = { s with cursor := s.cursor.setState .plain, nonBlank := 0 } := by
    rw [beginLine, if_pos (tracks.atLineStart.2 starts)]
  rw [begun] at tracks' sound' ⊢
  exact ⟨rfl, tracks', sound', rfl, segment, rfl, rfl⟩

theorem Begun.alike_below (form : SourceForm) (shared : Shared (some limit) src₁ stop₁ src₂ stop₂)
    {s₁ : Scan src₁ start₁ stop₁} {s₂ : Scan src₂ start₂ stop₂} (begun₁ : Begun first old₁ s₁)
    (begun₂ : Begun first old₂ s₂) (less : first < limit)
    (carried : form = .fixed → s₁.carried = s₂.carried) :
    Alike form (some limit) old₁ old₂ s₁ s₂ where
  cursor := .of_tracks shared begun₁.tracks begun₂.tracks (begun₁.pos ▸ less)
    (begun₁.pos.trans begun₂.pos.symm) (begun₁.state.trans begun₂.state.symm)
    (begun₁.segment.trans begun₂.segment.symm) ⟨[], begun₁.painted, begun₂.painted⟩
  nonBlank := begun₁.nonBlank.trans begun₂.nonBlank.symm
  carried := carried

theorem Begun.alike_all (form : SourceForm) {s₁ : Scan src start₁ stop} {s₂ : Scan src start₂ stop}
    (begun₁ : Begun first old₁ s₁) (begun₂ : Begun first old₂ s₂)
    (carried : form = .fixed → s₁.carried = s₂.carried) : Alike form none old₁ old₂ s₁ s₂ where
  cursor := .of_tracks_same begun₁.tracks begun₂.tracks (begun₁.pos.trans begun₂.pos.symm)
    (begun₁.state.trans begun₂.state.symm) (begun₁.segment.trans begun₂.segment.symm)
    ⟨[], begun₁.painted, begun₂.painted⟩
  nonBlank := begun₁.nonBlank.trans begun₂.nonBlank.symm
  carried := carried

@[simp] theorem carried_beginLine (s : Scan src start stop) :
    s.beginLine.carried = s.carried := by
  unfold beginLine
  split <;> rfl

/-- The scan with which a pass begins. -/
def fresh (src : Source) (start stop : Nat) (state : Style) : Scan src start stop :=
  ⟨.atStart src start stop state, 0, .plain⟩

theorem begun_fresh (table : src.Tabled) (starts : src.StartsLine first) (stop : Nat)
    (state : Style) : Begun first [] (fresh src first stop state).beginLine := by
  have inside := Source.le_size_of_startsLine starts
  have begun := begun_beginLine (s := fresh src first stop state)
    (Cursor.sound_atStart state inside) (Cursor.tracks_atStart table state inside) starts
  have empty : (fresh src first stop state).cursor.paint = (fresh src first stop state).cursor :=
    Cursor.paint_of_segment (Nat.min_le_left _ _)
  rwa [empty] at begun

end Scan

/-! ## Styles from a line start -/

namespace Source

variable {src : Source} {words : Dictionary} {form : SourceForm} {first stop : Nat}

theorem le_walkEnd (src : Source) (stop : Nat) : stop ≤ src.walkEnd stop := by
  unfold walkEnd
  split <;> omega

theorem min_walkEnd (inside : stop ≤ src.size) : min (src.walkEnd stop) src.size = stop := by
  unfold walkEnd
  split <;> omega

theorem length_stylesFrom (words : Dictionary) (form : SourceForm) (le : first ≤ stop)
    (inside : stop ≤ src.size) (state : Style) :
    (src.stylesFrom words form first stop state).length = stop - first := by
  let begun := Scan.fresh src first (src.walkEnd stop) state
  let ended := (begun.run words form).cursor
  have leads : Cursor.Leads begun.cursor ended := Scan.leads_run words form begun
  have low : src.walkEnd stop ≤ ended.pos := Scan.pos_run words form begun
  have high : ended.pos ≤ src.walkEnd stop :=
    leads.pos_le_stop (Nat.le_trans le (src.le_walkEnd stop))
  have sound : ended.Sound := leads.sound (Cursor.sound_atStart state (Nat.le_trans le inside))
  have length := Span.length_shades (Cursor.sound_paint sound).joined
  rw [← Cursor.segment_eq_edge, Cursor.segment_paint sound, Nat.le_antisymm high low,
    min_walkEnd inside] at length
  change (Span.shades ended.paint.painted).length = _
  omega

/-- The last visible byte before a position is a mark, by the styles of the text from the start. -/
def MarkBefore (src : Source) (styles : List Style) (pos : Nat) : Prop :=
  ∃ mark, mark < pos ∧ src.charD mark ' ' = '&' ∧ styles[mark]? = some .continuation ∧
    ∀ later, mark < later → later < pos → isSpace (src.charD later ' ') = true

/-- A line start at which the text before it does not go on. -/
structure Resumable (src : Source) (form : SourceForm) (styles : List Style) (first : Nat) :
    Prop where
  starts : src.StartsLine first
  fixed : form = .fixed → first = 0 ∨ src.BeginsStatement first
  free : form = .free → ¬src.MarkBefore styles first

/-- The pass over everything. -/
def allStyles (src : Source) (words : Dictionary) (form : SourceForm) (outside : Style) :
    List Style :=
  src.stylesFrom words form 0 src.size outside

theorem markBefore_of_crosses (words : Dictionary) (form : SourceForm) {s t : Scan src 0 stop}
    (crosses : Scan.Crosses first s t)
    (before : s.cursor.pos < first) (sound : s.cursor.Sound) (tracks : s.cursor.Tracks) :
    src.MarkBefore (t.run words form).cursor.paint.styles first := by
  refine ⟨s.cursor.pos, before, ?_, ?_, crosses.space⟩
  · exact charD_eq_of_ne (tracks.ch ▸ crosses.isMark) (by decide) ' '
  · have length := Span.length_shades (Cursor.sound_paint sound).joined
    rw [← Cursor.segment_eq_edge, Cursor.segment_paint sound, Nat.min_eq_left tracks.inside,
      Nat.zero_add] at length
    obtain ⟨rest, styles⟩ := crosses.shades words form before
    rw [← styles, List.append_assoc, List.getElem?_append_right (Nat.le_of_eq length), length]
    simp

/-- A pass over everything comes to a line start at which the text before it does not go on, and
what it carries there has no effect. -/
theorem reaches_resumable (table : src.Tabled) (outside : Style)
    (resumable : src.Resumable form (src.allStyles words form outside) first) :
    ∃ t : Scan src 0 (src.walkEnd src.size), t.cursor.pos = first ∧ t.cursor.Tracks ∧
      t.cursor.Sound ∧ (form = .fixed → t.carried = .plain) ∧
      (t.run words form).cursor.paint.styles = src.allStyles words form outside := by
  let begun := Scan.fresh src 0 (src.walkEnd src.size) outside
  have sound : begun.cursor.Sound := Cursor.sound_atStart outside (Nat.zero_le _)
  have tracks : begun.cursor.Tracks := Cursor.tracks_atStart table outside (Nat.zero_le _)
  by_cases initial : first = 0
  · subst initial
    exact ⟨begun, rfl, tracks, sound, fun _ => rfl, rfl⟩
  have inside := Nat.le_trans (le_size_of_startsLine resumable.starts) (src.le_walkEnd src.size)
  obtain ⟨t, reaches, tracks, pos | ⟨free, before, more, crosses⟩⟩ :=
    Scan.reaches_line table resumable.starts inside sound tracks (Nat.zero_le _) words form
  · have sound := reaches.leads.sound sound
    have styles : (t.run words form).cursor.paint.styles = src.allStyles words form outside := by
      rw [← reaches.run_eq]
      rfl
    cases form with
    | free => exact ⟨t, pos, tracks, sound, nofun, styles⟩
    | fixed =>
      refine ⟨t.withCarried .plain, pos, tracks, sound, fun _ => rfl, ?_⟩
      have line := (resumable.fixed rfl).resolve_left initial
      rw [← styles]
      exact congrArg Span.shades
        (Scan.painted_run_withCarried table line sound tracks 0 markColumn pos rfl .plain)
  · have sound := reaches.leads.sound sound
    have mark := markBefore_of_crosses words form crosses
      (by rwa [Scan.pos_countByte, Scan.pos_beginLine])
      (by rw [Scan.cursor_countByte]; exact Scan.sound_beginLine sound)
      (by rw [Scan.cursor_countByte]; exact Scan.tracks_beginLine tracks)
    rw [← Scan.run_of_lt more, ← reaches.run_eq] at mark
    exact absurd mark (resumable.free free)

theorem take_eq_of_prefix {a b all : List Style} (both : a ++ b <+: all) (first_eq : a.length = first)
    (stop_eq : (a ++ b).length = stop) : all.take stop = all.take first ++ b := by
  have whole := List.prefix_iff_eq_take.1 both
  have part := List.prefix_iff_eq_take.1 ((List.prefix_append a b).trans both)
  rw [stop_eq] at whole
  rw [first_eq] at part
  rw [← whole, ← part]

/-- Resuming at a line start gives the styles that a pass over everything gives. -/
theorem take_allStyles (table : src.Tabled) (outside : Style)
    (resumable : src.Resumable form (src.allStyles words form outside) first)
    (le : first ≤ stop) (inside : stop ≤ src.size) (ends : src.StartsLine stop ∨ stop = src.size)
    (state : Style) :
    (src.allStyles words form outside).take stop =
      (src.allStyles words form outside).take first ++
        src.stylesFrom words form first stop state := by
  have resumed_length := length_stylesFrom words form le inside state
  rcases Nat.lt_or_eq_of_le le with less | rfl
  case inr =>
    rw [Nat.sub_self] at resumed_length
    rw [List.eq_nil_of_length_eq_zero resumed_length, List.append_nil]
  obtain ⟨t, pos, tracks, sound, carried, styles⟩ := reaches_resumable table outside resumable
  let u := Scan.fresh src first (src.walkEnd stop) state
  have u_sound : u.cursor.Sound := Cursor.sound_atStart state (Nat.le_trans le inside)
  have begun : Scan.Begun first t.cursor.paint.painted t.beginLine :=
    pos ▸ Scan.begun_beginLine sound tracks (pos ▸ resumable.starts)
  have fresh : Scan.Begun first [] u.beginLine :=
    Scan.begun_fresh table resumable.starts (src.walkEnd stop) state
  have carried : form = .fixed → t.beginLine.carried = u.beginLine.carried := by
    intro fixed
    rw [Scan.carried_beginLine, Scan.carried_beginLine, carried fixed]
    rfl
  have resumed : (u.beginLine.run words form).cursor.paint.styles =
      src.stylesFrom words form first stop state := by
    rw [Scan.run_beginLine u_sound (Nat.lt_of_lt_of_le less (src.le_walkEnd stop))]
    rfl
  have more : t.cursor.pos < src.walkEnd src.size := by
    have := src.le_walkEnd src.size
    omega
  rw [← Scan.run_beginLine sound more] at styles
  have length := begun.length
  rcases ends with starts | rfl
  · have shared : Shared (some stop) src (src.walkEnd src.size) src (src.walkEnd stop) :=
      .below table table (.refl starts) (Nat.le_trans inside (src.le_walkEnd _)) (src.le_walkEnd _)
    have alike := begun.alike_below form shared fresh less carried
    obtain ⟨common, length₁, length₂, full, part⟩ :=
      alike.commonTo_run shared begun.sound fresh.sound words
    rw [styles] at full
    rw [resumed, Span.shades_nil, List.nil_append] at part
    rw [Span.shades_nil, List.nil_append] at length₂
    obtain rfl := part.eq_of_length (by omega)
    exact take_eq_of_prefix full (by omega) (by omega)
  · have alike := (begun.alike_all form fresh carried).run (.all src _) begun.sound fresh.sound words
    obtain ⟨new, painted₁, painted₂⟩ := (alike.cursor.paint (.all src _)).painted
    rw [Cursor.styles_eq_shades, painted₁, Span.shades_append] at styles
    rw [Cursor.styles_eq_shades, painted₂, List.append_nil] at resumed
    have all_length : (src.allStyles words form outside).length = src.size :=
      length_stylesFrom words form (Nat.zero_le _) (Nat.le_refl _) outside
    rw [← resumed]
    rw [← styles] at all_length ⊢
    exact take_eq_of_prefix (List.prefix_refl _) (by omega) all_length

/-- The state with which a pass begins at a line start has no effect on the styles that it gives. -/
theorem stylesFrom_state (table : src.Tabled) (words : Dictionary) (form : SourceForm)
    (starts : src.StartsLine first) (le : first ≤ stop) (inside : stop ≤ src.size)
    (state₁ state₂ : Style) :
    src.stylesFrom words form first stop state₁ = src.stylesFrom words form first stop state₂ := by
  rcases Nat.lt_or_eq_of_le (Nat.le_trans le (src.le_walkEnd stop)) with more | done
  · have fresh₁ := Scan.begun_fresh table starts (src.walkEnd stop) state₁
    have fresh₂ := Scan.begun_fresh table starts (src.walkEnd stop) state₂
    have alike := fresh₁.alike_all form fresh₂
      (fun _ => by rw [Scan.carried_beginLine, Scan.carried_beginLine]; rfl)
    have ended := alike.run (.all src _) fresh₁.sound fresh₂.sound words
    have within := Nat.le_trans le inside
    rw [Scan.run_beginLine (Cursor.sound_atStart state₁ within) more,
      Scan.run_beginLine (Cursor.sound_atStart state₂ within) more] at ended
    obtain ⟨new, painted₁, painted₂⟩ := (ended.cursor.paint (.all src _)).painted
    exact congrArg Span.shades (painted₁.trans painted₂.symm)
  · have empty (state : Style) : src.stylesFrom words form first stop state = [] := by
      have walkEnd := src.le_walkEnd stop
      apply List.eq_nil_of_length_eq_zero
      rw [length_stylesFrom words form le inside]
      omega
    rw [empty, empty]

theorem allStyles_outside (table : src.Tabled) (words : Dictionary) (form : SourceForm)
    (outside₁ outside₂ : Style) :
    src.allStyles words form outside₁ = src.allStyles words form outside₂ :=
  stylesFrom_state table words form src.startsLine_zero (Nat.zero_le _) (Nat.le_refl _) _ _

theorem take_allStyles_of_agree {src₁ src₂ : Source} {limit : Nat} (table₁ : src₁.Tabled)
    (table₂ : src₂.Tabled) (agree : src₁.AgreeTo limit src₂) (words : Dictionary)
    (form : SourceForm) (outside₁ outside₂ : Style) :
    (src₁.allStyles words form outside₁).take limit =
      (src₂.allStyles words form outside₂).take limit := by
  rcases Nat.eq_zero_or_pos limit with rfl | positive
  · rfl
  have le₁ := Nat.le_trans (le_size_of_startsLine agree.starts₁) (src₁.le_walkEnd src₁.size)
  have le₂ := Nat.le_trans (le_size_of_startsLine agree.starts₂) (src₂.le_walkEnd src₂.size)
  have fresh₁ := Scan.begun_fresh table₁ src₁.startsLine_zero (src₁.walkEnd src₁.size) outside₁
  have fresh₂ := Scan.begun_fresh table₂ src₂.startsLine_zero (src₂.walkEnd src₂.size) outside₂
  have alike := fresh₁.alike_below form (.below table₁ table₂ agree le₁ le₂) fresh₂ positive
    (fun _ => by rw [Scan.carried_beginLine, Scan.carried_beginLine]; rfl)
  obtain ⟨common, length₁, -, styles₁, styles₂⟩ :=
    alike.commonTo_run (.below table₁ table₂ agree le₁ le₂) fresh₁.sound fresh₂.sound words
  have sound₁ : (Scan.fresh src₁ 0 (src₁.walkEnd src₁.size) outside₁).cursor.Sound :=
    Cursor.sound_atStart outside₁ (Nat.zero_le _)
  have sound₂ : (Scan.fresh src₂ 0 (src₂.walkEnd src₂.size) outside₂).cursor.Sound :=
    Cursor.sound_atStart outside₂ (Nat.zero_le _)
  rw [Scan.run_beginLine sound₁ (Nat.lt_of_lt_of_le positive le₁)] at styles₁
  rw [Scan.run_beginLine sound₂ (Nat.lt_of_lt_of_le positive le₂)] at styles₂
  have take₁ := List.prefix_iff_eq_take.1 styles₁
  have take₂ := List.prefix_iff_eq_take.1 styles₂
  rw [Nat.zero_add] at length₁
  rw [length₁] at take₁ take₂
  exact take₁.symm.trans take₂

end Source

end FortranMarkup
