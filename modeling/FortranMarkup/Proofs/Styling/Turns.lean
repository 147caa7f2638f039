import FortranMarkup.Proofs.Styling.Consistency

/-!
# Turns of a pass over everything

Each byte of a text is passed in one turn of the pass over it (`Scan.exists_turn`). The style that a
byte has when a cursor has passed it (`Cursor.shade`) is the one that it has in the end, unless it
is part of a word or a literal that is still open (`Scan.Reaches.settles`). So a statement on the
final style of a byte is one on the turn that passes the byte.
-/

namespace FortranMarkup

/-! ## Styles of bytes before a cursor -/

namespace Cursor

variable {src : Source} {start stop pos : Nat} {c d : Cursor src start stop}

/-- The style of a byte before the cursor: the painted one, or that of the open segment. -/
def shade (c : Cursor src start stop) (pos : Nat) : Style :=
  (Span.shades c.paint.painted)[pos - start]?.getD .plain

theorem shade_of_segment_le (sound : c.Sound) (low : c.segment ≤ pos)
    (high : pos < min c.pos src.size) : c.shade pos = c.state := by
  have filled : c.segment < min c.pos src.size := Nat.lt_of_le_of_lt low high
  have joined := (sound_paint sound).joined
  have painted : c.paint.painted = ⟨c.segment, min c.pos src.size, c.state⟩ :: c.painted := by
    rw [painted_paint, if_pos filled]
  rw [painted] at joined
  rw [shade, painted, Span.getElem?_shades joined (List.suffix_refl _) low high, Option.getD_some]

theorem shade_of_lt_segment (sound : c.Sound) (low : start ≤ pos) (high : pos < c.segment) :
    c.shade pos = (Span.shades c.painted)[pos - start]?.getD .plain := by
  have suffix := (Leads.refl c).paint.painted_suffix
  have length := Span.length_shades sound.joined
  rw [← segment_eq_edge] at length
  obtain ⟨later, shades⟩ := Span.shades_prefix suffix
  rw [shade, ← shades, List.getElem?_append_left (by omega)]

theorem shade_setState (sound : c.Sound) (state : Style) : (c.setState state).shade = c.shade := by
  have full : (c.setState state).paint.painted = c.paint.painted := by
    rw [paint_of_segment]
    · rfl
    · exact Nat.le_of_eq (segment_paint sound).symm
  funext pos
  rw [shade, shade, full]

/-- A byte that is painted keeps its style. -/
theorem Leads.shade_eq (leads : Leads c d) (sound : c.Sound) (low : start ≤ pos)
    (high : pos < c.segment) : d.shade pos = c.shade pos := by
  have length := Span.length_shades sound.joined
  rw [← segment_eq_edge] at length
  obtain ⟨later, shades⟩ := Span.shades_prefix leads.paint.painted_suffix
  rw [shade_of_lt_segment sound low high, shade, ← shades, List.getElem?_append_left (by omega)]

theorem shade_forward (sound : c.Sound) (low : start ≤ pos) (high : pos < min c.pos src.size) :
    c.forward.shade pos = c.shade pos := by
  have le := pos_le_forward c
  by_cases painted : pos < c.segment
  · exact (Leads.refl c).forward.shade_eq sound low painted
  · have open_low : c.segment ≤ pos := Nat.le_of_not_lt painted
    rw [shade_of_segment_le sound open_low high,
      shade_of_segment_le (sound_forward sound) (by rwa [segment_forward]) (by omega),
      state_forward]

/-- A byte that is open settles for a style. -/
theorem Leads.settles (leads : Leads c d) (sound : c.Sound) (low : start ≤ pos)
    (high : pos < min c.pos src.size) : (c.shade pos).Settles (d.shade pos) := by
  induction leads with
  | refl => exact .inl rfl
  | forward leads ih =>
    have le := leads.pos_le
    rwa [shade_forward (leads.sound sound) low (by omega)]
  | @paint d leads ih =>
    have same : d.paint.shade = d.shade := shade_setState (leads.sound sound) d.state
    rwa [same]
  | setState state leads ih => rwa [shade_setState (leads.sound sound)]
  | @relabel d state settles leads ih =>
    have le := leads.pos_le
    have sound' := leads.sound sound
    by_cases painted : pos < d.segment
    · have same : (d.relabel state).shade pos = d.shade pos :=
        (shade_of_lt_segment (sound_relabel sound' state) low painted).trans
          (shade_of_lt_segment sound' low painted).symm
      rwa [same]
    · have open_low : d.segment ≤ pos := Nat.le_of_not_lt painted
      have open_high : pos < min d.pos src.size := by omega
      rw [shade_of_segment_le sound' open_low open_high] at ih
      rw [shade_of_segment_le (sound_relabel sound' state) open_low open_high]
      exact ih.trans settles

theorem Leads.tracks (leads : Leads c d) (table : src.Tabled) (room : src.size < stop)
    (tracks : c.Tracks) (inside : d.pos ≤ src.size) : d.Tracks := by
  induction leads with
  | refl => exact tracks
  | @forward d leads ih =>
    have moved := pos_forward d
    split at moved
    · exact (ih (by omega)).forward table (by omega) (by omega)
    · omega
  | paint _ ih => exact (ih inside).paint
  | setState state _ ih => exact (ih inside).paint.relabel state
  | relabel _ _ ih => exact (ih inside).relabel _

/-- The second cursor has come from the first within a segment that begins there. -/
structure Opens (c : Cursor src start stop) (style : Style) (d : Cursor src start stop) : Prop where
  leads : Leads (c.setState style) d
  painted : d.painted = (c.setState style).painted
  state : d.state = style

theorem Opens.here (c : Cursor src start stop) (style : Style) : c.Opens style (c.setState style) :=
  ⟨.refl _, rfl, rfl⟩

theorem Opens.forward {style : Style} (opens : c.Opens style d) : c.Opens style d.forward :=
  ⟨opens.leads.forward, (painted_forward d).trans opens.painted,
    (state_forward d).trans opens.state⟩

theorem Opens.toLineEnd {style : Style} (opens : c.Opens style d) : c.Opens style d.toLineEnd :=
  ⟨opens.leads.toLineEnd, (painted_toLineEnd d).trans opens.painted,
    (state_toLineEnd d).trans opens.state⟩

theorem Opens.leads_start {style : Style} (opens : c.Opens style d) : Leads c d :=
  ((Leads.refl c).setState style).trans opens.leads

theorem Opens.segment {style : Style} (opens : c.Opens style d) (sound : c.Sound) :
    d.segment = min c.pos src.size := by
  rw [segment_eq_edge, opens.painted, ← segment_eq_edge]
  exact segment_paint sound

end Cursor

/-! ## Turns -/

namespace Scan

section Turns

variable {src : Source} {start stop : Nat} {words : Dictionary} {form : SourceForm}

theorem Reaches.trans {s t u : Scan src start stop} (first : Reaches words form s t)
    (second : Reaches words form t u) : Reaches words form s u := by
  induction first with
  | refl => exact second
  | turn more _ ih => exact .turn more (ih second)

/-- Of two scans that a run comes to, one comes to the other. -/
theorem Reaches.total {s t u : Scan src start stop} (first : Reaches words form s t)
    (second : Reaches words form s u) : Reaches words form t u ∨ Reaches words form u t := by
  induction first with
  | refl => exact .inl second
  | turn more rest ih =>
    cases second with
    | refl => exact .inr (.turn more rest)
    | turn _ rest' => exact ih rest'

/-- A run makes no turn at a position that an earlier turn has passed. -/
theorem Reaches.advance_le {s t u : Scan src start stop} (first : Reaches words form s t)
    (second : Reaches words form s u) (less : t.cursor.pos < u.cursor.pos) :
    (t.advance words form).cursor.pos ≤ u.cursor.pos := by
  rcases first.total second with onward | back
  · cases onward with
    | refl => exact absurd less (Nat.lt_irrefl _)
    | turn _ rest => exact rest.leads.pos_le
  · exact absurd back.leads.pos_le (Nat.not_le_of_lt less)

theorem pos_lt_advance {s : Scan src start stop} (more : s.cursor.pos < stop) :
    s.cursor.pos < (s.advance words form).cursor.pos := by
  have le := pos_le_step words form s
  change _ < (s.step words form).cursor.forward.pos
  rcases Nat.lt_or_eq_of_le le with later | same
  · exact Nat.lt_of_lt_of_le later (Cursor.pos_le_forward _)
  · exact same ▸ Cursor.pos_lt_forward (same ▸ more)

theorem le_step_of_lt_advance {s : Scan src start stop} {pos : Nat}
    (high : pos < (s.advance words form).cursor.pos) : pos ≤ (s.step words form).cursor.pos :=
  Nat.le_of_lt_succ (Nat.lt_of_lt_of_le high (Cursor.pos_forward_le _))

/-- A position that is still ahead is passed in one of the turns. -/
theorem exists_turn {s : Scan src start stop} {pos : Nat} (low : s.cursor.pos ≤ pos)
    (high : pos < stop) (words : Dictionary) (form : SourceForm) :
    ∃ t, Reaches words form s t ∧ t.cursor.pos ≤ pos ∧ pos < (t.advance words form).cursor.pos := by
  induction s using turns words form with
  | done s done => omega
  | turn s more ih =>
    by_cases passed : pos < (s.advance words form).cursor.pos
    · exact ⟨s, .refl s, low, passed⟩
    · obtain ⟨t, reaches, within⟩ := ih (Nat.le_of_not_lt passed)
      exact ⟨t, .turn more reaches, within⟩

end Turns

/-- A pass over everything, from its start. -/
def whole (src : Source) : Scan src 0 (src.walkEnd src.size) :=
  fresh src 0 (src.walkEnd src.size) .plain

theorem sound_whole (src : Source) : (whole src).cursor.Sound :=
  Cursor.sound_atStart .plain (Nat.zero_le _)

theorem tracks_whole {src : Source} (table : src.Tabled) : (whole src).cursor.Tracks :=
  Cursor.tracks_atStart table .plain (Nat.zero_le _)

end Scan

/-! ## Final styles -/

namespace Source

variable {src : Source} {words : Dictionary} {form : SourceForm}

theorem size_lt_walkEnd (src : Source) : src.size < src.walkEnd src.size := by
  rw [walkEnd, if_pos rfl]
  exact Nat.lt_succ_self _

theorem freshStyle_eq (words : Dictionary) {s : Scan src 0 (src.walkEnd src.size)}
    (reaches : Scan.Reaches words form (Scan.whole src) s) (pos : Nat) :
    src.freshStyle words form .plain pos =
      (Span.shades (s.run words form).cursor.paint.painted)[pos]?.getD .plain := by
  rw [← reaches.run_eq]
  rfl

end Source

theorem Document.styleAt_styleRange_fresh {doc : Document} (fits : doc.Fits) (words : Dictionary)
    (form : SourceForm) (outside : Style) (pos : Nat) :
    (doc.styleRange words form 0 doc.size outside).styleAt pos =
      doc.source.freshStyle words form .plain pos := by
  rw [styleAt_styleRange_all fits, Source.freshStyle, Source.freshStyle,
    Source.allStyles_outside fits.table words form outside .plain]

namespace Scan

variable {src : Source} {words : Dictionary} {form : SourceForm} {pos : Nat}
  {s : Scan src 0 (src.walkEnd src.size)} {c : Cursor src 0 (src.walkEnd src.size)}

/-- A byte that the pass has painted keeps its style. -/
theorem Reaches.freshStyle_eq (reaches : Reaches words form (whole src) s) (sound : c.Sound)
    (suffix : c.painted <:+ s.cursor.painted) (high : pos < c.segment) :
    src.freshStyle words form .plain pos = c.shade pos := by
  have length := Span.length_shades sound.joined
  rw [← Cursor.segment_eq_edge] at length
  have run := (leads_run words form s).paint.painted_suffix
  obtain ⟨later, shades⟩ := Span.shades_prefix (suffix.trans run)
  rw [Source.freshStyle_eq words reaches, ← shades, List.getElem?_append_left (by omega),
    Cursor.shade_of_lt_segment sound (Nat.zero_le _) high]
  rfl

/-- A byte that the pass has come over settles for its final style. -/
theorem Reaches.settles (reaches : Reaches words form (whole src) s)
    (leads : Cursor.Leads c s.cursor) (sound : c.Sound) (high : pos < min c.pos src.size) :
    (c.shade pos).Settles (src.freshStyle words form .plain pos) := by
  rw [Source.freshStyle_eq words reaches]
  exact (leads.trans (leads_run words form s)).settles sound (Nat.zero_le _) high

/-- A byte in an open segment has the style of the segment in the end, unless the segment is part of
a word or a literal. -/
theorem Reaches.freshStyle_of_open (reaches : Reaches words form (whole src) s)
    (leads : Cursor.Leads c s.cursor) (sound : c.Sound) (firm : c.state.isLoose = false)
    (low : c.segment ≤ pos) (high : pos < min c.pos src.size) :
    src.freshStyle words form .plain pos = c.state := by
  have settles := reaches.settles leads sound high
  rw [Cursor.shade_of_segment_le sound low high] at settles
  exact settles.eq_of_opened firm

theorem Reaches.style_of_opens {d : Cursor src 0 (src.walkEnd src.size)} {style : Style}
    (reaches : Reaches words form (whole src) s) (sound : c.Sound) (opens : c.Opens style d)
    (firm : style.isLoose = false) (leads : Cursor.Leads d s.cursor) (low : c.pos ≤ pos)
    (high : pos < min d.pos src.size) : src.freshStyle words form .plain pos = style := by
  have segment := opens.segment sound
  have state := opens.state
  rw [← state] at firm ⊢
  exact reaches.freshStyle_of_open leads (opens.leads_start.sound sound) firm (by omega) high

/-- A byte that is part of no word and no literal in the end has been in a segment of its style. -/
theorem Reaches.state_of_firm (reaches : Reaches words form (whole src) s)
    (leads : Cursor.Leads c s.cursor) (sound : c.Sound) (low : c.segment ≤ pos)
    (high : pos < min c.pos src.size) {style : Style} (firm : style.isLoose = false)
    (shown : src.freshStyle words form .plain pos = style) : c.state = style := by
  have settles := reaches.settles leads sound high
  rw [Cursor.shade_of_segment_le sound low high, shown] at settles
  exact settles.eq_of_painted firm

end Scan

end FortranMarkup
