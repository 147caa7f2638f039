import FortranMarkup.Proofs.Styling.Crossing

/-!
# Where runs agree

Two runs that begin alike stay alike up to the limit that they share. They meet there at a line
start, or both cross it from a mark (`Scan.Alike.reach`). Either way they have painted the same
(`Scan.Alike.commonTo_run`); and where nothing limits what they share, they end alike
(`Scan.Alike.run`).
-/

namespace FortranMarkup

/-! ## Painted bytes -/

namespace Span

theorem getElem?_shades {start : Nat} {span : Span} {before painted : List Span}
    (joined : Joined start painted) (suffix : span :: before <:+ painted) {pos : Nat}
    (low : span.start ≤ pos) (high : pos < span.stop) :
    (shades painted)[pos - start]? = some span.style := by
  obtain ⟨later, rfl⟩ := suffix
  obtain ⟨meets, -, rest⟩ := joined_of_append joined
  have length := length_shades rest
  rw [shades_append, shades_cons, List.getElem?_append_left, List.getElem?_append_right]
  · rw [List.getElem?_replicate_of_lt]
    omega
  · omega
  · simp only [List.length_append, List.length_replicate]
    omega

end Span

namespace Cursor

variable {src : Source} {start stop : Nat}

theorem paint_of_segment {c : Cursor src start stop} (full : min c.pos src.size ≤ c.segment) :
    c.paint = c := by
  unfold paint
  rw [if_neg (Nat.not_lt_of_le full)]

theorem Leads.pos_le_stop {c d : Cursor src start stop} (leads : Leads c d) (le : c.pos ≤ stop) :
    d.pos ≤ stop := by
  induction leads with
  | refl => exact le
  | forward _ ih =>
    rw [pos_forward]
    split
    · assumption
    · exact ih
  | paint _ ih | setState _ _ ih | relabel _ _ ih => exact ih

/-- Two cursors have painted the same up to a limit, but for what they had painted before. -/
def CommonTo (limit : Nat) (old₁ old₂ : List Span) {src₁ src₂ : Source}
    {start₁ stop₁ start₂ stop₂ : Nat} (c₁ : Cursor src₁ start₁ stop₁)
    (c₂ : Cursor src₂ start₂ stop₂) : Prop :=
  ∃ common : List Style,
    start₁ + (Span.shades old₁ ++ common).length = limit ∧
    start₂ + (Span.shades old₂ ++ common).length = limit ∧
    Span.shades old₁ ++ common <+: c₁.styles ∧ Span.shades old₂ ++ common <+: c₂.styles

end Cursor

namespace Scan

/-! ## Turns of the loop -/

section Turns

variable {src : Source} {start stop : Nat} {words : Dictionary} {form : SourceForm}

/-- One turn of the loop: the step at the cursor, and the move to the next byte. -/
def advance (words : Dictionary) (form : SourceForm) (s : Scan src start stop) :
    Scan src start stop :=
  (s.step words form).withCursor (s.step words form).cursor.forward

theorem run_of_lt {s : Scan src start stop} (more : s.cursor.pos < stop) :
    s.run words form = (s.advance words form).run words form := by
  conv => lhs; unfold run
  rw [if_pos more]
  rfl

theorem run_of_le {s : Scan src start stop} (done : stop ≤ s.cursor.pos) :
    s.run words form = s := by
  unfold run
  rw [if_neg (Nat.not_lt_of_le done)]

/-- Induction over the turns that a scan still makes. -/
theorem turns {motive : Scan src start stop → Prop} (words : Dictionary) (form : SourceForm)
    (turn : ∀ s, s.cursor.pos < stop → motive (s.advance words form) → motive s)
    (done : ∀ s, stop ≤ s.cursor.pos → motive s) (s : Scan src start stop) : motive s :=
  run.induct words form motive turn (fun s stays => done s (Nat.le_of_not_lt stays)) s

theorem leads_advance (words : Dictionary) (form : SourceForm) (s : Scan src start stop) :
    Cursor.Leads s.cursor (s.advance words form).cursor :=
  (leads_step words form s).forward

/-- The second scan is the first after some turns. -/
inductive Reaches (words : Dictionary) (form : SourceForm) :
    Scan src start stop → Scan src start stop → Prop
  | refl (s : Scan src start stop) : Reaches words form s s
  | turn {s t : Scan src start stop} (more : s.cursor.pos < stop)
      (rest : Reaches words form (s.advance words form) t) : Reaches words form s t

theorem Reaches.run_eq {s t : Scan src start stop} (reaches : Reaches words form s t) :
    s.run words form = t.run words form := by
  induction reaches with
  | refl => rfl
  | turn more _ ih => rw [run_of_lt more, ih]

theorem Reaches.leads {s t : Scan src start stop} (reaches : Reaches words form s t) :
    Cursor.Leads s.cursor t.cursor := by
  induction reaches with
  | refl => exact .refl _
  | turn _ _ ih => exact (leads_advance _ _ _).trans ih

theorem beginLine_beginLine {s : Scan src start stop} (sound : s.cursor.Sound) :
    s.beginLine.beginLine = s.beginLine := by
  have settled : s.cursor.paint.segment = min s.cursor.pos src.size := Cursor.segment_paint sound
  by_cases starts : s.cursor.atLineStart = true
  · have begun : s.beginLine = { s with cursor := s.cursor.setState .plain, nonBlank := 0 } := by
      rw [beginLine, if_pos starts]
    have painted : (s.cursor.setState .plain).paint = s.cursor.setState .plain :=
      Cursor.paint_of_segment (Nat.le_of_eq settled.symm)
    rw [begun, beginLine, if_pos (show (s.cursor.setState .plain).atLineStart = true from starts)]
    change Scan.mk ((s.cursor.setState .plain).paint.relabel .plain) 0 s.carried = _
    rw [painted]
    rfl
  · have begun : s.beginLine = s := by rw [beginLine, if_neg starts]
    rw [begun, begun]

theorem run_beginLine {s : Scan src start stop} (sound : s.cursor.Sound)
    (more : s.cursor.pos < stop) : s.beginLine.run words form = s.run words form := by
  have same : s.beginLine.step words form = s.step words form := by
    unfold step
    rw [beginLine_beginLine sound]
  rw [run_of_lt more, run_of_lt (by rwa [pos_beginLine]), advance, advance, same]

theorem painted_run_of_atLineStart (words : Dictionary) (form : SourceForm)
    {s : Scan src start stop} (starts : s.cursor.atLineStart = true) :
    s.cursor.paint.painted <:+ (s.run words form).cursor.paint.painted := by
  by_cases more : s.cursor.pos < stop
  · have begun : s.beginLine.countByte.cursor.painted = s.cursor.paint.painted := by
      rw [cursor_countByte, beginLine, if_pos starts]
      rfl
    rw [← begun, run_of_lt more]
    have step : Cursor.Leads s.beginLine.countByte.cursor (s.step words form).cursor :=
      leads_step_of_begun words form s
    have rest := (leads_run words form (s.advance words form)).paint
    exact (step.forward.trans rest).painted_suffix
  · refine ⟨[], ?_⟩
    rw [run_of_le (Nat.le_of_not_lt more), List.nil_append]

end Turns

/-! ## Meeting at the limit -/

variable {form : SourceForm} {limit? : Option Nat} {limit : Nat} {old₁ old₂ : List Span}
  {src₁ src₂ : Source} {start₁ stop₁ start₂ stop₂ : Nat} {words : Dictionary}

/-- Two scans at the limit that have come there alike. -/
structure Meets (limit : Nat) (old₁ old₂ : List Span) (t₁ : Scan src₁ start₁ stop₁)
    (t₂ : Scan src₂ start₂ stop₂) : Prop where
  pos₁ : t₁.cursor.pos = limit
  pos₂ : t₂.cursor.pos = limit
  tracks₁ : t₁.cursor.Tracks
  tracks₂ : t₂.cursor.Tracks
  state : t₁.cursor.state = t₂.cursor.state
  segment : t₁.cursor.segment = t₂.cursor.segment
  painted : ∃ new, t₁.cursor.painted = new ++ old₁ ∧ t₂.cursor.painted = new ++ old₂

/-- Two scans alike that cross the limit in their next step. -/
structure Leaps (words : Dictionary) (form : SourceForm) (limit : Nat) (old₁ old₂ : List Span)
    (t₁ : Scan src₁ start₁ stop₁) (t₂ : Scan src₂ start₂ stop₂) : Prop where
  free : form = .free
  alike : Alike form (some limit) old₁ old₂ t₁ t₂
  crosses₁ : Crosses limit t₁.beginLine.countByte (t₁.step words form)
  crosses₂ : Crosses limit t₂.beginLine.countByte (t₂.step words form)

theorem meets_advance (shared : Shared (some limit) src₁ stop₁ src₂ stop₂)
    {s₁ : Scan src₁ start₁ stop₁} {s₂ : Scan src₂ start₂ stop₂}
    (stepped : Alike form (some limit) old₁ old₂ (s₁.step words form) (s₂.step words form))
    (last : (s₁.step words form).cursor.pos + 1 = limit) :
    Meets limit old₁ old₂ (s₁.advance words form) (s₂.advance words form) := by
  obtain ⟨less, tracks₁, tracks₂⟩ := stepped.cursor.below limit rfl
  have pos := stepped.cursor.pos
  cases shared with
  | below table₁ table₂ agree le₁ le₂ =>
    have size₁ := Source.le_size_of_startsLine agree.starts₁
    have size₂ := Source.le_size_of_startsLine agree.starts₂
    refine ⟨?_, ?_, tracks₁.forward table₁ (by omega) (by omega),
      tracks₂.forward table₂ (by omega) (by omega), ?_, ?_, ?_⟩
    · change (s₁.step words form).cursor.forward.pos = limit
      rw [Cursor.pos_forward, if_pos (by omega), last]
    · change (s₂.step words form).cursor.forward.pos = limit
      rw [Cursor.pos_forward, if_pos (by omega), ← pos, last]
    · change (s₁.step words form).cursor.forward.state = (s₂.step words form).cursor.forward.state
      rw [Cursor.state_forward, Cursor.state_forward, stepped.cursor.state]
    · change (s₁.step words form).cursor.forward.segment =
        (s₂.step words form).cursor.forward.segment
      rw [Cursor.segment_forward, Cursor.segment_forward, stepped.cursor.segment]
    · change ∃ new, (s₁.step words form).cursor.forward.painted = new ++ old₁ ∧
        (s₂.step words form).cursor.forward.painted = new ++ old₂
      rw [Cursor.painted_forward, Cursor.painted_forward]
      exact stepped.cursor.painted

/-- Two runs that begin alike meet at the limit or cross it from one place. -/
theorem Alike.reach (shared : Shared (some limit) src₁ stop₁ src₂ stop₂)
    {s₁ : Scan src₁ start₁ stop₁} {s₂ : Scan src₂ start₂ stop₂}
    (alike : Alike form (some limit) old₁ old₂ s₁ s₂) (sound₁ : s₁.cursor.Sound)
    (sound₂ : s₂.cursor.Sound) (words : Dictionary) :
    ∃ t₁ t₂, Reaches words form s₁ t₁ ∧ Reaches words form s₂ t₂ ∧
      (Meets limit old₁ old₂ t₁ t₂ ∨ Leaps words form limit old₁ old₂ t₁ t₂) := by
  induction s₁ using turns words form generalizing s₂ with
  | turn s₁ more ih =>
    have more₂ : s₂.cursor.pos < stop₂ := (alike.cursor.more shared).1 more
    rcases alike.step shared sound₁ sound₂ words with
      stepped | ⟨free, _, ⟨⟩, crosses₁, crosses₂⟩
    · have sound₁ := (leads_advance words form s₁).sound sound₁
      have sound₂ := (leads_advance words form s₂).sound sound₂
      obtain ⟨less, tracks₁, tracks₂⟩ := stepped.cursor.below limit rfl
      by_cases next : (s₁.step words form).cursor.pos + 1 < limit
      · have moved : Alike form (some limit) old₁ old₂ (s₁.advance words form)
            (s₂.advance words form) :=
          stepped.withCursor (stepped.cursor.forward shared (by rintro _ ⟨⟩; exact next))
        obtain ⟨t₁, t₂, reaches₁, reaches₂, outcome⟩ := ih moved sound₁ sound₂
        exact ⟨t₁, t₂, .turn more reaches₁, .turn more₂ reaches₂, outcome⟩
      · exact ⟨s₁.advance words form, s₂.advance words form, .turn more (.refl _),
          .turn more₂ (.refl _), .inl (meets_advance shared stepped (by omega))⟩
    · exact ⟨s₁, s₂, .refl _, .refl _, .inr ⟨free, alike, crosses₁, crosses₂⟩⟩
  | done s₁ done =>
    cases shared with
    | below table₁ table₂ agree le₁ le₂ =>
      have less := (alike.cursor.below limit rfl).1
      omega

/-! ## What is painted up to the limit -/

theorem Meets.commonTo (shared : Shared (some limit) src₁ stop₁ src₂ stop₂)
    {t₁ : Scan src₁ start₁ stop₁} {t₂ : Scan src₂ start₂ stop₂}
    (meets : Meets limit old₁ old₂ t₁ t₂) (sound₁ : t₁.cursor.Sound) (sound₂ : t₂.cursor.Sound) :
    Cursor.CommonTo limit old₁ old₂ (t₁.run words form).cursor.paint
      (t₂.run words form).cursor.paint := by
  cases shared with
  | below table₁ table₂ agree le₁ le₂ =>
    have size₁ := Source.le_size_of_startsLine agree.starts₁
    have size₂ := Source.le_size_of_startsLine agree.starts₂
    have settled₁ := painted_run_of_atLineStart words form
      (meets.tracks₁.atLineStart.2 (meets.pos₁.symm ▸ agree.starts₁))
    have settled₂ := painted_run_of_atLineStart words form
      (meets.tracks₂.atLineStart.2 (meets.pos₂.symm ▸ agree.starts₂))
    obtain ⟨new, painted₁, painted₂⟩ : ∃ new, t₁.cursor.paint.painted = new ++ old₁ ∧
        t₂.cursor.paint.painted = new ++ old₂ := by
      obtain ⟨new, painted₁, painted₂⟩ := meets.painted
      rw [Cursor.painted_paint, Cursor.painted_paint, meets.pos₁, meets.pos₂,
        Nat.min_eq_left size₁, Nat.min_eq_left size₂, meets.segment, meets.state, painted₁,
        painted₂]
      split
      · exact ⟨_ :: new, rfl, rfl⟩
      · exact ⟨new, rfl, rfl⟩
    have edge₁ := Cursor.segment_paint sound₁
    have edge₂ := Cursor.segment_paint sound₂
    have length₁ := Span.length_shades (Cursor.sound_paint sound₁).joined
    have length₂ := Span.length_shades (Cursor.sound_paint sound₂).joined
    rw [← Cursor.segment_eq_edge, edge₁, meets.pos₁, Nat.min_eq_left size₁, painted₁,
      Span.shades_append] at length₁
    rw [← Cursor.segment_eq_edge, edge₂, meets.pos₂, Nat.min_eq_left size₂, painted₂,
      Span.shades_append] at length₂
    refine ⟨Span.shades new, length₁, length₂, ?_, ?_⟩
    · rw [← Span.shades_append, ← painted₁]
      exact Span.shades_prefix settled₁
    · rw [← Span.shades_append, ← painted₂]
      exact Span.shades_prefix settled₂

/-- What is painted before a mark, the mark and the space after it have their styles to the end. -/
theorem Crosses.shades {src : Source} {start stop : Nat} {s t : Scan src start stop}
    (crosses : Crosses limit s t) (words : Dictionary) (form : SourceForm)
    (leaves : s.cursor.pos < limit) :
    Span.shades s.cursor.paint.painted ++
        (.continuation :: List.replicate (limit - (s.cursor.pos + 1)) .plain) <+:
      (t.run words form).cursor.paint.styles := by
  obtain ⟨edge, past, suffix⟩ := crosses.painted
  have run := ((leads_run words form t).paint).painted_suffix
  refine List.IsPrefix.trans ?_ (Span.shades_prefix (suffix.trans run))
  have one : s.cursor.pos + 1 - s.cursor.pos = 1 := by omega
  obtain ⟨more, rfl⟩ : ∃ more, edge = limit + more := ⟨edge - limit, by omega⟩
  have room : limit + more - (s.cursor.pos + 1) = limit - (s.cursor.pos + 1) + more := by omega
  rw [Span.shades_cons, Span.shades_cons, one, room, ← List.replicate_append_replicate]
  exact ⟨List.replicate more .plain, by simp⟩

theorem Leaps.commonTo (shared : Shared (some limit) src₁ stop₁ src₂ stop₂)
    {t₁ : Scan src₁ start₁ stop₁} {t₂ : Scan src₂ start₂ stop₂}
    (leaps : Leaps words form limit old₁ old₂ t₁ t₂) (sound₁ : t₁.cursor.Sound)
    (sound₂ : t₂.cursor.Sound) :
    Cursor.CommonTo limit old₁ old₂ (t₁.run words form).cursor.paint
      (t₂.run words form).cursor.paint := by
  have begun := (leaps.alike.beginLine shared).countByte
  obtain ⟨new, painted₁, painted₂⟩ := (begun.cursor.paint shared).painted
  have pos := begun.cursor.pos
  have less := (begun.cursor.below limit rfl).1
  have begun₁ : t₁.beginLine.countByte.cursor.Sound := by
    rw [cursor_countByte]
    exact sound_beginLine sound₁
  have begun₂ : t₂.beginLine.countByte.cursor.Sound := by
    rw [cursor_countByte]
    exact sound_beginLine sound₂
  have edge₁ := Cursor.segment_paint begun₁
  have edge₂ := Cursor.segment_paint begun₂
  have length₁ := Span.length_shades (Cursor.sound_paint begun₁).joined
  have length₂ := Span.length_shades (Cursor.sound_paint begun₂).joined
  have crosses₁ : Crosses limit t₁.beginLine.countByte (t₁.advance words form) :=
    leaps.crosses₁.trans (Cursor.Leads.refl _).forward
  have crosses₂ : Crosses limit t₂.beginLine.countByte (t₂.advance words form) :=
    leaps.crosses₂.trans (Cursor.Leads.refl _).forward
  have styles₁ := crosses₁.shades words form less
  have styles₂ := crosses₂.shades words form (pos ▸ less)
  cases shared with
  | below table₁ table₂ agree le₁ le₂ =>
    have size₁ := Source.le_size_of_startsLine agree.starts₁
    have size₂ := Source.le_size_of_startsLine agree.starts₂
    have more₁ : t₁.cursor.pos < stop₁ := by
      rw [pos_countByte, pos_beginLine] at less
      omega
    have more₂ : t₂.cursor.pos < stop₂ := by
      rw [pos_countByte, pos_beginLine] at less
      simp only [pos_countByte, pos_beginLine] at pos
      omega
    rw [← Cursor.segment_eq_edge, edge₁, Nat.min_eq_left (by omega), painted₁,
      Span.shades_append, List.length_append] at length₁
    rw [← Cursor.segment_eq_edge, edge₂, Nat.min_eq_left (by omega), painted₂,
      Span.shades_append, List.length_append] at length₂
    rw [painted₁, Span.shades_append, List.append_assoc, ← run_of_lt more₁] at styles₁
    rw [painted₂, Span.shades_append, List.append_assoc, ← pos, ← run_of_lt more₂] at styles₂
    refine ⟨_, ?_, ?_, styles₁, styles₂⟩
    all_goals
      simp only [List.length_append, List.length_cons, List.length_replicate]
      omega

theorem Alike.commonTo_run (shared : Shared (some limit) src₁ stop₁ src₂ stop₂)
    {s₁ : Scan src₁ start₁ stop₁} {s₂ : Scan src₂ start₂ stop₂}
    (alike : Alike form (some limit) old₁ old₂ s₁ s₂) (sound₁ : s₁.cursor.Sound)
    (sound₂ : s₂.cursor.Sound) (words : Dictionary) :
    Cursor.CommonTo limit old₁ old₂ (s₁.run words form).cursor.paint
      (s₂.run words form).cursor.paint := by
  obtain ⟨t₁, t₂, reaches₁, reaches₂, outcome⟩ := alike.reach shared sound₁ sound₂ words
  have sound₁ := reaches₁.leads.sound sound₁
  have sound₂ := reaches₂.leads.sound sound₂
  rw [reaches₁.run_eq, reaches₂.run_eq]
  rcases outcome with meets | leaps
  · exact meets.commonTo shared sound₁ sound₂
  · exact leaps.commonTo shared sound₁ sound₂

theorem Alike.run (shared : Shared none src₁ stop₁ src₂ stop₂)
    {s₁ : Scan src₁ start₁ stop₁} {s₂ : Scan src₂ start₂ stop₂}
    (alike : Alike form none old₁ old₂ s₁ s₂) (sound₁ : s₁.cursor.Sound)
    (sound₂ : s₂.cursor.Sound) (words : Dictionary) :
    Alike form none old₁ old₂ (s₁.run words form) (s₂.run words form) := by
  induction s₁ using turns words form generalizing s₂ with
  | turn s₁ more ih =>
    have more₂ : s₂.cursor.pos < stop₂ := (alike.cursor.more shared).1 more
    rw [run_of_lt more, run_of_lt more₂]
    rcases alike.step shared sound₁ sound₂ words with stepped | ⟨_, _, ⟨⟩, _, _⟩
    have moved : Alike form none old₁ old₂ (s₁.advance words form) (s₂.advance words form) :=
      stepped.withCursor (stepped.cursor.forward shared (by rintro _ ⟨⟩))
    exact ih moved ((leads_advance _ _ s₁).sound sound₁) ((leads_advance _ _ s₂).sound sound₂)
  | done s₁ done =>
    have done₂ := mt (alike.cursor.more shared).2 (Nat.not_lt_of_le done)
    rwa [run_of_le done, run_of_le (Nat.le_of_not_lt done₂)]

end Scan

end FortranMarkup
