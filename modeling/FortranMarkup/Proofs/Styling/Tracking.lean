import FortranMarkup.Proofs.Source.Lines
import FortranMarkup.Styling.Pass

/-!
# What a walking cursor knows

A cursor changes by moving forward, by painting and by relabeling (`Cursor.Leads`). Whatever it does,
the spans that it has painted join without gaps (`Sound`), so the styles of the bytes before its
segment are settled; and as long as it is in the text, its characters, its line and its flags are
those of its position (`Tracks`).
-/

namespace FortranMarkup

/-! ## Styles that open segments have -/

namespace Style

/-- Whether a segment of a style is part of a word or a literal. These are the segments of which the
style is settled only where they end. -/
def isLoose : Style → Bool
  | apostropheLiteral | quoteLiteral | openLiteral | identifier | keyword | intrinsic | extended =>
    true
  | _ => false

/-- What is open in one style can be painted in another. -/
def Settles (opened style : Style) : Prop :=
  style = opened ∨ (opened.isLoose = true ∧ style.isLoose = true)

theorem Settles.trans {a b c : Style} (first : a.Settles b) (second : b.Settles c) : a.Settles c := by
  rcases first with rfl | ⟨loose, loose'⟩
  · exact second
  · rcases second with rfl | ⟨-, loose''⟩
    · exact .inr ⟨loose, loose'⟩
    · exact .inr ⟨loose, loose''⟩

theorem Settles.eq_of_opened {opened style : Style} (settles : opened.Settles style)
    (firm : opened.isLoose = false) : style = opened := by
  rcases settles with same | ⟨loose, -⟩
  · exact same
  · rw [firm] at loose
    cases loose

theorem Settles.eq_of_painted {opened style : Style} (settles : opened.Settles style)
    (firm : style.isLoose = false) : opened = style := by
  rcases settles with same | ⟨-, loose⟩
  · exact same.symm
  · rw [firm] at loose
    cases loose

end Style

/-! ## Painted spans -/

namespace Span

/-- Where the next span starts after some painted ones, the latest of which comes first. -/
def edge (start : Nat) : List Span → Nat
  | [] => start
  | last :: _ => last.stop

/-- Painted spans that join without gaps from a start on. -/
def Joined (start : Nat) : List Span → Prop
  | [] => True
  | last :: before => last.start = edge start before ∧ last.start < last.stop ∧ Joined start before

theorem expand_append (a b : List Span) : expand (a ++ b) = expand a ++ expand b := by
  induction a with
  | nil => rfl
  | cons span rest ih => simp [expand, ih]

/-- The styles that painted spans give to the bytes from the start on. -/
def shades (painted : List Span) : List Style :=
  expand painted.reverse

@[simp] theorem shades_nil : shades [] = [] := rfl

@[simp] theorem shades_cons (last : Span) (before : List Span) :
    shades (last :: before) =
      shades before ++ List.replicate (last.stop - last.start) last.style := by
  simp [shades, expand_append, expand]

theorem shades_append (later before : List Span) :
    shades (later ++ before) = shades before ++ shades later := by
  simp [shades, expand_append]

theorem length_shades {start : Nat} {painted : List Span} (joined : Joined start painted) :
    start + (shades painted).length = edge start painted := by
  induction painted with
  | nil => simp [edge]
  | cons last before ih =>
    obtain ⟨meets, filled, rest⟩ := joined
    have := ih rest
    simp only [shades_cons, List.length_append, List.length_replicate, edge]
    omega

theorem joined_of_append {start : Nat} {later before : List Span}
    (joined : Joined start (later ++ before)) : Joined start before := by
  induction later with
  | nil => exact joined
  | cons last rest ih => exact ih joined.2.2

theorem shades_prefix {before painted : List Span} (suffix : before <:+ painted) :
    shades before <+: shades painted := by
  obtain ⟨later, rfl⟩ := suffix
  rw [shades_append]
  exact List.prefix_append _ _

end Span

namespace Cursor

variable {src : Source} {start stop : Nat}

theorem segment_eq_edge (c : Cursor src start stop) : c.segment = Span.edge start c.painted := by
  unfold segment Span.edge
  cases c.painted <;> rfl

theorem styles_eq_shades (c : Cursor src start stop) : c.styles = Span.shades c.painted := rfl

/-- What is painted joins without gaps, and the open segment starts in the text and not past the
cursor. -/
structure Sound (c : Cursor src start stop) : Prop where
  joined : Span.Joined start c.painted
  segment_le_pos : c.segment ≤ c.pos
  segment_le_size : c.segment ≤ src.size

theorem sound_atStart (state : Style) (inside : start ≤ src.size) :
    (atStart src start stop state).Sound :=
  ⟨trivial, Nat.le_refl _, inside⟩

theorem painted_paint (c : Cursor src start stop) :
    c.paint.painted =
      if c.segment < min c.pos src.size then ⟨c.segment, min c.pos src.size, c.state⟩ :: c.painted
      else c.painted := rfl

theorem segment_paint {c : Cursor src start stop} (sound : c.Sound) :
    c.paint.segment = min c.pos src.size := by
  have le := sound.segment_le_pos
  have le_size := sound.segment_le_size
  by_cases filled : c.segment < min c.pos src.size
  · rw [segment_eq_edge, painted_paint, if_pos filled, Span.edge]
  · rw [segment_eq_edge, painted_paint, if_neg filled, ← segment_eq_edge]
    omega

theorem sound_paint {c : Cursor src start stop} (sound : c.Sound) : c.paint.Sound := by
  have edge := segment_paint sound
  refine ⟨?_, ?_, ?_⟩
  · rw [painted_paint]
    split
    · exact ⟨c.segment_eq_edge, by assumption, sound.joined⟩
    · exact sound.joined
  · rw [edge, pos_paint]
    omega
  · rw [edge]
    omega

theorem sound_relabel {c : Cursor src start stop} (sound : c.Sound) (state : Style) :
    (c.relabel state).Sound :=
  ⟨sound.joined, sound.segment_le_pos, sound.segment_le_size⟩

theorem painted_forward (c : Cursor src start stop) : c.forward.painted = c.painted := by
  unfold forward
  split <;> rfl

theorem state_forward (c : Cursor src start stop) : c.forward.state = c.state := by
  unfold forward
  split <;> rfl

theorem segment_forward (c : Cursor src start stop) : c.forward.segment = c.segment := by
  rw [segment_eq_edge, segment_eq_edge, painted_forward]

theorem pos_forward_of_lt {c : Cursor src start stop} (more : c.pos < stop) :
    c.forward.pos = c.pos + 1 := by
  rw [pos_forward, if_pos more]

theorem pos_forward_le (c : Cursor src start stop) : c.forward.pos ≤ c.pos + 1 := by
  rw [pos_forward]
  split
  · exact Nat.le_refl _
  · exact Nat.le_succ _

theorem ch_forward {c : Cursor src start stop} (more : c.pos < stop) : c.forward.ch = c.next := by
  rw [forward, if_pos more]

theorem painted_toLineEnd (c : Cursor src start stop) : c.toLineEnd.painted = c.painted := by
  fun_induction toLineEnd c with
  | case1 c _ ih => rw [ih, painted_forward]
  | case2 => rfl

theorem state_toLineEnd (c : Cursor src start stop) : c.toLineEnd.state = c.state := by
  fun_induction toLineEnd c with
  | case1 c _ ih => rw [ih, state_forward]
  | case2 => rfl

/-- Moving on past the end of the text adds nothing to what painting paints. -/
theorem painted_paint_forward {c : Cursor src start stop} (past : src.size ≤ c.pos) :
    c.forward.paint.painted = c.paint.painted := by
  have edge : min c.forward.pos src.size = min c.pos src.size := by
    rw [pos_forward]
    split
    · omega
    · rfl
  rw [painted_paint, painted_paint, segment_forward, state_forward, painted_forward, edge]

theorem sound_forward {c : Cursor src start stop} (sound : c.Sound) : c.forward.Sound := by
  refine ⟨?_, ?_, ?_⟩
  · rw [painted_forward]
    exact sound.joined
  · rw [segment_forward]
    exact Nat.le_trans sound.segment_le_pos (pos_le_forward c)
  · rw [segment_forward]
    exact sound.segment_le_size

/-! ## Leading from one cursor to another -/

/-- The second cursor comes from the first by moving forward, painting and relabeling. Only words and
literals are relabeled, as words and literals. -/
inductive Leads : Cursor src start stop → Cursor src start stop → Prop
  | refl (c : Cursor src start stop) : Leads c c
  | forward {c d : Cursor src start stop} : Leads c d → Leads c d.forward
  | paint {c d : Cursor src start stop} : Leads c d → Leads c d.paint
  | setState {c d : Cursor src start stop} (state : Style) : Leads c d → Leads c (d.setState state)
  | relabel {c d : Cursor src start stop} {state : Style}
      (settles : d.state.Settles state) : Leads c d → Leads c (d.relabel state)

namespace Leads

variable {c d e : Cursor src start stop}

theorem trans (first : Leads c d) (second : Leads d e) : Leads c e := by
  induction second with
  | refl => exact first
  | forward _ ih => exact ih.forward
  | paint _ ih => exact ih.paint
  | setState state _ ih => exact ih.setState state
  | relabel settles _ ih => exact ih.relabel settles

theorem forwardSetState (leads : Leads c d) (state : Style) : Leads c (d.forwardSetState state) :=
  leads.forward.setState state

theorem toLineEnd (leads : Leads c d) : Leads c d.toLineEnd := by
  fun_induction Cursor.toLineEnd d with
  | case1 d _ ih => exact ih leads.forward
  | case2 => exact leads

theorem sound (leads : Leads c d) (sound : c.Sound) : d.Sound := by
  induction leads with
  | refl => exact sound
  | forward _ ih => exact sound_forward ih
  | paint _ ih => exact sound_paint ih
  | setState state _ ih => exact sound_relabel (sound_paint ih) state
  | relabel _ _ ih => exact sound_relabel ih _

theorem painted_suffix (leads : Leads c d) : c.painted <:+ d.painted := by
  have paint {d : Cursor src start stop} (ih : c.painted <:+ d.painted) :
      c.painted <:+ d.paint.painted := by
    rw [painted_paint]
    split
    · exact ih.trans (List.suffix_cons _ _)
    · exact ih
  induction leads with
  | refl => exact List.suffix_refl _
  | forward _ ih => rwa [painted_forward]
  | paint _ ih | setState _ _ ih => exact paint ih
  | relabel _ _ ih => exact ih

theorem pos_le (leads : Leads c d) : c.pos ≤ d.pos := by
  induction leads with
  | refl => exact Nat.le_refl _
  | forward _ ih => exact Nat.le_trans ih (pos_le_forward _)
  | paint _ ih | setState _ _ ih | relabel _ _ ih => exact ih

end Leads

/-! ## Tracking -/

/-- The cursor knows the characters, the line and the flags of its position. -/
structure Tracks (c : Cursor src start stop) : Prop where
  inside : c.pos ≤ src.size
  line : c.line = src.lineAt c.pos
  atLineStart : c.atLineStart = true ↔ src.StartsLine c.pos
  atLineEnd : c.atLineEnd = src.endsLine c.line c.pos
  ch : c.ch = src.charD c.pos '\x00'
  next : c.next = src.charD (c.pos + 1) '\x00'

theorem tracks_atStart (table : src.Tabled) (state : Style) (inside : start ≤ src.size) :
    (atStart src start stop state).Tracks where
  inside := inside
  line := rfl
  atLineStart := by
    simp only [atStart, decide_eq_true_eq]
    exact (Source.startsLine_iff table).symm
  atLineEnd := rfl
  ch := rfl
  next := rfl

theorem Tracks.paint {c : Cursor src start stop} (tracks : c.Tracks) : c.paint.Tracks :=
  ⟨tracks.inside, tracks.line, tracks.atLineStart, tracks.atLineEnd, tracks.ch, tracks.next⟩

theorem Tracks.relabel {c : Cursor src start stop} (tracks : c.Tracks) (state : Style) :
    (c.relabel state).Tracks :=
  ⟨tracks.inside, tracks.line, tracks.atLineStart, tracks.atLineEnd, tracks.ch, tracks.next⟩

end Cursor

theorem Source.endsLine_lineAt {src : Source} (table : src.Tabled) {pos : Nat}
    (inside : pos < src.size) :
    src.endsLine (src.lineAt pos) pos = endsLineAt src.bytes pos := by
  have ends_iff : endsLineAt src.bytes pos = true ↔ src.StartsLine (pos + 1) :=
    startsLine_succ.symm
  rw [Bool.eq_iff_iff, ends_iff]
  unfold endsLine
  by_cases more : src.lineAt pos + 1 < src.lines
  · rw [if_pos more, decide_eq_true_eq]
    constructor
    · intro le
      have low := lt_lineEnd_lineAt table more
      have same : src.lineEnd (src.lineAt pos) = pos + 1 := by omega
      exact same ▸ startsLine_lineStart table more
    · exact fun starts => lineEnd_le_of_startsLine table (Nat.lt_succ_self pos) starts
  · rw [if_neg more, decide_eq_true_eq]
    constructor
    · intro le
      unfold lineEnd at le
      rw [lineStart_of_le (Nat.le_of_not_lt more)] at le
      omega
    · exact fun starts => absurd (more_lines_of_startsLine table (Nat.lt_succ_self pos) starts) more

namespace Cursor

variable {src : Source} {start stop : Nat}

theorem Tracks.atLineEnd_eq {c : Cursor src start stop} (tracks : c.Tracks) (table : src.Tabled)
    (inside : c.pos < src.size) : c.atLineEnd = endsLineAt src.bytes c.pos := by
  rw [tracks.atLineEnd, tracks.line, Source.endsLine_lineAt table inside]

theorem Tracks.forward {c : Cursor src start stop} (tracks : c.Tracks) (table : src.Tabled)
    (inside : c.pos < src.size) (more : c.pos < stop) : c.forward.Tracks := by
  have ends := tracks.atLineEnd_eq table inside
  have line : (if c.atLineEnd = true then c.line + 1 else c.line) = src.lineAt (c.pos + 1) := by
    rw [Source.lineAt_succ table, ends, tracks.line]
  unfold Cursor.forward
  rw [if_pos more]
  refine ⟨inside, line, ?_, ?_, tracks.next, rfl⟩
  · rw [Source.startsLine_succ, ends]
  · rfl

end Cursor

theorem Dictionary.isLoose_classify (words : Dictionary) (word : String) :
    ((words.classify word).getD .identifier).isLoose = true := by
  unfold Dictionary.classify
  repeat' split
  all_goals decide

/-! ## A step leads on from its cursor -/

namespace Scan

variable {src : Source} {start stop : Nat}

open Cursor (Leads)

theorem leads_beginLine (s : Scan src start stop) : Leads s.cursor s.beginLine.cursor := by
  unfold beginLine
  split
  · exact (Leads.refl _).setState _
  · exact Leads.refl _

@[simp] theorem ch_beginLine (s : Scan src start stop) : s.beginLine.cursor.ch = s.cursor.ch := by
  unfold beginLine
  split <;> rfl

@[simp] theorem column_beginLine (s : Scan src start stop) :
    s.beginLine.cursor.column = s.cursor.column := by
  unfold beginLine
  split <;> rfl

theorem tracks_beginLine {s : Scan src start stop} (tracks : s.cursor.Tracks) :
    s.beginLine.cursor.Tracks := by
  unfold beginLine
  split
  · exact tracks.paint.relabel .plain
  · exact tracks

theorem sound_beginLine {s : Scan src start stop} (sound : s.cursor.Sound) :
    s.beginLine.cursor.Sound :=
  (leads_beginLine s).sound sound

@[simp] theorem cursor_countByte (s : Scan src start stop) : s.countByte.cursor = s.cursor := by
  unfold countByte
  split <;> rfl

theorem nonBlank_le_countByte (s : Scan src start stop) : s.nonBlank ≤ s.countByte.nonBlank := by
  unfold countByte
  split
  · exact Nat.le_refl _
  · exact Nat.le_succ _

theorem leads_markStep (s : Scan src start stop) : Leads s.cursor s.markStep.cursor := by
  have marked := (Leads.refl s.cursor).setState .continuation
  unfold markStep
  dsimp only
  split
  · exact (Leads.refl _).setState _
  · split
    · exact marked
    · exact marked.forwardSetState _

theorem leads_fixedStep (s : Scan src start stop) (column : Nat) :
    Leads s.cursor (s.fixedStep column).cursor := by
  have set (style : Style) := (Leads.refl s.cursor).setState style
  unfold fixedStep
  dsimp only
  split
  · exact (set _).toLineEnd
  · split
    · exact (set _).toLineEnd
    · split
      · exact set _
      · exact leads_markStep s

theorem leads_skipSpaces (s : Scan src start stop) : Leads s.cursor s.skipSpaces.cursor := by
  fun_induction skipSpaces s with
  | case1 s _ ih =>
    rw [cursor_countByte] at ih
    exact (Leads.refl s.cursor).forward.trans ih
  | case2 => exact Leads.refl _

theorem leads_skipLeadingMark (c : Cursor src start stop) : Leads c (skipLeadingMark c) := by
  unfold skipLeadingMark
  split
  · exact ((Leads.refl c).setState _).forward
  · exact Leads.refl _

theorem leads_resumeNextLine (s : Scan src start stop) :
    Leads s.cursor s.resumeNextLine.cursor := by
  have marked := ((Leads.refl s.cursor).setState .continuation).forwardSetState .plain
  have skipped := marked.trans (leads_skipSpaces (s.withCursor _))
  exact (skipped.trans (leads_skipLeadingMark _)).setState s.cursor.state

theorem leads_ampersandStep (s : Scan src start stop) : Leads s.cursor s.ampersandStep.cursor := by
  unfold ampersandStep
  dsimp only
  split
  · exact ((Leads.refl s.cursor).setState _).forwardSetState _
  · split
    · exact leads_resumeNextLine s
    · exact Leads.refl _

theorem leads_numberSignStep (s : Scan src start stop) : Leads s.cursor s.numberSignStep.cursor := by
  unfold numberSignStep
  split
  · exact ((Leads.refl s.cursor).setState _).toLineEnd
  · exact Leads.refl _

theorem leads_literalStep (s : Scan src start stop) (quote : Char) :
    Leads s.cursor (s.literalStep quote).cursor := by
  unfold literalStep
  dsimp only
  split
  · split
    · exact (Leads.refl s.cursor).forward
    · exact (Leads.refl s.cursor).forwardSetState _
  · exact Leads.refl _

theorem leads_closeToken (s : Scan src start stop) (words : Dictionary) (form : SourceForm) :
    Leads s.cursor (s.closeToken words form).cursor := by
  have same := Leads.refl s.cursor
  cases state : s.cursor.state <;> simp only [closeToken, state]
  case apostropheLiteral | quoteLiteral =>
    split
    · exact same.relabel (.inr ⟨by rw [state]; rfl, rfl⟩)
    · exact leads_literalStep s _
  case dottedOperator =>
    split
    · exact same.forwardSetState _
    · exact same
  case identifier =>
    split
    · exact same
    · refine (same.relabel (.inr ⟨by rw [state]; rfl, ?_⟩)).setState _
      rw [state]
      exact words.isLoose_classify _
  case number | label =>
    split
    · exact same
    · exact same.setState _
  case comment | preprocessor =>
    split
    · exact same.setState _
    · exact same
  case operator | continuation => exact same.setState _
  all_goals exact same

theorem leads_openToken (s : Scan src start stop) (form : SourceForm) :
    Leads s.cursor (s.openToken form).cursor := by
  have set (style : Style) := (Leads.refl s.cursor).setState style
  have branch {p : Prop} [Decidable p] {a b : Scan src start stop} (yes : Leads s.cursor a.cursor)
      (no : Leads s.cursor b.cursor) : Leads s.cursor (if p then a else b).cursor := by
    split
    · exact yes
    · exact no
  exact branch (set _) (branch (set _) (branch (set _) (branch (set .number).forward (branch (set _)
    (branch (set _) (branch (set _) (branch (set _) (branch (set _) (Leads.refl _)))))))))

theorem leads_tokenStep (s : Scan src start stop) (words : Dictionary) (form : SourceForm) :
    Leads s.cursor (s.tokenStep words form).cursor := by
  have closed := (leads_numberSignStep s).trans (leads_closeToken _ words form)
  unfold tokenStep
  dsimp only
  split
  · exact closed.trans (leads_openToken _ form)
  · exact closed

theorem leads_step_of_begun (words : Dictionary) (form : SourceForm) (s : Scan src start stop) :
    Leads s.beginLine.countByte.cursor (s.step words form).cursor := by
  unfold step
  dsimp only
  split
  · split
    · exact leads_fixedStep _ _
    · exact leads_tokenStep _ words .fixed
  · split
    · exact (leads_ampersandStep _).trans (leads_tokenStep _ words .free)
    · exact leads_tokenStep _ words .free

theorem leads_step (words : Dictionary) (form : SourceForm) (s : Scan src start stop) :
    Leads s.cursor (s.step words form).cursor := by
  have begun : Leads s.cursor s.beginLine.countByte.cursor := by
    rw [cursor_countByte]
    exact leads_beginLine s
  exact begun.trans (leads_step_of_begun words form s)

theorem leads_run (words : Dictionary) (form : SourceForm) (s : Scan src start stop) :
    Leads s.cursor (s.run words form).cursor := by
  fun_induction run words form s with
  | case1 s _ _ ih => exact (leads_step words form s).forward.trans ih
  | case2 => exact Leads.refl _

theorem pos_run (words : Dictionary) (form : SourceForm) (s : Scan src start stop) :
    stop ≤ (s.run words form).cursor.pos := by
  fun_induction run words form s with
  | case1 s _ _ ih => exact ih
  | case2 s done => exact Nat.le_of_not_lt done

end Scan

end FortranMarkup
