import FortranMarkup.Proofs.Styling.Counting

/-!
# Number signs

A number sign that only spaces and tabs stand before on its line gives the line from there on to the
preprocessor, in free form in any column and in fixed form in the columns of the statement: in the
other columns the rules of fixed form come first. A number sign behind a visible byte begins a run
of that style only where a text goes on after a continuation mark (`Source.ResumesAt`): there the
mark with which the continued line begins is not counted together with the sign, and a line that was
for the preprocessor before the mark goes on (`Document.styleAt_numberSign`).
-/

namespace FortranMarkup

/-- A continuation mark after which the text goes on at a position. -/
structure Source.ResumesAt (src : Source) (styleAt : Nat → Style) (mark pos : Nat) : Prop where
  before : mark < pos
  ampersand : src.charD mark '\x00' = '&'
  style : styleAt mark = .continuation
  between : ∀ other, mark < other → other < pos → isSpace (src.charD other '\x00') = true ∨
    (other + 1 = pos ∧ src.charD other '\x00' = '&')

/-- From a position on, its line is for the preprocessor, but for the terminator. -/
def Source.DirectiveFrom (src : Source) (styleAt : Nat → Style) (pos : Nat) : Prop :=
  ∀ other, pos ≤ other → other < src.size → src.lineAt other = src.lineAt pos →
    isLineEnd (src.charD other '\x00') = false → styleAt other = .preprocessor

namespace Scan

variable {src : Source} {words : Dictionary} {form : SourceForm} {pos : Nat}
  {s : Scan src 0 (src.walkEnd src.size)}

theorem Reaches.course (reaches : Reaches words form (whole src) s) (table : src.Tabled)
    (inside : s.cursor.pos ≤ src.size) : OnCourse form s :=
  reaches.onCourse table src.size_lt_walkEnd (sound_whole src) (tracks_whole table)
    (onCourse_whole form src) inside

/-- What is known of the byte with which a turn begins. -/
theorem Reaches.begun (reaches : Reaches words form (whole src) s) (table : src.Tabled)
    (inside : s.cursor.pos ≤ src.size) : s.beginLine.countByte.cursor.Tracks ∧
      s.beginLine.countByte.cursor.Sound ∧ s.beginLine.countByte.Counted := by
  have tracks := reaches.leads.tracks table src.size_lt_walkEnd (tracks_whole table) inside
  refine ⟨?_, ?_, (reaches.course table inside).begun table tracks⟩
  · rw [cursor_countByte]
    exact tracks_beginLine tracks
  · rw [cursor_countByte]
    exact sound_beginLine (reaches.leads.sound (sound_whole src))

/-! ## Columns of fixed form -/

section Edge

variable (table : src.Tabled) (reaches : Reaches words .fixed (whole src) s)
  (inside : pos < src.size) (low : s.cursor.pos ≤ pos)
  (high : pos < (s.advance words .fixed).cursor.pos)
  (edge : s.cursor.column ≤ markColumn ∨ tailColumn ≤ s.cursor.column)
include table reaches inside low high edge

theorem Reaches.lineAt_of_edge : src.lineAt pos = src.lineAt s.cursor.pos := by
  have tracks := (reaches.begun table (by omega)).1
  have moves := fixedMoves_fixedStep s.beginLine.countByte edge
  rw [← step_of_edge words edge] at moves
  have pos_eq : s.beginLine.countByte.cursor.pos = s.cursor.pos := by simp
  rw [← pos_eq] at low ⊢
  exact moves.lineAt table tracks low (le_step_of_lt_advance high)

/-- The columns of the statement are left to the rules for tokens where only blanks come before. -/
theorem Reaches.edge_of_blank (blank : src.BlankBefore pos) :
    src.columnAt pos ≤ markColumn ∨ tailColumn ≤ src.columnAt pos := by
  have line := reaches.lineAt_of_edge table inside low high edge
  have tracks := (reaches.begun table (by omega)).1
  have column := (reaches.leads.tracks table src.size_lt_walkEnd (tracks_whole table)
    (by omega)).column_eq
  have moves := fixedMoves_fixedStep s.beginLine.countByte edge
  rw [← step_of_edge words edge] at moves
  have pos_eq : s.beginLine.countByte.cursor.pos = s.cursor.pos := by simp
  have last := le_step_of_lt_advance high
  rcases Nat.lt_or_eq_of_le low with later | rfl
  · have here := blank s.cursor.pos later line.symm
    rw [← pos_eq, ← tracks.ch] at here
    rcases moves.pos_of_blank here with tail | stays
    · have further : src.columnAt s.cursor.pos ≤ src.columnAt pos := by
        unfold Source.columnAt
        rw [line]
        omega
      exact .inr (by omega)
    · omega
  · rwa [← column]

/-- In the columns with a fixed meaning a number sign is for the preprocessor only behind the
beginning of a comment. -/
theorem Reaches.sign_of_edge (sign : src.charD pos '\x00' = '#')
    (shown : src.freshStyle words .fixed .plain pos = .preprocessor) :
    ¬src.BlankBefore pos ∧ src.freshStyle words .fixed .plain (pos - 1) = .preprocessor := by
  have room := src.size_lt_walkEnd
  have line := reaches.lineAt_of_edge table inside low high edge
  obtain ⟨tracks, sound, -⟩ := reaches.begun table (by omega)
  have carried : s.beginLine.countByte.carried ≠ .preprocessor := by
    rw [carried_countByte, carried_beginLine]
    exact (reaches.course table (by omega)).carried rfl
  have moves := fixedMoves_fixedStep s.beginLine.countByte edge
  have reaches' := reaches.trans (.turn (Nat.lt_of_le_of_lt low (by omega)) (.refl _))
  have cursor : (s.advance words .fixed).cursor = (s.step words .fixed).cursor.forward := rfl
  have pos_eq : s.beginLine.countByte.cursor.pos = s.cursor.pos := by simp
  rw [← step_of_edge words edge] at moves
  rw [cursor] at high
  rw [← pos_eq] at low line
  generalize s.beginLine.countByte = b at *
  generalize (s.step words .fixed).cursor = d at *
  have opened {style : Style} {e : Cursor src 0 (src.walkEnd src.size)}
      (opens : b.cursor.Opens style e) (leads : Cursor.Leads e d.forward)
      (firm : style.isLoose = false) {other : Nat} (low : b.cursor.pos ≤ other)
      (high : other < min e.pos src.size) : src.freshStyle words .fixed .plain other = style :=
    reaches'.style_of_opens sound opens firm (cursor ▸ leads) low high
  cases moves with
  | @comment style begins shown' =>
    have firm : style.isLoose = false := by rcases shown' with rfl | rfl <;> rfl
    have opens := (Cursor.Opens.here b.cursor style).toLineEnd.forward
    have later : b.cursor.pos < pos := by
      refine Nat.lt_of_le_of_ne low ?_
      rintro rfl
      exact begins.2 (tracks.ch.trans sign)
    rw [opened opens (.refl _) firm low (Nat.lt_min.2 ⟨high, inside⟩)] at shown
    refine ⟨fun blank => ?_, shown ▸ opened opens (.refl _) firm (by omega) (by omega)⟩
    have here := blank _ later line.symm
    rw [← tracks.ch, begins.1] at here
    cases here
  | tail =>
    have opens := (Cursor.Opens.here b.cursor .comment).toLineEnd.forward
    rw [opened opens (.refl _) rfl low (Nat.lt_min.2 ⟨high, inside⟩)] at shown
    cases shown
  | @stay style _ shown' =>
    have firm : style.isLoose = false := by rcases shown' with rfl | rfl | rfl <;> rfl
    have opens := (Cursor.Opens.here b.cursor style).forward
    rw [opened opens (.refl _) firm low (Nat.lt_min.2 ⟨high, inside⟩)] at shown
    rw [shown] at shown'
    simp at shown'
  | mark =>
    have opens := (Cursor.Opens.here b.cursor .continuation).forward
    have moved : (b.cursor.setState .continuation).forward.pos = b.cursor.pos + 1 :=
      Cursor.pos_forward_of_lt (Nat.lt_of_le_of_lt low (by omega))
    rcases Nat.lt_or_eq_of_le low with later | here
    · have sound' := opens.leads_start.sound sound
      have resumed :=
        (Cursor.Opens.here (b.cursor.setState .continuation).forward b.carried).forward
      have segment := resumed.segment sound'
      have same := reaches'.state_of_firm (cursor ▸ .refl _) (resumed.leads_start.sound sound')
        (Nat.le_trans (Nat.le_of_eq segment) (by omega)) (Nat.lt_min.2 ⟨high, inside⟩) rfl shown
      exact absurd (resumed.state.symm.trans same) carried
    · have mark := opened opens ((Cursor.Leads.refl _).setState b.carried).forward rfl low
        (by omega)
      rw [mark] at shown
      cases shown

end Edge

/-! ## Columns of the statement -/

/-- A run for the preprocessor that the rules for tokens do not begin at a number sign, but that
begins there, was open before. -/
theorem Reaches.open_of_sign {m t : Scan src 0 (src.walkEnd src.size)}
    (reaches : Reaches words form (whole src) t)
    (cursor : t.cursor = (m.tokenStep words form).cursor.forward) (table : src.Tabled)
    (tracks : m.cursor.Tracks) (sound : m.cursor.Sound) (inside : pos < src.size) (first : 0 < pos)
    (before : m.cursor.pos ≤ pos) (last : pos ≤ (m.tokenStep words form).cursor.pos)
    (unsigned : ¬(m.cursor.ch = '#' ∧ m.nonBlank = 1)) (sign : src.charD pos '\x00' = '#')
    (shown : src.freshStyle words form .plain pos = .preprocessor)
    (begins : src.freshStyle words form .plain (pos - 1) ≠ .preprocessor) :
    m.cursor.pos = pos ∧ m.cursor.state = .preprocessor ∧ m.cursor.segment = pos := by
  have room := src.size_lt_walkEnd
  have leads := leads_tokenStep m words form
  have directive := tokenStep_directive words form unsigned
  have moves := moves_tokenStep table room tracks unsigned words form
  generalize (m.tokenStep words form).cursor = d at *
  have sound' := leads.sound sound
  have segment_le := sound'.segment_le_pos
  obtain rfl : pos = d.pos := by
    refine Nat.le_antisymm last (Nat.le_of_not_lt (fun passed => ?_))
    exact (moves.visible tracks before passed).2 sign
  have next := Cursor.pos_forward_of_lt (Nat.lt_trans inside room)
  have segment : d.forward.segment = d.segment := Cursor.segment_forward d
  have state : d.state = .preprocessor := by
    rw [← Cursor.state_forward d]
    exact reaches.state_of_firm (cursor ▸ .refl _) (Cursor.sound_forward sound') (by omega)
      (by omega) rfl shown
  have whole_run : d.segment = d.pos := by
    refine Nat.le_antisymm segment_le (Nat.le_of_not_lt (fun earlier => begins ?_))
    have state' : d.forward.state = .preprocessor := (Cursor.state_forward d).trans state
    rw [← state']
    exact reaches.freshStyle_of_open (cursor ▸ .refl _) (Cursor.sound_forward sound')
      (by rw [state']; rfl) (by omega) (by omega)
  rcases directive state with same | bang
  · exact ⟨same ▸ rfl, same ▸ state, same ▸ whole_run⟩
  · rw [(leads.tracks table room tracks (Nat.le_of_lt inside)).ch, sign] at bang
    cases bang

/-- A mark from which the rules for tokens go on elsewhere is one after which the text goes on. -/
theorem Reaches.resumesAt {b t : Scan src 0 (src.walkEnd src.size)}
    (reaches : Reaches words form (whole src) t) (sound : b.cursor.Sound) (tracks : b.cursor.Tracks)
    (mark : b.cursor.ch = '&') (resumes : b.Resumes b.resumeNextLine)
    (leads : Cursor.Leads b.resumeNextLine.cursor t.cursor) :
    src.ResumesAt (src.freshStyle words form .plain) b.cursor.pos b.resumeNextLine.cursor.pos where
  before := resumes.later
  ampersand := tracks.ch ▸ mark
  style := by
    have inside : b.cursor.pos < src.size := tracks.lt_size (by rw [mark]; decide)
    have next : (b.cursor.setState .continuation).forward.pos = b.cursor.pos + 1 :=
      Cursor.pos_forward_of_lt (Nat.lt_trans inside src.size_lt_walkEnd)
    exact reaches.style_of_opens sound (Cursor.Opens.here _ .continuation).forward rfl
      (resumes.leads.trans leads) (Nat.le_refl _) (by omega)
  between := resumes.passed

section Statement

variable (table : src.Tabled) (reaches : Reaches words form (whole src) s) (inside : pos < src.size)
  (low : s.cursor.pos ≤ pos) (high : pos < (s.advance words form).cursor.pos)
  (statement : form = .fixed → ¬(s.cursor.column ≤ markColumn ∨ tailColumn ≤ s.cursor.column))
  (sign : src.charD pos '\x00' = '#')
include table reaches inside low high statement sign

omit high in
/-- The turn that passes a number sign has the rules for tokens begin at it or before it. -/
theorem Reaches.arrives_of_sign : ∃ m, Arrives form s.beginLine.countByte m ∧
    s.step words form = m.tokenStep words form ∧ m.cursor.pos ≤ pos := by
  have tracks := reaches.leads.tracks table src.size_lt_walkEnd (tracks_whole table) (by omega)
  obtain ⟨begun, -, counted⟩ := reaches.begun table (by omega)
  obtain ⟨m, arrives, step⟩ := exists_arrives words tracks statement
  refine ⟨m, arrives, step, Nat.le_of_not_lt (fun passed => ?_)⟩
  refine arrives.unsigned table src.size_lt_walkEnd begun counted ?_ passed sign
  rwa [pos_countByte, pos_beginLine]

theorem Reaches.arrives_at_first (blank : src.BlankBefore pos) :
    ∃ m, Arrives form s.beginLine.countByte m ∧ s.step words form = m.tokenStep words form ∧
      m.cursor.pos = pos := by
  have room := src.size_lt_walkEnd
  obtain ⟨begun, -, counted⟩ := reaches.begun table (by omega)
  obtain ⟨m, arrives, step, before⟩ := reaches.arrives_of_sign table inside low statement sign
  refine ⟨m, arrives, step, Nat.le_antisymm before (Nat.le_of_not_lt (fun later => ?_))⟩
  have last := le_step_of_lt_advance high
  rw [step] at last
  -- The bytes before the sign are blank, and the rules for tokens pass no blank.
  have tracks := arrives.tracks table room begun counted
  have same := lineAt_tokenStep table room tracks before last
  have stays := pos_tokenStep_of_blank table room tracks (tracks.ch ▸ blank _ later same.symm) words
    form
  omega

theorem Reaches.directive_of_first (blank : src.BlankBefore pos) :
    src.DirectiveFrom (src.freshStyle words form .plain) pos := by
  intro other after inside' line text
  have room := src.size_lt_walkEnd
  have reaches' := reaches.trans (.turn (Nat.lt_of_le_of_lt low (by omega)) (.refl _))
  obtain ⟨begun, sound, counted⟩ := reaches.begun table (by omega)
  obtain ⟨m, arrives, step, rfl⟩ :=
    reaches.arrives_at_first table inside low high statement sign blank
  have cursor : (s.advance words form).cursor = (m.tokenStep words form).cursor.forward :=
    congrArg (·.cursor.forward) step
  have tracks := arrives.tracks table room begun counted
  have here : m.cursor.ch = '#' := tracks.ch.trans sign
  have first : m.nonBlank = 1 :=
    (arrives.tallied table room begun counted).one blank (by rw [here]; rfl)
  have ended :=
    Cursor.lt_toLineEnd table room (tracks.paint.relabel .preprocessor) inside' line text
  have ended_eq := (leads_of_sign here first words form).2
  exact reaches'.style_of_sign cursor (arrives.leads.sound sound) here first after
    (Nat.lt_min.2 ⟨Nat.lt_of_lt_of_eq ended ended_eq.symm, inside'⟩)

theorem Reaches.column_of_first (fixed : form = .fixed) (blank : src.BlankBefore pos) :
    markColumn < src.columnAt pos ∧ src.columnAt pos < tailColumn := by
  obtain ⟨m, arrives, -, here⟩ :=
    reaches.arrives_at_first table inside low high statement sign blank
  have column := (reaches.leads.tracks table src.size_lt_walkEnd (tracks_whole table)
    (by omega)).column_eq
  have outside := statement fixed
  have first : s.cursor.pos = pos := by
    cases arrives with
    | here => rwa [pos_countByte, pos_beginLine] at here
    | comment free => cases fixed.symm.trans free
    | resume free => cases fixed.symm.trans free
  rw [first] at column
  omega

/-- A run for the preprocessor that begins at a number sign behind a visible byte begins where a
text goes on. -/
theorem Reaches.resumes_of_sign (shown : src.freshStyle words form .plain pos = .preprocessor)
    (begins : src.freshStyle words form .plain (pos - 1) ≠ .preprocessor)
    (behind : ¬src.BlankBefore pos) :
    let styleAt := src.freshStyle words form .plain
    form = .free ∧ ∃ mark, src.ResumesAt styleAt mark pos ∧
      ((src.charD (pos - 1) '\x00' = '&' ∧ src.BlankBefore (pos - 1)) ∨
        (0 < mark ∧ styleAt (mark - 1) = .preprocessor)) := by
  have room := src.size_lt_walkEnd
  have reaches' := reaches.trans (.turn (Nat.lt_of_le_of_lt low (by omega)) (.refl _))
  have directive := (reaches.course table (by omega)).directive_begun
  obtain ⟨begun, sound, counted⟩ := reaches.begun table (by omega)
  obtain ⟨m, arrives, step, before⟩ := reaches.arrives_of_sign table inside low statement sign
  have cursor : (s.advance words form).cursor = (m.tokenStep words form).cursor.forward :=
    congrArg (·.cursor.forward) step
  have last := le_step_of_lt_advance high
  rw [step] at last
  have tracks := arrives.tracks table room begun counted
  have sound_m := arrives.leads.sound sound
  have leads : Cursor.Leads m.cursor (s.advance words form).cursor :=
    cursor ▸ (leads_tokenStep m words form).forward
  have first : 0 < pos := by
    refine Nat.pos_of_ne_zero ?_
    rintro rfl
    exact behind (fun before less => absurd less (Nat.not_lt_zero _))
  generalize s.beginLine.countByte = b at *
  by_cases signed : m.cursor.ch = '#' ∧ m.nonBlank = 1
  · obtain rfl : m.cursor.pos = pos := by
      refine Nat.le_antisymm before (Nat.le_of_not_lt (fun later => begins ?_))
      exact reaches'.style_of_sign cursor sound_m signed.1 signed.2 (by omega) (by omega)
    have visible : isSpaceOrTab m.cursor.ch = false := by rw [signed.1]; rfl
    cases arrives with
    | here => exact absurd (counted.first visible signed.2) behind
    | comment _ mark next =>
      exact absurd ((tracks_pastMark table room begun mark).2.2.1.symm.trans signed.1) next
    | resume free mark space =>
      have resumes := resumes_resumeNextLine table room begun mark counted space
      rcases resumes.first visible signed.2 with blank | leading
      · exact absurd blank behind
      · exact ⟨free, _, reaches'.resumesAt sound begun mark resumes leads, .inl leading⟩
  · obtain ⟨rfl, state, segment⟩ := reaches'.open_of_sign cursor table tracks sound_m inside first
      before last signed sign shown begins
    cases arrives with
    | here => exact absurd segment (Nat.ne_of_lt (directive state))
    | comment _ _ _ other => exact absurd state other
    | resume free mark space =>
      have resumes := resumes_resumeNextLine table room begun mark counted space
      have state' := resumes.state.symm.trans state
      have open_before := directive state'
      have segment_le := begun.inside
      refine ⟨free, _, reaches'.resumesAt sound begun mark resumes leads, .inr ⟨by omega, ?_⟩⟩
      rw [← state']
      exact reaches'.freshStyle_of_open ((leads_resumeNextLine b).trans leads) sound
        (by rw [state']; rfl) (by omega) (by omega)

end Statement

end Scan

namespace Source

variable {src : Source} (table : src.Tabled) (words : Dictionary) {form : SourceForm} {pos : Nat}
  (sign : src.charD pos '\x00' = '#')
include table sign

theorem directiveFrom_iff (blank : src.BlankBefore pos) :
    src.DirectiveFrom (src.freshStyle words form .plain) pos ↔
      form = .free ∨ (markColumn < src.columnAt pos ∧ src.columnAt pos < tailColumn) := by
  have inside : pos < src.size := lt_size_of_charD (by rw [sign]; decide)
  obtain ⟨s, reaches, low, high⟩ := Scan.exists_turn (s := Scan.whole src) (Nat.zero_le pos)
    (Nat.lt_trans inside src.size_lt_walkEnd) words form
  cases form with
  | free =>
    exact iff_of_true (reaches.directive_of_first table inside low high nofun sign blank) (.inl rfl)
  | fixed =>
    by_cases edge : s.cursor.column ≤ markColumn ∨ tailColumn ≤ s.cursor.column
    · have outside := reaches.edge_of_blank table inside low high edge blank
      refine iff_of_false (fun directive => ?_) (by simp; omega)
      have shown := directive pos (Nat.le_refl _) inside rfl (by rw [sign]; rfl)
      exact (reaches.sign_of_edge table inside low high edge sign shown).1 blank
    · have statement := fun _ : SourceForm.fixed = .fixed => edge
      exact iff_of_true (reaches.directive_of_first table inside low high statement sign blank)
        (.inr (reaches.column_of_first table inside low high statement sign rfl blank))

theorem resumesAt_of_sign (shown : src.freshStyle words form .plain pos = .preprocessor)
    (begins : src.freshStyle words form .plain (pos - 1) ≠ .preprocessor)
    (behind : ¬src.BlankBefore pos) :
    let styleAt := src.freshStyle words form .plain
    form = .free ∧ ∃ mark, src.ResumesAt styleAt mark pos ∧
      ((src.charD (pos - 1) '\x00' = '&' ∧ src.BlankBefore (pos - 1)) ∨
        (0 < mark ∧ styleAt (mark - 1) = .preprocessor)) := by
  have inside : pos < src.size := lt_size_of_charD (by rw [sign]; decide)
  obtain ⟨s, reaches, low, high⟩ := Scan.exists_turn (s := Scan.whole src) (Nat.zero_le pos)
    (Nat.lt_trans inside src.size_lt_walkEnd) words form
  by_cases edge : form = .fixed ∧ (s.cursor.column ≤ markColumn ∨ tailColumn ≤ s.cursor.column)
  · obtain ⟨rfl, edge⟩ := edge
    exact absurd (reaches.sign_of_edge table inside low high edge sign shown).2 begins
  · exact reaches.resumes_of_sign table inside low high (fun fixed here => edge ⟨fixed, here⟩) sign
      shown begins behind

end Source

namespace Document

/-- A number sign with only spaces and tabs before it on its line gives the rest of the line to the
preprocessor in free form, and in fixed form exactly in the columns of the statement. One behind a
visible byte begins a run of that style only in free form and only where a text goes on after a
mark: right behind the mark with which the continued line begins, or in a line that was for the
preprocessor before the mark. -/
theorem styleAt_numberSign {doc : Document} (fits : doc.Fits) (words : Dictionary)
    (form : SourceForm) (outside : Style) {pos : Nat}
    (sign : doc.source.charD pos '\x00' = '#') :
    let styled := doc.styleRange words form 0 doc.size outside
    (doc.source.BlankBefore pos →
      (doc.source.DirectiveFrom styled.styleAt pos ↔
        form = .free ∨
          (markColumn < doc.source.columnAt pos ∧ doc.source.columnAt pos < tailColumn))) ∧
    (¬doc.source.BlankBefore pos → styled.styleAt pos = .preprocessor →
      styled.styleAt (pos - 1) ≠ .preprocessor →
      form = .free ∧ ∃ mark, doc.source.ResumesAt styled.styleAt mark pos ∧
        ((doc.source.charD (pos - 1) '\x00' = '&' ∧ doc.source.BlankBefore (pos - 1)) ∨
          (0 < mark ∧ styled.styleAt (mark - 1) = .preprocessor))) := by
  have same : (doc.styleRange words form 0 doc.size outside).styleAt =
      doc.source.freshStyle words form .plain :=
    funext (styleAt_styleRange_fresh fits words form outside)
  dsimp only
  rw [same]
  exact ⟨Source.directiveFrom_iff fits.table words sign,
    fun behind shown begins => Source.resumesAt_of_sign fits.table words sign shown begins behind⟩

/-- A continued line that begins with a mark, and with a number sign behind it. -/
def signBehindMark : Document :=
  ofBytes #[120, 38, 10, 38, 35, 121, 10]

theorem styleAt_numberSign_signBehindMark :
    let styled := signBehindMark.styleRange .fortran .free 0 signBehindMark.size .plain
    (signBehindMark.source.charD 4 '\x00' = '#' ∧ ¬signBehindMark.source.BlankBefore 4 ∧
      styled.styleAt 4 = .preprocessor ∧ styled.styleAt 3 ≠ .preprocessor) ∧
    ∃ mark, signBehindMark.source.ResumesAt styled.styleAt mark 4 := by
  have sign : signBehindMark.source.charD 4 '\x00' = '#' := by decide +kernel
  have behind : ¬signBehindMark.source.BlankBefore 4 := by
    intro blank
    have before := blank 3 (by decide) (by decide +kernel)
    revert before
    decide +kernel
  have shown : (signBehindMark.styleRange .fortran .free 0 signBehindMark.size .plain).styleAt 4 =
      .preprocessor := by decide +kernel
  have begins : (signBehindMark.styleRange .fortran .free 0 signBehindMark.size .plain).styleAt 3 ≠
      .preprocessor := by decide +kernel
  obtain ⟨-, mark, resumes, -⟩ :=
    (styleAt_numberSign (fits_ofBytes _) .fortran .free .plain sign).2 behind shown begins
  exact ⟨⟨sign, behind, shown, begins⟩, mark, resumes⟩

/-- In both forms, a number sign begins a line for the preprocessor if only spaces and tabs stand
before it on its line, and no run for the preprocessor otherwise. -/
def SignsBeginDirectives (words : Dictionary) : Prop :=
  ∀ (doc : Document) (form : SourceForm) (pos : Nat), doc.Fits →
    doc.source.charD pos '\x00' = '#' →
    let styled := doc.styleRange words form 0 doc.size .plain
    (doc.source.BlankBefore pos → doc.source.DirectiveFrom styled.styleAt pos) ∧
    (¬doc.source.BlankBefore pos → styled.styleAt pos = .preprocessor →
      styled.styleAt (pos - 1) = .preprocessor)

/-- A line of fixed form with a number sign in its first column. -/
def signAtStart : Document :=
  ofBytes #[35, 105, 110, 99, 108, 117, 100, 101, 32, 39, 97, 39, 10]

/-- A number sign in the column of the label has no style of its own. -/
theorem not_signsBeginDirectives_signAtStart : ¬SignsBeginDirectives .fortran := by
  intro begin
  have sign : signAtStart.source.charD 0 '\x00' = '#' := by decide +kernel
  have blank : signAtStart.source.BlankBefore 0 :=
    fun before less => absurd less (Nat.not_lt_zero _)
  have directive := (begin signAtStart .fixed 0 (fits_ofBytes _) sign).1 blank
  have style := directive 0 (Nat.le_refl _) (by decide) rfl (by rw [sign]; rfl)
  revert style
  decide +kernel

end Document

end FortranMarkup
