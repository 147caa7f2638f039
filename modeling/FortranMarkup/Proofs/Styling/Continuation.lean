import FortranMarkup.Proofs.Styling.FieldLine
import FortranMarkup.Proofs.Styling.Turns

/-!
# Continuation lines of fixed form

The mark of a continuation line is to resume the statement on the very next byte. The pass resumes
one byte later: it steps over that byte, which opens no token. So the statement text of a
continuation line has the styles that it has on an initial line exactly if its first byte would open
no token there either (`Document.styles_of_continuation_iff`).
-/

namespace FortranMarkup

/-- Whether a character opens a token in plain text. -/
def opensToken (c : Char) : Bool :=
  c.isAlphanum || c = '"' || c = '\'' || isOperator c

theorem ne_of_not_opensToken {c d : Char} (quiet : opensToken c = false)
    (opens : opensToken d = true) : c ≠ d := by
  rintro rfl
  rw [quiet] at opens
  cases opens

namespace Scan

section Turns

variable {src : Source} {start stop : Nat} {words : Dictionary} {form : SourceForm}

/-- Handles byte after byte up to a limit. -/
def runTo (words : Dictionary) (form : SourceForm) (limit : Nat) (s : Scan src start stop) :
    Scan src start stop :=
  if s.cursor.pos < limit ∧ s.cursor.pos < stop then (s.advance words form).runTo words form limit
  else s
termination_by stop - s.cursor.pos
decreasing_by
  rename_i going
  have later : s.cursor.pos < (s.advance words form).cursor.pos := pos_lt_advance going.2
  omega

theorem Reaches.runTo_eq {s t : Scan src start stop} (reaches : Reaches words form s t) :
    s.runTo words form t.cursor.pos = t := by
  induction reaches with
  | refl s =>
    unfold runTo
    rw [if_neg (fun going => Nat.lt_irrefl _ going.1)]
  | turn more rest ih =>
    have low := Nat.lt_of_lt_of_le (pos_lt_advance more) rest.leads.pos_le
    unfold runTo
    rw [if_pos ⟨low, more⟩, ih]

theorem openToken_of_quiet {s : Scan src start stop} (quiet : opensToken s.cursor.ch = false) :
    s.openToken .fixed = s := by
  have other {d : Char} (opens : opensToken d = true) : s.cursor.ch ≠ d :=
    ne_of_not_opensToken quiet opens
  simp only [opensToken, Char.isAlphanum, Bool.or_eq_false_iff] at quiet
  obtain ⟨⟨⟨⟨alpha, digit⟩, -⟩, -⟩, operator⟩ := quiet
  have radix : ['b', 'o', 'z'].contains s.cursor.ch.toLower = false := by
    rw [toLower_of_not_isAlpha alpha]
    simp [other (d := 'b') rfl, other (d := 'o') rfl, other (d := 'z') rfl]
  have dot : decide (s.cursor.ch = '.') = false := decide_eq_false (other rfl)
  have start : isWordStart s.cursor.ch = false := by
    rw [isWordStart, Char.isAlphanum, alpha, digit]
    rfl
  unfold openToken
  simp only [radix, dot, start, digit, operator, Bool.false_and, Bool.or_false, Bool.false_eq_true,
    false_and, and_false, if_false, other (d := '!') rfl, other (d := '"') rfl, other (d := '\'') rfl]

theorem openToken_opens {s : Scan src start stop} (opens : opensToken s.cursor.ch = true) :
    (s.openToken .fixed).cursor.state ≠ .plain ∧
      (s.openToken .fixed).cursor.painted = s.cursor.paint.painted := by
  have comment : commentStyle s.cursor directives ≠ .plain := by
    unfold commentStyle
    split <;> decide
  have opened {style : Style} (shown : style ≠ .plain) :
      (s.withCursor (s.cursor.setState style)).cursor.state ≠ .plain ∧
        (s.withCursor (s.cursor.setState style)).cursor.painted = s.cursor.paint.painted :=
    ⟨shown, rfl⟩
  unfold openToken
  dsimp only
  split
  · exact opened comment
  split
  · exact opened (by decide)
  split
  · exact opened (by decide)
  split
  · obtain ⟨shown, painted⟩ := opened (show Style.number ≠ .plain by decide)
    refine ⟨?_, (Cursor.painted_forward _).trans painted⟩
    change (s.cursor.setState .number).forward.state ≠ .plain
    rwa [Cursor.state_forward]
  split
  · exact opened (by decide)
  split
  · exact opened (by decide)
  split
  · exact opened (by decide)
  split
  · exact opened (by decide)
  split
  · exact opened (by decide)
  · rename_i word quoted apostrophe operator
    unfold isWordStart at word
    simp [opensToken, word, quoted, apostrophe, operator] at opens

end Turns

theorem signFree_of_not_mem {chars : List Char} (none : '#' ∉ chars) : SignFree chars :=
  fun _ bound isSign => absurd (isSign ▸ List.getElem_mem bound) none

theorem SignFree.append {text ending : List Char} (signFree : SignFree text)
    (ends : ∀ c ∈ ending, isLineEnd c = true) : SignFree (text ++ ending) := by
  intro i bound isSign
  by_cases inside : i < text.length
  · rw [List.getElem_append_left inside] at isSign
    obtain ⟨earlier, less, visible⟩ := signFree i inside isSign
    refine ⟨earlier, less, ?_⟩
    rwa [List.getElem_append_left]
  · rw [List.getElem_append_right (Nat.le_of_not_lt inside)] at isSign
    have isEnd := isSign ▸ ends _ (List.getElem_mem _)
    cases isEnd

end Scan

namespace Source

variable {src : Source} {line : Nat} {mark : Char} {text ending : List Char} {words : Dictionary}

/-- The literal that the statement has left open where a line of fixed form starts; the plain style
if there is none. -/
def carriedInto (src : Source) (words : Dictionary) (line : Nat) : Style :=
  ((Scan.whole src).runTo words .fixed (src.lineStart line)).carried

theorem FieldLine.exists_onLead (fieldLine : src.FieldLine line mark text ending)
    (words : Dictionary) :
    ∃ s, Scan.Reaches words .fixed (Scan.whole src) s ∧
      Scan.OnLead line markColumn (src.carriedInto words line) s := by
  have table := fieldLine.table
  have sound := Scan.sound_whole src
  have tracks := Scan.tracks_whole table
  have inside := Nat.le_trans (lineStart_le_size table line) (src.le_walkEnd src.size)
  obtain ⟨t, reaches, tracks, pos | ⟨free, -⟩⟩ := Scan.reaches_line table
    (startsLine_lineStart table fieldLine.bound) inside sound tracks (Nat.zero_le _) words .fixed
  case inr => cases free
  have carried : src.carriedInto words line = t.carried := by
    rw [carriedInto, ← pos, reaches.runTo_eq]
  have lead : Scan.OnLead line 0 (src.carriedInto words line) t :=
    ⟨pos, tracks, reaches.leads.sound sound, carried.symm, fun later => absurd later (Nat.lt_irrefl 0)⟩
  obtain ⟨s, further, done⟩ := lead.reaches fieldLine src.size_lt_walkEnd (Nat.zero_add _) words
  exact ⟨s, reaches.trans further, done⟩

/-- The first byte of what is open is plain text in the end exactly if it is when it is open. -/
theorem freshStyle_segment {s : Scan src 0 (src.walkEnd src.size)}
    (reaches : Scan.Reaches words .fixed (Scan.whole src) s) (sound : s.cursor.Sound)
    (filled : s.cursor.segment < min s.cursor.pos src.size) :
    src.freshStyle words .fixed .plain s.cursor.segment = .plain ↔ s.cursor.state = .plain := by
  have settles := reaches.settles (.refl _) sound filled
  rw [Cursor.shade_of_segment_le sound (Nat.le_refl _) filled] at settles
  exact ⟨fun plain => (settles.eq_of_painted (by rw [plain]; rfl)).trans plain,
    fun plain => (settles.eq_of_opened (by rw [plain]; rfl)).trans plain⟩

/-- After a blank in the column of the mark, a pass goes on past the first byte of the text, which is
open. -/
theorem FieldLine.exists_afterBlank {first : Char} {rest : List Char}
    (fieldLine : src.FieldLine line mark (first :: rest) ending) (blank : isSpaceOrTab mark = true)
    (signFree : Scan.SignFree (first :: rest ++ ending)) (words : Dictionary) :
    ∃ s, Scan.Reaches words .fixed (Scan.whole src) s ∧ s.cursor.Sound ∧
      s.cursor.segment = src.fieldStart line ∧ src.fieldStart line < s.cursor.pos ∧
      (s.cursor.state = .plain ↔ opensToken first = false) ∧
      (opensToken first = false →
        Scan.PastFirst line s ∧ (isSpaceOrTab first = true ∨ 0 < s.nonBlank)) := by
  have room := src.size_lt_walkEnd
  have filled : first :: rest ≠ [] := List.cons_ne_nil _ _
  have inside := fieldLine.start_lt_size filled
  obtain ⟨u, reaches, lead⟩ := fieldLine.exists_onLead words
  obtain ⟨t, step, at_text, pos, tracks, sound, segment, state, nonBlank⟩ :=
    lead.openToken fieldLine room blank filled signFree words
  have ch : t.cursor.ch = first := by
    rw [tracks.ch, pos]
    exact charD_of_char? ((fieldLine.field filled).char? (length_pos_of_filled filled)) _
  have start : src.fieldStart line = src.lineStart line + (markColumn + 1) := rfl
  have lead_pos := lead.pos
  have more : u.cursor.pos < src.walkEnd src.size := by omega
  have more' : (u.advance words .fixed).cursor.pos < src.walkEnd src.size := by omega
  have advanced : (u.advance words .fixed).advance words .fixed =
      (t.openToken .fixed).withCursor (t.openToken .fixed).cursor.forward := by
    rw [Scan.advance, step]
  have reached := reaches.trans (.turn more (.turn more' (.refl _)))
  have whole := Scan.sound_whole src
  have inside' : t.cursor.pos < src.size := pos ▸ inside
  refine ⟨_, reached, reached.leads.sound whole, ?_, at_text ▸ Scan.pos_lt_advance more', ?_, ?_⟩
  all_goals rw [advanced]
  · change (t.openToken .fixed).cursor.forward.segment = _
    cases opens : opensToken first with
    | true =>
      have settled := Cursor.segment_paint sound
      rw [pos, Nat.min_eq_left (Nat.le_of_lt inside)] at settled
      rw [Cursor.segment_forward, Cursor.segment_eq_edge, (Scan.openToken_opens (ch ▸ opens)).2,
        ← Cursor.segment_eq_edge, settled]
    | false => rw [Scan.openToken_of_quiet (ch ▸ opens), Cursor.segment_forward, segment]
  · change (t.openToken .fixed).cursor.forward.state = .plain ↔ _
    rw [Cursor.state_forward]
    cases opens : opensToken first with
    | true => exact iff_of_false (Scan.openToken_opens (ch ▸ opens)).1 Bool.true_eq_false.mp
    | false =>
      rw [Scan.openToken_of_quiet (ch ▸ opens)]
      exact iff_of_true state rfl
  · intro quiet
    rw [Scan.openToken_of_quiet (ch ▸ quiet)]
    refine ⟨⟨?_, tracks.forward fieldLine.table inside' (Nat.lt_trans inside' room),
      Cursor.sound_forward sound, (Cursor.segment_forward _).trans segment⟩, ?_⟩
    · change t.cursor.forward.pos = _
      rw [Cursor.pos_forward, if_pos (Nat.lt_trans inside' room), pos]
    · change _ ∨ 0 < t.nonBlank
      rw [nonBlank, ch]
      cases isSpaceOrTab first with
      | true => exact .inl rfl
      | false => exact .inr (Nat.succ_pos _)

/-- A mark that resumes no literal takes the first byte of the text along as plain text. -/
theorem FieldLine.exists_afterMark (fieldLine : src.FieldLine line mark text ending)
    (isMark : Source.isMark mark = true) (filled : text ≠ [])
    (settled : src.carriedInto words line = .plain) :
    ∃ s, Scan.Reaches words .fixed (Scan.whole src) s ∧ Scan.PastFirst line s ∧
      s.cursor.state = .plain ∧ 0 < s.nonBlank := by
  obtain ⟨u, reaches, lead⟩ := fieldLine.exists_onLead words
  rw [settled] at lead
  have inside := fieldLine.start_lt_size filled
  have room := src.size_lt_walkEnd
  have pos := lead.pos
  have start : src.fieldStart line = src.lineStart line + (markColumn + 1) := rfl
  have more : u.cursor.pos < src.walkEnd src.size := by omega
  exact ⟨_, reaches.trans (.turn more (.refl _)), lead.pastFirst fieldLine room isMark filled words⟩

end Source

namespace Scan

variable {src₁ src₂ : Source} {line₁ line₂ : Nat} {mark₁ mark₂ first : Char}
  {rest ending : List Char} {words : Dictionary}

theorem PastFirst.length_shades {src : Source} {stop line : Nat} {s : Scan src 0 stop}
    (past : PastFirst line s) : (Span.shades s.cursor.painted).length = src.fieldStart line := by
  have length := Span.length_shades past.sound.joined
  rwa [Nat.zero_add, ← Cursor.segment_eq_edge, past.segment] at length

theorem freshStyle_eq_of_pastFirst (fieldLine₁ : src₁.FieldLine line₁ mark₁ (first :: rest) ending)
    (fieldLine₂ : src₂.FieldLine line₂ mark₂ (first :: rest) ending)
    (signFree : SignFree (first :: rest ++ ending)) {s₁ : Scan src₁ 0 (src₁.walkEnd src₁.size)}
    {s₂ : Scan src₂ 0 (src₂.walkEnd src₂.size)} (reaches₁ : Reaches words .fixed (whole src₁) s₁)
    (reaches₂ : Reaches words .fixed (whole src₂) s₂) (past₁ : PastFirst line₁ s₁)
    (past₂ : PastFirst line₂ s₂) (state₁ : s₁.cursor.state = .plain)
    (state₂ : s₂.cursor.state = .plain) (counted₁ : 0 < s₁.nonBlank)
    (counted₂ : isSpaceOrTab first = true ∨ 0 < s₂.nonBlank) {k : Nat}
    (less : k < (first :: rest).length) :
    src₁.freshStyle words .fixed .plain (src₁.fieldStart line₁ + k) =
      src₂.freshStyle words .fixed .plain (src₂.fieldStart line₂ + k) := by
  have filled : first :: rest ≠ [] := List.cons_ne_nil _ _
  have field₁ := fieldLine₁.field filled
  have field₂ := fieldLine₂.field filled
  have onLine : Source.OnLine (first :: rest ++ ending) 1 :=
    field₁.onLine_succ (Source.length_pos_of_filled filled)
      (fieldLine₁.inLine first List.mem_cons_self)
  have abreast : Abreast (first :: rest ++ ending) 1 (src₁.fieldStart line₁)
      (src₂.fieldStart line₂) s₁.cursor.painted s₂.cursor.painted s₁ s₂ := by
    refine ⟨⟨onLine, past₁.pos, past₂.pos, past₁.tracks, past₂.tracks, past₁.sound, past₂.sound,
      state₁.trans state₂.symm, ⟨0, past₁.segment, past₂.segment⟩, ⟨[], rfl, rfl⟩⟩, counted₁, ?_⟩
    refine counted₂.imp_left ?_
    intro blank i bound before
    obtain rfl : i = 0 := Nat.lt_one_iff.1 before
    exact blank
  have short : markColumn + 1 + (first :: rest).length ≤ tailColumn := fieldLine₁.short
  have inField : (first :: rest).length ≤ (first :: rest ++ ending).length := by
    rw [List.length_append]
    exact Nat.le_add_right _ _
  have alike := abreast.run field₁ field₂ (if_pos rfl) (if_pos rfl) signFree inField short words
  have sound := (leads_run words .fixed s₁).sound past₁.sound
  have same := alike.getElem?_eq (Cursor.sound_paint sound).joined past₁.length_shades
    past₂.length_shades less
  rw [Source.freshStyle_eq words reaches₁, Source.freshStyle_eq words reaches₂]
  exact congrArg (·.getD .plain) same

end Scan

namespace Document

variable {doc₁ doc₂ : Document} {words : Dictionary} {line₁ line₂ : Nat} {mark blank : Char}
  {text ending : List Char}

/-- A text is styled on a continuation line, where the statement leaves no literal open, as it is on
an initial line if and only if its first character opens no token. -/
theorem styles_of_continuation_iff (fits₁ : doc₁.Fits) (fits₂ : doc₂.Fits)
    (continued : doc₁.source.FieldLine line₁ mark text ending) (isMark : Source.isMark mark = true)
    (settled : doc₁.source.carriedInto words line₁ = .plain)
    (initial : doc₂.source.FieldLine line₂ blank text ending) (isBlank : isSpaceOrTab blank = true)
    (signFree : Scan.SignFree text) (outside₁ outside₂ : Style) :
    (∀ k, k < text.length →
      (doc₁.styleRange words .fixed 0 doc₁.size outside₁).styleAt
          (doc₁.source.fieldStart line₁ + k) =
        (doc₂.styleRange words .fixed 0 doc₂.size outside₂).styleAt
          (doc₂.source.fieldStart line₂ + k)) ↔
      ∀ c, text.head? = some c → opensToken c = false := by
  simp only [styleAt_styleRange_fresh fits₁, styleAt_styleRange_fresh fits₂]
  cases text with
  | nil => exact iff_of_true (fun _ less => absurd less (Nat.not_lt_zero _)) (by simp)
  | cons first rest =>
    have signFree : Scan.SignFree (first :: rest ++ ending) := signFree.append continued.ends
    obtain ⟨s₁, reaches₁, past₁, state₁, counted₁⟩ :=
      continued.exists_afterMark isMark (List.cons_ne_nil _ _) settled
    obtain ⟨s₂, reaches₂, sound₂, segment₂, later₂, plain₂, quiet₂⟩ :=
      initial.exists_afterBlank isBlank signFree words
    constructor
    · -- Behind the mark the first byte is plain text; behind the blank, only if it opens nothing.
      rintro same c ⟨⟩
      have inside₁ := continued.start_lt_size (List.cons_ne_nil _ _)
      have inside₂ := initial.start_lt_size (List.cons_ne_nil _ _)
      have style₁ := Source.freshStyle_segment reaches₁ past₁.sound
        (by rw [past₁.segment, past₁.pos]; omega)
      have style₂ := Source.freshStyle_segment reaches₂ sound₂ (by omega)
      rw [past₁.segment] at style₁
      rw [segment₂] at style₂
      exact plain₂.1 (style₂.1 ((same 0 (Nat.succ_pos _)).symm.trans (style₁.2 state₁)))
    · -- Past a first byte that opens nothing, both passes are as far into the same field.
      intro quiet k less
      have quiet := quiet first rfl
      obtain ⟨past₂, counted₂⟩ := quiet₂ quiet
      exact Scan.freshStyle_eq_of_pastFirst continued initial signFree reaches₁ reaches₂ past₁ past₂
        state₁ (plain₂.2 quiet) counted₁ counted₂ less

/-- An assignment and a second line with some text behind a character in the column of the mark. -/
def twoLines (mark : UInt8) (text : Array UInt8) : Document :=
  ofBytes (#[32, 32, 32, 32, 32, 32, 120, 61, 49, 10, 32, 32, 32, 32, 32, mark] ++ text ++ #[10])

theorem fieldLine_twoLines {byte : UInt8} {bytes : Array UInt8} {mark : Char} {text : List Char}
    (bound : 1 < (twoLines byte bytes).source.lines)
    (chars : (twoLines byte bytes).source.charsD ((twoLines byte bytes).source.lineStart 1)
      ((twoLines byte bytes).source.lineEnd 1) '\x00' =
        List.replicate markColumn ' ' ++ mark :: (text ++ ['\n']))
    (inLine : text.all (fun c => !isLineEnd c) = true)
    (short : markColumn + 1 + text.length ≤ tailColumn) :
    (twoLines byte bytes).source.FieldLine 1 mark text ['\n'] := by
  have blank : ∀ c ∈ List.replicate markColumn ' ', isSpaceOrTab c = true := by
    intro c mem
    rw [List.eq_of_mem_replicate mem]
    rfl
  have ends : ∀ c ∈ ['\n'], isLineEnd c = true := by
    intro c mem
    rw [List.mem_singleton.1 mem]
    rfl
  exact ⟨rfl, bound, ⟨List.replicate markColumn ' ', rfl, blank, chars⟩,
    fun c mem => by simpa using List.all_eq_true.1 inLine c mem, ends, short⟩

theorem styles_of_continuation_iff_blankFirst :
    let continued := twoLines 38 #[32, 43, 50]
    let initial := twoLines 32 #[32, 43, 50]
    (continued.source.FieldLine 1 '&' [' ', '+', '2'] ['\n'] ∧ Source.isMark '&' = true ∧
      continued.source.carriedInto .fortran 1 = .plain ∧
      initial.source.FieldLine 1 ' ' [' ', '+', '2'] ['\n'] ∧ isSpaceOrTab ' ' = true ∧
      Scan.SignFree [' ', '+', '2']) ∧
    ∀ k, k < 3 →
      (continued.styleRange .fortran .fixed 0 continued.size .plain).styleAt
          (continued.source.fieldStart 1 + k) =
        (initial.styleRange .fortran .fixed 0 initial.size .plain).styleAt
          (initial.source.fieldStart 1 + k) := by
  have continued : (twoLines 38 #[32, 43, 50]).source.FieldLine 1 '&' [' ', '+', '2'] ['\n'] :=
    fieldLine_twoLines (by decide +kernel) (by decide +kernel) (by decide) (by decide)
  have initial : (twoLines 32 #[32, 43, 50]).source.FieldLine 1 ' ' [' ', '+', '2'] ['\n'] :=
    fieldLine_twoLines (by decide +kernel) (by decide +kernel) (by decide) (by decide)
  have settled : (twoLines 38 #[32, 43, 50]).source.carriedInto .fortran 1 = .plain := by
    decide +kernel
  have signFree : Scan.SignFree [' ', '+', '2'] := Scan.signFree_of_not_mem (by decide)
  have quiet : ∀ c, [' ', '+', '2'].head? = some c → opensToken c = false := by
    rintro _ ⟨⟩
    decide
  have same := styles_of_continuation_iff (fits_ofBytes _) (fits_ofBytes _) continued (by decide)
    settled initial (by decide) signFree .plain .plain
  exact ⟨⟨continued, by decide, settled, initial, by decide, signFree⟩, same.2 quiet⟩

/-- A statement goes on at the byte after the mark of a continuation line, as if the line began with
it. -/
def ResumesAfterMark (words : Dictionary) : Prop :=
  ∀ (doc₁ doc₂ : Document) (line₁ line₂ : Nat) (mark blank : Char) (text ending : List Char),
    doc₁.Fits → doc₂.Fits → doc₁.source.FieldLine line₁ mark text ending →
    Source.isMark mark = true → doc₁.source.carriedInto words line₁ = .plain →
    doc₂.source.FieldLine line₂ blank text ending → isSpaceOrTab blank = true →
    Scan.SignFree text → ∀ k, k < text.length →
      (doc₁.styleRange words .fixed 0 doc₁.size .plain).styleAt (doc₁.source.fieldStart line₁ + k) =
        (doc₂.styleRange words .fixed 0 doc₂.size .plain).styleAt (doc₂.source.fieldStart line₂ + k)

/-- An operator right after the mark is styled as plain text. -/
theorem not_resumesAfterMark_operator : ¬ResumesAfterMark .fortran := by
  intro resumes
  have continued : (twoLines 38 #[43, 50]).source.FieldLine 1 '&' ['+', '2'] ['\n'] :=
    fieldLine_twoLines (by decide +kernel) (by decide +kernel) (by decide) (by decide)
  have initial : (twoLines 32 #[43, 50]).source.FieldLine 1 ' ' ['+', '2'] ['\n'] :=
    fieldLine_twoLines (by decide +kernel) (by decide +kernel) (by decide) (by decide)
  have same := resumes _ _ 1 1 '&' ' ' ['+', '2'] ['\n'] (fits_ofBytes _) (fits_ofBytes _) continued
    (by decide) (by decide +kernel) initial (by decide) (Scan.signFree_of_not_mem (by decide)) 0
    (by decide)
  revert same
  decide +kernel

end Document

end FortranMarkup
