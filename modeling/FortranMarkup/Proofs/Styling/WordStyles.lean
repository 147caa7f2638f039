import FortranMarkup.Proofs.Styling.Consistency
import FortranMarkup.Proofs.Styling.WordSpans

/-!
# Styles of words

After a pass over a document each longest run of bytes in the style of a word has the style that its
spelling tells (`Document.style_of_wordRun`). In free form there is no exception but next to a
continuation mark. In fixed form, a word that is still open in the first column after the statement
is an identifier, whatever it spells.
-/

namespace FortranMarkup

namespace Span

variable {start pos : Nat} {painted : List Span} {style : Style}

theorem exists_of_getElem?_shades (joined : Joined start painted) (low : start ≤ pos)
    (found : (shades painted)[pos - start]? = some style) :
    ∃ span ∈ painted, span.start ≤ pos ∧ pos < span.stop ∧ span.style = style := by
  induction painted with
  | nil => cases found
  | cons last before ih =>
    obtain ⟨meets, filled, rest⟩ := joined
    have length := length_shades rest
    rw [shades_cons] at found
    by_cases earlier : pos - start < (shades before).length
    · rw [List.getElem?_append_left earlier] at found
      obtain ⟨span, mem, inside⟩ := ih rest found
      exact ⟨span, List.mem_cons_of_mem _ mem, inside⟩
    · rw [List.getElem?_append_right (Nat.le_of_not_lt earlier)] at found
      obtain ⟨bound, same⟩ := List.getElem?_eq_some_iff.1 found
      rw [List.length_replicate] at bound
      rw [List.getElem_replicate] at same
      exact ⟨last, List.mem_cons_self, by omega, by omega, same⟩

theorem getElem?_shades_of_mem (joined : Joined start painted) {span : Span} (mem : span ∈ painted)
    (low : span.start ≤ pos) (high : pos < span.stop) :
    (shades painted)[pos - start]? = some span.style := by
  obtain ⟨later, before, rfl⟩ := List.append_of_mem mem
  exact getElem?_shades joined (List.suffix_append _ _) low high

end Span

namespace Document

variable {doc : Document} {words : Dictionary} {form : SourceForm} {outside : Style}
  {line first stop : Nat} {style : Style}

/-- A longest run of bytes on one line that have one style. -/
structure StyleRun (doc : Document) (line first stop : Nat) (style : Style) : Prop where
  filled : first < stop
  inside : stop ≤ doc.size
  same : ∀ pos, first ≤ pos → pos < stop →
    doc.source.lineAt pos = line ∧ doc.styleAt pos = style
  before : first = 0 ∨ doc.source.lineAt (first - 1) ≠ line ∨ doc.styleAt (first - 1) ≠ style
  after : stop = doc.size ∨ doc.source.lineAt stop ≠ line ∨ doc.styleAt stop ≠ style

/-- A continuation mark of free form. -/
def FreeMarkAt (doc : Document) (form : SourceForm) (pos : Nat) : Prop :=
  form = .free ∧ doc.source.charD pos ' ' = '&' ∧ doc.styleAt pos = .continuation

/-- The styles of a document are those of some spans, in which words are as scans paint them. -/
structure Painted (doc : Document) (words : Dictionary) (form : SourceForm) (painted : List Span) :
    Prop where
  wordsIn : doc.source.WordsIn words form painted
  joined : Span.Joined 0 painted
  length : (Span.shades painted).length = doc.size
  styleAt : ∀ pos, doc.styleAt pos = (Span.shades painted)[pos]?.getD .plain

theorem exists_painted (fits : doc.Fits) (words : Dictionary) (form : SourceForm)
    (outside : Style) :
    ∃ painted, (doc.styleRange words form 0 doc.size outside).Painted words form painted := by
  let begun := Scan.fresh doc.source 0 (doc.source.walkEnd doc.source.size) outside
  have last : doc.source.walkEnd doc.source.size = doc.source.size + 1 := if_pos rfl
  have fresh : Scan.Begun 0 [] begun.beginLine :=
    Scan.begun_fresh fits.table doc.source.startsLine_zero _ outside
  have between : Scan.Between words form begun.beginLine :=
    fresh.between (by rw [Scan.carried_beginLine]; rfl)
  have wordsIn := between.wordsIn_run fits.table last
  have more : begun.cursor.pos < doc.source.walkEnd doc.source.size := by
    change 0 < _
    omega
  have run : begun.beginLine.run words form = begun.run words form :=
    Scan.run_beginLine (Cursor.sound_atStart outside (Nat.zero_le _)) more
  rw [run] at wordsIn
  have sound : (begun.run words form).cursor.Sound :=
    (Scan.leads_run words form begun).sound (Cursor.sound_atStart outside (Nat.zero_le _))
  refine ⟨_, wordsIn, (Cursor.sound_paint sound).joined, ?_, fun pos => ?_⟩
  · exact Source.length_stylesFrom words form (Nat.zero_le _) (Nat.le_refl _) outside
  · rw [styleAt_styleRange_all fits]
    rfl

section Painted

variable {painted : List Span} (shown : doc.Painted words form painted)
include shown

theorem Painted.styleAt_of_mem {span : Span} (mem : span ∈ painted) {pos : Nat}
    (low : span.start ≤ pos) (high : pos < span.stop) :
    pos < doc.size ∧ doc.styleAt pos = span.style := by
  have found := Span.getElem?_shades_of_mem shown.joined mem low high
  rw [Nat.sub_zero] at found
  refine ⟨?_, by rw [shown.styleAt, found, Option.getD_some]⟩
  rw [← shown.length]
  exact (List.getElem?_eq_some_iff.1 found).1

theorem Painted.exists_word {pos : Nat} (isWord : (doc.styleAt pos).isWord = true) :
    ∃ span ∈ painted, span.start ≤ pos ∧ pos < span.stop ∧ span.style = doc.styleAt pos ∧
      doc.source.PaintedWord words form painted span := by
  rw [shown.styleAt] at isWord ⊢
  cases found : (Span.shades painted)[pos]? with
  | none =>
    rw [found] at isWord
    cases isWord
  | some style =>
    rw [found] at isWord
    obtain ⟨span, mem, low, high, rfl⟩ :=
      Span.exists_of_getElem?_shades shown.joined (Nat.zero_le pos) found
    exact ⟨span, mem, low, high, rfl, shown.wordsIn span mem isWord⟩

/-- A run in the style of a word begins with a painted word, and ends with it if the byte after that
word is part of no name. -/
theorem Painted.exists_first_word (table : doc.source.Tabled)
    (run : doc.StyleRun line first stop style) (isWord : style.isWord = true) :
    ∃ span ∈ painted, span.start = first ∧ span.stop ≤ stop ∧ span.style = style ∧
      doc.source.PaintedWord words form painted span ∧ doc.source.lineAt span.stop = line ∧
      (isNameChar (doc.source.charD span.stop '\x00') = false → span.stop = stop) := by
  have filled := run.filled
  have word_at {pos : Nat} (low : first ≤ pos) (high : pos < stop) :
      ∃ span ∈ painted, span.start ≤ pos ∧ pos < span.stop ∧ span.style = doc.styleAt pos ∧
        doc.source.PaintedWord words form painted span :=
    shown.exists_word ((run.same pos low high).2.symm ▸ isWord)
  obtain ⟨span, mem, low, high, styled, word⟩ := word_at (Nat.le_refl first) filled
  obtain ⟨first_line, first_style⟩ := run.same first (Nat.le_refl _) filled
  rw [first_style] at styled
  have line_at {pos : Nat} (from_start : span.start ≤ pos) (to_stop : pos ≤ span.stop) :
      doc.source.lineAt pos = line := by
    rw [word.lineAt_eq table from_start to_stop, ← word.lineAt_eq table low (Nat.le_of_lt high),
      first_line]
  -- If the span reached over an end of the run, the byte there would belong to the run.
  have begins : span.start = first := by
    apply Nat.le_antisymm low
    apply Nat.le_of_not_lt
    intro earlier
    have previous : first - 1 < doc.size ∧ doc.styleAt (first - 1) = span.style :=
      shown.styleAt_of_mem mem (by omega) (by omega)
    rcases run.before with zero | line | other
    · omega
    · exact line (line_at (by omega) (by omega))
    · exact other (previous.2.trans styled)
  have le : span.stop ≤ stop := by
    apply Nat.le_of_not_lt
    intro longer
    have next := shown.styleAt_of_mem mem (Nat.le_of_lt (by omega)) longer
    rcases run.after with size | line | other
    · have last := next.1
      omega
    · exact line (line_at (by omega) (Nat.le_of_lt longer))
    · exact other (next.2.trans styled)
  refine ⟨span, mem, begins, le, styled, word, line_at (by omega) (Nat.le_refl _), ?_⟩
  -- Otherwise the byte after the span is in another word, and so part of a name.
  intro other
  apply Nat.le_antisymm le
  apply Nat.le_of_not_lt
  intro less
  obtain ⟨next, -, low, high, -, word⟩ := word_at (Nat.le_of_lt high) less
  rw [word.names _ low high] at other
  cases other

end Painted

/-- After a pass over everything, a run of bytes in the style of a word has the style that its
spelling tells, unless a continuation mark of free form ends it. In fixed form, one that ends in the
columns after the statement is an identifier. -/
theorem style_of_wordRun (fits : doc.Fits) (words : Dictionary) (form : SourceForm)
    (outside : Style)
    (run : (doc.styleRange words form 0 doc.size outside).StyleRun line first stop style)
    (isWord : style.isWord = true)
    (apart : ¬(doc.styleRange words form 0 doc.size outside).FreeMarkAt form stop) :
    style =
      if form = .fixed ∧ tailColumn ≤ stop - doc.source.lineStart line then .identifier
      else (words.classify (doc.source.wordAt first stop)).getD .identifier := by
  obtain ⟨painted, shown⟩ := exists_painted fits words form outside
  obtain ⟨span, mem, rfl, le, rfl, word, last_line, ends⟩ :=
    shown.exists_first_word fits.table run isWord
  change doc.source.lineAt span.stop = line at last_line
  cases word.ending with
  | closed other column spelled =>
    obtain rfl := ends other
    rw [if_neg]
    · exact spelled
    · rintro ⟨fixed, late⟩
      have early : doc.source.columnAt span.stop < tailColumn := column fixed
      rw [Source.columnAt, last_line] at early
      omega
  | continued free mark styled =>
    obtain rfl := ends (by rw [mark]; rfl)
    have marked := (shown.styleAt_of_mem styled (Nat.le_refl _) (Nat.lt_succ_self _)).2
    exact absurd ⟨free, Source.charD_eq_of_ne mark (by decide) ' ', marked⟩ apart
  | cut fixed column identifier =>
    replace column : tailColumn ≤ doc.source.columnAt span.stop := column
    rw [Source.columnAt, last_line] at column
    rw [if_pos ⟨fixed, by omega⟩]
    exact identifier

/-- The statement that ends a program, in the columns of fixed form. -/
def endStatement : Document :=
  ofBytes #[32, 32, 32, 32, 32, 32, 101, 110, 100, 10]

theorem style_of_wordRun_endStatement :
    let styled := endStatement.styleRange .fortran .fixed 0 endStatement.size .plain
    styled.StyleRun 0 6 9 .keyword ∧ ¬styled.FreeMarkAt .fixed 9 ∧
      Style.keyword = (Dictionary.fortran.classify (endStatement.source.wordAt 6 9)).getD
        .identifier := by
  have same : ∀ pos, pos < 9 → 6 ≤ pos → endStatement.source.lineAt pos = 0 ∧
      (endStatement.styleRange .fortran .fixed 0 endStatement.size .plain).styleAt pos =
        .keyword := by decide +kernel
  have run : (endStatement.styleRange .fortran .fixed 0 endStatement.size .plain).StyleRun 0 6 9
      .keyword :=
    ⟨by decide, by decide +kernel, fun pos low high => same pos high low, by decide +kernel,
      by decide +kernel⟩
  have apart : ¬(endStatement.styleRange .fortran .fixed 0 endStatement.size .plain).FreeMarkAt
      .fixed 9 := fun mark => absurd mark.1 (by decide)
  have style := style_of_wordRun (fits_ofBytes _) .fortran .fixed .plain run rfl apart
  rw [if_neg (by decide +kernel)] at style
  exact ⟨run, apart, style⟩

/-- The styles of words are those that the dictionary has for them, away from continuation marks of
free form. -/
def WordsExact (doc : Document) (words : Dictionary) (form : SourceForm) : Prop :=
  ∀ line first stop style, doc.StyleRun line first stop style → style.isWord = true →
    (∀ pos, pos + 1 = first ∨ pos = stop → ¬doc.FreeMarkAt form pos) →
      words.classify (doc.source.wordAt first stop) =
        if style = .identifier then none else some style

/-- The statement that ends a program, in the last columns that statements have in fixed form. -/
def lastColumns : Document :=
  ofBytes (Array.replicate 69 32 ++ #[101, 110, 100, 10])

/-- A keyword in the last columns is styled as a word that no list holds. -/
theorem not_wordsExact_lastColumns :
    ¬(lastColumns.styleRange .fortran .fixed 0 lastColumns.size .plain).WordsExact .fortran
      .fixed := by
  intro exact
  have same : ∀ pos, pos < 72 → 69 ≤ pos → lastColumns.source.lineAt pos = 0 ∧
      (lastColumns.styleRange .fortran .fixed 0 lastColumns.size .plain).styleAt pos =
        .identifier := by decide +kernel
  have run : (lastColumns.styleRange .fortran .fixed 0 lastColumns.size .plain).StyleRun 0 69 72
      .identifier :=
    ⟨by decide, by decide +kernel, fun pos low high => same pos high low, by decide +kernel,
      by decide +kernel⟩
  have unlisted := exact 0 69 72 .identifier run rfl (fun _ _ mark => absurd mark.1 (by decide))
  revert unlisted
  decide +kernel

end Document

end FortranMarkup
