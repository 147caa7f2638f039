import FortranMarkup.Proofs.Folding.CommentRun
import FortranMarkup.Proofs.Folding.Construct
import FortranMarkup.Proofs.Folding.Restart
import FortranMarkup.Proofs.Styling.Consistency
import FortranMarkup.Proofs.Tokens.Basic

/-!
# Levels of constructs

A line whose only keyword is `forall` or `where` is marked, and the next line starts one level
further in, exactly if the keyword opens a block (`Document.Construct.levels`). So in free form the
line breaks in the control expression make no difference. In fixed form, a control expression that
goes on behind the mark of the next line keeps the block from being opened
(`Document.levels_of_construct`).
-/

namespace FortranMarkup

namespace FoldPass

variable {pass : FoldPass} {s t u : FoldState} {first stop pos : Nat}

/-- A pass comes to a state on the same line without a keyword in between. -/
structure Rests (s t : FoldState) : Prop where
  level : t.level = s.level
  change : t.change = s.change
  previous : t.previous = s.previous
  visible : s.visible = true → t.visible = true

theorem Rests.trans (first : Rests s t) (second : Rests t u) : Rests s u :=
  ⟨second.level.trans first.level, second.change.trans first.change,
    second.previous.trans first.previous, fun visible => second.visible (first.visible visible)⟩

theorem rests_step (s : FoldState) (inLine : endsLineAt pass.doc.source.bytes pos = false)
    (quiet : pass.endsWord pos = false) : Rests s (pass.step s pos) := by
  obtain ⟨change, level, previous⟩ :=
    looked_of_not_endsWord (s := s) (Bool.eq_false_iff.1 quiet)
  have visible := (pass.looked_frame s pos).1
  rw [step_eq, inLine, if_neg Bool.false_ne_true]
  split
  · exact ⟨level, change, previous, visible.trans⟩
  · exact ⟨level, change, previous, fun _ => rfl⟩

theorem rests_after (s : FoldState) (le : first ≤ stop)
    (inLine : ∀ pos, first ≤ pos → pos < stop → endsLineAt pass.doc.source.bytes pos = false)
    (quiet : ∀ pos, first ≤ pos → pos < stop → pass.endsWord pos = false) :
    Rests s (pass.after s first stop) := by
  induction le with
  | refl =>
    rw [after_self]
    exact ⟨rfl, rfl, rfl, id⟩
  | @step stop le ih =>
    have before := ih (fun pos low high => inLine pos low (Nat.lt_succ_of_lt high))
      (fun pos low high => quiet pos low (Nat.lt_succ_of_lt high))
    rw [Nat.succ_eq_add_one, after_succ _ _ le]
    exact before.trans (rests_step _ (inLine stop le (Nat.lt_succ_self _))
      (quiet stop le (Nat.lt_succ_self _)))

theorem step_of_visible (s : FoldState) (inLine : endsLineAt pass.doc.source.bytes pos = false)
    (visible : isSpace (pass.doc.source.charD pos ' ') = false) :
    pass.step s pos = { pass.looked s pos with visible := true } := by
  rw [step_eq, inLine, if_neg Bool.false_ne_true, visible, if_neg Bool.false_ne_true]

theorem wordStart_step (s : FoldState) (pos : Nat) :
    (pass.step s pos).wordStart = if pass.Notes pos then pos else s.wordStart := by
  rw [← (pass.looked_frame s pos).2.2.2.2, step_eq]
  split
  · rfl
  · split <;> rfl

theorem wordStart_after (s : FoldState) (le : first ≤ stop)
    (quiet : ∀ pos, first ≤ pos → pos < stop → ¬pass.Notes pos) :
    (pass.after s first stop).wordStart = s.wordStart := by
  induction le with
  | refl => rw [after_self]
  | @step stop le ih =>
    rw [Nat.succ_eq_add_one, after_succ _ _ le, wordStart_step,
      if_neg (quiet stop le (Nat.lt_succ_self _))]
    exact ih (fun pos low high => quiet pos low (Nat.lt_succ_of_lt high))

theorem not_notes_of_keyword (keyword : pass.doc.styleAt pos = .keyword) : ¬pass.Notes (pos + 1) := by
  rintro ⟨separated, -⟩
  rw [afterSeparator, Document.styleBefore, if_neg (Nat.succ_ne_zero pos), Nat.add_sub_cancel,
    keyword] at separated
  cases separated

end FoldPass

namespace Document

variable {doc : Document} {form : SourceForm} {outside : Style}
  {line first last opening closing : Nat}

/-- The words that open a block only if nothing follows their control expression. -/
def constructWords : List String :=
  ["forall", "where"]

/-- `forall` or `where`, the only keyword on its line, with its control expression. -/
structure Construct (doc : Document) (form : SourceForm) (outside : Style)
    (line first last opening closing : Nat) : Prop where
  low : doc.source.lineStart line ≤ first
  high : last < doc.source.lineEnd line
  spelled :
    String.ofList ((doc.source.charsD first (last + 1) ' ').map Char.toLower) ∈ constructWords
  styled : ∀ pos, pos ≤ last → first ≤ pos → doc.styleAt pos = .keyword
  alone : ∀ pos, pos < doc.source.lineEnd line → doc.source.lineStart line ≤ pos →
    doc.styleAt pos = .keyword → first ≤ pos ∧ pos ≤ last
  separated : (doc.foldPass form outside 0).afterSeparator first = true
  controls : doc.Controls last opening closing

instance (doc : Document) (form : SourceForm) (outside : Style)
    (line first last opening closing : Nat) :
    Decidable (doc.Construct form outside line first last opening closing) :=
  decidable_of_iff
    (doc.source.lineStart line ≤ first ∧ last < doc.source.lineEnd line ∧
      String.ofList ((doc.source.charsD first (last + 1) ' ').map Char.toLower) ∈ constructWords ∧
      (∀ pos, pos ≤ last → first ≤ pos → doc.styleAt pos = .keyword) ∧
      (∀ pos, pos < doc.source.lineEnd line → doc.source.lineStart line ≤ pos →
        doc.styleAt pos = .keyword → first ≤ pos ∧ pos ≤ last) ∧
      (doc.foldPass form outside 0).afterSeparator first = true ∧
      doc.Controls last opening closing)
    ⟨fun ⟨low, high, spelled, styled, alone, separated, controls⟩ =>
        ⟨low, high, spelled, styled, alone, separated, controls⟩,
      fun ⟨low, high, spelled, styled, alone, separated, controls⟩ =>
        ⟨low, high, spelled, styled, alone, separated, controls⟩⟩

/-- The running level with which a line starts. -/
def levelBefore (doc : Document) (form : SourceForm) (outside : Style) (line : Nat) : Int :=
  (doc.foldStateAt form outside 0 (doc.source.lineStart line)).level

theorem not_ends_of_more (table : doc.source.Tabled) (more : line + 1 < doc.source.lines) {pos : Nat}
    (low : doc.source.lineStart line ≤ pos) (high : pos + 1 < doc.source.lineEnd line) :
    endsLineAt doc.source.bytes pos = false := by
  have on_line {p : Nat} (low : doc.source.lineStart line ≤ p)
      (high : p < doc.source.lineEnd line) : doc.source.lineAt p = line :=
    Source.lineAt_of_lt table (Nat.lt_of_succ_lt more) low high
  apply Bool.eq_false_iff.2
  refine Source.not_ends_of_lt table (Nat.lt_succ_self pos) ?_
  rw [on_line low (by omega), on_line (by omega) high]

namespace Construct

variable (construct : doc.Construct form outside line first last opening closing)
include construct

theorem isAlpha {pos : Nat} (le : first ≤ pos) (le' : pos ≤ last) :
    (doc.source.charD pos ' ').isAlpha = true := by
  have letters : ∀ word ∈ constructWords, word.toList.all Char.isAlpha = true := by decide
  have mem : (doc.source.charD pos ' ').toLower ∈
      (String.ofList ((doc.source.charsD first (last + 1) ' ').map Char.toLower)).toList := by
    rw [String.toList_ofList]
    refine List.mem_map_of_mem (List.mem_map.2 ⟨pos, ?_, rfl⟩)
    rw [List.mem_range'_1]
    omega
  have lower := List.all_eq_true.1 (letters _ construct.spelled) _ mem
  cases alpha : (doc.source.charD pos ' ').isAlpha with
  | true => rfl
  | false => rwa [toLower_of_not_isAlpha alpha, alpha] at lower

theorem length : 1 < last + 1 - first ∧ last + 1 - first ≤ foldWordCapacity := by
  have lengths : ∀ word ∈ constructWords, 1 < word.toList.length ∧
      word.toList.length ≤ foldWordCapacity := by decide
  have length := lengths _ construct.spelled
  rwa [String.toList_ofList, List.length_map, Source.charsD, List.length_map,
    List.length_range'] at length

theorem wordFrom_mem : (doc.foldPass form outside 0).wordFrom first last ∈ constructWords := by
  have spelled := construct.spelled
  have room := construct.length.2
  rwa [FoldPass.wordFrom, BoundedWord.spelling, BoundedWord.ofChars, List.take_of_length_le]
  rwa [Source.charsD, List.length_map, List.length_range']

theorem endsWord_iff {pos : Nat} (low : doc.source.lineStart line ≤ pos)
    (high : pos < doc.source.lineEnd line) :
    (doc.foldPass form outside 0).endsWord pos = true ↔ pos = last := by
  have letter {p : Nat} (le : first ≤ p) (le' : p ≤ last) :
      isFoldWordChar (doc.source.charD p ' ') = true := by
    rw [isFoldWordChar, Char.isAlphanum, construct.isAlpha le le']
    rfl
  have length := construct.length.1
  constructor
  · intro ends
    simp only [FoldPass.endsWord, Bool.and_eq_true, decide_eq_true_eq, Bool.not_eq_true'] at ends
    obtain ⟨⟨keyword, -⟩, next⟩ := ends
    obtain ⟨le, le'⟩ := construct.alone pos high low keyword
    apply Decidable.byContradiction
    intro other
    have more := letter (p := pos + 1) (by omega) (by omega)
    rw [show isFoldWordChar (doc.source.charD (pos + 1) ' ') = false from next] at more
    cases more
  · rintro rfl
    have next : isFoldWordChar (doc.source.charD (pos + 1) ' ') = false := by
      obtain less | same := Nat.lt_or_eq_of_le (show pos + 1 ≤ opening from construct.controls.less)
      · have blank := construct.controls.blank (pos + 1) less (Nat.lt_succ_self _)
        simp only [isBlank, Bool.or_eq_true, decide_eq_true_eq] at blank
        rcases blank with (blank | blank) | blank <;> rw [blank] <;> decide
      · rw [same, construct.controls.opens]
        decide
    rw [FoldPass.endsWord, Bool.and_eq_true, Bool.and_eq_true, decide_eq_true_eq]
    exact ⟨⟨construct.styled pos (Nat.le_refl _) (by omega), letter (by omega) (Nat.le_refl _)⟩,
      by rw [Bool.not_eq_true']; exact next⟩

theorem rests (table : doc.source.Tabled) (more : line + 1 < doc.source.lines) {start stop : Nat}
    (low : doc.source.lineStart line ≤ start) (le : start ≤ stop)
    (high : stop < doc.source.lineEnd line)
    (other : ∀ pos, start ≤ pos → pos < stop → pos ≠ last) :
    FoldPass.Rests (doc.foldStateAt form outside 0 start) (doc.foldStateAt form outside 0 stop) := by
  rw [← after_foldStateAt doc form outside (foldStart_zero_le table start) le]
  apply FoldPass.rests_after _ le
  · exact fun pos later before => not_ends_of_more table more (by omega) (by omega)
  · intro pos later before
    apply Bool.eq_false_iff.2
    intro ends
    exact other pos later before ((construct.endsWord_iff (by omega) (by omega)).1 ends)

theorem wordBy_mem (table : doc.source.Tabled) :
    (doc.foldPass form outside 0).wordBy (doc.foldStateAt form outside 0 last) last ∈
      constructWords := by
  have length := construct.length.1
  -- The start of the word is noted at its first byte, and at no later one.
  have quiet (pos : Nat) (later : first + 1 ≤ pos) (before : pos ≤ last) :
      ¬(doc.foldPass form outside 0).Notes pos := by
    obtain ⟨pos, rfl⟩ : ∃ before, pos = before + 1 := ⟨pos - 1, by omega⟩
    exact FoldPass.not_notes_of_keyword (construct.styled pos (by omega) (by omega))
  have notes : (doc.foldPass form outside 0).Notes first :=
    ⟨construct.separated, .inl (construct.styled first (by omega) (Nat.le_refl _))⟩
  have begun : (doc.foldStateAt form outside 0 (first + 1)).wordStart = first := by
    rw [foldStateAt_succ (foldStart_zero_le table first), FoldPass.wordStart_step, if_pos notes]
  have start : (doc.foldStateAt form outside 0 last).wordStart = first := by
    have le : first + 1 ≤ last := by omega
    rw [← after_foldStateAt doc form outside (foldStart_zero_le table (first + 1)) le,
      FoldPass.wordStart_after _ le (fun pos later before => quiet pos later (Nat.le_of_lt before)),
      begun]
  rw [FoldPass.wordBy, ((doc.foldPass form outside 0).looked_frame _ last).2.2.2.2,
    if_neg (quiet last (by omega) (Nat.le_refl _)), start]
  exact construct.wordFrom_mem

end Construct

theorem wordEffect_of_constructWords {pass : FoldPass} {word : String} (mem : word ∈ constructWords)
    (line pos : Nat) :
    pass.wordEffect line pos word "" =
      ⟨if pass.doc.opensBlock pass.form pass.stop line pos then 1 else 0, false⟩ := by
  have named : word = "forall" ∨ word = "where" ∧ "" ≠ "else" := by
    simp only [constructWords, List.mem_cons, List.not_mem_nil, or_false] at mem
    exact mem.imp_right (fun isWhere => ⟨isWhere, by decide⟩)
  rw [FoldPass.wordEffect, if_pos named]
  simp

theorem Construct.stateAt_succ (construct : doc.Construct form outside line first last opening closing)
    (table : doc.source.Tabled) (more : line + 1 < doc.source.lines)
    (inLine : last + 1 < doc.source.lineEnd line) :
    (doc.foldStateAt form outside 0 (last + 1)).level = doc.levelBefore form outside line ∧
      (doc.foldStateAt form outside 0 (last + 1)).change =
        (if doc.opensBlock form doc.size line last then 1 else 0) ∧
      (doc.foldStateAt form outside 0 (last + 1)).visible = true := by
  have length := construct.length.1
  have low := construct.low
  have bound : line < doc.source.lines := Nat.lt_of_succ_lt more
  obtain ⟨change, -, previous⟩ := foldStateAt_lineStart table form outside bound
  -- From the line start to the keyword nothing happens, so no keyword is before it on the line.
  have rests := construct.rests table more (Nat.le_refl _) (by omega) construct.high
    (fun pos _ before => Nat.ne_of_lt before)
  have lineAt := ((alongside_self table form outside last).line₀).trans
    (Source.lineAt_of_lt table bound (by omega) construct.high)
  have effect : (doc.foldPass form outside 0).effectAt (doc.foldStateAt form outside 0 last) last =
      ⟨if doc.opensBlock form doc.size line last then 1 else 0, false⟩ := by
    rw [FoldPass.effectAt, rests.previous, previous, lineAt]
    exact wordEffect_of_constructWords (construct.wordBy_mem table) line last
  have ends := (construct.endsWord_iff (by omega) construct.high).2 rfl
  obtain ⟨looked_change, looked_level, -⟩ :=
    FoldPass.looked_of_endsWord (s := doc.foldStateAt form outside 0 last) ends
  rw [effect, rests.change, change, Int.zero_add] at looked_change
  rw [effect, Bool.false_and, if_neg Bool.false_ne_true, rests.level] at looked_level
  have visible : isSpace (doc.source.charD last ' ') = false :=
    isSpace_of_isNameChar (isNameChar_of_isAlpha (construct.isAlpha (by omega) (Nat.le_refl _)))
  have step : doc.foldStateAt form outside 0 (last + 1) =
      { (doc.foldPass form outside 0).looked (doc.foldStateAt form outside 0 last) last with
        visible := true } := by
    rw [foldStateAt_succ (foldStart_zero_le table last)]
    exact FoldPass.step_of_visible _ (not_ends_of_more table more (by omega) inLine) visible
  rw [step]
  exact ⟨looked_level, looked_change, rfl⟩

/-- What the line of a construct does to the levels. -/
theorem Construct.levels (fits : doc.Fits)
    (construct : doc.Construct form outside line first last opening closing)
    (more : line + 1 < doc.source.lines) (commentless : doc.source.commentColumn? form line = none) :
    (doc.folded form outside).levelAt line =
        FoldLevel.withFlags ⟨doc.levelBefore form outside line⟩
          ⟨false, doc.opensBlock form doc.size line last⟩ ∧
      doc.levelBefore form outside (line + 1) =
        doc.levelBefore form outside line +
          if doc.opensBlock form doc.size line last then 1 else 0 := by
  have table := fits.table
  obtain ⟨stop, ends, on_line, next⟩ := Source.exists_end_of_lt table more
  have line_end : doc.source.lineEnd line = stop + 1 := next.symm
  have isEnd := Source.isLineEnd_of_endsLineAt ' ' ends
  have high := construct.high
  have inLine : last < stop := by
    apply Nat.lt_of_le_of_ne (by omega)
    rintro rfl
    have letter := construct.isAlpha (by have := construct.length.1; omega) (Nat.le_refl last)
    rw [isAlpha_of_isLineEnd isEnd] at letter
    cases letter
  obtain ⟨level, change, visible⟩ := construct.stateAt_succ table more (by omega)
  have low : doc.source.lineStart line ≤ last + 1 := by
    have := construct.low
    have := construct.length.1
    omega
  -- From the keyword to the line end nothing happens again, and the line end takes the change over.
  have rests := construct.rests table more low inLine (by omega)
    (fun pos later _ => Nat.ne_of_gt later)
  have lineChange : (doc.foldPass form outside 0).lineChange (doc.foldStateAt form outside 0 stop) =
      if doc.opensBlock form doc.size line last then 1 else 0 := by
    rw [FoldPass.lineChange, rests.change, change]
    split
    · rename_i folds
      have tells := (alongside_self table form outside stop).tells₀ folds
        (FoldPass.Alongside.lt_lineCount_of_ends table ends)
      have none : doc.source.commentChange form (doc.source.lineAt stop) = 0 := by
        rw [on_line, Source.commentChange_of_none commentless]
      have change : (doc.foldStateAt form outside 0 stop).window.foldChange = 0 :=
        (CommentWindow.foldChange_of_tells tells).trans none
      rw [change, Int.add_zero]
    · rfl
  constructor
  · rw [← on_line, levelAt_folded_of_ends fits form outside ends, FoldPass.lineLevel,
      FoldPass.opensLine, lineChange, rests.visible visible, rests.level, level, on_line]
    cases doc.opensBlock form doc.size line last <;> rfl
  · obtain ⟨looked_level, looked_change⟩ := (doc.foldPass form outside 0).looked_frame_of_isLineEnd
      (doc.foldStateAt form outside 0 stop) isEnd
    have window := ((doc.foldPass form outside 0).looked_frame
      (doc.foldStateAt form outside 0 stop) stop).2.2.1
    rw [FoldPass.lineChange] at lineChange
    rw [levelBefore, ← next, foldStateAt_succ_of_ends (foldStart_zero_le table stop) ends,
      FoldPass.level_endLine, FoldPass.lineChange, looked_level, looked_change, window, lineChange,
      rests.level, level]

/-- A line opens a block: it is marked, and the next line starts one level further in. -/
def OpensAt (doc : Document) (form : SourceForm) (outside : Style) (line : Nat) : Prop :=
  (doc.folded form outside).levelAt line =
      FoldLevel.withFlags ⟨doc.levelBefore form outside line⟩ ⟨false, true⟩ ∧
    doc.levelBefore form outside (line + 1) = doc.levelBefore form outside line + 1

/-- A line leaves the level as it is, and is not marked. -/
def StaysAt (doc : Document) (form : SourceForm) (outside : Style) (line : Nat) : Prop :=
  (doc.folded form outside).levelAt line = ⟨doc.levelBefore form outside line⟩ ∧
    doc.levelBefore form outside (line + 1) = doc.levelBefore form outside line

theorem not_opensAt_of_staysAt (stays : doc.StaysAt form outside line) :
    ¬doc.OpensAt form outside line := by
  intro opens
  have up := opens.2
  rw [stays.2] at up
  omega

/-- With nothing after the control expression, a line opens a block, whatever lines the expression is
broken over; but in fixed form only if the lines after the one of the keyword show nothing of the
statement. With a statement after the control expression, it opens none. -/
theorem levels_of_construct (fits : doc.Fits)
    (construct : doc.Construct form outside line first last opening closing)
    (more : line + 1 < doc.source.lines) (commentless : doc.source.commentColumn? form line = none) :
    (doc.BlankToEnd closing →
      (doc.OpensAt form outside line ↔ (form = .fixed → doc.EndsAfter line)) ∧
      (doc.StaysAt form outside line ↔ ¬(form = .fixed → doc.EndsAfter line))) ∧
    (doc.ShowsAfter form closing → doc.StaysAt form outside line) := by
  have levels := construct.levels fits more commentless
  have stays (none : doc.opensBlock form doc.size line last = false) :
      doc.StaysAt form outside line := by
    rw [none, if_neg Bool.false_ne_true, Int.add_zero] at levels
    refine ⟨levels.1.trans ?_, levels.2⟩
    rw [FoldLevel.withFlags, Bool.false_and, Bool.false_and]
    exact congrArg FoldLevel.mk (Int.add_zero _)
  constructor
  · intro blank
    have opens : doc.opensBlock form doc.size line last = true ↔ (form = .fixed → doc.EndsAfter line) :=
      opensBlock_iff construct.controls blank
    rw [← opens]
    cases some : doc.opensBlock form doc.size line last with
    | true =>
      rw [some, if_pos rfl] at levels
      have opened : doc.OpensAt form outside line := levels
      exact ⟨iff_of_true opened rfl,
        iff_of_false (fun stays => not_opensAt_of_staysAt stays opened) (not_not_intro rfl)⟩
    | false =>
      exact ⟨iff_of_false (not_opensAt_of_staysAt (stays some)) Bool.false_ne_true,
        iff_of_true (stays some) Bool.false_ne_true⟩
  · exact fun shows => stays (opensBlock_of_showsAfter construct.controls shows)

/-- A masked assignment in free form, whose mask is broken over two lines. -/
def brokenMask : Document :=
  ofBytes #[119, 104, 101, 114, 101, 32, 40, 97, 32, 38, 10, 32, 32, 62, 32, 98, 41, 10, 32, 32, 99,
    32, 61, 32, 100, 10]

theorem levels_of_construct_brokenMask :
    let styled := brokenMask.styleRange .fortran .free 0 brokenMask.size .plain
    (styled.Construct .free .plain 0 0 4 6 16 ∧ styled.BlankToEnd 16) ∧
      styled.OpensAt .free .plain 0 := by
  have construct : (brokenMask.styleRange .fortran .free 0 brokenMask.size .plain).Construct .free
      .plain 0 0 4 6 16 := by decide +kernel
  have blank : (brokenMask.styleRange .fortran .free 0 brokenMask.size .plain).BlankToEnd 16 :=
    ⟨17, by decide, by decide +kernel, by decide +kernel⟩
  have levels := levels_of_construct (fits_styleRange (fits_ofBytes _) _ _ _ _ _) construct
    (by decide +kernel) (by decide +kernel)
  exact ⟨⟨construct, blank⟩, (levels.1 blank).1.2 (fun fixed => absurd fixed (by decide))⟩

/-- Where the statement ends after the control expression, a line opens a block, whatever lines the
expression is broken over. -/
def BlocksOpen (words : Dictionary) (form : SourceForm) : Prop :=
  ∀ (doc : Document) (line first last opening closing : Nat), doc.Fits →
    (doc.styleRange words form 0 doc.size .plain).Construct form .plain line first last opening
      closing →
    line + 1 < doc.source.lines → doc.source.commentColumn? form line = none →
    (doc.styleRange words form 0 doc.size .plain).BlankToEnd closing →
    (form = .fixed →
      (doc.styleRange words form 0 doc.size .plain).EndsAfter (doc.source.lineAt closing)) →
    (doc.styleRange words form 0 doc.size .plain).OpensAt form .plain line

/-- A masked assignment in fixed form, whose mask is broken over two lines. -/
def brokenMaskFixed : Document :=
  ofBytes #[32, 32, 32, 32, 32, 32, 119, 104, 101, 114, 101, 32, 40, 97, 10, 32, 32, 32, 32, 32, 38,
    32, 62, 98, 41, 10, 32, 32, 32, 32, 32, 32, 99, 61, 100, 10]

theorem not_blocksOpen_brokenMaskFixed : ¬BlocksOpen .fortran .fixed := by
  intro opens
  have construct : (brokenMaskFixed.styleRange .fortran .fixed 0 brokenMaskFixed.size
      .plain).Construct .fixed .plain 0 6 10 12 24 := by decide +kernel
  have blank : (brokenMaskFixed.styleRange .fortran .fixed 0 brokenMaskFixed.size
      .plain).BlankToEnd 24 :=
    ⟨25, by decide, by decide +kernel, by decide +kernel⟩
  have ended : (brokenMaskFixed.styleRange .fortran .fixed 0 brokenMaskFixed.size
      .plain).EndsAfter (brokenMaskFixed.source.lineAt 24) :=
    .initial (by decide +kernel) (by decide +kernel)
  have opened := opens brokenMaskFixed 0 6 10 12 24 (fits_ofBytes _) construct (by decide +kernel)
    (by decide +kernel) blank (fun _ => ended)
  exact absurd opened.2 (by decide +kernel)

end Document

end FortranMarkup
