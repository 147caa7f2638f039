import FortranMarkup.Proofs.Folding.Context
import FortranMarkup.Proofs.Folding.Passes
import FortranMarkup.Proofs.Folding.Recheck

/-!
# Folding from one line of context

A pass that resumes at a position reads one line before it, takes its level from there, and gives
the lines from there on the levels of a pass over the whole document — if the line before tells it
as much as the whole pass has read (`Document.ContextTells`). This condition is exact
(`Document.resumesAt_iff`), and not all documents meet it.
-/

namespace FortranMarkup

namespace Document

variable {doc : Document} {form : SourceForm} {outside : Style} {start : Nat}

/-- The document after a fold pass over all of it. -/
def folded (doc : Document) (form : SourceForm) (outside : Style) : Document :=
  doc.foldRange form 0 doc.size outside

/-- The levels of a pass over the whole document fit the level numbers wherever a line ends. -/
def LevelsFit (doc : Document) (form : SourceForm) (outside : Style) : Prop :=
  ∀ pos, endsLineAt doc.source.bytes pos = true →
    0 ≤ (doc.foldStateAt form outside 0 pos).level ∧
      (doc.foldStateAt form outside 0 pos).level ≤ 0xFFF

/-- A pass from a position on, with the levels of the whole pass on the lines before and any levels
from there on, gives each line that ends the level of the whole pass. -/
def ResumesAt (doc : Document) (form : SourceForm) (outside : Style) (start : Nat) : Prop :=
  ∀ levels : Array FoldLevel, levels.size = doc.levels.size →
    (∀ line, line < doc.source.lineAt start →
      levels[line]? = (doc.folded form outside).levels[line]?) →
    ∀ line, line + 1 < doc.source.lines →
      ({ doc with levels := levels }.foldRange form start (doc.size - start) outside).levelAt line =
        (doc.folded form outside).levelAt line

/-- The last byte of the line of context. -/
def contextEnd (doc : Document) (start : Nat) : Nat :=
  doc.source.lineStart (doc.source.lineAt start) - 1

/-- What a pass finds on its line of context, in a document with the levels of the whole pass, is
what the whole pass has found there. -/
structure ContextTells (doc : Document) (form : SourceForm) (outside : Style) (start : Nat) :
    Prop where
  /-- The levels of the comments before are right already. -/
  kept : ∀ line, line < doc.source.lineAt start - 1 →
    ((doc.folded form outside).rechecked form outside start).levelAt line =
      (doc.folded form outside).levelAt line
  /-- So is the nesting number of the line. -/
  number : (((doc.folded form outside).rechecked form outside start).levelAt
      (doc.source.lineAt start - 1)).number =
    ((doc.folded form outside).levelAt (doc.source.lineAt start - 1)).number
  /-- The line opens a block for both passes, or for none. -/
  opens : ((doc.folded form outside).foldPass form outside start).opensLine
      ((doc.folded form outside).foldStateAt form outside start (doc.contextEnd start)) =
    (doc.foldPass form outside 0).opensLine (doc.foldStateAt form outside 0 (doc.contextEnd start))
  /-- The keywords of the line take the next one as far in, if that one ends. -/
  change : doc.source.lineAt start + 1 < doc.source.lines →
    ((doc.folded form outside).foldStateAt form outside start (doc.contextEnd start)).change =
      (doc.foldStateAt form outside 0 (doc.contextEnd start)).change

/-! ## What the levels from the position on are does not matter -/

theorem levelAt_rechecked_agree {levels₁ levels₂ : Array FoldLevel}
    (sizes : levels₁.size = levels₂.size)
    (agree : ∀ line, line ≤ doc.source.lineAt start - 1 → levels₁[line]? = levels₂[line]?)
    {line : Nat} (le : line ≤ doc.source.lineAt start - 1) :
    (rechecked { doc with levels := levels₁ } form outside start).levelAt line =
      (rechecked { doc with levels := levels₂ } form outside start).levelAt line := by
  have same : (rechecked { doc with levels := levels₁ } form outside start).levels[line]? =
      (rechecked { doc with levels := levels₂ } form outside start).levels[line]? := by
    change (if (doc.foldPass form outside start).foldsComments then _ else levels₁)[line]? =
      (if (doc.foldPass form outside start).foldsComments then _ else levels₂)[line]?
    split
    · exact CommentWindow.recheckLines_agree _ _ _ sizes agree none line le
    · exact agree line le
  rw [levelAt, levelAt, same]

theorem levelAt_foldRange_agree {levels₁ levels₂ : Array FoldLevel}
    (fits₁ : Fits { doc with levels := levels₁ }) (fits₂ : Fits { doc with levels := levels₂ })
    (agree : ∀ line, line < doc.source.lineAt start → levels₁[line]? = levels₂[line]?)
    {line : Nat} (more : line + 1 < doc.source.lines) :
    (foldRange { doc with levels := levels₁ } form start (doc.size - start) outside).levelAt line =
      (foldRange { doc with levels := levels₂ } form start (doc.size - start) outside).levelAt
        line := by
  have sizes : levels₁.size = levels₂.size := fits₁.levels.trans fits₂.levels.symm
  have agree' : ∀ line, line ≤ doc.source.lineAt start - 1 → 0 < doc.source.lineAt start →
      levels₁[line]? = levels₂[line]? :=
    fun line le later => agree line (by omega)
  rcases Nat.lt_or_ge line (doc.source.lineAt start - 1) with less | ge
  · have before₁ : (foldRange { doc with levels := levels₁ } form start _ outside).levelAt line = _ :=
      levelAt_foldRange_of_lt less
    have before₂ : (foldRange { doc with levels := levels₂ } form start _ outside).levelAt line = _ :=
      levelAt_foldRange_of_lt less
    refine before₁.trans ((levelAt_rechecked_agree sizes ?_ (Nat.le_of_lt less)).trans before₂.symm)
    exact fun line le => agree' line le (by omega)
  · obtain ⟨pos, ends, rfl, -⟩ := Source.exists_end_of_lt fits₁.table more
    have le : doc.foldStart start ≤ pos :=
      Nat.le_trans (Source.lineStart_mono fits₁.table ge) (Source.lineStart_lineAt_le fits₁.table pos)
    have level : (foldLevel { doc with levels := levels₁ } form outside start).number =
        (foldLevel { doc with levels := levels₂ } form outside start).number := by
      change FoldLevel.number (if doc.source.lineAt start = 0 then _ else _) =
        FoldLevel.number (if doc.source.lineAt start = 0 then _ else _)
      split
      · rfl
      · rename_i later
        exact congrArg FoldLevel.number (levelAt_rechecked_agree sizes
          (fun line le => agree' line le (Nat.pos_of_ne_zero later)) (Nat.le_refl _))
    have states : foldStateAt { doc with levels := levels₁ } form outside start pos =
        foldStateAt { doc with levels := levels₂ } form outside start pos :=
      foldStateAt_congr rfl rfl rfl rfl (foldBegun_congr rfl rfl level)
    have emits₁ : (foldRange { doc with levels := levels₁ } form start _ outside).levelAt _ = _ :=
      levelAt_foldRange_of_ends fits₁ le ends
    have emits₂ : (foldRange { doc with levels := levels₂ } form start _ outside).levelAt _ = _ :=
      levelAt_foldRange_of_ends fits₂ le ends
    refine emits₁.trans (Eq.trans ?_ emits₂.symm)
    rw [states]
    rfl

theorem foldBegun_of_first (table : doc.source.Tabled) (first : doc.source.lineAt start = 0)
    (levels : Array FoldLevel) :
    foldBegun { doc with levels := levels } form outside start = doc.foldBegun form outside 0 := by
  simp only [foldBegun, foldLevel, foldWindow, foldPass, foldStart, first, Source.lineAt_zero table,
    if_true]
  rfl

theorem fits_withLevels (fits : doc.Fits) {levels : Array FoldLevel}
    (size : levels.size = doc.levels.size) : Fits { doc with levels := levels } :=
  ⟨fits.table, fits.styles, size.trans fits.levels⟩

theorem resumesAt_of_first (fits : doc.Fits) (first : doc.source.lineAt start = 0) :
    doc.ResumesAt form outside start := by
  intro levels size _ line more
  obtain ⟨pos, ends, rfl, -⟩ := Source.exists_end_of_lt fits.table more
  have starts : doc.foldStart start = 0 := by
    rw [foldStart, first, Source.lineStart_zero fits.table]
  have states : foldStateAt { doc with levels := levels } form outside start pos =
      doc.foldStateAt form outside 0 pos := by
    refine foldStateAt_congr rfl rfl rfl ?_ (foldBegun_of_first fits.table first levels)
    change doc.source.lineAt start - 1 = doc.source.lineAt 0 - 1
    rw [first, Source.lineAt_zero fits.table]
  have emits₁ : (foldRange { doc with levels := levels } form start _ outside).levelAt _ = _ :=
    levelAt_foldRange_of_ends (fits_withLevels fits size)
      (Nat.le_trans (Nat.le_of_eq starts) (Nat.zero_le _)) ends
  have emits₂ : (doc.folded form outside).levelAt _ = _ :=
    levelAt_foldRange_of_ends fits (foldStart_zero_le fits.table pos) ends
  refine emits₁.trans (Eq.trans ?_ emits₂.symm)
  rw [states]
  rfl

/-! ## The line of context -/

theorem sameText_folded (doc : Document) (form : SourceForm) (outside : Style) (start : Nat) :
    (doc.foldPass form outside 0).SameText
      ((doc.folded form outside).foldPass form outside start) :=
  ⟨rfl, rfl, rfl, rfl, rfl, rfl⟩

theorem foldStateAt_lineStart (table : doc.source.Tabled) (form : SourceForm) (outside : Style)
    {line : Nat} (bound : line < doc.source.lines) :
    (doc.foldStateAt form outside 0 (doc.source.lineStart line)).change = 0 ∧
      (doc.foldStateAt form outside 0 (doc.source.lineStart line)).visible = false ∧
      (doc.foldStateAt form outside 0 (doc.source.lineStart line)).previous = "" := by
  have starts := Source.startsLine_lineStart table bound
  generalize doc.source.lineStart line = pos at starts
  rw [foldStateAt, foldStart_zero table]
  cases pos with
  | zero =>
    rw [FoldPass.after_self]
    exact ⟨rfl, rfl, rfl⟩
  | succ pos => exact FoldPass.after_end (Nat.zero_le _) (Source.startsLine_succ.1 starts)

theorem tells_foldWindow (doc : Document) (folds : (doc.foldPass form outside start).foldsComments = true) :
    (doc.foldWindow form outside start).Tells doc.source form (doc.source.lineAt start - 1) := by
  rw [foldWindow, if_pos folds]
  exact CommentWindow.tells_around _ _ _

theorem alongside_self (table : doc.source.Tabled) (form : SourceForm) (outside : Style) (pos : Nat) :
    (doc.foldPass form outside 0).Alongside (doc.foldPass form outside 0) pos
      (doc.foldStateAt form outside 0 pos) (doc.foldStateAt form outside 0 pos) := by
  have tells : (doc.foldPass form outside 0).foldsComments = true →
      doc.source.lineAt 0 < doc.source.lineCount →
      (doc.foldBegun form outside 0).window.Tells doc.source form (doc.source.lineAt 0) := by
    intro folds _
    have tells := tells_foldWindow doc folds
    rwa [Source.lineAt_zero table] at tells ⊢
  have begun : (doc.foldPass form outside 0).Alongside (doc.foldPass form outside 0) 0
      (doc.foldBegun form outside 0) (doc.foldBegun form outside 0) := by
    refine ⟨rfl, Nat.le_of_eq (foldStart_zero table), Nat.le_of_eq (foldStart_zero table), ?_, ?_,
      ?_, tells, tells⟩
    · exact decide_eq_false (fun later => later (Source.lineAt_zero table))
    · exact (line_foldBegun table form outside 0).trans (congrArg _ (foldStart_zero table))
    · exact (line_foldBegun table form outside 0).trans (congrArg _ (foldStart_zero table))
  rw [foldStateAt, foldStart_zero table]
  exact begun.after table ⟨rfl, rfl, rfl, rfl, rfl, rfl⟩ (Nat.zero_le pos)

/-- The word that the whole pass has at hand where a line begins is of no use. -/
theorem useless_lineStart (table : doc.source.Tabled) (form : SourceForm) (outside : Style)
    {line : Nat} (bound : line < doc.source.lines) :
    doc.source.lineStart line = 0 ∨ (doc.foldPass form outside 0).Useless
      (doc.foldStateAt form outside 0 (doc.source.lineStart line)).wordStart
      (doc.source.lineStart line) := by
  have starts := Source.startsLine_lineStart table bound
  generalize doc.source.lineStart line = pos at starts
  cases pos with
  | zero => exact .inl rfl
  | succ pos =>
    have ends := Source.startsLine_succ.1 starts
    have self := alongside_self table form outside pos
    have start : (doc.foldStateAt form outside 0 (pos + 1)).wordStart =
        ((doc.foldPass form outside 0).looked (doc.foldStateAt form outside 0 pos) pos).wordStart := by
      rw [foldStateAt_succ_of_ends (foldStart_zero_le table pos) ends]
      rfl
    rw [start]
    exact .inr (FoldPass.useless_of_le self.looked.start_le₀ ends)

/-- The whole pass and the resumed one are near each other where the line of context begins. -/
theorem near_foldBegun (fits : doc.Fits) :
    (doc.foldPass form outside 0).Near ((doc.folded form outside).foldPass form outside start)
      (doc.foldStart start) (doc.foldStateAt form outside 0 (doc.foldStart start))
      ((doc.folded form outside).foldBegun form outside start) := by
  have bound := Source.lineAt_lt_lines fits.table start
  have lineAt : doc.source.lineAt (doc.foldStart start) = doc.source.lineAt start - 1 :=
    Source.lineAt_lineStart fits.table (by omega)
  have self := alongside_self fits.table form outside (doc.foldStart start)
  obtain ⟨change, visible, previous⟩ :=
    foldStateAt_lineStart fits.table form outside
      (show doc.source.lineAt start - 1 < doc.source.lines by omega)
  rw [← foldStart] at change visible previous
  have alongside : (doc.foldPass form outside 0).Alongside
      ((doc.folded form outside).foldPass form outside start) (doc.foldStart start)
      (doc.foldStateAt form outside 0 (doc.foldStart start))
      ((doc.folded form outside).foldBegun form outside start) := by
    have same : ((doc.folded form outside).foldBegun form outside start).wordStart =
        doc.foldStart start := rfl
    refine ⟨visible, self.start_le₀, Nat.le_of_eq same, self.inRange, self.line₀, ?_, self.tells₀,
      ?_⟩
    · exact @line_foldBegun (doc.folded form outside) fits.table form outside start
    · intro folds _
      change CommentWindow.Tells doc.source form (doc.source.lineAt (doc.foldStart start)) _
      rw [lineAt]
      exact tells_foldWindow (doc.folded form outside) folds
  refine ⟨alongside, ?_, ?_, ?_, ?_⟩
  · rw [change]
    exact (by decide : (-9 : Int) ≤ 0 - 0)
  · rw [change]
    exact (by decide : (0 : Int) - 0 ≤ 9)
  · intro other
    exact absurd (congrArg knownWord previous) other
  · rcases useless_lineStart fits.table form outside
      (show doc.source.lineAt start - 1 < doc.source.lines by omega) with first | useless
    · have at_zero : (doc.foldStateAt form outside 0 (doc.foldStart start)).wordStart = 0 :=
        Nat.le_zero.1 (Nat.le_trans self.start_le₀ (Nat.le_of_eq first))
      exact .inl (.inl (at_zero.trans first.symm))
    · exact .inr ⟨change.symm, congrArg knownWord previous, useless⟩

theorem contextEnd_spec (table : doc.source.Tabled) (later : 0 < doc.source.lineAt start) :
    endsLineAt doc.source.bytes (doc.contextEnd start) = true ∧
      doc.source.lineAt (doc.contextEnd start) = doc.source.lineAt start - 1 ∧
      doc.contextEnd start + 1 = doc.source.lineStart (doc.source.lineAt start) ∧
      doc.foldStart start ≤ doc.contextEnd start := by
  have bound := Source.lineAt_lt_lines table start
  obtain ⟨pos, ends, line, next⟩ :=
    Source.exists_end_of_lt table
      (show doc.source.lineAt start - 1 + 1 < doc.source.lines by omega)
  rw [Nat.sub_add_cancel later] at next
  have here : doc.contextEnd start = pos := by
    rw [contextEnd]
    omega
  rw [here, foldStart, ← line]
  exact ⟨ends, rfl, next, Source.lineStart_lineAt_le table pos⟩

theorem lineAt_le_of_past (table : doc.source.Tabled) (later : 0 < doc.source.lineAt start)
    {pos : Nat} (past : doc.contextEnd start < pos) :
    doc.source.lineAt start ≤ doc.source.lineAt pos := by
  have next := (contextEnd_spec table later).2.2.1
  have mono := Source.lineAt_mono table (Nat.succ_le_of_lt past)
  rwa [Nat.succ_eq_add_one, next,
    Source.lineAt_lineStart table (Source.lineAt_lt_lines table start)] at mono

theorem not_ends_in_context (table : doc.source.Tabled) (later : 0 < doc.source.lineAt start)
    {between : Nat} (low : doc.foldStart start ≤ between) (high : between < doc.contextEnd start) :
    ¬endsLineAt doc.source.bytes between = true := by
  have bound := Source.lineAt_lt_lines table start
  have line := (contextEnd_spec table later).2.1
  have mono := Source.lineAt_mono table low
  rw [foldStart, Source.lineAt_lineStart table (by omega)] at mono
  have mono' := Source.lineAt_mono table (Nat.le_of_lt high)
  exact Source.not_ends_of_lt table high (by omega)

theorem near_contextEnd (fits : doc.Fits) (form : SourceForm) (outside : Style)
    (later : 0 < doc.source.lineAt start) :
    (doc.foldPass form outside 0).Near ((doc.folded form outside).foldPass form outside start)
      (doc.contextEnd start) (doc.foldStateAt form outside 0 (doc.contextEnd start))
      ((doc.folded form outside).foldStateAt form outside start (doc.contextEnd start)) := by
  have le := (contextEnd_spec fits.table later).2.2.2
  rw [← after_foldStateAt doc form outside (foldStart_zero_le fits.table _) le]
  exact (near_foldBegun fits).after fits.table (sameText_folded doc form outside start) le
    (fun between low high => not_ends_in_context fits.table later low high)

theorem level_contextEnd (fits : doc.Fits) (form : SourceForm) (outside : Style)
    (later : 0 < doc.source.lineAt start) :
    ((doc.folded form outside).foldStateAt form outside start (doc.contextEnd start)).level =
      (((doc.folded form outside).rechecked form outside start).levelAt
        (doc.source.lineAt start - 1)).number := by
  have le := (contextEnd_spec fits.table later).2.2.2
  have context : ((doc.folded form outside).foldBegun form outside start).isContext = true :=
    decide_eq_true (Nat.ne_of_gt later)
  refine (FoldPass.context_after context le ?_).2.trans ?_
  · exact fun between low high => not_ends_in_context fits.table later low high
  · exact congrArg FoldLevel.number (if_neg (Nat.ne_of_gt later))

/-- By how many blocks the resumed pass is too deep after the line of context. -/
def drift (doc : Document) (form : SourceForm) (outside : Style) (start : Nat) : Int :=
  let resumed := (doc.folded form outside).foldStateAt form outside start (doc.contextEnd start)
  let whole := doc.foldStateAt form outside 0 (doc.contextEnd start)
  resumed.level + resumed.change - (whole.level + whole.change)

/-- After the line of context both passes go on alike. -/
theorem follows_context (fits : doc.Fits) (form : SourceForm) (outside : Style)
    (later : 0 < doc.source.lineAt start) {pos : Nat}
    (past : doc.contextEnd start < pos) :
    (doc.foldPass form outside 0).Follows ((doc.folded form outside).foldPass form outside start)
      (doc.drift form outside start) pos (doc.foldStateAt form outside 0 pos)
      ((doc.folded form outside).foldStateAt form outside start pos) := by
  obtain ⟨ends, -, -, le⟩ := contextEnd_spec fits.table later
  have same := sameText_folded doc form outside start
  have near := near_contextEnd fits form outside later
  have lineEnd := Source.isLineEnd_of_endsLineAt ' ' ends
  have ended := near.alongside.looked.endLine fits.table same ends
  have frame₀ := (doc.foldPass form outside 0).looked_frame_of_isLineEnd
    (doc.foldStateAt form outside 0 (doc.contextEnd start)) lineEnd
  have frame₁ := ((doc.folded form outside).foldPass form outside start).looked_frame_of_isLineEnd
    ((doc.folded form outside).foldStateAt form outside start (doc.contextEnd start)) lineEnd
  rw [frame₀.1, frame₀.2, frame₁.1, frame₁.2, ← foldStateAt_succ_of_ends
    (foldStart_zero_le fits.table _) ends] at ended
  have begun : ((doc.folded form outside).foldStateAt form outside start (doc.contextEnd start + 1)) =
      _ := foldStateAt_succ_of_ends le ends
  rw [← begun] at ended
  have far := ended.after fits.table same past
  have reach₀ := after_foldStateAt doc form outside
    (foldStart_zero_le fits.table (doc.contextEnd start + 1)) past
  have reach₁ : _ = (doc.folded form outside).foldStateAt form outside start pos :=
    after_foldStateAt (doc.folded form outside) form outside (Nat.le_succ_of_le le) past
  rw [reach₀, reach₁] at far
  exact far

/-! ## The exact condition -/

theorem folded_eq (doc : Document) (form : SourceForm) (outside : Style) :
    doc.folded form outside = { doc with levels := (doc.folded form outside).levels } := rfl

theorem levelAt_folded_of_ends (fits : doc.Fits) (form : SourceForm) (outside : Style) {pos : Nat}
    (ends : endsLineAt doc.source.bytes pos = true) :
    (doc.folded form outside).levelAt (doc.source.lineAt pos) =
      (doc.foldPass form outside 0).lineLevel (doc.foldStateAt form outside 0 pos) :=
  levelAt_foldRange_of_ends fits (foldStart_zero_le fits.table pos) ends

theorem levelAt_resumed_of_ends (fits : doc.Fits) (form : SourceForm) (outside : Style) {pos : Nat}
    (le : doc.foldStart start ≤ pos) (ends : endsLineAt doc.source.bytes pos = true) :
    ((doc.folded form outside).foldRange form start (doc.size - start) outside).levelAt
        (doc.source.lineAt pos) =
      ((doc.folded form outside).foldPass form outside start).lineLevel
        ((doc.folded form outside).foldStateAt form outside start pos) :=
  levelAt_foldRange_of_ends (fits_foldRange fits form 0 doc.size outside) le ends

theorem levelAt_resumed_of_lt (doc : Document) (form : SourceForm) (outside : Style) {start line : Nat}
    (less : line < doc.source.lineAt start - 1) :
    ((doc.folded form outside).foldRange form start (doc.size - start) outside).levelAt line =
      ((doc.folded form outside).rechecked form outside start).levelAt line :=
  @levelAt_foldRange_of_lt (doc.folded form outside) form outside start line less

theorem number_context (fits : doc.Fits) (inRange : doc.LevelsFit form outside)
    (later : 0 < doc.source.lineAt start) :
    ((doc.folded form outside).levelAt (doc.source.lineAt start - 1)).number =
      (doc.foldStateAt form outside 0 (doc.contextEnd start)).level := by
  obtain ⟨ends, line, -, -⟩ := contextEnd_spec fits.table later
  obtain ⟨low, high⟩ := inRange _ ends
  rw [← line, levelAt_folded_of_ends fits form outside ends]
  exact FoldLevel.number_withFlags low high _

theorem drift_eq (fits : doc.Fits) (inRange : doc.LevelsFit form outside)
    (later : 0 < doc.source.lineAt start)
    (number : (((doc.folded form outside).rechecked form outside start).levelAt
        (doc.source.lineAt start - 1)).number =
      ((doc.folded form outside).levelAt (doc.source.lineAt start - 1)).number) :
    doc.drift form outside start =
      ((doc.folded form outside).foldStateAt form outside start (doc.contextEnd start)).change -
        (doc.foldStateAt form outside 0 (doc.contextEnd start)).change := by
  have level := level_contextEnd fits form outside later
  rw [number, number_context fits inRange later] at level
  unfold drift
  dsimp only
  omega

theorem marksWhite_folded (doc : Document) (form : SourceForm) (outside : Style) (start : Nat) :
    ((doc.folded form outside).foldPass form outside start).marksWhite =
      (doc.foldPass form outside 0).marksWhite := rfl

theorem levelAt_resumed_of_tells (fits : doc.Fits) (inRange : doc.LevelsFit form outside)
    (later : 0 < doc.source.lineAt start) (tells : doc.ContextTells form outside start) {line : Nat}
    (more : line + 1 < doc.source.lines) :
    ((doc.folded form outside).foldRange form start (doc.size - start) outside).levelAt line =
      (doc.folded form outside).levelAt line := by
  rcases Nat.lt_or_ge line (doc.source.lineAt start - 1) with less | ge
  · exact (levelAt_resumed_of_lt doc form outside less).trans (tells.kept line less)
  · obtain ⟨pos, ends, rfl, -⟩ := Source.exists_end_of_lt fits.table more
    have le : doc.foldStart start ≤ pos :=
      Nat.le_trans (Source.lineStart_mono fits.table ge) (Source.lineStart_lineAt_le fits.table pos)
    obtain ⟨ends', line, -, -⟩ := contextEnd_spec fits.table later
    rw [levelAt_resumed_of_ends fits form outside le ends, levelAt_folded_of_ends fits form outside ends]
    rcases Nat.lt_trichotomy pos (doc.contextEnd start) with less | rfl | past
    · exact absurd ends (not_ends_in_context fits.table later le less)
    · have visible := (near_contextEnd fits form outside later).alongside.visible
      have level := level_contextEnd fits form outside later
      rw [tells.number, number_context fits inRange later] at level
      rw [FoldPass.lineLevel, FoldPass.lineLevel, level, tells.opens, visible, marksWhite_folded]
    · have change := tells.change (Nat.lt_of_le_of_lt
        (Nat.succ_le_succ (lineAt_le_of_past fits.table later past)) more)
      have drift := drift_eq fits inRange later tells.number
      rw [change, Int.sub_self] at drift
      have far := (follows_context fits form outside later past).lineLevel_eq fits.table
        (sameText_folded doc form outside start) ends
      rw [drift, Int.add_zero] at far
      exact far

theorem tells_of_levelAt_resumed (fits : doc.Fits) (inRange : doc.LevelsFit form outside)
    (later : 0 < doc.source.lineAt start)
    (resumed : ∀ line, line + 1 < doc.source.lines →
      ((doc.folded form outside).foldRange form start (doc.size - start) outside).levelAt line =
        (doc.folded form outside).levelAt line) : doc.ContextTells form outside start := by
  have bound := Source.lineAt_lt_lines fits.table start
  obtain ⟨ends, line, next, le⟩ := contextEnd_spec fits.table later
  obtain ⟨low, high⟩ := inRange _ ends
  have near := near_contextEnd fits form outside later
  -- The line of context has the same level, so the same number and the same flags.
  have here := resumed (doc.source.lineAt start - 1) (by omega)
  rw [← line, levelAt_resumed_of_ends fits form outside le ends,
    levelAt_folded_of_ends fits form outside ends] at here
  have start_level := level_contextEnd fits form outside later
  have level : ((doc.folded form outside).foldStateAt form outside start
        (doc.contextEnd start)).level =
      (doc.foldStateAt form outside 0 (doc.contextEnd start)).level := by
    have bounds := FoldLevel.number_bounds (((doc.folded form outside).rechecked form outside
      start).levelAt (doc.source.lineAt start - 1))
    rw [← start_level] at bounds
    have numbers := congrArg FoldLevel.number here
    rwa [FoldPass.lineLevel, FoldPass.lineLevel, FoldLevel.number_withFlags low high,
      FoldLevel.number_withFlags bounds.1 bounds.2] at numbers
  have number : (((doc.folded form outside).rechecked form outside start).levelAt
        (doc.source.lineAt start - 1)).number =
      ((doc.folded form outside).levelAt (doc.source.lineAt start - 1)).number := by
    rw [number_context fits inRange later, ← level, start_level]
  have opens : ((doc.folded form outside).foldPass form outside start).opensLine
        ((doc.folded form outside).foldStateAt form outside start (doc.contextEnd start)) =
      (doc.foldPass form outside 0).opensLine
        (doc.foldStateAt form outside 0 (doc.contextEnd start)) := by
    rw [FoldPass.lineLevel, FoldPass.lineLevel, level, ← near.alongside.visible,
      marksWhite_folded] at here
    exact FoldLevel.header_of_withFlags low high here
  refine ⟨?_, number, opens, ?_⟩
  · intro line less
    rw [← levelAt_resumed_of_lt doc form outside less]
    exact resumed line (by omega)
  · intro more
    -- The level of the next line tells how far apart the two passes are.
    obtain ⟨pos, ends, line', -⟩ := Source.exists_end_of_lt fits.table more
    have past : doc.contextEnd start < pos := by
      rcases Nat.lt_or_ge (doc.contextEnd start) pos with past | before
      · exact past
      · have mono := Source.lineAt_mono fits.table before
        omega
    have drift := drift_eq fits inRange later number
    have emits := (follows_context fits form outside later past).lineLevel_eq fits.table
      (sameText_folded doc form outside start) ends
    have there := resumed (doc.source.lineAt pos) (line' ▸ more)
    rw [levelAt_resumed_of_ends fits form outside (Nat.le_of_lt (Nat.lt_of_le_of_lt le past)) ends,
      levelAt_folded_of_ends fits form outside ends, emits] at there
    have none := FoldLevel.drift_of_withFlags (drift ▸ near.low) (drift ▸ near.high) there
    omega

/-- Folding that resumes at a position leaves the levels of the whole pass exactly if the position
is on the first line or the line before tells the pass as much as the whole pass has found there. -/
theorem resumesAt_iff (fits : doc.Fits) (inRange : doc.LevelsFit form outside) :
    doc.ResumesAt form outside start ↔
      doc.source.lineAt start = 0 ∨ doc.ContextTells form outside start := by
  have independent : ∀ levels : Array FoldLevel, levels.size = doc.levels.size →
      (∀ line, line < doc.source.lineAt start →
        levels[line]? = (doc.folded form outside).levels[line]?) →
      ∀ line, line + 1 < doc.source.lines →
        ({ doc with levels := levels }.foldRange form start (doc.size - start) outside).levelAt
            line =
          ((doc.folded form outside).foldRange form start (doc.size - start) outside).levelAt
            line := by
    intro levels size agree line more
    have whole_fits := fits_foldRange fits form 0 doc.size outside
    rw [folded_eq]
    exact levelAt_foldRange_agree (fits_withLevels fits size)
      (fits_withLevels fits (size_levels_foldRange doc form 0 doc.size outside)) agree more
  constructor
  · intro resumes
    rcases Nat.eq_zero_or_pos (doc.source.lineAt start) with first | later
    · exact .inl first
    · refine .inr (tells_of_levelAt_resumed fits inRange later ?_)
      intro line more
      have size := size_levels_foldRange doc form 0 doc.size outside
      exact resumes (doc.folded form outside).levels size (fun _ _ => rfl) line more
  · intro first_or_tells
    rcases first_or_tells with first | tells
    · exact resumesAt_of_first fits first
    · rcases Nat.eq_zero_or_pos (doc.source.lineAt start) with first | later
      · exact resumesAt_of_first fits first
      · intro levels size agree line more
        rw [independent levels size agree line more]
        exact levelAt_resumed_of_tells fits inRange later tells more

theorem levelsFit_of_size (fit : ∀ pos, pos < doc.size → endsLineAt doc.source.bytes pos = true →
    0 ≤ (doc.foldStateAt form outside 0 pos).level ∧
      (doc.foldStateAt form outside 0 pos).level ≤ 0xFFF) : doc.LevelsFit form outside :=
  fun pos ends => fit pos (Source.lt_size_of_endsLineAt ends) ends

/-- A branch inside a loop, styled. -/
def nestedBranch : Document :=
  let bytes : Array UInt8 :=
    #[100, 111, 10, 105, 102, 32, 40, 97, 41, 32, 116, 104, 101, 110, 10, 120, 32, 61, 32, 49, 10,
      101, 110, 100, 32, 105, 102, 10, 101, 110, 100, 32, 100, 111, 10]
  (ofBytes bytes).styleRange .fortran .free 0 35 .plain

theorem resumesAt_nestedBranch :
    nestedBranch.LevelsFit .free .plain ∧ nestedBranch.ResumesAt .free .plain 15 := by
  have fits : nestedBranch.Fits := ⟨rfl, by decide +kernel, by decide +kernel⟩
  have inRange : nestedBranch.LevelsFit .free .plain := levelsFit_of_size (by decide +kernel)
  have tells : nestedBranch.ContextTells .free .plain 15 :=
    ⟨by decide +kernel, by decide +kernel, by decide +kernel, by decide +kernel⟩
  exact ⟨inRange, (resumesAt_iff fits inRange).2 (.inr tells)⟩

/-- A loop with a literal that is not closed on the line before its end, styled. -/
def unclosedLiteral : Document :=
  let bytes : Array UInt8 :=
    #[100, 111, 10, 120, 32, 61, 32, 39, 105, 116, 10, 101, 110, 100, 100, 111, 10, 121, 32, 61, 32,
      49, 10, 122, 32, 61, 32, 50, 10]
  (ofBytes bytes).styleRange .fortran .free 0 29 .plain

/-- Folding does not always resume: the word after the literal begins no keyword for the whole pass,
and one for the pass whose line of context begins with it. -/
theorem not_resumesAt_unclosedLiteral :
    unclosedLiteral.LevelsFit .free .plain ∧ ¬unclosedLiteral.ResumesAt .free .plain 17 := by
  refine ⟨levelsFit_of_size (by decide +kernel), ?_⟩
  intro resumes
  have size := size_levels_foldRange unclosedLiteral .free 0 unclosedLiteral.size .plain
  have same := resumes _ size (fun _ _ => rfl) 3 (by decide +kernel)
  revert same
  decide +kernel

end Document

end FortranMarkup
