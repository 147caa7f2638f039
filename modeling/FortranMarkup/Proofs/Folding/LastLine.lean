import FortranMarkup.Proofs.Folding.ConstructEnd
import FortranMarkup.Proofs.Folding.Restart

/-!
# A fold pass and a line end for the last line

A pass over a text whose last line has no line end, and one over the same text with a line feed
there, do the same before the last line, but for `forall` and `where`: whether these open a block is
read from the text after them, which may go on to the end (`FoldPass.opensMask`). Some open one in the
second text only (`FoldPass.opensLate`), and by the number of those the levels of the lines before the
last differ (`Document.EndsLast.number_folded`).
-/

namespace FortranMarkup

namespace FoldLevel

/-- Flags leave the number of a level as it is. -/
theorem number_withFlags_mk (n : Int) (flags : FoldFlags) :
    ((FoldLevel.mk n).withFlags flags).number = n % 0x1000 := by
  obtain ⟨k, bits⟩ := exists_bits ⟨flags.white && !(FoldLevel.mk n).isWhite,
    flags.header && !(FoldLevel.mk n).isHeader⟩
  rw [withFlags, bits, number]
  dsimp only
  omega

end FoldLevel

namespace FoldPass

/-- Whether a keyword opens a block because nothing follows its control expression. -/
def maskOpens (pass : FoldPass) (line pos : Nat) (word previous : String) : Bool :=
  decide (word = "forall" ∨ (word = "where" ∧ previous ≠ "else")) &&
    decide (previous ≠ "end" ∧ pass.doc.opensBlock pass.form pass.stop line pos)

/-- Whether a keyword ends at a position that opens a block so. -/
def opensMask (pass : FoldPass) (s : FoldState) (pos : Nat) : Bool :=
  pass.endsWord pos && pass.maskOpens (pass.line s) pos (pass.wordBy s pos) s.previous

/-- Two states that differ at most by some blocks in the level of the line, and by some in its
change. -/
structure Apart (before here : Nat) (s₁ s₂ : FoldState) : Prop where
  level : s₂.level = s₁.level + before
  change : s₂.change = s₁.change + here
  visible : s₂.visible = s₁.visible
  isContext : s₂.isContext = s₁.isContext
  previous : s₂.previous = s₁.previous
  wordStart : s₂.wordStart = s₁.wordStart
  window : s₂.window = s₁.window
  emitted : s₂.emitted.size = s₁.emitted.size

/-- Two passes over all of a document without a last line end and of the one with it. -/
structure EndsLast (p₁ p₂ : FoldPass) : Prop where
  doc : p₁.doc.EndsLast p₁.form p₂.doc
  form : p₂.form = p₁.form
  outside : p₂.outside = p₁.outside
  firstLine : p₂.firstLine = p₁.firstLine
  stop₁ : p₁.stop = p₁.doc.size
  stop₂ : p₂.stop = p₂.doc.size

namespace EndsLast

variable {p₁ p₂ : FoldPass} (ends : EndsLast p₁ p₂) {pos : Nat}
include ends

theorem stop_eq : p₂.stop = p₁.stop + 1 := by
  rw [ends.stop₂, ends.stop₁, ends.doc.size_eq]

theorem lastStart_lt_stop : p₁.doc.source.lastStart < p₁.stop :=
  ends.stop₁ ▸ ends.doc.lastStart_lt

theorem notes_iff (less : pos < p₁.doc.source.lastStart) : p₂.Notes pos ↔ p₁.Notes pos := by
  have before : p₂.doc.styleBefore pos p₂.outside = p₁.doc.styleBefore pos p₁.outside := by
    unfold Document.styleBefore
    split
    · exact ends.outside
    · exact ends.doc.styleAt _ (by omega)
  simp only [Notes, afterSeparator, before, ends.form, ends.doc.styleAt pos less]

theorem endsWord_eq (less : pos < p₁.doc.source.lastStart) : p₂.endsWord pos = p₁.endsWord pos := by
  have next : pos + 1 < p₁.doc.source.size :=
    Nat.lt_of_le_of_lt (Nat.succ_le_of_lt less) ends.doc.source.lastStart_lt
  rw [endsWord, endsWord, ends.doc.styleAt pos less, ends.doc.charD_eq less,
    ends.doc.source.charD_eq next]

/-- After the last byte of a keyword there is another byte on its line. -/
theorem succ_lt_of_endsWord (less : pos < p₁.doc.source.lastStart)
    (keyword : p₁.endsWord pos = true) : pos + 1 < p₁.doc.source.lastStart := by
  have inLine : isLineEnd (p₁.doc.source.charD pos ' ') = false := by
    apply Bool.eq_false_iff.2
    intro lineEnd
    rw [endsWord_of_isLineEnd lineEnd] at keyword
    cases keyword
  exact ends.doc.source.agree.succ_lt less inLine

theorem wordFrom_eq (less : pos < p₁.doc.source.lastStart) (first : Nat) :
    p₂.wordFrom first pos = p₁.wordFrom first pos := by
  have chars : p₂.doc.source.charsD first (pos + 1) ' ' =
      p₁.doc.source.charsD first (pos + 1) ' ' := by
    refine List.map_congr_left (fun between mem => ends.doc.charD_eq ?_)
    rw [List.mem_range'_1] at mem
    omega
  rw [wordFrom, wordFrom, chars]

theorem skipWhile_isBlank (inLine : pos < p₁.doc.source.lastStart) :
    p₂.doc.source.skipWhile isBlank p₂.stop pos = p₁.doc.source.skipWhile isBlank p₁.stop pos ∧
      p₁.doc.source.skipWhile isBlank p₁.stop pos < p₁.doc.source.lastStart := by
  have stop₁ : min p₂.stop p₁.doc.source.size = p₁.stop := by
    rw [ends.stop_eq, ends.stop₁]
    exact Nat.min_eq_right (Nat.le_succ _)
  have stop₂ : min p₂.stop p₂.doc.source.size = p₂.stop := by
    rw [ends.stop₂]
    exact Nat.min_self _
  obtain ⟨same, inside⟩ := ends.doc.source.agree.skipWhile_eq
    (fun _ => Source.isLineEnd_of_isBlank) p₂.stop pos inLine
  rw [stop₁] at inside
  rw [stop₁, stop₂] at same
  exact ⟨same.symm, inside⟩

theorem foldsComments_eq : p₂.foldsComments = p₁.foldsComments := by
  rw [foldsComments, foldsComments, ends.doc.property]

theorem maskOpens_of_maskOpens {line : Nat} {word previous : String}
    (opens : p₁.maskOpens line pos word previous = true) :
    p₂.maskOpens line pos word previous = true := by
  simp only [maskOpens, Bool.and_eq_true, decide_eq_true_eq] at opens ⊢
  obtain ⟨mask, first, block⟩ := opens
  rw [ends.stop₁] at block
  rw [ends.stop₂, ends.form]
  exact ⟨mask, first, ends.doc.opensBlock block⟩

theorem maskOpens_of_showsAt (shows : p₂.doc.ShowsAt (p₁.doc.size - 1)) {line : Nat}
    {word previous : String} (opens : p₂.maskOpens line pos word previous = true) :
    p₁.maskOpens line pos word previous = true := by
  simp only [maskOpens, Bool.and_eq_true, decide_eq_true_eq] at opens ⊢
  obtain ⟨mask, first, block⟩ := opens
  rw [ends.stop₂, ends.form] at block
  rw [ends.stop₁]
  exact ⟨mask, first, ends.doc.opensBlock_of_showsAt shows block⟩

/-- Any keyword but `forall` and `where` has the same effect. -/
theorem wordEffect (inLine : pos + 1 < p₁.doc.source.lastStart) (line : Nat)
    (word previous : String) :
    (p₂.wordEffect line pos word previous).dedent = (p₁.wordEffect line pos word previous).dedent ∧
      (p₂.wordEffect line pos word previous).change =
        (p₁.wordEffect line pos word previous).change +
          (p₂.maskOpens line pos word previous && !p₁.maskOpens line pos word previous).toNat := by
  have opens : p₁.maskOpens line pos word previous = true →
      p₂.maskOpens line pos word previous = true := ends.maskOpens_of_maskOpens
  unfold maskOpens at *
  unfold FoldPass.wordEffect
  by_cases mask : word = "forall" ∨ (word = "where" ∧ previous ≠ "else")
  · simp only [if_pos mask, decide_eq_true mask, Bool.true_and, true_and] at opens ⊢
    have toNat (p : Prop) [Decidable p] : (if p then 1 else 0 : Int) = ((decide p).toNat : Int) := by
      split <;> simp [*]
    rw [toNat, toNat]
    generalize decide (previous ≠ "end" ∧ p₁.doc.opensBlock p₁.form p₁.stop line pos = true) = opens₁
      at opens ⊢
    generalize decide (previous ≠ "end" ∧ p₂.doc.opensBlock p₂.form p₂.stop line pos = true) = opens₂
      at opens ⊢
    revert opens
    cases opens₁ <;> cases opens₂ <;> decide
  · simp only [if_neg mask, decide_eq_false mask, Bool.false_and]
    obtain ⟨same, inside⟩ := ends.skipWhile_isBlank inLine
    have stop₁ : p₁.doc.source.skipWhile isBlank p₁.stop (pos + 1) ≠ p₁.stop :=
      Nat.ne_of_lt (Nat.lt_trans inside ends.lastStart_lt_stop)
    have stop₂ : p₁.doc.source.skipWhile isBlank p₁.stop (pos + 1) ≠ p₂.stop := by
      rw [ends.stop_eq]
      exact Nat.ne_of_lt (Nat.lt_succ_of_lt (Nat.lt_trans inside ends.lastStart_lt_stop))
    rw [same, ends.doc.charD_eq inside, decide_eq_false stop₁, decide_eq_false stop₂]
    exact ⟨rfl, (Int.add_zero _).symm⟩

end EndsLast

/-! ## The step -/

variable {p₁ p₂ : FoldPass} {s₁ s₂ : FoldState} {pos before here : Nat}

/-- Whether a keyword ends at a position that opens a block in the second text only. -/
def opensLate (p₁ p₂ : FoldPass) (s₁ s₂ : FoldState) (pos : Nat) : Bool :=
  p₂.opensMask s₂ pos && !p₁.opensMask s₁ pos

theorem Apart.line (apart : Apart before here s₁ s₂) (ends : EndsLast p₁ p₂) :
    p₂.line s₂ = p₁.line s₁ := by
  rw [FoldPass.line, FoldPass.line, ends.firstLine, apart.emitted]

theorem Apart.wordStart_looked (apart : Apart before here s₁ s₂) (ends : EndsLast p₁ p₂)
    (less : pos < p₁.doc.source.lastStart) :
    (p₂.looked s₂ pos).wordStart = (p₁.looked s₁ pos).wordStart := by
  obtain ⟨-, -, -, -, start₁⟩ := p₁.looked_frame s₁ pos
  obtain ⟨-, -, -, -, start₂⟩ := p₂.looked_frame s₂ pos
  simp only [start₁, start₂, ends.notes_iff less, apart.wordStart]

theorem Apart.wordBy_eq (apart : Apart before here s₁ s₂) (ends : EndsLast p₁ p₂)
    (less : pos < p₁.doc.source.lastStart) : p₂.wordBy s₂ pos = p₁.wordBy s₁ pos := by
  rw [wordBy, apart.wordStart_looked ends less, ends.wordFrom_eq less, wordBy]

/-- If the last byte ends every scan that comes to it, no block is opened in the second text only. -/
theorem Apart.opensLate_of_showsAt (apart : Apart before here s₁ s₂) (ends : EndsLast p₁ p₂)
    (less : pos < p₁.doc.source.lastStart) (shows : p₂.doc.ShowsAt (p₁.doc.size - 1)) :
    opensLate p₁ p₂ s₁ s₂ pos = false := by
  rw [opensLate, opensMask, opensMask, ends.endsWord_eq less, apart.line ends,
    apart.wordBy_eq ends less, apart.previous]
  have both : p₂.maskOpens (p₁.line s₁) pos (p₁.wordBy s₁ pos) s₁.previous = true →
      p₁.maskOpens (p₁.line s₁) pos (p₁.wordBy s₁ pos) s₁.previous = true :=
    ends.maskOpens_of_showsAt shows
  generalize p₂.maskOpens _ _ _ _ = opens₂ at both ⊢
  generalize p₁.maskOpens _ _ _ _ = opens₁ at both ⊢
  revert both
  cases p₁.endsWord pos <;> cases opens₁ <;> cases opens₂ <;> decide

/-- Looking at a byte, passes only get further apart by a block that the second one opens. -/
theorem Apart.looked (apart : Apart before here s₁ s₂) (ends : EndsLast p₁ p₂)
    (less : pos < p₁.doc.source.lastStart) :
    Apart before (here + (opensLate p₁ p₂ s₁ s₂ pos).toNat) (p₁.looked s₁ pos)
      (p₂.looked s₂ pos) := by
  obtain ⟨visible₁, context₁, window₁, emitted₁, -⟩ := p₁.looked_frame s₁ pos
  obtain ⟨visible₂, context₂, window₂, emitted₂, -⟩ := p₂.looked_frame s₂ pos
  have word := apart.wordBy_eq ends less
  have words : (p₂.looked s₂ pos).level = (p₁.looked s₁ pos).level + before ∧
      (p₂.looked s₂ pos).change = (p₁.looked s₁ pos).change +
        (here + (opensLate p₁ p₂ s₁ s₂ pos).toNat : Nat) ∧
      (p₂.looked s₂ pos).previous = (p₁.looked s₁ pos).previous := by
    have same := ends.endsWord_eq less
    rw [opensLate, opensMask, opensMask, same]
    by_cases keyword : p₁.endsWord pos = true
    · obtain ⟨change₁, level₁, previous₁⟩ := looked_of_endsWord (s := s₁) keyword
      obtain ⟨change₂, level₂, previous₂⟩ := looked_of_endsWord (s := s₂) (same.trans keyword)
      obtain ⟨dedent, change⟩ := ends.wordEffect (ends.succ_lt_of_endsWord less keyword)
        (p₁.line s₁) (p₁.wordBy s₁ pos) s₁.previous
      rw [change₁, change₂, level₁, level₂, previous₁, previous₂, effectAt, effectAt, keyword, word,
        apart.line ends, apart.previous, apart.level, apart.change, apart.isContext, dedent,
        Bool.true_and, Bool.true_and]
      refine ⟨?_, by omega, rfl⟩
      split <;> omega
    · obtain ⟨change₁, level₁, previous₁⟩ := looked_of_not_endsWord (s := s₁) keyword
      obtain ⟨change₂, level₂, previous₂⟩ := looked_of_not_endsWord (s := s₂) (same ▸ keyword)
      rw [change₁, change₂, level₁, level₂, previous₁, previous₂, Bool.eq_false_iff.2 keyword,
        Bool.false_and, Bool.false_and]
      exact ⟨apart.level, apart.change, apart.previous⟩
  refine ⟨words.1, words.2.1, ?_, ?_, words.2.2, apart.wordStart_looked ends less, ?_, ?_⟩
  · rw [visible₁, visible₂, apart.visible]
  · rw [context₁, context₂, apart.isContext]
  · rw [window₁, window₂, apart.window]
  · rw [emitted₁, emitted₂, apart.emitted]

theorem Apart.endLine (apart : Apart before here s₁ s₂) (ends : EndsLast p₁ p₂) :
    Apart (before + here) 0 (p₁.endLine s₁) (p₂.endLine s₂) := by
  have change : p₂.lineChange s₂ = p₁.lineChange s₁ + here := by
    rw [lineChange, lineChange, ends.foldsComments_eq, apart.change, apart.window]
    split <;> omega
  refine ⟨?_, rfl, rfl, rfl, rfl, apart.wordStart, ?_, ?_⟩
  · rw [level_endLine, level_endLine, apart.level, change]
    omega
  · rw [window_endLine, window_endLine, ends.foldsComments_eq, apart.window, Array.size_push, Array.size_push,
      ends.firstLine, apart.emitted, ends.form, ends.doc.source.advance_eq]
  · rw [emitted_endLine, emitted_endLine, Array.size_push, Array.size_push, apart.emitted]

theorem Apart.step_of_ends (apart : Apart before here s₁ s₂) (ends : EndsLast p₁ p₂)
    (less : pos < p₁.doc.source.lastStart) (lineEnd : endsLineAt p₁.doc.source.bytes pos = true) :
    Apart (before + (here + (opensLate p₁ p₂ s₁ s₂ pos).toNat)) 0 (p₁.step s₁ pos)
      (p₂.step s₂ pos) := by
  have inside := Nat.lt_trans less ends.doc.source.lastStart_lt
  rw [step_eq, step_eq, ends.doc.source.endsLineAt_eq inside, if_pos lineEnd, if_pos lineEnd]
  exact (apart.looked ends less).endLine ends

theorem Apart.step_of_not_ends (apart : Apart before here s₁ s₂) (ends : EndsLast p₁ p₂)
    (less : pos < p₁.doc.source.lastStart) (inLine : ¬endsLineAt p₁.doc.source.bytes pos = true) :
    Apart before (here + (opensLate p₁ p₂ s₁ s₂ pos).toNat) (p₁.step s₁ pos)
      (p₂.step s₂ pos) := by
  have inside := Nat.lt_trans less ends.doc.source.lastStart_lt
  have looked := apart.looked ends less
  rw [step_eq, step_eq, ends.doc.source.endsLineAt_eq inside, if_neg inLine, if_neg inLine,
    ends.doc.charD_eq less]
  split
  · exact looked
  · exact { looked with visible := rfl }

end FoldPass

/-! ## The pass -/

namespace Document

variable {doc₁ doc₂ : Document} {form : SourceForm} {outside : Style} {first pos : Nat}

/-- How many blocks `forall` and `where` open in the second document only, from one position up to
another. -/
def lateMasks (doc₁ doc₂ : Document) (form : SourceForm) (outside : Style) (first pos : Nat) : Nat :=
  (List.range' first (pos - first)).countP fun between =>
    FoldPass.opensLate (doc₁.foldPass form outside 0) (doc₂.foldPass form outside 0)
      (doc₁.foldStateAt form outside 0 between) (doc₂.foldStateAt form outside 0 between) between

theorem lateMasks_self (doc₁ doc₂ : Document) (form : SourceForm) (outside : Style) (pos : Nat) :
    lateMasks doc₁ doc₂ form outside pos pos = 0 := by
  simp [lateMasks]

theorem lateMasks_succ (doc₁ doc₂ : Document) (form : SourceForm) (outside : Style)
    (le : first ≤ pos) :
    lateMasks doc₁ doc₂ form outside first (pos + 1) = lateMasks doc₁ doc₂ form outside first pos +
      (FoldPass.opensLate (doc₁.foldPass form outside 0) (doc₂.foldPass form outside 0)
        (doc₁.foldStateAt form outside 0 pos) (doc₂.foldStateAt form outside 0 pos) pos).toNat := by
  rw [lateMasks, Nat.succ_sub le, List.range'_1_concat, List.countP_append, Nat.add_sub_cancel' le,
    lateMasks, List.countP_singleton]
  generalize FoldPass.opensLate _ _ _ _ _ = late
  cases late <;> rfl

theorem lateMasks_add (doc₁ doc₂ : Document) (form : SourceForm) (outside : Style)
    (le : first ≤ pos) :
    lateMasks doc₁ doc₂ form outside 0 first + lateMasks doc₁ doc₂ form outside first pos =
      lateMasks doc₁ doc₂ form outside 0 pos := by
  induction pos with
  | zero =>
    obtain rfl : first = 0 := Nat.le_zero.1 le
    rw [lateMasks_self]
  | succ pos ih =>
    rcases Nat.lt_or_eq_of_le le with less | rfl
    · have le := Nat.le_of_lt_succ less
      rw [lateMasks_succ _ _ _ _ le, lateMasks_succ _ _ _ _ (Nat.zero_le pos), ← ih le, Nat.add_assoc]
    · rw [lateMasks_self, Nat.add_zero]

namespace EndsLast

variable (ends : doc₁.EndsLast form doc₂)
include ends

theorem foldPass (outside : Style) :
    FoldPass.EndsLast (doc₁.foldPass form outside 0) (doc₂.foldPass form outside 0) where
  doc := ends
  form := rfl
  outside := rfl
  firstLine := by
    change doc₂.source.lineAt 0 - 1 = doc₁.source.lineAt 0 - 1
    rw [Source.lineAt_zero ends.source.table₁, Source.lineAt_zero ends.source.table₂]
  stop₁ := rfl
  stop₂ := rfl

theorem foldBegun_eq (outside : Style) :
    doc₂.foldBegun form outside 0 = doc₁.foldBegun form outside 0 := by
  have folds : (doc₂.foldPass form outside 0).foldsComments =
      (doc₁.foldPass form outside 0).foldsComments := (ends.foldPass outside).foldsComments_eq
  have line₁ := Source.lineAt_zero ends.source.table₁
  have line₂ := Source.lineAt_zero ends.source.table₂
  simp only [foldBegun, foldLevel, foldWindow, folds, foldStart_zero ends.source.table₁,
    foldStart_zero ends.source.table₂, line₁, line₂, ends.source.around_zero_eq, if_true]

/-- Before a position, the states of the passes differ by the blocks that are opened in the second
text only, on the lines before and on its own. -/
theorem apart (outside : Style) (inside : pos ≤ doc₁.source.lastStart) :
    let first := doc₁.source.lineStart (doc₁.source.lineAt pos)
    FoldPass.Apart (lateMasks doc₁ doc₂ form outside 0 first)
      (lateMasks doc₁ doc₂ form outside first pos) (doc₁.foldStateAt form outside 0 pos)
      (doc₂.foldStateAt form outside 0 pos) := by
  have table := ends.source.table₁
  induction pos with
  | zero =>
    have start₁ := foldStart_zero table
    have start₂ := foldStart_zero ends.source.table₂
    dsimp only
    rw [foldStateAt, foldStateAt, start₁, start₂, FoldPass.after_self, FoldPass.after_self,
      ends.foldBegun_eq, Source.lineAt_zero table, Source.lineStart_zero table, lateMasks_self]
    exact ⟨(Int.add_zero _).symm, (Int.add_zero _).symm, rfl, rfl, rfl, rfl, rfl, rfl⟩
  | succ pos ih =>
    have before := ih (Nat.le_of_succ_le inside)
    have sides := ends.foldPass outside
    have low := Source.lineStart_lineAt_le table pos
    dsimp only at before ⊢
    rw [foldStateAt_succ (foldStart_zero_le table pos),
      foldStateAt_succ (foldStart_zero_le ends.source.table₂ pos)]
    by_cases here : endsLineAt doc₁.source.bytes pos = true
    · have after := before.step_of_ends sides inside here
      rw [Source.lineStart_lineAt_of_startsLine table (Source.startsLine_succ.2 here),
        lateMasks_self]
      rwa [← lateMasks_succ _ _ _ _ low, lateMasks_add _ _ _ _ (Nat.le_succ_of_le low)] at after
    · have after := before.step_of_not_ends sides inside here
      rwa [Source.lineAt_succ table, if_neg here, lateMasks_succ _ _ _ _ low]

/-- If the last byte ends every scan that comes to it, no block is opened in the second text only. -/
theorem lateMasks_eq_zero (outside : Style) (shows : doc₂.ShowsAt (doc₁.size - 1))
    (inside : pos ≤ doc₁.source.lastStart) :
    lateMasks doc₁ doc₂ form outside 0 pos = 0 := by
  induction pos with
  | zero => exact lateMasks_self doc₁ doc₂ form outside 0
  | succ pos ih =>
    have apart := ends.apart outside (Nat.le_of_succ_le inside)
    rw [lateMasks_succ _ _ _ _ (Nat.zero_le pos), ih (Nat.le_of_succ_le inside),
      apart.opensLate_of_showsAt (ends.foldPass outside) inside shows]
    rfl

/-- The number of a line before the last one goes up by the blocks that are opened before it in the
second text only. -/
theorem number_folded (fits₁ : doc₁.Fits) (fits₂ : doc₂.Fits) (outside : Style) {line : Nat}
    (more : line + 1 < doc₁.source.lines) :
    ((doc₂.folded form outside).levelAt line).number =
      (((doc₁.folded form outside).levelAt line).number +
        lateMasks doc₁ doc₂ form outside 0 (doc₁.source.lineStart line)) % 0x1000 := by
  obtain ⟨pos, here, rfl, -⟩ := Source.exists_end_of_lt fits₁.table more
  have less := ends.source.lt_lastStart_of_endsLineAt here
  have inside := Nat.lt_trans less ends.source.lastStart_lt
  have levels₁ := levelAt_folded_of_ends fits₁ form outside here
  have levels₂ := levelAt_folded_of_ends fits₂ form outside
    ((ends.source.endsLineAt_eq inside).trans here)
  rw [ends.source.lineAt_eq (Nat.le_of_lt inside)] at levels₂
  rw [levels₁, levels₂, FoldPass.lineLevel, FoldPass.lineLevel, FoldLevel.number_withFlags_mk,
    FoldLevel.number_withFlags_mk, (ends.apart outside (Nat.le_of_lt less)).level]
  omega

end EndsLast

end Document

end FortranMarkup
