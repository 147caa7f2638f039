import FortranMarkup.Proofs.Folding.Repeat
import FortranMarkup.Proofs.Folding.Respelling
import FortranMarkup.Proofs.Folding.Restart

/-!
# Fold passes over respelled text

A pass over a text and a pass over a respelling of it are in like states after each byte of the first
text and what stands for it in the second (`FoldPass.Respelt.step`). Their words need not be the
same: both may be read across a line end, and such words are none of the rules. So both passes emit
the same levels, and folding gives each line that ends the same level
(`Document.Respells.levelAt_folded`). The last line keeps its level.
-/

namespace FortranMarkup

theorem BoundedWord.spelling_ofChars {capacity : Nat} {chars₁ chars₂ : List Char}
    (same : chars₂.map Char.toLower = chars₁.map Char.toLower) :
    (ofChars chars₂ : BoundedWord capacity).spelling =
      (ofChars chars₁ : BoundedWord capacity).spelling := by
  simp only [ofChars, spelling, List.map_take, same]

theorem CharRespells.alikeNext {c d : Char} (respells : CharRespells c d) : AlikeNext d c where
  digit := (blind_isDigit _ _ respells).symm
  others := by
    simp only [List.mem_cons, List.not_mem_nil, or_false, forall_eq_or_imp, forall_eq]
    exact ⟨respells.eq_iff '(' rfl rfl, respells.eq_iff '=' rfl rfl, respells.eq_iff '!' rfl rfl⟩
  lineEnd := (blind_isLineEnd _ _ respells).symm

namespace FoldPass

/-- Two passes over all of a text and of a respelling of it. -/
structure Respells (place : Nat → Nat) (p₁ p₂ : FoldPass) : Prop where
  doc : Document.Respells place p₁.form p₁.doc p₂.doc
  form : p₂.form = p₁.form
  outside : p₂.outside = p₁.outside
  firstLine : p₂.firstLine = p₁.firstLine
  stop₁ : p₁.stop = p₁.doc.size
  stop₂ : p₂.stop = p₂.doc.size

namespace Respells

variable {place : Nat → Nat} {p₁ p₂ : FoldPass} (sides : Respells place p₁ p₂)
include sides

theorem styleBefore_place (pos : Nat) :
    p₂.doc.styleBefore (place pos) p₂.outside = p₁.doc.styleBefore pos p₁.outside := by
  unfold Document.styleBefore
  cases pos with
  | zero => rw [sides.doc.text.zero, if_pos rfl, if_pos rfl, sides.outside]
  | succ pos =>
    have more := sides.doc.text.place_lt_succ pos
    rw [if_neg (by omega), if_neg (Nat.succ_ne_zero pos), Nat.add_sub_cancel]
    exact sides.doc.styleAt (by omega)

theorem notes_iff {pos : Nat} (single : place (pos + 1) = place pos + 1) :
    p₂.Notes (place pos) ↔ p₁.Notes pos := by
  simp only [Notes, afterSeparator, sides.styleBefore_place, sides.form,
    sides.doc.styleAt single.symm]

theorem endsWord_eq {pos : Nat} (single : place (pos + 1) = place pos + 1) :
    p₂.endsWord (place pos) = p₁.endsWord pos := by
  have here := blind_isFoldWordChar _ _ (sides.doc.text.charD_of_first (rfl : place pos = _) ' ')
  have after := blind_isFoldWordChar _ _ (sides.doc.text.charD_of_first single.symm ' ')
  simp only [endsWord, sides.doc.styleAt single.symm, ← here, ← after]

theorem wordEffect_eq (line : Nat) {pos : Nat} (single : place (pos + 1) = place pos + 1)
    (word previous : String) :
    p₂.wordEffect line (place pos) word previous = p₁.wordEffect line pos word previous := by
  have next := sides.doc.text.skipWhile_place blind_isBlank p₁.doc.size (pos + 1)
  rw [← sides.doc.size_eq, single, ← sides.stop₁, ← sides.stop₂] at next
  have alike := (sides.doc.text.charD_of_first next ' ').alikeNext
  have atStop : p₂.doc.source.skipWhile isBlank p₂.stop (place pos + 1) = p₂.stop ↔
      p₁.doc.source.skipWhile isBlank p₁.stop (pos + 1) = p₁.stop := by
    rw [next, sides.stop₂, sides.doc.size_eq, sides.stop₁, sides.doc.text.place_inj]
  have opens := sides.doc.opensBlock_of_last line single.symm
  rw [← sides.stop₁, ← sides.stop₂] at opens
  simp only [wordEffect, sides.form, opens, alike.foldEffect_eq, alike.lineEnd, atStop]

theorem foldsComments_eq : p₂.foldsComments = p₁.foldsComments := by
  rw [foldsComments, foldsComments, sides.doc.property]

theorem marksWhite_eq : p₂.marksWhite = p₁.marksWhite := by
  rw [marksWhite, marksWhite, sides.doc.property]

end Respells

/-! ## Like states -/

/-- Two states that differ at most in where the word at hand starts, and in a word before it that no
rule knows. -/
structure SameButWord (s₁ s₂ : FoldState) : Prop where
  level : s₂.level = s₁.level
  change : s₂.change = s₁.change
  visible : s₂.visible = s₁.visible
  isContext : s₂.isContext = s₁.isContext
  window : s₂.window = s₁.window
  emitted : s₂.emitted = s₁.emitted
  previous : knownWord s₂.previous = knownWord s₁.previous

/-- A line end is among the bytes from one position up to another. -/
def Broken (pass : FoldPass) (first pos : Nat) : Prop :=
  ∃ between, first ≤ between ∧ between < pos ∧
    isLineEnd (pass.doc.source.charD between ' ') = true

/-- The words from two positions on: they start in corresponding places on one line, or there is a
line end in both. -/
def SameStart (place : Nat → Nat) (p₁ p₂ : FoldPass) (pos first₁ first₂ : Nat) : Prop :=
  (first₂ = place first₁ ∧ ∀ between, first₁ ≤ between → between < pos →
      isLineEnd (p₁.doc.source.charD between ' ') = false) ∨
    (p₁.Broken first₁ pos ∧ p₂.Broken first₂ (place pos))

/-- The states of two passes before a position and before its place. -/
structure Respelt (place : Nat → Nat) (p₁ p₂ : FoldPass) (pos : Nat) (s₁ s₂ : FoldState) : Prop where
  same : SameButWord s₁ s₂
  start_le₁ : s₁.wordStart ≤ pos
  start_le₂ : s₂.wordStart ≤ place pos
  word : SameStart place p₁ p₂ pos s₁.wordStart s₂.wordStart

variable {place : Nat → Nat} {p₁ p₂ : FoldPass} {s₁ s₂ : FoldState} {pos : Nat}

theorem Broken.mono {pass : FoldPass} {first later : Nat} (broken : pass.Broken first pos)
    (le : pos ≤ later) : pass.Broken first later := by
  obtain ⟨between, low, high, lineEnd⟩ := broken
  exact ⟨between, low, Nat.lt_of_lt_of_le high le, lineEnd⟩

theorem Broken.unknown {pass : FoldPass} {first : Nat} (broken : pass.Broken first (pos + 1)) :
    knownWord (pass.wordFrom first pos) = "" := by
  obtain ⟨between, low, high, lineEnd⟩ := broken
  apply knownWord_of_not_mem
  refine spelling_not_mem_foldWords (List.mem_map_of_mem ?_) (isAlpha_of_isLineEnd lineEnd)
  rw [List.mem_range'_1]
  omega

theorem SameStart.knownWord_eq {first₁ first₂ : Nat} (sides : Respells place p₁ p₂)
    (word : SameStart place p₁ p₂ (pos + 1) first₁ first₂) (le : first₁ ≤ pos)
    (single : place (pos + 1) = place pos + 1) :
    knownWord (p₂.wordFrom first₂ (place pos)) = knownWord (p₁.wordFrom first₁ pos) := by
  rcases word with ⟨rfl, inLine⟩ | ⟨broken₁, broken₂⟩
  · have chars := sides.doc.text.charsD_eq (Nat.le_succ_of_le le) inLine
    rw [single] at chars
    rw [wordFrom, wordFrom, BoundedWord.spelling_ofChars chars]
  · rw [broken₁.unknown, Broken.unknown (single ▸ broken₂)]

/-! ## A byte in a line -/

section InLine

variable (sides : Respells place p₁ p₂) (respelt : Respelt place p₁ p₂ pos s₁ s₂)
  (inLine : isLineEnd (p₁.doc.source.charD pos ' ') = false)
include sides respelt inLine

theorem Respelt.looked_word :
    (p₁.looked s₁ pos).wordStart ≤ pos ∧ (p₂.looked s₂ (place pos)).wordStart ≤ place pos ∧
      SameStart place p₁ p₂ (pos + 1) (p₁.looked s₁ pos).wordStart
        (p₂.looked s₂ (place pos)).wordStart := by
  have single := sides.doc.text.place_succ_of_inLine inLine
  rw [(p₁.looked_frame s₁ pos).2.2.2.2, (p₂.looked_frame s₂ _).2.2.2.2]
  -- A word that starts here starts in both texts; else the words at hand go on.
  by_cases notes : p₁.Notes pos
  · rw [if_pos notes, if_pos ((sides.notes_iff single).2 notes)]
    refine ⟨Nat.le_refl _, Nat.le_refl _, .inl ⟨rfl, fun between low high => ?_⟩⟩
    obtain rfl : between = pos := by omega
    exact inLine
  · rw [if_neg notes, if_neg (mt (sides.notes_iff single).1 notes)]
    refine ⟨respelt.start_le₁, respelt.start_le₂, ?_⟩
    rcases respelt.word with ⟨first, before⟩ | ⟨broken₁, broken₂⟩
    · refine .inl ⟨first, fun between low high => ?_⟩
      rcases Nat.lt_succ_iff_lt_or_eq.1 high with less | rfl
      · exact before between low less
      · exact inLine
    · exact .inr ⟨broken₁.mono (Nat.le_succ pos), broken₂.mono (by omega)⟩

theorem Respelt.looked :
    Respelt place p₁ p₂ (pos + 1) (p₁.looked s₁ pos) (p₂.looked s₂ (place pos)) := by
  have single := sides.doc.text.place_succ_of_inLine inLine
  obtain ⟨visible₁, context₁, window₁, emitted₁, -⟩ := p₁.looked_frame s₁ pos
  obtain ⟨visible₂, context₂, window₂, emitted₂, -⟩ := p₂.looked_frame s₂ (place pos)
  obtain ⟨start_le₁, start_le₂, word⟩ := respelt.looked_word sides inLine
  have known : knownWord (p₂.wordBy s₂ (place pos)) = knownWord (p₁.wordBy s₁ pos) :=
    word.knownWord_eq sides start_le₁ single
  have line : p₂.line s₂ = p₁.line s₁ := by
    rw [FoldPass.line, FoldPass.line, sides.firstLine, respelt.same.emitted]
  have effect : p₂.effectAt s₂ (place pos) = p₁.effectAt s₁ pos := by
    rw [effectAt, ← wordEffect_known, known, respelt.same.previous, wordEffect_known, line,
      sides.wordEffect_eq _ single, effectAt]
  have keyword : (p₂.looked s₂ (place pos)).change = (p₁.looked s₁ pos).change ∧
      (p₂.looked s₂ (place pos)).level = (p₁.looked s₁ pos).level ∧
      knownWord (p₂.looked s₂ (place pos)).previous = knownWord (p₁.looked s₁ pos).previous := by
    by_cases ends : p₁.endsWord pos = true
    · obtain ⟨change₁, level₁, previous₁⟩ := looked_of_endsWord (s := s₁) ends
      obtain ⟨change₂, level₂, previous₂⟩ :=
        looked_of_endsWord (s := s₂) ((sides.endsWord_eq single).trans ends)
      rw [change₁, change₂, level₁, level₂, previous₁, previous₂, effect, respelt.same.change,
        respelt.same.level, respelt.same.isContext]
      exact ⟨rfl, rfl, known⟩
    · obtain ⟨change₁, level₁, previous₁⟩ := looked_of_not_endsWord (s := s₁) ends
      obtain ⟨change₂, level₂, previous₂⟩ :=
        looked_of_not_endsWord (s := s₂) ((sides.endsWord_eq single).symm ▸ ends)
      rw [change₁, change₂, level₁, level₂, previous₁, previous₂]
      exact ⟨respelt.same.change, respelt.same.level, respelt.same.previous⟩
  refine ⟨⟨keyword.2.1, keyword.1, ?_, ?_, ?_, ?_, keyword.2.2⟩, Nat.le_succ_of_le start_le₁, ?_,
    word⟩
  · rw [visible₁, visible₂, respelt.same.visible]
  · rw [context₁, context₂, respelt.same.isContext]
  · rw [window₁, window₂, respelt.same.window]
  · rw [emitted₁, emitted₂, respelt.same.emitted]
  · omega

theorem Respelt.step_inLine :
    Respelt place p₁ p₂ (pos + 1) (p₁.step s₁ pos) (p₂.step s₂ (place pos)) := by
  have looked := respelt.looked sides inLine
  have ch := sides.doc.text.charD_of_first (rfl : place pos = place pos) ' '
  have stays₁ : ¬endsLineAt p₁.doc.source.bytes pos = true := by
    intro ends
    rw [Source.isLineEnd_of_endsLineAt ' ' ends] at inLine
    cases inLine
  have stays₂ : ¬endsLineAt p₂.doc.source.bytes (place pos) = true := by
    intro ends
    rw [blind_isLineEnd _ _ ch, Source.isLineEnd_of_endsLineAt ' ' ends] at inLine
    cases inLine
  rw [step_eq, step_eq, if_neg stays₁, if_neg stays₂, ← blind_isSpace _ _ ch]
  split
  · exact looked
  · exact { looked with same := { looked.same with visible := rfl } }

end InLine

/-! ## A line end -/

theorem step_of_isLineEnd {pass : FoldPass} {s : FoldState}
    (ends : isLineEnd (pass.doc.source.charD pos ' ') = true) :
    pass.step s pos =
      if endsLineAt pass.doc.source.bytes pos then pass.endLine (pass.noteStart s pos)
      else pass.noteStart s pos := by
  have space : isSpace (pass.doc.source.charD pos ' ') = true := by
    simp only [isLineEnd, Bool.or_eq_true, decide_eq_true_eq] at ends
    rcases ends with ends | ends <;> rw [ends] <;> rfl
  rw [step_eq, looked_of_isLineEnd ends, if_pos space]

theorem wordStart_noteStart_le (pass : FoldPass) {s : FoldState} (le : s.wordStart ≤ pos) :
    (pass.noteStart s pos).wordStart ≤ pos := by
  rw [noteStart_eq]
  split
  · exact Nat.le_refl _
  · exact le

namespace SameButWord

theorem noteStart₁ (same : SameButWord s₁ s₂) (pass : FoldPass) (pos : Nat) :
    SameButWord (pass.noteStart s₁ pos) s₂ := by
  rw [noteStart_eq]
  split
  · exact { same with }
  · exact same

theorem noteStart₂ (same : SameButWord s₁ s₂) (pass : FoldPass) (pos : Nat) :
    SameButWord s₁ (pass.noteStart s₂ pos) := by
  rw [noteStart_eq]
  split
  · exact { same with }
  · exact same

theorem endLine (sides : Respells place p₁ p₂) (same : SameButWord s₁ s₂) :
    SameButWord (p₁.endLine s₁) (p₂.endLine s₂) := by
  have change : p₂.lineChange s₂ = p₁.lineChange s₁ := by
    rw [lineChange, lineChange, sides.foldsComments_eq, same.change, same.window]
  have level : p₂.lineLevel s₂ = p₁.lineLevel s₁ := by
    rw [lineLevel, lineLevel, opensLine, opensLine, sides.marksWhite_eq, same.level, same.visible,
      change]
  refine ⟨?_, rfl, rfl, rfl, ?_, ?_, rfl⟩
  · rw [level_endLine, level_endLine, same.level, change]
  · rw [window_endLine, window_endLine, sides.foldsComments_eq, same.window, same.emitted, level,
      sides.firstLine, sides.form, sides.doc.text.advance_eq]
  · rw [emitted_endLine, emitted_endLine, same.emitted, level]

end SameButWord

/-- After a line end, the words at hand are read across it. -/
theorem SameButWord.respelt (same : SameButWord s₁ s₂) {pos₂ : Nat}
    (lineEnd₁ : isLineEnd (p₁.doc.source.charD pos ' ') = true)
    (lineEnd₂ : isLineEnd (p₂.doc.source.charD pos₂ ' ') = true)
    (start_le₁ : s₁.wordStart ≤ pos) (start_le₂ : s₂.wordStart ≤ pos₂)
    (less : pos₂ < place (pos + 1)) : Respelt place p₁ p₂ (pos + 1) s₁ s₂ where
  same := same
  start_le₁ := Nat.le_succ_of_le start_le₁
  start_le₂ := Nat.le_of_lt (Nat.lt_of_le_of_lt start_le₂ less)
  word := .inr ⟨⟨pos, start_le₁, Nat.lt_succ_self pos, lineEnd₁⟩, pos₂, start_le₂, less, lineEnd₂⟩

theorem Respelt.step_lineEnd (sides : Respells place p₁ p₂)
    (respelt : Respelt place p₁ p₂ pos s₁ s₂)
    (lineEnd : isLineEnd (p₁.doc.source.charD pos ' ') = true) :
    Respelt place p₁ p₂ (pos + 1) (p₁.step s₁ pos)
      (p₂.after s₂ (place pos) (place (pos + 1))) := by
  have first := sides.doc.text.charD_of_first (rfl : place pos = place pos) ' '
  have lineEnd₂ := (blind_isLineEnd _ _ first).symm.trans lineEnd
  have start_le₁ := wordStart_noteStart_le p₁ respelt.start_le₁
  have start_le₂ := wordStart_noteStart_le p₂ respelt.start_le₂
  have noted := (respelt.same.noteStart₁ p₁ pos).noteStart₂ p₂ (place pos)
  rcases sides.doc.text.place_succ pos with single | double
  · have less : place pos < place (pos + 1) := by omega
    have ends := sides.doc.text.endsLineAt_of_last single.symm
    rw [single, after_succ _ _ (Nat.le_refl _), after_self, step_of_isLineEnd lineEnd,
      step_of_isLineEnd lineEnd₂, ends]
    split
    · exact (noted.endLine sides).respelt lineEnd lineEnd₂ start_le₁ start_le₂ less
    · exact noted.respelt lineEnd lineEnd₂ start_le₁ start_le₂ less
  · -- The carriage return ends no line by itself; the line feed after it does.
    have less : place pos + 1 < place (pos + 1) := by omega
    have last := sides.doc.text.charD_of_last double.symm ' '
    have lineEnd₃ := (blind_isLineEnd _ _ (.inl last)).symm.trans lineEnd
    have stays := sides.doc.text.endsLineAt_of_double double
    have ends₁ := sides.doc.text.endsLineAt_feed_of_double double
    have ends₂ := (sides.doc.text.endsLineAt_of_last double.symm).trans ends₁
    rw [double, after_succ _ _ (Nat.le_succ _), after_succ _ _ (Nat.le_refl _), after_self,
      step_of_isLineEnd lineEnd, step_of_isLineEnd lineEnd₂, step_of_isLineEnd lineEnd₃, if_pos ends₁,
      stays, if_neg Bool.false_ne_true, if_pos ends₂]
    exact ((noted.noteStart₂ p₂ _).endLine sides).respelt lineEnd lineEnd₃ start_le₁
      (wordStart_noteStart_le p₂ (Nat.le_succ_of_le start_le₂)) less

/-! ## The pass -/

theorem Respelt.step (sides : Respells place p₁ p₂) (respelt : Respelt place p₁ p₂ pos s₁ s₂) :
    Respelt place p₁ p₂ (pos + 1) (p₁.step s₁ pos)
      (p₂.after s₂ (place pos) (place (pos + 1))) := by
  cases inLine : isLineEnd (p₁.doc.source.charD pos ' ') with
  | true => exact respelt.step_lineEnd sides inLine
  | false =>
    rw [sides.doc.text.place_succ_of_inLine inLine, after_succ _ _ (Nat.le_refl _), after_self]
    exact respelt.step_inLine sides inLine

theorem Respelt.after (sides : Respells place p₁ p₂) (respelt : Respelt place p₁ p₂ 0 s₁ s₂)
    (pos : Nat) :
    Respelt place p₁ p₂ pos (p₁.after s₁ 0 pos) (p₂.after s₂ 0 (place pos)) := by
  induction pos with
  | zero =>
    rw [sides.doc.text.zero, after_self, after_self]
    exact respelt
  | succ pos ih =>
    have more := Nat.le_of_lt (sides.doc.text.place_lt_succ pos)
    rw [after_succ _ _ (Nat.zero_le pos), ← after_trans p₂ s₂ (Nat.zero_le _) more]
    exact ih.step sides

end FoldPass

namespace Document

variable {place : Nat → Nat} {form : SourceForm} {doc doc₁ doc₂ : Document}

/-! ## Levels of a pass over everything -/

theorem levelAt_folded_eq_emitted (fits : doc.Fits) (form : SourceForm) (outside : Style) {line : Nat}
    (ends : line + 1 < doc.source.lines) :
    (doc.folded form outside).levelAt line =
      (doc.foldStateAt form outside 0 doc.size).emitted[line]?.getD .base := by
  have emitted := size_emitted fits.table form outside
  have whole : doc.folded form outside = _ := doc.foldRange_eq form outside 0
  rw [whole, levelAt, getElem?_overwrite, Source.lineAt_zero fits.table, if_pos,
    Array.getElem?_toList]
  · rfl
  · rw [size_levels_rechecked, fits.levels, Array.length_toList]
    omega

theorem levelAt_folded_last (fits : doc.Fits) (form : SourceForm) (outside : Style) :
    (doc.folded form outside).levelAt (doc.source.lines - 1) =
      (doc.rechecked form outside 0).levelAt (doc.source.lines - 1) := by
  have emitted := size_emitted fits.table form outside
  have whole : doc.folded form outside = _ := doc.foldRange_eq form outside 0
  rw [whole, levelAt, getElem?_overwrite, Source.lineAt_zero fits.table, if_neg]
  · rfl
  · rw [Array.length_toList]
    omega

theorem levelAt_rechecked_of_pos (table : doc.source.Tabled) (form : SourceForm) (outside : Style)
    {line : Nat} (pos : 0 < line) :
    (doc.rechecked form outside 0).levelAt line = doc.levelAt line := by
  rw [levelAt, rechecked, Source.lineAt_zero table]
  dsimp only
  split
  · rw [CommentWindow.recheck, CommentWindow.getElem?_recheckLines _ _ (.inl pos), levelAt]
  · rfl

/-! ## Respelled documents -/

namespace Respells

variable (respells : Respells place form doc₁ doc₂)
include respells

theorem foldPass_respells (outside : Style) :
    FoldPass.Respells place (doc₁.foldPass form outside 0) (doc₂.foldPass form outside 0) where
  doc := respells
  form := rfl
  outside := rfl
  firstLine := by
    change doc₂.source.lineAt 0 - 1 = doc₁.source.lineAt 0 - 1
    rw [Source.lineAt_zero respells.text.table₁, Source.lineAt_zero respells.text.table₂]
  stop₁ := rfl
  stop₂ := rfl

theorem foldWindow_eq (outside : Style) :
    doc₂.foldWindow form outside 0 = doc₁.foldWindow form outside 0 := by
  rw [foldWindow, foldWindow, (respells.foldPass_respells outside).foldsComments_eq,
    Source.lineAt_zero respells.text.table₁, Source.lineAt_zero respells.text.table₂,
    respells.text.around_eq]

theorem foldBegun_eq (outside : Style) :
    doc₂.foldBegun form outside 0 = doc₁.foldBegun form outside 0 := by
  simp only [foldBegun, foldLevel, respells.foldWindow_eq, foldStart_zero respells.text.table₁,
    foldStart_zero respells.text.table₂, Source.lineAt_zero respells.text.table₁,
    Source.lineAt_zero respells.text.table₂, if_true]

theorem emitted_eq (outside : Style) :
    (doc₂.foldStateAt form outside 0 doc₂.size).emitted =
      (doc₁.foldStateAt form outside 0 doc₁.size).emitted := by
  have sides := respells.foldPass_respells outside
  have begun : FoldPass.Respelt place (doc₁.foldPass form outside 0) (doc₂.foldPass form outside 0) 0
      (doc₁.foldBegun form outside 0) (doc₁.foldBegun form outside 0) := by
    have start : (doc₁.foldBegun form outside 0).wordStart = 0 :=
      foldStart_zero respells.text.table₁
    refine ⟨⟨rfl, rfl, rfl, rfl, rfl, rfl, rfl⟩, Nat.le_of_eq start, ?_, .inl ⟨?_, ?_⟩⟩
    · rw [start]
      exact Nat.zero_le _
    · rw [start, respells.text.zero]
    · intro between _ before
      exact absurd before (Nat.not_lt_zero _)
  have ended := (begun.after sides doc₁.size).same.emitted
  rw [← respells.size_eq] at ended
  rw [foldStateAt, foldStateAt, respells.foldBegun_eq, foldStart_zero respells.text.table₁,
    foldStart_zero respells.text.table₂]
  exact ended

theorem levelAt_rechecked (fits₁ : doc₁.Fits) (fits₂ : doc₂.Fits) (outside : Style) {line : Nat}
    (inside : line < doc₁.source.lines) (same : doc₂.levelAt line = doc₁.levelAt line) :
    (doc₂.rechecked form outside 0).levelAt line = (doc₁.rechecked form outside 0).levelAt line := by
  cases line with
  | succ line =>
    rw [levelAt_rechecked_of_pos fits₁.table _ _ (Nat.succ_pos line),
      levelAt_rechecked_of_pos fits₂.table _ _ (Nat.succ_pos line), same]
  | zero =>
    -- Only the line with which the pass begins can be set right.
    have sizes : doc₂.levels.size = doc₁.levels.size := by
      rw [fits₂.levels, fits₁.levels, respells.text.lines_eq]
    have held : doc₂.levels[0]? = doc₁.levels[0]? := by
      have inside₁ : 0 < doc₁.levels.size := by rwa [fits₁.levels]
      rw [getElem?_levels inside₁, getElem?_levels (sizes ▸ inside₁), same]
    simp only [levelAt, rechecked, (respells.foldPass_respells outside).foldsComments_eq,
      respells.foldWindow_eq, Source.lineAt_zero fits₁.table, Source.lineAt_zero fits₂.table]
    apply congrArg (Option.getD · FoldLevel.base)
    split
    · refine CommentWindow.recheckLines_agree _ 0 _ sizes (fun i le => ?_) none 0 (Nat.le_refl 0)
      rw [Nat.le_zero.1 le, held]
    · exact held

/-- Folding a text and a respelling of it gives the same level to each line that ends. -/
theorem levelAt_folded (fits₁ : doc₁.Fits) (fits₂ : doc₂.Fits) (outside : Style) {line : Nat}
    (ends : line + 1 < doc₁.source.lines) :
    (doc₂.folded form outside).levelAt line = (doc₁.folded form outside).levelAt line := by
  rw [levelAt_folded_eq_emitted fits₁ _ _ ends,
    levelAt_folded_eq_emitted fits₂ _ _ (respells.text.lines_eq ▸ ends), respells.emitted_eq]

/-- The level of the last line is kept or set right in both documents alike. -/
theorem levels_folded (fits₁ : doc₁.Fits) (fits₂ : doc₂.Fits) (outside : Style)
    (last : doc₂.levelAt (doc₁.source.lines - 1) = doc₁.levelAt (doc₁.source.lines - 1)) :
    (doc₂.folded form outside).levels = (doc₁.folded form outside).levels := by
  have lines := respells.text.lines_eq
  have folded₁ : (doc₁.folded form outside).Fits := fits_foldRange fits₁ form 0 doc₁.size outside
  have folded₂ : (doc₂.folded form outside).Fits := fits_foldRange fits₂ form 0 doc₂.size outside
  apply levels_ext
  · rw [folded₂.levels, folded₁.levels]
    exact lines
  · intro line inside
    rw [folded₁.levels] at inside
    have inside : line < doc₁.source.lines := inside
    by_cases ends : line + 1 < doc₁.source.lines
    · exact respells.levelAt_folded fits₁ fits₂ outside ends
    · obtain rfl : line = doc₁.source.lines - 1 := by omega
      have kept₂ := levelAt_folded_last fits₂ form outside
      rw [lines] at kept₂
      rw [levelAt_folded_last fits₁, kept₂,
        respells.levelAt_rechecked fits₁ fits₂ outside inside last]

end Respells

end Document

end FortranMarkup
