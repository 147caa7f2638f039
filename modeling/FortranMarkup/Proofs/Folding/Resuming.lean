import FortranMarkup.Proofs.Folding.Run

/-!
# Two fold passes over one text

Two passes over one styled text that have come to a position stay on the same lines
(`FoldPass.Alongside.step`). If they have read the same of the line they also go on alike, as far
apart in level as they are (`FoldPass.Follows.step`). They may have begun a word at different
positions: at most one that the rules do not know can come of that (`Useless`).
-/

namespace FortranMarkup

namespace FoldPass

/-- Two passes read the same text, styles and properties in the same way. -/
structure SameText (p₀ p₁ : FoldPass) : Prop where
  source : p₀.doc.source = p₁.doc.source
  styles : p₀.doc.styles = p₁.doc.styles
  properties : p₀.doc.properties = p₁.doc.properties
  form : p₀.form = p₁.form
  outside : p₀.outside = p₁.outside
  stop : p₀.stop = p₁.stop

namespace SameText

variable {p₀ p₁ : FoldPass} (same : SameText p₀ p₁)
include same

theorem styleAt (pos : Nat) : p₀.doc.styleAt pos = p₁.doc.styleAt pos :=
  Document.styleAt_congr same.styles pos

theorem notes_iff (pos : Nat) : p₀.Notes pos ↔ p₁.Notes pos := by
  simp only [Notes, afterSeparator, Document.styleBefore, same.styleAt, same.form, same.outside]

theorem endsWord_eq (pos : Nat) : p₀.endsWord pos = p₁.endsWord pos := by
  simp only [endsWord, same.styleAt, same.source]

theorem wordFrom_eq (first pos : Nat) : p₀.wordFrom first pos = p₁.wordFrom first pos := by
  simp only [wordFrom, same.source]

theorem wordEffect_eq (line pos : Nat) (word previous : String) :
    p₀.wordEffect line pos word previous = p₁.wordEffect line pos word previous := by
  simp only [wordEffect, Document.opensBlock_congr same.source same.styles, same.source, same.form,
    same.stop]

theorem foldsComments_eq : p₀.foldsComments = p₁.foldsComments := by
  rw [foldsComments, foldsComments, Document.property, Document.property, same.properties]

theorem marksWhite_eq : p₀.marksWhite = p₁.marksWhite := by
  rw [marksWhite, marksWhite, Document.property, Document.property, same.properties]

end SameText

theorem SameText.looked_eq {p₀ p₁ : FoldPass} (same : SameText p₀ p₁)
    (firstLine : p₀.firstLine = p₁.firstLine) (s : FoldState) (pos : Nat) :
    p₀.looked s pos = p₁.looked s pos := by
  have notes : p₀.Notes pos = p₁.Notes pos := propext (same.notes_iff pos)
  simp only [FoldPass.looked_eq, notes, same.endsWord_eq, same.wordFrom_eq, same.wordEffect_eq, line,
    firstLine]

theorem SameText.step_eq {p₀ p₁ : FoldPass} (same : SameText p₀ p₁)
    (firstLine : p₀.firstLine = p₁.firstLine) (s : FoldState) (pos : Nat) :
    p₀.step s pos = p₁.step s pos := by
  have endLine : ∀ s, p₀.endLine s = p₁.endLine s := by
    intro s
    simp only [FoldPass.endLine, same.foldsComments_eq, same.marksWhite_eq, same.source, same.form,
      firstLine]
  simp only [FoldPass.step_eq, same.looked_eq firstLine, endLine, same.source]

/-- No keyword on the line of a position spells a word of the rules from an earlier one, unless one
is begun in between. -/
def Useless (pass : FoldPass) (first pos : Nat) : Prop :=
  ∀ last, pos ≤ last → pass.doc.source.lineAt last = pass.doc.source.lineAt pos →
    (∀ between, pos ≤ between → between ≤ last → ¬pass.Notes between) →
    pass.endsWord last = true → pass.wordFrom first last ∉ foldWords

/-- Two passes at one position of one line, the first of them past its line of context. -/
structure Alongside (p₀ p₁ : FoldPass) (pos : Nat) (s₀ s₁ : FoldState) : Prop where
  visible : s₀.visible = s₁.visible
  start_le₀ : s₀.wordStart ≤ pos
  start_le₁ : s₁.wordStart ≤ pos
  inRange : s₀.isContext = false
  line₀ : p₀.line s₀ = p₀.doc.source.lineAt pos
  line₁ : p₁.line s₁ = p₀.doc.source.lineAt pos
  tells₀ : p₀.foldsComments = true → p₀.doc.source.lineAt pos < p₀.doc.source.lineCount →
    s₀.window.Tells p₀.doc.source p₀.form (p₀.doc.source.lineAt pos)
  tells₁ : p₀.foldsComments = true → p₀.doc.source.lineAt pos < p₀.doc.source.lineCount →
    s₁.window.Tells p₀.doc.source p₀.form (p₀.doc.source.lineAt pos)

/-- Two passes to which the same word may be at hand: it has begun at one position, or no word of the
rules can come of it. -/
def SameWord (pass : FoldPass) (pos first₀ first₁ : Nat) : Prop :=
  first₀ = first₁ ∨ (pass.Useless first₀ pos ∧ pass.Useless first₁ pos)

/-- Two passes that have read the same of a line, a number of blocks apart. -/
structure Follows (p₀ p₁ : FoldPass) (drift : Int) (pos : Nat) (s₀ s₁ : FoldState) : Prop where
  alongside : Alongside p₀ p₁ pos s₀ s₁
  change : s₁.change = s₀.change
  previous : knownWord s₀.previous = knownWord s₁.previous
  word : p₀.SameWord pos s₀.wordStart s₁.wordStart
  inRange : s₁.isContext = false
  level : s₁.level = s₀.level + drift

variable {p₀ p₁ : FoldPass} {drift : Int} {first pos : Nat} {s₀ s₁ : FoldState}

/-! ## The word at hand -/

theorem useless_of_le {pass : FoldPass} (le : first ≤ pos)
    (ends : endsLineAt pass.doc.source.bytes pos = true) : pass.Useless first (pos + 1) := by
  intro last after _ _ _
  have lineEnd := Source.isLineEnd_of_endsLineAt ' ' ends
  refine spelling_not_mem_foldWords (List.mem_map_of_mem ?_) (isAlpha_of_isLineEnd lineEnd)
  rw [List.mem_range'_1]
  omega

theorem useless_of_endsWord {pass : FoldPass} (le : first ≤ pos)
    (ends : pass.endsWord pos = true) : pass.Useless first (pos + 1) := by
  intro last after _ _ _
  have outside : isFoldWordChar (pass.doc.source.charD (pos + 1) ' ') = false := by
    simp only [endsWord, Bool.and_eq_true, Bool.not_eq_true'] at ends
    exact ends.2
  refine spelling_not_mem_foldWords (List.mem_map_of_mem ?_) (isAlpha_of_isFoldWordChar outside)
  rw [List.mem_range'_1]
  omega

theorem useless_succ {pass : FoldPass} (table : pass.doc.source.Tabled)
    (useless : pass.Useless first pos) (silent : ¬pass.Notes pos)
    (inLine : ¬endsLineAt pass.doc.source.bytes pos = true) : pass.Useless first (pos + 1) := by
  have line : pass.doc.source.lineAt (pos + 1) = pass.doc.source.lineAt pos := by
    rw [Source.lineAt_succ table, if_neg inLine]
  intro last after sameLine none ends
  refine useless last (by omega) (sameLine.trans line) ?_ ends
  intro between low high
  rcases Nat.lt_or_eq_of_le low with less | rfl
  · exact none between less high
  · exact silent

theorem SameWord.succ {pass : FoldPass} {first₀ first₁ : Nat} (table : pass.doc.source.Tabled)
    (word : pass.SameWord pos first₀ first₁)
    (silent : first₀ = first₁ ∨ ¬pass.Notes pos)
    (inLine : ¬endsLineAt pass.doc.source.bytes pos = true) :
    pass.SameWord (pos + 1) first₀ first₁ := by
  rcases word with equal | ⟨useless₀, useless₁⟩
  · exact .inl equal
  · rcases silent with equal | silent
    · exact .inl equal
    · exact .inr ⟨useless_succ table useless₀ silent inLine,
        useless_succ table useless₁ silent inLine⟩

theorem SameWord.knownWord_eq {first₀ first₁ : Nat} (word : p₀.SameWord pos first₀ first₁)
    (silent : ¬p₀.Notes pos) (ends : p₀.endsWord pos = true) :
    knownWord (p₀.wordFrom first₀ pos) = knownWord (p₀.wordFrom first₁ pos) := by
  rcases word with rfl | ⟨useless₀, useless₁⟩
  · rfl
  · have none : ∀ between, pos ≤ between → between ≤ pos → ¬p₀.Notes between := by
      intro between low high
      rwa [Nat.le_antisymm high low]
    rw [knownWord_of_not_mem (useless₀ pos (Nat.le_refl _) rfl none ends),
      knownWord_of_not_mem (useless₁ pos (Nat.le_refl _) rfl none ends)]

/-! ## Staying on the same lines -/

namespace Alongside

theorem looked (alongside : Alongside p₀ p₁ pos s₀ s₁) :
    Alongside p₀ p₁ pos (p₀.looked s₀ pos) (p₁.looked s₁ pos) := by
  obtain ⟨visible₀, context₀, window₀, emitted₀, start₀⟩ := p₀.looked_frame s₀ pos
  obtain ⟨visible₁, context₁, window₁, emitted₁, start₁⟩ := p₁.looked_frame s₁ pos
  refine ⟨?_, ?_, ?_, ?_, ?_, ?_, ?_, ?_⟩
  · rw [visible₀, visible₁, alongside.visible]
  · rw [start₀]
    split
    · exact Nat.le_refl _
    · exact alongside.start_le₀
  · rw [start₁]
    split
    · exact Nat.le_refl _
    · exact alongside.start_le₁
  · rw [context₀, alongside.inRange]
  · rw [line, emitted₀, ← line, alongside.line₀]
  · rw [line, emitted₁, ← line, alongside.line₁]
  · rw [window₀]
    exact alongside.tells₀
  · rw [window₁]
    exact alongside.tells₁

theorem inLine (table : p₀.doc.source.Tabled) (alongside : Alongside p₀ p₁ pos s₀ s₁)
    (inLine : ¬endsLineAt p₀.doc.source.bytes pos = true) : Alongside p₀ p₁ (pos + 1) s₀ s₁ := by
  have lineAt : p₀.doc.source.lineAt (pos + 1) = p₀.doc.source.lineAt pos := by
    rw [Source.lineAt_succ table, if_neg inLine]
  refine ⟨alongside.visible, Nat.le_succ_of_le alongside.start_le₀,
    Nat.le_succ_of_le alongside.start_le₁, alongside.inRange, ?_, ?_, ?_, ?_⟩
  all_goals rw [lineAt]
  · exact alongside.line₀
  · exact alongside.line₁
  · exact alongside.tells₀
  · exact alongside.tells₁

theorem withVisible (alongside : Alongside p₀ p₁ pos s₀ s₁) :
    Alongside p₀ p₁ pos { s₀ with visible := true } { s₁ with visible := true } :=
  { alongside with visible := rfl }

theorem lt_lineCount_of_ends {src : Source} (table : src.Tabled)
    (ends : endsLineAt src.bytes pos = true) : src.lineAt pos < src.lineCount := by
  have more := Source.lineAt_lt_lines table (pos + 1)
  rw [Source.lineAt_succ table, if_pos ends] at more
  unfold Source.lineCount
  split <;> omega

theorem foldChange_eq (alongside : Alongside p₀ p₁ pos s₀ s₁) (folds : p₀.foldsComments = true)
    (inside : p₀.doc.source.lineAt pos < p₀.doc.source.lineCount) :
    s₀.window.foldChange = s₁.window.foldChange := by
  rw [CommentWindow.foldChange_of_tells (alongside.tells₀ folds inside),
    CommentWindow.foldChange_of_tells (alongside.tells₁ folds inside)]

theorem lineChange_eq (same : SameText p₀ p₁) (alongside : Alongside p₀ p₁ pos s₀ s₁)
    (inside : p₀.doc.source.lineAt pos < p₀.doc.source.lineCount) :
    p₁.lineChange s₁ - p₀.lineChange s₀ = s₁.change - s₀.change := by
  rw [lineChange, lineChange, ← same.foldsComments_eq]
  split
  · rename_i folds
    rw [alongside.foldChange_eq folds inside]
    omega
  · rfl

theorem endLine (table : p₀.doc.source.Tabled) (same : SameText p₀ p₁)
    (alongside : Alongside p₀ p₁ pos s₀ s₁) (ends : endsLineAt p₀.doc.source.bytes pos = true) :
    Follows p₀ p₁ (s₁.level + s₁.change - (s₀.level + s₀.change)) (pos + 1) (p₀.endLine s₀)
      (p₁.endLine s₁) := by
  have inside := lt_lineCount_of_ends table ends
  have change := alongside.lineChange_eq same inside
  have lineAt : p₀.doc.source.lineAt (pos + 1) = p₀.doc.source.lineAt pos + 1 := by
    rw [Source.lineAt_succ table, if_pos ends]
  have line₀ : p₀.firstLine + (s₀.emitted.push (p₀.lineLevel s₀)).size =
      p₀.doc.source.lineAt (pos + 1) := by
    have here := alongside.line₀
    rw [line] at here
    rw [Array.size_push]
    omega
  have line₁ : p₁.firstLine + (s₁.emitted.push (p₁.lineLevel s₁)).size =
      p₀.doc.source.lineAt (pos + 1) := by
    have here := alongside.line₁
    rw [line] at here
    rw [Array.size_push]
    omega
  have next : Alongside p₀ p₁ (pos + 1) (p₀.endLine s₀) (p₁.endLine s₁) := by
    refine ⟨rfl, Nat.le_succ_of_le alongside.start_le₀, Nat.le_succ_of_le alongside.start_le₁, rfl,
      line₀, line₁, ?_, ?_⟩
    · intro folds more
      rw [lineAt] at more ⊢
      have line := alongside.line₀
      exact line ▸ tells_endLine folds (line ▸ alongside.tells₀ folds inside) (line ▸ more)
    · intro folds more
      rw [lineAt] at more ⊢
      have line := alongside.line₁
      have tells := alongside.tells₁ folds inside
      rw [same.source, same.form] at tells ⊢
      rw [same.foldsComments_eq] at folds
      rw [same.source] at more line
      exact line ▸ tells_endLine folds (line ▸ tells) (line ▸ more)
  refine ⟨next, rfl, rfl, .inr ⟨useless_of_le alongside.start_le₀ ends, ?_⟩, rfl, ?_⟩
  · exact @useless_of_le _ _ p₀ alongside.start_le₁ ends
  · rw [level_endLine, level_endLine]
    omega

end Alongside

/-- A step keeps two passes on the same line. -/
theorem Alongside.step (table : p₀.doc.source.Tabled) (same : SameText p₀ p₁)
    (alongside : Alongside p₀ p₁ pos s₀ s₁) :
    Alongside p₀ p₁ (pos + 1) (p₀.step s₀ pos) (p₁.step s₁ pos) := by
  have looked := alongside.looked
  rw [step_eq, step_eq, ← same.source]
  by_cases ends : endsLineAt p₀.doc.source.bytes pos = true
  · rw [if_pos ends, if_pos ends]
    exact (looked.endLine table same ends).alongside
  · have moved := looked.inLine table ends
    rw [if_neg ends, if_neg ends]
    split
    · exact moved
    · exact moved.withVisible

/-! ## Going on alike -/

theorem SameWord.looked (same : SameText p₀ p₁)
    (word : p₀.SameWord pos s₀.wordStart s₁.wordStart) :
    p₀.SameWord pos (p₀.looked s₀ pos).wordStart (p₁.looked s₁ pos).wordStart := by
  rw [(p₀.looked_frame s₀ pos).2.2.2.2, (p₁.looked_frame s₁ pos).2.2.2.2]
  by_cases notes : p₀.Notes pos
  · rw [if_pos notes, if_pos ((same.notes_iff pos).1 notes)]
    exact .inl rfl
  · rw [if_neg notes, if_neg (mt (same.notes_iff pos).2 notes)]
    exact word

theorem SameWord.knownWord_wordBy (same : SameText p₀ p₁)
    (word : p₀.SameWord pos s₀.wordStart s₁.wordStart) (ends : p₀.endsWord pos = true) :
    knownWord (p₀.wordBy s₀ pos) = knownWord (p₁.wordBy s₁ pos) := by
  rw [wordBy, wordBy, ← same.wordFrom_eq, (p₀.looked_frame s₀ pos).2.2.2.2,
    (p₁.looked_frame s₁ pos).2.2.2.2]
  by_cases notes : p₀.Notes pos
  · rw [if_pos notes, if_pos ((same.notes_iff pos).1 notes)]
  · rw [if_neg notes, if_neg (mt (same.notes_iff pos).2 notes)]
    exact word.knownWord_eq notes ends

theorem Alongside.effectAt_eq (same : SameText p₀ p₁) (alongside : Alongside p₀ p₁ pos s₀ s₁)
    (known : knownWord (p₀.wordBy s₀ pos) = knownWord (p₁.wordBy s₁ pos))
    (previous : knownWord s₀.previous = knownWord s₁.previous) :
    p₀.effectAt s₀ pos = p₁.effectAt s₁ pos := by
  rw [effectAt, ← wordEffect_known, known, previous, wordEffect_known, same.wordEffect_eq,
    alongside.line₀, ← alongside.line₁, effectAt]

theorem Follows.looked (same : SameText p₀ p₁) (follows : Follows p₀ p₁ drift pos s₀ s₁) :
    Follows p₀ p₁ drift pos (p₀.looked s₀ pos) (p₁.looked s₁ pos) := by
  have inRange₀ := follows.alongside.inRange
  have level := follows.level
  have words : (p₁.looked s₁ pos).change = (p₀.looked s₀ pos).change ∧
      knownWord (p₀.looked s₀ pos).previous = knownWord (p₁.looked s₁ pos).previous ∧
      (p₁.looked s₁ pos).level = (p₀.looked s₀ pos).level + drift := by
    by_cases ends : p₀.endsWord pos = true
    · have known := follows.word.knownWord_wordBy same ends
      have effect := follows.alongside.effectAt_eq same known follows.previous
      obtain ⟨change₀, level₀, previous₀⟩ := looked_of_endsWord (s := s₀) ends
      obtain ⟨change₁, level₁, previous₁⟩ :=
        looked_of_endsWord (s := s₁) ((same.endsWord_eq pos).symm.trans ends)
      refine ⟨?_, ?_, ?_⟩
      · rw [change₀, change₁, follows.change, effect]
      · rw [previous₀, previous₁, known]
      · rw [level₀, level₁, inRange₀, follows.inRange, effect]
        split <;> omega
    · obtain ⟨change₀, level₀, previous₀⟩ := looked_of_not_endsWord (s := s₀) ends
      obtain ⟨change₁, level₁, previous₁⟩ :=
        looked_of_not_endsWord (s := s₁) (same.endsWord_eq pos ▸ ends)
      refine ⟨?_, ?_, ?_⟩
      · rw [change₀, change₁, follows.change]
      · rw [previous₀, previous₁, follows.previous]
      · rw [level₀, level₁, level]
  exact ⟨follows.alongside.looked, words.1, words.2.1, follows.word.looked same,
    (p₁.looked_frame s₁ pos).2.1.trans follows.inRange, words.2.2⟩

theorem Follows.lineLevel_eq (table : p₀.doc.source.Tabled) (same : SameText p₀ p₁)
    (follows : Follows p₀ p₁ drift pos s₀ s₁) (ends : endsLineAt p₀.doc.source.bytes pos = true) :
    p₁.lineLevel s₁ = FoldLevel.withFlags ⟨s₀.level + drift⟩
      ⟨!s₀.visible && p₀.marksWhite, p₀.opensLine s₀⟩ := by
  have change := follows.alongside.lineChange_eq same (Alongside.lt_lineCount_of_ends table ends)
  rw [follows.change] at change
  rw [lineLevel, opensLine, follows.level, ← follows.alongside.visible, ← same.marksWhite_eq,
    show p₁.lineChange s₁ = p₀.lineChange s₀ by omega, opensLine]

/-- A step keeps two passes together. -/
theorem Follows.step (table : p₀.doc.source.Tabled) (same : SameText p₀ p₁)
    (follows : Follows p₀ p₁ drift pos s₀ s₁) :
    Follows p₀ p₁ drift (pos + 1) (p₀.step s₀ pos) (p₁.step s₁ pos) := by
  have looked := follows.looked same
  rw [step_eq, step_eq, ← same.source]
  by_cases ends : endsLineAt p₀.doc.source.bytes pos = true
  · rw [if_pos ends, if_pos ends]
    have drifts : (p₁.looked s₁ pos).level + (p₁.looked s₁ pos).change -
        ((p₀.looked s₀ pos).level + (p₀.looked s₀ pos).change) = drift := by
      rw [looked.level, looked.change]
      omega
    exact drifts ▸ looked.alongside.endLine table same ends
  · have silent : (p₀.looked s₀ pos).wordStart = (p₁.looked s₁ pos).wordStart ∨ ¬p₀.Notes pos := by
      by_cases notes : p₀.Notes pos
      · refine .inl ?_
        rw [(p₀.looked_frame s₀ pos).2.2.2.2, (p₁.looked_frame s₁ pos).2.2.2.2, if_pos notes,
          if_pos ((same.notes_iff pos).1 notes)]
      · exact .inr notes
    have moved : Follows p₀ p₁ drift (pos + 1) (p₀.looked s₀ pos) (p₁.looked s₁ pos) :=
      ⟨looked.alongside.inLine table ends, looked.change, looked.previous,
        looked.word.succ table silent ends, looked.inRange, looked.level⟩
    rw [if_neg ends, if_neg ends]
    split
    · exact moved
    · exact { moved with alongside := moved.alongside.withVisible }

theorem Follows.after (table : p₀.doc.source.Tabled) (same : SameText p₀ p₁)
    (follows : Follows p₀ p₁ drift first s₀ s₁) (le : first ≤ pos) :
    Follows p₀ p₁ drift pos (p₀.after s₀ first pos) (p₁.after s₁ first pos) := by
  obtain ⟨count, rfl⟩ := Nat.exists_eq_add_of_le le
  clear le
  induction count with
  | zero =>
    rw [Nat.add_zero, after_self, after_self]
    exact follows
  | succ count ih =>
    rw [← Nat.add_assoc, after_succ _ _ (Nat.le_add_right _ _),
      after_succ _ _ (Nat.le_add_right _ _)]
    exact ih.step table same

theorem Alongside.after (table : p₀.doc.source.Tabled) (same : SameText p₀ p₁)
    (alongside : Alongside p₀ p₁ first s₀ s₁) (le : first ≤ pos) :
    Alongside p₀ p₁ pos (p₀.after s₀ first pos) (p₁.after s₁ first pos) := by
  obtain ⟨count, rfl⟩ := Nat.exists_eq_add_of_le le
  clear le
  induction count with
  | zero =>
    rw [Nat.add_zero, after_self, after_self]
    exact alongside
  | succ count ih =>
    rw [← Nat.add_assoc, after_succ _ _ (Nat.le_add_right _ _),
      after_succ _ _ (Nat.le_add_right _ _)]
    exact ih.step table same

end FoldPass

end FortranMarkup
