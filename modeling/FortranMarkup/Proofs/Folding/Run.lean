import FortranMarkup.Proofs.Folding.Frame
import FortranMarkup.Proofs.Folding.Window
import FortranMarkup.Proofs.Folding.Words

/-!
# A fold pass, byte by byte

`FoldPass.after` is the state of a pass before a position. A step looks at the keyword that ends at
its byte, whose effect is that of a `FoldEffect` (`wordStep_eq`), and emits a level exactly at the
end of a line; so the levels emitted before a position are those of the lines before it
(`line_after`), and what is emitted stays (`emitted_after_of_lt`).
-/

namespace FortranMarkup

namespace FoldPass

variable {pass : FoldPass} {s : FoldState} {first pos : Nat}

/-! ## The effect of a keyword -/

/-- Whether a keyword or a label starts at a position. -/
def Notes (pass : FoldPass) (pos : Nat) : Prop :=
  pass.afterSeparator pos = true ∧
    (pass.doc.styleAt pos = .keyword ∨ pass.doc.styleAt pos = .label)

instance (pass : FoldPass) (pos : Nat) : Decidable (pass.Notes pos) :=
  inferInstanceAs (Decidable (_ ∧ _))

theorem noteStart_eq (pass : FoldPass) (s : FoldState) (pos : Nat) :
    pass.noteStart s pos = if pass.Notes pos then { s with wordStart := pos } else s := rfl

/-- The word from one position up to another, as the fold rules look it up. -/
def wordFrom (pass : FoldPass) (first pos : Nat) : String :=
  (BoundedWord.ofChars (pass.doc.source.charsD first (pos + 1) ' ') :
    BoundedWord foldWordCapacity).spelling

theorem wordAt_eq (pass : FoldPass) (s : FoldState) (pos : Nat) :
    pass.wordAt s pos = pass.wordFrom s.wordStart pos := rfl

/-- The effect of a keyword that ends at a position of a line. -/
def wordEffect (pass : FoldPass) (line pos : Nat) (word previous : String) : FoldEffect :=
  if word = "forall" ∨ (word = "where" ∧ previous ≠ "else") then
    ⟨if previous ≠ "end" ∧ pass.doc.opensBlock pass.form pass.stop line pos then 1 else 0, false⟩
  else
    let after := pass.doc.source.skipWhile isBlank pass.stop (pos + 1)
    let next := pass.doc.source.charD after ' '
    foldEffect word previous next (isLineEnd next || after = pass.stop)

theorem wordEffect_known (pass : FoldPass) (line pos : Nat) (word previous : String) :
    pass.wordEffect line pos (knownWord word) (knownWord previous) =
      pass.wordEffect line pos word previous := by
  unfold wordEffect
  simp only [foldEffect_known, knownWord_eq_iff (show "forall" ∈ foldWords by decide),
    knownWord_eq_iff (show "where" ∈ foldWords by decide), ne_eq,
    knownWord_eq_iff (show "else" ∈ foldWords by decide),
    knownWord_eq_iff (show "end" ∈ foldWords by decide)]

/-- The state after a keyword with an effect. -/
def withEffect (s : FoldState) (word : String) (effect : FoldEffect) : FoldState :=
  { s with
    change := s.change + effect.change
    level := if effect.dedent && !s.isContext then s.level - 1 else s.level
    previous := word }

theorem wordStep_eq (pass : FoldPass) (s : FoldState) (pos : Nat) :
    pass.wordStep s pos =
      if pass.endsWord pos then
        withEffect s (pass.wordFrom s.wordStart pos)
          (pass.wordEffect (pass.line s) pos (pass.wordFrom s.wordStart pos) s.previous)
      else s := by
  unfold wordStep
  split
  · dsimp only
    rw [wordAt_eq, applyWord, wordEffect]
    split
    · split
      · rfl
      · simp [withEffect]
    · rfl
  · rfl

theorem endsWord_of_isLineEnd (ends : isLineEnd (pass.doc.source.charD pos ' ') = true) :
    pass.endsWord pos = false := by
  have outside : isFoldWordChar (pass.doc.source.charD pos ' ') = false := by
    simp only [isLineEnd, Bool.or_eq_true, decide_eq_true_eq] at ends
    rcases ends with ends | ends <;> rw [ends] <;> rfl
  rw [endsWord, outside, Bool.and_false, Bool.false_and]

/-- The state after a byte has been looked at for keywords. -/
def looked (pass : FoldPass) (s : FoldState) (pos : Nat) : FoldState :=
  pass.wordStep (pass.noteStart s pos) pos

theorem step_eq (pass : FoldPass) (s : FoldState) (pos : Nat) :
    pass.step s pos =
      if endsLineAt pass.doc.source.bytes pos then pass.endLine (pass.looked s pos)
      else if isSpace (pass.doc.source.charD pos ' ') then pass.looked s pos
      else { pass.looked s pos with visible := true } := rfl

theorem looked_eq (pass : FoldPass) (s : FoldState) (pos : Nat) :
    pass.looked s pos =
      let first := if pass.Notes pos then pos else s.wordStart
      let begun := { s with wordStart := first }
      if pass.endsWord pos then
        withEffect begun (pass.wordFrom first pos)
          (pass.wordEffect (pass.line s) pos (pass.wordFrom first pos) s.previous)
      else begun := by
  unfold looked
  rw [wordStep_eq, noteStart_eq]
  by_cases notes : pass.Notes pos
  · simp only [if_pos notes]
    rfl
  · simp only [if_neg notes]

/-- Looking for keywords changes the level, its change and the words, and nothing else. -/
theorem looked_frame (pass : FoldPass) (s : FoldState) (pos : Nat) :
    (pass.looked s pos).visible = s.visible ∧ (pass.looked s pos).isContext = s.isContext ∧
      (pass.looked s pos).window = s.window ∧ (pass.looked s pos).emitted = s.emitted ∧
      (pass.looked s pos).wordStart = if pass.Notes pos then pos else s.wordStart := by
  unfold looked
  rw [wordStep_eq, noteStart_eq]
  split <;> split <;> exact ⟨rfl, rfl, rfl, rfl, rfl⟩

/-- The word that is at hand once a byte has been looked at, up to that byte. -/
def wordBy (pass : FoldPass) (s : FoldState) (pos : Nat) : String :=
  pass.wordFrom (pass.looked s pos).wordStart pos

/-- The effect of the keyword that ends at a byte. -/
def effectAt (pass : FoldPass) (s : FoldState) (pos : Nat) : FoldEffect :=
  pass.wordEffect (pass.line s) pos (pass.wordBy s pos) s.previous

theorem looked_of_endsWord (ends : pass.endsWord pos = true) :
    (pass.looked s pos).change = s.change + (pass.effectAt s pos).change ∧
      (pass.looked s pos).level =
        (if (pass.effectAt s pos).dedent && !s.isContext then s.level - 1 else s.level) ∧
      (pass.looked s pos).previous = pass.wordBy s pos := by
  rw [effectAt, wordBy, (pass.looked_frame s pos).2.2.2.2, looked_eq]
  dsimp only
  rw [if_pos ends]
  exact ⟨rfl, rfl, rfl⟩

theorem looked_of_not_endsWord (ends : ¬pass.endsWord pos = true) :
    (pass.looked s pos).change = s.change ∧ (pass.looked s pos).level = s.level ∧
      (pass.looked s pos).previous = s.previous := by
  rw [looked_eq]
  dsimp only
  rw [if_neg ends]
  exact ⟨rfl, rfl, rfl⟩

theorem looked_of_isLineEnd (ends : isLineEnd (pass.doc.source.charD pos ' ') = true) :
    pass.looked s pos = pass.noteStart s pos := by
  rw [looked, wordStep_eq, if_neg (by simp [endsWord_of_isLineEnd ends])]

theorem looked_frame_of_isLineEnd (pass : FoldPass) (s : FoldState)
    (ends : isLineEnd (pass.doc.source.charD pos ' ') = true) :
    (pass.looked s pos).level = s.level ∧ (pass.looked s pos).change = s.change := by
  rw [looked_of_isLineEnd ends, noteStart_eq]
  split <;> exact ⟨rfl, rfl⟩

/-- By how many blocks the line after the current one is further in. -/
def lineChange (pass : FoldPass) (s : FoldState) : Int :=
  if pass.foldsComments then s.change + s.window.foldChange else s.change

/-- Whether the current line is marked as opening a block where it ends. -/
def opensLine (pass : FoldPass) (s : FoldState) : Bool :=
  0 < pass.lineChange s && s.visible

/-- The level that is emitted for the current line where it ends. -/
def lineLevel (pass : FoldPass) (s : FoldState) : FoldLevel :=
  FoldLevel.withFlags ⟨s.level⟩ ⟨!s.visible && pass.marksWhite, pass.opensLine s⟩

theorem lineLevel_looked (ends : isLineEnd (pass.doc.source.charD pos ' ') = true) :
    pass.lineLevel (pass.looked s pos) = pass.lineLevel s := by
  rw [looked_of_isLineEnd ends, noteStart_eq]
  split <;> rfl

theorem emitted_endLine (pass : FoldPass) (s : FoldState) :
    (pass.endLine s).emitted = s.emitted.push (pass.lineLevel s) := rfl

theorem level_endLine (pass : FoldPass) (s : FoldState) :
    (pass.endLine s).level = s.level + pass.lineChange s := rfl

theorem window_endLine (pass : FoldPass) (s : FoldState) :
    (pass.endLine s).window =
      if pass.foldsComments then
        s.window.advance pass.doc.source pass.form
          (pass.firstLine + (s.emitted.push (pass.lineLevel s)).size)
      else s.window := rfl

theorem tells_endLine (folds : pass.foldsComments = true)
    (tells : s.window.Tells pass.doc.source pass.form (pass.line s))
    (more : pass.line s + 1 < pass.doc.source.lineCount) :
    (pass.endLine s).window.Tells pass.doc.source pass.form (pass.line s + 1) := by
  have advanced := tells.advance more
  have line : pass.firstLine + (s.emitted.push (pass.lineLevel s)).size = pass.line s + 1 := by
    rw [Array.size_push, FoldPass.line]
    omega
  rw [window_endLine, if_pos folds, line]
  exact advanced

theorem emitted_step (pass : FoldPass) (s : FoldState) (pos : Nat) :
    (pass.step s pos).emitted =
      if endsLineAt pass.doc.source.bytes pos then s.emitted.push (pass.lineLevel (pass.looked s pos))
      else s.emitted := by
  have frame := (pass.looked_frame s pos).2.2.2.1
  rw [step_eq]
  split
  · rw [emitted_endLine, frame]
  · split
    · exact frame
    · exact frame

theorem line_step (pass : FoldPass) (s : FoldState) (pos : Nat) :
    pass.line (pass.step s pos) =
      if endsLineAt pass.doc.source.bytes pos then pass.line s + 1 else pass.line s := by
  rw [line, emitted_step]
  split
  · rw [Array.size_push, line, Nat.add_assoc]
  · rfl

/-! ## The states of a pass -/

/-- The state before a position of a pass that has come from an earlier one. -/
def after (pass : FoldPass) (s : FoldState) (first pos : Nat) : FoldState :=
  (List.range' first (pos - first)).foldl pass.step s

@[simp] theorem after_self (pass : FoldPass) (s : FoldState) (first : Nat) :
    pass.after s first first = s := by
  simp [after]

theorem after_succ (pass : FoldPass) (s : FoldState) (le : first ≤ pos) :
    pass.after s first (pos + 1) = pass.step (pass.after s first pos) pos := by
  rw [after, Nat.succ_sub le, List.range'_1_concat, List.foldl_append, Nat.add_sub_cancel' le]
  rfl

theorem after_trans (pass : FoldPass) (s : FoldState) {middle : Nat} (le : first ≤ middle)
    (le' : middle ≤ pos) : pass.after (pass.after s first middle) middle pos =
      pass.after s first pos := by
  induction pos with
  | zero =>
    obtain rfl : middle = 0 := Nat.le_zero.1 le'
    exact after_self _ _ _
  | succ pos ih =>
    rcases Nat.lt_or_eq_of_le le' with less | rfl
    · have le' := Nat.le_of_lt_succ less
      rw [after_succ _ _ le', after_succ _ _ (Nat.le_trans le le'), ih le']
    · exact after_self _ _ _

theorem line_after (table : pass.doc.source.Tabled) (begun : pass.line s = pass.doc.source.lineAt first)
    (le : first ≤ pos) : pass.line (pass.after s first pos) = pass.doc.source.lineAt pos := by
  induction pos with
  | zero =>
    obtain rfl : first = 0 := Nat.le_zero.1 le
    rw [after_self, begun]
  | succ pos ih =>
    rcases Nat.lt_or_eq_of_le le with less | rfl
    · have le := Nat.le_of_lt_succ less
      rw [after_succ _ _ le, line_step, Source.lineAt_succ table, ih le]
    · rw [after_self, begun]

theorem emitted_after_of_lt (pass : FoldPass) (s : FoldState) {middle : Nat} (le : first ≤ middle)
    (le' : middle ≤ pos) {i : Nat} (emitted : i < (pass.after s first middle).emitted.size) :
    (pass.after s first pos).emitted[i]? = (pass.after s first middle).emitted[i]? ∧
      i < (pass.after s first pos).emitted.size := by
  induction pos with
  | zero =>
    obtain rfl : middle = 0 := Nat.le_zero.1 le'
    exact ⟨rfl, emitted⟩
  | succ pos ih =>
    rcases Nat.lt_or_eq_of_le le' with less | rfl
    · have le' := Nat.le_of_lt_succ less
      obtain ⟨same, bound⟩ := ih le'
      rw [after_succ _ _ (Nat.le_trans le le'), emitted_step]
      split
      · rw [Array.getElem?_push_lt bound, ← same, Array.size_push, Array.getElem?_eq_getElem bound]
        exact ⟨rfl, Nat.lt_succ_of_lt bound⟩
      · exact ⟨same, bound⟩
    · exact ⟨rfl, emitted⟩

theorem getElem?_emitted (pass : FoldPass) (table : pass.doc.source.Tabled)
    (begun : pass.line s = pass.doc.source.lineAt first) (le : first ≤ pos) {stop : Nat}
    (less : pos < stop) (ends : endsLineAt pass.doc.source.bytes pos = true) :
    (pass.after s first stop).emitted[pass.doc.source.lineAt pos - pass.firstLine]? =
      some (pass.lineLevel (pass.after s first pos)) := by
  have line := line_after table begun le
  rw [FoldPass.line] at line
  have emits : (pass.after s first (pos + 1)).emitted =
      (pass.after s first pos).emitted.push (pass.lineLevel (pass.after s first pos)) := by
    rw [after_succ _ _ le, emitted_step, if_pos ends,
      lineLevel_looked (Source.isLineEnd_of_endsLineAt ' ' ends)]
  have index : pass.doc.source.lineAt pos - pass.firstLine =
      (pass.after s first pos).emitted.size := by omega
  have bound : (pass.after s first pos).emitted.size < (pass.after s first (pos + 1)).emitted.size := by
    rw [emits, Array.size_push]
    exact Nat.lt_succ_self _
  rw [index, (emitted_after_of_lt pass s (Nat.le_succ_of_le le) less bound).1, emits,
    Array.getElem?_push_size]

end FoldPass

end FortranMarkup
