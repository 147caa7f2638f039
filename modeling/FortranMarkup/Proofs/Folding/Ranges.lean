import FortranMarkup.Proofs.Document.Ranges
import FortranMarkup.Proofs.Folding.Context
import FortranMarkup.Proofs.Folding.Repeat

/-!
# Fold passes within range

A fold pass takes one from a number of lines and from positions, where it looks for the end of a
statement. Written with differences that have to exist, it still has a result
(`Document.foldRange?_eq`). The levels it counts with are signed; how far they can go is bounded by
the length of the pass (`FoldPass.reach_after`).
-/

namespace FortranMarkup

namespace Document

variable {doc : Document}

/-- `endsFree` within range. -/
def endsFree? (doc : Document) (stop pos : Nat) : Option Bool :=
  if pos < stop then
    let c := doc.source.charD (pos + 1) ' '
    if doc.isFiller (pos + 1) then doc.endsFree? stop (pos + 1)
    else if c = '&' ∧ doc.styleAt (pos + 1) = .continuation then
      if 1 ≤ doc.source.continuedText (pos + 2) then
        doc.endsFree? stop (doc.source.continuedText (pos + 2) - 1)
      else none
    else some (isLineEnd c)
  else some false
termination_by stop - pos
decreasing_by
  · omega
  · have le := doc.source.le_continuedText (pos + 2)
    omega

theorem endsFree?_eq (doc : Document) (stop pos : Nat) :
    doc.endsFree? stop pos = some (doc.endsFree stop pos) := by
  fun_induction endsFree doc stop pos with
  | case1 pos inside filler ih =>
    rw [endsFree?, if_pos inside]
    dsimp only
    rw [if_pos filler, ih]
  | case2 pos inside c notFiller mark ih =>
    have le := doc.source.le_continuedText (pos + 2)
    rw [endsFree?, if_pos inside]
    dsimp only
    rw [if_neg notFiller, if_pos mark, if_pos (by omega), ih]
  | case3 pos inside c notFiller noMark =>
    rw [endsFree?, if_pos inside]
    dsimp only
    rw [if_neg notFiller, if_neg noMark]
  | case4 pos outside =>
    rw [endsFree?, if_neg outside]

/-- `opensBlock` within range; the last line is known by its number. -/
def opensBlock? (doc : Document) (form : SourceForm) (stop line pos : Nat) : Option Bool := do
  let opening := doc.source.skipWhile (· ≠ '(') stop (pos + 1)
  let closing := doc.closingParenthesis (doc.styleAt opening) stop opening 1
  let _ ← sub? doc.source.lineCount 1
  match form with
  | .fixed => some (doc.endsFixed stop line closing)
  | .free => doc.endsFree? stop closing

theorem lineCount_pos {src : Source} (table : src.Tabled) : 0 < src.lineCount := by
  have lines := Source.lines_pos table
  unfold Source.lineCount
  split
  · rename_i last
    by_cases one : src.lines = 1
    · rw [one, Nat.sub_self, Source.lineStart_zero table] at last
      omega
    · omega
  · exact lines

theorem opensBlock?_eq (table : doc.source.Tabled) (form : SourceForm) (stop line pos : Nat) :
    doc.opensBlock? form stop line pos = some (doc.opensBlock form stop line pos) := by
  unfold opensBlock? opensBlock
  dsimp only
  rw [sub?_of_le (lineCount_pos table), Option.bind_eq_bind, Option.bind_some]
  cases form with
  | fixed => rfl
  | free => exact endsFree?_eq _ _ _

end Document

namespace FoldPass

variable {pass : FoldPass} {s : FoldState}

/-- `applyWord` within range. -/
def applyWord? (pass : FoldPass) (s : FoldState) (pos : Nat) (word : String) : Option FoldState :=
  if word = "forall" ∨ (word = "where" ∧ s.previous ≠ "else") then
    if s.previous ≠ "end" then do
      let opens ← pass.doc.opensBlock? pass.form pass.stop (pass.line s) pos
      some (if opens then { s with change := s.change + 1 } else s)
    else some s
  else some (pass.applyWord s pos word)

/-- `wordStep` within range. -/
def wordStep? (pass : FoldPass) (s : FoldState) (pos : Nat) : Option FoldState :=
  if pass.endsWord pos then do
    let word := pass.wordAt s pos
    let applied ← pass.applyWord? s pos word
    some { applied with previous := word }
  else some s

/-- `step` within range. -/
def step? (pass : FoldPass) (s : FoldState) (pos : Nat) : Option FoldState := do
  let looked ← pass.wordStep? (pass.noteStart s pos) pos
  if endsLineAt pass.doc.source.bytes pos then some (pass.endLine looked)
  else if isSpace (pass.doc.source.charD pos ' ') then some looked
  else some { looked with visible := true }

/-- `run` within range. -/
def run? (pass : FoldPass) (s : FoldState) (start : Nat) : Option FoldState :=
  (List.range' start (pass.stop - start)).foldlM pass.step? s

theorem applyWord?_eq (table : pass.doc.source.Tabled) (s : FoldState) (pos : Nat) (word : String) :
    pass.applyWord? s pos word = some (pass.applyWord s pos word) := by
  unfold applyWord?
  split
  · rename_i construct
    rw [applyWord, if_pos construct, Document.opensBlock?_eq table]
    split
    · rename_i notEnd
      simp only [notEnd, true_and, Option.bind_eq_bind, Option.bind_some, ne_eq, not_false_eq_true]
    · rename_i isEnd
      rw [if_neg fun opens => isEnd opens.1]
  · rfl

theorem step?_eq (table : pass.doc.source.Tabled) (s : FoldState) (pos : Nat) :
    pass.step? s pos = some (pass.step s pos) := by
  have word (s : FoldState) : pass.wordStep? s pos = some (pass.wordStep s pos) := by
    unfold wordStep? wordStep
    split
    · dsimp only
      rw [applyWord?_eq table]
      rfl
    · rfl
  rw [step?, word, Option.bind_eq_bind, Option.bind_some]
  unfold step
  dsimp only
  split
  · rfl
  · split <;> rfl

theorem run?_eq (table : pass.doc.source.Tabled) (s : FoldState) (start : Nat) :
    pass.run? s start = some (pass.run s start) := by
  unfold run? run
  generalize List.range' start (pass.stop - start) = positions
  induction positions generalizing s with
  | nil => rfl
  | cons pos rest ih =>
    rw [List.foldlM_cons, step?_eq table, Option.bind_eq_bind, Option.bind_some, ih, List.foldl_cons]

/-! ## How far levels go -/

/-- How far the level of a state is from zero, and how far it can be after the line. -/
def reach (s : FoldState) : Nat :=
  s.level.natAbs + s.change.natAbs

theorem reach_looked (pass : FoldPass) (s : FoldState) (pos : Nat) :
    reach (pass.looked s pos) ≤ reach s + 4 := by
  unfold reach
  by_cases ends : pass.endsWord pos = true
  · obtain ⟨change, level, -⟩ := looked_of_endsWord (s := s) ends
    have bounds := pass.wordEffect_bounds (pass.line s) pos (pass.wordBy s pos) s.previous
    rw [← effectAt] at bounds
    rw [change, level]
    split <;> omega
  · obtain ⟨change, level, -⟩ := looked_of_not_endsWord (s := s) ends
    omega

theorem foldChange_window_bounds (window : CommentWindow) :
    -1 ≤ window.foldChange ∧ window.foldChange ≤ 1 := by
  rw [CommentWindow.foldChange_def]
  repeat' split
  all_goals decide

/-- A step takes the level of a state at most five further from zero. -/
theorem reach_step (pass : FoldPass) (s : FoldState) (pos : Nat) :
    reach (pass.step s pos) ≤ reach s + 5 := by
  have looked := reach_looked pass s pos
  rw [step_eq]
  split
  · have comments := foldChange_window_bounds (pass.looked s pos).window
    have ended : reach (pass.endLine (pass.looked s pos)) ≤ reach (pass.looked s pos) + 1 := by
      unfold reach
      rw [level_endLine, lineChange]
      change Int.natAbs _ + Int.natAbs 0 ≤ _
      split <;> omega
    omega
  · split
    · omega
    · change reach (pass.looked s pos) ≤ _
      omega

/-- The levels of a pass that begins with a level number stay as near to zero as the number of its
bytes tells. -/
theorem reach_after (pass : FoldPass) {s : FoldState} (begun : reach s ≤ 0xFFF) {first pos : Nat}
    (le : first ≤ pos) : reach (pass.after s first pos) ≤ 0xFFF + 5 * (pos - first) := by
  induction pos with
  | zero =>
    obtain rfl : first = 0 := Nat.le_zero.1 le
    rw [after_self]
    omega
  | succ pos ih =>
    rcases Nat.lt_or_eq_of_le le with less | rfl
    · have le := Nat.le_of_lt_succ less
      have before := ih le
      have step := pass.reach_step (pass.after s first pos) pos
      rw [after_succ _ _ le]
      omega
    · rw [after_self]
      omega

end FoldPass

namespace Document

variable {doc : Document}

/-- `foldRange` within range. -/
def foldRange? (doc : Document) (form : SourceForm) (start length : Nat) (outside : Style) :
    Option Document := do
  let pass := doc.foldPassOver form outside start length
  let ended ← pass.run? (doc.foldBegun form outside start) (doc.foldStart start)
  some { doc with
    levels := overwrite (pass.settle doc.levels) pass.firstLine ended.emitted.toList }

theorem foldRange?_eq (table : doc.source.Tabled) (form : SourceForm) (start length : Nat)
    (outside : Style) :
    doc.foldRange? form start length outside = some (doc.foldRange form start length outside) := by
  unfold foldRange?
  dsimp only
  rw [FoldPass.run?_eq table, Option.bind_eq_bind, Option.bind_some, ← levels_rechecked]
  rfl

end Document

end FortranMarkup
