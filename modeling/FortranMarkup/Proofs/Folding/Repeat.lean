import FortranMarkup.Proofs.Folding.Passes
import FortranMarkup.Proofs.Folding.Recheck

/-!
# Folding a second time

A fold pass that is done twice leaves what it leaves when it is done once
(`Document.foldRange_foldRange`). Setting comment levels right is settled after one time
(`CommentWindow.recheckLines_recheckLines`), and of the line on which a pass begins it reads the
number only (`CommentWindow.sameBefore_recheckLines`). The pass gives that line a level with the
number that it began with (`FoldPass.number_emitted`), so the second pass begins as the first one.
-/

namespace FortranMarkup

theorem overwrite_overwrite {α : Type} (values : Array α) (first : Nat) (news : List α) :
    overwrite (overwrite values first news) first news = overwrite values first news := by
  apply Array.ext_getElem?
  intro i
  rw [getElem?_overwrite, getElem?_overwrite, size_overwrite]
  split <;> rfl

/-- Levels that agree before a line, on which they have one number. -/
structure SameBefore (line : Nat) (levels₁ levels₂ : Array FoldLevel) : Prop where
  sizes : levels₁.size = levels₂.size
  before : ∀ i, i < line → levels₁[i]? = levels₂[i]?
  number : (levels₁[line]?.getD .base).number = (levels₂[line]?.getD .base).number

namespace SameBefore

variable {line : Nat} {levels₁ levels₂ : Array FoldLevel} (same : SameBefore line levels₁ levels₂)
include same

theorem number_eq {i : Nat} (le : i ≤ line) :
    (levels₁[i]?.getD .base).number = (levels₂[i]?.getD .base).number := by
  rcases Nat.lt_or_eq_of_le le with less | rfl
  · rw [same.before i less]
  · exact same.number

theorem overwrite (first : Nat) (news : List FoldLevel) :
    SameBefore line (overwrite levels₁ first news) (overwrite levels₂ first news) where
  sizes := by rw [size_overwrite, size_overwrite, same.sizes]
  before := by
    intro i less
    rw [getElem?_overwrite, getElem?_overwrite, same.before i less, same.sizes]
  number := by
    rw [getElem?_overwrite, getElem?_overwrite, same.sizes]
    split
    · rfl
    · exact same.number

theorem setIfInBounds (i : Nat) (level : FoldLevel) :
    SameBefore line (levels₁.setIfInBounds i level) (levels₂.setIfInBounds i level) :=
  same.overwrite i [level]

end SameBefore

namespace CommentWindow

variable {levels levels₁ levels₂ : Array FoldLevel} {line : Nat}

/-- The lines before the earliest one that is set right keep their levels, as do those after `line`.
-/
theorem getElem?_recheckLines (window : CommentWindow) {backs : List Nat} (run? : Option Int)
    {i : Nat} (outside : line < i ∨ ∀ back ∈ backs, back ≤ line → i < line - back) :
    (window.recheckLines line backs levels run?)[i]? = levels[i]? := by
  induction backs generalizing levels run? with
  | nil => rfl
  | cons back rest ih =>
    have outsideRest : line < i ∨ ∀ back ∈ rest, back ≤ line → i < line - back :=
      outside.imp_right fun before later member => before later (List.mem_cons_of_mem _ member)
    have ne : back ≤ line → line - back ≠ i := by
      intro le
      rcases outside with past | before
      · omega
      · exact (Nat.ne_of_lt (before back List.mem_cons_self le)).symm
    have set : ∀ level, back ≤ line → (levels.setIfInBounds (line - back) level)[i]? = levels[i]? :=
      fun level le => Array.getElem?_setIfInBounds_ne (ne le)
    unfold recheckLines
    dsimp only
    split
    · exact ih _ outsideRest
    · rename_i le
      have le := Nat.le_of_not_lt le
      split
      · split
        · rw [getElem?_overwrite, if_neg, set _ le]
          rw [List.length_replicate]
          rintro ⟨low, high, -⟩
          rcases outside with past | before
          · omega
          · have := before back List.mem_cons_self le
            omega
        · rw [ih _ outsideRest, set _ le]
      · split
        · rw [ih _ outsideRest, set _ le]
        · exact ih _ outsideRest

theorem sameBefore_recheckLines (window : CommentWindow) (backs : List Nat)
    (same : SameBefore line levels₁ levels₂) (run? : Option Int) :
    SameBefore line (window.recheckLines line backs levels₁ run?)
      (window.recheckLines line backs levels₂ run?) := by
  induction backs generalizing levels₁ levels₂ run? with
  | nil => exact same
  | cons back rest ih =>
    unfold recheckLines
    dsimp only
    rw [same.number_eq (Nat.sub_le line back)]
    split
    · exact ih same run?
    · split
      · split
        · exact (same.setIfInBounds _ _).overwrite _ _
        · exact ih (same.setIfInBounds _ _) _
      · split
        · exact ih (same.setIfInBounds _ _) _
        · exact ih same _

theorem number_setIfInBounds {i : Nat} {level : FoldLevel}
    (number : level.number = (levels[i]?.getD .base).number) :
    ((levels.setIfInBounds i level)[i]?.getD .base).number = (levels[i]?.getD .base).number := by
  by_cases inside : i < levels.size
  · rw [Array.getElem?_setIfInBounds_self_of_lt inside, ← number]
    rfl
  · rw [Array.setIfInBounds_eq_of_size_le (Nat.le_of_not_lt inside)]

/-- What a later step leaves at a line is what was put there. -/
theorem recheckLines_setIfInBounds (window : CommentWindow) {back : Nat} {rest : List Nat}
    (descending : (back :: rest).Pairwise (· > ·)) (le : back ≤ line) (levels : Array FoldLevel)
    (level : FoldLevel) (run? : Option Int) :
    (window.recheckLines line rest (levels.setIfInBounds (line - back) level) run?)[line - back]? =
      (levels.setIfInBounds (line - back) level)[line - back]? := by
  refine getElem?_recheckLines window run? (.inr fun later member _ => ?_)
  have := (List.pairwise_cons.1 descending).1 later member
  omega

theorem setIfInBounds_recheckLines (window : CommentWindow) {back : Nat} {rest : List Nat}
    (descending : (back :: rest).Pairwise (· > ·)) (le : back ≤ line) (levels : Array FoldLevel)
    (level : FoldLevel) (run? : Option Int) :
    (window.recheckLines line rest (levels.setIfInBounds (line - back) level) run?).setIfInBounds
        (line - back) level =
      window.recheckLines line rest (levels.setIfInBounds (line - back) level) run? := by
  apply Array.ext_getElem?
  intro i
  rw [Array.getElem?_setIfInBounds]
  split
  · subst i
    rw [recheckLines_setIfInBounds window descending le, Array.getElem?_setIfInBounds, if_pos rfl,
      size_recheckLines, Array.size_setIfInBounds]
  · rfl

/-- Levels that have been set right stay as they are, if the lines are gone through from the earliest
one on. -/
theorem recheckLines_recheckLines (window : CommentWindow) {backs : List Nat}
    (descending : backs.Pairwise (· > ·)) (levels : Array FoldLevel) (run? : Option Int) :
    window.recheckLines line backs (window.recheckLines line backs levels run?) run? =
      window.recheckLines line backs levels run? := by
  fun_induction recheckLines window line backs levels run? with
  | case1 => rfl
  | case2 back rest levels run? early ih =>
    have settled := ih descending.of_cons
    generalize window.recheckLines line rest levels run? = out at settled ⊢
    unfold recheckLines
    dsimp only
    rw [if_pos early, settled]
  | case3 back rest levels run? current number early begins folds opened =>
    unfold recheckLines
    dsimp only
    rw [if_neg early, if_pos begins, if_pos folds]
    have kept : ((overwrite opened (current + 1) (List.replicate back ⟨number + 1⟩))[current]?.getD
        .base).number = number := by
      rw [getElem?_overwrite, if_neg (by omega)]
      exact number_setIfInBounds (FoldLevel.number_withFlags (FoldLevel.number_bounds _).1
        (FoldLevel.number_bounds _).2 _)
    rw [kept]
    exact overwrite_overwrite levels current
      (FoldLevel.withFlags ⟨number⟩ ⟨false, true⟩ :: List.replicate back ⟨number + 1⟩)
  | case4 back rest levels run? current number early begins folds ih =>
    have settled := ih descending.of_cons
    have there := window.recheckLines_setIfInBounds descending (Nat.le_of_not_lt early) levels
      ⟨number⟩ (some number)
    have same := window.setIfInBounds_recheckLines descending (Nat.le_of_not_lt early) levels
      ⟨number⟩ (some number)
    generalize window.recheckLines line rest (levels.setIfInBounds current ⟨number⟩)
      (some number) = out at settled there same ⊢
    have kept : (out[current]?.getD .base).number = number := by
      rw [there]
      exact number_setIfInBounds (Int.emod_emod _ _)
    unfold recheckLines
    dsimp only
    rw [if_neg early, if_pos begins, if_neg folds, kept, same, settled]
  | case5 back rest levels current early begins first mark isMark ih =>
    have settled := ih descending.of_cons
    have same := window.setIfInBounds_recheckLines descending (Nat.le_of_not_lt early) levels
      ⟨first⟩ (some first)
    generalize window.recheckLines line rest (levels.setIfInBounds current ⟨first⟩)
      (some first) = out at settled same ⊢
    unfold recheckLines
    dsimp only
    rw [if_neg early, if_neg begins, isMark]
    dsimp only
    rw [same, settled]
  | case6 back rest levels run? early begins noMark ih =>
    have settled := ih descending.of_cons
    generalize window.recheckLines line rest levels run? = out at settled ⊢
    unfold recheckLines
    dsimp only
    rw [if_neg early, if_neg begins]
    split
    · rename_i first mark isMark
      exact (noMark first _ rfl isMark).elim
    · exact settled

end CommentWindow

/-! ## The line of context -/

namespace FoldPass

/-- What a pass that begins with a line of context knows of it: its level number while it is on that
line, and afterwards that this is the number which it has given the line. -/
def KeepsNumber (number : Int) (s : FoldState) : Prop :=
  (s.isContext = true ∧ s.level = number ∧ s.emitted = #[]) ∨
    ∃ level, s.emitted[0]? = some level ∧ level.number = number

theorem level_looked_of_isContext (pass : FoldPass) {s : FoldState} (context : s.isContext = true)
    (pos : Nat) : (pass.looked s pos).level = s.level := by
  by_cases ends : pass.endsWord pos = true
  · rw [(looked_of_endsWord ends).2.1, context, Bool.not_true, Bool.and_false]
    exact if_neg Bool.false_ne_true
  · exact (looked_of_not_endsWord ends).2.1

theorem KeepsNumber.step {number : Int} {s : FoldState} (keeps : KeepsNumber number s)
    (pass : FoldPass) (low : 0 ≤ number) (high : number ≤ 0xFFF) (pos : Nat) :
    KeepsNumber number (pass.step s pos) := by
  obtain ⟨-, context, -, emitted, -⟩ := pass.looked_frame s pos
  rcases keeps with ⟨isContext, level, none⟩ | ⟨level, first, isNumber⟩
  · have looked := (pass.level_looked_of_isContext isContext pos).trans level
    rw [step_eq]
    split
    · refine .inr ⟨pass.lineLevel (pass.looked s pos), ?_, ?_⟩
      · rw [emitted_endLine, emitted, none]
        rfl
      · rw [lineLevel, looked, FoldLevel.number_withFlags low high]
    · have stays : KeepsNumber number (pass.looked s pos) :=
        .inl ⟨context.trans isContext, looked, emitted.trans none⟩
      split
      · exact stays
      · exact stays
  · refine .inr ⟨level, ?_, isNumber⟩
    obtain ⟨bound, -⟩ := Array.getElem?_eq_some_iff.1 first
    rw [emitted_step]
    split
    · rw [Array.getElem?_push_lt bound, ← first, Array.getElem?_eq_getElem bound]
    · exact first

theorem KeepsNumber.run {number : Int} {s : FoldState} (keeps : KeepsNumber number s)
    (pass : FoldPass) (low : 0 ≤ number) (high : number ≤ 0xFFF) (start : Nat) :
    KeepsNumber number (pass.run s start) := by
  unfold FoldPass.run
  generalize List.range' start (pass.stop - start) = positions
  induction positions generalizing s with
  | nil => exact keeps
  | cons pos rest ih => exact ih (keeps.step pass low high pos)

end FoldPass

/-! ## The second pass -/

namespace FoldPass

variable {pass : FoldPass} {levels levels₁ levels₂ : Array FoldLevel}

/-- Sets right the levels of the comments up to the line on which a pass begins, if comments fold. -/
def settle (pass : FoldPass) (levels : Array FoldLevel) : Array FoldLevel :=
  if pass.foldsComments then
    (CommentWindow.around pass.doc.source pass.form pass.firstLine).recheck levels pass.firstLine
  else levels

theorem settle_settle (pass : FoldPass) (levels : Array FoldLevel) :
    pass.settle (pass.settle levels) = pass.settle levels := by
  unfold settle
  split
  · exact CommentWindow.recheckLines_recheckLines _ (by decide) levels none
  · rfl

theorem sameBefore_settle (pass : FoldPass) (same : SameBefore pass.firstLine levels₁ levels₂) :
    SameBefore pass.firstLine (pass.settle levels₁) (pass.settle levels₂) := by
  unfold settle
  split
  · exact CommentWindow.sameBefore_recheckLines _ _ same none
  · exact same

theorem getElem?_settle_of_lt {line : Nat} (past : pass.firstLine < line) :
    (pass.settle levels)[line]? = levels[line]? := by
  unfold settle
  split
  · exact CommentWindow.getElem?_recheckLines _ _ (.inl past)
  · rfl

theorem size_settle (pass : FoldPass) (levels : Array FoldLevel) :
    (pass.settle levels).size = levels.size := by
  unfold settle
  split
  · exact CommentWindow.size_recheckLines _ _ _ _ _
  · rfl

/-- If the levels before a pass stay as they are, the pass leaves all levels as they are when it gives
its lines the levels that it has given them before. -/
theorem overwrite_settle (pass : FoldPass) (levels : Array FoldLevel) (news : List FoldLevel)
    {once : Array FoldLevel} (isOnce : overwrite (pass.settle levels) pass.firstLine news = once)
    (before : ∀ i, i < pass.firstLine → (pass.settle once)[i]? = once[i]?) :
    overwrite (pass.settle once) pass.firstLine news = once := by
  cases news with
  | nil =>
    obtain rfl : pass.settle levels = once := isOnce
    exact pass.settle_settle levels
  | cons level rest =>
    have size : (pass.settle levels).size = once.size := isOnce ▸ (size_overwrite _ _ _).symm
    apply Array.ext_getElem?
    intro i
    have written : (overwrite (pass.settle levels) pass.firstLine (level :: rest))[i]? = once[i]? := by
      rw [isOnce]
    rw [getElem?_overwrite, size] at written
    rw [getElem?_overwrite, size_settle]
    split
    · rename_i inside
      rwa [if_pos inside] at written
    · rename_i outside
      rcases Nat.lt_trichotomy i pass.firstLine with less | rfl | past
      · exact before i less
      · have past : once.size ≤ pass.firstLine := by
          rw [List.length_cons] at outside
          omega
        rw [Array.getElem?_eq_none (size_settle pass once ▸ past), Array.getElem?_eq_none past]
      · exact getElem?_settle_of_lt past

end FoldPass

namespace Document

variable (doc : Document) (form : SourceForm) (outside : Style) (start length : Nat)

/-- The pass over a range. -/
def foldPassOver : FoldPass :=
  ⟨doc, form, outside, doc.source.lineAt start - 1, min (start + length) doc.size⟩

/-- The levels that the pass over a range gives its lines. -/
def levelsGiven : List FoldLevel :=
  ((doc.foldPassOver form outside start length).run (doc.foldBegun form outside start)
    (doc.foldStart start)).emitted.toList

theorem levels_rechecked : (doc.rechecked form outside start).levels =
    (doc.foldPassOver form outside start length).settle doc.levels := by
  unfold rechecked foldWindow
  change (if (doc.foldPass form outside start).foldsComments = true then _ else _) =
    if (doc.foldPass form outside start).foldsComments = true then _ else _
  split <;> rfl

theorem levels_foldRange : (doc.foldRange form start length outside).levels =
    overwrite ((doc.foldPassOver form outside start length).settle doc.levels)
      (doc.source.lineAt start - 1) (doc.levelsGiven form outside start length) := by
  rw [← levels_rechecked]
  rfl

theorem number_foldLevel (inner : doc.source.lineAt start ≠ 0) :
    (doc.foldLevel form outside start).number =
      (((doc.foldPassOver form outside start length).settle doc.levels)[doc.source.lineAt start - 1]?.getD
        .base).number := by
  rw [foldLevel, if_neg inner, levelAt, levels_rechecked doc form outside start length]

theorem sameBefore_foldRange (inner : doc.source.lineAt start ≠ 0) :
    SameBefore (doc.source.lineAt start - 1) (doc.foldRange form start length outside).levels
      ((doc.foldPassOver form outside start length).settle doc.levels) := by
  have keeps : FoldPass.KeepsNumber (doc.foldLevel form outside start).number
      (doc.foldBegun form outside start) := .inl ⟨decide_eq_true inner, rfl, rfl⟩
  have keeps := keeps.run (doc.foldPassOver form outside start length)
    (FoldLevel.number_bounds _).1 (FoldLevel.number_bounds _).2 (doc.foldStart start)
  rw [number_foldLevel doc form outside start length inner] at keeps
  rw [levels_foldRange, levelsGiven]
  generalize (doc.foldPassOver form outside start length).run _ _ = ended at keeps ⊢
  rcases keeps with ⟨-, -, none⟩ | ⟨level, first, number⟩
  · rw [none]
    exact ⟨rfl, fun _ _ => rfl, rfl⟩
  · refine ⟨size_overwrite _ _ _, fun i less => ?_, ?_⟩
    · rw [getElem?_overwrite, if_neg (by omega)]
    · rw [getElem?_overwrite, Nat.sub_self, Array.getElem?_toList, first]
      split
      · exact number
      · rfl

theorem sameBefore_settle_foldRange (inner : doc.source.lineAt start ≠ 0) :
    SameBefore (doc.source.lineAt start - 1)
      ((doc.foldPassOver form outside start length).settle
        (doc.foldRange form start length outside).levels)
      ((doc.foldPassOver form outside start length).settle doc.levels) := by
  have same := (doc.foldPassOver form outside start length).sameBefore_settle
    (doc.sameBefore_foldRange form outside start length inner)
  rwa [FoldPass.settle_settle] at same

theorem foldBegun_foldRange :
    (doc.foldRange form start length outside).foldBegun form outside start =
      doc.foldBegun form outside start := by
  have number : ((doc.foldRange form start length outside).foldLevel form outside start).number =
      (doc.foldLevel form outside start).number := by
    by_cases inner : doc.source.lineAt start = 0
    · have outer : (doc.foldRange form start length outside).source.lineAt start = 0 := inner
      rw [foldLevel, foldLevel, if_pos inner, if_pos outer]
    · rw [number_foldLevel doc _ _ _ length inner,
        number_foldLevel (doc.foldRange form start length outside) _ _ _ length inner]
      exact (doc.sameBefore_settle_foldRange form outside start length inner).number
  rw [foldBegun, number]
  rfl

theorem levelsGiven_foldRange :
    (doc.foldRange form start length outside).levelsGiven form outside start length =
      doc.levelsGiven form outside start length := by
  have same : ((doc.foldRange form start length outside).foldPassOver form outside start length).SameText
      (doc.foldPassOver form outside start length) := ⟨rfl, rfl, rfl, rfl, rfl, rfl⟩
  have step : ((doc.foldRange form start length outside).foldPassOver form outside start length).step =
      (doc.foldPassOver form outside start length).step := by
    funext s pos
    exact same.step_eq rfl s pos
  rw [levelsGiven, levelsGiven, FoldPass.run, FoldPass.run, step, foldBegun_foldRange]
  rfl

/-- A fold pass done twice leaves the levels that it leaves when it is done once. -/
theorem foldRange_foldRange :
    (doc.foldRange form start length outside).foldRange form start length outside =
      doc.foldRange form start length outside := by
  have once := doc.levels_foldRange form outside start length
  have twice := (doc.foldRange form start length outside).levels_foldRange form outside start length
  have levels : ((doc.foldRange form start length outside).foldRange form start length outside).levels =
      (doc.foldRange form start length outside).levels := by
    rw [twice, levelsGiven_foldRange]
    refine FoldPass.overwrite_settle (doc.foldPassOver form outside start length) doc.levels _
      once.symm fun i less => ?_
    have inner : doc.source.lineAt start ≠ 0 := fun zero => by
      change i < doc.source.lineAt start - 1 at less
      omega
    rw [(doc.sameBefore_settle_foldRange form outside start length inner).before i less,
      (doc.sameBefore_foldRange form outside start length inner).before i less]
  exact congrArg (fun levels => { doc with levels := levels }) levels

end Document

end FortranMarkup
