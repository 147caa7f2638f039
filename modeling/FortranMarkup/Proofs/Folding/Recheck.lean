import FortranMarkup.Folding.CommentWindow
import FortranMarkup.Proofs.Document.Basic

/-!
# Rechecking levels

Where a pass begins, the levels of the comments up to that line are set right. What they are set to
depends on the levels up to that line only (`CommentWindow.recheckLines_agree`).
-/

namespace FortranMarkup

namespace FoldLevel

theorem number_withFlags {n : Int} (low : 0 ≤ n) (high : n ≤ 0xFFF) (flags : FoldFlags) :
    ((FoldLevel.mk n).withFlags flags).number = n := by
  unfold withFlags FoldFlags.bits number
  dsimp only
  split <;> split <;> omega

theorem number_bounds (level : FoldLevel) : 0 ≤ level.number ∧ level.number ≤ 0xFFF := by
  unfold number
  omega

theorem header_of_withFlags {n : Int} (low : 0 ≤ n) (high : n ≤ 0xFFF) {white header header' : Bool}
    (same : (FoldLevel.mk n).withFlags ⟨white, header⟩ = (FoldLevel.mk n).withFlags ⟨white, header'⟩) :
    header = header' := by
  have notHeader : (FoldLevel.mk n).isHeader = false := by
    simp only [isHeader, flags, FoldFlags.ofBits, decide_eq_false_iff_not]
    omega
  have raw := congrArg FoldLevel.raw same
  simp only [withFlags, FoldFlags.bits, notHeader, Bool.not_false, Bool.and_true] at raw
  have bits : (if header = true then (0x2000 : Int) else 0) = if header' = true then 0x2000 else 0 := by
    omega
  revert bits
  cases header <;> cases header' <;> simp

theorem exists_bits (flags : FoldFlags) : ∃ k, flags.bits = 0x1000 * k := by
  refine ⟨(if flags.white then 1 else 0) + (if flags.header then 2 else 0), ?_⟩
  unfold FoldFlags.bits
  split <;> split <;> rfl

theorem drift_of_withFlags {n drift : Int} (near : -9 ≤ drift) (near' : drift ≤ 9)
    {flags : FoldFlags}
    (same : (FoldLevel.mk (n + drift)).withFlags flags = (FoldLevel.mk n).withFlags flags) :
    drift = 0 := by
  have raw := congrArg FoldLevel.raw same
  unfold withFlags at raw
  obtain ⟨k₁, bits₁⟩ := exists_bits ⟨flags.white && !(FoldLevel.mk (n + drift)).isWhite,
    flags.header && !(FoldLevel.mk (n + drift)).isHeader⟩
  obtain ⟨k₂, bits₂⟩ := exists_bits ⟨flags.white && !(FoldLevel.mk n).isWhite,
    flags.header && !(FoldLevel.mk n).isHeader⟩
  rw [bits₁, bits₂] at raw
  dsimp only at raw
  omega

end FoldLevel

namespace CommentWindow

theorem recheckLines_agree (window : CommentWindow) (line : Nat) (backs : List Nat)
    {levels₁ levels₂ : Array FoldLevel} (sizes : levels₁.size = levels₂.size)
    (agree : ∀ i, i ≤ line → levels₁[i]? = levels₂[i]?) (run? : Option Int) :
    ∀ i, i ≤ line → (window.recheckLines line backs levels₁ run?)[i]? =
      (window.recheckLines line backs levels₂ run?)[i]? := by
  induction backs generalizing levels₁ levels₂ run? with
  | nil => exact agree
  | cons back rest ih =>
    have set : ∀ at' level i, i ≤ line →
        (levels₁.setIfInBounds at' level)[i]? = (levels₂.setIfInBounds at' level)[i]? := by
      intro at' level i le
      rw [Array.getElem?_setIfInBounds, Array.getElem?_setIfInBounds, agree i le, sizes]
    have setSizes : ∀ at' level,
        (levels₁.setIfInBounds at' level).size = (levels₂.setIfInBounds at' level).size := by
      intro at' level
      rw [Array.size_setIfInBounds, Array.size_setIfInBounds, sizes]
    intro i le
    unfold recheckLines
    dsimp only
    rw [agree (line - back) (Nat.sub_le _ _)]
    split
    · exact ih sizes agree run? i le
    · split
      · split
        · rw [getElem?_overwrite, getElem?_overwrite, set _ _ i le, setSizes]
        · exact ih (setSizes _ _) (set _ _) _ i le
      · split
        · exact ih (setSizes _ _) (set _ _) _ i le
        · exact ih sizes agree _ i le

/-- Rechecking from the first line on leaves the number of its level as it is. -/
theorem number_recheck_zero (window : CommentWindow) (levels : Array FoldLevel) :
    ((window.recheck levels 0)[0]?.getD FoldLevel.base).number =
      (levels[0]?.getD FoldLevel.base).number := by
  have backs : (List.range windowReach).reverse = [2, 1, 0] := rfl
  have set (level : FoldLevel) (same : level.number = (levels[0]?.getD FoldLevel.base).number) :
      ((levels.setIfInBounds 0 level)[0]?.getD FoldLevel.base).number =
        (levels[0]?.getD FoldLevel.base).number := by
    by_cases some : 0 < levels.size
    · rw [Array.getElem?_setIfInBounds_self_of_lt some, Option.getD_some, same]
    · rw [Array.setIfInBounds_eq_of_size_le (Nat.le_of_not_lt some)]
  obtain ⟨low, high⟩ := FoldLevel.number_bounds (levels[0]?.getD FoldLevel.base)
  rw [recheck, backs]
  simp only [recheckLines, Nat.zero_sub]
  rw [if_pos (by decide), if_pos (by decide), if_neg (by decide)]
  split
  · split
    · exact set _ (FoldLevel.number_withFlags low high _)
    · exact set _ (Int.emod_eq_of_lt low (Int.lt_of_le_of_lt high (by decide)))
  · rfl

end CommentWindow

end FortranMarkup
