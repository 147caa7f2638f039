import FortranMarkup.Folding.Pass
import FortranMarkup.Proofs.Document.Basic

/-!
# What a fold pass leaves alone

A fold pass changes fold levels and nothing else, and it leaves one level for every line.
-/

namespace FortranMarkup

theorem CommentWindow.size_recheckLines (window : CommentWindow) (line : Nat) (backs : List Nat)
    (levels : Array FoldLevel) (run? : Option Int) :
    (window.recheckLines line backs levels run?).size = levels.size := by
  fun_induction CommentWindow.recheckLines window line backs levels run? with
  | case1 => rfl
  | case2 | case6 =>
    rename_i ih
    exact ih
  | case3 => rw [size_overwrite, Array.size_setIfInBounds]
  | case4 | case5 =>
    rename_i ih
    rw [ih, Array.size_setIfInBounds]

namespace Document

variable {doc : Document}

theorem size_levels_foldRange (doc : Document) (form : SourceForm) (start length : Nat)
    (outside : Style) :
    (doc.foldRange form start length outside).levels.size = doc.levels.size := by
  simp only [foldRange, size_overwrite]
  split
  · exact CommentWindow.size_recheckLines _ _ _ _ _
  · rfl

theorem fits_foldRange (fits : doc.Fits) (form : SourceForm) (start length : Nat)
    (outside : Style) : (doc.foldRange form start length outside).Fits where
  table := fits.table
  styles := fits.styles
  levels := (size_levels_foldRange doc form start length outside).trans fits.levels

/-! ## What a fold pass does not read -/

variable {doc₁ doc₂ : Document}

theorem styleAt_congr (styles : doc₁.styles = doc₂.styles) (pos : Nat) :
    doc₁.styleAt pos = doc₂.styleAt pos := by
  rw [styleAt, styleAt, styles]

theorem closingParenthesis_congr (source : doc₁.source = doc₂.source)
    (styles : doc₁.styles = doc₂.styles) (style : Style) (stop pos depth : Nat) :
    doc₁.closingParenthesis style stop pos depth = doc₂.closingParenthesis style stop pos depth := by
  fun_induction closingParenthesis doc₁ style stop pos depth <;>
    grind [closingParenthesis, styleAt]

theorem endsFree_congr (source : doc₁.source = doc₂.source) (styles : doc₁.styles = doc₂.styles)
    (stop pos : Nat) : doc₁.endsFree stop pos = doc₂.endsFree stop pos := by
  fun_induction endsFree doc₁ stop pos <;> grind [endsFree, isFiller, styleAt]

theorem endsFixed_congr (source : doc₁.source = doc₂.source) (styles : doc₁.styles = doc₂.styles)
    (stop line pos : Nat) : doc₁.endsFixed stop line pos = doc₂.endsFixed stop line pos := by
  fun_induction endsFixed doc₁ stop line pos <;>
    grind [endsFixed, isFiller, isStyledContinuation, styleAt]

theorem opensBlock_congr (source : doc₁.source = doc₂.source) (styles : doc₁.styles = doc₂.styles)
    (form : SourceForm) (stop line pos : Nat) :
    doc₁.opensBlock form stop line pos = doc₂.opensBlock form stop line pos := by
  unfold opensBlock
  simp only [source, styleAt_congr styles, closingParenthesis_congr source styles,
    endsFree_congr source styles, endsFixed_congr source styles]

end Document

end FortranMarkup
