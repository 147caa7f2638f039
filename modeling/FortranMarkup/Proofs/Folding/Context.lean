import FortranMarkup.Proofs.Folding.Resuming

/-!
# The line of context

A pass that begins on a line takes its first keyword to begin with the line, even where none begins
there. So it can know a keyword that a pass from before does not know, and one keyword after that
can count in another way; the two passes are never many blocks apart (`FoldPass.Near.step`).
-/

namespace FortranMarkup

/-! ## How much a keyword counts -/

theorem foldChange_bounds (word previous : String) (next : Char) :
    -1 ≤ foldChange word previous next ∧ foldChange word previous next ≤ 1 := by
  unfold foldChange
  repeat' split
  all_goals decide

theorem foldEffect_bounds (word previous : String) (next : Char) (atEnd : Bool) :
    -3 ≤ (foldEffect word previous next atEnd).change ∧
      (foldEffect word previous next atEnd).change ≤ 3 := by
  have bounds := foldChange_bounds word previous next
  have kept : -1 ≤ (if word = "do" ∧ next.isDigit then 0 else foldChange word previous next) ∧
      (if word = "do" ∧ next.isDigit then 0 else foldChange word previous next) ≤ 1 := by
    split
    · decide
    · exact bounds
  unfold foldEffect
  dsimp only
  generalize (if word = "do" ∧ next.isDigit then 0 else foldChange word previous next) = change at *
  repeat' split
  all_goals dsimp only
  all_goals omega

namespace FoldPass

theorem wordEffect_bounds (pass : FoldPass) (line pos : Nat) (word previous : String) :
    -3 ≤ (pass.wordEffect line pos word previous).change ∧
      (pass.wordEffect line pos word previous).change ≤ 3 := by
  unfold wordEffect
  split
  · dsimp only
    split <;> decide
  · exact foldEffect_bounds _ _ _ _

theorem wordEffect_of_not_mem {pass : FoldPass} {line pos : Nat} {word : String}
    (unknown : word ∉ foldWords) (previous : String) :
    (pass.wordEffect line pos word previous).change = 0 := by
  rw [← wordEffect_known, knownWord_of_not_mem unknown, wordEffect,
    if_neg (by simp), foldEffect_of_not_mem empty_not_mem_foldWords]

variable {p₀ p₁ : FoldPass} {first pos : Nat} {s₀ s₁ : FoldState}

/-- Two passes on one line of which the second has begun there. Before the first keyword of the line
ends they have read the same, but the second may have a word at hand; after it, one keyword more can
count in another way. -/
structure Near (p₀ p₁ : FoldPass) (pos : Nat) (s₀ s₁ : FoldState) : Prop where
  alongside : Alongside p₀ p₁ pos s₀ s₁
  low : -9 ≤ s₁.change - s₀.change
  high : s₁.change - s₀.change ≤ 9
  early : knownWord s₀.previous ≠ knownWord s₁.previous →
    -3 ≤ s₁.change - s₀.change ∧ s₁.change - s₀.change ≤ 3
  word : p₀.SameWord pos s₀.wordStart s₁.wordStart ∨
    (s₁.change = s₀.change ∧ knownWord s₀.previous = knownWord s₁.previous ∧
      p₀.Useless s₀.wordStart pos)

namespace Near

/-- A word that ends is known to both passes as the same, or it is the first of the line and the pass
from before does not know it. -/
theorem known_or_first (same : SameText p₀ p₁) (near : Near p₀ p₁ pos s₀ s₁)
    (ends : p₀.endsWord pos = true) :
    knownWord (p₀.wordBy s₀ pos) = knownWord (p₁.wordBy s₁ pos) ∨
      (s₁.change = s₀.change ∧ (p₀.effectAt s₀ pos).change = 0) := by
  rcases near.word with word | ⟨change, -, useless⟩
  · exact .inl (word.knownWord_wordBy same ends)
  · by_cases notes : p₀.Notes pos
    · left
      rw [wordBy, wordBy, ← same.wordFrom_eq, (p₀.looked_frame s₀ pos).2.2.2.2,
        (p₁.looked_frame s₁ pos).2.2.2.2, if_pos notes, if_pos ((same.notes_iff pos).1 notes)]
    · refine .inr ⟨change, wordEffect_of_not_mem ?_ _⟩
      rw [wordBy, (p₀.looked_frame s₀ pos).2.2.2.2, if_neg notes]
      refine useless pos (Nat.le_refl _) rfl ?_ ends
      intro between low high
      rwa [Nat.le_antisymm high low]

theorem endWord (table : p₀.doc.source.Tabled) (same : SameText p₀ p₁)
    (near : Near p₀ p₁ pos s₀ s₁) (inLine : ¬endsLineAt p₀.doc.source.bytes pos = true)
    (ends : p₀.endsWord pos = true) : Near p₀ p₁ (pos + 1) (p₀.looked s₀ pos) (p₁.looked s₁ pos) := by
  obtain ⟨change₀, -, previous₀⟩ := looked_of_endsWord (s := s₀) ends
  obtain ⟨change₁, -, previous₁⟩ :=
    looked_of_endsWord (s := s₁) ((same.endsWord_eq pos).symm.trans ends)
  have bounds₀ : -3 ≤ (p₀.effectAt s₀ pos).change ∧ (p₀.effectAt s₀ pos).change ≤ 3 :=
    wordEffect_bounds _ _ _ _ _
  have bounds₁ : -3 ≤ (p₁.effectAt s₁ pos).change ∧ (p₁.effectAt s₁ pos).change ≤ 3 :=
    wordEffect_bounds _ _ _ _ _
  have alongside := near.alongside.looked
  have word : p₀.SameWord (pos + 1) (p₀.looked s₀ pos).wordStart (p₁.looked s₁ pos).wordStart :=
    .inr ⟨useless_of_endsWord alongside.start_le₀ ends,
      useless_of_endsWord alongside.start_le₁ ends⟩
  have early := near.early
  have low := near.low
  have high := near.high
  rcases near.known_or_first same ends with known | ⟨change, effect⟩
  · have settled : knownWord (p₀.looked s₀ pos).previous = knownWord (p₁.looked s₁ pos).previous := by
      rw [previous₀, previous₁, known]
    have bounds : -9 ≤ (p₁.looked s₁ pos).change - (p₀.looked s₀ pos).change ∧
        (p₁.looked s₁ pos).change - (p₀.looked s₀ pos).change ≤ 9 := by
      rw [change₀, change₁]
      by_cases previous : knownWord s₀.previous = knownWord s₁.previous
      · rw [near.alongside.effectAt_eq same known previous]
        omega
      · have := early previous
        omega
    exact ⟨alongside.inLine table inLine, bounds.1, bounds.2, fun other => absurd settled other,
      .inl word⟩
  · have bounds : -3 ≤ (p₁.looked s₁ pos).change - (p₀.looked s₀ pos).change ∧
        (p₁.looked s₁ pos).change - (p₀.looked s₀ pos).change ≤ 3 := by
      rw [change₀, change₁]
      omega
    exact ⟨alongside.inLine table inLine, by omega, by omega, fun _ => bounds, .inl word⟩

theorem pass (table : p₀.doc.source.Tabled) (same : SameText p₀ p₁) (near : Near p₀ p₁ pos s₀ s₁)
    (inLine : ¬endsLineAt p₀.doc.source.bytes pos = true) (ends : ¬p₀.endsWord pos = true) :
    Near p₀ p₁ (pos + 1) (p₀.looked s₀ pos) (p₁.looked s₁ pos) := by
  obtain ⟨change₀, -, previous₀⟩ := looked_of_not_endsWord (s := s₀) ends
  obtain ⟨change₁, -, previous₁⟩ :=
    looked_of_not_endsWord (s := s₁) (same.endsWord_eq pos ▸ ends)
  have start₀ := (p₀.looked_frame s₀ pos).2.2.2.2
  have start₁ := (p₁.looked_frame s₁ pos).2.2.2.2
  refine ⟨near.alongside.looked.inLine table inLine, ?_, ?_, ?_, ?_⟩
  · rw [change₀, change₁]
    exact near.low
  · rw [change₀, change₁]
    exact near.high
  · rw [change₀, change₁, previous₀, previous₁]
    exact near.early
  · rw [change₀, change₁, previous₀, previous₁]
    by_cases notes : p₀.Notes pos
    · left
      rw [start₀, start₁, if_pos notes, if_pos ((same.notes_iff pos).1 notes)]
      exact .inl rfl
    · rw [start₀, start₁, if_neg notes, if_neg (mt (same.notes_iff pos).2 notes)]
      rcases near.word with word | ⟨change, previous, useless⟩
      · exact .inl (word.succ table (.inr notes) inLine)
      · exact .inr ⟨change, previous, useless_succ table useless notes inLine⟩

theorem withVisible (near : Near p₀ p₁ pos s₀ s₁) :
    Near p₀ p₁ pos { s₀ with visible := true } { s₁ with visible := true } :=
  { near with alongside := near.alongside.withVisible }

theorem step (table : p₀.doc.source.Tabled) (same : SameText p₀ p₁) (near : Near p₀ p₁ pos s₀ s₁)
    (inLine : ¬endsLineAt p₀.doc.source.bytes pos = true) :
    Near p₀ p₁ (pos + 1) (p₀.step s₀ pos) (p₁.step s₁ pos) := by
  have moved : Near p₀ p₁ (pos + 1) (p₀.looked s₀ pos) (p₁.looked s₁ pos) := by
    by_cases ends : p₀.endsWord pos = true
    · exact near.endWord table same inLine ends
    · exact near.pass table same inLine ends
  rw [step_eq, step_eq, ← same.source, if_neg inLine, if_neg inLine]
  split
  · exact moved
  · exact moved.withVisible

end Near

theorem Near.after (table : p₀.doc.source.Tabled) (same : SameText p₀ p₁)
    (near : Near p₀ p₁ first s₀ s₁) (le : first ≤ pos)
    (inLine : ∀ between, first ≤ between → between < pos →
      ¬endsLineAt p₀.doc.source.bytes between = true) :
    Near p₀ p₁ pos (p₀.after s₀ first pos) (p₁.after s₁ first pos) := by
  obtain ⟨count, rfl⟩ := Nat.exists_eq_add_of_le le
  clear le
  induction count with
  | zero =>
    rw [Nat.add_zero, after_self, after_self]
    exact near
  | succ count ih =>
    rw [← Nat.add_assoc, after_succ _ _ (Nat.le_add_right _ _),
      after_succ _ _ (Nat.le_add_right _ _)]
    refine (ih ?_).step table same (inLine _ (Nat.le_add_right _ _) (Nat.lt_succ_self _))
    intro between low high
    exact inLine between low (Nat.lt_succ_of_lt high)

theorem context_after {pass : FoldPass} {s : FoldState} (context : s.isContext = true)
    (le : first ≤ pos)
    (inLine : ∀ between, first ≤ between → between < pos →
      ¬endsLineAt pass.doc.source.bytes between = true) :
    (pass.after s first pos).isContext = true ∧ (pass.after s first pos).level = s.level := by
  obtain ⟨count, rfl⟩ := Nat.exists_eq_add_of_le le
  clear le
  induction count with
  | zero =>
    rw [Nat.add_zero, after_self]
    exact ⟨context, rfl⟩
  | succ count ih =>
    obtain ⟨still, level⟩ := ih (fun between low high => inLine between low (Nat.lt_succ_of_lt high))
    rw [← Nat.add_assoc, after_succ _ _ (Nat.le_add_right _ _), step_eq,
      if_neg (inLine _ (Nat.le_add_right _ _) (Nat.lt_succ_self _)), ← level]
    generalize pass.after s first (first + count) = here at still
    have kept : (pass.looked here (first + count)).isContext = true ∧
        (pass.looked here (first + count)).level = here.level := by
      refine ⟨(pass.looked_frame here _).2.1.trans still, ?_⟩
      by_cases ends : pass.endsWord (first + count) = true
      · rw [(looked_of_endsWord ends).2.1, still, Bool.not_true, Bool.and_false]
        rfl
      · exact (looked_of_not_endsWord ends).2.1
    split
    · exact kept
    · exact kept

theorem after_end {pass : FoldPass} {s : FoldState} (le : first ≤ pos)
    (ends : endsLineAt pass.doc.source.bytes pos = true) :
    (pass.after s first (pos + 1)).change = 0 ∧ (pass.after s first (pos + 1)).visible = false ∧
      (pass.after s first (pos + 1)).previous = "" := by
  rw [after_succ _ _ le, step_eq, if_pos ends]
  exact ⟨rfl, rfl, rfl⟩

end FoldPass

end FortranMarkup
