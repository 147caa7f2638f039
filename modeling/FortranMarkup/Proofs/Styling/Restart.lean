import FortranMarkup.Proofs.Document.Basic
import FortranMarkup.Proofs.Styling.Resumption

/-!
# The restart position

Where a pass begins is a line start and not after the position that it is asked for
(`restartPosition_le`). If the way back over continued lines was not cut off, the text before that
line does not go on in it (`resumable_of_previous`).
-/

namespace FortranMarkup

namespace Source

variable {src : Source} {first stop : Nat}

theorem lastVisible?_eq_none (space : ∀ pos, first ≤ pos → pos < stop →
    isSpace (src.charD pos ' ') = true) : src.lastVisible? first stop = none := by
  induction stop with
  | zero => rfl
  | succ stop ih =>
    rw [lastVisible?]
    split
    · rfl
    · rename_i reached
      rw [if_pos (space stop (by omega) (Nat.lt_succ_self stop))]
      exact ih fun pos low high => space pos low (Nat.lt_succ_of_lt high)

theorem lastVisible?_eq_some {pos : Nat} (low : first ≤ pos) (high : pos < stop)
    (visible : isSpace (src.charD pos ' ') = false)
    (space : ∀ later, pos < later → later < stop → isSpace (src.charD later ' ') = true) :
    src.lastVisible? first stop = some pos := by
  induction stop with
  | zero => omega
  | succ stop ih =>
    rw [lastVisible?, if_neg (by omega)]
    rcases Nat.lt_or_eq_of_le (Nat.le_of_lt_succ high) with less | rfl
    · rw [if_pos (space stop less (Nat.lt_succ_self stop))]
      exact ih less fun later after before => space later after (Nat.lt_succ_of_lt before)
    · rw [if_neg (by simp [visible])]

end Source

namespace Document

variable {doc : Document} {form : SourceForm}

/-! ## Going back -/

theorem previous?_lt {line previous : Nat} (found : doc.previous? form line = some previous) :
    previous < line := by
  cases form with
  | fixed =>
    cases line with
    | zero => cases found
    | succ line =>
      simp only [previous?, fixedPrevious?] at found
      split at found
      · obtain rfl := Option.some.inj found
        exact Nat.lt_succ_self _
      · cases found
  | free =>
    change doc.freePrevious? line = some previous at found
    induction line with
    | zero => cases found
    | succ line ih =>
      rw [freePrevious?] at found
      split at found
      · split at found
        · obtain rfl := Option.some.inj found
          exact Nat.lt_succ_self _
        · cases found
      · exact Nat.lt_succ_of_lt (ih found)

@[simp] theorem previous?_zero (doc : Document) (form : SourceForm) :
    doc.previous? form 0 = none := by
  cases form <;> rfl

theorem statementLine_le (hops line : Nat) : doc.statementLine form hops line ≤ line := by
  induction hops generalizing line with
  | zero => exact Nat.le_refl _
  | succ hops ih =>
    rw [statementLine]
    split
    · rename_i found
      exact Nat.le_trans (ih _) (Nat.le_of_lt (previous?_lt found))
    · exact Nat.le_refl _

theorem keywordBefore?_le {floor start pos : Nat} (found : doc.keywordBefore? floor start = some pos) :
    pos ≤ start := by
  induction start with
  | zero =>
    rw [keywordBefore?] at found
    split at found
    · obtain rfl := Option.some.inj found
      exact Nat.le_refl _
    · cases found
  | succ start ih =>
    rw [keywordBefore?] at found
    split at found
    · obtain rfl := Option.some.inj found
      exact Nat.le_refl _
    · split at found
      · exact Nat.le_succ_of_le (ih found)
      · cases found

theorem nearLine_le (table : doc.source.Tabled) (start : Nat) :
    doc.nearLine start ≤ doc.source.lineAt start := by
  unfold nearLine
  dsimp only
  split
  · rename_i found
    exact Source.lineAt_mono table (keywordBefore?_le found)
  · exact Nat.le_refl _

theorem restartLine_le (form : SourceForm) (table : doc.source.Tabled) (start : Nat) :
    doc.restartLine form start ≤ doc.source.lineAt start :=
  Nat.le_trans (statementLine_le _ _) (nearLine_le table start)

theorem restartLine_lt_lines (table : doc.source.Tabled) (start : Nat) :
    doc.restartLine form start < doc.source.lines :=
  Nat.lt_of_le_of_lt (restartLine_le form table start) (Source.lineAt_lt_lines table start)

theorem restartPosition_le (form : SourceForm) (table : doc.source.Tabled) (start : Nat) :
    doc.restartPosition form start ≤ start :=
  Nat.le_trans (Source.lineStart_mono table (restartLine_le form table start))
    (Source.lineStart_lineAt_le table start)

theorem restartLine_zero (table : doc.source.Tabled) : doc.restartLine form 0 = 0 := by
  have le := restartLine_le form table 0
  rw [Source.lineAt_zero table] at le
  exact Nat.le_zero.1 le

/-! ## Where the way back ends -/

/-- In free form, the way back does not end at a line before which a mark stands. -/
theorem freePrevious?_ne_none (table : doc.source.Tabled) {line mark : Nat}
    (before : mark < doc.source.lineStart line) (isMark : doc.source.charD mark ' ' = '&')
    (style : doc.styleAt mark ≠ .comment)
    (space : ∀ later, mark < later → later < doc.source.lineStart line →
      isSpace (doc.source.charD later ' ') = true) : doc.freePrevious? line ≠ none := by
  have visible : isSpace (doc.source.charD mark ' ') = false := by
    rw [isMark]
    rfl
  induction line with
  | zero =>
    rw [Source.lineStart_zero table] at before
    omega
  | succ line ih =>
    rw [freePrevious?]
    by_cases here : doc.source.lineStart line ≤ mark
    · have found : doc.source.lastVisible? (doc.source.lineStart line) (doc.source.lineEnd line) =
          some mark := Source.lastVisible?_eq_some here before visible space
      rw [found]
      simp [isMark, style]
    · have after := Nat.lt_of_not_le here
      have none : doc.source.lastVisible? (doc.source.lineStart line) (doc.source.lineEnd line) =
          none := Source.lastVisible?_eq_none fun pos low high => space pos (by omega) high
      rw [none]
      refine ih after fun later low high => space later low ?_
      exact Nat.lt_of_lt_of_le high (Source.lineStart_mono table (Nat.le_succ line))

/-- The text before a line does not go on in it if the line continues no other by the styles of the
document, and those are the given ones before the line. -/
theorem resumable_of_previous (table : doc.source.Tabled) {line : Nat}
    (bound : line < doc.source.lines) (ends : doc.previous? form line = none)
    {styles : List Style}
    (held : ∀ pos, pos < doc.source.lineStart line → ∀ style, styles[pos]? = some style →
      doc.styleAt pos = style) :
    doc.source.Resumable form styles (doc.source.lineStart line) where
  starts := Source.startsLine_lineStart table bound
  fixed := by
    rintro rfl
    cases line with
    | zero => exact .inl (Source.lineStart_zero table)
    | succ line =>
      have later : doc.source.lineStart (line + 1) ≠ 0 := by
        have after : doc.source.lineStart line < doc.source.lineStart (line + 1) :=
          Source.lineStart_lt table (Nat.lt_succ_self line) bound
        omega
      simp only [previous?, fixedPrevious?, Bool.or_eq_true, ite_eq_right_iff, reduceCtorEq,
        imp_false, not_or, Bool.not_eq_true] at ends
      exact .inr (Source.beginsStatement_of_initial (Source.startsLine_lineStart table bound) later
        ends.2 ends.1)
  free := by
    rintro rfl ⟨mark, before, isMark, style, space⟩
    have marked := held mark before _ style
    exact freePrevious?_ne_none table before isMark (by simp [marked]) space ends

end Document

end FortranMarkup
