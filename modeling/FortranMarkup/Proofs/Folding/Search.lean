import Mathlib.Logic.Function.Iterate
import FortranMarkup.Folding.Construct
import FortranMarkup.Styling.Pass
import FortranMarkup.Keyword.Builtin
import FortranMarkup.Proofs.Document.Ranges

/-!
# How long the search for the end of a statement takes

Whether `forall` or `where` opens a block is found in three loops: one for the parenthesis that opens
the control expression, one for the parenthesis that closes it, and one for the end of the statement.
An `EndSearch` is in one of them, and `Document.searchTurn` is one turn of it.

In fixed form the last loop can go back, even to a line before the one that it is on, since the lines
that may continue the statement are counted from the line of the keyword
(`Document.searchTurn_goesBack`). But each time one line less is left to go on to, and in all other
turns less text. So the search ends after a bounded number of turns, in free form after about as many
as the text has bytes, with the answer of `Document.opensBlock` (`Document.search_ends`).
-/

namespace FortranMarkup

/-- Where the search for the end of a `forall` or `where` statement stands. -/
inductive EndSearch where
  | opening (pos : Nat)
  | closing (style : Style) (pos depth : Nat)
  /-- What follows the control expression is read, on what counts as the line `line`. -/
  | ending (line pos : Nat)
  | answered (opens : Bool)
deriving Repr, DecidableEq

namespace Document

variable {doc : Document} {form : SourceForm} {stop line pos : Nat}

/-! ## Turns -/

/-- A turn of the loop that looks for the opening parenthesis. -/
def openingTurn (doc : Document) (stop pos : Nat) : EndSearch :=
  if pos < stop ∧ doc.source.charD pos ' ' ≠ '(' then .opening (pos + 1)
  else .closing (doc.styleAt pos) pos 1

/-- A turn of the loop that looks for the parenthesis that closes `depth` open ones. -/
def closingTurn (doc : Document) (stop line : Nat) (style : Style) (pos depth : Nat) : EndSearch :=
  let c := doc.source.charD (pos + 1) ' '
  if pos < stop then
    if doc.styleAt (pos + 1) = style then
      if c = '(' then .closing style (pos + 1) (depth + 1)
      else if c = ')' then
        if depth ≤ 1 then .ending line (pos + 1) else .closing style (pos + 1) (depth - 1)
      else .closing style (pos + 1) depth
    else .closing style (pos + 1) depth
  else .ending line pos

/-- A turn of the loop that looks for the end of the statement. -/
def endingTurn (doc : Document) (form : SourceForm) (stop line pos : Nat) : EndSearch :=
  let c := doc.source.charD (pos + 1) ' '
  if pos < stop then
    if doc.isFiller (pos + 1) then .ending line (pos + 1)
    else
      match form with
      | .fixed =>
        if !isLineEnd c then .answered false
        else if line + 1 < doc.source.lineCount then
          if doc.isStyledContinuation (line + 1) then
            .ending (line + 1) (doc.source.lineStart (line + 1) + 5)
          else .answered true
        else .ending line (pos + 1)
      | .free =>
        if c = '&' ∧ doc.styleAt (pos + 1) = .continuation then
          .ending line (doc.source.continuedText (pos + 2) - 1)
        else .answered (isLineEnd c)
  else .answered false

/-- A turn of the search after a keyword on a line. Where a loop is done, the next one begins. -/
def searchTurn (doc : Document) (form : SourceForm) (stop line : Nat) : EndSearch → EndSearch
  | .opening pos => doc.openingTurn stop pos
  | .closing style pos depth => doc.closingTurn stop line style pos depth
  | .ending reached pos => doc.endingTurn form stop reached pos
  | .answered opens => .answered opens

/-! ## The answer stays the same -/

/-- Whether a statement ends after a position without showing anything more. -/
def endsIn (doc : Document) (form : SourceForm) (stop line pos : Nat) : Bool :=
  match form with
  | .fixed => doc.endsFixed stop line pos
  | .free => doc.endsFree stop pos

/-- The answer that a search comes to. -/
def searchAnswer (doc : Document) (form : SourceForm) (stop line : Nat) : EndSearch → Bool
  | .opening pos =>
    let opening := doc.source.skipWhile (· ≠ '(') stop pos
    doc.endsIn form stop line (doc.closingParenthesis (doc.styleAt opening) stop opening 1)
  | .closing style pos depth =>
    doc.endsIn form stop line (doc.closingParenthesis style stop pos depth)
  | .ending reached pos => doc.endsIn form stop reached pos
  | .answered opens => opens

theorem searchAnswer_openingTurn :
    doc.searchAnswer form stop line (doc.openingTurn stop pos) =
      doc.searchAnswer form stop line (.opening pos) := by
  unfold openingTurn
  split
  · rename_i other
    rw [searchAnswer, searchAnswer, Source.skipWhile.eq_def _ _ _ pos, if_pos other.1,
      if_pos (decide_eq_true other.2)]
  · rename_i found
    have here : doc.source.skipWhile (· ≠ '(') stop pos = pos := by
      rw [Source.skipWhile]
      grind
    rw [searchAnswer, searchAnswer, here]

theorem closingParenthesis_of_lt {style : Style} {depth : Nat} (less : pos < stop)
    (styled : doc.styleAt (pos + 1) = style) :
    doc.closingParenthesis style stop pos depth =
      if doc.source.charD (pos + 1) ' ' = '(' then
        doc.closingParenthesis style stop (pos + 1) (depth + 1)
      else if doc.source.charD (pos + 1) ' ' = ')' then
        if depth ≤ 1 then pos + 1 else doc.closingParenthesis style stop (pos + 1) (depth - 1)
      else doc.closingParenthesis style stop (pos + 1) depth := by
  rw [closingParenthesis.eq_def _ _ _ pos, if_pos less, if_pos styled]
  split
  case h_1 opens => rw [if_pos opens]
  case h_2 closes =>
    have other : doc.source.charD (pos + 1) ' ' ≠ '(' := closes ▸ by decide
    rw [if_neg other, if_pos closes]
  case h_3 other notClosing => rw [if_neg other, if_neg notClosing]

theorem searchAnswer_closingTurn {style : Style} {depth : Nat} :
    doc.searchAnswer form stop line (doc.closingTurn stop line style pos depth) =
      doc.searchAnswer form stop line (.closing style pos depth) := by
  rw [searchAnswer]
  by_cases less : pos < stop
  · by_cases styled : doc.styleAt (pos + 1) = style
    · rw [closingParenthesis_of_lt less styled, closingTurn, if_pos less, if_pos styled]
      split
      · rfl
      split
      · split <;> rfl
      · rfl
    · rw [closingParenthesis, closingTurn, if_pos less, if_pos less, if_neg styled, if_neg styled]
      rfl
  · rw [closingParenthesis, closingTurn, if_neg less, if_neg less]
    rfl

theorem searchAnswer_endingTurn {reached : Nat} :
    doc.searchAnswer form stop line (doc.endingTurn form stop reached pos) =
      doc.searchAnswer form stop line (.ending reached pos) := by
  cases form with
  | fixed =>
    rw [searchAnswer, endsIn, endsFixed]
    unfold endingTurn
    dsimp only
    split
    · split
      · rfl
      split
      · rfl
      split
      · split <;> rfl
      · rfl
    · rfl
  | free =>
    rw [searchAnswer, endsIn, endsFree]
    unfold endingTurn
    dsimp only
    split
    · split
      · rfl
      split <;> rfl
    · rfl

theorem searchAnswer_searchTurn (search : EndSearch) :
    doc.searchAnswer form stop line (doc.searchTurn form stop line search) =
      doc.searchAnswer form stop line search := by
  cases search with
  | opening => exact searchAnswer_openingTurn
  | closing => exact searchAnswer_closingTurn
  | ending => exact searchAnswer_endingTurn
  | answered => rfl

theorem searchAnswer_opening (doc : Document) (form : SourceForm) (stop line pos : Nat) :
    doc.searchAnswer form stop line (.opening (pos + 1)) = doc.opensBlock form stop line pos := by
  cases form <;> rfl

/-! ## Fewer turns are left -/

/-- How many lines a search may still go on to. In free form it goes on by the text alone. -/
def linesLeft (doc : Document) (form : SourceForm) (line : Nat) : Nat :=
  match form with
  | .fixed => doc.source.lineCount - line
  | .free => 0

/-- How many turns a search has left at most: for each line that it may go on to, as many as it takes
to come to the stop from anywhere. -/
def turnsLeft (doc : Document) (form : SourceForm) (stop line : Nat) : EndSearch → Nat
  | .opening pos => doc.linesLeft form line * (stop + 1) + (stop - pos) + 3
  | .closing _ pos _ => doc.linesLeft form line * (stop + 1) + (stop - pos) + 2
  | .ending reached pos => doc.linesLeft form reached * (stop + 1) + (stop - pos) + 1
  | .answered _ => 0

theorem turnsLeft_openingTurn_lt :
    doc.turnsLeft form stop line (doc.openingTurn stop pos) <
      doc.turnsLeft form stop line (.opening pos) := by
  unfold openingTurn
  split
  · simp only [turnsLeft]
    omega
  · exact Nat.lt_succ_self _

theorem turnsLeft_closingTurn_lt {style : Style} {depth : Nat} :
    doc.turnsLeft form stop line (doc.closingTurn stop line style pos depth) <
      doc.turnsLeft form stop line (.closing style pos depth) := by
  have ending : doc.turnsLeft form stop line (.ending line pos) <
      doc.turnsLeft form stop line (.closing style pos depth) := Nat.lt_succ_self _
  have next (less : pos < stop) : doc.turnsLeft form stop line (.ending line (pos + 1)) <
      doc.turnsLeft form stop line (.closing style pos depth) := by
    simp only [turnsLeft]
    omega
  have closing (less : pos < stop) (depth' : Nat) :
      doc.turnsLeft form stop line (.closing style (pos + 1) depth') <
        doc.turnsLeft form stop line (.closing style pos depth) := by
    simp only [turnsLeft]
    omega
  unfold closingTurn
  dsimp only
  split
  · rename_i less
    split
    · split
      · exact closing less _
      split
      · split
        · exact next less
        · exact closing less _
      · exact closing less _
    · exact closing less _
  · exact ending

/-- The last loop answers, goes on in the text, or in fixed form goes to the next line, wherever that
is. -/
theorem endingTurn_cases (doc : Document) (form : SourceForm) (stop reached pos : Nat) :
    (∃ opens, doc.endingTurn form stop reached pos = .answered opens) ∨
      (pos < stop ∧ ∃ later, pos < later ∧
        doc.endingTurn form stop reached pos = .ending reached later) ∨
      (pos < stop ∧ form = .fixed ∧ reached + 1 < doc.source.lineCount ∧
        doc.endingTurn form stop reached pos =
          .ending (reached + 1) (doc.source.lineStart (reached + 1) + 5)) := by
  unfold endingTurn
  dsimp only
  split
  case isFalse => exact .inl ⟨false, rfl⟩
  rename_i less
  split
  · exact .inr (.inl ⟨less, pos + 1, Nat.lt_succ_self pos, rfl⟩)
  cases form with
  | fixed =>
    dsimp only
    split
    · exact .inl ⟨false, rfl⟩
    split
    · rename_i more
      split
      · exact .inr (.inr ⟨less, rfl, more, rfl⟩)
      · exact .inl ⟨true, rfl⟩
    · exact .inr (.inl ⟨less, pos + 1, Nat.lt_succ_self pos, rfl⟩)
  | free =>
    dsimp only
    split
    · have low := doc.source.le_continuedText (pos + 2)
      exact .inr (.inl ⟨less, _, by omega, rfl⟩)
    · exact .inl ⟨_, rfl⟩

theorem turnsLeft_endingTurn_lt {reached : Nat} :
    doc.turnsLeft form stop line (doc.endingTurn form stop reached pos) <
      doc.turnsLeft form stop line (.ending reached pos) := by
  obtain ⟨opens, turn⟩ | ⟨less, later, further, turn⟩ | ⟨less, rfl, more, turn⟩ :=
    doc.endingTurn_cases form stop reached pos
  · rw [turn]
    exact Nat.succ_pos _
  · rw [turn]
    simp only [turnsLeft]
    omega
  · obtain ⟨left, lines⟩ : ∃ left, doc.source.lineCount - reached = left + 1 :=
      ⟨doc.source.lineCount - reached - 1, by omega⟩
    have one : doc.source.lineCount - (reached + 1) = left := by omega
    rw [turn]
    simp only [turnsLeft, linesLeft, lines, one, Nat.succ_mul]
    omega

/-- A search that is not answered yet has fewer turns left after a turn. -/
theorem turnsLeft_searchTurn_lt {search : EndSearch} (unanswered : ∀ opens, search ≠ .answered opens) :
    doc.turnsLeft form stop line (doc.searchTurn form stop line search) <
      doc.turnsLeft form stop line search := by
  cases search with
  | opening => exact turnsLeft_openingTurn_lt
  | closing => exact turnsLeft_closingTurn_lt
  | ending => exact turnsLeft_endingTurn_lt
  | answered opens => exact absurd rfl (unanswered opens)

/-- A search comes to its answer in as many turns as it has left at most. -/
theorem exists_turns (doc : Document) (form : SourceForm) (stop line : Nat) (search : EndSearch) :
    ∃ turns, turns ≤ doc.turnsLeft form stop line search ∧
      (doc.searchTurn form stop line)^[turns] search =
        .answered (doc.searchAnswer form stop line search) := by
  induction left : doc.turnsLeft form stop line search using Nat.strongRecOn
    generalizing search with
  | ind left ih =>
    by_cases answered : ∃ opens, search = .answered opens
    · obtain ⟨opens, rfl⟩ := answered
      exact ⟨0, Nat.zero_le _, rfl⟩
    · have fewer : doc.turnsLeft form stop line (doc.searchTurn form stop line search) <
          doc.turnsLeft form stop line search :=
        turnsLeft_searchTurn_lt fun opens is => answered ⟨opens, is⟩
      obtain ⟨turns, within, ends⟩ := ih _ (left ▸ fewer) _ rfl
      rw [searchAnswer_searchTurn] at ends
      exact ⟨turns + 1, by omega, ends⟩

/-! ## Going back -/

/-- A masked assignment in fixed form, whose mask is broken over three lines. -/
def maskOnThreeLines : Document :=
  ofBytes #[32, 32, 32, 32, 32, 32, 119, 104, 101, 114, 101, 32, 40, 97, 10, 32, 32, 32, 32, 32, 38,
    32, 62, 98, 10, 32, 32, 32, 32, 32, 38, 32, 43, 99, 41, 10, 32, 32, 32, 32, 32, 32, 99, 61, 100,
    10]

/-- From the closing parenthesis on the third line the search goes back to the second one. -/
theorem searchTurn_goesBack :
    let styled := maskOnThreeLines.styleRange .fortran .fixed 0 maskOnThreeLines.size .plain
    (styled.searchTurn .fixed styled.size 0)^[24] (.opening 11) = .ending 0 34 ∧
      styled.searchTurn .fixed styled.size 0 (.ending 0 34) = .ending 1 20 ∧
      styled.source.lineAt 20 < styled.source.lineAt 34 := by
  decide +kernel

/-- The search for the end of a statement ends with its answer, in every document and from every
keyword. From a continuation mark it never goes to a position before the mark, so in free form it
only goes on; in fixed form it can go back to an earlier line. -/
theorem search_ends :
    (∀ (doc : Document) (form : SourceForm) (stop line pos : Nat),
      ∃ turns, turns ≤ doc.linesLeft form line * (stop + 1) + (stop - pos) + 3 ∧
        (doc.searchTurn form stop line)^[turns] (.opening (pos + 1)) =
          .answered (doc.opensBlock form stop line pos)) ∧
    (∀ (doc : Document) (mark : Nat),
      ∃ before, sub? (doc.source.continuedText (mark + 1)) 1 = some before ∧ mark ≤ before) ∧
    (∀ (doc : Document) (stop line reached pos next later : Nat),
      doc.searchTurn .free stop line (.ending reached pos) = .ending next later → pos < later) ∧
    ∃ (doc : Document) (stop line pos turns reached last next : Nat), stop ≤ doc.size ∧ pos < stop ∧
      (doc.searchTurn .fixed stop line)^[turns] (.opening (pos + 1)) = .ending reached last ∧
      doc.searchTurn .fixed stop line (.ending reached last) = .ending (reached + 1) next ∧
      doc.source.lineAt next < doc.source.lineAt last := by
  refine ⟨fun doc form stop line pos => ?_, fun doc mark => ?_,
    fun doc stop line reached pos next later turn => ?_, ?_⟩
  · obtain ⟨turns, within, ends⟩ := doc.exists_turns form stop line (.opening (pos + 1))
    rw [searchAnswer_opening] at ends
    have bound : doc.turnsLeft form stop line (.opening (pos + 1)) =
        doc.linesLeft form line * (stop + 1) + (stop - (pos + 1)) + 3 := rfl
    exact ⟨turns, by omega, ends⟩
  · have low := doc.source.le_continuedText (mark + 1)
    exact ⟨_, sub?_of_le (by omega), by omega⟩
  · obtain ⟨opens, is⟩ | ⟨-, further, less, is⟩ | ⟨-, fixed, -⟩ :=
      doc.endingTurn_cases .free stop reached pos
    · cases is.symm.trans turn
    · cases is.symm.trans turn
      exact less
    · cases fixed
  · obtain ⟨comes, back, earlier⟩ := searchTurn_goesBack
    exact ⟨_, _, 0, 10, 24, 0, 34, 20, Nat.le_refl _, by decide, comes, back, earlier⟩

end Document

end FortranMarkup
