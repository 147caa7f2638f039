import FortranMarkup.Proofs.Folding.Words
import FortranMarkup.Proofs.Styling.Turns
import FortranMarkup.Proofs.Styling.WordSpans

/-!
# How the rules move

The columns with a fixed meaning take a comment along to its line end, and the byte of a mark
(`Cursor.FixedMoves`). The rules for tokens leave the cursor where it is, but for the bytes that
take the next one along: one that ends a token, one that a second quote follows, and the letter of a
literal with a radix (`Cursor.Moves`, `Scan.moves_tokenStep`). All bytes that are left behind so are
visible (`Cursor.Moves.visible`). A number sign that begins its line goes to the end of the line
(`Scan.tokenStep_of_sign`).
-/

namespace FortranMarkup

namespace Source

variable {src : Source}

theorem columnAt_add_le (table : src.Tabled) (pos n : Nat) :
    src.columnAt (pos + n) ≤ src.columnAt pos + n := by
  have mono := lineStart_mono table (lineAt_mono table (Nat.le_add_right pos n))
  unfold columnAt
  omega

/-- Whether the letter and the quote of a literal with a radix are at a position. -/
def BeginsRadix (src : Source) (pos : Nat) : Prop :=
  ['b', 'o', 'z'].contains (src.charD pos '\x00').toLower = true ∧
    (src.charD (pos + 1) '\x00' = '"' ∨ src.charD (pos + 1) '\x00' = '\'')

theorem BeginsRadix.visible {pos : Nat} (begins : src.BeginsRadix pos) :
    isSpace (src.charD pos '\x00') = false ∧ src.charD pos '\x00' ≠ '#' := by
  have letter := begins.1
  generalize src.charD pos '\x00' = c at letter
  cases alpha : c.isAlpha with
  | true =>
    have name := isNameChar_of_isAlpha alpha
    exact ⟨isSpace_of_isNameChar name, ne_of_isNameChar name rfl⟩
  | false =>
    rw [toLower_of_not_isAlpha alpha] at letter
    simp only [List.contains_iff_mem, List.mem_cons, List.not_mem_nil, or_false] at letter
    rcases letter with rfl | rfl | rfl <;> cases alpha

end Source

namespace Cursor

variable {src : Source} {start stop : Nat} {c d : Cursor src start stop}

theorem lineAt_toLineEnd (table : src.Tabled) (tracks : c.Tracks) {pos : Nat}
    (low : c.pos ≤ pos) (high : pos ≤ c.toLineEnd.pos) : src.lineAt pos = src.lineAt c.pos := by
  fun_induction toLineEnd c with
  | case1 c going ih =>
    have inside := tracks.lt_size_of_atLineEnd table going.1
    have ends : endsLineAt src.bytes c.pos = false := by
      rw [← tracks.atLineEnd_eq table inside, going.1]
    have moved := tracks.forward table inside going.2
    have next := pos_forward_of_lt going.2
    have line : src.lineAt (c.pos + 1) = src.lineAt c.pos := by
      rw [Source.lineAt_succ table, ends, if_neg Bool.false_ne_true]
    rcases Nat.lt_or_eq_of_le low with later | rfl
    · rw [ih moved (by omega) high, next, line]
    · rfl
  | case2 => rw [Nat.le_antisymm high low]

theorem endsLineAt_toLineEnd (table : src.Tabled) (room : src.size < stop) (tracks : c.Tracks)
    (inside : c.toLineEnd.pos < src.size) : endsLineAt src.bytes c.toLineEnd.pos = true := by
  fun_induction toLineEnd c with
  | case1 c going ih =>
    exact ih (tracks.forward table (tracks.lt_size_of_atLineEnd table going.1) going.2) inside
  | case2 c done =>
    rw [← tracks.atLineEnd_eq table inside]
    cases ends : c.atLineEnd with
    | true => rfl
    | false => exact absurd ⟨ends, Nat.lt_trans inside room⟩ done

theorem startsLine_toLineEnd (table : src.Tabled) (room : src.size < stop) (tracks : c.Tracks)
    (inside : c.toLineEnd.pos < src.size) : src.StartsLine (c.toLineEnd.pos + 1) :=
  Source.startsLine_succ.2 (endsLineAt_toLineEnd table room tracks inside)

/-- The way to the line end comes up to the last position of the line. -/
theorem le_toLineEnd (table : src.Tabled) (room : src.size < stop) (tracks : c.Tracks) {pos : Nat}
    (inside : pos ≤ src.size) (line : src.lineAt pos = src.lineAt c.pos) :
    pos ≤ c.toLineEnd.pos := by
  apply Nat.le_of_not_lt
  intro later
  have starts := startsLine_toLineEnd table room tracks (Nat.lt_of_lt_of_le later inside)
  have same := lineAt_toLineEnd table tracks (pos_le_toLineEnd c) (Nat.le_refl _)
  have before := Source.lineAt_lt_of_startsLine table (Nat.lt_succ_self _) starts
  have after := Source.lineAt_mono table (Nat.succ_le_of_lt later)
  omega

/-- The way to the line end passes all bytes of the line but its terminator. -/
theorem lt_toLineEnd (table : src.Tabled) (room : src.size < stop) (tracks : c.Tracks) {pos : Nat}
    (inside : pos < src.size) (line : src.lineAt pos = src.lineAt c.pos)
    (text : isLineEnd (src.charD pos '\x00') = false) : pos < c.toLineEnd.pos := by
  refine Nat.lt_of_le_of_ne (le_toLineEnd table room tracks (Nat.le_of_lt inside) line) ?_
  rintro rfl
  rw [Source.isLineEnd_of_endsLineAt _ (endsLineAt_toLineEnd table room tracks inside)] at text
  cases text

/-- How the columns with a fixed meaning move a cursor. -/
inductive FixedMoves (c : Cursor src start stop) (column : Nat) (carried : Style) :
    Cursor src start stop → Prop
  | comment {style : Style} (begins : isSpaceOrTab c.ch = false ∧ c.ch ≠ '#')
      (shown : style = .comment ∨ style = .preprocessor) :
      FixedMoves c column carried (c.setState style).toLineEnd
  | tail (after : tailColumn ≤ column) :
      FixedMoves c column carried (c.setState .comment).toLineEnd
  | stay {style : Style} (before : column ≤ markColumn)
      (shown : style = .plain ∨ style = .label ∨ style = .continuation) :
      FixedMoves c column carried (c.setState style)
  /-- A mark resumes what is carried, on the byte after it. -/
  | mark (before : column ≤ markColumn) (visible : isSpace c.ch = false) :
      FixedMoves c column carried ((c.setState .continuation).forwardSetState carried)

theorem FixedMoves.lineAt {column : Nat} {carried : Style} (moves : c.FixedMoves column carried d)
    (table : src.Tabled) (tracks : c.Tracks) {pos : Nat} (low : c.pos ≤ pos) (high : pos ≤ d.pos) :
    src.lineAt pos = src.lineAt c.pos := by
  cases moves with
  | comment | tail => exact lineAt_toLineEnd table (tracks.paint.relabel _) low high
  | stay => exact congrArg src.lineAt (Nat.le_antisymm high low)
  | mark _ visible =>
    have moved := pos_forward_le (c.setState .continuation)
    rw [pos_setState] at moved
    rw [pos_forwardSetState] at high
    rcases Nat.lt_or_eq_of_le low with later | rfl
    · obtain rfl : pos = c.pos + 1 := by omega
      exact (Source.columnAt_succ table
        (Source.isLineEnd_of_not_isSpace (tracks.ch ▸ visible))).1
    · rfl

theorem FixedMoves.pos_of_blank {column : Nat} {carried : Style}
    (moves : c.FixedMoves column carried d) (blank : isSpaceOrTab c.ch = true) :
    tailColumn ≤ column ∨ d.pos = c.pos := by
  cases moves with
  | comment begins =>
    rw [begins.1] at blank
    cases blank
  | tail after => exact .inl after
  | stay => exact .inr rfl
  | mark _ visible =>
    rw [Source.isSpaceOrTab_of_not_isSpace visible] at blank
    cases blank

theorem FixedMoves.painted_suffix {column : Nat} {carried : Style}
    (moves : c.FixedMoves column carried d) : c.paint.painted <:+ d.painted := by
  have set {state : Style} (leads : Leads (c.setState state) d) : c.paint.painted <:+ d.painted :=
    leads.painted_suffix
  cases moves with
  | comment | tail => exact set (Leads.refl _).toLineEnd
  | stay => exact set (.refl _)
  | mark => exact set ((Leads.refl _).forwardSetState _)

/-- The byte at the cursor ends the open token, or is the first of two quotes in it. -/
def EndsToken (c : Cursor src start stop) : Prop :=
  (c.state = .apostropheLiteral ∧ c.ch = '\'') ∨ (c.state = .quoteLiteral ∧ c.ch = '"') ∨
    (c.state = .dottedOperator ∧ c.ch = '.')

theorem EndsToken.visible (ends : c.EndsToken) : isSpace c.ch = false ∧ c.ch ≠ '#' := by
  rcases ends with ⟨-, here⟩ | ⟨-, here⟩ | ⟨-, here⟩ <;> rw [here] <;> decide

theorem EndsToken.lt_size (ends : c.EndsToken) (tracks : c.Tracks) : c.pos < src.size := by
  apply tracks.lt_size
  rcases ends with ⟨-, here⟩ | ⟨-, here⟩ | ⟨-, here⟩ <;> rw [here] <;> decide

theorem EndsToken.state_ne (ends : c.EndsToken) : c.state ≠ .plain ∧ c.state ≠ .preprocessor := by
  rcases ends with ⟨here, -⟩ | ⟨here, -⟩ | ⟨here, -⟩ <;> rw [here] <;> decide

/-- How the rules for tokens move a cursor. -/
inductive Moves (c : Cursor src start stop) : Cursor src start stop → Prop
  | stay {d : Cursor src start stop} (leads : Leads c d) (pos : d.pos = c.pos) : Moves c d
  /-- A literal with a radix begins. -/
  | radix {d : Cursor src start stop} (leads : Leads c d) (pos : d.pos = c.pos)
      (begins : src.BeginsRadix c.pos) : Moves c (d.setState .number).forward
  /-- A quote in a literal is written twice. -/
  | twice (ends : c.EndsToken) (next : c.next = c.ch) : Moves c c.forward
  | close {d : Cursor src start stop} (ends : c.EndsToken)
      (leads : Leads (c.forwardSetState .plain) d) (pos : d.pos = c.forward.pos) : Moves c d
  /-- A token ends, and a literal with a radix begins. -/
  | closeRadix (ends : c.EndsToken) (begins : src.BeginsRadix c.forward.pos) :
      Moves c ((c.forwardSetState .plain).setState .number).forward

/-- A byte that is left behind is visible, and no number sign. -/
theorem Moves.visible (moves : Moves c d) (tracks : c.Tracks) {pos : Nat} (low : c.pos ≤ pos)
    (high : pos < d.pos) :
    isSpace (src.charD pos '\x00') = false ∧ src.charD pos '\x00' ≠ '#' := by
  have next_le := pos_forward_le c
  cases moves with
  | stay leads same => omega
  | @radix d leads same begins =>
    have last := pos_forward_le (d.setState .number)
    rw [pos_setState] at last
    obtain rfl : pos = c.pos := by omega
    exact begins.visible
  | twice ends next =>
    obtain rfl : pos = c.pos := by omega
    exact tracks.ch ▸ ends.visible
  | close ends leads same =>
    obtain rfl : pos = c.pos := by omega
    exact tracks.ch ▸ ends.visible
  | closeRadix ends begins =>
    have last := pos_forward_le ((c.forwardSetState .plain).setState .number)
    rw [pos_setState, pos_forwardSetState] at last
    by_cases first : pos = c.pos
    · exact first ▸ tracks.ch ▸ ends.visible
    · obtain rfl : pos = c.forward.pos := by omega
      exact begins.visible

end Cursor

namespace Scan

variable {src : Source} {start stop : Nat} {words : Dictionary} {form : SourceForm}
  {s : Scan src start stop}

open Cursor (Leads Moves)

/-! ## Columns of fixed form -/

theorem commentStyle_cases (c : Cursor src start stop) (beginnings : List String) :
    commentStyle c beginnings = .comment ∨ commentStyle c beginnings = .preprocessor := by
  unfold commentStyle
  split
  · exact .inr rfl
  · exact .inl rfl

theorem fixedMoves_fixedStep (s : Scan src start stop) {column : Nat}
    (edge : column ≤ markColumn ∨ tailColumn ≤ column) :
    s.cursor.FixedMoves column s.carried (s.fixedStep column).cursor := by
  have shown := commentStyle_cases s.cursor fixedDirectives
  unfold fixedStep
  dsimp only
  split
  · rename_i begins
    refine .comment ?_ shown
    generalize s.cursor.ch = c at begins
    rcases begins with ⟨-, letter | rfl⟩ | rfl
    · constructor
      · cases blank : isSpaceOrTab c with
        | false => rfl
        | true =>
          simp only [isSpaceOrTab, Bool.or_eq_true, decide_eq_true_eq] at blank
          rcases blank with rfl | rfl <;> cases letter
      · rintro rfl
        cases letter
    · exact ⟨rfl, by decide⟩
    · exact ⟨rfl, by decide⟩
  split
  · exact .tail (by assumption)
  have before : column ≤ markColumn := by omega
  split
  · refine .stay before ?_
    split
    · exact .inr (.inl rfl)
    · exact .inl rfl
  unfold markStep
  dsimp only
  split
  · exact .stay before (.inl rfl)
  split
  · exact .stay before (.inr (.inr rfl))
  · rename_i mark
    refine .mark before ?_
    simp only [Bool.or_eq_true, not_or, Bool.not_eq_true] at mark
    exact mark.1

/-- The columns with a fixed meaning count nothing, and forget what is carried or keep it. -/
theorem remembers_fixedStep (s : Scan src start stop) (column : Nat) :
    (s.fixedStep column).nonBlank = s.nonBlank ∧
      ((s.fixedStep column).carried = s.carried ∨ (s.fixedStep column).carried = .plain) := by
  unfold fixedStep
  dsimp only
  split
  · exact ⟨rfl, .inl rfl⟩
  split
  · exact ⟨rfl, .inl rfl⟩
  split
  · exact ⟨rfl, .inl rfl⟩
  unfold markStep
  dsimp only
  split
  · exact ⟨rfl, .inr rfl⟩
  split
  · exact ⟨rfl, .inr rfl⟩
  · exact ⟨rfl, .inl rfl⟩

/-! ## Tokens -/

/-- What closing a token can do. -/
inductive ClosesToken (s : Scan src start stop) : Scan src start stop → Prop
  | stay : ClosesToken s s
  | carry (literal : s.cursor.state ∈ [.apostropheLiteral, .quoteLiteral]) :
      ClosesToken s { s with carried := s.cursor.state }
  | leaveOpen (literal : s.cursor.state ∈ [.apostropheLiteral, .quoteLiteral]) :
      ClosesToken s s.leaveOpen
  /-- The token ends before the byte. -/
  | shut (style : Style) : ClosesToken s (s.withCursor ((s.cursor.relabel style).setState .plain))
  | twice (literal : s.cursor.state ∈ [.apostropheLiteral, .quoteLiteral])
      (ends : s.cursor.EndsToken) (again : s.cursor.next = s.cursor.ch) :
      ClosesToken s { s with cursor := s.cursor.forward, carried := s.cursor.state }
  /-- The token ends with the byte. -/
  | past {carried : Style} (ends : s.cursor.EndsToken)
      (kept : carried = s.carried ∨ carried = .plain) :
      ClosesToken s { s with cursor := s.cursor.forwardSetState .plain, carried := carried }

theorem closes_literalStep {quote : Char}
    (literal : s.cursor.state ∈ [.apostropheLiteral, .quoteLiteral])
    (ends : s.cursor.ch = quote → s.cursor.EndsToken) : ClosesToken s (s.literalStep quote) := by
  unfold literalStep
  dsimp only
  split
  · rename_i here
    split
    · rename_i again
      exact .twice literal (ends here) (again.trans here.symm)
    · exact .past (ends here) (.inr rfl)
  · exact .carry literal

theorem closes_closeToken (s : Scan src start stop) (words : Dictionary) (form : SourceForm) :
    ClosesToken s (s.closeToken words form) := by
  have shut : ClosesToken s (s.withCursor (s.cursor.setState .plain)) := .shut s.cursor.state
  cases state : s.cursor.state <;> simp only [closeToken, state]
  case apostropheLiteral =>
    have literal : s.cursor.state ∈ [.apostropheLiteral, .quoteLiteral] := by rw [state]; decide
    split
    · exact .leaveOpen literal
    · exact closes_literalStep literal (fun here => .inl ⟨state, here⟩)
  case quoteLiteral =>
    have literal : s.cursor.state ∈ [.apostropheLiteral, .quoteLiteral] := by rw [state]; decide
    split
    · exact .leaveOpen literal
    · exact closes_literalStep literal (fun here => .inr (.inl ⟨state, here⟩))
  case dottedOperator =>
    split
    · exact .past (.inr (.inr ⟨state, by assumption⟩)) (.inl rfl)
    · exact .stay
  case number | label =>
    split
    · exact .stay
    · exact shut
  case identifier =>
    split
    · exact .stay
    · exact .shut _
  case comment | preprocessor =>
    split
    · exact shut
    · exact .stay
  case operator | continuation => exact shut
  all_goals exact .stay

/-- What opening a token can do. -/
inductive OpensToken (s : Scan src start stop) : Scan src start stop → Prop
  | stay : OpensToken s s
  | start {style : Style} (directive : style = .preprocessor → s.cursor.ch = '!') :
      OpensToken s (s.withCursor (s.cursor.setState style))
  | radix (letter : ['b', 'o', 'z'].contains s.cursor.ch.toLower = true)
      (quote : s.cursor.next = '"' ∨ s.cursor.next = '\'') :
      OpensToken s (s.withCursor (s.cursor.setState .number).forward)

theorem opens_openToken (s : Scan src start stop) (form : SourceForm) :
    OpensToken s (s.openToken form) := by
  unfold openToken
  dsimp only
  split
  · rename_i bang
    exact .start (fun _ => bang)
  split
  · exact .start Style.noConfusion
  split
  · exact .start Style.noConfusion
  split
  · rename_i radix
    simp only [Bool.and_eq_true, Bool.or_eq_true, decide_eq_true_eq] at radix
    exact .radix radix.1 radix.2
  split
  · exact .start Style.noConfusion
  split
  · exact .start Style.noConfusion
  split
  · exact .start Style.noConfusion
  split
  · exact .start Style.noConfusion
  split
  · exact .start Style.noConfusion
  · exact .stay

/-- The rules for tokens, but for a number sign that begins its line. -/
theorem moves_tokenStep (table : src.Tabled) (room : src.size < stop) (tracks : s.cursor.Tracks)
    (unsigned : ¬(s.cursor.ch = '#' ∧ s.nonBlank = 1)) (words : Dictionary) (form : SourceForm) :
    Moves s.cursor (s.tokenStep words form).cursor := by
  have same : s.numberSignStep = s := by rw [numberSignStep, if_neg unsigned]
  have leads := leads_closeToken s words form
  have closed := closes_closeToken s words form
  have open_leads := leads_openToken (s.closeToken words form) form
  have opened := opens_openToken (s.closeToken words form) form
  have inside := tracks.inside
  unfold tokenStep
  rw [same]
  dsimp only
  generalize s.closeToken words form = t at *
  split
  case isFalse notPlain =>
    cases closed with
    | stay | carry | leaveOpen | shut => exact .stay leads rfl
    | twice _ ends again => exact .twice ends again
    | past => exact absurd rfl notPlain
  case isTrue plain =>
    generalize t.openToken form = u at *
    have here (pos : t.cursor.pos = s.cursor.pos) : Moves s.cursor u.cursor := by
      cases opened with
      | stay | start => exact .stay (leads.trans open_leads) pos
      | radix letter quote =>
        have tracks' := leads.tracks table room tracks (pos ▸ inside)
        rw [tracks'.ch, pos] at letter
        rw [tracks'.next, pos] at quote
        exact .radix leads pos ⟨letter, quote⟩
    cases closed with
    | stay | carry | leaveOpen | shut => exact here rfl
    | twice _ ends again =>
      rw [Cursor.state_forward] at plain
      exact absurd plain ends.state_ne.1
    | past ends =>
      cases opened with
      | stay | start => exact .close ends open_leads rfl
      | radix letter quote =>
        have before := ends.lt_size tracks
        have next := Cursor.pos_forward_le s.cursor
        have tracks' := leads.tracks table room tracks (by rw [Cursor.pos_forwardSetState]; omega)
        rw [tracks'.ch, Cursor.pos_forwardSetState] at letter
        rw [tracks'.next, Cursor.pos_forwardSetState] at quote
        exact .closeRadix ends ⟨letter, quote⟩

/-- The rules for tokens count nothing, and carry what was carried, the literal that is open, or
nothing. -/
theorem remembers_tokenStep (s : Scan src start stop) (words : Dictionary) (form : SourceForm) :
    (s.tokenStep words form).nonBlank = s.nonBlank ∧
      ((s.tokenStep words form).carried = s.carried ∨
        (s.tokenStep words form).carried ∈ [.plain, .apostropheLiteral, .quoteLiteral]) := by
  have signed : s.numberSignStep.nonBlank = s.nonBlank ∧ s.numberSignStep.carried = s.carried := by
    unfold numberSignStep
    split <;> exact ⟨rfl, rfl⟩
  have closed := closes_closeToken s.numberSignStep words form
  have opened := opens_openToken (s.numberSignStep.closeToken words form) form
  unfold tokenStep
  dsimp only
  rw [← signed.1, ← signed.2]
  generalize s.numberSignStep = r at *
  generalize r.closeToken words form = t at *
  have kept : t.nonBlank = r.nonBlank ∧ (t.carried = r.carried ∨
      t.carried ∈ [.plain, .apostropheLiteral, .quoteLiteral]) := by
    cases closed with
    | stay | shut => exact ⟨rfl, .inl rfl⟩
    | carry literal | leaveOpen literal | twice literal =>
      exact ⟨rfl, .inr (List.mem_cons_of_mem _ literal)⟩
    | past _ kept =>
      refine ⟨rfl, kept.imp_right (fun plain => ?_)⟩
      rw [plain]
      exact List.mem_cons_self
  split
  · generalize t.openToken form = u at *
    cases opened with
    | stay | start | radix => exact kept
  · exact kept

/-- The rules for tokens go on with a line for the preprocessor, or begin one at an exclamation
mark. -/
theorem tokenStep_directive (words : Dictionary) (form : SourceForm)
    (unsigned : ¬(s.cursor.ch = '#' ∧ s.nonBlank = 1))
    (state : (s.tokenStep words form).cursor.state = .preprocessor) :
    (s.tokenStep words form).cursor = s.cursor ∨ (s.tokenStep words form).cursor.ch = '!' := by
  have same : s.numberSignStep = s := by rw [numberSignStep, if_neg unsigned]
  have closed := closes_closeToken s words form
  have opened := opens_openToken (s.closeToken words form) form
  unfold tokenStep at state ⊢
  rw [same] at state ⊢
  dsimp only at state ⊢
  generalize s.closeToken words form = t at *
  split at state
  · rename_i plain
    rw [if_pos plain]
    generalize t.openToken form = u at *
    cases opened with
    | stay => cases plain.symm.trans state
    | start directive => exact .inr (directive state)
    | radix =>
      rw [cursor_withCursor, Cursor.state_forward] at state
      cases state
  · rename_i notPlain
    rw [if_neg notPlain]
    cases closed with
    | stay | carry => exact .inl rfl
    | leaveOpen | shut | past => cases state
    | twice _ ends =>
      rw [Cursor.state_forward] at state
      exact absurd state ends.state_ne.2

section Sign

variable (sign : s.cursor.ch = '#') (first : s.nonBlank = 1)
include sign first

/-- A number sign that begins its line takes the rest of the line along. -/
theorem tokenStep_of_sign (words : Dictionary) (form : SourceForm) :
    let ended := (s.cursor.setState .preprocessor).toLineEnd
    (s.tokenStep words form).cursor =
      if isLineEnd ended.ch then ended.setState .plain else ended := by
  have step : s.numberSignStep = s.withCursor (s.cursor.setState .preprocessor).toLineEnd := by
    rw [numberSignStep, if_pos ⟨sign, first⟩]
  have state : (s.cursor.setState .preprocessor).toLineEnd.state = .preprocessor :=
    Cursor.state_toLineEnd _
  unfold tokenStep
  rw [step]
  generalize (s.cursor.setState .preprocessor).toLineEnd = ended at *
  by_cases ends : isLineEnd ended.ch = true
  · have closed : (s.withCursor ended).closeToken words form =
        s.withCursor (ended.setState .plain) := by
      simp only [closeToken, cursor_withCursor, state]
      exact if_pos ends
    have stays := Alike.openToken_of_lineEnd (s := s.withCursor (ended.setState .plain)) ends form
    simp only [closed, stays, ite_self, if_pos ends, cursor_withCursor]
  · have closed : (s.withCursor ended).closeToken words form = s.withCursor ended := by
      simp only [closeToken, cursor_withCursor, state]
      exact if_neg ends
    simp only [closed, cursor_withCursor, state, if_neg ends]
    rfl

theorem leads_of_sign (words : Dictionary) (form : SourceForm) :
    Leads (s.cursor.setState .preprocessor).toLineEnd (s.tokenStep words form).cursor ∧
      (s.tokenStep words form).cursor.pos = (s.cursor.setState .preprocessor).toLineEnd.pos := by
  rw [tokenStep_of_sign sign first]
  split
  · exact ⟨(Leads.refl _).setState _, rfl⟩
  · exact ⟨Leads.refl _, rfl⟩

theorem lineAt_of_sign (table : src.Tabled) (tracks : s.cursor.Tracks) {pos : Nat}
    (low : s.cursor.pos ≤ pos) (high : pos ≤ (s.tokenStep words form).cursor.pos) :
    src.lineAt pos = src.lineAt s.cursor.pos := by
  rw [(leads_of_sign sign first words form).2] at high
  exact Cursor.lineAt_toLineEnd table (tracks.paint.relabel .preprocessor) low high

end Sign

section Lines

variable (table : src.Tabled) (room : src.size < stop) (tracks : s.cursor.Tracks)
include table room tracks

/-- The rules for tokens stay on their line. -/
theorem lineAt_tokenStep {pos : Nat} (low : s.cursor.pos ≤ pos)
    (high : pos ≤ (s.tokenStep words form).cursor.pos) :
    src.lineAt pos = src.lineAt s.cursor.pos := by
  by_cases sign : s.cursor.ch = '#' ∧ s.nonBlank = 1
  · exact lineAt_of_sign sign.1 sign.2 table tracks low high
  · have moves := moves_tokenStep table room tracks sign words form
    induction pos with
    | zero => rw [Nat.le_zero.1 low]
    | succ pos ih =>
      rcases Nat.lt_or_eq_of_le low with later | first
      · have visible := (moves.visible tracks (Nat.le_of_lt_succ later) high).1
        rw [(Source.columnAt_succ table (Source.isLineEnd_of_not_isSpace visible)).1]
        exact ih (Nat.le_of_lt_succ later) (Nat.le_of_lt high)
      · rw [first]

theorem pos_tokenStep_of_blank (blank : isSpaceOrTab s.cursor.ch = true) (words : Dictionary)
    (form : SourceForm) : (s.tokenStep words form).cursor.pos = s.cursor.pos := by
  have unsigned : ¬(s.cursor.ch = '#' ∧ s.nonBlank = 1) := by
    rintro ⟨sign, -⟩
    rw [sign] at blank
    cases blank
  apply Nat.le_antisymm _ (pos_le_tokenStep s words form)
  apply Nat.le_of_not_lt
  intro moved
  have visible := (moves_tokenStep table room tracks unsigned words form).visible tracks
    (Nat.le_refl _) moved
  rw [← tracks.ch] at visible
  rw [Source.isSpaceOrTab_of_not_isSpace visible.1] at blank
  cases blank

end Lines

/-- In the end, what a number sign takes along is for the preprocessor. -/
theorem Reaches.style_of_sign {b t : Scan src 0 (src.walkEnd src.size)}
    (reaches : Reaches words form (whole src) t)
    (cursor : t.cursor = (b.tokenStep words form).cursor.forward) (sound : b.cursor.Sound)
    (sign : b.cursor.ch = '#') (first : b.nonBlank = 1) {pos : Nat} (low : b.cursor.pos ≤ pos)
    (high : pos < min (b.tokenStep words form).cursor.pos src.size) :
    src.freshStyle words form .plain pos = .preprocessor := by
  obtain ⟨leads, same⟩ := leads_of_sign sign first words form
  exact reaches.style_of_opens sound (Cursor.Opens.here _ .preprocessor).toLineEnd rfl
    (cursor ▸ leads.forward) low (same ▸ high)

end Scan

end FortranMarkup
