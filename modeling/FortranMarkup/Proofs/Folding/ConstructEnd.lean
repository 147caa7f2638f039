import FortranMarkup.Proofs.Document.Basic
import FortranMarkup.Proofs.Folding.Construct
import FortranMarkup.Proofs.Source.LastLine

/-!
# Constructs and a line end for the last line

Whether `forall` or `where` opens a block is read from the text after it. A scan that finds the end of
the statement before some line start (`Document.EndsFreeBefore`, `Document.EndsFixedBefore`) finds it
in every text that is the same up to there (`Document.AlikeBefore.opensBlock`). So what opens a block
in a text whose last line has no line end opens one with a line feed there as well
(`Document.EndsLast.opensBlock`). The other way around a scan can fail just because the text is over,
but not if the last byte is one that it has to stop at (`Document.EndsLast.opensBlock_of_showsAt`).
-/

namespace FortranMarkup

theorem Source.inClass_of_lt_skipWhile {src : Source} {inClass : Char → Bool} {stop pos between : Nat}
    (low : pos ≤ between) (high : between < src.skipWhile inClass stop pos) :
    inClass (src.charD between ' ') = true := by
  fun_induction skipWhile src inClass stop pos with
  | case1 pos more member ih =>
    rcases Nat.lt_or_eq_of_le low with later | rfl
    · exact ih later high
    · exact member
  | case2 => exact absurd high (Nat.not_lt_of_le low)
  | case3 => exact absurd high (Nat.not_lt_of_le low)

namespace Source.AgreeTo

variable {limit : Nat} {src₁ src₂ : Source} (agree : src₁.AgreeTo limit src₂)
include agree

/-- Text that ends before the limit, whatever lines it goes over, ends at one place. -/
theorem skipWhile_eq_of_lt {inClass : Char → Bool} {stop₁ stop₂ pos : Nat} (le₁ : limit ≤ stop₁)
    (le₂ : limit ≤ stop₂) (found : src₁.skipWhile inClass stop₁ pos < limit) :
    src₂.skipWhile inClass stop₂ pos = src₁.skipWhile inClass stop₁ pos := by
  fun_induction skipWhile src₁ inClass stop₁ pos with
  | case1 pos before inside ih =>
    have low := src₁.le_skipWhile inClass stop₁ (pos + 1)
    have less : pos < limit := by omega
    rw [skipWhile, if_pos (by omega), ← agree.charD less, if_pos inside, ih found]
  | case2 pos before outside =>
    rw [skipWhile, if_pos (by omega), ← agree.charD found, if_neg outside]
  | case3 pos after => omega

theorem continuedText_eq_of_lt {pos : Nat} (found : src₁.continuedText pos < limit) :
    src₂.continuedText pos = src₁.continuedText pos := by
  have le₁ := le_size_of_startsLine agree.starts₁
  have le₂ := le_size_of_startsLine agree.starts₂
  have skip {inClass : Char → Bool} {pos : Nat}
      (less : src₁.skipWhile inClass src₁.size pos < limit) :
      src₂.skipWhile inClass src₂.size pos = src₁.skipWhile inClass src₁.size pos :=
    agree.skipWhile_eq_of_lt le₁ le₂ less
  unfold continuedText at found ⊢
  dsimp only at found ⊢
  generalize atEndEq : src₁.skipWhile (fun c => !isLineEnd c) src₁.size pos = atEnd at found ⊢
  generalize returnEq : (if src₁.charD atEnd ' ' = '\r' then atEnd + 1 else atEnd) = afterReturn
    at found ⊢
  generalize feedEq :
    (if src₁.charD afterReturn ' ' = '\n' then afterReturn + 1 else afterReturn) = afterFeed
    at found ⊢
  generalize textEq : src₁.skipWhile isBlank src₁.size afterFeed = text at found ⊢
  -- No part of the way goes back, so all of it is before the limit.
  have textLt : text < limit := by
    have low := src₁.le_skipWhile isBlank src₁.size (text + 1)
    split at found <;> omega
  have feedLt : afterFeed < limit :=
    Nat.lt_of_le_of_lt (src₁.le_skipWhile isBlank src₁.size afterFeed) (textEq ▸ textLt)
  have returnLt : afterReturn < limit := by
    split at feedEq <;> omega
  have atEndLt : atEnd < limit := by
    split at returnEq <;> omega
  have atEnd₂ : src₂.skipWhile (fun c => !isLineEnd c) src₂.size pos = atEnd := by
    rw [← atEndEq]
    exact skip (atEndEq ▸ atEndLt)
  have text₂ : src₂.skipWhile isBlank src₂.size afterFeed = text := by
    rw [← textEq]
    exact skip (textEq ▸ textLt)
  rw [atEnd₂, ← agree.charD atEndLt, returnEq, ← agree.charD returnLt, feedEq, text₂,
    ← agree.charD textLt]
  split
  · rename_i mark
    rw [if_pos mark] at found
    exact skip found
  · rfl

end Source.AgreeTo

/-- In the text with the line feed, the text of a continued line does not begin with that. -/
theorem Source.EndsLast.continuedText_ne {src₁ src₂ : Source} (ends : Source.EndsLast src₁ src₂)
    (visible : isBlank (src₂.charD (src₁.size - 1) ' ') = false)
    (other : src₂.charD (src₁.size - 1) ' ' ≠ '&') (pos : Nat) :
    src₂.continuedText pos ≠ src₁.size := by
  have some := ends.nonempty
  have noSkip {from' : Nat} (skipped : src₂.skipWhile isBlank src₂.size from' = src₁.size) :
      from' = src₁.size := by
    have low := src₂.le_skipWhile isBlank src₂.size from'
    refine Nat.le_antisymm (skipped ▸ low) (Nat.le_of_not_lt (fun less => ?_))
    have high : src₁.size - 1 < src₂.skipWhile isBlank src₂.size from' := by omega
    rw [inClass_of_lt_skipWhile (Nat.le_sub_one_of_lt less) high] at visible
    cases visible
  have last {before : Nat} (same : before + 1 = src₁.size) : before = src₁.size - 1 := by omega
  intro reached
  unfold continuedText at reached
  dsimp only at reached
  generalize (if src₂.charD (src₂.skipWhile (fun c => !isLineEnd c) src₂.size pos) ' ' = '\r' then
    src₂.skipWhile (fun c => !isLineEnd c) src₂.size pos + 1 else
    src₂.skipWhile (fun c => !isLineEnd c) src₂.size pos) = afterReturn at reached
  generalize textEq : src₂.skipWhile isBlank src₂.size (if src₂.charD afterReturn ' ' = '\n' then
    afterReturn + 1 else afterReturn) = text at reached
  split at reached
  · rename_i mark
    rw [last (noSkip reached)] at mark
    exact other mark
  · have fed := noSkip (textEq.trans reached)
    split at fed
    · rename_i feed
      rw [last fed, ends.charD_eq (by omega)] at feed
      have inLine := ends.unended
      rw [charD_eq_of_lt (by omega) _ ' ', feed] at inLine
      cases inLine
    · rename_i noFeed
      rw [fed, ends.charD_size] at noFeed
      exact noFeed rfl

namespace Document

variable {doc doc₁ doc₂ : Document} {form : SourceForm} {limit stop stop₁ stop₂ line pos : Nat}
  {visits : Nat → Prop}

/-! ## Scans that end before a position -/

/-- In free form, a statement ends after a position without showing anything more, and what is read to
tell that is before a limit. -/
inductive EndsFreeBefore (doc : Document) (limit : Nat) : Nat → Prop
  | ended {pos : Nat} (less : pos + 1 < limit)
      (lineEnd : isLineEnd (doc.source.charD (pos + 1) ' ') = true) : EndsFreeBefore doc limit pos
  | filler {pos : Nat} (filler : doc.isFiller (pos + 1) = true)
      (rest : EndsFreeBefore doc limit (pos + 1)) : EndsFreeBefore doc limit pos
  | goesOn {pos : Nat} (mark : doc.source.charD (pos + 1) ' ' = '&')
      (style : doc.styleAt (pos + 1) = .continuation)
      (rest : EndsFreeBefore doc limit (doc.source.continuedText (pos + 2) - 1)) :
      EndsFreeBefore doc limit pos

/-- In fixed form, a statement ends after a position of what counts as a line, without showing anything
more, and the text that is read to tell that is before a limit. -/
inductive EndsFixedBefore (doc : Document) (limit : Nat) : Nat → Nat → Prop
  | ended {line pos : Nat} (less : pos + 1 < limit)
      (lineEnd : isLineEnd (doc.source.charD (pos + 1) ' ') = true)
      (more : line + 1 < doc.source.lineCount)
      (noMark : doc.isStyledContinuation (line + 1) = false) : EndsFixedBefore doc limit line pos
  | filler {line pos : Nat} (filler : doc.isFiller (pos + 1) = true)
      (rest : EndsFixedBefore doc limit line (pos + 1)) : EndsFixedBefore doc limit line pos
  | goesOn {line pos : Nat} (less : pos + 1 < limit)
      (lineEnd : isLineEnd (doc.source.charD (pos + 1) ' ') = true)
      (more : line + 1 < doc.source.lineCount)
      (mark : doc.isStyledContinuation (line + 1) = true)
      (rest : EndsFixedBefore doc limit (line + 1) (doc.source.lineStart (line + 1) + 5)) :
      EndsFixedBefore doc limit line pos

theorem EndsFreeBefore.succ_lt (ends : doc.EndsFreeBefore limit pos) : pos + 1 < limit := by
  induction ends with
  | ended less => exact less
  | filler _ _ ih => exact Nat.lt_of_succ_lt ih
  | @goesOn pos _ _ _ ih =>
    have low := doc.source.le_continuedText (pos + 2)
    omega

theorem EndsFixedBefore.succ_lt (ends : doc.EndsFixedBefore limit line pos) : pos + 1 < limit := by
  induction ends with
  | ended less | goesOn less => exact less
  | filler _ _ ih => exact Nat.lt_of_succ_lt ih

theorem EndsFreeBefore.endsFree (ends : doc.EndsFreeBefore limit pos) (le : limit ≤ stop) :
    doc.endsFree stop pos = true := by
  induction ends with
  | @ended pos less lineEnd =>
    have noMark : doc.source.charD (pos + 1) ' ' ≠ '&' := fun mark => by
      rw [mark] at lineEnd
      cases lineEnd
    rw [Document.endsFree, if_pos (by omega), isFiller_of_isLineEnd lineEnd,
      if_neg Bool.false_ne_true, if_neg (fun mark => noMark mark.1), lineEnd]
  | @filler pos filler rest ih =>
    have less := rest.succ_lt
    rw [Document.endsFree, if_pos (by omega), if_pos filler, ih]
  | @goesOn pos mark style rest ih =>
    have less := (goesOn mark style rest).succ_lt
    have noFiller : ¬doc.isFiller (pos + 1) = true := by simp [isFiller, mark, style, isBlank]
    rw [Document.endsFree, if_pos (by omega), if_neg noFiller, if_pos ⟨mark, style⟩, ih]

theorem EndsFixedBefore.endsFixed (ends : doc.EndsFixedBefore limit line pos) (le : limit ≤ stop) :
    doc.endsFixed stop line pos = true := by
  induction ends with
  | ended less lineEnd more noMark =>
    rw [Document.endsFixed, if_pos (by omega), isFiller_of_isLineEnd lineEnd,
      if_neg Bool.false_ne_true, lineEnd, if_neg (by decide), if_pos more, noMark,
      if_neg Bool.false_ne_true]
  | filler filler rest ih =>
    have less := rest.succ_lt
    rw [Document.endsFixed, if_pos (by omega), if_pos filler, ih]
  | goesOn less lineEnd more mark rest ih =>
    rw [Document.endsFixed, if_pos (by omega), isFiller_of_isLineEnd lineEnd,
      if_neg Bool.false_ne_true, lineEnd, if_neg (by decide), if_pos more, if_pos mark, ih]

/-! ## Scans that have to end before a position -/

/-- A scan that only visits some positions finds no line end from a limit on. -/
structure ScansBefore (doc : Document) (limit : Nat) (visits : Nat → Prop) : Prop where
  lineEnd : ∀ {pos}, visits pos → isLineEnd (doc.source.charD (pos + 1) ' ') = true → pos + 1 < limit
  filler : ∀ {pos}, doc.isFiller (pos + 1) = true → visits (pos + 1)
  text : ∀ pos, visits (doc.source.continuedText (pos + 2) - 1)
  mark : ∀ {line}, doc.isStyledContinuation line = true → visits (doc.source.lineStart line + 5)
  closing : ∀ {pos}, doc.source.charD pos ' ' = ')' → visits pos

theorem ScansBefore.endsFree (scans : doc.ScansBefore limit visits) (visited : visits pos)
    (ends : doc.endsFree stop pos = true) : doc.EndsFreeBefore limit pos := by
  fun_induction Document.endsFree doc stop pos with
  | case1 pos less filler ih => exact .filler filler (ih (scans.filler filler) ends)
  | case2 pos less c other mark =>
    rename_i ih
    exact .goesOn mark.1 mark.2 (ih (scans.text pos) ends)
  | case3 pos less c other noMark => exact .ended (scans.lineEnd visited ends) ends
  | case4 => cases ends

theorem lt_of_endsFree (ends : doc.endsFree stop pos = true) : pos < stop := by
  apply Nat.lt_of_not_le
  intro past
  rw [Document.endsFree, if_neg (Nat.not_lt_of_le past)] at ends
  cases ends

theorem lt_of_endsFixed (ends : doc.endsFixed stop line pos = true) : pos < stop := by
  apply Nat.lt_of_not_le
  intro past
  rw [Document.endsFixed, if_neg (Nat.not_lt_of_le past)] at ends
  cases ends

theorem more_of_endsFixed (ends : doc.endsFixed stop line pos = true) :
    line + 1 < doc.source.lineCount := by
  fun_induction Document.endsFixed doc stop line pos with
  | case1 line pos less filler ih => exact ih ends
  | case2 | case6 => cases ends
  | case3 line pos less other lineEnd more mark ih => exact more
  | case4 line pos less other lineEnd more noMark => exact more
  | case5 line pos less other lineEnd noMore ih => exact ih ends

theorem ScansBefore.endsFixed (scans : doc.ScansBefore limit visits) (visited : visits pos)
    (ends : doc.endsFixed stop line pos = true) : doc.EndsFixedBefore limit line pos := by
  fun_induction Document.endsFixed doc stop line pos with
  | case1 line pos less filler ih => exact .filler filler (ih (scans.filler filler) ends)
  | case2 | case6 => cases ends
  | case3 line pos less other noLineEnd more mark ih =>
    have lineEnd : isLineEnd (doc.source.charD (pos + 1) ' ') = true := by simpa using noLineEnd
    exact .goesOn (scans.lineEnd visited lineEnd) lineEnd more mark (ih (scans.mark mark) ends)
  | case4 line pos less other noLineEnd more noMark =>
    have lineEnd : isLineEnd (doc.source.charD (pos + 1) ' ') = true := by simpa using noLineEnd
    exact .ended (scans.lineEnd visited lineEnd) lineEnd more (Bool.eq_false_iff.2 noMark)
  | case5 line pos less other lineEnd noMore ih => exact absurd (more_of_endsFixed ends) noMore

theorem le_closingParenthesis (doc : Document) (style : Style) (stop pos depth : Nat) :
    pos ≤ doc.closingParenthesis style stop pos depth := by
  fun_induction closingParenthesis doc style stop pos depth <;> omega

theorem charD_closingParenthesis {style : Style} {depth : Nat}
    (inside : doc.closingParenthesis style stop pos depth < stop) :
    doc.source.charD (doc.closingParenthesis style stop pos depth) ' ' = ')' := by
  fun_induction closingParenthesis doc style stop pos depth with
  | case1 pos depth less styled opening ih => exact ih inside
  | case2 pos depth less styled closing last => exact closing
  | case3 pos depth less styled closing more ih => exact ih inside
  | case4 pos depth less styled notOpening notClosing ih => exact ih inside
  | case5 pos depth less unstyled ih => exact ih inside
  | case6 pos depth done => exact absurd inside done

/-! ## Texts that are the same up to a position -/

/-- Two documents with the same text up to a line start and the same styles there, and with the same
lines. In fixed form, the same lines have a mark. -/
structure AlikeBefore (form : SourceForm) (limit : Nat) (doc₁ doc₂ : Document) : Prop where
  source : doc₁.source.AgreeTo limit doc₂.source
  styleAt : ∀ pos, pos < limit → doc₂.styleAt pos = doc₁.styleAt pos
  lineCount : doc₂.source.lineCount = doc₁.source.lineCount
  lineStart : ∀ line, line < doc₁.source.lineCount →
    doc₂.source.lineStart line = doc₁.source.lineStart line
  mark : form = .fixed → ∀ line, line < doc₁.source.lineCount →
    doc₂.isStyledContinuation line = doc₁.isStyledContinuation line

namespace AlikeBefore

theorem symm (alike : doc₁.AlikeBefore form limit doc₂) : doc₂.AlikeBefore form limit doc₁ where
  source := alike.source.symm
  styleAt pos less := (alike.styleAt pos less).symm
  lineCount := alike.lineCount.symm
  lineStart line bound := (alike.lineStart line (alike.lineCount ▸ bound)).symm
  mark fixed line bound := (alike.mark fixed line (alike.lineCount ▸ bound)).symm

variable (alike : doc₁.AlikeBefore form limit doc₂)
include alike

theorem charD_eq (less : pos < limit) : doc₂.source.charD pos ' ' = doc₁.source.charD pos ' ' :=
  (alike.source.charD less ' ').symm

theorem isFiller_eq (less : pos < limit) : doc₂.isFiller pos = doc₁.isFiller pos := by
  rw [isFiller, alike.charD_eq less, alike.styleAt pos less, isFiller]

theorem nestingAt_eq (style : Style) (less : pos < limit) :
    doc₂.nestingAt style pos = doc₁.nestingAt style pos := by
  rw [nestingAt, alike.charD_eq less, alike.styleAt pos less, nestingAt]

theorem closingParenthesis_eq {style : Style} {depth : Nat} (le₁ : limit ≤ stop₁) (le₂ : limit ≤ stop₂)
    (positive : 0 < depth) (found : doc₁.closingParenthesis style stop₁ pos depth < limit) :
    doc₂.closingParenthesis style stop₂ pos depth =
      doc₁.closingParenthesis style stop₁ pos depth := by
  have low := le_closingParenthesis doc₁ style stop₁ pos depth
  induction left : limit - pos generalizing pos depth with
  | zero => omega
  | succ left ih =>
    have less₁ : pos < stop₁ := by omega
    have less₂ : pos < stop₂ := by omega
    have nesting := neg_one_le_nestingAt doc₁ style (pos + 1)
    rw [closingParenthesis_succ less₁ positive] at found
    have further := le_closingParenthesis doc₁ style stop₁ (pos + 1)
      (depth + doc₁.nestingAt style (pos + 1)).toNat
    have next : pos + 1 < limit := by split at found <;> omega
    rw [closingParenthesis_succ less₁ positive, closingParenthesis_succ less₂ positive,
      alike.nestingAt_eq style next]
    split
    · rfl
    · rename_i opened
      rw [if_neg opened] at found
      exact ih (by omega) found further (by omega)

theorem endsFree (ends : doc₁.EndsFreeBefore limit pos) : doc₂.EndsFreeBefore limit pos := by
  induction ends with
  | ended less lineEnd => exact .ended less (by rwa [alike.charD_eq less])
  | filler filler rest ih =>
    have less := Nat.lt_of_succ_lt rest.succ_lt
    exact .filler (by rwa [alike.isFiller_eq less]) ih
  | @goesOn pos mark style rest ih =>
    have less := (EndsFreeBefore.goesOn mark style rest).succ_lt
    have before := rest.succ_lt
    have text : doc₂.source.continuedText (pos + 2) = doc₁.source.continuedText (pos + 2) :=
      alike.source.continuedText_eq_of_lt (by omega)
    exact .goesOn (by rwa [alike.charD_eq less]) (by rwa [alike.styleAt _ less]) (text ▸ ih)

theorem endsFixed (fixed : form = .fixed) (ends : doc₁.EndsFixedBefore limit line pos) :
    doc₂.EndsFixedBefore limit line pos := by
  induction ends with
  | ended less lineEnd more noMark =>
    exact .ended less (by rwa [alike.charD_eq less]) (alike.lineCount ▸ more)
      (by rwa [alike.mark fixed _ more])
  | filler filler rest ih =>
    have less := Nat.lt_of_succ_lt rest.succ_lt
    exact .filler (by rwa [alike.isFiller_eq less]) ih
  | goesOn less lineEnd more mark rest ih =>
    exact .goesOn less (by rwa [alike.charD_eq less]) (alike.lineCount ▸ more)
      (by rwa [alike.mark fixed _ more]) (alike.lineStart _ more ▸ ih)

/-- A block that is opened, with a scan that ends before the limit, is opened in both texts. -/
theorem opensBlock (scans : doc₁.ScansBefore limit visits) (le₁ : limit ≤ stop₁) (le₂ : limit ≤ stop₂)
    (opens : doc₁.opensBlock form stop₁ line pos = true) :
    doc₂.opensBlock form stop₂ line pos = true := by
  unfold Document.opensBlock at opens ⊢
  dsimp only at opens ⊢
  generalize openingEq : doc₁.source.skipWhile (· ≠ '(') stop₁ (pos + 1) = opening at opens
  generalize closingEq : doc₁.closingParenthesis (doc₁.styleAt opening) stop₁ opening 1 = closing
    at opens
  have low : opening ≤ closing := closingEq ▸ le_closingParenthesis doc₁ _ _ _ _
  -- All that has been read before the parenthesis is before the limit too.
  have same (ended : closing + 1 < limit) :
      doc₂.closingParenthesis (doc₂.styleAt (doc₂.source.skipWhile (· ≠ '(') stop₂ (pos + 1))) stop₂
        (doc₂.source.skipWhile (· ≠ '(') stop₂ (pos + 1)) 1 = closing := by
    have opening₂ : doc₂.source.skipWhile (· ≠ '(') stop₂ (pos + 1) = opening := by
      rw [← openingEq]
      exact alike.source.skipWhile_eq_of_lt le₁ le₂ (by omega)
    rw [opening₂, alike.styleAt opening (by omega), ← closingEq]
    exact alike.closingParenthesis_eq le₁ le₂ Nat.one_pos (by omega)
  have visited (inside : closing < stop₁) : visits closing := by
    rw [← closingEq] at inside ⊢
    exact scans.closing (charD_closingParenthesis inside)
  cases form with
  | fixed =>
    have ends := scans.endsFixed (visited (lt_of_endsFixed opens)) opens
    dsimp only
    rw [same ends.succ_lt]
    exact (alike.endsFixed rfl ends).endsFixed le₂
  | free =>
    have ends := scans.endsFree (visited (lt_of_endsFree opens)) opens
    dsimp only
    rw [same ends.succ_lt]
    exact (alike.endsFree ends).endsFree le₂

end AlikeBefore

/-! ## The last line -/

/-- The second document is the first one, whose last line has no line end, with a line feed after
it. Both have the same properties, and the same styles before the last line. In fixed form, the same
lines have a mark. -/
structure EndsLast (form : SourceForm) (doc₁ doc₂ : Document) : Prop where
  source : Source.EndsLast doc₁.source doc₂.source
  styleAt : ∀ pos, pos < doc₁.source.lastStart → doc₂.styleAt pos = doc₁.styleAt pos
  property : ∀ key unset, doc₂.property key unset = doc₁.property key unset
  mark : form = .fixed → ∀ line, line < doc₁.source.lines →
    doc₂.isStyledContinuation line = doc₁.isStyledContinuation line

/-- A position that shows a part of a statement, and neither closes a parenthesis nor is a mark. -/
structure ShowsAt (doc : Document) (pos : Nat) : Prop where
  visible : doc.isFiller pos = false
  closing : doc.source.charD pos ' ' ≠ ')'
  ampersand : doc.source.charD pos ' ' ≠ '&'
  mark : doc.styleAt pos ≠ .continuation

instance (doc : Document) (pos : Nat) : Decidable (doc.ShowsAt pos) :=
  decidable_of_iff (doc.isFiller pos = false ∧ doc.source.charD pos ' ' ≠ ')' ∧
      doc.source.charD pos ' ' ≠ '&' ∧ doc.styleAt pos ≠ .continuation)
    ⟨fun ⟨visible, closing, ampersand, mark⟩ => ⟨visible, closing, ampersand, mark⟩,
      fun shows => ⟨shows.visible, shows.closing, shows.ampersand, shows.mark⟩⟩

namespace EndsLast

variable (ends : doc₁.EndsLast form doc₂)
include ends

theorem charD_eq (less : pos < doc₁.source.lastStart) :
    doc₂.source.charD pos ' ' = doc₁.source.charD pos ' ' :=
  ends.source.charD_eq (Nat.lt_trans less ends.source.lastStart_lt) ' '

theorem lastStart_lt : doc₁.source.lastStart < doc₁.size :=
  ends.source.lastStart_lt

theorem size_eq : doc₂.size = doc₁.size + 1 :=
  ends.source.size_eq

theorem alikeBefore : AlikeBefore form doc₁.source.lastStart doc₁ doc₂ where
  source := ends.source.agree
  styleAt := ends.styleAt
  lineCount := by rw [ends.source.lineCount₁, ends.source.lineCount₂]
  lineStart line bound := ends.source.lineStart_eq (ends.source.lineCount₁ ▸ bound)
  mark fixed line bound := ends.mark fixed line (ends.source.lineCount₁ ▸ bound)

theorem scansBefore : doc₁.ScansBefore doc₁.source.lastStart (fun _ => True) where
  lineEnd _ lineEnd := ends.source.lt_lastStart lineEnd
  filler _ := trivial
  text _ := trivial
  mark _ := trivial
  closing _ := trivial

/-- A scan that stops at the last byte does not come to the line feed. -/
theorem scansBefore_of_showsAt (shows : doc₂.ShowsAt (doc₁.size - 1)) :
    doc₂.ScansBefore doc₁.source.lastStart (fun pos => pos + 1 ≠ doc₁.size) where
  lineEnd other lineEnd := ends.source.lt_lastStart_of_ne lineEnd other
  filler {pos} filler last := by
    have here : pos + 1 = doc₁.size - 1 := by omega
    rw [here, shows.visible] at filler
    cases filler
  text pos last := by
    have low := doc₂.source.le_continuedText (pos + 2)
    have inLine : isLineEnd (doc₂.source.charD (doc₁.size - 1) ' ') = false := by
      have less : doc₁.size - 1 < doc₁.size := Nat.sub_lt ends.source.nonempty Nat.one_pos
      rw [ends.source.charD_eq less, Source.charD_eq_of_lt less _ '\x00']
      exact ends.source.unended
    have visible := shows.visible
    simp only [isFiller, inLine, Bool.not_false, Bool.true_and, Bool.or_eq_false_iff] at visible
    have ne := ends.source.continuedText_ne visible.2 shows.ampersand (pos + 2)
    exact ne (by change _ = doc₁.size; omega)
  mark {line} mark last := by
    have here : doc₂.source.lineStart line + 5 = doc₁.size - 1 := by omega
    simp only [isStyledContinuation, Bool.and_eq_true, decide_eq_true_eq, here] at mark
    exact shows.mark mark.1.1
  closing {pos} closing last := by
    have here : pos = doc₁.size - 1 := by omega
    exact shows.closing (here ▸ closing)

/-- A block that is opened in the first text is opened in the second one. -/
theorem opensBlock (opens : doc₁.opensBlock form doc₁.size line pos = true) :
    doc₂.opensBlock form doc₂.size line pos = true := by
  have size := ends.size_eq
  have last := ends.lastStart_lt
  exact ends.alikeBefore.opensBlock ends.scansBefore (by omega) (by omega) opens

theorem opensBlock_of_showsAt (shows : doc₂.ShowsAt (doc₁.size - 1))
    (opens : doc₂.opensBlock form doc₂.size line pos = true) :
    doc₁.opensBlock form doc₁.size line pos = true := by
  have size := ends.size_eq
  have last := ends.lastStart_lt
  exact ends.alikeBefore.symm.opensBlock (ends.scansBefore_of_showsAt shows) (by omega) (by omega)
    opens

end EndsLast

end Document

end FortranMarkup
