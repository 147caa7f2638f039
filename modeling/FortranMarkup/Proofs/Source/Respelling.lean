import FortranMarkup.Folding.Construct
import FortranMarkup.Proofs.Folding.Words
import FortranMarkup.Proofs.Source.Lines
import FortranMarkup.Proofs.Tokens.Basic

/-!
# Respelled text

One text respells another if its letters may stand in another case and its line feeds may have a
carriage return before them (`Source.Respells`). Both have the same lines (`lineAt_place`,
`lineStart_eq`), and a search for a class of characters that takes neither into account
(`Blind`) comes to corresponding places (`skipWhile_place`).
-/

namespace FortranMarkup

/-! ## Characters -/

/-- Two characters that are one letter in any case, or one other character, or the line feed of a text
and the carriage return before it in the other. -/
def CharRespells (c d : Char) : Prop :=
  c.toLower = d.toLower ∨ (c = '\n' ∧ d = '\r')

/-- A class that holds of a character in any case, and of both characters of a line end or of none. -/
def Blind (inClass : Char → Bool) : Prop :=
  ∀ c d, CharRespells c d → inClass c = inClass d

theorem isAlpha_toLower (c : Char) : c.toLower.isAlpha = c.isAlpha := by
  cases letter : c.isAlpha with
  | false => rw [toLower_of_not_isAlpha letter, letter]
  | true =>
    have small : c.toNat < 123 := by
      have := toNat_of_isAlpha letter
      omega
    have all : ∀ n : Fin 123, (Char.ofNat n).isAlpha = true →
        (Char.ofNat n).toLower.isAlpha = true := by
      decide
    have here := all ⟨c.toNat, small⟩
    rw [Char.ofNat_toNat] at here
    exact here letter

theorem eq_or_isAlpha_of_toLower {c d : Char} (same : c.toLower = d.toLower) :
    c = d ∨ (c.isAlpha = true ∧ d.isAlpha = true) := by
  have letters : c.isAlpha = d.isAlpha := by rw [← isAlpha_toLower, same, isAlpha_toLower]
  cases letter : c.isAlpha with
  | true => exact .inr ⟨rfl, letters ▸ letter⟩
  | false =>
    rw [toLower_of_not_isAlpha letter, toLower_of_not_isAlpha (letters ▸ letter)] at same
    exact .inl same

theorem ne_of_isAlpha {c other : Char} (letter : c.isAlpha = true)
    (noLetter : other.isAlpha = false) : c ≠ other := by
  rintro rfl
  rw [letter] at noLetter
  cases noLetter

theorem eq_iff_of_toLower {c d : Char} (same : c.toLower = d.toLower) (other : Char)
    (noLetter : other.isAlpha = false) : d = other ↔ c = other := by
  rcases eq_or_isAlpha_of_toLower same with rfl | ⟨letter₁, letter₂⟩
  · rfl
  · exact iff_of_false (ne_of_isAlpha letter₂ noLetter) (ne_of_isAlpha letter₁ noLetter)

theorem eq_some_iff_of_map_toLower {found₁ found₂ : Option Char}
    (same : found₁.map Char.toLower = found₂.map Char.toLower) {c : Char}
    (noLetter : c.isAlpha = false) : found₂ = some c ↔ found₁ = some c := by
  match found₁, found₂, same with
  | none, none, _ => simp
  | some d, some e, same =>
    simp only [Option.map_some, Option.some.injEq] at same ⊢
    exact eq_iff_of_toLower same _ noLetter

/-- A class in which all letters are, or none, is blind if it has both characters of a line end, or
none. -/
theorem blind_of_letters {inClass : Char → Bool} (holds : Bool)
    (letters : ∀ c, c.isAlpha = true → inClass c = holds) (ends : inClass '\n' = inClass '\r') :
    Blind inClass := by
  rintro c d (same | ⟨rfl, rfl⟩)
  · rcases eq_or_isAlpha_of_toLower same with rfl | ⟨letter₁, letter₂⟩
    · rfl
    · rw [letters c letter₁, letters d letter₂]
  · exact ends

theorem Blind.not {inClass : Char → Bool} (blind : Blind inClass) : Blind (fun c => !inClass c) :=
  fun c d respells => congrArg _ (blind c d respells)

theorem blind_isLineEnd : Blind isLineEnd :=
  blind_of_letters false (fun _ letter => isLineEnd_of_isNameChar (isNameChar_of_isAlpha letter)) rfl

theorem blind_isSpace : Blind isSpace :=
  blind_of_letters false (fun _ letter => isSpace_of_isNameChar (isNameChar_of_isAlpha letter)) rfl

theorem blind_isDigit : Blind Char.isDigit :=
  blind_of_letters false (fun _ letter => isDigit_of_isAlpha letter) rfl

theorem blind_isAlpha : Blind Char.isAlpha :=
  blind_of_letters true (fun _ letter => letter) rfl

theorem blind_isWordChar : Blind isWordChar :=
  blind_of_letters true (fun _ letter => isWordChar_of_isNameChar (isNameChar_of_isAlpha letter)) rfl

theorem blind_isFoldWordChar : Blind isFoldWordChar :=
  blind_of_letters true (fun _ letter => isFoldWordChar_of_isNameChar (isNameChar_of_isAlpha letter)) rfl

theorem blind_isWordStart : Blind isWordStart := by
  refine blind_of_letters true (fun c letter => ?_) rfl
  rw [isWordStart, Char.isAlphanum, letter, Bool.true_or]

theorem blind_isBlank : Blind isBlank := by
  refine blind_of_letters false (fun c letter => ?_) rfl
  simp [isBlank, ne_of_isAlpha letter (show ' '.isAlpha = false from rfl),
    ne_of_isAlpha letter (show '\t'.isAlpha = false from rfl),
    ne_of_isAlpha letter (show '\x0b'.isAlpha = false from rfl)]

theorem blind_isSpaceOrTab : Blind isSpaceOrTab := by
  refine blind_of_letters false (fun c letter => ?_) rfl
  simp [isSpaceOrTab, ne_of_isAlpha letter (show ' '.isAlpha = false from rfl),
    ne_of_isAlpha letter (show '\t'.isAlpha = false from rfl)]

theorem blind_isOperator : Blind isOperator := by
  refine blind_of_letters false (fun c letter => ?_) rfl
  have none : (['%', '^', '&', '*', '(', ')', '-', '+', '=', '|', '\x7b', '\x7d', '[', ']', ':', ';',
      '<', '>', ',', '/', '?', '!', '.', '~'].all (!Char.isAlpha ·)) = true := by decide
  rw [isOperator, Bool.eq_false_iff]
  intro operator
  have noLetter := List.all_eq_true.1 none c (List.contains_iff_mem.1 operator)
  rw [letter] at noLetter
  cases noLetter

theorem blind_eq (other : Char) (noLetter : other.isAlpha = false)
    (inLine : isLineEnd other = false) : Blind (fun c => decide (c = other)) := by
  simp only [isLineEnd, Bool.or_eq_false_iff, decide_eq_false_iff_not] at inLine
  refine blind_of_letters false (fun c letter => ?_) ?_
  · exact decide_eq_false (ne_of_isAlpha letter noLetter)
  · rw [decide_eq_false (Ne.symm inLine.1), decide_eq_false (Ne.symm inLine.2)]

namespace CharRespells

variable {c d : Char} (respells : CharRespells c d)
include respells

/-- A mark that is neither a letter nor a line end is the same in both texts. -/
theorem eq_iff (other : Char) (noLetter : other.isAlpha = false)
    (inLine : isLineEnd other = false) : d = other ↔ c = other := by
  have same := blind_eq other noLetter inLine c d respells
  rw [decide_eq_decide] at same
  exact same.symm

/-- A small letter, or a mark that ends no line, is what both characters are in small letters, or
neither. -/
theorem toLower_eq_iff {other : Char} (inLine : isLineEnd other = false) :
    d.toLower = other ↔ c.toLower = other := by
  rcases respells with same | ⟨rfl, rfl⟩
  · rw [same]
  · refine iff_of_false ?_ ?_ <;> (rintro rfl; cases inLine)

end CharRespells

/-! ## Places -/

namespace Source

/-- The position after the line end that begins at a position; the position itself if none does. -/
def pastLineEnd (src : Source) (pos : Nat) : Nat :=
  let afterReturn := if src.charD pos ' ' = '\r' then pos + 1 else pos
  if src.charD afterReturn ' ' = '\n' then afterReturn + 1 else afterReturn

theorem continuedText_eq (src : Source) (pos : Nat) :
    src.continuedText pos =
      let atEnd := src.skipWhile (fun c => !isLineEnd c) src.size pos
      let text := src.skipWhile isBlank src.size (src.pastLineEnd atEnd)
      if src.charD text ' ' = '&' then src.skipWhile isBlank src.size (text + 1) else text :=
  rfl

/-- How the byte at a position stands in the other text: as one byte, the same in any case, or as a
carriage return and a line feed for a line feed. No other carriage return is before those two. -/
inductive RespeltAt (place : Nat → Nat) (src₁ src₂ : Source) (pos : Nat) : Prop
  | single (next : place (pos + 1) = place pos + 1)
      (char : (src₁.char? pos).map Char.toLower = (src₂.char? (place pos)).map Char.toLower)
  | double (next : place (pos + 1) = place pos + 2) (feed : src₁.char? pos = some '\n')
      (return₂ : src₂.char? (place pos) = some '\r')
      (feed₂ : src₂.char? (place pos + 1) = some '\n')
      (lone : ∀ before, before + 1 = pos → src₁.charD before ' ' ≠ '\r')

/-- The second text respells the first one; the bytes for the one at a position are there from its
place up to the place of the next position. -/
structure Respells (place : Nat → Nat) (src₁ src₂ : Source) : Prop where
  table₁ : src₁.Tabled
  table₂ : src₂.Tabled
  zero : place 0 = 0
  size : place src₁.size = src₂.size
  respelt : ∀ pos, RespeltAt place src₁ src₂ pos

/-- A position of the second text is that of a byte for the one at a position of the first. -/
def Stands (place : Nat → Nat) (pos₁ pos₂ : Nat) : Prop :=
  pos₂ = place pos₁ ∨ pos₂ + 1 = place (pos₁ + 1)

namespace Respells

variable {place : Nat → Nat} {src₁ src₂ : Source} (respells : Respells place src₁ src₂)
include respells

theorem place_succ (pos : Nat) :
    place (pos + 1) = place pos + 1 ∨ place (pos + 1) = place pos + 2 := by
  cases respells.respelt pos with
  | single next => exact .inl next
  | double next => exact .inr next

theorem place_lt_succ (pos : Nat) : place pos < place (pos + 1) := by
  have := respells.place_succ pos
  omega

theorem place_le {pos later : Nat} (le : pos ≤ later) : place pos ≤ place later := by
  induction later with
  | zero =>
    obtain rfl : pos = 0 := Nat.le_zero.1 le
    exact Nat.le_refl _
  | succ later ih =>
    rcases Nat.lt_or_eq_of_le le with less | rfl
    · exact Nat.le_trans (ih (Nat.le_of_lt_succ less)) (Nat.le_of_lt (respells.place_lt_succ later))
    · exact Nat.le_refl _

theorem place_lt {pos later : Nat} (less : pos < later) : place pos < place later :=
  Nat.lt_of_lt_of_le (respells.place_lt_succ pos) (respells.place_le less)

theorem place_lt_iff {pos later : Nat} : place pos < place later ↔ pos < later := by
  constructor
  · intro less
    apply Nat.lt_of_not_le
    intro le
    exact Nat.not_lt_of_le (respells.place_le le) less
  · exact respells.place_lt

theorem place_inj {pos later : Nat} : place pos = place later ↔ pos = later := by
  constructor
  · intro same
    have := @place_lt_iff _ _ _ respells pos later
    have := @place_lt_iff _ _ _ respells later pos
    omega
  · rintro rfl
    rfl

theorem le_place (pos : Nat) : pos ≤ place pos := by
  induction pos with
  | zero => exact Nat.zero_le _
  | succ pos ih =>
    have := respells.place_lt_succ pos
    omega

theorem stands_bounds {pos₁ pos₂ : Nat} (stands : Stands place pos₁ pos₂) :
    place pos₁ ≤ pos₂ ∧ pos₂ < place (pos₁ + 1) := by
  have next := respells.place_lt_succ pos₁
  rcases stands with first | last <;> omega

theorem stands_lt_iff {pos₁ pos₂ later : Nat} (stands : Stands place pos₁ pos₂) :
    pos₂ < place later ↔ pos₁ < later := by
  have bounds := respells.stands_bounds stands
  constructor
  · intro less
    exact respells.place_lt_iff.1 (Nat.lt_of_le_of_lt bounds.1 less)
  · intro less
    exact Nat.lt_of_lt_of_le bounds.2 (respells.place_le less)

/-! ## Characters at places -/

theorem charD_of_first {pos₁ pos₂ : Nat} (first : pos₂ = place pos₁) (past : Char) :
    CharRespells (src₁.charD pos₁ past) (src₂.charD pos₂ past) := by
  subst first
  unfold charD
  cases respells.respelt pos₁ with
  | single _ char =>
    refine .inl ?_
    rw [← Option.getD_map Char.toLower, char, Option.getD_map]
  | double _ feed return₂ =>
    rw [feed, return₂]
    exact .inr ⟨rfl, rfl⟩

theorem charD_of_last {pos₁ pos₂ : Nat} (last : pos₂ + 1 = place (pos₁ + 1)) (past : Char) :
    (src₁.charD pos₁ past).toLower = (src₂.charD pos₂ past).toLower := by
  unfold charD
  cases respells.respelt pos₁ with
  | single next char =>
    obtain rfl : pos₂ = place pos₁ := by omega
    rw [← Option.getD_map Char.toLower, char, Option.getD_map]
  | double next feed _ feed₂ =>
    obtain rfl : pos₂ = place pos₁ + 1 := by omega
    rw [feed, feed₂]

theorem charD_of_stands {pos₁ pos₂ : Nat} (stands : Stands place pos₁ pos₂) (past : Char) :
    CharRespells (src₁.charD pos₁ past) (src₂.charD pos₂ past) := by
  rcases stands with first | last
  · exact respells.charD_of_first first past
  · exact .inl (respells.charD_of_last last past)

theorem charD_of_double {pos : Nat} (double : place (pos + 1) = place pos + 2) (past : Char) :
    src₁.charD pos past = '\n' ∧ src₂.charD (place pos) past = '\r' ∧
      src₂.charD (place pos + 1) past = '\n' := by
  cases respells.respelt pos with
  | single next => omega
  | double _ feed return₂ feed₂ =>
    refine ⟨?_, ?_, ?_⟩
    · rw [charD, feed]; rfl
    · rw [charD, return₂]; rfl
    · rw [charD, feed₂]; rfl

theorem lt_size_of_double {pos : Nat} (double : place (pos + 1) = place pos + 2) :
    pos < src₁.size := by
  apply Nat.lt_of_not_le
  intro past
  have feed := (respells.charD_of_double double ' ').1
  rw [charD_of_le past] at feed
  cases feed

/-- A byte that ends no line stands as one byte. -/
theorem place_succ_of_inLine {pos : Nat} {past : Char}
    (inLine : isLineEnd (src₁.charD pos past) = false) : place (pos + 1) = place pos + 1 := by
  rcases respells.place_succ pos with single | double
  · exact single
  · rw [(respells.charD_of_double double past).1] at inLine
    cases inLine

/-! ## Lines -/

theorem endsLineAt_of_last {pos₁ pos₂ : Nat} (last : pos₂ + 1 = place (pos₁ + 1)) :
    endsLineAt src₂.bytes pos₂ = endsLineAt src₁.bytes pos₁ := by
  cases respells.respelt pos₁ with
  | single next char =>
    obtain rfl : pos₂ = place pos₁ := by omega
    have feed : charAt? src₂.bytes (place pos₁) = some '\n' ↔ charAt? src₁.bytes pos₁ = some '\n' :=
      eq_some_iff_of_map_toLower char rfl
    have ret : charAt? src₂.bytes (place pos₁) = some '\r' ↔ charAt? src₁.bytes pos₁ = some '\r' :=
      eq_some_iff_of_map_toLower char rfl
    -- A line feed after a carriage return of the first text stands as one byte.
    have after : charAt? src₁.bytes pos₁ = some '\r' →
        (charAt? src₂.bytes (place pos₁ + 1) = some '\n' ↔
          charAt? src₁.bytes (pos₁ + 1) = some '\n') := by
      intro here
      rw [← next]
      cases respells.respelt (pos₁ + 1) with
      | single _ char => exact eq_some_iff_of_map_toLower char rfl
      | double _ _ _ _ lone =>
        refine absurd ?_ (lone pos₁ rfl)
        rw [charD, char?, here]
        rfl
    rw [Bool.eq_iff_iff]
    simp only [endsLineAt, Bool.or_eq_true, Bool.and_eq_true, decide_eq_true_eq]
    grind
  | double next feed _ feed₂ =>
    obtain rfl : pos₂ = place pos₁ + 1 := by omega
    have feed : charAt? src₁.bytes pos₁ = some '\n' := feed
    have feed₂ : charAt? src₂.bytes (place pos₁ + 1) = some '\n' := feed₂
    simp [endsLineAt, feed, feed₂]

theorem endsLineAt_feed_of_double {pos : Nat} (double : place (pos + 1) = place pos + 2) :
    endsLineAt src₁.bytes pos = true := by
  cases respells.respelt pos with
  | single next => omega
  | double _ feed =>
    have feed : charAt? src₁.bytes pos = some '\n' := feed
    simp [endsLineAt, feed]

theorem endsLineAt_of_double {pos : Nat} (double : place (pos + 1) = place pos + 2) :
    endsLineAt src₂.bytes (place pos) = false := by
  cases respells.respelt pos with
  | single next => omega
  | double _ _ return₂ feed₂ =>
    have return₂ : charAt? src₂.bytes (place pos) = some '\r' := return₂
    have feed₂ : charAt? src₂.bytes (place pos + 1) = some '\n' := feed₂
    simp [endsLineAt, return₂, feed₂]

theorem startsLine_place (pos : Nat) : src₂.StartsLine (place pos) ↔ src₁.StartsLine pos := by
  cases pos with
  | zero => simp [respells.zero]
  | succ pos =>
    obtain ⟨last, same⟩ : ∃ last, place (pos + 1) = last + 1 :=
      ⟨place (pos + 1) - 1, by have := respells.place_lt_succ pos; omega⟩
    rw [same, startsLine_succ, startsLine_succ, respells.endsLineAt_of_last same.symm]

theorem lineAt_place (pos : Nat) : src₂.lineAt (place pos) = src₁.lineAt pos := by
  induction pos with
  | zero => rw [respells.zero, lineAt_zero respells.table₁, lineAt_zero respells.table₂]
  | succ pos ih =>
    rw [lineAt_succ respells.table₁]
    rcases respells.place_succ pos with single | double
    · rw [single, lineAt_succ respells.table₂, ih, respells.endsLineAt_of_last single.symm]
    · have return₂ : src₂.lineAt (place pos + 1) = src₁.lineAt pos := by
        rw [lineAt_succ respells.table₂, respells.endsLineAt_of_double double, ih, if_neg (by decide)]
      rw [double, show place pos + 2 = place pos + 1 + 1 from rfl, lineAt_succ respells.table₂,
        return₂, respells.endsLineAt_of_last double.symm]

theorem lineAt_of_stands {pos₁ pos₂ : Nat} (stands : Stands place pos₁ pos₂) :
    src₂.lineAt pos₂ = src₁.lineAt pos₁ := by
  rcases stands with rfl | last
  · exact respells.lineAt_place pos₁
  · rcases respells.place_succ pos₁ with single | double
    · obtain rfl : pos₂ = place pos₁ := by omega
      exact respells.lineAt_place pos₁
    · obtain rfl : pos₂ = place pos₁ + 1 := by omega
      rw [lineAt_succ respells.table₂, respells.endsLineAt_of_double double, if_neg (by decide),
        respells.lineAt_place]

theorem lines_eq : src₂.lines = src₁.lines := by
  rw [← lineAt_size respells.table₁, ← lineAt_size respells.table₂, ← respells.size,
    respells.lineAt_place]

theorem lineStart_eq (line : Nat) : src₂.lineStart line = place (src₁.lineStart line) := by
  by_cases bound : line < src₁.lines
  · have starts := startsLine_lineStart respells.table₁ bound
    have starts₂ := (respells.startsLine_place _).2 starts
    rw [← lineStart_lineAt_of_startsLine respells.table₂ starts₂, respells.lineAt_place,
      lineAt_lineStart respells.table₁ bound]
  · have past := Nat.le_of_not_lt bound
    rw [lineStart_of_le past, lineStart_of_le (respells.lines_eq ▸ past), respells.size]

theorem empty_iff : src₂.size = 0 ↔ src₁.size = 0 := by
  rw [← respells.size, ← respells.zero, respells.place_inj, respells.zero]

theorem lineCount_eq : src₂.lineCount = src₁.lineCount := by
  have last : src₂.lineStart (src₁.lines - 1) = src₂.size ↔
      src₁.lineStart (src₁.lines - 1) = src₁.size := by
    rw [respells.lineStart_eq, ← respells.size, respells.place_inj]
  simp only [lineCount, respells.lines_eq, ne_eq, respells.empty_iff, last]

/-! ## Searches -/

/-- A search for a class that takes neither case nor carriage returns into account comes to
corresponding places. -/
theorem skipWhile_place {inClass : Char → Bool} (blind : Blind inClass) (stop pos : Nat) :
    src₂.skipWhile inClass (place stop) (place pos) = place (src₁.skipWhile inClass stop pos) := by
  fun_induction skipWhile src₁ inClass stop pos with
  | case1 pos more member ih =>
    have more₂ : place pos < place stop := respells.place_lt more
    have member₂ : inClass (src₂.charD (place pos) ' ') = true := by
      rw [← blind _ _ (respells.charD_of_first rfl ' '), member]
    rw [skipWhile, if_pos more₂, if_pos member₂, ← ih]
    rcases respells.place_succ pos with single | double
    · rw [single]
    · -- The line feed after the carriage return is in the class as well.
      have more₃ : place pos + 1 < place stop := by
        have : place (pos + 1) ≤ place stop := respells.place_le more
        omega
      have member₃ : inClass (src₂.charD (place pos + 1) ' ') = true := by
        rw [← blind _ _ (.inl (respells.charD_of_last double.symm ' ')), member]
      rw [skipWhile, if_pos more₃, if_pos member₃, double]
  | case2 pos more other =>
    have other₂ : ¬inClass (src₂.charD (place pos) ' ') = true := by
      rwa [← blind _ _ (respells.charD_of_first rfl ' ')]
    rw [skipWhile, if_neg other₂, ite_self]
  | case3 pos done => rw [skipWhile, if_neg (fun more => done (respells.place_lt_iff.1 more))]

/-- A search for a class without line ends goes over as many characters in both texts, so it comes
to corresponding places also if it is for characters within some distance. -/
theorem skipWhile_within {inClass : Char → Bool} (blind : Blind inClass)
    (inLine : ∀ c, inClass c = true → isLineEnd c = false) (distance pos : Nat) :
    ∃ count, src₁.skipWhile inClass (min (pos + distance) src₁.size) pos = pos + count ∧
      src₂.skipWhile inClass (min (place pos + distance) src₂.size) (place pos) =
        place pos + count ∧ place (pos + count) = place pos + count := by
  induction distance generalizing pos with
  | zero =>
    refine ⟨0, ?_, ?_, rfl⟩
    · rw [skipWhile, if_neg (by omega)]
      rfl
    · rw [skipWhile, if_neg (by omega)]
      rfl
  | succ distance ih =>
    have blank := blind _ _ (respells.charD_of_first (rfl : place pos = place pos) ' ')
    have inside : place pos < src₂.size ↔ pos < src₁.size := by
      rw [← respells.size, respells.place_lt_iff]
    by_cases goes : pos < src₁.size ∧ inClass (src₁.charD pos ' ') = true
    · have next := respells.place_succ_of_inLine (inLine _ goes.2)
      obtain ⟨count, skips₁, skips₂, same⟩ := ih (pos + 1)
      have shift (first : Nat) : first + 1 + distance = first + (distance + 1) := by omega
      rw [next, shift] at skips₂
      rw [shift] at skips₁
      rw [next] at same
      refine ⟨count + 1, ?_, ?_, ?_⟩
      · rw [skipWhile, if_pos (by omega), if_pos goes.2, skips₁]
        omega
      · rw [skipWhile, if_pos (by have := inside.2 goes.1; omega), if_pos (blank ▸ goes.2), skips₂]
        omega
      · rw [show pos + (count + 1) = pos + 1 + count by omega, same]
        omega
    · refine ⟨0, ?_, ?_, rfl⟩
      · rw [skipWhile]
        grind
      · rw [skipWhile]
        grind

theorem pastLineEnd_place (atEnd : Nat) :
    src₂.pastLineEnd (place atEnd) = place (src₁.pastLineEnd atEnd) := by
  have first := respells.charD_of_first (rfl : place atEnd = place atEnd) ' '
  cases respells.respelt atEnd with
  | double next feed return₂ feed₂ =>
    have feed : src₁.charD atEnd ' ' = '\n' := by rw [charD, feed]; rfl
    have return₂ : src₂.charD (place atEnd) ' ' = '\r' := by rw [charD, return₂]; rfl
    have feed₂ : src₂.charD (place atEnd + 1) ' ' = '\n' := by rw [charD, feed₂]; rfl
    simp [pastLineEnd, feed, return₂, feed₂, next]
  | single next char =>
    have same := respells.charD_of_last next.symm ' '
    have ret := eq_iff_of_toLower same '\r' rfl
    have feed := eq_iff_of_toLower same '\n' rfl
    by_cases here : src₁.charD atEnd ' ' = '\r'
    · -- A line feed after a carriage return stands by itself in both texts.
      obtain ⟨next₂, feed⟩ : place (atEnd + 1 + 1) = place (atEnd + 1) + 1 ∧
          (src₂.charD (place (atEnd + 1)) ' ' = '\n' ↔ src₁.charD (atEnd + 1) ' ' = '\n') := by
        cases respells.respelt (atEnd + 1) with
        | single next => exact ⟨next, eq_iff_of_toLower (respells.charD_of_last next.symm ' ') _ rfl⟩
        | double _ _ _ _ lone => exact absurd here (lone atEnd rfl)
      simp only [pastLineEnd, if_pos here, if_pos (ret.2 here), ← next, feed]
      split
      · exact next₂.symm
      · rfl
    · simp only [pastLineEnd, if_neg here, if_neg (mt ret.1 here), feed]
      split
      · rw [next]
      · rfl

theorem continuedText_place (pos : Nat) :
    src₂.continuedText (place pos) = place (src₁.continuedText pos) := by
  simp only [continuedText_eq]
  rw [← respells.size, respells.skipWhile_place blind_isLineEnd.not, respells.pastLineEnd_place,
    respells.skipWhile_place blind_isBlank]
  generalize src₁.skipWhile isBlank src₁.size _ = text
  have mark := (respells.charD_of_first (rfl : place text = place text) ' ').eq_iff '&' rfl rfl
  by_cases marked : src₁.charD text ' ' = '&'
  · have inLine : isLineEnd (src₁.charD text ' ') = false := by rw [marked]; rfl
    have next := respells.place_succ_of_inLine inLine
    rw [if_pos marked, if_pos (mark.2 marked), ← next, respells.skipWhile_place blind_isBlank]
  · rw [if_neg marked, if_neg (mt mark.1 marked)]

/-! ## Words -/

theorem place_add {past : Char} {pos count : Nat}
    (inLine : ∀ between, pos ≤ between → between < pos + count →
      isLineEnd (src₁.charD between past) = false) : place (pos + count) = place pos + count := by
  induction count with
  | zero => rfl
  | succ count ih =>
    have before := ih (fun between low high => inLine between low (by omega))
    rw [← Nat.add_assoc, respells.place_succ_of_inLine (inLine (pos + count) (by omega) (by omega)),
      before]
    rfl

/-- The characters between two places on one line are the same in small letters. -/
theorem charsD_eq {past : Char} {first stop : Nat} (le : first ≤ stop)
    (inLine : ∀ pos, first ≤ pos → pos < stop → isLineEnd (src₁.charD pos past) = false) :
    (src₂.charsD (place first) (place stop) past).map Char.toLower =
      (src₁.charsD first stop past).map Char.toLower := by
  obtain ⟨count, rfl⟩ : ∃ count, stop = first + count := ⟨stop - first, by omega⟩
  have places (offset : Nat) (le : offset ≤ count) : place (first + offset) = place first + offset :=
    respells.place_add (fun between low high => inLine between low (by omega))
  rw [charsD, charsD, places count (Nat.le_refl _), Nat.add_sub_cancel_left, Nat.add_sub_cancel_left,
    List.range'_eq_map_range, List.range'_eq_map_range, List.map_map, List.map_map, List.map_map,
    List.map_map]
  apply List.map_congr_left
  intro offset mem
  have less := List.mem_range.1 mem
  have last : place first + offset + 1 = place (first + offset + 1) := by
    rw [Nat.add_assoc first, places (offset + 1) less, Nat.add_assoc]
  exact (respells.charD_of_last last past).symm

/-- A text without line ends stands at corresponding places in both texts, or in neither. -/
theorem matches_iff (past : Char) (text : List Char) (inLine : ∀ a ∈ text, isLineEnd a = false)
    (pos : Nat) :
    (∀ k (h : k < text.length), (src₂.charD (place pos + k) past).toLower = text[k]) ↔
      ∀ k (h : k < text.length), (src₁.charD (pos + k) past).toLower = text[k] := by
  induction text generalizing pos with
  | nil => simp
  | cons a rest ih =>
    have split (src : Source) (pos : Nat) :
        (∀ k (h : k < (a :: rest).length), (src.charD (pos + k) past).toLower = (a :: rest)[k]) ↔
          (src.charD pos past).toLower = a ∧
            ∀ k (h : k < rest.length), (src.charD (pos + 1 + k) past).toLower = rest[k] := by
      constructor
      · intro all
        refine ⟨all 0 (Nat.succ_pos _), fun k h => ?_⟩
        rw [Nat.add_assoc, Nat.add_comm 1]
        exact all (k + 1) (Nat.succ_lt_succ h)
      · rintro ⟨first, others⟩ k h
        cases k with
        | zero => exact first
        | succ k =>
          have here := others k (Nat.lt_of_succ_lt_succ h)
          rwa [Nat.add_assoc, Nat.add_comm 1] at here
    have head := (respells.charD_of_first (rfl : place pos = place pos) past).toLower_eq_iff
      (inLine a List.mem_cons_self)
    rw [split, split, head]
    refine and_congr_right fun here => ?_
    have stays : isLineEnd (src₁.charD pos past) = false := by
      rw [blind_isLineEnd _ _ (.inl (toLower_toLower _).symm), here, inLine a List.mem_cons_self]
    rw [← respells.place_succ_of_inLine stays]
    exact ih (fun b mem => inLine b (List.mem_cons_of_mem _ mem)) (pos + 1)

end Respells

end Source

end FortranMarkup
