import FortranMarkup.Folding.Pass

/-!
# The words of the fold rules

Only the words of `foldWords` have an effect on levels, as the keyword at hand
(`foldEffect_of_not_mem`) or as the one before it (`foldEffect_of_previous_not_mem`). They are short
and consist of letters, so a word that is read across a line end is none of them.
-/

namespace FortranMarkup

/-- The words that a fold rule names. -/
def foldWords : List String :=
  blockOpeners ++ blockClosers ++
    ["type", "end", "procedure", "if", "is", "endprocedure", "change", "team", "forall", "where",
      "else", "elseif", "elsewhere", "case", "default", "class"]

theorem foldEffect_of_not_mem {word : String} (unknown : word ∉ foldWords) (previous : String)
    (next : Char) (atEnd : Bool) : foldEffect word previous next atEnd = ⟨0, false⟩ := by
  simp only [foldWords, blockOpeners, blockClosers, List.mem_append, List.mem_cons,
    List.not_mem_nil, or_false, not_or] at unknown
  simp [foldEffect, foldChange, isBranch, blockOpeners, blockClosers, unknown]

/-- Words before the one at hand that no rule names are all alike. -/
theorem foldEffect_of_previous_not_mem {previous : String} (unknown : previous ∉ foldWords)
    (word : String) (next : Char) (atEnd : Bool) :
    foldEffect word previous next atEnd = foldEffect word "" next atEnd := by
  simp only [foldWords, blockOpeners, blockClosers, List.mem_append, List.mem_cons,
    List.not_mem_nil, or_false, not_or] at unknown
  simp [foldEffect, foldChange, isBranch, unknown]

/-- Two characters that the rules do not tell apart where they come next. -/
structure AlikeNext (c d : Char) : Prop where
  digit : c.isDigit = d.isDigit
  others : ∀ e ∈ ['(', '=', '!'], c = e ↔ d = e
  lineEnd : isLineEnd c = isLineEnd d

theorem AlikeNext.refl (c : Char) : AlikeNext c c :=
  ⟨rfl, fun _ _ => Iff.rfl, rfl⟩

theorem AlikeNext.foldEffect_eq {c d : Char} (alike : AlikeNext c d) (word previous : String)
    (atEnd : Bool) : foldEffect word previous c atEnd = foldEffect word previous d atEnd := by
  have opening := alike.others '(' (by decide)
  have equals := alike.others '=' (by decide)
  have comment := alike.others '!' (by decide)
  simp only [foldEffect, foldChange, isBranch, alike.digit, opening, equals, comment, ne_eq]

theorem foldWords_letters : ∀ word ∈ foldWords, ∀ c ∈ word.toList, c.isAlpha = true := by
  have all : (foldWords.all fun word => word.toList.all Char.isAlpha) = true := by decide
  intro word known
  exact List.all_eq_true.1 (List.all_eq_true.1 all word known)

theorem foldWords_short : ∀ word ∈ foldWords, word.toList.length < foldWordCapacity := by
  decide

theorem toLower_of_not_isAlpha {c : Char} (noLetter : c.isAlpha = false) : c.toLower = c := by
  have notUpper : c.isUpper = false := (Bool.or_eq_false_iff.1 noLetter).1
  unfold Char.toLower
  rw [dif_neg (of_decide_eq_false notUpper)]

theorem toLower_toLower (c : Char) : c.toLower.toLower = c.toLower := by
  by_cases upper : c.val ≥ 'A'.val ∧ c.val ≤ 'Z'.val
  · have low : 65 ≤ c.val.toNat := UInt32.le_iff_toNat_le.1 upper.1
    have high : c.val.toNat ≤ 90 := UInt32.le_iff_toNat_le.1 upper.2
    have moved : c.toLower.val = c.val + 32 := by
      unfold Char.toLower
      rw [dif_pos upper]
      rfl
    have small : ¬(c.toLower.val ≥ 'A'.val ∧ c.toLower.val ≤ 'Z'.val) := by
      intro again
      have high' : c.toLower.val.toNat ≤ 90 := UInt32.le_iff_toNat_le.1 again.2
      rw [moved, UInt32.toNat_add] at high'
      have step : (32 : UInt32).toNat = 32 := rfl
      omega
    generalize c.toLower = d at *
    unfold Char.toLower
    rw [dif_neg small]
  · unfold Char.toLower
    rw [dif_neg upper, dif_neg upper]

theorem spelling_not_mem_foldWords {chars : List Char} {c : Char} (mem : c ∈ chars)
    (noLetter : c.isAlpha = false) :
    (BoundedWord.ofChars chars : BoundedWord foldWordCapacity).spelling ∉ foldWords := by
  intro known
  have letters := foldWords_letters _ known
  have short := foldWords_short _ known
  simp only [BoundedWord.spelling, BoundedWord.ofChars, String.toList_ofList, List.length_map,
    List.length_take] at letters short
  have all : chars.take foldWordCapacity = chars := List.take_of_length_le (by omega)
  rw [all] at letters
  have letter := letters c.toLower (List.mem_map_of_mem mem)
  rw [toLower_of_not_isAlpha noLetter, noLetter] at letter
  cases letter

theorem isAlpha_of_isLineEnd {c : Char} (ends : isLineEnd c = true) : c.isAlpha = false := by
  simp only [isLineEnd, Bool.or_eq_true, decide_eq_true_eq] at ends
  rcases ends with rfl | rfl <;> rfl

theorem isAlpha_of_isFoldWordChar {c : Char} (outside : isFoldWordChar c = false) :
    c.isAlpha = false := by
  simp only [isFoldWordChar, Char.isAlphanum, Bool.or_eq_false_iff] at outside
  exact outside.1.1.1

/-- A word as far as the rules know it. -/
def knownWord (word : String) : String :=
  if word ∈ foldWords then word else ""

theorem knownWord_of_not_mem {word : String} (unknown : word ∉ foldWords) : knownWord word = "" :=
  if_neg unknown

theorem empty_not_mem_foldWords : "" ∉ foldWords := by
  decide

theorem foldEffect_known (word previous : String) (next : Char) (atEnd : Bool) :
    foldEffect (knownWord word) (knownWord previous) next atEnd =
      foldEffect word previous next atEnd := by
  have before : foldEffect word (knownWord previous) next atEnd =
      foldEffect word previous next atEnd := by
    unfold knownWord
    split
    · rfl
    · rename_i unknown
      rw [foldEffect_of_previous_not_mem unknown]
  rw [← before, knownWord]
  split
  · rfl
  · rename_i unknown
    rw [foldEffect_of_not_mem unknown, foldEffect_of_not_mem empty_not_mem_foldWords]

theorem knownWord_eq_iff {word known : String} (mem : known ∈ foldWords) :
    knownWord word = known ↔ word = known := by
  unfold knownWord
  split
  · rfl
  · rename_i unknown
    constructor
    · rintro rfl
      exact absurd mem empty_not_mem_foldWords
    · rintro rfl
      exact absurd mem unknown

end FortranMarkup
