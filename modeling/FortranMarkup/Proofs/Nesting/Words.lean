import FortranMarkup.Proofs.Tokens.Levels

/-!
# Keywords and names

A keyword is written in any case, and a name is a word that is no keyword in any case. A fold pass
takes the one for the word that it spells (`Spelled.read?`) and passes over the other (`Name.read?`).
-/

namespace FortranMarkup

/-- A way to write a word, in any case. -/
structure Spelled (word : String) where
  letters : List Char
  spelled : Case.lower (String.ofList letters) = word

/-- The name of something: a word of letters, digits and underscores that is not listed. -/
structure Name where
  letters : List Char
  proper : (Token.word letters).Proper
  unlisted : Case.lower (String.ofList letters) ∉ Builtin.keywords

/-- A number without a sign. -/
structure Number where
  letters : List Char
  proper : (Token.digits letters).Proper

def Spelled.token {word : String} (s : Spelled word) : Token :=
  .word s.letters

def Name.token (name : Name) : Token :=
  .word name.letters

def Number.token (number : Number) : Token :=
  .digits number.letters

/-! ## The keywords of the language -/

theorem foldWords_listed : ∀ word ∈ foldWords, word ∈ Builtin.keywords := by
  decide +kernel

theorem keywords_short : ∀ word ∈ Builtin.keywords, word.toList.length < identifierCapacity := by
  decide +kernel

theorem toList_lower (letters : List Char) :
    (Case.lower (String.ofList letters)).toList = letters.map Char.toLower := by
  rw [Case.lower, String.toList_ofList, String.toList_ofList]

theorem lower_lower (letters : List Char) :
    Case.lower (String.ofList (letters.map Char.toLower)) = Case.lower (String.ofList letters) := by
  have same : Char.toLower ∘ Char.toLower = Char.toLower := funext toLower_toLower
  rw [Case.lower, Case.lower, String.toList_ofList, String.toList_ofList, List.map_map, same]

/-- A long word is no keyword, and neither is its beginning. -/
theorem lower_take_listed (letters : List Char) :
    Case.lower (String.ofList (letters.take identifierCapacity)) ∈ Builtin.keywords ↔
      Case.lower (String.ofList letters) ∈ Builtin.keywords := by
  have length (word : List Char) (listed : Case.lower (String.ofList word) ∈ Builtin.keywords) :
      word.length < identifierCapacity := by
    have short := keywords_short _ listed
    rwa [toList_lower, List.length_map] at short
  constructor
  · intro listed
    have short := length _ listed
    rw [List.length_take] at short
    rwa [List.take_of_length_le (by omega)] at listed
  · intro listed
    rwa [List.take_of_length_le (Nat.le_of_lt (length _ listed))]

theorem style_word_eq_keyword_iff (letters : List Char) :
    (Token.word letters).style .fortran = .keyword ↔
      Case.lower (String.ofList letters) ∈ Builtin.keywords := by
  let spelling := (BoundedWord.ofChars letters : BoundedWord identifierCapacity).spelling
  have listed : Dictionary.fortran.primary.contains spelling = true ↔
      Case.lower (String.ofList letters) ∈ Builtin.keywords := by
    have same : Case.lower spelling =
        Case.lower (String.ofList (letters.take identifierCapacity)) := lower_lower _
    rw [← lower_take_listed, ← same]
    exact List.contains_iff_mem
  rw [← listed]
  unfold Token.style Dictionary.classify
  dsimp only
  by_cases primary : Dictionary.fortran.primary.contains spelling = true
  · rw [if_pos primary]
    exact ⟨fun _ => primary, fun _ => rfl⟩
  · rw [if_neg primary]
    constructor
    · intro style
      split at style
      · cases style
      · split at style
        · cases style
        · cases style
    · intro absurd
      exact (primary absurd).elim

/-! ## What a pass reads -/

namespace Spelled

variable {word : String}

theorem map_letters (s : Spelled word) : s.letters.map Char.toLower = word.toList := by
  rw [← toList_lower, s.spelled]

theorem proper (s : Spelled word) (known : word ∈ foldWords) : s.token.Proper := by
  have letters : ∀ c ∈ s.letters, c.isAlpha = true := by
    intro c mem
    have small := foldWords_letters word known c.toLower
      (s.map_letters ▸ List.mem_map_of_mem mem)
    cases letter : c.isAlpha with
    | true => rfl
    | false => rw [toLower_of_not_isAlpha letter, letter] at small; cases small
  unfold token
  cases shape : s.letters with
  | nil =>
    have empty := s.map_letters
    rw [shape] at empty
    have none : word = "" := by rw [← String.ofList_toList (s := word), ← empty]; rfl
    exact absurd (none ▸ known) empty_not_mem_foldWords
  | cons first rest =>
    rw [shape] at letters
    refine ⟨first, rest, rfl, letters first List.mem_cons_self, ?_⟩
    intro c mem
    exact isNameChar_of_isAlpha (letters c (List.mem_cons_of_mem _ mem))

theorem style (s : Spelled word) (known : word ∈ foldWords) :
    (Token.word s.letters).style .fortran = .keyword := by
  rw [style_word_eq_keyword_iff, s.spelled]
  exact foldWords_listed word known

theorem foldWord_letters (s : Spelled word) (known : word ∈ foldWords) :
    foldWord s.letters = word := by
  have length : s.letters.length < foldWordCapacity := by
    have short := foldWords_short word known
    rwa [← s.map_letters, List.length_map] at short
  rw [foldWord, BoundedWord.spelling, BoundedWord.ofChars, List.take_of_length_le (Nat.le_of_lt length),
    s.map_letters, String.ofList_toList]

end Spelled

section Reading

variable {r : Reading} {rest : List Token}

theorem Spelled.read? {word : String} (s : Spelled word) (known : word ∈ foldWords)
    (effect : FoldEffect) (told : Token.effect? word r.previous rest = some effect) :
    Token.read? .fortran r (s.token :: rest) = Token.read? .fortran (r.take word effect) rest := by
  unfold Spelled.token
  rw [Token.read?, if_pos (s.style known)]
  dsimp only [Token.chars]
  rw [s.foldWord_letters known, told, Option.bind_some]

theorem Name.read? (name : Name) :
    Token.read? .fortran r (name.token :: rest) = Token.read? .fortran (r.shown true) rest := by
  have style : (Token.word name.letters).style .fortran ≠ .keyword :=
    fun keyword => name.unlisted ((style_word_eq_keyword_iff _).1 keyword)
  unfold Name.token
  rw [Token.read?, if_neg style, decide_eq_true (by simp)]

namespace Token

theorem read?_blank (words : Dictionary) : read? words r (.blank :: rest) = read? words r rest := by
  have same : r.shown false = r := by rw [Reading.shown, Bool.or_false]
  have other : Token.blank.style words ≠ .keyword := by
    change Style.plain ≠ .keyword
    decide
  rw [read?, if_neg other, decide_eq_false (fun other => other rfl), same]

theorem read?_mark (words : Dictionary) (c : Char) :
    read? words r (.mark c :: rest) = read? words (r.shown true) rest := rfl

theorem read?_digits (words : Dictionary) (letters : List Char) :
    read? words r (.digits letters :: rest) = read? words (r.shown true) rest := rfl

end Token

end Reading

end FortranMarkup
