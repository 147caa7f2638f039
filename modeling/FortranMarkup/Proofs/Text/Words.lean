import FortranMarkup.Text.White

/-!
# The words of a text

A text is white space with words in it, and a word ends where white space follows or the text ends
(`White.Splits`). Each text has one such list of words, and it is the one that `White.words` finds
(`White.words_eq_iff`).
-/

namespace FortranMarkup.White

/-- A text is made of some words, in their order, with white space before, between and after. -/
inductive Splits : List Char → List (List Char) → Prop
  | white {gap : List Char} (white : ∀ c ∈ gap, isWhite c) : Splits gap []
  | word {gap word rest : List Char} {words : List (List Char)} (white : ∀ c ∈ gap, isWhite c)
      (nonempty : word ≠ []) (visible : ∀ c ∈ word, ¬isWhite c)
      (ends : ∀ c ∈ rest.head?, isWhite c) (splits : Splits rest words) :
      Splits (gap ++ (word ++ rest)) (word :: words)

/-- The pieces of a text that are words. -/
def nonempty (pieces : List (List Char)) : List (List Char) :=
  pieces.filter (!·.isEmpty)

theorem nonempty_cons_of_ne {piece : List Char} (ne : piece ≠ []) (pieces : List (List Char)) :
    nonempty (piece :: pieces) = piece :: nonempty pieces := by
  simp [nonempty, ne]

theorem Splits.cons_white {c : Char} (white : isWhite c) {chars : List Char}
    {words : List (List Char)} (splits : Splits chars words) : Splits (c :: chars) words := by
  cases splits with
  | white gap => exact .white (List.forall_mem_cons.2 ⟨white, gap⟩)
  | word gap nonempty visible ends splits =>
    exact .word (List.forall_mem_cons.2 ⟨white, gap⟩) nonempty visible ends splits

/-- A word at the front of a text. -/
theorem Splits.front {word rest : List Char} {words : List (List Char)} (nonempty : word ≠ [])
    (visible : ∀ c ∈ word, ¬isWhite c) (ends : ∀ c ∈ rest.head?, isWhite c)
    (splits : Splits rest words) : Splits (word ++ rest) (word :: words) := by
  rw [← List.nil_append (word ++ rest)]
  exact .word (List.forall_mem_nil _) nonempty visible ends splits

/-- The letters read so far, last one first, and the text after them are made of the words found. -/
theorem splits_splitAux (chars read : List Char) (visible : ∀ c ∈ read, ¬isWhite c) :
    Splits (read.reverse ++ chars) (nonempty (splitAux chars read)) := by
  induction chars generalizing read with
  | nil =>
    rw [splitAux]
    by_cases empty : read = []
    · subst empty
      exact .white (List.forall_mem_nil _)
    · have ne : read.reverse ≠ [] := by simpa using empty
      rw [nonempty_cons_of_ne ne]
      exact .front ne (by simpa using visible) nofun (.white (List.forall_mem_nil _))
  | cons c chars ih =>
    rw [splitAux]
    split
    case isTrue white =>
      have rest : Splits (c :: chars) (nonempty (splitAux chars [])) :=
        (ih [] (List.forall_mem_nil _)).cons_white white
      by_cases empty : read = []
      · subst empty
        exact rest
      · have ne : read.reverse ≠ [] := by simpa using empty
        rw [nonempty_cons_of_ne ne]
        exact .front ne (by simpa using visible) (by simpa using white) rest
    case isFalse shown =>
      have more := ih (c :: read) (List.forall_mem_cons.2 ⟨shown, visible⟩)
      rwa [List.reverse_cons, List.append_assoc] at more

theorem splitAux_white {gap : List Char} (white : ∀ c ∈ gap, isWhite c) (rest : List Char) :
    nonempty (splitAux (gap ++ rest) []) = nonempty (splitAux rest []) := by
  induction gap with
  | nil => rfl
  | cons c gap ih =>
    obtain ⟨first, white⟩ := List.forall_mem_cons.1 white
    rw [List.cons_append, splitAux, if_pos first]
    exact ih white

theorem splitAux_visible {word : List Char} (visible : ∀ c ∈ word, ¬isWhite c)
    (rest read : List Char) :
    splitAux (word ++ rest) read = splitAux rest (word.reverse ++ read) := by
  induction word generalizing read with
  | nil => rfl
  | cons c word ih =>
    obtain ⟨first, visible⟩ := List.forall_mem_cons.1 visible
    rw [List.cons_append, splitAux, if_neg first, ih visible, List.reverse_cons,
      List.append_assoc, List.singleton_append]

theorem Splits.eq_nonempty {chars : List Char} {words : List (List Char)}
    (splits : Splits chars words) : words = nonempty (splitAux chars []) := by
  induction splits with
  | @white gap white =>
    have none := splitAux_white white []
    rw [List.append_nil] at none
    exact none.symm
  | @word gap word rest words white ne visible ends splits ih =>
    rw [splitAux_white white, splitAux_visible visible, List.append_nil]
    cases rest with
    | nil =>
      rw [splitAux, List.reverse_reverse, nonempty_cons_of_ne ne, ih]
      rfl
    | cons c rest =>
      have first : isWhite c := ends c rfl
      rw [splitAux, if_pos first] at ih ⊢
      rw [List.reverse_reverse, nonempty_cons_of_ne ne, ih]
      rfl

theorem words_eq_iff {text : String} {words : List String} :
    White.words text = words ↔ Splits text.toList (words.map String.toList) := by
  have found : (White.words text).map String.toList = nonempty (splitAux text.toList []) := by
    simp [White.words, nonempty, Function.comp_def]
  constructor
  · rintro rfl
    rw [found]
    exact splits_splitAux text.toList [] (List.forall_mem_nil _)
  · intro splits
    have same := found.trans splits.eq_nonempty.symm
    exact (List.map_inj_right fun _ _ => String.toList_inj.1).1 same

end FortranMarkup.White
