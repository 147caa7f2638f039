import FortranMarkup.Document.Basic
import FortranMarkup.Proofs.Source.Lines

/-!
# Documents that fit their source

A document fits when it has a style for every byte and a level for every line (`Document.Fits`).
Reading after writing is stated by position: `styleAt` and `levelAt` on either side of what was
written.
-/

namespace FortranMarkup

theorem getElem?_overwrite {α : Type} (values : Array α) (first : Nat) (news : List α) (pos : Nat) :
    (overwrite values first news)[pos]? =
      if first ≤ pos ∧ pos < first + news.length ∧ pos < values.size then news[pos - first]?
      else values[pos]? := by
  induction news generalizing values first with
  | nil =>
    have none : ¬(first ≤ pos ∧ pos < first + ([] : List α).length ∧ pos < values.size) := by
      simp only [List.length_nil]
      omega
    rw [if_neg none, overwrite]
  | cons value rest ih =>
    rw [overwrite, ih, Array.size_setIfInBounds, Array.getElem?_setIfInBounds]
    by_cases inside : pos < values.size
    · rcases Nat.lt_trichotomy pos first with less | rfl | more
      · rw [if_neg (by omega), if_neg (by omega), if_neg (by omega)]
      · rw [if_neg (by omega), if_pos rfl, if_pos inside, if_pos (by simp [inside]), Nat.sub_self]
        rfl
      · obtain ⟨k, rfl⟩ : ∃ k, pos = first + 1 + k := ⟨pos - (first + 1), by omega⟩
        have offset : first + 1 + k - first = k + 1 := by omega
        rw [if_neg (show ¬first = first + 1 + k by omega), offset, List.getElem?_cons_succ,
          Nat.add_sub_cancel_left, List.length_cons]
        by_cases reached : k < rest.length
        · rw [if_pos (by omega), if_pos (by omega)]
        · rw [if_neg (by omega), if_neg (by omega)]
    · have past : values[pos]? = none := Array.getElem?_eq_none (Nat.le_of_not_lt inside)
      rw [if_neg (fun within => inside within.2.2),
        if_neg (c := first ≤ pos ∧ pos < first + (value :: rest).length ∧ pos < values.size)
          (fun within => inside within.2.2), past]
      split
      · rw [if_neg (by omega)]
      · rfl

theorem toList_overwrite {α : Type} (values : Array α) (news : List α)
    (fits : news.length ≤ values.size) :
    (overwrite values 0 news).toList = news ++ values.toList.drop news.length := by
  apply List.ext_getElem?
  intro pos
  rw [Array.getElem?_toList, getElem?_overwrite, Nat.zero_add, Nat.sub_zero]
  split
  · rename_i inside
    rw [List.getElem?_append_left inside.2.1]
  · rename_i outside
    have past : news.length ≤ pos := by omega
    rw [List.getElem?_append_right past, List.getElem?_drop, Nat.add_sub_cancel' past,
      Array.getElem?_toList]

/-- Writing what is read changes nothing. -/
theorem setIfInBounds_of_getD {α : Type} {values : Array α} {index : Nat} {value fallback : α}
    (same : values[index]?.getD fallback = value) : values.setIfInBounds index value = values := by
  apply Array.ext_getElem?
  intro i
  rw [Array.getElem?_setIfInBounds]
  split
  · rename_i here
    subst here
    split
    · rename_i inside
      rw [Array.getElem?_eq_getElem inside] at same ⊢
      exact congrArg some same.symm
    · rename_i outside
      exact (Array.getElem?_eq_none (Nat.le_of_not_lt outside)).symm
  · rfl

namespace Document

/-- A document has a style for every byte and a level for every line. -/
structure Fits (doc : Document) : Prop where
  table : doc.source.Tabled
  styles : doc.styles.size = doc.size
  levels : doc.levels.size = doc.source.lines

theorem fits_ofBytes (bytes : Array UInt8) : (ofBytes bytes).Fits where
  table := rfl
  styles := Array.size_replicate
  levels := Array.size_replicate

theorem fits_setStyledTo {doc : Document} (fits : doc.Fits) (pos : Nat) :
    (doc.setStyledTo pos).Fits :=
  ⟨fits.table, fits.styles, fits.levels⟩

theorem styleAt_of_le {doc : Document} (fits : doc.Fits) {pos : Nat} (past : doc.size ≤ pos) :
    doc.styleAt pos = .plain := by
  rw [styleAt, Array.getElem?_eq_none (fits.styles ▸ past)]
  rfl

theorem getElem?_levels {doc : Document} {line : Nat} (inside : line < doc.levels.size) :
    doc.levels[line]? = some (doc.levelAt line) := by
  rw [levelAt, Array.getElem?_eq_getElem inside]
  rfl

theorem levels_ext {doc₁ doc₂ : Document} (sizes : doc₂.levels.size = doc₁.levels.size)
    (same : ∀ line, line < doc₁.levels.size → doc₂.levelAt line = doc₁.levelAt line) :
    doc₂.levels = doc₁.levels := by
  apply Array.ext sizes
  intro line inside₂ inside₁
  have here := same line inside₁
  rwa [levelAt, levelAt, Array.getElem?_eq_getElem inside₁, Array.getElem?_eq_getElem inside₂] at here

theorem styles_ext {doc₁ doc₂ : Document} (sizes : doc₂.styles.size = doc₁.styles.size)
    (same : ∀ pos, doc₂.styleAt pos = doc₁.styleAt pos) : doc₂.styles = doc₁.styles := by
  apply Array.ext sizes
  intro pos inside₂ inside₁
  have here := same pos
  rwa [styleAt, styleAt, Array.getElem?_eq_getElem inside₁, Array.getElem?_eq_getElem inside₂] at here

theorem stylesIn_eq_map {doc : Document} (fits : doc.Fits) {first stop : Nat}
    (inside : stop ≤ doc.size) :
    doc.stylesIn first stop = (List.range' first (stop - first)).map doc.styleAt := by
  have sizes : doc.styles.size = doc.size := fits.styles
  apply List.ext_getElem
  · simp only [stylesIn, Array.length_toList, Array.size_extract, List.length_map,
      List.length_range']
    omega
  · intro i bound _
    have within : first + i < doc.styles.size := by
      simp only [stylesIn, Array.length_toList, Array.size_extract] at bound
      omega
    simp [stylesIn, styleAt, within]

end Document

end FortranMarkup
