import FortranMarkup.Text.Utf8

/-!
# Where characters begin in UTF-8

A byte goes on with a character (`Utf8.Trails`) or begins one. In a text without a fault the first
byte begins one, and so does each byte after a character of one byte
(`Utf8.not_trails_of_decode?`).
-/

namespace FortranMarkup.Utf8

/-- A byte goes on with a character that begins before it. -/
def Trails (b : UInt8) : Prop :=
  0x80 ≤ b ∧ b ≤ 0xBF

theorem lead?_spec {b : UInt8} {lead : Lead} (found : lead? b = some lead) :
    0xBF < b ∧ 0x80 ≤ lead.low ∧ lead.high ≤ 0xBF := by
  unfold lead? at found
  grind

theorem readFollowing_spec {n : Nat} {low high : UInt8} {bits : Nat} {rest left : List UInt8} {c : Char}
    (read : readFollowing n low high bits rest = (some c, left)) (low_le : 0x80 ≤ low)
    (le_high : high ≤ 0xBF) : ∃ passed, rest = passed ++ left ∧ ∀ b ∈ passed, Trails b := by
  fun_induction readFollowing n low high bits rest with
  | case1 low high bits rest =>
    obtain ⟨-, rfl⟩ := Prod.mk.inj read
    exact ⟨[], rfl, by simp⟩
  | case2 => cases read
  | case3 n low high bits b rest within ih =>
    rw [Bool.and_eq_true, decide_eq_true_eq, decide_eq_true_eq] at within
    obtain ⟨passed, rfl, trails⟩ := ih read (UInt8.le_refl _) (UInt8.le_refl _)
    refine ⟨b :: passed, rfl, List.forall_mem_cons.2 ⟨?_, trails⟩⟩
    exact ⟨UInt8.le_trans low_le within.1, UInt8.le_trans within.2 le_high⟩
  | case4 => cases read

/-- A character is one byte that begins it and the bytes that go on with it. -/
theorem readPiece_spec {b : UInt8} {rest left : List UInt8} {c : Char}
    (read : readPiece b rest = (some c, left)) :
    ¬Trails b ∧ ∃ passed, rest = passed ++ left ∧ (∀ x ∈ passed, Trails x) ∧
      (b < 0x80 → passed = []) := by
  unfold readPiece at read
  split at read
  · rename_i ascii
    obtain ⟨-, rfl⟩ := Prod.mk.inj read
    exact ⟨fun trails => UInt8.not_le.2 ascii trails.1, [], rfl, by simp⟩
  · rename_i large
    split at read
    · cases read
    · rename_i lead found
      obtain ⟨begins, low_le, le_high⟩ := lead?_spec found
      obtain ⟨passed, split, trails⟩ := readFollowing_spec read low_le le_high
      exact ⟨fun trails => UInt8.not_le.2 begins trails.2, passed, split, trails,
        fun ascii => absurd ascii large⟩

theorem not_trails_of_decodePieces {bytes : List UInt8} (whole : none ∉ decodePieces bytes) {i : Nat}
    {b : UInt8} (here : bytes[i]? = some b)
    (start : i = 0 ∨ ∃ a, bytes[i - 1]? = some a ∧ a < 0x80) : ¬Trails b := by
  fun_induction decodePieces bytes generalizing i with
  | case1 => cases here
  | case2 first rest ih =>
    obtain ⟨some, whole⟩ := not_or.1 (mt List.mem_cons.2 whole)
    obtain ⟨c, read⟩ := Option.ne_none_iff_exists'.1 (Ne.symm some)
    obtain ⟨begins, passed, split, trails, alone⟩ := readPiece_spec (Prod.ext read rfl)
    cases i with
    | zero =>
      obtain rfl := Option.some.inj here
      exact begins
    | succ i =>
      obtain ⟨a, before, ascii⟩ := start.resolve_left (Nat.succ_ne_zero i)
      rw [List.getElem?_cons_succ] at here
      -- The bytes that a character passes over trail, so a small byte is its only one or stands after it.
      have reached : passed.length ≤ i := by
        apply Nat.le_of_not_lt
        intro inside
        cases i with
        | zero =>
          obtain rfl := Option.some.inj before
          rw [alone ascii] at inside
          exact Nat.not_lt_zero _ inside
        | succ i =>
          have inside' : i < passed.length := Nat.lt_of_succ_lt inside
          rw [Nat.succ_sub_one, List.getElem?_cons_succ, split, List.getElem?_append_left inside',
            List.getElem?_eq_getElem inside', Option.some.injEq] at before
          exact UInt8.not_le.2 ascii (before ▸ (trails _ (List.getElem_mem inside')).1)
      rw [split, List.getElem?_append_right reached] at here
      refine ih whole here ?_
      rcases Nat.eq_or_lt_of_le reached with only | more
      · exact .inl (by omega)
      · refine .inr ⟨a, ?_, ascii⟩
        obtain ⟨j, rfl⟩ : ∃ j, i = j + 1 := ⟨i - 1, by omega⟩
        rw [Nat.succ_sub_one, List.getElem?_cons_succ, split,
          List.getElem?_append_right (Nat.le_of_lt_succ more)] at before
        rw [← before]
        congr 1
        omega

theorem not_mem_of_mapM {α : Type} {found : List (Option α)} {values : List α}
    (all : found.mapM id = some values) : none ∉ found := by
  induction found generalizing values with
  | nil => exact List.not_mem_nil
  | cons first rest ih =>
    rw [List.mapM_cons] at all
    obtain ⟨value, here, others⟩ := Option.bind_eq_some_iff.1 all
    obtain ⟨values, later, -⟩ := Option.bind_eq_some_iff.1 others
    rintro (_ | ⟨_, fault⟩)
    · cases here
    · exact ih later fault

/-- In valid text, the first byte begins a character, and so does each byte after a small one. -/
theorem not_trails_of_decode? {bytes : List UInt8} (valid : decode? bytes ≠ none) {i : Nat} {b : UInt8}
    (here : bytes[i]? = some b) (start : i = 0 ∨ ∃ a, bytes[i - 1]? = some a ∧ a < 0x80) :
    ¬Trails b := by
  obtain ⟨text, decoded⟩ := Option.ne_none_iff_exists'.1 valid
  obtain ⟨chars, pieces, -⟩ := Option.map_eq_some_iff.1 decoded
  exact not_trails_of_decodePieces (not_mem_of_mapM pieces) here start

end FortranMarkup.Utf8
