import FortranMarkup.Proofs.Document.Edit
import FortranMarkup.Proofs.Source.Respelling

/-!
# Case and carriage returns

Two ways to respell a text: with letters in another case (`Source.respells_of_sameLetters`), and with
a carriage return before each line feed (`Source.respells_of_withReturns`). The one keeps every
position. The other moves a position by the number of line feeds before it.
-/

namespace FortranMarkup

namespace Source

/-! ## Letters in another case -/

/-- Bytes that are the same but for the case of letters. -/
def SameLetters (bytes₁ bytes₂ : Array UInt8) : Prop :=
  (bytes₁.map fun byte => (Char.ofUInt8 byte).toLower) =
    bytes₂.map fun byte => (Char.ofUInt8 byte).toLower

instance (bytes₁ bytes₂ : Array UInt8) : Decidable (SameLetters bytes₁ bytes₂) :=
  inferInstanceAs (Decidable (_ = _))

theorem respells_of_sameLetters {src₁ src₂ : Source} (table₁ : src₁.Tabled) (table₂ : src₂.Tabled)
    (same : SameLetters src₁.bytes src₂.bytes) : Respells id src₁ src₂ := by
  have sizes := congrArg Array.size same
  rw [Array.size_map, Array.size_map] at sizes
  refine ⟨table₁, table₂, rfl, sizes, fun pos => .single rfl ?_⟩
  have here := congrArg (·[pos]?) same
  simp only [Array.getElem?_map] at here
  rw [char?, char?, charAt?, charAt?, Option.map_map, Option.map_map]
  exact here

/-! ## Carriage returns -/

/-- The bytes of a line end in place of a line feed, and any other byte. -/
def returned (byte : UInt8) : List UInt8 :=
  if byte = 0x0A then [0x0D, 0x0A] else [byte]

/-- A text with a carriage return put before each line feed. -/
def withReturns (bytes : Array UInt8) : Array UInt8 :=
  (bytes.toList.flatMap returned).toArray

/-- The number of line feeds before a position. -/
def feedsBefore (bytes : Array UInt8) (pos : Nat) : Nat :=
  (bytes.toList.take pos).count 0x0A

theorem length_returned (bytes : List UInt8) :
    (bytes.flatMap returned).length = bytes.length + bytes.count 0x0A := by
  induction bytes with
  | nil => rfl
  | cons byte rest ih =>
    rw [List.flatMap_cons, List.length_append, ih, List.count_cons, List.length_cons, returned]
    by_cases feed : byte = 0x0A
    · simp [feed]
      omega
    · simp [feed]
      omega

theorem size_withReturns (bytes : Array UInt8) :
    (withReturns bytes).size = bytes.size + feedsBefore bytes bytes.size := by
  rw [withReturns, List.size_toArray, length_returned, feedsBefore, ← Array.length_toList,
    List.take_length]

/-- What stands at the place of a position in a text with carriage returns. -/
theorem getElem?_withReturns {bytes : Array UInt8} {pos : Nat} (offset : Nat)
    (inside : pos ≤ bytes.size) :
    (withReturns bytes)[pos + feedsBefore bytes pos + offset]? =
      ((bytes.toList.drop pos).flatMap returned)[offset]? := by
  have length : ((bytes.toList.take pos).flatMap returned).length = pos + feedsBefore bytes pos := by
    rw [length_returned, feedsBefore, List.length_take, Array.length_toList, Nat.min_eq_left inside]
  rw [withReturns, List.getElem?_toArray]
  conv => lhs; rw [← List.take_append_drop pos bytes.toList, List.flatMap_append]
  rw [← length, List.getElem?_append_right (Nat.le_add_right _ _), Nat.add_sub_cancel_left]

theorem feedsBefore_succ {bytes : Array UInt8} {pos : Nat} (inside : pos < bytes.size) :
    feedsBefore bytes (pos + 1) =
      feedsBefore bytes pos + if bytes[pos] = 0x0A then 1 else 0 := by
  unfold feedsBefore
  rw [List.take_add_one, List.count_append, Array.getElem?_toList, Array.getElem?_eq_getElem inside]
  simp [List.count_cons]

theorem feedsBefore_of_le {bytes : Array UInt8} {pos : Nat} (past : bytes.size ≤ pos) :
    feedsBefore bytes pos = feedsBefore bytes bytes.size := by
  have all (later : Nat) (le : bytes.size ≤ later) : bytes.toList.take later = bytes.toList :=
    List.take_of_length_le (Array.length_toList ▸ le)
  rw [feedsBefore, feedsBefore, all pos past, all _ (Nat.le_refl _)]

/-- The byte at a position is at its place, if it is no line feed. -/
theorem getElem?_withReturns_of_ne {bytes : Array UInt8} {pos : Nat} (inside : pos < bytes.size)
    (other : bytes[pos] ≠ 0x0A) :
    (withReturns bytes)[pos + feedsBefore bytes pos]? = some bytes[pos] := by
  have there := getElem?_withReturns 0 (Nat.le_of_lt inside)
  rw [List.drop_eq_getElem_cons inside, List.flatMap_cons, Array.getElem_toList, returned,
    if_neg other] at there
  exact there

theorem charD_ne_return {src : Source} (crFree : CrFree src.bytes) (pos : Nat) :
    src.charD pos ' ' ≠ '\r' := by
  rw [charD, char?, charAt?]
  cases here : src.bytes[pos]? with
  | none => decide
  | some byte =>
    intro same
    exact crFree byte (Array.mem_of_getElem? here)
      (ofUInt8_inj (show _ = Char.ofUInt8 0x0D from same))

section Returns

variable {src₁ src₂ : Source} (crFree : CrFree src₁.bytes)
  (bytes : src₂.bytes = withReturns src₁.bytes)
include crFree bytes

theorem respeltAt_of_inside {pos : Nat} (inside : pos < src₁.bytes.size) :
    RespeltAt (fun pos => pos + feedsBefore src₁.bytes pos) src₁ src₂ pos := by
  have next := feedsBefore_succ inside
  have here : src₁.char? pos = some (Char.ofUInt8 src₁.bytes[pos]) := by
    rw [char?, charAt?, Array.getElem?_eq_getElem inside]
    rfl
  by_cases feed : src₁.bytes[pos] = 0x0A
  · have there (offset : Nat) := getElem?_withReturns offset (Nat.le_of_lt inside)
    rw [List.drop_eq_getElem_cons inside, List.flatMap_cons, Array.getElem_toList, returned,
      if_pos feed, ← bytes] at there
    rw [if_pos feed] at next
    refine .double (by omega) (by rw [here, feed]; rfl) ?_ ?_
      (fun before _ => charD_ne_return crFree before)
    · exact congrArg (Option.map Char.ofUInt8) (there 0)
    · exact congrArg (Option.map Char.ofUInt8) (there 1)
  · have there := getElem?_withReturns_of_ne inside feed
    rw [← bytes] at there
    rw [if_neg feed] at next
    refine .single (by omega) ?_
    rw [here, char?, charAt?, there]
    rfl

theorem respells_of_withReturns (table₁ : src₁.Tabled) (table₂ : src₂.Tabled) :
    Respells (fun pos => pos + feedsBefore src₁.bytes pos) src₁ src₂ where
  table₁ := table₁
  table₂ := table₂
  zero := rfl
  size := by
    change src₁.bytes.size + _ = src₂.bytes.size
    rw [bytes, size_withReturns]
    rfl
  respelt pos := by
    rcases Nat.lt_or_ge pos src₁.bytes.size with inside | past
    · exact respeltAt_of_inside crFree bytes inside
    · have past₂ : src₂.bytes.size ≤ pos + feedsBefore src₁.bytes pos := by
        rw [bytes, size_withReturns, feedsBefore_of_le past]
        exact Nat.add_le_add_right past _
      refine .single ?_ ?_
      · rw [feedsBefore_of_le past, feedsBefore_of_le (Nat.le_succ_of_le past)]
        exact Nat.add_right_comm pos 1 _
      · rw [char?, char?, charAt?, charAt?, Array.getElem?_eq_none past,
          Array.getElem?_eq_none past₂]

end Returns

end Source

end FortranMarkup
