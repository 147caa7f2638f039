import FortranMarkup.Document.Edit
import FortranMarkup.Proofs.Document.Basic

/-!
# What edits keep

An edit keeps the bytes and the styles before the position where it begins, and takes back what is
current to there (`Document.EditedFrom`). In texts without carriage returns, the line starts up to
that position are the same before and after it (`Source.agreeTo_of_crFree`).
-/

namespace FortranMarkup

/-- No byte is a carriage return. -/
def CrFree (bytes : Array UInt8) : Prop :=
  ∀ byte ∈ bytes, byte ≠ 0x0D

theorem all_iff_crFree (bytes : Array UInt8) :
    bytes.toList.all (· ≠ 0x0D) = true ↔ CrFree bytes := by
  simp only [CrFree, List.all_eq_true, Array.mem_toList_iff, decide_eq_true_eq]

instance (bytes : Array UInt8) : Decidable (CrFree bytes) :=
  decidable_of_iff (bytes.toList.all (· ≠ 0x0D) = true) (all_iff_crFree bytes)

theorem CrFree.charAt?_ne {bytes : Array UInt8} (crFree : CrFree bytes) (pos : Nat) :
    charAt? bytes pos ≠ some '\r' := by
  intro isReturn
  obtain ⟨byte, found, same⟩ := Option.map_eq_some_iff.1 isReturn
  have code : byte.toNat = 0x0D := congrArg Char.toNat same
  exact crFree byte (Array.mem_of_getElem? found) (UInt8.toNat_inj.1 code)

theorem CrFree.endsLineAt_iff {bytes : Array UInt8} (crFree : CrFree bytes) (pos : Nat) :
    endsLineAt bytes pos = true ↔ charAt? bytes pos = some '\n' := by
  simp [endsLineAt, crFree.charAt?_ne pos]

theorem CrFree.append {a b : Array UInt8} (left : CrFree a) (right : CrFree b) :
    CrFree (a ++ b) := by
  intro byte mem
  rcases Array.mem_append.1 mem with inLeft | inRight
  · exact left byte inLeft
  · exact right byte inRight

theorem CrFree.extract {bytes : Array UInt8} (crFree : CrFree bytes) (first stop : Nat) :
    CrFree (bytes.extract first stop) := by
  intro byte mem
  obtain ⟨i, bound, rfl⟩ := Array.mem_iff_getElem.1 mem
  rw [Array.getElem_extract]
  exact crFree _ (Array.getElem_mem _)

theorem Source.agreeTo_of_crFree {src₁ src₂ : Source} (crFree₁ : CrFree src₁.bytes)
    (crFree₂ : CrFree src₂.bytes) {pos limit : Nat}
    (same : ∀ i, i < pos → src₁.bytes[i]? = src₂.bytes[i]?) (le : limit ≤ pos)
    (starts : src₂.StartsLine limit) : src₁.AgreeTo limit src₂ where
  char := fun i less => congrArg (Option.map Char.ofUInt8) (same i (Nat.lt_of_lt_of_le less le))
  starts₁ := by
    cases limit with
    | zero => exact .inl rfl
    | succ limit =>
      rw [startsLine_succ, crFree₂.endsLineAt_iff] at starts
      rw [startsLine_succ, crFree₁.endsLineAt_iff, ← starts]
      exact congrArg (Option.map Char.ofUInt8) (same limit le)
  starts₂ := starts

namespace Document

/-- The second document comes from the first by an edit that begins at a position. -/
structure EditedFrom (pos : Nat) (doc edited : Document) : Prop where
  fits : edited.Fits
  within : pos ≤ edited.size
  bytes : ∀ i, i < pos → doc.source.bytes[i]? = edited.source.bytes[i]?
  styles : ∀ i, i < pos → doc.styleAt i = edited.styleAt i
  styledTo : edited.styledTo = min doc.styledTo pos

theorem size_realignLevels (levels : Array FoldLevel) (line oldLines newLines : Nat) :
    (realignLevels levels line oldLines newLines).size = newLines := by
  unfold realignLevels
  dsimp only
  rw [Array.size_append, Array.size_extract, Array.size_replicate]
  omega

theorem editedFrom_withText {doc : Document} {bytes : Array UInt8} {styles : Array Style}
    {line pos : Nat} (sizes : styles.size = bytes.size) (within : pos ≤ bytes.size)
    (same : ∀ i, i < pos → doc.source.bytes[i]? = bytes[i]?)
    (kept : ∀ i, i < pos → doc.styles[i]? = styles[i]?) :
    EditedFrom pos doc (doc.withText bytes styles line pos) where
  fits := ⟨rfl, sizes, size_realignLevels _ _ _ _⟩
  within := within
  bytes := same
  styles := fun i less => congrArg (fun style : Option Style => style.getD .plain) (kept i less)
  styledTo := rfl

theorem getElem?_of_extract {α : Type} (values news : Array α) {pos i : Nat}
    (within : pos ≤ values.size) (less : i < pos) :
    (values.extract 0 pos ++ news)[i]? = values[i]? := by
  rw [Array.getElem?_append_left (by rw [Array.size_extract]; omega), Array.getElem?_extract]
  rw [if_pos (by omega), Nat.zero_add]

theorem editedFrom_insert {doc : Document} (fits : doc.Fits) (pos : Nat) (bytes : Array UInt8) :
    EditedFrom (min pos doc.size) doc (doc.insert pos bytes) := by
  have sizes : doc.styles.size = doc.source.bytes.size := fits.styles
  have within : min pos doc.size ≤ doc.source.bytes.size := Nat.min_le_right _ _
  refine editedFrom_withText ?_ ?_ ?_ ?_
  · simp only [Array.size_append, Array.size_extract, Array.size_replicate, sizes]
    rfl
  · simp only [Array.size_append, Array.size_extract]
    omega
  · intro i less
    rw [Array.append_assoc, getElem?_of_extract _ _ within less]
  · intro i less
    rw [Array.append_assoc, getElem?_of_extract _ _ (sizes ▸ within) less]

theorem delete_eq_or_editedFrom {doc : Document} (fits : doc.Fits) (first stop : Nat) :
    doc.delete first stop = doc ∨ ∃ pos, EditedFrom pos doc (doc.delete first stop) := by
  have sizes : doc.styles.size = doc.source.bytes.size := fits.styles
  unfold delete
  dsimp only
  split
  · exact .inl rfl
  · refine .inr ⟨min first (min stop doc.size), ?_⟩
    have within : min first (min stop doc.size) ≤ doc.source.bytes.size :=
      Nat.le_trans (Nat.min_le_right _ _) (Nat.min_le_right _ _)
    refine editedFrom_withText ?_ ?_ ?_ ?_
    · simp only [Array.size_append, Array.size_extract, sizes]
      rfl
    · simp only [Array.size_append, Array.size_extract]
      omega
    · intro i less
      rw [getElem?_of_extract _ _ within less]
    · intro i less
      rw [getElem?_of_extract _ _ (sizes ▸ within) less]

theorem crFree_insert {doc : Document} (crFree : CrFree doc.source.bytes) (pos : Nat)
    {bytes : Array UInt8} (added : CrFree bytes) : CrFree (doc.insert pos bytes).source.bytes :=
  ((crFree.extract _ _).append added).append (crFree.extract _ _)

theorem crFree_delete {doc : Document} (crFree : CrFree doc.source.bytes) (first stop : Nat) :
    CrFree (doc.delete first stop).source.bytes := by
  unfold delete
  dsimp only
  split
  · exact crFree
  · exact (crFree.extract _ _).append (crFree.extract _ _)

end Document

end FortranMarkup
