import FortranMarkup.Proofs.Text.Utf8

/-!
# Text that is written in UTF-8

What is written is read back (`Utf8.decode?_encode`): a character is written as one byte that begins
it and bytes that go on with it, and these are read as the character whatever stands behind them
(`Utf8.exists_encodeChar`). So a text can be cut wherever the next byte does not go on with a
character (`Utf8.exists_append_of_begins`).
-/

namespace FortranMarkup.Utf8

/-! ## Bytes that carry a character -/

/-- The byte that goes on with a character and carries six bits of it. -/
def passedByte (bits : Nat) : UInt8 :=
  .ofNat (bits % 0x40 + 0x80)

theorem toNat_passedByte (bits : Nat) : (passedByte bits).toNat = bits % 0x40 + 0x80 := by
  rw [passedByte, UInt8.toNat_ofNat']
  omega

theorem trails_passedByte (bits : Nat) : Trails (passedByte bits) := by
  rw [Trails, UInt8.le_iff_toNat_le, UInt8.le_iff_toNat_le, toNat_passedByte]
  show 0x80 ≤ _ ∧ _ ≤ 0xBF
  omega

theorem passedByte_le (bits : Nat) : bits % 0x40 + 0x80 ≤ 0xBF :=
  Nat.add_le_add_right (Nat.le_of_lt_succ (Nat.mod_lt _ (by decide))) 0x80

theorem readFollowing_passedByte {n bits new : Nat} {low high : UInt8} {rest : List UInt8}
    (low_le : low.toNat ≤ new % 0x40 + 0x80) (le_high : new % 0x40 + 0x80 ≤ high.toNat) :
    readFollowing (n + 1) low high bits (passedByte new :: rest) =
      readFollowing n 0x80 0xBF (bits * 0x40 + new % 0x40) rest := by
  have within : (low ≤ passedByte new && passedByte new ≤ high) = true := by
    rw [Bool.and_eq_true, decide_eq_true_eq, decide_eq_true_eq, UInt8.le_iff_toNat_le,
      UInt8.le_iff_toNat_le, toNat_passedByte]
    exact ⟨low_le, le_high⟩
  have bits_eq : (new % 0x40 + 0x80) % 0x40 = new % 0x40 := by omega
  rw [readFollowing, if_pos within, toNat_passedByte, bits_eq]

theorem lead?_two (x : Fin 32) (large : 2 ≤ x.val) :
    lead? (UInt8.ofNat (x + 0xC0)) = some ⟨1, 0x80, 0xBF, x⟩ := by
  revert x
  decide

theorem lead?_three (x : Fin 16) :
    lead? (UInt8.ofNat (x + 0xE0)) =
      some ⟨2, if x.val = 0 then 0xA0 else 0x80, if x.val = 13 then 0x9F else 0xBF, x⟩ := by
  revert x
  decide

theorem lead?_four (x : Fin 5) :
    lead? (UInt8.ofNat (x + 0xF0)) =
      some ⟨3, if x.val = 0 then 0x90 else 0x80, if x.val = 4 then 0x8F else 0xBF, x⟩ := by
  revert x
  decide

theorem readPiece_of_lead? {b : UInt8} {rest : List UInt8} {lead : Lead}
    (found : lead? b = some lead) :
    readPiece b rest = readFollowing lead.following lead.low lead.high lead.bits rest := by
  have large : ¬b < 0x80 := by
    have begins := (lead?_spec found).1
    rw [UInt8.lt_iff_toNat_lt] at begins ⊢
    exact fun small => absurd (Nat.lt_trans begins small) (by decide)
  rw [readPiece, if_neg large, found]

theorem readPiece_one {v : Nat} (small : v ≤ 0x7F) (rest : List UInt8) :
    readPiece (.ofNat v) rest = (some (Char.ofNat v), rest) := by
  have byte : (UInt8.ofNat v).toNat = v := by
    rw [UInt8.toNat_ofNat']
    omega
  have ascii : UInt8.ofNat v < 0x80 := by
    rw [UInt8.lt_iff_toNat_lt, byte]
    exact Nat.lt_succ_of_le small
  have same : Char.ofUInt8 (.ofNat v) = Char.ofNat v := by
    rw [← Char.ofNat_toNat (Char.ofUInt8 (.ofNat v))]
    exact congrArg Char.ofNat byte
  rw [readPiece, if_pos ascii, same]

theorem readPiece_two {x y : Nat} (large : 2 ≤ x) (bound : x < 0x20) (rest : List UInt8) :
    readPiece (.ofNat (x + 0xC0)) (passedByte y :: rest) =
      (some (Char.ofNat (x * 0x40 + y % 0x40)), rest) := by
  rw [readPiece_of_lead? (lead?_two ⟨x, bound⟩ large)]
  exact readFollowing_passedByte (Nat.le_add_left _ _) (passedByte_le y)

theorem readPiece_three {x y z : Nat} (bound : x < 0x10) (low : x = 0 → 0x20 ≤ y % 0x40)
    (high : x = 0xD → y % 0x40 < 0x20) (rest : List UInt8) :
    readPiece (.ofNat (x + 0xE0)) (passedByte y :: passedByte z :: rest) =
      (some (Char.ofNat ((x * 0x40 + y % 0x40) * 0x40 + z % 0x40)), rest) := by
  rw [readPiece_of_lead? (lead?_three ⟨x, bound⟩)]
  refine (readFollowing_passedByte ?_ ?_).trans
    (readFollowing_passedByte (Nat.le_add_left _ _) (passedByte_le z))
  · dsimp only
    split
    · exact Nat.add_le_add_right (low ‹_›) 0x80
    · exact Nat.le_add_left _ _
  · dsimp only
    split
    · exact Nat.add_le_add_right (Nat.le_of_lt_succ (high ‹_›)) 0x80
    · exact passedByte_le y

theorem readPiece_four {x y z w : Nat} (bound : x < 5) (low : x = 0 → 0x10 ≤ y % 0x40)
    (high : x = 4 → y % 0x40 < 0x10) (rest : List UInt8) :
    readPiece (.ofNat (x + 0xF0)) (passedByte y :: passedByte z :: passedByte w :: rest) =
      (some (Char.ofNat (((x * 0x40 + y % 0x40) * 0x40 + z % 0x40) * 0x40 + w % 0x40)), rest) := by
  rw [readPiece_of_lead? (lead?_four ⟨x, bound⟩)]
  refine (readFollowing_passedByte ?_ ?_).trans
    ((readFollowing_passedByte (Nat.le_add_left _ _) (passedByte_le z)).trans
      (readFollowing_passedByte (Nat.le_add_left _ _) (passedByte_le w)))
  · dsimp only
    split
    · exact Nat.add_le_add_right (low ‹_›) 0x80
    · exact Nat.le_add_left _ _
  · dsimp only
    split
    · exact Nat.add_le_add_right (Nat.le_of_lt_succ (high ‹_›)) 0x80
    · exact passedByte_le y

/-- A character is written as a byte and bytes that go on with it, and these are read as the
character, whatever follows. -/
theorem exists_encodeChar (c : Char) :
    ∃ b passed, String.utf8EncodeChar c = b :: passed ∧ (∀ x ∈ passed, Trails x) ∧
      ∀ rest, readPiece b (passed ++ rest) = (some c, rest) := by
  have back : Char.ofNat c.val.toNat = c := Char.ofNat_toNat c
  have valid : c.val.toNat < 0xD800 ∨ 0xDFFF < c.val.toNat ∧ c.val.toNat < 0x110000 := c.valid
  rw [String.utf8EncodeChar]
  generalize c.val.toNat = v at back valid
  split
  · rename_i small
    exact ⟨_, [], rfl, by simp, fun rest => back ▸ readPiece_one small rest⟩
  split
  · rename_i large small
    refine ⟨_, [passedByte v], rfl, by simp [trails_passedByte], fun rest => ?_⟩
    refine (readPiece_two (by omega) (by omega) rest).trans ?_
    rw [← back]
    congr 4
    omega
  split
  · rename_i large small
    refine ⟨_, [passedByte (v / 64), passedByte v], rfl, by simp [trails_passedByte],
      fun rest => ?_⟩
    refine (readPiece_three (by omega) (by omega) (by omega) rest).trans ?_
    rw [← back]
    congr 4
    omega
  · refine ⟨_, [passedByte (v / 4096), passedByte (v / 64), passedByte v], rfl,
      by simp [trails_passedByte], fun rest => ?_⟩
    refine (readPiece_four (by omega) (by omega) (by omega) rest).trans ?_
    rw [← back]
    congr 4
    omega

/-! ## Texts -/

theorem encode_eq (text : String) : encode text = text.toList.flatMap String.utf8EncodeChar := by
  conv => lhs; rw [← String.ofList_toList (s := text)]
  rw [encode, String.toUTF8_eq_toByteArray, String.toByteArray_ofList, List.utf8Encode,
    List.data_toByteArray, List.toList_toArray]

theorem encode_append (front back : String) :
    encode (front ++ back) = encode front ++ encode back := by
  rw [encode_eq, encode_eq, encode_eq, String.toList_append, List.flatMap_append]

theorem decodePieces_flatMap (chars : List Char) :
    decodePieces (chars.flatMap String.utf8EncodeChar) = chars.map some := by
  induction chars with
  | nil => rw [List.flatMap_nil, decodePieces, List.map_nil]
  | cons c rest ih =>
    obtain ⟨b, passed, written, -, read⟩ := exists_encodeChar c
    rw [List.flatMap_cons, written, List.cons_append, decodePieces, read, ih, List.map_cons]

theorem mapM_map_some {α : Type} (values : List α) : (values.map some).mapM id = some values := by
  induction values with
  | nil => rfl
  | cons value rest ih => simp [ih]

@[simp] theorem decode?_encode (text : String) : decode? (encode text) = some text := by
  rw [decode?, encode_eq, decodePieces_flatMap, mapM_map_some, Option.map_some,
    String.ofList_toList]

theorem encode_inj {a b : String} (same : encode a = encode b) : a = b := by
  have read := congrArg decode? same
  rw [decode?_encode, decode?_encode] at read
  exact Option.some.inj read

/-- Texts written one after the other are one text. -/
theorem exists_encode_flatMap {α : Type} {write : α → List UInt8} {l : List α}
    (texts : ∀ x ∈ l, ∃ part, write x = encode part) : ∃ whole, l.flatMap write = encode whole := by
  induction l with
  | nil => exact ⟨"", rfl⟩
  | cons x rest ih =>
    obtain ⟨⟨front, here⟩, later⟩ := List.forall_mem_cons.1 texts
    obtain ⟨back, others⟩ := ih later
    exact ⟨front ++ back, by rw [List.flatMap_cons, here, others, encode_append]⟩

/-! ## Cutting a text -/

theorem exists_append_of_begins {chars : List Char} {pos : Nat}
    (begins : ∀ b, (chars.flatMap String.utf8EncodeChar)[pos]? = some b → ¬Trails b) :
    ∃ front back, chars = front ++ back ∧
      front.flatMap String.utf8EncodeChar = (chars.flatMap String.utf8EncodeChar).take pos ∧
      back.flatMap String.utf8EncodeChar = (chars.flatMap String.utf8EncodeChar).drop pos := by
  induction chars generalizing pos with
  | nil => exact ⟨[], [], rfl, by simp, by simp⟩
  | cons c rest ih =>
    obtain ⟨b, passed, written, trails, -⟩ := exists_encodeChar c
    cases pos with
    | zero => exact ⟨[], c :: rest, rfl, by simp, by simp⟩
    | succ pos =>
      rw [List.flatMap_cons, written, List.cons_append, List.getElem?_cons_succ] at begins
      rcases Nat.lt_or_ge pos passed.length with inside | past
      · rw [List.getElem?_append_left inside, List.getElem?_eq_getElem inside] at begins
        exact absurd (trails _ (List.getElem_mem inside)) (begins _ rfl)
      · rw [List.getElem?_append_right past] at begins
        obtain ⟨front, back, rfl, before, after⟩ := ih begins
        refine ⟨c :: front, back, rfl, ?_, ?_⟩
        · rw [List.flatMap_cons, before, List.flatMap_cons, written, List.cons_append,
            List.cons_append, List.take_succ_cons, List.take_append, List.take_of_length_le past]
        · rw [after, List.flatMap_cons, written, List.cons_append, List.drop_succ_cons,
            List.drop_append, List.drop_of_length_le past, List.nil_append]

/-- A written text can be cut where the next byte, if there is one, begins a character. -/
theorem exists_encode_of_begins {text : String} {pos : Nat}
    (begins : ∀ b, (encode text)[pos]? = some b → ¬Trails b) :
    ∃ front back, text = front ++ back ∧ encode front = (encode text).take pos ∧
      encode back = (encode text).drop pos := by
  rw [encode_eq] at begins ⊢
  obtain ⟨front, back, whole, before, after⟩ := exists_append_of_begins begins
  refine ⟨.ofList front, .ofList back, ?_, ?_, ?_⟩
  · rw [← String.ofList_append, ← whole, String.ofList_toList]
  · rw [encode_eq, String.toList_ofList, before]
  · rw [encode_eq, String.toList_ofList, after]

end FortranMarkup.Utf8
