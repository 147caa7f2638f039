import FortranMarkup.Proofs.Source.Lines

/-!
# Spelled text

`Source.Spells` says which characters stand at a position. Text that is put together from pieces is
read piece by piece (`spells_append`), and source made of byte characters spells them
(`spells_ofChars`).
-/

namespace FortranMarkup

theorem ofUInt8_toUInt8 {c : Char} (byte : c.toNat < 256) : Char.ofUInt8 c.toUInt8 = c := by
  apply Char.ext
  apply UInt32.toNat_inj.1
  change c.val.toNat % 256 = c.val.toNat
  exact Nat.mod_eq_of_lt byte

namespace Source

/-- The source of some characters, each of which is one byte. -/
def ofChars (chars : List Char) : Source :=
  .ofBytes (chars.map Char.toUInt8).toArray

/-- Some characters stand at a position, one after the other. -/
def Spells (src : Source) (pos : Nat) : List Char → Prop
  | [] => True
  | c :: rest => src.char? pos = some c ∧ src.Spells (pos + 1) rest

variable {src : Source} {pos : Nat}

theorem spells_append {a b : List Char} :
    src.Spells pos (a ++ b) ↔ src.Spells pos a ∧ src.Spells (pos + a.length) b := by
  induction a generalizing pos with
  | nil => simp [Spells]
  | cons c rest ih =>
    rw [List.cons_append, Spells, Spells, ih, and_assoc, List.length_cons, Nat.add_assoc,
      Nat.add_comm 1]

theorem char?_ofChars (chars : List Char) (bytes : ∀ c ∈ chars, c.toNat < 256) (pos : Nat) :
    (ofChars chars).char? pos = chars[pos]? := by
  simp only [char?, charAt?, ofChars, ofBytes, List.getElem?_toArray, List.getElem?_map,
    Option.map_map]
  cases here : chars[pos]? with
  | none => rfl
  | some c =>
    rw [Option.map_some, Function.comp_apply, ofUInt8_toUInt8 (bytes c (List.mem_of_getElem? here))]

theorem spells_ofChars (chars : List Char) (bytes : ∀ c ∈ chars, c.toNat < 256) :
    (ofChars chars).Spells 0 chars := by
  suffices at_end : ∀ before after, chars = before ++ after →
      (ofChars chars).Spells before.length after from at_end [] chars rfl
  intro before after whole
  induction after generalizing before with
  | nil => trivial
  | cons c rest ih =>
    refine ⟨?_, ?_⟩
    · rw [char?_ofChars chars bytes, whole, List.getElem?_append_right (Nat.le_refl _), Nat.sub_self]
      rfl
    · have further := ih (before ++ [c]) (by rw [whole, List.append_assoc]; rfl)
      rwa [List.length_append] at further

theorem size_ofChars (chars : List Char) : (ofChars chars).size = chars.length := by
  simp [ofChars, ofBytes, size]

/-! ## Reading spelled text -/

variable {c : Char}

theorem charD_of_char? (here : src.char? pos = some c) (past : Char) : src.charD pos past = c := by
  rw [charD, here, Option.getD_some]

theorem char?_of_charD {past : Char} (here : src.charD pos past = c) (inside : c ≠ past) :
    src.char? pos = some c := by
  unfold charD at here
  cases found : src.char? pos with
  | none =>
    rw [found] at here
    exact absurd here.symm inside
  | some d =>
    rw [found] at here
    exact congrArg some here

theorem char?_of_spells {chars : List Char} (spells : src.Spells pos chars) {i : Nat}
    (bound : i < chars.length) : src.char? (pos + i) = some chars[i] := by
  induction chars generalizing pos i with
  | nil => exact absurd bound (Nat.not_lt_zero i)
  | cons d rest ih =>
    cases i with
    | zero => exact spells.1
    | succ i =>
      have later := ih spells.2 (Nat.lt_of_succ_lt_succ bound)
      rwa [Nat.add_assoc, Nat.add_comm 1] at later

theorem charsD_of_spells {chars : List Char} (spells : src.Spells pos chars) (past : Char) :
    src.charsD pos (pos + chars.length) past = chars := by
  rw [charsD, Nat.add_sub_cancel_left]
  induction chars generalizing pos with
  | nil => rfl
  | cons c rest ih =>
    rw [List.length_cons, List.range'_succ, List.map_cons, charD_of_char? spells.1, ih spells.2]

theorem lt_size_of_char? (here : src.char? pos = some c) : pos < src.size := by
  rcases Nat.lt_or_ge pos src.size with less | past
  · exact less
  · rw [char?, charAt?, Array.getElem?_eq_none past] at here
    cases here

theorem endsLineAt_newline (here : src.char? pos = some '\n') : endsLineAt src.bytes pos = true := by
  unfold char? at here
  rw [endsLineAt, here]
  rfl

theorem not_endsLineAt_of_char? (here : src.char? pos = some c) (inLine : isLineEnd c = false) :
    ¬endsLineAt src.bytes pos = true := by
  intro ends
  have lineEnd := isLineEnd_of_endsLineAt ' ' ends
  rw [charD_of_char? here, inLine] at lineEnd
  cases lineEnd

theorem skipWhile_of_spells {inClass : Char → Bool} {skipped : List Char} {stop : Nat}
    (spells : src.Spells pos (skipped ++ [c])) (all : ∀ d ∈ skipped, inClass d = true)
    (other : inClass c = false) (inside : pos + skipped.length < stop) :
    src.skipWhile inClass stop pos = pos + skipped.length := by
  induction skipped generalizing pos with
  | nil =>
    unfold skipWhile
    rw [charD_of_char? spells.1, other, if_pos (by simpa using inside)]
    simp
  | cons d rest ih =>
    rw [List.length_cons] at inside ⊢
    unfold skipWhile
    rw [charD_of_char? spells.1, all d List.mem_cons_self, if_pos (by omega), if_pos rfl,
      ih spells.2 (fun e mem => all e (List.mem_cons_of_mem _ mem)) (by omega)]
    omega

end Source

end FortranMarkup
