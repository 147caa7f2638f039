/-!
# UTF-8

Text arrives as bytes that may or may not be valid UTF-8. `decodePieces` cuts a byte list into
characters and faults, `decode?` accepts the byte lists without a fault, and `decodeLossy` shows
each fault as the replacement character.

A fault covers the longest start of a character that the bytes spell, and at least one byte: the
bytes after it are read afresh.
-/

namespace FortranMarkup.Utf8

/-- What the first byte of a character announces: how many bytes follow, the range of the second
byte, and the bits that the first byte itself gives. -/
structure Lead where
  following : Nat
  low : UInt8
  high : UInt8
  bits : Nat
deriving Repr, DecidableEq

/-- Reads the first byte of a character that takes more than one byte. The narrowed ranges of the
second byte exclude surrogates, numbers above 0x10FFFF and spellings that are longer than needed. -/
def lead? (b : UInt8) : Option Lead :=
  if 0xC2 ≤ b && b ≤ 0xDF then some ⟨1, 0x80, 0xBF, b.toNat % 0x20⟩
  else if b = 0xE0 then some ⟨2, 0xA0, 0xBF, 0⟩
  else if b = 0xED then some ⟨2, 0x80, 0x9F, 0xD⟩
  else if 0xE1 ≤ b && b ≤ 0xEF then some ⟨2, 0x80, 0xBF, b.toNat % 0x10⟩
  else if b = 0xF0 then some ⟨3, 0x90, 0xBF, 0⟩
  else if 0xF1 ≤ b && b ≤ 0xF3 then some ⟨3, 0x80, 0xBF, b.toNat % 8⟩
  else if b = 0xF4 then some ⟨3, 0x80, 0x8F, 4⟩
  else none

/-- Reads the bytes that follow the first one; `none` is a fault, after which the rest is read
afresh. -/
def readFollowing : Nat → UInt8 → UInt8 → Nat → List UInt8 → Option Char × List UInt8
  | 0, _, _, bits, rest => (some (Char.ofNat bits), rest)
  | _ + 1, _, _, _, [] => (none, [])
  | n + 1, low, high, bits, b :: rest =>
    if low ≤ b && b ≤ high then readFollowing n 0x80 0xBF (bits * 0x40 + b.toNat % 0x40) rest
    else (none, b :: rest)

theorem length_readFollowing_le (n : Nat) (low high : UInt8) (bits : Nat) (rest : List UInt8) :
    (readFollowing n low high bits rest).2.length ≤ rest.length := by
  fun_induction readFollowing n low high bits rest with
  | case1 => simp
  | case2 => simp
  | case3 n low high bits b rest _ ih => simp; omega
  | case4 => simp

/-- Reads one character or one fault from a byte and those after it. -/
def readPiece (b : UInt8) (rest : List UInt8) : Option Char × List UInt8 :=
  if b < 0x80 then (some (Char.ofUInt8 b), rest)
  else
    match lead? b with
    | none => (none, rest)
    | some lead => readFollowing lead.following lead.low lead.high lead.bits rest

theorem length_readPiece_le (b : UInt8) (rest : List UInt8) :
    (readPiece b rest).2.length ≤ rest.length := by
  unfold readPiece
  split
  · simp
  · split
    · simp
    · exact length_readFollowing_le ..

/-- The characters that the bytes spell, with `none` in the place of each fault. -/
def decodePieces : List UInt8 → List (Option Char)
  | [] => []
  | b :: rest => (readPiece b rest).1 :: decodePieces (readPiece b rest).2
termination_by bytes => bytes.length
decreasing_by
  have := length_readPiece_le b rest
  simp; omega

/-- The text that the bytes spell, if they are valid UTF-8. -/
def decode? (bytes : List UInt8) : Option String :=
  ((decodePieces bytes).mapM id).map String.ofList

/-- The text that the bytes spell, with the replacement character for each fault. -/
def decodeLossy (bytes : List UInt8) : String :=
  String.ofList ((decodePieces bytes).map (·.getD '\uFFFD'))

/-- The bytes of a text. -/
def encode (text : String) : List UInt8 :=
  text.toUTF8.data.toList

end FortranMarkup.Utf8
