import FortranMarkup.Text.Quoted
import FortranMarkup.Text.Utf8

/-!
# Bounded words

A `BoundedWord` is the word that is being scanned, in small letters, as far as its capacity goes. A
longer word is known by its beginning, so it is looked up by its first characters.
-/

namespace FortranMarkup

/-- The first characters of a word, in small letters. -/
structure BoundedWord (capacity : Nat) where
  letters : List Char
deriving Repr, DecidableEq

namespace BoundedWord

variable {capacity : Nat}

/-- The word without characters. -/
def empty : BoundedWord capacity := ⟨[]⟩

/-- Whether there is room for one more character. -/
def hasRoom (word : BoundedWord capacity) : Bool :=
  word.letters.length < capacity

/-- Adds a character if there is room for it. -/
def push (word : BoundedWord capacity) (c : Char) : BoundedWord capacity :=
  if word.hasRoom then ⟨word.letters ++ [c.toLower]⟩ else word

/-- The word that begins with the given characters. -/
def ofChars (chars : List Char) : BoundedWord capacity :=
  ⟨(chars.take capacity).map Char.toLower⟩

/-- The number of characters kept. -/
def length (word : BoundedWord capacity) : Nat :=
  word.letters.length

/-- The word as a string, each byte as the character with its number. -/
def spelling (word : BoundedWord capacity) : String :=
  String.ofList word.letters

/-- The bytes kept. -/
def bytes (word : BoundedWord capacity) : List UInt8 :=
  word.letters.map Char.toUInt8

/-- The text that the bytes spell in UTF-8, and the empty text if they are not valid UTF-8. -/
def text (word : BoundedWord capacity) : String :=
  (Utf8.decode? word.bytes).getD ""

/-- Whether the bytes kept are those of a text. -/
def spells (word : BoundedWord capacity) (text : String) : Bool :=
  word.bytes = Utf8.encode text

/-- How the word is shown to a developer. -/
def display (word : BoundedWord capacity) : String :=
  "WordBuf(" ++ Text.quoted word.text ++ ")"

end BoundedWord

end FortranMarkup
