import FortranMarkup.Text.Case
import FortranMarkup.Text.White

/-!
# Word sets

A `WordSet` holds words without regard to case or to white space around them. It never holds the
empty word, and it holds no word twice.
-/

namespace FortranMarkup

/-- A set of words, each kept in small letters. -/
structure WordSet where
  entries : List String
deriving Repr

namespace WordSet

/-- The set without words. -/
def empty : WordSet := ⟨[]⟩

/-- The form in which a word is kept. -/
def normal (word : String) : String :=
  Case.lower (White.trim word)

/-- Adds a word, unless it is blank or in the set already. -/
def insert (set : WordSet) (word : String) : WordSet :=
  if normal word = "" ∨ normal word ∈ set.entries then set else ⟨set.entries ++ [normal word]⟩

/-- Adds words in turn. -/
def insertMany (set : WordSet) (words : List String) : WordSet :=
  words.foldl insert set

/-- The set of the given words. -/
def ofList (words : List String) : WordSet :=
  empty.insertMany words

/-- The set of the words of a text. -/
def ofText (text : String) : WordSet :=
  ofList (White.words text)

/-- Whether a word is in the set, in any case. -/
def contains (set : WordSet) (word : String) : Bool :=
  set.entries.contains (Case.lower word)

/-- The number of words. -/
def size (set : WordSet) : Nat :=
  set.entries.length

/-- Whether two sets hold the same words. -/
def same (a b : WordSet) : Bool :=
  a.entries.all b.entries.contains && b.entries.all a.entries.contains

end WordSet

end FortranMarkup
