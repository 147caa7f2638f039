import FortranMarkup.Keyword.Builtin
import FortranMarkup.Keyword.WordSet
import FortranMarkup.Style.Basic

/-!
# Dictionaries

A `Dictionary` says which words are styled as listed words. The first of its three sets that holds a
word decides.
-/

namespace FortranMarkup

/-- The sets of words that are looked up where a word ends. -/
structure Dictionary where
  primary : WordSet := .empty
  intrinsic : WordSet := .empty
  extended : WordSet := .empty
deriving Repr

namespace Dictionary

/-- The words of the language itself. -/
def fortran : Dictionary where
  primary := ⟨Builtin.keywords⟩
  intrinsic := ⟨Builtin.intrinsics⟩

/-- The style of the first set that holds a word. -/
def classify (words : Dictionary) (word : String) : Option Style :=
  if words.primary.contains word then some .keyword
  else if words.intrinsic.contains word then some .intrinsic
  else if words.extended.contains word then some .extended
  else none

end Dictionary

end FortranMarkup
