/-!
# White space

The Unicode property `White_Space`, and the cutting of a text at it: `trim` takes it off both ends
and `words` splits at every run of it.
-/

namespace FortranMarkup.White

/-- The characters with the property `White_Space`. -/
def isWhite (c : Char) : Bool :=
  ('\t' ≤ c && c ≤ '\r') || c = ' ' || c = '\u0085' || c = '\u00A0' || c = '\u1680' ||
    ('\u2000' ≤ c && c ≤ '\u200A') || c = '\u2028' || c = '\u2029' || c = '\u202F' ||
    c = '\u205F' || c = '\u3000'

/-- A text without the white space at its two ends. -/
def trim (text : String) : String :=
  String.ofList ((text.toList.dropWhile isWhite).reverse.dropWhile isWhite).reverse

/-- Cuts a list at each white character; `word` holds the letters read so far, last one first. -/
def splitAux : List Char → List Char → List (List Char)
  | [], word => [word.reverse]
  | c :: rest, word =>
    if isWhite c then word.reverse :: splitAux rest [] else splitAux rest (c :: word)

/-- The words of a text: its maximal runs of characters that are not white. -/
def words (text : String) : List String :=
  ((splitAux text.toList []).filter (!·.isEmpty)).map String.ofList

end FortranMarkup.White
