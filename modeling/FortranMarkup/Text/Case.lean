/-!
# Letter case

Names of source forms, file extensions and words are compared without regard to case.
-/

namespace FortranMarkup.Case

/-- A text with its ASCII capitals made small. -/
def lower (text : String) : String :=
  String.ofList (text.toList.map Char.toLower)

/-- The small form of a letter as far as it is an ASCII letter: beside the ASCII capitals, the
Kelvin sign is the one character whose small form is a single ASCII letter. -/
def smallLetter (c : Char) : Char :=
  if c = '\u212A' then 'k' else c.toLower

/-- A text with every letter that has a small ASCII form made small. Two texts agree after full
Unicode lowering with an ASCII text exactly if they do after this one. -/
def small (text : String) : String :=
  String.ofList (text.toList.map smallLetter)

end FortranMarkup.Case
