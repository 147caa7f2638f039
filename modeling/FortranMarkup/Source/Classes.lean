/-!
# Character classes of source bytes

A source byte is read as the character with the same number, so the classes are predicates on
characters. All of them hold of ASCII characters only: a byte of 0x80 or more stands for itself and
is never part of a word.
-/

namespace FortranMarkup

/-- A letter, a digit, an underscore or a percent sign. -/
def isWordChar (c : Char) : Bool :=
  c.isAlphanum || c = '_' || c = '%'

/-- A letter or a digit, with which a word can begin. -/
def isWordStart (c : Char) : Bool :=
  c.isAlphanum

/-- A space, a tab or a vertical tab. -/
def isBlank (c : Char) : Bool :=
  c = ' ' || c = '\t' || c = '\x0b'

/-- A line feed or a carriage return. -/
def isLineEnd (c : Char) : Bool :=
  c = '\n' || c = '\r'

/-- A space or one of the control characters from the tab to the carriage return. -/
def isSpace (c : Char) : Bool :=
  c = ' ' || ('\t' ≤ c && c ≤ '\r')

/-- A space or a tab. -/
def isSpaceOrTab (c : Char) : Bool :=
  c = ' ' || c = '\t'

/-- Punctuation that is an operator by itself. -/
def isOperator (c : Char) : Bool :=
  ['%', '^', '&', '*', '(', ')', '-', '+', '=', '|', '\x7b', '\x7d', '[', ']', ':', ';', '<', '>',
    ',', '/', '?', '!', '.', '~'].contains c

/-- A character of a word as folding delimits words: a letter, a digit, a full stop or an
underscore. -/
def isFoldWordChar (c : Char) : Bool :=
  c.isAlphanum || c = '.' || c = '_'

end FortranMarkup
