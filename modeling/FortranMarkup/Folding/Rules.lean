/-!
# Fold rules

How the keywords of a statement change the nesting of the lines after it. The rules look at a
keyword, at the keyword before it on the same line, and at the next byte that is not blank. They
know pairs of words and no grammar: what no rule describes changes nothing.
-/

namespace FortranMarkup

/-- The keywords that open a block. -/
def blockOpeners : List String :=
  ["associate", "block", "blockdata", "select", "selecttype", "selectcase", "do", "enum",
    "function", "interface", "module", "program", "subroutine", "then", "critical", "submodule"]

/-- The keywords that close a block. -/
def blockClosers : List String :=
  ["endassociate", "endblock", "endblockdata", "endselect", "enddo", "endenum", "endif",
    "endforall", "endfunction", "endinterface", "endmodule", "endprogram", "endsubroutine",
    "endtype", "endwhere", "endcritical", "endsubmodule", "endteam"]

/-- By how many blocks a keyword takes the lines after it further in, given the keyword before it
and the next byte. Procedures of a submodule do not fold, so the end of a `procedure` takes back
what `end` gave. -/
def foldChange (word previous : String) (next : Char) : Int :=
  if previous = "module" ∧ (word = "subroutine" ∨ word = "function") then 0
  else if word ∈ blockOpeners ∨ (word = "type" ∧ next ≠ '(') then
    if previous = "end" then 0 else 1
  else if (word = "end" ∧ next ≠ '=') ∨ word ∈ blockClosers ∨
      (previous = "module" ∧ word = "procedure") then
    -1
  else if previous = "end" ∧ word = "if" then 0
  else if previous = "type" ∧ word = "is" then -1
  else if (previous = "end" ∧ word = "procedure") ∨ word = "endprocedure" then 1
  else if previous = "change" ∧ word = "team" then 1
  else 0

/-- What a keyword does to the level of its own line and of the lines after it. -/
structure FoldEffect where
  /-- By how many blocks the lines after it are further in. -/
  change : Int
  /-- Whether the line itself stands one block further out. -/
  dedent : Bool
deriving Repr, DecidableEq

/-- The branches of a construct: their line stands out, and what follows is further in than the
line. -/
def isBranch (word previous : String) (next : Char) : Bool :=
  (word = "case" ∧ next = '(') ∨ (previous = "case" ∧ word = "default") ∨
    (previous = "type" ∧ word = "is") ∨ (previous = "class" ∧ (word = "is" ∨ word = "default"))

/-- The effect of any keyword but `forall` and `where`. `atEnd` tells whether nothing follows the
keyword on its line. A `do` with a statement label does not fold. -/
def foldEffect (word previous : String) (next : Char) (atEnd : Bool) : FoldEffect :=
  let change := foldChange word previous next
  let kept := if word = "do" ∧ next.isDigit then 0 else change
  if (word = "else" ∧ (atEnd ∨ next = '!')) ∨ (previous = "else" ∧ word = "where") ∨
      word = "elsewhere" then
    ⟨kept + 1, true⟩
  else if (previous = "else" ∧ word = "if") ∨ word = "elseif" then ⟨kept, true⟩
  else if (previous = "select" ∧ (word = "case" ∨ word = "type")) ∨ word = "selectcase" ∨
      word = "selecttype" then
    ⟨kept + 2, false⟩
  else if isBranch word previous next then ⟨kept + 1, true⟩
  else if (previous = "end" ∧ word = "select") ∨ word = "endselect" then ⟨kept - 2, false⟩
  else ⟨kept, false⟩

end FortranMarkup
