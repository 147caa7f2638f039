import FortranMarkup.Toml.Node
import FortranMarkup.Toml.Scalar

/-!
# TOML syntax

A TOML text is a sequence of lines: values under dotted keys, headers of tables, and lines that say
nothing. `Toml.parse?` reads the lines and builds the table that they describe. It has no table for
a text that breaks a rule, and it does not say which rule that is.
-/

namespace FortranMarkup.Toml

/-- The most parts of a dotted key, and one more than the depth to which values nest. -/
def nestingLimit : Nat := 80

/-- Takes spaces and tabs off the front. -/
def skipGaps (cs : List Char) : List Char :=
  cs.dropWhile isGap

/-- Takes a comment off the front, if there is one. -/
def skipComment : List Char → List Char
  | '#' :: rest => rest.dropWhile isCommentChar
  | cs => cs

theorem length_skipGaps_le (cs : List Char) : (skipGaps cs).length ≤ cs.length :=
  (List.dropWhile_sublist isGap).length_le

/-- Takes gaps, comments and line ends off the front. -/
def skipFiller (cs : List Char) : List Char :=
  match _ : skipGaps cs with
  | '#' :: rest => skipFiller (rest.dropWhile isCommentChar)
  | '\n' :: rest => skipFiller rest
  | '\r' :: '\n' :: rest => skipFiller rest
  | rest => rest
termination_by cs.length
decreasing_by
  all_goals
    rename_i found
    have := length_skipGaps_le cs
    simp only [found, List.length_cons] at this
  · exact Nat.lt_of_le_of_lt (List.dropWhile_sublist isCommentChar).length_le this
  · exact this
  · omega

/-- Ends a line: gaps and a comment can precede its line end or the end of the text. -/
def lineEnd? (cs : List Char) : Option (List Char) :=
  let rest := skipComment (skipGaps cs)
  if rest = [] then some []
  else if atNewline rest then some (dropNewline rest)
  else none

/-! ## Keys -/

/-- Reads one part of a key. -/
def keyPart? : List Char → Option (String × List Char)
  | '"' :: rest => (basicText? rest).map (fun read => (String.ofList read.1, read.2))
  | '\'' :: rest => (literalText? rest).map (fun read => (String.ofList read.1, read.2))
  | cs =>
    let bare := cs.takeWhile isBareKeyChar
    if bare = [] then none else some (String.ofList bare, cs.dropWhile isBareKeyChar)

/-- Reads the parts of a dotted key, with the gaps around them. -/
def keyParts? (cs : List Char) : Option (List String × List Char) :=
  match keyPart? (skipGaps cs) with
  | none => none
  | some (part, rest) =>
    match skipGaps rest with
    | '.' :: more =>
      if more.length < cs.length then
        (keyParts? more).map (fun (parts, rest) => (part :: parts, rest))
      else none
    | rest => some ([part], rest)
termination_by cs.length

/-- Reads a dotted key that has not too many parts. -/
def key? (cs : List Char) : Option (List String × List Char) :=
  (keyParts? cs).filter (fun (parts, _) => parts.length < nestingLimit)

/-! ## Values -/

/-- How a value is read. -/
abbrev Reader := List Char → Option (Value × List Char)

/-- Reads the items of an array up to its closing bracket. A comma can follow the last one. -/
def items? (item : Reader) (cs : List Char) : Option (List Value × List Char) :=
  match skipFiller cs with
  | ']' :: rest => some ([], rest)
  | start =>
    match item start with
    | none => none
    | some (value, rest) =>
      match skipFiller rest with
      | ']' :: rest => some ([value], rest)
      | ',' :: rest =>
        if rest.length < cs.length then
          (items? item rest).map (fun (values, rest) => (value :: values, rest))
        else none
      | _ => none
termination_by cs.length

/-- Reads a key and its value. -/
def keyValue? (item : Reader) (cs : List Char) : Option ((List String × Value) × List Char) :=
  match key? cs with
  | some (key, '=' :: rest) =>
    (item (skipGaps rest)).map (fun (value, rest) => ((key, value), rest))
  | _ => none

/-- Reads the entries of an inline table up to its closing brace; there is at least one. -/
def inlineEntries? (item : Reader) (cs : List Char) :
    Option (List (List String × Value) × List Char) :=
  match keyValue? item cs with
  | none => none
  | some (entry, rest) =>
    match skipGaps rest with
    | '\x7d' :: rest => some ([entry], rest)
    | ',' :: rest =>
      if rest.length < cs.length then
        (inlineEntries? item rest).map (fun (entries, rest) => (entry :: entries, rest))
      else none
    | _ => none
termination_by cs.length

/-- Reads an inline table after its opening brace. -/
def inlineTable? (item : Reader) (cs : List Char) : Option (Value × List Char) :=
  match skipGaps cs with
  | '\x7d' :: rest => some (.table [], rest)
  | start => do
    let (entries, rest) ← inlineEntries? item start
    let value ← (Entries.insertAll? [] entries).bind valuesOf? |>.bind tableValue?
    return (value, rest)

/-- Reads a text as a value. -/
def textValue (read? : Option ReadText) : Option (Value × List Char) :=
  read?.map (fun read => (.string (String.ofList read.1), read.2))

/-- Reads a value in which others nest at most so deep. -/
def value? (depth : Nat) (cs : List Char) : Option (Value × List Char) :=
  match cs with
  | '"' :: '"' :: '"' :: rest => textValue (longBasicText? (dropNewline rest))
  | '"' :: rest => textValue (basicText? rest)
  | '\'' :: '\'' :: '\'' :: rest => textValue (longLiteralText? (dropNewline rest))
  | '\'' :: rest => textValue (literalText? rest)
  | '[' :: rest =>
    match depth with
    | 0 => none
    | inner + 1 => (items? (value? inner) rest).map (fun (values, rest) => (.array values, rest))
  | '\x7b' :: rest =>
    match depth with
    | 0 => none
    | inner + 1 => inlineTable? (value? inner) rest
  | _ => readScalar? cs

/-! ## Lines -/

/-- What a line says. -/
inductive Line where
  | blank
  | entry (key : List String) (value : Value)
  | table (path : List String)
  | tables (path : List String)

/-- Reads a line up to its line end. -/
def content? (cs : List Char) : Option (Line × List Char) :=
  match cs with
  | '[' :: '[' :: rest =>
    match key? rest with
    | some (path, ']' :: ']' :: rest) => some (.tables path, rest)
    | _ => none
  | '[' :: rest =>
    match key? rest with
    | some (path, ']' :: rest) => some (.table path, rest)
    | _ => none
  | _ =>
    if (lineEnd? cs).isSome then some (.blank, cs)
    else
      (keyValue? (value? (nestingLimit - 1)) cs).map fun ((key, value), rest) =>
        (.entry key value, rest)

/-- Reads all lines. -/
def lines? (cs : List Char) : Option (List Line) :=
  if cs = [] then some []
  else
    match content? (skipGaps cs) with
    | none => none
    | some (line, rest) =>
      match lineEnd? rest with
      | none => none
      | some rest => if rest.length < cs.length then (lines? rest).map (line :: ·) else none
termination_by cs.length

/-! ## Tables -/

/-- A header and the entries under it. -/
structure Section where
  path : List String
  /-- Whether the table is one of an array of tables. -/
  isItem : Bool
  entries : List (List String × Value)

/-- The entries before the first header, and the sections that the headers begin. -/
def sectionsOf : List Line → List (List String × Value) × List Section
  | [] => ([], [])
  | line :: rest =>
    let (entries, sections) := sectionsOf rest
    match line with
    | .blank => (entries, sections)
    | .entry key value => ((key, value) :: entries, sections)
    | .table path => ([], ⟨path, false, entries⟩ :: sections)
    | .tables path => ([], ⟨path, true, entries⟩ :: sections)

/-- Adds a section to the table of a text. -/
def addSection? (entries : Entries) (added : Section) : Option Entries :=
  let grow := if added.isItem then Entries.growTables? else Entries.growTable?
  Entries.alterAt? added.path (grow added.entries) entries

/-- The table that lines describe. -/
def tableOf? (lines : List Line) : Option Table := do
  let (entries, sections) := sectionsOf lines
  let begun ← Entries.insertAll? [] entries
  let grown ← sections.foldlM addSection? begun
  return sortEntries (← valuesOf? grown)

/-- Takes the mark of the byte order off the front of a text, if there is one. -/
def dropByteOrderMark : List Char → List Char
  | '\uFEFF' :: rest => rest
  | cs => cs

/-- The table that a TOML text describes. -/
def parse? (text : String) : Option Table :=
  (lines? (dropByteOrderMark text.toList)).bind tableOf?

end FortranMarkup.Toml
