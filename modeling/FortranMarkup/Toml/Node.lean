import FortranMarkup.Toml.Printer

/-!
# Building TOML tables

While a TOML text is read, its tables grow: a dotted key or a header can add to a table that an
earlier one has made, but not to every table. A `Node` is a value that may still grow, and `Origin`
tells how a table came about, which decides what may add to it.
-/

namespace FortranMarkup.Toml

/-- How a table came about. -/
inductive Origin where
  /-- Its own header names it. -/
  | header
  /-- It is on the way to the table that a header names. -/
  | path
  /-- It is on the way to the value that a dotted key names. -/
  | dotted
deriving Repr, DecidableEq

/-- A value that may still grow. The entries of a table stand in the order in which they were added.
-/
inductive Node where
  | value (value : Value)
  | table (origin : Origin) (entries : List (String × Node))
  /-- An array of tables, each with a header of its own. -/
  | tables (tables : List (List (String × Node)))
deriving Repr

/-- The entries of a table that may still grow. -/
abbrev Entries := List (String × Node)

namespace Entries

/-- Changes the node of a key, or makes one. -/
def alter? (entries : Entries) (key : String) (change : Option Node → Option Node) :
    Option Entries :=
  match entries with
  | [] => (change none).map (fun node => [(key, node)])
  | (first, node) :: rest =>
    if first = key then (change (some node)).map (fun node => (key, node) :: rest)
    else (alter? rest key change).map ((first, node) :: ·)

/-- Changes the last of some tables. -/
def alterLast? (tables : List Entries) (change : Entries → Option Entries) :
    Option (List Entries) :=
  match tables with
  | [] => none
  | [last] => (change last).map ([·])
  | table :: rest => (alterLast? rest change).map (table :: ·)

/-- Adds a value under a dotted key. It may pass through tables that have no header of their own,
and it may add only to a table that dotted keys have made, or to the one it is written in; `own`
tells whether the table at hand is one of these. -/
def insert? (value : Value) : List String → Bool → Entries → Option Entries
  | [], _, _ => none
  | [key], own, entries =>
    entries.alter? key fun
      | none => if own then some (.value value) else none
      | some _ => none
  | key :: path, _, entries =>
    entries.alter? key fun
      | none => (insert? value path true []).map (Node.table .dotted)
      | some (.table origin inner) =>
        if origin = .header then none
        else (insert? value path (origin = .dotted) inner).map (Node.table origin)
      | some (.tables tables) => (alterLast? tables (insert? value path false)).map Node.tables
      | some (.value _) => none

/-- Adds values under dotted keys in turn. -/
def insertAll? (entries : Entries) : List (List String × Value) → Option Entries
  | [] => some entries
  | (key, value) :: rest => (insert? value key true entries).bind (insertAll? · rest)

/-- Changes the node that a header names; the tables on the way are made where they are missing. -/
def alterAt? : List String → (Option Node → Option Node) → Entries → Option Entries
  | [], _, _ => none
  | [key], change, entries => entries.alter? key change
  | key :: path, change, entries =>
    entries.alter? key fun
      | none => (alterAt? path change []).map (Node.table .path)
      | some (.table origin inner) => (alterAt? path change inner).map (Node.table origin)
      | some (.tables tables) => (alterLast? tables (alterAt? path change)).map Node.tables
      | some (.value _) => none

/-- The table of a header with the values under it. The table may be there already as one on the way
to others. -/
def growTable? (values : List (List String × Value)) : Option Node → Option Node
  | none => (insertAll? [] values).map (Node.table .header)
  | some (.table .path inner) => (insertAll? inner values).map (Node.table .header)
  | some _ => none

/-- The array of tables of a header with one more table. -/
def growTables? (values : List (List String × Value)) : Option Node → Option Node
  | none => (insertAll? [] values).map (fun table => Node.tables [table])
  | some (.tables tables) =>
    (insertAll? [] values).map (fun table => Node.tables (tables ++ [table]))
  | some _ => none

end Entries

/-- The value of a full-grown table. A table whose first key is that of date-times is the date-time
that its text writes. -/
def tableValue? (values : Table) : Option Value :=
  match values with
  | (key, value) :: _ =>
    if key = dateTimeKey then
      match value with
      | .string text => (DateTime.read? text.toList).map Value.dateTime
      | _ => none
    else some (.table (sortEntries values))
  | [] => some (.table [])

mutual

/-- The value of a full-grown node. -/
def Node.value? : Node → Option Value
  | .value value => some value
  | .table _ entries => (valuesOf? entries).bind tableValue?
  | .tables tables => (valuesOfAll? tables).map Value.array

/-- The values of full-grown entries. -/
def valuesOf? : List (String × Node) → Option Table
  | [] => some []
  | (key, node) :: rest => do
    let value ← node.value?
    let others ← valuesOf? rest
    return (key, value) :: others

/-- The values of full-grown tables. -/
def valuesOfAll? : List (List (String × Node)) → Option (List Value)
  | [] => some []
  | entries :: rest => do
    let values ← valuesOf? entries
    let value ← tableValue? values
    let others ← valuesOfAll? rest
    return value :: others

end

end FortranMarkup.Toml
