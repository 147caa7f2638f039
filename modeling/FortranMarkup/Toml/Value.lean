import FortranMarkup.Number.Binary64
import FortranMarkup.Toml.DateTime

/-!
# TOML values

The values that a TOML text describes. The entries of a table stand in the order of their keys.
-/

namespace FortranMarkup.Toml

/-- A value of TOML. -/
inductive Value where
  | string (text : String)
  | integer (number : Int)
  | float (number : Binary64)
  | boolean (truth : Bool)
  | dateTime (moment : DateTime)
  | array (items : List Value)
  | table (entries : List (String × Value))
deriving Repr

/-- A table of TOML. -/
abbrev Table := List (String × Value)

/-- Brings entries into the order of their keys. -/
def sortEntries (entries : Table) : Table :=
  entries.mergeSort (fun a b => a.1 ≤ b.1)

namespace Value

/-- Whether a value is a table. -/
def isTable : Value → Bool
  | table _ => true
  | _ => false

/-- Whether a value is an array that has a table among its items. -/
def holdsTable : Value → Bool
  | array items => items.any isTable
  | _ => false

end Value

end FortranMarkup.Toml
