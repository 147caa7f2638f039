import FortranMarkup.Document.Basic
import FortranMarkup.Keyword.Dictionary
import FortranMarkup.Source.Form
import FortranMarkup.Toml.Syntax

/-!
# Settings

What a settings file can change: the source form, how lines fold, and which further words are
listed. The file is a TOML text with a key `format`, a table `fold` and a table `keywords`; other
keys have no effect.

The settings are read in the order of the keys, and the first one that is not well formed decides
the error.
-/

namespace FortranMarkup

/-- What a settings file can change. -/
structure Settings where
  /-- Whether comment runs fold. -/
  foldComments : Bool := true
  /-- Whether lines that show nothing are marked. -/
  markWhite : Bool := true
  /-- The form of all source, whatever the name of its file. -/
  form? : Option SourceForm := none
  /-- Further words of the primary list. -/
  primary : List String := []
  /-- Further names of intrinsic procedures. -/
  intrinsic : List String := []
  /-- The words of the extended list. -/
  extended : List String := []
deriving Repr, DecidableEq

/-- Why a settings file is refused. -/
inductive SettingsError where
  /-- The file is no TOML text. -/
  | malformed
  /-- No source form has the name. -/
  | unknownForm (name : String)
  /-- A setting has a value of the wrong kind. -/
  | invalidValue (key : String) (value : Toml.Value)
deriving Repr

namespace SettingsError

/-- What the user is told. -/
def message : SettingsError → String
  | malformed => "Invalid config file: TOML parse error"
  | unknownForm name => "Unknown source format: " ++ name
  | invalidValue key value => "Invalid value for " ++ key ++ ": " ++ value.show

end SettingsError

namespace Settings

/-- The truth value that a word spells, in any case. -/
def truthOfWord? (word : String) : Option Bool :=
  match Case.small word with
  | "true" | "yes" | "on" | "1" => some true
  | "false" | "no" | "off" | "0" => some false
  | _ => none

/-- The truth value of a setting: a boolean, a number, or a word for one. -/
def truth? : Toml.Value → Option Bool
  | .boolean truth => some truth
  | .integer number => some (number ≠ 0)
  | .string word => truthOfWord? word
  | _ => none

/-- The words of a setting: those of a text, or the texts of an array. An item of an array that is
no text is the value at fault. -/
def words? (key : String) : Toml.Value → Except SettingsError (List String)
  | .string text => .ok (White.words text)
  | .array items => items.mapM fun
    | .string word => .ok word
    | item => .error (.invalidValue key item)
  | value => .error (.invalidValue key value)

/-- Applies an entry of the table `fold`. -/
def applyFold (settings : Settings) (entry : String × Toml.Value) : Except SettingsError Settings :=
  match entry with
  | ("comment", value) =>
    match truth? value with
    | some truth => .ok { settings with foldComments := truth }
    | none => .error (.invalidValue "fold.comment" value)
  | ("compact", value) =>
    match truth? value with
    | some truth => .ok { settings with markWhite := truth }
    | none => .error (.invalidValue "fold.compact" value)
  | _ => .ok settings

/-- Applies an entry of the table `keywords`. Lists of other names must be well formed too. -/
def applyKeywords (settings : Settings) (entry : String × Toml.Value) :
    Except SettingsError Settings :=
  (words? entry.1 entry.2).map fun words =>
    match entry.1 with
    | "primary" => { settings with primary := words }
    | "intrinsic" => { settings with intrinsic := words }
    | "extended" => { settings with extended := words }
    | _ => settings

/-- Applies an entry of a settings file. -/
def applyEntry (settings : Settings) (entry : String × Toml.Value) :
    Except SettingsError Settings :=
  match entry with
  | ("format", .string name) =>
    match SourceForm.ofName? name with
    | some form => .ok { settings with form? := some form }
    | none => .error (.unknownForm name)
  | ("fold", .table entries) => entries.foldlM applyFold settings
  | ("keywords", .table entries) => entries.foldlM applyKeywords settings
  | ("format", value) => .error (.invalidValue "format" value)
  | ("fold", value) => .error (.invalidValue "fold" value)
  | ("keywords", value) => .error (.invalidValue "keywords" value)
  | _ => .ok settings

/-- Applies the entries of a settings file in turn. -/
def applyTable (settings : Settings) (table : Toml.Table) : Except SettingsError Settings :=
  table.foldlM applyEntry settings

/-- The settings that a file gives. -/
def parse (text : String) : Except SettingsError Settings :=
  match Toml.parse? text with
  | some table => applyTable {} table
  | none => .error .malformed

/-- Sets the properties of a document that govern folding. -/
def applyTo (settings : Settings) (doc : Document) : Document :=
  (doc.setProperty "fold.comment" settings.foldComments.toInt).setProperty "fold.compact"
    settings.markWhite.toInt

/-- The words of the language and those of the settings. -/
def dictionary (settings : Settings) : Dictionary where
  primary := Dictionary.fortran.primary.insertMany settings.primary
  intrinsic := Dictionary.fortran.intrinsic.insertMany settings.intrinsic
  extended := .ofList settings.extended

end Settings

end FortranMarkup
