import FortranMarkup.Command.Files
import FortranMarkup.Command.Options
import FortranMarkup.Settings

/-!
# Running the command

The command reads its settings, then the source file, and prints a report on it. `run` says what it
prints and how it ends for any access to files, so that it can be run on the files of a machine as
well as on a tree in memory.
-/

namespace FortranMarkup.Command

/-- The name of the settings file in the home directory. -/
def settingsName : String := ".fortfold.toml"

/-- The text that tells the version. -/
def versionText : String := "fortfold 0.4.0\n"

/-- The text that tells how the command is used. -/
def helpText : String :=
  String.intercalate "\n"
    ["fortfold 0.4.0 - Fortran syntax styling and folding", "",
      "Usage: fortfold [OPTIONS] FILE", "",
      "Options:",
      "  --fixed            Treat FILE as fixed-form source",
      "  --free             Treat FILE as free-form source",
      "  --folds            Print fold level and flags of each line",
      "  --spans            Print the style runs of each line",
      "  -c, --config PATH  Read settings from PATH instead of ~/.fortfold.toml",
      "  -h, --help         Show this help message",
      "  -V, --version      Show version information", "",
      "The layout is taken from the file extension when not given:",
      "  .f .for .f77 .ftn are fixed form, everything else is free form.", "",
      "Set FORTFOLD_LOG=fortfold=debug to trace styling passes on stderr.", ""]

/-- Why the command fails. -/
inductive Failure where
  | usage (error : UsageError)
  | settings (error : SettingsError)
  | reading (error : ReadError)
deriving Repr

/-- What the user is told. -/
def Failure.message : Failure → String
  | usage error => error.message
  | settings error => error.message
  | reading error => "I/O error: " ++ error.message

/-- What the command prints and how it ends. -/
structure Outcome where
  code : Nat
  output : List UInt8
  errors : String
deriving Repr, DecidableEq

/-- The outcome of a success or a failure. -/
def Outcome.ofResult : Except Failure (List UInt8) → Outcome
  | .ok output => ⟨0, output, ""⟩
  | .error failure => ⟨1, [], "Error: " ++ failure.message ++ "\n"⟩

/-- A path below a directory. -/
def join (directory name : String) : String :=
  if directory = "" then name
  else if directory.toList.getLast? = some '/' then directory ++ name
  else directory ++ "/" ++ name

/-- The settings in the text of a file. -/
def settingsOf (contents : Except ReadError (List UInt8)) : Except Failure Settings :=
  match contents with
  | .error error => .error (.reading error)
  | .ok bytes =>
    match Utf8.decode? bytes with
    | none => .error (.reading .notText)
    | some text => (Settings.parse text).mapError Failure.settings

variable {m : Type → Type} [Monad m]

/-- Reads the settings file that is asked for, or else the user's own if there is one. -/
def loadSettings (files : Files m) (path? : Option String) : m (Except Failure Settings) := do
  match path? with
  | some path => return settingsOf (← files.read path)
  | none =>
    match ← files.home? with
    | none => return .ok {}
    | some home =>
      let path := join home settingsName
      if ← files.leads path then return settingsOf (← files.read path) else return .ok {}

/-- The report on source with some settings. The form is the one asked for, else that of the
settings, else the one that the name of the file tells. -/
def reportOn (options : Options) (settings : Settings) (color : Bool) (bytes : List UInt8) :
    List UInt8 :=
  let form := ((options.form?.or settings.form?).or (SourceForm.ofPath? options.file)).getD .free
  let doc := settings.applyTo (.ofBytes bytes.toArray)
  Report.bytes (options.report.pieces ⟨form, settings.dictionary⟩ doc color).1

/-- Prints a report. The settings are read before the source. -/
def runReport (files : Files m) (options : Options) (color : Bool) :
    m (Except Failure (List UInt8)) := do
  match ← loadSettings files options.settings? with
  | .error failure => return .error failure
  | .ok settings =>
    match ← files.read options.file with
    | .error error => return .error (.reading error)
    | .ok bytes => return .ok (reportOn options settings color bytes)

/-- Runs the command on its arguments. -/
def run (files : Files m) (arguments : List String) (color : Bool) : m Outcome := do
  match Request.ofArguments arguments with
  | .error error => return .ofResult (.error (.usage error))
  | .ok .help => return .ofResult (.ok (Utf8.encode helpText))
  | .ok .version => return .ofResult (.ok (Utf8.encode versionText))
  | .ok (.report options) => return .ofResult (← runReport files options color)

end FortranMarkup.Command
