import FortranMarkup.Report

/-!
# Command line options

What the arguments of the command ask for. Of an option that is given twice, the last one counts; a
request for help or for the version ends the reading of the arguments.
-/

namespace FortranMarkup.Command

/-- How a file is to be shown. -/
structure Options where
  form? : Option SourceForm := none
  report : Report := .highlight
  /-- The settings file to read in the place of the user's own. -/
  settings? : Option String := none
  file : String
deriving Repr, DecidableEq

/-- What the arguments ask for. -/
inductive Request where
  | report (options : Options)
  | help
  | version
deriving Repr, DecidableEq

/-- Why arguments are refused. -/
inductive UsageError where
  | missingPath (option : String)
  | unknownOption (option : String)
  | secondFile
  | noFile
deriving Repr, DecidableEq

/-- What the user is told. -/
def UsageError.message : UsageError → String
  | missingPath option => option ++ " needs a path"
  | unknownOption option => "unknown option " ++ option
  | secondFile => "only one file may be given"
  | noFile => "no input file (try --help)"

/-- The options read so far. -/
structure Draft where
  form? : Option SourceForm := none
  report : Report := .highlight
  settings? : Option String := none
  file? : Option String := none

/-- Reads arguments after some others. -/
def readArguments (draft : Draft) : List String → Except UsageError Request
  | [] =>
    match draft.file? with
    | some file => .ok (.report ⟨draft.form?, draft.report, draft.settings?, file⟩)
    | none => .error .noFile
  | argument :: rest =>
    match argument with
    | "--help" | "-h" => .ok .help
    | "--version" | "-V" => .ok .version
    | "--fixed" => readArguments { draft with form? := some .fixed } rest
    | "--free" => readArguments { draft with form? := some .free } rest
    | "--folds" => readArguments { draft with report := .folds } rest
    | "--spans" => readArguments { draft with report := .spans } rest
    | "--config" | "-c" =>
      match rest with
      | path :: rest => readArguments { draft with settings? := some path } rest
      | [] => .error (.missingPath argument)
    | _ =>
      if argument.toList.head? = some '-' then .error (.unknownOption argument)
      else if draft.file?.isSome then .error .secondFile
      else readArguments { draft with file? := some argument } rest

/-- What some arguments ask for. -/
def Request.ofArguments (arguments : List String) : Except UsageError Request :=
  readArguments {} arguments

end FortranMarkup.Command
