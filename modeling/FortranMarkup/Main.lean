import FortranMarkup.Command.Run

/-!
# The command

Runs the command on the files of the machine.
-/

namespace FortranMarkup.Command

/-- The reason for which the machine refuses to read a file. -/
def readErrorOf : IO.Error → ReadError
  | .noFileOrDirectory _ _ _ => .notFound
  | .inappropriateType _ code _ => if code = 21 then .isDirectory else .notDirectory
  | error => .other (toString error)

/-- Reads a file of the machine. -/
def readMachineFile (path : String) : IO (Except ReadError (List UInt8)) := do
  match ← (IO.FS.readBinFile path).toBaseIO with
  | .ok contents => return .ok contents.data.toList
  | .error error => return .error (readErrorOf error)

/-- Access to the files of the machine. A path that cannot be read leads somewhere all the same,
unless a name in it leads nowhere. -/
def machineFiles : Files IO where
  home? := IO.getEnv "HOME"
  leads path := do
    match ← readMachineFile path with
    | .error .notFound | .error .notDirectory => return false
    | _ => return true
  read := readMachineFile

end FortranMarkup.Command

/-- Runs the command and prints what it has to say. -/
def main (arguments : List String) : IO UInt32 := do
  let stdout ← IO.getStdout
  let color ← stdout.isTty
  let outcome ← FortranMarkup.Command.run FortranMarkup.Command.machineFiles arguments color
  stdout.write outcome.output.toByteArray
  stdout.flush
  (← IO.getStderr).putStr outcome.errors
  return outcome.code.toUInt32
