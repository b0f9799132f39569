import Reshape.CommandLine.Session

/-! The command line itself: files, channels and the clock of the machine. -/
namespace Reshape.CommandLine

/-- Why a file could not be read. Reading itself only complains about texts
that are not encoded as they should be. -/
def readError : IO.Error → ReadError
  | .noFileOrDirectory .. => .absent
  | .permissionDenied .. => .denied
  | .inappropriateType none .. => .isDirectory
  | .inappropriateType (some _) .. => .notDirectory
  | .userError _ => .notText
  | e => .other (toString e)

/-- The machine as a host. -/
def machine : Host IO where
  read path := do
    try
      return .ok (← IO.FS.readFile path)
    catch e => return .error (readError e)
  write text := do (← IO.getStdout).putStr text
  note level text := do
    for line in noteLines level text do
      (← IO.getStderr).putStrLn line
  startClock := do
    let start ← IO.monoNanosNow
    return return (← IO.monoNanosNow) - start

/-- What is said to a command line that cannot be understood. -/
def usage : String :=
  "usage: [--max-prog-size N] [--time-limit SECONDS] [--solution-limit N] " ++
    "[--operators NAME,..] [--show-output] [--report] FILE.."

end Reshape.CommandLine

open Reshape.CommandLine in
/-- Runs what the command line asks for. -/
def main (arguments : List String) : IO UInt32 := do
  match Options.parse? arguments with
  | some options => runOptions machine options
  | none =>
    (← IO.getStderr).putStrLn usage
    return usageStatus
