import Reshape.CommandLine.Files
import Reshape.CommandLine.Options
import Reshape.Search.Listing

/-! A run of the command line: one task after the other, with results on one
channel and notes on another. It meets the world only through its host, so the
same run can be watched on given files. -/
namespace Reshape.CommandLine

/-- How grave a note is. -/
inductive Level where
  | info
  | warning
  | error
deriving DecidableEq, Repr

/-- The mark in front of a note. -/
def Level.mark : Level → String
  | .info => "[INFO ] "
  | .warning => "[WARN ] "
  | .error => "[ERROR] "

/-- The lines of a note. All but the first are indented. -/
def noteLines (level : Level) (text : String) : List String :=
  match (Text.parts '\n' text.toList).map String.ofList with
  | [] => [level.mark]
  | first :: rest => (level.mark ++ first) :: rest.map ("    " ++ ·)

/-- What a run needs from outside. -/
structure Host (m : Type → Type) where
  /-- The text of a file, or why there is none. -/
  read : String → m (Except ReadError String)
  /-- Writes a part of the results. -/
  write : String → m Unit
  /-- Writes a note. -/
  note : Level → String → m Unit
  /-- Starts a clock that tells the nanoseconds since then. -/
  startClock : m (m Nat)

variable {m : Type → Type} [Monad m] (host : Host m)

/-- The notes that a search gives as it goes on. -/
def announce : Event → m Unit
  | .sketches size _ admitted =>
    host.note .info s!"size {size}: {admitted} admissible sketches"
  | _ => pure ()

/-- Searches the programs for a task. -/
def runTask (task : Task) : m Synthesis := do
  let clock ← host.startClock
  let synthesis ← Search.run clock (announce host) task.problem task.budgets
  if synthesis.report.timedOut then
    host.note .warning <| "time limit of " ++ durationText task.budgets.timeLimit ++
      s!" reached with {synthesis.solutions.length} programs accepted"
  return synthesis

/-- The task in a file, with the settings of the command line, ready to be
searched. -/
def loadTask (options : Options) (path : String) : m (Except ProblemError Task) := do
  match ← host.read path with
  | .error e => return .error (.unreadable path e.cause)
  | .ok text => return do
    let task ← options.override (← Task.parse text)
    Search.validate task.problem task.budgets
    return task

/-- Runs the tasks in files, on top of what has been counted before. The result
is the status to exit with. -/
def runPaths (options : Options) : (total : Report) → (paths : List String) → m UInt32
  | total, [] => do
    if options.report && 1 < options.paths.length then
      host.note .info ("Overall statistics:\n" ++ total.display)
    return 0
  | total, path :: rest => do
    match (← loadTask host options path) with
    | .error e =>
      host.note .error (path ++ ": " ++ e.message)
      return 1
    | .ok task =>
      let synthesis ← runTask host task
      host.note .info s!"{path}: {synthesis.solutions.length} programs found"
      host.write (synthesis.display options.showOutput)
      if options.report then host.write synthesis.report.display
      runPaths options (total.union synthesis.report) rest

/-- Runs what a command line asks for. -/
def runOptions (options : Options) : m UInt32 := do
  if options.paths = [] then
    host.note .error "Pass in some task files as arguments"
    return 1
  runPaths host options .empty options.paths

/-- The status for a command line that cannot be understood. -/
def usageStatus : UInt32 := 2

end Reshape.CommandLine
