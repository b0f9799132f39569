import Reshape.CommandLine.Session

/-! A run of the command line on given files, with everything that it writes.
Its clock stands at one nanosecond, so that a limit of that length has always
passed and any other never does. -/
namespace Reshape.CommandLine

/-- What a run has written. -/
structure Transcript where
  output : String
  notes : List String
deriving DecidableEq, Repr

/-- A host with these files alone. -/
def fileHost (files : Files) : Host (StateM Transcript) where
  read path := pure (files.read path)
  write text := modify fun t => { t with output := t.output ++ text }
  note level text := modify fun t => { t with notes := t.notes ++ noteLines level text }
  startClock := pure (pure 1)

/-- The status and the transcript of a command line. One that cannot be
understood leaves nothing behind. -/
def transcribe (arguments : List String) (files : Files) :
    UInt32 × Transcript :=
  match Options.parse? arguments with
  | some options => (runOptions (fileHost files) options).run ⟨"", []⟩
  | none => (usageStatus, ⟨"", []⟩)

end Reshape.CommandLine
