import ActiveBattle.Scenario.CommandLine

/-!
# The program

Plays a battle without a window: reads the files the command line names, runs them and prints what
came of it. Of what went wrong only the kind is told: the wording of faults in a file is left out,
and so is the tracing of a battle apart from its log.
-/

namespace ActiveBattle.CommandLine

set_option autoImplicit false

def usage : String :=
  "usage: SCENARIO [--config FILE] [--max-frames N] [--decision-every N] [--seed N] " ++
    "[--format NAME] [-v] [-h]"

def logLine (e : LogEntry) : String := s!"  [{e.frame}] " ++ e.event.describe

/-- Prints a report; the log goes to the error stream. -/
def print (verbose : Bool) : Report → IO Unit
  | .played output log => do
    if verbose then
      for e in log do
        IO.eprintln (logLine e)
    IO.print output
  | .refused reason => IO.eprintln ("Error: " ++ reason)
  | .stopped => IO.eprintln "Error: a range without members"

def readFile? (path : String) : IO (Option String) := do
  try
    let text ← IO.FS.readFile path
    return some text
  catch _ => return none

/-- Reads the files of a command line and runs it. -/
def runFiles (c : CommandLine) : IO Report := do
  let scenario ← readFile? (c.scenario.getD "")
  let config ← readFile? (c.config.getD "")
  return c.run fun path => if c.scenario = some path then scenario else config

def runProgram (args : List String) : IO UInt32 := do
  match parse args with
  | none =>
    IO.eprintln usage
    return 2
  | some .help =>
    IO.print help
    return 0
  | some (.battle c) =>
    let report ← c.runFiles
    print c.verbose report
    return report.exitCode

end ActiveBattle.CommandLine

def main (args : List String) : IO UInt32 := ActiveBattle.CommandLine.runProgram args
