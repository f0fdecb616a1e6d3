import CollectiveBench.Program

/-!
# The command

Hands arguments, environment and clock to the program, and carries out how it ends.
-/

namespace CollectiveBench.Command

/-- The command stops at a count that no word holds. -/
local instance : Arithmetic := .checked

/-- The variables that the program reads, as far as they are set. -/
def readEnvironment : IO Environment :=
  Program.environmentNames.filterMapM fun name => do
    return (← IO.getEnv name).map fun value => (name, value)

/-- Runs a job. The clock is read before every action. -/
def runJob (job : Program.Job) : IO Program.Conclusion := do
  let mut ensemble := job.ensemble
  for action in job.agenda do
    let now ← IO.monoNanosNow
    ensemble := ensemble.step job.bench (fun _ => now) action
  return Program.finish job ensemble

/-- Prints what there is to print and writes the file. Gives the exit code, which also tells
whether the file could be written. -/
def carryOut (conclusion : Program.Conclusion) : IO UInt32 := do
  conclusion.log.forM fun line => IO.eprintln line
  IO.print conclusion.output
  (← IO.getStdout).flush
  try
    conclusion.file.forM fun (path, text) => IO.FS.writeFile path text
    return UInt32.ofNat conclusion.exitCode
  catch _ =>
    return 1

/-- Runs the program with its arguments. -/
def run (arguments : List String) : IO UInt32 := do
  match Program.start arguments (← readEnvironment) with
  | .error conclusion => carryOut conclusion
  | .ok job => carryOut (← runJob job)

end CollectiveBench.Command

/-- Runs the program. -/
def main (arguments : List String) : IO UInt32 := CollectiveBench.Command.run arguments
