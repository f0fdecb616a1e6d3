import CollectiveBench.CommandLine
import CollectiveBench.Place
import CollectiveBench.Run.Ensemble

/-!
# The program

The program reads its arguments and its environment, runs all ranks of one world, prints the
report of the first rank and writes it to a file if asked to. It exits with 0 after a run
without errors, with 1 after any error, and with 2 if the arguments make no sense. Whatever
fails before the report is printed leaves the standard output empty.
-/

namespace CollectiveBench.Program

/-- A run that was asked for. -/
structure Job where
  bench : Bench
  agenda : List Action
  /-- What every rank has to say before it begins. -/
  notices : List Notice
  /-- Where the report is to be written. -/
  path : Option String
  /-- How grave a notice must be to be logged. -/
  filter : String

/-- How the program ends. -/
structure Conclusion where
  exitCode : Nat
  output : String := ""
  /-- A path and the text to write there. -/
  file : Option (String × String) := none
  log : List String := []
deriving DecidableEq, Repr

/-- The exit code in some surroundings, and the file that is made there. The exit code tells
whether the file could be made. -/
def Conclusion.settle (conclusion : Conclusion) (surroundings : Surroundings) :
    Nat × Option (Place × String) :=
  match conclusion.file with
  | none => (conclusion.exitCode, none)
  | some (path, text) =>
    match surroundings.newFile? path with
    | none => (1, none)
    | some place => (conclusion.exitCode, some (place, text))

/-- The lines of the notices that pass a filter: `off` lets none pass and `error` no
warning. -/
def logged (filter : String) (notices : List Notice) : List String :=
  (notices.filter fun notice =>
    filter ≠ "off" && (notice.level = .error || filter ≠ "error")).map Notice.line

/-- The names of the environment variables that the program reads. -/
def environmentNames : List String :=
  Launcher.worldSizeNames ++ Launcher.localSizeNames ++ Launcher.globalRankNames
    ++ Launcher.localRankNames
    ++ ["MASTER_ADDR", "MASTER_PORT", "COMMBENCH_COLLECTIVE_TIMEOUT_SECS", "COMMBENCH_SEED"]

/-- How an option is shown in the help text. -/
def describeOption (name : String) (shape : Shape) : String :=
  "  --" ++ name ++ match shape with
    | .flag => ""
    | .text => " <TEXT>"
    | .path => " <PATH>"
    | .unsigned _ | .narrow _ => " <COUNT>"
    | .signed _ => " <NUMBER>"
    | .oneOf names => " <" ++ String.intercalate "|" names ++ ">"

/-- The help text. -/
def help : String :=
  "Usage: commbench [OPTIONS]\n\nOptions:\n"
    ++ String.join (Arguments.options.map fun (name, shape) => describeOption name shape ++ "\n")

/-- The name of the program and its version. -/
def version : String := "commbench 0.1.0\n"

/-- How the program ends when reading the arguments ended early. -/
def stopped : Stop → Conclusion
  | .usage => { exitCode := 2, log := logged "" [⟨.error, "invalid arguments"⟩] }
  | .help => { exitCode := 0, output := help }
  | .version => { exitCode := 0, output := version }

/-- How the program ends after an error, given what it had to say before. -/
def failed (filter : String) (notices : List Notice) (error : Error) : Conclusion :=
  { exitCode := 1
    log := logged filter (notices ++ [⟨.error, "benchmark failed: " ++ error.message⟩]) }

/-- The bench for some arguments in an environment. -/
def benchFor (arguments : Arguments) (environment : Environment) : Outcome Bench := do
  let params ← arguments.params (Launcher.ofEnvironment environment)
  let params := params.withOverrides environment
  params.check.1
  return {
    params
    world := .create (params.launcher.worldSize.getD 1) [] params.timeoutMs }

/-- What makes options and their values of a command line. -/
abbrev Reader := List String → Except Stop Arguments

/-- The run that some arguments ask for in an environment, or how the program ends without
one. -/
def start (arguments : List String) (environment : Environment)
    (reader : Reader := Arguments.read) : Except Conclusion Job :=
  match reader arguments with
  | .error stop => .error (stopped stop)
  | .ok arguments =>
    let filter := arguments.text "log" "info"
    match benchFor arguments environment with
    | .error error => .error (failed filter [] error)
    | .ok bench =>
      match bench.resolve with
      | (.error error, notices) => .error (failed filter notices error)
      | (.ok operations, notices) =>
        .ok ⟨bench, bench.agenda operations, notices, arguments.reportPath, filter⟩

/-- The report of the first rank, if no rank failed; else the error of the first rank that
did. -/
def report? (results : List (Outcome Report)) : Outcome (Option Report) := do
  let reports ← results.mapM id
  return reports.head?

/-- The ranks of a job before the run. -/
def Job.ensemble (job : Job) (source : Source := .counter) : Ensemble :=
  .create job.bench job.notices source

/-- How the program ends after a run, given the ranks as the run left them. -/
def finish (job : Job) (ensemble : Ensemble) : Conclusion :=
  match report? (ensemble.results job.bench) with
  | .error error => failed job.filter ensemble.notices error
  | .ok none => { exitCode := 0, log := logged job.filter ensemble.notices }
  | .ok (some report) =>
    { exitCode := 0
      output := report.table ++ "\n"
      file := job.path.map (·, report.json)
      log := logged job.filter ensemble.notices }

/-- The whole program on clocks that stand still. -/
def run [Arithmetic] [Halves] (arguments : List String) (environment : Environment)
    (reader : Reader := Arguments.read) (source : Source := .counter) : Conclusion :=
  match start arguments environment reader with
  | .error conclusion => conclusion
  | .ok job => finish job ((job.ensemble source).run job.bench job.agenda)

end CollectiveBench.Program
