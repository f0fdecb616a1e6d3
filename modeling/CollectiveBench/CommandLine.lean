import CollectiveBench.Params
import CollectiveBench.RankList
import CollectiveBench.Text.Quoted

/-!
# The command line

A run is asked for with long options. An option stands before its value or is joined to it by
an equals sign, occurs once at most, and its name is not abbreviated. Arguments are taken
from left to right, and the first fault or the first request for help or the version ends
the reading.

`Arguments.read` finds the values and checks their shape; `Arguments.params` makes
parameters of them, which needs to know the launcher's world.
-/

namespace CollectiveBench

open Text

/-- What an option takes. -/
inductive Shape where
  /-- No value at all. -/
  | flag
  | text
  /-- A text that is not empty. -/
  | path
  /-- A number below a bound, written without a minus sign. -/
  | unsigned (bound : Nat)
  /-- A number below a bound, read as a signed number first, so that zero may have a minus
  sign. -/
  | narrow (bound : Nat)
  /-- A number of at most `bits` bits besides its sign. -/
  | signed (bits : Nat)
  | oneOf (names : List String)
deriving DecidableEq, Repr

namespace Shape

/-- Whether a value has the shape. -/
def accepts (shape : Shape) (value : String) : Bool :=
  match shape with
  | .flag => false
  | .text => true
  | .path => !value.isEmpty
  | .unsigned bound => (unsigned? bound value.toList).isSome
  | .narrow bound => (signed? 63 value.toList).any fun (number : Int) =>
    0 ≤ number && number < bound
  | .signed bits => (signed? bits value.toList).isSome
  | .oneOf names => names.contains value

/-- Whether an argument of its own can be the value of an option. It must not look like an
option, but a negative number may follow an option for signed numbers. -/
def takes (shape : Shape) (argument : String) : Bool :=
  match argument.toList, shape with
  | '-' :: digits@(_ :: _), .signed _ => (digits? digits).isSome
  | '-' :: _ :: _, _ => false
  | _, _ => true

end Shape

/-- Why reading a command line ended early. -/
inductive Stop where
  | usage | help | version
deriving DecidableEq, Repr

/-- The values that were given for options, and an empty text for flags. -/
abbrev Arguments := List (String × String)

namespace Arguments

/-- The options and their shapes. -/
def options : List (String × Shape) :=
  [("b", .text), ("e", .text), ("f", .unsigned bound64), ("sb", .unsigned bound64),
   ("w", .unsigned bound64), ("n", .unsigned bound64), ("z", .narrow 256),
   ("c", .narrow 256), ("i", .text), ("o", .text), ("collective", .text), ("dtype", .text),
   ("op", .text), ("root", .narrow bound32), ("src-ranks", .text), ("dst-ranks", .text),
   ("bitwidth", .narrow bound32), ("quant-a2a-embedding-dim", .unsigned bound64),
   ("quant-threshold", .unsigned bound64), ("kernel", .oneOf ["gemm", "emb_lookup"]),
   ("num-compute", .unsigned bound64), ("num-coll", .unsigned bound64),
   ("mm-dim", .unsigned bound64), ("emb-dim", .unsigned bound64),
   ("num-embs", .unsigned bound64), ("batch-size", .unsigned bound64),
   ("bag-size", .unsigned bound64), ("num-emb-tables-per-device", .unsigned bound64),
   ("num-emb-tables-batched", .signed 63), ("backend", .text), ("device", .text),
   ("world-size", .narrow bound32), ("seed", .unsigned bound64), ("no-reuse", .flag),
   ("timeout-secs", .unsigned bound64), ("log", .text), ("output-json", .path)]

/-- The name of a long option and the value that is joined to it. -/
def splitOption (body : List Char) : String × Option String :=
  match splitOnce '=' body with
  | some (name, value) => (String.ofList name, some (String.ofList value))
  | none => (String.ofList body, none)

/-- Continues with the arguments after those in `given`. -/
def readFrom (given : Arguments) : List String → Except Stop Arguments
  | [] => .ok given
  | argument :: rest =>
    match argument.toList with
    | ['-', '-'] => if rest.isEmpty then .ok given else .error .usage
    | '-' :: '-' :: body =>
      let (name, joined) := splitOption body
      if name = "help" ∧ joined.isNone then .error .help
      else if name = "version" ∧ joined.isNone then .error .version
      else
        match options.lookup name, joined, rest with
        | none, _, _ => .error .usage
        | some .flag, none, rest =>
          if (given.lookup name).isSome then .error .usage
          else readFrom ((name, "") :: given) rest
        | some shape, some value, rest =>
          if (given.lookup name).isSome || !shape.accepts value then .error .usage
          else readFrom ((name, value) :: given) rest
        | some _, none, [] => .error .usage
        | some shape, none, value :: rest =>
          if (given.lookup name).isSome || !shape.takes value || !shape.accepts value then
            .error .usage
          else readFrom ((name, value) :: given) rest
    | '-' :: 'h' :: _ => .error .help
    | '-' :: 'V' :: _ => .error .version
    | _ => .error .usage

/-- The arguments of a command line, without the name of the program. -/
def read (arguments : List String) : Except Stop Arguments := readFrom [] arguments

/-- The text of an option. -/
def text (arguments : Arguments) (name fallback : String) : String :=
  (arguments.lookup name).getD fallback

/-- The number of an option, which is not negative. -/
def number? (arguments : Arguments) (name : String) : Option Nat := do
  return (← signed? 64 (← arguments.lookup name).toList).toNat

/-- The number of an option that has a default. -/
def number (arguments : Arguments) (name : String) (fallback : Nat) : Nat :=
  (arguments.number? name).getD fallback

/-- Number of tables that are looked up together; a negative number leaves it open. -/
def tablesBatched (arguments : Arguments) : Option Nat :=
  match (arguments.lookup "num-emb-tables-batched").bind fun value => signed? 63 value.toList with
  | some number => if 0 ≤ number then some number.toNat else none
  | none => none

/-- The names of operations between commas. -/
def collectives (arguments : Arguments) : List String :=
  let fields := splitOn ',' (arguments.text "collective" "all_reduce").toList
  ((fields.map trim).filter (· ≠ [])).map String.ofList

/-- The ranks that an optional list names. -/
def ranks (arguments : Arguments) (option name : String) (worldSize : Nat) :
    Outcome (List Nat) :=
  match arguments.lookup option with
  | some text => readRankList name worldSize text
  | none => .ok []

/-- The split of an optional list. -/
def split (arguments : Arguments) (option : String) : Outcome (Option (List Nat)) :=
  match arguments.lookup option with
  | some text => readSplit text
  | none => .ok none

/-- The number of ranks: as given, else as the launcher says, else two. -/
def worldSize (arguments : Arguments) (launcher : Launcher) : Nat :=
  (arguments.number? "world-size").getD (launcher.worldSize.getD 2)

/-- The parameters that a command line asks for in a launcher's world. -/
def params (arguments : Arguments) (launcher : Launcher) : Outcome Params := do
  let backend := arguments.text "backend" "local"
  if backend ≠ "local" then
    throw (.configuration ("unknown backend " ++ quoted backend ++ ", available: [\"local\"]"))
  let worldSize := arguments.worldSize launcher
  if worldSize = 0 then throw (.invalidWorldSize 0)
  let beginSize ← readSize (arguments.text "b" "8")
  let endSize ← readSize (arguments.text "e" "256")
  let type ← ElementType.read (arguments.text "dtype" "float32")
  let sources ← arguments.ranks "src-ranks" "src_ranks" worldSize
  let destinations ← arguments.ranks "dst-ranks" "dst_ranks" worldSize
  let inSplit ← arguments.split "i"
  let outSplit ← arguments.split "o"
  let reduction ← Reduction.read (arguments.text "op" "sum")
  return {
    backend, beginSize, endSize, type, sources, destinations, inSplit, outSplit, reduction
    device := arguments.text "device" "cpu"
    stepFactor := arguments.number "f" 2
    stepBytes := arguments.number "sb" 0
    iterations := arguments.number "n" 5
    warmups := arguments.number "w" 5
    collectives := arguments.collectives
    root := arguments.number "root" 0
    blocking := arguments.number "z" 1 ≠ 0
    validate := arguments.number "c" 0 ≠ 0
    bitwidth := arguments.number "bitwidth" 32
    quantDim := arguments.number "quant-a2a-embedding-dim" 32
    quantThreshold := arguments.number "quant-threshold" 33554432
    reuse := (arguments.lookup "no-reuse").isNone
    seed := arguments.number "seed" 0
    timeoutMs := 1000 * arguments.number "timeout-secs" 30
    kernel := (arguments.lookup "kernel").bind Kernel.ofTag?
    computeRuns := arguments.number "num-compute" 100
    callsPerIteration := arguments.number "num-coll" 1
    matrixDim := arguments.number "mm-dim" 100
    embeddingDim := arguments.number "emb-dim" 128
    tableRows := arguments.number "num-embs" 1000
    batchSize := arguments.number "batch-size" 64
    bagSize := arguments.number "bag-size" 20
    tablesPerDevice := arguments.number "num-emb-tables-per-device" 8
    tablesBatched := arguments.tablesBatched
    launcher := { launcher with worldSize := some worldSize } }

/-- The path that the report is to be written to. -/
def reportPath (arguments : Arguments) : Option String := arguments.lookup "output-json"

end Arguments

end CollectiveBench
