import CollectiveBench.Launcher
import CollectiveBench.Reduction
import CollectiveBench.Sweep

/-!
# Parameters

The parameters of a run, their defaults, and the checks that a run must pass before anything
is staged. The checks stop at the first fault. Quantised communication has conditions of its
own, and one of them only warns.
-/

namespace CollectiveBench

open Numeric Text

/-- Work that a run can interleave with its collectives. -/
inductive Kernel where
  | gemm | embeddingLookup
deriving DecidableEq, Repr

namespace Kernel

/-- The name of a kernel. -/
def tag : Kernel → String
  | .gemm => "gemm"
  | .embeddingLookup => "emb_lookup"

/-- The kernel with a given name. -/
def ofTag? (text : String) : Option Kernel := [gemm, embeddingLookup].find? (·.tag = text)

end Kernel

/-- The parameters of a run. -/
structure Params where
  backend : String := "local"
  device : String := "cpu"
  /-- The first and the last message size in bytes. -/
  beginSize : Nat := 8
  endSize : Nat := 256
  stepFactor : Nat := 2
  /-- The step between sizes; zero bytes mean the step factor. -/
  stepBytes : Nat := 0
  iterations : Nat := 5
  warmups : Nat := 5
  type : ElementType := .f32
  /-- Operations by name, in the order of measurement. -/
  collectives : List String := ["all_reduce"]
  root : Nat := 0
  sources : List Nat := []
  destinations : List Nat := []
  inSplit : Option (List Nat) := none
  outSplit : Option (List Nat) := none
  blocking : Bool := true
  /-- Whether results are validated. -/
  validate : Bool := false
  /-- What validated inputs hold. -/
  initial : Scalar := .one
  reduction : Reduction := .sum
  bitwidth : Nat := 32
  quantDim : Nat := 32
  quantThreshold : Nat := 33554432
  /-- Whether iterations keep the buffers of the one before. -/
  reuse : Bool := true
  seed : Nat := 0
  timeoutMs : Nat := 30000
  kernel : Option Kernel := none
  computeRuns : Nat := 100
  callsPerIteration : Nat := 1
  matrixDim : Nat := 100
  embeddingDim : Nat := 128
  tableRows : Nat := 1000
  batchSize : Nat := 64
  bagSize : Nat := 20
  tablesPerDevice : Nat := 8
  /-- Tables that are looked up together; nothing means all of them. -/
  tablesBatched : Option Nat := none
  launcher : Launcher := {}
deriving DecidableEq, Repr

namespace Params

/-- The parameters with the timeout and the seed that an environment asks for. -/
def withOverrides (params : Params) (environment : Environment) : Params :=
  let number (name : String) : Option Nat :=
    (environment.lookup name).bind fun text => unsigned? bound64 text.toList
  let timeoutMs := (number "COMMBENCH_COLLECTIVE_TIMEOUT_SECS").map (1000 * ·)
  { params with
    timeoutMs := timeoutMs.getD params.timeoutMs
    seed := (number "COMMBENCH_SEED").getD params.seed }

/-- The operations that the names stand for. -/
def operations (params : Params) : Outcome (List Operation) :=
  params.collectives.mapM (Operation.resolve Operation.all)

/-- The message sizes as the parameters give them. -/
def sizes (params : Params) : List Nat × List Notice :=
  Sweep.sizes params.beginSize params.endSize params.stepFactor params.stepBytes

/-- Whether communication is to be quantised. -/
def isQuantized (params : Params) : Bool := params.bitwidth < 32

/-- Tables in a batch of lookups. -/
def batchTables (params : Params) : Nat := max (params.tablesBatched.getD params.tablesPerDevice) 1

/-- Batches of lookups in a run of the kernel. -/
def lookups (params : Params) : Nat := params.tablesPerDevice / params.batchTables

/-- Operations that can be quantised. -/
def quantizable : List Operation := [.allToAll, .allToAllv, .reduce, .allReduce]

/-- Whether the operation exchanges a block between any two ranks. -/
def exchangesBlocks (operation : Operation) : Bool :=
  operation = .allToAll || operation = .allToAllv

/-- The warning for a first size that the quantised dimension does not divide. -/
def alignmentNotices (params : Params) : List Notice :=
  if params.quantDim = 0 ∨ params.beginSize / 4 % params.quantDim ≠ 0 then
    [⟨.warning, "begin size should be a multiple of the quant all-to-all embedding dim"⟩]
  else []

/-- Checks the operations of a quantised run one after the other, then the element type. -/
def checkQuantizedOperations (params : Params) : List Operation → Outcome Unit × List Notice
  | [] =>
    (if params.type = .f32 then .ok ()
      else .error (.unsupportedQuantization
        ("quantization for " ++ params.type.name ++ " is not supported, use float32 instead")),
      [])
  | operation :: rest =>
    if operation ∉ quantizable then
      (.error (.unsupportedQuantization
        ("quantized communication for " ++ operation.name ++ " is currently unsupported")), [])
    else if exchangesBlocks operation then
      if params.blocking then
        let (outcome, notices) := checkQuantizedOperations params rest
        (outcome, params.alignmentNotices ++ notices)
      else
        (.error (.unsupportedQuantization "quantized all_to_all must be synchronous"),
          params.alignmentNotices)
    else checkQuantizedOperations params rest

/-- Checks what quantised communication asks for. -/
def checkQuantization (params : Params) : Outcome Unit × List Notice :=
  if params.isQuantized then
    match params.operations with
    | .ok operations => params.checkQuantizedOperations operations
    | .error error => (.error error, [])
  else (.ok (), [])

/-- A split has one entry for each rank of the launcher's world. -/
def checkSplit (worldSize : Nat) : Option (List Nat) → Outcome Unit
  | none => .ok ()
  | some split =>
    if split.length = worldSize then .ok ()
    else .error (.splitMismatch Operation.allToAllv.name split (total split) worldSize)

/-- All checks but those for quantisation. -/
def checkConsistency (params : Params) : Outcome Unit := do
  if params.collectives.isEmpty then
    throw (.configuration "no collective requested")
  let _ ← params.operations
  if params.endSize < params.beginSize then
    throw (.configuration ("begin size " ++ toString params.beginSize ++ " exceeds end size "
      ++ toString params.endSize))
  if params.stepBytes = 0 ∧ params.stepFactor < 2 ∧ params.beginSize ≠ params.endSize then
    throw (.configuration ("step factor must be at least 2 without a byte step, got "
      ++ toString params.stepFactor))
  if params.validate ∧ params.reduction ≠ .sum then
    throw (.configuration ("data validation expects a sum reduction, got "
      ++ params.reduction.name))
  match params.launcher.worldSize with
  | some worldSize =>
    checkSplit worldSize params.inSplit
    checkSplit worldSize params.outSplit
  | none => pure ()
  if params.kernel.isSome ∧ params.callsPerIteration = 0 then
    throw (.configuration "--num-coll must be positive when a kernel is set")
  match params.tablesBatched with
  | some batched =>
    if batched = 0 ∨ params.tablesPerDevice % batched ≠ 0 then
      throw (.configuration (toString params.tablesPerDevice
        ++ " tables per device cannot be batched in groups of " ++ toString batched))
  | none => pure ()

/-- All checks. -/
def check (params : Params) : Outcome Unit × List Notice :=
  match params.checkConsistency with
  | .ok () => params.checkQuantization
  | .error error => (.error error, [])

end Params

end CollectiveBench
