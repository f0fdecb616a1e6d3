import CollectiveBench.Device
import CollectiveBench.Kernel.Embedding
import CollectiveBench.Params

/-!
# Workloads

A run can compute while its collectives are under way. The inputs of the kernel are measured and
prepared once; every iteration then runs the kernel a number of times on a stream of its own.
-/

namespace CollectiveBench

open Numeric

/-- A table with the indices and offsets to look up in it. -/
structure Lookup where
  table : Tensor
  indices : List Nat
  offsets : List Nat

/-- What a kernel works on. -/
inductive KernelInput where
  | product (left right : Tensor) (dimension : Nat)
  | lookups (dimension : Nat) (lookups : List Lookup)

/-- A prepared kernel. -/
structure Workload where
  input : KernelInput
  runs : Nat
  stream : Nat

namespace Workload

/-- What a kernel's inputs measure. -/
inductive Measures where
  | product (count : Nat)
  /-- The rows and the elements of a table, how many indices are looked up in it, and where the bags
  begin. -/
  | lookups (rows cells indices : Nat) (offsets : List Nat)

/-- What the inputs of the kernel measure that the parameters ask for, if they ask for one. -/
def measure [Arithmetic] (params : Params) : Outcome (Option Measures) :=
  match params.kernel with
  | none => return none
  | some .gemm => do
    let count ← Arithmetic.word (params.matrixDim * params.matrixDim)
    return some (.product (← (Device.Filling.random .zero).held .f32 count))
  | some .embeddingLookup => do
    let rows ← Arithmetic.word (params.tableRows * params.batchTables)
    let bags ← Arithmetic.word (params.batchSize * params.batchTables)
    if params.lookups = 0 then return some (.lookups rows 0 0 [])
    let cells ← Arithmetic.word (rows * params.embeddingDim)
    let cells ← (Device.Filling.random .one).held .f32 cells
    let indices ← Arithmetic.word (bags * params.bagSize)
    Arithmetic.items indices 8
    Arithmetic.items bags 8
    let offsets ← (List.range bags).mapM fun bag => Arithmetic.word (bag * params.bagSize)
    return some (.lookups rows cells indices offsets)

/-- Tables with random rows and random indices into them, `count` in all. -/
def prepareLookups [Halves] (rows cells indices : Nat) (offsets : List Nat) :
    Nat → Generator → Device → List Lookup × Device
  | 0, _, device => ([], device)
  | count + 1, generator, device =>
    let (table, device) := device.random cells .f32 .one
    let (indexed, generator) := generator.indices (max rows 1) indices
    let (rest, device) := prepareLookups rows cells indices offsets count generator device
    (⟨table, indexed, offsets⟩ :: rest, device)

/-- Prepares the inputs of a kernel for a rank. -/
def prepareInput [Halves] (params : Params) (rank : Nat) (measures : Measures) (device : Device) :
    KernelInput × Device :=
  match measures with
  | .product count =>
    let (left, device) := device.random count .f32 .zero
    let (right, device) := device.random count .f32 .zero
    (.product left right params.matrixDim, device)
  | .lookups rows cells indices offsets =>
    let generator :=
      Generator.ofSeed (params.seed ^^^ (rank * powerOfTwo 32)) device.generator.source
    let (lookups, device) :=
      prepareLookups rows cells indices offsets params.lookups generator device
    (.lookups params.embeddingDim lookups, device)

/-- Prepares a kernel whose inputs were measured, if there is one. -/
def prepare [Halves] (params : Params) (rank : Nat) (measured : Option Measures) (device : Device) :
    Option Workload × Device :=
  match measured with
  | none => (none, device)
  | some measures =>
    let (input, device) := prepareInput params rank measures device
    let (stream, streams) := device.streams.create
    (some ⟨input, params.computeRuns, stream⟩, { device with streams })

/-- The requests that one run of the kernel makes, with what becomes of each. -/
def requests [Arithmetic] [Halves] (input : KernelInput) : List (Request × Outcome Tensor) :=
  match input with
  | .product left right dimension =>
    [(.product left.count right.count dimension, matrixProduct left right dimension)]
  | .lookups dimension lookups => lookups.map fun lookup =>
    let rows := if dimension = 0 then 0 else lookup.table.count / dimension
    (.lookup lookup.table.count dimension lookup.indices.length
        (lookup.indices.all (· < rows)) lookup.offsets,
      embeddingBags lookup.table dimension lookup.indices lookup.offsets)

/-- Makes requests one after the other until one fails. -/
def perform : List (Request × Outcome Tensor) → Device → Outcome Unit × Device
  | [], device => (.ok (), device)
  | (request, outcome) :: rest, device =>
    let device := device.note request
    match outcome with
    | .ok _ => perform rest device
    | .error error => (.error error, device)

/-- Runs the kernel as often as asked for. -/
def repeated (requests : List (Request × Outcome Tensor)) : Nat → Device → Outcome Unit × Device
  | 0, device => (.ok (), device)
  | runs + 1, device =>
    match perform requests device with
    | (.ok (), device) => repeated requests runs device
    | (.error error, device) => (.error error, device)

/-- Runs the kernel on its stream. The stream from before is restored in any case. -/
def run [Arithmetic] [Halves] (workload : Workload) (device : Device) : Outcome Unit × Device :=
  let (guard, streams) := device.streams.enter (some workload.stream)
  let (outcome, device) :=
    repeated (requests workload.input) workload.runs { device with streams }
  (outcome, { device with streams := device.streams.leave guard })

end Workload

end CollectiveBench
