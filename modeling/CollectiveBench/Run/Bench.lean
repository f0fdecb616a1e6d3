import CollectiveBench.Run.Agenda
import CollectiveBench.Run.Tampering

/-!
# Benches

A bench is everything that the ranks of a run have in common: the parameters, the world and
what its backend can do. Before a run it checks the parameters and resolves the operations,
the two that it needs for itself among them. Every rank makes the same checks, so either all
ranks begin the agenda or none does.
-/

namespace CollectiveBench

/-- What the ranks of a run have in common. -/
structure Bench where
  params : Params
  world : World
  /-- The name of the backend. -/
  backend : String := "local"
  supported : List Operation := Operation.all
  /-- Whether the backend can quantise communication. -/
  quantizes : Bool := false
  tampering : Tampering := {}
deriving DecidableEq, Repr

namespace Bench

/-- The number of ranks. -/
def worldSize (bench : Bench) : Nat := bench.world.size

/-- The width of the bits that travel. A backend that cannot quantise uses all of them, and
says so. -/
def bitwidth (bench : Bench) : Nat × List Notice :=
  if bench.params.isQuantized ∧ !bench.quantizes then
    (32, [⟨.warning, "backend has no quantized communication, falling back to 32-bit"⟩])
  else (bench.params.bitwidth, [])

/-- The operations to measure. Latencies are collected with one operation of their own and
the outcomes of checks with another, which the backend must support as well. -/
def operations (bench : Bench) : Outcome (List Operation) := do
  let operations ← bench.params.collectives.mapM (Operation.resolve bench.supported)
  let _ ← Operation.resolve bench.supported Operation.allGatherBase.name
  if bench.params.validate then
    let _ ← Operation.resolve bench.supported Operation.allReduce.name
  return operations

/-- The operations to measure if the parameters are in order, and what every rank has to say
about them. -/
def resolve (bench : Bench) : Outcome (List Operation) × List Notice :=
  match bench.params.check with
  | (.error error, notices) => (.error error, notices)
  | (.ok (), notices) =>
    match bench.operations with
    | .error error => (.error error, notices)
    | .ok operations => (.ok operations, notices ++ bench.bitwidth.2)

/-- The message sizes of an operation, from the first one that gives every rank an element,
and what is odd about them. -/
def sizes (bench : Bench) (operation : Operation) : List Nat × List Notice :=
  let params := bench.params
  match Sweep.firstSize params.beginSize operation params.type.size bench.worldSize
      bench.bitwidth.1 params.quantDim with
  | .ok first => Sweep.sizes first params.endSize params.stepFactor params.stepBytes
  | .error _ => ([], [])

/-- The agenda for some operations. -/
def agenda (bench : Bench) (operations : List Operation) : List Action :=
  Agenda.ofSweeps bench.params (operations.map fun operation => (operation, bench.sizes operation))

end Bench

end CollectiveBench
