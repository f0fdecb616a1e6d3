import CollectiveBench.Json.Printer
import CollectiveBench.Numeric.Notation
import CollectiveBench.Operation

/-!
# Reports

The result of a run: a row for each operation and message size. A report is shown as a table
with fixed columns, or written to a file as JSON.
-/

namespace CollectiveBench

open Numeric Text

/-- Microseconds that an iteration took, over all ranks. -/
structure Latency where
  average : Scalar
  least : Scalar
  greatest : Scalar
deriving DecidableEq, Repr

/-- The latency from a sample of each rank. The sum starts from negative zero, which changes
no sample. -/
def Latency.ofSamples (samples : List Scalar) : Latency :=
  if samples.isEmpty then ⟨.zero, .zero, .zero⟩
  else
    { average := samples.foldl (· + ·) ⟨Format.binary64.withSign true 0⟩ / .ofNat samples.length
      least := samples.foldl Scalar.minimum .infinity
      greatest := samples.foldl Scalar.maximum .negInfinity }

/-- What was measured for one operation and one message size. -/
structure Measurement where
  operation : Operation
  sizeBytes : Nat
  elements : Nat
  type : ElementType
  iterations : Nat
  latency : Latency
  /-- Gigabytes per second. -/
  algorithmic : Scalar
  bus : Scalar
  /-- Nothing when results were not validated. -/
  validated : Option Bool
deriving DecidableEq, Repr

/-- The result of a run. -/
structure Report where
  backend : String
  worldSize : Nat
  blocking : Bool
  bitwidth : Nat
  measurements : List Measurement
deriving DecidableEq, Repr

namespace Report

/-- One line of the table: the first cell stands at the left of its column, the others at
the right. -/
def row (first : String) (cells : List (Nat × String)) : String :=
  alignLeft 20 first
    ++ String.join (cells.map fun (width, text) => " " ++ alignRight width text) ++ "\n"

/-- The titles of the columns. -/
def header : String :=
  row "collective"
    [(12, "size(B)"), (12, "elements"), (9, "dtype"), (12, "avg(us)"), (12, "min(us)"),
     (12, "max(us)"), (12, "algBW(GB/s)"), (12, "busBW(GB/s)"), (6, "check")]

/-- How the outcome of a validation is shown. -/
def verdict : Option Bool → String
  | some true => "ok"
  | some false => "FAIL"
  | none => "-"

/-- The line of a measurement. -/
def line (measurement : Measurement) : String :=
  row measurement.operation.name
    [(12, toString measurement.sizeBytes), (12, toString measurement.elements),
     (9, measurement.type.name), (12, measurement.latency.average.fixed 3),
     (12, measurement.latency.least.fixed 3), (12, measurement.latency.greatest.fixed 3),
     (12, measurement.algorithmic.fixed 3), (12, measurement.bus.fixed 3),
     (6, verdict measurement.validated)]

/-- The report as a table. -/
def table (report : Report) : String :=
  "backend=" ++ report.backend ++ " world_size=" ++ toString report.worldSize ++ " mode="
    ++ (if report.blocking then "blocking" else "non-blocking") ++ " bitwidth="
    ++ toString report.bitwidth ++ "\n" ++ header ++ String.join (report.measurements.map line)

/-- A scalar in a report file. -/
def number (scalar : Scalar) : Json := .number scalar.json.toList

/-- A measurement in a report file. -/
def measurementJson (measurement : Measurement) : Json :=
  .object
    [Json.field "collective" (.text measurement.operation.name),
     Json.field "size_bytes" (.count measurement.sizeBytes),
     Json.field "elements" (.count measurement.elements),
     Json.field "dtype" (.text measurement.type.tag),
     Json.field "iterations" (.count measurement.iterations),
     Json.field "latency" (.object
       [Json.field "avg_us" (number measurement.latency.average),
        Json.field "min_us" (number measurement.latency.least),
        Json.field "max_us" (number measurement.latency.greatest)]),
     Json.field "alg_bw_gbps" (number measurement.algorithmic),
     Json.field "bus_bw_gbps" (number measurement.bus),
     Json.field "validated" (match measurement.validated with
       | some validated => .bool validated
       | none => .null)]

/-- The report as the text of a file. -/
def json (report : Report) : String :=
  String.ofList (Json.pretty 0 (.object
    [Json.field "backend" (.text report.backend),
     Json.field "world_size" (.count report.worldSize),
     Json.field "blocking" (.bool report.blocking),
     Json.field "bitwidth" (.count report.bitwidth),
     Json.field "sizes" (.array (report.measurements.map measurementJson))]))

end Report

end CollectiveBench
