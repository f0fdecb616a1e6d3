import CollectiveBench.Call
import CollectiveBench.Text.Hexadecimal

/-!
# Requests

Whatever a run asks of its device and of its group is a request. The requests of a rank, each
with the stream that was current, are the trace of its run. This module also says how a trace
is written.
-/

namespace CollectiveBench

open Numeric Text

/-- Something that a run asks for. -/
inductive Request where
  | start
  | complete
  | clear
  | random (type : ElementType) (count : Nat) (scale : Scalar)
  | ones (type : ElementType) (count : Nat) (value : Scalar)
  | product (left right dimension : Nat)
  | lookup (table dimension indices : Nat) (inRange : Bool) (offsets : List Nat)
  | collective (call : Call)

/-- A request and the stream that was current. -/
structure TraceEntry where
  request : Request
  stream : Option Nat

namespace Request

/-- The type and the number of elements of a tensor. -/
def shapeOf (tensor : Tensor) : String := tensor.type.tag ++ ":" ++ toString tensor.count

/-- The shapes of a buffer. -/
def bufferShape : Staged → String
  | .single tensor => shapeOf tensor
  | .list tensors => bracketed "," (tensors.map shapeOf)

/-- Numbers between brackets. -/
def numbers (values : List Nat) : String := bracketed "," (values.map toString)

/-- The sixteen hexadecimal digits of a scalar's word; what is no number has one text. -/
def wordText (scalar : Scalar) : String :=
  if scalar.isNaN then "nan" else hexDigits 16 scalar.word

/-- What a call asks for. -/
def callText (call : Call) : String :=
  call.operation.name ++ " " ++ call.reduction.name ++ " root=" ++ toString call.root
    ++ " group=" ++ toString call.group ++ " src=" ++ numbers call.sources
    ++ " dst=" ++ numbers call.destinations ++ " in=" ++ bufferShape call.buffers.input
    ++ " out=" ++ (call.buffers.output.map bufferShape).getD "-"
    ++ " splits=" ++ (call.buffers.inSplit.map numbers).getD "-"
    ++ "/" ++ (call.buffers.outSplit.map numbers).getD "-"

/-- What is asked for. -/
def line : Request → String
  | .start => "initialize"
  | .complete => "complete"
  | .clear => "clear"
  | .random type count scale =>
    "random " ++ type.tag ++ ":" ++ toString count ++ " scale=" ++ wordText scale
  | .ones type count value =>
    "ones " ++ type.tag ++ ":" ++ toString count ++ " scale=" ++ wordText value
  | .product left right dimension =>
    "gemm " ++ toString left ++ " " ++ toString right ++ " " ++ toString dimension
  | .lookup table dimension indices inRange offsets =>
    "emb " ++ toString table ++ " " ++ toString dimension ++ " " ++ toString indices
      ++ " in_range=" ++ toString inRange ++ " offsets=" ++ numbers offsets
  | .collective call => callText call

end Request

/-- The line of a trace entry. -/
def TraceEntry.line (entry : TraceEntry) : String :=
  entry.request.line ++ " stream=" ++ (entry.stream.map toString).getD "-"

end CollectiveBench
