import CollectiveBench.ElementType
import CollectiveBench.Numeric.Notation
import CollectiveBench.Text.Columns
import CollectiveBench.Text.Quoted

/-!
# Errors and notices

Everything that can go wrong is one `Error`, which names its cause; `message` gives the
wording. `isConfiguration` tells mistakes in the request, which no repetition can heal, from
failures of a run. A `Defect` is a precondition that a caller broke, such as an element
index outside of a tensor; no message belongs to it.

Warnings do not stop anything, so functions return them beside their result as `Notice`s.
-/

namespace CollectiveBench

open Numeric Text

/-- A broken precondition. -/
inductive Defect where
  /-- An element, slot or contribution that does not exist was asked for. -/
  | indexOutOfRange (index size : Nat)
  /-- A size was divided by an element size or a number of ranks that is zero. -/
  | divisionByZero
  /-- A measured time left the range of the clock. -/
  | clockOverflow
  /-- A task stopped without an outcome. -/
  | crashed
  /-- A count or the size of a buffer left the range of the machine. -/
  | overflow
deriving DecidableEq, Repr

/-- The cause of a failure. -/
inductive Error where
  | unsupportedCollective (name : String) (supported : List String)
  | unknownElementType (text : String)
  | unsupportedElementType (type : ElementType) (operation : String)
  | invalidSize (text : String)
  | invalidRankList (name text : String)
  | indivisibleCount (count worldSize : Nat) (operation : String)
  | splitMismatch (operation : String) (splits : List Nat) (count worldSize : Nat)
  | invalidWorldSize (worldSize : Nat)
  | unsupportedQuantization (reason : String)
  | validationFailed (sizeBytes : Nat) (operation location : String) (actual expected : Scalar)
  | peerValidationFailed (sizeBytes : Nat) (operation : String)
  | bufferSizeMismatch (expected actual : Nat)
  | unknownGroup (group : Nat)
  | invalidRank (rank worldSize : Nat)
  | collectiveFailed (operation : String) (rank : Nat) (reason : String)
  | collectiveTimeout (operation : String) (round timeoutMs : Nat)
  | unknownRequest (request : Nat)
  | taskFailed (reason : String)
  | lockPoisoned (name : String)
  | configuration (reason : String)
  | inputOutput (reason : String)
  | json (reason : String)
  | defect (defect : Defect)
deriving DecidableEq, Repr

namespace Error

/-- Names in quotes between square brackets. -/
def quotedList (names : List String) : String := bracketed ", " (names.map quoted)

/-- The wording of an error. -/
def message : Error → String
  | .unsupportedCollective name supported =>
    name ++ " is not a supported communication! Supported comms: " ++ quotedList supported
  | .unknownElementType text => "unknown data type: " ++ text
  | .unsupportedElementType type operation =>
    "unsupported data type: " ++ type.name ++ " for operation " ++ operation
  | .invalidSize text => "could not parse input size " ++ text
  | .invalidRankList name text => "could not parse " ++ name ++ ": " ++ text
  | .indivisibleCount count worldSize operation =>
    "count " ++ toString count ++ " is not evenly divisible by world size "
      ++ toString worldSize ++ " (required by " ++ operation ++ ")"
  | .splitMismatch operation splits count worldSize =>
    operation ++ ": split sizes " ++ bracketed ", " (splits.map toString)
      ++ " do not describe " ++ toString count ++ " elements over " ++ toString worldSize
      ++ " ranks"
  | .invalidWorldSize worldSize => "invalid world size " ++ toString worldSize
  | .unsupportedQuantization reason => "unsupported quantization: " ++ reason
  | .validationFailed sizeBytes operation location actual expected =>
    "[" ++ toString sizeBytes ++ "-bytes " ++ operation ++ "] Wrong value at " ++ location
      ++ " = " ++ actual.plain ++ ", expected " ++ expected.plain
  | .peerValidationFailed sizeBytes operation =>
    "[" ++ toString sizeBytes ++ "-bytes " ++ operation ++ "] validation failed on another rank"
  | .bufferSizeMismatch expected actual =>
    "buffer size mismatch: expected " ++ toString expected ++ " elements, got " ++ toString actual
  | .unknownGroup group =>
    "process group " ++ toString group ++ " is not known to this backend"
  | .invalidRank rank worldSize =>
    "invalid rank " ++ toString rank ++ ": world size is " ++ toString worldSize
  | .collectiveFailed operation rank reason =>
    operation ++ " failed at rank " ++ toString rank ++ ": " ++ reason
  | .collectiveTimeout operation round timeoutMs =>
    operation ++ " timed out after " ++ toString timeoutMs ++ "ms (round " ++ toString round ++ ")"
  | .unknownRequest request => "no outstanding request with id " ++ toString request
  | .taskFailed reason => "collective task failed: " ++ reason
  | .lockPoisoned name => "internal lock poisoned: " ++ name
  | .configuration reason => "configuration error: " ++ reason
  | .inputOutput reason => "I/O error: " ++ reason
  | .json reason => "JSON error: " ++ reason
  | .defect _ => "broken precondition"

/-- Whether the error is a mistake in the request. -/
def isConfiguration : Error → Bool
  | .unsupportedCollective .. | .unknownElementType .. | .unsupportedElementType ..
  | .invalidSize .. | .invalidRankList .. | .indivisibleCount .. | .splitMismatch ..
  | .invalidWorldSize .. | .unsupportedQuantization .. | .unknownGroup ..
  | .configuration .. => true
  | _ => false

end Error

/-- The result of something that can fail. -/
abbrev Outcome (α : Type) := Except Error α

/-- The element type with a given spelling of its long name. -/
def ElementType.read (text : String) : Outcome ElementType :=
  match ElementType.ofName? text with
  | some type => .ok type
  | none => .error (.unknownElementType text)

/-- How grave a notice is. -/
inductive Level where
  | warning | error
deriving DecidableEq, Repr

/-- Something worth telling that stops nothing. -/
structure Notice where
  level : Level
  text : String
deriving DecidableEq, Repr

/-- The line of a notice in a log. -/
def Notice.line (notice : Notice) : String :=
  (match notice.level with
    | .warning => "WARN "
    | .error => "ERROR ") ++ notice.text

end CollectiveBench
