import CollectiveBench.Numeric.Format

/-!
# Element types

A tensor holds elements of one of eight types: four floating-point formats, two signed
integers, an unsigned byte and a truth value in one byte. A type has two names: the long one
that command lines and tables use, with its accepted spellings, and the short one that
descriptors and report files use.
-/

namespace CollectiveBench

open Numeric

/-- The type of a tensor's elements. The constructors are in the order of their codes. -/
inductive ElementType where
  | f32 | f64 | f16 | bf16 | i32 | i64 | u8 | bool
deriving DecidableEq, Repr, Inhabited

namespace ElementType

/-- All element types in the order of their codes. -/
def all : List ElementType := [.f32, .f64, .f16, .bf16, .i32, .i64, .u8, .bool]

/-- The number that stands for the type. -/
def code (type : ElementType) : Nat := all.idxOf type

/-- Bytes of one element. -/
def size : ElementType → Nat
  | .f32 | .i32 => 4
  | .f64 | .i64 => 8
  | .f16 | .bf16 => 2
  | .u8 | .bool => 1

/-- The format of a floating-point type. -/
def format? : ElementType → Option Format
  | .f32 => some .binary32
  | .f64 => some .binary64
  | .f16 => some .binary16
  | .bf16 => some .bfloat16
  | _ => none

/-- Whether the type is a floating-point type. -/
def isFloat (type : ElementType) : Bool := type.format?.isSome

/-- The long name. -/
def name : ElementType → String
  | .f32 => "float32"
  | .f64 => "float64"
  | .f16 => "float16"
  | .bf16 => "bfloat16"
  | .i32 => "int32"
  | .i64 => "long"
  | .u8 => "byte"
  | .bool => "bool"

/-- The short name. -/
def tag : ElementType → String
  | .f32 => "f32"
  | .f64 => "f64"
  | .f16 => "f16"
  | .bf16 => "bf16"
  | .i32 => "i32"
  | .i64 => "i64"
  | .u8 => "u8"
  | .bool => "bool"

/-- Every spelling of a long name. -/
def spellings : List (String × ElementType) :=
  [("float32", .f32), ("Float", .f32), ("int32", .i32), ("Int", .i32), ("long", .i64),
   ("Long", .i64), ("float16", .f16), ("Half", .f16), ("bfloat16", .bf16),
   ("float64", .f64), ("Double", .f64), ("bool", .bool), ("Bool", .bool), ("Byte", .u8),
   ("byte", .u8)]

/-- The spellings that help texts list. The lower-case `byte` is accepted all the same. -/
def listedSpellings : List String :=
  ["float32", "int32", "long", "float16", "bfloat16", "float64", "bool", "Float", "Int",
   "Long", "Double", "Half", "Bool", "Byte"]

/-- The type with a given spelling of its long name. -/
def ofName? (text : String) : Option ElementType := spellings.lookup text

/-- The type with a given short name. -/
def ofTag? (text : String) : Option ElementType := all.find? (·.tag = text)

/-- Every listed spelling is accepted. -/
example : listedSpellings.all fun text => (ofName? text).isSome := by decide

/-- The short name determines the type. -/
theorem ofTag?_tag (type : ElementType) : ofTag? type.tag = some type := by
  cases type <;> decide

/-- An element has at least one byte. -/
theorem size_pos (type : ElementType) : 0 < type.size := by
  cases type <;> decide

end ElementType

end CollectiveBench
