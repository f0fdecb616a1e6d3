import CollectiveBench.Element

/-!
# Random values

Buffers that no one checks are filled with random values. Where they come from is left open: a
`Source` draws numbers from a state that follows from a seed, and all that is asked of it is that a
number that was to be below a bound is. Equal seeds give equal values. Floating-point elements are
uniform in the unit interval and then divided by a scale, integers are decimal digits and truth
values are coin tosses.
-/

namespace CollectiveBench

open Numeric

/-- A source of random numbers. Each draw takes a state and leaves the next one. -/
structure Source where
  /-- The state that a seed leads to. -/
  start : Nat → Nat
  /-- A number of the unit interval; one is left out. -/
  unit : Nat → Scalar × Nat
  /-- A decimal digit. -/
  digit : Nat → Nat × Nat
  /-- A toss of a coin. -/
  coin : Nat → Bool × Nat
  /-- A number below a bound. -/
  below : Nat → Nat → Nat × Nat
  below_lt : ∀ bound state, 0 < bound → (below bound state).1 < bound

namespace Source

/-- Sixty-four random bits: a counter with a large odd step, whose bits are mixed before use. -/
def mix (state : Nat) : UInt64 × Nat :=
  let state := UInt64.ofNat state + 0x9e3779b97f4a7c15
  let mixed := (state ^^^ (state >>> 30)) * 0xbf58476d1ce4e5b9
  let mixed := (mixed ^^^ (mixed >>> 27)) * 0x94d049bb133111eb
  (mixed ^^^ (mixed >>> 31), state.toNat)

/-- A source that counts modulo `2 ^ 64`. -/
def counter : Source where
  start seed := (UInt64.ofNat seed).toNat
  unit state := (.ofValue (.finite false ((mix state).1 >>> 11).toNat (-53)), (mix state).2)
  digit state := (((mix state).1 >>> 32).toNat % 10, (mix state).2)
  coin state := ((mix state).1 >>> 63 ≠ 0, (mix state).2)
  below bound state := (((mix state).1 >>> 11).toNat % bound, (mix state).2)
  below_lt _ _ positive := Nat.mod_lt _ positive

end Source

/-- A source with its state. -/
structure Generator where
  source : Source
  state : Nat

namespace Generator

/-- The generator of a seed. -/
def ofSeed (seed : Nat) (source : Source := .counter) : Generator := ⟨source, source.start seed⟩

/-- A number of the unit interval. -/
def unit (generator : Generator) : Scalar × Generator :=
  let (number, state) := generator.source.unit generator.state
  (number, { generator with state })

/-- A value for an element of a type. A scale of zero or one changes nothing. -/
def value (type : ElementType) (scale : Scalar) (generator : Generator) : Scalar × Generator :=
  if type = .bool then
    let (heads, state) := generator.source.coin generator.state
    (if heads then .one else .zero, { generator with state })
  else if type.isFloat then
    let (number, generator) := generator.unit
    (if scale.beq .zero ∨ scale = .one then number else number / scale, generator)
  else
    let (digit, state) := generator.source.digit generator.state
    (.ofNat digit, { generator with state })

/-- The words of `count` elements of a type. -/
def words [Halves] (type : ElementType) (scale : Scalar) :
    Nat → Generator → List Nat × Generator
  | 0, generator => ([], generator)
  | count + 1, generator =>
    let (value, generator) := generator.value type scale
    let (rest, generator) := words type scale count generator
    (type.encode value :: rest, generator)

/-- `count` numbers below `bound`. -/
def indices (bound : Nat) : Nat → Generator → List Nat × Generator
  | 0, generator => ([], generator)
  | count + 1, generator =>
    let (index, state) := generator.source.below bound generator.state
    let (rest, generator) := indices bound count { generator with state }
    (index :: rest, generator)

end Generator

end CollectiveBench
