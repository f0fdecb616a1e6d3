/-!
# Streams

Work on a device runs on its current stream, which is the default one or one that was
created. A guard switches the stream for as long as it lives: it remembers the stream that
was current before and restores it when it is left. Guards that are left in the reverse order
of entering therefore nest.
-/

namespace CollectiveBench

/-- The streams of a device. `none` is the default stream. -/
structure Streams where
  current : Option Nat := none
  /-- The number of the next stream to be created. -/
  next : Nat := 1
deriving DecidableEq, Repr

/-- What a guard remembers. -/
structure StreamGuard where
  previous : Option Nat
deriving DecidableEq, Repr

namespace Streams

/-- A new stream. -/
def create (streams : Streams) : Nat × Streams :=
  (streams.next, { streams with next := streams.next + 1 })

/-- Makes a stream the current one and gives the one before it. -/
def switch (streams : Streams) (stream : Option Nat) : Option Nat × Streams :=
  (streams.current, { streams with current := stream })

/-- Makes a stream the current one until the guard is left. -/
def enter (streams : Streams) (stream : Option Nat) : StreamGuard × Streams :=
  let (previous, streams) := streams.switch stream
  (⟨previous⟩, streams)

/-- Restores the stream that a guard remembers. -/
def leave (streams : Streams) (guard : StreamGuard) : Streams :=
  (streams.switch guard.previous).2

/-- The name of a stream. -/
def label (stream : Nat) : String := "stream#" ++ toString stream

end Streams

end CollectiveBench
