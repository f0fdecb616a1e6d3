import CollectiveBench.Text.Blank
import CollectiveBench.Text.Numeral

/-!
# Launchers

A launcher tells a process its place through environment variables, and each launcher has
names of its own. A number is taken from the first variable of its list that holds an
integer that is not negative; one that does not fit in 32 bits counts for nothing.
-/

namespace CollectiveBench

open Text

/-- Names and values of variables. -/
abbrev Environment := List (String × String)

/-- The place of a process as far as a launcher told it. -/
structure Launcher where
  worldSize : Option Nat := none
  localSize : Option Nat := none
  globalRank : Option Nat := none
  localRank : Option Nat := none
  masterAddress : String := "127.0.0.1"
  masterPort : Nat := 29500
deriving DecidableEq, Repr

namespace Launcher

/-- Variables with the number of processes. -/
def worldSizeNames : List String :=
  ["MV2_COMM_WORLD_SIZE", "OMPI_COMM_WORLD_SIZE", "PMI_SIZE", "WORLD_SIZE"]

/-- Variables with the number of processes on a machine. -/
def localSizeNames : List String :=
  ["LOCAL_SIZE", "MPI_LOCALNRANKS", "MV2_COMM_WORLD_LOCAL_SIZE", "OMPI_COMM_WORLD_LOCAL_SIZE"]

/-- Variables with the rank of the process. -/
def globalRankNames : List String :=
  ["MV2_COMM_WORLD_RANK", "OMPI_COMM_WORLD_RANK", "PMI_RANK", "RANK"]

/-- Variables with the rank of the process on its machine. -/
def localRankNames : List String :=
  ["LOCAL_RANK", "MPI_LOCALRANKID", "MV2_COMM_WORLD_LOCAL_RANK", "OMPI_COMM_WORLD_LOCAL_RANK"]

/-- The 64-bit integers among the values of some variables. -/
def integers (environment : Environment) (names : List String) : List Int :=
  (names.filterMap fun name => environment.lookup name).filterMap fun value =>
    signed? 63 (trim value.toList)

/-- The number that some variables give. -/
def number? (environment : Environment) (names : List String) : Option Nat :=
  ((integers environment names).find? (0 ≤ ·)).bind fun number =>
    if number.toNat < bound32 then some number.toNat else none

/-- What the variables of an environment tell. -/
def ofEnvironment (environment : Environment) : Launcher where
  worldSize := number? environment worldSizeNames
  localSize := number? environment localSizeNames
  globalRank := number? environment globalRankNames
  localRank := number? environment localRankNames
  masterAddress := (environment.lookup "MASTER_ADDR").getD "127.0.0.1"
  masterPort := ((environment.lookup "MASTER_PORT").bind fun number =>
    unsigned? (powerOfTwo 16) number.toList).getD 29500

end Launcher

end CollectiveBench
