import CollectiveBench.Proofs.Exchange.Resolution

/-!
# Whole runs end each round once

The log of a run has, for each event, those who departed with it. In every entry of the log they
are a whole group with one list, or a call that timed out together with the others of its round
(`History.parting`). A round of one key therefore completes at most once in a run, and nobody
departs from a round of that key in any other way, before or after (`History.completes_once`):
each member has one call of that number, and the completed round had them all.
-/

namespace CollectiveBench

variable [Arithmetic]

namespace Exchange

/-- Those who leave the rounds of a key with one event: nobody, a whole group with one list, or a
call that timed out and the others of its round, in which a member was missing. -/
inductive Parting (world : World) (key : RoundKey) : List Departure → Prop where
  | nobody : Parting world key []
  | together {everyone : List Waiting} {all : List Contribution}
      (keys : ∀ entry ∈ everyone, entry.key = key)
      (members : (everyone.map Waiting.rank).Perm (world.members key.group)) :
      Parting world key (everyone.map (⟨·, .handed all⟩))
  | broken {first : Waiting} {others : List Waiting}
      (keys : ∀ entry ∈ first :: others, entry.key = key)
      (short : others.length + 1 < (world.members key.group).length) :
      Parting world key (⟨first, .timedOut⟩ :: others.map (⟨·, .abandoned⟩))

variable {start exchange : Exchange} {events : List Event} {log : List (List Departure)}
  {clock : Nat}

omit [Arithmetic] in
/-- Whoever has entered a round has its key. -/
theorem key_of_mem_entered {event : Event} {key : RoundKey} {entry : Waiting}
    (member : entry ∈ exchange.entered event key) : entry.key = key := by
  rcases List.mem_append.mp member with waits | arrives
  · exact (mem_depositors.mp waits).2
  · simpa using (List.mem_filter.mp arrives).2

/-- Those who depart with an event part as one round. -/
theorem History.parting (rest : start.AtRest) (history : History start events log clock exchange)
    {event : Event} (permitted : exchange.Permits event) :
    ∃ key, Parting start.world key (exchange.departures event) := by
  have ledger := history.ledger rest
  have world := ledger.world
  cases leaving : exchange.departures event with
  | nil => exact ⟨⟨0, 0⟩, .nobody⟩
  | cons departure others =>
    have departs : departure ∈ exchange.departures event := by simp [leaving]
    refine ⟨departure.entry.key, ?_⟩
    rw [← leaving, ← world]
    rcases history.closes rest permitted departs with ⟨all, completes⟩ | ⟨first, abandoned, expires⟩
    · rw [completes.departures]
      exact .together (fun _ => key_of_mem_entered) completes.members
    · rw [expires.departures]
      refine .broken (fun entry member => ?_) expires.short
      rw [← expires.opener] at member
      exact key_of_mem_entered member

/-- In every entry of the log, those who departed parted as one round. -/
theorem History.partings (rest : start.AtRest)
    (history : History start events log clock exchange) :
    ∀ departing ∈ log, ∃ key, Parting start.world key departing := by
  induction history with
  | start => simp
  | step earlier event onward permitted inductionHypothesis =>
    intro departing logged
    rcases List.mem_append.mp logged with before | last
    · exact inductionHypothesis departing before
    · rw [List.mem_singleton.mp last]
      exact earlier.parting rest permitted

/-- No rank departs twice from rounds of one key. -/
theorem History.departs_once (rest : start.AtRest)
    (history : History start events log clock exchange) {i j : Nat}
    {departing others : List Departure} (here : log[i]? = some departing)
    (there : log[j]? = some others) {departure other : Departure}
    (departs : departure ∈ departing) (otherDeparts : other ∈ others)
    (rank : departure.entry.rank = other.entry.rank) (key : departure.entry.key = other.entry.key) :
    i = j := by
  have distinct := (history.ledger rest).distinct
  rw [List.map_append, List.map_map, List.map_flatten] at distinct
  have apart := List.pairwise_map.mp
    (List.nodup_flatten.mp (List.nodup_append.mp distinct).1).2
  obtain ⟨iBound, rfl⟩ := List.getElem?_eq_some_iff.mp here
  obtain ⟨jBound, rfl⟩ := List.getElem?_eq_some_iff.mp there
  have same : (departure.entry.rank, departure.entry.key) =
      (other.entry.rank, other.entry.key) := Prod.ext rank key
  have left := List.mem_map_of_mem (f := fun leaver : Departure =>
    (leaver.entry.rank, leaver.entry.key)) departs
  have right := List.mem_map_of_mem (f := fun leaver : Departure =>
    (leaver.entry.rank, leaver.entry.key)) otherDeparts
  rcases Nat.lt_trichotomy i j with before | equal | after
  · exact absurd (same ▸ right) (List.pairwise_iff_getElem.mp apart i j iBound jBound before left)
  · exact equal
  · exact absurd (same ▸ left) (List.pairwise_iff_getElem.mp apart j i jBound iBound after right)

/-- A key completes at most once in a run, and whoever departs from a round of that key, at any
time in the run, is handed the list of the completed one. -/
theorem History.completes_once (rest : start.AtRest)
    (history : History start events log clock exchange) {i j : Nat}
    {departing others : List Departure} (here : log[i]? = some departing)
    (there : log[j]? = some others) {departure other : Departure}
    (departs : departure ∈ departing) (otherDeparts : other ∈ others)
    {all : List Contribution} (handed : departure.fate = .handed all)
    (key : other.entry.key = departure.entry.key) :
    i = j ∧ other.fate = .handed all := by
  obtain ⟨shared, parting⟩ := history.partings rest departing (List.mem_of_getElem? here)
  cases parting with
  | nobody => simp at departs
  | broken keys short =>
    rcases List.mem_cons.mp departs with rfl | abandoned
    · cases handed
    · obtain ⟨_, _, rfl⟩ := List.mem_map.mp abandoned
      cases handed
  | @together everyone _ keys members =>
    obtain ⟨entry, member, rfl⟩ := List.mem_map.mp departs
    obtain rfl := Fate.handed.inj handed
    -- The group of the other call is the completed one, so its rank was in the completed round.
    have listed : other.entry ∈ log.flatten.map Departure.entry ++ exchange.waiting :=
      List.mem_append_left _ (List.mem_map_of_mem
        (List.mem_flatten_of_mem (List.mem_of_getElem? there) otherDeparts))
    have place := World.getElem?_positionIn ((history.ledger rest).recorded _ listed).place
    rw [key, keys entry member] at place
    obtain ⟨own, present, rank⟩ :=
      List.mem_map.mp (members.mem_iff.mpr (List.mem_of_getElem? place))
    have same := history.departs_once rest here there (List.mem_map_of_mem present) otherDeparts
      rank ((keys own present).trans (key.trans (keys entry member)).symm)
    subst same
    refine ⟨rfl, ?_⟩
    obtain rfl := Option.some.inj (here.symm.trans there)
    obtain ⟨_, _, rfl⟩ := List.mem_map.mp otherDeparts
    rfl

end Exchange

end CollectiveBench
