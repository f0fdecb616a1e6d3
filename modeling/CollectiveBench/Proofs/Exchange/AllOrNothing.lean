import CollectiveBench.Proofs.Exchange.Schedule

/-!
# Rounds are all or nothing

Every round ends with all its members or with none: the statement brings together what one event
does to a round, what a whole run does to the rounds of one key, and what is left after a step.

A deadline and the removal of its round are one event here, as they are where all tasks take turns.
What remains true where something may come between the two is in `Proofs.Exchange.Races`.
-/

namespace CollectiveBench

variable [Arithmetic]

namespace Exchange

variable {start exchange : Exchange} {events : List Event} {log : List (List Departure)}
  {clock : Nat}

/-- A run goes on with another one from where nobody waits. -/
theorem History.append (history : History start events log clock exchange)
    (nobody : exchange.waiting = []) {more : List Event} {moreLog : List (List Departure)}
    {later : Nat} {last : Exchange} (further : History exchange more moreLog later last) :
    ∃ time, History start (events ++ more) (log ++ moreLog) time last := by
  suffices extended : ∃ time, History start (events ++ more) (log ++ moreLog) time last ∧
      (time = later ∨ last.waiting = []) from
    extended.imp fun _ facts => facts.1
  induction further with
  | start => exact ⟨clock, by simpa using history, .inr nobody⟩
  | step earlier event onward permitted inductionHypothesis =>
    obtain ⟨time, before, same⟩ := inductionHypothesis
    refine ⟨event.time, ?_, .inl rfl⟩
    rw [← List.append_assoc, ← List.append_assoc]
    refine .step before event ?_ permitted
    rcases same with rfl | vacant
    · exact onward
    · exact .inr vacant

/-- In any run of a world with one endpoint for each rank, whatever its calls and deadlines:
with each event that can happen next, a round that someone has entered stays open, or completes
with all its members, or expires with the deadline of its first call, and never does both. Whoever
departs from any round of a key that completes does so with the completed round. Once nobody
waits no round is left, and every step from there on is a further run, after which nobody
waits. -/
theorem rounds_all_or_nothing (world : World)
    (history : History (create world (List.range world.size)) events log clock exchange) :
    (∀ event key, exchange.Permits event → exchange.entered event key ≠ [] →
      exchange.StaysOpen event key ∨ (∃ all, exchange.Completes event key all) ∨
        ∃ first others, exchange.Expires event key first others) ∧
    (∀ event key all, exchange.Completes event key all →
      ∀ first others, ¬ exchange.Expires event key first others) ∧
    (∀ (i j : Nat) departing others, log[i]? = some departing → log[j]? = some others →
      ∀ departure ∈ departing, ∀ other ∈ others, ∀ all, departure.fate = .handed all →
        other.entry.key = departure.entry.key → i = j ∧ other.fate = .handed all) ∧
    (exchange.waiting = [] → exchange.rounds = [] ∧ ∀ pause calls, ∃ more moreLog later time,
      Performs exchange calls (exchange.perform pause calls) more moreLog later ∧
      History (create world (List.range world.size)) (events ++ more) (log ++ moreLog) time
        (exchange.perform pause calls).1 ∧
      (exchange.perform pause calls).1.waiting = [] ∧
      (exchange.perform pause calls).1.rounds = []) := by
  have rest := atRest_create world
  refine ⟨fun event key permitted => history.resolves rest permitted,
    fun event key all completes => completes.not_expires, ?_, ?_⟩
  · intro i j departing others here there departure departs other otherDeparts all handed key
    exact history.completes_once rest here there departs otherDeparts handed key
  · intro nobody
    have paused := history.atRest rest nobody
    refine ⟨paused.rounds, fun pause calls => ?_⟩
    obtain ⟨more, moreLog, later, performs⟩ := paused.perform pause calls
    obtain ⟨time, whole⟩ := history.append nobody performs.history
    exact ⟨more, moreLog, later, time, performs, whole, performs.rest.waiting,
      performs.rest.rounds⟩

/-- One of two ranks enters a barrier and times out. The other one comes late, opens the round
again and can only time out. -/
theorem rounds_all_or_nothing_late :
    let world : World := ⟨2, [[0, 1]], 50⟩
    let barrier : Call := { buffers := { operation := .barrier } }
    let entry (rank arrival : Nat) : Waiting :=
      ⟨rank, rank, rank, ⟨0, 0⟩, arrival + 50, barrier⟩
    let late : Exchange := ⟨world, [⟨0, [1]⟩, ⟨1, [1]⟩],
      [(⟨0, 0⟩, ⟨[none, some barrier.contribution], 1, [1]⟩)], [entry 1 60], 2⟩
    History (create world [0, 1]) [.issue 0 0 barrier, .expire 50 0, .issue 60 1 barrier]
      [[], [⟨entry 0 0, .timedOut⟩], []] 60 late ∧
    late.Expires (.expire 110 1) ⟨0, 0⟩ (entry 1 60) [] := by
  intro world barrier entry late
  let opened : Exchange := ⟨world, [⟨0, [1]⟩, ⟨1, [0]⟩],
    [(⟨0, 0⟩, ⟨[some barrier.contribution, none], 1, [0]⟩)], [entry 0 0], 1⟩
  let broken : Exchange := ⟨world, [⟨0, [1]⟩, ⟨1, [0]⟩], [], [], 1⟩
  have first : History (create world [0, 1]) [.issue 0 0 barrier] [[]] 0 opened :=
    .step .start (.issue 0 0 barrier) (.inr rfl) trivial
  have second : History (create world [0, 1]) [.issue 0 0 barrier, .expire 50 0]
      [[], [⟨entry 0 0, .timedOut⟩]] 50 broken :=
    .step first (.expire 50 0) (.inl (by decide))
      ⟨entry 0 0, List.mem_cons_self, rfl, Nat.le_refl 50, by decide⟩
  have third : History (create world [0, 1])
      [.issue 0 0 barrier, .expire 50 0, .issue 60 1 barrier]
      [[], [⟨entry 0 0, .timedOut⟩], []] 60 late :=
    .step second (.issue 60 1 barrier) (.inl (by decide)) trivial
  refine ⟨third, ?_⟩
  have permitted : late.Permits (.expire 110 1) :=
    ⟨entry 1 60, List.mem_cons_self, rfl, Nat.le_refl 110, by decide⟩
  have departing : late.departures (.expire 110 1) = [⟨entry 1 60, .timedOut⟩] := rfl
  have entered : late.entered (.expire 110 1) ⟨0, 0⟩ = [entry 1 60] := rfl
  rcases (rounds_all_or_nothing world third).1 (.expire 110 1) ⟨0, 0⟩ permitted (by simp [entered])
    with stays | ⟨all, completes⟩ | ⟨opener, others, expires⟩
  · exact absurd rfl (stays.departures _ (departing ▸ List.mem_singleton_self _))
  · have fates := congrArg (List.map Departure.fate) (completes.departures.symm.trans departing)
    simp [entered] at fates
  · obtain ⟨rfl, rfl⟩ := List.cons.inj (entered.symm.trans expires.opener)
    exact expires

end Exchange

end CollectiveBench
