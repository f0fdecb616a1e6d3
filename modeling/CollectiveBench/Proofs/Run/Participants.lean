import CollectiveBench.Proofs.Delivery.Delivered
import CollectiveBench.Run.Ensemble

/-!
# Participants

What a participant does in an action, seen apart from the other ranks: it keeps its rank, issuing
calls only leaves traces, and without tampering it goes on with the call that all copies of its own
come back as. A participant that stops gives up (`Participant.GaveUp`) unless it waited for the
others in vain. Participants that agree in everything that decides what becomes of them resemble
each other.
-/

namespace CollectiveBench

variable {bench : Bench} {now : Nat} {action : Action}

/-- The error of a rank that waited for the others in vain: its time was up, or its round was
abandoned because somebody else's was. -/
def Error.LeftWaiting : Error → Prop
  | .collectiveTimeout .. => True
  | .collectiveFailed _ _ reason => reason = "round abandoned"
  | _ => False

/-- The error is about a rank's own work: no other rank had a part in it. -/
def Error.OfOwnWork : Error → Prop
  | .invalidRank .. | .collectiveFailed .. | .collectiveTimeout .. => False
  | _ => True

/-- Errors of the own work leave nobody waiting. -/
theorem Error.OfOwnWork.not_leftWaiting {error : Error} (own : error.OfOwnWork) :
    ¬ error.LeftWaiting := by
  cases error with
  | collectiveFailed operation rank reason => exact own.elim
  | collectiveTimeout operation round timeoutMs => exact own.elim
  | _ => exact id

/-- The outcome is a failure, and not because somebody waited in vain. -/
def FailsAlone {α : Type} (outcome : Outcome α) : Prop :=
  ∃ error, outcome = .error error ∧ ¬ error.LeftWaiting

/-- Whoever waits for copies of one call gets that call. -/
theorem Pending.settle_replicate (call : Call) (more : Nat) (found : Option Call) :
    settle found (List.replicate (more + 1) (.ok call)) = .ok (some call) := by
  induction more generalizing found with
  | zero => rfl
  | succ more inductionHypothesis => exact inductionHypothesis (some call)

namespace Participant

variable {participant : Participant}

/-- The participant has stopped, and not because it waited in vain. -/
def GaveUp (participant : Participant) : Prop :=
  ∃ error, participant.failure = some error ∧ ¬ error.LeftWaiting

/-- The participants agree in everything that decides what becomes of either of them later. What
differs is what they noted, measured or hold on their devices. -/
structure Resembles (before after : Participant) : Prop where
  rank : after.rank = before.rank
  failure : after.failure = before.failure
  workload : after.workload = before.workload
  call : after.call = before.call
  stopwatch : after.reading.stopwatch = before.reading.stopwatch
  started : after.reading.started = before.reading.started
  fault : after.fault = before.fault

namespace Resembles

/-- A participant resembles itself. -/
theorem refl (participant : Participant) : participant.Resembles participant :=
  ⟨rfl, rfl, rfl, rfl, rfl, rfl, rfl⟩

/-- A participant resembles those that resemble one that it resembles. -/
theorem trans {other last : Participant} (before : participant.Resembles other)
    (onward : other.Resembles last) : participant.Resembles last where
  rank := onward.rank.trans before.rank
  failure := onward.failure.trans before.failure
  workload := onward.workload.trans before.workload
  call := onward.call.trans before.call
  stopwatch := onward.stopwatch.trans before.stopwatch
  started := onward.started.trans before.started
  fault := onward.fault.trans before.fault

end Resembles

/-- The participant after an action whose calls are answered so. -/
def next [Halves] [Arithmetic] (bench : Bench) (now : Nat) (action : Action)
    (answers : List (Outcome Call))
    (participant : Participant) : Participant :=
  if (participant.ask bench now action).1.failure.isSome then (participant.ask bench now action).1
  else (participant.ask bench now action).1.take bench action answers

/-! ## The rank of a participant -/

/-- Leaving the stream keeps the rank. -/
theorem rank_leaveStream (participant : Participant) :
    participant.leaveStream.rank = participant.rank := by
  rw [leaveStream]
  split <;> rfl

/-- A step keeps the rank, whether it succeeds or not. -/
theorem rank_attempt {α : Type} {outcome : Outcome α} {proceed : α → Participant} {rank : Nat}
    (own : participant.rank = rank) (onward : ∀ value, (proceed value).rank = rank) :
    (participant.attempt outcome proceed).rank = rank := by
  cases outcome with
  | ok value => exact onward value
  | error error => exact (rank_leaveStream participant).trans own

/-- Issuing calls only leaves traces. -/
theorem resembles_issue (participant : Participant) (calls : List Call) :
    participant.Resembles (participant.issue calls).1 := by
  rw [issue]
  induction calls generalizing participant with
  | nil => exact .refl participant
  | cons call rest inductionHypothesis =>
    refine Resembles.trans ?_ (inductionHypothesis _)
    exact ⟨rfl, rfl, rfl, rfl, rfl, rfl, rfl⟩

/-- A participant keeps its rank, whatever it does alone. -/
theorem rank_ask [Halves] [Arithmetic] (bench : Bench) (now : Nat) (action : Action)
    (participant : Participant) :
    (participant.ask bench now action).1.rank = participant.rank := by
  cases action
  case join | prepare | stopClock | report => exact rank_attempt rfl fun _ => rfl
  case stage | restage | stageCheck =>
    exact rank_attempt rfl fun _ => rank_attempt rfl fun _ => rfl
  case call | barrier | agree => exact (resembles_issue _ _).rank
  case gather item =>
    rw [ask]
    split
    · exact rank_leaveStream participant
    · exact (resembles_issue _ _).rank
  case leaveStream => exact rank_leaveStream participant
  case compute =>
    change participant.compute.rank = participant.rank
    rw [compute]
    split
    · rfl
    · exact rank_attempt rfl fun _ => rfl
  case inspect item =>
    change (participant.inspect bench item).rank = participant.rank
    rw [inspect]
    split <;> rfl
  case conclude item =>
    change (participant.conclude item).rank = participant.rank
    rw [conclude]
    split
    · exact rank_leaveStream participant
    · split
      · exact rank_leaveStream participant
      · rfl
  all_goals rfl

/-- A participant that asks for calls has not failed over them. -/
theorem failure_ask [Halves] [Arithmetic] (asks : (participant.ask bench now action).2 ≠ []) :
    (participant.ask bench now action).1.failure = participant.failure := by
  cases action
  case call | barrier | agree => exact (resembles_issue _ _).failure
  case gather item =>
    rw [ask] at asks ⊢
    split at asks
    · exact absurd rfl asks
    · exact (resembles_issue _ _).failure
  all_goals exact absurd rfl asks

/-- Receiving answers keeps the rank. -/
theorem rank_receive [Halves] (answers : List (Outcome Call)) {proceed : Call → Participant}
    (onward : ∀ call, (proceed call).rank = participant.rank) :
    (participant.receive bench answers proceed).rank = participant.rank := by
  rw [receive]
  split
  · exact rank_leaveStream participant
  · rfl
  · exact onward _

/-- A participant keeps its rank, whatever it makes of the answers. -/
theorem rank_take [Halves] (bench : Bench) (action : Action) (answers : List (Outcome Call))
    (participant : Participant) :
    (participant.take bench action answers).rank = participant.rank := by
  cases action
  case call | barrier => exact rank_receive answers fun _ => rfl
  case gather | agree => exact rank_receive answers fun _ => rank_attempt rfl fun _ => rfl
  all_goals rfl

/-- A participant that goes on with an outcome gives up where the outcome is a failure. -/
theorem gaveUp_attempt {α : Type} {outcome : Outcome α} (fails : FailsAlone outcome)
    (proceed : α → Participant) : (participant.attempt outcome proceed).GaveUp := by
  obtain ⟨error, rfl, own⟩ := fails
  exact ⟨error, rfl, own⟩

/-- Without answers a participant stays as it is. -/
theorem take_nil [Halves] (bench : Bench) (action : Action) (participant : Participant) :
    participant.take bench action [] = participant := by
  cases action <;> rfl

/-- An action that asks for nothing is done with its first half. -/
theorem next_nil [Halves] [Arithmetic] :
    participant.next bench now action [] = (participant.ask bench now action).1 := by
  rw [next]
  split
  · rfl
  · exact take_nil bench action _

/-! ## Answers -/

/-- A participant that does not fail alone takes the answers. -/
theorem next_of_sound [Halves] [Arithmetic]
    (sound : (participant.ask bench now action).1.failure = none)
    (answers : List (Outcome Call)) :
    participant.next bench now action answers =
      (participant.ask bench now action).1.take bench action answers := by
  rw [next, sound]
  rfl

/-- A participant that asks for calls takes the answers. -/
theorem next_of_asks [Halves] [Arithmetic] (sound : participant.failure = none)
    (asks : (participant.ask bench now action).2 ≠ []) (answers : List (Outcome Call)) :
    participant.next bench now action answers =
      (participant.ask bench now action).1.take bench action answers :=
  next_of_sound ((failure_ask asks).trans sound) answers

/-- Without tampering the answers come back as they are. -/
theorem deliveries_eq [Halves] (honest : bench.tampering = {}) (participant : Participant)
    (answers : List (Outcome Call)) : participant.deliveries bench answers = answers := by
  have untouched (rank number : Nat) (call : Call) :
      bench.tampering.apply rank number call = call := by
    simp [honest, Tampering.apply, Tampering.corruption?, Tampering.replaceLatencies]
  apply List.ext_getElem (by simp [deliveries])
  intro place _ _
  cases answer : answers[place] <;> simp [deliveries, untouched, answer, Except.map]

/-- Without tampering a participant that got one answer to all copies of its call goes on with
it. -/
theorem receive_copies [Halves] (honest : bench.tampering = {}) (answer : Outcome Call) (more : Nat)
    (participant : Participant) (proceed : Call → Participant) :
    participant.receive bench (List.replicate (more + 1) answer) proceed =
      participant.attempt answer proceed := by
  rw [receive, deliveries_eq honest]
  cases answer with
  | error error => rfl
  | ok call =>
    rw [Pending.settle_replicate]
    rfl

/-- Where nothing is tampered with, one answer is attempted as it is. -/
theorem receive_one [Halves] (honest : bench.tampering = {}) (answer : Outcome Call)
    (participant : Participant) (proceed : Call → Participant) :
    participant.receive bench [answer] proceed = participant.attempt answer proceed :=
  receive_copies honest answer 0 participant proceed

end Participant

end CollectiveBench
