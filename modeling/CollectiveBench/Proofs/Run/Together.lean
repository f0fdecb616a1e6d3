import CollectiveBench.Proofs.Run.Lockstep

/-!
# Going on or stopping together

A rank that stops leaves the others waiting, unless they stop at the same action. So a run is safe
when each action, seen from ranks in lockstep, either keeps all of them in lockstep or stops all of
them, none because it waited in vain (`Ensemble.Stopped`). `Advances` carries this from single
actions to agendas.
-/

namespace CollectiveBench

variable [Halves] [Arithmetic] {bench : Bench} {ensemble : Ensemble} {shows : (Nat → Nat) → Prop}
  {now : Nat → Nat}
  {action : Action}

namespace Ensemble

/-- All ranks have stopped, none of them because it waited in vain. -/
def Stopped (ensemble : Ensemble) : Prop :=
  ∀ participant ∈ ensemble.participants, participant.GaveUp

/-- If all participants give up, the run has stopped. -/
theorem Steps.stopped {next : Participant → Participant}
    (steps : Steps bench now ensemble action next)
    (each : ∀ participant ∈ ensemble.participants, (next participant).GaveUp) :
    (ensemble.step bench now action).Stopped := by
  rw [Stopped, steps.participants, List.forall_mem_map]
  exact each

end Ensemble

/-- The agenda brings ranks from one state to another, unless at one of its actions all of them
stop. -/
def Advances (bench : Bench) (shows : (Nat → Nat) → Prop) (holds : Ensemble → Prop)
    (agenda : List Action) (after : Ensemble → Prop) : Prop :=
  ∀ ensemble, holds ensemble → ensemble.Goes bench shows Ensemble.Stopped after agenda

namespace Advances

open Ensemble

variable {holds between after : Ensemble → Prop} {first second : List Action}

/-- No action advances nowhere. -/
theorem nil : Advances bench shows holds [] holds := fun _ held => held

/-- Actions advance to where the second ones do from where the first ones did. -/
theorem append (before : Advances bench shows holds first between)
    (onward : Advances bench shows between second after) :
    Advances bench shows holds (first ++ second) after :=
  fun ensemble held => (before ensemble held).append onward

/-- An action advances to where the rest does from there. -/
theorem cons (before : Advances bench shows holds [action] between)
    (onward : Advances bench shows between second after) :
    Advances bench shows holds (action :: second) after :=
  before.append onward

/-- One action advances where it is done in concert and each of its steps does. -/
theorem single
    (lockstep : ∀ ensemble, holds ensemble → ensemble.Lockstep bench fun _ => True)
    (steps : ∀ now ensemble, shows now → holds ensemble →
      (∃ copies made, ensemble.Concerted bench now action copies made) ∧
        ((ensemble.step bench now action).Stopped ∨ after (ensemble.step bench now action))) :
    Advances bench shows holds [action] after :=
  fun ensemble held => ⟨lockstep ensemble held, fun now shown => steps now ensemble shown held⟩

/-- An agenda of actions that all keep a state keeps it. -/
theorem keeps {agenda : List Action}
    (each : ∀ action ∈ agenda, Advances bench shows holds [action] holds) :
    Advances bench shows holds agenda holds := by
  induction agenda with
  | nil => exact nil
  | cons action rest inductionHypothesis =>
    rw [List.forall_mem_cons] at each
    exact each.1.cons (inductionHypothesis each.2)

/-- Agendas for the entries of a list keep what each of them keeps. -/
theorem flatMap {α : Type} {entries : List α} {agenda : α → List Action}
    (each : ∀ entry ∈ entries, Advances bench shows holds (agenda entry) holds) :
    Advances bench shows holds (entries.flatMap agenda) holds := by
  induction entries with
  | nil => exact nil
  | cons entry rest inductionHypothesis =>
    rw [List.forall_mem_cons] at each
    exact each.1.append (inductionHypothesis each.2)

/-- What is brought from a stronger state to a weaker one. -/
theorem mono {weaker stronger : Ensemble → Prop} {agenda : List Action}
    (advances : Advances bench shows holds agenda after)
    (before : ∀ ensemble, stronger ensemble → holds ensemble)
    (onward : ∀ ensemble, after ensemble → weaker ensemble) :
    Advances bench shows stronger agenda weaker := by
  intro ensemble held
  rw [← List.append_nil agenda]
  exact (advances ensemble (before ensemble held)).append onward

end Advances

end CollectiveBench
