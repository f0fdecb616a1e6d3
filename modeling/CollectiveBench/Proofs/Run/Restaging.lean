import CollectiveBench.Run.Bench

/-!
# What is staged

An agenda stages an item, works on it, and stages the next one. Buffers are staged anew only for the
item whose buffers there are: the call that a rank holds meanwhile keeps its root and its peers, so
they stay those of the item's operation. `Agenda.Stages` says which item is staged before and after
an agenda; that it holds of every agenda of a run is `Bench.stages_agenda`.
-/

namespace CollectiveBench

variable {params : Params} {item : Item} {action : Action} {before between after : Option Item}
  {agenda more : List Action}

/-- Actions that stage nothing. -/
def Action.isPlain : Action → Bool
  | .stage _ | .restage _ | .stageCheck _ => false
  | _ => true

/-- The item that is staged before an action and after it. Staging anew needs the same item. -/
inductive Action.Stages : Option Item → Action → Option Item → Prop where
  | stage (before : Option Item) (item : Item) : Stages before (.stage item) (some item)
  | stageCheck (before : Option Item) (item : Item) : Stages before (.stageCheck item) (some item)
  | restage (item : Item) : Stages (some item) (.restage item) (some item)
  | plain (staged : Option Item) {action : Action} (plain : action.isPlain) :
    Stages staged action staged

namespace Agenda

/-- The item that is staged before an agenda and after it. -/
inductive Stages : Option Item → List Action → Option Item → Prop where
  | nil (staged : Option Item) : Stages staged [] staged
  | cons {before between after : Option Item} {action : Action} {rest : List Action}
      (first : action.Stages before between) (onward : Stages between rest after) :
      Stages before (action :: rest) after

namespace Stages

/-- Stages go on where those before ended. -/
theorem append (first : Stages before agenda between) (second : Stages between more after) :
    Stages before (agenda ++ more) after := by
  induction first with
  | nil staged => exact second
  | cons first _ inductionHypothesis => exact .cons first (inductionHypothesis second)

/-- An agenda in two parts stages what its parts stage. -/
theorem split (stages : Stages before (agenda ++ more) after) :
    ∃ between, Stages before agenda between ∧ Stages between more after := by
  induction agenda generalizing before with
  | nil => exact ⟨before, .nil before, stages⟩
  | cons action rest inductionHypothesis =>
    obtain _ | ⟨first, onward⟩ := stages
    obtain ⟨between, here, there⟩ := inductionHypothesis onward
    exact ⟨between, .cons first here, there⟩

/-- Actions that leave what is staged leave it together. -/
theorem keeps {staged : Option Item} (each : ∀ action ∈ agenda, action.Stages staged staged) :
    Stages staged agenda staged := by
  induction agenda with
  | nil => exact .nil staged
  | cons action rest inductionHypothesis =>
    rw [List.forall_mem_cons] at each
    exact .cons each.1 (inductionHypothesis each.2)

/-- What stages whatever was staged before it can stand after itself. -/
theorem flatMap {α : Type} {entries : List α} {agenda : α → List Action}
    (each : ∀ entry ∈ entries, ∀ before, ∃ after, Stages before (agenda entry) after)
    (before : Option Item) : ∃ after, Stages before (entries.flatMap agenda) after := by
  induction entries generalizing before with
  | nil => exact ⟨before, .nil before⟩
  | cons entry rest inductionHypothesis =>
    rw [List.forall_mem_cons] at each
    obtain ⟨between, first⟩ := each.1 before
    obtain ⟨after, second⟩ := inductionHypothesis each.2 between
    exact ⟨after, first.append second⟩

end Stages

/-- A measured iteration stages anew what is staged. -/
theorem stages_iteration (params : Params) (item : Item) :
    Stages (some item) (iteration params item) (some item) := by
  have calls : Stages (some item)
      (if params.blocking then List.replicate (callsPerIteration params) (.call 1) ++ [.compute]
      else [.compute, .call (callsPerIteration params)]) (some item) := by
    refine .keeps fun action listed => .plain _ ?_
    split at listed
    · rcases List.mem_append.mp listed with call | compute
      · rw [List.eq_of_mem_replicate call]
        rfl
      · rw [List.mem_singleton.mp compute]
        rfl
    · rcases List.mem_cons.mp listed with rfl | last
      · rfl
      · rw [List.mem_singleton.mp last]
        rfl
  have before : Stages (some item) [.restage item, .startClock] (some item) :=
    .cons (.restage item) (.cons (.plain _ rfl) (.nil _))
  have after : Stages (some item) [.complete, .stopClock] (some item) :=
    .cons (.plain _ rfl) (.cons (.plain _ rfl) (.nil _))
  exact (before.append calls).append after

/-- All that is done for an item ends with the item staged, whatever was staged before. -/
theorem stages_ofItem (params : Params) (item : Item) (before : Option Item) :
    Stages before (ofItem params item) (some item) := by
  have staging : Stages before [.stage item] (some item) := .cons (.stage before item) (.nil _)
  have warming : Stages (some item) (List.replicate params.warmups (.call 1)) (some item) := by
    refine .keeps fun action listed => ?_
    rw [List.eq_of_mem_replicate listed]
    exact .plain _ rfl
  have entering : Stages (some item) [.complete, .barrier, .enterStream] (some item) :=
    .cons (.plain _ rfl) (.cons (.plain _ rfl) (.cons (.plain _ rfl) (.nil _)))
  have measuring : Stages (some item)
      (List.replicate params.iterations (iteration params item)).flatten (some item) := by
    induction params.iterations with
    | zero => exact .nil _
    | succ count inductionHypothesis =>
      rw [List.replicate_succ, List.flatten_cons]
      exact (stages_iteration params item).append inductionHypothesis
  have leaving : Stages (some item) [.leaveStream, .gather item] (some item) :=
    .cons (.plain _ rfl) (.cons (.plain _ rfl) (.nil _))
  have checking : Stages (some item) (if params.validate then validation item else [])
      (some item) := by
    split
    · refine .cons (.stageCheck _ item) (.keeps fun action listed => .plain _ ?_)
      simp only [List.mem_cons, List.not_mem_nil, or_false] at listed
      rcases listed with rfl | rfl | rfl | rfl | rfl <;> rfl
    · exact .nil _
  have reporting : Stages (some item) [.report item] (some item) := .cons (.plain _ rfl) (.nil _)
  exact (((((staging.append warming).append entering).append measuring).append leaving).append
    checking).append reporting

end Agenda

/-- The agenda of a run stages anew only what is staged. -/
theorem Bench.stages_agenda (bench : Bench) (operations : List Operation) :
    ∃ after, Agenda.Stages none (bench.agenda operations) after := by
  have sweep : ∀ operation ∈ operations, ∀ before, ∃ after, Agenda.Stages before
      (Agenda.ofSweep bench.params operation (bench.sizes operation)) after := by
    intro operation _ before
    have each : ∀ size ∈ (bench.sizes operation).1, ∀ before, ∃ after,
        Agenda.Stages before (Agenda.ofItem bench.params ⟨operation, size⟩) after :=
      fun size _ before => ⟨_, Agenda.stages_ofItem bench.params ⟨operation, size⟩ before⟩
    obtain ⟨after, items⟩ := Agenda.Stages.flatMap each before
    exact ⟨after, .cons (.plain before rfl) items⟩
  obtain ⟨after, sweeps⟩ := Agenda.Stages.flatMap sweep none
  have begun : Agenda.Stages none [.join, .prepare] none :=
    .cons (.plain _ rfl) (.cons (.plain _ rfl) (.nil _))
  have cleared : Agenda.Stages after [.clear] after := .cons (.plain _ rfl) (.nil _)
  rw [agenda, Agenda.ofSweeps, List.flatMap_map]
  exact ⟨after, (begun.append sweeps).append cleared⟩

end CollectiveBench
