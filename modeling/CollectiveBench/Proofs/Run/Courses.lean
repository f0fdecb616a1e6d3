import CollectiveBench.Proofs.Run.Lockstep

/-!
# Courses

Ranks in lockstep that do every action of an agenda in concert determine what each of them issues:
so many copies of one call for each action. A `Course` is that record, up to the end of the agenda
or up to where the ranks stop. All of its calls together are the script that every rank goes
through.
-/

namespace CollectiveBench

variable [Halves] [Arithmetic] {bench : Bench} {agenda : List Action} {clock : Nat → Nat → Nat}
  {start : Ensemble} {done last place : Nat} {action : Action}

/-- The ensemble after some actions of an agenda, where the clocks depend on how far the ranks are.
-/
def Ensemble.after (bench : Bench) (agenda : List Action) (clock : Nat → Nat → Nat)
    (start : Ensemble) : Nat → Ensemble
  | 0 => start
  | done + 1 =>
    match agenda[done]? with
    | some action => (start.after bench agenda clock done).step bench (clock done) action
    | none => start.after bench agenda clock done

/-- What ranks in lockstep issue for the actions that they do in concert: copies of their calls, so
many for each action. They come to the end of the agenda, or all of them have failed. -/
structure Course (bench : Bench) (agenda : List Action) (clock : Nat → Nat → Nat)
    (start : Ensemble) where
  length : Nat
  copies : Nat → Nat
  made : Nat → Nat → Call
  within : length ≤ agenda.length
  lockstep : ∀ done < length, (start.after bench agenda clock done).Lockstep bench fun _ => True
  concerted : ∀ done < length, ∀ action, agenda[done]? = some action →
    (start.after bench agenda clock done).Concerted bench (clock done) action
    (copies done) (made done)
  ends : length = agenda.length ∨
    ∀ participant ∈ (start.after bench agenda clock length).participants,
      participant.failure.isSome

namespace Ensemble

/-- One action further, all ranks have made that action. -/
theorem after_succ (located : agenda[done]? = some action) :
    start.after bench agenda clock (done + 1) =
      (start.after bench agenda clock done).step bench (clock done) action := by
  rw [after, located]

/-- After the first action the ranks go through the rest of the agenda. -/
theorem after_cons (rest : List Action) (done : Nat) :
    start.after bench (action :: rest) clock (done + 1) =
      (start.step bench (clock 0) action).after bench rest (fun done => clock (done + 1)) done := by
  induction done with
  | zero => rfl
  | succ done inductionHypothesis =>
    rw [after, inductionHypothesis, after, List.getElem?_cons_succ]

/-- Ranks that have failed stay as they are. -/
theorem participants_step_of_failed {ensemble : Ensemble} (now : Nat → Nat) (action : Action)
    (failed : ∀ participant ∈ ensemble.participants, participant.failure.isSome) :
    (ensemble.step bench now action).participants = ensemble.participants := by
  simp only [step, List.map_map]
  refine (List.map_congr_left fun participant present => ?_).trans (List.map_id _)
  simp [askOne, takeOne, failed participant present]

/-- If all ranks have failed after some actions, further actions change none of them. -/
theorem participants_after_of_failed
    (failed : ∀ participant ∈ (start.after bench agenda clock done).participants,
      participant.failure.isSome) (further : done ≤ last) :
    (start.after bench agenda clock last).participants =
      (start.after bench agenda clock done).participants := by
  induction further with
  | refl => rfl
  | step _ inductionHypothesis =>
    rw [Nat.succ_eq_add_one, after]
    split
    · rw [participants_step_of_failed _ _ (by rwa [inductionHypothesis]), inductionHypothesis]
    · exact inductionHypothesis

/-- Where the ranks go through an agenda, there is a course of theirs, and it ends where they come
to. -/
theorem Goes.exists_course {shows : (Nat → Nat) → Prop} {stops reached : Ensemble → Prop}
    (goes : Goes bench shows stops reached agenda start) (shown : ∀ done, shows (clock done))
    (failed : ∀ ensemble, stops ensemble →
      ∀ participant ∈ ensemble.participants, participant.failure.isSome) :
    ∃ course : Course bench agenda clock start,
      (course.length = agenda.length ∧ reached (start.after bench agenda clock course.length)) ∨
        stops (start.after bench agenda clock course.length) := by
  induction agenda generalizing start clock with
  | nil =>
    refine ⟨⟨0, fun _ => 0, fun _ _ => .barrier World.defaultGroup, Nat.le_refl 0, ?_,
      ?_, .inl rfl⟩,
      .inl ⟨rfl, goes⟩⟩
    · exact fun done inside => absurd inside (Nat.not_lt_zero done)
    · exact fun done inside => absurd inside (Nat.not_lt_zero done)
  | cons action rest inductionHypothesis =>
    obtain ⟨lockstep, onward⟩ := goes
    obtain ⟨⟨copies, made, concerted⟩, outcome⟩ := onward (clock 0) (shown 0)
    -- The course ends with an action that stops the ranks, or it goes on where the action leaves
    -- them.
    rcases outcome with stopped | further
    · refine ⟨⟨1, fun _ => copies, fun _ => made, by simp, ?_, ?_, .inr (failed _ stopped)⟩,
        .inr stopped⟩
      · intro done inside
        obtain rfl := Nat.lt_one_iff.mp inside
        exact lockstep
      · intro done inside first here
        obtain rfl := Nat.lt_one_iff.mp inside
        obtain rfl : action = first := Option.some.inj here
        exact concerted
    · obtain ⟨course, arrives⟩ := inductionHypothesis further fun done => shown (done + 1)
      have shifted (done : Nat) : start.after bench (action :: rest) clock (done + 1) =
          (start.step bench (clock 0) action).after bench rest
          (fun done => clock (done + 1)) done :=
        after_cons rest done
      refine ⟨⟨course.length + 1, fun | 0 => copies | done + 1 => course.copies done,
        fun | 0 => made | done + 1 => course.made done, by simpa using course.within,
        ?_, ?_, ?_⟩, ?_⟩
      · intro done inside
        cases done with
        | zero => exact lockstep
        | succ done =>
          rw [shifted]
          exact course.lockstep done (Nat.lt_of_succ_lt_succ inside)
      · intro done inside next here
        cases done with
        | zero =>
          obtain rfl : action = next := Option.some.inj here
          exact concerted
        | succ done =>
          rw [shifted]
          exact course.concerted done (Nat.lt_of_succ_lt_succ inside) next here
      · rw [shifted]
        exact course.ends.imp_left (congrArg (· + 1))
      · change (course.length + 1 = rest.length + 1 ∧
            reached (start.after bench (action :: rest) clock (course.length + 1))) ∨
          stops (start.after bench (action :: rest) clock (course.length + 1))
        rw [shifted]
        exact arrives.imp_left fun ⟨length, reaches⟩ => ⟨congrArg (· + 1) length, reaches⟩

end Ensemble

namespace Course

variable (course : Course bench agenda clock start)

/-- The calls of all ranks for some actions, one after the other. -/
def script (done : Nat) : List (Nat → Call) :=
  (List.range done).flatMap fun action => List.replicate (course.copies action) (course.made action)

/-- One action further, the script has the copies that its ranks issue there. -/
theorem script_succ (done : Nat) :
    course.script (done + 1) =
      course.script done ++ List.replicate (course.copies done) (course.made done) := by
  simp [script, List.range_succ]

/-- What is issued for fewer actions is issued first. -/
theorem script_begins (before : done ≤ last) : course.script done <+: course.script last := by
  induction before with
  | refl => exact List.prefix_refl _
  | step _ inductionHypothesis =>
    rw [Nat.succ_eq_add_one, script_succ]
    exact inductionHypothesis.trans (List.prefix_append _ _)

/-- The calls for an action stand behind those for the actions before. -/
theorem getElem?_script (before : done < last) (inside : place < course.copies done) :
    (course.script last)[(course.script done).length + place]? = some (course.made done) := by
  have whole := course.script_begins (Nat.succ_le_of_lt before)
  have here : (course.script (done + 1))[(course.script done).length + place]? =
      some (course.made done) := by
    rw [script_succ, List.getElem?_append_right (Nat.le_add_right _ _), Nat.add_sub_cancel_left,
      List.getElem?_replicate_of_lt inside]
  obtain ⟨bound, same⟩ := List.getElem?_eq_some_iff.mp here
  rw [List.prefix_iff_getElem?.mp whole _ bound, same]

/-- An action of the course is one of the agenda. -/
theorem exists_action (before : done < course.length) : ∃ action, agenda[done]? = some action :=
  ⟨_, List.getElem?_eq_getElem (Nat.lt_of_lt_of_le before course.within)⟩

/-- The ranks take a seat for each call of the course together or not at all. -/
theorem alike :
    ∀ made ∈ course.script course.length, bench.world.Alike World.defaultGroup made := by
  intro made listed
  obtain ⟨done, before, copy⟩ := List.mem_flatMap.mp listed
  have inside := List.mem_range.mp before
  obtain ⟨action, located⟩ := course.exists_action inside
  rw [List.eq_of_mem_replicate copy]
  exact (course.concerted done inside action located).alike

end Course

end CollectiveBench
