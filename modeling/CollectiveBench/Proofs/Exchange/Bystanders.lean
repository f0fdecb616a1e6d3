import CollectiveBench.Proofs.Exchange.Renaming
import CollectiveBench.Proofs.Exchange.Seats

/-!
# Bystanders

A call that takes no seat is answered at once and leaves nothing behind but the ticket that it
drew: rounds, waiting calls and all counts are as before (`StandsAside.issue_eq`). Calls of this
kind can therefore be inserted anywhere into the steps of a run. The other calls then have other
tickets and are issued at other times, and while all calls of a step are issued before the first
deadline neither makes a difference to any answer.

The calls of a step are marked as inserted or not. The proof runs the steps with and without the
inserted calls next to each other and keeps them mirrored (`Mirrors.schedule`); the tickets belong
together by the places of the calls that were not inserted (`keptPlace`).
-/

namespace CollectiveBench

section

variable {α β : Type}

/-- The items of a list that belong to the calls that were not inserted. -/
def kept (marked : List (Bool × α)) (items : List β) : List β :=
  ((marked.zip items).filter (!·.1.1)).map (·.2)

/-- The place among all calls of the one with a number among those that were not inserted. -/
def keptPlace : List (Bool × α) → Nat → Nat
  | [], number => number
  | (true, _) :: rest, number => keptPlace rest number + 1
  | (false, _) :: _, 0 => 0
  | (false, _) :: rest, number + 1 => keptPlace rest number + 1

/-- What belongs to an inserted call is left out. -/
@[simp] theorem kept_inserted (call : α) (marked : List (Bool × α)) (item : β) (items : List β) :
    kept ((true, call) :: marked) (item :: items) = kept marked items := rfl

/-- What belongs to any other call is kept. -/
@[simp] theorem kept_other (call : α) (marked : List (Bool × α)) (item : β) (items : List β) :
    kept ((false, call) :: marked) (item :: items) = item :: kept marked items := rfl

/-- The items that are kept stand at the places of the calls that were not inserted. -/
theorem getElem?_kept {marked : List (Bool × α)} {items : List β}
    (length : items.length = marked.length) (number : Nat) :
    (kept marked items)[number]? = items[keptPlace marked number]? := by
  induction marked generalizing items number with
  | nil =>
    obtain rfl := List.eq_nil_of_length_eq_zero length
    rfl
  | cons made rest inductionHypothesis =>
    obtain ⟨inserted, call⟩ := made
    cases items with
    | nil => simp at length
    | cons item others =>
      have shorter : others.length = rest.length := by simpa using length
      cases inserted with
      | true => simpa [keptPlace] using inductionHypothesis shorter number
      | false =>
        cases number with
        | zero => rfl
        | succ number => simpa [keptPlace] using inductionHypothesis shorter number

/-- As many items are kept as calls were not inserted. -/
theorem length_kept {marked : List (Bool × α)} {items : List β}
    (length : items.length = marked.length) :
    (kept marked items).length = (marked.filter (!·.1)).length := by
  induction marked generalizing items with
  | nil => rfl
  | cons made rest inductionHypothesis =>
    obtain ⟨inserted, call⟩ := made
    cases items with
    | nil => simp at length
    | cons item others =>
      have shorter : others.length = rest.length := by simpa using length
      cases inserted with
      | true => simpa using inductionHypothesis shorter
      | false => simpa using inductionHypothesis shorter

end

namespace Exchange

variable {exchange plain fuller : Exchange} {rename : Nat → Nat}

/-- The rank that an endpoint stands for. -/
def rankOf? (exchange : Exchange) (index : Nat) : Option Nat :=
  exchange.endpoints[index]?.map Endpoint.rank

/-- Endpoints keep their ranks. -/
theorem rankOf?_apply [Arithmetic] (sound : exchange.Sound) (event : Event) (index : Nat) :
    (exchange.apply event).1.rankOf? index = exchange.rankOf? index := by
  rw [rankOf?, endpoints_apply sound]
  cases event with
  | expire now ticket => rfl
  | issue now other call =>
    cases arrives : exchange.arrival? (.issue now other call) with
    | none => rfl
    | some entry =>
      rw [List.getElem?_modify]
      cases found : exchange.endpoints[index]? with
      | none => simp [rankOf?, found]
      | some endpoint =>
        by_cases own : other = index <;> simp [rankOf?, found, own, Endpoint.advance]

/-- An endpoint issues a call that has a reason to take no seat. -/
def StandsAside (exchange : Exchange) (index : Nat) (call : Call) : Prop :=
  ∃ rank ∈ exchange.rankOf? index, exchange.world.StaysOut rank call

/-- A call that takes no seat is answered at once and leaves nothing but its ticket. -/
theorem StandsAside.issue_eq [Arithmetic] {index : Nat} {call : Call}
    (aside : exchange.StandsAside index call)
    (now : Nat) :
    exchange.issue now index call = ({ exchange with nextTicket := exchange.nextTicket + 1 },
      [⟨exchange.nextTicket, exchange.immediate index call⟩]) := by
  obtain ⟨rank, stands, out⟩ := aside
  obtain ⟨endpoint, found, rfl⟩ := Option.map_eq_some_iff.mp stands
  exact issue_eq_immediate (arrival?_of_staysOut found out)

/-- What an endpoint may not take part in, it may not take part in later either. -/
theorem StandsAside.apply [Arithmetic] {index : Nat} {call : Call}
    (aside : exchange.StandsAside index call)
    (sound : exchange.Sound) (event : Event) : (exchange.apply event).1.StandsAside index call := by
  obtain ⟨rank, stands, out⟩ := aside
  refine ⟨rank, ?_, ?_⟩
  · rwa [rankOf?_apply sound]
  · rwa [world_apply sound]

/-- Whole runs change neither this nor the world. -/
theorem Sound.run_standsAside [Arithmetic] (sound : exchange.Sound) (events : List Event) :
    (exchange.run events).1.world = exchange.world ∧
      ∀ index call, exchange.StandsAside index call →
        (exchange.run events).1.StandsAside index call := by
  induction events generalizing exchange with
  | nil => exact ⟨rfl, fun _ _ aside => aside⟩
  | cons event rest inductionHypothesis =>
    obtain ⟨world, onward⟩ := inductionHypothesis (sound.apply event)
    exact ⟨world.trans (world_apply sound event), fun index call aside =>
      onward index call (aside.apply sound event)⟩

/-- Two exchanges in which nothing goes on and that differ at most in how many tickets were
drawn. -/
structure Twins (plain fuller : Exchange) : Prop where
  idle : plain.Idle
  fullerIdle : fuller.Idle
  world : fuller.world = plain.world
  endpoints : fuller.endpoints = plain.endpoints

/-- Where nobody waits, any tickets belong together. -/
theorem Twins.mirrors (twins : plain.Twins fuller) (rename : Nat → Nat) :
    Mirrors rename plain fuller where
  sound := twins.idle.sound
  fullerSound := twins.fullerIdle.sound
  world := twins.world
  endpoints := twins.endpoints
  waiting := by rw [twins.idle.waiting, twins.fullerIdle.waiting]; rfl

/-- While calls are issued, those that were not inserted have the same effect and the same answers
as without the inserted ones. The induction follows the calls: an inserted one moves the tickets of
the fuller exchange on, and any other one is issued to both. -/
theorem Mirrors.schedule [Arithmetic] (mirrors : Mirrors rename plain fuller)
    {marked : List (Bool × Nat × Call)}
    (aside : ∀ made ∈ marked, made.1 → fuller.StandsAside made.2.1 made.2.2)
    (renamed : ∀ number,
      rename (plain.nextTicket + number) = fuller.nextTicket + keptPlace marked number)
    (pause fullerPause now later : Nat) :
    Mirrors rename (plain.run (schedule pause now (kept marked (marked.map Prod.snd)))).1
        (fuller.run (schedule fullerPause later (marked.map Prod.snd))).1 ∧
      ∀ answer ∈ (plain.run (schedule pause now (kept marked (marked.map Prod.snd)))).2,
        answer.retold rename ∈
          (fuller.run (schedule fullerPause later (marked.map Prod.snd))).2 := by
  induction marked generalizing plain fuller now later with
  | nil => exact ⟨mirrors, by simp [kept, schedule, Exchange.run]⟩
  | cons made rest inductionHypothesis =>
    obtain ⟨inserted, index, call⟩ := made
    have stillAside : ∀ made ∈ rest, made.1 →
        (fuller.issue later index call).1.StandsAside made.2.1 made.2.2 :=
      fun made present isInserted => (aside made (List.mem_cons_of_mem _ present) isInserted).apply
        mirrors.fullerSound (.issue later index call)
    have fullerNext : (fuller.issue later index call).1.nextTicket = fuller.nextTicket + 1 :=
      nextTicket_apply mirrors.fullerSound (.issue later index call)
    cases inserted with
    | true =>
      have issued := (aside _ List.mem_cons_self rfl).issue_eq later
      have still : Mirrors rename plain (fuller.issue later index call).1 := by
        have sound := mirrors.fullerSound.apply (.issue later index call)
        refine ⟨mirrors.sound, sound, ?_, ?_, ?_⟩
        · rw [issued]
          exact mirrors.world
        · rw [issued]
          exact mirrors.endpoints
        · rw [issued]
          exact mirrors.waiting
      obtain ⟨after, answers⟩ := inductionHypothesis still stillAside
        (fun number => by
          have same := renamed number
          rw [keptPlace] at same
          omega)
        now (later + fullerPause)
      exact ⟨after, fun answer given => List.mem_append_right _ (answers answer given)⟩
    | false =>
      have next : fuller.nextTicket = rename plain.nextTicket := (renamed 0).symm
      obtain ⟨still, immediately⟩ := mirrors.issue next now later index call
      have plainNext : (plain.issue now index call).1.nextTicket = plain.nextTicket + 1 :=
        nextTicket_apply mirrors.sound (.issue now index call)
      obtain ⟨after, answers⟩ := inductionHypothesis still stillAside
        (fun number => by
          have same := renamed (number + 1)
          rw [keptPlace] at same
          rw [plainNext, fullerNext, Nat.add_assoc, Nat.add_comm 1, same]
          omega)
        (now + pause) (later + fullerPause)
      refine ⟨after, fun answer given => ?_⟩
      rcases List.mem_append.mp given with first | others
      · apply List.mem_append_left
        simp only [Exchange.apply, immediately]
        exact List.mem_map_of_mem first
      · exact List.mem_append_right _ (answers answer others)

/-- An exchange in which nothing goes on has its deadlines in order. -/
theorem Idle.timed (idle : exchange.Idle) : exchange.Timed 0 where
  rising := by simp [idle.waiting]
  recent := by simp [idle.waiting]
  hurried := fun _ => idle.waiting

/-- A step whose calls are issued before the first deadline is their schedule, followed by a run in
which all who still wait give up. -/
theorem Idle.perform_prompt [Arithmetic] (idle : exchange.Idle) {pause : Nat}
    {calls : List (Nat × Call)}
    (prompt : pause * (calls.length - 1) < exchange.world.timeoutMs) :
    ∃ late, Enacts exchange calls (exchange.perform pause calls) (schedule pause 0 calls ++ late) ∧
      (exchange.run (schedule pause 0 calls)).1.advance none =
        (exchange.run (schedule pause 0 calls)).1.run late ∧
      (exchange.run (schedule pause 0 calls)).1.waiting.Pairwise (·.deadline ≤ ·.deadline) := by
  have early : Exchange.issueAll pause 0 exchange calls = exchange.run (schedule pause 0 calls) :=
    idle.sound.issueAll_prompt idle.timed pause 0 calls (.inr idle.waiting)
      (by simp [idle.waiting]) (by simpa using issued_in_time prompt)
  obtain ⟨_, timed⟩ := idle.timed.scheduled idle.sound pause 0 calls (.inr idle.waiting)
  obtain ⟨late, passing, silent⟩ := (idle.sound.run (schedule pause 0 calls)).expireBefore_eq_run
    none (exchange.run (schedule pause 0 calls)).1.waiting.length
  exact ⟨late, idle.enacts early (issued?_schedule pause 0 calls) passing silent, passing,
    timed.rising⟩

/-- A step in which calls were inserted: all calls, marked as inserted or not, the pause between all
of them, and the pause between the others where they are issued alone. -/
structure Interrupted where
  calls : List (Bool × Nat × Call)
  pause : Nat
  pauseAlone : Nat

namespace Interrupted

/-- The step with the inserted calls. -/
def whole (step : Interrupted) : Nat × List (Nat × Call) := (step.pause, step.calls.map Prod.snd)

/-- The step without the inserted calls. -/
def alone (step : Interrupted) : Nat × List (Nat × Call) :=
  (step.pauseAlone, kept step.calls (step.calls.map Prod.snd))

/-- The outcomes of the calls that were not inserted. -/
def others (step : Interrupted) (outcomes : List (Outcome Call)) : List (Outcome Call) :=
  kept step.calls outcomes

/-- The inserted calls take no seats, and with them or without them all calls are issued before the
first deadline. -/
structure Harmless (step : Interrupted) (exchange : Exchange) : Prop where
  aside : ∀ made ∈ step.calls, made.1 → exchange.StandsAside made.2.1 made.2.2
  prompt : step.pause * (step.whole.2.length - 1) < exchange.world.timeoutMs
  promptAlone : step.pauseAlone * (step.alone.2.length - 1) < exchange.world.timeoutMs

end Interrupted

/-- While the calls of a step are issued, those that were not inserted have the same effect and the
same answers as alone, under tickets that belong together by their places. -/
theorem Twins.schedule [Arithmetic] (twins : plain.Twins fuller) {step : Interrupted}
    (harmless : step.Harmless fuller) :
    ∃ rename : Nat → Nat,
      (∀ number, rename (plain.nextTicket + number) =
        fuller.nextTicket + keptPlace step.calls number) ∧
      Mirrors rename (plain.run (Exchange.schedule step.pauseAlone 0 step.alone.2)).1
        (fuller.run (Exchange.schedule step.pause 0 step.whole.2)).1 ∧
      ∀ answer ∈ (plain.run (Exchange.schedule step.pauseAlone 0 step.alone.2)).2,
        answer.retold rename ∈ (fuller.run (Exchange.schedule step.pause 0 step.whole.2)).2 := by
  let rename (ticket : Nat) := fuller.nextTicket + keptPlace step.calls (ticket - plain.nextTicket)
  have renamed (number : Nat) :
      rename (plain.nextTicket + number) = fuller.nextTicket + keptPlace step.calls number := by
    simp only [rename, Nat.add_sub_cancel_left]
  exact ⟨rename, renamed,
    (twins.mirrors rename).schedule harmless.aside renamed step.pauseAlone step.pause 0 0⟩

/-- In a step, inserted calls that take no seat change neither the outcomes of the others nor what
the step leaves behind. -/
theorem Twins.perform [Arithmetic] (twins : plain.Twins fuller) {step : Interrupted}
    (harmless : step.Harmless fuller) :
    step.others (fuller.perform step.pause step.whole.2).2 =
        (plain.perform step.pauseAlone step.alone.2).2 ∧
      Twins (plain.perform step.pauseAlone step.alone.2).1
        (fuller.perform step.pause step.whole.2).1 := by
  obtain ⟨late, enacts, passing, rising⟩ :=
    twins.idle.perform_prompt (twins.world ▸ harmless.promptAlone)
  obtain ⟨fullerLate, fullerEnacts, fullerPassing, fullerRising⟩ :=
    twins.fullerIdle.perform_prompt harmless.prompt
  obtain ⟨rename, renamed, issued, earlyAnswers⟩ := twins.schedule harmless
  obtain ⟨passed, lateAnswers⟩ := issued.advance rising fullerRising
  rw [passing, fullerPassing] at passed lateAnswers
  have counterpart : ∀ answer ∈
      (plain.run (Exchange.schedule step.pauseAlone 0 step.alone.2 ++ late)).2,
      answer.retold rename ∈
        (fuller.run (Exchange.schedule step.pause 0 step.whole.2 ++ fullerLate)).2 := by
    intro answer given
    rw [run_append] at given ⊢
    rcases List.mem_append.mp given with early | last
    · exact List.mem_append_left _ (earlyAnswers answer early)
    · apply List.mem_append_right
      rw [lateAnswers]
      exact List.mem_map_of_mem last
  have size : (fuller.perform step.pause step.whole.2).2.length = step.calls.length := by
    rw [fullerEnacts.length, Interrupted.whole, List.length_map]
  refine ⟨?_, enacts.idle, fullerEnacts.idle, ?_, ?_⟩
  · apply List.ext_getElem
    · rw [Interrupted.others, length_kept size, enacts.length, Interrupted.alone,
        length_kept (List.length_map _)]
    · intro number inside insideAlone
      have given := (enacts.outcomes number _).mp (List.getElem?_eq_getElem insideAlone)
      have answered := counterpart _ given
      rw [Answer.retold, renamed] at answered
      have outcome := (fullerEnacts.outcomes _ _).mpr answered
      rw [← getElem?_kept size] at outcome
      exact (List.getElem?_eq_some_iff.mp outcome).2
  · rw [← enacts.run, ← fullerEnacts.run, run_append, run_append]
    exact passed.world
  · rw [← enacts.run, ← fullerEnacts.run, run_append, run_append]
    exact passed.endpoints

/-- Steps that are harmless are so after other steps too. -/
theorem Interrupted.Harmless.perform [Arithmetic] {step : Interrupted}
    (harmless : step.Harmless exchange)
    (idle : exchange.Idle) (pause : Nat) (calls : List (Nat × Call)) :
    step.Harmless (exchange.perform pause calls).1 := by
  obtain ⟨events, enacts⟩ := idle.perform pause calls
  obtain ⟨world, onward⟩ := idle.sound.run_standsAside events
  rw [enacts.run] at world onward
  refine ⟨fun made present inserted => onward _ _ (harmless.aside made present inserted), ?_, ?_⟩
  · rw [world]
    exact harmless.prompt
  · rw [world]
    exact harmless.promptAlone

/-- In a run of steps, inserted calls that take no seats change neither the outcomes of the others
nor what the run leaves behind. -/
theorem Twins.performAll [Arithmetic] (twins : plain.Twins fuller) {steps : List Interrupted}
    (harmless : ∀ step ∈ steps, step.Harmless fuller) :
    List.zipWith Interrupted.others steps
        (fuller.performAll (steps.map Interrupted.whole)).2 =
        (plain.performAll (steps.map Interrupted.alone)).2 ∧
      Twins (plain.performAll (steps.map Interrupted.alone)).1
        (fuller.performAll (steps.map Interrupted.whole)).1 := by
  induction steps generalizing plain fuller with
  | nil => exact ⟨rfl, twins⟩
  | cons step rest inductionHypothesis =>
    obtain ⟨outcomes, after⟩ := twins.perform (harmless step List.mem_cons_self)
    obtain ⟨later, last⟩ := inductionHypothesis after fun other present =>
      (harmless other (List.mem_cons_of_mem _ present)).perform twins.fullerIdle _ _
    exact ⟨congrArg₂ List.cons outcomes later, last⟩

/-- In any state of an exchange, a call that waits for nobody, that names an unknown group, whose
rank or one of whose peers is not in its group, or whose messages have not as many receivers as
senders, is answered at once. No round and no count of any endpoint changes with it, and only its
ticket is spent. Wherever such calls are inserted into the steps of a run, with any endpoints and
whatever the pauses are, as long as all calls of each step are issued before the first deadline:
every other call has the outcome that it has without them, and the run leaves the same behind. -/
theorem bystanders_leave_no_trace [Arithmetic] :
    (∀ (exchange : Exchange) (index : Nat) (call : Call), exchange.StandsAside index call →
      ∀ now, exchange.issue now index call =
        ({ exchange with nextTicket := exchange.nextTicket + 1 },
          [⟨exchange.nextTicket, exchange.immediate index call⟩])) ∧
    ∀ exchange : Exchange, exchange.Idle → ∀ steps : List Interrupted,
      (∀ step ∈ steps, step.Harmless exchange) →
      let whole := exchange.performAll (steps.map Interrupted.whole)
      let alone := exchange.performAll (steps.map Interrupted.alone)
      List.zipWith Interrupted.others steps whole.2 = alone.2 ∧ alone.1.Twins whole.1 := by
  refine ⟨fun exchange index call aside now => aside.issue_eq now, ?_⟩
  intro exchange idle steps harmless whole alone
  have twins : exchange.Twins exchange := ⟨idle, idle, rfl, rfl⟩
  exact twins.performAll harmless

/-- Two ranks enter a barrier. Between their calls come one for an unknown group, one with a root
that does not exist and one of an outsider. -/
theorem bystanders_leave_no_trace_barrier :
    let exchange := create (World.create 3 [[0, 1]] 10) [0, 1, 2]
    let barrier : Call := .barrier 1
    let lost : Call := .barrier 7
    let rootless : Call := { buffers := { operation := .gather }, root := 2, group := 1 }
    let step : Interrupted := ⟨[(true, 0, lost), (false, 0, barrier), (true, 0, rootless),
      (true, 2, barrier), (false, 1, barrier)], 2, 5⟩
    (exchange.issue 0 2 barrier).1 = { exchange with nextTicket := 1 } ∧
    step.Harmless exchange ∧
    (exchange.performAll [step.alone]).2 = [[.ok barrier, .ok barrier]] ∧
    List.zipWith Interrupted.others [step] (exchange.performAll [step.whole]).2 =
      (exchange.performAll [step.alone]).2 := by
  intro exchange barrier lost rootless step
  obtain ⟨single, runs⟩ := bystanders_leave_no_trace
  have outsider : exchange.StandsAside 2 barrier := ⟨2, rfl, .outsider (by decide)⟩
  have harmless : step.Harmless exchange := by
    refine ⟨?_, by decide, by decide⟩
    intro made listed inserted
    simp only [step, List.mem_cons, List.not_mem_nil, or_false] at listed
    rcases listed with rfl | rfl | rfl | rfl | rfl
    · exact ⟨0, rfl, .unknownGroup rfl⟩
    · cases inserted
    · exact ⟨0, rfl, .root rfl (by decide)⟩
    · exact outsider
    · cases inserted
  refine ⟨?_, harmless, rfl, ?_⟩
  · rw [single exchange 2 barrier outsider 0]
    rfl
  · exact (runs exchange ⟨rfl, rfl⟩ [step] (by simpa using harmless)).1

end Exchange

end CollectiveBench
