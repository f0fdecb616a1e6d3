import CollectiveBench.Proofs.Exchange.Rendezvous
import CollectiveBench.Proofs.Exchange.Schedule

/-!
# Steps without early deadlines

Where the timeout is longer than the issuing of all calls takes, no deadline takes effect before
the last call is issued: the step begins with the events of `schedule` alone. While calls are
issued nobody leaves a round but with the list of a complete one (`History.handed_only`). If the
members of a group without repeated ranks count alike and have made equally many accepted calls
on it, none of these calls waits by then (`History.settled`), and each has been answered with what
the calls of its number bring (`History.answered_settled`).

Each event of a run happened to the exchange as the events before it left it, and its answers
and its arriving call are found in the whole run (`History.before`).
-/

namespace CollectiveBench

namespace Exchange

/-- Where the last of several calls is issued in time, each is. -/
theorem issued_in_time {pause count timeoutMs : Nat} (prompt : pause * (count - 1) < timeoutMs) :
    ∀ place < count, pause * place < timeoutMs := by
  intro place inside
  have within : pause * place ≤ pause * (count - 1) := Nat.mul_le_mul_left _ (by omega)
  omega

/-- The events of issuing calls with pauses between them. -/
def schedule (pause now : Nat) : List (Nat × Call) → List Event
  | [] => []
  | (index, call) :: rest => .issue now index call :: schedule pause (now + pause) rest

/-- A schedule issues its calls, in their order. -/
@[simp] theorem issued?_schedule (pause now : Nat) (calls : List (Nat × Call)) :
    (schedule pause now calls).filterMap Event.issued? = calls := by
  induction calls generalizing now with
  | nil => rfl
  | cons made rest inductionHypothesis =>
    simp [schedule, Event.issued?, inductionHypothesis]

/-- A schedule has no other events. -/
theorem isSome_issued?_schedule (pause now : Nat) (calls : List (Nat × Call)) :
    ∀ event ∈ schedule pause now calls, event.issued?.isSome := by
  induction calls generalizing now with
  | nil => simp [schedule]
  | cons made rest inductionHypothesis =>
    intro event happens
    rcases List.mem_cons.mp happens with rfl | later
    · rfl
    · exact inductionHypothesis (now + pause) event later

/-- The event at each place of a schedule issues the call at that place. -/
theorem getElem?_schedule (pause now : Nat) {calls : List (Nat × Call)} {place index : Nat}
    {call : Call} (made : calls[place]? = some (index, call)) :
    (schedule pause now calls)[place]? = some (.issue (now + pause * place) index call) := by
  induction calls generalizing now place with
  | nil => simp at made
  | cons first rest inductionHypothesis =>
    cases place with
    | zero =>
      obtain rfl : first = (index, call) := by simpa using made
      simp [schedule]
    | succ place =>
      have later := inductionHypothesis (now + pause) (by simpa using made)
      have time : now + pause + pause * place = now + pause * (place + 1) := by
        rw [Nat.mul_succ]
        omega
      simpa [schedule, time] using later

/-- The first events of a schedule are the schedule of the first calls. -/
theorem take_schedule (pause now place : Nat) (calls : List (Nat × Call)) :
    (schedule pause now calls).take place = schedule pause now (calls.take place) := by
  induction calls generalizing now place with
  | nil => simp [schedule]
  | cons made rest inductionHypothesis =>
    cases place with
    | zero => rfl
    | succ place => simp [schedule, inductionHypothesis]

variable {start exchange : Exchange} {events : List Event} {log : List (List Departure)}
  {clock : Nat}

/-- No deadline passes before the time that all waiting calls may wait to. -/
theorem expireBefore_early {now : Nat}
    (rising : exchange.waiting.Pairwise (·.deadline ≤ ·.deadline))
    (early : ∀ entry ∈ exchange.waiting, now ≤ entry.deadline) (fuel : Nat) :
    Exchange.expireBefore (some now) fuel exchange = (exchange, []) := by
  cases fuel with
  | zero => rfl
  | succ fuel =>
    rw [expireBefore_succ rising]
    cases waiting : exchange.waiting with
    | nil => rfl
    | cons due others =>
      have still := early due (by simp [waiting])
      simp [still]

/-- Where each call is issued before the first deadline, issuing all of them is their schedule. -/
theorem Sound.issueAll_prompt [Arithmetic] (sound : exchange.Sound) (timed : exchange.Timed clock)
    (pause now : Nat) (calls : List (Nat × Call)) (onward : clock ≤ now ∨ exchange.waiting = [])
    (ahead : ∀ entry ∈ exchange.waiting, exchange.world.timeoutMs ≤ entry.deadline)
    (prompt : ∀ place < calls.length, now + pause * place < exchange.world.timeoutMs) :
    Exchange.issueAll pause now exchange calls = exchange.run (schedule pause now calls) := by
  induction calls generalizing clock exchange now with
  | nil => rfl
  | cons made others inductionHypothesis =>
    obtain ⟨index, call⟩ := made
    have inTime : now < exchange.world.timeoutMs := by simpa using prompt 0 (by simp)
    have early : ∀ entry ∈ exchange.waiting, now ≤ entry.deadline :=
      fun entry waits => Nat.le_trans (Nat.le_of_lt inTime) (ahead entry waits)
    have unchanged := expireBefore_early timed.rising early exchange.waiting.length
    have world : (exchange.issue now index call).1.world = exchange.world :=
      world_apply sound (.issue now index call)
    have stillAhead : ∀ entry ∈ (exchange.issue now index call).1.waiting,
        (exchange.issue now index call).1.world.timeoutMs ≤ entry.deadline := by
      intro entry waits
      rw [world]
      rcases List.mem_append.mp ((sound.conserved (.issue now index call)).mem_iff.mp
        (List.mem_append_right _ waits)) with arrives | waited
      · rw [arrival_deadline (Option.mem_toList.mp arrives)]
        exact Nat.le_add_left _ _
      · exact ahead entry waited
    have stillPrompt : ∀ place < others.length,
        now + pause + pause * place < (exchange.issue now index call).1.world.timeoutMs := by
      intro place inside
      have later := prompt (place + 1) (by simpa using inside)
      rw [Nat.mul_succ] at later
      rw [world]
      omega
    have stillTimed : (exchange.apply (.issue now index call)).1.Timed now :=
      timed.apply sound onward
    have further := inductionHypothesis (sound.apply _) stillTimed (now + pause)
      (.inl (Nat.le_add_right now pause)) stillAhead stillPrompt
    simp only [Exchange.apply] at further
    simp [Exchange.issueAll, advance, unchanged, further, schedule, Exchange.run, Exchange.apply]

/-- Deadlines are in order after a schedule. -/
theorem Timed.scheduled [Arithmetic] (timed : exchange.Timed clock) (sound : exchange.Sound)
    (pause now : Nat)
    (calls : List (Nat × Call)) (onward : clock ≤ now ∨ exchange.waiting = []) :
    ∃ later, (exchange.run (schedule pause now calls)).1.Timed later := by
  induction calls generalizing clock exchange now with
  | nil => exact ⟨clock, timed⟩
  | cons made others inductionHypothesis =>
    obtain ⟨index, call⟩ := made
    have stillTimed : (exchange.apply (.issue now index call)).1.Timed now :=
      timed.apply sound onward
    exact inductionHypothesis stillTimed (sound.apply _) (now + pause)
      (.inl (Nat.le_add_right now pause))

/-- A schedule continues a run. -/
theorem History.scheduled [Arithmetic] (history : History start events log clock exchange)
    (pause now : Nat)
    (calls : List (Nat × Call)) (onward : clock ≤ now ∨ exchange.waiting = []) :
    ∃ laterLog later, Continues start events exchange calls
      (exchange.run (schedule pause now calls)) (schedule pause now calls) laterLog later := by
  induction calls generalizing events log clock exchange now with
  | nil => exact ⟨_, _, history.idle⟩
  | cons made others inductionHypothesis =>
    obtain ⟨index, call⟩ := made
    have issued := history.issue onward index call
    obtain ⟨_, _, further⟩ := inductionHypothesis issued.history (now + pause)
      (.inl (Nat.le_add_right now pause))
    exact ⟨_, _, issued.trans further⟩

/-- Where each call is issued before the first deadline, issuing all of them continues a run with
their schedule. -/
theorem History.issueAll_prompt [Arithmetic] (rest : start.AtRest) (pause now : Nat)
    (calls : List (Nat × Call)) (history : History start events log clock exchange)
    (onward : clock ≤ now ∨ exchange.waiting = [])
    (ahead : ∀ entry ∈ exchange.waiting, start.world.timeoutMs ≤ entry.deadline)
    (prompt : ∀ place < calls.length, now + pause * place < start.world.timeoutMs) :
    ∃ laterLog later, Continues start events exchange calls
      (Exchange.issueAll pause now exchange calls) (schedule pause now calls) laterLog later := by
  have ledger := history.ledger rest
  rw [← ledger.world] at ahead prompt
  rw [ledger.sound.issueAll_prompt (history.timed rest) pause now calls onward ahead prompt]
  exact history.scheduled pause now calls onward

/-- Running the events of a run leads to its exchange. -/
theorem History.run_eq [Arithmetic] (history : History start events log clock exchange) :
    (start.run events).1 = exchange := by
  induction history with
  | start => rfl
  | step earlier event onward permitted inductionHypothesis =>
    rw [run_append, inductionHypothesis]
    rfl

/-- The answers to a run are those to the events before its last one, and those to the last. -/
theorem History.run_snoc [Arithmetic] (history : History start events log clock exchange)
    (event : Event) :
    (start.run (events ++ [event])).2 = (start.run events).2 ++ (exchange.apply event).2 := by
  rw [run_append, history.run_eq]
  simp [run]

/-- Whoever departed in a run was answered in it. -/
theorem History.answered [Arithmetic] (rest : start.AtRest)
    (history : History start events log clock exchange) :
    ∀ departure ∈ log.flatten,
      departure.answer start.world.timeoutMs ∈ (start.run events).2 := by
  induction history with
  | start => simp
  | @step events log clock exchange earlier event onward permitted inductionHypothesis =>
    have ledger := earlier.ledger rest
    intro departure departed
    rw [earlier.run_snoc event]
    rw [List.flatten_append, List.flatten_singleton] at departed
    rcases List.mem_append.mp departed with before | last
    · exact List.mem_append_left _ (inductionHypothesis departure before)
    · apply List.mem_append_right
      rw [ledger.sound.answers_of_departures (List.ne_nil_of_mem last), ledger.world]
      exact List.mem_map_of_mem last

/-- A list that was handed over in a run has the contributions of the accepted calls of one
number, and all of these calls departed. -/
theorem History.handed_over [Arithmetic] (rest : start.AtRest)
    (history : History start events log clock exchange) :
    ∀ departure ∈ log.flatten, ∀ all, departure.fate = .handed all →
      all.length = (start.world.members departure.entry.key.group).length ∧
      ∀ place rank : Nat, (start.world.members departure.entry.key.group)[place]? = some rank →
        ∃ entry ∈ log.flatten.map Departure.entry, entry.rank = rank ∧
          entry.key = departure.entry.key ∧ all[place]? = some entry.call.contribution := by
  induction history with
  | start => simp
  | @step events log clock exchange earlier event onward permitted inductionHypothesis =>
    intro departure departed all handed
    rw [List.flatten_append, List.flatten_singleton] at departed ⊢
    rw [List.map_append]
    rcases List.mem_append.mp departed with before | last
    · obtain ⟨length, others⟩ := inductionHypothesis departure before all handed
      refine ⟨length, fun place rank sits => ?_⟩
      obtain ⟨entry, present, facts⟩ := others place rank sits
      exact ⟨entry, List.mem_append_left _ present, facts⟩
    · obtain ⟨_, length, others⟩ := earlier.handed rest last handed
      refine ⟨length, fun place rank sits => ?_⟩
      obtain ⟨entry, present, sameRank, sameKey, _, contribution⟩ := others place rank sits
      exact ⟨entry, List.mem_append_right _ present, sameRank, sameKey, contribution⟩

/-- Each event of a run happened to the exchange as the events before it left it. Its answers and
its arriving call are in the whole run. -/
theorem History.before [Arithmetic] (rest : start.AtRest)
    (history : History start events log clock exchange) {place : Nat} {event : Event}
    (happened : events[place]? = some event) :
    ∃ earlierLog time middle, History start (events.take place) earlierLog time middle ∧
      (∀ answer ∈ (middle.apply event).2, answer ∈ (start.run events).2) ∧
      ∀ entry, middle.arrival? event = some entry →
        entry ∈ log.flatten.map Departure.entry ++ exchange.waiting := by
  induction history with
  | start => simp at happened
  | @step events log clock exchange earlier last onward permitted inductionHypothesis =>
    have conserved := (earlier.ledger rest).sound.conserved last
    rw [earlier.run_snoc last, List.flatten_append, List.flatten_singleton, List.map_append,
      List.append_assoc]
    by_cases inside : place < events.length
    · rw [List.getElem?_append_left inside] at happened
      obtain ⟨earlierLog, time, middle, middleHistory, answers, arrivals⟩ :=
        inductionHypothesis happened
      refine ⟨earlierLog, time, middle, ?_, ?_, ?_⟩
      · rwa [List.take_append_of_le_length (Nat.le_of_lt inside)]
      · exact fun answer given => List.mem_append_left _ (answers answer given)
      · intro entry arrives
        rcases List.mem_append.mp (arrivals entry arrives) with departed | waits
        · exact List.mem_append_left _ departed
        · exact List.mem_append_right _
            (conserved.mem_iff.mpr (List.mem_append_right _ waits))
    · rw [List.getElem?_append_right (Nat.le_of_not_lt inside)] at happened
      obtain ⟨bound, rfl⟩ := List.getElem?_eq_some_iff.mp happened
      have here : place = events.length := by
        simp only [List.length_singleton] at bound
        omega
      subst here
      simp only [Nat.sub_self, List.getElem_singleton]
      refine ⟨log, clock, exchange, by simpa using earlier, ?_, ?_⟩
      · exact fun answer given => List.mem_append_right _ given
      · intro entry arrives
        apply List.mem_append_right
        apply conserved.mem_iff.mpr
        simp [arrives]

/-- While calls are issued and may wait, nobody leaves a round but with a list. -/
theorem History.handed_only [Arithmetic] (rest : start.AtRest)
    (history : History start events log clock exchange)
    (issues : ∀ event ∈ events, event.issued?.isSome) (patient : start.world.timeoutMs ≠ 0) :
    ∀ departure ∈ log.flatten, ∃ all, departure.fate = .handed all := by
  induction history with
  | start => simp
  | @step events log clock exchange earlier event onward permitted inductionHypothesis =>
    have ledger := earlier.ledger rest
    intro departure departed
    rw [List.flatten_append, List.flatten_singleton] at departed
    rcases List.mem_append.mp departed with before | last
    · exact inductionHypothesis (fun other present => issues other (List.mem_append_left _ present))
        departure before
    · have issued := issues event (List.mem_append_right _ (List.mem_singleton_self event))
      have step := ledger.sound.step event
      generalize exchange.departures event = leaving at step last
      generalize (exchange.apply event).1 = after at step
      cases step with
      | answered stays => simp at last
      | refused arrives taken =>
        obtain ⟨other, present, same⟩ := taken
        exact absurd same (earlier.vacant rest arrives other present)
      | completed arrives vacant full =>
        obtain ⟨entry, _, rfl⟩ := List.mem_map.mp last
        exact ⟨_, rfl⟩
      | hurried arrives vacant short impatient =>
        exact absurd (ledger.world ▸ impatient) patient
      | waits arrives vacant short stillPatient => simp at last
      | expired found => cases issued
      | idle missing => simp at last

/-- An accepted call of a rank was issued by its endpoint. -/
theorem issued_of_mem_acceptedCalls {world : World} {rank group : Nat} {call : Call}
    (made : call ∈ world.acceptedCalls rank group events) :
    (rank, call) ∈ events.filterMap Event.issued? := by
  obtain ⟨event, happened, accepted⟩ := List.mem_filterMap.mp made
  cases event with
  | expire now ticket => cases accepted
  | issue now index issued =>
    simp only [World.acceptedCall?, Option.ite_none_right_eq_some, Option.some.injEq] at accepted
    obtain ⟨⟨rfl, _, _⟩, rfl⟩ := accepted
    exact List.mem_filterMap.mpr ⟨_, happened, rfl⟩

/-- The members of a group that issue calls count alike in it. -/
def InStep (exchange : Exchange) (group : Nat) : Prop :=
  ∀ rank ∈ exchange.world.members group, ∀ other ∈ exchange.world.members group,
    rank < exchange.endpoints.length → other < exchange.endpoints.length →
      exchange.sequence rank group = exchange.sequence other group

/-- The members of a group without repeated ranks count alike, and with these events they made
equally many accepted calls on it while nobody's deadline passed. -/
structure Convenes (start : Exchange) (events : List Event) (group : Nat) : Prop where
  issues : ∀ event ∈ events, event.issued?.isSome
  patient : start.world.timeoutMs ≠ 0
  /-- Every call was issued by an endpoint. -/
  posts : ∀ made ∈ events.filterMap Event.issued?, made.1 < start.endpoints.length
  apart : (start.world.members group).Nodup
  inStep : start.InStep group
  balanced : ∀ rank ∈ start.world.members group, ∀ other ∈ start.world.members group,
    (start.world.acceptedCalls rank group events).length =
      (start.world.acceptedCalls other group events).length

/-- While calls are issued and may wait, whoever waits does so for a member of its group that has
not made its accepted call of the same number. Otherwise the round would have been entered by all
members, and each of them would still wait: whoever was handed a list left with all others. -/
theorem History.awaits [Arithmetic] (rest : start.AtRest)
    (history : History start events log clock exchange)
    (issues : ∀ event ∈ events, event.issued?.isSome) (patient : start.world.timeoutMs ≠ 0)
    (posts : ∀ made ∈ events.filterMap Event.issued?, made.1 < start.endpoints.length)
    {entry : Waiting} (waits : entry ∈ exchange.waiting)
    (apart : (start.world.members entry.key.group).Nodup) (inStep : start.InStep entry.key.group)
    {number : Nat}
    (numbered : entry.key.sequence = start.sequence entry.rank entry.key.group + number) :
    ∃ rank ∈ start.world.members entry.key.group,
      (start.world.acceptedCalls rank entry.key.group events).length ≤ number := by
  by_contra nobody
  simp only [not_exists, not_and, Nat.not_le] at nobody
  have ledger := history.ledger rest
  have recorded := ledger.recorded entry (List.mem_append_right _ waits)
  have own : entry.rank ∈ start.world.members entry.key.group :=
    List.mem_of_getElem? (World.getElem?_positionIn recorded.place)
  have everyone : start.world.members entry.key.group ⊆
      (exchange.depositors entry.key).map Waiting.rank := by
    intro rank member
    have bound := nobody rank member
    have made := List.getElem?_eq_getElem bound
    have inside := posts _ (issued_of_mem_acceptedCalls (List.getElem_mem bound))
    obtain ⟨other, present, sameRank, key, _⟩ := ledger.complete rank _ number _ inside made
    have sameKey : other.key = entry.key := by
      rw [key, inStep rank member entry.rank own inside recorded.inside, ← numbered]
    rcases List.mem_append.mp present with departed | otherWaits
    -- Had this member left, the waiting one would have left with it, and it has one entry only.
    · obtain ⟨departure, left, rfl⟩ := List.mem_map.mp departed
      obtain ⟨all, handed⟩ := history.handed_only rest issues patient departure left
      have sits := World.getElem?_positionIn recorded.place
      rw [← sameKey] at sits
      obtain ⟨twin, twinLeft, twinRank, twinKey, _⟩ :=
        (history.handed_over rest departure left all handed).2 _ _ sits
      have distinct := ledger.distinct
      rw [List.map_append] at distinct
      refine absurd rfl ((List.nodup_append.mp distinct).2.2 _ (List.mem_map_of_mem twinLeft) _ ?_)
      rw [twinRank, twinKey, sameKey]
      exact List.mem_map_of_mem (f := fun entry => (entry.rank, entry.key)) waits
    · exact List.mem_map.mpr ⟨other, mem_depositors.mpr ⟨otherWaits, sameKey⟩, sameRank⟩
  have enough := (List.subperm_of_subset apart everyone).length_le
  have short := ledger.sound.unfinished entry waits
  rw [roundSize, ledger.world] at short
  rw [List.length_map] at enough
  omega

/-- Once the members of a group have convened, none of their calls on it waits. -/
theorem History.settled [Arithmetic] (rest : start.AtRest)
    (history : History start events log clock exchange) {group : Nat}
    (convenes : start.Convenes events group) :
    ∀ entry ∈ exchange.waiting, entry.key.group ≠ group := by
  intro entry waits here
  subst here
  have recorded := (history.ledger rest).recorded entry (List.mem_append_right _ waits)
  obtain ⟨number, numbered, made⟩ := recorded.made
  have own : entry.rank ∈ start.world.members entry.key.group :=
    List.mem_of_getElem? (World.getElem?_positionIn recorded.place)
  obtain ⟨rank, member, behind⟩ := history.awaits rest convenes.issues convenes.patient
    convenes.posts waits convenes.apart convenes.inStep numbered
  have equal := convenes.balanced rank member entry.rank own
  have bound := (List.getElem?_eq_some_iff.mp made).1
  omega

/-- A list with one value for each entry of another is what a function makes of that. -/
theorem eq_filterMap {α β : Type} {entries : List α} {values : List β} {value : α → Option β}
    (length : values.length = entries.length)
    (each : ∀ (place : Nat) (entry : α), entries[place]? = some entry →
      ∃ found, value entry = some found ∧ values[place]? = some found) :
    values = entries.filterMap value := by
  induction entries generalizing values with
  | nil => simpa using length
  | cons entry rest inductionHypothesis =>
    cases values with
    | nil => simp at length
    | cons first others =>
      obtain ⟨found, here, there⟩ := each 0 entry rfl
      obtain rfl : first = found := by simpa using there
      rw [List.filterMap_cons, here]
      simp only
      rw [← inductionHypothesis (by simpa using length)]
      intro place other present
      simpa using each (place + 1) other (by simpa using present)

/-- In a run whose members count alike, a list that was handed over has the accepted calls of one
number of all members, counted from the start of the run. -/
theorem History.handed_eq [Arithmetic] (rest : start.AtRest)
    (history : History start events log clock exchange) {departure : Departure}
    (departed : departure ∈ log.flatten) {all : List Contribution}
    (handed : departure.fate = .handed all)
    (inStep : start.InStep departure.entry.key.group) {number : Nat}
    (numbered : departure.entry.key.sequence =
      start.sequence departure.entry.rank departure.entry.key.group + number) :
    all = (start.world.members departure.entry.key.group).filterMap fun member =>
      (start.world.acceptedCalls member departure.entry.key.group events)[number]?.map
        Call.contribution := by
  have ledger := history.ledger rest
  obtain ⟨length, others⟩ := history.handed_over rest departure departed all handed
  have recorded := ledger.recorded departure.entry
    (List.mem_append_left _ (List.mem_map_of_mem departed))
  have own := List.mem_of_getElem? (World.getElem?_positionIn recorded.place)
  apply eq_filterMap length
  intro place member sits
  obtain ⟨entry, present, rfl, sameKey, contribution⟩ := others place member sits
  have facts := ledger.recorded entry (List.mem_append_left _ present)
  obtain ⟨index, sequence, made⟩ := facts.made
  have alike := inStep entry.rank (List.mem_of_getElem? sits) departure.entry.rank own
    facts.inside recorded.inside
  have same : index = number := by
    rw [sameKey] at sequence
    omega
  rw [sameKey, same] at made
  exact ⟨entry.call.contribution, by rw [made]; rfl, contribution⟩

/-- While calls are issued and may wait, a call that does not wait any more has been answered with
what the accepted calls of its number bring. -/
theorem History.answered_handed [Arithmetic] (rest : start.AtRest)
    (history : History start events log clock exchange)
    (issues : ∀ event ∈ events, event.issued?.isSome) (patient : start.world.timeoutMs ≠ 0)
    {entry : Waiting} (departed : entry ∈ log.flatten.map Departure.entry)
    (inStep : start.InStep entry.key.group) {number : Nat}
    (numbered : entry.key.sequence = start.sequence entry.rank entry.key.group + number) :
    ⟨entry.ticket, conclude entry.call entry.rank entry.position
      ((start.world.members entry.key.group).filterMap fun member =>
        (start.world.acceptedCalls member entry.key.group events)[number]?.map
          Call.contribution)⟩ ∈ (start.run events).2 := by
  obtain ⟨departure, left, rfl⟩ := List.mem_map.mp departed
  obtain ⟨all, handed⟩ := history.handed_only rest issues patient departure left
  rw [← history.handed_eq rest left handed inStep numbered]
  have answered := history.answered rest departure left
  rwa [Departure.answer, handed] at answered

/-- Once the members of a group have convened, every accepted call on it has been answered with
what the accepted calls of its number bring. -/
theorem History.answered_settled [Arithmetic] (rest : start.AtRest)
    (history : History start events log clock exchange) {group : Nat}
    (convenes : start.Convenes events group)
    {entry : Waiting} (entered : entry ∈ log.flatten.map Departure.entry ++ exchange.waiting)
    (here : entry.key.group = group) {number : Nat}
    (numbered : entry.key.sequence = start.sequence entry.rank entry.key.group + number) :
    ⟨entry.ticket, conclude entry.call entry.rank entry.position
      ((start.world.members group).filterMap fun member =>
        (start.world.acceptedCalls member group events)[number]?.map Call.contribution)⟩ ∈
      (start.run events).2 := by
  have departed : entry ∈ log.flatten.map Departure.entry := by
    rcases List.mem_append.mp entered with departed | waits
    · exact departed
    · exact absurd here (history.settled rest convenes entry waits)
  subst here
  exact history.answered_handed rest convenes.issues convenes.patient departed convenes.inStep
    numbered

end Exchange

end CollectiveBench
