import CollectiveBench.Proofs.Exchange.Prompt

/-!
# The order of arrival does not show

In a step whose calls are all issued before the first deadline, the answer to a call is given by
the lists of calls that each rank makes on the group, and by how many of them come before the
call: `World.outcome` says so without any exchange. Two orders of the same calls that keep the
order of each rank's calls on each group have the same lists, and therefore the same answers.

A group that lists a rank twice is different. Its rounds never complete, because nobody can take
the second place of that rank, and which of the calls times out first depends on the order.
-/

namespace CollectiveBench

/-- The calls that a rank makes on a group. -/
def callsOf (rank group : Nat) (calls : List (Nat × Call)) : List Call :=
  (calls.filter fun made => made.1 = rank ∧ made.2.group = group).map Prod.snd

/-- The answers to the calls that a rank makes on a group. -/
def answersOf (rank group : Nat) (calls : List (Nat × Call)) (outcomes : List (Outcome Call)) :
    List (Outcome Call) :=
  ((calls.zip outcomes).filter fun pair => pair.1.1 = rank ∧ pair.1.2.group = group).map Prod.snd

namespace World

/-- The calls that a rank makes on a group and that take a seat. -/
def acceptedOf (world : World) (rank group : Nat) (calls : List (Nat × Call)) : List Call :=
  (callsOf rank group calls).filter (world.accepts rank ·)

/-- The members of a group make equally many accepted calls on it. -/
def Balanced (world : World) (group : Nat) (calls : List (Nat × Call)) : Prop :=
  ∀ rank ∈ world.members group, ∀ other ∈ world.members group,
    (world.acceptedOf rank group calls).length = (world.acceptedOf other group calls).length

/-- The answer to a call of a rank that makes the calls `earlier` on the group before it: a call
with a seat is answered with what the accepted calls of its number bring. -/
def outcome [Arithmetic] (world : World) (calls : List (Nat × Call)) (rank : Nat)
    (earlier : List Call)
    (call : Call) : Outcome Call :=
  match world.seatFor rank call with
  | .error error => .error error
  | .ok none => .ok call
  | .ok (some seat) =>
    let number := (earlier.filter (world.accepts rank ·)).length
    conclude call rank seat.position ((world.members call.group).filterMap fun member =>
      (world.acceptedOf member call.group calls)[number]?.map Call.contribution)

/-- The accepted calls of a run are those among the calls that were issued. -/
theorem acceptedCalls_eq (world : World) (rank group : Nat) (events : List Event) :
    world.acceptedCalls rank group events =
      world.acceptedOf rank group (events.filterMap Event.issued?) := by
  induction events with
  | nil => rfl
  | cons event rest inductionHypothesis =>
    rw [acceptedCalls] at inductionHypothesis ⊢
    cases event with
    | expire now ticket =>
      simpa [List.filterMap_cons, acceptedCall?, Event.issued?] using inductionHypothesis
    | issue now index call =>
      simp only [List.filterMap_cons, acceptedCall?, Event.issued?, inductionHypothesis,
        acceptedOf, callsOf]
      by_cases own : index = rank ∧ call.group = group
      · by_cases accepted : world.accepts rank call <;> simp [own, accepted]
      · have other : ¬(index = rank ∧ call.group = group ∧ world.accepts rank call) := by
          rintro ⟨sameRank, sameGroup, _⟩
          exact own ⟨sameRank, sameGroup⟩
        simp [own, other]

end World

/-- The first call belongs to a rank and a group, or the rest has all of theirs. -/
theorem callsOf_cons (rank group index : Nat) (call : Call) (rest : List (Nat × Call)) :
    callsOf rank group ((index, call) :: rest) =
      if index = rank ∧ call.group = group then call :: callsOf rank group rest
      else callsOf rank group rest := by
  by_cases own : index = rank ∧ call.group = group <;> simp [callsOf, own]

/-- The first answer belongs to a rank and a group, or the rest has all of theirs. -/
theorem answersOf_cons (rank group index : Nat) (call : Call) (outcome : Outcome Call)
    (rest : List (Nat × Call)) (others : List (Outcome Call)) :
    answersOf rank group ((index, call) :: rest) (outcome :: others) =
      if index = rank ∧ call.group = group then outcome :: answersOf rank group rest others
      else answersOf rank group rest others := by
  by_cases own : index = rank ∧ call.group = group <;> simp [answersOf, own]

/-- Where each answer to a rank's calls on a group is a function of the earlier ones and the call,
the answers are a function of these calls. -/
theorem answersOf_eq {rank group : Nat} {calls : List (Nat × Call)}
    {outcomes : List (Outcome Call)} (answer : List Call → Call → Outcome Call)
    (length : outcomes.length = calls.length)
    (each : ∀ (place : Nat) (call : Call), calls[place]? = some (rank, call) →
      call.group = group →
        outcomes[place]? = some (answer (callsOf rank group (calls.take place)) call)) :
    answersOf rank group calls outcomes =
      (callsOf rank group calls).mapIdx fun place call =>
        answer ((callsOf rank group calls).take place) call := by
  induction calls generalizing outcomes answer with
  | nil => simp [answersOf, callsOf]
  | cons made rest inductionHypothesis =>
    obtain ⟨index, call⟩ := made
    cases outcomes with
    | nil => simp at length
    | cons outcome others =>
      have restLength : others.length = rest.length := by simpa using length
      rw [callsOf_cons, answersOf_cons]
      by_cases own : index = rank ∧ call.group = group
      · simp only [own, and_self, if_true]
        obtain rfl : outcome = answer [] call := by
          simpa [callsOf] using each 0 call (by simp [own.1]) own.2
        rw [inductionHypothesis (fun earlier => answer (call :: earlier)) restLength,
          List.mapIdx_cons]
        · simp
        · intro place later made group
          have given := each (place + 1) later (by simpa using made) group
          rwa [List.take_succ_cons, callsOf_cons, if_pos own, List.getElem?_cons_succ] at given
      · simp only [own, if_false]
        apply inductionHypothesis answer restLength
        intro place later made group
        have given := each (place + 1) later (by simpa using made) group
        rwa [List.take_succ_cons, callsOf_cons, if_neg own, List.getElem?_cons_succ] at given

namespace Exchange

variable {start exchange : Exchange} {events : List Event} {log : List (List Departure)}
  {clock : Nat}

/-- Tickets are counted up with every issued call. -/
theorem History.nextTicket_eq [Arithmetic] (rest : start.AtRest)
    (history : History start events log clock exchange) :
    exchange.nextTicket = start.nextTicket + (events.filterMap Event.issued?).length := by
  induction history with
  | start => rfl
  | step earlier event onward permitted inductionHypothesis =>
    rw [nextTicket_apply (earlier.ledger rest).sound, inductionHypothesis, List.filterMap_append,
      List.length_append, Nat.add_assoc]
    cases event <;> rfl

/-- Where the calls are issued before the first deadline, the step begins with their schedule. -/
theorem AtRest.perform_prompt [Arithmetic] (rest : exchange.AtRest) {pause : Nat}
    {calls : List (Nat × Call)}
    (prompt : ∀ place < calls.length, pause * place < exchange.world.timeoutMs) :
    ∃ early time late log clock,
      History exchange (schedule pause 0 calls) early time
        (exchange.run (schedule pause 0 calls)).1 ∧
      Performs exchange calls (exchange.perform pause calls) (schedule pause 0 calls ++ late)
        log clock := by
  obtain ⟨early, time, issued⟩ := History.issueAll_prompt rest pause 0 calls .start
    (.inl (Nat.le_refl 0)) (by simp [rest.waiting]) (by simpa using prompt)
  obtain ⟨late, log, clock, performs⟩ := rest.performs issued
  have history := issued.history
  rw [List.nil_append] at history
  exact ⟨early, time, late, log, clock, history.run_eq ▸ history, performs⟩

/-- What a call without a seat is answered does not depend on the exchange. -/
theorem immediate_eq [Arithmetic] (staffed : exchange.Staffed) {now rank : Nat} {call : Call}
    (inside : rank < exchange.endpoints.length)
    (stays : exchange.arrival? (.issue now rank call) = none) (calls : List (Nat × Call))
    (earlier : List Call) :
    exchange.immediate rank call = exchange.world.outcome calls rank earlier call := by
  have found := List.getElem?_eq_getElem inside
  obtain ⟨same, _⟩ := staffed rank _ found
  cases seated : exchange.world.seatFor rank call with
  | error error => simp [immediate, found, same, World.outcome, seated, Except.map]
  | ok taken =>
    cases taken with
    | none => simp [immediate, found, same, World.outcome, seated, Except.map]
    | some seat => simp [arrival?, found, same, seated] at stays

/-- In a step whose calls are issued before the first deadline, the answers on a group without
repeated ranks are determined by the calls that its members make on it. -/
theorem AtRest.outcome_eq [Arithmetic] (rest : exchange.AtRest) {pause : Nat}
    {calls : List (Nat × Call)}
    (posts : ∀ made ∈ calls, made.1 < exchange.endpoints.length)
    (prompt : ∀ place < calls.length, pause * place < exchange.world.timeoutMs) {group : Nat}
    (apart : (exchange.world.members group).Nodup) (inStep : exchange.InStep group)
    (balanced : exchange.world.Balanced group calls) {place rank : Nat} {call : Call}
    (made : calls[place]? = some (rank, call)) (here : call.group = group) :
    (exchange.perform pause calls).2[place]? = some
      (exchange.world.outcome calls rank (callsOf rank group (calls.take place)) call) := by
  obtain ⟨early, time, late, log, clock, history, performs⟩ := rest.perform_prompt prompt
  have bound := (List.getElem?_eq_some_iff.mp made).1
  have happened := getElem?_schedule pause 0 made
  obtain ⟨_, _, middle, before, answers, arrivals⟩ := history.before rest happened
  have ledger := before.ledger rest
  have ticket : middle.nextTicket = exchange.nextTicket + place := by
    rw [before.nextTicket_eq rest, take_schedule, issued?_schedule, List.length_take,
      Nat.min_eq_left (Nat.le_of_lt bound)]
  have given (outcome : Outcome Call)
      (answered : ⟨exchange.nextTicket + place, outcome⟩ ∈
        (exchange.run (schedule pause 0 calls)).2) :
      (exchange.perform pause calls).2[place]? = some outcome := by
    rw [performs.outcomes, run_append]
    exact List.mem_append_left _ answered
  apply given
  cases arrives : middle.arrival? (.issue (0 + pause * place) rank call) with
  | none =>
    have inside : rank < middle.endpoints.length :=
      ledger.posts ▸ posts _ (List.mem_of_getElem? made)
    rw [← ledger.world, ← immediate_eq ledger.staffed inside arrives, ← ticket]
    apply answers
    rw [ledger.sound.answers_apply]
    simp only [answersTo, arrives, List.mem_singleton]
  | some entry =>
    obtain ⟨endpoint, seat, found, seated, same⟩ := arrival?_issue arrives
    obtain ⟨_, newest, _, _, number, _⟩ := ledger.arrival arrives
    have owner : endpoint.rank = rank := (ledger.staffed rank endpoint found).1
    have patient : exchange.world.timeoutMs ≠ 0 := Nat.ne_zero_of_lt (prompt place bound)
    have convenes : exchange.Convenes (schedule pause 0 calls) group :=
      ⟨isSome_issued?_schedule pause 0 calls, patient, by simpa using posts, apart, inStep,
        by simpa only [World.acceptedCalls_eq, issued?_schedule, World.Balanced] using balanced⟩
    rw [owner] at seated same
    rw [ledger.world] at seated
    have sameGroup : entry.key.group = group := by rw [same, ← here]
    have answer :=
      history.answered_settled rest convenes (arrivals entry arrives) sameGroup number
    rw [newest, ticket, sameGroup, same] at answer
    simp only [World.acceptedCalls_eq, take_schedule, issued?_schedule] at answer
    rw [World.outcome, seated, here]
    exact answer

/-- The answers of two lists of calls are told by the same function where each rank makes the same
calls on the group. -/
theorem outcome_congr [Arithmetic] {world : World} {left right : List (Nat × Call)} {group : Nat}
    (same : ∀ rank, callsOf rank group left = callsOf rank group right) (rank : Nat)
    (earlier : List Call) {call : Call} (here : call.group = group) :
    world.outcome left rank earlier call = world.outcome right rank earlier call := by
  subst here
  simp only [World.outcome, World.acceptedOf, same]

/-- A step counts the accepted calls of each rank on each group. -/
theorem Performs.sequence_eq [Arithmetic] (rest : exchange.AtRest) {calls : List (Nat × Call)}
    {outcome : Exchange × List (Outcome Call)}
    (performs : Performs exchange calls outcome events log clock) {rank group : Nat}
    (inside : rank < exchange.endpoints.length) (known : group < exchange.world.groups.length) :
    outcome.1.sequence rank group = exchange.sequence rank group +
      (exchange.world.acceptedOf rank group calls).length := by
  rw [(performs.history.ledger rest).counted rank group inside known, World.acceptedCalls_eq,
    performs.issued]

/-- Members that count alike and make equally many accepted calls in a step count alike after it. -/
theorem Performs.inStep [Arithmetic] (rest : exchange.AtRest) {calls : List (Nat × Call)}
    {outcome : Exchange × List (Outcome Call)}
    (performs : Performs exchange calls outcome events log clock) {group : Nat}
    (inStep : exchange.InStep group) (balanced : exchange.world.Balanced group calls) :
    outcome.1.InStep group := by
  have ledger := performs.history.ledger rest
  intro rank member other otherMember inside otherInside
  rw [ledger.world] at member otherMember
  rw [ledger.posts] at inside otherInside
  have known : group < exchange.world.groups.length := by
    by_contra unknown
    simp [World.members, List.getElem?_eq_none (Nat.le_of_not_lt unknown)] at member
  rw [performs.sequence_eq rest inside known, performs.sequence_eq rest otherInside known,
    inStep rank member other otherMember inside otherInside,
    balanced rank member other otherMember]

/-- Endpoints that count alike are alike. -/
theorem Staffed.endpoints_eq {first second : Exchange} (staffed : first.Staffed)
    (others : second.Staffed) (world : first.world = second.world)
    (posts : first.endpoints.length = second.endpoints.length)
    (counts : ∀ rank group, rank < first.endpoints.length → group < first.world.groups.length →
      first.sequence rank group = second.sequence rank group) :
    first.endpoints = second.endpoints := by
  apply List.ext_getElem posts
  intro rank inside also
  have found := List.getElem?_eq_getElem inside
  have other := List.getElem?_eq_getElem also
  obtain ⟨own, length⟩ := staffed rank _ found
  obtain ⟨otherOwn, otherLength⟩ := others rank _ other
  have sequences : first.endpoints[rank].sequences = second.endpoints[rank].sequences := by
    apply List.ext_getElem (by rw [length, otherLength, world])
    intro group known alsoKnown
    have count := counts rank group inside (length ▸ known)
    simpa [sequence, found, other, Endpoint.next, known, alsoKnown] using count
  cases mine : first.endpoints[rank]
  cases yours : second.endpoints[rank]
  rw [mine] at own sequences
  rw [yours] at otherOwn sequences
  rw [Endpoint.mk.injEq]
  exact ⟨own.trans otherOwn.symm, sequences⟩

/-- Two orders of the same calls that keep the order of each rank's calls on each group, from an
exchange at rest and with a timeout that is longer than the issuing takes: the endpoints end with
equal counts, and the exchange is at rest again. On every group that lists no rank twice, whose
members count alike and make equally many accepted calls, each call gets the same answer in both
orders, whatever happens on the other groups, and the members count alike again. -/
theorem order_never_shows [Arithmetic] (rest : exchange.AtRest) {pause : Nat}
    {left right : List (Nat × Call)}
    (posts : ∀ made ∈ left, made.1 < exchange.endpoints.length) (reordered : left.Perm right)
    (same : ∀ rank group, callsOf rank group left = callsOf rank group right)
    (prompt : pause * (left.length - 1) < exchange.world.timeoutMs) :
    (exchange.perform pause left).1.AtRest ∧ (exchange.perform pause right).1.AtRest ∧
    (exchange.perform pause left).1.endpoints = (exchange.perform pause right).1.endpoints ∧
    ∀ group, (exchange.world.members group).Nodup → exchange.InStep group →
      exchange.world.Balanced group left →
      (∀ rank, answersOf rank group left (exchange.perform pause left).2 =
        answersOf rank group right (exchange.perform pause right).2) ∧
      (exchange.perform pause left).1.InStep group := by
  have size := reordered.length_eq
  have early := issued_in_time prompt
  obtain ⟨_, _, _, leftPerforms⟩ := rest.perform pause left
  obtain ⟨_, _, _, rightPerforms⟩ := rest.perform pause right
  have leftLedger := leftPerforms.history.ledger rest
  have rightLedger := rightPerforms.history.ledger rest
  have counts (rank group : Nat) (inside : rank < exchange.endpoints.length)
      (known : group < exchange.world.groups.length) :
      (exchange.perform pause left).1.sequence rank group =
        (exchange.perform pause right).1.sequence rank group := by
    rw [leftPerforms.sequence_eq rest inside known, rightPerforms.sequence_eq rest inside known,
      World.acceptedOf, World.acceptedOf, same]
  refine ⟨leftPerforms.rest, rightPerforms.rest, ?_, ?_⟩
  · apply leftLedger.staffed.endpoints_eq rightLedger.staffed
      (leftLedger.world.trans rightLedger.world.symm)
      (leftLedger.posts.trans rightLedger.posts.symm)
    rw [leftLedger.posts, leftLedger.world]
    exact counts
  · intro group apart inStep balanced
    refine ⟨fun rank => ?_, ?_⟩
    · have rightBalanced : exchange.world.Balanced group right := by
        simpa only [World.Balanced, World.acceptedOf, same] using balanced
      have rightPosts : ∀ made ∈ right, made.1 < exchange.endpoints.length :=
        fun made present => posts made (reordered.mem_iff.mpr present)
      rw [answersOf_eq (exchange.world.outcome left rank) leftPerforms.length
          fun place call made here => rest.outcome_eq posts early apart inStep balanced made here,
        answersOf_eq (exchange.world.outcome left rank) rightPerforms.length
          fun place call made here => ?_, same]
      rw [rest.outcome_eq rightPosts (size ▸ early) apart inStep rightBalanced made here,
        outcome_congr (fun member => same member group) rank _ here]
    · exact leftPerforms.inStep rest inStep balanced

/-- Nobody has taken part in a round of a new exchange, so all members count alike. -/
theorem inStep_create (world : World) (ranks : List Nat) (group : Nat) :
    (create world ranks).InStep group := by
  intro rank _ other _ _ _
  rw [sequence_create, sequence_create]

/-- Two ranks reduce on one group and meet in a barrier of another. -/
theorem order_never_shows_pair :
    let world := World.create 2 [[1, 0]] 1000
    let sum (word : Nat) : Call :=
      { buffers := { operation := .allReduce, input := .single ⟨.f32, [word]⟩ } }
    let exchange := create world (List.range 2)
    let left := [(0, sum 1), (1, sum 2), (1, .barrier 1), (0, .barrier 1)]
    let right := [(1, .barrier 1), (1, sum 2), (0, .barrier 1), (0, sum 1)]
    exchange.AtRest ∧ left.Perm right ∧ world.Balanced 0 left ∧
      answersOf 0 0 left (exchange.perform 1 left).2 =
        answersOf 0 0 right (exchange.perform 1 right).2 := by
  intro world sum exchange left right
  have rest : exchange.AtRest := atRest_create world
  have reordered : left.Perm right := by decide
  have balanced : world.Balanced 0 left := by
    unfold World.Balanced
    decide
  have same : ∀ rank group, callsOf rank group left = callsOf rank group right := by
    intro rank group
    rcases rank with _ | _ | rank <;> rcases group with _ | _ | group <;>
      simp [callsOf, left, right, sum, Call.barrier]
  refine ⟨rest, reordered, balanced, ?_⟩
  exact ((order_never_shows rest (by decide) reordered same (by decide)).2.2.2 0 (by decide)
    (inStep_create world _ 0) balanced).1 0

/-- In a group that lists rank 0 twice, the order shows: of two ranks that enter a barrier, the
first one times out and the other one is abandoned. -/
theorem order_shows_in_repeating_group :
    let exchange := create (World.create 2 [[0, 0, 1]] 1000) (List.range 2)
    let left := [(0, Call.barrier 1), (1, .barrier 1)]
    let right := [(1, Call.barrier 1), (0, .barrier 1)]
    (exchange.AtRest ∧ (∀ made ∈ left, made.1 < exchange.endpoints.length) ∧ left.Perm right ∧
      (∀ rank group, callsOf rank group left = callsOf rank group right) ∧
      1 * (left.length - 1) < exchange.world.timeoutMs ∧
      (∀ group, exchange.InStep group) ∧ ∀ group, exchange.world.Balanced group left) ∧
    answersOf 0 1 left (exchange.perform 1 left).2 ≠
      answersOf 0 1 right (exchange.perform 1 right).2 := by
  intro exchange left right
  have timesOut : answersOf 0 1 left (exchange.perform 1 left).2 =
      [.error (.collectiveTimeout "barrier" 0 1000)] := rfl
  have abandoned : answersOf 0 1 right (exchange.perform 1 right).2 =
      [.error (.collectiveFailed "barrier" 0 "round abandoned")] := rfl
  have same : ∀ rank group, callsOf rank group left = callsOf rank group right := by
    intro rank group
    rcases rank with _ | _ | rank <;> rcases group with _ | _ | group <;>
      simp [callsOf, left, right, Call.barrier]
  have balanced : ∀ group, exchange.world.Balanced group left := by
    intro group
    rcases group with _ | _ | group
    · unfold World.Balanced
      decide
    · unfold World.Balanced
      decide
    · intro rank member
      simp [exchange, create, World.create, World.members] at member
  refine ⟨⟨atRest_create _, by decide, by decide, same, by decide, inStep_create _ _, balanced⟩, ?_⟩
  rw [timesOut, abandoned]
  simp

end Exchange

end CollectiveBench
