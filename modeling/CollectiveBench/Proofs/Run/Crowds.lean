import Mathlib.Data.Nat.Find
import Mathlib.Data.Prod.Lex
import CollectiveBench.Proofs.Exchange.Scripts
import CollectiveBench.Proofs.Run.Courses
import CollectiveBench.Run.Crowd

/-!
# Ranks in their own time

The ranks of a crowd move one by one, in any order, and are seldom at the same action. Still each of
them gets what it would get in lockstep: a rank that is about to begin an action is as the course
has it there (`Runner.Along`), and the answers to its calls are those that a complete round of the
calls of all ranks brings (`History.answers_script`). So no deadline ever takes effect, and a crowd
in which nothing can happen any more has come to where the course ends (`Crowd.Along.ended`).
-/

namespace CollectiveBench

variable [Halves] [Arithmetic] {bench : Bench} {agenda : List Action} {clock : Nat → Nat → Nat}
  {start : Ensemble} {course : Course bench agenda clock start} {rank done last : Nat}
  {action : Action} {events : List Event} {log : List (List Departure)} {runner next : Runner}

/-- How many calls a rank has issued on the group of all ranks. -/
def issuedBy (rank : Nat) (events : List Event) : Nat :=
  (callsOf rank World.defaultGroup (events.filterMap Event.issued?)).length

/-- A runner is where the course has its rank: between two actions, or in the middle of one, with
tickets for the calls that it issued. -/
inductive Runner.Along (course : Course bench agenda clock start) (rank : Nat)
    (events : List Event) :
    Runner → Prop where
  | between {participant : Participant} {done : Nat} (within : done ≤ course.length)
      (located :
        (start.after bench agenda clock done).participants[rank]? = some participant)
      (issued : issuedBy rank events = (course.script done).length) :
      Along course rank events { participant, done }
  | acting {participant : Participant} {done : Nat} {action : Action} {tickets : List Nat}
    {more : Nat}
      (before : done < course.length) (here : agenda[done]? = some action)
      (located :
        (start.after bench agenda clock done).participants[rank]? = some participant)
      (issued : issuedBy rank events = (course.script done).length + tickets.length)
      (copies : tickets.length + more = course.copies done)
      (drawn : ∀ index ticket, tickets[index]? = some ticket → ∃ place now,
        ticket = start.exchange.nextTicket + place ∧
          events[place]? = some (.issue now rank (course.made done rank)) ∧
          (course.script done).length + index = issuedBy rank (events.take place)) :
      Along course rank events {
        participant := (participant.ask bench (clock done rank) action).1
        done
        busy := some (tickets, List.replicate more (course.made done rank)) }

/-- All runners are along the course, and what happened to the exchange are the calls that they
issued. -/
structure Crowd.Along (course : Course bench agenda clock start) (events : List Event)
    (log : List (List Departure)) (crowd : Crowd) : Prop where
  history : Exchange.History start.exchange events log crowd.time crowd.exchange
  answers : crowd.answers = (start.exchange.run events).2
  issues : ∀ event ∈ events, event.issued?.isSome
  scripted : start.exchange.world.Scripted World.defaultGroup (course.script course.length)
    (events.filterMap Event.issued?)
  size : crowd.runners.length = bench.worldSize
  runners : ∀ rank (runner : Runner), crowd.runners[rank]? = some runner →
    runner.Along course rank events

/-! ## Where the course has the ranks -/

/-- There are as many ranks as at first, however far they are. -/
theorem Ensemble.Lockstep.length_after (lockstep : start.Lockstep bench fun _ => True)
    (agenda : List Action) (clock : Nat → Nat → Nat) (done : Nat) :
    (start.after bench agenda clock done).participants.length = bench.worldSize := by
  have ranks : (start.after bench agenda clock done).participants.map Participant.rank =
      List.range bench.worldSize := by
    induction done with
    | zero => exact lockstep.ranks
    | succ done inductionHypothesis =>
      rw [Ensemble.after]
      split
      · exact (Ensemble.ranks_step bench _ _ _).trans inductionHypothesis
      · exact inductionHypothesis
  simpa using congrArg List.length ranks

namespace Course

variable (course : Course bench agenda clock start)

/-- What a rank asks for when it begins an action of the course, and what it has come to after it.
-/
theorem acts (spans : bench.world.members World.defaultGroup = List.range bench.worldSize)
    (patient : 0 < bench.world.timeoutMs) (before : done < course.length)
    (here : agenda[done]? = some action) {participant : Participant}
    (located : (start.after bench agenda clock done).participants[rank]? = some participant) :
    participant.rank = rank ∧ rank < bench.worldSize ∧ participant.failure = none ∧
      (participant.ask bench (clock done rank) action).2 =
        List.replicate (course.copies done) (course.made done rank) ∧
      (course.made done rank).group = World.defaultGroup ∧
      (start.after bench agenda clock (done + 1)).participants[rank]? = some
        (participant.next bench (clock done rank) action (List.replicate (course.copies done)
          (bench.world.answer World.defaultGroup (course.made done) rank))) := by
  have lockstep := course.lockstep done before
  have concerted := course.concerted done before action here
  obtain ⟨rfl, inside⟩ := lockstep.rank_eq located
  have present := List.mem_of_getElem? located
  have steps := lockstep.step_concerted spans patient concerted
  refine ⟨rfl, inside, (lockstep.each participant present).1, concerted.asks participant present,
    concerted.here participant present, ?_⟩
  rw [Ensemble.after_succ here, steps.participants, List.getElem?_map, located]
  rfl

end Course

/-! ## One move -/

omit [Halves] [Arithmetic] in
/-- The count of a rank goes on by one when the rank issues a call on the group of all ranks. -/
theorem issuedBy_snoc (rank : Nat) (events : List Event) (now index : Nat) {call : Call}
    (here : call.group = World.defaultGroup) :
    issuedBy rank (events ++ [.issue now index call]) =
      issuedBy rank events + if index = rank then 1 else 0 := by
  by_cases own : index = rank <;>
    simp [issuedBy, Event.issued?, own, here, callsOf]

namespace Runner.Along

/-- A runner that is along does not move when another rank issues a call. -/
theorem skip (along : runner.Along course rank events) (now : Nat) {index : Nat} {call : Call}
    (here : call.group = World.defaultGroup) (other : index ≠ rank) :
    runner.Along course rank (events ++ [.issue now index call]) := by
  have count := issuedBy_snoc rank events now index here
  rw [if_neg other, Nat.add_zero] at count
  cases along with
  | between within located issued => exact .between within located (count.trans issued)
  | acting before here located issued copies drawn =>
    refine .acting before here located (count.trans issued) copies fun index ticket chosen => ?_
    obtain ⟨place, time, same, happened, turn⟩ := drawn index ticket chosen
    have bound := (List.getElem?_eq_some_iff.mp happened).1
    refine ⟨place, time, same, ?_, ?_⟩
    · rwa [List.getElem?_append_left bound]
    · rwa [List.take_append_of_le_length (Nat.le_of_lt bound)]

variable (spans : bench.world.members World.defaultGroup = List.range bench.worldSize)
  (patient : 0 < bench.world.timeoutMs)

include spans patient

/-- A rank begins actions of the course only. -/
theorem begin (along : runner.Along course rank events)
    (begun : runner.begin? bench agenda clock = some next) : next.Along course rank events := by
  cases along with
  | acting => cases begun
  | @between participant done within located issued =>
    rw [begin?] at begun
    split at begun
    next => cases begun
    next idle =>
      obtain ⟨action, here, rfl⟩ := Option.map_eq_some_iff.mp begun
      -- At the end of the course there is no action left, or the rank has failed.
      have before : done < course.length := by
        refine Nat.lt_of_le_of_ne within fun same => ?_
        subst same
        rcases course.ends with finished | failed
        · have inside := (List.getElem?_eq_some_iff.mp here).1
          exact absurd finished (Nat.ne_of_lt inside)
        · exact idle (.inr (failed participant (List.mem_of_getElem? located)))
      obtain ⟨rfl, _, _, asks, _⟩ := course.acts spans patient before here located
      have acts : Runner.Along course participant.rank events {
          participant := (participant.ask bench (clock done participant.rank) action).1
          done
          busy := some ([],
            List.replicate (course.copies done) (course.made done participant.rank)) } :=
        .acting before here located issued (Nat.zero_add _) nofun
      rw [← asks] at acts
      exact acts

/-- The next call that a rank issues is the one of the script. -/
theorem issue (along : runner.Along course rank events) {ticket : Nat} {call : Call}
    (issued : runner.issue? ticket = some (call, next))
    (drawn : ticket = start.exchange.nextTicket + events.length) :
    ∃ made, call = made rank ∧ call.group = World.defaultGroup ∧ rank < bench.worldSize ∧
      (course.script course.length)[issuedBy rank events]? = some made ∧
      ∀ now, next.Along course rank (events ++ [.issue now rank call]) := by
  cases along with
  | between => cases issued
  | @acting participant done action tickets more before here located count copies tokens =>
    cases more with
    | zero => cases issued
    | succ more =>
      obtain ⟨rfl, rfl⟩ := Prod.mk.inj (Option.some.inj issued)
      obtain ⟨_, inside, _, _, group, _⟩ := course.acts spans patient before here located
      have turn : tickets.length < course.copies done := by omega
      refine ⟨course.made done, rfl, group, inside, ?_, fun now => ?_⟩
      · rw [count]
        exact course.getElem?_script before turn
      · refine .acting before here located ?_ ?_ fun index token chosen => ?_
        · rw [issuedBy_snoc _ _ _ _ group, if_pos rfl, count, List.length_append]
          rfl
        · rw [List.length_append, List.length_singleton]
          omega
        · by_cases old : index < tickets.length
          · rw [List.getElem?_append_left old] at chosen
            obtain ⟨place, time, same, happened, number⟩ := tokens index token chosen
            have bound := (List.getElem?_eq_some_iff.mp happened).1
            refine ⟨place, time, same, ?_, ?_⟩
            · rwa [List.getElem?_append_left bound]
            · rwa [List.take_append_of_le_length (Nat.le_of_lt bound)]
          · have last : index = tickets.length := by
              have bound := (List.getElem?_eq_some_iff.mp chosen).1
              simp only [List.length_append, List.length_singleton] at bound
              omega
            subst last
            obtain rfl : ticket = token := by simpa using chosen
            exact ⟨events.length, now, drawn, by simp, by simpa using count.symm⟩

end Runner.Along

/-- Nothing is left to be issued for the actions that lie behind a runner. -/
theorem Runner.Along.issued_le (along : runner.Along course rank events) :
    (course.script runner.done).length ≤ issuedBy rank events := by
  cases along with
  | between within located issued => exact Nat.le_of_eq issued.symm
  | acting before here located issued copies drawn => exact issued ▸ Nat.le_add_right _ _

/-- A runner that can neither begin nor issue anything before the end of the course has issued all
calls of its action and holds their tickets. -/
theorem Runner.Along.holds (along : runner.Along course rank events)
    (spans : bench.world.members World.defaultGroup = List.range bench.worldSize)
    (patient : 0 < bench.world.timeoutMs) (begins : runner.begin? bench agenda clock = none)
    {ticket : Nat} (issues : runner.issue? ticket = none) (before : runner.done < course.length) :
    ∃ action tickets, agenda[runner.done]? = some action ∧ runner.busy = some (tickets, []) ∧
      (course.script (runner.done + 1)).length = issuedBy rank events ∧
      ∀ ticket ∈ tickets, ∃ index < course.copies runner.done, ∃ place now,
        ticket = start.exchange.nextTicket + place ∧
        events[place]? = some (.issue now rank (course.made runner.done rank)) ∧
        (course.script runner.done).length + index = issuedBy rank (events.take place) := by
  cases along with
  | between within located issued =>
    obtain ⟨action, here⟩ := course.exists_action before
    obtain ⟨_, _, sound, _⟩ := course.acts spans patient before here located
    simp [begin?, sound, here] at begins
  | @acting participant done action tickets more before here located issued copies drawn =>
    cases more with
    | succ more => simp [issue?, List.replicate_succ] at issues
    | zero =>
      refine ⟨action, tickets, here, rfl, ?_, fun ticket listed => ?_⟩
      · rw [course.script_succ, List.length_append, List.length_replicate, issued, ← copies,
          Nat.add_zero]
      · obtain ⟨index, chosen⟩ := List.getElem?_of_mem listed
        have bound := (List.getElem?_eq_some_iff.mp chosen).1
        exact ⟨index, Nat.lt_of_lt_of_eq bound copies, drawn index ticket chosen⟩

/-- In a crowd in which no rank can move, none can begin, issue or take anything. -/
theorem Crowd.still {crowd : Crowd} (stuck : crowd.isStuck bench agenda clock)
    (located : crowd.runners[rank]? = some runner) :
    runner.begin? bench agenda clock = none ∧
      runner.issue? crowd.exchange.nextTicket = none ∧
      runner.take? bench agenda crowd.answers = none := by
  have inside := (List.getElem?_eq_some_iff.mp located).1
  have none := List.all_eq_true.mp (List.all_eq_true.mp stuck rank (List.mem_range.mpr inside))
  simpa [moveOne?, located] using none

namespace Crowd.Along

variable {crowd : Crowd} (along : crowd.Along course events log)
  (lockstep : start.Lockstep bench fun _ => True)
  (spans : bench.world.members World.defaultGroup = List.range bench.worldSize)
  (patient : 0 < bench.world.timeoutMs)

include along lockstep

/-- A ticket is answered with what a complete round of the calls of all ranks brings, as soon as
every rank has issued its call of this round. -/
theorem answers_ticket (spans : bench.world.members World.defaultGroup = List.range bench.worldSize)
    (patient : 0 < bench.world.timeoutMs) {index place now : Nat} (before : done < course.length)
    (inside : index < course.copies done)
    (happened : events[place]? = some (.issue now rank (course.made done rank)))
    (turn : (course.script done).length + index = issuedBy rank (events.take place)) :
    (∀ answer ∈ crowd.answers, answer.ticket = start.exchange.nextTicket + place →
      answer.outcome = bench.world.answer World.defaultGroup (course.made done) rank) ∧
    ((∀ other < bench.worldSize, (course.script done).length + index < issuedBy other events) →
      ∃ answer ∈ crowd.answers, answer.ticket = start.exchange.nextTicket + place) := by
  have world := lockstep.world
  have alike : ∀ made ∈ course.script course.length,
      start.exchange.world.Alike World.defaultGroup made := world.symm ▸ course.alike
  obtain ⟨only, given⟩ := along.history.answers_script lockstep.ready along.issues
    (world.symm ▸ Nat.ne_of_gt patient) along.scripted alike happened turn
    (course.getElem?_script before inside)
  rw [along.answers, ← world]
  refine ⟨only, fun past => ⟨_, given fun other member => ?_, rfl⟩⟩
  rw [world, spans] at member
  exact past other (List.mem_range.mp member)

include spans patient

/-- A rank that goes on with its answers has come to where the course has it after the action. -/
theorem take (located : crowd.runners[rank]? = some runner)
    (took : runner.take? bench agenda crowd.answers = some next) :
    next.Along course rank events := by
  cases along.runners rank runner located with
  | between => cases took
  | @acting participant done action tickets more before here standing count copies drawn =>
    simp only [Runner.take?, here] at took
    cases more with
    | succ more => cases took
    | zero =>
      rw [List.replicate_zero] at took
      simp only [Option.ite_none_right_eq_some, Option.some.injEq] at took
      obtain ⟨answered, rfl⟩ := took
      obtain ⟨_, _, _, _, _, onward⟩ := course.acts spans patient before here standing
      -- The first answer with a ticket is as good as any other, because all of them are the same.
      have outcomes : Runner.outcomesOf crowd.answers tickets =
          List.replicate (course.copies done)
            (bench.world.answer World.defaultGroup (course.made done) rank) := by
        rw [← copies, Nat.add_zero, ← List.map_const', ← List.filterMap_eq_map]
        refine List.filterMap_congr fun ticket listed => ?_
        obtain ⟨index, chosen⟩ := List.getElem?_of_mem listed
        obtain ⟨place, now, rfl, happened, turn⟩ := drawn index ticket chosen
        have inside : index < course.copies done := by
          have bound := (List.getElem?_eq_some_iff.mp chosen).1
          omega
        have only := (along.answers_ticket lockstep spans patient before inside happened turn).1
        have found := List.any_eq_true.mp (List.all_eq_true.mp answered _ listed)
        obtain ⟨answer, first⟩ := Option.isSome_iff_exists.mp (List.find?_isSome.mpr found)
        have ticket : answer.ticket = start.exchange.nextTicket + place := by
          simpa using List.find?_some first
        rw [first, Option.map_some, only answer (List.mem_of_find?_eq_some first) ticket]
        rfl
      rw [outcomes]
      refine .between before onward ?_
      rw [count, course.script_succ, List.length_append, List.length_replicate, ← copies,
        Nat.add_zero]

/-- A rank that issues its next call goes on with the script, and leaves all others where they are.
-/
theorem issue {call : Call} (located : crowd.runners[rank]? = some runner)
    (issued : runner.issue? crowd.exchange.nextTicket = some (call, next)) :
    { crowd with
      exchange := (crowd.exchange.issue crowd.time rank call).1
      answers := crowd.answers ++ (crowd.exchange.issue crowd.time rank call).2
      runners := crowd.runners.set rank next }.Along course
        (events ++ [Event.issue crowd.time rank call])
        (log ++ [crowd.exchange.departures (Event.issue crowd.time rank call)]) := by
  have drawn := along.history.nextTicket_of_issues lockstep.ready.rest along.issues
  obtain ⟨made, rfl, group, inside, scripted, onward⟩ :=
    (along.runners rank runner located).issue spans patient issued drawn
  have calls : (events ++ [Event.issue crowd.time rank (made rank)]).filterMap Event.issued? =
      events.filterMap Event.issued? ++ [(rank, made rank)] := by
    rw [List.filterMap_append]
    rfl
  have listed : rank ∈ start.exchange.world.members World.defaultGroup := by
    rw [lockstep.world, spans]
    exact List.mem_range.mpr inside
  constructor
  · exact .step along.history (.issue crowd.time rank (made rank)) (.inl (Nat.le_refl _)) trivial
  · rw [along.history.run_snoc, along.answers]
    rfl
  · intro event happens
    rcases List.mem_append.mp happens with earlier | last
    · exact along.issues event earlier
    · rw [List.mem_singleton.mp last]
      rfl
  · rw [calls]
    exact along.scripted.snoc listed group scripted
  · exact List.length_set.trans along.size
  · intro other runner there
    by_cases same : rank = other
    · subst same
      obtain ⟨_, rfl⟩ : rank < crowd.runners.length ∧ next = runner := by
        simpa [List.getElem?_set] using there
      exact onward crowd.time
    · have before := along.runners other runner (by simpa [List.getElem?_set_ne same] using there)
      exact before.skip crowd.time group same

/-- Whatever a rank does, all runners stay along the course. -/
theorem moveOne (move : Move) {after : Crowd}
    (moved : crowd.moveOne? bench agenda clock move = some after) :
    ∃ events log, after.Along course events log := by
  -- A runner that moves without a call leaves everything else as it was.
  have silent {rank : Nat} {next : Runner} (onward : next.Along course rank events) :
      { crowd with runners := crowd.runners.set rank next }.Along course events log := by
    refine ⟨along.history, along.answers, along.issues, along.scripted,
      List.length_set.trans along.size, fun other runner located => ?_⟩
    by_cases same : rank = other
    · subst same
      obtain ⟨_, rfl⟩ : rank < crowd.runners.length ∧ next = runner := by
        simpa [List.getElem?_set] using located
      exact onward
    · exact along.runners other runner (by simpa [List.getElem?_set_ne same] using located)
  cases move with
  | pass => cases moved
  | begin rank =>
    obtain ⟨next, begun, rfl⟩ := Option.map_eq_some_iff.mp moved
    obtain ⟨runner, located, begun⟩ := Option.bind_eq_some_iff.mp begun
    exact ⟨events, log, silent ((along.runners rank runner located).begin spans patient begun)⟩
  | take rank =>
    obtain ⟨next, took, rfl⟩ := Option.map_eq_some_iff.mp moved
    obtain ⟨runner, located, took⟩ := Option.bind_eq_some_iff.mp took
    exact ⟨events, log, silent (along.take lockstep spans patient located took)⟩
  | issue rank =>
    obtain ⟨⟨call, next⟩, issued, rfl⟩ := Option.map_eq_some_iff.mp moved
    obtain ⟨runner, located, issued⟩ := Option.bind_eq_some_iff.mp issued
    exact ⟨_, _, along.issue lockstep spans patient located issued⟩

/-- If no rank can move, all of them have come to the end of the course. Otherwise those that are
behind would have issued all calls of their action, and everybody else too, so these calls would be
answered. -/
theorem done_of_stuck (stuck : crowd.isStuck bench agenda clock)
    (located : crowd.runners[rank]? = some runner) : course.length ≤ runner.done := by
  by_contra behind
  -- Of the ranks that are behind, take one that is behind the furthest: all others have issued the
  -- calls that it waits for.
  let Behind (done : Nat) : Prop :=
    done < course.length ∧
      ∃ (rank : Nat) (runner : Runner), crowd.runners[rank]? = some runner ∧ runner.done = done
  have someone : ∃ done, Behind done :=
    ⟨runner.done, Nat.lt_of_not_le behind, rank, runner, located, rfl⟩
  classical
  obtain ⟨before, last, hindmost, there, same⟩ := Nat.find_spec someone
  have least (done : Nat) (earlier : done < Nat.find someone) : ¬Behind done :=
    Nat.find_min someone earlier
  rw [← same] at before least
  have everyone (other : Nat) (inside : other < bench.worldSize) :
      (course.script (hindmost.done + 1)).length ≤ issuedBy other events := by
    obtain ⟨runner, place⟩ : ∃ runner, crowd.runners[other]? = some runner :=
      ⟨_, List.getElem?_eq_getElem (along.size.symm ▸ inside)⟩
    have along := along.runners other runner place
    obtain ⟨begins, issues, _⟩ := Crowd.still stuck place
    rcases Nat.lt_trichotomy runner.done hindmost.done with ahead | equal | behind
    · exact absurd ⟨Nat.lt_trans ahead before, other, runner, place, rfl⟩ (least _ ahead)
    · obtain ⟨_, _, _, _, issued, _⟩ := along.holds spans patient begins issues (equal ▸ before)
      exact Nat.le_of_eq (equal ▸ issued)
    · exact Nat.le_trans (course.script_begins (Nat.succ_le_of_lt behind)).length_le along.issued_le
  obtain ⟨begins, issues, takes⟩ := Crowd.still stuck there
  obtain ⟨action, tickets, here, busy, _, drawn⟩ :=
    (along.runners last hindmost there).holds spans patient begins issues before
  have answered : (tickets.all fun ticket => crowd.answers.any (·.ticket = ticket)) = true := by
    refine List.all_eq_true.mpr fun ticket listed => List.any_eq_true.mpr ?_
    obtain ⟨index, inside, place, now, rfl, happened, turn⟩ := drawn ticket listed
    obtain ⟨answer, given, token⟩ :=
      (along.answers_ticket lockstep spans patient before inside happened turn).2
        fun other within => by
          have enough := everyone other within
          rw [course.script_succ, List.length_append, List.length_replicate] at enough
          omega
    exact ⟨answer, given, by simpa using token⟩
  simp [Runner.take?, busy, here, answered] at takes

/-- At the end of the course a runner is as the course has its rank there, with nothing left to
issue. -/
theorem stands_of_stuck (stuck : crowd.isStuck bench agenda clock)
    (located : crowd.runners[rank]? = some runner) :
    runner.done = course.length ∧
      (start.after bench agenda clock course.length).participants[rank]? = some runner.participant ∧
      issuedBy rank events = (course.script course.length).length := by
  have enough := along.done_of_stuck lockstep spans patient stuck located
  cases along.runners rank runner located with
  | between within standing issued =>
    obtain rfl := Nat.le_antisymm within enough
    exact ⟨rfl, standing, issued⟩
  | acting before => exact absurd enough (Nat.not_le.mpr before)

/-- If no rank can move, nobody waits: all calls of the course were issued, and their rounds
completed. -/
theorem nobody_waits (stuck : crowd.isStuck bench agenda clock) : crowd.exchange.waiting = [] := by
  refine List.eq_nil_iff_forall_not_mem.mpr fun entry waits => ?_
  have ready := lockstep.ready
  have world := lockstep.world
  have level {other : Nat} (member : other ∈ start.exchange.world.members World.defaultGroup) :
      (callsOf other World.defaultGroup (events.filterMap Event.issued?)).length =
        (course.script course.length).length := by
    rw [world, spans] at member
    have place := List.getElem?_eq_getElem (along.size.symm ▸ List.mem_range.mp member)
    exact (along.stands_of_stuck lockstep spans patient stuck place).2.2
  have balanced :=
    along.scripted.balanced (world.symm ▸ course.alike) fun rank member other listed =>
    (level member).trans (level listed).symm
  have convenes : start.exchange.Convenes events World.defaultGroup := {
    issues := along.issues
    patient := world.symm ▸ Nat.ne_of_gt patient
    posts := fun made listed => ready.posts _ (along.scripted.members made listed)
    apart := ready.distinct
    inStep := ready.inStep
    balanced := by simpa only [World.acceptedCalls_eq, World.Balanced] using balanced }
  have recorded := (along.history.ledger ready.rest).recorded entry (List.mem_append_right _ waits)
  obtain ⟨_, _, made⟩ := recorded.made
  have here := along.scripted.here _
    (Exchange.issued_of_mem_acceptedCalls (List.mem_of_getElem? made))
  exact along.history.settled ready.rest convenes entry waits (recorded.group.symm.trans here)

/-- A crowd in which no rank can move has the participants that the course ends with. -/
theorem participants_of_stuck (stuck : crowd.isStuck bench agenda clock) :
    crowd.ensemble.participants =
      (start.after bench agenda clock course.length).participants := by
  have length := lockstep.length_after agenda clock course.length
  refine List.ext_getElem? fun place => ?_
  rw [Crowd.ensemble, List.getElem?_map]
  cases located : crowd.runners[place]? with
  | none =>
    have outside := List.getElem?_eq_none_iff.mp located
    rw [along.size, ← length] at outside
    rw [List.getElem?_eq_none outside]
    rfl
  | some runner =>
    exact (along.stands_of_stuck lockstep spans patient stuck located).2.1.symm

end Crowd.Along

/-! ## Walks -/

namespace Crowd

variable (course) in

/-- At the beginning all runners are along the course. -/
theorem along_ofEnsemble (lockstep : start.Lockstep bench fun _ => True) :
    (ofEnsemble start).Along course [] [] where
  history := .start
  answers := rfl
  issues := by simp
  scripted := ⟨by simp, by simp, fun _ _ => List.nil_prefix⟩
  size := by
    have length := congrArg List.length lockstep.ranks
    simpa [ofEnsemble] using length
  runners := by
    intro rank runner located
    rw [ofEnsemble, List.getElem?_map] at located
    obtain ⟨participant, standing, rfl⟩ := Option.map_eq_some_iff.mp located
    exact .between (Nat.zero_le _) standing rfl

variable {crowd last : Crowd} (lockstep : start.Lockstep bench fun _ => True)
  (spans : bench.world.members World.defaultGroup = List.range bench.worldSize)
  (patient : 0 < bench.world.timeoutMs)

include lockstep spans patient

/-- Time never passes: whenever somebody waits, some rank can move. -/
theorem Along.no_pass (along : crowd.Along course events log) :
    crowd.move? bench agenda clock .pass = none := by
  rw [move?]
  split
  next stuck =>
    rw [along.nobody_waits lockstep spans patient stuck]
    rfl
  next => rfl

/-- All runners stay along the course, whatever happens. The induction follows the moves. -/
theorem Walk.along (walk : Walk bench agenda clock crowd last)
    (along : crowd.Along course events log) : ∃ events log, last.Along course events log := by
  induction walk generalizing events log with
  | stay => exact ⟨events, log, along⟩
  | @step crowd next _ move moved _ inductionHypothesis =>
    have moves : ∃ events log, next.Along course events log := by
      cases move with
      | pass => cases (along.no_pass lockstep spans patient).symm.trans moved
      | begin rank => exact along.moveOne lockstep spans patient (.begin rank) moved
      | issue rank => exact along.moveOne lockstep spans patient (.issue rank) moved
      | take rank => exact along.moveOne lockstep spans patient (.take rank) moved
    obtain ⟨_, _, further⟩ := moves
    exact inductionHypothesis further

omit [Halves] [Arithmetic] lockstep spans patient

/-- What a change of one entry does to a sum. -/
theorem total_map_set {α : Type} {entries : List α} {place : Nat} {old : α}
    (located : entries[place]? = some old) (new : α) (weight : α → Nat) :
    total ((entries.set place new).map weight) + weight old =
      total (entries.map weight) + weight new := by
  induction entries generalizing place with
  | nil => simp at located
  | cons first rest inductionHypothesis =>
    cases place with
    | zero =>
      obtain rfl : first = old := by simpa using located
      simp only [List.set_cons_zero, List.map_cons, total_cons]
      omega
    | succ place =>
      have rest := inductionHypothesis (by simpa using located)
      simp only [List.set_cons_succ, List.map_cons, total_cons]
      omega

end Crowd

/-! ## Every run comes to an end -/

namespace Runner

variable {ticket : Nat} {call : Call} {answers : List Answer}

/-- How far the end of an agenda is for a runner: two steps for each action that is left, one of
which it has taken in the middle of the action. -/
def ahead (agenda : List Action) (runner : Runner) : Nat :=
  2 * (agenda.length - runner.done) + if runner.busy.isSome then 0 else 1

/-- How many calls a runner has still to issue for its action. -/
def left (runner : Runner) : Nat := (runner.busy.map (·.2.length)).getD 0

/-- Beginning an action leaves less ahead. -/
theorem ahead_begin (begun : runner.begin? bench agenda clock = some next) :
    next.ahead agenda < runner.ahead agenda := by
  rw [begin?] at begun
  split at begun
  next => cases begun
  next idle =>
    obtain ⟨action, here, rfl⟩ := Option.map_eq_some_iff.mp begun
    simp only [not_or, Bool.not_eq_true] at idle
    simp [ahead, idle.1]

omit [Arithmetic] in
/-- Going on with the answers leaves less ahead. -/
theorem ahead_take (took : runner.take? bench agenda answers = some next) :
    next.ahead agenda < runner.ahead agenda := by
  rw [take?] at took
  split at took
  next tickets action busy here =>
    simp only [Option.ite_none_right_eq_some, Option.some.injEq] at took
    obtain ⟨_, rfl⟩ := took
    have inside := (List.getElem?_eq_some_iff.mp here).1
    simp only [ahead, busy, Option.isSome_some, Option.isSome_none, if_true, Bool.false_eq_true,
      if_false]
    omega
  next => cases took

omit [Halves] [Arithmetic] in
/-- Issuing a call leaves as much ahead and fewer calls of the action. -/
theorem left_issue (agenda : List Action) (issued : runner.issue? ticket = some (call, next)) :
    next.ahead agenda = runner.ahead agenda ∧ next.left < runner.left := by
  rw [issue?] at issued
  split at issued
  next tickets first calls busy =>
    obtain ⟨_, rfl⟩ := Prod.mk.inj (Option.some.inj issued)
    simp [ahead, left, busy]
  next => cases issued

end Runner

namespace Crowd

/-- What is left to be done by a crowd: steps of its ranks, then calls, then deadlines. -/
def remains (agenda : List Action) (crowd : Crowd) : Nat ×ₗ Nat ×ₗ Nat :=
  toLex (total (crowd.runners.map (Runner.ahead agenda)),
    toLex (total (crowd.runners.map Runner.left), crowd.exchange.waiting.length))

/-- Whatever happens, less is left to be done. -/
theorem remains_move {crowd after : Crowd} {move : Move}
    (moved : crowd.move? bench agenda clock move = some after) :
    after.remains agenda < crowd.remains agenda := by
  have nearer {rank : Nat} {runner next : Runner} (located : crowd.runners[rank]? = some runner)
      (less : next.ahead agenda < runner.ahead agenda) :
      ({ crowd with runners := crowd.runners.set rank next } : Crowd).remains agenda <
        crowd.remains agenda := by
    have sum := total_map_set located next (Runner.ahead agenda)
    refine Prod.Lex.toLex_lt_toLex.mpr (.inl ?_)
    dsimp only
    omega
  cases move with
  | begin rank =>
    obtain ⟨next, begun, rfl⟩ := Option.map_eq_some_iff.mp moved
    obtain ⟨runner, located, begun⟩ := Option.bind_eq_some_iff.mp begun
    exact nearer located (Runner.ahead_begin begun)
  | take rank =>
    obtain ⟨next, took, rfl⟩ := Option.map_eq_some_iff.mp moved
    obtain ⟨runner, located, took⟩ := Option.bind_eq_some_iff.mp took
    exact nearer located (Runner.ahead_take took)
  | issue rank =>
    obtain ⟨⟨call, next⟩, issued, rfl⟩ := Option.map_eq_some_iff.mp moved
    obtain ⟨runner, located, issued⟩ := Option.bind_eq_some_iff.mp issued
    obtain ⟨same, fewer⟩ := Runner.left_issue agenda issued
    have steps := total_map_set located next (Runner.ahead agenda)
    have calls := total_map_set located next Runner.left
    refine Prod.Lex.toLex_lt_toLex.mpr (.inr ⟨?_, Prod.Lex.toLex_lt_toLex.mpr (.inl ?_)⟩)
    · dsimp only
      omega
    · dsimp only
      omega
  | pass =>
    simp only [move?, Option.ite_none_right_eq_some] at moved
    obtain ⟨_, passed⟩ := moved
    obtain ⟨due, first, rfl⟩ := Option.map_eq_some_iff.mp passed
    have waits : due ∈ crowd.exchange.waiting := by
      have someone : crowd.exchange.waiting ≠ [] := by
        intro none
        rw [none] at first
        cases first
      obtain ⟨entry, listed, found⟩ := Exchange.exists_firstDue someone
      rwa [Option.some.inj (first.symm.trans found)]
    refine Prod.Lex.toLex_lt_toLex.mpr (.inr ⟨rfl, Prod.Lex.toLex_lt_toLex.mpr (.inr ⟨rfl, ?_⟩)⟩)
    exact Exchange.expire_shorter waits

/-- No crowd can go on for ever. -/
theorem wellFounded_move (bench : Bench) (agenda : List Action) (clock : Nat → Nat → Nat) :
    WellFounded fun after crowd : Crowd =>
      ∃ move, crowd.move? bench agenda clock move = some after :=
  Subrelation.wf (fun ⟨_, moved⟩ => remains_move moved)
    (InvImage.wf (remains agenda) wellFounded_lt)

/-- Every crowd comes to where nothing can happen any more. -/
theorem exists_ended (bench : Bench) (agenda : List Action) (clock : Nat → Nat → Nat)
    (crowd : Crowd) :
    ∃ last, Walk bench agenda clock crowd last ∧ last.Ended bench agenda clock := by
  induction crowd using (wellFounded_move bench agenda clock).induction with
  | _ crowd inductionHypothesis =>
    by_cases ended : crowd.Ended bench agenda clock
    · exact ⟨crowd, .stay crowd, ended⟩
    · simp only [Ended, not_forall] at ended
      obtain ⟨move, moves⟩ := ended
      obtain ⟨next, moved⟩ := Option.ne_none_iff_exists'.mp moves
      obtain ⟨last, walk, ends⟩ := inductionHypothesis next ⟨move, moved⟩
      exact ⟨last, .step move moved walk, ends⟩

/-! ## Where crowds end -/

/-- Where nothing can happen any more, no rank can move. -/
theorem Ended.stuck {crowd : Crowd} (ended : crowd.Ended bench agenda clock) :
    crowd.isStuck bench agenda clock := by
  refine List.all_eq_true.mpr fun rank _ => List.all_eq_true.mpr fun move listed => ?_
  have none := ended move
  simp only [List.mem_cons, List.not_mem_nil, or_false] at listed
  rcases listed with rfl | rfl | rfl <;> exact Option.isNone_iff_eq_none.mpr none

/-- Ranks that are left to themselves come to where ranks in lockstep come to, whichever of them
moves next: no deadline takes effect on the way, and where nothing can happen any more all of them
are through with equally many actions, and as these leave ranks in lockstep. -/
theorem arrives {shows : (Nat → Nat) → Prop} {stops reached : Ensemble → Prop}
    (goes : start.Goes bench shows stops reached agenda) (shown : ∀ done, shows (clock done))
    (failed : ∀ ensemble, stops ensemble →
      ∀ participant ∈ ensemble.participants, participant.failure.isSome)
    (lockstep : start.Lockstep bench fun _ => True)
    (spans : bench.world.members World.defaultGroup = List.range bench.worldSize)
    (patient : 0 < bench.world.timeoutMs) {crowd : Crowd}
    (walk : Walk bench agenda clock (ofEnsemble start) crowd) :
    crowd.move? bench agenda clock .pass = none ∧
      (crowd.Ended bench agenda clock → ∃ done ≤ agenda.length,
        (∀ runner ∈ crowd.runners, runner.done = done) ∧
        crowd.ensemble.participants = (start.after bench agenda clock done).participants ∧
        (done = agenda.length ∧ reached (start.after bench agenda clock done) ∨
          stops (start.after bench agenda clock done))) := by
  obtain ⟨course, ends⟩ := Ensemble.Goes.exists_course goes shown failed
  obtain ⟨_, _, along⟩ := walk.along lockstep spans patient (along_ofEnsemble course lockstep)
  refine ⟨along.no_pass lockstep spans patient, fun ended => ?_⟩
  refine ⟨course.length, course.within, fun runner present => ?_,
    along.participants_of_stuck lockstep spans patient ended.stuck, ends⟩
  obtain ⟨rank, located⟩ := List.getElem?_of_mem present
  exact (along.stands_of_stuck lockstep spans patient ended.stuck located).1

end Crowd

end CollectiveBench
