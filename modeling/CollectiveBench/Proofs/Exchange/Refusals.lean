import CollectiveBench.Proofs.Exchange.InRange
import CollectiveBench.Proofs.Exchange.Order
import CollectiveBench.Proofs.Exchange.ReturnedCalls

/-!
# Whose rank is refused

A rank is refused before its call takes a seat or not at all: neither a round nor a deadline ever
names a rank that does not exist. To say so of a step, each answer must be traced back to the call
that it answers. Tickets are counted up with the calls (`History.nextTicket_eq`), so the answer with
a ticket belongs to the call at its place in the step, whatever happened in between, and whether
anybody may wait (`AtRest.mayAnswer`). `World.MayAnswer` is what such an answer can be.
-/

namespace CollectiveBench

/-- The error refuses a rank. -/
def Error.RefusesRank : Error → Prop
  | .invalidRank _ _ => True
  | _ => False

/-- An error about the buffers refuses no rank. -/
theorem BufferFaults.refusesNoRank {α : Type} {outcome : Outcome α}
    (faults : BufferFaults outcome) : FailsOnly outcome (¬ ·.RefusesRank) := by
  refine faults.mono fun error about => ?_
  cases error with
  | invalidRank rank size => exact about.elim
  | _ => exact id

/-- A complete round refuses no rank. -/
theorem conclude_refusesNoRank {call : Call} {me : Nat} {all : List Contribution}
    (inRange : call.InRange me all) (rank : Nat) :
    FailsOnly (conclude call rank me all) (¬ ·.RefusesRank) := by
  rw [conclude]
  split
  · exact failsOnly_error id
  · exact (faults_deliver inRange).refusesNoRank

/-- A call whose senders and receivers exist is refused a rank exactly if it has a root that does
not. -/
theorem Call.checkPeers_eq_error_iff {call : Call} {size : Nat} {error : Error}
    (peers : ∀ peer ∈ call.sources ++ call.destinations, peer < size)
    (refuses : error.RefusesRank) (rank : Nat) :
    call.checkPeers rank size = .error error ↔
      (call.operation.isRooted = true ∧ size ≤ call.root) ∧
        error = .invalidRank call.root size := by
  have inside : (call.sources ++ call.destinations).find? (size ≤ ·) = none :=
    List.find?_eq_none.mpr fun peer listed => by simpa using peers peer listed
  rw [checkPeers, inside]
  by_cases missing : call.operation.isRooted = true ∧ size ≤ call.root
  · rw [if_pos (by simpa using missing)]
    simp [missing, eq_comm]
  · rw [if_neg (by simpa using missing)]
    simp only [missing, false_and, iff_false]
    split
    · rintro ⟨⟩
      exact refuses
    · rintro ⟨⟩

/-- So is the call of a member of its group. -/
theorem World.refuses_iff {world : World} {rank : Nat} {call : Call} {error : Error}
    (member : rank ∈ world.members call.group)
    (peers : ∀ peer ∈ call.sources ++ call.destinations,
      peer < (world.members call.group).length) (refuses : error.RefusesRank) :
    world.seatFor rank call = .error error ↔
      (call.operation.isRooted = true ∧ (world.members call.group).length ≤ call.root) ∧
        error = .invalidRank call.root (world.members call.group).length := by
  by_cases free : call.operation = .noop ∨ call.operation = .wait
  · have rootless : call.operation.isRooted = false := by
      rcases free with same | same <;> rw [same] <;> rfl
    have seatless : world.seatFor rank call = .ok none := if_pos free
    simp [seatless, rootless]
  · rw [seatFor_eq_error_iff free member, Call.checkPeers_eq_error_iff peers refuses]

/-- What a rank's call may be answered. Without a seat it is refused, or given back at once because
it waits for nobody. With a seat it comes back changed in its contents at most, or fails for
something else than a rank. -/
inductive World.MayAnswer (world : World) (rank : Nat) (call : Call) : Outcome Call → Prop where
  | refused {error : Error} (unseated : world.seatFor rank call = .error error) :
    world.MayAnswer rank call (.error error)
  | free (unseated : world.seatFor rank call = .ok none) : world.MayAnswer rank call (.ok call)
  | returned {seat : Seat} {returned : Call} (seated : world.seatFor rank call = .ok (some seat))
      (framed : call.Framed seat.position returned) : world.MayAnswer rank call (.ok returned)
  | failed {seat : Seat} {error : Error} (seated : world.seatFor rank call = .ok (some seat))
      (accepting : ¬ error.RefusesRank) : world.MayAnswer rank call (.error error)

namespace World.MayAnswer

variable {world : World} {rank : Nat} {call returned : Call} {error : Error}

/-- A call that comes back keeps all but its contents. -/
theorem alike (answered : world.MayAnswer rank call (.ok returned)) : call.Alike returned := by
  cases answered with
  | free _ => exact .refl call
  | returned _ framed => exact framed.alike

/-- If a rank is refused, the call took no seat. -/
theorem seatFor_eq (answered : world.MayAnswer rank call (.error error))
    (refuses : error.RefusesRank) : world.seatFor rank call = .error error := by
  cases answered with
  | refused unseated => exact unseated
  | failed _ accepting => exact absurd refuses accepting

/-- A call that takes no seat is answered why. -/
theorem eq_error {outcome : Outcome Call} (answered : world.MayAnswer rank call outcome)
    (unseated : world.seatFor rank call = .error error) : outcome = .error error := by
  cases answered with
  | refused other => rw [Except.error.inj (other.symm.trans unseated)]
  | free other => cases other.symm.trans unseated
  | returned seated _ => cases seated.symm.trans unseated
  | failed seated _ => cases seated.symm.trans unseated

end World.MayAnswer

namespace Exchange

variable {start exchange : Exchange} {events : List Event} {log : List (List Departure)}
  {clock : Nat}

/-- The entry is that of the call at a place among the issued ones. -/
structure Traced (start : Exchange) (events : List Event) (entry : Waiting) (place : Nat) :
    Prop where
  ticket : entry.ticket = start.nextTicket + place
  issued : (events.filterMap Event.issued?)[place]? = some (entry.rank, entry.call)
  seated : ∃ size, start.world.seatFor entry.rank entry.call = .ok (some ⟨entry.position, size⟩)

/-- What was issued before an event stays at its place. -/
theorem issued_extend {place : Nat} {made : Nat × Call}
    (issued : (events.filterMap Event.issued?)[place]? = some made) (event : Event) :
    ((events ++ [event]).filterMap Event.issued?)[place]? = some made := by
  rw [List.filterMap_append]
  exact List.getElem?_append_left (List.getElem?_eq_some_iff.mp issued).1 ▸ issued

/-- A call that is issued stands after all that were issued before. -/
theorem issued_last (events : List Event) (now index : Nat) (call : Call) :
    ((events ++ [Event.issue now index call]).filterMap Event.issued?)[
      (events.filterMap Event.issued?).length]? = some (index, call) := by
  simp [List.filterMap_append, Event.issued?]

/-- Every entry of a run is traced to the call that it was made for. -/
theorem History.traced (rest : start.AtRest) (history : History start events log clock exchange) :
    ∀ entry ∈ log.flatten.map Departure.entry ++ exchange.waiting,
      ∃ place, Traced start events entry place := by
  induction history with
  | start => simp [rest.waiting]
  | @step events log clock exchange earlier event onward permitted inductionHypothesis =>
    have ledger := earlier.ledger rest
    have extended : ∀ entry ∈ log.flatten.map Departure.entry ++ exchange.waiting,
        ∃ place, Traced start (events ++ [event]) entry place := by
      intro entry present
      obtain ⟨place, ticket, issued, seated⟩ := inductionHypothesis entry present
      exact ⟨place, ticket, issued_extend issued event, seated⟩
    intro entry present
    rw [List.flatten_append, List.flatten_singleton, List.map_append, List.append_assoc] at present
    rcases List.mem_append.mp present with before | late
    · exact extended entry (List.mem_append_left _ before)
    rcases List.mem_append.mp ((ledger.sound.conserved event).mem_iff.mp late) with
      arriving | waited
    · have arrives := Option.mem_toList.mp arriving
      cases event with
      | expire now ticket => cases arrives
      | issue now index call =>
        obtain ⟨endpoint, seat, found, seated, rfl⟩ := arrival?_issue arrives
        obtain ⟨owner, _⟩ := ledger.staffed index endpoint found
        refine ⟨_, earlier.nextTicket_eq rest, ?_, seat.groupSize, ledger.world ▸ seated⟩
        rw [owner]
        exact issued_last events now index call
    · exact extended entry (List.mem_append_right _ waited)

/-- Every answer in a run has the ticket of the call that it answers. -/
theorem History.mayAnswer (rest : start.AtRest)
    (history : History start events log clock exchange)
    (posts : ∀ made ∈ events.filterMap Event.issued?, made.1 < start.endpoints.length) :
    ∀ answer ∈ (start.run events).2, ∃ place rank call,
      answer.ticket = start.nextTicket + place ∧
        (events.filterMap Event.issued?)[place]? = some (rank, call) ∧
        start.world.MayAnswer rank call answer.outcome := by
  induction history with
  | start => simp [Exchange.run]
  | @step events log clock exchange earlier event onward permitted inductionHypothesis =>
    have ledger := earlier.ledger rest
    have guarded := rest.idle.guarded.run events
    rw [earlier.run_eq] at guarded
    intro answer given
    rw [earlier.run_snoc event] at given
    rcases List.mem_append.mp given with before | late
    · rw [List.filterMap_append] at posts
      obtain ⟨place, rank, call, ticket, issued, answered⟩ := inductionHypothesis
        (fun made listed => posts made (List.mem_append_left _ listed)) answer before
      exact ⟨place, rank, call, ticket, issued_extend issued event, answered⟩
    rcases ledger.sound.mem_answers late with
      ⟨departure, departs, rfl⟩ | ⟨now, index, call, rfl, stays, rfl⟩
    · have left : departure.entry ∈ (log ++ [exchange.departures event]).flatten.map
          Departure.entry ++ (exchange.apply event).1.waiting := by
        rw [List.flatten_append, List.flatten_singleton, List.map_append]
        exact List.mem_append_left _ (List.mem_append_right _ (List.mem_map_of_mem departs))
      obtain ⟨place, ticket, issued, size, seated⟩ :=
        (earlier.step event onward permitted).traced rest departure.entry left
      refine ⟨place, _, _, ticket, issued, ?_⟩
      rw [Departure.answer]
      cases fate : departure.fate with
      | handed all =>
        have inRange := guarded.inRange departs fate
        cases concluded : conclude departure.entry.call departure.entry.rank
            departure.entry.position all with
        | ok returned =>
          simp only [concluded]
          exact .returned seated (conclude_framed concluded)
        | error error =>
          simp only [concluded]
          exact .failed seated (conclude_refusesNoRank inRange _ error concluded)
      | timedOut => exact .failed seated id
      | abandoned => exact .failed seated id
      | refused => exact .failed seated id
    · have inside : index < exchange.endpoints.length := by
        rw [ledger.posts]
        exact posts _ (List.mem_of_getElem? (issued_last events now index call))
      refine ⟨_, index, call, earlier.nextTicket_eq rest, issued_last events now index call, ?_⟩
      have found := List.getElem?_eq_getElem inside
      obtain ⟨owner, _⟩ := ledger.staffed index _ found
      simp only [immediate, found, owner, ledger.world]
      cases seated : start.world.seatFor index call with
      | error error => exact .refused seated
      | ok taken =>
        cases taken with
        | none => exact .free seated
        | some seat => simp [arrival?, found, owner, ledger.world, seated] at stays

/-- In a step of an exchange at rest, the outcome at the place of a call is an answer to it. -/
theorem AtRest.mayAnswer (rest : exchange.AtRest) {pause : Nat} {calls : List (Nat × Call)}
    (posts : ∀ made ∈ calls, made.1 < exchange.endpoints.length) {place rank : Nat} {call : Call}
    (made : calls[place]? = some (rank, call)) {outcome : Outcome Call}
    (given : (exchange.perform pause calls).2[place]? = some outcome) :
    exchange.world.MayAnswer rank call outcome := by
  obtain ⟨events, log, clock, performs⟩ := rest.perform pause calls
  obtain ⟨other, owner, answered, ticket, issued, mayAnswer⟩ :=
    performs.history.mayAnswer rest (performs.issued ▸ posts) _ ((performs.outcomes _ _).mp given)
  obtain rfl : place = other := Nat.add_left_cancel ticket
  rw [performs.issued, made] at issued
  cases Option.some.inj issued
  exact mayAnswer

/-- A call of a step is refused a rank exactly if it takes no seat for that reason. -/
theorem AtRest.refused_iff (rest : exchange.AtRest) {pause : Nat} {calls : List (Nat × Call)}
    (posts : ∀ made ∈ calls, made.1 < exchange.endpoints.length) {place rank : Nat} {call : Call}
    (made : calls[place]? = some (rank, call)) {error : Error} (refuses : error.RefusesRank) :
    (exchange.perform pause calls).2[place]? = some (.error error) ↔
      exchange.world.seatFor rank call = .error error := by
  constructor
  · exact fun given => (rest.mayAnswer posts made given).seatFor_eq refuses
  · intro unseated
    have length : (exchange.perform pause calls).2.length = calls.length := by
      simp [Exchange.perform]
    have inside := (List.getElem?_eq_some_iff.mp made).1
    have given := List.getElem?_eq_getElem (length ▸ inside)
    rw [given, (rest.mayAnswer posts made given).eq_error unseated]

end Exchange

end CollectiveBench
