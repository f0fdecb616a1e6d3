import CollectiveBench.Proofs.Exchange.Sound

/-!
# Everything an event can do

An issued call is answered at once, is refused, waits, completes its round, or times out on the
spot; a deadline closes a round. `Step` names these cases with what holds in each. A sound
exchange takes one of them with every event (`Sound.step`), stays sound (`Sound.apply`), and
answers exactly the calls that depart (`Sound.answers_apply`). Later proofs use these three and
never open the functions of the exchange again.
-/

namespace CollectiveBench

namespace Exchange

variable {exchange : Exchange}

/-- The call that arrives is the issued one. Its ticket is the next one, and its round is the next
of its endpoint in the group that it names. -/
theorem arrival?_issue {now index : Nat} {call : Call} {entry : Waiting}
    (arrives : exchange.arrival? (.issue now index call) = some entry) :
    ∃ endpoint seat, exchange.endpoints[index]? = some endpoint ∧
      exchange.world.seatFor endpoint.rank call = .ok (some seat) ∧
      entry = ⟨exchange.nextTicket, endpoint.rank, seat.position,
        ⟨call.group, endpoint.next call.group⟩, now + exchange.world.timeoutMs, call⟩ := by
  cases found : exchange.endpoints[index]? with
  | none => simp [arrival?, found] at arrives
  | some endpoint =>
    cases seated : exchange.world.seatFor endpoint.rank call with
    | error error => simp [arrival?, found, seated] at arrives
    | ok taken =>
      cases taken with
      | none => simp [arrival?, found, seated] at arrives
      | some seat =>
        have same := by simpa [arrival?, found, seated] using arrives
        exact ⟨endpoint, seat, rfl, seated, same.symm⟩

/-- An arriving call sits at the place of its rank in the group that it names. -/
theorem arrival_seated {now index : Nat} {call : Call} {entry : Waiting}
    (arrives : exchange.arrival? (.issue now index call) = some entry) :
    entry.call.group = entry.key.group ∧
      World.positionIn (exchange.world.members entry.key.group) entry.rank =
        some entry.position := by
  obtain ⟨endpoint, seat, _, seated, rfl⟩ := arrival?_issue arrives
  exact ⟨rfl, (World.seatFor_eq_some seated).2.1⟩

/-- A call that takes no seat is answered at once and leaves nothing but its ticket. -/
theorem issue_eq_immediate [Arithmetic] {now index : Nat} {call : Call}
    (stays : exchange.arrival? (.issue now index call) = none) :
    exchange.issue now index call = ({ exchange with nextTicket := exchange.nextTicket + 1 },
      [⟨exchange.nextTicket, exchange.immediate index call⟩]) := by
  cases found : exchange.endpoints[index]? with
  | none => simp [issue, immediate, found]
  | some endpoint =>
    cases seated : exchange.world.seatFor endpoint.rank call with
    | error error => simp [issue, immediate, found, seated, Except.map]
    | ok taken =>
      cases taken with
      | none => simp [issue, immediate, found, seated, Except.map]
      | some seat => simp [arrival?, found, seated] at stays

/-- Drawing replaces the endpoint by one that has spent a sequence number. -/
theorem draw_eq {index : Nat} {endpoint : Endpoint} (entry : Waiting)
    (found : exchange.endpoints[index]? = some endpoint) :
    exchange.draw index entry = { exchange with
      endpoints := exchange.endpoints.set index (endpoint.advance entry.key.group)
      nextTicket := exchange.nextTicket + 1 } := by
  have endpoints : exchange.endpoints.modify index (·.advance entry.key.group) =
      exchange.endpoints.set index (endpoint.advance entry.key.group) := by
    apply List.ext_getElem?
    intro position
    by_cases here : index = position
    · subst here
      obtain ⟨inside, here⟩ := List.getElem?_eq_some_iff.mp found
      simp [inside, here]
    · simp [here]
  rw [draw, endpoints]

/-- What an arriving call does: it draws its numbers, and its deposit decides what becomes of it. -/
theorem issue_eq_deposit [Arithmetic] {now index : Nat} {call : Call} {entry : Waiting}
    (arrives : exchange.arrival? (.issue now index call) = some entry) :
    exchange.issue now index call =
      match exchange.rounds.deposit entry.key (exchange.roundSize entry.key) entry.position
          entry.ticket entry.call.contribution with
      | .error error => (exchange.draw index entry, [⟨entry.ticket, .error error⟩])
      | .ok .refused =>
        (exchange.draw index entry,
          [Departure.answer exchange.world.timeoutMs ⟨entry, .refused⟩])
      | .ok (.waiting rounds) =>
        let joined := { exchange.draw index entry with
          rounds, waiting := exchange.waiting ++ [entry] }
        if exchange.world.timeoutMs = 0 then joined.expire entry else (joined, [])
      | .ok (.complete rounds tickets delivered) =>
        ({ exchange.draw index entry with
            rounds, waiting := exchange.waiting.filter (!tickets.contains ·.ticket) },
          concludeAll tickets (exchange.waiting ++ [entry]) delivered) := by
  obtain ⟨endpoint, seat, found, seated, same⟩ := arrival?_issue arrives
  have issued : exchange.issue now index call = exchange.enter now index endpoint seat call := by
    simp [issue, found, seated]
  have size : exchange.roundSize entry.key = seat.groupSize := by
    rw [same]
    exact (World.seatFor_eq_some seated).2.2.symm
  rw [issued, draw_eq entry found, size]
  subst same
  rfl

namespace Sound

/-- Among the waiting calls and the arriving one, the tickets of the arriving call's round name
exactly that round. -/
theorem contains_everyone (sound : exchange.Sound) {entry other : Waiting}
    (newest : entry.ticket = exchange.nextTicket) (waits : other ∈ exchange.waiting) :
    ((exchange.depositors entry.key ++ [entry]).map Waiting.ticket).contains other.ticket =
      decide (other.key = entry.key) := by
  have earlier : other.ticket ≠ entry.ticket := by
    rw [newest]
    exact Nat.ne_of_lt (sound.ticketed other waits)
  have listed := sound.mem_tickets entry.key waits
  rw [Bool.eq_iff_iff]
  simp only [List.map_append, List.contains_iff_mem, List.mem_append, listed, List.map_cons,
    List.map_nil, List.mem_singleton, earlier, or_false, decide_eq_true_eq]

variable (sound : exchange.Sound)
include sound

/-- The answers to the calls of a completed round. -/
theorem concludeAll_eq [Arithmetic] {entry : Waiting} (newest : entry.ticket = exchange.nextTicket)
    (all : List Contribution) (timeoutMs : Nat) :
    concludeAll ((exchange.depositors entry.key ++ [entry]).map Waiting.ticket)
        (exchange.waiting ++ [entry]) all =
      ((exchange.depositors entry.key ++ [entry]).map (⟨·, .handed all⟩)).map
        (Departure.answer timeoutMs) := by
  have members : (exchange.waiting ++ [entry]).filter
      (((exchange.depositors entry.key ++ [entry]).map Waiting.ticket).contains ·.ticket) =
      exchange.depositors entry.key ++ [entry] := by
    have itself : ((exchange.depositors entry.key ++ [entry]).map Waiting.ticket).contains
        entry.ticket = true := by simp
    rw [List.filter_append, List.filter_congr fun other waits =>
      sound.contains_everyone newest waits]
    simp only [List.filter_cons, itself, if_true, List.filter_nil]
    rfl
  rw [concludeAll, members, List.map_map]
  rfl

/-- An arriving call that finds its place vacant joins its round, if a further member is missing. -/
theorem join_of_arrival {now index : Nat} {call : Call} {entry : Waiting}
    (arrives : exchange.arrival? (.issue now index call) = some entry)
    (vacant : ∀ other ∈ exchange.depositors entry.key, other.position ≠ entry.position)
    (short : (exchange.depositors entry.key).length + 1 < exchange.roundSize entry.key) :
    ((exchange.draw index entry).join entry).Sound := by
  obtain ⟨_, _, _, _, same⟩ := arrival?_issue arrives
  have newest : entry.ticket = exchange.nextTicket := by rw [same]
  have place := arrival_seated arrives
  apply (sound.draw index entry).join place vacant
  · intro other waits
    rw [newest]
    exact sound.ticketed other waits
  · rw [newest]
    exact Nat.lt_succ_self _
  · exact short

/-- What becomes of an arriving call, and of those who wait in its round. -/
theorem issue_eq [Arithmetic] {now index : Nat} {call : Call} {entry : Waiting}
    (arrives : exchange.arrival? (.issue now index call) = some entry) :
    exchange.issue now index call =
      (if (exchange.depositors entry.key).any (·.position = entry.position) then
          exchange.draw index entry
        else if (exchange.depositors entry.key ++ [entry]).length =
            exchange.roundSize entry.key then
          (exchange.draw index entry).close entry.key
        else if exchange.world.timeoutMs = 0 then
          ((exchange.draw index entry).join entry).close entry.key
        else (exchange.draw index entry).join entry,
        (exchange.departures (.issue now index call)).map
          (Departure.answer exchange.world.timeoutMs)) := by
  obtain ⟨_, _, _, _, same⟩ := arrival?_issue arrives
  have newest : entry.ticket = exchange.nextTicket := by rw [same]
  have inside : entry.position < exchange.roundSize entry.key :=
    World.positionIn_lt (arrival_seated arrives).2
  rw [issue_eq_deposit arrives, sound.deposit_eq inside]
  simp only [departures, arrives]
  by_cases taken : (exchange.depositors entry.key).any (·.position = entry.position)
  · simp [taken]
  · by_cases full : (exchange.depositors entry.key ++ [entry]).length = exchange.roundSize entry.key
    · have remaining : exchange.waiting.filter (fun other =>
          !((exchange.depositors entry.key ++ [entry]).map Waiting.ticket).contains
            other.ticket) = exchange.waiting.filter (·.key ≠ entry.key) := by
        apply List.filter_congr
        intro other waits
        rw [sound.contains_everyone newest waits]
        simp
      simp only [taken, Bool.false_eq_true, if_false, full, if_true, remaining,
        sound.concludeAll_eq newest _ exchange.world.timeoutMs]
      rfl
    · have vacant : ∀ other ∈ exchange.depositors entry.key, other.position ≠ entry.position := by
        simpa using taken
      have joined := sound.join_of_arrival arrives vacant (sound.short inside full)
      by_cases impatient : exchange.world.timeoutMs = 0
      · have others : (((exchange.draw index entry).join entry).depositors entry.key).filter
            (·.ticket ≠ entry.ticket) = exchange.depositors entry.key := by
          have apart : ∀ other ∈ exchange.depositors entry.key, other.ticket ≠ entry.ticket := by
            intro other present
            rw [newest]
            exact Nat.ne_of_lt (sound.ticketed other (mem_depositors.mp present).1)
          simpa [depositors_join, List.filter_append] using apart
        have closed := joined.expire_eq (List.mem_append_right _ (List.mem_singleton_self entry))
        rw [others] at closed
        simp only [taken, Bool.false_eq_true, if_false, full, eq_true impatient, if_true]
        exact closed
      · simp only [taken, Bool.false_eq_true, if_false, full, impatient, List.map_nil]
        rfl

end Sound

/-- The answers that an event brings about, said of the calls that depart. -/
def answersTo [Arithmetic] (exchange : Exchange) (event : Event) : List Answer :=
  match event with
  | .issue _ index call =>
    match exchange.arrival? event with
    | none => [⟨exchange.nextTicket, exchange.immediate index call⟩]
    | some _ => (exchange.departures event).map (Departure.answer exchange.world.timeoutMs)
  | .expire _ _ => (exchange.departures event).map (Departure.answer exchange.world.timeoutMs)

/-- What an event can do to an exchange, and who departs from a round with it. -/
inductive Step (exchange : Exchange) : Event → Exchange → List Departure → Prop where
  /-- The call takes no seat. -/
  | answered {now index : Nat} {call : Call}
      (stays : exchange.arrival? (.issue now index call) = none) :
      Step exchange (.issue now index call)
        { exchange with nextTicket := exchange.nextTicket + 1 } []
  /-- The place of the call is taken; only its numbers are spent. -/
  | refused {now index : Nat} {call : Call} {entry : Waiting}
      (arrives : exchange.arrival? (.issue now index call) = some entry)
      (taken : ∃ other ∈ exchange.depositors entry.key, other.position = entry.position) :
      Step exchange (.issue now index call) (exchange.draw index entry) [⟨entry, .refused⟩]
  /-- The call is the last one that its round waited for. -/
  | completed {now index : Nat} {call : Call} {entry : Waiting}
      (arrives : exchange.arrival? (.issue now index call) = some entry)
      (vacant : ∀ other ∈ exchange.depositors entry.key, other.position ≠ entry.position)
      (full : (exchange.depositors entry.key ++ [entry]).length = exchange.roundSize entry.key) :
      Step exchange (.issue now index call) ((exchange.draw index entry).close entry.key)
        ((exchange.depositors entry.key ++ [entry]).map
          (⟨·, .handed (exchange.lineUp entry.key (exchange.depositors entry.key ++ [entry]))⟩))
  /-- The call has to wait and may not. -/
  | hurried {now index : Nat} {call : Call} {entry : Waiting}
      (arrives : exchange.arrival? (.issue now index call) = some entry)
      (vacant : ∀ other ∈ exchange.depositors entry.key, other.position ≠ entry.position)
      (short : (exchange.depositors entry.key).length + 1 < exchange.roundSize entry.key)
      (impatient : exchange.world.timeoutMs = 0) :
      Step exchange (.issue now index call)
        (((exchange.draw index entry).join entry).close entry.key)
        (⟨entry, .timedOut⟩ :: (exchange.depositors entry.key).map (⟨·, .abandoned⟩))
  /-- The call waits for further members. -/
  | waits {now index : Nat} {call : Call} {entry : Waiting}
      (arrives : exchange.arrival? (.issue now index call) = some entry)
      (vacant : ∀ other ∈ exchange.depositors entry.key, other.position ≠ entry.position)
      (short : (exchange.depositors entry.key).length + 1 < exchange.roundSize entry.key)
      (patient : exchange.world.timeoutMs ≠ 0) :
      Step exchange (.issue now index call) ((exchange.draw index entry).join entry) []
  /-- A deadline takes effect. -/
  | expired {now ticket : Nat} {due : Waiting}
      (found : exchange.waiting.find? (·.ticket = ticket) = some due) :
      Step exchange (.expire now ticket) (exchange.close due.key)
        (⟨due, .timedOut⟩ ::
          ((exchange.depositors due.key).filter (·.ticket ≠ due.ticket)).map (⟨·, .abandoned⟩))
  /-- The call of the deadline does not wait any more. -/
  | idle {now ticket : Nat}
      (missing : exchange.waiting.find? (·.ticket = ticket) = none) :
      Step exchange (.expire now ticket) exchange []

namespace Sound

/-- With every event a sound exchange takes one of the steps, and the calls that the step lists
are the ones that depart. -/
theorem step [Arithmetic] (sound : exchange.Sound) (event : Event) :
    Step exchange event (exchange.apply event).1 (exchange.departures event) := by
  cases event with
  | issue now index call =>
    cases arrives : exchange.arrival? (.issue now index call) with
    | none =>
      simp only [apply, issue_eq_immediate arrives, departures, arrives]
      exact .answered arrives
    | some entry =>
      simp only [apply, sound.issue_eq arrives, departures, arrives]
      have inside : entry.position < exchange.roundSize entry.key :=
        World.positionIn_lt (arrival_seated arrives).2
      split
      next taken => exact .refused arrives (by simpa using taken)
      next free =>
        have vacant : ∀ other ∈ exchange.depositors entry.key,
            other.position ≠ entry.position := by simpa using free
        split
        next full => exact .completed arrives vacant full
        next incomplete =>
          have short := sound.short inside incomplete
          split
          next impatient => exact .hurried arrives vacant short impatient
          next patient => exact .waits arrives vacant short patient
  | expire now ticket =>
    cases found : exchange.waiting.find? (·.ticket = ticket) with
    | none =>
      simp only [apply, departures, found]
      exact .idle found
    | some due =>
      simp only [apply, departures, found,
        sound.expire_eq (List.mem_of_find?_eq_some found)]
      exact .expired found

/-- The answers of a sound exchange are those of the calls that depart, or the immediate answer
to a call that takes no seat. -/
theorem answers_apply [Arithmetic] (sound : exchange.Sound) (event : Event) :
    (exchange.apply event).2 = exchange.answersTo event := by
  cases event with
  | issue now index call =>
    cases arrives : exchange.arrival? (.issue now index call) with
    | none => simp only [apply, issue_eq_immediate arrives, answersTo, arrives]
    | some entry => simp only [apply, sound.issue_eq arrives, answersTo, arrives]
  | expire now ticket =>
    cases found : exchange.waiting.find? (·.ticket = ticket) with
    | none => simp [apply, answersTo, departures, found]
    | some due =>
      simp only [apply, answersTo, departures, found,
        sound.expire_eq (List.mem_of_find?_eq_some found)]

/-- An exchange stays sound. -/
theorem apply [Arithmetic] (sound : exchange.Sound) (event : Event) :
    (exchange.apply event).1.Sound := by
  generalize outcome : (exchange.apply event).1 = after
  have step := sound.step event
  rw [outcome] at step
  generalize exchange.departures event = departing at step
  cases step with
  | answered stays =>
    exact { sound with ticketed := fun entry present =>
      Nat.lt_succ_of_lt (sound.ticketed entry present) }
  | refused arrives taken => exact sound.draw _ _
  | completed arrives vacant full => exact (sound.draw _ _).close _
  | hurried arrives vacant short impatient =>
    exact (sound.join_of_arrival arrives vacant short).close _
  | waits arrives vacant short patient => exact sound.join_of_arrival arrives vacant short
  | expired found => exact sound.close _
  | idle missing => exact sound

end Sound

end Exchange

end CollectiveBench
