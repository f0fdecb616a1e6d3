import CollectiveBench.Proofs.Exchange.Copies

/-!
# Members that follow a script

A script names the calls of all members of a group, one after the other: at each of its places every
member has a call of its own. The members go through the script in their own time, so some are ahead
of others, and the orders in which their calls are issued are many. The answers do not tell them
apart. The call at a place is answered as soon as all members have come past the place, and with
what it would be answered if they had issued the calls of this place and no others
(`History.answers_script`).
-/

namespace CollectiveBench

/-- The element at a place is found again among those that a filter leaves. -/
theorem getElem?_filter_countP {α : Type} (keeps : α → Bool) {entries : List α} {place : Nat}
    {entry : α} (here : entries[place]? = some entry) (kept : keeps entry) :
    (entries.filter keeps)[(entries.take place).countP keeps]? = some entry := by
  induction entries generalizing place with
  | nil => simp at here
  | cons first rest inductionHypothesis =>
    cases place with
    | zero =>
      obtain rfl : first = entry := by simpa using here
      simp [kept]
    | succ place =>
      have later := inductionHypothesis (by simpa using here)
      by_cases stays : keeps first <;> simp [stays, later]

/-- The calls were issued by members of a group that go through one script, each as far as it is. -/
structure World.Scripted (world : World) (group : Nat) (script : List (Nat → Call))
    (calls : List (Nat × Call)) : Prop where
  here : ∀ issued ∈ calls, issued.2.group = group
  members : ∀ issued ∈ calls, issued.1 ∈ world.members group
  own : ∀ rank ∈ world.members group, callsOf rank group calls <+: script.map (· rank)

namespace World

variable {world : World} {group rank other : Nat} {script : List (Nat → Call)}
  {calls : List (Nat × Call)}

/-- How many calls of a script take a seat at a rank. -/
def seated (world : World) (rank : Nat) (script : List (Nat → Call)) : Nat :=
  script.countP fun made => world.accepts rank (made rank)

/-- Members that are refused together take equally many seats. -/
theorem seated_eq (alike : ∀ made ∈ script, world.Alike group made)
    (member : rank ∈ world.members group) (otherMember : other ∈ world.members group) :
    world.seated rank script = world.seated other script := by
  refine List.countP_congr fun made listed => ?_
  rcases alike made listed with accepted | refused
  · simp [accepted rank member, accepted other otherMember]
  · simp [refused rank member, refused other otherMember]

namespace Scripted

/-- A member's next call is the one of the script at the place that the member has come to. -/
theorem next {before after : List (Nat × Call)} {call : Call} {made : Nat → Call}
    (scripted : world.Scripted group script (before ++ (rank, call) :: after))
    (located : script[(callsOf rank group before).length]? = some made) :
    rank ∈ world.members group ∧ call.group = group ∧ call = made rank ∧
      callsOf rank group before =
        (script.take (callsOf rank group before).length).map (· rank) := by
  have listed : (rank, call) ∈ before ++ (rank, call) :: after := by simp
  have member := scripted.members _ listed
  have here := scripted.here _ listed
  have own := scripted.own rank member
  rw [callsOf_append, callsOf_cons, if_pos ⟨rfl, here⟩] at own
  have begun : callsOf rank group before <+: script.map (· rank) :=
    (List.prefix_append _ _).trans own
  refine ⟨member, here, ?_, ?_⟩
  · have placed := List.prefix_iff_getElem?.mp own (callsOf rank group before).length (by simp)
    rw [List.getElem?_map, located] at placed
    simpa using placed.symm
  · rw [List.map_take]
    exact List.prefix_iff_eq_take.mp begun

variable (scripted : world.Scripted group script calls) (member : rank ∈ world.members group)
  {place : Nat} {made : Nat → Call}

include scripted in
/-- A member goes on with the script by issuing its next call. -/
theorem snoc (member : rank ∈ world.members group) (here : (made rank).group = group)
    (located : script[(callsOf rank group calls).length]? = some made) :
    world.Scripted group script (calls ++ [(rank, made rank)]) where
  here := by
    simpa [or_imp, forall_and, here] using scripted.here
  members := by
    simpa [or_imp, forall_and, member] using scripted.members
  own := by
    intro other listed
    have own := scripted.own other listed
    -- Only the member that issues the call comes further.
    by_cases same : rank = other
    · subst same
      obtain ⟨rest, whole⟩ := own
      rw [callsOf_append, callsOf_cons, if_pos ⟨rfl, here⟩, ← whole]
      have next : rest[0]? = some (made rank) := by
        have placed : (script.map (· rank))[(callsOf rank group calls).length]? =
            some (made rank) := by rw [List.getElem?_map, located]; rfl
        rwa [← whole, List.getElem?_append_right (Nat.le_refl _), Nat.sub_self] at placed
      obtain ⟨first, others, rfl⟩ := List.exists_cons_of_ne_nil
        (List.ne_nil_of_length_pos (List.getElem?_eq_some_iff.mp next).1)
      obtain rfl : first = made rank := by simpa using next
      exact ⟨others, by simp [callsOf]⟩
    · rw [callsOf_append, callsOf_cons, if_neg fun wrong => same wrong.1]
      simpa [callsOf] using own

include scripted member

/-- What a member has issued is the beginning of the script. -/
theorem callsOf_eq :
    callsOf rank group calls = (script.take (callsOf rank group calls).length).map (· rank) := by
  rw [List.map_take]
  exact List.prefix_iff_eq_take.mp (scripted.own rank member)

/-- A member that has come past a place of the script has issued the call of the place. -/
theorem getElem?_callsOf (located : script[place]? = some made)
    (past : place < (callsOf rank group calls).length) :
    (callsOf rank group calls)[place]? = some (made rank) := by
  rw [scripted.callsOf_eq member, List.getElem?_map, List.getElem?_take_of_lt past, located]
  rfl

/-- A member has issued the accepted call of a place if it has come past the place, and only then.
-/
theorem getElem?_acceptedOf (located : script[place]? = some made)
    (accepted : world.accepts rank (made rank)) :
    (world.acceptedOf rank group calls)[world.seated rank (script.take place)]? =
      if place < (callsOf rank group calls).length then some (made rank) else none := by
  rw [acceptedOf]
  have numbered (number : Nat) : world.seated rank (script.take number) =
      ((script.take number).map (· rank)).countP (world.accepts rank ·) := by
    rw [seated, List.countP_map]
    rfl
  split
  next past =>
    have taken := getElem?_filter_countP (world.accepts rank ·)
      (scripted.getElem?_callsOf member located past) accepted
    rw [scripted.callsOf_eq member, ← List.map_take, List.take_take,
      Nat.min_eq_left (Nat.le_of_lt past), ← numbered, ← scripted.callsOf_eq member] at taken
    exact taken
  next short =>
    rw [List.getElem?_eq_none_iff, scripted.callsOf_eq member, ← List.countP_eq_length_filter,
      ← numbered]
    have least : (callsOf rank group calls).length ≤ place := Nat.le_of_not_lt short
    exact (List.take_sublist_take_left least).countP_le

/-- A member has made as many accepted calls exactly if it has come past the place. -/
theorem seated_lt_iff (located : script[place]? = some made)
    (accepted : world.accepts rank (made rank)) :
    world.seated rank (script.take place) < (world.acceptedOf rank group calls).length ↔
      place < (callsOf rank group calls).length := by
  have found := scripted.getElem?_acceptedOf member located accepted
  constructor
  · intro bound
    by_contra short
    rw [if_neg short, List.getElem?_eq_none_iff] at found
    omega
  · intro past
    rw [if_pos past] at found
    exact (List.getElem?_eq_some_iff.mp found).1

omit member in
/-- Members that have come equally far have made equally many accepted calls. -/
theorem balanced (alike : ∀ made ∈ script, world.Alike group made)
    (level : ∀ rank ∈ world.members group, ∀ other ∈ world.members group,
      (callsOf rank group calls).length = (callsOf other group calls).length) :
    world.Balanced group calls := by
  intro rank member other listed
  have counted {rank : Nat} (member : rank ∈ world.members group) :
      (world.acceptedOf rank group calls).length =
        world.seated rank (script.take (callsOf rank group calls).length) := by
    rw [acceptedOf, ← List.countP_eq_length_filter]
    conv_lhs => rw [scripted.callsOf_eq member, List.countP_map]
    rfl
  rw [counted member, counted listed, level rank member other listed]
  exact seated_eq (fun made present => alike made (List.mem_of_mem_take present)) member listed

omit member in
/-- Where the call of one member is accepted, every member has come past the place exactly if it has
made more accepted calls than that one before the place, and then it has issued its own call of the
place there. -/
theorem seat_of (located : script[place]? = some made)
    (alike : ∀ made ∈ script, world.Alike group made) (member : rank ∈ world.members group)
    (accepted : world.accepts rank (made rank)) (listed : other ∈ world.members group) :
    (world.seated rank (script.take place) < (world.acceptedOf other group calls).length ↔
      place < (callsOf other group calls).length) ∧
    (place < (callsOf other group calls).length →
      (world.acceptedOf other group calls)[world.seated rank (script.take place)]? =
        some (made other)) := by
  have begun : ∀ made ∈ script.take place, world.Alike group made :=
    fun made present => alike made (List.mem_of_mem_take present)
  have takes : world.accepts other (made other) :=
    (alike made (List.mem_of_getElem? located)).resolve_right
      (fun refused => refused rank member accepted) other listed
  rw [World.seated_eq begun member listed]
  exact ⟨scripted.seated_lt_iff listed located takes,
    fun past => by rw [scripted.getElem?_acceptedOf listed located takes, if_pos past]⟩

omit member in
/-- In a round of the calls at a place that all members have come past, everybody contributes the
call of the place. -/
theorem contributions_eq (located : script[place]? = some made)
    (alike : ∀ made ∈ script, world.Alike group made) (member : rank ∈ world.members group)
    (accepted : world.accepts rank (made rank))
    (past : ∀ other ∈ world.members group, place < (callsOf other group calls).length) :
    ((world.members group).filterMap fun other =>
        (world.acceptedOf other group calls)[world.seated rank (script.take place)]?.map
          Call.contribution) =
      (world.members group).map fun other => (made other).contribution := by
  rw [← List.filterMap_eq_map]
  refine List.filterMap_congr fun other listed => ?_
  rw [(scripted.seat_of located alike member accepted listed).2 (past other listed)]
  rfl

end Scripted

end World

namespace Exchange

variable [Arithmetic] {start exchange : Exchange} {events : List Event}
  {log : List (List Departure)}
  {clock : Nat}

/-- In a run from rest an answer is the only one with its ticket, and a call that waits has none. -/
theorem History.answer_unique (rest : start.AtRest)
    (history : History start events log clock exchange) :
    (∀ first ∈ (start.run events).2, ∀ second ∈ (start.run events).2,
      first.ticket = second.ticket → first = second) ∧
    ∀ entry ∈ exchange.waiting, ∀ answer ∈ (start.run events).2, answer.ticket ≠ entry.ticket := by
  have tickets := rest.sound.run_tickets events
  rw [rest.waiting, List.map_nil, List.append_nil, history.run_eq] at tickets
  have distinct := tickets.nodup_iff.mpr (List.nodup_range' 1)
  obtain ⟨once, _, apart⟩ := List.nodup_append.mp distinct
  refine ⟨fun first listed second alsoListed same => ?_, fun entry waits answer given => ?_⟩
  · exact List.inj_on_of_nodup_map once listed alsoListed same
  · exact apart _ (List.mem_map_of_mem given) _ (List.mem_map_of_mem waits)

/-- A round that was handed over was entered by all members with their accepted calls of its number.
-/
theorem History.handed_past (rest : start.AtRest)
    (history : History start events log clock exchange)
    (issues : ∀ event ∈ events, event.issued?.isSome) (patient : start.world.timeoutMs ≠ 0)
    {entry : Waiting} (departed : entry ∈ log.flatten.map Departure.entry)
    (inStep : start.InStep entry.key.group) {number : Nat}
    (numbered : entry.key.sequence = start.sequence entry.rank entry.key.group + number) :
    ∀ rank ∈ start.world.members entry.key.group,
      number < (start.world.acceptedCalls rank entry.key.group events).length := by
  intro rank member
  have ledger := history.ledger rest
  obtain ⟨departure, left, rfl⟩ := List.mem_map.mp departed
  obtain ⟨all, handed⟩ := history.handed_only rest issues patient departure left
  obtain ⟨place, sits⟩ := List.getElem?_of_mem member
  obtain ⟨twin, twinLeft, rfl, sameKey, _⟩ :=
    (history.handed_over rest departure left all handed).2 place rank sits
  have facts := ledger.recorded twin (List.mem_append_left _ twinLeft)
  have own := ledger.recorded departure.entry (List.mem_append_left _ departed)
  obtain ⟨index, sequence, made⟩ := facts.made
  have alike := inStep twin.rank member departure.entry.rank
    (List.mem_of_getElem? (World.getElem?_positionIn own.place)) facts.inside own.inside
  rw [sameKey] at sequence made
  obtain rfl : index = number := by omega
  exact (List.getElem?_eq_some_iff.mp made).1

variable {group : Nat} {script : List (Nat → Call)} {place rank now : Nat} {call : Call}
  {made : Nat → Call}

omit [Arithmetic] in
/-- What was issued before an event of a run, by the event, and after it. -/
theorem issued_split {event : Event} (happened : events[place]? = some event) :
    events.filterMap Event.issued? = (events.take place).filterMap Event.issued? ++
      (event.issued?.toList ++ (events.drop (place + 1)).filterMap Event.issued?) := by
  obtain ⟨bound, here⟩ := List.getElem?_eq_some_iff.mp happened
  conv_lhs => rw [← List.take_append_drop place events, List.drop_eq_getElem_cons bound, here]
  rw [List.filterMap_append]
  cases issued : event.issued? <;> simp [issued]

/-- Where every event issues a call, each of them draws a ticket. -/
theorem History.nextTicket_of_issues (rest : start.AtRest)
    (history : History start events log clock exchange)
    (issues : ∀ event ∈ events, event.issued?.isSome) :
    exchange.nextTicket = start.nextTicket + events.length := by
  rw [history.nextTicket_eq rest, List.filterMap_length_eq_length.mpr issues]

/-- A call that takes no seat is answered on the spot, with what all members would get. -/
theorem immediate_eq_answer (staffed : exchange.Staffed) (inside : rank < exchange.endpoints.length)
    (stays : exchange.arrival? (.issue now rank (made rank)) = none) (group : Nat) :
    exchange.immediate rank (made rank) = exchange.world.answer group made rank := by
  have found := List.getElem?_eq_getElem inside
  obtain ⟨owner, _⟩ := staffed rank _ found
  cases seated : exchange.world.seatFor rank (made rank) with
  | error error => simp [immediate, found, owner, World.answer, seated, Except.map]
  | ok taken =>
    cases taken with
    | none => simp [immediate, found, owner, World.answer, seated, Except.map]
    | some seat => simp [arrival?, found, owner, seated] at stays

omit [Arithmetic] in
/-- The entry of a member's call that takes a seat, when the member has issued the calls of the
script before it: its number is that of the accepted calls among them. -/
theorem Ledger.arrival_of_script {entries : List Waiting}
    (ledger : Ledger start events entries exchange)
    {entry : Waiting} (arrives : exchange.arrival? (.issue now rank call) = some entry)
    (here : call.group = group) (earlier : callsOf rank group (events.filterMap Event.issued?) =
      script.map (· rank)) :
    start.world.accepts rank call ∧ entry.ticket = exchange.nextTicket ∧ entry.rank = rank ∧
      entry.key = ⟨group, start.sequence rank group + start.world.seated rank script⟩ ∧
      entry.call = call ∧
      World.positionIn (start.world.members group) rank = some entry.position := by
  obtain ⟨_, newest, _, placed, number, _⟩ := ledger.arrival arrives
  obtain ⟨endpoint, seat, found, seated, same⟩ := arrival?_issue arrives
  have owner : endpoint.rank = rank := (ledger.staffed rank endpoint found).1
  rw [ledger.world, owner] at seated
  have sameRank : entry.rank = rank := by rw [same, owner]
  have sameGroup : entry.key.group = group := by rw [same, here]
  have counted : (start.world.acceptedCalls rank group events).length =
      start.world.seated rank script := by
    rw [World.acceptedCalls_eq, World.acceptedOf, earlier, ← List.countP_eq_length_filter,
      List.countP_map]
    rfl
  rw [sameRank, sameGroup, counted] at number
  rw [sameRank, sameGroup] at placed
  have key : entry.key = ⟨entry.key.group, entry.key.sequence⟩ := rfl
  rw [sameGroup, number] at key
  exact ⟨by simp [World.accepts, seated], newest, sameRank, key, by rw [same], placed⟩

/-- A member's call is answered for its place in the script, or it waits for a member that has not
come past the place. -/
theorem History.answered_or_waits (ready : start.Ready group)
    (history : History start events log clock exchange)
    (issues : ∀ event ∈ events, event.issued?.isSome) (patient : start.world.timeoutMs ≠ 0)
    (scripted : start.world.Scripted group script (events.filterMap Event.issued?))
    (alike : ∀ made ∈ script, start.world.Alike group made)
    (happened : events[place]? = some (.issue now rank call)) {turn : Nat}
    (turns : turn = (callsOf rank group ((events.take place).filterMap Event.issued?)).length)
    (located : script[turn]? = some made) :
    ⟨start.nextTicket + place, start.world.answer group made rank⟩ ∈ (start.run events).2 ∨
      (∃ entry ∈ exchange.waiting, entry.ticket = start.nextTicket + place) ∧
        ∃ other ∈ start.world.members group,
          (callsOf other group (events.filterMap Event.issued?)).length ≤ turn := by
  have split := issued_split happened
  have before : start.world.Scripted group script
      ((events.take place).filterMap Event.issued? ++
        (rank, call) :: (events.drop (place + 1)).filterMap Event.issued?) := split ▸ scripted
  obtain ⟨member, here, rfl, earlier⟩ := before.next (turns ▸ located)
  rw [← turns] at earlier
  have posts : ∀ made ∈ events.filterMap Event.issued?, made.1 < start.endpoints.length :=
    fun made listed => ready.posts _ (scripted.members made listed)
  obtain ⟨_, _, middle, first, answers, arrivals⟩ := history.before ready.rest happened
  have ledger := first.ledger ready.rest
  have ticket : middle.nextTicket = start.nextTicket + place := by
    rw [first.nextTicket_of_issues ready.rest fun event listed =>
        issues event (List.mem_of_mem_take listed), List.length_take,
      Nat.min_eq_left (Nat.le_of_lt (List.getElem?_eq_some_iff.mp happened).1)]
  -- A call that takes no seat is answered on the spot. The entry of any other is handed over with
  -- its round before the end of the run, or it still waits there.
  cases arrives : middle.arrival? (.issue now rank (made rank)) with
  | none =>
    have inside : rank < middle.endpoints.length := ledger.posts ▸ ready.posts rank member
    have given := answers ⟨middle.nextTicket, middle.immediate rank (made rank)⟩ (by
      rw [ledger.sound.answers_apply]
      simp only [answersTo, arrives, List.mem_singleton])
    rw [immediate_eq_answer ledger.staffed inside arrives group, ticket, ledger.world] at given
    exact .inl given
  | some entry =>
    obtain ⟨accepted, newest, rfl, key, sameCall, placed⟩ :=
      ledger.arrival_of_script arrives here earlier
    have sameGroup : entry.key.group = group := by rw [key]
    have numbered : entry.key.sequence = start.sequence entry.rank entry.key.group +
        start.world.seated entry.rank (script.take turn) := by rw [key]
    have inStep : start.InStep entry.key.group := sameGroup.symm ▸ ready.inStep
    have everyone {other : Nat} (listed : other ∈ start.world.members group) :
        start.world.seated entry.rank (script.take turn) <
            (start.world.acceptedCalls other group events).length ↔
          turn < (callsOf other group (events.filterMap Event.issued?)).length := by
      rw [World.acceptedCalls_eq]
      exact (scripted.seat_of located alike member accepted listed).1
    rcases List.mem_append.mp (arrivals entry arrives) with departed | waits
    · left
      have past := history.handed_past ready.rest issues patient departed inStep numbered
      have given := history.answered_handed ready.rest issues patient departed inStep numbered
      rw [sameGroup] at past given
      simp only [World.acceptedCalls_eq] at given
      rw [scripted.contributions_eq located alike member accepted fun other listed =>
        (everyone listed).mp (past other listed)] at given
      rw [World.answer_of_accepts accepted, ← ticket, ← newest, World.idxOf_of_positionIn placed]
      rwa [sameCall] at given
    · right
      obtain ⟨other, listed, behind⟩ := history.awaits ready.rest issues patient posts waits
        (sameGroup.symm ▸ ready.distinct) inStep numbered
      rw [sameGroup] at listed behind
      exact ⟨⟨entry, waits, newest.trans ticket⟩, other, listed,
        Nat.le_of_not_lt fun past => absurd ((everyone listed).mpr past) (Nat.not_lt.mpr behind)⟩

/-- The call at a place of the script is answered as if its members had issued no others, as soon as
all of them have come past the place. -/
theorem History.answers_script (ready : start.Ready group)
    (history : History start events log clock exchange)
    (issues : ∀ event ∈ events, event.issued?.isSome) (patient : start.world.timeoutMs ≠ 0)
    (scripted : start.world.Scripted group script (events.filterMap Event.issued?))
    (alike : ∀ made ∈ script, start.world.Alike group made)
    (happened : events[place]? = some (.issue now rank call)) {turn : Nat}
    (turns : turn = (callsOf rank group ((events.take place).filterMap Event.issued?)).length)
    (located : script[turn]? = some made) :
    (∀ answer ∈ (start.run events).2, answer.ticket = start.nextTicket + place →
      answer.outcome = start.world.answer group made rank) ∧
    ((∀ other ∈ start.world.members group,
        turn < (callsOf other group (events.filterMap Event.issued?)).length) →
      ⟨start.nextTicket + place, start.world.answer group made rank⟩ ∈ (start.run events).2) := by
  obtain ⟨once, apart⟩ := history.answer_unique ready.rest
  rcases history.answered_or_waits ready issues patient scripted alike happened turns located with
    answered | ⟨⟨entry, waits, ticket⟩, other, member, behind⟩
  · refine ⟨fun answer given same => ?_, fun _ => answered⟩
    rw [once answer given _ answered same]
  · refine ⟨fun answer given same =>
      absurd (same.trans ticket.symm) (apart entry waits answer given),
      fun past => absurd (past other member) (Nat.not_lt.mpr behind)⟩

end Exchange

end CollectiveBench
