import CollectiveBench.Proofs.Exchange.Event

/-!
# The invariant of the table of rounds

`Exchange.Sound` relates the two halves of an exchange: the table of rounds is what the waiting
calls make of it, every waiting call sits at its rank's place in the group, and no open round has
all its members. Nothing is asked of the endpoints, so the invariant also holds where several
endpoints stand for one rank and a slot can be asked for twice.

In a sound exchange the waiting calls alone decide what becomes of a contribution
(`Sound.deposit_eq`) and who leaves with a deadline (`Sound.expire_eq`). Drawing numbers, joining a
round and closing one keep the exchange sound.
-/

namespace CollectiveBench

/-- A rank's place in a group is a place of the group, and it is that rank's. -/
theorem World.getElem?_positionIn {ranks : List Nat} {rank position : Nat}
    (found : World.positionIn ranks rank = some position) : ranks[position]? = some rank := by
  obtain ⟨inside, here, _⟩ := List.idxOf?_eq_some_iff.mp found
  rw [List.getElem?_eq_getElem inside, here]

/-- A rank's place is below the size of the group. -/
theorem World.positionIn_lt {ranks : List Nat} {rank position : Nat}
    (found : World.positionIn ranks rank = some position) : position < ranks.length :=
  (List.idxOf?_eq_some_iff.mp found).1

/-- A call takes a seat exactly if its operation waits for others, its rank is in its group and its
peers are. The seat is then at the place of the rank. -/
theorem World.seatFor_eq_some_iff {world : World} {rank : Nat} {call : Call} {seat : Seat} :
    world.seatFor rank call = .ok (some seat) ↔
      (call.operation ≠ .noop ∧ call.operation ≠ .wait) ∧
      World.positionIn (world.members call.group) rank = some seat.position ∧
      seat.groupSize = (world.members call.group).length ∧
      call.checkPeers rank (world.members call.group).length = .ok () := by
  rw [seatFor]
  by_cases free : call.operation = .noop ∨ call.operation = .wait
  · rw [if_pos free]
    simp only [Except.ok.injEq, reduceCtorEq, false_iff]
    rintro ⟨⟨notNoop, notWait⟩, _⟩
    exact free.elim notNoop notWait
  · obtain ⟨notNoop, notWait⟩ := not_or.mp free
    rw [if_neg free]
    cases located : world.groups[call.group]? with
    | none =>
      simp [World.group, members, located, positionIn, bind, Except.bind]
    | some ranks =>
      have known : world.members call.group = ranks := by simp [members, located]
      simp only [World.group, located, known, bind, Except.bind]
      cases place : World.positionIn ranks rank with
      | none => simp
      | some position =>
        cases checked : call.checkPeers rank ranks.length with
        | error error => simp
        | ok _ =>
          cases seat
          simp [notNoop, notWait, pure, Except.pure, eq_comm]

/-- A call gets a seat only in a group that exists, at the place of its rank. -/
theorem World.seatFor_eq_some {world : World} {rank : Nat} {call : Call} {seat : Seat}
    (seated : world.seatFor rank call = .ok (some seat)) :
    call.group < world.groups.length ∧
      World.positionIn (world.members call.group) rank = some seat.position ∧
      seat.groupSize = (world.members call.group).length := by
  obtain ⟨_, place, size, _⟩ := seatFor_eq_some_iff.mp seated
  refine ⟨?_, place, size⟩
  by_contra beyond
  have unknown : world.groups[call.group]? = none :=
    List.getElem?_eq_none_iff.mpr (Nat.le_of_not_lt beyond)
  simp [members, unknown, positionIn] at place

/-- A member whose operation waits for others is refused for its peers or not at all. -/
theorem World.seatFor_eq_error_iff {world : World} {rank : Nat} {call : Call} {error : Error}
    (waits : ¬ (call.operation = .noop ∨ call.operation = .wait))
    (member : rank ∈ world.members call.group) :
    world.seatFor rank call = .error error ↔
      call.checkPeers rank (world.members call.group).length = .error error := by
  cases located : world.groups[call.group]? with
  | none => simp [members, located] at member
  | some ranks =>
    have known : world.members call.group = ranks := by simp [members, located]
    rw [known] at member ⊢
    obtain ⟨position, place⟩ := Option.isSome_iff_exists.mp (List.isSome_idxOf?.mpr member)
    rw [seatFor, if_neg waits]
    simp only [World.group, located, positionIn, place, bind, Except.bind]
    cases call.checkPeers rank ranks.length <;> simp [pure, Except.pure]

/-- A member whose operation waits for others and whose peers exist gets a seat. -/
theorem World.exists_seat {world : World} {rank : Nat} {call : Call}
    (waits : call.operation ≠ .noop ∧ call.operation ≠ .wait)
    (member : rank ∈ world.members call.group)
    (peers : call.checkPeers rank (world.members call.group).length = .ok ()) :
    ∃ seat, world.seatFor rank call = .ok (some seat) := by
  obtain ⟨position, place⟩ := Option.isSome_iff_exists.mp (List.isSome_idxOf?.mpr member)
  exact ⟨⟨position, _⟩, seatFor_eq_some_iff.mpr ⟨waits, place, rfl, peers⟩⟩

namespace Exchange

variable {exchange : Exchange}

/-- The round of a key as the waiting calls make it. -/
def openRound (exchange : Exchange) (key : RoundKey) : Option Round :=
  if (exchange.depositors key).isEmpty then none
  else some (.ofWaiting (exchange.roundSize key) (exchange.depositors key))

/-- The table of rounds agrees with the waiting calls. -/
structure Sound (exchange : Exchange) : Prop where
  /-- Every waiting call sits at the place of its rank in the group that it named. -/
  seated : ∀ entry ∈ exchange.waiting, entry.call.group = entry.key.group ∧
    World.positionIn (exchange.world.members entry.key.group) entry.rank = some entry.position
  /-- The calls of one round sit at different places. -/
  apart : exchange.waiting.Pairwise fun first later =>
    first.key = later.key → first.position ≠ later.position
  /-- Tickets are given in the order of arrival. -/
  ordered : exchange.waiting.Pairwise (·.ticket < ·.ticket)
  ticketed : ∀ entry ∈ exchange.waiting, entry.ticket < exchange.nextTicket
  /-- Each round in the table is the round of the calls that wait in it. -/
  table : ∀ key, exchange.rounds.find? key = exchange.openRound key
  /-- A round whose members have all arrived is not open any more. -/
  unfinished : ∀ entry ∈ exchange.waiting,
    (exchange.depositors entry.key).length < exchange.roundSize entry.key

/-- The calls that wait in a round are the waiting calls with its key. -/
theorem mem_depositors {key : RoundKey} {entry : Waiting} :
    entry ∈ exchange.depositors key ↔ entry ∈ exchange.waiting ∧ entry.key = key := by
  simp [depositors]

/-- A call that joins its round stands last in it; other rounds do not change. -/
theorem depositors_join (entry : Waiting) (key : RoundKey) :
    (exchange.join entry).depositors key =
      exchange.depositors key ++ if entry.key = key then [entry] else [] := by
  by_cases same : entry.key = key <;> simp [depositors, join, same]

/-- Nobody waits in a closed round; other rounds do not change. -/
theorem depositors_close (key other : RoundKey) :
    (exchange.close key).depositors other =
      if other = key then [] else exchange.depositors other := by
  by_cases same : other = key
  · subst same
    simp [depositors, close]
  · have apart : ∀ entry ∈ exchange.waiting, entry.key = other → entry.key ≠ key := by
      intro entry _ here there
      exact same (here.symm.trans there)
    simp only [depositors, close, same, if_false, List.filter_filter]
    apply List.filter_congr
    intro entry present
    by_cases here : entry.key = other
    · simp [here, same]
    · simp [here]

namespace Sound

variable (sound : exchange.Sound)
include sound

/-- Nobody waits in a round that is not in the table. -/
theorem find?_eq_none_iff {key : RoundKey} :
    exchange.rounds.find? key = none ↔ exchange.depositors key = [] := by
  rw [sound.table key, openRound]
  by_cases vacant : exchange.depositors key = [] <;> simp [vacant]

/-- The round that a contribution goes to, whether it is open already or not. -/
theorem getD_find? (key : RoundKey) :
    (exchange.rounds.find? key).getD (.empty (exchange.roundSize key)) =
      .ofWaiting (exchange.roundSize key) (exchange.depositors key) := by
  rw [sound.table key, openRound]
  by_cases vacant : exchange.depositors key = []
  · simp [vacant, Round.ofWaiting_nil]
  · simp [vacant]

/-- The calls of a round sit at different places. -/
theorem positions_nodup (key : RoundKey) :
    ((exchange.depositors key).map Waiting.position).Nodup := by
  have within : (exchange.depositors key).Pairwise fun first later =>
      first.key = later.key → first.position ≠ later.position :=
    sound.apart.sublist List.filter_sublist
  refine List.pairwise_map.mpr (within.imp_of_mem ?_)
  intro first later firstHere laterHere different
  exact different ((mem_depositors.mp firstHere).2.trans (mem_depositors.mp laterHere).2.symm)

/-- The calls of a round sit within its group. -/
theorem position_lt {key : RoundKey} {entry : Waiting} (present : entry ∈ exchange.depositors key) :
    entry.position < exchange.roundSize key := by
  obtain ⟨waits, rfl⟩ := mem_depositors.mp present
  exact World.positionIn_lt (sound.seated entry waits).2

end Sound

namespace Sound

/-- Drawing numbers leaves the table and the waiting calls alone. -/
theorem draw (sound : exchange.Sound) (index : Nat) (entry : Waiting) :
    (exchange.draw index entry).Sound where
  seated := sound.seated
  apart := sound.apart
  ordered := sound.ordered
  ticketed := fun other present => Nat.lt_succ_of_lt (sound.ticketed other present)
  table := sound.table
  unfinished := sound.unfinished

/-- A call that sits at a vacant place joins its round, if members are still missing after it.
The table of the other rounds is as before, and its own round is inserted with it. -/
theorem join {entry : Waiting} (sound : exchange.Sound)
    (seated : entry.call.group = entry.key.group ∧
      World.positionIn (exchange.world.members entry.key.group) entry.rank = some entry.position)
    (vacant : ∀ other ∈ exchange.depositors entry.key, other.position ≠ entry.position)
    (latest : ∀ other ∈ exchange.waiting, other.ticket < entry.ticket)
    (drawn : entry.ticket < exchange.nextTicket)
    (short : (exchange.depositors entry.key).length + 1 < exchange.roundSize entry.key) :
    (exchange.join entry).Sound where
  seated := by
    intro other present
    rcases List.mem_append.mp present with earlier | new
    · exact sound.seated other earlier
    · rw [List.mem_singleton.mp new]
      exact seated
  apart := by
    refine List.pairwise_append.mpr ⟨sound.apart, List.pairwise_singleton _ _, ?_⟩
    intro other present new isNew
    obtain rfl := List.mem_singleton.mp isNew
    intro sameKey
    exact vacant other (mem_depositors.mpr ⟨present, sameKey⟩)
  ordered := by
    refine List.pairwise_append.mpr ⟨sound.ordered, List.pairwise_singleton _ _, ?_⟩
    intro other present new isNew
    obtain rfl := List.mem_singleton.mp isNew
    exact latest other present
  ticketed := by
    intro other present
    rcases List.mem_append.mp present with earlier | new
    · exact sound.ticketed other earlier
    · rw [List.mem_singleton.mp new]
      exact drawn
  table := by
    intro key
    by_cases same : key = entry.key
    · subst same
      simp [openRound, depositors_join]
    · have other : (exchange.join entry).depositors key = exchange.depositors key := by
        simp [depositors_join, Ne.symm same]
      rw [openRound, other]
      exact (Rounds.find?_insert_of_ne _ _ same).trans (sound.table key)
  unfinished := by
    intro other present
    change _ < exchange.roundSize other.key
    rw [depositors_join]
    by_cases same : entry.key = other.key
    · rw [← same]
      simpa using short
    · rcases List.mem_append.mp present with earlier | new
      · simpa [same] using sound.unfinished other earlier
      · exact absurd (congrArg Waiting.key (List.mem_singleton.mp new)).symm same

/-- Closing a round leaves the others alone. -/
theorem close (sound : exchange.Sound) (key : RoundKey) : (exchange.close key).Sound where
  seated := fun entry present => sound.seated entry (List.mem_of_mem_filter present)
  apart := sound.apart.sublist List.filter_sublist
  ordered := sound.ordered.sublist List.filter_sublist
  ticketed := fun entry present => sound.ticketed entry (List.mem_of_mem_filter present)
  table := by
    intro other
    by_cases same : other = key
    · subst same
      simp [openRound, depositors_close]
    · rw [openRound, depositors_close, if_neg same]
      exact (Rounds.find?_erase_of_ne _ same).trans (sound.table other)
  unfinished := by
    intro entry present
    obtain ⟨waits, different⟩ := List.mem_filter.mp present
    have apart : entry.key ≠ key := by simpa using different
    rw [depositors_close, if_neg apart]
    exact sound.unfinished entry waits

/-- A ticket names one waiting call. -/
theorem ticket_injective (sound : exchange.Sound) {first second : Waiting}
    (firstWaits : first ∈ exchange.waiting) (secondWaits : second ∈ exchange.waiting)
    (same : first.ticket = second.ticket) : first = second := by
  have distinct : (exchange.waiting.map Waiting.ticket).Nodup :=
    List.pairwise_map.mpr (sound.ordered.imp Nat.ne_of_lt)
  exact List.inj_on_of_nodup_map distinct firstWaits secondWaits same

/-- The tickets of a round are those of the waiting calls with its key. -/
theorem mem_tickets (sound : exchange.Sound) (key : RoundKey) {entry : Waiting}
    (waits : entry ∈ exchange.waiting) :
    entry.ticket ∈ (exchange.depositors key).map Waiting.ticket ↔ entry.key = key := by
  constructor
  · intro listed
    obtain ⟨other, present, same⟩ := List.mem_map.mp listed
    obtain ⟨otherWaits, here⟩ := mem_depositors.mp present
    exact sound.ticket_injective otherWaits waits same ▸ here
  · intro here
    exact List.mem_map_of_mem (mem_depositors.mpr ⟨waits, here⟩)

/-- When a deadline takes effect, the round of its call is closed. The call times out and all
others in the round are abandoned. -/
theorem expire_eq [Arithmetic] (sound : exchange.Sound) {due : Waiting}
    (waits : due ∈ exchange.waiting) :
    exchange.expire due = (exchange.close due.key,
      (⟨due, .timedOut⟩ :: ((exchange.depositors due.key).filter (·.ticket ≠ due.ticket)).map
        (⟨·, .abandoned⟩)).map (Departure.answer exchange.world.timeoutMs)) := by
  have occupied : exchange.depositors due.key ≠ [] :=
    List.ne_nil_of_mem (mem_depositors.mpr ⟨waits, rfl⟩)
  have waiters : ((exchange.rounds.find? due.key).map Round.waiters).getD [] =
      (exchange.depositors due.key).map Waiting.ticket := by
    rw [sound.table, openRound]
    simp [occupied]
  have leaving : ∀ entry ∈ exchange.waiting,
      (entry.ticket == due.ticket || (((exchange.depositors due.key).map Waiting.ticket).filter
        (· ≠ due.ticket)).contains entry.ticket) = decide (entry.key = due.key) := by
    intro entry present
    have listed := sound.mem_tickets due.key present
    rw [Bool.eq_iff_iff]
    simp only [Bool.or_eq_true, beq_iff_eq, List.contains_iff_mem, List.mem_filter, listed,
      decide_eq_true_eq]
    constructor
    · rintro (same | ⟨here, _⟩)
      · exact congrArg Waiting.key (sound.ticket_injective present waits same)
      · exact here
    · intro here
      by_cases same : entry.ticket = due.ticket
      · exact .inl same
      · exact .inr ⟨here, same⟩
  have remaining : exchange.waiting.filter (fun entry => !(entry.ticket == due.ticket ||
      (((exchange.depositors due.key).map Waiting.ticket).filter
        (· ≠ due.ticket)).contains entry.ticket)) =
      exchange.waiting.filter (·.key ≠ due.key) := by
    apply List.filter_congr
    intro entry present
    rw [leaving entry present]
    simp
  have others : exchange.waiting.filter (fun entry =>
      (((exchange.depositors due.key).map Waiting.ticket).filter
        (· ≠ due.ticket)).contains entry.ticket) =
      (exchange.depositors due.key).filter (·.ticket ≠ due.ticket) := by
    have twice : (exchange.depositors due.key).filter (·.ticket ≠ due.ticket) =
        exchange.waiting.filter fun entry =>
          decide (entry.ticket ≠ due.ticket) && decide (entry.key = due.key) := List.filter_filter
    rw [twice]
    apply List.filter_congr
    intro entry present
    have listed := sound.mem_tickets due.key present
    rw [Bool.eq_iff_iff]
    simp only [List.contains_iff_mem, List.mem_filter, listed, Bool.and_eq_true,
      decide_eq_true_eq]
    exact and_comm
  simp only [expire, waiters, remaining, others, List.map_cons, List.map_map]
  rfl

/-- What becomes of a contribution is decided by the calls that wait in its round. -/
theorem deposit_eq (sound : exchange.Sound) {entry : Waiting}
    (inside : entry.position < exchange.roundSize entry.key) :
    exchange.rounds.deposit entry.key (exchange.roundSize entry.key) entry.position entry.ticket
        entry.call.contribution =
      .ok (if (exchange.depositors entry.key).any (·.position = entry.position) then .refused
        else if (exchange.depositors entry.key ++ [entry]).length =
            exchange.roundSize entry.key then
          .complete (exchange.rounds.erase entry.key)
            ((exchange.depositors entry.key ++ [entry]).map Waiting.ticket)
            (exchange.lineUp entry.key (exchange.depositors entry.key ++ [entry]))
        else .waiting (exchange.join entry).rounds) := by
  have slot := Round.getElem?_slots_ofWaiting (exchange.depositors entry.key) inside
  rw [Rounds.deposit, sound.getD_find?, slot]
  by_cases taken : (exchange.depositors entry.key).any (·.position = entry.position)
  · have occupied : ((exchange.depositors entry.key).find?
        (·.position = entry.position)).isSome := by simpa using taken
    obtain ⟨other, found⟩ := Option.isSome_iff_exists.mp occupied
    simp [found, taken]
  · have vacant : ∀ other ∈ exchange.depositors entry.key, other.position ≠ entry.position := by
      simpa using taken
    have missing : (exchange.depositors entry.key).find? (·.position = entry.position) = none := by
      simpa [List.find?_eq_none] using vacant
    have filled := Round.fill_ofWaiting inside vacant
    simp only [missing, Option.map_none, filled, taken, Bool.false_eq_true, if_false,
      Round.arrived_ofWaiting, Round.waiters_ofWaiting]
    by_cases full : (exchange.depositors entry.key ++ [entry]).length = exchange.roundSize entry.key
    · simp only [full, if_true]
      rfl
    · simp only [full, if_false]
      rfl

/-- The calls of a round and a further one at a vacant place are at most as many as the group has
members; if the group is not complete with them, a further member is missing. -/
theorem short (sound : exchange.Sound) {entry : Waiting}
    (inside : entry.position < exchange.roundSize entry.key)
    (incomplete : (exchange.depositors entry.key ++ [entry]).length ≠
      exchange.roundSize entry.key) :
    (exchange.depositors entry.key).length + 1 < exchange.roundSize entry.key := by
  have different : (exchange.depositors entry.key).length + 1 ≠ exchange.roundSize entry.key := by
    simpa using incomplete
  cases occupied : exchange.depositors entry.key with
  | nil =>
    rw [occupied] at different
    simp only [List.length_nil] at different ⊢
    omega
  | cons first rest =>
    have present : first ∈ exchange.depositors entry.key := by simp [occupied]
    obtain ⟨waits, here⟩ := mem_depositors.mp present
    have bound := sound.unfinished first waits
    rw [here] at bound
    rw [occupied] at bound different
    omega

end Sound

/-- No round is open and nobody waits. -/
structure Idle (exchange : Exchange) : Prop where
  rounds : exchange.rounds = []
  waiting : exchange.waiting = []

/-- Where nobody waits and no round is open, the table agrees with the waiting calls. -/
theorem Idle.sound (idle : exchange.Idle) : exchange.Sound where
  seated := by simp [idle.waiting]
  apart := by simp [idle.waiting]
  ordered := by simp [idle.waiting]
  ticketed := by simp [idle.waiting]
  table := by simp [idle.waiting, idle.rounds, openRound, depositors, Rounds.find?]
  unfinished := by simp [idle.waiting]

/-- Where nobody waits, no round is open. -/
theorem Sound.idle (sound : exchange.Sound) (nobody : exchange.waiting = []) : exchange.Idle where
  rounds := by
    apply Rounds.eq_nil_of_find?_eq_none
    intro key
    exact sound.find?_eq_none_iff.mpr (by simp [depositors, nobody])
  waiting := nobody

end Exchange

end CollectiveBench
