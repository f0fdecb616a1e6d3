import CollectiveBench.Proofs.Exchange.Ledger

/-!
# How rounds end

With every event of a run, a round that someone has entered does one of three things
(`History.resolves`): it stays open, it completes with everyone in it handed one list, or its
first call times out and all others are abandoned. The last two close it, and no round does both.

Deadlines rise in the order of arrival because time does not run backwards while someone waits,
so the deadline that takes effect is that of the round's first call.
-/

namespace CollectiveBench

namespace Exchange

variable {start exchange : Exchange} {events : List Event} {log : List (List Departure)}
  {clock : Nat}

/-- Deadlines rise in the order of arrival, none lies further ahead than the clock allows, and
nobody waits where no time is given. -/
structure Timed (exchange : Exchange) (clock : Nat) : Prop where
  rising : exchange.waiting.Pairwise (·.deadline ≤ ·.deadline)
  recent : ∀ entry ∈ exchange.waiting, entry.deadline ≤ clock + exchange.world.timeoutMs
  hurried : exchange.world.timeoutMs = 0 → exchange.waiting = []

/-- A call that arrives may wait for the timeout from then on. -/
theorem arrival_deadline {event : Event} {entry : Waiting}
    (arrives : exchange.arrival? event = some entry) :
    entry.deadline = event.time + exchange.world.timeoutMs := by
  cases event with
  | expire now ticket => cases arrives
  | issue now index call =>
    obtain ⟨_, _, _, _, rfl⟩ := arrival?_issue arrives
    rfl

/-- Fewer calls wait under the same bounds. -/
theorem Timed.sublist {fewer : Exchange} (timed : exchange.Timed clock)
    (within : fewer.waiting.Sublist exchange.waiting) (world : fewer.world = exchange.world) :
    fewer.Timed clock where
  rising := timed.rising.sublist within
  recent := fun entry present => world ▸ timed.recent entry (within.subset present)
  hurried := by
    intro impatient
    have nobody := timed.hurried (world ▸ impatient)
    exact List.sublist_nil.mp (nobody ▸ within)

/-- Deadlines stay in order with every event that does not lie in the past. -/
theorem Timed.apply [Arithmetic] (timed : exchange.Timed clock) (sound : exchange.Sound)
    {event : Event}
    (onward : clock ≤ event.time ∨ exchange.waiting = []) :
    (exchange.apply event).1.Timed event.time := by
  have present : exchange.Timed event.time := by
    refine ⟨timed.rising, ?_, timed.hurried⟩
    intro entry waits
    rcases onward with later | nobody
    · have bound := timed.recent entry waits
      omega
    · simp [nobody] at waits
  have step := sound.step event
  generalize (exchange.apply event).1 = after at step ⊢
  generalize exchange.departures event = departing at step
  cases step with
  | answered stays => exact present.sublist (List.Sublist.refl _) rfl
  | refused arrives taken => exact present.sublist (List.Sublist.refl _) rfl
  | completed arrives vacant full => exact present.sublist List.filter_sublist rfl
  | @hurried _ _ _ entry arrives vacant short impatient =>
    have nobody := timed.hurried impatient
    refine present.sublist ?_ rfl
    simp [nobody]
  | @waits _ _ _ entry arrives vacant short patient =>
    have deadline := arrival_deadline arrives
    refine ⟨?_, ?_, fun impatient => absurd impatient patient⟩
    · refine List.pairwise_append.mpr ⟨present.rising, List.pairwise_singleton _ _, ?_⟩
      intro other waits last isLast
      rw [List.mem_singleton.mp isLast, deadline]
      exact present.recent other waits
    · intro other waits
      rcases List.mem_append.mp waits with earlier | last
      · exact present.recent other earlier
      · rw [List.mem_singleton.mp last, deadline]
        exact Nat.le_refl _
  | expired found => exact present.sublist List.filter_sublist rfl
  | idle missing => exact present

/-- Deadlines are in order throughout every run from rest. -/
theorem History.timed [Arithmetic] (rest : start.AtRest)
    (history : History start events log clock exchange) :
    exchange.Timed clock := by
  induction history with
  | start => exact ⟨by simp [rest.waiting], by simp [rest.waiting], fun _ => rest.waiting⟩
  | step earlier event onward permitted inductionHypothesis =>
    exact inductionHypothesis.apply (earlier.ledger rest).sound onward

/-- Everyone who has entered the open round of a key, the arriving call included. -/
def entered (exchange : Exchange) (event : Event) (key : RoundKey) : List Waiting :=
  exchange.depositors key ++ (exchange.arrival? event).toList.filter (·.key = key)

/-- The round waits for further members, and all who entered it still wait. -/
structure StaysOpen [Arithmetic] (exchange : Exchange) (event : Event) (key : RoundKey) : Prop where
  departures : ∀ departure ∈ exchange.departures event, departure.entry.key ≠ key
  waiting : (exchange.apply event).1.depositors key = exchange.entered event key
  table : (exchange.apply event).1.rounds.find? key =
    some (.ofWaiting (exchange.roundSize key) (exchange.entered event key))
  short : (exchange.entered event key).length < exchange.roundSize key

/-- Every member of the group has entered the round, and all are handed the list `all`, which has
the contribution of each at its place. -/
structure Completes [Arithmetic] (exchange : Exchange) (event : Event) (key : RoundKey)
    (all : List Contribution) : Prop where
  members : ((exchange.entered event key).map Waiting.rank).Perm
    (exchange.world.members key.group)
  length : all.length = exchange.roundSize key
  placed : ∀ entry ∈ exchange.entered event key,
    all[entry.position]? = some entry.call.contribution
  departures : exchange.departures event =
    (exchange.entered event key).map (⟨·, .handed all⟩)
  answers : (exchange.apply event).2 = (exchange.entered event key).map fun entry =>
    ⟨entry.ticket, conclude entry.call entry.rank entry.position all⟩
  waiting : (exchange.apply event).1.depositors key = []
  table : (exchange.apply event).1.rounds.find? key = none

/-- Some member has not entered the round when the deadline of the first call in it takes effect.
That call alone times out, and all others are abandoned. -/
structure Expires [Arithmetic] (exchange : Exchange) (event : Event) (key : RoundKey)
    (first : Waiting)
    (rest : List Waiting) : Prop where
  opener : exchange.entered event key = first :: rest
  short : rest.length + 1 < exchange.roundSize key
  due : first.deadline ≤ event.time
  earliest : ∀ other ∈ rest, first.ticket < other.ticket ∧ first.deadline ≤ other.deadline
  departures : exchange.departures event = ⟨first, .timedOut⟩ :: rest.map (⟨·, .abandoned⟩)
  answers : (exchange.apply event).2 =
    ⟨first.ticket, .error (.collectiveTimeout first.call.operation.name key.sequence
      exchange.world.timeoutMs)⟩ :: rest.map fun other =>
        ⟨other.ticket, .error (.collectiveFailed other.call.operation.name other.rank
          "round abandoned")⟩
  waiting : (exchange.apply event).1.depositors key = []
  table : (exchange.apply event).1.rounds.find? key = none

/-- Where one endpoint stands for each rank, no call finds its place taken: the rank's own earlier
calls have other numbers, and other ranks have other places. -/
theorem History.vacant [Arithmetic] (rest : start.AtRest)
    (history : History start events log clock exchange)
    {event : Event} {entry : Waiting} (arrives : exchange.arrival? event = some entry) :
    ∀ other ∈ exchange.depositors entry.key, other.position ≠ entry.position := by
  intro other present same
  obtain ⟨waits, key⟩ := mem_depositors.mp present
  have stepped := (history.ledger rest).step event
  rw [arrives] at stepped
  have listed : other ∈ log.flatten.map Departure.entry ++ exchange.waiting :=
    List.mem_append_right _ waits
  have place := World.getElem?_positionIn
    (stepped.recorded entry (List.mem_append_left _ (List.mem_singleton_self entry))).place
  have otherPlace := World.getElem?_positionIn
    (stepped.recorded other (List.mem_append_right _ listed)).place
  rw [key, same, place] at otherPlace
  have rank : entry.rank = other.rank := Option.some.inj otherPlace
  apply (List.nodup_cons.mp stepped.distinct).1
  exact List.mem_map.mpr ⟨other, listed, Prod.ext rank.symm key⟩

/-- The calls that enter a round with the last one stand for all ranks of the group. -/
theorem ranks_perm {key : RoundKey} {entries : List Waiting}
    (places : (entries.map Waiting.position).Perm (List.range (exchange.roundSize key)))
    (seated : ∀ entry ∈ entries,
      World.positionIn (exchange.world.members key.group) entry.rank = some entry.position) :
    (entries.map Waiting.rank).Perm (exchange.world.members key.group) := by
  have ranks : entries.map Waiting.rank = (entries.map Waiting.position).map
      (fun place => ((exchange.world.members key.group)[place]?).getD 0) := by
    rw [List.map_map]
    apply List.map_congr_left
    intro entry present
    simp [World.getElem?_positionIn (seated entry present)]
  have inOrder : (List.range (exchange.roundSize key)).map
      (fun place => ((exchange.world.members key.group)[place]?).getD 0) =
      exchange.world.members key.group := by
    apply List.ext_getElem?
    intro place
    by_cases inside : place < (exchange.world.members key.group).length
    · simp [roundSize, inside]
    · simp [roundSize, inside]
  have arranged := places.map fun place => ((exchange.world.members key.group)[place]?).getD 0
  rwa [← ranks, inOrder] at arranged

namespace Sound

variable (sound : exchange.Sound)
include sound

/-- Where someone departs, the answers are those of the departing calls. -/
theorem answers_of_departures [Arithmetic] {event : Event}
    (someone : exchange.departures event ≠ []) :
    (exchange.apply event).2 =
      (exchange.departures event).map (Departure.answer exchange.world.timeoutMs) := by
  rw [sound.answers_apply]
  cases event with
  | expire now ticket => rfl
  | issue now index call =>
    cases arrives : exchange.arrival? (.issue now index call) with
    | none => simp [departures, arrives] at someone
    | some entry => simp [answersTo, arrives]

/-- The calls of a round that nobody leaves wait on, and an arriving call joins them. -/
theorem depositors_apply [Arithmetic] {event : Event} {key : RoundKey}
    (nobody : ∀ departure ∈ exchange.departures event, departure.entry.key ≠ key) :
    (exchange.apply event).1.depositors key = exchange.entered event key := by
  have step := sound.step event
  generalize (exchange.apply event).1 = after at step ⊢
  generalize exchange.departures event = departing at step nobody
  cases step with
  | answered stays =>
    rw [entered, stays]
    simp [depositors]
  | refused arrives taken =>
    have elsewhere := nobody _ (List.mem_singleton_self _)
    simp [entered, arrives, elsewhere]
  | @completed _ _ _ entry arrives vacant full =>
    have elsewhere : entry.key ≠ key := nobody ⟨entry, _⟩
      (List.mem_map_of_mem (List.mem_append_right _ (List.mem_singleton_self entry)))
    rw [depositors_close, if_neg (Ne.symm elsewhere)]
    simp [entered, arrives, elsewhere]
  | @hurried _ _ _ entry arrives vacant short impatient =>
    have elsewhere : entry.key ≠ key := nobody _ List.mem_cons_self
    rw [depositors_close, if_neg (Ne.symm elsewhere), depositors_join]
    simp [entered, arrives, elsewhere]
  | @waits _ _ _ entry arrives vacant short patient =>
    rw [entered, arrives, depositors_join]
    by_cases here : entry.key = key <;> simp [here]
  | @expired _ _ due found =>
    have elsewhere : due.key ≠ key := nobody _ List.mem_cons_self
    rw [depositors_close, if_neg (Ne.symm elsewhere)]
    simp [entered, arrival?]
  | idle missing => simp [entered, arrival?]

/-- A round that nobody leaves stays open. -/
theorem staysOpen [Arithmetic] {event : Event} {key : RoundKey}
    (someone : exchange.entered event key ≠ [])
    (nobody : ∀ departure ∈ exchange.departures event, departure.entry.key ≠ key) :
    exchange.StaysOpen event key := by
  have waiting := sound.depositors_apply nobody
  refine ⟨nobody, waiting, ?_, ?_⟩
  · rw [(sound.apply event).table, openRound, waiting, roundSize, world_apply sound]
    simp [someone, roundSize]
  · obtain ⟨entry, present⟩ := List.exists_mem_of_ne_nil _ someone
    rw [← waiting] at present ⊢
    obtain ⟨waits, rfl⟩ := mem_depositors.mp present
    have bound := (sound.apply event).unfinished entry waits
    rwa [roundSize, world_apply sound] at bound

/-- A round whose last member arrives completes. -/
theorem completes [Arithmetic] {now index : Nat} {call : Call} {entry : Waiting}
    {all : List Contribution}
    (arrives : exchange.arrival? (.issue now index call) = some entry)
    (departing : exchange.departures (.issue now index call) =
      (exchange.depositors entry.key ++ [entry]).map (⟨·, .handed all⟩))
    (nobody : (exchange.apply (.issue now index call)).1.depositors entry.key = []) :
    exchange.Completes (.issue now index call) entry.key all := by
  have everyone : exchange.entered (.issue now index call) entry.key =
      exchange.depositors entry.key ++ [entry] := by simp [entered, arrives]
  obtain ⟨others, round, _⟩ := sound.completion
    (departing ▸ List.mem_map_of_mem (List.mem_append_right _ List.mem_cons_self)) rfl
  have same : others = exchange.depositors entry.key ++ [entry] := by
    simpa [Function.comp_def] using
      congrArg (List.map Departure.entry) (round.departures.symm.trans departing)
  refine ⟨?_, round.length, ?_, everyone ▸ departing, ?_, nobody,
    (sound.apply _).find?_eq_none_iff.mpr nobody⟩
  · rw [everyone]
    refine ranks_perm (same ▸ round.places) ?_
    intro other member
    rcases List.mem_append.mp member with earlier | last
    · obtain ⟨waits, sameKey⟩ := mem_depositors.mp earlier
      exact sameKey ▸ (sound.seated other waits).2
    · rw [List.mem_singleton.mp last]
      exact (arrival_seated arrives).2
  · rw [everyone, ← same]
    exact round.placed
  · rw [everyone, sound.answers_of_departures (by simp [departing]), departing, List.map_map]
    rfl

/-- A round that its first call leaves with a timeout, and all others with it, expires. -/
theorem expires [Arithmetic] {event : Event} {key : RoundKey} {first : Waiting}
    {rest : List Waiting}
    (opener : exchange.entered event key = first :: rest)
    (short : rest.length + 1 < exchange.roundSize key) (due : first.deadline ≤ event.time)
    (earliest : ∀ other ∈ rest,
      first.ticket < other.ticket ∧ first.deadline ≤ other.deadline)
    (departing : exchange.departures event =
      ⟨first, .timedOut⟩ :: rest.map (⟨·, .abandoned⟩))
    (sameKey : first.key = key)
    (nobody : (exchange.apply event).1.depositors key = []) :
    exchange.Expires event key first rest := by
  refine ⟨opener, short, due, earliest, departing, ?_, nobody,
    (sound.apply _).find?_eq_none_iff.mpr nobody⟩
  rw [sound.answers_of_departures (by simp [departing]), departing, List.map_cons, List.map_map]
  subst sameKey
  rfl

end Sound

/-- A deadline that may take effect is that of the call that opened its round: later calls have
later deadlines, or the same deadline and a later ticket. -/
theorem Timed.opener (timed : exchange.Timed clock) (sound : exchange.Sound) {now ticket : Nat}
    {due : Waiting} (permitted : exchange.Permits (.expire now ticket))
    (found : exchange.waiting.find? (·.ticket = ticket) = some due) :
    due.deadline ≤ now ∧
      exchange.depositors due.key =
        due :: (exchange.depositors due.key).filter (·.ticket ≠ due.ticket) := by
  obtain ⟨permittedDue, waits, sameTicket, passed, foremost⟩ := permitted
  have ticketed : due.ticket = ticket := by simpa using List.find?_some found
  obtain rfl : permittedDue = due :=
    sound.ticket_injective waits (List.mem_of_find?_eq_some found) (sameTicket.trans ticketed.symm)
  refine ⟨passed, ?_⟩
  have present := mem_depositors.mpr ⟨waits, rfl⟩
  have deadlines : (exchange.depositors permittedDue.key).Pairwise (·.deadline ≤ ·.deadline) :=
    timed.rising.sublist List.filter_sublist
  have tickets : (exchange.depositors permittedDue.key).Pairwise (·.ticket < ·.ticket) :=
    sound.ordered.sublist List.filter_sublist
  cases occupied : exchange.depositors permittedDue.key with
  | nil => simp [occupied] at present
  | cons first rest =>
    rw [occupied] at present deadlines tickets foremost
    have earlier := (List.pairwise_cons.mp tickets).1
    -- A later call could only come before the first one with an earlier deadline.
    have opens : permittedDue = first := by
      rcases List.mem_cons.mp present with same | later
      · exact same
      · have before := foremost first List.mem_cons_self
        have noLater := (List.pairwise_cons.mp deadlines).1 _ later
        have sooner := earlier _ later
        omega
    subst opens
    have others : rest.filter (·.ticket ≠ permittedDue.ticket) = rest := by
      apply List.filter_eq_self.mpr
      intro other member
      simpa using (Nat.ne_of_lt (earlier other member)).symm
    rw [List.filter_cons_of_neg (by simp), others]

/-- In a run, a round that someone leaves completes or expires with its first call. -/
theorem History.closes [Arithmetic] (rest : start.AtRest)
    (history : History start events log clock exchange)
    {event : Event} (permitted : exchange.Permits event) {departure : Departure}
    (departs : departure ∈ exchange.departures event) :
    (∃ all, exchange.Completes event departure.entry.key all) ∨
      ∃ first others, exchange.Expires event departure.entry.key first others := by
  have sound := (history.ledger rest).sound
  have timed := history.timed rest
  have step := sound.step event
  generalize after : (exchange.apply event).1 = next at step
  generalize departing : exchange.departures event = leaving at step departs
  cases step with
  | answered stays => simp at departs
  | refused arrives taken =>
    obtain ⟨other, present, same⟩ := taken
    exact absurd same (history.vacant rest arrives other present)
  | @completed now index call entry arrives vacant full =>
    obtain ⟨member, present, rfl⟩ := List.mem_map.mp departs
    have here : member.key = entry.key := by
      rcases List.mem_append.mp present with earlier | last
      · exact (mem_depositors.mp earlier).2
      · rw [List.mem_singleton.mp last]
    rw [here]
    refine .inl ⟨_, sound.completes arrives departing ?_⟩
    rw [after, depositors_close, if_pos rfl]
  | @hurried now index call entry arrives vacant short impatient =>
    have vacated : exchange.depositors entry.key = [] := by
      simp [depositors, timed.hurried impatient]
    rw [vacated] at departs departing short
    obtain rfl := List.mem_singleton.mp departs
    refine .inr ⟨entry, [], sound.expires ?_ short ?_ (by simp) departing rfl ?_⟩
    · simp [entered, arrives, vacated]
    · have deadline := arrival_deadline arrives
      omega
    · rw [after, depositors_close, if_pos rfl]
  | waits arrives vacant short patient => simp at departs
  | @expired now ticket due found =>
    obtain ⟨passed, opener⟩ := timed.opener sound permitted found
    have here : departure.entry.key = due.key := by
      rcases List.mem_cons.mp departs with rfl | abandoned
      · rfl
      · obtain ⟨member, kept, rfl⟩ := List.mem_map.mp abandoned
        exact (mem_depositors.mp (List.mem_of_mem_filter kept)).2
    rw [here]
    refine .inr ⟨due, _, sound.expires ?_ ?_ passed ?_ departing rfl ?_⟩
    · simpa [entered, arrival?] using opener
    · have bound := sound.unfinished due (List.mem_of_find?_eq_some found)
      rw [opener] at bound
      exact bound
    · have deadlines : (exchange.depositors due.key).Pairwise (·.deadline ≤ ·.deadline) :=
        timed.rising.sublist List.filter_sublist
      have tickets : (exchange.depositors due.key).Pairwise (·.ticket < ·.ticket) :=
        sound.ordered.sublist List.filter_sublist
      rw [opener] at deadlines tickets
      intro other member
      exact ⟨(List.pairwise_cons.mp tickets).1 _ member,
        (List.pairwise_cons.mp deadlines).1 _ member⟩
    · rw [after, depositors_close, if_pos rfl]
  | idle missing => simp at departs

/-- With every event of a run, a round that someone has entered stays open, completes, or expires
with its first call: it stays open if nobody leaves it. -/
theorem History.resolves [Arithmetic] (rest : start.AtRest)
    (history : History start events log clock exchange)
    {event : Event} (permitted : exchange.Permits event) {key : RoundKey}
    (someone : exchange.entered event key ≠ []) :
    exchange.StaysOpen event key ∨ (∃ all, exchange.Completes event key all) ∨
      ∃ first others, exchange.Expires event key first others := by
  have sound := (history.ledger rest).sound
  by_cases leaves : ∃ departure ∈ exchange.departures event, departure.entry.key = key
  · obtain ⟨departure, departs, rfl⟩ := leaves
    exact .inr (history.closes rest permitted departs)
  · have nobody : ∀ departure ∈ exchange.departures event, departure.entry.key ≠ key :=
      fun departure departs here => leaves ⟨departure, departs, here⟩
    exact .inl (sound.staysOpen someone nobody)

/-- A round that completes does not expire, and the other way round. -/
theorem Completes.not_expires [Arithmetic] {event : Event} {key : RoundKey}
    {all : List Contribution}
    (completes : exchange.Completes event key all) (first : Waiting) (others : List Waiting) :
    ¬ exchange.Expires event key first others := by
  intro expires
  have fates := congrArg (List.map Departure.fate)
    (completes.departures.symm.trans expires.departures)
  simp [expires.opener] at fates

end Exchange

end CollectiveBench
