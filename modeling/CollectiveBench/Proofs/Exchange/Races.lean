import CollectiveBench.Proofs.Exchange.FilledSlots
import CollectiveBench.Proofs.Exchange.History

/-!
# Deadlines that race with calls

A deadline takes effect in two steps: a call stops waiting, and then its round leaves the table. A
task that does both at once makes one event of them (`Racing.remove_elapse`), and of such events a
run consists. Tasks that run at the same time are not bound to that. In between others may enter the
round, and one of them may complete it; further calls may stop waiting; and when the removal comes,
another round may be open under the same key. So some members may be handed a round of which another
one says that it timed out (`Racing.one_of_two_handed`), and all or nothing is more than can be
said.

This is what can be said, whatever comes between (`Racing.settles`). No call is answered twice or
forgotten. Whoever is handed a round has the contribution of each member. The round of a key is
completed once at most, and never after it was removed. And no round is left once every call has its
answer.
-/

namespace CollectiveBench

variable [Arithmetic] {took : Waiting → Prop} {world : World} {ranks : List Nat}
  {exchange : Exchange} {event : Event} {key : RoundKey} {entry due : Waiting} {round : Round}
  {now index rank ticket : Nat} {call : Call}

namespace Exchange

/-- What a deadline does to others does not depend on whether its call still waits. -/
theorem expire_withdraw (exchange : Exchange) (due : Waiting) :
    (exchange.undergo (.withdraw due.ticket)).expire due = exchange.expire due := by
  simp only [undergo, expire, List.filter_filter]
  congr 5
  all_goals
    funext entry
    by_cases own : entry.ticket = due.ticket <;> simp [own]

end Exchange

/-- An exchange, and the calls that have stopped waiting and are about to remove their rounds. -/
structure Racing where
  exchange : Exchange
  elapsed : List Waiting

namespace Racing

/-- One step of one task. -/
inductive Move where
  /-- The endpoint of an index issues a call. -/
  | issue (now index : Nat) (call : Call)
  /-- The deadline of a waiting call has passed, and the call stops waiting. -/
  | elapse (ticket : Nat)
  /-- A call that has stopped waiting removes the round of its key, whichever is open by then. -/
  | remove (ticket : Nat)
deriving DecidableEq, Repr

/-- Nothing has happened yet. -/
def create (world : World) (ranks : List Nat) : Racing := ⟨.create world ranks, []⟩

/-- The calls that have a seat and no answer. -/
def outstanding (racing : Racing) : List Waiting := racing.exchange.waiting ++ racing.elapsed

/-- What a step makes of an exchange, and the answers that it brings about. -/
def move (racing : Racing) : Move → Racing × List Answer
  | .issue now index call =>
    let (exchange, answers) := racing.exchange.issue now index call
    (⟨exchange, racing.elapsed⟩, answers)
  | .elapse ticket =>
    match racing.exchange.waiting.find? (·.ticket = ticket) with
    | none => (racing, [])
    | some due => (⟨racing.exchange.undergo (.withdraw ticket), racing.elapsed ++ [due]⟩, [])
  | .remove ticket =>
    match racing.elapsed.find? (·.ticket = ticket) with
    | none => (racing, [])
    | some due =>
      let (exchange, answers) := racing.exchange.expire due
      (⟨exchange, racing.elapsed.filter (·.ticket ≠ ticket)⟩, answers)

/-- Steps one after the other, with all answers. -/
def run (world : World) (ranks : List Nat) (moves : List Move) : Racing × List Answer :=
  moves.foldl
    (fun (racing, answers) move => ((racing.move move).1, answers ++ (racing.move move).2))
    (create world ranks, [])

/-- A run with one more move makes that move where the run ended. -/
theorem run_snoc (world : World) (ranks : List Nat) (moves : List Move) (last : Move) :
    run world ranks (moves ++ [last]) =
      (((run world ranks moves).1.move last).1,
        (run world ranks moves).2 ++ ((run world ranks moves).1.move last).2) := by
  simp [run]

/-- A removal that follows at once makes one event of the deadline. -/
theorem remove_elapse {racing : Racing} (now : Nat)
    (waits : racing.exchange.waiting.find? (·.ticket = ticket) = some due)
    (others : ∀ entry ∈ racing.elapsed, entry.ticket ≠ ticket) :
    (racing.move (.elapse ticket)).1.move (.remove ticket) =
      (⟨(racing.exchange.apply (.expire now ticket)).1, racing.elapsed⟩,
        (racing.exchange.apply (.expire now ticket)).2) := by
  obtain rfl : due.ticket = ticket := by simpa using List.find?_some waits
  have found : (racing.elapsed ++ [due]).find? (·.ticket = due.ticket) = some due := by
    have absent : racing.elapsed.find? (·.ticket = due.ticket) = none := by
      simpa [List.find?_eq_none] using others
    simp [List.find?_append, absent]
  have kept : (racing.elapsed ++ [due]).filter (·.ticket ≠ due.ticket) = racing.elapsed := by
    simpa [List.filter_append, List.filter_eq_self] using others
  simp only [move, waits, found, kept, Exchange.apply, Exchange.expire_withdraw]

omit [Arithmetic] in
/-- One of two ranks finds that its deadline has passed. Before it removes the round, the other one
completes it, and is handed what the first one contributed. -/
theorem one_of_two_handed :
    let moves : List Move := [.issue 0 0 (.barrier World.defaultGroup), .elapse 0,
      .issue 50 1 (.barrier World.defaultGroup), .remove 0]
    (@run .checked (.create 2 [] 50) [0, 1] moves).2.map
    (fun answer => (answer.ticket, answer.outcome.isOk)) =
      [(1, true), (0, false)] := by
  decide

end Racing

/-! ## Numbers that are spent -/

namespace Exchange

/-- No endpoint of a rank will enter the round of a key again. -/
def Spent (exchange : Exchange) (rank : Nat) (key : RoundKey) : Prop :=
  ∀ endpoint ∈ exchange.endpoints, endpoint.rank = rank → key.sequence < endpoint.next key.group

/-- The endpoints count in every group. -/
def Counts (exchange : Exchange) : Prop :=
  ∀ endpoint ∈ exchange.endpoints, endpoint.sequences.length = exchange.world.groups.length

omit [Arithmetic] in
/-- Drawing numbers for a call changes one endpoint at most. -/
theorem exists_of_mem_draw {endpoint : Endpoint}
    (listed : endpoint ∈ (exchange.draw index entry).endpoints) :
    ∃ place old, exchange.endpoints[place]? = some old ∧
      endpoint = if index = place then old.advance entry.key.group else old := by
  obtain ⟨place, here⟩ := List.getElem?_of_mem listed
  rw [draw, List.getElem?_modify] at here
  obtain ⟨old, there, rfl⟩ := Option.map_eq_some_iff.mp here
  exact ⟨place, old, there, by split <;> rfl⟩

omit [Arithmetic] in
/-- Drawing numbers keeps the counts of all endpoints. -/
theorem Counts.draw (counts : exchange.Counts) (index : Nat) (entry : Waiting) :
    (exchange.draw index entry).Counts := by
  intro endpoint listed
  obtain ⟨place, old, there, rfl⟩ := exists_of_mem_draw listed
  have count := counts old (List.mem_of_getElem? there)
  split
  · simpa [Endpoint.advance, Exchange.draw] using count
  · exact count

omit [Arithmetic] in
/-- No number is given back. -/
theorem Spent.draw (spent : exchange.Spent rank key) (index : Nat) (entry : Waiting) :
    (exchange.draw index entry).Spent rank key := by
  intro endpoint listed stands
  obtain ⟨place, old, there, rfl⟩ := exists_of_mem_draw listed
  have present := List.mem_of_getElem? there
  split at stands
  next here =>
    rw [if_pos here]
    refine Nat.lt_of_lt_of_le (spent old present stands) ?_
    by_cases inside : key.group < old.sequences.length
    · rw [next_advance _ inside]
      exact Nat.le_add_right _ _
    · simp [Endpoint.next, Endpoint.advance, inside]
  next elsewhere =>
    rw [if_neg elsewhere]
    exact spent old present stands

omit [Arithmetic] in
/-- A call that takes its seat spends the number of its rank, if there is one endpoint for each
rank. -/
theorem Tended.spent_draw (tended : exchange.Tended took world ranks) (distinct : ranks.Nodup)
    (counts : exchange.Counts)
    (arrives : exchange.arrival? (.issue now index call) = some entry) :
    (exchange.draw index entry).Spent entry.rank entry.key := by
  obtain ⟨endpoint, seat, found, seated, same⟩ := arrival?_issue arrives
  intro other listed stands
  obtain ⟨place, old, there, rfl⟩ := exists_of_mem_draw listed
  have position (place : Nat) {old : Endpoint} (there : exchange.endpoints[place]? = some old) :
      ranks[place]? = some old.rank := by
    rw [← tended.posts, List.getElem?_map, there]
    rfl
  have here : index = place := by
    obtain ⟨inside, _⟩ := List.getElem?_eq_some_iff.mp (position index found)
    refine (List.getElem?_inj inside distinct).mp ?_
    have stands : old.rank = entry.rank := by
      split at stands <;> exact stands
    rw [position index found, position place there, stands, same]
  subst here
  obtain rfl := Option.some.inj (found.symm.trans there)
  have inside : entry.key.group < endpoint.sequences.length := by
    rw [counts endpoint (List.mem_of_getElem? found), same]
    exact (World.seatFor_eq_some seated).1
  rw [if_pos rfl, next_advance _ inside, if_pos rfl, same]
  exact Nat.lt_succ_self _

end Exchange

/-! ## Steps -/

namespace Racing

/-- What every step keeps of an exchange and of the calls without an answer. The slots of the open
rounds are filled, the endpoints count, each ticket has one answer or none yet, and every ticket
that a round would notify has none. The calls without an answer sit at the places of their ranks and
have spent their numbers. -/
structure Kept (world : World) (ranks : List Nat) (answered : List Nat) (exchange : Exchange)
    (outstanding : List Waiting) : Prop where
  tended : exchange.Tended (fun _ => True) world ranks
  counts : exchange.Counts
  tickets : (answered ++ outstanding.map Waiting.ticket).Perm (List.range exchange.nextTicket)
  notified : ∀ key round, (key, round) ∈ exchange.rounds → ∀ ticket ∈ round.waiters,
    ∃ entry ∈ outstanding, entry.ticket = ticket ∧ entry.key = key
  seated : ∀ entry ∈ outstanding,
    World.positionIn (world.members entry.key.group) entry.rank = some entry.position
  spent : ∀ entry ∈ outstanding, exchange.Spent entry.rank entry.key

namespace Kept

variable {answered : List Nat} {outstanding gone left : List Waiting} {after : Exchange}

omit [Arithmetic] in
/-- Before the first move everything is kept. -/
theorem create (world : World) (ranks : List Nat) :
    Kept world ranks [] (.create world ranks) [] where
  tended := Exchange.tended_create
  counts := by
    intro endpoint listed
    obtain ⟨rank, -, rfl⟩ := List.mem_map.mp listed
    exact List.length_replicate
  tickets := by simp [Exchange.create]
  notified := by simp [Exchange.create]
  seated := by simp
  spent := by simp

variable (kept : Kept world ranks answered exchange outstanding)
include kept

omit [Arithmetic] in
/-- The order of the calls does not matter, nor who still waits. -/
theorem perm (same : outstanding.Perm left) (waiting : List Waiting) :
    Kept world ranks answered { exchange with waiting } left where
  tended := ⟨kept.tended.setting, kept.tended.posts, kept.tended.rounds⟩
  counts := kept.counts
  tickets := ((same.map _).symm.append_left answered).trans kept.tickets
  notified := fun key round present ticket listed =>
    have ⟨entry, there, facts⟩ := kept.notified key round present ticket listed
    ⟨entry, same.mem_iff.mp there, facts⟩
  seated := fun entry there => kept.seated entry (same.mem_iff.mpr there)
  spent := fun entry there => kept.spent entry (same.mem_iff.mpr there)

omit [Arithmetic] in
/-- Calls without an answer have different tickets. -/
theorem distinct : (outstanding.map Waiting.ticket).Nodup :=
  (List.nodup_append.mp (kept.tickets.nodup_iff.mpr List.nodup_range)).2.1

omit [Arithmetic] in
/-- A ticket that is drawn and answered at once leaves the calls without an answer alone. -/
theorem spend (tended : after.Tended (fun _ => True) world ranks) (counts : after.Counts)
    (rounds : after.rounds = exchange.rounds) (drawn : after.nextTicket = exchange.nextTicket + 1)
    (spent : ∀ rank key, exchange.Spent rank key → after.Spent rank key) :
    Kept world ranks (answered ++ [exchange.nextTicket]) after outstanding where
  tended := tended
  counts := counts
  tickets := by
    rw [drawn, List.range_succ, List.append_assoc]
    have moved : ([exchange.nextTicket] ++ outstanding.map Waiting.ticket).Perm
        (outstanding.map Waiting.ticket ++ [exchange.nextTicket]) := List.perm_append_comm
    refine (moved.append_left answered).trans ?_
    rw [← List.append_assoc]
    exact kept.tickets.append_right _
  notified := by rw [rounds]; exact kept.notified
  seated := kept.seated
  spent := fun entry there => spent _ _ (kept.spent entry there)

omit [Arithmetic] in
/-- A call that takes its seat has no answer yet. -/
theorem arrive (distinct : ranks.Nodup)
    (arrives : exchange.arrival? (.issue now index call) = some entry) :
    Kept world ranks answered (exchange.draw index entry) (entry :: outstanding) where
  tended := kept.tended.draw index entry
  counts := kept.counts.draw index entry
  tickets := by
    obtain ⟨_, _, _, _, rfl⟩ := Exchange.arrival?_issue arrives
    rw [show (exchange.draw index _).nextTicket = exchange.nextTicket + 1 from rfl, List.range_succ]
    exact List.perm_middle.trans
      ((kept.tickets.cons _).trans (List.perm_append_singleton _ _).symm)
  notified := fun key round present ticket listed =>
    have ⟨entry, there, facts⟩ := kept.notified key round present ticket listed
    ⟨entry, List.mem_cons_of_mem _ there, facts⟩
  seated := by
    have place := (Exchange.arrival_seated arrives).2
    rw [kept.tended.setting] at place
    exact List.forall_mem_cons.mpr ⟨place, kept.seated⟩
  spent := List.forall_mem_cons.mpr ⟨kept.tended.spent_draw distinct kept.counts arrives,
    fun other there => (kept.spent other there).draw index entry⟩

omit [Arithmetic] in
/-- A round takes the place of the earlier one of its key, if it would notify calls of that key
only. -/
theorem insert (begun : round.Begun (fun _ => True) key (world.members key.group))
    (notifies : ∀ ticket ∈ round.waiters, ∃ entry ∈ outstanding, entry.ticket = ticket ∧
      entry.key = key) :
    Kept world ranks answered { exchange with rounds := exchange.rounds.insert key round }
      outstanding :=
  { kept with
    tended := ⟨kept.tended.setting, kept.tended.posts, kept.tended.rounds.insert begun⟩
    notified := by
      intro other stored present
      rcases List.mem_cons.mp present with same | earlier
      · cases same
        exact notifies
      · exact kept.notified other stored (List.mem_of_mem_filter earlier) }

omit [Arithmetic] in
/-- A round leaves the table, and some calls of its key are answered. -/
theorem leave (parts : outstanding.Perm (gone ++ left)) (here : ∀ entry ∈ gone, entry.key = key) :
    Kept world ranks (answered ++ gone.map Waiting.ticket)
      { exchange with rounds := exchange.rounds.erase key } left where
  tended := ⟨kept.tended.setting, kept.tended.posts, kept.tended.rounds.erase key⟩
  counts := kept.counts
  tickets := by
    rw [List.append_assoc, ← List.map_append]
    exact ((parts.map _).symm.append_left answered).trans kept.tickets
  notified := by
    intro other round present ticket listed
    obtain ⟨inTable, different⟩ := List.mem_filter.mp present
    obtain ⟨entry, there, same, keyed⟩ := kept.notified other round inTable ticket listed
    rcases List.mem_append.mp (parts.mem_iff.mp there) with leaves | stays
    · exact absurd (keyed.symm.trans (here entry leaves)) (by simpa using different)
    · exact ⟨entry, stays, same, keyed⟩
  seated := fun entry stays =>
    kept.seated entry (parts.mem_iff.mpr (List.mem_append_right _ stays))
  spent := fun entry stays =>
    kept.spent entry (parts.mem_iff.mpr (List.mem_append_right _ stays))

omit [Arithmetic] in
/-- A deadline takes effect: the call times out, whether it still waits or not, and the others who
wait in the round that is open by then are abandoned. -/
theorem expire {elapsed : List Waiting} (all : outstanding = exchange.waiting ++ elapsed)
    (present : due ∈ outstanding) :
    Kept world ranks (answered ++ (exchange.expire due).2.map Answer.ticket) (exchange.expire due).1
      ((exchange.expire due).1.waiting ++ elapsed.filter (·.ticket ≠ due.ticket)) := by
  -- The call itself may have stopped waiting before, so only the others are looked for among those
  -- that wait.
  let abandoned := (((exchange.rounds.find? due.key).map Round.waiters).getD []).filter
    (· ≠ due.ticket)
  let gone := due :: exchange.waiting.filter (abandoned.contains ·.ticket)
  have others {ticket : Nat} (listed : abandoned.contains ticket) :
      ticket ≠ due.ticket ∧ ∃ entry ∈ outstanding, entry.ticket = ticket ∧ entry.key = due.key := by
    simp only [abandoned, List.contains_iff_mem, List.mem_filter, decide_eq_true_eq] at listed
    refine ⟨listed.2, ?_⟩
    cases found : exchange.rounds.find? due.key with
    | none => simp [found] at listed
    | some round =>
      have inTable := kept.tended.rounds.find?_eq_some_iff.mp found
      exact kept.notified _ _ inTable ticket (by simpa [found] using listed.1)
  have parts : outstanding.Perm
      (gone ++ ((exchange.expire due).1.waiting ++ elapsed.filter (·.ticket ≠ due.ticket))) := by
    have front := Exchange.perm_cons_filter kept.distinct present
    have split := List.filter_append_perm (abandoned.contains ·.ticket)
      (exchange.waiting.filter (·.ticket ≠ due.ticket))
    have leaving :
      (exchange.waiting.filter (·.ticket ≠ due.ticket)).filter (abandoned.contains ·.ticket) =
        exchange.waiting.filter (abandoned.contains ·.ticket) := by
      rw [List.filter_filter]
      refine List.filter_congr fun entry _ => ?_
      cases listed : abandoned.contains entry.ticket with
      | false => rfl
      | true => simpa using (others listed).1
    have staying : (exchange.waiting.filter (·.ticket ≠ due.ticket)).filter
        (!abandoned.contains ·.ticket) = (exchange.expire due).1.waiting := by
      simp only [List.filter_filter, Exchange.expire]
      refine List.filter_congr fun entry _ => ?_
      by_cases own : entry.ticket = due.ticket <;> simp [own, abandoned]
    rw [leaving, staying] at split
    have rest : (outstanding.filter (·.ticket ≠ due.ticket)).Perm
        (exchange.waiting.filter (abandoned.contains ·.ticket) ++
          ((exchange.expire due).1.waiting ++ elapsed.filter (·.ticket ≠ due.ticket))) := by
      rw [all, List.filter_append, ← List.append_assoc]
      exact split.symm.append_right _
    exact front.symm.trans (rest.cons due)
  have here : ∀ entry ∈ gone, entry.key = due.key := by
    intro entry leaves
    rcases List.mem_cons.mp leaves with rfl | waits
    · rfl
    · obtain ⟨waits, listed⟩ := List.mem_filter.mp waits
      obtain ⟨-, other, there, same, keyed⟩ := others listed
      have present : entry ∈ outstanding := all ▸ List.mem_append_left _ waits
      obtain rfl := List.inj_on_of_nodup_map kept.distinct there present same
      exact keyed
  have answers : (exchange.expire due).2.map Answer.ticket = gone.map Waiting.ticket := by
    simp [gone, abandoned, Exchange.expire]
  rw [answers]
  exact (kept.leave parts here).perm (.refl _) (exchange.expire due).1.waiting

omit [Arithmetic] in
/-- The round that a call enters would notify it and calls of the same key. -/
theorem notified_fill (entry : Waiting) (size : Nat) :
    ∀ ticket ∈ (((exchange.rounds.find? entry.key).getD (.empty size)).fill entry.position
        entry.ticket entry.call.contribution).waiters,
      ∃ other ∈ entry :: outstanding, other.ticket = ticket ∧ other.key = entry.key := by
  intro ticket listed
  rcases List.mem_append.mp listed with earlier | own
  · cases found : exchange.rounds.find? entry.key with
    | none => simp [found, Round.empty] at earlier
    | some round =>
      obtain ⟨other, there, facts⟩ := kept.notified _ round
        (kept.tended.rounds.find?_eq_some_iff.mp found) ticket (by simpa [found] using earlier)
      exact ⟨other, List.mem_cons_of_mem _ there, facts⟩
  · exact ⟨entry, List.mem_cons_self, (List.mem_singleton.mp own).symm, rfl⟩

/-- A round is complete: the calls that still wait in it are handed what is in it. -/
theorem complete {waiting elapsed : List Waiting} {tickets : List Nat}
    (all : outstanding.Perm ((waiting ++ [entry]) ++ elapsed)) (own : entry.ticket ∈ tickets)
    (notified : ∀ ticket ∈ tickets, ∃ other ∈ outstanding, other.ticket = ticket ∧
      other.key = entry.key)
    (delivered : List Contribution) :
    Kept world ranks
      (answered ++ (Exchange.concludeAll tickets (waiting ++ [entry]) delivered).map Answer.ticket)
      { exchange with
        rounds := exchange.rounds.erase entry.key
        waiting := waiting.filter (!tickets.contains ·.ticket) }
      (waiting.filter (!tickets.contains ·.ticket) ++ elapsed) := by
  let gone := (waiting ++ [entry]).filter (tickets.contains ·.ticket)
  have parts : outstanding.Perm
      (gone ++ (waiting.filter (!tickets.contains ·.ticket) ++ elapsed)) := by
    have split := List.filter_append_perm (tickets.contains ·.ticket) (waiting ++ [entry])
    have stays : (waiting ++ [entry]).filter (!tickets.contains ·.ticket) =
        waiting.filter (!tickets.contains ·.ticket) := by
      simp [List.filter_append, own]
    rw [stays] at split
    rw [← List.append_assoc]
    exact all.trans (split.symm.append_right elapsed)
  have here : ∀ other ∈ gone, other.key = entry.key := by
    intro other leaves
    obtain ⟨there, listed⟩ := List.mem_filter.mp leaves
    obtain ⟨known, among, same, keyed⟩ := notified _ (List.contains_iff_mem.mp listed)
    have present := all.mem_iff.mpr (List.mem_append_left elapsed there)
    obtain rfl := List.inj_on_of_nodup_map kept.distinct among present same
    exact keyed
  have answers : (Exchange.concludeAll tickets (waiting ++ [entry]) delivered).map Answer.ticket =
      gone.map Waiting.ticket := by
    rw [Exchange.concludeAll, List.map_map]
    rfl
  rw [answers]
  exact (kept.leave parts here).perm (.refl _) _

/-- A call is issued. -/
theorem issue {elapsed : List Waiting} (all : outstanding = exchange.waiting ++ elapsed)
    (distinct : ranks.Nodup) (now index : Nat) (call : Call) :
    Kept world ranks (answered ++ (exchange.issue now index call).2.map Answer.ticket)
      (exchange.issue now index call).1 ((exchange.issue now index call).1.waiting ++ elapsed) := by
  have tended : (exchange.issue now index call).1.Tended (fun _ => True) world ranks :=
    kept.tended.issue fun _ _ => trivial
  subst all
  cases arrives : exchange.arrival? (.issue now index call) with
  | none =>
    rw [Exchange.issue_eq_immediate arrives] at tended ⊢
    exact kept.spend tended kept.counts rfl rfl fun _ _ spent => spent
  | some entry =>
    have arrived := kept.arrive distinct arrives
    have notified := kept.notified_fill entry (world.members entry.key.group).length
    have moved : (entry :: (exchange.waiting ++ elapsed)).Perm
        ((exchange.waiting ++ [entry]) ++ elapsed) := by
      rw [List.append_assoc]
      exact List.perm_middle.symm
    rcases kept.tended.issue_cases trivial arrives with
      refused | ⟨entered, begun⟩ | ⟨completed, -⟩
    · rw [refused] at tended ⊢
      have spent := kept.spend tended (kept.counts.draw index entry) rfl rfl
        fun _ _ spent => spent.draw index entry
      obtain ⟨_, _, _, _, rfl⟩ := Exchange.arrival?_issue arrives
      exact spent
    · have inserted := (arrived.insert begun notified).perm moved (exchange.waiting ++ [entry])
      rw [entered]
      split
      · have others : elapsed.filter (·.ticket ≠ entry.ticket) = elapsed := by
          have new := (List.nodup_cons.mp arrived.distinct).1
          refine List.filter_eq_self.mpr fun other listed => decide_eq_true fun same => new ?_
          exact same ▸ List.mem_map_of_mem (List.mem_append_right _ listed)
        have expired := inserted.expire rfl
          (List.mem_append_left elapsed (List.mem_append_right _ (List.mem_singleton_self entry)))
        rwa [others] at expired
      · rw [List.map_nil, List.append_nil]
        exact inserted
    · rw [completed]
      exact arrived.complete moved (List.mem_append_right _ (List.mem_singleton_self _)) notified _

end Kept

variable {racing : Racing} {answered : List Nat}

/-- Every step keeps what is to be kept. -/
theorem Kept.move (kept : Kept world ranks answered racing.exchange racing.outstanding)
    (distinct : ranks.Nodup) (move : Move) :
    Kept world ranks (answered ++ (racing.move move).2.map Answer.ticket)
      (racing.move move).1.exchange (racing.move move).1.outstanding := by
  cases move with
  | issue now index call => exact kept.issue rfl distinct now index call
  | elapse ticket =>
    rw [Racing.move]
    split
    next => simpa using kept
    next due found =>
      obtain rfl : due.ticket = ticket := by simpa using List.find?_some found
      have apart : (racing.exchange.waiting.map Waiting.ticket).Nodup :=
        kept.distinct.sublist ((List.sublist_append_left _ _).map _)
      have front := Exchange.perm_cons_filter apart (List.mem_of_find?_eq_some found)
      have moved : racing.outstanding.Perm
        (racing.exchange.waiting.filter (·.ticket ≠ due.ticket) ++
          (racing.elapsed ++ [due])) := by
        rw [← List.append_assoc]
        exact (front.symm.append_right _).trans (List.perm_append_singleton _ _).symm
      rw [List.map_nil, List.append_nil]
      exact kept.perm moved _
  | remove ticket =>
    rw [Racing.move]
    split
    next => simpa using kept
    next due found =>
      obtain rfl : due.ticket = ticket := by simpa using List.find?_some found
      exact kept.expire rfl (List.mem_append_right _ (List.mem_of_find?_eq_some found))

/-! ## Rounds that cannot be completed any more -/

end Racing

namespace Exchange

/-- A call that arrives with an event is the last one of the round of a key: its tickets are
notified, and these contributions are handed over. -/
def Delivers (exchange : Exchange) (event : Event) (key : RoundKey) (tickets : List Nat)
    (delivered : List Contribution) : Prop :=
  ∃ entry, exchange.arrival? event = some entry ∧ entry.key = key ∧
    exchange.rounds.deposit key (exchange.roundSize key) entry.position entry.ticket
      entry.call.contribution = .ok (.complete (exchange.rounds.erase key) tickets delivered)

/-- A member of a group has spent its number for a round and has no contribution in it. -/
def Barred (exchange : Exchange) (key : RoundKey) : Prop :=
  ∃ rank place, World.positionIn (exchange.world.members key.group) rank = some place ∧
    exchange.Spent rank key ∧
    ∀ round, exchange.rounds.find? key = some round → round.slots[place]? = some none

variable {tickets : List Nat} {delivered : List Contribution}

omit [Arithmetic] in
/-- A round that is handed over is the one that its last member entered, with every slot filled. -/
theorem Tended.delivers_eq (tended : exchange.Tended took world ranks)
    (admitted : ∀ entry, exchange.arrival? event = some entry → took entry)
    (delivers : exchange.Delivers event key tickets delivered) :
    ∃ entry, exchange.arrival? event = some entry ∧ entry.key = key ∧
      let members := world.members key.group
      let joined := ((exchange.rounds.find? key).getD (.empty members.length)).fill entry.position
        entry.ticket entry.call.contribution
      World.positionIn members entry.rank = some entry.position ∧
        tickets = joined.waiters ∧ delivered = joined.contributions ∧
        joined.Filled took key members ∧ joined.arrived = members.length := by
  obtain ⟨entry, arrives, rfl, deposited⟩ := delivers
  refine ⟨entry, arrives, rfl, ?_⟩
  cases event with
  | expire now ticket => cases arrives
  | issue now index call =>
    have place := (arrival_seated arrives).2
    rw [roundSize] at deposited
    rw [tended.setting] at place deposited
    refine ⟨place, ?_⟩
    rcases tended.rounds.deposit_cases (admitted entry arrives) place with
      ⟨refused, -⟩ | ⟨waits, -⟩ | ⟨complete, filled, full⟩
    · cases refused.symm.trans deposited
    · cases waits.symm.trans deposited
    · have same := complete.symm.trans deposited
      simp only [Except.ok.injEq, Rounds.Deposit.complete.injEq, true_and] at same
      exact ⟨same.1.symm, same.2.symm, filled, full⟩

omit [Arithmetic] in
/-- Whoever is handed a round has one contribution of each member, and those who brought them are
the ones that are notified. -/
theorem Tended.delivers (tended : exchange.Tended took world ranks)
    (admitted : ∀ entry, exchange.arrival? event = some entry → took entry)
    (delivers : exchange.Delivers event key tickets delivered) :
    delivered.length = (world.members key.group).length ∧
    ∀ place contribution, delivered[place]? = some contribution → ∃ entry, took entry ∧
      entry.key = key ∧ entry.position = place ∧ entry.ticket ∈ tickets ∧
        entry.call.contribution = contribution := by
  obtain ⟨_, _, _, _, rfl, rfl, filled, full⟩ := tended.delivers_eq admitted delivers
  generalize Round.fill _ _ _ _ = joined at filled full ⊢
  have slots := filled.contributions_full full
  refine ⟨?_, fun place contribution here => ?_⟩
  · have length := congrArg List.length slots
    rw [List.length_map, filled.slots] at length
    exact length
  · have slot : joined.slots[place]? = some (some contribution) := by
      rw [← slots, List.getElem?_map, here]
      rfl
    obtain ⟨entry, admitted, rfl, holds⟩ := filled.held place ⟨contribution, slot⟩
    refine ⟨entry, admitted, holds.key, rfl, holds.waiter, ?_⟩
    exact Option.some.inj (Option.some.inj (holds.slot.symm.trans slot))

section Barred

variable {place : Nat}
  (seat : World.positionIn (exchange.world.members key.group) rank = some place)
  (spent : exchange.Spent rank key)
  (vacant : ∀ round, exchange.rounds.find? key = some round → round.slots[place]? = some none)

include seat spent vacant

omit [Arithmetic] in
/-- Another member that enters the round leaves the slot of one that has spent its number empty. -/
theorem vacant_fill (arrives : exchange.arrival? event = some entry) (here : entry.key = key) :
    (((exchange.rounds.find? key).getD (.empty (exchange.world.members key.group).length)).fill
      entry.position entry.ticket entry.call.contribution).slots[place]? = some none := by
  subst here
  -- The member of the slot can only enter with a later number, so whoever enters sits elsewhere.
  have elsewhere : entry.position ≠ place := by
    rintro rfl
    cases event with
    | expire now ticket => cases arrives
    | issue now index call =>
      have own := World.getElem?_positionIn (arrival_seated arrives).2
      obtain ⟨endpoint, _, found, _, rfl⟩ := arrival?_issue arrives
      have same : endpoint.rank = rank :=
        Option.some.inj (own.symm.trans (World.getElem?_positionIn seat))
      exact Nat.lt_irrefl _ (spent endpoint (List.mem_of_getElem? found) same)
  rw [Round.fill, List.getElem?_set_ne elsewhere]
  cases found : exchange.rounds.find? entry.key with
  | none => simp [Round.empty, World.positionIn_lt seat]
  | some round => exact vacant round found

end Barred

omit [Arithmetic] in
/-- Removing a round completes none. -/
theorem Barred.erase (barred : exchange.Barred key) (other : RoundKey) (waiting : List Waiting) :
    ({ exchange with rounds := exchange.rounds.erase other, waiting } : Exchange).Barred key := by
  obtain ⟨rank, place, seat, spent, vacant⟩ := barred
  refine ⟨rank, place, seat, spent, fun round found => vacant round ?_⟩
  by_cases same : key = other
  · subst same
    simp at found
  · rwa [Rounds.find?_erase_of_ne _ same] at found

variable (tended : exchange.Tended (fun _ => True) world ranks)
include tended

omit [Arithmetic] in
/-- A barred round is not completed. -/
theorem Barred.not_delivers (barred : exchange.Barred key) :
    ¬exchange.Delivers event key tickets delivered := by
  intro delivers
  obtain ⟨rank, place, seat, spent, vacant⟩ := barred
  obtain ⟨entry, arrives, here, _, _, _, filled, full⟩ :=
    tended.delivers_eq (fun _ _ => trivial) delivers
  have empty := vacant_fill seat spent vacant arrives here
  rw [tended.setting] at empty
  have slots := filled.contributions_full full
  rw [← slots, List.getElem?_map] at empty
  obtain ⟨_, _, impossible⟩ := Option.map_eq_some_iff.mp empty
  cases impossible

/-- A barred round stays barred. -/
theorem Barred.issue (barred : exchange.Barred key) :
    (exchange.issue now index call).1.Barred key := by
  cases arrives : exchange.arrival? (.issue now index call) with
  | none =>
    rw [issue_eq_immediate arrives]
    exact barred
  | some entry =>
    obtain ⟨rank, place, seat, spent, vacant⟩ := barred
    have drawn : (exchange.draw index entry).Barred key :=
      ⟨rank, place, seat, spent.draw index entry, vacant⟩
    rcases tended.issue_cases trivial arrives with issued | ⟨issued, -⟩ | ⟨issued, -⟩
    · rw [issued]
      exact drawn
    · have entered : ({ exchange.draw index entry with
          rounds := exchange.rounds.insert entry.key
            (((exchange.rounds.find? entry.key).getD
              (.empty (world.members entry.key.group).length)).fill entry.position entry.ticket
                entry.call.contribution)
          waiting := exchange.waiting ++ [entry] } : Exchange).Barred key := by
        refine ⟨rank, place, seat, spent.draw index entry, fun round found => ?_⟩
        by_cases same : key = entry.key
        · subst same
          rw [Rounds.find?_insert_self] at found
          obtain rfl := Option.some.inj found
          rw [← tended.setting]
          exact vacant_fill seat spent vacant arrives rfl
        · rw [Rounds.find?_insert_of_ne _ _ same] at found
          exact vacant round found
      rw [issued]
      split
      · exact entered.erase entry.key _
      · exact entered
    · rw [issued]
      exact drawn.erase entry.key _

omit [Arithmetic] in
/-- A round that left the table is barred, once a member has spent its number for it. -/
theorem Tended.barred_erase {rank place : Nat}
    (seat : World.positionIn (world.members key.group) rank = some place)
    (spent : exchange.Spent rank key) (waiting : List Waiting) :
    ({ exchange with rounds := exchange.rounds.erase key, waiting } : Exchange).Barred key := by
  rw [← tended.setting] at seat
  exact ⟨rank, place, seat, spent, by simp⟩

/-- A round that was completed is barred. -/
theorem Tended.barred_of_delivers (distinct : ranks.Nodup) (counts : exchange.Counts)
    (delivers : exchange.Delivers (.issue now index call) key tickets delivered) :
    (exchange.issue now index call).1.Barred key := by
  obtain ⟨entry, arrives, rfl, deposited⟩ := delivers
  have place := (arrival_seated arrives).2
  rw [tended.setting] at place
  rw [issue_eq_deposit arrives, deposited]
  exact (tended.draw index entry).barred_erase place (tended.spent_draw distinct counts arrives) _

end Exchange

/-! ## Runs -/

namespace Racing

variable {tickets : List Nat} {delivered : List Contribution}

/-- Every run keeps what is to be kept. -/
theorem kept_run (world : World) (distinct : ranks.Nodup) (moves : List Move) :
    Kept world ranks ((run world ranks moves).2.map Answer.ticket)
      (run world ranks moves).1.exchange
      (run world ranks moves).1.outstanding := by
  induction moves using List.reverseRecOn with
  | nil => exact .create world ranks
  | append_singleton before last inductionHypothesis =>
    rw [run_snoc, List.map_append]
    exact inductionHypothesis.move distinct last

/-- What bars a round bars it for good. The induction is on the steps that follow. -/
theorem barred_run (distinct : ranks.Nodup) {moves : List Move}
    (barred : (run world ranks moves).1.exchange.Barred key) (further : List Move) :
    (run world ranks (moves ++ further)).1.exchange.Barred key := by
  induction further using List.reverseRecOn with
  | nil => simpa using barred
  | append_singleton before last inductionHypothesis =>
    have tended := (kept_run world distinct (moves ++ before)).tended
    rw [← List.append_assoc, run_snoc]
    cases last with
    | issue now index call => exact inductionHypothesis.issue tended
    | elapse ticket =>
      rw [move]
      split
      · exact inductionHypothesis
      · exact inductionHypothesis
    | remove ticket =>
      rw [move]
      split
      · exact inductionHypothesis
      · exact inductionHypothesis.erase _ _

/-- Every step is something that happens to an exchange. -/
theorem exists_after_run (world : World) (ranks : List Nat) (moves : List Move) :
    ∃ happenings, (run world ranks moves).1.exchange =
      (Exchange.create world ranks).after happenings := by
  induction moves using List.reverseRecOn with
  | nil => exact ⟨[], rfl⟩
  | append_singleton before last inductionHypothesis =>
    obtain ⟨happenings, same⟩ := inductionHypothesis
    have further (happening : Happening) : (run world ranks before).1.exchange.undergo happening =
        (Exchange.create world ranks).after (happenings ++ [happening]) := by
      rw [Exchange.after_append, ← same]
      rfl
    rw [run_snoc]
    cases last with
    | issue now index call => exact ⟨_, further (.event (.issue now index call))⟩
    | elapse ticket =>
      rw [move]
      split
      · exact ⟨happenings, same⟩
      · exact ⟨_, further (.withdraw ticket)⟩
    | remove ticket =>
      rw [move]
      split
      · exact ⟨happenings, same⟩
      next due _ => exact ⟨_, further (.late due)⟩

/-- Whatever follows on some steps, the round of a key is not completed. -/
def Closed (world : World) (ranks : List Nat) (moves : List Move) (key : RoundKey) : Prop :=
  ∀ further event tickets delivered,
    ¬(run world ranks (moves ++ further)).1.exchange.Delivers event key tickets delivered

/-- A barred round is closed for good. -/
theorem closed_of_barred (distinct : ranks.Nodup) {moves : List Move}
    (barred : (run world ranks moves).1.exchange.Barred key) : Closed world ranks moves key :=
  fun further _ _ _ =>
    (barred_run distinct barred further).not_delivers (kept_run world distinct _).tended

omit [Arithmetic] in
/-- A round whose calls all have their answers is not in the table. -/
theorem Kept.rounds_eq_nil {answered : List Nat} (kept : Kept world ranks answered exchange []) :
    exchange.rounds = [] := by
  refine List.eq_nil_iff_forall_not_mem.mpr fun ⟨key, round⟩ present => ?_
  have begun := kept.tended.rounds.begun key round present
  have someone : 0 < round.waiters.length := begun.waiters ▸ begun.started
  obtain ⟨_, impossible, _⟩ := kept.notified key round present _ (List.getElem_mem someone)
  exact List.not_mem_nil impossible

/-- Whatever comes between a deadline and its removal, in a world of any groups with one endpoint
for each of some ranks: every ticket has one answer or none yet; where all have theirs, no round is
left; whoever is handed a round has one contribution of each member, from a call that took its seat
in it; and the round of a key is completed once at most, and never after one of its calls removed
it. -/
theorem settles (world : World) (distinct : ranks.Nodup) (moves : List Move) :
    let racing := (run world ranks moves).1
    ((run world ranks moves).2.map Answer.ticket ++ racing.outstanding.map Waiting.ticket).Perm
      (List.range racing.exchange.nextTicket) ∧
    (racing.outstanding = [] → racing.exchange.rounds = []) ∧
    (∃ happenings, racing.exchange = (Exchange.create world ranks).after happenings ∧
      ∀ now index call key tickets delivered,
        racing.exchange.Delivers (.issue now index call) key tickets delivered →
        delivered.length = (world.members key.group).length ∧
        ∀ place contribution, delivered[place]? = some contribution → ∃ entry,
          Exchange.Took world ranks (happenings ++ [.event (.issue now index call)]) entry ∧
            entry.key = key ∧ entry.position = place ∧ entry.ticket ∈ tickets ∧
              entry.call.contribution = contribution) ∧
    (∀ now index call key tickets delivered,
      racing.exchange.Delivers (.issue now index call) key tickets delivered →
        Closed world ranks (moves ++ [.issue now index call]) key) ∧
    ∀ due ∈ racing.elapsed, Closed world ranks (moves ++ [.remove due.ticket]) due.key := by
  intro racing
  have kept := kept_run world distinct moves
  refine ⟨kept.tickets, fun nobody => ?_, ?_, ?_, ?_⟩
  · rw [show (run world ranks moves).1.outstanding = [] from nobody] at kept
    exact kept.rounds_eq_nil
  · obtain ⟨happenings, same⟩ := exists_after_run world ranks moves
    refine ⟨happenings, same, fun now index call key tickets delivered delivers => ?_⟩
    have tended := Exchange.tended_after world ranks happenings
    rw [same] at delivers
    refine (tended.mono fun entry took => took.append _).delivers (fun entry arrives => ?_) delivers
    obtain ⟨_, _, _, _, rfl⟩ := Exchange.arrival?_issue arrives
    exact ⟨happenings, now, index, [], rfl, arrives, tended.stands arrives⟩
  · intro now index call key tickets delivered delivers
    refine closed_of_barred distinct ?_
    rw [run_snoc]
    exact kept.tended.barred_of_delivers distinct kept.counts delivers
  · intro due listed
    refine closed_of_barred distinct ?_
    have present : due ∈ racing.outstanding := List.mem_append_right _ listed
    -- No other call has its ticket, so it is the one that the removal finds.
    have found : racing.elapsed.find? (·.ticket = due.ticket) = some due := by
      obtain ⟨other, first⟩ :
          ∃ other, racing.elapsed.find? (·.ticket = due.ticket) = some other := by
        rw [← Option.isSome_iff_exists, List.find?_isSome]
        exact ⟨due, listed, by simp⟩
      have there : other ∈ racing.outstanding :=
        List.mem_append_right _ (List.mem_of_find?_eq_some first)
      have same : other.ticket = due.ticket := by simpa using List.find?_some first
      rwa [List.inj_on_of_nodup_map kept.distinct there present same] at first
    rw [run_snoc, move, found]
    exact kept.tended.barred_erase (kept.seated due present) (kept.spent due present) _

end Racing

end CollectiveBench
