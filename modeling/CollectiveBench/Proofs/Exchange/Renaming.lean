import CollectiveBench.Proofs.Exchange.Prompt

/-!
# Runs under other tickets

Tickets and deadlines decide nothing about what a call gets: a ticket only names the call that an
answer is for, and a deadline only the moment at which a call gives up. Two exchanges whose waiting
calls are the same up to both, in the same order, therefore answer a further call alike and give up
their oldest call alike (`Mirrors.issue`, `Mirrors.expire`), and the answers that they give are the
same up to the tickets.
-/

namespace CollectiveBench

/-- A waiting call under another ticket, with its deadline left open. -/
def Waiting.retold (rename : Nat → Nat) (entry : Waiting) : Waiting :=
  { entry with ticket := rename entry.ticket, deadline := 0 }

/-- A new ticket leaves the round that is waited for. -/
@[simp] theorem Waiting.retold_key (rename : Nat → Nat) (entry : Waiting) :
    (entry.retold rename).key = entry.key := rfl

/-- A new ticket leaves the place in the round. -/
@[simp] theorem Waiting.retold_position (rename : Nat → Nat) (entry : Waiting) :
    (entry.retold rename).position = entry.position := rfl

/-- Calls that are the same up to ticket and deadline are in one round and at one place. -/
theorem Waiting.key_position_of_retold {rename : Nat → Nat} {entry twin : Waiting}
    (same : twin.retold id = entry.retold rename) :
    twin.key = entry.key ∧ twin.position = entry.position := by
  have key := congrArg Waiting.key same
  have position := congrArg Waiting.position same
  exact ⟨key, position⟩

/-- An answer under another ticket. -/
def Answer.retold (rename : Nat → Nat) (answer : Answer) : Answer :=
  ⟨rename answer.ticket, answer.outcome⟩

section

variable {rename : Nat → Nat} {entries others : List Waiting}

/-- What a call is answered when it leaves its round does not depend on its deadline, and on its
ticket only in the ticket. -/
theorem Departure.answer_retold [Arithmetic] (timeoutMs : Nat) (entry : Waiting) (fate : Fate) :
    Departure.answer timeoutMs ⟨entry.retold rename, fate⟩ =
      (Departure.answer timeoutMs ⟨entry, fate⟩).retold rename := rfl

/-- Calls that are the same up to ticket and deadline leave with the same answers up to the
ticket. -/
theorem answers_retold [Arithmetic]
    (same : others.map (Waiting.retold id) = entries.map (Waiting.retold rename))
    (timeoutMs : Nat) (fate : Fate) :
    (others.map (⟨·, fate⟩)).map (Departure.answer timeoutMs) =
      ((entries.map (⟨·, fate⟩)).map (Departure.answer timeoutMs)).map (Answer.retold rename) := by
  have answers := congrArg (List.map fun entry => Departure.answer timeoutMs ⟨entry, fate⟩) same
  simp only [List.map_map, Function.comp_def, Departure.answer_retold] at answers ⊢
  exact answers

/-- Of calls that are the same up to ticket and deadline, those in some rounds are so too. -/
theorem filter_retold (same : others.map (Waiting.retold id) = entries.map (Waiting.retold rename))
    (keeps : RoundKey → Bool) :
    (others.filter (keeps ·.key)).map (Waiting.retold id) =
      (entries.filter (keeps ·.key)).map (Waiting.retold rename) := by
  have kept := congrArg (List.filter fun entry => keeps entry.key) same
  simpa [List.filter_map, Function.comp_def] using kept

/-- What the calls of a round contribute does not depend on their tickets and deadlines. -/
theorem Round.contributions_retold (size : Nat) (rename : Nat → Nat) (entries : List Waiting) :
    (ofWaiting size (entries.map (Waiting.retold rename))).contributions =
      (ofWaiting size entries).contributions := by
  have found (position : Nat) :
      ((entries.map (Waiting.retold rename)).find? (·.position = position)).map
          (·.call.contribution) =
        (entries.find? (·.position = position)).map (·.call.contribution) := by
    rw [List.find?_map, Option.map_map]
    rfl
  simp only [contributions, ofWaiting, found]

end

namespace Exchange

variable {plain fuller : Exchange} {rename : Nat → Nat}

/-- The call that has waited longest abandons those who wait in its round behind it. -/
theorem Sound.depositors_first {exchange : Exchange} (sound : exchange.Sound) {due : Waiting}
    {rest : List Waiting} (waiting : exchange.waiting = due :: rest) :
    (exchange.depositors due.key).filter (·.ticket ≠ due.ticket) =
      rest.filter (·.key = due.key) := by
  have later := (List.pairwise_cons.mp (waiting ▸ sound.ordered)).1
  have apart : (rest.filter (·.key = due.key)).filter (·.ticket ≠ due.ticket) =
      rest.filter (·.key = due.key) := by
    apply List.filter_eq_self.mpr
    intro other present
    simpa using (Nat.ne_of_lt (later other (List.mem_of_mem_filter present))).symm
  rw [Exchange.depositors, waiting, List.filter_cons_of_pos (by simp),
    List.filter_cons_of_neg (by simp), apart]

/-- Two exchanges that are the same up to the tickets and deadlines of the waiting calls: `rename`
leads from the tickets of one to those of the other. -/
structure Mirrors (rename : Nat → Nat) (plain fuller : Exchange) : Prop where
  sound : plain.Sound
  fullerSound : fuller.Sound
  world : fuller.world = plain.world
  endpoints : fuller.endpoints = plain.endpoints
  waiting : fuller.waiting.map (Waiting.retold id) = plain.waiting.map (Waiting.retold rename)

namespace Mirrors

variable (mirrors : Mirrors rename plain fuller)
include mirrors

/-- As many calls wait in one as in the other. -/
theorem length_eq : fuller.waiting.length = plain.waiting.length := by
  simpa using congrArg List.length mirrors.waiting

/-- Whoever waits in a round in one waits there in the other. -/
theorem depositors (key : RoundKey) :
    (fuller.depositors key).map (Waiting.retold id) =
      (plain.depositors key).map (Waiting.retold rename) :=
  filter_retold mirrors.waiting fun other => other = key

/-- Rounds are as large in the one exchange as in the other. -/
theorem roundSize_eq (key : RoundKey) : fuller.roundSize key = plain.roundSize key := by
  rw [roundSize, roundSize, mirrors.world]

/-- The arriving call is the same in both, if its tickets belong together. -/
theorem arrival {now index : Nat} {call : Call} {entry : Waiting}
    (arrives : plain.arrival? (.issue now index call) = some entry)
    (next : fuller.nextTicket = rename plain.nextTicket) (later : Nat) :
    ∃ twin, fuller.arrival? (.issue later index call) = some twin ∧
      twin.retold id = entry.retold rename := by
  obtain ⟨endpoint, seat, found, seated, rfl⟩ := arrival?_issue arrives
  rw [← mirrors.endpoints] at found
  rw [← mirrors.world] at seated
  refine ⟨⟨fuller.nextTicket, endpoint.rank, seat.position, ⟨call.group, endpoint.next call.group⟩,
    later + fuller.world.timeoutMs, call⟩, ?_, ?_⟩
  · simp [arrival?, found, seated]
  · simp [Waiting.retold, next]

/-- A call that takes no seat in one takes none in the other, and has the same answer. -/
theorem no_arrival {now index : Nat} {call : Call}
    (stays : plain.arrival? (.issue now index call) = none) (later : Nat) :
    fuller.arrival? (.issue later index call) = none ∧
      fuller.immediate index call = plain.immediate index call := by
  constructor
  · cases arrives : fuller.arrival? (.issue later index call) with
    | none => rfl
    | some entry =>
      obtain ⟨endpoint, seat, found, seated, _⟩ := arrival?_issue arrives
      rw [mirrors.endpoints] at found
      rw [mirrors.world] at seated
      simp [arrival?, found, seated] at stays
  · rw [immediate, immediate, mirrors.endpoints, mirrors.world]

/-- The calls of a round and a further one contribute the same in both. -/
theorem lineUp_eq {entries others : List Waiting} (key : RoundKey)
    (same : others.map (Waiting.retold id) = entries.map (Waiting.retold rename)) :
    fuller.lineUp key others = plain.lineUp key entries := by
  rw [lineUp, lineUp, mirrors.roundSize_eq, ← Round.contributions_retold _ id, same,
    Round.contributions_retold]

section

variable {entry twin : Waiting} (same : twin.retold id = entry.retold rename)
include same

/-- The round of a call that is the same in both has the same calls before it and with it. -/
theorem everyone :
    (fuller.depositors twin.key).map (Waiting.retold id) =
        (plain.depositors entry.key).map (Waiting.retold rename) ∧
      (fuller.depositors twin.key ++ [twin]).map (Waiting.retold id) =
        (plain.depositors entry.key ++ [entry]).map (Waiting.retold rename) := by
  have earlier := mirrors.depositors entry.key
  rw [(Waiting.key_position_of_retold same).1]
  refine ⟨earlier, ?_⟩
  rw [List.map_append, List.map_append, earlier, List.map_singleton, same, List.map_singleton]

/-- The place of a call that is the same in both is taken in both or in none. -/
theorem taken_eq :
    (fuller.depositors twin.key).any (·.position = twin.position) =
      (plain.depositors entry.key).any (·.position = entry.position) := by
  have places := congrArg (List.map Waiting.position) (mirrors.everyone same).1
  simp only [List.map_map, Function.comp_def, Waiting.retold_position] at places
  have taken := congrArg (List.any · (· = entry.position)) places
  rw [(Waiting.key_position_of_retold same).2]
  simpa [List.any_map, Function.comp_def] using taken

/-- The rounds of a call that is the same in both are complete with it in both or in none. -/
theorem full_iff :
    (fuller.depositors twin.key ++ [twin]).length = fuller.roundSize twin.key ↔
      (plain.depositors entry.key ++ [entry]).length = plain.roundSize entry.key := by
  have length := congrArg List.length (mirrors.everyone same).2
  simp only [List.length_map] at length
  rw [length, mirrors.roundSize_eq, (Waiting.key_position_of_retold same).1]

/-- Those who leave with a call that is the same in both have the same answers. -/
theorem departures [Arithmetic] {now later index : Nat} {call : Call}
    (arrives : plain.arrival? (.issue now index call) = some entry)
    (arrivesToo : fuller.arrival? (.issue later index call) = some twin) (timeoutMs : Nat) :
    (fuller.departures (.issue later index call)).map (Departure.answer timeoutMs) =
      ((plain.departures (.issue now index call)).map (Departure.answer timeoutMs)).map
        (Answer.retold rename) := by
  obtain ⟨earlier, all⟩ := mirrors.everyone same
  have alone : [twin].map (Waiting.retold id) = [entry].map (Waiting.retold rename) := by
    rw [List.map_singleton, same, List.map_singleton]
  have lists : fuller.lineUp twin.key (fuller.depositors twin.key ++ [twin]) =
      plain.lineUp entry.key (plain.depositors entry.key ++ [entry]) := by
    rw [(Waiting.key_position_of_retold same).1] at all ⊢
    exact mirrors.lineUp_eq entry.key all
  simp only [Exchange.departures, arrives, arrivesToo, mirrors.taken_eq same,
    mirrors.full_iff same, mirrors.world]
  split
  · exact answers_retold alone timeoutMs .refused
  · split
    · rw [lists]
      exact answers_retold all timeoutMs _
    · split
      · exact congrArg₂ (· ++ ·) (answers_retold alone timeoutMs .timedOut)
          (answers_retold earlier timeoutMs .abandoned)
      · rfl

/-- Those who wait after a call that is the same in both are the same. -/
theorem waiting_issue [Arithmetic] {now later index : Nat} {call : Call}
    (arrives : plain.arrival? (.issue now index call) = some entry)
    (arrivesToo : fuller.arrival? (.issue later index call) = some twin) :
    (fuller.issue later index call).1.waiting.map (Waiting.retold id) =
      (plain.issue now index call).1.waiting.map (Waiting.retold rename) := by
  have others := filter_retold mirrors.waiting fun key => key ≠ entry.key
  have key := (Waiting.key_position_of_retold same).1
  rw [mirrors.fullerSound.issue_eq arrivesToo, mirrors.sound.issue_eq arrives]
  simp only [mirrors.taken_eq same, mirrors.full_iff same, mirrors.world]
  split
  · exact mirrors.waiting
  · split
    · simpa [key] using others
    · split
      · simpa [key, List.filter_append] using others
      · simp [mirrors.waiting, same]

end

/-- A further call has the same effect on both, whenever it is issued, and brings about the same
answers. -/
theorem issue [Arithmetic] (next : fuller.nextTicket = rename plain.nextTicket)
    (now later index : Nat)
    (call : Call) :
    Mirrors rename (plain.issue now index call).1 (fuller.issue later index call).1 ∧
      (fuller.issue later index call).2 =
        (plain.issue now index call).2.map (Answer.retold rename) := by
  have plainWorld := world_apply mirrors.sound (.issue now index call)
  have fullerWorld := world_apply mirrors.fullerSound (.issue later index call)
  have plainEndpoints := endpoints_apply mirrors.sound (.issue now index call)
  have fullerEndpoints := endpoints_apply mirrors.fullerSound (.issue later index call)
  have carried (endpoints : (fuller.apply (.issue later index call)).1.endpoints =
        (plain.apply (.issue now index call)).1.endpoints)
      (waiting : (fuller.issue later index call).1.waiting.map (Waiting.retold id) =
        (plain.issue now index call).1.waiting.map (Waiting.retold rename)) :
      Mirrors rename (plain.issue now index call).1 (fuller.issue later index call).1 :=
    ⟨mirrors.sound.apply (.issue now index call),
      mirrors.fullerSound.apply (.issue later index call),
      fullerWorld.trans (mirrors.world.trans plainWorld.symm), endpoints, waiting⟩
  cases arrives : plain.arrival? (.issue now index call) with
  | none =>
    obtain ⟨stays, same⟩ := mirrors.no_arrival arrives later
    simp only [arrives, stays] at plainEndpoints fullerEndpoints
    refine ⟨carried ?_ ?_, ?_⟩
    · rw [plainEndpoints, fullerEndpoints, mirrors.endpoints]
    · rw [issue_eq_immediate arrives, issue_eq_immediate stays]
      exact mirrors.waiting
    · rw [issue_eq_immediate arrives, issue_eq_immediate stays]
      simp [Answer.retold, next, same]
  | some entry =>
    obtain ⟨twin, arrivesToo, same⟩ := mirrors.arrival arrives next later
    simp only [arrives, arrivesToo] at plainEndpoints fullerEndpoints
    refine ⟨carried ?_ (mirrors.waiting_issue same arrives arrivesToo), ?_⟩
    · rw [plainEndpoints, fullerEndpoints, mirrors.endpoints,
        (Waiting.key_position_of_retold same).1]
    · rw [mirrors.fullerSound.issue_eq arrivesToo, mirrors.sound.issue_eq arrives, mirrors.world]
      exact mirrors.departures same arrives arrivesToo _

/-- When the call that has waited longest gives up, the same happens in both. -/
theorem expire {due twin : Waiting} {rest others : List Waiting}
    (waiting : plain.waiting = due :: rest) (waitingToo : fuller.waiting = twin :: others) :
    Mirrors rename (plain.expire due).1 (fuller.expire twin).1 ∧
      (fuller.expire twin).2 = (plain.expire due).2.map (Answer.retold rename) := by
  have same := mirrors.waiting
  simp only [waiting, waitingToo, List.map_cons] at same
  obtain ⟨first, later⟩ := List.cons.inj same
  have key := (Waiting.key_position_of_retold first).1
  have waits : due ∈ plain.waiting := by simp [waiting]
  have waitsToo : twin ∈ fuller.waiting := by simp [waitingToo]
  have left := filter_retold mirrors.waiting fun other => other ≠ due.key
  have alone : [twin].map (Waiting.retold id) = [due].map (Waiting.retold rename) := by
    rw [List.map_singleton, first, List.map_singleton]
  have abandoned := filter_retold later fun other => other = due.key
  rw [mirrors.sound.expire_eq waits, mirrors.fullerSound.expire_eq waitsToo,
    mirrors.sound.depositors_first waiting, mirrors.fullerSound.depositors_first waitingToo, key,
    mirrors.world]
  refine ⟨⟨mirrors.sound.close _, mirrors.fullerSound.close _, mirrors.world, mirrors.endpoints,
    left⟩, ?_⟩
  exact congrArg₂ (· ++ ·) (answers_retold alone _ .timedOut)
    (answers_retold abandoned _ .abandoned)

/-- When all waiting calls give up, the oldest first, the same happens in both. -/
theorem expireBefore (rising : plain.waiting.Pairwise (·.deadline ≤ ·.deadline))
    (risingToo : fuller.waiting.Pairwise (·.deadline ≤ ·.deadline)) (fuel : Nat) :
    Mirrors rename (Exchange.expireBefore none fuel plain).1
        (Exchange.expireBefore none fuel fuller).1 ∧
      (Exchange.expireBefore none fuel fuller).2 =
        (Exchange.expireBefore none fuel plain).2.map (Answer.retold rename) := by
  induction fuel generalizing plain fuller with
  | zero => exact ⟨mirrors, rfl⟩
  | succ fuel inductionHypothesis =>
    rw [expireBefore_succ rising, expireBefore_succ risingToo]
    have length := mirrors.length_eq
    cases waiting : plain.waiting with
    | nil =>
      obtain waitingToo : fuller.waiting = [] := by simpa [waiting] using length
      rw [waitingToo]
      exact ⟨mirrors, rfl⟩
    | cons due rest =>
      cases waitingToo : fuller.waiting with
      | nil => simp [waiting, waitingToo] at length
      | cons twin others =>
        obtain ⟨after, answers⟩ := mirrors.expire waiting waitingToo
        have stillRising : (plain.expire due).1.waiting.Pairwise (·.deadline ≤ ·.deadline) := by
          rw [mirrors.sound.expire_eq (by simp [waiting])]
          exact rising.sublist List.filter_sublist
        have stillRisingToo :
            (fuller.expire twin).1.waiting.Pairwise (·.deadline ≤ ·.deadline) := by
          rw [mirrors.fullerSound.expire_eq (by simp [waitingToo])]
          exact risingToo.sublist List.filter_sublist
        obtain ⟨later, others⟩ := inductionHypothesis after stillRising stillRisingToo
        simp only [List.head?_cons, Option.any_none, Bool.false_eq_true, if_false]
        refine ⟨later, ?_⟩
        rw [answers, others, List.map_append]

/-- When all waiting calls give up, the same happens in both. -/
theorem advance (rising : plain.waiting.Pairwise (·.deadline ≤ ·.deadline))
    (risingToo : fuller.waiting.Pairwise (·.deadline ≤ ·.deadline)) :
    Mirrors rename (plain.advance none).1 (fuller.advance none).1 ∧
      (fuller.advance none).2 = (plain.advance none).2.map (Answer.retold rename) := by
  rw [Exchange.advance, Exchange.advance, mirrors.length_eq]
  exact mirrors.expireBefore rising risingToo plain.waiting.length

end Mirrors

end Exchange

end CollectiveBench
