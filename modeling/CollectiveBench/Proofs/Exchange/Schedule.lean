import CollectiveBench.Proofs.Exchange.Parting

/-!
# Steps are runs

A step of a world issues calls with pauses between them, lets deadlines take effect before each
call, and in the end waits until nobody waits any more. All of it is a run: the events are the
issued calls in their order, with deadlines between them, and the answers are those of the events
(`History.perform`). Deadlines rise in the order of arrival, so the first one due is that of the
call that has waited longest, and each one that takes effect makes the list of waiting calls
shorter. The fuel is therefore never used up.
-/

namespace CollectiveBench

/-- The call that an event issues, and by which endpoint. -/
def Event.issued? : Event → Option (Nat × Call)
  | .issue _ index call => some (index, call)
  | .expire _ _ => none

namespace Exchange

/-- The exchange after events that happen one after the other, and all answers to them. -/
def run [Arithmetic] : Exchange → List Event → Exchange × List Answer
  | exchange, [] => (exchange, [])
  | exchange, event :: rest =>
    ((run (exchange.apply event).1 rest).1,
      (exchange.apply event).2 ++ (run (exchange.apply event).1 rest).2)

variable {start exchange : Exchange} {events : List Event} {log : List (List Departure)}
  {clock : Nat}

/-- Events in two parts happen one part after the other. -/
theorem run_append [Arithmetic] (exchange : Exchange) (events others : List Event) :
    exchange.run (events ++ others) =
      (((exchange.run events).1.run others).1,
        (exchange.run events).2 ++ ((exchange.run events).1.run others).2) := by
  induction events generalizing exchange with
  | nil => rfl
  | cons event rest inductionHypothesis => simp [run, inductionHypothesis]

/-- In a run, each ticket is answered once or waits, and no other ticket is answered. -/
theorem Sound.run_tickets [Arithmetic] (sound : exchange.Sound) (events : List Event) :
    ((exchange.run events).2.map Answer.ticket ++
        (exchange.run events).1.waiting.map Waiting.ticket).Perm
      (List.range' exchange.nextTicket (events.filterMap Event.issued?).length ++
        exchange.waiting.map Waiting.ticket) := by
  induction events generalizing exchange with
  | nil => simp [run]
  | cons event rest inductionHypothesis =>
    have later := inductionHypothesis (sound.apply event)
    have now := sound.tickets_conserved event
    have drawn : List.range' exchange.nextTicket
        ((event :: rest).filterMap Event.issued?).length =
          exchange.drawnTicket event ++ List.range' (exchange.apply event).1.nextTicket
            (rest.filterMap Event.issued?).length := by
      rw [nextTicket_apply sound]
      cases event <;> simp [List.filterMap_cons, Event.issued?, drawnTicket, List.range'_succ]
    rw [drawn]
    simp only [run, List.map_append, List.append_assoc]
    calc (exchange.apply event).2.map Answer.ticket ++ (_ ++ _)
        |>.Perm ((exchange.apply event).2.map Answer.ticket ++
          (List.range' (exchange.apply event).1.nextTicket
            (rest.filterMap Event.issued?).length ++
              (exchange.apply event).1.waiting.map Waiting.ticket)) := later.append_left _
      _ |>.Perm (List.range' (exchange.apply event).1.nextTicket
            (rest.filterMap Event.issued?).length ++
          ((exchange.apply event).2.map Answer.ticket ++
            (exchange.apply event).1.waiting.map Waiting.ticket)) := by
          simp only [← List.append_assoc]
          exact List.perm_append_comm.append_right _
      _ |>.Perm (List.range' (exchange.apply event).1.nextTicket
            (rest.filterMap Event.issued?).length ++
          (exchange.drawnTicket event ++ exchange.waiting.map Waiting.ticket)) :=
          now.append_left _
      _ |>.Perm _ := by
          simp only [← List.append_assoc]
          exact List.perm_append_comm.append_right _

/-- An exchange stays sound throughout a run. -/
theorem Sound.run [Arithmetic] (sound : exchange.Sound) (events : List Event) :
    (exchange.run events).1.Sound := by
  induction events generalizing exchange with
  | nil => exact sound
  | cons event rest inductionHypothesis => exact inductionHypothesis (sound.apply event)

/-- Where deadlines rise, the first one due is that of the call that has waited longest. -/
theorem firstDue_eq_head? {waiting : List Waiting}
    (rising : waiting.Pairwise (·.deadline ≤ ·.deadline)) :
    firstDue waiting = waiting.head? := by
  cases waiting with
  | nil => rfl
  | cons first rest =>
    have later := (List.pairwise_cons.mp rising).1
    clear rising
    simp only [firstDue, List.foldl_cons, List.head?_cons]
    induction rest with
    | nil => rfl
    | cons entry others inductionHypothesis =>
      have notSooner : ¬ entry.deadline < first.deadline :=
        Nat.not_lt.mpr (later entry List.mem_cons_self)
      simp only [List.foldl_cons, notSooner, if_false]
      exact inductionHypothesis fun other member => later other (List.mem_cons_of_mem _ member)

/-- Letting a deadline pass is an event. -/
theorem Sound.expire_eq_apply [Arithmetic] (sound : exchange.Sound) {due : Waiting}
    (waits : due ∈ exchange.waiting) (now : Nat) :
    exchange.expire due = exchange.apply (.expire now due.ticket) := by
  have distinct : (exchange.waiting.map Waiting.ticket).Nodup :=
    List.pairwise_map.mpr (sound.ordered.imp Nat.ne_of_lt)
  simp [Exchange.apply, find?_of_nodup_map Waiting.ticket distinct waits]

/-- The deadline of the call that has waited longest may take effect first. -/
theorem Sound.permits_first (sound : exchange.Sound) (timed : exchange.Timed clock)
    {due : Waiting} {rest : List Waiting} (waiting : exchange.waiting = due :: rest) {now : Nat}
    (passed : due.deadline ≤ now) : exchange.Permits (.expire now due.ticket) := by
  have tickets := waiting ▸ sound.ordered
  have deadlines := waiting ▸ timed.rising
  refine ⟨due, by simp [waiting], rfl, passed, ?_⟩
  intro other present
  have waits := (mem_depositors.mp present).1
  rw [waiting] at waits
  rcases List.mem_cons.mp waits with rfl | later
  · exact .inr ⟨rfl, Nat.le_refl _⟩
  · have noLater := (List.pairwise_cons.mp deadlines).1 other later
    have sooner := (List.pairwise_cons.mp tickets).1 other later
    omega

/-- When a deadline takes effect, fewer calls wait. -/
theorem expire_shorter {due : Waiting} (waits : due ∈ exchange.waiting) :
    (exchange.expire due).1.waiting.length < exchange.waiting.length :=
  List.length_filter_lt_length_iff_exists.mpr ⟨due, waits, by simp⟩

/-! ## Runs by the clock alone -/

/-- Of waiting calls one is due first. -/
theorem exists_firstDue {waiting : List Waiting} (someone : waiting ≠ []) :
    ∃ due ∈ waiting, firstDue waiting = some due := by
  have among (rest : List Waiting) (best : Waiting) :
      ∃ due ∈ best :: rest, firstDue (best :: rest) = some due := by
    induction rest generalizing best with
    | nil => exact ⟨best, List.mem_cons_self, rfl⟩
    | cons entry others inductionHypothesis =>
      by_cases sooner : entry.deadline < best.deadline
      · obtain ⟨due, listed, found⟩ := inductionHypothesis entry
        refine ⟨due, List.mem_cons_of_mem _ listed, ?_⟩
        simpa [firstDue, sooner] using found
      · obtain ⟨due, listed, found⟩ := inductionHypothesis best
        refine ⟨due, ?_, by simpa [firstDue, sooner] using found⟩
        rcases List.mem_cons.mp listed with rfl | later
        · exact List.mem_cons_self
        · exact List.mem_cons_of_mem _ (List.mem_cons_of_mem _ later)
  cases waiting with
  | nil => exact absurd rfl someone
  | cons first rest => exact among rest first

/-- Letting deadlines pass is a run without calls. -/
theorem Sound.expireBefore_eq_run [Arithmetic] (sound : exchange.Sound) (limit : Option Nat)
    (fuel : Nat) :
    ∃ events, Exchange.expireBefore limit fuel exchange = exchange.run events ∧
      events.filterMap Event.issued? = [] := by
  induction fuel generalizing exchange with
  | zero => exact ⟨[], rfl, rfl⟩
  | succ fuel inductionHypothesis =>
    rw [Exchange.expireBefore]
    by_cases nobody : exchange.waiting = []
    · exact ⟨[], by rw [nobody]; rfl, rfl⟩
    · obtain ⟨due, waits, foremost⟩ := exists_firstDue nobody
      simp only [foremost]
      split
      · exact ⟨[], rfl, rfl⟩
      · have happens := sound.expire_eq_apply waits due.deadline
        obtain ⟨events, later, silent⟩ :=
          inductionHypothesis (happens ▸ sound.apply (.expire due.deadline due.ticket))
        refine ⟨.expire due.deadline due.ticket :: events, ?_, silent⟩
        rw [later, happens]
        rfl

/-- Without a limit nobody waits in the end, if there is fuel for each waiting call. -/
theorem Sound.expireBefore_waiting (sound : exchange.Sound) {fuel : Nat}
    (enough : exchange.waiting.length ≤ fuel) :
    (Exchange.expireBefore none fuel exchange).1.waiting = [] := by
  induction fuel generalizing exchange with
  | zero => exact List.eq_nil_of_length_eq_zero (Nat.le_zero.mp enough)
  | succ fuel inductionHypothesis =>
    rw [Exchange.expireBefore]
    by_cases nobody : exchange.waiting = []
    · simp [nobody, firstDue]
    · obtain ⟨due, waits, foremost⟩ := exists_firstDue nobody
      have happens := sound.expire_eq_apply waits due.deadline
      have shorter := expire_shorter waits
      simp only [foremost, Option.any_none, Bool.false_eq_true, if_false]
      apply inductionHypothesis
      · exact happens ▸ sound.apply (.expire due.deadline due.ticket)
      · omega

/-- Issuing calls with pauses between them is a run that issues them in their order. -/
theorem Sound.issueAll_eq_run [Arithmetic] (sound : exchange.Sound) (pause now : Nat)
    (calls : List (Nat × Call)) :
    ∃ events, Exchange.issueAll pause now exchange calls = exchange.run events ∧
      events.filterMap Event.issued? = calls := by
  induction calls generalizing exchange now with
  | nil => exact ⟨[], rfl, rfl⟩
  | cons made rest inductionHypothesis =>
    obtain ⟨index, call⟩ := made
    obtain ⟨passing, passed, silent⟩ :=
      sound.expireBefore_eq_run (some now) exchange.waiting.length
    have middle := (sound.run passing).apply (.issue now index call)
    obtain ⟨events, later, issued⟩ := inductionHypothesis middle (now + pause)
    refine ⟨passing ++ .issue now index call :: events, ?_, ?_⟩
    · rw [Exchange.issueAll, advance, passed, run_append]
      simp only [Exchange.run, Exchange.apply] at later ⊢
      rw [later, List.append_assoc]
    · simp [List.filterMap_append, silent, Event.issued?, issued]

/-! ## Runs by the clock and the rules of time -/

/-- Further events lead a run to this exchange with these answers, and of them these calls were
issued, in this order. -/
structure Continues [Arithmetic] (start : Exchange) (events : List Event) (exchange : Exchange)
    (calls : List (Nat × Call)) (outcome : Exchange × List Answer) (more : List Event)
    (log : List (List Departure)) (clock : Nat) : Prop where
  history : History start (events ++ more) log clock outcome.1
  run : exchange.run more = outcome
  issued : more.filterMap Event.issued? = calls

/-- A run that is continued twice is continued. -/
theorem Continues.trans [Arithmetic] {early late : Exchange × List Answer}
    {calls others : List (Nat × Call)}
    {more further : List Event} {laterLog : List (List Departure)} {later : Nat}
    (first : Continues start events exchange calls early more log clock)
    (second : Continues start (events ++ more) early.1 others late further laterLog later) :
    Continues start events exchange (calls ++ others) (late.1, early.2 ++ late.2)
      (more ++ further) laterLog later where
  history := by
    rw [← List.append_assoc]
    exact second.history
  run := by rw [run_append, first.run, second.run]
  issued := by rw [List.filterMap_append, first.issued, second.issued]

/-- A run is continued by nothing at all. -/
theorem History.idle [Arithmetic] (history : History start events log clock exchange) :
    Continues start events exchange [] (exchange, []) [] log clock where
  history := by simpa using history
  run := rfl
  issued := rfl

/-- A deadline that takes effect continues a run. It does so at its time, or at once if that lies
in the past. -/
theorem History.expire [Arithmetic] (rest : start.AtRest)
    (history : History start events log clock exchange)
    {due : Waiting} {others : List Waiting} (waiting : exchange.waiting = due :: others) :
    Continues start events exchange [] (exchange.expire due)
      [.expire (max clock due.deadline) due.ticket]
      (log ++ [exchange.departures (.expire (max clock due.deadline) due.ticket)])
      (max clock due.deadline) := by
  have sound := (history.ledger rest).sound
  have waits : due ∈ exchange.waiting := by simp [waiting]
  have happens := sound.expire_eq_apply waits (max clock due.deadline)
  refine ⟨?_, ?_, rfl⟩
  · rw [happens]
    exact .step history _ (.inl (Nat.le_max_left _ _))
      (sound.permits_first (history.timed rest) waiting (Nat.le_max_right _ _))
  · simp [Exchange.run, happens]

/-- Letting deadlines pass looks at the call that has waited longest. -/
theorem expireBefore_succ (rising : exchange.waiting.Pairwise (·.deadline ≤ ·.deadline))
    (limit : Option Nat) (fuel : Nat) :
    Exchange.expireBefore limit (fuel + 1) exchange =
      match exchange.waiting.head? with
      | none => (exchange, [])
      | some due =>
        if limit.any (· ≤ due.deadline) then (exchange, [])
        else
          ((Exchange.expireBefore limit fuel (exchange.expire due).1).1,
            (exchange.expire due).2 ++
              (Exchange.expireBefore limit fuel (exchange.expire due).1).2) := by
  rw [← firstDue_eq_head? rising]
  rfl

/-- Letting deadlines pass continues a run, and no later than to the limit. -/
theorem History.expireBefore [Arithmetic] (rest : start.AtRest) (limit : Option Nat) (fuel : Nat)
    (history : History start events log clock exchange)
    (onward : ∀ now ∈ limit, clock ≤ now ∨ exchange.waiting = []) :
    ∃ more laterLog later, Continues start events exchange []
        (Exchange.expireBefore limit fuel exchange) more laterLog later ∧
      ∀ now ∈ limit, later ≤ now ∨ (Exchange.expireBefore limit fuel exchange).1.waiting = [] := by
  -- The run grows with each deadline, so the induction is over all runs.
  induction fuel generalizing events log clock exchange with
  | zero => exact ⟨_, _, _, history.idle, onward⟩
  | succ fuel inductionHypothesis =>
    rw [expireBefore_succ (history.timed rest).rising]
    cases waiting : exchange.waiting with
    | nil => exact ⟨_, _, _, history.idle, onward⟩
    | cons due others =>
      simp only [List.head?_cons]
      split
      next held => exact ⟨_, _, _, history.idle, onward⟩
      next free =>
        have continued := history.expire rest waiting
        have stillOnward : ∀ now ∈ limit, max clock due.deadline ≤ now ∨
            (exchange.expire due).1.waiting = [] := by
          intro now limited
          have before := onward now limited
          simp only [waiting, List.cons_ne_nil, or_false] at before
          have passed : due.deadline < now := by simpa [Option.mem_def.mp limited] using free
          omega
        obtain ⟨more, laterLog, later, further, bounded⟩ :=
          inductionHypothesis continued.history stillOnward
        exact ⟨_, _, _, continued.trans further, bounded⟩

/-- Issuing a call continues a run. -/
theorem History.issue [Arithmetic] (history : History start events log clock exchange) {now : Nat}
    (onward : clock ≤ now ∨ exchange.waiting = []) (index : Nat) (call : Call) :
    Continues start events exchange [(index, call)] (exchange.issue now index call)
      [.issue now index call] (log ++ [exchange.departures (.issue now index call)]) now where
  history := .step history (.issue now index call) onward trivial
  run := by simp [Exchange.run, apply]
  issued := rfl

/-- Issuing calls with pauses between them continues a run. -/
theorem History.issueAll [Arithmetic] (rest : start.AtRest) (pause now : Nat)
    (calls : List (Nat × Call))
    (history : History start events log clock exchange)
    (onward : clock ≤ now ∨ exchange.waiting = []) :
    ∃ more laterLog later, Continues start events exchange calls
      (Exchange.issueAll pause now exchange calls) more laterLog later := by
  induction calls generalizing events log clock exchange now with
  | nil => exact ⟨_, _, _, history.idle⟩
  | cons made others inductionHypothesis =>
    obtain ⟨index, call⟩ := made
    obtain ⟨_, _, _, passed, bounded⟩ :=
      history.expireBefore rest (some now) exchange.waiting.length
        (fun limit limited => Option.some.inj limited ▸ onward)
    have issued := passed.trans (passed.history.issue (bounded now rfl) index call)
    obtain ⟨_, _, _, further⟩ := inductionHypothesis (now + pause) issued.history
      (.inl (Nat.le_add_right now pause))
    exact ⟨_, _, _, issued.trans further⟩

/-- Where the tickets from `first` on have one answer each, looking them up gives the outcomes of
those answers. -/
theorem outcomes_iff {answers : List Answer} {first count : Nat}
    (tickets : (answers.map Answer.ticket).Perm (List.range' first count))
    (offset : Nat) (given : Outcome Call) :
    ((List.range count).map fun offset =>
      match answers.find? (·.ticket = first + offset) with
      | some answer => answer.outcome
      | none => .error (.defect .crashed))[offset]? = some given ↔
    ⟨first + offset, given⟩ ∈ answers := by
  have distinct := tickets.nodup_iff.mpr (List.nodup_range' 1)
  by_cases inside : offset < count
  · obtain ⟨answer, present, ticket⟩ : ∃ answer ∈ answers, answer.ticket = first + offset :=
      List.mem_map.mp (tickets.mem_iff.mpr (List.mem_range'.mpr ⟨offset, inside, by simp⟩))
    have found := find?_of_nodup_map Answer.ticket distinct present
    rw [ticket] at found
    simp only [List.getElem?_map, List.getElem?_range inside, Option.map_some, found,
      Option.some.injEq]
    constructor
    · rintro rfl
      exact ticket ▸ present
    · intro listed
      have itself := find?_of_nodup_map Answer.ticket distinct listed
      rw [Option.some.inj (found.symm.trans itself)]
  · have absent : ⟨first + offset, given⟩ ∉ answers := by
      intro listed
      have ticket : first + offset ∈ List.range' first count :=
        tickets.mem_iff.mp (List.mem_map_of_mem (f := Answer.ticket) listed)
      have bound := List.mem_range'_1.mp ticket
      omega
    simp [inside, absent]

/-- Events make up a step: they issue its calls in their order, nobody waits after them, each call
has one answer, which has its ticket, and these are the outcomes. -/
structure Enacts [Arithmetic] (exchange : Exchange) (calls : List (Nat × Call))
    (outcome : Exchange × List (Outcome Call)) (events : List Event) : Prop where
  run : (exchange.run events).1 = outcome.1
  issued : events.filterMap Event.issued? = calls
  idle : outcome.1.Idle
  tickets : ((exchange.run events).2.map Answer.ticket).Perm
    (List.range' exchange.nextTicket calls.length)
  length : outcome.2.length = calls.length
  outcomes : ∀ (offset : Nat) (given : Outcome Call), outcome.2[offset]? = some given ↔
    ⟨exchange.nextTicket + offset, given⟩ ∈ (exchange.run events).2

/-- Where issuing the calls of a step is a run and letting all deadlines pass another one, both
together make up the step. -/
theorem Idle.enacts [Arithmetic] (idle : exchange.Idle) {pause : Nat} {calls : List (Nat × Call)}
    {early late : List Event}
    (issuing : Exchange.issueAll pause 0 exchange calls = exchange.run early)
    (issued : early.filterMap Event.issued? = calls)
    (passing : (exchange.run early).1.advance none = (exchange.run early).1.run late)
    (silent : late.filterMap Event.issued? = []) :
    Enacts exchange calls (exchange.perform pause calls) (early ++ late) := by
  have whole : exchange.run (early ++ late) =
      (((Exchange.issueAll pause 0 exchange calls).1.advance none).1,
        (Exchange.issueAll pause 0 exchange calls).2 ++
          ((Exchange.issueAll pause 0 exchange calls).1.advance none).2) := by
    rw [run_append, issuing, passing]
  have made : (early ++ late).filterMap Event.issued? = calls := by
    rw [List.filterMap_append, issued, silent, List.append_nil]
  have sound := idle.sound.run early
  have nobody : (exchange.run (early ++ late)).1.waiting = [] := by
    rw [whole, issuing]
    exact sound.expireBefore_waiting (Nat.le_refl _)
  have tickets := idle.sound.run_tickets (early ++ late)
  rw [made] at tickets
  simp only [nobody, idle.waiting, List.map_nil, List.append_nil] at tickets
  have after : (exchange.run (early ++ late)).1 = (exchange.perform pause calls).1 := by
    rw [whole]
    rfl
  refine ⟨after, made, after ▸ (idle.sound.run _).idle nobody, tickets, ?_, ?_⟩
  · simp [Exchange.perform]
  · intro offset given
    rw [whole] at tickets ⊢
    exact outcomes_iff tickets offset given

/-- Every step of an idle exchange is a run, whoever its endpoints stand for. -/
theorem Idle.perform [Arithmetic] (idle : exchange.Idle) (pause : Nat) (calls : List (Nat × Call)) :
    ∃ events, Enacts exchange calls (exchange.perform pause calls) events := by
  obtain ⟨early, issuing, issued⟩ := idle.sound.issueAll_eq_run pause 0 calls
  obtain ⟨late, passing, silent⟩ :=
    (idle.sound.run early).expireBefore_eq_run none (exchange.run early).1.waiting.length
  exact ⟨early ++ late, idle.enacts issuing issued passing silent⟩

/-- Steps that follow on each other, each with its pause and its calls, and the outcomes of each. -/
def performAll [Arithmetic] : Exchange → List (Nat × List (Nat × Call)) →
    Exchange × List (List (Outcome Call))
  | exchange, [] => (exchange, [])
  | exchange, (pause, calls) :: rest =>
    ((performAll (exchange.perform pause calls).1 rest).1,
      (exchange.perform pause calls).2 :: (performAll (exchange.perform pause calls).1 rest).2)

/-- A step is a run: its calls are issued in their order, the exchange is at rest after it, each
call has one answer, which has its ticket, and these are the outcomes. -/
structure Performs [Arithmetic] (exchange : Exchange) (calls : List (Nat × Call))
    (outcome : Exchange × List (Outcome Call)) (events : List Event)
    (log : List (List Departure)) (clock : Nat) : Prop where
  history : History exchange events log clock outcome.1
  run : (exchange.run events).1 = outcome.1
  issued : events.filterMap Event.issued? = calls
  rest : outcome.1.AtRest
  tickets : ((exchange.run events).2.map Answer.ticket).Perm
    (List.range' exchange.nextTicket calls.length)
  length : outcome.2.length = calls.length
  outcomes : ∀ (offset : Nat) (given : Outcome Call), outcome.2[offset]? = some given ↔
    ⟨exchange.nextTicket + offset, given⟩ ∈ (exchange.run events).2

/-- Where nobody waits in a run, the exchange is at rest. -/
theorem History.atRest [Arithmetic] (rest : start.AtRest)
    (history : History start events log clock exchange)
    (nobody : exchange.waiting = []) : exchange.AtRest where
  staffed := (history.ledger rest).staffed
  rounds := ((history.ledger rest).sound.idle nobody).rounds
  waiting := nobody

/-- After the calls of a step are issued, letting all deadlines pass completes the step. -/
theorem AtRest.performs [Arithmetic] (rest : exchange.AtRest) {pause : Nat}
    {calls : List (Nat × Call)}
    {early : List Event} (issued : Continues exchange [] exchange calls
      (Exchange.issueAll pause 0 exchange calls) early log clock) :
    ∃ late laterLog later, Performs exchange calls (exchange.perform pause calls) (early ++ late)
      laterLog later := by
  obtain ⟨late, laterLog, later, passed, _⟩ := issued.history.expireBefore rest none
    (Exchange.issueAll pause 0 exchange calls).1.waiting.length (by simp)
  have enacts : Enacts exchange calls (exchange.perform pause calls) (early ++ late) :=
    rest.idle.enacts issued.run.symm issued.issued
      (by rw [issued.run, passed.run]; rfl) passed.issued
  have history := (issued.trans passed).history
  exact ⟨late, laterLog, later, history, enacts.run, enacts.issued,
    history.atRest rest enacts.idle.waiting, enacts.tickets, enacts.length, enacts.outcomes⟩

/-- Every step of an exchange at rest is a run. -/
theorem AtRest.perform [Arithmetic] (rest : exchange.AtRest) (pause : Nat)
    (calls : List (Nat × Call)) :
    ∃ events log clock,
      Performs exchange calls (exchange.perform pause calls) events log clock := by
  obtain ⟨early, _, _, issued⟩ :=
    History.issueAll rest pause 0 calls .start (.inl (Nat.le_refl 0))
  obtain ⟨late, log, clock, performs⟩ := rest.performs issued
  exact ⟨early ++ late, log, clock, performs⟩

end Exchange

end CollectiveBench
