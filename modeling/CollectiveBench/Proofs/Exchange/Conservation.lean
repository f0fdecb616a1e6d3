import CollectiveBench.Proofs.Exchange.Step

/-!
# Nobody is lost and nobody is answered twice

Whoever arrived or waited before an event departs with it or waits after it, exactly once
(`Sound.conserved`). The same holds of tickets and answers, calls that take no seat included
(`Sound.tickets_conserved`). A round that completes hands one list to all members, and the list
has each member's contribution at its place (`Sound.completion`).
-/

namespace CollectiveBench

namespace Exchange

variable {exchange : Exchange}

/-- Moving one of several calls with different tickets to the front leaves the others. -/
theorem perm_cons_filter {entries : List Waiting} {entry : Waiting}
    (distinct : (entries.map Waiting.ticket).Nodup) (present : entry ∈ entries) :
    (entry :: entries.filter (·.ticket ≠ entry.ticket)).Perm entries := by
  induction entries with
  | nil => simp at present
  | cons first rest inductionHypothesis =>
    rw [List.map_cons, List.nodup_cons] at distinct
    by_cases same : first.ticket = entry.ticket
    · have here : first = entry := by
        rcases List.mem_cons.mp present with rfl | later
        · rfl
        · exact absurd (same ▸ List.mem_map_of_mem later) distinct.1
      subst here
      have others : rest.filter (·.ticket ≠ first.ticket) = rest := by
        apply List.filter_eq_self.mpr
        intro other member
        have different : other.ticket ≠ first.ticket := by
          intro equal
          exact distinct.1 (equal ▸ List.mem_map_of_mem member)
        simpa using different
      simp only [List.filter_cons, ne_eq, not_true_eq_false, decide_false, Bool.false_eq_true,
        if_false]
      rw [others]
    · have later : entry ∈ rest := by
        rcases List.mem_cons.mp present with rfl | later
        · exact absurd rfl same
        · exact later
      simp only [List.filter_cons, ne_eq, same, not_false_eq_true, decide_true, if_true]
      exact (List.Perm.swap first entry _).trans ((inductionHypothesis distinct.2 later).cons first)

namespace Sound

variable (sound : exchange.Sound)
include sound

/-- The tickets of a round are different. -/
theorem tickets_nodup (key : RoundKey) :
    ((exchange.depositors key).map Waiting.ticket).Nodup := by
  have rising : (exchange.depositors key).Pairwise (·.ticket < ·.ticket) :=
    sound.ordered.sublist List.filter_sublist
  exact List.pairwise_map.mpr (rising.imp Nat.ne_of_lt)

/-- Whoever arrives or waits when an event happens departs with it or waits after it. -/
theorem conserved [Arithmetic] (event : Event) :
    ((exchange.departures event).map Departure.entry ++ (exchange.apply event).1.waiting).Perm
      ((exchange.arrival? event).toList ++ exchange.waiting) := by
  have split (key : RoundKey) : (exchange.depositors key ++
      exchange.waiting.filter (·.key ≠ key)).Perm exchange.waiting := by
    simpa [depositors] using List.filter_append_perm (fun entry => decide (entry.key = key))
      exchange.waiting
  have step := sound.step event
  generalize (exchange.apply event).1 = after at step ⊢
  generalize exchange.departures event = departing at step ⊢
  cases step with
  | answered stays => simp [stays]
  | refused arrives taken => simp [arrives]
  | @completed _ _ _ entry arrives vacant full =>
    have moved := (split entry.key).cons entry
    simp only [List.map_map, Function.comp_def, List.map_id', arrives, Option.toList_some,
      close_waiting, draw_waiting, List.append_assoc]
    exact List.perm_middle.trans moved
  | @hurried _ _ _ entry arrives vacant short impatient =>
    have gone : (exchange.waiting ++ [entry]).filter (·.key ≠ entry.key) =
        exchange.waiting.filter (·.key ≠ entry.key) := by simp [List.filter_append]
    simp only [List.map_cons, List.map_map, Function.comp_def, List.map_id', arrives,
      Option.toList_some, close_waiting, join_waiting, draw_waiting, gone]
    exact (split entry.key).cons entry
  | @waits _ _ _ entry arrives vacant short patient =>
    simp [arrives]
  | @expired _ _ due found =>
    have waits := List.mem_of_find?_eq_some found
    have moved := perm_cons_filter (sound.tickets_nodup due.key)
      (mem_depositors.mpr ⟨waits, rfl⟩)
    simp only [List.map_cons, List.map_map, Function.comp_def, List.map_id', close_waiting]
    exact (moved.append_right _).trans (split due.key)
  | idle missing => simp [arrival?]

end Sound

/-- The ticket that an event draws. -/
def drawnTicket (exchange : Exchange) : Event → List Nat
  | .issue _ _ _ => [exchange.nextTicket]
  | .expire _ _ => []

/-- A departure is answered on the ticket of its call. -/
@[simp] theorem ticket_answer [Arithmetic] (timeoutMs : Nat) (departure : Departure) :
    (departure.answer timeoutMs).ticket = departure.entry.ticket := rfl

/-- Each ticket that was drawn before or with an event is answered with it or waits after it. -/
theorem Sound.tickets_conserved [Arithmetic] (sound : exchange.Sound) (event : Event) :
    ((exchange.apply event).2.map Answer.ticket ++
        (exchange.apply event).1.waiting.map Waiting.ticket).Perm
      (exchange.drawnTicket event ++ exchange.waiting.map Waiting.ticket) := by
  have conserved := (sound.conserved event).map Waiting.ticket
  simp only [List.map_append, List.map_map] at conserved
  rw [sound.answers_apply]
  cases event with
  | expire now ticket => simpa [answersTo, drawnTicket, arrival?, Function.comp_def] using conserved
  | issue now index call =>
    cases arrives : exchange.arrival? (.issue now index call) with
    | none =>
      simp [answersTo, arrives, drawnTicket, Exchange.apply, issue_eq_immediate arrives]
    | some entry =>
      obtain ⟨_, _, _, _, same⟩ := arrival?_issue arrives
      have newest : entry.ticket = exchange.nextTicket := by rw [same]
      simpa [answersTo, arrives, drawnTicket, newest, Function.comp_def] using conserved

/-- A round of a group that completed with an event. -/
structure Completion (exchange : Exchange) (event : Event) (key : RoundKey)
    (everyone : List Waiting) (all : List Contribution) : Prop where
  departures : exchange.departures event = everyone.map (⟨·, .handed all⟩)
  keys : ∀ entry ∈ everyone, entry.key = key
  /-- There is one call for each place of the group. -/
  places : (everyone.map Waiting.position).Perm (List.range (exchange.roundSize key))
  length : all.length = exchange.roundSize key
  /-- Each contribution stands at the place of its call. -/
  placed : ∀ entry ∈ everyone, all[entry.position]? = some entry.call.contribution

namespace Sound

variable (sound : exchange.Sound)
include sound

/-- A call that is handed a list was in a round that completed, and everyone in the round was
handed the same list. -/
theorem completion {event : Event} {departure : Departure} {all : List Contribution}
    (departs : departure ∈ exchange.departures event) (handed : departure.fate = .handed all) :
    ∃ everyone, exchange.Completion event departure.entry.key everyone all ∧
      departure.entry ∈ everyone := by
  have step := sound.step event
  generalize departing : exchange.departures event = leaving at step departs
  generalize (exchange.apply event).1 = after at step
  cases step with
  | answered stays => simp at departs
  | refused arrives taken =>
    obtain rfl := List.mem_singleton.mp departs
    cases handed
  | @completed now index call entry arrives vacant full =>
    obtain ⟨member, present, rfl⟩ := List.mem_map.mp departs
    obtain rfl := Fate.handed.inj handed
    have keys : ∀ other ∈ exchange.depositors entry.key ++ [entry], other.key = entry.key := by
      intro other there
      rcases List.mem_append.mp there with earlier | new
      · exact (mem_depositors.mp earlier).2
      · rw [List.mem_singleton.mp new]
    have apart : ((exchange.depositors entry.key ++ [entry]).map Waiting.position).Nodup := by
      rw [List.map_append, List.map_cons, List.map_nil]
      refine (List.nodup_append.mpr ⟨sound.positions_nodup entry.key, List.nodup_singleton _, ?_⟩)
      intro position earlier other new
      obtain ⟨holder, there, rfl⟩ := List.mem_map.mp earlier
      rw [List.mem_singleton.mp new]
      exact vacant holder there
    have inside : ∀ other ∈ exchange.depositors entry.key ++ [entry],
        other.position < exchange.roundSize entry.key := by
      intro other there
      rcases List.mem_append.mp there with earlier | new
      · exact sound.position_lt earlier
      · rw [List.mem_singleton.mp new]
        exact World.positionIn_lt (arrival_seated arrives).2
    obtain ⟨length, placed⟩ := Round.contributions_ofWaiting apart inside full
    rw [keys member present]
    exact ⟨_, ⟨departing, keys, Round.positions_perm apart inside full, length, placed⟩, present⟩
  | hurried arrives vacant short impatient =>
    rcases List.mem_cons.mp departs with rfl | abandoned
    · cases handed
    · obtain ⟨_, _, rfl⟩ := List.mem_map.mp abandoned
      cases handed
  | waits arrives vacant short patient => simp at departs
  | expired found =>
    rcases List.mem_cons.mp departs with rfl | abandoned
    · cases handed
    · obtain ⟨_, _, rfl⟩ := List.mem_map.mp abandoned
      cases handed
  | idle missing => simp at departs

end Sound

end Exchange

end CollectiveBench
