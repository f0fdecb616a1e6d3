import CollectiveBench.Proofs.Exchange.Collective

/-!
# Copies of a call

A rank may issue its call several times before it waits. Where every member of a group issues as
many copies as the others, the first copies meet in one round, the second ones in the next, and all
rounds have the same contributions, so that each copy is answered as a single call would be
(`Ready.perform_copies`). Members whose calls are refused are answered at once and leave nobody
waiting, as long as all members are refused alike.
-/

namespace CollectiveBench

/-- What a member's call is answered with if all members of its group issue theirs. -/
def World.answer [Arithmetic] (world : World) (group : Nat) (made : Nat → Call) (rank : Nat) :
    Outcome Call :=
  match world.seatFor rank (made rank) with
  | .error error => .error error
  | .ok none => .ok (made rank)
  | .ok (some _) => conclude (made rank) rank ((world.members group).idxOf rank)
      ((world.members group).map fun other => (made other).contribution)

/-- An accepted call is answered with what the contributions of all members bring to it. -/
theorem World.answer_of_accepts [Arithmetic] {world : World} {group rank : Nat} {made : Nat → Call}
    (accepted : world.accepts rank (made rank)) :
    world.answer group made rank = conclude (made rank) rank ((world.members group).idxOf rank)
      ((world.members group).map fun other => (made other).contribution) := by
  obtain ⟨seat, seated, _⟩ := seat_of_accepts accepted
  rw [answer, seated]

/-- A call whose operation waits for nobody takes no seat and comes back as it was issued. -/
theorem World.answer_free [Arithmetic] {world : World} {rank : Nat} {made : Nat → Call}
    (free : (made rank).operation = .noop ∨ (made rank).operation = .wait) (group : Nat) :
    world.answer group made rank = .ok (made rank) ∧ ¬ world.accepts rank (made rank) := by
  have seatless : world.seatFor rank (made rank) = .ok none := if_pos free
  simp [answer, accepts, seatless]

/-- A member's call whose peers do not exist takes no seat and is refused. -/
theorem World.answer_refused [Arithmetic] {world : World} {rank : Nat} {made : Nat → Call}
    (waits : ¬ ((made rank).operation = .noop ∨ (made rank).operation = .wait))
    (member : rank ∈ world.members (made rank).group) {error : Error}
    (refused : (made rank).checkPeers rank (world.members (made rank).group).length =
      .error error) (group : Nat) :
    world.answer group made rank = .error error ∧ ¬ world.accepts rank (made rank) := by
  have seatless := (seatFor_eq_error_iff waits member).mpr refused
  simp [answer, accepts, seatless]

/-- All members take a seat, or none does. -/
def World.Alike (world : World) (group : Nat) (made : Nat → Call) : Prop :=
  (∀ rank ∈ world.members group, world.accepts rank (made rank)) ∨
    ∀ rank ∈ world.members group, ¬ world.accepts rank (made rank)

/-- Every member of a group issues its call so many times, in any order, and nobody else issues
one. -/
structure World.Copied (world : World) (group copies : Nat) (made : Nat → Call)
    (calls : List (Nat × Call)) : Prop where
  here : ∀ issued ∈ calls, issued.2.group = group
  members : ∀ issued ∈ calls, issued.1 ∈ world.members group
  own : ∀ rank ∈ world.members group, callsOf rank group calls = List.replicate copies (made rank)

namespace World.Copied

variable {world : World} {group copies : Nat} {made : Nat → Call} {calls : List (Nat × Call)}

/-- A member's accepted calls are its copies, if its call is accepted at all. -/
theorem acceptedOf_eq (copied : world.Copied group copies made calls) {rank : Nat}
    (member : rank ∈ world.members group) :
    world.acceptedOf rank group calls =
      if world.accepts rank (made rank) then List.replicate copies (made rank) else [] := by
  rw [acceptedOf, copied.own rank member, List.filter_replicate]

/-- The members make equally many accepted calls, if they are accepted alike. -/
theorem balanced (copied : world.Copied group copies made calls)
    (alike : world.Alike group made) : world.Balanced group calls := by
  intro rank member other otherMember
  rw [copied.acceptedOf_eq member, copied.acceptedOf_eq otherMember]
  rcases alike with accepted | refused
  · rw [if_pos (accepted rank member), if_pos (accepted other otherMember), List.length_replicate,
      List.length_replicate]
  · rw [if_neg (refused rank member), if_neg (refused other otherMember)]

/-- Each copy is answered as if it were the only one: in its round the other members have copies of
their calls as well. -/
theorem outcome_eq [Arithmetic] (copied : world.Copied group copies made calls)
    (alike : world.Alike group made) {rank place : Nat} (member : rank ∈ world.members group)
    (inside : place < copies) :
    world.outcome calls rank ((List.replicate copies (made rank)).take place) (made rank) =
      world.answer group made rank := by
  have here : (made rank).group = group := by
    have listed : made rank ∈ callsOf rank group calls := by
      rw [copied.own rank member]
      exact List.mem_replicate.mpr ⟨Nat.ne_zero_of_lt inside, rfl⟩
    obtain ⟨issued, found, same⟩ := List.mem_map.mp listed
    rw [← same]
    exact copied.here issued (List.mem_of_mem_filter found)
  cases seated : world.seatFor rank (made rank) with
  | error error => simp only [outcome, answer, seated]
  | ok taken =>
    cases taken with
    | none => simp only [outcome, answer, seated]
    | some seat =>
      have accepted : world.accepts rank (made rank) := by simp [accepts, seated]
      have everyone : ∀ other ∈ world.members group, world.accepts other (made other) :=
        alike.resolve_right fun refused => refused rank member accepted
      obtain ⟨_, sameSeat, position⟩ := seat_of_accepts accepted
      rw [seated, Except.ok.injEq, Option.some.injEq] at sameSeat
      subst sameSeat
      have number : (((List.replicate copies (made rank)).take place).filter
          (world.accepts rank ·)).length = place := by
        rw [List.take_replicate, List.filter_replicate, if_pos accepted, List.length_replicate]
        exact Nat.min_eq_left (Nat.le_of_lt inside)
      have contributions : ((world.members group).filterMap fun other =>
          (world.acceptedOf other group calls)[place]?.map Call.contribution) =
          (world.members group).map fun other => (made other).contribution := by
        rw [← List.filterMap_eq_map]
        refine List.filterMap_congr fun other listed => ?_
        rw [copied.acceptedOf_eq listed, if_pos (everyone other listed),
          List.getElem?_replicate_of_lt inside]
        rfl
      simp only [outcome, answer, seated, number, here, contributions, position]

end World.Copied

/-- Copies of the calls of all ranks, in a given order of the ranks. -/
def copiesOf (made : Nat → Call) (copies : Nat) (order : List Nat) : List (Nat × Call) :=
  order.flatMap fun rank => List.replicate copies (rank, made rank)

/-- The calls of a rank in two steps are those in the one and those in the other. -/
theorem callsOf_append (rank group : Nat) (calls others : List (Nat × Call)) :
    callsOf rank group (calls ++ others) =
      callsOf rank group calls ++ callsOf rank group others := by
  simp [callsOf]

/-- Where each rank makes copies of one call, a rank's calls on the group are these copies. -/
theorem callsOf_copiesOf {group copies : Nat} {made : Nat → Call}
    {order : List Nat} (here : ∀ rank ∈ order, (made rank).group = group) (distinct : order.Nodup)
    (rank : Nat) :
    callsOf rank group (copiesOf made copies order) =
      if rank ∈ order then List.replicate copies (made rank) else [] := by
  induction order with
  | nil => rfl
  | cons first rest inductionHypothesis =>
    obtain ⟨fresh, restDistinct⟩ := List.nodup_cons.mp distinct
    rw [List.forall_mem_cons] at here
    rw [copiesOf, List.flatMap_cons, callsOf_append, ← copiesOf,
      inductionHypothesis here.2 restDistinct]
    by_cases own : first = rank
    · subst own
      simp [callsOf, here.1, fresh]
    · have other : rank ≠ first := Ne.symm own
      simp [callsOf, own, other]

/-- Copies of the calls of all members, in any order of the members. -/
theorem World.copied_copiesOf {world : World} {group : Nat} {made : Nat → Call}
    (here : ∀ rank ∈ world.members group, (made rank).group = group)
    (distinct : (world.members group).Nodup) {order : List Nat}
    (everyone : order.Perm (world.members group)) (copies : Nat) :
    world.Copied group copies made (copiesOf made copies order) where
  here := by
    intro issued listed
    obtain ⟨rank, member, copy⟩ := List.mem_flatMap.mp listed
    rw [List.eq_of_mem_replicate copy]
    exact here rank (everyone.mem_iff.mp member)
  members := by
    intro issued listed
    obtain ⟨rank, member, copy⟩ := List.mem_flatMap.mp listed
    rw [List.eq_of_mem_replicate copy]
    exact everyone.mem_iff.mp member
  own := by
    intro rank member
    rw [callsOf_copiesOf (fun other listed => here other (everyone.mem_iff.mp listed))
      (everyone.nodup_iff.mpr distinct), if_pos (everyone.mem_iff.mpr member)]

/-- The answers that a rank takes are those to its calls on the group, if all calls are on it. -/
theorem taken_eq_answersOf {group : Nat} {calls : List (Nat × Call)}
    (here : ∀ issued ∈ calls, issued.2.group = group) (outcomes : List (Outcome Call))
    (rank : Nat) :
    (((calls.map (·.1)).zip outcomes).filter (·.1 = rank)).map (·.2) =
      answersOf rank group calls outcomes := by
  rw [List.zip_map_left, List.filter_map, List.map_map, answersOf]
  congr 1
  refine List.filter_congr fun pair listed => ?_
  have placed := here pair.1 (List.of_mem_zip listed).1
  simp [placed]

namespace Exchange

variable {exchange : Exchange} {group copies : Nat} {made : Nat → Call} {calls : List (Nat × Call)}

/-- Where the members of a group issue equally many copies of their calls, every copy is answered
as if it were the only one, and the group is ready again. -/
theorem Ready.perform_copies [Arithmetic] (ready : exchange.Ready group)
    (copied : exchange.world.Copied group copies made calls)
    (alike : exchange.world.Alike group made) (patient : 0 < exchange.world.timeoutMs) :
    (∀ rank ∈ exchange.world.members group,
      (((calls.map (·.1)).zip (exchange.perform 0 calls).2).filter (·.1 = rank)).map (·.2) =
        List.replicate copies (exchange.world.answer group made rank)) ∧
      (exchange.perform 0 calls).1.Ready group ∧
      (exchange.perform 0 calls).1.world = exchange.world := by
  have posts : ∀ issued ∈ calls, issued.1 < exchange.endpoints.length :=
    fun issued listed => ready.posts _ (copied.members issued listed)
  have prompt : ∀ place < calls.length, 0 * place < exchange.world.timeoutMs := by
    intro place _
    rwa [Nat.zero_mul]
  have balanced := copied.balanced alike
  obtain ⟨_, _, _, performs⟩ := ready.rest.perform 0 calls
  have ledger := performs.history.ledger ready.rest
  refine ⟨fun rank member => ?_, ⟨performs.rest, ledger.world ▸ ready.distinct, ?_, ?_⟩,
    ledger.world⟩
  · rw [taken_eq_answersOf copied.here,
      answersOf_eq (exchange.world.outcome calls rank) performs.length
        fun place call issued placed => ready.rest.outcome_eq posts prompt ready.distinct
          ready.inStep balanced issued placed,
      copied.own rank member]
    apply List.ext_getElem (by simp)
    intro place bound _
    have inside : place < copies := by simpa using bound
    simpa using copied.outcome_eq alike member inside
  · rw [ledger.world, ledger.posts]
    exact ready.posts
  · exact performs.inStep ready.rest ready.inStep balanced

end Exchange

end CollectiveBench
