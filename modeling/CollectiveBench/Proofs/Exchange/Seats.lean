import CollectiveBench.Proofs.Delivery.Terms
import CollectiveBench.Proofs.Exchange.Step

/-!
# Who gets a seat

A call takes a seat exactly if its operation waits for others, its rank belongs to the group that
it names, and its peers exist there. `World.StaysOut` lists the reasons to take none; it leaves
open which of several reasons the answer names.
-/

namespace CollectiveBench

variable [Arithmetic]

/-- Why a call takes no seat. -/
inductive World.StaysOut (world : World) (rank : Nat) (call : Call) : Prop where
  /-- Its operation waits for nobody. -/
  | idle (free : call.operation = .noop ∨ call.operation = .wait)
  | unknownGroup (missing : world.groups[call.group]? = none)
  /-- Its rank is not in its group. -/
  | outsider (absent : rank ∉ world.members call.group)
  | root (rooted : call.operation.isRooted)
      (beyond : (world.members call.group).length ≤ call.root)
  /-- One of its senders or receivers is not in its group. -/
  | peer {peer : Nat} (listed : peer ∈ call.sources ++ call.destinations)
      (beyond : (world.members call.group).length ≤ peer)
  | unpaired (paired : call.operation = .pt2pt ∨ call.operation = .recv)
      (unequal : call.sources.length ≠ call.destinations.length)

omit [Arithmetic] in
/-- The reasons are sound and complete: a call has one of them exactly if it takes no seat. -/
theorem World.staysOut_iff {world : World} {rank : Nat} {call : Call} :
    world.StaysOut rank call ↔ ∀ seat, world.seatFor rank call ≠ .ok (some seat) := by
  constructor
  · intro out seat seated
    obtain ⟨⟨notNoop, notWait⟩, place, _, checked⟩ := seatFor_eq_some_iff.mp seated
    obtain ⟨root, peers, pairs⟩ := Call.checkPeers_eq_ok.mp checked
    have member := List.mem_of_getElem? (getElem?_positionIn place)
    cases out with
    | idle free => exact free.elim notNoop notWait
    | unknownGroup missing => simp [members, missing] at member
    | outsider absent => exact absent member
    | root rooted beyond => exact absurd (root rooted) (Nat.not_lt.mpr beyond)
    | peer listed beyond => exact absurd (peers _ listed) (Nat.not_lt.mpr beyond)
    | unpaired paired unequal => exact unequal (pairs paired)
  · intro seatless
    by_contra inside
    have member : rank ∈ world.members call.group :=
      by_contra fun absent => inside (.outsider absent)
    suffices free : ∃ seat, world.seatFor rank call = .ok (some seat) from
      free.elim fun seat seated => seatless seat seated
    refine exists_seat ⟨?_, ?_⟩ member (Call.checkPeers_eq_ok.mpr ⟨?_, ?_, ?_⟩)
    · exact fun noop => inside (.idle (.inl noop))
    · exact fun wait => inside (.idle (.inr wait))
    · exact fun rooted => Nat.lt_of_not_le fun beyond => inside (.root rooted beyond)
    · exact fun peer listed => Nat.lt_of_not_le fun beyond => inside (.peer listed beyond)
    · exact fun paired => by_contra fun unequal => inside (.unpaired paired unequal)

omit [Arithmetic] in
/-- A call with a reason to stay out is not a call that arrives. -/
theorem Exchange.arrival?_of_staysOut {exchange : Exchange} {now index : Nat} {call : Call}
    {endpoint : Endpoint} (found : exchange.endpoints[index]? = some endpoint)
    (out : exchange.world.StaysOut endpoint.rank call) :
    exchange.arrival? (.issue now index call) = none := by
  cases arrives : exchange.arrival? (.issue now index call) with
  | none => rfl
  | some entry =>
    obtain ⟨owner, seat, there, seated, _⟩ := arrival?_issue arrives
    obtain rfl : owner = endpoint := Option.some.inj (there.symm.trans found)
    exact absurd seated (World.staysOut_iff.mp out seat)

end CollectiveBench
