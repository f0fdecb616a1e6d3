import CollectiveBench.Proofs.Exchange.Copies
import CollectiveBench.Proofs.Run.Builds
import CollectiveBench.Proofs.Run.Plans

/-!
# Calls of all ranks

Of the calls that all ranks issue for an item, on buffers that follow their plans, either all come
back, on buffers that follow the same plans, or none does (`Item.answers_alike`). Peers that do not
exist are refused at every rank, because every rank names the same ones. There is one exception.
Where an uneven exchange is given a split for both sides, what a rank receives may fit, and what
another one receives may not; so the splits are taken to match at all ranks or at none. In a build
in which the item fits at every rank, the answers are those that there are without any bounds
(`Item.answer_of_fits`).
-/

namespace CollectiveBench

/-- A tensor takes over no tensor of another length. -/
theorem Tensor.copyFrom_of_count_ne {target source : Tensor} (types : target.type = source.type)
    (counts : target.count ≠ source.count) :
    target.copyFrom source = .error (.bufferSizeMismatch target.count source.count) := by
  have incompatible : target.checkCompatible source =
      .error (.bufferSizeMismatch target.count source.count) := by
    rw [checkCompatible, if_neg (not_not_intro types)]
    exact if_pos counts
  rw [copyFrom, incompatible]
  rfl

/-- Whoever names peers that do not exist, or does not pair them, is refused for that reason. -/
theorem Call.not_leftWaiting_of_refused {call : Call} {rank size : Nat} {error : Error}
    (refused : call.checkPeers rank size = .error error) : ¬ error.LeftWaiting := by
  rw [checkPeers] at refused
  split at refused
  · cases refused
    exact id
  split at refused
  · cases refused
    exact id
  split at refused
  · cases refused
    -- The text about the pairs is longer than the one about an abandoned round.
    intro same
    have length := congrArg String.length same
    simp only [String.length_append] at length
    have middle : " source ranks paired with ".length = 26 := by decide
    have abandoned : "round abandoned".length = 15 := by decide
    omega
  · cases refused

namespace Item

variable {bench : Bench} {item : Item} {params : Params} {size rank : Nat}

/-- The buffers are those of a rank's plan for an item. -/
def Supplied (bench : Bench) (item : Item) (rank : Nat) (buffers : Buffers) : Prop :=
  ∃ made, plan bench item rank = .ok made ∧ buffers.Follows made

/-- The peers of an item exist in a world of a size and, where messages go from point to point, are
paired. -/
def PeersExist (item : Item) (params : Params) (size : Nat) : Prop :=
  (item.operation.isRooted → params.root < size) ∧
  (∀ peer ∈ (peers params size item.operation).1 ++ (peers params size item.operation).2,
    peer < size) ∧
  (item.operation = .pt2pt ∨ item.operation = .recv →
    (peers params size item.operation).1.length = (peers params size item.operation).2.length)

/-- The peers of a call pass exactly if those of the item exist. -/
theorem checkPeers_callOn {buffers : Buffers} (same : buffers.operation = item.operation)
    (rank : Nat) :
    (item.callOn params size buffers).checkPeers rank size = .ok () ↔
      item.PeersExist params size := by
  rw [Call.checkPeers_eq_ok]
  change (buffers.operation.isRooted → _) ∧ _ ∧
    (buffers.operation = .pt2pt ∨ buffers.operation = .recv → _) ↔ _
  rw [same]
  rfl

/-- The call is one that a rank issues for an item. -/
def IsCall (bench : Bench) (item : Item) (rank : Nat) (call : Call) : Prop :=
  ∃ buffers, Supplied bench item rank buffers ∧
    call = item.callOn bench.params bench.worldSize buffers

/-- An uneven exchange can be planned only if its splits have an entry for each rank. -/
theorem covers_of_plan (known : item.operation ∈ bench.supported)
    (spans : bench.world.members World.defaultGroup = List.range bench.worldSize)
    (same : item.operation = .allToAllv) (inside : rank < bench.worldSize) {made : Plan}
    (planned : plan bench item rank = .ok made) : bench.params.Covers bench.worldSize := by
  by_contra uncovered
  obtain ⟨split, count, refused⟩ :=
    counts_refused same uncovered (Nat.zero_lt_of_lt inside) rank
  have failed := make_eq bench.params known spans inside (by rw [same]; rfl)
  rw [same, refused] at failed
  cases planned.symm.trans failed

/-- Where the splits match, the buffers of a rank's plan are those that suit the terms. -/
theorem supplied_iff (known : item.operation ∈ bench.supported)
    (spans : bench.world.members World.defaultGroup = List.range bench.worldSize)
    (fits : item.operation = .allToAllv → item.Uneven bench.params bench.worldSize rank)
    (inside : rank < bench.worldSize) (buffers : Buffers) :
    Supplied bench item rank buffers ↔
      buffers.Suits (item.terms bench.params bench.worldSize) rank := by
  obtain ⟨made, planned, suits⟩ := gives_make bench.params known spans fits inside
  obtain ⟨operation, still, _⟩ := of_plan known spans inside planned
  have follows : buffers.Follows made ↔ buffers.Suits _ rank :=
    suits.follows_iff (operation ▸ still)
  constructor
  · rintro ⟨other, alsoPlanned, followed⟩
    obtain rfl : other = made := Except.ok.inj (alsoPlanned.symm.trans planned)
    exact follows.mp followed
  · exact fun suiting => ⟨made, planned, follows.mpr suiting⟩

/-- With a split for both sides a rank holds what it sends by the one and has room for what it
expects by the other. -/
theorem supplied_both (known : item.operation ∈ bench.supported)
    (spans : bench.world.members World.defaultGroup = List.range bench.worldSize)
    (same : item.operation = .allToAllv) {sent received : List Nat}
    (input : bench.params.inSplit = some sent) (output : bench.params.outSplit = some received)
    (inside : rank < bench.worldSize) {buffers : Buffers}
    (supplied : Supplied bench item rank buffers) :
    buffers.operation = .allToAllv ∧ buffers.inSplit = some sent ∧
      (∃ tensor, buffers.input = .single tensor ∧
        tensor.HasShape bench.params.type (total sent)) ∧
      ∃ target, buffers.destination = .single target ∧
        target.HasShape bench.params.type (total received) := by
  obtain ⟨made, planned, operation, fits, split⟩ := supplied
  obtain ⟨_, _, decided⟩ := of_plan known spans inside planned
  obtain ⟨sends, receives, own, _⟩ :=
    descriptor_both same input output bench.worldSize rank
  have type := (item.descriptor_names bench.params bench.worldSize rank).2.2
  have shape := decided (by rw [same]; rfl)
  rw [same] at shape
  subst shape
  have chosen : buffers.Fits bench.params.type
      ⟨.single (total sent), some (.single (total received))⟩ := by
    have fitting := fits _ rfl
    rw [sends, receives] at fitting
    rwa [Plan.forGroup, type] at fitting
  have settled : buffers.inSplit = some sent := by
    rw [split rfl, Plan.forGroup, if_pos rfl]
    change some (((item.descriptor bench.params bench.worldSize rank).inSplit <|>
      bench.params.inSplit).getD _) = _
    rw [own]
    rfl
  have single {staged : Staged} {count : Nat}
      (fitting : staged.Fits bench.params.type (.single count)) :
      ∃ tensor, staged = .single tensor ∧ tensor.HasShape bench.params.type count := by
    cases staged with
    | single tensor => exact ⟨tensor, rfl, fitting⟩
    | list tensors => exact fitting.elim
  exact ⟨operation, settled, single chosen.input, single chosen.destination⟩

/-- Where the splits do not match at a rank, what it receives does not fit. -/
theorem conclude_clash (known : item.operation ∈ bench.supported)
    (spans : bench.world.members World.defaultGroup = List.range bench.worldSize)
    (same : item.operation = .allToAllv) (covers : bench.params.Covers bench.worldSize)
    {made : Nat → Call} (issued : ∀ rank < bench.worldSize, IsCall bench item rank (made rank))
    (inside : rank < bench.worldSize) (apart : ¬ bench.params.Matches bench.worldSize rank) :
    ∃ expected actual, conclude (made rank) rank ((List.range bench.worldSize).idxOf rank)
      ((List.range bench.worldSize).map fun other => (made other).contribution) =
        .error (.bufferSizeMismatch expected actual) := by
  obtain ⟨sent, received, input, output, unequal⟩ : ∃ sent received,
      bench.params.inSplit = some sent ∧ bench.params.outSplit = some received ∧
        bench.worldSize * sent.getD rank 0 ≠ total received := by
    simpa [Params.Matches] using apart
  let lengths (_ receiver : Nat) : Nat := sent.getD receiver 0
  have row (sender : Nat) : sentBy (List.range bench.worldSize) lengths sender = sent :=
    map_range_getD (covers sent (.inl input))
  have column : sentTo (List.range bench.worldSize) lengths rank =
      List.replicate bench.worldSize (sent.getD rank 0) := map_range_const fun _ => rfl
  have holds (sender : Nat) (member : sender ∈ List.range bench.worldSize) :
      (made sender).operation = .allToAllv ∧
        (made sender).buffers.inSplit = some (sentBy (List.range bench.worldSize) lengths sender) ∧
        (∃ tensor, (made sender).buffers.input = .single tensor ∧ tensor.HasShape
          bench.params.type (total (sentBy (List.range bench.worldSize) lengths sender))) ∧
        ∃ target, (made sender).buffers.destination = .single target ∧
          target.HasShape bench.params.type (total received) := by
    obtain ⟨buffers, supplied, call⟩ := issued sender (List.mem_range.mp member)
    rw [call, row]
    exact supplied_both known spans same input output (List.mem_range.mp member) supplied
  have : Nonempty Tensor := ⟨.zeros 0 .f32⟩
  choose! inputs singles shapes using fun sender member => (holds sender member).2.2.1
  have member : rank ∈ List.range bench.worldSize := List.mem_range.mpr inside
  obtain ⟨operation, _, _, target, destination, room⟩ := holds rank member
  let words := exchanged (List.range bench.worldSize) lengths (fun sender => (inputs sender).words)
  have brought : payload (made rank) ((List.range bench.worldSize).idxOf rank)
      ((List.range bench.worldSize).map fun other => (made other).contribution) =
        .ok (.one ⟨bench.params.type, words rank⟩) :=
    payload_allToAllv operation singles (fun sender present => (holds sender present).2.1) shapes
      member
  have length : (words rank).length = bench.worldSize * sent.getD rank 0 := by
    rw [← total_replicate, ← column]
    exact length_exchanged (fun sender present => (shapes sender present).2) member
  have refused : target.copyFrom ⟨bench.params.type, words rank⟩ =
      .error (.bufferSizeMismatch target.count (words rank).length) := by
    refine Tensor.copyFrom_of_count_ne room.1 ?_
    change target.count ≠ (words rank).length
    rw [room.2, length]
    exact unequal.symm
  have agreed : ∀ contribution ∈ (List.range bench.worldSize).map fun other =>
      (made other).contribution, contribution.operation = (made rank).operation := by
    rw [List.forall_mem_map]
    exact fun sender present => (holds sender present).1.trans operation.symm
  refine ⟨target.count, (words rank).length, ?_⟩
  rw [conclude_eq_deliver agreed, deliver, brought]
  simp [destination, Staged.accept, refused, bind, Except.bind]

section

variable (known : item.operation ∈ bench.supported)
  (spans : bench.world.members World.defaultGroup = List.range bench.worldSize)

include known spans

/-- A call of an item is one of its operation, on the group of all ranks, and whether its peers
exist is the same at every rank. -/
theorem IsCall.shape {call : Call} (issued : IsCall bench item rank call)
    (inside : rank < bench.worldSize) :
    call.operation = item.operation ∧ call.group = World.defaultGroup ∧
      (call.checkPeers rank bench.worldSize = .ok () ↔
        item.PeersExist bench.params bench.worldSize) := by
  obtain ⟨buffers, ⟨made, planned, follows⟩, rfl⟩ := issued
  have same : buffers.operation = item.operation :=
    follows.operation.trans (of_plan known spans inside planned).1
  exact ⟨same, rfl, checkPeers_callOn same rank⟩

variable {made : Nat → Call} (issued : ∀ rank < bench.worldSize, IsCall bench item rank (made rank))

include issued

/-- Calls of peers that do not exist are refused at all ranks. -/
theorem answer_unpaired (waits : ¬ (item.operation = .noop ∨ item.operation = .wait))
    (missing : ¬ item.PeersExist bench.params bench.worldSize) (inside : rank < bench.worldSize) :
    FailsAlone (bench.world.answer World.defaultGroup made rank) ∧
      ¬ bench.world.accepts rank (made rank) := by
  obtain ⟨operation, group, peers⟩ := (issued rank inside).shape known spans inside
  have member : rank ∈ bench.world.members (made rank).group := by
    rw [group, spans]
    exact List.mem_range.mpr inside
  have size : (bench.world.members (made rank).group).length = bench.worldSize := by
    rw [group, spans, List.length_range]
  cases checked : (made rank).checkPeers rank bench.worldSize with
  | ok done => exact absurd (peers.mp checked) missing
  | error error =>
    obtain ⟨answer, unaccepted⟩ := World.answer_refused (operation ▸ waits) member
      (size.symm ▸ checked) World.defaultGroup
    exact ⟨⟨error, answer, Call.not_leftWaiting_of_refused checked⟩, unaccepted⟩

/-- A world accepts the calls of an item whose peers exist. -/
theorem accepts_of_peersExist (waits : ¬ (item.operation = .noop ∨ item.operation = .wait))
    (exist : item.PeersExist bench.params bench.worldSize) (inside : rank < bench.worldSize) :
    bench.world.accepts rank (made rank) := by
  obtain ⟨operation, group, peers⟩ := (issued rank inside).shape known spans inside
  refine World.accepts_of_peers (not_or.mp (operation ▸ waits)) ?_ ?_
  · rw [group, spans, List.length_range]
    exact peers.mpr exist
  · rw [group, spans]
    exact List.mem_range.mpr inside

/-- In a complete round of calls whose splits match at all ranks, every call comes back and can be
issued again. -/
theorem gives_call (fits : ∀ rank < bench.worldSize, item.operation = .allToAllv →
      item.Uneven bench.params bench.worldSize rank)
    (exist : item.PeersExist bench.params bench.worldSize) (inside : rank < bench.worldSize) :
    Gives (conclude (made rank) rank ((List.range bench.worldSize).idxOf rank)
      ((List.range bench.worldSize).map fun other => (made other).contribution))
      (IsCall bench item rank) := by
  obtain ⟨root, peers, paired⟩ := exist
  have size : (item.terms bench.params bench.worldSize).ranks.length = bench.worldSize :=
    List.length_range
  have suits : ∀ other ∈ (item.terms bench.params bench.worldSize).ranks,
      (made other).Suits (item.terms bench.params bench.worldSize) other := by
    intro other listed
    have within : other < bench.worldSize := List.mem_range.mp listed
    obtain ⟨buffers, supplied, call⟩ := issued other within
    rw [call]
    exact Buffers.Suits.call ((supplied_iff known spans (fits other within) within buffers).mp
      supplied) rfl (size.symm ▸ root) (size.symm ▸ peers) paired
  refine (gives_conclude suits (List.mem_range.mpr inside)).mono ?_
  rintro _ ⟨suiting, buffers, rfl⟩
  obtain ⟨_, _, call⟩ := issued rank inside
  refine ⟨buffers, (supplied_iff known spans (fits rank inside) inside buffers).mpr
    suiting.buffers, ?_⟩
  rw [call]
  rfl

/-- Without any bounds, calls of an item that all ranks issue for one round come back to all of them
or to none, and those that come back can be issued again. Where a split is given for both sides of
an uneven exchange, it takes that the splits match at all ranks or at none. -/
theorem answers_alike_exact
    (concordant : item.operation = .allToAllv → bench.params.Covers bench.worldSize →
      bench.params.Concordant bench.worldSize) :
    bench.world.Alike World.defaultGroup made ∧
      ((∀ rank < bench.worldSize, Gives (bench.world.answer World.defaultGroup made rank)
          (IsCall bench item rank)) ∨
        ∀ rank < bench.worldSize,
          FailsAlone (bench.world.answer World.defaultGroup made rank)) := by
  have inside {rank : Nat} (listed : rank ∈ bench.world.members World.defaultGroup) :
      rank < bench.worldSize := by
    rw [spans] at listed
    exact List.mem_range.mp listed
  by_cases free : item.operation = .noop ∨ item.operation = .wait
  · have idle {rank : Nat} (within : rank < bench.worldSize) :
        bench.world.answer World.defaultGroup made rank = .ok (made rank) ∧
          ¬ bench.world.accepts rank (made rank) :=
      World.answer_free (((issued rank within).shape known spans within).1.symm ▸ free) _
    refine ⟨.inr fun rank listed => (idle (inside listed)).2, .inl fun rank within => ?_⟩
    exact ⟨made rank, (idle within).1, issued rank within⟩
  by_cases exist : item.PeersExist bench.params bench.worldSize
  · have accepted {rank : Nat} (within : rank < bench.worldSize) :=
      accepts_of_peersExist known spans issued free exist within
    refine ⟨.inl fun rank listed => accepted (inside listed), ?_⟩
    have answer {rank : Nat} (within : rank < bench.worldSize) :
        bench.world.answer World.defaultGroup made rank =
          conclude (made rank) rank ((List.range bench.worldSize).idxOf rank)
            ((List.range bench.worldSize).map fun other => (made other).contribution) := by
      rw [World.answer_of_accepts (accepted within), spans]
    by_cases same : item.operation = .allToAllv
    · by_cases covers : bench.params.Covers bench.worldSize
      · rcases concordant same covers with matching | apart
        · refine .inl fun rank within => ?_
          rw [answer within]
          exact gives_call known spans issued
            (fun other inside _ => uneven_of_matches same covers (matching other inside) inside)
            exist within
        · refine .inr fun rank within => ?_
          obtain ⟨expected, actual, clash⟩ :=
            conclude_clash known spans same covers issued within (apart rank within)
          exact ⟨_, (answer within).trans clash, id⟩
      · refine .inl fun rank within => ?_
        obtain ⟨_, ⟨_, planned, _⟩, _⟩ := issued rank within
        exact absurd (covers_of_plan known spans same within planned) covers
    · refine .inl fun rank within => ?_
      rw [answer within]
      exact gives_call known spans issued (fun _ _ uneven => absurd uneven same) exist within
  · have refused {rank : Nat} (within : rank < bench.worldSize) :=
      answer_unpaired known spans issued free exist within
    exact ⟨.inr fun rank listed => (refused (inside listed)).2,
      .inr fun rank within => (refused within).1⟩

/-! ## Calls in a build -/

omit issued in
/-- What a rank contributes to a call of an item that fits is held. -/
theorem IsCall.contribution_held [Arithmetic] {call : Call} (issued : IsCall bench item rank call)
    (fits : item.Fits bench.params bench.worldSize rank) (inside : rank < bench.worldSize)
    (allocates : item.operation.isSyncOnly = false) : call.contribution.Held := by
  obtain ⟨buffers, ⟨made, planned, follows⟩, rfl⟩ := issued
  obtain ⟨operation, _, decided⟩ := of_plan known spans inside planned
  obtain rfl := decided allocates
  have type : (Plan.forGroup item.operation (item.stagingParams bench.params bench.worldSize)
      (@descriptor .exact item bench.params bench.worldSize rank) bench.worldSize).type =
        bench.params.type := by
    rw [Plan.forGroup, (@descriptor_names .exact item bench.params bench.worldSize rank).2.2]
    rfl
  have room := fits.room
  rw [descriptor_of_summed fits.summed] at room
  constructor
  · intro tensor listed
    rw [(follows.fits _ rfl).input.byteCount_eq listed, type]
    exact (room.mono (Layout.part_le _ _ _ _ _).1).holds
  · intro uneven lengths given
    have same : item.operation = .allToAllv := follows.operation.symm.trans uneven
    have chosen := given.symm.trans (follows.split same)
    rw [Plan.forGroup, if_pos same] at chosen
    obtain rfl := Option.some.inj chosen
    rw [show (item.stagingParams bench.params bench.worldSize).inSplit =
      bench.params.inSplit from rfl,
      @inSplit_descriptor .exact _ _ _ _ same]
    cases side : (splits bench.params bench.worldSize rank).1 with
    | some own => exact (fits.summed same).sent own side
    | none =>
      -- Equal shares are never more than what there is to share.
      rw [Option.getD_none, evenSplit, total_replicate]
      refine (room.holds_count bench.params.type.size_pos).mono ?_
      exact Nat.le_trans (Nat.mul_div_le _ _) (Nat.le_max_left _ _)

/-- Where an item fits at every rank, its calls are answered as they are without any bounds. -/
theorem answer_of_fits [Arithmetic]
    (fits : ∀ rank < bench.worldSize, item.Fits bench.params bench.worldSize rank)
    (inside : rank < bench.worldSize) :
    bench.world.answer World.defaultGroup made rank =
      @World.answer .exact bench.world World.defaultGroup made rank := by
  have operation := ((issued rank inside).shape known spans inside).1
  have concluded : conclude (made rank) rank ((bench.world.members World.defaultGroup).idxOf rank)
      ((bench.world.members World.defaultGroup).map fun other => (made other).contribution) =
      @conclude .exact (made rank) rank ((bench.world.members World.defaultGroup).idxOf rank)
        ((bench.world.members World.defaultGroup).map fun other => (made other).contribution) := by
    refine conclude_of_held (fun cuts => ?_) fun scattered target destination => ?_
    · have allocates : item.operation.isSyncOnly = false := by
        rcases operation ▸ cuts with same | same <;> rw [same] <;> rfl
      rw [List.forall_mem_map, spans]
      intro other listed
      have within : other < bench.worldSize := List.mem_range.mp listed
      exact (issued other within).contribution_held known spans (fits other within) within allocates
    · have same : item.operation = .reduceScatterBase := operation.symm.trans scattered
      obtain ⟨buffers, ⟨plan, planned, follows⟩, call⟩ := issued rank inside
      obtain rfl := (of_plan known spans inside planned).2.2 (by rw [same]; rfl)
      have room := (fits rank inside).room
      rw [descriptor_of_summed (fits rank inside).summed] at room
      have shape := (follows.fits _ rfl).destination
      rw [same] at shape
      rw [call] at destination
      rw [show buffers.destination = .single target from destination] at shape
      have chunk : target.count =
          (@descriptor .exact item bench.params bench.worldSize rank).outElements /
            bench.worldSize := shape.2
      have place : (bench.world.members World.defaultGroup).idxOf rank < bench.worldSize := by
        rw [spans]
        simpa using List.idxOf_lt_length_iff.mpr (List.mem_range.mpr inside)
      have ends : (bench.world.members World.defaultGroup).idxOf rank * target.count +
        target.count ≤
          (@descriptor .exact item bench.params bench.worldSize rank).outElements := by
        rw [chunk, ← Nat.succ_mul]
        exact Nat.le_trans (Nat.mul_le_mul_right _ place) (Nat.mul_div_le _ _)
      exact (room.holds_count bench.params.type.size_pos).mono
        (Nat.le_trans ends (Nat.le_max_right _ _))
  unfold World.answer
  rw [concluded]

/-- Calls of an item that all ranks issue for one round come back to all of them or to none, and
those that come back can be issued again, if the item fits at every rank. Where a split is given for
both sides of an uneven exchange, it takes that the splits match at all ranks or at none. -/
theorem answers_alike [Arithmetic]
    (fits : ∀ rank < bench.worldSize, item.Fits bench.params bench.worldSize rank)
    (concordant : item.operation = .allToAllv → bench.params.Covers bench.worldSize →
      bench.params.Concordant bench.worldSize) :
    bench.world.Alike World.defaultGroup made ∧
      ((∀ rank < bench.worldSize, Gives (bench.world.answer World.defaultGroup made rank)
          (IsCall bench item rank)) ∨
        ∀ rank < bench.worldSize,
          FailsAlone (bench.world.answer World.defaultGroup made rank)) := by
  obtain ⟨alike, answers⟩ := answers_alike_exact known spans issued concordant
  refine ⟨alike, answers.imp (fun gives rank inside => ?_) fun fails rank inside => ?_⟩
  · rw [answer_of_fits known spans issued fits inside]
    exact gives rank inside
  · rw [answer_of_fits known spans issued fits inside]
    exact fails rank inside

end

end Item

end CollectiveBench
