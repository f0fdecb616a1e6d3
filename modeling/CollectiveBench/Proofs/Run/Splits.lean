import CollectiveBench.Proofs.Run.Builds

/-!
# Splits that fit together

Every rank works out the splits of an uneven exchange for itself, from a split that all ranks share
and its own number, or from nothing but the size of the message. What the ranks work out are the
rows and the columns of one matrix: a rank sends by its row and makes room by its column. So any two
ranks agree about how much the one sends to the other, and what all ranks send to one is what it has
room for. All of this takes that the splits can be added up.
-/

namespace CollectiveBench

/-- A member of an uneven exchange has room for what its column adds up to. -/
theorem Buffers.Suits.room {terms : Terms} {rank : Nat} {buffers : Buffers}
    (suits : buffers.Suits terms rank) (uneven : terms.operation = .allToAllv) :
    ∃ target, buffers.output = some (.single target) ∧
      target.HasShape terms.type (total (sentTo terms.ranks terms.lengths rank)) := by
  have fits := (suits.shapes (by rw [uneven]; rfl)).output
  rw [Terms.layout_uneven uneven] at fits
  generalize buffers.output = output at fits
  cases fits with
  | @some _ staged fits =>
    cases staged with
    | single target => exact ⟨target, rfl, fits⟩
    | list targets => exact fits.elim

namespace Item

variable {item : Item} {params : Params} {size rank : Nat}

/-- What a rank is to receive, by its descriptor and the parameters, is its column. -/
theorem outSplit_eq (uneven : item.operation = .allToAllv) (divides : params.Divides size)
    (inside : rank < size) :
    ((item.descriptor params size rank).outSplit <|> params.outSplit).getD
        (evenSplit (item.descriptor params size rank).outElements size) =
      sentTo (List.range size) (item.lengths params size) rank := by
  have shape := descriptor_uneven uneven params size rank
  rcases item.splits_eq divides inside with ⟨input, output⟩ | sides
  · -- Without a split, sending and receiving fall back on the same division of the message.
    have sides : splits params size rank = (none, none) := by simp only [splits, input, output]
    have each (sender receiver : Nat) :
        item.lengths params size sender receiver = item.elements params size / size := by
      simp only [lengths, input, output]
    rw [shape, sides, output]
    exact (map_range_const fun _ => each _ _).symm
  · rw [shape, sides]
    rfl

section

variable {supported : List Operation} {world : World}

/-- Every rank can stage an uneven exchange, with tensors or without. It sends by its row of the
matrix and makes room by its column. -/
theorem gives_stage_unevenly [Halves] (uneven : item.operation = .allToAllv)
    (divides : params.Divides size)
    (known : .allToAllv ∈ supported) (members : world.members World.defaultGroup = List.range size)
    (inside : rank < size) (allocate : Bool) (device : Device) :
    Gives (stage supported world (item.stagingParams params size)
        (item.descriptor params size rank) allocate device).1
      fun buffers =>
        buffers.inSplit = some (sentBy (List.range size) (item.lengths params size) rank) ∧
        buffers.outSplit = some (sentTo (List.range size) (item.lengths params size) rank) ∧
        (allocate = true → buffers.Suits (item.terms params size) rank) := by
  have fits (same : item.operation = .allToAllv) := item.uneven same divides inside
  have suits := suits_forGroup fits
  have made := make_eq params (uneven ▸ known) members inside (by rw [uneven]; rfl)
  rw [counts_ok fits inside] at made
  have column : (Plan.forGroup item.operation (item.stagingParams params size)
      (item.descriptor params size rank) size).outSplit =
        some (sentTo (List.range size) (item.lengths params size) rank) := by
    rw [Plan.forGroup, uneven, if_pos rfl]
    exact congrArg some (outSplit_eq uneven divides inside)
  rw [stage_exact, made]
  generalize Plan.forGroup item.operation (item.stagingParams params size)
    (item.descriptor params size rank) size = plan at suits column
  have row := suits.split uneven
  cases allocate with
  | false => exact gives_ok ⟨row, column, by simp⟩
  | true =>
    obtain ⟨_, inSplit, outSplit⟩ :=
      plan.allocate_decided (item.stagingParams params size) device
    exact gives_ok ⟨inSplit.trans row, outSplit.trans column, fun _ => suits.allocate _ device⟩

/-- The splits of an uneven exchange fit together in a world of any size, for any type and size of
message, where all ranks share a split of one side with an entry for each of them, or none. Every
rank can stage what its descriptor asks for, on any device and with tensors or without. For any two
ranks, the entry for the one among the lengths that the other sends is the entry for the other among
the lengths that the one receives. So what all ranks send to one adds up to what is staged for it to
receive. This holds in every build that holds the sums of the splits and has room for the tensors.
-/
theorem splits_fit_together [Arithmetic] [Halves] (uneven : item.operation = .allToAllv)
    (divides : params.Divides size) (known : .allToAllv ∈ supported)
    (members : world.members World.defaultGroup = List.range size) (allocate : Bool)
    (device : Nat → Device) (summed : ∀ rank < size, Summed params size rank)
    (room : allocate = true → ∀ rank < size,
      Arithmetic.Allots (max (item.descriptor params size rank).inElements
        (item.descriptor params size rank).outElements) params.type.size) :
    ∃ staged : Nat → Buffers,
      (∀ rank < size, (stage supported world (item.stagingParams params size)
        (item.descriptor params size rank) allocate (device rank)).1 = .ok (staged rank)) ∧
      (∀ sender < size, ∀ receiver < size, ∃ sent received length,
        (staged sender).inSplit = some sent ∧ sent.length = size ∧
        (staged receiver).outSplit = some received ∧ received.length = size ∧
        sent[receiver]? = some length ∧ received[sender]? = some length) ∧
      (allocate = true → ∀ receiver < size, ∃ target,
        (staged receiver).output = some (.single target) ∧ target.type = params.type ∧
        target.count = total ((List.range size).map fun sender =>
          ((staged sender).inSplit.getD []).getD receiver 0)) := by
  have each (rank : Nat) (inside : rank < size) :=
    gives_stage_unevenly uneven divides known members inside allocate (device rank)
  choose! staged succeeds rows columns suits using each
  refine ⟨staged, fun rank inside => ?_, ?_, ?_⟩
  · rw [stage_of_summed (fun _ => summed rank inside) fun allocates => room allocates rank inside]
    exact succeeds rank inside
  · intro sender sends receiver receives
    refine ⟨_, _, item.lengths params size sender receiver, rows sender sends, ?_,
      columns receiver receives, ?_, ?_, ?_⟩
    · simp [sentBy]
    · simp [sentTo]
    · simp [sentBy, receives]
    · simp [sentTo, sends]
  · intro allocates receiver receives
    obtain ⟨target, output, type, count⟩ := (suits receiver receives allocates).room uneven
    have column : (List.range size).map (fun sender =>
        ((staged sender).inSplit.getD []).getD receiver 0) =
          sentTo (List.range size) (item.lengths params size) receiver := by
      refine List.map_congr_left fun sender sends => ?_
      rw [rows sender (List.mem_range.mp sends)]
      simp [sentBy, receives]
    exact ⟨target, output, type, by rw [column]; exact count⟩

/-- Three ranks, of which each is to send the same to everyone: two elements, none, and five. -/
theorem splits_fit_together_three :
    let world := World.create 3 [] 1000
    let params : Params := { outSplit := some [2, 0, 5] }
    let item : Item := ⟨.allToAllv, 12⟩
    params.Divides 3 ∧ world.members World.defaultGroup = List.range 3 ∧
      ∃ staged : Nat → Buffers,
        (∀ rank < 3, (@stage .wrapping .nearest Operation.all world (item.stagingParams params 3)
          (@descriptor .wrapping item params 3 rank) true (Device.create 0 rank)).1 =
            .ok (staged rank)) ∧
        ∀ receiver < 3, ∃ target, (staged receiver).output = some (.single target) ∧
          target.count = total ((List.range 3).map fun sender =>
            ((staged sender).inSplit.getD []).getD receiver 0) := by
  intro world params item
  have divides : params.Divides 3 := by
    refine ⟨.inl rfl, nofun, ?_⟩
    rintro split ⟨⟩
    rfl
  have members : world.members World.defaultGroup = List.range 3 := rfl
  have uneven : item.operation = .allToAllv := rfl
  have known : Operation.allToAllv ∈ Operation.all := by decide
  have fits : ∀ rank < 3, @Fits .wrapping item params 3 rank := by
    intro rank inside
    obtain rfl | rfl | rfl : rank = 0 ∨ rank = 1 ∨ rank = 2 := by omega
    all_goals decide
  obtain ⟨staged, succeeds, _, room⟩ :=
    @splits_fit_together item params 3 Operation.all world .wrapping .nearest uneven divides known
      members true (Device.create 0)
      (fun rank inside => @Fits.summed .wrapping _ _ _ _ (fits rank inside) uneven)
      fun _ rank inside => @Fits.room .wrapping _ _ _ _ (fits rank inside)
  refine ⟨divides, members, staged, succeeds, ?_⟩
  intro receiver receives
  obtain ⟨target, output, _, count⟩ := room rfl receiver receives
  exact ⟨target, output, count⟩

/-- Two ranks with a split whose sum no word holds. A build that stops at such a sum stages nothing,
and one that goes on makes no room for what each of them is to send. -/
theorem splits_overflow :
    let params : Params := { inSplit := some [powerOfTwo 63, powerOfTwo 63] }
    let item : Item := ⟨.allToAllv, 8⟩
    params.Divides 2 ∧
      (∀ rank < 2, @checkSums .checked item params 2 rank = .error (.defect .overflow)) ∧
      ∀ rank < 2, (@descriptor .wrapping item params 2 rank).outElements = 0 := by
  refine ⟨⟨.inr rfl, ?_, nofun⟩, by decide, by decide⟩
  rintro split ⟨⟩
  rfl

end

end Item

end CollectiveBench
