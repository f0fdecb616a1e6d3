import CollectiveBench.Stream
import Mathlib.Data.List.Nodup

/-!
# Streams under guards

Streams are created, and guards are entered and left, in any order and to any depth. A guard
remembers one stream only, the one that was current when it was entered. As long as guards are left
in the reverse order of entering, these streams make a chain: each guard remembers what the guard
around it was entered for, and the outermost one what was current before. So at every moment the
current stream is what the innermost live guard was entered for (`Usage.Settled.after`).

Code whose scopes hold guards keeps to that order by itself. A scope is left after all that is
within it, whether its body comes to its end or stops before (`Code.nested`).
-/

namespace CollectiveBench.Streams

/-! ## Uses -/

/-- What is done with the streams of a device. Guards are numbered in the order of entering. -/
inductive Use where
  | create
  | enter (target : Option Nat)
  | leave (guard : Nat)
deriving DecidableEq

/-- A guard that is live, and the stream that it was entered for. -/
structure Scope where
  number : Nat
  target : Option Nat
  guard : StreamGuard

/-- The streams of a device and the guards that are live on it. -/
structure Usage where
  streams : Streams
  /-- The guard that was entered last stands first. -/
  scopes : List Scope := []
  /-- The number of the next guard. -/
  entered : Nat := 0
  /-- The streams that were created, in their order. -/
  created : List Nat := []

namespace Usage

/-- The streams before any use. -/
def unused (streams : Streams) : Usage := { streams }

/-- The usage after one use more. -/
def apply (usage : Usage) : Use → Usage
  | .create =>
    let (stream, streams) := usage.streams.create
    { usage with streams, created := usage.created ++ [stream] }
  | .enter target =>
    let (guard, streams) := usage.streams.enter target
    { usage with
      streams
      scopes := ⟨usage.entered, target, guard⟩ :: usage.scopes
      entered := usage.entered + 1 }
  | .leave number =>
    match usage.scopes.find? (·.number = number) with
    | some scope =>
      { usage with
        streams := usage.streams.leave scope.guard
        scopes := usage.scopes.eraseP (·.number = number) }
    | none => usage

/-- The usage after some uses more. -/
def after (usage : Usage) (uses : List Use) : Usage := uses.foldl apply usage

/-- If a guard is left, it is the live one that was entered last. -/
def InOrder (usage : Usage) : Use → Prop
  | .leave number => usage.scopes.head?.map Scope.number = some number
  | .create | .enter _ => True

instance (usage : Usage) (use : Use) : Decidable (usage.InOrder use) :=
  match use with
  | .leave number => inferInstanceAs (Decidable (usage.scopes.head?.map Scope.number = some number))
  | .create | .enter _ => inferInstanceAs (Decidable True)

/-- Guards are left in the reverse order of entering. -/
def Nested : Usage → List Use → Prop
  | _, [] => True
  | usage, use :: rest => usage.InOrder use ∧ (usage.apply use).Nested rest

instance decidableNested : (usage : Usage) → (uses : List Use) → Decidable (usage.Nested uses)
  | _, [] => inferInstanceAs (Decidable True)
  | usage, use :: rest =>
    have := decidableNested (usage.apply use) rest
    inferInstanceAs (Decidable (usage.InOrder use ∧ (usage.apply use).Nested rest))

variable {usage : Usage} {use : Use} {uses : List Use}

/-- Further uses go on where those before ended. -/
theorem after_append (more : List Use) :
    usage.after (uses ++ more) = (usage.after uses).after more :=
  List.foldl_append

/-- Uses one after the other are nested exactly if the first are, and then the second. -/
theorem nested_append_iff {more : List Use} :
    usage.Nested (uses ++ more) ↔ usage.Nested uses ∧ (usage.after uses).Nested more := by
  induction uses generalizing usage with
  | nil => exact (iff_of_eq (true_and _)).symm
  | cons use rest inductionHypothesis =>
    exact (and_congr_right fun _ => inductionHypothesis).trans and_assoc.symm

end Usage

/-! ## The chain of guards -/

/-- What the innermost of some live guards was entered for, or the stream from outside of all. -/
def innermost (outside : Option Nat) (scopes : List Scope) : Option Nat :=
  (scopes.head?.map Scope.target).getD outside

/-- Each guard remembers what the one around it was entered for. -/
def Linked (outside : Option Nat) : List Scope → Prop
  | [] => True
  | scope :: rest => scope.guard.previous = innermost outside rest ∧ Linked outside rest

namespace Usage

variable {usage : Usage} {use : Use} {uses : List Use} {outside : Option Nat}

/-- The current stream is that of the innermost guard, and leaving guards brings back the others. -/
structure Settled (outside : Option Nat) (usage : Usage) : Prop where
  current : usage.streams.current = innermost outside usage.scopes
  linked : Linked outside usage.scopes

/-- Leaving the innermost guard restores what it remembers. -/
theorem apply_leave {scope : Scope} {rest : List Scope} (live : usage.scopes = scope :: rest) :
    usage.apply (.leave scope.number) =
      { usage with streams := usage.streams.leave scope.guard, scopes := rest } := by
  simp [apply, live]

/-- Entering a guard makes the chain longer by what was current, and leaving the innermost one takes
its end away. -/
theorem Settled.apply (settled : usage.Settled outside) (inOrder : usage.InOrder use) :
    (usage.apply use).Settled outside := by
  cases use with
  | create => exact ⟨settled.current, settled.linked⟩
  | enter target => exact ⟨rfl, settled.current, settled.linked⟩
  | leave number =>
    obtain ⟨scope, first, rfl⟩ := Option.map_eq_some_iff.mp inOrder
    obtain ⟨rest, live⟩ := List.head?_eq_some_iff.mp first
    have linked := settled.linked
    rw [live] at linked
    rw [apply_leave live]
    exact ⟨linked.1, linked.2⟩

/-- Nested uses keep the streams settled. -/
theorem Settled.after (settled : usage.Settled outside) (nested : usage.Nested uses) :
    (usage.after uses).Settled outside := by
  induction uses generalizing usage with
  | nil => exact settled
  | cons use rest inductionHypothesis =>
    exact inductionHypothesis (settled.apply nested.1) nested.2

/-- Whatever happens to guards, streams are created under consecutive numbers. -/
theorem created_after (usage : Usage) (uses : List Use) :
    (usage.after uses).created =
      usage.created ++ List.range' usage.streams.next (uses.count .create) := by
  induction uses generalizing usage with
  | nil => simp [after]
  | cons use rest inductionHypothesis =>
    refine (inductionHypothesis (usage.apply use)).trans ?_
    cases use with
    | create => simp [apply, create, List.range'_succ]
    | enter target => simp [apply, enter, switch]
    | leave number =>
      rw [apply]
      split <;> simp [leave, switch]

end Usage

/-! ## Scopes of code -/

/-- Why code stops before its end. -/
inductive Stop where
  | returned
  | failed
  | crashed

/-- Code that works with streams. -/
inductive Code where
  | done
  | create
  | stop (reason : Stop)
  | andThen (first rest : Code)
  /-- A scope that holds a guard. -/
  | guarded (target : Option Nat) (body : Code)
  /-- Goes on after its body, whyever that stopped. -/
  | resume (body : Code)

namespace Code

/-- Why code stops, and what it does with streams by then. A guard is left where its scope is. -/
def trace : Code → Usage → Option Stop × List Use
  | .done, _ => (none, [])
  | .create, _ => (none, [.create])
  | .stop reason, _ => (some reason, [])
  | .andThen first rest, usage =>
    match first.trace usage with
    | (none, uses) =>
      let (stopped, more) := rest.trace (usage.after uses)
      (stopped, uses ++ more)
    | stopped => stopped
  | .guarded target body, usage =>
    let (stopped, uses) := body.trace (usage.apply (.enter target))
    (stopped, .enter target :: uses ++ [.leave usage.entered])
  | .resume body, usage => (none, (body.trace usage).2)

/-- Code leaves guards in the reverse order of entering, and has left all of its own when it stops.
-/
theorem nested (code : Code) (usage : Usage) :
    usage.Nested (code.trace usage).2 ∧
      (usage.after (code.trace usage).2).scopes = usage.scopes := by
  induction code generalizing usage with
  | done | stop => exact ⟨trivial, rfl⟩
  | create => exact ⟨⟨trivial, trivial⟩, rfl⟩
  | andThen first rest firstHypothesis restHypothesis =>
    obtain ⟨ordered, kept⟩ := firstHypothesis usage
    rw [trace]
    split
    next uses traced =>
      rw [traced] at ordered kept
      obtain ⟨further, still⟩ := restHypothesis (usage.after uses)
      refine ⟨Usage.nested_append_iff.mpr ⟨ordered, further⟩, ?_⟩
      exact (congrArg Usage.scopes (Usage.after_append _)).trans (still.trans kept)
    next => exact ⟨ordered, kept⟩
  | guarded target body inductionHypothesis =>
    obtain ⟨ordered, kept⟩ := inductionHypothesis (usage.apply (.enter target))
    -- After the body the guard of the scope is the innermost one again.
    have innermost := congrArg (·.head?.map Scope.number) kept
    have closed := congrArg Usage.scopes (Usage.apply_leave kept)
    refine ⟨⟨trivial, Usage.nested_append_iff.mpr ⟨ordered, innermost, trivial⟩⟩, ?_⟩
    show (Usage.after _ (.enter target :: _ ++ [.leave usage.entered])).scopes = usage.scopes
    rw [Usage.after_append]
    exact closed
  | resume body inductionHypothesis => exact inductionHypothesis usage

end Code

/-! ## Discipline -/

/-- While guards are left in the reverse order of entering, the current stream is at every moment
what the innermost live guard was entered for, or the one from before if no guard is live. The
streams that are created have consecutive numbers, and so different ones. Code that goes on from
there, and holds its guards in scopes, keeps to the order however its scopes are left, and then the
same guards are live and the same stream is current as before. -/
theorem guards_nest (start : Streams) {uses : List Use}
    (nested : (Usage.unused start).Nested uses) :
    (∀ before more, uses = before ++ more →
      let usage := (Usage.unused start).after before
      usage.streams.current = innermost start.current usage.scopes) ∧
    ((Usage.unused start).after uses).created = List.range' start.next (uses.count .create) ∧
    ((Usage.unused start).after uses).created.Nodup ∧
    ∀ code : Code,
      let usage := (Usage.unused start).after uses
      let further := (code.trace usage).2
      let later := usage.after further
      (Usage.unused start).Nested (uses ++ further) ∧
        later.scopes = usage.scopes ∧ later.streams.current = usage.streams.current := by
  have settled : (Usage.unused start).Settled start.current := ⟨rfl, trivial⟩
  have created := (Usage.unused start).created_after uses
  refine ⟨?_, created, created ▸ List.nodup_range', fun code => ?_⟩
  · rintro before more rfl
    exact (settled.after (Usage.nested_append_iff.mp nested).1).current
  · intro usage further later
    obtain ⟨ordered, kept⟩ := code.nested usage
    have here : usage.Settled start.current := settled.after nested
    refine ⟨Usage.nested_append_iff.mpr ⟨nested, ordered⟩, kept, ?_⟩
    exact (here.after ordered).current.trans ((congrArg _ kept).trans here.current.symm)

/-- Three guards are live, the middle one for the default stream and the last one for the stream
that is current already. Within the last one, code crashes two scopes deep. -/
theorem guards_nest_deep :
    let start : Streams := { current := some 4, next := 9 }
    let uses : List Use :=
      [.create, .enter (some 9), .enter none, .create, .enter (some 10), .leave 2,
      .enter none]
    let usage := (Usage.unused start).after uses
    let code : Code := .guarded (some 9) (.andThen (.guarded none (.stop .crashed)) .create)
    (Usage.unused start).Nested uses ∧ usage.created = [9, 10] ∧
      usage.scopes.map Scope.number = [3, 1, 0] ∧ usage.streams.current = none ∧
      code.trace usage = (some .crashed, [.enter (some 9), .enter none, .leave 5, .leave 4]) ∧
      (usage.after [.enter (some 9), .enter none]).streams.current = none ∧
      (usage.after [.enter (some 9), .enter none, .leave 5]).streams.current = some 9 ∧
      (usage.after [.enter (some 9), .enter none, .leave 5, .leave 4]).streams.current = none := by
  intro start uses usage code
  have nested : (Usage.unused start).Nested uses := by decide
  obtain ⟨current, created, -, scopes⟩ := guards_nest start nested
  obtain ⟨further, -, still⟩ := scopes code
  have within := (guards_nest start further).1
  have here := current uses [] (List.append_nil uses).symm
  have inside := within (uses ++ [.enter (some 9), .enter none]) [.leave 5, .leave 4] rfl
  have outside := within (uses ++ [.enter (some 9), .enter none, .leave 5]) [.leave 4] rfl
  exact ⟨nested, created, rfl, here, rfl, inside, outside, still.trans here⟩

/-- Guards that are left in the order of entering leave the wrong stream behind. -/
example : ((Usage.unused {}).after
    [.enter (some 1), .enter (some 2), .leave 0, .leave 1]).streams.current = some 1 := by decide

end CollectiveBench.Streams
