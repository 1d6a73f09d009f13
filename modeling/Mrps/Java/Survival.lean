import Mrps.Java.Worker

/-!
# What the loop of a scheduler survives

No outcome of a read, a write or a close ends the loop.  A listening key that fails does, since the
error handling casts its channel, and so does a request registered with `null`.
-/

namespace Mrps.Java

open MachineInt Throwing

/-! ## Outcomes of the building blocks -/

section Blocks

variable {α : Type} {memory : Memory}

@[simp] theorem outcome_io_ok (value : α) :
    outcome (io (.ok value)) memory = (.ok value, memory) := rfl

@[simp] theorem outcome_io_error (exception : IOException) :
    outcome (io (.error exception) : Execution α) memory = (.error (.io exception), memory) := rfl

@[simp] theorem outcome_updateKey (channel : Channel) (change : SelectionKey → SelectionKey) :
    outcome (updateKey channel change) memory =
      (.ok (), { memory with
        keys := Function.update memory.keys channel (change (memory.keys channel)) }) := rfl

/-- Only what is no `IOException` gets past a `catch (IOException e)`. -/
theorem outcome_catchIOException (body handler : Execution α) :
    outcome (catchIOException body handler) memory =
      match outcome body memory with
      | (.error (.io _), after) => outcome handler after
      | result => result := by
  rw [catchIOException, outcome_tryCatch]
  rcases outcome body memory with ⟨(_ | _ | _ | _ | _ | _) | _, _⟩ <;> rfl

theorem outcome_catchException (body handler : Execution α) :
    outcome (catchException body handler) memory =
      match outcome body memory with
      | (.error _, after) => outcome handler after
      | result => result := by
  rw [catchException, outcome_tryCatch]
  rcases outcome body memory with ⟨_ | _, _⟩ <;> rfl

end Blocks
/-! ## Code that throws nothing worse than an `IOException` -/

section Tame

variable {α β : Type}

/-- The outcome is a value or an `IOException`, and `readerWriterSequence` is as before. -/
def Tame (action : Execution α) : Prop :=
  ∀ memory, ∃ after, after.readerWriterSequence = memory.readerWriterSequence ∧
    ((∃ value, outcome action memory = (.ok value, after)) ∨
      ∃ exception, outcome action memory = (.error (.io exception), after))

/-- The outcome is a value, and `readerWriterSequence` is as before. -/
def Safe (action : Execution α) : Prop :=
  ∀ memory, ∃ value after, outcome action memory = (.ok value, after) ∧
    after.readerWriterSequence = memory.readerWriterSequence

theorem Safe.tame {action : Execution α} (safe : Safe action) : Tame action := by
  intro memory
  obtain ⟨value, after, returned, sequence_eq⟩ := safe memory
  exact ⟨after, sequence_eq, Or.inl ⟨value, returned⟩⟩

theorem safe_pure (value : α) : Safe (pure value : Execution α) := fun memory =>
  ⟨value, memory, rfl, rfl⟩

theorem safe_get : Safe (get : Execution Memory) := fun memory => ⟨memory, memory, rfl, rfl⟩

theorem safe_updateKey (channel : Channel) (change : SelectionKey → SelectionKey) :
    Safe (updateKey channel change) := fun _ => ⟨(), _, rfl, rfl⟩

theorem tame_io (result : Except IOException α) : Tame (io result) := by
  intro memory
  cases result with
  | ok value => exact ⟨memory, rfl, Or.inl ⟨value, rfl⟩⟩
  | error exception => exact ⟨memory, rfl, Or.inr ⟨exception, rfl⟩⟩

theorem Tame.bind {action : Execution α} {next : α → Execution β} (tame : Tame action)
    (next_tame : ∀ value, Tame (next value)) : Tame (action >>= next) := by
  intro memory
  obtain ⟨middle, middle_eq, ⟨value, returned⟩ | ⟨exception, thrown⟩⟩ := tame memory
  · obtain ⟨after, after_eq, result⟩ := next_tame value middle
    exact ⟨after, after_eq.trans middle_eq, by simpa [returned] using result⟩
  · exact ⟨middle, middle_eq, Or.inr ⟨exception, by simp [thrown]⟩⟩

theorem Safe.bind {action : Execution α} {next : α → Execution β} (safe : Safe action)
    (next_safe : ∀ value, Safe (next value)) : Safe (action >>= next) := by
  intro memory
  obtain ⟨value, middle, returned, middle_eq⟩ := safe memory
  obtain ⟨result, after, execution, after_eq⟩ := next_safe value middle
  exact ⟨result, after, by simpa [returned] using execution, after_eq.trans middle_eq⟩

theorem Tame.caught {body handler : Execution α} (tame : Tame body) (safe : Safe handler) :
    Safe (catchIOException body handler) := by
  intro memory
  obtain ⟨middle, middle_eq, ⟨value, returned⟩ | ⟨exception, thrown⟩⟩ := tame memory
  · exact ⟨value, middle, by rw [outcome_catchIOException, returned], middle_eq⟩
  · obtain ⟨value, after, handled, after_eq⟩ := safe middle
    exact ⟨value, after, by rw [outcome_catchIOException, thrown]; exact handled,
      after_eq.trans middle_eq⟩

theorem Safe.survives {action : Execution α} (safe : Safe action) (memory : Memory) :
    Survives action memory := by
  obtain ⟨value, after, returned, -⟩ := safe memory
  exact ⟨value, after, returned⟩

theorem Safe.keeps {action : Execution α} (safe : Safe action) {memory after : Memory}
    {result : Except Throwable α} (execution : outcome action memory = (result, after)) :
    after.readerWriterSequence = memory.readerWriterSequence := by
  obtain ⟨value, after', returned, sequence_eq⟩ := safe memory
  obtain ⟨-, rfl⟩ := Prod.mk.inj (returned.symm.trans execution)
  exact sequence_eq

end Tame

/-! ## The processor of client keys -/

theorem attachedBuffer_safe (channel : Channel) : Safe (attachedBuffer channel) := by
  rw [attachedBuffer]
  refine safe_get.bind fun memory => ?_
  cases (memory.keys channel).attachment with
  | some buffer => exact safe_pure buffer
  | none => exact (safe_updateKey _ _).bind fun _ => safe_pure _

theorem readIntoBuffer_tame (key : Selected) (buffer : ByteBuffer) :
    Tame (readIntoBuffer key buffer) := by
  rw [readIntoBuffer]
  refine (safe_updateKey _ _).tame.bind fun _ => (tame_io _).bind fun found => ?_
  cases found with
  | some bytes => exact (safe_updateKey _ _).tame.bind fun _ => (safe_pure _).tame
  | none => exact (safe_pure _).tame

theorem writeFromBuffer_tame (key : Selected) (buffer : ByteBuffer) :
    Tame (writeFromBuffer key buffer) := by
  rw [writeFromBuffer]
  refine (tame_io _).bind fun limit => (safe_updateKey _ _).tame.bind fun _ => ?_
  split
  · exact (safe_updateKey _ _).tame.bind fun _ => (safe_pure _).tame
  · exact (safe_pure _).tame

theorem readWriteProcess_tame {key : Selected} {id : Nat}
    (client : key.channel = .socketChannel id) : Tame (readWriteProcess key) := by
  have cast : Safe key.channel.asSocketChannel := by
    rw [client]
    exact safe_pure id
  rw [readWriteProcess]
  refine cast.tame.bind fun _ => (attachedBuffer_safe _).tame.bind fun buffer => ?_
  split
  · exact readIntoBuffer_tame key buffer
  · split
    · exact writeFromBuffer_tame key buffer
    · exact (safe_pure _).tame

/-- Whatever happens on a client key, nothing escapes its round. -/
theorem processSelected_safe {key : Selected} {id : Nat}
    (client : key.channel = .socketChannel id) :
    Safe (processSelected .readWriteProcessor key) := by
  have cast : Safe key.channel.asSocketChannel := by
    rw [client]
    exact safe_pure id
  rw [processSelected]
  refine (Tame.caught ?_ (safe_pure _)).bind fun keyShouldBeClosed => ?_
  · split
    · exact readWriteProcess_tame client
    · exact (safe_pure _).tame
  · split
    · refine Tame.caught ?_ (safe_pure _)
      have before : Safe (SelectorProcessor.readWriteProcessor.handleBeforeClose key.channel) := by
        rw [SelectorProcessor.handleBeforeClose]
        exact safe_updateKey _ _
      exact before.tame.bind fun _ => cast.tame.bind fun _ =>
        (safe_updateKey _ _).tame.bind fun _ => tame_io _
    · exact safe_pure _

/-! ## The processor of listening keys -/

/-- The next value of `readerWriterSequence`. -/
def sequenceAfter (sequence : Int) : Int := toSigned 64 (sequence + 1)

/-- A sequence number that is not negative, or that has wrapped around to a multiple of the number
of processors, selects a scheduler. -/
def Targeted (availableProcessors : Nat) (sequence : Int) : Prop :=
  0 ≤ sequence.tmod availableProcessors

instance (availableProcessors : Nat) (sequence : Int) :
    Decidable (Targeted availableProcessors sequence) :=
  inferInstanceAs (Decidable (_ ≤ _))

theorem targeted_of_nonneg {availableProcessors : Nat} {sequence : Int} (nonneg : 0 ≤ sequence) :
    Targeted availableProcessors sequence :=
  Int.tmod_nonneg _ nonneg

section Listening

variable {availableProcessors : Nat} {memory : Memory} {key : Selected}

theorem length_readerWriters (availableProcessors : Nat) :
    (readerWriters availableProcessors).length = availableProcessors + 1 := by
  simp [readerWriters]

theorem readerWriterIndex_eq (positive : 0 < availableProcessors)
    (fits : availableProcessors + 1 < 2 ^ 31) (sequence : Int) :
    readerWriterIndex (availableProcessors + 1) sequence =
      1 + sequence.tmod availableProcessors := by
  have positive' : (0 : Int) < availableProcessors := by omega
  have below := Int.tmod_lt_of_pos sequence positive'
  have above := Int.lt_tmod_of_pos sequence positive'
  have length_eq : ((availableProcessors + 1 : Nat) : Int) - 1 = availableProcessors := by omega
  have cast_eq : toSigned 32 (sequence.tmod availableProcessors) =
      sequence.tmod availableProcessors := toSigned_eq (by omega) (by omega)
  rw [readerWriterIndex, length_eq, cast_eq, toSigned_eq (by omega) (by omega)]

/-- The array access finds a scheduler, the `null` at its front, or nothing. -/
theorem arrayAccess_readerWriters {remainder : Int} (below : remainder < availableProcessors) :
    outcome (arrayAccess (readerWriters availableProcessors) (1 + remainder)) memory =
      (if 0 ≤ remainder then .ok (some (1 + remainder).toNat)
        else if remainder = -1 then .ok none
        else .error .arrayIndexOutOfBoundsException, memory) := by
  split
  · rename_i nonneg
    obtain ⟨index, rfl⟩ := Int.eq_ofNat_of_zero_le nonneg
    have toNat_eq : (1 + (index : Int)).toNat = index + 1 := by omega
    have inside : index < availableProcessors := by omega
    have not_neg : ¬ (1 + (index : Int)) < 0 := by omega
    simp [arrayAccess, readerWriters, toNat_eq, not_neg, inside]
  · rename_i negative
    split
    · rename_i minus_one
      simp [arrayAccess, readerWriters, minus_one]
    · have out : 1 + remainder < 0 := by omega
      simp [arrayAccess, out]

/-- A listening key takes its connection to a scheduler exactly when the number selects one and
`accept` does not throw. -/
theorem registerAccepted_outcome (positive : 0 < availableProcessors)
    (fits : availableProcessors + 1 < 2 ^ 31) (sequence : Int) :
    ∃ result after,
      outcome (registerAccepted (readerWriters availableProcessors) key sequence) memory =
        (result, after) ∧
      after.readerWriterSequence = memory.readerWriterSequence ∧
      ((∃ value, result = .ok value) ↔
        Targeted availableProcessors sequence ∧ ∃ accepted, key.accept = .ok accepted) := by
  have positive' : (0 : Int) < availableProcessors := by omega
  have below := Int.tmod_lt_of_pos sequence positive'
  have many : (readerWriters availableProcessors).length ≠ 1 := by
    rw [length_readerWriters]
    omega
  rw [registerAccepted, if_neg many, length_readerWriters, readerWriterIndex_eq positive fits]
  simp only [outcome_bind, arrayAccess_readerWriters below]
  by_cases targeted : 0 ≤ sequence.tmod availableProcessors
  · rw [if_pos targeted]
    cases key.accept with
    | ok accepted => exact ⟨_, _, rfl, rfl, by simp [Targeted, targeted]⟩
    | error exception => exact ⟨_, _, rfl, rfl, by simp⟩
  · rw [if_neg targeted]
    by_cases front : sequence.tmod availableProcessors = -1
    · rw [if_pos front]
      cases key.accept with
      | ok accepted => exact ⟨_, _, rfl, rfl, by simp [Targeted, targeted]⟩
      | error exception => exact ⟨_, _, rfl, rfl, by simp⟩
    · rw [if_neg front]
      exact ⟨_, _, rfl, rfl, by simp [Targeted, targeted]⟩

/-- What a selected listening key must be for its round to end well. -/
def Selected.Bearable (availableProcessors : Nat) (key : Selected) (sequence : Int) : Prop :=
  key.isValid = true ∧
    (key.isAcceptable = true →
      Targeted availableProcessors sequence ∧ ∃ accepted, key.accept = .ok accepted)

/-- The number the next listening key finds. -/
def Selected.advance (key : Selected) (sequence : Int) : Int :=
  if key.isAcceptable then sequenceAfter sequence else sequence

theorem newConnectionProcess_outcome (schedulers : List (Option Nat)) {id : Nat}
    (listening : key.channel = .serverSocketChannel id) :
    outcome (newConnectionProcess schedulers key) memory =
      if key.isAcceptable then
        match outcome (registerAccepted schedulers key memory.readerWriterSequence)
          { memory with
            readerWriterSequence := sequenceAfter memory.readerWriterSequence } with
        | (.ok _, after) => (.ok false, after)
        | (.error exception, after) => (.error exception, after)
      else
        (.ok false, memory) := by
  cases acceptable : key.isAcceptable with
  | false => simp [newConnectionProcess, acceptable]
  | true =>
      simp only [newConnectionProcess, acceptable, listening, Channel.asServerSocketChannel,
        getAndIncrement, outcome_bind, outcome_get, outcome_modify, outcome_pure, if_true,
        sequenceAfter]
      rcases outcome (registerAccepted schedulers key memory.readerWriterSequence) _ with
        ⟨_ | _, after⟩ <;> rfl

/-- A listening key that is to be closed ends the loop: its channel is no `SocketChannel`. -/
theorem processSelected_listening {id : Nat} (listening : key.channel = .serverSocketChannel id) :
    outcome (processSelected (.newConnectionProcessor availableProcessors) key) memory =
      match if key.isValid then
          outcome (newConnectionProcess (readerWriters availableProcessors) key) memory
        else
          (.ok true, memory) with
      | (.ok false, after) => (.ok (), after)
      | (.ok true, after) => (.error .classCastException, after)
      | (.error (.io _), after) => (.error .classCastException, after)
      | (.error exception, after) => (.error exception, after) := by
  have process_eq : SelectorProcessor.process (.newConnectionProcessor availableProcessors) key =
      newConnectionProcess (readerWriters availableProcessors) key := rfl
  cases valid : key.isValid with
  | false =>
      simp [processSelected, valid, outcome_catchIOException, listening,
        SelectorProcessor.handleBeforeClose, Channel.asSocketChannel]
  | true =>
      simp only [processSelected, valid, process_eq, outcome_bind, outcome_catchIOException,
        if_true]
      rcases outcome (newConnectionProcess (readerWriters availableProcessors) key) memory with
        ⟨(_ | _ | _ | _ | _ | _) | (_ | _), after⟩
      all_goals
        simp [outcome_catchIOException, listening, SelectorProcessor.handleBeforeClose,
          Channel.asSocketChannel]

/-- A listening key that takes a connection. -/
theorem processSelected_acceptable {id : Nat} (listening : key.channel = .serverSocketChannel id)
    (valid : key.isValid = true) (acceptable : key.isAcceptable = true)
    {result : Except Throwable Unit} {after : Memory}
    (returned : outcome (registerAccepted (readerWriters availableProcessors) key
        memory.readerWriterSequence) { memory with
          readerWriterSequence := sequenceAfter memory.readerWriterSequence } = (result, after)) :
    ∃ ending, outcome (processSelected (.newConnectionProcessor availableProcessors) key) memory =
        (ending, after) ∧ ((∃ value, ending = .ok value) ↔ ∃ value, result = .ok value) := by
  rw [processSelected_listening listening, if_pos valid, newConnectionProcess_outcome _ listening,
    if_pos acceptable, returned]
  rcases result with (_ | _ | _ | _ | _ | _) | _
  all_goals exact ⟨_, rfl, by simp⟩

theorem processSelected_rounds (positive : 0 < availableProcessors)
    (fits : availableProcessors + 1 < 2 ^ 31) {id : Nat}
    (listening : key.channel = .serverSocketChannel id) :
    Rounds (processSelected (.newConnectionProcessor availableProcessors))
      Memory.readerWriterSequence (Selected.Bearable availableProcessors) Selected.advance key := by
  suffices exact_round : ∀ memory, ∃ ending after,
      outcome (processSelected (.newConnectionProcessor availableProcessors) key) memory =
        (ending, after) ∧
      ((∃ value, ending = .ok value) ↔
        key.Bearable availableProcessors memory.readerWriterSequence) ∧
      (key.isValid = true → after.readerWriterSequence =
        key.advance memory.readerWriterSequence) by
    constructor
    · intro memory
      obtain ⟨ending, after, execution, bearable_iff, -⟩ := exact_round memory
      rw [← bearable_iff, Survives, execution]
      simp
    · intro memory final execution
      obtain ⟨ending, after, ended, bearable_iff, advanced⟩ := exact_round memory
      obtain ⟨rfl, rfl⟩ : ending = .ok ⟨⟩ ∧ after = final := by simpa [ended] using execution
      exact advanced (bearable_iff.mp ⟨(), rfl⟩).1
  intro memory
  by_cases valid : key.isValid = true
  · by_cases acceptable : key.isAcceptable = true
    · obtain ⟨result, after, returned, sequence_eq, result_iff⟩ :=
        registerAccepted_outcome positive fits memory.readerWriterSequence
      obtain ⟨ending, execution, ending_iff⟩ :=
        processSelected_acceptable listening valid acceptable returned
      refine ⟨ending, after, execution, ?_, fun _ => ?_⟩
      · rw [ending_iff, result_iff, Selected.Bearable]
        simp [valid, acceptable]
      · rw [sequence_eq, Selected.advance, if_pos acceptable]
    · refine ⟨.ok (), memory, ?_, ?_, fun _ => ?_⟩
      · rw [processSelected_listening listening, if_pos valid,
          newConnectionProcess_outcome _ listening, if_neg acceptable]
      · simp [Selected.Bearable, valid, acceptable]
      · rw [Selected.advance, if_neg acceptable]
  · refine ⟨.error .classCastException, memory, ?_, ?_, fun was => (valid was).elim⟩
    · rw [processSelected_listening listening, if_neg valid]
    · simp [Selected.Bearable, valid]

end Listening

/-! ## Requests -/

/-- The request names a channel. -/
def RegisterRequests.Named (request : RegisterRequests) : Prop :=
  request.cChannel ≠ none ∨ request.sChannel ≠ none

instance (request : RegisterRequests) : Decidable request.Named :=
  inferInstanceAs (Decidable (_ ∨ _))

theorem closeChannel_safe (drained : Drained) (channel : Channel) :
    Safe (catchIOException (closeChannel drained channel) (pure ())) :=
  Tame.caught ((safe_updateKey _ _).tame.bind fun _ => tame_io _) (safe_pure _)

theorem setupChannel_safe (drained : Drained) (channel : Channel) :
    Safe (catchException (setupChannel drained channel)
      (catchIOException (closeChannel drained channel) (pure ()))) := by
  intro memory
  rw [setupChannel]
  cases drained.setup with
  | ok _ =>
      obtain ⟨value, after, returned, sequence_eq⟩ :=
        safe_updateKey channel (fun key =>
          { key with interest := drained.request.interest, attachment := none }) memory
      exact ⟨value, after, by rw [outcome_catchException, returned], sequence_eq⟩
  | error exception =>
      obtain ⟨value, after, handled, sequence_eq⟩ := closeChannel_safe drained channel memory
      exact ⟨value, after, by rw [outcome_catchException]; exact handled, sequence_eq⟩

theorem registerRequest_safe {drained : Drained} (named : drained.request.Named) :
    Safe (registerRequest drained) := by
  rw [registerRequest]
  cases client : drained.request.cChannel with
  | some channel => exact setupChannel_safe drained (.socketChannel channel)
  | none =>
      cases listener : drained.request.sChannel with
      | some channel => exact setupChannel_safe drained (.serverSocketChannel channel)
      | none => simp [RegisterRequests.Named, client, listener] at named

/-- The handler of a request without a channel throws once more. -/
theorem registerRequest_unnamed {drained : Drained} (unnamed : ¬ drained.request.Named)
    (memory : Memory) :
    outcome (registerRequest drained) memory = (.error .nullPointerException, memory) := by
  obtain ⟨client, listener⟩ :
      drained.request.cChannel = none ∧ drained.request.sChannel = none := by
    simpa [RegisterRequests.Named] using unnamed
  simp [registerRequest, client, listener, outcome_catchException, outcome_catchIOException]

theorem registerRequest_rounds (drained : Drained) :
    Rounds registerRequest Memory.readerWriterSequence (fun drained _ => drained.request.Named)
      (fun _ sequence => sequence) drained := by
  constructor
  · intro memory
    by_cases named : drained.request.Named
    · simp [named, (registerRequest_safe named).survives memory]
    · simp [named, Survives, registerRequest_unnamed named]
  · intro memory after execution
    by_cases named : drained.request.Named
    · exact (registerRequest_safe named).keeps execution
    · simp [registerRequest_unnamed named] at execution

/-! ## The loop -/

namespace SelectorProcessor

/-- The keys a processor is given: listening keys to the one, client keys to the other. -/
def Serves : SelectorProcessor → Channel → Prop
  | .newConnectionProcessor _, channel => ∃ id, channel = .serverSocketChannel id
  | .readWriteProcessor, channel => ∃ id, channel = .socketChannel id

/-- There is a processor, and the length of `readerWriters` is an `int`. -/
def Sized : SelectorProcessor → Prop
  | .newConnectionProcessor availableProcessors =>
      0 < availableProcessors ∧ availableProcessors + 1 < 2 ^ 31
  | .readWriteProcessor => True

/-- What a selected key must be for its round to end well. -/
def Bearable : SelectorProcessor → Selected → Int → Prop
  | .newConnectionProcessor availableProcessors, key, sequence =>
      key.Bearable availableProcessors sequence
  | .readWriteProcessor, _, _ => True

/-- The value of `readerWriterSequence` after a key. -/
def advance : SelectorProcessor → Selected → Int → Int
  | .newConnectionProcessor _, key, sequence => key.advance sequence
  | .readWriteProcessor, _, sequence => sequence

theorem rounds {processor : SelectorProcessor} (sized : processor.Sized) {key : Selected}
    (serves : processor.Serves key.channel) :
    Rounds (processSelected processor) Memory.readerWriterSequence processor.Bearable
      processor.advance key := by
  cases processor with
  | newConnectionProcessor availableProcessors =>
      obtain ⟨id, listening⟩ := serves
      exact processSelected_rounds sized.1 sized.2 listening
  | readWriteProcessor =>
      obtain ⟨id, client⟩ := serves
      have safe := processSelected_safe client
      constructor
      · intro memory
        simp [Bearable, safe.survives memory]
      · intro memory after execution
        exact safe.keeps execution

end SelectorProcessor

/-- What one round of the outer loop must meet. -/
def Iteration.Bearable (processor : SelectorProcessor) (iteration : Iteration) (sequence : Int) :
    Prop :=
  Threaded processor.Bearable processor.advance iteration.selected sequence ∧
    ∀ drained ∈ iteration.drained, drained.request.Named

/-- The value of `readerWriterSequence` after a round. -/
def Iteration.advance (processor : SelectorProcessor) (iteration : Iteration) (sequence : Int) :
    Int :=
  iteration.selected.foldl (fun current key => processor.advance key current) sequence

theorem iteration_rounds {processor : SelectorProcessor} (sized : processor.Sized)
    {iteration : Iteration} (serves : ∀ key ∈ iteration.selected, processor.Serves key.channel) :
    Rounds (Worker.iteration processor) Memory.readerWriterSequence (Iteration.Bearable processor)
      (Iteration.advance processor) iteration := by
  have selection : Safe (catchIOException (io iteration.select) (pure ())) :=
    (tame_io _).caught (safe_pure _)
  have keys := fun key member => processor.rounds sized (serves key member)
  have requests := fun drained (_ : drained ∈ iteration.drained) => registerRequest_rounds drained
  constructor
  · intro memory
    obtain ⟨value, polled, returned, polled_eq⟩ := selection memory
    rw [Worker.iteration, survives_bind, Iteration.Bearable, ← polled_eq,
      ← forM_survives_iff keys polled]
    constructor
    · rintro ⟨_, _, same, rest⟩
      obtain ⟨-, rfl⟩ := Prod.mk.inj (returned.symm.trans same)
      obtain ⟨_, middle, processed, drained⟩ := survives_bind.mp rest
      refine ⟨⟨_, middle, processed⟩, ?_⟩
      rwa [forM_survives_iff requests, threaded_const_iff] at drained
    · rintro ⟨⟨_, middle, processed⟩, named⟩
      refine ⟨value, polled, returned, survives_bind.mpr ⟨_, middle, processed, ?_⟩⟩
      rwa [forM_survives_iff requests, threaded_const_iff]
  · intro memory after execution
    obtain ⟨value, polled, returned, polled_eq⟩ := selection memory
    rw [Worker.iteration, outcome_bind, returned] at execution
    simp only [outcome_bind] at execution
    split at execution
    · rename_i middle processed
      have drained_eq := forM_advances requests execution
      have processed_eq := forM_advances keys processed
      rw [List.foldl_fixed' fun _ => rfl] at drained_eq
      rw [drained_eq, processed_eq, polled_eq, Iteration.advance]
    · simp at execution

/-- The conditions of all rounds are conditions on the keys and the requests in their order. -/
theorem threaded_iterations {processor : SelectorProcessor} {iterations : List Iteration}
    {sequence : Int} :
    Threaded (Iteration.Bearable processor) (Iteration.advance processor) iterations sequence ↔
      Threaded processor.Bearable processor.advance (iterations.flatMap Iteration.selected)
          sequence ∧
        ∀ drained ∈ iterations.flatMap Iteration.drained, drained.request.Named := by
  induction iterations generalizing sequence with
  | nil => simp [Threaded]
  | cons iteration iterations ih =>
      rw [Threaded, ih, List.flatMap_cons, List.flatMap_cons, threaded_append, Iteration.Bearable]
      simp only [List.mem_append, Iteration.advance]
      constructor
      · rintro ⟨⟨here, named⟩, later, named_later⟩
        refine ⟨⟨here, later⟩, ?_⟩
        rintro drained (member | member)
        · exact named drained member
        · exact named_later drained member
      · rintro ⟨⟨here, later⟩, named⟩
        exact ⟨⟨here, fun drained member => named drained (Or.inl member)⟩, later,
          fun drained member => named drained (Or.inr member)⟩

/-- `Worker.run` ends by its loop condition exactly when every selected listening key is valid and
takes a connection to a running scheduler, and every request names a channel. -/
theorem worker_survives_iff {processor : SelectorProcessor} (sized : processor.Sized)
    (memory : Memory) {iterations : List Iteration}
    (serves : ∀ iteration ∈ iterations, ∀ key ∈ iteration.selected,
      processor.Serves key.channel) :
    Survives (Worker.run processor iterations) memory ↔
      Threaded processor.Bearable processor.advance (iterations.flatMap Iteration.selected)
          memory.readerWriterSequence ∧
        ∀ drained ∈ iterations.flatMap Iteration.drained, drained.request.Named := by
  have rounds := fun iteration member => iteration_rounds sized (serves iteration member)
  rw [Worker.run, forM_survives_iff rounds, threaded_iterations]

/-! ## Runs of one round -/

/-- The memory of a new server. -/
def Memory.initial : Memory where
  keys _ :=
    { interest := .OP_READ, attachment := none, received := [], sent := [], closed := false }
  readerWriterSequence := 0
  offers := []

/-- A listening key that is ready to accept. -/
def acceptableKey (accept : Except IOException (Option Nat)) : Selected where
  channel := .serverSocketChannel 0
  isValid := true
  isAcceptable := true
  isReadable := false
  isWritable := false
  accept := accept
  read := .ok none
  write := .ok 0
  close := .ok ()

/-- A round that registers a listening channel after it took a connection from another one. -/
def acceptingRound : Iteration where
  select := .ok ()
  selected := [acceptableKey (.ok (some 1))]
  drained :=
    [{ request := .ofServerSocketChannel .OP_ACCEPT (some 0), setup := .ok (), close := .ok () }]

theorem worker_survives_iff_accepting :
    Survives (Worker.run (.newConnectionProcessor 2) [acceptingRound]) Memory.initial := by
  have sized : (SelectorProcessor.newConnectionProcessor 2).Sized := ⟨by decide, by decide⟩
  have serves : ∀ iteration ∈ [acceptingRound], ∀ key ∈ iteration.selected,
      (SelectorProcessor.newConnectionProcessor 2).Serves key.channel := by
    simp [acceptingRound, acceptableKey, SelectorProcessor.Serves]
  refine (worker_survives_iff sized Memory.initial serves).mpr ⟨?_, by decide⟩
  exact ⟨⟨rfl, fun _ => ⟨targeted_of_nonneg (le_refl 0), some 1, rfl⟩⟩, trivial⟩

/-- A round in which `accept` throws, for want of descriptors. -/
def refusingRound : Iteration where
  select := .ok ()
  selected := [acceptableKey (.error {})]
  drained := []

/-- A round that takes the request of a connection that was gone when `accept` was called. -/
def abortedRound : Iteration where
  select := .ok ()
  selected := []
  drained :=
    [{ request := .ofSocketChannel .OP_READ none, setup := .ok (), close := .ok () }]

/-- A failing `accept` ends the thread of the listening scheduler, and an `accept` that returns
`null` ends the thread of the scheduler it is handed to. -/
theorem worker_dies :
    ¬ Survives (Worker.run (.newConnectionProcessor 2) [refusingRound]) Memory.initial ∧
      ¬ Survives (Worker.run .readWriteProcessor [abortedRound]) Memory.initial := by
  constructor
  · rintro ⟨value, after, execution⟩
    have thrown : (outcome (Worker.run (.newConnectionProcessor 2) [refusingRound])
        Memory.initial).1 = .error .classCastException := rfl
    simp [execution] at thrown
  · rintro ⟨value, after, execution⟩
    have thrown : (outcome (Worker.run .readWriteProcessor [abortedRound])
        Memory.initial).1 = .error .nullPointerException := rfl
    simp [execution] at thrown

end Mrps.Java
