import Mrps.EchoPipe
import Mrps.Java.Survival

/-!
# The echo of a client key

The interest set of a client key says which way its buffer is used: for reading while nothing is
owed, for writing while the buffer holds what is owed.  Under any sequence of selections each key
shows an echo pipe.
-/

namespace Mrps.Java

open EventSystem Throwing

/-! ## What a round does to its key -/

/-- What a key has read and not written yet: the rest of its buffer while it waits to write. -/
def SelectionKey.owed (key : SelectionKey) : List Byte :=
  match key.interest, key.attachment with
  | .OP_WRITE, some buffer => buffer.rest
  | _, _ => []

/-- The buffer `process` works with. -/
def SelectionKey.buffer (key : SelectionKey) : ByteBuffer :=
  key.attachment.getD (.allocateDirect 8192)

namespace Selected

variable (key : Selected) (state : SelectionKey)

/-- `handleBeforeClose` and `close`. -/
def closing : SelectionKey := { state with attachment := none, closed := true }

/-- The key after `read` found `found`. -/
def filling (found : List Byte) : SelectionKey :=
  { state with
    attachment := some (state.buffer.clear.put (found.take state.buffer.clear.remaining)).flip
    received := state.received ++ found.take state.buffer.clear.remaining
    interest := .OP_WRITE }

/-- The key after `write` could take `limit` bytes. -/
def draining (limit : Nat) : SelectionKey :=
  { state with
    attachment := some (state.buffer.advance (min limit state.buffer.remaining))
    sent := state.sent ++ state.buffer.rest.take (min limit state.buffer.remaining)
    interest :=
      if (state.buffer.advance (min limit state.buffer.remaining)).remaining = 0 then .OP_READ
      else state.interest }

/-- The key of a client after a round of the loop over the selected keys. -/
def processed : SelectionKey :=
  if key.isValid = false then closing state
  else if key.isReadable then
    match key.read with
    | .ok (some found) => filling state found
    | .ok none | .error _ => closing state
  else if key.isWritable then
    match key.write with
    | .ok limit => draining state limit
    | .error _ => closing state
  else { state with attachment := some state.buffer }

/-- Only a read that did not fail turns the interest to writing. -/
theorem processed_writing {key : Selected} {state : SelectionKey}
    (writing : (key.processed state).interest = .OP_WRITE) :
    state.interest = .OP_WRITE ∨
      key.isValid = true ∧ key.isReadable = true ∧ ∃ found, key.read = .ok (some found) := by
  rw [processed] at writing
  split at writing
  · exact .inl writing
  · rename_i valid
    split at writing
    · rename_i readable
      rcases read_eq : key.read with exception | _ | found
      · exact .inl (by simpa [read_eq, closing] using writing)
      · exact .inl (by simpa [read_eq, closing] using writing)
      · exact .inr ⟨by simpa using valid, readable, found, rfl⟩
    · split at writing
      · rcases write_eq : key.write with exception | limit
        · exact .inl (by simpa [write_eq, closing] using writing)
        · simp only [write_eq, draining] at writing
          split at writing
          · cases writing
          · exact .inl writing
      · exact .inl writing

end Selected

section Rounds

variable {memory : Memory} {key : Selected} {id : Nat}

/-- The memory with the key of one channel replaced. -/
def Memory.withKey (memory : Memory) (channel : Channel) (state : SelectionKey) : Memory :=
  { memory with keys := Function.update memory.keys channel state }

@[simp] theorem Memory.withKey_keys_self (channel : Channel) (state : SelectionKey) :
    (memory.withKey channel state).keys channel = state := by
  simp [Memory.withKey]

@[simp] theorem Memory.withKey_withKey (channel : Channel) (first second : SelectionKey) :
    (memory.withKey channel first).withKey channel second = memory.withKey channel second := by
  simp [Memory.withKey]

theorem Memory.withKey_keys_of_ne {channel other : Channel} (ne : other ≠ channel)
    (state : SelectionKey) : (memory.withKey channel state).keys other = memory.keys other := by
  simp [Memory.withKey, ne]

theorem outcome_attachedBuffer (channel : Channel) :
    outcome (attachedBuffer channel) memory =
      (.ok (memory.keys channel).buffer, memory.withKey channel
        { memory.keys channel with attachment := some (memory.keys channel).buffer }) := by
  rw [attachedBuffer, outcome_bind, outcome_get]
  cases attached : (memory.keys channel).attachment with
  | some buffer =>
      have same : { memory.keys channel with attachment := some buffer } = memory.keys channel := by
        rw [← attached]
      simp [attached, SelectionKey.buffer, Memory.withKey, same]
  | none => simp [attached, SelectionKey.buffer, Memory.withKey]

theorem outcome_readIntoBuffer (buffer : ByteBuffer) :
    outcome (readIntoBuffer key buffer) memory =
      match key.read with
      | .ok (some found) =>
          (.ok false, memory.withKey key.channel
            { memory.keys key.channel with
              attachment := some (buffer.clear.put (found.take buffer.clear.remaining)).flip
              received :=
                (memory.keys key.channel).received ++ found.take buffer.clear.remaining
              interest := .OP_WRITE })
      | .ok none =>
          (.ok true, memory.withKey key.channel
            { memory.keys key.channel with attachment := some buffer.clear })
      | .error exception =>
          (.error (.io exception), memory.withKey key.channel
            { memory.keys key.channel with attachment := some buffer.clear }) := by
  rw [readIntoBuffer, outcome_bind, outcome_updateKey]
  rcases key.read with exception | _ | found <;> simp [Memory.withKey]

theorem outcome_writeFromBuffer (buffer : ByteBuffer) :
    outcome (writeFromBuffer key buffer) memory =
      match key.write with
      | .ok limit =>
          (.ok false, memory.withKey key.channel
            { memory.keys key.channel with
              attachment := some (buffer.advance (min limit buffer.remaining))
              sent := (memory.keys key.channel).sent ++
                buffer.rest.take (min limit buffer.remaining)
              interest :=
                if (buffer.advance (min limit buffer.remaining)).remaining = 0 then .OP_READ
                else (memory.keys key.channel).interest })
      | .error exception => (.error (.io exception), memory) := by
  rw [writeFromBuffer, outcome_bind]
  rcases key.write with exception | limit
  · rfl
  · by_cases drained : (buffer.advance (min limit buffer.remaining)).remaining = 0 <;>
      simp [drained, Memory.withKey]

theorem outcome_readWriteProcess (client : key.channel = .socketChannel id) :
    outcome (readWriteProcess key) memory =
      outcome
        (if key.isReadable then readIntoBuffer key (memory.keys key.channel).buffer
        else if key.isWritable then writeFromBuffer key (memory.keys key.channel).buffer
        else return false)
        (memory.withKey key.channel
          { memory.keys key.channel with
            attachment := some (memory.keys key.channel).buffer }) := by
  have cast_ok : outcome key.channel.asSocketChannel memory = (.ok id, memory) := by
    rw [client]
    rfl
  rw [readWriteProcess, outcome_bind, cast_ok]
  simp only [outcome_bind, outcome_attachedBuffer]

/-- Closing a client key never escapes the `catch`. -/
theorem outcome_close (client : key.channel = .socketChannel id) :
    outcome (catchIOException
        (do
          SelectorProcessor.readWriteProcessor.handleBeforeClose key.channel
          let _ ← key.channel.asSocketChannel
          updateKey key.channel fun state => { state with closed := true }
          io key.close)
        (pure ())) memory =
      (.ok (), memory.withKey key.channel (Selected.closing (memory.keys key.channel))) := by
  have cast_ok (memory : Memory) :
      outcome key.channel.asSocketChannel memory = (.ok id, memory) := by
    rw [client]
    rfl
  rw [outcome_catchIOException]
  rcases key.close with exception | _ <;>
    simp [SelectorProcessor.handleBeforeClose, cast_ok, Selected.closing, Memory.withKey]

theorem outcome_processSelected (client : key.channel = .socketChannel id) :
    outcome (processSelected .readWriteProcessor key) memory =
      (.ok (), memory.withKey key.channel (key.processed (memory.keys key.channel))) := by
  rw [processSelected, outcome_bind, outcome_catchIOException]
  cases valid : key.isValid with
  | false => simp [Selected.processed, valid, outcome_close client]
  | true =>
      rw [if_pos rfl, SelectorProcessor.process, outcome_readWriteProcess client]
      cases readable : key.isReadable with
      | true =>
          rw [if_pos rfl, outcome_readIntoBuffer]
          rcases read_eq : key.read with exception | _ | found <;>
            simp [Selected.processed, valid, readable, read_eq, outcome_close client,
              Selected.closing, Selected.filling]
      | false =>
          cases writable : key.isWritable with
          | true =>
              rw [if_neg (by simp), if_pos rfl, outcome_writeFromBuffer]
              rcases write_eq : key.write with exception | limit <;>
                simp [Selected.processed, valid, readable, writable, write_eq,
                  outcome_close client, Selected.closing, Selected.draining]
          | false => simp [Selected.processed, valid, readable, writable]

end Rounds

/-! ## Interest and buffer -/

namespace ByteBuffer

variable {buffer : ByteBuffer}

theorem rest_put_clear (bytes : List Byte) : (buffer.clear.put bytes).flip.rest = bytes := by
  have filled : Region.slice (Region.overwrite buffer.cells 0 bytes) 0 bytes.length = bytes :=
    Region.slice_overwrite_self (Nat.zero_le _)
  simpa [rest, flip, put, clear, remaining] using filled

theorem rest_advance (count : Nat) : (buffer.advance count).rest = buffer.rest.drop count := by
  simp [rest, advance, remaining, Region.drop_slice, Nat.sub_sub]

theorem rest_eq_nil (empty : buffer.remaining = 0) : buffer.rest = [] := by
  simp [rest, empty]

end ByteBuffer

/-- A key shows a pipe: histories agree, and until it is closed the key owes what is pending and
waits to write only with a buffer attached. -/
structure SelectionKey.Shows (key : SelectionKey) (pipe : EchoPipe Byte) : Prop where
  received : key.received = pipe.received
  sent : key.sent = pipe.sent
  owed : key.closed = false → key.owed = pipe.pending
  filled : key.closed = false → key.interest = .OP_WRITE → ∃ buffer, key.attachment = some buffer

/-- The ready set is part of the interest set. -/
def Selected.Ready (key : Selected) (state : SelectionKey) : Prop :=
  (key.isReadable = true → state.interest = .OP_READ) ∧
    (key.isWritable = true → state.interest = .OP_WRITE)

instance (key : Selected) (state : SelectionKey) : Decidable (key.Ready state) :=
  inferInstanceAs (Decidable (_ ∧ _))

namespace SelectionKey

variable {state : SelectionKey} {pipe : EchoPipe Byte}

theorem owed_reading (reading : state.interest = .OP_READ) : state.owed = [] := by
  simp [owed, reading]

theorem owed_writing (writing : state.interest = .OP_WRITE) {buffer : ByteBuffer}
    (attached : state.attachment = some buffer) : state.owed = buffer.rest := by
  simp [owed, writing, attached]

theorem Shows.closing (shows : state.Shows pipe) : (Selected.closing state).Shows pipe :=
  { received := shows.received
    sent := shows.sent
    owed := by simp [Selected.closing]
    filled := by simp [Selected.closing] }

/-- Reading starts with nothing owed, so clearing the buffer loses nothing. -/
theorem Shows.filling (shows : state.Shows pipe) (is_open : state.closed = false)
    (reading : state.interest = .OP_READ) (found : List Byte) :
    (Selected.filling state found).Shows
      (pipe.deliver (found.take state.buffer.clear.remaining)) := by
  have nothing : pipe.pending = [] := by rw [← shows.owed is_open, owed_reading reading]
  refine { received := ?_, sent := ?_, owed := ?_, filled := ?_ }
  · simp [Selected.filling, shows.received]
  · simp [Selected.filling, shows.sent]
  · intro _
    rw [owed_writing rfl rfl, ByteBuffer.rest_put_clear]
    simp [nothing]
  · exact fun _ _ => ⟨_, rfl⟩

/-- Writing takes from the front of what is owed, and the interest turns when nothing is left. -/
theorem Shows.draining (shows : state.Shows pipe) (is_open : state.closed = false)
    (writing : state.interest = .OP_WRITE) (limit : Nat) :
    (Selected.draining state limit).Shows
      (pipe.accept (min limit state.buffer.remaining)) := by
  obtain ⟨buffer, attached⟩ := shows.filled is_open writing
  have buffer_eq : state.buffer = buffer := by simp [SelectionKey.buffer, attached]
  have pending_eq : pipe.pending = buffer.rest := by
    rw [← shows.owed is_open, owed_writing writing attached]
  rw [buffer_eq]
  have after : (buffer.advance (min limit buffer.remaining)).rest =
      (pipe.accept (min limit buffer.remaining)).pending := by
    rw [ByteBuffer.rest_advance, EchoPipe.accept_pending, pending_eq]
  refine { received := ?_, sent := ?_, owed := ?_, filled := ?_ }
  · simp [Selected.draining, shows.received]
  · simp [Selected.draining, shows.sent, buffer_eq, pending_eq]
  · intro _
    by_cases drained : (buffer.advance (min limit buffer.remaining)).remaining = 0
    · rw [owed_reading (by simp [Selected.draining, buffer_eq, drained]), ← after,
        ByteBuffer.rest_eq_nil drained]
    · rw [owed_writing (by simp [Selected.draining, buffer_eq, drained, writing])
        (by simp [Selected.draining, buffer_eq]; rfl), after]
  · exact fun _ _ => ⟨_, rfl⟩

theorem Shows.attaching (shows : state.Shows pipe) :
    SelectionKey.Shows { state with attachment := some state.buffer } pipe := by
  refine { received := shows.received, sent := shows.sent, owed := ?_, filled := ?_ }
  · intro is_open
    rw [← shows.owed is_open]
    cases interest_eq : state.interest with
    | OP_READ => simp [SelectionKey.owed, interest_eq]
    | OP_ACCEPT => simp [SelectionKey.owed, interest_eq]
    | OP_WRITE =>
        obtain ⟨buffer, attached⟩ := shows.filled is_open interest_eq
        simp [SelectionKey.owed, interest_eq, SelectionKey.buffer, attached]
  · exact fun _ _ => ⟨_, rfl⟩

/-- A round of the loop continues the pipe its key shows. -/
theorem Shows.processed {key : Selected} (shows : state.Shows pipe) (ready : key.Ready state)
    (valid : key.isValid = true → state.closed = false) :
    ∃ events later, EchoPipe.system.run pipe events = some later ∧
      (key.processed state).Shows later := by
  rw [Selected.processed]
  split
  · exact ⟨[], pipe, rfl, shows.closing⟩
  · rename_i is_valid
    have is_open := valid (by simpa using is_valid)
    split
    · rename_i readable
      rcases key.read with exception | _ | found
      · exact ⟨[], pipe, rfl, shows.closing⟩
      · exact ⟨[], pipe, rfl, shows.closing⟩
      · exact ⟨[.deliver _], _, rfl, shows.filling is_open (ready.1 readable) found⟩
    · split
      · rename_i writable
        rcases key.write with exception | limit
        · exact ⟨[], pipe, rfl, shows.closing⟩
        · exact ⟨[.accept _], _, rfl, shows.draining is_open (ready.2 writable) limit⟩
      · exact ⟨[], pipe, rfl, shows.attaching⟩

end SelectionKey

/-! ## All keys of a scheduler -/

/-- A scheduler of client keys: its memory and the channels registered so far. -/
structure ReadWriter where
  memory : Memory
  registered : List Nat

/-- A step of its loop. -/
inductive ReadWriterEvent where
  /-- A round over the selected keys. -/
  | selected (key : Selected)
  /-- A round over the requests. -/
  | drained (drained : Drained)

/-- The event is a read of the channel that did not fail. -/
def ReadWriterEvent.Fills (id : Nat) : ReadWriterEvent → Prop
  | .selected key =>
      key.channel = .socketChannel id ∧ key.isValid = true ∧ key.isReadable = true ∧
        ∃ found, key.read = .ok (some found)
  | .drained _ => False

namespace ReadWriter

/-- A scheduler without keys. -/
def started : ReadWriter := { memory := .initial, registered := [] }

/-- The key of a client channel. -/
def key (server : ReadWriter) (id : Nat) : SelectionKey := server.memory.keys (.socketChannel id)

/-- A selected key is registered; its ready set is part of its interest set, and it is no longer
valid once its channel is closed. -/
def Selectable (server : ReadWriter) (key : Selected) : Prop :=
  match key.channel with
  | .socketChannel id =>
      id ∈ server.registered ∧ key.Ready (server.key id) ∧
        (key.isValid = true → (server.key id).closed = false)
  | .serverSocketChannel _ => False

instance (server : ReadWriter) (key : Selected) : Decidable (server.Selectable key) := by
  unfold Selectable
  split <;> infer_instance

/-- The request of an accepted channel, which is a new object. -/
def Fresh (server : ReadWriter) (drained : Drained) (id : Nat) : Prop :=
  drained.request = .ofSocketChannel .OP_READ (some id) ∧ id ∉ server.registered

instance (server : ReadWriter) (drained : Drained) (id : Nat) :
    Decidable (server.Fresh drained id) := inferInstanceAs (Decidable (_ ∧ _))

/-- One step; no step throws. -/
def next (server : ReadWriter) : ReadWriterEvent → Option ReadWriter
  | .selected key =>
      if server.Selectable key then
        some { server with
          memory := (outcome (processSelected .readWriteProcessor key) server.memory).2 }
      else none
  | .drained drained =>
      drained.request.cChannel.bind fun id =>
        if server.Fresh drained id then
          some
            { memory := (outcome (registerRequest drained) server.memory).2
              registered := id :: server.registered }
        else none

end ReadWriter

/-- The runs of a scheduler of client keys. -/
def selections : EventSystem ReadWriter ReadWriterEvent := { step := ReadWriter.next }

namespace ReadWriter

variable {server after : ReadWriter} {event : ReadWriterEvent}

/-- The key of a drained request is reset, or its channel closed. -/
theorem outcome_registerRequest {drained : Drained} {id : Nat} (memory : Memory)
    (request_eq : drained.request = .ofSocketChannel .OP_READ (some id)) :
    ∃ state, (outcome (registerRequest drained) memory).2 =
        memory.withKey (.socketChannel id) state ∧
      (state = { memory.keys (.socketChannel id) with interest := .OP_READ, attachment := none } ∨
        state = { memory.keys (.socketChannel id) with closed := true }) := by
  rw [registerRequest, outcome_catchException]
  simp only [request_eq, RegisterRequests.ofSocketChannel, setupChannel, closeChannel]
  cases drained.setup with
  | ok _ => exact ⟨_, rfl, .inl rfl⟩
  | error exception =>
      simp only [outcome_throw]
      rw [outcome_catchIOException]
      cases drained.close with
      | ok _ => exact ⟨_, rfl, .inr rfl⟩
      | error exception => exact ⟨_, rfl, .inr rfl⟩

theorem next_cases (step : server.next event = some after) :
    (∃ key id, event = .selected key ∧ key.channel = .socketChannel id ∧ id ∈ server.registered ∧
      key.Ready (server.key id) ∧ (key.isValid = true → (server.key id).closed = false) ∧
      after = { server with
        memory := server.memory.withKey (.socketChannel id) (key.processed (server.key id)) }) ∨
    ∃ drained id state, event = .drained drained ∧ id ∉ server.registered ∧
      (state = { server.key id with interest := .OP_READ, attachment := none } ∨
        state = { server.key id with closed := true }) ∧
      after =
        { memory := server.memory.withKey (.socketChannel id) state
          registered := id :: server.registered } := by
  cases event with
  | selected key =>
      simp only [next] at step
      split at step
      · rename_i selectable
        rcases channel_eq : key.channel with id | id
        · simp [Selectable, channel_eq] at selectable
        · obtain ⟨member, ready, valid⟩ : id ∈ server.registered ∧ key.Ready (server.key id) ∧
              (key.isValid = true → (server.key id).closed = false) := by
            simpa only [Selectable, channel_eq] using selectable
          refine .inl ⟨key, id, rfl, channel_eq, member, ready, valid, ?_⟩
          rw [outcome_processSelected channel_eq, channel_eq] at step
          exact (Option.some.inj step).symm
      · cases step
  | drained drained =>
      obtain ⟨id, -, taken⟩ := Option.bind_eq_some_iff.mp step
      split at taken
      · rename_i fresh
        obtain ⟨state, memory_eq, state_eq⟩ := outcome_registerRequest server.memory fresh.1
        rw [memory_eq] at taken
        exact .inr ⟨drained, id, state, rfl, fresh.2, state_eq, (Option.some.inj taken).symm⟩
      · cases taken

/-- A key shows a pipe, which is still empty before its registration. -/
def Follows (id : Nat) (server : ReadWriter) (pipe : EchoPipe Byte) : Prop :=
  (server.key id).Shows pipe ∧ (id ∉ server.registered → pipe.pending = [])

theorem key_withKey_self (id : Nat) (state : SelectionKey) (registered : List Nat) :
    key { memory := server.memory.withKey (.socketChannel id) state, registered } id = state :=
  Memory.withKey_keys_self _ _

theorem key_withKey_of_ne {id other : Nat} (ne : other ≠ id) (state : SelectionKey)
    (registered : List Nat) :
    key { memory := server.memory.withKey (.socketChannel id) state, registered } other =
      server.key other :=
  Memory.withKey_keys_of_ne (by simpa using ne) _

/-- Every key of a scheduler refines the echo pipe. -/
theorem selections_simulate (id : Nat) :
    Simulation selections EchoPipe.system (Follows id) := by
  intro server event after pipe follows step
  obtain ⟨shows, unregistered⟩ := follows
  rcases next_cases step with ⟨key, place, -, -, member, ready, valid, rfl⟩ |
    ⟨drained, place, state, -, fresh, state_eq, rfl⟩
  · by_cases here : id = place
    · subst here
      obtain ⟨events, later, execution, later_shows⟩ := shows.processed ready valid
      refine ⟨events, later, execution, ?_, fun outside => absurd member outside⟩
      rw [key_withKey_self]
      exact later_shows
    · refine ⟨[], pipe, rfl, ?_, unregistered⟩
      rw [key_withKey_of_ne here]
      exact shows
  · by_cases here : id = place
    · subst here
      refine ⟨[], pipe, rfl, ?_, fun outside => absurd List.mem_cons_self outside⟩
      rw [key_withKey_self]
      rcases state_eq with rfl | rfl
      · refine { received := shows.received, sent := shows.sent, owed := ?_, filled := ?_ }
        · intro _
          rw [SelectionKey.owed_reading rfl, unregistered fresh]
        · intro _ writing
          cases writing
      · exact { received := shows.received, sent := shows.sent, owed := by simp, filled := by simp }
    · refine ⟨[], pipe, rfl, ?_, fun outside => unregistered fun known => ?_⟩
      · rw [key_withKey_of_ne here]
        exact shows
      · exact outside (List.mem_cons_of_mem place known)

theorem follows_started (id : Nat) : started.Follows id EchoPipe.empty :=
  ⟨{ received := rfl, sent := rfl, owed := fun _ => rfl,
     filled := fun _ writing => by cases writing },
    fun _ => rfl⟩

theorem reachable_shows {events : List ReadWriterEvent}
    (execution : selections.run started events = some server) (id : Nat) :
    ∃ pipe, (server.key id).Shows pipe := by
  obtain ⟨_, pipe, -, follows⟩ := (selections_simulate id).run (follows_started id) execution
  exact ⟨pipe, follows.1⟩

theorem writing_next {id : Nat} (step : server.next event = some after)
    (writing : (after.key id).interest = .OP_WRITE) :
    (server.key id).interest = .OP_WRITE ∨ event.Fills id := by
  rcases next_cases step with ⟨key, place, rfl, channel_eq, -, -, -, rfl⟩ |
    ⟨drained, place, state, -, -, state_eq, rfl⟩
  · by_cases here : id = place
    · subst here
      rw [key_withKey_self] at writing
      exact (Selected.processed_writing writing).imp_right fun filled => ⟨channel_eq, filled⟩
    · rw [key_withKey_of_ne here] at writing
      exact .inl writing
  · by_cases here : id = place
    · subst here
      rw [key_withKey_self] at writing
      rcases state_eq with rfl | rfl
      · cases writing
      · exact .inl writing
    · rw [key_withKey_of_ne here] at writing
      exact .inl writing

theorem writing_run {id : Nat} {events : List ReadWriterEvent}
    (execution : selections.run server events = some after)
    (writing : (after.key id).interest = .OP_WRITE) :
    (server.key id).interest = .OP_WRITE ∨ ∃ event ∈ events, event.Fills id := by
  induction events generalizing server with
  | nil =>
      obtain rfl : server = after := by simpa using execution
      exact .inl writing
  | cons event events ih =>
      obtain ⟨middle, step, rest⟩ := selections.run_cons_eq_some execution
      rcases ih rest with before | ⟨filling, member, fills⟩
      · rcases writing_next step before with earlier | fills
        · exact .inl earlier
        · exact .inr ⟨event, List.mem_cons_self, fills⟩
      · exact .inr ⟨filling, List.mem_cons_of_mem event member, fills⟩

/-- What a call of `process` on a valid key finds: a buffer is cleared only when all that was read
has been written, a buffer is written only when it holds what was read and not written, and at the
end of the stream nothing is owed. -/
def Careful (server : ReadWriter) (event : ReadWriterEvent) (after : ReadWriter) : Prop :=
  match event with
  | .selected key =>
      key.isValid = true →
        let before := server.memory.keys key.channel
        (key.isReadable = true → before.sent = before.received) ∧
        (key.isReadable = false → key.isWritable = true →
          ∃ buffer, before.attachment = some buffer ∧
            before.sent ++ buffer.rest = before.received) ∧
        (key.isReadable = true → key.read = .ok none →
          (after.memory.keys key.channel).sent = (after.memory.keys key.channel).received)
  | .drained _ => True

theorem careful_next {events : List ReadWriterEvent}
    (execution : selections.run started events = some server)
    (step : server.next event = some after) : server.Careful event after := by
  rcases next_cases step with ⟨key, id, rfl, channel_eq, -, ready, valid, rfl⟩ |
    ⟨drained, place, state, rfl, -, -, -⟩
  · intro is_valid
    obtain ⟨pipe, shows⟩ := reachable_shows execution id
    have is_open := valid is_valid
    have conserved := pipe.sent_append_pending
    rw [← shows.sent, ← shows.received, ← shows.owed is_open] at conserved
    have key_eq : server.memory.keys key.channel = server.key id := by rw [channel_eq]; rfl
    have read_all (readable : key.isReadable = true) :
        (server.key id).sent = (server.key id).received := by
      rw [SelectionKey.owed_reading (ready.1 readable), List.append_nil] at conserved
      exact conserved
    refine ⟨?_, ?_, ?_⟩
    · rw [key_eq]
      exact read_all
    · intro _ writable
      obtain ⟨buffer, attached⟩ := shows.filled is_open (ready.2 writable)
      rw [SelectionKey.owed_writing (ready.2 writable) attached] at conserved
      rw [key_eq]
      exact ⟨buffer, attached, conserved⟩
    · intro readable ended
      rw [channel_eq, Memory.withKey_keys_self, Selected.processed]
      simpa [is_valid, readable, ended, Selected.closing] using read_all readable
  · trivial

/-- In every run of a scheduler of client keys, on every channel that is not closed: the bytes
written and those the buffer still owes make up the bytes read, every call of `process` is careful,
and a key waits for writing only after a read. -/
theorem key_echo (events : List ReadWriterEvent) (server : ReadWriter)
    (execution : selections.run started events = some server) :
    (∀ id, (server.key id).closed = false →
      (server.key id).sent ++ (server.key id).owed = (server.key id).received) ∧
    selections.Along Careful started events ∧
    ∀ id, (server.key id).interest = .OP_WRITE → ∃ event ∈ events, event.Fills id := by
  refine ⟨?_, ?_, ?_⟩
  · intro id is_open
    obtain ⟨pipe, shows⟩ := reachable_shows execution id
    rw [shows.sent, shows.received, shows.owed is_open]
    exact pipe.sent_append_pending
  · rw [along_iff]
    intro front event back middle next _ front_run step
    exact careful_next front_run step
  · intro id writing
    rcases writing_run execution writing with initially | filled
    · cases initially
    · exact filled

/-- A client key that is ready for reading. -/
def readableKey (found : List Byte) : Selected where
  channel := .socketChannel 7
  isValid := true
  isAcceptable := false
  isReadable := true
  isWritable := false
  accept := .ok none
  read := .ok (some found)
  write := .ok 0
  close := .ok ()

/-- The registration of its channel. -/
def accepted : Drained where
  request := .ofSocketChannel .OP_READ (some 7)
  setup := .ok ()
  close := .ok ()

theorem key_echo_read : ∃ server,
    selections.run started [.drained accepted, .selected (readableKey [1, 2, 3])] = some server ∧
      (server.key 7).sent ++ (server.key 7).owed = (server.key 7).received :=
  ⟨_, rfl, (key_echo [.drained accepted, .selected (readableKey [1, 2, 3])] _ rfl).1 7 rfl⟩

end ReadWriter

end Mrps.Java
