import Mrps.EdgeTriggered
import Mrps.EventSystem
import Mrps.Region

/-!
# One worker of `echo_tcp.cpp`

A `TestWorker` with every connection that was added to it.  Arrivals, the collection of events and
their processing interleave freely; descriptors are named by the order of `addConnection`, and a
collected batch names each of them once, so a descriptor number that is used again after `close`
never meets an old event.
-/

namespace Mrps.Epoll

open MachineInt EventSystem

/-- The size of the buffer of `processConnection`. -/
def BUFF_SIZE : Nat := 100

/-- The length of the array of `process`. -/
def MAX_EVENTS : Nat := 128

/-- What one call of `processConnection` does to its socket. -/
structure Processed where
  closed : Bool
  /-- The length given to `write`. -/
  offered : Option Nat
  /-- The bytes `write` took. -/
  written : List Byte
  deriving DecidableEq, Repr

/-- The value of `read` stored in a `size_t`. -/
def dataSize : RecvAnswer → Nat
  | .ok bytes => toUnsigned 64 bytes.length
  | .error _ => toUnsigned 64 (-1)

/-- `processConnection`, where `stack` is the memory from `buffer` on. -/
def processConnection (stack : List Byte) (read : RecvAnswer) (write : SendAnswer) : Processed :=
  let buffer := match read with
    | .ok bytes => Region.overwrite stack 0 bytes
    | .error _ => stack
  if dataSize read ≤ 0 then
    { closed := true, offered := none, written := [] }
  else
    { closed := false
      offered := some (dataSize read)
      written := match write with
        | .ok count => buffer.take count
        | .error _ => [] }

/-- An added connection. -/
structure Connection where
  socket : EdgeTriggered
  closed : Bool
  written : List Byte
  deriving DecidableEq, Repr

/-- The worker: its connections and the collected events that `process` has not reached yet. -/
structure TestWorker where
  connections : List Connection
  batch : List Nat
  deriving DecidableEq, Repr

/-- What can happen to a worker. -/
inductive WorkerEvent where
  /-- `addConnection` with what has already arrived on the socket. -/
  | addConnection (queue : List Byte) (ended : Bool)
  | arrive (index : Nat) (bytes : List Byte)
  | finish (index : Nat)
  | fail (index : Nat) (errno : Errno)
  /-- `epoll_wait` returns these sockets; none of them when it fails. -/
  | epollWait (ready : List Nat)
  /-- The loop of `process` reaches its next event. -/
  | processConnection (stack : List Byte) (write : SendAnswer)
  deriving DecidableEq, Repr

namespace TestWorker

/-- A worker before its first connection. -/
def started : TestWorker := { connections := [], batch := [] }

/-- The connection at `index` while its socket is open. -/
def opened (worker : TestWorker) (index : Nat) : Option Connection :=
  worker.connections[index]?.filter fun connection => !connection.closed

/-- Change the socket at `index`. -/
def onSocket (worker : TestWorker) (index : Nat) (connection : Connection)
    (change : EdgeTriggered → EdgeTriggered) : TestWorker :=
  { worker with
    connections := worker.connections.set index
      { connection with socket := change connection.socket } }

/-- Every listed socket is open and has an event pending. -/
def AllReady (worker : TestWorker) (ready : List Nat) : Prop :=
  ∀ index ∈ ready, ∃ connection ∈ worker.opened index, connection.socket.pending = true

instance (worker : TestWorker) (ready : List Nat) : Decidable (worker.AllReady ready) :=
  inferInstanceAs (Decidable (∀ index ∈ ready, ∃ connection ∈ worker.opened index, _))

/-- `epoll_wait` consumes the events it returns. -/
def collected (worker : TestWorker) (ready : List Nat) : TestWorker :=
  { connections := worker.connections.mapIdx fun index connection =>
      if index ∈ ready then { connection with socket := connection.socket.collect } else connection
    batch := ready }

/-- The worker after `processConnection` on the socket at `index`. -/
def processed (worker : TestWorker) (index : Nat) (connection : Connection) (stack : List Byte)
    (write : SendAnswer) : TestWorker :=
  let effect := Epoll.processConnection stack (connection.socket.readAnswer BUFF_SIZE) write
  { connections := worker.connections.set index
      { socket := connection.socket.afterRead BUFF_SIZE
        closed := effect.closed
        written := connection.written ++ effect.written }
    batch := worker.batch.tail }

/-- One step of a worker.  Bytes arrive before the end of the stream, and `write` takes at most
what it is offered. -/
def next (worker : TestWorker) : WorkerEvent → Option TestWorker
  | .addConnection queue ended =>
      some { worker with
        connections := worker.connections ++
          [{ socket := .register queue ended, closed := false, written := [] }] }
  | .arrive index bytes =>
      (worker.opened index).bind fun connection =>
        if bytes ≠ [] ∧ connection.socket.ended = false then
          some (worker.onSocket index connection (.arrive bytes))
        else none
  | .finish index =>
      (worker.opened index).map fun connection => worker.onSocket index connection .finish
  | .fail index errno =>
      (worker.opened index).map fun connection => worker.onSocket index connection (.fail errno)
  | .epollWait ready =>
      if worker.batch = [] ∧ ready.Nodup ∧ ready.length ≤ MAX_EVENTS ∧ worker.AllReady ready then
        some (worker.collected ready)
      else none
  | .processConnection stack write =>
      worker.batch.head?.bind fun index =>
        (worker.opened index).bind fun connection =>
          if ∀ count ∈ write.toOption,
              count ≤ dataSize (connection.socket.readAnswer BUFF_SIZE) then
            some (worker.processed index connection stack write)
          else none

end TestWorker

/-- The runs of a worker. -/
def workers : EventSystem TestWorker WorkerEvent := { step := TestWorker.next }

/-- The network brings something to the socket at `index`. -/
def WorkerEvent.Arrives (index : Nat) : WorkerEvent → Prop
  | .arrive place _ | .finish place | .fail place _ => place = index
  | .addConnection _ _ | .epollWait _ | .processConnection _ _ => False

instance (index : Nat) (event : WorkerEvent) : Decidable (event.Arrives index) := by
  cases event <;> unfold WorkerEvent.Arrives <;> infer_instance

namespace TestWorker

variable {worker after : TestWorker} {event : WorkerEvent} {index : Nat} {connection : Connection}

/-! ## What a step does to one socket -/

theorem next_cases (step : worker.next event = some after) :
    (∃ queue ended, event = .addConnection queue ended ∧
      after = { worker with
        connections := worker.connections ++
          [{ socket := .register queue ended, closed := false, written := [] }] }) ∨
    (∃ index connection change, event.Arrives index ∧ worker.opened index = some connection ∧
      (∀ socket : EdgeTriggered, (change socket).pending = true) ∧
      after = worker.onSocket index connection change) ∨
    (∃ ready, event = .epollWait ready ∧ worker.batch = [] ∧ ready.Nodup ∧
      worker.AllReady ready ∧ after = worker.collected ready) ∨
    ∃ stack write index rest connection, event = .processConnection stack write ∧
      worker.batch = index :: rest ∧ worker.opened index = some connection ∧
      after = worker.processed index connection stack write := by
  cases event with
  | addConnection queue ended => exact .inl ⟨queue, ended, rfl, (Option.some.inj step).symm⟩
  | arrive index bytes =>
      obtain ⟨connection, found, taken⟩ := Option.bind_eq_some_iff.mp step
      split at taken
      · exact .inr (.inl ⟨index, connection, .arrive bytes, rfl, found, fun _ => rfl,
          (Option.some.inj taken).symm⟩)
      · cases taken
  | finish index =>
      obtain ⟨connection, found, rfl⟩ := Option.map_eq_some_iff.mp step
      exact .inr (.inl ⟨index, connection, .finish, rfl, found, fun _ => rfl, rfl⟩)
  | fail index errno =>
      obtain ⟨connection, found, rfl⟩ := Option.map_eq_some_iff.mp step
      exact .inr (.inl ⟨index, connection, .fail errno, rfl, found, fun _ => rfl, rfl⟩)
  | epollWait ready =>
      simp only [next] at step
      split at step
      · rename_i guard
        obtain ⟨waiting, nodup, -, all_ready⟩ := guard
        exact .inr (.inr (.inl ⟨ready, rfl, waiting, nodup, all_ready,
          (Option.some.inj step).symm⟩))
      · cases step
  | processConnection stack write =>
      obtain ⟨index, head, rest⟩ := Option.bind_eq_some_iff.mp step
      obtain ⟨connection, found, taken⟩ := Option.bind_eq_some_iff.mp rest
      obtain ⟨tail, batch_eq⟩ := List.head?_eq_some_iff.mp head
      split at taken
      · exact .inr (.inr (.inr ⟨stack, write, index, tail, connection, rfl, batch_eq, found,
          (Option.some.inj taken).symm⟩))
      · cases taken

theorem next_processConnection {stack : List Byte} {write : SendAnswer}
    (step : worker.next (.processConnection stack write) = some after) :
    ∃ index rest connection, worker.batch = index :: rest ∧
      worker.opened index = some connection ∧
      after = worker.processed index connection stack write := by
  rcases next_cases step with ⟨_, _, event_eq, -⟩ | ⟨_, _, _, arrives, -⟩ | ⟨_, event_eq, -⟩ |
    ⟨_, _, index, rest, connection, event_eq, found⟩
  · cases event_eq
  · exact arrives.elim
  · cases event_eq
  · cases event_eq
    exact ⟨index, rest, connection, found⟩

theorem opened_eq_some : worker.opened index = some connection ↔
    worker.connections[index]? = some connection ∧ connection.closed = false := by
  simp [opened, Option.filter_eq_some_iff]

theorem opened_set_of_ne {other : Nat} {connections : List Connection} {batch rest : List Nat}
    (ne : other ≠ index) :
    opened { connections := connections.set index connection, batch } other =
      opened { connections, batch := rest } other := by
  simp [opened, List.getElem?_set_ne ne.symm]

theorem opened_set_self {before : Connection} {batch : List Nat}
    (found : worker.opened index = some before) :
    opened { connections := worker.connections.set index connection, batch } index =
      if connection.closed then none else some connection := by
  have inside := (List.getElem?_eq_some_iff.mp (opened_eq_some.mp found).1).1
  cases closed : connection.closed <;> simp [opened, inside, closed]

theorem opened_collected {ready : List Nat} :
    (worker.collected ready).opened index = (worker.opened index).map fun connection =>
      if index ∈ ready then { connection with socket := connection.socket.collect }
      else connection := by
  simp only [opened, collected, List.getElem?_mapIdx]
  cases worker.connections[index]? with
  | none => rfl
  | some connection =>
      by_cases taken : index ∈ ready <;> cases closed : connection.closed <;>
        simp [Option.filter, taken, closed]

theorem opened_append {added : Connection} (added_open : added.closed = false) :
    opened { worker with connections := worker.connections ++ [added] } index =
      if index = worker.connections.length then some added else worker.opened index := by
  rcases Nat.lt_trichotomy index worker.connections.length with less | rfl | more
  · simp [opened, List.getElem?_append_left less, less.ne]
  · simp [opened, added_open]
  · have outside : worker.connections.length ≤ index := more.le
    have new_outside : (worker.connections ++ [added]).length ≤ index := by simp; omega
    simp [opened, more.ne', List.getElem?_eq_none outside, List.getElem?_eq_none new_outside]

theorem opened_onSocket {change : EdgeTriggered → EdgeTriggered} {other : Nat}
    (found : worker.opened other = some connection) :
    (worker.onSocket other connection change).opened index =
      if index = other then some { connection with socket := change connection.socket }
      else worker.opened index := by
  have still_open := (opened_eq_some.mp found).2
  by_cases same : index = other
  · subst same
    rw [onSocket, opened_set_self found]
    simp [still_open]
  · rw [onSocket, opened_set_of_ne same, if_neg same]

theorem processed_closed_iff {stack : List Byte} {read : RecvAnswer} {write : SendAnswer}
    (small : ∀ bytes, read = .ok bytes → bytes.length ≤ BUFF_SIZE) :
    (processConnection stack read write).closed = true ↔ read = .ok [] := by
  rcases read with errno | bytes
  · have huge : toUnsigned 64 (-1) ≠ 0 := by decide
    simp [processConnection, dataSize, huge]
  · have short := small bytes rfl
    have size_eq : dataSize (.ok bytes) = bytes.length :=
      toUnsigned_eq rfl (by rw [BUFF_SIZE] at short; omega)
    cases bytes with
    | nil => simp [processConnection, size_eq]
    | cons byte bytes => simp [processConnection, size_eq]

/-! ## No input is stranded -/

/-- Bytes are queued on the open socket at `index`, and neither a pending nor a collected event
will make the worker read them. -/
def Stranded (worker : TestWorker) (index : Nat) : Prop :=
  ∃ connection, worker.opened index = some connection ∧ connection.socket.Overlooked ∧
    index ∉ worker.batch

/-- A collected batch names open sockets, each of them once. -/
structure Collected (worker : TestWorker) : Prop where
  nodup : worker.batch.Nodup
  opened : ∀ index ∈ worker.batch, ∃ connection, worker.opened index = some connection

theorem collected_started : started.Collected :=
  { nodup := List.nodup_nil, opened := by simp [started] }

theorem Collected.next (sound : worker.Collected) (step : worker.next event = some after) :
    after.Collected := by
  rcases next_cases step with ⟨queue, ended, -, rfl⟩ |
    ⟨place, connection, change, -, found, -, rfl⟩ |
    ⟨ready, -, -, nodup, all_ready, rfl⟩ |
    ⟨stack, write, head, rest, connection, -, batch_eq, found, rfl⟩
  · refine { nodup := sound.nodup, opened := ?_ }
    intro index member
    rw [opened_append rfl]
    split
    · exact ⟨_, rfl⟩
    · exact sound.opened index member
  · refine { nodup := sound.nodup, opened := ?_ }
    intro index member
    rw [opened_onSocket found]
    split
    · exact ⟨_, rfl⟩
    · exact sound.opened index member
  · refine { nodup, opened := ?_ }
    intro index member
    obtain ⟨connection, found, -⟩ := all_ready index member
    rw [opened_collected, Option.mem_def.mp found]
    exact ⟨_, rfl⟩
  · have nodup := sound.nodup
    rw [batch_eq, List.nodup_cons] at nodup
    refine { nodup := by simpa [processed, batch_eq] using nodup.2, opened := ?_ }
    intro index member
    have later : index ∈ rest := by simpa [processed, batch_eq] using member
    have ne : index ≠ head := fun same => nodup.1 (same ▸ later)
    rw [processed, opened_set_of_ne ne]
    exact sound.opened index (by simp [batch_eq, later])

/-- After `processConnection` its socket is closed, or empty, or has another event pending. -/
def Served (worker : TestWorker) (event : WorkerEvent) (after : TestWorker) : Prop :=
  match event with
  | .processConnection _ _ =>
      ∀ index ∈ worker.batch.head?, ∀ connection ∈ after.opened index,
        connection.socket.queue = [] ∨ connection.socket.pending = true
  | _ => True

/-- `processConnection` finds at most as many bytes as its buffer holds, unless something arrived
after its event was collected. -/
def Drains (worker : TestWorker) (event : WorkerEvent) (_ : TestWorker) : Prop :=
  match event with
  | .processConnection _ _ =>
      ∀ index ∈ worker.batch.head?, ∀ connection ∈ worker.opened index,
        connection.socket.queue.length ≤ BUFF_SIZE ∨ connection.socket.pending = true
  | _ => True

instance : Decidable (worker.Served event after) := by
  cases event <;> unfold Served <;> infer_instance

instance : Decidable (worker.Drains event after) := by
  cases event <;> unfold Drains <;> infer_instance

/-- What `processConnection` leaves of its socket is overlooked exactly when more than a buffer was
queued and nothing arrived since. -/
theorem opened_processed {stack : List Byte} {write : SendAnswer}
    (found : worker.opened index = some connection) :
    (∀ left ∈ (worker.processed index connection stack write).opened index,
      ¬ left.socket.Overlooked) ↔
        connection.socket.queue.length ≤ BUFF_SIZE ∨ connection.socket.pending = true := by
  have small : ∀ bytes, connection.socket.readAnswer BUFF_SIZE = .ok bytes →
      bytes.length ≤ BUFF_SIZE := by
    intro bytes answered
    rw [EdgeTriggered.readAnswer_ok answered]
    exact List.length_take_le _ _
  have overlooked : ¬ (connection.socket.afterRead BUFF_SIZE).Overlooked ↔
      connection.socket.queue.length ≤ BUFF_SIZE ∨ connection.socket.pending = true := by
    rw [EdgeTriggered.overlooked_afterRead, not_and_or, not_lt, Bool.not_eq_false]
  rw [processed, opened_set_self found, ← overlooked]
  split
  · -- a socket that is closed had nothing queued
    rename_i closed
    have empty := EdgeTriggered.queue_eq_nil_of_readAnswer (by decide)
      ((processed_closed_iff small).mp closed)
    simp [overlooked, empty]
  · simp

theorem served_iff_drains (step : worker.next event = some after) :
    worker.Served event after ↔ worker.Drains event after := by
  cases event with
  | processConnection stack write =>
      obtain ⟨index, rest, connection, batch_eq, found, rfl⟩ := next_processConnection step
      simp only [Served, Drains, batch_eq, List.head?_cons, Option.mem_some_iff, forall_eq',
        found, ← EdgeTriggered.not_overlooked_iff, opened_processed found]
  | addConnection | arrive | finish | fail | epollWait => exact Iff.rfl

theorem not_stranded_next (sound : ∀ index, ¬ worker.Stranded index)
    (step : worker.next event = some after) (drains : worker.Drains event after) (index : Nat) :
    ¬ after.Stranded index := by
  rintro ⟨left, left_open, overlooked, outside⟩
  rcases next_cases step with ⟨queue, ended, -, rfl⟩ |
    ⟨place, connection, change, -, found, rings, rfl⟩ |
    ⟨ready, -, waiting, -, -, rfl⟩ |
    ⟨stack, write, head, rest, connection, rfl, batch_eq, found, rfl⟩
  · rw [opened_append rfl] at left_open
    split at left_open
    · cases left_open
      exact EdgeTriggered.not_overlooked_register queue ended overlooked
    · exact sound index ⟨left, left_open, overlooked, outside⟩
  · rw [opened_onSocket found] at left_open
    split at left_open
    · cases left_open
      simp [EdgeTriggered.Overlooked, rings] at overlooked
    · exact sound index ⟨left, left_open, overlooked, outside⟩
  · have not_taken : index ∉ ready := outside
    rw [opened_collected] at left_open
    obtain ⟨before, before_open, rfl⟩ := Option.map_eq_some_iff.mp left_open
    rw [if_neg not_taken] at overlooked
    exact sound index ⟨before, before_open, overlooked, by simp [waiting]⟩
  · by_cases here : index = head
    · subst here
      have drained : connection.socket.queue.length ≤ BUFF_SIZE ∨
          connection.socket.pending = true := by
        simpa [Drains, batch_eq, found] using drains
      exact (opened_processed found).mpr drained left left_open overlooked
    · rw [processed, opened_set_of_ne here] at left_open
      refine sound index ⟨left, left_open, overlooked, ?_⟩
      simpa [processed, batch_eq, here] using outside

/-- What is stranded stays so until the peer or the network does something more. -/
theorem Stranded.next (stranded : worker.Stranded index) (step : worker.next event = some after)
    (silent : ¬ event.Arrives index) : after.Stranded index := by
  obtain ⟨connection, is_open, overlooked, outside⟩ := stranded
  rcases next_cases step with ⟨queue, ended, -, rfl⟩ |
    ⟨place, other, change, arrives, found, -, rfl⟩ |
    ⟨ready, -, -, -, all_ready, rfl⟩ | ⟨stack, write, head, rest, other, rfl, batch_eq, found, rfl⟩
  · refine ⟨connection, ?_, overlooked, outside⟩
    have inside := (List.getElem?_eq_some_iff.mp (opened_eq_some.mp is_open).1).1
    rw [opened_append rfl, if_neg inside.ne]
    exact is_open
  · have ne : index ≠ place := by
      rintro rfl
      cases event <;> simp_all [WorkerEvent.Arrives]
    refine ⟨connection, ?_, overlooked, outside⟩
    rw [opened_onSocket found, if_neg ne]
    exact is_open
  · have not_taken : index ∉ ready := by
      intro taken
      obtain ⟨ringing, ringing_open, pending⟩ := all_ready index taken
      cases is_open.symm.trans ringing_open
      simp [overlooked.2] at pending
    refine ⟨connection, ?_, overlooked, not_taken⟩
    rw [opened_collected, is_open, Option.map_some, if_neg not_taken]
  · have ne : index ≠ head := by
      rintro rfl
      simp [batch_eq] at outside
    refine ⟨connection, ?_, overlooked, ?_⟩
    · rw [processed, opened_set_of_ne ne]
      exact is_open
    · simpa [processed, batch_eq, ne] using outside

theorem Stranded.run {later : List WorkerEvent} (stranded : worker.Stranded index)
    (execution : workers.run worker later = some after)
    (silent : ∀ event ∈ later, ¬ event.Arrives index) : after.Stranded index := by
  induction later generalizing worker with
  | nil =>
      obtain rfl : worker = after := by simpa using execution
      exact stranded
  | cons event later ih =>
      obtain ⟨middle, step, rest⟩ := workers.run_cons_eq_some execution
      have still := stranded.next step (silent event List.mem_cons_self)
      exact ih still rest fun other member => silent other (List.mem_cons_of_mem event member)

/-- A read that leaves bytes behind while no event is pending strands them. -/
theorem Collected.strands {stack : List Byte} {write : SendAnswer} (sound : worker.Collected)
    (step : worker.next (.processConnection stack write) = some after)
    (overflows : ¬ worker.Drains (.processConnection stack write) after) :
    ∃ index, after.Stranded index := by
  obtain ⟨index, rest, connection, batch_eq, found, rfl⟩ := next_processConnection step
  have left_over : ∃ left ∈ (worker.processed index connection stack write).opened index,
      left.socket.Overlooked := by
    by_contra none_left
    push Not at none_left
    apply overflows
    simpa [Drains, batch_eq, found] using (opened_processed found).mp none_left
  obtain ⟨left, left_open, overlooked⟩ := left_over
  have nodup := sound.nodup
  rw [batch_eq, List.nodup_cons] at nodup
  exact ⟨index, left, left_open, overlooked, by simpa [processed, batch_eq] using nodup.1⟩

/-- A run serves every processed socket exactly when no read leaves bytes behind that nothing has
announced since; then no input is ever stranded.  After the first read that does, the rest waits
for as long as the peer stays silent. -/
theorem input_served_iff (events : List WorkerEvent) (worker : TestWorker)
    (execution : workers.run started events = some worker) :
    (workers.Along Served started events ↔ workers.Along Drains started events) ∧
    (workers.Along Drains started events → ∀ index, ¬ worker.Stranded index) ∧
    ∀ stack write after, workers.step worker (.processConnection stack write) = some after →
      ¬ worker.Drains (.processConnection stack write) after →
        ∃ index, ∀ later final, workers.run after later = some final →
          (∀ event ∈ later, ¬ event.Arrives index) → final.Stranded index := by
  refine ⟨?_, ?_, ?_⟩
  · have always : workers.Preserves fun _ => True := fun _ _ _ _ _ => trivial
    exact along_congr always
      (fun _ _ _ _ _ step => served_iff_drains step) trivial
  · intro drains
    exact drains.invariant (fun _ _ _ sound step drains => not_stranded_next sound step drains)
      (by simp [Stranded, opened, started]) execution
  · intro stack write after step overflows
    have preserves : workers.Preserves Collected := fun _ _ _ sound step => sound.next step
    have sound : worker.Collected := preserves.run collected_started execution
    obtain ⟨index, stranded⟩ := sound.strands step overflows
    exact ⟨index, fun later final execution silent => stranded.run execution silent⟩

/-- A worker whose only socket received `count` bytes in one burst, with the event collected. -/
def burst (count : Nat) : TestWorker :=
  { connections :=
      [{ socket :=
          { queue := List.replicate count 0, ended := false, failure := none, pending := false }
         closed := false
         written := [] }]
    batch := [0] }

theorem input_served_iff_burst : ¬ (burst 100).Stranded 0 := by
  have served := input_served_iff [.addConnection (List.replicate 100 0) false, .epollWait [0]]
    (burst 100) (by decide +kernel)
  exact served.2.1 (by decide +kernel) 0

/-- A burst of 101 bytes leaves its last byte in the queue, with no event to come. -/
theorem input_stranded : ∃ events worker, workers.run started events = some worker ∧
    ¬ workers.Along Served started events ∧ worker.Stranded 0 :=
  ⟨[.addConnection (List.replicate 101 0) false, .epollWait [0],
      .processConnection (List.replicate 100 1) (.ok 100)],
    { connections :=
        [{ socket := { queue := [0], ended := false, failure := none, pending := false }
           closed := false
           written := List.replicate 100 0 }]
      batch := [] },
    by decide +kernel, by decide +kernel, _, rfl, by decide, by decide⟩

end TestWorker

end Mrps.Epoll
