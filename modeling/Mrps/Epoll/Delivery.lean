import Mrps.EchoService
import Mrps.Epoll.EchoStream
import Mrps.Epoll.Main

/-!
# What the process of `echo_tcp.cpp` delivers

One socket of one worker, while `main` goes on accepting and all threads go on serving.  What
arrives at it waits in its queue until `processConnection` reads it, and what `write` accepts is
taken from what was read, as long as no `read` fails and no `write` follows one that left a rest.
-/

namespace Mrps.Epoll

open EventSystem

/-- What waits in the queue of a connection's socket. -/
def Connection.queue (connection : Connection) : List Byte := connection.socket.queue

/-! ## One worker -/

/-- What an event brings to the socket at `place`. -/
def TestWorker.brought (worker : TestWorker) (place : Nat) : WorkerEvent → List Byte
  | .addConnection queue _ => if worker.connections.length = place then queue else []
  | .arrive index bytes => if index = place then bytes else []
  | .finish _ | .fail _ _ | .epollWait _ | .processConnection _ _ => []

namespace TestWorker

variable {worker after : TestWorker} {own : WorkerEvent} {arrived : List Byte} {place : Nat}

/-- `processConnection` on the socket at `place` has its stack, its `read` succeeds, and its `write`
accepts bytes only when everything read before was accepted. -/
def Timely (worker : TestWorker) (place : Nat) (arrived : List Byte) : WorkerEvent → Prop
  | .processConnection stack write =>
      worker.batch.head? = some place → BUFF_SIZE ≤ stack.length ∧
        ∀ connection ∈ worker.opened place,
          ∃ bytes, connection.socket.readAnswer BUFF_SIZE = .ok bytes ∧
            ∀ count, write = .ok count → 0 < count →
              connection.written.length + connection.queue.length = arrived.length
  | .addConnection _ _ | .arrive _ _ | .finish _ | .fail _ _ | .epollWait _ => True

/-- What arrived is what was read and what is queued, and what was written is the front of what was
read. -/
def Echoing (worker : TestWorker) (place : Nat) (arrived : List Byte) : Prop :=
  ∃ read, arrived = read ++ streamAt Connection.queue worker.connections place ∧
    streamAt Connection.written worker.connections place <+: read

theorem echoing_started (place : Nat) : started.Echoing place [] := ⟨[], rfl, List.prefix_rfl⟩

theorem Echoing.queued {index : Nat} {connection : Connection} (changed : Connection)
    (bytes : List Byte) (echoing : worker.Echoing place arrived)
    (found : worker.connections[index]? = some connection)
    (queue_eq : changed.queue = connection.queue ++ bytes)
    (written_eq : changed.written = connection.written) :
    Echoing { worker with connections := worker.connections.set index changed } place
        (arrived ++ if index = place then bytes else []) ∧
      streamAt Connection.written worker.connections place <+:
        streamAt Connection.written (worker.connections.set index changed) place := by
  obtain ⟨read, arrived_eq, written⟩ := echoing
  have inside := (List.getElem?_eq_some_iff.mp found).1
  by_cases here : index = place
  · subst here
    rw [streamAt_of_found found] at arrived_eq written
    constructor
    · refine ⟨read, ?_, ?_⟩
      · simp [streamAt_set inside, arrived_eq, queue_eq]
      · rw [streamAt_set inside, if_pos rfl, written_eq]
        exact written
    · rw [streamAt_set inside, if_pos rfl, streamAt_of_found found, written_eq]
  · constructor
    · refine ⟨read, ?_, ?_⟩
      · simp [streamAt_set inside, here, arrived_eq]
      · rw [streamAt_set inside, if_neg here]
        exact written
    · rw [streamAt_set inside, if_neg here]

/-- A `processConnection` whose `read` succeeds takes a chunk from the queue and writes the front of
it. -/
theorem processed_of_ok {stack : List Byte} {write : SendAnswer} {index : Nat}
    {connection : Connection} {bytes : List Byte}
    (step : worker.next (.processConnection stack write) = some after)
    (head : worker.batch.head? = some index) (found : worker.opened index = some connection)
    (enough : BUFF_SIZE ≤ stack.length)
    (answered : connection.socket.readAnswer BUFF_SIZE = .ok bytes) :
    (processConnection stack (.ok bytes) write).written = bytes.take (write.toOption.getD 0) := by
  have bytes_eq := EdgeTriggered.readAnswer_ok answered
  have short : bytes.length ≤ BUFF_SIZE := by
    rw [bytes_eq]
    exact List.length_take_le _ _
  have size_eq : dataSize (.ok bytes) = bytes.length :=
    MachineInt.toUnsigned_eq rfl (by rw [BUFF_SIZE] at short; omega)
  have takes : ∀ count ∈ write.toOption, count ≤ dataSize (.ok bytes) := by
    rw [next, head, Option.bind_some, found, Option.bind_some, Option.ite_none_right_eq_some,
      answered] at step
    exact step.1
  let call : Call := { stack, read := .ok bytes, write }
  have possible : call.Possible := by
    refine ⟨short, enough, ?_⟩
    intro count took
    have bounded := takes count took
    refine ⟨bounded, ?_⟩
    rw [size_eq] at bounded
    exact bounded.trans (short.trans enough)
  have delivered : call.read = .ok bytes := rfl
  exact congrArg Processed.written (call.effect_of_ok possible delivered)

/-- A socket that is added has nothing written, and what it brings waits in its queue. -/
theorem Echoing.added {queue : List Byte} {ended : Bool} (echoing : worker.Echoing place arrived)
    (step : worker.next (.addConnection queue ended) = some after) :
    after.Echoing place (arrived ++ worker.brought place (.addConnection queue ended)) ∧
      streamAt Connection.written worker.connections place <+:
        streamAt Connection.written after.connections place := by
  obtain rfl := Option.some.inj step
  obtain ⟨read, arrived_eq, written⟩ := echoing
  refine ⟨⟨read, ?_, ?_⟩, streamAt_concat _ _ _⟩
  · by_cases here : worker.connections.length = place
    · have none_queued : streamAt Connection.queue worker.connections place = [] := by
        simp [streamAt, ← here]
      rw [none_queued, List.append_nil] at arrived_eq
      simp [streamAt_append_singleton, brought, here, arrived_eq, Connection.queue,
        EdgeTriggered.register]
    · simp [streamAt_append_singleton, brought, here, arrived_eq]
  · rw [streamAt_append_singleton]
    split
    · exact List.nil_prefix
    · exact written

theorem streamAt_collected {view : Connection → List Byte} (ready : List Nat)
    (kept : ∀ connection : Connection,
      view { connection with socket := connection.socket.collect } = view connection) :
    streamAt view (worker.collected ready).connections place =
      streamAt view worker.connections place := by
  rw [streamAt, collected, List.getElem?_mapIdx, streamAt]
  cases worker.connections[place]? with
  | none => rfl
  | some connection =>
      simp only [Option.map_some]
      split
      · rw [kept]
      · rfl

theorem Echoing.collected (echoing : worker.Echoing place arrived) (ready : List Nat) :
    (worker.collected ready).Echoing place arrived ∧
      streamAt Connection.written worker.connections place <+:
        streamAt Connection.written (worker.collected ready).connections place := by
  have queue_same : streamAt Connection.queue (worker.collected ready).connections place =
      streamAt Connection.queue worker.connections place := streamAt_collected ready fun _ => rfl
  have written_same : streamAt Connection.written (worker.collected ready).connections place =
      streamAt Connection.written worker.connections place := streamAt_collected ready fun _ => rfl
  rw [Echoing, queue_same, written_same]
  exact ⟨echoing, List.prefix_rfl⟩

/-- What `processConnection` writes follows what was written, or nothing is written. -/
theorem written_chunk {written read bytes : List Byte} {write : SendAnswer}
    (kept : written <+: read)
    (prompt : ∀ count, write = .ok count → 0 < count → written.length = read.length) :
    written ++ bytes.take (write.toOption.getD 0) <+: read ++ bytes := by
  cases write with
  | error errno =>
      simp only [Except.toOption, Option.getD_none, List.take_zero, List.append_nil]
      exact kept.trans (List.prefix_append _ _)
  | ok count =>
      rcases Nat.eq_zero_or_pos count with rfl | positive
      · simp only [Except.toOption, Option.getD_some, List.take_zero, List.append_nil]
        exact kept.trans (List.prefix_append _ _)
      · -- everything read so far was accepted, so the chunk follows it
        obtain rfl : written = read := kept.eq_of_length (prompt count rfl positive)
        simp only [Except.toOption, Option.getD_some]
        exact (List.prefix_append_right_inj _).mpr (List.take_prefix _ _)

/-- `processConnection` moves a chunk from the queue to what was read and writes the front of it. -/
theorem Echoing.processedHere {index : Nat} {connection : Connection} {stack bytes : List Byte}
    {write : SendAnswer} (echoing : worker.Echoing index arrived)
    (found : worker.connections[index]? = some connection)
    (answered : connection.socket.readAnswer BUFF_SIZE = .ok bytes)
    (prompt : ∀ count, write = .ok count → 0 < count →
      connection.written.length + connection.queue.length = arrived.length)
    (chunk : (processConnection stack (.ok bytes) write).written =
      bytes.take (write.toOption.getD 0)) :
    (worker.processed index connection stack write).Echoing index arrived ∧
      streamAt Connection.written worker.connections index <+: streamAt Connection.written
        (worker.processed index connection stack write).connections index := by
  obtain ⟨read, arrived_eq, written⟩ := echoing
  rw [streamAt_of_found found] at arrived_eq written
  have inside := (List.getElem?_eq_some_iff.mp found).1
  have split_queue : connection.queue = bytes ++ connection.queue.drop BUFF_SIZE := by
    rw [EdgeTriggered.readAnswer_ok answered]
    exact (List.take_append_drop _ _).symm
  have left_eq : streamAt Connection.queue
      (worker.processed index connection stack write).connections index =
        connection.queue.drop BUFF_SIZE := by
    rw [processed, streamAt_set inside, if_pos rfl]
    rfl
  have now_written : streamAt Connection.written
      (worker.processed index connection stack write).connections index =
        connection.written ++ bytes.take (write.toOption.getD 0) := by
    rw [processed, streamAt_set inside, if_pos rfl, answered, chunk]
  refine ⟨⟨read ++ bytes, ?_, ?_⟩, ?_⟩
  · rw [left_eq, List.append_assoc, ← split_queue]
    exact arrived_eq
  · rw [now_written]
    refine written_chunk written fun count accepted positive => ?_
    have lengths := prompt count accepted positive
    rw [arrived_eq, List.length_append] at lengths
    omega
  · rw [now_written, streamAt_of_found found]
    exact List.prefix_append _ _

theorem Echoing.processedElsewhere {index : Nat} {connection : Connection} {stack : List Byte}
    {write : SendAnswer} (echoing : worker.Echoing place arrived)
    (found : worker.connections[index]? = some connection) (elsewhere : index ≠ place) :
    (worker.processed index connection stack write).Echoing place arrived ∧
      streamAt Connection.written worker.connections place <+: streamAt Connection.written
        (worker.processed index connection stack write).connections place := by
  have inside := (List.getElem?_eq_some_iff.mp found).1
  have same : ∀ view : Connection → List Byte,
      streamAt view (worker.processed index connection stack write).connections place =
        streamAt view worker.connections place := by
    intro view
    rw [processed, streamAt_set inside, if_neg elsewhere]
  rw [Echoing, same, same]
  exact ⟨echoing, List.prefix_rfl⟩

/-- Under these conditions a step keeps the echo and takes nothing back. -/
theorem Echoing.next (echoing : worker.Echoing place arrived) (step : worker.next own = some after)
    (timely : worker.Timely place arrived own) :
    after.Echoing place (arrived ++ worker.brought place own) ∧
      streamAt Connection.written worker.connections place <+:
        streamAt Connection.written after.connections place := by
  cases own with
  | addConnection queue ended => exact echoing.added step
  | arrive index bytes =>
      obtain ⟨connection, found, taken⟩ := Option.bind_eq_some_iff.mp step
      rw [Option.ite_none_right_eq_some] at taken
      obtain ⟨-, stepped⟩ := taken
      obtain rfl := Option.some.inj stepped
      exact echoing.queued _ bytes (opened_eq_some.mp found).1 rfl rfl
  | finish index =>
      obtain ⟨connection, found, rfl⟩ := Option.map_eq_some_iff.mp step
      have kept := echoing.queued { connection with socket := connection.socket.finish } []
        (opened_eq_some.mp found).1 (by simp [Connection.queue, EdgeTriggered.finish]) rfl
      rw [ite_self] at kept
      exact kept
  | fail index errno =>
      obtain ⟨connection, found, rfl⟩ := Option.map_eq_some_iff.mp step
      have kept := echoing.queued { connection with socket := connection.socket.fail errno } []
        (opened_eq_some.mp found).1 (by simp [Connection.queue, EdgeTriggered.fail]) rfl
      rw [ite_self] at kept
      exact kept
  | epollWait ready =>
      rw [TestWorker.next, Option.ite_none_right_eq_some] at step
      obtain ⟨-, stepped⟩ := step
      obtain rfl := Option.some.inj stepped
      simp only [brought, List.append_nil]
      exact echoing.collected ready
  | processConnection stack write =>
      obtain ⟨index, rest, connection, batch_eq, found, rfl⟩ := next_processConnection step
      have head : worker.batch.head? = some index := by rw [batch_eq, List.head?_cons]
      have at_index := (opened_eq_some.mp found).1
      simp only [brought, List.append_nil]
      by_cases here : index = place
      · subst here
        obtain ⟨enough, outcome⟩ := timely head
        obtain ⟨bytes, answered, prompt⟩ := outcome connection found
        exact echoing.processedHere at_index answered prompt
          (processed_of_ok step head found enough answered)
      · exact echoing.processedElsewhere at_index here

/-- The stream of the socket at `place`. -/
def outlet (place : Nat) : Outlet TestWorker WorkerEvent Byte where
  brought worker own := worker.brought place own
  given worker := streamAt Connection.written worker.connections place
  Timely worker arrived own := worker.Timely place arrived own

theorem outlet_echoes (place : Nat) :
    (outlet place).Echoes Epoll.workers fun worker arrived => worker.Echoing place arrived where
  delivered := by
    rintro worker arrived ⟨read, arrived_eq, written⟩
    rw [arrived_eq]
    exact written.trans (List.prefix_append _ _)
  step _ _ _ _ echoing step timely := echoing.next step timely

end TestWorker

/-- The socket at `place` of one worker of the process, while no `read` from it fails and no `write`
to it follows one that left a rest. -/
def echoService (workerNumber index place : Nat) : EchoService Byte :=
  (TestWorker.outlet place).hosted echoTcps (fun server => server.workers.map Crew.worker)
    EchoTcp.part index (.listening workerNumber)

theorem echoService_faithful (workerNumber index place : Nat) :
    (echoService workerNumber index place).Faithful := by
  apply Outlet.hosted_faithful EchoTcp.employs_workers.hosts (TestWorker.outlet_echoes place)
  · intro worker found
    have member := List.mem_of_getElem? found
    obtain ⟨crew, hired, rfl⟩ := List.mem_map.mp member
    obtain rfl := List.eq_of_mem_replicate hired
    exact TestWorker.echoing_started place
  · intro server event after worker step nobody found
    exact (EchoTcp.employs_workers.newcomer step nobody found).elim

end Mrps.Epoll
