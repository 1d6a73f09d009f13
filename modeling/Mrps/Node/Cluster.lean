import Mrps.Backlog
import Mrps.EchoService
import Mrps.Runtime

/-!
# `tcp-cluster.js`

The master forks a worker for each processor and another one for every worker that dies.  It opens
the listening handle when the first worker asks for it and keeps it, so the workers share one queue
of peers.  A worker writes back what a socket gives it; what the kernel does not take at once waits
in the socket.  Nobody listens for the errors of a socket, so such an error ends its worker.
-/

namespace Mrps.Node

open EventSystem

/-! ## A worker -/

/-- A socket of a worker. -/
structure Socket where
  /-- The bytes of its `data` events. -/
  received : List Byte
  /-- What it was given to write and the kernel has not taken. -/
  pending : List Byte
  /-- What the kernel took. -/
  sent : List Byte
  closed : Bool
  deriving DecidableEq, Repr

namespace Socket

def opened : Socket := { received := [], pending := [], sent := [], closed := false }

/-- `socket.write(data)`. -/
def write (socket : Socket) (data : List Byte) : Socket :=
  { socket with pending := socket.pending ++ data }

/-- The listener of `data`. -/
def data (socket : Socket) (data : List Byte) : Socket :=
  { socket with received := socket.received ++ data }.write data

/-- The kernel takes bytes. -/
def drain (socket : Socket) (count : Nat) : Socket :=
  { socket with
    pending := socket.pending.drop count
    sent := socket.sent ++ socket.pending.take count }

end Socket

/-- A forked process. -/
structure Worker where
  listening : Bool
  sockets : List Socket
  dead : Bool
  deriving DecidableEq, Repr

/-- What can happen to a worker. -/
inductive WorkerEvent where
  /-- `listen(PORT)`. -/
  | listen
  /-- A connection is taken from the shared handle. -/
  | connection
  | data (socket : Nat) (data : List Byte)
  /-- The kernel takes bytes that waited in a socket. -/
  | drain (socket count : Nat)
  | close (socket : Nat)
  /-- A socket emits `error`, which is thrown as nobody listens for it. -/
  | error (socket : Nat)
  /-- A signal ends the process. -/
  | kill
  deriving DecidableEq, Repr

namespace Worker

/-- A process before `listen`. -/
def forked : Worker := { listening := false, sockets := [], dead := false }

/-- Change an open socket. -/
def update (worker : Worker) (socket : Nat) (change : Socket → Socket) : Option Worker :=
  worker.sockets[socket]?.bind fun found =>
    if found.closed = false then
      some { worker with sockets := worker.sockets.set socket (change found) }
    else none

/-- What happens to a process that runs. -/
def act (worker : Worker) : WorkerEvent → Option Worker
  | .listen => if worker.listening then none else some { worker with listening := true }
  | .connection =>
      if worker.listening then some { worker with sockets := worker.sockets ++ [.opened] } else none
  | .data socket data => worker.update socket fun found => found.data data
  | .drain socket count => worker.update socket fun found => found.drain count
  | .close socket => worker.update socket fun found => { found with closed := true }
  | .error socket => (worker.update socket id).map fun worker => { worker with dead := true }
  | .kill => some { worker with dead := true }

/-- One step of a worker. -/
def next (worker : Worker) (event : WorkerEvent) : Option Worker :=
  if worker.dead = false then worker.act event else none

end Worker

/-- The runs of a worker. -/
def workers : EventSystem Worker WorkerEvent := { step := Worker.next }

/-! ## The cluster -/

/-- The master, its workers in the order of their start, and the peers of the shared handle. -/
structure Cluster where
  /-- The loop variable of the master. -/
  i : Nat
  workers : List Worker
  /-- The `death` events that wait for the master. -/
  deaths : List Nat
  /-- The master has opened the listening handle. -/
  opened : Bool
  backlog : Backlog
  deriving DecidableEq, Repr

/-- What can happen to the cluster. -/
inductive ClusterEvent where
  /-- A round of the loop of the master. -/
  | fork
  /-- The listener of `death`. -/
  | death
  /-- A peer connects. -/
  | arrive
  | worker (index : Nat) (event : WorkerEvent)
  deriving DecidableEq, Repr

namespace Cluster

/-- The master before its loop. -/
def started : Cluster :=
  { i := 0, workers := [], deaths := [], opened := false, backlog := .empty }

/-- `cluster.fork()`. -/
def fork (cluster : Cluster) : Cluster := { cluster with workers := cluster.workers ++ [.forked] }

/-- One step of the cluster on a machine with `numCPUs` processors. -/
def next (numCPUs : Nat) (cluster : Cluster) : ClusterEvent → Option Cluster
  | .fork => if cluster.i < numCPUs then some { cluster.fork with i := cluster.i + 1 } else none
  | .death =>
      -- events are handled after the loop
      if cluster.i < numCPUs then none else
        match cluster.deaths with
        | [] => none
        | _ :: deaths => some { cluster.fork with deaths }
  | .arrive =>
      some { cluster with
        backlog := if cluster.opened then cluster.backlog.arrive else cluster.backlog.refuse }
  | .worker index event =>
      cluster.workers[index]?.bind fun worker =>
        (worker.next event).bind fun after =>
          (if event = .connection then cluster.backlog.take index else some cluster.backlog).map
            fun backlog => { cluster with
              workers := cluster.workers.set index after
              deaths := if after.dead then cluster.deaths ++ [index] else cluster.deaths
              opened := cluster.opened || event = .listen
              backlog }

end Cluster

/-- The runs of the cluster. -/
def clusters (numCPUs : Nat) : EventSystem Cluster ClusterEvent := { step := Cluster.next numCPUs }

/-! ## What a worker keeps -/

namespace Worker

variable {worker after : Worker} {event : WorkerEvent} {socket : Nat}

/-- Everything a socket received was sent back or waits in it. -/
def Echoes (socket : Socket) : Prop := socket.sent ++ socket.pending = socket.received

theorem echoes_data {socket : Socket} (echoes : Echoes socket) (data : List Byte) :
    Echoes (socket.data data) := by
  have kept : socket.sent ++ socket.pending = socket.received := echoes
  change socket.sent ++ (socket.pending ++ data) = socket.received ++ data
  rw [← List.append_assoc, kept]

theorem echoes_drain {socket : Socket} (echoes : Echoes socket) (count : Nat) :
    Echoes (socket.drain count) := by
  change socket.sent ++ socket.pending.take count ++ socket.pending.drop count = socket.received
  rw [List.append_assoc, List.take_append_drop]
  exact echoes

theorem update_eq_some {change : Socket → Socket}
    (updated : worker.update socket change = some after) :
    ∃ found, worker.sockets[socket]? = some found ∧ found.closed = false ∧
      after = { worker with sockets := worker.sockets.set socket (change found) } := by
  obtain ⟨found, here, guarded⟩ := Option.bind_eq_some_iff.mp updated
  rw [Option.ite_none_right_eq_some] at guarded
  obtain ⟨is_open, stepped⟩ := guarded
  exact ⟨found, here, is_open, (Option.some.inj stepped).symm⟩

theorem next_cases (step : worker.next event = some after) :
    worker.dead = false ∧
    ((event = .connection ∧ worker.listening = true ∧
        after = { worker with sockets := worker.sockets ++ [.opened] }) ∨
      (event = .listen ∧ after = { worker with listening := true }) ∨
      (∃ place data found, event = .data place data ∧ worker.sockets[place]? = some found ∧
        after = { worker with sockets := worker.sockets.set place (found.data data) }) ∨
      (∃ place count found, event = .drain place count ∧ worker.sockets[place]? = some found ∧
        after = { worker with sockets := worker.sockets.set place (found.drain count) }) ∨
      (∃ place found, event = .close place ∧ worker.sockets[place]? = some found ∧
        after = { worker with
          sockets := worker.sockets.set place { found with closed := true } }) ∨
      ((event = .kill ∨ ∃ place, event = .error place) ∧
        after = { worker with dead := true })) := by
  rw [next, Option.ite_none_right_eq_some] at step
  obtain ⟨alive, acted⟩ := step
  refine ⟨alive, ?_⟩
  cases event with
  | listen =>
      rw [act, Option.ite_none_left_eq_some] at acted
      obtain ⟨-, stepped⟩ := acted
      exact .inr (.inl ⟨rfl, (Option.some.inj stepped).symm⟩)
  | connection =>
      rw [act, Option.ite_none_right_eq_some] at acted
      obtain ⟨listening, stepped⟩ := acted
      exact .inl ⟨rfl, listening, (Option.some.inj stepped).symm⟩
  | data place data =>
      obtain ⟨found, here, -, after_eq⟩ := update_eq_some acted
      exact .inr (.inr (.inl ⟨place, data, found, rfl, here, after_eq⟩))
  | drain place count =>
      obtain ⟨found, here, -, after_eq⟩ := update_eq_some acted
      exact .inr (.inr (.inr (.inl ⟨place, count, found, rfl, here, after_eq⟩)))
  | close place =>
      obtain ⟨found, here, -, after_eq⟩ := update_eq_some acted
      exact .inr (.inr (.inr (.inr (.inl ⟨place, found, rfl, here, after_eq⟩))))
  | error place =>
      obtain ⟨updated, update, rfl⟩ := Option.map_eq_some_iff.mp acted
      obtain ⟨found, here, -, rfl⟩ := update_eq_some update
      refine .inr (.inr (.inr (.inr (.inr ⟨.inr ⟨place, rfl⟩, ?_⟩))))
      have same : worker.sockets.set place (id found) = worker.sockets := by
        rw [id, ← (List.getElem?_eq_some_iff.mp here).2, List.set_getElem_self]
      rw [same]
  | kill => exact .inr (.inr (.inr (.inr (.inr ⟨.inl rfl, (Option.some.inj acted).symm⟩))))

/-- A step keeps the echo of every socket and makes one for each connection. -/
theorem sockets_next (step : worker.next event = some after)
    (echoes : ∀ socket ∈ worker.sockets, Echoes socket) :
    (∀ socket ∈ after.sockets, Echoes socket) ∧ after.sockets.length =
      worker.sockets.length + if event = .connection then 1 else 0 := by
  obtain ⟨-, ⟨rfl, -, rfl⟩ | ⟨rfl, rfl⟩ | ⟨place, data, found, rfl, here, rfl⟩ |
    ⟨place, count, found, rfl, here, rfl⟩ | ⟨place, found, rfl, here, rfl⟩ |
    ⟨ended, rfl⟩⟩ := next_cases step
  · exact ⟨forall_mem_concat echoes rfl, by simp⟩
  · exact ⟨echoes, rfl⟩
  · have member := List.mem_of_getElem? here
    exact ⟨forall_mem_set echoes (echoes_data (echoes found member) data), by simp⟩
  · have member := List.mem_of_getElem? here
    exact ⟨forall_mem_set echoes (echoes_drain (echoes found member) count), by simp⟩
  · have member := List.mem_of_getElem? here
    exact ⟨forall_mem_set echoes (echoes found member), by simp⟩
  · refine ⟨echoes, ?_⟩
    rcases ended with rfl | ⟨place, rfl⟩ <;> rfl

/-- A worker that has served as many peers as it has sockets, and lost no byte of theirs. -/
def Served (worker : Worker) (taken : Nat) : Prop :=
  taken = worker.sockets.length ∧ ∀ socket ∈ worker.sockets, Echoes socket

theorem served_forked : forked.Served 0 := ⟨rfl, by simp [forked]⟩

theorem Served.next {taken : Nat} (served : worker.Served taken)
    (step : worker.next event = some after) :
    after.Served (taken + if event = .connection then 1 else 0) := by
  obtain ⟨taken_eq, echoes⟩ := served
  obtain ⟨echoes', length_eq⟩ := sockets_next step echoes
  exact ⟨by rw [length_eq, taken_eq], echoes'⟩

end Worker

/-! ## The cluster -/

namespace Cluster

variable {numCPUs : Nat} {cluster after : Cluster} {event : ClusterEvent}

/-- How many workers run. -/
def alive (cluster : Cluster) : Nat := cluster.workers.countP fun worker => worker.dead = false

/-- What every step keeps of the cluster. -/
structure Sound (numCPUs : Nat) (cluster : Cluster) : Prop where
  /-- Whoever was forked runs, was replaced, or will be. -/
  crew : cluster.alive + cluster.deaths.length = cluster.i
  rounds : cluster.i ≤ numCPUs
  shared : cluster.backlog.Shared Worker.Served cluster.workers

theorem sound_started : Sound numCPUs started where
  crew := rfl
  rounds := Nat.zero_le _
  shared := Backlog.shared_nil

theorem alive_fork (cluster : Cluster) : cluster.fork.alive = cluster.alive + 1 := by
  simp [alive, fork, List.countP_append, Worker.forked]

/-- A step of a worker that runs loses it or not. -/
theorem alive_set {index : Nat} {worker : Worker} (found : cluster.workers[index]? = some worker)
    (running : worker.dead = false) (moved : Worker) :
    (cluster.workers.set index moved).countP (fun worker => worker.dead = false) +
        (if moved.dead then 1 else 0) = cluster.alive := by
  obtain ⟨inside, here⟩ := List.getElem?_eq_some_iff.mp found
  have member := List.mem_of_getElem? found
  have some_alive : 0 < cluster.workers.countP fun worker => worker.dead = false :=
    List.countP_pos_iff.mpr ⟨worker, member, by simpa using running⟩
  rw [List.countP_set inside, here, running, alive, if_pos (by simp)]
  cases moved.dead with
  | false =>
      rw [if_pos (by simp), if_neg (by simp)]
      omega
  | true =>
      rw [if_neg (by simp), if_pos rfl]
      omega

theorem Sound.next (sound : Sound numCPUs cluster)
    (step : cluster.next numCPUs event = some after) :
    Sound numCPUs after := by
  obtain ⟨crew, rounds, shared⟩ := sound
  cases event with
  | fork =>
      rw [Cluster.next, Option.ite_none_right_eq_some] at step
      obtain ⟨more, stepped⟩ := step
      obtain rfl := Option.some.inj stepped
      refine ⟨?_, more, shared.join Worker.served_forked⟩
      change cluster.fork.alive + cluster.deaths.length = cluster.i + 1
      rw [alive_fork]
      omega
  | death =>
      rw [Cluster.next, Option.ite_none_left_eq_some] at step
      obtain ⟨-, handled⟩ := step
      split at handled
      · cases handled
      · rename_i died deaths deaths_eq
        obtain rfl := Option.some.inj handled
        refine ⟨?_, rounds, shared.join Worker.served_forked⟩
        change cluster.fork.alive + deaths.length = cluster.i
        rw [deaths_eq, List.length_cons] at crew
        rw [alive_fork]
        omega
  | arrive =>
      obtain rfl := Option.some.inj step
      refine ⟨crew, rounds, ?_⟩
      dsimp only
      split
      · exact shared.same_taken rfl shared.sound.arrive
      · exact shared.same_taken rfl shared.sound.refuse
  | worker index event =>
      obtain ⟨worker, found, taken⟩ := Option.bind_eq_some_iff.mp step
      obtain ⟨moved, worked, taken⟩ := Option.bind_eq_some_iff.mp taken
      obtain ⟨backlog, taking, rfl⟩ := Option.map_eq_some_iff.mp taken
      have running := (Worker.next_cases worked).1
      have counted := alive_set found running moved
      refine ⟨?_, rounds, ?_⟩
      · simp only [alive] at crew counted ⊢
        split
        · rename_i died
          rw [if_pos died] at counted
          rw [List.length_append, List.length_singleton]
          omega
        · rename_i survived
          rw [if_neg survived] at counted
          omega
      · exact (shared.serve found (fun _ served => served.next worked) taking).1

theorem opened_next (opened : cluster.opened = true)
    (step : cluster.next numCPUs event = some after) :
    after.opened = true ∧ after.backlog.refused = cluster.backlog.refused := by
  cases event with
  | fork =>
      rw [Cluster.next, Option.ite_none_right_eq_some] at step
      obtain ⟨-, stepped⟩ := step
      obtain rfl := Option.some.inj stepped
      exact ⟨opened, rfl⟩
  | death =>
      rw [Cluster.next, Option.ite_none_left_eq_some] at step
      obtain ⟨-, handled⟩ := step
      split at handled
      · cases handled
      · obtain rfl := Option.some.inj handled
        exact ⟨opened, rfl⟩
  | arrive =>
      obtain rfl := Option.some.inj step
      refine ⟨opened, ?_⟩
      dsimp only
      rw [if_pos opened]
      rfl
  | worker index event =>
      obtain ⟨worker, found, taken⟩ := Option.bind_eq_some_iff.mp step
      obtain ⟨moved, worked, taken⟩ := Option.bind_eq_some_iff.mp taken
      obtain ⟨backlog, taking, rfl⟩ := Option.map_eq_some_iff.mp taken
      refine ⟨by simp [opened], ?_⟩
      split at taking
      · obtain ⟨peer, rest, -, rfl⟩ := Backlog.take_eq_some taking
        rfl
      · rw [← Option.some.inj taking]

theorem opened_run {events : List ClusterEvent} (opened : cluster.opened = true)
    (execution : (clusters numCPUs).run cluster events = some after) :
    after.backlog.refused = cluster.backlog.refused := by
  have preserves : (clusters numCPUs).Preserves fun later =>
      later.opened = true ∧ later.backlog.refused = cluster.backlog.refused := by
    rintro state event next ⟨still, same⟩ step
    obtain ⟨still', same'⟩ := opened_next still step
    exact ⟨still', same'.trans same⟩
  have start : cluster.opened = true ∧ cluster.backlog.refused = cluster.backlog.refused :=
    ⟨opened, rfl⟩
  exact (preserves.run start execution).2

/-- In every reachable state of the cluster, whichever workers die and whenever: the workers that
run and the deaths the master has not handled yet are as many as there are processors once the loop
is over; every peer was taken by exactly one worker, waits, or came before the handle was open; a
worker has a socket for each peer it took, and every byte of each socket was sent back or waits in
it; and from the opening of the handle on nobody is turned away any more. -/
theorem supervised (reach : (clusters numCPUs).Reachable started cluster) :
    (cluster.i = numCPUs → cluster.alive + cluster.deaths.length = numCPUs) ∧
    (cluster.backlog.taken.map Prod.snd ++ cluster.backlog.queue ++ cluster.backlog.refused).Perm
      (List.range cluster.backlog.arrived) ∧
    (∀ (index : Nat) worker, cluster.workers[index]? = some worker →
      cluster.backlog.takenBy index = worker.sockets.length ∧
        ∀ socket ∈ worker.sockets, socket.sent ++ socket.pending = socket.received) ∧
    (cluster.opened = true → ∀ events later, (clusters numCPUs).run cluster events = some later →
      later.backlog.refused = cluster.backlog.refused) := by
  have preserves : (clusters numCPUs).Preserves (Sound numCPUs) :=
    fun _ _ _ sound step => sound.next step
  obtain ⟨crew, -, shared⟩ := preserves.reachable sound_started reach
  refine ⟨?_, shared.sound.placed, shared.each, fun opened _ _ => opened_run opened⟩
  rintro rfl
  exact crew

/-- Two workers share the port; the first serves a peer, dies of its socket and is replaced. -/
def replaced : List ClusterEvent :=
  [.fork, .fork, .worker 0 .listen, .worker 1 .listen, .arrive, .worker 0 .connection,
    .worker 0 (.data 0 [7, 8]), .worker 0 (.drain 0 1), .arrive, .worker 0 (.error 0), .death]

theorem supervised_replaced : ∃ cluster, (clusters 2).run started replaced = some cluster ∧
    cluster.backlog.queue = [1] ∧ cluster.alive = 2 := by
  obtain ⟨cluster, execution, loop_over, handled, waiting⟩ :
      ∃ cluster, (clusters 2).run started replaced = some cluster ∧ cluster.i = 2 ∧
        cluster.deaths = [] ∧ cluster.backlog.queue = [1] := ⟨_, rfl, rfl, rfl, rfl⟩
  obtain ⟨crew, -⟩ := supervised ⟨replaced, execution⟩
  have running := crew loop_over
  rw [handled] at running
  exact ⟨cluster, execution, waiting, running⟩

end Cluster

/-! ## One socket of one worker -/

namespace Worker

variable {worker after : Worker} {event : WorkerEvent} {place : Nat}

/-- The stream of a socket. -/
def outlet (place : Nat) : Outlet Worker WorkerEvent Byte where
  brought _ event :=
    match event with
    | .data socket data => if socket = place then data else []
    | .listen | .connection | .drain _ _ | .close _ | .error _ | .kill => []
  given worker := streamAt Socket.sent worker.sockets place
  Timely _ _ _ := True

/-- The socket received what was brought to it, and every socket echoes. -/
def Streams (place : Nat) (worker : Worker) (log : List Byte) : Prop :=
  streamAt Socket.received worker.sockets place = log ∧ ∀ socket ∈ worker.sockets, Echoes socket

theorem streams_set {sockets : List Socket} {chosen : Nat} {found : Socket}
    (here : sockets[chosen]? = some found) (changed : Socket) (more : List Byte) (place : Nat)
    (received_eq : changed.received = found.received ++ more)
    (grows : found.sent <+: changed.sent) :
    streamAt Socket.received (sockets.set chosen changed) place =
        streamAt Socket.received sockets place ++ (if chosen = place then more else []) ∧
      streamAt Socket.sent sockets place <+:
        streamAt Socket.sent (sockets.set chosen changed) place := by
  have inside := (List.getElem?_eq_some_iff.mp here).1
  rw [streamAt_set inside, streamAt_set inside]
  by_cases mine : chosen = place
  · subst mine
    rw [streamAt_of_found here, streamAt_of_found here, if_pos rfl, if_pos rfl, if_pos rfl]
    exact ⟨received_eq, grows⟩
  · rw [if_neg mine, if_neg mine, if_neg mine, List.append_nil]
    exact ⟨rfl, List.prefix_rfl⟩

theorem outlet_echoes (place : Nat) : (outlet place).Echoes workers (Streams place) where
  delivered worker log streams := by
    rw [← streams.1]
    refine streamAt_prefix (fun position socket found => ?_) place
    exact ⟨socket.pending, streams.2 socket (List.mem_of_getElem? found)⟩
  step worker log event after streams step _ := by
    obtain ⟨rfl, echoes⟩ := streams
    have echoes' := (sockets_next step echoes).1
    suffices moved : streamAt Socket.received after.sockets place =
        streamAt Socket.received worker.sockets place ++ (outlet place).brought worker event ∧
        streamAt Socket.sent worker.sockets place <+: streamAt Socket.sent after.sockets place from
      ⟨⟨moved.1, echoes'⟩, moved.2⟩
    obtain ⟨-, ⟨rfl, -, rfl⟩ | ⟨rfl, rfl⟩ | ⟨chosen, data, found, rfl, here, rfl⟩ |
      ⟨chosen, count, found, rfl, here, rfl⟩ | ⟨chosen, found, rfl, here, rfl⟩ |
      ⟨ended, rfl⟩⟩ := next_cases step
    · refine ⟨?_, streamAt_concat _ _ _⟩
      change streamAt Socket.received (worker.sockets ++ [.opened]) place = _ ++ []
      rw [streamAt_append_singleton, List.append_nil]
      split
      · rename_i last
        rw [streamAt, List.getElem?_eq_none last.le]
        rfl
      · rfl
    · exact ⟨(List.append_nil _).symm, List.prefix_rfl⟩
    · exact streams_set here (found.data data) data place rfl List.prefix_rfl
    · have moved := streams_set here (found.drain count) [] place (List.append_nil _).symm
        (List.prefix_append _ _)
      rw [ite_self] at moved
      exact moved
    · have moved := streams_set here { found with closed := true } [] place
        (List.append_nil _).symm List.prefix_rfl
      rw [ite_self] at moved
      exact moved
    · refine ⟨?_, List.prefix_rfl⟩
      rcases ended with rfl | ⟨socket, rfl⟩ <;> exact (List.append_nil _).symm

end Worker

namespace Cluster

/-- The part of an event that is a step of the worker at `index`. -/
def part (_ : Cluster) (event : ClusterEvent) (index : Nat) : Option WorkerEvent :=
  match event with
  | .worker place own => if place = index then some own else none
  | .fork | .death | .arrive => none

theorem employs_workers (numCPUs : Nat) :
    Employs (clusters numCPUs) Node.workers Cluster.workers part
    fun worker => worker = .forked := by
  intro cluster event after taken
  have step : cluster.next numCPUs event = some after := taken
  cases event with
  | fork =>
      rw [Cluster.next, Option.ite_none_right_eq_some] at step
      obtain ⟨-, stepped⟩ := step
      obtain rfl := Option.some.inj stepped
      exact .inl ⟨.forked, rfl, rfl, fun _ => rfl⟩
  | death =>
      rw [Cluster.next, Option.ite_none_left_eq_some] at step
      obtain ⟨-, handled⟩ := step
      split at handled
      · cases handled
      · obtain rfl := Option.some.inj handled
        exact .inl ⟨.forked, rfl, rfl, fun _ => rfl⟩
  | arrive =>
      obtain rfl := Option.some.inj step
      exact .inr (.inl ⟨rfl, fun _ => rfl⟩)
  | worker index event =>
      obtain ⟨worker, found, taken⟩ := Option.bind_eq_some_iff.mp step
      obtain ⟨moved, worked, taken⟩ := Option.bind_eq_some_iff.mp taken
      obtain ⟨backlog, -, rfl⟩ := Option.map_eq_some_iff.mp taken
      exact .inr (.inr ⟨index, event, worker, moved, fun _ => rfl, found, worked, rfl⟩)

end Cluster

/-- A socket of one worker of the cluster. -/
def echoService (numCPUs index place : Nat) : EchoService Byte :=
  (Worker.outlet place).hosted (clusters numCPUs) Cluster.workers Cluster.part index .started

theorem echoService_faithful (numCPUs index place : Nat) :
    (echoService numCPUs index place).Faithful := by
  apply Outlet.hosted_faithful (Cluster.employs_workers numCPUs).hosts (Worker.outlet_echoes place)
  · intro worker found
    simp [Cluster.started] at found
  · intro cluster event after worker step nobody found
    obtain rfl := (Cluster.employs_workers numCPUs).newcomer step nobody found
    exact ⟨rfl, by simp [Worker.forked]⟩

end Mrps.Node
