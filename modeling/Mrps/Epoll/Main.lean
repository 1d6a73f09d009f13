import Mrps.Epoll.EchoTcp
import Mrps.Fleet

/-!
# The process of `echo_tcp.cpp`

`main` accepts connections and adds each to one of its workers, in turn; a worker's thread starts
with its first connection.  The threads, the arrivals and `main` interleave freely.  Nothing catches
what `main` throws and nothing handles `SIGPIPE`, so an exception there and a `write` to a
connection that was reset end the process with all its threads.
-/

namespace Mrps.Epoll

open MachineInt EventSystem RoundRobin

/-- What ends the process. -/
inductive Death where
  /-- `accept failed`. -/
  | accept
  /-- `fcntl failed`. -/
  | fcntl
  /-- `epoll_ctl failed`. -/
  | epollCtl
  /-- `boost::thread` has no thread to give. -/
  | thread
  /-- `counter % workerNumber` without workers. -/
  | division
  /-- `SIGPIPE`. -/
  | sigpipe
  deriving DecidableEq, Repr

/-- The calls of `addConnection` that can fail. -/
structure Adding where
  fcntl : Bool
  epollCtl : Bool
  thread : Bool
  deriving DecidableEq, Repr

/-- `EPIPE`. -/
def EPIPE : Errno := .other 32

/-- What a step of a worker does to the process: a `write` that fails with `EPIPE`, as it does once
the connection was reset, raises `SIGPIPE`. -/
def TestWorker.raises (worker : TestWorker) : WorkerEvent → Option Death
  | .processConnection stack write =>
      (worker.batch.head?.bind worker.opened).bind fun connection =>
        let effect :=
          Epoll.processConnection stack (connection.socket.readAnswer BUFF_SIZE) write
        if effect.offered ≠ none ∧ write = .error EPIPE then some .sigpipe else none
  | .addConnection _ _ | .arrive _ _ | .finish _ | .fail _ _ | .epollWait _ => none

/-- A worker with its `mStarted`. -/
structure Crew where
  worker : TestWorker
  mStarted : Bool
  deriving DecidableEq, Repr

/-- The process, from its first `accept` on. -/
structure EchoTcp where
  workers : List Crew
  counter : Nat
  death : Option Death
  deriving DecidableEq, Repr

/-- What can happen to the process. -/
inductive EchoTcpEvent where
  /-- `accept` returns a socket on which `queue` has already arrived, and `addConnection` is called
  for it. -/
  | accept (queue : List Byte) (ended : Bool) (adding : Adding)
  | acceptFailed
  /-- The kernel or its own thread does something to the worker at `index`. -/
  | worker (index : Nat) (event : WorkerEvent)
  deriving DecidableEq, Repr

/-- `addConnection` on a worker. -/
def Crew.addConnection (crew : Crew) (queue : List Byte) (ended : Bool) (adding : Adding) :
    Except Death Crew :=
  if adding.fcntl = false then .error .fcntl
  else if adding.epollCtl = false then .error .epollCtl
  else if crew.mStarted = false ∧ adding.thread = false then .error .thread
  else
    .ok
      { worker := { crew.worker with
          connections := crew.worker.connections ++
            [{ socket := .register queue ended, closed := false, written := [] }] }
        mStarted := true }

/-- The thread of a worker takes this step. -/
def WorkerEvent.byThread : WorkerEvent → Bool
  | .epollWait _ | .processConnection _ _ => true
  | .addConnection _ _ | .arrive _ _ | .finish _ | .fail _ _ => false

/-- The step adds a socket. -/
def WorkerEvent.adds : WorkerEvent → Bool
  | .addConnection _ _ => true
  | .epollWait _ | .processConnection _ _ | .arrive _ _ | .finish _ | .fail _ _ => false

/-- A worker's thread was started exactly when the worker was handed a socket; those it has closed
since count as well. -/
def Crew.Manned (crew : Crew) : Prop := crew.mStarted = true ↔ crew.worker.connections ≠ []

namespace EchoTcp

/-- The process with `workerNumber` workers, before its first connection. -/
def listening (workerNumber : Nat) : EchoTcp :=
  { workers := List.replicate workerNumber { worker := .started, mStarted := false }
    counter := 0
    death := none }

/-- The index of the worker that gets the next connection. -/
def turn (server : EchoTcp) : Nat := server.counter % server.workers.length

/-- One step of the process. -/
def next (server : EchoTcp) : EchoTcpEvent → Option EchoTcp
  | .accept queue ended adding =>
      if server.death = none then
        match server.workers[server.turn]? with
        | none => some { server with death := some .division }
        | some crew =>
            match crew.addConnection queue ended adding with
            | .error death => some { server with death := some death }
            | .ok crew =>
                some
                  { server with
                    workers := server.workers.set server.turn crew
                    counter := toUnsigned 64 (server.counter + 1) }
      else none
  | .acceptFailed =>
      if server.death = none then some { server with death := some .accept } else none
  | .worker index event =>
      if server.death = none then
        server.workers[index]?.bind fun crew =>
          if event.adds = false ∧ (event.byThread = true → crew.mStarted = true) then
            (crew.worker.next event).map fun worker =>
              { server with
                workers := server.workers.set index { crew with worker }
                death := crew.worker.raises event }
          else none
      else none

end EchoTcp

/-- The runs of the process. -/
def echoTcps : EventSystem EchoTcp EchoTcpEvent := { step := EchoTcp.next }

namespace EchoTcp

variable {server after : EchoTcp} {event : EchoTcpEvent} {index : Nat}

/-- The socket that an event hands to a worker; `none` when the process does not survive it. -/
def dealt (server : EchoTcp) : EchoTcpEvent → Option WorkerEvent
  | .accept queue ended adding =>
      server.workers[server.turn]?.bind fun crew =>
        (crew.addConnection queue ended adding).toOption.map fun _ => .addConnection queue ended
  | .acceptFailed | .worker _ _ => none

/-- The part of an event that concerns the worker at `index`. -/
def part (server : EchoTcp) (event : EchoTcpEvent) (index : Nat) : Option WorkerEvent :=
  match event with
  | .worker place own => if place = index then some own else none
  | .accept _ _ _ | .acceptFailed => if server.turn = index then server.dealt event else none

/-- The sockets handed to the workers in a run, in the order of `accept`. -/
def admitted (server : EchoTcp) (events : List EchoTcpEvent) : List WorkerEvent :=
  emitted echoTcps dealt server events

/-- The events of one worker in a run. -/
def own (index : Nat) (server : EchoTcp) (events : List EchoTcpEvent) : List WorkerEvent :=
  shareOf echoTcps part index server events

/-! ## What a step does -/

theorem addConnection_eq_ok {crew added : Crew} {queue : List Byte} {ended : Bool} {adding : Adding}
    (survives : crew.addConnection queue ended adding = .ok added) :
    crew.worker.next (.addConnection queue ended) = some added.worker ∧ added.mStarted = true := by
  rw [Crew.addConnection] at survives
  split at survives
  · cases survives
  · split at survives
    · cases survives
    · split at survives
      · cases survives
      · obtain rfl := Except.ok.inj survives
        exact ⟨rfl, rfl⟩

theorem next_cases (step : server.next event = some after) :
    (∃ queue ended adding crew added, event = .accept queue ended adding ∧
      server.workers[server.turn]? = some crew ∧
      crew.worker.next (.addConnection queue ended) = some added.worker ∧ added.mStarted = true ∧
      server.dealt event = some (.addConnection queue ended) ∧
      after = { server with
        workers := server.workers.set server.turn added
        counter := toUnsigned 64 (server.counter + 1) }) ∨
    (∃ death, (∀ index, server.part event index = none) ∧ server.dealt event = none ∧
      after = { server with death := some death }) ∨
    ∃ index own crew worker, event = .worker index own ∧ server.workers[index]? = some crew ∧
      own.adds = false ∧ (own.byThread = true → crew.mStarted = true) ∧
      crew.worker.next own = some worker ∧
      after = { server with
        workers := server.workers.set index { crew with worker }
        death := crew.worker.raises own } := by
  cases event with
  | accept queue ended adding =>
      rw [next, Option.ite_none_right_eq_some] at step
      obtain ⟨-, stepped⟩ := step
      cases chosen : server.workers[server.turn]? with
      | none =>
          rw [chosen] at stepped
          obtain rfl := Option.some.inj stepped
          have lost : server.dealt (.accept queue ended adding) = none := by simp [dealt, chosen]
          refine .inr (.inl ⟨.division, fun index => ?_, lost, rfl⟩)
          simp [part, lost]
      | some crew =>
          rw [chosen] at stepped
          cases outcome : crew.addConnection queue ended adding with
          | error death =>
              simp only [outcome] at stepped
              obtain rfl := Option.some.inj stepped
              have lost : server.dealt (.accept queue ended adding) = none := by
                simp [dealt, chosen, outcome, Except.toOption]
              refine .inr (.inl ⟨death, fun index => ?_, lost, rfl⟩)
              simp [part, lost]
          | ok added =>
              simp only [outcome] at stepped
              obtain rfl := Option.some.inj stepped
              obtain ⟨taken, started⟩ := addConnection_eq_ok outcome
              refine .inl ⟨queue, ended, adding, crew, added, rfl, rfl, taken, started, ?_, rfl⟩
              simp [dealt, chosen, outcome, Except.toOption]
  | acceptFailed =>
      rw [next, Option.ite_none_right_eq_some] at step
      obtain ⟨-, stepped⟩ := step
      obtain rfl := Option.some.inj stepped
      exact .inr (.inl ⟨.accept, fun index => by simp [part, dealt], rfl, rfl⟩)
  | worker index own =>
      rw [next, Option.ite_none_right_eq_some] at step
      obtain ⟨-, stepped⟩ := step
      obtain ⟨crew, found, taken⟩ := Option.bind_eq_some_iff.mp stepped
      rw [Option.ite_none_right_eq_some] at taken
      obtain ⟨⟨adds, started⟩, moved⟩ := taken
      obtain ⟨worker, worker_step, rfl⟩ := Option.map_eq_some_iff.mp moved
      exact .inr (.inr ⟨index, own, crew, worker, rfl, found, adds, started, worker_step, rfl⟩)

theorem employs_workers : Employs echoTcps Epoll.workers
    (fun server => server.workers.map Crew.worker) part fun _ => False := by
  intro server event after step
  rcases next_cases step with
    ⟨queue, ended, adding, crew, added, rfl, at_turn, taken, -, handed, rfl⟩ |
    ⟨death, nothing, -, rfl⟩ | ⟨place, own, crew, moved, rfl, at_place, -, -, worker_step, rfl⟩
  · refine .inr (.inr ⟨server.turn, .addConnection queue ended, crew.worker, added.worker, ?_, ?_,
      taken, ?_⟩)
    · intro index
      simp [part, handed]
    · simp [at_turn]
    · simp
  · exact .inr (.inl ⟨rfl, nothing⟩)
  · refine .inr (.inr ⟨place, own, crew.worker, moved, fun _ => rfl, ?_, worker_step, ?_⟩)
    · simp [at_place]
    · simp

/-! ## Dealing in turn -/

/-- The worker that gets the socket at `position`, where `counter` has 64 bits. -/
def turnOf (workerNumber position : Nat) : Nat := position % 2 ^ 64 % workerNumber

theorem next_connections_length {worker moved : TestWorker} {own : WorkerEvent}
    (step : worker.next own = some moved) :
    moved.connections.length = worker.connections.length + [own].countP WorkerEvent.adds := by
  rcases TestWorker.next_cases step with ⟨queue, ended, rfl, rfl⟩ |
    ⟨place, connection, change, arrives, -, -, rfl⟩ | ⟨ready, rfl, -, -, -, rfl⟩ |
    ⟨stack, write, place, rest, connection, rfl, -, -, rfl⟩
  · simp [WorkerEvent.adds]
  · have adds_not : own.adds = false := by
      cases own with
      | addConnection | epollWait | processConnection => exact arrives.elim
      | arrive | finish | fail => rfl
    simp [TestWorker.onSocket, adds_not]
  · simp [TestWorker.collected, WorkerEvent.adds]
  · simp [TestWorker.processed, WorkerEvent.adds]

theorem run_connections_length {worker final : TestWorker} {events : List WorkerEvent}
    (execution : Epoll.workers.run worker events = some final) :
    final.connections.length =
      worker.connections.length + (events.filter WorkerEvent.adds).length := by
  induction events generalizing worker with
  | nil =>
      obtain rfl : worker = final := by simpa using execution
      rfl
  | cons own events ih =>
      obtain ⟨moved, step, rest⟩ := Epoll.workers.run_cons_eq_some execution
      rw [ih rest, next_connections_length step, ← List.countP_eq_length_filter,
        ← List.countP_eq_length_filter, Nat.add_assoc, ← List.countP_append,
        List.singleton_append]

/-- What the events so far say about the process. -/
structure Dealing (workerNumber : Nat) (front : List EchoTcpEvent) (server : EchoTcp) : Prop where
  length : server.workers.length = workerNumber
  counter : server.counter = (admitted (listening workerNumber) front).length % 2 ^ 64
  manned : ∀ crew ∈ server.workers, crew.Manned
  hands : ∀ index, (own index (listening workerNumber) front).filter WorkerEvent.adds =
    hand (turnOf workerNumber) (admitted (listening workerNumber) front) index

theorem dealing_listening (workerNumber : Nat) :
    Dealing workerNumber [] (listening workerNumber) := by
  refine ⟨by simp [listening], rfl, ?_, fun _ => rfl⟩
  intro crew member
  obtain rfl := List.eq_of_mem_replicate member
  simp [Crew.Manned, TestWorker.started]

/-- Handing out one more socket deals one more card. -/
theorem Dealing.next {workerNumber : Nat} {front : List EchoTcpEvent}
    (front_run : echoTcps.run (listening workerNumber) front = some server)
    (dealing : Dealing workerNumber front server) (step : server.next event = some after) :
    Dealing workerNumber (front ++ [event]) after := by
  have admitted_eq : admitted (listening workerNumber) (front ++ [event]) =
      admitted (listening workerNumber) front ++ (server.dealt event).toList :=
    emitted_concat front_run step
  have own_eq : ∀ index, own index (listening workerNumber) (front ++ [event]) =
      own index (listening workerNumber) front ++ (server.part event index).toList :=
    fun index => emitted_concat front_run step
  have turn_eq : server.turn =
      turnOf workerNumber (admitted (listening workerNumber) front).length := by
    rw [turn, dealing.counter, dealing.length, turnOf]
  rcases next_cases step with
    ⟨queue, ended, adding, crew, added, rfl, found, taken, started, handed, rfl⟩ |
    ⟨death, nothing, lost, rfl⟩ | ⟨place, act, crew, moved, rfl, found, adds, ready, taken, rfl⟩
  · refine ⟨by simp [dealing.length], ?_, ?_, ?_⟩
    · rw [admitted_eq, handed, Option.toList_some, List.length_append, List.length_singleton]
      change toUnsigned 64 (server.counter + 1) = _
      rw [dealing.counter]
      simp only [toUnsigned]
      omega
    · intro other member
      rcases List.mem_or_eq_of_mem_set member with old | rfl
      · exact dealing.manned other old
      · have longer := next_connections_length taken
        have some_socket : other.worker.connections ≠ [] := by
          apply List.ne_nil_of_length_pos
          rw [longer]
          simp [WorkerEvent.adds]
        exact iff_of_true started some_socket
    · intro index
      rw [own_eq, admitted_eq, handed, List.filter_append, dealing.hands index,
        Option.toList_some, hand_concat, ← turn_eq]
      by_cases here : server.turn = index
      · simp [part, here, handed, WorkerEvent.adds]
      · simp [part, here]
  · refine ⟨dealing.length, ?_, dealing.manned, ?_⟩
    · rw [admitted_eq, lost, Option.toList_none, List.append_nil]
      exact dealing.counter
    · intro index
      rw [own_eq, admitted_eq, lost, nothing index, Option.toList_none, List.append_nil,
        List.append_nil]
      exact dealing.hands index
  · have lost : server.dealt (.worker place act) = none := rfl
    refine ⟨by simp [dealing.length], ?_, ?_, ?_⟩
    · rw [admitted_eq, lost, Option.toList_none, List.append_nil]
      exact dealing.counter
    · intro other member
      rcases List.mem_or_eq_of_mem_set member with old | rfl
      · exact dealing.manned other old
      · have same := next_connections_length taken
        have manned := dealing.manned crew (List.mem_of_getElem? found)
        rw [List.countP_singleton, if_neg (by simp [adds]), Nat.add_zero] at same
        rw [Crew.Manned, ← List.length_pos_iff] at manned ⊢
        rw [same]
        exact manned
    · intro index
      rw [own_eq, admitted_eq, lost, List.filter_append, dealing.hands index, Option.toList_none,
        List.append_nil]
      by_cases here : place = index
      · simp [part, here, adds]
      · simp [part, here]

/-- In every run with any number of workers and any interleaving of their threads: the sockets are
handed out in turn, and each worker lives through a run of its own whose added sockets are exactly
those of its turns, in the order of `accept`.  Its thread was started exactly when it was handed a
socket.  Before `counter` wraps around, each of the workers has an equal share of the sockets, up to
one. -/
theorem sockets_dealt {workerNumber : Nat} {events : List EchoTcpEvent}
    (execution : echoTcps.run (listening workerNumber) events = some server)
    {index : Nat} (hired : index < workerNumber) :
    ∃ crew, server.workers[index]? = some crew ∧
      Epoll.workers.run .started (own index (listening workerNumber) events) = some crew.worker ∧
      (own index (listening workerNumber) events).filter WorkerEvent.adds =
        hand (turnOf workerNumber) (admitted (listening workerNumber) events) index ∧
      (crew.mStarted = true ↔ crew.worker.connections ≠ []) ∧
      ((admitted (listening workerNumber) events).length ≤ 2 ^ 64 →
        crew.worker.connections.length =
          (admitted (listening workerNumber) events).length / workerNumber +
            if index < (admitted (listening workerNumber) events).length % workerNumber
              then 1 else 0) := by
  have dealing : Dealing workerNumber events server :=
    run_history (dealing_listening workerNumber)
      (fun front state event next front_run holds step => holds.next front_run step) execution
  have at_start : ((listening workerNumber).workers.map Crew.worker)[index]? =
      some TestWorker.started := by
    simp [listening, hired]
  obtain ⟨worker, own_run, at_end⟩ := employs_workers.hosts.run at_start execution
  rw [List.getElem?_map, Option.map_eq_some_iff] at at_end
  obtain ⟨crew, found, rfl⟩ := at_end
  refine ⟨crew, found, own_run, dealing.hands index,
    dealing.manned crew (List.mem_of_getElem? found), ?_⟩
  intro few
  have unwrapped : hand (turnOf workerNumber) (admitted (listening workerNumber) events) index =
      hand (· % workerNumber) (admitted (listening workerNumber) events) index := by
    apply hand_congr
    intro position inside
    have fits : position < 2 ^ 64 := by omega
    rw [turnOf, Nat.mod_eq_of_lt fits]
  have counted : crew.worker.connections.length = TestWorker.started.connections.length +
      ((own index (listening workerNumber) events).filter WorkerEvent.adds).length :=
    run_connections_length own_run
  rw [dealing.hands index, unwrapped, length_hand, turns_eq hired] at counted
  rw [counted]
  simp [TestWorker.started]

/-- `addConnection` succeeds. -/
def added : Adding := { fcntl := true, epollCtl := true, thread := true }

/-- Three connections come to two workers while the first worker serves the first of them; the
fourth has no descriptor. -/
def threeForTwo : List EchoTcpEvent :=
  [.accept [7] false added, .worker 0 (.epollWait [0]), .accept [] false added,
    .worker 1 (.arrive 0 [8]), .worker 0 (.processConnection (List.replicate 100 0) (.ok 1)),
    .accept [9] true added, .acceptFailed]

theorem sockets_dealt_three : ∃ server crew,
    echoTcps.run (listening 2) threeForTwo = some server ∧ server.death = some .accept ∧
      server.workers[0]? = some crew ∧ crew.worker.connections.length = 2 := by
  obtain ⟨server, execution, dead, admitted_eq⟩ : ∃ server,
      echoTcps.run (listening 2) threeForTwo = some server ∧ server.death = some .accept ∧
        (admitted (listening 2) threeForTwo).length = 3 :=
    ⟨_, rfl, rfl, rfl⟩
  have hired : 0 < 2 := by omega
  obtain ⟨crew, found, -, -, -, share⟩ := sockets_dealt execution hired
  rw [admitted_eq] at share
  exact ⟨server, crew, execution, dead, found, share (by omega)⟩

/-- A connection that is reset ends the process: `read` reports the reset and `write` is called all
the same. -/
example : (echoTcps.run (listening 2) [.accept [] false added, .worker 0 (.fail 0 (.other 104)),
    .worker 0 (.epollWait [0]),
    .worker 0 (.processConnection (List.replicate 100 0) (.error EPIPE))]).map EchoTcp.death =
      some (some .sigpipe) := rfl

end EchoTcp

end Mrps.Epoll
