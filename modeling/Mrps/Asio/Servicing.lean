import Mrps.Asio.Server
import Mrps.Backlog
import Mrps.EchoService

/-!
# The threads of `server.cc`

`main` opens the listening socket and starts threads that run `servicing`, each with an acceptor and
an `io_service` of its own on the same socket.  A peer is handed to whichever acceptor gets it
first.  The threads share nothing else, so they interleave at the grain of completion handlers.
-/

namespace Mrps.Asio

open EventSystem EchoService

/-- The process: the acceptors of the threads that have started, and the peers of their socket. -/
structure Servicing where
  /-- Threads that `main` has still to start. -/
  unborn : Nat
  acceptors : List Acceptor
  backlog : Backlog
  deriving DecidableEq, Repr

/-- What can happen to the process. -/
inductive ServicingEvent where
  /-- A thread starts `servicing`; `memory` is what the buffer of its first object holds. -/
  | spawn (memory : List Byte)
  /-- A peer connects. -/
  | arrive
  /-- The `io_service` of a thread does something. -/
  | acceptor (index : Nat) (event : AcceptorEvent)
  deriving DecidableEq, Repr

/-- The acceptor gets a peer. -/
def AcceptorEvent.takes : AcceptorEvent → Bool
  | .accepted _ e _ => !e
  | .readDone _ _ | .transfer _ _ _ _ | .writeDone _ _ _ _ => false

/-- An accept is complete. -/
def AcceptorEvent.completes : AcceptorEvent → Bool
  | .accepted _ _ _ => true
  | .readDone _ _ | .transfer _ _ _ _ | .writeDone _ _ _ _ => false

namespace Servicing

/-- `main` before it starts its threads. -/
def listening (threads : Nat) : Servicing :=
  { unborn := threads, acceptors := [], backlog := .empty }

/-- One step of the process.  The socket of `main` stays open, so nobody is turned away. -/
def next (server : Servicing) : ServicingEvent → Option Servicing
  | .spawn memory =>
      if server.unborn = 0 then none
      else
        some { server with
          unborn := server.unborn - 1
          acceptors := server.acceptors ++ [.created memory] }
  | .arrive => some { server with backlog := server.backlog.arrive }
  | .acceptor index event =>
      server.acceptors[index]?.bind fun acceptor =>
        (acceptor.next event).bind fun after =>
          (if event.takes = true then server.backlog.take index else some server.backlog).map
            fun backlog => { server with acceptors := server.acceptors.set index after, backlog }

end Servicing

/-- The runs of the process. -/
def servicings : EventSystem Servicing ServicingEvent := { step := Servicing.next }

/-! ## The streams of one acceptor -/

/-- A history of a connection, which only `fill` and `drain` make longer. -/
structure History (view : Connection → List Byte) : Prop where
  begin : ∀ operation connection, view (connection.begin operation) = view connection
  finish : ∀ operation connection, view (connection.finish operation) = view connection
  delete : ∀ connection, view connection.delete = view connection
  fill : ∀ bytes connection, view connection <+: view (connection.fill bytes)
  drain : ∀ offset count connection, view connection <+: view (connection.drain offset count)

theorem history_received : History Connection.received :=
  ⟨fun _ _ => rfl, fun _ _ => rfl, fun _ => rfl, fun _ _ => List.prefix_append _ _,
    fun _ _ _ => List.prefix_rfl⟩

theorem history_sent : History Connection.sent :=
  ⟨fun _ _ => rfl, fun _ _ => rfl, fun _ => rfl, fun _ _ => List.prefix_rfl,
    fun _ _ _ => List.prefix_append _ _⟩

theorem History.next {view : Connection → List Byte} (history : History view)
    {acceptor after : Acceptor} {event : AcceptorEvent} (step : acceptor.next event = some after)
    (index : Nat) :
    streamAt view acceptor.connections index <+: streamAt view after.connections index := by
  cases event with
  | accepted chosen e memory =>
      rw [Acceptor.next, Option.ite_none_right_eq_some] at step
      obtain ⟨-, stepped⟩ := step
      obtain rfl := Option.some.inj stepped
      have finished : ∀ connection : Connection,
          view connection <+: view (connection.finish .accept) := by
        intro connection
        rw [history.finish]
      have handled : ∀ connection : Connection, view connection <+:
          view ((if e = false then Connection.start else Connection.delete) connection) := by
        intro connection
        split
        · rw [Connection.start, history.begin]
        · rw [history.delete]
      exact ((streamAt_modify finished _ _ _).trans (streamAt_modify handled _ _ _)).trans
        (streamAt_concat _ _ _)
  | readDone chosen result =>
      rw [Acceptor.next, Option.ite_none_right_eq_some] at step
      obtain ⟨-, stepped⟩ := step
      obtain rfl := Option.some.inj stepped
      refine streamAt_modify (fun connection => ?_) _ _ _
      cases result with
      | none =>
          rw [Connection.read, if_neg (by simp), history.delete, history.finish]
      | some bytes =>
          change view connection <+: view
            (((connection.finish .readSome).fill bytes).begin (.write 0 bytes.length))
          rw [history.begin, ← history.finish .readSome connection]
          exact history.fill bytes _
  | transfer chosen offset length count =>
      rw [Acceptor.next, Option.ite_none_right_eq_some] at step
      obtain ⟨-, stepped⟩ := step
      obtain rfl := Option.some.inj stepped
      refine streamAt_modify (fun connection => ?_) _ _ _
      rw [history.begin, ← history.finish (.write offset length) connection]
      exact history.drain offset count _
  | writeDone chosen offset length e =>
      rw [Acceptor.next, Option.ite_none_right_eq_some] at step
      obtain ⟨-, stepped⟩ := step
      obtain rfl := Option.some.inj stepped
      refine streamAt_modify (fun connection => ?_) _ _ _
      rw [Connection.write]
      split
      · rw [Connection.start, history.begin, history.finish]
      · rw [history.delete, history.finish]

/-- What was received on the connection at `place` of an acceptor. -/
def Acceptor.received (place : Nat) (acceptor : Acceptor) : List Byte :=
  streamAt Connection.received acceptor.connections place

/-- What was sent on the connection at `place` of an acceptor. -/
def Acceptor.sent (place : Nat) (acceptor : Acceptor) : List Byte :=
  streamAt Connection.sent acceptor.connections place

theorem Acceptor.Sound.echoes {acceptor : Acceptor} (sound : acceptor.Sound) (place : Nat) :
    acceptor.sent place <+: acceptor.received place := by
  refine streamAt_prefix (fun position (connection : Connection) found => ?_) place
  by_cases last : position + 1 = acceptor.connections.length
  · exact ((sound.newest position connection found last).orderly trivial).echoed
  · exact ((sound.others position connection found last).orderly not_false).echoed

theorem Acceptor.Sound.advances {acceptor after : Acceptor} {event : AcceptorEvent}
    (sound : acceptor.Sound) (step : acceptor.next event = some after) (place : Nat) :
    Advances (Acceptor.received place) (Acceptor.sent place) acceptor after :=
  ⟨history_received.next step place, history_sent.next step place,
    fun _ => (sound.next step).echoes place⟩

theorem Acceptor.Sound.waits {acceptor : Acceptor} (sound : acceptor.Sound) :
    acceptor.Outstanding (acceptor.connections.length - 1) .accept := by
  have positive := List.length_pos_iff.mpr sound.nonempty
  have inside : acceptor.connections.length - 1 < acceptor.connections.length := by omega
  have found := List.getElem?_eq_getElem inside
  refine ⟨_, found, ?_⟩
  rw [sound.accept_iff found]
  omega

/-! ## All threads -/

namespace Servicing

variable {server after : Servicing} {event : ServicingEvent}

theorem next_cases (step : server.next event = some after) :
    (∃ memory, server.unborn ≠ 0 ∧ after = { server with
      unborn := server.unborn - 1
      acceptors := server.acceptors ++ [.created memory] }) ∨
    after = { server with backlog := server.backlog.arrive } ∨
    ∃ index own acceptor moved backlog, server.acceptors[index]? = some acceptor ∧
      acceptor.next own = some moved ∧
      (if own.takes = true then server.backlog.take index else some server.backlog) = some backlog ∧
      after = { server with acceptors := server.acceptors.set index moved, backlog } := by
  cases event with
  | spawn memory =>
      rw [next, Option.ite_none_left_eq_some] at step
      obtain ⟨left, spawned⟩ := step
      exact .inl ⟨memory, left, (Option.some.inj spawned).symm⟩
  | arrive => exact .inr (.inl (Option.some.inj step).symm)
  | acceptor index own =>
      obtain ⟨acceptor, found, taken⟩ := Option.bind_eq_some_iff.mp step
      obtain ⟨moved, worked, taken⟩ := Option.bind_eq_some_iff.mp taken
      obtain ⟨backlog, taking, rfl⟩ := Option.map_eq_some_iff.mp taken
      exact .inr (.inr ⟨index, own, acceptor, moved, backlog, found, worked, taking, rfl⟩)

/-- What a run of one acceptor says about the peers it took. -/
structure Ran (taken : Nat) (acceptor : Acceptor) (own : List AcceptorEvent) : Prop where
  run : ∃ memory, Asio.acceptors.run (.created memory) own = some acceptor
  took : taken = own.countP AcceptorEvent.takes
  made : acceptor.connections.length = own.countP AcceptorEvent.completes + 1

theorem ran_created (memory : List Byte) : Ran 0 (.created memory) [] := ⟨⟨memory, rfl⟩, rfl, rfl⟩

theorem Ran.next {taken : Nat} {acceptor moved : Acceptor} {own : List AcceptorEvent}
    {event : AcceptorEvent} (ran : Ran taken acceptor own)
    (step : acceptor.next event = some moved) :
    Ran (taken + if event.takes = true then 1 else 0) moved (own ++ [event]) := by
  obtain ⟨⟨memory, execution⟩, took, made⟩ := ran
  have worked : Asio.acceptors.step acceptor event = some moved := step
  refine ⟨⟨memory, ?_⟩, ?_, ?_⟩
  · rw [run_append, execution, Option.bind_some, run_cons, worked]
    rfl
  · rw [List.countP_append, List.countP_singleton, took]
  · rw [List.countP_append, List.countP_singleton]
    cases event with
    | accepted index e memory =>
        rw [Acceptor.next, Option.ite_none_right_eq_some] at step
        obtain ⟨-, stepped⟩ := step
        obtain rfl := Option.some.inj stepped
        simp [Acceptor.accept, Acceptor.start_accept, Acceptor.modify, made,
          AcceptorEvent.completes]
    | readDone index result =>
        rw [Acceptor.next, Option.ite_none_right_eq_some] at step
        obtain ⟨-, stepped⟩ := step
        obtain rfl := Option.some.inj stepped
        simp [Acceptor.modify, made, AcceptorEvent.completes]
    | transfer index offset length count =>
        rw [Acceptor.next, Option.ite_none_right_eq_some] at step
        obtain ⟨-, stepped⟩ := step
        obtain rfl := Option.some.inj stepped
        simp [Acceptor.modify, made, AcceptorEvent.completes]
    | writeDone index offset length e =>
        rw [Acceptor.next, Option.ite_none_right_eq_some] at step
        obtain ⟨-, stepped⟩ := step
        obtain rfl := Option.some.inj stepped
        simp [Acceptor.modify, made, AcceptorEvent.completes]

/-- What every step keeps of the process. -/
structure Sound (threads : Nat) (server : Servicing) : Prop where
  each : ∀ acceptor ∈ server.acceptors, acceptor.Sound
  shared : server.backlog.Shared (fun acceptor taken => ∃ own, Ran taken acceptor own)
    server.acceptors
  open_door : server.backlog.refused = []
  threads : server.unborn + server.acceptors.length = threads

theorem sound_listening (threads : Nat) : Sound threads (listening threads) where
  each := by simp [listening]
  shared := Backlog.shared_nil
  open_door := rfl
  threads := rfl

theorem Sound.next {threads : Nat} (sound : Sound threads server)
    (step : server.next event = some after) : Sound threads after := by
  rcases next_cases step with ⟨memory, left, rfl⟩ | rfl |
    ⟨index, own, acceptor, moved, backlog, found, worked, taking, rfl⟩
  · refine ⟨forall_mem_concat sound.each (Acceptor.sound_created memory),
      sound.shared.join ⟨[], ran_created memory⟩, sound.open_door, ?_⟩
    have threads_eq := sound.threads
    simp only [List.length_append, List.length_singleton]
    omega
  · exact ⟨sound.each, sound.shared.same_taken rfl sound.shared.sound.arrive, sound.open_door,
      sound.threads⟩
  · have member := List.mem_of_getElem? found
    have counts : ∀ taken, (∃ before, Ran taken acceptor before) →
        ∃ later, Ran (taken + if own.takes = true then 1 else 0) moved later := by
      rintro taken ⟨before, ran⟩
      exact ⟨_, ran.next worked⟩
    obtain ⟨shared, refused_eq⟩ := sound.shared.serve found counts taking
    refine ⟨forall_mem_set sound.each ((sound.each acceptor member).next worked), shared,
      refused_eq.trans sound.open_door, ?_⟩
    rw [List.length_set]
    exact sound.threads

theorem reachable_sound {threads : Nat} (reach : servicings.Reachable (listening threads) server) :
    Sound threads server := by
  have preserves : servicings.Preserves (Sound threads) := fun _ _ _ sound step => sound.next step
  exact preserves.reachable (sound_listening threads) reach

/-- In every reachable state of the process, with any number of threads: each peer that ever
connected is a connection of exactly one thread or still waits, and the peers are taken in the order
in which they came.  Each thread got where it is by its own handlers and has a connection for each
of its accepts, with or without a peer, and one more that waits; so whenever a peer waits, every
thread that has started can take it. -/
theorem peers_spread {threads : Nat} (reach : servicings.Reachable (listening threads) server) :
    (server.backlog.taken.map Prod.snd ++ server.backlog.queue).Perm
      (List.range server.backlog.arrived) ∧
    (server.backlog.taken.map Prod.snd ++ server.backlog.queue).Pairwise (· < ·) ∧
    (∀ (index : Nat) acceptor, server.acceptors[index]? = some acceptor →
      ∃ memory own, Asio.acceptors.run (.created memory) own = some acceptor ∧
        server.backlog.takenBy index = own.countP AcceptorEvent.takes ∧
        acceptor.connections.length = own.countP AcceptorEvent.completes + 1) ∧
    (server.backlog.queue ≠ [] → ∀ (index : Nat) acceptor,
      server.acceptors[index]? = some acceptor → ∀ memory : List Byte, memory.length = max_length →
        ∃ after, servicings.step server
            (.acceptor index (.accepted (acceptor.connections.length - 1) false memory)) =
          some after ∧
          after.backlog.takenBy index = server.backlog.takenBy index + 1) := by
  have sound := reachable_sound reach
  obtain ⟨placed, ordered⟩ := sound.shared.sound
  rw [sound.open_door, List.append_nil] at placed
  refine ⟨placed, ordered, ?_, ?_⟩
  · intro index acceptor found
    obtain ⟨own, ⟨memory, execution⟩, took, made⟩ := sound.shared.each index acceptor found
    exact ⟨memory, own, execution, took, made⟩
  · intro waiting index acceptor found memory whole
    have waits := (sound.each acceptor (List.mem_of_getElem? found)).waits
    obtain ⟨peer, rest, queue_eq⟩ := List.exists_cons_of_ne_nil waiting
    obtain ⟨backlog, taking⟩ : ∃ backlog, server.backlog.take index = some backlog := by
      rw [Backlog.take, queue_eq]
      exact ⟨_, rfl⟩
    have one_more := Backlog.takenBy_take taking index
    rw [if_pos rfl] at one_more
    have step : servicings.step server
        (.acceptor index (.accepted (acceptor.connections.length - 1) false memory)) =
          some { server with
            acceptors := server.acceptors.set index
              ((acceptor.modify (acceptor.connections.length - 1) (.finish .accept)).accept
                (acceptor.connections.length - 1) false memory)
            backlog } := by
      simp only [servicings, next, found, Option.bind_some, Acceptor.next, waits, whole, and_self,
        if_true, AcceptorEvent.takes, Bool.not_false, taking, Option.map_some]
    exact ⟨_, step, one_more⟩

/-- Two threads share three peers. -/
def threePeers : List ServicingEvent :=
  [.spawn [0], .arrive, .spawn [1], .arrive,
    .acceptor 1 (.accepted 0 false (List.replicate max_length 0)), .arrive,
    .acceptor 0 (.accepted 0 true (List.replicate max_length 0)),
    .acceptor 0 (.accepted 1 false (List.replicate max_length 0))]

theorem peers_spread_three : ∃ server after,
    servicings.run (listening 2) threePeers = some server ∧ server.backlog.queue = [2] ∧
      servicings.step server (.acceptor 0 (.accepted 2 false (List.replicate max_length 0))) =
        some after := by
  have evaluated : (servicings.run (listening 2) threePeers).map (fun server =>
      (server.backlog.queue,
        server.acceptors[0]?.map fun acceptor => acceptor.connections.length)) =
        some ([2], some 3) := by decide +kernel
  obtain ⟨server, execution, seen⟩ := Option.map_eq_some_iff.mp evaluated
  obtain ⟨queue_eq, first⟩ := Prod.mk.inj seen
  obtain ⟨acceptor, found, length_eq⟩ := Option.map_eq_some_iff.mp first
  obtain ⟨-, -, -, progress⟩ := peers_spread ⟨threePeers, execution⟩
  have waiting : server.backlog.queue ≠ [] := by simp [queue_eq]
  obtain ⟨after, step, -⟩ := progress waiting 0 acceptor found (List.replicate max_length 0)
    List.length_replicate
  rw [length_eq] at step
  exact ⟨server, after, execution, queue_eq, step⟩

end Servicing

/-! ## One connection of one thread -/

namespace Servicing

variable {server after : Servicing} {event : ServicingEvent}

theorem next_advances {threads : Nat} (sound : Sound threads server)
    (step : server.next event = some after) (index place : Nat) :
    Advances (fun server => streamAt (Acceptor.received place) server.acceptors index)
      (fun server => streamAt (Acceptor.sent place) server.acceptors index) server after := by
  rcases next_cases step with ⟨memory, -, rfl⟩ | rfl |
    ⟨chosen, own, acceptor, moved, backlog, found, worked, -, rfl⟩
  · have nothing : ∀ view : Connection → List Byte, (∀ data, view
        { data, outstanding := [.accept], deletes := 0, received := [], sent := [] } = []) →
          streamAt view (Acceptor.created memory).connections place = [] := by
      intro view empty
      rw [Acceptor.created, Acceptor.start_accept, List.nil_append, streamAt]
      cases place with
      | zero => exact empty memory
      | succ place => rfl
    exact advances_append (Acceptor.received place) (Acceptor.sent place) Servicing.acceptors rfl
      (nothing Connection.received fun _ => rfl) (nothing Connection.sent fun _ => rfl) index
  · exact .still rfl rfl
  · have member := List.mem_of_getElem? found
    exact advances_set (Acceptor.received place) (Acceptor.sent place) Servicing.acceptors found rfl
      index fun _ => (sound.each acceptor member).advances worked place

end Servicing

/-- The connection at `place` of the thread at `index`. -/
def echoService (threads index place : Nat) : EchoService Byte where
  State := Servicing
  Event := ServicingEvent
  system := servicings
  initial := .listening threads
  received server := streamAt (Acceptor.received place) server.acceptors index
  sent server := streamAt (Acceptor.sent place) server.acceptors index
  Allowed _ _ _ := True

theorem echoService_faithful (threads index place : Nat) :
    (echoService threads index place).Faithful := by
  apply EchoService.faithful_of_invariant (Servicing.Sound threads)
  · exact Servicing.sound_listening threads
  · rfl
  · intro server sound
    refine streamAt_prefix (fun position (acceptor : Acceptor) found => ?_) index
    exact (sound.each acceptor (List.mem_of_getElem? found)).echoes place
  · intro server event next sound step _
    have advances := Servicing.next_advances sound step index place
    exact ⟨sound.next step, advances.received_grows, advances.sent_grows⟩

end Mrps.Asio
