import Mrps.Asio.Servicing
import Mrps.CServices
import Mrps.Epoll.Delivery
import Mrps.Erlang.Handoff
import Mrps.Java.Echo
import Mrps.Meeting
import Mrps.Node.Cluster
import Mrps.Perl.Delivery

/-!
# The servers as echo services

Every server whose echo is modelled, with what one of its connections takes in and gives out while
all its other connections go on beside it.  Those that drop what a short write leaves are faithful
as long as no later write follows such a rest.
-/

namespace Mrps

open EventSystem Tester

/-! ## Java -/

namespace Java.ReadWriter

/-- One channel of a scheduler with a `ReadWriteProcessor`. -/
def echoService (id : Nat) : EchoService Byte where
  State := ReadWriter
  Event := ReadWriterEvent
  system := selections
  initial := started
  received server := (server.key id).received
  sent server := (server.key id).sent
  Allowed _ _ _ := True

theorem echoService_faithful (id : Nat) : (echoService id).Faithful := by
  apply EchoService.faithful_of_simulation (selections_simulate id)
  · exact follows_started id
  · exact fun _ _ follows => follows.1.received
  · exact fun _ _ follows => follows.1.sent

end Java.ReadWriter

/-! ## Erlang -/

namespace Erlang

/-- What arrived at a socket. -/
def ServerConnection.arrived (connection : ServerConnection) : List Byte :=
  connection.socket.arrived

/-- What was sent on a socket. -/
def ServerConnection.sent (connection : ServerConnection) : List Byte := connection.socket.sent

/-- A history of a connection, which only `arrive` and `send` make longer. -/
structure History (view : ServerConnection → List Byte) : Prop where
  goOn : ∀ phase mailbox connection, view (connection.goOn phase mailbox) = view connection
  tell : ∀ message connection, view (connection.tell message) = view connection
  control : ∀ pid connection, view (connection.control pid) = view connection
  dequeue : ∀ count connection, view (connection.dequeue count) = view connection
  close : ∀ connection, view connection.close = view connection
  setopts : ∀ mailbox connection, view (connection.setopts mailbox) = view connection
  arrive : ∀ chunk connection, view connection <+: view (connection.arrive chunk)
  send : ∀ data connection, view connection <+: view (connection.send data)

theorem history_arrived : History ServerConnection.arrived where
  goOn _ _ _ := rfl
  tell _ _ := rfl
  control pid connection := by
    rw [ServerConnection.control]
    split <;> rfl
  dequeue _ _ := rfl
  close _ := rfl
  setopts _ _ := rfl
  arrive _ _ := List.prefix_append _ _
  send data connection := by
    rw [ServerConnection.send]
    split <;> exact List.prefix_rfl

theorem history_sent : History ServerConnection.sent where
  goOn _ _ _ := rfl
  tell _ _ := rfl
  control pid connection := by
    rw [ServerConnection.control]
    split <;> rfl
  dequeue _ _ := rfl
  close _ := rfl
  setopts _ _ := rfl
  arrive _ _ := List.prefix_rfl
  send data connection := by
    rw [ServerConnection.send]
    split
    · exact List.prefix_append _ _
    · exact List.prefix_rfl

section Steps

variable {view : ServerConnection → List Byte}

theorem History.handle (history : History view) (sock : Nat) (message : ServerMessage)
    (rest : List ServerMessage) (connection : ServerConnection) :
    view connection <+: view (connection.handle sock message rest) := by
  have finished : view connection <+: view (connection.goOn .finished rest).close := by
    rw [history.close, history.goOn]
  cases message with
  | tcp from_sock data =>
      rw [ServerConnection.handle]
      split
      · rw [← history.goOn .handling rest connection]
        exact history.send data _
      · exact finished
  | perm | tcp_closed | tcp_error | other => exact finished

theorem History.tellOwner (history : History view) (server : Server) (owner : Owner)
    (message : ServerMessage) (index : Nat) :
    streamAt view server.connections index <+:
      streamAt view (server.tell owner message).connections index := by
  cases owner with
  | acceptor => exact List.prefix_rfl
  | process pid =>
      exact streamAt_modify (fun connection => by rw [history.tell]) _ _ _

theorem History.next (history : History view) {server after : Server} {event : ServerEvent}
    (step : server.next event = some after) (index : Nat) :
    streamAt view server.connections index <+: streamAt view after.connections index := by
  have modified : ∀ (chosen : Nat) (change : ServerConnection → ServerConnection),
      (∀ connection, view connection <+: view (change connection)) →
        streamAt view server.connections index <+:
          streamAt view (server.modify chosen change).connections index :=
    fun chosen change grows => streamAt_modify grows _ _ _
  cases event with
  | accepted =>
      simp only [Server.next, Option.ite_none_right_eq_some, Option.some.injEq] at step
      obtain ⟨-, rfl⟩ := step
      exact streamAt_concat _ _ _
  | aborted =>
      simp only [Server.next, Option.ite_none_right_eq_some, Option.some.injEq] at step
      obtain ⟨-, rfl⟩ := step
      exact List.prefix_rfl
  | failed =>
      simp only [Server.next, Option.ite_none_right_eq_some, Option.some.injEq] at step
      obtain ⟨-, rfl⟩ := step
      exact List.prefix_rfl
  | spawn =>
      simp only [Server.next] at step
      split at step
      · obtain rfl := Option.some.inj step
        exact modified _ _ fun connection => by rw [history.goOn]
      · simp at step
  | controllingProcess =>
      simp only [Server.next] at step
      split at step
      · obtain rfl := Option.some.inj step
        exact modified _ _ fun connection => by rw [history.control]
      · simp at step
  | perm =>
      simp only [Server.next] at step
      split at step
      · obtain rfl := Option.some.inj step
        exact history.tellOwner server _ _ index
      · simp at step
  | granted pid =>
      obtain ⟨process, -, taken⟩ := Option.bind_eq_some_iff.mp step
      obtain ⟨received, -, rfl⟩ := Option.map_eq_some_iff.mp taken
      exact modified _ _ fun connection => by rw [history.goOn]
  | bindTimeout pid =>
      obtain ⟨process, -, taken⟩ := Option.bind_eq_some_iff.mp step
      rw [Option.ite_none_right_eq_some] at taken
      obtain ⟨-, stepped⟩ := taken
      obtain rfl := Option.some.inj stepped
      exact modified _ _ fun connection => by rw [history.goOn]
  | setopts pid =>
      obtain ⟨process, -, rfl⟩ := Option.map_eq_some_iff.mp step
      exact modified _ _ fun connection => by rw [history.setopts]
  | handle pid =>
      obtain ⟨process, -, taken⟩ := Option.bind_eq_some_iff.mp step
      split at taken
      · obtain rfl := Option.some.inj taken
        exact modified _ _ (history.handle _ _ _)
      · simp at taken
  | handleTimeout pid =>
      obtain ⟨process, -, taken⟩ := Option.bind_eq_some_iff.mp step
      rw [Option.ite_none_right_eq_some] at taken
      obtain ⟨-, stepped⟩ := taken
      obtain rfl := Option.some.inj stepped
      exact modified _ _ fun connection => by rw [history.close, history.goOn]
  | arrive sock chunk =>
      obtain ⟨connection, -, taken⟩ := Option.bind_eq_some_iff.mp step
      rw [Option.ite_none_right_eq_some] at taken
      obtain ⟨-, stepped⟩ := taken
      obtain rfl := Option.some.inj stepped
      exact modified _ _ (history.arrive chunk)
  | deliver sock count =>
      obtain ⟨socket, -, taken⟩ := Option.bind_eq_some_iff.mp step
      rw [Option.ite_none_right_eq_some] at taken
      obtain ⟨-, stepped⟩ := taken
      obtain rfl := Option.some.inj stepped
      exact (modified _ _ fun connection => by rw [history.dequeue]).trans
        (history.tellOwner _ _ _ index)
  | closed sock =>
      obtain ⟨socket, -, rfl⟩ := Option.map_eq_some_iff.mp step
      exact (modified _ _ fun connection => by rw [history.close]).trans
        (history.tellOwner _ _ _ index)
  | error sock reason =>
      obtain ⟨socket, -, rfl⟩ := Option.map_eq_some_iff.mp step
      exact history.tellOwner server _ _ index
  | stray pid =>
      obtain rfl := Option.some.inj step
      exact history.tellOwner server _ _ index

end Steps

/-- One connection of the server, with what arrived at its socket as what it took in. -/
def echoService (index : Nat) : EchoService Byte where
  State := Server
  Event := ServerEvent
  system := servers
  initial := .listening
  received server := streamAt ServerConnection.arrived server.connections index
  sent server := streamAt ServerConnection.sent server.connections index
  Allowed _ _ _ := True

theorem echoService_faithful (index : Nat) : (echoService index).Faithful := by
  apply EchoService.faithful_of_invariant Server.Sound
  · exact Server.sound_listening
  · rfl
  · intro server sound
    exact streamAt_prefix
      (fun position connection found => (sound.connections position connection found).echoed) index
  · intro server event next sound step _
    exact ⟨sound.next step, history_arrived.next step index, history_sent.next step index⟩

end Erlang

/-! ## All of them -/

/-- A connection of one of the servers. -/
inductive EchoServer where
  /-- A client of `server-honest.c`, which listens on `listener`. -/
  | serverHonest (listener index : Nat)
  /-- A client of `server.c`. -/
  | server (listener index : Nat)
  /-- A client of `thread-honest.c` or `thread.c`, however many threads serve it and the others. -/
  | threaded (program : ThreadServer) (threads listener index : Nat)
  /-- A `connection` of one thread of `server.cc`. -/
  | asio (threads index place : Nat)
  /-- A socket of one of the workers of `echo_tcp.cpp`. -/
  | epoll (workerNumber index place : Nat)
  /-- A channel of one scheduler of `Server.java`. -/
  | java (id : Nat)
  /-- A connection of `server.erl`. -/
  | erlang (index : Nat)
  /-- A socket of one of the workers of `10kx_decoded.pl`. -/
  | perl (index socket : Nat)
  /-- A socket of one of the workers of `tcp-cluster.js`. -/
  | node (numCPUs index place : Nat)

/-- The connection as its peer sees it. -/
def EchoServer.service : EchoServer → EchoService Byte
  | .serverHonest listener index => Honest.echoService listener index
  | .server listener index => Plain.echoService listener index
  | .threaded program threads listener index => program.echoService threads listener index
  | .asio threads index place => Asio.echoService threads index place
  | .epoll workerNumber index place => Epoll.echoService workerNumber index place
  | .java id => Java.ReadWriter.echoService id
  | .erlang index => Erlang.echoService index
  | .perl index socket => Perl.echoService index socket
  | .node numCPUs index place => Node.echoService numCPUs index place

theorem EchoServer.faithful (server : EchoServer) : server.service.Faithful := by
  cases server with
  | serverHonest listener index => exact Honest.echoService_faithful listener index
  | server listener index => exact Plain.echoService_faithful listener index
  | threaded program threads listener index =>
      exact program.echoService_faithful threads listener index
  | asio threads index place => exact Asio.echoService_faithful threads index place
  | epoll workerNumber index place => exact Epoll.echoService_faithful workerNumber index place
  | java id => exact Java.ReadWriter.echoService_faithful id
  | erlang index => exact Erlang.echoService_faithful index
  | perl index socket => exact Perl.echoService_faithful index socket
  | node numCPUs index place => exact Node.echoService_faithful numCPUs index place

/-- The tester against a connection of any of the servers, with any interleaving of the two, any
segmentation in both directions and anything happening to the server's other connections, threads
and processes: the tester does not fault, no byte is lost, duplicated or reordered between the two,
and every reply it reads is accepted.  The programs that drop what a short write leaves are trusted
not to write on after one. -/
theorem tester_accepts_every_server (server : EchoServer) {serviceId : Nat}
    {send read : Vector Byte 33} {now : Time} {events : List (MeetingEvent server.service)}
    {state : Except Tester.Fault (Meeting server.service)}
    (assumed : (meetings server.service).Along MeetingAssumed
      (.ok (.initial server.service serviceId send read now)) events)
    (execution : (meetings server.service).run
      (.ok (.initial server.service serviceId send read now)) events = some state) :
    ∃ meeting, state = .ok meeting ∧ meeting.Conserved :=
  meeting_conserved server.faithful assumed execution

/-- The handler connects to `server.erl` and sends its first message, which is delivered to the
process in two parts and comes back. -/
def firstReply : List (MeetingEvent (Erlang.echoService 0)) :=
  firstRequest.map .tester ++
    [.tester (.serve 32), .server .accepted, .server .spawn, .server .controllingProcess,
      .server .perm, .server (.granted 0), .server (.setopts 0), .server (.arrive 0 zeroMessage),
      .server (.deliver 0 5), .server (.handle 0), .server (.deliver 0 27), .server (.handle 0),
      .deliver 32]

theorem contiguous_firstReply : ∀ event, .tester event ∈ firstReply → Contiguous event := by
  intro event member
  simp [firstReply, firstRequest] at member
  rcases member with rfl | rfl | rfl | rfl <;> trivial

theorem tester_accepts_every_server_erlang : ∃ meeting,
    (meetings (Erlang.echoService 0)).run
      (.ok (.initial _ 0 (Vector.replicate 33 0) (Vector.replicate 33 0) 0)) firstReply =
        some (.ok meeting) ∧
      meeting.tester.inbox = zeroMessage ∧
      (meeting.tester.receive 32).handler.Accepts false 32 := by
  obtain ⟨meeting, execution, running, inbox_eq⟩ : ∃ meeting,
      (meetings (Erlang.echoService 0)).run
        (.ok (.initial _ 0 (Vector.replicate 33 0) (Vector.replicate 33 0) 0)) firstReply =
          some (.ok meeting) ∧
        meeting.tester.handler.errored = false ∧ meeting.tester.inbox = zeroMessage :=
    ⟨_, rfl, rfl, by decide⟩
  have assumed : (meetings (Erlang.echoService 0)).Along MeetingAssumed
      (.ok (.initial _ 0 (Vector.replicate 33 0) (Vector.replicate 33 0) 0)) firstReply :=
    along_assumed (fun _ _ _ => trivial) contiguous_firstReply
  obtain ⟨_, same, conserved⟩ := tester_accepts_every_server (.erlang 0) assumed execution
  obtain rfl := Except.ok.inj same
  have enough : 32 ≤ meeting.tester.inbox.length := by
    rw [inbox_eq]
    decide
  exact ⟨meeting, execution, inbox_eq, (conserved.reply running enough).1⟩

end Mrps
