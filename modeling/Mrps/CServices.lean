import Mrps.AcceptService
import Mrps.Plain.Echo
import Mrps.Threads

/-!
# The servers in C as echo services

One client of each program, beside all other clients of its process, the accept callback and, in the
programs with threads, the threads on their way between the two.  The plain programs drop what a
short `send` leaves, so they echo as long as no later `send` to the client follows such a rest.
-/

namespace Mrps

open EventSystem EchoService

namespace Honest

/-- What was received on an accepted connection. -/
def Accepted.received (entry : Accepted) : List Byte := entry.conn.received

/-- What was sent on an accepted connection. -/
def Accepted.sent (entry : Accepted) : List Byte := entry.conn.sent

/-- What was received from the client at `index`. -/
def received (index : Nat) (process : Process) : List Byte :=
  streamAt Accepted.received process.clients index

/-- What was sent to the client at `index`. -/
def sent (index : Nat) (process : Process) : List Byte :=
  streamAt Accepted.sent process.clients index

/-- A stream of a process; a fault has none. -/
def ofProcess (view : Process → List Byte) : Except Fault Process → List Byte
  | .ok process => view process
  | .error _ => []

theorem Shows.advances {program : Program} {conn next : Connection} {pipe : EchoPipe Byte}
    {event : Event} (shown : Shows conn pipe) (step : conn.next program event = some (.ok next)) :
    Advances Connection.received Connection.sent conn next := by
  obtain ⟨_, result_eq, events, later, execution, shown'⟩ := next_continues shown step
  obtain rfl := Except.ok.inj result_eq
  refine ⟨?_, ?_, fun _ => ?_⟩
  · rw [shown.received, shown'.received]
    exact EchoPipe.run_received_prefix execution
  · rw [shown.sent, shown'.sent]
    exact EchoPipe.run_sent_prefix execution
  · rw [shown'.sent, shown'.received]
    exact later.sent_prefix

theorem Process.client_advances {program : Program} {process after : Process} {place : Nat}
    {event : Event} (shown : ∀ (index : Nat) (entry : Accepted),
      process.clients[index]? = some entry → ∃ pipe, Shows entry.conn pipe)
    (step : process.next program (.client place event) = some (.ok after)) (index : Nat) :
    Advances (received index) (sent index) process after := by
  simp only [Process.next, Option.bind_eq_some_iff, Option.map_eq_some_iff] at step
  obtain ⟨entry, found, answer, conn_step, after_eq⟩ := step
  obtain ⟨pipe, shown_here⟩ := shown place entry found
  cases answer with
  | error fault => cases after_eq
  | ok conn =>
      obtain rfl := Except.ok.inj after_eq
      obtain ⟨read, given, echoes⟩ := shown_here.advances conn_step
      have here : Advances Accepted.received Accepted.sent entry { entry with conn } :=
        ⟨read, given, echoes⟩
      exact advances_set Accepted.received Accepted.sent Process.clients found rfl index
        fun _ => here

theorem registry_streams (listener index : Nat) :
    registry.Streams (Secured listener) index (received index) (sent index) fun _ _ => True where
  leave _ _ := ⟨rfl, rfl⟩
  register _ _ _ :=
    advances_append Accepted.received Accepted.sent Process.clients rfl rfl rfl index
  act handles process place event after sound acted _ := by
    have shown : ∀ (index : Nat) (entry : Accepted), process.clients[index]? = some entry →
      ∃ pipe, Shows entry.conn pipe := sound.lawful.shown
    exact Process.client_advances shown acted index

theorem Process.next_advances {program : Program} {process after : Process} {event : ProcessEvent}
    (lawful : process.Lawful) (step : process.next program event = some (.ok after)) (index : Nat) :
    Advances (received index) (sent index) process after := by
  cases event with
  | client place event => exact Process.client_advances lawful.shown step index
  | accept answer =>
      rw [Process.next, Option.ite_none_right_eq_some] at step
      obtain ⟨-, stepped⟩ := step
      obtain rfl := Except.ok.inj (Option.some.inj stepped)
      cases answer with
      | evError | refused | blocking | noMemory => exact .still rfl rfl
      | added sd memory now =>
          exact advances_append Accepted.received Accepted.sent Process.clients rfl rfl rfl index

/-- One client of `server-honest.c`. -/
def echoService (listener index : Nat) : EchoService Byte where
  State := Except Fault Process
  Event := ProcessEvent
  system := processSystem .serverHonest
  initial := .ok (.listening listener)
  received := ofProcess (received index)
  sent := ofProcess (sent index)
  Allowed _ _ _ := True

/-- A fault-free and lawful process whose client echoes. -/
def EchoingAt (index : Nat) (state : Except Fault Process) : Prop :=
  Healthy state ∧ ofProcess (sent index) state <+: ofProcess (received index) state

theorem echoService_faithful (listener index : Nat) : (echoService listener index).Faithful := by
  apply EchoService.faithful_of_invariant (EchoingAt index)
  · exact ⟨Process.listening_lawful listener, List.prefix_rfl⟩
  · rfl
  · exact fun _ echoing => echoing.2
  · rintro state event next ⟨healthy, echoes⟩ step -
    have healthy' := healthy_preserved .serverHonest state event next healthy step
    cases state with
    | error fault => exact healthy.elim
    | ok process =>
        cases next with
        | error fault => exact healthy'.elim
        | ok after =>
            have advances := Process.next_advances healthy step index
            exact ⟨⟨healthy', advances.echoes echoes⟩, advances.received_grows, advances.sent_grows⟩

end Honest

namespace Plain

/-- What was received from the client at `index`. -/
def received (index : Nat) (process : Process) : List Byte :=
  streamAt Connection.received process.clients index

/-- What was sent to the client at `index`. -/
def sent (index : Nat) (process : Process) : List Byte :=
  streamAt Connection.sent process.clients index

/-- A stream of a process; a fault has none. -/
def ofProcess (view : Process → List Byte) : Except Fault Process → List Byte
  | .ok process => view process
  | .error _ => []

/-- The event is a prompt one for the client at `index`. -/
def Timely (index : Nat) (process : Process) (event : Event) : Prop :=
  ∀ conn ∈ process.clients[index]?, Prompt (.ok conn) event (.ok conn)

theorem Fires.grows {conn next : Connection} {client : EchoClient} {event : Event}
    (fires : Fires conn client event next) :
    conn.received <+: next.received ∧ conn.sent <+: next.sent := by
  cases fires with
  | tick => exact ⟨List.prefix_rfl, List.prefix_rfl⟩
  | pollRecv => exact ⟨List.prefix_rfl, List.prefix_rfl⟩
  | pollTimeout => exact ⟨List.prefix_rfl, List.prefix_rfl⟩
  | @wcbRecv recv nb send pending returned contract =>
      rcases nb with (_ | _ | _) | bytes
      · exact ⟨List.prefix_rfl, List.prefix_rfl⟩
      · exact ⟨List.prefix_rfl, List.prefix_rfl⟩
      · exact ⟨List.prefix_rfl, List.prefix_rfl⟩
      · rw [recvEffect]
        split
        · exact ⟨List.prefix_rfl, List.prefix_rfl⟩
        · cases send with
          | error error => exact ⟨List.prefix_append _ _, List.prefix_append _ _⟩
          | ok sentNb => exact ⟨List.prefix_append _ _, List.prefix_append _ _⟩
  | wcbTimeout => exact ⟨List.prefix_rfl, List.prefix_rfl⟩

theorem Settled.advances {conn next : Connection} {event : Event} (settled : Settled conn)
    (step : conn.next event = some (.ok next)) (prompt : Prompt (.ok conn) event (.ok next)) :
    Advances Connection.received Connection.sent conn next := by
  obtain ⟨_, result_eq, -, ⟨client, -, fires⟩ | ⟨-, elapsed, -, next_eq⟩⟩ :=
    next_cases settled step
  · obtain rfl := Except.ok.inj result_eq
    exact ⟨fires.grows.1, fires.grows.2, fun kept => fires.sent_prefix kept prompt⟩
  · obtain rfl := (Except.ok.inj result_eq).trans next_eq
    exact .still rfl rfl

theorem Process.client_advances {process after : Process} {place : Nat} {event : Event}
    (settled : ∀ conn ∈ process.clients, Settled conn)
    (step : process.next (.client place event) = some (.ok after)) {index : Nat}
    (timely : place = index → Timely index process event) :
    Advances (received index) (sent index) process after := by
  simp only [Process.next, Option.bind_eq_some_iff, Option.map_eq_some_iff] at step
  obtain ⟨conn, found, answer, conn_step, after_eq⟩ := step
  cases answer with
  | error fault => cases after_eq
  | ok next =>
      obtain rfl := Except.ok.inj after_eq
      apply advances_set Connection.received Connection.sent Process.clients found rfl index
      rintro rfl
      exact (settled conn (List.mem_of_getElem? found)).advances conn_step (timely rfl conn found)

theorem registry_streams (listener index : Nat) :
    registry.Streams (Secured listener) index (received index) (sent index) (Timely index) where
  leave _ _ := ⟨rfl, rfl⟩
  register _ _ _ :=
    advances_append Connection.received Connection.sent Process.clients rfl rfl rfl index
  act handles process place event after sound acted timely := by
    have settled : ∀ conn ∈ process.clients, Settled conn := sound.settled
    exact Process.client_advances settled acted timely

theorem Process.next_advances {process after : Process} {event : ProcessEvent}
    (settled : ∀ conn ∈ process.clients, Settled conn)
    (step : process.next event = some (.ok after)) {index : Nat}
    (timely : ∀ own, event = .client index own → Timely index process own) :
    Advances (received index) (sent index) process after := by
  cases event with
  | client place event =>
      apply Process.client_advances settled step
      rintro rfl
      exact timely event rfl
  | accept answer =>
      rw [Process.next, Option.ite_none_right_eq_some] at step
      obtain ⟨-, stepped⟩ := step
      obtain rfl := Except.ok.inj (Option.some.inj stepped)
      cases answer with
      | evError | refused | blocking | noMemory => exact .still rfl rfl
      | added sd now =>
          exact advances_append Connection.received Connection.sent Process.clients
            rfl rfl rfl index

/-- One client of `server.c`, while no `send` to it follows one that left a rest. -/
def echoService (listener index : Nat) : EchoService Byte where
  State := Except Fault Process
  Event := ProcessEvent
  system := processSystem
  initial := .ok (.listening listener)
  received := ofProcess (received index)
  sent := ofProcess (sent index)
  Allowed state event _ :=
    ∀ process, state = .ok process → ∀ own, event = .client index own → Timely index process own

/-- A fault-free process whose client echoes. -/
def EchoingAt (index : Nat) (state : Except Fault Process) : Prop :=
  Healthy state ∧ ofProcess (sent index) state <+: ofProcess (received index) state

theorem echoService_faithful (listener index : Nat) : (echoService listener index).Faithful := by
  apply EchoService.faithful_of_invariant (EchoingAt index)
  · exact ⟨healthy_listening listener, List.prefix_rfl⟩
  · rfl
  · exact fun _ echoing => echoing.2
  · rintro state event next ⟨healthy, echoes⟩ step timely
    have healthy' := healthy_preserved state event next healthy step
    cases state with
    | error fault => exact healthy.elim
    | ok process =>
        cases next with
        | error fault => exact healthy'.elim
        | ok after =>
            have advances := Process.next_advances healthy step (timely process rfl)
            exact ⟨⟨healthy', advances.echoes echoes⟩, advances.received_grows, advances.sent_grows⟩

end Plain

/-! ## The programs with threads -/

namespace ThreadServer

/-- What was received from the client at `index`. -/
def received (index : Nat) : (program : ThreadServer) → program.Process → List Byte
  | .threadHonest => Honest.received index
  | .thread => Plain.received index

/-- What was sent to the client at `index`. -/
def sent (index : Nat) : (program : ThreadServer) → program.Process → List Byte
  | .threadHonest => Honest.sent index
  | .thread => Plain.sent index

/-- The event is one that the program can echo for the client at `index`. -/
def Timely (index : Nat) : (program : ThreadServer) → program.Process → program.ClientEvent → Prop
  | .threadHonest => fun _ _ => True
  | .thread => Plain.Timely index

/-- One client of a program with threads; peers are numbered in the order in which they come. -/
def echoService (program : ThreadServer) (threads listener index : Nat) : EchoService Byte :=
  AcceptPool.service Nat program.registry index (program.received index) (program.sent index)
    (program.Timely index) threads (program.listening listener)

theorem echoService_faithful (program : ThreadServer) (threads listener index : Nat) :
    (program.echoService threads listener index).Faithful := by
  cases program with
  | threadHonest =>
      exact AcceptPool.service_faithful (Honest.registry_streams listener index)
        (Honest.registry_framed listener) (Honest.registry_preserves listener) threads
        (Honest.secured_listening listener) rfl rfl
  | thread =>
      exact AcceptPool.service_faithful (Plain.registry_streams listener index)
        (Plain.registry_framed listener) (Plain.registry_preserves listener) threads
        (Plain.secured_listening listener) rfl rfl

end ThreadServer

end Mrps
