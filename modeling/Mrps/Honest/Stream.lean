import Mrps.EchoPipe
import Mrps.Honest.Callbacks

/-!
# The buffered clients are echo pipes

Every run of one connection, of either program, is a run of an echo pipe whose pending symbols are
the bytes of the client's window.  No run commits a memory error.
-/

namespace Mrps.Honest

open EventSystem

/-- The connection shows the history of the pipe, its client holds what the pipe owes, and a freed
client has no watcher left. -/
structure Shows (conn : Connection) (pipe : EchoPipe Byte) : Prop where
  received : conn.received = pipe.received
  sent : conn.sent = pipe.sent
  window : ∀ client, conn.client = some client → client.Window
  pending : ∀ client, conn.client = some client → client.pending = pipe.pending
  quiet : conn.client = none → conn.watchers.Quiet

namespace Shows

variable {conn : Connection} {pipe : EchoPipe Byte} {client : EchoClient}

theorem initial (sd : Nat) (memory : Vector Byte TO_SEND_SIZE) (now : Time) :
    Shows (echoClientAdd sd memory now) EchoPipe.empty := by
  refine ⟨rfl, rfl, ?_, ?_, by simp [echoClientAdd]⟩
  · rintro client ⟨⟩
    exact ⟨by simp, by simp⟩
  · rintro client ⟨⟩
    simp [EchoClient.pending]

theorem register (shown : Shows conn pipe) (live : conn.client = some client)
    (call : Watchers → Watchers) : Shows (conn.register call) pipe :=
  ⟨shown.received, shown.sent, shown.window, shown.pending, by simp [Connection.register, live]⟩

theorem deleted (shown : Shows conn pipe) (fd : Nat) : Shows (conn.deleted fd) pipe :=
  ⟨shown.received, shown.sent, by simp [Connection.deleted], by simp [Connection.deleted],
    fun _ => conn.watchers.stopped_quiet⟩

/-- Compaction changes where the pending bytes are, not what they are. -/
theorem hold_compacted (shown : Shows conn pipe) (live : conn.client = some client) :
    Shows (conn.hold client.compacted) pipe := by
  have window := shown.window client live
  refine ⟨shown.received, shown.sent, ?_, ?_, by simp [Connection.hold]⟩
  · rintro held ⟨⟩
    exact window.compacted
  · rintro held ⟨⟩
    exact window.compacted_pending.trans (shown.pending client live)

theorem filled (shown : Shows conn pipe) (live : conn.client = some client) {bytes : List Byte}
    (fits : client.toSendBeg + client.toSendSize + bytes.length ≤ TO_SEND_SIZE) :
    Shows (conn.filled client bytes) (pipe.deliver bytes) := by
  have window := shown.window client live
  refine ⟨by simp [Connection.filled, shown.received], shown.sent, ?_, ?_,
    by simp [Connection.filled]⟩
  · rintro held ⟨⟩
    exact window.filled fits
  · rintro held ⟨⟩
    rw [window.filled_pending, EchoPipe.deliver_pending, shown.pending client live]

theorem accepted (shown : Shows conn pipe) (live : conn.client = some client) {count : Nat}
    (le : count ≤ client.toSendSize) :
    Shows (conn.accepted client count) (pipe.accept count) := by
  have pending := shown.pending client live
  refine ⟨shown.received, by simp [Connection.accepted, shown.sent, pending], ?_, ?_,
    by simp [Connection.accepted]⟩
  · rintro held ⟨⟩
    exact (shown.window client live).consumed le
  · rintro held ⟨⟩
    rw [EchoClient.consumed_pending, pending, EchoPipe.accept_pending]

end Shows

/-- The connection shows some continuation of the pipe. -/
def Continues (conn : Connection) (pipe : EchoPipe Byte) : Prop :=
  ∃ events later, EchoPipe.system.run pipe events = some later ∧ Shows conn later

section Effects

variable {conn : Connection} {pipe : EchoPipe Byte} {client : EchoClient}

theorem Shows.continues (shown : Shows conn pipe) : Continues conn pipe := ⟨[], pipe, rfl, shown⟩

theorem Continues.deliver {bytes : List Byte} (later : Continues conn (pipe.deliver bytes)) :
    Continues conn pipe := by
  obtain ⟨events, final, execution, shown⟩ := later
  exact ⟨.deliver bytes :: events, final, execution, shown⟩

theorem Shows.accept {count : Nat} (shown : Shows conn (pipe.accept count)) :
    Continues conn pipe := ⟨[.accept count], _, rfl, shown⟩

theorem sendEffect_continues (shown : Shows conn pipe) (live : conn.client = some client)
    {answer : SendAnswer} (contract : conn.SendContract answer) :
    Continues (sendEffect conn client answer) pipe := by
  rcases answer with (_ | _ | _) | sentNb
  · exact shown.continues
  · exact (shown.deleted _).continues
  · exact (shown.deleted _).continues
  · have le : sentNb ≤ client.toSendSize := by simpa [Connection.SendContract, live] using contract
    have accepted := shown.accepted live le
    rw [sendEffect]
    split
    · exact accepted.accept
    · exact (accepted.register rfl _).accept

theorem sendBackEffect_continues (shown : Shows conn pipe) (live : conn.client = some client)
    {answer : SendAnswer} (contract : conn.SendContract answer) :
    Continues (sendBackEffect conn client answer) pipe := by
  rcases answer with (_ | _ | _) | sentNb
  · exact (shown.register live _).continues
  · exact (shown.deleted _).continues
  · exact (shown.deleted _).continues
  · have le : sentNb ≤ client.toSendSize := by simpa [Connection.SendContract, live] using contract
    have accepted := shown.accepted live le
    rw [sendBackEffect]
    split
    · exact (accepted.register rfl _).accept
    · exact accepted.accept

theorem recvEffect_continues (program : Program) (shown : Shows conn pipe)
    (live : conn.client = some client) {nb : RecvAnswer} {answer : SendAnswer}
    (contract : conn.RecvContract nb answer) :
    Continues (recvEffect (program.doneEffect client) conn client answer nb) pipe := by
  have compacted := shown.hold_compacted live
  rcases nb with (_ | _ | _) | bytes
  · exact (compacted.register rfl _).continues
  · exact (compacted.deleted _).continues
  · exact (compacted.deleted _).continues
  · have window := shown.window client live
    have fits := contract.fits live window
    have send_contract := contract.send live
    rw [recvEffect]
    split
    · cases program with
      | serverHonest => exact (compacted.deleted _).continues
      | threadHonest => exact compacted.continues
    · have filled := compacted.filled rfl fits
      exact (sendBackEffect_continues filled rfl send_contract).deliver

end Effects

/-- A fault-free state that shows the pipe. -/
def Refines : Except Fault Connection → EchoPipe Byte → Prop
  | .ok conn, pipe => Shows conn pipe
  | .error _, _ => False

theorem Fires.continues {program : Program} {conn next : Connection} {client : EchoClient}
    {pipe : EchoPipe Byte} {event : Event} (fires : Fires program conn client event next)
    (shown : Shows conn pipe) (live : conn.client = some client) : Continues next pipe := by
  cases fires with
  | tick elapsed =>
      exact Shows.continues ⟨shown.received, shown.sent, shown.window, shown.pending, shown.quiet⟩
  | pollRecv => exact (shown.register live _).continues
  | pollSend => exact (shown.register live _).continues
  | pollTimeout => exact (shown.register live _).continues
  | wcbRecv _ _ contract =>
      exact recvEffect_continues program (shown.register live _) live contract
  | wcbSend _ contract => exact sendEffect_continues (shown.register live _) live contract
  | wcbTimeout => exact ((shown.register live _).deleted _).continues

/-- One step of a connection continues the pipe it shows. -/
theorem next_continues {program : Program} {conn : Connection} {pipe : EchoPipe Byte}
    {event : Event} {result : Except Fault Connection} (shown : Shows conn pipe)
    (step : conn.next program event = some result) :
    ∃ next, result = .ok next ∧ Continues next pipe := by
  cases held : conn.client with
  | none =>
      obtain ⟨elapsed, -, rfl⟩ := next_of_quiet (shown.quiet held) step
      exact ⟨_, rfl, Shows.continues
        ⟨shown.received, shown.sent, shown.window, shown.pending, shown.quiet⟩⟩
  | some client =>
      obtain ⟨next, rfl, fires⟩ := fires_of_next held (shown.window client held) step
      exact ⟨next, rfl, fires.continues shown held⟩

/-- Both programs refine the echo pipe. -/
theorem connection_simulates (program : Program) :
    Simulation (connectionSystem program) EchoPipe.system Refines := by
  intro state event next pipe refines step
  cases state with
  | error fault => exact refines.elim
  | ok conn =>
      obtain ⟨conn', rfl, events, later, execution, shown⟩ := next_continues refines step
      exact ⟨events, later, execution, shown⟩

/-- Every state one connection reaches is fault free and shows some pipe. -/
theorem reachable_shows {program : Program} {sd : Nat} {memory : Vector Byte TO_SEND_SIZE}
    {now : Time} {state : Except Fault Connection}
    (reach : (connectionSystem program).Reachable (.ok (echoClientAdd sd memory now)) state) :
    ∃ conn pipe, state = .ok conn ∧ Shows conn pipe := by
  obtain ⟨events, execution⟩ := reach
  have start : Refines (.ok (echoClientAdd sd memory now)) EchoPipe.empty :=
    Shows.initial sd memory now
  obtain ⟨_, pipe, -, refines⟩ := (connection_simulates program).run start execution
  cases state with
  | error fault => exact refines.elim
  | ok conn => exact ⟨conn, pipe, rfl, refines⟩

/-- In every run of one connection nothing faults, a live client's window holds exactly the bytes
received and not yet sent, and the sent stream is a prefix of the received stream. -/
theorem echo_conserved {program : Program} {sd : Nat} {memory : Vector Byte TO_SEND_SIZE}
    {now : Time} {state : Except Fault Connection}
    (reach : (connectionSystem program).Reachable (.ok (echoClientAdd sd memory now)) state) :
    ∃ conn, state = .ok conn ∧ conn.sent <+: conn.received ∧
      ∀ client, conn.client = some client →
        conn.sent ++ client.pending = conn.received := by
  obtain ⟨conn, pipe, rfl, shown⟩ := reachable_shows reach
  refine ⟨conn, rfl, ?_, ?_⟩
  · rw [shown.sent, shown.received]
    exact pipe.sent_prefix
  · intro client live
    rw [shown.sent, shown.received, shown.pending client live]
    exact pipe.sent_append_pending

/-! ## A first read that is not sent back -/

/-- The client `echo_client_add` makes. -/
def freshClient (sd : Nat) (memory : Vector Byte TO_SEND_SIZE) : EchoClient :=
  { fd := sd, toSend := memory.toList, toSendBeg := 0, toSendSize := 0 }

theorem freshClient_window (sd : Nat) (memory : Vector Byte TO_SEND_SIZE) :
    (freshClient sd memory).Window := ⟨by simp [freshClient], by simp [freshClient]⟩

theorem freshClient_roomy (sd : Nat) (memory : Vector Byte TO_SEND_SIZE) :
    ¬ (freshClient sd memory).Cramped := by
  simp [freshClient, EchoClient.Cramped, TO_SEND_SIZE]

theorem freshClient_asked (sd : Nat) (memory : Vector Byte TO_SEND_SIZE) :
    (freshClient sd memory).asked = TO_SEND_SIZE := by
  rw [(freshClient_window sd memory).asked_eq, EchoClient.room,
    if_neg (freshClient_roomy sd memory)]
  simp [freshClient]

/-- A new connection whose descriptor was found readable. -/
def polledConnection (sd : Nat) (memory : Vector Byte TO_SEND_SIZE) (now : Time) : Connection :=
  (echoClientAdd sd memory now).register fun watchers =>
    { watchers with recv := { active := true, pending := true } }

/-- A new connection that received `bytes` and could send none of them. -/
def heldConnection (sd : Nat) (memory : Vector Byte TO_SEND_SIZE) (now : Time)
    (bytes : List Byte) : Connection :=
  (((polledConnection sd memory now).register Watchers.recvInvoked).filled (freshClient sd memory)
    bytes).register Watchers.sendStarted

theorem fires_first_recv (program : Program) (sd : Nat) (memory : Vector Byte TO_SEND_SIZE)
    (now : Time) {bytes : List Byte} {answer : SendAnswer} (nonempty : bytes ≠ [])
    (fits : bytes.length ≤ TO_SEND_SIZE)
    (takes : ∀ sentNb, answer = .ok sentNb → sentNb ≤ bytes.length) :
    Fires program (polledConnection sd memory now) (freshClient sd memory)
      (.wcbRecv [.ok bytes] answer)
      (sendBackEffect
        (((polledConnection sd memory now).register Watchers.recvInvoked).filled
          (freshClient sd memory) bytes) ((freshClient sd memory).filled bytes) answer) := by
  have returned : auxUnixRecv [.ok bytes] = some (.ok bytes) := rfl
  have bytes_le : bytes.length ≤ (freshClient sd memory).asked := by rwa [freshClient_asked]
  have contract : ((polledConnection sd memory now).register Watchers.recvInvoked).RecvContract
      (.ok bytes) answer := by
    refine ⟨bytes_le, ?_⟩
    rcases answer with errno | sentNb
    · trivial
    · exact (takes sentNb rfl).trans (Nat.le_add_left _ _)
  have fires : Fires program (polledConnection sd memory now) (freshClient sd memory)
      (.wcbRecv [.ok bytes] answer) _ := .wcbRecv rfl returned contract
  rwa [recvEffect, if_neg nonempty, EchoClient.compacted, if_neg (freshClient_roomy sd memory)]
    at fires

theorem fires_first_read (program : Program) (sd : Nat) (memory : Vector Byte TO_SEND_SIZE)
    (now : Time) {bytes : List Byte} (nonempty : bytes ≠ []) (fits : bytes.length ≤ TO_SEND_SIZE) :
    Fires program (polledConnection sd memory now) (freshClient sd memory)
      (.wcbRecv [.ok bytes] (.error .eagain)) (heldConnection sd memory now bytes) :=
  fires_first_recv program sd memory now nonempty fits (by simp)

theorem run_first_read (program : Program) (sd : Nat) (memory : Vector Byte TO_SEND_SIZE)
    (now : Time) {bytes : List Byte} (nonempty : bytes ≠ []) (fits : bytes.length ≤ TO_SEND_SIZE) :
    (connectionSystem program).run (.ok (echoClientAdd sd memory now))
        [.pollRecv, .wcbRecv [.ok bytes] (.error .eagain)] =
      some (.ok (heldConnection sd memory now bytes)) := by
  have step := (fires_first_read program sd memory now nonempty fits).next_eq rfl
    (freshClient_window sd memory)
  simp only [run_cons]
  exact congrArg (fun state => state.bind fun next => some next) step

theorem echo_conserved_first_read :
    ∃ conn, (.ok (heldConnection 5 (Vector.replicate TO_SEND_SIZE 0) 0 [104, 105]) :
        Except Fault Connection) = .ok conn ∧ conn.sent <+: conn.received ∧
      ∀ client, conn.client = some client → conn.sent ++ client.pending = conn.received :=
  echo_conserved
    ⟨_, run_first_read .threadHonest 5 (Vector.replicate TO_SEND_SIZE 0) 0 (by simp) (by decide)⟩

end Mrps.Honest
