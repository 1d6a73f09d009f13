import Mrps.Plain.Client

/-!
# What each plain callback does

On a live client every callback ends without a fault, and its effect is one of three updates of the
connection: the idle timer restarted, the client deleted, or a chunk received of which the kernel
took some front part back.
-/

namespace Mrps.Plain

/-- Both watchers stopped. -/
def Watchers.stopped (watchers : Watchers) : Watchers :=
  { recv := watchers.recv.stop, timeout := watchers.timeout.stop }

/-- No watcher can lead to a callback. -/
structure Watchers.Quiet (watchers : Watchers) : Prop where
  recv_active : watchers.recv.active = false
  recv_pending : watchers.recv.pending = false
  timeout_active : watchers.timeout.active = false
  timeout_pending : watchers.timeout.pending = false

theorem Watchers.stopped_quiet (watchers : Watchers) : watchers.stopped.Quiet :=
  ⟨rfl, rfl, rfl, rfl⟩

/-- The idle timer restarted at `now`. -/
def Watchers.timeoutAgain (now : Time) (watchers : Watchers) : Watchers :=
  { watchers with timeout := watchers.timeout.again now SOCKET_TIMEOUT }

/-- The pending read event taken off. -/
def Watchers.recvInvoked (watchers : Watchers) : Watchers :=
  { watchers with recv := watchers.recv.invoked }

/-- The pending expiry taken off. -/
def Watchers.timeoutInvoked (watchers : Watchers) : Watchers :=
  { watchers with timeout := watchers.timeout.invoked }

namespace Connection

/-- The watchers re-registered. -/
def register (conn : Connection) (call : Watchers → Watchers) : Connection :=
  { conn with watchers := call conn.watchers }

/-- A chunk received, and its first `count` bytes accepted by the kernel. -/
def echoed (conn : Connection) (bytes : List Byte) (count : Nat) : Connection :=
  { conn with
    received := conn.received ++ bytes
    sent := conn.sent ++ bytes.take count }

/-- The client deleted: watchers stopped, descriptor closed, object freed. -/
def deleted (conn : Connection) (fd : Nat) : Connection :=
  { conn with
    client := none
    watchers := conn.watchers.stopped
    closed := conn.closed ++ [fd]
    dels := conn.dels + 1 }

end Connection

open Connection

section Primitives

variable {conn : Connection} {client : EchoClient} (live : conn.client = some client)
include live

theorem deref_eq : conn.deref = .ok client := by
  simp [deref, live]

theorem timeoutAgain_eq :
    conn.timeoutAgain = .ok (conn.register (Watchers.timeoutAgain conn.clock)) := by
  simp [timeoutAgain, evCall, deref_eq live, register, Watchers.timeoutAgain, bind, Except.bind,
    pure, Except.pure]

theorem echoClientDel_eq : echoClientDel conn = .ok (conn.deleted client.fd) := by
  simp [echoClientDel, stopRecv, stopTimeout, evCall, deref, free, close, live, deleted,
    Watchers.stopped, bind, Except.bind, pure, Except.pure]

end Primitives

/-- Effect of the send half of `echo_client_wcb_recv` on a live client. -/
def sendEffect (conn : Connection) (client : EchoClient) (bytes : List Byte) :
    SendAnswer → Connection
  | .error _ => (conn.echoed bytes 0).deleted client.fd
  | .ok sentNb => (conn.echoed bytes sentNb).register (Watchers.timeoutAgain conn.clock)

/-- Effect of `echo_client_wcb_recv` on a live client. -/
def recvEffect (conn : Connection) (client : EchoClient) (answer : SendAnswer) :
    RecvAnswer → Connection
  | .error .eagain => conn.register (Watchers.timeoutAgain conn.clock)
  | .error _ => conn.deleted client.fd
  | .ok bytes =>
      if bytes = [] then conn.deleted client.fd else sendEffect conn client bytes answer

theorem echoClientWcbRecv_eq {conn : Connection} {client : EchoClient} {nb : RecvAnswer}
    {answer : SendAnswer} (live : conn.client = some client) :
    echoClientWcbRecv nb answer conn = .ok (recvEffect conn client answer nb) := by
  rcases nb with (_ | _ | _) | bytes
  · simpa [echoClientWcbRecv, deref_eq live, recvEffect, bind, Except.bind] using
      timeoutAgain_eq live
  · simpa [echoClientWcbRecv, deref_eq live, recvEffect, bind, Except.bind] using
      echoClientDel_eq live
  · simpa [echoClientWcbRecv, deref_eq live, recvEffect, bind, Except.bind] using
      echoClientDel_eq live
  · by_cases empty : bytes = []
    · subst empty
      simpa [echoClientWcbRecv, deref_eq live, recvEffect, bind, Except.bind] using
        echoClientDel_eq live
    · rcases answer with error | sentNb
      · have live' : (conn.echoed bytes 0).client = some client := live
        simpa [echoClientWcbRecv, deref_eq live, recvEffect, sendEffect, empty, auxUnixSend, echoed,
          bind, Except.bind] using echoClientDel_eq live'
      · have live' : (conn.echoed bytes sentNb).client = some client := live
        simpa [echoClientWcbRecv, deref_eq live, recvEffect, sendEffect, empty, auxUnixSend, echoed,
          bind, Except.bind] using timeoutAgain_eq live'

/-- The steps of a connection whose client is alive: every event with its guard and its effect. -/
inductive Fires (conn : Connection) (client : EchoClient) : Event → Connection → Prop
  | tick (elapsed : Time) :
      Fires conn client (.tick elapsed) { conn with clock := conn.clock + elapsed }
  | pollRecv {recv : IoWatcher} : conn.watchers.recv.poll = some recv →
      Fires conn client .pollRecv (conn.register fun watchers => { watchers with recv })
  | pollTimeout {timeout : TimerWatcher} :
      conn.watchers.timeout.poll conn.clock SOCKET_TIMEOUT = some timeout →
      Fires conn client .pollTimeout (conn.register fun watchers => { watchers with timeout })
  | wcbRecv {recv : List RecvAnswer} {nb : RecvAnswer} {send : SendAnswer} :
      conn.watchers.recv.pending = true → auxUnixRecv recv = some nb → CallContract nb send →
      Fires conn client (.wcbRecv recv send)
        (recvEffect (conn.register Watchers.recvInvoked) client send nb)
  | wcbTimeout : conn.watchers.timeout.pending = true →
      Fires conn client .wcbTimeout ((conn.register Watchers.timeoutInvoked).deleted client.fd)

theorem fires_of_next {conn : Connection} {client : EchoClient} {event : Event}
    {result : Except Fault Connection} (live : conn.client = some client)
    (step : conn.next event = some result) :
    ∃ next, result = .ok next ∧ Fires conn client event next := by
  cases event with
  | tick elapsed =>
      obtain rfl := Option.some.inj step
      exact ⟨_, rfl, .tick elapsed⟩
  | pollRecv =>
      simp only [Connection.next, Option.map_eq_some_iff] at step
      obtain ⟨recv, polled, rfl⟩ := step
      exact ⟨_, rfl, .pollRecv polled⟩
  | pollTimeout =>
      simp only [Connection.next, Option.map_eq_some_iff] at step
      obtain ⟨timeout, polled, rfl⟩ := step
      exact ⟨_, rfl, .pollTimeout polled⟩
  | wcbRecv recv send =>
      simp only [Connection.next, Option.ite_none_right_eq_some, Option.bind_eq_some_iff,
        Option.some.injEq] at step
      obtain ⟨pending, nb, returned, contract, rfl⟩ := step
      exact ⟨_, echoClientWcbRecv_eq live, .wcbRecv pending returned contract⟩
  | wcbTimeout =>
      simp only [Connection.next, Option.ite_none_right_eq_some, Option.some.injEq] at step
      obtain ⟨pending, rfl⟩ := step
      exact ⟨_, echoClientDel_eq live, .wcbTimeout pending⟩

theorem next_of_quiet {conn : Connection} {event : Event} {result : Except Fault Connection}
    (quiet : conn.watchers.Quiet) (step : conn.next event = some result) :
    ∃ elapsed, event = .tick elapsed ∧
      result = .ok { conn with clock := conn.clock + elapsed } := by
  cases event with
  | tick elapsed => exact ⟨elapsed, rfl, (Option.some.inj step).symm⟩
  | pollRecv => simp [Connection.next, IoWatcher.poll, quiet.recv_active] at step
  | pollTimeout => simp [Connection.next, TimerWatcher.poll, quiet.timeout_active] at step
  | wcbRecv recv send => simp [Connection.next, quiet.recv_pending] at step
  | wcbTimeout => simp [Connection.next, quiet.timeout_pending] at step

/-- A freed client has no watcher left. -/
def Settled (conn : Connection) : Prop := conn.client = none → conn.watchers.Quiet

theorem settled_echoClientAdd (sd : Nat) (now : Time) : Settled (echoClientAdd sd now) := by
  simp [Settled, echoClientAdd]

theorem settled_deleted (conn : Connection) (fd : Nat) : Settled (conn.deleted fd) :=
  fun _ => conn.watchers.stopped_quiet

theorem settled_of_live {conn : Connection} {client : EchoClient}
    (live : conn.client = some client) : Settled conn := by
  simp [Settled, live]

theorem recvEffect_settled {conn : Connection} {client : EchoClient}
    (live : conn.client = some client) (answer : SendAnswer) (nb : RecvAnswer) :
    Settled (recvEffect conn client answer nb) := by
  rcases nb with (_ | _ | _) | bytes
  · exact settled_of_live live
  · exact settled_deleted _ _
  · exact settled_deleted _ _
  · rw [recvEffect]
    split
    · exact settled_deleted _ _
    · rcases answer with error | sentNb
      · exact settled_deleted _ _
      · exact settled_of_live live

theorem Fires.settled {conn next : Connection} {client : EchoClient} {event : Event}
    (fires : Fires conn client event next) (live : conn.client = some client) : Settled next := by
  cases fires with
  | tick => exact settled_of_live live
  | pollRecv => exact settled_of_live live
  | pollTimeout => exact settled_of_live live
  | wcbRecv =>
      have live' : (conn.register Watchers.recvInvoked).client = some client := live
      exact recvEffect_settled live' _ _
  | wcbTimeout => exact settled_deleted _ _

/-- Every step of a connection: a callback's effect on a live client, or time passing by a freed
one. -/
theorem next_cases {conn : Connection} {event : Event} {result : Except Fault Connection}
    (settled : Settled conn) (step : conn.next event = some result) :
    ∃ next, result = .ok next ∧ Settled next ∧
      ((∃ client, conn.client = some client ∧ Fires conn client event next) ∨
        conn.client = none ∧ ∃ elapsed, event = .tick elapsed ∧
          next = { conn with clock := conn.clock + elapsed }) := by
  cases held : conn.client with
  | none =>
      have quiet := settled held
      obtain ⟨elapsed, rfl, rfl⟩ := next_of_quiet quiet step
      exact ⟨_, rfl, fun _ => quiet, Or.inr ⟨rfl, elapsed, rfl, by rw [held]⟩⟩
  | some client =>
      obtain ⟨next, rfl, fires⟩ := fires_of_next held step
      exact ⟨next, rfl, fires.settled held, Or.inl ⟨client, rfl, fires⟩⟩

end Mrps.Plain
