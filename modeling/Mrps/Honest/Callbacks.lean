import Mrps.Honest.Window

/-!
# What each callback does

For a live client whose window lies inside its buffer every callback ends without a fault, and its
effect is one of a few named updates of the connection.
-/

namespace Mrps.Honest

open MachineInt Region

/-- All three watchers stopped. -/
def Watchers.stopped (watchers : Watchers) : Watchers :=
  { recv := watchers.recv.stop, send := watchers.send.stop, timeout := watchers.timeout.stop }

/-- No watcher can lead to a callback. -/
structure Watchers.Quiet (watchers : Watchers) : Prop where
  recv_active : watchers.recv.active = false
  recv_pending : watchers.recv.pending = false
  send_active : watchers.send.active = false
  send_pending : watchers.send.pending = false
  timeout_active : watchers.timeout.active = false
  timeout_pending : watchers.timeout.pending = false

theorem Watchers.stopped_quiet (watchers : Watchers) : watchers.stopped.Quiet :=
  ⟨rfl, rfl, rfl, rfl, rfl, rfl⟩

namespace Connection

/-- The client object replaced. -/
def hold (conn : Connection) (client : EchoClient) : Connection :=
  { conn with client := some client }

/-- The watchers re-registered. -/
def register (conn : Connection) (call : Watchers → Watchers) : Connection :=
  { conn with watchers := call conn.watchers }

/-- `bytes` received into the window of `client`. -/
def filled (conn : Connection) (client : EchoClient) (bytes : List Byte) : Connection :=
  { conn with client := some (client.filled bytes), received := conn.received ++ bytes }

/-- The first `count` pending bytes of `client` accepted by the kernel. -/
def accepted (conn : Connection) (client : EchoClient) (count : Nat) : Connection :=
  { conn with
    client := some (client.consumed count)
    sent := conn.sent ++ client.pending.take count }

/-- The client deleted: watchers stopped, descriptor closed, object freed. -/
def deleted (conn : Connection) (fd : Nat) : Connection :=
  { conn with
    client := none
    watchers := conn.watchers.stopped
    closed := conn.closed ++ [fd]
    dels := conn.dels + 1 }

end Connection

open Connection

/-- The write watcher armed. -/
def Watchers.sendStarted (watchers : Watchers) : Watchers :=
  { watchers with send := watchers.send.start }

/-- The write watcher stopped. -/
def Watchers.sendStopped (watchers : Watchers) : Watchers :=
  { watchers with send := watchers.send.stop }

/-- The idle timer restarted at `now`. -/
def Watchers.timeoutAgain (now : Time) (watchers : Watchers) : Watchers :=
  { watchers with timeout := watchers.timeout.again now SOCKET_TIMEOUT }

section Primitives

variable {conn : Connection} {client : EchoClient} (live : conn.client = some client)
include live

theorem deref_eq : conn.deref = .ok client := by
  simp [deref, live]

theorem store_eq (next : EchoClient) : conn.store next = .ok (conn.hold next) := by
  simp [store, deref_eq live, hold, bind, Except.bind, pure, Except.pure]

theorem evCall_eq (call : Watchers → Watchers) : conn.evCall call = .ok (conn.register call) := by
  simp [evCall, deref_eq live, register, bind, Except.bind, pure, Except.pure]

theorem startSend_eq : conn.startSend = .ok (conn.register Watchers.sendStarted) :=
  evCall_eq live _

theorem stopSend_eq : conn.stopSend = .ok (conn.register Watchers.sendStopped) :=
  evCall_eq live _

theorem timeoutAgain_eq :
    conn.timeoutAgain = .ok (conn.register (Watchers.timeoutAgain conn.clock)) :=
  evCall_eq live _

theorem echoClientDel_eq : echoClientDel conn = .ok (conn.deleted client.fd) := by
  simp [echoClientDel, stopRecv, Connection.stopSend, stopTimeout, evCall, deref, free, close, live,
    deleted, Watchers.stopped, bind, Except.bind, pure, Except.pure]

theorem sendAccepted_eq (window : client.Window) {count : Nat} (le : count ≤ client.toSendSize) :
    sendAccepted conn client count = .ok (conn.accepted client count) := by
  have inside := window.inside
  have exact_size : toSizeT (client.toSendSize - count) = client.toSendSize - count := by
    simp only [TO_SEND_SIZE] at inside
    exact toUnsigned_eq (by omega) (by omega)
  simp [sendAccepted, window.read_pending, store, deref, live, exact_size, accepted,
    EchoClient.consumed, bind, Except.bind, pure, Except.pure]

end Primitives

/-- Effect of `echo_client_wcb_send` on a live client. -/
def sendEffect (conn : Connection) (client : EchoClient) : SendAnswer → Connection
  | .error .eagain => conn
  | .error _ => conn.deleted client.fd
  | .ok sentNb =>
      if sentNb < client.toSendSize then conn.accepted client sentNb
      else (conn.accepted client sentNb).register Watchers.sendStopped

theorem sendEffect_client {conn : Connection} {client : EchoClient} {sentNb : Nat} :
    (sendEffect conn client (.ok sentNb)).client = some (client.consumed sentNb) := by
  rw [sendEffect]
  split <;> rfl

theorem echoClientWcbSend_eq {conn : Connection} {client : EchoClient} {answer : SendAnswer}
    (live : conn.client = some client) (window : client.Window)
    (contract : conn.SendContract answer) :
    echoClientWcbSend answer conn = .ok (sendEffect conn client answer) := by
  rcases answer with (_ | _ | _) | sentNb
  · simp [echoClientWcbSend, deref_eq live, auxUnixSend, sendEffect, bind, Except.bind, pure,
      Except.pure]
  · simpa [echoClientWcbSend, deref_eq live, auxUnixSend, sendEffect, bind, Except.bind] using
      echoClientDel_eq live
  · simpa [echoClientWcbSend, deref_eq live, auxUnixSend, sendEffect, bind, Except.bind] using
      echoClientDel_eq live
  · have le : sentNb ≤ client.toSendSize := by simpa [SendContract, live] using contract
    have live' : (conn.accepted client sentNb).client = some (client.consumed sentNb) := rfl
    have left_iff : 0 < client.toSendSize - sentNb ↔ sentNb < client.toSendSize := by omega
    simp only [echoClientWcbSend, deref_eq live, auxUnixSend, sendAccepted_eq live window le,
      deref_eq live', stopSend_eq live', EchoClient.consumed_toSendSize, left_iff, sendEffect, bind,
      Except.bind, pure, Except.pure]
    split <;> rfl

/-- Effect of the send half of `echo_client_wcb_recv` on a live client. -/
def sendBackEffect (conn : Connection) (client : EchoClient) : SendAnswer → Connection
  | .error .eagain => conn.register Watchers.sendStarted
  | .error _ => conn.deleted client.fd
  | .ok sentNb =>
      if sentNb < client.toSendSize then
        (conn.accepted client sentNb).register Watchers.sendStarted
      else
        conn.accepted client sentNb

theorem sendBackEffect_client {conn : Connection} {client : EchoClient} {sentNb : Nat} :
    (sendBackEffect conn client (.ok sentNb)).client = some (client.consumed sentNb) := by
  rw [sendBackEffect]
  split <;> rfl

theorem sendBack_eq {conn : Connection} {client : EchoClient} {answer : SendAnswer}
    (live : conn.client = some client) (window : client.Window)
    (contract : conn.SendContract answer) :
    sendBack answer conn = .ok (sendBackEffect conn client answer) := by
  rcases answer with (_ | _ | _) | sentNb
  · simpa [sendBack, deref_eq live, auxUnixSend, sendBackEffect, bind, Except.bind] using
      startSend_eq live
  · simpa [sendBack, deref_eq live, auxUnixSend, sendBackEffect, bind, Except.bind] using
      echoClientDel_eq live
  · simpa [sendBack, deref_eq live, auxUnixSend, sendBackEffect, bind, Except.bind] using
      echoClientDel_eq live
  · have le : sentNb ≤ client.toSendSize := by simpa [SendContract, live] using contract
    have live' : (conn.accepted client sentNb).client = some (client.consumed sentNb) := rfl
    have left_iff : 0 < client.toSendSize - sentNb ↔ sentNb < client.toSendSize := by omega
    simp only [sendBack, deref_eq live, auxUnixSend, sendAccepted_eq live window le,
      deref_eq live', startSend_eq live', EchoClient.consumed_toSendSize, left_iff, sendBackEffect,
      bind, Except.bind, pure, Except.pure]
    split <;> rfl

/-- Effect of `echo_client_wcb_recv` on a live client, with `recvDone` for the effect of its branch
`0 == nb`. -/
def recvEffect (recvDone : Connection → Connection) (conn : Connection) (client : EchoClient)
    (answer : SendAnswer) : RecvAnswer → Connection
  | .error .eagain =>
      (conn.hold client.compacted).register (Watchers.timeoutAgain conn.clock)
  | .error _ => (conn.hold client.compacted).deleted client.fd
  | .ok bytes =>
      if bytes = [] then recvDone (conn.hold client.compacted)
      else
        sendBackEffect (conn.filled client.compacted bytes) (client.compacted.filled bytes) answer

section Delivered

variable {conn : Connection} {client : EchoClient} {bytes : List Byte} {answer : SendAnswer}

theorem Connection.RecvContract.fits (contract : conn.RecvContract (.ok bytes) answer)
    (live : conn.client = some client) (window : client.Window) :
    client.compacted.toSendBeg + client.compacted.toSendSize + bytes.length ≤ TO_SEND_SIZE := by
  obtain ⟨bytes_le, -⟩ : bytes.length ≤ client.asked ∧ _ := by
    simpa only [RecvContract, live] using contract
  rw [window.asked_eq] at bytes_le
  have compacted_end := window.compacted_end
  rw [EchoClient.compacted_toSendSize]
  omega

theorem Connection.RecvContract.send (contract : conn.RecvContract (.ok bytes) answer)
    (live : conn.client = some client) :
    (conn.filled client.compacted bytes).SendContract answer := by
  obtain ⟨-, send_le⟩ : bytes.length ≤ client.asked ∧ _ := by
    simpa only [RecvContract, live] using contract
  rcases answer with _ | sentNb
  · trivial
  · simpa [SendContract, Connection.filled] using send_le

end Delivered

theorem echoClientWcbRecv_eq {recvDone : Connection → Except Fault Connection}
    {doneEffect : Connection → Connection} {conn : Connection} {client : EchoClient}
    {nb : RecvAnswer} {answer : SendAnswer} (live : conn.client = some client)
    (window : client.Window) (contract : conn.RecvContract nb answer)
    (recvDone_eq : recvDone (conn.hold client.compacted) =
      .ok (doneEffect (conn.hold client.compacted))) :
    echoClientWcbRecv recvDone nb answer conn =
      .ok (recvEffect doneEffect conn client answer nb) := by
  have held : (conn.hold client.compacted).client = some client.compacted := rfl
  have deletes : echoClientDel (conn.hold client.compacted) =
      .ok ((conn.hold client.compacted).deleted client.fd) := by
    simpa using echoClientDel_eq held
  have again : (conn.hold client.compacted).timeoutAgain =
      .ok ((conn.hold client.compacted).register (Watchers.timeoutAgain conn.clock)) :=
    timeoutAgain_eq held
  rcases nb with (_ | _ | _) | bytes
  · simpa [echoClientWcbRecv, deref_eq live, window.makeRoom_eq, store_eq live, recvEffect, bind,
      Except.bind] using again
  · simpa [echoClientWcbRecv, deref_eq live, window.makeRoom_eq, store_eq live, recvEffect, bind,
      Except.bind] using deletes
  · simpa [echoClientWcbRecv, deref_eq live, window.makeRoom_eq, store_eq live, recvEffect, bind,
      Except.bind] using deletes
  · have fits := contract.fits live window
    have send_contract := contract.send live
    have compacted_window := window.compacted
    have write_eq := compacted_window.write_eq fits
    have size_eq : toSizeT (client.compacted.toSendSize + bytes.length) =
        client.compacted.toSendSize + bytes.length := by
      simp only [TO_SEND_SIZE] at fits
      exact toUnsigned_eq (by push_cast; rfl) (by omega)
    by_cases empty : bytes = []
    · subst empty
      simp only [echoClientWcbRecv, deref_eq live, window.makeRoom_eq, store_eq live, write_eq,
        recvEffect, List.append_nil, bind, Except.bind, if_true]
      exact recvDone_eq
    · have filled_live : (conn.filled client.compacted bytes).client =
          some (client.compacted.filled bytes) := rfl
      have sent_back := sendBack_eq filled_live (compacted_window.filled fits) send_contract
      simp only [echoClientWcbRecv, deref_eq live, window.makeRoom_eq, store_eq live, write_eq,
        recvEffect, if_neg empty, bind, Except.bind]
      rw [← sent_back, store_eq rfl, size_eq]
      rfl

/-- Effect of the branch `0 == nb` of each program. -/
def Program.doneEffect (program : Program) (client : EchoClient) (conn : Connection) : Connection :=
  match program with
  | .serverHonest => conn.deleted client.fd
  | .threadHonest => conn

theorem Program.wcbRecv_eq (program : Program) {conn : Connection} {client : EchoClient}
    {nb : RecvAnswer} {answer : SendAnswer} (live : conn.client = some client)
    (window : client.Window) (contract : conn.RecvContract nb answer) :
    program.wcbRecv nb answer conn =
      .ok (recvEffect (program.doneEffect client) conn client answer nb) := by
  have held : (conn.hold client.compacted).client = some client.compacted := rfl
  cases program with
  | serverHonest =>
      apply echoClientWcbRecv_eq live window contract
      simpa [doneEffect] using echoClientDel_eq held
  | threadHonest =>
      exact echoClientWcbRecv_eq live window contract rfl

/-! ## What one step can do -/

/-- The pending read event taken off. -/
def Watchers.recvInvoked (watchers : Watchers) : Watchers :=
  { watchers with recv := watchers.recv.invoked }

/-- The pending write event taken off. -/
def Watchers.sendInvoked (watchers : Watchers) : Watchers :=
  { watchers with send := watchers.send.invoked }

/-- The pending expiry taken off. -/
def Watchers.timeoutInvoked (watchers : Watchers) : Watchers :=
  { watchers with timeout := watchers.timeout.invoked }

/-- The steps of a connection whose client is alive: every event with its guard and its effect. -/
inductive Fires (program : Program) (conn : Connection) (client : EchoClient) :
    Event → Connection → Prop
  | tick (elapsed : Time) :
      Fires program conn client (.tick elapsed) { conn with clock := conn.clock + elapsed }
  | pollRecv {recv : IoWatcher} : conn.watchers.recv.poll = some recv →
      Fires program conn client .pollRecv (conn.register fun watchers => { watchers with recv })
  | pollSend {send : IoWatcher} : conn.watchers.send.poll = some send →
      Fires program conn client .pollSend (conn.register fun watchers => { watchers with send })
  | pollTimeout {timeout : TimerWatcher} :
      conn.watchers.timeout.poll conn.clock SOCKET_TIMEOUT = some timeout →
      Fires program conn client .pollTimeout
        (conn.register fun watchers => { watchers with timeout })
  | wcbRecv {recv : List RecvAnswer} {nb : RecvAnswer} {send : SendAnswer} :
      conn.watchers.recv.pending = true → auxUnixRecv recv = some nb →
      (conn.register Watchers.recvInvoked).RecvContract nb send →
      Fires program conn client (.wcbRecv recv send)
        (recvEffect (program.doneEffect client) (conn.register Watchers.recvInvoked) client send nb)
  | wcbSend {send : SendAnswer} : conn.watchers.send.pending = true →
      (conn.register Watchers.sendInvoked).SendContract send →
      Fires program conn client (.wcbSend send)
        (sendEffect (conn.register Watchers.sendInvoked) client send)
  | wcbTimeout : conn.watchers.timeout.pending = true →
      Fires program conn client .wcbTimeout
        ((conn.register Watchers.timeoutInvoked).deleted client.fd)

theorem fires_of_next {program : Program} {conn : Connection} {client : EchoClient} {event : Event}
    {result : Except Fault Connection} (live : conn.client = some client) (window : client.Window)
    (step : conn.next program event = some result) :
    ∃ next, result = .ok next ∧ Fires program conn client event next := by
  cases event with
  | tick elapsed =>
      obtain rfl := Option.some.inj step
      exact ⟨_, rfl, .tick elapsed⟩
  | pollRecv =>
      simp only [Connection.next, Option.map_eq_some_iff] at step
      obtain ⟨recv, polled, rfl⟩ := step
      exact ⟨_, rfl, .pollRecv polled⟩
  | pollSend =>
      simp only [Connection.next, Option.map_eq_some_iff] at step
      obtain ⟨send, polled, rfl⟩ := step
      exact ⟨_, rfl, .pollSend polled⟩
  | pollTimeout =>
      simp only [Connection.next, Option.map_eq_some_iff] at step
      obtain ⟨timeout, polled, rfl⟩ := step
      exact ⟨_, rfl, .pollTimeout polled⟩
  | wcbRecv recv send =>
      simp only [Connection.next, Option.ite_none_right_eq_some, Option.bind_eq_some_iff,
        Option.some.injEq] at step
      obtain ⟨pending, nb, returned, contract, rfl⟩ := step
      have contract' : (conn.register Watchers.recvInvoked).RecvContract nb send := contract
      exact ⟨_, program.wcbRecv_eq live window contract', .wcbRecv pending returned contract'⟩
  | wcbSend send =>
      simp only [Connection.next, Option.ite_none_right_eq_some, Option.some.injEq] at step
      obtain ⟨⟨pending, contract⟩, rfl⟩ := step
      have contract' : (conn.register Watchers.sendInvoked).SendContract send := contract
      exact ⟨_, echoClientWcbSend_eq live window contract', .wcbSend pending contract'⟩
  | wcbTimeout =>
      simp only [Connection.next, Option.ite_none_right_eq_some, Option.some.injEq] at step
      obtain ⟨pending, rfl⟩ := step
      exact ⟨_, echoClientDel_eq live, .wcbTimeout pending⟩

theorem Fires.next_eq {program : Program} {conn next : Connection} {client : EchoClient}
    {event : Event} (fires : Fires program conn client event next)
    (live : conn.client = some client) (window : client.Window) :
    conn.next program event = some (.ok next) := by
  cases fires with
  | tick => rfl
  | pollRecv polled => simp [Connection.next, polled, Connection.register]
  | pollSend polled => simp [Connection.next, polled, Connection.register]
  | pollTimeout polled => simp [Connection.next, polled, Connection.register]
  | @wcbRecv recv nb send pending returned contract =>
      have effect : program.wcbRecv nb send (conn.register Watchers.recvInvoked) = _ :=
        program.wcbRecv_eq live window contract
      have contract' : conn.RecvContract nb send := contract
      simp only [Connection.next, pending, returned, contract', if_true, Option.bind_some]
      exact congrArg some effect
  | @wcbSend send pending contract =>
      have effect : echoClientWcbSend send (conn.register Watchers.sendInvoked) = _ :=
        echoClientWcbSend_eq live window contract
      have contract' : conn.SendContract send := contract
      simp only [Connection.next, pending, contract', and_self, if_true]
      exact congrArg some effect
  | wcbTimeout pending =>
      have effect : echoClientWcbTimeout (conn.register Watchers.timeoutInvoked) = _ :=
        echoClientDel_eq live
      simp only [Connection.next, pending, if_true]
      exact congrArg some effect

theorem next_of_quiet {program : Program} {conn : Connection} {event : Event}
    {result : Except Fault Connection} (quiet : conn.watchers.Quiet)
    (step : conn.next program event = some result) :
    ∃ elapsed, event = .tick elapsed ∧
      result = .ok { conn with clock := conn.clock + elapsed } := by
  cases event with
  | tick elapsed => exact ⟨elapsed, rfl, (Option.some.inj step).symm⟩
  | pollRecv => simp [Connection.next, IoWatcher.poll, quiet.recv_active] at step
  | pollSend => simp [Connection.next, IoWatcher.poll, quiet.send_active] at step
  | pollTimeout => simp [Connection.next, TimerWatcher.poll, quiet.timeout_active] at step
  | wcbRecv recv send => simp [Connection.next, quiet.recv_pending] at step
  | wcbSend send => simp [Connection.next, quiet.send_pending] at step
  | wcbTimeout => simp [Connection.next, quiet.timeout_pending] at step

end Mrps.Honest
