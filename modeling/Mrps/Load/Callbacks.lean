import Mrps.Load.Client

/-!
# What each callback of the load generator does

On a live client every callback ends without a fault, and its effect is one of a few named updates
of the session.  The loop of `wcb_send` is a sequence of sends that ends with the pending requests
or with the first error.
-/

namespace Mrps.Load

open MachineInt

/-- All four watchers stopped. -/
def Watchers.stopped (watchers : Watchers) : Watchers :=
  { recv := watchers.recv.stop
    send := watchers.send.stop
    connect := watchers.connect.stop
    timeout := watchers.timeout.stop }

/-- No watcher can lead to a callback. -/
structure Watchers.Quiet (watchers : Watchers) : Prop where
  recv_active : watchers.recv.active = false
  recv_pending : watchers.recv.pending = false
  send_active : watchers.send.active = false
  send_pending : watchers.send.pending = false
  connect_active : watchers.connect.active = false
  connect_pending : watchers.connect.pending = false
  timeout_active : watchers.timeout.active = false
  timeout_pending : watchers.timeout.pending = false

theorem Watchers.stopped_quiet (watchers : Watchers) : watchers.stopped.Quiet :=
  ⟨rfl, rfl, rfl, rfl, rfl, rfl, rfl, rfl⟩

/-- The write watcher armed. -/
def Watchers.sendStarted (watchers : Watchers) : Watchers :=
  { watchers with send := watchers.send.start }

/-- The write watcher stopped. -/
def Watchers.sendStopped (watchers : Watchers) : Watchers :=
  { watchers with send := watchers.send.stop }

/-- The watchers of a client that is connected: the one for the connection stopped, those for
reading and writing armed. -/
def Watchers.connected (watchers : Watchers) : Watchers :=
  { watchers with
    recv := watchers.recv.start
    send := watchers.send.start
    connect := watchers.connect.stop }

/-- The pending read event taken off. -/
def Watchers.recvInvoked (watchers : Watchers) : Watchers :=
  { watchers with recv := watchers.recv.invoked }

/-- The pending write event taken off. -/
def Watchers.sendInvoked (watchers : Watchers) : Watchers :=
  { watchers with send := watchers.send.invoked }

/-- The pending event of the connection taken off. -/
def Watchers.connectInvoked (watchers : Watchers) : Watchers :=
  { watchers with connect := watchers.connect.invoked }

/-- The pending expiry taken off. -/
def Watchers.timeoutInvoked (watchers : Watchers) : Watchers :=
  { watchers with timeout := watchers.timeout.invoked }

/-- One more request to send. -/
def Client.due (client : Client) : Client :=
  { client with toSend := toUnsigned 32 (client.toSend + 1) }

/-- One request less to send, the last one sent at `now`. -/
def Client.sent (client : Client) (now : Time) : Client :=
  { client with ts := now, toSend := client.toSend - 1 }

@[simp] theorem Client.due_fd (client : Client) : client.due.fd = client.fd := rfl

@[simp] theorem Client.sent_fd (client : Client) (now : Time) :
    (client.sent now).fd = client.fd := rfl

@[simp] theorem Client.sent_toSend (client : Client) (now : Time) :
    (client.sent now).toSend = client.toSend - 1 := rfl

@[simp] theorem Client.sent_ts (client : Client) (now : Time) : (client.sent now).ts = now := rfl

namespace Session

/-- The client object replaced. -/
def hold (session : Session) (client : Client) : Session :=
  { session with conn := { session.conn with client := some client } }

/-- One request handed to the kernel, which took `nb` bytes of it. -/
def sent (session : Session) (client : Client) (nb : Nat) : Session :=
  (session.put nb).hold (client.sent session.clock)

/-- A time counted in the statistics. -/
def counted (session : Session) (time : Int) : Session :=
  { session with times := session.times.count time }

/-- Bytes received. -/
def delivered (session : Session) (bytes : List Byte) : Session :=
  { session with conn := { session.conn with received := session.conn.received ++ bytes } }

/-- The client deleted: watchers stopped, descriptor closed, object freed. -/
def deleted (session : Session) (fd : Nat) : Session :=
  { session with
    conn := { session.conn with
      client := none
      watchers := session.conn.watchers.stopped
      closed := session.conn.closed ++ [fd]
      dels := session.conn.dels + 1 } }

end Session

open Session

section Primitives

variable {session : Session} {client : Client} (live : session.conn.client = some client)
include live

theorem deref_eq : session.deref = .ok client := by
  simp [deref, live]

theorem store_eq (next : Client) : session.store next = .ok (session.hold next) := by
  simp [store, deref_eq live, hold, bind, Except.bind, pure, Except.pure]

theorem evCall_eq (call : Watchers → Watchers) :
    session.evCall call = .ok (session.register call) := by
  simp [evCall, deref_eq live, register, bind, Except.bind, pure, Except.pure]

theorem clientDel_eq : clientDel session = .ok (session.deleted client.fd) := by
  simp [clientDel, stopRecv, Session.stopSend, stopConnect, stopTimeout, evCall, deref, free, close,
    live, deleted, Watchers.stopped, bind, Except.bind, pure, Except.pure]

theorem clientSend_error (errno : Errno) :
    clientSend (.error errno) session = .ok (true, session.deleted client.fd) := by
  have live' : (session.hold { client with ts := session.clock }).conn.client =
      some { client with ts := session.clock } := rfl
  have deletes : clientDel (session.hold { client with ts := session.clock }) =
      .ok (session.deleted client.fd) := (clientDel_eq live').trans rfl
  simp [clientSend, deref_eq live, auxUnixSend, store_eq live, deletes, bind, Except.bind, pure,
    Except.pure]

theorem clientSend_ok (nb : Nat) : clientSend (.ok nb) session =
    .ok (false, (session.put nb).hold { client with ts := session.clock }) := by
  have live' : (session.put nb).conn.client = some client := live
  simp [clientSend, deref_eq live, auxUnixSend, store_eq live', bind, Except.bind, pure,
    Except.pure]

theorem wcbTimeout_eq :
    wcbTimeout session = .ok ((session.hold client.due).register Watchers.sendStarted) := by
  have started : (session.hold client.due).startSend =
      .ok ((session.hold client.due).register Watchers.sendStarted) := evCall_eq rfl _
  rw [wcbTimeout, deref_eq live]
  simpa [store_eq live, bind, Except.bind, Client.due] using started

end Primitives

/-- Effect of `wcb_connect` on a live client. -/
def connectEffect (session : Session) (client : Client) (readable : Bool) : Session :=
  if readable then session.deleted client.fd
  else (session.hold { client with toSend := 1 }).register Watchers.connected

theorem wcbConnect_eq {session : Session} {client : Client}
    (live : session.conn.client = some client) (readable : Bool) :
    wcbConnect readable session = .ok (connectEffect session client readable) := by
  cases readable with
  | true =>
      simpa [wcbConnect, deref_eq live, connectEffect, bind, Except.bind] using clientDel_eq live
  | false =>
      simp [wcbConnect, connectEffect, store, stopConnect, Session.startSend,
        startRecv, evCall, deref, live, hold, register, Watchers.connected, bind, Except.bind, pure,
        Except.pure]

/-- Effect of `wcb_recv` on a live client. -/
def recvEffect (session : Session) (client : Client) : RecvAnswer → Session
  | .error .eagain => session.counted (session.clock - client.ts)
  | .error _ => (session.counted (session.clock - client.ts)).deleted client.fd
  | .ok bytes => (session.counted (session.clock - client.ts)).delivered bytes

theorem wcbRecv_eq {session : Session} {client : Client}
    (live : session.conn.client = some client) (nb : RecvAnswer) :
    wcbRecv nb session = .ok (recvEffect session client nb) := by
  have live' : (session.counted (session.clock - client.ts)).conn.client = some client := live
  rcases nb with (_ | _ | _) | bytes
  · simp [wcbRecv, deref_eq live, recvEffect, counted, bind, Except.bind, pure, Except.pure]
  · simpa [wcbRecv, deref_eq live, recvEffect, counted, bind, Except.bind] using clientDel_eq live'
  · simpa [wcbRecv, deref_eq live, recvEffect, counted, bind, Except.bind] using clientDel_eq live'
  · simp [wcbRecv, deref_eq live, recvEffect, counted, delivered, bind, Except.bind, pure,
      Except.pure]

/-- The ways through the loop of `wcb_send`: no request is left, or a send fails and the client is
deleted, or a send succeeds and the loop goes on. -/
inductive Bursts : Session → Client → List SendAnswer → Session → Prop
  | done {session : Session} {client : Client} : client.toSend = 0 →
      Bursts session client [] (session.register Watchers.sendStopped)
  | failed {session : Session} {client : Client} {errno : Errno} : client.toSend ≠ 0 →
      Bursts session client [.error errno] (session.deleted client.fd)
  | sent {session after : Session} {client : Client} {nb : Nat} {answers : List SendAnswer} :
      client.toSend ≠ 0 → nb ≤ REQUEST.length →
      Bursts (session.sent client nb) (client.sent session.clock) answers after →
      Bursts session client (.ok nb :: answers) after

theorem wcbSend_ok {session : Session} {client : Client}
    (live : session.conn.client = some client) (more : client.toSend ≠ 0) (nb : Nat)
    (answers : List SendAnswer) :
    wcbSend (.ok nb :: answers) session = wcbSend answers (session.sent client nb) := by
  have live' : ((session.put nb).hold { client with ts := session.clock }).conn.client =
      some { client with ts := session.clock } := rfl
  rw [wcbSend, deref_eq live]
  simp only [if_neg more, clientSend_ok live, deref_eq live', store_eq live']
  rfl

theorem bursts_of_wcbSend {session : Session} {client : Client} {answers : List SendAnswer}
    {result : Except Fault Session} (live : session.conn.client = some client)
    (contract : ∀ answer ∈ answers, SendContract answer)
    (sends : wcbSend answers session = some result) :
    ∃ after, result = .ok after ∧ Bursts session client answers after := by
  induction answers generalizing session client with
  | nil =>
      have stopped : session.stopSend = .ok (session.register Watchers.sendStopped) :=
        evCall_eq live _
      rw [wcbSend, deref_eq live] at sends
      by_cases empty : client.toSend = 0
      · simp only [if_pos empty, if_true, Option.some.injEq] at sends
        exact ⟨_, sends.symm.trans stopped, .done empty⟩
      · simp [if_neg empty] at sends
  | cons answer answers ih =>
      by_cases empty : client.toSend = 0
      · rw [wcbSend, deref_eq live] at sends
        simp [empty] at sends
      · cases answer with
        | error errno =>
            rw [wcbSend, deref_eq live] at sends
            simp only [if_neg empty, clientSend_error live, Option.ite_none_right_eq_some,
              Option.some.injEq] at sends
            obtain ⟨rfl, rfl⟩ := sends
            exact ⟨_, rfl, .failed empty⟩
        | ok nb =>
            rw [wcbSend_ok live empty] at sends
            have short : nb ≤ REQUEST.length := contract (.ok nb) List.mem_cons_self
            obtain ⟨after, rfl, rest⟩ := ih rfl
              (fun other member => contract other (List.mem_cons_of_mem _ member)) sends
            exact ⟨after, rfl, .sent empty short rest⟩

/-- The bytes of a request that the kernel took. -/
def taken : SendAnswer → List Byte
  | .ok nb => REQUEST.take nb
  | .error _ => []

/-- A burst puts what the kernel took on the wire, at the time of the loop. -/
theorem Bursts.wire {session after : Session} {client : Client} {answers : List SendAnswer}
    (bursts : Bursts session client answers after) :
    after.conn.wire = session.conn.wire ++
      (answers.flatMap taken).map fun byte => (byte, session.clock) := by
  induction bursts with
  | done => simp [register]
  | failed => simp [Session.deleted, taken]
  | @sent session after client nb answers _ _ _ ih =>
      have one : (session.sent client nb).conn.wire =
          session.conn.wire ++ (REQUEST.take nb).map fun byte => (byte, session.clock) := rfl
      rw [ih, one, List.flatMap_cons, List.map_append, List.append_assoc]
      rfl

theorem Bursts.unread {session after : Session} {client : Client} {answers : List SendAnswer}
    (bursts : Bursts session client answers after) :
    after.conn.received = session.conn.received ∧ after.times = session.times := by
  induction bursts with
  | done => exact ⟨rfl, rfl⟩
  | failed => exact ⟨rfl, rfl⟩
  | sent _ _ _ ih => exact ih

/-- After a burst `ts` is the time of its last send. -/
theorem Bursts.ts {session after : Session} {client later : Client} {answers : List SendAnswer}
    (bursts : Bursts session client answers after) (live : session.conn.client = some client)
    (live' : after.conn.client = some later) :
    later.ts = (List.replicate answers.length session.clock).getLastD client.ts := by
  induction bursts with
  | done =>
      obtain rfl := Option.some.inj (live.symm.trans live')
      rfl
  | failed => cases live'
  | sent _ _ _ ih =>
      rw [ih rfl live', List.length_cons, List.replicate_succ, List.getLastD_cons]
      rfl

/-- Either every send of a burst succeeds and no request is left, or the last one fails and the
client is deleted. -/
theorem Bursts.outcome {session after : Session} {client : Client} {answers : List SendAnswer}
    (bursts : Bursts session client answers after) (live : session.conn.client = some client) :
    (∃ later, after.conn.client = some later ∧ later.toSend = 0 ∧
        answers.length = client.toSend ∧
          ∀ answer ∈ answers, ∃ nb ≤ REQUEST.length, answer = .ok nb) ∨
      after.conn.client = none ∧ ∃ errno, .error errno ∈ answers := by
  induction bursts with
  | @done session client empty => exact .inl ⟨client, live, empty, by simp [empty], by simp⟩
  | @failed session client errno _ => exact .inr ⟨rfl, errno, List.mem_singleton_self _⟩
  | @sent session after client nb answers more short _ ih =>
      rcases ih rfl with ⟨later, live', none_left, count, all⟩ | ⟨dead, errno, member⟩
      · rw [Client.sent_toSend] at count
        refine .inl ⟨later, live', none_left, by rw [List.length_cons]; omega, ?_⟩
        intro answer member
        rcases List.mem_cons.mp member with rfl | behind
        · exact ⟨nb, short, rfl⟩
        · exact all answer behind
      · exact .inr ⟨dead, errno, List.mem_cons_of_mem _ member⟩

/-! ## What one step can do -/

/-- The steps of a session whose client is alive: every event with its guard and its effect. -/
inductive Fires (session : Session) (client : Client) : Event → Session → Prop
  | tick (elapsed : Time) :
      Fires session client (.tick elapsed) { session with clock := session.clock + elapsed }
  | pollRecv : session.conn.watchers.recv.active = true →
      Fires session client .pollRecv (session.register fun watchers =>
        { watchers with recv := { watchers.recv with pending := true } })
  | pollSend : session.conn.watchers.send.active = true →
      Fires session client .pollSend (session.register fun watchers =>
        { watchers with send := { watchers.send with pending := true } })
  | pollConnect : session.conn.watchers.connect.active = true →
      Fires session client .pollConnect (session.register fun watchers =>
        { watchers with connect := { watchers.connect with pending := true } })
  | pollTimeout {timeout : TimerWatcher} :
      session.conn.watchers.timeout.poll session.clock RESEND_INTERVAL = some timeout →
      Fires session client .pollTimeout (session.register fun watchers => { watchers with timeout })
  | wcbRecv {recv : List RecvAnswer} {nb : RecvAnswer} :
      session.conn.watchers.recv.pending = true → auxUnixRecv recv = some nb → RecvContract nb →
      Fires session client (.wcbRecv recv)
        (recvEffect (session.register Watchers.recvInvoked) client nb)
  | wcbSend {send : List SendAnswer} {after : Session} :
      session.conn.watchers.send.pending = true →
      Bursts (session.register Watchers.sendInvoked) client send after →
      Fires session client (.wcbSend send) after
  | wcbConnect (readable : Bool) : session.conn.watchers.connect.pending = true →
      Fires session client (.wcbConnect readable)
        (connectEffect (session.register Watchers.connectInvoked) client readable)
  | wcbTimeout : session.conn.watchers.timeout.pending = true →
      Fires session client .wcbTimeout
        (((session.register Watchers.timeoutInvoked).hold client.due).register
          Watchers.sendStarted)

theorem fires_of_next {session : Session} {client : Client} {event : Event}
    {result : Except Fault Session} (live : session.conn.client = some client)
    (step : session.next event = some result) :
    ∃ next, result = .ok next ∧ Fires session client event next := by
  have live' : ∀ call, (session.register call).conn.client = some client := fun _ => live
  cases event with
  | tick elapsed =>
      obtain rfl := Option.some.inj step
      exact ⟨_, rfl, .tick elapsed⟩
  | pollRecv =>
      simp only [Session.next, Option.map_eq_some_iff, IoWatcher.poll_eq_some_iff] at step
      obtain ⟨recv, ⟨active, rfl⟩, rfl⟩ := step
      exact ⟨_, rfl, .pollRecv active⟩
  | pollSend =>
      simp only [Session.next, Option.map_eq_some_iff, IoWatcher.poll_eq_some_iff] at step
      obtain ⟨send, ⟨active, rfl⟩, rfl⟩ := step
      exact ⟨_, rfl, .pollSend active⟩
  | pollConnect =>
      simp only [Session.next, Option.map_eq_some_iff, IoWatcher.poll_eq_some_iff] at step
      obtain ⟨connect, ⟨active, rfl⟩, rfl⟩ := step
      exact ⟨_, rfl, .pollConnect active⟩
  | pollTimeout =>
      simp only [Session.next, Option.map_eq_some_iff] at step
      obtain ⟨timeout, polled, rfl⟩ := step
      exact ⟨_, rfl, .pollTimeout polled⟩
  | wcbRecv recv =>
      simp only [Session.next, Option.ite_none_right_eq_some, Option.bind_eq_some_iff,
        Option.some.injEq] at step
      obtain ⟨pending, nb, returned, contract, rfl⟩ := step
      exact ⟨_, wcbRecv_eq (live' _) nb, .wcbRecv pending returned contract⟩
  | wcbSend send =>
      simp only [Session.next, Option.ite_none_right_eq_some] at step
      obtain ⟨⟨pending, contract⟩, sends⟩ := step
      obtain ⟨after, rfl, bursts⟩ := bursts_of_wcbSend (live' _) contract sends
      exact ⟨after, rfl, .wcbSend pending bursts⟩
  | wcbConnect readable =>
      simp only [Session.next, Option.ite_none_right_eq_some, Option.some.injEq] at step
      obtain ⟨pending, rfl⟩ := step
      exact ⟨_, wcbConnect_eq (live' _) readable, .wcbConnect readable pending⟩
  | wcbTimeout =>
      simp only [Session.next, Option.ite_none_right_eq_some, Option.some.injEq] at step
      obtain ⟨pending, rfl⟩ := step
      exact ⟨_, wcbTimeout_eq (live' _), .wcbTimeout pending⟩

theorem next_of_quiet {session : Session} {event : Event} {result : Except Fault Session}
    (quiet : session.conn.watchers.Quiet) (step : session.next event = some result) :
    ∃ elapsed, event = .tick elapsed ∧
      result = .ok { session with clock := session.clock + elapsed } := by
  cases event with
  | tick elapsed => exact ⟨elapsed, rfl, (Option.some.inj step).symm⟩
  | pollRecv => simp [Session.next, IoWatcher.poll, quiet.recv_active] at step
  | pollSend => simp [Session.next, IoWatcher.poll, quiet.send_active] at step
  | pollConnect => simp [Session.next, IoWatcher.poll, quiet.connect_active] at step
  | pollTimeout => simp [Session.next, TimerWatcher.poll, quiet.timeout_active] at step
  | wcbRecv recv => simp [Session.next, quiet.recv_pending] at step
  | wcbSend send => simp [Session.next, quiet.send_pending] at step
  | wcbConnect readable => simp [Session.next, quiet.connect_pending] at step
  | wcbTimeout => simp [Session.next, quiet.timeout_pending] at step

end Mrps.Load
