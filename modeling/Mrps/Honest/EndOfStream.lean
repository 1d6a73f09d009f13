import Mrps.Honest.Peer

/-!
# End of stream in the buffered server

`server-honest.c` deletes a client as soon as `recv` returns 0.  That happens for a full buffer as
well as for a finished peer, and in either case with whatever is still pending.  Both laws are
settled for single steps first and then along whole runs.
-/

namespace Mrps.Honest

open EventSystem

/-- The outcome of `aux_unix_recv` in a read-ready callback of a session. -/
def SessionEvent.returned : SessionEvent → Option RecvAnswer
  | .server event => event.returned
  | _ => none

/-- The outcome of the `send` of a callback. -/
def Event.sendAnswer : Event → Option SendAnswer
  | .wcbRecv _ send => some send
  | .wcbSend send => some send
  | _ => none

/-- No system call fails with an error other than `EAGAIN`, and the idle timer does not fire. -/
def Event.Orderly (event : Event) : Prop :=
  (∀ errno, event.returned = some (.error errno) → errno = .eagain) ∧
    (∀ errno, event.sendAnswer = some (.error errno) → errno = .eagain) ∧
      event ≠ .wcbTimeout

/-- Orderly events of a session. -/
def SessionEvent.Orderly : SessionEvent → Prop
  | .server event => event.Orderly
  | _ => True

/-! ## Single steps -/

theorem sendEffect_client_eq_none {conn : Connection} {client : EchoClient} {answer : SendAnswer}
    (live : conn.client = some client) (deleted : (sendEffect conn client answer).client = none) :
    ∃ errno, answer = .error errno ∧ errno ≠ .eagain := by
  rcases answer with (_ | _ | _) | sentNb
  · simp [sendEffect, live] at deleted
  · exact ⟨_, rfl, by simp⟩
  · exact ⟨_, rfl, by simp⟩
  · rw [sendEffect] at deleted
    split at deleted <;> simp [Connection.accepted, Connection.register] at deleted

theorem sendBackEffect_client_eq_none {conn : Connection} {client : EchoClient}
    {answer : SendAnswer} (live : conn.client = some client)
    (deleted : (sendBackEffect conn client answer).client = none) :
    ∃ errno, answer = .error errno ∧ errno ≠ .eagain := by
  rcases answer with (_ | _ | _) | sentNb
  · simp [sendBackEffect, Connection.register, live] at deleted
  · exact ⟨_, rfl, by simp⟩
  · exact ⟨_, rfl, by simp⟩
  · rw [sendBackEffect] at deleted
    split at deleted <;> simp [Connection.accepted, Connection.register] at deleted

/-- A client is deleted at end of stream, after a failed call or by its idle timer. -/
theorem Fires.deletion_cause {program : Program} {conn next : Connection} {client : EchoClient}
    {event : Event} (fires : Fires program conn client event next)
    (live : conn.client = some client) (deleted : next.client = none) :
    event.returned = some (.ok []) ∨ ¬ event.Orderly := by
  cases fires with
  | tick => simp [live] at deleted
  | pollRecv => simp [Connection.register, live] at deleted
  | pollSend => simp [Connection.register, live] at deleted
  | pollTimeout => simp [Connection.register, live] at deleted
  | @wcbRecv recv nb send pending returned contract =>
      have returned' : (Event.wcbRecv recv send).returned = some nb := returned
      rcases nb with (_ | _ | _) | bytes
      · simp [recvEffect, Connection.register, Connection.hold] at deleted
      · exact Or.inr fun orderly => by simpa using orderly.1 _ returned'
      · exact Or.inr fun orderly => by simpa using orderly.1 _ returned'
      · by_cases empty : bytes = []
        · exact Or.inl (empty ▸ returned')
        · rw [recvEffect, if_neg empty] at deleted
          obtain ⟨errno, rfl, ne⟩ := sendBackEffect_client_eq_none rfl deleted
          exact Or.inr fun orderly => ne (orderly.2.1 _ rfl)
  | @wcbSend send pending contract =>
      have live' : (conn.register Watchers.sendInvoked).client = some client := live
      obtain ⟨errno, rfl, ne⟩ := sendEffect_client_eq_none live' deleted
      exact Or.inr fun orderly => ne (orderly.2.1 _ rfl)
  | wcbTimeout => exact Or.inr fun orderly => orderly.2.2 rfl

/-- `server-honest.c` deletes the client when `recv` returns 0; the streams stay as they are. -/
theorem Fires.zero_deletes {conn next : Connection} {client : EchoClient} {event : Event}
    (fires : Fires .serverHonest conn client event next)
    (zero : event.returned = some (.ok [])) :
    next.client = none ∧ next.sent = conn.sent ∧ next.received = conn.received := by
  cases fires with
  | wcbRecv pending returned contract =>
      obtain rfl := Option.some.inj (returned.symm.trans zero)
      exact ⟨rfl, rfl, rfl⟩
  | tick => simp [Event.returned] at zero
  | pollRecv => simp [Event.returned] at zero
  | pollSend => simp [Event.returned] at zero
  | pollTimeout => simp [Event.returned] at zero
  | wcbSend => simp [Event.returned] at zero
  | wcbTimeout => simp [Event.returned] at zero

/-- A read-ready callback only runs for a live client. -/
theorem live_of_returned {program : Program} {session : Session} {event : Event} {nb : RecvAnswer}
    {pipe : EchoPipe Byte} {state : Except Fault Session} (shown : Shows session.conn pipe)
    (step : session.next program (.server event) = some state)
    (returned : event.returned = some nb) :
    ∃ client, session.conn.client = some client := by
  obtain ⟨-, conn, conn_step, -⟩ := server_step shown step
  refine Option.ne_none_iff_exists'.mp fun freed => ?_
  obtain ⟨elapsed, rfl, -⟩ := next_of_quiet (shown.quiet freed) conn_step
  simp [Event.returned] at returned

theorem live_of_recv {program : Program} {session : Session} {event : SessionEvent}
    {nb : RecvAnswer} {pipe : EchoPipe Byte} {state : Except Fault Session}
    (shown : Shows session.conn pipe) (step : session.next program event = some state)
    (returned : event.returned = some nb) :
    ∃ client, session.conn.client = some client := by
  cases event with
  | arrive bytes => cases returned
  | shutdown => cases returned
  | server event => exact live_of_returned shown step returned

/-- Lift a property of session steps to the states of the system. -/
def OnSessions (property : Session → SessionEvent → Session → Prop) :
    Except Fault Session → SessionEvent → Except Fault Session → Prop
  | .ok before, event, .ok after => property before event after
  | _, _, _ => True

/-- The step frees the client. -/
def Deletes (before after : Session) : Prop :=
  before.conn.client ≠ none ∧ after.conn.client = none

/-- Nothing is left in the window of a live client. -/
def Session.Drained (session : Session) : Prop :=
  ∀ client, session.conn.client = some client → client.toSendSize = 0

theorem Session.drained_iff_of_live {session : Session} {client : EchoClient}
    (live : session.conn.client = some client) : session.Drained ↔ client.toSendSize = 0 := by
  constructor
  · intro drained
    exact drained client live
  · intro empty held held_eq
    obtain rfl := Option.some.inj (held_eq.symm.trans live)
    exact empty

/-- The branch `0 == nb` deletes the client only after the peer's shutdown. -/
def EofAfterShutdown (before : Session) (event : SessionEvent) (after : Session) : Prop :=
  event.returned = some (.ok []) → Deletes before after → before.shut = true

/-- A read-ready callback finds room in the buffer, unless the peer has shut down. -/
def RoomAtRecv (before : Session) (event : SessionEvent) (_ : Session) : Prop :=
  event.returned ≠ none → before.backlog < TO_SEND_SIZE ∨ before.shut = true

/-- At a deletion `send` has accepted every byte that `recv` has delivered. -/
def NothingLost (before : Session) (_ : SessionEvent) (after : Session) : Prop :=
  Deletes before after → after.conn.sent = after.conn.received

/-- A read-ready callback whose `recv` returns 0 starts with an empty window. -/
def DrainedAtEof (before : Session) (event : SessionEvent) (_ : Session) : Prop :=
  event.returned = some (.ok []) → before.Drained

theorem Shows.drained_iff {session : Session} {client : EchoClient} {pipe : EchoPipe Byte}
    (shown : Shows session.conn pipe) (live : session.conn.client = some client) :
    session.Drained ↔ session.conn.sent = session.conn.received := by
  have size := (shown.window client live).length_pending
  rw [shown.pending client live] at size
  rw [session.drained_iff_of_live live, ← size, List.length_eq_zero_iff, shown.sent, shown.received,
    ← pipe.sent_append_pending]
  exact List.self_eq_append_right.symm

theorem eofAfterShutdown_iff {session after : Session} {event : SessionEvent}
    {pipe : EchoPipe Byte} (shown : Shows session.conn pipe)
    (step : session.next .serverHonest event = some (.ok after)) :
    EofAfterShutdown session event after ↔ RoomAtRecv session event after := by
  cases event with
  | arrive bytes => simp [EofAfterShutdown, RoomAtRecv, SessionEvent.returned]
  | shutdown => simp [EofAfterShutdown, RoomAtRecv, SessionEvent.returned]
  | server event =>
      obtain ⟨contract, conn, conn_step, -, after_eq⟩ := server_step shown step
      obtain rfl := Except.ok.inj after_eq
      cases returned : event.returned with
      | none => simp [EofAfterShutdown, RoomAtRecv, SessionEvent.returned, returned]
      | some nb =>
          obtain ⟨client, live⟩ := live_of_returned shown step returned
          obtain ⟨_, conn_eq, fires⟩ :=
            fires_of_next live (shown.window client live) conn_step
          obtain rfl := Except.ok.inj conn_eq
          have asked_pos := shown.asked_pos_iff live
          rw [Session.socketContract_iff live returned] at contract
          simp only [EofAfterShutdown, RoomAtRecv, SessionEvent.returned, returned, Deletes, live,
            ne_eq, reduceCtorEq, not_false_eq_true, true_and, true_imp_iff]
          constructor
          · intro eof
            by_cases full : client.asked = 0
            · rw [if_pos full] at contract
              subst contract
              exact Or.inr (eof rfl (fires.zero_deletes returned).1)
            · exact Or.inl (asked_pos.mp (by omega))
          · rintro (room | shut) zero -
            · obtain rfl := Option.some.inj zero
              have nonzero : client.asked ≠ 0 := by
                have := asked_pos.mpr room
                omega
              rw [if_neg nonzero] at contract
              exact (contract.2 rfl).2
            · exact shut

theorem nothingLost_iff {session after : Session} {event : SessionEvent} {pipe : EchoPipe Byte}
    (shown : Shows session.conn pipe) (orderly : event.Orderly)
    (step : session.next .serverHonest event = some (.ok after)) :
    NothingLost session event after ↔ DrainedAtEof session event after := by
  cases event with
  | arrive bytes =>
      simp only [Session.next, Option.ite_none_left_eq_some, Option.some.injEq] at step
      obtain rfl := Except.ok.inj step.2
      simp [NothingLost, DrainedAtEof, Deletes, SessionEvent.returned]
  | shutdown =>
      obtain rfl := Except.ok.inj (Option.some.inj step)
      simp [NothingLost, DrainedAtEof, Deletes, SessionEvent.returned]
  | server event =>
      obtain ⟨-, conn, conn_step, -, after_eq⟩ := server_step shown step
      obtain rfl := Except.ok.inj after_eq
      cases held : session.conn.client with
      | none =>
          obtain ⟨elapsed, rfl, -⟩ := next_of_quiet (shown.quiet held) conn_step
          simp [NothingLost, DrainedAtEof, Deletes, SessionEvent.returned, Event.returned, held]
      | some client =>
          obtain ⟨_, conn_eq, fires⟩ := fires_of_next held (shown.window client held) conn_step
          obtain rfl := Except.ok.inj conn_eq
          constructor
          · intro kept zero
            obtain ⟨freed, sent_eq, received_eq⟩ := fires.zero_deletes zero
            rw [shown.drained_iff held, ← sent_eq, ← received_eq]
            exact kept ⟨by simp [held], freed⟩
          · rintro drained ⟨-, freed⟩
            have zero : event.returned = some (.ok []) :=
              (fires.deletion_cause held freed).resolve_right (not_not_intro orderly)
            obtain ⟨-, sent_eq, received_eq⟩ := fires.zero_deletes zero
            simp only [sent_eq, received_eq]
            exact (shown.drained_iff held).mp (drained zero)

/-! ## The sends before the end of the stream -/

/-- A `send`: how many bytes it was offered and how many it took. -/
structure SendCall where
  offered : Nat
  taken : Nat
  deriving DecidableEq, Repr

/-- The `send` of `offered` bytes with this outcome. -/
def SendCall.of (offered : Nat) : SendAnswer → SendCall
  | .ok sentNb => { offered, taken := sentNb }
  | .error _ => { offered, taken := 0 }

/-- The `send` of a callback of `client`, if the callback gets that far. -/
def Event.sendCalls (client : EchoClient) : Event → List SendCall
  | .wcbSend send => [.of client.toSendSize send]
  | .wcbRecv recv send =>
      match auxUnixRecv recv with
      | some (.ok bytes) =>
          if bytes = [] then [] else [.of (client.toSendSize + bytes.length) send]
      | _ => []
  | .tick _ | .pollRecv | .pollSend | .pollTimeout | .wcbTimeout => []

/-- What an event adds to the log of sends. -/
def sendCallsOf : Except Fault Session → SessionEvent → List SendCall
  | .ok session, .server event =>
      match session.conn.client with
      | some client => event.sendCalls client
      | none => []
  | _, _ => []

/-- The runs of one session with the log of its sends. -/
abbrev sendingSystem (program : Program) :
    EventSystem (Except Fault Session × List SendCall) SessionEvent :=
  (sessionSystem program).logged sendCallsOf

/-- The last `send`, if there was one, took all that it was offered. -/
def CaughtUp (log : List SendCall) : Prop :=
  ∀ call ∈ log.getLast?, call.taken = call.offered

instance (log : List SendCall) : Decidable (CaughtUp log) := by
  rw [CaughtUp]
  infer_instance

/-- Whenever `recv` returns 0 the last `send` before it has taken all that it was offered. -/
def CaughtUpAtEof (state : Except Fault Session × List SendCall) (event : SessionEvent)
    (_ : Except Fault Session × List SendCall) : Prop :=
  event.returned = some (.ok []) → CaughtUp state.2

/-- The last `send`, if there was one, has left `size` of its bytes. -/
def Owes (log : List SendCall) (size : Nat) : Prop :=
  match log.getLast? with
  | some call => call.offered = call.taken + size
  | none => size = 0

theorem owes_concat {log : List SendCall} {call : SendCall} {size : Nat} :
    Owes (log ++ [call]) size ↔ call.offered = call.taken + size := by
  simp [Owes]

theorem Owes.caughtUp_iff {log : List SendCall} {size : Nat} (owes : Owes log size) :
    CaughtUp log ↔ size = 0 := by
  rw [Owes] at owes
  rw [CaughtUp]
  cases last : log.getLast? with
  | none =>
      rw [last] at owes
      simpa using owes
  | some call =>
      rw [last] at owes
      have owed : call.offered = call.taken + size := owes
      simp only [Option.mem_def, Option.some.injEq, forall_eq']
      omega

section Owed

variable {conn : Connection} {client after : EchoClient} {log : List SendCall} {answer : SendAnswer}

theorem owes_consumed {sentNb : Nat} (le : sentNb ≤ client.toSendSize) :
    Owes (log ++ [.of client.toSendSize (.ok sentNb)]) (client.consumed sentNb).toSendSize := by
  rw [owes_concat, EchoClient.consumed_toSendSize]
  exact (Nat.add_sub_cancel' le).symm

theorem sendEffect_owed (live : conn.client = some client) (contract : conn.SendContract answer)
    (kept : (sendEffect conn client answer).client = some after) :
    Owes (log ++ [.of client.toSendSize answer]) after.toSendSize := by
  rcases answer with (_ | _ | _) | sentNb
  · obtain rfl := Option.some.inj (live.symm.trans kept)
    exact owes_concat.mpr (Nat.zero_add _).symm
  · cases kept
  · cases kept
  · have le : sentNb ≤ client.toSendSize := by
      simpa [Connection.SendContract, live] using contract
    obtain rfl := Option.some.inj (sendEffect_client.symm.trans kept)
    exact owes_consumed le

theorem sendBackEffect_owed (live : conn.client = some client)
    (contract : conn.SendContract answer)
    (kept : (sendBackEffect conn client answer).client = some after) :
    Owes (log ++ [.of client.toSendSize answer]) after.toSendSize := by
  rcases answer with (_ | _ | _) | sentNb
  · obtain rfl := Option.some.inj (live.symm.trans kept)
    exact owes_concat.mpr (Nat.zero_add _).symm
  · cases kept
  · cases kept
  · have le : sentNb ≤ client.toSendSize := by
      simpa [Connection.SendContract, live] using contract
    obtain rfl := Option.some.inj (sendBackEffect_client.symm.trans kept)
    exact owes_consumed le

/-- A client that survives a step owes what its last `send` has left. -/
theorem Fires.owed {next : Connection} {event : Event}
    (fires : Fires .serverHonest conn client event next) (live : conn.client = some client)
    (owes : Owes log client.toSendSize) (kept : next.client = some after) :
    Owes (log ++ event.sendCalls client) after.toSendSize := by
  have same : conn.client = some after → Owes (log ++ []) after.toSendSize := by
    intro kept
    obtain rfl := Option.some.inj (live.symm.trans kept)
    rwa [List.append_nil]
  cases fires with
  | tick => exact same kept
  | pollRecv => exact same kept
  | pollSend => exact same kept
  | pollTimeout => exact same kept
  | @wcbRecv recv nb send pending returned contract =>
      have live' : (conn.register Watchers.recvInvoked).client = some client := live
      rw [Event.sendCalls, returned]
      rcases nb with (_ | _ | _) | bytes
      · obtain rfl : client.compacted = after := Option.some.inj kept
        simpa using owes
      · cases kept
      · cases kept
      · by_cases empty : bytes = []
        · rw [recvEffect, if_pos empty] at kept
          cases kept
        · rw [recvEffect, if_neg empty] at kept
          have owed : Owes (log ++ [.of (client.compacted.filled bytes).toSendSize send])
              after.toSendSize := sendBackEffect_owed rfl (contract.send live') kept
          simpa [empty] using owed
  | wcbSend pending contract =>
      have live' : (conn.register Watchers.sendInvoked).client = some client := live
      exact sendEffect_owed live' contract kept
  | wcbTimeout => cases kept

end Owed

/-- A sound session whose client owes what the last `send` of the log has left. -/
def OwesLast (state : Except Fault Session × List SendCall) : Prop :=
  ∃ session, state.1 = .ok session ∧ Sound state.1 ∧
    ∀ client, session.conn.client = some client → Owes state.2 client.toSendSize

theorem owesLast_preserved : (sendingSystem .serverHonest).Preserves OwesLast := by
  rintro ⟨_, log⟩ event after ⟨session, rfl, sound, owes⟩ step
  obtain ⟨result, taken, rfl⟩ := (logged_step_iff _).mp step
  have kept := session_sound .serverHonest _ _ _ sound taken
  have session_step : session.next .serverHonest event = some result := taken
  cases event with
  | arrive bytes =>
      simp only [Session.next, Option.ite_none_left_eq_some, Option.some.injEq] at session_step
      obtain ⟨-, rfl⟩ := session_step
      exact ⟨_, rfl, kept, by simpa [sendCallsOf] using owes⟩
  | shutdown =>
      obtain rfl := Option.some.inj session_step
      exact ⟨_, rfl, kept, by simpa [sendCallsOf] using owes⟩
  | server event =>
      obtain ⟨pipe, shown⟩ := sound
      obtain ⟨-, conn, conn_step, -, rfl⟩ := server_step shown session_step
      refine ⟨_, rfl, kept, ?_⟩
      intro client live
      cases held : session.conn.client with
      | none =>
          obtain ⟨elapsed, -, same⟩ := next_of_quiet (shown.quiet held) conn_step
          obtain rfl := Except.ok.inj same
          exact absurd (held.symm.trans live) (by simp)
      | some before =>
          obtain ⟨_, same, fires⟩ := fires_of_next held (shown.window before held) conn_step
          obtain rfl := Except.ok.inj same
          have owed := fires.owed held (owes before held) live
          simpa only [sendCallsOf, held] using owed

/-! ## Reads at the end of the stream -/

/-- A read that returns 0. -/
def zeroRead : List SessionEvent :=
  [.server .pollRecv, .server (.wcbRecv [.ok []] (.error .eagain))]

/-- Wherever `recv` may return 0 the server deletes the client and keeps what was pending. -/
theorem read_zero {session : Session} {client : EchoClient} {pipe : EchoPipe Byte}
    (shown : Shows session.conn pipe) (live : session.conn.client = some client)
    (armed : session.conn.watchers.recv.active = true)
    (allowed : client.asked = 0 ∨ session.unread = [] ∧ session.shut = true) :
    ∃ middle after,
      (sessionSystem .serverHonest).run (.ok session) [.server .pollRecv] = some (.ok middle) ∧
        middle.next .serverHonest (.server (.wcbRecv [.ok []] (.error .eagain))) =
          some (.ok after) ∧
        middle.shut = session.shut ∧ Deletes middle after ∧
        after.conn.sent = session.conn.sent ∧ after.conn.received = session.conn.received := by
  let polled : Connection := session.conn.register fun watchers =>
    { watchers with recv := { watchers.recv with pending := true } }
  have window := shown.window client live
  have poll : session.conn.watchers.recv.poll =
      some { session.conn.watchers.recv with pending := true } := by
    rw [IoWatcher.poll, if_pos armed]
  have poll_contract : session.SocketContract .pollRecv := by
    simp [Session.SocketContract, Event.returned, live]
  have poll_fires : Fires .serverHonest session.conn client .pollRecv polled := .pollRecv poll
  have poll_step := poll_fires.session_next live window poll_contract
  let middle : Session := { session with conn := polled }
  have middle_live : middle.conn.client = some client := live
  have returned : Event.returned (.wcbRecv [.ok []] (.error .eagain)) = some (.ok []) := rfl
  have contract : middle.SocketContract (.wcbRecv [.ok []] (.error .eagain)) := by
    rw [Session.socketContract_iff middle_live returned]
    split
    · rfl
    · rename_i nonzero
      exact ⟨List.nil_prefix, fun _ => allowed.resolve_left nonzero⟩
  have recv_contract : (polled.register Watchers.recvInvoked).RecvContract (.ok [])
      (.error .eagain) := by
    simp [Connection.RecvContract, Connection.register, polled, live]
  have fires : Fires .serverHonest polled client (.wcbRecv [.ok []] (.error .eagain)) _ :=
    .wcbRecv rfl rfl recv_contract
  obtain ⟨freed, sent_eq, received_eq⟩ := fires.zero_deletes returned
  refine ⟨middle, _, ?_, Fires.session_next fires middle_live window contract, rfl, ⟨?_, freed⟩,
    sent_eq, received_eq⟩
  · simp only [run_cons, run_nil]
    exact congrArg (fun state => state.bind fun next => some next) poll_step
  · change session.conn.client ≠ none
    simp [live]

/-- A peer sends `bytes`, they are read and sent back at once, and the peer shuts down. -/
def echoed (bytes : List Byte) : List SessionEvent :=
  [.arrive bytes, .server .pollRecv, .server (.wcbRecv [.ok bytes] (.ok bytes.length)), .shutdown]

/-- The only `send` of the echo takes all that it is offered. -/
theorem run_echoed (program : Program) (sd : Nat) (memory : Vector Byte TO_SEND_SIZE) (now : Time)
    (bytes : List Byte) (nonempty : bytes ≠ []) (fits : bytes.length ≤ TO_SEND_SIZE) :
    ∃ session client,
      (sendingSystem program).run (.ok (Session.start sd memory now), []) (echoed bytes) =
          some (.ok session, [{ offered := bytes.length, taken := bytes.length }]) ∧
        session.conn.client = some client ∧ session.conn.watchers.recv.active = true ∧
        session.conn.sent = bytes ∧ session.conn.received = bytes ∧ session.unread = [] ∧
        session.shut = true := by
  let fresh := freshClient sd memory
  let filled := ((polledConnection sd memory now).register Watchers.recvInvoked).filled fresh bytes
  let polled : Session := { conn := polledConnection sd memory now, unread := bytes, shut := false }
  let emptied : Session :=
    { conn := filled.accepted (fresh.filled bytes) bytes.length, unread := [], shut := false }
  have polled_live : polled.conn.client = some fresh := rfl
  have returned : Event.returned (.wcbRecv [.ok bytes] (.ok bytes.length)) = some (.ok bytes) := rfl
  have contract : polled.SocketContract (.wcbRecv [.ok bytes] (.ok bytes.length)) := by
    rw [Session.socketContract_iff polled_live returned,
      if_neg (by rw [freshClient_asked, TO_SEND_SIZE]; decide)]
    exact ⟨List.prefix_rfl, fun empty => (nonempty empty).elim⟩
  have size : (fresh.filled bytes).toSendSize = bytes.length := Nat.zero_add _
  have pending : (fresh.filled bytes).pending = bytes :=
    ((freshClient_window sd memory).filled_pending bytes).trans (List.nil_append _)
  have takes : ∀ sentNb, (.ok bytes.length : SendAnswer) = .ok sentNb → sentNb ≤ bytes.length := by
    rintro sentNb ⟨⟩
    exact le_rfl
  have fires := fires_first_recv program sd memory now nonempty fits takes
  rw [sendBackEffect, if_neg (by rw [size]; exact lt_irrefl _)] at fires
  have taken : polled.next program (.server (.wcbRecv [.ok bytes] (.ok bytes.length))) =
      some (.ok emptied) := by
    rw [fires.session_next polled_live (freshClient_window sd memory) contract]
    exact congrArg
      (fun unread => (some (.ok { emptied with unread }) : Option (Except Fault Session)))
      List.drop_length
  have logged : sendCallsOf (.ok polled) (.server (.wcbRecv [.ok bytes] (.ok bytes.length))) =
      [{ offered := bytes.length, taken := bytes.length }] := by
    simp [sendCallsOf, polled_live, Event.sendCalls, auxUnixRecv, nonempty, fresh, freshClient,
      SendCall.of]
  have step : (sendingSystem program).step (.ok polled, [])
      (.server (.wcbRecv [.ok bytes] (.ok bytes.length))) =
        some (.ok emptied, [{ offered := bytes.length, taken := bytes.length }]) :=
    (logged_step_iff _).mpr ⟨_, taken, by rw [logged]; rfl⟩
  refine ⟨{ emptied with shut := true }, (fresh.filled bytes).consumed bytes.length, ?_, rfl, rfl,
    ?_, rfl, rfl, rfl⟩
  · simp only [echoed, run_cons]
    exact congrArg
      (fun state => state.bind fun next => (sendingSystem program).run next [.shutdown])
      step
  · change [] ++ (fresh.filled bytes).pending.take bytes.length = bytes
    rw [pending, List.nil_append, List.take_length]

/-! ## Whole runs -/

/-- Sound states make the session predicates meaningful. -/
theorem along_sessions_congr {program : Program}
    {left right : Session → SessionEvent → Session → Prop}
    {initial : Except Fault Session} {events : List SessionEvent} (sound : Sound initial)
    (agree : ∀ session event after pipe, event ∈ events → Shows session.conn pipe →
      session.next program event = some (.ok after) →
        (left session event after ↔ right session event after)) :
    (sessionSystem program).Along (OnSessions left) initial events ↔
      (sessionSystem program).Along (OnSessions right) initial events := by
  apply along_congr (session_sound program) _ sound
  intro state event next member here step
  cases state with
  | error fault => exact here.elim
  | ok session =>
      cases next with
      | error fault => exact Iff.rfl
      | ok after =>
          obtain ⟨pipe, shown⟩ := here
          exact agree session event after pipe member shown step

/-- Along every run the branch `0 == nb` deletes only after the peer's shutdown exactly if every
read-ready callback before the shutdown finds fewer than `TO_SEND_SIZE` bytes received but not yet
accepted by `send`; and while the read watcher is armed the length handed to `recv` is positive
exactly if there are fewer. -/
theorem eof_only_after_shutdown_iff (sd : Nat) (memory : Vector Byte TO_SEND_SIZE) (now : Time)
    (events : List SessionEvent) :
    ((sessionSystem .serverHonest).Along (OnSessions EofAfterShutdown)
        (.ok (Session.start sd memory now)) events ↔
      (sessionSystem .serverHonest).Along (OnSessions RoomAtRecv)
        (.ok (Session.start sd memory now)) events) ∧
      ∀ session, (sessionSystem .serverHonest).run (.ok (Session.start sd memory now)) events =
          some (.ok session) →
        session.conn.watchers.recv.active = true →
          ∃ client, session.conn.client = some client ∧
            (1 ≤ client.asked ↔ session.backlog < TO_SEND_SIZE) := by
  constructor
  · apply along_sessions_congr (start_sound sd memory now)
    intro session event after pipe _ shown step
    exact eofAfterShutdown_iff shown step
  · intro session execution armed
    obtain ⟨pipe, shown⟩ :=
      (session_sound .serverHonest).run (start_sound sd memory now) execution
    obtain ⟨client, live⟩ : ∃ client, session.conn.client = some client := by
      refine Option.ne_none_iff_exists'.mp fun freed => ?_
      simp [(shown.quiet freed).recv_active] at armed
    exact ⟨client, live, shown.asked_pos_iff live⟩

/-- Along every run without failing calls and without an expiry, no deletion loses a byte exactly
if, whenever `recv` returns 0, the last `send` before it took all that it was offered. -/
theorem nothing_lost_at_deletion_iff (sd : Nat) (memory : Vector Byte TO_SEND_SIZE) (now : Time)
    {events : List SessionEvent} (orderly : ∀ event ∈ events, event.Orderly) :
    (sessionSystem .serverHonest).Along (OnSessions NothingLost)
        (.ok (Session.start sd memory now)) events ↔
      (sendingSystem .serverHonest).Along CaughtUpAtEof (.ok (Session.start sd memory now), [])
        events := by
  have start : OwesLast (.ok (Session.start sd memory now), []) := by
    refine ⟨_, rfl, start_sound sd memory now, ?_⟩
    rintro client ⟨⟩
    rfl
  refine (logged_along (sessionSystem .serverHonest) sendCallsOf []).symm.trans ?_
  apply along_congr owesLast_preserved _ start
  rintro ⟨_, log⟩ event next member ⟨session, rfl, ⟨pipe, shown⟩, owes⟩ step
  obtain ⟨result, taken, rfl⟩ := (logged_step_iff _).mp step
  have session_step : session.next .serverHonest event = some result := taken
  cases result with
  | error fault =>
      exact (session_sound .serverHonest (.ok session) event _ ⟨pipe, shown⟩ taken).elim
  | ok after =>
      refine (nothingLost_iff shown (orderly event member) session_step).trans ?_
      apply forall_congr'
      intro zero
      obtain ⟨client, live⟩ := live_of_recv shown session_step zero
      rw [session.drained_iff_of_live live, (owes client live).caughtUp_iff]

/-- A half-close behind an echo reads 0, deletes the client and loses nothing. -/
theorem nothing_lost_at_deletion_iff_echoed :
    (∃ after, (sessionSystem .serverHonest).run
        (.ok (Session.start 5 (Vector.replicate TO_SEND_SIZE 0) 0)) (echoed [104] ++ zeroRead) =
          some (.ok after) ∧ after.conn.client = none ∧ after.conn.sent = [104]) ∧
      (sessionSystem .serverHonest).Along (OnSessions NothingLost)
        (.ok (Session.start 5 (Vector.replicate TO_SEND_SIZE 0) 0)) (echoed [104] ++ zeroRead) := by
  obtain ⟨session, client, execution, live, armed, sent_eq, -, unread_eq, shut_eq⟩ :=
    run_echoed .serverHonest 5 (Vector.replicate TO_SEND_SIZE 0) 0 [104] (by simp) (by decide)
  have plain : (sessionSystem .serverHonest).run
      (.ok (Session.start 5 (Vector.replicate TO_SEND_SIZE 0) 0)) (echoed [104]) =
        some (.ok session) := by
    rw [← logged_run (sessionSystem .serverHonest) sendCallsOf _ [], execution]
    rfl
  obtain ⟨pipe, shown⟩ := (session_sound .serverHonest).run (start_sound _ _ _) plain
  obtain ⟨middle, after, poll_run, step, -, ⟨-, freed⟩, sent_eq', -⟩ :=
    read_zero shown live armed (Or.inr ⟨unread_eq, shut_eq⟩)
  have split : echoed [104] ++ zeroRead = (echoed [104] ++ [.server .pollRecv]) ++
      [.server (.wcbRecv [.ok []] (.error .eagain))] := rfl
  have poll_step : (sessionSystem .serverHonest).step (.ok session) (.server .pollRecv) =
      some (.ok middle) := by simpa using poll_run
  have front_run : (sendingSystem .serverHonest).run
      (.ok (Session.start 5 (Vector.replicate TO_SEND_SIZE 0) 0), [])
      (echoed [104] ++ [.server .pollRecv]) =
        some (.ok middle, [{ offered := 1, taken := 1 }]) := by
    rw [run_append, execution, Option.bind_some, run_cons]
    have polled : (sendingSystem .serverHonest).step (.ok session, [{ offered := 1, taken := 1 }])
        (.server .pollRecv) = some (.ok middle, [{ offered := 1, taken := 1 }]) :=
      (logged_step_iff _).mpr ⟨_, poll_step, by simp [sendCallsOf, live, Event.sendCalls]⟩
    exact congrArg (fun state => state.bind fun next => some next) polled
  refine ⟨⟨after, ?_, freed, sent_eq'.trans sent_eq⟩, ?_⟩
  · rw [run_append, plain, Option.bind_some, zeroRead, run_cons, poll_step]
    exact congrArg (fun state => state.bind fun next => some next) step
  · have orderly : ∀ event ∈ echoed [104] ++ zeroRead, event.Orderly := by
      simp [echoed, zeroRead, SessionEvent.Orderly, Event.Orderly, Event.returned,
        Event.sendAnswer, auxUnixRecv]
    refine (nothing_lost_at_deletion_iff 5 (Vector.replicate TO_SEND_SIZE 0) 0 orderly).mpr ?_
    have last : (sendingSystem .serverHonest).step (.ok middle, [{ offered := 1, taken := 1 }])
        (.server (.wcbRecv [.ok []] (.error .eagain))) = some (.ok after, _) :=
      (logged_step_iff _).mpr ⟨_, step, rfl⟩
    rw [split, along_concat front_run last]
    constructor
    · rw [along_iff]
      intro front event back state next front_eq _ _ zero
      have member : event ∈ echoed [104] ++ [.server .pollRecv] := by simp [front_eq]
      have unended : ∀ event ∈ echoed [104] ++ [.server .pollRecv],
          event.returned ≠ some (.ok []) := by
        simp [echoed, SessionEvent.returned, Event.returned, auxUnixRecv]
      exact absurd zero (unended event member)
    · have all_taken : CaughtUp [{ offered := 1, taken := 1 }] := by decide
      exact fun _ => all_taken

/-! ## A burst that is not echoed -/

/-- A peer sends `bytes` and more, one read takes `bytes` and the kernel accepts none of them. -/
def burst (bytes more : List Byte) : List SessionEvent :=
  [.arrive (bytes ++ more), .server .pollRecv, .server (.wcbRecv [.ok bytes] (.error .eagain))]

/-- The burst fills the window of a new client and leaves it registered for reading. -/
theorem run_burst (program : Program) (sd : Nat) (memory : Vector Byte TO_SEND_SIZE) (now : Time)
    (bytes more : List Byte) (nonempty : bytes ≠ []) (fits : bytes.length ≤ TO_SEND_SIZE) :
    ∃ session client,
      (sessionSystem program).run (.ok (Session.start sd memory now)) (burst bytes more) =
          some (.ok session) ∧
        session.conn.client = some client ∧ client.toSendSize = bytes.length ∧
        session.conn.watchers.recv.active = true ∧ session.conn.sent = [] ∧
        session.conn.received = bytes ∧ session.unread = more ∧ session.shut = false := by
  let polled : Session :=
    { conn := polledConnection sd memory now, unread := bytes ++ more, shut := false }
  let held : Session :=
    { conn := heldConnection sd memory now bytes, unread := more, shut := false }
  have polled_live : polled.conn.client = some (freshClient sd memory) := rfl
  have returned : Event.returned (.wcbRecv [.ok bytes] (.error .eagain)) = some (.ok bytes) := rfl
  have contract : polled.SocketContract (.wcbRecv [.ok bytes] (.error .eagain)) := by
    rw [Session.socketContract_iff polled_live returned,
      if_neg (by rw [freshClient_asked, TO_SEND_SIZE]; decide)]
    exact ⟨List.prefix_append _ _, fun empty => (nonempty empty).elim⟩
  have unread_eq : (bytes ++ more).drop bytes.length = more := List.drop_left
  have last : polled.next program (.server (.wcbRecv [.ok bytes] (.error .eagain))) =
      some (.ok held) := by
    rw [Fires.session_next (fires_first_read program sd memory now nonempty fits) polled_live
      (freshClient_window sd memory) contract]
    exact congrArg
      (fun unread => (some (.ok { held with unread }) : Option (Except Fault Session))) unread_eq
  refine ⟨held, (freshClient sd memory).filled bytes, ?_, rfl, by simp [freshClient], rfl, rfl, rfl,
    rfl, rfl⟩
  simp only [burst, run_cons]
  exact congrArg (fun state => state.bind fun next => some next) last

/-- A run that ends in a step without the property does not have it along. -/
theorem not_along_of_last {program : Program} {property : Session → SessionEvent → Session → Prop}
    {initial middle after : Session} {front : List SessionEvent} {event : SessionEvent}
    (front_run : (sessionSystem program).run (.ok initial) front = some (.ok middle))
    (step : middle.next program event = some (.ok after))
    (fails : ¬ property middle event after) :
    ¬ (sessionSystem program).Along (OnSessions property) (.ok initial) (front ++ [event]) := by
  intro along
  exact fails (along_iff.mp along front event [] _ _ rfl front_run step)

/-- A peer that keeps sending to a server that cannot send back is taken for a finished one. -/
theorem full_buffer_deleted :
    ¬ (sessionSystem .serverHonest).Along (OnSessions EofAfterShutdown)
        (.ok (Session.start 5 (Vector.replicate TO_SEND_SIZE 0) 0))
        (burst (List.replicate TO_SEND_SIZE 97) [98] ++ zeroRead) := by
  obtain ⟨session, client, execution, live, size, armed, -, -, -, unshut⟩ :=
    run_burst .serverHonest 5 (Vector.replicate TO_SEND_SIZE 0) 0 (List.replicate TO_SEND_SIZE 97)
      [98] (List.ne_nil_of_length_pos (by rw [List.length_replicate]; decide))
      (List.length_replicate ..).le
  obtain ⟨pipe, shown⟩ := (session_sound .serverHonest).run (start_sound _ _ _) execution
  have full : client.asked = 0 := by
    have backlog := shown.backlog_eq live
    have asked_pos := shown.asked_pos_iff live
    rw [backlog, size, List.length_replicate] at asked_pos
    omega
  obtain ⟨middle, after, poll_run, step, shut_eq, deletes, -, -⟩ :=
    read_zero shown live armed (Or.inl full)
  have front_run : (sessionSystem .serverHonest).run
      (.ok (Session.start 5 (Vector.replicate TO_SEND_SIZE 0) 0))
      (burst (List.replicate TO_SEND_SIZE 97) [98] ++ [.server .pollRecv]) = some (.ok middle) := by
    rw [run_append, execution]
    exact poll_run
  apply not_along_of_last front_run step
  intro property
  simpa [shut_eq, unshut] using property rfl deletes

/-- A peer that sends one byte and shuts down while the server cannot send does not get it back. -/
theorem half_close_loses :
    (∀ event ∈ burst [97] [] ++ .shutdown :: zeroRead, event.Orderly) ∧
      ¬ (sessionSystem .serverHonest).Along (OnSessions NothingLost)
          (.ok (Session.start 5 (Vector.replicate TO_SEND_SIZE 0) 0))
          (burst [97] [] ++ .shutdown :: zeroRead) := by
  constructor
  · simp [burst, zeroRead, SessionEvent.Orderly, Event.Orderly, Event.returned, Event.sendAnswer,
      auxUnixRecv]
  · obtain ⟨session, client, execution, live, -, armed, sent_eq, received_eq, unread_eq, -⟩ :=
      run_burst .serverHonest 5 (Vector.replicate TO_SEND_SIZE 0) 0 [97] [] (by simp) (by decide)
    obtain ⟨pipe, shown⟩ := (session_sound .serverHonest).run (start_sound _ _ _) execution
    have shown' : Shows ({ session with shut := true } : Session).conn pipe := shown
    obtain ⟨middle, after, poll_run, step, -, deletes, sent_eq', received_eq'⟩ :=
      read_zero shown' live armed (Or.inr ⟨unread_eq, rfl⟩)
    have front_run : (sessionSystem .serverHonest).run
        (.ok (Session.start 5 (Vector.replicate TO_SEND_SIZE 0) 0))
        (burst [97] [] ++ [.shutdown, .server .pollRecv]) = some (.ok middle) := by
      rw [run_append, execution]
      exact poll_run
    apply not_along_of_last front_run step
    intro property
    have equal := property deletes
    simp [sent_eq', received_eq', sent_eq, received_eq] at equal

end Mrps.Honest
