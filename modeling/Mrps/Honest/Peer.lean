import Mrps.Honest.Stream

/-!
# A connection and its peer

The socket of a connection with the bytes that have arrived on it and whether the peer has shut its
sending side down.  This fixes what `recv` may answer: it delivers a prefix of what has arrived,
and it returns 0 either because nothing more will arrive or because it was asked for nothing.
-/

namespace Mrps.Honest

open EventSystem

/-- A connection with the receive side of its socket. -/
structure Session where
  conn : Connection
  /-- Bytes that arrived and that `recv` has not delivered yet. -/
  unread : List Byte
  /-- The peer has shut its sending side down. -/
  shut : Bool
  deriving DecidableEq, Repr

/-- What can happen to a session. -/
inductive SessionEvent where
  | arrive (bytes : List Byte)
  | shutdown
  | server (event : Event)
  deriving DecidableEq, Repr

/-- The outcome of `aux_unix_recv` in a read-ready callback. -/
def Event.returned : Event → Option RecvAnswer
  | .wcbRecv recv _ => auxUnixRecv recv
  | _ => none

/-- The bytes an event takes off the socket. -/
def Event.delivered (event : Event) : List Byte :=
  match event.returned with
  | some (.ok bytes) => bytes
  | _ => []

namespace Session

/-- A `recv` of positive length delivers only what has arrived, and returns 0 only at end of
stream. -/
def MayReturn (session : Session) : RecvAnswer → Prop
  | .ok bytes =>
      bytes <+: session.unread ∧ (bytes = [] → session.unread = [] ∧ session.shut = true)
  | .error _ => True

instance (session : Session) : (nb : RecvAnswer) → Decidable (session.MayReturn nb)
  | .ok bytes =>
      inferInstanceAs (Decidable (bytes <+: session.unread ∧
        (bytes = [] → session.unread = [] ∧ session.shut = true)))
  | .error _ => inferInstanceAs (Decidable True)

/-- What the socket allows a read-ready callback to see; a `recv` of length 0 returns 0. -/
def SocketContract (session : Session) (event : Event) : Prop :=
  match session.conn.client, event.returned with
  | some client, some nb => if client.asked = 0 then nb = .ok [] else session.MayReturn nb
  | _, _ => True

instance (session : Session) (event : Event) : Decidable (session.SocketContract event) := by
  rw [SocketContract]
  split <;> infer_instance

/-- One step of a session. -/
def next (program : Program) (session : Session) :
    SessionEvent → Option (Except Fault Session)
  | .arrive bytes =>
      if session.shut then none else some (.ok { session with unread := session.unread ++ bytes })
  | .shutdown => some (.ok { session with shut := true })
  | .server event =>
      if session.SocketContract event then
        (session.conn.next program event).map fun result =>
          result.map fun conn =>
            { session with conn, unread := session.unread.drop event.delivered.length }
      else
        none

/-- A session from `echo_client_add` on. -/
def start (sd : Nat) (memory : Vector Byte TO_SEND_SIZE) (now : Time) : Session :=
  { conn := echoClientAdd sd memory now, unread := [], shut := false }

/-- The number of bytes received from the peer and not yet accepted by `send`. -/
def backlog (session : Session) : Nat :=
  session.conn.received.length - session.conn.sent.length

end Session

/-- The runs of one session; a fault ends the run. -/
def sessionSystem (program : Program) : EventSystem (Except Fault Session) SessionEvent where
  step state event :=
    match state with
    | .ok session => session.next program event
    | .error _ => none

theorem Session.socketContract_iff {session : Session} {client : EchoClient} {event : Event}
    {nb : RecvAnswer} (live : session.conn.client = some client)
    (returned : event.returned = some nb) :
    session.SocketContract event ↔
      if client.asked = 0 then nb = .ok [] else session.MayReturn nb := by
  simp [SocketContract, live, returned]

theorem Fires.session_next {program : Program} {session : Session} {next : Connection}
    {client : EchoClient} {event : Event} (fires : Fires program session.conn client event next)
    (live : session.conn.client = some client) (window : client.Window)
    (contract : session.SocketContract event) :
    session.next program (.server event) =
      some (.ok
        { session with conn := next, unread := session.unread.drop event.delivered.length }) := by
  rw [Session.next, if_pos contract, fires.next_eq live window]
  rfl

/-! ## Sessions stay sound -/

/-- A fault-free state whose connection shows some pipe. -/
def Sound : Except Fault Session → Prop
  | .ok session => ∃ pipe, Shows session.conn pipe
  | .error _ => False

theorem server_step {program : Program} {session : Session} {event : Event}
    {state : Except Fault Session} {pipe : EchoPipe Byte} (shown : Shows session.conn pipe)
    (step : session.next program (.server event) = some state) :
    session.SocketContract event ∧
      ∃ conn, session.conn.next program event = some (.ok conn) ∧ Continues conn pipe ∧
        state = .ok
          { session with conn, unread := session.unread.drop event.delivered.length } := by
  simp only [Session.next, Option.ite_none_right_eq_some, Option.map_eq_some_iff] at step
  obtain ⟨contract, result, conn_step, rfl⟩ := step
  obtain ⟨conn, rfl, continues⟩ := next_continues shown conn_step
  exact ⟨contract, conn, conn_step, continues, rfl⟩

theorem session_sound (program : Program) : (sessionSystem program).Preserves Sound := by
  intro state event next sound step
  cases state with
  | error fault => exact sound.elim
  | ok session =>
      obtain ⟨pipe, shown⟩ := sound
      cases event with
      | arrive bytes =>
          simp only [sessionSystem, Session.next, Option.ite_none_left_eq_some,
            Option.some.injEq] at step
          obtain ⟨-, rfl⟩ := step
          exact ⟨pipe, shown⟩
      | shutdown =>
          obtain rfl := Option.some.inj step
          exact ⟨pipe, shown⟩
      | server event =>
          obtain ⟨-, conn, -, ⟨_, later, -, shown'⟩, rfl⟩ := server_step shown step
          exact ⟨later, shown'⟩

theorem start_sound (sd : Nat) (memory : Vector Byte TO_SEND_SIZE) (now : Time) :
    Sound (.ok (Session.start sd memory now)) :=
  ⟨EchoPipe.empty, Shows.initial sd memory now⟩

theorem Shows.backlog_eq {session : Session} {pipe : EchoPipe Byte} {client : EchoClient}
    (shown : Shows session.conn pipe) (live : session.conn.client = some client) :
    session.backlog = client.toSendSize := by
  have whole := congrArg List.length pipe.sent_append_pending
  have size := (shown.window client live).length_pending
  rw [List.length_append, ← shown.pending client live, size] at whole
  rw [Session.backlog, shown.received, shown.sent]
  omega

theorem Shows.asked_pos_iff {session : Session} {pipe : EchoPipe Byte} {client : EchoClient}
    (shown : Shows session.conn pipe) (live : session.conn.client = some client) :
    1 ≤ client.asked ↔ session.backlog < TO_SEND_SIZE := by
  have window := shown.window client live
  have inside := window.inside
  rw [window.asked_eq, shown.backlog_eq live, EchoClient.room]
  split
  · omega
  · rename_i roomy
    rw [EchoClient.Cramped] at roomy
    omega

/-! ## The streams -/

theorem sendEffect_received {conn : Connection} {client : EchoClient} {answer : SendAnswer} :
    (sendEffect conn client answer).received = conn.received := by
  rcases answer with (_ | _ | _) | sentNb
  · rfl
  · rfl
  · rfl
  · rw [sendEffect]
    split <;> rfl

theorem sendBackEffect_received {conn : Connection} {client : EchoClient} {answer : SendAnswer} :
    (sendBackEffect conn client answer).received = conn.received := by
  rcases answer with (_ | _ | _) | sentNb
  · rfl
  · rfl
  · rfl
  · rw [sendBackEffect]
    split <;> rfl

theorem doneEffect_received {program : Program} {conn : Connection} {client : EchoClient} :
    (program.doneEffect client conn).received = conn.received := by
  cases program <;> rfl

theorem Fires.received_eq {program : Program} {conn next : Connection} {client : EchoClient}
    {event : Event} (fires : Fires program conn client event next) :
    next.received = conn.received ++ event.delivered := by
  cases fires with
  | tick | pollRecv | pollSend | pollTimeout | wcbTimeout => exact (List.append_nil _).symm
  | wcbSend => exact sendEffect_received.trans (List.append_nil _).symm
  | @wcbRecv recv nb send _ returned =>
      rw [Event.delivered, Event.returned, returned]
      rcases nb with (_ | _ | _) | bytes
      · exact (List.append_nil _).symm
      · exact (List.append_nil _).symm
      · exact (List.append_nil _).symm
      · rw [recvEffect]
        split
        · rename_i empty
          rw [doneEffect_received, empty]
          exact (List.append_nil _).symm
        · exact sendBackEffect_received

theorem Session.SocketContract.delivered_prefix {session : Session} {client : EchoClient}
    {event : Event} (contract : session.SocketContract event)
    (live : session.conn.client = some client) : event.delivered <+: session.unread := by
  rw [Event.delivered]
  split
  · rename_i bytes returned
    have allowed := (Session.socketContract_iff live returned).mp contract
    split at allowed
    · obtain rfl := Except.ok.inj allowed
      exact List.nil_prefix
    · exact allowed.1
  · exact List.nil_prefix

/-- A step of the server moves bytes from the socket to what it received and adds to what it
sent. -/
theorem server_flow {program : Program} {session : Session} {event : Event}
    {state : Except Fault Session} {pipe : EchoPipe Byte} (shown : Shows session.conn pipe)
    (step : session.next program (.server event) = some state) :
    ∃ after pipe', state = .ok after ∧ Shows after.conn pipe' ∧ after.shut = session.shut ∧
      session.conn.sent <+: after.conn.sent ∧
      after.conn.received ++ after.unread = session.conn.received ++ session.unread := by
  obtain ⟨contract, conn, conn_step, ⟨events, later, execution, shown'⟩, rfl⟩ :=
    server_step shown step
  refine ⟨_, later, rfl, shown', rfl, ?_, ?_⟩
  · change session.conn.sent <+: conn.sent
    rw [shown.sent, shown'.sent]
    exact EchoPipe.run_sent_prefix execution
  · change conn.received ++ session.unread.drop event.delivered.length = _
    cases live : session.conn.client with
    | none =>
        obtain ⟨elapsed, rfl, result_eq⟩ := next_of_quiet (shown.quiet live) conn_step
        rw [Except.ok.inj result_eq]
        rfl
    | some client =>
        obtain ⟨_, next_eq, fires⟩ := fires_of_next live (shown.window client live) conn_step
        obtain rfl := Except.ok.inj next_eq
        obtain ⟨rest, unread⟩ := contract.delivered_prefix live
        rw [fires.received_eq, ← unread, List.drop_left, List.append_assoc]

end Mrps.Honest
