import Mrps.Honest.Peer
import Mrps.Plain.Callbacks
import Mrps.Script

/-!
# The two servers when the network never pushes back

`server-honest.c` and `server.c` against one script, each with its own segmentation, while every
`send` accepts everything it is offered.  The buffered server then never keeps a byte, so its window
always has room, and both give back the script.
-/

namespace Mrps

open EventSystem

/-! ## The buffered server -/

namespace Honest

/-- Every `send` accepts everything it is offered, and the idle timer does not expire. -/
def Connection.Unhindered (conn : Connection) : Event → Prop
  | .wcbRecv recv send =>
      ∀ client ∈ conn.client, (Event.wcbRecv recv send).delivered ≠ [] →
        send = .ok (client.toSendSize + (Event.wcbRecv recv send).delivered.length)
  | .wcbSend send => ∀ client ∈ conn.client, send = .ok client.toSendSize
  | .wcbTimeout => False
  | .tick _ | .pollRecv | .pollSend | .pollTimeout => True

instance (conn : Connection) (event : Event) : Decidable (conn.Unhindered event) := by
  cases event <;> rw [Connection.Unhindered] <;> infer_instance

/-- The same of a state. -/
def Unhindered : Except Fault Connection → Event → Prop
  | .ok conn, event => conn.Unhindered event
  | .error _, _ => True

instance (state : Except Fault Connection) (event : Event) :
    Decidable (Unhindered state event) := by
  cases state <;> rw [Unhindered] <;> infer_instance

/-- `server-honest.c` reading a script. -/
def unhinderedSystem : EventSystem (Except Fault Connection × Script) Event :=
  plays (connectionSystem .serverHonest) Event.returned Unhindered

/-- A callback on a live client asks `recv` for at least 32 bytes, if it calls it, and leaves
nothing to send. -/
def Flushes (before : Except Fault Connection × Script) (event : Event)
    (after : Except Fault Connection × Script) : Prop :=
  ∀ conn client, before.1 = .ok conn → conn.client = some client →
    (event.returned ≠ none → 32 ≤ client.asked) ∧
      ∃ conn', after.1 = .ok conn' ∧ ∀ client', conn'.client = some client' →
        client'.toSendSize = 0

/-- A live client has nothing to send and does not wait for writability. -/
structure Idle (conn : Connection) (client : EchoClient) : Prop where
  size : client.toSendSize = 0
  active : conn.watchers.send.active = false
  pending : conn.watchers.send.pending = false

/-- The server has given back what it read of the script. -/
structure Flushed (script : Script) (conn : Connection) (rest : Script) : Prop where
  shown : ∃ pipe, Shows conn pipe
  idle : ∀ client, conn.client = some client → Idle conn client
  echoes : Echoes script rest conn.received conn.sent (conn.client ≠ none)

section Steps

variable {conn next : Connection} {client : EchoClient} {script rest rest' : Script}

theorem asked_of_empty (window : client.Window) (empty : client.toSendSize = 0) :
    32 ≤ client.asked := by
  rw [window.asked_eq, EchoClient.room, empty]
  split
  · simp [TO_SEND_SIZE]
  · rename_i roomy
    rw [EchoClient.Cramped, empty] at roomy
    omega

/-- A chunk that is received into an empty window and sent back whole. -/
theorem recvEffect_whole (window : client.Window) (empty : client.toSendSize = 0)
    {bytes : List Byte} (nonempty : bytes ≠ []) :
    ∃ later, recvEffect (Program.serverHonest.doneEffect client) conn client (.ok bytes.length)
        (.ok bytes) =
      { conn with
        client := some later
        received := conn.received ++ bytes
        sent := conn.sent ++ bytes } ∧ later.toSendSize = 0 := by
  have compacted_window := window.compacted
  have none_pending : client.compacted.pending = [] := by
    rw [← List.length_eq_zero_iff, compacted_window.length_pending,
      client.compacted_toSendSize, empty]
  have whole : (client.compacted.filled bytes).pending = bytes := by
    rw [compacted_window.filled_pending, none_pending, List.nil_append]
  have size : (client.compacted.filled bytes).toSendSize = bytes.length := by
    rw [EchoClient.filled_toSendSize, client.compacted_toSendSize, empty, Nat.zero_add]
  refine ⟨(client.compacted.filled bytes).consumed bytes.length, ?_, ?_⟩
  · rw [recvEffect, if_neg nonempty, sendBackEffect, size, if_neg (Nat.lt_irrefl _)]
    simp [Connection.accepted, Connection.filled, whole]
  · rw [EchoClient.consumed_toSendSize, size, Nat.sub_self]

theorem Flushed.kept (flushed : Flushed script conn rest) (shown : ∃ pipe, Shows next pipe)
    (client_eq : next.client = conn.client) (send_eq : next.watchers.send = conn.watchers.send)
    (received_eq : next.received = conn.received) (sent_eq : next.sent = conn.sent) :
    Flushed script next rest := by
  refine ⟨shown, ?_, ?_⟩
  · intro client live
    have idle := flushed.idle client (client_eq.symm.trans live)
    exact ⟨idle.size, by rw [send_eq]; exact idle.active, by rw [send_eq]; exact idle.pending⟩
  · rw [received_eq, sent_eq, client_eq]
    exact flushed.echoes

theorem Flushed.read (flushed : Flushed script conn rest) (live : conn.client = some client)
    {nb : RecvAnswer} {send : SendAnswer} (served : rest.Served nb rest')
    (whole : ∀ bytes, nb = .ok bytes → bytes ≠ [] → send = .ok bytes.length)
    (next_eq : next = recvEffect (Program.serverHonest.doneEffect client)
      (conn.register Watchers.recvInvoked) client send nb)
    (shown : ∃ pipe, Shows next pipe) : Flushed script next rest' := by
  have idle := flushed.idle client live
  have lives : conn.client ≠ none := by simp [live]
  have echoes := flushed.echoes
  cases served with
  | blocked =>
      subst next_eq
      refine ⟨shown, ?_, ?_⟩
      · rintro later ⟨⟩
        exact ⟨(client.compacted_toSendSize).trans idle.size, idle.active, idle.pending⟩
      · exact ⟨echoes.read, echoes.echoed, fun _ => echoes.alive lives, fun dies => by
          simp [recvEffect, Connection.register, Connection.hold] at dies⟩
  | eof read ends =>
      subst next_eq
      refine ⟨shown, ?_, ?_⟩
      · rintro later ⟨⟩
      · exact echoes.ended lives read (by simp [ends]) (fun later => later rfl)
  | error read ends =>
      subst next_eq
      refine ⟨shown, ?_, ?_⟩
      · rintro later ⟨⟩
      · exact echoes.ended lives read (by simp [ends]) (fun later => later rfl)
  | @bytes bytes _ nonempty split ending =>
      obtain ⟨pipe, shown_before⟩ := id flushed.shown
      obtain ⟨later, effect, empty⟩ := @recvEffect_whole (conn.register Watchers.recvInvoked)
        client (shown_before.window client live) idle.size bytes nonempty
      rw [whole bytes rfl nonempty, effect] at next_eq
      subst next_eq
      refine ⟨shown, ?_, ?_⟩
      · rintro client' ⟨⟩
        exact ⟨empty, idle.active, idle.pending⟩
      · have continued := echoes.bytes lives split ending
        exact ⟨continued.read, continued.echoed, fun _ => continued.alive lives, fun dies => by
          simp at dies⟩

theorem Flushed.taken {event : Event} (flushed : Flushed script conn rest)
    (keeps : conn.Unhindered event) (taken : conn.next .serverHonest event = some (.ok next))
    (leaves : rest.Leaves event.returned rest') (shown' : ∃ pipe, Shows next pipe) :
    Flushed script next rest' := by
  obtain ⟨pipe, shown⟩ := id flushed.shown
  cases held : conn.client with
  | none =>
      obtain ⟨elapsed, rfl, same⟩ := next_of_quiet (shown.quiet held) taken
      obtain rfl := Except.ok.inj same
      obtain rfl : rest' = rest := leaves
      exact flushed.kept shown' rfl rfl rfl rfl
  | some client =>
      have idle := flushed.idle client held
      obtain ⟨_, same, fires⟩ := fires_of_next held (shown.window client held) taken
      obtain rfl := Except.ok.inj same
      cases fires with
      | wcbTimeout => exact keeps.elim
      | pollSend polled => simp [IoWatcher.poll, idle.active] at polled
      | wcbSend pending => simp [idle.pending] at pending
      | @wcbRecv recv nb send pending returned contract =>
          apply flushed.read held (leaves.served returned) _ rfl shown'
          rintro bytes rfl nonempty
          have delivered : (Event.wcbRecv recv send).delivered = bytes := by
            simp [Event.delivered, Event.returned, returned]
          have accepted := keeps client held (by rwa [delivered])
          rw [delivered, idle.size, Nat.zero_add] at accepted
          exact accepted
      | tick elapsed =>
          obtain rfl : rest' = rest := leaves
          exact flushed.kept shown' rfl rfl rfl rfl
      | pollRecv polled =>
          obtain rfl : rest' = rest := leaves
          exact flushed.kept shown' rfl rfl rfl rfl
      | pollTimeout polled =>
          obtain rfl : rest' = rest := leaves
          exact flushed.kept shown' rfl rfl rfl rfl

theorem Flushed.step {event : Event} {state : Except Fault Connection}
    (flushed : Flushed script conn rest)
    (step : unhinderedSystem.step (.ok conn, rest) event = some (state, rest')) :
    ∃ next, state = .ok next ∧ Flushed script next rest' ∧
      Flushes (.ok conn, rest) event (.ok next, rest') := by
  obtain ⟨keeps, taken, leaves⟩ := plays_step step
  obtain ⟨pipe, shown⟩ := id flushed.shown
  obtain ⟨next, rfl, -, later, -, shown'⟩ := next_continues shown taken
  have flushed' := flushed.taken keeps taken leaves ⟨later, shown'⟩
  refine ⟨next, rfl, flushed', ?_⟩
  rintro _ client ⟨⟩ live
  refine ⟨fun _ => asked_of_empty (shown.window client live) (flushed.idle client live).size, ?_⟩
  exact ⟨next, rfl, fun client' live' => (flushed'.idle client' live').size⟩

end Steps

theorem added_flushed (sd : Nat) (memory : Vector Byte TO_SEND_SIZE) (now : Time)
    (script : Script) : Flushed script (echoClientAdd sd memory now) script := by
  refine ⟨⟨_, Shows.initial sd memory now⟩, ?_, ?_⟩
  · rintro client ⟨⟩
    exact ⟨rfl, rfl, rfl⟩
  · have start := Echoes.start script
    exact ⟨start.read, rfl, fun _ => rfl, fun dies => by simp [echoClientAdd] at dies⟩

/-- The same of a state. -/
def FlushedState (script : Script) : Except Fault Connection × Script → Prop
  | (.ok conn, rest) => Flushed script conn rest
  | (.error _, _) => False

theorem flushedState_step (script : Script) (state : Except Fault Connection × Script)
    (event : Event) (next : Except Fault Connection × Script) (flushed : FlushedState script state)
    (step : unhinderedSystem.step state event = some next) :
    Flushes state event next ∧ FlushedState script next := by
  obtain ⟨_ | conn, rest⟩ := state
  · exact flushed.elim
  · obtain ⟨after, rest'⟩ := next
    obtain ⟨next, rfl, flushed', flushes⟩ := Flushed.step flushed step
    exact ⟨flushes, flushed'⟩

end Honest

/-! ## The plain server -/

namespace Plain

/-- The outcome of `aux_unix_recv` in a read-ready callback. -/
def Event.returned : Event → Option RecvAnswer
  | .wcbRecv recv _ => auxUnixRecv recv
  | _ => none

/-- Every `send` accepts everything it is offered, and the idle timer does not expire. -/
def Unhindered (_ : Except Fault Connection) : Event → Prop
  | .wcbRecv recv send =>
      match auxUnixRecv recv with
      | some (.ok bytes) => bytes ≠ [] → send = .ok bytes.length
      | _ => True
  | .wcbTimeout => False
  | .tick _ | .pollRecv | .pollTimeout => True

instance (state : Except Fault Connection) (event : Event) :
    Decidable (Unhindered state event) := by
  cases event with
  | wcbRecv recv send =>
      rw [Unhindered]
      split <;> infer_instance
  | _ =>
      rw [Unhindered]
      infer_instance

/-- `server.c` reading a script. -/
def unhinderedSystem : EventSystem (Except Fault Connection × Script) Event :=
  plays connectionSystem Event.returned Unhindered

/-- The server has given back what it read of the script. -/
structure Flushed (script : Script) (conn : Connection) (rest : Script) : Prop where
  settled : Settled conn
  echoes : Echoes script rest conn.received conn.sent (conn.client ≠ none)

section Steps

variable {conn next : Connection} {client : EchoClient} {script rest rest' : Script}

theorem Flushed.read (flushed : Flushed script conn rest) (live : conn.client = some client)
    {nb : RecvAnswer} {send : SendAnswer} (served : rest.Served nb rest')
    (whole : ∀ bytes, nb = .ok bytes → bytes ≠ [] → send = .ok bytes.length) :
    Echoes script rest' (recvEffect (conn.register Watchers.recvInvoked) client send nb).received
      (recvEffect (conn.register Watchers.recvInvoked) client send nb).sent
      ((recvEffect (conn.register Watchers.recvInvoked) client send nb).client ≠ none) := by
  have lives : conn.client ≠ none := by simp [live]
  have echoes := flushed.echoes
  cases served with
  | blocked => exact echoes
  | eof read ends => exact echoes.ended lives read (by simp [ends]) (fun later => later rfl)
  | error read ends => exact echoes.ended lives read (by simp [ends]) (fun later => later rfl)
  | @bytes bytes _ nonempty split ending =>
      have continued := echoes.bytes lives split ending
      rw [whole bytes rfl nonempty, recvEffect, if_neg nonempty, sendEffect]
      simpa [Connection.echoed, Connection.register] using continued

theorem Flushed.step {event : Event} {state : Except Fault Connection}
    (flushed : Flushed script conn rest)
    (step : unhinderedSystem.step (.ok conn, rest) event = some (state, rest')) :
    ∃ next, state = .ok next ∧ Flushed script next rest' := by
  obtain ⟨keeps, taken, leaves⟩ := plays_step step
  obtain ⟨next, rfl, settled, ⟨client, live, fires⟩ | ⟨-, elapsed, rfl, rfl⟩⟩ :=
    next_cases flushed.settled taken
  · refine ⟨next, rfl, settled, ?_⟩
    cases fires with
    | wcbTimeout => exact keeps.elim
    | @wcbRecv recv nb send pending returned contract =>
        apply flushed.read live (leaves.served returned)
        rintro bytes rfl nonempty
        simp only [Unhindered, returned] at keeps
        exact keeps nonempty
    | tick elapsed =>
        obtain rfl : rest' = rest := leaves
        exact flushed.echoes
    | pollRecv polled =>
        obtain rfl : rest' = rest := leaves
        exact flushed.echoes
    | pollTimeout polled =>
        obtain rfl : rest' = rest := leaves
        exact flushed.echoes
  · obtain rfl : rest' = rest := leaves
    exact ⟨_, rfl, settled, flushed.echoes⟩

end Steps

theorem added_flushed (sd : Nat) (now : Time) (script : Script) :
    Flushed script (echoClientAdd sd now) script := by
  refine ⟨settled_echoClientAdd sd now, ?_⟩
  have start := Echoes.start script
  exact ⟨start.read, rfl, fun _ => rfl, fun dies => by simp [echoClientAdd] at dies⟩

/-- The same of a state. -/
def FlushedState (script : Script) : Except Fault Connection × Script → Prop
  | (.ok conn, rest) => Flushed script conn rest
  | (.error _, _) => False

theorem flushedState_preserved (script : Script) :
    unhinderedSystem.Preserves (FlushedState script) := by
  rintro ⟨_ | conn, rest⟩ event ⟨after, rest'⟩ flushed step
  · exact flushed.elim
  · obtain ⟨next, rfl, flushed'⟩ := Flushed.step flushed step
    exact flushed'

end Plain

/-! ## Both against one script -/

/-- Along every run of the buffered server against the script a callback asks for at least 32 bytes
and leaves nothing to send; and when both servers, each with its own segmentation, have read the
whole script, they have sent the same bytes and both or neither have deleted the client. -/
theorem buffered_refines_plain {script rest rest' : Script} {sd sd' : Nat}
    {memory : Vector Byte Honest.TO_SEND_SIZE} {now now' : Time} {events : List Honest.Event}
    {events' : List Plain.Event} {state : Except Honest.Fault Honest.Connection}
    {state' : Except Plain.Fault Plain.Connection}
    (buffered : Honest.unhinderedSystem.run (.ok (Honest.echoClientAdd sd memory now), script)
      events = some (state, rest))
    (plain : Plain.unhinderedSystem.run (.ok (Plain.echoClientAdd sd' now'), script) events' =
      some (state', rest')) :
    Honest.unhinderedSystem.Along Honest.Flushes (.ok (Honest.echoClientAdd sd memory now), script)
        events ∧
      (rest.Consumed → rest'.Consumed →
        ∃ conn conn', state = .ok conn ∧ state' = .ok conn' ∧ conn.sent = conn'.sent ∧
          (conn.client = none ↔ conn'.client = none)) := by
  have start : Honest.FlushedState script (.ok (Honest.echoClientAdd sd memory now), script) :=
    Honest.added_flushed sd memory now script
  have start' : Plain.FlushedState script (.ok (Plain.echoClientAdd sd' now'), script) :=
    Plain.added_flushed sd' now' script
  have preserved : Honest.unhinderedSystem.Preserves (Honest.FlushedState script) :=
    fun state event next flushed step =>
      (Honest.flushedState_step script state event next flushed step).2
  constructor
  · apply preserved.along _ start
    intro before event after flushed step
    exact (Honest.flushedState_step script before event after flushed step).1
  · intro consumed consumed'
    have flushed := preserved.run start buffered
    have flushed' := (Plain.flushedState_preserved script).run start' plain
    cases state with
    | error fault => exact flushed.elim
    | ok conn =>
        cases state' with
        | error fault => exact flushed'.elim
        | ok conn' =>
            obtain ⟨same, together⟩ := flushed.echoes.agree flushed'.echoes consumed consumed'
            exact ⟨conn, conn', rfl, rfl, same, not_iff_not.mp together⟩

/-! ## One byte through both -/

/-- A peer that sends one byte. -/
def oneByte : Script := { bytes := [104], ending := none }

/-- The buffered connection after it received the byte and sent it back. -/
def bufferedEcho (memory : Vector Byte Honest.TO_SEND_SIZE) : Honest.Connection :=
  Honest.recvEffect (Honest.Program.serverHonest.doneEffect (Honest.freshClient 5 memory))
    ((Honest.polledConnection 5 memory 0).register Honest.Watchers.recvInvoked)
    (Honest.freshClient 5 memory) (.ok 1) (.ok [104])

theorem run_bufferedEcho (memory : Vector Byte Honest.TO_SEND_SIZE) :
    Honest.unhinderedSystem.run (.ok (Honest.echoClientAdd 5 memory 0), oneByte)
        [.pollRecv, .wcbRecv [.ok [104]] (.ok 1)] =
      some (.ok (bufferedEcho memory), { oneByte with bytes := [] }) := by
  have live : (Honest.polledConnection 5 memory 0).client =
      some (Honest.freshClient 5 memory) := rfl
  have bytes_le : ([104] : List Byte).length ≤ (Honest.freshClient 5 memory).asked := by
    rw [Honest.freshClient_asked]
    simp [Honest.TO_SEND_SIZE]
  have contract : ((Honest.polledConnection 5 memory 0).register
      Honest.Watchers.recvInvoked).RecvContract (.ok [104]) (.ok 1) :=
    ⟨bytes_le, by simp⟩
  have fires : Honest.Fires .serverHonest (Honest.polledConnection 5 memory 0)
      (Honest.freshClient 5 memory) (.wcbRecv [.ok [104]] (.ok 1)) (bufferedEcho memory) :=
    .wcbRecv rfl rfl contract
  have taken := fires.next_eq live (Honest.freshClient_window 5 memory)
  have polled : Honest.unhinderedSystem.step (.ok (Honest.echoClientAdd 5 memory 0), oneByte)
      .pollRecv = some (.ok (Honest.polledConnection 5 memory 0), oneByte) := rfl
  have keeps : Honest.Unhindered (.ok (Honest.polledConnection 5 memory 0))
      (.wcbRecv [.ok [104]] (.ok 1)) := by
    rintro client ⟨⟩ -
    rfl
  have read : Honest.unhinderedSystem.step (.ok (Honest.polledConnection 5 memory 0), oneByte)
      (.wcbRecv [.ok [104]] (.ok 1)) =
        some (.ok (bufferedEcho memory), { oneByte with bytes := [] }) :=
    plays_read keeps rfl (by decide) taken
  rw [run_cons, polled, Option.bind_some, run_cons, read]
  rfl

/-- The plain connection after it received the byte and sent it back. -/
def plainEcho : Plain.Connection :=
  { Plain.echoClientAdd 7 0 with received := [104], sent := [104] }

theorem buffered_refines_plain_oneByte :
    Honest.unhinderedSystem.Along Honest.Flushes
        (.ok (Honest.echoClientAdd 5 (Vector.replicate Honest.TO_SEND_SIZE 0) 0), oneByte)
        [.pollRecv, .wcbRecv [.ok [104]] (.ok 1)] ∧
      (Script.Consumed { oneByte with bytes := [] } → Script.Consumed { oneByte with bytes := [] } →
        ∃ conn conn',
          (.ok (bufferedEcho (Vector.replicate Honest.TO_SEND_SIZE 0)) :
            Except Honest.Fault Honest.Connection) = .ok conn ∧
          (.ok plainEcho : Except Plain.Fault Plain.Connection) = .ok conn' ∧
          conn.sent = conn'.sent ∧ (conn.client = none ↔ conn'.client = none)) := by
  have plain : Plain.unhinderedSystem.run (.ok (Plain.echoClientAdd 7 0), oneByte)
      [.pollRecv, .wcbRecv [.error .eintr, .ok [104]] (.ok 1)] =
        some (.ok plainEcho, { oneByte with bytes := [] }) := by decide
  exact buffered_refines_plain (run_bufferedEcho (Vector.replicate Honest.TO_SEND_SIZE 0)) plain

end Mrps
