import Mrps.Honest.Peer
import Mrps.Tester.Sends

/-!
# The tester against the echo server

One handler of the tester and one connection of `server-honest.c`, joined by two channels that keep
the order of bytes and may hold them back and cut them anywhere.  A byte that the handler placed is
in one of six places until the handler has read it: the channel to the server, the server's socket,
the server's window, the channel back, the handler's socket or what the handler has read.
-/

namespace Mrps.EndToEnd

open EventSystem Blocks Tester
open Honest (Session Shows)

/-- How one of the two programs goes wrong. -/
inductive Fault where
  | tester (fault : Tester.Fault)
  | server (fault : Honest.Fault)
  deriving DecidableEq, Repr

/-- The two ends and the channels between them. -/
structure Joint where
  tester : Activity
  toServer : List Byte
  server : Session
  toTester : List Byte
  deriving DecidableEq, Repr

/-- What can happen at the two ends and on the channels. -/
inductive JointEvent where
  | tester (event : ActivityEvent)
  | deliverToServer (count : Nat)
  | server (event : Honest.Event)
  | deliverToTester (count : Nat)
  deriving DecidableEq, Repr

namespace Joint

/-- The tester's end after a step; what it placed goes on the channel. -/
def withTester (joint : Joint) : Except Tester.Fault Activity → Except Fault Joint
  | .ok tester =>
      .ok { joint with
        tester
        toServer := joint.toServer ++ tester.placed.drop joint.tester.placed.length }
  | .error fault => .error (.tester fault)

/-- The server's end after a step; what it sent goes on the channel. -/
def withServer (joint : Joint) : Except Honest.Fault Session → Except Fault Joint
  | .ok server =>
      .ok { joint with
        server
        toTester := joint.toTester ++ server.conn.sent.drop joint.server.conn.sent.length }
  | .error fault => .error (.server fault)

/-- One step.  Bytes arrive at either end only from its channel. -/
def next (joint : Joint) : JointEvent → Option (Except Fault Joint)
  | .tester (.arrive _) => none
  | .tester event => (joint.tester.next event).map joint.withTester
  | .deliverToServer count =>
      (joint.server.next .serverHonest (.arrive (joint.toServer.take count))).map
        ({ joint with toServer := joint.toServer.drop count } : Joint).withServer
  | .server event => (joint.server.next .serverHonest (.server event)).map joint.withServer
  | .deliverToTester count =>
      (joint.tester.next (.arrive (joint.toTester.take count))).map
        ({ joint with toTester := joint.toTester.drop count } : Joint).withTester

/-- A constructed handler and a connection that was added, with nothing in between. -/
def initial (serviceId : Nat) (send read : Vector Byte 33) (sd : Nat)
    (memory : Vector Byte Honest.TO_SEND_SIZE) (now : Time) : Joint :=
  { tester := .constructed serviceId send read now
    toServer := []
    server := .start sd memory now
    toTester := [] }

end Joint

/-- Every `async_write` puts its bytes on the channel whole. -/
def Assumed : JointEvent → Prop
  | .tester event => Contiguous event
  | _ => True

instance : ∀ event, Decidable (Assumed event)
  | .tester event => inferInstanceAs (Decidable (Contiguous event))
  | .deliverToServer _ | .server _ | .deliverToTester _ => isTrue trivial

/-! ## The invariant -/

/-- Both ends are in order and no byte is lost between them. -/
structure Joint.Sound (joint : Joint) : Prop where
  sending : Sending joint.tester
  order : joint.tester.handler.InOrder
  replied : Replied joint.tester
  shown : ∃ pipe, Shows joint.server.conn pipe
  running : joint.server.shut = false
  upstream : joint.server.conn.received ++ joint.server.unread ++ joint.toServer =
    joint.tester.placed
  downstream : joint.tester.consumed ++ joint.tester.inbox ++ joint.toTester =
    joint.server.conn.sent

namespace Joint.Sound

variable {joint : Joint}

theorem echoed (sound : joint.Sound) :
    joint.tester.consumed ++ joint.tester.inbox <+: joint.tester.placed := by
  obtain ⟨pipe, shown⟩ := sound.shown
  have back : joint.tester.consumed ++ joint.tester.inbox <+: joint.server.conn.sent :=
    sound.downstream ▸ List.prefix_append _ _
  have echo : joint.server.conn.sent <+: joint.server.conn.received := by
    rw [shown.sent, shown.received]
    exact pipe.sent_prefix
  have forth : joint.server.conn.received <+: joint.tester.placed := by
    rw [← sound.upstream, List.append_assoc]
    exact List.prefix_append _ _
  exact (back.trans echo).trans forth

theorem reply (sound : joint.Sound) (running : joint.tester.handler.errored = false)
    (enough : 32 ≤ joint.tester.inbox.length) :
    joint.tester.inbox.take 32 = joint.tester.handler.block ∧
      joint.tester.handler.popped.length < joint.tester.handler.pushed.length :=
  sound.sending.reply sound.replied running sound.echoed enough

theorem answers (sound : joint.Sound) {event : ActivityEvent}
    {result : Except Tester.Fault Activity} (moves : Moves joint.tester event result) :
    Answers (.ok joint.tester) event result := by
  cases moves with
  | read _ _ enough => exact fun running _ => (sound.reply running enough).2
  | _ => trivial

theorem tester (sound : joint.Sound) {event : ActivityEvent}
    {result : Except Tester.Fault Activity} (inside : ∀ bytes, event ≠ .arrive bytes)
    (step : joint.tester.next event = some result) (contiguous : Contiguous event) :
    ∃ after, joint.withTester result = .ok after ∧ after.Sound := by
  have moves := moves_of_next step
  rcases orderly_next sound.order moves with ⟨orderly, -⟩ | ⟨-, unanswered⟩
  · cases result with
    | error fault => exact orderly.elim
    | ok tester =>
        obtain ⟨placed, taken⟩ := moves.flow inside
        refine ⟨_, rfl, ?_⟩
        constructor
        · exact sound.sending.next moves contiguous
        · exact orderly
        · exact sound.replied.next moves
        · exact sound.shown
        · exact sound.running
        · obtain ⟨more, placed_eq⟩ := placed
          change _ ++ (joint.toServer ++ tester.placed.drop joint.tester.placed.length) =
            tester.placed
          rw [← placed_eq, List.drop_left, ← List.append_assoc, sound.upstream]
        · change tester.consumed ++ tester.inbox ++ _ = _
          rw [taken]
          exact sound.downstream
  · exact (unanswered (sound.answers moves)).elim

theorem server (sound : joint.Sound) {event : Honest.Event} {result : Except Honest.Fault Session}
    (step : joint.server.next .serverHonest (.server event) = some result) :
    ∃ after, joint.withServer result = .ok after ∧ after.Sound := by
  obtain ⟨pipe, shown⟩ := sound.shown
  obtain ⟨server, pipe', rfl, shown', shut, ⟨more, sent⟩, received⟩ :=
    Honest.server_flow shown step
  refine ⟨_, rfl, ?_⟩
  constructor
  · exact sound.sending
  · exact sound.order
  · exact sound.replied
  · exact ⟨pipe', shown'⟩
  · exact shut.trans sound.running
  · change server.conn.received ++ server.unread ++ _ = _
    rw [received]
    exact sound.upstream
  · change _ ++ (joint.toTester ++ server.conn.sent.drop joint.server.conn.sent.length) =
      server.conn.sent
    rw [← sent, List.drop_left, ← List.append_assoc, sound.downstream]

theorem deliverToServer (sound : joint.Sound) (count : Nat) :
    Joint.Sound { joint with
      toServer := joint.toServer.drop count
      server := { joint.server with
        unread := joint.server.unread ++ joint.toServer.take count } } := by
  refine { sound with upstream := ?_ }
  have split := List.take_append_drop count joint.toServer
  change joint.server.conn.received ++ (joint.server.unread ++ joint.toServer.take count) ++
    joint.toServer.drop count = _
  rw [← sound.upstream]
  simp only [List.append_assoc, split]

theorem deliverToTester (sound : joint.Sound) (count : Nat) :
    Joint.Sound { joint with
      toTester := joint.toTester.drop count
      tester := { joint.tester with
        inbox := joint.tester.inbox ++ joint.toTester.take count } } := by
  have arrives : Moves joint.tester (.arrive (joint.toTester.take count)) (.ok { joint.tester with
      inbox := joint.tester.inbox ++ joint.toTester.take count }) := .arrive
  refine { sound with
    sending := sound.sending.next arrives trivial
    order := sound.order
    replied := sound.replied
    downstream := ?_ }
  have split := List.take_append_drop count joint.toTester
  change joint.tester.consumed ++ (joint.tester.inbox ++ joint.toTester.take count) ++
    joint.toTester.drop count = _
  rw [← sound.downstream]
  simp only [List.append_assoc, split]

theorem initial (serviceId : Nat) (send read : Vector Byte 33) (sd : Nat)
    (memory : Vector Byte Honest.TO_SEND_SIZE) (now : Time) :
    (Joint.initial serviceId send read sd memory now).Sound where
  sending := constructed_sending serviceId send read now
  order := constructed_inOrder serviceId send read now
  replied := constructed_replied serviceId send read now
  shown := ⟨EchoPipe.empty, Shows.initial sd memory now⟩
  running := rfl
  upstream := rfl
  downstream := rfl

theorem next (sound : joint.Sound) {event : JointEvent} {state : Except Fault Joint}
    (step : joint.next event = some state) (assumed : Assumed event) :
    ∃ after, state = .ok after ∧ after.Sound := by
  cases event with
  | tester event =>
      cases event with
      | arrive bytes => simp [Joint.next] at step
      | _ =>
          obtain ⟨result, taken, rfl⟩ := Option.map_eq_some_iff.mp step
          exact sound.tester (by simp) taken assumed
  | deliverToServer count =>
      obtain ⟨result, taken, rfl⟩ := Option.map_eq_some_iff.mp step
      have arrived : joint.server.next .serverHonest (.arrive (joint.toServer.take count)) =
          some (.ok { joint.server with
            unread := joint.server.unread ++ joint.toServer.take count }) :=
        if_neg (by simp [sound.running])
      rw [arrived] at taken
      obtain rfl := Option.some.inj taken
      refine ⟨_, rfl, ?_⟩
      simpa using sound.deliverToServer count
  | server event =>
      obtain ⟨result, taken, rfl⟩ := Option.map_eq_some_iff.mp step
      exact sound.server taken
  | deliverToTester count =>
      obtain rfl := Option.some.inj step
      refine ⟨_, rfl, ?_⟩
      simpa using sound.deliverToTester count

end Joint.Sound

/-! ## Runs -/

/-- What holds of the two ends in every state. -/
structure Joint.Conserved (joint : Joint) : Prop where
  /-- While the server's client lives, the bytes read, those on the way back, the window and those
  on the way there are the bytes placed. -/
  bytes : ∀ client, joint.server.conn.client = some client →
    joint.tester.consumed ++ (joint.tester.inbox ++ joint.toTester) ++ client.pending ++
      (joint.server.unread ++ joint.toServer) = joint.tester.placed
  /-- The bytes placed, with the writes that are not placed yet, are the messages sent. -/
  messages : joint.tester.offered =
    repeated joint.tester.handler.block joint.tester.handler.pushed.length
  timers : joint.tester.handler.tqueue.length + joint.tester.handler.popped.length =
    joint.tester.handler.pushed.length
  completed : joint.tester.handler.errored = false →
    joint.tester.consumed.length = joint.tester.handler.popped.length * 32
  /-- A reply that a read hands to `compare_staff` is the message and finds a timer. -/
  reply : joint.tester.handler.errored = false → 32 ≤ joint.tester.inbox.length →
    (joint.tester.receive 32).handler.readBuf.take 32 = joint.tester.handler.sendBuf.take 32 ∧
      (joint.tester.receive 32).handler.Accepts false 32 ∧ joint.tester.handler.tqueue ≠ []
  /-- The samples are measured from the first timers pushed. -/
  samples : joint.tester.handler.samples.map Prod.fst =
    joint.tester.handler.pushed.take joint.tester.handler.samples.length

theorem Joint.Sound.accepts {joint : Joint} (sound : joint.Sound)
    (running : joint.tester.handler.errored = false) (enough : 32 ≤ joint.tester.inbox.length) :
    (joint.tester.receive 32).handler.readBuf.take 32 = joint.tester.handler.sendBuf.take 32 ∧
      (joint.tester.receive 32).handler.Accepts false 32 := by
  have same : (joint.tester.receive 32).handler.readBuf.take 32 =
      joint.tester.handler.sendBuf.take 32 := by
    rw [receive_readBuf enough]
    exact (sound.reply running enough).1
  refine ⟨same, running, rfl, rfl, ?_⟩
  have compared := strncmp_take joint.tester.handler.sendBuf
    (joint.tester.receive 32).handler.readBuf 32
  rw [same, strncmp_take, strncmp_self] at compared
  exact compared.symm

theorem Joint.Sound.conserved {joint : Joint} (sound : joint.Sound) : joint.Conserved := by
  obtain ⟨pipe, shown⟩ := sound.shown
  have queue := sound.order.queue
  have lengths := congrArg List.length queue
  rw [List.length_append] at lengths
  constructor
  · intro client live
    have whole : joint.server.conn.sent ++ client.pending = joint.server.conn.received := by
      rw [shown.sent, shown.received, shown.pending client live]
      exact pipe.sent_append_pending
    simp only [← List.append_assoc]
    rw [sound.downstream, whole]
    exact sound.upstream
  · exact sound.sending.offered
  · omega
  · exact sound.replied
  · intro running enough
    obtain ⟨same, accepts⟩ := sound.accepts running enough
    refine ⟨same, accepts, fun empty => ?_⟩
    exact sound.order.tqueue_eq_nil_iff.mp empty (sound.reply running enough).2
  · have front := sound.order.samples.trans ⟨_, queue⟩
    have taken := List.prefix_iff_eq_take.mp front
    rwa [List.length_map] at taken

/-- The invariant along a run. -/
def Safe : Except Fault Joint → Prop
  | .ok joint => joint.Sound
  | .error _ => False

end Mrps.EndToEnd
