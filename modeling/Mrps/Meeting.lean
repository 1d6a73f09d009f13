import Mrps.EchoService
import Mrps.Tester.Sends

/-!
# The tester against any faithful server

One handler of the tester and a server of which nothing is known but that it is a faithful echo
service, joined by two channels that keep the order of bytes and may hold them back and cut them
anywhere.  Whatever such a server does inside, the tester never finds a wrong reply.
-/

namespace Mrps

open EventSystem Blocks Tester

/-- The handler, the server and the channels between them. -/
structure Meeting (service : EchoService Byte) where
  tester : Activity
  /-- Bytes placed by the handler that the server has not taken in. -/
  toServer : List Byte
  server : service.State
  /-- Bytes given out by the server that have not arrived at the handler. -/
  toTester : List Byte

/-- What can happen at the two ends and on the way back. -/
inductive MeetingEvent (service : EchoService Byte) where
  | tester (event : ActivityEvent)
  | server (event : service.Event)
  | deliver (count : Nat)

namespace Meeting

variable {service : EchoService Byte}

/-- The tester's end after a step; what it placed goes on the channel. -/
def withTester (meeting : Meeting service) (tester : Activity) : Meeting service :=
  { meeting with
    tester
    toServer := meeting.toServer ++ tester.placed.drop meeting.tester.placed.length }

/-- What the server takes in with a step. -/
def taken (meeting : Meeting service) (server : service.State) : List Byte :=
  (service.received server).drop (service.received meeting.server).length

/-- The server's end after a step; what it gave out goes on the channel. -/
def withServer (meeting : Meeting service) (server : service.State) : Meeting service :=
  { meeting with
    server
    toServer := meeting.toServer.drop (meeting.taken server).length
    toTester := meeting.toTester ++
      (service.sent server).drop (service.sent meeting.server).length }

/-- One step.  Bytes arrive at either end only from its channel. -/
def next (meeting : Meeting service) :
    MeetingEvent service → Option (Except Tester.Fault (Meeting service))
  | .tester (.arrive _) => none
  | .tester event => (meeting.tester.next event).map (Except.map meeting.withTester)
  | .server event =>
      (service.system.step meeting.server event).bind fun server =>
        if meeting.taken server <+: meeting.toServer then some (.ok (meeting.withServer server))
        else none
  | .deliver count =>
      (meeting.tester.next (.arrive (meeting.toTester.take count))).map
        (Except.map fun tester =>
          { meeting with tester, toTester := meeting.toTester.drop count })

/-- A constructed handler and a server in its first state, with nothing in between. -/
def initial (service : EchoService Byte) (serviceId : Nat) (send read : Vector Byte 33)
    (now : Time) : Meeting service :=
  { tester := .constructed serviceId send read now
    toServer := []
    server := service.initial
    toTester := [] }

end Meeting

/-- The runs of a meeting; a fault of the tester ends the run. -/
def meetings (service : EchoService Byte) :
    EventSystem (Except Tester.Fault (Meeting service)) (MeetingEvent service) where
  step state event :=
    match state with
    | .ok meeting => meeting.next event
    | .error _ => none

/-- Every `async_write` puts its bytes on the channel whole, and the server's environment does what
the server relies on. -/
def MeetingAssumed {service : EchoService Byte} (state : Except Tester.Fault (Meeting service))
    (event : MeetingEvent service) (next : Except Tester.Fault (Meeting service)) : Prop :=
  match event with
  | .tester event => Contiguous event
  | .server event => ∀ before after, state = .ok before → next = .ok after →
      service.Allowed before.server event after.server
  | .deliver _ => True

/-- A server that relies on nothing only leaves the writes of the tester to be assumed. -/
theorem along_assumed {service : EchoService Byte}
    (relies : ∀ state event next, service.Allowed state event next)
    {initial : Except Tester.Fault (Meeting service)} {events : List (MeetingEvent service)}
    (contiguous : ∀ event, .tester event ∈ events → Contiguous event) :
    (meetings service).Along MeetingAssumed initial events := by
  rw [along_iff]
  rintro front event back state next split - -
  have member : event ∈ events := by simp [split]
  cases event with
  | tester event => exact contiguous event member
  | server event => exact fun _ _ _ _ => relies _ _ _
  | deliver count => trivial

/-! ## The invariant -/

/-- Both ends are in order and no byte is lost between them. -/
structure Meeting.Sound {service : EchoService Byte}
    (related : service.State → EchoPipe Byte → Prop) (meeting : Meeting service) : Prop where
  sending : Sending meeting.tester
  order : meeting.tester.handler.InOrder
  replied : Replied meeting.tester
  shown : ∃ pipe, related meeting.server pipe
  upstream : service.received meeting.server ++ meeting.toServer = meeting.tester.placed
  downstream : meeting.tester.consumed ++ meeting.tester.inbox ++ meeting.toTester =
    service.sent meeting.server

namespace Meeting.Sound

variable {service : EchoService Byte} {related : service.State → EchoPipe Byte → Prop}
  {meeting : Meeting service}

theorem kept (sound : meeting.Sound related) (refines : service.Refines related) :
    service.sent meeting.server <+: service.received meeting.server := by
  obtain ⟨pipe, shown⟩ := sound.shown
  rw [refines.sent _ _ shown, refines.received _ _ shown]
  exact pipe.sent_prefix

theorem echoed (sound : meeting.Sound related) (refines : service.Refines related) :
    meeting.tester.consumed ++ meeting.tester.inbox <+: meeting.tester.placed := by
  have back : meeting.tester.consumed ++ meeting.tester.inbox <+: service.sent meeting.server :=
    sound.downstream ▸ List.prefix_append _ _
  have forth : service.received meeting.server <+: meeting.tester.placed :=
    sound.upstream ▸ List.prefix_append _ _
  exact (back.trans (sound.kept refines)).trans forth

theorem reply (sound : meeting.Sound related) (refines : service.Refines related)
    (running : meeting.tester.handler.errored = false)
    (enough : 32 ≤ meeting.tester.inbox.length) :
    meeting.tester.inbox.take 32 = meeting.tester.handler.block ∧
      meeting.tester.handler.popped.length < meeting.tester.handler.pushed.length :=
  sound.sending.reply sound.replied running (sound.echoed refines) enough

theorem tester (sound : meeting.Sound related) (refines : service.Refines related)
    {event : ActivityEvent} {result : Except Tester.Fault Activity}
    (inside : ∀ bytes, event ≠ .arrive bytes) (step : meeting.tester.next event = some result)
    (contiguous : Contiguous event) :
    ∃ tester, result = .ok tester ∧ (meeting.withTester tester).Sound related := by
  have moves := moves_of_next step
  have answers : Answers (.ok meeting.tester) event result := by
    cases moves with
    | read _ _ enough => exact fun running _ => (sound.reply refines running enough).2
    | _ => trivial
  rcases orderly_next sound.order moves with ⟨orderly, -⟩ | ⟨-, unanswered⟩
  · cases result with
    | error fault => exact orderly.elim
    | ok tester =>
        obtain ⟨⟨more, placed_eq⟩, taken⟩ := moves.flow inside
        refine ⟨tester, rfl, sound.sending.next moves contiguous, orderly, sound.replied.next moves,
          sound.shown, ?_, ?_⟩
        · change service.received meeting.server ++
            (meeting.toServer ++ tester.placed.drop meeting.tester.placed.length) = tester.placed
          rw [← placed_eq, List.drop_left, ← List.append_assoc, sound.upstream]
        · change tester.consumed ++ tester.inbox ++ _ = _
          rw [taken]
          exact sound.downstream
  · exact (unanswered answers).elim

theorem server (sound : meeting.Sound related) (refines : service.Refines related)
    {event : service.Event} {server : service.State}
    (step : service.system.step meeting.server event = some server)
    (allowed : service.Allowed meeting.server event server)
    (arrived : meeting.taken server <+: meeting.toServer) :
    (meeting.withServer server).Sound related := by
  obtain ⟨pipe, shown⟩ := sound.shown
  obtain ⟨events, later, execution, shown'⟩ :=
    refines.step _ _ _ _ shown step allowed
  have grown : service.received meeting.server <+: service.received server := by
    rw [refines.received _ _ shown, refines.received _ _ shown']
    exact EchoPipe.run_received_prefix execution
  have given : service.sent meeting.server <+: service.sent server := by
    rw [refines.sent _ _ shown, refines.sent _ _ shown']
    exact EchoPipe.run_sent_prefix execution
  refine ⟨sound.sending, sound.order, sound.replied, ⟨later, shown'⟩, ?_, ?_⟩
  · obtain ⟨more, received_eq⟩ := grown
    obtain ⟨rest, rest_eq⟩ := arrived
    have taken_eq : meeting.taken server = more := by
      rw [taken, ← received_eq, List.drop_left]
    change service.received server ++ meeting.toServer.drop (meeting.taken server).length =
      meeting.tester.placed
    rw [← received_eq, ← rest_eq, List.drop_left, ← sound.upstream, ← rest_eq, taken_eq,
      List.append_assoc]
  · obtain ⟨more, sent_eq⟩ := given
    change meeting.tester.consumed ++ meeting.tester.inbox ++ (meeting.toTester ++
      (service.sent server).drop (service.sent meeting.server).length) = service.sent server
    rw [← sent_eq, List.drop_left, ← List.append_assoc, sound.downstream]

theorem deliver (sound : meeting.Sound related) (count : Nat) :
    Meeting.Sound related { meeting with
      toTester := meeting.toTester.drop count
      tester := { meeting.tester with
        inbox := meeting.tester.inbox ++ meeting.toTester.take count } } := by
  have arrives : Moves meeting.tester (.arrive (meeting.toTester.take count))
      (.ok { meeting.tester with
        inbox := meeting.tester.inbox ++ meeting.toTester.take count }) := .arrive
  refine { sound with
    sending := sound.sending.next arrives trivial
    order := sound.order
    replied := sound.replied
    downstream := ?_ }
  have split := List.take_append_drop count meeting.toTester
  change meeting.tester.consumed ++ (meeting.tester.inbox ++ meeting.toTester.take count) ++
    meeting.toTester.drop count = _
  rw [← sound.downstream]
  simp only [List.append_assoc, split]

theorem initial (refines : service.Refines related) (serviceId : Nat) (send read : Vector Byte 33)
    (now : Time) : (Meeting.initial service serviceId send read now).Sound related where
  sending := constructed_sending serviceId send read now
  order := constructed_inOrder serviceId send read now
  replied := constructed_replied serviceId send read now
  shown := ⟨EchoPipe.empty, refines.start⟩
  upstream := by
    rw [Meeting.initial, refines.received _ _ refines.start]
    rfl
  downstream := by
    rw [Meeting.initial, refines.sent _ _ refines.start]
    rfl

theorem next (sound : meeting.Sound related) (refines : service.Refines related)
    {event : MeetingEvent service} {state : Except Tester.Fault (Meeting service)}
    (step : meeting.next event = some state) (assumed : MeetingAssumed (.ok meeting) event state) :
    ∃ after, state = .ok after ∧ after.Sound related := by
  cases event with
  | tester event =>
      cases event with
      | arrive bytes => simp [Meeting.next] at step
      | _ =>
          obtain ⟨result, taken, rfl⟩ := Option.map_eq_some_iff.mp step
          obtain ⟨tester, rfl, sound'⟩ := sound.tester refines (by simp) taken assumed
          exact ⟨_, rfl, sound'⟩
  | server event =>
      obtain ⟨server, server_step, guarded⟩ := Option.bind_eq_some_iff.mp step
      rw [Option.ite_none_right_eq_some] at guarded
      obtain ⟨arrived, stepped⟩ := guarded
      obtain rfl := Option.some.inj stepped
      have allowed : service.Allowed meeting.server event server := assumed _ _ rfl rfl
      exact ⟨_, rfl, sound.server refines server_step allowed arrived⟩
  | deliver count =>
      obtain rfl := Option.some.inj step
      exact ⟨_, rfl, sound.deliver count⟩

end Meeting.Sound

/-! ## Runs -/

/-- What holds of the two ends in every state. -/
structure Meeting.Conserved {service : EchoService Byte} (meeting : Meeting service) : Prop where
  /-- The server's output is a front part of what it took in, and the bytes read, those on the way
  back, those the server owes and those on the way there are the bytes placed. -/
  echoed : service.sent meeting.server <+: service.received meeting.server
  bytes : meeting.tester.consumed ++ (meeting.tester.inbox ++ meeting.toTester) ++
    (service.received meeting.server).drop (service.sent meeting.server).length ++
      meeting.toServer = meeting.tester.placed
  /-- The bytes placed, with the writes that are not placed yet, are the messages sent. -/
  messages : meeting.tester.offered =
    repeated meeting.tester.handler.block meeting.tester.handler.pushed.length
  completed : meeting.tester.handler.errored = false →
    meeting.tester.consumed.length = meeting.tester.handler.popped.length * 32
  /-- A reply that a read hands to `compare_staff` is the message and finds a timer. -/
  reply : meeting.tester.handler.errored = false → 32 ≤ meeting.tester.inbox.length →
    (meeting.tester.receive 32).handler.Accepts false 32 ∧ meeting.tester.handler.tqueue ≠ []

theorem Meeting.Sound.conserved {service : EchoService Byte}
    {related : service.State → EchoPipe Byte → Prop} {meeting : Meeting service}
    (sound : meeting.Sound related) (refines : service.Refines related) : meeting.Conserved where
  echoed := sound.kept refines
  bytes := by
    obtain ⟨owed, owed_eq⟩ := sound.kept refines
    rw [← owed_eq, List.drop_left, ← List.append_assoc meeting.tester.consumed, sound.downstream,
      owed_eq]
    exact sound.upstream
  messages := sound.sending.offered
  completed := sound.replied
  reply := by
    intro running enough
    obtain ⟨same, waits⟩ := sound.reply refines running enough
    refine ⟨⟨running, rfl, rfl, ?_⟩, fun empty => sound.order.tqueue_eq_nil_iff.mp empty waits⟩
    have compared := strncmp_take meeting.tester.handler.sendBuf
      (meeting.tester.receive 32).handler.readBuf 32
    rw [receive_readBuf enough, same, ConnectionHandler.block, strncmp_take,
      strncmp_self] at compared
    exact compared.symm

/-- The invariant along a run. -/
def Meeting.Safe {service : EchoService Byte} (related : service.State → EchoPipe Byte → Prop) :
    Except Tester.Fault (Meeting service) → Prop
  | .ok meeting => meeting.Sound related
  | .error _ => False

/-- Whatever a faithful server does: the tester does not fault, no byte is lost, duplicated or
reordered between the two, and every reply is accepted. -/
theorem meeting_conserved {service : EchoService Byte} (faithful : service.Faithful)
    {serviceId : Nat} {send read : Vector Byte 33} {now : Time}
    {events : List (MeetingEvent service)} {state : Except Tester.Fault (Meeting service)}
    (assumed : (meetings service).Along MeetingAssumed
      (.ok (.initial service serviceId send read now)) events)
    (execution : (meetings service).run (.ok (.initial service serviceId send read now)) events =
      some state) :
    ∃ meeting, state = .ok meeting ∧ meeting.Conserved := by
  obtain ⟨related, refines⟩ := faithful
  have kept : ∀ state event next, Meeting.Safe related state →
      (meetings service).step state event = some next → MeetingAssumed state event next →
        Meeting.Safe related next := by
    rintro (fault | meeting) event next safe step assumed
    · exact safe.elim
    · obtain ⟨after, rfl, sound⟩ := Meeting.Sound.next safe refines step assumed
      exact sound
  have start : Meeting.Safe related (.ok (.initial service serviceId send read now)) :=
    Meeting.Sound.initial refines serviceId send read now
  have safe := assumed.invariant kept start execution
  cases state with
  | error fault => exact safe.elim
  | ok meeting => exact ⟨meeting, rfl, Meeting.Sound.conserved safe refines⟩

end Mrps
