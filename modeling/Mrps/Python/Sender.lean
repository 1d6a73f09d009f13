import Mrps.Dialogue
import Mrps.EchoServers

/-!
# `sender.py`

A blocking client that makes one connection after the other and tests on each of them whether the
string it sends comes back.  It does not look at what `send` returns and takes what a single `recv`
gives for the whole reply.
-/

namespace Mrps.Python

open EventSystem

/-- `str_to_send`, "bla bla blasd;lkfja;lsdkj fa". -/
def strToSend : List Byte :=
  [98, 108, 97, 32, 98, 108, 97, 32, 98, 108, 97, 115, 100, 59, 108, 107, 102, 106, 97, 59, 108,
   115, 100, 107, 106, 32, 102, 97]

/-- The rounds of the outer loop, one connection each. -/
def CONNECTIONS : Nat := 101

/-- The rounds of the inner loop. -/
def EXCHANGES : Nat := 1000

/-! ## One connection -/

/-- Where the inner loop is. -/
inductive Stage where
  /-- Before `s.send`, or behind the last round. -/
  | sending
  /-- Before `s.recv`, `send` having taken some bytes. -/
  | receiving (sent : Nat)
  /-- After `s.close()`. -/
  | closed
  deriving DecidableEq, Repr

/-- One connection of the sender. -/
structure Sender where
  stage : Stage
  /-- The rounds of the inner loop that are over. -/
  exchanges : Nat
  /-- Everything `send` took. -/
  output : List Byte
  /-- The strings printed as wrong. -/
  printed : List (List Byte)
  deriving DecidableEq, Repr

/-- The calls on the socket. -/
inductive SenderEvent where
  /-- `s.send` takes `count` bytes. -/
  | send (count : Nat)
  /-- `s.recv` returns, with no bytes when the peer has closed the connection. -/
  | recv (strReceived : List Byte)
  | close
  deriving DecidableEq, Repr

namespace Sender

/-- After `s.connect`. -/
def connected : Sender := { stage := .sending, exchanges := 0, output := [], printed := [] }

/-- One call.  A blocking `send` takes at least one byte. -/
def next (sender : Sender) : SenderEvent → Option Sender
  | .send count =>
      if sender.stage = .sending ∧ sender.exchanges < EXCHANGES ∧ 0 < count ∧
          count ≤ strToSend.length then
        some { sender with
          stage := .receiving count
          output := sender.output ++ strToSend.take count }
      else none
  | .recv strReceived =>
      match sender.stage with
      | .receiving _ =>
          if strReceived.length ≤ strToSend.length then
            some { sender with
              stage := .sending
              exchanges := sender.exchanges + 1
              printed :=
                if strReceived ≠ strToSend then sender.printed ++ [strReceived]
                else sender.printed }
          else none
      | .sending | .closed => none
  | .close =>
      if sender.stage = .sending ∧ sender.exchanges = EXCHANGES then
        some { sender with stage := .closed }
      else none

end Sender

/-- The runs of one connection. -/
def senders : EventSystem Sender SenderEvent := { step := Sender.next }

namespace Sender

variable {sender after : Sender} {event : SenderEvent} {heard : List Byte}

theorem output_grows (step : sender.next event = some after) : sender.output <+: after.output := by
  cases event with
  | send count =>
      rw [next, Option.ite_none_right_eq_some] at step
      obtain ⟨-, stepped⟩ := step
      obtain rfl := Option.some.inj stepped
      exact List.prefix_append _ _
  | recv strReceived =>
      rw [next] at step
      split at step
      · rw [Option.ite_none_right_eq_some] at step
        obtain ⟨-, stepped⟩ := step
        obtain rfl := Option.some.inj stepped
        exact List.prefix_rfl
      · cases step
      · cases step
  | close =>
      rw [next, Option.ite_none_right_eq_some] at step
      obtain ⟨-, stepped⟩ := step
      obtain rfl := Option.some.inj stepped
      exact List.prefix_rfl

/-- The sender as the client of a service. -/
def speaker : Speaker Byte where
  State := Sender
  Event := SenderEvent
  system := senders
  initial := .connected
  placed sender := sender.output
  heard _ event :=
    match event with
    | .recv strReceived => strReceived
    | .send _ | .close => []
  Allowed _ _ _ := True
  grows _ _ _ step := output_grows step

/-- An exchange ends whole: `send` took the string and `recv` returned as many bytes. -/
def Whole (before : Sender) (event : SenderEvent) (_ : Sender) : Prop :=
  match event with
  | .recv strReceived =>
      before.stage = .receiving strToSend.length ∧ strReceived.length = strToSend.length
  | .send _ | .close => True

instance (before after : Sender) (event : SenderEvent) : Decidable (before.Whole event after) :=
  match event with
  | .recv _ => inferInstanceAs (Decidable (_ ∧ _))
  | .send _ => inferInstanceAs (Decidable True)
  | .close => inferInstanceAs (Decidable True)

/-- Everything that was sent came back, but for the string of the exchange under way. -/
def Aligned (sender : Sender) (heard : List Byte) : Prop :=
  match sender.stage with
  | .receiving sent => sender.output = heard ++ strToSend.take sent ∧ sent ≤ strToSend.length
  | .sending | .closed => sender.output = heard

/-- The bytes that come back are the string exactly when the exchange was whole. -/
theorem received_eq_iff {strReceived : List Byte} {sent : Nat} (inside : sent ≤ strToSend.length)
    (echoed : strReceived <+: strToSend.take sent) :
    strReceived = strToSend ↔
      sent = strToSend.length ∧ strReceived.length = strToSend.length := by
  have bound := echoed.length_le
  rw [List.length_take, Nat.min_eq_left inside] at bound
  constructor
  · rintro rfl
    exact ⟨by omega, rfl⟩
  · rintro ⟨rfl, length_eq⟩
    rw [List.take_length] at echoed
    exact echoed.eq_of_length length_eq

/-- While nothing was printed, a step that hears only its echo prints nothing exactly when it ends
no exchange or a whole one. -/
theorem Aligned.next {bytes : List Byte} (aligned : sender.Aligned heard)
    (step : sender.next event = some after) (bytes_eq : bytes = speaker.heard sender event)
    (echoed : heard ++ bytes <+: sender.output) :
    (sender.Whole event after ∧ after.printed = sender.printed ∧ after.Aligned (heard ++ bytes)) ∨
      (¬ sender.Whole event after ∧ after.printed ≠ []) := by
  subst bytes_eq
  cases event with
  | send count =>
      rw [Sender.next, Option.ite_none_right_eq_some] at step
      obtain ⟨⟨sending, -, -, inside⟩, stepped⟩ := step
      obtain rfl := Option.some.inj stepped
      rw [Aligned, sending] at aligned
      refine .inl ⟨trivial, rfl, ?_⟩
      change sender.output ++ strToSend.take count = heard ++ [] ++ strToSend.take count ∧ _
      rw [List.append_nil, aligned]
      exact ⟨rfl, inside⟩
  | recv strReceived =>
      rw [Sender.next] at step
      split at step
      · rename_i sent receiving
        rw [Option.ite_none_right_eq_some] at step
        obtain ⟨-, stepped⟩ := step
        obtain rfl := Option.some.inj stepped
        rw [Aligned, receiving] at aligned
        obtain ⟨output_eq, inside⟩ := aligned
        have back : strReceived <+: strToSend.take sent := by
          rw [output_eq] at echoed
          exact (List.prefix_append_right_inj heard).mp echoed
        have same := received_eq_iff inside back
        have whole_iff : ∀ next,
            sender.Whole (.recv strReceived) next ↔ strReceived = strToSend := by
          intro next
          rw [same, Whole, receiving, Stage.receiving.injEq]
        by_cases right : strReceived = strToSend
        · refine .inl ⟨(whole_iff _).mpr right, by simp [right], ?_⟩
          obtain ⟨sent_eq, -⟩ := same.mp right
          rw [sent_eq, List.take_length] at output_eq
          change sender.output = heard ++ strReceived
          rw [output_eq, right]
        · exact .inr ⟨fun whole => right ((whole_iff _).mp whole), by simp [right]⟩
      · cases step
      · cases step
  | close =>
      rw [Sender.next, Option.ite_none_right_eq_some] at step
      obtain ⟨⟨sending, -⟩, stepped⟩ := step
      obtain rfl := Option.some.inj stepped
      rw [Aligned, sending] at aligned
      refine .inl ⟨trivial, rfl, ?_⟩
      change sender.output = heard ++ []
      rw [List.append_nil, aligned]

theorem printed_grows (step : sender.next event = some after) :
    sender.printed <+: after.printed := by
  cases event with
  | send count =>
      rw [next, Option.ite_none_right_eq_some] at step
      obtain ⟨-, stepped⟩ := step
      obtain rfl := Option.some.inj stepped
      exact List.prefix_rfl
  | recv strReceived =>
      rw [next] at step
      split at step
      · rw [Option.ite_none_right_eq_some] at step
        obtain ⟨-, stepped⟩ := step
        obtain rfl := Option.some.inj stepped
        change sender.printed <+:
          if strReceived ≠ strToSend then sender.printed ++ [strReceived] else sender.printed
        split
        · exact List.prefix_append _ _
        · exact List.prefix_rfl
      · cases step
      · cases step
  | close =>
      rw [next, Option.ite_none_right_eq_some] at step
      obtain ⟨-, stepped⟩ := step
      obtain rfl := Option.some.inj stepped
      exact List.prefix_rfl

/-- The loop makes no more than its rounds and prints at most one line in each. -/
structure Bounded (sender : Sender) : Prop where
  printed : sender.printed.length ≤ sender.exchanges
  rounds : sender.exchanges ≤ EXCHANGES
  inside : ∀ sent, sender.stage = .receiving sent → sender.exchanges < EXCHANGES

theorem bounded_connected : connected.Bounded := ⟨le_rfl, Nat.zero_le _, by simp [connected]⟩

theorem Bounded.next (bounded : sender.Bounded) (step : sender.next event = some after) :
    after.Bounded := by
  obtain ⟨printed, rounds, inside⟩ := bounded
  cases event with
  | send count =>
      rw [Sender.next, Option.ite_none_right_eq_some] at step
      obtain ⟨⟨-, more, -, -⟩, stepped⟩ := step
      obtain rfl := Option.some.inj stepped
      exact ⟨printed, rounds, fun _ _ => more⟩
  | recv strReceived =>
      rw [Sender.next] at step
      split at step
      · rename_i sent receiving
        have more := inside sent receiving
        rw [Option.ite_none_right_eq_some] at step
        obtain ⟨-, stepped⟩ := step
        obtain rfl := Option.some.inj stepped
        refine ⟨?_, more, by simp⟩
        dsimp only
        split
        · rw [List.length_append, List.length_singleton]
          omega
        · omega
      · cases step
      · cases step
  | close =>
      rw [Sender.next, Option.ite_none_right_eq_some] at step
      obtain ⟨-, stepped⟩ := step
      obtain rfl := Option.some.inj stepped
      exact ⟨printed, rounds, by simp⟩

/-- The connection after its past: as long as nothing is printed it is aligned with what it heard,
and nothing is printed exactly when all exchanges were whole. -/
structure Judged (past : List SenderEvent) (sender : Sender) (heard : List Byte) : Prop where
  execution : senders.run .connected past = some sender
  aligned : sender.printed = [] → sender.Aligned heard
  exact_past : sender.printed = [] ↔ senders.Along Whole .connected past

theorem Judged.next {past : List SenderEvent} {heard : List Byte} {event : SenderEvent}
    {next : Sender} (judged : Judged past sender heard)
    (step : senders.step sender event = some next)
    (echoed : heard ++ speaker.heard sender event <+: sender.output) :
    Judged (past ++ [event]) next (heard ++ speaker.heard sender event) := by
  have longer : senders.run .connected (past ++ [event]) = some next := by
    rw [run_append, judged.execution]
    simpa using step
  have along_iff_whole : senders.Along Whole .connected (past ++ [event]) ↔
      senders.Along Whole .connected past ∧ Whole sender event next :=
    along_concat judged.execution step
  rw [← judged.exact_past] at along_iff_whole
  by_cases silent : sender.printed = []
  · rcases (judged.aligned silent).next step rfl echoed with ⟨whole, same, aligned⟩ |
    ⟨broken, noisy⟩
    · refine ⟨longer, fun _ => aligned, ?_⟩
      rw [along_iff_whole, same]
      exact iff_of_true silent ⟨silent, whole⟩
    · refine ⟨longer, fun quiet => absurd quiet noisy, ?_⟩
      rw [along_iff_whole]
      exact iff_of_false noisy fun both => broken both.2
  · have noisy : next.printed ≠ [] := by
      intro quiet
      have grows := printed_grows step
      rw [quiet, List.prefix_nil] at grows
      exact silent grows
    refine ⟨longer, fun quiet => absurd quiet noisy, ?_⟩
    rw [along_iff_whole]
    exact iff_of_false noisy fun both => silent both.1

theorem printed_iff {events : List SenderEvent} (converses : speaker.Converses events sender) :
    sender.printed = [] ↔ senders.Along Whole .connected events := by
  have start : Judged [] .connected [] := ⟨rfl, fun _ => rfl, iff_of_true rfl trivial⟩
  have kept : ∀ past sender heard event next, Judged past sender heard →
      senders.step sender event = some next →
      heard ++ speaker.heard sender event <+: sender.output → True →
        Judged (past ++ [event]) next (heard ++ speaker.heard sender event) ∧ True :=
    fun _ _ _ _ _ judged step echoed _ => ⟨judged.next step echoed, trivial⟩
  obtain ⟨⟨heard, judged⟩, -⟩ := converses.kept rfl start kept
  exact judged.exact_past

end Sender

/-! ## The program -/

/-- The connections the program has made; an exception that a call raises ends it. -/
structure Program where
  connections : List Sender
  raised : Bool
  deriving DecidableEq, Repr

/-- What can happen to the program. -/
inductive ProgramEvent where
  /-- A new socket is connected. -/
  | connect
  /-- A call on the socket returns. -/
  | call (event : SenderEvent)
  /-- A call raises. -/
  | raise
  deriving DecidableEq, Repr

namespace Program

/-- The program before its first connection. -/
def started : Program := { connections := [], raised := false }

/-- The loop variable still refers to the last connection. -/
def current (program : Program) : Nat := program.connections.length - 1

/-- One step. -/
def next (program : Program) : ProgramEvent → Option Program
  | .connect =>
      if program.raised = false ∧ program.connections.length < CONNECTIONS ∧
          ∀ sender ∈ program.connections.getLast?, sender.stage = .closed then
        some { program with connections := program.connections ++ [.connected] }
      else none
  | .call event =>
      if program.raised = false then
        program.connections[program.current]?.bind fun sender =>
          (sender.next event).map fun sender =>
            { program with connections := program.connections.set program.current sender }
      else none
  | .raise => if program.raised = false then some { program with raised := true } else none

/-- Everything printed, connection by connection. -/
def printed (program : Program) : List (List Byte) :=
  program.connections.flatMap Sender.printed

/-- The part of an event that is a call on the connection at `index`. -/
def part (program : Program) (event : ProgramEvent) (index : Nat) : Option SenderEvent :=
  match event with
  | .call own => if program.current = index then some own else none
  | .connect | .raise => none

end Program

/-- The runs of the program. -/
def programs : EventSystem Program ProgramEvent := { step := Program.next }

namespace Program

/-- The loops are bounded. -/
structure Bounded (program : Program) : Prop where
  connections : program.connections.length ≤ CONNECTIONS
  each : ∀ sender ∈ program.connections, sender.Bounded

theorem bounded_started : started.Bounded := ⟨Nat.zero_le _, by simp [started]⟩

theorem Bounded.next {program after : Program} {event : ProgramEvent} (bounded : program.Bounded)
    (step : program.next event = some after) : after.Bounded := by
  obtain ⟨connections, each⟩ := bounded
  cases event with
  | connect =>
      rw [Program.next, Option.ite_none_right_eq_some] at step
      obtain ⟨⟨-, more, -⟩, stepped⟩ := step
      obtain rfl := Option.some.inj stepped
      refine ⟨?_, forall_mem_concat each Sender.bounded_connected⟩
      rw [List.length_append, List.length_singleton]
      exact more
  | call event =>
      rw [Program.next, Option.ite_none_right_eq_some] at step
      obtain ⟨-, stepped⟩ := step
      obtain ⟨sender, found, taken⟩ := Option.bind_eq_some_iff.mp stepped
      obtain ⟨called, call, rfl⟩ := Option.map_eq_some_iff.mp taken
      refine ⟨List.length_set.trans_le connections, forall_mem_set each ?_⟩
      exact (each sender (List.mem_of_getElem? found)).next call
  | raise =>
      rw [Program.next, Option.ite_none_right_eq_some] at step
      obtain ⟨-, stepped⟩ := step
      obtain rfl := Option.some.inj stepped
      exact ⟨connections, each⟩

theorem Bounded.printed {program : Program} (bounded : program.Bounded) :
    program.printed.length ≤ CONNECTIONS * EXCHANGES := by
  have each_length : ∀ length ∈ program.connections.map fun sender => sender.printed.length,
      length ≤ EXCHANGES := by
    intro length member
    obtain ⟨sender, connected, rfl⟩ := List.mem_map.mp member
    have loop := bounded.each sender connected
    exact loop.printed.trans loop.rounds
  have summed := List.sum_le_card_nsmul _ _ each_length
  rw [List.length_map, smul_eq_mul] at summed
  rw [Program.printed, List.length_flatMap]
  exact summed.trans (Nat.mul_le_mul_right _ bounded.connections)

end Program

/-- `sender.py`, each of whose connections is served faithfully by whatever server: it prints at
most one line for every round of its loops, and none exactly when in every exchange of every
connection `send` took the whole string and a single `recv` returned all of it. -/
theorem prints_nothing_iff {events : List ProgramEvent} {program : Program}
    (execution : programs.run .started events = some program)
    (converse : ∀ index (sender : Sender), program.connections[index]? = some sender →
      Sender.speaker.Converses (shareOf programs Program.part index .started events) sender) :
    program.printed.length ≤ 101000 ∧
      (program.printed = [] ↔ ∀ index < program.connections.length,
        senders.Along Sender.Whole .connected
          (shareOf programs Program.part index .started events)) := by
  have preserves : programs.Preserves Program.Bounded := fun _ _ _ bounded step => bounded.next step
  refine ⟨(preserves.run Program.bounded_started execution).printed, ?_⟩
  rw [Program.printed, List.flatMap_eq_nil_iff]
  constructor
  · intro silent index inside
    have found := List.getElem?_eq_getElem inside
    exact (Sender.printed_iff (converse index _ found)).mp (silent _ (List.mem_of_getElem? found))
  · intro whole sender member
    obtain ⟨index, inside, rfl⟩ := List.getElem_of_mem member
    exact (Sender.printed_iff (converse index _ (List.getElem?_eq_getElem inside))).mpr
      (whole index inside)

/-- One exchange with `server.erl`, whose process gets the string in two parts. -/
def firstExchange : List (DialogueEvent Sender.speaker (Erlang.echoService 0)) :=
  [.speaker (.send 28)] ++
    [.accepted, .spawn, .controllingProcess, .perm, .granted 0, .setopts 0, .arrive 0 strToSend,
      .deliver 0 5, .handle 0, .deliver 0 23, .handle 0].map .service ++
    [.speaker (.recv strToSend)]

/-- The same exchange, seen from the program. -/
def firstConnection : List ProgramEvent := [.connect, .call (.send 28), .call (.recv strToSend)]

theorem prints_nothing_iff_first : ∃ program,
    programs.run .started firstConnection = some program ∧ program.printed = [] := by
  obtain ⟨program, sender, execution, connections_eq, sender_run⟩ : ∃ program sender,
      programs.run .started firstConnection = some program ∧ program.connections = [sender] ∧
        senders.run .connected (spoken firstExchange) = some sender := ⟨_, _, rfl, rfl, rfl⟩
  obtain ⟨dialogue, conversation⟩ : ∃ dialogue,
      (dialogues Sender.speaker (Erlang.echoService 0)).run (.initial _ _) firstExchange =
        some dialogue := ⟨_, rfl⟩
  have assumed : (dialogues Sender.speaker (Erlang.echoService 0)).Along DialogueAssumed
      (.initial _ _) firstExchange :=
    along_dialogueAssumed (fun _ _ _ => trivial) fun _ _ _ _ => trivial
  have converses : Sender.speaker.Converses (spoken firstExchange) dialogue.speaking :=
    ⟨_, Erlang.echoService_faithful 0, firstExchange, dialogue, assumed, conversation, rfl, rfl⟩
  have same : dialogue.speaking = sender :=
    Option.some.inj ((converses.run rfl).symm.trans sender_run)
  have converse : ∀ index (other : Sender), program.connections[index]? = some other →
      Sender.speaker.Converses (shareOf programs Program.part index .started firstConnection)
        other := by
    intro index other found
    rw [connections_eq, List.getElem?_singleton] at found
    split at found
    · rename_i first
      obtain rfl := Option.some.inj found
      rw [first, ← same]
      exact converses
    · cases found
  refine ⟨program, execution, (prints_nothing_iff execution converse).2.mpr ?_⟩
  intro index inside
  rw [connections_eq, List.length_singleton, Nat.lt_one_iff] at inside
  rw [inside]
  decide

end Mrps.Python
