import Mrps.Dialogue
import Mrps.EchoServers
import Mrps.Erlang.Exchange
import Mrps.Erlang.Statistics

/-!
# What the connectors report of a server

A connector of `client.erl` at the other end of a faithful server.  Every request ends in one
report, and a server is blamed for its silence, for a closed connection, or because the network cut
a reply in two, but never for a wrong reply.
-/

namespace Mrps.Erlang

open EventSystem

/-- The messages a connector can get: its timer's, and what the runtime tells the owner of `socket`.
Nobody sends `close`. -/
def Message.Own (socket : Nat) : Message → Prop
  | .go_on => True
  | .close => False
  | .tcp place data => place = socket ∧ data ≠ []
  | .tcp_closed place | .tcp_error place _ => place = socket

/-- The socket of the connector is `socket`, and so are its messages. -/
def ConnectorEvent.Own (socket : Nat) : ConnectorEvent → Prop
  | .connect result _ => ∀ place ∈ result, place = socket
  | .arrive message => message.Own socket
  | .goOn _ _ | .exchange _ | .timeout => True

/-- The event sends a request. -/
def ConnectorEvent.sends : ConnectorEvent → Bool
  | .goOn _ _ => true
  | .connect _ _ | .arrive _ | .exchange _ | .timeout => false

/-- The bytes that arrive with an event. -/
def ConnectorEvent.bytes : ConnectorEvent → List Byte
  | .arrive (.tcp _ data) => data
  | .arrive .go_on | .arrive .close | .arrive (.tcp_closed _) | .arrive (.tcp_error _ _) => []
  | .connect _ _ | .goOn _ _ | .exchange _ | .timeout => []

namespace Connector

variable {connector after : Connector} {event : ConnectorEvent} {socket : Nat} {heard : List Byte}

theorem output_grows (step : connector.next event = some after) :
    connector.output <+: after.output := by
  rcases next_cases step with ⟨startTime, result, now, -, -, rfl⟩ | ⟨message, -, rfl⟩ |
    ⟨_, string, now, rest, -, -, -, -, rfl⟩ |
    ⟨_, string, sentTime, now, clause, rest, -, -, -, rfl⟩ | ⟨_, string, sentTime, -, -, rfl⟩
  · cases result <;> exact List.prefix_rfl
  · exact List.prefix_rfl
  · exact List.prefix_append _ _
  · cases clause <;> exact List.prefix_rfl
  · exact List.prefix_rfl

/-- A connector that gets `socket` from `gen_tcp:connect`. -/
def speaker (socket : Nat) (startTime : Int) : Speaker Byte where
  State := Connector
  Event := ConnectorEvent
  system := connectors
  initial := .spawned startTime
  placed connector := connector.output
  heard _ event := event.bytes
  Allowed _ event _ := event.Own socket
  grows _ _ _ step := output_grows step

/-! ## The account of a connector -/

/-- The first message in the mailbox that ends the exchange under way. -/
def matched (connector : Connector) : Option Message :=
  match connector.wait with
  | .exchanging socket string _ =>
      connector.mailbox.find? fun message => (exchangeClause socket string message).isSome
  | .connecting _ | .pausing _ | .finished => none

/-- The reply was cut: the message is a part of it. -/
def Cut (connector : Connector) (message : Message) : Prop :=
  ∃ socket data, message = .tcp socket data ∧ data ≠ [] ∧ data <+: connector.wait.due ∧
    data ≠ connector.wait.due

/-- The message says that the connection is gone. -/
def Gone (message : Message) : Prop :=
  ∃ socket, message = .tcp_closed socket ∨ ∃ reason, message = .tcp_error socket reason

/-- The exchange under way fails: no message ends it in time, the connection is gone, or the reply
was cut. -/
def Fails (connector : Connector) : ConnectorEvent → Prop
  | .timeout => True
  | .exchange _ => ∃ message ∈ connector.matched, Gone message ∨ connector.Cut message
  | .connect _ _ | .arrive _ | .goOn _ _ => False

/-- The step blames the server exactly when the exchange fails. -/
def BlamesFairly (before : Connector) (event : ConnectorEvent) (after : Connector) : Prop :=
  after.log = before.log ++ [.exchange_error] ↔ before.Fails event

/-- How many exchanges were answered, failed, or are under way. -/
def exchanges (connector : Connector) : Nat :=
  (connector.log.countP fun message => message matches .exchange_time _) +
    connector.log.count .exchange_error + connector.wait.isExchanging.toNat

/-- The connector is in step with its echo until it has finished: what it heard is the echo of the
earlier exchanges and the segments in the mailbox. -/
structure InEcho (socket : Nat) (connector : Connector) (heard : List Byte) : Prop where
  own : ∀ message ∈ connector.mailbox, message.Own socket
  echoed : heard <+: connector.output
  owed : connector.wait ≠ .finished → ∃ front, connector.output = front ++ connector.wait.due ∧
    heard = front ++ (segments connector.mailbox).flatten
  exchanging : ∀ place string sentTime, connector.wait = .exchanging place string sentTime →
    place = socket
  pausing : ∀ place, connector.wait = .pausing place → place = socket

theorem inEcho_spawned (startTime : Int) : (spawned startTime).InEcho socket [] where
  own := by simp [spawned]
  echoed := List.prefix_rfl
  owed _ := ⟨[], rfl, rfl⟩
  exchanging := by simp [spawned]
  pausing := by simp [spawned]

/-- The message that ends an exchange: a segment, which is the first one in the mailbox, or the end
of the connection. -/
theorem matched_of_receive {string : List Byte} {sentTime : Int} {clause : Clause}
    {rest : List Message} (own : ∀ message ∈ connector.mailbox, message.Own socket)
    (exchanging : connector.wait = .exchanging socket string sentTime)
    (taken : Mailbox.receive (exchangeClause socket string) connector.mailbox =
      some (clause, rest)) :
    ∃ message, connector.matched = some message ∧
      ((Gone message ∧ clause = .failed) ∨
        ∃ data, message = .tcp socket data ∧ data ≠ [] ∧
          segments connector.mailbox = data :: segments rest ∧
          clause = if data = string then .answered else .failed) := by
  obtain ⟨before, message, later, mailbox_eq, rfl, ends, skipped⟩ := Mailbox.receive_eq_some taken
  have found : connector.matched = some message := by
    simp only [matched, exchanging]
    rw [mailbox_eq, List.find?_append, List.find?_eq_none.mpr]
    · simp [ends]
    · intro other member
      simp [skipped other member]
  have owns : message.Own socket := own message (by simp [mailbox_eq])
  refine ⟨message, found, ?_⟩
  cases message with
  | go_on => cases ends
  | close => exact owns.elim
  | tcp place data =>
      obtain ⟨rfl, nonempty⟩ := owns
      have silent : ∀ other ∈ before, other = .go_on := by
        intro other member
        have unmatched := skipped other member
        have owned := own other (by simp [mailbox_eq, member])
        cases other with
        | go_on => rfl
        | close => exact owned.elim
        | tcp other_place _ =>
            simp only [exchangeClause, if_pos owned.1] at unmatched
            split at unmatched <;> cases unmatched
        | tcp_closed other_place =>
            have here : other_place = place := owned
            simp [exchangeClause, here] at unmatched
        | tcp_error other_place reason =>
            have here : other_place = place := owned
            simp [exchangeClause, here] at unmatched
      refine .inr ⟨data, rfl, nonempty, ?_, ?_⟩
      · rw [mailbox_eq, segments_append, segments_append, segments_goOn silent]
        rfl
      · simp only [exchangeClause, if_true] at ends
        split at ends <;> simp_all
  | tcp_closed place =>
      refine .inl ⟨⟨place, .inl rfl⟩, ?_⟩
      simp only [exchangeClause] at ends
      split at ends <;> simp_all
  | tcp_error place reason =>
      refine .inl ⟨⟨place, .inr ⟨reason, rfl⟩⟩, ?_⟩
      simp only [exchangeClause] at ends
      split at ends <;> simp_all

/-- What follows from the account about a segment that ends an exchange. -/
theorem InEcho.segment_due {string data : List Byte} {sentTime : Int} {rest : List Message}
    (inEcho : connector.InEcho socket heard)
    (exchanging : connector.wait = .exchanging socket string sentTime)
    (first : segments connector.mailbox = data :: segments rest) :
    data <+: string ∧ ∃ front, connector.output = front ++ string ∧
      heard = front ++ data ++ (segments rest).flatten := by
  obtain ⟨front, output_eq, heard_eq⟩ := inEcho.owed (by simp [exchanging])
  have echoed := inEcho.echoed
  rw [exchanging, Wait.due] at output_eq
  rw [first, List.flatten_cons, ← List.append_assoc] at heard_eq
  refine ⟨?_, front, output_eq, heard_eq⟩
  rw [output_eq, heard_eq, List.append_assoc, List.prefix_append_right_inj] at echoed
  exact (List.prefix_append _ _).trans echoed

theorem InEcho.finished {mailbox : List Message} {log : List LogMessage}
    (inEcho : connector.InEcho socket heard) (kept : ∀ message ∈ mailbox, message.Own socket) :
    Connector.InEcho socket { connector with wait := .finished, mailbox, log } heard where
  own := kept
  echoed := inEcho.echoed
  owed running := absurd rfl running
  exchanging := by simp
  pausing := by simp

theorem InEcho.connect {startTime : Int} {result : Option Nat}
    (inEcho : connector.InEcho socket heard) (now : Int)
    (connecting : connector.wait = .connecting startTime) (own : ∀ place ∈ result, place = socket) :
    (connector.afterConnect startTime now result).InEcho socket heard ∧
      (connector.afterConnect startTime now result).exchanges = connector.exchanges := by
  cases result with
  | none =>
      refine ⟨inEcho.finished inEcho.own, ?_⟩
      simp [exchanges, afterConnect, tell, connecting, Wait.isExchanging]
  | some place =>
      obtain rfl := own place rfl
      refine ⟨⟨inEcho.own, inEcho.echoed, ?_, by simp [afterConnect], ?_⟩, ?_⟩
      · intro _
        simpa [connecting, Wait.due, afterConnect, tell] using inEcho.owed (by simp [connecting])
      · intro other pausing
        exact (Wait.pausing.inj pausing).symm
      · simp [exchanges, afterConnect, tell, connecting, Wait.isExchanging]

theorem InEcho.arrive {message : Message} (inEcho : connector.InEcho socket heard)
    (own : message.Own socket)
    (echoed : heard ++ (ConnectorEvent.arrive message).bytes <+: connector.output) :
    Connector.InEcho socket { connector with mailbox := connector.mailbox ++ [message] }
      (heard ++ (ConnectorEvent.arrive message).bytes) := by
  refine { inEcho with own := forall_mem_concat inEcho.own own, echoed, owed := ?_ }
  intro running
  obtain ⟨front, output_eq, heard_eq⟩ := inEcho.owed running
  have bytes_eq : (segments [message]).flatten = (ConnectorEvent.arrive message).bytes := by
    cases message <;> simp [segments, Message.segment, ConnectorEvent.bytes]
  refine ⟨front, output_eq, ?_⟩
  change _ = front ++ (segments (connector.mailbox ++ [message])).flatten
  rw [segments_append, List.flatten_append, bytes_eq, heard_eq, List.append_assoc]

theorem InEcho.goOn {string : List Byte} {now : Int} {place : Nat} {rest : List Message}
    (inEcho : connector.InEcho socket heard) (paused : connector.wait = .pausing place)
    (taken : Mailbox.receive goOnClause connector.mailbox = some ((), rest)) :
    Connector.InEcho socket
      { connector with
        wait := .exchanging place string now
        mailbox := rest
        output := connector.output ++ string } heard := by
  refine ⟨?_, inEcho.echoed.trans (List.prefix_append _ _), ?_, ?_, by simp⟩
  · intro message member
    exact inEcho.own message (Mailbox.mem_of_receive taken message member)
  · intro _
    obtain ⟨front, output_eq, heard_eq⟩ := inEcho.owed (by simp [paused])
    simp only [paused, Wait.due, List.append_nil] at output_eq
    refine ⟨front, by rw [output_eq]; rfl, ?_⟩
    rw [heard_eq]
    exact congrArg (fun parts => front ++ parts.flatten) (segments_receive_goOn taken).symm
  · intro other _ _ exchanging
    obtain ⟨rfl, -, -⟩ := Wait.exchanging.inj exchanging
    exact inEcho.pausing _ paused

/-- The end of an exchange. -/
theorem InEcho.exchange {string : List Byte} {sentTime : Int} {clause : Clause}
    {rest : List Message} (inEcho : connector.InEcho socket heard) (now : Int)
    (exchanging : connector.wait = .exchanging socket string sentTime)
    (taken : Mailbox.receive (exchangeClause socket string) connector.mailbox =
      some (clause, rest)) :
    Connector.InEcho socket
        (afterExchange { connector with mailbox := rest } socket sentTime now clause) heard ∧
      (clause = .answered ∧
          (∀ message ∈ connector.matched, ¬ Gone message ∧ ¬ connector.Cut message) ∨
        clause = .failed ∧
          ∃ message ∈ connector.matched, Gone message ∨ connector.Cut message) := by
  have kept : ∀ message ∈ rest, message.Own socket := fun message member =>
    inEcho.own message (Mailbox.mem_of_receive taken message member)
  obtain ⟨message, found, ⟨gone, rfl⟩ | ⟨data, rfl, nonempty, first, rfl⟩⟩ :=
    matched_of_receive inEcho.own exchanging taken
  · exact ⟨inEcho.finished kept, .inr ⟨rfl, message, found, .inl gone⟩⟩
  · obtain ⟨part, front, output_eq, heard_eq⟩ := inEcho.segment_due exchanging first
    have due_eq : connector.wait.due = string := by rw [exchanging, Wait.due]
    by_cases whole : data = string
    · subst whole
      rw [if_pos rfl]
      refine ⟨⟨kept, inEcho.echoed, ?_, by simp [afterExchange], ?_⟩, .inl ⟨rfl, ?_⟩⟩
      · intro _
        exact ⟨front ++ data, by simpa [afterExchange, tell, Wait.due] using output_eq, heard_eq⟩
      · intro other pausing
        exact (Wait.pausing.inj pausing).symm
      · intro other matched
        obtain rfl : Message.tcp socket data = other := by simpa [found] using matched
        refine ⟨?_, ?_⟩
        · rintro ⟨place, closed | ⟨reason, failed⟩⟩
          · cases closed
          · cases failed
        · rintro ⟨place, other, tcp_eq, -, -, different⟩
          obtain ⟨-, rfl⟩ := Message.tcp.inj tcp_eq
          exact different due_eq.symm
    · rw [if_neg whole]
      refine ⟨inEcho.finished kept, .inr ⟨rfl, _, found, .inr ?_⟩⟩
      exact ⟨socket, data, rfl, nonempty, due_eq.symm ▸ part, due_eq.symm ▸ whole⟩

/-- A step that hears only its echo keeps the account, blames fairly, and begins or ends exchanges
one by one. -/
theorem InEcho.next (inEcho : connector.InEcho socket heard)
    (step : connector.next event = some after) (own : event.Own socket)
    (echoed : heard ++ event.bytes <+: connector.output) :
    after.InEcho socket (heard ++ event.bytes) ∧ connector.BlamesFairly event after ∧
      after.exchanges = connector.exchanges + if event.sends then 1 else 0 := by
  have quiet : ∀ log : List LogMessage, log ≠ log ++ [.exchange_error] := by simp
  rcases next_cases step with ⟨startTime, result, now, rfl, connecting, rfl⟩ |
    ⟨message, rfl, rfl⟩ | ⟨place, string, now, rest, rfl, paused, -, received, rfl⟩ |
    ⟨place, string, sentTime, now, clause, rest, rfl, exchanging, received, rfl⟩ |
    ⟨place, string, sentTime, rfl, exchanging, rfl⟩
  · obtain ⟨inEcho', exchanges_eq⟩ := inEcho.connect now connecting own
    rw [ConnectorEvent.bytes, List.append_nil]
    refine ⟨inEcho', iff_of_false ?_ id, exchanges_eq⟩
    cases result <;> simp [afterConnect, tell]
  · exact ⟨inEcho.arrive own echoed, iff_of_false (quiet _) id, rfl⟩
  · rw [ConnectorEvent.bytes, List.append_nil]
    refine ⟨inEcho.goOn paused received, iff_of_false (quiet _) id, ?_⟩
    simp [exchanges, paused, Wait.isExchanging, ConnectorEvent.sends]
  · obtain rfl := inEcho.exchanging place string sentTime exchanging
    obtain ⟨inEcho', outcome⟩ := inEcho.exchange now exchanging received
    rw [ConnectorEvent.bytes, List.append_nil]
    refine ⟨inEcho', ?_⟩
    rcases outcome with ⟨rfl, whole⟩ | ⟨rfl, broken⟩
    · constructor
      · refine iff_of_false (by simp [afterExchange, tell]) ?_
        rintro ⟨message, found, fails⟩
        exact fails.elim (whole message found).1 (whole message found).2
      · simp [exchanges, afterExchange, tell, exchanging, Wait.isExchanging, ConnectorEvent.sends]
        omega
    · refine ⟨iff_of_true rfl broken, ?_⟩
      simp [exchanges, afterExchange, tell, exchanging, Wait.isExchanging, ConnectorEvent.sends]
      omega
  · rw [ConnectorEvent.bytes, List.append_nil]
    refine ⟨inEcho.finished inEcho.own, iff_of_true rfl trivial, ?_⟩
    simp [exchanges, tell, exchanging, Wait.isExchanging, ConnectorEvent.sends]
    omega

/-- What a connector says of a faithful server. -/
theorem fair_of_converses {startTime : Int} {events : List ConnectorEvent}
    (converses : (speaker socket startTime).Converses events connector) :
    connectors.Along BlamesFairly (.spawned startTime) events ∧
      connector.exchanges = events.countP ConnectorEvent.sends := by
  let invariant : List ConnectorEvent → Connector → List Byte → Prop := fun past connector heard =>
    connector.InEcho socket heard ∧ connector.exchanges = past.countP ConnectorEvent.sends
  have start : invariant [] (.spawned startTime) [] := ⟨inEcho_spawned startTime, rfl⟩
  have kept : ∀ past connector heard (event : ConnectorEvent) next, invariant past connector heard →
      connectors.step connector event = some next → heard ++ event.bytes <+: connector.output →
      event.Own socket →
        invariant (past ++ [event]) next (heard ++ event.bytes) ∧
          BlamesFairly connector event next := by
    rintro past connector heard event next ⟨inEcho, counted⟩ step echoed own
    obtain ⟨inEcho', fair, exchanges_eq⟩ := inEcho.next step own echoed
    refine ⟨⟨inEcho', ?_⟩, fair⟩
    rw [exchanges_eq, counted, List.countP_append, List.countP_singleton]
  obtain ⟨⟨heard, -, counted⟩, fair⟩ := converses.kept rfl start kept
  exact ⟨fair, counted⟩

end Connector

/-! ## One connector -/

/-- A connector of `client.erl` against a connection of any of the servers, with any interleaving of
the two, any segments in both directions, timeouts and the end of the connection at any time: it
blames the server in exactly those exchanges in which nothing came in time, the connection was gone,
or the network cut the reply, and every request it sent was answered, failed so, or is under way. -/
theorem connector_blames_fairly (server : EchoServer) {socket : Nat} {startTime : Int}
    {events : List (DialogueEvent (Connector.speaker socket startTime) server.service)}
    {dialogue : Dialogue (Connector.speaker socket startTime) server.service}
    (assumed : (dialogues (Connector.speaker socket startTime) server.service).Along DialogueAssumed
      (.initial _ _) events)
    (execution : (dialogues (Connector.speaker socket startTime) server.service).run
      (.initial _ _) events = some dialogue) :
    connectors.Along Connector.BlamesFairly (.spawned startTime) (spoken events) ∧
      Connector.exchanges dialogue.speaking = (spoken events).countP ConnectorEvent.sends :=
  Connector.fair_of_converses
    ⟨server.service, server.faithful, events, dialogue, assumed, execution, rfl, rfl⟩

/-- A request of two bytes to `server.erl`, whose reply arrives in two segments. -/
def cutReply : List (DialogueEvent (Connector.speaker 7 0) (echoService 0)) :=
  [.speaker (.connect (some 7) 10), .speaker (.arrive .go_on), .speaker (.goOn [48, 46] 20)] ++
    [.accepted, .spawn, .controllingProcess, .perm, .granted 0, .setopts 0, .arrive 0 [48, 46],
      .deliver 0 2, .handle 0].map .service ++
    [.speaker (.arrive (.tcp 7 [48])), .speaker (.arrive (.tcp 7 [46])), .speaker (.exchange 30)]

/-- Both ends of it are trusted, and the server is blamed. -/
theorem run_cutReply : ∃ dialogue,
    (dialogues (Connector.speaker 7 0) (echoService 0)).Along DialogueAssumed (.initial _ _)
      cutReply ∧
      (dialogues (Connector.speaker 7 0) (echoService 0)).run (.initial _ _) cutReply =
        some dialogue ∧
      Connector.log dialogue.speaking = [.connect_time 10, .exchange_error] := by
  let events : List ConnectorEvent := [.connect (some 7) 10, .arrive .go_on, .goOn [48, 46] 20,
    .arrive (.tcp 7 [48]), .arrive (.tcp 7 [46]), .exchange 30]
  have own : ∀ event ∈ events, event.Own 7 := by simp [events, ConnectorEvent.Own, Message.Own]
  have assumed : (dialogues (Connector.speaker 7 0) (echoService 0)).Along DialogueAssumed
      (.initial _ _) cutReply :=
    along_dialogueAssumed (fun _ _ _ => trivial) fun event member _ _ => own event member
  exact ⟨_, assumed, rfl, rfl⟩

theorem connector_blames_fairly_cut : ∃ dialogue,
    (dialogues (Connector.speaker 7 0) (echoService 0)).run (.initial _ _) cutReply =
      some dialogue ∧
      Connector.log dialogue.speaking = [.connect_time 10, .exchange_error] ∧
      Connector.exchanges dialogue.speaking = 1 ∧
      connectors.Along Connector.BlamesFairly (.spawned 0) (spoken cutReply) := by
  obtain ⟨dialogue, assumed, execution, log_eq⟩ := run_cutReply
  obtain ⟨fair, counted⟩ := connector_blames_fairly (.erlang 0) assumed execution
  exact ⟨dialogue, execution, log_eq, counted, fair⟩

/-! ## All connectors -/

/-- No exchange of the connector fails. -/
def Connector.Served (startTime : Int) (events : List ConnectorEvent) : Prop :=
  connectors.Along (fun connector event _ => ¬ connector.Fails event) (.spawned startTime) events

/-- A connector whose exchanges do not fail blames nobody. -/
theorem Connector.flawless_of_served {connector : Connector} {startTime : Int}
    {events : List ConnectorEvent} (served : Connector.Served startTime events)
    (fair : connectors.Along BlamesFairly (.spawned startTime) events)
    (execution : connectors.run (.spawned startTime) events = some connector) :
    .exchange_error ∉ connector.log := by
  have kept : ∀ before event after, .exchange_error ∉ before.log →
      connectors.step before event = some after →
      ¬ before.Fails event ∧ BlamesFairly before event after → .exchange_error ∉ after.log := by
    rintro before event after flawless step ⟨fine, fairly⟩
    have told : after.log ≠ before.log ++ [.exchange_error] := fun blames => fine (fairly.mp blames)
    rcases next_cases step with ⟨started, result, now, -, -, rfl⟩ | ⟨message, -, rfl⟩ |
      ⟨place, string, now, rest, -, -, -, -, rfl⟩ |
      ⟨place, string, sentTime, now, clause, rest, -, -, -, rfl⟩ |
      ⟨place, string, sentTime, -, -, rfl⟩
    · cases result <;> simpa [afterConnect, tell] using flawless
    · exact flawless
    · exact flawless
    · cases clause with
      | done => exact flawless
      | answered => simpa [afterExchange, tell] using flawless
      | failed => exact absurd rfl told
    · exact absurd rfl told
  have silent : LogMessage.exchange_error ∉ (spawned startTime).log := by simp [spawned]
  exact (served.and fair).invariant kept silent execution

namespace Tester

/-- The part of an event that is a step of the connector at `index`. -/
def part (_ : Tester) (event : TesterEvent) (index : Nat) : Option ConnectorEvent :=
  match event with
  | .child place own => if place = index then some own else none
  | .spawn _ | .goOn | .deliver _ | .sendTimeout | .sendLogStamp | .gatherLog => none

theorem Sound.took_front {tester : Tester} (sound : tester.Sound) {index : Nat} {child : Child}
    (found : tester.children[index]? = some child) :
    Mailbox.ofSender (some index) tester.received <+: child.connector.log := by
  have stream := sound.streams index child found
  rw [history, Mailbox.ofSender_append] at stream
  have front : Mailbox.ofSender (some index) tester.received <+:
      child.connector.log.take child.delivered := ⟨_, stream⟩
  exact front.trans (List.take_prefix _ _)

/-- The logger's counts of exchanges, connector by connector. -/
theorem Sound.exchanges_sum {tester : Tester} (sound : tester.Sound) :
    (tally (tester.received.map Prod.snd)).exchErr =
        ∑ index ∈ Finset.range tester.children.length,
          (tally (Mailbox.ofSender (some index) tester.received)).exchErr ∧
      (tally (tester.received.map Prod.snd)).msgs =
        ∑ index ∈ Finset.range tester.children.length,
          (tally (Mailbox.ofSender (some index) tester.received)).msgs := by
  constructor
  · exact sound.measure (fun messages => (tally messages).exchErr) rfl
      (fun message messages => by simp [tally, List.count_cons, add_comm])
      (fun messages start => by simp [start, GatherLog.start])
  · exact sound.measure (fun messages => (tally messages).msgs) rfl
      (fun message messages => by
        cases message <;> simp [tally, List.filterMap_cons, LogMessage.exchangeTime, add_comm])
      (fun messages start => by simp [start, GatherLog.start])

/-- What the logger took of a connector counts no more exchanges than the connector said, at most
one of them as failed. -/
theorem Sound.took_at_most {tester : Tester} (sound : tester.Sound) {index : Nat} {child : Child}
    (found : tester.children[index]? = some child) :
    (tally (Mailbox.ofSender (some index) tester.received)).msgs +
        (tally (Mailbox.ofSender (some index) tester.received)).exchErr ≤
          child.connector.exchanges ∧
      (tally (Mailbox.ofSender (some index) tester.received)).exchErr ≤ 1 := by
  have front := (sound.took_front found).sublist
  have times_eq : ∀ log : List LogMessage, (log.filterMap LogMessage.exchangeTime).length =
      log.countP fun message => message matches .exchange_time _ := by
    intro log
    rw [List.length_filterMap_eq_countP]
    congr 1
    funext message
    cases message <;> rfl
  constructor
  · have errors := front.count_le LogMessage.exchange_error
    have times := (front.filterMap LogMessage.exchangeTime).length_le
    rw [times_eq child.connector.log] at times
    simp only [tally, Connector.exchanges]
    omega
  · obtain ⟨failures, children⟩ := (sound.spoken found).tally
    simp only [tally] at failures children ⊢
    omega

end Tester

/-- The final statistics of `client.erl` against servers that all echo faithfully, with any number
of connectors and any interleaving: the exchanges they count were all requested, and every exchange
error is that of another connector, one of whose exchanges got no answer in time, lost its
connection or had its reply cut by the network. -/
theorem statistics_fair {events : List TesterEvent} {tester : Tester} {args : GatherLog}
    {sockets : Nat → Nat} {times : Nat → Int}
    (execution : testers.run .started events = some tester) (logging : tester.logger = some args)
    (converse : ∀ index child, tester.children[index]? = some child →
      (Connector.speaker (sockets index) (times index)).Converses
        (shareOf testers Tester.part index .started events) child.connector) :
    args.msgs + args.exchErr ≤ ∑ index ∈ Finset.range tester.children.length,
        (shareOf testers Tester.part index .started events).countP ConnectorEvent.sends ∧
      ∃ failed : Finset Nat, args.exchErr ≤ failed.card ∧ ∀ index ∈ failed,
        index < tester.children.length ∧
          ¬ Connector.Served (times index) (shareOf testers Tester.part index .started events) := by
  have preserves : testers.Preserves Tester.Sound := fun _ _ _ sound step => sound.next step
  have sound := preserves.run Tester.sound_started execution
  obtain rfl := sound.logged args logging
  obtain ⟨errors_eq, msgs_eq⟩ := sound.exchanges_sum
  have child_of : ∀ index ∈ Finset.range tester.children.length,
      ∃ child, tester.children[index]? = some child := fun index inside =>
    ⟨_, List.getElem?_eq_getElem (Finset.mem_range.mp inside)⟩
  constructor
  · rw [errors_eq, msgs_eq, ← Finset.sum_add_distrib]
    apply Finset.sum_le_sum
    intro index inside
    obtain ⟨child, found⟩ := child_of index inside
    obtain ⟨-, counted⟩ := Connector.fair_of_converses (converse index child found)
    exact (sound.took_at_most found).1.trans_eq counted
  · let errors : Nat → Nat := fun index =>
      (tally (Mailbox.ofSender (some index) tester.received)).exchErr
    refine ⟨(Finset.range tester.children.length).filter fun index => 0 < errors index, ?_, ?_⟩
    · rw [errors_eq, Finset.card_filter]
      apply Finset.sum_le_sum
      intro index inside
      obtain ⟨child, found⟩ := child_of index inside
      have one : errors index ≤ 1 := (sound.took_at_most found).2
      change errors index ≤ if 0 < errors index then 1 else 0
      split <;> omega
    · intro index member
      obtain ⟨inside, blamed⟩ := Finset.mem_filter.mp member
      obtain ⟨child, found⟩ := child_of index inside
      have spoken := converse index child found
      obtain ⟨fair, -⟩ := Connector.fair_of_converses spoken
      refine ⟨Finset.mem_range.mp inside, fun served => ?_⟩
      -- what the logger took of the connector is among what the connector said
      have flawless := Connector.flawless_of_served served fair (spoken.run rfl)
      have taken : LogMessage.exchange_error ∈ Mailbox.ofSender (some index) tester.received :=
        List.count_pos_iff.mp blamed
      exact flawless ((sound.took_front found).subset taken)

/-- One connector goes through `cutReply`, and the logger takes what it says. -/
def cutReplyCounted : List TesterEvent :=
  [.spawn 0, .child 0 (.connect (some 7) 10), .goOn, .child 0 (.arrive .go_on),
    .child 0 (.goOn [48, 46] 20), .child 0 (.arrive (.tcp 7 [48])), .deliver 0, .gatherLog,
    .child 0 (.arrive (.tcp 7 [46])), .child 0 (.exchange 30), .deliver 0, .gatherLog]

theorem statistics_fair_cut : ∃ tester args, testers.run .started cutReplyCounted = some tester ∧
    tester.logger = some args ∧ args.exchErr = 1 ∧
      ¬ Connector.Served 0 (shareOf testers Tester.part 0 .started cutReplyCounted) := by
  obtain ⟨tester, args, child, execution, logging, one, children_eq, child_run⟩ :
      ∃ tester args child, testers.run .started cutReplyCounted = some tester ∧
        tester.logger = some args ∧ args.exchErr = 1 ∧ tester.children = [child] ∧
        connectors.run (.spawned 0) (spoken cutReply) = some child.connector :=
    ⟨_, _, _, rfl, rfl, rfl, rfl, rfl⟩
  obtain ⟨dialogue, assumed, conversation, -⟩ := run_cutReply
  have converses : (Connector.speaker 7 0).Converses (spoken cutReply) dialogue.speaking :=
    ⟨echoService 0, echoService_faithful 0, cutReply, dialogue, assumed, conversation, rfl, rfl⟩
  have same : dialogue.speaking = child.connector :=
    Option.some.inj ((converses.run rfl).symm.trans child_run)
  have converse : ∀ index other, tester.children[index]? = some other →
      (Connector.speaker 7 0).Converses (shareOf testers Tester.part index .started cutReplyCounted)
        other.connector := by
    intro index other found
    rw [children_eq, List.getElem?_singleton] at found
    split at found
    · rename_i first
      obtain rfl := Option.some.inj found
      rw [first, ← same]
      exact converses
    · cases found
  obtain ⟨-, failed, enough, blamed⟩ := statistics_fair execution logging converse
  obtain ⟨index, member⟩ : failed.Nonempty := Finset.card_pos.mp (by omega)
  obtain ⟨inside, broken⟩ := blamed index member
  rw [children_eq, List.length_singleton, Nat.lt_one_iff] at inside
  rw [inside] at broken
  exact ⟨tester, args, execution, logging, one, broken⟩

end Mrps.Erlang
