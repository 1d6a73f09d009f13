import Mrps.Entries
import Mrps.Erlang.Connector

/-!
# Exchanges with a correct echo server

A connector whose peer echoes every byte in order, on a connection that stays open and answers in
time.  The network cuts the echo into segments at will, and each of them is one message.  An
exchange is credited exactly when its echo is not cut.
-/

namespace Mrps.Erlang

open EventSystem

/-- A connector with the part of its echo that has arrived. -/
structure EchoSession where
  connector : Connector
  arrived : List Byte
  /-- How many requests were sent. -/
  requests : Nat
  deriving DecidableEq, Repr

/-- What happens between a connector and a correct echo server. -/
inductive EchoEvent where
  | connected (now : Int)
  /-- The timer's message arrives. -/
  | timer
  /-- The next segment of the echo arrives. -/
  | segment (data : List Byte)
  | goOn (string : List Byte) (now : Int)
  | exchange (now : Int)
  deriving DecidableEq, Repr

namespace EchoSession

/-- A session before the connection is made. -/
def started (startTime : Int) : EchoSession :=
  { connector := .spawned startTime, arrived := [], requests := 0 }

/-- One step of a session on `socket`. -/
def next (socket : Nat) (session : EchoSession) : EchoEvent → Option EchoSession
  | .connected now =>
      (session.connector.next (.connect (some socket) now)).map fun connector =>
        { session with connector }
  | .timer =>
      (session.connector.next (.arrive .go_on)).map fun connector => { session with connector }
  | .segment data =>
      if data ≠ [] ∧ session.arrived ++ data <+: session.connector.output then
        (session.connector.next (.arrive (.tcp socket data))).map fun connector =>
          { session with connector, arrived := session.arrived ++ data }
      else none
  | .goOn string now =>
      (session.connector.next (.goOn string now)).map fun connector =>
        { session with connector, requests := session.requests + 1 }
  | .exchange now =>
      (session.connector.next (.exchange now)).map fun connector => { session with connector }

end EchoSession

/-- The runs of a session on `socket`. -/
def echoSessions (socket : Nat) : EventSystem EchoSession EchoEvent :=
  { step := EchoSession.next socket }

/-! ## Segments in a mailbox -/

/-- The bytes of a segment. -/
def Message.segment : Message → Option (List Byte)
  | .tcp _ data => some data
  | _ => none

/-- The segments of a mailbox, in order. -/
def segments (mailbox : List Message) : List (List Byte) := mailbox.filterMap Message.segment

@[simp] theorem segments_append (front back : List Message) :
    segments (front ++ back) = segments front ++ segments back := List.filterMap_append

/-- The messages an undisturbed session can find. -/
def Undisturbed (socket : Nat) (message : Message) : Prop :=
  message = .go_on ∨ ∃ data, data ≠ [] ∧ message = .tcp socket data

theorem segments_goOn {mailbox : List Message} (silent : ∀ message ∈ mailbox, message = .go_on) :
    segments mailbox = [] := by
  rw [segments, List.filterMap_eq_nil_iff]
  intro message member
  rw [silent message member]
  rfl

theorem segments_receive_goOn {mailbox rest : List Message}
    (taken : Mailbox.receive goOnClause mailbox = some ((), rest)) :
    segments rest = segments mailbox := by
  obtain ⟨before, message, after, rfl, rfl, matched, -⟩ := Mailbox.receive_eq_some taken
  cases message with
  | go_on => simp [segments, List.filterMap_cons, Message.segment]
  | close | tcp _ _ | tcp_closed _ | tcp_error _ _ => cases matched

/-- The receive of an exchange takes the first segment: it is answered when that is the whole
string, and fails when it is not. -/
theorem receive_exchange {socket : Nat} {string : List Byte} {mailbox rest : List Message}
    {clause : Clause} (undisturbed : ∀ message ∈ mailbox, Undisturbed socket message)
    (taken : Mailbox.receive (exchangeClause socket string) mailbox = some (clause, rest)) :
    ∃ data, segments mailbox = data :: segments rest ∧
      clause = if data = string then .answered else .failed := by
  obtain ⟨before, message, after, rfl, rfl, matched, skipped⟩ := Mailbox.receive_eq_some taken
  have silent : ∀ message ∈ before, message = .go_on := by
    intro message member
    rcases undisturbed message (by simp [member]) with rfl | ⟨data, -, rfl⟩
    · rfl
    · have unmatched := skipped _ member
      simp only [exchangeClause, if_true] at unmatched
      split at unmatched <;> cases unmatched
  rcases undisturbed message (by simp) with rfl | ⟨data, -, rfl⟩
  · cases matched
  · refine ⟨data, ?_, ?_⟩
    · rw [segments_append, segments_append, segments_goOn silent]
      rfl
    · simp only [exchangeClause, if_true] at matched
      split at matched <;> simp_all

/-! ## Credited exchanges -/

/-- The string whose echo an exchange waits for. -/
def Wait.due : Wait → List Byte
  | .exchanging _ string _ => string
  | _ => []

/-- An exchange is under way. -/
def Wait.isExchanging : Wait → Bool
  | .exchanging _ _ _ => true
  | _ => false

namespace EchoSession

variable {socket : Nat} {session after : EchoSession} {event : EchoEvent}

/-- No `exchange_error`, and one `exchange_time` for every request but the one under way. -/
def Credited (session : EchoSession) : Prop :=
  .exchange_error ∉ session.connector.log ∧
    (session.connector.log.countP fun message => message matches .exchange_time _) +
      session.connector.wait.isExchanging.toNat = session.requests

instance (session : EchoSession) : Decidable session.Credited :=
  inferInstanceAs (Decidable (_ ∧ _))

/-- The first segment an exchange receives is the whole string. -/
def Unsplit (session : EchoSession) (event : EchoEvent) (_ : EchoSession) : Prop :=
  match event with
  | .exchange _ =>
      (segments session.connector.mailbox).head? = some session.connector.wait.due
  | _ => True

instance : Decidable (session.Unsplit event after) := by
  cases event <;> unfold Unsplit <;> infer_instance

/-- The echo is in step with the exchanges: what arrived is the echo of the earlier exchanges and
the segments in the mailbox, which belong to the exchange under way. -/
structure InStep (socket : Nat) (session : EchoSession) : Prop where
  credited : session.Credited
  undisturbed : ∀ message ∈ session.connector.mailbox, Undisturbed socket message
  echoed : session.arrived <+: session.connector.output
  owed : ∃ front, session.connector.output = front ++ session.connector.wait.due ∧
    session.arrived = front ++ (segments session.connector.mailbox).flatten
  onSocket : ∀ place string sentTime,
    session.connector.wait = .exchanging place string sentTime → place = socket
  paused : ∀ place, session.connector.wait = .pausing place → place = socket

theorem inStep_started (startTime : Int) : InStep socket (started startTime) where
  credited := ⟨by simp [started, Connector.spawned], rfl⟩
  undisturbed := by simp [started, Connector.spawned]
  echoed := List.prefix_rfl
  owed := ⟨[], rfl, rfl⟩
  onSocket := by simp [started, Connector.spawned]
  paused := by simp [started, Connector.spawned]

theorem InStep.connected {startTime now : Int} (inStep : InStep socket session)
    (connecting : session.connector.wait = .connecting startTime) :
    InStep socket
      { session with connector := session.connector.afterConnect startTime now (some socket) } := by
  obtain ⟨credited, undisturbed, echoed, owed, -, -⟩ := inStep
  refine { credited := ?_, undisturbed, echoed, owed := ?_, onSocket := ?_, paused := ?_ }
  · simpa [Credited, Connector.afterConnect, Connector.tell, connecting, Wait.isExchanging]
      using credited
  · simpa [Connector.afterConnect, Connector.tell, connecting, Wait.due] using owed
  · intro place string sentTime exchanging
    cases exchanging
  · intro place pausing
    exact (Wait.pausing.inj pausing).symm

theorem InStep.timer (inStep : InStep socket session) :
    InStep socket { session with
      connector := { session.connector with
        mailbox := session.connector.mailbox ++ [.go_on] } } := by
  refine { inStep with undisturbed := ?_, owed := ?_ }
  · apply forall_mem_concat inStep.undisturbed
    exact .inl rfl
  · obtain ⟨front, output_eq, arrived_eq⟩ := inStep.owed
    exact ⟨front, output_eq, by
      simpa [segments, List.filterMap_cons, Message.segment] using arrived_eq⟩

theorem InStep.segment {data : List Byte} (inStep : InStep socket session) (nonempty : data ≠ [])
    (echoed : session.arrived ++ data <+: session.connector.output) :
    InStep socket { session with
      connector :=
        { session.connector with mailbox := session.connector.mailbox ++ [.tcp socket data] }
      arrived := session.arrived ++ data } := by
  refine { inStep with undisturbed := ?_, echoed, owed := ?_ }
  · apply forall_mem_concat inStep.undisturbed
    exact .inr ⟨data, nonempty, rfl⟩
  · obtain ⟨front, output_eq, arrived_eq⟩ := inStep.owed
    refine ⟨front, output_eq, ?_⟩
    simp [segments, Message.segment, arrived_eq]

theorem InStep.goOn {string : List Byte} {now : Int} {place : Nat} {rest : List Message}
    (inStep : InStep socket session) (pausing : session.connector.wait = .pausing place)
    (taken : Mailbox.receive goOnClause session.connector.mailbox = some ((), rest)) :
    InStep socket { session with
      connector :=
        { session.connector with
          wait := .exchanging place string now
          mailbox := rest
          output := session.connector.output ++ string }
      requests := session.requests + 1 } := by
  refine { credited := ?_, undisturbed := ?_, echoed := ?_, owed := ?_, onSocket := ?_,
           paused := ?_ }
  · simpa [Credited, pausing, Wait.isExchanging] using inStep.credited
  · intro message member
    exact inStep.undisturbed message (Mailbox.mem_of_receive taken message member)
  · exact inStep.echoed.trans (List.prefix_append _ _)
  · obtain ⟨front, output_eq, arrived_eq⟩ := inStep.owed
    simp only [pausing, Wait.due, List.append_nil] at output_eq
    refine ⟨front, by rw [output_eq]; rfl, ?_⟩
    rw [segments_receive_goOn taken]
    exact arrived_eq
  · intro other _ _ exchanging
    obtain ⟨rfl, -, -⟩ := Wait.exchanging.inj exchanging
    exact inStep.paused place pausing
  · intro other still
    cases still

/-- An answered exchange leaves no segment, so the next one starts afresh. -/
theorem InStep.answered {string : List Byte} {sentTime now : Int} {rest : List Message}
    (inStep : InStep socket session)
    (exchanging : session.connector.wait = .exchanging socket string sentTime)
    (kept : ∀ message ∈ rest, message ∈ session.connector.mailbox)
    (whole : segments session.connector.mailbox = string :: segments rest) :
    InStep socket { session with
      connector :=
        Connector.afterExchange { session.connector with mailbox := rest } socket sentTime
        now .answered } := by
  refine { credited := ?_, undisturbed := ?_, echoed := inStep.echoed, owed := ?_, onSocket := ?_,
           paused := ?_ }
  · obtain ⟨flawless, counted⟩ := inStep.credited
    rw [exchanging] at counted
    constructor
    · simpa [Connector.afterExchange, Connector.tell] using flawless
    · simpa [Connector.afterExchange, Connector.tell, Wait.isExchanging] using counted
  · exact fun message member => inStep.undisturbed message (kept message member)
  · obtain ⟨front, output_eq, arrived_eq⟩ := inStep.owed
    rw [exchanging] at output_eq
    rw [whole] at arrived_eq
    refine ⟨front ++ string, ?_, ?_⟩
    · simpa [Connector.afterExchange, Connector.tell, Wait.due] using output_eq
    · simpa [Connector.afterExchange, Connector.tell] using arrived_eq
  · intro other _ _ still
    cases still
  · intro other pausing
    exact (Wait.pausing.inj pausing).symm

/-- An `exchange_error` was sent. -/
def Blamed (session : EchoSession) : Prop := .exchange_error ∈ session.connector.log

/-- A session is blamed exactly by an exchange whose first segment is not the whole string. -/
theorem InStep.next (inStep : InStep socket session)
    (step : session.next socket event = some after) :
    session.Unsplit event after ∧ InStep socket after ∨
      ¬ session.Unsplit event after ∧ after.Blamed := by
  cases event with
  | connected now =>
      obtain ⟨connector, taken, rfl⟩ := Option.map_eq_some_iff.mp step
      rcases Connector.next_cases taken with ⟨startTime, result, _, event_eq, connecting, rfl⟩ |
        ⟨_, event_eq, -⟩ | ⟨_, _, _, _, event_eq, -⟩ | ⟨_, _, _, _, _, _, event_eq, -⟩ |
        ⟨_, _, _, event_eq, -⟩ <;> cases event_eq
      exact .inl ⟨trivial, inStep.connected connecting⟩
  | timer =>
      obtain rfl := Option.some.inj step
      exact .inl ⟨trivial, inStep.timer⟩
  | segment data =>
      simp only [EchoSession.next] at step
      split at step
      · rename_i guard
        obtain ⟨connector, taken, rfl⟩ := Option.map_eq_some_iff.mp step
        obtain rfl := Option.some.inj taken
        exact .inl ⟨trivial, inStep.segment guard.1 guard.2⟩
      · cases step
  | goOn string now =>
      obtain ⟨connector, taken, rfl⟩ := Option.map_eq_some_iff.mp step
      rcases Connector.next_cases taken with ⟨_, _, _, event_eq, -⟩ |
        ⟨_, event_eq, -⟩ | ⟨place, _, _, rest, event_eq, pausing, -, received, rfl⟩ |
        ⟨_, _, _, _, _, _, event_eq, -⟩ | ⟨_, _, _, event_eq, -⟩ <;> cases event_eq
      exact .inl ⟨trivial, inStep.goOn pausing received⟩
  | exchange now =>
      obtain ⟨connector, taken, rfl⟩ := Option.map_eq_some_iff.mp step
      rcases Connector.next_cases taken with ⟨_, _, _, event_eq, -⟩ |
        ⟨_, event_eq, -⟩ | ⟨_, _, _, _, event_eq, -⟩ |
        ⟨place, string, sentTime, _, clause, rest, event_eq, exchanging, received, rfl⟩ |
        ⟨_, _, _, event_eq, -⟩ <;> cases event_eq
      obtain rfl := inStep.onSocket place string sentTime exchanging
      obtain ⟨data, segments_eq, clause_eq⟩ := receive_exchange inStep.undisturbed received
      by_cases whole : data = string
      · rw [whole] at segments_eq
        rw [clause_eq, if_pos whole]
        refine .inl ⟨?_, inStep.answered exchanging (Mailbox.mem_of_receive received) segments_eq⟩
        simp [Unsplit, segments_eq, exchanging, Wait.due]
      · rw [clause_eq, if_neg whole]
        refine .inr ⟨?_, ?_⟩
        · simp [Unsplit, segments_eq, exchanging, Wait.due, whole]
        · simp [Blamed, Connector.afterExchange, Connector.tell]

theorem Blamed.next (blamed : session.Blamed) (step : session.next socket event = some after) :
    after.Blamed := by
  have grows : session.connector.log <+: after.connector.log := by
    cases event with
    | connected | goOn | exchange =>
        obtain ⟨connector, taken, rfl⟩ := Option.map_eq_some_iff.mp step
        exact Connector.log_grows taken
    | timer =>
        obtain rfl := Option.some.inj step
        exact List.prefix_rfl
    | segment data =>
        simp only [EchoSession.next] at step
        split at step
        · obtain ⟨connector, taken, rfl⟩ := Option.map_eq_some_iff.mp step
          exact Connector.log_grows taken
        · cases step
  exact grows.subset blamed

theorem InStep.flatten_segments (inStep : InStep socket session) :
    (segments session.connector.mailbox).flatten <+: session.connector.wait.due := by
  obtain ⟨front, output_eq, arrived_eq⟩ := inStep.owed
  have echoed := inStep.echoed
  rw [output_eq, arrived_eq] at echoed
  exact (List.prefix_append_right_inj front).mp echoed

/-- With a correct echo server, exactly the runs in which every exchange receives its echo uncut
credit one `exchange_time` to every request but the one under way and blame nobody; there the
segments that wait are always part of the echo under way. -/
theorem correct_echo_iff (socket : Nat) (startTime : Int) (events : List EchoEvent)
    (session : EchoSession)
    (execution : (echoSessions socket).run (started startTime) events = some session) :
    (session.Credited ↔ (echoSessions socket).Along Unsplit (started startTime) events) ∧
    ((echoSessions socket).Along Unsplit (started startTime) events →
      (segments session.connector.mailbox).flatten <+: session.connector.wait.due) := by
  have stays : (echoSessions socket).Preserves Blamed := fun _ _ _ blamed step => blamed.next step
  have inStep (unsplit : (echoSessions socket).Along Unsplit (started startTime) events) :
      InStep socket session := by
    refine unsplit.invariant ?_ (inStep_started startTime) execution
    intro state event next inStep step here
    rcases inStep.next step with ⟨-, after_inStep⟩ | ⟨split, -⟩
    · exact after_inStep
    · exact absurd here split
  refine ⟨⟨?_, fun unsplit => (inStep unsplit).credited⟩,
    fun unsplit => (inStep unsplit).flatten_segments⟩
  intro credited
  have start : InStep socket (started startTime) := inStep_started startTime
  refine along_of_flawless stays ?_ start execution credited.1
  intro state event next inStep step
  exact (inStep.next step).imp_right And.right

/-- One exchange of `string` whose echo arrives as `parts`. -/
def oneExchange (string : List Byte) (parts : List (List Byte)) : List EchoEvent :=
  [.connected 10, .timer, .goOn string 20] ++ parts.map .segment ++ [.exchange 30]

theorem correct_echo_iff_whole : ∃ session,
    (echoSessions 7).run (started 0) (oneExchange [48, 46] [[48, 46]]) = some session ∧
      session.Credited :=
  ⟨_, rfl, (correct_echo_iff 7 0 (oneExchange [48, 46] [[48, 46]]) _ rfl).1.mpr (by decide)⟩

/-- An echo cut in two is blamed on the server. -/
theorem split_echo_blamed : ∃ session,
    (echoSessions 7).run (started 0) (oneExchange [48, 46] [[48], [46]]) = some session ∧
      session.arrived = session.connector.output ∧ ¬ session.Credited ∧
      session.connector.log = [.connect_time 10, .exchange_error] :=
  ⟨_, rfl, rfl, by decide, rfl⟩

end EchoSession

end Mrps.Erlang
