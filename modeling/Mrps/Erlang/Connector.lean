import Mrps.EventSystem
import Mrps.Mailbox
import Mrps.Runtime

/-!
# One connector of `client.erl`

`connector/3` with the recursion of `sporadic_exchange/2`, as a process that stops at each of its
waits.  Its messages to the logger are kept in the order of sending.
-/

namespace Mrps.Erlang

open EventSystem

/-- What a connector finds in its mailbox. -/
inductive Message where
  | go_on
  | close
  | tcp (socket : Nat) (data : List Byte)
  | tcp_closed (socket : Nat)
  | tcp_error (socket reason : Nat)
  deriving DecidableEq, Repr

/-- What the logger finds in its mailbox. -/
inductive LogMessage where
  | timeout
  | log_stamp
  | connect_time (timeMcs : Int)
  | connect_error
  | exchange_time (timeMcs : Int)
  | exchange_error
  deriving DecidableEq, Repr

/-- The waits of a connector. -/
inductive Wait where
  /-- In `gen_tcp:connect`, called at `startTime`. -/
  | connecting (startTime : Int)
  /-- In `receive go_on`. -/
  | pausing (socket : Nat)
  /-- In the `receive` after `gen_tcp:send` of `string`. -/
  | exchanging (socket : Nat) (string : List Byte) (sentTime : Int)
  /-- After the `receive`, or after a failed `connect`. -/
  | finished
  deriving DecidableEq, Repr

/-- The state of a connector. -/
structure Connector where
  wait : Wait
  mailbox : List Message
  /-- The bytes given to `gen_tcp:send`. -/
  output : List Byte
  /-- The messages sent to the logger. -/
  log : List LogMessage
  deriving DecidableEq, Repr

/-- The clauses of the `receive` of an exchange. -/
inductive Clause where
  | done
  | answered
  | failed
  deriving DecidableEq, Repr

/-- The first clause of the `receive` that matches a message. -/
def exchangeClause (socket : Nat) (string : List Byte) : Message → Option Clause
  | .close => some .done
  | .tcp from_socket data =>
      if from_socket = socket then
        if data = string then some .answered else some .failed
      else none
  | .tcp_closed from_socket => if from_socket = socket then some .failed else none
  | .tcp_error from_socket _ => if from_socket = socket then some .failed else none
  | .go_on => none

/-- The clause of `receive go_on`. -/
def goOnClause : Message → Option Unit
  | .go_on => some ()
  | _ => none

/-- What can happen to a connector. -/
inductive ConnectorEvent where
  /-- `gen_tcp:connect` returns a socket or an error at `now`. -/
  | connect (result : Option Nat) (now : Int)
  /-- A message arrives. -/
  | arrive (message : Message)
  /-- `receive go_on` ends; `string` is the random string, sent at `now`. -/
  | goOn (string : List Byte) (now : Int)
  /-- The `receive` of an exchange takes a message at `now`. -/
  | exchange (now : Int)
  /-- The `receive` of an exchange times out. -/
  | timeout
  deriving DecidableEq, Repr

namespace Connector

/-- A spawned connector after its first call of `tstamp`. -/
def spawned (startTime : Int) : Connector :=
  { wait := .connecting startTime, mailbox := [], output := [], log := [] }

/-- `Logger ! message`. -/
def tell (connector : Connector) (message : LogMessage) : Connector :=
  { connector with log := connector.log ++ [message] }

/-- `connector/3` after `gen_tcp:connect`. -/
def afterConnect (connector : Connector) (startTime now : Int) (result : Option Nat) : Connector :=
  match result with
  | some socket => { connector.tell (.connect_time (now - startTime)) with wait := .pausing socket }
  | none => { connector.tell .connect_error with wait := .finished }

/-- `sporadic_exchange/2` after the `receive` of an exchange matched a clause. -/
def afterExchange (connector : Connector) (socket : Nat) (sentTime now : Int) (clause : Clause) :
    Connector :=
  match clause with
  | .done => { connector with wait := .finished }
  | .answered => { connector.tell (.exchange_time (now - sentTime)) with wait := .pausing socket }
  | .failed => { connector.tell .exchange_error with wait := .finished }

/-- One step of a connector.  The random string is never empty, and a `receive` times out only
while nothing in the mailbox matches. -/
def next (connector : Connector) : ConnectorEvent → Option Connector
  | .connect result now =>
      match connector.wait with
      | .connecting startTime => some (connector.afterConnect startTime now result)
      | _ => none
  | .arrive message => some { connector with mailbox := connector.mailbox ++ [message] }
  | .goOn string now =>
      match connector.wait with
      | .pausing socket =>
          if string = [] then none else
            (Mailbox.receive goOnClause connector.mailbox).map fun taken =>
              { connector with
                wait := .exchanging socket string now
                mailbox := taken.2
                output := connector.output ++ string }
      | _ => none
  | .exchange now =>
      match connector.wait with
      | .exchanging socket string sentTime =>
          (Mailbox.receive (exchangeClause socket string) connector.mailbox).map fun taken =>
            afterExchange { connector with mailbox := taken.2 } socket sentTime now taken.1
      | _ => none
  | .timeout =>
      match connector.wait with
      | .exchanging socket string _ =>
          if Mailbox.receive (exchangeClause socket string) connector.mailbox = none then
            some { connector.tell .exchange_error with wait := .finished }
          else none
      | _ => none

theorem next_cases {connector after : Connector} {event : ConnectorEvent}
    (step : connector.next event = some after) :
    (∃ startTime result now, event = .connect result now ∧
      connector.wait = .connecting startTime ∧
      after = connector.afterConnect startTime now result) ∨
    (∃ message, event = .arrive message ∧
      after = { connector with mailbox := connector.mailbox ++ [message] }) ∨
    (∃ socket string now rest, event = .goOn string now ∧ connector.wait = .pausing socket ∧
      string ≠ [] ∧ Mailbox.receive goOnClause connector.mailbox = some ((), rest) ∧
      after = { connector with
        wait := .exchanging socket string now
        mailbox := rest
        output := connector.output ++ string }) ∨
    (∃ socket string sentTime now clause rest, event = .exchange now ∧
      connector.wait = .exchanging socket string sentTime ∧
      Mailbox.receive (exchangeClause socket string) connector.mailbox = some (clause, rest) ∧
      after = afterExchange { connector with mailbox := rest } socket sentTime now clause) ∨
    ∃ socket string sentTime, event = .timeout ∧
      connector.wait = .exchanging socket string sentTime ∧
      after = { connector.tell .exchange_error with wait := .finished } := by
  cases event with
  | connect result now =>
      simp only [next] at step
      split at step
      · rename_i startTime wait_eq
        exact .inl ⟨startTime, result, now, rfl, wait_eq, (Option.some.inj step).symm⟩
      · cases step
  | arrive message => exact .inr (.inl ⟨message, rfl, (Option.some.inj step).symm⟩)
  | goOn string now =>
      simp only [next] at step
      split at step
      · rename_i socket wait_eq
        split at step
        · cases step
        · rename_i nonempty
          obtain ⟨⟨_, rest⟩, taken, after_eq⟩ := Option.map_eq_some_iff.mp step
          exact .inr (.inr (.inl
            ⟨socket, string, now, rest, rfl, wait_eq, nonempty, taken, after_eq.symm⟩))
      · cases step
  | exchange now =>
      simp only [next] at step
      split at step
      · rename_i socket string sentTime wait_eq
        obtain ⟨⟨clause, rest⟩, taken, after_eq⟩ := Option.map_eq_some_iff.mp step
        exact .inr (.inr (.inr (.inl ⟨socket, string, sentTime, now, clause, rest, rfl, wait_eq,
          taken, after_eq.symm⟩)))
      · cases step
  | timeout =>
      simp only [next] at step
      split at step
      · rename_i socket string sentTime wait_eq
        split at step
        · exact .inr (.inr (.inr (.inr ⟨socket, string, sentTime, rfl, wait_eq,
            (Option.some.inj step).symm⟩)))
        · cases step
      · cases step

theorem log_grows {connector after : Connector} {event : ConnectorEvent}
    (step : connector.next event = some after) : connector.log <+: after.log := by
  rcases next_cases step with ⟨startTime, result, now, -, -, rfl⟩ | ⟨message, -, rfl⟩ |
    ⟨socket, string, now, rest, -, -, -, -, rfl⟩ |
    ⟨socket, string, sentTime, now, clause, rest, -, -, -, rfl⟩ |
    ⟨socket, string, sentTime, -, -, rfl⟩
  · cases result <;> exact List.prefix_append _ _
  · exact List.prefix_rfl
  · exact List.prefix_rfl
  · cases clause with
    | done => exact List.prefix_rfl
    | answered => exact List.prefix_append _ _
    | failed => exact List.prefix_append _ _
  · exact List.prefix_append _ _

end Connector

/-- The runs of a connector. -/
def connectors : EventSystem Connector ConnectorEvent := { step := Connector.next }

end Mrps.Erlang
