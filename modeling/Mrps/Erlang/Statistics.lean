import Mrps.Entries
import Mrps.Erlang.Connector

/-!
# The statistics of `client.erl`

`main/1` as message-passing processes: the starter, the connectors it spawned and the logger with
its mailbox.  A message is delivered after the messages the same connector sent before it, and
`gather_log/6` takes the messages in the order of the mailbox.
-/

namespace Mrps.Erlang

open EventSystem

/-- `?MAX_CHILDREN`. -/
def MAX_CHILDREN : Nat := 10000

/-! ## `gather_log/6` -/

/-- The arguments of `gather_log/6`. -/
structure GatherLog where
  chld : Nat
  conErr : Nat
  exchErr : Nat
  conSum : Int
  latSum : Int
  msgs : Nat
  deriving DecidableEq, Repr

namespace GatherLog

/-- The arguments of its first call. -/
def start : GatherLog :=
  { chld := 0, conErr := 0, exchErr := 0, conSum := 0, latSum := 0, msgs := 0 }

/-- The arguments of its next call; after `timeout` there is none. -/
def receive (args : GatherLog) : LogMessage → Option GatherLog
  | .timeout => none
  | .log_stamp => some args
  | .connect_time timeMcs =>
      some { args with chld := args.chld + 1, conSum := args.conSum + timeMcs }
  | .connect_error => some { args with chld := args.chld + 1, conErr := args.conErr + 1 }
  | .exchange_time timeMcs =>
      some { args with latSum := args.latSum + timeMcs, msgs := args.msgs + 1 }
  | .exchange_error => some { args with exchErr := args.exchErr + 1 }

end GatherLog

namespace LogMessage

/-- The time of a `connect_time`. -/
def connectTime : LogMessage → Option Int
  | .connect_time timeMcs => some timeMcs
  | _ => none

/-- The time of an `exchange_time`. -/
def exchangeTime : LogMessage → Option Int
  | .exchange_time timeMcs => some timeMcs
  | _ => none

end LogMessage

/-- The arguments after a list of messages, each taken from the list as a whole. -/
def tally (messages : List LogMessage) : GatherLog :=
  { chld := (messages.filterMap LogMessage.connectTime).length + messages.count .connect_error
    conErr := messages.count .connect_error
    exchErr := messages.count .exchange_error
    conSum := (messages.filterMap LogMessage.connectTime).sum
    latSum := (messages.filterMap LogMessage.exchangeTime).sum
    msgs := (messages.filterMap LogMessage.exchangeTime).length }

theorem receive_tally {messages : List LogMessage} {message : LogMessage} {next : GatherLog}
    (received : (tally messages).receive message = some next) :
    next = tally (messages ++ [message]) := by
  cases message with
  | timeout => cases received
  | log_stamp | connect_time _ | connect_error | exchange_time _ | exchange_error =>
      obtain rfl := Option.some.inj received
      simp [tally, List.filterMap_cons, LogMessage.connectTime, LogMessage.exchangeTime,
        add_assoc, add_comm, add_left_comm]

theorem tally_perm {left right : List LogMessage} (perm : left.Perm right) :
    tally left = tally right := by
  have connects := perm.filterMap LogMessage.connectTime
  have exchanges := perm.filterMap LogMessage.exchangeTime
  simp only [tally, connects.length_eq, connects.sum_eq, exchanges.length_eq, exchanges.sum_eq,
    perm.count_eq]

theorem tally_timers {messages : List LogMessage}
    (timers : ∀ message ∈ messages, message = .timeout ∨ message = .log_stamp) :
    tally messages = .start := by
  induction messages with
  | nil => rfl
  | cons message messages ih =>
      have later := ih fun other member => timers other (List.mem_cons_of_mem message member)
      rcases timers message List.mem_cons_self with rfl | rfl <;>
        simpa [tally, List.filterMap_cons, LogMessage.connectTime, LogMessage.exchangeTime]
          using later

/-! ## What a connector says -/

/-- A connector's messages: nothing yet, a single `connect_error`, or one `connect_time` with any
number of `exchange_time` behind it and at most one `exchange_error` at the end. -/
inductive Spoken : List LogMessage → Prop where
  | nothing : Spoken []
  | refused : Spoken [.connect_error]
  | exchanged (time : Int) (times : List Int) :
      Spoken (.connect_time time :: times.map .exchange_time)
  | failed (time : Int) (times : List Int) :
      Spoken (.connect_time time :: (times.map .exchange_time ++ [.exchange_error]))

/-- What a connector has said at each of its waits. -/
def Connector.Speaks (connector : Connector) : Prop :=
  match connector.wait with
  | .connecting _ => connector.log = []
  | .pausing _ | .exchanging _ _ _ =>
      ∃ time times, connector.log = .connect_time time :: List.map .exchange_time times
  | .finished => Spoken connector.log

theorem Connector.Speaks.spoken {connector : Connector} (speaks : connector.Speaks) :
    Spoken connector.log := by
  rw [Connector.Speaks] at speaks
  split at speaks
  · rw [speaks]
    exact .nothing
  · obtain ⟨time, times, log_eq⟩ := speaks
    rw [log_eq]
    exact .exchanged time times
  · obtain ⟨time, times, log_eq⟩ := speaks
    rw [log_eq]
    exact .exchanged time times
  · exact speaks

theorem Connector.Speaks.next {connector after : Connector} {event : ConnectorEvent}
    (speaks : connector.Speaks) (step : connector.next event = some after) : after.Speaks := by
  rcases next_cases step with ⟨startTime, result, now, -, wait_eq, rfl⟩ | ⟨message, -, rfl⟩ |
    ⟨socket, string, now, rest, -, wait_eq, -, -, rfl⟩ |
    ⟨socket, string, sentTime, now, clause, rest, -, wait_eq, -, rfl⟩ |
    ⟨socket, string, sentTime, -, wait_eq, rfl⟩
  · have silent : connector.log = [] := by simpa [Speaks, wait_eq] using speaks
    cases result with
    | some socket =>
        exact ⟨now - startTime, [], by simp [afterConnect, tell, silent]⟩
    | none =>
        have last : Spoken ([] ++ [.connect_error]) := .refused
        simpa [Speaks, afterConnect, tell, silent] using last
  · exact speaks
  · simpa [Speaks, wait_eq] using speaks
  · obtain ⟨time, times, log_eq⟩ :
        ∃ time times, connector.log = .connect_time time :: List.map .exchange_time times := by
      simpa [Speaks, wait_eq] using speaks
    cases clause with
    | done =>
        have exchanged := Spoken.exchanged time times
        simpa [Speaks, afterExchange, log_eq] using exchanged
    | answered =>
        exact ⟨time, times ++ [now - sentTime], by simp [afterExchange, tell, log_eq]⟩
    | failed =>
        have failed := Spoken.failed time times
        simpa [Speaks, afterExchange, tell, log_eq] using failed
  · obtain ⟨time, times, log_eq⟩ :
        ∃ time times, connector.log = .connect_time time :: List.map .exchange_time times := by
      simpa [Speaks, wait_eq] using speaks
    have failed := Spoken.failed time times
    simpa [Speaks, tell, log_eq] using failed

theorem Spoken.take {log : List LogMessage} (spoken : Spoken log) (count : Nat) :
    Spoken (log.take count) := by
  cases count with
  | zero => exact .nothing
  | succ count =>
      cases spoken with
      | nothing => exact .nothing
      | refused => simpa using Spoken.refused
      | exchanged time times =>
          rw [List.take_succ_cons, ← List.map_take]
          exact .exchanged time _
      | failed time times =>
          rw [List.take_succ_cons]
          rcases Nat.lt_or_ge times.length count with beyond | within
          · rw [List.take_of_length_le (by simp; omega)]
            exact .failed time times
          · rw [List.take_append_of_le_length (by simpa using within), ← List.map_take]
            exact .exchanged time _

theorem count_exchanges {message : LogMessage} (other : ∀ time, message ≠ .exchange_time time)
    (times : List Int) : (times.map LogMessage.exchange_time).count message = 0 := by
  rw [List.count_eq_zero]
  intro member
  obtain ⟨time, -, message_eq⟩ := List.mem_map.mp member
  exact other time message_eq.symm

theorem Spoken.tally {log : List LogMessage} (spoken : Spoken log) :
    (tally log).exchErr ≤ (log.filterMap LogMessage.connectTime).length ∧ (tally log).chld ≤ 1 := by
  cases spoken with
  | nothing => decide
  | refused => decide
  | exchanged time times =>
      simp [Erlang.tally, List.filterMap_cons, LogMessage.connectTime, count_exchanges]
  | failed time times =>
      simp [Erlang.tally, List.filterMap_cons, LogMessage.connectTime, count_exchanges]

/-! ## All processes -/

/-- A connector with the number of its messages that were delivered. -/
structure Child where
  connector : Connector
  delivered : Nat
  deriving DecidableEq, Repr

/-- The processes of the tester; a message of the logger's mailbox names its sender, `none` for the
timers. -/
structure Tester where
  /-- `Running` of the starter. -/
  running : Nat
  /-- The starter waits for `go_on`. -/
  waiting : Bool
  children : List Child
  mailbox : List (Option Nat × LogMessage)
  /-- The logger's arguments, until it took `timeout`. -/
  logger : Option GatherLog
  /-- What the logger took from its mailbox, up to `timeout`. -/
  received : List (Option Nat × LogMessage)
  deriving DecidableEq, Repr

/-- What can happen to the tester. -/
inductive TesterEvent where
  /-- The starter spawns a connector, whose first `tstamp` is `startTime`. -/
  | spawn (startTime : Int)
  /-- The starter receives `go_on`. -/
  | goOn
  | child (index : Nat) (event : ConnectorEvent)
  /-- The next message of a connector reaches the mailbox. -/
  | deliver (index : Nat)
  | sendTimeout
  | sendLogStamp
  /-- The logger takes the next message. -/
  | gatherLog
  deriving DecidableEq, Repr

namespace Tester

/-- The tester before its starter has done anything. -/
def started : Tester :=
  { running := 0
    waiting := false
    children := []
    mailbox := []
    logger := some .start
    received := [] }

/-- One step of the tester. -/
def next (tester : Tester) : TesterEvent → Option Tester
  | .spawn startTime =>
      if tester.waiting = false ∧ tester.running ≠ MAX_CHILDREN then
        some { tester with
          waiting := true
          children := tester.children ++ [{ connector := .spawned startTime, delivered := 0 }] }
      else none
  | .goOn =>
      if tester.waiting = true then
        some { tester with waiting := false, running := tester.running + 1 }
      else none
  | .child index event =>
      tester.children[index]?.bind fun child =>
        (child.connector.next event).map fun connector =>
          { tester with children := tester.children.set index { child with connector } }
  | .deliver index =>
      tester.children[index]?.bind fun child =>
        child.connector.log[child.delivered]?.map fun message =>
          { tester with
            children :=
              tester.children.set index { child with delivered := child.delivered + 1 }
            mailbox := tester.mailbox ++ [(some index, message)] }
  | .sendTimeout => some { tester with mailbox := tester.mailbox ++ [(none, .timeout)] }
  | .sendLogStamp => some { tester with mailbox := tester.mailbox ++ [(none, .log_stamp)] }
  | .gatherLog =>
      match tester.mailbox, tester.logger with
      | message :: rest, some args =>
          some { tester with
            mailbox := rest
            logger := args.receive message.2
            received := tester.received ++ [message] }
      | _, _ => none

end Tester

/-- The runs of the tester. -/
def testers : EventSystem Tester TesterEvent := { step := Tester.next }

theorem Spoken.of_prefix {front log : List LogMessage} (spoken : Spoken log)
    (is_front : front <+: log) : Spoken front := by
  rw [List.prefix_iff_eq_take.mp is_front]
  exact spoken.take _

namespace Tester

variable {tester after : Tester} {event : TesterEvent}

/-- Everything that reached the mailbox. -/
def history (tester : Tester) : List (Option Nat × LogMessage) := tester.received ++ tester.mailbox

/-- How many connectors the starter has spawned. -/
def spawned (tester : Tester) : Nat := tester.running + tester.waiting.toNat

/-- Every connector keeps to its grammar, what reached the mailbox of it is a front part of what it
said, and the logger's arguments are the tally of what it took. -/
structure Sound (tester : Tester) : Prop where
  counted : tester.children.length = tester.spawned
  bounded : tester.spawned ≤ MAX_CHILDREN
  speaks : ∀ child ∈ tester.children, child.connector.Speaks
  said : ∀ child ∈ tester.children, child.delivered ≤ child.connector.log.length
  streams : ∀ index child, tester.children[index]? = some child →
    Mailbox.ofSender (some index) tester.history = child.connector.log.take child.delivered
  known : ∀ message ∈ tester.history, ∀ sender ∈ message.1, sender < tester.children.length
  timers : ∀ message ∈ Mailbox.ofSender none tester.history,
    message = .timeout ∨ message = .log_stamp
  logged : ∀ args ∈ tester.logger, args = tally (tester.received.map Prod.snd)

theorem sound_started : started.Sound where
  counted := rfl
  bounded := by decide
  speaks := by simp [started]
  said := by simp [started]
  streams := by simp [started]
  known := by simp [started, history]
  timers := by simp [started, history]
  logged := by simp [started, tally, GatherLog.start]

theorem Sound.spawn {startTime : Int} (sound : tester.Sound) (idle : tester.waiting = false)
    (more : tester.running ≠ MAX_CHILDREN) :
    Sound { tester with
      waiting := true
      children := tester.children ++ [{ connector := .spawned startTime, delivered := 0 }] } := by
  have counted := sound.counted
  have bounded := sound.bounded
  simp only [spawned, idle, Bool.toNat_false, add_zero] at counted bounded
  refine { sound with counted := ?_, bounded := ?_, speaks := ?_, said := ?_, streams := ?_,
                      known := ?_ }
  · simp [spawned, counted]
  · simp only [spawned, Bool.toNat_true]
    omega
  · exact forall_mem_concat sound.speaks rfl
  · apply forall_mem_concat sound.said
    exact Nat.zero_le _
  · intro index child found
    rcases getElem?_concat_cases found with old | ⟨index_eq, rfl⟩
    · exact sound.streams index child old
    · have nothing : Mailbox.ofSender (some index) tester.history = [] := by
        rw [Mailbox.ofSender, List.map_eq_nil_iff, List.filter_eq_nil_iff]
        intro message member from_index
        have inside := sound.known message member index (by simpa using from_index)
        omega
      exact nothing
  · intro message member sender sent
    have inside := sound.known message member sender sent
    simp only [List.length_append, List.length_singleton]
    omega

theorem Sound.child {index : Nat} {child : Child} {step_event : ConnectorEvent}
    {connector : Connector} (sound : tester.Sound) (found : tester.children[index]? = some child)
    (step : child.connector.next step_event = some connector) :
    Sound { tester with children := tester.children.set index { child with connector } } := by
  have member : child ∈ tester.children := List.mem_of_getElem? found
  have grows := Connector.log_grows step
  have said := sound.said child member
  refine { sound with counted := ?_, speaks := ?_, said := ?_, streams := ?_, known := ?_ }
  · exact List.length_set.trans sound.counted
  · apply forall_mem_set sound.speaks
    exact (sound.speaks child member).next step
  · apply forall_mem_set sound.said
    exact said.trans grows.length_le
  · intro place other other_found
    rcases getElem?_set_cases other_found with ⟨rfl, rfl⟩ | ⟨-, old⟩
    · obtain ⟨more, log_eq⟩ := grows
      rw [← log_eq, List.take_append_of_le_length said]
      exact sound.streams place child found
    · exact sound.streams place other old
  · intro message message_member sender sent
    exact (sound.known message message_member sender sent).trans_eq List.length_set.symm

theorem Sound.deliver {index : Nat} {child : Child} {message : LogMessage} (sound : tester.Sound)
    (found : tester.children[index]? = some child)
    (sent : child.connector.log[child.delivered]? = some message) :
    Sound { tester with
      children := tester.children.set index { child with delivered := child.delivered + 1 }
      mailbox := tester.mailbox ++ [(some index, message)] } := by
  have member : child ∈ tester.children := List.mem_of_getElem? found
  obtain ⟨undelivered, message_eq⟩ := List.getElem?_eq_some_iff.mp sent
  have history_eq : history { tester with
      children := tester.children.set index { child with delivered := child.delivered + 1 }
      mailbox := tester.mailbox ++ [(some index, message)] } =
        tester.history ++ [(some index, message)] := by
    simp [history]
  refine { sound with counted := ?_, speaks := ?_, said := ?_, streams := ?_, known := ?_,
                      timers := ?_ }
  · exact List.length_set.trans sound.counted
  · apply forall_mem_set sound.speaks
    exact sound.speaks child member
  · apply forall_mem_set sound.said
    exact undelivered
  · intro place other other_found
    rw [history_eq, Mailbox.ofSender_append]
    rcases getElem?_set_cases other_found with ⟨rfl, rfl⟩ | ⟨elsewhere, old⟩
    · rw [sound.streams place child found, Mailbox.ofSender_cons_self, Mailbox.ofSender_nil,
        List.take_succ_eq_append_getElem undelivered, message_eq]
    · rw [sound.streams place other old,
        Mailbox.ofSender_cons_of_ne (by simpa using elsewhere.symm), Mailbox.ofSender_nil,
        List.append_nil]
  · intro other other_member sender other_sent
    rw [history_eq] at other_member
    rw [List.length_set]
    rcases List.mem_append.mp other_member with old | new
    · exact sound.known other old sender other_sent
    · rw [List.mem_singleton.mp new, Option.mem_some_iff] at other_sent
      rw [← other_sent]
      exact (List.getElem?_eq_some_iff.mp found).1
  · rw [history_eq, Mailbox.ofSender_append, Mailbox.ofSender_cons_of_ne (by simp),
      Mailbox.ofSender_nil, List.append_nil]
    exact sound.timers

theorem Sound.timer {message : LogMessage} (sound : tester.Sound)
    (of_timer : message = .timeout ∨ message = .log_stamp) :
    Sound { tester with mailbox := tester.mailbox ++ [(none, message)] } := by
  have history_eq : history { tester with mailbox := tester.mailbox ++ [(none, message)] } =
      tester.history ++ [(none, message)] := by
    simp [history]
  refine { sound with streams := ?_, known := ?_, timers := ?_ }
  · intro index child found
    rw [history_eq, Mailbox.ofSender_append, Mailbox.ofSender_cons_of_ne (by simp),
      Mailbox.ofSender_nil, List.append_nil]
    exact sound.streams index child found
  · intro other member sender sent
    rw [history_eq] at member
    rcases List.mem_append.mp member with old | new
    · exact sound.known other old sender sent
    · rw [List.mem_singleton.mp new] at sent
      cases sent
  · rw [history_eq, Mailbox.ofSender_append, Mailbox.ofSender_cons_self]
    exact forall_mem_concat sound.timers of_timer

theorem Sound.gatherLog {message : Option Nat × LogMessage} {rest : List (Option Nat × LogMessage)}
    {args : GatherLog} (sound : tester.Sound) (mailbox_eq : tester.mailbox = message :: rest)
    (logging : tester.logger = some args) :
    Sound { tester with
      mailbox := rest
      logger := args.receive message.2
      received := tester.received ++ [message] } := by
  have history_eq : history { tester with
      mailbox := rest
      logger := args.receive message.2
      received := tester.received ++ [message] } = tester.history := by
    simp [history, mailbox_eq]
  refine { sound with streams := ?_, known := ?_, timers := ?_, logged := ?_ }
  · rw [history_eq]
    exact sound.streams
  · rw [history_eq]
    exact sound.known
  · rw [history_eq]
    exact sound.timers
  · intro next received
    rw [sound.logged args logging] at received
    rw [List.map_append]
    exact receive_tally received

theorem Sound.next (sound : tester.Sound) (step : tester.next event = some after) :
    after.Sound := by
  cases event with
  | spawn startTime =>
      simp only [Tester.next] at step
      split at step
      · rename_i guard
        obtain rfl := Option.some.inj step
        exact sound.spawn guard.1 guard.2
      · cases step
  | goOn =>
      simp only [Tester.next] at step
      split at step
      · rename_i waiting
        obtain rfl := Option.some.inj step
        have counted := sound.counted
        have bounded := sound.bounded
        simp only [spawned, waiting, Bool.toNat_true] at counted bounded
        exact { sound with
          counted := by simpa [spawned] using counted
          bounded := by simpa [spawned] using bounded }
      · cases step
  | child index child_event =>
      obtain ⟨child, found, taken⟩ := Option.bind_eq_some_iff.mp step
      obtain ⟨connector, child_step, rfl⟩ := Option.map_eq_some_iff.mp taken
      exact sound.child found child_step
  | deliver index =>
      obtain ⟨child, found, taken⟩ := Option.bind_eq_some_iff.mp step
      obtain ⟨message, sent, rfl⟩ := Option.map_eq_some_iff.mp taken
      exact sound.deliver found sent
  | sendTimeout =>
      obtain rfl := Option.some.inj step
      exact sound.timer (.inl rfl)
  | sendLogStamp =>
      obtain rfl := Option.some.inj step
      exact sound.timer (.inr rfl)
  | gatherLog =>
      simp only [Tester.next] at step
      split at step
      · rename_i message rest args mailbox_eq logging
        obtain rfl := Option.some.inj step
        exact sound.gatherLog mailbox_eq logging
      · cases step

theorem Sound.spoken (sound : tester.Sound) {index : Nat} {child : Child}
    (found : tester.children[index]? = some child) :
    Spoken (Mailbox.ofSender (some index) tester.received) := by
  have spoken := (sound.speaks child (List.mem_of_getElem? found)).spoken
  apply spoken.of_prefix
  have stream := sound.streams index child found
  rw [history, Mailbox.ofSender_append] at stream
  have front : Mailbox.ofSender (some index) tester.received <+:
      child.connector.log.take child.delivered := ⟨_, stream⟩
  exact front.trans (List.take_prefix _ _)

/-- What adds up over the messages the logger took adds up over its connectors. -/
theorem Sound.measure (sound : tester.Sound) (measure : List LogMessage → Nat)
    (nil : measure [] = 0)
    (cons : ∀ message messages,
      measure (message :: messages) = measure [message] + measure messages)
    (of_timers : ∀ messages, tally messages = .start → measure messages = 0) :
    measure (tester.received.map Prod.snd) =
      ∑ index ∈ Finset.range tester.children.length,
        measure (Mailbox.ofSender (some index) tester.received) := by
  have known : ∀ message ∈ tester.received, ∀ sender ∈ message.1,
      sender < tester.children.length := fun message member =>
    sound.known message (List.mem_append_left _ member)
  have timers : ∀ message ∈ Mailbox.ofSender none tester.received,
      message = .timeout ∨ message = .log_stamp := by
    intro message member
    apply sound.timers message
    rw [history, Mailbox.ofSender_append]
    exact List.mem_append_left _ member
  rw [Mailbox.measure_eq_sum nil cons known, of_timers _ (tally_timers timers), zero_add]

/-- Failed exchanges and children are counted connector by connector. -/
theorem Sound.bounds (sound : tester.Sound) :
    (tally (tester.received.map Prod.snd)).exchErr ≤
        ((tester.received.map Prod.snd).filterMap LogMessage.connectTime).length ∧
      (tally (tester.received.map Prod.snd)).chld ≤ tester.children.length := by
  have of_index : ∀ index ∈ Finset.range tester.children.length,
      Spoken (Mailbox.ofSender (some index) tester.received) := fun index inside =>
    sound.spoken (List.getElem?_eq_getElem (Finset.mem_range.mp inside))
  have failures := sound.measure (fun messages => (tally messages).exchErr) rfl
    (fun message messages => by simp [tally, List.count_cons, add_comm])
    (fun messages start => by simp [start, GatherLog.start])
  have connected := sound.measure (fun messages =>
    (messages.filterMap LogMessage.connectTime).length)
    rfl
    (fun message messages => by
      cases message <;> simp [List.filterMap_cons, LogMessage.connectTime, add_comm])
    (fun messages start => by
      have chld_eq := congrArg GatherLog.chld start
      simp only [tally, GatherLog.start] at chld_eq
      omega)
  have children := sound.measure (fun messages => (tally messages).chld) rfl
    (fun message messages => by
      cases message <;>
        simp [tally, List.filterMap_cons, LogMessage.connectTime] <;> omega)
    (fun messages start => by simp [start, GatherLog.start])
  constructor
  · rw [failures, connected]
    exact Finset.sum_le_sum fun index inside => (of_index index inside).tally.1
  · rw [children]
    have one_each := Finset.sum_le_sum fun index inside => (of_index index inside).tally.2
    simpa using one_each

end Tester

/-- What the logger took, without the stamps of the timer. -/
def Tester.reports (tester : Tester) : List LogMessage :=
  (tester.received.map Prod.snd).filter fun message => message ≠ .log_stamp

theorem filterMap_reports {time : LogMessage → Option Int} (untimed : time .log_stamp = none)
    (tester : Tester) :
    tester.reports.filterMap time = (tester.received.map Prod.snd).filterMap time := by
  rw [Tester.reports, List.filterMap_filter]
  congr 1
  funext message
  cases message <;> simp [untimed]

theorem tally_reports (tester : Tester) :
    tally tester.reports = tally (tester.received.map Prod.snd) := by
  have refused : tester.reports.count .connect_error =
      (tester.received.map Prod.snd).count .connect_error := List.count_filter (by decide)
  have failed : tester.reports.count .exchange_error =
      (tester.received.map Prod.snd).count .exchange_error := List.count_filter (by decide)
  rw [tally, tally, filterMap_reports rfl, filterMap_reports rfl, refused, failed]

/-- In every run of the tester: each connector sends either one `connect_error`, or one
`connect_time`, then exchange times and at most one final `exchange_error`; the logger's counters
are bounded by one another and by `MAX_CHILDREN`, its sums are those of the times it received, and
all its arguments depend on the received messages alone and not on their order. -/
theorem statistics_sound (events : List TesterEvent) (tester : Tester)
    (execution : testers.run .started events = some tester) :
    (∀ child ∈ tester.children, Spoken child.connector.log) ∧
    (∀ args ∈ tester.logger,
      args.conErr + args.exchErr ≤ args.chld ∧ args.chld ≤ MAX_CHILDREN ∧
      args.conSum = (tester.reports.filterMap LogMessage.connectTime).sum ∧
      args.chld - args.conErr = (tester.reports.filterMap LogMessage.connectTime).length ∧
      args.latSum = (tester.reports.filterMap LogMessage.exchangeTime).sum ∧
      args.msgs = (tester.reports.filterMap LogMessage.exchangeTime).length ∧
      (args.chld - args.conErr = 0 → args.conSum = 0) ∧ (args.msgs = 0 → args.latSum = 0)) ∧
    ∀ other_events other, testers.run .started other_events = some other →
      tester.reports.Perm other.reports →
        ∀ args ∈ tester.logger, ∀ other_args ∈ other.logger, args = other_args := by
  have preserves : testers.Preserves Tester.Sound := fun _ _ _ sound step => sound.next step
  have sound := preserves.run Tester.sound_started execution
  refine ⟨fun child member => (sound.speaks child member).spoken, ?_, ?_⟩
  · intro args logging
    obtain rfl := sound.logged args logging
    obtain ⟨failures, children⟩ := sound.bounds
    have counted := sound.counted
    have bounded := sound.bounded
    have no_time {times : List Int} (none_left : times.length = 0) : times.sum = 0 := by
      rw [List.length_eq_zero_iff.mp none_left, List.sum_nil]
    rw [filterMap_reports rfl, filterMap_reports rfl]
    refine ⟨?_, ?_, rfl, ?_, rfl, rfl, ?_, no_time⟩
    · simp only [tally] at failures ⊢
      omega
    · omega
    · simp only [tally]
      omega
    · simp only [tally, Nat.add_sub_cancel]
      exact no_time
  · intro other_events other other_execution perm args logging other_args other_logging
    have other_sound := preserves.run Tester.sound_started other_execution
    rw [sound.logged args logging, other_sound.logged other_args other_logging, ← tally_reports,
      ← tally_reports, tally_perm perm]

/-- Two connectors, one of which is refused, and their messages in the order of the mailbox. -/
def twoConnectors : List TesterEvent :=
  [.spawn 100, .goOn, .spawn 110, .child 0 (.connect (some 7) 130), .child 1 (.connect none 140),
    .deliver 1, .deliver 0, .sendLogStamp, .gatherLog, .gatherLog, .gatherLog]

theorem statistics_sound_two : ∃ tester, testers.run .started twoConnectors = some tester ∧
    tester.logger =
      some { chld := 2, conErr := 1, exchErr := 0, conSum := 30, latSum := 0, msgs := 0 } ∧
    ∀ args ∈ tester.logger, args.conErr + args.exchErr ≤ args.chld :=
  ⟨_, rfl, rfl, fun args logging => ((statistics_sound twoConnectors _ rfl).2.1 args logging).1⟩

end Mrps.Erlang
