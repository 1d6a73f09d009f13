import Mrps.EchoPipe
import Mrps.Plain.Callbacks

/-!
# What the plain client echoes

The plain client never looks at the bytes it echoes, so renaming bytes renames its runs.  With that,
the runs that keep an echo stream whatever their bytes are can be told by the answers of their sends
alone: no send would block, and none accepts anything behind bytes that an earlier one left.
-/

namespace Mrps.Plain

open EventSystem

/-! ## Runs with other bytes -/

/-- The event with every byte renamed. -/
def Event.rename (f : Byte → Byte) : Event → Event
  | .wcbRecv recv send => .wcbRecv (recv.map (Except.map (List.map f))) send
  | .tick elapsed => .tick elapsed
  | .pollRecv => .pollRecv
  | .pollTimeout => .pollTimeout
  | .wcbTimeout => .wcbTimeout

/-- The connection with every byte renamed. -/
def Connection.rename (f : Byte → Byte) (conn : Connection) : Connection :=
  { conn with received := conn.received.map f, sent := conn.sent.map f }

@[simp] theorem Event.rename_rename (f g : Byte → Byte) (event : Event) :
    (event.rename g).rename f = event.rename (f ∘ g) := by
  cases event with
  | wcbRecv recv send =>
      simp only [rename, List.map_map, Event.wcbRecv.injEq, and_true]
      refine List.map_congr_left fun answer _ => ?_
      cases answer <;> simp [Except.map]
  | tick => rfl
  | pollRecv => rfl
  | pollTimeout => rfl
  | wcbTimeout => rfl

theorem auxUnixRecv_rename (f : Byte → Byte) (recv : List RecvAnswer) :
    auxUnixRecv (recv.map (Except.map (List.map f))) =
      (auxUnixRecv recv).map (Except.map (List.map f)) := by
  induction recv with
  | nil => rfl
  | cons answer recv ih =>
      rcases answer with (_ | _ | _) | bytes
      · rfl
      · exact ih
      · rfl
      · rfl

theorem callContract_rename (f : Byte → Byte) (nb : RecvAnswer) (send : SendAnswer) :
    CallContract (Except.map (List.map f) nb) send ↔ CallContract nb send := by
  cases nb with
  | error error => rfl
  | ok bytes => cases send <;> simp [CallContract, SendContract, Except.map]

theorem recvEffect_rename (f : Byte → Byte) (conn : Connection) (client : EchoClient)
    (answer : SendAnswer) (nb : RecvAnswer) :
    recvEffect (conn.rename f) client answer (Except.map (List.map f) nb) =
      (recvEffect conn client answer nb).rename f := by
  rcases nb with (_ | _ | _) | bytes
  · rfl
  · rfl
  · rfl
  · by_cases empty : bytes = []
    · simp [recvEffect, Except.map, empty, Connection.rename, Connection.deleted]
    · cases answer with
      | error error =>
          simp [recvEffect, sendEffect, Except.map, empty, Connection.rename, Connection.deleted,
            Connection.echoed]
      | ok sentNb =>
          simp [recvEffect, sendEffect, Except.map, empty, Connection.rename, Connection.register,
            Connection.echoed]

theorem echoClientWcbRecv_rename (f : Byte → Byte) (nb : RecvAnswer) (answer : SendAnswer)
    (conn : Connection) :
    echoClientWcbRecv (Except.map (List.map f) nb) answer (conn.rename f) =
      (echoClientWcbRecv nb answer conn).map (Connection.rename f) := by
  cases held : conn.client with
  | none =>
      have freed : (conn.rename f).client = none := held
      simp [echoClientWcbRecv, Connection.deref, held, freed, bind, Except.bind, Except.map]
  | some client =>
      have live : (conn.rename f).client = some client := held
      rw [echoClientWcbRecv_eq live, echoClientWcbRecv_eq held, recvEffect_rename]
      rfl

theorem echoClientDel_rename (f : Byte → Byte) (conn : Connection) :
    echoClientDel (conn.rename f) = (echoClientDel conn).map (Connection.rename f) := by
  cases held : conn.client with
  | none =>
      have freed : (conn.rename f).client = none := held
      simp [echoClientDel, Connection.stopRecv, Connection.evCall, Connection.deref, held, freed,
        bind, Except.bind, Except.map]
  | some client =>
      have live : (conn.rename f).client = some client := held
      rw [echoClientDel_eq live, echoClientDel_eq held]
      rfl

/-- The client never looks at a byte. -/
theorem connectionSystem_renames (f : Byte → Byte) :
    connectionSystem.Renames (Except.map (Connection.rename f)) (Event.rename f) := by
  intro state event
  cases state with
  | error fault => rfl
  | ok conn =>
      change (conn.rename f).next (event.rename f) = (conn.next event).map _
      cases event with
      | tick elapsed => rfl
      | pollRecv =>
          simp only [Event.rename, Connection.next, Option.map_map]
          rfl
      | pollTimeout =>
          simp only [Event.rename, Connection.next, Option.map_map]
          rfl
      | wcbRecv recv send =>
          simp only [Event.rename, Connection.next, auxUnixRecv_rename]
          have pending_eq : (conn.rename f).watchers = conn.watchers := rfl
          rw [pending_eq]
          split
          · cases returned : auxUnixRecv recv with
            | none => rfl
            | some nb =>
                simp only [Option.map_some, Option.bind_some, callContract_rename]
                split
                · exact congrArg some (echoClientWcbRecv_rename f nb send
                    (conn.register Watchers.recvInvoked))
                · rfl
          · rfl
      | wcbTimeout =>
          simp only [Event.rename, Connection.next]
          have pending_eq : (conn.rename f).watchers = conn.watchers := rfl
          rw [pending_eq]
          split
          · exact congrArg some (echoClientDel_rename f (conn.register Watchers.timeoutInvoked))
          · rfl

/-- The event with the contents of its chunk forgotten. -/
def Event.blank : Event → Event := Event.rename fun _ => 0

/-! ## The echo stream -/

/-- The outcome of the `send` the callback makes, if it makes one. -/
def Event.sendAnswer : Event → Option SendAnswer
  | .wcbRecv recv send =>
      match auxUnixRecv recv with
      | some (.ok (_ :: _)) => some (auxUnixSend send)
      | _ => none
  | _ => none

/-- After the step the sent stream is a prefix of the received one, and the step did not delete the
client because its `send` would block. -/
def EchoKept (_ : Except Fault Connection) (event : Event)
    (next : Except Fault Connection) : Prop :=
  ∃ conn, next = .ok conn ∧ conn.sent <+: conn.received ∧
    (event.sendAnswer = some (.error .eagain) → conn.client ≠ none)

/-- The `send` of the step does not block, and if it accepts a byte then every byte received before
the step has been accepted. -/
def Prompt (state : Except Fault Connection) (event : Event) (_ : Except Fault Connection) : Prop :=
  event.sendAnswer ≠ some (.error .eagain) ∧
    ∀ sentNb, event.sendAnswer = some (.ok sentNb) → 0 < sentNb →
      ∀ conn, state = .ok conn → conn.sent.length = conn.received.length

/-- A callback that sends has received a chunk. -/
theorem sendAnswer_eq_some {event : Event} {answer : SendAnswer}
    (sends : event.sendAnswer = some answer) :
    ∃ recv bytes, event = .wcbRecv recv answer ∧ auxUnixRecv recv = some (.ok bytes) ∧
      bytes ≠ [] := by
  cases event with
  | wcbRecv recv send =>
      simp only [Event.sendAnswer, auxUnixSend] at sends
      split at sends
      · rename_i first rest returned
        obtain rfl := Option.some.inj sends
        exact ⟨recv, first :: rest, rfl, returned, by simp⟩
      · simp at sends
  | tick => simp [Event.sendAnswer] at sends
  | pollRecv => simp [Event.sendAnswer] at sends
  | pollTimeout => simp [Event.sendAnswer] at sends
  | wcbTimeout => simp [Event.sendAnswer] at sends

theorem sendAnswer_of_received {recv : List RecvAnswer} {bytes : List Byte} (send : SendAnswer)
    (returned : auxUnixRecv recv = some (.ok bytes)) (nonempty : bytes ≠ []) :
    (Event.wcbRecv recv send).sendAnswer = some send := by
  obtain ⟨first, rest, rfl⟩ := List.exists_cons_of_ne_nil nonempty
  simp [Event.sendAnswer, returned, auxUnixSend]

@[simp] theorem sendAnswer_rename (f : Byte → Byte) (event : Event) :
    (event.rename f).sendAnswer = event.sendAnswer := by
  cases event with
  | wcbRecv recv send =>
      simp only [Event.rename, Event.sendAnswer, auxUnixRecv_rename]
      rcases auxUnixRecv recv with _ | (_ | _ | _)
      · rfl
      · rfl
      · rfl
      · rfl
  | tick => rfl
  | pollRecv => rfl
  | pollTimeout => rfl
  | wcbTimeout => rfl

/-- Promptness does not depend on the bytes. -/
theorem prompt_rename (f : Byte → Byte) (state : Except Fault Connection) (event : Event)
    (next : Except Fault Connection) :
    Prompt (Except.map (Connection.rename f) state) (event.rename f)
        (Except.map (Connection.rename f) next) ↔ Prompt state event next := by
  cases state with
  | error fault => simp [Prompt, Except.map]
  | ok conn => simp [Prompt, Except.map, Connection.rename]

/-- A freed client has no watcher left, and `send` accepted no more bytes than `recv` delivered. -/
structure Sound (conn : Connection) : Prop where
  settled : Settled conn
  sent_le : conn.sent.length ≤ conn.received.length

theorem Fires.sent_le {conn next : Connection} {client : EchoClient} {event : Event}
    (fires : Fires conn client event next) (le : conn.sent.length ≤ conn.received.length) :
    next.sent.length ≤ next.received.length := by
  cases fires with
  | tick => exact le
  | pollRecv => exact le
  | pollTimeout => exact le
  | @wcbRecv recv nb send pending returned contract =>
      rcases nb with (_ | _ | _) | bytes
      · exact le
      · exact le
      · exact le
      · rw [recvEffect]
        split
        · exact le
        · cases send with
          | error error =>
              simp only [sendEffect, Connection.deleted, Connection.echoed, Connection.register,
                List.take_zero, List.append_nil, List.length_append]
              omega
          | ok sentNb =>
              simp only [sendEffect, Connection.echoed, Connection.register, List.length_append,
                List.length_take]
              omega
  | wcbTimeout => exact le

/-- A fault-free and sound state. -/
def Ordered : Except Fault Connection → Prop
  | .ok conn => Sound conn
  | .error _ => False

theorem ordered_preserved : connectionSystem.Preserves Ordered := by
  intro state event next ordered step
  cases state with
  | error fault => exact ordered.elim
  | ok conn =>
      have sound : Sound conn := ordered
      obtain ⟨conn', rfl, settled, ⟨client, live, fires⟩ | ⟨-, elapsed, -, rfl⟩⟩ :=
        next_cases sound.settled step
      · exact ⟨settled, fires.sent_le sound.sent_le⟩
      · exact ⟨settled, sound.sent_le⟩

theorem ordered_echoClientAdd (sd : Nat) (now : Time) : Ordered (.ok (echoClientAdd sd now)) :=
  ⟨settled_echoClientAdd sd now, le_rfl⟩

/-! ### Prompt runs keep the stream -/

/-- A fault-free state that has echoed a prefix of what it received. -/
def Echoing : Except Fault Connection → Prop
  | .ok conn => Settled conn ∧ conn.sent <+: conn.received
  | .error _ => False

theorem Fires.sent_prefix {conn next : Connection} {client : EchoClient} {event : Event}
    (fires : Fires conn client event next) (kept : conn.sent <+: conn.received)
    (prompt : Prompt (.ok conn) event (.ok next)) : next.sent <+: next.received := by
  cases fires with
  | tick => exact kept
  | pollRecv => exact kept
  | pollTimeout => exact kept
  | @wcbRecv recv nb send pending returned contract =>
      rcases nb with (_ | _ | _) | bytes
      · exact kept
      · exact kept
      · exact kept
      · by_cases empty : bytes = []
        · rw [recvEffect, if_pos empty]
          exact kept
        · have grown : conn.sent <+: conn.received ++ bytes :=
            kept.trans (List.prefix_append _ _)
          have sends := sendAnswer_of_received send returned empty
          rw [recvEffect, if_neg empty]
          cases send with
          | error error =>
              change conn.sent ++ bytes.take 0 <+: conn.received ++ bytes
              simpa using grown
          | ok sentNb =>
              change conn.sent ++ bytes.take sentNb <+: conn.received ++ bytes
              rcases Nat.eq_zero_or_pos sentNb with rfl | accepted
              · simpa using grown
              · -- nothing was left behind, so the accepted bytes continue the stream
                have caught_up := prompt.2 sentNb sends accepted conn rfl
                rw [kept.eq_of_length caught_up]
                exact (List.prefix_append_right_inj _).mpr (List.take_prefix _ _)
  | wcbTimeout => exact kept

theorem echoing_step {state next : Except Fault Connection} {event : Event}
    (echoing : Echoing state) (step : connectionSystem.step state event = some next)
    (prompt : Prompt state event next) : EchoKept state event next ∧ Echoing next := by
  cases state with
  | error fault => exact echoing.elim
  | ok conn =>
      obtain ⟨settled, kept⟩ := echoing
      obtain ⟨conn', rfl, settled', ⟨client, live, fires⟩ | ⟨-, elapsed, rfl, rfl⟩⟩ :=
        next_cases settled step
      · have kept' := fires.sent_prefix kept prompt
        exact ⟨⟨conn', rfl, kept', fun blocked => absurd blocked prompt.1⟩, settled', kept'⟩
      · exact ⟨⟨_, rfl, kept, by simp [Event.sendAnswer]⟩, settled', kept⟩

/-! ### Other runs lose it for some bytes -/

theorem blocked_deletes {conn next : Connection} {event : Event} (settled : Settled conn)
    (step : conn.next event = some (.ok next))
    (blocked : event.sendAnswer = some (.error .eagain)) : next.client = none := by
  obtain ⟨recv, bytes, rfl, returned, nonempty⟩ := sendAnswer_eq_some blocked
  obtain ⟨conn', result_eq, -, ⟨client, live, fires⟩ | ⟨-, elapsed, event_eq, -⟩⟩ :=
    next_cases settled step
  · obtain rfl := Except.ok.inj result_eq
    cases fires with
    | wcbRecv pending returned' contract =>
        obtain rfl := Option.some.inj (returned.symm.trans returned')
        rw [recvEffect, if_neg nonempty]
        rfl
  · cases event_eq

/-- The step of a callback that sends, in the connection that received the same number of zeros, on
a chunk of ones. -/
theorem next_painted {conn next : Connection} {event : Event} {sentNb : Nat}
    (settled : Settled conn) (step : conn.next event = some (.ok next))
    (sends : event.sendAnswer = some (.ok sentNb)) :
    ∃ painted count, (conn.rename fun _ => 0).next (event.rename fun _ => 1) = some (.ok painted) ∧
      painted.sent = List.replicate conn.sent.length 0 ++ (List.replicate count 1).take sentNb ∧
      painted.received = List.replicate conn.received.length 0 ++ List.replicate count 1 ∧
      0 < count := by
  obtain ⟨recv, bytes, rfl, returned, nonempty⟩ := sendAnswer_eq_some sends
  obtain ⟨conn', result_eq, -, ⟨client, live, fires⟩ | ⟨-, elapsed, event_eq, -⟩⟩ :=
    next_cases settled step
  · cases fires with
    | wcbRecv pending returned' contract =>
        obtain rfl := Option.some.inj (returned.symm.trans returned')
        have painted_answer : auxUnixRecv (recv.map (Except.map (List.map fun _ => 1))) =
            some (.ok (bytes.map fun _ => 1)) := by
          rw [auxUnixRecv_rename, returned]
          rfl
        have painted_contract : CallContract (.ok (bytes.map fun _ => 1)) (.ok sentNb) :=
          (callContract_rename (fun _ => 1) (.ok bytes) (.ok sentNb)).mpr contract
        have painted_live : (conn.rename fun _ => 0).client = some client := live
        have painted_pending : (conn.rename fun _ => 0).watchers.recv.pending = true := pending
        have painted_invoked :
            ((conn.rename fun _ => 0).register Watchers.recvInvoked).client = some client :=
          painted_live
        have effect : echoClientWcbRecv (.ok (bytes.map fun _ => 1)) (.ok sentNb)
            ((conn.rename fun _ => 0).register Watchers.recvInvoked) = _ :=
          echoClientWcbRecv_eq painted_invoked
        refine ⟨recvEffect ((conn.rename fun _ => 0).register Watchers.recvInvoked) client
          (.ok sentNb) (.ok (bytes.map fun _ => 1)), bytes.length, ?_, ?_, ?_,
          List.length_pos_of_ne_nil nonempty⟩
        · simp only [Event.rename, Connection.next, painted_pending, if_true, painted_answer,
            Option.bind_some, painted_contract]
          exact congrArg some effect
        · simp [recvEffect, nonempty, sendEffect, Connection.rename, Connection.register,
            Connection.echoed]
        · simp [recvEffect, nonempty, sendEffect, Connection.rename, Connection.register,
            Connection.echoed]
  · cases event_eq

/-- The states of a run with other bytes are those of the run with its bytes renamed. -/
theorem run_rename (f : Byte → Byte) (sd : Nat) (now : Time) (events : List Event) :
    connectionSystem.run (.ok (echoClientAdd sd now)) (events.map (Event.rename f)) =
      (connectionSystem.run (.ok (echoClientAdd sd now)) events).map
        (Except.map (Connection.rename f)) :=
  (connectionSystem_renames f).run (.ok (echoClientAdd sd now)) events

theorem along_prompt_blank {sd : Nat} {now : Time} (events : List Event) :
    connectionSystem.Along Prompt (.ok (echoClientAdd sd now)) (events.map Event.blank) ↔
      connectionSystem.Along Prompt (.ok (echoClientAdd sd now)) events :=
  (connectionSystem_renames fun _ => 0).along (prompt_rename fun _ => 0)
    (.ok (echoClientAdd sd now)) events

theorem echo_kept_of_prompt {sd : Nat} {now : Time} {events : List Event}
    (prompt : connectionSystem.Along Prompt (.ok (echoClientAdd sd now)) events) :
    connectionSystem.Along EchoKept (.ok (echoClientAdd sd now)) events := by
  have start : Echoing (.ok (echoClientAdd sd now)) :=
    ⟨settled_echoClientAdd sd now, List.prefix_rfl⟩
  exact prompt.yields (fun _ _ _ => echoing_step) start

/-- When bytes have been left behind and a later send accepts some, the same run with zeros up to
that step and ones in its chunk has a gap. -/
theorem gap_of_behind {sd : Nat} {now : Time} {front : List Event} (back : List Event)
    {event : Event} {conn next : Connection} {sentNb : Nat} (sound : Sound conn)
    (front_run : connectionSystem.run (.ok (echoClientAdd sd now)) front = some (.ok conn))
    (step : conn.next event = some (.ok next)) (sends : event.sendAnswer = some (.ok sentNb))
    (accepted : 0 < sentNb) (behind : conn.sent.length ≠ conn.received.length) :
    ¬ connectionSystem.Along EchoKept (.ok (echoClientAdd sd now))
      (front.map (Event.rename fun _ => 0) ++ event.rename (fun _ => 1) :: back) := by
  intro kept
  have short : conn.sent.length < conn.received.length := lt_of_le_of_ne sound.sent_le behind
  obtain ⟨painted, count, painted_step, sent_eq, received_eq, count_pos⟩ :=
    next_painted sound.settled step sends
  have painted_run := run_rename (fun _ => 0) sd now front
  rw [front_run] at painted_run
  obtain ⟨_, painted_eq, prefix_kept, -⟩ :=
    along_iff.mp kept _ _ back _ _ rfl painted_run painted_step
  obtain rfl := Except.ok.inj painted_eq
  obtain ⟨fewer, rfl⟩ := Nat.exists_eq_succ_of_ne_zero (Nat.ne_of_gt count_pos)
  obtain ⟨taken, rfl⟩ := Nat.exists_eq_succ_of_ne_zero (Nat.ne_of_gt accepted)
  rw [sent_eq, received_eq, List.replicate_succ, List.take_succ_cons] at prefix_kept
  have head := EchoPipe.head_mem_of_prefix prefix_kept (by simpa using short)
  have one_eq_zero := List.eq_of_mem_replicate head
  exact absurd one_eq_zero (by decide)

/-- A run of one connection keeps the echo stream at every step, and goes on doing so when other
bytes are received in its place, exactly when every send is prompt. -/
theorem echo_kept_iff (sd : Nat) (now : Time) (events : List Event) :
    (∀ other, other.map Event.blank = events.map Event.blank →
        connectionSystem.Along EchoKept (.ok (echoClientAdd sd now)) other) ↔
      connectionSystem.Along Prompt (.ok (echoClientAdd sd now)) events := by
  constructor
  · intro kept
    rw [along_iff]
    rintro front event back state next split front_run step
    have ordered := ordered_preserved.run (ordered_echoClientAdd sd now) front_run
    cases state with
    | error fault => exact ordered.elim
    | ok conn =>
        have sound : Sound conn := ordered
        obtain ⟨next, rfl, -⟩ := next_cases sound.settled step
        constructor
        · intro blocked
          obtain ⟨_, next_eq, -, live⟩ :=
            along_iff.mp (kept events rfl) front event back _ _ split front_run step
          obtain rfl := Except.ok.inj next_eq
          exact live blocked (blocked_deletes sound.settled step blocked)
        · intro sentNb sends accepted conn' conn_eq
          obtain rfl := Except.ok.inj conn_eq
          by_contra behind
          refine gap_of_behind back sound front_run step sends accepted behind (kept _ ?_)
          simp [split, Event.blank, Function.comp_def]
  · intro prompt other same
    rw [← along_prompt_blank, ← same, along_prompt_blank] at prompt
    exact echo_kept_of_prompt prompt

/-- Two chunks, each with a send that accepts one byte: the byte left of the first is skipped. -/
def shortSendEvents : List Event :=
  [.pollRecv, .wcbRecv [.ok [97, 98]] (.ok 1), .pollRecv, .wcbRecv [.ok [99]] (.ok 1)]

theorem short_send_gap :
    (∃ conn, connectionSystem.run (.ok (echoClientAdd 5 0)) shortSendEvents = some (.ok conn) ∧
        conn.received = [97, 98, 99] ∧ conn.sent = [97, 99] ∧ ¬ conn.sent <+: conn.received) ∧
      ∃ conn, connectionSystem.run (.ok (echoClientAdd 5 0))
          [.pollRecv, .wcbRecv [.ok [97]] (.error .eagain)] = some (.ok conn) ∧
        conn.client = none ∧ conn.received = [97] ∧ conn.sent = [] :=
  ⟨⟨_, rfl, rfl, rfl, by decide⟩, _, rfl, rfl, rfl, rfl⟩

end Mrps.Plain
