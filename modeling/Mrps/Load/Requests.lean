import Mrps.Load.Phases
import Mrps.Blocks

/-!
# The account of requests

From `wcb_connect` on, the requests on the wire and those that wait to be sent should add up to one
and the expiries of the timer.  `client_send` has no memory of a request that was sent in part and
no second try for one that was not sent at all, so the account balances exactly when every send
takes a whole request.
-/

namespace Mrps.Load

open Blocks EventSystem MachineInt

/-- The bytes sent after the first `front` ones. -/
def sentSince (front : Nat) (session : Session) : List Byte :=
  (session.conn.wire.map Prod.fst).drop front

/-- The number of complete requests among bytes. -/
def completeRequests (bytes : List Byte) : Nat := bytes.length / REQUEST.length

/-- The runs of one client together with the events so far. -/
abbrev recorded : EventSystem (Except Fault Session × List Event) Event :=
  sessionSystem.logged fun _ event => [event]

/-- The sends of the event take some bytes of the request or would block. -/
def Event.SendsOrBlocks (event : Event) : Prop :=
  ∀ send, event = .wcbSend send → ∀ answer ∈ send,
    (∃ nb, 0 < nb ∧ nb ≤ REQUEST.length ∧ answer = .ok nb) ∨ answer = .error .eagain

/-- The complete requests on the wire and those to send are one and the ticks so far, and the wire
repeats the request. -/
def Balanced (front : Nat) (session : Session) (past : List Event) : Prop :=
  (∀ client, session.conn.client = some client →
    completeRequests (sentSince front session) + client.toSend = 1 + past.count .wcbTimeout) ∧
  ∃ count, sentSince front session <+: repeated REQUEST count

/-- The step ends in balance, and a send that would block leaves its request waiting. -/
def KeepsRequests (front : Nat) (before : Except Fault Session × List Event) (event : Event)
    (after : Except Fault Session × List Event) : Prop :=
  (∀ session, after.1 = .ok session → Balanced front session after.2) ∧
    ∀ session client send, before.1 = .ok session → session.conn.client = some client →
      event = .wcbSend send → .error .eagain ∈ send →
        ∃ next later, after.1 = .ok next ∧ next.conn.client = some later ∧
          later.toSend + (send.length - 1) = client.toSend

/-- Every send of the step takes the whole request, and a tick finds room in the counter. -/
def SendsWhole (before : Except Fault Session × List Event) (event : Event)
    (_ : Except Fault Session × List Event) : Prop :=
  (∀ send, event = .wcbSend send → ∀ answer ∈ send, answer = .ok REQUEST.length) ∧
    ∀ session client, before.1 = .ok session → session.conn.client = some client →
      event = .wcbTimeout → client.toSend + 1 < 2 ^ 32

/-- A connected client whose sends took whole requests. -/
structure Whole (front : Nat) (session : Session) (past : List Event) : Prop where
  connected : Connected session.conn
  later : front ≤ session.conn.wire.length
  balance : ∃ whole, sentSince front session = repeated REQUEST whole ∧
    ∀ client, session.conn.client = some client →
      whole + client.toSend = 1 + past.count .wcbTimeout

@[simp] theorem completeRequests_repeated (whole : Nat) :
    completeRequests (repeated REQUEST whole) = whole := by
  rw [completeRequests, length_repeated]
  exact Nat.mul_div_cancel whole (by decide)

theorem Whole.balanced {front : Nat} {session : Session} {past : List Event}
    (whole : Whole front session past) : Balanced front session past := by
  obtain ⟨count, wire, balance⟩ := whole.balance
  refine ⟨fun client live => ?_, count, wire ▸ List.prefix_rfl⟩
  rw [wire, completeRequests_repeated]
  exact balance client live

/-! ## What sends put on the wire -/

theorem sentSince_append {front : Nat} {session next : Session} {more : List (Byte × Time)}
    (wire : next.conn.wire = session.conn.wire ++ more) (later : front ≤ session.conn.wire.length) :
    sentSince front next = sentSince front session ++ more.map Prod.fst := by
  rw [sentSince, wire, List.map_append, List.drop_append_of_le_length (by simpa using later)]
  rfl

theorem Bursts.sentSince {front : Nat} {session after : Session} {client : Client}
    {answers : List SendAnswer} (bursts : Bursts session client answers after)
    (later : front ≤ session.conn.wire.length) :
    sentSince front after = sentSince front session ++ answers.flatMap taken := by
  have added := sentSince_append bursts.wire later
  simpa [Function.comp_def] using added

theorem taken_length_le (answer : SendAnswer) : (taken answer).length ≤ REQUEST.length := by
  cases answer with
  | error errno => simp [taken]
  | ok nb => simp [taken]

theorem flatMap_taken_length_le (answers : List SendAnswer) :
    (answers.flatMap taken).length ≤ REQUEST.length * answers.length := by
  induction answers with
  | nil => simp
  | cons answer answers ih =>
      have first := taken_length_le answer
      rw [List.flatMap_cons, List.length_append, List.length_cons, Nat.mul_succ]
      omega

theorem flatMap_taken_whole {answers : List SendAnswer}
    (all : ∀ answer ∈ answers, answer = .ok REQUEST.length) :
    answers.flatMap taken = repeated REQUEST answers.length := by
  induction answers with
  | nil => simp
  | cons answer answers ih =>
      obtain rfl := all answer List.mem_cons_self
      rw [List.flatMap_cons, List.length_cons, repeated_succ,
        ih fun other member => all other (List.mem_cons_of_mem _ member)]
      simp [taken]

/-- Sends that took as many bytes as whole requests have took whole requests. -/
theorem whole_of_length {answers : List SendAnswer}
    (all : ∀ answer ∈ answers, ∃ nb ≤ REQUEST.length, answer = .ok nb)
    (enough : REQUEST.length * answers.length ≤ (answers.flatMap taken).length) :
    ∀ answer ∈ answers, answer = .ok REQUEST.length := by
  induction answers with
  | nil => simp
  | cons answer answers ih =>
      obtain ⟨nb, short, rfl⟩ := all answer List.mem_cons_self
      have first : (taken (.ok nb)).length = nb := by simpa [taken] using short
      have behind := flatMap_taken_length_le answers
      rw [List.flatMap_cons, List.length_append, List.length_cons, Nat.mul_succ, first] at enough
      have full : nb = REQUEST.length := by omega
      intro other member
      rcases List.mem_cons.mp member with rfl | later
      · rw [full]
      · exact ih (fun other member => all other (List.mem_cons_of_mem _ member)) (by omega) other
          later

theorem due_toSend_iff (client : Client) :
    client.due.toSend = client.toSend + 1 ↔ client.toSend + 1 < 2 ^ 32 := by
  have reduced : client.due.toSend = (client.toSend + 1) % 2 ^ 32 := by
    rw [Client.due, toUnsigned]
    dsimp only
    omega
  rw [reduced]
  omega

/-! ## One step -/

section Steps

variable {front : Nat} {session next : Session} {client : Client} {event : Event}
  {past : List Event}

theorem Whole.idle (whole : Whole front session past) (connected : Connected next.conn)
    (wire : next.conn.wire = session.conn.wire)
    (same : ∀ later, next.conn.client = some later →
      ∃ client, session.conn.client = some client ∧ later.toSend = client.toSend)
    (other : event ≠ .wcbTimeout) : Whole front next (past ++ [event]) := by
  obtain ⟨count, sent, balance⟩ := whole.balance
  refine ⟨connected, wire ▸ whole.later, count, ?_, ?_⟩
  · rw [← sent, sentSince, sentSince, wire]
  · intro later live
    obtain ⟨client, was_live, toSend⟩ := same later live
    rw [List.count_append, List.count_singleton, toSend, balance client was_live]
    simp [other]

/-- A tick that finds room in the counter. -/
theorem Whole.tick (whole : Whole front session past) (live : session.conn.client = some client)
    (room : client.toSend + 1 < 2 ^ 32) (connected : Connected next.conn)
    (wire : next.conn.wire = session.conn.wire) (due : next.conn.client = some client.due) :
    Whole front next (past ++ [.wcbTimeout]) := by
  obtain ⟨count, sent, balance⟩ := whole.balance
  refine ⟨connected, wire ▸ whole.later, count, ?_, ?_⟩
  · rw [← sent, sentSince, sentSince, wire]
  · intro later live'
    obtain rfl : client.due = later := Option.some.inj (due.symm.trans live')
    have before := balance client live
    rw [(due_toSend_iff client).mpr room, List.count_append, List.count_singleton_self]
    omega

theorem Whole.sendInvoked (whole : Whole front session past) :
    Whole front (session.register Watchers.sendInvoked) past :=
  ⟨⟨whole.connected.active, whole.connected.pending⟩, whole.later, whole.balance⟩

theorem Whole.bursts {send : List SendAnswer} (whole : Whole front session past)
    (live : session.conn.client = some client) (bursts : Bursts session client send next)
    (all : ∀ answer ∈ send, answer = .ok REQUEST.length) :
    Whole front next (past ++ [.wcbSend send]) := by
  obtain ⟨count, sent, balance⟩ := whole.balance
  refine ⟨bursts.connected whole.connected, ?_, count + send.length, ?_, ?_⟩
  · rw [bursts.wire, List.length_append]
    have later := whole.later
    omega
  · rw [bursts.sentSince whole.later, sent, flatMap_taken_whole all, repeated_add]
  · intro later live'
    rcases bursts.outcome live with ⟨drained, drained_live, none_left, taken_all, -⟩ | ⟨dead, -⟩
    · obtain rfl : drained = later := Option.some.inj (drained_live.symm.trans live')
      have before := balance client live
      have others : [Event.wcbSend send].count .wcbTimeout = 0 := by simp
      rw [List.count_append, others, none_left, taken_all]
      omega
    · simp [dead] at live'

/-- A step of a live client whose sends take whole requests and whose tick finds room. -/
theorem Whole.fires (whole : Whole front session past) (live : session.conn.client = some client)
    (fires : Fires session client event next)
    (sends : ∀ send, event = .wcbSend send → ∀ answer ∈ send, answer = .ok REQUEST.length)
    (room : event = .wcbTimeout → client.toSend + 1 < 2 ^ 32) :
    Whole front next (past ++ [event]) := by
  have connected := fires.connected whole.connected
  have as_before : ∀ later, session.conn.client = some later →
      ∃ client, session.conn.client = some client ∧ later.toSend = client.toSend :=
    fun later live => ⟨later, live, rfl⟩
  cases fires with
  | tick => exact whole.idle connected rfl as_before (by simp)
  | pollRecv => exact whole.idle connected rfl as_before (by simp)
  | pollSend => exact whole.idle connected rfl as_before (by simp)
  | pollConnect => exact whole.idle connected rfl as_before (by simp)
  | pollTimeout => exact whole.idle connected rfl as_before (by simp)
  | @wcbRecv recv nb =>
      rcases nb with (_ | _ | _) | bytes
      · exact whole.idle connected rfl as_before (by simp)
      · exact whole.idle connected rfl (fun _ held => by cases held) (by simp)
      · exact whole.idle connected rfl (fun _ held => by cases held) (by simp)
      · exact whole.idle connected rfl as_before (by simp)
  | wcbSend _ bursts => exact whole.sendInvoked.bursts live bursts (sends _ rfl)
  | wcbConnect readable pending => simp [whole.connected.pending] at pending
  | wcbTimeout => exact whole.tick live (room rfl) connected rfl rfl

/-- A burst that keeps the balance sent whole requests. -/
theorem Whole.sent_whole {send : List SendAnswer} (whole : Whole front session past)
    (live : session.conn.client = some client) (bursts : Bursts session client send next)
    (accepts : (Event.wcbSend send).SendsOrBlocks)
    (balanced : Balanced front next (past ++ [.wcbSend send]))
    (waits : .error .eagain ∈ send → ∃ later, next.conn.client = some later) :
    ∀ answer ∈ send, answer = .ok REQUEST.length := by
  rcases bursts.outcome live with ⟨later, later_live, none_left, taken_all, all⟩ |
    ⟨dead, errno, member⟩
  · apply whole_of_length all
    obtain ⟨count, sent, balance⟩ := whole.balance
    have before := balance client live
    have after := balanced.1 later later_live
    have others : [Event.wcbSend send].count .wcbTimeout = 0 := by simp
    rw [List.count_append, others, bursts.sentSince whole.later, sent, none_left,
      completeRequests, List.length_append, length_repeated] at after
    have three : REQUEST.length = 3 := rfl
    rw [three] at after ⊢
    omega
  · -- the client is deleted although the send would only have to wait
    rcases accepts send rfl _ member with ⟨nb, -, -, contrary⟩ | blocks
    · cases contrary
    · obtain ⟨later, later_live⟩ := waits (blocks ▸ member)
      simp [dead] at later_live

end Steps

/-! ## Runs -/

/-- A kept client whose requests were whole so far. -/
def Accounted (sd front : Nat) : Except Fault Session × List Event → Prop
  | (.ok session, past) => Kept sd session.conn ∧ Whole front session past
  | (.error _, _) => False

section Runs

variable {sd front : Nat} {event : Event} {state after : Except Fault Session × List Event}

theorem Accounted.kept (good : Accounted sd front state)
    (step : recorded.step state event = some after) (sends : SendsWhole state event after) :
    Accounted sd front after := by
  obtain ⟨_ | session, past⟩ := state
  · exact good.elim
  · obtain ⟨kept, whole⟩ := good
    obtain ⟨result, taken, rfl⟩ := (logged_step_iff _).mp step
    obtain ⟨next, rfl, kept', ⟨-, elapsed, rfl, rfl⟩ | ⟨client, live, fires⟩⟩ := kept.taken taken
    · exact ⟨kept', whole.idle whole.connected rfl (fun later live => ⟨later, live, rfl⟩) (by simp)⟩
    · exact ⟨kept', whole.fires live fires sends.1 (sends.2 session client rfl live)⟩

theorem Accounted.exact (good : Accounted sd front state)
    (step : recorded.step state event = some after) (accepts : event.SendsOrBlocks) :
    KeepsRequests front state event after ↔ SendsWhole state event after := by
  constructor
  · rintro ⟨balanced, waits⟩
    obtain ⟨_ | session, past⟩ := state
    · exact good.elim
    · obtain ⟨kept, whole⟩ := good
      obtain ⟨result, taken, rfl⟩ := (logged_step_iff _).mp step
      obtain ⟨next, rfl, -, ⟨dead, elapsed, rfl, rfl⟩ | ⟨client, live, fires⟩⟩ := kept.taken taken
      · exact ⟨by simp, by simp⟩
      · refine ⟨?_, ?_⟩
        · rintro send rfl
          cases fires with
          | wcbSend _ bursts =>
              refine whole.sendInvoked.sent_whole live bursts accepts (balanced next rfl)
                fun blocks => ?_
              obtain ⟨_, later, ⟨⟩, later_live, -⟩ := waits session client send rfl live rfl blocks
              exact ⟨later, later_live⟩
        · rintro _ other ⟨⟩ other_live rfl
          obtain rfl : client = other := Option.some.inj (live.symm.trans other_live)
          cases fires with
          | wcbTimeout =>
              obtain ⟨count, sent, balance⟩ := whole.balance
              have before := balance client live
              have complete : completeRequests (sentSince front session) + client.due.toSend =
                  1 + (past ++ [Event.wcbTimeout]).count .wcbTimeout := (balanced _ rfl).1 _ rfl
              rw [sent, completeRequests_repeated, List.count_append,
                List.count_singleton_self] at complete
              rw [← due_toSend_iff]
              omega
  · intro sends
    refine ⟨?_, ?_⟩
    · intro session same
      obtain ⟨result, past⟩ := after
      obtain rfl : result = .ok session := same
      exact (good.kept step sends).2.balanced
    · intro session client send _ _ sent blocks
      have whole := sends.1 send sent _ blocks
      cases whole

end Runs

/-- From `wcb_connect` on, in every run whose sends take some bytes or would block: the account of
requests balances in every state, and no send that would block loses its request, exactly if every
send takes a whole request and no tick finds the counter full. -/
theorem requests_balance_iff (sd : Nat) (now : Time) (times : Statistics)
    (opening events : List Event) (session connected : Session)
    (execution : sessionSystem.run (.ok (.start sd now times)) opening = some (.ok session))
    (connects : session.next (.wcbConnect false) = some (.ok connected))
    (accepts : ∀ event ∈ events, event.SendsOrBlocks) :
    Balanced session.conn.wire.length connected [] ∧
        recorded.Along (KeepsRequests session.conn.wire.length) (.ok connected, []) events ↔
      recorded.Along SendsWhole (.ok connected, []) events := by
  have start : KeptSession sd (.ok (.start sd now times)) := clientAdd_kept sd now
  have kept : Kept sd session.conn := (keptSession_preserved sd).run start execution
  obtain ⟨next, same, kept', ⟨-, elapsed, contrary, -⟩ | ⟨client, live, fires⟩⟩ :=
    kept.taken connects
  · cases contrary
  · obtain rfl := Except.ok.inj same
    have whole : Whole session.conn.wire.length connected [] := by
      cases fires with
      | wcbConnect =>
          refine ⟨connectEffect_connected false, Nat.le_refl _, 0, ?_, ?_⟩
          · apply List.drop_of_length_le
            rw [List.length_map]
            exact Nat.le_refl _
          · rintro _ ⟨⟩
            rfl
    have good : Accounted sd session.conn.wire.length (.ok connected, []) := ⟨kept', whole⟩
    rw [and_iff_right whole.balanced]
    exact (along_of_events accepts).exact (fun _ _ _ good step given => good.exact step given)
      (fun _ _ _ good step _ sends => good.kept step sends) good

/-- A client whose connection the loop has just reported. -/
def reported : Session :=
  (Session.start 7 0 .initial).register fun watchers =>
    { watchers with connect := { watchers.connect with pending := true } }

/-- The same client after `wcb_connect`. -/
def accepted : Session := connectEffect reported { fd := 7, ts := 0, toSend := 0 } false

theorem run_reported :
    sessionSystem.run (.ok (.start 7 0 .initial)) [.pollConnect] = some (.ok reported) := rfl

theorem next_accepted : reported.next (.wcbConnect false) = some (.ok accepted) := rfl

theorem requests_balance_request : Balanced 0 accepted [] ∧
      recorded.Along (KeepsRequests 0) (.ok accepted, []) [.pollSend, .wcbSend [.ok 3]] ↔
    recorded.Along SendsWhole (.ok accepted, []) [.pollSend, .wcbSend [.ok 3]] :=
  requests_balance_iff 7 0 .initial [.pollConnect] [.pollSend, .wcbSend [.ok 3]] reported accepted
    run_reported next_accepted (by simp [Event.SendsOrBlocks, REQUEST])

/-- A full send buffer at the first request. -/
theorem requests_balance_full :
    sessionSystem.run (.ok (.start 7 0 .initial)) [.pollConnect] = some (.ok reported) ∧
      reported.next (.wcbConnect false) = some (.ok accepted) ∧
        ¬ recorded.Along (KeepsRequests reported.conn.wire.length) (.ok accepted, [])
          [.pollSend, .wcbSend [.error .eagain]] := by
  refine ⟨run_reported, next_accepted, fun along => ?_⟩
  obtain ⟨-, along⟩ := along _ rfl
  obtain ⟨⟨-, waits⟩, -⟩ := along _ rfl
  obtain ⟨next, later, same, live, -⟩ := waits _ _ _ rfl rfl rfl (List.mem_singleton_self _)
  obtain rfl := Except.ok.inj same
  cases live

end Mrps.Load
