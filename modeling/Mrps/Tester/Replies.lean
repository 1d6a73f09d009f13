import Mrps.Tester.Sends

/-!
# Replies that nobody asked for

All requests of a handler carry the same message, so a reply that equals it need not answer one.
What tells the two apart is the number of replies on the stream and the number of requests written;
`compare_staff` looks at neither.
-/

namespace Mrps.Tester

open EventSystem

/-- The whole replies that finished reads have taken off the connection. -/
def Activity.replies (activity : Activity) : Nat := activity.consumed.length / 32

/-- The requests whose `async_write` has been started. -/
def Activity.requests (activity : Activity) : Nat := (messagesOf activity.performed).length

/-- A reply that equals the request, as `strncmp` compares them, is read only after more requests
were written than replies read. -/
def Solicited (state : Except Fault Activity) (event : ActivityEvent) (_ : Except Fault Activity) :
    Prop :=
  match state, event with
  | .ok activity, .read _ =>
      activity.handler.errored = false →
        strncmp activity.handler.sendBuf (activity.inbox.take 32) 32 = 0 →
          activity.replies < activity.requests
  | _, _ => True

/-- A reply that is read when no fewer replies were read than requests written makes the handler
errored and is counted as an exchange error. -/
def UnsolicitedCounted (state : Except Fault Activity) (event : ActivityEvent)
    (next : Except Fault Activity) : Prop :=
  match state, event with
  | .ok activity, .read _ =>
      activity.handler.errored = false → activity.requests ≤ activity.replies →
        ∃ after, next = .ok after ∧ after.handler.errored = true ∧
          after.todo = [.update (.fetchAndAdd .exchangeErrors 1)]
  | _, _ => True

instance (state : Except Fault Activity) (event : ActivityEvent) (next : Except Fault Activity) :
    Decidable (Solicited state event next) := by
  rw [Solicited.eq_def]
  split <;> infer_instance

/-! ## Requests and replies against the queue -/

/-- One request is written, or about to be, for each timer pushed. -/
def Written (activity : Activity) : Prop :=
  (messagesOf (activity.performed ++ activity.todo)).length = activity.handler.pushed.length

theorem messagesOf_append (front back : List Action) :
    messagesOf (front ++ back) = messagesOf front ++ messagesOf back :=
  List.filterMap_append

theorem constructed_written (serviceId : Nat) (send read : Vector Byte 33) (now : Time) :
    Written (.constructed serviceId send read now) := by
  rw [Written, Activity.constructed, ConnectionHandler.construct]
  split <;> rfl

variable {activity after : Activity} {event : ActivityEvent}

/-- `connect` writes a request if it pushes a timer. -/
theorem connect_sends {handler : ConnectionHandler} {e : Bool} {connected now : Time}
    {random : Nat} {reaction : Reaction}
    (returned : connect e connected now random handler = .ok reaction) :
    reaction.handler.pushed.length =
      handler.pushed.length + (messagesOf reaction.actions).length := by
  have ways : Connected handler connected now random _ := connect_connected e connected now random
  rw [returned] at ways
  cases ways with
  | failed => rfl
  | joined => simp [requested, welcomed, arrived, messagesOf, ConnectionHandler.joined]
  | idle => rfl

/-- The replies accepted never outnumber the requests written. -/
structure Counted (activity : Activity) : Prop where
  order : activity.handler.InOrder
  replied : Replied activity
  written : Written activity
  behind : activity.handler.popped.length ≤ activity.requests

theorem ConnectionHandler.InOrder.popped_le {handler : ConnectionHandler}
    (order : handler.InOrder) : handler.popped.length ≤ handler.pushed.length := by
  have lengths := congrArg List.length order.queue
  rw [List.length_append] at lengths
  omega

/-- A callback writes a request for each timer it pushes, and either pushes or pops. -/
theorem Written.reacted {current : Activity} (written : Written current)
    (order : current.handler.InOrder) (idle : current.todo = [])
    {callback : Except Fault Reaction}
    (sends : ∀ reaction, callback = .ok reaction → reaction.handler.pushed.length =
      current.handler.pushed.length + (messagesOf reaction.actions).length)
    (one : ∀ reaction, callback = .ok reaction →
      reaction.handler.popped = current.handler.popped ∨
        reaction.handler.pushed = current.handler.pushed)
    (reacted : current.react callback = .ok after) (order' : after.handler.InOrder) :
    Written after ∧ after.handler.popped.length ≤ after.requests := by
  obtain ⟨reaction, returned, rfl⟩ := react_eq_ok reacted
  rw [Written, idle, List.append_nil] at written
  constructor
  · rw [Written, messagesOf_append, List.length_append, sends reaction returned, written]
  · change reaction.handler.popped.length ≤ (messagesOf current.performed).length
    rw [written]
    rcases one reaction returned with popped | pushed
    · rw [popped]
      exact order.popped_le
    · rw [← pushed]
      exact order'.popped_le

theorem connect_one {handler : ConnectionHandler} {e : Bool} {connected now : Time} {random : Nat}
    {reaction : Reaction} (returned : connect e connected now random handler = .ok reaction) :
    reaction.handler.popped = handler.popped ∨ reaction.handler.pushed = handler.pushed := by
  have ways : Connected handler connected now random _ := connect_connected e connected now random
  rw [returned] at ways
  cases ways with
  | failed => exact Or.inl rfl
  | joined => exact Or.inl rfl
  | idle => exact Or.inl rfl

theorem sendStaff_one {handler : ConnectionHandler} {now : Time} {reaction : Reaction}
    (returned : sendStaff false now (.of handler) = .ok reaction) :
    reaction.handler.popped = handler.popped ∨ reaction.handler.pushed = handler.pushed := by
  rcases sendStaff_cases returned with ⟨-, rfl⟩ | ⟨-, rfl⟩
  · exact Or.inl rfl
  · exact Or.inl rfl

theorem stub_one {handler : ConnectionHandler} (e : Bool) :
    (stub e handler).handler.popped = handler.popped ∨
      (stub e handler).handler.pushed = handler.pushed := by
  rcases stub_cases e with stubbed | ⟨-, stubbed⟩
  · exact Or.inl (by rw [stubbed]; rfl)
  · exact Or.inl (by rw [stubbed]; rfl)

theorem compareStaff_one {handler : ConnectionHandler} {e : Bool} {transferred : Nat} {now : Time}
    {reaction : Reaction} (returned : compareStaff e transferred now handler = .ok reaction) :
    reaction.handler.popped = handler.popped ∨ reaction.handler.pushed = handler.pushed := by
  have ways : Compared handler e transferred now _ := compareStaff_compared e transferred now
  rw [returned] at ways
  cases ways with
  | errored => exact Or.inr rfl
  | mismatch => exact Or.inr rfl
  | late => exact Or.inr rfl
  | sampled => exact Or.inr rfl

theorem constructed_counted (serviceId : Nat) (send read : Vector Byte 33) (now : Time) :
    Counted (.constructed serviceId send read now) where
  order := constructed_inOrder serviceId send read now
  replied := constructed_replied serviceId send read now
  written := constructed_written serviceId send read now
  behind := by
    rw [Activity.constructed, ConnectionHandler.construct]
    split <;> exact le_rfl

theorem Counted.next (counted : Counted activity) (moves : Moves activity event (.ok after)) :
    Counted after := by
  obtain ⟨order, replied, written, behind⟩ := counted
  have order' : after.handler.InOrder := by
    rcases orderly_next order moves with ⟨good, -⟩ | ⟨fault, -⟩
    · exact good
    · cases fault
  have both : Written after ∧ after.handler.popped.length ≤ after.requests := by
    generalize result_eq : Except.ok after = result at moves
    cases moves with
    | @perform action todo split =>
        obtain rfl := Except.ok.inj result_eq
        rw [Written, split] at written
        refine ⟨?_, ?_⟩
        · simpa [Written] using written
        · rw [Activity.requests, Activity.start_performed, messagesOf_append, List.length_append,
            Activity.start_handler]
          exact behind.trans (Nat.le_add_right _ _)
    | connect idle =>
        have current : Written { activity with connecting := false } := written
        exact current.reacted order idle (fun _ => connect_sends) (fun _ => connect_one)
          result_eq.symm order'
    | exchange idle =>
        have current : Written { activity with waiting := false } := written
        exact current.reacted order idle (fun _ returned => (sendStaff_tidy returned).sends)
          (fun _ => sendStaff_one) result_eq.symm order'
    | @stub e rest idle =>
        have current : Written { activity with written := rest } := written
        refine current.reacted order idle ?_ ?_ result_eq.symm order'
        · rintro reaction ⟨⟩
          exact (stub_tidy e).sends
        · rintro reaction ⟨⟩
          exact stub_one e
    | read idle =>
        have current : Written (activity.receive 32) := written
        exact current.reacted (receive_inOrder order 32) idle
          (fun _ returned => (compareStaff_tidy returned).sends) (fun _ => compareStaff_one)
          result_eq.symm order'
    | @readFails transferred _ idle =>
        have current : Written (activity.receive transferred) := written
        exact current.reacted (receive_inOrder order transferred) idle
          (fun _ returned => (compareStaff_tidy returned).sends) (fun _ => compareStaff_one)
          result_eq.symm order'
    | bear | servePart | serveAll | serveFails | resume | arrive =>
        obtain rfl := Except.ok.inj result_eq
        exact ⟨written, behind⟩
  exact ⟨order', replied.next moves, both.1, both.2⟩

theorem Counted.replies_eq (counted : Counted activity)
    (running : activity.handler.errored = false) :
    activity.replies = activity.handler.popped.length := by
  rw [Activity.replies, counted.replied running, Nat.mul_div_cancel _ (by decide)]

theorem Counted.requests_eq (counted : Counted activity) (idle : activity.todo = []) :
    activity.requests = activity.handler.pushed.length := by
  have written := counted.written
  rwa [Written, idle, List.append_nil] at written

/-! ## Runs -/

/-- A step accepts a reply only while a request is unanswered exactly if it reads one that equals
the request only after more requests than replies. -/
theorem Counted.answers_iff (counted : Counted activity) {result : Except Fault Activity}
    (moves : Moves activity event result) :
    Answers (.ok activity) event result ↔ Solicited (.ok activity) event result := by
  cases moves with
  | read idle =>
      apply forall_congr'
      intro running
      rw [counted.replies_eq running, counted.requests_eq idle]
  | perform | bear | connect | exchange | servePart | serveAll | serveFails | resume | stub | arrive
  | readFails => exact Iff.rfl

theorem unsolicited_counted {result : Except Fault Activity} (moves : Moves activity event result)
    (solicited : Solicited (.ok activity) event result) :
    UnsolicitedCounted (.ok activity) event result := by
  cases moves with
  | @read now idle reading enough =>
      intro running full
      have differs : ¬ (activity.receive 32).handler.Accepts false 32 := by
        rintro ⟨-, -, -, same⟩
        exact absurd (solicited running ((receive_strncmp enough).symm.trans same))
          (Nat.not_lt.mpr full)
      have ways : Compared (activity.receive 32).handler false 32 now _ :=
        compareStaff_compared false 32 now
      generalize compareStaff false 32 now (activity.receive 32).handler = outcome at ways
      cases ways with
      | errored errored => simp [Activity.receive, running] at errored
      | mismatch => exact ⟨_, rfl, rfl, rfl⟩
      | empty accepts => exact (differs accepts).elim
      | late accepts => exact (differs accepts).elim
      | sampled accepts => exact (differs accepts).elim
  | perform | bear | connect | exchange | servePart | serveAll | serveFails | resume | stub | arrive
  | readFails => trivial

theorem counted_preserved : activitySystem.Preserves
    fun state => ∀ activity, state = .ok activity → Counted activity := by
  rintro (fault | before) event next counted step activity rfl
  · simp [activitySystem] at step
  · exact (counted before rfl).next (moves_of_next step)

/-- `compare_staff` never meets an empty queue, what answers no request is counted as an exchange
error, and the replies read never outnumber the requests written while the handler is not errored,
exactly along the runs in which a reply that equals the request is read only after more requests
than replies. -/
theorem queue_never_empty_iff {serviceId : Nat} {send read : Vector Byte 33} {now : Time}
    {events : List ActivityEvent} {state : Except Fault Activity}
    (execution : activitySystem.run (.ok (.constructed serviceId send read now)) events =
      some state) :
    (∃ activity, state = .ok activity ∧
        (activity.handler.errored = false → activity.replies ≤ activity.requests)) ∧
      activitySystem.Along UnsolicitedCounted (.ok (.constructed serviceId send read now)) events ↔
        activitySystem.Along Solicited (.ok (.constructed serviceId send read now)) events := by
  have start : ∀ activity, (.ok (.constructed serviceId send read now) : Except Fault Activity) =
      .ok activity → Counted activity := by
    rintro _ ⟨⟩
    exact constructed_counted serviceId send read now
  have answers_iff : activitySystem.Along Answers (.ok (.constructed serviceId send read now))
      events ↔
        activitySystem.Along Solicited (.ok (.constructed serviceId send read now)) events := by
    apply along_congr counted_preserved _ start
    intro state event next _ counted step
    cases state with
    | error fault => exact Iff.rfl
    | ok activity => exact (counted activity rfl).answers_iff (moves_of_next step)
  constructor
  · rintro ⟨⟨activity, ran, -⟩, -⟩
    exact answers_iff.mp ((ran_iff_answers execution).mp ⟨activity, ran⟩)
  · intro solicited
    obtain ⟨activity, rfl⟩ := (ran_iff_answers execution).mpr (answers_iff.mpr solicited)
    have counted := counted_preserved.run start execution activity rfl
    refine ⟨⟨activity, rfl, fun running => ?_⟩, ?_⟩
    · rw [counted.replies_eq running]
      exact counted.behind
    · rw [along_iff] at solicited ⊢
      intro front event back state next split front_run step
      have here := solicited front event back state next split front_run step
      cases state with
      | error fault => trivial
      | ok activity => exact unsolicited_counted (moves_of_next step) here

/-- A server that answers the first request and then sends 32 other bytes. -/
def unsolicited : List ActivityEvent :=
  firstRequest ++ [.arrive zeroMessage, .read 7] ++ List.replicate 3 .perform ++
    [.arrive (List.replicate 32 65), .read 9]

theorem queue_never_empty_iff_unsolicited : ∃ activity,
    activitySystem.run zeroed unsolicited = some (.ok activity) ∧
      activity.handler.errored = true ∧ activity.handler.popped.length = 1 ∧
      activitySystem.Along UnsolicitedCounted zeroed unsolicited := by
  obtain ⟨activity, execution, errored, popped⟩ : ∃ activity,
      activitySystem.run zeroed unsolicited = some (.ok activity) ∧
        activity.handler.errored = true ∧ activity.handler.popped.length = 1 :=
    ⟨_, rfl, by decide, by decide⟩
  have solicited : activitySystem.Along Solicited zeroed unsolicited := by decide
  exact ⟨activity, execution, errored, popped,
    ((queue_never_empty_iff execution).mpr solicited).2⟩

/-! ## A reply that comes twice -/

/-- The second copy of the reply meets an empty queue. -/
theorem duplicated_reply_faults :
    activitySystem.run zeroed (firstRequest ++
      [.arrive (zeroMessage ++ zeroMessage), .read 7] ++ List.replicate 3 .perform ++ [.read 7]) =
      some (.error .emptyQueue) := by
  decide

end Mrps.Tester
