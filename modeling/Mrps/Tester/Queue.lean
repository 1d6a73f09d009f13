import Mrps.Tester.Activity
import Mrps.Tester.Callbacks

/-!
# Requests and replies of one handler

The queue of timers holds the timers of the requests that no reply has answered, in order, and a
callback faults exactly if it accepts a reply while the queue is empty.
-/

namespace Mrps.Tester

open EventSystem

/-! ## The queue and its history -/

/-- The queue holds the pushed timers that were not popped, and the samples were measured from the
popped timers in their order. -/
structure ConnectionHandler.InOrder (handler : ConnectionHandler) : Prop where
  queue : handler.popped ++ handler.tqueue = handler.pushed
  samples : handler.samples.map Prod.fst <+: handler.popped
  /-- Only a reply that makes the handler errored leaves no sample. -/
  complete : handler.errored = false → handler.samples.map Prod.fst = handler.popped

namespace ConnectionHandler.InOrder

variable {handler : ConnectionHandler} {reaction : Reaction}

/-- The queue is empty exactly when as many replies were accepted as requests were made. -/
theorem tqueue_eq_nil_iff (order : handler.InOrder) :
    handler.tqueue = [] ↔ ¬ handler.popped.length < handler.pushed.length := by
  have lengths := congrArg List.length order.queue
  rw [List.length_append] at lengths
  rw [← List.length_eq_zero_iff]
  omega

theorem failed (order : handler.InOrder) (front : List Action) (counter : Counter) :
    (failed handler front counter).handler.InOrder :=
  ⟨order.queue, order.samples, by simp [Tester.failed]⟩

theorem requested (order : handler.InOrder) (front : List Action) (now : Time) :
    (requested handler front now).handler.InOrder where
  queue := by
    have queue := order.queue
    simp only [Tester.requested]
    rw [← List.append_assoc, queue]
  samples := order.samples
  complete := order.complete

theorem late (order : handler.InOrder) {timer : Timer} {tqueue : List Timer}
    (split : handler.tqueue = timer :: tqueue) (front : List Action) (counter : Counter) :
    (Tester.failed (handler.replied timer tqueue) front counter).handler.InOrder where
  queue := by
    rw [Tester.failed, ConnectionHandler.replied, ← order.queue, split]
    simp
  samples := order.samples.trans (List.prefix_append _ _)
  complete := by simp [Tester.failed]

theorem sampled (order : handler.InOrder) (running : handler.errored = false) {timer : Timer}
    {tqueue : List Timer} (split : handler.tqueue = timer :: tqueue) (now : Time) :
    (sampled (handler.replied timer tqueue) timer now).handler.InOrder where
  queue := by
    rw [Tester.sampled, ConnectionHandler.replied, ← order.queue, split]
    simp
  samples := by simp [Tester.sampled, ConnectionHandler.replied, order.complete running]
  complete := by simp [Tester.sampled, ConnectionHandler.replied, order.complete running]

end ConnectionHandler.InOrder

/-! ## What the callbacks do to the queue -/

section Callbacks

variable {handler : ConnectionHandler}

/-- `send_staff` fails its assertion only when it is told of an error. -/
theorem sendStaff_inOrder (now : Time) (order : handler.InOrder) :
    ∃ result, sendStaff false now (.of handler) = .ok result ∧ result.handler.InOrder := by
  cases errored : handler.errored with
  | true => exact ⟨_, sendStaff_errored now errored, order⟩
  | false => exact ⟨_, sendStaff_running now errored, order.requested _ now⟩

theorem connect_inOrder (e : Bool) (connected now : Time) (random : Nat)
    (order : handler.InOrder) :
    ∃ result, connect e connected now random handler = .ok result ∧ result.handler.InOrder := by
  have ways : Connected handler connected now random _ := connect_connected e connected now random
  generalize connect e connected now random handler = outcome at ways ⊢
  cases ways with
  | failed => exact ⟨_, rfl, order.failed _ _⟩
  | joined =>
      have joined : (handler.joined random).InOrder := ⟨order.queue, order.samples, order.complete⟩
      exact ⟨_, rfl, joined.requested _ now⟩
  | idle => exact ⟨_, rfl, order.queue, order.samples, order.complete⟩

theorem stub_inOrder (e : Bool) (order : handler.InOrder) : (stub e handler).handler.InOrder := by
  rcases stub_cases e with stubbed | ⟨-, stubbed⟩
  · rw [stubbed]
    exact order
  · rw [stubbed]
    exact order.failed _ _

/-- `compare_staff` keeps the queue in order, unless it accepts a reply that answers nothing. -/
theorem compareStaff_inOrder (e : Bool) (transferred : Nat) (now : Time)
    (order : handler.InOrder) :
    (∃ result, compareStaff e transferred now handler = .ok result ∧ result.handler.InOrder ∧
        ¬ (handler.Accepts e transferred ∧ handler.tqueue = [])) ∨
      compareStaff e transferred now handler = .error .emptyQueue ∧
        handler.Accepts e transferred ∧ handler.tqueue = [] := by
  have ways : Compared handler e transferred now _ := compareStaff_compared e transferred now
  generalize compareStaff e transferred now handler = outcome at ways ⊢
  cases ways with
  | errored errored =>
      refine Or.inl ⟨_, rfl, order, ?_⟩
      rintro ⟨⟨running, -⟩, -⟩
      simp [errored] at running
  | mismatch _ mismatch => exact Or.inl ⟨_, rfl, order.failed _ _, fun both => mismatch both.1⟩
  | empty accepts empty => exact Or.inr ⟨rfl, accepts, empty⟩
  | late accepts queue => exact Or.inl ⟨_, rfl, order.late queue _ _, by simp [queue]⟩
  | sampled accepts queue =>
      exact Or.inl ⟨_, rfl, order.sampled accepts.1 queue now, by simp [queue]⟩

end Callbacks

/-! ## Runs -/

/-- No fault has happened and the queue is in order. -/
def Orderly : Except Fault Activity → Prop
  | .ok activity => activity.handler.InOrder
  | .error _ => False

/-- A reply that equals the request as `strncmp` compares them finishes its read only while a
request is unanswered. -/
def Answers (state : Except Fault Activity) (event : ActivityEvent) (_ : Except Fault Activity) :
    Prop :=
  match state, event with
  | .ok activity, .read _ =>
      activity.handler.errored = false →
        strncmp activity.handler.sendBuf (activity.inbox.take 32) 32 = 0 →
          activity.handler.popped.length < activity.handler.pushed.length
  | _, _ => True

theorem strncmp_take (left right : List Byte) (size : Nat) :
    strncmp left (right.take size) size = strncmp left right size := by
  induction size generalizing left right with
  | zero => simp [strncmp]
  | succ size ih =>
      cases left with
      | nil => cases right <;> simp [strncmp]
      | cons first left =>
          cases right with
          | nil => simp
          | cons second right => simp only [List.take_succ_cons, strncmp, ih]

theorem receive_readBuf {activity : Activity} {count : Nat}
    (enough : count ≤ activity.inbox.length) :
    (activity.receive count).handler.readBuf.take count = activity.inbox.take count := by
  simp [Activity.receive, Region.overwrite, enough]

theorem receive_strncmp {activity : Activity} (enough : 32 ≤ activity.inbox.length) :
    strncmp activity.handler.sendBuf (activity.receive 32).handler.readBuf 32 =
      strncmp activity.handler.sendBuf (activity.inbox.take 32) 32 := by
  rw [← strncmp_take, receive_readBuf enough]

theorem receive_inOrder {activity : Activity} (order : activity.handler.InOrder) (count : Nat) :
    (activity.receive count).handler.InOrder := ⟨order.queue, order.samples, order.complete⟩

theorem react_orderly {activity : Activity} {callback : Except Fault Reaction}
    (order : ∃ result, callback = .ok result ∧ result.handler.InOrder) :
    Orderly (activity.react callback) := by
  obtain ⟨result, rfl, order⟩ := order
  exact order

theorem start_inOrder {activity : Activity} (order : activity.handler.InOrder) (action : Action) :
    (activity.start action).handler.InOrder := by
  cases action <;> exact order

/-- A step goes wrong exactly when it accepts a reply that answers no request. -/
theorem orderly_next {activity : Activity} {event : ActivityEvent} {result : Except Fault Activity}
    (order : activity.handler.InOrder) (moves : Moves activity event result) :
    Orderly result ∧ Answers (.ok activity) event result ∨
      result = .error .emptyQueue ∧ ¬ Answers (.ok activity) event result := by
  cases moves with
  | @perform action todo _ =>
      have begun : ({ activity with todo } : Activity).handler.InOrder := order
      exact Or.inl ⟨start_inOrder begun action, trivial⟩
  | bear => exact Or.inl ⟨order, trivial⟩
  | connect => exact Or.inl ⟨react_orderly (connect_inOrder _ _ _ _ order), trivial⟩
  | exchange now =>
      have begun : (Reaction.of activity.handler).handler.InOrder := order
      exact Or.inl ⟨react_orderly (sendStaff_inOrder _ begun), trivial⟩
  | servePart => exact Or.inl ⟨order, trivial⟩
  | serveAll => exact Or.inl ⟨order, trivial⟩
  | serveFails => exact Or.inl ⟨order, trivial⟩
  | resume => exact Or.inl ⟨order, trivial⟩
  | stub => exact Or.inl ⟨react_orderly ⟨_, rfl, stub_inOrder _ order⟩, trivial⟩
  | arrive => exact Or.inl ⟨order, trivial⟩
  | @read now _ _ enough =>
      have received := receive_inOrder order 32
      have compared := receive_strncmp enough
      rcases compareStaff_inOrder false 32 now received with
        ⟨result, returned, order', fine⟩ | ⟨fault, ⟨running, -, -, same⟩, empty⟩
      · refine Or.inl ⟨react_orderly ⟨result, returned, order'⟩, ?_⟩
        intro running same
        by_contra full
        exact fine ⟨⟨running, rfl, rfl, compared.trans same⟩, received.tqueue_eq_nil_iff.mpr full⟩
      · refine Or.inr ⟨by rw [fault]; rfl, ?_⟩
        intro answers
        exact received.tqueue_eq_nil_iff.mp empty (answers running (compared.symm.trans same))
  | @readFails transferred now _ _ short _ =>
      have received := receive_inOrder order transferred
      rcases compareStaff_inOrder true transferred now received with
        ⟨result, returned, order', -⟩ | ⟨-, ⟨-, wrong, -⟩, -⟩
      · exact Or.inl ⟨react_orderly ⟨result, returned, order'⟩, trivial⟩
      · simp at wrong

theorem constructed_inOrder (serviceId : Nat) (send read : Vector Byte 33) (now : Time) :
    (Activity.constructed serviceId send read now).handler.InOrder := by
  rw [Activity.constructed, ConnectionHandler.construct]
  split <;> exact ⟨rfl, List.prefix_rfl, fun _ => rfl⟩

/-- In every state a handler reaches without a fault its queue is in order. -/
theorem run_inOrder {serviceId : Nat} {send read : Vector Byte 33} {now : Time}
    {events : List ActivityEvent} {activity : Activity}
    (execution : activitySystem.run (.ok (.constructed serviceId send read now)) events =
      some (.ok activity)) : activity.handler.InOrder := by
  have preserves : activitySystem.Preserves
      fun state => ∀ activity, state = .ok activity → activity.handler.InOrder := by
    rintro (fault | before) event next order step activity rfl
    · simp [activitySystem] at step
    · rcases orderly_next (order before rfl) (moves_of_next step) with ⟨good, -⟩ | ⟨fault, -⟩
      · exact good
      · simp at fault
  refine preserves.run ?_ execution activity rfl
  rintro _ ⟨⟩
  exact constructed_inOrder serviceId send read now

/-- A run is without a fault exactly if every reply that equals the request finishes its read while
a request is unanswered. -/
theorem ran_iff_answers {serviceId : Nat} {send read : Vector Byte 33} {now : Time}
    {events : List ActivityEvent} {state : Except Fault Activity}
    (execution : activitySystem.run (.ok (.constructed serviceId send read now)) events =
      some state) :
    (∃ activity, state = .ok activity) ↔
      activitySystem.Along Answers (.ok (.constructed serviceId send read now)) events := by
  have start : Orderly (.ok (.constructed serviceId send read now)) :=
    constructed_inOrder serviceId send read now
  have exact_step : ∀ state event next, Orderly state →
      activitySystem.step state event = some next →
        Orderly next ∧ Answers state event next ∨
          ¬ Orderly next ∧ ¬ Answers state event next ∧
            ∀ later, activitySystem.step next later = none := by
    intro state event next orderly step
    cases state with
    | error fault => exact orderly.elim
    | ok activity =>
        rcases orderly_next orderly (moves_of_next step) with good | ⟨rfl, unanswered⟩
        · exact Or.inl good
        · exact Or.inr ⟨id, unanswered, fun _ => rfl⟩
  rw [← good_iff_along exact_step start execution]
  cases state with
  | error fault => simp [Orderly]
  | ok activity => exact iff_of_true ⟨activity, rfl⟩ (run_inOrder execution)

end Mrps.Tester
