import Mrps.Tester.Activity
import Mrps.Tester.Ledger
import Mrps.Tester.Message

/-!
# Before and after `connect`

Until `connect` runs, a handler has only its constructor's actions to do and nothing on the wire.
From then on `connect` never runs again, and all the handler ever writes is its message.
-/

namespace Mrps.Tester

/-! ## What the other callbacks may do -/

/-- The messages that a list of actions writes. -/
def messagesOf (actions : List Action) : List (List Byte) :=
  actions.filterMap fun
    | .asyncWrite bytes => some bytes
    | _ => none

/-- A callback other than `connect`: it keeps the message, writes nothing else, once for each timer
it pushes, does not connect, counts an error when it marks the handler errored, and does nothing on
an errored handler. -/
structure Tidy (before : ConnectionHandler) (reaction : Reaction) : Prop where
  serviceId : reaction.handler.serviceId = before.serviceId
  sendBuf : reaction.handler.sendBuf = before.sendBuf
  errored : before.errored = true → reaction.handler.errored = true ∧ reaction.actions = []
  later : ∀ action ∈ reaction.actions, action.Later
  errors : before.errored.toInt + errors reaction.actions = reaction.handler.errored.toInt
  writes : ∀ bytes, .asyncWrite bytes ∈ reaction.actions → bytes = before.sendBuf.take 32
  sends : reaction.handler.pushed.length =
    before.pushed.length + (messagesOf reaction.actions).length

theorem Tidy.connects {before : ConnectionHandler} {reaction : Reaction}
    (tidy : Tidy before reaction) : .asyncConnect ∉ reaction.actions :=
  fun member => tidy.later .asyncConnect member

section Callbacks

variable {handler : ConnectionHandler} {result : Reaction}

theorem tidy_of (handler : ConnectionHandler) : Tidy handler (.of handler) :=
  ⟨rfl, rfl, fun errored => ⟨errored, rfl⟩, by simp [Reaction.of], by simp [Reaction.of, errors],
    by simp [Reaction.of], rfl⟩

theorem tidy_failed (running : handler.errored = false) :
    Tidy handler (failed handler [] .exchangeErrors) where
  serviceId := rfl
  sendBuf := rfl
  errored := by simp [running]
  later := by simp [failed, Action.Later]
  errors := by simp [failed, running, errors, Action.amount, Update.amount]
  writes := by simp [failed]
  sends := rfl

theorem sendStaff_tidy {now : Time} (returned : sendStaff false now (.of handler) = .ok result) :
    Tidy handler result := by
  rcases sendStaff_cases returned with ⟨-, rfl⟩ | ⟨running, rfl⟩
  · exact tidy_of handler
  · exact ⟨rfl, rfl, by simp [running], by simp [requested, Action.Later],
      by simp [requested, errors, Action.amount], by simp [requested],
      by simp [requested, messagesOf]⟩

theorem stub_tidy (e : Bool) : Tidy handler (stub e handler) := by
  rcases stub_cases e with stubbed | ⟨running, stubbed⟩
  · rw [stubbed]
    exact tidy_of handler
  · rw [stubbed]
    exact tidy_failed running

theorem compareStaff_tidy {e : Bool} {transferred : Nat} {now : Time}
    (returned : compareStaff e transferred now handler = .ok result) : Tidy handler result := by
  have ways : Compared handler e transferred now _ := compareStaff_compared e transferred now
  rw [returned] at ways
  cases ways with
  | errored => exact tidy_of handler
  | mismatch running => exact tidy_failed running
  | @late timer tqueue accepts =>
      have failing : Tidy (handler.replied timer tqueue) _ := tidy_failed accepts.1
      exact ⟨rfl, rfl, failing.errored, failing.later, failing.errors, failing.writes,
        failing.sends⟩
  | sampled accepts =>
      exact ⟨rfl, rfl, by simp [accepts.1], by simp [sampled, Action.Later],
        by simp [sampled, ConnectionHandler.replied, errors, Action.amount, Update.amount],
        by simp [sampled], rfl⟩

end Callbacks

/-! ## The two phases -/

/-- The actions of the constructor of a handler that is not one too many. -/
def constructing : List Action :=
  [.waitBear, .update (.fetchAndAdd .connectionActive 1), .asyncConnect]

/-- `connect` has not run. -/
structure Fresh (activity : Activity) : Prop where
  todo : activity.todo <:+ constructing
  once : activity.connecting = true → activity.todo = []
  running : activity.handler.errored = false
  size : activity.handler.sendBuf.length = 33
  waiting : activity.waiting = false
  reading : activity.reading = false
  issued : activity.issued = []
  resuming : activity.resuming = []
  written : activity.written = []
  placed : activity.placed = []

/-- `connect` has run, and formed the message unless it failed. -/
structure Joined (activity : Activity) : Prop where
  connecting : activity.connecting = false
  connects : .asyncConnect ∉ activity.todo
  writes : ∀ bytes, .asyncWrite bytes ∈ activity.todo → bytes = activity.handler.sendBuf.take 32
  formed : (∃ random, random ≤ RAND_MAX ∧ activity.handler.sendBuf = message random ++ [0]) ∨
    activity.handler.errored = true ∧ activity.issued = [] ∧ activity.resuming = [] ∧
      ∀ bytes, .asyncWrite bytes ∉ activity.todo

theorem constructed_fresh (serviceId : Nat) (send read : Vector Byte 33) (now : Time) :
    Fresh (.constructed serviceId send read now) := by
  rw [Activity.constructed, ConnectionHandler.construct]
  split
  · constructor <;> simp [Reaction.of]
  · constructor <;> simp [Reaction.of, Reaction.act, Reaction.add, constructing]

variable {activity after : Activity} {event : ActivityEvent}

theorem react_eq_ok {callback : Except Fault Reaction}
    (reacted : activity.react callback = .ok after) :
    ∃ reaction, callback = .ok reaction ∧
      after = { activity with handler := reaction.handler, todo := reaction.actions } := by
  cases callback with
  | error fault => simp [Activity.react, Except.map] at reacted
  | ok reaction =>
      exact ⟨reaction, rfl, (Except.ok.inj reacted).symm⟩

theorem Fresh.started (fresh : Fresh activity) {action : Action} {todo : List Action}
    (split : activity.todo = action :: todo) : Fresh ({ activity with todo }.start action) := by
  have suffix := fresh.todo
  rw [split] at suffix
  have rest : todo <:+ constructing := (List.suffix_cons action todo).trans suffix
  have idle : activity.connecting = false := by
    cases connecting : activity.connecting with
    | false => rfl
    | true => simp [fresh.once connecting] at split
  have way : action = .waitBear ∨ action = .update (.fetchAndAdd .connectionActive 1) ∨
      action = .asyncConnect ∧ todo = [] := by
    rw [constructing] at suffix
    rcases List.suffix_cons_iff.mp suffix with first | suffix
    · exact Or.inl (List.cons.inj first).1
    · rcases List.suffix_cons_iff.mp suffix with second | suffix
      · exact Or.inr (Or.inl (List.cons.inj second).1)
      · rcases List.suffix_cons_iff.mp suffix with third | suffix
        · exact Or.inr (Or.inr (List.cons.inj third))
        · simp at suffix
  rcases way with rfl | rfl | ⟨rfl, rfl⟩
  · exact ⟨rest, by simp [Activity.start, idle], fresh.running, fresh.size, fresh.waiting,
      fresh.reading, fresh.issued, fresh.resuming, fresh.written, fresh.placed⟩
  · exact ⟨rest, by simp [Activity.start, idle], fresh.running, fresh.size, fresh.waiting,
      fresh.reading, fresh.issued, fresh.resuming, fresh.written, fresh.placed⟩
  · exact ⟨rest, fun _ => rfl, fresh.running, fresh.size, fresh.waiting, fresh.reading,
      fresh.issued, fresh.resuming, fresh.written, fresh.placed⟩

theorem Fresh.bear (fresh : Fresh activity) : Fresh { activity with bearing := false } :=
  ⟨fresh.todo, fresh.once, fresh.running, fresh.size, fresh.waiting, fresh.reading, fresh.issued,
    fresh.resuming, fresh.written, fresh.placed⟩

theorem Fresh.arrive (fresh : Fresh activity) (bytes : List Byte) :
    Fresh { activity with inbox := activity.inbox ++ bytes } :=
  ⟨fresh.todo, fresh.once, fresh.running, fresh.size, fresh.waiting, fresh.reading, fresh.issued,
    fresh.resuming, fresh.written, fresh.placed⟩

/-- What can happen before `connect` has run. -/
inductive Opening (activity : Activity) : ActivityEvent → Activity → Prop
  | perform {action : Action} {todo : List Action} : activity.todo = action :: todo →
      Opening activity .perform ({ activity with todo }.start action)
  | bear : activity.bearing = true → Opening activity .bear { activity with bearing := false }
  | arrive {bytes : List Byte} :
      Opening activity (.arrive bytes) { activity with inbox := activity.inbox ++ bytes }
  | connect {e : Bool} {connected now : Time} {random : Nat} {reaction : Reaction} :
      activity.todo = [] → activity.connecting = true → random ≤ RAND_MAX →
      Tester.connect e connected now random activity.handler = .ok reaction →
      Opening activity (.connect e connected now random)
        { activity with
          handler := reaction.handler
          todo := reaction.actions
          connecting := false }

theorem Fresh.opening (fresh : Fresh activity) (moves : Moves activity event (.ok after)) :
    Opening activity event after := by
  generalize result_eq : Except.ok after = result at moves
  cases moves with
  | perform split =>
      obtain rfl := Except.ok.inj result_eq
      exact .perform split
  | bear bearing =>
      obtain rfl := Except.ok.inj result_eq
      exact .bear bearing
  | connect idle connecting bound =>
      obtain ⟨reaction, returned, rfl⟩ := react_eq_ok result_eq.symm
      exact .connect idle connecting bound returned
  | exchange _ waiting => simp [fresh.waiting] at waiting
  | servePart split => simp [fresh.issued] at split
  | serveAll split => simp [fresh.issued] at split
  | serveFails split => simp [fresh.issued] at split
  | resume split => simp [fresh.resuming] at split
  | stub _ split => simp [fresh.written] at split
  | arrive =>
      obtain rfl := Except.ok.inj result_eq
      exact .arrive
  | read _ reading => simp [fresh.reading] at reading
  | readFails _ reading => simp [fresh.reading] at reading

/-- `connect` ends the first phase with nothing on the wire. -/
theorem Fresh.joined (fresh : Fresh activity) {e : Bool} {connected now : Time} {random : Nat}
    {reaction : Reaction} (bound : random ≤ RAND_MAX)
    (returned : connect e connected now random activity.handler = .ok reaction) :
    Joined { activity with
      handler := reaction.handler
      todo := reaction.actions
      connecting := false } := by
  have ways : Connected activity.handler connected now random _ :=
    connect_connected e connected now random
  rw [returned] at ways
  have formed := request_eq fresh.size bound
  cases ways with
  | failed =>
      exact ⟨rfl, by simp [failed, arrived], by simp [failed, arrived], Or.inr ⟨rfl, fresh.issued,
        fresh.resuming, by simp [failed, arrived]⟩⟩
  | joined =>
      exact ⟨rfl, by simp [requested, welcomed, arrived], by simp [requested, welcomed, arrived],
        Or.inl ⟨random, bound, formed⟩⟩
  | idle errored => simp [fresh.running] at errored

theorem Fresh.next (fresh : Fresh activity) (moves : Moves activity event (.ok after)) :
    Fresh after ∨ Joined after ∧ after.issued = [] ∧ after.resuming = [] ∧ after.placed = [] := by
  cases fresh.opening moves with
  | perform split => exact Or.inl (fresh.started split)
  | bear => exact Or.inl fresh.bear
  | connect _ _ bound returned =>
      exact Or.inr ⟨fresh.joined bound returned, fresh.issued, fresh.resuming, fresh.placed⟩
  | arrive => exact Or.inl (fresh.arrive _)

theorem Joined.started (joined : Joined activity) {action : Action} {todo : List Action}
    (split : activity.todo = action :: todo) : Joined ({ activity with todo }.start action) := by
  have connects := joined.connects
  have writes := joined.writes
  rw [split] at connects writes
  have connects' : .asyncConnect ∉ todo := fun member => connects (List.mem_cons_of_mem _ member)
  have writes' : ∀ bytes, .asyncWrite bytes ∈ todo → bytes = activity.handler.sendBuf.take 32 :=
    fun bytes member => writes bytes (List.mem_cons_of_mem _ member)
  have formed : (∃ random, random ≤ RAND_MAX ∧
      activity.handler.sendBuf = message random ++ [0]) ∨
      activity.handler.errored = true ∧ activity.issued = [] ∧ activity.resuming = [] ∧
        ∀ bytes, .asyncWrite bytes ∉ action :: todo := split ▸ joined.formed
  have formed' := formed.imp id fun silent =>
    And.intro silent.1 (And.intro silent.2.1 (And.intro silent.2.2.1
      fun bytes member => silent.2.2.2 bytes (List.mem_cons_of_mem _ member)))
  cases action with
  | update _ => exact ⟨joined.connecting, connects', writes', formed'⟩
  | waitBear => exact ⟨joined.connecting, connects', writes', formed'⟩
  | asyncConnect => simp at connects
  | waitExch => exact ⟨joined.connecting, connects', writes', formed'⟩
  | asyncRead => exact ⟨joined.connecting, connects', writes', formed'⟩
  | asyncWrite bytes =>
      refine ⟨joined.connecting, connects', writes', Or.inl ?_⟩
      exact formed.resolve_right fun silent => silent.2.2.2 bytes List.mem_cons_self

/-- A tidy callback keeps the second phase. -/
theorem Joined.reacted {current : Activity} (joined : Joined current) {handler : ConnectionHandler}
    (sendBuf : handler.sendBuf = current.handler.sendBuf)
    (errored : handler.errored = current.handler.errored) {callback : Except Fault Reaction}
    (tidy : ∀ reaction, callback = .ok reaction → Tidy handler reaction)
    (reacted : current.react callback = .ok after) : Joined after := by
  obtain ⟨reaction, returned, rfl⟩ := react_eq_ok reacted
  have tidy := tidy reaction returned
  have kept : reaction.handler.sendBuf = current.handler.sendBuf := tidy.sendBuf.trans sendBuf
  refine ⟨joined.connecting, tidy.connects, ?_, ?_⟩
  · intro bytes member
    rw [tidy.writes bytes member, sendBuf, ← kept]
  · rcases joined.formed with ⟨random, bound, formed⟩ | ⟨was_errored, issued, resuming, -⟩
    · exact Or.inl ⟨random, bound, kept.trans formed⟩
    · obtain ⟨still, silent⟩ := tidy.errored (errored.trans was_errored)
      exact Or.inr ⟨still, issued, resuming, by simp [silent]⟩

theorem Joined.next (joined : Joined activity) (moves : Moves activity event (.ok after)) :
    Joined after := by
  generalize result_eq : Except.ok after = result at moves
  cases moves with
  | @perform action todo split =>
      obtain rfl := Except.ok.inj result_eq
      exact joined.started split
  | bear =>
      obtain rfl := Except.ok.inj result_eq
      exact ⟨joined.connecting, joined.connects, joined.writes, joined.formed⟩
  | connect _ connecting => simp [joined.connecting] at connecting
  | exchange =>
      have current : Joined { activity with waiting := false } :=
        ⟨joined.connecting, joined.connects, joined.writes, joined.formed⟩
      exact current.reacted rfl rfl (fun _ => sendStaff_tidy) result_eq.symm
  | servePart split =>
      obtain rfl := Except.ok.inj result_eq
      refine ⟨joined.connecting, joined.connects, joined.writes, ?_⟩
      exact joined.formed.imp id fun silent => by simp [silent.2.1] at split
  | serveAll split =>
      obtain rfl := Except.ok.inj result_eq
      refine ⟨joined.connecting, joined.connects, joined.writes, ?_⟩
      exact joined.formed.imp id fun silent => by simp [silent.2.1] at split
  | serveFails split =>
      obtain rfl := Except.ok.inj result_eq
      refine ⟨joined.connecting, joined.connects, joined.writes, ?_⟩
      exact joined.formed.imp id fun silent => by simp [silent.2.1] at split
  | resume split =>
      obtain rfl := Except.ok.inj result_eq
      refine ⟨joined.connecting, joined.connects, joined.writes, ?_⟩
      exact joined.formed.imp id fun silent => by simp [silent.2.2.1] at split
  | @stub e written =>
      have current : Joined { activity with written } :=
        ⟨joined.connecting, joined.connects, joined.writes, joined.formed⟩
      refine current.reacted rfl rfl ?_ result_eq.symm
      rintro reaction ⟨⟩
      exact stub_tidy e
  | arrive =>
      obtain rfl := Except.ok.inj result_eq
      exact ⟨joined.connecting, joined.connects, joined.writes, joined.formed⟩
  | read =>
      have current : Joined (activity.receive 32) :=
        ⟨joined.connecting, joined.connects, joined.writes, joined.formed⟩
      exact current.reacted rfl rfl (fun _ => compareStaff_tidy) result_eq.symm
  | @readFails transferred =>
      have current : Joined (activity.receive transferred) :=
        ⟨joined.connecting, joined.connects, joined.writes, joined.formed⟩
      exact current.reacted rfl rfl (fun _ => compareStaff_tidy) result_eq.symm

theorem Tidy.reacted {current : Activity} {handler : ConnectionHandler}
    {callback : Except Fault Reaction}
    (tidy : ∀ reaction, callback = .ok reaction → Tidy handler reaction)
    (reacted : current.react callback = .ok after) : after.handler.sendBuf = handler.sendBuf := by
  obtain ⟨reaction, returned, rfl⟩ := react_eq_ok reacted
  exact (tidy reaction returned).sendBuf

theorem Joined.sendBuf_eq (joined : Joined activity) (moves : Moves activity event (.ok after)) :
    after.handler.sendBuf = activity.handler.sendBuf := by
  generalize result_eq : Except.ok after = result at moves
  cases moves with
  | @perform action =>
      obtain rfl := Except.ok.inj result_eq
      cases action <;> rfl
  | connect _ connecting => simp [joined.connecting] at connecting
  | exchange => exact Tidy.reacted (fun _ => sendStaff_tidy) result_eq.symm
  | @stub e written =>
      have tidy : ∀ reaction, (.ok (stub e activity.handler) : Except Fault Reaction) =
          .ok reaction → Tidy activity.handler reaction := by
        rintro reaction ⟨⟩
        exact stub_tidy e
      exact Tidy.reacted tidy result_eq.symm
  | read =>
      have kept := Tidy.reacted (fun _ => compareStaff_tidy) result_eq.symm
      exact kept
  | readFails =>
      have kept := Tidy.reacted (fun _ => compareStaff_tidy) result_eq.symm
      exact kept
  | bear => rw [Except.ok.inj result_eq]
  | servePart => rw [Except.ok.inj result_eq]
  | serveAll => rw [Except.ok.inj result_eq]
  | serveFails => rw [Except.ok.inj result_eq]
  | resume => rw [Except.ok.inj result_eq]
  | arrive => rw [Except.ok.inj result_eq]

end Mrps.Tester
