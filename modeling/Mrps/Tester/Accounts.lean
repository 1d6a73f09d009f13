import Mrps.Tester.Phase

/-!
# The account of one handler

What a handler has done together with what it has still to do is fixed up to the end of `connect`'s
two updates.  From there on it only counts messages, times and at most one error.
-/

namespace Mrps.Tester

open SharedCounters

/-! ## Steps as the account sees them -/

/-- The action that an event performs. -/
def Activity.performs (activity : Activity) : ActivityEvent → List Action
  | .perform => activity.todo.take 1
  | _ => []

/-- The children a handler is still going to spawn. -/
def Activity.spawns (activity : Activity) : Nat :=
  activity.todo.count .waitBear + activity.bearing.toNat

/-- A step after `connect` performs an action, expires `bear_tmr`, ends in a tidy callback or leaves
the account alone. -/
inductive Ongoing (activity : Activity) : ActivityEvent → Activity → Prop
  | perform {action : Action} {todo : List Action} : activity.todo = action :: todo →
      Ongoing activity .perform ({ activity with todo }.start action)
  | bear : activity.bearing = true → Ongoing activity .bear { activity with bearing := false }
  | react {event : ActivityEvent} {current : Activity} {handler : ConnectionHandler}
      {reaction : Reaction} : event ≠ .perform → event ≠ .bear → activity.todo = [] →
      current.performed = activity.performed → current.bearing = activity.bearing →
      handler.errored = activity.handler.errored →
      handler.serviceId = activity.handler.serviceId → Tidy handler reaction →
      Ongoing activity event
        { current with handler := reaction.handler, todo := reaction.actions }
  | still {event : ActivityEvent} {after : Activity} : event ≠ .perform → event ≠ .bear →
      after.performed = activity.performed → after.bearing = activity.bearing →
      after.handler = activity.handler → after.todo = activity.todo →
      Ongoing activity event after

variable {activity after : Activity} {event : ActivityEvent}

theorem receive_errored (activity : Activity) (count : Nat) :
    (activity.receive count).handler.errored = activity.handler.errored := rfl

theorem receive_serviceId (activity : Activity) (count : Nat) :
    (activity.receive count).handler.serviceId = activity.handler.serviceId := rfl

theorem Joined.ongoing (joined : Joined activity) (moves : Moves activity event (.ok after)) :
    Ongoing activity event after := by
  generalize result_eq : Except.ok after = result at moves
  cases moves with
  | perform split =>
      obtain rfl := Except.ok.inj result_eq
      exact .perform split
  | bear bearing =>
      obtain rfl := Except.ok.inj result_eq
      exact .bear bearing
  | connect _ connecting => simp [joined.connecting] at connecting
  | exchange idle =>
      obtain ⟨reaction, returned, rfl⟩ := react_eq_ok result_eq.symm
      exact .react (by simp) (by simp) idle rfl rfl rfl rfl (sendStaff_tidy returned)
  | servePart =>
      obtain rfl := Except.ok.inj result_eq
      exact .still (by simp) (by simp) rfl rfl rfl rfl
  | serveAll =>
      obtain rfl := Except.ok.inj result_eq
      exact .still (by simp) (by simp) rfl rfl rfl rfl
  | serveFails =>
      obtain rfl := Except.ok.inj result_eq
      exact .still (by simp) (by simp) rfl rfl rfl rfl
  | resume =>
      obtain rfl := Except.ok.inj result_eq
      exact .still (by simp) (by simp) rfl rfl rfl rfl
  | @stub e _ idle =>
      obtain ⟨reaction, returned, rfl⟩ := react_eq_ok result_eq.symm
      obtain rfl := Except.ok.inj returned
      exact .react (by simp) (by simp) idle rfl rfl rfl rfl (stub_tidy e)
  | arrive =>
      obtain rfl := Except.ok.inj result_eq
      exact .still (by simp) (by simp) rfl rfl rfl rfl
  | read idle =>
      obtain ⟨reaction, returned, rfl⟩ := react_eq_ok result_eq.symm
      have tidy : Tidy (activity.receive 32).handler reaction := compareStaff_tidy returned
      exact .react (by simp) (by simp) idle rfl rfl (receive_errored activity 32)
        (receive_serviceId activity 32) tidy
  | @readFails transferred _ idle =>
      obtain ⟨reaction, returned, rfl⟩ := react_eq_ok result_eq.symm
      have tidy : Tidy (activity.receive transferred).handler reaction :=
        compareStaff_tidy returned
      exact .react (by simp) (by simp) idle rfl rfl (receive_errored activity transferred)
        (receive_serviceId activity transferred) tidy

/-! ## The account -/

/-- The account of a handler: nothing at all if it is one too many, and otherwise the constructor's
actions, those of `connect` and what comes later, with one error if it is errored. -/
inductive Booked (activity : Activity) : Prop
  | surplus : Fresh activity → activity.connecting = false → activity.performed = [] →
      activity.todo = [] → clients_max ≤ activity.handler.serviceId → Booked activity
  | opening : Fresh activity → activity.performed ++ activity.todo = constructing →
      activity.handler.serviceId < clients_max → Booked activity
  | ongoing {later : List Action} : Joined activity →
      activity.performed ++ activity.todo = constructing ++ arrived ++ later →
      (∀ action ∈ later, action.Later) → errors later = activity.handler.errored.toInt →
      activity.handler.serviceId < clients_max → Booked activity

theorem constructed_booked (serviceId : Nat) (send read : Vector Byte 33) (now : Time) :
    Booked (.constructed serviceId send read now) := by
  have fresh := constructed_fresh serviceId send read now
  have constructed : (serviceId < clients_max →
      (Activity.constructed serviceId send read now).todo = constructing) ∧
      (clients_max ≤ serviceId → (Activity.constructed serviceId send read now).todo = []) ∧
      (Activity.constructed serviceId send read now).handler.serviceId = serviceId := by
    rw [Activity.constructed, ConnectionHandler.construct]
    split
    · exact ⟨by omega, fun _ => rfl, rfl⟩
    · exact ⟨fun _ => rfl, by omega, rfl⟩
  obtain ⟨inside, outside, serviceId_eq⟩ := constructed
  rcases Nat.lt_or_ge serviceId clients_max with small | large
  · exact .opening fresh (inside small) (serviceId_eq.trans_lt small)
  · exact .surplus fresh rfl rfl (outside large) (large.trans_eq serviceId_eq.symm)

/-- After its two updates `connect` goes on with later actions, and counts an error if it fails. -/
theorem connect_later {handler : ConnectionHandler} {e : Bool} {connected now : Time}
    {random : Nat} {reaction : Reaction} (running : handler.errored = false)
    (returned : connect e connected now random handler = .ok reaction) :
    ∃ later, reaction.actions = arrived ++ later ∧ (∀ action ∈ later, action.Later) ∧
      errors later = reaction.handler.errored.toInt ∧
      reaction.handler.serviceId = handler.serviceId := by
  have ways : Connected handler connected now random _ := connect_connected e connected now random
  rw [returned] at ways
  cases ways with
  | failed =>
      exact ⟨[.update (.fetchAndAdd .connectionErrors 1)], rfl, by simp [Action.Later], rfl, rfl⟩
  | joined =>
      refine ⟨_, by rw [requested, welcomed, List.append_assoc, List.append_assoc], ?_, ?_, rfl⟩
      · simp [Action.Later]
      · simp [errors, Action.amount, Update.amount, requested, ConnectionHandler.joined, running]
  | idle errored => simp [running] at errored

theorem Booked.next (booked : Booked activity) (moves : Moves activity event (.ok after)) :
    Booked after := by
  cases booked with
  | surplus fresh connecting performed todo surplus =>
      cases fresh.opening moves with
      | perform split => simp [todo] at split
      | bear => exact .surplus fresh.bear connecting performed todo surplus
      | arrive => exact .surplus (fresh.arrive _) connecting performed todo surplus
      | connect _ connecting' => simp [connecting] at connecting'
  | opening fresh whole inside =>
      cases fresh.opening moves with
      | perform split =>
          refine .opening (fresh.started split) ?_ (by simpa using inside)
          simpa [split] using whole
      | bear => exact .opening fresh.bear whole inside
      | arrive => exact .opening (fresh.arrive _) whole inside
      | connect idle _ bound returned =>
          obtain ⟨later, actions_eq, later_later, errors_eq, serviceId_eq⟩ :=
            connect_later fresh.running returned
          refine .ongoing (fresh.joined bound returned) ?_ later_later errors_eq ?_
          · rw [idle, List.append_nil] at whole
            simp only [whole, actions_eq, List.append_assoc]
          · exact serviceId_eq ▸ inside
  | @ongoing later joined whole later_later errors_eq inside =>
      have joined' := joined.next moves
      cases joined.ongoing moves with
      | perform split =>
          refine .ongoing joined' ?_ later_later (by simpa using errors_eq) (by simpa using inside)
          simpa [split] using whole
      | bear => exact .ongoing joined' whole later_later errors_eq inside
      | @react _ current handler reaction _ _ idle performed _ errored serviceId tidy =>
          rw [idle, List.append_nil] at whole
          refine @Booked.ongoing _ (later ++ reaction.actions) joined' ?_ ?_ ?_ ?_
          · simp only [performed, whole, List.append_assoc]
          · exact List.forall_mem_append.mpr ⟨later_later, tidy.later⟩
          · have counted := tidy.errors
            rw [errors_append, errors_eq, ← errored]
            exact counted
          · exact (tidy.serviceId.trans serviceId) ▸ inside
      | still _ _ performed _ handler todo =>
          refine .ongoing joined' ?_ later_later ?_ ?_
          · rw [performed, todo, whole]
          · rw [handler, errors_eq]
          · rw [handler]
            exact inside

theorem Moves.performed_eq (moves : Moves activity event (.ok after)) :
    after.performed = activity.performed ++ activity.performs event := by
  have reacted : ∀ {current : Activity} {callback : Except Fault Reaction},
      .ok after = current.react callback → after.performed = current.performed := by
    intro current callback result_eq
    obtain ⟨reaction, -, rfl⟩ := react_eq_ok result_eq.symm
    rfl
  generalize result_eq : Except.ok after = result at moves
  cases moves with
  | perform split =>
      obtain rfl := Except.ok.inj result_eq
      simp [Activity.performs, split]
  | connect => simpa [Activity.performs] using reacted result_eq
  | exchange => simpa [Activity.performs] using reacted result_eq
  | stub => simpa [Activity.performs] using reacted result_eq
  | read => simpa [Activity.performs, Activity.receive] using reacted result_eq
  | readFails => simpa [Activity.performs, Activity.receive] using reacted result_eq
  | bear => simp [Except.ok.inj result_eq, Activity.performs]
  | servePart => simp [Except.ok.inj result_eq, Activity.performs]
  | serveAll => simp [Except.ok.inj result_eq, Activity.performs]
  | serveFails => simp [Except.ok.inj result_eq, Activity.performs]
  | resume => simp [Except.ok.inj result_eq, Activity.performs]
  | arrive => simp [Except.ok.inj result_eq, Activity.performs]

theorem Booked.serviceId_eq (booked : Booked activity) (moves : Moves activity event (.ok after)) :
    after.handler.serviceId = activity.handler.serviceId := by
  have opening : ∀ {after}, Fresh activity → Opening activity event after →
      after.handler.serviceId = activity.handler.serviceId := by
    rintro after fresh (_ | _ | _ | ⟨_, _, _, returned⟩)
    · simp
    · rfl
    · rfl
    · obtain ⟨-, -, -, -, same⟩ := connect_later fresh.running returned
      exact same
  cases booked with
  | surplus fresh => exact opening fresh (fresh.opening moves)
  | opening fresh => exact opening fresh (fresh.opening moves)
  | ongoing joined =>
      cases joined.ongoing moves with
      | perform => simp
      | bear => rfl
      | react _ _ _ _ _ _ serviceId tidy => exact tidy.serviceId.trans serviceId
      | still _ _ _ _ handler => rw [handler]

/-! ## Spawning -/

/-- The handlers an event is about to create. -/
def ActivityEvent.creates : ActivityEvent → Nat
  | .bear => 1
  | _ => 0

theorem count_waitBear_later {actions : List Action} (later : ∀ action ∈ actions, action.Later) :
    actions.count .waitBear = 0 :=
  List.count_eq_zero.mpr fun member => later .waitBear member

theorem start_spawns {action : Action} {todo : List Action} (split : activity.todo = action :: todo)
    (single : activity.spawns ≤ 1) :
    ({ activity with todo }.start action).spawns = activity.spawns := by
  simp only [Activity.spawns, split] at single ⊢
  cases action with
  | waitBear =>
      rw [List.count_cons_self] at single ⊢
      have idle : activity.bearing.toNat = 0 := by omega
      simp only [Activity.start, Bool.toNat_true]
      omega
  | _ => rw [List.count_cons_of_ne (by simp)]; rfl

/-- A handler spawns once, when `bear_tmr` expires. -/
theorem Booked.spawns_eq (booked : Booked activity) (single : activity.spawns ≤ 1)
    (moves : Moves activity event (.ok after)) :
    after.spawns + event.creates = activity.spawns := by
  have opening : ∀ {after}, Fresh activity → Opening activity event after →
      after.spawns + event.creates = activity.spawns := by
    rintro after fresh (split | bearing | _ | ⟨idle, _, _, returned⟩)
    · exact start_spawns split single
    · simp [Activity.spawns, ActivityEvent.creates, bearing]
    · rfl
    · obtain ⟨later, actions_eq, later_later, -, -⟩ := connect_later fresh.running returned
      simp [Activity.spawns, ActivityEvent.creates, idle, actions_eq, arrived,
        count_waitBear_later later_later]
  cases booked with
  | surplus fresh => exact opening fresh (fresh.opening moves)
  | opening fresh => exact opening fresh (fresh.opening moves)
  | ongoing joined =>
      cases joined.ongoing moves with
      | perform split => exact start_spawns split single
      | bear bearing => simp [Activity.spawns, ActivityEvent.creates, bearing]
      | react _ other idle _ bearing _ _ tidy =>
          simp only [Activity.spawns, bearing, idle, count_waitBear_later tidy.later]
          cases event <;> simp_all [ActivityEvent.creates]
      | still _ other _ bearing _ todo =>
          simp only [Activity.spawns, bearing, todo]
          cases event <;> simp_all [ActivityEvent.creates]

/-! ## What the account says -/

/-- The handler has counted itself active. -/
def Activity.countedActive (activity : Activity) : Bool :=
  decide (.update (.fetchAndAdd .connectionActive 1) ∈ activity.performed)

/-- The handler is between its two updates in `connect`. -/
def Activity.betweenUpdates (activity : Activity) : Bool :=
  decide (activity.todo.head? = some (.update (.fetchAndSub .connectionActive 1)))

/-- The handler has started its `async_connect`. -/
def Activity.startedConnect (activity : Activity) : Bool :=
  decide (.asyncConnect ∈ activity.performed)

/-- The handler is about to start its `async_connect`. -/
def Activity.aboutToConnect (activity : Activity) : Bool :=
  decide (activity.todo.head? = some .asyncConnect)

/-- What the handler has added to a counter. -/
def Activity.share (activity : Activity) : Counter → Int := added activity.performed

/-- What a handler has contributed, wherever it is. -/
structure Standing (activity : Activity) : Prop where
  children_nonneg : 0 ≤ activity.share .children
  children_le : activity.share .children ≤ 1
  active_nonneg : 0 ≤ activity.share .connectionActive
  balance : activity.share .children + activity.share .connectionActive =
    activity.countedActive.toInt + activity.betweenUpdates.toInt
  connectionErrors_nonneg : 0 ≤ activity.share .connectionErrors
  exchangeErrors_nonneg : 0 ≤ activity.share .exchangeErrors
  errors_le : activity.share .connectionErrors + activity.share .exchangeErrors ≤
    activity.share .children
  final_le : activity.share .connectionErrors + activity.share .connectionActive ≤
    activity.countedActive.toInt
  counted_le : activity.countedActive.toInt ≤
    activity.startedConnect.toInt + activity.aboutToConnect.toInt
  started_le : activity.startedConnect.toInt ≤ activity.countedActive.toInt
  counted_inside : activity.countedActive = true → activity.handler.serviceId < clients_max
  /-- What a handler is about to subtract it has added before. -/
  covered : ∀ counter amount todo, activity.todo = .update (.fetchAndSub counter amount) :: todo →
    counter = .connectionActive ∧ (amount : Int) ≤ activity.share counter

/-- The standing of a handler that has performed nothing behind `connect`'s two updates. -/
theorem standing_early {count : Nat} (early : count < 5)
    (performed : activity.performed = (constructing ++ arrived).take count)
    (head : activity.todo.head? = (constructing ++ arrived)[count]? ∨
      activity.todo = [] ∧ (count = 0 ∨ count = 3))
    (inside : 0 < count → activity.handler.serviceId < clients_max) : Standing activity := by
  have share_eq : activity.share = added ((constructing ++ arrived).take count) := by
    rw [Activity.share, performed]
  have counted : activity.countedActive = decide (2 ≤ count) := by
    rw [Activity.countedActive, performed]
    interval_cases count <;> decide
  have started : activity.startedConnect = decide (3 ≤ count) := by
    rw [Activity.startedConnect, performed]
    interval_cases count <;> decide
  have between : activity.betweenUpdates = decide (count = 4) := by
    rw [Activity.betweenUpdates]
    rcases head with head | ⟨empty, rfl | rfl⟩
    · rw [head]
      interval_cases count <;> decide
    · simp [empty]
    · simp [empty]
  have about : activity.startedConnect = false → activity.aboutToConnect = decide (count = 2) := by
    rw [started, Activity.aboutToConnect]
    rcases head with head | ⟨empty, rfl | rfl⟩
    · rw [head]
      interval_cases count <;> decide
    · simp [empty]
    · simp
  have children : activity.share .children = (decide (count = 4)).toInt := by
    rw [share_eq]
    interval_cases count <;> decide
  have active : activity.share .connectionActive = (decide (2 ≤ count)).toInt := by
    rw [share_eq]
    interval_cases count <;> decide
  have connectionErrors : activity.share .connectionErrors = 0 := by
    rw [share_eq]
    interval_cases count <;> decide
  have exchangeErrors : activity.share .exchangeErrors = 0 := by
    rw [share_eq]
    interval_cases count <;> decide
  exact
    { children_nonneg := by rw [children]; exact toInt_nonneg _
      children_le := by rw [children]; exact toInt_le_one _
      active_nonneg := by rw [active]; exact toInt_nonneg _
      balance := by rw [children, active, counted, between, add_comm]
      connectionErrors_nonneg := connectionErrors.ge
      exchangeErrors_nonneg := exchangeErrors.ge
      errors_le := by rw [connectionErrors, exchangeErrors, children]; exact toInt_nonneg _
      final_le := by rw [connectionErrors, active, counted, zero_add]
      counted_le := by
        cases connected : activity.startedConnect with
        | true =>
            have bound := toInt_le_one activity.countedActive
            have more := toInt_nonneg activity.aboutToConnect
            simp only [Bool.toInt_true]
            omega
        | false =>
            rw [about connected, counted]
            have small : count < 3 := by simpa [started] using connected
            interval_cases count <;> decide
      started_le := by
        rw [started, counted]
        interval_cases count <;> decide
      counted_inside := by
        rw [counted]
        intro large
        apply inside
        have positive := of_decide_eq_true large
        omega
      covered := by
        intro counter amount todo split
        rcases head with head | ⟨empty, -⟩
        · rw [split, List.head?_cons] at head
          rw [share_eq]
          interval_cases count <;> simp [constructing, arrived] at head
          obtain ⟨rfl, rfl⟩ := head
          decide
        · simp [empty] at split }

/-- The standing of a handler behind `connect`'s two updates. -/
theorem standing_late {front later : List Action}
    (performed : activity.performed = constructing ++ arrived ++ front)
    (later_eq : later = front ++ activity.todo) (later_later : ∀ action ∈ later, action.Later)
    (errors_eq : errors later = activity.handler.errored.toInt)
    (inside : activity.handler.serviceId < clients_max) : Standing activity := by
  have front_later : ∀ action ∈ front, action.Later := fun action member =>
    later_later action (later_eq ▸ List.mem_append_left _ member)
  have todo_later : ∀ action ∈ activity.todo, action.Later := fun action member =>
    later_later action (later_eq ▸ List.mem_append_right _ member)
  have share_eq : ∀ counter, activity.share counter =
      added (constructing ++ arrived) counter + added front counter := by
    intro counter
    rw [Activity.share, performed, added_append]
  have children : activity.share .children = 1 := by
    rw [share_eq, added_eq_zero front_later (Or.inl rfl)]
    decide
  have active : activity.share .connectionActive = 0 := by
    rw [share_eq, added_eq_zero front_later (Or.inr rfl)]
    decide
  have connectionErrors : activity.share .connectionErrors = added front .connectionErrors := by
    rw [share_eq]
    exact zero_add _
  have exchangeErrors : activity.share .exchangeErrors = added front .exchangeErrors := by
    rw [share_eq]
    exact zero_add _
  have counted : activity.countedActive = true := by
    simp [Activity.countedActive, performed, constructing]
  have started : activity.startedConnect = true := by
    simp [Activity.startedConnect, performed, constructing]
  have between : activity.betweenUpdates = false := by
    rw [Activity.betweenUpdates, decide_eq_false_iff_not]
    intro head
    exact todo_later _ (List.mem_of_head? head)
  have connection_nonneg := @added_nonneg front .connectionErrors front_later
  have exchange_nonneg := @added_nonneg front .exchangeErrors front_later
  have once : added front .connectionErrors + added front .exchangeErrors ≤ 1 := by
    have bound := toInt_le_one activity.handler.errored
    have rest_connection := @added_nonneg activity.todo .connectionErrors todo_later
    have rest_exchange := @added_nonneg activity.todo .exchangeErrors todo_later
    rw [later_eq, errors_append, errors, errors] at errors_eq
    omega
  exact
    { children_nonneg := by rw [children]; decide
      children_le := children.le
      active_nonneg := active.ge
      balance := by rw [children, active, counted, between]; decide
      connectionErrors_nonneg := by rw [connectionErrors]; exact connection_nonneg
      exchangeErrors_nonneg := by rw [exchangeErrors]; exact exchange_nonneg
      errors_le := by rw [connectionErrors, exchangeErrors, children]; exact once
      final_le := by
        rw [connectionErrors, active, counted, Bool.toInt_true]
        omega
      counted_le := by
        have more := toInt_nonneg activity.aboutToConnect
        rw [counted, started]
        omega
      started_le := by rw [started, counted]
      counted_inside := fun _ => inside
      covered := by
        intro counter amount todo split
        have first : Action.update (.fetchAndSub counter amount) ∈ activity.todo := by simp [split]
        exact (todo_later _ first).elim }

theorem Booked.standing (booked : Booked activity) : Standing activity := by
  cases booked with
  | surplus _ _ performed todo _ =>
      exact standing_early (by decide : 0 < 5) performed (Or.inr ⟨todo, Or.inl rfl⟩) (by simp)
  | opening fresh whole inside =>
      have length_le : activity.performed.length ≤ 3 := by
        have lengths := congrArg List.length whole
        simp only [List.length_append, constructing, List.length_cons, List.length_nil] at lengths
        omega
      have performed : activity.performed = (constructing ++ arrived).take
          activity.performed.length := by
        rw [← whole, List.append_assoc, List.take_left]
      refine standing_early (by omega) performed ?_ fun _ => inside
      cases todo : activity.todo with
      | nil =>
          rw [todo, List.append_nil] at whole
          exact Or.inr ⟨rfl, Or.inr (congrArg List.length whole)⟩
      | cons action rest =>
          refine Or.inl ?_
          rw [← whole, todo, List.append_assoc, List.getElem?_append_right le_rfl]
          simp
  | @ongoing later _ whole later_later errors_eq inside =>
      rcases Nat.lt_or_ge activity.performed.length 5 with early | late
      · have performed : activity.performed = (constructing ++ arrived).take
            activity.performed.length := by
          have front := congrArg (List.take activity.performed.length) whole
          rwa [List.take_left, List.take_append_of_le_length (by exact early.le)] at front
        refine standing_early early performed (Or.inl ?_) fun _ => inside
        have at_head := congrArg (fun actions => actions[activity.performed.length]?) whole
        simp only [List.getElem?_append_right le_rfl, Nat.sub_self] at at_head
        rw [List.getElem?_append_left (by exact early)] at at_head
        rw [List.head?_eq_getElem?]
        exact at_head
      · have front : constructing ++ arrived <+: activity.performed := by
          refine List.prefix_of_prefix_length_le (List.prefix_append _ later) ?_ late
          exact whole ▸ List.prefix_append _ _
        obtain ⟨front, performed⟩ := front
        rw [← performed, List.append_assoc, List.append_cancel_left_eq] at whole
        exact standing_late performed.symm whole.symm later_later errors_eq inside

end Mrps.Tester
