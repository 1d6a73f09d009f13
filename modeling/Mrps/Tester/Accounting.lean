import Mrps.Entries
import Mrps.Tester.Accounts

/-!
# The tester: many handlers and their counters

The whole program: the global counters, and every handler that has been created.  The first handler
is created by `main`, each other one by the `bear_tmr` of an earlier one.  Any handler that can take
a step may take the next one, so the runs for every number of services are among the runs here.
-/

namespace Mrps.Tester

open EventSystem MachineInt SharedCounters

/-- Carry out an update; the counters are words of 64 bits. -/
def Update.apply (counters : Counter → Nat) : Update → Counter → Nat
  | .fetchAndAdd counter amount =>
      Function.update counters counter ((counters counter + amount) % 2 ^ 64)
  | .fetchAndSub counter amount =>
      Function.update counters counter (toUnsigned 64 ((counters counter : Int) - amount))

/-- What an action does to the counters. -/
def Action.apply (counters : Counter → Nat) : Action → Counter → Nat
  | .update change => change.apply counters
  | _ => counters

/-- The state of the program. -/
structure Program where
  counters : Counter → Nat
  services_i : Nat
  /-- The `new connection_handler`s that have begun and not taken their `service_id`. -/
  creating : Nat
  /-- The handlers in the order in which they took their `service_id`. -/
  handlers : List Activity

/-- `main` at its `new connection_handler`. -/
def Program.initial : Program :=
  { counters := fun _ => 0, services_i := 0, creating := 1, handlers := [] }

/-- The steps of the program. -/
inductive ProgramEvent where
  /-- A handler takes its `service_id`; `send` and `read` are its uninitialised buffers. -/
  | construct (send read : Vector Byte 33) (now : Time)
  /-- A step of a handler. -/
  | handler (index : Nat) (event : ActivityEvent)
  deriving DecidableEq, Repr

/-- One step. -/
def Program.next (program : Program) : ProgramEvent → Option (Except Fault Program)
  | .construct send read now =>
      if 0 < program.creating then
        some (.ok { program with
          services_i := (program.services_i + 1) % 2 ^ 64
          creating := program.creating - 1
          handlers := program.handlers ++ [.constructed program.services_i send read now] })
      else
        none
  | .handler index event =>
      match program.handlers[index]? with
      | none => none
      | some activity =>
          (activity.next event).map fun result => result.map fun after =>
            { program with
              counters := (activity.performs event).foldl Action.apply program.counters
              creating := program.creating + event.creates
              handlers := program.handlers.set index after }

/-- The runs of the program; a fault ends the run. -/
def programSystem : EventSystem (Except Fault Program) ProgramEvent where
  step state event :=
    match state with
    | .ok program => program.next event
    | .error _ => none

/-! ## The invariant -/

/-- The handlers that have been and are still to be created form one chain. -/
def Program.Chained (program : Program) : Prop :=
  let created := (program.creating : Int) + total (fun activity => activity.spawns) program.handlers
  created = 1 ∧ program.handlers.length ≤ clients_max ∨
    created = 0 ∧ program.handlers.length = clients_max + 1

/-- What holds of the program between any two atomic steps. -/
structure Program.Sound (program : Program) : Prop where
  booked : ∀ activity ∈ program.handlers, Booked activity
  ids : program.handlers.map (fun activity => activity.handler.serviceId) =
    List.range program.handlers.length
  services : program.services_i = program.handlers.length
  balanced : Balanced 64 program.counters Activity.share program.handlers
  chained : program.Chained

variable {program after : Program} {activity activity' : Activity} {event : ActivityEvent}
  {index : Nat}

theorem Update.apply_eq (counters : Counter → Nat) (change : Update) :
    ∃ counter, change.apply counters = Function.update counters counter
        (toUnsigned 64 (counters counter + change.amount counter)) ∧
      ∀ other, other ≠ counter → change.amount other = 0 := by
  cases change with
  | fetchAndAdd counter amount =>
      refine ⟨counter, ?_, fun other different => if_neg different.symm⟩
      have reduced : (counters counter + amount) % 2 ^ 64 =
          toUnsigned 64 ((counters counter : Int) + amount) := by
        rw [toUnsigned]
        exact_mod_cast (Int.toNat_natCast _).symm
      simp only [Update.apply, Update.amount, if_true, reduced]
  | fetchAndSub counter amount =>
      refine ⟨counter, ?_, fun other different => if_neg different.symm⟩
      simp only [Update.apply, Update.amount, if_true, ← sub_eq_add_neg]

/-- The counters follow what a handler performs. -/
theorem balanced_action {counters : Counter → Nat} {handlers : List Activity}
    (balanced : Balanced 64 counters Activity.share handlers)
    (found : handlers[index]? = some activity) {action : Action}
    (performed : activity'.performed = activity.performed ++ [action]) :
    Balanced 64 (action.apply counters) Activity.share (handlers.set index activity') := by
  have share_eq : ∀ counter, activity'.share counter =
      activity.share counter + action.amount counter := by
    intro counter
    rw [Activity.share, performed, added_append, added_cons, added_nil, add_zero]
    rfl
  have quiet : (∀ counter, action.amount counter = 0) →
      Balanced 64 counters Activity.share (handlers.set index activity') := by
    intro nothing
    apply balanced.set found
    funext counter
    rw [share_eq, nothing, add_zero]
  cases action with
  | update change =>
      obtain ⟨counter, apply_eq, others⟩ := change.apply_eq counters
      rw [Action.apply, apply_eq]
      apply balanced.update found (share_eq counter)
      intro other different
      rw [share_eq, Action.amount, others other different, add_zero]
  | _ => exact quiet fun _ => rfl

theorem balanced_next {counters : Counter → Nat} {handlers : List Activity}
    (balanced : Balanced 64 counters Activity.share handlers)
    (found : handlers[index]? = some activity)
    (performed : activity'.performed = activity.performed ++ activity.performs event) :
    Balanced 64 ((activity.performs event).foldl Action.apply counters) Activity.share
      (handlers.set index activity') := by
  have one : activity.performs event = [] ∨ ∃ action, activity.performs event = [action] := by
    cases event with
    | perform =>
        rw [Activity.performs]
        cases activity.todo with
        | nil => exact Or.inl rfl
        | cons action todo => exact Or.inr ⟨action, rfl⟩
    | _ => exact Or.inl rfl
  rcases one with none_eq | ⟨action, one_eq⟩
  · rw [none_eq, List.append_nil] at performed
    rw [none_eq]
    apply balanced.set found
    rw [Activity.share, performed]
    rfl
  · rw [one_eq] at performed ⊢
    exact balanced_action balanced found performed

/-! ## Steps -/

/-- The handler that takes the next `service_id`. -/
def Program.construct (program : Program) (send read : Vector Byte 33) (now : Time) : Program :=
  { program with
    services_i := (program.services_i + 1) % 2 ^ 64
    creating := program.creating - 1
    handlers := program.handlers ++ [.constructed program.services_i send read now] }

/-- A handler takes a step to `activity'`. -/
def Program.move (program : Program) (index : Nat) (activity : Activity) (event : ActivityEvent)
    (activity' : Activity) : Program :=
  { program with
    counters := (activity.performs event).foldl Action.apply program.counters
    creating := program.creating + event.creates
    handlers := program.handlers.set index activity' }

theorem Program.next_handler (step : program.next (.handler index event) = some (.ok after)) :
    ∃ activity activity', program.handlers[index]? = some activity ∧
      Moves activity event (.ok activity') ∧
        after = program.move index activity event activity' := by
  simp only [Program.next] at step
  split at step
  · simp at step
  · rename_i activity found
    obtain ⟨result, taken, result_eq⟩ := Option.map_eq_some_iff.mp step
    cases result with
    | error fault => simp [Except.map] at result_eq
    | ok activity' =>
        exact ⟨activity, activity', found, moves_of_next taken, (Except.ok.inj result_eq).symm⟩

theorem Program.next_cases {event : ProgramEvent} (step : program.next event = some (.ok after)) :
    (0 < program.creating ∧ ∃ send read now, after = program.construct send read now) ∨
      ∃ index event activity activity', program.handlers[index]? = some activity ∧
        Moves activity event (.ok activity') ∧
          after = program.move index activity event activity' := by
  cases event with
  | construct send read now =>
      simp only [Program.next, Option.ite_none_right_eq_some, Option.some.injEq] at step
      exact Or.inl ⟨step.1, send, read, now, (Except.ok.inj step.2).symm⟩
  | handler index event => exact Or.inr ⟨index, event, Program.next_handler step⟩

theorem constructed_serviceId (serviceId : Nat) (send read : Vector Byte 33) (now : Time) :
    (Activity.constructed serviceId send read now).handler.serviceId = serviceId := by
  rw [Activity.constructed, ConnectionHandler.construct]
  split <;> rfl

theorem constructed_spawns (serviceId : Nat) (send read : Vector Byte 33) (now : Time) :
    (Activity.constructed serviceId send read now).spawns =
      if clients_max ≤ serviceId then 0 else 1 := by
  rw [Activity.constructed, ConnectionHandler.construct]
  split <;> rfl

theorem Program.Chained.length_le (chained : program.Chained) :
    program.handlers.length ≤ clients_max + 1 := by
  rcases chained with ⟨-, bound⟩ | ⟨-, bound⟩ <;> omega

theorem total_spawns_nonneg (handlers : List Activity) :
    0 ≤ total (fun activity => (activity.spawns : Int)) handlers :=
  total_nonneg fun activity _ => Int.natCast_nonneg activity.spawns

theorem Program.Sound.construct (sound : program.Sound) (creating : 0 < program.creating)
    (send read : Vector Byte 33) (now : Time) : (program.construct send read now).Sound := by
  have remaining := total_spawns_nonneg program.handlers
  obtain ⟨chained, bound⟩ : (program.creating : Int) +
      total (fun activity => (activity.spawns : Int)) program.handlers = 1 ∧
      program.handlers.length ≤ clients_max := by
    rcases sound.chained with open_chain | ⟨closed, -⟩
    · exact open_chain
    · omega
  constructor
  · apply forall_mem_concat sound.booked
    exact constructed_booked _ send read now
  · simp only [Program.construct, List.map_append, sound.ids, List.map_cons, List.map_nil,
      constructed_serviceId, sound.services, List.length_append, List.length_cons,
      List.length_nil, List.range_succ]
  · have small : program.services_i + 1 < 2 ^ 64 := by
      rw [sound.services]
      rw [clients_max] at bound
      omega
    change (program.services_i + 1) % 2 ^ 64 = (program.handlers ++ [_]).length
    rw [Nat.mod_eq_of_lt small, sound.services, List.length_append]
    rfl
  · exact sound.balanced.append fun counter => rfl
  · simp only [Program.Chained, Program.construct, total_append, total_cons, total_nil,
      constructed_spawns, sound.services, List.length_append, List.length_cons, List.length_nil]
    split
    · exact Or.inr ⟨by omega, by omega⟩
    · exact Or.inl ⟨by omega, by omega⟩

/-- A step of a handler keeps the program sound. -/
theorem Program.Sound.move (sound : program.Sound)
    (found : program.handlers[index]? = some activity)
    (moves : Moves activity event (.ok activity')) :
    (program.move index activity event activity').Sound := by
  have member : activity ∈ program.handlers := List.mem_of_getElem? found
  have booked := sound.booked activity member
  have single : activity.spawns ≤ 1 := by
    have part := share_le_total (fun other _ => Int.natCast_nonneg (Activity.spawns other)) member
    rcases sound.chained with ⟨chained, -⟩ | ⟨chained, -⟩ <;> omega
  constructor
  · apply forall_mem_set sound.booked
    exact booked.next moves
  · simp only [Program.move, List.length_set]
    rw [map_set_same found (booked.serviceId_eq moves), sound.ids]
  · simp only [Program.move, sound.services, List.length_set]
  · exact balanced_next sound.balanced found moves.performed_eq
  · have spawned := booked.spawns_eq single moves
    simp only [Program.Chained, Program.move, total_set _ found, List.length_set]
    rcases sound.chained with ⟨chained, bound⟩ | ⟨chained, bound⟩
    · exact Or.inl ⟨by push_cast; omega, bound⟩
    · exact Or.inr ⟨by push_cast; omega, bound⟩

theorem initial_sound : Program.initial.Sound where
  booked := by simp [Program.initial]
  ids := rfl
  services := rfl
  balanced := fun _ => rfl
  chained := Or.inl ⟨rfl, Nat.zero_le _⟩

theorem run_sound {events : List ProgramEvent}
    (execution : programSystem.run (.ok .initial) events = some (.ok program)) :
    program.Sound := by
  have preserves : programSystem.Preserves
      fun state => ∀ program, state = .ok program → program.Sound := by
    rintro (fault | before) event next sound step after rfl
    · simp [programSystem] at step
    · rcases Program.next_cases step with
        ⟨creating, send, read, now, rfl⟩ | ⟨index, event, activity, activity', found, moves, rfl⟩
      · exact (sound before rfl).construct creating send read now
      · exact (sound before rfl).move found moves
  refine preserves.run ?_ execution program rfl
  rintro _ ⟨⟩
  exact initial_sound

/-! ## What the counters show -/

/-- The accounting of the connections. -/
structure Program.Accounted (program : Program) : Prop where
  distinct : (program.handlers.map fun activity => activity.handler.serviceId).Nodup
  services : program.services_i ≤ clients_max + 1
  started : program.handlers.countP Activity.startedConnect ≤ clients_max
  /-- No update takes a counter below zero. -/
  covered : ∀ activity ∈ program.handlers, ∀ counter amount todo,
    activity.todo = .update (.fetchAndSub counter amount) :: todo →
      amount ≤ program.counters counter
  balance : program.counters .children + program.counters .connectionActive =
    program.handlers.countP Activity.countedActive +
      program.handlers.countP Activity.betweenUpdates
  once : ∀ activity ∈ program.handlers,
    activity.share .connectionErrors + activity.share .exchangeErrors ≤ 1
  errors : program.counters .connectionErrors + program.counters .exchangeErrors ≤
    program.counters .children
  /-- The final `ConnErr` against the handlers that have counted themselves active. -/
  final : program.counters .connectionErrors + program.counters .connectionActive ≤
    program.handlers.countP Activity.countedActive
  counted : program.handlers.countP Activity.countedActive ≤
    program.handlers.countP Activity.startedConnect +
      program.handlers.countP Activity.aboutToConnect
  /-- The final `ConnErr` against the connections started; a handler counts itself active one line
  before it starts its connect. -/
  final_started : program.counters .connectionErrors + program.counters .connectionActive ≤
    program.handlers.countP Activity.startedConnect +
      program.handlers.countP Activity.aboutToConnect

theorem Program.Sound.counted_le (sound : program.Sound) :
    program.handlers.countP Activity.countedActive ≤ clients_max := by
  have inside : program.handlers.countP Activity.countedActive ≤
      program.handlers.countP fun activity =>
        decide (activity.handler.serviceId < clients_max) := by
    apply List.countP_mono_left
    intro activity member counted
    exact decide_eq_true ((sound.booked activity member).standing.counted_inside counted)
  have ids : (program.handlers.countP fun activity =>
      decide (activity.handler.serviceId < clients_max)) =
      ((List.range program.handlers.length).filter (· < clients_max)).length := by
    rw [← sound.ids, ← List.countP_eq_length_filter, List.countP_map]
    rfl
  have below : ((List.range program.handlers.length).filter (· < clients_max)) ⊆
      List.range clients_max := by
    intro id member
    have lt := (List.mem_filter.mp member).2
    exact List.mem_range.mpr (of_decide_eq_true lt)
  have bound := ((List.nodup_range.filter _).subperm below).length_le
  rw [List.length_range] at bound
  omega

/-- The counters of connections hold the sums of what the handlers have added. -/
theorem Program.Sound.exact (sound : program.Sound) {counter : Counter}
    (nonneg : ∀ activity ∈ program.handlers, 0 ≤ activity.share counter)
    (small : ∀ activity ∈ program.handlers, activity.share counter ≤ 1) :
    (program.counters counter : Int) =
      total (fun activity => activity.share counter) program.handlers := by
  have bound := total_le_length small
  have length_le := sound.chained.length_le
  rw [clients_max] at length_le
  exact sound.balanced.exact (total_nonneg nonneg) (by omega)

theorem Program.Sound.accounted (sound : program.Sound) : program.Accounted := by
  have standing : ∀ activity ∈ program.handlers, Standing activity :=
    fun activity member => (sound.booked activity member).standing
  have active_le : ∀ activity ∈ program.handlers, activity.share .connectionActive ≤ 1 := by
    intro activity member
    have one := toInt_le_one activity.countedActive
    have final := (standing activity member).final_le
    have nonneg := (standing activity member).connectionErrors_nonneg
    omega
  have once : ∀ activity ∈ program.handlers,
      activity.share .connectionErrors + activity.share .exchangeErrors ≤ 1 :=
    fun activity member =>
      (standing activity member).errors_le.trans (standing activity member).children_le
  have children := sound.exact (fun activity member => (standing activity member).children_nonneg)
    fun activity member => (standing activity member).children_le
  have active := sound.exact (fun activity member => (standing activity member).active_nonneg)
    active_le
  have connectionErrors := @Program.Sound.exact _ sound .connectionErrors
    (fun activity member => (standing activity member).connectionErrors_nonneg) (by
      intro activity member
      have once := once activity member
      have nonneg := (standing activity member).exchangeErrors_nonneg
      omega)
  have exchangeErrors := @Program.Sound.exact _ sound .exchangeErrors
    (fun activity member => (standing activity member).exchangeErrors_nonneg) (by
      intro activity member
      have once := once activity member
      have nonneg := (standing activity member).connectionErrors_nonneg
      omega)
  have final : program.counters .connectionErrors + program.counters .connectionActive ≤
      program.handlers.countP Activity.countedActive := by
    have final := total_mono fun activity member => (standing activity member).final_le
    rw [total_add, total_toInt] at final
    omega
  have counted : program.handlers.countP Activity.countedActive ≤
      program.handlers.countP Activity.startedConnect +
        program.handlers.countP Activity.aboutToConnect := by
    have counted := total_mono fun activity member => (standing activity member).counted_le
    rw [total_add, total_toInt, total_toInt, total_toInt] at counted
    exact_mod_cast counted
  constructor
  · rw [sound.ids]
    exact List.nodup_range
  · rw [sound.services]
    exact sound.chained.length_le
  · have started := total_mono fun activity member => (standing activity member).started_le
    rw [total_toInt, total_toInt] at started
    have counted := sound.counted_le
    omega
  · intro activity member counter amount todo split
    obtain ⟨rfl, covered⟩ := (standing activity member).covered counter amount todo split
    have part := share_le_total (fun other other_member =>
      (standing other other_member).active_nonneg) member
    omega
  · have balance := total_congr fun activity member => (standing activity member).balance
    rw [total_add, total_add, total_toInt, total_toInt] at balance
    omega
  · exact once
  · have errors := total_mono fun activity member => (standing activity member).errors_le
    rw [total_add] at errors
    omega
  · exact final
  · exact counted
  · exact final.trans counted

/-- The accounting holds in every state of every run. -/
theorem connections_accounted {events : List ProgramEvent}
    (execution : programSystem.run (.ok .initial) events = some (.ok program)) :
    program.Accounted := (run_sound execution).accounted

/-- The first handler has counted itself active and its `bear_tmr` has expired when the second one
takes its `service_id`. -/
def twoHandlers : List ProgramEvent :=
  [.construct (Vector.replicate 33 0) (Vector.replicate 33 0) 0, .handler 0 .perform,
    .handler 0 .perform, .handler 0 .bear,
    .construct (Vector.replicate 33 0) (Vector.replicate 33 0) 5]

theorem connections_accounted_two : ∃ program,
    programSystem.run (.ok .initial) twoHandlers = some (.ok program) ∧
      program.handlers.length = 2 ∧ program.Accounted := by
  obtain ⟨program, execution, two⟩ : ∃ program,
      programSystem.run (.ok .initial) twoHandlers = some (.ok program) ∧
        program.handlers.length = 2 := ⟨_, rfl, rfl⟩
  exact ⟨program, execution, two, connections_accounted execution⟩

/-- Between the two lines of the constructor a handler is counted active while no connection has
been started. -/
theorem active_before_connect : ∃ program,
    programSystem.run (.ok .initial)
        [.construct (Vector.replicate 33 0) (Vector.replicate 33 0) 0, .handler 0 .perform,
          .handler 0 .perform] = some (.ok program) ∧
      ¬ program.counters .connectionErrors + program.counters .connectionActive ≤
          program.handlers.countP Activity.startedConnect :=
  ⟨_, rfl, by decide⟩

end Mrps.Tester
