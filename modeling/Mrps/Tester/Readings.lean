import Mrps.Tester.Averages

/-!
# Reading the counters while they change

`print_stat` takes no snapshot: the handlers go on between its reads.  The number by which it
divides the times of the connections is the difference of two counters read one after the other, and
it is right exactly when no more connections fail in between than were standing at the first of the
reads.
-/

namespace Mrps.Tester

open EventSystem MachineInt SharedCounters

/-! ## The thread of `main` -/

/-- The program with the calls of `print_stat` in `main`. -/
structure Watched where
  state : Except Fault Program
  /-- The calls of `print_stat` so far. -/
  calls : Nat
  /-- The counters that the running call has still to read. -/
  toRead : List Counter
  /-- The values it has read. -/
  values : List Nat

/-- The steps of the program and of `print_stat`. -/
inductive WatchEvent where
  | program (event : ProgramEvent)
  /-- `main` calls `print_stat`. -/
  | call
  /-- `print_stat` reads its next counter. -/
  | read
  deriving DecidableEq, Repr

/-- `main` at its `new connection_handler`. -/
def Watched.initial : Watched :=
  { state := .ok .initial, calls := 0, toRead := [], values := [] }

/-- The `new connection_handler` of `main` has returned. -/
def Program.launched (program : Program) : Bool :=
  program.handlers.head?.any Activity.startedConnect

/-- The runs of the program with the calls of `main`: twelve in its loop and the final one. -/
def watchSystem : EventSystem Watched WatchEvent where
  step watched event :=
    match event with
    | .program event =>
        (programSystem.step watched.state event).map fun state => { watched with state }
    | .call =>
        match watched.state with
        | .ok program =>
            if program.launched ∧ watched.toRead = [] ∧ watched.calls ≤ 12 then
              some { watched with
                calls := watched.calls + 1
                toRead := statReads (watched.calls = 12)
                values := [] }
            else
              none
        | .error _ => none
    | .read =>
        match watched.state, watched.toRead with
        | .ok program, counter :: toRead =>
            some { watched with toRead, values := watched.values ++ [program.counters counter] }
        | _, _ => none

/-- The divisor of `conn_avg`, once its counters are read, is their difference. -/
def Watched.Unwrapped (watched : Watched) : Prop :=
  ∀ children connection_errors, watched.values[1]? = some children →
    watched.values[2]? = some connection_errors →
      (connections children connection_errors : Int) = children - connection_errors

/-- The handler has counted itself a child and no failed connection. -/
def Activity.connected (activity : Activity) : Bool :=
  decide (activity.share .connectionErrors < activity.share .children)

/-- The update that counts a failed connection. -/
def failedConnection : Action := .update (.fetchAndAdd .connectionErrors 1)

/-- The step counts a failed connection. -/
def countsFailure : Except Fault Program → ProgramEvent → Nat
  | .ok program, .handler index event =>
      match program.handlers[index]? with
      | some activity => (activity.performs event).count failedConnection
      | none => 0
  | _, _ => 0

/-- In the run, a call reads `children` in the state `before`, the program takes the steps
`between`, and the call reads `connection_errors` in the state `after`. -/
def ReadsDivisor (events : List WatchEvent) (before : Program) (between : List ProgramEvent)
    (after : Program) : Prop :=
  ∃ front watched back, events = front ++ .read :: (between.map .program ++ .read :: back) ∧
    watchSystem.run .initial front = some watched ∧ watched.state = .ok before ∧
    watched.values.length = 1 ∧ programSystem.run (.ok before) between = some (.ok after)

/-! ## What is counted between two reads -/

variable {program after : Program} {activity : Activity} {actions : List Action}
  {event : ProgramEvent} {events : List ProgramEvent}

theorem Course.connectionErrors (course : Course actions) : ∀ action ∈ actions,
    action.amount .connectionErrors = if action = failedConnection then 1 else 0 := by
  cases course with
  | _ =>
      simp [constructing, arrived, Tester.welcomed, Action.amount, Update.amount, failedConnection]

theorem Activity.InCourse.connectionErrors (in_course : activity.InCourse) :
    ∀ action ∈ activity.todo,
    action.amount .connectionErrors = if action = failedConnection then 1 else 0 := by
  intro action member
  obtain ⟨actions, course, here⟩ := in_course.exists_course (List.mem_append_right _ member)
  exact course.connectionErrors action here

theorem performs_subset (activity : Activity) (event : ActivityEvent) :
    activity.performs event ⊆ activity.todo := by
  cases event with
  | perform => exact List.take_subset 1 activity.todo
  | _ => exact List.nil_subset _

/-- A step raises the connection errors by what it counts. -/
theorem Program.InCourse.summed_next (in_course : program.InCourse)
    (step : program.next event = some (.ok after)) :
    after.summed .connectionErrors =
      program.summed .connectionErrors + countsFailure (.ok program) event := by
  cases event with
  | construct send read now =>
      simp only [Program.next, Option.ite_none_right_eq_some, Option.some.injEq] at step
      obtain rfl := (Except.ok.inj step.2).symm
      simp [Program.summed, countsFailure, Activity.share, Activity.constructed]
  | handler index event =>
      obtain ⟨activity, activity', found, moves, rfl⟩ := Program.next_handler step
      have here := in_course.each activity (List.mem_of_getElem? found)
      have counted := added_eq_count fun action member =>
        here.connectionErrors action (performs_subset activity event member)
      have share_eq : activity'.share .connectionErrors = activity.share .connectionErrors +
          (activity.performs event).count failedConnection := by
        rw [Activity.share, moves.performed_eq, added_append, counted]
        rfl
      simp only [Program.summed, Program.move, total_set _ found, share_eq, countsFailure, found]
      ring

/-- A run raises the connection errors by what it counts. -/
theorem Program.InCourse.summed_run (in_course : program.InCourse)
    (execution : programSystem.run (.ok program) events = some (.ok after)) :
    after.summed .connectionErrors = program.summed .connectionErrors +
      programSystem.tally countsFailure (.ok program) events := by
  have stays : programSystem.Preserves fun state => ¬ state.isOk := by
    rintro (fault | program) event next bad step
    · simp [programSystem] at step
    · exact absurd rfl bad
  have raised : ∀ state event next,
      (∀ program, state = .ok program → program.InCourse) →
        programSystem.step state event = some next → next.isOk →
          (next.toOption.elim 0 fun program => program.summed .connectionErrors) =
            (state.toOption.elim 0 fun program => program.summed .connectionErrors) +
              countsFailure state event := by
    rintro (fault | program) event (fault | after) in_course step good
    · simp [programSystem] at step
    · simp [programSystem] at step
    · simp [Except.isOk, Except.toBool] at good
    · exact (in_course program rfl).summed_next step
  have holds : ∀ other, Except.ok program = (.ok other : Except Fault Program) →
      other.InCourse := by
    rintro _ ⟨⟩
    exact in_course
  exact tally_run inCourse_preserved stays raised holds execution rfl

theorem Program.Sound.connected_eq (sound : program.Sound) :
    (program.handlers.countP Activity.connected : Int) =
      program.summed .children - program.summed .connectionErrors := by
  rw [Program.summed, Program.summed, ← total_sub, ← total_toInt]
  apply total_congr
  intro activity member
  have standing := (sound.booked activity member).standing
  have children_le := standing.children_le
  have errors_nonneg := standing.connectionErrors_nonneg
  have exchange_nonneg := standing.exchangeErrors_nonneg
  have errors_le := standing.errors_le
  rw [Activity.connected]
  by_cases fewer : activity.share .connectionErrors < activity.share .children
  · rw [decide_eq_true fewer, Bool.toInt_true]
    omega
  · rw [decide_eq_false fewer, Bool.toInt_false]
    omega

/-- A difference of words is the difference of their values exactly when it is not negative. -/
theorem connections_exact_iff {children connection_errors : Nat} (fits : children < 2 ^ 64) :
    (connections children connection_errors : Int) = children - connection_errors ↔
      connection_errors ≤ children := by
  constructor
  · intro exact_eq
    have nonneg := Int.natCast_nonneg (connections children connection_errors)
    omega
  · intro le
    rw [connections_eq le fits]
    omega

/-- The difference of `children` in one state and `connection_errors` in a later one. -/
theorem Program.InCourse.connections_iff (in_course : program.InCourse)
    (execution : programSystem.run (.ok program) events = some (.ok after)) :
    (connections (program.counters .children) (after.counters .connectionErrors) : Int) =
        program.counters .children - after.counters .connectionErrors ↔
      programSystem.tally countsFailure (.ok program) events ≤
        program.handlers.countP Activity.connected := by
  have in_course_after := in_course.run execution
  obtain ⟨errors_le, children_le⟩ := in_course.sound.summed_children
  obtain ⟨errors_le_after, children_le_after⟩ := in_course_after.sound.summed_children
  rw [clients_max] at children_le children_le_after
  have children : (program.counters .children : Int) = program.summed .children :=
    in_course.counter_eq (by decide) (by omega)
  have errors : (after.counters .connectionErrors : Int) = after.summed .connectionErrors :=
    in_course_after.counter_eq (by decide) (by omega)
  have counted := in_course.summed_run execution
  have connected := in_course.sound.connected_eq
  rw [connections_exact_iff (by omega)]
  omega

/-! ## The reads of a call -/

variable {watched next : Watched} {watchEvents front back : List WatchEvent}

theorem watch_program (watched : Watched) (between : List ProgramEvent) :
    watchSystem.run watched (between.map .program) =
      (programSystem.run watched.state between).map fun state => { watched with state } := by
  induction between generalizing watched with
  | nil => rfl
  | cons event between ih =>
      rw [List.map_cons, run_cons, run_cons]
      simp only [watchSystem]
      cases programSystem.step watched.state event with
      | none => rfl
      | some state => exact ih { watched with state }

theorem watch_cases {event : WatchEvent} (step : watchSystem.step watched event = some next) :
    (∃ change state, event = .program change ∧
      programSystem.step watched.state change = some state ∧
      next = { watched with state }) ∨
    (∃ final, event = .call ∧ watched.toRead = [] ∧
      next = { watched with calls := watched.calls + 1, toRead := statReads final, values := [] }) ∨
    ∃ program counter toRead, event = .read ∧ watched.state = .ok program ∧
      watched.toRead = counter :: toRead ∧
      next = { watched with toRead, values := watched.values ++ [program.counters counter] } := by
  cases event with
  | program change =>
      obtain ⟨state, taken, rfl⟩ := Option.map_eq_some_iff.mp step
      exact Or.inl ⟨change, state, rfl, taken, rfl⟩
  | call =>
      simp only [watchSystem] at step
      split at step
      · rw [Option.ite_none_right_eq_some] at step
        obtain ⟨⟨-, idle, -⟩, step⟩ := step
        exact Or.inr (Or.inl ⟨_, rfl, idle, (Option.some.inj step).symm⟩)
      · simp at step
  | read =>
      simp only [watchSystem] at step
      split at step
      · rename_i program counter toRead state_eq split
        exact Or.inr (Or.inr
          ⟨program, counter, toRead, rfl, state_eq, split, (Option.some.inj step).symm⟩)
      · simp at step

theorem watch_reachable (execution : watchSystem.run .initial watchEvents = some watched) :
    programSystem.Reachable (.ok .initial) watched.state := by
  have preserves : watchSystem.Preserves fun watched =>
      programSystem.Reachable (.ok .initial) watched.state := by
    intro watched event next reach step
    rcases watch_cases step with
      ⟨change, state, -, taken, rfl⟩ | ⟨final, -, -, rfl⟩ | ⟨program, counter, toRead, -, -, -, rfl⟩
    · have one : programSystem.run watched.state [change] = some state := by simpa using taken
      exact reach.run _ one
    · exact reach
    · exact reach
  exact preserves.run ⟨[], rfl⟩ execution

/-- Where a call is with its reads, after the events so far. -/
structure Recorded (events : List WatchEvent) (watched : Watched) : Prop where
  order : watched.toRead = [] ∧ watched.values = [] ∨
    ∃ final, watched.toRead = (statReads final).drop watched.values.length
  /-- Between the reads of `children` and `connection_errors`. -/
  open_window : watched.values.length = 2 → ∃ front earlier before between,
    events = front ++ .read :: between.map .program ∧
      watchSystem.run .initial front = some earlier ∧ earlier.state = .ok before ∧
      earlier.values.length = 1 ∧ programSystem.run (.ok before) between = some watched.state ∧
      watched.values[1]? = some (before.counters .children)
  /-- Behind both. -/
  closed : 2 < watched.values.length → ∃ before between after,
    ReadsDivisor events before between after ∧
      watched.values[1]? = some (before.counters .children) ∧
      watched.values[2]? = some (after.counters .connectionErrors)

theorem ReadsDivisor.append {before : Program} {between : List ProgramEvent}
    (reads : ReadsDivisor watchEvents before between after) (more : List WatchEvent) :
    ReadsDivisor (watchEvents ++ more) before between after := by
  obtain ⟨front, watched, back, rfl, reached⟩ := reads
  exact ⟨front, watched, back ++ more, by simp, reached⟩

theorem Recorded.next_counter (recorded : Recorded watchEvents watched) {counter : Counter}
    {toRead : List Counter} (split : watched.toRead = counter :: toRead) :
    ∃ final, (statReads final).drop watched.values.length = counter :: toRead := by
  rcases recorded.order with ⟨idle, -⟩ | ⟨final, order⟩
  · simp [idle] at split
  · exact ⟨final, order ▸ split⟩

theorem Recorded.read (recorded : Recorded watchEvents watched)
    (execution : watchSystem.run .initial watchEvents = some watched) {program : Program}
    {counter : Counter} {toRead : List Counter} (state_eq : watched.state = .ok program)
    (split : watched.toRead = counter :: toRead) :
    Recorded (watchEvents ++ [.read])
      { watched with toRead, values := watched.values ++ [program.counters counter] } := by
  obtain ⟨final, order⟩ := recorded.next_counter split
  have counter_eq : (statReads final)[watched.values.length]? = some counter := by
    rw [← List.head?_drop, order, List.head?_cons]
  constructor
  · refine Or.inr ⟨final, ?_⟩
    rw [List.length_append, List.length_singleton, ← List.drop_drop, order, List.drop_one,
      List.tail_cons]
  · intro length_eq
    have one : watched.values.length = 1 := by simpa using length_eq
    obtain rfl : Counter.children = counter := by
      rw [one] at counter_eq
      cases final <;> simpa [statReads] using counter_eq
    refine ⟨watchEvents, watched, program, [], rfl, execution, state_eq, one, ?_, ?_⟩
    · rw [run_nil, ← state_eq]
    · rw [List.getElem?_append_right one.le, one]
      rfl
  · intro longer
    simp only [List.length_append, List.length_singleton] at longer
    rcases Nat.lt_or_ge 2 watched.values.length with behind | here
    · obtain ⟨before, between, after, reads, first, second⟩ := recorded.closed behind
      refine ⟨before, between, after, reads.append _, ?_, ?_⟩
      · rw [List.getElem?_append_left (by omega)]
        exact first
      · rw [List.getElem?_append_left behind]
        exact second
    · have two : watched.values.length = 2 := by omega
      obtain ⟨front, earlier, before, between, events_eq, front_run, earlier_eq, one, between_run,
        first⟩ := recorded.open_window two
      obtain rfl : Counter.connectionErrors = counter := by
        rw [two] at counter_eq
        cases final <;> simpa [statReads] using counter_eq
      refine ⟨before, between, program, ⟨front, earlier, [], ?_, front_run, earlier_eq, one, ?_⟩,
        ?_, ?_⟩
      · rw [events_eq, List.append_assoc, List.cons_append]
      · rw [between_run, state_eq]
      · rw [List.getElem?_append_left (by omega)]
        exact first
      · rw [List.getElem?_append_right two.le, two]
        rfl

theorem run_recorded (execution : watchSystem.run .initial watchEvents = some watched) :
    Recorded watchEvents watched := by
  refine @run_history _ _ watchSystem Recorded _ _ _ ?_ ?_ execution
  · exact ⟨Or.inl ⟨rfl, rfl⟩, by simp [Watched.initial], by simp [Watched.initial]⟩
  · intro front watched event next front_run recorded step
    rcases watch_cases step with ⟨change, state, rfl, taken, rfl⟩ | ⟨final, rfl, idle, rfl⟩ |
      ⟨program, counter, toRead, rfl, state_eq, split, rfl⟩
    · refine ⟨recorded.order, ?_, ?_⟩
      · intro two
        obtain ⟨front, earlier, before, between, rfl, front_run, earlier_eq, one, between_run,
          first⟩ := recorded.open_window two
        refine ⟨front, earlier, before, between ++ [change], by simp, front_run, earlier_eq, one,
          ?_, first⟩
        rw [run_append, between_run]
        simpa using taken
      · intro longer
        obtain ⟨before, between, after, reads, values⟩ := recorded.closed longer
        exact ⟨before, between, after, reads.append _, values⟩
    · exact ⟨Or.inr ⟨final, rfl⟩, by simp, by simp⟩
    · exact recorded.read front_run state_eq split

/-- What the two reads of a call find. -/
theorem ReadsDivisor.exact_iff {before : Program} {between : List ProgramEvent}
    (reads : ReadsDivisor watchEvents before between after) :
    (connections (before.counters .children) (after.counters .connectionErrors) : Int) =
        before.counters .children - after.counters .connectionErrors ↔
      programSystem.tally countsFailure (.ok before) between ≤
        before.handlers.countP Activity.connected := by
  obtain ⟨front, watched, back, -, front_run, state_eq, -, between_run⟩ := reads
  obtain ⟨events, reached⟩ := state_eq ▸ watch_reachable front_run
  exact (initial_inCourse.run reached).connections_iff between_run

/-- The state behind the two reads is one of the run. -/
theorem ReadsDivisor.reached {before : Program} {between : List ProgramEvent}
    (reads : ReadsDivisor watchEvents before between after) :
    ∃ front back watched next, watchEvents = front ++ .read :: back ∧
      watchSystem.run .initial front = some watched ∧ watchSystem.step watched .read = some next ∧
      next.values[1]? = some (before.counters .children) ∧
      next.values[2]? = some (after.counters .connectionErrors) := by
  obtain ⟨front, watched, back, rfl, front_run, state_eq, one, between_run⟩ := reads
  obtain ⟨final, order⟩ : ∃ final, watched.toRead = (statReads final).drop 1 := by
    rcases (run_recorded front_run).order with ⟨-, empty⟩ | ⟨final, order⟩
    · simp [empty] at one
    · exact ⟨final, one ▸ order⟩
  obtain ⟨value, values_eq⟩ := List.length_eq_one_iff.mp one
  obtain ⟨rest, toRead⟩ : ∃ rest, watched.toRead = .children :: .connectionErrors :: rest := by
    cases final <;> exact ⟨_, order⟩
  let opened : Watched :=
    { watched with
      toRead := .connectionErrors :: rest
      values := watched.values ++ [before.counters .children] }
  have first : watchSystem.step watched .read = some opened := by
    simp [watchSystem, state_eq, toRead, opened]
  have middle : watchSystem.run .initial (front ++ .read :: between.map .program) =
      some { opened with state := .ok after } := by
    have opened_eq : opened.state = .ok before := state_eq
    rw [run_append, front_run, Option.bind_some, run_cons, first, Option.bind_some, watch_program,
      opened_eq, between_run]
    rfl
  refine ⟨front ++ .read :: between.map .program, back, _, _, by simp, middle, rfl, ?_, ?_⟩
  · simp [opened, values_eq]
  · simp [opened, values_eq]

/-- In a run, the divisor of every call is the difference of the counters read exactly when, between
its two reads, no more handlers count a failed connection than were connected at the first. -/
theorem divisor_exact_iff (events : List WatchEvent) :
    watchSystem.Along (fun _ _ next => next.Unwrapped) .initial events ↔
      ∀ before between after, ReadsDivisor events before between after →
        programSystem.tally countsFailure (.ok before) between ≤
          before.handlers.countP Activity.connected := by
  rw [along_iff]
  constructor
  · intro unwrapped before between after reads
    obtain ⟨front, back, watched, next, split, front_run, step, first, second⟩ := reads.reached
    have exact_here := unwrapped front .read back watched next split front_run step _ _ first second
    exact reads.exact_iff.mp exact_here
  · intro few front event back watched next split front_run step children errors first second
    have longer : watchSystem.run .initial (front ++ [event]) = some next := by
      rw [run_append, front_run]
      simpa using step
    have behind : 2 < next.values.length := (List.getElem?_eq_some_iff.mp second).1
    obtain ⟨before, between, after, reads, first_eq, second_eq⟩ :=
      (run_recorded longer).closed behind
    obtain rfl := Option.some.inj (first.symm.trans first_eq)
    obtain rfl := Option.some.inj (second.symm.trans second_eq)
    have whole : ReadsDivisor events before between after := by
      have appended := reads.append back
      rwa [List.append_assoc, List.singleton_append, ← split] at appended
    exact reads.exact_iff.mpr (few before between after whole)

/-- One handler is connected when the first two counters are read, and two more are refused before
the third. -/
def refusedWhileReading : List WatchEvent :=
  let construct : WatchEvent :=
    .program (.construct (Vector.replicate 33 0) (Vector.replicate 33 0) 0)
  let steps (index : Nat) (events : List ActivityEvent) : List WatchEvent :=
    events.map fun event => .program (.handler index event)
  let performs (count : Nat) : List ActivityEvent := List.replicate count .perform
  construct :: steps 0 (performs 3 ++ [.connect false 3 3 0] ++ performs 6 ++ [.bear]) ++
    construct :: steps 1 (performs 3 ++ [.bear]) ++ construct :: steps 2 (performs 3) ++
    [.call, .read, .read] ++ steps 1 (.connect true 6 6 0 :: performs 3) ++
    steps 2 (.connect true 7 7 0 :: performs 3) ++ [.read]

/-- The times of the connections are then divided by a count that wrapped. -/
theorem divisor_wraps : ∃ watched,
    watchSystem.run .initial refusedWhileReading = some watched ∧ watched.values = [3, 1, 2] ∧
      connections 1 2 = 2 ^ 64 - 1 ∧ ¬ watched.Unwrapped := by
  obtain ⟨watched, execution, values⟩ : ∃ watched,
      watchSystem.run .initial refusedWhileReading = some watched ∧ watched.values = [3, 1, 2] :=
    ⟨_, rfl, rfl⟩
  refine ⟨watched, execution, values, by decide, ?_⟩
  intro unwrapped
  have exact_here := unwrapped 1 2 (by simp [values]) (by simp [values])
  have nonneg := Int.natCast_nonneg (connections 1 2)
  omega

end Mrps.Tester
