import Mrps.Solvency
import Mrps.Tester.Accounting
import Mrps.Tester.Statistics

/-!
# The averages

A handler counts a message before it adds its latency, and itself before it adds the time its
connection took, which it does not add if it counts an error.  So what the handlers have added never
exceeds the timeout for each message and for each connection counted, wherever each of them is.
-/

namespace Mrps.Tester

open EventSystem SharedCounters Solvency

/-! ## The course of a callback -/

/-- What one callback does outside the handler, from its first action to its last. -/
inductive Course : List Action → Prop
  | nothing : Course []
  | constructed : Course constructing
  | refused : Course (arrived ++ [.update (.fetchAndAdd .connectionErrors 1)])
  | welcomed {spent_mcs : Nat} {bytes : List Byte} : spent_mcs ≤ client_timeout_mcs →
      Course (welcomed spent_mcs ++ [.asyncRead] ++ [.waitExch, .asyncWrite bytes])
  | failed : Course [.update (.fetchAndAdd .exchangeErrors 1)]
  | requested {bytes : List Byte} : Course [.waitExch, .asyncWrite bytes]
  | sampled {spent_mcs : Nat} : spent_mcs ≤ client_timeout_mcs →
      Course [.update (.fetchAndAdd .msgs 1), .update (.fetchAndAdd .latencySummMcs spent_mcs),
        .asyncRead]

variable {handler : ConnectionHandler} {reaction : Reaction}

theorem construct_course (serviceId : Nat) (send read : Vector Byte 33) (now : Time) :
    Course (ConnectionHandler.construct serviceId send read now).actions := by
  rw [ConnectionHandler.construct]
  split
  · exact .nothing
  · exact .constructed

theorem connect_course {e : Bool} {connected now : Time} {random : Nat}
    (running : handler.errored = false)
    (returned : connect e connected now random handler = .ok reaction) :
    Course reaction.actions := by
  have ways : Connected handler connected now random _ := connect_connected e connected now random
  rw [returned] at ways
  cases ways with
  | failed => exact .refused
  | joined _ in_time => exact .welcomed in_time
  | idle errored => simp [running] at errored

theorem sendStaff_course {now : Time}
    (returned : sendStaff false now (.of handler) = .ok reaction) :
    Course reaction.actions := by
  rcases sendStaff_cases returned with ⟨-, rfl⟩ | ⟨-, rfl⟩
  · exact .nothing
  · exact .requested

theorem stub_course (e : Bool) : Course (stub e handler).actions := by
  rcases stub_cases e with stubbed | ⟨-, stubbed⟩
  · rw [stubbed]
    exact .nothing
  · rw [stubbed]
    exact .failed

theorem compareStaff_course {e : Bool} {transferred : Nat} {now : Time}
    (returned : compareStaff e transferred now handler = .ok reaction) :
    Course reaction.actions := by
  have ways : Compared handler e transferred now _ := compareStaff_compared e transferred now
  rw [returned] at ways
  cases ways with
  | errored => exact .nothing
  | mismatch => exact .failed
  | late => exact .failed
  | sampled _ _ in_time => exact .sampled in_time

/-! ## The trace of a handler -/

variable {activity after : Activity} {event : ActivityEvent} {program : Program}

/-- What a handler has done and what its running callback has still to do. -/
def Activity.trace (activity : Activity) : List Action := activity.performed ++ activity.todo

/-- A handler's trace is made of whole courses. -/
def Activity.InCourse (activity : Activity) : Prop :=
  ∃ courses : List (List Action),
    (∀ course ∈ courses, Course course) ∧ activity.trace = courses.flatten

theorem Booked.running (booked : Booked activity) (connecting : activity.connecting = true) :
    activity.handler.errored = false := by
  cases booked with
  | surplus fresh => exact fresh.running
  | opening fresh => exact fresh.running
  | ongoing joined => simp [joined.connecting] at connecting

/-- A callback's course comes behind the trace. -/
theorem Activity.InCourse.react (in_course : activity.InCourse) {current : Activity}
    {callback : Except Fault Reaction} (reacted : current.react callback = .ok after)
    (performed : current.performed = activity.performed) (idle : activity.todo = [])
    (course : ∀ reaction, callback = .ok reaction → Course reaction.actions) : after.InCourse := by
  obtain ⟨reaction, returned, rfl⟩ := react_eq_ok reacted
  obtain ⟨courses, each, trace_eq⟩ := in_course
  refine ⟨courses ++ [reaction.actions], forall_mem_concat each (course reaction returned), ?_⟩
  rw [Activity.trace, idle, List.append_nil] at trace_eq
  simp [Activity.trace, performed, trace_eq]

theorem Activity.InCourse.next (in_course : activity.InCourse) (booked : Booked activity)
    (moves : Moves activity event (.ok after)) : after.InCourse := by
  have same : after.trace = activity.trace → after.InCourse := by
    intro trace_eq
    rwa [Activity.InCourse, trace_eq]
  generalize result_eq : Except.ok after = result at moves
  cases moves with
  | perform split =>
      obtain rfl := Except.ok.inj result_eq
      apply same
      simp [Activity.trace, split]
  | connect idle connecting =>
      have running := booked.running connecting
      exact in_course.react result_eq.symm rfl idle fun _ => connect_course running
  | exchange idle => exact in_course.react result_eq.symm rfl idle fun _ => sendStaff_course
  | @stub e _ idle =>
      refine in_course.react result_eq.symm rfl idle ?_
      rintro reaction ⟨⟩
      exact stub_course e
  | read idle => exact in_course.react result_eq.symm rfl idle fun _ => compareStaff_course
  | readFails idle => exact in_course.react result_eq.symm rfl idle fun _ => compareStaff_course
  | bear => exact same (by rw [Except.ok.inj result_eq]; rfl)
  | servePart => exact same (by rw [Except.ok.inj result_eq]; rfl)
  | serveAll => exact same (by rw [Except.ok.inj result_eq]; rfl)
  | serveFails => exact same (by rw [Except.ok.inj result_eq]; rfl)
  | resume => exact same (by rw [Except.ok.inj result_eq]; rfl)
  | arrive => exact same (by rw [Except.ok.inj result_eq]; rfl)

theorem constructed_inCourse (serviceId : Nat) (send read : Vector Byte 33) (now : Time) :
    (Activity.constructed serviceId send read now).InCourse := by
  refine ⟨[(ConnectionHandler.construct serviceId send read now).actions], ?_, ?_⟩
  · intro course member
    exact List.mem_singleton.mp member ▸ construct_course serviceId send read now
  · simp [Activity.trace, Activity.constructed]

/-- The program between any two atomic steps, with the traces of its handlers. -/
structure Program.InCourse (program : Program) : Prop where
  sound : program.Sound
  each : ∀ activity ∈ program.handlers, activity.InCourse

theorem inCourse_preserved : programSystem.Preserves fun state =>
    ∀ program, state = .ok program → program.InCourse := by
  rintro (fault | before) event next invariant step after rfl
  · simp [programSystem] at step
  · obtain ⟨sound, each⟩ := invariant before rfl
    rcases Program.next_cases step with
      ⟨creating, send, read, now, rfl⟩ | ⟨index, event, activity, activity', found, moves, rfl⟩
    · refine ⟨sound.construct creating send read now, ?_⟩
      apply forall_mem_concat each
      exact constructed_inCourse _ send read now
    · refine ⟨sound.move found moves, ?_⟩
      have here : activity ∈ before.handlers := List.mem_of_getElem? found
      apply forall_mem_set each
      exact (each activity here).next (sound.booked activity here) moves

theorem Program.InCourse.run (in_course : program.InCourse) {after : Program}
    {events : List ProgramEvent}
    (execution : programSystem.run (.ok program) events = some (.ok after)) : after.InCourse := by
  refine inCourse_preserved.run ?_ execution after rfl
  rintro _ ⟨⟩
  exact in_course

theorem initial_inCourse : Program.initial.InCourse := ⟨initial_sound, by simp [Program.initial]⟩

/-! ## The slack -/

variable {actions : List Action} {counter : Counter}

/-- What an action leaves of the timeout: it gains the timeout for a message and loses a latency. -/
def latencySlack (action : Action) : Int :=
  client_timeout_mcs * action.amount .msgs - action.amount .latencySummMcs

/-- What an action leaves of the timeout: it gains the timeout for a child and loses it for an
error, or loses the time of the connection. -/
def connectionSlack (action : Action) : Int :=
  client_timeout_mcs * (action.amount .children - action.amount .connectionErrors) -
    action.amount .connectionSummMcs

theorem total_latencySlack (actions : List Action) :
    total latencySlack actions =
      client_timeout_mcs * added actions .msgs - added actions .latencySummMcs := by
  have parts : latencySlack = fun action =>
      client_timeout_mcs * Action.amount .msgs action - Action.amount .latencySummMcs action := rfl
  rw [parts, total_sub, total_mul]
  rfl

theorem total_connectionSlack (actions : List Action) :
    total connectionSlack actions =
      client_timeout_mcs * (added actions .children - added actions .connectionErrors) -
        added actions .connectionSummMcs := by
  have parts : connectionSlack = fun action =>
      client_timeout_mcs *
        (Action.amount .children action - Action.amount .connectionErrors action) -
          Action.amount .connectionSummMcs action := rfl
  rw [parts, total_sub, total_mul, total_sub]
  rfl

/-- The message is counted before its latency. -/
theorem Course.latency_solvent (course : Course actions) : Solvent latencySlack 0 actions := by
  cases course with
  | sampled in_time => simpa [latencySlack, Action.amount, Update.amount] using in_time
  | _ => simp [latencySlack, Action.amount, Update.amount, constructing, arrived, Tester.welcomed]

/-- The child is counted before its error or the time of its connection. -/
theorem Course.connection_solvent (course : Course actions) :
    Solvent connectionSlack 0 actions := by
  cases course with
  | welcomed in_time =>
      simpa [connectionSlack, Action.amount, Update.amount, Tester.welcomed, arrived] using in_time
  | _ => simp [connectionSlack, Action.amount, Update.amount, constructing, arrived]

theorem amount_fetchAndAdd_nonneg (other : Counter) (amount : Nat) :
    0 ≤ (Update.fetchAndAdd other amount).amount counter := by
  rw [Update.amount]
  split <;> omega

theorem Course.amount_nonneg (course : Course actions) (other : counter ≠ .connectionActive) :
    ∀ action ∈ actions, 0 ≤ action.amount counter := by
  have subtracted : (Update.fetchAndSub .connectionActive 1).amount counter = 0 :=
    if_neg other.symm
  cases course with
  | _ =>
      simp [constructing, arrived, Tester.welcomed, Action.amount, amount_fetchAndAdd_nonneg,
        subtracted]

theorem Activity.InCourse.solvent (in_course : activity.InCourse) {weight : Action → Int}
    (each : ∀ actions, Course actions → Solvent weight 0 actions) :
    0 ≤ total weight activity.performed := by
  obtain ⟨courses, course, trace_eq⟩ := in_course
  have whole : Solvent weight 0 courses.flatten :=
    solvent_flatten fun actions member => each actions (course actions member)
  rw [← trace_eq, Activity.trace] at whole
  simpa using whole.of_append.nonneg le_rfl

theorem Activity.InCourse.exists_course (in_course : activity.InCourse) {action : Action}
    (member : action ∈ activity.trace) : ∃ actions, Course actions ∧ action ∈ actions := by
  obtain ⟨courses, course, trace_eq⟩ := in_course
  rw [trace_eq] at member
  obtain ⟨actions, listed, here⟩ := List.mem_flatten.mp member
  exact ⟨actions, course actions listed, here⟩

theorem Activity.InCourse.share_nonneg (in_course : activity.InCourse)
    (other : counter ≠ .connectionActive) : 0 ≤ activity.share counter := by
  apply total_nonneg
  intro action member
  obtain ⟨actions, course, here⟩ := in_course.exists_course (List.mem_append_left _ member)
  exact course.amount_nonneg other action here

theorem Activity.InCourse.latency_le (in_course : activity.InCourse) :
    activity.share .latencySummMcs ≤ client_timeout_mcs * activity.share .msgs := by
  have slack := in_course.solvent fun actions course => course.latency_solvent
  rw [total_latencySlack] at slack
  exact sub_nonneg.mp slack

theorem Activity.InCourse.connection_le (in_course : activity.InCourse) :
    activity.share .connectionSummMcs ≤
      client_timeout_mcs * (activity.share .children - activity.share .connectionErrors) := by
  have slack := in_course.solvent fun actions course => course.connection_solvent
  rw [total_connectionSlack] at slack
  exact sub_nonneg.mp slack

/-! ## The averages -/

/-- What all handlers have added to a counter, without a bound. -/
def Program.summed (program : Program) (counter : Counter) : Int :=
  total (fun activity => activity.share counter) program.handlers

/-- The sums against the numbers they are divided by, and the averages of a report whose values are
all read in this state. -/
structure Program.Averaged (program : Program) : Prop where
  errors_le : program.summed .connectionErrors ≤ program.summed .children
  connection_le : program.summed .connectionSummMcs ≤
    client_timeout_mcs * (program.summed .children - program.summed .connectionErrors)
  latency_le : program.summed .latencySummMcs ≤ client_timeout_mcs * program.summed .msgs
  /-- There are too few connections for their counters to wrap. -/
  connection_exact : ∀ counter ∈ [Counter.children, .connectionErrors, .connectionSummMcs],
    (program.counters counter : Int) = program.summed counter
  latency_exact : client_timeout_mcs * program.summed .msgs < 2 ^ 64 →
    ∀ counter ∈ [Counter.msgs, .latencySummMcs],
      (program.counters counter : Int) = program.summed counter
  averages_le : client_timeout_mcs * program.summed .msgs < 2 ^ 64 → ∀ final, ∃ report,
    printStat final ((statReads final).map program.counters) = some report ∧
      report.connAvg ≤ client_timeout_mcs ∧ report.latAvg ≤ client_timeout_mcs

variable {events : List ProgramEvent}

theorem Program.InCourse.summed_nonneg (in_course : program.InCourse)
    (other : counter ≠ .connectionActive) : 0 ≤ program.summed counter :=
  total_nonneg fun activity member => (in_course.each activity member).share_nonneg other

theorem Program.InCourse.latency_le (in_course : program.InCourse) :
    program.summed .latencySummMcs ≤ client_timeout_mcs * program.summed .msgs := by
  have each := total_mono fun activity member => (in_course.each activity member).latency_le
  rwa [total_mul] at each

theorem Program.InCourse.connection_le (in_course : program.InCourse) :
    program.summed .connectionSummMcs ≤
      client_timeout_mcs * (program.summed .children - program.summed .connectionErrors) := by
  have each := total_mono fun activity member => (in_course.each activity member).connection_le
  rwa [total_mul, total_sub] at each

theorem Program.InCourse.counter_eq (in_course : program.InCourse)
    (other : counter ≠ .connectionActive) (fits : program.summed counter < 2 ^ 64) :
    (program.counters counter : Int) = program.summed counter :=
  in_course.sound.balanced.exact (in_course.summed_nonneg other) (by exact_mod_cast fits)

theorem Program.Sound.summed_children (sound : program.Sound) :
    program.summed .connectionErrors ≤ program.summed .children ∧
      program.summed .children ≤ clients_max + 1 := by
  have standing : ∀ activity ∈ program.handlers, Standing activity :=
    fun activity member => (sound.booked activity member).standing
  constructor
  · apply total_mono
    intro activity member
    have errors_le := (standing activity member).errors_le
    have nonneg := (standing activity member).exchangeErrors_nonneg
    omega
  · have bound := total_le_length fun activity member => (standing activity member).children_le
    have length_le := sound.chained.length_le
    exact bound.trans (by exact_mod_cast length_le)

/-- The counters of the connections never wrap: there are too few connections. -/
theorem Program.InCourse.connection_exact (in_course : program.InCourse) :
    ∀ counter ∈ [Counter.children, .connectionErrors, .connectionSummMcs],
      (program.counters counter : Int) = program.summed counter := by
  obtain ⟨errors_le, children_le⟩ := in_course.sound.summed_children
  have connection_le := in_course.connection_le
  have errors_nonneg : 0 ≤ program.summed .connectionErrors := in_course.summed_nonneg (by simp)
  rw [clients_max] at children_le
  rw [client_timeout_mcs] at connection_le
  intro counter member
  apply in_course.counter_eq
  · rintro rfl
    simp at member
  · simp only [List.mem_cons, List.not_mem_nil, or_false] at member
    rcases member with rfl | rfl | rfl <;> omega

/-- The counters of the messages do not wrap while the timeout for every message fits. -/
theorem Program.InCourse.latency_exact (in_course : program.InCourse)
    (fits : client_timeout_mcs * program.summed .msgs < 2 ^ 64) :
    ∀ counter ∈ [Counter.msgs, .latencySummMcs],
      (program.counters counter : Int) = program.summed counter := by
  have latency_le := in_course.latency_le
  have msgs_nonneg : 0 ≤ program.summed .msgs := in_course.summed_nonneg (by simp)
  rw [client_timeout_mcs] at fits latency_le
  intro counter member
  apply in_course.counter_eq
  · rintro rfl
    simp at member
  · simp only [List.mem_cons, List.not_mem_nil, or_false] at member
    rcases member with rfl | rfl <;> omega

theorem Program.InCourse.connAvg_le (in_course : program.InCourse) :
    connAvg (program.counters .connectionSummMcs) (program.counters .children)
      (program.counters .connectionErrors) ≤ client_timeout_mcs := by
  obtain ⟨errors_le, children_le⟩ := in_course.sound.summed_children
  have connection_le := in_course.connection_le
  have children := in_course.connection_exact .children (by simp)
  have errors := in_course.connection_exact .connectionErrors (by simp)
  have connection := in_course.connection_exact .connectionSummMcs (by simp)
  rw [clients_max] at children_le
  rw [connAvg, connections_eq (by omega) (by omega)]
  apply div_max_le
  rw [client_timeout_mcs] at connection_le ⊢
  omega

theorem Program.InCourse.latAvg_le (in_course : program.InCourse)
    (fits : client_timeout_mcs * program.summed .msgs < 2 ^ 64) :
    latAvg (program.counters .latencySummMcs) (program.counters .msgs) ≤ client_timeout_mcs := by
  have latency_le := in_course.latency_le
  have msgs := in_course.latency_exact fits .msgs (by simp)
  have latency := in_course.latency_exact fits .latencySummMcs (by simp)
  rw [latAvg]
  apply div_max_le
  rw [client_timeout_mcs] at latency_le ⊢
  omega

/-- In every state that is reached, whatever the order of the handlers' steps. -/
theorem averages_bounded
    (execution : programSystem.run (.ok .initial) events = some (.ok program)) :
    program.Averaged := by
  have in_course := initial_inCourse.run execution
  obtain ⟨errors_le, -⟩ := in_course.sound.summed_children
  refine ⟨errors_le, in_course.connection_le, in_course.latency_le, in_course.connection_exact,
    in_course.latency_exact, ?_⟩
  intro fits final
  obtain ⟨report, report_eq, conn_eq, lat_eq⟩ := printStat_averages final program.counters
  refine ⟨report, report_eq, ?_, ?_⟩
  · rw [conn_eq]
    exact in_course.connAvg_le
  · rw [lat_eq]
    exact in_course.latAvg_le fits

/-- A handler reads the reply to its first request after 7 microseconds. -/
def oneReply : List ProgramEvent :=
  .construct (Vector.replicate 33 0) (Vector.replicate 33 0) 0 ::
    List.map (ProgramEvent.handler 0)
      (firstRequest ++ [.arrive zeroMessage, .read 7, .perform, .perform])

theorem averages_bounded_reply : ∃ program,
    programSystem.run (.ok .initial) oneReply = some (.ok program) ∧
      program.counters .msgs = 1 ∧ program.counters .latencySummMcs = 7 ∧ program.Averaged := by
  obtain ⟨program, execution, msgs, latency⟩ : ∃ program,
      programSystem.run (.ok .initial) oneReply = some (.ok program) ∧
        program.counters .msgs = 1 ∧ program.counters .latencySummMcs = 7 := ⟨_, rfl, rfl, rfl⟩
  exact ⟨program, execution, msgs, latency, averages_bounded execution⟩

end Mrps.Tester
