import Mrps.Trial

/-!
# The round trips of the whole tester

A handler keeps the start of each request in a queue and takes the front of it for every reply that
it reads.  Facing a faithful server the bytes of that reply are those of that request, so the
latencies which the tester adds up are its round trips.
-/

namespace Mrps

open EventSystem SharedCounters Tester

namespace Tester

section Answers

variable {activity after : Activity} {event : ActivityEvent} {handler : ConnectionHandler}
  {counter : Counter}

/-- The round trip of the reply that a handler without an error reads in time, from the request
whose bytes it brings back. -/
def Activity.answer (activity : Activity) : ActivityEvent → Option Nat
  | .read now =>
      if activity.handler.errored = false then
        (activity.handler.pushed[activity.consumed.length / 32]?).bind fun timer =>
          if timer.current now ≤ client_timeout_mcs then some (timer.current now) else none
      else none
  | .perform | .bear | .connect _ _ _ _ | .exchange _ | .serve _ | .serveFails | .resume | .stub
  | .readFails _ _ | .arrive _ => none

/-- What a round trip is to the counters of replies. -/
def gain : Counter → Nat → Int
  | .msgs, _ => 1
  | .latencySummMcs, latency => latency
  | .children, _ | .connectionActive, _ | .connectionErrors, _ | .exchangeErrors, _
  | .connectionSummMcs, _ => 0

/-- The counters of replies. -/
def Counter.OfReplies (counter : Counter) : Prop := counter = .msgs ∨ counter = .latencySummMcs

theorem added_connect_ofReplies (ofReplies : counter.OfReplies) {e : Bool} {connected now : Time}
    {random : Nat} {reaction : Reaction}
    (returned : connect e connected now random handler = .ok reaction) :
    added reaction.actions counter = 0 := by
  have ways : Connected handler connected now random _ := connect_connected e connected now random
  rw [returned] at ways
  rcases ofReplies with rfl | rfl <;> cases ways <;> rfl

theorem added_sendStaff_ofReplies (ofReplies : counter.OfReplies) {now : Time} {reaction : Reaction}
    (returned : sendStaff false now (.of handler) = .ok reaction) :
    added reaction.actions counter = 0 := by
  rcases sendStaff_cases returned with ⟨-, rfl⟩ | ⟨-, rfl⟩ <;>
    rcases ofReplies with rfl | rfl <;> rfl

theorem added_stub_ofReplies (ofReplies : counter.OfReplies) (e : Bool) :
    added (stub e handler).actions counter = 0 := by
  rcases stub_cases e with stubbed | ⟨-, stubbed⟩ <;> rw [stubbed] <;>
    rcases ofReplies with rfl | rfl <;> rfl

theorem added_failed_ofReplies (ofReplies : counter.OfReplies) :
    added (failed handler [] .exchangeErrors).actions counter = 0 := by
  rcases ofReplies with rfl | rfl <;> rfl

theorem added_sampled_ofReplies (ofReplies : counter.OfReplies) (timer : Timer) (now : Time) :
    added (sampled handler timer now).actions counter = gain counter (timer.current now) := by
  rcases ofReplies with rfl | rfl <;> simp [sampled, gain, Action.amount, Update.amount]

/-- The front of the queue is the start of the request whose bytes are read next. -/
theorem pushed_of_front (order : activity.handler.InOrder) (replied : Replied activity)
    (running : activity.handler.errored = false) {timer : Timer} {tqueue : List Timer}
    (queue : activity.handler.tqueue = timer :: tqueue) :
    activity.handler.pushed[activity.consumed.length / 32]? = some timer := by
  rw [replied running, Nat.mul_div_cancel _ (by decide), ← order.queue, queue,
    List.getElem?_append_right le_rfl, Nat.sub_self]
  rfl

/-- A read in time counts the reply and its round trip, and a late one nothing. -/
theorem added_read (ofReplies : counter.OfReplies) (order : activity.handler.InOrder)
    (replied : Replied activity) {now : Time} (idle : activity.todo = [])
    (accepts : activity.handler.errored = false →
      (activity.receive 32).handler.Accepts false 32)
    (reacted : (activity.receive 32).react
      (compareStaff false 32 now (activity.receive 32).handler) = .ok after) :
    added after.trace counter = added activity.trace counter +
      total (gain counter) (activity.answer (.read now)).toList := by
  obtain ⟨reaction, returned, -, added_eq⟩ :=
    added_react counter reacted idle rfl
  have ways : Compared (activity.receive 32).handler false 32 now _ :=
    compareStaff_compared false 32 now
  rw [returned] at ways
  rw [added_eq]
  congr 1
  cases ways with
  | errored errored =>
      have silent : activity.handler.errored = true := errored
      simp [Activity.answer, silent, Reaction.of]
  | mismatch running refused => exact absurd (accepts running) refused
  | @late timer tqueue accepted queue overdue =>
      have running : activity.handler.errored = false := accepted.1
      have start := pushed_of_front order replied running queue
      rw [added_failed_ofReplies ofReplies]
      simp [Activity.answer, running, start, Nat.not_le.mpr overdue]
  | @sampled timer tqueue accepted queue in_time =>
      have running : activity.handler.errored = false := accepted.1
      have start := pushed_of_front order replied running queue
      rw [added_sampled_ofReplies ofReplies]
      simp [Activity.answer, running, start, in_time]

theorem Moves.answers (moves : Moves activity event (.ok after)) (ofReplies : counter.OfReplies)
    (order : activity.handler.InOrder) (replied : Replied activity)
    (accepts : ∀ now, event = .read now → activity.handler.errored = false →
      32 ≤ activity.inbox.length → (activity.receive 32).handler.Accepts false 32) :
    added after.trace counter = added activity.trace counter +
      total (gain counter) (activity.answer event).toList := by
  have quiet : activity.answer event = none → after.trace = activity.trace →
      added after.trace counter = added activity.trace counter +
        total (gain counter) (activity.answer event).toList := by
    intro nothing same
    rw [nothing, same, Option.toList_none, total_nil, add_zero]
  generalize result_eq : Except.ok after = result at moves
  cases moves with
  | @perform action todo split =>
      obtain rfl := Except.ok.inj result_eq
      exact quiet rfl (by simp [Activity.trace, split])
  | connect idle =>
      obtain ⟨reaction, returned, -, added_eq⟩ := added_react counter result_eq.symm idle rfl
      rw [added_eq, added_connect_ofReplies ofReplies returned]
      rfl
  | exchange idle =>
      obtain ⟨reaction, returned, -, added_eq⟩ := added_react counter result_eq.symm idle rfl
      rw [added_eq, added_sendStaff_ofReplies ofReplies returned]
      rfl
  | stub idle =>
      obtain ⟨_, ⟨⟩, -, added_eq⟩ := added_react counter result_eq.symm idle rfl
      rw [added_eq, added_stub_ofReplies ofReplies]
      rfl
  | read idle _ enough =>
      exact added_read ofReplies order replied idle (fun running => accepts _ rfl running enough)
        result_eq.symm
  | @readFails transferred now idle =>
      obtain ⟨reaction, returned, -, added_eq⟩ := added_react counter result_eq.symm idle rfl
      have ways : Compared (activity.receive transferred).handler true transferred now _ :=
        compareStaff_compared true transferred now
      rw [returned] at ways
      rw [added_eq]
      cases ways with
      | errored => rfl
      | mismatch => rw [added_failed_ofReplies ofReplies]; rfl
      | late accepted => exact absurd accepted.2.1 (by decide)
      | sampled accepted => exact absurd accepted.2.1 (by decide)
  | bear | servePart | serveAll | serveFails | resume | arrive =>
      obtain rfl := Except.ok.inj result_eq
      exact quiet rfl rfl

end Answers

end Tester

/-! ## The replies of a run -/

/-- The round trip that a step of the whole tester takes in time. -/
def answered {service : EchoService Byte} :
    Except Fault (Trial service) → TrialEvent service → Option Nat
  | .ok trial, .meeting index (.tester event) =>
      trial.meetings[index]?.bind fun meeting => meeting.tester.answer event
  | _, _ => none

/-- The round trips taken in time in a run, in order. -/
def answers (service : EchoService Byte) (events : List (TrialEvent service)) : List Nat :=
  emitted (trials service) answered (.ok (.initial service)) events

namespace Trial

variable {service : EchoService Byte} {related : service.State → EchoPipe Byte → Prop}
  {trial : Trial service} {meeting after : Meeting service} {index : Nat}
  {event : MeetingEvent service} {counter : Counter} {answers : List Nat}

/-- The handlers go through whole callbacks, and what they count or are about to count of replies is
what the replies were. -/
structure Measured (trial : Trial service) (answers : List Nat) : Prop where
  each : ∀ meeting ∈ trial.meetings, meeting.tester.InCourse
  counted : ∀ counter : Counter, counter.OfReplies →
    total (fun meeting => added meeting.tester.trace counter) trial.meetings =
      total (gain counter) answers

theorem measured_initial : (initial service).Measured [] where
  each := by simp [initial]
  counted _ _ := rfl

theorem Measured.construct (measured : trial.Measured answers) (send read : Vector Byte 33)
    (now : Time) :
    Measured { trial with
      services_i := (trial.services_i + 1) % 2 ^ 64
      creating := trial.creating - 1
      meetings := trial.meetings ++ [.initial service trial.services_i send read now] }
      answers where
  each := forall_mem_concat measured.each (constructed_inCourse trial.services_i send read now)
  counted := by
    intro counter ofReplies
    rw [total_append, measured.counted counter ofReplies, total_cons, total_nil, add_zero]
    have none_yet : added (Meeting.initial service trial.services_i send read now).tester.trace
        counter = 0 := by
      simp only [Activity.trace, Meeting.initial, Activity.constructed, ConnectionHandler.construct]
      split <;> rcases ofReplies with rfl | rfl <;> rfl
    rw [none_yet, add_zero]

theorem added_meeting (refines : service.Refines related) (met : meeting.Sound related)
    (found : trial.meetings[index]? = some meeting) (step : meeting.next event = some (.ok after))
    (ofReplies : counter.OfReplies) :
    added after.tester.trace counter = added meeting.tester.trace counter +
      total (gain counter) (answered (.ok trial) (.meeting index event)).toList := by
  have moves := moves_of_meeting step
  cases event with
  | tester own =>
      have acts : Moves meeting.tester own (.ok after.tester) := moves
      rw [answered, found, Option.bind_some]
      exact acts.answers ofReplies met.order met.replied fun now _ running enough =>
        ((met.conserved refines).reply running enough).1
  | server event =>
      have same : after.tester = meeting.tester := moves
      rw [same]
      exact (add_zero _).symm
  | deliver count =>
      have arrives :
          Moves meeting.tester (.arrive (meeting.toTester.take count)) (.ok after.tester) :=
        moves
      exact arrives.answers ofReplies met.order met.replied (by simp)

theorem inCourse_meeting (in_course : meeting.tester.InCourse) (booked : Booked meeting.tester)
    (step : meeting.next event = some (.ok after)) : after.tester.InCourse := by
  have moves := moves_of_meeting step
  cases own : event.own meeting with
  | none =>
      rw [own] at moves
      rw [moves]
      exact in_course
  | some act =>
      rw [own] at moves
      exact in_course.next booked moves

theorem Measured.move {failures : List Nat} (measured : trial.Measured answers)
    (judged : trial.Judged related failures) (refines : service.Refines related)
    (found : trial.meetings[index]? = some meeting) (step : meeting.next event = some (.ok after)) :
    (trial.move index meeting event after).Measured
      (answers ++ (answered (.ok trial) (.meeting index event)).toList) := by
  have member := List.mem_of_getElem? found
  have met := judged.met meeting member
  have booked : Booked meeting.tester :=
    judged.sound.booked meeting.tester (List.mem_map_of_mem member)
  constructor
  · rw [meetings_move]
    exact forall_mem_set measured.each (inCourse_meeting (measured.each meeting member) booked step)
  · intro counter ofReplies
    rw [meetings_move, total_set _ found, measured.counted counter ofReplies, total_append,
      added_meeting refines met found step ofReplies]
    ring

theorem Measured.next {failures : List Nat} (measured : trial.Measured answers)
    (judged : trial.Judged related failures) (refines : service.Refines related)
    {event : TrialEvent service} {after : Trial service}
    (step : trial.next event = some (.ok after)) :
    after.Measured (answers ++ (answered (.ok trial) event).toList) := by
  cases event with
  | construct send read now =>
      simp only [Trial.next, Option.ite_none_right_eq_some, Option.some.injEq,
        Except.ok.injEq] at step
      obtain ⟨-, rfl⟩ := step
      have nothing : answered (.ok trial) (.construct send read now) = none := rfl
      rw [nothing, Option.toList_none, List.append_nil]
      exact measured.construct send read now
  | meeting index event =>
      obtain ⟨meeting, found, taken⟩ := Option.bind_eq_some_iff.mp step
      obtain ⟨result, stepped, result_eq⟩ := Option.map_eq_some_iff.mp taken
      cases result with
      | error fault => cases result_eq
      | ok later =>
          obtain rfl := Except.ok.inj result_eq
          exact measured.move judged refines found stepped

/-- The handlers' shares and what their running callbacks have still to add. -/
theorem Measured.summed (measured : trial.Measured answers) (ofReplies : counter.OfReplies) :
    trial.program.summed counter +
      total (fun meeting => added meeting.tester.todo counter) trial.meetings =
        total (gain counter) answers := by
  have over_meetings : trial.program.summed counter =
      total (fun meeting => meeting.tester.share counter) trial.meetings := by
    rw [Program.summed, total, total, program, List.map_map]
    rfl
  rw [over_meetings, ← total_add, ← measured.counted counter ofReplies]
  apply total_congr
  intro meeting _
  rw [Activity.trace, added_append]
  rfl

theorem Measured.todo_nonneg (measured : trial.Measured answers) (ofReplies : counter.OfReplies) :
    0 ≤ total (fun meeting => added meeting.tester.todo counter) trial.meetings := by
  refine total_nonneg fun meeting member => total_nonneg fun action listed => ?_
  obtain ⟨actions, course, here⟩ :=
    (measured.each meeting member).exists_course (List.mem_append_right _ listed)
  refine course.amount_nonneg ?_ action here
  rcases ofReplies with rfl | rfl <;> decide

theorem total_gain_msgs (answers : List Nat) : total (gain .msgs) answers = answers.length := by
  induction answers with
  | nil => rfl
  | cons latency answers ih =>
      rw [total_cons, ih, gain, List.length_cons]
      push_cast
      ring

theorem total_gain_latency (answers : List Nat) :
    total (gain .latencySummMcs) answers = answers.sum := by
  induction answers with
  | nil => rfl
  | cons latency answers ih =>
      rw [total_cons, ih, gain, List.sum_cons]
      push_cast
      rfl

/-- The counters hold what is performed, as long as the timeout for every reply fits. -/
theorem Measured.exact (measured : trial.Measured answers) (sound : trial.program.Sound)
    (fits : client_timeout_mcs * answers.length < 2 ^ 64) (ofReplies : counter.OfReplies) :
    (trial.counters counter : Int) +
      total (fun meeting => added meeting.tester.todo counter) trial.meetings =
        total (gain counter) answers := by
  have in_course : trial.program.InCourse := by
    refine ⟨sound, fun activity member => ?_⟩
    obtain ⟨meeting, listed, rfl⟩ := List.mem_map.mp member
    exact measured.each meeting listed
  have msgs_le : trial.program.summed .msgs ≤ answers.length := by
    have shares := measured.summed (.inl rfl)
    have waiting := measured.todo_nonneg (.inl rfl)
    rw [total_gain_msgs] at shares
    omega
  have room : (client_timeout_mcs : Int) * trial.program.summed .msgs < 2 ^ 64 := by
    rw [client_timeout_mcs] at fits ⊢
    omega
  have counter_eq : (trial.counters counter : Int) = trial.program.summed counter :=
    in_course.latency_exact room counter (by simpa [Counter.OfReplies] using ofReplies)
  rw [counter_eq]
  exact measured.summed ofReplies

end Trial

/-- The whole tester against faithful servers, with any number of handlers and any interleaving
of them, of the servers and of what the channels deliver: it does not fault, `msgs` is the number
of the replies that were read in time, and `latency_summ_mcs` the sum of their round trips, each
from the request whose bytes came back; both with the updates that running callbacks still have
to perform. -/
theorem round_trips_measured {service : EchoService Byte} (faithful : service.Faithful)
    {events : List (TrialEvent service)} {state : Except Fault (Trial service)}
    (assumed : (trials service).Along TrialAssumed (.ok (.initial service)) events)
    (execution : (trials service).run (.ok (.initial service)) events = some state)
    (fits : client_timeout_mcs * (answers service events).length < 2 ^ 64) :
    ∃ trial, state = .ok trial ∧ (∀ meeting ∈ trial.meetings, meeting.Conserved) ∧
      (trial.counters .msgs : Int) +
        total (fun meeting => added meeting.tester.todo .msgs) trial.meetings =
          (answers service events).length ∧
      (trial.counters .latencySummMcs : Int) +
        total (fun meeting => added meeting.tester.todo .latencySummMcs) trial.meetings =
          (answers service events).sum := by
  obtain ⟨related, refines⟩ := faithful
  let invariant : List (TrialEvent service) → Except Fault (Trial service) → Prop :=
    fun past state => ∃ trial, state = .ok trial ∧ trial.Judged related (failures service past) ∧
      trial.Measured (answers service past)
  have kept : ∀ front state event next,
      (trials service).run (.ok (.initial service)) front = some state → invariant front state →
      (trials service).step state event = some next → TrialAssumed state event next →
      invariant (front ++ [event]) next := by
    rintro front _ event next front_run ⟨trial, rfl, judged, measured⟩ step assumed
    have more_failures : failures service (front ++ [event]) =
        failures service front ++ (blamed (.ok trial) event).toList :=
      emitted_concat front_run step
    have more_answers : answers service (front ++ [event]) =
        answers service front ++ (answered (.ok trial) event).toList :=
      emitted_concat front_run step
    obtain ⟨after, rfl, judged'⟩ := judged.next refines step assumed
    have measured' := measured.next judged refines step
    rw [← more_failures] at judged'
    rw [← more_answers] at measured'
    exact ⟨after, rfl, judged', measured'⟩
  obtain ⟨trial, rfl, judged, measured⟩ : invariant events state :=
    assumed.history ⟨_, rfl, Trial.judged_initial, Trial.measured_initial⟩ kept execution
  refine ⟨trial, rfl, fun meeting member => (judged.met meeting member).conserved refines, ?_, ?_⟩
  · rw [measured.exact judged.sound fits (.inl rfl), Trial.total_gain_msgs]
  · rw [measured.exact judged.sound fits (.inr rfl), Trial.total_gain_latency]

theorem answers_lateReply : answers (Erlang.echoService 0) lateReply = [7] := by decide +kernel

theorem round_trips_measured_late : ∃ trial,
    (trials (Erlang.echoService 0)).run (.ok (.initial _)) lateReply = some (.ok trial) ∧
      answers (Erlang.echoService 0) lateReply = [7] ∧
      (trial.counters .latencySummMcs : Int) +
        total (fun meeting => added meeting.tester.todo .latencySummMcs) trial.meetings = 7 := by
  obtain ⟨_, execution, -⟩ := Option.bind_eq_some_iff.mp counted_lateReply
  have fits : client_timeout_mcs * (answers (Erlang.echoService 0) lateReply).length < 2 ^ 64 := by
    rw [answers_lateReply]
    decide
  obtain ⟨trial, rfl, -, -, latency⟩ :=
    round_trips_measured (Erlang.echoService_faithful 0)
      (along_trialAssumed (fun _ _ _ => trivial) contiguous_lateReply) execution fits
  rw [answers_lateReply] at latency
  exact ⟨trial, execution, answers_lateReply, latency⟩

end Mrps
