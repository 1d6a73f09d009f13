import Mrps.EchoServers
import Mrps.Fleet
import Mrps.Tester.Averages

/-!
# The whole tester against faithful servers

All handlers of the tester with their counters, each handler at its own connection of a faithful
server.  A handler fails when one of its writes or reads ends in an error or when a reply comes
after `client_timeout_mcs`.  The tester counts the handlers that failed, and no others.
-/

namespace Mrps

open EventSystem SharedCounters Tester

/-! ## Failures -/

/-- The callback meets a failure of the connection. -/
def Tester.Activity.Fails (activity : Activity) : ActivityEvent → Prop
  | .stub => activity.handler.errored = false ∧ activity.written.head? = some true
  | .readFails _ _ => activity.handler.errored = false
  | .read now => activity.handler.errored = false ∧
      activity.handler.tqueue.head?.any fun timer => client_timeout_mcs < timer.current now
  | .perform | .bear | .connect _ _ _ _ | .exchange _ | .serve _ | .serveFails | .resume
  | .arrive _ => False

instance (activity : Activity) : (event : ActivityEvent) → Decidable (activity.Fails event)
  | .stub => inferInstanceAs (Decidable (_ ∧ _))
  | .readFails _ _ => inferInstanceAs (Decidable (_ = _))
  | .read _ => inferInstanceAs (Decidable (_ ∧ _))
  | .perform | .bear | .connect .. | .exchange _ | .serve _ | .serveFails | .resume
  | .arrive _ => isFalse id

namespace Tester

section Errors

variable {activity after : Activity} {event : ActivityEvent} {handler : ConnectionHandler}

/-- The exchange errors a handler has counted or is about to count. -/
def Activity.exchangeErrors (activity : Activity) : Int := added activity.trace .exchangeErrors

theorem added_failed (front : List Action) :
    added (failed handler front .exchangeErrors).actions .exchangeErrors =
      added front .exchangeErrors + 1 := by
  rw [failed, added_append]
  rfl

theorem added_connect {e : Bool} {connected now : Time} {random : Nat} {reaction : Reaction}
    (returned : connect e connected now random handler = .ok reaction) :
    added reaction.actions .exchangeErrors = 0 := by
  have ways : Connected handler connected now random _ := connect_connected e connected now random
  rw [returned] at ways
  cases ways <;> rfl

theorem added_sendStaff {now : Time} {reaction : Reaction}
    (returned : sendStaff false now (.of handler) = .ok reaction) :
    added reaction.actions .exchangeErrors = 0 := by
  rcases sendStaff_cases returned with ⟨-, rfl⟩ | ⟨-, rfl⟩ <;> rfl

theorem added_react (counter : Counter) {current : Activity} {callback : Except Fault Reaction}
    (reacted : current.react callback = .ok after) (idle : activity.todo = [])
    (performed : current.performed = activity.performed) :
    ∃ reaction, callback = .ok reaction ∧ after.handler = reaction.handler ∧
      added after.trace counter =
        added activity.trace counter + added reaction.actions counter := by
  obtain ⟨reaction, returned, rfl⟩ := react_eq_ok reacted
  refine ⟨reaction, returned, rfl, ?_⟩
  simp [Activity.trace, performed, idle]

theorem exchangeErrors_react {current : Activity} {callback : Except Fault Reaction}
    (reacted : current.react callback = .ok after) (idle : activity.todo = [])
    (performed : current.performed = activity.performed) :
    ∃ reaction, callback = .ok reaction ∧ after.handler = reaction.handler ∧
      after.exchangeErrors = activity.exchangeErrors + added reaction.actions .exchangeErrors :=
  added_react .exchangeErrors reacted idle performed

/-- What a step does to the errors of its handler: a failure counts one and marks the handler, and
nothing else counts any. -/
inductive Judges (activity : Activity) (event : ActivityEvent) (after : Activity) : Prop
  | blames : activity.Fails event → activity.handler.errored = false →
      after.handler.errored = true → after.exchangeErrors = activity.exchangeErrors + 1 →
      Judges activity event after
  | spares : ¬ activity.Fails event →
      (activity.handler.errored = true → after.handler.errored = true) →
      after.exchangeErrors = activity.exchangeErrors → Judges activity event after

theorem errored_connect {e : Bool} {connected now : Time} {random : Nat} {reaction : Reaction}
    (returned : connect e connected now random handler = .ok reaction)
    (errored : handler.errored = true) : reaction.handler.errored = true := by
  have ways : Connected handler connected now random _ := connect_connected e connected now random
  rw [returned] at ways
  cases ways with
  | failed => rfl
  | joined running => simp [errored] at running
  | idle => exact errored

theorem errored_sendStaff {now : Time} {reaction : Reaction}
    (returned : sendStaff false now (.of handler) = .ok reaction)
    (errored : handler.errored = true) : reaction.handler.errored = true := by
  rcases sendStaff_cases returned with ⟨-, rfl⟩ | ⟨running, -⟩
  · exact errored
  · simp [errored] at running

/-- `stub` blames the connection for a failed write. -/
theorem judges_stub {e : Bool} {written : List Bool} (idle : activity.todo = [])
    (finished : activity.written = e :: written)
    (reacted : ({ activity with written } : Activity).react
      (.ok (stub e activity.handler)) = .ok after) : Judges activity .stub after := by
  obtain ⟨_, ⟨⟩, handler_eq, errors_eq⟩ := exchangeErrors_react reacted idle rfl
  have fails_iff : activity.Fails .stub ↔ activity.handler.errored = false ∧ e = true := by
    rw [Activity.Fails, finished, List.head?_cons, Option.some.injEq]
  cases errored : activity.handler.errored with
  | true =>
      have quiet : stub e activity.handler = .of activity.handler := by simp [stub, errored]
      rw [quiet] at handler_eq errors_eq
      refine .spares (by simp [fails_iff, errored]) (fun _ => ?_)
        (by simpa [Reaction.of] using errors_eq)
      rw [handler_eq]
      exact errored
  | false =>
      cases e with
      | false =>
          have quiet : stub false activity.handler = .of activity.handler := by simp [stub, errored]
          rw [quiet] at handler_eq errors_eq
          exact .spares (by simp [fails_iff]) (by simp [errored])
            (by simpa [Reaction.of] using errors_eq)
      | true =>
          have blamed :
              stub true activity.handler = failed activity.handler [] .exchangeErrors := by
            rw [stub, errored]
            rfl
          rw [blamed] at handler_eq errors_eq
          refine .blames (fails_iff.mpr ⟨errored, rfl⟩) errored ?_ ?_
          · rw [handler_eq]
            rfl
          · rw [errors_eq, added_failed, added_nil, zero_add]

/-- `compare_staff` blames the connection for a failed read and for a reply that comes late. -/
theorem judges_compareStaff {e : Bool} {transferred : Nat} {now : Time} {current : Activity}
    (idle : activity.todo = []) (performed : current.performed = activity.performed)
    (reacted : current.react (compareStaff e transferred now current.handler) = .ok after)
    (same : current.handler.errored = activity.handler.errored)
    (fails_iff : activity.Fails event ↔ activity.handler.errored = false ∧
      (e = true ∨ current.handler.tqueue.head?.any fun timer =>
        client_timeout_mcs < timer.current now))
    (accepts : activity.handler.errored = false → e = false →
      current.handler.Accepts e transferred) : Judges activity event after := by
  obtain ⟨reaction, returned, handler_eq, errors_eq⟩ := exchangeErrors_react reacted idle performed
  have ways : Compared current.handler e transferred now _ :=
    compareStaff_compared e transferred now
  rw [returned] at ways
  cases ways with
  | errored errored =>
      rw [same] at errored
      refine .spares (by simp [fails_iff, errored]) (fun _ => ?_)
        (by simpa [Reaction.of] using errors_eq)
      rw [handler_eq]
      exact same.trans errored
  | mismatch running refused =>
      rw [same] at running
      have failed_read : e = true := by
        cases e with
        | true => rfl
        | false => exact absurd (accepts running rfl) refused
      refine .blames (fails_iff.mpr ⟨running, .inl failed_read⟩) running ?_ ?_
      · rw [handler_eq]
        rfl
      · rw [errors_eq, added_failed, added_nil, zero_add]
  | @late timer tqueue accepted queue overdue =>
      have running : activity.handler.errored = false := same.symm.trans accepted.1
      refine .blames (fails_iff.mpr ⟨running, .inr ?_⟩) running ?_ ?_
      · simpa [queue] using overdue
      · rw [handler_eq]
        rfl
      · rw [errors_eq, added_failed, added_nil, zero_add]
  | @sampled timer tqueue accepted queue in_time =>
      have running : activity.handler.errored = false := same.symm.trans accepted.1
      refine .spares ?_ (by simp [running]) ?_
      · rw [fails_iff, queue, accepted.2.1]
        simpa using fun _ => in_time
      · rw [errors_eq]
        exact add_zero _

/-- A handler whose reads find the message they wait for fails exactly when it counts an error. -/
theorem Moves.judges (moves : Moves activity event (.ok after))
    (accepts : ∀ now, event = .read now → activity.handler.errored = false →
      32 ≤ activity.inbox.length → (activity.receive 32).handler.Accepts false 32) :
    Judges activity event after := by
  have quiet : ¬ activity.Fails event → after.handler = activity.handler →
      after.trace = activity.trace → Judges activity event after := by
    intro fine handler_eq trace_eq
    refine .spares fine (fun errored => handler_eq ▸ errored) ?_
    rw [Activity.exchangeErrors, trace_eq]
    rfl
  generalize result_eq : Except.ok after = result at moves
  cases moves with
  | @perform action todo split =>
      obtain rfl := Except.ok.inj result_eq
      exact quiet id (Activity.start_handler _ action) (by simp [Activity.trace, split])
  | connect idle =>
      obtain ⟨reaction, returned, handler_eq, errors_eq⟩ :=
        exchangeErrors_react result_eq.symm idle rfl
      rw [added_connect returned, add_zero] at errors_eq
      exact .spares id (fun errored => handler_eq ▸ errored_connect returned errored) errors_eq
  | exchange idle =>
      obtain ⟨reaction, returned, handler_eq, errors_eq⟩ :=
        exchangeErrors_react result_eq.symm idle rfl
      rw [added_sendStaff returned, add_zero] at errors_eq
      exact .spares id (fun errored => handler_eq ▸ errored_sendStaff returned errored) errors_eq
  | stub idle finished => exact judges_stub idle finished result_eq.symm
  | read idle _ enough =>
      have same : (activity.receive 32).performed = activity.performed := rfl
      refine judges_compareStaff idle same result_eq.symm rfl ?_
        fun running _ => accepts _ rfl running enough
      simp [Activity.Fails, Activity.receive]
  | @readFails transferred _ idle =>
      have same : (activity.receive transferred).performed = activity.performed := rfl
      refine judges_compareStaff idle same result_eq.symm rfl ?_ (by simp)
      simp [Activity.Fails]
  | bear | servePart | serveAll | serveFails | resume | arrive =>
      obtain rfl := Except.ok.inj result_eq
      exact quiet id rfl rfl

end Errors

end Tester

/-! ## The system -/

/-- The program with every handler at its connection. -/
structure Trial (service : EchoService Byte) where
  counters : Counter → Nat
  services_i : Nat
  creating : Nat
  meetings : List (Meeting service)

/-- The steps of the program, of the server and of the channels. -/
inductive TrialEvent (service : EchoService Byte) where
  | construct (send read : Vector Byte 33) (now : Time)
  | meeting (index : Nat) (event : MeetingEvent service)

/-- What an event is to the handler at that end. -/
def MeetingEvent.own {service : EchoService Byte} (meeting : Meeting service) :
    MeetingEvent service → Option ActivityEvent
  | .tester event => some event
  | .server _ => none
  | .deliver count => some (.arrive (meeting.toTester.take count))

namespace Trial

variable {service : EchoService Byte}

/-- The program alone. -/
def program (trial : Trial service) : Program :=
  { counters := trial.counters
    services_i := trial.services_i
    creating := trial.creating
    handlers := trial.meetings.map Meeting.tester }

/-- `main` at its `new connection_handler`. -/
def initial (service : EchoService Byte) : Trial service :=
  { counters := fun _ => 0, services_i := 0, creating := 1, meetings := [] }

/-- The trial after an event of the connection at `index`. -/
def move (trial : Trial service) (index : Nat) (meeting : Meeting service)
    (event : MeetingEvent service) (after : Meeting service) : Trial service :=
  match event.own meeting with
  | none => { trial with meetings := trial.meetings.set index after }
  | some own =>
      { trial with
        counters := (meeting.tester.performs own).foldl Action.apply trial.counters
        creating := trial.creating + own.creates
        meetings := trial.meetings.set index after }

/-- One step. -/
def next (trial : Trial service) : TrialEvent service → Option (Except Fault (Trial service))
  | .construct send read now =>
      if 0 < trial.creating then
        some (.ok { trial with
          services_i := (trial.services_i + 1) % 2 ^ 64
          creating := trial.creating - 1
          meetings := trial.meetings ++ [.initial service trial.services_i send read now] })
      else
        none
  | .meeting index event =>
      trial.meetings[index]?.bind fun meeting =>
        (meeting.next event).map fun result => result.map (trial.move index meeting event)

end Trial

/-- The runs of the whole tester; a fault ends the run. -/
def trials (service : EchoService Byte) :
    EventSystem (Except Fault (Trial service)) (TrialEvent service) where
  step state event :=
    match state with
    | .ok trial => trial.next event
    | .error _ => none

/-- Every `async_write` puts its bytes on its connection whole, and the server's environment does
what the server relies on. -/
def TrialAssumed {service : EchoService Byte} (state : Except Fault (Trial service))
    (event : TrialEvent service) (_ : Except Fault (Trial service)) : Prop :=
  match event with
  | .construct _ _ _ => True
  | .meeting index event => ∀ trial meeting result, state = .ok trial →
      trial.meetings[index]? = some meeting → meeting.next event = some result →
        MeetingAssumed (.ok meeting) event result

/-- Servers that rely on nothing only leave the writes of the handlers to be assumed. -/
theorem along_trialAssumed {service : EchoService Byte}
    (relies : ∀ state event next, service.Allowed state event next)
    {initial : Except Fault (Trial service)} {events : List (TrialEvent service)}
    (contiguous : ∀ index event, .meeting index (.tester event) ∈ events → Contiguous event) :
    (trials service).Along TrialAssumed initial events := by
  rw [along_iff]
  rintro front event back state next split - -
  have member : event ∈ events := by simp [split]
  cases event with
  | construct send read now => trivial
  | meeting index event =>
      rintro trial meeting result rfl - -
      cases event with
      | tester event => exact contiguous index event member
      | server event => exact fun _ _ _ _ => relies _ _ _
      | deliver count => trivial

/-- The handler that fails with a step. -/
def blamed {service : EchoService Byte} :
    Except Fault (Trial service) → TrialEvent service → Option Nat
  | .ok trial, .meeting index (.tester event) =>
      trial.meetings[index]?.bind fun meeting =>
        if meeting.tester.Fails event then some index else none
  | _, _ => none

/-- The handlers that failed in a run, in order. -/
def failures (service : EchoService Byte) (events : List (TrialEvent service)) : List Nat :=
  emitted (trials service) blamed (.ok (.initial service)) events

/-! ## The invariant -/

namespace Trial

variable {service : EchoService Byte} {related : service.State → EchoPipe Byte → Prop}
  {trial : Trial service} {meeting after : Meeting service} {index : Nat}
  {event : MeetingEvent service}

/-- The program is in order, every connection is, and the errors that are counted or about to be are
those of the handlers that failed. -/
structure Judged (related : service.State → EchoPipe Byte → Prop) (trial : Trial service)
    (failures : List Nat) : Prop where
  sound : trial.program.Sound
  met : ∀ meeting ∈ trial.meetings, meeting.Sound related
  errors : total (fun meeting => meeting.tester.exchangeErrors) trial.meetings = failures.length
  errored : ∀ index ∈ failures, ∃ meeting, trial.meetings[index]? = some meeting ∧
    meeting.tester.handler.errored = true
  once : failures.Nodup

theorem judged_initial : (initial service).Judged related [] where
  sound := initial_sound
  met := by simp [initial]
  errors := rfl
  errored := by simp
  once := List.nodup_nil

theorem Judged.construct {failures : List Nat} (judged : trial.Judged related failures)
    (refines : service.Refines related) (creating : 0 < trial.creating) (send read : Vector Byte 33)
    (now : Time) :
    Judged related { trial with
      services_i := (trial.services_i + 1) % 2 ^ 64
      creating := trial.creating - 1
      meetings := trial.meetings ++ [.initial service trial.services_i send read now] }
      failures := by
  obtain ⟨sound, met, errors, errored, once⟩ := judged
  refine ⟨?_, ?_, ?_, ?_, once⟩
  · have constructed := sound.construct creating send read now
    simpa [program, Program.construct, Meeting.initial] using constructed
  · apply forall_mem_concat met
    exact .initial refines trial.services_i send read now
  · rw [total_append, errors, total_cons, total_nil, add_zero]
    have none_yet : (Meeting.initial service trial.services_i send read now).tester.exchangeErrors =
        0 := by
      simp only [Activity.exchangeErrors, Activity.trace, Meeting.initial, Activity.constructed,
        ConnectionHandler.construct]
      split <;> rfl
    rw [none_yet, add_zero]
  · intro index member
    obtain ⟨meeting, found, silent⟩ := errored index member
    have inside := (List.getElem?_eq_some_iff.mp found).1
    exact ⟨meeting, (List.getElem?_append_left inside).trans found, silent⟩

theorem moves_of_meeting (step : meeting.next event = some (.ok after)) :
    match event.own meeting with
    | none => after.tester = meeting.tester
    | some own => Moves meeting.tester own (.ok after.tester) := by
  cases event with
  | tester event =>
      cases event with
      | arrive bytes => cases step
      | _ =>
          obtain ⟨result, taken, result_eq⟩ := Option.map_eq_some_iff.mp step
          cases result with
          | error fault => cases result_eq
          | ok tester =>
              obtain rfl := Except.ok.inj result_eq
              exact moves_of_next taken
  | server event =>
      obtain ⟨server, -, guarded⟩ := Option.bind_eq_some_iff.mp step
      rw [Option.ite_none_right_eq_some] at guarded
      obtain rfl := Except.ok.inj (Option.some.inj guarded.2)
      rfl
  | deliver count =>
      obtain rfl := Except.ok.inj (Option.some.inj step)
      exact .arrive

theorem sound_move (sound : trial.program.Sound) (found : trial.meetings[index]? = some meeting)
    (step : meeting.next event = some (.ok after)) :
    (trial.move index meeting event after).program.Sound := by
  have at_index : trial.program.handlers[index]? = some meeting.tester := by
    rw [program, List.getElem?_map, found]
    rfl
  have moves := moves_of_meeting step
  rw [move]
  cases own : event.own meeting with
  | none =>
      rw [own] at moves
      have same : (trial.meetings.set index after).map Meeting.tester =
          trial.meetings.map Meeting.tester := map_set_same found moves
      rw [program, same]
      exact sound
  | some act =>
      rw [own] at moves
      have moved := sound.move at_index moves
      simpa [program, Program.move, List.map_set] using moved

theorem meetings_move (trial : Trial service) (index : Nat) (meeting : Meeting service)
    (event : MeetingEvent service) (after : Meeting service) :
    (trial.move index meeting event after).meetings = trial.meetings.set index after := by
  rw [move]
  split <;> rfl

theorem blamed_meeting (found : trial.meetings[index]? = some meeting) :
    blamed (.ok trial) (.meeting index event) =
      match event with
      | .tester own => if meeting.tester.Fails own then some index else none
      | .server _ | .deliver _ => none := by
  cases event with
  | tester own => rw [blamed, found, Option.bind_some]
  | server | deliver => rfl

/-- A step at one connection fails its handler, which did not fail before, or counts no error. -/
theorem judged_meeting (refines : service.Refines related) (met : meeting.Sound related)
    (found : trial.meetings[index]? = some meeting)
    (step : meeting.next event = some (.ok after)) :
    (blamed (.ok trial) (.meeting index event) = some index ∧
        meeting.tester.handler.errored = false ∧ after.tester.handler.errored = true ∧
        after.tester.exchangeErrors = meeting.tester.exchangeErrors + 1) ∨
      (blamed (.ok trial) (.meeting index event) = none ∧
        (meeting.tester.handler.errored = true → after.tester.handler.errored = true) ∧
        after.tester.exchangeErrors = meeting.tester.exchangeErrors) := by
  have moves := moves_of_meeting step
  rw [blamed_meeting found]
  cases event with
  | tester own =>
      have acts : Moves meeting.tester own (.ok after.tester) := moves
      have judges := acts.judges fun now is_read running enough =>
        ((met.conserved refines).reply running enough).1
      cases judges with
      | blames fails running errored counted =>
          exact .inl ⟨if_pos fails, running, errored, counted⟩
      | spares fine still same => exact .inr ⟨if_neg fine, still, same⟩
  | server event =>
      have same : after.tester = meeting.tester := moves
      rw [same]
      exact .inr ⟨rfl, id, rfl⟩
  | deliver count =>
      have arrives :
          Moves meeting.tester (.arrive (meeting.toTester.take count)) (.ok after.tester) :=
        moves
      cases arrives.judges (by simp) with
      | blames fails => exact fails.elim
      | spares _ still same => exact .inr ⟨rfl, still, same⟩

theorem Judged.move {failures : List Nat} (judged : trial.Judged related failures)
    (refines : service.Refines related) (found : trial.meetings[index]? = some meeting)
    (step : meeting.next event = some (.ok after)) (met' : after.Sound related) :
    (trial.move index meeting event after).Judged related
      (failures ++ (blamed (.ok trial) (.meeting index event)).toList) := by
  obtain ⟨sound, met, errors, errored, once⟩ := judged
  have inside := (List.getElem?_eq_some_iff.mp found).1
  have judges := judged_meeting refines (met meeting (List.mem_of_getElem? found)) found step
  have errors' : total (fun meeting => meeting.tester.exchangeErrors)
      (trial.move index meeting event after).meetings =
        failures.length - meeting.tester.exchangeErrors + after.tester.exchangeErrors := by
    rw [meetings_move, total_set _ found, errors]
  have still : (meeting.tester.handler.errored = true → after.tester.handler.errored = true) →
      ∀ other ∈ failures, ∃ meeting', (trial.move index meeting event after).meetings[other]? =
        some meeting' ∧ meeting'.tester.handler.errored = true := by
    intro stays other member
    obtain ⟨failed, there, silent⟩ := errored other member
    rw [meetings_move]
    by_cases here : index = other
    · subst here
      obtain rfl := Option.some.inj (found.symm.trans there)
      exact ⟨after, List.getElem?_set_self inside, stays silent⟩
    · exact ⟨failed, (List.getElem?_set_ne here).trans there, silent⟩
  have all_met :
      ∀ other ∈ (trial.move index meeting event after).meetings, other.Sound related := by
    rw [meetings_move]
    exact forall_mem_set met met'
  rcases judges with ⟨blames, running, silent, counted⟩ | ⟨spares, stays, same⟩
  · rw [blames, Option.toList_some]
    refine ⟨sound_move sound found step, all_met, ?_, ?_, ?_⟩
    · rw [errors', counted, List.length_append, List.length_singleton]
      push_cast
      ring
    · apply forall_mem_concat (still fun _ => silent)
      rw [meetings_move]
      exact ⟨after, List.getElem?_set_self inside, silent⟩
    · rw [List.nodup_append]
      refine ⟨once, List.nodup_singleton index, ?_⟩
      rintro other member _ last rfl
      obtain rfl := List.mem_singleton.mp last
      obtain ⟨failed, there, silent⟩ := errored _ member
      obtain rfl := Option.some.inj (found.symm.trans there)
      simp [running] at silent
  · rw [spares, Option.toList_none, List.append_nil]
    refine ⟨sound_move sound found step, all_met, ?_, still stays, once⟩
    rw [errors', same]
    ring

/-- An assumed step of a judged trial leads to a judged trial. -/
theorem Judged.next {failures : List Nat} (judged : trial.Judged related failures)
    (refines : service.Refines related) {event : TrialEvent service}
    {state : Except Fault (Trial service)} (step : trial.next event = some state)
    (assumed : TrialAssumed (.ok trial) event state) :
    ∃ after, state = .ok after ∧
      after.Judged related (failures ++ (blamed (.ok trial) event).toList) := by
  cases event with
  | construct send read now =>
      simp only [Trial.next, Option.ite_none_right_eq_some, Option.some.injEq] at step
      obtain ⟨creating, rfl⟩ := step
      have nothing : blamed (.ok trial) (.construct send read now) = none := rfl
      rw [nothing, Option.toList_none, List.append_nil]
      exact ⟨_, rfl, judged.construct refines creating send read now⟩
  | meeting index event =>
      obtain ⟨meeting, found, taken⟩ := Option.bind_eq_some_iff.mp step
      obtain ⟨result, stepped, rfl⟩ := Option.map_eq_some_iff.mp taken
      have met := judged.met meeting (List.mem_of_getElem? found)
      obtain ⟨after, rfl, met'⟩ := met.next refines stepped (assumed _ _ _ rfl found stepped)
      exact ⟨_, rfl, judged.move refines found stepped met'⟩

/-- The counter holds the errors whose updates are performed. -/
theorem Judged.counted {failures : List Nat} (judged : trial.Judged related failures) :
    (trial.counters .exchangeErrors : Int) +
      total (fun meeting => added meeting.tester.todo .exchangeErrors) trial.meetings =
        failures.length := by
  have standing : ∀ activity ∈ trial.program.handlers, Standing activity :=
    fun activity member => (judged.sound.booked activity member).standing
  have counter_eq : (trial.counters .exchangeErrors : Int) =
      total (fun activity => activity.share .exchangeErrors) trial.program.handlers := by
    refine judged.sound.exact
      (fun activity member => (standing activity member).exchangeErrors_nonneg) ?_
    intro activity member
    have once := judged.sound.accounted.once activity member
    have nonneg := (standing activity member).connectionErrors_nonneg
    omega
  have over_meetings : total (fun activity => activity.share .exchangeErrors)
      trial.program.handlers =
        total (fun meeting => meeting.tester.share .exchangeErrors) trial.meetings := by
    rw [total, total, program, List.map_map]
    rfl
  rw [counter_eq, over_meetings, ← total_add, ← judged.errors]
  apply total_congr
  intro meeting _
  rw [Activity.exchangeErrors, Activity.trace, added_append]
  rfl

end Trial

/-- The whole tester against faithful servers, with any number of handlers and any interleaving of
them, of the servers and of what the channels deliver: it does not fault and no connection loses,
duplicates or reorders a byte.  `exchange_errors`, with the updates that running callbacks still
have to perform, is the number of the handlers that failed, each of which failed once. -/
theorem exchange_errors_counted {service : EchoService Byte} (faithful : service.Faithful)
    {events : List (TrialEvent service)} {state : Except Fault (Trial service)}
    (assumed : (trials service).Along TrialAssumed (.ok (.initial service)) events)
    (execution : (trials service).run (.ok (.initial service)) events = some state) :
    ∃ trial, state = .ok trial ∧ (∀ meeting ∈ trial.meetings, meeting.Conserved) ∧
      (failures service events).Nodup ∧
      (trial.counters .exchangeErrors : Int) +
        total (fun meeting => added meeting.tester.todo .exchangeErrors) trial.meetings =
          (failures service events).length := by
  obtain ⟨related, refines⟩ := faithful
  let invariant : List (TrialEvent service) → Except Fault (Trial service) → Prop :=
    fun past state => ∃ trial, state = .ok trial ∧ trial.Judged related (failures service past)
  have kept : ∀ front state event next,
      (trials service).run (.ok (.initial service)) front = some state → invariant front state →
      (trials service).step state event = some next → TrialAssumed state event next →
      invariant (front ++ [event]) next := by
    rintro front _ event next front_run ⟨trial, rfl, judged⟩ step assumed
    have longer : failures service (front ++ [event]) =
        failures service front ++ (blamed (.ok trial) event).toList :=
      emitted_concat front_run step
    obtain ⟨after, rfl, judged'⟩ := judged.next refines step assumed
    rw [← longer] at judged'
    exact ⟨after, rfl, judged'⟩
  obtain ⟨trial, rfl, judged⟩ : invariant events state :=
    assumed.history ⟨_, rfl, Trial.judged_initial⟩ kept execution
  exact ⟨trial, rfl, fun meeting member => (judged.met meeting member).conserved refines,
    judged.once, judged.counted⟩

/-- Two handlers at `server.erl`: the reply to the first comes too late, that to the second
in time. -/
def lateReply : List (TrialEvent (Erlang.echoService 0)) :=
  .construct (Vector.replicate 33 0) (Vector.replicate 33 0) 0 :: firstReply.map (.meeting 0) ++
    [.meeting 0 (.tester .bear),
      .construct (Vector.replicate 33 0) (Vector.replicate 33 0) 0] ++
    firstReply.map (.meeting 1) ++
    [.meeting 0 (.tester (.read (client_timeout_mcs + 1))), .meeting 0 (.tester .perform),
      .meeting 1 (.tester (.read 7))]

theorem failures_lateReply : failures (Erlang.echoService 0) lateReply = [0] := by decide +kernel

theorem counted_lateReply :
    ((trials (Erlang.echoService 0)).run (.ok (.initial _)) lateReply).bind
      (fun state => state.toOption.map fun trial => trial.counters .exchangeErrors) = some 1 := by
  decide +kernel

theorem contiguous_lateReply : ∀ index event,
    .meeting index (.tester event) ∈ lateReply → Contiguous event := by
  intro index event member
  simp only [lateReply, List.cons_append, List.append_assoc, List.mem_cons, List.mem_append,
    List.mem_map, List.not_mem_nil, TrialEvent.meeting.injEq, MeetingEvent.tester.injEq,
    reduceCtorEq, false_or, or_false] at member
  rcases member with ⟨_, reply, -, rfl⟩ | ⟨-, rfl⟩ | ⟨_, reply, -, rfl⟩ |
    ⟨-, rfl⟩ | ⟨-, rfl⟩ | ⟨-, rfl⟩
  · exact contiguous_firstReply event reply
  · trivial
  · exact contiguous_firstReply event reply
  all_goals trivial

theorem exchange_errors_counted_late : ∃ trial,
    (trials (Erlang.echoService 0)).run (.ok (.initial _)) lateReply = some (.ok trial) ∧
      failures (Erlang.echoService 0) lateReply = [0] ∧ trial.counters .exchangeErrors = 1 ∧
      (trial.counters .exchangeErrors : Int) +
        total (fun meeting => added meeting.tester.todo .exchangeErrors) trial.meetings = 1 := by
  obtain ⟨_, execution, counted⟩ := Option.bind_eq_some_iff.mp counted_lateReply
  obtain ⟨trial, rfl, -, -, errors⟩ :=
    exchange_errors_counted (Erlang.echoService_faithful 0)
      (along_trialAssumed (fun _ _ _ => trivial) contiguous_lateReply) execution
  rw [failures_lateReply] at errors
  exact ⟨trial, execution, failures_lateReply, Option.some.inj counted, errors⟩

end Mrps
