import Mrps.EventSystem

/-!
# Registration with a running scheduler

An `IOScheduler` of `IOScheduler.java`: the loop of its `Worker`, the two steps of every `register`
call in flight, and the selector's wakeup.  Other threads may take any step between two steps of the
loop.
-/

namespace Mrps.Java

open EventSystem

/-- Where the thread of a scheduler is in `Worker.run`. -/
inductive Runner where
  /-- Before `runner.start()`. -/
  | unstarted
  /-- Before the test of the outer loop. -/
  | testing
  /-- Before `--counter > 0 && (available = selector.selectNow()) == 0`. -/
  | polling (counter : Nat)
  /-- In `selector.select()`. -/
  | selecting
  /-- In the loop over the selected keys. -/
  | processing
  /-- Before `!requests.isEmpty()`. -/
  | draining
  /-- `run` is left. -/
  | finished
  deriving DecidableEq, Repr

/-- How far a call of `start` or `stop` is: `isRunning` is set before the thread is touched. -/
inductive Call where
  | idle
  | flagged
  | returned
  deriving DecidableEq, Repr

/-- A scheduler with the calls of other threads on it. -/
structure IOScheduler where
  isRunning : Bool
  runner : Runner
  /-- The interrupt status of the thread. -/
  interrupted : Bool
  /-- A wakeup of the selector is pending. -/
  wakeup : Bool
  /-- How many registered channels are ready. -/
  ready : Nat
  /-- The queue, each request under the number of its `register` call. -/
  requests : List Nat
  /-- How many `register` calls were made. -/
  registrations : Nat
  /-- The `register` calls that have offered their request and not yet called `wakeup`. -/
  offering : List Nat
  starting : Call
  stopping : Call
  deriving DecidableEq, Repr

/-- The steps of the threads around a scheduler and of its own thread. -/
inductive SchedulerEvent where
  /-- `isRunning = true` in `start`. -/
  | startFlag
  /-- `runner.start()` in `start`. -/
  | startRunner
  /-- `isRunning = false` in `stop`. -/
  | stopFlag
  /-- `runner.join()` returns in `stop`. -/
  | stopJoin
  /-- `requests.offer(..)` in `register`. -/
  | offer
  /-- `selector.wakeup()` in the numbered `register`. -/
  | wake (registration : Nat)
  /-- Some thread interrupts the runner. -/
  | interrupt
  /-- Channels become ready or cease to be. -/
  | channels (ready : Nat)
  /-- The test of the outer loop. -/
  | test
  /-- One test of the loop around `selectNow`. -/
  | poll
  /-- `selectNow` throws an `IOException`. -/
  | pollThrows (consumed : Bool)
  /-- `select` returns. -/
  | select
  /-- `select` throws an `IOException`. -/
  | selectThrows (consumed : Bool)
  /-- The loop over the selected keys ends. -/
  | processed
  /-- One round of the loop over the requests. -/
  | drain
  /-- An exception escapes the processing of a key or a request. -/
  | escape
  deriving DecidableEq, Repr

namespace IOScheduler

/-- The constructor. -/
def created : IOScheduler where
  isRunning := false
  runner := .unstarted
  interrupted := false
  wakeup := false
  ready := 0
  requests := []
  registrations := 0
  offering := []
  starting := .idle
  stopping := .idle

/-- `selector.selectNow()` returns how many channels are ready; it consumes a pending wakeup. -/
def selectNow (scheduler : IOScheduler) : Nat × IOScheduler :=
  (scheduler.ready, { scheduler with wakeup := false })

/-- What lets `selector.select()` return. -/
def Selectable (scheduler : IOScheduler) : Prop :=
  0 < scheduler.ready ∨ scheduler.wakeup = true ∨ scheduler.interrupted = true

instance (scheduler : IOScheduler) : Decidable scheduler.Selectable :=
  inferInstanceAs (Decidable (_ ∨ _ ∨ _))

/-- A selection ends in an `IOException`, which `run` prints before it goes on. -/
def selectionThrows (scheduler : IOScheduler) (consumed : Bool) : IOScheduler :=
  { scheduler with wakeup := scheduler.wakeup && !consumed, runner := .processing }

/-- `counter` before the loop around `selectNow`. -/
def POLLS : Nat := 50

/-- One step. -/
def next (scheduler : IOScheduler) : SchedulerEvent → Option IOScheduler
  | .startFlag =>
      if scheduler.starting = .idle then
        some { scheduler with isRunning := true, starting := .flagged }
      else
        none
  | .startRunner =>
      if scheduler.starting = .flagged ∧ scheduler.runner = .unstarted then
        some { scheduler with runner := .testing, starting := .returned }
      else
        none
  | .stopFlag =>
      if scheduler.stopping = .idle then
        some { scheduler with isRunning := false, stopping := .flagged }
      else
        none
  | .stopJoin =>
      if scheduler.stopping = .flagged ∧
          (scheduler.runner = .unstarted ∨ scheduler.runner = .finished) then
        some { scheduler with stopping := .returned }
      else
        none
  | .offer =>
      some { scheduler with
        requests := scheduler.requests ++ [scheduler.registrations]
        registrations := scheduler.registrations + 1
        offering := scheduler.registrations :: scheduler.offering }
  | .wake registration =>
      if registration ∈ scheduler.offering then
        some { scheduler with wakeup := true, offering := scheduler.offering.erase registration }
      else
        none
  | .interrupt => some { scheduler with interrupted := true }
  | .channels ready => some { scheduler with ready }
  | .test =>
      if scheduler.runner = .testing then
        if scheduler.isRunning ∧ ¬ scheduler.interrupted then
          some { scheduler with runner := .polling POLLS }
        else
          some { scheduler with runner := .finished }
      else
        none
  | .poll =>
      match scheduler.runner with
      | .polling counter =>
          if 0 < counter - 1 then
            let selection := scheduler.selectNow
            if selection.1 = 0 then
              some { selection.2 with runner := .polling (counter - 1) }
            else
              some { selection.2 with runner := .processing }
          else
            some { scheduler with runner := .selecting }
      | _ => none
  | .pollThrows consumed =>
      match scheduler.runner with
      | .polling counter =>
          if 0 < counter - 1 then some (scheduler.selectionThrows consumed) else none
      | _ => none
  | .select =>
      if scheduler.runner = .selecting ∧ scheduler.Selectable then
        some { scheduler with wakeup := false, runner := .processing }
      else
        none
  | .selectThrows consumed =>
      if scheduler.runner = .selecting then
        some (scheduler.selectionThrows consumed)
      else
        none
  | .processed =>
      if scheduler.runner = .processing then
        some { scheduler with runner := .draining }
      else
        none
  | .drain =>
      if scheduler.runner = .draining then
        match scheduler.requests with
        | [] => some { scheduler with runner := .testing }
        | _ :: requests => some { scheduler with requests }
      else
        none
  | .escape =>
      if scheduler.runner = .processing ∨ scheduler.runner = .draining then
        some { scheduler with runner := .finished }
      else
        none

/-- The queue holds a request whose `register` call has returned. -/
def Registered (scheduler : IOScheduler) : Prop :=
  ∃ registration ∈ scheduler.requests, registration ∉ scheduler.offering

instance (scheduler : IOScheduler) : Decidable scheduler.Registered :=
  inferInstanceAs (Decidable (∃ registration ∈ _, _))

/-- The thread is in `select`, nothing lets it return, and a registration waits for it. -/
def Stranded (scheduler : IOScheduler) : Prop :=
  scheduler.runner = .selecting ∧ ¬ scheduler.Selectable ∧ scheduler.Registered

instance (scheduler : IOScheduler) : Decidable scheduler.Stranded :=
  inferInstanceAs (Decidable (_ ∧ _ ∧ _))

/-- The next `selectNow` finds no ready channel and consumes a wakeup while a registration waits. -/
def Wastes (scheduler : IOScheduler) : Prop :=
  (∃ counter, scheduler.runner = .polling counter ∧ 1 < counter) ∧
    scheduler.ready = 0 ∧ scheduler.wakeup = true ∧ scheduler.interrupted = false ∧
      scheduler.Registered

instance (scheduler : IOScheduler) : Decidable scheduler.Wastes :=
  have : Decidable (∃ counter, scheduler.runner = .polling counter ∧ 1 < counter) :=
    match polling : scheduler.runner with
    | .polling counter => decidable_of_iff (1 < counter) (by simp)
    | .unstarted | .testing | .selecting | .processing | .draining | .finished =>
        isFalse (by simp)
  inferInstanceAs (Decidable (_ ∧ _ ∧ _ ∧ _ ∧ _))

/-- The step does not waste a wakeup. -/
def Thrifty (scheduler : IOScheduler) (event : SchedulerEvent) (_ : IOScheduler) : Prop :=
  event = .poll → ¬ scheduler.Wastes

instance (scheduler : IOScheduler) (event : SchedulerEvent) (next : IOScheduler) :
    Decidable (scheduler.Thrifty event next) :=
  inferInstanceAs (Decidable (_ → _))

end IOScheduler

open IOScheduler

/-- The runs of a scheduler. -/
def schedulerSystem : EventSystem IOScheduler SchedulerEvent where
  step := IOScheduler.next

/-! ## What a run without waste keeps -/

namespace IOScheduler

variable {scheduler : IOScheduler}

/-- From the end of a drain to the next selection, a waiting registration has a wakeup pending. -/
def Announced (scheduler : IOScheduler) : Prop :=
  match scheduler.runner with
  | .unstarted | .testing | .polling _ | .selecting =>
      scheduler.Registered → scheduler.wakeup = true ∨ scheduler.interrupted = true
  | .processing | .draining | .finished => True

theorem created_announced : created.Announced := by
  simp [Announced, created, Registered]

theorem Announced.not_stranded (announced : scheduler.Announced) : ¬ scheduler.Stranded := by
  rintro ⟨selecting, blocked, registered⟩
  simp only [Announced, selecting] at announced
  exact blocked (Or.inr (announced registered))

theorem registered_offer {scheduler next : IOScheduler} (step : scheduler.next .offer = some next)
    (registered : next.Registered) : scheduler.Registered := by
  obtain rfl := Option.some.inj step
  obtain ⟨registration, queued, returned⟩ := registered
  simp only [List.mem_cons, not_or] at returned
  simp only [List.mem_append, List.mem_singleton] at queued
  exact ⟨registration, queued.resolve_right returned.1, returned.2⟩

/-- The loop around `selectNow` takes one of three ways. -/
theorem poll_cases {next : IOScheduler} (step : scheduler.next .poll = some next) :
    ∃ counter, scheduler.runner = .polling counter ∧
      (1 < counter ∧ scheduler.ready = 0 ∧
          next = { scheduler with wakeup := false, runner := .polling (counter - 1) } ∨
        1 < counter ∧ scheduler.ready ≠ 0 ∧
          next = { scheduler with wakeup := false, runner := .processing } ∨
        counter ≤ 1 ∧ next = { scheduler with runner := .selecting }) := by
  simp only [IOScheduler.next] at step
  split at step
  · rename_i counter polling
    refine ⟨counter, polling, ?_⟩
    split at step
    · rename_i more
      by_cases quiet : scheduler.selectNow.1 = 0
      · rw [if_pos quiet] at step
        exact Or.inl ⟨by omega, quiet, (Option.some.inj step).symm⟩
      · rw [if_neg quiet] at step
        exact Or.inr (Or.inl ⟨by omega, quiet, (Option.some.inj step).symm⟩)
    · exact Or.inr (Or.inr ⟨by omega, (Option.some.inj step).symm⟩)
  · simp at step

/-- What each event can do, with its guard. -/
inductive Takes (scheduler : IOScheduler) : SchedulerEvent → IOScheduler → Prop
  | startFlag : scheduler.starting = .idle →
      Takes scheduler .startFlag { scheduler with isRunning := true, starting := .flagged }
  | startRunner : scheduler.starting = .flagged → scheduler.runner = .unstarted →
      Takes scheduler .startRunner { scheduler with runner := .testing, starting := .returned }
  | stopFlag : scheduler.stopping = .idle →
      Takes scheduler .stopFlag { scheduler with isRunning := false, stopping := .flagged }
  | stopJoin : scheduler.stopping = .flagged →
      scheduler.runner = .unstarted ∨ scheduler.runner = .finished →
      Takes scheduler .stopJoin { scheduler with stopping := .returned }
  | offer :
      Takes scheduler .offer
        { scheduler with
          requests := scheduler.requests ++ [scheduler.registrations]
          registrations := scheduler.registrations + 1
          offering := scheduler.registrations :: scheduler.offering }
  | wake {registration : Nat} : registration ∈ scheduler.offering →
      Takes scheduler (.wake registration)
        { scheduler with wakeup := true, offering := scheduler.offering.erase registration }
  | interrupt : Takes scheduler .interrupt { scheduler with interrupted := true }
  | channels {ready : Nat} : Takes scheduler (.channels ready) { scheduler with ready }
  | entered : scheduler.runner = .testing → scheduler.isRunning = true →
      scheduler.interrupted = false →
      Takes scheduler .test { scheduler with runner := .polling POLLS }
  | left : scheduler.runner = .testing →
      ¬ (scheduler.isRunning = true ∧ scheduler.interrupted = false) →
      Takes scheduler .test { scheduler with runner := .finished }
  | unready {counter : Nat} : scheduler.runner = .polling counter → 1 < counter →
      scheduler.ready = 0 →
      Takes scheduler .poll
        { scheduler with wakeup := false, runner := .polling (counter - 1) }
  | available {counter : Nat} : scheduler.runner = .polling counter → 1 < counter →
      scheduler.ready ≠ 0 →
      Takes scheduler .poll { scheduler with wakeup := false, runner := .processing }
  | usedUp {counter : Nat} : scheduler.runner = .polling counter → counter ≤ 1 →
      Takes scheduler .poll { scheduler with runner := .selecting }
  | pollThrows {counter : Nat} {consumed : Bool} : scheduler.runner = .polling counter →
      1 < counter → Takes scheduler (.pollThrows consumed) (scheduler.selectionThrows consumed)
  | select : scheduler.runner = .selecting → scheduler.Selectable →
      Takes scheduler .select { scheduler with wakeup := false, runner := .processing }
  | selectThrows {consumed : Bool} : scheduler.runner = .selecting →
      Takes scheduler (.selectThrows consumed) (scheduler.selectionThrows consumed)
  | processed : scheduler.runner = .processing →
      Takes scheduler .processed { scheduler with runner := .draining }
  | drained : scheduler.runner = .draining → scheduler.requests = [] →
      Takes scheduler .drain { scheduler with runner := .testing }
  | taken {request : Nat} {requests : List Nat} : scheduler.runner = .draining →
      scheduler.requests = request :: requests →
      Takes scheduler .drain { scheduler with requests }
  | escape : scheduler.runner = .processing ∨ scheduler.runner = .draining →
      Takes scheduler .escape { scheduler with runner := .finished }

theorem takes_of_guarded {event : SchedulerEvent} {next after : IOScheduler} {guard : Prop}
    [Decidable guard] (step : (if guard then some after else none) = some next)
    (taken : guard → scheduler.Takes event after) : scheduler.Takes event next := by
  rw [Option.ite_none_right_eq_some, Option.some.injEq] at step
  obtain ⟨holds, rfl⟩ := step
  exact taken holds

theorem takes_of_next {event : SchedulerEvent} {next : IOScheduler}
    (step : scheduler.next event = some next) : scheduler.Takes event next := by
  cases event with
  | startFlag => exact takes_of_guarded step .startFlag
  | startRunner => exact takes_of_guarded step fun guard => .startRunner guard.1 guard.2
  | stopFlag => exact takes_of_guarded step .stopFlag
  | stopJoin => exact takes_of_guarded step fun guard => .stopJoin guard.1 guard.2
  | offer =>
      obtain rfl := Option.some.inj step
      exact .offer
  | wake registration => exact takes_of_guarded step .wake
  | interrupt =>
      obtain rfl := Option.some.inj step
      exact .interrupt
  | channels ready =>
      obtain rfl := Option.some.inj step
      exact .channels
  | test =>
      simp only [IOScheduler.next, Option.ite_none_right_eq_some] at step
      obtain ⟨testing, step⟩ := step
      split at step
      · rename_i goes_on
        obtain rfl := Option.some.inj step
        exact .entered testing goes_on.1 (by simpa using goes_on.2)
      · rename_i stays
        obtain rfl := Option.some.inj step
        exact .left testing (by simpa using stays)
  | poll =>
      obtain ⟨counter, polling, ⟨more, quiet, rfl⟩ | ⟨more, busy, rfl⟩ | ⟨last, rfl⟩⟩ :=
        poll_cases step
      · exact .unready polling more quiet
      · exact .available polling more busy
      · exact .usedUp polling last
  | pollThrows consumed =>
      simp only [IOScheduler.next] at step
      split at step
      · rename_i counter polling
        exact takes_of_guarded step fun more => .pollThrows polling (by omega)
      · simp at step
  | select => exact takes_of_guarded step fun guard => .select guard.1 guard.2
  | selectThrows consumed => exact takes_of_guarded step .selectThrows
  | processed => exact takes_of_guarded step .processed
  | drain =>
      simp only [IOScheduler.next, Option.ite_none_right_eq_some] at step
      obtain ⟨draining, step⟩ := step
      split at step
      · rename_i empty
        obtain rfl := Option.some.inj step
        exact .drained draining empty
      · rename_i queued
        obtain rfl := Option.some.inj step
        exact .taken draining queued
  | escape => exact takes_of_guarded step .escape

theorem announced_of_noticed (noticed : scheduler.wakeup = true ∨ scheduler.interrupted = true) :
    scheduler.Announced := by
  rw [Announced]
  split
  · exact fun _ => noticed
  · exact fun _ => noticed
  · exact fun _ => noticed
  · exact fun _ => noticed
  · trivial
  · trivial
  · trivial

/-- A step that neither moves the thread nor takes a notice away keeps what is announced, if it
completes no registration. -/
theorem Announced.kept {next : IOScheduler} (announced : scheduler.Announced)
    (runner : next.runner = scheduler.runner) (wakeup : next.wakeup = scheduler.wakeup)
    (interrupted : next.interrupted = scheduler.interrupted)
    (registered : next.Registered → scheduler.Registered) : next.Announced := by
  revert announced
  simp only [Announced, runner, wakeup, interrupted]
  split
  · exact fun announced waits => announced (registered waits)
  · exact fun announced waits => announced (registered waits)
  · exact fun announced waits => announced (registered waits)
  · exact fun announced waits => announced (registered waits)
  · exact id
  · exact id
  · exact id

theorem Announced.next {next : IOScheduler} {event : SchedulerEvent}
    (announced : scheduler.Announced) (step : scheduler.next event = some next)
    (thrifty : scheduler.Thrifty event next) : next.Announced := by
  cases takes_of_next step with
  | startFlag => exact announced.kept rfl rfl rfl id
  | startRunner _ unstarted =>
      simp only [Announced, unstarted] at announced
      exact announced
  | stopFlag => exact announced.kept rfl rfl rfl id
  | stopJoin => exact announced.kept rfl rfl rfl id
  | offer => exact announced.kept rfl rfl rfl (registered_offer step)
  | wake => exact announced_of_noticed (Or.inl rfl)
  | interrupt => exact announced_of_noticed (Or.inr rfl)
  | channels => exact announced.kept rfl rfl rfl id
  | entered testing =>
      simp only [Announced, testing] at announced
      exact announced
  | left => trivial
  | @unready counter polling more quiet =>
      simp only [Announced, polling] at announced
      -- the token is lost here: only the absence of waste keeps the promise
      intro registered
      have waits : scheduler.Registered := registered
      rcases announced waits with token | interrupted
      · by_contra lost
        have running : scheduler.interrupted = false := by simpa using lost
        exact thrifty rfl ⟨⟨counter, polling, more⟩, quiet, token, running, waits⟩
      · exact Or.inr interrupted
  | available => trivial
  | usedUp polling =>
      simp only [Announced, polling] at announced
      exact announced
  | pollThrows => trivial
  | select => trivial
  | selectThrows => trivial
  | processed => trivial
  | drained _ empty =>
      rintro ⟨registration, queued, -⟩
      simp [empty] at queued
  | taken draining => simp [Announced, draining]
  | escape => trivial

/-! ## What a wasted wakeup leads to -/

/-- With nothing ready and no wakeup the polling ends in `select`. -/
theorem run_polls {count : Nat} (polling : scheduler.runner = .polling (count + 1))
    (quiet : scheduler.ready = 0) (silent : scheduler.wakeup = false) :
    schedulerSystem.run scheduler (List.replicate (count + 1) .poll) =
      some { scheduler with runner := .selecting } := by
  induction count generalizing scheduler with
  | zero => simp [schedulerSystem, IOScheduler.next, polling]
  | succ count ih =>
      have polled :
          scheduler.next .poll = some { scheduler with runner := .polling (count + 1) } := by
        simp [IOScheduler.next, polling, selectNow, quiet, silent]
      rw [List.replicate_succ, run_cons]
      simp only [schedulerSystem, polled, Option.bind_some]
      exact ih rfl quiet silent

theorem Wastes.strands {next : IOScheduler} (wastes : scheduler.Wastes)
    (step : scheduler.next .poll = some next) :
    ∃ later final, schedulerSystem.run next later = some final ∧ final.Stranded := by
  obtain ⟨⟨counter, polling, more⟩, quiet, -, running, registered⟩ := wastes
  obtain ⟨counter', polling', cases⟩ := poll_cases step
  obtain rfl : counter = counter' := by simpa [polling] using polling'
  obtain ⟨count, rfl⟩ : ∃ count, counter = count + 2 := ⟨counter - 2, by omega⟩
  obtain ⟨-, -, rfl⟩ | ⟨-, busy, -⟩ | ⟨last, -⟩ := cases
  · refine ⟨_, _, run_polls rfl quiet rfl, rfl, ?_, registered⟩
    simp [Selectable, quiet, running]
  · exact (busy quiet).elim
  · omega

end IOScheduler

/-- A run that never wastes a wakeup strands no registration, and if the next poll wastes one, some
run goes on from there to strand one. -/
theorem registration_served_or_strands_later (events : List SchedulerEvent)
    (scheduler : IOScheduler)
    (execution : schedulerSystem.run created events = some scheduler) :
    (schedulerSystem.Along Thrifty created events → ¬ scheduler.Stranded) ∧
    ∀ next, schedulerSystem.step scheduler .poll = some next → ¬ scheduler.Thrifty .poll next →
      ∃ later final, schedulerSystem.run next later = some final ∧ final.Stranded := by
  constructor
  · intro thrifty
    have announced : scheduler.Announced :=
      thrifty.invariant (fun _ _ _ announced step thrifty => announced.next step thrifty)
        created_announced execution
    exact announced.not_stranded
  · intro next step wasted
    have wastes : scheduler.Wastes := by simpa [Thrifty] using wasted
    exact wastes.strands step

/-- A running scheduler whose thread is in `select` and whose queue holds its first registration. -/
def selectingFirst (wakeup : Bool) : IOScheduler :=
  { created with
    isRunning := true
    runner := .selecting
    wakeup
    requests := [0]
    registrations := 1
    starting := .returned }

theorem registration_served_or_strands_later_selecting : ¬ (selectingFirst true).Stranded :=
  (registration_served_or_strands_later
    ([.startFlag, .startRunner, .test] ++ List.replicate POLLS .poll ++ [.offer, .wake 0])
    (selectingFirst true) (by decide)).1 (by decide)

/-- One registration while the worker polls: `selectNow` consumes its wakeup. -/
theorem registration_stranded : ∃ scheduler, schedulerSystem.Reachable created scheduler ∧
    scheduler.Stranded :=
  ⟨selectingFirst false,
    ⟨[.startFlag, .startRunner, .test, .offer, .wake 0] ++ List.replicate POLLS .poll, by decide⟩,
    by decide⟩

end Mrps.Java
