import Mrps.Java.IOScheduler

/-!
# Stopping a scheduler

`stop` stores `false` into `isRunning` and joins the thread.  It does not wake the selector, so the
store is heeded only where the thread comes back to the test of its loop without waiting, or where
something else lets it through `select`.
-/

namespace Mrps.Java

open EventSystem

namespace IOScheduler

/-- `stop` waits in `join` for a thread that waits in `select` for nothing. -/
def Stuck (scheduler : IOScheduler) : Prop :=
  scheduler.stopping = .flagged ∧ scheduler.isRunning = false ∧ scheduler.runner = .selecting ∧
    ¬ scheduler.Selectable

instance (scheduler : IOScheduler) : Decidable scheduler.Stuck :=
  inferInstanceAs (Decidable (_ ∧ _ ∧ _ ∧ _))

/-- From here the thread tests `isRunning` before it can wait: it is not on its way into `select`,
or it is interrupted, or a pending wakeup will end the `select` it is about to make. -/
def Heeds (scheduler : IOScheduler) : Prop :=
  match scheduler.runner with
  | .unstarted | .testing | .processing | .draining | .finished => True
  | .polling counter => scheduler.interrupted = true ∨ counter ≤ 1 ∧ scheduler.wakeup = true
  | .selecting => scheduler.interrupted = true ∨ scheduler.wakeup = true

/-- `stop` stores its flag only where the thread heeds it. -/
def StopHeeded (scheduler : IOScheduler) (event : SchedulerEvent) (_ : IOScheduler) : Prop :=
  event = .stopFlag → scheduler.Heeds

instance (scheduler : IOScheduler) : Decidable scheduler.Heeds := by
  unfold Heeds
  split <;> infer_instance

instance (scheduler : IOScheduler) (event : SchedulerEvent) (next : IOScheduler) :
    Decidable (scheduler.StopHeeded event next) :=
  inferInstanceAs (Decidable (_ → _))

variable {scheduler next : IOScheduler} {event : SchedulerEvent}

/-! ## A heeded stop -/

/-- A stop that waits is heeded. -/
def Heeded (scheduler : IOScheduler) : Prop :=
  scheduler.stopping = .flagged → scheduler.isRunning = false → scheduler.Heeds

theorem Heeds.selectable (heeds : scheduler.Heeds) (selecting : scheduler.runner = .selecting) :
    scheduler.Selectable := by
  simp only [Heeds, selecting] at heeds
  exact Or.inr heeds.symm

theorem Heeded.not_stuck (heeded : scheduler.Heeded) : ¬ scheduler.Stuck := by
  rintro ⟨waiting, stopped, selecting, blocked⟩
  exact blocked ((heeded waiting stopped).selectable selecting)

theorem created_heeded : created.Heeded := fun _ _ => trivial

/-- A state that differs in nothing `Heeds` looks at, or only by a wakeup or an interrupt more. -/
theorem Heeds.mono (heeds : scheduler.Heeds) (runner : next.runner = scheduler.runner)
    (wakeup : scheduler.wakeup = true → next.wakeup = true)
    (interrupted : scheduler.interrupted = true → next.interrupted = true) : next.Heeds := by
  simp only [Heeds, runner] at heeds ⊢
  split
  · trivial
  · trivial
  · trivial
  · trivial
  · trivial
  · rename_i counter polling
    simp only [polling] at heeds
    exact heeds.imp interrupted (And.imp_right wakeup)
  · rename_i selecting
    simp only [selecting] at heeds
    exact heeds.imp interrupted wakeup

theorem Heeded.step (heeded : scheduler.Heeded) (step : scheduler.next event = some next)
    (stop_heeded : scheduler.StopHeeded event next) : next.Heeded := by
  intro waiting stopped
  cases takes_of_next step with
  | startFlag => cases stopped
  | startRunner => trivial
  | stopFlag => exact (stop_heeded rfl).mono rfl id id
  | stopJoin => cases waiting
  | offer => exact (heeded waiting stopped).mono rfl id id
  | wake => exact (heeded waiting stopped).mono rfl (fun _ => rfl) id
  | interrupt => exact (heeded waiting stopped).mono rfl id fun _ => rfl
  | channels => exact (heeded waiting stopped).mono rfl id id
  | entered _ running => exact absurd (running.symm.trans stopped) (by simp)
  | left => trivial
  | unready polling more =>
      have heeds := heeded waiting stopped
      simp only [Heeds, polling] at heeds
      -- a poll that finds nothing eats the wakeup, so only an interrupt is left to rely on
      exact Or.inl (heeds.resolve_right fun last => absurd last.1 (by omega))
  | available => trivial
  | usedUp polling =>
      have heeds := heeded waiting stopped
      simp only [Heeds, polling] at heeds
      exact heeds.imp_right And.right
  | pollThrows => trivial
  | select => trivial
  | selectThrows => trivial
  | processed => trivial
  | drained => trivial
  | taken draining => simp [Heeds, draining]
  | escape => trivial

/-! ## A stop that comes too late -/

/-- Without a ready channel a thread that polls without relying on a wakeup blocks in `select`. -/
theorem run_blocks {counter : Nat} (polling : scheduler.runner = .polling counter)
    (unannounced : 1 < counter ∨ scheduler.wakeup = false) (quiet : scheduler.ready = 0) :
    ∃ later, schedulerSystem.run scheduler later =
      some { scheduler with runner := .selecting, wakeup := false } := by
  by_cases last : counter ≤ 1
  · have silent := unannounced.resolve_left (by omega)
    have used_up : scheduler.next .poll = some { scheduler with runner := .selecting } := by
      have none_left : counter - 1 = 0 := by omega
      simp [IOScheduler.next, polling, none_left]
    refine ⟨[.poll], ?_⟩
    rw [run_cons, schedulerSystem]
    simp only [used_up, Option.bind_some, run_nil, ← silent]
  · obtain ⟨count, rfl⟩ : ∃ count, counter = count + 2 := ⟨counter - 2, by omega⟩
    have polled : scheduler.next .poll =
        some { scheduler with wakeup := false, runner := .polling (count + 1) } := by
      simp [IOScheduler.next, polling, selectNow, quiet]
    have rest := @run_polls { scheduler with wakeup := false, runner := .polling (count + 1) }
      count rfl quiet rfl
    refine ⟨.poll :: List.replicate (count + 1) .poll, ?_⟩
    rw [run_cons]
    simp only [schedulerSystem, polled, Option.bind_some]
    exact rest

/-- A thread that does not heed the flag is in `select` or on its way, with nothing to rely on. -/
theorem ignores_cases (ignores : ¬ scheduler.Heeds) : scheduler.interrupted = false ∧
    (scheduler.runner = .selecting ∧ scheduler.wakeup = false ∨
      ∃ counter, scheduler.runner = .polling counter ∧
        (1 < counter ∨ scheduler.wakeup = false)) := by
  cases position : scheduler.runner with
  | unstarted => simp [Heeds, position] at ignores
  | testing => simp [Heeds, position] at ignores
  | processing => simp [Heeds, position] at ignores
  | draining => simp [Heeds, position] at ignores
  | finished => simp [Heeds, position] at ignores
  | selecting =>
      simp only [Heeds, position, not_or, Bool.not_eq_true] at ignores
      exact ⟨ignores.1, Or.inl ⟨rfl, ignores.2⟩⟩
  | polling counter =>
      simp only [Heeds, position, not_or, not_and, Bool.not_eq_true] at ignores
      refine ⟨ignores.1, Or.inr ⟨counter, rfl, ?_⟩⟩
      by_cases last : counter ≤ 1
      · exact Or.inr (ignores.2 last)
      · exact Or.inl (by omega)

theorem stop_sticks (step : scheduler.next .stopFlag = some next) (ignores : ¬ scheduler.Heeds) :
    ∃ later final, schedulerSystem.run next later = some final ∧ final.Stuck := by
  cases takes_of_next step with
  | stopFlag =>
      obtain ⟨running, ⟨selecting, silent⟩ | ⟨counter, polling, unannounced⟩⟩ :=
        ignores_cases ignores
      · refine ⟨[.channels 0], _, rfl, rfl, rfl, selecting, ?_⟩
        simp [Selectable, running, silent]
      · let quiet : IOScheduler :=
          { scheduler with isRunning := false, stopping := .flagged, ready := 0 }
        obtain ⟨later, execution⟩ := @run_blocks quiet counter polling unannounced rfl
        refine ⟨.channels 0 :: later, _, execution, rfl, rfl, rfl, ?_⟩
        simp [Selectable, quiet, running]

/-- While `stop` is stuck neither it nor the thread can take a step, unless `select` fails. -/
theorem Stuck.blocked (stuck : scheduler.Stuck) (step : scheduler.next event = some next) :
    (∃ consumed, event = .selectThrows consumed) ∨ next.runner = .selecting ∧
      next.stopping = .flagged := by
  obtain ⟨waiting, -, selecting, blocked⟩ := stuck
  cases takes_of_next step with
  | startFlag => exact Or.inr ⟨selecting, waiting⟩
  | startRunner _ unstarted => simp [selecting] at unstarted
  | stopFlag idle => simp [waiting] at idle
  | stopJoin _ ended => simp [selecting] at ended
  | offer => exact Or.inr ⟨selecting, waiting⟩
  | wake => exact Or.inr ⟨selecting, waiting⟩
  | interrupt => exact Or.inr ⟨selecting, waiting⟩
  | channels => exact Or.inr ⟨selecting, waiting⟩
  | entered testing => simp [selecting] at testing
  | left testing => simp [selecting] at testing
  | unready polling => simp [selecting] at polling
  | available polling => simp [selecting] at polling
  | usedUp polling => simp [selecting] at polling
  | pollThrows polling => simp [selecting] at polling
  | select _ selectable => exact absurd selectable blocked
  | selectThrows => exact Or.inl ⟨_, rfl⟩
  | processed processing => simp [selecting] at processing
  | drained draining => simp [selecting] at draining
  | taken draining => simp [selecting] at draining
  | escape processing => simp [selecting] at processing

end IOScheduler

open IOScheduler

/-- A run whose `stop` is heeded never leaves `stop` waiting for a thread that waits in `select`,
and if the thread does not heed the next `stop`, some run goes on from there to leave it waiting. -/
theorem stop_not_stuck_or_sticks_later (events : List SchedulerEvent) (scheduler : IOScheduler)
    (execution : schedulerSystem.run created events = some scheduler) :
    (schedulerSystem.Along StopHeeded created events → ¬ scheduler.Stuck) ∧
    ∀ next, schedulerSystem.step scheduler .stopFlag = some next →
      ¬ scheduler.StopHeeded .stopFlag next →
      ∃ later final, schedulerSystem.run next later = some final ∧ final.Stuck := by
  constructor
  · intro heeded
    have final_heeded : scheduler.Heeded :=
      heeded.invariant (fun _ _ _ heeded step stop_heeded => heeded.step step stop_heeded)
        created_heeded execution
    exact final_heeded.not_stuck
  · intro next step ignored
    have ignores : ¬ scheduler.Heeds := by simpa [StopHeeded] using ignored
    exact stop_sticks step ignores

/-- A scheduler that is stopped before its thread tests the flag for the first time. -/
def stoppedEarly : IOScheduler :=
  { created with runner := .finished, starting := .returned, stopping := .flagged }

theorem stop_not_stuck_or_sticks_later_early : ¬ stoppedEarly.Stuck :=
  (stop_not_stuck_or_sticks_later [.startFlag, .startRunner, .stopFlag, .test] stoppedEarly
    (by decide)).1 (by decide)

/-- A scheduler whose thread has nothing to do when it is stopped. -/
def stoppedIdle : IOScheduler :=
  { created with runner := .selecting, starting := .returned, stopping := .flagged }

/-- The thread has used up its polls and waits in `select` when `stop` stores the flag. -/
theorem stop_stuck : ∃ scheduler, schedulerSystem.Reachable created scheduler ∧ scheduler.Stuck :=
  ⟨stoppedIdle,
    ⟨[.startFlag, .startRunner, .test] ++ List.replicate POLLS .poll ++ [.stopFlag], by decide⟩,
    by decide⟩

end Mrps.Java
