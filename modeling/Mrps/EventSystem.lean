import Mathlib.Tactic

/-!
# Event systems

An event system is a partial step function whose events carry every choice of the environment.  A
run is a list of events, so reachable states, invariants and conditions on single steps are all
statements about lists, and a concrete run evaluates.
-/

/-- A labelled transition system with deterministic events. -/
structure EventSystem (σ ε : Type*) where
  /-- Successor of a state under an event; `none` when the event is not enabled there. -/
  step : σ → ε → Option σ

namespace EventSystem

section Runs

variable {σ ε : Type*} (system : EventSystem σ ε)

/-- Execute events in order, failing at the first one that is not enabled. -/
def run : σ → List ε → Option σ
  | state, [] => some state
  | state, event :: events => (system.step state event).bind fun next => run next events

@[simp] theorem run_nil (state : σ) : system.run state [] = some state := rfl

@[simp] theorem run_cons (state : σ) (event : ε) (events : List ε) :
    system.run state (event :: events) =
      (system.step state event).bind fun next => system.run next events := rfl

theorem run_append (state : σ) (front back : List ε) :
    system.run state (front ++ back) =
      (system.run state front).bind fun middle => system.run middle back := by
  induction front generalizing state with
  | nil => rfl
  | cons event front ih =>
      simp only [List.cons_append, run_cons]
      cases system.step state event with
      | none => rfl
      | some next => exact ih next

theorem run_cons_eq_some {state final : σ} {event : ε} {events : List ε}
    (execution : system.run state (event :: events) = some final) :
    ∃ next, system.step state event = some next ∧ system.run next events = some final := by
  simpa [Option.bind_eq_some_iff] using execution

/-- `state` is the end of some finite run from `initial`. -/
def Reachable (initial state : σ) : Prop :=
  ∃ events, system.run initial events = some state

theorem Reachable.run {initial middle final : σ} {events : List ε}
    (reach : system.Reachable initial middle)
    (execution : system.run middle events = some final) :
    system.Reachable initial final := by
  obtain ⟨front, front_run⟩ := reach
  exact ⟨front ++ events, by rw [run_append, front_run]; exact execution⟩

end Runs

section Invariants

variable {σ ε : Type*} {system : EventSystem σ ε}

/-- Every enabled event keeps the predicate. -/
def Preserves (system : EventSystem σ ε) (invariant : σ → Prop) : Prop :=
  ∀ state event next, invariant state → system.step state event = some next → invariant next

theorem Preserves.run {invariant : σ → Prop} (preserves : system.Preserves invariant)
    {state final : σ} {events : List ε} (holds : invariant state)
    (execution : system.run state events = some final) : invariant final := by
  induction events generalizing state with
  | nil => simpa [← Option.some.inj execution] using holds
  | cons event events ih =>
      obtain ⟨next, step, rest⟩ := system.run_cons_eq_some execution
      exact ih (preserves state event next holds step) rest

/-- An inductive invariant holds of every reachable state. -/
theorem Preserves.reachable {invariant : σ → Prop} (preserves : system.Preserves invariant)
    {initial state : σ} (holds : invariant initial) (reach : system.Reachable initial state) :
    invariant state := by
  obtain ⟨events, execution⟩ := reach
  exact preserves.run holds execution

end Invariants

section Along

variable {σ ε : Type*} {system : EventSystem σ ε}

/-- Every executed step of the run, given by its state, event and successor, has the property. -/
def Along (system : EventSystem σ ε) (property : σ → ε → σ → Prop) : σ → List ε → Prop
  | _, [] => True
  | state, event :: events =>
      ∀ next, system.step state event = some next →
        property state event next ∧ system.Along property next events

instance Along.decidable {property : σ → ε → σ → Prop}
    [∀ state event next, Decidable (property state event next)] :
    ∀ state events, Decidable (system.Along property state events)
  | _, [] => isTrue trivial
  | state, event :: events =>
      match taken : system.step state event with
      | none => isTrue fun next step => by simp [taken] at step
      | some after =>
          have : Decidable (system.Along property after events) := Along.decidable after events
          decidable_of_iff (property state event after ∧ system.Along property after events)
            ⟨fun both next step => by
              obtain rfl : after = next := by simpa [taken] using step
              exact both, fun along => along after taken⟩

/-- `Along` speaks of exactly the steps that split the run into a front and a back. -/
theorem along_iff {property : σ → ε → σ → Prop} {initial : σ} {events : List ε} :
    system.Along property initial events ↔
      ∀ front event back state next, events = front ++ event :: back →
        system.run initial front = some state → system.step state event = some next →
          property state event next := by
  induction events generalizing initial with
  | nil => simp [Along]
  | cons event events ih =>
      constructor
      · intro along front chosen back state next split front_run step
        cases front with
        | nil =>
            obtain ⟨rfl, rfl⟩ : event = chosen ∧ events = back := by simpa using split
            obtain rfl : initial = state := by simpa using front_run
            exact (along next step).1
        | cons first front =>
            obtain ⟨rfl, rest⟩ : event = first ∧ events = front ++ chosen :: back := by
              simpa using split
            obtain ⟨middle, first_step, middle_run⟩ := system.run_cons_eq_some front_run
            exact ih.mp (along middle first_step).2 front chosen back state next rest
              middle_run step
      · intro steps next step
        refine ⟨steps [] event events initial next rfl rfl step, ih.mpr ?_⟩
        intro front chosen back state after split front_run later
        apply steps (event :: front) chosen back state after (by simp [split]) _ later
        simpa [step] using front_run

theorem along_concat {property : σ → ε → σ → Prop} {initial state next : σ} {front : List ε}
    {event : ε} (execution : system.run initial front = some state)
    (step : system.step state event = some next) :
    system.Along property initial (front ++ [event]) ↔
      system.Along property initial front ∧ property state event next := by
  induction front generalizing initial with
  | nil =>
      obtain rfl : initial = state := by simpa using execution
      simp [Along, step]
  | cons first front ih =>
      obtain ⟨middle, first_step, rest⟩ := system.run_cons_eq_some execution
      simp only [List.cons_append, Along, first_step, Option.some.injEq, forall_eq', ih rest,
        and_assoc]

theorem Along.front {property : σ → ε → σ → Prop} {initial : σ} {front back : List ε}
    (along : system.Along property initial (front ++ back)) :
    system.Along property initial front := by
  rw [along_iff] at along ⊢
  intro earlier event later state next split
  exact along earlier event (later ++ back) state next (by simp [split])

theorem along_append_iff {property : σ → ε → σ → Prop} {initial state : σ} {front back : List ε}
    (execution : system.run initial front = some state) :
    system.Along property initial (front ++ back) ↔
      system.Along property initial front ∧ system.Along property state back := by
  induction front generalizing initial with
  | nil =>
      obtain rfl : initial = state := by simpa using execution
      simp [Along]
  | cons event front ih =>
      obtain ⟨next, step, rest⟩ := system.run_cons_eq_some execution
      simp only [List.cons_append, Along, step, Option.some.injEq, forall_eq', ih rest, and_assoc]

theorem along_cons_iff {property : σ → ε → σ → Prop} {state next : σ} {event : ε}
    {events : List ε} (step : system.step state event = some next) :
    system.Along property state (event :: events) ↔
      property state event next ∧ system.Along property next events := by
  simp [Along, step]

/-- What every step from a state of the invariant has, every step of a run has. -/
theorem Preserves.along {invariant : σ → Prop} (preserves : system.Preserves invariant)
    {property : σ → ε → σ → Prop}
    (each : ∀ state event next, invariant state → system.step state event = some next →
      property state event next)
    {initial : σ} {events : List ε} (holds : invariant initial) :
    system.Along property initial events := by
  induction events generalizing initial with
  | nil => trivial
  | cons event events ih =>
      intro next step
      exact ⟨each initial event next holds step, ih (preserves initial event next holds step)⟩

theorem along_of_events {allowed : ε → Prop} {initial : σ} {events : List ε}
    (all : ∀ event ∈ events, allowed event) :
    system.Along (fun _ event _ => allowed event) initial events := by
  induction events generalizing initial with
  | nil => trivial
  | cons event events ih =>
      intro next step
      exact ⟨all event List.mem_cons_self,
        ih fun other member => all other (List.mem_cons_of_mem event member)⟩

theorem Along.and {left right : σ → ε → σ → Prop} {initial : σ} {events : List ε}
    (along_left : system.Along left initial events)
    (along_right : system.Along right initial events) :
    system.Along (fun state event next => left state event next ∧ right state event next) initial
      events := by
  induction events generalizing initial with
  | nil => trivial
  | cons event events ih =>
      intro next step
      obtain ⟨here_left, later_left⟩ := along_left next step
      obtain ⟨here_right, later_right⟩ := along_right next step
      exact ⟨⟨here_left, here_right⟩, ih later_left later_right⟩

/-- Under an inductive invariant, properties that agree on its steps agree along its runs. -/
theorem along_congr {invariant : σ → Prop} (preserves : system.Preserves invariant)
    {left right : σ → ε → σ → Prop} {initial : σ} {events : List ε}
    (agree : ∀ state event next, event ∈ events → invariant state →
      system.step state event = some next → (left state event next ↔ right state event next))
    (holds : invariant initial) :
    system.Along left initial events ↔ system.Along right initial events := by
  rw [along_iff, along_iff]
  refine forall_congr' fun front => forall_congr' fun event => forall_congr' fun back =>
    forall_congr' fun state => forall_congr' fun next => forall_congr' fun split =>
    forall_congr' fun front_run => forall_congr' fun step => ?_
  exact agree state event next (by simp [split]) (preserves.run holds front_run) step

/-- An invariant that only the steps with some property keep holds at the end of every run all of
whose steps have that property. -/
theorem Along.invariant {property : σ → ε → σ → Prop} {invariant : σ → Prop}
    (preserves : ∀ state event next, invariant state → system.step state event = some next →
      property state event next → invariant next)
    {initial final : σ} {events : List ε} (along : system.Along property initial events)
    (holds : invariant initial) (execution : system.run initial events = some final) :
    invariant final := by
  induction events generalizing initial with
  | nil => simpa [← Option.some.inj execution] using holds
  | cons event events ih =>
      obtain ⟨next, step, rest⟩ := system.run_cons_eq_some execution
      obtain ⟨here, later⟩ := along next step
      exact ih later (preserves initial event next holds step here) rest

/-- A condition on the steps of a run yields a property of its steps, when steps under the condition
carry an invariant along and the property comes with them. -/
theorem Along.yields {condition property : σ → ε → σ → Prop} {invariant : σ → Prop}
    (steps : ∀ state event next, invariant state → system.step state event = some next →
      condition state event next → property state event next ∧ invariant next)
    {initial : σ} {events : List ε} (along : system.Along condition initial events)
    (holds : invariant initial) : system.Along property initial events := by
  induction events generalizing initial with
  | nil => trivial
  | cons event events ih =>
      intro next step
      obtain ⟨here, later⟩ := along next step
      obtain ⟨shown, kept⟩ := steps initial event next holds step here
      exact ⟨shown, ih later kept⟩

/-- Two properties that agree on every given step from a good state, and keep the state good where
they hold, agree along every run of given steps from a good state. -/
theorem Along.exact {good : σ → Prop} {given left right : σ → ε → σ → Prop}
    (agree : ∀ state event next, good state → system.step state event = some next →
      given state event next → (left state event next ↔ right state event next))
    (kept : ∀ state event next, good state → system.step state event = some next →
      given state event next → right state event next → good next)
    {initial : σ} {events : List ε} (along : system.Along given initial events)
    (holds : good initial) :
    system.Along left initial events ↔ system.Along right initial events := by
  induction events generalizing initial with
  | nil => exact iff_of_true trivial trivial
  | cons event events ih =>
      constructor
      · intro along_left next step
        obtain ⟨given_here, given_later⟩ := along next step
        obtain ⟨here, later⟩ := along_left next step
        have shown := (agree initial event next holds step given_here).mp here
        have good_next := kept initial event next holds step given_here shown
        exact ⟨shown, (ih given_later good_next).mp later⟩
      · intro along_right next step
        obtain ⟨given_here, given_later⟩ := along next step
        obtain ⟨here, later⟩ := along_right next step
        have good_next := kept initial event next holds step given_here here
        exact ⟨(agree initial event next holds step given_here).mpr here,
          (ih given_later good_next).mpr later⟩

/-- Two properties that agree on every step from a good state, and keep the state good where they
hold, agree along every run from a good state. -/
theorem along_exact {good : σ → Prop} {left right : σ → ε → σ → Prop}
    (agree : ∀ state event next, good state → system.step state event = some next →
      (left state event next ↔ right state event next))
    (kept : ∀ state event next, good state → system.step state event = some next →
      right state event next → good next)
    {initial : σ} {events : List ε} (holds : good initial) :
    system.Along left initial events ↔ system.Along right initial events := by
  have given : system.Along (fun _ _ _ => True) initial events :=
    along_of_events fun _ _ => trivial
  exact given.exact
    (fun state event next good_state step _ => agree state event next good_state step)
    (fun state event next good_state step _ => kept state event next good_state step) holds

/-- When a step leads to a good state if it has some property and to a dead end if not, a run ends
in a good state exactly when all its steps have the property. -/
theorem good_iff_along {good : σ → Prop} {property : σ → ε → σ → Prop}
    (exact_step : ∀ state event next, good state → system.step state event = some next →
      good next ∧ property state event next ∨
        ¬ good next ∧ ¬ property state event next ∧ ∀ later, system.step next later = none)
    {initial final : σ} {events : List ε} (holds : good initial)
    (execution : system.run initial events = some final) :
    good final ↔ system.Along property initial events := by
  induction events generalizing initial with
  | nil =>
      obtain rfl : initial = final := by simpa using execution
      exact ⟨fun _ => trivial, fun _ => holds⟩
  | cons event events ih =>
      obtain ⟨middle, step, rest⟩ := system.run_cons_eq_some execution
      rcases exact_step initial event middle holds step with
        ⟨good_middle, here⟩ | ⟨bad_middle, broken, dead⟩
      · rw [ih good_middle rest]
        constructor
        · intro later next step'
          obtain rfl : middle = next := by simpa [step] using step'
          exact ⟨here, later⟩
        · intro along
          exact (along middle step).2
      · refine iff_of_false ?_ fun along => broken (along middle step).1
        cases events with
        | nil =>
            obtain rfl : middle = final := by simpa using rest
            exact bad_middle
        | cons second events => simp [dead second] at rest

/-- When every step from a good state has the property and leads to a good state, or leads to a flaw
that stays, a run that ends without the flaw has the property along it. -/
theorem along_of_flawless {good flawed : σ → Prop} {property : σ → ε → σ → Prop}
    (stays : system.Preserves flawed)
    (dichotomy : ∀ state event next, good state → system.step state event = some next →
      property state event next ∧ good next ∨ flawed next)
    {initial final : σ} {events : List ε} (holds : good initial)
    (execution : system.run initial events = some final) (flawless : ¬ flawed final) :
    system.Along property initial events := by
  induction events generalizing initial with
  | nil => trivial
  | cons event events ih =>
      obtain ⟨middle, step, rest⟩ := system.run_cons_eq_some execution
      rcases dichotomy initial event middle holds step with ⟨here, good_middle⟩ | flaw
      · intro next step'
        obtain rfl : middle = next := by simpa [step] using step'
        exact ⟨here, ih good_middle rest⟩
      · exact absurd (stays.run flaw rest) flawless

end Along

section Histories

variable {σ ε : Type*} {system : EventSystem σ ε}

theorem run_history {invariant : List ε → σ → Prop} {initial final : σ} {events : List ε}
    (start : invariant [] initial)
    (kept : ∀ front state event next, system.run initial front = some state →
      invariant front state → system.step state event = some next →
        invariant (front ++ [event]) next)
    (execution : system.run initial events = some final) : invariant events final := by
  have onwards : ∀ back front state, system.run initial front = some state →
      invariant front state → system.run state back = some final →
        invariant (front ++ back) final := by
    intro back
    induction back with
    | nil =>
        intro front state _ holds rest
        obtain rfl : state = final := by simpa using rest
        simpa using holds
    | cons event back ih =>
        intro front state front_run holds rest
        obtain ⟨next, step, rest⟩ := system.run_cons_eq_some rest
        have longer : system.run initial (front ++ [event]) = some next := by
          rw [run_append, front_run]
          simpa using step
        have held := kept front state event next front_run holds step
        simpa using ih (front ++ [event]) next longer held rest
  exact onwards events [] initial rfl start execution

theorem Along.history {property : σ → ε → σ → Prop} {invariant : List ε → σ → Prop}
    {initial final : σ} {events : List ε} (along : system.Along property initial events)
    (start : invariant [] initial)
    (kept : ∀ front state event next, system.run initial front = some state →
      invariant front state → system.step state event = some next → property state event next →
        invariant (front ++ [event]) next)
    (execution : system.run initial events = some final) : invariant events final := by
  induction events using List.reverseRecOn generalizing final with
  | nil =>
      obtain rfl : initial = final := by simpa using execution
      exact start
  | append_singleton front event ih =>
      rw [run_append] at execution
      obtain ⟨state, front_run, last⟩ := Option.bind_eq_some_iff.mp execution
      have step : system.step state event = some final := by simpa using last
      obtain ⟨earlier, here⟩ := (along_concat front_run step).mp along
      exact kept front state event final front_run (ih earlier front_run) step here

/-- The sum of a cost over the steps of a run. -/
def tally (system : EventSystem σ ε) (cost : σ → ε → Nat) : σ → List ε → Nat
  | _, [] => 0
  | state, event :: events =>
      match system.step state event with
      | none => 0
      | some next => cost state event + system.tally cost next events

/-- A measure that each step raises by its cost is raised by a run by its tally.  The steps count
only where they lead to a good state, and bad states stay bad. -/
theorem tally_run {invariant good : σ → Prop} {measure : σ → Int} {cost : σ → ε → Nat}
    (preserves : system.Preserves invariant) (stays : system.Preserves fun state => ¬ good state)
    (raised : ∀ state event next, invariant state → system.step state event = some next →
      good next → measure next = measure state + cost state event)
    {initial final : σ} {events : List ε} (holds : invariant initial)
    (execution : system.run initial events = some final) (good_final : good final) :
    measure final = measure initial + system.tally cost initial events := by
  induction events generalizing initial with
  | nil =>
      obtain rfl : initial = final := by simpa using execution
      simp [tally]
  | cons event events ih =>
      obtain ⟨middle, step, rest⟩ := system.run_cons_eq_some execution
      have good_middle : good middle := by
        by_contra bad
        exact stays.run bad rest good_final
      rw [ih (preserves initial event middle holds step) rest,
        raised initial event middle holds step good_middle, tally, step]
      push_cast
      ring

end Histories

section Logs

variable {σ ε κ : Type*}

/-- The system with a log beside its state, to which every step adds its entries. -/
def logged (system : EventSystem σ ε) (entries : σ → ε → List κ) :
    EventSystem (σ × List κ) ε where
  step state event :=
    (system.step state.1 event).map fun next => (next, state.2 ++ entries state.1 event)

theorem logged_step_iff (system : EventSystem σ ε) {entries : σ → ε → List κ}
    {state next : σ × List κ} {event : ε} :
    (system.logged entries).step state event = some next ↔
      ∃ after, system.step state.1 event = some after ∧
        next = (after, state.2 ++ entries state.1 event) := by
  simp only [logged, Option.map_eq_some_iff, @eq_comm _ next]

theorem logged_run (system : EventSystem σ ε) (entries : σ → ε → List κ) (state : σ)
    (log : List κ) (events : List ε) :
    ((system.logged entries).run (state, log) events).map Prod.fst = system.run state events := by
  induction events generalizing state log with
  | nil => rfl
  | cons event events ih =>
      rw [run_cons, run_cons]
      simp only [logged]
      cases system.step state event with
      | none => rfl
      | some next => exact ih next _

/-- What speaks of the states alone holds along a run with the log if it does without. -/
theorem logged_along (system : EventSystem σ ε) (entries : σ → ε → List κ) (log : List κ)
    {property : σ → ε → σ → Prop} {state : σ} {events : List ε} :
    (system.logged entries).Along (fun before event after => property before.1 event after.1)
        (state, log) events ↔
      system.Along property state events := by
  induction events generalizing state log with
  | nil => exact Iff.rfl
  | cons event events ih =>
      simp only [Along, logged, Option.map_eq_some_iff]
      constructor
      · intro along next step
        obtain ⟨here, later⟩ := along _ ⟨next, step, rfl⟩
        exact ⟨here, (ih _).mp later⟩
      · rintro along _ ⟨next, step, rfl⟩
        obtain ⟨here, later⟩ := along next step
        exact ⟨here, (ih _).mpr later⟩

end Logs

section Renaming

variable {σ ε : Type*} {system : EventSystem σ ε} {rename : σ → σ} {renameEvent : ε → ε}

/-- A renaming of states and events under which the system cannot tell the difference. -/
def Renames (system : EventSystem σ ε) (rename : σ → σ) (renameEvent : ε → ε) : Prop :=
  ∀ state event,
    system.step (rename state) (renameEvent event) = (system.step state event).map rename

theorem Renames.run (renames : system.Renames rename renameEvent) (state : σ) (events : List ε) :
    system.run (rename state) (events.map renameEvent) = (system.run state events).map rename := by
  induction events generalizing state with
  | nil => rfl
  | cons event events ih =>
      rw [List.map_cons, run_cons, run_cons, renames]
      cases system.step state event with
      | none => rfl
      | some next => exact ih next

/-- What a renaming keeps of single steps it keeps along runs. -/
theorem Renames.along (renames : system.Renames rename renameEvent)
    {property : σ → ε → σ → Prop}
    (kept : ∀ state event next,
      property (rename state) (renameEvent event) (rename next) ↔ property state event next)
    (state : σ) (events : List ε) :
    system.Along property (rename state) (events.map renameEvent) ↔
      system.Along property state events := by
  induction events generalizing state with
  | nil => rfl
  | cons event events ih =>
      simp only [List.map_cons, Along, renames state event, Option.map_eq_some_iff]
      constructor
      · intro along next step
        obtain ⟨here, later⟩ := along (rename next) ⟨next, step, rfl⟩
        exact ⟨(kept state event next).mp here, (ih next).mp later⟩
      · rintro along _ ⟨next, step, rfl⟩
        obtain ⟨here, later⟩ := along next step
        exact ⟨(kept state event next).mpr here, (ih next).mpr later⟩

end Renaming

section Simulation

variable {σ ε τ δ : Type*} {concrete : EventSystem σ ε} {abstract : EventSystem τ δ}

/-- A relation that answers every concrete step with a run of the abstract system. -/
def Simulation (concrete : EventSystem σ ε) (abstract : EventSystem τ δ)
    (related : σ → τ → Prop) : Prop :=
  ∀ state event next shadow, related state shadow → concrete.step state event = some next →
    ∃ events shadow', abstract.run shadow events = some shadow' ∧ related next shadow'

/-- Every concrete run has an abstract run with related ends. -/
theorem Simulation.run {related : σ → τ → Prop} (simulation : Simulation concrete abstract related)
    {state final : σ} {shadow : τ} {events : List ε} (start : related state shadow)
    (execution : concrete.run state events = some final) :
    ∃ shadowEvents shadow', abstract.run shadow shadowEvents = some shadow' ∧
      related final shadow' := by
  induction events generalizing state shadow with
  | nil => exact ⟨[], shadow, rfl, by simpa [← Option.some.inj execution] using start⟩
  | cons event events ih =>
      obtain ⟨next, step, rest⟩ := concrete.run_cons_eq_some execution
      obtain ⟨first, middle, first_run, middle_related⟩ :=
        simulation state event next shadow start step
      obtain ⟨later, shadow', later_run, final_related⟩ := ih middle_related rest
      refine ⟨first ++ later, shadow', ?_, final_related⟩
      rw [run_append, first_run]
      exact later_run

end Simulation

end EventSystem
