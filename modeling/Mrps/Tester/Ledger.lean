import Mrps.SharedCounters
import Mrps.Tester.Callbacks

/-!
# What actions add to the global counters
-/

namespace Mrps.Tester

open SharedCounters

/-- What an update adds to a counter. -/
def Update.amount (counter : Counter) : Update → Int
  | .fetchAndAdd other amount => if other = counter then amount else 0
  | .fetchAndSub other amount => if other = counter then -amount else 0

/-- What an action adds to a counter. -/
def Action.amount (counter : Counter) : Action → Int
  | .update change => change.amount counter
  | _ => 0

/-- What a list of actions adds to a counter. -/
def added (actions : List Action) (counter : Counter) : Int :=
  total (Action.amount counter) actions

/-- The errors a list of actions counts. -/
def errors (actions : List Action) : Int :=
  added actions .connectionErrors + added actions .exchangeErrors

@[simp] theorem added_nil (counter : Counter) : added [] counter = 0 := rfl

@[simp] theorem added_cons (action : Action) (actions : List Action) (counter : Counter) :
    added (action :: actions) counter = action.amount counter + added actions counter :=
  total_cons _ action actions

@[simp] theorem added_append (front back : List Action) (counter : Counter) :
    added (front ++ back) counter = added front counter + added back counter :=
  total_append _ front back

theorem added_eq_count {actions : List Action} {counter : Counter} {counted : Action}
    (each : ∀ action ∈ actions, action.amount counter = if action = counted then 1 else 0) :
    added actions counter = actions.count counted := by
  induction actions with
  | nil => rfl
  | cons action actions ih =>
      rw [added_cons, each action List.mem_cons_self,
        ih fun other member => each other (List.mem_cons_of_mem action member), List.count_cons]
      by_cases same : action = counted
      · simp [same, add_comm]
      · simp [same]

theorem errors_append (front back : List Action) :
    errors (front ++ back) = errors front + errors back := by
  simp only [errors, added_append]
  ring

/-- An action of a callback that comes after the two updates of `connect`. -/
def Action.Later : Action → Prop
  | .update (.fetchAndAdd counter _) => counter ≠ .children ∧ counter ≠ .connectionActive
  | .update (.fetchAndSub _ _) => False
  | .waitBear => False
  | .asyncConnect => False
  | _ => True

variable {action : Action} {actions front : List Action} {counter : Counter}

theorem Action.Later.amount_nonneg (later : action.Later) : 0 ≤ action.amount counter := by
  cases action with
  | update change =>
      cases change with
      | fetchAndAdd other amount =>
          simp only [Action.amount, Update.amount]
          split <;> omega
      | fetchAndSub other amount => exact later.elim
  | _ => exact le_refl _

theorem Action.Later.amount_eq_zero (later : action.Later)
    (early : counter = .children ∨ counter = .connectionActive) : action.amount counter = 0 := by
  cases action with
  | update change =>
      cases change with
      | fetchAndAdd other amount =>
          simp only [Action.amount, Update.amount]
          rcases early with rfl | rfl
          · exact if_neg later.1
          · exact if_neg later.2
      | fetchAndSub other amount => exact later.elim
  | _ => rfl

theorem added_nonneg (later : ∀ action ∈ actions, action.Later) : 0 ≤ added actions counter :=
  total_nonneg fun action member => (later action member).amount_nonneg

theorem added_eq_zero (later : ∀ action ∈ actions, action.Later)
    (early : counter = .children ∨ counter = .connectionActive) : added actions counter = 0 := by
  induction actions with
  | nil => rfl
  | cons action actions ih =>
      rw [added_cons, (later action List.mem_cons_self).amount_eq_zero early,
        ih fun other member => later other (List.mem_cons_of_mem action member)]
      rfl

end Mrps.Tester
