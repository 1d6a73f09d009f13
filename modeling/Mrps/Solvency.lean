import Mrps.SharedCounters

/-!
# Solvent histories

A history of changes is solvent when its balance, added up change by change, never goes below zero.
Solvent histories can be put one behind the other, and a solvent history can stop anywhere.
-/

namespace Solvency

open SharedCounters

variable {α : Type*} {weight : α → Int} {balance more : Int} {front back changes : List α}

/-- From `balance` on, no change takes the balance below zero. -/
def Solvent (weight : α → Int) : Int → List α → Prop
  | _, [] => True
  | balance, change :: changes =>
      0 ≤ balance + weight change ∧ Solvent weight (balance + weight change) changes

@[simp] theorem solvent_nil : Solvent weight balance [] := trivial

@[simp] theorem solvent_cons {change : α} :
    Solvent weight balance (change :: changes) ↔
      0 ≤ balance + weight change ∧ Solvent weight (balance + weight change) changes := Iff.rfl

theorem Solvent.mono (solvent : Solvent weight balance changes) (le : balance ≤ more) :
    Solvent weight more changes := by
  induction changes generalizing balance more with
  | nil => trivial
  | cons change changes ih =>
      obtain ⟨here, later⟩ := solvent
      exact ⟨by omega, ih later (by omega)⟩

theorem Solvent.nonneg (solvent : Solvent weight balance changes) (start : 0 ≤ balance) :
    0 ≤ balance + total weight changes := by
  induction changes generalizing balance with
  | nil => simpa using start
  | cons change changes ih =>
      obtain ⟨here, later⟩ := solvent
      have rest := ih later here
      rw [total_cons]
      omega

theorem Solvent.of_append (solvent : Solvent weight balance (front ++ back)) :
    Solvent weight balance front := by
  induction front generalizing balance with
  | nil => trivial
  | cons change front ih => exact ⟨solvent.1, ih solvent.2⟩

theorem Solvent.append (first : Solvent weight balance front) (start : 0 ≤ balance)
    (second : Solvent weight 0 back) : Solvent weight balance (front ++ back) := by
  induction front generalizing balance with
  | nil => exact second.mono start
  | cons change front ih =>
      obtain ⟨here, later⟩ := first
      exact ⟨here, ih later here⟩

theorem solvent_flatten {histories : List (List α)}
    (each : ∀ history ∈ histories, Solvent weight 0 history) :
    Solvent weight 0 histories.flatten := by
  induction histories with
  | nil => trivial
  | cons history histories ih =>
      rw [List.flatten_cons]
      apply (each history List.mem_cons_self).append le_rfl
      exact ih fun other member => each other (List.mem_cons_of_mem history member)

end Solvency
