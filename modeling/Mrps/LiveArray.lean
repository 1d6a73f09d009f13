import Mathlib.Tactic

/-!
# Walking an array while it shrinks

A loop over a live array goes by an increasing index.  When the body removes the element it stands
on, the next element moves under the index that was just used, and the loop steps over it.
-/

namespace LiveArray

variable {α : Type*} (removes : α → Prop) [DecidablePred removes]

/-- The elements the loop meets when it removes some of those it stands on. -/
def walk : List α → List α
  | [] => []
  | [last] => [last]
  | first :: second :: rest =>
      first :: if removes first then walk rest else walk (second :: rest)

theorem walk_sublist (elements : List α) : (walk removes elements).Sublist elements := by
  induction elements using walk.induct with
  | case1 => exact List.Sublist.refl []
  | case2 last => exact List.Sublist.refl [last]
  | case3 first second rest ih_rest ih_second =>
      rw [walk]
      split
      · exact (ih_rest.trans (List.sublist_cons_self second rest)).cons_cons first
      · exact ih_second.cons_cons first

theorem walk_eq_self {elements : List α} (kept : ∀ element ∈ elements.dropLast, ¬ removes element) :
    walk removes elements = elements := by
  induction elements using walk.induct with
  | case1 => rfl
  | case2 last => rfl
  | case3 first second rest _ ih_second =>
      rw [walk, if_neg (kept first (by simp)), ih_second]
      intro element member
      apply kept
      simp [member]

variable [DecidableEq α]

/-- Among distinct elements the loop meets each exactly once if and only if it removes none but the
last. -/
theorem count_walk_iff {elements : List α} (distinct : elements.Nodup) :
    (∀ element ∈ elements, (walk removes elements).count element = 1) ↔
      ∀ element ∈ elements.dropLast, ¬ removes element := by
  constructor
  · intro once
    induction elements using walk.induct with
    | case1 => simp
    | case2 last => simp
    | case3 first second rest _ ih_second =>
        have fresh : first ∉ second :: rest := (List.nodup_cons.mp distinct).1
        have distinct_later := (List.nodup_cons.mp distinct).2
        by_cases removed : removes first
        · -- the second element is stepped over
          have apart : first ≠ second := fun same => fresh (same ▸ List.mem_cons_self)
          have missed : second ∉ walk removes rest := fun met =>
            (List.nodup_cons.mp distinct_later).1 ((walk_sublist removes rest).mem met)
          have met := once second (by simp)
          rw [walk, if_pos removed, List.count_cons_of_ne apart,
            List.count_eq_zero.mpr missed] at met
          omega
        · have later : ∀ element ∈ second :: rest,
              (walk removes (second :: rest)).count element = 1 := by
            intro element member
            have met := once element (List.mem_cons_of_mem first member)
            have apart : first ≠ element := fun same => fresh (same ▸ member)
            rwa [walk, if_neg removed, List.count_cons_of_ne apart] at met
          have rest_kept := ih_second distinct_later later
          intro element member
          rw [List.dropLast_cons_of_ne_nil (by simp)] at member
          rcases List.mem_cons.mp member with rfl | member
          · exact removed
          · exact rest_kept element member
  · intro kept element member
    rw [walk_eq_self removes kept]
    exact List.count_eq_one_of_mem distinct member

end LiveArray
