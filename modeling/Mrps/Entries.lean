import Mathlib.Tactic

/-!
# Lists of parties

A list of parties grows at its end and is changed in one place.  What stands at an index afterwards
is the new entry or an earlier one.
-/

namespace Mrps

variable {α : Type*} {entries : List α} {entry new : α} {chosen index : Nat}

theorem getElem?_concat_cases (found : (entries ++ [new])[index]? = some entry) :
    entries[index]? = some entry ∨ index = entries.length ∧ entry = new := by
  rcases Nat.lt_trichotomy index entries.length with below | rfl | above
  · left
    rwa [List.getElem?_append_left below] at found
  · right
    simpa [eq_comm] using found
  · have outside : (entries ++ [new])[index]? = none := by
      rw [List.getElem?_eq_none_iff, List.length_append, List.length_singleton]
      omega
    simp [outside] at found

theorem getElem?_set_cases (found : (entries.set chosen new)[index]? = some entry) :
    index = chosen ∧ entry = new ∨ index ≠ chosen ∧ entries[index]? = some entry := by
  rw [List.getElem?_set] at found
  split at found
  · rename_i same
    split at found
    · exact Or.inl ⟨same.symm, (Option.some.inj found).symm⟩
    · simp at found
  · rename_i different
    exact Or.inr ⟨fun same => different same.symm, found⟩

theorem getElem?_modify_cases {change : α → α}
    (found : (entries.modify chosen change)[index]? = some entry) :
    (index = chosen ∧ ∃ before, entries[index]? = some before ∧ entry = change before) ∨
      index ≠ chosen ∧ entries[index]? = some entry := by
  rw [List.getElem?_modify] at found
  obtain ⟨before, before_found, rfl⟩ := Option.map_eq_some_iff.mp found
  by_cases same : chosen = index
  · rw [if_pos same]
    exact Or.inl ⟨same.symm, before, before_found, rfl⟩
  · rw [if_neg same]
    exact Or.inr ⟨fun here => same here.symm, before_found⟩

variable {holds : α → Prop}

theorem forall_mem_concat (each : ∀ entry ∈ entries, holds entry) (here : holds new) :
    ∀ entry ∈ entries ++ [new], holds entry := by
  intro entry member
  rcases List.mem_append.mp member with old | added
  · exact each entry old
  · rwa [List.mem_singleton.mp added]

theorem forall_mem_set (each : ∀ entry ∈ entries, holds entry) (here : holds new) :
    ∀ entry ∈ entries.set chosen new, holds entry := by
  intro entry member
  rcases List.mem_or_eq_of_mem_set member with old | rfl
  · exact each entry old
  · exact here

/-! ## The streams of the parties -/

/-- A stream of the party at an index, empty before there is one. -/
def streamAt {β : Type*} (view : α → List β) (entries : List α) (index : Nat) : List β :=
  (entries[index]?.map view).getD []

section Streams

variable {β : Type*} {view : α → List β}

theorem streamAt_concat (entries : List α) (new : α) (index : Nat) :
    streamAt view entries index <+: streamAt view (entries ++ [new]) index := by
  rw [streamAt, streamAt]
  cases found : entries[index]? with
  | none => exact List.nil_prefix
  | some entry =>
      rw [List.getElem?_append_left (List.getElem?_eq_some_iff.mp found).1, found]

theorem streamAt_modify {change : α → α} (grows : ∀ entry, view entry <+: view (change entry))
    (entries : List α) (chosen index : Nat) :
    streamAt view entries index <+: streamAt view (entries.modify chosen change) index := by
  rw [streamAt, streamAt, List.getElem?_modify]
  cases entries[index]? with
  | none => exact List.nil_prefix
  | some entry =>
      by_cases here : chosen = index
      · simpa [here] using grows entry
      · simp [here]

theorem streamAt_of_found (found : entries[index]? = some entry) :
    streamAt view entries index = view entry := by
  rw [streamAt, found]
  rfl

theorem streamAt_set (inside : chosen < entries.length) (new : α) (index : Nat) :
    streamAt view (entries.set chosen new) index =
      if chosen = index then view new else streamAt view entries index := by
  by_cases here : chosen = index
  · subst here
    simp [streamAt, inside]
  · simp [streamAt, here]

theorem streamAt_append_singleton (entries : List α) (new : α) (index : Nat) :
    streamAt view (entries ++ [new]) index =
      if entries.length = index then view new else streamAt view entries index := by
  rcases Nat.lt_trichotomy index entries.length with below | rfl | above
  · rw [if_neg below.ne', streamAt, List.getElem?_append_left below, streamAt]
  · simp [streamAt]
  · have outside : (entries ++ [new])[index]? = none := by simp; omega
    rw [if_neg above.ne, streamAt, outside, streamAt, List.getElem?_eq_none above.le]

theorem streamAt_prefix {other : α → List β}
    (each : ∀ (index : Nat) entry, entries[index]? = some entry → view entry <+: other entry)
    (index : Nat) : streamAt view entries index <+: streamAt other entries index := by
  rw [streamAt, streamAt]
  cases found : entries[index]? with
  | none => exact List.nil_prefix
  | some entry => exact each index entry found

end Streams

end Mrps
