import Mrps.Entries
import Mrps.EventSystem

/-!
# Handle tables

A process holds open handles and lists owners of some of them.  Handles are conserved when, beside a
fixed base, exactly the owned ones are open and each has one owner.  Granting a fresh handle to a
new owner and retiring an owner together with its handle conserve them; opening a handle that gets
no owner does not, and nothing later repairs that.
-/

namespace Mrps

/-- Owners by index, `none` for a retired one, and the open handles. -/
structure HandleTable (α : Type*) where
  owners : List (Option α)
  opened : Finset α

namespace HandleTable

variable {α : Type*}

/-- Beside the base exactly the owned handles are open, and no handle has two owners. -/
structure Conserved (base : Finset α) (table : HandleTable α) : Prop where
  opened_iff : ∀ handle, handle ∈ table.opened ↔ handle ∈ base ∨ some handle ∈ table.owners
  base_free : ∀ handle ∈ base, some handle ∉ table.owners
  once : ∀ (left right : Nat) (handle : α), table.owners[left]? = some (some handle) →
    table.owners[right]? = some (some handle) → left = right

/-- A handle outside the base is open and nobody owns it. -/
def Leaked (base : Finset α) (table : HandleTable α) : Prop :=
  ∃ handle ∉ base, handle ∈ table.opened ∧ some handle ∉ table.owners

variable {base : Finset α} {table : HandleTable α}

theorem Leaked.not_conserved (leaked : Leaked base table) : ¬ Conserved base table := by
  obtain ⟨handle, outside, is_open, free⟩ := leaked
  intro conserved
  rcases (conserved.opened_iff handle).mp is_open with inside | owned
  · exact outside inside
  · exact free owned

theorem mem_set_none {owners : List (Option α)} {index : Nat} {handle : α}
    (owned : some handle ∈ owners.set index none) : some handle ∈ owners := by
  obtain ⟨position, found⟩ := List.mem_iff_getElem?.mp owned
  rcases getElem?_set_cases found with ⟨-, impossible⟩ | ⟨-, old⟩
  · simp at impossible
  · exact List.mem_iff_getElem?.mpr ⟨position, old⟩

variable [DecidableEq α]

/-- What can happen to a table. -/
inductive Event (α : Type*) where
  /-- Nothing is opened or closed. -/
  | idle
  /-- A handle is opened and given to nobody. -/
  | abandon (handle : α)
  /-- A handle is opened for a new owner. -/
  | grant (handle : α)
  /-- An owner closes its handle and retires. -/
  | retire (index : Nat)

/-- The event opens a handle that nobody owns. -/
def Event.Abandons : Event α → Prop
  | .abandon _ => True
  | .idle | .grant _ | .retire _ => False

/-- One step; a handle that is open is never opened again. -/
def next (table : HandleTable α) : Event α → Option (HandleTable α)
  | .idle => some table
  | .abandon handle =>
      if handle ∈ table.opened then none
      else some { table with opened := insert handle table.opened }
  | .grant handle =>
      if handle ∈ table.opened then none
      else
        some
          { owners := table.owners ++ [some handle]
            opened := insert handle table.opened }
  | .retire index =>
      match table.owners[index]? with
      | some (some handle) =>
          some
            { owners := table.owners.set index none
              opened := table.opened.erase handle }
      | _ => none

variable {after : HandleTable α} {event : Event α}

theorem Leaked.next (leaked : Leaked base table) (step : table.next event = some after) :
    Leaked base after := by
  obtain ⟨handle, outside, is_open, free⟩ := leaked
  cases event with
  | idle =>
      obtain rfl := Option.some.inj step
      exact ⟨handle, outside, is_open, free⟩
  | abandon opened =>
      simp only [HandleTable.next, Option.ite_none_left_eq_some, Option.some.injEq] at step
      obtain ⟨fresh, rfl⟩ := step
      exact ⟨handle, outside, Finset.mem_insert_of_mem is_open, free⟩
  | grant opened =>
      simp only [HandleTable.next, Option.ite_none_left_eq_some, Option.some.injEq] at step
      obtain ⟨fresh, rfl⟩ := step
      refine ⟨handle, outside, Finset.mem_insert_of_mem is_open, ?_⟩
      have different : handle ≠ opened := fun same => fresh (same ▸ is_open)
      simp [free, different]
  | retire index =>
      simp only [HandleTable.next] at step
      split at step
      · rename_i closed found
        obtain rfl := Option.some.inj step
        refine ⟨handle, outside, Finset.mem_erase.mpr ⟨?_, is_open⟩, fun owned =>
          free (mem_set_none owned)⟩
        rintro rfl
        exact free (List.mem_iff_getElem?.mpr ⟨index, found⟩)
      · simp at step

theorem Conserved.abandon (conserved : Conserved base table) {handle : α}
    (step : table.next (.abandon handle) = some after) : Leaked base after := by
  simp only [HandleTable.next, Option.ite_none_left_eq_some, Option.some.injEq] at step
  obtain ⟨fresh, rfl⟩ := step
  refine ⟨handle, fun inside => ?_, Finset.mem_insert_self _ _, fun owned => ?_⟩
  · exact fresh ((conserved.opened_iff handle).mpr (Or.inl inside))
  · exact fresh ((conserved.opened_iff handle).mpr (Or.inr owned))

theorem Conserved.grant (conserved : Conserved base table) {handle : α}
    (fresh : handle ∉ table.opened) :
    Conserved base
      { owners := table.owners ++ [some handle]
        opened := insert handle table.opened } := by
  have unowned : some handle ∉ table.owners := fun owned =>
    fresh ((conserved.opened_iff handle).mpr (Or.inr owned))
  constructor
  · intro other
    rw [Finset.mem_insert, conserved.opened_iff other, List.mem_append, List.mem_singleton,
      Option.some.injEq]
    tauto
  · intro other inside owned
    rcases List.mem_append.mp owned with old | new
    · exact conserved.base_free other inside old
    · obtain rfl : other = handle := by simpa using new
      exact fresh ((conserved.opened_iff other).mpr (Or.inl inside))
  · intro left right other found found'
    rcases getElem?_concat_cases found with old | ⟨left_eq, new⟩ <;>
      rcases getElem?_concat_cases found' with old' | ⟨right_eq, new'⟩
    · exact conserved.once left right other old old'
    · exact absurd (new' ▸ List.mem_iff_getElem?.mpr ⟨left, old⟩) unowned
    · exact absurd (new ▸ List.mem_iff_getElem?.mpr ⟨right, old'⟩) unowned
    · exact left_eq.trans right_eq.symm

theorem Conserved.retire (conserved : Conserved base table) {index : Nat} {handle : α}
    (found : table.owners[index]? = some (some handle)) :
    Conserved base
      { owners := table.owners.set index none
        opened := table.opened.erase handle } := by
  have owned : some handle ∈ table.owners := List.mem_iff_getElem?.mpr ⟨index, found⟩
  constructor
  · intro other
    rw [Finset.mem_erase, conserved.opened_iff other]
    constructor
    · rintro ⟨different, inside | held⟩
      · exact Or.inl inside
      · right
        obtain ⟨position, found'⟩ := List.mem_iff_getElem?.mp held
        have apart : index ≠ position := by
          rintro rfl
          exact different (by simpa [found] using found'.symm)
        exact List.mem_iff_getElem?.mpr ⟨position, by rwa [List.getElem?_set_ne apart]⟩
    · rintro (inside | held)
      · exact ⟨fun same => conserved.base_free other inside (same ▸ owned), Or.inl inside⟩
      · refine ⟨?_, Or.inr (mem_set_none held)⟩
        rintro rfl
        obtain ⟨position, found'⟩ := List.mem_iff_getElem?.mp held
        rcases getElem?_set_cases found' with ⟨-, impossible⟩ | ⟨apart, old⟩
        · simp at impossible
        · exact apart (conserved.once position index other old found)
  · intro other inside held
    exact conserved.base_free other inside (mem_set_none held)
  · intro left right other found_left found_right
    rcases getElem?_set_cases found_left with ⟨-, impossible⟩ | ⟨-, old⟩
    · simp at impossible
    · rcases getElem?_set_cases found_right with ⟨-, impossible⟩ | ⟨-, old'⟩
      · simp at impossible
      · exact conserved.once left right other old old'

theorem Conserved.next (conserved : Conserved base table) (step : table.next event = some after)
    (kept : ¬ event.Abandons) : Conserved base after := by
  cases event with
  | idle =>
      obtain rfl := Option.some.inj step
      exact conserved
  | abandon handle => exact (kept trivial).elim
  | grant handle =>
      simp only [HandleTable.next, Option.ite_none_left_eq_some, Option.some.injEq] at step
      obtain ⟨fresh, rfl⟩ := step
      exact conserved.grant fresh
  | retire index =>
      simp only [HandleTable.next] at step
      split at step
      · rename_i handle found
        obtain rfl := Option.some.inj step
        exact conserved.retire found
      · simp at step

/-- An owner goes on as it is or closes its handle and retires. -/
theorem exists_next_set {index : Nat} {held held' : Option α} {closed : List α}
    (found : table.owners[index]? = some held)
    (closes : held' = held ∧ closed = [] ∨
      ∃ handle, held = some handle ∧ held' = none ∧ closed = [handle]) :
    ∃ change : Event α, table.next change =
        some
          { owners := table.owners.set index held'
            opened := table.opened \ closed.toFinset } ∧
      ¬ change.Abandons := by
  rcases closes with ⟨rfl, rfl⟩ | ⟨handle, rfl, rfl, rfl⟩
  · obtain ⟨inside, held_eq⟩ := List.getElem?_eq_some_iff.mp found
    refine ⟨.idle, ?_, id⟩
    rw [← held_eq, List.set_getElem_self]
    simp [HandleTable.next]
  · refine ⟨.retire index, ?_, id⟩
    simp [HandleTable.next, found, Finset.sdiff_singleton_eq_erase]

/-! ## What no step breaks -/

/-- The owned handles, each once. -/
def owned (table : HandleTable α) : Finset α := (table.owners.filterMap id).toFinset

theorem mem_owned {handle : α} : handle ∈ table.owned ↔ some handle ∈ table.owners := by
  simp [owned]

/-- The base is open and nobody's, and what is owned is open and has one owner; other handles may be
open beside that. -/
structure Secured (base : Finset α) (table : HandleTable α) : Prop where
  base_open : base ⊆ table.opened
  base_free : ∀ handle ∈ base, some handle ∉ table.owners
  owned_open : ∀ handle, some handle ∈ table.owners → handle ∈ table.opened
  once : ∀ (left right : Nat) (handle : α), table.owners[left]? = some (some handle) →
    table.owners[right]? = some (some handle) → left = right

theorem Secured.opened (secured : Secured base table) (handle : α) :
    Secured base { table with opened := insert handle table.opened } where
  base_open := secured.base_open.trans (Finset.subset_insert _ _)
  base_free := secured.base_free
  owned_open other held := Finset.mem_insert_of_mem (secured.owned_open other held)
  once := secured.once

theorem Secured.next (secured : Secured base table) (step : table.next event = some after) :
    Secured base after := by
  cases event with
  | idle =>
      obtain rfl := Option.some.inj step
      exact secured
  | abandon handle =>
      simp only [HandleTable.next, Option.ite_none_left_eq_some, Option.some.injEq] at step
      obtain ⟨-, rfl⟩ := step
      exact secured.opened handle
  | grant handle =>
      simp only [HandleTable.next, Option.ite_none_left_eq_some, Option.some.injEq] at step
      obtain ⟨fresh, rfl⟩ := step
      have unowned : some handle ∉ table.owners := fun held =>
        fresh (secured.owned_open handle held)
      refine ⟨(secured.opened handle).base_open, ?_, ?_, ?_⟩
      · intro other inside held
        rcases List.mem_append.mp held with old | new
        · exact secured.base_free other inside old
        · obtain rfl : other = handle := by simpa using new
          exact fresh (secured.base_open inside)
      · intro other held
        rcases List.mem_append.mp held with old | new
        · exact Finset.mem_insert_of_mem (secured.owned_open other old)
        · obtain rfl : other = handle := by simpa using new
          exact Finset.mem_insert_self _ _
      · intro left right other found found'
        rcases getElem?_concat_cases found with old | ⟨left_eq, new⟩ <;>
          rcases getElem?_concat_cases found' with old' | ⟨right_eq, new'⟩
        · exact secured.once left right other old old'
        · exact absurd (new' ▸ List.mem_iff_getElem?.mpr ⟨left, old⟩) unowned
        · exact absurd (new ▸ List.mem_iff_getElem?.mpr ⟨right, old'⟩) unowned
        · exact left_eq.trans right_eq.symm
  | retire index =>
      simp only [HandleTable.next] at step
      split at step
      · rename_i handle found
        obtain rfl := Option.some.inj step
        have held : some handle ∈ table.owners := List.mem_iff_getElem?.mpr ⟨index, found⟩
        refine ⟨?_, ?_, ?_, ?_⟩
        · intro other inside
          refine Finset.mem_erase.mpr ⟨?_, secured.base_open inside⟩
          rintro rfl
          exact secured.base_free other inside held
        · intro other inside held'
          exact secured.base_free other inside (mem_set_none held')
        · intro other held'
          refine Finset.mem_erase.mpr ⟨?_, secured.owned_open other (mem_set_none held')⟩
          rintro rfl
          obtain ⟨position, found'⟩ := List.mem_iff_getElem?.mp held'
          rcases getElem?_set_cases found' with ⟨-, impossible⟩ | ⟨apart, old⟩
          · simp at impossible
          · exact apart (secured.once position index other old found)
        · intro left right other found_left found_right
          rcases getElem?_set_cases found_left with ⟨-, impossible⟩ | ⟨-, old⟩
          · simp at impossible
          · rcases getElem?_set_cases found_right with ⟨-, impossible⟩ | ⟨-, old'⟩
            · simp at impossible
            · exact secured.once left right other old old'
      · simp at step

omit [DecidableEq α] in
theorem secured_initial (base : Finset α) : Secured base { owners := [], opened := base } := by
  constructor <;> simp

/-! ## Systems that keep a table -/

section Tracking

variable {σ ε : Type*} {system : EventSystem σ ε} {view : σ → HandleTable α} {abandons : ε → Prop}
  {invariant : σ → Prop}

/-- Under the invariant every step of the system is one step of its table. -/
def Tracks (system : EventSystem σ ε) (view : σ → HandleTable α) (abandons : ε → Prop)
    (invariant : σ → Prop) : Prop :=
  ∀ state event after, invariant state → system.step state event = some after →
    ∃ change : Event α, (view state).next change = some (view after) ∧
      (change.Abandons ↔ abandons event)

theorem Tracks.preserves_secured (tracks : Tracks system view abandons invariant)
    (preserves : system.Preserves invariant) (base : Finset α) :
    system.Preserves fun state => invariant state ∧ Secured base (view state) := by
  rintro state event next ⟨holds, secured⟩ step
  obtain ⟨change, table_step, -⟩ := tracks state event next holds step
  exact ⟨preserves state event next holds step, secured.next table_step⟩

/-- A run ends with its handles conserved exactly when none of its events abandons one. -/
theorem Tracks.conserved_iff (tracks : Tracks system view abandons invariant)
    (preserves : system.Preserves invariant) {initial final : σ} {events : List ε}
    (holds : invariant initial) (start : Conserved base (view initial))
    (execution : system.run initial events = some final) :
    Conserved base (view final) ↔ ∀ event ∈ events, ¬ abandons event := by
  induction events generalizing initial with
  | nil =>
      obtain rfl : initial = final := by simpa using execution
      exact ⟨fun _ => by simp, fun _ => start⟩
  | cons event events ih =>
      obtain ⟨middle, step, rest⟩ := system.run_cons_eq_some execution
      have holds_middle := preserves initial event middle holds step
      obtain ⟨change, table_step, abandons_iff⟩ := tracks initial event middle holds step
      rw [List.forall_mem_cons]
      by_cases leaks : abandons event
      · refine iff_of_false ?_ fun all => all.1 leaks
        have leaked : Leaked base (view middle) := by
          cases change with
          | abandon handle => exact start.abandon table_step
          | idle => exact (abandons_iff.mpr leaks).elim
          | grant handle => exact (abandons_iff.mpr leaks).elim
          | retire index => exact (abandons_iff.mpr leaks).elim
        have stays : system.Preserves fun state =>
            invariant state ∧ Leaked base (view state) := by
          rintro state event next ⟨holds, leaked⟩ step
          obtain ⟨change, table_step, -⟩ := tracks state event next holds step
          exact ⟨preserves state event next holds step, leaked.next table_step⟩
        exact (stays.run ⟨holds_middle, leaked⟩ rest).2.not_conserved
      · have start_middle := start.next table_step fun bad => leaks (abandons_iff.mp bad)
        rw [ih holds_middle start_middle rest]
        exact ⟨fun later => ⟨leaks, later⟩, fun all => all.2⟩

end Tracking

end HandleTable

end Mrps
