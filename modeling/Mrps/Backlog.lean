import Mrps.Entries
import Mrps.SharedCounters

/-!
# The queue of a listening socket

Peers are numbered in the order in which they come.  Each waits in the queue of the listening
socket, is taken from its front by one machine, or is turned away because nobody listens any more.
-/

namespace Mrps

/-- The peers of a listening socket. -/
structure Backlog where
  /-- How many peers have come. -/
  arrived : Nat
  /-- The peers that wait, in order. -/
  queue : List Nat
  /-- The machine and the peer of each connection that was taken, in order. -/
  taken : List (Nat × Nat)
  /-- The peers that were turned away. -/
  refused : List Nat
  deriving DecidableEq, Repr

namespace Backlog

/-- Nobody has come. -/
def empty : Backlog := { arrived := 0, queue := [], taken := [], refused := [] }

/-- A peer comes while somebody listens. -/
def arrive (backlog : Backlog) : Backlog :=
  { backlog with arrived := backlog.arrived + 1, queue := backlog.queue ++ [backlog.arrived] }

/-- A peer comes while nobody listens. -/
def refuse (backlog : Backlog) : Backlog :=
  { backlog with arrived := backlog.arrived + 1, refused := backlog.refused ++ [backlog.arrived] }

/-- A machine takes the peer that waited longest. -/
def take (backlog : Backlog) (machine : Nat) : Option Backlog :=
  match backlog.queue with
  | [] => none
  | peer :: rest =>
      some { backlog with queue := rest, taken := backlog.taken ++ [(machine, peer)] }

/-- The listening socket is gone, and with it whoever waited. -/
def reset (backlog : Backlog) : Backlog :=
  { backlog with queue := [], refused := backlog.refused ++ backlog.queue }

/-- How many peers a machine took. -/
def takenBy (backlog : Backlog) (machine : Nat) : Nat :=
  backlog.taken.countP fun connection => connection.1 = machine

variable {backlog after : Backlog} {machine : Nat}

theorem take_eq_some (taking : backlog.take machine = some after) :
    ∃ peer rest, backlog.queue = peer :: rest ∧
      after = { backlog with queue := rest, taken := backlog.taken ++ [(machine, peer)] } := by
  rw [take] at taking
  split at taking
  · cases taking
  · exact ⟨_, _, by assumption, (Option.some.inj taking).symm⟩

theorem takenBy_take (taking : backlog.take machine = some after) (other : Nat) :
    after.takenBy other = backlog.takenBy other + if machine = other then 1 else 0 := by
  obtain ⟨peer, rest, -, rfl⟩ := take_eq_some taking
  simp [takenBy, List.countP_singleton]

/-- Every peer is in exactly one place, and the peers are taken in the order in which they came. -/
structure Sound (backlog : Backlog) : Prop where
  placed : (backlog.taken.map Prod.snd ++ backlog.queue ++ backlog.refused).Perm
    (List.range backlog.arrived)
  ordered : (backlog.taken.map Prod.snd ++ backlog.queue).Pairwise (· < ·)

theorem sound_empty : empty.Sound := ⟨List.Perm.refl _, List.Pairwise.nil⟩

theorem Sound.earlier (sound : backlog.Sound) {peer : Nat}
    (known : peer ∈ backlog.taken.map Prod.snd ++ backlog.queue) : peer < backlog.arrived :=
  List.mem_range.mp (sound.placed.subset (List.mem_append_left _ known))

theorem Sound.arrive (sound : backlog.Sound) : backlog.arrive.Sound := by
  constructor
  · simp only [Backlog.arrive]
    rw [List.range_succ, ← List.append_assoc]
    have moved : ([backlog.arrived] ++ backlog.refused).Perm
      (backlog.refused ++ [backlog.arrived]) :=
      List.perm_append_comm
    have behind : (backlog.taken.map Prod.snd ++ backlog.queue ++ [backlog.arrived] ++
        backlog.refused).Perm
          (backlog.taken.map Prod.snd ++ backlog.queue ++ backlog.refused ++
            [backlog.arrived]) := by
      rw [List.append_assoc, List.append_assoc _ backlog.refused]
      exact moved.append_left _
    exact behind.trans (sound.placed.append_right _)
  · simp only [Backlog.arrive]
    rw [← List.append_assoc, List.pairwise_append]
    refine ⟨sound.ordered, List.pairwise_singleton _ _, ?_⟩
    intro peer known other last
    rw [List.mem_singleton.mp last]
    exact sound.earlier known

theorem Sound.refuse (sound : backlog.Sound) : backlog.refuse.Sound := by
  constructor
  · simp only [Backlog.refuse]
    rw [List.range_succ, ← List.append_assoc]
    exact sound.placed.append_right _
  · exact sound.ordered

theorem Sound.take (sound : backlog.Sound) (taking : backlog.take machine = some after) :
    after.Sound := by
  obtain ⟨peer, rest, queue_eq, rfl⟩ := take_eq_some taking
  obtain ⟨placed, ordered⟩ := sound
  rw [queue_eq] at placed ordered
  constructor
  · simpa using placed
  · simpa using ordered

theorem Sound.reset (sound : backlog.Sound) : backlog.reset.Sound := by
  obtain ⟨placed, ordered⟩ := sound
  constructor
  · simp only [Backlog.reset, List.append_nil]
    have swapped : (backlog.refused ++ backlog.queue).Perm (backlog.queue ++ backlog.refused) :=
      List.perm_append_comm
    refine (swapped.append_left (backlog.taken.map Prod.snd)).trans ?_
    rw [← List.append_assoc]
    exact placed
  · simp only [Backlog.reset, List.append_nil]
    exact (List.pairwise_append.mp ordered).1

theorem takenBy_beyond {machines : Nat}
    (named : ∀ connection ∈ backlog.taken, connection.1 < machines) :
    backlog.takenBy machines = 0 := by
  rw [takenBy, List.countP_eq_zero]
  intro connection member
  have earlier := named connection member
  simpa using earlier.ne

theorem Sound.serve {takes : Prop} [Decidable takes] {machines : Nat} (sound : backlog.Sound)
    (named : ∀ connection ∈ backlog.taken, connection.1 < machines) (inside : machine < machines)
    (serving : (if takes then backlog.take machine else some backlog) = some after) :
    (∀ other, after.takenBy other =
        backlog.takenBy other + if takes ∧ machine = other then 1 else 0) ∧
      (∀ connection ∈ after.taken, connection.1 < machines) ∧ after.Sound ∧
      after.refused = backlog.refused := by
  by_cases taking : takes
  · rw [if_pos taking] at serving
    obtain ⟨peer, rest, -, after_eq⟩ := take_eq_some serving
    refine ⟨?_, ?_, sound.take serving, ?_⟩
    · intro other
      simpa [taking] using takenBy_take serving other
    · rw [after_eq]
      exact forall_mem_concat named inside
    · rw [after_eq]
  · rw [if_neg taking] at serving
    obtain rfl := Option.some.inj serving
    exact ⟨fun other => by simp [taking], named, sound, rfl⟩

/-- Several parties share the queue: what a party knows fits the number of peers it took. -/
structure Shared {σ : Type*} (knows : σ → Nat → Prop) (parties : List σ) (backlog : Backlog) :
    Prop where
  each : ∀ (index : Nat) party, parties[index]? = some party →
    knows party (backlog.takenBy index)
  named : ∀ connection ∈ backlog.taken, connection.1 < parties.length
  sound : backlog.Sound

section Shared

variable {σ : Type*} {knows : σ → Nat → Prop} {parties : List σ} {party new : σ}

theorem shared_nil : Shared knows [] .empty where
  each := by simp
  named := by simp [empty]
  sound := sound_empty

theorem Shared.join (shared : backlog.Shared knows parties) (fresh : knows new 0) :
    backlog.Shared knows (parties ++ [new]) where
  each := by
    intro index party found
    rcases getElem?_concat_cases found with old | ⟨rfl, rfl⟩
    · exact shared.each index party old
    · rw [takenBy_beyond shared.named]
      exact fresh
  named := by
    intro connection member
    rw [List.length_append]
    exact (shared.named connection member).trans_le (Nat.le_add_right _ _)
  sound := shared.sound

theorem Shared.same_taken (shared : backlog.Shared knows parties)
    (same : after.taken = backlog.taken) (sound : after.Sound) : after.Shared knows parties where
  each index party found := by
    rw [takenBy, same]
    exact shared.each index party found
  named := by
    rw [same]
    exact shared.named
  sound := sound

theorem Shared.serve {takes : Prop} [Decidable takes] (shared : backlog.Shared knows parties)
    (found : parties[machine]? = some party)
    (counts : ∀ taken, knows party taken → knows new (taken + if takes then 1 else 0))
    (serving : (if takes then backlog.take machine else some backlog) = some after) :
    after.Shared knows (parties.set machine new) ∧ after.refused = backlog.refused := by
  have inside := (List.getElem?_eq_some_iff.mp found).1
  obtain ⟨took, named, sound, refused_eq⟩ := shared.sound.serve shared.named inside serving
  refine ⟨⟨?_, ?_, sound⟩, refused_eq⟩
  · intro other entry at_other
    rw [took]
    rcases getElem?_set_cases at_other with ⟨rfl, rfl⟩ | ⟨different, old⟩
    · simpa using counts _ (shared.each other party found)
    · rw [if_neg fun both => different both.2.symm, Nat.add_zero]
      exact shared.each other entry old
  · rw [List.length_set]
    exact named

end Shared

theorem sum_takenBy {machines : Nat}
    (named : ∀ connection ∈ backlog.taken, connection.1 < machines) :
    ∑ machine ∈ Finset.range machines, backlog.takenBy machine = backlog.taken.length := by
  simp only [takenBy]
  generalize backlog.taken = taken at named ⊢
  induction taken with
  | nil => simp
  | cons connection taken ih =>
      have here := named connection List.mem_cons_self
      have rest := ih fun other member => named other (List.mem_cons_of_mem _ member)
      simp only [List.countP_cons, decide_eq_true_eq, Finset.sum_add_distrib, rest,
        List.length_cons, Finset.sum_ite_eq, Finset.mem_range, here, if_true]

/-- When every party knows how many peers it took, the parties together know of all of them. -/
theorem sum_counts {σ : Type*} {parties : List σ} {count : σ → Nat}
    (took : ∀ (index : Nat) party, parties[index]? = some party →
      backlog.takenBy index = count party)
    (named : ∀ connection ∈ backlog.taken, connection.1 < parties.length) :
    SharedCounters.total (fun party => (count party : Int)) parties = backlog.taken.length := by
  have counts_eq : parties.map count = (List.range parties.length).map backlog.takenBy := by
    apply List.ext_getElem?
    intro index
    cases found : parties[index]? with
    | none =>
        have outside := List.getElem?_eq_none_iff.mp found
        simp [outside]
    | some party =>
        have inside := (List.getElem?_eq_some_iff.mp found).1
        rw [List.getElem?_map, found, Option.map_some, List.getElem?_map,
          List.getElem?_range inside, Option.map_some, took index party found]
  have summed : (parties.map count).sum = backlog.taken.length := by
    rw [counts_eq, ← sum_takenBy named, Finset.sum_eq_multiset_sum, Finset.range_val,
      Multiset.range, Multiset.map_coe, Multiset.sum_coe]
  rw [← summed, SharedCounters.total, Nat.cast_list_sum, List.map_map]
  rfl

end Backlog

end Mrps
