import Mathlib.Data.Int.CardIntervalMod
import Mrps.Entries
import Mrps.EventSystem

/-!
# Fleets of machines

A host runs several machines of one kind.  Every step of the host is a step of some of its
machines and leaves the others alone, so each machine lives through a run of its own, made of its
share of the host's events.  A host that deals its work out in turn keeps the shares within one
of each other.
-/

namespace EventSystem

/-! ## What a run emits -/

section Emitted

variable {τ δ ε : Type*} {system : EventSystem τ δ} {emit : τ → δ → Option ε}

/-- What the steps of a run emit, in order. -/
def emitted (system : EventSystem τ δ) (emit : τ → δ → Option ε) : τ → List δ → List ε
  | _, [] => []
  | state, event :: events =>
      match system.step state event with
      | none => []
      | some next => (emit state event).toList ++ emitted system emit next events

theorem emitted_cons {state next : τ} {event : δ} (step : system.step state event = some next)
    (events : List δ) :
    emitted system emit state (event :: events) =
      (emit state event).toList ++ emitted system emit next events := by
  rw [emitted, step]

theorem emitted_append {state middle : τ} {front : List δ} (back : List δ)
    (execution : system.run state front = some middle) :
    emitted system emit state (front ++ back) =
      emitted system emit state front ++ emitted system emit middle back := by
  induction front generalizing state with
  | nil =>
      obtain rfl : state = middle := by simpa using execution
      rfl
  | cons event front ih =>
      obtain ⟨next, step, rest⟩ := system.run_cons_eq_some execution
      rw [List.cons_append, emitted_cons step, emitted_cons step, ih rest, List.append_assoc]

theorem emitted_concat {state middle next : τ} {front : List δ} {event : δ}
    (execution : system.run state front = some middle)
    (step : system.step middle event = some next) :
    emitted system emit state (front ++ [event]) =
      emitted system emit state front ++ (emit middle event).toList := by
  rw [emitted_append [event] execution, emitted_cons step, emitted, List.append_nil]

theorem mem_emitted {state : τ} {events : List δ} {mark : ε}
    (member : mark ∈ emitted system emit state events) :
    ∃ front event back middle next, events = front ++ event :: back ∧
      system.run state front = some middle ∧ system.step middle event = some next ∧
        emit middle event = some mark := by
  induction events generalizing state with
  | nil => cases member
  | cons first events ih =>
      rw [emitted] at member
      split at member
      · cases member
      · rename_i after step
        rcases List.mem_append.mp member with here | later
        · exact ⟨[], first, events, state, after, rfl, rfl, step, Option.mem_toList.mp here⟩
        · obtain ⟨front, event, back, middle, next, rfl, front_run, later_step, found⟩ := ih later
          refine ⟨first :: front, event, back, middle, next, rfl, ?_, later_step, found⟩
          rw [run_cons, step]
          exact front_run

end Emitted

/-! ## Hosts -/

/-- Every step of the host moves each of its machines by that machine's part of the event, if it has
one. -/
def Hosts {σ ε τ δ : Type*} (host : EventSystem τ δ) (machine : EventSystem σ ε)
    (members : τ → List σ) (part : τ → δ → Nat → Option ε) : Prop :=
  ∀ state event next index member, host.step state event = some next →
    (members state)[index]? = some member →
      match part state event index with
      | none => (members next)[index]? = some member
      | some own => ∃ after, machine.step member own = some after ∧
          (members next)[index]? = some after

section Hosts

variable {σ ε τ δ : Type*} {host : EventSystem τ δ} {machine : EventSystem σ ε}
  {members : τ → List σ} {part : τ → δ → Nat → Option ε}

/-- The events of one machine in a run of its host. -/
def shareOf (host : EventSystem τ δ) (part : τ → δ → Nat → Option ε) (index : Nat) :
    τ → List δ → List ε :=
  emitted host fun state event => part state event index

/-- Each machine runs through its share of the host's events. -/
theorem Hosts.run (hosts : Hosts host machine members part) {state final : τ} {events : List δ}
    {index : Nat} {member : σ} (found : (members state)[index]? = some member)
    (execution : host.run state events = some final) :
    ∃ after, machine.run member (shareOf host part index state events) = some after ∧
      (members final)[index]? = some after := by
  induction events generalizing state member with
  | nil =>
      obtain rfl : state = final := by simpa using execution
      exact ⟨member, rfl, found⟩
  | cons event events ih =>
      obtain ⟨next, step, rest⟩ := host.run_cons_eq_some execution
      have moved := hosts state event next index member step found
      rw [shareOf, emitted_cons step]
      cases own : part state event index with
      | none =>
          rw [own] at moved
          exact ih moved rest
      | some act =>
          rw [own] at moved
          obtain ⟨after, machine_step, found'⟩ := moved
          obtain ⟨last, machine_run, at_last⟩ := ih found' rest
          refine ⟨last, ?_, at_last⟩
          simp only [Option.toList_some, List.singleton_append, run_cons, machine_step,
            Option.bind_some]
          exact machine_run

/-- Every step of the host takes on a machine in some first state, leaves all machines alone, or is
a step of one of them. -/
def Employs (host : EventSystem τ δ) (machine : EventSystem σ ε) (members : τ → List σ)
    (part : τ → δ → Nat → Option ε) (fresh : σ → Prop) : Prop :=
  ∀ state event next, host.step state event = some next →
    (∃ new, fresh new ∧ members next = members state ++ [new] ∧
      ∀ index, part state event index = none) ∨
    (members next = members state ∧ ∀ index, part state event index = none) ∨
    ∃ place own member moved,
      (∀ index, part state event index = if place = index then some own else none) ∧
      (members state)[place]? = some member ∧ machine.step member own = some moved ∧
      members next = (members state).set place moved

/-- In states of the invariant, a step of the host is at one of its machines a step of that machine
or nothing. -/
def Exhibits (host : EventSystem τ δ) (machine : EventSystem σ ε) (invariant : τ → Prop)
    (view : τ → σ) (part : τ → δ → Option ε) : Prop :=
  ∀ state event next, invariant state → host.step state event = some next →
    match part state event with
    | none => view next = view state
    | some own => machine.step (view state) own = some (view next)

theorem Exhibits.run {invariant : τ → Prop} {view : τ → σ} {part : τ → δ → Option ε}
    (exhibits : Exhibits host machine invariant view part) (preserves : host.Preserves invariant)
    {initial final : τ} {events : List δ} (holds : invariant initial)
    (execution : host.run initial events = some final) :
    machine.run (view initial) (emitted host part initial events) = some (view final) := by
  induction events generalizing initial with
  | nil =>
      obtain rfl : initial = final := by simpa using execution
      rfl
  | cons event events ih =>
      obtain ⟨next, step, rest⟩ := host.run_cons_eq_some execution
      have moved := exhibits initial event next holds step
      have later := ih (preserves initial event next holds step) rest
      rw [emitted_cons step]
      cases own : part initial event with
      | none =>
          rw [own] at moved
          rwa [← moved]
      | some act =>
          rw [own] at moved
          rw [Option.toList_some, List.singleton_append, run_cons, moved]
          exact later

/-- What holds along the share of a machine holds of its steps along the run of the host. -/
theorem Exhibits.along {invariant : τ → Prop} {view : τ → σ} {part : τ → δ → Option ε}
    {property : σ → ε → σ → Prop} (exhibits : Exhibits host machine invariant view part)
    (preserves : host.Preserves invariant) {initial : τ} {events : List δ}
    (along : machine.Along property (view initial) (emitted host part initial events))
    (holds : invariant initial) :
    host.Along (fun state event next => ∀ own, part state event = some own →
      property (view state) own (view next)) initial events := by
  induction events generalizing initial with
  | nil => trivial
  | cons event events ih =>
      intro next step
      have moved := exhibits initial event next holds step
      have holds' := preserves initial event next holds step
      rw [emitted_cons step] at along
      cases own : part initial event with
      | none =>
          rw [own] at along moved
          rw [← moved] at along
          refine ⟨fun act same => ?_, ih along holds'⟩
          rw [own] at same
          cases same
      | some act =>
          rw [own] at along moved
          obtain ⟨here, later⟩ := along _ moved
          refine ⟨fun act' same => ?_, ih later holds'⟩
          rw [own] at same
          obtain rfl := Option.some.inj same
          exact here

/-- Properties that each hold along a run hold along it together. -/
theorem along_forall {ι : Type*} {property : ι → τ → δ → τ → Prop} {initial : τ} {events : List δ}
    (each : ∀ index, host.Along (property index) initial events) :
    host.Along (fun state event next => ∀ index, property index state event next) initial
      events := by
  induction events generalizing initial with
  | nil => trivial
  | cons event events ih =>
      intro next step
      exact ⟨fun index => (each index next step).1, ih fun index => (each index next step).2⟩

variable {fresh : σ → Prop}

theorem Employs.hosts (employs : Employs host machine members part fresh) :
    Hosts host machine members part := by
  intro state event next index member step found
  rcases employs state event next step with ⟨new, -, grown, nothing⟩ | ⟨same, nothing⟩ |
    ⟨place, own, before, moved, mine, at_place, machine_step, members_eq⟩
  · rw [nothing index]
    have inside := (List.getElem?_eq_some_iff.mp found).1
    change (members next)[index]? = some member
    rw [grown, List.getElem?_append_left inside]
    exact found
  · rw [nothing index]
    change (members next)[index]? = some member
    rw [same]
    exact found
  · have inside := (List.getElem?_eq_some_iff.mp at_place).1
    by_cases here : place = index
    · subst here
      obtain rfl := Option.some.inj (at_place.symm.trans found)
      rw [mine place, if_pos rfl]
      refine ⟨moved, machine_step, ?_⟩
      rw [members_eq, List.getElem?_set_self inside]
    · rw [mine index, if_neg here]
      change (members next)[index]? = some member
      rw [members_eq, List.getElem?_set_ne here]
      exact found

/-- A machine that was not there before is in a first state. -/
theorem Employs.newcomer (employs : Employs host machine members part fresh) {state next : τ}
    {event : δ} {index : Nat} {member : σ} (step : host.step state event = some next)
    (absent : (members state)[index]? = none) (found : (members next)[index]? = some member) :
    fresh member := by
  rcases employs state event next step with ⟨new, first, grown, -⟩ | ⟨same, -⟩ |
    ⟨place, own, before, moved, -, -, -, members_eq⟩
  · rw [grown] at found
    rcases Mrps.getElem?_concat_cases found with old | ⟨-, rfl⟩
    · rw [absent] at old
      cases old
    · exact first
  · rw [same, absent] at found
    cases found
  · have inside := (List.getElem?_eq_some_iff.mp found).1
    have outside := List.getElem?_eq_none_iff.mp absent
    rw [members_eq, List.length_set] at inside
    omega

end Hosts

end EventSystem

/-! ## Dealing -/

namespace RoundRobin

/-- The cards of one player, when `turn` says whose turn each card is. -/
def hand {α : Type*} (turn : Nat → Nat) (cards : List α) (index : Nat) : List α :=
  (cards.zipIdx.filter fun card => turn card.2 = index).map Prod.fst

theorem hand_concat {α : Type*} (turn : Nat → Nat) (cards : List α) (card : α) (index : Nat) :
    hand turn (cards ++ [card]) index =
      hand turn cards index ++ if turn cards.length = index then [card] else [] := by
  have last : [card].zipIdx cards.length = [(card, cards.length)] := by simp
  rw [hand, List.zipIdx_append, Nat.zero_add, last, List.filter_append, List.map_append, hand]
  by_cases here : turn cards.length = index
  · simp [here]
  · simp [here]

theorem hand_congr {α : Type*} {turn turn' : Nat → Nat} {cards : List α}
    (same : ∀ position < cards.length, turn position = turn' position) (index : Nat) :
    hand turn cards index = hand turn' cards index := by
  have agree : cards.zipIdx.filter (fun card => turn card.2 = index) =
      cards.zipIdx.filter (fun card => turn' card.2 = index) := by
    apply List.filter_congr
    rintro ⟨card, position⟩ member
    have inside := List.snd_lt_of_mem_zipIdx member
    rw [same position (by simpa using inside)]
  rw [hand, agree, hand]

/-- How many of the first `deals` turns fall to `index` when there are `players`. -/
def turns (players deals index : Nat) : Nat := Nat.count (fun turn => turn % players = index) deals

@[simp] theorem turns_zero (players index : Nat) : turns players 0 index = 0 := rfl

theorem turns_succ (players deals index : Nat) :
    turns players (deals + 1) index =
      turns players deals index + if deals % players = index then 1 else 0 :=
  Nat.count_succ _ _

theorem turns_eq {players index : Nat} (plays : index < players) (deals : Nat) :
    turns players deals index = deals / players + if index < deals % players then 1 else 0 := by
  have positive : 0 < players := by omega
  have same_turn : ∀ turn, (turn % players = index) = (turn ≡ index [MOD players]) := by
    intro turn
    rw [Nat.ModEq, Nat.mod_eq_of_lt plays]
  have counted := Nat.count_modEq_card deals positive index
  rw [Nat.mod_eq_of_lt plays] at counted
  rw [← counted, turns]
  simp only [same_turn]

theorem length_hand {α : Type*} (players : Nat) (cards : List α) (index : Nat) :
    (hand (· % players) cards index).length = turns players cards.length index := by
  induction cards using List.reverseRecOn with
  | nil => rfl
  | append_singleton cards card ih =>
      rw [hand_concat, List.length_append, ih, List.length_append, List.length_singleton,
        turns_succ]
      split <;> rfl

end RoundRobin
