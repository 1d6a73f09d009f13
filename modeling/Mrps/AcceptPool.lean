import Mrps.Entries
import Mrps.EventSystem
import Mrps.SharedCounters

/-!
# Threads that take handles from one queue

A process has clients, each with a handle of its own, and a table of open handles.  Threads take new
handles from one queue under a lock and make clients of them in several steps, with every other
thread running in between.  To everybody else the handle that a thread has in its hands is not there
yet: the threads together do what a process does that takes a handle and makes a client of it in one
step.
-/

namespace Mrps

/-! ## Processes whose clients are made at once -/

/-- What threads do to the process they share. -/
structure Registry (σ ε μ φ : Type*) where
  /-- An event of the client at an index. -/
  act : σ → Nat → ε → Option (Except φ σ)
  /-- The open handles. -/
  opened : σ → Finset Nat
  /-- The process with other handles open. -/
  leave : Finset Nat → σ → σ
  /-- The process with a new client for a handle. -/
  register : Nat → μ → σ → σ

/-- What can happen to a process whose clients are made at once. -/
inductive RegistryEvent (ε μ : Type*) where
  /-- A handle is opened and no client is made of it. -/
  | abandon (handle : Nat)
  /-- A handle is opened and a client is made of it. -/
  | grant (handle : Nat) (memory : μ)
  /-- An event of the client at an index. -/
  | act (index : Nat) (event : ε)

namespace Registry

variable {σ ε μ φ : Type*}

/-- One step; a handle that is open is never opened again. -/
def next (registry : Registry σ ε μ φ) (state : σ) :
    RegistryEvent ε μ → Option (Except φ σ)
  | .abandon handle =>
      if handle ∈ registry.opened state then none
      else some (.ok (registry.leave (insert handle (registry.opened state)) state))
  | .grant handle memory =>
      if handle ∈ registry.opened state then none
      else
        some (.ok (registry.leave (insert handle (registry.opened state))
          (registry.register handle memory state)))
  | .act index event => registry.act state index event

/-- The runs of such a process; a fault ends the run. -/
def atomic (registry : Registry σ ε μ φ) :
    EventSystem (Except φ σ) (RegistryEvent ε μ) where
  step state event :=
    match state with
    | .ok process => registry.next process event
    | .error _ => none

/-- The table of open handles is a part of its own, and a client that is in order closes nothing but
handles that clients own. -/
structure Framed (registry : Registry σ ε μ φ) (good : σ → Prop) (owned : σ → Finset Nat) :
    Prop where
  opened_leave : ∀ handles state, registry.opened (registry.leave handles state) = handles
  leave_leave : ∀ handles others state,
    registry.leave handles (registry.leave others state) = registry.leave handles state
  leave_opened : ∀ state, registry.leave (registry.opened state) state = state
  opened_register : ∀ handle memory state,
    registry.opened (registry.register handle memory state) = registry.opened state
  register_leave : ∀ handle memory handles state,
    registry.register handle memory (registry.leave handles state) =
      registry.leave handles (registry.register handle memory state)
  owned_open : ∀ state, good state → owned state ⊆ registry.opened state
  act_closes : ∀ state handles index event result, good (registry.leave handles state) →
    registry.act state index event = some result →
      ∃ after closed, result = .ok after ∧ closed ⊆ owned (registry.leave handles state) ∧
        ∀ others, registry.act (registry.leave others state) index event =
          some (.ok (registry.leave (others \ closed) after))

/-- How many clients a process has. -/
structure Counts (registry : Registry σ ε μ φ) (count : σ → Nat) : Prop where
  leave : ∀ handles state, count (registry.leave handles state) = count state
  register : ∀ handle memory state, count (registry.register handle memory state) = count state + 1
  act : ∀ state index event after, registry.act state index event = some (.ok after) →
    count after = count state

/-- A fault-free process that is in order. -/
def Fine (good : σ → Prop) : Except φ σ → Prop
  | .ok state => good state
  | .error _ => False

/-- A system does what the registry does, under events of its own. -/
def Agrees (registry : Registry σ ε μ φ) {δ : Type*} (whole : EventSystem (Except φ σ) δ)
    (named : RegistryEvent ε μ → δ) : Prop :=
  ∀ state event, registry.atomic.step state event = whole.step state (named event)

section Agreement

variable {registry : Registry σ ε μ φ} {δ : Type*} {whole : EventSystem (Except φ σ) δ}
  {named : RegistryEvent ε μ → δ}

theorem Agrees.preserves (agrees : registry.Agrees whole named) {invariant : Except φ σ → Prop}
    (preserves : whole.Preserves invariant) : registry.atomic.Preserves invariant := by
  intro state event next holds step
  rw [agrees] at step
  exact preserves state _ next holds step

theorem Agrees.run (agrees : registry.Agrees whole named) (state : Except φ σ)
    (events : List (RegistryEvent ε μ)) :
    registry.atomic.run state events = whole.run state (events.map named) := by
  induction events generalizing state with
  | nil => rfl
  | cons event events ih =>
      rw [EventSystem.run_cons, List.map_cons, EventSystem.run_cons, agrees]
      exact Option.bind_congr fun next _ => ih next

theorem Agrees.reachable (agrees : registry.Agrees whole named) {initial state : Except φ σ}
    (reach : registry.atomic.Reachable initial state) : whole.Reachable initial state := by
  obtain ⟨events, execution⟩ := reach
  exact ⟨events.map named, by rw [← agrees.run]; exact execution⟩

end Agreement

end Registry

/-! ## The threads -/

/-- Where a thread is on its way from the queue to a new client of the peer `κ`. -/
inductive Stage (κ : Type*) where
  /-- It runs its clients. -/
  | resting
  /-- It waits for the lock. -/
  | blocked
  /-- It holds the lock. -/
  | locked
  /-- It holds the lock and has its answer. -/
  | answered (result : Option (Nat × κ))
  /-- It gave the lock back and has a new handle. -/
  | taken (handle : Nat) (peer : κ)
  /-- It prepared the handle. -/
  | prepared (handle : Nat) (peer : κ)
  deriving DecidableEq

namespace Stage

variable {κ : Type*}

/-- The thread is between lock and unlock. -/
def Inside : Stage κ → Prop
  | .locked | .answered _ => True
  | .resting | .blocked | .taken _ _ | .prepared _ _ => False

/-- The handle that only this thread knows of, with its peer. -/
def held : Stage κ → Option (Nat × κ)
  | .answered result => result
  | .taken handle peer | .prepared handle peer => some (handle, peer)
  | .resting | .blocked | .locked => none

/-- How many steps the thread is at most away from its clients. -/
def work : Stage κ → Nat
  | .resting => 0
  | .blocked => 5
  | .locked => 4
  | .answered _ => 3
  | .taken _ _ => 2
  | .prepared _ _ => 1

end Stage

/-- The threads, the lock and the queue beside the process. -/
structure AcceptPool (σ κ : Type*) where
  /-- Threads that are still to be started. -/
  unborn : Nat
  /-- The threads that run, in the order of their start. -/
  stages : List (Stage κ)
  /-- The thread that holds the lock. -/
  holder : Option Nat
  /-- Peers that wait to be taken. -/
  queue : List κ
  /-- The thread and the peer of each client, in the order of the clients. -/
  served : List (Nat × κ)
  /-- Peers whose handle was taken and abandoned. -/
  lost : List κ
  process : σ

/-- What can happen to the threads. -/
inductive AcceptPoolEvent (κ ε μ : Type*) where
  /-- Another thread starts. -/
  | spawn
  /-- A peer arrives. -/
  | arrive (peer : κ)
  /-- The thread wants a handle. -/
  | enter (thread : Nat)
  /-- The thread gets the lock. -/
  | lock (thread : Nat)
  /-- The thread gets no handle. -/
  | refuse (thread : Nat)
  /-- The thread gets a new handle for the peer that waited longest. -/
  | take (thread : Nat) (handle : Nat)
  /-- The thread gives the lock back. -/
  | unlock (thread : Nat)
  /-- The thread prepares its handle, or fails to. -/
  | prepare (thread : Nat) (succeeds : Bool)
  /-- The thread makes a client of its handle, or finds no memory. -/
  | register (thread : Nat) (memory : Option μ)
  /-- An event of one of the thread's clients. -/
  | act (thread : Nat) (index : Nat) (event : ε)

namespace AcceptPoolEvent

variable {ε μ κ : Type*}

/-- A step of the thread on its way from the queue to a new client. -/
def Onward (index : Nat) : AcceptPoolEvent κ ε μ → Prop
  | .enter thread | .lock thread | .refuse thread | .take thread _ | .unlock thread
  | .prepare thread _ | .register thread _ => thread = index
  | .spawn | .arrive _ | .act _ _ _ => False

/-- The peer that arrives. -/
def arrived : AcceptPoolEvent κ ε μ → List κ
  | .arrive peer => [peer]
  | .spawn | .enter _ | .lock _ | .refuse _ | .take _ _ | .unlock _ | .prepare _ _
  | .register _ _ | .act _ _ _ => []

/-- Whether a thread fails with the handle it took. -/
def failures : AcceptPoolEvent κ ε μ → Nat
  | .prepare _ false | .register _ none => 1
  | .prepare _ true | .register _ (some _) | .spawn | .arrive _ | .enter _ | .lock _ | .refuse _
  | .take _ _ | .unlock _ | .act _ _ _ => 0

theorem Onward.arrived {index : Nat} {event : AcceptPoolEvent κ ε μ}
    (onward : event.Onward index) : event.arrived = [] := by
  cases event with
  | arrive peer => exact onward.elim
  | _ => rfl

end AcceptPoolEvent

namespace AcceptPool

variable {σ ε μ φ κ : Type*}

/-- The thread at an index moves to another stage. -/
def put (pool : AcceptPool σ κ) (thread : Nat) (stage : Stage κ) : AcceptPool σ κ :=
  { pool with stages := pool.stages.set thread stage }

/-- One step of the threads. -/
def next (registry : Registry σ ε μ φ) (pool : AcceptPool σ κ) :
    AcceptPoolEvent κ ε μ → Option (Except φ (AcceptPool σ κ))
  | .spawn =>
      if pool.unborn = 0 then none
      else some (.ok { pool with unborn := pool.unborn - 1, stages := pool.stages ++ [.resting] })
  | .arrive peer => some (.ok { pool with queue := pool.queue ++ [peer] })
  | .enter thread =>
      match pool.stages[thread]? with
      | some .resting => some (.ok (pool.put thread .blocked))
      | _ => none
  | .lock thread =>
      match pool.stages[thread]?, pool.holder with
      | some .blocked, none => some (.ok { pool.put thread .locked with holder := some thread })
      | _, _ => none
  | .refuse thread =>
      match pool.stages[thread]? with
      | some .locked => some (.ok (pool.put thread (.answered none)))
      | _ => none
  | .take thread handle =>
      match pool.stages[thread]?, pool.queue with
      | some .locked, peer :: rest =>
          if handle ∈ registry.opened pool.process then none
          else
            some (.ok
              { pool.put thread (.answered (some (handle, peer))) with
                queue := rest
                process :=
                  registry.leave (insert handle (registry.opened pool.process)) pool.process })
      | _, _ => none
  | .unlock thread =>
      match pool.stages[thread]? with
      | some (.answered none) => some (.ok { pool.put thread .resting with holder := none })
      | some (.answered (some (handle, peer))) =>
          some (.ok { pool.put thread (.taken handle peer) with holder := none })
      | _ => none
  | .prepare thread succeeds =>
      match pool.stages[thread]? with
      | some (.taken handle peer) =>
          if succeeds then some (.ok (pool.put thread (.prepared handle peer)))
          else some (.ok { pool.put thread .resting with lost := pool.lost ++ [peer] })
      | _ => none
  | .register thread memory =>
      match pool.stages[thread]? with
      | some (.prepared handle peer) =>
          match memory with
          | some memory =>
              some (.ok
                { pool.put thread .resting with
                  served := pool.served ++ [(thread, peer)]
                  process := registry.register handle memory pool.process })
          | none => some (.ok { pool.put thread .resting with lost := pool.lost ++ [peer] })
      | _ => none
  | .act thread index event =>
      match pool.stages[thread]? with
      | some .resting =>
          if (pool.served[index]?.map Prod.fst) = some thread then
            (registry.act pool.process index event).map fun result =>
              result.map fun after => { pool with process := after }
          else none
      | _ => none

/-- The runs of the threads; a fault ends the run. -/
def system (registry : Registry σ ε μ φ) :
    EventSystem (Except φ (AcceptPool σ κ)) (AcceptPoolEvent κ ε μ) where
  step state event :=
    match state with
    | .ok pool => next registry pool event
    | .error _ => none

/-- Nobody has come yet, and the threads are still to be started. -/
def started (threads : Nat) (process : σ) : AcceptPool σ κ where
  unborn := threads
  stages := []
  holder := none
  queue := []
  served := []
  lost := []
  process := process

/-! ## What a thread does to the others -/

/-- The thread alone knows of the handle. -/
def InFlight (pool : AcceptPool σ κ) (thread handle : Nat) : Prop :=
  ∃ stage peer, pool.stages[thread]? = some stage ∧ stage.held = some (handle, peer)

/-- The handles that only threads know of. -/
def flights (pool : AcceptPool σ κ) : Finset Nat :=
  (pool.stages.filterMap fun stage => stage.held.map Prod.fst).toFinset

theorem mem_flights {pool : AcceptPool σ κ} {handle : Nat} :
    handle ∈ pool.flights ↔ ∃ thread, pool.InFlight thread handle := by
  simp only [flights, List.mem_toFinset, List.mem_filterMap, Option.map_eq_some_iff, InFlight]
  constructor
  · rintro ⟨stage, member, ⟨handle', peer⟩, held, rfl⟩
    obtain ⟨thread, found⟩ := List.mem_iff_getElem?.mp member
    exact ⟨thread, stage, peer, found, held⟩
  · rintro ⟨thread, stage, peer, found, held⟩
    exact ⟨stage, List.mem_of_getElem? found, (handle, peer), held, rfl⟩

/-- What a thread's move from one stage to another does to the lock. -/
inductive Moves (pool : AcceptPool σ κ) (thread : Nat) (old new : Stage κ) :
    Option Nat → Prop where
  /-- It stays on its side of the lock. -/
  | stay (same : old.Inside ↔ new.Inside) : Moves pool thread old new pool.holder
  /-- It takes the free lock. -/
  | lock (free : pool.holder = none) (inside : new.Inside) : Moves pool thread old new (some thread)
  /-- It gives the lock back. -/
  | unlock (inside : old.Inside) (outside : ¬ new.Inside) : Moves pool thread old new none

/-- What a thread's move does to the handle in its hands and to the rest of the pool. -/
inductive Carries (registry : Registry σ ε μ φ) (pool after : AcceptPool σ κ) (thread : Nat)
    (old new : Stage κ) : Prop where
  /-- It keeps what it holds. -/
  | keep (held_eq : new.held = old.held) (queue_eq : after.queue = pool.queue)
      (served_eq : after.served = pool.served) (lost_eq : after.lost = pool.lost)
      (process_eq : after.process = pool.process)
  /-- It takes a fresh handle for the first peer of the queue. -/
  | take (handle : Nat) (peer : κ) (old_held : old.held = none)
      (new_held : new.held = some (handle, peer)) (queue_eq : pool.queue = peer :: after.queue)
      (fresh : handle ∉ registry.opened pool.process) (served_eq : after.served = pool.served)
      (lost_eq : after.lost = pool.lost)
      (process_eq : after.process =
        registry.leave (insert handle (registry.opened pool.process)) pool.process)
  /-- It lets its handle go and leaves it open. -/
  | drop (handle : Nat) (peer : κ) (old_held : old.held = some (handle, peer))
      (new_held : new.held = none) (queue_eq : after.queue = pool.queue)
      (served_eq : after.served = pool.served) (lost_eq : after.lost = pool.lost ++ [peer])
      (process_eq : after.process = pool.process)
  /-- It makes a client of its handle. -/
  | serve (handle : Nat) (peer : κ) (memory : μ) (old_held : old.held = some (handle, peer))
      (new_held : new.held = none) (queue_eq : after.queue = pool.queue)
      (served_eq : after.served = pool.served ++ [(thread, peer)])
      (lost_eq : after.lost = pool.lost)
      (process_eq : after.process = registry.register handle memory pool.process)

/-- Everything a step of the threads can do. -/
inductive Steps (registry : Registry σ ε μ φ) (pool : AcceptPool σ κ) :
    AcceptPoolEvent κ ε μ → Except φ (AcceptPool σ κ) → Prop where
  | spawn (left : pool.unborn ≠ 0) :
      Steps registry pool .spawn
        (.ok { pool with unborn := pool.unborn - 1, stages := pool.stages ++ [.resting] })
  | arrive (peer : κ) :
      Steps registry pool (.arrive peer) (.ok { pool with queue := pool.queue ++ [peer] })
  | thread (event : AcceptPoolEvent κ ε μ) (index : Nat) (old new : Stage κ)
      (after : AcceptPool σ κ) (found : pool.stages[index]? = some old)
      (unborn_eq : after.unborn = pool.unborn)
      (stages_eq : after.stages = pool.stages.set index new)
      (onward : event.Onward index) (less : new.work < old.work ∨ event = .enter index)
      (lost_length : after.lost.length = pool.lost.length + event.failures)
      (moves : pool.Moves index old new after.holder)
      (carries : Carries registry pool after index old new) : Steps registry pool event (.ok after)
  | act (index position : Nat) (event : ε) (result : Except φ σ)
      (found : pool.stages[index]? = some .resting)
      (mine : pool.served[position]?.map Prod.fst = some index)
      (acted : registry.act pool.process position event = some result) :
      Steps registry pool (.act index position event)
        (result.map fun after => { pool with process := after })

theorem steps_of_next {registry : Registry σ ε μ φ} {pool : AcceptPool σ κ}
    {event : AcceptPoolEvent κ ε μ} {result : Except φ (AcceptPool σ κ)}
    (step : next registry pool event = some result) : Steps registry pool event result := by
  cases event with
  | spawn =>
      rw [next, Option.ite_none_left_eq_some] at step
      obtain ⟨left, spawned⟩ := step
      obtain rfl := Option.some.inj spawned
      exact .spawn left
  | arrive peer =>
      obtain rfl := Option.some.inj step
      exact .arrive peer
  | enter thread =>
      simp only [next] at step
      split at step
      · rename_i found
        obtain rfl := Option.some.inj step
        exact .thread _ thread .resting .blocked _ found rfl rfl rfl (.inr rfl) rfl (.stay Iff.rfl)
          (.keep rfl rfl rfl rfl rfl)
      · simp at step
  | lock thread =>
      simp only [next] at step
      split at step
      · rename_i found free
        obtain rfl := Option.some.inj step
        exact .thread _ thread .blocked .locked _ found rfl rfl rfl
          (.inl (by simp [Stage.work])) (by simp [put, AcceptPoolEvent.failures])
          (.lock free trivial) (.keep rfl rfl rfl rfl rfl)
      · simp at step
  | refuse thread =>
      simp only [next] at step
      split at step
      · rename_i found
        obtain rfl := Option.some.inj step
        exact .thread _ thread .locked (.answered none) _ found rfl rfl rfl
          (.inl (by simp [Stage.work])) (by simp [put, AcceptPoolEvent.failures])
          (.stay Iff.rfl) (.keep rfl rfl rfl rfl rfl)
      · simp at step
  | take thread handle =>
      simp only [next] at step
      split at step
      · rename_i peer rest found waiting
        rw [Option.ite_none_left_eq_some] at step
        obtain ⟨fresh, taken⟩ := step
        obtain rfl := Option.some.inj taken
        exact .thread _ thread .locked (.answered (some (handle, peer))) _ found rfl rfl rfl
          (.inl (by simp [Stage.work])) (by simp [put, AcceptPoolEvent.failures]) (.stay Iff.rfl)
          (.take handle peer rfl rfl waiting fresh rfl rfl rfl)
      · simp at step
  | unlock thread =>
      simp only [next] at step
      split at step
      · rename_i found
        obtain rfl := Option.some.inj step
        exact .thread _ thread (.answered none) .resting _ found rfl rfl rfl
          (.inl (by simp [Stage.work])) (by simp [put, AcceptPoolEvent.failures])
          (.unlock trivial id) (.keep rfl rfl rfl rfl rfl)
      · rename_i handle peer found
        obtain rfl := Option.some.inj step
        exact .thread _ thread (.answered (some (handle, peer))) (.taken handle peer) _ found rfl
          rfl rfl (.inl (by simp [Stage.work])) (by simp [put, AcceptPoolEvent.failures])
          (.unlock trivial id) (.keep rfl rfl rfl rfl rfl)
      · simp at step
  | prepare thread succeeds =>
      simp only [next] at step
      split at step
      · rename_i handle peer found
        cases succeeds with
        | true =>
            obtain rfl := Option.some.inj step
            exact .thread _ thread (.taken handle peer) (.prepared handle peer) _ found rfl rfl rfl
              (.inl (by simp [Stage.work])) (by simp [put, AcceptPoolEvent.failures])
              (.stay Iff.rfl) (.keep rfl rfl rfl rfl rfl)
        | false =>
            obtain rfl := Option.some.inj step
            exact .thread _ thread (.taken handle peer) .resting _ found rfl rfl rfl
              (.inl (by simp [Stage.work])) (by simp [AcceptPoolEvent.failures]) (.stay Iff.rfl)
              (.drop handle peer rfl rfl rfl rfl rfl rfl)
      · simp at step
  | register thread memory =>
      simp only [next] at step
      split at step
      · rename_i handle peer found
        cases memory with
        | some memory =>
            obtain rfl := Option.some.inj step
            exact .thread _ thread (.prepared handle peer) .resting _ found rfl rfl rfl
              (.inl (by simp [Stage.work])) (by simp [put, AcceptPoolEvent.failures])
              (.stay Iff.rfl)
              (.serve handle peer memory rfl rfl rfl rfl rfl rfl)
        | none =>
            obtain rfl := Option.some.inj step
            exact .thread _ thread (.prepared handle peer) .resting _ found rfl rfl rfl
              (.inl (by simp [Stage.work])) (by simp [AcceptPoolEvent.failures]) (.stay Iff.rfl)
              (.drop handle peer rfl rfl rfl rfl rfl rfl)
      · simp at step
  | act thread index event =>
      simp only [next] at step
      split at step
      · rename_i found
        rw [Option.ite_none_right_eq_some] at step
        obtain ⟨mine, mapped⟩ := step
        obtain ⟨answer, acted, rfl⟩ := Option.map_eq_some_iff.mp mapped
        exact .act thread index event answer found mine acted
      · simp at step

/-! ## The lock -/

/-- The lock's holder is the thread inside. -/
def Exclusive (pool : AcceptPool σ κ) : Prop :=
  ∀ thread, pool.holder = some thread ↔ ∃ stage, pool.stages[thread]? = some stage ∧ stage.Inside

theorem Exclusive.moves {pool : AcceptPool σ κ} {thread : Nat} {old new : Stage κ}
    {holder : Option Nat} (exclusive : pool.Exclusive) (found : pool.stages[thread]? = some old)
    (moves : pool.Moves thread old new holder) (other : Nat) :
    holder = some other ↔
      ∃ stage, (pool.stages.set thread new)[other]? = some stage ∧ stage.Inside := by
  by_cases same : other = thread
  · subst same
    have inside := (List.getElem?_eq_some_iff.mp found).1
    have before := exclusive other
    simp only [found, Option.some.injEq, exists_eq_left'] at before
    simp only [List.getElem?_set_self inside, Option.some.injEq, exists_eq_left']
    cases moves with
    | stay same => rw [before, same]
    | lock free inside => exact iff_of_true rfl inside
    | unlock inside outside => exact iff_of_false (by simp) outside
  · rw [List.getElem?_set_ne (Ne.symm same), ← exclusive other]
    cases moves with
    | stay => exact Iff.rfl
    | lock free inside => simp [free, Ne.symm same]
    | unlock inside outside =>
        have holds : pool.holder = some thread := (exclusive thread).mpr ⟨old, found, inside⟩
        simp [holds, Ne.symm same]

theorem exclusive_started (threads : Nat) (process : σ) :
    (started threads process : AcceptPool σ κ).Exclusive := by
  intro thread
  simp [started]

theorem Steps.exclusive {registry : Registry σ ε μ φ} {pool after : AcceptPool σ κ}
    {event : AcceptPoolEvent κ ε μ} (steps : Steps registry pool event (.ok after))
    (exclusive : pool.Exclusive) : after.Exclusive := by
  generalize result_eq : (Except.ok after : Except φ (AcceptPool σ κ)) = result at steps
  cases steps with
  | spawn =>
      obtain rfl := Except.ok.inj result_eq
      intro thread
      rw [exclusive thread]
      refine exists_congr fun stage => ?_
      constructor
      · rintro ⟨found, inside⟩
        refine ⟨?_, inside⟩
        rw [List.getElem?_append_left (List.getElem?_eq_some_iff.mp found).1]
        exact found
      · rintro ⟨found, inside⟩
        rcases getElem?_concat_cases found with old | ⟨-, rfl⟩
        · exact ⟨old, inside⟩
        · exact inside.elim
  | arrive =>
      obtain rfl := Except.ok.inj result_eq
      exact exclusive
  | thread _ index old new _ found _ stages_eq _ _ _ moves _ =>
      obtain rfl := Except.ok.inj result_eq
      intro thread
      rw [stages_eq]
      exact exclusive.moves found moves thread
  | act index position event result found mine acted =>
      cases result with
      | error fault => cases result_eq
      | ok process =>
          obtain rfl := Except.ok.inj result_eq
          exact exclusive

/-! ## Handles in flight -/

section Flights

variable {pool after : AcceptPool σ κ} {thread : Nat} {old new : Stage κ}

theorem inFlight_moved (found : pool.stages[thread]? = some old)
    (stages_eq : after.stages = pool.stages.set thread new) (other handle : Nat) :
    after.InFlight other handle ↔
      (other = thread ∧ ∃ peer, new.held = some (handle, peer)) ∨
        other ≠ thread ∧ pool.InFlight other handle := by
  have inside := (List.getElem?_eq_some_iff.mp found).1
  by_cases same : other = thread
  · subst same
    simp [InFlight, stages_eq, List.getElem?_set_self inside]
  · simp [InFlight, stages_eq, List.getElem?_set_ne (Ne.symm same), same]

theorem inFlight_here (found : pool.stages[thread]? = some old) (handle : Nat) :
    pool.InFlight thread handle ↔ ∃ peer, old.held = some (handle, peer) := by
  simp [InFlight, found]

theorem inFlight_spawned {unborn : Nat} (other handle : Nat) :
    InFlight { pool with unborn := unborn, stages := pool.stages ++ [.resting] } other handle ↔
      pool.InFlight other handle := by
  refine exists_congr fun stage => exists_congr fun peer => ?_
  constructor
  · rintro ⟨found, held⟩
    rcases getElem?_concat_cases found with there | ⟨-, rfl⟩
    · exact ⟨there, held⟩
    · simp [Stage.held] at held
  · rintro ⟨found, held⟩
    refine ⟨?_, held⟩
    rw [List.getElem?_append_left (List.getElem?_eq_some_iff.mp found).1]
    exact found

theorem flights_congr (same : ∀ other handle, after.InFlight other handle ↔
    pool.InFlight other handle) : after.flights = pool.flights := by
  ext handle
  simp only [mem_flights, same]

end Flights

/-- The process as everybody else sees it: without the handles in flight. -/
def shown (registry : Registry σ ε μ φ) (pool : AcceptPool σ κ) : σ :=
  registry.leave (registry.opened pool.process \ pool.flights) pool.process

/-- Each handle in flight is open and held by one thread, and without them the process is in
order. -/
structure Airborne (registry : Registry σ ε μ φ) (good : σ → Prop) (pool : AcceptPool σ κ) :
    Prop where
  once : ∀ left right handle, pool.InFlight left handle → pool.InFlight right handle → left = right
  is_open : ∀ thread handle, pool.InFlight thread handle →
    handle ∈ registry.opened pool.process
  good : good (pool.shown registry)

section Atomicity

variable {registry : Registry σ ε μ φ} {good : σ → Prop} {owned : σ → Finset Nat}
  {pool after : AcceptPool σ κ} {thread : Nat} {old new : Stage κ}

theorem Airborne.unchanged (airborne : Airborne registry good pool)
    (same : ∀ other handle, after.InFlight other handle ↔ pool.InFlight other handle)
    (process_eq : after.process = pool.process) :
    Airborne registry good after ∧ after.shown registry = pool.shown registry := by
  have shown_eq : after.shown registry = pool.shown registry := by
    rw [shown, shown, process_eq, flights_congr same]
  refine ⟨⟨?_, ?_, shown_eq ▸ airborne.good⟩, shown_eq⟩
  · intro left right handle flies flies'
    exact airborne.once left right handle ((same _ _).mp flies) ((same _ _).mp flies')
  · intro other handle flies
    rw [process_eq]
    exact airborne.is_open other handle ((same _ _).mp flies)

theorem Airborne.landed (airborne : Airborne registry good pool) {handle : Nat} {peer : κ}
    (found : pool.stages[thread]? = some old) (old_held : old.held = some (handle, peer))
    (stages_eq : after.stages = pool.stages.set thread new) (new_held : new.held = none) :
    (∀ other handle, after.InFlight other handle → pool.InFlight other handle) ∧
      handle ∉ registry.opened pool.process \ pool.flights ∧
      registry.opened pool.process \ after.flights =
        insert handle (registry.opened pool.process \ pool.flights) := by
  have flies : pool.InFlight thread handle := (inFlight_here found handle).mpr ⟨peer, old_held⟩
  have flies_iff : ∀ other handle', after.InFlight other handle' ↔
      other ≠ thread ∧ pool.InFlight other handle' := by
    intro other handle'
    rw [inFlight_moved found stages_eq, new_held]
    simp
  have landed_iff : ∀ handle', handle' ∈ after.flights ↔
      handle' ∈ pool.flights ∧ handle' ≠ handle := by
    intro handle'
    simp only [mem_flights, flies_iff]
    constructor
    · rintro ⟨other, different, flies'⟩
      refine ⟨⟨other, flies'⟩, ?_⟩
      rintro rfl
      exact different (airborne.once other thread handle' flies' flies)
    · rintro ⟨⟨other, flies'⟩, different⟩
      refine ⟨other, ?_, flies'⟩
      rintro rfl
      obtain ⟨peer', held'⟩ := (inFlight_here found handle').mp flies'
      rw [old_held] at held'
      simp only [Option.some.injEq, Prod.mk.injEq] at held'
      exact different held'.1.symm
  refine ⟨fun other handle' flies' => ((flies_iff other handle').mp flies').2, ?_, ?_⟩
  · simp only [Finset.mem_sdiff, not_and, not_not]
    exact fun _ => mem_flights.mpr ⟨thread, flies⟩
  · ext handle'
    simp only [Finset.mem_sdiff, Finset.mem_insert, landed_iff]
    have opened := airborne.is_open thread handle flies
    by_cases same : handle' = handle
    · simp [same, opened]
    · simp [same]

/-- A thread's step on the way to a client shows nothing, or shows a handle that is opened and
abandoned or made a client of. -/
theorem Airborne.carried (framed : registry.Framed good owned)
    (preserves : registry.atomic.Preserves (Registry.Fine good))
    (airborne : Airborne registry good pool) (found : pool.stages[thread]? = some old)
    (stages_eq : after.stages = pool.stages.set thread new)
    (carries : Carries registry pool after thread old new) :
    Airborne registry good after ∧ ∃ events,
      registry.atomic.run (.ok (pool.shown registry)) events =
        some (.ok (after.shown registry)) := by
  have lands : ∀ {handle peer}, old.held = some (handle, peer) → new.held = none →
      registry.opened after.process = registry.opened pool.process →
      ∀ event : RegistryEvent ε μ,
        registry.next (pool.shown registry) event = some (.ok (after.shown registry)) →
          Airborne registry good after ∧ ∃ events,
            registry.atomic.run (.ok (pool.shown registry)) events =
              some (.ok (after.shown registry)) := by
    intro handle peer old_held new_held opened_eq event step
    obtain ⟨flies_before, -, -⟩ := airborne.landed found old_held stages_eq new_held
    have fine := preserves (.ok (pool.shown registry)) event _ airborne.good step
    refine ⟨⟨?_, ?_, fine⟩, [event], ?_⟩
    · intro left right handle' flies flies'
      exact airborne.once left right handle' (flies_before _ _ flies) (flies_before _ _ flies')
    · intro other handle' flies
      rw [opened_eq]
      exact airborne.is_open other handle' (flies_before _ _ flies)
    · simpa [Registry.atomic] using step
  cases carries with
  | keep held_eq queue_eq served_eq lost_eq process_eq =>
      have same : ∀ other handle, after.InFlight other handle ↔ pool.InFlight other handle := by
        intro other handle
        rw [inFlight_moved found stages_eq, held_eq, ← inFlight_here found]
        constructor
        · rintro (⟨rfl, flies⟩ | ⟨-, flies⟩) <;> exact flies
        · intro flies
          by_cases here : other = thread
          · exact Or.inl ⟨here, here ▸ flies⟩
          · exact Or.inr ⟨here, flies⟩
      obtain ⟨airborne', shown_eq⟩ := airborne.unchanged same process_eq
      exact ⟨airborne', [], by rw [shown_eq]; rfl⟩
  | take handle peer old_held new_held queue_eq fresh served_eq lost_eq process_eq =>
      have flies_iff : ∀ other handle', after.InFlight other handle' ↔
          (other = thread ∧ handle' = handle) ∨ pool.InFlight other handle' := by
        intro other handle'
        rw [inFlight_moved found stages_eq, new_held]
        by_cases here : other = thread
        · subst here
          simp [inFlight_here found, old_held, eq_comm]
        · simp [here]
      have grounded : ∀ other, ¬ pool.InFlight other handle := by
        intro other flies
        exact fresh (airborne.is_open other handle flies)
      have opened_eq : registry.opened after.process =
          insert handle (registry.opened pool.process) := by
        rw [process_eq, framed.opened_leave]
      have flights_eq : after.flights = insert handle pool.flights := by
        ext handle'
        simp [mem_flights, flies_iff, exists_or]
      have shown_eq : after.shown registry = pool.shown registry := by
        have hidden_eq : insert handle (registry.opened pool.process) \
            insert handle pool.flights = registry.opened pool.process \ pool.flights := by
          rw [Finset.insert_sdiff_insert, Finset.sdiff_insert_of_notMem fresh]
        rw [shown, shown, flights_eq, opened_eq, process_eq, framed.leave_leave, hidden_eq]
      refine ⟨⟨?_, ?_, shown_eq ▸ airborne.good⟩, [], by rw [shown_eq]; rfl⟩
      · intro left right handle' flies flies'
        rcases (flies_iff left handle').mp flies with ⟨left_eq, handle_eq⟩ | old_flies <;>
          rcases (flies_iff right handle').mp flies' with ⟨right_eq, handle_eq'⟩ | old_flies'
        · rw [left_eq, right_eq]
        · exact (grounded right (handle_eq ▸ old_flies')).elim
        · exact (grounded left (handle_eq' ▸ old_flies)).elim
        · exact airborne.once left right handle' old_flies old_flies'
      · intro other handle' flies
        rw [opened_eq]
        rcases (flies_iff other handle').mp flies with ⟨-, rfl⟩ | old_flies
        · exact Finset.mem_insert_self _ _
        · exact Finset.mem_insert_of_mem (airborne.is_open other handle' old_flies)
  | drop handle peer old_held new_held queue_eq served_eq lost_eq process_eq =>
      obtain ⟨-, unknown, opened_eq⟩ := airborne.landed found old_held stages_eq new_held
      refine lands old_held new_held (by rw [process_eq]) (.abandon handle) ?_
      rw [Registry.next, shown, framed.opened_leave, if_neg unknown, framed.leave_leave, shown,
        process_eq, opened_eq]
  | serve handle peer memory old_held new_held queue_eq served_eq lost_eq process_eq =>
      obtain ⟨-, unknown, opened_eq⟩ := airborne.landed found old_held stages_eq new_held
      have table_eq : registry.opened after.process = registry.opened pool.process := by
        rw [process_eq, framed.opened_register]
      refine lands old_held new_held table_eq (.grant handle memory) ?_
      rw [Registry.next, shown, framed.opened_leave, if_neg unknown, framed.register_leave,
        framed.leave_leave, shown, table_eq, process_eq, opened_eq]

theorem Airborne.acted (framed : registry.Framed good owned)
    (preserves : registry.atomic.Preserves (Registry.Fine good))
    (airborne : Airborne registry good pool) {index : Nat} {event : ε} {result : Except φ σ}
    (acted : registry.act pool.process index event = some result) :
    ∃ process, result = .ok process ∧
      Airborne registry good { pool with process } ∧
      registry.atomic.step (.ok (pool.shown registry)) (.act index event) =
        some (.ok (shown registry { pool with process })) := by
  obtain ⟨process, closed, rfl, closed_owned, frame⟩ :=
    framed.act_closes pool.process _ index event result airborne.good acted
  have process_eq : process =
      registry.leave (registry.opened pool.process \ closed) process := by
    have whole := frame (registry.opened pool.process)
    rw [framed.leave_opened, acted] at whole
    simpa using whole
  have opened_eq : registry.opened process = registry.opened pool.process \ closed := by
    rw [process_eq, framed.opened_leave]
  have shown_eq : shown registry { pool with process } =
      registry.leave ((registry.opened pool.process \ pool.flights) \ closed) process := by
    have flights_eq : flights { pool with process } = pool.flights := rfl
    rw [shown, flights_eq, opened_eq, sdiff_right_comm]
  have step : registry.atomic.step (.ok (pool.shown registry)) (.act index event) =
      some (.ok (shown registry { pool with process })) := by
    rw [shown_eq]
    exact frame _
  have closed_shown : closed ⊆ registry.opened pool.process \ pool.flights := by
    have opened_owned := framed.owned_open _ airborne.good
    rw [shown, framed.opened_leave] at opened_owned
    exact closed_owned.trans opened_owned
  refine ⟨process, rfl,
    ⟨airborne.once, ?_, preserves (.ok (pool.shown registry)) _ _ airborne.good step⟩,
    step⟩
  intro other handle flies
  have flies' : pool.InFlight other handle := flies
  have kept : handle ∉ closed := by
    intro inside
    have grounded := (Finset.mem_sdiff.mp (closed_shown inside)).2
    exact grounded (mem_flights.mpr ⟨other, flies'⟩)
  rw [opened_eq]
  exact Finset.mem_sdiff.mpr ⟨airborne.is_open other handle flies', kept⟩

/-- Every step of the threads is free of faults, and to everybody else it is no step or one step of
the process whose clients are made at once. -/
theorem Airborne.steps (framed : registry.Framed good owned)
    (preserves : registry.atomic.Preserves (Registry.Fine good))
    (airborne : Airborne registry good pool) {event : AcceptPoolEvent κ ε μ}
    {result : Except φ (AcceptPool σ κ)} (steps : Steps registry pool event result) :
    ∃ after, result = .ok after ∧ Airborne registry good after ∧ ∃ events,
      registry.atomic.run (.ok (pool.shown registry)) events =
        some (.ok (after.shown registry)) := by
  cases steps with
  | spawn =>
      obtain ⟨airborne', shown_eq⟩ := airborne.unchanged
        (@inFlight_spawned _ _ pool (pool.unborn - 1)) rfl
      exact ⟨_, rfl, airborne', [], by rw [shown_eq]; rfl⟩
  | arrive peer =>
      obtain ⟨airborne', shown_eq⟩ := @Airborne.unchanged _ _ _ _ _ _ _ _
        { pool with queue := pool.queue ++ [peer] } airborne (fun _ _ => Iff.rfl) rfl
      exact ⟨_, rfl, airborne', [], by rw [shown_eq]; rfl⟩
  | thread _ index old new after found _ stages_eq _ _ _ _ carries =>
      exact ⟨after, rfl, airborne.carried framed preserves found stages_eq carries⟩
  | act index position event result _ _ acted =>
      obtain ⟨process, rfl, airborne', step⟩ := airborne.acted framed preserves acted
      exact ⟨_, rfl, airborne', [.act position event], by rw [EventSystem.run_cons, step]; rfl⟩

end Atomicity

/-! ## Runs of the threads -/

/-- What holds of the pool in every state, and the process that makes its clients at once. -/
structure Shadowed (registry : Registry σ ε μ φ) (good : σ → Prop) (pool : AcceptPool σ κ)
    (shadow : Except φ σ) : Prop where
  exclusive : pool.Exclusive
  airborne : Airborne registry good pool
  shadow_eq : shadow = .ok (pool.shown registry)

/-- A fault-free pool with its shadow. -/
def Related (registry : Registry σ ε μ φ) (good : σ → Prop) :
    Except φ (AcceptPool σ κ) → Except φ σ → Prop
  | .ok pool, shadow => Shadowed registry good pool shadow
  | .error _, _ => False

section Runs

variable {registry : Registry σ ε μ φ} {good : σ → Prop} {owned : σ → Finset Nat}

/-- The threads refine the process that makes its clients at once. -/
theorem simulation (framed : registry.Framed good owned)
    (preserves : registry.atomic.Preserves (Registry.Fine good)) :
    EventSystem.Simulation (@system σ ε μ φ κ registry) registry.atomic
      (Related registry good) := by
  intro state event next shadow related step
  cases state with
  | error fault => exact related.elim
  | ok pool =>
      obtain ⟨exclusive, airborne, rfl⟩ : Shadowed registry good pool shadow := related
      have steps := steps_of_next step
      obtain ⟨after, rfl, airborne', events, run⟩ := airborne.steps framed preserves steps
      exact ⟨events, _, run, steps.exclusive exclusive, airborne', rfl⟩

theorem related_started (framed : registry.Framed good owned) (threads : Nat) {process : σ}
    (good_process : good process) :
    Related registry good (.ok (started threads process : AcceptPool σ κ)) (.ok process) := by
  have grounded : ∀ thread handle,
      ¬ (started threads process : AcceptPool σ κ).InFlight thread handle := by
    intro thread handle
    simp [InFlight, started]
  have flights_eq : (started threads process : AcceptPool σ κ).flights = ∅ := by
    simp [flights, started]
  have shown_eq : shown registry (started threads process : AcceptPool σ κ) = process := by
    rw [shown, flights_eq, Finset.sdiff_empty]
    exact framed.leave_opened process
  refine ⟨exclusive_started threads process, ⟨?_, ?_, ?_⟩, by rw [shown_eq]⟩
  · intro left right handle flies
    exact (grounded left handle flies).elim
  · intro thread handle flies
    exact (grounded thread handle flies).elim
  · rw [shown_eq]
    exact good_process

/-- Every state the threads reach is free of faults, and what it shows is reached by a process that
makes its clients at once. -/
theorem reachable_shadowed (framed : registry.Framed good owned)
    (preserves : registry.atomic.Preserves (Registry.Fine good)) {threads : Nat} {process : σ}
    (good_process : good process) {state : Except φ (AcceptPool σ κ)}
    (reach : (system registry).Reachable (.ok (started threads process)) state) :
    ∃ pool, state = .ok pool ∧ pool.Exclusive ∧ Airborne registry good pool ∧
      registry.atomic.Reachable (.ok process) (.ok (pool.shown registry)) := by
  obtain ⟨events, execution⟩ := reach
  obtain ⟨shadowEvents, shadow, shadow_run, related⟩ :=
    (simulation framed preserves).run (related_started framed threads good_process) execution
  cases state with
  | error fault => exact related.elim
  | ok pool =>
      obtain ⟨exclusive, airborne, rfl⟩ : Shadowed registry good pool shadow := related
      exact ⟨pool, rfl, exclusive, airborne, shadowEvents, shadow_run⟩

end Runs

end AcceptPool

end Mrps
