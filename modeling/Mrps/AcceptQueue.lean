import Mrps.AcceptPool

/-!
# What becomes of the peers

Every peer that arrived at a pool of threads waits in the queue, is in the hands of one thread, is
served by one thread or was let go by a thread that failed.  The threads' own steps come to an end
under every schedule, and none of them ever waits for a lock that nobody gives back.
-/

namespace Mrps

namespace AcceptPool

variable {σ ε μ φ κ : Type*}

/-! ## Every peer is somewhere -/

/-- The peers in the hands of threads. -/
def peers (pool : AcceptPool σ κ) : List κ :=
  pool.stages.filterMap fun stage => stage.held.map Prod.snd

/-- Every peer of the pool, wherever it is. -/
def whereabouts (pool : AcceptPool σ κ) : Multiset κ :=
  (pool.served.map Prod.snd : List κ) + pool.lost + pool.peers + pool.queue

theorem filterMap_cons_toList {α β : Type*} (view : α → Option β) (member : α)
    (members : List α) :
    (member :: members).filterMap view = (view member).toList ++ members.filterMap view := by
  cases held : view member <;> simp [held]

theorem filterMap_set {α β : Type*} (view : α → Option β) {members : List α} {index : Nat}
    {old : α} (found : members[index]? = some old) (new : α) :
    ((members.set index new).filterMap view : Multiset β) + (view old).toList =
      (members.filterMap view : Multiset β) + (view new).toList := by
  induction members generalizing index with
  | nil => simp at found
  | cons member members ih =>
      cases index with
      | zero =>
          obtain rfl : member = old := by simpa using found
          rw [List.set_cons_zero, filterMap_cons_toList, filterMap_cons_toList,
            ← Multiset.coe_add, ← Multiset.coe_add]
          abel
      | succ index =>
          have rest := @ih index (by simpa using found)
          rw [List.set_cons_succ, filterMap_cons_toList, filterMap_cons_toList,
            ← Multiset.coe_add, ← Multiset.coe_add, add_assoc, rest, add_assoc]

theorem Carries.whereabouts {registry : Registry σ ε μ φ} {pool after : AcceptPool σ κ}
    {thread : Nat} {old new : Stage κ} (carries : Carries registry pool after thread old new)
    (found : pool.stages[thread]? = some old)
    (stages_eq : after.stages = pool.stages.set thread new) :
    after.whereabouts = pool.whereabouts := by
  have moved := filterMap_set (fun stage : Stage κ => stage.held.map Prod.snd) found new
  rw [← stages_eq] at moved
  cases carries with
  | keep held_eq queue_eq served_eq lost_eq process_eq =>
      rw [held_eq] at moved
      have peers_eq : (after.peers : Multiset κ) = pool.peers := add_right_cancel moved
      rw [AcceptPool.whereabouts, AcceptPool.whereabouts, served_eq, lost_eq, queue_eq, peers_eq]
  | take handle peer old_held new_held queue_eq fresh served_eq lost_eq process_eq =>
      have peers_eq : (after.peers : Multiset κ) = pool.peers + {peer} := by
        simpa [peers, old_held, new_held] using moved
      rw [AcceptPool.whereabouts, AcceptPool.whereabouts, served_eq, lost_eq, queue_eq, peers_eq,
        ← Multiset.cons_coe, ← Multiset.singleton_add]
      abel
  | drop handle peer old_held new_held queue_eq served_eq lost_eq process_eq =>
      have peers_eq : (after.peers : Multiset κ) + {peer} = pool.peers := by
        simpa [peers, old_held, new_held] using moved
      rw [AcceptPool.whereabouts, AcceptPool.whereabouts, served_eq, lost_eq, queue_eq, ← peers_eq,
        ← Multiset.coe_add, Multiset.coe_singleton]
      abel
  | serve handle peer memory old_held new_held queue_eq served_eq lost_eq process_eq =>
      have peers_eq : (after.peers : Multiset κ) + {peer} = pool.peers := by
        simpa [peers, old_held, new_held] using moved
      rw [AcceptPool.whereabouts, AcceptPool.whereabouts, served_eq, lost_eq, queue_eq, ← peers_eq,
        List.map_append, ← Multiset.coe_add, List.map_singleton, Multiset.coe_singleton]
      abel

/-- A step adds the peer that arrives, and no step loses one. -/
theorem Steps.whereabouts {registry : Registry σ ε μ φ} {pool after : AcceptPool σ κ}
    {event : AcceptPoolEvent κ ε μ} (steps : Steps registry pool event (.ok after)) :
    after.whereabouts = pool.whereabouts + event.arrived ∧
      after.lost.length = pool.lost.length + event.failures := by
  generalize result_eq : (Except.ok after : Except φ (AcceptPool σ κ)) = result at steps
  cases steps with
  | spawn =>
      obtain rfl := Except.ok.inj result_eq
      simp [AcceptPool.whereabouts, peers, Stage.held, AcceptPoolEvent.arrived,
        AcceptPoolEvent.failures]
  | arrive peer =>
      obtain rfl := Except.ok.inj result_eq
      simp only [AcceptPool.whereabouts, peers, AcceptPoolEvent.arrived, ← Multiset.coe_add,
        add_assoc, AcceptPoolEvent.failures, add_zero, and_self]
  | thread _ index old new _ found _ stages_eq onward _ lost_length _ carries =>
      obtain rfl := Except.ok.inj result_eq
      rw [onward.arrived, Multiset.coe_nil, add_zero]
      exact ⟨carries.whereabouts found stages_eq, lost_length⟩
  | act index position event result found mine acted =>
      cases result with
      | error fault => cases result_eq
      | ok process =>
          obtain rfl := Except.ok.inj result_eq
          simp [AcceptPool.whereabouts, peers, AcceptPoolEvent.arrived, AcceptPoolEvent.failures]

/-- Every peer that arrived is in exactly one place, and one was let go for each failure. -/
theorem arrivals_accounted {registry : Registry σ ε μ φ} {threads : Nat} {process : σ}
    {events : List (AcceptPoolEvent κ ε μ)} {pool : AcceptPool σ κ}
    (execution : (system registry).run (.ok (started threads process)) events = some (.ok pool)) :
    (events.flatMap AcceptPoolEvent.arrived : Multiset κ) = pool.whereabouts ∧
      pool.lost.length = (events.map AcceptPoolEvent.failures).sum := by
  have holds := @EventSystem.run_history _ _ (system registry)
    (fun front state => ∀ reached, state = .ok reached →
      (front.flatMap AcceptPoolEvent.arrived : Multiset κ) = reached.whereabouts ∧
        reached.lost.length = (front.map AcceptPoolEvent.failures).sum)
    (.ok (started threads process)) (.ok pool) events ?_ ?_ execution
  · exact holds pool rfl
  · rintro reached reached_eq
    obtain rfl := Except.ok.inj reached_eq
    simp [started, whereabouts, peers]
  · rintro front state event next - here step reached rfl
    cases state with
    | error fault => simp [system] at step
    | ok before =>
        obtain ⟨gathered, counted⟩ := here before rfl
        obtain ⟨gathers, counts⟩ := (steps_of_next step).whereabouts
        rw [List.flatMap_append, ← Multiset.coe_add, gathered, gathers, counts, counted]
        simp

/-! ## Every thread gets back to its clients -/

/-- The steps that all threads together are at most away from their clients. -/
def work (pool : AcceptPool σ κ) : Int :=
  SharedCounters.total (fun stage : Stage κ => stage.work) pool.stages

/-- Every thread runs its clients. -/
def Rests (pool : AcceptPool σ κ) : Prop := ∀ stage ∈ pool.stages, stage = .resting

/-- A thread's own step, other than to want a handle. -/
def Hastens (event : AcceptPoolEvent κ ε μ) : Prop :=
  ∃ index, event.Onward index ∧ event ≠ .enter index

theorem work_nonneg (pool : AcceptPool σ κ) : 0 ≤ pool.work :=
  SharedCounters.total_nonneg fun _ _ => Int.natCast_nonneg _

theorem work_le (pool : AcceptPool σ κ) : pool.work ≤ 5 * pool.stages.length := by
  have each : ∀ stage ∈ pool.stages, (stage.work : Int) ≤ 5 := by
    intro stage _
    cases stage <;> simp [Stage.work]
  have bound := SharedCounters.total_mono each
  simpa [SharedCounters.total, work, mul_comm] using bound

theorem Steps.work {registry : Registry σ ε μ φ} {pool after : AcceptPool σ κ}
    {event : AcceptPoolEvent κ ε μ} (steps : Steps registry pool event (.ok after))
    (hastens : Hastens event) : after.work + 1 ≤ pool.work := by
  obtain ⟨thread, onward, enters⟩ := hastens
  generalize result_eq : (Except.ok after : Except φ (AcceptPool σ κ)) = result at steps
  cases steps with
  | spawn => exact onward.elim
  | arrive peer => exact onward.elim
  | thread _ index old new _ found _ stages_eq own less _ _ _ =>
      obtain rfl := Except.ok.inj result_eq
      have less' : new.work < old.work := by
        rcases less with less | rfl
        · exact less
        · exact (enters (congrArg AcceptPoolEvent.enter onward)).elim
      have changed := SharedCounters.total_set (fun stage : Stage κ => (stage.work : Int)) found new
      rw [AcceptPool.work, AcceptPool.work, stages_eq, changed]
      omega
  | act => exact onward.elim

theorem Exclusive.progress (registry : Registry σ ε μ φ) {pool : AcceptPool σ κ}
    (exclusive : pool.Exclusive) (busy : ¬ pool.Rests) :
    ∃ event, Hastens event ∧ ∃ after, next registry pool event = some (.ok after) := by
  cases holds : pool.holder with
  | some thread =>
      obtain ⟨stage, found, inside⟩ := (exclusive thread).mp holds
      cases stage with
      | locked =>
          refine ⟨.refuse thread, ⟨thread, rfl, by simp⟩, pool.put thread (.answered none), ?_⟩
          simp [next, found]
      | answered result =>
          cases result with
          | none =>
              refine ⟨.unlock thread, ⟨thread, rfl, by simp⟩,
                { pool.put thread .resting with holder := none }, ?_⟩
              simp [next, found]
          | some held =>
              refine ⟨.unlock thread, ⟨thread, rfl, by simp⟩,
                { pool.put thread (.taken held.1 held.2) with holder := none }, ?_⟩
              simp [next, found]
      | resting | blocked | taken | prepared => exact inside.elim
  | none =>
      have outside : ∀ (thread : Nat) (stage : Stage κ), pool.stages[thread]? = some stage →
          ¬ stage.Inside := by
        intro thread stage found inside
        have holder_eq := (exclusive thread).mpr ⟨stage, found, inside⟩
        simp [holds] at holder_eq
      rw [Rests] at busy
      push Not at busy
      obtain ⟨stage, member, moving⟩ := busy
      obtain ⟨thread, found⟩ := List.mem_iff_getElem?.mp member
      cases stage with
      | resting => exact (moving rfl).elim
      | blocked =>
          refine ⟨.lock thread, ⟨thread, rfl, by simp⟩,
            { pool.put thread .locked with holder := some thread }, ?_⟩
          simp [next, found, holds]
      | locked => exact (outside thread _ found trivial).elim
      | answered result => exact (outside thread _ found trivial).elim
      | taken handle peer =>
          refine ⟨.prepare thread true, ⟨thread, rfl, by simp⟩,
            pool.put thread (.prepared handle peer), ?_⟩
          simp [next, found]
      | prepared handle peer =>
          refine ⟨.register thread none, ⟨thread, rfl, by simp⟩,
            { pool.put thread .resting with lost := pool.lost ++ [peer] }, ?_⟩
          simp [next, found]

/-- However the threads' own steps are ordered, there are no more of them than work. -/
theorem hastening_bounded {registry : Registry σ ε μ φ} {pool final : AcceptPool σ κ}
    {events : List (AcceptPoolEvent κ ε μ)} (hasten : ∀ event ∈ events, Hastens event)
    (execution : (system registry).run (.ok pool) events = some (.ok final)) :
    events.length + final.work ≤ pool.work := by
  induction events generalizing pool with
  | nil =>
      obtain rfl : pool = final := by simpa using execution
      simp
  | cons event events ih =>
      obtain ⟨middle, step, rest⟩ := (system registry).run_cons_eq_some execution
      cases middle with
      | error fault =>
          cases events with
          | nil => simp at rest
          | cons second events => simp [system] at rest
      | ok middle =>
          have used := (steps_of_next step).work (hasten event List.mem_cons_self)
          have later := ih (fun other member =>
            hasten other (List.mem_cons_of_mem event member)) rest
          rw [List.length_cons]
          push_cast
          omega

theorem Rests.quiet {pool : AcceptPool σ κ} (rests : pool.Rests) (exclusive : pool.Exclusive) :
    pool.holder = none ∧ pool.flights = ∅ ∧ pool.peers = [] := by
  refine ⟨?_, ?_, ?_⟩
  · rw [Option.eq_none_iff_forall_ne_some]
    intro thread holds
    obtain ⟨stage, found, inside⟩ := (exclusive thread).mp holds
    rw [rests stage (List.mem_of_getElem? found)] at inside
    exact inside
  · have none_held : (pool.stages.filterMap fun stage => stage.held.map Prod.fst) = [] := by
      rw [List.filterMap_eq_nil_iff]
      intro stage member
      simp [rests stage member, Stage.held]
    rw [flights, none_held, List.toFinset_nil]
  · rw [peers, List.filterMap_eq_nil_iff]
    intro stage member
    simp [rests stage member, Stage.held]

/-! ## Threads and clients -/

/-- Every client has the thread that made it, and no more threads run than were to be started. -/
structure Manned (count : σ → Nat) (threads : Nat) (pool : AcceptPool σ κ) : Prop where
  clients : pool.served.length = count pool.process
  born : pool.unborn + pool.stages.length = threads
  known : ∀ entry ∈ pool.served, entry.1 < pool.stages.length

theorem Steps.manned {registry : Registry σ ε μ φ} {count : σ → Nat} {threads : Nat}
    {pool after : AcceptPool σ κ} {event : AcceptPoolEvent κ ε μ}
    (counts : registry.Counts count) (steps : Steps registry pool event (.ok after))
    (manned : Manned count threads pool) : Manned count threads after := by
  obtain ⟨clients, born, known⟩ := manned
  generalize result_eq : (Except.ok after : Except φ (AcceptPool σ κ)) = result at steps
  cases steps with
  | spawn left =>
      obtain rfl := Except.ok.inj result_eq
      refine ⟨clients, ?_, ?_⟩
      · simp only [List.length_append, List.length_singleton]
        omega
      · intro entry member
        have before := known entry member
        simp only [List.length_append, List.length_singleton]
        omega
  | arrive peer =>
      obtain rfl := Except.ok.inj result_eq
      exact ⟨clients, born, known⟩
  | thread _ index old new _ found unborn_eq stages_eq _ _ _ _ carries =>
      obtain rfl := Except.ok.inj result_eq
      have inside := (List.getElem?_eq_some_iff.mp found).1
      have length_eq : after.stages.length = pool.stages.length := by
        rw [stages_eq, List.length_set]
      have born' : after.unborn + after.stages.length = threads := by
        rw [unborn_eq, length_eq]
        exact born
      rw [← length_eq] at known inside
      cases carries with
      | keep held_eq queue_eq served_eq lost_eq process_eq =>
          exact ⟨by rw [served_eq, process_eq, clients], born', by rwa [served_eq]⟩
      | take handle peer old_held new_held queue_eq fresh served_eq lost_eq process_eq =>
          exact ⟨by rw [served_eq, process_eq, counts.leave, clients], born', by rwa [served_eq]⟩
      | drop handle peer old_held new_held queue_eq served_eq lost_eq process_eq =>
          exact ⟨by rw [served_eq, process_eq, clients], born', by rwa [served_eq]⟩
      | serve handle peer memory old_held new_held queue_eq served_eq lost_eq process_eq =>
          refine ⟨?_, born', ?_⟩
          · rw [served_eq, process_eq, counts.register, List.length_append, clients]
            rfl
          · rw [served_eq]
            exact forall_mem_concat known inside
  | act index position event result found mine acted =>
      cases result with
      | error fault => cases result_eq
      | ok process =>
          obtain rfl := Except.ok.inj result_eq
          exact ⟨by rw [clients]; exact (counts.act _ _ _ _ acted).symm, born, known⟩

/-- Every client of a run has the thread that made it. -/
theorem manned_run {registry : Registry σ ε μ φ} {count : σ → Nat} {threads : Nat} {process : σ}
    {events : List (AcceptPoolEvent κ ε μ)} {pool : AcceptPool σ κ}
    (counts : registry.Counts count) (empty : count process = 0)
    (execution : (system registry).run (.ok (started threads process)) events = some (.ok pool)) :
    Manned count threads pool := by
  have preserves : (system registry).Preserves
      fun state : Except φ (AcceptPool σ κ) => ∀ reached, state = .ok reached →
        Manned count threads reached := by
    rintro state event next holds step reached rfl
    cases state with
    | error fault => simp [system] at step
    | ok before => exact (steps_of_next step).manned counts (holds before rfl)
  refine preserves.run ?_ execution pool rfl
  intro reached reached_eq
  obtain rfl := Except.ok.inj reached_eq
  exact ⟨empty.symm, by simp [started], by simp [started]⟩

end AcceptPool

end Mrps
