import Mrps.AcceptQueue
import Mrps.CServers

/-!
# The threads of `thread-honest.c` and `thread.c`

Every thread runs a loop of its own with the accept watcher of the one listening socket, takes
`accept_mtx` around `accept` and registers the new client with its own loop.  The callback is
taken apart into its calls here, with the other threads running in between, and shown to be
atomic to them.
-/

namespace Mrps

open EventSystem

namespace Honest

/-- The calls of `thread-honest.c` on the process its threads share. -/
def registry : Registry Process Event (Vector Byte TO_SEND_SIZE × Time) Fault where
  act process index event := process.next .threadHonest (.client index event)
  opened := Process.openFds
  leave handles process := { process with openFds := handles }
  register sd memory process :=
    { process with
      clients := process.clients ++ [{ sd, conn := echoClientAdd sd memory.1 memory.2 }] }

/-- A lawful process whose listening socket stays open and apart. -/
structure Secured (listener : Nat) (process : Process) : Prop where
  lawful : process.Lawful
  secured : HandleTable.Secured {listener} process.descriptors

theorem registry_framed (listener : Nat) :
    registry.Framed (Secured listener) fun process => process.descriptors.owned where
  opened_leave _ _ := rfl
  leave_leave _ _ _ := rfl
  leave_opened _ := rfl
  opened_register _ _ _ := rfl
  register_leave _ _ _ _ := rfl
  owned_open process sound := by
    intro sd owned
    exact sound.secured.owned_open sd (HandleTable.mem_owned.mp owned)
  act_closes process handles index event result sound acted := by
    simp only [registry, Process.next, Option.bind_eq_some_iff, Option.map_eq_some_iff] at acted
    obtain ⟨entry, found, answer, conn_step, rfl⟩ := acted
    obtain ⟨pipe, shown⟩ := sound.lawful.shown index entry found
    have owns := sound.lawful.owns index entry found
    obtain ⟨conn, rfl, -, owns'⟩ := owns.next shown conn_step
    have closes := next_closes owns owns' (Process.stays_freed shown conn_step)
    refine ⟨process.update index entry conn,
      (conn.closed.drop entry.conn.closed.length).toFinset, rfl, ?_, fun others => ?_⟩
    · intro sd closed
      rcases closes with ⟨-, closed_eq⟩ | ⟨fd, fd_eq, -, closed_eq⟩
      · simp [closed_eq] at closed
      · obtain rfl : sd = fd := by simpa [closed_eq] using closed
        rw [HandleTable.mem_owned, ← fd_eq]
        exact List.mem_map_of_mem (List.mem_of_getElem? found)
    · simp [registry, Process.next, found, conn_step, Process.update, Except.map]

theorem registry_counts : registry.Counts fun process => process.clients.length where
  leave _ _ := rfl
  register _ _ _ := List.length_append
  act process index event after acted := by
    simp only [registry, Process.next, Option.bind_eq_some_iff, Option.map_eq_some_iff] at acted
    obtain ⟨entry, found, answer, conn_step, after_eq⟩ := acted
    cases answer with
    | error fault => cases after_eq
    | ok conn =>
        obtain rfl := Except.ok.inj after_eq
        simp [Process.update]

/-- The accept callback or the client's event that does at once what the threads do. -/
def atOnce : RegistryEvent Event (Vector Byte TO_SEND_SIZE × Time) → ProcessEvent
  | .abandon sd => .accept (.blocking sd)
  | .grant sd memory => .accept (.added sd memory.1 memory.2)
  | .act index event => .client index event

theorem registry_agrees : registry.Agrees (processSystem .threadHonest) atOnce := by
  intro state event
  cases state with
  | error fault => rfl
  | ok process =>
      cases event with
      | act index event => rfl
      | abandon sd =>
          by_cases opened : sd ∈ process.openFds <;>
            simp [Registry.atomic, Registry.next, registry, atOnce, processSystem, Process.next,
              opened, AcceptAnswer.sd, Process.echoServerWcbAccept]
      | grant sd memory =>
          by_cases opened : sd ∈ process.openFds <;>
            simp [Registry.atomic, Registry.next, registry, atOnce, processSystem, Process.next,
              opened, AcceptAnswer.sd, Process.echoServerWcbAccept]

theorem fine_iff {listener : Nat} {state : Except Fault Process} :
    Registry.Fine (Secured listener) state ↔
      Healthy state ∧ HandleTable.Secured {listener} (descriptors state) := by
  cases state with
  | error fault => exact iff_of_false id fun both => both.1
  | ok process => exact ⟨fun sound => ⟨sound.1, sound.2⟩, fun both => ⟨both.1, both.2⟩⟩

theorem registry_preserves (listener : Nat) :
    registry.atomic.Preserves (Registry.Fine (Secured listener)) := by
  have keeps := (descriptors_tracked .threadHonest).preserves_secured
    (healthy_preserved .threadHonest) {listener}
  have fine_eq : Registry.Fine (Secured listener) = fun state : Except Fault Process =>
      Healthy state ∧ HandleTable.Secured {listener} (descriptors state) := by
    funext state
    exact propext fine_iff
  rw [fine_eq]
  exact registry_agrees.preserves keeps

theorem secured_listening (listener : Nat) : Secured listener (.listening listener) :=
  ⟨Process.listening_lawful listener, HandleTable.secured_initial {listener}⟩

end Honest

namespace Plain

/-- The calls of `thread.c` on the process its threads share. -/
def registry : Registry Process Event Time Fault where
  act process index event := process.next (.client index event)
  opened := Process.openFds
  leave handles process := { process with openFds := handles }
  register sd now process := { process with clients := process.clients ++ [echoClientAdd sd now] }

/-- A process without faults whose listening socket stays open and apart. -/
structure Secured (listener : Nat) (process : Process) : Prop where
  settled : ∀ conn ∈ process.clients, Settled conn
  secured : HandleTable.Secured {listener} process.descriptors

theorem registry_framed (listener : Nat) :
    registry.Framed (Secured listener) fun process => process.descriptors.owned where
  opened_leave _ _ := rfl
  leave_leave _ _ _ := rfl
  leave_opened _ := rfl
  opened_register _ _ _ := rfl
  register_leave _ _ _ _ := rfl
  owned_open process sound := by
    intro sd owned
    exact sound.secured.owned_open sd (HandleTable.mem_owned.mp owned)
  act_closes process handles index event result sound acted := by
    simp only [registry, Process.next, Option.bind_eq_some_iff, Option.map_eq_some_iff] at acted
    obtain ⟨conn, found, answer, conn_step, rfl⟩ := acted
    have settled := sound.settled conn (List.mem_of_getElem? found)
    obtain ⟨next, rfl, -, -⟩ := Plain.next_cases settled conn_step
    refine ⟨process.update index conn next, (next.closed.drop conn.closed.length).toFinset, rfl, ?_,
      fun others => ?_⟩
    · intro sd closed
      rcases next_closes settled conn_step with ⟨-, closed_eq⟩ | ⟨fd, fd_eq, -, closed_eq⟩
      · simp [closed_eq] at closed
      · obtain rfl : sd = fd := by simpa [closed_eq] using closed
        rw [HandleTable.mem_owned, ← fd_eq]
        exact List.mem_map_of_mem (List.mem_of_getElem? found)
    · simp [registry, Process.next, found, conn_step, Process.update, Except.map]

theorem registry_counts : registry.Counts fun process => process.clients.length where
  leave _ _ := rfl
  register _ _ _ := List.length_append
  act process index event after acted := by
    simp only [registry, Process.next, Option.bind_eq_some_iff, Option.map_eq_some_iff] at acted
    obtain ⟨conn, found, answer, conn_step, after_eq⟩ := acted
    cases answer with
    | error fault => cases after_eq
    | ok next =>
        obtain rfl := Except.ok.inj after_eq
        simp [Process.update]

/-- The accept callback or the client's event that does at once what the threads do. -/
def atOnce : RegistryEvent Event Time → ProcessEvent
  | .abandon sd => .accept (.blocking sd)
  | .grant sd now => .accept (.added sd now)
  | .act index event => .client index event

theorem registry_agrees : registry.Agrees processSystem atOnce := by
  intro state event
  cases state with
  | error fault => rfl
  | ok process =>
      cases event with
      | act index event => rfl
      | abandon sd =>
          by_cases opened : sd ∈ process.openFds <;>
            simp [Registry.atomic, Registry.next, registry, atOnce, processSystem, Process.next,
              opened, AcceptAnswer.sd, Process.echoServerWcbAccept]
      | grant sd now =>
          by_cases opened : sd ∈ process.openFds <;>
            simp [Registry.atomic, Registry.next, registry, atOnce, processSystem, Process.next,
              opened, AcceptAnswer.sd, Process.echoServerWcbAccept]

theorem fine_iff {listener : Nat} {state : Except Fault Process} :
    Registry.Fine (Secured listener) state ↔
      Healthy state ∧ HandleTable.Secured {listener} (descriptors state) := by
  cases state with
  | error fault => exact iff_of_false id fun both => both.1
  | ok process => exact ⟨fun sound => ⟨sound.1, sound.2⟩, fun both => ⟨both.1, both.2⟩⟩

theorem registry_preserves (listener : Nat) :
    registry.atomic.Preserves (Registry.Fine (Secured listener)) := by
  have keeps := descriptors_tracked.preserves_secured healthy_preserved {listener}
  have fine_eq : Registry.Fine (Secured listener) = fun state : Except Fault Process =>
      Healthy state ∧ HandleTable.Secured {listener} (descriptors state) := by
    funext state
    exact propext fine_iff
  rw [fine_eq]
  exact registry_agrees.preserves keeps

theorem secured_listening (listener : Nat) : Secured listener (.listening listener) :=
  ⟨healthy_listening listener, HandleTable.secured_initial {listener}⟩

end Plain

/-! ## Both programs -/

/-- The servers of `c-bachan` with threads. -/
inductive ThreadServer where
  | threadHonest
  | thread
  deriving DecidableEq, Repr

namespace ThreadServer

/-- The process that the threads share. -/
def Process : ThreadServer → Type
  | .threadHonest => Honest.Process
  | .thread => Plain.Process

/-- What can go wrong in a client's callback. -/
def Fault : ThreadServer → Type
  | .threadHonest => Honest.Fault
  | .thread => Plain.Fault

/-- What can happen to a client. -/
def ClientEvent : ThreadServer → Type
  | .threadHonest => Honest.Event
  | .thread => Plain.Event

/-- What `echo_client_add` finds: the memory of `malloc` and the time of the loop. -/
def Memory : ThreadServer → Type
  | .threadHonest => Vector Byte Honest.TO_SEND_SIZE × Time
  | .thread => Time

/-- What can happen to a process whose callbacks are atomic. -/
def ProcessEvent : ThreadServer → Type
  | .threadHonest => Honest.ProcessEvent
  | .thread => Plain.ProcessEvent

/-- The calls of a program on the process its threads share. -/
def registry : (program : ThreadServer) →
    Registry program.Process program.ClientEvent program.Memory program.Fault
  | .threadHonest => Honest.registry
  | .thread => Plain.registry

/-- The runs of a program whose callbacks are atomic. -/
def whole : (program : ThreadServer) →
    EventSystem (Except program.Fault program.Process) program.ProcessEvent
  | .threadHonest => Honest.processSystem .threadHonest
  | .thread => Plain.processSystem

/-- A process listening on `sd` before its first accept. -/
def listening (sd : Nat) : (program : ThreadServer) → program.Process
  | .threadHonest => Honest.Process.listening sd
  | .thread => Plain.Process.listening sd

/-- Which descriptors are open and which live client owns which of them. -/
def descriptors : (program : ThreadServer) → program.Process → HandleTable Nat
  | .threadHonest => Honest.Process.descriptors
  | .thread => Plain.Process.descriptors

/-- How many clients were registered. -/
def clientCount : (program : ThreadServer) → program.Process → Nat
  | .threadHonest => fun process => process.clients.length
  | .thread => fun process => process.clients.length

/-- `thread_func` in as many threads as `main` starts, its own included. -/
def started {κ : Type*} (program : ThreadServer) (threads listener : Nat) :
    Except program.Fault (AcceptPool program.Process κ) :=
  .ok (.started threads (program.listening listener))

/-- The runs of the threads. -/
def threads {κ : Type*} (program : ThreadServer) :
    EventSystem (Except program.Fault (AcceptPool program.Process κ))
      (AcceptPoolEvent κ program.ClientEvent program.Memory) :=
  AcceptPool.system program.registry

/-- The program keeps its process secure, with descriptors as in the table, and does at once what
the threads do in steps. -/
structure Atomic (program : ThreadServer) (listener : Nat) : Prop where
  framed : ∃ good, program.registry.Framed good
      (fun process => (program.descriptors process).owned) ∧
    program.registry.atomic.Preserves (Registry.Fine good) ∧ good (program.listening listener) ∧
    ∀ process, good process → HandleTable.Secured {listener} (program.descriptors process)
  opened_eq : ∀ process, program.registry.opened process = (program.descriptors process).opened
  owners_eq : ∀ handles process,
    (program.descriptors (program.registry.leave handles process)).owners =
      (program.descriptors process).owners
  counts : program.registry.Counts program.clientCount
  reachable : ∀ initial state, program.registry.atomic.Reachable initial state →
    program.whole.Reachable initial state

theorem atomic (program : ThreadServer) (listener : Nat) : program.Atomic listener := by
  cases program with
  | threadHonest =>
      exact
        { framed := ⟨Honest.Secured listener, Honest.registry_framed listener,
            Honest.registry_preserves listener, Honest.secured_listening listener,
            fun _ sound => sound.secured⟩
          opened_eq := fun _ => rfl
          owners_eq := fun _ _ => rfl
          counts := Honest.registry_counts
          reachable := fun _ _ => Honest.registry_agrees.reachable }
  | thread =>
      exact
        { framed := ⟨Plain.Secured listener, Plain.registry_framed listener,
            Plain.registry_preserves listener, Plain.secured_listening listener,
            fun _ sound => sound.secured⟩
          opened_eq := fun _ => rfl
          owners_eq := fun _ _ => rfl
          counts := Plain.registry_counts
          reachable := fun _ _ => Plain.registry_agrees.reachable }

end ThreadServer

/-- Two threads of `thread.c` meet one connection: the second waits for the lock and finds the queue
empty, and the first registers the client. -/
def oneForTwo : List (AcceptPoolEvent String (ThreadServer.ClientEvent .thread)
    (ThreadServer.Memory .thread)) :=
  [.spawn, .spawn, .arrive "peer", .enter 0, .enter 1, .lock 0, .take 0 5, .unlock 0, .lock 1,
    .prepare 0 true, .refuse 1]

theorem run_oneForTwo : ∃ pool,
    (ThreadServer.threads .thread).run (ThreadServer.started .thread 2 3) oneForTwo =
      some (.ok pool) ∧
    pool.stages = [.prepared 5 "peer", .answered none] ∧ pool.holder = some 1 := by
  refine ⟨_, rfl, rfl, rfl⟩

section Runs

variable {κ : Type*} {listener count : Nat}

/-- Whatever the threads do in whatever order: nothing faults, the holder of `accept_mtx` is the one
thread between lock and unlock, a descriptor that `accept` returned and no loop watches yet is in
the hands of one thread and no client's, and the live clients of all threads own distinct open
descriptors beside the listening one, which stays open. -/
theorem accepts_exclusive (program : ThreadServer)
    {state : Except program.Fault (AcceptPool program.Process κ)}
    (reach : program.threads.Reachable (program.started count listener) state) :
    ∃ pool, state = .ok pool ∧
      (∀ thread, pool.holder = some thread ↔
        ∃ stage, pool.stages[thread]? = some stage ∧ stage.Inside) ∧
      (∀ left right sd, pool.InFlight left sd → pool.InFlight right sd → left = right) ∧
      (∀ thread sd, pool.InFlight thread sd →
        sd ∈ (program.descriptors pool.process).opened ∧ sd ≠ listener ∧
          some sd ∉ (program.descriptors pool.process).owners) ∧
      HandleTable.Secured {listener} (program.descriptors pool.process) := by
  obtain ⟨⟨good, framed, preserves, good_start, secures⟩, opened_eq, owners_eq, -, -⟩ :=
    program.atomic listener
  obtain ⟨pool, rfl, exclusive, airborne, -⟩ :=
    AcceptPool.reachable_shadowed framed preserves good_start reach
  have secured := secures _ airborne.good
  have shown_opened : (program.descriptors (pool.shown program.registry)).opened =
      (program.descriptors pool.process).opened \ pool.flights := by
    rw [← opened_eq, ← opened_eq, AcceptPool.shown, framed.opened_leave]
  have shown_owners : (program.descriptors (pool.shown program.registry)).owners =
      (program.descriptors pool.process).owners := owners_eq _ _
  obtain ⟨base_open, base_free, owned_open, once⟩ := secured
  rw [shown_opened] at base_open owned_open
  rw [shown_owners] at base_free owned_open once
  refine ⟨pool, rfl, exclusive, airborne.once, ?_, ?_⟩
  · intro thread sd flies
    have hidden : sd ∈ pool.flights := AcceptPool.mem_flights.mpr ⟨thread, flies⟩
    refine ⟨opened_eq pool.process ▸ airborne.is_open thread sd flies, ?_, fun owned => ?_⟩
    · rintro rfl
      exact (Finset.mem_sdiff.mp (base_open (Finset.mem_singleton_self sd))).2 hidden
    · exact (Finset.mem_sdiff.mp (owned_open sd owned)).2 hidden
  · refine ⟨base_open.trans Finset.sdiff_subset, base_free, fun sd owned => ?_, once⟩
    exact Finset.sdiff_subset (owned_open sd owned)

theorem accepts_exclusive_two : ∃ pool : AcceptPool (ThreadServer.Process .thread) String,
    (ThreadServer.threads .thread).Reachable (ThreadServer.started .thread 2 3) (.ok pool) ∧
      pool.InFlight 0 5 ∧ pool.holder = some 1 ∧
      some 5 ∉ (ThreadServer.descriptors .thread pool.process).owners := by
  obtain ⟨pool, execution, stages_eq, holder_eq⟩ := run_oneForTwo
  have reach : (ThreadServer.threads .thread).Reachable (ThreadServer.started .thread 2 3)
      (.ok pool) := ⟨oneForTwo, execution⟩
  have flies : pool.InFlight 0 5 := ⟨.prepared 5 "peer", "peer", by rw [stages_eq]; rfl, rfl⟩
  obtain ⟨_, pool_eq, -, -, apart, -⟩ := accepts_exclusive .thread reach
  obtain rfl := Except.ok.inj pool_eq
  exact ⟨pool, reach, flies, holder_eq, (apart 0 5 flies).2.2⟩

/-- The accept callback of a thread is atomic to the other threads: what the threads of a process
reach is, but for the descriptors in their hands, reached by a process that runs one callback after
the other, and it is exactly that while every thread runs its clients. -/
theorem accepts_atomic (program : ThreadServer)
    {state : Except program.Fault (AcceptPool program.Process κ)}
    (reach : program.threads.Reachable (program.started count listener) state) :
    ∃ pool, state = .ok pool ∧
      program.whole.Reachable (.ok (program.listening listener))
        (.ok (program.registry.leave
          ((program.descriptors pool.process).opened \ pool.flights) pool.process)) ∧
      (pool.Rests → program.whole.Reachable (.ok (program.listening listener))
        (.ok pool.process)) := by
  obtain ⟨⟨good, framed, preserves, good_start, -⟩, opened_eq, -, -, reachable⟩ :=
    program.atomic listener
  obtain ⟨pool, rfl, exclusive, -, shadow_reach⟩ :=
    AcceptPool.reachable_shadowed framed preserves good_start reach
  have whole_reach := reachable _ _ shadow_reach
  rw [AcceptPool.shown, opened_eq] at whole_reach
  refine ⟨pool, rfl, whole_reach, fun rests => ?_⟩
  obtain ⟨-, flights_eq, -⟩ := rests.quiet exclusive
  rwa [flights_eq, Finset.sdiff_empty, ← opened_eq, framed.leave_opened] at whole_reach

theorem accepts_atomic_two : ∃ pool : AcceptPool (ThreadServer.Process .thread) String,
    (ThreadServer.threads .thread).Reachable (ThreadServer.started .thread 2 3) (.ok pool) ∧
      (ThreadServer.whole .thread).Reachable (.ok (ThreadServer.listening 3 .thread))
        (.ok ((ThreadServer.registry .thread).leave
          ((ThreadServer.descriptors .thread pool.process).opened \ pool.flights)
          pool.process)) := by
  obtain ⟨pool, execution, -⟩ := run_oneForTwo
  have reach : (ThreadServer.threads .thread).Reachable (ThreadServer.started .thread 2 3)
      (.ok pool) := ⟨oneForTwo, execution⟩
  obtain ⟨_, pool_eq, whole_reach, -⟩ := accepts_atomic .thread reach
  obtain rfl := Except.ok.inj pool_eq
  exact ⟨pool, reach, whole_reach⟩

/-- Every connection that reached the listening socket is in exactly one place: in the backlog, in
the hands of one thread, served in the loop of one thread, or let go with its descriptor open, which
happens once for each `aux_set_nonblk` or `malloc` that fails and never else. -/
theorem connections_placed (program : ThreadServer)
    {events : List (AcceptPoolEvent κ program.ClientEvent program.Memory)}
    {state : Except program.Fault (AcceptPool program.Process κ)}
    (execution : program.threads.run (program.started count listener) events = some state) :
    ∃ pool, state = .ok pool ∧
      (events.flatMap AcceptPoolEvent.arrived : Multiset κ) = pool.whereabouts ∧
      pool.lost.length = (events.map AcceptPoolEvent.failures).sum ∧
      pool.served.length = program.clientCount pool.process ∧
      ∀ entry ∈ pool.served, entry.1 < count := by
  obtain ⟨⟨good, framed, preserves, good_start, -⟩, -, -, counts, -⟩ := program.atomic listener
  obtain ⟨pool, rfl, -⟩ :=
    AcceptPool.reachable_shadowed framed preserves good_start ⟨events, execution⟩
  obtain ⟨gathered, counted⟩ := AcceptPool.arrivals_accounted execution
  have empty : program.clientCount (program.listening listener) = 0 := by
    cases program <;> rfl
  obtain ⟨clients, born, known⟩ := AcceptPool.manned_run counts empty execution
  refine ⟨pool, rfl, gathered, counted, clients, fun entry member => ?_⟩
  have below := known entry member
  omega

theorem connections_placed_two : ∃ pool,
    (ThreadServer.threads .thread).run (ThreadServer.started .thread 2 3) oneForTwo =
        some (.ok pool) ∧
      pool.whereabouts = {"peer"} ∧ pool.lost.length = 0 := by
  obtain ⟨pool, execution, -⟩ := run_oneForTwo
  obtain ⟨_, pool_eq, gathered, counted, -⟩ := connections_placed .thread execution
  obtain rfl := Except.ok.inj pool_eq
  exact ⟨pool, execution, gathered.symm, counted⟩

/-- No thread is left waiting inside the accept callback: under every schedule the threads' own
steps come to an end within five steps a thread, none of them is stuck before all threads are back
at their clients, and then `accept_mtx` is free and nothing is in anybody's hands. -/
theorem accepts_settle (program : ThreadServer)
    {pool final : AcceptPool program.Process κ}
    (reach : program.threads.Reachable (program.started count listener) (.ok pool))
    {events : List (AcceptPoolEvent κ program.ClientEvent program.Memory)}
    (hasten : ∀ event ∈ events, AcceptPool.Hastens event)
    (execution : program.threads.run (.ok pool) events = some (.ok final)) :
    events.length ≤ 5 * count ∧
      (¬ final.Rests → ∃ event, AcceptPool.Hastens event ∧ ∃ after,
        program.threads.step (.ok final) event = some (.ok after)) ∧
      (final.Rests → final.holder = none ∧ final.flights = ∅ ∧ final.peers = []) := by
  obtain ⟨⟨good, framed, preserves, good_start, -⟩, -, -, counts, -⟩ := program.atomic listener
  obtain ⟨_, final_eq, exclusive, -⟩ :=
    AcceptPool.reachable_shadowed framed preserves good_start (reach.run _ execution)
  obtain rfl := Except.ok.inj final_eq
  refine ⟨?_, fun busy => exclusive.progress program.registry busy,
    fun rests => rests.quiet exclusive⟩
  obtain ⟨before, before_run⟩ := reach
  have empty : program.clientCount (program.listening listener) = 0 := by
    cases program <;> rfl
  obtain ⟨-, born, -⟩ := AcceptPool.manned_run counts empty before_run
  have bounded := AcceptPool.hastening_bounded hasten execution
  have left := final.work_nonneg
  have most := pool.work_le
  omega

theorem accepts_settle_two : ∃ pool final,
    (ThreadServer.threads .thread).run (ThreadServer.started .thread 2 3) oneForTwo =
        some (.ok pool) ∧
      (ThreadServer.threads .thread).run (.ok pool) [.unlock 1, .register 0 (some (0 : Time))] =
        some (.ok final) ∧
      final.Rests ∧ final.holder = none := by
  obtain ⟨pool, execution, -⟩ := run_oneForTwo
  have both : ∃ final, (ThreadServer.threads .thread).run (ThreadServer.started .thread 2 3)
      (oneForTwo ++ [.unlock 1, .register 0 (some (0 : Time))]) = some (.ok final) ∧
        final.stages = [.resting, .resting] := ⟨_, rfl, rfl⟩
  obtain ⟨final, whole, stages_eq⟩ := both
  rw [run_append, execution] at whole
  have rests : final.Rests := by simp [AcceptPool.Rests, stages_eq]
  have hasten : ∀ event ∈ ([.unlock 1, .register 0 (some (0 : Time))] :
      List (AcceptPoolEvent String (ThreadServer.ClientEvent .thread)
        (ThreadServer.Memory .thread))), AcceptPool.Hastens event := by
    intro event member
    simp only [List.mem_cons, List.not_mem_nil, or_false] at member
    rcases member with rfl | rfl
    · exact ⟨1, rfl, by simp⟩
    · exact ⟨0, rfl, by simp⟩
  have settled := accepts_settle .thread ⟨oneForTwo, execution⟩ hasten whole
  exact ⟨pool, final, execution, whole, rests, (settled.2.2 rests).1⟩

end Runs

end Mrps
