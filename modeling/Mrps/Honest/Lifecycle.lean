import Mrps.HandleTable
import Mrps.Honest.Stream

/-!
# Lifecycle of all clients of a process

A process of `server-honest.c` or `thread-honest.c` with its descriptor table and every client it
ever accepted.  A callback touches one client and makes at most one call that changes the shared
descriptor table, so the loops of `thread-honest.c` interleave at the grain of whole callbacks and
the clients of all its threads form one list.
-/

namespace Mrps.Honest

open EventSystem

/-- A connection with the descriptor `accept` returned for it. -/
structure Accepted where
  sd : Nat
  conn : Connection
  deriving DecidableEq, Repr

/-- The state of a process. -/
structure Process where
  /-- Every client that `echo_client_add` registered, in order. -/
  clients : List Accepted
  /-- The open descriptors. -/
  openFds : Finset Nat
  deriving DecidableEq

/-- The outcomes of the calls of `echo_server_wcb_accept`. -/
inductive AcceptAnswer where
  /-- The loop reports `EV_ERROR`. -/
  | evError
  /-- `accept` fails. -/
  | refused
  /-- `aux_set_nonblk` fails on the new descriptor. -/
  | blocking (sd : Nat)
  /-- `malloc` fails in `echo_client_add`. -/
  | noMemory (sd : Nat)
  /-- The client is registered. -/
  | added (sd : Nat) (memory : Vector Byte TO_SEND_SIZE) (now : Time)

/-- The descriptor `accept` returned. -/
def AcceptAnswer.sd : AcceptAnswer → Option Nat
  | .evError | .refused => none
  | .blocking sd | .noMemory sd | .added sd _ _ => some sd

/-- What can happen to a process. -/
inductive ProcessEvent where
  | accept (answer : AcceptAnswer)
  | client (index : Nat) (event : Event)

namespace Process

/-- `echo_server_wcb_accept`. -/
def echoServerWcbAccept (process : Process) : AcceptAnswer → Process
  | .evError => process
  | .refused => process
  | .blocking sd => { process with openFds := insert sd process.openFds }
  | .noMemory sd => { process with openFds := insert sd process.openFds }
  | .added sd memory now =>
      { clients := process.clients ++ [{ sd, conn := echoClientAdd sd memory now }]
        openFds := insert sd process.openFds }

/-- The state after a callback of the client at `index` turned its connection into `conn`. -/
def update (process : Process) (index : Nat) (entry : Accepted) (conn : Connection) : Process :=
  { clients := process.clients.set index { entry with conn }
    openFds := process.openFds \ (conn.closed.drop entry.conn.closed.length).toFinset }

/-- One step of a process; `accept` never returns a descriptor that is open. -/
def next (program : Program) (process : Process) :
    ProcessEvent → Option (Except Fault Process)
  | .accept answer =>
      if ∀ sd ∈ answer.sd, sd ∉ process.openFds then
        some (.ok (process.echoServerWcbAccept answer))
      else
        none
  | .client index event =>
      process.clients[index]?.bind fun entry =>
        (entry.conn.next program event).map fun result =>
          result.map (process.update index entry)

/-- A process listening on `sd` before its first accept. -/
def listening (sd : Nat) : Process := { clients := [], openFds := {sd} }

end Process

/-- The runs of a process; a fault ends the run. -/
def processSystem (program : Program) : EventSystem (Except Fault Process) ProcessEvent where
  step state event :=
    match state with
    | .ok process => process.next program event
    | .error _ => none

/-! ## One client -/

/-- A live client holds its descriptor and nothing of it is closed; a freed client was deleted once
and its descriptor closed once. -/
def Owns (sd : Nat) (conn : Connection) : Prop :=
  match conn.client with
  | some client => client.fd = sd ∧ conn.closed = [] ∧ conn.dels = 0
  | none => conn.closed = [sd] ∧ conn.dels = 1

section OneClient

variable {sd : Nat} {conn : Connection} {client : EchoClient}

theorem owns_live (live : conn.client = some client) :
    Owns sd conn ↔ client.fd = sd ∧ conn.closed = [] ∧ conn.dels = 0 := by
  simp [Owns, live]

theorem Owns.deleted (owns : Owns sd conn) (live : conn.client = some client) :
    Owns sd (conn.deleted client.fd) := by
  obtain ⟨rfl, closed_eq, dels_eq⟩ := (owns_live live).mp owns
  exact ⟨by simp [Connection.deleted, closed_eq], by simp [Connection.deleted, dels_eq]⟩

theorem Owns.sendEffect (owns : Owns sd conn) (live : conn.client = some client)
    (answer : SendAnswer) : Owns sd (sendEffect conn client answer) := by
  rcases answer with (_ | _ | _) | sentNb
  · exact owns
  · exact owns.deleted live
  · exact owns.deleted live
  · rw [Honest.sendEffect]
    split <;> exact (owns_live live).mp owns

theorem Owns.sendBackEffect (owns : Owns sd conn) (live : conn.client = some client)
    (answer : SendAnswer) : Owns sd (sendBackEffect conn client answer) := by
  rcases answer with (_ | _ | _) | sentNb
  · exact owns
  · exact owns.deleted live
  · exact owns.deleted live
  · rw [Honest.sendBackEffect]
    split <;> exact (owns_live live).mp owns

theorem Owns.recvEffect (program : Program) (owns : Owns sd conn)
    (live : conn.client = some client) (nb : RecvAnswer) (answer : SendAnswer) :
    Owns sd (recvEffect (program.doneEffect client) conn client answer nb) := by
  have held : Owns sd (conn.hold client.compacted) := by
    have parts := (owns_live live).mp owns
    simpa [Owns, Connection.hold] using parts
  have deleted : Owns sd ((conn.hold client.compacted).deleted client.fd) := by
    simpa using held.deleted rfl
  rcases nb with (_ | _ | _) | bytes
  · exact held
  · exact deleted
  · exact deleted
  · rw [Honest.recvEffect]
    split
    · cases program with
      | serverHonest => exact deleted
      | threadHonest => exact held
    · have filled : Owns sd (conn.filled client.compacted bytes) := held
      exact filled.sendBackEffect rfl answer

theorem Fires.owns {program : Program} {next : Connection} {event : Event}
    (fires : Fires program conn client event next) (owns : Owns sd conn)
    (live : conn.client = some client) : Owns sd next := by
  cases fires with
  | tick => exact owns
  | pollRecv => exact owns
  | pollSend => exact owns
  | pollTimeout => exact owns
  | wcbRecv =>
      have invoked : Owns sd (conn.register Watchers.recvInvoked) := owns
      exact invoked.recvEffect program live _ _
  | wcbSend =>
      have invoked : Owns sd (conn.register Watchers.sendInvoked) := owns
      exact invoked.sendEffect live _
  | wcbTimeout =>
      have invoked : Owns sd (conn.register Watchers.timeoutInvoked) := owns
      exact invoked.deleted live

theorem Owns.next {program : Program} {event : Event} {result : Except Fault Connection}
    {pipe : EchoPipe Byte} (owns : Owns sd conn) (shown : Shows conn pipe)
    (step : conn.next program event = some result) :
    ∃ next, result = .ok next ∧ Continues next pipe ∧ Owns sd next := by
  obtain ⟨next, rfl, continues⟩ := next_continues shown step
  refine ⟨next, rfl, continues, ?_⟩
  cases held : conn.client with
  | none =>
      obtain ⟨elapsed, -, next_eq⟩ := next_of_quiet (shown.quiet held) step
      obtain rfl := Except.ok.inj next_eq
      exact owns
  | some client =>
      obtain ⟨_, next_eq, fires⟩ := fires_of_next held (shown.window client held) step
      obtain rfl := Except.ok.inj next_eq
      exact fires.owns owns held

theorem Owns.closed_drop {next : Connection} (owns : Owns sd conn) (owns' : Owns sd next) :
    next.closed.drop conn.closed.length =
      if conn.client ≠ none ∧ next.client = none then [sd] else [] := by
  cases held : conn.client with
  | none =>
      have closed_eq : conn.closed = [sd] := by
        simp only [Owns, held] at owns
        exact owns.1
      cases held' : next.client with
      | none =>
          simp only [Owns, held'] at owns'
          simp [closed_eq, owns'.1]
      | some client' =>
          have closed_eq' := ((owns_live held').mp owns').2.1
          simp [closed_eq']
  | some client =>
      have closed_eq := ((owns_live held).mp owns).2.1
      cases held' : next.client with
      | none =>
          simp only [Owns, held'] at owns'
          simp [closed_eq, owns'.1]
      | some client' =>
          have closed_eq' := ((owns_live held').mp owns').2.1
          simp [closed_eq']

end OneClient

/-! ## All clients -/

/-- The client object of the entry exists. -/
def Accepted.Live (entry : Accepted) : Prop := entry.conn.client ≠ none

/-- Every client is sound and owns its descriptor, the live ones hold open descriptors, and no two
of them the same. -/
structure Process.Lawful (process : Process) : Prop where
  shown : ∀ (index : Nat) (entry : Accepted), process.clients[index]? = some entry →
    ∃ pipe, Shows entry.conn pipe
  owns : ∀ (index : Nat) (entry : Accepted), process.clients[index]? = some entry →
    Owns entry.sd entry.conn
  is_open : ∀ (index : Nat) (entry : Accepted), process.clients[index]? = some entry →
    entry.Live → entry.sd ∈ process.openFds
  distinct : ∀ (left right : Nat) (entry entry' : Accepted),
    process.clients[left]? = some entry → process.clients[right]? = some entry' →
      entry.Live → entry'.Live → entry.sd = entry'.sd → left = right

namespace Process

variable {process : Process}

theorem listening_lawful (sd : Nat) : (listening sd).Lawful := by
  constructor <;> simp [listening]

theorem Lawful.opened (lawful : process.Lawful) (sd : Nat) :
    Lawful { process with openFds := insert sd process.openFds } where
  shown := lawful.shown
  owns := lawful.owns
  is_open index entry found live := Finset.mem_insert_of_mem (lawful.is_open index entry found live)
  distinct := lawful.distinct

theorem Lawful.added (lawful : process.Lawful) {sd : Nat} (fresh : sd ∉ process.openFds)
    (memory : Vector Byte TO_SEND_SIZE) (now : Time) :
    (process.echoServerWcbAccept (.added sd memory now)).Lawful := by
  have not_held : ∀ (index : Nat) (entry : Accepted), process.clients[index]? = some entry →
      entry.Live → entry.sd ≠ sd := by
    rintro index entry found live rfl
    exact fresh (lawful.is_open index entry found live)
  constructor
  · intro index entry found
    rcases getElem?_concat_cases found with old | ⟨-, rfl⟩
    · exact lawful.shown index entry old
    · exact ⟨EchoPipe.empty, Shows.initial sd memory now⟩
  · intro index entry found
    rcases getElem?_concat_cases found with old | ⟨-, rfl⟩
    · exact lawful.owns index entry old
    · exact ⟨rfl, rfl, rfl⟩
  · intro index entry found live
    rcases getElem?_concat_cases found with old | ⟨-, rfl⟩
    · exact Finset.mem_insert_of_mem (lawful.is_open index entry old live)
    · exact Finset.mem_insert_self _ _
  · intro left right entry entry' found found' live live' sd_eq
    rcases getElem?_concat_cases found with old | ⟨left_eq, rfl⟩ <;>
      rcases getElem?_concat_cases found' with old' | ⟨right_eq, rfl⟩
    · exact lawful.distinct left right entry entry' old old' live live' sd_eq
    · exact (not_held left entry old live sd_eq).elim
    · exact (not_held right entry' old' live' sd_eq.symm).elim
    · exact left_eq.trans right_eq.symm

/-- A step of one client leaves the others' descriptors open. -/
theorem Lawful.updated (lawful : process.Lawful) {chosen : Nat} {entry : Accepted}
    {conn : Connection} (found : process.clients[chosen]? = some entry)
    (shown : ∃ pipe, Shows conn pipe) (owns : Owns entry.sd conn)
    (revived : entry.conn.client = none → conn.client = none) :
    (process.update chosen entry conn).Lawful := by
  have closed_eq := (lawful.owns chosen entry found).closed_drop owns
  have was_live : conn.client ≠ none → entry.Live := fun live freed => live (revived freed)
  constructor
  · intro index current current_found
    rcases getElem?_set_cases current_found with ⟨-, rfl⟩ | ⟨-, old⟩
    · exact shown
    · exact lawful.shown index current old
  · intro index current current_found
    rcases getElem?_set_cases current_found with ⟨-, rfl⟩ | ⟨-, old⟩
    · exact owns
    · exact lawful.owns index current old
  · intro index current current_found live
    simp only [update, closed_eq, Finset.mem_sdiff]
    rcases getElem?_set_cases current_found with ⟨-, rfl⟩ | ⟨ne, old⟩
    · refine ⟨lawful.is_open chosen entry found (was_live live), ?_⟩
      rw [if_neg fun freed => live freed.2]
      simp
    · refine ⟨lawful.is_open index current old live, ?_⟩
      split
      · rename_i freed
        intro closed
        have sd_eq : current.sd = entry.sd := by simpa using closed
        exact ne (lawful.distinct index chosen current entry old found live freed.1 sd_eq)
      · simp
  · intro left right current current' found_left found_right live live' sd_eq
    rcases getElem?_set_cases found_left with ⟨left_eq, rfl⟩ | ⟨-, old⟩ <;>
      rcases getElem?_set_cases found_right with ⟨right_eq, rfl⟩ | ⟨-, old'⟩
    · exact left_eq.trans right_eq.symm
    · rw [left_eq]
      exact lawful.distinct chosen right entry current' found old' (was_live live) live' sd_eq
    · rw [right_eq]
      exact lawful.distinct left chosen current entry old found live (was_live live') sd_eq
    · exact lawful.distinct left right current current' old old' live live' sd_eq

theorem stays_freed {program : Program} {conn next : Connection} {pipe : EchoPipe Byte}
    {event : Event} (shown : Shows conn pipe) (step : conn.next program event = some (.ok next))
    (freed : conn.client = none) : next.client = none := by
  obtain ⟨elapsed, -, next_eq⟩ := next_of_quiet (shown.quiet freed) step
  obtain rfl := Except.ok.inj next_eq
  exact freed

/-- The steps of a lawful process: an accept, or a step of one of its clients, which is free of
faults and keeps the client's ownership. -/
theorem Lawful.next_cases {program : Program} (lawful : process.Lawful) {event : ProcessEvent}
    {result : Except Fault Process} (step : process.next program event = some result) :
    (∃ answer, event = .accept answer ∧ (∀ sd ∈ answer.sd, sd ∉ process.openFds) ∧
        result = .ok (process.echoServerWcbAccept answer)) ∨
      ∃ index change entry conn, event = .client index change ∧
        process.clients[index]? = some entry ∧ (∃ pipe, Shows conn pipe) ∧
        Owns entry.sd conn ∧ (entry.conn.client = none → conn.client = none) ∧
        result = .ok (process.update index entry conn) := by
  cases event with
  | accept answer =>
      rw [Process.next, Option.ite_none_right_eq_some] at step
      obtain ⟨fresh, accepted⟩ := step
      exact Or.inl ⟨answer, rfl, fresh, (Option.some.inj accepted).symm⟩
  | client index change =>
      simp only [Process.next, Option.bind_eq_some_iff, Option.map_eq_some_iff] at step
      obtain ⟨entry, found, answer, conn_step, rfl⟩ := step
      obtain ⟨pipe, shown⟩ := lawful.shown index entry found
      obtain ⟨conn, rfl, ⟨_, later, -, shown'⟩, owns⟩ :=
        (lawful.owns index entry found).next shown conn_step
      exact Or.inr ⟨index, change, entry, conn, rfl, found, ⟨later, shown'⟩, owns,
        stays_freed shown conn_step, rfl⟩

/-- Every step of a lawful process is free of faults and leads to a lawful process. -/
theorem Lawful.next {program : Program} (lawful : process.Lawful) {event : ProcessEvent}
    {result : Except Fault Process} (step : process.next program event = some result) :
    ∃ after, result = .ok after ∧ after.Lawful := by
  rcases lawful.next_cases step with ⟨answer, rfl, fresh, rfl⟩ |
    ⟨index, change, entry, conn, rfl, found, shown, owns, revived, rfl⟩
  · refine ⟨_, rfl, ?_⟩
    cases answer with
    | evError => exact lawful
    | refused => exact lawful
    | blocking sd => exact lawful.opened sd
    | noMemory sd => exact lawful.opened sd
    | added sd memory now => exact lawful.added (fresh sd rfl) memory now
  · exact ⟨_, rfl, lawful.updated found shown owns revived⟩

end Process

/-- A fault-free and lawful process. -/
def Healthy : Except Fault Process → Prop
  | .ok process => process.Lawful
  | .error _ => False

theorem healthy_preserved (program : Program) : (processSystem program).Preserves Healthy := by
  intro state event next healthy step
  cases state with
  | error fault => exact healthy.elim
  | ok process =>
      obtain ⟨after, rfl, lawful⟩ := Process.Lawful.next healthy step
      exact lawful

/-- The loop invokes a callback of the client. -/
def Event.IsCallback : Event → Prop
  | .wcbRecv _ _ | .wcbSend _ | .wcbTimeout => True
  | .tick _ | .pollRecv | .pollSend | .pollTimeout => False

/-- The life of one client as `echo_client_del` must leave it. -/
structure Accepted.WellLived (entry : Accepted) : Prop where
  /-- `echo_client_del` runs at most once. -/
  dels_le : entry.conn.dels ≤ 1
  /-- It alone frees the client. -/
  freed_iff : entry.conn.client = none ↔ entry.conn.dels = 1
  /-- It closes the client's descriptor and nothing else does. -/
  closed_eq : entry.conn.closed = List.replicate entry.conn.dels entry.sd
  /-- The client holds the descriptor it was added with. -/
  fd_eq : ∀ client, entry.conn.client = some client → client.fd = entry.sd

theorem Owns.wellLived {entry : Accepted} (owns : Owns entry.sd entry.conn) : entry.WellLived := by
  cases held : entry.conn.client with
  | none =>
      simp only [Owns, held] at owns
      obtain ⟨closed_eq, dels_eq⟩ := owns
      exact ⟨by omega, by simp [held, dels_eq], by simp [closed_eq, dels_eq], by simp [held]⟩
  | some client =>
      obtain ⟨fd_eq, closed_eq, dels_eq⟩ := (owns_live held).mp owns
      refine ⟨by omega, by simp [held, dels_eq], by simp [closed_eq, dels_eq], ?_⟩
      intro current current_held
      rw [held] at current_held
      rwa [← Option.some.inj current_held]

/-- In every run of a process, with any number of clients: no callback touches freed memory, none is
ever invoked on a deleted client, every client is deleted at most once and its descriptor closed
exactly then, and live clients hold distinct open descriptors. -/
theorem client_lifecycle {program : Program} {listener : Nat} {state : Except Fault Process}
    (reach : (processSystem program).Reachable (.ok (.listening listener)) state) :
    ∃ process, state = .ok process ∧
      (∀ (index : Nat) (entry : Accepted), process.clients[index]? = some entry →
        entry.WellLived) ∧
      (∀ (index : Nat) (entry : Accepted) (event : Event),
        process.clients[index]? = some entry → 0 < entry.conn.dels → event.IsCallback →
          process.next program (.client index event) = none) ∧
      (∀ (index : Nat) (entry : Accepted) (client : EchoClient),
        process.clients[index]? = some entry → entry.conn.client = some client →
          client.fd ∈ process.openFds) ∧
      ∀ (left right : Nat) (entry entry' : Accepted) (client client' : EchoClient),
        process.clients[left]? = some entry → process.clients[right]? = some entry' →
          entry.conn.client = some client → entry'.conn.client = some client' →
            client.fd = client'.fd → left = right := by
  have start : Healthy (.ok (.listening listener)) := Process.listening_lawful listener
  have healthy := (healthy_preserved program).reachable start reach
  cases state with
  | error fault => exact healthy.elim
  | ok process =>
      have lawful : process.Lawful := healthy
      refine ⟨process, rfl, ?_, ?_, ?_, ?_⟩
      · intro index entry found
        exact (lawful.owns index entry found).wellLived
      · intro index entry event found deleted callback
        have lived := (lawful.owns index entry found).wellLived
        obtain ⟨pipe, shown⟩ := lawful.shown index entry found
        have freed : entry.conn.client = none := by
          rw [lived.freed_iff]
          have dels_le := lived.dels_le
          omega
        have idle : entry.conn.next program event = none := by
          rw [Option.eq_none_iff_forall_ne_some]
          intro result step
          obtain ⟨elapsed, rfl, -⟩ := next_of_quiet (shown.quiet freed) step
          exact callback
        simp [Process.next, found, idle]
      · intro index entry client found live
        have lived := (lawful.owns index entry found).wellLived
        rw [lived.fd_eq client live]
        exact lawful.is_open index entry found (by simp [Accepted.Live, live])
      · intro left right entry entry' client client' found found' live live' fd_eq
        have lived := (lawful.owns left entry found).wellLived
        have lived' := (lawful.owns right entry' found').wellLived
        rw [lived.fd_eq client live, lived'.fd_eq client' live'] at fd_eq
        exact lawful.distinct left right entry entry' found found'
          (by simp [Accepted.Live, live]) (by simp [Accepted.Live, live']) fd_eq

/-! ## A client that idles away -/

theorem run_client {program : Program} {process : Process} {index : Nat} {entry : Accepted}
    {conn : Connection} {events : List Event} (found : process.clients[index]? = some entry)
    (execution : (connectionSystem program).run (.ok entry.conn) events = some (.ok conn)) :
    ∃ after, (processSystem program).run (.ok process) (events.map (.client index)) =
        some (.ok after) ∧ after.clients = process.clients.set index { entry with conn } := by
  induction events generalizing process entry with
  | nil =>
      obtain rfl : entry.conn = conn := by simpa using execution
      obtain ⟨inside, entry_eq⟩ := List.getElem?_eq_some_iff.mp found
      refine ⟨process, rfl, ?_⟩
      rw [← entry_eq, List.set_getElem_self]
  | cons event events ih =>
      obtain ⟨middle, first, rest⟩ := (connectionSystem program).run_cons_eq_some execution
      cases middle with
      | error fault =>
          cases events with
          | nil => simp at rest
          | cons second events => simp [connectionSystem] at rest
      | ok next =>
          have inside : index < process.clients.length := (List.getElem?_eq_some_iff.mp found).1
          have step : (processSystem program).step (.ok process) (.client index event) =
              some (.ok (process.update index entry next)) := by
            have conn_step : entry.conn.next program event = some (.ok next) := first
            simp [processSystem, Process.next, found, conn_step, Except.map]
          have found' : (process.update index entry next).clients[index]? =
              some { entry with conn := next } := by simp [Process.update, inside]
          obtain ⟨after, later, clients_eq⟩ := ih found' rest
          refine ⟨after, by simpa [step] using later, ?_⟩
          simpa [Process.update] using clients_eq

theorem run_reset (program : Program) (sd : Nat) (memory : Vector Byte TO_SEND_SIZE)
    (now : Time) : ∃ conn, (connectionSystem program).run (.ok (echoClientAdd sd memory now))
      [.pollRecv, .wcbRecv [.error (.other 104)] (.error .eagain)] = some (.ok conn) ∧
        conn.client = none := by
  have fires : Fires program (polledConnection sd memory now) (freshClient sd memory)
      (.wcbRecv [.error (.other 104)] (.error .eagain)) _ := .wcbRecv rfl rfl trivial
  have step := fires.next_eq rfl (freshClient_window sd memory)
  refine ⟨_, congrArg (fun state => state.bind fun next => some next) step, ?_⟩
  simp [recvEffect, Connection.deleted]

/-- A listening process that accepted one client. -/
def acceptedProcess (sd : Nat) (memory : Vector Byte TO_SEND_SIZE) : Process :=
  (Process.listening 3).echoServerWcbAccept (.added sd memory 0)

theorem client_lifecycle_reset : ∃ process entry,
    (processSystem .serverHonest).Reachable (.ok (.listening 3)) (.ok process) ∧
      process.clients[0]? = some entry ∧ entry.conn.client = none ∧
      process.next .serverHonest (.client 0 .wcbTimeout) = none := by
  let memory : Vector Byte TO_SEND_SIZE := Vector.replicate TO_SEND_SIZE 0
  have accepted : (processSystem .serverHonest).Reachable (.ok (.listening 3))
      (.ok (acceptedProcess 5 memory)) := by
    refine ⟨[.accept (.added 5 memory 0)], ?_⟩
    simp [processSystem, Process.next, Process.listening, AcceptAnswer.sd, acceptedProcess]
  have first : (acceptedProcess 5 memory).clients[0]? =
      some { sd := 5, conn := echoClientAdd 5 memory 0 } := by
    simp [acceptedProcess, Process.echoServerWcbAccept, Process.listening]
  obtain ⟨conn, reset, freed⟩ := run_reset .serverHonest 5 memory 0
  obtain ⟨process, later, clients_eq⟩ := run_client first reset
  have reach := Reachable.run _ accepted later
  have found : process.clients[0]? = some { sd := 5, conn } := by
    rw [clients_eq, List.getElem?_set_self (by
      simp [acceptedProcess, Process.echoServerWcbAccept])]
  obtain ⟨_, process_eq, lived, silent, -⟩ := client_lifecycle reach
  obtain rfl := Except.ok.inj process_eq
  have dels_eq : conn.dels = 1 := (lived 0 _ found).freed_iff.mp freed
  have deleted : 0 < conn.dels := by omega
  exact ⟨process, _, reach, found, freed, silent 0 _ .wcbTimeout found deleted trivial⟩

end Mrps.Honest
