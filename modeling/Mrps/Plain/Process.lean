import Mrps.HandleTable
import Mrps.Plain.Callbacks

/-!
# All clients of a plain process

A process of `server.c` or `thread.c` with its descriptor table and every client it ever accepted.
As in the buffered servers a callback makes at most one call that changes the table, so the loops of
`thread.c` interleave at the grain of whole callbacks.
-/

namespace Mrps.Plain

/-- The state of a process. -/
structure Process where
  /-- Every client that `echo_client_add` registered, in order. -/
  clients : List Connection
  /-- The open descriptors. -/
  openFds : Finset Nat
  deriving DecidableEq

/-- The outcomes of the calls of `echo_server_wcb_accept`. -/
inductive AcceptAnswer where
  /-- The loop reports `EV_ERROR`. -/
  | evError
  /-- `accept` fails. -/
  | refused
  /-- `aux_set_nonblk` fails on the new descriptor. -/
  | blocking (sd : Nat)
  /-- `malloc` fails in `echo_client_add`. -/
  | noMemory (sd : Nat)
  /-- The client is registered. -/
  | added (sd : Nat) (now : Time)
  deriving DecidableEq, Repr

/-- The descriptor `accept` returned. -/
def AcceptAnswer.sd : AcceptAnswer → Option Nat
  | .evError | .refused => none
  | .blocking sd | .noMemory sd | .added sd _ => some sd

/-- What can happen to a process. -/
inductive ProcessEvent where
  | accept (answer : AcceptAnswer)
  | client (index : Nat) (event : Event)
  deriving DecidableEq, Repr

namespace Process

/-- `echo_server_wcb_accept`. -/
def echoServerWcbAccept (process : Process) : AcceptAnswer → Process
  | .evError => process
  | .refused => process
  | .blocking sd => { process with openFds := insert sd process.openFds }
  | .noMemory sd => { process with openFds := insert sd process.openFds }
  | .added sd now =>
      { clients := process.clients ++ [echoClientAdd sd now]
        openFds := insert sd process.openFds }

/-- The state after a callback of the client at `index` turned its connection into `next`. -/
def update (process : Process) (index : Nat) (conn next : Connection) : Process :=
  { clients := process.clients.set index next
    openFds := process.openFds \ (next.closed.drop conn.closed.length).toFinset }

/-- One step of a process; `accept` never returns a descriptor that is open. -/
def next (process : Process) : ProcessEvent → Option (Except Fault Process)
  | .accept answer =>
      if ∀ sd ∈ answer.sd, sd ∉ process.openFds then
        some (.ok (process.echoServerWcbAccept answer))
      else
        none
  | .client index event =>
      process.clients[index]?.bind fun conn =>
        (conn.next event).map fun result => result.map (process.update index conn)

/-- A process listening on `sd` before its first accept. -/
def listening (sd : Nat) : Process := { clients := [], openFds := {sd} }

/-- Who owns which open descriptor: each registered client the one in its `wev_recv`. -/
def descriptors (process : Process) : HandleTable Nat :=
  { owners := process.clients.map fun conn => conn.client.map EchoClient.fd
    opened := process.openFds }

end Process

/-- The runs of a process; a fault ends the run. -/
def processSystem : EventSystem (Except Fault Process) ProcessEvent where
  step state event :=
    match state with
    | .ok process => process.next event
    | .error _ => none

/-- A descriptor returned by `accept` stays open although no client was registered for it. -/
def ProcessEvent.Abandons : ProcessEvent → Prop
  | .accept (.blocking _) | .accept (.noMemory _) => True
  | .accept .evError | .accept .refused | .accept (.added _ _) | .client _ _ => False

/-! ## One client -/

theorem recvEffect_closes {conn : Connection} {client : EchoClient}
    (live : conn.client = some client) (answer : SendAnswer) (nb : RecvAnswer) :
    (recvEffect conn client answer nb).client = some client ∧
        (recvEffect conn client answer nb).closed = conn.closed ∨
      (recvEffect conn client answer nb).client = none ∧
        (recvEffect conn client answer nb).closed = conn.closed ++ [client.fd] := by
  rcases nb with (_ | _ | _) | bytes
  · exact Or.inl ⟨live, rfl⟩
  · exact Or.inr ⟨rfl, rfl⟩
  · exact Or.inr ⟨rfl, rfl⟩
  · rw [recvEffect]
    split
    · exact Or.inr ⟨rfl, rfl⟩
    · cases answer with
      | error error => exact Or.inr ⟨rfl, rfl⟩
      | ok sentNb => exact Or.inl ⟨live, rfl⟩

/-- A callback leaves the client and its descriptor alone, or frees the one and closes the other. -/
theorem Fires.closes {conn next : Connection} {client : EchoClient} {event : Event}
    (fires : Fires conn client event next) (live : conn.client = some client) :
    next.client = some client ∧ next.closed = conn.closed ∨
      next.client = none ∧ next.closed = conn.closed ++ [client.fd] := by
  cases fires with
  | tick => exact Or.inl ⟨live, rfl⟩
  | pollRecv => exact Or.inl ⟨live, rfl⟩
  | pollTimeout => exact Or.inl ⟨live, rfl⟩
  | wcbRecv =>
      have live' : (conn.register Watchers.recvInvoked).client = some client := live
      exact recvEffect_closes live' _ _
  | wcbTimeout => exact Or.inr ⟨rfl, rfl⟩

/-- The descriptors a step closes are its client's, in the same step in which it is freed. -/
theorem next_closes {conn next : Connection} {event : Event} (settled : Settled conn)
    (step : conn.next event = some (.ok next)) :
    next.client.map EchoClient.fd = conn.client.map EchoClient.fd ∧
        next.closed.drop conn.closed.length = [] ∨
      ∃ fd, conn.client.map EchoClient.fd = some fd ∧ next.client.map EchoClient.fd = none ∧
        next.closed.drop conn.closed.length = [fd] := by
  obtain ⟨_, result_eq, -, ⟨client, live, fires⟩ | ⟨-, elapsed, -, next_eq⟩⟩ :=
    next_cases settled step
  · obtain rfl := Except.ok.inj result_eq
    rcases fires.closes live with ⟨kept, closed_eq⟩ | ⟨freed, closed_eq⟩
    · exact Or.inl ⟨by rw [kept, live], by simp [closed_eq]⟩
    · exact Or.inr ⟨client.fd, by simp [live], by simp [freed], by simp [closed_eq]⟩
  · obtain rfl := (Except.ok.inj result_eq).trans next_eq
    exact Or.inl ⟨rfl, by simp⟩

/-! ## All clients -/

/-- A fault-free process whose freed clients have no watcher left. -/
def Healthy : Except Fault Process → Prop
  | .ok process => ∀ conn ∈ process.clients, Settled conn
  | .error _ => False

theorem healthy_listening (sd : Nat) : Healthy (.ok (.listening sd)) := by
  simp [Healthy, Process.listening]

/-- The steps of a process: an accept, or a step of one of its clients. -/
theorem Process.next_cases {process : Process} {event : ProcessEvent}
    {result : Except Fault Process} (settled : ∀ conn ∈ process.clients, Settled conn)
    (step : process.next event = some result) :
    (∃ answer, event = .accept answer ∧ (∀ sd ∈ answer.sd, sd ∉ process.openFds) ∧
        result = .ok (process.echoServerWcbAccept answer)) ∨
      ∃ index change conn next, event = .client index change ∧
        process.clients[index]? = some conn ∧ Settled conn ∧
        conn.next change = some (.ok next) ∧ Settled next ∧
        result = .ok (process.update index conn next) := by
  cases event with
  | accept answer =>
      rw [Process.next, Option.ite_none_right_eq_some] at step
      obtain ⟨fresh, accepted⟩ := step
      exact Or.inl ⟨answer, rfl, fresh, (Option.some.inj accepted).symm⟩
  | client index change =>
      simp only [Process.next, Option.bind_eq_some_iff, Option.map_eq_some_iff] at step
      obtain ⟨conn, found, answer, conn_step, rfl⟩ := step
      have conn_settled := settled conn (List.mem_iff_getElem?.mpr ⟨index, found⟩)
      obtain ⟨next, rfl, next_settled, -⟩ := Plain.next_cases conn_settled conn_step
      exact Or.inr
        ⟨index, change, conn, next, rfl, found, conn_settled, conn_step, next_settled, rfl⟩

theorem healthy_preserved : processSystem.Preserves Healthy := by
  intro state event next healthy step
  cases state with
  | error fault => exact healthy.elim
  | ok process =>
      have settled : ∀ conn ∈ process.clients, Settled conn := healthy
      rcases Process.next_cases settled step with ⟨answer, rfl, -, rfl⟩ |
        ⟨index, change, conn, after, rfl, -, -, -, after_settled, rfl⟩
      · cases answer with
        | evError => exact settled
        | refused => exact settled
        | blocking sd => exact settled
        | noMemory sd => exact settled
        | added sd now =>
            apply forall_mem_concat settled
            exact settled_echoClientAdd sd now
      · apply forall_mem_set settled
        exact after_settled

/-- The descriptor table of a state. -/
def descriptors : Except Fault Process → HandleTable Nat
  | .ok process => process.descriptors
  | .error _ => { owners := [], opened := ∅ }

theorem descriptors_tracked :
    HandleTable.Tracks processSystem descriptors ProcessEvent.Abandons Healthy := by
  intro state event after healthy step
  cases state with
  | error fault => exact healthy.elim
  | ok process =>
      have settled : ∀ conn ∈ process.clients, Settled conn := healthy
      rcases Process.next_cases settled step with ⟨answer, rfl, fresh, rfl⟩ |
        ⟨index, change, conn, next, rfl, found, conn_settled, conn_step, -, rfl⟩
      · cases answer with
        | evError => exact ⟨.idle, rfl, Iff.rfl⟩
        | refused => exact ⟨.idle, rfl, Iff.rfl⟩
        | blocking sd =>
            have unopened : sd ∉ process.openFds := fresh sd rfl
            exact ⟨.abandon sd, if_neg unopened, Iff.rfl⟩
        | noMemory sd =>
            have unopened : sd ∉ process.openFds := fresh sd rfl
            exact ⟨.abandon sd, if_neg unopened, Iff.rfl⟩
        | added sd now =>
            have unopened : sd ∉ process.openFds := fresh sd rfl
            refine ⟨.grant sd, ?_, Iff.rfl⟩
            simp [HandleTable.next, descriptors, unopened, Process.descriptors,
              Process.echoServerWcbAccept, echoClientAdd]
      · have owner_found : process.descriptors.owners[index]? =
            some (conn.client.map EchoClient.fd) := by simp [Process.descriptors, found]
        obtain ⟨change, table_step, kept⟩ :=
          HandleTable.exists_next_set owner_found (next_closes conn_settled conn_step)
        refine ⟨change, ?_, iff_of_false kept id⟩
        simpa [descriptors, Process.descriptors, Process.update, List.map_set] using table_step

end Mrps.Plain
