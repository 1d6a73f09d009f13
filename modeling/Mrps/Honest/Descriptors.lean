import Mrps.Honest.Lifecycle

/-!
# Descriptors of a buffered process

Every step of a process of `server-honest.c` or `thread-honest.c` is one step of its descriptor
table.
-/

namespace Mrps.Honest

/-- Who owns which open descriptor: each registered client the one in its watchers. -/
def Process.descriptors (process : Process) : HandleTable Nat :=
  { owners := process.clients.map fun entry => entry.conn.client.map EchoClient.fd
    opened := process.openFds }

/-- The descriptor table of a state. -/
def descriptors : Except Fault Process → HandleTable Nat
  | .ok process => process.descriptors
  | .error _ => { owners := [], opened := ∅ }

/-- A descriptor returned by `accept` stays open although no client was registered for it. -/
def ProcessEvent.Abandons : ProcessEvent → Prop
  | .accept (.blocking _) | .accept (.noMemory _) => True
  | .accept .evError | .accept .refused | .accept (.added _ _ _) | .client _ _ => False

/-- The descriptors a step closes are its client's, in the same step in which it is freed. -/
theorem next_closes {sd : Nat} {conn next : Connection} (owns : Owns sd conn)
    (owns' : Owns sd next) (revived : conn.client = none → next.client = none) :
    next.client.map EchoClient.fd = conn.client.map EchoClient.fd ∧
        next.closed.drop conn.closed.length = [] ∨
      ∃ fd, conn.client.map EchoClient.fd = some fd ∧ next.client.map EchoClient.fd = none ∧
        next.closed.drop conn.closed.length = [fd] := by
  have closed_eq := owns.closed_drop owns'
  cases held : conn.client with
  | none =>
      have freed := revived held
      left
      simpa [held, freed] using closed_eq
  | some client =>
      obtain ⟨rfl, -, -⟩ := (owns_live held).mp owns
      cases held' : next.client with
      | none =>
          right
          exact ⟨client.fd, rfl, rfl, by simpa [held, held'] using closed_eq⟩
      | some client' =>
          obtain ⟨fd_eq, -, -⟩ := (owns_live held').mp owns'
          left
          exact ⟨by simp [fd_eq], by simpa [held, held'] using closed_eq⟩

theorem descriptors_tracked (program : Program) :
    HandleTable.Tracks (processSystem program) descriptors ProcessEvent.Abandons Healthy := by
  intro state event after healthy step
  cases state with
  | error fault => exact healthy.elim
  | ok process =>
      have lawful : process.Lawful := healthy
      rcases lawful.next_cases step with ⟨answer, rfl, fresh, rfl⟩ |
        ⟨index, change, entry, conn, rfl, found, -, owns, revived, rfl⟩
      · cases answer with
        | evError => exact ⟨.idle, rfl, Iff.rfl⟩
        | refused => exact ⟨.idle, rfl, Iff.rfl⟩
        | blocking sd =>
            have unopened : sd ∉ process.openFds := fresh sd rfl
            exact ⟨.abandon sd, if_neg unopened, Iff.rfl⟩
        | noMemory sd =>
            have unopened : sd ∉ process.openFds := fresh sd rfl
            exact ⟨.abandon sd, if_neg unopened, Iff.rfl⟩
        | added sd memory now =>
            have unopened : sd ∉ process.openFds := fresh sd rfl
            refine ⟨.grant sd, ?_, Iff.rfl⟩
            simp [HandleTable.next, descriptors, unopened, Process.descriptors,
              Process.echoServerWcbAccept, echoClientAdd]
      · have closes := next_closes (lawful.owns index entry found) owns revived
        have owner_found : process.descriptors.owners[index]? =
            some (entry.conn.client.map EchoClient.fd) := by simp [Process.descriptors, found]
        obtain ⟨change, table_step, kept⟩ := HandleTable.exists_next_set owner_found closes
        refine ⟨change, ?_, iff_of_false kept id⟩
        simpa [descriptors, Process.descriptors, Process.update, List.map_set] using table_step

end Mrps.Honest
