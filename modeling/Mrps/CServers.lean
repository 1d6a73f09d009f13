import Mrps.Honest.Descriptors
import Mrps.Plain.Process

/-!
# Descriptors of the four servers in C

The accept callback is the same in all four servers, and in all four it keeps a descriptor open that
it cannot register: when `aux_set_nonblk` fails it returns without closing it, and it ignores what
`echo_client_add` returns.  These are the only ways in which a descriptor is ever lost.
-/

namespace Mrps

/-- The servers of `c-bachan`. -/
inductive CServer where
  | serverHonest
  | threadHonest
  | server
  | thread
  deriving DecidableEq, Repr

namespace CServer

/-- States of a server's process. -/
def State : CServer → Type
  | .serverHonest | .threadHonest => Except Honest.Fault Honest.Process
  | .server | .thread => Except Plain.Fault Plain.Process

/-- What can happen to a server's process. -/
def Event : CServer → Type
  | .serverHonest | .threadHonest => Honest.ProcessEvent
  | .server | .thread => Plain.ProcessEvent

/-- The runs of a server. -/
def system : (program : CServer) → EventSystem program.State program.Event
  | .serverHonest => Honest.processSystem .serverHonest
  | .threadHonest => Honest.processSystem .threadHonest
  | .server | .thread => Plain.processSystem

/-- A server listening on `sd` before its first accept. -/
def listening (sd : Nat) : (program : CServer) → program.State
  | .serverHonest | .threadHonest => .ok (Honest.Process.listening sd)
  | .server | .thread => .ok (Plain.Process.listening sd)

/-- Which descriptors are open and which live client owns which of them. -/
def descriptors : (program : CServer) → program.State → HandleTable Nat
  | .serverHonest | .threadHonest => Honest.descriptors
  | .server | .thread => Plain.descriptors

/-- An accept whose non-blocking `ioctl` or whose `malloc` fails. -/
def Abandons : (program : CServer) → program.Event → Prop
  | .serverHonest | .threadHonest => Honest.ProcessEvent.Abandons
  | .server | .thread => Plain.ProcessEvent.Abandons

end CServer

theorem conserved_empty (listener : Nat) :
    HandleTable.Conserved {listener} { owners := [], opened := {listener} } := by
  constructor <;> simp

theorem honest_conserved_iff {program : Honest.Program} {listener : Nat}
    {events : List Honest.ProcessEvent} {final : Except Honest.Fault Honest.Process}
    (execution : (Honest.processSystem program).run (.ok (.listening listener)) events =
      some final) :
    HandleTable.Conserved {listener} (Honest.descriptors final) ↔
      ∀ event ∈ events, ¬ Honest.ProcessEvent.Abandons event := by
  have tracks := Honest.descriptors_tracked program
  have healthy : Honest.Healthy (.ok (.listening listener)) :=
    Honest.Process.listening_lawful listener
  exact tracks.conserved_iff (Honest.healthy_preserved program) healthy
    (conserved_empty listener) execution

theorem plain_conserved_iff {listener : Nat} {events : List Plain.ProcessEvent}
    {final : Except Plain.Fault Plain.Process}
    (execution : Plain.processSystem.run (.ok (.listening listener)) events = some final) :
    HandleTable.Conserved {listener} (Plain.descriptors final) ↔
      ∀ event ∈ events, ¬ Plain.ProcessEvent.Abandons event :=
  Plain.descriptors_tracked.conserved_iff Plain.healthy_preserved
    (Plain.healthy_listening listener) (conserved_empty listener) execution

/-- At the end of a run of any of the servers the accepted descriptors that are still open are
exactly those of the live registered clients, each owned by one of them, if and only if no accept of
the run failed behind `accept` itself. -/
theorem descriptors_conserved_iff (program : CServer) {listener : Nat}
    {events : List program.Event} {final : program.State}
    (execution : program.system.run (program.listening listener) events = some final) :
    HandleTable.Conserved {listener} (program.descriptors final) ↔
      ∀ event ∈ events, ¬ program.Abandons event := by
  cases program with
  | serverHonest => exact honest_conserved_iff execution
  | threadHonest => exact honest_conserved_iff execution
  | server => exact plain_conserved_iff execution
  | thread => exact plain_conserved_iff execution

/-- A client of `server.c` is accepted, echoes a byte and times out. -/
def idleClientEvents : List Plain.ProcessEvent :=
  [.accept (.added 5 0), .client 0 .pollRecv, .client 0 (.wcbRecv [.ok [97]] (.ok 1)),
    .client 0 (.tick 60000000), .client 0 .pollTimeout, .client 0 .wcbTimeout]

theorem descriptors_conserved_iff_idle :
    ∃ final, (CServer.system .server).run (CServer.listening 3 .server) idleClientEvents =
        some final ∧ HandleTable.Conserved {3} (CServer.descriptors .server final) := by
  have runs : ((CServer.system .server).run (CServer.listening 3 .server)
      idleClientEvents).isSome := rfl
  obtain ⟨final, execution⟩ := Option.isSome_iff_exists.mp runs
  refine ⟨final, execution, (descriptors_conserved_iff .server execution).mpr ?_⟩
  change ∀ event ∈ idleClientEvents, ¬ Plain.ProcessEvent.Abandons event
  simp [idleClientEvents, Plain.ProcessEvent.Abandons]

theorem not_conserved_of_unowned {opened : Finset Nat} (is_open : 5 ∈ opened) :
    ¬ HandleTable.Conserved {3} { owners := [], opened } := by
  intro conserved
  have owned := (conserved.opened_iff 5).mp is_open
  simp at owned

theorem descriptor_lost :
    (∃ final, (Honest.processSystem .serverHonest).run (.ok (.listening 3))
        [.accept (.blocking 5)] = some final ∧
      ¬ HandleTable.Conserved {3} (Honest.descriptors final)) ∧
    (∃ final, (Honest.processSystem .threadHonest).run (.ok (.listening 3))
        [.accept (.noMemory 5)] = some final ∧
      ¬ HandleTable.Conserved {3} (Honest.descriptors final)) ∧
    (∃ final, Plain.processSystem.run (.ok (.listening 3)) [.accept (.blocking 5)] = some final ∧
      ¬ HandleTable.Conserved {3} (Plain.descriptors final)) ∧
    ∃ final, Plain.processSystem.run (.ok (.listening 3)) [.accept (.noMemory 5)] = some final ∧
      ¬ HandleTable.Conserved {3} (Plain.descriptors final) := by
  refine ⟨⟨_, rfl, ?_⟩, ⟨_, rfl, ?_⟩, ⟨_, rfl, ?_⟩, _, rfl, ?_⟩
  · exact not_conserved_of_unowned (Finset.mem_insert_self 5 {3})
  · exact not_conserved_of_unowned (Finset.mem_insert_self 5 {3})
  · exact not_conserved_of_unowned (Finset.mem_insert_self 5 {3})
  · exact not_conserved_of_unowned (Finset.mem_insert_self 5 {3})

end Mrps
