import Mrps.HandleTable
import Mrps.Load.Process

/-!
# What `client_add` acquires

`client_add` allocates the client object first and then opens its descriptor.  Each later failure
closes the descriptor and none of them frees the object, so the objects, the descriptors and the
timers correspond exactly as long as nothing fails but the allocation.
-/

namespace Mrps.Load

open EventSystem

/-- Who owns which open descriptor: each registered client the one in its watchers. -/
def Process.descriptors (process : Process) : HandleTable Nat :=
  { owners := process.clients.map fun entry => entry.conn.client.map Client.fd
    opened := process.openFds }

/-- Every allocated object is a registered client, which owns one open descriptor, every open
descriptor has one such owner, and exactly the clients with an object have their timer armed. -/
structure Process.Corresponds (process : Process) : Prop where
  registered : process.orphans = 0
  descriptors : HandleTable.Conserved ∅ process.descriptors
  timers : ∀ entry ∈ process.clients,
    entry.conn.client ≠ none ↔ entry.conn.watchers.timeout.active = true

/-- The same objects are allocated, the same descriptors are open and the same watchers are
armed. -/
structure Process.SameResources (before after : Process) : Prop where
  clients : after.clients = before.clients
  orphans : after.orphans = before.orphans
  openFds : after.openFds = before.openFds

/-- `client_add` returns 0. -/
def AddAnswer.Succeeds : AddAnswer → Prop
  | .added _ => True
  | .noMemory | .noSocket | .blocking _ | .refused _ => False

/-- `client_add` returns after its allocation and before it registers the client. -/
def AddAnswer.Abandons : AddAnswer → Prop
  | .noSocket | .blocking _ | .refused _ => True
  | .noMemory | .added _ => False

/-- A `client_add` that returns -1 leaves the resources of the process as they were, and after the
step they correspond. -/
structure AddsAtomically (state : Except Fault Process) (event : ProcessEvent)
    (next : Except Fault Process) : Prop where
  failure : ∀ process after answer, state = .ok process → next = .ok after →
    event = .wcbSilent answer → process.numberOfClients < MAX_CLIENTS → ¬ answer.Succeeds →
      process.SameResources after
  corresponds : ∀ after, next = .ok after → after.Corresponds

/-- A `client_add` that is called succeeds or fails to allocate. -/
def AbandonsNone (state : Except Fault Process) (event : ProcessEvent)
    (_ : Except Fault Process) : Prop :=
  ∀ process answer, state = .ok process → event = .wcbSilent answer →
    process.numberOfClients < MAX_CLIENTS → ¬ answer.Abandons

/-! ## One client -/

section OneClient

variable {session next : Session} {client : Client}

theorem Bursts.timed {answers : List SendAnswer} (bursts : Bursts session client answers next)
    (active : session.conn.watchers.timeout.active = true) :
    next.conn.client ≠ none → next.conn.watchers.timeout.active = true := by
  induction bursts with
  | done => exact fun _ => active
  | failed => exact fun live => absurd rfl live
  | sent _ _ _ ih => exact ih active

theorem Fires.timed {event : Event} (fires : Fires session client event next)
    (active : session.conn.watchers.timeout.active = true) :
    next.conn.client ≠ none → next.conn.watchers.timeout.active = true := by
  cases fires with
  | tick => exact fun _ => active
  | pollRecv => exact fun _ => active
  | pollSend => exact fun _ => active
  | pollConnect => exact fun _ => active
  | pollTimeout polled =>
      obtain ⟨-, rfl⟩ := TimerWatcher.poll_eq_some_iff.mp polled
      exact fun _ => active
  | @wcbRecv recv nb =>
      rcases nb with (_ | _ | _) | bytes
      · exact fun _ => active
      · exact fun live => absurd rfl live
      · exact fun live => absurd rfl live
      · exact fun _ => active
  | wcbSend _ bursts => exact bursts.timed active
  | wcbConnect readable =>
      cases readable with
      | true => exact fun live => absurd rfl live
      | false => exact fun _ => active
  | wcbTimeout => exact fun _ => active

/-- The object of a client and its timer end together. -/
theorem Kept.timer_iff {sd : Nat} {event : Event} (kept : Kept sd session.conn)
    (timed : session.conn.client ≠ none ↔ session.conn.watchers.timeout.active = true)
    (step : session.next event = some (.ok next)) :
    next.conn.client ≠ none ↔ next.conn.watchers.timeout.active = true := by
  obtain ⟨_, same, kept', ⟨-, elapsed, -, rfl⟩ | ⟨client, live, fires⟩⟩ := kept.taken step
  · obtain rfl := Except.ok.inj same
    exact timed
  · obtain rfl := Except.ok.inj same
    constructor
    · exact fires.timed (timed.mp (by simp [live]))
    · rintro active freed
      simp [(kept'.quiet freed).timeout_active] at active

/-- A step leaves a client with its descriptor, or ends the one and closes the other. -/
theorem Kept.closes {sd : Nat} {conn conn' : Connection} (kept : Kept sd conn)
    (kept' : Kept sd conn') (stays : conn.client = none → conn'.client = none) :
    conn'.client.map Client.fd = conn.client.map Client.fd ∧
        conn'.closed.drop conn.closed.length = [] ∨
      ∃ fd, conn.client.map Client.fd = some fd ∧ conn'.client.map Client.fd = none ∧
        conn'.closed.drop conn.closed.length = [fd] := by
  cases before : conn.client with
  | none =>
      have after := stays before
      exact .inl ⟨by simp [after], by simp [kept.freed before, kept'.freed after]⟩
  | some client =>
      obtain ⟨fd_eq, unclosed, -⟩ := kept.live client before
      cases after : conn'.client with
      | none => exact .inr ⟨sd, by simp [fd_eq], rfl, by simp [unclosed, kept'.freed after]⟩
      | some later =>
          obtain ⟨fd_eq', unclosed', -⟩ := kept'.live later after
          exact .inl ⟨by simp [fd_eq, fd_eq'], by simp [unclosed']⟩

theorem Kept.stays_freed {sd : Nat} {event : Event} (kept : Kept sd session.conn)
    (step : session.next event = some (.ok next)) (freed : session.conn.client = none) :
    next.conn.client = none := by
  obtain ⟨_, same, -, ⟨-, elapsed, -, rfl⟩ | ⟨client, live, -⟩⟩ := kept.taken step
  · obtain rfl := Except.ok.inj same
    exact freed
  · rw [freed] at live
    cases live

end OneClient

/-! ## All clients -/

namespace Process.Corresponds

variable {process : Process}

theorem of_same {after : Process} (corresponds : process.Corresponds)
    (same : process.SameResources after) : after.Corresponds := by
  have table : after.descriptors = process.descriptors := by
    rw [Process.descriptors, Process.descriptors, same.clients, same.openFds]
  refine ⟨same.orphans.trans corresponds.registered, ?_, ?_⟩
  · rw [table]
    exact corresponds.descriptors
  · rw [same.clients]
    exact corresponds.timers

theorem added (corresponds : process.Corresponds) {sd : Nat} (fresh : sd ∉ process.openFds) :
    (process.clientAdd (.added sd)).Corresponds := by
  refine ⟨corresponds.registered, ?_, ?_⟩
  · have unopened : sd ∉ process.descriptors.opened := fresh
    have granted := corresponds.descriptors.grant unopened
    simpa [Process.descriptors, Process.clientAdd, Load.clientAdd] using granted
  · apply forall_mem_concat corresponds.timers
    exact iff_of_true (by simp [Load.clientAdd]) rfl

theorem update (corresponds : process.Corresponds) {index : Nat} {entry : Added} {next : Session}
    {change : Event} (found : process.clients[index]? = some entry)
    (step : (process.session entry).next change = some (.ok next))
    (kept : Kept entry.sd entry.conn) (kept' : Kept entry.sd next.conn) :
    (process.update index entry next).Corresponds := by
  have kept_session : Kept entry.sd (process.session entry).conn := kept
  refine ⟨corresponds.registered, ?_, ?_⟩
  · have owner_found : process.descriptors.owners[index]? =
        some (entry.conn.client.map Client.fd) := by simp [Process.descriptors, found]
    obtain ⟨event, table_step, conserves⟩ := HandleTable.exists_next_set owner_found
      (kept.closes kept' (kept_session.stays_freed step))
    have conserved := corresponds.descriptors.next table_step conserves
    simpa [Process.descriptors, Process.update, List.map_set] using conserved
  · apply forall_mem_set corresponds.timers
    exact kept_session.timer_iff (corresponds.timers entry (List.mem_of_getElem? found)) step

end Process.Corresponds

/-- A call of `client_add` that returns -1 is atomic exactly if it has nothing to give back. -/
theorem sameResources_iff {process : Process} {answer : AddAnswer} (failed : ¬ answer.Succeeds) :
    process.SameResources (process.clientAdd answer) ↔ ¬ answer.Abandons := by
  have leaks : ∀ after : Process, after.orphans = process.orphans + 1 →
      ¬ process.SameResources after := by
    intro after orphans same
    have := same.orphans
    omega
  cases answer with
  | noMemory => exact iff_of_true ⟨rfl, rfl, rfl⟩ id
  | noSocket => exact iff_of_false (leaks _ rfl) (not_not_intro trivial)
  | blocking sd => exact iff_of_false (leaks _ rfl) (not_not_intro trivial)
  | refused sd => exact iff_of_false (leaks _ rfl) (not_not_intro trivial)
  | added sd => exact absurd trivial failed

theorem Process.Corresponds.clientAdd {process : Process} {answer : AddAnswer}
    (corresponds : process.Corresponds) (fresh : ∀ sd ∈ answer.sd, sd ∉ process.openFds)
    (keeps : ¬ answer.Abandons) : (process.clientAdd answer).Corresponds := by
  cases answer with
  | noMemory => exact corresponds
  | added sd => exact corresponds.added (fresh sd rfl)
  | noSocket => exact absurd trivial keeps
  | blocking sd => exact absurd trivial keeps
  | refused sd => exact absurd trivial keeps

theorem AddAnswer.Abandons.not_succeeds {answer : AddAnswer} (abandons : answer.Abandons) :
    ¬ answer.Succeeds := by
  cases answer with
  | noMemory => exact abandons.elim
  | added sd => exact abandons.elim
  | noSocket | blocking sd | refused sd => exact id

/-! ## Runs -/

/-- A healthy process whose resources correspond. -/
def Matched : Except Fault Process → Prop
  | .ok process => Healthy (.ok process) ∧ process.Corresponds
  | .error _ => False

theorem matched_initial (now : Time) : Matched (.ok (.initial now)) := by
  refine ⟨by simp [Healthy, Process.initial], rfl, ?_, by simp [Process.initial]⟩
  exact ⟨by simp [Process.descriptors, Process.initial], by simp,
    by simp [Process.descriptors, Process.initial]⟩

section Steps

variable {process after : Process} {event : ProcessEvent}

theorem addsAtomically_iff_of_kept (kept : after.Corresponds)
    (none_called : ∀ answer, event = .wcbSilent answer → ¬ process.numberOfClients < MAX_CLIENTS) :
    AddsAtomically (.ok process) event (.ok after) ↔
      AbandonsNone (.ok process) event (.ok after) := by
  refine iff_of_true ⟨?_, ?_⟩ ?_
  · rintro _ _ answer ⟨⟩ ⟨⟩ event_eq below
    exact absurd below (none_called answer event_eq)
  · rintro _ ⟨⟩
    exact kept
  · rintro _ answer ⟨⟩ event_eq below
    exact absurd below (none_called answer event_eq)

theorem addsAtomically_wcbSilent {answer : AddAnswer} (corresponds : process.Corresponds)
    (fresh : ∀ sd ∈ answer.sd, sd ∉ process.openFds)
    (below : process.numberOfClients < MAX_CLIENTS) (same : process.SameResources after) :
    AddsAtomically (.ok process) (.wcbSilent answer) (.ok (after.clientAdd answer)) ↔
      AbandonsNone (.ok process) (.wcbSilent answer) (.ok (after.clientAdd answer)) := by
  have fresh' : ∀ sd ∈ answer.sd, sd ∉ after.openFds := by rwa [same.openFds]
  constructor
  · rintro adds _ _ ⟨⟩ ⟨⟩ - abandons
    have kept := adds.failure _ _ answer rfl rfl rfl below abandons.not_succeeds
    have kept' : after.SameResources (after.clientAdd answer) :=
      ⟨kept.clients.trans same.clients.symm, kept.orphans.trans same.orphans.symm,
        kept.openFds.trans same.openFds.symm⟩
    exact (sameResources_iff abandons.not_succeeds).mp kept' abandons
  · intro none_abandoned
    have keeps := none_abandoned process answer rfl rfl below
    refine ⟨?_, ?_⟩
    · rintro _ _ _ ⟨⟩ ⟨⟩ ⟨⟩ - failed
      have kept : after.SameResources (after.clientAdd answer) :=
        (sameResources_iff failed).mpr keeps
      exact ⟨kept.clients.trans same.clients, kept.orphans.trans same.orphans,
        kept.openFds.trans same.openFds⟩
    · rintro _ ⟨⟩
      exact (corresponds.of_same same).clientAdd fresh' keeps

end Steps

theorem Matched.exact {state next : Except Fault Process} {event : ProcessEvent}
    (matched : Matched state) (step : processSystem.step state event = some next) :
    AddsAtomically state event next ↔ AbandonsNone state event next := by
  cases state with
  | error fault => exact matched.elim
  | ok process =>
      obtain ⟨healthy, corresponds⟩ := matched
      have process_step : process.next event = some next := step
      rcases Process.next_cases healthy process_step with ⟨after, rfl, idles, no_add, -⟩ |
        ⟨answer, rfl, fresh, rfl⟩ |
        ⟨index, change, entry, after, rfl, found, client_step, kept, kept', rfl⟩
      · apply addsAtomically_iff_of_kept
        · exact corresponds.of_same ⟨idles.clients, idles.orphans, idles.openFds⟩
        · exact fun answer event_eq => absurd event_eq (no_add answer)
      · by_cases below : process.numberOfClients < MAX_CLIENTS
        · rw [Process.wcbSilent, if_neg (Nat.not_le.mpr below)]
          exact addsAtomically_wcbSilent corresponds fresh below ⟨rfl, rfl, rfl⟩
        · rw [Process.wcbSilent, if_pos (Nat.not_lt.mp below)]
          apply addsAtomically_iff_of_kept
          · exact corresponds.of_same ⟨rfl, rfl, rfl⟩
          · exact fun _ _ => below
      · apply addsAtomically_iff_of_kept
        · exact corresponds.update found client_step kept kept'
        · exact fun answer event_eq => by cases event_eq

theorem Matched.kept {state next : Except Fault Process} {event : ProcessEvent}
    (matched : Matched state) (step : processSystem.step state event = some next)
    (adds : AddsAtomically state event next) : Matched next := by
  cases state with
  | error fault => exact matched.elim
  | ok process =>
      have healthy := healthy_preserved _ _ _ matched.1 step
      cases next with
      | error fault => exact healthy.elim
      | ok after => exact ⟨healthy, adds.corresponds after rfl⟩

/-- Along every run of the load generator a `client_add` that returns -1 leaves the resources as
they were, and the allocated clients, the open descriptors and the armed timers correspond, exactly
if every `client_add` that is called succeeds or fails to allocate. -/
theorem adds_atomically_iff (now : Time) (events : List ProcessEvent) :
    processSystem.Along AddsAtomically (.ok (.initial now)) events ↔
      processSystem.Along AbandonsNone (.ok (.initial now)) events := by
  apply along_exact _ _ (matched_initial now)
  · intro state event next matched step
    exact matched.exact step
  · intro state event next matched step none_abandoned
    exact matched.kept step ((matched.exact step).mpr none_abandoned)

/-- The first `client_add` cannot get a descriptor. -/
def outOfDescriptors : List ProcessEvent := [.tick 1000, .pollSilent, .wcbSilent .noSocket]

/-- An object that got no descriptor stays allocated, with nobody to free it. -/
theorem object_without_descriptor :
    (∃ process, processSystem.run (.ok (.initial 0)) outOfDescriptors = some (.ok process) ∧
        process.orphans = 1 ∧ process.clients = [] ∧ process.openFds = ∅) ∧
      ¬ processSystem.Along AddsAtomically (.ok (.initial 0)) outOfDescriptors := by
  constructor
  · exact ⟨_, rfl, rfl, rfl, rfl⟩
  · intro along
    have adds :=
      along_iff.mp along outOfDescriptors.dropLast (.wcbSilent .noSocket) [] _ _ rfl rfl rfl
    cases (adds.corresponds _ rfl).registered

end Mrps.Load
