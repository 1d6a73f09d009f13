import Mrps.Load.Callbacks
import Mrps.Entries

/-!
# All clients of the load generator

The process of `client.c` with every client it ever added.  A client is deleted at most once, by
whichever callback meets the first error, and with its watchers stopped no callback can find it
afterwards.
-/

namespace Mrps.Load

open EventSystem

/-- `SILENT_TIMEOUT`, 1 millisecond. -/
def SILENT_TIMEOUT : Time := 1000

/-- `MAX_CLIENTS`. -/
def MAX_CLIENTS : Nat := 10000

/-- `EXECUTION_TIME`, 60 seconds. -/
def EXECUTION_TIME : Time := 60 * 1000000

/-- A connection with the descriptor `socket` returned for it. -/
structure Added where
  sd : Nat
  conn : Connection
  deriving DecidableEq, Repr

/-- The state of the process. -/
structure Process where
  /-- Every client that `client_add` registered, in order. -/
  clients : List Added
  /-- The open descriptors. -/
  openFds : Finset Nat
  /-- Client objects that were allocated and then given up without `free`. -/
  orphans : Nat
  /-- `ev_now`. -/
  clock : Time
  times : Statistics
  numberOfClients : Nat
  wevExit : TimerWatcher
  wevSilent : TimerWatcher
  /-- `ev_break` was called. -/
  broken : Bool
  deriving DecidableEq

/-- The outcomes of the calls of `client_add`. -/
inductive AddAnswer where
  /-- `calloc` fails. -/
  | noMemory
  /-- `socket` fails. -/
  | noSocket
  /-- `aux_set_nonblk` fails on the new descriptor. -/
  | blocking (sd : Nat)
  /-- `connect` fails with an error other than `EINPROGRESS`. -/
  | refused (sd : Nat)
  /-- The client is registered. -/
  | added (sd : Nat)
  deriving DecidableEq, Repr

/-- The descriptor `socket` returned. -/
def AddAnswer.sd : AddAnswer → Option Nat
  | .noMemory | .noSocket => none
  | .blocking sd | .refused sd | .added sd => some sd

/-- What can happen to the process. -/
inductive ProcessEvent where
  /-- The loop updates its time. -/
  | tick (elapsed : Time)
  /-- The loop finds `wev_silent` expired. -/
  | pollSilent
  /-- `wcb_silent`, with the outcomes of the calls of `client_add`. -/
  | wcbSilent (answer : AddAnswer)
  /-- The loop finds `wev_exit` expired. -/
  | pollExit
  /-- `wcb_exit`. -/
  | wcbExit
  /-- An event of one client. -/
  | client (index : Nat) (event : Event)
  deriving DecidableEq, Repr

namespace Process

/-- `client_add`; the object is not freed when a later call fails. -/
def clientAdd (process : Process) : AddAnswer → Process
  | .noMemory => process
  | .noSocket => { process with orphans := process.orphans + 1 }
  | .blocking _ => { process with orphans := process.orphans + 1 }
  | .refused _ => { process with orphans := process.orphans + 1 }
  | .added sd =>
      { process with
        clients := process.clients ++ [{ sd, conn := Load.clientAdd sd process.clock }]
        openFds := insert sd process.openFds }

/-- `wcb_silent`. -/
def wcbSilent (process : Process) (answer : AddAnswer) : Process :=
  let counted := { process with numberOfClients := process.numberOfClients + 1 }
  if process.numberOfClients ≥ MAX_CLIENTS then
    { counted with wevSilent := process.wevSilent.stop }
  else
    counted.clientAdd answer

/-- The client at an index in its loop. -/
def session (process : Process) (entry : Added) : Session :=
  { conn := entry.conn, clock := process.clock, times := process.times }

/-- The process after an event of the client at `index` left the session. -/
def update (process : Process) (index : Nat) (entry : Added) (session : Session) : Process :=
  { process with
    clients := process.clients.set index { entry with conn := session.conn }
    openFds := process.openFds \ (session.conn.closed.drop entry.conn.closed.length).toFinset
    times := session.times }

end Process

/-- The loop invokes a callback of the client. -/
def Event.IsCallback : Event → Prop
  | .wcbRecv _ | .wcbSend _ | .wcbConnect _ | .wcbTimeout => True
  | .tick _ | .pollRecv | .pollSend | .pollConnect | .pollTimeout => False

/-- The loop reports an event of the client. -/
def Event.IsPoll : Event → Prop
  | .pollRecv | .pollSend | .pollConnect | .pollTimeout => True
  | .tick _ | .wcbRecv _ | .wcbSend _ | .wcbConnect _ | .wcbTimeout => False

instance : DecidablePred Event.IsCallback := fun event => by
  cases event <;> rw [Event.IsCallback] <;> infer_instance

instance : DecidablePred Event.IsPoll := fun event => by
  cases event <;> rw [Event.IsPoll] <;> infer_instance

namespace Process

/-- One step of the process.  `socket` never returns a descriptor that is open; after `ev_break`
only the callbacks that are still pending run. -/
def next (process : Process) : ProcessEvent → Option (Except Fault Process)
  | .tick elapsed =>
      if process.broken then none
      else some (.ok { process with clock := process.clock + elapsed })
  | .pollSilent =>
      if process.broken then none
      else
        (process.wevSilent.poll process.clock SILENT_TIMEOUT).map fun wevSilent =>
          .ok { process with wevSilent }
  | .wcbSilent answer =>
      if process.wevSilent.pending ∧ ∀ sd ∈ answer.sd, sd ∉ process.openFds then
        some (.ok ({ process with wevSilent := process.wevSilent.invoked }.wcbSilent answer))
      else
        none
  | .pollExit =>
      if process.broken then none
      else
        (process.wevExit.poll process.clock EXECUTION_TIME).map fun wevExit =>
          .ok { process with wevExit }
  | .wcbExit =>
      if process.wevExit.pending then
        some (.ok { process with wevExit := process.wevExit.invoked, broken := true })
      else
        none
  | .client index event =>
      if event.IsCallback ∨ event.IsPoll ∧ process.broken = false then
        process.clients[index]?.bind fun entry =>
          ((process.session entry).next event).map fun result =>
            result.map (process.update index entry)
      else
        none

/-- The process when `main` enters the loop. -/
def initial (now : Time) : Process where
  clients := []
  openFds := ∅
  orphans := 0
  clock := now
  times := .initial
  numberOfClients := 0
  wevExit := TimerWatcher.init.again now EXECUTION_TIME
  wevSilent := TimerWatcher.init.again now SILENT_TIMEOUT
  broken := false

end Process

/-- The runs of the process; a fault ends the run. -/
def processSystem : EventSystem (Except Fault Process) ProcessEvent where
  step state event :=
    match state with
    | .ok process => process.next event
    | .error _ => none

/-! ## One client -/

/-- A live client holds its descriptor and nothing of it is closed; a freed client was deleted once,
its descriptor closed once, and no watcher of it is left. -/
structure Kept (sd : Nat) (conn : Connection) : Prop where
  live : ∀ client, conn.client = some client →
    client.fd = sd ∧ conn.closed = [] ∧ conn.dels = 0
  freed : conn.client = none → conn.closed = [sd] ∧ conn.dels = 1
  quiet : conn.client = none → conn.watchers.Quiet

section OneClient

variable {sd : Nat} {session next : Session} {client : Client}

theorem clientAdd_kept (sd : Nat) (now : Time) : Kept sd (clientAdd sd now) := by
  refine ⟨?_, by simp [clientAdd], by simp [clientAdd]⟩
  rintro client ⟨⟩
  exact ⟨rfl, rfl, rfl⟩

theorem Kept.alive {conn next : Connection} {later : Client} (kept : Kept sd conn)
    (live : conn.client = some client) (live' : next.client = some later)
    (fd : later.fd = client.fd) (closed : next.closed = conn.closed)
    (dels : next.dels = conn.dels) : Kept sd next := by
  obtain ⟨holds, unclosed, undeleted⟩ := kept.live client live
  refine ⟨?_, by simp [live'], by simp [live']⟩
  intro other other_live
  obtain rfl : later = other := Option.some.inj (live'.symm.trans other_live)
  exact ⟨fd.trans holds, closed.trans unclosed, dels.trans undeleted⟩

theorem Kept.deleted (kept : Kept sd session.conn) (live : session.conn.client = some client) :
    Kept sd (session.deleted client.fd).conn := by
  obtain ⟨rfl, unclosed, undeleted⟩ := kept.live client live
  refine ⟨by simp [Session.deleted], fun _ => ?_, fun _ => session.conn.watchers.stopped_quiet⟩
  simp [Session.deleted, unclosed, undeleted]

theorem Bursts.kept {answers : List SendAnswer} (bursts : Bursts session client answers next)
    (kept : Kept sd session.conn) (live : session.conn.client = some client) :
    Kept sd next.conn := by
  induction bursts with
  | done => exact kept.alive live live rfl rfl rfl
  | failed => exact kept.deleted live
  | sent _ _ _ ih => exact ih (kept.alive live rfl rfl rfl rfl) rfl

theorem recvEffect_kept (kept : Kept sd session.conn) (live : session.conn.client = some client)
    (nb : RecvAnswer) : Kept sd (recvEffect session client nb).conn := by
  have kept' : Kept sd (session.counted (session.clock - client.ts)).conn := kept
  rcases nb with (_ | _ | _) | bytes
  · exact kept
  · exact kept'.deleted live
  · exact kept'.deleted live
  · exact kept.alive live live rfl rfl rfl

theorem connectEffect_kept (kept : Kept sd session.conn) (live : session.conn.client = some client)
    (readable : Bool) : Kept sd (connectEffect session client readable).conn := by
  cases readable with
  | true => exact kept.deleted live
  | false =>
      have alive : (connectEffect session client false).conn.client =
          some { client with toSend := 1 } := rfl
      exact kept.alive live alive rfl rfl rfl

theorem Fires.kept {event : Event} (fires : Fires session client event next)
    (kept : Kept sd session.conn) (live : session.conn.client = some client) :
    Kept sd next.conn := by
  have registered : ∀ call, Kept sd (session.register call).conn :=
    fun _ => kept.alive live live rfl rfl rfl
  cases fires with
  | tick => exact kept
  | pollRecv => exact registered _
  | pollSend => exact registered _
  | pollConnect => exact registered _
  | pollTimeout => exact registered _
  | @wcbRecv recv nb => exact recvEffect_kept (registered Watchers.recvInvoked) live nb
  | wcbSend _ bursts => exact bursts.kept (registered Watchers.sendInvoked) live
  | wcbConnect readable =>
      exact connectEffect_kept (registered Watchers.connectInvoked) live readable
  | wcbTimeout => exact kept.alive live rfl rfl rfl rfl

/-- A step of a kept client never faults: of a deleted client it is only the passing of time. -/
theorem Kept.taken {event : Event} {result : Except Fault Session} (kept : Kept sd session.conn)
    (step : session.next event = some result) :
    ∃ next, result = .ok next ∧ Kept sd next.conn ∧
      ((session.conn.client = none ∧ ∃ elapsed, event = .tick elapsed ∧
          next = { session with clock := session.clock + elapsed }) ∨
        ∃ client, session.conn.client = some client ∧ Fires session client event next) := by
  cases held : session.conn.client with
  | none =>
      obtain ⟨elapsed, rfl, rfl⟩ := next_of_quiet (kept.quiet held) step
      exact ⟨_, rfl, kept, .inl ⟨rfl, elapsed, rfl, rfl⟩⟩
  | some client =>
      obtain ⟨next, rfl, fires⟩ := fires_of_next held step
      exact ⟨next, rfl, fires.kept kept held, .inr ⟨client, rfl, fires⟩⟩

/-- No callback runs on a deleted client. -/
theorem Kept.step {event : Event} {result : Except Fault Session} (kept : Kept sd session.conn)
    (step : session.next event = some result) :
    ∃ next, result = .ok next ∧ Kept sd next.conn ∧
      (session.conn.client = none → ¬ event.IsCallback) := by
  obtain ⟨next, rfl, kept', ⟨-, elapsed, rfl, -⟩ | ⟨client, live, -⟩⟩ := kept.taken step
  · exact ⟨next, rfl, kept', fun _ callback => callback⟩
  · exact ⟨next, rfl, kept', by simp [live]⟩

/-- A fault-free session of a kept client. -/
def KeptSession (sd : Nat) : Except Fault Session → Prop
  | .ok session => Kept sd session.conn
  | .error _ => False

theorem keptSession_preserved (sd : Nat) : sessionSystem.Preserves (KeptSession sd) := by
  intro state event next kept step
  cases state with
  | error fault => exact kept.elim
  | ok session =>
      have taken : session.next event = some next := step
      have kept' : Kept sd session.conn := kept
      obtain ⟨after, rfl, kept_after, -⟩ := kept'.taken taken
      exact kept_after

end OneClient

/-! ## All clients -/

/-- Every client of a fault-free process is kept. -/
def Healthy : Except Fault Process → Prop
  | .ok process => ∀ entry ∈ process.clients, Kept entry.sd entry.conn
  | .error _ => False

/-- The process goes on with the same clients, descriptors and statistics. -/
structure Process.Idles (before after : Process) : Prop where
  clients : after.clients = before.clients
  openFds : after.openFds = before.openFds
  orphans : after.orphans = before.orphans
  times : after.times = before.times

/-- Everything a step of a healthy process can do: nothing to its clients, or a tick of
`wcb_silent`, or a step of one client. -/
theorem Process.next_cases {process : Process} {event : ProcessEvent}
    {result : Except Fault Process} (healthy : Healthy (.ok process))
    (step : process.next event = some result) :
    (∃ after, result = .ok after ∧ process.Idles after ∧ (∀ answer, event ≠ .wcbSilent answer) ∧
        ∀ index change, event ≠ .client index change) ∨
      (∃ answer, event = .wcbSilent answer ∧ (∀ sd ∈ answer.sd, sd ∉ process.openFds) ∧
        result =
          .ok ({ process with wevSilent := process.wevSilent.invoked }.wcbSilent answer)) ∨
      ∃ index change entry next, event = .client index change ∧
        process.clients[index]? = some entry ∧
        (process.session entry).next change = some (.ok next) ∧
        Kept entry.sd entry.conn ∧ Kept entry.sd next.conn ∧
        result = .ok (process.update index entry next) := by
  cases event with
  | tick elapsed =>
      simp only [Process.next, Option.ite_none_left_eq_some, Option.some.injEq] at step
      obtain ⟨-, rfl⟩ := step
      exact .inl ⟨_, rfl, ⟨rfl, rfl, rfl, rfl⟩, by simp, by simp⟩
  | pollSilent =>
      simp only [Process.next, Option.ite_none_left_eq_some, Option.map_eq_some_iff] at step
      obtain ⟨-, wevSilent, -, rfl⟩ := step
      exact .inl ⟨_, rfl, ⟨rfl, rfl, rfl, rfl⟩, by simp, by simp⟩
  | wcbSilent answer =>
      simp only [Process.next, Option.ite_none_right_eq_some, Option.some.injEq] at step
      obtain ⟨⟨-, fresh⟩, rfl⟩ := step
      exact .inr (.inl ⟨answer, rfl, fresh, rfl⟩)
  | pollExit =>
      simp only [Process.next, Option.ite_none_left_eq_some, Option.map_eq_some_iff] at step
      obtain ⟨-, wevExit, -, rfl⟩ := step
      exact .inl ⟨_, rfl, ⟨rfl, rfl, rfl, rfl⟩, by simp, by simp⟩
  | wcbExit =>
      simp only [Process.next, Option.ite_none_right_eq_some, Option.some.injEq] at step
      obtain ⟨-, rfl⟩ := step
      exact .inl ⟨_, rfl, ⟨rfl, rfl, rfl, rfl⟩, by simp, by simp⟩
  | client index change =>
      simp only [Process.next, Option.ite_none_right_eq_some, Option.bind_eq_some_iff,
        Option.map_eq_some_iff] at step
      obtain ⟨-, entry, found, answer, taken, rfl⟩ := step
      have kept : Kept entry.sd (process.session entry).conn :=
        healthy entry (List.mem_of_getElem? found)
      obtain ⟨next, rfl, kept', -⟩ := kept.step taken
      exact .inr (.inr ⟨index, change, entry, next, rfl, found, taken, kept, kept', rfl⟩)

theorem clientAdd_healthy {process : Process} (healthy : Healthy (.ok process))
    (answer : AddAnswer) : Healthy (.ok (process.clientAdd answer)) := by
  cases answer with
  | noMemory => exact healthy
  | noSocket => exact healthy
  | blocking sd => exact healthy
  | refused sd => exact healthy
  | added sd =>
      apply forall_mem_concat healthy
      exact clientAdd_kept sd process.clock

theorem wcbSilent_healthy {process : Process} (healthy : Healthy (.ok process))
    (answer : AddAnswer) : Healthy (.ok (process.wcbSilent answer)) := by
  rw [Process.wcbSilent]
  dsimp only
  split
  · exact healthy
  · apply clientAdd_healthy
    exact healthy

theorem healthy_preserved : processSystem.Preserves Healthy := by
  intro state event next healthy step
  cases state with
  | error fault => exact healthy.elim
  | ok process =>
      rcases Process.next_cases healthy step with ⟨after, rfl, idles, -, -⟩ |
        ⟨answer, -, -, rfl⟩ | ⟨index, change, entry, after, -, -, -, -, kept', rfl⟩
      · intro entry member
        rw [idles.clients] at member
        exact healthy entry member
      · apply wcbSilent_healthy
        exact healthy
      · apply forall_mem_set healthy
        exact kept'

/-- In every run of the load generator, with any number of clients: no callback touches freed
memory, none is ever invoked on a deleted client, `client_del` runs at most once for each client,
and the descriptor of a client is closed exactly then. -/
theorem load_lifecycle (now : Time) (events : List ProcessEvent) (state : Except Fault Process)
    (execution : processSystem.run (.ok (.initial now)) events = some state) :
    ∃ process, state = .ok process ∧
      (∀ entry ∈ process.clients, entry.conn.dels ≤ 1 ∧
        (entry.conn.client = none ↔ entry.conn.dels = 1) ∧
          entry.conn.closed = List.replicate entry.conn.dels entry.sd) ∧
      ∀ index entry event, process.clients[index]? = some entry → 0 < entry.conn.dels →
        event.IsCallback → process.next (.client index event) = none := by
  have start : Healthy (.ok (.initial now)) := by simp [Healthy, Process.initial]
  have healthy := healthy_preserved.run start execution
  cases state with
  | error fault => exact healthy.elim
  | ok process =>
      refine ⟨process, rfl, ?_, ?_⟩
      · intro entry member
        have kept : Kept entry.sd entry.conn := healthy entry member
        cases held : entry.conn.client with
        | none =>
            obtain ⟨closed, dels⟩ := kept.freed held
            simp [closed, dels]
        | some client =>
            obtain ⟨-, closed, dels⟩ := kept.live client held
            simp [closed, dels]
      · intro index entry event found deleted callback
        have kept : Kept entry.sd (process.session entry).conn :=
          healthy entry (List.mem_of_getElem? found)
        have freed : (process.session entry).conn.client = none := by
          by_contra alive
          obtain ⟨client, live⟩ := Option.ne_none_iff_exists'.mp alive
          have undeleted : entry.conn.dels = 0 := (kept.live client live).2.2
          omega
        have silent : (process.session entry).next event = none := by
          rw [Option.eq_none_iff_forall_ne_some]
          intro result step
          obtain ⟨-, -, -, idle⟩ := kept.step step
          exact idle freed callback
        simp [Process.next, found, silent]

/-- A process whose only client could not connect. -/
def refusedProcess : Process :=
  { Process.initial 0 with
    clients :=
      [{ sd := 7
         conn :=
          { clientAdd 7 1000 with
            client := none
            watchers := (clientAdd 7 1000).watchers.stopped
            closed := [7]
            dels := 1 } }]
    clock := 1000
    numberOfClients := 1
    wevSilent := { active := true, pending := false, deadline := 2000 } }

theorem run_refused : processSystem.run (.ok (.initial 0))
    [.tick 1000, .pollSilent, .wcbSilent (.added 7), .client 0 .pollConnect,
      .client 0 (.wcbConnect true)] = some (.ok refusedProcess) := by
  have refuses : ∀ session : Session, session.conn.client = some { fd := 7, ts := 0, toSend := 0 } →
      wcbConnect true session = .ok (session.deleted 7) := fun _ live => wcbConnect_eq live true
  simp [processSystem, Process.next, Process.initial, Process.wcbSilent, Process.clientAdd,
    AddAnswer.sd, refusedProcess, TimerWatcher.poll, TimerWatcher.again, TimerWatcher.invoked,
    SILENT_TIMEOUT, MAX_CLIENTS, Event.IsCallback, Event.IsPoll, Process.session, Process.update,
    Session.next, Session.register, clientAdd, IoWatcher.poll, IoWatcher.start, IoWatcher.init,
    refuses, Session.deleted, Except.map, Watchers.stopped, IoWatcher.stop, TimerWatcher.stop]

theorem load_lifecycle_refused : ∃ process, (.ok refusedProcess : Except Fault Process) =
      .ok process ∧
    (∀ entry ∈ process.clients, entry.conn.dels ≤ 1 ∧
      (entry.conn.client = none ↔ entry.conn.dels = 1) ∧
        entry.conn.closed = List.replicate entry.conn.dels entry.sd) ∧
    ∀ index entry event, process.clients[index]? = some entry → 0 < entry.conn.dels →
      event.IsCallback → process.next (.client index event) = none :=
  load_lifecycle 0 _ (.ok refusedProcess) run_refused

end Mrps.Load
