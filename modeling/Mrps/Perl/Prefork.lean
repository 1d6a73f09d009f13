import Mrps.Backlog
import Mrps.Perl.Work
import Mrps.SharedCounters

/-!
# The processes of `10kx_decoded.pl`

The parent opens the listening socket, forks the workers and closes its own copy.  Each worker takes
connections from the shared socket until it has `MAXCONNECT` of them and closes its copy then, so
the socket is there as long as one process still holds it.  All processes interleave freely, and any
of them can be ended by a signal.
-/

namespace Mrps.Perl

open EventSystem

def NTHREADS : Nat := 24

/-- Where the parent is. -/
inductive Parent where
  /-- In the loop of `fork`s. -/
  | forking
  /-- In `Work`, as `fork` returned `undef` to it, which looks like the 0 of a child. -/
  | working
  /-- In `wait`, its copy of `$srv` closed. -/
  | waiting
  | gone
  deriving DecidableEq, Repr

/-- A process that runs `Work`. -/
structure Child where
  work : Work
  /-- A signal ended it. -/
  ended : Bool
  deriving DecidableEq, Repr

namespace Child

/-- A process at the beginning of `Work`. -/
def forked : Child := { work := .started, ended := false }

/-- The process runs. -/
def Alive (child : Child) : Prop := child.ended = false ∧ child.work.place ≠ .died

/-- The process holds a copy of the listening socket. -/
def Listens (child : Child) : Prop := child.Alive ∧ child.work.srv = true

instance (child : Child) : Decidable child.Alive := inferInstanceAs (Decidable (_ ∧ _))

instance (child : Child) : Decidable child.Listens := inferInstanceAs (Decidable (_ ∧ _))

end Child

/-- The event takes a connection from the listening socket. -/
def Work.Takes (worker : Work) : WorkEvent → Prop
  | .iterate (some _) => worker.nConnects ≠ 0 ∧ worker.srv = true
  | .iterate none | .visit _ _ | .leave => False

instance (worker : Work) (event : WorkEvent) : Decidable (worker.Takes event) :=
  match event with
  | .iterate (some _) => inferInstanceAs (Decidable (_ ∧ _))
  | .iterate none => inferInstanceAs (Decidable False)
  | .visit _ _ => inferInstanceAs (Decidable False)
  | .leave => inferInstanceAs (Decidable False)

/-- The parent, its workers in the order of their start, and the peers of the listening socket. -/
structure Prefork where
  parent : Parent
  workers : List Child
  backlog : Backlog
  deriving DecidableEq, Repr

/-- What can happen to the processes. -/
inductive PreforkEvent where
  /-- `fork` makes a child or returns `undef`. -/
  | fork (succeeds : Bool)
  /-- The parent closes `$srv` behind its loop. -/
  | closeListener
  /-- The parent gets a SIGINT. -/
  | interrupt
  /-- `wait` finds no child any more. -/
  | wait
  /-- A peer connects. -/
  | arrive
  /-- A worker takes a step. -/
  | worker (index : Nat) (event : WorkEvent)
  /-- A signal ends a worker. -/
  | signal (index : Nat)
  deriving DecidableEq, Repr

namespace Prefork

/-- Somebody holds the listening socket. -/
def Listening (server : Prefork) : Prop :=
  server.parent = .forking ∨ ∃ child ∈ server.workers, child.Listens

instance (server : Prefork) : Decidable server.Listening := inferInstanceAs (Decidable (_ ∨ _))

/-- When the last copy of the listening socket is closed, the peers in its queue are turned away. -/
def settle (server : Prefork) : Prefork :=
  if server.Listening then server else { server with backlog := server.backlog.reset }

/-- The listening socket is open, and no worker is started. -/
def started : Prefork := { parent := .forking, workers := [], backlog := .empty }

/-- One step of the processes. -/
def next (server : Prefork) : PreforkEvent → Option Prefork
  | .fork succeeds =>
      if server.parent = .forking ∧ server.workers.length < NTHREADS then
        some { server with
          parent := if succeeds then .forking else .working
          workers := server.workers ++ [.forked] }
      else none
  | .closeListener =>
      if server.parent = .forking ∧ server.workers.length = NTHREADS then
        some (settle { server with parent := .waiting })
      else none
  | .interrupt =>
      match server.parent with
      | .forking => some (settle { server with parent := .gone })
      | .waiting =>
          -- the handler sends SIGTERM to all children
          some (settle { server with
            workers := server.workers.map fun child => { child with ended := true } })
      | .working | .gone => none
  | .wait =>
      if server.parent = .waiting ∧ ∀ child ∈ server.workers, ¬ child.Alive then
        some (settle { server with parent := .gone })
      else none
  | .arrive =>
      some { server with
        backlog := if server.Listening then server.backlog.arrive else server.backlog.refuse }
  | .worker index event =>
      server.workers[index]?.bind fun child =>
        if child.ended = false then
          (child.work.next event).bind fun work =>
            (if child.work.Takes event then server.backlog.take index else some server.backlog).map
              fun backlog => settle { server with
                workers := server.workers.set index { child with work }
                backlog }
        else none
  | .signal index =>
      server.workers[index]?.bind fun child =>
        if child.Alive then
          some (settle { server with
            workers := server.workers.set index { child with ended := true } })
        else none

end Prefork

/-- The runs of the processes. -/
def preforks : EventSystem Prefork PreforkEvent := { step := Prefork.next }

namespace Work

variable {worker after : Work} {event : WorkEvent}

/-- What a step of a worker takes, counted down and accepted, also when the setup of the socket
kills the worker. -/
structure Counted (worker : Work) : Prop where
  total : worker.nConnects + worker.accepted = MAXCONNECT
  nonneg : 0 ≤ worker.nConnects
  listening : worker.srv = true ↔ 0 < worker.nConnects

theorem counted_started : started.Counted := ⟨rfl, by decide, by decide⟩

theorem Counted.countDown (counted : worker.Counted) (room : worker.nConnects ≠ 0) :
    worker.countDown.Counted := by
  obtain ⟨total, nonneg, listening⟩ := counted
  have is_listening : worker.srv = true := listening.mpr (by omega)
  refine ⟨?_, ?_, ?_⟩
  · simp only [Work.countDown, Nat.cast_add, Nat.cast_one]
    omega
  · simp only [Work.countDown]
    omega
  · by_cases last : worker.nConnects - 1 = 0
    · simp [Work.countDown, last]
    · simp only [Work.countDown, last, if_false, is_listening, true_iff]
      omega

/-- A call of `accept` counts the connection it takes. -/
theorem Counted.tryAccept (counted : worker.Counted) (room : worker.nConnects ≠ 0)
    (accept : Option Setup) :
    (worker.tryAccept accept).Counted ∧ (worker.tryAccept accept).accepted =
      worker.accepted + if worker.Takes (.iterate accept) then 1 else 0 := by
  have nonneg := counted.nonneg
  have is_listening : worker.srv = true := counted.listening.mpr (by omega)
  cases accept with
  | none => simpa [Work.tryAccept, is_listening, Takes] using counted
  | some setup =>
      have takes : worker.Takes (.iterate (some setup)) := ⟨room, is_listening⟩
      have down := counted.countDown room
      rw [if_pos takes, Work.tryAccept, if_neg (by simp [is_listening])]
      simp only
      split
      · exact ⟨⟨down.total, down.nonneg, down.listening⟩, rfl⟩
      · exact ⟨⟨down.total, down.nonneg, down.listening⟩, rfl⟩

theorem Counted.startPass (counted : worker.Counted) :
    worker.startPass.Counted ∧ worker.startPass.accepted = worker.accepted := by
  rw [Work.startPass]
  split
  · exact ⟨counted, rfl⟩
  · exact ⟨⟨counted.total, counted.nonneg, counted.listening⟩, rfl⟩

theorem Counted.next (counted : worker.Counted) (step : worker.next event = some after) :
    after.Counted ∧ after.accepted = worker.accepted + if worker.Takes event then 1 else 0 := by
  cases event with
  | iterate accept =>
      rw [Work.next, Option.ite_none_right_eq_some] at step
      obtain ⟨-, stepped⟩ := step
      obtain rfl := Option.some.inj stepped
      rw [iterate]
      split
      · rename_i room
        obtain ⟨counted', accepted_eq⟩ := counted.tryAccept room accept
        rw [← accepted_eq]
        exact counted'.startPass
      · rename_i full
        have takes_not : ¬ worker.Takes (.iterate accept) := by
          cases accept with
          | none => exact not_false
          | some setup => exact fun takes => full takes.1
        rw [if_neg takes_not]
        exact counted.startPass
  | visit sysread syswrite =>
      rw [Work.next, Option.ite_none_right_eq_some] at step
      obtain ⟨-, stepped⟩ := step
      obtain ⟨socket, -, rfl⟩ := Option.map_eq_some_iff.mp stepped
      rcases sysread with _ | (_ | ⟨byte, bytes⟩)
      · exact ⟨⟨counted.total, counted.nonneg, counted.listening⟩, rfl⟩
      · exact ⟨⟨counted.total, counted.nonneg, counted.listening⟩, rfl⟩
      · exact ⟨⟨counted.total, counted.nonneg, counted.listening⟩, rfl⟩
  | leave =>
      rw [Work.next, Option.ite_none_right_eq_some] at step
      obtain ⟨-, stepped⟩ := step
      obtain rfl := Option.some.inj stepped
      exact ⟨⟨counted.total, counted.nonneg, counted.listening⟩, rfl⟩

theorem running_of_next (step : worker.next event = some after) : worker.place ≠ .died := by
  intro died
  cases event with
  | iterate accept => simp [Work.next, died] at step
  | visit sysread syswrite => simp [Work.next, died] at step
  | leave => simp [Work.next, died] at step

theorem Counted.stays_closed (counted : worker.Counted) (step : worker.next event = some after)
    (closed : worker.srv ≠ true) : after.srv ≠ true := by
  obtain ⟨counted', accepted_eq⟩ := counted.next step
  have full : ¬ 0 < worker.nConnects := fun room => closed (counted.listening.mpr room)
  have total := counted.total
  have total' := counted'.total
  intro reopened
  have room := counted'.listening.mp reopened
  omega

end Work

namespace Prefork

variable {server after : Prefork} {event : PreforkEvent}

/-! ## Where the peers are -/

/-- A worker got where it is by its own steps and took as many peers as it counts. -/
structure Known (work : Work) (taken : Nat) : Prop where
  reached : works.Reachable .started work
  counted : work.Counted
  took : taken = work.accepted

theorem known_started : Known .started 0 := ⟨⟨[], rfl⟩, Work.counted_started, rfl⟩

theorem Known.next {work later : Work} {event : WorkEvent} {taken : Nat} (known : Known work taken)
    (step : work.next event = some later) :
    Known later (taken + if work.Takes event then 1 else 0) := by
  obtain ⟨counted, accepted_eq⟩ := known.counted.next step
  have worked : works.step work event = some later := step
  have one_step : works.run work [event] = some later := by simp [worked]
  exact ⟨known.reached.run works one_step, counted, by rw [known.took, accepted_eq]⟩

/-- The workers share the peers, whether signals ended them or not. -/
abbrev Accounted (workers : List Child) (backlog : Backlog) : Prop :=
  backlog.Shared Known (workers.map Child.work)

section Accounted

variable {workers : List Child} {backlog : Backlog} {child : Child}

theorem Accounted.known (accounted : Accounted workers backlog) {index : Nat}
    (found : workers[index]? = some child) : Known child.work (backlog.takenBy index) :=
  accounted.each index child.work (by simp [found])

theorem Accounted.counted (accounted : Accounted workers backlog) (member : child ∈ workers) :
    child.work.Counted := by
  obtain ⟨index, inside, rfl⟩ := List.getElem_of_mem member
  exact (accounted.known (List.getElem?_eq_getElem inside)).counted

theorem Accounted.fork (accounted : Accounted workers backlog) :
    Accounted (workers ++ [.forked]) backlog := by
  rw [Accounted, List.map_append]
  exact accounted.join known_started

theorem Accounted.same_works {workers' : List Child} (accounted : Accounted workers backlog)
    (same : workers'.map Child.work = workers.map Child.work) : Accounted workers' backlog := by
  rw [Accounted, same]
  exact accounted

/-- A step of a worker, which may take the peer that waited longest. -/
theorem Accounted.work {index : Nat} {event : WorkEvent} {work : Work} {backlog' : Backlog}
    (accounted : Accounted workers backlog) (found : workers[index]? = some child)
    (step : child.work.next event = some work)
    (taking : (if child.work.Takes event then backlog.take index else some backlog) =
      some backlog') : Accounted (workers.set index { child with work }) backlog' := by
  have at_index : (workers.map Child.work)[index]? = some child.work := by simp [found]
  rw [Accounted, List.map_set]
  exact (accounted.serve at_index (fun _ known => known.next step) taking).1

end Accounted

/-- What every step keeps of the processes. -/
structure Sound (server : Prefork) : Prop where
  accounted : Accounted server.workers server.backlog
  /-- Nobody waits at a socket that is gone. -/
  idle : ¬ server.Listening → server.backlog.queue = []
  few : server.workers.length ≤ NTHREADS
  complete : server.parent = .waiting → server.workers.length = NTHREADS

theorem sound_started : started.Sound where
  accounted := Backlog.shared_nil
  idle closed := absurd (Or.inl rfl) closed
  few := Nat.zero_le _
  complete waiting := by cases waiting

/-- Settling keeps the accounts and leaves nobody at a socket that is gone. -/
theorem sound_settle (accounted : Accounted server.workers server.backlog)
    (few : server.workers.length ≤ NTHREADS)
    (complete : server.parent = .waiting → server.workers.length = NTHREADS) :
    server.settle.Sound := by
  rw [settle]
  split
  · rename_i listening
    exact ⟨accounted, fun closed => absurd listening closed, few, complete⟩
  · exact ⟨accounted.same_taken rfl accounted.sound.reset, fun _ => rfl, few, complete⟩

theorem Sound.next (sound : server.Sound) (step : server.next event = some after) :
    after.Sound := by
  obtain ⟨accounted, idle, few, complete⟩ := sound
  cases event with
  | fork succeeds =>
      rw [Prefork.next, Option.ite_none_right_eq_some] at step
      obtain ⟨⟨forking, room⟩, stepped⟩ := step
      obtain rfl := Option.some.inj stepped
      refine ⟨accounted.fork, ?_, ?_, ?_⟩
      · intro closed
        exfalso
        apply closed
        exact .inr ⟨.forked, by simp, ⟨rfl, by decide⟩, rfl⟩
      · rw [List.length_append]
        exact room
      · intro waiting
        cases succeeds <;> cases waiting
  | closeListener =>
      rw [Prefork.next, Option.ite_none_right_eq_some] at step
      obtain ⟨⟨-, all⟩, stepped⟩ := step
      obtain rfl := Option.some.inj stepped
      exact sound_settle accounted few fun _ => all
  | interrupt =>
      rw [Prefork.next] at step
      split at step
      · obtain rfl := Option.some.inj step
        exact sound_settle accounted few fun waiting => by cases waiting
      · obtain rfl := Option.some.inj step
        refine sound_settle (accounted.same_works ?_) ?_ ?_
        · simp [Function.comp_def]
        · simpa using few
        · simpa using complete
      · cases step
      · cases step
  | wait =>
      rw [Prefork.next, Option.ite_none_right_eq_some] at step
      obtain ⟨-, stepped⟩ := step
      obtain rfl := Option.some.inj stepped
      exact sound_settle accounted few fun waiting => by cases waiting
  | arrive =>
      obtain rfl := Option.some.inj step
      split
      · rename_i listening
        exact ⟨accounted.same_taken rfl accounted.sound.arrive,
          fun closed => absurd listening closed, few, complete⟩
      · exact ⟨accounted.same_taken rfl accounted.sound.refuse, idle, few, complete⟩
  | worker index event =>
      obtain ⟨child, found, taken⟩ := Option.bind_eq_some_iff.mp step
      rw [Option.ite_none_right_eq_some] at taken
      obtain ⟨-, stepped⟩ := taken
      obtain ⟨work, worked, taken⟩ := Option.bind_eq_some_iff.mp stepped
      obtain ⟨backlog, taking, rfl⟩ := Option.map_eq_some_iff.mp taken
      refine sound_settle (accounted.work found worked taking) ?_ ?_
      · simpa using few
      · simpa using complete
  | signal index =>
      obtain ⟨child, found, taken⟩ := Option.bind_eq_some_iff.mp step
      rw [Option.ite_none_right_eq_some] at taken
      obtain ⟨-, stepped⟩ := taken
      obtain rfl := Option.some.inj stepped
      refine sound_settle (accounted.same_works ?_) ?_ ?_
      · exact SharedCounters.map_set_same found rfl
      · simpa using few
      · simpa using complete

/-! ## What that means for the peers -/

/-- What the workers took and what they still have room for is what there is room for. -/
theorem Accounted.room {workers : List Child} {backlog : Backlog}
    (accounted : Accounted workers backlog) :
    (backlog.taken.length : Int) +
        SharedCounters.total (fun child => child.work.nConnects) workers =
      MAXCONNECT * workers.length := by
  have taken_eq := Backlog.sum_counts
    (fun index child found => (accounted.known found).took) (by simpa using accounted.named)
  have each : SharedCounters.total
      (fun child => (child.work.accepted : Int) + child.work.nConnects) workers =
        SharedCounters.total (fun _ => MAXCONNECT * 1) workers := by
    apply SharedCounters.total_congr
    intro child member
    have counted := (accounted.counted member).total
    omega
  rw [SharedCounters.total_add, SharedCounters.total_mul, taken_eq] at each
  rw [each]
  simp [SharedCounters.total]

theorem Accounted.listens_iff {workers : List Child} {backlog : Backlog} {child : Child}
    (accounted : Accounted workers backlog) (member : child ∈ workers) :
    child.Listens ↔ child.Alive ∧ 0 < child.work.nConnects :=
  and_congr_right fun _ => (accounted.counted member).listening

theorem reachable_sound (reach : preforks.Reachable started server) : server.Sound := by
  have preserves : preforks.Preserves Sound := fun _ _ _ sound step => sound.next step
  exact preserves.reachable sound_started reach

theorem Sound.has_room (sound : server.Sound) :
    0 < SharedCounters.total (fun child => child.work.nConnects) server.workers ↔
      ∃ child ∈ server.workers, 0 < child.work.nConnects := by
  have nonneg : ∀ child ∈ server.workers, 0 ≤ child.work.nConnects :=
    fun child member => (sound.accounted.counted member).nonneg
  constructor
  · intro some_room
    by_contra nobody
    push Not at nobody
    have none_left : SharedCounters.total (fun child => child.work.nConnects) server.workers ≤
        SharedCounters.total (fun _ => 0) server.workers := SharedCounters.total_mono nobody
    simp [SharedCounters.total] at none_left some_room
    omega
  · rintro ⟨child, member, some_room⟩
    exact some_room.trans_le (SharedCounters.share_le_total nonneg member)

theorem Sound.listening_iff (sound : server.Sound) (waiting : server.parent = .waiting)
    (alive : ∀ child ∈ server.workers, child.Alive) :
    server.Listening ↔ ∃ child ∈ server.workers, 0 < child.work.nConnects := by
  constructor
  · rintro (forking | ⟨child, member, listens⟩)
    · rw [forking] at waiting
      cases waiting
    · exact ⟨child, member, ((sound.accounted.listens_iff member).mp listens).2⟩
  · rintro ⟨child, member, some_room⟩
    exact .inr ⟨child, member,
      (sound.accounted.listens_iff member).mpr ⟨alive child member, some_room⟩⟩

@[simp] theorem settle_taken : server.settle.backlog.taken = server.backlog.taken := by
  rw [settle]
  split <;> rfl

theorem settle_closed (past_forks : server.parent ≠ .forking)
    (silent : ∀ child ∈ server.workers, ¬ child.Listens) : ¬ server.settle.Listening := by
  have same : server.settle.Listening ↔ server.Listening := by
    rw [settle]
    split <;> rfl
  rw [same]
  rintro (forking | ⟨child, member, listens⟩)
  · exact past_forks forking
  · exact silent child member listens

/-- A socket that nobody holds stays closed, and nobody takes a peer from it. -/
theorem Sound.stays_closed (sound : server.Sound) (closed : ¬ server.Listening)
    (step : server.next event = some after) :
    ¬ after.Listening ∧ after.backlog.taken = server.backlog.taken := by
  have past_forks : server.parent ≠ .forking := fun forking => closed (.inl forking)
  have silent : ∀ child ∈ server.workers, ¬ child.Listens :=
    fun child member listens => closed (.inr ⟨child, member, listens⟩)
  cases event with
  | fork succeeds =>
      rw [Prefork.next, Option.ite_none_right_eq_some] at step
      exact absurd step.1.1 past_forks
  | closeListener =>
      rw [Prefork.next, Option.ite_none_right_eq_some] at step
      exact absurd step.1.1 past_forks
  | interrupt =>
      rw [Prefork.next] at step
      split at step
      · exact absurd (by assumption) past_forks
      · obtain rfl := Option.some.inj step
        refine ⟨settle_closed past_forks ?_, settle_taken⟩
        intro _ member listens
        obtain ⟨child, -, rfl⟩ := List.mem_map.mp member
        cases listens.1.1
      · cases step
      · cases step
  | wait =>
      rw [Prefork.next, Option.ite_none_right_eq_some] at step
      obtain ⟨-, stepped⟩ := step
      obtain rfl := Option.some.inj stepped
      exact ⟨settle_closed (by simp) silent, settle_taken⟩
  | arrive =>
      obtain rfl := Option.some.inj step
      rw [if_neg closed]
      exact ⟨closed, rfl⟩
  | worker index event =>
      obtain ⟨child, found, taken⟩ := Option.bind_eq_some_iff.mp step
      rw [Option.ite_none_right_eq_some] at taken
      obtain ⟨running, stepped⟩ := taken
      obtain ⟨work, worked, taken⟩ := Option.bind_eq_some_iff.mp stepped
      obtain ⟨backlog, taking, rfl⟩ := Option.map_eq_some_iff.mp taken
      have member := List.mem_of_getElem? found
      have shut : child.work.srv ≠ true := fun holds =>
        silent child member ⟨⟨running, Work.running_of_next worked⟩, holds⟩
      have takes_not : ¬ child.work.Takes event := by
        rcases event with (_ | setup) | _ | _
        · exact not_false
        · exact fun takes => shut takes.2
        · exact not_false
        · exact not_false
      rw [if_neg takes_not] at taking
      obtain rfl := Option.some.inj taking
      have shut' : ¬ ({ child with work } : Child).Listens := fun listens =>
        (sound.accounted.counted member).stays_closed worked shut listens.2
      exact ⟨settle_closed past_forks (forall_mem_set silent shut'), settle_taken⟩
  | signal index =>
      obtain ⟨child, found, taken⟩ := Option.bind_eq_some_iff.mp step
      rw [Option.ite_none_right_eq_some] at taken
      obtain ⟨-, stepped⟩ := taken
      obtain rfl := Option.some.inj stepped
      have ended : ¬ ({ child with ended := true } : Child).Listens := fun listens => by
        cases listens.1.1
      exact ⟨settle_closed past_forks (forall_mem_set silent ended), settle_taken⟩

/-- Whoever comes to a socket that nobody holds is turned away. -/
theorem Sound.turns_away {events : List PreforkEvent} (sound : server.Sound)
    (closed : ¬ server.Listening) (execution : preforks.run server events = some after) :
    after.backlog.taken = server.backlog.taken ∧
      ∀ peer, server.backlog.arrived ≤ peer → peer < after.backlog.arrived →
        peer ∈ after.backlog.refused := by
  let shut : Prefork → Prop := fun later =>
    later.Sound ∧ ¬ later.Listening ∧ later.backlog.taken = server.backlog.taken
  have preserves : preforks.Preserves shut := by
    rintro later event next ⟨sound, closed, same⟩ step
    obtain ⟨closed', same'⟩ := sound.stays_closed closed step
    exact ⟨sound.next step, closed', same'.trans same⟩
  obtain ⟨sound', closed', same⟩ := preserves.run ⟨sound, closed, rfl⟩ execution
  refine ⟨same, ?_⟩
  intro peer new came
  have placed := sound'.accounted.sound.placed.symm.subset (List.mem_range.mpr came)
  rw [same, sound'.idle closed', List.append_nil] at placed
  rcases List.mem_append.mp placed with taken | refused
  · have before := sound.accounted.sound.earlier (List.mem_append_left _ taken)
    omega
  · exact refused

/-- What a worker took, and what it still has room for. -/
theorem Sound.took (sound : server.Sound) {index : Nat} {child : Child}
    (found : server.workers[index]? = some child) :
    (server.backlog.takenBy index : Int) + child.work.nConnects = MAXCONNECT ∧
      0 ≤ child.work.nConnects := by
  have counted := sound.accounted.counted (List.mem_of_getElem? found)
  have took := (sound.accounted.known found).took
  have total := counted.total
  exact ⟨by omega, counted.nonneg⟩

/-- In every reachable state of the processes: each peer that ever connected was taken by exactly
one worker, waits at the listening socket, or was turned away; the peers are taken in the order in
which they came; every worker has taken exactly what it counted down from `MAXCONNECT`; and nobody
waits at a socket that no process holds. -/
theorem connections_shared (reach : preforks.Reachable started server) :
    (server.backlog.taken.map Prod.snd ++ server.backlog.queue ++ server.backlog.refused).Perm
      (List.range server.backlog.arrived) ∧
    (server.backlog.taken.map Prod.snd ++ server.backlog.queue).Pairwise (· < ·) ∧
    (∀ (index : Nat) (child : Child), server.workers[index]? = some child →
      works.Reachable .started child.work ∧
      (server.backlog.takenBy index : Int) + child.work.nConnects = MAXCONNECT) ∧
    (¬ server.Listening → server.backlog.queue = []) := by
  have sound := reachable_sound reach
  obtain ⟨placed, ordered⟩ := sound.accounted.sound
  refine ⟨placed, ordered, ?_, sound.idle⟩
  intro index child found
  exact ⟨(sound.accounted.known found).reached, (sound.took found).1⟩

/-- The server never takes more than 10320 connections.  As long as no worker is lost, it
listens until it has taken that many, which is when each of its workers is full.  Once it does not
listen, it takes nobody any more and turns away whoever comes. -/
theorem listens_until_full (reach : preforks.Reachable started server) :
    server.backlog.taken.length ≤ 10320 ∧
    (server.parent = .waiting → (∀ child ∈ server.workers, child.Alive) →
      (server.Listening ↔ server.backlog.taken.length < 10320) ∧
      (server.backlog.taken.length = 10320 ↔
        ∀ index < NTHREADS, server.backlog.takenBy index = 430)) ∧
    (¬ server.Listening → ∀ events after, preforks.run server events = some after →
      after.backlog.taken = server.backlog.taken ∧
        ∀ peer, server.backlog.arrived ≤ peer → peer < after.backlog.arrived →
          peer ∈ after.backlog.refused) := by
  have sound := reachable_sound reach
  have room := sound.accounted.room
  have few := sound.few
  have open_room : 0 ≤ SharedCounters.total (fun child => child.work.nConnects) server.workers :=
    SharedCounters.total_nonneg fun child member => (sound.accounted.counted member).nonneg
  have most : MAXCONNECT = 430 := rfl
  have threads : NTHREADS = 24 := rfl
  rw [most] at room
  refine ⟨by omega, ?_, fun closed events after execution => sound.turns_away closed execution⟩
  · intro waiting alive
    have complete := sound.complete waiting
    have has_room := sound.has_room
    constructor
    · rw [sound.listening_iff waiting alive, ← has_room]
      omega
    · constructor
      · intro all_taken index hired
        have inside : index < server.workers.length := by omega
        have found := List.getElem?_eq_getElem inside
        have full : ¬ 0 < (server.workers[index]).work.nConnects := by
          intro some_room
          have left_over := has_room.mpr ⟨_, List.mem_of_getElem? found, some_room⟩
          omega
        obtain ⟨took, nonneg⟩ := sound.took found
        omega
      · intro all_full
        have nobody : ¬ ∃ child ∈ server.workers, 0 < child.work.nConnects := by
          rintro ⟨child, member, some_room⟩
          obtain ⟨index, inside, rfl⟩ := List.getElem_of_mem member
          have took := (sound.took (List.getElem?_eq_getElem inside)).1
          have full := all_full index (by omega)
          omega
        rw [← has_room] at nobody
        omega

/-- All workers are started, and the third takes the first of two peers. -/
def firstTaken : List PreforkEvent :=
  List.replicate 24 (.fork true) ++
    [.closeListener, .arrive, .arrive, .worker 2 (.iterate (some ⟨true, true⟩))]

theorem run_firstTaken : ∃ server, preforks.run started firstTaken = some server ∧
    server.parent = .waiting ∧ server.backlog.taken = [(2, 0)] ∧
      (∃ child, server.workers[2]? = some child) ∧ ∀ child ∈ server.workers, child.Alive :=
  ⟨_, rfl, rfl, rfl, ⟨_, rfl⟩, by decide⟩

theorem connections_shared_first : ∃ server child, preforks.run started firstTaken = some server ∧
    server.workers[2]? = some child ∧ child.work.nConnects = 429 := by
  obtain ⟨server, execution, -, taken, ⟨child, found⟩, -⟩ := run_firstTaken
  obtain ⟨-, -, workers, -⟩ := connections_shared ⟨firstTaken, execution⟩
  have took : server.backlog.takenBy 2 = 1 := by
    rw [Backlog.takenBy, taken]
    decide
  have counted := (workers 2 child found).2
  have most : MAXCONNECT = 430 := rfl
  exact ⟨server, child, execution, found, by omega⟩

theorem listens_until_full_first : ∃ server, preforks.run started firstTaken = some server ∧
    server.Listening := by
  obtain ⟨server, execution, waiting, taken, -, alive⟩ := run_firstTaken
  obtain ⟨-, later, -⟩ := listens_until_full ⟨firstTaken, execution⟩
  refine ⟨server, execution, (later waiting alive).1.mpr ?_⟩
  rw [taken]
  decide

end Prefork

end Mrps.Perl
