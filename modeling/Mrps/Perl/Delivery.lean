import Mrps.EchoService
import Mrps.Perl.Prefork

/-!
# What the processes of `10kx_decoded.pl` deliver

One socket of one worker, while all processes go on.  A visit writes back what it read and keeps
nothing of what `syswrite` leaves, so the stream is kept as long as no `syswrite` follows one that
left a rest.
-/

namespace Mrps.Perl

open EventSystem

/-! ## One worker -/

namespace Work

variable {worker after : Work} {event : WorkEvent} {socket : Nat} {log : List Byte}

/-- What an event brings to a socket: the bytes that `sysread` finds. -/
def brought (worker : Work) (socket : Nat) : WorkEvent → List Byte
  | .visit (some bytes) _ => if worker.s[worker.index]? = some socket then bytes else []
  | .visit none _ | .iterate _ | .leave => []

/-- What `syswrite` took for a socket. -/
def given (worker : Work) (socket : Nat) : List Byte :=
  worker.written.flatMap fun write => if write.1 = socket then write.2 else []

/-- `syswrite` takes bytes for the socket only when it took everything read before. -/
def Timely (worker : Work) (socket : Nat) (log : List Byte) : WorkEvent → Prop
  | .visit (some _) (some count) =>
      worker.s[worker.index]? = some socket → 0 < count →
        (worker.given socket).length = log.length
  | .visit (some _) none | .visit none _ | .iterate _ | .leave => True

theorem written_iterate (accept : Option Setup) :
    (worker.iterate accept).written = worker.written := by
  have started : ∀ paused : Work, paused.startPass.written = paused.written := by
    intro paused
    rw [startPass]
    split <;> rfl
  have tried : (worker.tryAccept accept).written = worker.written := by
    cases accept with
    | none =>
        rw [tryAccept]
        split <;> rfl
    | some setup =>
        rw [tryAccept]
        split
        · rfl
        · split <;> rfl
  rw [iterate]
  split
  · rw [started, tried]
  · rw [started]

/-- A visit of a socket that finds bytes writes the front of them. -/
theorem given_serve {byte : Byte} {bytes : List Byte} {syswrite : Option Nat} (visited : Nat) :
    ((worker.serve visited (some (byte :: bytes)) syswrite).advance).given socket =
      worker.given socket ++
        if visited = socket then (byte :: bytes).take (syswrite.getD 0) else [] := by
  simp only [serve, advance, given, List.flatMap_append, List.flatMap_cons, List.flatMap_nil,
    List.append_nil]

/-- Under these conditions a step keeps the echo and takes nothing back. -/
theorem echoes_next (echoes : worker.given socket <+: log) (step : worker.next event = some after)
    (timely : worker.Timely socket log event) :
    after.given socket <+: log ++ worker.brought socket event ∧
      worker.given socket <+: after.given socket := by
  have silent : ∀ other : Work, other.written = worker.written →
      other.given socket <+: log ++ [] ∧ worker.given socket <+: other.given socket := by
    intro other same
    have given_eq : other.given socket = worker.given socket := by rw [given, same, given]
    rw [given_eq, List.append_nil]
    exact ⟨echoes, List.prefix_rfl⟩
  cases event with
  | iterate accept =>
      rw [Work.next, Option.ite_none_right_eq_some] at step
      obtain ⟨-, stepped⟩ := step
      obtain rfl := Option.some.inj stepped
      exact silent _ (written_iterate accept)
  | leave =>
      rw [Work.next, Option.ite_none_right_eq_some] at step
      obtain ⟨-, stepped⟩ := step
      obtain rfl := Option.some.inj stepped
      exact silent _ rfl
  | visit sysread syswrite =>
      rw [Work.next, Option.ite_none_right_eq_some] at step
      obtain ⟨-, stepped⟩ := step
      obtain ⟨visited, found, rfl⟩ := Option.map_eq_some_iff.mp stepped
      rcases sysread with _ | (_ | ⟨byte, bytes⟩)
      · exact silent _ rfl
      · have nothing : worker.brought socket (.visit (some []) syswrite) = [] := by simp [brought]
        rw [nothing]
        exact silent _ rfl
      · rw [given_serve]
        by_cases here : visited = socket
        · subst here
          have brought_eq : worker.brought visited (.visit (some (byte :: bytes)) syswrite) =
              byte :: bytes := by simp [brought, found]
          rw [brought_eq, if_pos rfl]
          refine ⟨?_, List.prefix_append _ _⟩
          have nothing_taken : worker.given visited ++ [] <+: log ++ (byte :: bytes) := by
            rw [List.append_nil]
            exact echoes.trans (List.prefix_append _ _)
          cases syswrite with
          | none => simpa using nothing_taken
          | some count =>
              rcases Nat.eq_zero_or_pos count with rfl | positive
              · simpa using nothing_taken
              · -- everything read so far was taken, so this chunk follows it
                have lengths := timely found positive
                rw [echoes.eq_of_length lengths]
                exact (List.prefix_append_right_inj _).mpr (List.take_prefix _ _)
        · have nothing : worker.brought socket (.visit (some (byte :: bytes)) syswrite) = [] := by
            simp [brought, found, here]
          rw [nothing, if_neg here, List.append_nil, List.append_nil]
          exact ⟨echoes, List.prefix_rfl⟩

/-- The stream of a socket. -/
def outlet (socket : Nat) : Outlet Work WorkEvent Byte where
  brought worker event := worker.brought socket event
  given worker := worker.given socket
  Timely worker log event := worker.Timely socket log event

theorem outlet_echoes (socket : Nat) :
    (outlet socket).Echoes works fun worker log => worker.given socket <+: log where
  delivered _ _ echoes := echoes
  step _ _ _ _ echoes step timely := echoes_next echoes step timely

end Work

/-! ## The processes -/

namespace Prefork

/-- The part of an event that is a step of the worker at `index`. -/
def part (_ : Prefork) (event : PreforkEvent) (index : Nat) : Option WorkEvent :=
  match event with
  | .worker place own => if place = index then some own else none
  | .fork _ | .closeListener | .interrupt | .wait | .arrive | .signal _ => none

@[simp] theorem workers_settle (server : Prefork) : server.settle.workers = server.workers := by
  rw [settle]
  split <;> rfl

theorem workers_next {server after : Prefork} {event : PreforkEvent}
    (step : server.next event = some after) :
    (after.workers = server.workers ++ [.forked] ∧ ∀ index, server.part event index = none) ∨
    (after.workers.map Child.work = server.workers.map Child.work ∧
      ∀ index, server.part event index = none) ∨
    ∃ index own child work, event = .worker index own ∧ server.workers[index]? = some child ∧
      child.work.next own = some work ∧
      after.workers = server.workers.set index { child with work } := by
  cases event with
  | fork succeeds =>
      rw [next, Option.ite_none_right_eq_some] at step
      obtain ⟨-, stepped⟩ := step
      obtain rfl := Option.some.inj stepped
      exact .inl ⟨rfl, fun _ => rfl⟩
  | closeListener =>
      rw [next, Option.ite_none_right_eq_some] at step
      obtain ⟨-, stepped⟩ := step
      obtain rfl := Option.some.inj stepped
      exact .inr (.inl ⟨by simp, fun _ => rfl⟩)
  | interrupt =>
      rw [next] at step
      split at step
      · obtain rfl := Option.some.inj step
        exact .inr (.inl ⟨by simp, fun _ => rfl⟩)
      · obtain rfl := Option.some.inj step
        exact .inr (.inl ⟨by simp [Function.comp_def], fun _ => rfl⟩)
      · cases step
      · cases step
  | wait =>
      rw [next, Option.ite_none_right_eq_some] at step
      obtain ⟨-, stepped⟩ := step
      obtain rfl := Option.some.inj stepped
      exact .inr (.inl ⟨by simp, fun _ => rfl⟩)
  | arrive =>
      obtain rfl := Option.some.inj step
      exact .inr (.inl ⟨rfl, fun _ => rfl⟩)
  | worker index own =>
      obtain ⟨child, found, taken⟩ := Option.bind_eq_some_iff.mp step
      rw [Option.ite_none_right_eq_some] at taken
      obtain ⟨-, stepped⟩ := taken
      obtain ⟨work, worked, taken⟩ := Option.bind_eq_some_iff.mp stepped
      obtain ⟨backlog, -, rfl⟩ := Option.map_eq_some_iff.mp taken
      exact .inr (.inr ⟨index, own, child, work, rfl, found, worked, workers_settle _⟩)
  | signal index =>
      obtain ⟨child, found, taken⟩ := Option.bind_eq_some_iff.mp step
      rw [Option.ite_none_right_eq_some] at taken
      obtain ⟨-, stepped⟩ := taken
      obtain rfl := Option.some.inj stepped
      refine .inr (.inl ⟨?_, fun _ => rfl⟩)
      rw [workers_settle]
      exact SharedCounters.map_set_same found rfl

theorem employs_works : Employs preforks works (fun server => server.workers.map Child.work) part
    fun work => work = .started := by
  intro server event after step
  rcases workers_next step with ⟨grown, nothing⟩ | ⟨same, nothing⟩ |
    ⟨place, own, child, moved, rfl, at_place, worked, workers_eq⟩
  · refine .inl ⟨.started, rfl, ?_, nothing⟩
    simp [grown, Child.forked]
  · exact .inr (.inl ⟨same, nothing⟩)
  · refine .inr (.inr ⟨place, own, child.work, moved, fun _ => rfl, ?_, worked, ?_⟩)
    · simp [at_place]
    · simp [workers_eq]

end Prefork

/-- A socket of one worker, while no `syswrite` to it follows one that left a rest. -/
def echoService (index socket : Nat) : EchoService Byte :=
  (Work.outlet socket).hosted preforks (fun server => server.workers.map Child.work) Prefork.part
    index .started

theorem echoService_faithful (index socket : Nat) : (echoService index socket).Faithful := by
  apply Outlet.hosted_faithful Prefork.employs_works.hosts (Work.outlet_echoes socket)
  · intro work found
    simp [Prefork.started] at found
  · intro server event after work step nobody found
    obtain rfl := Prefork.employs_works.newcomer step nobody found
    exact List.prefix_rfl

end Mrps.Perl
