import Mrps.AcceptPool
import Mrps.EchoService

/-!
# Threads as an echo service

The client at one place of a process that many threads share.  Handles that are opened, threads that
are on their way from the queue to a client and the events of all other clients leave its streams
alone.
-/

namespace Mrps

open EventSystem

variable {σ ε μ φ α : Type}

/-- The streams of the client at a place.  An event of any client adds to them, and they stay an
echo as long as the place's own events are timely. -/
structure Registry.Streams (registry : Registry σ ε μ φ) (good : σ → Prop) (index : Nat)
    (received given : σ → List α) (Timely : σ → ε → Prop) : Prop where
  leave : ∀ handles state, received (registry.leave handles state) = received state ∧
    given (registry.leave handles state) = given state
  register : ∀ handle memory state,
    EchoService.Advances received given state (registry.register handle memory state)
  act : ∀ handles state place event after, good (registry.leave handles state) →
    registry.act state place event = some (.ok after) → (place = index → Timely state event) →
      EchoService.Advances received given state after

namespace AcceptPool

variable {κ : Type} {registry : Registry σ ε μ φ} {good : σ → Prop} {owned : σ → Finset Nat}
  {index : Nat} {received given : σ → List α} {Timely : σ → ε → Prop}

/-- A stream of the process that the threads share. -/
def ofProcess (view : σ → List α) : Except φ (AcceptPool σ κ) → List α
  | .ok pool => view pool.process
  | .error _ => []

/-- The event is a timely one for the client at a place. -/
def TimelyAt (index : Nat) (Timely : σ → ε → Prop) (state : Except φ (AcceptPool σ κ))
    (event : AcceptPoolEvent κ ε μ) (_ : Except φ (AcceptPool σ κ)) : Prop :=
  match state, event with
  | .ok pool, .act _ place own => place = index → Timely pool.process own
  | _, _ => True

/-- The client at a place, while all threads run. -/
def service (κ : Type) (registry : Registry σ ε μ φ) (index : Nat) (received given : σ → List α)
    (Timely : σ → ε → Prop) (threads : Nat) (process : σ) : EchoService α where
  State := Except φ (AcceptPool σ κ)
  Event := AcceptPoolEvent κ ε μ
  system := AcceptPool.system registry
  initial := .ok (AcceptPool.started threads process)
  received := ofProcess received
  sent := ofProcess given
  Allowed := TimelyAt index Timely

/-- A fault-free pool whose client at the place echoes. -/
def EchoingAt (registry : Registry σ ε μ φ) (good : σ → Prop) (received given : σ → List α) :
    Except φ (AcceptPool σ κ) → Prop
  | .ok pool => Airborne registry good pool ∧ given pool.process <+: received pool.process
  | .error _ => False

theorem Steps.advances (streams : registry.Streams good index received given Timely)
    (framed : registry.Framed good owned)
    (preserves : registry.atomic.Preserves (Registry.Fine good)) {pool : AcceptPool σ κ}
    {event : AcceptPoolEvent κ ε μ} {result : Except φ (AcceptPool σ κ)}
    (airborne : Airborne registry good pool) (steps : Steps registry pool event result)
    (timely : TimelyAt index Timely (.ok pool : Except φ (AcceptPool σ κ)) event result) :
    ∃ after, result = .ok after ∧ Airborne registry good after ∧
      EchoService.Advances received given pool.process after.process := by
  obtain ⟨after, rfl, airborne', -⟩ := airborne.steps framed preserves steps
  refine ⟨after, rfl, airborne', ?_⟩
  have alike : after.process = pool.process →
      EchoService.Advances received given pool.process after.process := by
    intro process_eq
    rw [process_eq]
    exact .still rfl rfl
  generalize result_eq : (Except.ok after : Except φ (AcceptPool σ κ)) = result at steps timely
  cases steps with
  | spawn =>
      obtain rfl := Except.ok.inj result_eq
      exact alike rfl
  | arrive peer =>
      obtain rfl := Except.ok.inj result_eq
      exact alike rfl
  | thread _ _ old new _ _ _ _ _ _ _ _ carries =>
      obtain rfl := Except.ok.inj result_eq
      cases carries with
      | keep held_eq queue_eq served_eq lost_eq process_eq =>
          exact alike process_eq
      | take handle peer old_held new_held queue_eq fresh served_eq lost_eq process_eq =>
          rw [process_eq]
          exact .still (streams.leave _ _).1 (streams.leave _ _).2
      | drop handle peer old_held new_held queue_eq served_eq lost_eq process_eq =>
          exact alike process_eq
      | serve handle peer memory old_held new_held queue_eq served_eq lost_eq process_eq =>
          rw [process_eq]
          exact streams.register _ _ _
  | act thread place own outcome _ _ acted =>
      cases outcome with
      | error fault => cases result_eq
      | ok process =>
          obtain rfl := Except.ok.inj result_eq
          exact streams.act _ pool.process place own process airborne.good acted timely

/-- Threads whose clients' streams are in order are a faithful service for each of their clients. -/
theorem service_faithful (streams : registry.Streams good index received given Timely)
    (framed : registry.Framed good owned)
    (preserves : registry.atomic.Preserves (Registry.Fine good)) (threads : Nat) {process : σ}
    (good_process : good process) (unread : received process = []) (unsent : given process = []) :
    (service κ registry index received given Timely threads process).Faithful := by
  apply EchoService.faithful_of_invariant (EchoingAt registry good received given)
  · have related : Related registry good (.ok (started threads process : AcceptPool σ κ))
        (.ok process) := related_started framed threads good_process
    refine ⟨related.airborne, ?_⟩
    change given process <+: received process
    rw [unread, unsent]
  · exact unread
  · rintro (fault | pool) echoing
    · exact echoing.elim
    · exact echoing.2
  · rintro (fault | pool) event next echoing step timely
    · exact echoing.elim
    · obtain ⟨airborne, echoes⟩ : Airborne registry good pool ∧
        given pool.process <+: received pool.process := echoing
      obtain ⟨after, rfl, airborne', advances⟩ :=
        (steps_of_next step).advances streams framed preserves airborne timely
      exact ⟨⟨airborne', advances.echoes echoes⟩, advances.received_grows, advances.sent_grows⟩

end AcceptPool

end Mrps
