import Mrps.ComposedWrites
import Mrps.Tester.Sends

/-!
# The stream of requests

The writes of a handler are composed writes of one block, its message.  Nothing keeps `send_staff`
from starting the next one while an earlier one is under way.
-/

namespace Mrps.Tester

open Blocks EventSystem

/-- The output side of a handler's socket. -/
def Activity.wire (activity : Activity) : Wire Byte :=
  { issued := activity.issued, resuming := activity.resuming, placed := activity.placed }

/-- What an event does on the output side. -/
def Activity.wireEvent (activity : Activity) : ActivityEvent → Option (Wire.Event Byte)
  | .perform =>
      match activity.todo with
      | .asyncWrite bytes :: _ => some (.write bytes)
      | _ => none
  | .serve count => some (.serve count)
  | .resume => some .resume
  | _ => none

/-- The step mixes no write into another. -/
def Unmixed (state : Except Fault Activity) (event : ActivityEvent) (_ : Except Fault Activity) :
    Prop :=
  match state with
  | .ok activity => ∀ effect, activity.wireEvent event = some effect → activity.wire.Unmixed effect
  | .error _ => True

instance (state : Except Fault Activity) (event : ActivityEvent) (next : Except Fault Activity) :
    Decidable (Unmixed state event next) :=
  match state with
  | .ok activity =>
      match happens : activity.wireEvent event with
      | none => isTrue (by simp [Unmixed, happens])
      | some effect => decidable_of_iff (activity.wire.Unmixed effect) (by simp [Unmixed, happens])
  | .error _ => isTrue trivial

variable {activity after : Activity} {event : ActivityEvent}

theorem react_wire {current : Activity} {callback : Except Fault Reaction}
    (reacted : current.react callback = .ok after) (same : current.wire = activity.wire) :
    after.wire = activity.wire := by
  obtain ⟨reaction, -, rfl⟩ := react_eq_ok reacted
  exact same

/-- Unless a write fails, a step of the handler is a step of its wire or none. -/
theorem Moves.wire (moves : Moves activity event (.ok after)) (works : event ≠ .serveFails) :
    activity.wireEvent event = none ∧ after.wire = activity.wire ∨
      ∃ effect, activity.wireEvent event = some effect ∧
        Wire.Step activity.wire effect after.wire := by
  generalize result_eq : Except.ok after = result at moves
  cases moves with
  | @perform action todo split =>
      obtain rfl := Except.ok.inj result_eq
      cases action with
      | asyncWrite bytes =>
          exact Or.inr ⟨.write bytes, by simp [Activity.wireEvent, split], .write bytes⟩
      | update _ => exact Or.inl ⟨by simp [Activity.wireEvent, split], rfl⟩
      | waitBear => exact Or.inl ⟨by simp [Activity.wireEvent, split], rfl⟩
      | asyncConnect => exact Or.inl ⟨by simp [Activity.wireEvent, split], rfl⟩
      | waitExch => exact Or.inl ⟨by simp [Activity.wireEvent, split], rfl⟩
      | asyncRead => exact Or.inl ⟨by simp [Activity.wireEvent, split], rfl⟩
  | bear =>
      obtain rfl := Except.ok.inj result_eq
      exact Or.inl ⟨rfl, rfl⟩
  | connect => exact Or.inl ⟨rfl, react_wire result_eq.symm rfl⟩
  | exchange => exact Or.inl ⟨rfl, react_wire result_eq.symm rfl⟩
  | servePart split positive part =>
      obtain rfl := Except.ok.inj result_eq
      exact Or.inr ⟨_, rfl, .servePart split positive part⟩
  | serveAll split =>
      obtain rfl := Except.ok.inj result_eq
      exact Or.inr ⟨_, rfl, .serveAll split⟩
  | serveFails => exact (works rfl).elim
  | resume split =>
      obtain rfl := Except.ok.inj result_eq
      exact Or.inr ⟨_, rfl, .resume split⟩
  | stub => exact Or.inl ⟨rfl, react_wire result_eq.symm rfl⟩
  | arrive =>
      obtain rfl := Except.ok.inj result_eq
      exact Or.inl ⟨rfl, rfl⟩
  | read => exact Or.inl ⟨rfl, react_wire result_eq.symm rfl⟩
  | readFails => exact Or.inl ⟨rfl, react_wire result_eq.symm rfl⟩

/-- Nothing is on the wire before `connect`, and whole messages in order after it. -/
def Streams (activity : Activity) : Prop :=
  Fresh activity ∨ Joined activity ∧ activity.wire.Aligned activity.handler.block

/-- A joined handler with something to write has its message, and writes only that. -/
theorem Joined.writes_message (joined : Joined activity)
    {effect : Wire.Event Byte} {wire : Wire Byte}
    (happens : activity.wireEvent event = some effect)
    (step : Wire.Step activity.wire effect wire) :
    (∃ random, random ≤ RAND_MAX ∧ activity.handler.block = message random) ∧
      ∀ other, effect = .write other → other = activity.handler.block := by
  have written : ∀ other, effect = .write other → .asyncWrite other ∈ activity.todo := by
    rintro other rfl
    cases event with
    | perform =>
        simp only [Activity.wireEvent] at happens
        split at happens
        · rename_i bytes todo split
          obtain rfl := Wire.Event.write.inj (Option.some.inj happens)
          rw [split]
          exact List.mem_cons_self
        · simp at happens
    | _ => simp [Activity.wireEvent] at happens
  refine ⟨?_, fun other wrote => joined.writes other (written other wrote)⟩
  rcases joined.formed with ⟨random, bound, formed⟩ | ⟨-, issued, resuming, silent⟩
  · exact ⟨random, bound, block_of_formed bound formed⟩
  · cases step with
    | write other => exact (silent other (written other rfl)).elim
    | servePart split => simp [Activity.wire, issued] at split
    | serveAll split => simp [Activity.wire, issued] at split
    | resume split => simp [Activity.wire, resuming] at split

theorem Streams.next (streams : Streams activity) (moves : Moves activity event (.ok after))
    (works : event ≠ .serveFails) (unmixed : Unmixed (.ok activity) event (.ok after)) :
    Streams after := by
  rcases streams with fresh | ⟨joined, aligned⟩
  · rcases fresh.next moves with fresh' | ⟨joined, issued, resuming, placed⟩
    · exact Or.inl fresh'
    · refine Or.inr ⟨joined, ?_, 0, ?_⟩
      · simp only [Activity.wire, issued, resuming]
        exact .idle
      · simp [Activity.wire, Wire.owed, issued, resuming, placed]
  · refine Or.inr ⟨joined.next moves, ?_⟩
    have block_eq : after.handler.block = activity.handler.block := by
      rw [ConnectionHandler.block, joined.sendBuf_eq moves]
      rfl
    rw [block_eq]
    rcases moves.wire works with ⟨-, same⟩ | ⟨effect, happens, step⟩
    · rw [same]
      exact aligned
    · obtain ⟨⟨random, bound, message_eq⟩, same⟩ := joined.writes_message happens step
      have nonempty : activity.handler.block ≠ [] := by
        rw [message_eq, ← List.length_pos_iff_ne_nil, length_message bound]
        decide
      exact aligned.step nonempty step (unmixed effect happens) same

theorem Streams.placed_repeats (streams : Streams activity) :
    ∃ count, activity.placed <+: repeated activity.handler.block count := by
  rcases streams with fresh | ⟨-, aligned⟩
  · exact ⟨0, by simp [fresh.placed]⟩
  · exact aligned.placed_repeats

/-- The kernel can serve a handler's wire as any wire. -/
theorem serve_of_wire {count : Nat} {wire : Wire Byte}
    (step : Wire.Step activity.wire (.serve count) wire) :
    ∃ final, activity.next (.serve count) = some (.ok final) ∧ final.wire = wire ∧
      final.handler = activity.handler := by
  cases step with
  | @servePart _ first rest split positive part =>
      have issued : activity.issued = first :: rest := split
      have served : activity.next (.serve count) = some (.ok { activity with
          issued := rest
          resuming := activity.resuming ++ [first.drop count]
          placed := activity.placed ++ first.take count }) := by
        simp [Activity.next, issued, positive, part]
      exact ⟨_, served, rfl, rfl⟩
  | @serveAll first rest split =>
      have issued : activity.issued = first :: rest := split
      have served : activity.next (.serve first.length) = some (.ok { activity with
          issued := rest
          written := activity.written ++ [false]
          placed := activity.placed ++ first }) := by
        simp [Activity.next, issued]
      exact ⟨_, served, rfl, rfl⟩

theorem Fresh.unmixed (fresh : Fresh activity) (effect : Wire.Event Byte) :
    activity.wire.Unmixed effect := by
  cases effect with
  | write block => exact fresh.resuming
  | serve count =>
      intro first rest split
      simp [Activity.wire, fresh.issued] at split
  | resume => trivial

/-- After a step that mixes two writes, the next service can put a message out of place. -/
theorem Streams.misplaces (streams : Streams activity) (moves : Moves activity event (.ok after))
    (mixed : ¬ Unmixed (.ok activity) event (.ok after)) :
    ∃ later final, activitySystem.run (.ok after) later = some (.ok final) ∧
      ∀ count, ¬ final.placed <+: repeated final.handler.block count := by
  obtain ⟨effect, happens, mixes⟩ : ∃ effect, activity.wireEvent event = some effect ∧
      ¬ activity.wire.Unmixed effect := by
    simpa [Unmixed] using mixed
  rcases streams with fresh | ⟨joined, aligned⟩
  · exact (mixes (fresh.unmixed effect)).elim
  · have works : event ≠ .serveFails := by
      rintro rfl
      simp [Activity.wireEvent] at happens
    rcases moves.wire works with ⟨silent, -⟩ | ⟨effect', happens', step⟩
    · simp [silent] at happens
    · obtain rfl : effect' = effect := by simpa [happens'] using happens
      obtain ⟨⟨random, bound, message_eq⟩, same⟩ := joined.writes_message happens step
      have block_eq : after.handler.block = activity.handler.block := by
        rw [ConnectionHandler.block, joined.sendBuf_eq moves]
        rfl
      have ends : activity.handler.block.getLast? = some 10 := by
        rw [message_eq, message, List.getLast?_concat]
      have only : ∀ index, activity.handler.block[index]? = some 10 →
          index + 1 = activity.handler.block.length := by
        rw [message_eq]
        exact fun index => message_newline bound
      obtain ⟨wire, served, misplaced⟩ := aligned.misplaces ends only step mixes same
      obtain ⟨final, serve_step, rfl, handler_eq⟩ := serve_of_wire served
      refine ⟨[.serve activity.handler.block.length], final, ?_, ?_⟩
      · simp [activitySystem, serve_step]
      · rw [handler_eq, block_eq]
        exact misplaced

/-- No write fails in the run. -/
def Works (events : List ActivityEvent) : Prop := .serveFails ∉ events

instance (events : List ActivityEvent) : Decidable (Works events) :=
  inferInstanceAs (Decidable (_ ∉ events))

/-- The handler streams unless its run has ended in a fault. -/
def Streaming : Except Fault Activity → Prop
  | .ok activity => Streams activity
  | .error _ => True

/-- In every run that mixes no writes the handler streams. -/
theorem run_streams {serviceId : Nat} {send read : Vector Byte 33} {now : Time}
    {events : List ActivityEvent} {activity : Activity} (works : Works events)
    (execution : activitySystem.run (.ok (.constructed serviceId send read now)) events =
      some (.ok activity))
    (unmixed : activitySystem.Along Unmixed (.ok (.constructed serviceId send read now)) events) :
    Streams activity := by
  have allowed : ∀ event ∈ events, event ≠ .serveFails := by
    rintro _ member rfl
    exact works member
  have kept : ∀ state event next, Streaming state →
      activitySystem.step state event = some next →
        Unmixed state event next ∧ event ≠ .serveFails → Streaming next := by
    rintro (fault | before) event (fault' | after) streams step ⟨unmixed, works⟩
    · trivial
    · simp [activitySystem] at step
    · trivial
    · exact Streams.next streams (moves_of_next step) works unmixed
  have start : Streaming (.ok (.constructed serviceId send read now)) :=
    Or.inl (constructed_fresh serviceId send read now)
  exact (unmixed.and (along_of_events allowed)).invariant kept start execution

/-- The bytes on the connection repeat the message in every run that starts no write between the
parts of another and serves none in part while another is outstanding; after the first step that
does, some run puts a message out of place. -/
theorem requests_aligned_or_misplaced_later (serviceId : Nat) (send read : Vector Byte 33)
    (now : Time) :
    (∀ events activity, Works events →
      activitySystem.run (.ok (.constructed serviceId send read now)) events =
        some (.ok activity) →
      activitySystem.Along Unmixed (.ok (.constructed serviceId send read now)) events →
        ∃ count, activity.placed <+: repeated activity.handler.block count) ∧
    ∀ events activity event after, Works events →
      activitySystem.run (.ok (.constructed serviceId send read now)) events =
        some (.ok activity) →
      activitySystem.Along Unmixed (.ok (.constructed serviceId send read now)) events →
      activitySystem.step (.ok activity) event = some (.ok after) →
      ¬ Unmixed (.ok activity) event (.ok after) →
        ∃ later final, activitySystem.run (.ok after) later = some (.ok final) ∧
          ∀ count, ¬ final.placed <+: repeated final.handler.block count := by
  constructor
  · intro events activity works execution unmixed
    exact (run_streams works execution unmixed).placed_repeats
  · intro events activity event after works execution unmixed step mixed
    exact (run_streams works execution unmixed).misplaces (moves_of_next step) mixed

/-- A first request that is placed in two parts. -/
theorem requests_aligned_or_misplaced_later_parted : ∃ activity,
    activitySystem.run zeroed (firstRequest ++ [.serve 5, .resume, .serve 27]) =
        some (.ok activity) ∧
      activity.placed = zeroMessage ∧ activity.resuming = [] ∧
      ∃ count, activity.placed <+: repeated activity.handler.block count := by
  obtain ⟨activity, execution, placed, whole⟩ : ∃ activity,
      activitySystem.run zeroed (firstRequest ++ [.serve 5, .resume, .serve 27]) =
        some (.ok activity) ∧
      activity.placed = zeroMessage ∧ activity.resuming = [] :=
    ⟨_, rfl, by decide, by decide⟩
  have unmixed : activitySystem.Along Unmixed zeroed
      (firstRequest ++ [.serve 5, .resume, .serve 27]) := by decide
  exact ⟨activity, execution, placed, whole,
    (requests_aligned_or_misplaced_later 0 _ _ 0).1 _ activity (by decide) execution unmixed⟩

/-- Two requests are outstanding and one byte of the first is placed; the second gets between its
parts. -/
theorem requests_mixed : ∃ activity,
    activitySystem.run zeroed (firstRequest ++ [.exchange 1, .perform, .perform] ++
      [.serve 1, .serve 32]) = some (.ok activity) ∧
    activity.handler.block = zeroMessage ∧
    ∀ count, ¬ activity.placed <+: repeated zeroMessage count := by
  obtain ⟨activity, execution, block, second⟩ : ∃ activity,
      activitySystem.run zeroed (firstRequest ++ [.exchange 1, .perform, .perform] ++
        [.serve 1, .serve 32]) = some (.ok activity) ∧
      activity.handler.block = zeroMessage ∧ activity.placed[1]? = some 48 :=
    ⟨_, rfl, by decide, by decide⟩
  refine ⟨activity, execution, block, ?_⟩
  rintro count ⟨rest, stream⟩
  have inside : 1 < activity.placed.length := (List.getElem?_eq_some_iff.mp second).1
  have lengths := congrArg List.length stream
  rw [List.length_append, length_repeated] at lengths
  have shown := @getElem?_repeated _ zeroMessage count 1 (by omega)
  rw [← stream, List.getElem?_append_left inside, second] at shown
  exact absurd shown (by decide)

end Mrps.Tester
