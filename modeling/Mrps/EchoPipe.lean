import Mrps.EventSystem

/-!
# Echo pipes

What an echoing connection is for: everything taken in is given back, in order and once.  A pipe
carries the evidence that its output is a prefix of its input, and the rest of the input is what it
still owes.
-/

/-- The history of an echoing connection over symbols `α`. -/
structure EchoPipe (α : Type*) where
  /-- Everything taken in. -/
  received : List α
  /-- Everything given back. -/
  sent : List α
  /-- Nothing is lost in the middle, duplicated or reordered. -/
  sent_prefix : sent <+: received

namespace EchoPipe

variable {α : Type*}

/-- A fresh pipe. -/
def empty : EchoPipe α := { received := [], sent := [], sent_prefix := List.prefix_rfl }

/-- The input that is still owed. -/
def pending (pipe : EchoPipe α) : List α := pipe.received.drop pipe.sent.length

theorem sent_append_pending (pipe : EchoPipe α) : pipe.sent ++ pipe.pending = pipe.received := by
  obtain ⟨rest, rest_eq⟩ := pipe.sent_prefix
  rw [pending, ← rest_eq, List.drop_left]

@[simp] theorem empty_pending : (empty : EchoPipe α).pending = [] := rfl

/-- Take symbols in. -/
def deliver (pipe : EchoPipe α) (symbols : List α) : EchoPipe α where
  received := pipe.received ++ symbols
  sent := pipe.sent
  sent_prefix := pipe.sent_prefix.trans (List.prefix_append _ _)

/-- Give the first `count` pending symbols back. -/
def accept (pipe : EchoPipe α) (count : Nat) : EchoPipe α where
  received := pipe.received
  sent := pipe.sent ++ pipe.pending.take count
  sent_prefix := by
    refine ⟨pipe.pending.drop count, ?_⟩
    rw [List.append_assoc, List.take_append_drop, sent_append_pending]

@[simp] theorem deliver_received (pipe : EchoPipe α) (symbols : List α) :
    (pipe.deliver symbols).received = pipe.received ++ symbols := rfl

@[simp] theorem deliver_sent (pipe : EchoPipe α) (symbols : List α) :
    (pipe.deliver symbols).sent = pipe.sent := rfl

@[simp] theorem deliver_pending (pipe : EchoPipe α) (symbols : List α) :
    (pipe.deliver symbols).pending = pipe.pending ++ symbols :=
  List.drop_append_of_le_length pipe.sent_prefix.length_le

@[simp] theorem accept_received (pipe : EchoPipe α) (count : Nat) :
    (pipe.accept count).received = pipe.received := rfl

@[simp] theorem accept_sent (pipe : EchoPipe α) (count : Nat) :
    (pipe.accept count).sent = pipe.sent ++ pipe.pending.take count := rfl

@[simp] theorem accept_pending (pipe : EchoPipe α) (count : Nat) :
    (pipe.accept count).pending = pipe.pending.drop count := by
  have whole := (pipe.accept count).sent_append_pending
  rw [accept_sent, accept_received, ← pipe.sent_append_pending, List.append_assoc] at whole
  have split : pipe.pending.take count ++ (pipe.accept count).pending =
      pipe.pending.take count ++ pipe.pending.drop count := by
    rw [List.append_cancel_left whole, List.take_append_drop]
  exact List.append_cancel_left split

/-- What can happen to a pipe. -/
inductive Event (α : Type*) where
  | deliver (symbols : List α)
  | accept (count : Nat)

/-- Pipes as an event system. -/
def system : EventSystem (EchoPipe α) (Event α) where
  step pipe
    | .deliver symbols => some (pipe.deliver symbols)
    | .accept count => some (pipe.accept count)

theorem run_sent_prefix {pipe later : EchoPipe α} {events : List (Event α)}
    (execution : system.run pipe events = some later) : pipe.sent <+: later.sent := by
  induction events generalizing pipe with
  | nil =>
      obtain rfl : pipe = later := by simpa using execution
      exact List.prefix_rfl
  | cons event events ih =>
      obtain ⟨next, step, rest⟩ := system.run_cons_eq_some execution
      cases event with
      | deliver symbols =>
          obtain rfl := Option.some.inj step
          have front : (pipe.deliver symbols).sent <+: later.sent := ih rest
          exact front
      | accept count =>
          obtain rfl := Option.some.inj step
          have front : (pipe.accept count).sent <+: later.sent := ih rest
          exact (List.prefix_append _ _).trans front

theorem run_received_prefix {pipe later : EchoPipe α} {events : List (Event α)}
    (execution : system.run pipe events = some later) : pipe.received <+: later.received := by
  induction events generalizing pipe with
  | nil =>
      obtain rfl : pipe = later := by simpa using execution
      exact List.prefix_rfl
  | cons event events ih =>
      obtain ⟨next, step, rest⟩ := system.run_cons_eq_some execution
      cases event with
      | deliver symbols =>
          obtain rfl := Option.some.inj step
          have front : (pipe.deliver symbols).received <+: later.received := ih rest
          exact (List.prefix_append _ _).trans front
      | accept count =>
          obtain rfl := Option.some.inj step
          have front : (pipe.accept count).received <+: later.received := ih rest
          exact front

/-- Histories that grow and keep their order are those of a pipe. -/
theorem exists_run {pipe : EchoPipe α} {received sent : List α}
    (grown : pipe.received <+: received) (given : pipe.sent <+: sent) (kept : sent <+: received) :
    ∃ events, system.run pipe events = some { received, sent, sent_prefix := kept } := by
  obtain ⟨more, rfl⟩ := grown
  obtain ⟨out, rfl⟩ := given
  refine ⟨[.deliver more, .accept out.length], ?_⟩
  have owed : out <+: pipe.pending ++ more := by
    have whole := kept
    rw [← pipe.sent_append_pending, List.append_assoc] at whole
    exact (List.prefix_append_right_inj pipe.sent).mp whole
  have taken : (pipe.pending ++ more).take out.length = out :=
    (List.prefix_iff_eq_take.mp owed).symm
  simp only [EventSystem.run_cons, EventSystem.run_nil, system, Option.bind_some, Option.some.injEq]
  simp only [accept, deliver_received, deliver_sent, deliver_pending, taken]

/-- A chunk taken in behind symbols that were never given back: if the output is still a prefix of
the input, the chunk starts with one of the earlier symbols. -/
theorem head_mem_of_prefix {sent received chunk rest : List α} {first : α}
    (kept : sent ++ first :: rest <+: received ++ chunk)
    (short : sent.length < received.length) : first ∈ received := by
  have inside : sent.length < (sent ++ first :: rest).length := by simp
  have same := kept.getElem inside
  rw [List.getElem_append_right le_rfl, List.getElem_append_left short] at same
  rw [show first = received[sent.length] by simpa using same]
  exact List.getElem_mem short

theorem append_prefix_iff {sent received chunk given : List α} (kept : sent <+: received) :
    sent ++ given <+: received ++ chunk ↔ given <+: received.drop sent.length ++ chunk := by
  obtain ⟨owed, rfl⟩ := kept
  rw [List.drop_left, List.append_assoc]
  exact List.prefix_append_right_inj sent

end EchoPipe
