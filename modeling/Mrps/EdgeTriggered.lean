import Mrps.Runtime

/-!
# Edge-triggered readiness

The receiving side of a stream socket whose events are edge-triggered: an arrival makes an event
pending, collecting the event consumes it, and nothing reports again what was there before.  Input
is overlooked when it is queued and no event will speak of it.
-/

namespace Mrps

/-- The receiving side of a socket registered for edge-triggered events. -/
structure EdgeTriggered where
  /-- Bytes that arrived and were not read yet. -/
  queue : List Byte
  /-- The end of the stream arrived. -/
  ended : Bool
  /-- An error to be reported once the queue is empty. -/
  failure : Option Errno
  /-- An event waits to be collected. -/
  pending : Bool
  deriving DecidableEq, Repr

namespace EdgeTriggered

/-- `EPOLL_CTL_ADD`: what is already there counts as an arrival. -/
def register (queue : List Byte) (ended : Bool) : EdgeTriggered :=
  { queue, ended, failure := none, pending := !queue.isEmpty || ended }

/-- Bytes arrive. -/
def arrive (bytes : List Byte) (socket : EdgeTriggered) : EdgeTriggered :=
  { socket with queue := socket.queue ++ bytes, pending := true }

/-- The end of the stream arrives. -/
def finish (socket : EdgeTriggered) : EdgeTriggered :=
  { socket with ended := true, pending := true }

/-- The connection fails. -/
def fail (errno : Errno) (socket : EdgeTriggered) : EdgeTriggered :=
  { socket with ended := true, failure := some errno, pending := true }

/-- `epoll_wait` hands the event out. -/
def collect (socket : EdgeTriggered) : EdgeTriggered := { socket with pending := false }

/-- The answer of a non-blocking `read` of at most `count` bytes. -/
def readAnswer (count : Nat) (socket : EdgeTriggered) : RecvAnswer :=
  if socket.queue ≠ [] then .ok (socket.queue.take count)
  else if let some errno := socket.failure then .error errno
  else if socket.ended then .ok []
  else .error .eagain

/-- What that `read` leaves; a reported failure is gone. -/
def afterRead (count : Nat) (socket : EdgeTriggered) : EdgeTriggered :=
  { socket with
    queue := socket.queue.drop count
    failure := if socket.queue = [] then none else socket.failure }

/-- Bytes are queued and no event is pending. -/
def Overlooked (socket : EdgeTriggered) : Prop := socket.queue ≠ [] ∧ socket.pending = false

instance (socket : EdgeTriggered) : Decidable socket.Overlooked :=
  inferInstanceAs (Decidable (_ ∧ _))

variable {socket : EdgeTriggered}

theorem not_overlooked_iff :
    ¬ socket.Overlooked ↔ socket.queue = [] ∨ socket.pending = true := by
  rw [Overlooked, not_and_or, not_not, Bool.not_eq_false]

theorem not_overlooked_register (queue : List Byte) (ended : Bool) :
    ¬ (register queue ended).Overlooked := by
  rintro ⟨queued, quiet⟩
  cases queue with
  | nil => exact queued rfl
  | cons byte queue => simp [register] at quiet

/-- A read overlooks input exactly when more was queued than it takes and nothing arrived since
the event was collected. -/
theorem overlooked_afterRead (count : Nat) :
    (socket.afterRead count).Overlooked ↔ count < socket.queue.length ∧ socket.pending = false := by
  simp [Overlooked, afterRead]

theorem readAnswer_ok {count : Nat} {bytes : List Byte}
    (answered : socket.readAnswer count = .ok bytes) : bytes = socket.queue.take count := by
  rcases socket with ⟨_ | ⟨byte, queue⟩, ended, _ | errno, pending⟩
  · cases ended with
    | false => simp [readAnswer] at answered
    | true => simpa [readAnswer, eq_comm] using answered
  · simp [readAnswer] at answered
  · simpa [readAnswer, eq_comm] using answered
  · simpa [readAnswer, eq_comm] using answered

theorem queue_eq_nil_of_readAnswer {count : Nat} (asks : 0 < count)
    (answered : socket.readAnswer count = .ok []) : socket.queue = [] := by
  have taken := readAnswer_ok answered
  rcases List.take_eq_nil_iff.mp taken.symm with nothing | empty
  · omega
  · exact empty

end EdgeTriggered

end Mrps
