import Mrps.Honest.Client

/-!
# The sliding window of the buffered clients

The pending bytes are the region `[toSendBeg, toSendBeg + toSendSize)` of `to_send`.  While that
region lies inside the array every machine conversion of the callbacks is exact and every access is
inside the array, so each callback equals an update of the window followed by calls to libev.
-/

namespace Mrps.Honest

open MachineInt Region

namespace EchoClient

/-- The bytes waiting to be sent. -/
def pending (client : EchoClient) : List Byte :=
  slice client.toSend client.toSendBeg client.toSendSize

/-- The pending region lies inside the array. -/
structure Window (client : EchoClient) : Prop where
  capacity : client.toSend.length = TO_SEND_SIZE
  inside : client.toSendBeg + client.toSendSize ≤ TO_SEND_SIZE

/-- The free tail is too short to receive into. -/
def Cramped (client : EchoClient) : Prop :=
  TO_SEND_SIZE - (client.toSendBeg + client.toSendSize) < 32

instance (client : EchoClient) : Decidable client.Cramped := by
  rw [Cramped]
  infer_instance

/-- The client after the compaction at the head of `echo_client_wcb_recv`. -/
def compacted (client : EchoClient) : EchoClient :=
  if client.Cramped then
    { client with toSend := overwrite client.toSend 0 client.pending, toSendBeg := 0 }
  else
    client

/-- The number of bytes that fit behind the pending ones after the compaction. -/
def room (client : EchoClient) : Nat :=
  if client.Cramped then TO_SEND_SIZE - client.toSendSize
  else TO_SEND_SIZE - (client.toSendBeg + client.toSendSize)

/-- The client after received bytes were appended to its window. -/
def filled (client : EchoClient) (bytes : List Byte) : EchoClient :=
  { client with
    toSend := overwrite client.toSend (client.toSendBeg + client.toSendSize) bytes
    toSendSize := client.toSendSize + bytes.length }

/-- The client after `count` bytes were consumed from the front of its window. -/
def consumed (client : EchoClient) (count : Nat) : EchoClient :=
  { client with
    toSendBeg := client.toSendBeg + count
    toSendSize := client.toSendSize - count }

@[simp] theorem compacted_fd (client : EchoClient) : client.compacted.fd = client.fd := by
  rw [compacted]
  split <;> rfl

@[simp] theorem compacted_toSendSize (client : EchoClient) :
    client.compacted.toSendSize = client.toSendSize := by
  rw [compacted]
  split <;> rfl

@[simp] theorem filled_fd (client : EchoClient) (bytes : List Byte) :
    (client.filled bytes).fd = client.fd := rfl

@[simp] theorem filled_toSendSize (client : EchoClient) (bytes : List Byte) :
    (client.filled bytes).toSendSize = client.toSendSize + bytes.length := rfl

@[simp] theorem filled_toSendBeg (client : EchoClient) (bytes : List Byte) :
    (client.filled bytes).toSendBeg = client.toSendBeg := rfl

@[simp] theorem consumed_fd (client : EchoClient) (count : Nat) :
    (client.consumed count).fd = client.fd := rfl

@[simp] theorem consumed_toSendSize (client : EchoClient) (count : Nat) :
    (client.consumed count).toSendSize = client.toSendSize - count := rfl

namespace Window

variable {client : EchoClient}

theorem length_pending (window : client.Window) :
    client.pending.length = client.toSendSize :=
  length_slice (by rw [window.capacity]; exact window.inside)

theorem remSize_eq (window : client.Window) :
    client.remSize = ((TO_SEND_SIZE - (client.toSendBeg + client.toSendSize) : Nat) : Int) := by
  have inside := window.inside
  simp only [TO_SEND_SIZE] at inside
  rw [remSize, toInt, toSigned_eq] <;> simp only [TO_SEND_SIZE] <;> omega

theorem remSize_lt_iff (window : client.Window) : client.remSize < 32 ↔ client.Cramped := by
  rw [window.remSize_eq, Cramped]
  omega

theorem compacted_eq_of_cramped (cramped : client.Cramped) :
    client.compacted =
      { client with toSend := overwrite client.toSend 0 client.pending, toSendBeg := 0 } :=
  if_pos cramped

theorem read_pending (window : client.Window) :
    client.read client.toSendBeg client.toSendSize = .ok client.pending :=
  if_pos (by rw [window.capacity]; exact window.inside)

theorem makeRoom_eq (window : client.Window) :
    client.makeRoom = .ok (client.compacted, (client.room : Int)) := by
  have inside := window.inside
  rw [makeRoom, room]
  by_cases cramped : client.Cramped
  · have fits : 0 + client.pending.length ≤ client.toSend.length := by
      rw [window.length_pending, window.capacity]
      omega
    have written : client.write 0 client.pending =
        .ok { client with toSend := overwrite client.toSend 0 client.pending } := if_pos fits
    have tail : toInt (toSizeT (TO_SEND_SIZE - client.toSendSize)) =
        ((TO_SEND_SIZE - client.toSendSize : Nat) : Int) := by
      simp only [TO_SEND_SIZE] at inside ⊢
      have natural : toSizeT (((4096 * 4 : Nat) : Int) - client.toSendSize) =
          4096 * 4 - client.toSendSize := toUnsigned_eq (by omega) (by omega)
      rw [natural, toInt, toSigned_eq (by omega) (by omega)]
    rw [if_pos (window.remSize_lt_iff.mpr cramped), if_pos cramped, compacted_eq_of_cramped cramped]
    simp [memcpy, window.read_pending, written, tail, bind, Except.bind, pure, Except.pure]
  · rw [if_neg (mt window.remSize_lt_iff.mp cramped), if_neg cramped, window.remSize_eq, compacted,
      if_neg cramped]
    rfl

theorem asked_eq (window : client.Window) : client.asked = client.room := by
  have room_le : client.room ≤ TO_SEND_SIZE := by
    rw [room]
    split <;> omega
  rw [asked, window.makeRoom_eq]
  exact toUnsigned_eq rfl (by simp only [TO_SEND_SIZE] at room_le; omega)

theorem compacted (window : client.Window) : client.compacted.Window := by
  have inside := window.inside
  rw [EchoClient.compacted]
  split
  · refine ⟨?_, by simp only; omega⟩
    have fits : 0 + client.pending.length ≤ client.toSend.length := by
      rw [window.length_pending, window.capacity]
      omega
    exact (length_overwrite fits).trans window.capacity
  · exact window

theorem compacted_pending (window : client.Window) :
    client.compacted.pending = client.pending := by
  rw [EchoClient.compacted]
  split
  · exact slice_overwrite_zero (by rw [window.capacity]; exact window.inside)
  · rfl

theorem compacted_end (window : client.Window) :
    client.compacted.toSendBeg + client.toSendSize + client.room = TO_SEND_SIZE := by
  have inside := window.inside
  rw [EchoClient.compacted, room]
  split
  · simp only
    omega
  · omega

theorem write_eq (window : client.Window) {bytes : List Byte}
    (fits : client.toSendBeg + client.toSendSize + bytes.length ≤ TO_SEND_SIZE) :
    client.write (client.toSendBeg + client.toSendSize) bytes =
      .ok { client with
        toSend := overwrite client.toSend (client.toSendBeg + client.toSendSize) bytes } :=
  if_pos (by rw [window.capacity]; exact fits)

theorem filled (window : client.Window) {bytes : List Byte}
    (fits : client.toSendBeg + client.toSendSize + bytes.length ≤ TO_SEND_SIZE) :
    (client.filled bytes).Window := by
  refine ⟨?_, ?_⟩
  · exact (length_overwrite (by rw [window.capacity]; exact fits)).trans window.capacity
  · simp only [EchoClient.filled]
    omega

theorem filled_pending (window : client.Window) (bytes : List Byte) :
    (client.filled bytes).pending = client.pending ++ bytes :=
  slice_overwrite_append (by rw [window.capacity]; exact window.inside)

theorem consumed (window : client.Window) {count : Nat} (le : count ≤ client.toSendSize) :
    (client.consumed count).Window := by
  have inside := window.inside
  refine ⟨window.capacity, ?_⟩
  simp only [EchoClient.consumed]
  omega

end Window

theorem consumed_pending (client : EchoClient) (count : Nat) :
    (client.consumed count).pending = client.pending.drop count :=
  drop_slice.symm

end EchoClient

end Mrps.Honest
