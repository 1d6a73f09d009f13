import Mrps.Honest.Stream

/-!
# The window arithmetic never wraps

The callbacks mix pointer differences, a signed `rem_size` and an unsigned `to_send_size`.  Along
every run they compute what the same expressions are over the integers, and the region handed to
`recv` ends with the array.
-/

namespace Mrps.Honest

open EventSystem

namespace EchoClient

/-- The free tail has at least 32 bytes, over the integers. -/
def Spacious (client : EchoClient) : Prop :=
  32 ≤ (TO_SEND_SIZE : Int) - (client.toSendBeg + client.toSendSize)

instance (client : EchoClient) : Decidable client.Spacious := by
  rw [Spacious]
  infer_instance

/-- The offset `to_send_beg` with which `echo_client_wcb_recv` calls `recv`. -/
def recvBeg (client : EchoClient) : Nat :=
  if client.Spacious then client.toSendBeg else 0

/-- The value of `rem_size` with which `echo_client_wcb_recv` calls `recv`, over the integers. -/
def recvRoom (client : EchoClient) : Int :=
  if client.Spacious then TO_SEND_SIZE - (client.toSendBeg + client.toSendSize)
  else TO_SEND_SIZE - client.toSendSize

/-- The pending region lies in the array and the head of `echo_client_wcb_recv` computes exactly:
its first `rem_size`, the one it leaves, and the region it hands to `recv`. -/
structure ExactRoom (client : EchoClient) : Prop where
  inside : client.toSendBeg + client.toSendSize ≤ TO_SEND_SIZE
  first : client.remSize = TO_SEND_SIZE - (client.toSendBeg + client.toSendSize)
  left : ∃ held, client.makeRoom = .ok (held, client.recvRoom) ∧
    held.toSendBeg = client.recvBeg ∧ held.toSendSize = client.toSendSize
  region : client.recvBeg + client.toSendSize + client.asked = TO_SEND_SIZE
  wide : (client.toSendSize : Int) ≤ TO_SEND_SIZE - 32 → 32 ≤ client.recvRoom

namespace Window

variable {client : EchoClient} (window : client.Window)
include window

theorem spacious_iff : client.Spacious ↔ ¬ client.Cramped := by
  have inside := window.inside
  rw [Spacious, Cramped]
  omega

theorem compacted_toSendBeg : client.compacted.toSendBeg = client.recvBeg := by
  rw [EchoClient.compacted, recvBeg]
  by_cases cramped : client.Cramped
  · rw [if_pos cramped, if_neg fun spacious => window.spacious_iff.mp spacious cramped]
  · rw [if_neg cramped, if_pos (window.spacious_iff.mpr cramped)]

theorem room_eq_recvRoom : (client.room : Int) = client.recvRoom := by
  have inside := window.inside
  rw [room, recvRoom]
  by_cases cramped : client.Cramped
  · rw [if_pos cramped, if_neg fun spacious => window.spacious_iff.mp spacious cramped]
    omega
  · rw [if_neg cramped, if_pos (window.spacious_iff.mpr cramped)]
    omega

theorem exactRoom : client.ExactRoom := by
  have inside := window.inside
  refine ⟨inside, ?_, ?_, ?_, ?_⟩
  · rw [window.remSize_eq]
    omega
  · refine ⟨client.compacted, ?_, window.compacted_toSendBeg, client.compacted_toSendSize⟩
    rw [← window.room_eq_recvRoom]
    exact window.makeRoom_eq
  · rw [← window.compacted_toSendBeg, window.asked_eq]
    exact window.compacted_end
  · intro wide
    rw [recvRoom]
    split
    · assumption
    · omega

end Window

end EchoClient

/-- `left` is what a `send` that took `sentNb` of `size` bytes at offset `beg` leaves, with both
fields as over the integers. -/
def EchoClient.SentExactly (left : EchoClient) (beg size sentNb : Nat) : Prop :=
  (left.toSendSize : Int) = size - sentNb ∧
    left.toSendBeg = beg + sentNb ∧ left.toSendBeg ≤ TO_SEND_SIZE

/-- A successful `send` of either callback moves the window exactly. -/
def SendExact (state : Except Fault Connection) (event : Event)
    (next : Except Fault Connection) : Prop :=
  ∀ conn client, state = .ok conn → conn.client = some client →
    (∀ sentNb, event = .wcbSend (.ok sentNb) →
      ∃ after left, next = .ok after ∧ after.client = some left ∧
        left.SentExactly client.toSendBeg client.toSendSize sentNb) ∧
      ∀ recv bytes sentNb, event = .wcbRecv recv (.ok sentNb) →
        auxUnixRecv recv = some (.ok bytes) → bytes ≠ [] →
          client.recvBeg + client.toSendSize + bytes.length ≤ TO_SEND_SIZE ∧
            ∃ after left, next = .ok after ∧ after.client = some left ∧
              left.SentExactly client.recvBeg (client.toSendSize + bytes.length) sentNb

section Effects

variable {conn : Connection} {client : EchoClient}

theorem consumed_sentExactly {sentNb : Nat} (window : client.Window)
    (le : sentNb ≤ client.toSendSize) :
    (client.consumed sentNb).SentExactly client.toSendBeg client.toSendSize sentNb := by
  have inside := window.inside
  refine ⟨?_, rfl, ?_⟩
  · rw [EchoClient.consumed_toSendSize]
    omega
  · simp only [EchoClient.consumed]
    omega

theorem Fires.sendExact {program : Program} {next : Connection} {event : Event}
    (fires : Fires program conn client event next) (live : conn.client = some client)
    (window : client.Window) : SendExact (.ok conn) event (.ok next) := by
  rintro _ held ⟨⟩ held_live
  obtain rfl : client = held := Option.some.inj (live.symm.trans held_live)
  constructor
  · rintro sentNb rfl
    cases fires with
    | wcbSend pending contract =>
        have le : sentNb ≤ client.toSendSize := by
          simpa [Connection.SendContract, Connection.register, live] using contract
        exact ⟨_, _, rfl, sendEffect_client, consumed_sentExactly window le⟩
  · rintro recv bytes sentNb rfl delivered nonempty
    cases fires with
    | wcbRecv pending returned contract =>
        obtain rfl := Option.some.inj (delivered.symm.trans returned)
        obtain ⟨bytes_le, send_le⟩ := by
          simpa only [Connection.RecvContract, Connection.register, live] using contract
        rw [window.asked_eq] at bytes_le
        have ends := window.compacted_end
        have fits : client.compacted.toSendBeg + client.compacted.toSendSize + bytes.length ≤
            TO_SEND_SIZE := by
          rw [EchoClient.compacted_toSendSize]
          omega
        have filled := window.compacted.filled fits
        have exact_send := consumed_sentExactly filled
          (by simpa [EchoClient.filled] using send_le)
        rw [EchoClient.filled_toSendBeg, EchoClient.filled_toSendSize,
          EchoClient.compacted_toSendSize, window.compacted_toSendBeg] at exact_send
        rw [window.compacted_toSendBeg, EchoClient.compacted_toSendSize] at fits
        refine ⟨fits, _, _, rfl, ?_, exact_send⟩
        rw [recvEffect, if_neg nonempty]
        exact sendBackEffect_client

end Effects

/-- A state without a fault that shows some pipe. -/
def Sane : Except Fault Connection → Prop
  | .ok conn => ∃ pipe, Shows conn pipe
  | .error _ => False

theorem sane_initial (sd : Nat) (memory : Vector Byte TO_SEND_SIZE) (now : Time) :
    Sane (.ok (echoClientAdd sd memory now)) :=
  ⟨_, Shows.initial sd memory now⟩

theorem sane_preserved (program : Program) : (connectionSystem program).Preserves Sane := by
  intro state event next sane step
  cases state with
  | error fault => exact sane.elim
  | ok conn =>
      obtain ⟨pipe, shown⟩ := sane
      obtain ⟨after, rfl, -, later, -, shown'⟩ := next_continues shown step
      exact ⟨later, shown'⟩

theorem Sane.sendExact {program : Program} {state next : Except Fault Connection} {event : Event}
    (sane : Sane state) (step : (connectionSystem program).step state event = some next) :
    SendExact state event next := by
  cases state with
  | error fault => exact sane.elim
  | ok conn =>
      obtain ⟨pipe, shown⟩ := sane
      rintro _ client ⟨⟩ live
      have window := shown.window client live
      obtain ⟨after, rfl, fires⟩ := fires_of_next live window step
      exact fires.sendExact live window conn client rfl live

/-- In every state of a live connection the pending region lies in the array and the head of
`echo_client_wcb_recv` computes exactly, and along every run each successful `send` moves the window
exactly. -/
theorem window_arithmetic_exact (program : Program) (sd : Nat) (memory : Vector Byte TO_SEND_SIZE)
    (now : Time) (events : List Event) :
    (∀ final, (connectionSystem program).run (.ok (echoClientAdd sd memory now)) events =
        some final →
      ∃ conn, final = .ok conn ∧ ∀ client, conn.client = some client → client.ExactRoom) ∧
      (connectionSystem program).Along SendExact (.ok (echoClientAdd sd memory now)) events := by
  have start := sane_initial sd memory now
  constructor
  · intro final execution
    have sane := (sane_preserved program).run start execution
    cases final with
    | error fault => exact sane.elim
    | ok conn =>
        obtain ⟨pipe, shown⟩ := sane
        exact ⟨conn, rfl, fun client live => (shown.window client live).exactRoom⟩
  · apply (sane_preserved program).along _ start
    intro state event next sane step
    exact sane.sendExact step

end Mrps.Honest
