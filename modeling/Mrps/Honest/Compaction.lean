import Mathlib
import Mrps.Honest.Bounds

/-!
# What the compaction copies over

The receive callback moves the pending bytes to the front of the array with `memcpy`, whose regions
must not overlap.  Whether they do is decided by the traffic since the previous compaction: what has
been sent since then is in front of the window, what has been received and not sent is in it.
-/

namespace Mrps.Honest

open EventSystem

/-- The source and the destination of the compaction's `memcpy` have no byte in common. -/
def EchoClient.RegionsApart (client : EchoClient) : Prop :=
  Disjoint (Set.Ico client.toSendBeg (client.toSendBeg + client.toSendSize))
      (Set.Ico 0 client.toSendSize) ∨
    client.toSendSize = 0

theorem EchoClient.regionsApart_iff (client : EchoClient) :
    client.RegionsApart ↔ client.toSendSize ≤ client.toSendBeg := by
  rw [RegionsApart, Set.Ico_disjoint_Ico]
  omega

/-- What an event adds to the log of compactions: how many bytes had been sent before it. -/
def compactions : Except Fault Connection → Event → List Nat
  | .ok conn, .wcbRecv _ _ =>
      match conn.client with
      | some client => if client.Cramped then [conn.sent.length] else []
      | none => []
  | _, _ => []

/-- The runs of one connection with the log of its compactions. -/
abbrev compactingSystem (program : Program) :
    EventSystem (Except Fault Connection × List Nat) Event :=
  (connectionSystem program).logged compactions

/-- Bytes sent before the last compaction, none before the first. -/
def sentBefore (log : List Nat) : Nat := log.getLastD 0

/-- A receive callback that compacts copies between disjoint regions. -/
def CompactionApart (state : Except Fault Connection × List Nat) (event : Event)
    (_ : Except Fault Connection × List Nat) : Prop :=
  ∀ conn client recv send, state.1 = .ok conn → event = .wcbRecv recv send →
    conn.client = some client → client.remSize < 32 → client.RegionsApart

/-- A receive callback that comes after more than `TO_SEND_SIZE - 32` bytes were received beyond
those sent before the last compaction comes when `send` has, since then, accepted at least as many
bytes as it still owes. -/
def HalfReturned (state : Except Fault Connection × List Nat) (event : Event)
    (_ : Except Fault Connection × List Nat) : Prop :=
  ∀ conn recv send, state.1 = .ok conn → event = .wcbRecv recv send →
    TO_SEND_SIZE - 32 < conn.received.length - sentBefore state.2 →
      conn.received.length - conn.sent.length ≤ conn.sent.length - sentBefore state.2

/-- The window starts behind the bytes sent since the last compaction. -/
def StartsAt (mark : Nat) (conn : Connection) : Prop :=
  ∀ client, conn.client = some client → mark + client.toSendBeg = conn.sent.length

theorem startsAt_of_live {mark : Nat} {conn : Connection} {client : EchoClient}
    (live : conn.client = some client) (starts : mark + client.toSendBeg = conn.sent.length) :
    StartsAt mark conn := by
  intro other other_live
  obtain rfl : client = other := Option.some.inj (live.symm.trans other_live)
  exact starts

theorem startsAt_of_dead {mark : Nat} {conn : Connection} (dead : conn.client = none) :
    StartsAt mark conn := by
  intro client live
  rw [dead] at live
  cases live

theorem Shows.length_received {conn : Connection} {pipe : EchoPipe Byte} {client : EchoClient}
    (shown : Shows conn pipe) (live : conn.client = some client) :
    conn.received.length = conn.sent.length + client.toSendSize := by
  have whole := congrArg List.length pipe.sent_append_pending
  rw [List.length_append, ← shown.pending client live,
    (shown.window client live).length_pending] at whole
  rw [shown.received, shown.sent]
  exact whole.symm

section Effects

variable {conn : Connection} {client : EchoClient} {mark : Nat}

theorem accepted_startsAt {count : Nat} (window : client.Window)
    (starts : mark + client.toSendBeg = conn.sent.length) (le : count ≤ client.toSendSize) :
    StartsAt mark (conn.accepted client count) := by
  apply startsAt_of_live rfl
  rw [Connection.accepted, List.length_append, List.length_take, window.length_pending, ← starts]
  simp only [EchoClient.consumed]
  omega

theorem sendEffect_startsAt {answer : SendAnswer} (live : conn.client = some client)
    (window : client.Window) (starts : mark + client.toSendBeg = conn.sent.length)
    (contract : conn.SendContract answer) : StartsAt mark (sendEffect conn client answer) := by
  rcases answer with (_ | _ | _) | sentNb
  · exact startsAt_of_live live starts
  · exact startsAt_of_dead rfl
  · exact startsAt_of_dead rfl
  · have le : sentNb ≤ client.toSendSize := by
      simpa [Connection.SendContract, live] using contract
    have accepted := accepted_startsAt window starts le
    rw [sendEffect]
    split
    · exact accepted
    · exact accepted

theorem sendBackEffect_startsAt {answer : SendAnswer} (live : conn.client = some client)
    (window : client.Window) (starts : mark + client.toSendBeg = conn.sent.length)
    (contract : conn.SendContract answer) : StartsAt mark (sendBackEffect conn client answer) := by
  rcases answer with (_ | _ | _) | sentNb
  · exact startsAt_of_live live starts
  · exact startsAt_of_dead rfl
  · exact startsAt_of_dead rfl
  · have le : sentNb ≤ client.toSendSize := by
      simpa [Connection.SendContract, live] using contract
    have accepted := accepted_startsAt window starts le
    rw [sendBackEffect]
    split
    · exact accepted
    · exact accepted

theorem recvEffect_startsAt (program : Program) {nb : RecvAnswer} {answer : SendAnswer}
    (live : conn.client = some client) (window : client.Window)
    (starts : mark + client.compacted.toSendBeg = conn.sent.length)
    (contract : conn.RecvContract nb answer) :
    StartsAt mark (recvEffect (program.doneEffect client) conn client answer nb) := by
  rcases nb with (_ | _ | _) | bytes
  · exact startsAt_of_live rfl starts
  · exact startsAt_of_dead rfl
  · exact startsAt_of_dead rfl
  · have fits := contract.fits live window
    have send_contract := contract.send live
    rw [recvEffect]
    split
    · cases program with
      | serverHonest => exact startsAt_of_dead rfl
      | threadHonest => exact startsAt_of_live rfl starts
    · have filled_starts : mark + (client.compacted.filled bytes).toSendBeg =
          (conn.filled client.compacted bytes).sent.length := starts
      exact sendBackEffect_startsAt rfl (window.compacted.filled fits) filled_starts send_contract

/-- The log names the last compaction also after one more. -/
theorem compacted_startsAt {recv : List RecvAnswer} {send : SendAnswer} {log : List Nat}
    (live : conn.client = some client)
    (starts : sentBefore log + client.toSendBeg = conn.sent.length) :
    sentBefore (log ++ compactions (.ok conn) (.wcbRecv recv send)) + client.compacted.toSendBeg =
      conn.sent.length := by
  simp only [compactions, live]
  rw [EchoClient.compacted]
  by_cases cramped : client.Cramped
  · rw [if_pos cramped, if_pos cramped]
    simp [sentBefore]
  · rw [if_neg cramped, if_neg cramped, List.append_nil]
    exact starts

theorem append_compactions {event : Event} {log : List Nat}
    (other : ∀ recv send, event ≠ .wcbRecv recv send) :
    log ++ compactions (.ok conn) event = log := by
  cases event with
  | wcbRecv recv send => exact absurd rfl (other recv send)
  | _ => exact List.append_nil log

/-- Every step of a live client keeps the window behind what was sent since the last compaction. -/
theorem Fires.startsAt {program : Program} {next : Connection} {event : Event} {log : List Nat}
    (fires : Fires program conn client event next) (live : conn.client = some client)
    (window : client.Window)
    (starts : sentBefore log + client.toSendBeg = conn.sent.length) :
    StartsAt (sentBefore (log ++ compactions (.ok conn) event)) next := by
  cases fires with
  | tick =>
      rw [append_compactions (by simp)]
      exact startsAt_of_live live starts
  | pollRecv =>
      rw [append_compactions (by simp)]
      exact startsAt_of_live live starts
  | pollSend =>
      rw [append_compactions (by simp)]
      exact startsAt_of_live live starts
  | pollTimeout =>
      rw [append_compactions (by simp)]
      exact startsAt_of_live live starts
  | wcbRecv pending returned contract =>
      exact recvEffect_startsAt program live window (compacted_startsAt live starts) contract
  | wcbSend pending contract =>
      rw [append_compactions (by simp)]
      have starts' : sentBefore log + client.toSendBeg =
          (conn.register Watchers.sendInvoked).sent.length := starts
      exact sendEffect_startsAt live window starts' contract
  | wcbTimeout => exact startsAt_of_dead rfl

end Effects

/-! ## Runs -/

/-- A fault-free connection whose window starts where the log says. -/
def Marked (state : Except Fault Connection × List Nat) : Prop :=
  ∃ conn, state.1 = .ok conn ∧ (∃ pipe, Shows conn pipe) ∧ StartsAt (sentBefore state.2) conn

theorem marked_initial (sd : Nat) (memory : Vector Byte TO_SEND_SIZE) (now : Time) :
    Marked (.ok (echoClientAdd sd memory now), []) := by
  refine ⟨_, rfl, ⟨_, Shows.initial sd memory now⟩, startsAt_of_live rfl ?_⟩
  simp [sentBefore, echoClientAdd]

theorem marked_preserved (program : Program) : (compactingSystem program).Preserves Marked := by
  rintro ⟨_, log⟩ event after ⟨conn, rfl, ⟨pipe, shown⟩, starts⟩ step
  obtain ⟨result, taken, rfl⟩ := (logged_step_iff _).mp step
  have conn_step : conn.next program event = some result := taken
  obtain ⟨next, rfl, -, later, -, shown'⟩ := next_continues shown conn_step
  refine ⟨next, rfl, ⟨later, shown'⟩, ?_⟩
  cases held : conn.client with
  | none =>
      obtain ⟨elapsed, -, same⟩ := next_of_quiet (shown.quiet held) conn_step
      obtain rfl := Except.ok.inj same
      exact startsAt_of_dead held
  | some client =>
      obtain ⟨_, same, fires⟩ := fires_of_next held (shown.window client held) conn_step
      obtain rfl := Except.ok.inj same
      exact fires.startsAt held (shown.window client held) (starts client held)

/-- For a client the two conditions speak of the same numbers. -/
theorem compactionApart_iff_halfReturned {program : Program}
    {state next : Except Fault Connection × List Nat} {event : Event} (marked : Marked state)
    (step : (compactingSystem program).step state event = some next) :
    CompactionApart state event next ↔ HalfReturned state event next := by
  obtain ⟨_, log⟩ := state
  obtain ⟨conn, rfl, ⟨pipe, shown⟩, starts⟩ := marked
  obtain ⟨result, taken, rfl⟩ := (logged_step_iff _).mp step
  have conn_step : conn.next program event = some result := taken
  have numbers : ∀ client, conn.client = some client →
      ((client.remSize < 32 → client.RegionsApart) ↔
        (TO_SEND_SIZE - 32 < conn.received.length - sentBefore log →
          conn.received.length - conn.sent.length ≤ conn.sent.length - sentBefore log)) := by
    intro client live
    have window := shown.window client live
    have inside := window.inside
    have received := shown.length_received live
    have starts_here : sentBefore log + client.toSendBeg = conn.sent.length := starts client live
    have cramped_iff : client.Cramped ↔
        TO_SEND_SIZE - 32 < conn.received.length - sentBefore log := by
      rw [EchoClient.Cramped]
      simp only [TO_SEND_SIZE] at inside ⊢
      omega
    have apart_iff : client.RegionsApart ↔
        conn.received.length - conn.sent.length ≤ conn.sent.length - sentBefore log := by
      rw [client.regionsApart_iff]
      omega
    rw [window.remSize_lt_iff, cramped_iff, apart_iff]
  constructor
  · rintro apart _ recv send ⟨⟩ rfl
    cases held : conn.client with
    | none =>
        obtain ⟨elapsed, impossible, -⟩ := next_of_quiet (shown.quiet held) conn_step
        cases impossible
    | some client => exact (numbers client held).mp (apart conn client recv send rfl rfl held)
  · rintro half _ client recv send ⟨⟩ rfl live
    exact (numbers client live).mpr (half conn recv send rfl rfl)

/-- Along every run of one connection the compaction copies between disjoint regions exactly if, at
each receive callback that finds more than `TO_SEND_SIZE - 32` bytes received beyond those sent
before the last compaction, `send` has accepted since then at least as many bytes as are still
owed. -/
theorem compaction_apart_iff (program : Program) (sd : Nat) (memory : Vector Byte TO_SEND_SIZE)
    (now : Time) (events : List Event) :
    (compactingSystem program).Along CompactionApart (.ok (echoClientAdd sd memory now), [])
        events ↔
      (compactingSystem program).Along HalfReturned (.ok (echoClientAdd sd memory now), [])
        events := by
  apply along_congr (marked_preserved program) _ (marked_initial sd memory now)
  intro state event next _ marked step
  exact compactionApart_iff_halfReturned marked step

/-! ## A read that is sent back only in part -/

/-- A new connection that received `bytes` and could send only the first `count` of them. -/
def partlySent (sd : Nat) (memory : Vector Byte TO_SEND_SIZE) (now : Time) (bytes : List Byte)
    (count : Nat) : Connection :=
  ((((polledConnection sd memory now).register Watchers.recvInvoked).filled (freshClient sd memory)
    bytes).accepted ((freshClient sd memory).filled bytes) count).register Watchers.sendStarted

theorem fires_partial_read (program : Program) (sd : Nat) (memory : Vector Byte TO_SEND_SIZE)
    (now : Time) {bytes : List Byte} {count : Nat} (fits : bytes.length ≤ TO_SEND_SIZE)
    (left : count < bytes.length) :
    Fires program (polledConnection sd memory now) (freshClient sd memory)
      (.wcbRecv [.ok bytes] (.ok count)) (partlySent sd memory now bytes count) := by
  have bytes_le : bytes.length ≤ (freshClient sd memory).asked := by rwa [freshClient_asked]
  have count_le : count ≤ (freshClient sd memory).toSendSize + bytes.length := by
    simp only [freshClient]
    omega
  have contract : ((polledConnection sd memory now).register Watchers.recvInvoked).RecvContract
      (.ok bytes) (.ok count) := ⟨bytes_le, count_le⟩
  have fires : Fires program (polledConnection sd memory now) (freshClient sd memory)
      (.wcbRecv [.ok bytes] (.ok count)) _ := .wcbRecv rfl rfl contract
  have nonempty : bytes ≠ [] := List.ne_nil_of_length_pos (by omega)
  have some_left : count < ((freshClient sd memory).filled bytes).toSendSize := by
    rw [EchoClient.filled_toSendSize]
    omega
  rwa [recvEffect, if_neg nonempty, EchoClient.compacted, if_neg (freshClient_roomy sd memory),
    sendBackEffect, if_pos some_left] at fires

/-- The array is filled by one read of which `send` takes one byte, and the descriptor is found
readable again. -/
def crowding (bytes : List Byte) : List Event :=
  [.pollRecv, .wcbRecv [.ok bytes] (.ok 1), .pollRecv]

/-- After the crowding the next receive callback moves all but one byte of the array by one. -/
theorem crowding_overlaps (program : Program) (sd : Nat) (memory : Vector Byte TO_SEND_SIZE)
    (now : Time) {bytes : List Byte} (full : bytes.length = TO_SEND_SIZE) :
    ¬ (compactingSystem program).Along CompactionApart (.ok (echoClientAdd sd memory now), [])
        (crowding bytes ++ [.wcbRecv [.error .eagain] (.error .eagain)]) := by
  let polled : Connection := (partlySent sd memory now bytes 1).register fun watchers =>
    { watchers with recv := { watchers.recv with pending := true } }
  let client : EchoClient := ((freshClient sd memory).filled bytes).consumed 1
  have left : 1 < bytes.length := by
    rw [full, TO_SEND_SIZE]
    omega
  have held_step := (fires_partial_read program sd memory now full.le left).next_eq rfl
    (freshClient_window sd memory)
  have front_run : (connectionSystem program).run (.ok (echoClientAdd sd memory now))
      (crowding bytes) = some (.ok polled) := by
    simp only [crowding, run_cons]
    exact congrArg (fun state => state.bind fun next =>
      ((connectionSystem program).step next .pollRecv).bind some) held_step
  have window : client.Window := by
    apply EchoClient.Window.consumed
    · apply (freshClient_window sd memory).filled
      simp [freshClient, full]
    · rw [EchoClient.filled_toSendSize]
      omega
  have beg_eq : client.toSendBeg = 1 := rfl
  have size_eq : client.toSendSize = TO_SEND_SIZE - 1 := by
    change 0 + bytes.length - 1 = _
    omega
  have cramped : client.Cramped := by
    rw [EchoClient.Cramped, beg_eq, size_eq, TO_SEND_SIZE]
    omega
  have polled_live : polled.client = some client := rfl
  have fires : Fires program polled client (.wcbRecv [.error .eagain] (.error .eagain)) _ :=
    .wcbRecv rfl rfl trivial
  obtain ⟨after, step⟩ : ∃ after, (connectionSystem program).step (.ok polled)
      (.wcbRecv [.error .eagain] (.error .eagain)) = some after :=
    ⟨_, fires.next_eq polled_live window⟩
  obtain ⟨⟨state, log⟩, logged_front, rfl⟩ := Option.map_eq_some_iff.mp
    ((logged_run _ compactions _ [] (crowding bytes)).trans front_run)
  obtain ⟨both, logged_step⟩ : ∃ both, (compactingSystem program).step (.ok polled, log)
      (.wcbRecv [.error .eagain] (.error .eagain)) = some both :=
    ⟨_, (logged_step_iff _).mpr ⟨after, step, rfl⟩⟩
  intro along
  have apart := along_iff.mp along (crowding bytes) _ [] _ _ rfl logged_front logged_step
    polled client
    _ _ rfl rfl polled_live (window.remSize_lt_iff.mpr cramped)
  rw [client.regionsApart_iff, beg_eq, size_eq, TO_SEND_SIZE] at apart
  omega

/-- In both programs a full array of which one byte was sent is moved onto itself. -/
theorem compaction_overlaps :
    (¬ (compactingSystem .serverHonest).Along CompactionApart
        (.ok (echoClientAdd 5 (Vector.replicate TO_SEND_SIZE 0) 0), [])
        (crowding (List.replicate TO_SEND_SIZE 97) ++
          [.wcbRecv [.error .eagain] (.error .eagain)])) ∧
      ¬ (compactingSystem .threadHonest).Along CompactionApart
        (.ok (echoClientAdd 5 (Vector.replicate TO_SEND_SIZE 0) 0), [])
        (crowding (List.replicate TO_SEND_SIZE 97) ++
          [.wcbRecv [.error .eagain] (.error .eagain)]) :=
  ⟨crowding_overlaps .serverHonest 5 _ 0 List.length_replicate,
    crowding_overlaps .threadHonest 5 _ 0 List.length_replicate⟩

end Mrps.Honest
