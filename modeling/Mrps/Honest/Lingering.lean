import Mrps.Honest.Armed
import Mrps.Honest.EndOfStream

/-!
# End of stream in the threaded server

In `thread-honest.c` the branch `0 == nb` leaves the client as it is.  A client whose peer has
finished and which owes nothing then stays registered for reading, and its receive callback runs
again and again without changing anything.
-/

namespace Mrps.Honest

open EventSystem

/-- A `recv` that asks for at least one byte returns 0. -/
def Event.EndsStream (client : EchoClient) (event : Event) : Prop :=
  event.returned = some (.ok []) ∧ 1 ≤ client.asked

instance (client : EchoClient) (event : Event) : Decidable (event.EndsStream client) := by
  rw [Event.EndsStream]
  infer_instance

/-- The `send` of the callback takes all that the client has to send. -/
def Event.TakesAll (client : EchoClient) : Event → Prop
  | .wcbSend (.ok sentNb) => sentNb = client.toSendSize
  | .wcbRecv recv (.ok sentNb) =>
      ∃ bytes, auxUnixRecv recv = some (.ok bytes) ∧ bytes ≠ [] ∧
        sentNb = client.toSendSize + bytes.length
  | _ => False

/-- What an event adds to the log of ends of stream: how many bytes were pending. -/
def streamEnds : Except Fault Connection → Event → List Nat
  | .ok conn, event =>
      match conn.client with
      | some client => if event.EndsStream client then [client.toSendSize] else []
      | none => []
  | .error _, _ => []

theorem streamEnds_eq {conn : Connection} {client : EchoClient} {event : Event}
    (live : conn.client = some client) (ends : event.EndsStream client) :
    streamEnds (.ok conn) event = [client.toSendSize] := by
  simp [streamEnds, live, ends]

/-- The runs of one connection with the log of its ends of stream. -/
abbrev endingSystem (program : Program) :
    EventSystem (Except Fault Connection × List Nat) Event :=
  (connectionSystem program).logged streamEnds

/-- The stream has ended, nothing is pending, and the client is still registered for reading. -/
def Lingers (state : Except Fault Connection × List Nat) : Prop :=
  ∃ conn client, state.1 = .ok conn ∧ state.2 ≠ [] ∧ conn.client = some client ∧
    client.toSendSize = 0 ∧ conn.watchers.recv.active = true

/-- The step does not lead to a lingering client. -/
def LeavesNone (_ : Except Fault Connection × List Nat) (_ : Event)
    (next : Except Fault Connection × List Nat) : Prop :=
  ¬ Lingers next

/-- The stream ends only while bytes are pending, and once it has ended no `send` takes all of
them. -/
def KeepsOwing (state : Except Fault Connection × List Nat) (event : Event)
    (_ : Except Fault Connection × List Nat) : Prop :=
  ∀ conn client, state.1 = .ok conn → conn.client = some client →
    (event.EndsStream client → client.toSendSize ≠ 0) ∧
      (state.2 ≠ [] → ¬ event.TakesAll client)

section Effects

variable {conn : Connection} {client : EchoClient}

/-- The connection has a client with nothing pending. -/
def Emptied (conn : Connection) : Prop :=
  ∃ client, conn.client = some client ∧ client.toSendSize = 0

theorem emptied_iff_of_live (live : conn.client = some client) :
    Emptied conn ↔ client.toSendSize = 0 := by
  constructor
  · rintro ⟨other, other_live, empty⟩
    obtain rfl := Option.some.inj (live.symm.trans other_live)
    exact empty
  · intro empty
    exact ⟨client, live, empty⟩

theorem not_emptied_of_dead (dead : conn.client = none) : ¬ Emptied conn := by
  rintro ⟨client, live, -⟩
  rw [dead] at live
  cases live

theorem consumed_empty_iff {sentNb : Nat} (le : sentNb ≤ client.toSendSize) :
    (client.consumed sentNb).toSendSize = 0 ↔ sentNb = client.toSendSize := by
  rw [EchoClient.consumed_toSendSize]
  omega

theorem sendEffect_emptied_iff {answer : SendAnswer} (live : conn.client = some client)
    (owing : client.toSendSize ≠ 0) (contract : conn.SendContract answer) :
    Emptied (sendEffect conn client answer) ↔ Event.TakesAll client (.wcbSend answer) := by
  rcases answer with (_ | _ | _) | sentNb
  · exact iff_of_false (fun empty => owing ((emptied_iff_of_live live).mp empty)) id
  · exact iff_of_false (not_emptied_of_dead rfl) id
  · exact iff_of_false (not_emptied_of_dead rfl) id
  · have le : sentNb ≤ client.toSendSize := by
      simpa [Connection.SendContract, live] using contract
    rw [emptied_iff_of_live sendEffect_client]
    exact consumed_empty_iff le

theorem sendBackEffect_emptied_iff {answer : SendAnswer} (live : conn.client = some client)
    (owing : client.toSendSize ≠ 0) (contract : conn.SendContract answer) :
    Emptied (sendBackEffect conn client answer) ↔ answer = .ok client.toSendSize := by
  rcases answer with (_ | _ | _) | sentNb
  · have live' : (conn.register Watchers.sendStarted).client = some client := live
    refine iff_of_false (fun empty => owing ((emptied_iff_of_live live').mp empty)) ?_
    simp
  · exact iff_of_false (not_emptied_of_dead rfl) (by simp)
  · exact iff_of_false (not_emptied_of_dead rfl) (by simp)
  · have le : sentNb ≤ client.toSendSize := by
      simpa [Connection.SendContract, live] using contract
    rw [emptied_iff_of_live sendBackEffect_client, consumed_empty_iff le]
    simp

theorem recvEffect_emptied_iff {recv : List RecvAnswer} {nb : RecvAnswer} {answer : SendAnswer}
    (live : conn.client = some client) (owing : client.toSendSize ≠ 0)
    (returned : auxUnixRecv recv = some nb) (contract : conn.RecvContract nb answer) :
    Emptied (recvEffect (Program.threadHonest.doneEffect client) conn client answer nb) ↔
      Event.TakesAll client (.wcbRecv recv answer) := by
  have size : client.compacted.toSendSize ≠ 0 := by rwa [EchoClient.compacted_toSendSize]
  have kept : ∀ after : Connection, after.client = some client.compacted → ¬ Emptied after :=
    fun after after_live empty => size ((emptied_iff_of_live after_live).mp empty)
  have takes_iff : Event.TakesAll client (.wcbRecv recv answer) ↔
      ∃ bytes, nb = .ok bytes ∧ bytes ≠ [] ∧
        answer = .ok (client.toSendSize + bytes.length) := by
    rcases answer with errno | sentNb
    · simp [Event.TakesAll]
    · simp [Event.TakesAll, returned]
  rw [takes_iff]
  rcases nb with (_ | _ | _) | bytes
  · exact iff_of_false (kept _ rfl) (by simp)
  · exact iff_of_false (not_emptied_of_dead rfl) (by simp)
  · exact iff_of_false (not_emptied_of_dead rfl) (by simp)
  · have send_contract := contract.send live
    rw [recvEffect]
    by_cases empty : bytes = []
    · rw [if_pos empty]
      exact iff_of_false (kept _ rfl) (by simp [empty])
    · have still_owing : (client.compacted.filled bytes).toSendSize ≠ 0 := by
        rw [EchoClient.filled_toSendSize]
        omega
      rw [if_neg empty, sendBackEffect_emptied_iff rfl still_owing send_contract,
        EchoClient.filled_toSendSize, EchoClient.compacted_toSendSize]
      simp [empty]

theorem Fires.emptied_iff {next : Connection} {event : Event}
    (fires : Fires .threadHonest conn client event next) (live : conn.client = some client)
    (owing : client.toSendSize ≠ 0) : Emptied next ↔ event.TakesAll client := by
  have kept : ∀ after : Connection, after.client = some client → ¬ Emptied after :=
    fun after after_live empty => owing ((emptied_iff_of_live after_live).mp empty)
  cases fires with
  | tick => exact iff_of_false (kept _ live) id
  | pollRecv => exact iff_of_false (kept _ live) id
  | pollSend => exact iff_of_false (kept _ live) id
  | pollTimeout => exact iff_of_false (kept _ live) id
  | wcbRecv pending returned contract =>
      have live' : (conn.register Watchers.recvInvoked).client = some client := live
      exact recvEffect_emptied_iff live' owing returned contract
  | wcbSend pending contract =>
      have live' : (conn.register Watchers.sendInvoked).client = some client := live
      exact sendEffect_emptied_iff live' owing contract
  | wcbTimeout => exact iff_of_false (not_emptied_of_dead rfl) id

theorem Fires.ends_emptied_iff {next : Connection} {event : Event}
    (fires : Fires .threadHonest conn client event next) (ends : event.EndsStream client) :
    Emptied next ↔ client.toSendSize = 0 := by
  obtain ⟨zero, -⟩ := ends
  cases fires with
  | wcbRecv pending returned contract =>
      obtain rfl := Option.some.inj (returned.symm.trans zero)
      rw [recvEffect, if_pos rfl]
      exact (emptied_iff_of_live rfl).trans (by rw [EchoClient.compacted_toSendSize])
  | tick => simp [Event.returned] at zero
  | pollRecv => simp [Event.returned] at zero
  | pollSend => simp [Event.returned] at zero
  | pollTimeout => simp [Event.returned] at zero
  | wcbSend => simp [Event.returned] at zero
  | wcbTimeout => simp [Event.returned] at zero

end Effects

/-! ## Runs -/

/-- A sound connection that, once its stream has ended, is deleted or owes bytes. -/
def OwingAfterEnd (state : Except Fault Connection × List Nat) : Prop :=
  ∃ conn, state.1 = .ok conn ∧ WellArmed (.ok conn) ∧ (state.2 ≠ [] → ¬ Emptied conn)

theorem owingAfterEnd_initial (sd : Nat) (memory : Vector Byte TO_SEND_SIZE) (now : Time) :
    OwingAfterEnd (.ok (echoClientAdd sd memory now), []) := by
  refine ⟨_, rfl, ⟨⟨_, Shows.initial sd memory now⟩, ?_⟩, fun ended => absurd rfl ended⟩
  apply armed_of_live rfl
  exact ⟨rfl, rfl, fun left => absurd left (Nat.lt_irrefl 0),
    fun pending => absurd pending (by simp [echoClientAdd, IoWatcher.init])⟩

theorem lingers_iff {conn : Connection} {log : List Nat} (armed : Armed conn) :
    Lingers (.ok conn, log) ↔ log ≠ [] ∧ Emptied conn := by
  constructor
  · rintro ⟨_, client, ⟨⟩, ended, live, empty, -⟩
    exact ⟨ended, client, live, empty⟩
  · rintro ⟨ended, client, live, empty⟩
    exact ⟨conn, client, rfl, ended, live, empty, (armed client live).recv⟩

theorem OwingAfterEnd.next {state next : Except Fault Connection × List Nat} {event : Event}
    (owing : OwingAfterEnd state)
    (step : (endingSystem .threadHonest).step state event = some next) :
    (LeavesNone state event next ↔ KeepsOwing state event next) ∧
      (LeavesNone state event next → OwingAfterEnd next) := by
  obtain ⟨_, log⟩ := state
  obtain ⟨conn, rfl, ⟨⟨pipe, shown⟩, armed⟩, owed⟩ := owing
  obtain ⟨result, taken, rfl⟩ := (logged_step_iff _).mp step
  have conn_step : conn.next .threadHonest event = some result := taken
  obtain ⟨after, rfl, -, later, -, shown'⟩ := next_continues shown conn_step
  cases held : conn.client with
  | none =>
      obtain ⟨elapsed, rfl, same⟩ := next_of_quiet (shown.quiet held) conn_step
      obtain rfl := Except.ok.inj same
      have nobody : ¬ Emptied { conn with clock := conn.clock + elapsed } :=
        not_emptied_of_dead held
      have armed' : Armed { conn with clock := conn.clock + elapsed } := armed_of_dead held
      have none_left : ¬ Lingers
          (.ok { conn with clock := conn.clock + elapsed },
            log ++ streamEnds (.ok conn) (.tick elapsed)) :=
        fun lingers => nobody ((lingers_iff armed').mp lingers).2
      refine ⟨iff_of_true none_left ?_, fun _ => ⟨_, rfl, ⟨⟨later, shown'⟩, armed'⟩,
        fun _ => nobody⟩⟩
      rintro _ client ⟨⟩ live
      rw [held] at live
      cases live
  | some client =>
      obtain ⟨_, same, fires⟩ := fires_of_next held (shown.window client held) conn_step
      obtain rfl := Except.ok.inj same
      have armed' := fires.armed held (armed client held)
      have leaves_iff : LeavesNone (.ok conn, log) event
          (.ok after, log ++ streamEnds (.ok conn) event) ↔
            (log ++ streamEnds (.ok conn) event ≠ [] → ¬ Emptied after) := by
        rw [LeavesNone, lingers_iff armed']
        exact not_and
      have keeps_iff : KeepsOwing (.ok conn, log) event
          (.ok after, log ++ streamEnds (.ok conn) event) ↔
            (event.EndsStream client → client.toSendSize ≠ 0) ∧
              (log ≠ [] → ¬ event.TakesAll client) := by
        constructor
        · intro keeps
          exact keeps conn client rfl held
        · rintro both _ other ⟨⟩ other_live
          obtain rfl := Option.some.inj (held.symm.trans other_live)
          exact both
      refine ⟨?_, fun leaves =>
        ⟨after, rfl, ⟨⟨later, shown'⟩, armed'⟩, leaves_iff.mp leaves⟩⟩
      rw [leaves_iff, keeps_iff]
      by_cases ended : log = []
      · subst ended
        by_cases ends : event.EndsStream client
        · simp [streamEnds, held, ends, fires.ends_emptied_iff ends]
        · simp [streamEnds, held, ends]
      · have owing : client.toSendSize ≠ 0 :=
          fun empty => owed ended ⟨client, held, empty⟩
        simp [ended, owing, fires.emptied_iff held owing]

/-- Along every run of one connection of `thread-honest.c` no client lingers after the end of its
stream exactly if the stream ends only while bytes are pending and no later `send` takes all of
them. -/
theorem no_lingering_iff (sd : Nat) (memory : Vector Byte TO_SEND_SIZE) (now : Time)
    (events : List Event) :
    (endingSystem .threadHonest).Along LeavesNone (.ok (echoClientAdd sd memory now), []) events ↔
      (endingSystem .threadHonest).Along KeepsOwing (.ok (echoClientAdd sd memory now), [])
        events := by
  apply along_exact _ _ (owingAfterEnd_initial sd memory now)
  · intro state event next owing step
    exact (owing.next step).1
  · intro state event next owing step keeps
    have both := owing.next step
    exact both.2 (both.1.mpr keeps)

/-! ## A peer that finishes without a word -/

/-- The descriptor is found readable and `recv` returns 0. -/
def finishedRead : List Event := [.pollRecv, .wcbRecv [.ok []] (.error .eagain)]

theorem fires_finished_read (sd : Nat) (memory : Vector Byte TO_SEND_SIZE) (now : Time) :
    Fires .threadHonest (polledConnection sd memory now) (freshClient sd memory)
      (.wcbRecv [.ok []] (.error .eagain)) (echoClientAdd sd memory now) := by
  have fires : Fires .threadHonest (polledConnection sd memory now) (freshClient sd memory)
      (.wcbRecv [.ok []] (.error .eagain)) _ := .wcbRecv rfl rfl ⟨Nat.zero_le _, trivial⟩
  rwa [recvEffect, if_pos rfl, EchoClient.compacted, if_neg (freshClient_roomy sd memory)] at fires

theorem run_finishedRead (sd : Nat) (memory : Vector Byte TO_SEND_SIZE) (now : Time) :
    (connectionSystem .threadHonest).run (.ok (echoClientAdd sd memory now)) finishedRead =
      some (.ok (echoClientAdd sd memory now)) := by
  have step := (fires_finished_read sd memory now).next_eq rfl (freshClient_window sd memory)
  simp only [finishedRead, run_cons]
  exact congrArg (fun state => state.bind fun next => some next) step

theorem finishedRead_lingers (sd : Nat) (memory : Vector Byte TO_SEND_SIZE) (now : Time) :
    ¬ (endingSystem .threadHonest).Along LeavesNone (.ok (echoClientAdd sd memory now), [])
        finishedRead := by
  have front_run : (endingSystem .threadHonest).run (.ok (echoClientAdd sd memory now), [])
      [.pollRecv] = some (.ok (polledConnection sd memory now), []) := rfl
  have ends : Event.EndsStream (freshClient sd memory) (.wcbRecv [.ok []] (.error .eagain)) := by
    refine ⟨rfl, ?_⟩
    rw [freshClient_asked, TO_SEND_SIZE]
    omega
  have noted : streamEnds (.ok (polledConnection sd memory now))
      (.wcbRecv [.ok []] (.error .eagain)) = [0] := streamEnds_eq rfl ends
  have taken : (connectionSystem .threadHonest).step (.ok (polledConnection sd memory now))
      (.wcbRecv [.ok []] (.error .eagain)) = some (.ok (echoClientAdd sd memory now)) :=
    (fires_finished_read sd memory now).next_eq rfl (freshClient_window sd memory)
  have step : (endingSystem .threadHonest).step (.ok (polledConnection sd memory now), [])
      (.wcbRecv [.ok []] (.error .eagain)) = some (.ok (echoClientAdd sd memory now), [0]) :=
    (logged_step_iff _).mpr ⟨_, taken, by rw [noted]; rfl⟩
  intro along
  exact along_iff.mp along [.pollRecv] _ [] _ _ rfl front_run step
    ⟨_, freshClient sd memory, rfl, by simp, rfl, rfl, rfl⟩

/-- A peer that finishes without having sent anything leaves a client that lingers, and whose
receive callback changes nothing from then on. -/
theorem finished_client_lingers :
    ¬ (endingSystem .threadHonest).Along LeavesNone
        (.ok (echoClientAdd 5 (Vector.replicate TO_SEND_SIZE 0) 0), []) finishedRead ∧
      (connectionSystem .threadHonest).run
          (.ok (echoClientAdd 5 (Vector.replicate TO_SEND_SIZE 0) 0)) finishedRead =
        some (.ok (echoClientAdd 5 (Vector.replicate TO_SEND_SIZE 0) 0)) :=
  ⟨finishedRead_lingers 5 (Vector.replicate TO_SEND_SIZE 0) 0,
    run_finishedRead 5 (Vector.replicate TO_SEND_SIZE 0) 0⟩

end Mrps.Honest
