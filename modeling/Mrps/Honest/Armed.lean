import Mrps.Honest.Stream

/-!
# Which watchers are armed

The write watcher is armed by the receive callback and stopped by the send callback.  Between
callbacks it is armed whenever bytes are pending; the send callback leaves it armed exactly when
bytes are left.
-/

namespace Mrps.Honest

open EventSystem

/-- The watchers of a client with `size` bytes to send: it is read from and timed, it waits for its
descriptor to become writable while it has bytes, and a write event is pending only while its
watcher is armed. -/
structure Watchers.Attend (watchers : Watchers) (size : Nat) : Prop where
  recv : watchers.recv.active = true
  timeout : watchers.timeout.active = true
  send : 0 < size → watchers.send.active = true
  scheduled : watchers.send.pending = true → watchers.send.active = true

namespace Watchers.Attend

variable {watchers : Watchers} {size : Nat}

theorem fewer (attend : watchers.Attend size) {rest : Nat} (le : rest ≤ size) :
    watchers.Attend rest :=
  ⟨attend.recv, attend.timeout, fun left => attend.send (Nat.lt_of_lt_of_le left le),
    attend.scheduled⟩

/-- With the write watcher armed any number of bytes may be pending. -/
theorem sendStarted (attend : watchers.Attend size) (more : Nat) :
    watchers.sendStarted.Attend more :=
  ⟨attend.recv, attend.timeout, fun _ => rfl, fun _ => rfl⟩

theorem sendStopped (attend : watchers.Attend size) : watchers.sendStopped.Attend 0 :=
  ⟨attend.recv, attend.timeout, fun left => absurd left (Nat.lt_irrefl 0), fun pending => pending⟩

theorem timeoutAgain (attend : watchers.Attend size) (now : Time) :
    (watchers.timeoutAgain now).Attend size :=
  ⟨attend.recv, rfl, attend.send, attend.scheduled⟩

theorem recvInvoked (attend : watchers.Attend size) : watchers.recvInvoked.Attend size :=
  ⟨attend.recv, attend.timeout, attend.send, attend.scheduled⟩

theorem sendInvoked (attend : watchers.Attend size) : watchers.sendInvoked.Attend size :=
  ⟨attend.recv, attend.timeout, attend.send,
    fun pending => absurd pending (by simp [Watchers.sendInvoked, IoWatcher.invoked])⟩

end Watchers.Attend

/-- The watchers of a live client attend to it. -/
def Armed (conn : Connection) : Prop :=
  ∀ client, conn.client = some client → conn.watchers.Attend client.toSendSize

theorem armed_of_live {conn : Connection} {client : EchoClient} (live : conn.client = some client)
    (attend : conn.watchers.Attend client.toSendSize) : Armed conn := by
  intro other other_live
  obtain rfl : client = other := Option.some.inj (live.symm.trans other_live)
  exact attend

theorem armed_of_dead {conn : Connection} (dead : conn.client = none) : Armed conn := by
  intro client live
  rw [dead] at live
  cases live

section Effects

variable {conn : Connection} {client : EchoClient}

theorem consumed_all {sentNb : Nat} (all : ¬ client.toSendSize > sentNb) :
    (client.consumed sentNb).toSendSize = 0 := by
  rw [EchoClient.consumed_toSendSize]
  omega

theorem sendEffect_armed (live : conn.client = some client)
    (attend : conn.watchers.Attend client.toSendSize) (answer : SendAnswer) :
    Armed (sendEffect conn client answer) := by
  rcases answer with (_ | _ | _) | sentNb
  · exact armed_of_live live attend
  · exact armed_of_dead rfl
  · exact armed_of_dead rfl
  · rw [sendEffect]
    split
    · exact armed_of_live rfl (attend.fewer (Nat.sub_le _ _))
    · rename_i all
      apply armed_of_live rfl
      rw [consumed_all all]
      exact attend.sendStopped

theorem sendBackEffect_armed {size : Nat} (attend : conn.watchers.Attend size)
    (live : conn.client = some client) (answer : SendAnswer) :
    Armed (sendBackEffect conn client answer) := by
  rcases answer with (_ | _ | _) | sentNb
  · exact armed_of_live live (attend.sendStarted _)
  · exact armed_of_dead rfl
  · exact armed_of_dead rfl
  · rw [sendBackEffect]
    split
    · exact armed_of_live rfl (attend.sendStarted _)
    · rename_i all
      apply armed_of_live rfl
      rw [consumed_all all]
      exact attend.fewer (Nat.zero_le size)

theorem recvEffect_armed (program : Program)
    (attend : conn.watchers.Attend client.toSendSize) (nb : RecvAnswer) (answer : SendAnswer) :
    Armed (recvEffect (program.doneEffect client) conn client answer nb) := by
  have held : conn.watchers.Attend client.compacted.toSendSize := by
    rwa [client.compacted_toSendSize]
  rcases nb with (_ | _ | _) | bytes
  · exact armed_of_live rfl (held.timeoutAgain conn.clock)
  · exact armed_of_dead rfl
  · exact armed_of_dead rfl
  · rw [recvEffect]
    split
    · cases program with
      | serverHonest => exact armed_of_dead rfl
      | threadHonest => exact armed_of_live rfl held
    · have attend' : (conn.filled client.compacted bytes).watchers.Attend client.toSendSize :=
        attend
      exact sendBackEffect_armed attend' rfl answer

theorem Fires.armed {program : Program} {next : Connection} {event : Event}
    (fires : Fires program conn client event next) (live : conn.client = some client)
    (attend : conn.watchers.Attend client.toSendSize) : Armed next := by
  cases fires with
  | tick => exact armed_of_live live attend
  | pollRecv poll =>
      obtain ⟨active, rfl⟩ := IoWatcher.poll_eq_some_iff.mp poll
      exact armed_of_live live ⟨active, attend.timeout, attend.send, attend.scheduled⟩
  | pollSend poll =>
      obtain ⟨active, rfl⟩ := IoWatcher.poll_eq_some_iff.mp poll
      exact armed_of_live live ⟨attend.recv, attend.timeout, fun _ => active, fun _ => active⟩
  | pollTimeout poll =>
      obtain ⟨⟨active, -⟩, rfl⟩ := TimerWatcher.poll_eq_some_iff.mp poll
      exact armed_of_live live ⟨attend.recv, active, attend.send, attend.scheduled⟩
  | wcbRecv => exact recvEffect_armed program attend.recvInvoked _ _
  | wcbSend =>
      have attend' : (conn.register Watchers.sendInvoked).watchers.Attend client.toSendSize :=
        attend.sendInvoked
      have live' : (conn.register Watchers.sendInvoked).client = some client := live
      exact sendEffect_armed live' attend' _
  | wcbTimeout => exact armed_of_dead rfl

end Effects

/-! ## Runs -/

/-- A `send` of no bytes does not report that it would block. -/
def EmptySendReturns (state : Except Fault Connection) (event : Event)
    (_ : Except Fault Connection) : Prop :=
  ∀ conn client, state = .ok conn → conn.client = some client → client.toSendSize = 0 →
    event ≠ .wcbSend (.error .eagain)

/-- After an `echo_client_wcb_send` the write watcher of a client it left live is armed exactly
while bytes are pending.  Without bytes to send it deletes the client on an error of `send`, or else
sends nothing, leaves the client as it was and stops the watcher. -/
def SendSettles (state : Except Fault Connection) (event : Event)
    (next : Except Fault Connection) : Prop :=
  ∀ conn client answer after, state = .ok conn → conn.client = some client →
    event = .wcbSend answer → next = .ok after →
      (∀ left, after.client = some left →
        (after.watchers.send.active = true ↔ 0 < left.toSendSize)) ∧
      (client.toSendSize = 0 →
        (∃ errno, answer = .error errno) ∧ after.client = none ∨
          after.sent = conn.sent ∧ after.client = some client ∧
            after.watchers.send.active = false)

section Settled

variable {conn : Connection} {client : EchoClient} {answer : SendAnswer}

/-- A client that survives a send callback waits for writability exactly while bytes are pending. -/
theorem sendEffect_active_iff (live : conn.client = some client)
    (active : conn.watchers.send.active = true)
    (blocked : answer = .error .eagain → 0 < client.toSendSize) {left : EchoClient}
    (left_live : (sendEffect conn client answer).client = some left) :
    (sendEffect conn client answer).watchers.send.active = true ↔ 0 < left.toSendSize := by
  rcases answer with (_ | _ | _) | sentNb
  · obtain rfl : client = left := Option.some.inj (live.symm.trans left_live)
    exact iff_of_true active (blocked rfl)
  · cases left_live
  · cases left_live
  · rw [sendEffect] at left_live ⊢
    split at left_live
    · rename_i some_left
      obtain rfl := Option.some.inj left_live
      rw [if_pos some_left]
      apply iff_of_true active
      rw [EchoClient.consumed_toSendSize]
      omega
    · rename_i all
      obtain rfl := Option.some.inj left_live
      rw [if_neg all]
      apply iff_of_false
      · simp [Connection.register, Watchers.sendStopped, IoWatcher.stop]
      · rw [EchoClient.consumed_toSendSize]
        omega

/-- A send callback without bytes to send. -/
theorem sendEffect_empty (live : conn.client = some client) (empty : client.toSendSize = 0)
    (returns : answer ≠ .error .eagain) (contract : conn.SendContract answer) :
    (∃ errno, answer = .error errno) ∧ (sendEffect conn client answer).client = none ∨
      (sendEffect conn client answer).sent = conn.sent ∧
        (sendEffect conn client answer).client = some client ∧
          (sendEffect conn client answer).watchers.send.active = false := by
  rcases answer with (_ | _ | _) | sentNb
  · exact absurd rfl returns
  · exact Or.inl ⟨⟨_, rfl⟩, rfl⟩
  · exact Or.inl ⟨⟨_, rfl⟩, rfl⟩
  · have le : sentNb ≤ client.toSendSize := by
      simpa [Connection.SendContract, live] using contract
    obtain rfl : sentNb = 0 := by omega
    have unchanged : client.consumed 0 = client := rfl
    right
    rw [sendEffect, if_neg (by omega)]
    refine ⟨?_, ?_, rfl⟩
    · simp [Connection.register, Connection.accepted]
    · simp [Connection.register, Connection.accepted, unchanged]

end Settled

/-- A state without a fault whose client, if live, is attended. -/
def WellArmed : Except Fault Connection → Prop
  | .ok conn => (∃ pipe, Shows conn pipe) ∧ Armed conn
  | .error _ => False

theorem WellArmed.step {program : Program} {state next : Except Fault Connection} {event : Event}
    (well : WellArmed state) (step : (connectionSystem program).step state event = some next)
    (returns : EmptySendReturns state event next) :
    SendSettles state event next ∧ WellArmed next := by
  cases state with
  | error fault => exact well.elim
  | ok conn =>
      obtain ⟨⟨pipe, shown⟩, armed⟩ := well
      obtain ⟨conn', rfl, -, later, -, shown'⟩ := next_continues shown step
      cases held : conn.client with
      | none =>
          obtain ⟨elapsed, -, same⟩ := next_of_quiet (shown.quiet held) step
          obtain rfl := Except.ok.inj same
          refine ⟨?_, ⟨later, shown'⟩, armed_of_dead held⟩
          rintro _ client answer after ⟨⟩ live
          rw [held] at live
          cases live
      | some client =>
          obtain ⟨_, same, fires⟩ := fires_of_next held (shown.window client held) step
          obtain rfl := Except.ok.inj same
          have attend := armed client held
          refine ⟨?_, ⟨later, shown'⟩, fires.armed held attend⟩
          rintro _ held_client answer after ⟨⟩ live rfl ⟨⟩
          obtain rfl : client = held_client := Option.some.inj (held.symm.trans live)
          cases fires with
          | wcbSend pending contract =>
              have blocked : answer = .error .eagain → 0 < client.toSendSize := by
                intro would_block
                rw [Nat.pos_iff_ne_zero]
                intro empty
                exact returns conn client rfl held empty (by rw [would_block])
              have live' : (conn.register Watchers.sendInvoked).client = some client := held
              refine ⟨fun left left_live => ?_, fun empty => ?_⟩
              · exact sendEffect_active_iff live' (attend.scheduled pending) blocked left_live
              · refine sendEffect_empty live' empty ?_ contract
                intro would_block
                have waiting := blocked would_block
                omega

/-- Along every run in which an empty `send` does not report that it would block, a live client is
read from, timed and, while it has bytes to send, waits for writability; its send callbacks leave
that watcher armed exactly while bytes are pending. -/
theorem no_stuck_output (program : Program) (sd : Nat) (memory : Vector Byte TO_SEND_SIZE)
    (now : Time) (events : List Event)
    (returns : (connectionSystem program).Along EmptySendReturns (.ok (echoClientAdd sd memory now))
      events) :
    (∀ final, (connectionSystem program).run (.ok (echoClientAdd sd memory now)) events =
        some final →
      ∃ conn, final = .ok conn ∧ ∀ client, conn.client = some client →
        (0 < client.toSendSize → conn.watchers.send.active = true) ∧
          conn.watchers.recv.active = true ∧ conn.watchers.timeout.active = true) ∧
      (connectionSystem program).Along SendSettles (.ok (echoClientAdd sd memory now)) events := by
  have start : WellArmed (.ok (echoClientAdd sd memory now)) := by
    refine ⟨⟨_, Shows.initial sd memory now⟩, ?_⟩
    apply armed_of_live rfl
    exact ⟨rfl, rfl, fun left => absurd left (Nat.lt_irrefl 0),
      fun pending => absurd pending (by simp [echoClientAdd, IoWatcher.init])⟩
  constructor
  · intro final execution
    have well := returns.invariant
      (fun state event next well step here => (well.step step here).2) start execution
    cases final with
    | error fault => exact well.elim
    | ok conn =>
        refine ⟨conn, rfl, fun client live => ?_⟩
        have attend := well.2 client live
        exact ⟨attend.send, attend.recv, attend.timeout⟩
  · exact returns.yields (fun state event next well step here => well.step step here) start

/-- A run in which a byte is held back, and then sent when the descriptor is writable. -/
theorem no_stuck_output_held :
    (∀ final, (connectionSystem .threadHonest).run
        (.ok (echoClientAdd 5 (Vector.replicate TO_SEND_SIZE 0) 0))
        [.pollRecv, .wcbRecv [.ok [104]] (.error .eagain), .pollSend, .wcbSend (.ok 1)] =
        some final →
      ∃ conn, final = .ok conn ∧ ∀ client, conn.client = some client →
        (0 < client.toSendSize → conn.watchers.send.active = true) ∧
          conn.watchers.recv.active = true ∧ conn.watchers.timeout.active = true) ∧
      (connectionSystem .threadHonest).Along SendSettles
        (.ok (echoClientAdd 5 (Vector.replicate TO_SEND_SIZE 0) 0))
        [.pollRecv, .wcbRecv [.ok [104]] (.error .eagain), .pollSend, .wcbSend (.ok 1)] := by
  apply no_stuck_output
  apply along_iff.mpr
  rintro front event back state next split - - conn client - - -
  have member : event ∈ front ++ event :: back := by simp
  rw [← split] at member
  rintro rfl
  simp at member

end Mrps.Honest
