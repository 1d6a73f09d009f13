import Mrps.Plain.Callbacks

/-!
# The idle timer of the plain servers

Every exit of the receive callback restarts the timer or deletes the client, so a live client's
timer is armed and due exactly 60 seconds after the last receive callback.  When the loop reports an
expiry it sets the timer for another period at once; what is due then is the callback of the
reported deadline.
-/

namespace Mrps.Plain

open EventSystem

/-- What a run notes of its receive callbacks and of the expiries of its timer. -/
inductive Note where
  /-- A receive callback at this time. -/
  | recv (time : Time)
  /-- The loop reports that this deadline has passed. -/
  | expired (deadline : Time)
  deriving DecidableEq, Repr

/-- What an event adds to the notes. -/
def notesOf : Except Fault Connection → Event → List Note
  | .ok conn, .wcbRecv _ _ => [.recv conn.clock]
  | .ok conn, .pollTimeout =>
      if conn.watchers.timeout.pending then [] else [.expired conn.watchers.timeout.deadline]
  | _, _ => []

/-- The runs of one connection with their notes. -/
abbrev notedSystem : EventSystem (Except Fault Connection × List Note) Event :=
  connectionSystem.logged notesOf

/-- The times of the receive callbacks. -/
def recvTimes (notes : List Note) : List Time :=
  notes.filterMap fun
    | .recv time => some time
    | .expired _ => none

/-- The deadlines whose expiry was reported. -/
def reported (notes : List Note) : List Time :=
  notes.filterMap fun
    | .recv _ => none
    | .expired deadline => some deadline

/-- The latest of the creation and the receive callbacks. -/
def lastActivity (created : Time) (notes : List Note) : Time :=
  (recvTimes notes).foldl max created

/-- The deadline of the next timer callback: the one reported while its callback is pending, and
otherwise the one the loop waits for. -/
def dueAt (conn : Connection) (notes : List Note) : Time :=
  if conn.watchers.timeout.pending then (reported notes).getLastD 0
  else conn.watchers.timeout.deadline

@[simp] theorem recvTimes_append (notes more : List Note) :
    recvTimes (notes ++ more) = recvTimes notes ++ recvTimes more := by
  simp [recvTimes]

@[simp] theorem reported_append (notes more : List Note) :
    reported (notes ++ more) = reported notes ++ reported more := by
  simp [reported]

theorem lastActivity_recv (created now : Time) (notes : List Note) :
    lastActivity created (notes ++ [.recv now]) = max (lastActivity created notes) now := by
  simp [lastActivity, recvTimes]

theorem lastActivity_expired (created deadline : Time) (notes : List Note) :
    lastActivity created (notes ++ [.expired deadline]) = lastActivity created notes := by
  simp [lastActivity, recvTimes]

theorem le_lastActivity (created : Time) (notes : List Note) :
    ∀ time ∈ created :: recvTimes notes, time ≤ lastActivity created notes := by
  have foldl_bounds : ∀ (times : List Time) (first : Time),
      ∀ time ∈ first :: times, time ≤ times.foldl max first := by
    intro times
    induction times with
    | nil => simp
    | cons next times ih =>
        intro first time member
        have later := ih (max first next)
        have start : max first next ≤ times.foldl max (max first next) :=
          later _ List.mem_cons_self
        rcases List.mem_cons.mp member with rfl | member
        · exact (le_max_left time next).trans start
        · rcases List.mem_cons.mp member with rfl | member
          · exact (le_max_right first time).trans start
          · exact later time (List.mem_cons_of_mem _ member)
  exact foldl_bounds (recvTimes notes) created

/-- What a run keeps of its idle timer. -/
structure Timed (created : Time) (conn : Connection) (notes : List Note) : Prop where
  settled : Settled conn
  past : lastActivity created notes ≤ conn.clock
  armed : conn.client ≠ none → conn.watchers.timeout.active = true
  due : conn.client ≠ none → dueAt conn notes = lastActivity created notes + SOCKET_TIMEOUT
  expired : conn.client ≠ none → conn.watchers.timeout.pending = true →
    dueAt conn notes ≤ conn.clock

theorem timed_echoClientAdd (sd : Nat) (now : Time) : Timed now (echoClientAdd sd now) [] where
  settled := settled_echoClientAdd sd now
  past := le_rfl
  armed := fun _ => rfl
  due := fun _ => rfl
  expired := by simp [echoClientAdd, TimerWatcher.again]

namespace Timed

variable {created : Time} {conn : Connection} {client : EchoClient} {notes : List Note}

theorem of_dead (settled : Settled conn) (past : lastActivity created notes ≤ conn.clock)
    (dead : conn.client = none) : Timed created conn notes where
  settled := settled
  past := past
  armed := fun live => absurd dead live
  due := fun live => absurd dead live
  expired := fun live => absurd dead live

theorem of_again (live : conn.client = some client)
    (activity : lastActivity created notes = conn.clock) {watchers : Watchers}
    (restarted : conn.watchers = watchers.timeoutAgain conn.clock) : Timed created conn notes where
  settled := settled_of_live live
  past := activity.le
  armed := fun _ => by rw [restarted]; rfl
  due := fun _ => by
    rw [dueAt, restarted, activity]
    rfl
  expired := fun _ pending => by
    rw [restarted] at pending
    cases pending

/-- Every exit of the receive callback restarts the timer or deletes the client. -/
theorem recv (timed : Timed created conn notes) (live : conn.client = some client)
    (nb : RecvAnswer) (answer : SendAnswer) :
    Timed created (recvEffect (conn.register Watchers.recvInvoked) client answer nb)
      (notes ++ [.recv conn.clock]) := by
  have activity : lastActivity created (notes ++ [.recv conn.clock]) = conn.clock := by
    rw [lastActivity_recv]
    exact max_eq_right timed.past
  have live' : (conn.register Watchers.recvInvoked).client = some client := live
  have settled := recvEffect_settled live' answer nb
  rcases nb with (_ | _ | _) | bytes
  · exact of_again live activity rfl
  · exact of_dead settled activity.le rfl
  · exact of_dead settled activity.le rfl
  · rw [recvEffect] at settled ⊢
    split at settled
    · rename_i empty
      rw [if_pos empty]
      exact of_dead settled activity.le rfl
    · rename_i nonempty
      rw [if_neg nonempty]
      rcases answer with error | sentNb
      · exact of_dead settled activity.le rfl
      · exact of_again live activity rfl

theorem poll (timed : Timed created conn notes) (live : conn.client = some client)
    {timeout : TimerWatcher}
    (polled : conn.watchers.timeout.poll conn.clock SOCKET_TIMEOUT = some timeout) :
    Timed created (conn.register fun watchers => { watchers with timeout })
      (notes ++ notesOf (.ok conn) .pollTimeout) := by
  obtain ⟨⟨active, passed⟩, rfl⟩ := TimerWatcher.poll_eq_some_iff.mp polled
  have survives : conn.client ≠ none := by simp [live]
  have due := timed.due survives
  by_cases pending : conn.watchers.timeout.pending = true
  · have same : notesOf (.ok conn) .pollTimeout = [] := if_pos pending
    have due_eq : dueAt (conn.register fun watchers => { watchers with
        timeout := { conn.watchers.timeout with
          pending := true
          deadline := max (conn.watchers.timeout.deadline + SOCKET_TIMEOUT) conn.clock } }) notes =
        dueAt conn notes := by
      rw [dueAt, dueAt, if_pos pending]
      rfl
    rw [same, List.append_nil]
    exact
      { settled := settled_of_live live
        past := timed.past
        armed := fun _ => active
        due := fun _ => due_eq.trans due
        expired := fun _ _ => due_eq.trans_le (timed.expired survives pending) }
  · have noted : notesOf (.ok conn) .pollTimeout = [.expired conn.watchers.timeout.deadline] :=
      if_neg pending
    rw [dueAt, if_neg pending] at due
    have activity : lastActivity created (notes ++ [.expired conn.watchers.timeout.deadline]) =
        lastActivity created notes := lastActivity_expired _ _ _
    have due_eq : dueAt (conn.register fun watchers => { watchers with
        timeout := { conn.watchers.timeout with
          pending := true
          deadline := max (conn.watchers.timeout.deadline + SOCKET_TIMEOUT) conn.clock } })
        (notes ++ [.expired conn.watchers.timeout.deadline]) =
        conn.watchers.timeout.deadline := by
      simp [dueAt, Connection.register, reported]
    rw [noted]
    exact
      { settled := settled_of_live live
        past := by rw [activity]; exact timed.past
        armed := fun _ => active
        due := fun _ => by rw [due_eq, activity, due]
        expired := fun _ _ => due_eq.trans_le passed }

theorem next (timed : Timed created conn notes) {event : Event}
    {result : Except Fault Connection} (step : conn.next event = some result) :
    ∃ after, result = .ok after ∧ Timed created after (notes ++ notesOf (.ok conn) event) := by
  obtain ⟨after, rfl, settled, ⟨client, live, fires⟩ | ⟨dead, elapsed, rfl, rfl⟩⟩ :=
    next_cases timed.settled step
  · refine ⟨after, rfl, ?_⟩
    cases fires with
    | tick elapsed =>
        have same : notes ++ notesOf (.ok conn) (.tick elapsed) = notes := List.append_nil notes
        rw [same]
        exact
          { settled
            past := timed.past.trans (Nat.le_add_right _ _)
            armed := timed.armed
            due := timed.due
            expired := fun survives pending =>
              (timed.expired survives pending).trans (Nat.le_add_right _ _) }
    | pollRecv =>
        have same : notes ++ notesOf (.ok conn) .pollRecv = notes := List.append_nil notes
        rw [same]
        exact
          { settled
            past := timed.past
            armed := timed.armed
            due := timed.due
            expired := timed.expired }
    | pollTimeout polled => exact timed.poll live polled
    | wcbRecv => exact timed.recv live _ _
    | wcbTimeout =>
        have same : notes ++ notesOf (.ok conn) .wcbTimeout = notes := List.append_nil notes
        rw [same]
        exact of_dead settled timed.past rfl
  · have same : notes ++ notesOf (.ok conn) (.tick elapsed) = notes := List.append_nil notes
    refine ⟨_, rfl, ?_⟩
    rw [same]
    exact of_dead settled (timed.past.trans (Nat.le_add_right _ _)) dead

end Timed

/-! ## Runs -/

/-- A fault-free connection whose timer is kept. -/
def OnTime (created : Time) (state : Except Fault Connection × List Note) : Prop :=
  ∃ conn, state.1 = .ok conn ∧ Timed created conn state.2

theorem onTime_preserved (created : Time) : notedSystem.Preserves (OnTime created) := by
  rintro ⟨_, notes⟩ event after ⟨conn, rfl, timed⟩ step
  obtain ⟨result, taken, rfl⟩ := (logged_step_iff _).mp step
  have conn_step : conn.next event = some result := taken
  obtain ⟨next, rfl, timed'⟩ := timed.next conn_step
  exact ⟨next, rfl, timed'⟩

/-- `echo_client_wcb_timeout` deletes the client, and 60 seconds have passed since its creation and
since every receive callback. -/
def DeletesIdle (created : Time) (state : Except Fault Connection × List Note) (event : Event)
    (next : Except Fault Connection × List Note) : Prop :=
  event = .wcbTimeout → ∃ conn after, state.1 = .ok conn ∧ next.1 = .ok after ∧
    after.client = none ∧ ∀ time ∈ created :: recvTimes state.2, time + SOCKET_TIMEOUT ≤ conn.clock

theorem OnTime.deletesIdle {created : Time} {state next : Except Fault Connection × List Note}
    {event : Event} (onTime : OnTime created state)
    (step : notedSystem.step state event = some next) : DeletesIdle created state event next := by
  rintro rfl
  obtain ⟨_, notes⟩ := state
  obtain ⟨conn, rfl, timed⟩ := onTime
  obtain ⟨result, taken, rfl⟩ := (logged_step_iff _).mp step
  have conn_step : conn.next .wcbTimeout = some result := taken
  obtain ⟨after, rfl, -, ⟨client, live, fires⟩ | ⟨-, elapsed, impossible, -⟩⟩ :=
    next_cases timed.settled conn_step
  · cases fires with
    | wcbTimeout pending =>
        refine ⟨conn, _, rfl, rfl, rfl, fun time member => ?_⟩
        have survives : conn.client ≠ none := by simp [live]
        have passed := timed.expired survives pending
        rw [timed.due survives] at passed
        have earlier := le_lastActivity created notes time member
        exact (Nat.add_le_add_right earlier SOCKET_TIMEOUT).trans passed
  · cases impossible

/-- In every state of one connection a live client has an armed timer that is due exactly 60 seconds
after the latest of its creation and its receive callbacks (as long as no expiry is reported, that
is the deadline the loop waits for), and along every run the timer callback deletes a client only 60
seconds after all of them. -/
theorem idle_timer_exact (sd : Nat) (now : Time) (events : List Event) :
    (∀ final, notedSystem.run (.ok (echoClientAdd sd now), []) events = some final →
      ∃ conn, final.1 = .ok conn ∧ (conn.client ≠ none →
        conn.watchers.timeout.active = true ∧
          dueAt conn final.2 = lastActivity now final.2 + SOCKET_TIMEOUT ∧
          (conn.watchers.timeout.pending = false →
            conn.watchers.timeout.deadline = lastActivity now final.2 + SOCKET_TIMEOUT))) ∧
      notedSystem.Along (DeletesIdle now) (.ok (echoClientAdd sd now), []) events := by
  have start : OnTime now (.ok (echoClientAdd sd now), []) :=
    ⟨_, rfl, timed_echoClientAdd sd now⟩
  constructor
  · intro final execution
    obtain ⟨conn, final_eq, timed⟩ := (onTime_preserved now).run start execution
    refine ⟨conn, final_eq, fun live => ⟨timed.armed live, timed.due live, fun quiet => ?_⟩⟩
    rw [← timed.due live, dueAt, quiet]
    rfl
  · apply (onTime_preserved now).along _ start
    intro state event next onTime step
    exact onTime.deletesIdle step

end Mrps.Plain
