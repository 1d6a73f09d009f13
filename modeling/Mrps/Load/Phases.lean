import Mrps.Load.Process

/-!
# The two phases of a client

A client first waits for its connection and then exchanges messages.  Nothing but the timer runs
through both phases, and `wcb_timeout` does not look which one it is in: the phases stay apart
exactly when it never runs before the connection is there.
-/

namespace Mrps.Load

open EventSystem

/-- While the client waits for its connection it waits for nothing else, and nothing was sent. -/
def Separated (conn : Connection) : Prop :=
  conn.watchers.connect.active = true →
    conn.watchers.send.active = false ∧ conn.watchers.recv.active = false ∧ conn.wire = []

/-- The step keeps the phases apart, and if it accepts the connection no request was due. -/
def KeepsPhases (before : Except Fault Session) (event : Event) (after : Except Fault Session) :
    Prop :=
  (∀ session, after = .ok session → Separated session.conn) ∧
    ∀ session client, before = .ok session → session.conn.client = some client →
      event = .wcbConnect false → client.toSend = 0

/-- `wcb_timeout` does not run while the client waits for its connection. -/
def ConnectsFirst (before : Except Fault Session) (event : Event) (_ : Except Fault Session) :
    Prop :=
  ∀ session, before = .ok session → event = .wcbTimeout →
    session.conn.watchers.connect.active = false

/-- The client no longer waits for its connection. -/
structure Connected (conn : Connection) : Prop where
  active : conn.watchers.connect.active = false
  pending : conn.watchers.connect.pending = false

/-- The watchers of a client in the first phase, with what else is untouched in it. -/
structure Connecting (conn : Connection) : Prop where
  send_active : conn.watchers.send.active = false
  send_pending : conn.watchers.send.pending = false
  recv_active : conn.watchers.recv.active = false
  recv_pending : conn.watchers.recv.pending = false
  wire : conn.wire = []
  nothing_due : ∀ client, conn.client = some client → client.toSend = 0

/-- A client is connecting or connected, and a pending event of its connection is from the first
phase. -/
structure Phased (conn : Connection) : Prop where
  connecting : conn.watchers.connect.active = true → Connecting conn
  connect_active : conn.watchers.connect.pending = true → conn.watchers.connect.active = true

section Watching

variable {session next : Session} {client : Client}

theorem deleted_connected (fd : Nat) : Connected (session.deleted fd).conn := ⟨rfl, rfl⟩

theorem Bursts.connected {answers : List SendAnswer} (bursts : Bursts session client answers next)
    (connected : Connected session.conn) : Connected next.conn := by
  induction bursts with
  | done => exact ⟨connected.active, connected.pending⟩
  | failed => exact deleted_connected _
  | sent _ _ _ ih => exact ih ⟨connected.active, connected.pending⟩

theorem recvEffect_connected (connected : Connected session.conn) (nb : RecvAnswer) :
    Connected (recvEffect session client nb).conn := by
  rcases nb with (_ | _ | _) | bytes
  · exact ⟨connected.active, connected.pending⟩
  · exact deleted_connected _
  · exact deleted_connected _
  · exact ⟨connected.active, connected.pending⟩

theorem connectEffect_connected (readable : Bool) :
    Connected (connectEffect session client readable).conn := by
  cases readable with
  | true => exact deleted_connected _
  | false => exact ⟨rfl, rfl⟩

theorem Fires.connected {event : Event} (fires : Fires session client event next)
    (connected : Connected session.conn) : Connected next.conn := by
  cases fires with
  | tick => exact connected
  | pollRecv => exact ⟨connected.active, connected.pending⟩
  | pollSend => exact ⟨connected.active, connected.pending⟩
  | pollConnect active => simp [connected.active] at active
  | pollTimeout => exact ⟨connected.active, connected.pending⟩
  | wcbRecv =>
      apply recvEffect_connected
      exact ⟨connected.active, connected.pending⟩
  | wcbSend _ bursts => exact bursts.connected ⟨connected.active, connected.pending⟩
  | wcbConnect readable => exact connectEffect_connected readable
  | wcbTimeout => exact ⟨connected.active, connected.pending⟩

theorem Connected.phased {conn : Connection} (connected : Connected conn) : Phased conn :=
  ⟨fun active => by simp [connected.active] at active,
    fun pending => by simp [connected.pending] at pending⟩

namespace Phased

theorem separated {conn : Connection} (phased : Phased conn) : Separated conn := by
  intro active
  have first := phased.connecting active
  exact ⟨first.send_active, first.recv_active, first.wire⟩

theorem connected {conn : Connection} (phased : Phased conn)
    (active : conn.watchers.connect.active = false) : Connected conn := by
  refine ⟨active, ?_⟩
  by_contra pending
  have contrary := phased.connect_active (by simpa using pending)
  simp [active] at contrary

/-- Every step keeps the phases, `wcb_timeout` if the client is connected. -/
theorem fires {event : Event} (phased : Phased session.conn)
    (fires : Fires session client event next)
    (first : event = .wcbTimeout → session.conn.watchers.connect.active = false) :
    Phased next.conn := by
  cases active : session.conn.watchers.connect.active with
  | false => exact (fires.connected (phased.connected active)).phased
  | true =>
      -- in the first phase only the connection and the timer have events
      obtain ⟨send_active, send_pending, recv_active, recv_pending, wire, nothing_due⟩ :=
        phased.connecting active
      cases fires with
      | tick => exact phased
      | pollRecv armed => simp [recv_active] at armed
      | pollSend armed => simp [send_active] at armed
      | pollConnect =>
          exact ⟨fun _ => ⟨send_active, send_pending, recv_active, recv_pending, wire, nothing_due⟩,
            fun _ => active⟩
      | pollTimeout =>
          exact ⟨fun _ => ⟨send_active, send_pending, recv_active, recv_pending, wire, nothing_due⟩,
            phased.connect_active⟩
      | wcbRecv pending => simp [recv_pending] at pending
      | wcbSend pending => simp [send_pending] at pending
      | wcbConnect readable => exact (connectEffect_connected readable).phased
      | wcbTimeout => simp [first rfl] at active

end Phased

end Watching

theorem clientAdd_phased (sd : Nat) (now : Time) : Phased (clientAdd sd now) := by
  refine ⟨fun _ => ⟨rfl, rfl, rfl, rfl, rfl, ?_⟩, fun pending => by cases pending⟩
  rintro client ⟨⟩
  rfl

/-- A fault-free state of a client whose phases are apart. -/
def InPhase (sd : Nat) : Except Fault Session → Prop
  | .ok session => Kept sd session.conn ∧ Phased session.conn
  | .error _ => False

section Steps

variable {sd : Nat} {event : Event}

theorem InPhase.kept {state after : Except Fault Session} (good : InPhase sd state)
    (step : sessionSystem.step state event = some after)
    (first : ConnectsFirst state event after) : InPhase sd after := by
  cases state with
  | error fault => exact good.elim
  | ok session =>
      obtain ⟨kept, phased⟩ := good
      have taken : session.next event = some after := step
      obtain ⟨next, rfl, kept', ⟨-, elapsed, rfl, rfl⟩ | ⟨client, -, fires⟩⟩ := kept.taken taken
      · exact ⟨kept', phased⟩
      · exact ⟨kept', phased.fires fires (first session rfl)⟩

theorem InPhase.exact {state after : Except Fault Session} (good : InPhase sd state)
    (step : sessionSystem.step state event = some after) :
    KeepsPhases state event after ↔ ConnectsFirst state event after := by
  cases state with
  | error fault => exact good.elim
  | ok session =>
      have taken : session.next event = some after := step
      constructor
      · rintro ⟨apart, -⟩ _ ⟨⟩ rfl
        by_contra armed
        have connects : session.conn.watchers.connect.active = true := by simpa using armed
        obtain ⟨next, rfl, -, ⟨-, elapsed, contrary, -⟩ | ⟨client, -, fires⟩⟩ := good.1.taken taken
        · cases contrary
        · cases fires with
          | wcbTimeout =>
              -- `wcb_timeout` arms the write watcher and leaves the other one armed
              obtain ⟨stopped, -⟩ := apart _ rfl connects
              cases stopped
      · intro first
        refine ⟨?_, ?_⟩
        · rintro next rfl
          exact (good.kept step first).2.separated
        · rintro _ client ⟨⟩ live rfl
          obtain ⟨next, rfl, -, ⟨-, elapsed, contrary, -⟩ | ⟨_, -, fires⟩⟩ := good.1.taken taken
          · cases contrary
          · cases fires with
            | wcbConnect _ pending =>
                have waits := good.2.connecting (good.2.connect_active pending)
                exact waits.nothing_due client live

end Steps

/-- In every run of one client from `client_add` on, the phases stay apart, with no request sent or
discarded before the connection is there, exactly if `wcb_timeout` never runs while the client waits
for its connection. -/
theorem phases_kept_iff (sd : Nat) (now : Time) (times : Statistics) (events : List Event) :
    sessionSystem.Along KeepsPhases (.ok (.start sd now times)) events ↔
      sessionSystem.Along ConnectsFirst (.ok (.start sd now times)) events := by
  have start : InPhase sd (.ok (.start sd now times)) :=
    ⟨clientAdd_kept sd now, clientAdd_phased sd now⟩
  exact along_exact (fun _ _ _ good step => good.exact step)
    (fun _ _ _ good step first => good.kept step first) start

/-- A connection that takes longer than one interval of the timer. -/
theorem phases_kept_slow_connect : ¬ sessionSystem.Along KeepsPhases
    (.ok (.start 7 0 { timesSum := 0, timesCount := 0, timesMax := 0, timesMin := 0 }))
    [.tick 10000, .pollTimeout, .wcbTimeout] := by
  intro along
  obtain ⟨-, along⟩ := along _ rfl
  obtain ⟨-, along⟩ := along _ rfl
  obtain ⟨⟨apart, -⟩, -⟩ := along _ rfl
  obtain ⟨stopped, -⟩ := apart _ rfl rfl
  cases stopped

end Mrps.Load
