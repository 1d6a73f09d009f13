import Mrps.Honest.Stream

/-!
# The idle timer of the buffered servers

The receive callback restarts the idle timer only when its `recv` would block.  A callback that
delivers data leaves the deadline where it was, so the timer measures the time since the last read
that found nothing, not the time since the last data.
-/

namespace Mrps.Honest

open EventSystem

/-- A run of `echo_client_wcb_recv`: when it ran and what its `recv` returned. -/
structure Read where
  time : Time
  nb : RecvAnswer
  deriving DecidableEq, Repr

/-- The `recv` delivered data. -/
def Read.Delivered (read : Read) : Prop := ∃ bytes, read.nb = .ok bytes ∧ bytes ≠ []

/-- The `recv` would block. -/
def Read.Blocked (read : Read) : Prop := read.nb = .error .eagain

instance (read : Read) : Decidable read.Blocked := by
  rw [Read.Blocked]
  infer_instance

/-- The time of the last read that would block, or of the creation. -/
def lastBlocked (created : Time) (log : List Read) : Time :=
  log.foldl (fun last read => if read.Blocked then read.time else last) created

theorem lastBlocked_concat (created : Time) (log : List Read) (read : Read) :
    lastBlocked created (log ++ [read]) =
      if read.Blocked then read.time else lastBlocked created log := by
  simp [lastBlocked]

/-- The read an event makes at `now`. -/
def Event.reads (now : Time) : Event → List Read
  | .wcbRecv recv _ =>
      match auxUnixRecv recv with
      | some nb => [{ time := now, nb }]
      | none => []
  | .tick _ | .pollRecv | .pollSend | .pollTimeout | .wcbSend _ | .wcbTimeout => []

/-- What an event adds to the log of reads. -/
def readsOf : Except Fault Connection → Event → List Read
  | .ok conn, event => event.reads conn.clock
  | .error _, _ => []

/-- The runs of one connection with the log of its reads. -/
def timedSystem (program : Program) : EventSystem (Except Fault Connection × List Read) Event :=
  (connectionSystem program).logged readsOf

/-- When `echo_client_wcb_timeout` deletes the client, no `recv` has delivered data during the
preceding 60 seconds. -/
def IdleDeletion (state : Except Fault Connection × List Read) (event : Event)
    (next : Except Fault Connection × List Read) : Prop :=
  event = .wcbTimeout → ∀ conn after, state.1 = .ok conn → next.1 = .ok after →
    after.client = none → ∀ read ∈ state.2, read.Delivered →
      read.time + SOCKET_TIMEOUT ≤ conn.clock

/-- Less than 60 seconds have passed since the last read that would block, or since the creation, if
data has been delivered after it. -/
def RearmedAt (created clock : Time) (log : List Read) : Prop :=
  ∀ read ∈ log, read.Delivered → lastBlocked created log < read.time →
    clock < lastBlocked created log + SOCKET_TIMEOUT

/-- Data delivered to a client that lives on is followed by a read that would block within 60
seconds of the last such read before it or of the creation. -/
def Rearmed (created : Time) (_ : Except Fault Connection × List Read) (_ : Event)
    (next : Except Fault Connection × List Read) : Prop :=
  ∀ conn, next.1 = .ok conn → conn.client ≠ none → RearmedAt created conn.clock next.2

theorem rearmed_ok {created : Time} {before : Except Fault Connection × List Read} {event : Event}
    {conn : Connection} {log : List Read} (rearmed : RearmedAt created conn.clock log) :
    Rearmed created before event (.ok conn, log) := by
  rintro _ ⟨⟩ -
  exact rearmed

/-- The read that ends the condition has found data, 60 seconds after the last one that would
block. -/
theorem RearmedAt.left_by_read {created clock : Time} {log : List Read} {nb : RecvAnswer}
    (rearmed : RearmedAt created clock log)
    (left : ¬ RearmedAt created clock (log ++ [{ time := clock, nb }])) :
    ({ time := clock, nb } : Read).Delivered ∧
      lastBlocked created (log ++ [{ time := clock, nb }]) + SOCKET_TIMEOUT ≤ clock := by
  simp only [RearmedAt, not_forall, not_lt] at left
  obtain ⟨read, member, delivered, later, passed⟩ := left
  refine ⟨?_, passed⟩
  rw [lastBlocked_concat] at later passed
  split at passed
  · exact absurd passed (Nat.not_le.mpr (Nat.lt_add_of_pos_right (by decide)))
  · rename_i found
    rw [if_neg found] at later
    rcases List.mem_append.mp member with old | new
    · exact absurd passed (Nat.not_le.mpr (rearmed read old delivered later))
    · rwa [← List.mem_singleton.mp new]

/-- The timer of a live client is armed by the last read that would block. -/
structure Timely (created : Time) (conn : Connection) (log : List Read) : Prop where
  shown : ∃ pipe, Shows conn pipe
  armed : conn.client ≠ none → conn.watchers.timeout.active = true
  due : conn.client ≠ none → conn.watchers.timeout.pending = false →
    conn.watchers.timeout.deadline = lastBlocked created log + SOCKET_TIMEOUT
  expired : conn.client ≠ none → conn.watchers.timeout.pending = true →
    lastBlocked created log + SOCKET_TIMEOUT ≤ conn.clock

namespace Timely

variable {created : Time} {conn next : Connection} {log : List Read}

theorem added (sd : Nat) (memory : Vector Byte TO_SEND_SIZE) (now : Time) :
    Timely now (echoClientAdd sd memory now) [] where
  shown := ⟨_, Shows.initial sd memory now⟩
  armed := fun _ => rfl
  due := fun _ _ => rfl
  expired := by simp [echoClientAdd, TimerWatcher.again]

theorem kept (timely : Timely created conn log) (shown : ∃ pipe, Shows next pipe)
    (clock_le : conn.clock ≤ next.clock)
    (timer_eq : next.client ≠ none →
      conn.client ≠ none ∧ next.watchers.timeout = conn.watchers.timeout) :
    Timely created next log := by
  refine ⟨shown, ?_, ?_, ?_⟩
  · intro live
    obtain ⟨was_live, same⟩ := timer_eq live
    rw [same]
    exact timely.armed was_live
  · intro live idle
    obtain ⟨was_live, same⟩ := timer_eq live
    rw [same] at idle ⊢
    exact timely.due was_live idle
  · intro live pending
    obtain ⟨was_live, same⟩ := timer_eq live
    rw [same] at pending
    exact (timely.expired was_live pending).trans clock_le

theorem read (timely : Timely created conn log) {read : Read} (found : ¬ read.Blocked) :
    Timely created conn (log ++ [read]) := by
  have same : lastBlocked created (log ++ [read]) = lastBlocked created log := by
    rw [lastBlocked_concat, if_neg found]
  exact ⟨timely.shown, timely.armed, by rw [same]; exact timely.due,
    by rw [same]; exact timely.expired⟩

theorem restarted (shown : ∃ pipe, Shows next pipe)
    (timer_eq : next.watchers.timeout = conn.watchers.timeout.again conn.clock SOCKET_TIMEOUT) :
    Timely created next (log ++ [{ time := conn.clock, nb := .error .eagain }]) := by
  have now : lastBlocked created (log ++ [{ time := conn.clock, nb := .error .eagain }]) =
      conn.clock := by
    rw [lastBlocked_concat]
    exact if_pos rfl
  refine ⟨shown, ?_, ?_, ?_⟩
  · intro _
    rw [timer_eq]
    rfl
  · intro _ _
    rw [timer_eq, now]
    rfl
  · intro _ pending
    rw [timer_eq] at pending
    cases pending

/-- The timer expires not before its deadline. -/
theorem polled {timeout : TimerWatcher} (timely : Timely created conn log)
    (live : conn.client ≠ none)
    (polled : conn.watchers.timeout.poll conn.clock SOCKET_TIMEOUT = some timeout)
    (shown : ∃ pipe, Shows (conn.register fun watchers => { watchers with timeout }) pipe) :
    Timely created (conn.register fun watchers => { watchers with timeout }) log := by
  obtain ⟨⟨-, passed⟩, rfl⟩ := TimerWatcher.poll_eq_some_iff.mp polled
  refine ⟨shown, fun _ => timely.armed live,
    fun _ idle => absurd idle (by simp [Connection.register]),
    fun _ _ => ?_⟩
  cases pending : conn.watchers.timeout.pending with
  | true => exact timely.expired live pending
  | false => exact (timely.due live pending).symm.le.trans passed

end Timely

/-! ## What the callbacks do to the timer -/

section Timer

variable (conn : Connection) (client : EchoClient)

theorem sendEffect_timer (answer : SendAnswer) :
    (sendEffect conn client answer).clock = conn.clock ∧
      ((sendEffect conn client answer).client ≠ none →
        (sendEffect conn client answer).watchers.timeout = conn.watchers.timeout) := by
  rcases answer with (_ | _ | _) | sentNb
  · exact ⟨rfl, fun _ => rfl⟩
  · exact ⟨rfl, fun live => absurd rfl live⟩
  · exact ⟨rfl, fun live => absurd rfl live⟩
  · rw [sendEffect]
    split
    · exact ⟨rfl, fun _ => rfl⟩
    · exact ⟨rfl, fun _ => rfl⟩

theorem sendBackEffect_timer (answer : SendAnswer) :
    (sendBackEffect conn client answer).clock = conn.clock ∧
      ((sendBackEffect conn client answer).client ≠ none →
        (sendBackEffect conn client answer).watchers.timeout = conn.watchers.timeout) := by
  rcases answer with (_ | _ | _) | sentNb
  · exact ⟨rfl, fun _ => rfl⟩
  · exact ⟨rfl, fun live => absurd rfl live⟩
  · exact ⟨rfl, fun live => absurd rfl live⟩
  · rw [sendBackEffect]
    split
    · exact ⟨rfl, fun _ => rfl⟩
    · exact ⟨rfl, fun _ => rfl⟩

/-- Only a `recv` that would block touches the timer of a client that survives. -/
theorem recvEffect_timer (program : Program) (answer : SendAnswer) {nb : RecvAnswer}
    (unblocked : nb ≠ .error .eagain) :
    (recvEffect (program.doneEffect client) conn client answer nb).clock = conn.clock ∧
      ((recvEffect (program.doneEffect client) conn client answer nb).client ≠ none →
        (recvEffect (program.doneEffect client) conn client answer nb).watchers.timeout =
          conn.watchers.timeout) := by
  rcases nb with (_ | _ | _) | bytes
  · exact absurd rfl unblocked
  · exact ⟨rfl, fun live => absurd rfl live⟩
  · exact ⟨rfl, fun live => absurd rfl live⟩
  · rw [recvEffect]
    split
    · cases program with
      | serverHonest => exact ⟨rfl, fun live => absurd rfl live⟩
      | threadHonest => exact ⟨rfl, fun _ => rfl⟩
    · exact sendBackEffect_timer _ _ answer

end Timer

theorem reads_cases (now : Time) (event : Event) :
    event.reads now = [] ∨ ∃ nb, event.reads now = [{ time := now, nb }] := by
  cases event with
  | wcbRecv recv send =>
      rw [Event.reads]
      split
      · exact Or.inr ⟨_, rfl⟩
      · exact Or.inl rfl
  | tick => exact Or.inl rfl
  | pollRecv => exact Or.inl rfl
  | pollSend => exact Or.inl rfl
  | pollTimeout => exact Or.inl rfl
  | wcbSend => exact Or.inl rfl
  | wcbTimeout => exact Or.inl rfl

theorem Fires.clock_eq {program : Program} {conn next : Connection} {client : EchoClient}
    {event : Event} (fires : Fires program conn client event next) :
    (∃ elapsed, event = .tick elapsed) ∨ next.clock = conn.clock := by
  cases fires with
  | tick elapsed => exact Or.inl ⟨elapsed, rfl⟩
  | pollRecv => exact Or.inr rfl
  | pollSend => exact Or.inr rfl
  | pollTimeout => exact Or.inr rfl
  | @wcbRecv recv nb send pending returned contract =>
      by_cases blocked : nb = .error .eagain
      · subst blocked
        exact Or.inr rfl
      · exact Or.inr (recvEffect_timer (conn.register Watchers.recvInvoked) client program send
          blocked).1
  | wcbSend => exact Or.inr (sendEffect_timer (conn.register Watchers.sendInvoked) client _).1
  | wcbTimeout => exact Or.inr rfl

/-- Every step keeps the timer armed by the last read that would block. -/
theorem Timely.next {program : Program} {created : Time} {conn : Connection} {log : List Read}
    {event : Event} {result : Except Fault Connection} (timely : Timely created conn log)
    (step : conn.next program event = some result) :
    ∃ next, result = .ok next ∧ Timely created next (log ++ readsOf (.ok conn) event) := by
  obtain ⟨pipe, shown⟩ := timely.shown
  obtain ⟨next, rfl, _, later, -, shown'⟩ := next_continues shown step
  refine ⟨next, rfl, ?_⟩
  cases held : conn.client with
  | none =>
      obtain ⟨elapsed, rfl, next_eq⟩ := next_of_quiet (shown.quiet held) step
      obtain rfl := Except.ok.inj next_eq
      rw [readsOf, Event.reads, List.append_nil]
      exact timely.kept ⟨later, shown'⟩ (Nat.le_add_right _ _) fun live => absurd held live
  | some client =>
      have live : conn.client ≠ none := by simp [held]
      obtain ⟨_, next_eq, fires⟩ := fires_of_next held (shown.window client held) step
      obtain rfl := Except.ok.inj next_eq
      cases fires with
      | tick elapsed =>
          rw [readsOf, Event.reads, List.append_nil]
          exact timely.kept ⟨later, shown'⟩ (Nat.le_add_right _ _) fun _ => ⟨live, rfl⟩
      | pollRecv =>
          rw [readsOf, Event.reads, List.append_nil]
          exact timely.kept ⟨later, shown'⟩ le_rfl fun _ => ⟨live, rfl⟩
      | pollSend =>
          rw [readsOf, Event.reads, List.append_nil]
          exact timely.kept ⟨later, shown'⟩ le_rfl fun _ => ⟨live, rfl⟩
      | @pollTimeout timeout polled =>
          rw [readsOf, Event.reads, List.append_nil]
          exact timely.polled live polled ⟨later, shown'⟩
      | @wcbRecv recv nb send pending returned contract =>
          simp only [readsOf, Event.reads, returned]
          by_cases blocked : nb = .error .eagain
          · subst blocked
            exact Timely.restarted ⟨later, shown'⟩ rfl
          · obtain ⟨clock_eq, timer_eq⟩ := recvEffect_timer (conn.register Watchers.recvInvoked)
              client program send blocked
            have next_timely := timely.kept ⟨later, shown'⟩ clock_eq.ge fun survives =>
              ⟨live, timer_eq survives⟩
            exact next_timely.read blocked
      | wcbSend =>
          rw [readsOf, Event.reads, List.append_nil]
          obtain ⟨clock_eq, timer_eq⟩ :=
            sendEffect_timer (conn.register Watchers.sendInvoked) client _
          exact timely.kept ⟨later, shown'⟩ clock_eq.ge fun survives => ⟨live, timer_eq survives⟩
      | wcbTimeout =>
          rw [readsOf, Event.reads, List.append_nil]
          exact timely.kept ⟨later, shown'⟩ le_rfl fun survives => absurd rfl survives

theorem timed_step {program : Program} {conn next : Connection} {event : Event} (log : List Read)
    (step : conn.next program event = some (.ok next)) :
    (timedSystem program).step (.ok conn, log) event =
      some (.ok next, log ++ event.reads conn.clock) :=
  (logged_step_iff _).mpr ⟨_, step, rfl⟩

theorem timeout_deletes {program : Program} {conn next : Connection} {pipe : EchoPipe Byte}
    (shown : Shows conn pipe) (step : conn.next program .wcbTimeout = some (.ok next)) :
    conn.client ≠ none ∧ conn.watchers.timeout.pending = true ∧ next.client = none := by
  cases held : conn.client with
  | none =>
      obtain ⟨elapsed, impossible, -⟩ := next_of_quiet (shown.quiet held) step
      cases impossible
  | some client =>
      obtain ⟨_, next_eq, fires⟩ := fires_of_next held (shown.window client held) step
      obtain rfl := Except.ok.inj next_eq
      cases fires with
      | wcbTimeout pending => exact ⟨by simp, pending, rfl⟩

/-! ## Runs whose data is followed by a read that would block -/

/-- When the timer's callback runs, 60 seconds have passed since the last read that would block, so
that no data has come since. -/
theorem Timely.idleDeletion {program : Program} {created : Time} {conn : Connection}
    {log : List Read} {event : Event} {next : Except Fault Connection × List Read}
    (timely : Timely created conn log)
    (rearmed : conn.client ≠ none → RearmedAt created conn.clock log)
    (step : (timedSystem program).step (.ok conn, log) event = some next) :
    IdleDeletion (.ok conn, log) event next := by
  rintro rfl _ after ⟨⟩ - - read member delivered
  obtain ⟨result, taken, rfl⟩ := (logged_step_iff _).mp step
  have conn_step : conn.next program .wcbTimeout = some result := taken
  obtain ⟨_, rfl, -⟩ := timely.next conn_step
  obtain ⟨pipe, shown⟩ := timely.shown
  obtain ⟨live, pending, -⟩ := timeout_deletes shown conn_step
  have expired := timely.expired live pending
  have late : ¬ lastBlocked created log < read.time := by
    intro later
    exact absurd (rearmed live read member delivered later) (Nat.not_lt.mpr expired)
  exact (Nat.add_le_add_right (Nat.not_lt.mp late) SOCKET_TIMEOUT).trans expired

/-- A fault-free connection whose timer is armed by the last read that would block, and whose data
is followed by one in time. -/
def KeepsUp (created : Time) (state : Except Fault Connection × List Read) : Prop :=
  ∃ conn, state.1 = .ok conn ∧ Timely created conn state.2 ∧
    (conn.client ≠ none → RearmedAt created conn.clock state.2)

theorem keepsUp_added (sd : Nat) (memory : Vector Byte TO_SEND_SIZE) (now : Time) :
    KeepsUp now (.ok (echoClientAdd sd memory now), []) :=
  ⟨_, rfl, Timely.added sd memory now, fun _ _ member => by cases member⟩

theorem Timely.keepsUp {program : Program} {created : Time} {conn : Connection} {log : List Read}
    {event : Event} {next : Except Fault Connection × List Read} (timely : Timely created conn log)
    (step : (timedSystem program).step (.ok conn, log) event = some next)
    (rearmed : Rearmed created (.ok conn, log) event next) : KeepsUp created next := by
  obtain ⟨result, taken, rfl⟩ := (logged_step_iff _).mp step
  have conn_step : conn.next program event = some result := taken
  obtain ⟨after, rfl, timely'⟩ := timely.next conn_step
  exact ⟨after, rfl, timely', rearmed after rfl⟩

/-! ## Runs that leave data without one -/

section Broken

variable {program : Program} {created : Time} {conn : Connection} {client : EchoClient}
  {log : List Read} {read : Read}

/-- A pending expiry deletes the client, however young its data is. -/
theorem Timely.breaks_pending (timely : Timely created conn log) (live : conn.client = some client)
    (pending : conn.watchers.timeout.pending = true) (member : read ∈ log)
    (delivered : read.Delivered) (young : conn.clock < read.time + SOCKET_TIMEOUT) :
    ¬ (timedSystem program).Along IdleDeletion (.ok conn, log) [.wcbTimeout] := by
  obtain ⟨pipe, shown⟩ := timely.shown
  have fires : Fires program conn client .wcbTimeout _ := .wcbTimeout pending
  have step := timed_step log (fires.next_eq live (shown.window client live))
  rw [along_cons_iff step]
  rintro ⟨idle, -⟩
  exact absurd (idle rfl conn _ rfl rfl rfl read member delivered) (Nat.not_le.mpr young)

/-- Once 60 seconds have passed since the last read that would block, the client can be deleted,
however young its data is. -/
theorem Timely.breaks (timely : Timely created conn log) (live : conn.client = some client)
    (passed : lastBlocked created log + SOCKET_TIMEOUT ≤ conn.clock) (member : read ∈ log)
    (delivered : read.Delivered) (young : conn.clock < read.time + SOCKET_TIMEOUT) :
    ∃ back, ¬ (timedSystem program).Along IdleDeletion (.ok conn, log) back := by
  have alive : conn.client ≠ none := by simp [live]
  cases pending : conn.watchers.timeout.pending with
  | true => exact ⟨_, timely.breaks_pending live pending member delivered young⟩
  | false =>
      obtain ⟨pipe, shown⟩ := timely.shown
      have due : conn.watchers.timeout.deadline ≤ conn.clock :=
        (timely.due alive pending).le.trans passed
      have polled : conn.watchers.timeout.poll conn.clock SOCKET_TIMEOUT = some _ :=
        if_pos ⟨timely.armed alive, due⟩
      have fires : Fires program conn client .pollTimeout _ := .pollTimeout polled
      have step := fires.next_eq live (shown.window client live)
      obtain ⟨_, same, timely'⟩ := timely.next step
      obtain rfl := Except.ok.inj same
      refine ⟨[.pollTimeout, .wcbTimeout], ?_⟩
      rw [along_cons_iff (timed_step log step)]
      rintro ⟨-, idle⟩
      have kept : read ∈ log ++ readsOf (.ok conn) .pollTimeout := List.mem_append_left _ member
      exact timely'.breaks_pending live rfl kept delivered young idle

/-- If time stops as soon as 60 seconds have passed since the last read that would block, data that
came after that read is young. -/
theorem Timely.breaks_of_wait (timely : Timely created conn log) (live : conn.client = some client)
    (early : conn.clock < lastBlocked created log + SOCKET_TIMEOUT) (member : read ∈ log)
    (delivered : read.Delivered) (later : lastBlocked created log < read.time) :
    ∃ back, ¬ (timedSystem program).Along IdleDeletion (.ok conn, log) back := by
  let wait := lastBlocked created log + SOCKET_TIMEOUT - conn.clock
  have due : conn.clock + wait = lastBlocked created log + SOCKET_TIMEOUT :=
    Nat.add_sub_cancel' early.le
  have step : conn.next program (.tick wait) =
      some (.ok { conn with clock := conn.clock + wait }) := rfl
  obtain ⟨_, same, timely'⟩ := timely.next step
  obtain rfl := Except.ok.inj same
  have kept : read ∈ log ++ readsOf (.ok conn) (.tick wait) := List.mem_append_left _ member
  have passed : lastBlocked created (log ++ readsOf (.ok conn) (.tick wait)) + SOCKET_TIMEOUT ≤
      conn.clock + wait := by
    rw [due, readsOf, Event.reads, List.append_nil]
  have young : conn.clock + wait < read.time + SOCKET_TIMEOUT := by
    rw [due]
    exact Nat.add_lt_add_right later SOCKET_TIMEOUT
  obtain ⟨back, broken⟩ := timely'.breaks live passed kept delivered young
  refine ⟨.tick wait :: back, ?_⟩
  rw [along_cons_iff (timed_step log step)]
  exact fun along => broken along.2

/-- From where a step leaves data without a read that would block, the client can be deleted too
early. -/
theorem Timely.breaks_of_step {event : Event} {next : Except Fault Connection × List Read}
    (timely : Timely created conn log)
    (rearmed : conn.client ≠ none → RearmedAt created conn.clock log)
    (step : (timedSystem program).step (.ok conn, log) event = some next)
    (left : ¬ Rearmed created (.ok conn, log) event next) :
    ∃ back, ¬ (timedSystem program).Along IdleDeletion (.ok conn, log) back := by
  obtain ⟨result, taken, rfl⟩ := (logged_step_iff _).mp step
  have conn_step : conn.next program event = some result := taken
  obtain ⟨after, rfl, timely'⟩ := timely.next conn_step
  obtain ⟨pipe, shown⟩ := timely.shown
  simp only [Rearmed, Except.ok.injEq, forall_eq', not_forall] at left
  obtain ⟨alive', unarmed⟩ := left
  cases held : conn.client with
  | none =>
      obtain ⟨elapsed, -, same⟩ := next_of_quiet (shown.quiet held) conn_step
      obtain rfl := Except.ok.inj same
      exact absurd held alive'
  | some client =>
      obtain ⟨_, same, fires⟩ := fires_of_next held (shown.window client held) conn_step
      obtain rfl := Except.ok.inj same
      have armed : RearmedAt created conn.clock log := rearmed (by simp [held])
      rcases fires.clock_eq with ⟨elapsed, rfl⟩ | clock_eq
      · -- Time that stops at the deadline lets the timer expire while the data is young.
        simp only [readsOf, Event.reads, List.append_nil, RearmedAt, not_forall] at unarmed
        obtain ⟨read, member, delivered, later, -⟩ := unarmed
        exact timely.breaks_of_wait held (armed read member delivered later) member delivered later
      · rw [clock_eq] at unarmed
        rcases reads_cases conn.clock event with none_read | ⟨nb, one_read⟩
        · rw [readsOf, none_read, List.append_nil] at unarmed
          exact absurd armed unarmed
        · have logged : readsOf (.ok conn) event = [{ time := conn.clock, nb }] := one_read
          rw [logged] at unarmed timely'
          obtain ⟨delivered, passed⟩ := armed.left_by_read unarmed
          obtain ⟨survivor, live'⟩ := Option.ne_none_iff_exists'.mp alive'
          have young : after.clock < conn.clock + SOCKET_TIMEOUT := by
            rw [clock_eq]
            exact Nat.lt_add_of_pos_right (by decide)
          obtain ⟨back, broken⟩ := timely'.breaks live' (passed.trans clock_eq.symm.le)
            (List.mem_append_right log List.mem_cons_self) delivered young
          refine ⟨event :: back, ?_⟩
          rw [along_cons_iff (timed_step log conn_step), one_read]
          exact fun along => broken along.2

end Broken

/-! ## A client that echoes a byte -/

section Served

variable (program : Program) (memory : Vector Byte TO_SEND_SIZE) (active : Time)

/-- A client found readable some time after its creation. -/
def busyConnection : Connection := { polledConnection 5 memory 0 with clock := 0 + active }

/-- The same client after a read of one byte that is sent back. -/
def servedConnection : Connection :=
  (((busyConnection memory active).register Watchers.recvInvoked).filled (freshClient 5 memory)
    [97]).accepted ((freshClient 5 memory).filled [97]) 1

theorem fires_served :
    Fires program (busyConnection memory active) (freshClient 5 memory)
      (.wcbRecv [.ok [97]] (.ok 1)) (servedConnection memory active) := by
  have bytes_le : [97].length ≤ (freshClient 5 memory).asked := by
    rw [freshClient_asked, TO_SEND_SIZE]
    decide
  have sent_le : 1 ≤ (freshClient 5 memory).toSendSize + [97].length := Nat.le_add_left 1 _
  have contract : ((busyConnection memory active).register Watchers.recvInvoked).RecvContract
      (.ok [97]) (.ok 1) := ⟨bytes_le, sent_le⟩
  have fires : Fires program (busyConnection memory active) (freshClient 5 memory)
      (.wcbRecv [.ok [97]] (.ok 1)) _ := .wcbRecv rfl rfl contract
  rwa [recvEffect, if_neg (by simp), EchoClient.compacted, if_neg (freshClient_roomy 5 memory)]
    at fires

theorem run_served :
    (timedSystem program).run (.ok (echoClientAdd 5 memory 0), [])
        [.tick active, .pollRecv, .wcbRecv [.ok [97]] (.ok 1)] =
      some (.ok (servedConnection memory active), [{ time := 0 + active, nb := .ok [97] }]) := by
  have front : (timedSystem program).run (.ok (echoClientAdd 5 memory 0), [])
      [.tick active, .pollRecv] = some (.ok (busyConnection memory active), []) := rfl
  have served := timed_step [] ((fires_served program memory active).next_eq rfl
    (freshClient_window 5 memory))
  have split : [Event.tick active, .pollRecv, .wcbRecv [.ok [97]] (.ok 1)] =
      [.tick active, .pollRecv] ++ [.wcbRecv [.ok [97]] (.ok 1)] := rfl
  rw [split, run_append, front, Option.bind_some]
  exact congrArg (fun state => state.bind fun next => some next) served

/-- A client that echoes a byte, finds nothing more to read and is deleted 60 seconds later. -/
def idleEvents : List Event :=
  [.tick active, .pollRecv, .wcbRecv [.ok [97]] (.ok 1), .pollRecv,
    .wcbRecv [.error .eagain] (.error .eagain), .tick SOCKET_TIMEOUT, .pollTimeout, .wcbTimeout]

theorem idle_steps :
    ∃ polled blocked waited expired after : Connection,
      (servedConnection memory active).next program .pollRecv = some (.ok polled) ∧
        polled.next program (.wcbRecv [.error .eagain] (.error .eagain)) = some (.ok blocked) ∧
        blocked.next program (.tick SOCKET_TIMEOUT) = some (.ok waited) ∧
        waited.next program .pollTimeout = some (.ok expired) ∧
        expired.next program .wcbTimeout = some (.ok after) ∧
        polled.clock = 0 + active ∧ after.client = none := by
  let client := ((freshClient 5 memory).filled [97]).consumed 1
  have window : client.Window :=
    ((freshClient_window 5 memory).filled (by simp [freshClient, TO_SEND_SIZE])).consumed
      (by simp [freshClient])
  let polled := (servedConnection memory active).register fun watchers =>
    { watchers with recv := { active := true, pending := true } }
  have polled_live : polled.client = some client := rfl
  have contract : (polled.register Watchers.recvInvoked).RecvContract (.error .eagain)
      (.error .eagain) := trivial
  have blocks : Fires program polled client (.wcbRecv [.error .eagain] (.error .eagain)) _ :=
    .wcbRecv rfl rfl contract
  let blocked := ((polled.register Watchers.recvInvoked).hold client.compacted).register
    (Watchers.timeoutAgain (0 + active))
  let waited : Connection := { blocked with clock := 0 + active + SOCKET_TIMEOUT }
  have waited_live : waited.client = some client.compacted := rfl
  let timeout : TimerWatcher :=
    { active := true
      pending := true
      deadline := max (waited.clock + SOCKET_TIMEOUT) waited.clock }
  let expired := waited.register fun watchers => { watchers with timeout }
  have due : waited.watchers.timeout.poll waited.clock SOCKET_TIMEOUT = some timeout :=
    if_pos ⟨rfl, le_rfl⟩
  have expires : Fires program waited client.compacted .pollTimeout expired := .pollTimeout due
  have deletes : Fires program expired client.compacted .wcbTimeout _ := .wcbTimeout rfl
  exact ⟨polled, blocked, waited, _, _, rfl, blocks.next_eq polled_live window, rfl,
    expires.next_eq waited_live window.compacted,
    deletes.next_eq rfl window.compacted, rfl, rfl⟩

theorem idleEvents_rearmed (early : active < SOCKET_TIMEOUT) :
    (∃ after log, (timedSystem program).run (.ok (echoClientAdd 5 memory 0), [])
        (idleEvents active) = some (.ok after, log) ∧ after.client = none) ∧
      (timedSystem program).Along (Rearmed 0) (.ok (echoClientAdd 5 memory 0), [])
        (idleEvents active) := by
  obtain ⟨polled, blocked, waited, expired, after, poll, block, wait, expire, delete, polled_clock,
    freed⟩ := idle_steps program memory active
  let waiting : Connection := { echoClientAdd 5 memory 0 with clock := 0 + active }
  let found : List Read := [{ time := 0 + active, nb := .ok [97] }]
  let blocks : List Read := found ++ [{ time := 0 + active, nb := .error .eagain }]
  have ticks : (timedSystem program).step (.ok (echoClientAdd 5 memory 0), []) (.tick active) =
      some (.ok waiting, []) := rfl
  have sees : (timedSystem program).step (.ok waiting, []) .pollRecv =
      some (.ok (busyConnection memory active), []) := rfl
  have serves : (timedSystem program).step (.ok (busyConnection memory active), [])
      (.wcbRecv [.ok [97]] (.ok 1)) = some (.ok (servedConnection memory active), found) :=
    timed_step [] ((fires_served program memory active).next_eq rfl (freshClient_window 5 memory))
  have polls : (timedSystem program).step (.ok (servedConnection memory active), found) .pollRecv =
      some (.ok polled, found) := timed_step found poll
  have reads : (timedSystem program).step (.ok polled, found)
      (.wcbRecv [.error .eagain] (.error .eagain)) = some (.ok blocked, blocks) := by
    rw [timed_step found block, polled_clock]
    rfl
  have waits : (timedSystem program).step (.ok blocked, blocks) (.tick SOCKET_TIMEOUT) =
      some (.ok waited, blocks) := timed_step blocks wait
  have expires : (timedSystem program).step (.ok waited, blocks) .pollTimeout =
      some (.ok expired, blocks) := timed_step blocks expire
  have deletes : (timedSystem program).step (.ok expired, blocks) .wcbTimeout =
      some (.ok after, blocks) := timed_step blocks delete
  have nothing : ∀ clock, RearmedAt 0 clock [] := fun _ _ member => by cases member
  have young : ∀ clock, clock = 0 + active → RearmedAt 0 clock found := by
    rintro clock rfl read - - -
    exact Nat.add_lt_add_left early 0
  have covered : ∀ clock, RearmedAt 0 clock blocks := by
    intro clock read member _ later
    have last : lastBlocked 0 blocks = 0 + active := rfl
    have times : ∀ read ∈ blocks, read.time = 0 + active := by simp [blocks, found]
    rw [last, times read member] at later
    exact absurd later (lt_irrefl _)
  constructor
  · refine ⟨after, blocks, ?_, freed⟩
    simp only [idleEvents, run_cons, run_nil, Option.bind_some, ticks, sees, serves, polls, reads,
      waits, expires, deletes]
  · rw [idleEvents, along_cons_iff ticks, along_cons_iff sees, along_cons_iff serves,
      along_cons_iff polls, along_cons_iff reads, along_cons_iff waits, along_cons_iff expires,
      along_cons_iff deletes]
    exact ⟨rearmed_ok (nothing _), rearmed_ok (nothing _), rearmed_ok (young _ rfl),
      rearmed_ok (young _ polled_clock), rearmed_ok (covered _), rearmed_ok (covered _),
      rearmed_ok (covered _), rearmed_ok (covered _), trivial⟩

end Served

/-! ## Whole runs -/

/-- As long as, in a run of one connection, data delivered to a live client is followed by a read
that would block within 60 seconds of the last such read or of the creation, the timer deletes the
client only when it has been idle for 60 seconds; and where a run leaves this condition its front
can go on to the deletion of a client that has not been idle. -/
theorem idle_deletion_or_breaks_later (program : Program) (sd : Nat)
    (memory : Vector Byte TO_SEND_SIZE) (now : Time) :
    (∀ events, (timedSystem program).Along (Rearmed now) (.ok (echoClientAdd sd memory now), [])
        events →
      (timedSystem program).Along IdleDeletion (.ok (echoClientAdd sd memory now), []) events) ∧
    ∀ front event state next,
      (timedSystem program).Along (Rearmed now) (.ok (echoClientAdd sd memory now), []) front →
      (timedSystem program).run (.ok (echoClientAdd sd memory now), []) front = some state →
      (timedSystem program).step state event = some next → ¬ Rearmed now state event next →
        ∃ back, ¬ (timedSystem program).Along IdleDeletion (.ok (echoClientAdd sd memory now), [])
          (front ++ back) := by
  have start := keepsUp_added sd memory now
  constructor
  · intro events along
    apply along.yields _ start
    rintro ⟨_, log⟩ event next ⟨conn, rfl, timely, rearmed⟩ step rearmed'
    exact ⟨timely.idleDeletion rearmed step, timely.keepsUp step rearmed'⟩
  · intro front event state next along execution step left
    have keeps : KeepsUp now state := by
      apply along.invariant _ start execution
      rintro ⟨_, log⟩ event next ⟨conn, rfl, timely, -⟩ step rearmed
      exact timely.keepsUp step rearmed
    obtain ⟨_, log⟩ := state
    obtain ⟨conn, rfl, timely, rearmed⟩ := keeps
    obtain ⟨back, broken⟩ := timely.breaks_of_step rearmed step left
    exact ⟨back, fun along => broken ((along_append_iff execution).mp along).2⟩

theorem idle_deletion_or_breaks_later_idle :
    (∃ after log, (timedSystem .serverHonest).run
        (.ok (echoClientAdd 5 (Vector.replicate TO_SEND_SIZE 0) 0), []) (idleEvents 30000000) =
          some (.ok after, log) ∧ after.client = none) ∧
      (timedSystem .serverHonest).Along IdleDeletion
        (.ok (echoClientAdd 5 (Vector.replicate TO_SEND_SIZE 0) 0), [])
        (idleEvents 30000000) := by
  obtain ⟨deleted, rearmed⟩ :=
    idleEvents_rearmed .serverHonest (Vector.replicate TO_SEND_SIZE 0) 30000000 (by decide)
  exact ⟨deleted,
    (idle_deletion_or_breaks_later .serverHonest 5 (Vector.replicate TO_SEND_SIZE 0) 0).1 _ rearmed⟩

/-! ## A busy client that is deleted -/

section Busy

variable (program : Program) (memory : Vector Byte TO_SEND_SIZE) (active silent : Time)

/-- A client echoes a byte some time after its creation, and its timer expires while it is
silent. -/
def busyEvents : List Event :=
  [.tick active, .pollRecv, .wcbRecv [.ok [97]] (.ok 1), .tick silent, .pollTimeout, .wcbTimeout]

/-- The client of `busyEvents` when its timer has expired. -/
def expiredConnection : Connection :=
  { servedConnection memory active with
    clock := 0 + active + silent
    watchers :=
      { (servedConnection memory active).watchers with
        timeout :=
          { active := true
            pending := true
            deadline := max (0 + SOCKET_TIMEOUT + SOCKET_TIMEOUT) (0 + active + silent) } } }

/-- The read does not move the deadline. -/
theorem run_expired (due : 0 + SOCKET_TIMEOUT ≤ 0 + active + silent) :
    (timedSystem program).run (.ok (echoClientAdd 5 memory 0), [])
        [.tick active, .pollRecv, .wcbRecv [.ok [97]] (.ok 1), .tick silent, .pollTimeout] =
      some (.ok (expiredConnection memory active silent),
        [{ time := 0 + active, nb := .ok [97] }]) := by
  have polled : (servedConnection memory active).watchers.timeout.poll (0 + active + silent)
      SOCKET_TIMEOUT = some (expiredConnection memory active silent).watchers.timeout :=
    if_pos ⟨rfl, due⟩
  have expired : ({ servedConnection memory active with clock := 0 + active + silent } :
      Connection).next program .pollTimeout =
        some (.ok (expiredConnection memory active silent)) := by
    simp only [Connection.next]
    rw [polled]
    rfl
  have split : [Event.tick active, .pollRecv, .wcbRecv [.ok [97]] (.ok 1), .tick silent,
      .pollTimeout] = [.tick active, .pollRecv, .wcbRecv [.ok [97]] (.ok 1)] ++
        .tick silent :: [.pollTimeout] := rfl
  rw [split, run_append, run_served, Option.bind_some, run_cons]
  exact congrArg (fun state => state.bind fun next => some next) (timed_step _ expired)

theorem expired_deleted :
    (expiredConnection memory active silent).next program .wcbTimeout =
      some (.ok (((expiredConnection memory active silent).register
        Watchers.timeoutInvoked).deleted 5)) := by
  have live : ((expiredConnection memory active silent).register Watchers.timeoutInvoked).client =
      some (((freshClient 5 memory).filled [97]).consumed 1) := rfl
  exact congrArg some (echoClientDel_eq live)

/-- A client that was silent for less than 60 seconds is deleted. -/
theorem not_idleDeletion (due : 0 + SOCKET_TIMEOUT ≤ 0 + active + silent)
    (short : silent < SOCKET_TIMEOUT) :
    ¬ (timedSystem program).Along IdleDeletion (.ok (echoClientAdd 5 memory 0), [])
      (busyEvents active silent) := by
  intro along
  have idle := along_iff.mp along
    [.tick active, .pollRecv, .wcbRecv [.ok [97]] (.ok 1), .tick silent, .pollTimeout]
    .wcbTimeout []
    _ _ rfl (run_expired program memory active silent due)
    (timed_step _ (expired_deleted program memory active silent))
  have old := idle rfl _ _ rfl rfl rfl _ List.mem_cons_self ⟨[97], rfl, by simp⟩
  have young : 0 + active + silent < 0 + active + SOCKET_TIMEOUT := Nat.add_lt_add_left short _
  exact absurd old (Nat.not_le.mpr young)

end Busy

/-- Both servers delete a client that received and echoed a byte 59 seconds ago. -/
theorem busy_client_deleted :
    ¬ (timedSystem .serverHonest).Along IdleDeletion
        (.ok (echoClientAdd 5 (Vector.replicate TO_SEND_SIZE 0) 0), [])
        (busyEvents 1000000 59000000) ∧
      ¬ (timedSystem .threadHonest).Along IdleDeletion
        (.ok (echoClientAdd 5 (Vector.replicate TO_SEND_SIZE 0) 0), [])
        (busyEvents 1000000 59000000) := by
  have due : 0 + SOCKET_TIMEOUT ≤ 0 + 1000000 + 59000000 := by decide
  have short : 59000000 < SOCKET_TIMEOUT := by decide
  exact ⟨not_idleDeletion _ _ _ _ due short, not_idleDeletion _ _ _ _ due short⟩

end Mrps.Honest
