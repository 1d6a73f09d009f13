import Mrps.Load.Process

/-!
# Failures in the statistics

`wcb_recv` counts a time before it looks at what `recv` returned, and measures it from a `ts` that
is zero until the first `client_send`.  The statistics are right exactly as long as every call of it
delivers bytes to a client that has sent some, as far as a `size_t` counts.
-/

namespace Mrps.Load

open EventSystem

/-- The replies a step of the process receives: the index of a client whose `recv` delivered at
least one byte, if bytes of a request of that client had been sent. -/
def measured : Except Fault Process → ProcessEvent → List Nat
  | .ok process, .client index (.wcbRecv recv) =>
      match process.clients[index]?, auxUnixRecv recv with
      | some entry, some (.ok (_ :: _)) => if entry.conn.wire = [] then [] else [index]
      | _, _ => []
  | _, _ => []

/-- The runs of the process with the log of the replies received. -/
abbrev measuringSystem : EventSystem (Except Fault Process × List Nat) ProcessEvent :=
  processSystem.logged measured

/-- After the step `times_count` is the number of replies received; a step that receives none leaves
the other statistics alone; and a client whose `recv` returned 0 is deleted. -/
structure TrueStatistics (state : Except Fault Process × List Nat) (event : ProcessEvent)
    (next : Except Fault Process × List Nat) : Prop where
  count : ∀ after, next.1 = .ok after → after.times.timesCount = next.2.length
  unchanged : measured state.1 event = [] → ∀ process after, state.1 = .ok process →
    next.1 = .ok after → after.times.timesSum = process.times.timesSum ∧
      after.times.timesMin = process.times.timesMin ∧ after.times.timesMax = process.times.timesMax
  finished : ∀ index recv after entry, event = .client index (.wcbRecv recv) →
    auxUnixRecv recv = some (.ok []) → next.1 = .ok after → after.clients[index]? = some entry →
      entry.conn.client = none

/-- A `wcb_recv` delivers at least one byte, to a client of whose requests bytes have been sent, and
a `size_t` can count the reply. -/
def DeliversReplies (state : Except Fault Process × List Nat) (event : ProcessEvent)
    (_ : Except Fault Process × List Nat) : Prop :=
  ∀ process index recv entry, state.1 = .ok process → event = .client index (.wcbRecv recv) →
    process.clients[index]? = some entry →
      ((∃ bytes, auxUnixRecv recv = some (.ok bytes) ∧ bytes ≠ []) ∧ entry.conn.wire ≠ []) ∧
        state.2.length + 1 < 2 ^ 64

/-- Only `wcb_recv` touches the statistics, and it counts one time. -/
theorem Fires.times {session next : Session} {client : Client} {event : Event}
    (fires : Fires session client event next) :
    (∃ recv, event = .wcbRecv recv ∧
        next.times.timesCount = (session.times.timesCount + 1) % 2 ^ 64) ∨
      (∀ recv, event ≠ .wcbRecv recv) ∧ next.times = session.times := by
  cases fires with
  | tick => exact .inr ⟨by simp, rfl⟩
  | pollRecv => exact .inr ⟨by simp, rfl⟩
  | pollSend => exact .inr ⟨by simp, rfl⟩
  | pollConnect => exact .inr ⟨by simp, rfl⟩
  | pollTimeout => exact .inr ⟨by simp, rfl⟩
  | @wcbRecv recv nb =>
      refine .inl ⟨recv, rfl, ?_⟩
      rcases nb with (_ | _ | _) | bytes
      · rfl
      · rfl
      · rfl
      · rfl
  | wcbSend _ bursts => exact .inr ⟨by simp, bursts.unread.2⟩
  | wcbConnect readable => exact .inr ⟨by simp, by cases readable <;> rfl⟩
  | wcbTimeout => exact .inr ⟨by simp, rfl⟩

/-- Among the calls of `wcb_recv` those that deliver a reply are the ones that are noted. -/
theorem measured_wcbRecv {process : Process} {index : Nat} {recv : List RecvAnswer} {entry : Added}
    (found : process.clients[index]? = some entry) :
    (measured (.ok process) (.client index (.wcbRecv recv))).length = 1 ↔
      (∃ bytes, auxUnixRecv recv = some (.ok bytes) ∧ bytes ≠ []) ∧ entry.conn.wire ≠ [] := by
  rcases returned : auxUnixRecv recv with _ | _ | _ | ⟨first, rest⟩
  · simp [measured, found, returned]
  · simp [measured, found, returned]
  · simp [measured, found, returned]
  · by_cases unsent : entry.conn.wire = []
    · simp [measured, found, returned, unsent]
    · simp [measured, found, returned, unsent]

theorem measured_eq_nil {state : Except Fault Process} {event : ProcessEvent}
    (other : ∀ index recv, event ≠ .client index (.wcbRecv recv)) : measured state event = [] := by
  unfold measured
  split
  · exact absurd rfl (other _ _)
  · rfl

/-- A healthy process that has counted the replies. -/
def Counted (state : Except Fault Process × List Nat) : Prop :=
  Healthy state.1 ∧ ∀ process, state.1 = .ok process →
    process.times.timesCount = state.2.length

theorem TrueStatistics.of_unmeasured {process after : Process} {log : List Nat}
    {event : ProcessEvent} (counted : process.times.timesCount = log.length)
    (other : ∀ index recv, event ≠ .client index (.wcbRecv recv))
    (times : after.times = process.times) :
    TrueStatistics (.ok process, log) event (.ok after, log ++ measured (.ok process) event) := by
  refine ⟨?_, ?_, ?_⟩
  · rintro _ ⟨⟩
    rw [times, counted, measured_eq_nil other, List.append_nil]
  · rintro - _ _ ⟨⟩ ⟨⟩
    rw [times]
    exact ⟨rfl, rfl, rfl⟩
  · intro index recv _ _ event_eq
    exact absurd event_eq (other index recv)

/-- A call of `wcb_recv` keeps the statistics right exactly when it delivers a reply and the count
does not wrap. -/
theorem trueStatistics_wcbRecv {process : Process} {log : List Nat} {index : Nat}
    {recv : List RecvAnswer} {entry : Added} {next : Session}
    (counted : process.times.timesCount = log.length)
    (found : process.clients[index]? = some entry)
    (once : next.times.timesCount = (process.times.timesCount + 1) % 2 ^ 64) :
    TrueStatistics (.ok process, log) (.client index (.wcbRecv recv))
        (.ok (process.update index entry next),
          log ++ measured (.ok process) (.client index (.wcbRecv recv))) ↔
      ((∃ bytes, auxUnixRecv recv = some (.ok bytes) ∧ bytes ≠ []) ∧ entry.conn.wire ≠ []) ∧
        log.length + 1 < 2 ^ 64 := by
  rw [← measured_wcbRecv found]
  constructor
  · intro statistics
    have count : next.times.timesCount = (log ++ measured (.ok process) _).length :=
      statistics.count _ rfl
    rw [once, counted, List.length_append] at count
    -- A count that wrapped would be below the replies noted before.
    omega
  · rintro ⟨noted, fits⟩
    refine ⟨?_, ?_, ?_⟩
    · rintro _ ⟨⟩
      change next.times.timesCount = _
      rw [once, counted, List.length_append, noted, Nat.mod_eq_of_lt fits]
    · intro unmeasured
      simp only [unmeasured, List.length_nil] at noted
      cases noted
    · rintro _ _ _ _ ⟨⟩ zero
      obtain ⟨⟨bytes, returned, nonempty⟩, -⟩ := (measured_wcbRecv found).mp noted
      rw [zero] at returned
      cases returned
      exact absurd rfl nonempty

theorem Counted.exact {state next : Except Fault Process × List Nat} {event : ProcessEvent}
    (good : Counted state) (step : measuringSystem.step state event = some next) :
    TrueStatistics state event next ↔ DeliversReplies state event next := by
  obtain ⟨state, log⟩ := state
  obtain ⟨healthy, counts⟩ := good
  obtain ⟨result, taken, rfl⟩ := (logged_step_iff _).mp step
  cases state with
  | error fault => exact healthy.elim
  | ok process =>
      have process_step : process.next event = some result := taken
      have counted := counts process rfl
      have others : ∀ {after : Process},
          (∀ index recv, event ≠ .client index (.wcbRecv recv)) → after.times = process.times →
            (TrueStatistics (.ok process, log) event
              (.ok after, log ++ measured (.ok process) event) ↔
              DeliversReplies (.ok process, log) event
                (.ok after, log ++ measured (.ok process) event)) := by
        intro after other times
        refine iff_of_true (.of_unmeasured counted other times) ?_
        rintro _ index recv _ ⟨⟩ event_eq
        exact absurd event_eq (other index recv)
      rcases Process.next_cases healthy process_step with ⟨after, rfl, idles, -, no_client⟩ |
        ⟨answer, rfl, -, rfl⟩ | ⟨index, change, entry, after, rfl, found, client_step, kept, -, rfl⟩
      · exact others (fun index recv => no_client index _) idles.times
      · apply others (by simp)
        rw [Process.wcbSilent]
        split
        · rfl
        · cases answer with
          | noMemory | noSocket | blocking | refused | added => rfl
      · have kept' : Kept entry.sd (process.session entry).conn := kept
        obtain ⟨_, same, -, ⟨-, elapsed, rfl, rfl⟩ | ⟨client, -, fires⟩⟩ :=
          kept'.taken client_step
        · obtain rfl := Except.ok.inj same
          exact others (by simp) rfl
        · obtain rfl := Except.ok.inj same
          rcases fires.times with ⟨recv, rfl, once⟩ | ⟨other, times⟩
          · rw [trueStatistics_wcbRecv counted found once]
            constructor
            · rintro delivers _ _ _ _ ⟨⟩ ⟨⟩ found'
              obtain rfl := Option.some.inj (found.symm.trans found')
              exact delivers
            · intro delivers
              exact delivers process index recv entry rfl rfl found
          · apply others _ times
            intro index' recv event_eq
            cases event_eq
            exact other recv rfl

theorem Counted.kept {state next : Except Fault Process × List Nat} {event : ProcessEvent}
    (good : Counted state) (step : measuringSystem.step state event = some next)
    (statistics : TrueStatistics state event next) : Counted next := by
  obtain ⟨result, taken, rfl⟩ := (logged_step_iff _).mp step
  exact ⟨healthy_preserved _ _ _ good.1 taken, statistics.count⟩

/-- Along every run of the load generator, with any number of clients, the statistics count the
replies and nothing else, and a client whose `recv` returned 0 is deleted, exactly if every
`wcb_recv` delivers at least one byte to a client that has sent bytes of a request, and fewer than
2^64 of them do. -/
theorem true_statistics_iff (now : Time) (events : List ProcessEvent) :
    measuringSystem.Along TrueStatistics (.ok (.initial now), []) events ↔
      measuringSystem.Along DeliversReplies (.ok (.initial now), []) events := by
  have start : Counted (.ok (.initial now), []) := by
    refine ⟨by simp [Healthy, Process.initial], ?_⟩
    rintro process ⟨⟩
    rfl
  apply along_exact _ _ start
  · intro state event next good step
    exact good.exact step
  · intro state event next good step delivers
    exact good.kept step ((good.exact step).mpr delivers)

/-- The only client connects, and before it sends anything the server closes the connection. -/
def closedByServer : List ProcessEvent :=
  [.tick 1000, .pollSilent, .wcbSilent (.added 7), .client 0 .pollConnect,
    .client 0 (.wcbConnect false), .client 0 .pollRecv, .client 0 (.wcbRecv [.ok []])]

/-- A `recv` that returns 0 before anything was sent is counted, with the time since the start of
the clock, and leaves its client registered for reading. -/
theorem closed_by_server_counted :
    (∃ process entry client,
        processSystem.run (.ok (.initial 0)) closedByServer = some (.ok process) ∧
        process.clients = [entry] ∧ entry.conn.client = some client ∧
        entry.conn.watchers.recv.active = true ∧ entry.conn.received = [] ∧
        entry.conn.wire = [] ∧ process.times.timesCount = 1 ∧ process.times.timesSum = 1000) ∧
      ¬ measuringSystem.Along TrueStatistics (.ok (.initial 0), []) closedByServer := by
  constructor
  · exact ⟨_, _, _, rfl, rfl, rfl, rfl, rfl, rfl, rfl, rfl⟩
  · intro along
    have statistics := along_iff.mp along closedByServer.dropLast
      (.client 0 (.wcbRecv [.ok []])) [] _ _ rfl rfl rfl
    cases statistics.count _ rfl

end Mrps.Load
