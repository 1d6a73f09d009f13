import Mathlib.Data.List.GetD
import Mrps.Load.Process

/-!
# What the load generator measures

`wcb_recv` counts one time for each call, measured from the last send.  Against a server that
echoes, reply number `i` answers the request whose first byte is byte `3 * i` of the wire, and it is
complete with byte `3 * i + 2` received.  The two accounts agree exactly on the runs in which every
`wcb_recv` completes one reply and nothing was sent at a later time than the request it answers, as
far as a `size_t` counts.
-/

namespace Mrps.Load

open EventSystem

/-- What is noted of a run beside its states. -/
inductive Note where
  /-- A `client_send`, with the time of the loop. -/
  | request (time : Time)
  /-- A byte received, with the time of the loop. -/
  | arrival (time : Time)
  deriving DecidableEq, Repr

/-- The times of the `client_send` calls. -/
def requests (notes : List Note) : List Time :=
  notes.filterMap fun
    | .request time => some time
    | .arrival _ => none

/-- The times at which bytes were received. -/
def arrivals (notes : List Note) : List Time :=
  notes.filterMap fun
    | .request _ => none
    | .arrival time => some time

/-- What one step adds to the notes. -/
def noted : Except Fault Session → Event → List Note
  | .ok session, .wcbSend send => send.map fun _ => .request session.clock
  | .ok session, .wcbRecv recv =>
      match auxUnixRecv recv with
      | some (.ok bytes) => bytes.map fun _ => .arrival session.clock
      | _ => []
  | _, _ => []

/-- The runs of one client with their notes. -/
abbrev timed : EventSystem (Except Fault Session × List Note) Event := sessionSystem.logged noted

/-- When each byte on the wire was sent. -/
def stamps (session : Session) : List Time := session.conn.wire.map Prod.snd

/-- The number of complete replies received. -/
def replies (session : Session) : Nat := session.conn.received.length / REQUEST.length

/-- The time from the `client_send` of a request to the `wcb_recv` that completed its reply. -/
def latency (stamps arrivals : List Time) (reply : Nat) : Int :=
  arrivals.getD (3 * reply + 2) 0 - stamps.getD (3 * reply) 0

/-- The sum over the first replies. -/
def totalLatency (stamps arrivals : List Time) : Nat → Int
  | 0 => 0
  | reply + 1 => totalLatency stamps arrivals reply + latency stamps arrivals reply

/-- The statistics count every reply once, with its latency. -/
def Timed (session : Session) (notes : List Note) : Prop :=
  session.times.timesCount = replies session ∧
    session.times.timesSum = totalLatency (stamps session) (arrivals notes) (replies session)

/-- After a `wcb_recv` the statistics are right. -/
def MeasuresReplies (_ : Except Fault Session × List Note) (event : Event)
    (after : Except Fault Session × List Note) : Prop :=
  ∀ session recv, after.1 = .ok session → event = .wcbRecv recv → Timed session after.2

/-- The server sends back what is on the wire, in order, and never closes: a `recv` finds some of it
or nothing yet. -/
def ServerEchoes (before : Except Fault Session × List Note) (event : Event)
    (_ : Except Fault Session × List Note) : Prop :=
  ∀ session recv nb, before.1 = .ok session → event = .wcbRecv recv → auxUnixRecv recv = some nb →
    nb = .error .eagain ∨ ∃ bytes, nb = .ok bytes ∧ bytes ≠ [] ∧
      session.conn.received ++ bytes <+: session.conn.wire.map Prod.fst

/-- A `wcb_recv` completes exactly one reply, which a `size_t` can count, and the last `client_send`
ran at the time of the one whose request is answered. -/
def AnswersLast (before : Except Fault Session × List Note) (event : Event)
    (_ : Except Fault Session × List Note) : Prop :=
  ∀ session recv, before.1 = .ok session → event = .wcbRecv recv →
    ∃ bytes, auxUnixRecv recv = some (.ok bytes) ∧
      (session.conn.received.length + bytes.length) / REQUEST.length = replies session + 1 ∧
      replies session + 1 < 2 ^ 64 ∧
      (requests before.2).getLastD 0 = (stamps session).getD (3 * replies session) 0

@[simp] theorem requests_append (front back : List Note) :
    requests (front ++ back) = requests front ++ requests back :=
  List.filterMap_append

@[simp] theorem arrivals_append (front back : List Note) :
    arrivals (front ++ back) = arrivals front ++ arrivals back :=
  List.filterMap_append

theorem requests_map_request {α : Type} (marks : List α) (time : Time) :
    requests (marks.map fun _ => .request time) = List.replicate marks.length time := by
  induction marks with
  | nil => rfl
  | cons mark marks ih =>
      rw [List.length_cons, List.replicate_succ, ← ih]
      rfl

theorem arrivals_map_request {α : Type} (marks : List α) (time : Time) :
    arrivals (marks.map fun _ => .request time) = [] := by
  induction marks with
  | nil => rfl
  | cons mark marks ih => exact ih

theorem requests_map_arrival {α : Type} (marks : List α) (time : Time) :
    requests (marks.map fun _ => .arrival time) = [] := by
  induction marks with
  | nil => rfl
  | cons mark marks ih => exact ih

theorem arrivals_map_arrival {α : Type} (marks : List α) (time : Time) :
    arrivals (marks.map fun _ => .arrival time) = List.replicate marks.length time := by
  induction marks with
  | nil => rfl
  | cons mark marks ih =>
      rw [List.length_cons, List.replicate_succ, ← ih]
      rfl

theorem getLastD_append {α : Type} (front back : List α) (fallback : α) :
    (front ++ back).getLastD fallback = back.getLastD (front.getLastD fallback) := by
  induction front generalizing fallback with
  | nil => rfl
  | cons first front ih => rw [List.cons_append, List.getLastD_cons, List.getLastD_cons, ih]

/-- Later bytes do not change the latencies of complete replies. -/
theorem totalLatency_append {sent received : List Time} {count : Nat}
    (moreSent moreReceived : List Time) (on_wire : 3 * count ≤ sent.length)
    (complete : 3 * count ≤ received.length) :
    totalLatency (sent ++ moreSent) (received ++ moreReceived) count =
      totalLatency sent received count := by
  induction count with
  | zero => rfl
  | succ count ih =>
      rw [totalLatency, totalLatency, ih (by omega) (by omega), latency, latency,
        List.getD_append _ _ _ _ (by omega), List.getD_append _ _ _ _ (by omega)]

/-- What holds between the callbacks while the statistics are right. -/
structure Measured (session : Session) (notes : List Note) : Prop where
  timed : Timed session notes
  arrived : (arrivals notes).length = session.conn.received.length
  echoed : session.conn.received.length ≤ session.conn.wire.length
  last : ∀ client, session.conn.client = some client → client.ts = (requests notes).getLastD 0

section Steps

variable {session next : Session} {client : Client} {notes : List Note}

theorem replies_le (session : Session) : 3 * replies session ≤ session.conn.received.length :=
  Nat.mul_div_le session.conn.received.length 3

theorem Measured.idle (measured : Measured session notes) (times : next.times = session.times)
    (wire : next.conn.wire = session.conn.wire)
    (received : next.conn.received = session.conn.received)
    (same : ∀ later, next.conn.client = some later →
      ∃ client, session.conn.client = some client ∧ later.ts = client.ts) :
    Measured next (notes ++ []) := by
  rw [List.append_nil]
  refine ⟨?_, received ▸ measured.arrived, received ▸ wire ▸ measured.echoed, ?_⟩
  · rw [Timed, times, replies, received, stamps, wire]
    exact measured.timed
  · intro later live
    obtain ⟨client, was_live, ts⟩ := same later live
    exact ts.trans (measured.last client was_live)

theorem Measured.bursts {send : List SendAnswer} (measured : Measured session notes)
    (live : session.conn.client = some client) (bursts : Bursts session client send next) :
    Measured next (notes ++ send.map fun _ => .request session.clock) := by
  obtain ⟨received, times⟩ := bursts.unread
  have echoed := measured.echoed
  refine ⟨?_, ?_, ?_, ?_⟩
  · obtain ⟨count, sum⟩ := measured.timed
    have read := replies_le session
    have on_wire : (stamps session).length = session.conn.wire.length := List.length_map _
    have arrived := measured.arrived
    have same := totalLatency_append
      (((send.flatMap taken).map fun byte => (byte, session.clock)).map Prod.snd) []
      (on_wire ▸ read.trans echoed) (arrived ▸ read)
    rw [Timed, times, replies, received, stamps, bursts.wire, List.map_append, arrivals_append,
      arrivals_map_request]
    exact ⟨count, sum.trans same.symm⟩
  · rw [arrivals_append, arrivals_map_request, List.append_nil, received]
    exact measured.arrived
  · rw [received, bursts.wire, List.length_append]
    omega
  · intro later live'
    rw [requests_append, requests_map_request, getLastD_append, bursts.ts live live',
      measured.last client live]

theorem arrivals_last {received count : Nat} {old : List Time} (now : Time)
    (arrived : old.length = received)
    (one : (received + count) / REQUEST.length = received / REQUEST.length + 1) :
    (old ++ List.replicate count now).getD (3 * (received / REQUEST.length) + 2) 0 = now := by
  have three : REQUEST.length = 3 := rfl
  rw [three] at one ⊢
  rw [List.getD_append_right _ _ _ _ (by omega), List.getD_replicate _ (by omega)]

/-- The time a `wcb_recv` counts is right exactly if it completes one reply, the count does not wrap
and nothing was sent since the request it answers. -/
theorem Measured.delivered_iff {bytes : List Byte} (measured : Measured session notes)
    (live : session.conn.client = some client) :
    Timed ((session.counted (session.clock - client.ts)).delivered bytes)
        (notes ++ bytes.map fun _ => .arrival session.clock) ↔
      (session.conn.received.length + bytes.length) / REQUEST.length = replies session + 1 ∧
        replies session + 1 < 2 ^ 64 ∧
        (requests notes).getLastD 0 = (stamps session).getD (3 * replies session) 0 := by
  obtain ⟨count, sum⟩ := measured.timed
  have read := replies_le session
  have on_wire : (stamps session).length = session.conn.wire.length := List.length_map _
  have grown : replies ((session.counted (session.clock - client.ts)).delivered bytes) =
      (session.conn.received.length + bytes.length) / REQUEST.length := by
    rw [replies, ← List.length_append]
    rfl
  have stamped : stamps ((session.counted (session.clock - client.ts)).delivered bytes) =
      stamps session := rfl
  have counts : ((session.counted (session.clock - client.ts)).delivered bytes).times.timesCount =
      (session.times.timesCount + 1) % 2 ^ 64 := rfl
  have sums : ((session.counted (session.clock - client.ts)).delivered bytes).times.timesSum =
      session.times.timesSum + (session.clock - client.ts) := rfl
  have earlier : totalLatency (stamps session)
      (arrivals notes ++ List.replicate bytes.length session.clock) (replies session) =
        session.times.timesSum := by
    have same := totalLatency_append [] (List.replicate bytes.length session.clock)
      (on_wire ▸ read.trans measured.echoed) (measured.arrived ▸ read)
    rw [List.append_nil] at same
    exact same.trans sum.symm
  rw [Timed, grown, stamped, counts, sums, arrivals_append, arrivals_map_arrival, count,
    ← measured.last client live]
  constructor
  · rintro ⟨once, total⟩
    have later : replies session ≤ (session.conn.received.length + bytes.length) / REQUEST.length :=
      Nat.div_le_div_right (Nat.le_add_right _ _)
    -- A count that wrapped would be below the replies received before.
    have fits : replies session + 1 < 2 ^ 64 := by omega
    rw [Nat.mod_eq_of_lt fits] at once
    refine ⟨once.symm, fits, ?_⟩
    rw [← once, totalLatency, earlier, latency, replies,
      arrivals_last session.clock measured.arrived once.symm] at total
    have same : (client.ts : Int) = ((stamps session).getD (3 * replies session) 0 : Nat) := by
      rw [replies]
      omega
    exact_mod_cast same
  · rintro ⟨one, fits, same⟩
    refine ⟨(Nat.mod_eq_of_lt fits).trans one.symm, ?_⟩
    rw [one, totalLatency, earlier, latency, replies,
      arrivals_last session.clock measured.arrived one, same]
    rfl

theorem Measured.not_timed_idle (measured : Measured session notes) (time : Int) :
    ¬ Timed (session.counted time) (notes ++ []) := by
  rintro ⟨count, -⟩
  have before := measured.timed.1
  have counts : (session.counted time).times.timesCount =
      (session.times.timesCount + 1) % 2 ^ 64 := rfl
  have same : replies (session.counted time) = replies session := rfl
  omega

theorem Measured.register (measured : Measured session notes) (call : Watchers → Watchers) :
    Measured (session.register call) notes :=
  ⟨measured.timed, measured.arrived, measured.echoed, measured.last⟩

theorem noted_delivered {recv : List RecvAnswer} {bytes : List Byte}
    (returned : auxUnixRecv recv = some (.ok bytes)) :
    noted (.ok session) (.wcbRecv recv) = bytes.map fun _ => .arrival session.clock := by
  simp [noted, returned]

theorem noted_blocked {recv : List RecvAnswer}
    (returned : auxUnixRecv recv = some (.error .eagain)) :
    noted (.ok session) (.wcbRecv recv) = [] := by
  simp [noted, returned]

theorem Measured.delivered {bytes : List Byte} (measured : Measured session notes)
    (live : session.conn.client = some client)
    (echoed : session.conn.received ++ bytes <+: session.conn.wire.map Prod.fst)
    (one : (session.conn.received.length + bytes.length) / REQUEST.length = replies session + 1)
    (fits : replies session + 1 < 2 ^ 64)
    (last : (requests notes).getLastD 0 = (stamps session).getD (3 * replies session) 0) :
    Measured ((session.counted (session.clock - client.ts)).delivered bytes)
      (notes ++ bytes.map fun _ => .arrival session.clock) := by
  refine ⟨(measured.delivered_iff live).mpr ⟨one, fits, last⟩, ?_, ?_, ?_⟩
  · rw [arrivals_append, arrivals_map_arrival, List.length_append, List.length_replicate,
      measured.arrived, ← List.length_append]
    rfl
  · have short := echoed.length_le
    rw [List.length_map] at short
    exact short
  · intro later live'
    rw [requests_append, requests_map_arrival, List.append_nil]
    exact measured.last later live'

theorem Measured.fires {event : Event} {after : Except Fault Session × List Note}
    (measured : Measured session notes) (live : session.conn.client = some client)
    (fires : Fires session client event next)
    (echoes : ServerEchoes (.ok session, notes) event after)
    (answers : AnswersLast (.ok session, notes) event after) :
    Measured next (notes ++ noted (.ok session) event) := by
  have as_before : ∀ later, session.conn.client = some later →
      ∃ client, session.conn.client = some client ∧ later.ts = client.ts :=
    fun later live => ⟨later, live, rfl⟩
  cases fires with
  | tick => exact measured.idle rfl rfl rfl as_before
  | pollRecv => exact measured.idle rfl rfl rfl as_before
  | pollSend => exact measured.idle rfl rfl rfl as_before
  | pollConnect => exact measured.idle rfl rfl rfl as_before
  | pollTimeout => exact measured.idle rfl rfl rfl as_before
  | @wcbRecv recv nb _ returned =>
      obtain ⟨bytes, delivers, one, fits, last⟩ := answers session recv rfl rfl
      obtain rfl : nb = .ok bytes := Option.some.inj (returned.symm.trans delivers)
      rcases echoes session recv _ rfl rfl returned with contrary | ⟨_, ⟨⟩, -, echoed⟩
      · cases contrary
      · rw [noted_delivered returned]
        exact (measured.register Watchers.recvInvoked).delivered live echoed one fits last
  | wcbSend _ bursts => exact (measured.register Watchers.sendInvoked).bursts live bursts
  | wcbConnect readable =>
      cases readable with
      | true => exact measured.idle rfl rfl rfl fun _ held => by cases held
      | false =>
          refine measured.idle rfl rfl rfl ?_
          rintro _ ⟨⟩
          exact ⟨client, live, rfl⟩
  | wcbTimeout =>
      refine measured.idle rfl rfl rfl ?_
      rintro _ ⟨⟩
      exact ⟨client, live, rfl⟩

/-- A `wcb_recv` that leaves the statistics right meets the condition. -/
theorem Measured.answers {recv : List RecvAnswer} {after : Except Fault Session × List Note}
    (measured : Measured session notes) (live : session.conn.client = some client)
    (fires : Fires session client (.wcbRecv recv) next)
    (echoes : ServerEchoes (.ok session, notes) (.wcbRecv recv) after)
    (right : Timed next (notes ++ noted (.ok session) (.wcbRecv recv))) :
    AnswersLast (.ok session, notes) (.wcbRecv recv) after := by
  rintro _ _ ⟨⟩ ⟨⟩
  have invoked := measured.register Watchers.recvInvoked
  cases fires with
  | @wcbRecv _ nb _ returned =>
      rcases echoes session recv nb rfl rfl returned with rfl | ⟨bytes, rfl, -, echoed⟩
      · rw [noted_blocked returned] at right
        exact absurd right (invoked.not_timed_idle _)
      · rw [noted_delivered returned] at right
        exact ⟨bytes, returned, (invoked.delivered_iff live).mp right⟩

end Steps

/-! ## Runs -/

/-- A kept client whose replies were all counted right. -/
def Attributed (sd : Nat) : Except Fault Session × List Note → Prop
  | (.ok session, notes) => Kept sd session.conn ∧ Measured session notes
  | (.error _, _) => False

section Runs

variable {sd : Nat} {event : Event} {state after : Except Fault Session × List Note}

theorem Attributed.kept (good : Attributed sd state) (step : timed.step state event = some after)
    (echoes : ServerEchoes state event after) (answers : AnswersLast state event after) :
    Attributed sd after := by
  obtain ⟨_ | session, notes⟩ := state
  · exact good.elim
  · obtain ⟨kept, measured⟩ := good
    obtain ⟨result, taken, rfl⟩ := (logged_step_iff _).mp step
    obtain ⟨next, rfl, kept', ⟨-, elapsed, rfl, rfl⟩ | ⟨client, live, fires⟩⟩ := kept.taken taken
    · exact ⟨kept', measured.idle rfl rfl rfl fun later live => ⟨later, live, rfl⟩⟩
    · exact ⟨kept', measured.fires live fires echoes answers⟩

theorem Attributed.exact (good : Attributed sd state) (step : timed.step state event = some after)
    (echoes : ServerEchoes state event after) :
    MeasuresReplies state event after ↔ AnswersLast state event after := by
  constructor
  · intro measures session recv same is_recv
    obtain ⟨_, notes⟩ := state
    obtain rfl := same
    obtain rfl := is_recv
    obtain ⟨kept, measured⟩ := good
    obtain ⟨result, session_step, rfl⟩ := (logged_step_iff _).mp step
    have taken : session.next (.wcbRecv recv) = some result := session_step
    obtain ⟨next, rfl, -, ⟨-, elapsed, contrary, -⟩ | ⟨client, live, fires⟩⟩ := kept.taken taken
    · cases contrary
    · exact measured.answers live fires echoes (measures next recv rfl rfl) session recv rfl rfl
  · intro answers session recv same is_recv
    have good_after := good.kept step echoes answers
    obtain ⟨_, notes⟩ := after
    obtain rfl := same
    exact good_after.2.timed

end Runs

theorem start_measured (sd : Nat) (now : Time) : Measured (.start sd now .initial) [] := by
  have none_yet : replies (.start sd now .initial) = 0 := Nat.zero_div REQUEST.length
  refine ⟨?_, rfl, Nat.le_refl 0, ?_⟩
  · rw [Timed, none_yet]
    exact ⟨rfl, rfl⟩
  · rintro client ⟨⟩
    rfl

/-- In every run of one client against a server that echoes: after every `wcb_recv` the statistics
count each reply once with its own latency, exactly if every `wcb_recv` completes one reply, one of
fewer than 2^64, and finds that the last `client_send` ran at the time of the one it answers. -/
theorem latency_right_iff (sd : Nat) (now : Time) (events : List Event)
    (echoes : timed.Along ServerEchoes (.ok (.start sd now .initial), []) events) :
    timed.Along MeasuresReplies (.ok (.start sd now .initial), []) events ↔
      timed.Along AnswersLast (.ok (.start sd now .initial), []) events := by
  have start : Attributed sd (.ok (.start sd now .initial), []) :=
    ⟨clientAdd_kept sd now, start_measured sd now⟩
  exact echoes.exact (fun _ _ _ good step given => good.exact step given)
    (fun _ _ _ good step given answers => good.kept step given answers) start

/-- One request, whose reply arrives in two parts. -/
def parted : List Event :=
  [.pollConnect, .wcbConnect false, .pollSend, .wcbSend [.ok 3], .pollRecv, .wcbRecv [.ok [49]]]

theorem echoes_cons {state next : Except Fault Session × List Note} {event : Event}
    {events : List Event} (step : timed.step state event = some next)
    (other : ∀ recv, event ≠ .wcbRecv recv) (along : timed.Along ServerEchoes next events) :
    timed.Along ServerEchoes state (event :: events) := by
  intro after taken
  obtain rfl := Option.some.inj (step.symm.trans taken)
  exact ⟨fun _ recv _ _ same => absurd same (other recv), along⟩

theorem parted_echoes : timed.Along ServerEchoes (.ok (.start 7 0 .initial), []) parted := by
  iterate 5 refine echoes_cons rfl (by simp) ?_
  intro after taken
  refine ⟨?_, trivial⟩
  rintro _ _ nb ⟨⟩ ⟨⟩ returned
  obtain rfl := Option.some.inj returned
  exact .inr ⟨[49], rfl, by simp, [50, 51], rfl⟩

theorem latency_right_parted :
    timed.Along MeasuresReplies (.ok (.start 7 0 .initial), []) parted ↔
      timed.Along AnswersLast (.ok (.start 7 0 .initial), []) parted :=
  latency_right_iff 7 0 parted parted_echoes

/-- The first part of a reply is counted as a reply. -/
theorem latency_of_part : timed.Along ServerEchoes (.ok (.start 7 0 .initial), []) parted ∧
    ¬ timed.Along MeasuresReplies (.ok (.start 7 0 .initial), []) parted := by
  refine ⟨parted_echoes, fun along => ?_⟩
  iterate 5 obtain ⟨-, along⟩ := along _ rfl
  obtain ⟨measures, -⟩ := along _ rfl
  obtain ⟨count, -⟩ := measures _ _ rfl rfl
  exact absurd count (by decide)

end Mrps.Load
