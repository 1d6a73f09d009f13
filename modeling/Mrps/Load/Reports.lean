import Mrps.Dialogue
import Mrps.EchoServers
import Mrps.Fleet
import Mrps.Load.Process
import Mrps.SharedCounters

/-!
# What the load generator reports of faithful servers

`wcb_recv` measures from the last request of a client, whichever request the bytes it finds belong
to.  The round trip of a byte is the time from the `client_send` that placed it to the `wcb_recv`
that found it again.  Every client faces a connection that echoes; if every `wcb_recv` finds a byte,
the statistics of the whole process are then never above those of the true round trips.
-/

namespace Mrps.Load

open EventSystem SharedCounters

/-! ## One client as a speaker -/

/-- What happens to one client of the process, with what it finds there. -/
inductive ClientEvent where
  /-- `client_add` registers the client. -/
  | added (sd : Nat) (now : Time)
  /-- A step of its session. -/
  | own (clock : Time) (times : Statistics) (event : Event)
  deriving DecidableEq, Repr

/-- One step of a client; it is not there before it is added. -/
def Added.next : Option Added → ClientEvent → Option (Option Added)
  | none, .added sd now => some (some { sd, conn := clientAdd sd now })
  | some entry, .own clock times event =>
      match Session.next { conn := entry.conn, clock, times } event with
      | some (.ok session) => some (some { entry with conn := session.conn })
      | some (.error _) | none => none
  | none, .own _ _ _ | some _, .added _ _ => none

/-- The runs of one client of the process. -/
def clientSystem : EventSystem (Option Added) ClientEvent := { step := Added.next }

/-- The bytes a step takes from the connection. -/
def Event.bytes : Event → List Byte
  | .wcbRecv recv =>
      match auxUnixRecv recv with
      | some (.ok bytes) => bytes
      | some (.error _) | none => []
  | .tick _ | .pollRecv | .pollSend | .pollConnect | .pollTimeout | .wcbSend _ | .wcbConnect _
  | .wcbTimeout => []

/-- Everything the client placed on the connection. -/
def Added.placed : Option Added → List Byte
  | none => []
  | some entry => entry.conn.wire.map Prod.fst

section Flow

variable {session after : Session} {event : Event}

theorem Bursts.flow {client : Client} {answers : List SendAnswer}
    (bursts : Bursts session client answers after) :
    session.conn.wire <+: after.conn.wire ∧ after.conn.received = session.conn.received := by
  rw [bursts.wire]
  exact ⟨List.prefix_append _ _, bursts.unread.1⟩

theorem Fires.flow {client : Client} (fires : Fires session client event after) :
    session.conn.wire <+: after.conn.wire ∧
      after.conn.received = session.conn.received ++ event.bytes := by
  have still : session.conn.received = session.conn.received ++ [] := (List.append_nil _).symm
  cases fires with
  | tick | pollRecv | pollSend | pollConnect | pollTimeout | wcbTimeout =>
      exact ⟨List.prefix_rfl, still⟩
  | @wcbRecv recv nb _ returned =>
      rw [Event.bytes, returned]
      rcases nb with (_ | _ | _) | bytes
      · exact ⟨List.prefix_rfl, still⟩
      · exact ⟨List.prefix_rfl, still⟩
      · exact ⟨List.prefix_rfl, still⟩
      · exact ⟨List.prefix_rfl, rfl⟩
  | wcbSend _ bursts =>
      obtain ⟨grows, same⟩ := bursts.flow
      exact ⟨grows, same.trans still⟩
  | wcbConnect readable =>
      cases readable with
      | true => exact ⟨List.prefix_rfl, still⟩
      | false => exact ⟨List.prefix_rfl, still⟩

theorem next_of_freed (freed : session.conn.client = none)
    (step : session.next event = some (.ok after)) :
    after.conn.wire = session.conn.wire ∧ after.conn.received = session.conn.received ∧
      event.bytes = [] := by
  have dangling : ∀ call, (session.register call).deref = .error .useAfterFree := by
    intro call
    simp [Session.deref, Session.register, freed]
  cases event with
  | tick elapsed =>
      obtain rfl := Except.ok.inj (Option.some.inj step)
      exact ⟨rfl, rfl, rfl⟩
  | pollRecv =>
      simp only [Session.next, Option.map_eq_some_iff, Except.ok.injEq] at step
      obtain ⟨recv, -, rfl⟩ := step
      exact ⟨rfl, rfl, rfl⟩
  | pollSend =>
      simp only [Session.next, Option.map_eq_some_iff, Except.ok.injEq] at step
      obtain ⟨send, -, rfl⟩ := step
      exact ⟨rfl, rfl, rfl⟩
  | pollConnect =>
      simp only [Session.next, Option.map_eq_some_iff, Except.ok.injEq] at step
      obtain ⟨connect, -, rfl⟩ := step
      exact ⟨rfl, rfl, rfl⟩
  | pollTimeout =>
      simp only [Session.next, Option.map_eq_some_iff, Except.ok.injEq] at step
      obtain ⟨timeout, -, rfl⟩ := step
      exact ⟨rfl, rfl, rfl⟩
  | wcbRecv recv =>
      simp only [Session.next, Option.ite_none_right_eq_some, Option.bind_eq_some_iff,
        Option.some.injEq] at step
      obtain ⟨-, nb, -, -, contrary⟩ := step
      simp [wcbRecv, dangling, bind, Except.bind] at contrary
  | wcbSend send =>
      simp only [Session.next, Option.ite_none_right_eq_some] at step
      obtain ⟨-, contrary⟩ := step
      simp [wcbSend.eq_def, dangling] at contrary
  | wcbConnect readable =>
      simp only [Session.next, Option.ite_none_right_eq_some, Option.some.injEq] at step
      obtain ⟨-, contrary⟩ := step
      simp [wcbConnect, dangling, bind, Except.bind] at contrary
  | wcbTimeout =>
      simp only [Session.next, Option.ite_none_right_eq_some, Option.some.injEq] at step
      obtain ⟨-, contrary⟩ := step
      simp [wcbTimeout, dangling, bind, Except.bind] at contrary

theorem next_flow (step : session.next event = some (.ok after)) :
    session.conn.wire <+: after.conn.wire ∧
      after.conn.received = session.conn.received ++ event.bytes := by
  cases held : session.conn.client with
  | none =>
      obtain ⟨same_wire, same_received, nothing⟩ := next_of_freed held step
      rw [same_wire, same_received, nothing, List.append_nil]
      exact ⟨List.prefix_rfl, rfl⟩
  | some client =>
      obtain ⟨next, next_eq, fires⟩ := fires_of_next held step
      obtain rfl := Except.ok.inj next_eq
      exact fires.flow

end Flow

theorem Added.next_own {entry : Added} {clock : Time} {times : Statistics} {event : Event}
    {after : Option Added} (step : Added.next (some entry) (.own clock times event) = some after) :
    ∃ session, Session.next { conn := entry.conn, clock, times } event = some (.ok session) ∧
      after = some { entry with conn := session.conn } := by
  rw [Added.next] at step
  split at step
  · rename_i session taken
    exact ⟨session, taken, (Option.some.inj step).symm⟩
  · cases step
  · cases step

theorem run_some {entry : Added} {events : List ClientEvent} {state : Option Added}
    (execution : clientSystem.run (some entry) events = some state) : state ≠ none := by
  have preserves : clientSystem.Preserves fun state => state ≠ none := by
    rintro (_ | entry) (⟨sd, now⟩ | ⟨clock, times, event⟩) after there step
    · exact absurd rfl there
    · exact absurd rfl there
    · cases step
    · obtain ⟨session, -, rfl⟩ := Added.next_own step
      exact Option.some_ne_none _
  exact preserves.run (Option.some_ne_none entry) execution

theorem eq_nil_of_absent {events : List ClientEvent}
    (execution : clientSystem.run none events = some none) : events = [] := by
  cases events with
  | nil => rfl
  | cons event events =>
      obtain ⟨state, step, rest⟩ := clientSystem.run_cons_eq_some execution
      cases event with
      | added sd now =>
          obtain rfl := Option.some.inj step
          exact absurd rfl (run_some rest)
      | own clock times event => cases step

/-- A client of the process as the client of a service. -/
def speaker : Speaker Byte where
  State := Option Added
  Event := ClientEvent
  system := clientSystem
  initial := none
  placed := Added.placed
  heard _ event :=
    match event with
    | .added _ _ => []
    | .own _ _ event => event.bytes
  Allowed _ _ _ := True
  grows := by
    rintro (_ | entry) (⟨sd, now⟩ | ⟨clock, times, event⟩) after step
    · exact List.nil_prefix
    · cases step
    · cases step
    · obtain ⟨session, taken, rfl⟩ := Added.next_own step
      exact (next_flow taken).1.map _

/-- The step takes from the connection what the client placed there. -/
def Echoed (state : Option Added) (event : ClientEvent) (_ : Option Added) : Prop :=
  ∀ entry clock times own, state = some entry → event = .own clock times own →
    entry.conn.received ++ own.bytes <+: entry.conn.wire.map Prod.fst

theorem echoed_of_converses {events : List ClientEvent} {state : Option Added}
    (converses : speaker.Converses events state) : clientSystem.Along Echoed none events := by
  let invariant : List ClientEvent → Option Added → List Byte → Prop := fun _ state heard =>
    heard = (state.map fun entry => entry.conn.received).getD []
  have start : invariant [] none [] := rfl
  have kept : ∀ past state heard event next, invariant past state heard →
      clientSystem.step state event = some next →
      heard ++ speaker.heard state event <+: Added.placed state → True →
        invariant (past ++ [event]) next (heard ++ speaker.heard state event) ∧
          Echoed state event next := by
    rintro past (_ | entry) heard (⟨sd, now⟩ | ⟨clock, times, event⟩) next holds step echoed -
    · obtain rfl : heard = [] := holds
      obtain rfl := Option.some.inj step
      exact ⟨rfl, by simp [Echoed]⟩
    · cases step
    · cases step
    · obtain rfl : heard = entry.conn.received := holds
      obtain ⟨session, taken, rfl⟩ := Added.next_own step
      obtain ⟨-, received_eq⟩ := next_flow taken
      refine ⟨received_eq.symm, ?_⟩
      rintro _ _ _ _ ⟨⟩ ⟨⟩
      exact echoed
  exact (converses.kept rfl start kept).2

/-! ## The client in the process -/

namespace Process

/-- The client at an index. -/
def entryAt (index : Nat) : Except Fault Process → Option Added
  | .ok process => process.clients[index]?
  | .error _ => none

/-- What an event is to the client at an index. -/
def part (index : Nat) : Except Fault Process → ProcessEvent → Option ClientEvent
  | .ok process, .wcbSilent (.added sd) =>
      if process.numberOfClients < MAX_CLIENTS ∧ process.clients.length = index then
        some (.added sd process.clock)
      else none
  | .ok process, .client chosen event =>
      if chosen = index then some (.own process.clock process.times event) else none
  | _, _ => none

variable {process : Process}

/-- A tick of `wcb_silent` adds a client at the end or none. -/
theorem clients_wcbSilent (answer : AddAnswer) :
    (∃ sd, answer = .added sd ∧ process.numberOfClients < MAX_CLIENTS ∧
        (process.wcbSilent answer).clients =
          process.clients ++ [{ sd, conn := Load.clientAdd sd process.clock }]) ∨
      (∀ sd, answer = .added sd → ¬ process.numberOfClients < MAX_CLIENTS) ∧
        (process.wcbSilent answer).clients = process.clients := by
  by_cases room : process.numberOfClients < MAX_CLIENTS
  · have still : ¬ process.numberOfClients ≥ MAX_CLIENTS := Nat.not_le.mpr room
    cases answer with
    | added sd => exact .inl ⟨sd, rfl, room, by simp [wcbSilent, still, clientAdd]⟩
    | noMemory | noSocket | blocking sd | refused sd =>
        exact .inr ⟨by simp, by simp [wcbSilent, still, clientAdd]⟩
  · have full : process.numberOfClients ≥ MAX_CLIENTS := Nat.not_lt.mp room
    exact .inr ⟨fun _ _ => room, by simp [wcbSilent, full]⟩

/-- The step as the client at `index` sees it: nothing, or a step of its own. -/
def Seen (index : Nat) (process : Process) (event : ProcessEvent) (next : Except Fault Process) :
    Prop :=
  part index (.ok process) event = none ∧ entryAt index next = entryAt index (.ok process) ∨
    ∃ own, part index (.ok process) event = some own ∧
      clientSystem.step (entryAt index (.ok process)) own = some (entryAt index next)

theorem seen_wcbSilent (index : Nat) (answer : AddAnswer) :
    Seen index process (.wcbSilent answer) (.ok
      (wcbSilent { process with wevSilent := process.wevSilent.invoked } answer)) := by
  let invoked : Process := { process with wevSilent := process.wevSilent.invoked }
  rcases invoked.clients_wcbSilent answer with ⟨sd, rfl, room, grown⟩ | ⟨none_added, same⟩
  · by_cases here : process.clients.length = index
    · subst here
      have mine : part process.clients.length (.ok process) (.wcbSilent (.added sd)) =
          some (.added sd process.clock) := if_pos ⟨room, rfl⟩
      have absent : entryAt process.clients.length (.ok process) = none :=
        List.getElem?_eq_none le_rfl
      have there : entryAt process.clients.length (.ok (invoked.wcbSilent (.added sd))) =
          some { sd, conn := Load.clientAdd sd process.clock } := by
        rw [entryAt, grown]
        exact List.getElem?_concat_length
      refine .inr ⟨_, mine, ?_⟩
      rw [absent, there]
      rfl
    · refine .inl ⟨if_neg fun both => here both.2, ?_⟩
      change (invoked.wcbSilent (.added sd)).clients[index]? = process.clients[index]?
      rw [grown]
      rcases Nat.lt_or_gt_of_ne here with beyond | before
      · rw [List.getElem?_eq_none (by simpa using beyond), List.getElem?_eq_none beyond.le]
      · exact List.getElem?_append_left before
  · have nothing : part index (.ok process) (.wcbSilent answer) = none := by
      cases answer with
      | added sd => exact if_neg fun both => none_added sd rfl both.1
      | noMemory | noSocket | blocking sd | refused sd => rfl
    exact .inl ⟨nothing, congrArg (·[index]?) same⟩

theorem seen_client (index : Nat) {chosen : Nat} {change : Event} {entry : Added} {after : Session}
    (found : process.clients[chosen]? = some entry)
    (taken : Session.next { conn := entry.conn, clock := process.clock, times := process.times }
      change = some (.ok after)) :
    Seen index process (.client chosen change) (.ok (process.update chosen entry after)) := by
  by_cases here : chosen = index
  · subst here
    have mine : part chosen (.ok process) (.client chosen change) =
        some (.own process.clock process.times change) := if_pos rfl
    have inside := (List.getElem?_eq_some_iff.mp found).1
    have there : entryAt chosen (.ok (process.update chosen entry after)) =
        some { entry with conn := after.conn } := List.getElem?_set_self inside
    have before : entryAt chosen (.ok process) = some entry := found
    have moved : Added.next (some entry) (.own process.clock process.times change) =
        some (some { entry with conn := after.conn }) := by
      rw [Added.next, taken]
    refine .inr ⟨_, mine, ?_⟩
    rw [before, there]
    exact moved
  · exact .inl ⟨if_neg here, List.getElem?_set_ne here⟩

theorem seen_next (index : Nat) {event : ProcessEvent} {next : Except Fault Process}
    (healthy : Healthy (.ok process)) (step : processSystem.step (.ok process) event = some next) :
    Seen index process event next := by
  rcases Process.next_cases healthy step with ⟨after, rfl, idles, no_silent, no_client⟩ |
    ⟨answer, rfl, -, rfl⟩ | ⟨chosen, change, entry, after, rfl, found, taken, -, -, rfl⟩
  · have nothing : part index (.ok process) event = none := by
      cases event with
      | wcbSilent answer => exact absurd rfl (no_silent answer)
      | client chosen change => exact absurd rfl (no_client chosen change)
      | tick | pollSilent | pollExit | wcbExit => rfl
    exact .inl ⟨nothing, congrArg (·[index]?) idles.clients⟩
  · exact seen_wcbSilent index answer
  · exact seen_client index found taken

theorem exhibits (index : Nat) :
    Exhibits processSystem clientSystem Healthy (entryAt index) (part index) := by
  rintro (fault | process) event next healthy step
  · exact healthy.elim
  · rcases seen_next index healthy step with ⟨nothing, same⟩ | ⟨own, mine, moved⟩
    · rw [nothing]
      exact same
    · rw [mine]
      exact moved

theorem clock_le {event : ProcessEvent} {after : Process}
    (step : process.next event = some (.ok after)) : process.clock ≤ after.clock := by
  cases event with
  | tick elapsed =>
      simp only [next, Option.ite_none_left_eq_some, Option.some.injEq, Except.ok.injEq] at step
      obtain ⟨-, rfl⟩ := step
      exact Nat.le_add_right _ _
  | pollSilent =>
      simp only [next, Option.ite_none_left_eq_some, Option.map_eq_some_iff,
        Except.ok.injEq] at step
      obtain ⟨-, _, -, rfl⟩ := step
      exact le_rfl
  | wcbSilent answer =>
      simp only [next, Option.ite_none_right_eq_some, Option.some.injEq, Except.ok.injEq] at step
      obtain ⟨-, rfl⟩ := step
      rw [wcbSilent]
      split
      · exact le_rfl
      · cases answer <;> exact le_rfl
  | pollExit =>
      simp only [next, Option.ite_none_left_eq_some, Option.map_eq_some_iff,
        Except.ok.injEq] at step
      obtain ⟨-, _, -, rfl⟩ := step
      exact le_rfl
  | wcbExit =>
      simp only [next, Option.ite_none_right_eq_some, Option.some.injEq, Except.ok.injEq] at step
      obtain ⟨-, rfl⟩ := step
      exact le_rfl
  | client index event =>
      simp only [next, Option.ite_none_right_eq_some, Option.bind_eq_some_iff,
        Option.map_eq_some_iff] at step
      obtain ⟨-, entry, -, result, -, result_eq⟩ := step
      cases result with
      | error fault => cases result_eq
      | ok session =>
          obtain rfl := Except.ok.inj result_eq
          exact le_rfl

end Process

/-! ## Statistics -/

namespace Statistics

/-- The statistics of some times. -/
def ofTimes (times : List Int) : Statistics := times.foldl count initial

/-- As many times, and no value above the other's. -/
structure AtMost (low high : Statistics) : Prop where
  sum : low.timesSum ≤ high.timesSum
  count : low.timesCount = high.timesCount
  max : low.timesMax ≤ high.timesMax
  min : low.timesMin ≤ high.timesMin

variable {low high : Statistics} {time trip : Int}

theorem AtMost.next (atMost : low.AtMost high) (le : time ≤ trip) :
    (low.count time).AtMost (high.count trip) := by
  obtain ⟨sum, count, max, min⟩ := atMost
  constructor
  · exact Int.add_le_add sum le
  · exact congrArg (fun count => (count + 1) % 2 ^ 64) count
  · simp only [Statistics.count]
    split <;> split <;> omega
  · simp only [Statistics.count]
    split <;> split <;> omega

theorem atMost_ofTimes {times trips : List Int} (le : List.Forall₂ (· ≤ ·) times trips) :
    (ofTimes times).AtMost (ofTimes trips) :=
  List.rel_foldl (fun _ _ atMost _ _ le => atMost.next le) ⟨le_rfl, rfl, le_rfl, le_rfl⟩ le

theorem ofTimes_concat (times : List Int) (time : Int) :
    ofTimes (times ++ [time]) = (ofTimes times).count time :=
  List.foldl_concat count initial time times

theorem ofTimes_count (times : List Int) :
    (ofTimes times).timesCount = times.length % 2 ^ 64 := by
  induction times using List.reverseRecOn with
  | nil => rfl
  | append_singleton times time ih =>
      rw [ofTimes_concat, List.length_append, List.length_singleton, ← Nat.mod_add_mod, ← ih]
      rfl

theorem ofTimes_min {times : List Int} (member : time ∈ times) :
    (ofTimes times).timesMin ≤ time := by
  induction times using List.reverseRecOn with
  | nil => cases member
  | append_singleton times last ih =>
      rw [ofTimes_concat, count]
      rcases List.mem_append.mp member with earlier | here
      · have below := ih earlier
        dsimp only
        split <;> omega
      · obtain rfl := List.mem_singleton.mp here
        dsimp only
        split <;> omega

end Statistics

/-! ## Round trips -/

/-- The round trips of the next bytes that a client receives. -/
def Process.roundTrips (process : Process) (entry : Added) (count : Nat) : List Int :=
  ((entry.conn.wire.drop entry.conn.received.length).take count).map fun sent =>
    (process.clock : Int) - sent.2

/-- The round trips of the bytes that a `wcb_recv` found. -/
def reading : Except Fault Process → ProcessEvent → Option (List Int)
  | .ok process, .client index (.wcbRecv recv) =>
      process.clients[index]?.map fun entry =>
        process.roundTrips entry (Event.wcbRecv recv).bytes.length
  | _, _ => none

/-- The round trips of all bytes that a run received, one list for each `wcb_recv`. -/
def readings (now : Time) (events : List ProcessEvent) : List (List Int) :=
  emitted processSystem reading (.ok (.initial now)) events

section OneClient

variable {session after : Session} {client : Client} {event : Event}

/-- The last request of a live client is behind every byte on its wire. -/
def Stamped (conn : Connection) (now : Time) : Prop :=
  ∀ client, conn.client = some client → client.ts ≤ now ∧ ∀ sent ∈ conn.wire, sent.2 ≤ client.ts

theorem Stamped.later {conn : Connection} {now later : Time} (stamped : Stamped conn now)
    (le : now ≤ later) : Stamped conn later := fun client live =>
  ⟨(stamped client live).1.trans le, (stamped client live).2⟩

theorem Bursts.stamped {answers : List SendAnswer} (bursts : Bursts session client answers after)
    (live : session.conn.client = some client) (stamped : Stamped session.conn session.clock) :
    Stamped after.conn session.clock := by
  obtain ⟨now, before⟩ := stamped client live
  intro later live'
  have ts_eq := bursts.ts live live'
  rw [bursts.wire]
  rcases answers.eq_nil_or_concat with rfl | ⟨front, last, rfl⟩
  · have same : later.ts = client.ts := ts_eq
    rw [same]
    exact ⟨now, by simpa using before⟩
  · rw [List.concat_eq_append, List.length_append, List.length_singleton, List.replicate_succ',
      List.getLastD_concat] at ts_eq
    rw [ts_eq]
    refine ⟨le_rfl, fun sent member => ?_⟩
    rcases List.mem_append.mp member with earlier | here
    · exact (before sent earlier).trans now
    · obtain ⟨byte, -, rfl⟩ := List.mem_map.mp here
      exact le_rfl

theorem Fires.stamped (fires : Fires session client event after)
    (live : session.conn.client = some client) (stamped : Stamped session.conn session.clock) :
    Stamped after.conn session.clock := by
  obtain ⟨now, before⟩ := stamped client live
  cases fires with
  | tick | pollRecv | pollSend | pollConnect | pollTimeout => exact stamped
  | @wcbRecv recv nb =>
      rcases nb with (_ | _ | _) | bytes
      · exact stamped
      · exact fun _ held => by cases held
      · exact fun _ held => by cases held
      · exact stamped
  | wcbSend _ bursts => exact bursts.stamped live stamped
  | wcbConnect readable =>
      cases readable with
      | true => exact fun _ held => by cases held
      | false =>
          rintro later ⟨⟩
          exact ⟨now, before⟩
  | wcbTimeout =>
      rintro later ⟨⟩
      exact ⟨now, before⟩

/-- Only `wcb_recv` touches the statistics; it counts the time since the last request. -/
theorem Fires.counts (fires : Fires session client event after) :
    (∃ recv, event = .wcbRecv recv ∧
        after.times = session.times.count (session.clock - client.ts)) ∨
      (∀ recv, event ≠ .wcbRecv recv) ∧ after.times = session.times := by
  cases fires with
  | tick | pollRecv | pollSend | pollConnect | pollTimeout | wcbTimeout =>
      exact .inr ⟨by simp, rfl⟩
  | @wcbRecv recv nb =>
      refine .inl ⟨recv, rfl, ?_⟩
      rcases nb with (_ | _ | _) | bytes <;> rfl
  | wcbSend _ bursts => exact .inr ⟨by simp, bursts.unread.2⟩
  | wcbConnect readable => exact .inr ⟨by simp, by cases readable <;> rfl⟩

theorem bytes_eq_nil (other : ∀ recv, event ≠ .wcbRecv recv) : event.bytes = [] := by
  cases event with
  | wcbRecv recv => exact absurd rfl (other recv)
  | tick | pollRecv | pollSend | pollConnect | pollTimeout | wcbSend | wcbConnect |
    wcbTimeout => rfl

end OneClient

section Readings

variable {process : Process} {index : Nat} {entry : Added} {event : Event}

theorem le_roundTrips {client : Client} (live : entry.conn.client = some client)
    (stamped : Stamped entry.conn process.clock) (count : Nat) :
    ∀ trip ∈ process.roundTrips entry count, (process.clock : Int) - client.ts ≤ trip := by
  intro trip member
  obtain ⟨sent, found, rfl⟩ := List.mem_map.mp member
  have earlier := (stamped client live).2 sent (List.mem_of_mem_drop (List.mem_of_mem_take found))
  exact Int.sub_le_sub_left (Int.ofNat_le.mpr earlier) _

theorem length_roundTrips {bytes : List Byte}
    (echoed : entry.conn.received ++ bytes <+: entry.conn.wire.map Prod.fst) :
    (process.roundTrips entry bytes.length).length = bytes.length := by
  have bound := echoed.length_le
  rw [List.length_append, List.length_map] at bound
  rw [Process.roundTrips, List.length_map, List.length_take, List.length_drop]
  omega

theorem reading_wcbRecv (found : process.clients[index]? = some entry) (recv : List RecvAnswer) :
    reading (.ok process) (.client index (.wcbRecv recv)) =
      some (process.roundTrips entry (Event.wcbRecv recv).bytes.length) := by
  rw [reading, found]
  rfl

theorem reading_eq_some {state : Except Fault Process} {event : ProcessEvent} {group : List Int}
    (found : reading state event = some group) :
    ∃ process index recv entry, state = .ok process ∧ event = .client index (.wcbRecv recv) ∧
      process.clients[index]? = some entry ∧
        group = process.roundTrips entry (Event.wcbRecv recv).bytes.length := by
  unfold reading at found
  split at found
  · rename_i process index recv
    obtain ⟨entry, at_index, rfl⟩ := Option.map_eq_some_iff.mp found
    exact ⟨process, index, recv, entry, rfl, rfl, at_index, rfl⟩
  · cases found

theorem reading_other (other : ∀ recv, event ≠ .wcbRecv recv) :
    reading (.ok process) (.client index event) = none := by
  cases event with
  | wcbRecv recv => exact absurd rfl (other recv)
  | tick | pollRecv | pollSend | pollConnect | pollTimeout | wcbSend | wcbConnect |
    wcbTimeout => rfl

end Readings

/-! ## The invariant -/

/-- The statistics come from times that are below the round trips of the bytes they were
taken for. -/
structure Process.Understates (process : Process) (readings : List (List Int)) : Prop where
  kept : Healthy (.ok process)
  stamped : ∀ entry ∈ process.clients, Stamped entry.conn process.clock
  echoed : ∀ entry ∈ process.clients, entry.conn.received <+: entry.conn.wire.map Prod.fst
  found : total (fun entry => (entry.conn.received.length : Int)) process.clients =
    readings.flatten.length
  measured : ∃ times, process.times = .ofTimes times ∧
    List.Forall₂ (fun time group => ∀ trip ∈ group, time ≤ trip) times readings

namespace Process.Understates

variable {process after : Process} {log : List (List Int)}

theorem initial (now : Time) : (Process.initial now).Understates [] where
  kept := by simp [Healthy, Process.initial]
  stamped := by simp [Process.initial]
  echoed := by simp [Process.initial]
  found := rfl
  measured := ⟨[], rfl, .nil⟩

theorem idle (understates : process.Understates log) (idles : process.Idles after)
    (later : process.clock ≤ after.clock) : after.Understates log := by
  obtain ⟨kept, stamped, echoed, found, measured⟩ := understates
  constructor
  · intro entry member
    rw [idles.clients] at member
    exact kept entry member
  · intro entry member
    rw [idles.clients] at member
    exact (stamped entry member).later later
  · rwa [idles.clients]
  · rwa [idles.clients]
  · rwa [idles.times]

theorem silent (understates : process.Understates log) (answer : AddAnswer)
    (healthy : Healthy (.ok (process.wcbSilent answer))) :
    (process.wcbSilent answer).Understates log := by
  obtain ⟨-, stamped, echoed, found, measured⟩ := understates
  have same_clock : (process.wcbSilent answer).clock = process.clock := by
    rw [wcbSilent]
    split
    · rfl
    · cases answer <;> rfl
  have same_times : (process.wcbSilent answer).times = process.times := by
    rw [wcbSilent]
    split
    · rfl
    · cases answer <;> rfl
  refine ⟨healthy, ?_, ?_, ?_, by rwa [same_times]⟩
  · rw [same_clock]
    rcases process.clients_wcbSilent answer with ⟨sd, -, -, grown⟩ | ⟨-, same⟩
    · rw [grown]
      apply forall_mem_concat stamped
      rintro client ⟨⟩
      exact ⟨Nat.zero_le _, by simp [Load.clientAdd]⟩
    · rwa [same]
  · rcases process.clients_wcbSilent answer with ⟨sd, -, -, grown⟩ | ⟨-, same⟩
    · rw [grown]
      apply forall_mem_concat echoed
      exact List.nil_prefix
    · rwa [same]
  · rcases process.clients_wcbSilent answer with ⟨sd, -, -, grown⟩ | ⟨-, same⟩
    · rw [grown, total_append, found]
      simp [Load.clientAdd]
    · rwa [same]

theorem client (understates : process.Understates log) {index : Nat} {entry : Added} {event : Event}
    {next : Session} (at_index : process.clients[index]? = some entry)
    (taken : (process.session entry).next event = some (.ok next)) (kept' : Kept entry.sd next.conn)
    (echoes : entry.conn.received ++ event.bytes <+: entry.conn.wire.map Prod.fst) :
    (process.update index entry next).Understates
      (log ++ (reading (.ok process) (.client index event)).toList) := by
  obtain ⟨healthy, stamped, echoed, found, times, times_eq, below⟩ := understates
  have member := List.mem_of_getElem? at_index
  obtain ⟨grows, received_eq⟩ := next_flow taken
  have kept : Kept entry.sd (process.session entry).conn := healthy entry member
  have own_stamped : Stamped (process.session entry).conn (process.session entry).clock :=
    stamped entry member
  obtain ⟨_, next_eq, -, moved⟩ := kept.taken taken
  obtain rfl := Except.ok.inj next_eq
  have stamped' : Stamped next.conn process.clock := by
    rcases moved with ⟨-, elapsed, -, rfl⟩ | ⟨client, live, fires⟩
    · exact own_stamped
    · exact fires.stamped live own_stamped
  have read_length : (log ++ (reading (.ok process) (.client index event)).toList).flatten.length =
      log.flatten.length + event.bytes.length := by
    by_cases receives : ∃ recv, event = .wcbRecv recv
    · obtain ⟨recv, rfl⟩ := receives
      rw [reading_wcbRecv at_index, List.flatten_append, List.length_append]
      simp [length_roundTrips echoes]
    · have other : ∀ recv, event ≠ .wcbRecv recv := fun recv same => receives ⟨recv, same⟩
      rw [reading_other other, bytes_eq_nil other]
      simp
  constructor
  · exact forall_mem_set healthy kept'
  · exact forall_mem_set stamped stamped'
  · apply forall_mem_set echoed
    change next.conn.received <+: next.conn.wire.map Prod.fst
    rw [received_eq]
    exact echoes.trans (grows.map _)
  · change total _ (process.clients.set index _) = _
    rw [total_set _ at_index, found, read_length, received_eq, List.length_append]
    change (_ : Int) - entry.conn.received.length +
      ((entry.conn.received.length + event.bytes.length : Nat) : Int) = _
    push_cast
    ring
  · rcases moved with ⟨-, elapsed, rfl, rfl⟩ | ⟨client, live, fires⟩
    · rw [reading_other (by simp)]
      exact ⟨times, times_eq, by simpa using below⟩
    · rcases fires.counts with ⟨recv, rfl, counted⟩ | ⟨other, same⟩
      · refine ⟨times ++ [(process.clock : Int) - client.ts], ?_, ?_⟩
        · rw [Statistics.ofTimes_concat, ← times_eq]
          exact counted
        · rw [reading_wcbRecv at_index]
          apply List.rel_append below
          exact .cons (le_roundTrips live (stamped entry member) _) .nil
      · rw [reading_other other]
        exact ⟨times, same.trans times_eq, by simpa using below⟩

/-- A step of the process whose client, if it is one of a client, hears an echo. -/
theorem next (understates : process.Understates log) {event : ProcessEvent}
    {state : Except Fault Process} (step : process.next event = some state)
    (echoes : ∀ index own, part index (.ok process) event = some own →
      Echoed (entryAt index (.ok process)) own (entryAt index state)) :
    ∃ after, state = .ok after ∧
      after.Understates (log ++ (reading (.ok process) event).toList) := by
  rcases Process.next_cases understates.kept step with ⟨after, rfl, idles, no_silent, no_client⟩ |
    ⟨answer, rfl, -, rfl⟩ | ⟨index, change, entry, next, rfl, found, taken, -, kept', rfl⟩
  · have nothing : reading (.ok process) event = none := by
      cases event with
      | client chosen change => exact absurd rfl (no_client chosen change)
      | tick | pollSilent | pollExit | wcbExit | wcbSilent => rfl
    rw [nothing, Option.toList_none, List.append_nil]
    exact ⟨after, rfl, understates.idle idles (clock_le step)⟩
  · have invoked : Understates { process with wevSilent := process.wevSilent.invoked } log :=
      understates.idle ⟨rfl, rfl, rfl, rfl⟩ le_rfl
    have nothing : reading (.ok process) (.wcbSilent answer) = none := rfl
    rw [nothing, Option.toList_none, List.append_nil]
    exact ⟨_, rfl, invoked.silent answer (wcbSilent_healthy invoked.kept answer)⟩
  · have mine : part index (.ok process) (.client index change) =
        some (.own process.clock process.times change) := if_pos rfl
    have heard := echoes index _ mine entry _ _ change found rfl
    exact ⟨_, rfl, understates.client found taken kept' heard⟩

end Process.Understates

theorem le_of_chosen {times chosen : List Int} {readings : List (List Int)}
    (below : List.Forall₂ (fun time group => ∀ trip ∈ group, time ≤ trip) times readings)
    (choice : List.Forall₂ (· ∈ ·) chosen readings) : List.Forall₂ (· ≤ ·) times chosen := by
  induction below generalizing chosen with
  | nil =>
      obtain rfl := List.forall₂_nil_right_iff.mp choice
      exact .nil
  | cons here _ ih =>
      obtain ⟨trip, rest, inside, others, rfl⟩ := List.forall₂_cons_right_iff.mp choice
      exact .cons (here trip inside) (ih others)

theorem min_le_of_mem {times : List Int} {readings : List (List Int)} {trip : Int}
    (below : List.Forall₂ (fun time group => ∀ trip ∈ group, time ≤ trip) times readings)
    (member : trip ∈ readings.flatten) : (Statistics.ofTimes times).timesMin ≤ trip := by
  obtain ⟨group, inside, here⟩ := List.mem_flatten.mp member
  have found : ∃ time ∈ times, time ≤ trip := by
    clear member
    induction below with
    | nil => cases inside
    | @cons time reading times readings first _ ih =>
        rcases List.mem_cons.mp inside with rfl | later
        · exact ⟨time, List.mem_cons_self, first trip here⟩
        · obtain ⟨other, later_time, le⟩ := ih later
          exact ⟨other, List.mem_cons_of_mem time later_time, le⟩
  obtain ⟨time, counted, le⟩ := found
  exact (Statistics.ofTimes_min counted).trans le

section Converse

variable {now : Time} {events : List ProcessEvent} {state : Except Fault Process}

/-- Clients that face faithful servers only take back what they placed. -/
theorem echoed_along (execution : processSystem.run (.ok (.initial now)) events = some state)
    (converse : ∀ index entry, Process.entryAt index state = some entry → speaker.Converses
      (emitted processSystem (Process.part index) (.ok (.initial now)) events) (some entry))
    (index : Nat) :
    processSystem.Along (fun state event next => ∀ own, Process.part index state event = some own →
      Echoed (Process.entryAt index state) own (Process.entryAt index next))
      (.ok (.initial now)) events := by
  have start : Healthy (.ok (.initial now)) := (Process.Understates.initial now).kept
  apply (Process.exhibits index).along healthy_preserved _ start
  cases there : Process.entryAt index state with
  | none =>
      have own_run := (Process.exhibits index).run healthy_preserved start execution
      rw [there] at own_run
      rw [eq_nil_of_absent own_run]
      trivial
  | some entry => exact echoed_of_converses (converse index entry there)

/-- The statistics keep understating the readings of such clients. -/
theorem understates_of_echoed
    (execution : processSystem.run (.ok (.initial now)) events = some state)
    (echoed : ∀ index, processSystem.Along (fun state event next => ∀ own,
      Process.part index state event = some own →
        Echoed (Process.entryAt index state) own (Process.entryAt index next))
      (.ok (.initial now)) events) :
    ∃ process, state = .ok process ∧ process.Understates (readings now events) := by
  let invariant : List ProcessEvent → Except Fault Process → Prop := fun past state =>
    ∃ process, state = .ok process ∧ process.Understates (readings now past)
  have kept : ∀ front state event next,
      processSystem.run (.ok (.initial now)) front = some state → invariant front state →
      processSystem.step state event = some next →
      (∀ index own, Process.part index state event = some own →
        Echoed (Process.entryAt index state) own (Process.entryAt index next)) →
      invariant (front ++ [event]) next := by
    rintro front _ event next front_run ⟨process, rfl, understates⟩ step echoes
    have longer : readings now (front ++ [event]) =
        readings now front ++ (reading (.ok process) event).toList := emitted_concat front_run step
    obtain ⟨after, rfl, understates'⟩ := understates.next step echoes
    rw [← longer] at understates'
    exact ⟨after, rfl, understates'⟩
  exact (along_forall echoed).history ⟨_, rfl, .initial now⟩ kept execution

/-- Every `wcb_recv` of a run delivers a byte. -/
def AlwaysDelivers (events : List ProcessEvent) : Prop :=
  ∀ index recv, .client index (.wcbRecv recv) ∈ events → (Event.wcbRecv recv).bytes ≠ []

/-- Every reading of such clients then has a round trip. -/
theorem exists_chosen (delivers : AlwaysDelivers events)
    (echoed : ∀ index, processSystem.Along (fun state event next => ∀ own,
      Process.part index state event = some own →
        Echoed (Process.entryAt index state) own (Process.entryAt index next))
      (.ok (.initial now)) events) :
    ∃ chosen, List.Forall₂ (· ∈ ·) chosen (readings now events) := by
  have nonempty : ∀ group ∈ readings now events, group ≠ [] := by
    intro group member
    obtain ⟨front, event, back, middle, next, split, front_run, step, found⟩ := mem_emitted member
    obtain ⟨process, index, recv, entry, rfl, rfl, at_index, rfl⟩ := reading_eq_some found
    have heard := along_iff.mp (echoed index) front _ back _ next split front_run step _
      (if_pos rfl)
      entry _ _ _ at_index rfl
    have bytes_ne : (Event.wcbRecv recv).bytes ≠ [] :=
      delivers index recv (split ▸ List.mem_append_cons_self)
    rw [← List.length_pos_iff, length_roundTrips heard]
    exact List.length_pos_iff.mpr bytes_ne
  refine ⟨(readings now events).map List.headI, List.forall₂_map_left_iff.mpr ?_⟩
  apply List.forall₂_same.mpr
  intro group member
  obtain ⟨trip, trips, rfl⟩ := List.exists_cons_of_ne_nil (nonempty group member)
  exact List.mem_cons_self

end Converse

/-- In every run of `client.c` whose clients all face servers that echo faithfully, with any number
of clients and any interleaving: no callback faults, every client receives what it sent, and
`wcb_recv` counts one time for each reading.  `times_min` is at most the round trip of every byte.
If every `wcb_recv` delivers a byte, then whichever byte of each reading one takes for its answer,
no statistic is above that of the true round trips. -/
theorem never_overstates (now : Time) {events : List ProcessEvent} {state : Except Fault Process}
    (execution : processSystem.run (.ok (.initial now)) events = some state)
    (converse : ∀ index entry, Process.entryAt index state = some entry → speaker.Converses
      (emitted processSystem (Process.part index) (.ok (.initial now)) events) (some entry)) :
    ∃ process, state = .ok process ∧
      (∀ entry ∈ process.clients, entry.conn.received <+: entry.conn.wire.map Prod.fst) ∧
      total (fun entry => (entry.conn.received.length : Int)) process.clients =
        (readings now events).flatten.length ∧
      process.times.timesCount = (readings now events).length % 2 ^ 64 ∧
      (∀ trip ∈ (readings now events).flatten, process.times.timesMin ≤ trip) ∧
      (AlwaysDelivers events →
        (∃ chosen, List.Forall₂ (· ∈ ·) chosen (readings now events)) ∧
          ∀ chosen, List.Forall₂ (· ∈ ·) chosen (readings now events) →
            process.times.AtMost (.ofTimes chosen)) := by
  have takes_back := echoed_along execution converse
  obtain ⟨process, rfl, -, -, echoed, found, times, times_eq, below⟩ :=
    understates_of_echoed execution takes_back
  refine ⟨process, rfl, echoed, found, ?_, ?_, ?_⟩
  · rw [times_eq, Statistics.ofTimes_count, below.length_eq]
  · intro trip member
    rw [times_eq]
    exact min_le_of_mem below member
  · intro delivers
    refine ⟨exists_chosen delivers takes_back, fun chosen choice => ?_⟩
    rw [times_eq]
    exact Statistics.atMost_ofTimes (le_of_chosen below choice)

/-- One client and `server.erl`.  The reply to its first request comes in two parts, the second of
them after the second request. -/
def splitReply : List ProcessEvent :=
  [.tick 1000, .pollSilent, .wcbSilent (.added 7), .client 0 .pollConnect,
    .client 0 (.wcbConnect false), .client 0 .pollSend, .client 0 (.wcbSend [.ok 3]), .tick 5000,
    .client 0 .pollRecv, .client 0 (.wcbRecv [.ok [49]]), .tick 5000, .client 0 .pollTimeout,
    .client 0 .wcbTimeout, .client 0 .pollSend, .client 0 (.wcbSend [.ok 3]), .tick 1000,
    .client 0 .pollRecv, .client 0 (.wcbRecv [.ok [50, 51]])]

/-- The client up to its first request. -/
def splitRequest : List ClientEvent :=
  [.added 7 1000, .own 1000 .initial .pollConnect, .own 1000 .initial (.wcbConnect false),
    .own 1000 .initial .pollSend, .own 1000 .initial (.wcbSend [.ok 3])]

/-- The client from then on. -/
def splitReadings : List ClientEvent :=
  [.own 6000 .initial .pollRecv, .own 6000 .initial (.wcbRecv [.ok [49]]),
    .own 11000 (.ofTimes [5000]) .pollTimeout, .own 11000 (.ofTimes [5000]) .wcbTimeout,
    .own 11000 (.ofTimes [5000]) .pollSend, .own 11000 (.ofTimes [5000]) (.wcbSend [.ok 3]),
    .own 12000 (.ofTimes [5000]) .pollRecv, .own 12000 (.ofTimes [5000]) (.wcbRecv [.ok [50, 51]])]

/-- The client at the end. -/
def splitClient : Added where
  sd := 7
  conn :=
    { client := some { fd := 7, ts := 11000, toSend := 0 }
      watchers :=
        { recv := { active := true, pending := false }
          send := { active := false, pending := false }
          connect := { active := false, pending := false }
          timeout := { active := true, pending := false, deadline := 21000 } }
      wire := REQUEST.map (·, 1000) ++ REQUEST.map (·, 11000)
      received := REQUEST
      closed := []
      dels := 0 }

/-- The client and the server on their connection. -/
def splitDialogue : List (DialogueEvent speaker (Erlang.echoService 0)) :=
  splitRequest.map (fun event => .speaker event) ++
    [.accepted, .spawn, .controllingProcess, .perm, .granted 0, .setopts 0, .arrive 0 REQUEST,
      .deliver 0 3, .handle 0].map .service ++
    splitReadings.map fun event => .speaker event

theorem splitClient_converses {events : List ClientEvent}
    (events_eq : events = splitRequest ++ splitReadings) :
    speaker.Converses events (some splitClient) := by
  have assumed : (dialogues speaker (Erlang.echoService 0)).Along DialogueAssumed (.initial _ _)
      splitDialogue := along_dialogueAssumed (fun _ _ _ => trivial) fun _ _ _ _ => trivial
  have speaking : ((dialogues speaker (Erlang.echoService 0)).run (.initial _ _)
      splitDialogue).map (fun dialogue => (dialogue.speaking : Option Added)) =
        some (some splitClient) := by decide +kernel
  obtain ⟨dialogue, execution, at_end⟩ := Option.map_eq_some_iff.mp speaking
  exact ⟨_, Erlang.echoService_faithful 0, splitDialogue, dialogue, assumed, execution,
    events_eq.symm, at_end⟩

theorem never_overstates_split : AlwaysDelivers splitReply ∧ ∃ process,
    processSystem.run (.ok (.initial 0)) splitReply = some (.ok process) ∧
      readings 0 splitReply = [[5000], [11000, 11000]] ∧ process.times = .ofTimes [5000, 1000] ∧
      process.times.AtMost (.ofTimes [5000, 11000]) := by
  have delivers : AlwaysDelivers splitReply := by
    intro index recv member
    simp only [splitReply, List.mem_cons, ProcessEvent.client.injEq, reduceCtorEq,
      Event.wcbRecv.injEq, List.not_mem_nil, and_false, or_false, false_or] at member
    rcases member with ⟨-, rfl⟩ | ⟨-, rfl⟩ <;> decide
  refine ⟨delivers, ?_⟩
  have outcome : (processSystem.run (.ok (.initial 0)) splitReply).map (fun state =>
      state.map fun process => (process.clients, process.times)) =
        some (.ok ([splitClient], .ofTimes [5000, 1000])) := by decide +kernel
  obtain ⟨_ | process, execution, outcome_eq⟩ := Option.map_eq_some_iff.mp outcome
  · cases outcome_eq
  · obtain ⟨clients_eq, times_eq⟩ := Prod.mk.inj (Except.ok.inj outcome_eq)
    have readings_eq : readings 0 splitReply = [[5000], [11000, 11000]] := by decide +kernel
    have share : emitted processSystem (Process.part 0) (.ok (.initial 0)) splitReply =
        splitRequest ++ splitReadings := by decide +kernel
    have converse : ∀ index entry, Process.entryAt index (.ok process) = some entry →
        speaker.Converses (emitted processSystem (Process.part index) (.ok (.initial 0)) splitReply)
          (some entry) := by
      intro index entry found
      rw [Process.entryAt, clients_eq, List.getElem?_singleton] at found
      split at found
      · rename_i first
        obtain rfl := Option.some.inj found
        rw [first]
        exact splitClient_converses share
      · cases found
    obtain ⟨_, ⟨⟩, -, -, -, -, bounds⟩ := never_overstates 0 execution converse
    obtain ⟨-, atMost⟩ := bounds delivers
    rw [readings_eq] at atMost
    have choice :
        List.Forall₂ (· ∈ ·) [5000, 11000] ([[5000], [11000, 11000]] : List (List Int)) := by
      simp
    exact ⟨process, execution, readings_eq, times_eq, atMost _ choice⟩

end Mrps.Load
