import Mrps.Entries
import Mrps.Tester.Accounting
import Mrps.Tester.Queue

/-!
# Timeouts at the final report

Only a reply makes the tester look at the time of a request.  A report finds every overdue request
counted as an error exactly if each handler that met no error has read a reply for every request it
made long enough before.
-/

namespace Mrps.Tester

open EventSystem

/-- The request at the front of the queue was sent more than the timeout before `now`. -/
def ConnectionHandler.Overdue (handler : ConnectionHandler) (now : Time) : Prop :=
  ∃ timer, handler.tqueue.head? = some timer ∧ timer + client_timeout_mcs < now

/-- What a report at `now` should find: every handler with an overdue request is errored and has
counted one exchange error. -/
def Program.TimeoutsCounted (program : Program) (now : Time) : Prop :=
  ∀ activity ∈ program.handlers, activity.handler.Overdue now →
    activity.handler.errored = true ∧ activity.share .exchangeErrors = 1

/-- What is noted of a run beside its states. -/
inductive Note where
  /-- A callback of the handler met an error. -/
  | trouble (index : Nat)
  /-- A read of the handler got a whole reply. -/
  | reply (index : Nat)
  deriving DecidableEq, Repr

/-- The callback is told of an error, or finds one: a connection or a reply that took too long, or a
reply that differs. -/
def Activity.meetsError (activity : Activity) : ActivityEvent → Bool
  | .connect e connected _ _ =>
      e || decide (client_timeout_mcs < activity.handler.connectTimer.current connected)
  | .stub => activity.written.head? == some true
  | .read now =>
      decide (strncmp activity.handler.sendBuf (activity.inbox.take 32) 32 ≠ 0) ||
        activity.handler.tqueue.head?.any fun timer =>
          decide (client_timeout_mcs < timer.current now)
  | .readFails _ _ => true
  | _ => false

/-- The read of a whole reply. -/
def ActivityEvent.isReply : ActivityEvent → Bool
  | .read _ => true
  | _ => false

/-- What is noted of a step of a handler. -/
def Activity.noted (activity : Activity) (index : Nat) (event : ActivityEvent) : List Note :=
  (if activity.meetsError event then [.trouble index] else []) ++
    if event.isReply then [.reply index] else []

/-- What is noted of a step of the program. -/
def noted : Except Fault Program → ProgramEvent → List Note
  | .ok program, .handler index event =>
      match program.handlers[index]? with
      | some activity => activity.noted index event
      | none => []
  | _, _ => []

/-- The runs of the program with their notes. -/
abbrev observedSystem : EventSystem (Except Fault Program × List Note) ProgramEvent :=
  programSystem.logged noted

/-- At a report at `now`, every handler that met no error has read a reply for each request it made
more than the timeout before, and none is between marking itself errored and counting it with an
overdue request. -/
def Program.AnsweredInTime (program : Program) (notes : List Note) (now : Time) : Prop :=
  ∀ index activity, program.handlers[index]? = some activity →
    (.trouble index ∉ notes → ∀ timer,
      activity.handler.pushed[notes.count (.reply index)]? = some timer →
        now ≤ timer + client_timeout_mcs) ∧
    (.update (.fetchAndAdd .exchangeErrors 1) ∈ activity.todo → ¬ activity.handler.Overdue now)

/-! ## What a connected handler counts -/

/-- The update that counts an exchange error. -/
def countsError : Action := .update (.fetchAndAdd .exchangeErrors 1)

/-- An action of a handler whose connection is there: its only errors are those of exchanges. -/
def Action.Exchanges : Action → Prop
  | .update (.fetchAndAdd .connectionErrors _) => False
  | .update (.fetchAndAdd .exchangeErrors amount) => amount = 1
  | .update (.fetchAndSub counter _) => counter = .connectionActive
  | _ => True

theorem Action.Exchanges.amount {action : Action} (exchanges : action.Exchanges) :
    action.amount .exchangeErrors = (if action = countsError then 1 else 0) ∧
      action.amount .connectionErrors = 0 := by
  cases action with
  | update change =>
      cases change with
      | fetchAndAdd counter amount =>
          cases counter with
          | exchangeErrors =>
              obtain rfl : amount = 1 := exchanges
              exact ⟨rfl, rfl⟩
          | connectionErrors => exact exchanges.elim
          | _ => exact ⟨by simp [Action.amount, Update.amount, countsError], rfl⟩
      | fetchAndSub counter amount =>
          obtain rfl : counter = .connectionActive := exchanges
          exact ⟨by simp [Action.amount, Update.amount, countsError], rfl⟩
  | _ => exact ⟨by simp [Action.amount, countsError], rfl⟩

theorem added_exchanges {actions : List Action} (all : ∀ action ∈ actions, action.Exchanges) :
    added actions .exchangeErrors = actions.count countsError ∧
      added actions .connectionErrors = 0 := by
  constructor
  · exact added_eq_count fun action member => (all action member).amount.1
  · induction actions with
    | nil => rfl
    | cons action actions ih =>
        rw [added_cons, (all action List.mem_cons_self).amount.2,
          ih fun other member => all other (List.mem_cons_of_mem action member)]
        rfl

/-- What a callback of a connected handler does with errors and replies: `met` tells whether it met
an error and `took` how many replies it took. -/
structure Outcome (before : ConnectionHandler) (met : Prop) (took : Nat) (reaction : Reaction) :
    Prop where
  errored : reaction.handler.errored = true ↔ before.errored = true ∨ met
  popped : reaction.handler.errored = false →
    reaction.handler.popped.length = before.popped.length + took
  pushed : before.pushed <+: reaction.handler.pushed
  still : before.errored = true → reaction.handler.pushed = before.pushed
  exchanges : ∀ action ∈ reaction.actions, action.Exchanges

section Callbacks

variable {handler : ConnectionHandler} {reaction : Reaction}

theorem outcome_of (errored : handler.errored = true) (met : Prop) (took : Nat) :
    Outcome handler met took (.of handler) :=
  ⟨by simp [Reaction.of, errored], by simp [Reaction.of, errored], List.prefix_rfl, fun _ => rfl,
    by simp [Reaction.of]⟩

theorem outcome_failed {met : Prop} (meets : met) (took : Nat) :
    Outcome handler met took (failed handler [] .exchangeErrors) :=
  ⟨by simp [failed, meets], by simp [failed], List.prefix_rfl, fun _ => rfl,
    by simp [failed, Action.Exchanges]⟩

theorem sendStaff_outcome {now : Time}
    (returned : sendStaff false now (.of handler) = .ok reaction) :
    Outcome handler False 0 reaction := by
  rcases sendStaff_cases returned with ⟨errored, rfl⟩ | ⟨running, rfl⟩
  · exact outcome_of errored False 0
  · exact ⟨by simp [requested], by simp [requested], List.prefix_append _ _, by simp [running],
      by simp [requested, Action.Exchanges]⟩

theorem stub_outcome (e : Bool) : Outcome handler (e = true) 0 (stub e handler) := by
  rw [stub]
  split
  · rename_i errored
    exact outcome_of errored _ 0
  · rename_i running
    split
    · rename_i failed
      exact outcome_failed failed 0
    · rename_i fine
      exact ⟨by simp [Reaction.of, fine], by simp [Reaction.of], List.prefix_rfl, fun _ => rfl,
        by simp [Reaction.of]⟩

/-- The reply just read is an error: it differs from the request or comes too late. -/
def ConnectionHandler.Rejects (handler : ConnectionHandler) (now : Time) : Prop :=
  strncmp handler.sendBuf handler.readBuf 32 ≠ 0 ∨
    ∃ timer, handler.tqueue.head? = some timer ∧ client_timeout_mcs < timer.current now

theorem compareStaff_outcome {now : Time}
    (returned : compareStaff false 32 now handler = .ok reaction) :
    Outcome handler (handler.Rejects now) 1 reaction := by
  have ways : Compared handler false 32 now _ := compareStaff_compared false 32 now
  rw [returned] at ways
  cases ways with
  | errored errored => exact outcome_of errored _ 1
  | mismatch running rejects =>
      refine outcome_failed (.inl ?_) 1
      intro same
      exact rejects ⟨running, rfl, rfl, same⟩
  | @late timer tqueue accepts queue late =>
      have rejects : handler.Rejects now := .inr ⟨timer, by simp [queue], late⟩
      exact ⟨by simp [failed, rejects], by simp [failed], List.prefix_rfl, fun _ => rfl,
        by simp [failed, Action.Exchanges]⟩
  | @sampled timer tqueue accepts queue in_time =>
      have fine : ¬ handler.Rejects now := by
        rintro (differs | ⟨other, front, late⟩)
        · exact differs accepts.2.2.2
        · obtain rfl : timer = other := by simpa [queue] using front
          omega
      exact ⟨by simp [sampled, ConnectionHandler.replied, fine],
        by simp [sampled, ConnectionHandler.replied], List.prefix_rfl, fun _ => rfl,
        by simp [sampled, Action.Exchanges]⟩

theorem compareStaff_fails {transferred : Nat} {now : Time}
    (returned : compareStaff true transferred now handler = .ok reaction) :
    Outcome handler True 0 reaction := by
  have ways : Compared handler true transferred now _ := compareStaff_compared true transferred now
  rw [returned] at ways
  cases ways with
  | errored errored => exact outcome_of errored _ 0
  | mismatch => exact outcome_failed trivial 0
  | late accepts => cases accepts.2.1
  | sampled accepts => cases accepts.2.1

/-- `connect` meets an error or makes the first request. -/
theorem connect_outcome {e : Bool} {connected now : Time} {random : Nat}
    (running : handler.errored = false)
    (returned : connect e connected now random handler = .ok reaction) :
    reaction.handler.popped = handler.popped ∧
      ((reaction.handler.errored = true ∧ reaction.handler.pushed = handler.pushed ∧
          (e = true ∨ client_timeout_mcs < handler.connectTimer.current connected)) ∨
        reaction.handler.errored = false ∧ (∀ action ∈ reaction.actions, action.Exchanges) ∧
          ¬ (e = true ∨ client_timeout_mcs < handler.connectTimer.current connected)) := by
  rw [connect] at returned
  split at returned
  · rename_i failed
    obtain rfl := Except.ok.inj returned
    exact ⟨rfl, .inl ⟨rfl, rfl, .inl failed⟩⟩
  · rename_i fine
    split at returned
    · rename_i late
      obtain rfl := Except.ok.inj returned
      exact ⟨rfl, .inl ⟨rfl, rfl, .inr late⟩⟩
    · rename_i in_time
      simp only [sendStaff, readStaff, Reaction.add, Reaction.sub, Reaction.act, Reaction.of,
        running, Bool.false_eq_true, if_false, Reaction.push] at returned
      obtain rfl := Except.ok.inj returned
      exact ⟨rfl, .inr ⟨rfl, by simp [Action.Exchanges], by simp [fine, in_time]⟩⟩

end Callbacks

/-! ## One handler -/

/-- How far a handler has come: it makes requests only when its connection is there. -/
inductive Requesting (activity : Activity) : Prop
  | opening : Fresh activity → activity.handler.pushed = [] →
      (∀ action ∈ activity.performed ++ activity.todo, action.Exchanges) → Requesting activity
  | refused : Joined activity → activity.handler.errored = true → activity.handler.pushed = [] →
      Requesting activity
  | exchanging : Joined activity →
      (∀ action ∈ activity.performed ++ activity.todo, action.Exchanges) → Requesting activity

/-- A handler as the notes tell it. -/
structure Traced (index : Nat) (activity : Activity) (notes : List Note) : Prop where
  order : activity.handler.InOrder
  requesting : Requesting activity
  troubled : activity.handler.errored = true ↔ .trouble index ∈ notes
  replied : activity.handler.errored = false →
    activity.handler.popped.length = notes.count (.reply index)

section Steps

variable {index : Nat} {activity after : Activity} {event : ActivityEvent} {notes : List Note}

theorem Traced.still (traced : Traced index activity notes) (requesting : Requesting after)
    (handler : after.handler = activity.handler) : Traced index after (notes ++ []) := by
  rw [List.append_nil]
  exact ⟨handler ▸ traced.order, requesting, handler ▸ traced.troubled, handler ▸ traced.replied⟩

theorem trouble_mem_noted (index : Nat) :
    .trouble index ∈ activity.noted index event ↔ activity.meetsError event = true := by
  cases meets : activity.meetsError event with
  | true => simp [Activity.noted, meets]
  | false => cases reply : event.isReply <;> simp [Activity.noted, meets, reply]

theorem count_reply_noted (index : Nat) :
    (activity.noted index event).count (.reply index) = event.isReply.toNat := by
  cases meets : activity.meetsError event with
  | true => cases reply : event.isReply <;> simp [Activity.noted, meets, reply]
  | false => cases reply : event.isReply <;> simp [Activity.noted, meets, reply]

theorem Requesting.still (requesting : Requesting activity) (joined : Joined after)
    (handler : after.handler = activity.handler)
    (whole : after.performed ++ after.todo = activity.performed ++ activity.todo) :
    Requesting after := by
  cases requesting with
  | opening _ _ exchanges => exact .exchanging joined (whole ▸ exchanges)
  | refused _ errored unrequested =>
      exact .refused joined (handler ▸ errored) (handler ▸ unrequested)
  | exchanging _ exchanges => exact .exchanging joined (whole ▸ exchanges)

/-- A callback of a handler whose connection is there. -/
theorem Traced.reacted {current : Activity} {callback : Except Fault Reaction} {met : Prop}
    (traced : Traced index activity notes) (reacted : current.react callback = .ok after)
    (joined : Joined after) (order : after.handler.InOrder)
    (performed : current.performed = activity.performed)
    (errored : current.handler.errored = activity.handler.errored)
    (pushed : current.handler.pushed = activity.handler.pushed)
    (popped : current.handler.popped = activity.handler.popped)
    (outcome : ∀ reaction, callback = .ok reaction →
      Outcome current.handler met event.isReply.toNat reaction)
    (meets : activity.meetsError event = true ↔ met) :
    Traced index after (notes ++ activity.noted index event) := by
  obtain ⟨reaction, returned, rfl⟩ := react_eq_ok reacted
  have outcome := outcome reaction returned
  refine ⟨order, ?_, ?_, ?_⟩
  · have exchanging : (∀ action ∈ activity.performed ++ activity.todo, action.Exchanges) →
        Requesting { current with handler := reaction.handler, todo := reaction.actions } := by
      intro exchanges
      refine .exchanging joined fun action member => ?_
      rcases List.mem_append.mp member with old | new
      · exact exchanges action (List.mem_append_left _ (performed ▸ old))
      · exact outcome.exchanges action new
    cases traced.requesting with
    | opening _ _ exchanges => exact exchanging exchanges
    | refused _ was_errored unrequested =>
        refine .refused joined (outcome.errored.mpr (.inl (errored.trans was_errored))) ?_
        exact (outcome.still (errored.trans was_errored)).trans (pushed.trans unrequested)
    | exchanging _ exchanges => exact exchanging exchanges
  · rw [List.mem_append, trouble_mem_noted, meets, ← traced.troubled, ← errored]
    exact outcome.errored
  · intro still_running
    have running : reaction.handler.errored = false := still_running
    have was_running : activity.handler.errored = false := by
      cases failed : activity.handler.errored with
      | false => rfl
      | true =>
          have still := outcome.errored.mpr (.inl (errored.trans failed))
          exact absurd still (by simp [running])
    rw [List.count_append, count_reply_noted, ← traced.replied was_running, ← popped]
    exact outcome.popped running

theorem receive_rejects {now : Time} (enough : 32 ≤ activity.inbox.length) :
    activity.meetsError (.read now) = true ↔ (activity.receive 32).handler.Rejects now := by
  have same : (activity.receive 32).handler.Rejects now ↔
      strncmp activity.handler.sendBuf (activity.receive 32).handler.readBuf 32 ≠ 0 ∨
        ∃ timer, activity.handler.tqueue.head? = some timer ∧
          client_timeout_mcs < timer.current now := Iff.rfl
  rw [same, receive_strncmp enough]
  simp [Activity.meetsError, Option.any_eq_true]

theorem Traced.opening (traced : Traced index activity notes) (fresh : Fresh activity)
    (unrequested : activity.handler.pushed = [])
    (exchanges : ∀ action ∈ activity.performed ++ activity.todo, action.Exchanges)
    (order : after.handler.InOrder) (moves : Moves activity event (.ok after)) :
    Traced index after (notes ++ activity.noted index event) := by
  cases fresh.opening moves with
  | perform split =>
      refine traced.still (.opening (fresh.started split) ?_ ?_) (by simp)
      · simpa using unrequested
      · simpa [split] using exchanges
  | bear => exact traced.still (.opening fresh.bear unrequested exchanges) rfl
  | arrive => exact traced.still (.opening (fresh.arrive _) unrequested exchanges) rfl
  | @connect e connected now random reaction idle _ bound returned =>
      have joined := fresh.joined bound returned
      have untroubled : .trouble index ∉ notes := by simp [← traced.troubled, fresh.running]
      have met : activity.meetsError (.connect e connected now random) = true ↔
          e = true ∨ client_timeout_mcs < activity.handler.connectTimer.current connected := by
        simp [Activity.meetsError]
      obtain ⟨popped, ⟨errored, pushed, meets⟩ | ⟨running, actions, meets⟩⟩ :=
        connect_outcome fresh.running returned
      · refine ⟨order, .refused joined errored (pushed.trans unrequested), ?_, ?_⟩
        · refine iff_of_true errored (List.mem_append_right _ ?_)
          exact (trouble_mem_noted index).mpr (met.mpr meets)
        · intro running
          have contrary : reaction.handler.errored = false := running
          simp [errored] at contrary
      · refine ⟨order, .exchanging joined fun action member => ?_, ?_, fun _ => ?_⟩
        · rcases List.mem_append.mp member with old | new
          · exact exchanges action (List.mem_append_left _ old)
          · exact actions action new
        · refine iff_of_false (by simp [running]) ?_
          rw [List.mem_append, trouble_mem_noted, met]
          exact fun noted => noted.elim untroubled meets
        · rw [List.count_append, count_reply_noted, ← traced.replied fresh.running]
          exact congrArg List.length popped

theorem Traced.next (traced : Traced index activity notes)
    (moves : Moves activity event (.ok after)) :
    Traced index after (notes ++ activity.noted index event) := by
  have order : after.handler.InOrder := by
    rcases orderly_next traced.order moves with ⟨good, -⟩ | ⟨fault, -⟩
    · exact good
    · cases fault
  have joined_or : (Fresh activity ∧ activity.handler.pushed = [] ∧
      ∀ action ∈ activity.performed ++ activity.todo, action.Exchanges) ∨ Joined activity := by
    cases traced.requesting with
    | opening fresh unrequested exchanges => exact .inl ⟨fresh, unrequested, exchanges⟩
    | refused joined => exact .inr joined
    | exchanging joined => exact .inr joined
  rcases joined_or with ⟨fresh, unrequested, exchanges⟩ | joined
  · exact traced.opening fresh unrequested exchanges order moves
  · have joined' := joined.next moves
    have requesting := traced.requesting
    generalize result_eq : Except.ok after = result at moves
    cases moves with
    | perform split =>
        obtain rfl := Except.ok.inj result_eq
        exact traced.still (requesting.still joined' (by simp) (by simp [split])) (by simp)
    | bear =>
        obtain rfl := Except.ok.inj result_eq
        exact traced.still (requesting.still joined' rfl rfl) rfl
    | connect _ connecting => simp [joined.connecting] at connecting
    | exchange =>
        exact traced.reacted result_eq.symm joined' order rfl rfl rfl rfl
          (fun _ returned => sendStaff_outcome returned) (by simp [Activity.meetsError])
    | servePart =>
        obtain rfl := Except.ok.inj result_eq
        exact traced.still (requesting.still joined' rfl rfl) rfl
    | serveAll =>
        obtain rfl := Except.ok.inj result_eq
        exact traced.still (requesting.still joined' rfl rfl) rfl
    | serveFails =>
        obtain rfl := Except.ok.inj result_eq
        exact traced.still (requesting.still joined' rfl rfl) rfl
    | resume =>
        obtain rfl := Except.ok.inj result_eq
        exact traced.still (requesting.still joined' rfl rfl) rfl
    | @stub e written _ split =>
        have outcome : ∀ reaction,
            (.ok (stub e activity.handler) : Except Fault Reaction) = .ok reaction →
              Outcome activity.handler (e = true) 0 reaction := by
          rintro reaction ⟨⟩
          exact stub_outcome e
        exact traced.reacted result_eq.symm joined' order rfl rfl rfl rfl outcome
          (by simp [Activity.meetsError, split])
    | arrive =>
        obtain rfl := Except.ok.inj result_eq
        exact traced.still (requesting.still joined' rfl rfl) rfl
    | read _ _ enough =>
        exact traced.reacted result_eq.symm joined' order rfl rfl rfl rfl
          (fun _ returned => compareStaff_outcome returned) (receive_rejects enough)
    | readFails =>
        exact traced.reacted result_eq.symm joined' order rfl rfl rfl rfl
          (fun _ returned => compareStaff_fails returned) (by simp [Activity.meetsError])

end Steps

/-! ## All handlers -/

/-- The handler a note is about. -/
def Note.index : Note → Nat
  | .trouble index => index
  | .reply index => index

theorem noted_index {activity : Activity} {index : Nat} {event : ActivityEvent} {note : Note}
    (member : note ∈ activity.noted index event) : note.index = index := by
  rw [Activity.noted, List.mem_append] at member
  rcases member with trouble | reply
  · split at trouble
    · obtain rfl := List.mem_singleton.mp trouble
      rfl
    · simp at trouble
  · split at reply
    · obtain rfl := List.mem_singleton.mp reply
      rfl
    · simp at reply

theorem Traced.other {index : Nat} {activity : Activity} {notes more : List Note}
    (traced : Traced index activity notes) (others : ∀ note ∈ more, note.index ≠ index) :
    Traced index activity (notes ++ more) := by
  have untroubled : .trouble index ∉ more := fun member => others _ member rfl
  have unreplied : more.count (.reply index) = 0 :=
    List.count_eq_zero.mpr fun member => others _ member rfl
  refine ⟨traced.order, traced.requesting, ?_, ?_⟩
  · rw [List.mem_append, or_iff_left untroubled]
    exact traced.troubled
  · rw [List.count_append, unreplied, Nat.add_zero]
    exact traced.replied

theorem constructed_traced {program : Program} {notes : List Note} {send read : Vector Byte 33}
    {now : Time} (known : ∀ note ∈ notes, note.index < program.handlers.length) :
    Traced program.handlers.length (.constructed program.services_i send read now) notes := by
  have fresh := constructed_fresh program.services_i send read now
  have untroubled : .trouble program.handlers.length ∉ notes := fun member =>
    absurd (known _ member) (Nat.lt_irrefl _)
  have unreplied : notes.count (.reply program.handlers.length) = 0 :=
    List.count_eq_zero.mpr fun member => absurd (known _ member) (Nat.lt_irrefl _)
  have begun : (Activity.constructed program.services_i send read now).handler.pushed = [] ∧
      (Activity.constructed program.services_i send read now).handler.popped = [] ∧
      ∀ action ∈ (Activity.constructed program.services_i send read now).performed ++
        (Activity.constructed program.services_i send read now).todo, action.Exchanges := by
    rw [Activity.constructed, ConnectionHandler.construct]
    split
    · exact ⟨rfl, rfl, by simp [Reaction.of]⟩
    · exact ⟨rfl, rfl, by simp [Reaction.of, Reaction.act, Reaction.add, Action.Exchanges]⟩
  obtain ⟨unrequested, unanswered, exchanges⟩ := begun
  refine ⟨constructed_inOrder _ send read now, .opening fresh unrequested exchanges, ?_,
    fun _ => ?_⟩
  · exact iff_of_false (by simp [fresh.running]) untroubled
  · rw [unanswered, unreplied]
    rfl

/-- Every handler is as the notes tell it, and the notes are about the handlers there are. -/
def Followed : Except Fault Program × List Note → Prop
  | (.ok program, notes) =>
      (∀ index activity, program.handlers[index]? = some activity → Traced index activity notes) ∧
        ∀ note ∈ notes, note.index < program.handlers.length
  | (.error _, _) => True

theorem followed_preserved : observedSystem.Preserves Followed := by
  rintro ⟨fault | program, notes⟩ event ⟨fault' | after, log⟩ followed step
  · trivial
  · simp [logged, programSystem] at step
  · trivial
  · obtain ⟨traced, known⟩ := followed
    obtain ⟨result, taken, same⟩ := (logged_step_iff _).mp step
    obtain ⟨rfl, rfl⟩ := Prod.mk.inj same
    cases event with
    | construct send read now =>
        simp only [programSystem, Program.next, Option.ite_none_right_eq_some,
          Option.some.injEq] at taken
        obtain rfl := Except.ok.inj taken.2
        simp only [noted, List.append_nil]
        refine ⟨fun index activity found => ?_, fun note member => ?_⟩
        · rcases getElem?_concat_cases found with old | ⟨rfl, rfl⟩
          · exact traced index activity old
          · exact constructed_traced known
        · rw [List.length_append]
          exact Nat.lt_add_right 1 (known note member)
    | handler index event =>
        obtain ⟨activity, activity', found, moves, rfl⟩ := Program.next_handler taken
        simp only [noted, found]
        refine ⟨fun other other_activity other_found => ?_, fun note member => ?_⟩
        · rcases getElem?_set_cases other_found with ⟨rfl, rfl⟩ | ⟨different, old⟩
          · exact (traced other activity found).next moves
          · refine (traced other other_activity old).other fun note member => ?_
            rw [noted_index member]
            exact different.symm
        · rw [Program.move, List.length_set]
          rcases List.mem_append.mp member with old | new
          · exact known note old
          · obtain ⟨inside, -⟩ := List.getElem?_eq_some_iff.mp found
            rw [noted_index new]
            exact inside

/-! ## The report -/

theorem Booked.errors_eq {activity : Activity} (booked : Booked activity) :
    errors (activity.performed ++ activity.todo) = activity.handler.errored.toInt := by
  cases booked with
  | surplus fresh _ performed todo =>
      rw [performed, todo, fresh.running]
      rfl
  | opening fresh whole =>
      rw [whole, fresh.running]
      rfl
  | ongoing _ whole _ errors_eq =>
      rw [whole, errors_append, errors_eq]
      exact zero_add _

/-- A handler with an overdue request has counted its error exactly if it is errored and not about
to count it. -/
theorem Traced.counted_iff {index : Nat} {activity : Activity} {notes : List Note} {now : Time}
    (traced : Traced index activity notes) (booked : Booked activity)
    (overdue : activity.handler.Overdue now) :
    (activity.handler.errored = true ∧ activity.share .exchangeErrors = 1) ↔
      activity.handler.errored = true ∧ countsError ∉ activity.todo := by
  obtain ⟨timer, front, -⟩ := overdue
  have requested : activity.handler.pushed ≠ [] := by
    intro unrequested
    have queue := traced.order.queue
    rw [unrequested, List.append_eq_nil_iff] at queue
    simp [queue.2] at front
  have exchanges : ∀ action ∈ activity.performed ++ activity.todo, action.Exchanges := by
    cases traced.requesting with
    | opening _ unrequested => exact absurd unrequested requested
    | refused _ _ unrequested => exact absurd unrequested requested
    | exchanging _ exchanges => exact exchanges
  have whole := booked.errors_eq
  obtain ⟨exchange, connection⟩ := added_exchanges exchanges
  obtain ⟨performed, -⟩ := added_exchanges fun action member =>
    exchanges action (List.mem_append_left _ member)
  rw [errors, exchange, connection, List.count_append] at whole
  rw [Activity.share, performed]
  refine and_congr_right fun errored => ?_
  rw [errored, Bool.toInt_true] at whole
  rw [← List.count_eq_zero]
  push_cast at whole
  omega

/-- The oldest unanswered request of a handler that met no error is the next one without a reply. -/
theorem Traced.front_eq {index : Nat} {activity : Activity} {notes : List Note}
    (traced : Traced index activity notes) (running : activity.handler.errored = false) :
    activity.handler.tqueue.head? = activity.handler.pushed[notes.count (.reply index)]? := by
  rw [← traced.replied running, ← traced.order.queue, List.getElem?_append_right (Nat.le_refl _),
    Nat.sub_self, List.head?_eq_getElem?]

/-- Whenever the tester reports, every handler with an overdue request is errored and has counted
one exchange error, exactly if each handler that met no error has read a reply for every request it
made more than the timeout before, and none with an overdue request is about to count its error. -/
theorem timeouts_counted_iff {events : List ProgramEvent} {program : Program} {notes : List Note}
    (execution : observedSystem.run (.ok .initial, []) events = some (.ok program, notes))
    (now : Time) : program.TimeoutsCounted now ↔ program.AnsweredInTime notes now := by
  have plain : programSystem.run (.ok .initial) events = some (.ok program) := by
    rw [← logged_run programSystem noted (.ok .initial) [], execution]
    rfl
  have sound := run_sound plain
  have start : Followed (.ok .initial, []) := ⟨by simp [Program.initial], by simp⟩
  obtain ⟨traced, -⟩ : Followed (.ok program, notes) := followed_preserved.run start execution
  constructor
  · intro counted index activity found
    have member := List.mem_of_getElem? found
    have here := traced index activity found
    have counted_here := counted activity member
    refine ⟨?_, ?_⟩
    · intro untroubled timer next
      have running : activity.handler.errored = false := by
        simpa using fun errored => untroubled (here.troubled.mp errored)
      by_contra late
      have overdue : activity.handler.Overdue now :=
        ⟨timer, (here.front_eq running).trans next, Nat.lt_of_not_le late⟩
      simp [running] at counted_here
      exact counted_here overdue
    · intro about overdue
      have done :=
        (here.counted_iff (sound.booked activity member) overdue).mp (counted_here overdue)
      exact done.2 about
  · intro answered activity member overdue
    obtain ⟨index, found⟩ := List.getElem?_of_mem member
    have here := traced index activity found
    obtain ⟨in_time, counts⟩ := answered index activity found
    refine (here.counted_iff (sound.booked activity member) overdue).mpr ⟨?_, fun about => ?_⟩
    · by_contra still
      have running : activity.handler.errored = false := by simpa using still
      have untroubled : .trouble index ∉ notes := fun noted => still (here.troubled.mpr noted)
      obtain ⟨timer, front, late⟩ := overdue
      have bound := in_time untroubled timer ((here.front_eq running).symm.trans front)
      exact absurd late (Nat.not_lt.mpr bound)
    · exact counts about overdue

/-- A handler connects at time 0, makes its first request and is never answered. -/
def silentServer : List ProgramEvent :=
  .construct (Vector.replicate 33 0) (Vector.replicate 33 0) 0 ::
    firstRequest.map (.handler 0)

theorem run_silent : ∃ program notes,
    observedSystem.run (.ok .initial, []) silentServer = some (.ok program, notes) ∧
      program.handlers.map (fun activity => (activity.handler.errored, activity.handler.tqueue)) =
        [(false, [0])] := by
  exact ⟨_, _, rfl, rfl⟩

theorem timeouts_counted_silent : ∃ program notes,
    observedSystem.run (.ok .initial, []) silentServer = some (.ok program, notes) ∧
      (program.TimeoutsCounted 60000000 ↔ program.AnsweredInTime notes 60000000) := by
  obtain ⟨program, notes, execution, -⟩ := run_silent
  exact ⟨program, notes, execution, timeouts_counted_iff execution 60000000⟩

/-- A request that is never answered is not counted. -/
theorem timeouts_uncounted : ∃ program notes,
    observedSystem.run (.ok .initial, []) silentServer = some (.ok program, notes) ∧
      ¬ program.TimeoutsCounted 60000000 := by
  obtain ⟨program, notes, execution, one⟩ := run_silent
  refine ⟨program, notes, execution, fun counted => ?_⟩
  obtain ⟨activity, handlers, pair⟩ := List.map_eq_singleton_iff.mp one
  obtain ⟨running, queue⟩ := Prod.mk.inj pair
  have overdue : activity.handler.Overdue 60000000 := by
    refine ⟨0, by rw [queue]; rfl, ?_⟩
    simp [client_timeout_mcs]
  obtain ⟨errored, -⟩ := counted activity (by simp [handlers]) overdue
  simp [running] at errored

end Mrps.Tester
