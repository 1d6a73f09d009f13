import Mrps.EventSystem
import Mrps.Tester.Handler

/-!
# A connection handler on its service

A `connection_handler` with the operations it has outstanding on its `io_service` and the two byte
streams of its socket.  A callback changes the handler at once and then performs its actions one by
one; the next callback runs when all of them are performed.

A composed `async_write` issues one `write_some` at a time.  Outstanding `write_some`s are served in
the order they were issued; one that was served in part is issued again for its remainder by a step
of its own.
-/

namespace Mrps.Tester

open EventSystem

/-- A handler with everything outstanding for it. -/
structure Activity where
  handler : ConnectionHandler
  /-- What the running callback has still to do. -/
  todo : List Action
  /-- Everything its callbacks have done. -/
  performed : List Action
  /-- `bear_tmr` is waited for. -/
  bearing : Bool
  /-- An `async_connect` is outstanding. -/
  connecting : Bool
  /-- `exch_tmr` is waited for. -/
  waiting : Bool
  /-- An `async_read` is outstanding. -/
  reading : Bool
  /-- The outstanding `write_some`s, each with the bytes it offers. -/
  issued : List (List Byte)
  /-- The remainders of `write_some`s that were served in part. -/
  resuming : List (List Byte)
  /-- The finished `async_write`s whose callback has not run, each with whether it failed. -/
  written : List Bool
  /-- The bytes placed on the connection. -/
  placed : List Byte
  /-- The bytes that have arrived and no finished read has taken. -/
  inbox : List Byte
  /-- The bytes finished reads have taken. -/
  consumed : List Byte
  deriving DecidableEq, Repr

/-- The steps of a handler, its service and its socket. -/
inductive ActivityEvent where
  /-- The running callback performs its next action. -/
  | perform
  /-- `bear_tmr` expires. -/
  | bear
  /-- `connect`, with its error, the times it reads and the value of `rand()`. -/
  | connect (e : Bool) (connected now : Time) (random : Nat)
  /-- `exch_tmr` expires: `send_staff`. -/
  | exchange (now : Time)
  /-- The first outstanding `write_some` places bytes. -/
  | serve (count : Nat)
  /-- The first outstanding `write_some` fails. -/
  | serveFails
  /-- A composed write issues a `write_some` for its remainder. -/
  | resume
  /-- `stub`. -/
  | stub
  /-- Bytes arrive from the server. -/
  | arrive (bytes : List Byte)
  /-- The read has its 32 bytes: `compare_staff`. -/
  | read (now : Time)
  /-- The read fails after some bytes: `compare_staff`. -/
  | readFails (transferred : Nat) (now : Time)
  deriving DecidableEq, Repr

namespace Activity

/-- Start what an action starts. -/
def start (activity : Activity) (action : Action) : Activity :=
  let activity := { activity with performed := activity.performed ++ [action] }
  match action with
  | .update _ => activity
  | .waitBear => { activity with bearing := true }
  | .asyncConnect => { activity with connecting := true }
  | .waitExch => { activity with waiting := true }
  | .asyncRead => { activity with reading := true }
  | .asyncWrite bytes => { activity with issued := activity.issued ++ [bytes] }

@[simp] theorem start_performed (activity : Activity) (action : Action) :
    (activity.start action).performed = activity.performed ++ [action] := by
  cases action <;> rfl

@[simp] theorem start_handler (activity : Activity) (action : Action) :
    (activity.start action).handler = activity.handler := by
  cases action <;> rfl

@[simp] theorem start_consumed (activity : Activity) (action : Action) :
    (activity.start action).consumed = activity.consumed := by
  cases action <;> rfl

@[simp] theorem start_todo (activity : Activity) (action : Action) :
    (activity.start action).todo = activity.todo := by
  cases action <;> rfl

/-- Run a callback. -/
def react (activity : Activity) (callback : Except Fault Reaction) : Except Fault Activity :=
  callback.map fun reaction =>
    { activity with handler := reaction.handler, todo := reaction.actions }

/-- A finished read put `count` bytes into `read_buf`. -/
def receive (activity : Activity) (count : Nat) : Activity :=
  let bytes := activity.inbox.take count
  { activity with
    handler :=
      { activity.handler with readBuf := Region.overwrite activity.handler.readBuf 0 bytes }
    reading := false
    inbox := activity.inbox.drop count
    consumed := activity.consumed ++ bytes }

/-- One step; callbacks of a handler run one after the other. -/
def next (activity : Activity) : ActivityEvent → Option (Except Fault Activity)
  | .perform =>
      match activity.todo with
      | [] => none
      | action :: todo => some (.ok ({ activity with todo }.start action))
  | .bear => if activity.bearing then some (.ok { activity with bearing := false }) else none
  | .connect e connected now random =>
      if activity.todo = [] ∧ activity.connecting ∧ random ≤ RAND_MAX then
        some ({ activity with connecting := false }.react
          (Tester.connect e connected now random activity.handler))
      else
        none
  | .exchange now =>
      if activity.todo = [] ∧ activity.waiting then
        some ({ activity with waiting := false }.react
          (sendStaff false now (.of activity.handler)))
      else
        none
  | .serve count =>
      match activity.issued with
      | [] => none
      | bytes :: issued =>
          if 0 < count ∧ count < bytes.length then
            some (.ok { activity with
              issued
              resuming := activity.resuming ++ [bytes.drop count]
              placed := activity.placed ++ bytes.take count })
          else if count = bytes.length then
            some (.ok { activity with
              issued
              written := activity.written ++ [false]
              placed := activity.placed ++ bytes })
          else
            none
  | .serveFails =>
      match activity.issued with
      | [] => none
      | _ :: issued => some (.ok { activity with issued, written := activity.written ++ [true] })
  | .resume =>
      match activity.resuming with
      | [] => none
      | bytes :: resuming =>
          some (.ok { activity with resuming, issued := activity.issued ++ [bytes] })
  | .stub =>
      match activity.todo, activity.written with
      | [], e :: written =>
          some ({ activity with written }.react (.ok (Tester.stub e activity.handler)))
      | _, _ => none
  | .arrive bytes => some (.ok { activity with inbox := activity.inbox ++ bytes })
  | .read now =>
      if activity.todo = [] ∧ activity.reading ∧ 32 ≤ activity.inbox.length then
        let activity := activity.receive 32
        some (activity.react (compareStaff false 32 now activity.handler))
      else
        none
  | .readFails transferred now =>
      if activity.todo = [] ∧ activity.reading ∧ transferred < 32 ∧
          transferred ≤ activity.inbox.length then
        let activity := activity.receive transferred
        some (activity.react (compareStaff true transferred now activity.handler))
      else
        none

/-- A handler after its constructor took its `service_id`. -/
def constructed (serviceId : Nat) (send read : Vector Byte 33) (now : Time) : Activity :=
  let reaction := ConnectionHandler.construct serviceId send read now
  { handler := reaction.handler
    todo := reaction.actions
    performed := []
    bearing := false
    connecting := false
    waiting := false
    reading := false
    issued := []
    resuming := []
    written := []
    placed := []
    inbox := []
    consumed := [] }

end Activity

/-- The runs of one handler; a fault ends the run. -/
def activitySystem : EventSystem (Except Fault Activity) ActivityEvent where
  step state event :=
    match state with
    | .ok activity => activity.next event
    | .error _ => none

/-! ## The start of a run -/

/-- A handler that is constructed at time 0 over zeroed memory. -/
def zeroed : Except Fault Activity :=
  .ok (.constructed 0 (Vector.replicate 33 0) (Vector.replicate 33 0) 0)

/-- The handler connects, `rand()` being 0, and makes its first request. -/
def firstRequest : List ActivityEvent :=
  List.replicate 3 .perform ++ [.connect false 0 0 0] ++ List.replicate 6 .perform

/-- The message of these requests. -/
def zeroMessage : List Byte := [48, 0] ++ List.replicate 29 32 ++ [10]

/-! ## What one step can do -/

/-- The steps of a handler: every event with its guard and its effect. -/
inductive Moves (activity : Activity) : ActivityEvent → Except Fault Activity → Prop
  | perform {action : Action} {todo : List Action} : activity.todo = action :: todo →
      Moves activity .perform (.ok ({ activity with todo }.start action))
  | bear : activity.bearing = true → Moves activity .bear (.ok { activity with bearing := false })
  | connect {e : Bool} {connected now : Time} {random : Nat} : activity.todo = [] →
      activity.connecting = true → random ≤ RAND_MAX →
      Moves activity (.connect e connected now random)
        ({ activity with connecting := false }.react
          (connect e connected now random activity.handler))
  | exchange {now : Time} : activity.todo = [] → activity.waiting = true →
      Moves activity (.exchange now)
        ({ activity with waiting := false }.react (sendStaff false now (.of activity.handler)))
  | servePart {count : Nat} {bytes : List Byte} {issued : List (List Byte)} :
      activity.issued = bytes :: issued → 0 < count → count < bytes.length →
      Moves activity (.serve count)
        (.ok { activity with
          issued
          resuming := activity.resuming ++ [bytes.drop count]
          placed := activity.placed ++ bytes.take count })
  | serveAll {bytes : List Byte} {issued : List (List Byte)} :
      activity.issued = bytes :: issued →
      Moves activity (.serve bytes.length)
        (.ok { activity with
          issued
          written := activity.written ++ [false]
          placed := activity.placed ++ bytes })
  | serveFails {bytes : List Byte} {issued : List (List Byte)} :
      activity.issued = bytes :: issued →
      Moves activity .serveFails
        (.ok { activity with issued, written := activity.written ++ [true] })
  | resume {bytes : List Byte} {resuming : List (List Byte)} :
      activity.resuming = bytes :: resuming →
      Moves activity .resume
        (.ok { activity with resuming, issued := activity.issued ++ [bytes] })
  | stub {e : Bool} {written : List Bool} : activity.todo = [] → activity.written = e :: written →
      Moves activity .stub ({ activity with written }.react (.ok (stub e activity.handler)))
  | arrive {bytes : List Byte} :
      Moves activity (.arrive bytes) (.ok { activity with inbox := activity.inbox ++ bytes })
  | read {now : Time} : activity.todo = [] → activity.reading = true →
      32 ≤ activity.inbox.length →
      Moves activity (.read now)
        ((activity.receive 32).react (compareStaff false 32 now (activity.receive 32).handler))
  | readFails {transferred : Nat} {now : Time} : activity.todo = [] → activity.reading = true →
      transferred < 32 → transferred ≤ activity.inbox.length →
      Moves activity (.readFails transferred now)
        ((activity.receive transferred).react
          (compareStaff true transferred now (activity.receive transferred).handler))

theorem moves_of_next {activity : Activity} {event : ActivityEvent}
    {result : Except Fault Activity} (step : activity.next event = some result) :
    Moves activity event result := by
  cases event with
  | perform =>
      simp only [Activity.next] at step
      split at step
      · simp at step
      · rename_i action todo split
        obtain rfl := Option.some.inj step
        exact .perform split
  | bear =>
      simp only [Activity.next, Option.ite_none_right_eq_some, Option.some.injEq] at step
      obtain ⟨bearing, rfl⟩ := step
      exact .bear bearing
  | connect e connected now random =>
      simp only [Activity.next, Option.ite_none_right_eq_some, Option.some.injEq] at step
      obtain ⟨⟨idle, connecting, bound⟩, rfl⟩ := step
      exact .connect idle connecting bound
  | exchange now =>
      simp only [Activity.next, Option.ite_none_right_eq_some, Option.some.injEq] at step
      obtain ⟨⟨idle, waiting⟩, rfl⟩ := step
      exact .exchange idle waiting
  | serve count =>
      simp only [Activity.next] at step
      split at step
      · simp at step
      · rename_i bytes issued split
        by_cases part : 0 < count ∧ count < bytes.length
        · rw [if_pos part] at step
          obtain rfl := Option.some.inj step
          exact .servePart split part.1 part.2
        · rw [if_neg part, Option.ite_none_right_eq_some] at step
          obtain ⟨rfl, step⟩ := step
          obtain rfl := Option.some.inj step
          exact .serveAll split
  | serveFails =>
      simp only [Activity.next] at step
      split at step
      · simp at step
      · rename_i bytes issued split
        obtain rfl := Option.some.inj step
        exact .serveFails split
  | resume =>
      simp only [Activity.next] at step
      split at step
      · simp at step
      · rename_i bytes resuming split
        obtain rfl := Option.some.inj step
        exact .resume split
  | stub =>
      simp only [Activity.next] at step
      split at step
      · rename_i e written idle split
        obtain rfl := Option.some.inj step
        exact .stub idle split
      · simp at step
  | arrive bytes =>
      obtain rfl := Option.some.inj step
      exact .arrive
  | read now =>
      simp only [Activity.next, Option.ite_none_right_eq_some, Option.some.injEq] at step
      obtain ⟨⟨idle, reading, enough⟩, rfl⟩ := step
      exact .read idle reading enough
  | readFails transferred now =>
      simp only [Activity.next, Option.ite_none_right_eq_some, Option.some.injEq] at step
      obtain ⟨⟨idle, reading, short, enough⟩, rfl⟩ := step
      exact .readFails idle reading short enough

end Mrps.Tester
