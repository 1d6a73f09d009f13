import Mrps.MachineInt

/-!
# Sockets and watchers

The part of the kernel and of libev the C programs see: the answers of `recv` and `send`, the two
wrappers of `header.h`, and the state a loop keeps of each registered watcher.
-/

namespace Mrps

/-- A `char` of a buffer or of a stream. -/
abbrev Byte := UInt8

/-- Microseconds on the clock of a loop. -/
abbrev Time := Nat

/-- The values of `errno` the programs tell apart. -/
inductive Errno where
  | eagain
  | eintr
  | other (code : Nat)
  deriving DecidableEq, Repr

/-- Outcome of one `recv`: the bytes it delivered (none at end of stream) or the error. -/
abbrev RecvAnswer := Except Errno (List Byte)

/-- Outcome of one `send`: how many of the offered bytes were accepted, or the error. -/
abbrev SendAnswer := Except Errno Nat

/-- `aux_unix_recv` against the successive outcomes of its `recv` calls: an interrupted call is
repeated.  `none` when the answers end before the loop does. -/
def auxUnixRecv : List RecvAnswer → Option RecvAnswer
  | [] => none
  | .error .eintr :: answers => auxUnixRecv answers
  | answer :: _ => some answer

/-- `aux_unix_send` makes a single call. -/
def auxUnixSend (answer : SendAnswer) : SendAnswer := answer

/-- What a loop keeps of an I/O watcher: `active` from start to stop, `pending` from the report of
an event to its callback. -/
structure IoWatcher where
  active : Bool
  pending : Bool
  deriving DecidableEq, Repr

namespace IoWatcher

/-- `ev_io_init`. -/
def init : IoWatcher := { active := false, pending := false }

/-- `ev_io_start`. -/
def start (watcher : IoWatcher) : IoWatcher := { watcher with active := true }

/-- `ev_io_stop` also drops a pending event. -/
def stop (_ : IoWatcher) : IoWatcher := { active := false, pending := false }

/-- The loop reports an event of a watcher only while it is active. -/
def poll (watcher : IoWatcher) : Option IoWatcher :=
  if watcher.active then some { watcher with pending := true } else none

/-- The loop takes the event off before it calls the callback. -/
def invoked (watcher : IoWatcher) : IoWatcher := { watcher with pending := false }

theorem poll_eq_some_iff {watcher polled : IoWatcher} :
    watcher.poll = some polled ↔
      watcher.active = true ∧ polled = { watcher with pending := true } := by
  rw [poll, Option.ite_none_right_eq_some, Option.some.injEq, @eq_comm _ polled]

end IoWatcher

/-- What a loop keeps of a timer; `deadline` counts while the timer is active. -/
structure TimerWatcher where
  active : Bool
  pending : Bool
  deadline : Time
  deriving DecidableEq, Repr

namespace TimerWatcher

/-- `ev_timer_init`. -/
def init : TimerWatcher := { active := false, pending := false, deadline := 0 }

/-- `ev_timer_again`: drop a pending expiry and count the whole period from `now`. -/
def again (now period : Time) (_ : TimerWatcher) : TimerWatcher :=
  { active := true, pending := false, deadline := now + period }

/-- `ev_timer_stop`. -/
def stop (watcher : TimerWatcher) : TimerWatcher :=
  { watcher with active := false, pending := false }

/-- An active timer whose deadline has passed is reported and set for its next period. -/
def poll (now period : Time) (watcher : TimerWatcher) : Option TimerWatcher :=
  if watcher.active ∧ watcher.deadline ≤ now then
    some { watcher with pending := true, deadline := max (watcher.deadline + period) now }
  else
    none

/-- The loop takes the expiry off before it calls the callback. -/
def invoked (watcher : TimerWatcher) : TimerWatcher := { watcher with pending := false }

theorem poll_eq_some_iff {watcher polled : TimerWatcher} {now period : Time} :
    watcher.poll now period = some polled ↔
      (watcher.active = true ∧ watcher.deadline ≤ now) ∧
        polled = { watcher with
          pending := true, deadline := max (watcher.deadline + period) now } := by
  rw [poll, Option.ite_none_right_eq_some, Option.some.injEq, @eq_comm _ polled]

end TimerWatcher

end Mrps
