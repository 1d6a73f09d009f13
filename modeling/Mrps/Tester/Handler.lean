import Mrps.MachineInt
import Mrps.Region
import Mrps.Runtime

/-!
# The connection handler of the C++ tester

The member functions of `connection_handler` in `client.cc`.  A callback turns the handler into its
next state and lists, in order, what it does outside it: updates of the global counters and
operations started on the service.
-/

namespace Mrps.Tester

open MachineInt

/-- `clients_max`. -/
def clients_max : Nat := 10000

/-- `client_timeout_mcs`. -/
def client_timeout_mcs : Nat := 30 * 1000 * 1000

/-- `RAND_MAX`. -/
def RAND_MAX : Nat := 2 ^ 31 - 1

/-- The global counters. -/
inductive Counter where
  | children
  | connectionActive
  | connectionErrors
  | exchangeErrors
  | connectionSummMcs
  | latencySummMcs
  | msgs
  deriving DecidableEq, Repr

/-- The atomic updates of a counter. -/
inductive Update where
  /-- `__sync_fetch_and_add`. -/
  | fetchAndAdd (counter : Counter) (amount : Nat)
  /-- `__sync_fetch_and_sub`. -/
  | fetchAndSub (counter : Counter) (amount : Nat)
  deriving DecidableEq, Repr

/-- What a callback does outside the handler. -/
inductive Action where
  | update (update : Update)
  /-- `bear_tmr.async_wait`. -/
  | waitBear
  /-- `async_connect`. -/
  | asyncConnect
  /-- `exch_tmr.async_wait`. -/
  | waitExch
  /-- `async_read` of 32 bytes. -/
  | asyncRead
  /-- `async_write`. -/
  | asyncWrite (bytes : List Byte)
  deriving DecidableEq, Repr

/-- How a callback goes wrong. -/
inductive Fault where
  /-- An `assert` fails. -/
  | assertion
  /-- `front` or `pop` on an empty `tqueue`. -/
  | emptyQueue
  deriving DecidableEq, Repr

/-- A `timer`: the time it was started. -/
abbrev Timer := Time

/-- `timer::current`. -/
def Timer.current (timer : Timer) (now : Time) : Nat := toUnsigned 64 ((now : Int) - timer)

/-! ## Text buffers -/

/-- The decimal digits of a number in ASCII, as `%d` prints it. -/
def decimal (value : Nat) : List Byte :=
  if value = 0 then [48]
  else (Nat.digits 10 value).reverse.map fun digit => UInt8.ofNat (48 + digit)

/-- `memset`. -/
def memset (buffer : List Byte) (byte : Byte) (size : Nat) : List Byte :=
  Region.overwrite buffer 0 (List.replicate size byte)

/-- `snprintf` of a text without conversions left: at most `size - 1` characters and the
terminator. -/
def snprintf (buffer : List Byte) (size : Nat) (text : List Byte) : List Byte :=
  Region.overwrite buffer 0 (text.take (size - 1) ++ [0])

/-- `strncmp`: the difference at the first position where the strings differ, before a terminator
they share and before `size`. -/
def strncmp : List Byte → List Byte → Nat → Int
  | _, _, 0 => 0
  | left :: lefts, right :: rights, size + 1 =>
      if left ≠ right then (left.toNat : Int) - right.toNat
      else if left = 0 then 0
      else strncmp lefts rights size
  | _, _, _ => 0

/-- The content of `send_buf` after `connect`; `buffer` is what it held before and `random` the
value of `rand()`. -/
def request (buffer : List Byte) (random : Nat) : List Byte :=
  let buffer := memset buffer 32 32
  let buffer := snprintf buffer 32 (decimal random)
  let buffer := Region.overwrite buffer 31 [10]
  Region.overwrite buffer 32 [0]

/-! ## The handler -/

/-- A `connection_handler`, with the history of its queue of timers. -/
structure ConnectionHandler where
  serviceId : Nat
  sendBuf : List Byte
  readBuf : List Byte
  connectTimer : Timer
  errored : Bool
  tqueue : List Timer
  /-- Every timer pushed, one for each request. -/
  pushed : List Timer
  /-- The timers popped, one for each accepted reply. -/
  popped : List Timer
  /-- The timers whose time was added to the latencies, with the time they were read. -/
  samples : List (Timer × Time)
  deriving DecidableEq, Repr

/-- A callback so far: the handler and what was done outside it. -/
structure Reaction where
  handler : ConnectionHandler
  actions : List Action
  deriving DecidableEq, Repr

namespace Reaction

/-- The start of a callback. -/
def of (handler : ConnectionHandler) : Reaction := { handler, actions := [] }

/-- Do something outside the handler. -/
def act (reaction : Reaction) (action : Action) : Reaction :=
  { reaction with actions := reaction.actions ++ [action] }

/-- `__sync_fetch_and_add(&counter, amount)`. -/
def add (reaction : Reaction) (counter : Counter) (amount : Nat) : Reaction :=
  reaction.act (.update (.fetchAndAdd counter amount))

/-- `__sync_fetch_and_sub(&counter, amount)`. -/
def sub (reaction : Reaction) (counter : Counter) (amount : Nat) : Reaction :=
  reaction.act (.update (.fetchAndSub counter amount))

/-- Mark the handler errored and count the error. -/
def fail (reaction : Reaction) (counter : Counter) : Reaction :=
  add { reaction with handler := { reaction.handler with errored := true } } counter 1

/-- `tqueue.push(timer())`. -/
def push (reaction : Reaction) (timer : Timer) : Reaction :=
  { reaction with
    handler :=
      { reaction.handler with
        tqueue := reaction.handler.tqueue ++ [timer]
        pushed := reaction.handler.pushed ++ [timer] } }

end Reaction

open Reaction

namespace ConnectionHandler

/-- The constructor after it took its `service_id`; `send` and `read` are the uninitialised buffers
and `now` the time `connect_timer` is reset. -/
def construct (serviceId : Nat) (send read : Vector Byte 33) (now : Time) : Reaction :=
  let handler : ConnectionHandler :=
    { serviceId
      sendBuf := send.toList
      readBuf := read.toList
      connectTimer := now
      errored := false
      tqueue := []
      pushed := []
      popped := []
      samples := [] }
  if clients_max ≤ serviceId then
    of handler
  else
    (((of handler).act .waitBear).add .connectionActive 1).act .asyncConnect

end ConnectionHandler

/-- `read_staff`. -/
def readStaff (e : Bool) (reaction : Reaction) : Reaction :=
  if reaction.handler.errored then
    reaction
  else if e then
    reaction.fail .exchangeErrors
  else
    { reaction with
      handler :=
        { reaction.handler with readBuf := memset reaction.handler.readBuf 0 33 } }.act .asyncRead

/-- `send_staff`; `now` is the time its timer starts. -/
def sendStaff (e : Bool) (now : Time) (reaction : Reaction) : Except Fault Reaction :=
  if e then
    .error .assertion
  else if reaction.handler.errored then
    .ok reaction
  else
    .ok (((reaction.act .waitExch).push now).act
      (.asyncWrite (reaction.handler.sendBuf.take 32)))

/-- `connect`; `connected` is the time it reads `connect_timer`, `now` the time its first request's
timer starts. -/
def connect (e : Bool) (connected now : Time) (random : Nat) (handler : ConnectionHandler) :
    Except Fault Reaction :=
  let reaction := ((of handler).add .children 1).sub .connectionActive 1
  let spent_mcs := handler.connectTimer.current connected
  if e then
    .ok (reaction.fail .connectionErrors)
  else if client_timeout_mcs < spent_mcs then
    .ok (reaction.fail .connectionErrors)
  else
    let reaction := reaction.add .connectionSummMcs spent_mcs
    let reaction :=
      { reaction with handler := { handler with sendBuf := request handler.sendBuf random } }
    sendStaff false now (readStaff false reaction)

/-- `stub`. -/
def stub (e : Bool) (handler : ConnectionHandler) : Reaction :=
  if handler.errored then
    of handler
  else if e then
    (of handler).fail .exchangeErrors
  else
    of handler

/-- `compare_staff` after the read put its bytes into `read_buf`; `now` is the time the oldest timer
is read. -/
def compareStaff (e : Bool) (transferred : Nat) (now : Time) (handler : ConnectionHandler) :
    Except Fault Reaction :=
  if handler.errored then
    .ok (of handler)
  else if e ∨ transferred ≠ 32 ∨ strncmp handler.sendBuf handler.readBuf 32 ≠ 0 then
    .ok ((of handler).fail .exchangeErrors)
  else
    match handler.tqueue with
    | [] => .error .emptyQueue
    | timer :: tqueue =>
        let spent_mcs := timer.current now
        let reaction := of { handler with tqueue, popped := handler.popped ++ [timer] }
        if client_timeout_mcs < spent_mcs then
          .ok (reaction.fail .exchangeErrors)
        else
          let reaction := (reaction.add .msgs 1).add .latencySummMcs spent_mcs
          .ok (readStaff e
            { reaction with
              handler :=
                { reaction.handler with samples := handler.samples ++ [(timer, now)] } })

end Mrps.Tester
