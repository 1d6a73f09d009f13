import Mrps.EventSystem
import Mrps.MachineInt
import Mrps.Runtime

/-!
# The load generator

The client object of `client.c` with its callbacks.  A session is one client with what it shares
with the others: the time of the loop and the statistics.  The registrations of the watchers and the
record of the socket are kept beside the object, so an event for a freed client stays expressible.
-/

namespace Mrps.Load

open MachineInt

/-- `REQUEST`, "123". -/
def REQUEST : List Byte := [49, 50, 51]

/-- `RESEND_INTERVAL`, 10 milliseconds. -/
def RESEND_INTERVAL : Time := 10000

/-- The length of `buf` in `wcb_recv`, handed to `recv`. -/
def BUF_SIZE : Nat := 4096

/-- The memory error a callback can commit. -/
inductive Fault where
  | useAfterFree
  deriving DecidableEq, Repr

/-- `struct client`.  Its watchers all carry the descriptor `fd`; what the loop knows of them is
kept in `Watchers`. -/
structure Client where
  /-- Descriptor given to `ev_io_init`. -/
  fd : Nat
  ts : Time
  /-- The `unsigned` number of requests waiting to be sent. -/
  toSend : Nat
  deriving DecidableEq, Repr

/-- The four watchers of a client, as the loop knows them. -/
structure Watchers where
  recv : IoWatcher
  send : IoWatcher
  connect : IoWatcher
  timeout : TimerWatcher
  deriving DecidableEq, Repr

/-- One connection from `client_add` on. -/
structure Connection where
  /-- The client object, `none` once it is freed. -/
  client : Option Client
  /-- Registrations in the loop; they outlive the object unless they are stopped. -/
  watchers : Watchers
  /-- Bytes `send` has accepted so far, each with the time of its `client_send`. -/
  wire : List (Byte × Time)
  /-- Bytes `recv` has delivered so far. -/
  received : List Byte
  /-- Descriptors passed to `close`, in order. -/
  closed : List Nat
  /-- Number of runs of `client_del`. -/
  dels : Nat
  deriving DecidableEq, Repr

/-- `times_sum`, `times_count`, `times_max` and `times_min`. -/
structure Statistics where
  timesSum : Int
  /-- A `size_t`. -/
  timesCount : Nat
  timesMax : Int
  timesMin : Int
  deriving DecidableEq, Repr

/-- One client in its loop. -/
structure Session where
  conn : Connection
  /-- `ev_now`. -/
  clock : Time
  times : Statistics
  deriving DecidableEq, Repr

/-- The statistics at the start of `main`. -/
def Statistics.initial : Statistics :=
  { timesSum := 0, timesCount := 0, timesMax := 0, timesMin := 100 * 1000000 }

/-- The updates of `wcb_recv`. -/
def Statistics.count (times : Statistics) (time : Int) : Statistics :=
  { timesSum := times.timesSum + time
    timesCount := (times.timesCount + 1) % 2 ^ 64
    timesMax := if times.timesMax < time then time else times.timesMax
    timesMin := if times.timesMin > time then time else times.timesMin }

namespace Session

/-- Follow the client pointer. -/
def deref (session : Session) : Except Fault Client :=
  match session.conn.client with
  | some client => .ok client
  | none => .error .useAfterFree

/-- Assign fields of the client object. -/
def store (session : Session) (client : Client) : Except Fault Session := do
  let _ ← session.deref
  return { session with conn := { session.conn with client := some client } }

/-- A libev call on a watcher inside the client object. -/
def evCall (session : Session) (call : Watchers → Watchers) : Except Fault Session := do
  let _ ← session.deref
  return { session with conn := { session.conn with watchers := call session.conn.watchers } }

/-- `ev_io_start(loop, &c->wev_recv)`. -/
def startRecv (session : Session) : Except Fault Session :=
  session.evCall fun watchers => { watchers with recv := watchers.recv.start }

/-- `ev_io_stop(loop, &c->wev_recv)`. -/
def stopRecv (session : Session) : Except Fault Session :=
  session.evCall fun watchers => { watchers with recv := watchers.recv.stop }

/-- `ev_io_start(loop, &c->wev_send)`. -/
def startSend (session : Session) : Except Fault Session :=
  session.evCall fun watchers => { watchers with send := watchers.send.start }

/-- `ev_io_stop(loop, &c->wev_send)`. -/
def stopSend (session : Session) : Except Fault Session :=
  session.evCall fun watchers => { watchers with send := watchers.send.stop }

/-- `ev_io_stop(loop, &c->wev_connect)`. -/
def stopConnect (session : Session) : Except Fault Session :=
  session.evCall fun watchers => { watchers with connect := watchers.connect.stop }

/-- `ev_timer_stop(loop, &c->wev_timeout)`. -/
def stopTimeout (session : Session) : Except Fault Session :=
  session.evCall fun watchers => { watchers with timeout := watchers.timeout.stop }

/-- `close`. -/
def close (session : Session) (fd : Nat) : Session :=
  { session with conn := { session.conn with closed := session.conn.closed ++ [fd] } }

/-- `free(c)`. -/
def free (session : Session) : Except Fault Session := do
  let _ ← session.deref
  return { session with conn := { session.conn with client := none } }

end Session

open Session

/-- `client_add` from its `ev_io_init` calls on; `calloc` left zeros in the other fields. -/
def clientAdd (sd : Nat) (now : Time) : Connection :=
  { client := some { fd := sd, ts := 0, toSend := 0 }
    watchers :=
      { recv := IoWatcher.init
        send := IoWatcher.init
        connect := IoWatcher.init.start
        timeout := TimerWatcher.init.again now RESEND_INTERVAL }
    wire := []
    received := []
    closed := []
    dels := 0 }

/-- `client_del`; its message reads the client first. -/
def clientDel (session : Session) : Except Fault Session := do
  let session := { session with conn := { session.conn with dels := session.conn.dels + 1 } }
  let _ ← session.deref
  let session ← session.stopRecv
  let session ← session.stopSend
  let session ← session.stopConnect
  let session ← session.stopTimeout
  let client ← session.deref
  let session := session.close client.fd
  session.free

/-- The kernel takes the first `nb` bytes of a request. -/
def Session.put (session : Session) (nb : Nat) : Session :=
  { session with
    conn := { session.conn with
      wire := session.conn.wire ++ (REQUEST.take nb).map fun byte => (byte, session.clock) } }

/-- `client_send`; `answer` is the outcome of its `send`.  It returns whether it deleted the client,
in C the result `-1`. -/
def clientSend (answer : SendAnswer) (session : Session) : Except Fault (Bool × Session) := do
  let client ← session.deref
  match auxUnixSend answer with
  | .error _ =>
      let session ← session.store { client with ts := session.clock }
      let session ← clientDel session
      return (true, session)
  | .ok nb =>
      let session ← (session.put nb).store { client with ts := session.clock }
      return (false, session)

/-- `wcb_timeout`. -/
def wcbTimeout (session : Session) : Except Fault Session := do
  let client ← session.deref
  let session ← session.store { client with toSend := toUnsigned 32 (client.toSend + 1) }
  session.startSend

/-- `wcb_connect`; `readable` is whether the loop reports `EV_READ`. -/
def wcbConnect (readable : Bool) (session : Session) : Except Fault Session := do
  let client ← session.deref
  if readable then
    clientDel session
  else
    let session ← session.store { client with toSend := 1 }
    let session ← session.stopConnect
    let session ← session.startSend
    session.startRecv

/-- `wcb_send` against the outcomes of its `send` calls, of which there must be one for each round
of its loop. -/
def wcbSend : List SendAnswer → Session → Option (Except Fault Session)
  | answers, session =>
      match session.deref with
      | .error fault => some (.error fault)
      | .ok client =>
          if client.toSend = 0 then
            if answers = [] then some session.stopSend else none
          else
            match answers with
            | [] => none
            | answer :: answers =>
                match clientSend answer session with
                | .error fault => some (.error fault)
                | .ok (true, session) => if answers = [] then some (.ok session) else none
                | .ok (false, session) =>
                    match session.deref with
                    | .error fault => some (.error fault)
                    | .ok client =>
                        match session.store { client with toSend := client.toSend - 1 } with
                        | .error fault => some (.error fault)
                        | .ok session => wcbSend answers session

/-- `wcb_recv`; `nb` is what `aux_unix_recv` returned. -/
def wcbRecv (nb : RecvAnswer) (session : Session) : Except Fault Session := do
  let client ← session.deref
  let time : Int := session.clock - client.ts
  let session := { session with times := session.times.count time }
  match nb with
  | .error .eagain => return session
  | .error _ => clientDel session
  | .ok bytes =>
      return { session with
        conn := { session.conn with received := session.conn.received ++ bytes } }

/-! ## Runs of one client -/

/-- What can happen to one client between two visits of the loop. -/
inductive Event where
  /-- The loop updates its time. -/
  | tick (elapsed : Time)
  /-- The loop reports an event of `wev_recv`. -/
  | pollRecv
  /-- The loop reports an event of `wev_send`. -/
  | pollSend
  /-- The loop reports an event of `wev_connect`. -/
  | pollConnect
  /-- The loop finds the timer expired. -/
  | pollTimeout
  /-- `wcb_recv`, with the outcomes of its system calls. -/
  | wcbRecv (recv : List RecvAnswer)
  /-- `wcb_send`, with the outcomes of its system calls. -/
  | wcbSend (send : List SendAnswer)
  /-- `wcb_connect`, with whether the descriptor is reported readable. -/
  | wcbConnect (readable : Bool)
  /-- `wcb_timeout`. -/
  | wcbTimeout
  deriving DecidableEq, Repr

/-- `send` accepts at most what it was offered. -/
def SendContract : SendAnswer → Prop
  | .ok nb => nb ≤ REQUEST.length
  | .error _ => True

/-- `recv` delivers at most the length it was asked for. -/
def RecvContract : RecvAnswer → Prop
  | .ok bytes => bytes.length ≤ BUF_SIZE
  | .error _ => True

instance : (answer : SendAnswer) → Decidable (SendContract answer)
  | .ok nb => inferInstanceAs (Decidable (nb ≤ REQUEST.length))
  | .error _ => inferInstanceAs (Decidable True)

instance : (nb : RecvAnswer) → Decidable (RecvContract nb)
  | .ok bytes => inferInstanceAs (Decidable (bytes.length ≤ BUF_SIZE))
  | .error _ => inferInstanceAs (Decidable True)

/-- Change the registrations from outside a callback. -/
def Session.register (session : Session) (call : Watchers → Watchers) : Session :=
  { session with conn := { session.conn with watchers := call session.conn.watchers } }

/-- The loop around one client.  A callback runs exactly when its watcher has a pending event,
whether or not the client object still exists. -/
def Session.next (session : Session) : Event → Option (Except Fault Session)
  | .tick elapsed => some (.ok { session with clock := session.clock + elapsed })
  | .pollRecv =>
      session.conn.watchers.recv.poll.map fun recv =>
        .ok (session.register fun watchers => { watchers with recv })
  | .pollSend =>
      session.conn.watchers.send.poll.map fun send =>
        .ok (session.register fun watchers => { watchers with send })
  | .pollConnect =>
      session.conn.watchers.connect.poll.map fun connect =>
        .ok (session.register fun watchers => { watchers with connect })
  | .pollTimeout =>
      (session.conn.watchers.timeout.poll session.clock RESEND_INTERVAL).map fun timeout =>
        .ok (session.register fun watchers => { watchers with timeout })
  | .wcbRecv recv =>
      if session.conn.watchers.recv.pending then
        (auxUnixRecv recv).bind fun nb =>
          if RecvContract nb then
            some (Load.wcbRecv nb (session.register fun watchers =>
              { watchers with recv := watchers.recv.invoked }))
          else
            none
      else
        none
  | .wcbSend send =>
      if session.conn.watchers.send.pending ∧ ∀ answer ∈ send, SendContract answer then
        Load.wcbSend send (session.register fun watchers =>
          { watchers with send := watchers.send.invoked })
      else
        none
  | .wcbConnect readable =>
      if session.conn.watchers.connect.pending then
        some (Load.wcbConnect readable (session.register fun watchers =>
          { watchers with connect := watchers.connect.invoked }))
      else
        none
  | .wcbTimeout =>
      if session.conn.watchers.timeout.pending then
        some (Load.wcbTimeout (session.register fun watchers =>
          { watchers with timeout := watchers.timeout.invoked }))
      else
        none

/-- A session from `client_add` on. -/
def Session.start (sd : Nat) (now : Time) (times : Statistics) : Session :=
  { conn := clientAdd sd now, clock := now, times }

/-- The runs of one client; a fault ends the run. -/
def sessionSystem : EventSystem (Except Fault Session) Event where
  step state event :=
    match state with
    | .ok session => session.next event
    | .error _ => none

end Mrps.Load
