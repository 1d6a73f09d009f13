import Mrps.EventSystem
import Mrps.Runtime

/-!
# The plain echo client

The client object of `server.c` and `thread.c` with its callbacks, which are the same in both files.
The receive callback sends back what it has just read from an array on its stack, and keeps nothing
for the next one.
-/

namespace Mrps.Plain

/-- `SOCKET_TIMEOUT`, 60 seconds. -/
def SOCKET_TIMEOUT : Time := 60 * 1000000

/-- The length of `buf` in `echo_client_wcb_recv`, handed to `recv`. -/
def BUF_SIZE : Nat := 4096

/-- The memory error a callback can commit. -/
inductive Fault where
  | useAfterFree
  deriving DecidableEq, Repr

/-- `struct echo_client`.  Its watchers carry the descriptor `fd`; what the loop knows of them is
kept in `Watchers`. -/
structure EchoClient where
  /-- Descriptor given to `ev_io_init`. -/
  fd : Nat
  deriving DecidableEq, Repr

/-- The two watchers of a client, as its loop knows them. -/
structure Watchers where
  recv : IoWatcher
  timeout : TimerWatcher
  deriving DecidableEq, Repr

/-- One accepted connection from `echo_client_add` on. -/
structure Connection where
  /-- The client object, `none` once it is freed. -/
  client : Option EchoClient
  /-- Registrations in the loop; they outlive the object unless they are stopped. -/
  watchers : Watchers
  /-- `ev_now` of the loop. -/
  clock : Time
  /-- Bytes `recv` has delivered so far. -/
  received : List Byte
  /-- Bytes `send` has accepted so far. -/
  sent : List Byte
  /-- Descriptors passed to `close`, in order. -/
  closed : List Nat
  /-- Number of runs of `echo_client_del`. -/
  dels : Nat
  deriving DecidableEq, Repr

namespace Connection

/-- Follow the client pointer. -/
def deref (conn : Connection) : Except Fault EchoClient :=
  match conn.client with
  | some client => .ok client
  | none => .error .useAfterFree

/-- A libev call on a watcher inside the client object. -/
def evCall (conn : Connection) (call : Watchers → Watchers) : Except Fault Connection := do
  let _ ← conn.deref
  return { conn with watchers := call conn.watchers }

/-- `ev_io_stop(loop, &c->wev_recv)`. -/
def stopRecv (conn : Connection) : Except Fault Connection :=
  conn.evCall fun watchers => { watchers with recv := watchers.recv.stop }

/-- `ev_timer_stop(loop, &c->wev_timeout)`. -/
def stopTimeout (conn : Connection) : Except Fault Connection :=
  conn.evCall fun watchers => { watchers with timeout := watchers.timeout.stop }

/-- `ev_timer_again(loop, &c->wev_timeout)`. -/
def timeoutAgain (conn : Connection) : Except Fault Connection :=
  conn.evCall fun watchers =>
    { watchers with timeout := watchers.timeout.again conn.clock SOCKET_TIMEOUT }

/-- `close`. -/
def close (conn : Connection) (fd : Nat) : Connection :=
  { conn with closed := conn.closed ++ [fd] }

/-- `free(c)`. -/
def free (conn : Connection) : Except Fault Connection := do
  let _ ← conn.deref
  return { conn with client := none }

end Connection

open Connection

/-- `echo_client_add` after its allocation. -/
def echoClientAdd (sd : Nat) (now : Time) : Connection :=
  { client := some { fd := sd }
    watchers :=
      { recv := IoWatcher.init.start
        timeout := TimerWatcher.init.again now SOCKET_TIMEOUT }
    clock := now
    received := []
    sent := []
    closed := []
    dels := 0 }

/-- `echo_client_del`. -/
def echoClientDel (conn : Connection) : Except Fault Connection := do
  let conn := { conn with dels := conn.dels + 1 }
  let conn ← conn.stopRecv
  let conn ← conn.stopTimeout
  let client ← conn.deref
  let conn := conn.close client.fd
  conn.free

/-- `echo_client_wcb_timeout`. -/
def echoClientWcbTimeout (conn : Connection) : Except Fault Connection :=
  echoClientDel conn

/-- `echo_client_wcb_recv`; `nb` is what `aux_unix_recv` returned and `answer` the outcome of the
`send` behind it. -/
def echoClientWcbRecv (nb : RecvAnswer) (answer : SendAnswer) (conn : Connection) :
    Except Fault Connection := do
  let _ ← conn.deref
  match nb with
  | .error .eagain => conn.timeoutAgain
  | .error _ => echoClientDel conn
  | .ok bytes =>
      let conn := { conn with received := conn.received ++ bytes }
      if bytes = [] then
        echoClientDel conn
      else
        match auxUnixSend answer with
        | .error _ => echoClientDel conn
        | .ok sentNb =>
            let conn := { conn with sent := conn.sent ++ bytes.take sentNb }
            conn.timeoutAgain

/-! ## Runs of one connection -/

/-- What can happen to one connection between two visits of the loop. -/
inductive Event where
  /-- The loop updates its time. -/
  | tick (elapsed : Time)
  /-- The loop finds the descriptor readable. -/
  | pollRecv
  /-- The loop finds the timer expired. -/
  | pollTimeout
  /-- `echo_client_wcb_recv`, with the outcomes of its system calls. -/
  | wcbRecv (recv : List RecvAnswer) (send : SendAnswer)
  /-- `echo_client_wcb_timeout`. -/
  | wcbTimeout
  deriving DecidableEq, Repr

/-- `send` accepts at most what it was offered. -/
def SendContract (offered : List Byte) (send : SendAnswer) : Prop :=
  match send with
  | .ok sentNb => sentNb ≤ offered.length
  | .error _ => True

/-- `recv` delivers at most the length it was asked for, and the `send` behind it keeps its
contract. -/
def CallContract (nb : RecvAnswer) (send : SendAnswer) : Prop :=
  match nb with
  | .ok bytes => bytes.length ≤ BUF_SIZE ∧ SendContract bytes send
  | .error _ => True

instance (offered : List Byte) (send : SendAnswer) : Decidable (SendContract offered send) :=
  match send with
  | .ok sentNb => inferInstanceAs (Decidable (sentNb ≤ offered.length))
  | .error _ => inferInstanceAs (Decidable True)

instance (nb : RecvAnswer) (send : SendAnswer) : Decidable (CallContract nb send) :=
  match nb with
  | .ok bytes => inferInstanceAs (Decidable (bytes.length ≤ BUF_SIZE ∧ SendContract bytes send))
  | .error _ => inferInstanceAs (Decidable True)

/-- The loop around one connection.  A callback runs exactly when its watcher has a pending event,
whether or not the client object still exists. -/
def Connection.next (conn : Connection) : Event → Option (Except Fault Connection)
  | .tick elapsed => some (.ok { conn with clock := conn.clock + elapsed })
  | .pollRecv =>
      conn.watchers.recv.poll.map fun recv =>
        .ok { conn with watchers := { conn.watchers with recv } }
  | .pollTimeout =>
      (conn.watchers.timeout.poll conn.clock SOCKET_TIMEOUT).map fun timeout =>
        .ok { conn with watchers := { conn.watchers with timeout } }
  | .wcbRecv recv send =>
      if conn.watchers.recv.pending then
        (auxUnixRecv recv).bind fun nb =>
          if CallContract nb send then
            let watchers := { conn.watchers with recv := conn.watchers.recv.invoked }
            some (echoClientWcbRecv nb send { conn with watchers })
          else
            none
      else
        none
  | .wcbTimeout =>
      if conn.watchers.timeout.pending then
        let watchers := { conn.watchers with timeout := conn.watchers.timeout.invoked }
        some (echoClientWcbTimeout { conn with watchers })
      else
        none

/-- The runs of one connection; a fault ends the run. -/
def connectionSystem : EventSystem (Except Fault Connection) Event where
  step state event :=
    match state with
    | .ok conn => conn.next event
    | .error _ => none

end Mrps.Plain
