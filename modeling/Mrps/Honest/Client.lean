import Mrps.EventSystem
import Mrps.Region
import Mrps.Runtime

/-!
# The buffered echo clients

The client object of `server-honest.c` and `thread-honest.c` with its callbacks.  The two files
differ, for one connection, only in what the receive callback does when `recv` returns 0.  A
connection is the client object together with the loop's registration of its watchers and the
kernel's record of its socket, so an event for a freed client stays expressible.
-/

namespace Mrps.Honest

open MachineInt Region

/-- `TO_SEND_SIZE`. -/
def TO_SEND_SIZE : Nat := 4096 * 4

/-- `SOCKET_TIMEOUT`, 60 seconds. -/
def SOCKET_TIMEOUT : Time := 60 * 1000000

/-- Conversion to C `int`. -/
def toInt (value : Int) : Int := toSigned 32 value

/-- Conversion to C `size_t`. -/
def toSizeT (value : Int) : Nat := toUnsigned 64 value

/-- Memory errors a callback can commit. -/
inductive Fault where
  | useAfterFree
  | outOfBounds
  deriving DecidableEq, Repr

/-- `struct echo_client`.  Its watchers all carry the descriptor `fd`; what the loop knows of them
is kept in `Watchers`. -/
structure EchoClient where
  /-- Descriptor given to `ev_io_init`. -/
  fd : Nat
  /-- The array `to_send`. -/
  toSend : List Byte
  /-- Offset `to_send_beg - to_send`. -/
  toSendBeg : Nat
  /-- The `size_t` number of bytes waiting to be sent. -/
  toSendSize : Nat
  deriving DecidableEq, Repr

namespace EchoClient

/-- Read `size` bytes of `to_send` at an offset. -/
def read (client : EchoClient) (offset size : Nat) : Except Fault (List Byte) :=
  if offset + size ≤ client.toSend.length then .ok (slice client.toSend offset size)
  else .error .outOfBounds

/-- Write bytes into `to_send` at an offset. -/
def write (client : EchoClient) (offset : Nat) (bytes : List Byte) : Except Fault EchoClient :=
  if offset + bytes.length ≤ client.toSend.length then
    .ok { client with toSend := overwrite client.toSend offset bytes }
  else
    .error .outOfBounds

/-- `memcpy` inside `to_send`; the bytes arrive unchanged whether or not the regions overlap. -/
def memcpy (client : EchoClient) (target source size : Nat) : Except Fault EchoClient := do
  let bytes ← client.read source size
  client.write target bytes

/-- The free tail behind the pending bytes, as `echo_client_wcb_recv` first computes it. -/
def remSize (client : EchoClient) : Int :=
  toInt (TO_SEND_SIZE - (client.toSendBeg + client.toSendSize))

/-- Head of `echo_client_wcb_recv`: below 32 free bytes the pending ones move to the front. -/
def makeRoom (client : EchoClient) : Except Fault (EchoClient × Int) :=
  if client.remSize < 32 then do
    let client ← client.memcpy 0 client.toSendBeg client.toSendSize
    let client := { client with toSendBeg := 0 }
    return (client, toInt (toSizeT (TO_SEND_SIZE - client.toSendSize)))
  else
    return (client, client.remSize)

/-- The length `echo_client_wcb_recv` hands to `recv`. -/
def asked (client : EchoClient) : Nat :=
  match client.makeRoom with
  | .ok (_, remSize) => toSizeT remSize
  | .error _ => 0

end EchoClient

/-- The three watchers of a client, as its loop knows them. -/
structure Watchers where
  recv : IoWatcher
  send : IoWatcher
  timeout : TimerWatcher
  deriving DecidableEq, Repr

/-- One accepted connection from `echo_client_add` on. -/
structure Connection where
  /-- The client object, `none` once it is freed. -/
  client : Option EchoClient
  /-- Registrations in the loop; they outlive the object unless they are stopped. -/
  watchers : Watchers
  /-- `ev_now` of the loop. -/
  clock : Time
  /-- Bytes `recv` has delivered so far. -/
  received : List Byte
  /-- Bytes `send` has accepted so far. -/
  sent : List Byte
  /-- Descriptors passed to `close`, in order. -/
  closed : List Nat
  /-- Number of runs of `echo_client_del`. -/
  dels : Nat
  deriving DecidableEq, Repr

namespace Connection

/-- Follow the client pointer. -/
def deref (conn : Connection) : Except Fault EchoClient :=
  match conn.client with
  | some client => .ok client
  | none => .error .useAfterFree

/-- Assign fields of the client object. -/
def store (conn : Connection) (client : EchoClient) : Except Fault Connection := do
  let _ ← conn.deref
  return { conn with client := some client }

/-- A libev call on a watcher inside the client object. -/
def evCall (conn : Connection) (call : Watchers → Watchers) : Except Fault Connection := do
  let _ ← conn.deref
  return { conn with watchers := call conn.watchers }

/-- `ev_io_start(loop, &c->wev_send)`. -/
def startSend (conn : Connection) : Except Fault Connection :=
  conn.evCall fun watchers => { watchers with send := watchers.send.start }

/-- `ev_io_stop(loop, &c->wev_send)`. -/
def stopSend (conn : Connection) : Except Fault Connection :=
  conn.evCall fun watchers => { watchers with send := watchers.send.stop }

/-- `ev_io_stop(loop, &c->wev_recv)`. -/
def stopRecv (conn : Connection) : Except Fault Connection :=
  conn.evCall fun watchers => { watchers with recv := watchers.recv.stop }

/-- `ev_timer_stop(loop, &c->wev_timeout)`. -/
def stopTimeout (conn : Connection) : Except Fault Connection :=
  conn.evCall fun watchers => { watchers with timeout := watchers.timeout.stop }

/-- `ev_timer_again(loop, &c->wev_timeout)`. -/
def timeoutAgain (conn : Connection) : Except Fault Connection :=
  conn.evCall fun watchers =>
    { watchers with timeout := watchers.timeout.again conn.clock SOCKET_TIMEOUT }

/-- `close`. -/
def close (conn : Connection) (fd : Nat) : Connection :=
  { conn with closed := conn.closed ++ [fd] }

/-- `free(c)`. -/
def free (conn : Connection) : Except Fault Connection := do
  let _ ← conn.deref
  return { conn with client := none }

end Connection

open Connection

/-- `echo_client_add` after its allocation; `memory` is the content `malloc` left in `to_send`. -/
def echoClientAdd (sd : Nat) (memory : Vector Byte TO_SEND_SIZE) (now : Time) : Connection :=
  { client := some { fd := sd, toSend := memory.toList, toSendBeg := 0, toSendSize := 0 }
    watchers :=
      { recv := IoWatcher.init.start
        send := IoWatcher.init
        timeout := TimerWatcher.init.again now SOCKET_TIMEOUT }
    clock := now
    received := []
    sent := []
    closed := []
    dels := 0 }

/-- `echo_client_del`. -/
def echoClientDel (conn : Connection) : Except Fault Connection := do
  let conn := { conn with dels := conn.dels + 1 }
  let conn ← conn.stopRecv
  let conn ← conn.stopSend
  let conn ← conn.stopTimeout
  let client ← conn.deref
  let conn := conn.close client.fd
  conn.free

/-- `echo_client_wcb_timeout`. -/
def echoClientWcbTimeout (conn : Connection) : Except Fault Connection :=
  echoClientDel conn

/-- The kernel takes the first `sentNb` bytes of the pending region and the callback moves the
region's start behind them. -/
def sendAccepted (conn : Connection) (client : EchoClient) (sentNb : Nat) :
    Except Fault Connection := do
  let offered ← client.read client.toSendBeg client.toSendSize
  let conn := { conn with sent := conn.sent ++ offered.take sentNb }
  conn.store
    { client with
      toSendBeg := client.toSendBeg + sentNb
      toSendSize := toSizeT (client.toSendSize - sentNb) }

/-- `echo_client_wcb_send`; `answer` is the outcome of its `send`. -/
def echoClientWcbSend (answer : SendAnswer) (conn : Connection) : Except Fault Connection := do
  let client ← conn.deref
  match auxUnixSend answer with
  | .error .eagain => return conn
  | .error _ => echoClientDel conn
  | .ok sentNb =>
      let conn ← sendAccepted conn client sentNb
      let client ← conn.deref
      if 0 < client.toSendSize then return conn else conn.stopSend

/-- The send half of `echo_client_wcb_recv`. -/
def sendBack (answer : SendAnswer) (conn : Connection) : Except Fault Connection := do
  let client ← conn.deref
  match auxUnixSend answer with
  | .error .eagain => conn.startSend
  | .error _ => echoClientDel conn
  | .ok sentNb =>
      let conn ← sendAccepted conn client sentNb
      let client ← conn.deref
      if 0 < client.toSendSize then conn.startSend else return conn

/-- `echo_client_wcb_recv`; `nb` is what `aux_unix_recv` returned, `answer` the outcome of the
`send` behind it and `recvDone` the branch `0 == nb`. -/
def echoClientWcbRecv (recvDone : Connection → Except Fault Connection) (nb : RecvAnswer)
    (answer : SendAnswer) (conn : Connection) : Except Fault Connection := do
  let client ← conn.deref
  let (client, _) ← client.makeRoom
  let conn ← conn.store client
  match nb with
  | .error .eagain => conn.timeoutAgain
  | .error _ => echoClientDel conn
  | .ok bytes =>
      let client ← client.write (client.toSendBeg + client.toSendSize) bytes
      let conn := { conn with received := conn.received ++ bytes }
      if bytes = [] then
        recvDone conn
      else
        let conn ← conn.store
          { client with toSendSize := toSizeT (client.toSendSize + bytes.length) }
        sendBack answer conn

/-- `echo_client_wcb_recv` of `server-honest.c`: end of stream deletes the client. -/
def serverWcbRecv : RecvAnswer → SendAnswer → Connection → Except Fault Connection :=
  echoClientWcbRecv echoClientDel

/-- `echo_client_wcb_recv` of `thread-honest.c`: end of stream leaves the client as it is. -/
def threadWcbRecv : RecvAnswer → SendAnswer → Connection → Except Fault Connection :=
  echoClientWcbRecv pure

/-- The two programs. -/
inductive Program where
  | serverHonest
  | threadHonest
  deriving DecidableEq, Repr

/-- The receive callback of each program. -/
def Program.wcbRecv : Program → RecvAnswer → SendAnswer → Connection → Except Fault Connection
  | .serverHonest => serverWcbRecv
  | .threadHonest => threadWcbRecv

/-! ## Runs of one connection -/

/-- What can happen to one connection between two visits of the loop. -/
inductive Event where
  /-- The loop updates its time. -/
  | tick (elapsed : Time)
  /-- The loop finds the descriptor readable. -/
  | pollRecv
  /-- The loop finds the descriptor writable. -/
  | pollSend
  /-- The loop finds the timer expired. -/
  | pollTimeout
  /-- `echo_client_wcb_recv`, with the outcomes of its system calls. -/
  | wcbRecv (recv : List RecvAnswer) (send : SendAnswer)
  /-- `echo_client_wcb_send`, with the outcome of its system call. -/
  | wcbSend (send : SendAnswer)
  /-- `echo_client_wcb_timeout`. -/
  | wcbTimeout
  deriving DecidableEq, Repr

/-- `recv` delivers at most the length it was asked for and `send` accepts at most what it was
offered; nothing is known of calls made through a freed client. -/
def Connection.RecvContract (conn : Connection) (nb : RecvAnswer) (send : SendAnswer) : Prop :=
  match conn.client, nb with
  | some client, .ok bytes =>
      bytes.length ≤ client.asked ∧
        match send with
        | .ok sentNb => sentNb ≤ client.toSendSize + bytes.length
        | .error _ => True
  | _, _ => True

/-- `send` accepts at most what it was offered. -/
def Connection.SendContract (conn : Connection) (send : SendAnswer) : Prop :=
  match conn.client, send with
  | some client, .ok sentNb => sentNb ≤ client.toSendSize
  | _, _ => True

instance (conn : Connection) (nb : RecvAnswer) (send : SendAnswer) :
    Decidable (conn.RecvContract nb send) := by
  unfold Connection.RecvContract
  split
  · split <;> infer_instance
  · infer_instance

instance (conn : Connection) (send : SendAnswer) : Decidable (conn.SendContract send) := by
  unfold Connection.SendContract
  split <;> infer_instance

/-- The loop around one connection.  A callback runs exactly when its watcher has a pending event,
whether or not the client object still exists. -/
def Connection.next (program : Program) (conn : Connection) :
    Event → Option (Except Fault Connection)
  | .tick elapsed => some (.ok { conn with clock := conn.clock + elapsed })
  | .pollRecv =>
      conn.watchers.recv.poll.map fun recv =>
        .ok { conn with watchers := { conn.watchers with recv } }
  | .pollSend =>
      conn.watchers.send.poll.map fun send =>
        .ok { conn with watchers := { conn.watchers with send } }
  | .pollTimeout =>
      (conn.watchers.timeout.poll conn.clock SOCKET_TIMEOUT).map fun timeout =>
        .ok { conn with watchers := { conn.watchers with timeout } }
  | .wcbRecv recv send =>
      if conn.watchers.recv.pending then
        (auxUnixRecv recv).bind fun nb =>
          if conn.RecvContract nb send then
            let watchers := { conn.watchers with recv := conn.watchers.recv.invoked }
            some (program.wcbRecv nb send { conn with watchers })
          else
            none
      else
        none
  | .wcbSend send =>
      if conn.watchers.send.pending ∧ conn.SendContract send then
        let watchers := { conn.watchers with send := conn.watchers.send.invoked }
        some (echoClientWcbSend send { conn with watchers })
      else
        none
  | .wcbTimeout =>
      if conn.watchers.timeout.pending then
        let watchers := { conn.watchers with timeout := conn.watchers.timeout.invoked }
        some (echoClientWcbTimeout { conn with watchers })
      else
        none

/-- The runs of one connection; a fault ends the run. -/
def connectionSystem (program : Program) : EventSystem (Except Fault Connection) Event where
  step state event :=
    match state with
    | .ok conn => conn.next program event
    | .error _ => none

end Mrps.Honest
