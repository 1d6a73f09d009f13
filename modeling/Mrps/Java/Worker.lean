import Mrps.MachineInt
import Mrps.Region
import Mrps.Runtime
import Mrps.Throwing

/-!
# The loop of a scheduler

`Worker.run` of `IOScheduler.java` with the two processors of `Server.java`.  The outcome of every
channel operation is an input; exceptions propagate as in Java, keeping what was done before them.
-/

namespace Mrps.Java

open MachineInt

/-- An `IOException`. -/
structure IOException where
  deriving DecidableEq, Repr

/-- The exceptions of the modelled code. -/
inductive Throwable where
  | io (exception : IOException)
  | arithmeticException
  | arrayIndexOutOfBoundsException
  | classCastException
  | nullPointerException
  /-- Any other unchecked exception of a channel operation. -/
  | runtimeException
  deriving DecidableEq, Repr

/-! ## Buffers, channels and requests -/

/-- A `ByteBuffer`. -/
structure ByteBuffer where
  cells : List Byte
  position : Nat
  limit : Nat
  deriving DecidableEq, Repr

namespace ByteBuffer

/-- `ByteBuffer.allocateDirect`. -/
def allocateDirect (capacity : Nat) : ByteBuffer :=
  { cells := List.replicate capacity 0, position := 0, limit := capacity }

/-- `buffer.clear()`. -/
def clear (buffer : ByteBuffer) : ByteBuffer :=
  { buffer with position := 0, limit := buffer.cells.length }

/-- `buffer.flip()`. -/
def flip (buffer : ByteBuffer) : ByteBuffer :=
  { buffer with position := 0, limit := buffer.position }

/-- `buffer.remaining()`. -/
def remaining (buffer : ByteBuffer) : Nat := buffer.limit - buffer.position

/-- The bytes from the position to the limit. -/
def rest (buffer : ByteBuffer) : List Byte :=
  Region.slice buffer.cells buffer.position buffer.remaining

/-- A channel read into the buffer. -/
def put (buffer : ByteBuffer) (bytes : List Byte) : ByteBuffer :=
  { buffer with
    cells := Region.overwrite buffer.cells buffer.position bytes
    position := buffer.position + bytes.length }

/-- A channel took bytes from the buffer. -/
def advance (buffer : ByteBuffer) (count : Nat) : ByteBuffer :=
  { buffer with position := buffer.position + count }

end ByteBuffer

/-- A channel of either kind. -/
inductive Channel where
  | serverSocketChannel (id : Nat)
  | socketChannel (id : Nat)
  deriving DecidableEq, Repr

/-- The interest sets the program uses. -/
inductive Interest where
  | OP_READ
  | OP_WRITE
  | OP_ACCEPT
  deriving DecidableEq, Repr

/-- The key of a channel, with the history of the channel. -/
structure SelectionKey where
  interest : Interest
  attachment : Option ByteBuffer
  received : List Byte
  sent : List Byte
  closed : Bool
  deriving DecidableEq, Repr

/-- `RegisterRequests`. -/
structure RegisterRequests where
  interest : Interest
  cChannel : Option Nat
  sChannel : Option Nat
  deriving DecidableEq, Repr

/-- The constructor for client channels, which may be `null`. -/
def RegisterRequests.ofSocketChannel (interest : Interest) (channel : Option Nat) :
    RegisterRequests :=
  { interest, cChannel := channel, sChannel := none }

/-- The constructor for listening channels. -/
def RegisterRequests.ofServerSocketChannel (interest : Interest) (channel : Option Nat) :
    RegisterRequests :=
  { interest, cChannel := none, sChannel := channel }

/-- What the loop reads and changes. -/
structure Memory where
  keys : Channel → SelectionKey
  /-- `readerWriterSequence`. -/
  readerWriterSequence : Int
  /-- The requests offered to the schedulers of `readerWriters`. -/
  offers : List (Nat × RegisterRequests)

/-- Java code of the loop. -/
abbrev Execution (α : Type) := Throwing Throwable Memory α

/-- A channel operation with its outcome. -/
def io {α : Type} : Except IOException α → Execution α
  | .ok value => pure value
  | .error exception => throw (.io exception)

/-- `try { body } catch (IOException e) { handler }`. -/
def catchIOException {α : Type} (body handler : Execution α) : Execution α :=
  tryCatch body fun exception =>
    match exception with
    | .io _ => handler
    | other => throw other

/-- `try { body } catch (Exception e) { handler }`. -/
def catchException {α : Type} (body handler : Execution α) : Execution α :=
  tryCatch body fun _ => handler

/-- `(SocketChannel) key.channel()`. -/
def Channel.asSocketChannel : Channel → Execution Nat
  | .socketChannel id => pure id
  | .serverSocketChannel _ => throw .classCastException

/-- `(ServerSocketChannel) key.channel()`. -/
def Channel.asServerSocketChannel : Channel → Execution Nat
  | .serverSocketChannel id => pure id
  | .socketChannel _ => throw .classCastException

/-- Change the key of a channel. -/
def updateKey (channel : Channel) (change : SelectionKey → SelectionKey) : Execution Unit :=
  modify fun memory =>
    { memory with keys := Function.update memory.keys channel (change (memory.keys channel)) }

/-! ## The processors -/

/-- A selected key with the outcomes of the operations it may trigger. -/
structure Selected where
  channel : Channel
  isValid : Bool
  isAcceptable : Bool
  isReadable : Bool
  isWritable : Bool
  /-- `accept` returns a channel, returns `null` or throws. -/
  accept : Except IOException (Option Nat)
  /-- `read` finds bytes, returns `-1` or throws. -/
  read : Except IOException (Option (List Byte))
  /-- How many bytes `write` could take. -/
  write : Except IOException Nat
  close : Except IOException Unit
  deriving DecidableEq, Repr

/-- `readerWriters` as the constructor of `Server` leaves it: element 0 stays `null`. -/
def readerWriters (availableProcessors : Nat) : List (Option Nat) :=
  none :: (List.range availableProcessors).map fun index => some (index + 1)

/-- `1+(int)(sequence % (readerWriters.length-1))`. -/
def readerWriterIndex (length : Nat) (sequence : Int) : Int :=
  toSigned 32 (1 + toSigned 32 (sequence.tmod (length - 1)))

/-- `readerWriterSequence.getAndIncrement()`. -/
def getAndIncrement : Execution Int := do
  let memory ← get
  modify fun memory =>
    { memory with readerWriterSequence := toSigned 64 (memory.readerWriterSequence + 1) }
  return memory.readerWriterSequence

/-- `readerWriters[num]`. -/
def arrayAccess (array : List (Option Nat)) (num : Int) : Execution (Option Nat) :=
  match if num < 0 then none else array[num.toNat]? with
  | some element => pure element
  | none => throw .arrayIndexOutOfBoundsException

/-- `readerWriters[num].register(serverSocketChannel.accept(), OP_READ)`: the element is read
before `accept` is called, and the call on it comes last. -/
def registerAccepted (schedulers : List (Option Nat)) (key : Selected) (sequence : Int) :
    Execution Unit := do
  let target ←
    if schedulers.length = 1 then throw .arithmeticException
    else arrayAccess schedulers (readerWriterIndex schedulers.length sequence)
  let accepted ← io key.accept
  match target with
  | none => throw .nullPointerException
  | some scheduler =>
      modify fun memory =>
        { memory with
          offers := memory.offers ++ [(scheduler, .ofSocketChannel .OP_READ accepted)] }

/-- `NewConnectionProcessor.process`. -/
def newConnectionProcess (schedulers : List (Option Nat)) (key : Selected) : Execution Bool := do
  if key.isAcceptable then
    let _ ← key.channel.asServerSocketChannel
    let sequence ← getAndIncrement
    registerAccepted schedulers key sequence
  return false

/-- The buffer attached to the key, a new one on the first call. -/
def attachedBuffer (channel : Channel) : Execution ByteBuffer := do
  let memory ← get
  match (memory.keys channel).attachment with
  | some buffer => return buffer
  | none =>
      let buffer := ByteBuffer.allocateDirect 8192
      updateKey channel fun key => { key with attachment := some buffer }
      return buffer

/-- The branch `key.isReadable()` of `ReadWriteProcessor.process`. -/
def readIntoBuffer (key : Selected) (buffer : ByteBuffer) : Execution Bool := do
  let buffer := buffer.clear
  updateKey key.channel fun state => { state with attachment := some buffer }
  match ← io key.read with
  | some found =>
      let bytes := found.take buffer.remaining
      updateKey key.channel fun state =>
        { state with
          attachment := some (buffer.put bytes).flip
          received := state.received ++ bytes
          interest := .OP_WRITE }
      return false
  | none => return true

/-- The branch `key.isWritable()` of `ReadWriteProcessor.process`. -/
def writeFromBuffer (key : Selected) (buffer : ByteBuffer) : Execution Bool := do
  let limit ← io key.write
  let count := min limit buffer.remaining
  updateKey key.channel fun state =>
    { state with
      attachment := some (buffer.advance count)
      sent := state.sent ++ buffer.rest.take count }
  if (buffer.advance count).remaining = 0 then
    updateKey key.channel fun state => { state with interest := .OP_READ }
  return false

/-- `ReadWriteProcessor.process`. -/
def readWriteProcess (key : Selected) : Execution Bool := do
  let _ ← key.channel.asSocketChannel
  let buffer ← attachedBuffer key.channel
  if key.isReadable then
    readIntoBuffer key buffer
  else if key.isWritable then
    writeFromBuffer key buffer
  else
    return false

/-- The two processors. -/
inductive SelectorProcessor where
  | newConnectionProcessor (availableProcessors : Nat)
  | readWriteProcessor
  deriving DecidableEq, Repr

/-- `process`. -/
def SelectorProcessor.process : SelectorProcessor → Selected → Execution Bool
  | .newConnectionProcessor availableProcessors =>
      newConnectionProcess (readerWriters availableProcessors)
  | .readWriteProcessor => readWriteProcess

/-- `handleBeforeClose`. -/
def SelectorProcessor.handleBeforeClose : SelectorProcessor → Channel → Execution Unit
  | .newConnectionProcessor _, _ => pure ()
  | .readWriteProcessor, channel => updateKey channel fun key => { key with attachment := none }

/-! ## The loop -/

/-- One round of the loop over the selected keys. -/
def processSelected (processor : SelectorProcessor) (key : Selected) : Execution Unit := do
  let keyShouldBeClosed ←
    catchIOException (if key.isValid then processor.process key else pure true) (pure true)
  if keyShouldBeClosed then
    catchIOException
      (do
        processor.handleBeforeClose key.channel
        let _ ← key.channel.asSocketChannel
        updateKey key.channel fun state => { state with closed := true }
        io key.close)
      (pure ())

/-- A request taken from the queue with the outcomes of the operations on its channel: `setup`
stands for the configuration of the channel up to and including `register`. -/
structure Drained where
  request : RegisterRequests
  setup : Except Throwable Unit
  close : Except IOException Unit
  deriving DecidableEq, Repr

/-- Configure a channel and register it with the selector. -/
def setupChannel (drained : Drained) (channel : Channel) : Execution Unit := do
  match drained.setup with
  | .ok _ =>
      updateKey channel fun key =>
        { key with interest := drained.request.interest, attachment := none }
  | .error exception => throw exception

/-- Close the channel of a request that could not be registered. -/
def closeChannel (drained : Drained) (channel : Channel) : Execution Unit := do
  updateKey channel fun key => { key with closed := true }
  io drained.close

/-- One round of the loop over the requests. -/
def registerRequest (drained : Drained) : Execution Unit :=
  -- a method call on the `null` in both fields is a NullPointerException
  let onChannel (operation : Channel → Execution Unit) : Execution Unit :=
    match drained.request.cChannel, drained.request.sChannel with
    | some channel, _ => operation (.socketChannel channel)
    | none, some channel => operation (.serverSocketChannel channel)
    | none, none => throw .nullPointerException
  catchException (onChannel (setupChannel drained))
    (catchIOException (onChannel (closeChannel drained)) (pure ()))

/-- What one round of the outer loop meets. -/
structure Iteration where
  select : Except IOException Unit
  selected : List Selected
  drained : List Drained
  deriving DecidableEq, Repr

/-- One round of the outer loop. -/
def Worker.iteration (processor : SelectorProcessor) (iteration : Iteration) : Execution Unit := do
  catchIOException (io iteration.select) (pure ())
  iteration.selected.forM (processSelected processor)
  iteration.drained.forM registerRequest

/-- `Worker.run`: the outer loop until its condition fails. -/
def Worker.run (processor : SelectorProcessor) (iterations : List Iteration) : Execution Unit :=
  iterations.forM (Worker.iteration processor)

end Mrps.Java
