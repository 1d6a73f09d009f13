import Mrps.Entries
import Mrps.EventSystem
import Mrps.Region
import Mrps.Runtime

/-!
# One acceptor of `server.cc`

The `io_service` of an `acceptor` with every `connection` it ever created.  The library keeps the
outstanding operations and calls the completion handler of one of them at a time; a handler may
start an operation and may delete its connection.
-/

namespace Mrps.Asio

open EventSystem

/-- `max_length`. -/
def max_length : Nat := 4096

/-- An outstanding operation of a connection. -/
inductive Operation where
  /-- `async_accept` into its socket. -/
  | accept
  /-- `async_read_some` into `data`. -/
  | readSome
  /-- `async_write` of the first `length` bytes of `data`, `offset` of them transferred. -/
  | write (offset length : Nat)
  deriving DecidableEq, Repr

/-- A `connection` with its outstanding operations and the history of its streams. -/
structure Connection where
  data : List Byte
  outstanding : List Operation
  /-- How often it was deleted. -/
  deletes : Nat
  /-- The bytes its reads delivered. -/
  received : List Byte
  /-- The bytes its writes transferred. -/
  sent : List Byte
  deriving DecidableEq, Repr

namespace Connection

/-- The library starts an operation. -/
def begin (operation : Operation) (connection : Connection) : Connection :=
  { connection with outstanding := connection.outstanding ++ [operation] }

/-- The library is done with an operation. -/
def finish (operation : Operation) (connection : Connection) : Connection :=
  { connection with outstanding := connection.outstanding.erase operation }

/-- `delete`. -/
def delete (connection : Connection) : Connection :=
  { connection with deletes := connection.deletes + 1 }

/-- `start`. -/
def start (connection : Connection) : Connection := connection.begin .readSome

/-- `read`. -/
def read (e : Bool) (bytes_transferred : Nat) (connection : Connection) : Connection :=
  if e = false then connection.begin (.write 0 bytes_transferred) else connection.delete

/-- `write`. -/
def write (e : Bool) (connection : Connection) : Connection :=
  if e = false then connection.start else connection.delete

/-- A read placed bytes in the buffer. -/
def fill (bytes : List Byte) (connection : Connection) : Connection :=
  { connection with
    data := Region.overwrite connection.data 0 bytes
    received := connection.received ++ bytes }

/-- A write transferred the `count` bytes of the buffer from `offset` on. -/
def drain (offset count : Nat) (connection : Connection) : Connection :=
  { connection with sent := connection.sent ++ Region.slice connection.data offset count }

end Connection

/-- The acceptor: its connections in the order of creation. -/
structure Acceptor where
  connections : List Connection
  deriving DecidableEq, Repr

/-- What the library can do. -/
inductive AcceptorEvent where
  /-- An accept is complete, with or without an error; `memory` is what the buffer of the next new
  object holds. -/
  | accepted (index : Nat) (e : Bool) (memory : List Byte)
  /-- A read is complete: bytes or an error. -/
  | readDone (index : Nat) (result : Option (List Byte))
  /-- A write transfers some more bytes. -/
  | transfer (index offset length count : Nat)
  /-- A write is complete: all its bytes are transferred, or there is an error. -/
  | writeDone (index offset length : Nat) (e : Bool)
  deriving DecidableEq, Repr

namespace Acceptor

/-- `start_accept`, with the memory of the new object. -/
def start_accept (acceptor : Acceptor) (memory : List Byte) : Acceptor :=
  { connections := acceptor.connections ++
      [{ data := memory, outstanding := [.accept], deletes := 0, received := [], sent := [] }] }

/-- The constructor. -/
def created (memory : List Byte) : Acceptor := start_accept { connections := [] } memory

/-- Change one connection. -/
def modify (acceptor : Acceptor) (index : Nat) (change : Connection → Connection) : Acceptor :=
  { connections := acceptor.connections.modify index change }

/-- `accept`. -/
def accept (acceptor : Acceptor) (index : Nat) (e : Bool) (memory : List Byte) : Acceptor :=
  (acceptor.modify index (if e = false then .start else .delete)).start_accept memory

/-- The operation is outstanding. -/
def Outstanding (acceptor : Acceptor) (index : Nat) (operation : Operation) : Prop :=
  ∃ connection ∈ acceptor.connections[index]?, operation ∈ connection.outstanding

instance (acceptor : Acceptor) (index : Nat) (operation : Operation) :
    Decidable (acceptor.Outstanding index operation) :=
  inferInstanceAs (Decidable (∃ connection ∈ acceptor.connections[index]?, _))

/-- One step of the library. -/
def next (acceptor : Acceptor) : AcceptorEvent → Option Acceptor
  | .accepted index e memory =>
      if acceptor.Outstanding index .accept ∧ memory.length = max_length then
        some ((acceptor.modify index (.finish .accept)).accept index e memory)
      else none
  | .readDone index result =>
      if acceptor.Outstanding index .readSome ∧ ∀ bytes ∈ result, bytes.length ≤ max_length then
        some (acceptor.modify index fun connection =>
          match result with
          | some bytes => ((connection.finish .readSome).fill bytes).read false bytes.length
          | none => (connection.finish .readSome).read true 0)
      else none
  | .transfer index offset length count =>
      if acceptor.Outstanding index (.write offset length) ∧ offset + count ≤ length then
        some (acceptor.modify index fun connection =>
          ((connection.finish (.write offset length)).drain offset count).begin
            (.write (offset + count) length))
      else none
  | .writeDone index offset length e =>
      if acceptor.Outstanding index (.write offset length) ∧ (e = false → offset = length) then
        some (acceptor.modify index fun connection =>
          (connection.finish (.write offset length)).write e)
      else none

end Acceptor

/-- The runs of an acceptor. -/
def acceptors : EventSystem Acceptor AcceptorEvent := { step := Acceptor.next }

/-! ## One connection -/

namespace Connection

variable {connection : Connection}

/-- A connection that waits to be accepted. -/
structure Accepting (connection : Connection) : Prop where
  alive : connection.deletes = 0
  outstanding : connection.outstanding = [.accept]
  received : connection.received = []
  sent : connection.sent = []

/-- An accepted connection: it reads when all it read is written, it writes what it read last, or
it is deleted with nothing outstanding. -/
inductive Serving (connection : Connection) : Prop where
  | reading (alive : connection.deletes = 0) (outstanding : connection.outstanding = [.readSome])
      (echoed : connection.sent = connection.received)
  | writing (offset length : Nat) (alive : connection.deletes = 0)
      (outstanding : connection.outstanding = [.write offset length]) (within : offset ≤ length)
      (echoed : connection.sent ++ Region.slice connection.data offset (length - offset) =
        connection.received)
  | deleted (once : connection.deletes = 1) (outstanding : connection.outstanding = [])
      (echoed : connection.sent <+: connection.received)

theorem Accepting.accepted (accepting : connection.Accepting) (e : Bool) :
    Serving ((if e = false then start else delete) (connection.finish .accept)) := by
  obtain ⟨alive, outstanding, received, sent⟩ := accepting
  cases e with
  | false =>
      refine .reading alive ?_ ?_
      · simp [start, begin, finish, outstanding]
      · simp [start, begin, finish, received, sent]
  | true =>
      refine .deleted ?_ ?_ ?_
      · simp [delete, finish, alive]
      · simp [delete, finish, outstanding]
      · simp [delete, finish, received, sent]

theorem Serving.readSome (serving : connection.Serving)
    (outstanding : .readSome ∈ connection.outstanding) :
    connection.deletes = 0 ∧ connection.outstanding = [.readSome] ∧
      connection.sent = connection.received := by
  cases serving with
  | reading alive only echoed => exact ⟨alive, only, echoed⟩
  | writing offset length alive only => simp [only] at outstanding
  | deleted once only => simp [only] at outstanding

theorem Serving.write {offset length : Nat} (serving : connection.Serving)
    (outstanding : .write offset length ∈ connection.outstanding) :
    connection.deletes = 0 ∧ connection.outstanding = [.write offset length] ∧ offset ≤ length ∧
      connection.sent ++ Region.slice connection.data offset (length - offset) =
        connection.received := by
  cases serving with
  | reading alive only => simp [only] at outstanding
  | writing place size alive only within echoed =>
      obtain ⟨rfl, rfl⟩ : offset = place ∧ length = size := by simpa [only] using outstanding
      exact ⟨alive, only, within, echoed⟩
  | deleted once only => simp [only] at outstanding

theorem Serving.readDone (serving : connection.Serving)
    (outstanding : .readSome ∈ connection.outstanding) (result : Option (List Byte)) :
    Serving (match result with
      | some bytes => ((connection.finish .readSome).fill bytes).read false bytes.length
      | none => (connection.finish .readSome).read true 0) := by
  obtain ⟨alive, only, echoed⟩ := serving.readSome outstanding
  cases result with
  | some bytes =>
      refine .writing 0 bytes.length alive ?_ (Nat.zero_le _) ?_
      · simp [Connection.read, begin, finish, fill, only]
      · have placed : Region.slice (Region.overwrite connection.data 0 bytes) 0 bytes.length =
            bytes := Region.slice_overwrite_self (Nat.zero_le _)
        simp [Connection.read, begin, finish, fill, echoed, placed]
  | none =>
      refine .deleted ?_ ?_ ?_
      · simp [Connection.read, delete, finish, alive]
      · simp [Connection.read, delete, finish, only]
      · simp [Connection.read, delete, finish, echoed]

/-- A transfer takes from the front of what is left to write. -/
theorem Serving.transfer {offset length count : Nat} (serving : connection.Serving)
    (outstanding : .write offset length ∈ connection.outstanding)
    (fits : offset + count ≤ length) :
    Serving (((connection.finish (.write offset length)).drain offset count).begin
      (.write (offset + count) length)) := by
  obtain ⟨alive, only, -, echoed⟩ := serving.write outstanding
  refine .writing (offset + count) length alive ?_ fits ?_
  · simp [begin, finish, drain, only]
  · have split : Region.slice connection.data offset (length - offset) =
        Region.slice connection.data offset count ++
          Region.slice connection.data (offset + count) (length - (offset + count)) := by
      rw [← Region.slice_add]
      congr 1
      omega
    rw [split] at echoed
    simpa [begin, finish, drain, List.append_assoc] using echoed

theorem Serving.writeDone {offset length : Nat} {e : Bool} (serving : connection.Serving)
    (outstanding : .write offset length ∈ connection.outstanding)
    (whole : e = false → offset = length) :
    Serving ((connection.finish (.write offset length)).write e) := by
  obtain ⟨alive, only, -, echoed⟩ := serving.write outstanding
  cases e with
  | false =>
      obtain rfl := whole rfl
      refine .reading alive ?_ ?_
      · simp [Connection.write, start, begin, finish, only]
      · simpa [Connection.write, start, begin, finish] using echoed
  | true =>
      refine .deleted ?_ ?_ ?_
      · simp [Connection.write, delete, finish, alive]
      · simp [Connection.write, delete, finish, only]
      · exact ⟨_, echoed⟩

/-- What holds of a connection between two handlers. -/
structure Orderly (connection : Connection) (isNewest : Prop) : Prop where
  /-- An accept is outstanding on the newest connection, which owns nothing else. -/
  accepts : .accept ∈ connection.outstanding ↔ isNewest
  newest : isNewest → connection.deletes = 0 ∧ connection.outstanding = [.accept]
  /-- Every other connection that is alive has one operation outstanding. -/
  one : ¬ isNewest → connection.deletes = 0 →
    connection.outstanding = [.readSome] ∨
      ∃ offset length, connection.outstanding = [.write offset length]
  /-- The buffer is not read into while it is written from. -/
  exclusive : .readSome ∈ connection.outstanding →
    ∀ offset length, .write offset length ∉ connection.outstanding
  once : connection.deletes ≤ 1
  /-- A deleted connection has nothing outstanding. -/
  quiet : connection.deletes = 1 → connection.outstanding = []
  echoed : connection.sent <+: connection.received

variable {newest : Prop}

theorem Accepting.orderly (accepting : connection.Accepting) (is_newest : newest) :
    connection.Orderly newest := by
  obtain ⟨alive, only, received, sent⟩ := accepting
  refine { accepts := ?_, newest := fun _ => ⟨alive, only⟩, one := ?_, exclusive := ?_,
           once := ?_, quiet := ?_, echoed := ?_ }
  · simp [only, is_newest]
  · exact fun not_newest => absurd is_newest not_newest
  · simp [only]
  · omega
  · omega
  · simp [received, sent]

theorem Serving.orderly (serving : connection.Serving) (not_newest : ¬ newest) :
    connection.Orderly newest := by
  cases serving with
  | reading alive only echoed =>
      refine { accepts := ?_, newest := fun is_newest => absurd is_newest not_newest,
               one := fun _ _ => .inl only, exclusive := ?_, once := ?_, quiet := ?_, echoed := ?_ }
      · simp [only, not_newest]
      · simp [only]
      · omega
      · omega
      · simp [echoed]
  | writing offset length alive only within echoed =>
      refine { accepts := ?_, newest := fun is_newest => absurd is_newest not_newest,
               one := fun _ _ => .inr ⟨offset, length, only⟩, exclusive := ?_, once := ?_,
               quiet := ?_, echoed := ⟨_, echoed⟩ }
      · simp [only, not_newest]
      · simp [only]
      · omega
      · omega
  | deleted once only echoed =>
      refine { accepts := ?_, newest := fun is_newest => absurd is_newest not_newest, one := ?_,
               exclusive := ?_, once := once.le, quiet := fun _ => only, echoed }
      · simp [only, not_newest]
      · omega
      · simp [only]

end Connection

/-! ## All connections -/

namespace Acceptor

variable {acceptor after : Acceptor} {event : AcceptorEvent}

/-- The newest connection waits to be accepted, and all others were accepted. -/
structure Sound (acceptor : Acceptor) : Prop where
  nonempty : acceptor.connections ≠ []
  newest : ∀ index connection, acceptor.connections[index]? = some connection →
    index + 1 = acceptor.connections.length → connection.Accepting
  others : ∀ index connection, acceptor.connections[index]? = some connection →
    index + 1 ≠ acceptor.connections.length → connection.Serving

theorem sound_created (memory : List Byte) : (created memory).Sound where
  nonempty := by simp [created, start_accept]
  newest := by
    intro index connection found last
    obtain rfl : index = 0 := by simpa [created, start_accept] using last
    obtain rfl := Option.some.inj found
    exact ⟨rfl, rfl, rfl, rfl⟩
  others := by
    intro index connection found not_last
    obtain ⟨inside, -⟩ := List.getElem?_eq_some_iff.mp found
    simp [created, start_accept] at inside not_last
    omega

theorem Sound.accept_iff (sound : acceptor.Sound) {index : Nat} {connection : Connection}
    (found : acceptor.connections[index]? = some connection) :
    .accept ∈ connection.outstanding ↔ index + 1 = acceptor.connections.length := by
  constructor
  · intro outstanding
    by_contra not_last
    cases sound.others index connection found not_last with
    | reading alive only => simp [only] at outstanding
    | writing offset length alive only => simp [only] at outstanding
    | deleted once only => simp [only] at outstanding
  · intro last
    simp [(sound.newest index connection found last).outstanding]

theorem Sound.modify {index : Nat} {change : Connection → Connection} {operation : Operation}
    (sound : acceptor.Sound) {connection : Connection}
    (found : acceptor.connections[index]? = some connection)
    (outstanding : operation ∈ connection.outstanding) (accepted : operation ≠ .accept)
    (keeps : connection.Serving → (change connection).Serving) :
    (acceptor.modify index change).Sound := by
  have not_last : index + 1 ≠ acceptor.connections.length := by
    intro last
    have only := (sound.newest index connection found last).outstanding
    rw [only] at outstanding
    exact accepted (List.mem_singleton.mp outstanding)
  have length_eq : (acceptor.modify index change).connections.length =
      acceptor.connections.length := List.length_modify _ _ _
  refine { nonempty := ?_, newest := ?_, others := ?_ }
  · rw [← List.length_pos_iff, length_eq, List.length_pos_iff]
    exact sound.nonempty
  · intro other after other_found last
    rw [length_eq] at last
    rcases getElem?_modify_cases other_found with ⟨rfl, -⟩ | ⟨-, old⟩
    · exact absurd last not_last
    · exact sound.newest other after old last
  · intro other after other_found other_not_last
    rw [length_eq] at other_not_last
    rcases getElem?_modify_cases other_found with ⟨rfl, before, before_found, rfl⟩ | ⟨-, old⟩
    · cases found.symm.trans before_found
      exact keeps (sound.others other connection found not_last)
    · exact sound.others other after old other_not_last

/-- The accepted connection starts serving, and a new one waits in its place. -/
theorem Sound.accepted {index : Nat} {e : Bool} {memory : List Byte} (sound : acceptor.Sound)
    {connection : Connection} (found : acceptor.connections[index]? = some connection)
    (outstanding : .accept ∈ connection.outstanding) :
    ((acceptor.modify index (.finish .accept)).accept index e memory).Sound := by
  have last := (sound.accept_iff found).mp outstanding
  have front_length : ((acceptor.modify index (.finish .accept)).modify index
      (if e = false then .start else .delete)).connections.length =
        acceptor.connections.length := by
    simp [Acceptor.modify]
  refine { nonempty := by simp [accept, start_accept], newest := ?_, others := ?_ }
  · intro other after other_found newest
    rw [accept, start_accept] at other_found newest
    rw [List.length_append, List.length_singleton] at newest
    rcases getElem?_concat_cases other_found with old | ⟨-, rfl⟩
    · obtain ⟨inside, -⟩ := List.getElem?_eq_some_iff.mp old
      omega
    · exact ⟨rfl, rfl, rfl, rfl⟩
  · intro other after other_found not_newest
    rw [accept, start_accept] at other_found not_newest
    rw [List.length_append, List.length_singleton] at not_newest
    rcases getElem?_concat_cases other_found with old | ⟨other_eq, -⟩
    · rcases getElem?_modify_cases old with ⟨rfl, middle, middle_found, rfl⟩ | ⟨elsewhere, later⟩
      · rcases getElem?_modify_cases middle_found with ⟨-, before, before_found, rfl⟩ | ⟨away, -⟩
        · cases found.symm.trans before_found
          exact (sound.newest other connection found last).accepted e
        · exact absurd rfl away
      · rcases getElem?_modify_cases later with ⟨here, -⟩ | ⟨-, before_found⟩
        · exact absurd here elsewhere
        · exact sound.others other after before_found (by omega)
    · omega

theorem Sound.next (sound : acceptor.Sound) (step : acceptor.next event = some after) :
    after.Sound := by
  cases event with
  | accepted index e memory =>
      simp only [Acceptor.next] at step
      split at step
      · rename_i guard
        obtain ⟨⟨connection, found, outstanding⟩, -⟩ := guard
        obtain rfl := Option.some.inj step
        exact sound.accepted found outstanding
      · cases step
  | readDone index result =>
      simp only [Acceptor.next] at step
      split at step
      · rename_i guard
        obtain ⟨⟨connection, found, outstanding⟩, -⟩ := guard
        obtain rfl := Option.some.inj step
        exact sound.modify found outstanding (by simp) fun serving =>
          serving.readDone outstanding result
      · cases step
  | transfer index offset length count =>
      simp only [Acceptor.next] at step
      split at step
      · rename_i guard
        obtain ⟨⟨connection, found, outstanding⟩, fits⟩ := guard
        obtain rfl := Option.some.inj step
        exact sound.modify found outstanding (by simp) fun serving =>
          serving.transfer outstanding fits
      · cases step
  | writeDone index offset length e =>
      simp only [Acceptor.next] at step
      split at step
      · rename_i guard
        obtain ⟨⟨connection, found, outstanding⟩, whole⟩ := guard
        obtain rfl := Option.some.inj step
        exact sound.modify found outstanding (by simp) fun serving =>
          serving.writeDone outstanding whole
      · cases step

/-- In every run of an acceptor, with any number of connections and any errors, between two
handlers there is one newest connection, and all connections are orderly. -/
theorem lifecycle_sound (memory : List Byte) (events : List AcceptorEvent) (acceptor : Acceptor)
    (execution : acceptors.run (created memory) events = some acceptor) :
    ∃ newest < acceptor.connections.length, ∀ index (connection : Connection),
      acceptor.connections[index]? = some connection → connection.Orderly (index = newest) := by
  have preserves : acceptors.Preserves Sound := fun _ _ _ sound step => sound.next step
  have sound := preserves.run (sound_created memory) execution
  have positive : 0 < acceptor.connections.length := List.length_pos_iff.mpr sound.nonempty
  refine ⟨acceptor.connections.length - 1, by omega, fun index connection found => ?_⟩
  by_cases last : index + 1 = acceptor.connections.length
  · have newest : index = acceptor.connections.length - 1 := by omega
    exact (sound.newest index connection found last).orderly newest
  · have not_newest : index ≠ acceptor.connections.length - 1 := by omega
    exact (sound.others index connection found last).orderly not_newest

/-- One connection is accepted, echoes three bytes in two transfers and is closed by the peer. -/
def oneEcho : List AcceptorEvent :=
  [.accepted 0 false (List.replicate max_length 0), .readDone 0 (some [1, 2, 3]),
    .transfer 0 0 3 2, .transfer 0 2 3 1, .writeDone 0 3 3 false, .readDone 0 none]

theorem lifecycle_sound_one : ∃ acceptor,
    acceptors.run (created [0, 0, 0]) oneEcho = some acceptor ∧
      ∃ newest < acceptor.connections.length, ∀ index (connection : Connection),
        acceptor.connections[index]? = some connection → connection.Orderly (index = newest) := by
  have runs : (acceptors.run (created [0, 0, 0]) oneEcho).isSome := by decide +kernel
  obtain ⟨acceptor, execution⟩ := Option.isSome_iff_exists.mp runs
  exact ⟨acceptor, execution, lifecycle_sound [0, 0, 0] oneEcho acceptor execution⟩

end Acceptor

end Mrps.Asio
