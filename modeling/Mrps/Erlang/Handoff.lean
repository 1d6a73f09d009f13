import Mrps.EchoPipe
import Mrps.Entries
import Mrps.Mailbox
import Mrps.Runtime

/-!
# The server of `server.erl`

`tcp_acceptor/1` and the processes of `bind/1` and `handle/1`, with every accepted connection.  A
passive socket keeps the bytes that arrive, an active one sends them in messages to its controlling
process, and ownership, permission and activation are separate steps.
-/

namespace Mrps.Erlang

open EventSystem

/-- What a process of the server finds in its mailbox. -/
inductive ServerMessage where
  | perm
  | tcp (sock : Nat) (data : List Byte)
  | tcp_closed (sock : Nat)
  | tcp_error (sock reason : Nat)
  /-- Any other term. -/
  | other
  deriving DecidableEq, Repr

/-- A controlling process. -/
inductive Owner where
  | acceptor
  | process (pid : Nat)
  deriving DecidableEq, Repr

/-- An accepted socket with the history of its streams. -/
structure ServerSocket where
  owner : Owner
  /-- `{active, true}`. -/
  active : Bool
  isOpen : Bool
  /-- Bytes that arrived and were not delivered. -/
  queue : List Byte
  arrived : List Byte
  sent : List Byte
  deriving DecidableEq, Repr

/-- Where a spawned process is. -/
inductive Phase where
  /-- In `receive perm`. -/
  | waiting
  /-- Before `inet:setopts`. -/
  | activating
  /-- In the `receive` of `handle/1`. -/
  | handling
  | finished
  deriving DecidableEq, Repr

/-- A process spawned by the acceptor. -/
structure ServerProcess where
  phase : Phase
  mailbox : List ServerMessage
  deriving DecidableEq, Repr

/-- An accepted socket `Sock` and the process that runs `bind(Sock)`, once it is spawned; both are
named by the order of acceptance. -/
structure ServerConnection where
  socket : ServerSocket
  process : Option ServerProcess
  deriving DecidableEq, Repr

/-- Where the acceptor is. -/
inductive AcceptorPlace where
  /-- In `gen_tcp:accept`. -/
  | accepting
  /-- Before `spawn`. -/
  | spawning (sock : Nat)
  /-- Before `gen_tcp:controlling_process`. -/
  | controlling (sock pid : Nat)
  /-- Before `Pid ! perm`. -/
  | granting (sock pid : Nat)
  /-- After `gen_tcp:close(Listen)`. -/
  | stopped
  deriving DecidableEq, Repr

/-- The processes of the server. -/
structure Server where
  acceptor : AcceptorPlace
  /-- The mailbox of the acceptor. -/
  mailbox : List ServerMessage
  connections : List ServerConnection
  deriving DecidableEq, Repr

/-- What can happen to the server. -/
inductive ServerEvent where
  /-- `gen_tcp:accept` returns a socket. -/
  | accepted
  /-- `gen_tcp:accept` returns `{error, econnaborted}`. -/
  | aborted
  /-- `gen_tcp:accept` returns anything else. -/
  | failed
  | spawn
  | controllingProcess
  | perm
  /-- The process of `bind` receives `perm`. -/
  | granted (pid : Nat)
  /-- `bind` times out. -/
  | bindTimeout (pid : Nat)
  | setopts (pid : Nat)
  /-- `handle` receives a message. -/
  | handle (pid : Nat)
  /-- `handle` times out. -/
  | handleTimeout (pid : Nat)
  /-- A chunk arrives from the peer. -/
  | arrive (sock : Nat) (chunk : List Byte)
  /-- An active socket delivers its next `count` bytes. -/
  | deliver (sock count : Nat)
  /-- An active socket reports its end or an error. -/
  | closed (sock : Nat)
  | error (sock reason : Nat)
  /-- Some other message is sent to a process. -/
  | stray (pid : Nat)
  deriving DecidableEq, Repr

/-! ## The steps -/

/-- A message arrives at a process, unless it is dead. -/
def ServerProcess.tell (message : ServerMessage) (process : ServerProcess) : ServerProcess :=
  if process.phase = .finished then process
  else { process with mailbox := process.mailbox ++ [message] }

namespace ServerConnection

/-- A connection right after `gen_tcp:accept`: the listener is passive. -/
def fresh : ServerConnection :=
  { socket :=
      { owner := .acceptor, active := false, isOpen := true, queue := [], arrived := [],
        sent := [] }
    process := none }

def tell (message : ServerMessage) (connection : ServerConnection) : ServerConnection :=
  { connection with process := connection.process.map (ServerProcess.tell message) }

/-- `gen_tcp:controlling_process` succeeds while the socket is open. -/
def control (pid : Nat) (connection : ServerConnection) : ServerConnection :=
  if connection.socket.isOpen then
    { connection with socket := { connection.socket with owner := .process pid } }
  else connection

/-- Bytes arrive at the socket. -/
def arrive (chunk : List Byte) (connection : ServerConnection) : ServerConnection :=
  { connection with
    socket :=
      { connection.socket with
        queue := connection.socket.queue ++ chunk
        arrived := connection.socket.arrived ++ chunk } }

/-- The socket hands `count` bytes out. -/
def dequeue (count : Nat) (connection : ServerConnection) : ServerConnection :=
  { connection with
    socket := { connection.socket with queue := connection.socket.queue.drop count } }

/-- The socket is closed. -/
def close (connection : ServerConnection) : ServerConnection :=
  { connection with socket := { connection.socket with isOpen := false } }

/-- The process goes on to `phase` with `mailbox` left. -/
def goOn (phase : Phase) (mailbox : List ServerMessage) (connection : ServerConnection) :
    ServerConnection :=
  { connection with process := some { phase, mailbox } }

/-- `inet:setopts` with `{active, true}`, then `handle/1`. -/
def setopts (mailbox : List ServerMessage) (connection : ServerConnection) : ServerConnection :=
  { socket := { connection.socket with active := connection.socket.isOpen }
    process := some { phase := .handling, mailbox } }

/-- `gen_tcp:send` sends all its data, unless the socket is closed. -/
def send (data : List Byte) (connection : ServerConnection) : ServerConnection :=
  if connection.socket.isOpen then
    { connection with socket := { connection.socket with sent := connection.socket.sent ++ data } }
  else connection

/-- A round of `handle(Sock)` that received `message`. -/
def handle (sock : Nat) (message : ServerMessage) (rest : List ServerMessage)
    (connection : ServerConnection) : ServerConnection :=
  match message with
  | .tcp from_sock data =>
      if from_sock = sock then (connection.goOn .handling rest).send data
      else (connection.goOn .finished rest).close
  | _ => (connection.goOn .finished rest).close

end ServerConnection

/-- The clause of `receive perm`. -/
def permClause : ServerMessage → Option Unit
  | .perm => some ()
  | _ => none

namespace Server

/-- A server before its first connection. -/
def listening : Server := { acceptor := .accepting, mailbox := [], connections := [] }

/-- Change one connection. -/
def modify (server : Server) (index : Nat)
    (change : ServerConnection → ServerConnection) : Server :=
  { server with connections := server.connections.modify index change }

/-- `Pid ! message` for a process or the acceptor. -/
def tell (server : Server) (owner : Owner) (message : ServerMessage) : Server :=
  match owner with
  | .acceptor => { server with mailbox := server.mailbox ++ [message] }
  | .process pid => server.modify pid (.tell message)

/-- The process of a connection, while it is in `phase`. -/
def running (server : Server) (pid : Nat) (phase : Phase) : Option ServerProcess :=
  (server.connections[pid]?.bind ServerConnection.process).filter fun process =>
    process.phase = phase

/-- The socket of a connection, while it is open and active. -/
def activeSocket (server : Server) (sock : Nat) : Option ServerSocket :=
  (server.connections[sock]?.map ServerConnection.socket).filter fun socket =>
    socket.isOpen && socket.active

/-- One step of the server. -/
def next (server : Server) : ServerEvent → Option Server
  | .accepted =>
      if server.acceptor = .accepting then
        some { server with
          acceptor := .spawning server.connections.length
          connections := server.connections ++ [.fresh] }
      else none
  | .aborted => if server.acceptor = .accepting then some server else none
  | .failed =>
      if server.acceptor = .accepting then some { server with acceptor := .stopped } else none
  | .spawn =>
      match server.acceptor with
      | .spawning sock =>
          some { server.modify sock (.goOn .waiting []) with acceptor := .controlling sock sock }
      | _ => none
  | .controllingProcess =>
      match server.acceptor with
      | .controlling sock pid =>
          some { server.modify sock (.control pid) with acceptor := .granting sock pid }
      | _ => none
  | .perm =>
      match server.acceptor with
      | .granting _ pid => some { server.tell (.process pid) .perm with acceptor := .accepting }
      | _ => none
  | .granted pid =>
      (server.running pid .waiting).bind fun process =>
        (Mailbox.receive permClause process.mailbox).map fun taken =>
          server.modify pid (.goOn .activating taken.2)
  | .bindTimeout pid =>
      (server.running pid .waiting).bind fun process =>
        if Mailbox.receive permClause process.mailbox = none then
          some (server.modify pid (.goOn .finished process.mailbox))
        else none
  | .setopts pid =>
      (server.running pid .activating).map fun process =>
        server.modify pid (.setopts process.mailbox)
  | .handle pid =>
      (server.running pid .handling).bind fun process =>
        match process.mailbox with
        | message :: rest => some (server.modify pid (.handle pid message rest))
        | [] => none
  | .handleTimeout pid =>
      (server.running pid .handling).bind fun process =>
        if process.mailbox = [] then
          some (server.modify pid fun connection => (connection.goOn .finished []).close)
        else none
  | .arrive sock chunk =>
      server.connections[sock]?.bind fun connection =>
        if connection.socket.isOpen then some (server.modify sock (.arrive chunk)) else none
  | .deliver sock count =>
      (server.activeSocket sock).bind fun socket =>
        if 0 < count ∧ count ≤ socket.queue.length then
          some ((server.modify sock (.dequeue count)).tell socket.owner
            (.tcp sock (socket.queue.take count)))
        else none
  | .closed sock =>
      (server.activeSocket sock).map fun socket =>
        (server.modify sock .close).tell socket.owner (.tcp_closed sock)
  | .error sock reason =>
      (server.activeSocket sock).map fun socket =>
        server.tell socket.owner (.tcp_error sock reason)
  | .stray pid => some (server.tell (.process pid) .other)

end Server

/-- The runs of the server. -/
def servers : EventSystem Server ServerEvent := { step := Server.next }

/-! ## One connection -/

/-- The bytes of a message. -/
def ServerMessage.data : ServerMessage → List Byte
  | .tcp _ data => data
  | _ => []

namespace ServerConnection

variable {index : Nat} {connection : ServerConnection}

/-- The mailbox of the process, if there is one. -/
def mail (connection : ServerConnection) : List ServerMessage :=
  (connection.process.map ServerProcess.mailbox).getD []

/-- A connection on its way from the acceptor to its process: it is active only when its process
owns it and handles it, its process was permitted only after it owned it, its messages come from
its own socket, and while it is open every byte that arrived was sent, waits in the mailbox or
waits in the socket. -/
structure Sound (index : Nat) (connection : ServerConnection) : Prop where
  owner : connection.socket.owner = .acceptor ∨ connection.socket.owner = .process index
  active : connection.socket.active = true →
    connection.socket.owner = .process index ∧
      (connection.socket.isOpen = true →
        ∃ mailbox, connection.process = some { phase := .handling, mailbox })
  passive : connection.socket.owner = .acceptor → connection.socket.isOpen = true
  granted : ∀ process ∈ connection.process,
    process.phase = .activating ∨ process.phase = .handling ∨ .perm ∈ process.mailbox →
      connection.socket.owner = .process index
  own : ∀ sock data, .tcp sock data ∈ connection.mail → sock = index
  conserved : connection.socket.isOpen = true →
    connection.socket.sent ++ connection.mail.flatMap ServerMessage.data ++
      connection.socket.queue = connection.socket.arrived
  echoed : connection.socket.sent <+: connection.socket.arrived

theorem sound_fresh (index : Nat) : fresh.Sound index where
  owner := .inl rfl
  active := by simp [fresh]
  passive := fun _ => rfl
  granted := by simp [fresh]
  own := by simp [fresh, mail]
  conserved := fun _ => rfl
  echoed := List.prefix_rfl

theorem Sound.tell {message : ServerMessage} (sound : connection.Sound index)
    (no_data : ∀ sock data, message ≠ .tcp sock data)
    (permits : message = .perm → connection.socket.owner = .process index) :
    (connection.tell message).Sound index := by
  obtain ⟨socket, _ | ⟨phase, mailbox⟩⟩ := connection
  · exact sound
  · by_cases dead : phase = .finished
    · simpa [ServerConnection.tell, ServerProcess.tell, dead] using sound
    · have nothing : message.data = [] := by
        cases message with
        | tcp sock data => exact absurd rfl (no_data sock data)
        | perm | tcp_closed | tcp_error | other => rfl
      have told : ServerConnection.tell message { socket, process := some { phase, mailbox } } =
          { socket, process := some { phase, mailbox := mailbox ++ [message] } } := by
        simp [ServerConnection.tell, ServerProcess.tell, dead]
      rw [told]
      refine { sound with active := ?_, granted := ?_, own := ?_, conserved := ?_ }
      · intro active
        refine ⟨(sound.active active).1, fun is_open => ?_⟩
        obtain ⟨_, process_eq⟩ := (sound.active active).2 is_open
        obtain ⟨rfl, -⟩ := ServerProcess.mk.inj (Option.some.inj process_eq)
        exact ⟨_, rfl⟩
      · intro process member
        obtain rfl := Option.some.inj member
        rintro (activating | handling | permitted)
        · exact sound.granted _ rfl (.inl activating)
        · exact sound.granted _ rfl (.inr (.inl handling))
        · rcases List.mem_append.mp permitted with before | now
          · exact sound.granted _ rfl (.inr (.inr before))
          · exact permits (List.mem_singleton.mp now).symm
      · intro sock data member
        rcases List.mem_append.mp member with before | now
        · exact sound.own sock data before
        · exact absurd (List.mem_singleton.mp now).symm (no_data sock data)
      · intro is_open
        have conserved := sound.conserved is_open
        simpa [mail, List.flatMap_append, nothing] using conserved

theorem Sound.deliver {count : Nat} (sound : connection.Sound index)
    (active : connection.socket.active = true) (is_open : connection.socket.isOpen = true) :
    ((connection.dequeue count).tell
      (.tcp index (connection.socket.queue.take count))).Sound index := by
  obtain ⟨owner_eq, handles⟩ := sound.active active
  obtain ⟨mailbox, process_eq⟩ := handles is_open
  obtain ⟨socket, process⟩ := connection
  dsimp only at process_eq
  subst process_eq
  have granted := sound.granted _ rfl
  refine { sound with active := ?_, granted := ?_, own := ?_, conserved := ?_ }
  · exact fun _ => ⟨owner_eq, fun _ => ⟨_, rfl⟩⟩
  · exact fun _ _ _ => owner_eq
  · intro sock data member
    rcases List.mem_append.mp member with before | now
    · exact sound.own sock data before
    · exact (ServerMessage.tcp.inj (List.mem_singleton.mp now)).1
  · intro _
    have conserved := sound.conserved is_open
    simp only [mail, Option.map_some, Option.getD_some] at conserved
    simpa [mail, ServerConnection.tell, ServerProcess.tell, dequeue, List.flatMap_append,
      ServerMessage.data, List.append_assoc] using conserved

theorem Sound.arrive (sound : connection.Sound index) (chunk : List Byte) :
    (connection.arrive chunk).Sound index := by
  refine { sound with conserved := ?_, echoed := ?_ }
  · intro is_open
    have conserved := sound.conserved is_open
    have more := congrArg (· ++ chunk) conserved
    simpa [mail, ServerConnection.arrive, List.append_assoc] using more
  · exact sound.echoed.trans (List.prefix_append _ _)

theorem Sound.close (sound : connection.Sound index)
    (owned : connection.socket.owner = .process index) : connection.close.Sound index := by
  refine { sound with active := ?_, passive := ?_, conserved := ?_ }
  · exact fun active => ⟨owned, fun is_open => by cases is_open⟩
  · intro unowned
    cases unowned.symm.trans owned
  · intro is_open
    cases is_open

theorem Sound.spawn (sound : connection.Sound index) (unspawned : connection.process = none) :
    (connection.goOn .waiting []).Sound index := by
  refine { sound with active := ?_, granted := ?_, own := ?_, conserved := ?_ }
  · intro active
    refine ⟨(sound.active active).1, fun is_open => ?_⟩
    obtain ⟨_, process_eq⟩ := (sound.active active).2 is_open
    cases unspawned.symm.trans process_eq
  · intro process member
    obtain rfl := Option.some.inj member
    simp
  · simp [goOn, mail]
  · intro is_open
    have conserved := sound.conserved is_open
    simpa [goOn, mail, unspawned] using conserved

theorem Sound.control (sound : connection.Sound index) :
    (connection.control index).Sound index ∧
      (connection.control index).socket.owner = .process index := by
  rw [ServerConnection.control]
  split
  · rename_i is_open
    refine ⟨{ sound with owner := .inr rfl, active := ?_, passive := ?_, granted := ?_ }, rfl⟩
    · exact fun active => ⟨rfl, (sound.active active).2⟩
    · intro unowned
      cases unowned
    · exact fun _ _ _ => rfl
  · rename_i shut
    refine ⟨sound, ?_⟩
    rcases sound.owner with unowned | owned
    · exact absurd (sound.passive unowned) shut
    · exact owned

section Running

variable {phase next_phase : Phase} {mailbox rest : List ServerMessage}

/-- A process that does not handle its socket goes on without touching data. -/
theorem Sound.goOn (sound : connection.Sound index)
    (process_eq : connection.process = some { phase, mailbox }) (idle : phase ≠ .handling)
    (fewer : ∀ message ∈ rest, message ∈ mailbox)
    (same : rest.flatMap ServerMessage.data = mailbox.flatMap ServerMessage.data)
    (permitted : next_phase = .activating ∨ next_phase = .handling →
      connection.socket.owner = .process index) :
    (connection.goOn next_phase rest).Sound index := by
  refine { sound with active := ?_, granted := ?_, own := ?_, conserved := ?_ }
  · intro active
    refine ⟨(sound.active active).1, fun is_open => ?_⟩
    obtain ⟨_, handling_eq⟩ := (sound.active active).2 is_open
    rw [process_eq] at handling_eq
    exact absurd (ServerProcess.mk.inj (Option.some.inj handling_eq)).1 idle
  · intro process member
    obtain rfl := Option.some.inj member
    rintro (activating | handling | perm)
    · exact permitted (.inl activating)
    · exact permitted (.inr handling)
    · exact sound.granted _ process_eq (.inr (.inr (fewer _ perm)))
  · intro sock data member
    apply sound.own sock data
    simpa [mail, process_eq] using fewer _ member
  · intro is_open
    have conserved := sound.conserved is_open
    simpa [ServerConnection.goOn, mail, process_eq, same] using conserved

theorem Sound.setopts (sound : connection.Sound index)
    (process_eq : connection.process = some { phase := .activating, mailbox }) :
    (connection.setopts mailbox).Sound index := by
  have owned := sound.granted _ process_eq (.inl rfl)
  refine { sound with active := ?_, granted := ?_, own := ?_, conserved := ?_ }
  · exact fun _ => ⟨owned, fun _ => ⟨mailbox, rfl⟩⟩
  · exact fun _ _ _ => owned
  · intro sock data member
    apply sound.own sock data
    simpa [mail, process_eq, ServerConnection.setopts] using member
  · intro is_open
    have conserved := sound.conserved is_open
    simpa [ServerConnection.setopts, mail, process_eq] using conserved

theorem Sound.finish (sound : connection.Sound index)
    (process_eq : connection.process = some { phase := .handling, mailbox })
    (fewer : ∀ message ∈ rest, message ∈ mailbox) :
    ((connection.goOn .finished rest).close).Sound index := by
  have owned := sound.granted _ process_eq (.inr (.inl rfl))
  refine { owner := .inr owned, active := ?_, passive := ?_, granted := ?_, own := ?_,
           conserved := ?_, echoed := sound.echoed }
  · exact fun _ => ⟨owned, fun is_open => by cases is_open⟩
  · intro unowned
    cases unowned.symm.trans owned
  · exact fun _ _ _ => owned
  · intro sock data member
    apply sound.own sock data
    simpa [mail, process_eq] using fewer _ member
  · intro is_open
    cases is_open

theorem Sound.handle {message : ServerMessage} (sound : connection.Sound index)
    (process_eq : connection.process = some { phase := .handling, mailbox := message :: rest }) :
    (connection.handle index message rest).Sound index := by
  have owned := sound.granted _ process_eq (.inr (.inl rfl))
  have fewer : ∀ later ∈ rest, later ∈ message :: rest :=
    fun later member => List.mem_cons_of_mem message member
  cases message with
  | tcp sock data =>
      obtain rfl : sock = index := sound.own sock data (by simp [mail, process_eq])
      rw [ServerConnection.handle, if_pos rfl, send]
      split
      · rename_i is_open
        have conserved := sound.conserved is_open
        simp only [mail, process_eq, Option.map_some, Option.getD_some, List.flatMap_cons,
          ServerMessage.data] at conserved
        refine { owner := .inr owned, active := ?_, passive := ?_, granted := ?_, own := ?_,
                 conserved := ?_, echoed := ?_ }
        · exact fun _ => ⟨owned, fun _ => ⟨rest, rfl⟩⟩
        · exact fun _ => is_open
        · exact fun _ _ _ => owned
        · intro place bytes member
          apply sound.own place bytes
          simpa [mail, process_eq] using fewer _ member
        · intro _
          simpa [ServerConnection.goOn, mail, List.append_assoc] using conserved
        · refine ⟨rest.flatMap ServerMessage.data ++ connection.socket.queue, ?_⟩
          simpa [ServerConnection.goOn, List.append_assoc] using conserved
      · rename_i shut
        refine { owner := .inr owned, active := ?_, passive := sound.passive, granted := ?_,
                 own := ?_, conserved := ?_, echoed := sound.echoed }
        · exact fun _ => ⟨owned, fun is_open => absurd is_open shut⟩
        · exact fun _ _ _ => owned
        · intro place bytes member
          apply sound.own place bytes
          simpa [mail, process_eq] using fewer _ member
        · exact fun is_open => absurd is_open shut
  | perm | tcp_closed | tcp_error | other => exact sound.finish process_eq fewer

theorem handle_owner {message : ServerMessage} :
    (connection.handle index message rest).socket.owner = connection.socket.owner := by
  cases message with
  | tcp sock data =>
      rw [ServerConnection.handle, send]
      split
      · split <;> rfl
      · rfl
  | perm | tcp_closed | tcp_error | other => rfl

end Running

end ServerConnection

/-! ## All connections -/

namespace Server

variable {server after : Server} {event : ServerEvent}

/-- What the acceptor's place says about the connection it is working on. -/
def Working (server : Server) : Prop :=
  match server.acceptor with
  | .spawning sock => ∀ connection, server.connections[sock]? = some connection →
      connection.process = none
  | .controlling sock pid => sock = pid
  | .granting sock pid => sock = pid ∧ ∀ connection, server.connections[sock]? = some connection →
      connection.socket.owner = .process pid
  | .accepting | .stopped => True

/-- Every connection is sound, and no data reaches the acceptor. -/
structure Sound (server : Server) : Prop where
  mailbox : ∀ sock data, .tcp sock data ∉ server.mailbox
  connections : ∀ index (connection : ServerConnection),
    server.connections[index]? = some connection → connection.Sound index
  working : server.Working

theorem sound_listening : listening.Sound where
  mailbox := by simp [listening]
  connections := by simp [listening]
  working := trivial

/-- A change of a connection that keeps its owner and takes no process away. -/
structure Steady (index : Nat) (before after : ServerConnection) : Prop where
  sound : after.Sound index
  owner : after.socket.owner = before.socket.owner
  unspawned : before.process = none → after.process = none

theorem Sound.modify_connections {index : Nat} {change : ServerConnection → ServerConnection}
    (sound : server.Sound)
    (keeps : ∀ connection, server.connections[index]? = some connection →
      (change connection).Sound index) :
    ∀ other (connection : ServerConnection),
      (server.modify index change).connections[other]? = some connection →
        connection.Sound other := by
  intro other connection found
  rcases getElem?_modify_cases found with ⟨rfl, before, before_found, rfl⟩ | ⟨-, old⟩
  · exact keeps before before_found
  · exact sound.connections other connection old

theorem Sound.modify {index : Nat} {change : ServerConnection → ServerConnection}
    (sound : server.Sound)
    (steady : ∀ connection, server.connections[index]? = some connection →
      Steady index connection (change connection)) :
    (server.modify index change).Sound := by
  have kept : ∀ {other : Nat} {connection : ServerConnection},
      (server.modify index change).connections[other]? = some connection →
        ∃ before : ServerConnection, server.connections[other]? = some before ∧
          connection.socket.owner = before.socket.owner ∧
          (before.process = none → connection.process = none) := by
    intro other connection found
    rcases getElem?_modify_cases found with ⟨rfl, before, before_found, rfl⟩ | ⟨-, old⟩
    · have changed := steady before before_found
      exact ⟨before, before_found, changed.owner, changed.unspawned⟩
    · exact ⟨connection, old, rfl, id⟩
  refine { mailbox := sound.mailbox, connections := ?_, working := ?_ }
  · exact sound.modify_connections fun connection found => (steady connection found).sound
  · have working := sound.working
    rw [Working] at working ⊢
    cases place : server.acceptor with
    | accepting | stopped => simp [Server.modify, place]
    | spawning sock =>
        simp only [place, Server.modify] at working ⊢
        intro connection found
        obtain ⟨before, before_found, -, unspawned⟩ := kept found
        exact unspawned (working before before_found)
    | controlling sock pid =>
        simp only [place, Server.modify] at working ⊢
        exact working
    | granting sock pid =>
        simp only [place, Server.modify] at working ⊢
        refine ⟨working.1, fun connection found => ?_⟩
        obtain ⟨before, before_found, owner_eq, -⟩ := kept found
        exact owner_eq.trans (working.2 before before_found)

/-- A message without data. -/
theorem Sound.tell {owner : Owner} {message : ServerMessage} (sound : server.Sound)
    (no_data : ∀ sock data, message ≠ .tcp sock data)
    (permits : message = .perm → ∀ pid, owner = .process pid → ∀ connection,
      server.connections[pid]? = some connection → connection.socket.owner = .process pid) :
    (server.tell owner message).Sound := by
  cases owner with
  | acceptor =>
      refine { sound with mailbox := ?_ }
      intro sock data member
      rcases List.mem_append.mp member with before | now
      · exact sound.mailbox sock data before
      · exact no_data sock data (List.mem_singleton.mp now).symm
  | process pid =>
      refine sound.modify fun connection found => ⟨?_, rfl, ?_⟩
      · exact (sound.connections pid connection found).tell no_data fun perm =>
          permits perm pid rfl connection found
      · intro unspawned
        simp [ServerConnection.tell, unspawned]

theorem modify_modify (index : Nat) (first second : ServerConnection → ServerConnection) :
    (server.modify index first).modify index second = server.modify index (second ∘ first) := by
  simp [modify, List.modify_modify_eq]

theorem running_eq_some {pid : Nat} {phase : Phase} {process : ServerProcess}
    (running : server.running pid phase = some process) :
    ∃ connection, server.connections[pid]? = some connection ∧
      connection.process = some { phase, mailbox := process.mailbox } := by
  obtain ⟨bound, phase_eq⟩ := Option.filter_eq_some_iff.mp running
  obtain ⟨connection, found, process_eq⟩ := Option.bind_eq_some_iff.mp bound
  obtain rfl : process.phase = phase := by simpa using phase_eq
  exact ⟨connection, found, process_eq⟩

theorem activeSocket_eq_some {sock : Nat} {socket : ServerSocket}
    (active : server.activeSocket sock = some socket) :
    ∃ connection, server.connections[sock]? = some connection ∧ connection.socket = socket ∧
      socket.isOpen = true ∧ socket.active = true := by
  obtain ⟨bound, flags⟩ := Option.filter_eq_some_iff.mp active
  obtain ⟨connection, found, rfl⟩ := Option.map_eq_some_iff.mp bound
  exact ⟨connection, found, rfl, by simpa using flags⟩

theorem Sound.onProcess {pid : Nat} {phase : Phase} {process : ServerProcess}
    {change : ServerConnection → ServerConnection} (sound : server.Sound)
    (running : server.running pid phase = some process)
    (keeps : ∀ connection : ServerConnection,
      connection.process = some { phase, mailbox := process.mailbox } → connection.Sound pid →
        (change connection).Sound pid ∧
          (change connection).socket.owner = connection.socket.owner) :
    (server.modify pid change).Sound := by
  obtain ⟨connection, found, process_eq⟩ := running_eq_some running
  refine sound.modify fun other other_found => ?_
  cases found.symm.trans other_found
  obtain ⟨kept, owner_eq⟩ := keeps connection process_eq (sound.connections pid connection found)
  refine ⟨kept, owner_eq, fun unspawned => ?_⟩
  cases process_eq.symm.trans unspawned

/-- Receiving `perm` skips other messages only. -/
theorem receive_perm {mailbox rest : List ServerMessage}
    (taken : Mailbox.receive permClause mailbox = some ((), rest)) :
    .perm ∈ mailbox ∧ (∀ message ∈ rest, message ∈ mailbox) ∧
      rest.flatMap ServerMessage.data = mailbox.flatMap ServerMessage.data := by
  have kept := Mailbox.mem_of_receive taken
  obtain ⟨before, message, after, rfl, rfl, matched, -⟩ := Mailbox.receive_eq_some taken
  cases message with
  | tcp | tcp_closed | tcp_error | other => cases matched
  | perm =>
      refine ⟨by simp, kept, ?_⟩
      simp [List.flatMap_append, ServerMessage.data]

theorem Sound.acceptor (sound : server.Sound) (step : server.next event = some after)
    (own : event = .accepted ∨ event = .aborted ∨ event = .failed ∨ event = .spawn ∨
      event = .controllingProcess ∨ event = .perm) : after.Sound := by
  have working := sound.working
  rcases own with rfl | rfl | rfl | rfl | rfl | rfl <;> simp only [Server.next] at step <;>
    split at step
  · obtain rfl := Option.some.inj step
    refine { mailbox := sound.mailbox, connections := ?_, working := ?_ }
    · intro index connection found
      rcases getElem?_concat_cases found with old | ⟨-, rfl⟩
      · exact sound.connections index connection old
      · exact ServerConnection.sound_fresh index
    · intro connection found
      rw [List.getElem?_concat_length] at found
      obtain rfl := Option.some.inj found
      rfl
  · cases step
  · obtain rfl := Option.some.inj step
    exact sound
  · cases step
  · obtain rfl := Option.some.inj step
    exact { sound with working := trivial }
  · cases step
  · rename_i sock place
    obtain rfl := Option.some.inj step
    simp only [Working, place] at working
    refine { mailbox := sound.mailbox, connections := ?_, working := rfl }
    exact sound.modify_connections fun connection found =>
      (sound.connections sock connection found).spawn (working connection found)
  · cases step
  · rename_i sock pid place
    obtain rfl := Option.some.inj step
    simp only [Working, place] at working
    subst working
    refine { mailbox := sound.mailbox, connections := ?_, working := ⟨rfl, ?_⟩ }
    · exact sound.modify_connections fun connection found =>
        (sound.connections sock connection found).control.1
    · intro connection found
      rcases getElem?_modify_cases found with ⟨-, before, before_found, rfl⟩ | ⟨elsewhere, -⟩
      · exact (sound.connections sock before before_found).control.2
      · exact absurd rfl elsewhere
  · cases step
  · rename_i sock pid place
    obtain rfl := Option.some.inj step
    simp only [Working, place] at working
    obtain ⟨rfl, owned⟩ := working
    have told : (server.tell (.process sock) .perm).Sound := by
      refine sound.tell (by simp) fun _ pid pid_eq connection found => ?_
      obtain rfl := Owner.process.inj pid_eq
      exact owned connection found
    exact { mailbox := told.mailbox, connections := told.connections, working := trivial }
  · cases step

theorem Sound.next (sound : server.Sound) (step : server.next event = some after) :
    after.Sound := by
  cases event with
  | accepted | aborted | failed | spawn | controllingProcess | perm =>
      exact sound.acceptor step (by simp)
  | granted pid =>
      obtain ⟨process, running, taken⟩ := Option.bind_eq_some_iff.mp step
      obtain ⟨⟨_, rest⟩, received, rfl⟩ := Option.map_eq_some_iff.mp taken
      obtain ⟨permitted, fewer, same⟩ := receive_perm received
      refine sound.onProcess running fun connection process_eq kept => ⟨?_, rfl⟩
      exact kept.goOn process_eq (by simp) fewer same fun _ =>
        kept.granted _ process_eq (.inr (.inr permitted))
  | bindTimeout pid =>
      obtain ⟨process, running, taken⟩ := Option.bind_eq_some_iff.mp step
      split at taken
      · obtain rfl := Option.some.inj taken
        refine sound.onProcess running fun connection process_eq kept => ⟨?_, rfl⟩
        exact kept.goOn process_eq (by simp) (fun _ => id) rfl (by simp)
      · cases taken
  | setopts pid =>
      obtain ⟨process, running, rfl⟩ := Option.map_eq_some_iff.mp step
      exact sound.onProcess running fun connection process_eq kept => ⟨kept.setopts process_eq, rfl⟩
  | handle pid =>
      obtain ⟨process, running, taken⟩ := Option.bind_eq_some_iff.mp step
      split at taken
      · rename_i message rest mailbox_eq
        obtain rfl := Option.some.inj taken
        refine sound.onProcess running fun connection process_eq kept => ?_
        rw [mailbox_eq] at process_eq
        exact ⟨kept.handle process_eq, ServerConnection.handle_owner⟩
      · cases taken
  | handleTimeout pid =>
      obtain ⟨process, running, taken⟩ := Option.bind_eq_some_iff.mp step
      split at taken
      · rename_i empty
        obtain rfl := Option.some.inj taken
        refine sound.onProcess running fun connection process_eq kept => ⟨?_, rfl⟩
        exact kept.finish process_eq (by simp)
      · cases taken
  | arrive sock chunk =>
      obtain ⟨connection, found, taken⟩ := Option.bind_eq_some_iff.mp step
      split at taken
      · obtain rfl := Option.some.inj taken
        exact sound.modify fun connection found =>
          ⟨(sound.connections sock connection found).arrive chunk, rfl, id⟩
      · cases taken
  | deliver sock count =>
      obtain ⟨socket, open_active, taken⟩ := Option.bind_eq_some_iff.mp step
      obtain ⟨connection, found, rfl, is_open, active⟩ := activeSocket_eq_some open_active
      split at taken
      · obtain rfl := Option.some.inj taken
        have kept := sound.connections sock connection found
        rw [(kept.active active).1, Server.tell, modify_modify]
        refine sound.modify fun other other_found => ?_
        cases found.symm.trans other_found
        refine ⟨kept.deliver active is_open, rfl, fun unspawned => ?_⟩
        simp [ServerConnection.tell, ServerConnection.dequeue, unspawned]
      · cases taken
  | closed sock =>
      obtain ⟨socket, open_active, rfl⟩ := Option.map_eq_some_iff.mp step
      obtain ⟨connection, found, rfl, is_open, active⟩ := activeSocket_eq_some open_active
      have kept := sound.connections sock connection found
      have closed : (server.modify sock .close).Sound := by
        refine sound.modify fun other other_found => ?_
        cases found.symm.trans other_found
        exact ⟨kept.close (kept.active active).1, rfl, id⟩
      exact closed.tell (by simp) (by simp)
  | error sock reason =>
      obtain ⟨socket, open_active, rfl⟩ := Option.map_eq_some_iff.mp step
      exact sound.tell (by simp) (by simp)
  | stray pid =>
      obtain rfl := Option.some.inj step
      exact sound.tell (by simp) (by simp)

/-- In every run of the server, with any number of connections and any order of the steps: no data
ever reaches the acceptor or the process of another connection; while a connection is open, the
bytes sent back, those in the mailbox of its process and those kept by its socket make up the bytes
that arrived on it; and the bytes sent back are always a front part of them. -/
theorem handoff_sound (events : List ServerEvent) (server : Server)
    (execution : servers.run .listening events = some server) :
    (∀ sock data, .tcp sock data ∉ server.mailbox) ∧
    ∀ index (connection : ServerConnection), server.connections[index]? = some connection →
      (∀ sock data, .tcp sock data ∈ connection.mail → sock = index) ∧
      (connection.socket.isOpen = true →
        connection.socket.sent ++ connection.mail.flatMap ServerMessage.data ++
          connection.socket.queue = connection.socket.arrived) ∧
      connection.socket.sent <+: connection.socket.arrived := by
  have preserves : servers.Preserves Sound := fun _ _ _ sound step => sound.next step
  have sound := preserves.run sound_listening execution
  refine ⟨sound.mailbox, fun index connection found => ?_⟩
  have kept := sound.connections index connection found
  exact ⟨kept.own, kept.conserved, kept.echoed⟩

/-- Bytes arrive before, between and after the steps of the hand-off. -/
def earlyBytes : List ServerEvent :=
  [.accepted, .arrive 0 [1], .spawn, .arrive 0 [2], .controllingProcess, .perm, .granted 0,
    .arrive 0 [3], .setopts 0, .deliver 0 3, .handle 0]

theorem handoff_sound_early : ∃ server, servers.run .listening earlyBytes = some server ∧
    (server.connections[0]?.map fun connection => connection.socket.sent) = some [1, 2, 3] ∧
    ∀ sock data, .tcp sock data ∉ server.mailbox :=
  ⟨_, rfl, rfl, (handoff_sound earlyBytes _ rfl).1⟩

end Server

end Mrps.Erlang
