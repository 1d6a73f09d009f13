import Mrps.Java.IOScheduler
import Mrps.Java.Worker

/-!
# Building and starting the server

The constructor and `start` of `Server.java` with the schedulers of `readerWriters` as objects.  The
constructor creates the schedulers from slot 1 on, and `start` walks the array from its end down to
slot 0, so the walk throws after every scheduler that exists was started.
-/

namespace Mrps.Java

open EventSystem Throwing

/-- A socket address. -/
structure InetSocketAddress where
  addr : List Byte
  port : Nat
  deriving DecidableEq, Repr

/-- A listening channel. -/
structure ServerSocketChannel where
  blocking : Bool
  reuseAddress : Bool
  /-- The address it is bound to, with the backlog. -/
  bound : Option (InetSocketAddress × Nat)
  isOpen : Bool
  deriving DecidableEq, Repr

/-- `ServerSocketChannel.open()`. -/
def ServerSocketChannel.opened : ServerSocketChannel :=
  { blocking := true, reuseAddress := false, bound := none, isOpen := true }

/-- A `Server`. -/
structure Server where
  port : Nat
  hostAddress : List Byte
  serverChannel : Option ServerSocketChannel
  /-- The array, with `none` for `null`. -/
  readerWriters : List (Option IOScheduler)
  /-- The requests offered to the schedulers of `readerWriters`. -/
  offers : List (Nat × RegisterRequests)
  deriving DecidableEq, Repr

/-- The outcomes of the fallible steps of `start`. -/
structure Listening where
  openChannel : Except IOException Unit
  configureBlocking : Except IOException Unit
  setReuseAddress : Except IOException Unit
  bind : Except IOException Unit
  deriving DecidableEq, Repr

namespace IOScheduler

/-- `start`: the flag is stored before the thread is started, which can be done only once. -/
def start (scheduler : IOScheduler) : Except Throwable Unit × IOScheduler :=
  let flagged := { scheduler with isRunning := true, starting := .flagged }
  if scheduler.runner = .unstarted then
    (.ok (), { flagged with runner := .testing, starting := .returned })
  else
    (.error .runtimeException, flagged)

/-- `register`: its offer and its wakeup. -/
def register (scheduler : IOScheduler) : IOScheduler :=
  { scheduler with
    requests := scheduler.requests ++ [scheduler.registrations]
    registrations := scheduler.registrations + 1
    wakeup := true }

end IOScheduler

namespace Server

/-! ## The constructor -/

/-- `readerWriters[i] = new IOScheduler(ioProcessor)`, with the outcome of `openSelector`. -/
def newScheduler (readerWriters : List (Option IOScheduler)) (i : Nat)
    (openSelector : Except IOException Unit) : Except IOException (List (Option IOScheduler)) :=
  openSelector.map fun _ => readerWriters.set i (some .created)

/-- The constructor; `openSelector` gives the outcome for each scheduler it creates. -/
def construct (availableProcessors : Nat) (addr : List Byte) (port : Nat)
    (openSelector : Nat → Except IOException Unit) : Except IOException Server := do
  let readerWriters ←
    (List.range' 1 availableProcessors).foldlM
      (fun readerWriters i => newScheduler readerWriters i (openSelector i))
      (List.replicate (availableProcessors + 1) none)
  return { port, hostAddress := addr, serverChannel := none, readerWriters, offers := [] }

/-! ## `start` -/

/-- `readerWriters[i]`, on which a method is called. -/
def readerWriter (i : Nat) : Throwing Throwable Server IOScheduler := do
  match (← get).readerWriters[i]? with
  | none => throw .arrayIndexOutOfBoundsException
  | some none => throw .nullPointerException
  | some (some scheduler) => return scheduler

/-- Write a scheduler back. -/
def setReaderWriter (i : Nat) (scheduler : IOScheduler) : Throwing Throwable Server Unit :=
  modify fun server =>
    { server with readerWriters := server.readerWriters.set i (some scheduler) }

/-- `readerWriters[i].start()`. -/
def startReaderWriter (i : Nat) : Throwing Throwable Server Unit := do
  let scheduler ← readerWriter i
  let (result, started) := scheduler.start
  setReaderWriter i started
  match result with
  | .ok _ => pure ()
  | .error exception => throw exception

/-- A fallible step. -/
def fallible (result : Except IOException Unit) : Throwing Throwable Server Unit :=
  match result with
  | .ok _ => pure ()
  | .error exception => throw (.io exception)

/-- Change the listening channel. -/
def configure (change : ServerSocketChannel → ServerSocketChannel) :
    Throwing Throwable Server Unit :=
  modify fun server => { server with serverChannel := server.serverChannel.map change }

/-- `readerWriters[0].register(serverChannel, SelectionKey.OP_ACCEPT)`. -/
def registerListening : Throwing Throwable Server Unit := do
  let scheduler ← readerWriter 0
  setReaderWriter 0 scheduler.register
  modify fun server =>
    { server with
      offers := server.offers ++ [(0, .ofServerSocketChannel .OP_ACCEPT (some 0))] }

/-- The part of `start` behind the loop. -/
def listen (listening : Listening) : Throwing Throwable Server Unit := do
  fallible listening.openChannel
  modify fun server => { server with serverChannel := some .opened }
  fallible listening.configureBlocking
  configure fun channel => { channel with blocking := false }
  let server ← get
  let isa : InetSocketAddress := { addr := server.hostAddress, port := server.port }
  fallible listening.setReuseAddress
  configure fun channel => { channel with reuseAddress := true }
  fallible listening.bind
  configure fun channel => { channel with bound := some (isa, 4096) }
  registerListening

/-- `start`. -/
def start (listening : Listening) : Throwing Throwable Server Unit := do
  let server ← get
  (List.range server.readerWriters.length).reverse.forM startReaderWriter
  listen listening

/-! ## What the constructor builds -/

/-- A scheduler after `start`. -/
def startedScheduler : IOScheduler :=
  { IOScheduler.created with isRunning := true, runner := .testing, starting := .returned }

theorem created_start : IOScheduler.created.start = (.ok (), startedScheduler) ∧
    schedulerSystem.run IOScheduler.created [.startFlag, .startRunner] = some startedScheduler :=
  ⟨rfl, rfl⟩

/-- The array with slot 0 empty, `waiting` schedulers not started and `started` ones behind them. -/
def slots (waiting started : Nat) : List (Option IOScheduler) :=
  none :: (List.replicate waiting (some .created) ++
    List.replicate started (some startedScheduler))

/-- The loop of the constructor fills the slots behind slot 0 one by one. -/
theorem newSchedulers_eq {openSelector : Nat → Except IOException Unit} {count rest : Nat}
    {readerWriters : List (Option IOScheduler)}
    (built : (List.range' 1 count).foldlM
      (fun readerWriters i => newScheduler readerWriters i (openSelector i))
      (List.replicate (count + rest + 1) none) = .ok readerWriters) :
    readerWriters =
      none :: (List.replicate count (some .created) ++ List.replicate rest none) := by
  induction count generalizing rest readerWriters with
  | zero =>
      simp only [List.range'_zero, List.foldlM_nil] at built
      obtain rfl := Except.ok.inj built
      simp [List.replicate_succ]
  | succ count ih =>
      have size : count + 1 + rest + 1 = count + (rest + 1) + 1 := by omega
      rw [size, List.range'_concat, List.foldlM_append] at built
      cases earlier : (List.range' 1 count).foldlM
          (fun readerWriters i => newScheduler readerWriters i (openSelector i))
          (List.replicate (count + (rest + 1) + 1) none) with
      | error exception => simp [earlier, bind, Except.bind] at built
      | ok before =>
          obtain rfl := ih earlier
          rw [earlier] at built
          simp only [bind, Except.bind, List.foldlM_cons, List.foldlM_nil, newScheduler, one_mul]
            at built
          cases opened : openSelector (1 + count) with
          | error exception => simp [opened, Except.map] at built
          | ok _ =>
              simp only [opened, Except.map, pure, Except.pure, Except.ok.injEq] at built
              rw [← built, Nat.add_comm 1 count, List.set_cons_succ]
              have last : List.replicate (count + 1) (some IOScheduler.created) =
                  List.replicate count (some IOScheduler.created) ++ [some .created] :=
                List.replicate_succ'
              rw [List.set_append_right _ _ (by simp), last, List.append_assoc]
              simp [List.replicate_succ]

/-- A server that the constructor built. -/
def built (availableProcessors : Nat) (addr : List Byte) (port : Nat) : Server :=
  { port
    hostAddress := addr
    serverChannel := none
    readerWriters := slots availableProcessors 0
    offers := [] }

theorem construct_eq {availableProcessors : Nat} {addr : List Byte} {port : Nat}
    {openSelector : Nat → Except IOException Unit} {server : Server}
    (constructed : construct availableProcessors addr port openSelector = .ok server) :
    server = built availableProcessors addr port := by
  cases made : (List.range' 1 availableProcessors).foldlM
      (fun readerWriters i => newScheduler readerWriters i (openSelector i))
      (List.replicate (availableProcessors + 1) none) with
  | error exception => simp [construct, made, bind, Except.bind] at constructed
  | ok readerWriters =>
      obtain rfl := @newSchedulers_eq openSelector _ 0 _ made
      simp only [construct, made, bind, Except.bind, pure, Except.pure, Except.ok.injEq]
        at constructed
      rw [← constructed, built, slots]
      simp

/-! ## What `start` does -/

theorem slots_getElem? (waiting started : Nat) :
    (slots (waiting + 1) started)[waiting + 1]? = some (some .created) := by
  simp [slots]

theorem slots_set (waiting started : Nat) :
    (slots (waiting + 1) started).set (waiting + 1) (some startedScheduler) =
      slots waiting (started + 1) := by
  rw [slots, slots, List.set_cons_succ, List.replicate_succ', List.append_assoc]
  rw [List.set_append_right _ _ (by simp)]
  simp [List.replicate_succ]

/-- The walk over the array starts every scheduler there is and throws at slot 0. -/
theorem startReaderWriters_outcome (server : Server) (waiting started : Nat)
    (array : server.readerWriters = slots waiting started) :
    outcome ((List.range (waiting + 1)).reverse.forM startReaderWriter) server =
      (.error .nullPointerException,
        { server with readerWriters := slots 0 (started + waiting) }) := by
  induction waiting generalizing server started with
  | zero =>
      have null : server.readerWriters[0]? = some none := by simp [array, slots]
      have unchanged : { server with readerWriters := slots 0 started } = server := by rw [← array]
      simp [List.range_succ, startReaderWriter, readerWriter, null, unchanged]
  | succ waiting ih =>
      have element : server.readerWriters[waiting + 1]? = some (some .created) := by
        rw [array, slots_getElem?]
      have written := slots_set waiting started
      rw [← array] at written
      have first : outcome (startReaderWriter (waiting + 1)) server =
          (.ok (), { server with readerWriters := slots waiting (started + 1) }) := by
        simp [startReaderWriter, readerWriter, element, created_start.1, setReaderWriter, written]
      have rest := ih { server with readerWriters := slots waiting (started + 1) } (started + 1) rfl
      have total : started + 1 + waiting = started + (waiting + 1) := by omega
      rw [total] at rest
      rw [List.range_succ, List.reverse_append, List.reverse_singleton, List.singleton_append,
        List.forM_eq_forM, List.forM_cons, outcome_bind, first]
      exact rest

/-- Whatever the outcomes of its later steps would be, `start` throws at slot 0. -/
theorem start_outcome (availableProcessors : Nat) (addr : List Byte) (port : Nat)
    (listening : Listening) :
    outcome (start listening) (built availableProcessors addr port) =
      (.error .nullPointerException,
        { built availableProcessors addr port with
          readerWriters := slots 0 availableProcessors }) := by
  have length : (built availableProcessors addr port).readerWriters.length =
      availableProcessors + 1 := by simp [built, slots]
  have walk := startReaderWriters_outcome (built availableProcessors addr port)
    availableProcessors 0 rfl
  rw [start, outcome_bind, outcome_get]
  simp only [length, outcome_bind, walk, Nat.zero_add]

end Server

/-! ## All or nothing -/

/-- The thread of a scheduler was started and has not left `run`. -/
def IOScheduler.ThreadRuns (scheduler : IOScheduler) : Prop :=
  scheduler.runner ≠ .unstarted ∧ scheduler.runner ≠ .finished

/-- A step of the thread itself, on a scheduler whose keys and requests throw nothing. -/
def SchedulerEvent.Own : SchedulerEvent → Prop
  | .test | .poll | .pollThrows _ | .select | .selectThrows _ | .processed | .drain => True
  | .startFlag | .startRunner | .stopFlag | .stopJoin | .offer | .wake _ | .interrupt | .channels _
  | .escape => False

/-- A running scheduler that nobody stops or interrupts. -/
structure IOScheduler.Undisturbed (scheduler : IOScheduler) : Prop where
  isRunning : scheduler.isRunning = true
  interrupted : scheduler.interrupted = false
  threadRuns : scheduler.ThreadRuns

theorem IOScheduler.Undisturbed.next {scheduler next : IOScheduler} {event : SchedulerEvent}
    (undisturbed : scheduler.Undisturbed) (own : event.Own)
    (step : scheduler.next event = some next) : next.Undisturbed := by
  obtain ⟨running, calm, -⟩ := undisturbed
  cases takes_of_next step with
  | startFlag => cases own
  | startRunner => cases own
  | stopFlag => cases own
  | stopJoin => cases own
  | offer => cases own
  | wake => cases own
  | interrupt => cases own
  | channels => cases own
  | entered => exact ⟨running, calm, by simp [ThreadRuns]⟩
  | left _ stays => exact absurd ⟨running, calm⟩ stays
  | unready => exact ⟨running, calm, by simp [ThreadRuns]⟩
  | available => exact ⟨running, calm, by simp [ThreadRuns]⟩
  | usedUp => exact ⟨running, calm, by simp [ThreadRuns]⟩
  | pollThrows => exact ⟨running, calm, by simp [ThreadRuns, selectionThrows]⟩
  | select => exact ⟨running, calm, by simp [ThreadRuns]⟩
  | selectThrows => exact ⟨running, calm, by simp [ThreadRuns, selectionThrows]⟩
  | processed => exact ⟨running, calm, by simp [ThreadRuns]⟩
  | drained => exact ⟨running, calm, by simp [ThreadRuns]⟩
  | taken draining => exact ⟨running, calm, by simp [ThreadRuns, draining]⟩
  | escape => cases own

/-- What the thread of a scheduler makes of it by steps of its own. -/
def IOScheduler.Proceeds (scheduler later : IOScheduler) : Prop :=
  ∃ events, (∀ event ∈ events, event.Own) ∧ schedulerSystem.run scheduler events = some later

theorem IOScheduler.Undisturbed.proceeds {scheduler later : IOScheduler}
    (undisturbed : scheduler.Undisturbed) (proceeds : scheduler.Proceeds later) :
    later.Undisturbed := by
  obtain ⟨events, own, execution⟩ := proceeds
  exact (along_of_events own).invariant
    (fun _ _ _ undisturbed step own => undisturbed.next own step) undisturbed execution

theorem Server.startedScheduler_undisturbed : Server.startedScheduler.Undisturbed :=
  ⟨rfl, rfl, by simp [Server.startedScheduler, IOScheduler.ThreadRuns]⟩

namespace Server

/-- A slot some time later: what it refers to stays, and its thread goes on. -/
def SlotProceeds : Option IOScheduler → Option IOScheduler → Prop
  | some scheduler, some later => scheduler.Proceeds later
  | none, none => True
  | _, _ => False

/-- The server some time later, when the threads of its schedulers took steps of their own. -/
structure Proceeds (server later : Server) : Prop where
  slots : List.Forall₂ SlotProceeds server.readerWriters later.readerWriters
  serverChannel : later.serverChannel = server.serverChannel
  offers : later.offers = server.offers

/-- `start` ended as it should: it returned with all schedulers running and the listening channel
queued for scheduler 0, or it threw and left neither a thread nor an open channel. -/
def AllOrNothing (availableProcessors : Nat) (result : Except Throwable Unit) (server : Server) :
    Prop :=
  match result with
  | .ok _ =>
      server.readerWriters.length = availableProcessors + 1 ∧
        (∀ slot ∈ server.readerWriters, ∃ scheduler, slot = some scheduler ∧
          scheduler.isRunning = true ∧ scheduler.ThreadRuns) ∧
        (0, .ofServerSocketChannel .OP_ACCEPT (some 0)) ∈ server.offers
  | .error _ =>
      (∀ scheduler, some scheduler ∈ server.readerWriters → ¬ scheduler.ThreadRuns) ∧
        ∀ channel, server.serverChannel = some channel → channel.isOpen = false

/-- On a machine with a processor `start` never ends as it should: it throws, whatever the outcomes
of its fallible steps would be, and the schedulers behind slot 0 keep running. -/
theorem start_never_all_or_nothing (availableProcessors : Nat) (one : 1 ≤ availableProcessors)
    (addr : List Byte) (port : Nat) (openSelector : Nat → Except IOException Unit)
    (server : Server)
    (constructed : construct availableProcessors addr port openSelector = .ok server)
    (listening : Listening) (later : Server)
    (proceeds : (outcome (start listening) server).2.Proceeds later) :
    ¬ AllOrNothing availableProcessors (outcome (start listening) server).1 later := by
  obtain rfl := construct_eq constructed
  rw [start_outcome] at proceeds ⊢
  rintro ⟨halted, -⟩
  obtain ⟨count, rfl⟩ : ∃ count, availableProcessors = count + 1 :=
    ⟨availableProcessors - 1, by omega⟩
  have slots_later := proceeds.slots
  simp only [slots, List.replicate_zero, List.nil_append, List.replicate_succ] at slots_later
  obtain ⟨null, schedulers, -, first_later, array⟩ := List.forall₂_cons_left_iff.mp slots_later
  obtain ⟨first, others, goes_on, -, rfl⟩ := List.forall₂_cons_left_iff.mp first_later
  cases first with
  | none => exact goes_on
  | some scheduler =>
      have undisturbed := startedScheduler_undisturbed.proceeds goes_on
      apply halted scheduler _ undisturbed.threadRuns
      rw [array]
      simp

/-- A machine with one processor on which everything succeeds. -/
def smallServer : Server := built 1 [0, 0, 0, 0] 50112

/-- Every step behind the loop would succeed. -/
def fineListening : Listening :=
  { openChannel := .ok (), configureBlocking := .ok (), setReuseAddress := .ok (), bind := .ok () }

theorem smallServer_constructed :
    construct 1 [0, 0, 0, 0] 50112 (fun _ => .ok ()) = .ok smallServer := by decide

theorem smallServer_outcome : outcome (start fineListening) smallServer =
    (.error .nullPointerException,
      { smallServer with readerWriters := [none, some startedScheduler] }) :=
  start_outcome 1 [0, 0, 0, 0] 50112 fineListening

theorem start_never_all_or_nothing_small :
    ¬ AllOrNothing 1 (outcome (start fineListening) smallServer).1
      { smallServer with
        readerWriters :=
          [none, some { startedScheduler with runner := .polling IOScheduler.POLLS }] } := by
  have proceeds : (outcome (start fineListening) smallServer).2.Proceeds
      { smallServer with
        readerWriters :=
          [none, some { startedScheduler with runner := .polling IOScheduler.POLLS }] } := by
    rw [smallServer_outcome]
    refine ⟨?_, rfl, rfl⟩
    refine .cons trivial (.cons ⟨[.test], ?_, rfl⟩ .nil)
    intro event member
    obtain rfl := List.mem_singleton.mp member
    trivial
  exact start_never_all_or_nothing 1 (by decide) [0, 0, 0, 0] 50112 (fun _ => .ok ()) smallServer
    smallServer_constructed fineListening _ proceeds

/-- The server is built, `start` throws a `NullPointerException`, and a thread runs. -/
theorem start_leaves_thread :
    construct 1 [0, 0, 0, 0] 50112 (fun _ => .ok ()) = .ok smallServer ∧
      (outcome (start fineListening) smallServer).1 = .error .nullPointerException ∧
      ¬ AllOrNothing 1 (outcome (start fineListening) smallServer).1
        (outcome (start fineListening) smallServer).2 := by
  refine ⟨smallServer_constructed, by rw [smallServer_outcome], ?_⟩
  rw [smallServer_outcome]
  rintro ⟨halted, -⟩
  apply halted startedScheduler (by simp)
  exact startedScheduler_undisturbed.threadRuns

end Server

end Mrps.Java
