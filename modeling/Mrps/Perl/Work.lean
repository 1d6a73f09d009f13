import Mrps.EventSystem
import Mrps.Runtime

/-!
# The worker of `10kx_decoded.pl`

`Work` as a machine that stops at the top of its `while` loop and before each round of `for (@s)`.
The iterator of that loop walks the live array by a hidden index and reads its length again each
time; the program keeps `$n` beside it.  Sockets are named by the order of their acceptance.
-/

namespace Mrps.Perl

open EventSystem

def MAXCONNECT : Int := 430

def BUFSIZE : Nat := 4096

/-- Where the worker is. -/
inductive Place where
  /-- At the top of `while (1)`. -/
  | top
  /-- In `for (@s)`. -/
  | pass
  /-- After a `die`. -/
  | died
  deriving DecidableEq, Repr

/-- The outcomes of `setsockopt` and `fcntl` on an accepted socket. -/
structure Setup where
  setsockopt : Bool
  fcntl : Bool
  deriving DecidableEq, Repr

/-- The variables of `Work`, the hidden index of its loop, and the history of its sockets. -/
structure Work where
  place : Place
  /-- `$nConnects`. -/
  nConnects : Int
  /-- `defined $srv`. -/
  srv : Bool
  /-- `@s`. -/
  s : List Nat
  /-- `$buf`. -/
  buf : List Byte
  /-- `$n`. -/
  n : Nat
  /-- The index of the iterator. -/
  index : Nat
  /-- How many sockets were accepted. -/
  accepted : Nat
  /-- The sockets that were closed, in order. -/
  closed : List Nat
  /-- What `syswrite` took. -/
  written : List (Nat × List Byte)
  deriving DecidableEq, Repr

/-- What can happen at a stop of the worker. -/
inductive WorkEvent where
  /-- A round of `while (1)` up to its inner loop; `accept` returns a socket or `undef`. -/
  | iterate (accept : Option Setup)
  /-- A round of `for (@s)`; `sysread` finds bytes, none of them at the end of the stream, or
  returns `undef`, and `syswrite` takes some bytes or returns `undef`. -/
  | visit (sysread : Option (List Byte)) (syswrite : Option Nat)
  /-- The iterator reaches the end of the array. -/
  | leave
  deriving DecidableEq, Repr

namespace Work

/-- The variables of a new worker. -/
def started : Work :=
  { place := .top
    nConnects := MAXCONNECT
    srv := true
    s := []
    buf := List.replicate BUFSIZE 32
    n := 0
    index := 0
    accepted := 0
    closed := []
    written := [] }

/-- `--$nConnects`, after which the last socket closes the listener. -/
def countDown (worker : Work) : Work :=
  { worker with
    nConnects := worker.nConnects - 1
    srv := if worker.nConnects - 1 = 0 then false else worker.srv
    accepted := worker.accepted + 1 }

/-- `accept` and the setup of the socket it returned. -/
def tryAccept (worker : Work) (accept : Option Setup) : Work :=
  if worker.srv = false then
    -- a method call on an undefined value
    { worker with place := .died }
  else
    match accept with
    | none => worker
    | some setup =>
        if setup.setsockopt ∧ setup.fcntl then
          { worker.countDown with s := worker.s ++ [worker.accepted] }
        else
          { worker.countDown with place := .died }

/-- `$n = 0`, and the iterator starts. -/
def startPass (worker : Work) : Work :=
  if worker.place = .died then worker else { worker with place := .pass, n := 0, index := 0 }

/-- A round of `while (1)` up to its inner loop. -/
def iterate (worker : Work) (accept : Option Setup) : Work :=
  if worker.nConnects ≠ 0 then (worker.tryAccept accept).startPass else worker.startPass

/-- The body of `for (@s)` on the socket of the iterator. -/
def serve (worker : Work) (socket : Nat) (sysread : Option (List Byte)) (syswrite : Option Nat) :
    Work :=
  match sysread with
  | none => worker
  | some [] =>
      { worker with
        buf := []
        closed := worker.closed ++ [socket]
        s := worker.s.eraseIdx worker.n }
  | some bytes =>
      { worker with
        buf := bytes
        written := worker.written ++ [(socket, bytes.take (syswrite.getD 0))] }

/-- `$n++` and the step of the iterator. -/
def advance (worker : Work) : Work := { worker with n := worker.n + 1, index := worker.index + 1 }

/-- One step of the worker. -/
def next (worker : Work) : WorkEvent → Option Work
  | .iterate accept => if worker.place = .top then some (worker.iterate accept) else none
  | .visit sysread syswrite =>
      if worker.place = .pass ∧ ∀ bytes ∈ sysread, bytes.length ≤ BUFSIZE then
        worker.s[worker.index]?.map fun socket => (worker.serve socket sysread syswrite).advance
      else none
  | .leave =>
      if worker.place = .pass ∧ worker.s.length ≤ worker.index then
        some { worker with place := .top }
      else none

end Work

/-- The runs of a worker. -/
def works : EventSystem Work WorkEvent := { step := Work.next }

namespace Work

variable {worker after : Work} {event : WorkEvent}

/-! ## The live array -/

/-- The accepted sockets that are not closed, in the order of acceptance. -/
def live (accepted : Nat) (closed : List Nat) : List Nat :=
  (List.range accepted).filter fun socket => socket ∉ closed

theorem live_nodup (accepted : Nat) (closed : List Nat) : (live accepted closed).Nodup :=
  List.nodup_range.filter _

theorem live_succ {accepted : Nat} {closed : List Nat} (fresh : accepted ∉ closed) :
    live (accepted + 1) closed = live accepted closed ++ [accepted] := by
  simp [live, List.range_succ, fresh]

theorem live_closed (accepted : Nat) (closed : List Nat) (socket : Nat) :
    live accepted (closed ++ [socket]) = (live accepted closed).erase socket := by
  rw [(live_nodup accepted closed).erase_eq_filter, live, live, List.filter_filter]
  apply List.filter_congr
  intro other _
  by_cases same : other = socket <;> simp [same]

/-! ## The books of the worker -/

/-- What the worker keeps in step. -/
structure Books (worker : Work) : Prop where
  counted : worker.nConnects + worker.accepted = MAXCONNECT
  nonneg : 0 ≤ worker.nConnects
  listening : worker.srv = true ↔ 0 < worker.nConnects
  array : worker.s = live worker.accepted worker.closed
  known : ∀ socket ∈ worker.closed, socket < worker.accepted
  once : worker.closed.Nodup
  /-- `$n` is the hidden index. -/
  inStep : worker.place = .pass → worker.n = worker.index

theorem books_started : started.Books where
  counted := rfl
  nonneg := by decide
  listening := by decide
  array := rfl
  known := by simp [started]
  once := List.nodup_nil
  inStep := by simp [started]

/-- The body of the loop removes the very socket it closed. -/
theorem Books.splice {socket : Nat} (books : worker.Books) (passing : worker.place = .pass)
    (found : worker.s[worker.index]? = some socket) :
    worker.s.eraseIdx worker.n = worker.s.erase socket ∧ socket ∉ worker.closed := by
  obtain ⟨inside, socket_eq⟩ := List.getElem?_eq_some_iff.mp found
  have nodup : worker.s.Nodup := books.array ▸ live_nodup _ _
  have member : socket ∈ worker.s := socket_eq ▸ List.getElem_mem inside
  constructor
  · rw [books.inStep passing, ← socket_eq, nodup.erase_getElem _ inside]
  · rw [books.array] at member
    simpa using (List.mem_filter.mp member).2

/-- One accepted socket is counted down. -/
theorem Books.countDown (books : worker.Books) (room : worker.nConnects ≠ 0) :
    worker.countDown.nConnects + worker.countDown.accepted = MAXCONNECT ∧
      0 ≤ worker.countDown.nConnects ∧
      (worker.countDown.srv = true ↔ 0 < worker.countDown.nConnects) := by
  have counted := books.counted
  have nonneg := books.nonneg
  have is_listening : worker.srv = true := books.listening.mpr (by omega)
  refine ⟨?_, ?_, ?_⟩
  · simp only [Work.countDown, Nat.cast_add, Nat.cast_one]
    omega
  · simp only [Work.countDown]
    omega
  · by_cases last : worker.nConnects - 1 = 0
    · simp [Work.countDown, last]
    · simp only [Work.countDown, last, if_false, is_listening, true_iff]
      omega

theorem Books.tryAccept {accept : Option Setup} (books : worker.Books)
    (room : worker.nConnects ≠ 0) (alive : (worker.tryAccept accept).place ≠ .died) :
    (worker.tryAccept accept).Books := by
  have nonneg := books.nonneg
  have is_listening : worker.srv = true := books.listening.mpr (by omega)
  cases accept with
  | none => simpa [Work.tryAccept, is_listening] using books
  | some setup =>
      by_cases set_up : setup.setsockopt ∧ setup.fcntl
      · obtain ⟨counted, nonneg, listening⟩ := books.countDown room
        have fresh : worker.accepted ∉ worker.closed :=
          fun closed => (books.known _ closed).false
        have result : worker.tryAccept (some setup) =
            { worker.countDown with s := worker.s ++ [worker.accepted] } := by
          simp [Work.tryAccept, is_listening, set_up]
        rw [result]
        refine { counted, nonneg, listening, array := ?_, known := ?_, once := books.once,
                 inStep := books.inStep }
        · rw [books.array]
          exact (live_succ fresh).symm
        · intro socket closed
          exact Nat.lt_succ_of_lt (books.known socket closed)
      · simp [Work.tryAccept, is_listening, set_up] at alive

theorem Books.startPass (books : worker.place ≠ .died → worker.Books)
    (alive : worker.startPass.place ≠ .died) : worker.startPass.Books := by
  by_cases died : worker.place = .died
  · simp [Work.startPass, died] at alive
  · rw [Work.startPass, if_neg died]
    exact { books died with inStep := fun _ => rfl }

theorem Books.iterate {accept : Option Setup} (books : worker.Books)
    (alive : (worker.iterate accept).place ≠ .died) : (worker.iterate accept).Books := by
  rw [Work.iterate] at alive ⊢
  split
  · rename_i room
    rw [if_pos room] at alive
    exact Books.startPass (books.tryAccept room) alive
  · rename_i full
    rw [if_neg full] at alive
    exact Books.startPass (fun _ => books) alive

theorem Books.visit {sysread : Option (List Byte)} {syswrite : Option Nat} {socket : Nat}
    (books : worker.Books) (passing : worker.place = .pass)
    (found : worker.s[worker.index]? = some socket) :
    (worker.serve socket sysread syswrite).advance.Books := by
  have inStep := books.inStep passing
  obtain ⟨splice_eq, still_open⟩ := books.splice passing found
  have member : socket ∈ worker.s := by
    obtain ⟨inside, rfl⟩ := List.getElem?_eq_some_iff.mp found
    exact List.getElem_mem inside
  have accepted : socket < worker.accepted := by
    rw [books.array] at member
    exact List.mem_range.mp (List.mem_filter.mp member).1
  rcases sysread with _ | (_ | ⟨byte, bytes⟩)
  · exact { books with inStep := fun _ => by simp [Work.serve, Work.advance, inStep] }
  · refine { books with array := ?_, known := ?_, once := ?_, inStep := ?_ }
    · simp only [Work.serve, Work.advance, live_closed, ← books.array, splice_eq]
    · intro other closed
      rcases List.mem_append.mp closed with before | now
      · exact books.known other before
      · rw [List.mem_singleton.mp now]
        exact accepted
    · have once := List.Nodup.concat still_open books.once
      rw [List.concat_eq_append] at once
      exact once
    · exact fun _ => by simp [Work.serve, Work.advance, inStep]
  · exact { books with inStep := fun _ => by simp [Work.serve, Work.advance, inStep] }

/-- A worker that did not die has its books in order. -/
def Kept (worker : Work) : Prop := worker.place ≠ .died → worker.Books

theorem Kept.next (kept : worker.Kept) (step : worker.next event = some after) : after.Kept := by
  intro alive
  cases event with
  | iterate accept =>
      simp only [Work.next] at step
      split at step
      · rename_i top
        obtain rfl := Option.some.inj step
        exact (kept (by simp [top])).iterate alive
      · cases step
  | visit sysread syswrite =>
      simp only [Work.next] at step
      split at step
      · rename_i passing
        obtain ⟨socket, found, rfl⟩ := Option.map_eq_some_iff.mp step
        exact (kept (by simp [passing.1])).visit passing.1 found
      · cases step
  | leave =>
      simp only [Work.next] at step
      split at step
      · rename_i passing
        obtain rfl := Option.some.inj step
        exact { kept (by simp [passing.1]) with inStep := by simp }
      · cases step

/-- `accept` is called on a listener, and the socket closed by a visit is the one `splice` takes
out. -/
def Proper (worker : Work) (event : WorkEvent) (after : Work) : Prop :=
  match event with
  | .iterate _ => worker.nConnects ≠ 0 → worker.srv = true
  | .visit (some []) _ =>
      ∃ socket, worker.s[worker.index]? = some socket ∧ socket ∉ worker.closed ∧
        after.closed = worker.closed ++ [socket] ∧ after.s = worker.s.erase socket
  | _ => True

theorem Kept.proper (kept : worker.Kept) (step : worker.next event = some after) :
    worker.Proper event after := by
  rcases event with accept | ⟨_ | _ | _, syswrite⟩ | _
  · intro room
    simp only [Work.next] at step
    split at step
    · rename_i top
      have books := kept (by simp [top])
      have nonneg := books.nonneg
      exact books.listening.mpr (by omega)
    · cases step
  · trivial
  · simp only [Work.next] at step
    split at step
    · rename_i passing
      obtain ⟨socket, found, rfl⟩ := Option.map_eq_some_iff.mp step
      obtain ⟨splice_eq, still_open⟩ := (kept (by simp [passing.1])).splice passing.1 found
      exact ⟨socket, found, still_open, rfl, splice_eq⟩
    · cases step
  · trivial
  · trivial

/-- In every run of a worker, whenever it is at the top of its loop: the countdown and the accepted
sockets make up `MAXCONNECT`, the listener is defined exactly while the countdown is positive, and
the array holds exactly the accepted sockets that are not closed, in order; along the way every
`splice` takes out the socket that was just closed. -/
theorem bookkeeping (events : List WorkEvent) (worker : Work)
    (execution : works.run started events = some worker) :
    (worker.place = .top →
      worker.nConnects + worker.accepted = MAXCONNECT ∧
      (worker.srv = true ↔ 0 < worker.nConnects) ∧
      worker.s = live worker.accepted worker.closed ∧ worker.s.Nodup) ∧
    works.Along Proper started events := by
  have preserves : works.Preserves Kept := fun _ _ _ kept step => kept.next step
  have start : started.Kept := fun _ => books_started
  constructor
  · intro top
    have books := preserves.run start execution (by simp [top])
    exact ⟨books.counted, books.listening, books.array, books.array ▸ live_nodup _ _⟩
  · apply preserves.along _ start
    intro before event after kept step
    exact kept.proper step

/-- Two sockets are accepted and the first is closed. -/
def firstClosed : List WorkEvent :=
  [.iterate (some ⟨true, true⟩), .visit none none, .leave,
    .iterate (some ⟨true, true⟩), .visit (some []) none, .leave]

theorem bookkeeping_firstClosed : ∃ worker, works.run started firstClosed = some worker ∧
    worker.s = [1] ∧ worker.nConnects + worker.accepted = MAXCONNECT :=
  ⟨_, rfl, by decide +kernel, ((bookkeeping firstClosed _ rfl).1 (by decide +kernel)).1⟩

end Work

end Mrps.Perl
