import Mrps.LiveArray
import Mrps.Perl.Work

/-!
# One pass over the sockets

`for (@s)` with the outcomes of `sysread` given for each socket.  The body closes and splices out a
socket whose stream has ended, and the iterator then steps over its successor.
-/

namespace Mrps.Perl.Work

open EventSystem LiveArray

theorem length_serve_le (worker : Work) (socket : Nat) (sysread : Option (List Byte))
    (syswrite : Option Nat) :
    (worker.serve socket sysread syswrite).s.length ≤ worker.s.length := by
  rcases sysread with _ | _ | ⟨first, rest⟩
  · exact le_rfl
  · exact List.length_eraseIdx_le worker.s worker.n
  · exact le_rfl

theorem served_index (worker : Work) (socket : Nat) (read : Option (List Byte))
    (write : Option Nat) :
    (worker.serve socket read write).advance.n = worker.n + 1 ∧
      (worker.serve socket read write).advance.index = worker.index + 1 := by
  rcases read with _ | _ | ⟨first, rest⟩
  · exact ⟨rfl, rfl⟩
  · exact ⟨rfl, rfl⟩
  · exact ⟨rfl, rfl⟩

section Pass

variable (sysread : Nat → Option (List Byte)) (syswrite : Nat → Option Nat)

/-- `for (@s)` from where the iterator stands, and the sockets on which it calls `sysread`. -/
def forPass (worker : Work) : Work × List Nat :=
  match _found : worker.s[worker.index]? with
  | none => ({ worker with place := .top }, [])
  | some socket =>
      let later := forPass (worker.serve socket (sysread socket) (syswrite socket)).advance
      (later.1, socket :: later.2)
termination_by worker.s.length - worker.index
decreasing_by
  have inside := (List.getElem?_eq_some_iff.mp _found).1
  have length_le := length_serve_le worker socket (sysread socket) (syswrite socket)
  have index_eq := (served_index worker socket (sysread socket) (syswrite socket)).2
  have array_eq : (worker.serve socket (sysread socket) (syswrite socket)).advance.s =
    (worker.serve socket (sysread socket) (syswrite socket)).s := rfl
  rw [array_eq, index_eq]
  omega

/-- The rounds of a pass that visits these sockets. -/
def rounds (sockets : List Nat) : List WorkEvent :=
  sockets.map (fun socket => .visit (sysread socket) (syswrite socket)) ++ [.leave]

variable {sysread syswrite}

theorem forPass_of_end {worker : Work} (ended : worker.s[worker.index]? = none) :
    forPass sysread syswrite worker = ({ worker with place := .top }, []) := by
  rw [forPass]
  split
  · rfl
  · simp_all

theorem forPass_of_found {worker : Work} {socket : Nat}
    (found : worker.s[worker.index]? = some socket) :
    forPass sysread syswrite worker =
      ((forPass sysread syswrite
          (worker.serve socket (sysread socket) (syswrite socket)).advance).1,
        socket :: (forPass sysread syswrite
          (worker.serve socket (sysread socket) (syswrite socket)).advance).2) := by
  rw [forPass]
  split
  · simp_all
  · rename_i other other_found
    obtain rfl := Option.some.inj (found.symm.trans other_found)
    rfl

theorem serve_place (worker : Work) (socket : Nat) (read : Option (List Byte))
    (write : Option Nat) : (worker.serve socket read write).place = worker.place := by
  rcases read with _ | _ | ⟨first, rest⟩
  · rfl
  · rfl
  · rfl

/-- The pass is the run of the worker through its rounds. -/
theorem forPass_run {worker : Work} (passing : worker.place = .pass)
    (sized : ∀ socket, ∀ bytes ∈ sysread socket, bytes.length ≤ BUFSIZE) :
    works.run worker (rounds sysread syswrite (forPass sysread syswrite worker).2) =
      some (forPass sysread syswrite worker).1 := by
  induction worker using forPass.induct sysread syswrite with
  | case1 worker ended =>
      rw [forPass_of_end ended]
      have outside : worker.s.length ≤ worker.index := List.getElem?_eq_none_iff.mp ended
      simp [rounds, works, Work.next, passing, outside]
  | case2 worker socket found ih =>
      have taken : worker.next (.visit (sysread socket) (syswrite socket)) =
          some (worker.serve socket (sysread socket) (syswrite socket)).advance := by
        rw [Work.next, if_pos ⟨passing, sized socket⟩, found]
        rfl
      have step : works.step worker (.visit (sysread socket) (syswrite socket)) =
          some (worker.serve socket (sysread socket) (syswrite socket)).advance := taken
      have later := ih ((serve_place worker socket _ _).trans passing)
      rw [forPass_of_found found]
      simp only [rounds, List.map_cons, List.cons_append, run_cons, step, Option.bind_some]
      exact later

/-- A visit that keeps its socket moves the iterator over it, and one that closes it takes the
socket out. -/
theorem served_array (sysread : Nat → Option (List Byte)) (syswrite : Nat → Option Nat)
    {worker : Work} {front rest : List Nat} {socket : Nat}
    (array : worker.s = front ++ socket :: rest) (counted : worker.n = front.length) :
    (worker.serve socket (sysread socket) (syswrite socket)).advance.s =
      if sysread socket = some [] then front ++ rest else front ++ socket :: rest := by
  rcases answer : sysread socket with _ | _ | ⟨first, others⟩
  · simp [serve, advance, array]
  · simp only [serve, advance, array, counted, if_true]
    rw [List.eraseIdx_append_of_length_le le_rfl, Nat.sub_self]
    rfl
  · simp [serve, advance, array]

/-- From behind a front the pass walks the rest of the array. -/
theorem forPass_visits {worker : Work} {front rest : List Nat} (array : worker.s = front ++ rest)
    (counted : worker.n = front.length) (stands : worker.index = front.length) :
    (forPass sysread syswrite worker).2 = walk (fun socket => sysread socket = some []) rest := by
  induction rest using walk.induct generalizing worker front with
  | case1 =>
      have ended : worker.s[worker.index]? = none := by simp [array, stands]
      rw [forPass_of_end ended]
      rfl
  | case2 last =>
      have found : worker.s[worker.index]? = some last := by simp [array, stands]
      have array' := served_array sysread syswrite array counted
      obtain ⟨-, index'⟩ := served_index worker last (sysread last) (syswrite last)
      rw [forPass_of_found found, forPass_of_end]
      · rfl
      · rw [array', index', stands]
        split
        · simp
        · simp
  | case3 first second rest ih_rest ih_second =>
      have found : worker.s[worker.index]? = some first := by simp [array, stands]
      have array' := served_array sysread syswrite array counted
      obtain ⟨counted', index'⟩ := served_index worker first (sysread first) (syswrite first)
      have counted_next : (worker.serve first (sysread first) (syswrite first)).advance.n =
          (front ++ [first]).length := by simp [counted', counted]
      have stands_next : (worker.serve first (sysread first) (syswrite first)).advance.index =
          (front ++ [first]).length := by simp [index', stands]
      rw [forPass_of_found found, walk]
      by_cases closes : sysread first = some []
      · -- the second socket has moved under the index that was just used
        rw [if_pos closes]
        have moved : (worker.serve first (sysread first) (syswrite first)).advance.s =
            (front ++ [second]) ++ rest := by
          rw [array', if_pos closes]
          simp
        exact congrArg (first :: ·) (ih_rest moved (by simpa using counted_next)
          (by simpa using stands_next))
      · rw [if_neg closes]
        have stayed : (worker.serve first (sysread first) (syswrite first)).advance.s =
            (front ++ [first]) ++ second :: rest := by
          rw [array', if_neg closes]
          simp
        exact congrArg (first :: ·) (ih_second stayed counted_next stands_next)

end Pass

/-- A whole pass walks the array. -/
theorem startPass_visits {worker : Work} (alive : worker.place ≠ .died)
    {sysread : Nat → Option (List Byte)} {syswrite : Nat → Option Nat} :
    (forPass sysread syswrite worker.startPass).2 =
      walk (fun socket => sysread socket = some []) worker.s := by
  rw [startPass, if_neg alive]
  apply forPass_visits
  · exact (List.nil_append _).symm
  · rfl
  · rfl

/-- One pass calls `sysread` exactly once on each socket that was in the array when it started, if
and only if none but the last of them is at the end of its stream. -/
theorem pass_serves_each_iff (worker : Work) (alive : worker.place ≠ .died)
    (distinct : worker.s.Nodup) (sysread : Nat → Option (List Byte)) (syswrite : Nat → Option Nat) :
    (∀ socket ∈ worker.s, (forPass sysread syswrite worker.startPass).2.count socket = 1) ↔
      ∀ socket ∈ worker.s.dropLast, sysread socket ≠ some [] := by
  rw [startPass_visits alive]
  exact count_walk_iff (fun socket => sysread socket = some []) distinct

/-- Two sockets are accepted and nothing is read from them. -/
def twoAccepted : List WorkEvent :=
  [.iterate (some ⟨true, true⟩), .visit none none, .leave,
    .iterate (some ⟨true, true⟩), .visit none none, .visit none none, .leave]

/-- A worker with two open sockets at the top of its loop. -/
def twoSockets : Work := { started with nConnects := MAXCONNECT - 2, s := [0, 1], accepted := 2 }

theorem pass_serves_each_iff_two :
    (∀ socket ∈ [0, 1],
        (forPass (fun _ => some [104]) (fun _ => some 1) twoSockets.startPass).2.count socket = 1) ↔
      ∀ socket ∈ [0], (some [104] : Option (List Byte)) ≠ some [] :=
  pass_serves_each_iff twoSockets (by decide) (by decide) (fun _ => some [104]) fun _ => some 1

/-- The first of two sockets is at the end of its stream and the second has a byte to read: the pass
leaves the second out. -/
theorem successor_left_out :
    ∃ worker, works.run started twoAccepted = some worker ∧ worker.place = .top ∧
      worker.s = [0, 1] ∧
      (forPass (fun socket => if socket = 0 then some [] else some [104]) (fun _ => some 1)
          worker.startPass).2 = [0] ∧
      ¬ ∀ socket ∈ worker.s,
        (forPass (fun socket => if socket = 0 then some [] else some [104]) (fun _ => some 1)
          worker.startPass).2.count socket = 1 := by
  obtain ⟨worker, execution, top, array⟩ :
      ∃ worker, works.run started twoAccepted = some worker ∧ worker.place = .top ∧
        worker.s = [0, 1] := ⟨_, rfl, rfl, rfl⟩
  have visits : (forPass (fun socket => if socket = 0 then some [] else some [104])
      (fun _ => some 1) worker.startPass).2 = [0] := by
    rw [startPass_visits (by simp [top]), array]
    rfl
  refine ⟨worker, execution, top, array, visits, fun each => ?_⟩
  have second := each 1 (by simp [array])
  rw [visits] at second
  exact absurd second (by decide)

end Mrps.Perl.Work
