import Mrps.EchoPipe
import Mrps.Epoll.EchoTcp

/-!
# The echo stream of one socket

The calls of `processConnection` on one socket of `echo_tcp.cpp`.  The result of `read` is stored in
a `size_t` before it is tested, and the result of `write` is dropped, so the stream is kept only as
long as no `read` fails and no `write` is left with a rest that a later one skips.
-/

namespace Mrps.Epoll

open EventSystem

/-- One call of `processConnection`: the memory from `buffer` on and the outcomes of `read` and
`write`. -/
structure Call where
  stack : List Byte
  read : RecvAnswer
  write : SendAnswer
  deriving DecidableEq, Repr

namespace Call

/-- The bytes `read` delivered. -/
def delivered (call : Call) : List Byte :=
  match call.read with
  | .ok bytes => bytes
  | .error _ => []

/-- What the call does. -/
def effect (call : Call) : Processed := processConnection call.stack call.read call.write

/-- `read` delivers at most the buffer, and `write` takes at most what it is offered, from memory
that exists. -/
def Possible (call : Call) : Prop :=
  call.delivered.length ≤ BUFF_SIZE ∧ BUFF_SIZE ≤ call.stack.length ∧
    ∀ count ∈ call.write.toOption, count ≤ dataSize call.read ∧ count ≤ call.stack.length

instance (call : Call) : Decidable call.Possible := by
  rw [Possible]
  infer_instance

/-- The call with every byte renamed. -/
def rename (f : Byte → Byte) (call : Call) : Call :=
  { stack := call.stack.map f, read := call.read.map (List.map f), write := call.write }

/-- The call with the contents of its buffer forgotten. -/
def blank : Call → Call := rename fun _ => 0

end Call

/-- The history of one socket. -/
structure SocketStream where
  /-- Bytes `read` has delivered. -/
  received : List Byte
  /-- Bytes `write` has accepted. -/
  written : List Byte
  closed : Bool
  deriving DecidableEq, Repr

namespace SocketStream

/-- A socket before its first event. -/
def opened : SocketStream := { received := [], written := [], closed := false }

/-- The worker calls `processConnection` until the socket is closed. -/
def next (stream : SocketStream) (call : Call) : Option SocketStream :=
  if stream.closed = false ∧ call.Possible then
    some
      { received := stream.received ++ call.delivered
        written := stream.written ++ call.effect.written
        closed := call.effect.closed }
  else
    none

/-- The history with every byte renamed. -/
def rename (f : Byte → Byte) (stream : SocketStream) : SocketStream :=
  { stream with received := stream.received.map f, written := stream.written.map f }

/-- The bytes read and not accepted by `write`. -/
def owed (stream : SocketStream) : List Byte := stream.received.drop stream.written.length

end SocketStream

/-- The calls on one socket. -/
def socketCalls : EventSystem SocketStream Call := { step := SocketStream.next }

/-- The length passed to `write` is at most what `read` delivered, the accepted bytes are a prefix
of the bytes read, and the socket is closed when `read` returned 0 or failed for another reason than
having to wait. -/
structure Faithful (_ : SocketStream) (call : Call) (after : SocketStream) : Prop where
  bounded : ∀ length ∈ call.effect.offered, length ≤ call.delivered.length
  prefixed : after.written <+: after.received
  closed : (call.read = .ok [] ∨ ∃ errno, errno ≠ .eagain ∧ call.read = .error errno) →
    after.closed = true

/-- `read` succeeds, and what `write` accepts of the chunk are the bytes owed. -/
def Matches (stream : SocketStream) (call : Call) (_ : SocketStream) : Prop :=
  ∃ bytes, call.read = .ok bytes ∧
    ∀ count, call.write = .ok count → 0 < count → stream.owed ≠ [] →
      bytes.take count <+: stream.owed ++ bytes

/-- `read` succeeds, and `write` accepts bytes only when it accepted all earlier ones. -/
def Prompt (stream : SocketStream) (call : Call) (_ : SocketStream) : Prop :=
  ∃ bytes, call.read = .ok bytes ∧
    ∀ count, call.write = .ok count → 0 < count →
      stream.written.length = stream.received.length

/-! ## Single calls -/

namespace Call

variable {call : Call} {bytes : List Byte}

/-- How many bytes `write` accepts. -/
def accepted (call : Call) : Nat := call.write.toOption.getD 0

theorem accepted_of_ok {count : Nat} (took : call.write = .ok count) : call.accepted = count := by
  simp [accepted, took, Except.toOption]

theorem offered_of_error {errno : Errno} (failed : call.read = .error errno) :
    call.effect.offered = some (2 ^ 64 - 1) := by
  have huge : MachineInt.toUnsigned 64 (-1) = 2 ^ 64 - 1 := by decide
  simp [effect, processConnection, failed, dataSize, huge]

theorem effect_of_ok (possible : call.Possible) (delivered : call.read = .ok bytes) :
    call.effect = { closed := decide (bytes = [])
                    offered := if bytes = [] then none else some bytes.length
                    written := bytes.take call.accepted } := by
  obtain ⟨short, -, takes⟩ := possible
  have short' : bytes.length ≤ BUFF_SIZE := by simpa [Call.delivered, delivered] using short
  have size_eq : dataSize (.ok bytes) = bytes.length :=
    MachineInt.toUnsigned_eq rfl (by rw [BUFF_SIZE] at short'; omega)
  cases bytes with
  | nil => simp [effect, processConnection, delivered, size_eq]
  | cons first rest =>
      have written_eq : call.effect.written = (first :: rest).take call.accepted := by
        cases took : call.write with
        | error errno =>
            simp [effect, processConnection, delivered, size_eq, accepted, took, Except.toOption]
        | ok count =>
            have fits : count ≤ (first :: rest).length := by
              have bound := (takes count (by simp [took, Except.toOption])).1
              rwa [delivered, size_eq] at bound
            rw [accepted_of_ok took]
            simp only [effect, processConnection, delivered, size_eq, took, Region.overwrite,
              List.take_zero, List.nil_append]
            rw [if_neg (by simp)]
            exact List.take_append_of_le_length fits
      have closed_eq : call.effect.closed = false := by
        simp [effect, processConnection, delivered, size_eq]
      have offered_eq : call.effect.offered = some (first :: rest).length := by
        simp [effect, processConnection, delivered, size_eq]
      rw [show call.effect =
          ⟨call.effect.closed, call.effect.offered, call.effect.written⟩ from rfl,
        written_eq, closed_eq, offered_eq]
      simp

end Call

namespace SocketStream

variable {stream after : SocketStream} {call : Call}

theorem next_eq_some_iff : stream.next call = some after ↔
    (stream.closed = false ∧ call.Possible) ∧
      after =
        { received := stream.received ++ call.delivered
          written := stream.written ++ call.effect.written
          closed := call.effect.closed } := by
  rw [next, Option.ite_none_right_eq_some, Option.some.injEq, @eq_comm _ after]

theorem written_prefix_iff {bytes : List Byte} (kept : stream.written <+: stream.received)
    (step : stream.next call = some after) (delivered : call.read = .ok bytes) :
    after.written <+: after.received ↔ Matches stream call after := by
  obtain ⟨⟨-, possible⟩, rfl⟩ := next_eq_some_iff.mp step
  have received_eq : call.delivered = bytes := by simp [Call.delivered, delivered]
  simp only [call.effect_of_ok possible delivered, received_eq]
  rw [EchoPipe.append_prefix_iff kept]
  constructor
  · intro continues
    refine ⟨bytes, delivered, fun count took _ _ => ?_⟩
    rw [Call.accepted_of_ok took] at continues
    exact continues
  · rintro ⟨bytes', delivered', continues⟩
    obtain rfl := Except.ok.inj (delivered.symm.trans delivered')
    cases took : call.write with
    | error errno => simp [Call.accepted, took, Except.toOption]
    | ok count =>
        rw [Call.accepted_of_ok took]
        rcases Nat.eq_zero_or_pos count with rfl | accepted
        · simp
        · by_cases nothing : stream.owed = []
          · change bytes.take count <+: stream.owed ++ bytes
            rw [nothing]
            exact List.take_prefix _ _
          · exact continues count took accepted nothing

theorem faithful_iff_matches (kept : stream.written <+: stream.received)
    (step : stream.next call = some after) :
    Faithful stream call after ↔ Matches stream call after := by
  cases delivered : call.read with
  | error errno =>
      apply iff_of_false
      · intro faithful
        have bound := faithful.bounded _ (Call.offered_of_error delivered)
        simp [Call.delivered, delivered] at bound
      · rintro ⟨bytes, delivered', -⟩
        rw [delivered] at delivered'
        cases delivered'
  | ok bytes =>
      rw [← written_prefix_iff kept step delivered]
      obtain ⟨⟨-, possible⟩, rfl⟩ := next_eq_some_iff.mp step
      constructor
      · exact Faithful.prefixed
      · intro prefixed
        refine ⟨?_, prefixed, ?_⟩
        · rw [call.effect_of_ok possible delivered]
          simp only [Call.delivered, delivered]
          split
          · simp
          · simp
        · rintro (ended | ⟨errno, -, failed⟩)
          · rw [delivered] at ended
            simp [call.effect_of_ok possible delivered, Except.ok.inj ended]
          · rw [delivered] at failed
            cases failed

theorem Matches.prefixed (matched : Matches stream call after)
    (kept : stream.written <+: stream.received) (step : stream.next call = some after) :
    after.written <+: after.received := by
  obtain ⟨bytes, delivered, -⟩ := id matched
  exact (written_prefix_iff kept step delivered).mpr matched

theorem Prompt.matches (prompt : Prompt stream call after) : Matches stream call after := by
  obtain ⟨bytes, delivered, caught_up⟩ := prompt
  refine ⟨bytes, delivered, fun count took accepted owing => absurd ?_ owing⟩
  rw [owed, caught_up count took accepted, List.drop_length]

end SocketStream

/-! ## Other bytes -/

section Renaming

variable (f : Byte → Byte) (call : Call) (stream : SocketStream)

theorem dataSize_rename (read : RecvAnswer) : dataSize (read.map (List.map f)) = dataSize read := by
  cases read with
  | error errno => rfl
  | ok bytes => simp [dataSize, Except.map]

theorem Call.delivered_rename : (call.rename f).delivered = call.delivered.map f := by
  rcases call with ⟨stack, _ | bytes, write⟩
  · rfl
  · rfl

theorem Call.possible_rename : (call.rename f).Possible ↔ call.Possible := by
  have length_eq : (call.rename f).delivered.length = call.delivered.length := by
    rw [delivered_rename, List.length_map]
  rw [Possible, length_eq]
  simp only [rename, List.length_map, dataSize_rename, Possible]

theorem Call.rename_rename (g : Byte → Byte) : (call.rename g).rename f = call.rename (f ∘ g) := by
  rcases call with ⟨stack, _ | bytes, write⟩
  · simp [rename, Except.map]
  · simp [rename, Except.map]

theorem Call.effect_rename :
    (call.rename f).effect = { call.effect with written := call.effect.written.map f } := by
  simp only [effect, rename, processConnection, dataSize_rename]
  split
  · rfl
  · rcases call with ⟨stack, _ | bytes, _ | count⟩ <;>
      simp [Except.map, Region.overwrite, List.map_take]

/-- The worker never looks at a byte. -/
theorem socketCalls_renames :
    socketCalls.Renames (SocketStream.rename f) (Call.rename f) := by
  intro stream call
  change (stream.rename f).next (call.rename f) = (stream.next call).map (SocketStream.rename f)
  simp only [SocketStream.next, call.possible_rename f, SocketStream.rename]
  split
  · simp [call.delivered_rename f, call.effect_rename f, SocketStream.rename]
  · rfl

theorem prompt_rename (after : SocketStream) :
    Prompt (stream.rename f) (call.rename f) (after.rename f) ↔ Prompt stream call after := by
  rcases call with ⟨stack, _ | bytes, write⟩
  · simp [Prompt, Call.rename, Except.map]
  · simp [Prompt, Call.rename, Except.map, SocketStream.rename]

end Renaming

theorem along_prompt_blank (calls : List Call) :
    socketCalls.Along Prompt .opened (calls.map Call.blank) ↔
      socketCalls.Along Prompt .opened calls :=
  (socketCalls_renames fun _ => 0).along
    (fun stream call after => prompt_rename (fun _ => 0) call stream after) .opened calls

/-! ## Runs -/

/-- The written bytes are a prefix of the received ones. -/
def SocketStream.Kept (stream : SocketStream) : Prop := stream.written <+: stream.received

theorem kept_opened : SocketStream.opened.Kept := List.prefix_rfl

theorem along_faithful_iff_matches (calls : List Call) :
    socketCalls.Along Faithful .opened calls ↔ socketCalls.Along Matches .opened calls := by
  apply along_exact _ _ kept_opened
  · intro stream call after kept step
    exact SocketStream.faithful_iff_matches kept step
  · intro stream call after kept step matched
    exact SocketStream.Matches.prefixed matched kept step

theorem along_matches_of_prompt {calls : List Call}
    (prompt : socketCalls.Along Prompt .opened calls) :
    socketCalls.Along Matches .opened calls := by
  apply prompt.yields _ kept_opened
  intro stream call after kept step prompt_here
  have matched := SocketStream.Prompt.matches prompt_here
  exact ⟨matched, SocketStream.Matches.prefixed matched kept step⟩

/-- When bytes have been left behind and a later `write` accepts some, the same calls with zeros up
to that one and ones in its chunk leave a gap. -/
theorem gap_of_behind {front : List Call} (back : List Call) {call : Call}
    {stream after : SocketStream} {bytes : List Byte} {count : Nat}
    (front_run : socketCalls.run .opened front = some stream)
    (step : stream.next call = some after) (delivered : call.read = .ok bytes)
    (took : call.write = .ok count) (accepted : 0 < count)
    (short : stream.written.length < stream.received.length) :
    ¬ socketCalls.Along Faithful .opened
      (front.map (Call.rename fun _ => 0) ++ call.rename (fun _ => 1) :: back) := by
  intro faithful
  obtain ⟨⟨is_open, possible⟩, -⟩ := SocketStream.next_eq_some_iff.mp step
  have painted_run := (socketCalls_renames fun _ => 0).run .opened front
  rw [front_run] at painted_run
  have painted_possible := (call.possible_rename fun _ => 1).mpr possible
  have painted_open : (stream.rename fun _ => 0).closed = false := is_open
  have painted_step : socketCalls.step (stream.rename fun _ => 0) (call.rename fun _ => 1) = _ :=
    SocketStream.next_eq_some_iff.mpr ⟨⟨painted_open, painted_possible⟩, rfl⟩
  have prefixed := (along_iff.mp faithful _ _ back _ _ rfl painted_run painted_step).prefixed
  have fits : count ≤ bytes.length := by
    have bound := (possible.2.2 count (by simp [took, Except.toOption])).1
    have size : bytes.length ≤ BUFF_SIZE := by simpa [Call.delivered, delivered] using possible.1
    have size_eq : dataSize (.ok bytes) = bytes.length :=
      MachineInt.toUnsigned_eq rfl (by rw [BUFF_SIZE] at size; omega)
    rwa [delivered, size_eq] at bound
  obtain ⟨fewer, rfl⟩ := Nat.exists_eq_succ_of_ne_zero accepted.ne'
  obtain ⟨first, rest, rfl⟩ := List.exists_cons_of_length_pos (l := bytes) (by omega)
  simp only [call.effect_rename, call.delivered_rename, call.effect_of_ok possible delivered,
    call.accepted_of_ok took, List.take_succ_cons, List.map_cons, SocketStream.rename] at prefixed
  have head := EchoPipe.head_mem_of_prefix prefixed (by simpa using short)
  obtain ⟨byte, -, impossible⟩ := List.mem_map.mp head
  exact absurd impossible (by decide)

/-- The calls on one socket are faithful exactly when no `read` fails and every accepted part of a
chunk matches the bytes owed.  They are faithful whatever bytes arrive exactly when no `read` fails
and no `write` accepts anything after an earlier one left a rest. -/
theorem echo_faithful_iff (calls : List Call) :
    (socketCalls.Along Faithful .opened calls ↔ socketCalls.Along Matches .opened calls) ∧
      ((∀ other, other.map Call.blank = calls.map Call.blank →
          socketCalls.Along Faithful .opened other) ↔
        socketCalls.Along Prompt .opened calls) := by
  refine ⟨along_faithful_iff_matches calls, ?_, ?_⟩
  · intro faithful
    rw [along_iff]
    rintro front call back stream after split front_run step
    have here := faithful calls rfl
    rw [split] at here
    have kept : stream.Kept := here.front.invariant
      (fun _ _ _ _ _ faithful_step => faithful_step.prefixed) kept_opened front_run
    have faithful_call := along_iff.mp here front call back stream after rfl front_run step
    obtain ⟨bytes, delivered, -⟩ := (SocketStream.faithful_iff_matches kept step).mp faithful_call
    refine ⟨bytes, delivered, fun count took accepted => ?_⟩
    by_contra behind
    have short := lt_of_le_of_ne kept.length_le behind
    apply gap_of_behind back front_run step delivered took accepted short
    apply faithful
    simp [split, Call.blank, Call.rename_rename, Function.comp_def]
  · intro prompt other same
    rw [← along_prompt_blank, ← same, along_prompt_blank] at prompt
    exact (along_faithful_iff_matches other).mpr (along_matches_of_prompt prompt)

/-- `read` fails because the peer has reset the connection. -/
def resetCall : Call :=
  { stack := List.replicate BUFF_SIZE 0, read := .error (.other 104), write := .error (.other 32) }

/-- Two chunks, of each of which `write` accepts one byte. -/
def shortWrites : List Call :=
  [{ stack := List.replicate BUFF_SIZE 0, read := .ok [97, 98], write := .ok 1 },
    { stack := List.replicate BUFF_SIZE 0, read := .ok [99], write := .ok 1 }]

/-- After a failed `read` the socket stays open and `write` is offered the largest length; after a
short `write` the echo has a gap. -/
theorem reset_offered_and_gap :
    (∃ stream, socketCalls.run .opened [resetCall] = some stream ∧ stream.closed = false ∧
        resetCall.effect.offered = some (2 ^ 64 - 1) ∧ resetCall.delivered = []) ∧
      ¬ socketCalls.Along Faithful .opened [resetCall] ∧
      (∃ stream, socketCalls.run .opened shortWrites = some stream ∧
        stream.received = [97, 98, 99] ∧ stream.written = [97, 99]) ∧
      ¬ socketCalls.Along Faithful .opened shortWrites := by
  have offered : resetCall.effect.offered = some (2 ^ 64 - 1) := Call.offered_of_error rfl
  refine ⟨⟨_, rfl, rfl, offered, rfl⟩, ?_, ⟨_, rfl, rfl, rfl⟩, ?_⟩
  · intro along
    have bound := (along _ rfl).1.bounded _ offered
    exact absurd bound (by decide)
  · intro along
    have kept := ((along _ rfl).2 _ rfl).1.prefixed
    exact absurd kept (by decide)

end Mrps.Epoll
