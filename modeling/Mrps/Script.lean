import Mrps.EventSystem
import Mrps.Runtime

/-!
# What a peer sends

A script is the rest of what a peer will send: bytes, and perhaps an end of stream or an error
behind them.  The kernel may cut the bytes into any pieces and may report at any time that nothing
is there yet.  Two readers of one script that give back what they read end alike, however
differently the script was cut for them.
-/

namespace Mrps

open EventSystem

/-- How a stream ends. -/
inductive Ending where
  | eof
  | error (code : Nat)
  deriving DecidableEq, Repr

/-- What a peer has still to send. -/
structure Script where
  bytes : List Byte
  ending : Option Ending
  deriving DecidableEq, Repr

namespace Script

/-- The script after `recv` gave the answer, if it may give it: some of the next bytes, the ending
once no byte is left, or that it would block. -/
def serve (script : Script) : RecvAnswer → Option Script
  | .ok [] =>
      if script.bytes = [] ∧ script.ending = some .eof then some { script with ending := none }
      else none
  | .ok bytes =>
      if bytes <+: script.bytes then
        some { script with bytes := script.bytes.drop bytes.length }
      else
        none
  | .error .eagain => some script
  | .error .eintr => none
  | .error (.other code) =>
      if script.bytes = [] ∧ script.ending = some (.error code) then
        some { script with ending := none }
      else
        none

/-- Everything was read. -/
def Consumed (script : Script) : Prop := script.bytes = [] ∧ script.ending = none

instance (script : Script) : Decidable script.Consumed := inferInstanceAs (Decidable (_ ∧ _))

/-- The answers a script allows. -/
inductive Served (script : Script) : RecvAnswer → Script → Prop
  | bytes {bytes : List Byte} {rest : Script} : bytes ≠ [] →
      bytes ++ rest.bytes = script.bytes → rest.ending = script.ending →
      Served script (.ok bytes) rest
  | blocked : Served script (.error .eagain) script
  | eof : script.bytes = [] → script.ending = some .eof →
      Served script (.ok []) { script with ending := none }
  | error {code : Nat} : script.bytes = [] → script.ending = some (.error code) →
      Served script (.error (.other code)) { script with ending := none }

theorem served_of_serve {script rest : Script} {answer : RecvAnswer}
    (served : script.serve answer = some rest) : script.Served answer rest := by
  rcases answer with (_ | _ | code) | _ | ⟨byte, bytes⟩
  · obtain rfl := Option.some.inj served
    exact .blocked
  · cases served
  · simp only [serve, Option.ite_none_right_eq_some, Option.some.injEq] at served
    obtain ⟨⟨read, ends⟩, rfl⟩ := served
    exact .error read ends
  · simp only [serve, Option.ite_none_right_eq_some, Option.some.injEq] at served
    obtain ⟨⟨read, ends⟩, rfl⟩ := served
    exact .eof read ends
  · simp only [serve, Option.ite_none_right_eq_some, Option.some.injEq] at served
    obtain ⟨⟨later, split⟩, rfl⟩ := served
    refine .bytes (by simp) ?_ rfl
    rw [← split]
    simp

/-- `rest` is what is left of the script after a step whose `recv`, if it called one, returned
`returned`. -/
def Leaves (script : Script) (returned : Option RecvAnswer) (rest : Script) : Prop :=
  match returned with
  | none => rest = script
  | some answer => script.Served answer rest

theorem Leaves.served {script rest : Script} {returned : Option RecvAnswer} {answer : RecvAnswer}
    (leaves : script.Leaves returned rest) (call : returned = some answer) :
    script.Served answer rest := by
  rw [call] at leaves
  exact leaves

end Script

/-! ## Systems that read a script -/

section Plays

variable {σ ε : Type*}

/-- A system whose `recv` calls read a script; `returned` is what the call of an event returned and
`allowed` what else the environment keeps to. -/
def plays (system : EventSystem σ ε) (returned : ε → Option RecvAnswer)
    (allowed : σ → ε → Prop) [∀ state event, Decidable (allowed state event)] :
    EventSystem (σ × Script) ε where
  step state event :=
    if allowed state.1 event then
      match returned event with
      | none => (system.step state.1 event).map fun next => (next, state.2)
      | some answer =>
          (state.2.serve answer).bind fun rest =>
            (system.step state.1 event).map fun next => (next, rest)
    else
      none

variable {system : EventSystem σ ε} {returned : ε → Option RecvAnswer} {allowed : σ → ε → Prop}
  [∀ state event, Decidable (allowed state event)]

theorem plays_step {state next : σ × Script} {event : ε}
    (step : (plays system returned allowed).step state event = some next) :
    allowed state.1 event ∧ system.step state.1 event = some next.1 ∧
      state.2.Leaves (returned event) next.2 := by
  simp only [plays, Option.ite_none_right_eq_some] at step
  obtain ⟨keeps, step⟩ := step
  cases call : returned event with
  | none =>
      simp only [call, Option.map_eq_some_iff] at step
      obtain ⟨after, taken, rfl⟩ := step
      exact ⟨keeps, taken, rfl⟩
  | some answer =>
      simp only [call, Option.bind_eq_some_iff, Option.map_eq_some_iff] at step
      obtain ⟨rest, served, after, taken, rfl⟩ := step
      exact ⟨keeps, taken, Script.served_of_serve served⟩

theorem plays_read {state next : σ} {script rest : Script} {event : ε} {answer : RecvAnswer}
    (keeps : allowed state event) (call : returned event = some answer)
    (served : script.serve answer = some rest) (taken : system.step state event = some next) :
    (plays system returned allowed).step (state, script) event = some (next, rest) := by
  simp [plays, keeps, call, served, taken]

end Plays

/-! ## Readers -/

/-- A reader of the script that has given back everything it read, and lives until it meets the
ending. -/
structure Echoes (script rest : Script) (received sent : List Byte) (live : Prop) : Prop where
  read : received ++ rest.bytes = script.bytes
  echoed : sent = received
  alive : live → rest.ending = script.ending
  dead : ¬ live → script.ending ≠ none ∧ rest.Consumed

namespace Echoes

variable {script rest rest' : Script} {received sent : List Byte} {live : Prop}

theorem start (script : Script) : Echoes script script [] [] True :=
  ⟨rfl, rfl, fun _ => rfl, fun dead => absurd trivial dead⟩

theorem bytes (echoes : Echoes script rest received sent live) (lives : live)
    {bytes : List Byte} (split : bytes ++ rest'.bytes = rest.bytes)
    (ending : rest'.ending = rest.ending) :
    Echoes script rest' (received ++ bytes) (sent ++ bytes) live where
  read := by rw [List.append_assoc, split, echoes.read]
  echoed := by rw [echoes.echoed]
  alive := fun _ => ending.trans (echoes.alive lives)
  dead := fun dies => absurd lives dies

theorem ended (echoes : Echoes script rest received sent live) (lives : live)
    (read : rest.bytes = []) (ends : rest.ending ≠ none) {later : Prop} (dies : ¬ later) :
    Echoes script { rest with ending := none } received sent later where
  read := echoes.read
  echoed := echoes.echoed
  alive := fun lives => absurd lives dies
  dead := fun _ => ⟨by rwa [← echoes.alive lives], read, rfl⟩

/-- Two readers of one script that have read all of it gave back the same and both live or both do
not. -/
theorem agree {received' sent' : List Byte} {live' : Prop}
    (echoes : Echoes script rest received sent live)
    (echoes' : Echoes script rest' received' sent' live') (consumed : rest.Consumed)
    (consumed' : rest'.Consumed) : sent = sent' ∧ (live ↔ live') := by
  refine ⟨?_, ?_⟩
  · have whole := echoes.read
    have whole' := echoes'.read
    rw [consumed.1, List.append_nil] at whole
    rw [consumed'.1, List.append_nil] at whole'
    rw [echoes.echoed, echoes'.echoed, whole, whole']
  · have none_of_live : live → script.ending = none :=
      fun lives => (echoes.alive lives).symm.trans consumed.2
    have none_of_live' : live' → script.ending = none :=
      fun lives => (echoes'.alive lives).symm.trans consumed'.2
    constructor
    · intro lives
      by_contra dies
      exact (echoes'.dead dies).1 (none_of_live lives)
    · intro lives
      by_contra dies
      exact (echoes.dead dies).1 (none_of_live' lives)

end Echoes

end Mrps
