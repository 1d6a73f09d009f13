import Mrps.Tester.Handler

/-!
# What each callback does

The ways through each callback, with the handler it leaves and the actions it asks for.
-/

namespace Mrps.Tester

open Reaction

variable {handler : ConnectionHandler} {result : Reaction}

/-- The end of a callback that counts an error. -/
def failed (handler : ConnectionHandler) (front : List Action) (counter : Counter) : Reaction :=
  { handler := { handler with errored := true }
    actions := front ++ [.update (.fetchAndAdd counter 1)] }

/-- A request: its timer is pushed and its message written. -/
def requested (handler : ConnectionHandler) (front : List Action) (now : Time) : Reaction :=
  { handler :=
      { handler with tqueue := handler.tqueue ++ [now], pushed := handler.pushed ++ [now] }
    actions := front ++ [.waitExch, .asyncWrite (handler.sendBuf.take 32)] }

/-- The updates at the start of `connect`. -/
def arrived : List Action :=
  [.update (.fetchAndAdd .children 1), .update (.fetchAndSub .connectionActive 1)]

/-- The handler that is connected, before its first request. -/
def ConnectionHandler.joined (handler : ConnectionHandler) (random : Nat) : ConnectionHandler :=
  { handler with
    sendBuf := request handler.sendBuf random
    readBuf := memset handler.readBuf 0 33 }

theorem sendStaff_running (now : Time) (running : handler.errored = false) :
    sendStaff false now (.of handler) = .ok (requested handler [] now) := by
  simp [sendStaff, running, of, act, push, requested]

theorem sendStaff_errored (now : Time) (errored : handler.errored = true) :
    sendStaff false now (.of handler) = .ok (of handler) := by
  simp [sendStaff, errored, of]

theorem sendStaff_cases {now : Time} (returned : sendStaff false now (.of handler) = .ok result) :
    handler.errored = true ∧ result = of handler ∨
      handler.errored = false ∧ result = requested handler [] now := by
  cases errored : handler.errored with
  | true =>
      rw [sendStaff_errored now errored] at returned
      exact Or.inl ⟨rfl, (Except.ok.inj returned).symm⟩
  | false =>
      rw [sendStaff_running now errored] at returned
      exact Or.inr ⟨rfl, (Except.ok.inj returned).symm⟩

theorem stub_cases (e : Bool) : stub e handler = of handler ∨
    handler.errored = false ∧ stub e handler = failed handler [] .exchangeErrors := by
  rw [stub]
  cases errored : handler.errored with
  | true => exact Or.inl rfl
  | false =>
      cases e with
      | true => exact Or.inr ⟨rfl, rfl⟩
      | false => exact Or.inl rfl

/-- The updates of `connect` once the connection is there in time. -/
def welcomed (spent_mcs : Nat) : List Action :=
  arrived ++ [.update (.fetchAndAdd .connectionSummMcs spent_mcs)]

/-- The ways through `connect`. -/
inductive Connected (handler : ConnectionHandler) (connected now : Time) (random : Nat) :
    Except Fault Reaction → Prop
  | failed :
      Connected handler connected now random (.ok (failed handler arrived .connectionErrors))
  | joined : handler.errored = false →
      handler.connectTimer.current connected ≤ client_timeout_mcs →
      Connected handler connected now random
        (.ok (requested (handler.joined random)
          (welcomed (handler.connectTimer.current connected) ++ [.asyncRead]) now))
  /-- Only a handler that was errored before, which no run produces. -/
  | idle : handler.errored = true →
      Connected handler connected now random
        (.ok
          { handler := { handler with sendBuf := request handler.sendBuf random }
            actions := welcomed (handler.connectTimer.current connected) })

theorem connect_connected (e : Bool) (connected now : Time) (random : Nat) :
    Connected handler connected now random (connect e connected now random handler) := by
  rw [connect]
  split
  · exact .failed
  · split
    · exact .failed
    · rename_i in_time
      cases errored : handler.errored with
      | true =>
          have idle : Connected handler connected now random _ := .idle errored
          simpa [sendStaff, readStaff, errored, of, act, add, sub, push, welcomed, arrived]
            using idle
      | false =>
          have joined : Connected handler connected now random _ := .joined errored (by omega)
          simpa [sendStaff, readStaff, errored, of, act, add, sub, push, requested, welcomed,
            arrived, ConnectionHandler.joined] using joined

/-- The handler after a reply to the request whose timer was `timer`. -/
def ConnectionHandler.replied (handler : ConnectionHandler) (timer : Timer) (tqueue : List Timer) :
    ConnectionHandler :=
  { handler with tqueue, popped := handler.popped ++ [timer] }

/-- A reply in time: its latency is counted and the next read started. -/
def sampled (handler : ConnectionHandler) (timer : Timer) (now : Time) : Reaction :=
  { handler :=
      { handler with
        samples := handler.samples ++ [(timer, now)]
        readBuf := memset handler.readBuf 0 33 }
    actions :=
      [.update (.fetchAndAdd .msgs 1),
        .update (.fetchAndAdd .latencySummMcs (timer.current now)), .asyncRead] }

/-- The reply passes the checks of `compare_staff`. -/
def ConnectionHandler.Accepts (handler : ConnectionHandler) (e : Bool) (transferred : Nat) : Prop :=
  handler.errored = false ∧ e = false ∧ transferred = 32 ∧
    strncmp handler.sendBuf handler.readBuf 32 = 0

/-- The ways through `compare_staff`. -/
inductive Compared (handler : ConnectionHandler) (e : Bool) (transferred : Nat) (now : Time) :
    Except Fault Reaction → Prop
  | errored : handler.errored = true → Compared handler e transferred now (.ok (of handler))
  | mismatch : handler.errored = false → ¬ handler.Accepts e transferred →
      Compared handler e transferred now (.ok (failed handler [] .exchangeErrors))
  | empty : handler.Accepts e transferred → handler.tqueue = [] →
      Compared handler e transferred now (.error .emptyQueue)
  | late {timer : Timer} {tqueue : List Timer} : handler.Accepts e transferred →
      handler.tqueue = timer :: tqueue → client_timeout_mcs < timer.current now →
      Compared handler e transferred now
        (.ok (failed (handler.replied timer tqueue) [] .exchangeErrors))
  | sampled {timer : Timer} {tqueue : List Timer} : handler.Accepts e transferred →
      handler.tqueue = timer :: tqueue → timer.current now ≤ client_timeout_mcs →
      Compared handler e transferred now (.ok (sampled (handler.replied timer tqueue) timer now))

theorem compareStaff_compared (e : Bool) (transferred : Nat) (now : Time) :
    Compared handler e transferred now (compareStaff e transferred now handler) := by
  rw [compareStaff]
  cases errored : handler.errored with
  | true => exact .errored errored
  | false =>
      rw [if_neg (by simp)]
      by_cases mismatch : e = true ∨ transferred ≠ 32 ∨
          strncmp handler.sendBuf handler.readBuf 32 ≠ 0
      · rw [if_pos mismatch]
        refine .mismatch errored ?_
        rintro ⟨-, accepted, whole, same⟩
        simp [accepted, whole, same] at mismatch
      · rw [if_neg mismatch]
        simp only [not_or, not_not, Bool.not_eq_true] at mismatch
        have accepts : handler.Accepts e transferred := ⟨errored, mismatch⟩
        split
        · rename_i empty
          exact .empty accepts empty
        · rename_i timer tqueue queue
          dsimp only
          split
          · rename_i late
            exact .late accepts queue late
          · rename_i in_time
            have compared : Compared handler e transferred now
                (.ok (sampled (handler.replied timer tqueue) timer now)) :=
              .sampled accepts queue (by omega)
            simpa [readStaff, mismatch, errored, of, add, act, Tester.sampled,
              ConnectionHandler.replied] using compared

end Mrps.Tester
