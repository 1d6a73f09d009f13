import Mrps.Blocks
import Mrps.Tester.Phase
import Mrps.Tester.Queue

/-!
# What a handler sends and takes

While every write goes out whole, a handler's connection carries its message once for each timer
that was pushed.  While it is not errored it has taken 32 bytes for each timer that was popped.
-/

namespace Mrps.Tester

open Blocks

/-- The block a handler writes. -/
def ConnectionHandler.block (handler : ConnectionHandler) : List Byte := handler.sendBuf.take 32

/-- The bytes of all messages written so far, on the connection or on their way to it. -/
def Activity.offered (activity : Activity) : List Byte :=
  activity.placed ++ activity.issued.flatten ++ (messagesOf activity.todo).flatten

/-- A write, if the event serves one, goes out whole. -/
def Contiguous : ActivityEvent → Prop
  | .serve count => count = 32
  | .serveFails => False
  | _ => True

instance : ∀ event, Decidable (Contiguous event)
  | .serve count => inferInstanceAs (Decidable (count = 32))
  | .serveFails => isFalse id
  | .perform | .bear | .connect .. | .exchange _ | .resume | .stub | .arrive _ | .read _
  | .readFails .. => isTrue trivial

/-- Every write offers the message, and there is one for each timer pushed. -/
structure Sends (activity : Activity) : Prop where
  resuming : activity.resuming = []
  issued : ∀ bytes ∈ activity.issued, bytes = activity.handler.block
  offered : activity.offered = repeated activity.handler.block activity.handler.pushed.length

variable {activity after : Activity} {event : ActivityEvent}

theorem block_of_formed {random : Nat} (bound : random ≤ RAND_MAX)
    (formed : activity.handler.sendBuf = message random ++ [0]) :
    activity.handler.block = message random := by
  rw [ConnectionHandler.block, formed, List.take_append_of_le_length (length_message bound).ge,
    List.take_of_length_le (length_message bound).le]

theorem mem_messagesOf {actions : List Action} {bytes : List Byte} :
    bytes ∈ messagesOf actions ↔ .asyncWrite bytes ∈ actions := by
  simp only [messagesOf, List.mem_filterMap]
  constructor
  · rintro ⟨action, member, found⟩
    cases action <;> simp_all
  · intro member
    exact ⟨_, member, rfl⟩

/-- The writes that a tidy callback adds. -/
theorem Tidy.flatten_messagesOf {before : ConnectionHandler} {reaction : Reaction}
    (tidy : Tidy before reaction) :
    (messagesOf reaction.actions).flatten =
      repeated before.block (messagesOf reaction.actions).length := by
  have same : messagesOf reaction.actions =
      List.replicate (messagesOf reaction.actions).length before.block :=
    List.eq_replicate_iff.mpr ⟨rfl, fun bytes member =>
      tidy.writes bytes (mem_messagesOf.mp member)⟩
  rw [repeated, ← same]

theorem Sends.reacted {current : Activity} (sends : Sends current) (idle : current.todo = [])
    {handler : ConnectionHandler} (sendBuf : handler.sendBuf = current.handler.sendBuf)
    (pushed : handler.pushed = current.handler.pushed) {callback : Except Fault Reaction}
    (tidy : ∀ reaction, callback = .ok reaction → Tidy handler reaction)
    (reacted : current.react callback = .ok after) : Sends after := by
  obtain ⟨reaction, returned, rfl⟩ := react_eq_ok reacted
  have tidy := tidy reaction returned
  have kept : reaction.handler.block = current.handler.block := by
    rw [ConnectionHandler.block, tidy.sendBuf, sendBuf]
    rfl
  have begun : handler.block = current.handler.block := by
    rw [ConnectionHandler.block, sendBuf]
    rfl
  refine ⟨sends.resuming, fun bytes member => (sends.issued bytes member).trans kept.symm, ?_⟩
  have before := sends.offered
  simp only [Activity.offered, idle, messagesOf, List.filterMap_nil, List.flatten_nil,
    List.append_nil] at before
  change current.placed ++ current.issued.flatten ++ (messagesOf reaction.actions).flatten =
    repeated reaction.handler.block reaction.handler.pushed.length
  rw [before, tidy.flatten_messagesOf, begun, ← repeated_add, kept, tidy.sends, pushed]

theorem Sends.started (sends : Sends activity) (joined : Joined activity) {action : Action}
    {todo : List Action} (split : activity.todo = action :: todo) :
    Sends ({ activity with todo }.start action) := by
  have offered := sends.offered
  rw [Activity.offered, split] at offered
  cases action with
  | asyncWrite bytes =>
      have same := joined.writes bytes (split ▸ List.mem_cons_self)
      refine ⟨sends.resuming, ?_, ?_⟩
      · intro other member
        rcases List.mem_append.mp member with old | new
        · exact sends.issued other old
        · exact (List.mem_singleton.mp new).trans same
      · rw [Activity.offered]
        simpa [Activity.start, messagesOf] using offered
  | update _ => exact ⟨sends.resuming, sends.issued, offered⟩
  | waitBear => exact ⟨sends.resuming, sends.issued, offered⟩
  | asyncConnect => exact ⟨sends.resuming, sends.issued, offered⟩
  | waitExch => exact ⟨sends.resuming, sends.issued, offered⟩
  | asyncRead => exact ⟨sends.resuming, sends.issued, offered⟩

theorem Sends.next (sends : Sends activity) (joined : Joined activity)
    (moves : Moves activity event (.ok after)) (contiguous : Contiguous event) : Sends after := by
  generalize result_eq : Except.ok after = result at moves
  cases moves with
  | perform split =>
      obtain rfl := Except.ok.inj result_eq
      exact sends.started joined split
  | bear =>
      obtain rfl := Except.ok.inj result_eq
      exact ⟨sends.resuming, sends.issued, sends.offered⟩
  | connect _ connecting => simp [joined.connecting] at connecting
  | exchange idle =>
      have current : Sends { activity with waiting := false } :=
        ⟨sends.resuming, sends.issued, sends.offered⟩
      exact current.reacted idle rfl rfl (fun _ => sendStaff_tidy) result_eq.symm
  | @servePart count bytes _ split _ part =>
      have whole : count = 32 := contiguous
      have same := sends.issued bytes (split ▸ List.mem_cons_self)
      rw [same, ConnectionHandler.block, List.length_take] at part
      omega
  | @serveAll bytes issued split =>
      obtain rfl := Except.ok.inj result_eq
      refine ⟨sends.resuming, fun other member => sends.issued other ?_, ?_⟩
      · rw [split]
        exact List.mem_cons_of_mem bytes member
      · have offered := sends.offered
        rw [Activity.offered, split] at offered
        rw [Activity.offered]
        simpa using offered
  | serveFails => exact contiguous.elim
  | resume split => simp [sends.resuming] at split
  | @stub e written idle =>
      have current : Sends { activity with written } :=
        ⟨sends.resuming, sends.issued, sends.offered⟩
      refine current.reacted idle rfl rfl ?_ result_eq.symm
      rintro reaction ⟨⟩
      exact stub_tidy e
  | arrive =>
      obtain rfl := Except.ok.inj result_eq
      exact ⟨sends.resuming, sends.issued, sends.offered⟩
  | read idle =>
      have current : Sends (activity.receive 32) := ⟨sends.resuming, sends.issued, sends.offered⟩
      exact current.reacted idle rfl rfl (fun _ => compareStaff_tidy) result_eq.symm
  | @readFails transferred _ idle =>
      have current : Sends (activity.receive transferred) :=
        ⟨sends.resuming, sends.issued, sends.offered⟩
      exact current.reacted idle rfl rfl (fun _ => compareStaff_tidy) result_eq.symm

/-- A handler has sent nothing before `connect` and whole messages after it. -/
def Sending (activity : Activity) : Prop :=
  Fresh activity ∧ activity.handler.pushed = [] ∨ Joined activity ∧ Sends activity

theorem constructed_sending (serviceId : Nat) (send read : Vector Byte 33) (now : Time) :
    Sending (.constructed serviceId send read now) := by
  refine Or.inl ⟨constructed_fresh serviceId send read now, ?_⟩
  rw [Activity.constructed, ConnectionHandler.construct]
  split <;> rfl

/-- `connect` writes the first message if it pushes the first timer. -/
theorem Fresh.sends (fresh : Fresh activity) (nothing : activity.handler.pushed = [])
    {e : Bool} {connected now : Time} {random : Nat} {reaction : Reaction}
    (returned : connect e connected now random activity.handler = .ok reaction) :
    Sends { activity with
      handler := reaction.handler
      todo := reaction.actions
      connecting := false } := by
  have ways : Connected activity.handler connected now random _ :=
    connect_connected e connected now random
  rw [returned] at ways
  refine ⟨fresh.resuming, by simp [fresh.issued], ?_⟩
  rw [Activity.offered]
  cases ways with
  | failed => simp [fresh.placed, fresh.issued, failed, arrived, messagesOf, nothing]
  | joined =>
      simp [fresh.placed, fresh.issued, requested, welcomed, arrived, messagesOf,
        ConnectionHandler.joined, nothing, repeated_succ, ConnectionHandler.block]
  | idle errored => simp [fresh.running] at errored

theorem Sending.next (sending : Sending activity) (moves : Moves activity event (.ok after))
    (contiguous : Contiguous event) : Sending after := by
  rcases sending with ⟨fresh, nothing⟩ | ⟨joined, sends⟩
  · cases fresh.opening moves with
    | perform split => exact Or.inl ⟨fresh.started split, by simpa using nothing⟩
    | bear => exact Or.inl ⟨fresh.bear, nothing⟩
    | arrive => exact Or.inl ⟨fresh.arrive _, nothing⟩
    | connect _ _ bound returned =>
        exact Or.inr ⟨fresh.joined bound returned, fresh.sends nothing returned⟩
  · exact Or.inr ⟨joined.next moves, sends.next joined moves contiguous⟩

theorem Sending.offered (sending : Sending activity) :
    activity.offered = repeated activity.handler.block activity.handler.pushed.length := by
  rcases sending with ⟨fresh, nothing⟩ | ⟨-, sends⟩
  · have silent : messagesOf activity.todo = [] := by
      rw [List.eq_nil_iff_forall_not_mem]
      intro bytes member
      have late := fresh.todo.subset (mem_messagesOf.mp member)
      simp [constructing] at late
    simp [Activity.offered, fresh.placed, fresh.issued, silent, nothing]
  · exact sends.offered

/-! ## The streams of the connection -/

/-- Only arriving bytes come from outside: a step adds to what is placed and moves what has come
in. -/
theorem Moves.flow (moves : Moves activity event (.ok after))
    (inside : ∀ bytes, event ≠ .arrive bytes) :
    activity.placed <+: after.placed ∧
      after.consumed ++ after.inbox = activity.consumed ++ activity.inbox := by
  have reacted : ∀ {current : Activity} {callback : Except Fault Reaction},
      .ok after = current.react callback →
        after.placed = current.placed ∧
          after.consumed ++ after.inbox = current.consumed ++ current.inbox := by
    intro current callback result_eq
    obtain ⟨reaction, -, rfl⟩ := react_eq_ok result_eq.symm
    exact ⟨rfl, rfl⟩
  have received : ∀ count, (activity.receive count).consumed ++ (activity.receive count).inbox =
      activity.consumed ++ activity.inbox := by
    intro count
    change activity.consumed ++ activity.inbox.take count ++ activity.inbox.drop count = _
    rw [List.append_assoc, List.take_append_drop]
  generalize result_eq : Except.ok after = result at moves
  cases moves with
  | @perform action =>
      obtain rfl := Except.ok.inj result_eq
      cases action <;> exact ⟨List.prefix_rfl, rfl⟩
  | connect | exchange | stub =>
      obtain ⟨placed, taken⟩ := reacted result_eq
      exact ⟨by rw [placed], taken⟩
  | read =>
      obtain ⟨placed, taken⟩ := reacted result_eq
      exact ⟨placed ▸ List.prefix_rfl, taken.trans (received 32)⟩
  | @readFails transferred =>
      obtain ⟨placed, taken⟩ := reacted result_eq
      exact ⟨placed ▸ List.prefix_rfl, taken.trans (received transferred)⟩
  | servePart | serveAll =>
      obtain rfl := Except.ok.inj result_eq
      exact ⟨List.prefix_append _ _, rfl⟩
  | bear | serveFails | resume =>
      obtain rfl := Except.ok.inj result_eq
      exact ⟨List.prefix_rfl, rfl⟩
  | @arrive bytes => exact (inside bytes rfl).elim

/-! ## Replies -/

/-- A handler that is not errored has taken 32 bytes for each reply it accepted. -/
def Replied (activity : Activity) : Prop :=
  activity.handler.errored = false →
    activity.consumed.length = activity.handler.popped.length * 32

theorem constructed_replied (serviceId : Nat) (send read : Vector Byte 33) (now : Time) :
    Replied (.constructed serviceId send read now) := by
  intro
  rw [Activity.constructed, ConnectionHandler.construct]
  split <;> rfl

/-- A callback that takes nothing off the connection. -/
theorem Replied.reacted {current : Activity} {callback : Except Fault Reaction}
    (replied : Replied current)
    (keeps : ∀ reaction, callback = .ok reaction → reaction.handler.errored = false →
      current.handler.errored = false ∧ reaction.handler.popped = current.handler.popped)
    (reacted : current.react callback = .ok after) : Replied after := by
  obtain ⟨reaction, returned, rfl⟩ := react_eq_ok reacted
  intro running
  obtain ⟨before, popped⟩ := keeps reaction returned running
  exact (replied before).trans (by rw [popped])

theorem connect_popped {handler : ConnectionHandler} {e : Bool} {connected now : Time}
    {random : Nat} {reaction : Reaction}
    (returned : connect e connected now random handler = .ok reaction)
    (running : reaction.handler.errored = false) :
    handler.errored = false ∧ reaction.handler.popped = handler.popped := by
  have ways : Connected handler connected now random _ := connect_connected e connected now random
  rw [returned] at ways
  cases ways with
  | failed => simp [failed] at running
  | joined before => exact ⟨before, rfl⟩
  | idle => exact ⟨running, rfl⟩

theorem sendStaff_popped {handler : ConnectionHandler} {now : Time} {reaction : Reaction}
    (returned : sendStaff false now (.of handler) = .ok reaction)
    (running : reaction.handler.errored = false) :
    handler.errored = false ∧ reaction.handler.popped = handler.popped := by
  rcases sendStaff_cases returned with ⟨errored, rfl⟩ | ⟨before, rfl⟩
  · simp [Reaction.of, errored] at running
  · exact ⟨before, rfl⟩

theorem stub_popped {handler : ConnectionHandler} {e : Bool}
    (running : (stub e handler).handler.errored = false) :
    handler.errored = false ∧ (stub e handler).handler.popped = handler.popped := by
  rcases stub_cases e with stubbed | ⟨-, stubbed⟩
  · rw [stubbed] at running ⊢
    exact ⟨running, rfl⟩
  · simp [stubbed, failed] at running

/-- A handler that goes on after `compare_staff` has accepted one reply. -/
theorem compareStaff_popped {handler : ConnectionHandler} {e : Bool} {transferred : Nat}
    {now : Time} {reaction : Reaction}
    (returned : compareStaff e transferred now handler = .ok reaction)
    (running : reaction.handler.errored = false) :
    handler.errored = false ∧ e = false ∧
      reaction.handler.popped.length = handler.popped.length + 1 := by
  have ways : Compared handler e transferred now _ := compareStaff_compared e transferred now
  rw [returned] at ways
  cases ways with
  | errored errored => simp [Reaction.of, errored] at running
  | mismatch => simp [failed] at running
  | late => simp [failed] at running
  | sampled accepts =>
      exact ⟨accepts.1, accepts.2.1, by simp [sampled, ConnectionHandler.replied]⟩

theorem Replied.next (replied : Replied activity) (moves : Moves activity event (.ok after)) :
    Replied after := by
  generalize result_eq : Except.ok after = result at moves
  cases moves with
  | perform =>
      obtain rfl := Except.ok.inj result_eq
      simpa [Replied] using replied
  | connect =>
      have current : Replied { activity with connecting := false } := replied
      exact current.reacted (fun _ => connect_popped) result_eq.symm
  | exchange =>
      have current : Replied { activity with waiting := false } := replied
      exact current.reacted (fun _ => sendStaff_popped) result_eq.symm
  | @stub e written =>
      have current : Replied { activity with written } := replied
      refine current.reacted ?_ result_eq.symm
      rintro reaction ⟨⟩
      exact stub_popped
  | read _ _ enough =>
      obtain ⟨reaction, returned, rfl⟩ := react_eq_ok result_eq.symm
      intro running
      obtain ⟨before, -, popped⟩ := compareStaff_popped returned running
      have taken := replied before
      change (activity.consumed ++ activity.inbox.take 32).length =
        reaction.handler.popped.length * 32
      rw [List.length_append, List.length_take, Nat.min_eq_left enough, taken, popped,
        Nat.succ_mul]
      rfl
  | readFails =>
      obtain ⟨reaction, returned, rfl⟩ := react_eq_ok result_eq.symm
      intro running
      obtain ⟨-, impossible, -⟩ := compareStaff_popped returned running
      simp at impossible
  | bear | servePart | serveAll | serveFails | resume | arrive =>
      obtain rfl := Except.ok.inj result_eq
      exact replied

/-- If what has come back is a front part of what was sent, the next 32 bytes are the message, and a
request waits for them. -/
theorem Sending.reply (sending : Sending activity) (replied : Replied activity)
    (running : activity.handler.errored = false)
    (echoed : activity.consumed ++ activity.inbox <+: activity.placed)
    (enough : 32 ≤ activity.inbox.length) :
    activity.inbox.take 32 = activity.handler.block ∧
      activity.handler.popped.length < activity.handler.pushed.length := by
  rcases sending with ⟨fresh, -⟩ | ⟨joined, sends⟩
  · rw [fresh.placed, List.prefix_nil, List.append_eq_nil_iff] at echoed
    simp [echoed.2] at enough
  · obtain ⟨random, bound, formed⟩ := joined.formed.resolve_right fun silent => by
      simp [running] at silent
    have size : activity.handler.block.length = 32 := by
      rw [block_of_formed bound formed, length_message bound]
    have stream : activity.consumed ++ activity.inbox <+:
        repeated activity.handler.block activity.handler.pushed.length := by
      rw [← sends.offered, Activity.offered, List.append_assoc]
      exact echoed.trans (List.prefix_append _ _)
    have nonempty : activity.handler.block ≠ [] := by
      rw [← List.length_pos_iff_ne_nil, size]
      decide
    have reply := take_of_repeated nonempty stream (by rw [size]; exact replied running)
      (by rw [size]; exact enough)
    rwa [size] at reply

end Mrps.Tester
