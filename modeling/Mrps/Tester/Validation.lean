import Mrps.Tester.Queue
import Mrps.Tester.Message

/-!
# What `compare_staff` compares

The number in a message is followed by the terminator `snprintf` writes, and `strncmp` looks no
further than a terminator both strings have.  A reply passes exactly when it agrees with the message
up to that terminator; the blanks and the newline behind it are never looked at.
-/

namespace Mrps.Tester

open Reaction

/-! ## The comparison -/

theorem strncmp_cons_eq_zero_iff (left right : Byte) (lefts rights : List Byte) (size : Nat) :
    strncmp (left :: lefts) (right :: rights) (size + 1) = 0 ↔
      left = right ∧ (left = 0 ∨ strncmp lefts rights size = 0) := by
  rw [strncmp]
  by_cases same : left = right
  · subst right
    rw [if_neg (by simp)]
    by_cases terminator : left = 0
    · simp [terminator]
    · simp [terminator]
  · rw [if_pos same]
    have different : (left.toNat : Int) - right.toNat ≠ 0 := by
      intro zero
      apply same
      apply UInt8.toNat_inj.mp
      omega
    simp [different, same]

/-- Against a string that ends before the size, `strncmp` tells whether the other one begins with
its characters and its terminator. -/
theorem strncmp_eq_zero_iff {text rest other : List Byte} {size : Nat} (string : 0 ∉ text)
    (inside : text.length < size) (enough : text.length < other.length) :
    strncmp (text ++ 0 :: rest) other size = 0 ↔ other.take (text.length + 1) = text ++ [0] := by
  obtain ⟨smaller, rfl⟩ := Nat.exists_eq_add_of_lt inside
  obtain ⟨first, others, rfl⟩ := List.exists_cons_of_length_pos (Nat.zero_lt_of_lt enough)
  induction text generalizing first others with
  | nil =>
      rw [List.nil_append, strncmp_cons_eq_zero_iff]
      simp [eq_comm]
  | cons byte text ih =>
      have nonzero : byte ≠ 0 := fun zero => string (by simp [zero])
      have inner : 0 ∉ text := fun member => string (List.mem_cons_of_mem byte member)
      have remaining : text.length < others.length := by simpa using enough
      obtain ⟨second, others, rfl⟩ :=
        List.exists_cons_of_length_pos (Nat.zero_lt_of_lt remaining)
      have later := ih inner (by omega) second others remaining
      have sizes : (byte :: text).length + smaller + 1 = text.length + smaller + 1 + 1 := by
        simp
        omega
      rw [List.cons_append, sizes, strncmp_cons_eq_zero_iff, later]
      simp [nonzero, eq_comm]

theorem zero_not_mem_decimal (value : Nat) : 0 ∉ decimal value := by
  intro member
  have digit := decimal_digits member
  simp at digit

/-- The blanks and the newline behind the terminator of a message. -/
def padding (random : Nat) : List Byte := List.replicate (30 - (decimal random).length) 32 ++ [10]

theorem message_eq (random : Nat) : message random = decimal random ++ 0 :: padding random := by
  simp [message, padding]

/-- The number of bytes up to and including the terminator of a message. -/
def compared (random : Nat) : Nat := (decimal random).length + 1

theorem message_take_compared (random : Nat) :
    (message random).take (compared random) = decimal random ++ [0] := by
  rw [message_eq, compared, List.take_length_add_append]
  simp

/-! ## The callback -/

namespace ConnectionHandler

/-- A finished read put `reply` into the `read_buf` that `read_staff` had cleared. -/
def answered (handler : ConnectionHandler) (reply : List Byte) : ConnectionHandler :=
  { handler with readBuf := Region.overwrite (memset handler.readBuf 0 33) 0 reply }

/-- `compare_staff`, told of no error and of 32 bytes, accepts the reply: it goes on to the timer of
the oldest request, whether there is one or not. -/
def Accepted (handler : ConnectionHandler) (now : Time) : Prop :=
  match compareStaff false 32 now handler with
  | .ok reaction => reaction.handler.popped ≠ handler.popped
  | .error fault => fault = .emptyQueue

theorem accepted_iff {handler : ConnectionHandler} (running : handler.errored = false)
    (now : Time) :
    handler.Accepted now ↔ strncmp handler.sendBuf handler.readBuf 32 = 0 := by
  have compared := @compareStaff_compared handler false 32 now
  rw [Accepted]
  generalize compareStaff false 32 now handler = result at compared
  cases compared with
  | errored errored => simp [running] at errored
  | mismatch _ rejects =>
      have different : strncmp handler.sendBuf handler.readBuf 32 ≠ 0 :=
        fun same => rejects ⟨running, rfl, rfl, same⟩
      simp [failed, different]
  | empty accepts _ => simp [accepts.2.2.2]
  | late accepts _ _ => simp [failed, replied, accepts.2.2.2]
  | sampled accepts _ _ => simp [Tester.sampled, replied, accepts.2.2.2]

/-- The 32 bytes of `send_buf` a reply is meant to repeat. -/
def sent (handler : ConnectionHandler) : List Byte := handler.sendBuf.take 32

variable {handler : ConnectionHandler} {random : Nat} {reply : List Byte}

theorem joined_sendBuf (bound : random ≤ RAND_MAX) (written : handler.sendBuf.length = 33) :
    (handler.joined random).sendBuf = message random ++ [0] := request_eq written bound

theorem sent_joined (bound : random ≤ RAND_MAX) (written : handler.sendBuf.length = 33) :
    (handler.joined random).sent = message random := by
  rw [sent, joined_sendBuf bound written, ← length_message bound]
  simp

theorem answered_readBuf (whole : reply.length = 32) :
    ((handler.joined random).answered reply).readBuf.take 32 = reply := by
  simp [answered, Region.overwrite, ← whole]

/-- A reply passes exactly when it begins with the number and its terminator. -/
theorem accepted_iff_take (bound : random ≤ RAND_MAX) (running : handler.errored = false)
    (written : handler.sendBuf.length = 33) (whole : reply.length = 32) (now : Time) :
    ((handler.joined random).answered reply).Accepted now ↔
      reply.take (compared random) = (handler.joined random).sent.take (compared random) := by
  have short := length_decimal_le bound
  have sent_eq : ((handler.joined random).answered reply).sendBuf =
      decimal random ++ 0 :: (padding random ++ [0]) := by
    change (handler.joined random).sendBuf = _
    rw [joined_sendBuf bound written, message_eq]
    simp
  have read_eq : strncmp ((handler.joined random).answered reply).sendBuf
      ((handler.joined random).answered reply).readBuf 32 =
        strncmp (decimal random ++ 0 :: (padding random ++ [0])) reply 32 := by
    rw [← strncmp_take, answered_readBuf whole, sent_eq]
  have still : ((handler.joined random).answered reply).errored = false := running
  rw [accepted_iff still, read_eq,
    strncmp_eq_zero_iff (zero_not_mem_decimal random) (by omega) (by omega),
    sent_joined bound written, message_take_compared, compared]

/-- The comparison is equality of the 32 bytes exactly for the replies that do not go wrong only
behind the terminator. -/
theorem validation_iff (bound : random ≤ RAND_MAX) (running : handler.errored = false)
    (written : handler.sendBuf.length = 33) (whole : reply.length = 32) (now : Time) :
    (((handler.joined random).answered reply).Accepted now ↔
        reply = (handler.joined random).sent) ↔
      (reply.take (compared random) = (handler.joined random).sent.take (compared random) →
        reply.drop (compared random) = (handler.joined random).sent.drop (compared random)) := by
  rw [accepted_iff_take bound running written whole now]
  constructor
  · intro equality same
    rw [equality.mp same]
  · intro rest
    constructor
    · intro same
      have halves := congrArg₂ (· ++ ·) same (rest same)
      simpa using halves
    · intro equal
      rw [equal]

end ConnectionHandler

/-- A handler whose request is on its way. -/
def requesting : ConnectionHandler :=
  { serviceId := 0
    sendBuf := List.replicate 33 0
    readBuf := List.replicate 33 0
    connectTimer := 0
    errored := false
    tqueue := [0]
    pushed := [0]
    popped := []
    samples := [] }

/-- The number with its terminator, and anything behind it. -/
def corrupted : List Byte := [48, 0] ++ List.replicate 30 120

theorem decimal_zero : decimal 0 = [48] := by simp [decimal]

/-- The condition holds of the message itself. -/
theorem validation_iff_echoed :
    (((requesting.joined 0).answered (message 0)).Accepted 5 ↔
        message 0 = (requesting.joined 0).sent) ↔
      ((message 0).take (compared 0) = (requesting.joined 0).sent.take (compared 0) →
        (message 0).drop (compared 0) = (requesting.joined 0).sent.drop (compared 0)) :=
  ConnectionHandler.validation_iff (by simp [RAND_MAX]) (by simp [requesting])
    (by simp [requesting]) (length_message (by simp [RAND_MAX])) 5

/-- A reply without the blanks and without the newline is accepted. -/
theorem corrupted_reply_accepted :
    corrupted.length = 32 ∧ ((requesting.joined 0).answered corrupted).Accepted 5 ∧
      corrupted ≠ (requesting.joined 0).sent := by
  have bound : 0 ≤ RAND_MAX := Nat.zero_le _
  have size : requesting.sendBuf.length = 33 := by simp [requesting]
  have whole : corrupted.length = 32 := by simp [corrupted]
  have sent_eq := ConnectionHandler.sent_joined bound size
  refine ⟨whole, ?_, ?_⟩
  · apply (ConnectionHandler.accepted_iff_take bound rfl size whole 5).mpr
    rw [sent_eq, message_eq, compared, decimal_zero]
    simp [corrupted]
  · rw [sent_eq, message_eq, padding, decimal_zero]
    decide

end Mrps.Tester
