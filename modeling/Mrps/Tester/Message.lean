import Mrps.Tester.Handler

/-!
# The message of a handler

What `memset`, `snprintf` and the two stores of `connect` leave in `send_buf`: the digits, a
terminator, blanks up to a newline at index 31, and a terminator behind it.
-/

namespace Mrps.Tester

theorem digit_byte {digit : Nat} (lt : digit < 10) :
    48 ≤ (UInt8.ofNat (48 + digit)).toNat ∧ (UInt8.ofNat (48 + digit)).toNat < 58 := by
  rw [UInt8.toNat_ofNat', Nat.mod_eq_of_lt (by omega)]
  omega

theorem decimal_digits {value : Nat} {byte : Byte} (member : byte ∈ decimal value) :
    48 ≤ byte.toNat ∧ byte.toNat < 58 := by
  rw [decimal] at member
  split at member
  · obtain rfl := List.mem_singleton.mp member
    decide
  · obtain ⟨digit, digit_member, rfl⟩ := List.mem_map.mp member
    exact digit_byte (Nat.digits_lt_base (by omega) (List.mem_reverse.mp digit_member))

theorem length_decimal_le {value : Nat} (bound : value ≤ RAND_MAX) :
    (decimal value).length ≤ 10 := by
  rw [decimal]
  split
  · simp
  · rw [List.length_map, List.length_reverse]
    rw [RAND_MAX] at bound
    exact Nat.digits_length_le_iff (by omega) value |>.mpr (by omega)

/-- The 32 bytes of a request. -/
def message (random : Nat) : List Byte :=
  decimal random ++ 0 :: List.replicate (30 - (decimal random).length) 32 ++ [10]

theorem length_message {random : Nat} (bound : random ≤ RAND_MAX) :
    (message random).length = 32 := by
  have short := length_decimal_le bound
  simp [message]
  omega

/-- Whatever `send_buf` held, `connect` leaves the message and a terminator in it. -/
theorem request_eq {memory : List Byte} {random : Nat} (size : memory.length = 33)
    (bound : random ≤ RAND_MAX) : request memory random = message random ++ [0] := by
  have short := length_decimal_le bound
  obtain ⟨last, last_eq⟩ : ∃ last, memory.drop 32 = [last] :=
    List.length_eq_one_iff.mp (by simp [size])
  have blanks : memset memory 32 32 = List.replicate ((decimal random).length + 1) 32 ++
      (List.replicate (30 - (decimal random).length) 32 ++ [32, last]) := by
    have split : 32 = (decimal random).length + 1 + (30 - (decimal random).length) + 1 := by omega
    have filled : memset memory 32 32 = List.replicate 32 32 ++ [last] := by
      simp [memset, Region.overwrite, last_eq]
    rw [filled, split, List.replicate_succ', List.replicate_add, List.append_assoc,
      List.append_assoc]
    rfl
  have digits : (decimal random).take 31 = decimal random :=
    List.take_of_length_le (by omega)
  have printed : snprintf (memset memory 32 32) 32 (decimal random) =
      (decimal random ++ 0 :: List.replicate (30 - (decimal random).length) 32) ++
        [32, last] := by
    simp [snprintf, blanks, digits, Region.overwrite]
  have front : 31 =
      (decimal random ++ 0 :: List.replicate (30 - (decimal random).length) 32).length := by
    simp
    omega
  have stored := Region.overwrite_append (message random) [last] [0] (length_message bound).symm
  rw [request, printed, Region.overwrite_append _ _ _ front]
  change Region.overwrite (message random ++ [last]) 32 [0] = message random ++ [0]
  simpa using stored

/-- The newline ends the message and occurs nowhere else in it. -/
theorem message_newline {random : Nat} {index : Nat} (bound : random ≤ RAND_MAX)
    (found : (message random)[index]? = some 10) : index + 1 = (message random).length := by
  have short := length_decimal_le bound
  have size := length_message bound
  have inside := (List.getElem?_eq_some_iff.mp found).1
  by_contra early
  have before : index < (decimal random ++ 0 :: List.replicate (30 - (decimal random).length)
      32).length := by
    simp
    omega
  rw [message, List.getElem?_append_left before] at found
  have member := List.mem_of_getElem? found
  rcases List.mem_append.mp member with digit | rest
  · have newline := decimal_digits digit
    simp at newline
  · rcases List.mem_cons.mp rest with zero | blank
    · simp at zero
    · have newline := List.eq_of_mem_replicate blank
      simp at newline

theorem strncmp_self (text : List Byte) (size : Nat) : strncmp text text size = 0 := by
  induction size generalizing text with
  | zero => simp [strncmp]
  | succ size ih =>
      cases text with
      | nil => simp [strncmp]
      | cons byte text => simp [strncmp, ih]

end Mrps.Tester
