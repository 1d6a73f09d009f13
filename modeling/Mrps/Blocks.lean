import Mathlib.Tactic

/-!
# Repeated blocks

The stream that repeats one block.  A position of the stream shows the block's symbol at the
position modulo its length, so a symbol that occurs once in the block marks where blocks end.
-/

namespace Blocks

variable {α : Type*}

/-- `count` copies of a block. -/
def repeated (block : List α) (count : Nat) : List α := (List.replicate count block).flatten

@[simp] theorem repeated_zero (block : List α) : repeated block 0 = [] := rfl

theorem repeated_succ (block : List α) (count : Nat) :
    repeated block (count + 1) = block ++ repeated block count := by
  simp [repeated, List.replicate_succ]

theorem repeated_add (block : List α) (left right : Nat) :
    repeated block (left + right) = repeated block left ++ repeated block right := by
  rw [repeated, List.replicate_add, List.flatten_append]
  rfl

theorem repeated_succ' (block : List α) (count : Nat) :
    repeated block (count + 1) = repeated block count ++ block := by
  rw [repeated_add]
  simp [repeated]

@[simp] theorem length_repeated (block : List α) (count : Nat) :
    (repeated block count).length = count * block.length := by
  induction count with
  | zero => simp
  | succ count ih =>
      rw [repeated_succ, List.length_append, ih]
      ring

theorem getElem?_repeated {block : List α} {count position : Nat}
    (inside : position < count * block.length) :
    (repeated block count)[position]? = block[position % block.length]? := by
  induction count generalizing position with
  | zero => simp at inside
  | succ count ih =>
      rw [repeated_succ]
      by_cases first : position < block.length
      · rw [List.getElem?_append_left first, Nat.mod_eq_of_lt first]
      · have behind : block.length ≤ position := by omega
        have inside' : position - block.length < count * block.length := by
          rw [Nat.succ_mul] at inside
          omega
        rw [List.getElem?_append_right behind, ih inside', Nat.mod_eq_sub_mod behind]

theorem drop_repeated (block : List α) (front back : Nat) :
    (repeated block (front + back)).drop (front * block.length) = repeated block back := by
  rw [repeated_add, ← length_repeated block front, List.drop_left]

theorem take_of_repeated {block front back : List α} {done count : Nat} (nonempty : block ≠ [])
    (stream : front ++ back <+: repeated block count) (whole : front.length = done * block.length)
    (enough : block.length ≤ back.length) : back.take block.length = block ∧ done < count := by
  have positive := List.length_pos_iff_ne_nil.mpr nonempty
  have more : done < count := by
    have bound := stream.length_le
    rw [List.length_append, length_repeated, whole] at bound
    have one_more : (done + 1) * block.length ≤ count * block.length := by
      rw [Nat.succ_mul]
      omega
    exact Nat.le_of_mul_le_mul_right one_more positive
  obtain ⟨later, rfl⟩ := Nat.exists_eq_add_of_lt more
  obtain ⟨rest, split⟩ := stream
  have behind := congrArg (List.drop (done * block.length)) split
  rw [Nat.add_assoc, drop_repeated, ← whole, List.append_assoc, List.drop_left,
    repeated_succ] at behind
  have first := congrArg (List.take block.length) behind
  rw [List.take_append_of_le_length enough, List.take_left] at first
  exact ⟨first, more⟩

/-- A symbol that only the last position of the block shows is shown only where a block ends. -/
theorem position_of_last {block : List α} {last : α} {count position : Nat}
    (only : ∀ index, block[index]? = some last → index + 1 = block.length)
    (found : (repeated block count)[position]? = some last) :
    (position + 1) % block.length = 0 := by
  have inside : position < count * block.length := by
    rw [← length_repeated block count]
    exact (List.getElem?_eq_some_iff.mp found).1
  rw [getElem?_repeated inside] at found
  have end_eq := only _ found
  have whole := Nat.div_add_mod position block.length
  have next_eq : position + 1 = block.length * (position / block.length + 1) := by
    rw [Nat.mul_add, Nat.mul_one]
    omega
  rw [next_eq, Nat.mul_mod_right]

end Blocks
