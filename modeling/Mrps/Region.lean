import Mathlib.Tactic

/-!
# Regions of a memory

A memory is a list of cells.  A region is named by the position of its first cell and its length.
`slice` reads a region and `overwrite` replaces one, so a block move is the overwriting of a region
by a slice.
-/

namespace Region

variable {α : Type*}

/-- The cells `[start, start + size)`. -/
def slice (memory : List α) (start size : Nat) : List α := (memory.drop start).take size

/-- Replace the cells from `start` on by `cells`. -/
def overwrite (memory : List α) (start : Nat) (cells : List α) : List α :=
  memory.take start ++ cells ++ memory.drop (start + cells.length)

@[simp] theorem slice_zero (memory : List α) (start : Nat) : slice memory start 0 = [] := by
  simp [slice]

@[simp] theorem overwrite_nil (memory : List α) (start : Nat) :
    overwrite memory start [] = memory := by
  simp [overwrite]

theorem overwrite_append (front back cells : List α) {start : Nat}
    (start_eq : start = front.length) :
    overwrite (front ++ back) start cells = front ++ cells ++ back.drop cells.length := by
  subst start_eq
  simp [overwrite, List.drop_append]

theorem length_slice {memory : List α} {start size : Nat} (fits : start + size ≤ memory.length) :
    (slice memory start size).length = size := by
  simp [slice]
  omega

@[simp] theorem length_overwrite {memory cells : List α} {start : Nat}
    (fits : start + cells.length ≤ memory.length) :
    (overwrite memory start cells).length = memory.length := by
  simp [overwrite]
  omega

theorem slice_add (memory : List α) (start left right : Nat) :
    slice memory start (left + right) =
      slice memory start left ++ slice memory (start + left) right := by
  simp only [slice, List.take_add, List.drop_drop]

theorem drop_slice {memory : List α} {start size count : Nat} :
    (slice memory start size).drop count = slice memory (start + count) (size - count) := by
  simp [slice, List.drop_take, List.drop_drop]

theorem slice_overwrite_self {memory cells : List α} {start : Nat}
    (fits : start ≤ memory.length) :
    slice (overwrite memory start cells) start cells.length = cells := by
  simp [slice, overwrite, Nat.min_eq_left fits]

theorem slice_overwrite_before {memory cells : List α} {start size position : Nat}
    (before : start + size ≤ position) (fits : position ≤ memory.length) :
    slice (overwrite memory position cells) start size = slice memory start size := by
  have start_le : start ≤ position := by omega
  simp only [slice, overwrite, List.append_assoc]
  rw [List.drop_append_of_le_length (by simp; omega),
    List.take_append_of_le_length (by simp; omega), List.drop_take, List.take_take,
    Nat.min_eq_left (by omega)]

/-- Writing right behind a region extends it. -/
theorem slice_overwrite_append {memory cells : List α} {start size : Nat}
    (fits : start + size ≤ memory.length) :
    slice (overwrite memory (start + size) cells) start (size + cells.length) =
      slice memory start size ++ cells := by
  rw [slice_add, slice_overwrite_before (le_refl _) fits, slice_overwrite_self fits]

theorem slice_overwrite_zero {memory : List α} {start size : Nat}
    (fits : start + size ≤ memory.length) :
    slice (overwrite memory 0 (slice memory start size)) 0 size = slice memory start size := by
  have copied : slice (overwrite memory 0 (slice memory start size)) 0
      (slice memory start size).length = slice memory start size :=
    slice_overwrite_self (Nat.zero_le _)
  rwa [length_slice fits] at copied

end Region
