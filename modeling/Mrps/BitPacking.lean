import Mathlib.Tactic

/-!
# Packed bits

A list of bits is cut into words of a fixed width, the highest bit of a word first, and the last
word is filled up with zeros.
-/

namespace BitPacking

/-! ## The bits of a word -/

/-- The lowest `width` bits of a value, the highest of them first. -/
def bits : Nat → Nat → List Bool
  | 0, _ => []
  | width + 1, value => bits width (value / 2) ++ [decide (value % 2 = 1)]

@[simp] theorem length_bits (width value : Nat) : (bits width value).length = width := by
  induction width generalizing value with
  | zero => rfl
  | succ width ih => simp [bits, ih]

theorem bits_push (width value : Nat) (bit : Bool) :
    bits (width + 1) (2 * value + bit.toNat) = bits width value ++ [bit] := by
  have halved : (2 * value + bit.toNat) / 2 = value := by
    have bit_small : bit.toNat ≤ 1 := bit.toNat_le
    omega
  have last : decide ((2 * value + bit.toNat) % 2 = 1) = bit := by cases bit <;> simp
  rw [bits, halved, last]

theorem bits_shift (width value count : Nat) :
    bits (width + count) (value * 2 ^ count) = bits width value ++ List.replicate count false := by
  induction count with
  | zero => simp
  | succ count ih =>
      have shifted : value * 2 ^ (count + 1) = 2 * (value * 2 ^ count) + false.toNat := by
        simp only [Bool.toNat_false, pow_succ]
        ring
      rw [← Nat.add_assoc, shifted, bits_push, ih, List.append_assoc, List.replicate_succ']

theorem bits_injective {width first second : Nat} (first_fits : first < 2 ^ width)
    (second_fits : second < 2 ^ width) (same : bits width first = bits width second) :
    first = second := by
  induction width generalizing first second with
  | zero =>
      rw [pow_zero, Nat.lt_one_iff] at first_fits second_fits
      rw [first_fits, second_fits]
  | succ width ih =>
      rw [pow_succ] at first_fits second_fits
      obtain ⟨upper, lowest⟩ := List.append_inj' same rfl
      have halves := ih (by omega) (by omega) upper
      have lowest_bit : first % 2 = 1 ↔ second % 2 = 1 := by simpa using lowest
      omega

/-! ## Packing -/

/-- Go on with a word of which `filled` bits are there. -/
def packFrom (width filled value : Nat) : List Bool → List Nat
  | [] => if filled = 0 then [] else [value * 2 ^ (width - filled)]
  | bit :: rest =>
      if filled + 1 = width then (2 * value + bit.toNat) :: packFrom width 0 0 rest
      else packFrom width (filled + 1) (2 * value + bit.toNat) rest

/-- Pack bits into words. -/
def pack (width : Nat) (rest : List Bool) : List Nat := packFrom width 0 0 rest

theorem push_lt {filled value : Nat} (fits : value < 2 ^ filled) (bit : Bool) :
    2 * value + bit.toNat < 2 ^ (filled + 1) := by
  have bit_small : bit.toNat ≤ 1 := bit.toNat_le
  rw [pow_succ]
  omega

/-- The words have the bits that went in, with zeros behind them. -/
theorem packFrom_bits {width filled value : Nat} (room : filled < width)
    (fits : value < 2 ^ filled) (rest : List Bool) :
    (∀ word ∈ packFrom width filled value rest, word < 2 ^ width) ∧
      ∃ pad < width, (packFrom width filled value rest).flatMap (bits width) =
        bits filled value ++ rest ++ List.replicate pad false := by
  induction rest generalizing filled value with
  | nil =>
      rw [packFrom]
      split
      · rename_i nothing
        subst nothing
        exact ⟨by simp, 0, room, rfl⟩
      · rename_i some_bits
        have width_eq : filled + (width - filled) = width := by omega
        refine ⟨?_, width - filled, by omega, ?_⟩
        · intro word member
          rw [List.mem_singleton.mp member]
          calc value * 2 ^ (width - filled) < 2 ^ filled * 2 ^ (width - filled) :=
                Nat.mul_lt_mul_of_pos_right fits (by positivity)
            _ = 2 ^ width := by rw [← pow_add, width_eq]
        · have shifted := bits_shift filled value (width - filled)
          rw [width_eq] at shifted
          rw [List.flatMap_singleton, shifted, List.append_nil]
  | cons bit rest ih =>
      have pushed := push_lt fits bit
      rw [packFrom]
      split
      · rename_i full
        have empty : 0 < width := by omega
        have nothing : 0 < 2 ^ 0 := by simp
        obtain ⟨small, pad, pad_lt, words_eq⟩ := ih empty nothing
        refine ⟨?_, pad, pad_lt, ?_⟩
        · intro word member
          rcases List.mem_cons.mp member with rfl | later
          · rwa [full] at pushed
          · exact small word later
        · rw [List.flatMap_cons, words_eq, ← full, bits_push]
          simp [bits]
      · rename_i more
        obtain ⟨small, pad, pad_lt, words_eq⟩ := ih (by omega) pushed
        refine ⟨small, pad, pad_lt, ?_⟩
        rw [words_eq, bits_push]
        simp

theorem pack_lt {width : Nat} (positive : 0 < width) (rest : List Bool) :
    ∀ word ∈ pack width rest, word < 2 ^ width :=
  (packFrom_bits positive (by simp : 0 < 2 ^ 0) rest).1

theorem flatMap_bits_injective {width : Nat} (positive : 0 < width) {first second : List Nat}
    (first_fit : ∀ word ∈ first, word < 2 ^ width) (second_fit : ∀ word ∈ second, word < 2 ^ width)
    (same : first.flatMap (bits width) = second.flatMap (bits width)) : first = second := by
  have longer : ∀ (word : Nat) (words : List Nat), (word :: words).flatMap (bits width) ≠ [] := by
    intro word words nothing
    have none_left := congrArg List.length nothing
    rw [List.flatMap_cons, List.length_append, length_bits, List.length_nil] at none_left
    omega
  induction first generalizing second with
  | nil =>
      cases second with
      | nil => rfl
      | cons word words => exact absurd same.symm (longer word words)
  | cons word words ih =>
      cases second with
      | nil => exact absurd same (longer word words)
      | cons other others =>
          rw [List.flatMap_cons, List.flatMap_cons] at same
          obtain ⟨heads, tails⟩ := List.append_inj same (by simp)
          rw [List.forall_mem_cons] at first_fit second_fit
          rw [bits_injective first_fit.1 second_fit.1 heads, ih first_fit.2 second_fit.2 tails]

/-- The words that fit and have the bits, with fewer zeros behind them than a word has places, are
the packed ones and no others. -/
theorem pack_eq_iff {width : Nat} (positive : 0 < width) {rest : List Bool} {words : List Nat}
    (fit : ∀ word ∈ words, word < 2 ^ width) :
    pack width rest = words ↔
      ∃ pad < width, words.flatMap (bits width) = rest ++ List.replicate pad false := by
  obtain ⟨small, pad, pad_lt, packed⟩ := packFrom_bits positive (by simp : 0 < 2 ^ 0) rest
  change (pack width rest).flatMap (bits width) = rest ++ List.replicate pad false at packed
  constructor
  · rintro rfl
    exact ⟨pad, pad_lt, packed⟩
  · rintro ⟨other, other_lt, unpacked⟩
    -- both fill the last word up, so they end at the same place
    have length_of : ∀ list : List Nat,
        (list.flatMap (bits width)).length = list.length * width := by
      intro list
      simp [List.length_flatMap]
    have packed_length := congrArg List.length packed
    have unpacked_length := congrArg List.length unpacked
    rw [length_of, List.length_append, List.length_replicate] at packed_length unpacked_length
    have same_pad : pad = other := by
      have packed_mod : (rest.length + pad) % width = 0 := by
        rw [← packed_length, Nat.mul_mod_left]
      have unpacked_mod : (rest.length + other) % width = 0 := by
        rw [← unpacked_length, Nat.mul_mod_left]
      have congruent : pad ≡ other [MOD width] :=
        Nat.ModEq.add_left_cancel' rest.length (packed_mod.trans unpacked_mod.symm)
      exact Nat.ModEq.eq_of_lt_of_lt congruent pad_lt other_lt
    rw [← same_pad] at unpacked
    exact flatMap_bits_injective positive small fit (packed.trans unpacked.symm)

end BitPacking
