import Mrps.BitPacking
import Mrps.Runtime

/-!
# `10kx.pl`

A shell script that runs a program written in spaces and tabs.  The shell hands the lines up to `X`
to a first `perl`, which takes the lines up to `_`, turns spaces and tabs into the bits of the
program, and prints the program for a second `perl` to run.
-/

namespace Mrps.Perl.Loader

/-- A line without its newline. -/
abbrev Line := List Char

/-- The lines of a here-document up to its terminator. -/
def heredoc (terminator : Line) (lines : List Line) : List Line :=
  lines.takeWhile fun line => line ≠ terminator

/-- `y/ \t\n/01/d`: what has no counterpart is deleted. -/
def y : Char → Option Char
  | ' ' => some '0'
  | '\t' => some '1'
  | '\n' => none
  | other => some other

/-- `pack "B*"`, which looks at the lowest bit of each character. -/
def pack (text : List Char) : List Byte :=
  (BitPacking.pack 8 (text.map fun char => decide (char.toNat % 2 = 1))).map UInt8.ofNat

/-- The lines before the text: `#!/bin/bash`, the call of both `perl`s, and the first program. -/
def header : List Line :=
  ["#!/bin/bash".toList, "perl<<'X'|perl".toList,
    "$_=<<_;y/ \t\\n/01/d;print pack \"B*\",$_".toList]

/-- The script around a text. -/
def script (text : List Line) : List Line := header ++ text ++ [['_'], ['X']]

/-- What the first `perl` prints, given the lines of the file. -/
def load (file : List Line) : List Byte :=
  -- the shell runs the second line, whose here-document is the first program with its own
  let program := heredoc ['X'] (file.drop 2)
  let text := heredoc ['_'] (program.drop 1)
  pack ((text.flatMap fun line => line ++ ['\n']).filterMap y)

/-- How a program is written: a space for every zero, a tab for every one. -/
def blank (bit : Bool) : Char := if bit then '\t' else ' '

/-- The characters of a program. -/
def write (program : List Byte) : List Char :=
  program.flatMap fun byte => (BitPacking.bits 8 byte.toNat).map blank

/-- The line is written in spaces and tabs. -/
def Blank (line : Line) : Prop := ∀ char ∈ line, char = ' ' ∨ char = '\t'

instance (line : Line) : Decidable (Blank line) := List.decidableBAll _ _

/-! ## What the loader reads -/

/-- The bit of a blank character. -/
def bitOf (char : Char) : Bool := decide (char = '\t')

theorem blank_injective : Function.Injective blank := by decide

theorem heredocs {text : List Line} (blanks : ∀ line ∈ text, Blank line) :
    heredoc ['_'] ((heredoc ['X'] ((script text).drop 2)).drop 1) = text := by
  have unlike : ∀ (mark : Char), mark ≠ ' ' → mark ≠ '\t' → ∀ line ∈ text, line ≠ [mark] := by
    rintro mark no_space no_tab line member rfl
    rcases blanks [mark] member mark List.mem_cons_self with space | tab
    · exact no_space space
    · exact no_tab tab
  have marked : ∀ (mark : Char) (lines rest : List Line), (∀ line ∈ lines, line ≠ [mark]) →
      heredoc [mark] (lines ++ [mark] :: rest) = lines := by
    intro mark lines rest different
    rw [heredoc, List.takeWhile_append_of_pos (by simpa using different)]
    simp
  let first : Line := "$_=<<_;y/ \t\\n/01/d;print pack \"B*\",$_".toList
  have program_eq : heredoc ['X'] ((script text).drop 2) = first :: text ++ [['_']] := by
    have lines_eq : (script text).drop 2 = (first :: text ++ [['_']]) ++ ['X'] :: [] := by
      simp [script, header, first]
    rw [lines_eq]
    apply marked
    intro line member
    rcases List.mem_append.mp member with inside | last
    · rcases List.mem_cons.mp inside with rfl | written
      · decide
      · exact unlike 'X' (by decide) (by decide) line written
    · rw [List.mem_singleton.mp last]
      decide
  rw [program_eq]
  exact marked '_' text [] (unlike '_' (by decide) (by decide))

theorem bits_of_text {text : List Line} (blanks : ∀ line ∈ text, Blank line) :
    ((text.flatMap fun line => line ++ ['\n']).filterMap y).map
        (fun char => decide (char.toNat % 2 = 1)) = text.flatten.map bitOf := by
  have of_line : ∀ line, Blank line →
      (line.filterMap y).map (fun char => decide (char.toNat % 2 = 1)) = line.map bitOf := by
    intro line written
    induction line with
    | nil => rfl
    | cons char line ih =>
        obtain ⟨here, later⟩ := List.forall_mem_cons.mp written
        rcases here with rfl | rfl
        · have zero : y ' ' = some '0' := rfl
          rw [List.filterMap_cons_some zero, List.map_cons, ih later]
          rfl
        · have one : y '\t' = some '1' := rfl
          rw [List.filterMap_cons_some one, List.map_cons, ih later]
          rfl
  induction text with
  | nil => rfl
  | cons line text ih =>
      obtain ⟨here, later⟩ := List.forall_mem_cons.mp blanks
      have newline : ['\n'].filterMap y = [] := rfl
      rw [List.flatMap_cons, List.filterMap_append, List.filterMap_append, newline, List.append_nil,
        List.map_append, of_line line here, ih later, List.flatten_cons, List.map_append]

theorem blank_bitOf {chars : List Char} (written : Blank chars) :
    (chars.map bitOf).map blank = chars := by
  induction chars with
  | nil => rfl
  | cons char chars ih =>
      obtain ⟨here, later⟩ := List.forall_mem_cons.mp written
      rw [List.map_cons, List.map_cons, ih later]
      rcases here with rfl | rfl <;> rfl

theorem pack_eq_iff {text : List Char} {program : List Byte} :
    pack text = program ↔
      BitPacking.pack 8 (text.map fun char => decide (char.toNat % 2 = 1)) =
        program.map UInt8.toNat := by
  have small := BitPacking.pack_lt (by decide : 0 < 8)
    (text.map fun char => decide (char.toNat % 2 = 1))
  rw [pack]
  constructor
  · rintro rfl
    rw [List.map_map]
    conv_lhs => rw [← List.map_id (BitPacking.pack 8 _)]
    apply List.map_congr_left
    intro word member
    exact (Nat.mod_eq_of_lt (small word member)).symm
  · intro words_eq
    rw [words_eq, List.map_map]
    conv_rhs => rw [← List.map_id program]
    apply List.map_congr_left
    intro byte _
    exact UInt8.ofNat_toNat

/-- A text of blanks loads a program exactly when it is the program written out, cut into lines
anywhere; only spaces that would write the zeros at its very end may be missing. -/
theorem load_eq_iff {text : List Line} {program : List Byte} (blanks : ∀ line ∈ text, Blank line) :
    load (script text) = program ↔
      ∃ pad < 8, text.flatten ++ List.replicate pad ' ' = write program := by
  have small : ∀ word ∈ program.map UInt8.toNat, word < 2 ^ 8 := by
    intro word member
    obtain ⟨byte, -, rfl⟩ := List.mem_map.mp member
    exact byte.toNat_lt
  have whole : Blank text.flatten := by
    intro char member
    obtain ⟨line, inside, here⟩ := List.mem_flatten.mp member
    exact blanks line inside char here
  have written_eq : write program =
      ((program.map UInt8.toNat).flatMap (BitPacking.bits 8)).map blank := by
    rw [write, List.flatMap_map, List.map_flatMap]
  have zeros : ∀ pad, List.replicate pad ' ' = (List.replicate pad false).map blank := by
    intro pad
    rw [List.map_replicate]
    rfl
  have loaded : load (script text) = program ↔ BitPacking.pack 8 (text.flatten.map bitOf) =
      program.map UInt8.toNat := by
    rw [load, heredocs blanks, pack_eq_iff, bits_of_text blanks]
  rw [loaded, BitPacking.pack_eq_iff (by decide) small]
  refine exists_congr fun pad => and_congr_right fun _ => ?_
  conv_rhs => rw [← blank_bitOf whole, zeros, ← List.map_append, written_eq]
  rw [(List.map_injective_iff.mpr blank_injective).eq_iff, eq_comm]

/-- The letter `X` in two lines, the three zeros at its end missing. -/
theorem load_eq_iff_short : load (script [[' ', '\t'], [' ', '\t', '\t']]) = [88] := by
  have blanks : ∀ line ∈ [[' ', '\t'], [' ', '\t', '\t']], Blank line := by decide
  exact (load_eq_iff blanks).mpr ⟨3, by decide, by decide⟩

end Mrps.Perl.Loader
