import Mrps.Blocks

/-!
# Composed writes on one stream

Several composed writes share a stream.  Each has one partial write outstanding at a time; the
outstanding ones are served in the order of issue, and a write that was served in part waits until
it issues its remainder again.  If every write offers the same block, the stream repeats that block
as long as no write gets between the parts of another.
-/

open Blocks

/-- The writes of a stream and what is on it. -/
structure Wire (α : Type*) where
  /-- The outstanding partial writes, each with the symbols it offers. -/
  issued : List (List α)
  /-- The remainders that wait to be issued again. -/
  resuming : List (List α)
  /-- The symbols on the stream. -/
  placed : List α

namespace Wire

variable {α : Type*}

/-- What can happen on a stream. -/
inductive Event (α : Type*) where
  /-- A new composed write issues its first partial write. -/
  | write (block : List α)
  /-- The first outstanding partial write places symbols. -/
  | serve (count : Nat)
  /-- The first waiting remainder is issued again. -/
  | resume

/-- One step. -/
inductive Step (wire : Wire α) : Event α → Wire α → Prop
  | write (block : List α) :
      Step wire (.write block) { wire with issued := wire.issued ++ [block] }
  | servePart {count : Nat} {first : List α} {rest : List (List α)} :
      wire.issued = first :: rest → 0 < count → count < first.length →
      Step wire (.serve count)
        { issued := rest
          resuming := wire.resuming ++ [first.drop count]
          placed := wire.placed ++ first.take count }
  | serveAll {first : List α} {rest : List (List α)} : wire.issued = first :: rest →
      Step wire (.serve first.length)
        { wire with issued := rest, placed := wire.placed ++ first }
  | resume {first : List α} {rest : List (List α)} : wire.resuming = first :: rest →
      Step wire .resume { wire with resuming := rest, issued := wire.issued ++ [first] }

/-- No partial service while another write is outstanding, and no new write while a remainder
waits. -/
def Unmixed (wire : Wire α) : Event α → Prop
  | .write _ => wire.resuming = []
  | .serve count => ∀ first rest, wire.issued = first :: rest → count < first.length → rest = []
  | .resume => True

instance (wire : Wire α) : ∀ event, Decidable (wire.Unmixed event)
  | .write _ => inferInstanceAs (Decidable (wire.resuming = []))
  | .serve count =>
      match split : wire.issued with
      | [] => isTrue (by simp [Unmixed, split])
      | first :: rest =>
          decidable_of_iff (count < first.length → rest = []) (by simp [Unmixed, split])
  | .resume => isTrue trivial

/-- The symbols that are still to be placed. -/
def owed (wire : Wire α) : List α := wire.resuming.flatten ++ wire.issued.flatten

/-- The writes of a stream whose blocks do not mix: whole blocks behind what is left of one. -/
inductive Pipeline (block : List α) : List (List α) → List (List α) → Prop
  | idle : Pipeline block [] []
  | running (first : List α) (more : Nat) : first ≠ [] → first <:+ block →
      Pipeline block (first :: List.replicate more block) []
  | parted (rest : List α) : rest ≠ [] → rest <:+ block → rest.length < block.length →
      Pipeline block [] [rest]

/-- The placed and the owed symbols are whole blocks, and the owed ones do not mix. -/
structure Aligned (block : List α) (wire : Wire α) : Prop where
  pipeline : Pipeline block wire.issued wire.resuming
  stream : ∃ count, wire.placed ++ wire.owed = repeated block count

variable {block : List α} {wire next : Wire α} {event : Event α}

theorem Aligned.placed_repeats (aligned : Aligned block wire) :
    ∃ count, wire.placed <+: repeated block count := by
  obtain ⟨count, stream⟩ := aligned.stream
  exact ⟨count, wire.owed, stream⟩

theorem Pipeline.of_issued {first : List α} {rest resuming : List (List α)}
    (pipeline : Pipeline block (first :: rest) resuming) :
    resuming = [] ∧ first ≠ [] ∧ first <:+ block ∧ ∃ more, rest = List.replicate more block := by
  cases pipeline with
  | running _ more first_ne suffix => exact ⟨rfl, first_ne, suffix, more, rfl⟩

theorem Pipeline.of_resuming {first : List α} {issued rest : List (List α)}
    (pipeline : Pipeline block issued (first :: rest)) :
    issued = [] ∧ rest = [] ∧ first ≠ [] ∧ first <:+ block ∧ first.length < block.length := by
  cases pipeline with
  | parted _ first_ne suffix short => exact ⟨rfl, rfl, first_ne, suffix, short⟩

theorem Aligned.write (aligned : Aligned block wire) (nonempty : block ≠ [])
    (unmixed : wire.Unmixed (.write block)) :
    Aligned block { wire with issued := wire.issued ++ [block] } where
  pipeline := by
    obtain ⟨issued, resuming, placed⟩ := wire
    obtain rfl : resuming = [] := unmixed
    cases aligned.pipeline with
    | idle => exact .running block 0 nonempty List.suffix_rfl
    | running first more first_ne suffix =>
        have grown : Pipeline block (first :: List.replicate (more + 1) block) [] :=
          .running first (more + 1) first_ne suffix
        rwa [List.replicate_succ', ← List.cons_append] at grown
  stream := by
    obtain ⟨count, stream⟩ := aligned.stream
    refine ⟨count + 1, ?_⟩
    have owed_eq : owed { wire with issued := wire.issued ++ [block] } = wire.owed ++ block := by
      simp [owed]
    rw [owed_eq, repeated_succ', ← stream, List.append_assoc]

theorem Aligned.of_conserved (aligned : Aligned block wire)
    (pipeline : Pipeline block next.issued next.resuming)
    (conserved : next.placed ++ next.owed = wire.placed ++ wire.owed) : Aligned block next where
  pipeline := pipeline
  stream := by
    obtain ⟨count, stream⟩ := aligned.stream
    exact ⟨count, conserved.trans stream⟩

theorem Aligned.servePart (aligned : Aligned block wire) {first : List α} {count : Nat}
    (split : wire.issued = [first]) (positive : 0 < count) (part : count < first.length) :
    Aligned block
      { issued := []
        resuming := wire.resuming ++ [first.drop count]
        placed := wire.placed ++ first.take count } := by
  have pipeline := aligned.pipeline
  rw [split] at pipeline
  obtain ⟨resuming, -, suffix, -⟩ := pipeline.of_issued
  have short := suffix.length_le
  apply aligned.of_conserved
  · rw [resuming, List.nil_append]
    refine .parted _ ?_ ((List.drop_suffix count first).trans suffix) ?_
    · rw [← List.length_pos_iff_ne_nil, List.length_drop]
      omega
    · rw [List.length_drop]
      omega
  · simp [owed, resuming, split]

theorem Aligned.serveAll (aligned : Aligned block wire) (nonempty : block ≠ []) {first : List α}
    {rest : List (List α)} (split : wire.issued = first :: rest) :
    Aligned block { wire with issued := rest, placed := wire.placed ++ first } := by
  have pipeline := aligned.pipeline
  rw [split] at pipeline
  obtain ⟨resuming, -, -, more, rfl⟩ := pipeline.of_issued
  apply aligned.of_conserved
  · rw [resuming]
    cases more with
    | zero => exact .idle
    | succ more => exact .running block more nonempty List.suffix_rfl
  · simp [owed, resuming, split]

theorem Aligned.resume (aligned : Aligned block wire) {first : List α} {rest : List (List α)}
    (split : wire.resuming = first :: rest) :
    Aligned block { wire with resuming := rest, issued := wire.issued ++ [first] } := by
  have pipeline := aligned.pipeline
  rw [split] at pipeline
  obtain ⟨issued, rfl, first_ne, suffix, -⟩ := pipeline.of_resuming
  apply aligned.of_conserved
  · rw [issued]
    exact .running first 0 first_ne suffix
  · simp [owed, issued, split]

theorem Aligned.step (aligned : Aligned block wire) (nonempty : block ≠ [])
    (taken : Step wire event next) (unmixed : wire.Unmixed event)
    (same : ∀ other, event = .write other → other = block) : Aligned block next := by
  cases taken with
  | write other =>
      obtain rfl := same other rfl
      exact aligned.write nonempty unmixed
  | @servePart count first rest split positive part =>
      obtain rfl : rest = [] := unmixed first rest split part
      exact aligned.servePart split positive part
  | serveAll split => exact aligned.serveAll nonempty split
  | resume split => exact aligned.resume split

theorem off_boundary {length lacking size : Nat} (positive : 0 < lacking) (short : lacking < size)
    (whole : size ∣ length + lacking) : length % size ≠ 0 := by
  intro boundary
  have lacks := (Nat.dvd_add_right (Nat.dvd_of_mod_eq_zero boundary)).mp whole
  exact Nat.not_dvd_of_pos_of_lt positive short lacks

/-- A block placed off a block boundary is out of place. -/
theorem misplaced {placed : List α} {last : α} (ends : block.getLast? = some last)
    (only : ∀ index, block[index]? = some last → index + 1 = block.length)
    (off : placed.length % block.length ≠ 0) (count : Nat) :
    ¬ placed ++ block <+: repeated block count := by
  rintro ⟨rest, stream⟩
  have nonempty : 0 < block.length := by
    rw [List.length_pos_iff_ne_nil]
    rintro rfl
    simp at ends
  have found : (repeated block count)[placed.length + (block.length - 1)]? = some last := by
    have inside : block.length - 1 < block.length := by omega
    rw [← stream, List.append_assoc, List.getElem?_append_right (by omega),
      Nat.add_sub_cancel_left, List.getElem?_append_left inside, ← List.getLast?_eq_getElem?, ends]
  have boundary := position_of_last only found
  have end_eq : placed.length + (block.length - 1) + 1 = placed.length + block.length := by omega
  rw [end_eq, Nat.add_mod_right] at boundary
  exact off boundary

/-- The first write that mixes into another puts a whole block out of place. -/
theorem Aligned.misplaces (aligned : Aligned block wire) {last : α}
    (ends : block.getLast? = some last)
    (only : ∀ index, block[index]? = some last → index + 1 = block.length)
    (taken : Step wire event next) (mixed : ¬ wire.Unmixed event)
    (same : ∀ other, event = .write other → other = block) :
    ∃ final, Step next (.serve block.length) final ∧
      ∀ count, ¬ final.placed <+: repeated block count := by
  obtain ⟨total, stream⟩ := aligned.stream
  have pipeline := aligned.pipeline
  have lengths := congrArg List.length stream
  rw [List.length_append, length_repeated] at lengths
  cases taken with
  | write other =>
      obtain rfl := same other rfl
      cases waiting : wire.resuming with
      | nil => exact (mixed waiting).elim
      | cons first rest =>
          rw [waiting] at pipeline
          obtain ⟨issued, rfl, first_ne, -, short⟩ := pipeline.of_resuming
          have lacks : wire.placed.length + first.length = total * other.length := by
            simpa [owed, waiting, issued] using lengths
          have off := off_boundary (List.length_pos_iff_ne_nil.mpr first_ne) short
            (Dvd.intro_left total lacks.symm)
          have next_issued : wire.issued ++ [other] = other :: [] := by simp [issued]
          exact ⟨_, .serveAll next_issued, misplaced ends only off⟩
  | @servePart count first rest split positive part =>
      rw [split] at pipeline
      obtain ⟨resuming, -, suffix, more, rfl⟩ := pipeline.of_issued
      cases more with
      | zero =>
          refine (mixed ?_).elim
          rintro _ rest split' -
          rw [split] at split'
          exact (List.cons.inj split').2.symm
      | succ more =>
          have whole : (wire.placed ++ first.take count).length + (first.length - count) +
              (more + 1) * block.length = total * block.length := by
            simp only [owed, resuming, split, List.flatten_nil, List.nil_append,
              List.flatten_cons, List.length_append] at lengths
            rw [← repeated, length_repeated] at lengths
            rw [List.length_append, List.length_take, ← lengths]
            omega
          have boundary : block.length ∣
              (wire.placed ++ first.take count).length + (first.length - count) :=
            (Nat.dvd_add_left (Nat.dvd_mul_left _ _)).mp (whole ▸ Nat.dvd_mul_left _ _)
          have fits := suffix.length_le
          have off := off_boundary (by omega) (by omega) boundary
          exact ⟨_, .serveAll List.replicate_succ, misplaced ends only off⟩
  | @serveAll first rest split =>
      refine (mixed ?_).elim
      rintro other rest' split' part
      rw [split] at split'
      obtain ⟨rfl, -⟩ := List.cons.inj split'
      omega
  | resume => exact (mixed trivial).elim

end Wire
