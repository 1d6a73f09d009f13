import Mrps.MachineInt

/-!
# Counters shared by many parties

Parties add to and subtract from counters of a fixed width in atomic steps.  Whatever the order of
the steps, a counter holds the sum of the parties' shares modulo its width.
-/

namespace SharedCounters

open MachineInt

variable {σ γ : Type*}

/-- The sum of the parties' shares. -/
def total (share : σ → Int) (parties : List σ) : Int := (parties.map share).sum

@[simp] theorem total_nil (share : σ → Int) : total share [] = 0 := rfl

@[simp] theorem total_cons (share : σ → Int) (party : σ) (parties : List σ) :
    total share (party :: parties) = share party + total share parties := by
  simp [total]

@[simp] theorem total_append (share : σ → Int) (front back : List σ) :
    total share (front ++ back) = total share front + total share back := by
  simp [total]

theorem total_set (share : σ → Int) {parties : List σ} {index : Nat} {before : σ}
    (found : parties[index]? = some before) (after : σ) :
    total share (parties.set index after) = total share parties - share before + share after := by
  induction parties generalizing index with
  | nil => simp at found
  | cons party parties ih =>
      cases index with
      | zero =>
          obtain rfl : party = before := by simpa using found
          simp only [List.set_cons_zero, total_cons]
          ring
      | succ index =>
          have changed := @ih index (by simpa using found)
          simp only [List.set_cons_succ, total_cons, changed]
          ring

theorem map_set_same {β : Type*} {view : σ → β} {parties : List σ} {index : Nat}
    {before after : σ} (found : parties[index]? = some before) (same : view after = view before) :
    (parties.set index after).map view = parties.map view := by
  obtain ⟨inside, rfl⟩ := List.getElem?_eq_some_iff.mp found
  rw [List.map_set, same, ← List.map_set, List.set_getElem_self]

theorem total_mono {low high : σ → Int} {parties : List σ}
    (le : ∀ party ∈ parties, low party ≤ high party) : total low parties ≤ total high parties := by
  induction parties with
  | nil => exact le_refl _
  | cons party parties ih =>
      have first := le party List.mem_cons_self
      have rest := ih fun other member => le other (List.mem_cons_of_mem party member)
      simp only [total_cons]
      omega

theorem total_congr {left right : σ → Int} {parties : List σ}
    (same : ∀ party ∈ parties, left party = right party) :
    total left parties = total right parties :=
  le_antisymm (total_mono fun party member => (same party member).le)
    (total_mono fun party member => (same party member).ge)

theorem total_le_length {share : σ → Int} {parties : List σ}
    (small : ∀ party ∈ parties, share party ≤ 1) : total share parties ≤ parties.length := by
  have bound := total_mono small
  simpa [total] using bound

theorem total_add (left right : σ → Int) (parties : List σ) :
    total (fun party => left party + right party) parties =
      total left parties + total right parties := by
  induction parties with
  | nil => rfl
  | cons party parties ih =>
      simp only [total_cons, ih]
      ring

theorem total_sub (left right : σ → Int) (parties : List σ) :
    total (fun party => left party - right party) parties =
      total left parties - total right parties := by
  induction parties with
  | nil => rfl
  | cons party parties ih =>
      simp only [total_cons, ih]
      ring

theorem total_mul (factor : Int) (share : σ → Int) (parties : List σ) :
    total (fun party => factor * share party) parties = factor * total share parties := by
  induction parties with
  | nil => simp
  | cons party parties ih =>
      simp only [total_cons, ih]
      ring

theorem total_nonneg {share : σ → Int} {parties : List σ}
    (nonneg : ∀ party ∈ parties, 0 ≤ share party) : 0 ≤ total share parties := by
  induction parties with
  | nil => exact le_refl _
  | cons party parties ih =>
      have first := nonneg party List.mem_cons_self
      have rest := ih fun other member => nonneg other (List.mem_cons_of_mem party member)
      simp only [total_cons]
      omega

theorem share_le_total {share : σ → Int} {parties : List σ}
    (nonneg : ∀ party ∈ parties, 0 ≤ share party) {party : σ} (member : party ∈ parties) :
    share party ≤ total share parties := by
  induction parties with
  | nil => simp at member
  | cons first parties ih =>
      have nonneg_rest : ∀ party ∈ parties, 0 ≤ share party :=
        fun other member => nonneg other (List.mem_cons_of_mem first member)
      have first_nonneg := nonneg first List.mem_cons_self
      have rest_nonneg := total_nonneg nonneg_rest
      simp only [total_cons]
      rcases List.mem_cons.mp member with rfl | member
      · omega
      · have rest := ih nonneg_rest member
        omega

theorem toInt_nonneg (counted : Bool) : 0 ≤ counted.toInt := by
  cases counted <;> decide

theorem toInt_le_one (counted : Bool) : counted.toInt ≤ 1 := by
  cases counted <;> decide

theorem total_toInt (counted : σ → Bool) (parties : List σ) :
    total (fun party => (counted party).toInt) parties = parties.countP counted := by
  induction parties with
  | nil => rfl
  | cons party parties ih =>
      rw [total_cons, ih, List.countP_cons]
      cases counted party <;> simp [add_comm]

/-! ## Words -/

/-- Every counter holds the sum of the shares modulo `2 ^ width`. -/
def Balanced (width : Nat) (counters : γ → Nat) (share : σ → γ → Int) (parties : List σ) : Prop :=
  ∀ counter, counters counter = toUnsigned width (total (fun party => share party counter) parties)

variable {width : Nat} {counters : γ → Nat} {share : σ → γ → Int} {parties : List σ}

/-- A change of a party that leaves its shares alone. -/
theorem Balanced.set (balanced : Balanced width counters share parties) {index : Nat}
    {before after : σ} (found : parties[index]? = some before)
    (same : share after = share before) :
    Balanced width counters share (parties.set index after) := by
  intro counter
  rw [total, map_set_same found (congrFun same counter)]
  exact balanced counter

theorem Balanced.append (balanced : Balanced width counters share parties) {party : σ}
    (nothing : ∀ counter, share party counter = 0) :
    Balanced width counters share (parties ++ [party]) := by
  intro counter
  rw [balanced counter, total_append, total_cons, nothing counter]
  simp

/-- A party's atomic update changes its share and the counter by the same amount. -/
theorem Balanced.update [DecidableEq γ] (balanced : Balanced width counters share parties)
    {index : Nat} {before after : σ} (found : parties[index]? = some before) {counter : γ}
    {delta : Int} (changed : share after counter = share before counter + delta)
    (same : ∀ other, other ≠ counter → share after other = share before other) :
    Balanced width
      (Function.update counters counter (toUnsigned width (counters counter + delta))) share
      (parties.set index after) := by
  intro other
  rw [total_set _ found]
  by_cases here : other = counter
  · subst here
    rw [Function.update_self, balanced other, toUnsigned_add, changed]
    congr 1
    ring
  · rw [Function.update_of_ne here, balanced other, same other here]
    congr 1
    ring

/-- A counter that cannot wrap holds the sum itself. -/
theorem Balanced.exact (balanced : Balanced width counters share parties) {counter : γ}
    (nonneg : 0 ≤ total (fun party => share party counter) parties)
    (fits : total (fun party => share party counter) parties < (2 ^ width : Nat)) :
    (counters counter : Int) = total (fun party => share party counter) parties := by
  obtain ⟨natural, natural_eq⟩ := Int.eq_ofNat_of_zero_le nonneg
  rw [natural_eq] at fits
  rw [balanced counter, toUnsigned_eq natural_eq (by exact_mod_cast fits), natural_eq]

end SharedCounters
