import BuddySlab.Proofs.Geometry
import Mathlib.Order.Bounds.Basic

/-!
Rounding to a power of two, for all words. Rounded down a word is the greatest multiple that is not
above it, and this always has a result. Rounded up it is the least multiple that is not below it,
unless the sum of the word and the alignment is no word; then there is no result, even where the
multiple is a word. What is said of the results here is read off from their being greatest and
least, not from the masks.
-/

namespace BuddySlab

/-- How a value is rounded to the multiples of an alignment. -/
structure Rounds (align value : Nat) : Prop where
  up_fault : alignUp value align = .error (.overflow .add) ↔ 2 ^ 64 ≤ value + align
  up_least : value + align < 2 ^ 64 →
    ∃ high, alignUp value align = .ok high ∧ IsLeast {m | align ∣ m ∧ value ≤ m} high
  down_greatest : ∃ low, alignDown value align = .ok low ∧
    IsGreatest {m | align ∣ m ∧ m ≤ value} low
  aligned_iff : ∃ aligned, isAligned value align = .ok aligned ∧
    (aligned = true ↔ align ∣ value) ∧ (aligned = true ↔ alignDown value align = .ok value)
  up_idempotent : ∀ high, alignUp value align = .ok high → high + align < 2 ^ 64 →
    alignUp high align = .ok high
  up_monotone : ∀ high, alignUp value align = .ok high → ∀ lower ≤ value,
    ∃ high', alignUp lower align = .ok high' ∧ high' ≤ high
  gap : ∀ high low, alignUp value align = .ok high → alignDown value align = .ok low →
    high = low ∨ high = low + align

/-- The least multiple that is not below the value is a word, and yet rounding up is a fault. -/
structure FaultsBelow (align value high : Nat) : Prop where
  word : high < 2 ^ 64
  least : IsLeast {m | align ∣ m ∧ value ≤ m} high
  fault : alignUp value align = .error (.overflow .add)

section Multiples
variable {align value high low : Nat}

theorem isLeast_multiple (hpos : 0 < align) (value : Nat) :
    IsLeast {m | align ∣ m ∧ value ≤ m} ((value + align - 1) / align * align) := by
  refine ⟨⟨Nat.dvd_mul_left align _, ?_⟩, ?_⟩
  · have hlt : value + align - 1 < (value + align - 1) / align * align + align :=
      Nat.lt_div_mul_add hpos
    omega
  · intro m hm
    obtain ⟨⟨q, rfl⟩, hle⟩ := hm
    have hlt : value + align - 1 < (q + 1) * align := by
      rw [Nat.add_mul, Nat.one_mul, Nat.mul_comm q]
      omega
    rw [Nat.mul_comm align]
    exact Nat.mul_le_mul_right align (Nat.le_of_lt_succ ((Nat.div_lt_iff_lt_mul hpos).2 hlt))

theorem isGreatest_multiple (hpos : 0 < align) (value : Nat) :
    IsGreatest {m | align ∣ m ∧ m ≤ value} (value / align * align) := by
  refine ⟨⟨Nat.dvd_mul_left align _, Nat.div_mul_le_self value align⟩, ?_⟩
  intro m hm
  obtain ⟨⟨q, rfl⟩, hle⟩ := hm
  rw [Nat.mul_comm align] at hle ⊢
  exact Nat.mul_le_mul_right align ((Nat.le_div_iff_mul_le hpos).2 hle)

/-- A multiple is its own rounding. -/
theorem isLeast_self (hdvd : align ∣ value) : IsLeast {m | align ∣ m ∧ value ≤ m} value :=
  ⟨⟨hdvd, Nat.le_refl value⟩, fun _ hm => hm.2⟩

theorem isGreatest_self_iff : IsGreatest {m | align ∣ m ∧ m ≤ value} value ↔ align ∣ value :=
  ⟨fun h => h.1.1, fun hdvd => ⟨⟨hdvd, Nat.le_refl value⟩, fun _ hm => hm.2⟩⟩

/-- No multiple lies between the two. -/
theorem multiples_adjacent (hpos : 0 < align) (hhigh : IsLeast {m | align ∣ m ∧ value ≤ m} high)
    (hlow : IsGreatest {m | align ∣ m ∧ m ≤ value} low) : high = low ∨ high = low + align := by
  have hle : low ≤ high := Nat.le_trans hlow.1.2 hhigh.1.2
  have hnext : value ≤ low + align := by
    by_contra hlt
    have hmem : low + align ∈ {m | align ∣ m ∧ m ≤ value} :=
      ⟨Nat.dvd_add hlow.1.1 (Nat.dvd_refl align), Nat.le_of_not_le hlt⟩
    have := hlow.2 hmem
    omega
  have hhigh_le : high ≤ low + align :=
    hhigh.2 ⟨Nat.dvd_add hlow.1.1 (Nat.dvd_refl align), hnext⟩
  obtain ⟨q, hq⟩ := Nat.dvd_sub hhigh.1.1 hlow.1.1
  cases q with
  | zero => exact .inl (by rw [Nat.mul_zero] at hq; omega)
  | succ q =>
      have : align ≤ align * (q + 1) := Nat.le_mul_of_pos_right align (Nat.succ_pos q)
      exact .inr (by omega)

end Multiples

section TwoPow
variable {k value : Nat}

theorem alignUp_isLeast (h : value + 2 ^ k < 2 ^ 64) :
    ∃ high, alignUp value (2 ^ k) = .ok high ∧ IsLeast {m | 2 ^ k ∣ m ∧ value ≤ m} high :=
  ⟨_, alignUp_two_pow h, isLeast_multiple (Nat.two_pow_pos k) value⟩

/-- A result of rounding up is the least multiple, and the sum that it went through was a word. -/
theorem isLeast_of_alignUp {high : Nat} (h : alignUp value (2 ^ k) = .ok high) :
    value + 2 ^ k < 2 ^ 64 ∧ IsLeast {m | 2 ^ k ∣ m ∧ value ≤ m} high := by
  obtain ⟨hsum, rfl⟩ := alignUp_eq_ok h
  exact ⟨hsum, isLeast_multiple (Nat.two_pow_pos k) value⟩

theorem alignUp_fault_iff :
    alignUp value (2 ^ k) = .error (.overflow .add) ↔ 2 ^ 64 ≤ value + 2 ^ k := by
  refine ⟨fun hfault => ?_, alignUp_of_overflow⟩
  by_contra hlt
  rw [alignUp_two_pow (Nat.lt_of_not_le hlt)] at hfault
  cases hfault

theorem alignDown_isGreatest (hvalue : value < 2 ^ 64) (hk : k ≤ 64) :
    ∃ low, alignDown value (2 ^ k) = .ok low ∧ IsGreatest {m | 2 ^ k ∣ m ∧ m ≤ value} low :=
  ⟨_, alignDown_two_pow hvalue hk, isGreatest_multiple (Nat.two_pow_pos k) value⟩

theorem alignDown_eq_self_iff (hvalue : value < 2 ^ 64) (hk : k ≤ 64) :
    alignDown value (2 ^ k) = .ok value ↔ 2 ^ k ∣ value := by
  obtain ⟨low, hlow, hgreatest⟩ := alignDown_isGreatest hvalue hk
  rw [hlow, Except.ok.injEq, ← isGreatest_self_iff, hgreatest.isGreatest_iff_eq]

theorem isAligned_iff (k value : Nat) :
    ∃ aligned, isAligned value (2 ^ k) = .ok aligned ∧ (aligned = true ↔ 2 ^ k ∣ value) :=
  ⟨_, isAligned_two_pow value k, by rw [beq_iff_eq, Nat.dvd_iff_mod_eq_zero]⟩

/-- The last multiple below the end of the address space is a word and needs no rounding. -/
theorem faultsBelow_last (hk : k < 64) :
    FaultsBelow (2 ^ k) (2 ^ 64 - 2 ^ k) (2 ^ 64 - 2 ^ k) := by
  have hpos := Nat.two_pow_pos k
  have hle : 2 ^ k ≤ 2 ^ 64 := Nat.pow_le_pow_right (by decide) (Nat.le_of_lt hk)
  have hdvd : 2 ^ k ∣ 2 ^ 64 - 2 ^ k :=
    Nat.dvd_sub (Nat.pow_dvd_pow 2 (Nat.le_of_lt hk)) (Nat.dvd_refl _)
  exact ⟨by omega, isLeast_self hdvd, alignUp_of_overflow (by omega)⟩

end TwoPow

/-- Every word is rounded like this to every power of two that is a word, and for each of these
there is a word that cannot be rounded up although it is a multiple already. -/
theorem rounds_two_pow {k value : Nat} (hk : k < 64) (hvalue : value < 2 ^ 64) :
    Rounds (2 ^ k) value ∧ ∃ last high, last < 2 ^ 64 ∧ FaultsBelow (2 ^ k) last high := by
  have hle : k ≤ 64 := Nat.le_of_lt hk
  obtain ⟨aligned, haligned, hdvd⟩ := isAligned_iff k value
  refine ⟨⟨alignUp_fault_iff, alignUp_isLeast, alignDown_isGreatest hvalue hle,
    ⟨aligned, haligned, hdvd, hdvd.trans (alignDown_eq_self_iff hvalue hle).symm⟩,
    fun high hup hsum => ?_, fun high hup lower hlower => ?_, fun high low hup hdown => ?_⟩,
    _, _, (faultsBelow_last hk).word, faultsBelow_last hk⟩
  · obtain ⟨-, hhigh⟩ := isLeast_of_alignUp hup
    obtain ⟨again, hagain, hleast⟩ := alignUp_isLeast hsum
    rw [hagain, hleast.unique (isLeast_self hhigh.1.1)]
  · obtain ⟨hsum, hhigh⟩ := isLeast_of_alignUp hup
    obtain ⟨high', hup', hhigh'⟩ :=
      alignUp_isLeast (Nat.lt_of_le_of_lt (Nat.add_le_add_right hlower _) hsum)
    refine ⟨high', hup', hhigh.mono hhigh' fun m hm => ?_⟩
    exact ⟨hm.1, Nat.le_trans hlower hm.2⟩
  · obtain ⟨low', hdown', hlow⟩ := alignDown_isGreatest hvalue hle
    cases hdown'.symm.trans hdown
    exact multiples_adjacent (Nat.two_pow_pos k) (isLeast_of_alignUp hup).2 hlow

/-- The last word that can be rounded up to pages, and the one after it. -/
theorem rounds_two_pow_at_top :
    Rounds (2 ^ 12) 0xffffffffffffefff ∧ Rounds (2 ^ 12) 0xfffffffffffff000 :=
  ⟨(rounds_two_pow (by decide) (by decide)).1, (rounds_two_pow (by decide) (by decide)).1⟩

end BuddySlab
