import BuddySlab.Word

/-!
Rounding addresses to a power of two. The formulas are on words, so they are defined, or fault, for
every alignment: rounding up goes through `value + align` and faults when that sum is not a word,
even where the rounded value would be one.
-/

namespace BuddySlab

def alignUp (value align : Nat) : Except Fault Nat := do
  let sum ← Word.add value align
  let last ← Word.subtract sum 1
  let mask ← Word.subtract align 1
  return last &&& Word.complement mask

def alignDown (value align : Nat) : Except Fault Nat := do
  let mask ← Word.subtract align 1
  return value &&& Word.complement mask

def isAligned (value align : Nat) : Except Fault Bool := do
  let mask ← Word.subtract align 1
  return (value &&& mask) == 0

theorem alignUp_two_pow {value k : Nat} (h : value + 2 ^ k < 2 ^ 64) :
    alignUp value (2 ^ k) = .ok ((value + 2 ^ k - 1) / 2 ^ k * 2 ^ k) := by
  have hpos := Nat.two_pow_pos k
  have hlt : 2 ^ k < 2 ^ 64 := by omega
  have hk : k ≤ 64 := Nat.le_of_lt ((Nat.pow_lt_pow_iff_right (by decide)).1 hlt)
  rw [alignUp, Word.add_of_lt h]
  change (Word.subtract (value + 2 ^ k) 1 >>= _) = _
  rw [Word.subtract_of_le (by omega)]
  change (Word.subtract (2 ^ k) 1 >>= _) = _
  rw [Word.subtract_of_le (by omega), ← Word.and_complement_mask (by omega) hk]
  rfl

theorem alignUp_of_overflow {value align : Nat} (h : 2 ^ 64 ≤ value + align) :
    alignUp value align = .error (.overflow .add) := by
  rw [alignUp, Word.add, if_neg (by omega)]
  rfl

theorem alignDown_two_pow {value k : Nat} (hvalue : value < 2 ^ 64) (hk : k ≤ 64) :
    alignDown value (2 ^ k) = .ok (value / 2 ^ k * 2 ^ k) := by
  rw [alignDown, Word.subtract_of_le (Nat.two_pow_pos k), ← Word.and_complement_mask hvalue hk]
  rfl

theorem isAligned_two_pow (value k : Nat) :
    isAligned value (2 ^ k) = .ok (value % 2 ^ k == 0) := by
  rw [isAligned, Word.subtract_of_le (Nat.two_pow_pos k), ← Nat.and_two_pow_sub_one_eq_mod]
  rfl

end BuddySlab
