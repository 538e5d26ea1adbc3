import BuddySlab.Fault

/-!
Arithmetic of 64-bit words. A word is a natural number below `2 ^ 64`; an operation whose exact
result is not a word is a fault, except where its name says that it wraps.
-/

namespace BuddySlab

/-- Powers of numbers are those of the core library, also beside an import that has its own. -/
@[default_instance 20000]
instance (priority := high) powNat : Pow Nat Nat :=
  instPowNat

namespace Word

def add (a b : Nat) : Except Fault Nat :=
  if a + b < 2 ^ 64 then .ok (a + b) else .error (.overflow .add)

def subtract (a b : Nat) : Except Fault Nat :=
  if b ≤ a then .ok (a - b) else .error (.overflow .subtract)

def multiply (a b : Nat) : Except Fault Nat :=
  if a * b < 2 ^ 64 then .ok (a * b) else .error (.overflow .multiply)

/-- Only the amount is checked: bits shifted out at the top are lost. -/
def shiftLeft (a amount : Nat) : Except Fault Nat :=
  if amount < 64 then .ok ((a <<< amount) % 2 ^ 64) else .error (.overflow .shiftLeft)

def complement (a : Nat) : Nat :=
  2 ^ 64 - 1 - a

def wrappingOffset (a : Nat) (offset : Int) : Nat :=
  ((a + offset) % (2 ^ 64 : Nat)).toNat

theorem add_of_lt {a b : Nat} (h : a + b < 2 ^ 64) : add a b = .ok (a + b) :=
  if_pos h

theorem subtract_of_le {a b : Nat} (h : b ≤ a) : subtract a b = .ok (a - b) :=
  if_pos h

theorem multiply_of_lt {a b : Nat} (h : a * b < 2 ^ 64) : multiply a b = .ok (a * b) :=
  if_pos h

theorem shiftLeft_of_lt {a amount : Nat} (h : amount < 64) (ha : a * 2 ^ amount < 2 ^ 64) :
    shiftLeft a amount = .ok (a * 2 ^ amount) := by
  rw [shiftLeft, if_pos h, Nat.shiftLeft_eq, Nat.mod_eq_of_lt ha]

/-- The complement of the `k` low bits keeps the multiple of `2 ^ k` below a word. -/
theorem and_complement_mask {a k : Nat} (ha : a < 2 ^ 64) (hk : k ≤ 64) :
    a &&& complement (2 ^ k - 1) = a / 2 ^ k * 2 ^ k := by
  have hmask : complement (2 ^ k - 1) = (2 ^ (64 - k) - 1) <<< k := by
    have := Nat.two_pow_pos k
    rw [complement, Nat.shiftLeft_eq, Nat.sub_mul, ← Nat.pow_add, Nat.one_mul,
      Nat.sub_add_cancel hk]
    omega
  apply Nat.eq_of_testBit_eq
  intro i
  rw [hmask, ← Nat.shiftLeft_eq, ← Nat.shiftRight_eq_div_pow, Nat.testBit_and,
    Nat.testBit_shiftLeft, Nat.testBit_shiftLeft, Nat.testBit_shiftRight,
    Nat.testBit_two_pow_sub_one]
  by_cases hi : i < 64
  · by_cases hki : k ≤ i
    · simp [hki]; omega
    · simp [hki]
  · have : a.testBit i = false :=
      Nat.testBit_lt_two_pow (Nat.lt_of_lt_of_le ha (Nat.pow_le_pow_right (by decide) (by omega)))
    by_cases hki : k ≤ i <;> simp [this, hki]

end Word
end BuddySlab
