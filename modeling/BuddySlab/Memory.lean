import BuddySlab.Memory.Chunks
import BuddySlab.Word

/-!
Byte memory. Every address holds a byte, zero until something is written. Two memories are equal if
they read the same everywhere; how the bytes are stored cannot be told.
-/

namespace BuddySlab

instance Chunks.sameBytes : Setoid Chunks :=
  ⟨fun c d => c.read = d.read, fun _ => rfl, Eq.symm, Eq.trans⟩

def Memory : Type := Quotient Chunks.sameBytes

namespace Memory

def read (m : Memory) (address : Nat) : UInt8 :=
  Quotient.lift (fun c : Chunks => c.read address) (fun _ _ h => congrFun h address) m

@[ext]
theorem ext {m m' : Memory} (h : ∀ x, m.read x = m'.read x) : m = m' := by
  induction m using Quotient.inductionOn
  induction m' using Quotient.inductionOn
  exact Quotient.sound (funext h)

def blank : Memory := Quotient.mk _ .blank

theorem read_blank (x : Nat) : blank.read x = 0 :=
  Chunks.read_blank x

def write (m : Memory) (address : Nat) (byte : UInt8) : Memory :=
  Quotient.lift (fun c : Chunks => Quotient.mk _ (c.write address byte))
    (fun c d h => Quotient.sound <| funext fun x => by
      rw [Chunks.read_write, Chunks.read_write, show c.read = d.read from h]) m

theorem read_write (m : Memory) (address : Nat) (byte : UInt8) (x : Nat) :
    (m.write address byte).read x = if x = address then byte else m.read x := by
  induction m using Quotient.inductionOn with
  | h c => exact c.read_write address byte x

/-- Sets `count` bytes. -/
def fill (m : Memory) (start count : Nat) (byte : UInt8) : Memory :=
  Quotient.lift (fun c : Chunks => Quotient.mk _ (c.fill start count byte))
    (fun c d h => Quotient.sound <| funext fun x => by
      rw [Chunks.read_fill, Chunks.read_fill, show c.read = d.read from h]) m

theorem read_fill (m : Memory) (start count : Nat) (byte : UInt8) (x : Nat) :
    (m.fill start count byte).read x =
      if start ≤ x ∧ x < start + count then byte else m.read x := by
  induction m using Quotient.inductionOn with
  | h c => exact c.read_fill start count byte x

/-- Copies between ranges that do not overlap. -/
def copy (m : Memory) (source target count : Nat) : Memory :=
  count.fold (fun i _ copied => copied.write (target + i) (m.read (source + i))) m

theorem read_copy (m : Memory) (source target count x : Nat) :
    (m.copy source target count).read x =
      if target ≤ x ∧ x < target + count then m.read (source + (x - target)) else m.read x := by
  unfold copy
  suffices ∀ copied : Memory, (∀ x, copied.read x = m.read x) →
      (count.fold (fun i _ c => c.write (target + i) (m.read (source + i))) copied).read x =
        if target ≤ x ∧ x < target + count then m.read (source + (x - target))
        else m.read x from
    this m fun _ => rfl
  intro copied hcopied
  induction count with
  | zero => rw [if_neg (by omega)]; simpa using hcopied x
  | succ n ih =>
      rw [Nat.fold_succ, read_write, ih]
      by_cases hx : x = target + n
      · subst hx
        rw [if_pos rfl, if_pos (by omega), Nat.add_sub_cancel_left]
      · rw [if_neg hx]
        grind

def bytes (m : Memory) (start count : Nat) : List UInt8 :=
  (List.range count).map fun i => m.read (start + i)

def sum (m : Memory) (start count : Nat) : Nat :=
  count.fold (fun i _ total => total + (m.read (start + i)).toNat) 0

def writeBytes (m : Memory) (start : Nat) : List UInt8 → Memory
  | [] => m
  | byte :: rest => (m.write start byte).writeBytes (start + 1) rest

/-- The number written in `count` bytes, least significant first. -/
def readNumber (m : Memory) (start : Nat) : Nat → Nat
  | 0 => 0
  | count + 1 => (m.read start).toNat + 256 * m.readNumber (start + 1) count

def writeNumber (m : Memory) (start value : Nat) : Nat → Memory
  | 0 => m
  | count + 1 =>
      (m.write start (UInt8.ofNat value)).writeNumber (start + 1) (value / 256) count

theorem read_writeNumber_of_outside (m : Memory) (start value count x : Nat)
    (h : x < start ∨ start + count ≤ x) : (m.writeNumber start value count).read x = m.read x := by
  induction count generalizing m start value with
  | zero => rfl
  | succ n ih => rw [writeNumber, ih _ _ _ (by omega), read_write, if_neg (by omega)]

theorem readNumber_congr {m m' : Memory} {start count : Nat}
    (h : ∀ x, start ≤ x → x < start + count → m.read x = m'.read x) :
    m.readNumber start count = m'.readNumber start count := by
  induction count generalizing start with
  | zero => rfl
  | succ n ih =>
      rw [readNumber, readNumber, h start (by omega) (by omega),
        ih fun x hlow hhigh => h x (by omega) (by omega)]

theorem readNumber_writeNumber (m : Memory) (start value count : Nat) :
    (m.writeNumber start value count).readNumber start count = value % 256 ^ count := by
  induction count generalizing m start value with
  | zero => simp [readNumber, Nat.mod_one]
  | succ n ih =>
      rw [writeNumber, readNumber, ih, read_writeNumber_of_outside _ _ _ _ _ (by omega), read_write,
        if_pos rfl, Nat.pow_succ, Nat.mul_comm (256 ^ n), Nat.mod_mul]
      simp

/-- The machine's words have eight bytes. -/
def readWord (m : Memory) (address : Nat) : Nat :=
  m.readNumber address 8

def writeWord (m : Memory) (address value : Nat) : Memory :=
  m.writeNumber address value 8

theorem readWord_writeWord (m : Memory) (address value : Nat) :
    (m.writeWord address value).readWord address = value % 2 ^ 64 :=
  readNumber_writeNumber m address value 8

theorem readWord_congr {m m' : Memory} {address : Nat}
    (h : ∀ x, address ≤ x → x < address + 8 → m.read x = m'.read x) :
    m.readWord address = m'.readWord address :=
  readNumber_congr h

theorem read_writeWord_of_outside (m : Memory) (address value x : Nat)
    (h : x < address ∨ address + 8 ≤ x) : (m.writeWord address value).read x = m.read x :=
  read_writeNumber_of_outside m address value 8 x h

theorem readWord_writeWord_of_disjoint (m : Memory) (address value other : Nat)
    (h : other + 8 ≤ address ∨ address + 8 ≤ other) :
    (m.writeWord address value).readWord other = m.readWord other :=
  readWord_congr fun x hlow hhigh => read_writeWord_of_outside m address value x (by omega)

end Memory
end BuddySlab
