import BuddySlab.Memory

/-!
Words written to memory. A byte that a word does not reach keeps what it held, and one that it
reaches no longer depends on it. So the same words leave two memories alike wherever they were alike
before, words that are apart may be written in any order, and to write what was read changes
nothing.
-/

namespace BuddySlab
namespace Memory
variable {m n : Memory} {address other value x : Nat}

theorem read_writeNumber_congr {start count : Nat}
    (h : m.read x = n.read x ∨ (start ≤ x ∧ x < start + count)) :
    (m.writeNumber start value count).read x = (n.writeNumber start value count).read x := by
  induction count generalizing m n start value with
  | zero => exact h.resolve_right (by omega)
  | succ count ih =>
      refine ih ?_
      by_cases hx : x = start
      · exact .inl (by rw [read_write, read_write, if_pos hx, if_pos hx])
      · refine h.imp (fun hread => ?_) fun hin => by omega
        rw [read_write, read_write, if_neg hx, if_neg hx, hread]

theorem read_writeWord_congr (h : m.read x = n.read x) :
    (m.writeWord address value).read x = (n.writeWord address value).read x :=
  read_writeNumber_congr (.inl h)

/-- What was there before a word was written does not show in it. -/
theorem read_writeWord_inside (m n : Memory) (hlow : address ≤ x) (hhigh : x < address + 8) :
    (m.writeWord address value).read x = (n.writeWord address value).read x :=
  read_writeNumber_congr (.inr ⟨hlow, hhigh⟩)

theorem writeWord_comm {value' : Nat} (h : address + 8 ≤ other ∨ other + 8 ≤ address) :
    (m.writeWord address value).writeWord other value' =
      (m.writeWord other value').writeWord address value := by
  apply Memory.ext
  intro x
  by_cases hin : address ≤ x ∧ x < address + 8
  · rw [read_writeWord_of_outside _ other _ _ (by omega)]
    exact read_writeWord_inside _ _ hin.1 hin.2
  · rw [read_writeWord_of_outside _ address _ _ (by omega)]
    exact read_writeWord_congr (read_writeWord_of_outside _ _ _ _ (by omega))

/-- Of two words at one address the later stays. -/
theorem writeWord_writeWord {value' : Nat} :
    (m.writeWord address value).writeWord address value' = m.writeWord address value' := by
  apply Memory.ext
  intro x
  by_cases hin : address ≤ x ∧ x < address + 8
  · exact read_writeWord_inside _ _ hin.1 hin.2
  · exact read_writeWord_congr (read_writeWord_of_outside _ _ _ _ (by omega))

theorem write_read (m : Memory) (address : Nat) : m.write address (m.read address) = m := by
  apply Memory.ext
  intro x
  rw [read_write]
  split
  · rename_i hx
    rw [hx]
  · rfl

theorem writeNumber_readNumber (m : Memory) (start count : Nat) :
    m.writeNumber start (m.readNumber start count) count = m := by
  induction count generalizing start with
  | zero => rfl
  | succ count ih =>
      have hbyte : UInt8.ofNat (m.readNumber start (count + 1)) = m.read start := by
        apply UInt8.toNat.inj
        have hlt := (m.read start).toNat_lt
        rw [UInt8.toNat_ofNat', readNumber]
        omega
      have hrest : m.readNumber start (count + 1) / 256 = m.readNumber (start + 1) count := by
        have hlt := (m.read start).toNat_lt
        rw [readNumber]
        omega
      rw [writeNumber, hbyte, write_read, hrest, ih]

theorem writeWord_readWord (m : Memory) (address : Nat) :
    m.writeWord address (m.readWord address) = m :=
  writeNumber_readNumber m address 8

/-- Writes these words, each to its address. -/
def patch (m : Memory) (words : List (Nat × Nat)) : Memory :=
  words.foldl (fun m (address, value) => m.writeWord address value) m

@[simp]
theorem patch_nil (m : Memory) : m.patch [] = m := rfl

@[simp]
theorem patch_cons (m : Memory) (address value : Nat) (words : List (Nat × Nat)) :
    m.patch ((address, value) :: words) = (m.writeWord address value).patch words := rfl

theorem patch_append (m : Memory) (words words' : List (Nat × Nat)) :
    m.patch (words ++ words') = (m.patch words).patch words' :=
  List.foldl_append

theorem read_patch_congr {words : List (Nat × Nat)} (h : m.read x = n.read x) :
    (m.patch words).read x = (n.patch words).read x := by
  induction words generalizing m n with
  | nil => exact h
  | cons word rest ih => exact ih (read_writeWord_congr h)

end Memory
end BuddySlab
