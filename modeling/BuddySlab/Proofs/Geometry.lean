import BuddySlab.Pool
import Mathlib.Data.List.Perm.Subperm

/-!
Where the pages of an arena lie. An arena that was laid out is sound: its pages follow one another
from the payload's start to its stop, behind the table and below the end of the address space.
Between a page's number and its address no information is lost, and flipping one bit of a block's
address is flipping one bit of the page's number among all pages of the address space.
-/

namespace BuddySlab

section Outcomes
variable {ε α β : Type}

@[simp]
theorem ok_bind (a : α) (f : α → Except ε β) : (Except.ok a >>= f) = f a := rfl

@[simp]
theorem error_bind (e : ε) (f : α → Except ε β) : (Except.error e >>= f) = .error e := rfl

@[simp]
theorem pure_eq_ok (a : α) : (pure a : Except ε α) = .ok a := rfl

theorem bind_eq_ok {x : Except ε α} {f : α → Except ε β} {b : β} :
    x >>= f = .ok b ↔ ∃ a, x = .ok a ∧ f a = .ok b := by
  cases x with
  | error e => simp
  | ok a => simp

end Outcomes

theorem length_le_of_nodup {l : List Nat} {n : Nat} (hnodup : l.Nodup) (hlt : ∀ i ∈ l, i < n) :
    l.length ≤ n := by
  have hsub : l ⊆ List.range n := fun i hi => List.mem_range.2 (hlt i hi)
  simpa using (List.Nodup.subperm hnodup hsub).length_le

theorem pageSize_eq_two_pow : pageSize = 2 ^ 12 := rfl

theorem blockSize_eq (order : Nat) : blockSize order = pageSize * 2 ^ order :=
  Nat.shiftLeft_eq pageSize order

theorem blockSize_pos (order : Nat) : 0 < blockSize order := by
  rw [blockSize_eq]
  exact Nat.mul_pos (by decide) (Nat.two_pow_pos order)

theorem alignUp_eq_ok {value k result : Nat} (h : alignUp value (2 ^ k) = .ok result) :
    value + 2 ^ k < 2 ^ 64 ∧ result = (value + 2 ^ k - 1) / 2 ^ k * 2 ^ k := by
  by_cases hsum : value + 2 ^ k < 2 ^ 64
  · rw [alignUp_two_pow hsum] at h
    exact ⟨hsum, (Except.ok.inj h).symm⟩
  · rw [alignUp_of_overflow (by omega)] at h
    cases h

/-- Only the word's bits of the value count. -/
theorem alignDown_pageSize (value : Nat) :
    alignDown value pageSize = .ok (value % 2 ^ 64 / pageSize * pageSize) := by
  have hword : value &&& Word.complement (pageSize - 1) =
      value % 2 ^ 64 &&& Word.complement (pageSize - 1) := by
    apply Nat.eq_of_testBit_eq
    intro i
    rw [Nat.testBit_and, Nat.testBit_and, Nat.testBit_mod_two_pow]
    by_cases hi : i < 64
    · rw [decide_eq_true hi, Bool.true_and]
    · have : (Word.complement (pageSize - 1)).testBit i = false :=
        Nat.testBit_lt_two_pow (Nat.lt_of_lt_of_le (by decide)
          (Nat.pow_le_pow_right (by decide) (Nat.le_of_not_lt hi)))
      rw [this, Bool.and_false, Bool.and_false]
  have hmask : Word.subtract pageSize 1 = .ok (pageSize - 1) := rfl
  rw [alignDown, hmask, ok_bind, pure_eq_ok, hword, pageSize_eq_two_pow]
  rw [Word.and_complement_mask (Nat.mod_lt _ (by decide)) (by decide)]

theorem isAligned_pageSize (value : Nat) :
    isAligned value pageSize = .ok (value % pageSize == 0) :=
  isAligned_two_pow value 12

/-- A range of addresses. -/
structure Extent where
  address : Nat
  size : Nat
  deriving DecidableEq, Repr

namespace Extent

def Covers (e : Extent) (x : Nat) : Prop :=
  e.address ≤ x ∧ x < e.address + e.size

instance (e : Extent) (x : Nat) : Decidable (e.Covers x) :=
  inferInstanceAs (Decidable (_ ∧ _))

def Apart (e f : Extent) : Prop :=
  ∀ x, e.Covers x → ¬f.Covers x

theorem covers_address {e : Extent} (h : 0 < e.size) : e.Covers e.address :=
  ⟨Nat.le_refl _, Nat.lt_add_of_pos_right h⟩

theorem Apart.symm {e f : Extent} (h : e.Apart f) : f.Apart e :=
  fun x hf he => h x he hf

instance : Std.Symm Apart := ⟨fun _ _ => Apart.symm⟩

end Extent

namespace Arena

/-- How many pages of the address space lie before the payload. -/
def base (a : Arena) : Nat :=
  a.payloadStart / pageSize

def pageAddress (a : Arena) (index : Nat) : Nat :=
  a.payloadStart + index * pageSize

def pageExtent (a : Arena) (index : Nat) : Extent :=
  ⟨a.pageAddress index, pageSize⟩

theorem pageAddress_apart (a : Arena) {i j : Nat} (hij : i ≠ j) :
    a.pageAddress i + pageSize ≤ a.pageAddress j ∨ a.pageAddress j + pageSize ≤ a.pageAddress i := by
  simp only [pageAddress, pageSize]
  omega

theorem pageAddress_inj {a : Arena} {i j : Nat} : a.pageAddress i = a.pageAddress j ↔ i = j := by
  simp only [pageAddress, pageSize]
  omega

theorem pageAddress_injective (a : Arena) : Function.Injective a.pageAddress :=
  fun _ _ => pageAddress_inj.1

theorem pageAddress_add_two_pow (a : Arena) (i k : Nat) :
    a.pageAddress (i + 2 ^ k) = a.pageAddress i + blockSize k := by
  rw [pageAddress, pageAddress, blockSize_eq, Nat.add_mul, Nat.mul_comm (2 ^ k), Nat.add_assoc]

theorem pageAddress_min (a : Arena) (i j : Nat) :
    min (a.pageAddress i) (a.pageAddress j) = a.pageAddress (min i j) := by
  simp only [pageAddress, pageSize]
  omega

theorem pageExtent_covers (a : Arena) (i : Nat) : (a.pageExtent i).Covers (a.pageAddress i) :=
  Extent.covers_address (show 0 < pageSize by decide)

theorem pageExtent_unique {a : Arena} {i j x : Nat} (hi : (a.pageExtent i).Covers x)
    (hj : (a.pageExtent j).Covers x) : i = j := by
  by_contra hij
  have hapart := a.pageAddress_apart hij
  simp only [Extent.Covers, pageExtent] at hi hj
  omega

structure Sound (a : Arena) : Prop where
  table_pos : 0 < a.tableStart
  table_le : a.tableStart + a.tableSize ≤ a.payloadStart
  payload_eq : a.payloadStart = pageSize * a.base
  stop_eq : a.stop = a.pageAddress a.pages
  stop_lt : a.stop < 2 ^ 64
  pages_pos : 0 < a.pages
  pages_lt : a.pages < noPage

theorem payloadOf_eq_some {start stop payloadStart : Nat}
    (h : payloadOf start stop = .ok (some payloadStart)) :
    ∃ first last, alignUp start pageSize = .ok first ∧ alignDown stop pageSize = .ok last ∧
      first < last ∧ payloadStart < last ∧ pageSize ∣ payloadStart ∧
      first + (last - first) / pageSize * recordSize ≤ payloadStart := by
  obtain ⟨first, hfirst, h⟩ := bind_eq_ok.1 h
  obtain ⟨last, hlast, h⟩ := bind_eq_ok.1 h
  refine ⟨first, last, hfirst, hlast, ?_⟩
  by_cases hempty : last ≤ first
  · simp [hempty] at h
  rw [if_neg hempty] at h
  by_cases hword : 2 ^ 64 ≤ first + (last - first) / pageSize * recordSize
  · simp only [if_pos hword, pure_eq_ok] at h
    cases h
  simp only [if_neg hword] at h
  obtain ⟨payload, hpayload, h⟩ := bind_eq_ok.1 h
  obtain ⟨-, hpayload⟩ := alignUp_eq_ok (k := 12) hpayload
  by_cases hfull : last ≤ payload
  · simp [hfull] at h
  simp only [if_neg hfull, pure_eq_ok, Except.ok.injEq, Option.some.injEq] at h
  subst h
  refine ⟨by omega, by omega, ?_, ?_⟩
  · rw [hpayload]
    exact Nat.dvd_mul_left _ _
  · rw [hpayload]
    omega

theorem sound_of_layOut {start stop : Nat} {a : Arena} (h : layOut start stop = .ok (.ok a)) :
    a.Sound := by
  unfold layOut at h
  by_cases hstart : start = 0
  · simp [hstart] at h
  simp only [if_neg hstart] at h
  obtain ⟨payload?, hpayload, h⟩ := bind_eq_ok.1 h
  cases payload? with
  | none => simp at h
  | some payloadStart =>
      obtain ⟨first, last, hfirst, hlast, hlt, hfits, hdvd, htable⟩ := payloadOf_eq_some hpayload
      simp only [hfirst, hlast, ok_bind, pure_eq_ok] at h
      by_cases hmany : noPage ≤ (last - payloadStart) / pageSize
      · simp [hmany] at h
      simp only [if_neg hmany, Except.ok.injEq] at h
      subst h
      obtain ⟨-, hfirst⟩ := alignUp_eq_ok (k := 12) hfirst
      rw [alignDown_pageSize, Except.ok.injEq] at hlast
      simp only [pageSize, recordSize] at *
      refine ⟨?_, ?_, ?_, ?_, ?_, ?_, ?_⟩ <;>
        simp only [tableSize, base, pageAddress, pageSize, recordSize] <;> omega

section Sound
variable {a : Arena} (ha : a.Sound)
include ha

theorem Sound.pageAddress_eq (i : Nat) : a.pageAddress i = pageSize * (a.base + i) := by
  rw [pageAddress, ha.payload_eq, Nat.mul_add, Nat.mul_comm i]

theorem Sound.payloadStart_pos : 0 < a.payloadStart := by
  have := ha.table_pos
  have := ha.table_le
  omega

theorem Sound.pageAddress_le_stop {i : Nat} (hi : i ≤ a.pages) : a.pageAddress i ≤ a.stop := by
  rw [ha.stop_eq]
  exact Nat.add_le_add_left (Nat.mul_le_mul_right pageSize hi) _

theorem Sound.pageAddress_pos (i : Nat) : 0 < a.pageAddress i :=
  Nat.add_pos_left ha.payloadStart_pos _

theorem Sound.dvd_pageAddress (i : Nat) : pageSize ∣ a.pageAddress i :=
  ⟨_, ha.pageAddress_eq i⟩

theorem Sound.page_lt {i : Nat} (hi : i < a.pages) : a.pageAddress i + pageSize < 2 ^ 64 := by
  have hnext := ha.pageAddress_le_stop (i := i + 1) hi
  have hstop := ha.stop_lt
  rw [pageAddress, Nat.add_mul, Nat.one_mul] at hnext
  rw [pageAddress]
  omega

theorem Sound.addressOf_eq {i : Nat} (hi : i < a.pages) :
    a.addressOf i = .ok (a.pageAddress i) := by
  have hle := ha.pageAddress_le_stop (Nat.le_of_lt hi)
  have hlt := ha.stop_lt
  have hshift : Word.shiftLeft i pageShift = .ok (i * pageSize) := by
    apply Word.shiftLeft_of_lt (by decide)
    change i * pageSize < 2 ^ 64
    rw [pageAddress] at hle
    omega
  rw [addressOf]
  simp only [if_pos hi, hshift, ok_bind]
  exact Word.add_of_lt (by rw [pageAddress] at hle; omega)

theorem Sound.contains_pageAddress {i : Nat} (hi : i < a.pages) :
    a.contains (a.pageAddress i) = true := by
  have hnext := ha.pageAddress_le_stop (i := i + 1) hi
  simp only [pageAddress, pageSize] at hnext
  rw [contains, pageAddress, pageSize]
  exact Bool.and_eq_true_iff.2 ⟨decide_eq_true (by omega), decide_eq_true (by omega)⟩

theorem Sound.indexOf_pageAddress {i : Nat} (hi : i < a.pages) :
    a.indexOf (a.pageAddress i) = .ok i := by
  have haligned : isAligned (a.pageAddress i) pageSize = .ok true := by
    rw [isAligned_pageSize, ha.pageAddress_eq]
    simp
  rw [indexOf]
  simp only [haligned, ok_bind, if_true, pure_eq_ok, ha.contains_pageAddress hi]
  simp [pageAddress, pageSize]

theorem Sound.pageOf_eq {i x : Nat} (hi : i < a.pages) (hlow : a.pageAddress i ≤ x)
    (hhigh : x < a.pageAddress i + pageSize) : a.pageOf x = .ok i := by
  have hdown : x % 2 ^ 64 / pageSize * pageSize = a.pageAddress i := by
    have hnext := ha.pageAddress_le_stop (i := i + 1) hi
    have hstop := ha.stop_lt
    rw [ha.pageAddress_eq] at *
    simp only [pageSize] at *
    omega
  rw [pageOf, alignDown_pageSize, ok_bind, hdown]
  exact ha.indexOf_pageAddress hi

/-- The pair of a block is found by flipping a bit of its page's number. -/
theorem Sound.pageAddress_xor (i order : Nat) :
    a.pageAddress i ^^^ blockSize order = pageSize * ((a.base + i) ^^^ 2 ^ order) := by
  rw [ha.pageAddress_eq, blockSize_eq, pageSize_eq_two_pow]
  simp only [Nat.mul_comm (2 ^ 12), ← Nat.shiftLeft_eq, Nat.shiftLeft_xor_distrib]

theorem Sound.holds_iff {n order : Nat} :
    a.holds (pageSize * n) (blockSize order) = true ↔
      ∃ j, n = a.base + j ∧ j + 2 ^ order ≤ a.pages := by
  have hstop := ha.stop_lt
  have heq := ha.stop_eq
  rw [ha.pageAddress_eq] at heq
  simp only [holds, Bool.and_eq_true, decide_eq_true_eq, ha.payload_eq, blockSize_eq,
    ← Nat.mul_add]
  constructor
  · intro hholds
    obtain ⟨⟨hlow, -⟩, hhigh⟩ := hholds
    rw [heq] at hhigh
    have hlow := Nat.le_of_mul_le_mul_left hlow (by decide)
    have hhigh := Nat.le_of_mul_le_mul_left hhigh (by decide)
    exact ⟨n - a.base, by omega, by omega⟩
  · intro hpage
    obtain ⟨j, rfl, hj⟩ := hpage
    have hhigh : pageSize * (a.base + j + 2 ^ order) ≤ a.stop := by
      rw [heq]
      exact Nat.mul_le_mul_left _ (by omega)
    exact ⟨⟨Nat.mul_le_mul_left _ (by omega), by omega⟩, hhigh⟩

end Sound
end Arena
end BuddySlab
