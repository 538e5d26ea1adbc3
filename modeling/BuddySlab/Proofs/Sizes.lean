import BuddySlab.Proofs.SlabPage

/-!
Which sizes are served, and by what. A size that is not zero and not above the largest block is
rounded to the least power of two that holds it; that is an object class or the size of a block, and
then the class, or the order, is the one the tiers look up.
-/

namespace BuddySlab

theorem nextPowerOfTwo?_eq {n : Nat} (hn : n ≤ 2 ^ 63) :
    ∃ e, nextPowerOfTwo? n = some (2 ^ e) ∧ ∀ d, e ≤ d ↔ n ≤ 2 ^ d := by
  by_cases hone : n ≤ 1
  · refine ⟨0, if_pos hone, fun d => iff_of_true (Nat.zero_le d) ?_⟩
    exact Nat.le_trans hone (Nat.two_pow_pos d)
  · refine ⟨(n - 1).log2 + 1, by rw [nextPowerOfTwo?, if_neg hone, if_pos hn], fun d => ?_⟩
    rw [Nat.add_one_le_iff, Nat.log2_lt (by omega)]
    omega

theorem nextPowerOfTwo?_of_lt {n : Nat} (hn : 2 ^ 63 < n) : nextPowerOfTwo? n = none := by
  rw [nextPowerOfTwo?, if_neg (by omega), if_neg (by omega)]

theorem maxBlockSize_eq : maxBlockSize = 2 ^ 24 := rfl

theorem minObjectSize_eq : minObjectSize = 2 ^ 3 := rfl

theorem roundSize_zero : roundSize 0 = .error .invalidSize := rfl

theorem roundSize_of_lt {n : Nat} (hn : maxBlockSize < n) : roundSize n = .error .invalidSize := by
  rw [maxBlockSize_eq] at hn
  rw [roundSize, if_neg (by omega)]
  by_cases hword : n ≤ 2 ^ 63
  · obtain ⟨e, hnext, hleast⟩ := nextPowerOfTwo?_eq hword
    have he : 24 < e := by
      by_contra hle
      exact absurd ((hleast 24).1 (by omega)) (by omega)
    have hpow : 2 ^ 24 < 2 ^ e := Nat.pow_lt_pow_right (by decide) he
    simp only [roundToClass?, hnext, Option.map_some]
    rw [if_neg (by rw [maxBlockSize_eq]; omega)]
  · simp only [roundToClass?, nextPowerOfTwo?_of_lt (Nat.lt_of_not_le hword), Option.map_none]

/-- The least power of two that holds the request and is not below the smallest class. -/
theorem roundSize_eq_two_pow {n : Nat} (hpos : n ≠ 0) (hn : n ≤ maxBlockSize) :
    ∃ e, 3 ≤ e ∧ e ≤ 24 ∧ roundSize n = .ok (2 ^ e) ∧ ∀ d, e ≤ d ↔ 3 ≤ d ∧ n ≤ 2 ^ d := by
  rw [maxBlockSize_eq] at hn
  obtain ⟨e, hnext, hleast⟩ := nextPowerOfTwo?_eq (Nat.le_trans hn (by decide))
  have he : e ≤ 24 := (hleast 24).2 hn
  have hmax : max minObjectSize (2 ^ e) = 2 ^ max 3 e := by
    rw [minObjectSize_eq]
    cases Nat.le_total 3 e with
    | inl h => rw [Nat.max_eq_right h, Nat.max_eq_right (Nat.pow_le_pow_right (by decide) h)]
    | inr h => rw [Nat.max_eq_left h, Nat.max_eq_left (Nat.pow_le_pow_right (by decide) h)]
  refine ⟨max 3 e, Nat.le_max_left 3 e, Nat.max_le.2 ⟨by decide, he⟩, ?_, fun d => ?_⟩
  · simp only [roundSize, if_neg hpos, roundToClass?, hnext, Option.map_some, hmax]
    rw [if_pos]
    rw [maxBlockSize_eq]
    exact Nat.pow_le_pow_right (by decide) (Nat.max_le.2 ⟨by decide, he⟩)
  · rw [Nat.max_le, hleast]

theorem roundSize_eq_error_iff {n : Nat} {refusal : Refusal} :
    roundSize n = .error refusal ↔ refusal = .invalidSize ∧ (n = 0 ∨ maxBlockSize < n) := by
  by_cases hzero : n = 0
  · subst hzero
    simp [roundSize_zero, eq_comm]
  by_cases hn : maxBlockSize < n
  · simp [roundSize_of_lt hn, hn, eq_comm]
  · obtain ⟨e, -, -, hround, -⟩ := roundSize_eq_two_pow hzero (Nat.le_of_not_lt hn)
    simp [hround, hzero, hn]

theorem exists_two_pow_of_roundSize {n rounded : Nat} (h : roundSize n = .ok rounded) :
    ∃ e, 3 ≤ e ∧ e ≤ 24 ∧ rounded = 2 ^ e ∧ ∀ d, e ≤ d ↔ 3 ≤ d ∧ n ≤ 2 ^ d := by
  have hvalid : ¬(n = 0 ∨ maxBlockSize < n) := fun hinvalid => by
    rw [roundSize_eq_error_iff.2 ⟨rfl, hinvalid⟩] at h
    cases h
  obtain ⟨e, hlow, hhigh, hround, hleast⟩ :=
    roundSize_eq_two_pow (fun hzero => hvalid (.inl hzero)) (by omega)
  rw [hround, Except.ok.injEq] at h
  exact ⟨e, hlow, hhigh, h.symm, hleast⟩

/-- What is served is an object of one of the classes or a block of one of the orders. -/
theorem roundSize_eq_ok {n rounded : Nat} (h : roundSize n = .ok rounded) :
    n ≤ rounded ∧ ((∃ i : Fin classSizes.size, rounded = classSizes.get i) ∨
      ∃ k ≤ maxOrder, rounded = blockSize k) := by
  obtain ⟨e, hlow, hhigh, rfl, hleast⟩ := exists_two_pow_of_roundSize h
  refine ⟨((hleast e).1 (Nat.le_refl e)).2, ?_⟩
  by_cases hobject : e < 12
  · refine .inl ⟨⟨e - 3, show e - 3 < 9 by omega⟩, ?_⟩
    rw [Slab.classSizes_eq]
    congr 1
    change e = e - 3 + 3
    omega
  · refine .inr ⟨e - 12, by simp only [maxOrder]; omega, ?_⟩
    rw [blockSize_eq, pageSize_eq_two_pow, ← Nat.pow_add]
    congr 1
    omega

theorem classSizes_lt (i : Fin classSizes.size) : classSizes.get i < pageSize :=
  (Slab.fits_class i).lt_page

theorem pageSize_le_blockSize (order : Nat) : pageSize ≤ blockSize order := by
  rw [blockSize_eq]
  exact Nat.le_mul_of_pos_right pageSize (Nat.two_pow_pos order)

theorem orderForPages_le_iff {pages k : Nat} : orderForPages pages ≤ k ↔ pages ≤ 2 ^ k := by
  by_cases hone : pages ≤ 1
  · rw [orderForPages, if_pos hone]
    exact iff_of_true (Nat.zero_le k) (Nat.le_trans hone (Nat.two_pow_pos k))
  · rw [orderForPages, if_neg hone, Nat.add_one_le_iff, Nat.log2_lt (by omega)]
    omega

theorem orderForPages_two_pow (k : Nat) : orderForPages (2 ^ k) = k := by
  have hholds (d : Nat) : orderForPages (2 ^ k) ≤ d ↔ k ≤ d := by
    rw [orderForPages_le_iff, Nat.pow_le_pow_iff_right (by decide)]
  exact Nat.le_antisymm ((hholds k).2 (Nat.le_refl k)) ((hholds _).1 (Nat.le_refl _))

theorem pagesFor_blockSize (order : Nat) : pagesFor (blockSize order) = 2 ^ order := by
  rw [pagesFor, blockSize_eq, Nat.mul_add_div (by decide)]
  rfl

theorem orderFor_blockSize (order : Nat) : orderForPages (pagesFor (blockSize order)) = order := by
  rw [pagesFor_blockSize, orderForPages_two_pow]

theorem classSizes_strictMono :
    ∀ i j : Fin classSizes.size, i < j → classSizes.get i < classSizes.get j := by
  decide

theorem classSizes_inj :
    ∀ i j : Fin classSizes.size, classSizes.get i = classSizes.get j → i = j := by
  decide

/-- The first class that holds the size is found. -/
theorem class?_of_least {s : CacheSet}
    (hs : ∀ i : Fin classSizes.size, (s.get i).objectSize = classSizes.get i)
    {i : Fin classSizes.size} {n : Nat} (hle : n ≤ classSizes.get i)
    (hleast : ∀ j < i, classSizes.get j < n) : s.class? n = some i := by
  rw [CacheSet.class?, Vector.findFinIdx?, Option.map_eq_some_iff]
  refine ⟨i.cast s.size_toArray.symm, ?_, rfl⟩
  rw [Array.findFinIdx?_eq_some_iff]
  refine ⟨decide_eq_true ((hs i).symm ▸ hle), fun j hj hholds => ?_⟩
  have hholds : n ≤ (s.get (j.cast s.size_toArray)).objectSize := of_decide_eq_true hholds
  rw [hs] at hholds
  exact absurd (hleast _ hj) (Nat.not_lt.2 hholds)

/-- Each class is found by its own size. -/
theorem class?_eq {s : CacheSet}
    (hs : ∀ i : Fin classSizes.size, (s.get i).objectSize = classSizes.get i)
    (i : Fin classSizes.size) : s.class? (classSizes.get i) = some i :=
  class?_of_least hs (Nat.le_refl _) fun j hj => classSizes_strictMono j i hj

end BuddySlab
