import BuddySlab.Proofs.Threads
import Mathlib.Data.List.Perm.Basic
import Mathlib.Data.List.Range
import Mathlib.Algebra.Ring.Nat

/-!
Blocks of pages as pieces of a payload. A block of order `k` has `2 ^ k` pages and begins at a
multiple of `2 ^ k`, counted from the start of the address space, so two blocks either are apart or
one contains the other. A tiling has every page of the payload in one block; halving a block and
joining a pair lead from tilings to tilings. Where no pair is free as a whole, whatever aligned
range is free lies in a single free block.
-/

namespace BuddySlab

structure Block where
  first : Nat
  order : Nat
  deriving DecidableEq, Repr

namespace Block

def pages (b : Block) : List Nat :=
  List.range' b.first (2 ^ b.order)

def Aligned (base : Nat) (b : Block) : Prop :=
  2 ^ b.order ∣ base + b.first

theorem mem_pages {b : Block} {j : Nat} :
    j ∈ b.pages ↔ b.first ≤ j ∧ j < b.first + 2 ^ b.order := by
  rw [pages, List.mem_range'_1]

theorem first_mem_pages (b : Block) : b.first ∈ b.pages :=
  mem_pages.2 ⟨Nat.le_refl _, Nat.lt_add_of_pos_right (Nat.two_pow_pos _)⟩

theorem pages_halves (i k : Nat) : pages ⟨i, k + 1⟩ = pages ⟨i, k⟩ ++ pages ⟨i + 2 ^ k, k⟩ := by
  simp only [pages, List.range'_append_1, Nat.pow_succ, Nat.mul_two]

/-- The pages of an aligned block share all bits of their numbers but the lowest. -/
theorem Aligned.mem_pages_iff {base j : Nat} {b : Block} (h : b.Aligned base) :
    j ∈ b.pages ↔ (base + j) / 2 ^ b.order = (base + b.first) / 2 ^ b.order := by
  obtain ⟨q, hq⟩ := h
  have hpos := Nat.two_pow_pos b.order
  rw [mem_pages, hq, Nat.mul_div_cancel_left q hpos]
  rw [Nat.div_eq_iff hpos, Nat.mul_comm q]
  omega

/-- An aligned block that meets a smaller one contains it. -/
theorem Aligned.pages_subset {base j : Nat} {b c : Block} (hb : b.Aligned base)
    (hc : c.Aligned base) (hle : b.order ≤ c.order) (hjb : j ∈ b.pages) (hjc : j ∈ c.pages) :
    b.pages ⊆ c.pages := by
  obtain ⟨d, hd⟩ := Nat.exists_eq_add_of_le hle
  intro m hm
  rw [hb.mem_pages_iff] at hjb hm
  rw [hc.mem_pages_iff] at hjc ⊢
  rw [hd, Nat.pow_add, ← Nat.div_div_eq_div_mul, ← Nat.div_div_eq_div_mul] at hjc ⊢
  rw [← hjc, hm, hjb]

theorem Aligned.eq_of_meet {base j : Nat} {b c : Block} (hb : b.Aligned base)
    (hc : c.Aligned base) (horder : b.order = c.order) (hjb : j ∈ b.pages) (hjc : j ∈ c.pages) :
    b = c := by
  have hle := mem_pages.1 (hb.pages_subset hc (Nat.le_of_eq horder) hjb hjc b.first_mem_pages)
  have hge := mem_pages.1 (hc.pages_subset hb (Nat.le_of_eq horder.symm) hjc hjb c.first_mem_pages)
  cases b
  cases c
  simp only at horder hle hge
  rw [Block.mk.injEq]
  exact ⟨by omega, horder⟩

/-- The halves of an aligned block are aligned. -/
theorem Aligned.left {base i k : Nat} (h : Aligned base ⟨i, k + 1⟩) : Aligned base ⟨i, k⟩ :=
  Nat.dvd_trans (Nat.pow_dvd_pow 2 (Nat.le_succ k)) h

theorem Aligned.right {base i k : Nat} (h : Aligned base ⟨i, k + 1⟩) :
    Aligned base ⟨i + 2 ^ k, k⟩ := by
  change 2 ^ k ∣ base + (i + 2 ^ k)
  rw [← Nat.add_assoc]
  exact Nat.dvd_add h.left (Nat.dvd_refl _)

end Block

/-- The two blocks of order `k` that begin at these pages are the halves of a block. -/
def Paired (base k i j : Nat) : Prop :=
  base + j = (base + i) ^^^ 2 ^ k

instance (base k i j : Nat) : Decidable (Paired base k i j) :=
  inferInstanceAs (Decidable (_ = _))

section Paired
variable {base k i j : Nat}

theorem xor_one (q : Nat) : q ^^^ 1 = if q % 2 = 0 then q + 1 else q - 1 := by
  have hdiv : (q ^^^ 1) / 2 = q / 2 := by
    rw [Nat.xor_div_two, show 1 / 2 = 0 from rfl, Nat.xor_zero]
  have hmod : (q ^^^ 1) % 2 = 1 ↔ ¬q % 2 = 1 := by
    rw [Nat.xor_mod_two_eq_one]
    simp
  split <;> omega

theorem Paired.symm (h : Paired base k i j) : Paired base k j i := by
  rw [Paired, h, Nat.xor_assoc, Nat.xor_self, Nat.xor_zero]

theorem Paired.unique {m : Nat} (hj : Paired base k i j) (hm : Paired base k i m) : j = m :=
  Nat.add_left_cancel (Eq.trans hj (Eq.symm hm))

theorem paired_iff (hi : 2 ^ k ∣ base + i) :
    Paired base k i j ↔
      (2 ^ (k + 1) ∣ base + i ∧ j = i + 2 ^ k) ∨ (2 ^ (k + 1) ∣ base + j ∧ i = j + 2 ^ k) := by
  obtain ⟨q, hq⟩ := hi
  have hpos := Nat.two_pow_pos k
  have hxor : (base + i) ^^^ 2 ^ k = 2 ^ k * (q ^^^ 1) := by
    rw [hq, Nat.mul_comm, Nat.mul_comm (2 ^ k), ← Nat.shiftLeft_eq, ← Nat.shiftLeft_eq,
      Nat.shiftLeft_xor_distrib, Nat.one_shiftLeft]
  have heven {x : Nat} : 2 ^ (k + 1) ∣ 2 ^ k * x ↔ 2 ∣ x := by
    rw [Nat.pow_succ]
    exact Nat.mul_dvd_mul_iff_left hpos
  rw [Paired, hxor, xor_one]
  constructor
  · intro hj
    split at hj
    · rename_i hmod
      rw [Nat.mul_add] at hj
      exact .inl ⟨hq ▸ heven.2 (Nat.dvd_of_mod_eq_zero hmod), by omega⟩
    · rename_i hmod
      refine .inr ⟨hj ▸ heven.2 (by omega), ?_⟩
      have hq' : 2 ^ k * q = 2 ^ k * (q - 1) + 2 ^ k := by
        rw [← Nat.mul_succ]
        congr 1
        omega
      omega
  · intro hhalves
    cases hhalves with
    | inl hleft =>
        obtain ⟨hdvd, rfl⟩ := hleft
        rw [hq, heven] at hdvd
        rw [if_pos (Nat.mod_eq_zero_of_dvd hdvd), Nat.mul_add]
        omega
    | inr hright =>
        obtain ⟨⟨r, hr⟩, rfl⟩ := hright
        have hq' : q = 2 * r + 1 := by
          apply Nat.eq_of_mul_eq_mul_left hpos
          rw [← hq, ← Nat.add_assoc, hr, Nat.pow_succ, Nat.mul_add, Nat.mul_assoc, Nat.mul_one]
        rw [if_neg (by omega), hr, hq', Nat.add_sub_cancel, Nat.pow_succ, Nat.mul_assoc]

theorem paired_right (hi : 2 ^ (k + 1) ∣ base + i) : Paired base k i (i + 2 ^ k) :=
  (paired_iff (Nat.dvd_trans (Nat.pow_dvd_pow 2 (Nat.le_succ k)) hi)).2 (.inl ⟨hi, rfl⟩)

theorem Paired.ne (h : Paired base k i j) (hi : 2 ^ k ∣ base + i) : i ≠ j := by
  have hpos := Nat.two_pow_pos k
  have hhalves := (paired_iff hi).1 h
  omega

end Paired

theorem perm_flatMap_of_one {α β : Type} {f g : α → List β} {ks : List α} {k : α} {x : β}
    (hnodup : ks.Nodup) (hk : k ∈ ks) (hkeep : ∀ j ∈ ks, j ≠ k → f j = g j)
    (hone : (f k).Perm (x :: g k)) : (ks.flatMap f).Perm (x :: ks.flatMap g) := by
  induction ks with
  | nil => cases hk
  | cons j rest ih =>
      rw [List.nodup_cons] at hnodup
      simp only [List.flatMap_cons]
      by_cases hjk : j = k
      · have hrest : rest.flatMap f = rest.flatMap g :=
          List.flatMap_congr fun m hm =>
            hkeep m (List.mem_cons_of_mem j hm) fun hmk => hnodup.1 (hjk ▸ hmk ▸ hm)
        rw [hrest, hjk]
        exact hone.append_right _
      · have hmem : k ∈ rest := (List.mem_cons.1 hk).resolve_left (Ne.symm hjk)
        have hrest := ih hnodup.2 hmem fun m hm => hkeep m (List.mem_cons_of_mem j hm)
        rw [hkeep j List.mem_cons_self hjk]
        exact (hrest.append_left (g j)).trans List.perm_middle

namespace Listing
variable {l : Listing} {i k : Nat}

/-- All the blocks listed. -/
def blocks (l : Listing) : List Block :=
  (List.range orderCount).flatMap fun k => (l k).map (Block.mk · k)

theorem mem_blocks {b : Block} : b ∈ l.blocks ↔ b.order < orderCount ∧ b.first ∈ l b.order := by
  simp only [blocks, List.mem_flatMap, List.mem_range, List.mem_map]
  constructor
  · intro hlisted
    obtain ⟨k, hk, i, hi, rfl⟩ := hlisted
    exact ⟨hk, hi⟩
  · intro hlisted
    exact ⟨b.order, hlisted.1, b.first, hlisted.2, rfl⟩

theorem blocks_put (hk : k < orderCount) : ((l.put k i).blocks).Perm (⟨i, k⟩ :: l.blocks) := by
  refine perm_flatMap_of_one List.nodup_range (List.mem_range.2 hk) (fun j _ hj => ?_) ?_
  · rw [put_apply, if_neg hj]
  · rw [put_apply, if_pos rfl]
    exact .refl _

theorem blocks_drop (hk : k < orderCount) (hi : i ∈ l k) :
    l.blocks.Perm (⟨i, k⟩ :: (l.drop k i).blocks) := by
  refine perm_flatMap_of_one List.nodup_range (List.mem_range.2 hk) (fun j _ hj => ?_) ?_
  · rw [drop_apply, if_neg hj]
  · rw [drop_apply, if_pos rfl]
    exact (List.perm_cons_erase hi).map _

/-- No two blocks listed are the halves of one. -/
def Unpaired (l : Listing) (base : Nat) : Prop :=
  ∀ k < maxOrder, ∀ i ∈ l k, ∀ j ∈ l k, ¬Paired base k i j

theorem Unpaired.drop {base : Nat} (h : l.Unpaired base) : (l.drop k i).Unpaired base := by
  have hmem {m j : Nat} (hm : m ∈ l.drop k i j) : m ∈ l j := by
    rw [drop_apply] at hm
    split at hm
    · rename_i hj
      exact hj ▸ List.mem_of_mem_erase hm
    · exact hm
  exact fun n hn m hm j hj => h n hn m (hmem hm) j (hmem hj)

theorem Unpaired.put {base : Nat} (h : l.Unpaired base) (hi : 2 ^ k ∣ base + i)
    (hnew : k < maxOrder → ∀ j ∈ l k, ¬Paired base k i j) : (l.put k i).Unpaired base := by
  intro n hn m hm j hj hpair
  rw [put_apply] at hm hj
  split at hm
  · rename_i hnk
    subst hnk
    rw [if_pos rfl] at hj
    cases hm with
    | head =>
        cases hj with
        | head => exact hpair.ne hi rfl
        | tail _ hj => exact hnew hn j hj hpair
    | tail _ hm =>
        cases hj with
        | head => exact hnew hn m hm hpair.symm
        | tail _ hj => exact h n hn m hm j hj hpair
  · rename_i hnk
    rw [if_neg hnk] at hj
    exact h n hn m hm j hj hpair

/-- The block is aligned, and all its pages are in blocks listed. -/
def Whole (l : Listing) (base : Nat) (b : Block) : Prop :=
  b.Aligned base ∧ ∀ j ∈ b.pages, ∃ d ∈ l.blocks, j ∈ d.pages

end Listing

/-- The blocks are aligned, and each page of the payload is in exactly one of them. -/
structure Tiles (base pages : Nat) (bs : List Block) : Prop where
  aligned : ∀ b ∈ bs, b.Aligned base
  order_le : ∀ b ∈ bs, b.order ≤ maxOrder
  perm : (bs.flatMap Block.pages).Perm (List.range pages)

namespace Tiles
variable {base pages i j k : Nat} {b c : Block} {bs cs : List Block}

theorem of_perm (h : Tiles base pages bs) (hperm : cs.Perm bs) : Tiles base pages cs :=
  ⟨fun b hb => h.aligned b (hperm.mem_iff.1 hb), fun b hb => h.order_le b (hperm.mem_iff.1 hb),
    (hperm.flatMap_right _).trans h.perm⟩

theorem exists_block (h : Tiles base pages bs) (hj : j < pages) : ∃ b ∈ bs, j ∈ b.pages :=
  List.mem_flatMap.1 (h.perm.mem_iff.2 (List.mem_range.2 hj))

theorem page_lt (h : Tiles base pages bs) (hb : b ∈ bs) (hj : j ∈ b.pages) : j < pages :=
  List.mem_range.1 (h.perm.mem_iff.1 (List.mem_flatMap.2 ⟨b, hb, hj⟩))

theorem last_le (h : Tiles base pages bs) (hb : b ∈ bs) : b.first + 2 ^ b.order ≤ pages := by
  have hpos := Nat.two_pow_pos b.order
  have hlast : b.first + 2 ^ b.order - 1 ∈ b.pages := Block.mem_pages.2 (by omega)
  have := h.page_lt hb hlast
  omega

theorem pairwise (h : Tiles base pages bs) :
    bs.Pairwise fun b c => List.Disjoint b.pages c.pages :=
  (List.nodup_flatMap.1 (h.perm.nodup_iff.2 List.nodup_range)).2

theorem nodup (h : Tiles base pages bs) : bs.Nodup := by
  refine h.pairwise.imp fun {b c} hdisjoint heq => ?_
  subst heq
  exact hdisjoint b.first_mem_pages b.first_mem_pages

theorem first_not_mem (h : Tiles base pages (b :: bs)) (hc : c ∈ bs) : c.first ∉ b.pages :=
  fun hfirst => (List.pairwise_cons.1 h.pairwise).1 c hc hfirst c.first_mem_pages

/-- A page is in no more than one block. -/
theorem unique (h : Tiles base pages bs) (hb : b ∈ bs) (hc : c ∈ bs) (hjb : j ∈ b.pages)
    (hjc : j ∈ c.pages) : b = c := by
  by_contra hne
  have : Std.Symm fun b c : Block => List.Disjoint b.pages c.pages :=
    ⟨fun _ _ hdisjoint _ hj hj' => hdisjoint hj' hj⟩
  exact h.pairwise.forall hb hc hne hjb hjc

/-- The blocks have as many pages as the payload. -/
theorem sum_pages (h : Tiles base pages bs) : (bs.map fun b => 2 ^ b.order).sum = pages := by
  have hlength := h.perm.length_eq
  rw [List.length_flatMap, List.length_range] at hlength
  rw [← hlength]
  refine congrArg List.sum (List.map_congr_left fun b _ => ?_)
  rw [Block.pages, List.length_range']

theorem halve (h : Tiles base pages (⟨i, k + 1⟩ :: bs)) :
    Tiles base pages (⟨i, k⟩ :: ⟨i + 2 ^ k, k⟩ :: bs) := by
  obtain ⟨haligned, haligned'⟩ := List.forall_mem_cons.1 h.aligned
  obtain ⟨horder, horder'⟩ := List.forall_mem_cons.1 h.order_le
  have hhalf : k ≤ maxOrder := Nat.le_of_succ_le horder
  refine ⟨?_, ?_, ?_⟩
  · simp only [List.forall_mem_cons]
    exact ⟨haligned.left, haligned.right, haligned'⟩
  · simp only [List.forall_mem_cons]
    exact ⟨hhalf, hhalf, horder'⟩
  · have hperm := h.perm
    rw [List.flatMap_cons, Block.pages_halves, List.append_assoc] at hperm
    exact hperm

theorem join_halves (h : Tiles base pages (⟨i, k⟩ :: ⟨i + 2 ^ k, k⟩ :: bs)) (hk : k < maxOrder)
    (hi : 2 ^ (k + 1) ∣ base + i) : Tiles base pages (⟨i, k + 1⟩ :: bs) := by
  have haligned := h.aligned
  have horder := h.order_le
  simp only [List.forall_mem_cons] at haligned horder
  refine ⟨?_, ?_, ?_⟩
  · exact List.forall_mem_cons.2 ⟨hi, haligned.2.2⟩
  · exact List.forall_mem_cons.2 ⟨hk, horder.2.2⟩
  · have hperm := h.perm
    rw [List.flatMap_cons, List.flatMap_cons, ← List.append_assoc, ← Block.pages_halves] at hperm
    exact hperm

theorem join (h : Tiles base pages (⟨i, k⟩ :: ⟨j, k⟩ :: bs)) (hk : k < maxOrder)
    (hpair : Paired base k i j) : Tiles base pages (⟨min i j, k + 1⟩ :: bs) := by
  have hi : 2 ^ k ∣ base + i := h.aligned ⟨i, k⟩ List.mem_cons_self
  cases (paired_iff hi).1 hpair with
  | inl hleft =>
      obtain ⟨hdvd, rfl⟩ := hleft
      rw [Nat.min_eq_left (Nat.le_add_right _ _)]
      exact h.join_halves hk hdvd
  | inr hright =>
      obtain ⟨hdvd, rfl⟩ := hright
      rw [Nat.min_eq_right (Nat.le_add_right _ _)]
      exact (h.of_perm (List.Perm.swap _ _ _)).join_halves hk hdvd

/-- Whatever aligned range is free as a whole lies in one free block, if no pair is free. -/
theorem exists_free_block {l : Listing} (h : Tiles base pages (l.blocks ++ bs))
    (hun : l.Unpaired base) (hk : k ≤ maxOrder) (hwhole : l.Whole base ⟨i, k⟩) :
    ∃ b ∈ l.blocks, k ≤ b.order ∧ Block.pages ⟨i, k⟩ ⊆ b.pages := by
  obtain ⟨hi, hfree⟩ := hwhole
  induction k generalizing i with
  | zero =>
      obtain ⟨b, hb, hib⟩ := hfree i (Block.first_mem_pages ⟨i, 0⟩)
      refine ⟨b, hb, Nat.zero_le _, fun j hj => ?_⟩
      rw [Block.mem_pages] at hj
      rwa [show j = i by simp only [Nat.pow_zero] at hj; omega]
  | succ k ih =>
      rw [Block.pages_halves] at hfree
      obtain ⟨b, hb, hkb, hib⟩ := ih (Nat.le_of_succ_le hk) hi.left
        fun j hj => hfree j (List.mem_append_left _ hj)
      obtain ⟨c, hc, hkc, hic⟩ := ih (Nat.le_of_succ_le hk) hi.right
        fun j hj => hfree j (List.mem_append_right _ hj)
      have halignedb := h.aligned b (List.mem_append_left _ hb)
      have halignedc := h.aligned c (List.mem_append_left _ hc)
      -- a block of more than the order of a half contains the whole
      by_cases hb' : k + 1 ≤ b.order
      · refine ⟨b, hb, hb', Block.Aligned.pages_subset (b := ⟨i, k + 1⟩) hi halignedb hb'
          (Block.first_mem_pages _) (hib (Block.first_mem_pages ⟨i, k⟩))⟩
      by_cases hc' : k + 1 ≤ c.order
      · refine ⟨c, hc, hc', Block.Aligned.pages_subset (b := ⟨i, k + 1⟩) (j := i + 2 ^ k) hi
          halignedc hc' ?_ (hic (Block.first_mem_pages ⟨i + 2 ^ k, k⟩))⟩
        have := Nat.two_pow_pos k
        exact Block.mem_pages.2 (by simp only [Nat.pow_succ]; omega)
      -- otherwise both halves are free blocks, and they are a pair
      · have hbeq : b = ⟨i, k⟩ := halignedb.eq_of_meet (c := ⟨i, k⟩) hi.left
          (show b.order = k by omega) (hib (Block.first_mem_pages ⟨i, k⟩))
          (Block.first_mem_pages ⟨i, k⟩)
        have hceq : c = ⟨i + 2 ^ k, k⟩ := halignedc.eq_of_meet (c := ⟨i + 2 ^ k, k⟩) hi.right
          (show c.order = k by omega) (hic (Block.first_mem_pages ⟨i + 2 ^ k, k⟩))
          (Block.first_mem_pages ⟨i + 2 ^ k, k⟩)
        rw [hbeq] at hb
        rw [hceq] at hc
        exact absurd (paired_right hi)
          (hun k hk i (Listing.mem_blocks.1 hb).2 _ (Listing.mem_blocks.1 hc).2)

/-- The free blocks are the maximal aligned ranges that are free as a whole. -/
theorem mem_free_iff {l : Listing} (h : Tiles base pages (l.blocks ++ bs)) (hun : l.Unpaired base)
    (hk : k ≤ maxOrder) :
    i ∈ l k ↔ l.Whole base ⟨i, k⟩ ∧ (k < maxOrder → ∀ m,
      base + m = (base + i) / 2 ^ (k + 1) * 2 ^ (k + 1) → ¬l.Whole base ⟨m, k + 1⟩) := by
  have hmem {m : Nat} (hm : base + m = (base + i) / 2 ^ (k + 1) * 2 ^ (k + 1)) :
      Block.Aligned base ⟨m, k + 1⟩ ∧ i ∈ Block.pages ⟨m, k + 1⟩ := by
    have haligned : Block.Aligned base ⟨m, k + 1⟩ := ⟨_, hm.trans (Nat.mul_comm _ _)⟩
    refine ⟨haligned, haligned.mem_pages_iff.2 ?_⟩
    rw [hm, Nat.mul_div_cancel _ (Nat.two_pow_pos (k + 1))]
  constructor
  · intro hi
    have hb : (⟨i, k⟩ : Block) ∈ l.blocks := Listing.mem_blocks.2 ⟨Nat.lt_succ_of_le hk, hi⟩
    refine ⟨⟨h.aligned _ (List.mem_append_left _ hb), fun j hj => ⟨_, hb, hj⟩⟩, ?_⟩
    intro hlt m hm hwhole
    obtain ⟨b, hb', hle, hsub⟩ := h.exists_free_block hun hlt hwhole
    have heq := h.unique (List.mem_append_left _ hb') (List.mem_append_left _ hb) (hsub (hmem hm).2)
      (Block.first_mem_pages ⟨i, k⟩)
    rw [heq] at hle
    exact Nat.lt_irrefl k hle
  · intro hmaximal
    obtain ⟨hwhole, hmax⟩ := hmaximal
    obtain ⟨b, hb, hle, hsub⟩ := h.exists_free_block hun hk hwhole
    have haligned := h.aligned b (List.mem_append_left _ hb)
    have hib : i ∈ b.pages := hsub (Block.first_mem_pages ⟨i, k⟩)
    cases Nat.eq_or_lt_of_le hle with
    | inl heq =>
        have hbi := haligned.eq_of_meet hwhole.1 heq.symm hib (Block.first_mem_pages ⟨i, k⟩)
        exact (Listing.mem_blocks.1 (hbi ▸ hb)).2
    | inr hlt =>
        -- the range of the next order around it would be free as a whole
        have horder := h.order_le b (List.mem_append_left _ hb)
        have hlow : base + b.first ≤ (base + i) / 2 ^ (k + 1) * 2 ^ (k + 1) := by
          obtain ⟨q, hq⟩ := Nat.dvd_trans (Nat.pow_dvd_pow 2 hlt) haligned
          have hfirst := (Block.mem_pages.1 hib).1
          rw [hq, Nat.mul_comm]
          refine Nat.mul_le_mul_right _ ((Nat.le_div_iff_mul_le (Nat.two_pow_pos _)).2 ?_)
          rw [Nat.mul_comm, ← hq]
          omega
        obtain ⟨m, hm⟩ := Nat.exists_eq_add_of_le (Nat.le_trans (Nat.le_add_right base _) hlow)
        obtain ⟨hm', him⟩ := hmem hm.symm
        have hsub' := hm'.pages_subset haligned hlt him hib
        exact absurd ⟨hm', fun j hj => ⟨b, hb, hsub' hj⟩⟩ (hmax (by omega) m hm.symm)

end Tiles
end BuddySlab
