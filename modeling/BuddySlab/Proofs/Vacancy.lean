import BuddySlab.Proofs.Ownership

/-!
Full coalescing. Which pages are vacant decides which blocks are free: at every point of a run the
free blocks of an order are the aligned ranges of that size whose pages are all vacant and whose
enclosing range of the next order is not such a range. So the free blocks do not depend on how the
pages came to be held.
-/

namespace BuddySlab
namespace Ledger

/-- The page that begins at this address is in a held block or is a slab. -/
def Taken (s : Ledger) (v : Survey) (address : Nat) : Prop :=
  (∃ e ∈ s.heldBlocks, e.Covers address) ∨ ∃ i, address ∈ v.slabs i

/-- A page of the payload that is not taken begins at this address. -/
def Vacant (s : Ledger) (v : Survey) (address : Nat) : Prop :=
  (∃ j < s.pool.arena.pages, address = s.pool.arena.pageAddress j) ∧ ¬s.Taken v address

/-- A range that begins at a multiple of its size, with vacant pages only. -/
def AllVacant (s : Ledger) (v : Survey) (address size : Nat) : Prop :=
  size ∣ address ∧ ∀ n, n * pageSize < size → s.Vacant v (address + n * pageSize)

namespace Charts
variable {s : Ledger} {c : Chart} {j k : Nat}

theorem taken_iff (h : s.Charts c) :
    s.Taken (c.survey s.pool.arena) (s.pool.arena.pageAddress j) ↔ ∃ b ∈ c.used, j ∈ b.pages := by
  have hcovers := s.pool.arena.pageExtent_covers j
  rw [Taken, Chart.exists_mem_survey_slabs]
  constructor
  · intro htaken
    cases htaken with
    | inl hheld =>
        obtain ⟨e, he, hej⟩ := hheld
        obtain ⟨b, hb, rfl⟩ := List.mem_map.1 (h.heldBlocks_perm.mem_iff.1 he)
        obtain ⟨m, hm, hmj⟩ := Block.covers_extent_iff.1 hej
        exact ⟨b, List.mem_append_left _ hb, Arena.pageExtent_unique hmj hcovers ▸ hm⟩
    | inr hslab =>
        have hused := List.mem_append_right c.blocks (List.mem_map_of_mem (f := (Block.mk · 0)) hslab)
        exact ⟨⟨j, 0⟩, hused, Block.first_mem_pages _⟩
  · intro hused
    obtain ⟨b, hb, hj⟩ := hused
    cases List.mem_append.1 hb with
    | inl hb =>
        have he := h.heldBlocks_perm.mem_iff.2 (List.mem_map_of_mem hb)
        exact .inl ⟨_, he, Block.covers_extent_iff.2 ⟨j, hj, hcovers⟩⟩
    | inr hb =>
        obtain ⟨page, hpage, rfl⟩ := List.mem_map.1 hb
        obtain rfl : j = page := by
          rw [Block.mem_pages] at hj
          simp only [Nat.pow_zero] at hj
          omega
        exact .inr hpage

theorem vacant_iff (h : s.Charts c) :
    s.Vacant (c.survey s.pool.arena) (s.pool.arena.pageAddress j) ↔
      ∃ b ∈ c.free.blocks, j ∈ b.pages := by
  have htiles := h.depicts.tiles
  rw [Vacant, h.taken_iff]
  constructor
  · intro hvacant
    obtain ⟨⟨m, hm, heq⟩, huntaken⟩ := hvacant
    obtain rfl := Arena.pageAddress_inj.1 heq
    obtain ⟨b, hb, hjb⟩ := htiles.exists_block hm
    cases List.mem_append.1 hb with
    | inl hb => exact ⟨b, hb, hjb⟩
    | inr hb => exact absurd ⟨b, hb, hjb⟩ huntaken
  · intro hfree
    obtain ⟨b, hb, hjb⟩ := hfree
    refine ⟨⟨j, htiles.page_lt (List.mem_append_left _ hb) hjb, rfl⟩, fun hused => ?_⟩
    obtain ⟨d, hd, hjd⟩ := hused
    have heq := htiles.unique (List.mem_append_left _ hb) (List.mem_append_right _ hd) hjb hjd
    exact (List.nodup_append.1 htiles.nodup).2.2 b hb d hd heq

theorem blockSize_dvd_iff (h : s.Charts c) :
    blockSize k ∣ s.pool.arena.pageAddress j ↔ Block.Aligned s.pool.arena.base ⟨j, k⟩ := by
  rw [blockSize_eq, h.depicts.sound.pageAddress_eq]
  exact Nat.mul_dvd_mul_iff_left (by decide)

theorem allVacant_iff (h : s.Charts c) :
    s.AllVacant (c.survey s.pool.arena) (s.pool.arena.pageAddress j) (blockSize k) ↔
      c.free.Whole s.pool.arena.base ⟨j, k⟩ := by
  have hnext (n : Nat) : s.pool.arena.pageAddress j + n * pageSize =
      s.pool.arena.pageAddress (j + n) := by
    rw [Arena.pageAddress, Arena.pageAddress, Nat.add_mul, Nat.add_assoc]
  have hlt {n : Nat} : n * pageSize < blockSize k ↔ n < 2 ^ k := by
    rw [blockSize_eq, Nat.mul_comm]
    exact Nat.mul_lt_mul_left (by decide)
  simp only [AllVacant, h.blockSize_dvd_iff, hnext, h.vacant_iff, hlt, Listing.Whole,
    Block.mem_pages]
  refine and_congr_right fun _ => ⟨fun hall m hm => ?_, fun hall n hn => hall _ (by omega)⟩
  have hm' := hall (m - j) (by omega)
  rwa [Nat.add_sub_cancel' hm.1] at hm'

theorem exists_page_of_allVacant {v : Survey} {address : Nat}
    (h : s.AllVacant v address (blockSize k)) :
    ∃ j < s.pool.arena.pages, address = s.pool.arena.pageAddress j := by
  have hfirst := h.2 0 (by rw [Nat.zero_mul]; exact blockSize_pos k)
  rw [Nat.zero_mul, Nat.add_zero] at hfirst
  exact hfirst.1

/-- The free blocks are what the vacant pages say. -/
theorem mem_free_iff (h : s.Charts c) (hk : k ≤ maxOrder) {address : Nat} :
    address ∈ (c.survey s.pool.arena).free k ↔
      s.AllVacant (c.survey s.pool.arena) address (blockSize k) ∧
        (k < maxOrder → ¬s.AllVacant (c.survey s.pool.arena)
          (address / blockSize (k + 1) * blockSize (k + 1)) (blockSize (k + 1))) := by
  have hpage (i : Nat) : s.pool.arena.pageAddress i ∈ (c.survey s.pool.arena).free k ↔
      s.AllVacant (c.survey s.pool.arena) (s.pool.arena.pageAddress i) (blockSize k) ∧
        (k < maxOrder → ¬s.AllVacant (c.survey s.pool.arena)
          (s.pool.arena.pageAddress i / blockSize (k + 1) * blockSize (k + 1))
          (blockSize (k + 1))) := by
    have henclosing : s.pool.arena.pageAddress i / blockSize (k + 1) * blockSize (k + 1) =
        pageSize * ((s.pool.arena.base + i) / 2 ^ (k + 1) * 2 ^ (k + 1)) := by
      rw [blockSize_eq, h.depicts.sound.pageAddress_eq, Nat.mul_div_mul_left _ _ (by decide)]
      exact Nat.mul_left_comm _ _ _
    rw [Chart.mem_survey_free, h.depicts.tiles.mem_free_iff h.depicts.keeps.unpaired hk,
      h.allVacant_iff, henclosing]
    refine and_congr_right fun _ => forall_congr' fun _ => ⟨fun hmax hall => ?_, ?_⟩
    · obtain ⟨m, -, hm⟩ := exists_page_of_allVacant hall
      rw [hm, h.allVacant_iff] at hall
      rw [h.depicts.sound.pageAddress_eq] at hm
      exact hmax m (Nat.eq_of_mul_eq_mul_left (by decide) hm).symm hall
    · intro hmax m hm
      rwa [← hm, ← h.depicts.sound.pageAddress_eq, h.allVacant_iff] at hmax
  constructor
  · intro hmem
    obtain ⟨i, -, rfl⟩ := List.mem_map.1 hmem
    exact (hpage i).1 hmem
  · intro hall
    obtain ⟨i, -, rfl⟩ := exists_page_of_allVacant hall.1
    exact (hpage i).2 hall

end Charts

/-- The free blocks at any point of a run, and that they depend on the pages taken alone. -/
theorem Reached.free_blocks_canonical {start stop : Nat} {s : Ledger} (h : Reached start stop s) :
    ∃ v, s.pool.Surveys v ∧
      (∀ k ≤ maxOrder, ∀ address, address ∈ v.free k ↔
        s.AllVacant v address (blockSize k) ∧ (k < maxOrder →
          ¬s.AllVacant v (address / blockSize (k + 1) * blockSize (k + 1)) (blockSize (k + 1)))) ∧
      ∀ t w, Reached start stop t → t.pool.Surveys w →
        (∀ j < s.pool.arena.pages, s.Taken v (s.pool.arena.pageAddress j) ↔
          t.Taken w (s.pool.arena.pageAddress j)) →
        ∀ k ≤ maxOrder, ∀ address, address ∈ v.free k ↔ address ∈ w.free k := by
  obtain ⟨c, hcharts, hlaid⟩ := h.charts
  refine ⟨_, hcharts.depicts.surveys, fun k hk address => hcharts.mem_free_iff hk,
    fun t w ht hw htaken k hk address => ?_⟩
  obtain ⟨d, hcharts', hlaid'⟩ := ht.charts
  have harena : t.pool.arena = s.pool.arena := by
    rw [hlaid, Except.ok.injEq, Except.ok.injEq] at hlaid'
    exact hlaid'.symm
  rw [hw.unique hcharts'.depicts.surveys] at htaken ⊢
  have hvacant (x : Nat) : s.Vacant (c.survey s.pool.arena) x ↔
      t.Vacant (d.survey t.pool.arena) x := by
    rw [Vacant, Vacant, harena]
    refine and_congr_right fun hpage => ?_
    obtain ⟨j, hj, rfl⟩ := hpage
    rw [htaken j hj, harena]
  simp only [hcharts.mem_free_iff hk, hcharts'.mem_free_iff hk, AllVacant, hvacant]

/-- Of four pages the inner two are held, and the outer two are listed in this order. -/
def OuterFree (s : Ledger) (listed : List Nat) : Prop :=
  s.pool.arena.pages = 4 ∧ s.held = [⟨12288, pageSize⟩, ⟨16384, pageSize⟩] ∧
    s.pool.buddy.freeBlocks 0 4 = .ok listed ∧
    ∀ i : Fin classSizes.size, (s.pool.caches.get i).slabs s.pool.memory 4 = []

instance (s : Ledger) (listed : List Nat) : Decidable (s.OuterFree listed) :=
  inferInstanceAs (Decidable (_ ∧ _))

namespace OuterFree
variable {s : Ledger} {v : Survey} {listed : List Nat}

theorem free_eq (h : s.OuterFree listed) (hv : s.pool.Surveys v) : v.free 0 = listed := by
  have hfree := hv.free_eq 0 4 (Nat.le_of_eq h.1)
  exact Except.ok.inj (hfree.symm.trans h.2.2.1)

theorem taken_iff (h : s.OuterFree listed) (hv : s.pool.Surveys v) {address : Nat} :
    s.Taken v address ↔ 12288 ≤ address ∧ address < 20480 := by
  have hslabs (i : Fin classSizes.size) : v.slabs i = [] :=
    (hv.slabs_eq i 4 (Nat.le_of_eq h.1)).symm.trans (h.2.2.2 i)
  have hheld : s.heldBlocks = [⟨12288, pageSize⟩, ⟨16384, pageSize⟩] := by
    rw [heldBlocks, h.2.1]
    decide
  simp only [Taken, hheld, hslabs, Extent.Covers, List.mem_cons, List.not_mem_nil, or_false,
    exists_const, exists_eq_or_imp, exists_eq_left, pageSize]
  omega

end OuterFree

/-- The outer pages are released in either order: the lists differ, and the free blocks do not. -/
theorem free_blocks_canonical_of_two_orders : ∃ s t v w, Reached 4096 24576 s ∧
    Reached 4096 24576 t ∧ s.pool.Surveys v ∧ t.pool.Surveys w ∧ v.free 0 = [8192, 20480] ∧
    w.free 0 = [20480, 8192] ∧
    ∀ k ≤ maxOrder, ∀ address, address ∈ v.free k ↔ address ∈ w.free k := by
  have hfirst : (replay? .blank 4096 24576 [.allocate 4096, .allocate 4096, .allocate 4096,
      .allocate 4096, .free 20480, .free 8192]).any (·.OuterFree [8192, 20480]) = true := by
    decide +kernel
  have hsecond : (replay? .blank 4096 24576 [.allocate 4096, .allocate 4096, .allocate 4096,
      .allocate 4096, .free 8192, .free 20480]).any (·.OuterFree [20480, 8192]) = true := by
    decide +kernel
  obtain ⟨s, hs, houter⟩ := exists_reached_of_replay? hfirst
  obtain ⟨t, ht, houter'⟩ := exists_reached_of_replay? hsecond
  have houter := of_decide_eq_true houter
  have houter' := of_decide_eq_true houter'
  obtain ⟨w, hw, -⟩ := ht.free_blocks_canonical
  obtain ⟨v, hv, -, hcanonical⟩ := hs.free_blocks_canonical
  refine ⟨s, t, v, w, hs, ht, hv, hw, houter.free_eq hv, houter'.free_eq hw,
    hcanonical t w ht hw fun j _ => ?_⟩
  rw [houter.taken_iff hv, houter'.taken_iff hw]

end Ledger
end BuddySlab
