import BuddySlab.Proofs.Observation
import BuddySlab.Proofs.Runs
import Mathlib.Algebra.Ring.Nat

/-!
Who has the pages. At every point of a run each page of the payload is in one free block that is
listed once, or in one held block, or is one slab on the chain of one cache, and the records say so.
The bytes of all three add up to the payload, and a page that was made a slab stays one.
-/

namespace BuddySlab
namespace Ledger

/-- The blocks that clients hold; what is smaller than a page is an object. -/
def heldBlocks (s : Ledger) : List Extent :=
  s.held.filter (pageSize ≤ ·.size)

/-- The free blocks order by order, the held blocks, and the slabs class by class. -/
def owners (s : Ledger) (v : Survey) : List Extent :=
  (List.range orderCount).flatMap (fun k => (v.free k).map (Extent.mk · (blockSize k))) ++
    (s.heldBlocks ++
      (List.finRange classSizes.size).flatMap fun i => (v.slabs i).map (Extent.mk · pageSize))

/-- The extent is an aligned block of this order in the payload. -/
structure Placed (a : Arena) (e : Extent) (order : Nat) : Prop where
  order_le : order ≤ maxOrder
  size_eq : e.size = blockSize order
  aligned : blockSize order ∣ e.address
  start_le : a.payloadStart ≤ e.address
  le_stop : e.address + e.size ≤ a.stop

/-- What the record of a page says, given the free lists, the held blocks and the slabs. -/
structure Recorded (s : Ledger) (v : Survey) (j : Nat) (d : Descriptor) : Prop where
  free_iff : d.flags.free = true ↔ ∃ k, s.pool.arena.pageAddress j ∈ v.free k
  slab_iff : d.flags.slab = true ↔ ∃ i, s.pool.arena.pageAddress j ∈ v.slabs i
  order_free : ∀ k, s.pool.arena.pageAddress j ∈ v.free k → d.order.toNat = k
  order_held : ∀ e ∈ s.heldBlocks, e.address = s.pool.arena.pageAddress j →
    e.size = blockSize d.order.toNat

structure Owned (s : Ledger) (v : Survey) : Prop where
  surveys : s.pool.Surveys v
  one_owner : ∀ j < s.pool.arena.pages, ∃ e others, (s.owners v).Perm (e :: others) ∧
    (∀ z, (s.pool.arena.pageExtent j).Covers z → e.Covers z) ∧
    ∀ f ∈ others, f.Apart (s.pool.arena.pageExtent j)
  free_placed : ∀ k, ∀ address ∈ v.free k, Placed s.pool.arena ⟨address, blockSize k⟩ k
  held_placed : ∀ e ∈ s.heldBlocks, ∃ k, Placed s.pool.arena e k
  recorded : ∀ j < s.pool.arena.pages, ∃ d, s.pool.buddy.table.descriptor j = .ok d ∧
    s.Recorded v j d
  conserved : ∃ bytes, s.pool.buddy.freeBytes = .ok bytes ∧
    bytes + (s.heldBlocks.map Extent.size).sum +
        pageSize * ((List.finRange classSizes.size).map fun i => (v.slabs i).length).sum =
      s.pool.arena.stop - s.pool.arena.payloadStart

/-- The record of a page marks it as a slab. -/
def MarksSlab (s : Ledger) (j : Nat) : Prop :=
  ∃ d, s.pool.buddy.table.descriptor j = .ok d ∧ d.flags.slab = true

namespace Charts
variable {s s' : Ledger} {c : Chart}

theorem heldBlocks_perm (h : s.Charts c) :
    s.heldBlocks.Perm (c.blocks.map (Block.extent s.pool.arena)) := by
  have hblocks : ((c.blocks.map Item.block).map (Item.extent s.pool.arena)).filter
      (pageSize ≤ ·.size) = c.blocks.map (Block.extent s.pool.arena) := by
    rw [List.map_map]
    refine List.filter_eq_self.2 fun e he => ?_
    obtain ⟨b, -, rfl⟩ := List.mem_map.1 he
    exact decide_eq_true (pageSize_le_blockSize b.order)
  have hobjects : (c.objects.map (Item.extent s.pool.arena)).filter (pageSize ≤ ·.size) = [] := by
    refine List.filter_eq_nil_iff.2 fun e he => ?_
    obtain ⟨x, hx, rfl⟩ := List.mem_map.1 he
    obtain ⟨i, t, -, hmem⟩ := Chart.mem_objects.1 hx
    obtain ⟨number, -, rfl⟩ := List.mem_map.1 hmem
    exact fun hle => absurd (of_decide_eq_true hle) (Nat.not_le.2 (classSizes_lt i))
  have hfilter := h.held_perm.filter (pageSize ≤ ·.size)
  rwa [Chart.items, List.map_append, List.filter_append, hblocks, hobjects,
    List.append_nil] at hfilter

theorem owners_perm (h : s.Charts c) : (s.owners (c.survey s.pool.arena)).Perm
    ((c.free.blocks ++ c.used).map (Block.extent s.pool.arena)) := by
  have hfree : (List.range orderCount).flatMap (fun k =>
      ((c.survey s.pool.arena).free k).map (Extent.mk · (blockSize k))) =
      c.free.blocks.map (Block.extent s.pool.arena) := by
    rw [Listing.blocks, List.map_flatMap]
    refine List.flatMap_congr fun k _ => ?_
    rw [Chart.survey, List.map_map, List.map_map]
    rfl
  have hslabs : (List.finRange classSizes.size).flatMap (fun i =>
      ((c.survey s.pool.arena).slabs i).map (Extent.mk · pageSize)) =
      (c.slabPages.map (Block.mk · 0)).map (Block.extent s.pool.arena) := by
    rw [Chart.slabPages, List.map_flatMap, List.map_flatMap]
    refine List.flatMap_congr fun i _ => ?_
    rw [Chart.survey, List.map_map, List.map_map, List.map_map]
    rfl
  rw [owners, hfree, hslabs, Chart.used, List.map_append, List.map_append]
  exact (h.heldBlocks_perm.append_right _).append_left _

theorem one_owner (h : s.Charts c) {j : Nat} (hj : j < s.pool.arena.pages) :
    ∃ e others, (s.owners (c.survey s.pool.arena)).Perm (e :: others) ∧
      (∀ z, (s.pool.arena.pageExtent j).Covers z → e.Covers z) ∧
      ∀ f ∈ others, f.Apart (s.pool.arena.pageExtent j) := by
  have htiles := h.depicts.tiles
  obtain ⟨b, hb, hjb⟩ := htiles.exists_block hj
  have hnodup := htiles.nodup
  refine ⟨b.extent s.pool.arena,
    ((c.free.blocks ++ c.used).erase b).map (Block.extent s.pool.arena),
    h.owners_perm.trans ((List.perm_cons_erase hb).map _),
    fun z hz => Block.covers_extent_iff.2 ⟨j, hjb, hz⟩, fun f hf z hzf hzj => ?_⟩
  obtain ⟨d, hd, rfl⟩ := List.mem_map.1 hf
  obtain ⟨m, hm, hzm⟩ := Block.covers_extent_iff.1 hzf
  have hd' := hnodup.mem_erase_iff.1 hd
  exact hd'.1 (h.depicts.block_unique hd'.2 hb hm hjb hzm hzj)

theorem placed (h : s.Charts c) {b : Block} (hb : b ∈ c.free.blocks ++ c.used) :
    Placed s.pool.arena (b.extent s.pool.arena) b.order := by
  have htiles := h.depicts.tiles
  have hend := h.depicts.sound.pageAddress_le_stop (htiles.last_le hb)
  refine ⟨htiles.order_le b hb, rfl, ?_, Nat.le_add_right _ _, ?_⟩
  · rw [Block.extent, h.depicts.sound.pageAddress_eq, blockSize_eq]
    exact Nat.mul_dvd_mul_left pageSize (htiles.aligned b hb)
  · rw [Arena.pageAddress, Nat.add_mul, Nat.mul_comm (2 ^ b.order)] at hend
    simp only [Block.extent, blockSize_eq, Arena.pageAddress]
    omega

theorem recorded (h : s.Charts c) {j : Nat} (hj : j < s.pool.arena.pages) :
    s.Recorded (c.survey s.pool.arena) j (s.pool.buddy.table.record j) := by
  refine ⟨?_, ?_, fun k hk => ?_, fun e he haddress => ?_⟩
  · simp only [Chart.mem_survey_free]
    exact h.depicts.keeps.free_iff j hj
  · rw [Chart.exists_mem_survey_slabs]
    exact h.depicts.slab_iff j hj
  · exact h.depicts.keeps.order_free (Chart.mem_survey_free.1 hk)
  · obtain ⟨b, hb, rfl⟩ := List.mem_map.1 (h.heldBlocks_perm.mem_iff.1 he)
    obtain rfl : b.first = j := Arena.pageAddress_inj.1 haddress
    rw [h.depicts.keeps.order_held b (List.mem_append_left _ hb)]
    rfl

theorem sum_blockSize (h : s.Charts c) :
    ((c.free.blocks ++ c.used).map fun b => blockSize b.order).sum =
      pageSize * s.pool.arena.pages :=
  h.depicts.keeps.sum_blockSize

theorem conserved (h : s.Charts c) : ∃ bytes, s.pool.buddy.freeBytes = .ok bytes ∧
    bytes + (s.heldBlocks.map Extent.size).sum + pageSize *
        ((List.finRange classSizes.size).map fun i =>
          ((c.survey s.pool.arena).slabs i).length).sum =
      s.pool.arena.stop - s.pool.arena.payloadStart := by
  have htotal := h.sum_blockSize
  have hstop : s.pool.arena.stop = s.pool.arena.payloadStart + s.pool.arena.pages * pageSize :=
    h.depicts.sound.stop_eq
  have hheld : (s.heldBlocks.map Extent.size).sum =
      (c.blocks.map fun b => blockSize b.order).sum := by
    rw [(h.heldBlocks_perm.map Extent.size).sum_nat, List.map_map]
    rfl
  have hslabs : pageSize * ((List.finRange classSizes.size).map fun i =>
        ((c.survey s.pool.arena).slabs i).length).sum =
      ((c.slabPages.map (Block.mk · 0)).map fun b => blockSize b.order).sum := by
    rw [List.map_map]
    change _ = (c.slabPages.map fun _ => pageSize).sum
    rw [List.map_const', List.sum_replicate_nat, Nat.mul_comm, Chart.slabPages, List.length_flatMap]
    simp only [Chart.survey, List.length_map]
  rw [Chart.used, List.map_append, List.map_append, List.sum_append, List.sum_append,
    Nat.mul_comm] at htotal
  refine ⟨_, h.depicts.keeps.freeBytes_eq, ?_⟩
  rw [hheld, hslabs, hstop]
  omega

theorem marksSlab_iff (h : s.Charts c) {j : Nat} : s.MarksSlab j ↔ j ∈ c.slabPages := by
  constructor
  · intro hmarks
    obtain ⟨d, hd, hslab⟩ := hmarks
    by_cases hj : j < s.pool.arena.pages
    · rw [PageTable.descriptor_eq hj, Except.ok.injEq] at hd
      exact (h.depicts.slab_iff j hj).1 (hd ▸ hslab)
    · rw [PageTable.descriptor, dif_neg (by rwa [s.pool.buddy.table.size_entries])] at hd
      cases hd
  · intro hmem
    obtain ⟨i, t, ht, rfl⟩ := Chart.mem_slabPages.1 hmem
    have hj := h.depicts.page_lt ht
    exact ⟨_, PageTable.descriptor_eq hj, (h.depicts.slab_iff t.page hj).2 hmem⟩

theorem owned (h : s.Charts c) : s.Owned (c.survey s.pool.arena) := by
  refine ⟨h.depicts.surveys, fun j hj => h.one_owner hj, fun k address haddress => ?_,
    fun e he => ?_, fun j hj => ⟨_, PageTable.descriptor_eq hj, h.recorded hj⟩, h.conserved⟩
  · obtain ⟨i, hi, rfl⟩ := List.mem_map.1 haddress
    exact h.placed (b := ⟨i, k⟩) (List.mem_append_left _ (h.depicts.keeps.mem_blocks hi))
  · obtain ⟨b, hb, rfl⟩ := List.mem_map.1 (h.heldBlocks_perm.mem_iff.1 he)
    exact ⟨b.order, h.placed (List.mem_append_right _ (List.mem_append_left _ hb))⟩

end Charts

/-- At every point of a run each page has one owner, and from then on what is a slab stays one. -/
theorem Reached.pages_owned {start stop : Nat} {s : Ledger} (h : Reached start stop s) :
    (∃ v, s.Owned v) ∧
      ∀ acts s', Runs s acts s' → ∀ j, s.MarksSlab j → s'.MarksSlab j := by
  obtain ⟨c, hcharts, -⟩ := h.charts
  refine ⟨⟨_, hcharts.owned⟩, fun acts s' hruns j hmarks => ?_⟩
  obtain ⟨c', hcharts', -, hslabs⟩ := hcharts.runs hruns
  exact hcharts'.marksSlab_iff.2 (hslabs (hcharts.marksSlab_iff.1 hmarks))

theorem pages_owned_of_four_pages : ∃ s, s.held = [⟨8448, 128⟩, ⟨16384, 8192⟩] ∧
    Reached 4096 24576 s ∧ (∃ v, s.Owned v) ∧
      ∀ acts s', Runs s acts s' → ∀ j, s.MarksSlab j → s'.MarksSlab j := by
  obtain ⟨s, hreached, hheld⟩ := exists_reached
  exact ⟨s, hheld, hreached, hreached.pages_owned⟩

end Ledger
end BuddySlab
