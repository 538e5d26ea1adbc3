import BuddySlab.Proofs.Observation
import BuddySlab.Proofs.Runs

/-!
What clients hold is apart from all else. At every point of a run what is held is aligned and lies
in the payload, no byte of it is held twice, and none is part of the page table, of the header of a
slab, of a free object or of a free block.
-/

namespace BuddySlab
namespace Ledger

structure Isolated (s : Ledger) (v : Survey) : Prop where
  surveys : s.pool.Surveys v
  placed : ∀ e ∈ s.held, 0 < e.size ∧ e.size ∣ e.address ∧
    s.pool.arena.payloadStart ≤ e.address ∧ e.address + e.size ≤ s.pool.arena.stop
  held_apart : s.held.Pairwise Extent.Apart
  table_apart : ∀ e ∈ s.held, e.Apart ⟨s.pool.arena.tableStart, s.pool.arena.tableSize⟩
  header_apart : ∀ e ∈ s.held, ∀ i, ∀ page ∈ v.slabs i, e.Apart ⟨page, Slab.headerSize⟩
  object_apart : ∀ e ∈ s.held, ∀ i, ∀ page ∈ v.slabs i, ∀ limit,
    ∀ object ∈ Slab.walk s.pool.memory (Slab.top s.pool.memory page) limit,
      e.Apart ⟨object, classSizes.get i⟩
  free_apart : ∀ e ∈ s.held, ∀ k, ∀ address ∈ v.free k, e.Apart ⟨address, blockSize k⟩

namespace Charts
variable {s : Ledger} {c : Chart}

theorem held_apart (h : s.Charts c) : s.held.Pairwise Extent.Apart := by
  have hitems : (c.items.map (Item.extent s.pool.arena)).Pairwise Extent.Apart := by
    rw [List.pairwise_map]
    refine h.depicts.items_nodup.pairwise_of_forall_ne fun x hx y hy hne z hzx hzy => hne ?_
    exact h.depicts.item_unique hx hy hzx hzy
  exact (h.held_perm.pairwise_iff fun {_ _} => Extent.Apart.symm).2 hitems

theorem isolated (h : s.Charts c) : s.Isolated (c.survey s.pool.arena) := by
  refine ⟨h.depicts.surveys, fun e he => ?_, h.held_apart, fun e he z hze hz => ?_,
    fun e he i page hpage => ?_, fun e he i page hpage limit object hobject => ?_,
    fun e he k address haddress => ?_⟩ <;> obtain ⟨x, hx, rfl⟩ := h.exists_item he
  · exact h.depicts.item_placed hx
  · obtain ⟨-, -, hstart, -⟩ := h.depicts.item_placed hx
    have htable := h.depicts.sound.table_le
    have hlow := hze.1
    have hhigh := hz.2
    simp only at hhigh
    omega
  · obtain ⟨t, ht, rfl⟩ := List.mem_map.1 hpage
    exact h.depicts.header_apart hx ht
  · obtain ⟨t, ht, rfl⟩ := List.mem_map.1 hpage
    obtain ⟨link, hshows⟩ := (h.depicts.chain i).linked.shows ht
    rw [hshows.walk_top (Slab.fits_class i)] at hobject
    obtain ⟨n, hn, rfl⟩ := List.mem_map.1 hobject
    exact h.depicts.free_object_apart hx ht (List.mem_of_mem_take hn)
  · obtain ⟨j, hj, rfl⟩ := List.mem_map.1 haddress
    exact h.depicts.free_apart (b := ⟨j, k⟩) (h.depicts.keeps.mem_blocks hj) hx

theorem usableSize_eq (h : s.Charts c) {e : Extent} (he : e ∈ s.held) :
    s.pool.usableSize e.address = .ok e.size := by
  obtain ⟨x, hx, rfl⟩ := h.exists_item he
  exact h.depicts.usableSize_eq hx

end Charts

theorem Reached.held_isolated {start stop : Nat} {s : Ledger} (h : Reached start stop s) :
    ∃ v, s.Isolated v := by
  obtain ⟨c, hcharts, -⟩ := h.charts
  exact ⟨_, hcharts.isolated⟩

theorem held_isolated_of_four_pages : ∃ s, s.held = [⟨8448, 128⟩, ⟨16384, 8192⟩] ∧
    Reached 4096 24576 s ∧ ∃ v, s.Isolated v := by
  obtain ⟨s, hreached, hheld⟩ := exists_reached
  exact ⟨s, hheld, hreached, hreached.held_isolated⟩

end Ledger
end BuddySlab
