import BuddySlab.Proofs.Depiction
import Mathlib.Algebra.BigOperators.Ring.List

/-!
What can be read off a pool that depicts a chart: walking a free list, a chain of slabs or the free
objects of a slab visits what the chart lists, in that order, and the bytes of the free blocks are
counted without overflow.
-/

namespace BuddySlab

theorem mapM_ok {α β : Type} {ε : Type} {f : α → Except ε β} {g : α → β} {l : List α}
    (h : ∀ a ∈ l, f a = .ok (g a)) : l.mapM f = .ok (l.map g) := by
  induction l with
  | nil => rfl
  | cons a rest ih =>
      rw [List.mapM_cons, h a List.mem_cons_self, ok_bind,
        ih fun b hb => h b (List.mem_cons_of_mem a hb)]
      rfl

/-- Numbers are added up one after the other as long as their sum is a word. -/
theorem Word.foldlM_add {α : Type} {f : α → Nat} {step : Nat → α → Except Fault Nat}
    (hstep : ∀ total a, total + f a < 2 ^ 64 → step total a = .ok (total + f a)) (l : List α)
    (total : Nat) (hfits : total + (l.map f).sum < 2 ^ 64) :
    l.foldlM step total = .ok (total + (l.map f).sum) := by
  induction l generalizing total with
  | nil => rfl
  | cons a rest ih =>
      rw [List.map_cons, List.sum_cons] at hfits
      rw [List.foldlM_cons, hstep total a (by omega), ok_bind, ih _ (by omega), List.map_cons,
        List.sum_cons, Nat.add_assoc]

namespace Buddy
variable {b : Buddy} {l : Listing} {k limit : Nat}

theorem follow_eq {before : Link} {indices : List Nat} (hpages : b.arena.pages < noPage)
    (hlt : ∀ i ∈ indices, i < b.arena.pages) (hl : b.table.Linked before indices .none) :
    b.follow (Link.toFirst indices .none) limit = .ok (indices.take limit) := by
  induction indices generalizing before limit with
  | nil => cases limit <;> simp [follow, Link.toFirst, Link.target?_none]
  | cons i rest ih =>
      cases limit with
      | zero => rfl
      | succ limit =>
          have hi := hlt i List.mem_cons_self
          have hrest : b.follow (Link.toFirst rest .none) limit = .ok (rest.take limit) :=
            ih (fun j hj => hlt j (List.mem_cons_of_mem i hj)) hl.2.2
          rw [Link.toFirst, follow, Link.target?_ofIndex (Nat.lt_trans hi hpages)]
          change (b.table.descriptor i >>= _) = _
          rw [PageTable.descriptor_eq hi, ok_bind, hl.2.1, hrest]
          rfl

theorem Threads.getElem?_lists (h : b.Threads l) (hk : k < orderCount) :
    b.lists[k]? = some ⟨Link.toFirst (l k) .none, (l k).length⟩ := by
  have hlist := h.list_eq k hk
  rw [Buddy.list, dif_pos hk, Except.ok.injEq] at hlist
  rw [Vector.getElem?_eq_getElem hk, hlist]

theorem Threads.eq_nil (h : b.Threads l) (hk : orderCount ≤ k) : l k = [] := by
  refine List.eq_nil_iff_forall_not_mem.2 fun i hi => ?_
  exact absurd (h.order_lt hi) (Nat.not_lt.2 hk)

theorem Threads.follow_head (h : b.Threads l) :
    b.follow (b.lists[k]?.elim Link.none (·.head)) limit = .ok ((l k).take limit) := by
  by_cases hk : k < orderCount
  · rw [h.getElem?_lists hk]
    exact follow_eq h.pages_lt (fun i hi => h.page_lt hi) (h.linked k hk)
  · rw [Vector.getElem?_eq_none (Nat.le_of_not_lt hk), h.eq_nil (Nat.le_of_not_lt hk)]
    cases limit <;> simp [follow, Link.target?_none]

/-- Walking a free list meets the blocks listed, up to the limit. -/
theorem Keeps.freeBlocks_take {held hand : List Block} (h : b.Keeps l held hand) :
    b.freeBlocks k limit = .ok (((l k).take limit).map b.arena.pageAddress) := by
  rw [Buddy.freeBlocks, h.threads.follow_head, ok_bind]
  exact mapM_ok fun i hi => h.sound.addressOf_eq (h.threads.page_lt (List.mem_of_mem_take hi))

theorem Keeps.freeBlocks_eq {held hand : List Block} (h : b.Keeps l held hand)
    (hlimit : b.arena.pages ≤ limit) :
    b.freeBlocks k limit = .ok ((l k).map b.arena.pageAddress) := by
  rw [h.freeBlocks_take, List.take_of_length_le (Nat.le_trans (h.threads.length_le k) hlimit)]

theorem Threads.freeCounts_eq (h : b.Threads l) :
    b.freeCounts.toList = (List.range orderCount).map fun k => (l k).length := by
  refine List.ext_getElem (by simp) fun k hk _ => ?_
  have hk : k < orderCount := by simpa using hk
  have hlist := h.list_eq k hk
  rw [Buddy.list, dif_pos hk, Except.ok.injEq] at hlist
  simp [freeCounts, hlist]

theorem Threads.zipIdx_freeCounts (h : b.Threads l) :
    b.freeCounts.toList.zipIdx = (List.range orderCount).map fun k => ((l k).length, k) := by
  rw [h.freeCounts_eq]
  exact List.ext_getElem (by simp) fun k _ _ => by simp

theorem sum_bytes (l : Listing) :
    ((List.range orderCount).map fun k => (l k).length * blockSize k).sum =
      (l.blocks.map fun d => blockSize d.order).sum := by
  rw [Listing.blocks]
  induction List.range orderCount with
  | nil => rfl
  | cons k rest ih =>
      have hconst : ((l k).map (Block.mk · k)).map (fun d => blockSize d.order) =
          List.replicate (l k).length (blockSize k) := by
        rw [List.map_map]
        change (l k).map (fun _ => blockSize k) = _
        rw [List.map_const']
      rw [List.map_cons, List.sum_cons, ih, List.flatMap_cons, List.map_append, List.sum_append,
        hconst, List.sum_replicate_nat]

theorem Threads.freeBytes_eq (h : b.Threads l)
    (hfits : (l.blocks.map fun d => blockSize d.order).sum < 2 ^ 64) :
    b.freeBytes = .ok (l.blocks.map fun d => blockSize d.order).sum := by
  have hsum : ((b.freeCounts.toList.zipIdx).map fun c => c.1 * blockSize c.2).sum =
      (l.blocks.map fun d => blockSize d.order).sum := by
    rw [h.zipIdx_freeCounts, List.map_map]
    exact sum_bytes l
  rw [Buddy.freeBytes]
  refine (Word.foldlM_add (f := fun c => c.1 * blockSize c.2) (fun total c hlt => ?_) _ 0
    ?_).trans ?_
  · change (Word.multiply c.1 (blockSize c.2) >>= _) = _
    rw [Word.multiply_of_lt (Nat.lt_of_le_of_lt (Nat.le_add_left _ total) hlt), ok_bind,
      Word.add_of_lt hlt]
  · rwa [Nat.zero_add, hsum]
  · rw [Nat.zero_add, hsum]

/-- The blocks of the payload have all of its bytes. -/
theorem Keeps.sum_blockSize {held hand : List Block} (h : b.Keeps l held hand) :
    ((l.blocks ++ (hand ++ held)).map fun d => blockSize d.order).sum =
      pageSize * b.arena.pages := by
  have hsize : (fun d : Block => blockSize d.order) = fun d => pageSize * 2 ^ d.order :=
    funext fun d => blockSize_eq d.order
  rw [← h.tiles.sum_pages, hsize]
  exact List.sum_map_mul_left (l.blocks ++ (hand ++ held)) (fun d => 2 ^ d.order) pageSize

theorem Keeps.freeBytes_eq {held hand : List Block} (h : b.Keeps l held hand) :
    b.freeBytes = .ok (l.blocks.map fun d => blockSize d.order).sum := by
  have htotal := h.sum_blockSize
  have hstop : b.arena.stop = b.arena.payloadStart + b.arena.pages * pageSize := h.sound.stop_eq
  have hword := h.sound.stop_lt
  rw [List.map_append, List.sum_append, Nat.mul_comm] at htotal
  exact h.threads.freeBytes_eq (by omega)

end Buddy

namespace Slab
variable {m : Memory} {page size link limit : Nat} {stack : List Nat}

/-- The free objects met from `object` on, at most `limit`. -/
def walk (m : Memory) (object : Nat) : Nat → List Nat
  | 0 => []
  | limit + 1 => if object = 0 then [] else object :: walk m (m.readWord object) limit

theorem walk_eq (hs : Fits size) (h : Stacked m page size stack) :
    walk m (topWord page size stack) limit = (stack.take limit).map (slot page size) := by
  induction limit generalizing stack with
  | zero => simp [walk]
  | succ limit ih =>
      cases stack with
      | nil => simp [walk, topWord]
      | cons i rest =>
          rw [walk, topWord, if_neg (hs.slot_ne_zero page i), h.1, ih h.2]
          rfl

/-- Following the links from the top of a slab meets the free objects of its stack. -/
theorem Shows.walk_top (h : Shows m page size link stack) (hs : Fits size) :
    walk m (top m page) limit = (stack.take limit).map (slot page size) := by
  rw [h.top_eq, walk_eq hs h.stacked]

end Slab

/-- The addresses met on the free list of each order, head first, and the pages met on the chain of
each cache, newest first. -/
structure Survey where
  free : Nat → List Nat
  slabs : Fin classSizes.size → List Nat

def Chart.survey (a : Arena) (c : Chart) : Survey :=
  ⟨fun k => (c.free k).map a.pageAddress, fun i => (c.sheets i).map fun s => a.pageAddress s.page⟩

namespace Chart
variable {a : Arena} {c : Chart} {j k : Nat} {i : Fin classSizes.size}

theorem mem_survey_free : a.pageAddress j ∈ (c.survey a).free k ↔ j ∈ c.free k :=
  List.mem_map_of_injective a.pageAddress_injective

theorem mem_survey_slabs :
    a.pageAddress j ∈ (c.survey a).slabs i ↔ ∃ s ∈ c.sheets i, s.page = j := by
  simp [survey, Arena.pageAddress_inj]

theorem exists_mem_survey_slabs :
    (∃ i, a.pageAddress j ∈ (c.survey a).slabs i) ↔ j ∈ c.slabPages := by
  simp only [mem_survey_slabs, mem_slabPages]

end Chart

namespace Pool
variable {p : Pool} {c : Chart}

/-- Walks of any length that is not below the number of pages meet the same. -/
structure Surveys (p : Pool) (v : Survey) : Prop where
  free_eq : ∀ k limit, p.arena.pages ≤ limit → p.buddy.freeBlocks k limit = .ok (v.free k)
  slabs_eq : ∀ (i : Fin classSizes.size) limit, p.arena.pages ≤ limit →
    (p.caches.get i).slabs p.memory limit = v.slabs i

theorem Surveys.unique {v w : Survey} (hv : p.Surveys v) (hw : p.Surveys w) : v = w := by
  have hfree : v.free = w.free := funext fun k =>
    Except.ok.inj ((hv.free_eq k _ (Nat.le_refl _)).symm.trans (hw.free_eq k _ (Nat.le_refl _)))
  have hslabs : v.slabs = w.slabs := funext fun i =>
    (hv.slabs_eq i _ (Nat.le_refl _)).symm.trans (hw.slabs_eq i _ (Nat.le_refl _))
  cases v
  cases w
  rw [Survey.mk.injEq]
  exact ⟨hfree, hslabs⟩

/-- The usable size of an item is all of it. -/
theorem Depicts.usableSize_eq (h : p.Depicts c) {x : Item} (hx : x ∈ c.items) :
    p.usableSize (x.extent p.arena).address = .ok (x.extent p.arena).size := by
  obtain ⟨hdescriptor, -⟩ := h.descriptorAt_item hx
  rw [usableSize, hdescriptor, ok_bind]
  cases Chart.mem_items.1 hx with
  | @block b hb =>
      have horder : (p.buddy.table.record b.first).order.toNat = b.order :=
        h.keeps.order_held b (List.mem_append_left _ hb)
      have hle : b.order ≤ 12 :=
        h.tiles.order_le b (List.mem_append_right _ (List.mem_append_left _ hb))
      have hword : pageSize * 2 ^ b.order < 2 ^ 64 :=
        Nat.lt_of_le_of_lt (Nat.mul_le_mul_left pageSize (Nat.pow_le_pow_right (by decide) hle))
          (by decide)
      simp only [Item.home, h.slab_of_block hb, Bool.false_eq_true, if_false, horder]
      rw [Word.shiftLeft_of_lt (Nat.lt_of_le_of_lt hle (by decide)) hword, ← blockSize_eq]
      rfl
  | @object i s number hs hlive =>
      obtain ⟨link, hshows⟩ := (h.chain i).linked.shows hs
      have hlt := (Sheet.mem_live.1 hlive).1
      have hpage := h.sound.page_lt (h.page_lt hs)
      simp only [Item.home, h.slab_of_sheet hs, if_true, Item.extent, pure_eq_ok,
        (Slab.fits_class i).containing_slot (h.sound.dvd_pageAddress s.page) hpage hlt,
        hshows.objectSize_eq]

theorem Depicts.surveys (h : p.Depicts c) : p.Surveys (c.survey p.arena) := by
  refine ⟨fun k limit hlimit => h.keeps.freeBlocks_eq hlimit, fun i limit hlimit => ?_⟩
  rw [Cache.slabs, h.cache_eq i]
  exact (h.chain i).chain_eq h.sound (Nat.le_trans (h.chain i).length_le hlimit)

end Pool
end BuddySlab
