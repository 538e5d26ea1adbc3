import BuddySlab.Proofs.FreeLists
import BuddySlab.Proofs.Ownership
import Mathlib.Combinatorics.Enumerative.DoubleCounting

/-!
The free blocks of a fresh pool. Giving the pages back one by one, in ascending order, joins them to
the largest aligned blocks that the payload has. They cover it exactly, each list has them in
descending order, since a block that is listed ends behind all that were listed before, and no
partition of the payload into aligned blocks has fewer: each of its blocks lies in one of these.
-/

namespace BuddySlab

namespace Listing
variable {l : Listing} {base i k n : Nat}

/-- The lists are descending, and their blocks end by the page `stop`. -/
structure Descends (l : Listing) (stop : Nat) : Prop where
  sorted : ∀ k, (l k).Pairwise (· > ·)
  le_stop : ∀ k, ∀ i ∈ l k, i + 2 ^ k ≤ stop

theorem Descends.drop (h : l.Descends n) (k i : Nat) : (l.drop k i).Descends n := by
  constructor
  · intro j
    rw [drop_apply]
    split
    · exact (h.sorted k).sublist List.erase_sublist
    · exact h.sorted j
  · intro j m hm
    rw [drop_apply] at hm
    split at hm
    · rename_i hj
      rw [hj]
      exact h.le_stop k m (List.mem_of_mem_erase hm)
    · exact h.le_stop j m hm

/-- A block behind the others comes first in its list. -/
theorem Descends.put (h : l.Descends n) (hend : i + 2 ^ k = n + 1) :
    (l.put k i).Descends (n + 1) := by
  constructor
  · intro j
    rw [put_apply]
    split
    · refine List.pairwise_cons.2 ⟨fun m hm => ?_, h.sorted k⟩
      have := h.le_stop k m hm
      omega
    · exact h.sorted j
  · intro j m hm
    cases mem_put.1 hm with
    | inl hnew =>
        obtain ⟨rfl, rfl⟩ := hnew
        exact Nat.le_of_eq hend
    | inr hold => exact Nat.le_succ_of_le (h.le_stop j m hold)

/-- The block behind the others has only partners before it, and what they are joined to ends where
it did. -/
theorem Descends.merge (h : l.Descends n) (rounds : Nat) (hi : 2 ^ k ∣ base + i)
    (hend : i + 2 ^ k = n + 1) :
    ∃ l' i' k', l.merge base i k rounds = (l', i', k') ∧ l'.Descends n ∧ i' + 2 ^ k' = n + 1 := by
  induction rounds generalizing l i k with
  | zero => exact ⟨l, i, k, rfl, h, hend⟩
  | succ rounds ih =>
      rw [Listing.merge]
      cases hpartner : l.partner? base i k with
      | none => exact ⟨l, i, k, rfl, h, hend⟩
      | some j =>
          obtain ⟨hj, hpair⟩ := partner?_eq_some hpartner
          have hle := h.le_stop k j hj
          cases (paired_iff hi).1 hpair with
          | inl hleft => omega
          | inr hright =>
              obtain ⟨hdvd, rfl⟩ := hright
              simp only [Nat.min_eq_right (Nat.le_add_right j (2 ^ k))]
              exact ih (h.drop k j) hdvd (by rw [Nat.pow_succ]; omega)

theorem Descends.give (h : l.Descends n) (base : Nat) : (l.give base n 0).Descends (n + 1) := by
  obtain ⟨l', i', k', hmerge, hdescends, hend⟩ :=
    h.merge (k := 0) (i := n) (maxOrder - 0) (Nat.one_dvd (base + n)) rfl
  rw [Listing.give, hmerge]
  exact hdescends.put hend

theorem descends_initial (base n : Nat) :
    Descends ((List.range n).foldl (fun l i => l.give base i 0) fun _ => []) n := by
  induction n with
  | zero => exact ⟨fun _ => .nil, fun _ _ hi => absurd hi List.not_mem_nil⟩
  | succ n ih =>
      rw [List.range_succ, List.foldl_append]
      exact ih.give base

/-- The blocks listed, order by order, as extents. -/
def extents (free : Listing) : List Extent :=
  (List.range orderCount).flatMap fun k => (free k).map (Extent.mk · (blockSize k))

theorem extents_addresses (l : Listing) (a : Arena) :
    (l.addresses a).extents = l.blocks.map (Block.extent a) := by
  rw [extents, blocks, List.map_flatMap]
  refine List.flatMap_congr fun k _ => ?_
  rw [addresses, List.map_map, List.map_map]
  rfl

end Listing

namespace Arena
variable {a : Arena} {e : Extent} {k : Nat}

/-- An aligned block of the payload that lies in no larger one. -/
def Maximal (a : Arena) (address order : Nat) : Prop :=
  Ledger.Placed a ⟨address, blockSize order⟩ order ∧ ∀ e k, order < k → Ledger.Placed a e k →
    ¬∀ x, (⟨address, blockSize order⟩ : Extent).Covers x → e.Covers x

/-- Aligned blocks of the payload that are apart and have all its bytes. -/
structure Partition (a : Arena) (es : List Extent) : Prop where
  placed : ∀ e ∈ es, ∃ k, Ledger.Placed a e k
  apart : es.Pairwise Extent.Apart
  covers : ∀ x, a.payloadStart ≤ x → x < a.stop → ∃ e ∈ es, e.Covers x

theorem Sound.placed_iff (ha : a.Sound) : Ledger.Placed a e k ↔
    k ≤ maxOrder ∧ ∃ i, e = Block.extent a ⟨i, k⟩ ∧ Block.Aligned a.base ⟨i, k⟩ ∧
      i + 2 ^ k ≤ a.pages := by
  have hstart : a.payloadStart = pageSize * a.base := ha.payload_eq
  have hstop : a.stop = pageSize * (a.base + a.pages) := by
    rw [ha.stop_eq, ha.pageAddress_eq]
  constructor
  · intro hplaced
    obtain ⟨address, size⟩ := e
    obtain ⟨hk, rfl, ⟨q, hq⟩, hlow, hhigh⟩ := hplaced
    simp only [blockSize_eq, Nat.mul_assoc] at hq hlow hhigh
    rw [hq, hstart] at hlow
    rw [hq, hstop, ← Nat.mul_add] at hhigh
    have hlow := Nat.le_of_mul_le_mul_left hlow (by decide)
    have hhigh := Nat.le_of_mul_le_mul_left hhigh (by decide)
    obtain ⟨i, hi⟩ := Nat.exists_eq_add_of_le hlow
    refine ⟨hk, i, ?_, ⟨q, hi.symm⟩, by omega⟩
    rw [Block.extent, ha.pageAddress_eq, hq, hi]
  · intro hblock
    obtain ⟨hk, i, rfl, haligned, hfits⟩ := hblock
    refine ⟨hk, rfl, ?_, Nat.le_add_right _ _, ?_⟩
    · rw [blockSize_eq, Block.extent, ha.pageAddress_eq]
      exact Nat.mul_dvd_mul_left pageSize haligned
    · rw [Block.extent, ha.pageAddress_eq, blockSize_eq, ← Nat.mul_add, hstop]
      exact Nat.mul_le_mul_left pageSize (by simp only; omega)

end Arena

theorem Block.pages_subset_of_covers {a : Arena} {b d : Block}
    (h : ∀ x, (b.extent a).Covers x → (d.extent a).Covers x) : b.pages ⊆ d.pages := by
  intro j hj
  have hcovers := a.pageExtent_covers j
  obtain ⟨m, hm, hmj⟩ := covers_extent_iff.1 (h _ (covers_extent_iff.2 ⟨j, hj, hcovers⟩))
  exact Arena.pageExtent_unique hmj hcovers ▸ hm

theorem Block.covers_of_pages_subset {a : Arena} {b d : Block} (h : b.pages ⊆ d.pages) {x : Nat}
    (hx : (b.extent a).Covers x) : (d.extent a).Covers x := by
  obtain ⟨j, hj, hjx⟩ := covers_extent_iff.1 hx
  exact covers_extent_iff.2 ⟨j, h hj, hjx⟩

namespace Buddy
variable {b : Buddy} {l : Listing} {i k : Nat}

/-- The free lists name the maximal aligned blocks of the payload, descending, and no partition into
aligned blocks has fewer. -/
structure Minimal (b : Buddy) (free : Listing) : Prop where
  listed : ∀ k limit, b.arena.pages ≤ limit → b.freeBlocks k limit = .ok (free k)
  descending : ∀ k, (free k).Pairwise (· > ·)
  maximal : ∀ k address, address ∈ free k ↔ b.arena.Maximal address k
  partition : b.arena.Partition free.extents
  least : ∀ es, b.arena.Partition es → free.extents.length ≤ es.length

namespace Keeps

/-- Nothing is held, so an aligned block that lies in the payload lies in a free one. -/
theorem exists_block_of_placed (h : b.Keeps l [] []) (hk : k ≤ maxOrder)
    (haligned : Block.Aligned b.arena.base ⟨i, k⟩) (hfits : i + 2 ^ k ≤ b.arena.pages) :
    ∃ d ∈ l.blocks, k ≤ d.order ∧ Block.pages ⟨i, k⟩ ⊆ d.pages := by
  refine h.tiles.exists_free_block h.unpaired hk ⟨haligned, fun j hj => ?_⟩
  have hlt : j < b.arena.pages := Nat.lt_of_lt_of_le (Block.mem_pages.1 hj).2 hfits
  obtain ⟨d, hd, hjd⟩ := h.tiles.exists_block hlt
  rw [List.append_nil, List.append_nil] at hd
  exact ⟨d, hd, hjd⟩

theorem placed_block (h : b.Keeps l [] []) {d : Block} (hd : d ∈ l.blocks) :
    Ledger.Placed b.arena (d.extent b.arena) d.order := by
  have hmem := List.mem_append_left ([] ++ []) hd
  obtain ⟨first, order⟩ := d
  exact h.sound.placed_iff.2
    ⟨h.tiles.order_le _ hmem, first, rfl, h.tiles.aligned _ hmem, h.tiles.last_le hmem⟩

theorem mem_iff_maximal (h : b.Keeps l [] []) :
    i ∈ l k ↔ b.arena.Maximal (b.arena.pageAddress i) k := by
  have hunique {d d' : Block} {j : Nat} (hd : d ∈ l.blocks) (hd' : d' ∈ l.blocks) (hj : j ∈ d.pages)
      (hj' : j ∈ d'.pages) : d = d' :=
    h.tiles.unique (List.mem_append_left _ hd) (List.mem_append_left _ hd') hj hj'
  constructor
  · intro hi
    have hb := h.mem_blocks hi
    refine ⟨h.placed_block (d := ⟨i, k⟩) hb, fun e m hm hplaced hcovers => ?_⟩
    obtain ⟨hle, j, rfl, haligned, hfits⟩ := h.sound.placed_iff.1 hplaced
    obtain ⟨d, hd, hmd, hsub⟩ := h.exists_block_of_placed hle haligned hfits
    have hfirst := Block.pages_subset_of_covers (b := ⟨i, k⟩) hcovers (Block.first_mem_pages _)
    have heq := hunique hd hb (hsub hfirst) (Block.first_mem_pages ⟨i, k⟩)
    rw [heq] at hmd
    exact absurd hm (Nat.not_lt.2 hmd)
  · intro hmaximal
    obtain ⟨hplaced, hmax⟩ := hmaximal
    obtain ⟨hk, j, heq, haligned, hfits⟩ := h.sound.placed_iff.1 hplaced
    obtain rfl := Arena.pageAddress_inj.1 (congrArg Extent.address heq)
    obtain ⟨d, hd, hkd, hsub⟩ := h.exists_block_of_placed hk haligned hfits
    have horder : k = d.order := by
      refine Nat.le_antisymm hkd (Nat.not_lt.1 fun hlt => ?_)
      exact hmax _ d.order hlt (h.placed_block hd) fun x hx => Block.covers_of_pages_subset hsub hx
    have hdi := (h.tiles.aligned d (List.mem_append_left _ hd)).eq_of_meet haligned horder.symm
      (hsub (Block.first_mem_pages _)) (Block.first_mem_pages ⟨i, k⟩)
    exact (Listing.mem_blocks.1 (hdi ▸ hd)).2

theorem partition (h : b.Keeps l [] []) : b.arena.Partition (l.addresses b.arena).extents := by
  rw [Listing.extents_addresses]
  refine ⟨fun e he => ?_, ?_, fun x hlow hhigh => ?_⟩
  · obtain ⟨d, hd, rfl⟩ := List.mem_map.1 he
    exact ⟨d.order, h.placed_block hd⟩
  · have hpairwise := h.tiles.pairwise
    rw [List.append_nil, List.append_nil] at hpairwise
    refine List.pairwise_map.2 (hpairwise.imp fun {d d'} hdisjoint x hx hx' => ?_)
    obtain ⟨j, hj, hjx⟩ := Block.covers_extent_iff.1 hx
    obtain ⟨m, hm, hmx⟩ := Block.covers_extent_iff.1 hx'
    exact hdisjoint hj (Arena.pageExtent_unique hmx hjx ▸ hm)
  · have hstop := h.sound.stop_eq
    have hpage : (x - b.arena.payloadStart) / pageSize < b.arena.pages := by
      simp only [Arena.pageAddress, pageSize] at hstop ⊢
      omega
    obtain ⟨d, hd, hj⟩ := h.tiles.exists_block hpage
    rw [List.append_nil, List.append_nil] at hd
    refine ⟨_, List.mem_map_of_mem hd, Block.covers_extent_iff.2 ⟨_, hj, ?_⟩⟩
    simp only [Extent.Covers, Arena.pageExtent, Arena.pageAddress, pageSize]
    omega

/-- A block of a partition lies in one free block. -/
theorem inside_unique (h : b.Keeps l [] []) {c d d' : Block} (hd : d ∈ l.blocks)
    (hd' : d' ∈ l.blocks) (hsub : c.pages ⊆ d.pages) (hsub' : c.pages ⊆ d'.pages) : d = d' :=
  h.tiles.unique (List.mem_append_left _ hd) (List.mem_append_left _ hd')
    (hsub c.first_mem_pages) (hsub' c.first_mem_pages)

/-- Each free block has a block of any partition in it: the one with its first page lies in a free
block, which can only be this one. -/
theorem exists_inside (h : b.Keeps l [] []) {es : List Extent} (hes : b.arena.Partition es)
    {d : Block} (hd : d ∈ l.blocks) :
    ∃ e ∈ es, ∀ x, e.Covers x → (d.extent b.arena).Covers x := by
  have hmem := List.mem_append_left ([] ++ []) hd
  have hlt : d.first < b.arena.pages := h.tiles.page_lt hmem d.first_mem_pages
  have hcontains := h.sound.contains_pageAddress hlt
  rw [Arena.contains, Bool.and_eq_true, decide_eq_true_eq, decide_eq_true_eq] at hcontains
  obtain ⟨e, he, hcovers⟩ := hes.covers _ hcontains.1 hcontains.2
  obtain ⟨k, hplaced⟩ := hes.placed e he
  obtain ⟨hk, i, rfl, haligned, hfits⟩ := h.sound.placed_iff.1 hplaced
  obtain ⟨d', hd', -, hsub⟩ := h.exists_block_of_placed hk haligned hfits
  obtain ⟨j, hj, hjx⟩ := Block.covers_extent_iff.1 hcovers
  obtain rfl := Arena.pageExtent_unique hjx (b.arena.pageExtent_covers d.first)
  have heq := h.tiles.unique (List.mem_append_left _ hd') hmem (hsub hj) d.first_mem_pages
  rw [← heq]
  exact ⟨_, he, fun x hx => Block.covers_of_pages_subset hsub hx⟩

theorem least (h : b.Keeps l [] []) {es : List Extent} (hes : b.arena.Partition es) :
    (l.addresses b.arena).extents.length ≤ es.length := by
  have hnodup : l.blocks.Nodup := (List.nodup_append.1 h.tiles.nodup).1
  have hcard : l.blocks.toFinset.card ≤ es.toFinset.card := by
    refine Finset.card_le_card_of_forall_subsingleton
      (fun d e => ∀ x, e.Covers x → (d.extent b.arena).Covers x) (fun d hd => ?_) fun e he => ?_
    · obtain ⟨e, he, hin⟩ := h.exists_inside hes (List.mem_toFinset.1 hd)
      exact ⟨e, List.mem_toFinset.2 he, hin⟩
    · intro d hd d' hd'
      obtain ⟨k, hplaced⟩ := hes.placed e (List.mem_toFinset.1 he)
      obtain ⟨-, i, rfl, -⟩ := h.sound.placed_iff.1 hplaced
      exact h.inside_unique (List.mem_toFinset.1 hd.1) (List.mem_toFinset.1 hd'.1)
        (Block.pages_subset_of_covers hd.2) (Block.pages_subset_of_covers hd'.2)
  rw [List.toFinset_card_of_nodup hnodup] at hcard
  rw [Listing.extents_addresses, List.length_map]
  exact hcard.trans (List.toFinset_card_le es)

end Keeps

/-- A fresh page table leads to the least cover of its payload by free blocks. -/
theorem init_minimal {start stop : Nat} {a : Arena} (h : Arena.layOut start stop = .ok (.ok a)) :
    ∃ b free, Buddy.init (.blank a) = .ok b ∧ b.arena = a ∧ b.Minimal free := by
  obtain ⟨b, hinit, hkeeps, harena, -⟩ := init_eq (Arena.sound_of_layOut h)
  refine ⟨b, (initialListing a).addresses b.arena, hinit, harena,
    fun k limit hlimit => ?_, fun k => ?_, fun k address => ?_, hkeeps.partition,
    fun es => hkeeps.least⟩
  · exact hkeeps.freeBlocks_eq hlimit
  · refine List.pairwise_map.2 (((Listing.descends_initial a.base a.pages).sorted k).imp ?_)
    intro i j hij
    exact Nat.add_lt_add_left (Nat.mul_lt_mul_of_pos_right hij (by decide)) _
  · constructor
    · intro hmem
      obtain ⟨i, hi, rfl⟩ := List.mem_map.1 hmem
      exact hkeeps.mem_iff_maximal.1 hi
    · intro hmaximal
      obtain ⟨-, i, heq, -⟩ := hkeeps.sound.placed_iff.1 hmaximal.1
      obtain rfl : address = b.arena.pageAddress i := congrArg Extent.address heq
      exact List.mem_map_of_mem (hkeeps.mem_iff_maximal.2 hmaximal)

/-- Eight pages from the third of the address space on: two pages, four, and two. -/
theorem init_minimal_of_eight_pages : ∃ a b free, Arena.layOut 4096 40960 = .ok (.ok a) ∧
    Buddy.init (.blank a) = .ok b ∧ b.Minimal free ∧ free 1 = [32768, 8192] ∧
    free 2 = [16384] := by
  have hlaid : Arena.layOut 4096 40960 = .ok (.ok ⟨4096, 8, 8192, 40960⟩) := rfl
  obtain ⟨b, free, hinit, harena, hminimal⟩ := init_minimal hlaid
  have hlists : (Buddy.init (.blank ⟨4096, 8, 8192, 40960⟩)).toOption.any (fun b =>
      (b.freeBlocks 1 8).toOption = some [32768, 8192] &&
        (b.freeBlocks 2 8).toOption = some [16384]) = true := by
    decide +kernel
  have hlisted (k : Nat) : b.freeBlocks k 8 = .ok (free k) :=
    hminimal.listed k 8 (by rw [harena])
  rw [hinit] at hlists
  obtain ⟨htwo, hfour⟩ := Bool.and_eq_true_iff.1 hlists
  have htwo := of_decide_eq_true htwo
  have hfour := of_decide_eq_true hfour
  rw [hlisted] at htwo hfour
  exact ⟨_, b, free, hlaid, hinit, hminimal, Option.some.inj htwo, Option.some.inj hfour⟩

end Buddy
end BuddySlab
