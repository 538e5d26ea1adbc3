import BuddySlab.Proofs.Ownership

/-!
The free lists as lists of addresses. The links in the records spell one list for each order, in both
directions. Taking a block is taking the head of the first list that has one and listing the upper
halves that are cut off; giving a block back is joining it with its buddy as long as that is listed,
and listing the result in front. Which buddy is free is decided from its record, never by a search
of the list, and comes to the same.
-/

namespace BuddySlab

theorem Arena.Sound.xor_of_paired {a : Arena} (ha : a.Sound) {i j k : Nat}
    (h : Paired a.base k i j) : a.pageAddress i ^^^ blockSize k = a.pageAddress j := by
  rw [ha.pageAddress_xor, ha.pageAddress_eq, ← h]

namespace Listing
variable {l : Listing} {i j k n : Nat}

/-- The same lists, with the addresses of the pages. -/
def addresses (l : Listing) (a : Arena) : Listing :=
  fun k => (l k).map a.pageAddress

/-- Joins the block at an address with its buddy as long as that is listed, and lists the result. -/
def release (l : Listing) (address order : Nat) : Listing :=
  if order < maxOrder ∧ address ^^^ blockSize order ∈ l order then
    (l.drop order (address ^^^ blockSize order)).release
      (min address (address ^^^ blockSize order)) (order + 1)
  else l.put order address
termination_by maxOrder - order

/-- What becomes of the lists when a block of order `k` is taken. -/
inductive Takes (l : Listing) (k : Nat) : Except Refusal Nat → Listing → Prop
  | refused (hempty : ∀ j, k ≤ j → j ≤ maxOrder → l j = []) :
      Takes l k (.error .outOfMemory) l
  | taken {j head : Nat} {tail : List Nat} {l' : Listing} (hle : k ≤ j) (hmax : j ≤ maxOrder)
      (hleast : ∀ i, k ≤ i → i < j → l i = []) (hlist : l j = head :: tail) (htail : l' j = tail)
      (hhalves : ∀ i, k ≤ i → i < j → l' i = [head + blockSize i])
      (hothers : ∀ i, i < k ∨ j < i → l' i = l i) : Takes l k (.ok head) l'

/-- What becomes of the lists when a block of order `k` is given back and listed with order `top`:
each list up to that one loses a block and keeps the others as they were. -/
structure Merges (l : Listing) (k top head : Nat) (l' : Listing) : Prop where
  le_top : k ≤ top
  top_le : top ≤ maxOrder
  listed : l' top = head :: l top
  joined : ∀ i, k ≤ i → i < top → ∃ buddy ∈ l i, l' i = (l i).erase buddy
  others : ∀ i, i < k ∨ top < i → l' i = l i

theorem release_merges (l : Listing) (address : Nat) (hk : k ≤ maxOrder) :
    ∃ top head, l.Merges k top head (l.release address k) := by
  fun_induction release l address k with
  | case1 l address order hjoin ih =>
      -- later rounds work on larger orders, so this list has lost the buddy and nothing else
      obtain ⟨top, head, h⟩ := ih hjoin.1
      have hkeep {m : Nat} (hm : m ≠ order) :
          l.drop order (address ^^^ blockSize order) m = l m := by
        rw [drop_apply, if_neg hm]
      have hle := h.le_top
      refine ⟨top, head, by omega, h.top_le, ?_, fun i hi hlt => ?_, fun i hi => ?_⟩
      · rw [h.listed, hkeep (by omega)]
      · by_cases hio : i = order
        · subst hio
          refine ⟨_, hjoin.2, ?_⟩
          rw [h.others i (.inl (Nat.lt_succ_self i)), drop_apply, if_pos rfl]
        · have hjoined := h.joined i (by omega) hlt
          rwa [hkeep hio] at hjoined
      · rw [h.others i (by omega), hkeep (by omega)]
  | case2 l address order hfree =>
      refine ⟨order, address, Nat.le_refl _, hk, ?_, fun i hle hlt => ?_, fun i hi => ?_⟩
      · rw [put_apply, if_pos rfl]
      · omega
      · rw [put_apply, if_neg (by omega)]

theorem cut_apply : (l.cut i k n) j = if k ≤ j ∧ j < k + n then (i + 2 ^ j) :: l j else l j := by
  induction n generalizing l with
  | zero => rw [cut, if_neg (by omega)]
  | succ n ih =>
      rw [cut, ih, put_apply]
      by_cases hj : j = k + n
      · rw [if_pos hj, if_neg (by omega), if_pos (by omega), hj]
      · rw [if_neg hj]
        by_cases hin : k ≤ j ∧ j < k + n
        · rw [if_pos hin, if_pos (by omega)]
        · rw [if_neg hin, if_neg (by omega)]

theorem first?_range'_eq_some (h : l.first? (List.range' k n) = some (i, j)) :
    k ≤ j ∧ j < k + n ∧ (∀ m, k ≤ m → m < j → l m = []) ∧ ∃ rest, l j = i :: rest := by
  induction n generalizing k with
  | zero => cases h
  | succ n ih =>
      rw [List.range'_succ, first?] at h
      cases hl : l k with
      | nil =>
          rw [hl] at h
          obtain ⟨hle, hlt, hempty, hrest⟩ := ih h
          refine ⟨by omega, by omega, fun m hm hmj => ?_, hrest⟩
          by_cases hmk : m = k
          · rwa [hmk]
          · exact hempty m (by omega) hmj
      | cons index rest =>
          rw [hl, Option.some.injEq, Prod.mk.injEq] at h
          obtain ⟨rfl, rfl⟩ := h
          exact ⟨Nat.le_refl k, by omega, fun m hm hmj => by omega, rest, hl⟩

theorem take?_eq_some {l' : Listing} (hk : k ≤ maxOrder) (h : l.take? k = some (i, l')) :
    ∃ j rest, k ≤ j ∧ j ≤ maxOrder ∧ (∀ m, k ≤ m → m < j → l m = []) ∧ l j = i :: rest ∧
      l' = (l.drop j i).cut i k (j - k) := by
  obtain ⟨⟨index, j⟩, hfirst, heq⟩ := Option.map_eq_some_iff.1 h
  obtain ⟨rfl, rfl⟩ := Prod.mk.inj heq
  obtain ⟨hle, hlt, hempty, rest, hl⟩ := first?_range'_eq_some hfirst
  refine ⟨j, rest, hle, ?_, hempty, hl, rfl⟩
  simp only [orderCount] at hlt
  omega

/-- Taking a block from lists of pages is taking one from the lists of their addresses. -/
theorem takes_of_take? {l' : Listing} (a : Arena) (hk : k ≤ maxOrder)
    (h : l.take? k = some (i, l')) :
    (l.addresses a).Takes k (.ok (a.pageAddress i)) (l'.addresses a) := by
  obtain ⟨j, rest, hle, hmax, hempty, hl, rfl⟩ := take?_eq_some hk h
  have hlist : l.addresses a j = a.pageAddress i :: rest.map a.pageAddress := by
    rw [addresses, hl, List.map_cons]
  refine .taken hle hmax (fun m hm hmj => ?_) hlist ?_ (fun m hm hmj => ?_) fun m hm => ?_
  · rw [addresses, hempty m hm hmj, List.map_nil]
  · rw [addresses, cut_apply, if_neg (by omega), drop_apply, if_pos rfl, hl, List.erase_cons_head]
  · rw [addresses, cut_apply, if_pos (by omega), drop_apply, if_neg (by omega), hempty m hm hmj,
      List.map_cons, List.map_nil, Arena.pageAddress_add_two_pow]
  · rw [addresses, addresses, cut_apply, if_neg (by omega), drop_apply, if_neg (by omega)]

theorem takes_of_take?_eq_none (a : Arena) (hk : k ≤ maxOrder) (h : l.take? k = none) :
    (l.addresses a).Takes k (.error .outOfMemory) (l.addresses a) := by
  refine .refused fun j hle hmax => ?_
  rw [take?, Option.map_eq_none_iff, first?_eq_none] at h
  have hj : j ∈ List.range' k (orderCount - k) := by
    rw [List.mem_range'_1, orderCount]
    omega
  rw [addresses, h j hj, List.map_nil]

theorem addresses_drop (a : Arena) (k j : Nat) :
    (l.drop k j).addresses a = (l.addresses a).drop k (a.pageAddress j) := by
  funext m
  rw [addresses, drop_apply, drop_apply]
  by_cases hm : m = k
  · rw [if_pos hm, if_pos hm]
    exact List.map_erase a.pageAddress_injective (l k)
  · rw [if_neg hm, if_neg hm]
    rfl

theorem addresses_put (a : Arena) (k j : Nat) :
    (l.put k j).addresses a = (l.addresses a).put k (a.pageAddress j) := by
  funext m
  rw [addresses, put_apply, put_apply]
  by_cases hm : m = k
  · rw [if_pos hm, if_pos hm]
    rfl
  · rw [if_neg hm, if_neg hm]
    rfl

section Release
variable {a : Arena} (ha : a.Sound)
include ha

/-- The partner of a block is listed where its address with one bit flipped is. -/
theorem mem_addresses_iff : a.pageAddress i ^^^ blockSize k ∈ l.addresses a k ↔
    ∃ j ∈ l k, Paired a.base k i j := by
  rw [addresses, List.mem_map, ha.pageAddress_xor]
  refine exists_congr fun j => and_congr_right fun _ => ?_
  rw [ha.pageAddress_eq, Nat.mul_right_inj (show pageSize ≠ 0 by decide)]
  rfl

/-- Each round of joining finds the partner by its address. -/
theorem release_addresses (rounds : Nat) (hrounds : k + rounds = maxOrder) :
    (l.addresses a).release (a.pageAddress i) k =
      (match l.merge a.base i k rounds with
        | (l, head, order) => l.put order head).addresses a := by
  induction rounds generalizing l i k with
  | zero => rw [release, if_neg (by omega), merge, addresses_put]
  | succ rounds ih =>
      rw [release, merge]
      cases hpartner : l.partner? a.base i k with
      | none =>
          rw [if_neg, addresses_put]
          intro hjoin
          obtain ⟨j, hj, hpair⟩ := (mem_addresses_iff ha).1 hjoin.2
          exact partner?_eq_none.1 hpartner j hj hpair
      | some j =>
          obtain ⟨hj, hpair⟩ := partner?_eq_some hpartner
          rw [if_pos ⟨by omega, (mem_addresses_iff ha).2 ⟨j, hj, hpair⟩⟩,
            ha.xor_of_paired hpair, Arena.pageAddress_min, ← addresses_drop]
          exact ih (by omega)

/-- Giving a block back to lists of pages is giving it back to the lists of their addresses. -/
theorem addresses_give (hk : k ≤ maxOrder) :
    (l.give a.base i k).addresses a = (l.addresses a).release (a.pageAddress i) k := by
  rw [release_addresses ha (maxOrder - k) (by omega)]
  rfl

end Release
end Listing

namespace Buddy
variable {b : Buddy} {l : Listing} {before past : Link} {indices : List Nat}

/-- From this link on, turning from record to record visits these addresses and ends. -/
inductive Walk (b : Buddy) (turn : Descriptor → Link) : Link → List Nat → Prop
  | stop : Walk b turn .none []
  | visit {link : Link} {index address : Nat} {d : Descriptor} {rest : List Nat}
      (htarget : link.target? = some index) (hdescriptor : b.table.descriptor index = .ok d)
      (haddress : b.arena.addressOf index = .ok address) (hrest : Walk b turn (turn d) rest) :
      Walk b turn link (address :: rest)

/-- The free lists spell these addresses: forwards from the head, backwards from the last, none of
them twice, and as many as are counted. -/
structure Spells (b : Buddy) (l : Listing) : Prop where
  forward : ∀ k < orderCount, ∃ list, b.list k = .ok list ∧ list.count = (l k).length ∧
    b.Walk (·.next) list.head (l k)
  backward : ∀ k < orderCount, ∃ last, b.Walk (·.prev) last (l k).reverse
  nodup : ∀ k, (l k).Nodup
  counts : b.freeCounts.toList = (List.range orderCount).map fun k => (l k).length

theorem Walk.visit_page {turn : Descriptor → Link} {i : Nat} {rest : List Nat}
    (ha : b.arena.Sound) (hi : i < b.arena.pages)
    (hrest : b.Walk turn (turn (b.table.record i)) rest) :
    b.Walk turn (.ofIndex i) (b.arena.pageAddress i :: rest) :=
  .visit (Link.target?_ofIndex (Nat.lt_trans hi ha.pages_lt)) (PageTable.descriptor_eq hi)
    (ha.addressOf_eq hi) hrest

theorem walk_next (ha : b.arena.Sound) (hlt : ∀ i ∈ indices, i < b.arena.pages)
    (hl : b.table.Linked before indices .none) :
    b.Walk (·.next) (Link.toFirst indices .none) (indices.map b.arena.pageAddress) := by
  induction indices generalizing before with
  | nil => exact .stop
  | cons i rest ih =>
      apply Walk.visit_page ha (hlt i List.mem_cons_self)
      rw [hl.2.1]
      exact ih (fun j hj => hlt j (List.mem_cons_of_mem i hj)) hl.2.2

/-- Walking back from the last page listed visits the pages in reverse, and then whatever is visited
from the link before the first. -/
theorem walk_prev (ha : b.arena.Sound) (hlt : ∀ i ∈ indices, i < b.arena.pages)
    (hl : b.table.Linked before indices past) {rest : List Nat}
    (hrest : b.Walk (·.prev) before rest) :
    b.Walk (·.prev) (Link.toLast before indices)
      ((indices.map b.arena.pageAddress).reverse ++ rest) := by
  induction indices generalizing before rest with
  | nil => exact hrest
  | cons i indices ih =>
      have hvisit : b.Walk (·.prev) (.ofIndex i) (b.arena.pageAddress i :: rest) := by
        apply Walk.visit_page ha (hlt i List.mem_cons_self)
        rwa [hl.1]
      rw [List.map_cons, List.reverse_cons, List.append_assoc]
      exact ih (fun j hj => hlt j (List.mem_cons_of_mem i hj)) hl.2.2 hvisit

theorem Threads.spells (h : b.Threads l) (ha : b.arena.Sound) : b.Spells (l.addresses b.arena) := by
  have hlt {k : Nat} : ∀ i ∈ l k, i < b.arena.pages := fun i hi => h.page_lt hi
  refine ⟨fun k hk => ⟨_, h.list_eq k hk, ?_, walk_next ha hlt (h.linked k hk)⟩,
    fun k hk => ⟨Link.toLast .none (l k), ?_⟩, fun k => ?_, ?_⟩
  · rw [Listing.addresses, List.length_map]
  · have hwalk := walk_prev ha hlt (h.linked k hk) .stop
    rwa [List.append_nil] at hwalk
  · exact (h.nodup k).map b.arena.pageAddress_injective
  · rw [h.freeCounts_eq]
    simp only [Listing.addresses, List.length_map]

end Buddy

namespace Ledger

/-- The page tier of a ledger refines these lists. -/
structure Refines (s : Ledger) (l : Listing) : Prop where
  spells : s.pool.buddy.Spells l
  taken : ∀ k ≤ maxOrder, ∃ answer b l', s.pool.buddy.takeOrder k = .ok (answer, b) ∧
    l.Takes k answer l' ∧ b.Spells l'
  released : ∀ e ∈ s.held, pageSize ≤ e.size → ∃ k b, k ≤ maxOrder ∧ e.size = blockSize k ∧
    s.pool.buddy.free e.address = .ok (k, b) ∧ b.Spells (l.release e.address k) ∧
    ∃ top head, l.Merges k top head (l.release e.address k)

theorem Charts.takeOrder_refines {s : Ledger} {c : Chart} (h : s.Charts c) {k : Nat}
    (hk : k ≤ maxOrder) : ∃ answer b l', s.pool.buddy.takeOrder k = .ok (answer, b) ∧
      (c.free.addresses s.pool.arena).Takes k answer l' ∧ b.Spells l' := by
  have hkeeps := h.depicts.keeps
  cases hkeeps.takeOrder hk with
  | inl hrefused =>
      obtain ⟨hnone, hrun⟩ := hrefused
      exact ⟨_, _, _, hrun, Listing.takes_of_take?_eq_none _ hk hnone,
        hkeeps.threads.spells hkeeps.sound⟩
  | inr htaken =>
      obtain ⟨i, l', b, hsome, hrun, hkeeps', hkin⟩ := htaken
      have hspells := hkeeps'.threads.spells hkeeps'.sound
      rw [hkin.arena] at hspells
      exact ⟨_, b, _, hrun, Listing.takes_of_take? _ hk hsome, hspells⟩

theorem Charts.free_refines {s : Ledger} {c : Chart} (h : s.Charts c) {e : Extent}
    (he : e ∈ s.held) (hle : pageSize ≤ e.size) : ∃ k b, k ≤ maxOrder ∧ e.size = blockSize k ∧
      s.pool.buddy.free e.address = .ok (k, b) ∧
      b.Spells ((c.free.addresses s.pool.arena).release e.address k) := by
  obtain ⟨d, hd, rfl⟩ := h.exists_block he hle
  have hmax : d.order ≤ maxOrder := h.depicts.tiles.order_le d
    (List.mem_append_right _ (List.mem_append_left _ hd))
  obtain ⟨b, hrun, hkeeps, hkin⟩ := (h.depicts.keeps_block hd).free (h.depicts.slab_of_block hd)
  have hspells := hkeeps.threads.spells hkeeps.sound
  have hsound : s.pool.buddy.arena.Sound := h.depicts.sound
  rw [hkin.arena, Listing.addresses_give hsound hmax] at hspells
  exact ⟨d.order, b, hmax, rfl, hrun, hspells⟩

/-- At every point of a run the intrusive free lists are pure lists of block addresses. -/
theorem Reached.free_lists_refined {start stop : Nat} {s : Ledger} (h : Reached start stop s) :
    ∃ l, s.Refines l := by
  obtain ⟨c, hcharts, -⟩ := h.charts
  have hkeeps := hcharts.depicts.keeps
  refine ⟨c.free.addresses s.pool.arena, hkeeps.threads.spells hkeeps.sound,
    fun k hk => hcharts.takeOrder_refines hk, fun e he hle => ?_⟩
  obtain ⟨k, b, hk, hsize, hrun, hspells⟩ := hcharts.free_refines he hle
  exact ⟨k, b, hk, hsize, hrun, hspells, Listing.release_merges _ _ hk⟩

theorem free_lists_refined_of_four_pages : ∃ s, s.held = [⟨8448, 128⟩, ⟨16384, 8192⟩] ∧
    Reached 4096 24576 s ∧ ∃ l, s.Refines l := by
  obtain ⟨s, hreached, hheld⟩ := exists_reached
  exact ⟨s, hheld, hreached, hreached.free_lists_refined⟩

end Ledger
end BuddySlab
