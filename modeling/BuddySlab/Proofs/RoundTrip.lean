import BuddySlab.Proofs.FreeLists
import BuddySlab.Proofs.Stacks
import BuddySlab.Proofs.Twins

/-!
A request and the release right after it. On lists of pages, giving back what was just taken joins
the halves that were cut off on the way down, one after the other, and stops where the block began,
since its buddy was not free. On a stack, the object goes back to the top and the words that popping
wrote are written back. So nothing is left of the two calls but, where a slab had to be made, that
slab with all its objects free.
-/

namespace BuddySlab

namespace Listing
variable {l l' : Listing} {base i j k n rounds : Nat}

theorem drop_put (l : Listing) (k i : Nat) : (l.put k i).drop k i = l := by
  funext j
  rw [drop_apply, put_apply, put_apply]
  by_cases hj : j = k
  · rw [if_pos hj, if_pos rfl, List.erase_cons_head, hj]
  · rw [if_neg hj, if_neg hj]

theorem put_drop {rest : List Nat} (h : l k = i :: rest) : (l.drop k i).put k i = l := by
  funext j
  rw [put_apply, drop_apply, drop_apply]
  by_cases hj : j = k
  · rw [if_pos hj, if_pos rfl, h, List.erase_cons_head, hj, h]
  · rw [if_neg hj, if_neg hj]

theorem merge_of_unpaired (h : rounds ≠ 0 → ∀ j ∈ l k, ¬Paired base k i j) :
    l.merge base i k rounds = (l, i, k) := by
  cases rounds with
  | zero => rfl
  | succ rounds => rw [merge, partner?_eq_none.2 (h (Nat.succ_ne_zero rounds))]

/-- Joining takes back the upper halves that were cut off, the smallest first. -/
theorem merge_cut (h : 2 ^ (k + n) ∣ base + i) :
    (l.cut i k n).merge base i k (n + rounds) = l.merge base i (k + n) rounds := by
  induction n generalizing l rounds with
  | zero => rw [cut, Nat.zero_add, Nat.add_zero]
  | succ n ih =>
      have hdvd : 2 ^ (k + n) ∣ base + i :=
        Nat.dvd_trans (Nat.pow_dvd_pow 2 (Nat.le_succ (k + n))) h
      have hmem : i + 2 ^ (k + n) ∈ l.put (k + n) (i + 2 ^ (k + n)) (k + n) :=
        mem_put.2 (.inl ⟨rfl, rfl⟩)
      rw [cut, Nat.add_right_comm, Nat.add_assoc, ih hdvd, merge,
        partner?_of_mem hmem (paired_right h)]
      simp only [drop_put, Nat.min_eq_left (Nat.le_add_right i _)]
      rfl

/-- Giving back what was just taken. -/
theorem give_take? (haligned : ∀ k ≤ maxOrder, ∀ i ∈ l k, 2 ^ k ∣ base + i) (hun : l.Unpaired base)
    (hk : k ≤ maxOrder) (h : l.take? k = some (i, l')) : l'.give base i k = l := by
  obtain ⟨j, rest, hkj, hj, -, hl, rfl⟩ := take?_eq_some hk h
  have hi : i ∈ l j := hl ▸ List.mem_cons_self
  have horder : k + (j - k) = j := by omega
  have hrounds : maxOrder - k = (j - k) + (maxOrder - j) := by omega
  have hmerge : ((l.drop j i).cut i k (j - k)).merge base i k (maxOrder - k) =
      (l.drop j i, i, j) := by
    rw [hrounds, merge_cut (horder.symm ▸ haligned j hj i hi), horder]
    apply merge_of_unpaired
    intro hlt m hm
    -- what is left of the list holds no partner, as the whole list held none
    rw [drop_apply, if_pos rfl] at hm
    exact hun j (by omega) i hi m (List.mem_of_mem_erase hm)
  rw [give, hmerge]
  exact put_drop hl

end Listing

namespace Slab
variable {m : Memory} {page size link i : Nat} {rest : List Nat}

/-- Pushing what was just popped writes back every word. -/
theorem Shows.push_pop (h : Shows m page size link (i :: rest)) (hs : Fits size)
    (hpage : page + pageSize < 2 ^ 64) :
    Slab.push (m.patch (popWords page size rest)) page (slot page size i) = .ok m := by
  obtain ⟨m', hpop, hshows, hframe⟩ := h.pop_cons hs hpage
  cases (h.pop_eq hs).symm.trans hpop
  have hslot : page + headerSize ≤ slot page size i := hs.le_slot page i
  have hlink : (m.patch (popWords page size rest)).readWord (slot page size i) =
      topWord page size rest := by
    rw [← h.stacked.1]
    apply Memory.readWord_congr
    intro x hlow _
    exact hframe x (.inr (Nat.le_trans hslot hlow))
  have htop : m.readWord (topField page) = slot page size i := h.top_eq
  have hcount : m.readWord (freeCountField page) = rest.length + 1 := h.freeCount_eq
  have hfields : topField page + 8 ≤ freeCountField page := by
    simp only [topField, freeCountField]
    omega
  rw [hshows.push_eq hs i, Except.ok.injEq]
  calc (m.patch (popWords page size rest)).patch (pushWords page size i rest)
      = ((m.patch (popWords page size rest)).writeWord (topField page)
          (slot page size i)).writeWord (freeCountField page) (rest.length + 1) := by
        rw [pushWords, ← hlink, Memory.patch_cons, Memory.writeWord_readWord]
        rfl
    _ = (m.writeWord (topField page) (slot page size i)).writeWord (freeCountField page)
          (rest.length + 1) := by
        rw [popWords, Memory.patch_cons, Memory.patch_cons, Memory.patch_nil,
          Memory.writeWord_comm (.inr hfields), Memory.writeWord_writeWord,
          Memory.writeWord_writeWord]
    _ = m := by rw [← htop, Memory.writeWord_readWord, ← hcount, Memory.writeWord_readWord]

end Slab

/-- A new slab that takes back its lowest object is a formatted page in front of the others. -/
theorem Cache.push_grow {page size link : Nat} (m : Memory) (hs : Slab.Fits size) {k : Nat}
    (hk : size = 2 ^ k) (hdvd : pageSize ∣ page) (hpage : page + pageSize < 2 ^ 64)
    (hlink : link < 2 ^ 64) :
    Slab.push (m.patch (growWords page size link)) page (Slab.slot page size 0) =
      .ok ((m.patch (Slab.formatWords page size)).writeWord (Slab.nextField page) link) := by
  obtain ⟨m', hformat, hshows, -⟩ := Slab.format_eq m hs hk hdvd hpage
  cases hformat.symm.trans (Slab.format_run m hs hk hdvd hpage)
  rw [hs.range_slots] at hshows
  have hwords : m.patch (growWords page size link) =
      ((m.patch (Slab.formatWords page size)).writeWord (Slab.nextField page) link).patch
        (Slab.popWords page size (List.range (Slab.slots size)).tail) := by
    have hnext : Slab.nextField page + 8 ≤ Slab.topField page := by
      simp only [Slab.nextField, Slab.topField]
      omega
    have hnext' : Slab.nextField page + 8 ≤ Slab.freeCountField page := by
      simp only [Slab.nextField, Slab.freeCountField]
      omega
    simp only [growWords, Slab.popWords, Memory.patch_append, Memory.patch_cons, Memory.patch_nil]
    rw [Memory.writeWord_comm (.inr hnext'), Memory.writeWord_comm (.inr hnext)]
  rw [hwords]
  exact (hshows.relink hs hlink).push_pop hs hpage

namespace Chart
variable {c : Chart} {i : Fin classSizes.size} {page number : Nat}

theorem setSheets_setSheets (c : Chart) (i : Fin classSizes.size) (sheets sheets' : List Sheet) :
    (c.setSheets i sheets).setSheets i sheets' = c.setSheets i sheets' := by
  simp only [setSheets, Function.update_idem]

theorem release_block {l : Listing} {b : Block} (base : Nat)
    (hgive : l.give base b.first b.order = c.free) :
    ({ c with free := l, blocks := b :: c.blocks } : Chart).release base (.block b) = c := by
  simp only [release, hgive, List.erase_cons_head]

/-- The lowest object goes back to the slab that was made for it. -/
theorem release_slab (hfresh : page ∉ (c.sheets i).map Sheet.page)
    (hpages : ((c.sheets i).map Sheet.page).Nodup) (rest : List Nat) (base : Nat) :
    (c.setSheets i (⟨page, rest⟩ :: c.sheets i)).release base (.object i page number) =
      c.setSheets i (⟨page, number :: rest⟩ :: c.sheets i) := by
  have hnodup : (([] ++ (⟨page, rest⟩ : Sheet) :: c.sheets i).map Sheet.page).Nodup :=
    List.nodup_cons.2 ⟨hfresh, hpages⟩
  have hrestack : ([] ++ (⟨page, rest⟩ : Sheet) :: c.sheets i).map
        (Sheet.restack page (number :: ·)) =
      [] ++ ⟨page, number :: rest⟩ :: c.sheets i := Sheet.map_restack_split hnodup
  rw [release, setSheets_setSheets, setSheets_sheets, if_pos rfl]
  exact congrArg (c.setSheets i) hrestack

end Chart

namespace Pool
variable {p : Pool} {c : Chart} {i : Fin classSizes.size} {page number : Nat} {m : Memory}

/-- The answer to a request and its events. -/
def response? (p : Pool) (size : Nat) : Option (Except Refusal Nat × List Event) :=
  match p.allocate size with
  | .ok (answer, _, events) => some (answer, events)
  | .error _ => none

theorem exists_allocate {size : Nat} {answer : Except Refusal Nat} {events : List Event}
    (h : p.response? size = some (answer, events)) :
    ∃ pool, p.allocate size = .ok (answer, pool, events) := by
  rw [response?] at h
  split at h
  · rename_i pool _ hrun
    cases h
    exact ⟨pool, hrun⟩
  · cases h

namespace Depicts

theorem give_take? (h : p.Depicts c) {first k : Nat} {free : Listing} (hk : k ≤ maxOrder)
    (htake : c.free.take? k = some (first, free)) : free.give p.arena.base first k = c.free := by
  refine Listing.give_take? (fun j hj b hb => ?_) h.keeps.unpaired hk htake
  have hmem : (⟨b, j⟩ : Block) ∈ c.free.blocks := h.keeps.mem_blocks hb
  exact h.tiles.aligned _ (List.mem_append_left _ hmem)

/-- Releasing an object that was just popped leads back to the same pool. -/
theorem free_popped (h : p.Depicts c)
    (hfirst : Sheet.first? (c.sheets i) = some (page, number))
    (hpop : Slab.pop p.memory (p.arena.pageAddress page) =
      .ok (some ((Item.object i page number).extent p.arena).address, m))
    (hdepicts : Depicts { p with memory := m }
      (c.setSheets i ((c.sheets i).map (Sheet.restack page List.tail)))) :
    Pool.free { p with memory := m } ((Item.object i page number).extent p.arena).address =
      .ok (p, [(Item.object i page number).farewell p.arena]) := by
  obtain ⟨rest, hs⟩ := Sheet.first?_eq_some hfirst
  obtain ⟨link, hshows⟩ := (h.chain i).linked.shows hs
  have hfits := Slab.fits_class i
  have hpage := h.sound.page_lt (h.page_lt hs)
  have hlt : number < Slab.slots (classSizes.get i) := hshows.lt_slots number List.mem_cons_self
  have hlive : number ∈ (⟨page, rest⟩ : Sheet).live (classSizes.get i) :=
    Sheet.mem_live.2 ⟨hlt, (List.nodup_cons.1 hshows.nodup).1⟩
  have hsheet : (⟨page, rest⟩ : Sheet) ∈
      (c.setSheets i ((c.sheets i).map (Sheet.restack page List.tail))).sheets i := by
    rw [Chart.setSheets_sheets, if_pos rfl]
    exact List.mem_map.2 ⟨_, hs, if_pos rfl⟩
  have hrelease : Slab.release m ((Item.object i page number).extent p.arena).address =
      .ok p.memory := by
    cases (hshows.pop_eq hfits).symm.trans hpop
    have hcontaining := hfits.containing_slot (h.sound.dvd_pageAddress page) hpage hlt
    simp only [Slab.release, Item.extent, hcontaining]
    exact hshows.push_pop hfits hpage
  exact hdepicts.free_eq_release hsheet hlive hrelease

/-- Releasing the object that a new slab handed out leaves a formatted page before the cache. -/
theorem release_grown (h : p.Depicts c) {object : Nat} {cache : Cache} (hlt : page < p.arena.pages)
    (hgrow : (p.caches.get i).grow p.memory (p.arena.pageAddress page) = .ok (object, cache, m)) :
    Slab.release m ((Item.object i page 0).extent p.arena).address =
      .ok ((p.memory.patch
        (Slab.formatWords (p.arena.pageAddress page) (classSizes.get i))).writeWord
          (Slab.nextField (p.arena.pageAddress page)) (p.caches.get i).newest) := by
  have hfits := Slab.fits_class i
  have hk := Slab.classSizes_eq i
  have hdvd := h.sound.dvd_pageAddress page
  have hpage := h.sound.page_lt hlt
  rw [h.cache_eq i, Cache.grow_eq _ hfits hk hdvd hpage] at hgrow
  cases hgrow
  rw [Slab.release, Item.extent, hfits.containing_slot hdvd hpage hfits.slots_pos, h.cache_eq i]
  exact Cache.push_grow p.memory hfits hk hdvd hpage
    (Cache.chainHead_lt h.sound (h.chain i).page_lt)

end Depicts
end Pool

namespace Ledger

/-- The pool has the free lists, the caches, the stacks and the memory of the ledger. -/
structure Agrees (s : Ledger) (pool : Pool) : Prop where
  arena : pool.arena = s.pool.arena
  free : ∃ l, s.pool.buddy.Spells l ∧ pool.buddy.Spells l
  caches : pool.caches = s.pool.caches
  stacked : ∃ piles, s.Stacks piles ∧ Stacks ⟨pool, s.held⟩ piles
  memory : pool.memory = s.pool.memory

/-- A page was taken and flagged as a slab, formatted and put in front of a cache with all its
objects free; all else is as it was. -/
structure Enlarged (s : Ledger) (i : Fin classSizes.size) (page : Nat) (pool : Pool) : Prop where
  taken : ∃ b, s.pool.buddy.allocate pageSize = .ok (.ok page, b) ∧
    b.flagSlab page = .ok pool.buddy
  caches : pool.caches = s.pool.caches.put i ⟨classSizes.get i, page⟩
  stacked : ∃ piles objects, s.Stacks piles ∧ Slab.carving page (classSizes.get i) = .ok objects ∧
    Stacks ⟨pool, s.held⟩ (Function.update piles i (⟨page, objects⟩ :: piles i))
  formatted : ∃ m, Slab.format s.pool.memory page (classSizes.get i) = .ok m ∧
    pool.memory = m.writeWord (Slab.nextField page) (s.pool.caches.get i).newest
  elsewhere : ∀ x, x < page ∨ page + pageSize ≤ x → pool.memory.read x = s.pool.memory.read x

/-- What a request that led to this pool, with these events, and the release right after it come to
together. A slab was made where the events say so. -/
inductive Undone (s : Ledger) (pool : Pool) (events : List Event) (pool' : Pool) : Prop
  | restored (hevents : ∀ page size, Event.slabCreated page size ∉ events)
      (hcaches : pool.caches = s.pool.caches) (h : s.Agrees pool')
  | enlarged (i : Fin classSizes.size) (page : Nat)
      (hevents : Event.slabCreated page (classSizes.get i) ∈ events) (h : s.Enlarged i page pool')

namespace Charts
variable {s : Ledger} {c : Chart} {pool : Pool} {i : Fin classSizes.size}

/-- What was granted last is given up first. -/
theorem giveUp_last {a : Arena} {held : List Extent} {x : Item} {pool' : Pool}
    (h : Charts ⟨pool, x.extent a :: held⟩ c) (ha : pool.arena = a) (hx : x ∈ c.items)
    (hbecomes : pool.Becomes pool' (c.release pool.arena.base x) x) :
    Charts ⟨pool', held⟩ (c.release a.base x) := by
  subst ha
  have hback := h.giveUp hx hbecomes
  rwa [List.erase_cons_head] at hback

theorem agrees (h : s.Charts c) (h' : Charts ⟨pool, s.held⟩ c)
    (harena : pool.arena = s.pool.arena) (hmemory : pool.memory = s.pool.memory) :
    s.Agrees pool := by
  have hspells := h'.depicts.keeps.threads.spells h'.depicts.sound
  have hstacked := h'.stacked
  have hbuddy : pool.buddy.arena = s.pool.buddy.arena := harena
  rw [hbuddy] at hspells
  change Stacks _ (c.piles pool.arena) at hstacked
  rw [harena] at hstacked
  exact ⟨harena, ⟨_, h.depicts.keeps.threads.spells h.depicts.sound, hspells⟩,
    (h.depicts.caches_eq h'.depicts harena).symm, ⟨_, h.stacked, hstacked⟩, hmemory⟩

/-- A block that was just granted is merged into what it was cut from. -/
theorem block_returned (h : s.Charts c) {n : Nat} {k : Fin orderCount} {first : Nat}
    {free : Listing} {answer : Except Refusal Nat} {events : List Event}
    (hround : roundSize n = .ok (blockSize k)) (htake : c.free.take? k = some (first, free))
    (hrun : s.pool.allocate n = .ok (answer, pool, events))
    (hbecomes : s.pool.Becomes pool { c with free, blocks := ⟨first, k⟩ :: c.blocks }
      (.block ⟨first, k⟩)) :
    ∃ pool' freed, pool.free ((Item.block ⟨first, k⟩).extent s.pool.arena).address =
        .ok (pool', freed) ∧ Charts ⟨pool', s.held⟩ c ∧ pool'.arena = s.pool.arena ∧
      pool'.memory = s.pool.memory := by
  have hg : c.grant? (.block k) =
      some (.block ⟨first, k⟩, { c with free, blocks := ⟨first, k⟩ :: c.blocks }) := by
    rw [Chart.grant?, htake]
    rfl
  have hgranted := h.grant hg hbecomes
  have hmem : (⟨first, k⟩ : Block) ∈ (⟨first, k⟩ : Block) :: c.blocks := List.mem_cons_self
  obtain ⟨buddy, hfree, hreturned⟩ := hbecomes.depicts.releaseBlock hmem
  have hback := hgranted.giveUp_last hbecomes.arena (Chart.mem_items.2 (.block hmem)) hreturned
  have hrun' := hbecomes.depicts.free_eq_free hmem hfree
  rw [Chart.release_block _ (h.depicts.give_take? (Nat.le_of_lt_succ k.isLt) htake)] at hback
  have hmemory := Pool.memory_of_allocate hround (pageSize_le_blockSize k) hrun
  rw [hbecomes.arena] at hrun'
  exact ⟨_, _, hrun', hback, hreturned.arena.trans hbecomes.arena, hmemory⟩

theorem object_restored (h : s.Charts c) {n page number : Nat} {address : Nat}
    {events : List Event} (hround : roundSize n = .ok (classSizes.get i))
    (hfirst : Sheet.first? (c.sheets i) = some (page, number))
    (hrun : s.pool.allocate n = .ok (.ok address, pool, events)) :
    pool.caches = s.pool.caches ∧ ∃ pool' freed, pool.free address = .ok (pool', freed) ∧
      s.Agrees pool' := by
  obtain ⟨_, hserved⟩ := Pool.served_of_allocate hround hrun
  rw [if_pos (classSizes_lt i)] at hserved
  obtain ⟨m, hpop, hpopped, hbecomes⟩ :=
    h.depicts.allocateObject_popped (class?_eq h.depicts.objectSize_eq i) hfirst
  cases hpopped.symm.trans hserved
  exact ⟨rfl, s.pool, _, h.depicts.free_popped hfirst hpop hbecomes.depicts,
    h.agrees h rfl rfl⟩

/-- A page that holds what formatting writes, behind the caches as they were. -/
theorem enlarged (h : s.Charts c) {page : Nat} {free : Listing} {b : Buddy}
    (hb : s.pool.buddy.allocate pageSize = .ok (.ok (s.pool.arena.pageAddress page), b))
    (hflag : b.flagSlab (s.pool.arena.pageAddress page) = .ok pool.buddy)
    (hcaches : pool.caches =
      s.pool.caches.put i ⟨classSizes.get i, s.pool.arena.pageAddress page⟩)
    (hmemory : pool.memory = (s.pool.memory.patch
      (Slab.formatWords (s.pool.arena.pageAddress page) (classSizes.get i))).writeWord
        (Slab.nextField (s.pool.arena.pageAddress page)) (s.pool.caches.get i).newest)
    (harena : pool.arena = s.pool.arena)
    (hback : Charts ⟨pool, s.held⟩ ({ c with free }.setSheets i
      (⟨page, List.range (Slab.slots (classSizes.get i))⟩ :: c.sheets i))) :
    s.Enlarged i (s.pool.arena.pageAddress page) pool := by
  have hlt : page < s.pool.arena.pages :=
    harena ▸ hback.depicts.page_lt (Chart.mem_setSheets_cons { c with free } i _ (c.sheets i))
  have hfits := Slab.fits_class i
  have hdvd := h.depicts.sound.dvd_pageAddress page
  have hpage := h.depicts.sound.page_lt hlt
  have hrun := Slab.format_run s.pool.memory hfits (Slab.classSizes_eq i) hdvd hpage
  have hstacked := hback.stacked
  change Stacks _ (Chart.piles pool.arena _) at hstacked
  rw [harena, Chart.piles_setSheets] at hstacked
  have hcarving := Slab.carving_eq h.depicts.sound hlt i
  refine ⟨⟨b, hb, hflag⟩, hcaches, ⟨_, _, h.stacked, hcarving, hstacked⟩, ⟨_, hrun, hmemory⟩,
    fun x hx => ?_⟩
  obtain ⟨m, hformat, hshows, hframe⟩ :=
    Slab.format_eq s.pool.memory hfits (Slab.classSizes_eq i) hdvd hpage
  cases hformat.symm.trans hrun
  have hout := Slab.outside_header hx
  simp only [Slab.headerSize] at hout
  rw [hmemory, Memory.read_writeWord_of_outside _ _ _ _ (by simp only [Slab.nextField]; omega)]
  apply hframe
  intro hreserved
  have hin := hreserved.mem_page hfits hshows.lt_slots
  omega

theorem slab_enlarged (h : s.Charts c) {n page address : Nat} {free : Listing}
    {events : List Event} (hround : roundSize n = .ok (classSizes.get i))
    (hfull : Sheet.first? (c.sheets i) = none) (htake : c.free.take? 0 = some (page, free))
    (hrun : s.pool.allocate n = .ok (.ok address, pool, events)) :
    ∃ pool' freed, pool.free address = .ok (pool', freed) ∧
      s.Enlarged i (s.pool.arena.pageAddress page) pool' := by
  obtain ⟨_, hserved⟩ := Pool.served_of_allocate hround hrun
  rw [if_pos (classSizes_lt i),
    h.depicts.allocateObject_full (class?_eq h.depicts.objectSize_eq i) hfull] at hserved
  cases h.depicts.keeps.takeOrder (Nat.zero_le _) with
  | inl hrefused => cases hrefused.1.symm.trans htake
  | inr htaken =>
      obtain ⟨page', free', b, hsome, hb, hkeeps, hkin⟩ := htaken
      cases hsome.symm.trans htake
      obtain ⟨b', m, hflag, hgrow, hgrown, hbecomes⟩ := h.depicts.newSlab i hb hkeeps hkin
      cases hgrown.symm.trans hserved
      let sheet : Sheet := ⟨page, (List.range (Slab.slots (classSizes.get i))).tail⟩
      have hsheet := Chart.mem_setSheets_cons { c with free } i sheet (c.sheets i)
      have hfits := Slab.fits_class i
      have hlive : 0 ∈ sheet.live (classSizes.get i) :=
        Sheet.mem_live.2 ⟨hfits.slots_pos,
          (List.nodup_cons.1 (hfits.range_slots ▸ List.nodup_range)).1⟩
      have hg : c.grant? (.object i) =
          some (.object i page 0, { c with free }.setSheets i (sheet :: c.sheets i)) := by
        rw [Chart.grant?, hfull, htake]
        rfl
      obtain ⟨m', hrelease, hreturned⟩ := hbecomes.depicts.releaseObject hsheet hlive
      have hfree := hbecomes.depicts.free_eq_release hsheet hlive hrelease
      have hback := (h.grant hg hbecomes).giveUp_last hbecomes.arena
        (Chart.mem_items.2 (.object hsheet hlive)) hreturned
      have hpages := hbecomes.depicts.proper.nodup_sheets i
      rw [Chart.setSheets_sheets, if_pos rfl] at hpages
      obtain ⟨hfresh, hpages⟩ := List.nodup_cons.1 hpages
      rw [Chart.release_slab (c := { c with free }) hfresh hpages, ← hfits.range_slots] at hback
      rw [hbecomes.arena] at hfree hrelease
      have hlt := hbecomes.depicts.page_lt hsheet
      rw [hbecomes.arena] at hlt
      have hmemory := Except.ok.inj (hrelease.symm.trans (h.depicts.release_grown hlt hgrow))
      exact ⟨_, _, hfree, h.enlarged hb hflag rfl hmemory hbecomes.arena hback⟩

/-- A request that is granted and the release right after it. -/
theorem allocate_free (h : s.Charts c) {n address : Nat} {events : List Event}
    (hrun : s.pool.allocate n = .ok (.ok address, pool, events)) :
    ∃ pool' freed, pool.free address = .ok (pool', freed) ∧ s.Undone pool events pool' := by
  cases hround : roundSize n with
  | error refusal =>
      rw [Pool.allocate, hround] at hrun
      cases hrun
  | ok rounded =>
      obtain ⟨-, g, rfl⟩ := exists_grade hround
      cases h.depicts.allocate hround with
      | refused hnone hrefused => cases hrefused.symm.trans hrun
      | granted x c' p' hsome hgranted hbecomes =>
          cases hgranted.symm.trans hrun
          cases Chart.grants_of_eq_some hsome with
          | @block k first free htake =>
              obtain ⟨pool', freed, hfree, hback, harena, hmemory⟩ :=
                h.block_returned hround htake hrun hbecomes
              refine ⟨pool', freed, hfree, .restored (fun page size => ?_) ?_
                (h.agrees hback harena hmemory)⟩
              · simp [Chart.news, Event.outcome]
              · exact (h.depicts.caches_eq_of_heads hbecomes.depicts hbecomes.arena
                  fun _ => rfl).symm
          | @object i page number hfirst =>
              obtain ⟨hcaches, pool', freed, hfree, hagrees⟩ :=
                h.object_restored hround hfirst hrun
              refine ⟨pool', freed, hfree, .restored (fun page size => ?_) hcaches hagrees⟩
              simp [Chart.news, hfirst, Event.outcome]
          | @slab i page free hfull htake =>
              obtain ⟨pool', freed, hfree, henlarged⟩ := h.slab_enlarged hround hfull htake hrun
              refine ⟨pool', freed, hfree, .enlarged i _ ?_ henlarged⟩
              simp [Chart.news, hfull, htake]

end Charts

/-- At every point of a run a request and the release right after it leave the pool as it was, or
with one more slab whose objects are all free. -/
theorem Reached.allocate_free_undone {start stop : Nat} {s : Ledger} (h : Reached start stop s)
    {size address : Nat} {pool : Pool} {events : List Event}
    (hrun : s.pool.allocate size = .ok (.ok address, pool, events)) :
    ∃ pool' freed, pool.free address = .ok (pool', freed) ∧ s.Undone pool events pool' := by
  obtain ⟨c, hcharts, -⟩ := h.charts
  exact hcharts.allocate_free hrun

/-- Requests in a payload of four pages: one is served from a slab, one makes a new slab. -/
theorem allocate_free_undone_of_four_pages : ∃ s, Reached 4096 24576 s ∧
    (∃ pool pool' events freed, s.pool.allocate 100 = .ok (.ok 8320, pool, events) ∧
      pool.free 8320 = .ok (pool', freed) ∧ s.Agrees pool') ∧
    ∃ pool pool' events freed, s.pool.allocate 1000 = .ok (.ok 13312, pool, events) ∧
      pool.free 13312 = .ok (pool', freed) ∧ s.Enlarged 7 12288 pool' := by
  have hreplay : (replay? .blank 4096 24576 [.allocate 5000, .allocateZeroed 100, .allocate 100,
      .write 8500 7, .free 8320]).any (fun s =>
        s.pool.response? 100 = some (.ok 8320, [.granted 128 8320]) ∧
        s.pool.response? 1000 =
          some (.ok 13312, [.slabCreated 12288 1024, .granted 1024 13312])) = true := by
    decide +kernel
  obtain ⟨s, hreached, hresponses⟩ := exists_reached_of_replay? hreplay
  obtain ⟨hpopped, hgrown⟩ := of_decide_eq_true hresponses
  obtain ⟨pool, hrun⟩ := Pool.exists_allocate hpopped
  obtain ⟨pool', freed, hfree, hundone⟩ := hreached.allocate_free_undone hrun
  obtain ⟨grown, hrun'⟩ := Pool.exists_allocate hgrown
  obtain ⟨grown', freed', hfree', hundone'⟩ := hreached.allocate_free_undone hrun'
  refine ⟨s, hreached, ⟨pool, pool', _, freed, hrun, hfree, ?_⟩,
    grown, grown', _, freed', hrun', hfree', ?_⟩
  · cases hundone with
    | restored _ _ hagrees => exact hagrees
    | enlarged i page hevents => simp at hevents
  · cases hundone' with
    | restored hevents => simp at hevents
    | enlarged i page hevents henlarged =>
        simp only [List.mem_cons, Event.slabCreated.injEq, reduceCtorEq, List.not_mem_nil, or_false]
          at hevents
        obtain ⟨rfl, hsize⟩ := hevents
        obtain rfl := classSizes_inj i 7 hsize
        exact henlarged

end Ledger
end BuddySlab
