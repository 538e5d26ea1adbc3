import BuddySlab.Proofs.Contents
import BuddySlab.Proofs.Isolation

/-!
What is held leads back to where it came from. From the moment a request is granted until its block
is released, the records and the slabs say of the address what was asked for: the size of its grade,
the tier, and in the object tier the cache, from any byte of the object. A block keeps its pages free
of all marks, and releasing it makes just these pages free.
-/

namespace BuddySlab

theorem Slab.containing_of_covers {a : Arena} (ha : a.Sound) {j x : Nat} (hj : j < a.pages)
    (hx : (a.pageExtent j).Covers x) : containing x = a.pageAddress j := by
  have hword := ha.page_lt hj
  simp only [Extent.Covers, Arena.pageExtent] at hx
  rw [containing_eq (by omega)]
  rw [ha.pageAddress_eq] at hx ⊢
  simp only [pageSize] at hx ⊢
  omega

/-- The other blocks of a tiling have the pages that these have not. -/
theorem Tiles.exists_mem_iff {base pages j : Nat} {bs cs : List Block}
    (h : Tiles base pages (bs ++ cs)) :
    (∃ b ∈ bs, j ∈ b.pages) ↔ j < pages ∧ ∀ d ∈ cs, j ∉ d.pages := by
  constructor
  · intro hlisted
    obtain ⟨b, hb, hj⟩ := hlisted
    refine ⟨h.page_lt (List.mem_append_left _ hb) hj, fun d hd hj' => ?_⟩
    have heq := h.unique (List.mem_append_left _ hb) (List.mem_append_right _ hd) hj hj'
    exact (List.nodup_append.1 h.nodup).2.2 b hb d hd heq
  · intro hrest
    obtain ⟨b, hb, hj⟩ := h.exists_block hrest.1
    cases List.mem_append.1 hb with
    | inl hb => exact ⟨b, hb, hj⟩
    | inr hb => exact absurd hj (hrest.2 b hb)

namespace Pool
variable {p : Pool} {c : Chart} {i : Fin classSizes.size} {s : Sheet} {b : Block} {x : Nat}

/-- The byte lies in a free block. -/
def Unused (p : Pool) (x : Nat) : Prop :=
  ∃ k ≤ maxOrder, ∃ blocks, p.buddy.freeBlocks k p.arena.pages = .ok blocks ∧
    ∃ address ∈ blocks, (⟨address, blockSize k⟩ : Extent).Covers x

namespace Depicts

theorem descriptorAt_page (h : p.Depicts c) {j : Nat} (hj : j < p.arena.pages)
    (hx : (p.arena.pageExtent j).Covers x) :
    p.buddy.table.descriptorAt x = .ok (p.buddy.table.record j) := by
  have hpageOf : p.buddy.table.arena.pageOf x = .ok j := h.sound.pageOf_eq hj hx.1 hx.2
  rw [PageTable.descriptorAt, hpageOf, ok_bind,
    PageTable.descriptor_eq (show j < p.buddy.table.arena.pages from hj)]

/-- Every byte of a slab's page leads to the size of its objects. -/
theorem usableSize_page (h : p.Depicts c) (hs : s ∈ c.sheets i)
    (hx : (p.arena.pageExtent s.page).Covers x) : p.usableSize x = .ok (classSizes.get i) := by
  obtain ⟨link, hshows⟩ := (h.chain i).linked.shows hs
  rw [usableSize, h.descriptorAt_page (h.page_lt hs) hx, ok_bind]
  simp only [h.slab_of_sheet hs, if_true, Slab.containing_of_covers h.sound (h.page_lt hs) hx,
    hshows.objectSize_eq, pure_eq_ok]

/-- The pages of a held block carry no mark. -/
theorem flags_of_block (h : p.Depicts c) (hb : b ∈ c.blocks) {j : Nat} (hj : j ∈ b.pages) :
    j < p.arena.pages ∧ (p.buddy.table.record j).flags = .empty := by
  have hused : b ∈ c.used := List.mem_append_left _ hb
  have hlt : j < p.arena.pages := h.tiles.page_lt (List.mem_append_right _ hused) hj
  have hslab : (p.buddy.table.record j).flags.slab = false := by
    rw [← Bool.not_eq_true, h.slab_iff j hlt]
    exact h.not_mem_slabPages hb hj
  have hfree : (p.buddy.table.record j).flags.free = false := by
    rw [← Bool.not_eq_true, h.keeps.free_iff j hlt, not_exists]
    exact h.keeps.not_mem hused hj
  exact ⟨hlt, congrArg₂ Flags.mk hfree hslab⟩

theorem unused_iff (h : p.Depicts c) :
    p.Unused x ↔ ∃ b ∈ c.free.blocks, (b.extent p.arena).Covers x := by
  simp only [Unused, h.surveys.free_eq _ _ (Nat.le_refl _), Chart.survey]
  constructor
  · intro hunused
    obtain ⟨k, hk, blocks, hblocks, address, haddress, hx⟩ := hunused
    cases hblocks
    obtain ⟨j, hj, rfl⟩ := List.mem_map.1 haddress
    exact ⟨⟨j, k⟩, h.keeps.mem_blocks hj, hx⟩
  · intro hcovers
    obtain ⟨b, hb, hx⟩ := hcovers
    obtain ⟨horder, hmem⟩ := Listing.mem_blocks.1 hb
    exact ⟨b.order, Nat.le_of_lt_succ horder, _, rfl, _, List.mem_map_of_mem hmem, hx⟩

/-- A byte of the payload is in a free block or on a page that is used. -/
theorem unused_iff_page (h : p.Depicts c) : p.Unused x ↔
    ∃ j < p.arena.pages, (p.arena.pageExtent j).Covers x ∧ ∀ d ∈ c.used, j ∉ d.pages := by
  simp only [h.unused_iff, Block.covers_extent_iff]
  constructor
  · intro hcovers
    obtain ⟨b, hb, j, hj, hx⟩ := hcovers
    obtain ⟨hlt, hrest⟩ := h.tiles.exists_mem_iff.1 ⟨b, hb, hj⟩
    exact ⟨j, hlt, hx, hrest⟩
  · intro hpage
    obtain ⟨j, hlt, hx, hrest⟩ := hpage
    obtain ⟨b, hb, hj⟩ := h.tiles.exists_mem_iff.2 ⟨hlt, hrest⟩
    exact ⟨b, hb, j, hj, hx⟩

end Depicts
end Pool

namespace Ledger

/-- Releasing the extent makes its bytes free, none of which was free before, and no others. -/
def GivesBack (s : Ledger) (e : Extent) (k : Nat) : Prop :=
  ∃ pool, s.pool.free e.address = .ok (pool, [.blockReleased k e.address]) ∧
    (∀ x, pool.Unused x ↔ s.pool.Unused x ∨ e.Covers x) ∧ ∀ x, e.Covers x → ¬s.pool.Unused x

/-- The address of what is held leads to its size and its tier; in the object tier every byte does,
and the slab is one of the cache of that size; in the page tier no page is marked, and the block is
given back as it was handed out. -/
structure Routes (s : Ledger) (e : Extent) : Prop where
  usable : s.pool.usableSize e.address = .ok e.size
  slab_iff : ∃ d, s.pool.buddy.table.descriptorAt e.address = .ok d ∧
    (d.flags.slab = true ↔ e.size < pageSize)
  inner : e.size < pageSize → ∀ n < e.size, s.pool.usableSize (e.address + n) = .ok e.size
  cache : e.size < pageSize → ∃ cache, s.pool.caches.cache? e.size = some cache ∧
    cache.objectSize = e.size ∧
    Slab.containing e.address ∈ cache.slabs s.pool.memory s.pool.slabLimit
  unmarked : pageSize ≤ e.size → ∀ x, e.Covers x →
    ∃ d, s.pool.buddy.table.descriptorAt x = .ok d ∧ d.flags = .empty
  released : pageSize ≤ e.size → ∃ k ≤ maxOrder, e.size = blockSize k ∧ s.GivesBack e k

/-- A request is granted this address, with what clients hold then. -/
inductive Grants (s : Ledger) (n address : Nat) : Ledger → Prop
  | plain {pool : Pool} {events : List Event}
      (hrun : s.pool.allocate n = .ok (.ok address, pool, events)) :
      Grants s n address ⟨pool, credit s.held n (.ok address)⟩
  | zeroed {pool : Pool} {events : List Event}
      (hrun : s.pool.allocateZeroed n = .ok (.ok address, pool, events)) :
      Grants s n address ⟨pool, credit s.held n (.ok address)⟩

namespace Charts
variable {s : Ledger} {c : Chart} {i : Fin classSizes.size} {t : Sheet} {b : Block} {number : Nat}

theorem routes_object (h : s.Charts c) (ht : t ∈ c.sheets i)
    (hlive : number ∈ t.live (classSizes.get i)) :
    s.Routes ((Item.object i t.page number).extent s.pool.arena) := by
  have hitem := Chart.mem_items.2 (.object ht hlive)
  have hlt : ((Item.object i t.page number).extent s.pool.arena).size < pageSize :=
    classSizes_lt i
  have hle := Nat.not_le.2 hlt
  have hpage {x : Nat} (hx : ((Item.object i t.page number).extent s.pool.arena).Covers x) :
      (s.pool.arena.pageExtent t.page).Covers x := (Sheet.covers_object hlive hx).2
  have hfirst := hpage (Extent.covers_address (Slab.fits_class i).size_pos)
  refine ⟨h.depicts.usableSize_eq hitem, ⟨_, h.depicts.descriptorAt_page (h.depicts.page_lt ht)
    hfirst, iff_of_true (h.depicts.slab_of_sheet ht) hlt⟩, fun _ n hn => ?_, fun _ => ?_,
    fun hsize => absurd hsize hle, fun hsize => absurd hsize hle⟩
  · exact h.depicts.usableSize_page ht (hpage ⟨Nat.le_add_right _ n, Nat.add_lt_add_left hn _⟩)
  · refine ⟨s.pool.caches.get i, ?_, h.depicts.objectSize_eq i, ?_⟩
    · exact congrArg (Option.map s.pool.caches.get) (class?_eq h.depicts.objectSize_eq i)
    · have hslabs := h.depicts.surveys.slabs_eq i s.pool.slabLimit (Nat.le_refl _)
      rw [Slab.containing_of_covers h.depicts.sound (h.depicts.page_lt ht) hfirst, hslabs]
      exact Chart.mem_survey_slabs.2 ⟨t, ht, rfl⟩

/-- The page tier has the block's pages back, and otherwise what it had. -/
theorem givesBack (h : s.Charts c) (hb : b ∈ c.blocks) :
    s.GivesBack ((Item.block b).extent s.pool.arena) b.order := by
  have hitem := Chart.mem_items.2 (.block hb)
  obtain ⟨buddy, hrun, hbecomes⟩ := h.depicts.releaseBlock hb
  have hperm : c.used.Perm (b :: (c.release s.pool.arena.base (.block b)).used) :=
    (List.perm_cons_erase hb).append_right _
  refine ⟨_, h.depicts.free_eq_free hb hrun, fun x => ?_, fun x hx hunused => ?_⟩
  · rw [hbecomes.depicts.unused_iff_page, h.depicts.unused_iff_page, hbecomes.arena]
    simp only [hperm.mem_iff, List.forall_mem_cons]
    constructor
    · intro hpage
      obtain ⟨j, hlt, hx, hrest⟩ := hpage
      by_cases hj : j ∈ b.pages
      · exact .inr (Block.covers_extent_iff.2 ⟨j, hj, hx⟩)
      · exact .inl ⟨j, hlt, hx, hj, hrest⟩
    · intro hor
      cases hor with
      | inl hpage =>
          obtain ⟨j, hlt, hx, -, hrest⟩ := hpage
          exact ⟨j, hlt, hx, hrest⟩
      | inr hcovers =>
          obtain ⟨j, hj, hx⟩ := Block.covers_extent_iff.1 hcovers
          refine ⟨j, (h.depicts.flags_of_block hb hj).1, hx, fun d hd hj' => ?_⟩
          have hnodup := List.nodup_cons.1 (hperm.nodup_iff.1 h.depicts.used_nodup)
          have hmem {f : Block} (hf : f ∈ c.used) : f ∈ c.free.blocks ++ c.used :=
            List.mem_append_right _ hf
          have heq := h.depicts.tiles.unique (hmem (hperm.mem_iff.2 List.mem_cons_self))
            (hmem (hperm.mem_iff.2 (List.mem_cons_of_mem _ hd))) hj hj'
          exact hnodup.1 (heq ▸ hd)
  · obtain ⟨d, hd, hxd⟩ := h.depicts.unused_iff.1 hunused
    exact h.depicts.free_apart hd hitem x hx hxd

theorem routes_block (h : s.Charts c) (hb : b ∈ c.blocks) :
    s.Routes ((Item.block b).extent s.pool.arena) := by
  have hitem := Chart.mem_items.2 (.block hb)
  have hle : pageSize ≤ ((Item.block b).extent s.pool.arena).size :=
    pageSize_le_blockSize b.order
  have hlt := Nat.not_lt.2 hle
  have hflags {x : Nat} (hx : ((Item.block b).extent s.pool.arena).Covers x) :
      ∃ d, s.pool.buddy.table.descriptorAt x = .ok d ∧ d.flags = .empty := by
    obtain ⟨j, hj, hxj⟩ := Block.covers_extent_iff.1 hx
    obtain ⟨hpage, hempty⟩ := h.depicts.flags_of_block hb hj
    exact ⟨_, h.depicts.descriptorAt_page hpage hxj, hempty⟩
  obtain ⟨d, hd, hempty⟩ := hflags (Extent.covers_address (blockSize_pos b.order))
  refine ⟨h.depicts.usableSize_eq hitem, ⟨d, hd, iff_of_false ?_ hlt⟩,
    fun hsize => absurd hsize hlt, fun hsize => absurd hsize hlt, fun _ x => hflags,
    fun _ => ⟨b.order, ?_, rfl, h.givesBack hb⟩⟩
  · rw [hempty]
    exact Bool.false_ne_true
  · exact h.depicts.tiles.order_le b (List.mem_append_right _ (List.mem_append_left _ hb))

theorem routes (h : s.Charts c) {e : Extent} (he : e ∈ s.held) : s.Routes e := by
  obtain ⟨x, hx, rfl⟩ := h.exists_item he
  cases Chart.mem_items.1 hx with
  | block hb => exact h.routes_block hb
  | object ht hlive => exact h.routes_object ht hlive

/-- What is granted is held. -/
theorem granted (h : s.Charts c) {n address : Nat} {s' : Ledger} (hgrants : s.Grants n address s') :
    ∃ rounded c', roundSize n = .ok rounded ∧ ⟨address, rounded⟩ ∈ s'.held ∧ s'.Charts c' := by
  have hanswer {run : Except Fault (Except Refusal Nat × Pool × List Event)} {pool : Pool}
      {events : List Event} (hanswers : s.Answers c n run)
      (hrun : run = .ok (.ok address, pool, events)) :
      ∃ rounded c', roundSize n = .ok rounded ∧
        ⟨address, rounded⟩ ∈ credit s.held n (.ok address) ∧
        Charts ⟨pool, credit s.held n (.ok address)⟩ c' := by
    obtain ⟨c', hcharts, -⟩ := h.settle hanswers hrun
    cases hanswers with
    | refused refusal events' hrefused => cases hrefused.symm.trans hrun
    | granted e pool' c'' events' hgranted hround =>
        cases hgranted.symm.trans hrun
        refine ⟨e.size, c', hround, ?_, hcharts⟩
        rw [credit_ok s.held hround]
        exact List.mem_cons_self
  cases hgrants with
  | plain hrun => exact hanswer (h.request n) hrun
  | zeroed hrun => exact hanswer (h.requestZeroed n) hrun

end Charts

/-- What is held stays held until its address is released. -/
theorem Step.mem_held {s s' : Ledger} {act : Act} {e : Extent} (hstep : Step s act s')
    (he : e ∈ s.held) (hact : act ≠ .free e.address) : e ∈ s'.held := by
  have hcredit {held : List Extent} (hmem : e ∈ held) (size : Nat) (answer : Except Refusal Nat) :
      e ∈ credit held size answer := by
    unfold credit
    split
    · exact hmem
    · split
      · exact hmem
      · exact List.mem_cons_of_mem _ hmem
  cases hstep with
  | allocate _ => exact hcredit he _ _
  | allocateZeroed _ => exact hcredit he _ _
  | freeNull _ => exact he
  | free _ _ =>
      refine (List.mem_erase_of_ne fun heq => hact ?_).2 he
      rw [heq]
  | write _ _ => exact he

theorem Runs.mem_held {s s' : Ledger} {acts : List Act} {e : Extent} (hruns : Runs s acts s')
    (he : e ∈ s.held) (hacts : Act.free e.address ∉ acts) : e ∈ s'.held := by
  induction hruns with
  | nil s => exact he
  | cons hstep _ ih =>
      rw [List.mem_cons, not_or] at hacts
      exact ih (hstep.mem_held he (Ne.symm hacts.1)) hacts.2

/-- All that is held is routed, and what a request was granted is so until it is released, whatever
else happens. -/
theorem Reached.held_routed {start stop : Nat} {s : Ledger} (h : Reached start stop s) :
    (∀ e ∈ s.held, s.Routes e) ∧ ∀ n address s', s.Grants n address s' →
      ∃ rounded, roundSize n = .ok rounded ∧ ∀ acts t, Runs s' acts t →
        Act.free address ∉ acts → t.Routes ⟨address, rounded⟩ := by
  obtain ⟨c, hcharts, -⟩ := h.charts
  refine ⟨fun e => hcharts.routes, fun n address s' hgrants => ?_⟩
  obtain ⟨rounded, c', hround, hmem, hcharts'⟩ := hcharts.granted hgrants
  refine ⟨rounded, hround, fun acts t hruns hacts => ?_⟩
  obtain ⟨c'', hcharts'', -⟩ := hcharts'.runs hruns
  exact hcharts''.routes (hruns.mem_held hmem hacts)

/-- A block of two pages and an object are held; one more page is granted, and is routed after the
block was released and an object was granted. -/
theorem held_routed_of_four_pages : ∃ s, Reached 4096 24576 s ∧
    s.held = [⟨8448, 128⟩, ⟨16384, 8192⟩] ∧ s.Routes ⟨8448, 128⟩ ∧ s.Routes ⟨16384, 8192⟩ ∧
    ∃ s' t, s.Grants 3000 12288 s' ∧ Runs s' [.free 16384, .allocate 20] t ∧
      t.Routes ⟨12288, 4096⟩ := by
  have hreplay : (replay? .blank 4096 24576 [.allocate 5000, .allocateZeroed 100, .allocate 100,
      .write 8500 7, .free 8320]).any (fun s => s.held = [⟨8448, 128⟩, ⟨16384, 8192⟩] &&
        (s.step? (.allocate 3000)).any fun s' =>
          s'.held = [⟨12288, 4096⟩, ⟨8448, 128⟩, ⟨16384, 8192⟩] &&
            (([.free 16384, .allocate 20] : List Act).foldlM step? s').isSome) = true := by
    decide +kernel
  obtain ⟨s, hreached, hs⟩ := exists_reached_of_replay? hreplay
  obtain ⟨hheld, hs⟩ := Bool.and_eq_true_iff.1 hs
  obtain ⟨s', hstep, hs⟩ := (Option.any_eq_true _ _).1 hs
  obtain ⟨hheld', hsome⟩ := Bool.and_eq_true_iff.1 hs
  obtain ⟨t, ht⟩ := Option.isSome_iff_exists.1 hsome
  have hheld := of_decide_eq_true hheld
  have hheld' := of_decide_eq_true hheld'
  have hruns := runs_of_foldlM ht
  have hgrants : s.Grants 3000 12288 s' := by
    cases step_of_step? hstep with
    | @allocate pool pool' held size answer events hrun =>
        cases answer with
        | error refusal => exact absurd (hheld'.symm.trans hheld) (by decide)
        | ok address =>
            have hcredit : credit held 3000 (.ok address) = ⟨address, 4096⟩ :: held := rfl
            obtain rfl : address = 12288 :=
              congrArg Extent.address (List.cons.inj (hcredit.symm.trans hheld')).1
            exact .plain hrun
  obtain ⟨hrouted, hgranted⟩ := hreached.held_routed
  obtain ⟨rounded, hround, hkept⟩ := hgranted 3000 12288 s' hgrants
  obtain rfl : 4096 = rounded := Except.ok.inj hround
  exact ⟨s, hreached, hheld, hrouted _ (by simp [hheld]), hrouted _ (by simp [hheld]), s', t,
    hgrants, hruns, hkept _ t hruns (by decide)⟩

end Ledger
end BuddySlab
