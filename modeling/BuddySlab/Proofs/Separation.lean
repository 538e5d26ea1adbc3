import BuddySlab.Proofs.Depiction

/-!
No byte has two owners. Every item lies on the pages of its home, homes and free blocks are pieces
of one tiling, and on the page of a slab the header and the objects are apart. So the items, the
free blocks, the table and what the slabs keep for themselves never meet, and a client that writes
to what it holds leaves the chart as it is.
-/

namespace BuddySlab

namespace Memory
variable {m m' m'' : Memory} {extents : List Extent} {e : Extent}

/-- Only bytes of these extents are different. -/
def ChangedIn (m : Memory) (extents : List Extent) (m' : Memory) : Prop :=
  ∀ x, (∀ e ∈ extents, ¬e.Covers x) → m'.read x = m.read x

/-- Extents may be replaced by such that cover them. -/
theorem ChangedIn.widen {more : List Extent} (h : m.ChangedIn extents m')
    (hcover : ∀ e ∈ extents, ∃ f ∈ more, ∀ x, e.Covers x → f.Covers x) : m.ChangedIn more m' := by
  intro x hx
  apply h
  intro e he hcovers
  obtain ⟨f, hf, hwide⟩ := hcover e he
  exact hx f hf (hwide x hcovers)

theorem ChangedIn.mono {more : List Extent} (h : m.ChangedIn extents m') (hsub : extents ⊆ more) :
    m.ChangedIn more m' :=
  h.widen fun e he => ⟨e, hsub he, fun _ hx => hx⟩

theorem changedIn_write (he : e ∈ extents) {address : Nat} (hcovers : e.Covers address)
    (byte : UInt8) : m.ChangedIn extents (m.write address byte) := by
  intro x hx
  rw [read_write, if_neg]
  intro heq
  exact hx e he (heq ▸ hcovers)

theorem changedIn_fill (he : e ∈ extents) {count : Nat} (hcount : count ≤ e.size) (byte : UInt8) :
    m.ChangedIn extents (m.fill e.address count byte) := by
  intro x hx
  rw [read_fill, if_neg]
  intro hin
  exact hx e he ⟨hin.1, by omega⟩

theorem changedIn_copy (he : e ∈ extents) {count : Nat} (hcount : count ≤ e.size) (source : Nat) :
    m.ChangedIn extents (m.copy source e.address count) := by
  intro x hx
  rw [read_copy, if_neg]
  intro hin
  exact hx e he ⟨hin.1, by omega⟩

end Memory

theorem Block.covers_extent_iff {a : Arena} {b : Block} {z : Nat} :
    (b.extent a).Covers z ↔ ∃ j ∈ b.pages, (a.pageExtent j).Covers z := by
  simp only [Extent.Covers, Block.extent, Arena.pageExtent, Arena.pageAddress, blockSize_eq,
    Block.mem_pages, pageSize]
  generalize 2 ^ b.order = n, a.payloadStart = start, b.first = first
  constructor
  · intro hz
    exact ⟨(z - start) / 4096, by omega⟩
  · intro hpages
    obtain ⟨j, hj, hz⟩ := hpages
    constructor
    · omega
    · omega

/-- An object lies behind the header of its page. -/
theorem Sheet.covers_object {a : Arena} {i : Fin classSizes.size} {s : Sheet} {number z : Nat}
    (hlive : number ∈ s.live (classSizes.get i))
    (hz : ((Item.object i s.page number).extent a).Covers z) :
    a.pageAddress s.page + Slab.headerSize ≤ z ∧ (a.pageExtent s.page).Covers z := by
  have hfits := Slab.fits_class i
  have hwithin := hfits.slot_within (a.pageAddress s.page) (Sheet.mem_live.1 hlive).1
  simp only [Extent.Covers, Item.extent, Arena.pageExtent] at hz ⊢
  omega

theorem Chart.covers_home {a : Arena} {c : Chart} {x : Item} {z : Nat} (hx : x ∈ c.items)
    (hz : (x.extent a).Covers z) : ∃ j ∈ x.home.pages, (a.pageExtent j).Covers z := by
  cases Chart.mem_items.1 hx with
  | block hb => exact Block.covers_extent_iff.1 hz
  | @object i s number hs hlive =>
      exact ⟨s.page, Block.first_mem_pages ⟨s.page, 0⟩, (Sheet.covers_object hlive hz).2⟩

namespace Pool.Depicts
variable {p : Pool} {c : Chart} {i : Fin classSizes.size} {s : Sheet} {x y : Item} {b : Block}
  {z : Nat}

/-- Two blocks of the chart that cover one byte are the same. -/
theorem block_unique (h : p.Depicts c) {d : Block} (hb : b ∈ c.free.blocks ++ c.used)
    (hd : d ∈ c.free.blocks ++ c.used) {j m : Nat} (hj : j ∈ b.pages) (hm : m ∈ d.pages)
    (hzj : (p.arena.pageExtent j).Covers z) (hzm : (p.arena.pageExtent m).Covers z) : b = d := by
  obtain rfl := Arena.pageExtent_unique hzj hzm
  exact h.tiles.unique hb hd hj hm

theorem free_apart (h : p.Depicts c) (hb : b ∈ c.free.blocks) (hx : x ∈ c.items) :
    (x.extent p.arena).Apart (b.extent p.arena) := by
  intro z hzx hzb
  obtain ⟨j, hj, hzj⟩ := Chart.covers_home hx hzx
  obtain ⟨m, hm, hzm⟩ := Block.covers_extent_iff.1 hzb
  have hhome := Chart.home_mem_used hx
  have heq := h.block_unique (List.mem_append_right _ hhome) (List.mem_append_left _ hb) hj hm hzj hzm
  exact (List.nodup_append.1 h.tiles.nodup).2.2 b hb _ hhome heq.symm

/-- What is held of a slab's page is an object of that slab. -/
theorem item_on_slab (h : p.Depicts c) (hx : x ∈ c.items) (hs : s ∈ c.sheets i)
    (hzx : (x.extent p.arena).Covers z) (hz : (p.arena.pageExtent s.page).Covers z) :
    ∃ number ∈ s.live (classSizes.get i), x = .object i s.page number := by
  cases Chart.mem_items.1 hx with
  | block hb =>
      obtain ⟨m, hm, hzm⟩ := Block.covers_extent_iff.1 hzx
      obtain rfl := Arena.pageExtent_unique hzm hz
      exact absurd (Chart.mem_slabPages.2 ⟨i, s, hs, rfl⟩) (h.not_mem_slabPages hb hm)
  | @object j t number ht hlive =>
      have hpage := Arena.pageExtent_unique (Sheet.covers_object hlive hzx).2 hz
      obtain ⟨rfl, rfl⟩ := h.proper.sheet_unique ht hs hpage
      exact ⟨number, hlive, rfl⟩

theorem header_apart (h : p.Depicts c) (hx : x ∈ c.items) (hs : s ∈ c.sheets i) :
    (x.extent p.arena).Apart ⟨p.arena.pageAddress s.page, Slab.headerSize⟩ := by
  intro z hzx hz
  have hpage : (p.arena.pageExtent s.page).Covers z :=
    ⟨hz.1, Nat.lt_of_lt_of_le hz.2
      (Nat.add_le_add_left (show Slab.headerSize ≤ pageSize by decide) _)⟩
  obtain ⟨number, hlive, rfl⟩ := h.item_on_slab hx hs hzx hpage
  exact absurd (Sheet.covers_object hlive hzx).1 (Nat.not_le.2 hz.2)

/-- A free object is apart from all items. -/
theorem free_object_apart (h : p.Depicts c) (hx : x ∈ c.items) (hs : s ∈ c.sheets i) {n : Nat}
    (hn : n ∈ s.stack) :
    (x.extent p.arena).Apart
      ⟨Slab.slot (p.arena.pageAddress s.page) (classSizes.get i) n, classSizes.get i⟩ := by
  intro z hzx hz
  have hfits := Slab.fits_class i
  have hwithin := hfits.slot_within (p.arena.pageAddress s.page) (h.proper.stack_lt i s hs n hn)
  have hpage : (p.arena.pageExtent s.page).Covers z := by
    simp only [Extent.Covers, Arena.pageExtent] at hz ⊢
    omega
  obtain ⟨number, hlive, rfl⟩ := h.item_on_slab hx hs hzx hpage
  have hne : number ≠ n := fun heq => (Sheet.mem_live.1 hlive).2 (heq ▸ hn)
  have hapart := Slab.slot_apart (p.arena.pageAddress s.page) (classSizes.get i) hne
  simp only [Extent.Covers, Item.extent] at hzx hz
  omega

/-- What a slab keeps for itself is part of no item. -/
theorem reserves_apart (h : p.Depicts c) (hx : x ∈ c.items) (hz : c.Reserves p.arena z) :
    ¬(x.extent p.arena).Covers z := by
  obtain ⟨i, s, hs, hreserved⟩ := hz
  intro hzx
  cases hreserved with
  | inl hheader => exact h.header_apart hx hs z hzx hheader
  | inr hlink =>
      obtain ⟨n, hn, hin⟩ := hlink
      exact h.free_object_apart hx hs hn z hzx ((Slab.fits_class i).covers_link hin)

theorem item_unique (h : p.Depicts c) (hx : x ∈ c.items) (hy : y ∈ c.items)
    (hzx : (x.extent p.arena).Covers z) (hzy : (y.extent p.arena).Covers z) : x = y := by
  obtain ⟨j, hj, hzj⟩ := Chart.covers_home hx hzx
  obtain ⟨m, hm, hzm⟩ := Chart.covers_home hy hzy
  have heq := h.block_unique (List.mem_append_right _ (Chart.home_mem_used hx))
    (List.mem_append_right _ (Chart.home_mem_used hy)) hj hm hzj hzm
  have hcross {b : Block} {i : Fin classSizes.size} {s : Sheet} (hb : b ∈ c.blocks)
      (hs : s ∈ c.sheets i) : b ≠ ⟨s.page, 0⟩ := by
    intro hpage
    subst hpage
    exact h.not_mem_slabPages hb (Block.first_mem_pages _) (Chart.mem_slabPages.2 ⟨i, s, hs, rfl⟩)
  cases Chart.mem_items.1 hx with
  | block hb =>
      cases Chart.mem_items.1 hy with
      | block hd => exact congrArg Item.block heq
      | object ht hlive' => exact absurd heq (hcross hb ht)
  | @object i s number hs hlive =>
      cases Chart.mem_items.1 hy with
      | block hd => exact absurd heq.symm (hcross hd hs)
      | @object i' t number' ht hlive' =>
          obtain ⟨rfl, rfl⟩ := h.proper.sheet_unique hs ht (congrArg Block.first heq)
          by_contra hne
          have hapart := Slab.slot_apart (p.arena.pageAddress s.page) (classSizes.get i)
            fun hnumber : number = number' => hne (hnumber ▸ rfl)
          simp only [Extent.Covers, Item.extent] at hzx hzy
          omega

theorem items_nodup (h : p.Depicts c) : c.items.Nodup :=
  h.proper.items_nodup (List.nodup_append.1 h.used_nodup).1

/-- Items are aligned to their size and lie in the payload. -/
theorem item_placed (h : p.Depicts c) (hx : x ∈ c.items) :
    0 < (x.extent p.arena).size ∧ (x.extent p.arena).size ∣ (x.extent p.arena).address ∧
      p.arena.payloadStart ≤ (x.extent p.arena).address ∧
      (x.extent p.arena).address + (x.extent p.arena).size ≤ p.arena.stop := by
  cases Chart.mem_items.1 hx with
  | @block b hb =>
      have hmem : b ∈ c.free.blocks ++ c.used :=
        List.mem_append_right _ (List.mem_append_left _ hb)
      have hend := h.sound.pageAddress_le_stop (h.tiles.last_le hmem)
      have hpos := blockSize_pos b.order
      simp only [Item.extent, Block.extent, blockSize_eq] at hpos ⊢
      refine ⟨hpos, ?_, Nat.le_add_right _ _, ?_⟩
      · rw [h.sound.pageAddress_eq]
        exact Nat.mul_dvd_mul_left pageSize (h.tiles.aligned b hmem)
      · rw [Arena.pageAddress, Nat.add_mul, Nat.mul_comm (2 ^ b.order)] at hend
        rw [Arena.pageAddress]
        omega
  | @object i s number hs hlive =>
      have hfits := Slab.fits_class i
      have hwithin := hfits.slot_within (p.arena.pageAddress s.page) (Sheet.mem_live.1 hlive).1
      have hstop := h.sound.pageAddress_le_stop (i := s.page + 1) (h.page_lt hs)
      have hstart : p.arena.payloadStart ≤ p.arena.pageAddress s.page := Nat.le_add_right _ _
      rw [Arena.pageAddress, Nat.add_mul, Nat.one_mul] at hstop
      refine ⟨hfits.size_pos, hfits.dvd_slot (h.sound.dvd_pageAddress s.page), ?_, ?_⟩
      · simp only [Item.extent]
        omega
      · simp only [Item.extent, Arena.pageAddress] at *
        omega

/-- Clients that write to what they hold leave the chart as it is. -/
theorem rewrite (h : p.Depicts c) {m : Memory}
    (hm : p.memory.ChangedIn (c.items.map (Item.extent p.arena)) m) :
    Depicts { p with memory := m } c := by
  refine { h with chain := fun i => (h.chain i).congr fun s hs w hw => hm w fun e he => ?_ }
  obtain ⟨x, hx, rfl⟩ := List.mem_map.1 he
  exact h.reserves_apart hx ⟨i, s, hs, hw⟩

end Pool.Depicts
end BuddySlab
