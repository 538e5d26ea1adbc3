import BuddySlab.Proofs.Isolation

/-!
The bytes that clients hold. An operation of the pool writes to the page table, to what slabs keep
for themselves and to the item it grants or takes back, so whatever else is held keeps its bytes;
and what is done to the page tier alone writes to the table only, all of which lies before the
payload.
-/

namespace BuddySlab

namespace Memory

theorem read_writeBytes_of_outside (m : Memory) (start : Nat) (bytes : List UInt8) {x : Nat}
    (h : x < start ∨ start + bytes.length ≤ x) : (m.writeBytes start bytes).read x = m.read x := by
  induction bytes generalizing m start with
  | nil => rfl
  | cons byte rest ih =>
      rw [List.length_cons] at h
      rw [writeBytes, ih _ _ (by omega), read_write, if_neg (by omega)]

/-- Where bytes are written it does not matter what was there. -/
theorem read_writeBytes_inside (m m' : Memory) (start : Nat) (bytes : List UInt8) {x : Nat}
    (hlow : start ≤ x) (hhigh : x < start + bytes.length) :
    (m.writeBytes start bytes).read x = (m'.writeBytes start bytes).read x := by
  induction bytes generalizing m m' start with
  | nil => exact absurd hhigh (Nat.not_lt.2 hlow)
  | cons byte rest ih =>
      rw [List.length_cons] at hhigh
      rw [writeBytes, writeBytes]
      by_cases hx : x = start
      · rw [read_writeBytes_of_outside _ _ _ (.inl (by omega)),
          read_writeBytes_of_outside _ _ _ (.inl (by omega)), read_write, read_write, if_pos hx,
          if_pos hx]
      · exact ih _ _ _ (by omega) (by omega)

theorem fill_zero (m : Memory) (start : Nat) (byte : UInt8) : m.fill start 0 byte = m := by
  ext x
  rw [read_fill, if_neg (by omega)]

theorem fill_succ (m : Memory) (start count : Nat) (byte : UInt8) :
    m.fill start (count + 1) byte = (m.fill start count byte).write (start + count) byte := by
  ext x
  rw [read_write, read_fill, read_fill]
  by_cases hx : x = start + count
  · rw [if_pos hx, if_pos (by omega)]
  · rw [if_neg hx]
    by_cases hin : start ≤ x ∧ x < start + count
    · rw [if_pos hin, if_pos (by omega)]
    · rw [if_neg hin, if_neg (by omega)]

end Memory

theorem Descriptor.length_image (d : Descriptor) : d.image.length = recordSize := rfl

namespace PageTable
variable {t : PageTable} {m : Memory}

theorem length_images (t : PageTable) :
    (t.entries.toList.flatMap Descriptor.image).length = t.arena.tableSize := by
  rw [Arena.tableSize, ← t.size_entries, ← Array.length_toList]
  induction t.entries.toList with
  | nil => simp
  | cons d rest ih =>
      rw [List.flatMap_cons, List.length_append, ih, d.length_image, List.length_cons, Nat.succ_mul,
        Nat.add_comm]

theorem read_writeImage (ha : t.arena.Sound) {x : Nat} (hx : t.arena.payloadStart ≤ x) :
    (t.writeImage m).read x = m.read x := by
  refine m.read_writeBytes_of_outside _ _ (.inr ?_)
  rw [t.length_images]
  exact Nat.le_trans ha.table_le hx

/-- The bytes of the table are what the table says. -/
theorem read_writeImage_inside (t : PageTable) (m m' : Memory) {x : Nat}
    (hx : (⟨t.arena.tableStart, t.arena.tableSize⟩ : Extent).Covers x) :
    (t.writeImage m).read x = (t.writeImage m').read x := by
  apply Memory.read_writeBytes_inside _ _ _ _ hx.1
  rw [t.length_images]
  exact hx.2

end PageTable

namespace Pool
variable {p p' : Pool} {c c' : Chart} {x y : Item} {z : Nat}

/-- All bytes of the range, those of the table included. -/
def image (p : Pool) : Memory :=
  p.buddy.table.writeImage p.memory

theorem Depicts.read_image (h : p.Depicts c) (hz : p.arena.payloadStart ≤ z) :
    p.image.read z = p.memory.read z :=
  PageTable.read_writeImage h.sound hz

/-- An item that is held afterwards and apart from what was worked on keeps its bytes. -/
theorem Becomes.read_eq (h : p.Becomes p' c' x) (hy : y ∈ c'.items)
    (hapart : (y.extent p.arena).Apart (x.extent p.arena)) (hz : (y.extent p.arena).Covers z) :
    p'.memory.read z = p.memory.read z := by
  refine h.frame z (fun hreserved => ?_) (hapart z hz)
  rw [← h.arena] at hreserved hz
  exact h.depicts.reserves_apart hy hreserved hz

theorem Depicts.extent_apart (h : p.Depicts c) (hx : x ∈ c.items) (hy : y ∈ c.items) (hne : x ≠ y) :
    (x.extent p.arena).Apart (y.extent p.arena) :=
  fun _ hzx hzy => hne (h.item_unique hx hy hzx hzy)

section Block
variable {size : Nat} {answer : Except Refusal Nat} {events : List Event}

/-- The check of a block that was taken changes nothing. -/
theorem takeBlock_of_allocateBlock (hrun : p.allocateBlock size = .ok (answer, p', events)) :
    p.takeBlock size = .ok (answer, p') := by
  obtain ⟨⟨answer', taken⟩, htake, hrun⟩ := bind_eq_ok.1 hrun
  cases answer' with
  | error refusal =>
      cases hrun
      exact htake
  | ok address =>
      obtain ⟨_, -, hrun⟩ := bind_eq_ok.1 hrun
      cases hrun
      exact htake

/-- The page tier serves blocks alone, and has no bytes of the payload to write to. -/
theorem buddy_of_takeBlock (hrun : p.takeBlock size = .ok (answer, p')) :
    p.buddy.allocate size = .ok (answer, p'.buddy) ∧ p' = { p with buddy := p'.buddy } := by
  obtain ⟨⟨answer', b⟩, hallocate, hrun⟩ := bind_eq_ok.1 hrun
  cases hrun
  exact ⟨hallocate, rfl⟩

theorem memory_of_allocateBlock (hrun : p.allocateBlock size = .ok (answer, p', events)) :
    p'.memory = p.memory := by
  rw [(buddy_of_takeBlock (takeBlock_of_allocateBlock hrun)).2]

end Block

/-- Each tier serves the sizes on its side of a page. -/
theorem served_of_allocate {size rounded : Nat} {answer : Except Refusal Nat} {events : List Event}
    (hround : roundSize size = .ok rounded) (hrun : p.allocate size = .ok (answer, p', events)) :
    ∃ events', (if rounded < pageSize then p.allocateObject rounded else p.allocateBlock rounded) =
      .ok (answer, p', events') := by
  rw [allocate, hround] at hrun
  by_cases hlt : rounded < pageSize
  · simp only [if_pos hlt] at hrun ⊢
    obtain ⟨⟨answer', q, events'⟩, hserved, heq⟩ := bind_eq_ok.1 hrun
    cases heq
    exact ⟨events', hserved⟩
  · simp only [if_neg hlt] at hrun ⊢
    obtain ⟨⟨answer', q, events'⟩, hserved, heq⟩ := bind_eq_ok.1 hrun
    cases heq
    exact ⟨events', hserved⟩

theorem memory_of_allocate {size rounded : Nat} {answer : Except Refusal Nat} {events : List Event}
    (hround : roundSize size = .ok rounded) (hle : pageSize ≤ rounded)
    (hrun : p.allocate size = .ok (answer, p', events)) : p'.memory = p.memory := by
  obtain ⟨events', hblock⟩ := served_of_allocate hround hrun
  rw [if_neg (Nat.not_lt.2 hle)] at hblock
  exact memory_of_allocateBlock hblock

end Pool

namespace Ledger

/-- Some acts lead from the one ledger to the other; these extents stay held, and no byte of them is
written. -/
structure Spares (kept : List Extent) (s s' : Ledger) : Prop where
  runs : ∃ acts, Runs s acts s'
  held : kept ⊆ s'.held
  bytes : ∀ e ∈ kept, ∀ x, e.Covers x → s'.pool.memory.read x = s.pool.memory.read x

namespace Spares
variable {s s' s'' : Ledger} {kept : List Extent}

theorem refl (s : Ledger) : Spares s.held s s :=
  ⟨⟨[], .nil s⟩, fun _ he => he, fun _ _ _ _ => rfl⟩

theorem trans (h : Spares kept s s') (h' : Spares kept s' s'') : Spares kept s s'' := by
  obtain ⟨acts, hruns⟩ := h.runs
  obtain ⟨acts', hruns'⟩ := h'.runs
  exact ⟨⟨acts ++ acts', hruns.append hruns'⟩, h'.held,
    fun e he x hx => (h'.bytes e he x hx).trans (h.bytes e he x hx)⟩

theorem mono {fewer : List Extent} (h : Spares kept s s') (hsub : fewer ⊆ kept) :
    Spares fewer s s' :=
  ⟨h.runs, fun _ he => h.held (hsub he), fun e he => h.bytes e (hsub he)⟩

theorem charts {c : Chart} (h : Spares kept s s') (hcharts : s.Charts c) :
    ∃ c', s'.Charts c' ∧ s'.pool.arena = s.pool.arena := by
  obtain ⟨acts, hruns⟩ := h.runs
  obtain ⟨c', hcharts', harena, -⟩ := hcharts.runs hruns
  exact ⟨c', hcharts', harena⟩

end Spares

namespace Charts
variable {s : Ledger} {c : Chart} {size : Nat} {e f : Extent} {answer : Except Refusal Nat}
  {pool : Pool} {events : List Event}

theorem allocate_keeps (h : s.Charts c) (hrun : s.pool.allocate size = .ok (answer, pool, events))
    (he : e ∈ s.held) {z : Nat} (hz : e.Covers z) : pool.memory.read z = s.pool.memory.read z := by
  cases hround : roundSize size with
  | error refusal =>
      rw [Pool.allocate, hround] at hrun
      cases hrun
      rfl
  | ok rounded =>
      obtain ⟨-, g, rfl⟩ := exists_grade hround
      cases h.depicts.allocate hround with
      | refused hnone hrefused =>
          cases hrefused.symm.trans hrun
          rfl
      | granted x c' p' hsome hgranted hbecomes =>
          cases hgranted.symm.trans hrun
          obtain ⟨y, hy, rfl⟩ := h.exists_item he
          have hitems := h.depicts.proper.items_grant hsome
          have hfresh : x ∉ c.items :=
            (List.nodup_cons.1 (hitems.nodup_iff.1 hbecomes.depicts.items_nodup)).1
          have hx' : x ∈ c'.items := hitems.mem_iff.2 List.mem_cons_self
          have hy' : y ∈ c'.items := hitems.mem_iff.2 (List.mem_cons_of_mem x hy)
          have hapart := hbecomes.depicts.extent_apart hy' hx' fun heq => hfresh (heq ▸ hy)
          rw [hbecomes.arena] at hapart
          exact hbecomes.read_eq hy' hapart hz

theorem free_keeps (h : s.Charts c) (hf : f ∈ s.held)
    (hrun : s.pool.free f.address = .ok (pool, events)) (he : e ∈ s.held) (hne : e ≠ f) {z : Nat}
    (hz : e.Covers z) : pool.memory.read z = s.pool.memory.read z := by
  obtain ⟨x, hx, rfl⟩ := h.exists_item hf
  obtain ⟨y, hy, rfl⟩ := h.exists_item he
  obtain ⟨p', hfree, hbecomes⟩ := h.depicts.free hx
  cases hfree.symm.trans hrun
  have hyx : y ≠ x := fun heq => hne (heq ▸ rfl)
  have hitems := h.depicts.proper.items_release hx s.pool.arena.base
  have hy' : y ∈ (c.release s.pool.arena.base x).items :=
    (List.mem_cons.1 (hitems.mem_iff.1 hy)).resolve_left hyx
  exact hbecomes.read_eq hy' (h.depicts.extent_apart hy hx hyx) hz

theorem held_nodup (h : s.Charts c) : s.held.Nodup := by
  refine h.held_apart.imp_of_mem fun {e f} he hf hapart heq => ?_
  subst heq
  have hpos := (h.isolated.placed e he).1
  exact hapart e.address (Extent.covers_address hpos) (Extent.covers_address hpos)

theorem held_unique (h : s.Charts c) (he : e ∈ s.held) (hf : f ∈ s.held)
    (haddress : e.address = f.address) : e = f := by
  by_contra hne
  have hapart := h.held_apart.forall he hf hne
  refine hapart e.address (Extent.covers_address (h.isolated.placed e he).1) ?_
  rw [haddress]
  exact Extent.covers_address (h.isolated.placed f hf).1

/-- Releasing an extent is forgetting what is held at its address. -/
theorem erase_eq_filter (h : s.Charts c) (he : e ∈ s.held) :
    s.held.erase e = s.held.filter (·.address ≠ e.address) := by
  rw [h.held_nodup.erase_eq_filter]
  refine List.filter_congr fun f hf => ?_
  have hiff : f = e ↔ f.address = e.address :=
    ⟨fun heq => heq ▸ rfl, fun haddress => h.held_unique hf he haddress⟩
  by_cases hfe : f = e
  · simp [hfe]
  · simp [hfe, hiff.not.1 hfe]

theorem address_pos (h : s.Charts c) (he : e ∈ s.held) : 0 < e.address := by
  have hstart := (h.isolated.placed e he).2.2.1
  have := h.depicts.sound.payloadStart_pos
  omega

theorem allocate_spares (h : s.Charts c)
    (hrun : s.pool.allocate size = .ok (answer, pool, events)) :
    Spares s.held s ⟨pool, credit s.held size answer⟩ := by
  refine ⟨⟨_, .cons (.allocate hrun) (.nil _)⟩, ?_, fun e he x hx => h.allocate_keeps hrun he hx⟩
  cases answer with
  | error refusal => exact fun _ he => he
  | ok address =>
      rw [credit]
      split
      · exact fun _ he => he
      · exact fun _ he => List.mem_cons_of_mem _ he

theorem free_spares (h : s.Charts c) (hf : f ∈ s.held)
    (hrun : s.pool.free f.address = .ok (pool, events)) :
    Spares (s.held.erase f) s ⟨pool, s.held.erase f⟩ := by
  refine ⟨⟨_, .cons (.free hf hrun) (.nil _)⟩, fun _ he => he, fun e he x hx => ?_⟩
  have hmem := h.held_nodup.mem_erase_iff.1 he
  exact h.free_keeps hf hrun hmem.2 hmem.1 hx

/-- Clearing is writing one byte after the other. -/
theorem fill_runs (s : Ledger) (he : e ∈ s.held) {count : Nat} (hcount : count ≤ e.size)
    (byte : UInt8) : ∃ acts, Runs s acts ⟨s.pool.fill e.address count byte, s.held⟩ := by
  induction count with
  | zero =>
      refine ⟨[], ?_⟩
      rw [Pool.fill, Memory.fill_zero]
      exact .nil s
  | succ n ih =>
      obtain ⟨acts, hruns⟩ := ih (Nat.le_of_succ_le hcount)
      have hcovers : e.Covers (e.address + n) :=
        ⟨Nat.le_add_right _ _, Nat.add_lt_add_left hcount _⟩
      refine ⟨acts ++ [.write (e.address + n) byte], hruns.append (.cons ?_ (.nil _))⟩
      simp only [Pool.fill, Memory.fill_succ]
      exact .write he hcovers

theorem fill_spares (h : s.Charts c) (he : e ∈ s.held) {count : Nat} (hcount : count ≤ e.size)
    (byte : UInt8) :
    Spares (s.held.erase e) s ⟨s.pool.fill e.address count byte, s.held⟩ := by
  refine ⟨fill_runs s he hcount byte, fun _ hf => List.mem_of_mem_erase hf, fun f hf x hx => ?_⟩
  obtain ⟨hne, hf⟩ := h.held_nodup.mem_erase_iff.1 hf
  have hapart := h.held_apart.forall hf he hne
  have hout : ¬(e.address ≤ x ∧ x < e.address + count) :=
    fun hin => hapart x hx ⟨hin.1, Nat.lt_of_lt_of_le hin.2 (Nat.add_le_add_left hcount _)⟩
  rw [Pool.fill, Memory.read_fill, if_neg hout]

/-- A block goes back to the page tier without a byte of the payload being written. -/
theorem memory_of_free (h : s.Charts c) (he : e ∈ s.held) (hle : pageSize ≤ e.size)
    (hrun : s.pool.free e.address = .ok (pool, events)) : pool.memory = s.pool.memory := by
  obtain ⟨b, hb, rfl⟩ := h.exists_block he hle
  obtain ⟨buddy, hfree, -⟩ := h.depicts.releaseBlock hb
  cases (h.depicts.free_eq_free hb hfree).symm.trans hrun
  rfl

end Charts
end Ledger
end BuddySlab
