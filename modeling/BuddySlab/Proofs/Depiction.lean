import BuddySlab.Proofs.Chart

/-!
The pool as a chart. A pool depicts a chart if its records, lists, caches and memory say what the
chart says. Each operation of a pool does to the chart what its pure counterpart does, and never
faults; a refusal leaves the pool as it is.
-/

namespace BuddySlab

namespace Chart

/-- The bytes that the slabs keep for themselves. -/
def Reserves (c : Chart) (a : Arena) (z : Nat) : Prop :=
  ∃ i, ∃ s ∈ c.sheets i, Slab.Reserved (a.pageAddress s.page) (classSizes.get i) s.stack z

/-- The events of serving a grade, without the last. -/
def news (c : Chart) (a : Arena) : Grade → List Event
  | .block _ => []
  | .object i =>
      match Sheet.first? (c.sheets i), c.free.take? 0 with
      | none, some (page, _) => [.slabCreated (a.pageAddress page) (classSizes.get i)]
      | _, _ => []

end Chart

/-- The event of releasing an item. -/
def Item.farewell (a : Arena) : Item → Event
  | .block b => .blockReleased b.order (a.pageAddress b.first)
  | .object i page number => .objectReleased ((Item.object i page number).extent a).address

/-- The last event of a request. -/
def Event.outcome (rounded : Nat) : Except Refusal Nat → Event
  | .ok address => .granted rounded address
  | .error _ => .exhausted rounded

namespace Pool
variable {p p' : Pool} {c c' : Chart} {i : Fin classSizes.size} {s : Sheet} {x : Item} {m' : Memory}

structure Depicts (p : Pool) (c : Chart) : Prop where
  keeps : p.buddy.Keeps c.free c.used []
  slab_iff : ∀ j < p.arena.pages, (p.buddy.table.record j).flags.slab = true ↔ j ∈ c.slabPages
  cache_eq : ∀ i : Fin classSizes.size,
    p.caches.get i = ⟨classSizes.get i, Cache.chainHead p.arena (c.sheets i)⟩
  chain : ∀ i : Fin classSizes.size, Cache.Chain p.arena p.memory (classSizes.get i) (c.sheets i)

/-- An operation on an item leads to another chart of the same arena, and writes only what the slabs
keep for themselves and the item. -/
structure Becomes (p p' : Pool) (c' : Chart) (x : Item) : Prop where
  depicts : p'.Depicts c'
  arena : p'.arena = p.arena
  frame : ∀ z, ¬c'.Reserves p.arena z → ¬(x.extent p.arena).Covers z →
    p'.memory.read z = p.memory.read z

/-- A request does what the chart does: where the chart grants nothing it is refused and the pool
is as it was, else it answers with the address of the item. -/
inductive Serves (p : Pool) (c : Chart) (g : Grade) (events : Except Refusal Nat → List Event)
    (run : Except Fault (Except Refusal Nat × Pool × List Event)) : Prop
  | refused (hnone : c.grant? g = none)
      (hrun : run = .ok (.error .outOfMemory, p, events (.error .outOfMemory)))
  | granted (x : Item) (c' : Chart) (p' : Pool) (hsome : c.grant? g = some (x, c'))
      (hrun : run = .ok (.ok (x.extent p.arena).address, p',
        events (.ok (x.extent p.arena).address)))
      (hbecomes : p.Becomes p' c' x)

/-- What is done after a request is served may only add to its events. -/
theorem Serves.map {g : Grade} {events events' : Except Refusal Nat → List Event}
    {run run' : Except Fault (Except Refusal Nat × Pool × List Event)}
    (h : p.Serves c g events run)
    (hmap : ∀ answer p', run = .ok (answer, p', events answer) →
      run' = .ok (answer, p', events' answer)) : p.Serves c g events' run' := by
  cases h with
  | refused hnone hrun => exact .refused hnone (hmap _ _ hrun)
  | granted x c' p' hsome hrun hbecomes => exact .granted x c' p' hsome (hmap _ _ hrun) hbecomes

/-- Releasing an item does what the chart does. -/
def Returns (p : Pool) (c : Chart) (x : Item) : Prop :=
  ∃ p', p.free (x.extent p.arena).address = .ok (p', [x.farewell p.arena]) ∧
    p.Becomes p' (c.release p.arena.base x) x

namespace Depicts

theorem sound (h : p.Depicts c) : p.arena.Sound :=
  h.keeps.sound

theorem tiles (h : p.Depicts c) :
    Tiles p.arena.base p.arena.pages (c.free.blocks ++ c.used) :=
  h.keeps.tiles

theorem used_nodup (h : p.Depicts c) : c.used.Nodup :=
  (List.nodup_append.1 h.tiles.nodup).2.1

theorem proper (h : p.Depicts c) : c.Proper := by
  refine ⟨(List.nodup_append.1 h.used_nodup).2.1.of_map, fun i s hs => ?_, fun i s hs => ?_⟩
  · obtain ⟨link, hshows⟩ := (h.chain i).linked.shows hs
    exact hshows.nodup
  · obtain ⟨link, hshows⟩ := (h.chain i).linked.shows hs
    exact hshows.lt_slots

theorem page_lt (h : p.Depicts c) (hs : s ∈ c.sheets i) : s.page < p.arena.pages :=
  (h.chain i).page_lt s hs

/-- A held block heads no slab. -/
theorem not_mem_slabPages (h : p.Depicts c) {b : Block} (hb : b ∈ c.blocks) {j : Nat}
    (hj : j ∈ b.pages) : j ∉ c.slabPages := by
  intro hslab
  have hpage : (⟨j, 0⟩ : Block) ∈ c.slabPages.map (Block.mk · 0) := List.mem_map_of_mem hslab
  have heq := h.tiles.unique (List.mem_append_right _ (List.mem_append_left _ hb))
    (List.mem_append_right _ (List.mem_append_right _ hpage)) hj (Block.first_mem_pages ⟨j, 0⟩)
  exact (List.nodup_append.1 h.used_nodup).2.2 b hb _ hpage heq

/-- Writing to one page leaves the slabs of other classes. -/
theorem chain_setSheets (h : p.Depicts c) {sheets : List Sheet} {page : Nat}
    (hchain : Cache.Chain p.arena m' (classSizes.get i) sheets)
    (hpage : ∀ j ≠ i, page ∉ (c.sheets j).map Sheet.page)
    (hframe : ∀ z, (z < p.arena.pageAddress page ∨ p.arena.pageAddress page + pageSize ≤ z) →
      m'.read z = p.memory.read z) (j : Fin classSizes.size) :
    Cache.Chain p.arena m' (classSizes.get j) ((c.setSheets i sheets).sheets j) := by
  rw [Chart.setSheets_sheets]
  by_cases hj : j = i
  · subst hj
    rwa [if_pos rfl]
  · rw [if_neg hj]
    exact (h.chain j).congr_page (hpage j hj) hframe

/-- One slab gets another stack, and only its page is written. -/
theorem restack (h : p.Depicts c) (hs : s ∈ c.sheets i) {f : List Nat → List Nat}
    (hchain : Cache.Chain p.arena m' (classSizes.get i) ((c.sheets i).map (Sheet.restack s.page f)))
    (hframe : ∀ z, (z < p.arena.pageAddress s.page ∨ p.arena.pageAddress s.page + pageSize ≤ z) →
      m'.read z = p.memory.read z) :
    Depicts { p with memory := m' } (c.setSheets i ((c.sheets i).map (Sheet.restack s.page f))) := by
  have hpages : ((c.sheets i).map (Sheet.restack s.page f)).map Sheet.page =
      (c.sheets i).map Sheet.page := Sheet.map_restack_page
  have hslabs := Chart.slabPages_setSheets hpages
  refine ⟨?_, fun j hj => ?_, fun j => ?_, h.chain_setSheets hchain (fun j hj => ?_) hframe⟩
  · have hused : (c.setSheets i ((c.sheets i).map (Sheet.restack s.page f))).used = c.used := by
      rw [Chart.used, hslabs]
      rfl
    rw [hused]
    exact h.keeps
  · rw [hslabs]
    exact h.slab_iff j hj
  · refine (h.cache_eq j).trans ?_
    rw [Chart.setSheets_sheets]
    by_cases hj : j = i
    · rw [if_pos hj, Cache.chainHead_map (Sheet.restack_page s.page f), hj]
      rfl
    · rw [if_neg hj]
      rfl
  · intro hmem
    obtain ⟨t, ht, hpage⟩ := List.mem_map.1 hmem
    exact hj (h.proper.sheet_unique ht hs hpage).1

/-- The page tier may do its part alone. -/
theorem of_buddy {b : Buddy} (h : p.Depicts c) (hsheets : c'.sheets = c.sheets)
    (hkeeps : b.Keeps c'.free c'.used []) (hkin : p.buddy.Kin b) :
    Depicts { p with buddy := b } c' := by
  have harena : b.arena = p.arena := hkin.arena
  have hslabs : c'.slabPages = c.slabPages := by
    rw [Chart.slabPages, hsheets]
    rfl
  refine ⟨hkeeps, fun j hj => ?_, fun i => ?_, fun i => ?_⟩
  · change j < b.arena.pages at hj
    rw [harena] at hj
    rw [hslabs, hkin.slab]
    exact h.slab_iff j hj
  · change p.caches.get i = ⟨_, Cache.chainHead b.arena (c'.sheets i)⟩
    rw [harena, hsheets]
    exact h.cache_eq i
  · change Cache.Chain b.arena p.memory _ (c'.sheets i)
    rw [harena, hsheets]
    exact h.chain i

/-- A block that lies in the payload is found to lie there. -/
theorem holds_block (h : p.Depicts c) {b : Block} (hb : b ∈ c.free.blocks ++ c.used) :
    p.arena.holds (p.arena.pageAddress b.first) (blockSize b.order) = true := by
  rw [h.sound.pageAddress_eq]
  exact h.sound.holds_iff.2 ⟨b.first, rfl, h.tiles.last_le hb⟩

theorem allocateBlock (h : p.Depicts c) (k : Fin orderCount) :
    p.Serves c (.block k) (fun _ => c.news p.arena (.block k)) (p.allocateBlock (blockSize k)) := by
  obtain ⟨buddy, caches, memory⟩ := p
  have hk : k.val ≤ maxOrder := Nat.le_of_lt_succ k.isLt
  have hallocate : buddy.allocate (blockSize k) = buddy.takeOrder k := by
    rw [Buddy.allocate, if_neg (Nat.ne_of_gt (blockSize_pos k)), orderFor_blockSize]
  cases h.keeps.takeOrder hk with
  | inl hrefused =>
      obtain ⟨hnone, hrun⟩ := hrefused
      refine .refused (by rw [Chart.grant?, hnone]; rfl) ?_
      simp only [Pool.allocateBlock, Pool.takeBlock, hallocate, hrun, ok_bind, pure_eq_ok,
        Chart.news]
  | inr htaken =>
      obtain ⟨first, free, b, hsome, hrun, hkeeps, hkin⟩ := htaken
      have harena : b.arena = buddy.arena := hkin.arena
      let c' : Chart := { c with free, blocks := ⟨first, k⟩ :: c.blocks }
      have hdepicts : Depicts ⟨b, caches, memory⟩ c' := h.of_buddy rfl hkeeps hkin
      have hholds : b.arena.holds (b.arena.pageAddress first) (blockSize k) = true :=
        hdepicts.holds_block (b := ⟨first, k⟩)
          (List.mem_append_right _ (List.mem_append_left _ List.mem_cons_self))
      have hne : buddy.arena.pageAddress first ≠ 0 := Nat.ne_of_gt (h.sound.pageAddress_pos first)
      rw [harena] at hholds
      refine .granted (.block ⟨first, k⟩) c' ⟨b, caches, memory⟩ (by rw [Chart.grant?, hsome]; rfl) ?_
        ⟨hdepicts, harena, fun _ _ _ => rfl⟩
      have hcheck : checkBlock ⟨b, caches, memory⟩ (buddy.arena.pageAddress first) (blockSize k) =
          .ok () := by
        simp only [checkBlock, arena, harena, hholds, Bool.true_and, bne_iff_ne, ne_eq, hne,
          not_false_eq_true, if_true, pure_eq_ok]
      simp only [Pool.allocateBlock, takeBlock, hallocate, hrun, ok_bind, pure_eq_ok, hcheck,
        Chart.news]
      rfl

/-- A block of one page that is marked as a slab becomes the newest slab of a class. -/
theorem add_slab (h : p.Depicts c) {b : Buddy} {free : Listing}
    (hkeeps : b.Keeps free (⟨s.page, 0⟩ :: c.used) []) (harena : b.arena = p.arena)
    (hslab : ∀ j, (b.table.record j).flags.slab = true ↔
      j = s.page ∨ (p.buddy.table.record j).flags.slab = true)
    (hfresh : s.page ∉ c.slabPages)
    (hchain : Cache.Chain p.arena m' (classSizes.get i) (s :: c.sheets i))
    (hframe : ∀ z, (z < p.arena.pageAddress s.page ∨ p.arena.pageAddress s.page + pageSize ≤ z) →
      m'.read z = p.memory.read z) :
    Depicts ⟨b, p.caches.put i ⟨classSizes.get i, p.arena.pageAddress s.page⟩, m'⟩
      ({ c with free }.setSheets i (s :: c.sheets i)) := by
  have hpages := Chart.slabPages_setSheets_cons (c := { c with free }) (i := i) s
  refine ⟨?_, fun j hj => ?_, fun j => ?_, ?_⟩
  · refine hkeeps.of_perm ?_
    exact ((hpages.map (Block.mk · 0)).append_left c.blocks).trans List.perm_middle
  · change j < b.arena.pages at hj
    rw [harena] at hj
    rw [hslab, hpages.mem_iff, List.mem_cons]
    exact or_congr_right (h.slab_iff j hj)
  · change (p.caches.put i _).get j = ⟨_, Cache.chainHead b.arena _⟩
    rw [harena, Chart.setSheets_sheets, CacheSet.get_put]
    by_cases hj : j = i
    · rw [if_pos hj, if_pos hj, hj]
      rfl
    · rw [if_neg hj, if_neg hj]
      exact h.cache_eq j
  · change ∀ j, Cache.Chain b.arena m' _ _
    rw [harena]
    refine h.chain_setSheets hchain (fun j _ hmem => hfresh ?_) hframe
    exact List.mem_flatMap.2 ⟨j, List.mem_finRange j, hmem⟩

/-- A page that was taken becomes the newest slab of a class and gives up its lowest object. -/
theorem newSlab (h : p.Depicts c) (i : Fin classSizes.size) {b : Buddy} {free : Listing} {page : Nat}
    (hrun : p.buddy.takeOrder 0 = .ok (.ok (p.arena.pageAddress page), b))
    (hkeeps : b.Keeps free (⟨page, 0⟩ :: c.used) []) (hkin : p.buddy.Kin b) :
    ∃ b' m', b.flagSlab (p.arena.pageAddress page) = .ok b' ∧
      (p.caches.get i).grow p.memory (p.arena.pageAddress page) =
        .ok (((Item.object i page 0).extent p.arena).address,
          ⟨classSizes.get i, p.arena.pageAddress page⟩, m') ∧
      p.growCache i = .ok (.ok ((Item.object i page 0).extent p.arena).address,
        ⟨b', p.caches.put i ⟨classSizes.get i, p.arena.pageAddress page⟩, m'⟩,
        [.slabCreated (p.arena.pageAddress page) (classSizes.get i)]) ∧
      p.Becomes ⟨b', p.caches.put i ⟨classSizes.get i, p.arena.pageAddress page⟩, m'⟩
        ({ c with free }.setSheets i
          (⟨page, (List.range (Slab.slots (classSizes.get i))).tail⟩ :: c.sheets i))
        (.object i page 0) := by
  have harena : b.arena = p.arena := hkin.arena
  have hlt : page < b.arena.pages := hkeeps.page_lt (c := ⟨page, 0⟩) List.mem_cons_self
  have hfresh : page ∉ c.slabPages := fun hmem => by
    have hnodup := (List.nodup_append.1 hkeeps.tiles.nodup).2.1
    exact (List.nodup_cons.1 hnodup).1 (List.mem_append_right _ (List.mem_map_of_mem hmem))
  have hfresh' : page ∉ (c.sheets i).map Sheet.page := fun hmem =>
    hfresh (List.mem_flatMap.2 ⟨i, List.mem_finRange i, hmem⟩)
  obtain ⟨b', hb', hkeeps', harena', hslab⟩ := hkeeps.flagSlab hlt
  rw [harena] at hlt hb' harena'
  simp only [hkin.slab] at hslab
  obtain ⟨m', hgrow, hchain, hframe⟩ :=
    (h.chain i).grow h.sound (Slab.classSizes_eq i) hlt hfresh'
  let sheet : Sheet := ⟨page, (List.range (Slab.slots (classSizes.get i))).tail⟩
  refine ⟨b', m', hb', ?_, ?_, ?_, harena', fun z hz hitem => hframe z fun hin => ?_⟩
  · rw [h.cache_eq, hgrow]
    rfl
  · have hallocate : p.buddy.allocate pageSize = p.buddy.takeOrder 0 := rfl
    simp only [Pool.growCache, Pool.takePage, Pool.openSlab, hallocate, hrun, ok_bind, hb',
      h.cache_eq, hgrow, pure_eq_ok]
    rfl
  · refine h.add_slab (s := sheet) hkeeps' harena' hslab hfresh hchain fun z hz => ?_
    refine hframe z fun hin => ?_
    have hin := hin.mem_page (Slab.fits_class i) fun n hn => List.mem_range.1 hn
    change z < p.arena.pageAddress page ∨ p.arena.pageAddress page + pageSize ≤ z at hz
    omega
  · have hsheet := Chart.mem_setSheets_cons { c with free } i sheet (c.sheets i)
    cases (Slab.fits_class i).reserved_range hin with
    | inl hreserved => exact hz ⟨i, sheet, hsheet, hreserved⟩
    | inr hcovers => exact hitem hcovers

theorem growCache_refused (hrun : p.buddy.takeOrder 0 = .ok (.error .outOfMemory, p.buddy)) :
    p.growCache i = .ok (.error .outOfMemory, p, []) := by
  have hallocate : p.buddy.allocate pageSize = p.buddy.takeOrder 0 := rfl
  simp only [Pool.growCache, Pool.takePage, hallocate, hrun, ok_bind, pure_eq_ok]

/-- A page from the page tier becomes the newest slab of a class. -/
theorem growCache (h : p.Depicts c) (hfull : Sheet.first? (c.sheets i) = none) :
    p.Serves c (.object i) (fun _ => c.news p.arena (.object i)) (p.growCache i) := by
  cases h.keeps.takeOrder (Nat.zero_le _) with
  | inl hrefused =>
      obtain ⟨hnone, hrun⟩ := hrefused
      refine .refused (by rw [Chart.grant?, hfull, hnone]; rfl) ?_
      simp only [growCache_refused hrun, Chart.news, hfull, hnone]
  | inr htaken =>
      obtain ⟨page, free, b, hsome, hrun, hkeeps, hkin⟩ := htaken
      obtain ⟨b', m', -, -, hgrow, hbecomes⟩ := h.newSlab i hrun hkeeps hkin
      refine .granted (.object i page 0) _ _ (by rw [Chart.grant?, hfull, hsome]; rfl) ?_ hbecomes
      simp only [hgrow, Chart.news, hfull, hsome]

theorem objectSize_eq (h : p.Depicts c) (i : Fin classSizes.size) :
    (p.caches.get i).objectSize = classSizes.get i := by
  rw [h.cache_eq i]

/-- The object on top of the first stack that is not empty leaves it, and only memory differs. -/
theorem allocateObject_popped (h : p.Depicts c) {size page number : Nat}
    (hclass : p.caches.class? size = some i)
    (hfirst : Sheet.first? (c.sheets i) = some (page, number)) :
    ∃ m', Slab.pop p.memory (p.arena.pageAddress page) =
        .ok (some ((Item.object i page number).extent p.arena).address, m') ∧
      p.allocateObject size = .ok (.ok ((Item.object i page number).extent p.arena).address,
        { p with memory := m' }, []) ∧
      p.Becomes { p with memory := m' }
        (c.setSheets i ((c.sheets i).map (Sheet.restack page List.tail)))
        (.object i page number) := by
  obtain ⟨buddy, caches, memory⟩ := p
  have hcache : caches.get i = ⟨classSizes.get i, Cache.chainHead buddy.arena (c.sheets i)⟩ :=
    h.cache_eq i
  have hsound : buddy.arena.Sound := h.sound
  have hold : Cache.Chain buddy.arena memory (classSizes.get i) (c.sheets i) := h.chain i
  have hlimit : (c.sheets i).length ≤ Pool.slabLimit ⟨buddy, caches, memory⟩ := hold.length_le
  cases hold.popFirst hsound hlimit with
  | inl hfull => simp [hfull.1] at hfirst
  | inr hpopped =>
      obtain ⟨page', number', m', hfirst', hrun, hchain, hframe⟩ := hpopped
      rw [hfirst, Option.some.injEq, Prod.mk.injEq] at hfirst'
      obtain ⟨rfl, rfl⟩ := hfirst'
      obtain ⟨stack, hs⟩ := Sheet.first?_eq_some hfirst
      have hpop := hold.popFrom_eq hsound hlimit
      rw [hfirst, hrun] at hpop
      refine ⟨m', hpop.symm, ?_, h.restack hs hchain fun z hz => hframe z (Slab.outside_header hz),
        rfl, fun z hz _ => hframe z ?_⟩
      · simp only [Pool.allocateObject, hclass, hcache, hrun, ok_bind, pure_eq_ok]
        rfl
      · by_contra hin
        refine hz ⟨i, ⟨page, stack⟩, ?_, .inl ?_⟩
        · rw [Chart.setSheets_sheets, if_pos rfl]
          exact List.mem_map.2 ⟨_, hs, if_pos rfl⟩
        · change buddy.arena.pageAddress page ≤ z ∧
            z < buddy.arena.pageAddress page + Slab.headerSize
          omega

theorem allocateObject_full (h : p.Depicts c) {size : Nat} (hclass : p.caches.class? size = some i)
    (hfull : Sheet.first? (c.sheets i) = none) : p.allocateObject size = p.growCache i := by
  obtain ⟨buddy, caches, memory⟩ := p
  have hcache : caches.get i = ⟨classSizes.get i, Cache.chainHead buddy.arena (c.sheets i)⟩ :=
    h.cache_eq i
  have hsound : buddy.arena.Sound := h.sound
  have hold : Cache.Chain buddy.arena memory (classSizes.get i) (c.sheets i) := h.chain i
  have hlimit : (c.sheets i).length ≤ Pool.slabLimit ⟨buddy, caches, memory⟩ := hold.length_le
  have hrun := hold.popFrom_eq hsound hlimit
  rw [hfull] at hrun
  simp only [Pool.allocateObject, hclass, hcache, hrun, ok_bind]

theorem allocateObject (h : p.Depicts c) (i : Fin classSizes.size) :
    p.Serves c (.object i) (fun _ => c.news p.arena (.object i))
      (p.allocateObject (classSizes.get i)) := by
  have hclass : p.caches.class? (classSizes.get i) = some i := class?_eq h.objectSize_eq i
  cases hfirst : Sheet.first? (c.sheets i) with
  | none =>
      rw [h.allocateObject_full hclass hfirst]
      exact h.growCache hfirst
  | some found =>
      obtain ⟨page, number⟩ := found
      obtain ⟨m', -, hrun, hbecomes⟩ := h.allocateObject_popped hclass hfirst
      refine .granted (.object i page number) _ _ (by rw [Chart.grant?, hfirst]) ?_ hbecomes
      simp only [hrun, Chart.news, hfirst]

theorem allocate (h : p.Depicts c) {n : Nat} {g : Grade} (hround : roundSize n = .ok g.size) :
    p.Serves c g (fun answer => c.news p.arena g ++ [.outcome g.size answer]) (p.allocate n) := by
  cases g with
  | object i =>
      have hlt : (Grade.object i).size < pageSize := classSizes_lt i
      refine (h.allocateObject i).map fun answer p' hrun => ?_
      rw [Pool.allocate, hround]
      simp only [if_pos hlt]
      simp only [Grade.size, hrun, ok_bind, pure_eq_ok]
      cases answer <;> rfl
  | block k =>
      have hle : ¬(Grade.block k).size < pageSize := Nat.not_lt.2 (pageSize_le_blockSize k)
      refine (h.allocateBlock k).map fun answer p' hrun => ?_
      rw [Pool.allocate, hround]
      simp only [if_neg hle]
      simp only [Grade.size, hrun, ok_bind, pure_eq_ok]
      cases answer <;> rfl

theorem free_zero (p : Pool) : p.free 0 = .ok (p, []) :=
  rfl

/-- The record of the page that an item begins on says which tier it came from. -/
theorem descriptorAt_item (h : p.Depicts c) (hx : x ∈ c.items) :
    p.buddy.table.descriptorAt (x.extent p.arena).address =
        .ok (p.buddy.table.record x.home.first) ∧
      0 < (x.extent p.arena).address := by
  have hhome := Chart.home_mem_used hx
  have hpage : x.home.first < p.buddy.table.arena.pages := h.keeps.page_lt hhome
  have hpos := h.sound.pageAddress_pos x.home.first
  have hbounds : p.arena.pageAddress x.home.first ≤ (x.extent p.arena).address ∧
      (x.extent p.arena).address < p.arena.pageAddress x.home.first + pageSize := by
    cases Chart.mem_items.1 hx with
    | block hb => exact ⟨Nat.le_refl _, Nat.lt_add_of_pos_right (by decide)⟩
    | @object i s number hs hlive =>
        have hfits := Slab.fits_class i
        have hwithin := hfits.slot_within (p.arena.pageAddress s.page) (Sheet.mem_live.1 hlive).1
        have hsize := hfits.size_pos
        simp only [Item.home, Item.extent]
        omega
  refine ⟨?_, Nat.lt_of_lt_of_le hpos hbounds.1⟩
  have hpageOf : p.buddy.table.arena.pageOf (x.extent p.arena).address = .ok x.home.first :=
    h.sound.pageOf_eq hpage hbounds.1 hbounds.2
  rw [PageTable.descriptorAt, hpageOf, ok_bind, PageTable.descriptor_eq hpage]

theorem slab_of_block (h : p.Depicts c) {b : Block} (hb : b ∈ c.blocks) :
    (p.buddy.table.record b.first).flags.slab = false := by
  have hpage : b.first < p.arena.pages :=
    h.keeps.page_lt (Chart.home_mem_used (Chart.mem_items.2 (.block hb)))
  rw [← Bool.not_eq_true, h.slab_iff b.first hpage]
  exact h.not_mem_slabPages hb b.first_mem_pages

/-- The page tier keeps a held block apart from all else that is used. -/
theorem keeps_block (h : p.Depicts c) {b : Block} (hb : b ∈ c.blocks) :
    p.buddy.Keeps c.free (b :: (c.blocks.erase b ++ c.slabPages.map (Block.mk · 0))) [] :=
  h.keeps.of_perm ((List.perm_cons_erase hb).append_right _).symm

theorem slab_of_sheet (h : p.Depicts c) (hs : s ∈ c.sheets i) :
    (p.buddy.table.record s.page).flags.slab = true :=
  (h.slab_iff s.page (h.page_lt hs)).2 (Chart.mem_slabPages.2 ⟨i, s, hs, rfl⟩)

/-- The slab flag sends a block to the page tier. -/
theorem free_eq_free (h : p.Depicts c) {b : Block} (hb : b ∈ c.blocks) {buddy : Buddy}
    (hrun : p.buddy.free (p.arena.pageAddress b.first) = .ok (b.order, buddy)) :
    p.free ((Item.block b).extent p.arena).address =
      .ok ({ p with buddy }, [(Item.block b).farewell p.arena]) := by
  obtain ⟨hdescriptor, hpos⟩ := h.descriptorAt_item (Chart.mem_items.2 (.block hb))
  simp only [Pool.free, if_neg (Nat.ne_of_gt hpos), hdescriptor, ok_bind, Item.home,
    h.slab_of_block hb, Bool.false_eq_true, if_false, Pool.freeBlock]
  change (p.buddy.free (p.arena.pageAddress b.first) >>= _) >>= _ = _
  rw [hrun]
  rfl

/-- A block goes back to the page tier, and nothing else differs. -/
theorem releaseBlock (h : p.Depicts c) {b : Block} (hb : b ∈ c.blocks) :
    ∃ buddy, p.buddy.free (p.arena.pageAddress b.first) = .ok (b.order, buddy) ∧
      p.Becomes { p with buddy } (c.release p.arena.base (.block b)) (.block b) := by
  obtain ⟨buddy, hrun, hkeeps, hkin⟩ := (h.keeps_block hb).free (h.slab_of_block hb)
  exact ⟨buddy, hrun, h.of_buddy rfl hkeeps hkin, hkin.arena, fun _ _ _ => rfl⟩

theorem free_block (h : p.Depicts c) {b : Block} (hb : b ∈ c.blocks) :
    p.Returns c (.block b) := by
  obtain ⟨buddy, hrun, hbecomes⟩ := h.releaseBlock hb
  exact ⟨_, h.free_eq_free hb hrun, hbecomes⟩

/-- An object goes back on the stack of its slab, and only memory differs. -/
theorem releaseObject (h : p.Depicts c) (hs : s ∈ c.sheets i) {number : Nat}
    (hlive : number ∈ s.live (classSizes.get i)) :
    ∃ m', Slab.release p.memory ((Item.object i s.page number).extent p.arena).address = .ok m' ∧
      p.Becomes { p with memory := m' } (c.release p.arena.base (.object i s.page number))
        (.object i s.page number) := by
  obtain ⟨hlt, hfresh⟩ := Sheet.mem_live.1 hlive
  obtain ⟨m', hrun, hchain, hframe⟩ := (h.chain i).release h.sound hs hlt hfresh
  let address := Slab.slot (p.arena.pageAddress s.page) (classSizes.get i) number
  have hwithin := (Slab.fits_class i).slot_within (p.arena.pageAddress s.page) hlt
  have hword := (Slab.fits_class i).word_le
  refine ⟨m', hrun, h.restack hs hchain fun z hz => hframe z ?_ ?_, rfl,
    fun z hz hitem => hframe z ?_ ?_⟩
  · exact Slab.outside_header hz
  · omega
  · by_contra hin
    have hsheet : Sheet.restack s.page (number :: ·) s ∈
        (c.release p.arena.base (.object i s.page number)).sheets i := by
      rw [Chart.release, Chart.setSheets_sheets, if_pos rfl]
      exact List.mem_map_of_mem hs
    refine hz ⟨i, _, hsheet, .inl ?_⟩
    rw [Sheet.restack_page]
    omega
  · by_contra hin
    have hcovers : address ≤ z ∧ z < address + classSizes.get i := by omega
    exact hitem hcovers

/-- The slab flag sends an object to its slab. -/
theorem free_eq_release (h : p.Depicts c) (hs : s ∈ c.sheets i) {number : Nat}
    (hlive : number ∈ s.live (classSizes.get i))
    (hrun : Slab.release p.memory ((Item.object i s.page number).extent p.arena).address = .ok m') :
    p.free ((Item.object i s.page number).extent p.arena).address =
      .ok ({ p with memory := m' }, [(Item.object i s.page number).farewell p.arena]) := by
  obtain ⟨hdescriptor, hpos⟩ := h.descriptorAt_item (Chart.mem_items.2 (.object hs hlive))
  simp only [Pool.free, if_neg (Nat.ne_of_gt hpos), hdescriptor, ok_bind, Item.home,
    h.slab_of_sheet hs, if_true, Pool.freeObject, hrun]
  rfl

theorem free_object (h : p.Depicts c) (hs : s ∈ c.sheets i) {number : Nat}
    (hlive : number ∈ s.live (classSizes.get i)) : p.Returns c (.object i s.page number) := by
  obtain ⟨m', hrun, hbecomes⟩ := h.releaseObject hs hlive
  exact ⟨_, h.free_eq_release hs hlive hrun, hbecomes⟩

theorem free (h : p.Depicts c) (hx : x ∈ c.items) : p.Returns c x := by
  cases Chart.mem_items.1 hx with
  | block hb => exact h.free_block hb
  | object hs hlive => exact h.free_object hs hlive

end Depicts

/-- A pool of an arena that was laid out begins with nothing held. -/
theorem init_eq {a : Arena} {start stop : Nat} (m : Memory)
    (h : Arena.layOut start stop = .ok (.ok a)) :
    ∃ p, Pool.init m start stop = .ok (.ok p) ∧ p.arena = a ∧ p.Depicts (.initial a) := by
  have hsound := Arena.sound_of_layOut h
  obtain ⟨b, hb, hkeeps, harena, hslab⟩ := Buddy.init_eq hsound
  refine ⟨⟨b, CacheSet.empty, m.fill a.tableStart a.tableSize 0⟩, ?_, harena,
    ⟨hkeeps, fun j _ => ?_, fun i => ?_, fun i => .nil (Slab.fits_class i)⟩⟩
  · simp only [Pool.init, h, ok_bind, hb, pure_eq_ok]
  · rw [hslab, Chart.slabPages_initial]
    simp
  · exact Vector.getElem_map ..

theorem layOut_of_init {p : Pool} {m : Memory} {start stop : Nat}
    (h : Pool.init m start stop = .ok (.ok p)) : Arena.layOut start stop = .ok (.ok p.arena) := by
  obtain ⟨laid, hlaid, h'⟩ := bind_eq_ok.1 h
  cases laid with
  | error refusal => simp at h'
  | ok a =>
      obtain ⟨p', hinit, harena, -⟩ := init_eq m hlaid
      rw [hinit, Except.ok.injEq, Except.ok.injEq] at h
      rw [hlaid, ← h, harena]

end Pool
end BuddySlab
