import BuddySlab.Proofs.Contents
import Mathlib.Algebra.BigOperators.Group.Finset.Basic

/-!
The slabs as stacks. Each class has a chain of slabs, newest first, and each slab a stack of free
objects that is spelled by words in the objects themselves, whatever clients write to the others.
Serving a class pops the first stack that is not empty, or puts a new slab in front; releasing an
object pushes it on the stack of its page. What is free and what is held on a slab are all of its
objects.
-/

namespace BuddySlab

/-- From this address on, the links visit these addresses and end with zero. -/
inductive Trail (link : Nat → Nat) : Nat → List Nat → Prop
  | stop : Trail link 0 []
  | visit {address : Nat} {rest : List Nat} (hne : address ≠ 0)
      (hrest : Trail link (link address) rest) : Trail link address (address :: rest)

/-- A slab by the address of its page, with its free objects from the top on. -/
structure Pile where
  page : Nat
  stack : List Nat
  deriving DecidableEq, Repr

/-- The object becomes the top, if it lies on this page. -/
def Pile.push (object : Nat) (p : Pile) : Pile :=
  if p.page = Slab.containing object then ⟨p.page, object :: p.stack⟩ else p

/-- The stacks of each class, newest slab first. -/
abbrev Piles := Fin classSizes.size → List Pile

/-- The objects of a slab, ascending. -/
def Slab.carving (page size : Nat) : Except Fault (List Nat) := do
  let first ← alignUp (← Word.add page headerSize) size
  return (List.range (← objectCount size)).map (first + · * size)

namespace Ledger

/-- What is held of a page. -/
def liveOn (s : Ledger) (page : Nat) : List Nat :=
  (s.held.filter (Slab.containing ·.address = page)).map Extent.address

/-- Memory holds this stack on its page; what is on the stack and what is held of the page are
different objects, and all that the slab has. -/
structure Piled (s : Ledger) (size : Nat) (p : Pile) : Prop where
  size_eq : Slab.objectSize s.pool.memory p.page = size
  linked : Trail s.pool.memory.readWord (Slab.top s.pool.memory p.page) p.stack
  count_eq : Slab.freeCount s.pool.memory p.page = p.stack.length
  nodup : (p.stack ++ s.liveOn p.page).Nodup
  objects : ∃ objects, Slab.carving p.page size = .ok objects ∧
    Slab.capacity s.pool.memory p.page = objects.length ∧
    (p.stack ++ s.liveOn p.page).Perm objects
  held_size : ∀ e ∈ s.held, Slab.containing e.address = p.page → e.size = size

/-- The caches chain these slabs, no page is chained twice, and every object that is held lies on
one of them. -/
structure Stacks (s : Ledger) (piles : Piles) : Prop where
  size_eq : ∀ i : Fin classSizes.size, (s.pool.caches.get i).objectSize = classSizes.get i
  chain : ∀ i : Fin classSizes.size,
    Trail (Slab.next s.pool.memory) (s.pool.caches.get i).newest ((piles i).map Pile.page)
  pages_nodup : ((List.finRange classSizes.size).flatMap fun i => (piles i).map Pile.page).Nodup
  piled : ∀ i, ∀ p ∈ piles i, s.Piled (classSizes.get i) p
  held_on : ∀ e ∈ s.held, e.size < pageSize →
    ∃ i, ∃ p ∈ piles i, Slab.containing e.address = p.page

/-- How a request for an object of a class is served, with the pool and the stacks after it. -/
inductive Draws (s : Ledger) (piles : Piles) (i : Fin classSizes.size) :
    Except Refusal Nat → Pool → Piles → Prop
  | popped {before after : List Pile} {page object : Nat} {rest : List Nat} {m : Memory}
      (hsplit : piles i = before ++ ⟨page, object :: rest⟩ :: after)
      (hempty : ∀ p ∈ before, p.stack = []) :
      Draws s piles i (.ok object) { s.pool with memory := m }
        (Function.update piles i (before ++ ⟨page, rest⟩ :: after))
  | grown {page object : Nat} {rest : List Nat} {b : Buddy} {pool : Pool}
      (hempty : ∀ p ∈ piles i, p.stack = [])
      (hpage : s.pool.buddy.allocate pageSize = .ok (.ok page, b))
      (hflag : b.flagSlab page = .ok pool.buddy)
      (hcarving : Slab.carving page (classSizes.get i) = .ok (object :: rest)) :
      Draws s piles i (.ok object) pool (Function.update piles i (⟨page, rest⟩ :: piles i))
  | refused (hempty : ∀ p ∈ piles i, p.stack = [])
      (hpage : s.pool.buddy.allocate pageSize = .ok (.error .outOfMemory, s.pool.buddy)) :
      Draws s piles i (.error .outOfMemory) s.pool piles

/-- What is held after an object of a class was asked for. -/
def draw (held : List Extent) (i : Fin classSizes.size) : Except Refusal Nat → List Extent
  | .ok address => ⟨address, classSizes.get i⟩ :: held
  | .error _ => held

/-- The run serves a request for an object of a class, and the stacks after it are spelled. -/
def Drawn (s : Ledger) (piles : Piles) (i : Fin classSizes.size)
    (run : Except Fault (Except Refusal Nat × Pool × List Event)) : Prop :=
  ∃ answer pool piles' events, run = .ok (answer, pool, events) ∧
    s.Draws piles i answer pool piles' ∧ Stacks ⟨pool, draw s.held i answer⟩ piles'

/-- The free objects of a class and those that are held add up to all objects of its slabs. -/
def Conserves (s : Ledger) (i : Fin classSizes.size) : Prop :=
  ∃ free each, (s.pool.caches.get i).freeObjects s.pool.memory s.pool.slabLimit = .ok free ∧
    (s.pool.caches.get i).objectCount = .ok each ∧
    free + (s.held.filter (·.size = classSizes.get i)).length =
      each * ((s.pool.caches.get i).slabs s.pool.memory s.pool.slabLimit).length

end Ledger

namespace Slab
variable {m : Memory} {page size link : Nat} {stack : List Nat}

theorem Fits.slot_injective (hs : Fits size) (page : Nat) :
    Function.Injective (slot page size) := by
  intro i j heq
  by_contra hne
  have hapart := slot_apart page size hne
  have := hs.size_pos
  omega

theorem objectCount_eq : ∀ i : Fin classSizes.size,
    objectCount (classSizes.get i) = .ok (slots (classSizes.get i)) := by
  decide

theorem carving_eq {a : Arena} (ha : a.Sound) {j : Nat} (hj : j < a.pages)
    (i : Fin classSizes.size) : carving (a.pageAddress j) (classSizes.get i) =
      .ok ((List.range (slots (classSizes.get i))).map
        (slot (a.pageAddress j) (classSizes.get i))) := by
  have hpage := ha.page_lt hj
  have hadd : Word.add (a.pageAddress j) headerSize = .ok (a.pageAddress j + headerSize) := by
    apply Word.add_of_lt
    have hle : headerSize ≤ pageSize := by decide
    omega
  rw [carving, hadd, ok_bind,
    alignUp_header (fits_class i) (classSizes_eq i) (ha.dvd_pageAddress j) hpage, ok_bind,
    objectCount_eq]
  rfl

theorem Stacked.trail (hs : Fits size) (h : Stacked m page size stack) :
    Trail m.readWord (topWord page size stack) (stack.map (slot page size)) := by
  induction stack with
  | nil => exact .stop
  | cons i rest ih =>
      apply Trail.visit (hs.slot_ne_zero page i)
      rw [h.1]
      exact ih h.2

theorem covers_containing (address : Nat) (h : address < 2 ^ 64) :
    containing address ≤ address ∧ address < containing address + pageSize := by
  rw [containing_eq h]
  simp only [pageSize]
  omega

end Slab

theorem Cache.Linked.trail {a : Arena} {m : Memory} {size : Nat} {sheets : List Sheet}
    (ha : a.Sound) (h : Linked a m size sheets) :
    Trail (Slab.next m) (chainHead a sheets) (sheets.map fun t => a.pageAddress t.page) := by
  induction sheets with
  | nil => exact .stop
  | cons t rest ih =>
      apply Trail.visit (Nat.ne_of_gt (ha.pageAddress_pos t.page))
      rw [h.1.next_eq]
      exact ih h.2

/-- A slab of a chart, by addresses. -/
def Sheet.pile (a : Arena) (size : Nat) (t : Sheet) : Pile :=
  ⟨a.pageAddress t.page, t.stack.map (Slab.slot (a.pageAddress t.page) size)⟩

def Chart.piles (a : Arena) (c : Chart) : Piles :=
  fun i => (c.sheets i).map (Sheet.pile a (classSizes.get i))

theorem Chart.pages_piles (a : Arena) (c : Chart) (i : Fin classSizes.size) :
    (c.piles a i).map Pile.page = ((c.sheets i).map Sheet.page).map a.pageAddress := by
  rw [piles, List.map_map, List.map_map]
  rfl

theorem Chart.piles_setSheets (a : Arena) (c : Chart) (i : Fin classSizes.size)
    (sheets : List Sheet) : (c.setSheets i sheets).piles a =
      Function.update (c.piles a) i (sheets.map (Sheet.pile a (classSizes.get i))) := by
  funext j
  rw [piles, setSheets_sheets, Function.update_apply]
  by_cases hj : j = i
  · subst hj
    rw [if_pos rfl, if_pos rfl]
  · rw [if_neg hj, if_neg hj]
    rfl

/-- Pushing an object on the stack of its page is the same by numbers and by addresses. -/
theorem Sheet.pile_restack {a : Arena} {size page number : Nat} {t : Sheet}
    (hcontaining : Slab.containing (Slab.slot (a.pageAddress page) size number) =
      a.pageAddress page) :
    (t.restack page (number :: ·)).pile a size =
      (t.pile a size).push (Slab.slot (a.pageAddress page) size number) := by
  by_cases hpage : t.page = page
  · subst hpage
    rw [restack, if_pos rfl]
    exact (if_pos hcontaining.symm).symm
  · rw [restack_of_ne hpage]
    refine (if_neg fun heq => hpage ?_).symm
    exact Arena.pageAddress_inj.1 (heq.trans hcontaining)

theorem length_eq_sum_filter {α : Type} (key : α → Nat) {keys : List Nat} (hnodup : keys.Nodup)
    {l : List α} (hmem : ∀ x ∈ l, key x ∈ keys) :
    l.length = (keys.map fun k => (l.filter (key · = k)).length).sum := by
  have hcount (k : Nat) : (l.filter (key · = k)).length = Multiset.count k ↑(l.map key) := by
    rw [Multiset.coe_count, List.count, List.countP_map, List.countP_eq_length_filter]
    rfl
  have hkeys : ∀ k ∈ (↑(l.map key) : Multiset Nat), k ∈ keys.toFinset := by
    intro k hk
    obtain ⟨x, hx, rfl⟩ := List.mem_map.1 (Multiset.mem_coe.1 hk)
    exact List.mem_toFinset.2 (hmem x hx)
  have hsum := Multiset.sum_count_eq_card hkeys
  rw [List.sum_toFinset _ hnodup, Multiset.coe_card, List.length_map] at hsum
  rw [← hsum]
  exact congrArg List.sum (List.map_congr_left fun k _ => (hcount k).symm)

namespace Ledger
namespace Charts
variable {s : Ledger} {c : Chart} {i : Fin classSizes.size} {t : Sheet} {e : Extent}

/-- What is held of the page of a slab is one of its objects. -/
theorem held_on_page (h : s.Charts c) (ht : t ∈ c.sheets i) (he : e ∈ s.held)
    (hpage : Slab.containing e.address = s.pool.arena.pageAddress t.page) :
    ∃ number ∈ t.live (classSizes.get i),
      e = (Item.object i t.page number).extent s.pool.arena := by
  obtain ⟨x, hx, rfl⟩ := h.exists_item he
  obtain ⟨hpos, -, -, hstop⟩ := h.depicts.item_placed hx
  have hword := h.depicts.sound.stop_lt
  have hbounds := Slab.covers_containing (x.extent s.pool.arena).address (by omega)
  rw [hpage] at hbounds
  obtain ⟨number, hlive, rfl⟩ :=
    h.depicts.item_on_slab hx ht (Extent.covers_address hpos) hbounds
  exact ⟨number, hlive, rfl⟩

theorem containing_object (h : s.Charts c) (ht : t ∈ c.sheets i) {number : Nat}
    (hnumber : number < Slab.slots (classSizes.get i)) :
    Slab.containing (Slab.slot (s.pool.arena.pageAddress t.page) (classSizes.get i) number) =
      s.pool.arena.pageAddress t.page :=
  (Slab.fits_class i).containing_slot (h.depicts.sound.dvd_pageAddress t.page)
    (h.depicts.sound.page_lt (h.depicts.page_lt ht)) hnumber

theorem mem_liveOn (h : s.Charts c) (ht : t ∈ c.sheets i) {address : Nat} :
    address ∈ s.liveOn (s.pool.arena.pageAddress t.page) ↔
      ∃ number ∈ t.live (classSizes.get i),
        Slab.slot (s.pool.arena.pageAddress t.page) (classSizes.get i) number = address := by
  simp only [liveOn, List.mem_map, List.mem_filter, decide_eq_true_eq]
  constructor
  · intro hlive
    obtain ⟨e, ⟨he, hpage⟩, rfl⟩ := hlive
    obtain ⟨number, hnumber, rfl⟩ := h.held_on_page ht he hpage
    exact ⟨number, hnumber, rfl⟩
  · intro hlive
    obtain ⟨number, hnumber, rfl⟩ := hlive
    have hitem := Chart.mem_items.2 (.object ht hnumber)
    exact ⟨_, ⟨h.held_perm.mem_iff.2 (List.mem_map_of_mem hitem),
      h.containing_object ht (Sheet.mem_live.1 hnumber).1⟩, rfl⟩

theorem liveOn_nodup (h : s.Charts c) (page : Nat) : (s.liveOn page).Nodup := by
  refine (h.held_nodup.filter _).map_on fun e he f hf haddress => ?_
  exact h.held_unique (List.mem_of_mem_filter he) (List.mem_of_mem_filter hf) haddress

theorem pile_nodup (h : s.Charts c) (ht : t ∈ c.sheets i) :
    ((t.pile s.pool.arena (classSizes.get i)).stack ++
      s.liveOn (t.pile s.pool.arena (classSizes.get i)).page).Nodup := by
  have hinj := (Slab.fits_class i).slot_injective (s.pool.arena.pageAddress t.page)
  refine List.nodup_append.2 ⟨(h.depicts.proper.stack_nodup i t ht).map hinj, h.liveOn_nodup _,
    fun x hx y hy hxy => ?_⟩
  obtain ⟨n, hn, rfl⟩ := List.mem_map.1 hx
  obtain ⟨number, hlive, heq⟩ := (h.mem_liveOn ht).1 hy
  rw [← hxy, hinj.eq_iff] at heq
  exact (Sheet.mem_live.1 hlive).2 (heq ▸ hn)

theorem pile_perm (h : s.Charts c) (ht : t ∈ c.sheets i) :
    ((t.pile s.pool.arena (classSizes.get i)).stack ++
      s.liveOn (t.pile s.pool.arena (classSizes.get i)).page).Perm
    ((List.range (Slab.slots (classSizes.get i))).map
      (Slab.slot (s.pool.arena.pageAddress t.page) (classSizes.get i))) := by
  have hinj := (Slab.fits_class i).slot_injective (s.pool.arena.pageAddress t.page)
  refine (List.perm_ext_iff_of_nodup (h.pile_nodup ht) (List.nodup_range.map hinj)).2 fun x => ?_
  rw [List.mem_append, List.mem_map]
  constructor
  · intro hx
    cases hx with
    | inl hstack =>
        obtain ⟨n, hn, rfl⟩ := List.mem_map.1 hstack
        exact ⟨n, List.mem_range.2 (h.depicts.proper.stack_lt i t ht n hn), rfl⟩
    | inr hlive =>
        obtain ⟨n, hn, rfl⟩ := (h.mem_liveOn ht).1 hlive
        exact ⟨n, List.mem_range.2 (Sheet.mem_live.1 hn).1, rfl⟩
  · intro hx
    obtain ⟨n, hn, rfl⟩ := hx
    by_cases hstack : n ∈ t.stack
    · exact .inl (List.mem_map_of_mem hstack)
    · refine .inr ((h.mem_liveOn ht).2 ⟨n, ?_, rfl⟩)
      exact Sheet.mem_live.2 ⟨List.mem_range.1 hn, hstack⟩

theorem piled (h : s.Charts c) (ht : t ∈ c.sheets i) :
    s.Piled (classSizes.get i) (t.pile s.pool.arena (classSizes.get i)) := by
  have hfits := Slab.fits_class i
  obtain ⟨link, hshows⟩ := (h.depicts.chain i).linked.shows ht
  refine ⟨hshows.objectSize_eq, ?_, ?_, h.pile_nodup ht, ⟨_,
    Slab.carving_eq h.depicts.sound (h.depicts.page_lt ht) i, ?_, h.pile_perm ht⟩,
    fun e he hpage => ?_⟩
  · change Trail _ (Slab.top _ (s.pool.arena.pageAddress t.page)) _
    rw [hshows.top_eq]
    exact hshows.stacked.trail hfits
  · rw [Sheet.pile, List.length_map]
    exact hshows.freeCount_eq
  · rw [List.length_map, List.length_range]
    exact hshows.capacity_eq
  · obtain ⟨number, -, rfl⟩ := h.held_on_page ht he hpage
    rfl

theorem stacked (h : s.Charts c) : s.Stacks (c.piles s.pool.arena) := by
  refine ⟨h.depicts.objectSize_eq, fun i => ?_, ?_, fun i p hp => ?_, fun e he hlt => ?_⟩
  · rw [h.depicts.cache_eq i, Chart.pages_piles, List.map_map]
    exact (h.depicts.chain i).linked.trail h.depicts.sound
  · have hpages := h.depicts.proper.pages_nodup.map s.pool.arena.pageAddress_injective
    rw [Chart.slabPages, List.map_flatMap] at hpages
    simpa only [Chart.pages_piles] using hpages
  · obtain ⟨t, ht, rfl⟩ := List.mem_map.1 hp
    exact h.piled ht
  · obtain ⟨i, t, ht, number, hlive, rfl⟩ := h.exists_object he hlt
    exact ⟨i, _, List.mem_map_of_mem ht, h.containing_object ht (Sheet.mem_live.1 hlive).1⟩

/-- The first stack that is not empty loses its top. -/
theorem draw_popped (h : s.Charts c) {size page number : Nat}
    (hclass : s.pool.caches.class? size = some i)
    (hfirst : Sheet.first? (c.sheets i) = some (page, number)) :
    s.Drawn (c.piles s.pool.arena) i (s.pool.allocateObject size) := by
  obtain ⟨before, rest, after, hsplit, hbefore⟩ := Sheet.first?_split hfirst
  obtain ⟨m, -, hrun, hbecomes⟩ := h.depicts.allocateObject_popped hclass hfirst
  have hg : c.grant? (.object i) = some (.object i page number,
      c.setSheets i ((c.sheets i).map (Sheet.restack page List.tail))) := by
    rw [Chart.grant?, hfirst]
  have hpages := h.depicts.proper.nodup_sheets i
  have hstacked := (h.grant hg hbecomes).stacked
  rw [hsplit] at hpages hstacked
  rw [Sheet.map_restack_split hpages, List.tail_cons] at hstacked
  change Stacks _ (Chart.piles s.pool.arena _) at hstacked
  rw [Chart.piles_setSheets, List.map_append, List.map_cons] at hstacked
  refine ⟨_, _, _, _, hrun, .popped ?_ ?_, hstacked⟩
  · rw [Chart.piles, hsplit, List.map_append, List.map_cons]
    rfl
  · intro p hp
    obtain ⟨t, ht, rfl⟩ := List.mem_map.1 hp
    rw [Sheet.pile, hbefore t ht, List.map_nil]

theorem piles_empty (hfull : Sheet.first? (c.sheets i) = none) (a : Arena) :
    ∀ p ∈ c.piles a i, p.stack = [] := by
  intro p hp
  obtain ⟨t, ht, rfl⟩ := List.mem_map.1 hp
  rw [Sheet.pile, Sheet.first?_eq_none.1 hfull t ht, List.map_nil]

/-- Where all stacks are empty, a page becomes a slab that hands out its lowest object. -/
theorem draw_grown (h : s.Charts c) {size : Nat} (hclass : s.pool.caches.class? size = some i)
    (hfull : Sheet.first? (c.sheets i) = none) :
    s.Drawn (c.piles s.pool.arena) i (s.pool.allocateObject size) := by
  have hempty := piles_empty hfull s.pool.arena
  rw [h.depicts.allocateObject_full hclass hfull]
  cases h.depicts.keeps.takeOrder (Nat.zero_le _) with
  | inl hrefused =>
      obtain ⟨-, hrun⟩ := hrefused
      exact ⟨_, _, _, _, Pool.Depicts.growCache_refused hrun, .refused hempty hrun, h.stacked⟩
  | inr htaken =>
      obtain ⟨page, free, b, hsome, hrun, hkeeps, hkin⟩ := htaken
      obtain ⟨b', m, hflag, -, hgrow, hbecomes⟩ := h.depicts.newSlab i hrun hkeeps hkin
      have hg : c.grant? (.object i) = some (.object i page 0, { c with free }.setSheets i
          (⟨page, (List.range (Slab.slots (classSizes.get i))).tail⟩ :: c.sheets i)) := by
        rw [Chart.grant?, hfull, hsome]
        rfl
      have hlt : page < s.pool.arena.pages := by
        have hlt := hkeeps.page_lt (c := ⟨page, 0⟩) List.mem_cons_self
        rwa [hkin.arena] at hlt
      have hcarving := Slab.carving_eq h.depicts.sound hlt i
      rw [(Slab.fits_class i).range_slots, List.map_cons] at hcarving
      have hstacked := (h.grant hg hbecomes).stacked
      rw [hbecomes.arena, Chart.piles_setSheets, List.map_cons] at hstacked
      exact ⟨_, _, _, _, hgrow, .grown hempty hrun hflag hcarving, hstacked⟩

theorem allocateObject_drawn (h : s.Charts c) {size : Nat}
    (hclass : s.pool.caches.class? size = some i) :
    s.Drawn (c.piles s.pool.arena) i (s.pool.allocateObject size) := by
  cases hfirst : Sheet.first? (c.sheets i) with
  | none => exact h.draw_grown hclass hfirst
  | some found => exact h.draw_popped hclass hfirst

theorem allocate_drawn (h : s.Charts c) {n : Nat} (hround : roundSize n = .ok (classSizes.get i)) :
    s.Drawn (c.piles s.pool.arena) i (s.pool.allocate n) := by
  have hclass := class?_eq h.depicts.objectSize_eq i
  obtain ⟨answer, pool, piles, events, hrun, hdraws, hstacked⟩ := h.allocateObject_drawn hclass
  have hrequest : ∃ events', s.pool.allocate n = .ok (answer, pool, events') := by
    rw [Pool.allocate, hround]
    simp only [if_pos (classSizes_lt i), hrun, ok_bind, pure_eq_ok]
    exact ⟨_, rfl⟩
  obtain ⟨events', hrun'⟩ := hrequest
  exact ⟨answer, pool, piles, events', hrun', hdraws, hstacked⟩

/-- Only the stack of the object's own page grows. -/
theorem piles_release (h : s.Charts c) (ht : t ∈ c.sheets i) {number : Nat}
    (hnumber : number < Slab.slots (classSizes.get i)) :
    (c.release s.pool.arena.base (.object i t.page number)).piles s.pool.arena =
      fun j => (c.piles s.pool.arena j).map
        (Pile.push ((Item.object i t.page number).extent s.pool.arena).address) := by
  have hcontaining := h.containing_object ht hnumber
  funext j
  rw [Chart.release, Chart.piles_setSheets, Function.update_apply]
  by_cases hj : j = i
  · subst hj
    rw [if_pos rfl, Chart.piles, List.map_map, List.map_map]
    exact List.map_congr_left fun t' _ => Sheet.pile_restack hcontaining
  · rw [if_neg hj, Chart.piles, List.map_map]
    refine List.map_congr_left fun t' ht' => (if_neg fun heq => hj ?_).symm
    have hpage := Arena.pageAddress_inj.1 (heq.trans hcontaining)
    exact (h.depicts.proper.sheet_unique ht' ht hpage).1

theorem releaseObject_stacked (h : s.Charts c) (he : e ∈ s.held) (hlt : e.size < pageSize) :
    ∃ m events, Slab.release s.pool.memory e.address = .ok m ∧
      s.pool.free e.address = .ok ({ s.pool with memory := m }, events) ∧
      Stacks ⟨{ s.pool with memory := m }, s.held.erase e⟩
        fun i => (c.piles s.pool.arena i).map (Pile.push e.address) := by
  obtain ⟨i, t, ht, number, hlive, rfl⟩ := h.exists_object he hlt
  have hitem := Chart.mem_items.2 (.object ht hlive)
  obtain ⟨m, hrun, hbecomes⟩ := h.depicts.releaseObject ht hlive
  have hstacked := (h.giveUp hitem hbecomes).stacked
  rw [hbecomes.arena, h.piles_release ht (Sheet.mem_live.1 hlive).1] at hstacked
  exact ⟨m, _, hrun, h.depicts.free_eq_release ht hlive hrun, hstacked⟩

theorem length_held (h : s.Charts c) (i : Fin classSizes.size) :
    (s.held.filter (·.size = classSizes.get i)).length =
      ((c.sheets i).map fun t => (s.liveOn (s.pool.arena.pageAddress t.page)).length).sum := by
  have hstacked := h.stacked
  have hpages := (h.depicts.proper.nodup_sheets i).map s.pool.arena.pageAddress_injective
  rw [← Chart.pages_piles] at hpages
  -- an object that is held is counted under the page it lies on, which is one slab of its class
  have hcount := length_eq_sum_filter (fun e : Extent => Slab.containing e.address) hpages
    (l := s.held.filter (·.size = classSizes.get i)) fun e he => by
      obtain ⟨he, hsize⟩ := List.mem_filter.1 he
      have hsize : e.size = classSizes.get i := of_decide_eq_true hsize
      obtain ⟨j, p, hp, hpage⟩ := hstacked.held_on e he (hsize ▸ classSizes_lt i)
      have hj := (hstacked.piled j p hp).held_size e he hpage
      obtain rfl := classSizes_inj i j (hsize.symm.trans hj)
      exact hpage ▸ List.mem_map_of_mem hp
  rw [hcount, Chart.pages_piles, List.map_map, List.map_map]
  refine congrArg List.sum (List.map_congr_left fun t ht => ?_)
  change ((s.held.filter _).filter (Slab.containing ·.address =
    s.pool.arena.pageAddress t.page)).length = _
  rw [liveOn, List.length_map, List.filter_filter]
  refine congrArg List.length (List.filter_congr fun e he => ?_)
  by_cases hpage : Slab.containing e.address = s.pool.arena.pageAddress t.page
  · obtain ⟨number, -, rfl⟩ := h.held_on_page ht he hpage
    simp [Item.extent]
  · simp [hpage]

theorem sum_objects (h : s.Charts c) (i : Fin classSizes.size) :
    ((c.sheets i).map fun t => t.stack.length).sum +
      (s.held.filter (·.size = classSizes.get i)).length =
      Slab.slots (classSizes.get i) * (c.sheets i).length := by
  have hone : ∀ t ∈ c.sheets i, t.stack.length +
      (s.liveOn (s.pool.arena.pageAddress t.page)).length = Slab.slots (classSizes.get i) := by
    intro t ht
    have hperm := (h.pile_perm ht).length_eq
    rwa [List.length_append, List.length_map, List.length_range, Sheet.pile, List.length_map]
      at hperm
  rw [h.length_held i, ← List.sum_map_add, List.map_congr_left hone, List.map_const',
    List.sum_replicate_nat, Nat.mul_comm]

/-- A page has fewer objects than bytes, and the pages end below the end of the address space. -/
theorem objects_lt (h : s.Charts c) (i : Fin classSizes.size) :
    Slab.slots (classSizes.get i) * (c.sheets i).length < 2 ^ 64 := by
  have hstop := h.depicts.sound.pageAddress_le_stop (Nat.le_refl s.pool.arena.pages)
  have hlt := h.depicts.sound.stop_lt
  have hslots := Nat.le_of_lt (Slab.fits_class i).slots_lt
  have hle := Nat.mul_le_mul hslots (h.depicts.chain i).length_le
  rw [Arena.pageAddress, Nat.mul_comm] at hstop
  omega

theorem freeObjects_eq (h : s.Charts c) (i : Fin classSizes.size) :
    (s.pool.caches.get i).freeObjects s.pool.memory s.pool.slabLimit =
      .ok ((c.sheets i).map fun t => t.stack.length).sum := by
  have hslabs : (s.pool.caches.get i).slabs s.pool.memory s.pool.slabLimit =
      (c.sheets i).map fun t => s.pool.arena.pageAddress t.page :=
    h.depicts.surveys.slabs_eq i _ (Nat.le_refl _)
  have hcounts : ((c.sheets i).map fun t => s.pool.arena.pageAddress t.page).map
      (Slab.freeCount s.pool.memory) = (c.sheets i).map fun t => t.stack.length := by
    rw [List.map_map]
    refine List.map_congr_left fun t ht => ?_
    obtain ⟨link, hshows⟩ := (h.depicts.chain i).linked.shows ht
    exact hshows.freeCount_eq
  have hobjects := h.sum_objects i
  have hlt := h.objects_lt i
  rw [Cache.freeObjects, hslabs]
  refine (Word.foldlM_add (f := Slab.freeCount s.pool.memory) (fun _ _ => Word.add_of_lt) _ 0
    ?_).trans ?_
  · rw [hcounts]
    omega
  · rw [hcounts, Nat.zero_add]

/-- What is free and what is held of a class are all objects of its slabs. -/
theorem objects_conserved (h : s.Charts c) (i : Fin classSizes.size) : s.Conserves i := by
  refine ⟨_, Slab.slots (classSizes.get i), h.freeObjects_eq i, ?_, ?_⟩
  · rw [Cache.objectCount, h.depicts.objectSize_eq, Slab.objectCount_eq]
  · have hslabs := h.depicts.surveys.slabs_eq i s.pool.slabLimit (Nat.le_refl _)
    rw [hslabs, Chart.survey, List.length_map]
    exact h.sum_objects i

end Charts

/-- The object tier of a ledger refines these stacks. -/
structure ObjectTier (s : Ledger) (piles : Piles) : Prop where
  spelled : s.Stacks piles
  drawn : ∀ i size, s.pool.caches.class? size = some i →
    s.Drawn piles i (s.pool.allocateObject size)
  requested : ∀ (i : Fin classSizes.size) n, roundSize n = .ok (classSizes.get i) →
    s.Drawn piles i (s.pool.allocate n)
  released : ∀ e ∈ s.held, e.size < pageSize → ∃ m events,
    s.pool.free e.address = .ok ({ s.pool with memory := m }, events) ∧
    s.pool.freeObject e.address = .ok { s.pool with memory := m } ∧
    Slab.release s.pool.memory e.address = .ok m ∧
    Stacks ⟨{ s.pool with memory := m }, s.held.erase e⟩
      fun i => (piles i).map (Pile.push e.address)
  conserved : ∀ i, s.Conserves i

/-- At every point of a run the slabs of each class are stacks of objects. -/
theorem Reached.slabs_refine_stacks {start stop : Nat} {s : Ledger} (h : Reached start stop s) :
    ∃ piles, s.ObjectTier piles := by
  obtain ⟨c, hcharts, -⟩ := h.charts
  refine ⟨c.piles s.pool.arena, hcharts.stacked, fun i size => hcharts.allocateObject_drawn,
    fun i n => hcharts.allocate_drawn, fun e he hlt => ?_, hcharts.objects_conserved⟩
  obtain ⟨m, events, hrun, hfree, hstacked⟩ := hcharts.releaseObject_stacked he hlt
  refine ⟨m, events, hfree, ?_, hrun, hstacked⟩
  simp only [Pool.freeObject, hrun, ok_bind, pure_eq_ok]

theorem slabs_refine_stacks_of_four_pages : ∃ s, s.held = [⟨8448, 128⟩, ⟨16384, 8192⟩] ∧
    Reached 4096 24576 s ∧ ∃ piles, s.ObjectTier piles := by
  obtain ⟨s, hreached, hheld⟩ := exists_reached
  exact ⟨s, hheld, hreached, hreached.slabs_refine_stacks⟩

end Ledger
end BuddySlab
