import BuddySlab.Proofs.Observation
import BuddySlab.Proofs.Runs
import Mathlib.Order.Bounds.Basic

/-!
Looking up sizes. A request is rounded once, and then each tier works out on its own which class or
which order a size belongs to. The three computations agree on every size: the class that is found
has objects of just the rounded size, and the order that is found has blocks of it, whether one looks
for the rounded size or for the one that was asked for. So neither tier refuses a size that could be
rounded.
-/

namespace BuddySlab

/-- The caches are those of the classes, in order, whatever slabs they have. -/
def CacheSet.Classed (s : CacheSet) : Prop :=
  ∀ i : Fin classSizes.size, (s.get i).objectSize = classSizes.get i

/-- The request and the rounded size belong to one class, the one with objects of that size. -/
structure ServedByClass (size rounded : Nat) : Prop where
  found : ∀ s : CacheSet, s.Classed → ∃ c, s.cache? rounded = some c ∧ s.cache? size = some c ∧
    c.objectSize = rounded
  valid : ∀ n ∈ [size, rounded], ∀ p : Pool, p.caches.Classed → ∀ p' events,
    p.allocateObject n ≠ .ok (.error .invalidSize, p', events)

/-- The request and the rounded size belong to one order, the one with blocks of that size, and so
many bytes of the payload are used up when they are served. -/
structure ServedByOrder (size rounded : Nat) : Prop where
  found : ∃ k ≤ maxOrder, pageSize * 2 ^ k = rounded ∧
    orderForPages (pagesFor rounded) = k ∧ orderForPages (pagesFor size) = k
  valid : ∀ n ∈ [size, rounded], ∀ b b' : Buddy, b.allocate n ≠ .ok (.error .invalidSize, b')
  bytes : ∀ n ∈ [size, rounded], ∀ start stop s, Ledger.Reached start stop s → ∀ address b',
    s.pool.buddy.allocate n = .ok (.ok address, b') → ∃ bytes,
      s.pool.buddy.freeBytes = .ok (bytes + rounded) ∧ b'.freeBytes = .ok bytes

/-- How a size is rounded, and what the tiers make of it. -/
structure Looked (size : Nat) : Prop where
  refused_iff : roundSize size = .error .invalidSize ↔ size = 0 ∨ 16 * 2 ^ 20 < size
  rounded_least : ¬(size = 0 ∨ 16 * 2 ^ 20 < size) → ∃ rounded, roundSize size = .ok rounded ∧
    IsLeast {r | (∃ e, r = 2 ^ e) ∧ max size 8 ≤ r} rounded
  object : ∀ rounded, roundSize size = .ok rounded → rounded < pageSize →
    ServedByClass size rounded
  block : ∀ rounded, roundSize size = .ok rounded → pageSize ≤ rounded →
    ServedByOrder size rounded

section Classes

theorem classed_empty : CacheSet.empty.Classed := by
  intro i
  rw [show CacheSet.empty.get i = Cache.empty (classSizes.get i) from Vector.getElem_map ..]
  rfl

theorem Ledger.Reached.classed {start stop : Nat} {s : Ledger} (h : s.Reached start stop) :
    s.pool.caches.Classed := by
  obtain ⟨c, hcharts, -⟩ := h.charts
  exact hcharts.depicts.objectSize_eq

end Classes

section Rounding
variable {size rounded : Nat}

theorem orderForPages_isLeast (pages : Nat) :
    IsLeast {k | pages ≤ 2 ^ k} (orderForPages pages) :=
  ⟨orderForPages_le_iff.1 (Nat.le_refl _), fun _ hk => orderForPages_le_iff.2 hk⟩

/-- The least power of two that holds the request is also the least of those from eight on. -/
theorem roundSize_isLeast (hpos : size ≠ 0) (hle : size ≤ maxBlockSize) :
    ∃ rounded, roundSize size = .ok rounded ∧
      IsLeast {r | (∃ e, r = 2 ^ e) ∧ max size 8 ≤ r} rounded := by
  obtain ⟨e, -, -, hround, hleast⟩ := roundSize_eq_two_pow hpos hle
  have hmem (d : Nat) : e ≤ d ↔ max size 8 ≤ 2 ^ d := by
    rw [hleast, Nat.max_le, and_comm, show (8 : Nat) = 2 ^ 3 from rfl,
      Nat.pow_le_pow_iff_right (by decide)]
  refine ⟨2 ^ e, hround, ⟨⟨e, rfl⟩, (hmem e).1 (Nat.le_refl e)⟩, ?_⟩
  intro r hr
  obtain ⟨⟨d, rfl⟩, hd⟩ := hr
  exact Nat.pow_le_pow_right (by decide) ((hmem d).2 hd)

/-- The class of the rounded size is the first that holds the request. -/
theorem exists_class_of_roundSize (h : roundSize size = .ok rounded) (hlt : rounded < pageSize) :
    ∃ i : Fin classSizes.size, classSizes.get i = rounded ∧ size ≤ classSizes.get i ∧
      ∀ j < i, classSizes.get j < size := by
  obtain ⟨e, hlow, -, rfl, hleast⟩ := exists_two_pow_of_roundSize h
  have he : e < 12 := (Nat.pow_lt_pow_iff_right (by decide)).1 hlt
  let i : Fin classSizes.size := ⟨e - 3, show e - 3 < 9 by omega⟩
  have hsize : classSizes.get i = 2 ^ e := by
    rw [Slab.classSizes_eq, show i.val + 3 = e from Nat.sub_add_cancel hlow]
  refine ⟨i, hsize, hsize ▸ ((hleast e).1 (Nat.le_refl e)).2, fun j hj => ?_⟩
  rw [Slab.classSizes_eq]
  by_contra hholds
  have hbelow : e ≤ j.val + 3 :=
    (hleast _).2 ⟨Nat.le_add_left 3 j.val, Nat.le_of_not_lt hholds⟩
  have hj : j.val < e - 3 := hj
  omega

/-- Counted in pages, the rounded size is still the least power of two that holds the request. -/
theorem exists_order_of_roundSize (h : roundSize size = .ok rounded) (hle : pageSize ≤ rounded) :
    ∃ k ≤ maxOrder, blockSize k = rounded ∧ orderForPages (pagesFor size) = k := by
  obtain ⟨e, -, hhigh, rfl, hleast⟩ := exists_two_pow_of_roundSize h
  rw [pageSize_eq_two_pow] at hle
  have he : 12 ≤ e := (Nat.pow_le_pow_iff_right (by decide)).1 hle
  have hholds (d : Nat) : orderForPages (pagesFor size) ≤ d ↔ e - 12 ≤ d := by
    have hpow : 2 ^ (d + 12) = pageSize * 2 ^ d := by
      rw [Nat.pow_add, Nat.mul_comm]
      rfl
    have hfor : pagesFor size ≤ 2 ^ d ↔ size ≤ 2 ^ (d + 12) := by
      rw [hpow, pagesFor]
      simp only [pageSize]
      omega
    have hexponent : e - 12 ≤ d ↔ e ≤ d + 12 := by omega
    rw [orderForPages_le_iff, hfor, hexponent, hleast]
    exact (and_iff_right (by omega)).symm
  refine ⟨e - 12, by simp only [maxOrder]; omega, ?_, ?_⟩
  · rw [blockSize_eq, pageSize_eq_two_pow, ← Nat.pow_add, Nat.add_sub_cancel' he]
  · exact Nat.le_antisymm ((hholds _).2 (Nat.le_refl _)) ((hholds _).1 (Nat.le_refl _))

end Rounding

namespace Buddy
variable {b b' : Buddy} {k n : Nat}

/-- An order that there is may be out of blocks, but it is not refused. -/
theorem takeOrder_valid (hk : k ≤ maxOrder) : b.takeOrder k ≠ .ok (.error .invalidSize, b') := by
  intro hrun
  rw [takeOrder, if_neg (Nat.not_lt.2 hk)] at hrun
  obtain ⟨⟨index?, popped⟩, -, hrun⟩ := bind_eq_ok.1 hrun
  cases index? with
  | none => cases hrun
  | some index =>
      obtain ⟨updated, -, hrun⟩ := bind_eq_ok.1 hrun
      obtain ⟨split, -, hrun⟩ := bind_eq_ok.1 hrun
      obtain ⟨address, -, hrun⟩ := bind_eq_ok.1 hrun
      cases hrun

theorem allocate_eq_takeOrder (hpos : n ≠ 0) (horder : orderForPages (pagesFor n) = k) :
    b.allocate n = b.takeOrder k := by
  rw [allocate, if_neg hpos, horder]

/-- What is taken are the bytes of the order, no more and no less. -/
theorem Keeps.takeOrder_bytes {l : Listing} {held : List Block} (h : b.Keeps l held [])
    (hk : k ≤ maxOrder) {address : Nat} (hrun : b.takeOrder k = .ok (.ok address, b')) :
    ∃ bytes, b.freeBytes = .ok (bytes + blockSize k) ∧ b'.freeBytes = .ok bytes := by
  cases h.takeOrder hk with
  | inl hrefused => cases hrefused.2.symm.trans hrun
  | inr htaken =>
      obtain ⟨i, l', found, -, hfound, hkeeps, hkin⟩ := htaken
      cases hfound.symm.trans hrun
      have htotal := h.sum_blockSize
      have htotal' := hkeeps.sum_blockSize
      rw [hkin.arena, ← htotal] at htotal'
      simp only [List.nil_append, List.map_append, List.map_cons, List.sum_append,
        List.sum_cons] at htotal'
      refine ⟨_, ?_, hkeeps.freeBytes_eq⟩
      rw [h.freeBytes_eq]
      congr 1
      omega

end Buddy

namespace Pool
variable {p p' : Pool} {i : Fin classSizes.size} {n : Nat} {events : List Event}

theorem growCache_valid : p.growCache i ≠ .ok (.error .invalidSize, p', events) := by
  intro hrun
  obtain ⟨⟨answer, taken⟩, htake, hrun⟩ := bind_eq_ok.1 hrun
  obtain ⟨⟨answer', b⟩, hpage, htake⟩ := bind_eq_ok.1 htake
  cases answer' with
  | error refusal =>
      cases htake
      cases hrun
      exact Buddy.takeOrder_valid (Nat.zero_le _) hpage
  | ok page =>
      obtain ⟨flagged, -, htake⟩ := bind_eq_ok.1 htake
      cases htake
      obtain ⟨grown, -, hrun⟩ := bind_eq_ok.1 hrun
      cases hrun

/-- A size that has a class is not refused. -/
theorem allocateObject_valid (hclass : p.caches.class? n = some i) :
    p.allocateObject n ≠ .ok (.error .invalidSize, p', events) := by
  intro hrun
  obtain ⟨buddy, caches, memory⟩ := p
  simp only [allocateObject, hclass] at hrun
  obtain ⟨⟨object?, m⟩, -, hrun⟩ := bind_eq_ok.1 hrun
  cases object? with
  | none => exact growCache_valid hrun
  | some object => cases hrun

end Pool

section Served
variable {size rounded : Nat}

theorem servedByClass (h : roundSize size = .ok rounded) (hlt : rounded < pageSize) :
    ServedByClass size rounded := by
  obtain ⟨i, rfl, hle, hleast⟩ := exists_class_of_roundSize h hlt
  have hclass {s : CacheSet} (hs : s.Classed) : ∀ n ∈ [size, classSizes.get i],
      s.class? n = some i := by
    simp only [List.forall_mem_cons]
    exact ⟨class?_of_least hs hle hleast, class?_eq hs i, List.forall_mem_nil _⟩
  refine ⟨fun s hs => ⟨s.get i, ?_, ?_, hs i⟩, fun n hn p hp p' events => ?_⟩
  · rw [CacheSet.cache?, hclass hs _ (by simp), Option.map_some]
  · rw [CacheSet.cache?, hclass hs _ (by simp), Option.map_some]
  · exact Pool.allocateObject_valid (hclass hp n hn)

theorem servedByOrder (h : roundSize size = .ok rounded) (hle : pageSize ≤ rounded) :
    ServedByOrder size rounded := by
  obtain ⟨k, hk, rfl, horder⟩ := exists_order_of_roundSize h hle
  have hpos : size ≠ 0 := by
    rintro rfl
    cases h
  have hallocate (b : Buddy) : ∀ n ∈ [size, blockSize k], b.allocate n = b.takeOrder k := by
    simp only [List.forall_mem_cons]
    exact ⟨Buddy.allocate_eq_takeOrder hpos horder, Buddy.allocate_eq_takeOrder
      (Nat.ne_of_gt (blockSize_pos k)) (orderFor_blockSize k), List.forall_mem_nil _⟩
  refine ⟨⟨k, hk, (blockSize_eq k).symm, orderFor_blockSize k, horder⟩, fun n hn b b' hrun => ?_,
    fun n hn start stop s hreached address b' hrun => ?_⟩
  · rw [hallocate b n hn] at hrun
    exact Buddy.takeOrder_valid hk hrun
  · obtain ⟨c, hcharts, -⟩ := hreached.charts
    rw [hallocate _ n hn] at hrun
    exact hcharts.depicts.keeps.takeOrder_bytes hk hrun

end Served

/-- A size is rounded to the least power of two from eight on that holds it, unless it is zero or
above 16 MiB, and the tier that serves it finds the same for the size asked for as for the rounded
one. The caches of a pool are those of the classes in every state, so this is so in all of them. -/
theorem sizes_agree (size : Nat) : Looked size ∧
    (∀ pages, IsLeast {k | pages ≤ 2 ^ k} (orderForPages pages)) ∧
    CacheSet.empty.Classed ∧
    ∀ start stop s, Ledger.Reached start stop s → s.pool.caches.Classed := by
  have hmax : maxBlockSize = 16 * 2 ^ 20 := rfl
  refine ⟨⟨?_, fun hvalid => ?_, fun _ => servedByClass, fun _ => servedByOrder⟩,
    orderForPages_isLeast, classed_empty, fun _ _ _ hreached => hreached.classed⟩
  · rw [roundSize_eq_error_iff, ← hmax]
    exact and_iff_right rfl
  · rw [not_or, ← hmax, Nat.not_lt] at hvalid
    exact roundSize_isLeast hvalid.1 hvalid.2

/-- On both sides of the end of the largest class. -/
theorem sizes_agree_at_page : ServedByClass 2048 2048 ∧ ServedByOrder 2049 4096 :=
  ⟨(sizes_agree 2048).1.object 2048 (by decide) (by decide),
    (sizes_agree 2049).1.block 4096 (by decide) (by decide)⟩

end BuddySlab
