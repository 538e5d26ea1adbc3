import BuddySlab.Proofs.Stacks

/-!
Formatting a page. Whatever the memory held, the page becomes a slab all of whose objects are free:
the links lead from the header through the objects in ascending order and end. The objects lie side
by side behind the header and fill the page but for less than one of them. Only the header and the
first word of each object are written, so no link is lost to the header, though it comes last.
-/

namespace BuddySlab
namespace Slab
variable {m m' : Memory} {page size first capacity : Nat}

/-- What formatting makes of a page: a header, and this many objects from the first on. -/
structure Carved (m m' : Memory) (page size first capacity : Nat) : Prop where
  next_eq : next m' page = 0
  objectSize_eq : objectSize m' page = size
  capacity_eq : Slab.capacity m' page = capacity
  freeCount_eq : freeCount m' page = capacity
  linked : Trail m'.readWord (top m' page) ((List.range capacity).map (first + · * size))
  dvd : ∀ i < capacity, size ∣ first + i * size
  within : ∀ i < capacity, page + headerSize ≤ first + i * size ∧
    first + i * size + size ≤ page + pageSize
  rest_lt : page + pageSize < first + capacity * size + size
  kept : ∀ x, (x < page ∨ page + headerSize ≤ x) →
    (∀ i < capacity, x < first + i * size ∨ first + i * size + 8 ≤ x) → m'.read x = m.read x

/-- No further object would fit behind the last. -/
theorem Fits.rest_lt (hs : Fits size) :
    pageSize < firstOffset size + slots size * size + size := by
  have hle := hs.slots_le
  have hlt : pageSize - firstOffset size < slots size * size + size := Nat.lt_div_mul_add hs.size_pos
  omega

/-- A byte that is neither of the header nor of a link is not one that the slab keeps for itself. -/
theorem not_reserved {stack : List Nat} {x : Nat} (hheader : x < page ∨ page + headerSize ≤ x)
    (hlinks : ∀ i ∈ stack, x < slot page size i ∨ slot page size i + minObjectSize ≤ x) :
    ¬Reserved page size stack x := by
  intro hreserved
  cases hreserved with
  | inl hin => omega
  | inr hin =>
      obtain ⟨i, hi, hlink⟩ := hin
      have := hlinks i hi
      omega

/-- A slab that shows all of its objects in order was carved, if no more than it keeps for itself was
written. -/
theorem Shows.carved (h : Shows m' page size 0 (List.range (slots size))) (hs : Fits size)
    (hdvd : pageSize ∣ page)
    (hkept : ∀ x, ¬Reserved page size (List.range (slots size)) x → m'.read x = m.read x) :
    Carved m m' page size (page + firstOffset size) (slots size) := by
  refine ⟨h.next_eq, h.objectSize_eq, h.capacity_eq, ?_, ?_, fun i _ => hs.dvd_slot hdvd,
    fun i hi => hs.slot_within page hi, ?_, fun x hheader hlinks => hkept x ?_⟩
  · rw [h.freeCount_eq, List.length_range]
  · rw [h.top_eq]
    exact h.stacked.trail hs
  · have := hs.rest_lt
    omega
  · exact not_reserved hheader fun i hi => hlinks i (List.mem_range.1 hi)

/-- Any page can be formatted for any class, with as many objects as the class has on a slab. -/
theorem format_carves (m : Memory) (i : Fin classSizes.size) {page : Nat} (hdvd : pageSize ∣ page)
    (hend : page + pageSize < 2 ^ 64) :
    ∃ first capacity m', alignUp (page + headerSize) (classSizes.get i) = .ok first ∧
      objectCount (classSizes.get i) = .ok capacity ∧ 1 ≤ capacity ∧
      format m page (classSizes.get i) = .ok m' ∧
      Carved m m' page (classSizes.get i) first capacity := by
  have hs := fits_class i
  obtain ⟨m', hformat, hshows, hkept⟩ := format_eq m hs (classSizes_eq i) hdvd hend
  exact ⟨_, _, m', alignUp_header hs (classSizes_eq i) hdvd hend, objectCount_eq i, hs.slots_pos,
    hformat, hshows.carved hs hdvd hkept⟩

/-- The last page but one of the address space is made into a slab of three objects. -/
theorem format_carves_at_top : ∃ m', format .blank 0xffffffffffffe000 1024 = .ok m' ∧
    Carved .blank m' 0xffffffffffffe000 1024 0xffffffffffffe400 3 := by
  obtain ⟨first, capacity, m', hfirst, hcount, -, hformat, hcarved⟩ :=
    @format_carves .blank 7 0xffffffffffffe000 (by decide) (by decide)
  cases hfirst.symm.trans (by decide : _ = .ok 0xffffffffffffe400)
  cases hcount.symm.trans (by decide : _ = .ok 3)
  exact ⟨m', hformat, hcarved⟩

end Slab
end BuddySlab
