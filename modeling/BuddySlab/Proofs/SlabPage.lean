import BuddySlab.Proofs.Geometry
import BuddySlab.Proofs.Patch
import Mathlib.Data.List.Nodup
import Mathlib.Data.List.Range

/-!
A slab page as a stack of object numbers. The header and the first words of the free objects are the
bytes a slab keeps for itself; as long as these are untouched the stack stays what it is. Popping
takes the top off, pushing puts an object on top, formatting makes the full stack in ascending
order, and none of them touches another byte.
-/

namespace BuddySlab

namespace Memory
variable {m m' : Memory} {address value other : Nat}

theorem readWord_writeWord_of_lt (h : value < 2 ^ 64) :
    (m.writeWord address value).readWord address = value := by
  rw [readWord_writeWord, Nat.mod_eq_of_lt h]

end Memory

namespace Slab

/-- How far behind the start of its page the first object lies. -/
def firstOffset (size : Nat) : Nat :=
  (headerSize + size - 1) / size * size

/-- How many objects a slab has. -/
def slots (size : Nat) : Nat :=
  (pageSize - firstOffset size) / size

/-- The address of an object by its number. -/
def slot (page size number : Nat) : Nat :=
  page + firstOffset size + number * size

/-- A size whose objects fill a page behind the header. -/
structure Fits (size : Nat) : Prop where
  word_le : minObjectSize ≤ size
  lt_page : size < pageSize
  dvd_page : size ∣ pageSize
  dvd_first : size ∣ firstOffset size
  header_le : headerSize ≤ firstOffset size
  slots_pos : 0 < slots size
  slots_le : firstOffset size + slots size * size ≤ pageSize

instance (size : Nat) : Decidable (Fits size) :=
  decidable_of_iff
    (minObjectSize ≤ size ∧ size < pageSize ∧ size ∣ pageSize ∧ size ∣ firstOffset size ∧
      headerSize ≤ firstOffset size ∧ 0 < slots size ∧
      firstOffset size + slots size * size ≤ pageSize)
    ⟨fun ⟨h₁, h₂, h₃, h₄, h₅, h₆, h₇⟩ => ⟨h₁, h₂, h₃, h₄, h₅, h₆, h₇⟩,
      fun ⟨h₁, h₂, h₃, h₄, h₅, h₆, h₇⟩ => ⟨h₁, h₂, h₃, h₄, h₅, h₆, h₇⟩⟩

theorem fits_class : ∀ i : Fin classSizes.size, Fits (classSizes.get i) := by
  decide

theorem classSizes_eq : ∀ i : Fin classSizes.size, classSizes.get i = 2 ^ (i.val + 3) := by
  decide

section Slots
variable {page size i j : Nat} (hs : Fits size)
include hs

theorem Fits.size_pos : 0 < size :=
  Nat.lt_of_lt_of_le (by decide) hs.word_le

theorem Fits.le_slot (page i : Nat) : page + headerSize ≤ slot page size i := by
  have := hs.header_le
  rw [slot]
  omega

theorem Fits.slot_ne_zero (page i : Nat) : slot page size i ≠ 0 := by
  have hle := hs.le_slot page i
  simp only [headerSize] at hle
  omega

/-- An object lies between the header and the end of the page. -/
theorem Fits.slot_within (page : Nat) (hi : i < slots size) :
    page + headerSize ≤ slot page size i ∧ slot page size i + size ≤ page + pageSize := by
  have hle : (i + 1) * size ≤ slots size * size := Nat.mul_le_mul_right size hi
  have := hs.slots_le
  rw [Nat.add_mul, Nat.one_mul] at hle
  refine ⟨hs.le_slot page i, ?_⟩
  rw [slot]
  omega

theorem Fits.dvd_slot (hpage : pageSize ∣ page) : size ∣ slot page size i :=
  Nat.dvd_add (Nat.dvd_add (Nat.dvd_trans hs.dvd_page hpage) hs.dvd_first) (Nat.dvd_mul_left size i)

omit hs in
theorem slot_apart (page size : Nat) (hij : i ≠ j) :
    slot page size i + size ≤ slot page size j ∨ slot page size j + size ≤ slot page size i := by
  have hbelow {n m : Nat} (hnm : n < m) : slot page size n + size ≤ slot page size m := by
    have hle := Nat.mul_le_mul_right size (show n + 1 ≤ m from hnm)
    rw [Nat.add_mul, Nat.one_mul] at hle
    simp only [slot]
    omega
  exact (Nat.lt_or_gt_of_ne hij).imp hbelow hbelow

end Slots

/-- The word that names the top of a stack. -/
def topWord (page size : Nat) : List Nat → Nat
  | [] => 0
  | i :: _ => slot page size i

/-- The first words of the objects link them to each other in this order. -/
def Stacked (m : Memory) (page size : Nat) : List Nat → Prop
  | [] => True
  | i :: rest => m.readWord (slot page size i) = topWord page size rest ∧ Stacked m page size rest

/-- The page is a slab of objects of this size, in front of the slab at `link`, and has these free
objects. -/
structure Shows (m : Memory) (page size link : Nat) (stack : List Nat) : Prop where
  next_eq : next m page = link
  objectSize_eq : objectSize m page = size
  capacity_eq : capacity m page = slots size
  top_eq : top m page = topWord page size stack
  freeCount_eq : freeCount m page = stack.length
  stacked : Stacked m page size stack
  nodup : stack.Nodup
  lt_slots : ∀ i ∈ stack, i < slots size

/-- The bytes that a slab keeps for itself. -/
def Reserved (page size : Nat) (stack : List Nat) (x : Nat) : Prop :=
  (page ≤ x ∧ x < page + headerSize) ∨
    ∃ i ∈ stack, slot page size i ≤ x ∧ x < slot page size i + minObjectSize

variable {m m' : Memory} {page size link i : Nat} {stack : List Nat}

theorem Reserved.mem_page {x : Nat} (h : Reserved page size stack x) (hs : Fits size)
    (hlt : ∀ i ∈ stack, i < slots size) : page ≤ x ∧ x < page + pageSize := by
  cases h with
  | inl hheader =>
      simp only [headerSize, pageSize] at *
      omega
  | inr hlink =>
      obtain ⟨i, hi, hx⟩ := hlink
      have hwithin := hs.slot_within page (hlt i hi)
      have hword := hs.word_le
      omega

/-- What is outside of the page is outside of its header. -/
theorem outside_header {x : Nat} (hx : x < page ∨ page + pageSize ≤ x) :
    x < page ∨ page + headerSize ≤ x :=
  hx.imp_right (Nat.le_trans (Nat.add_le_add_left (by decide) page))

/-- The link of a free object is part of the object. -/
theorem Fits.covers_link {x : Nat} (hs : Fits size)
    (hx : slot page size i ≤ x ∧ x < slot page size i + minObjectSize) :
    (Extent.mk (slot page size i) size).Covers x :=
  ⟨hx.1, Nat.lt_of_lt_of_le hx.2 (Nat.add_le_add_left hs.word_le _)⟩

theorem stacked_congr (h : ∀ i ∈ stack, m'.readWord (slot page size i) =
    m.readWord (slot page size i)) (hm : Stacked m page size stack) :
    Stacked m' page size stack := by
  induction stack with
  | nil => trivial
  | cons i rest ih =>
      exact ⟨(h i List.mem_cons_self).trans hm.1,
        ih (fun j hj => h j (List.mem_cons_of_mem i hj)) hm.2⟩

theorem Shows.congr (h : Shows m page size link stack)
    (hsame : ∀ x, Reserved page size stack x → m'.read x = m.read x) :
    Shows m' page size link stack := by
  have hfield (offset : Nat) (hoffset : offset + 8 ≤ headerSize) :
      m'.readWord (page + offset) = m.readWord (page + offset) :=
    Memory.readWord_congr fun x hlow hhigh => hsame x (.inl ⟨by omega, by omega⟩)
  refine ⟨(hfield 0 (by decide)).trans h.next_eq,
    (hfield _ (by decide)).trans h.objectSize_eq, (hfield _ (by decide)).trans h.capacity_eq,
    (hfield _ (by decide)).trans h.top_eq, (hfield _ (by decide)).trans h.freeCount_eq,
    stacked_congr (fun i hi => ?_) h.stacked, h.nodup, h.lt_slots⟩
  exact Memory.readWord_congr fun x hlow hhigh => hsame x (.inr ⟨i, hi, hlow, hhigh⟩)

theorem topWord_lt (hs : Fits size) (hpage : page + pageSize < 2 ^ 64)
    (hlt : ∀ i ∈ stack, i < slots size) : topWord page size stack < 2 ^ 64 := by
  cases stack with
  | nil => exact Nat.two_pow_pos 64
  | cons i rest =>
      have hend := (hs.slot_within page (hlt i List.mem_cons_self)).2
      have := hs.size_pos
      change slot page size i < 2 ^ 64
      omega

theorem Shows.pop_nil (h : Shows m page size link []) : pop m page = .ok (none, m) := by
  rw [pop]
  simp only [h.top_eq, topWord, if_true, pure_eq_ok]

theorem Fits.slots_lt (hs : Fits size) : slots size < pageSize := by
  have hle := Nat.mul_le_mul_left (slots size) hs.size_pos
  have := hs.slots_le
  have hheader : 48 ≤ firstOffset size := hs.header_le
  omega

theorem Fits.range_slots (hs : Fits size) :
    List.range (slots size) = 0 :: (List.range (slots size)).tail := by
  obtain ⟨n, hn⟩ := Nat.exists_eq_add_of_lt hs.slots_pos
  rw [hn, List.range_eq_range', List.range'_succ, List.tail_cons]

/-- What a slab gives up with its lowest object is part of the object. -/
theorem Fits.reserved_range {x : Nat} (hs : Fits size)
    (hx : Reserved page size (List.range (slots size)) x) :
    Reserved page size (List.range (slots size)).tail x ∨
      (Extent.mk (slot page size 0) size).Covers x := by
  rw [hs.range_slots] at hx
  cases hx with
  | inl hheader => exact .inl (.inl hheader)
  | inr hlink =>
      obtain ⟨n, hn, hin⟩ := hlink
      cases hn with
      | head => exact .inr (hs.covers_link hin)
      | tail _ hn => exact .inl (.inr ⟨n, hn, hin⟩)

theorem Shows.length_le (h : Shows m page size link stack) : stack.length ≤ slots size :=
  length_le_of_nodup h.nodup h.lt_slots

theorem Shows.length_lt (h : Shows m page size link stack) (hs : Fits size) :
    stack.length < 2 ^ 64 :=
  Nat.lt_trans (Nat.lt_of_le_of_lt h.length_le hs.slots_lt) (by decide)

/-- Only the top and the count of a slab's header differ, and only they and the link of a number of
objects are written. -/
theorem Shows.restack {stack' : List Nat} (h : Shows m page size link stack)
    (hsame : ∀ x, page ≤ x → x < topField page → m'.read x = m.read x)
    (htop : top m' page = topWord page size stack') (hcount : freeCount m' page = stack'.length)
    (hstacked : Stacked m' page size stack') (hnodup : stack'.Nodup)
    (hlt : ∀ i ∈ stack', i < slots size) : Shows m' page size link stack' := by
  have hfield (offset : Nat) (hoffset : offset + 8 ≤ 32) :
      m'.readWord (page + offset) = m.readWord (page + offset) :=
    Memory.readWord_congr fun x hlow hhigh =>
      hsame x (by omega) (by simp only [topField]; omega)
  exact ⟨(hfield 0 (by decide)).trans h.next_eq,
    (hfield _ (by decide)).trans h.objectSize_eq, (hfield _ (by decide)).trans h.capacity_eq,
    htop, hcount, hstacked, hnodup, hlt⟩

/-- The words that popping writes where these objects are left. -/
def popWords (page size : Nat) (rest : List Nat) : List (Nat × Nat) :=
  [(topField page, topWord page size rest), (freeCountField page, rest.length)]

/-- The words that pushing an object on this stack writes. -/
def pushWords (page size number : Nat) (stack : List Nat) : List (Nat × Nat) :=
  [(slot page size number, topWord page size stack), (topField page, slot page size number),
    (freeCountField page, stack.length + 1)]

theorem Shows.pop_eq (h : Shows m page size link (i :: stack)) (hs : Fits size) :
    pop m page = .ok (some (slot page size i), m.patch (popWords page size stack)) := by
  have htop : top m page = slot page size i := h.top_eq
  have hlink : m.readWord (slot page size i) = topWord page size stack := h.stacked.1
  have hcount : freeCount (m.writeWord (topField page) (topWord page size stack)) page =
      stack.length + 1 := by
    rw [← List.length_cons, ← h.freeCount_eq]
    exact Memory.readWord_writeWord_of_disjoint _ _ _ _
      (by simp only [freeCountField, topField]; omega)
  simp only [pop, htop, if_neg (hs.slot_ne_zero page i), hlink, hcount]
  rw [Word.subtract_of_le (by omega), Nat.add_sub_cancel]
  rfl

theorem Shows.push_eq (h : Shows m page size link stack) (hs : Fits size) (i : Nat) :
    push m page (slot page size i) = .ok (m.patch (pushWords page size i stack)) := by
  have htop : top m page = topWord page size stack := h.top_eq
  have hslot : page + 48 ≤ slot page size i := hs.le_slot page i
  have hlength := Nat.lt_of_le_of_lt h.length_le hs.slots_lt
  simp only [pageSize] at hlength
  have hcount : freeCount ((m.writeWord (slot page size i) (topWord page size stack)).writeWord
      (topField page) (slot page size i)) page = stack.length := by
    rw [← h.freeCount_eq, freeCount, freeCount, Memory.readWord_writeWord_of_disjoint _ _ _ _
      (by simp only [freeCountField, topField]; omega)]
    exact Memory.readWord_writeWord_of_disjoint _ _ _ _ (by simp only [freeCountField]; omega)
  simp only [push, htop, hcount]
  rw [Word.add_of_lt (by omega)]
  rfl

theorem Shows.pop_cons (h : Shows m page size link (i :: stack)) (hs : Fits size)
    (hpage : page + pageSize < 2 ^ 64) :
    ∃ m', pop m page = .ok (some (slot page size i), m') ∧ Shows m' page size link stack ∧
      ∀ x, (x < page ∨ page + headerSize ≤ x) → m'.read x = m.read x := by
  have hslot (j : Nat) : page + 48 ≤ slot page size j := hs.le_slot page j
  have hlt : ∀ j ∈ stack, j < slots size := fun j hj => h.lt_slots j (List.mem_cons_of_mem i hj)
  have hlength := h.length_lt hs
  rw [List.length_cons] at hlength
  let m₂ := (m.writeWord (topField page) (topWord page size stack)).writeWord (freeCountField page)
    stack.length
  have houtside {x : Nat} (hx : x < topField page ∨ page + headerSize ≤ x) :
      m₂.read x = m.read x := by
    simp only [topField, headerSize] at hx
    rw [Memory.read_writeWord_of_outside _ _ _ _ (by simp only [freeCountField]; omega),
      Memory.read_writeWord_of_outside _ _ _ _ (by simp only [topField]; omega)]
  refine ⟨m₂, h.pop_eq hs, h.restack (fun x _ hx => houtside (.inl hx)) ?_ ?_ ?_
    (List.nodup_cons.1 h.nodup).2 hlt, fun x hx => houtside (hx.imp_left fun hx => ?_)⟩
  · rw [top, Memory.readWord_writeWord_of_disjoint _ _ _ _
      (by simp only [freeCountField, topField]; omega)]
    exact Memory.readWord_writeWord_of_lt (topWord_lt hs hpage hlt)
  · exact Memory.readWord_writeWord_of_lt (by omega)
  · refine stacked_congr (fun j _ => ?_) h.stacked.2
    have := hslot j
    exact Memory.readWord_congr fun x hlow _ => houtside (.inr (by simp only [headerSize]; omega))
  · simp only [topField]
    omega

theorem Shows.push (h : Shows m page size link stack) (hs : Fits size)
    (hpage : page + pageSize < 2 ^ 64) (hi : i < slots size) (hfresh : i ∉ stack) :
    ∃ m', push m page (slot page size i) = .ok m' ∧ Shows m' page size link (i :: stack) ∧
      ∀ x, (x < page ∨ page + headerSize ≤ x) →
        (x < slot page size i ∨ slot page size i + minObjectSize ≤ x) → m'.read x = m.read x := by
  have hslot (j : Nat) : page + 48 ≤ slot page size j := hs.le_slot page j
  have hsize : 8 ≤ size := hs.word_le
  have hend := (hs.slot_within page hi).2
  have hlength := Nat.lt_of_le_of_lt h.length_le hs.slots_lt
  simp only [pageSize] at hlength
  let m₁ := m.writeWord (slot page size i) (topWord page size stack)
  let m₃ := (m₁.writeWord (topField page) (slot page size i)).writeWord (freeCountField page)
    (stack.length + 1)
  have hheader {x : Nat} (hx : x < topField page ∨ page + headerSize ≤ x) :
      m₃.read x = m₁.read x := by
    simp only [topField, headerSize] at hx
    rw [Memory.read_writeWord_of_outside _ _ _ _ (by simp only [freeCountField]; omega),
      Memory.read_writeWord_of_outside _ _ _ _ (by simp only [topField]; omega)]
  have hlink {x : Nat} (hx : x < slot page size i ∨ slot page size i + 8 ≤ x) :
      m₁.read x = m.read x :=
    Memory.read_writeWord_of_outside _ _ _ _ hx
  refine ⟨m₃, h.push_eq hs i, h.restack (fun x _ hx => ?_) ?_ ?_ ⟨?_, ?_⟩
    (List.nodup_cons.2 ⟨hfresh, h.nodup⟩) (fun j hj => ?_), fun x hx hx' => ?_⟩
  · have := hslot i
    rw [hheader (.inl hx), hlink (.inl (by simp only [topField] at hx; omega))]
  · rw [top, Memory.readWord_writeWord_of_disjoint _ _ _ _
      (by simp only [freeCountField, topField]; omega)]
    exact Memory.readWord_writeWord_of_lt (by omega)
  · exact Memory.readWord_writeWord_of_lt (by omega)
  · have := hslot i
    have hread : m₁.readWord (slot page size i) = topWord page size stack :=
      Memory.readWord_writeWord_of_lt (topWord_lt hs hpage h.lt_slots)
    rw [← hread]
    exact Memory.readWord_congr fun x hlow _ => hheader (.inr (by simp only [headerSize]; omega))
  · refine stacked_congr (fun j hj => ?_) h.stacked
    have := hslot j
    have hapart := slot_apart page size (i := i) (j := j) fun hij => hfresh (hij ▸ hj)
    refine Memory.readWord_congr fun x hlow hhigh => ?_
    rw [hheader (.inr (by simp only [headerSize]; omega)), hlink (by omega)]
  · cases hj with
    | head => exact hi
    | tail _ hj => exact h.lt_slots j hj
  · rw [hheader (by simp only [topField, headerSize] at *; omega), hlink hx']

/-- Only the link to the next slab is written. -/
theorem Shows.relink (h : Shows m page size link stack) (hs : Fits size) {link' : Nat}
    (hlink : link' < 2 ^ 64) :
    Shows (m.writeWord (nextField page) link') page size link' stack := by
  have hword {address : Nat} (haddress : page + 8 ≤ address) :
      (m.writeWord (nextField page) link').readWord address = m.readWord address :=
    Memory.readWord_writeWord_of_disjoint _ _ _ _ (.inr haddress)
  refine ⟨Memory.readWord_writeWord_of_lt hlink,
    (hword (Nat.le_refl _)).trans h.objectSize_eq,
    (hword (Nat.add_le_add_left (by decide) page)).trans h.capacity_eq,
    (hword (Nat.add_le_add_left (by decide) page)).trans h.top_eq,
    (hword (Nat.add_le_add_left (by decide) page)).trans h.freeCount_eq,
    stacked_congr (fun i _ => hword ?_) h.stacked, h.nodup, h.lt_slots⟩
  exact Nat.le_trans (Nat.add_le_add_left (by decide) page) (hs.le_slot page i)

theorem containing_eq {address : Nat} (h : address < 2 ^ 64) :
    containing address = address / pageSize * pageSize :=
  Word.and_complement_mask (k := 12) h (by decide)

theorem Fits.containing_slot (hs : Fits size) (hdvd : pageSize ∣ page)
    (hpage : page + pageSize < 2 ^ 64) (hi : i < slots size) :
    containing (slot page size i) = page := by
  obtain ⟨hge, hle⟩ := hs.slot_within page hi
  have hpos := hs.size_pos
  obtain ⟨q, rfl⟩ := hdvd
  generalize slot (pageSize * q) size i = object at hle hge
  rw [containing_eq (by omega)]
  simp only [pageSize, headerSize] at *
  omega

/-! Formatting writes the links of ever more objects, and the header last. -/

section Format
variable {first capacity : Nat}

theorem carve_place (hfits : first + capacity * size < 2 ^ 64) (hi : i ≤ capacity) :
    carve.place first size i = .ok (first + i * size) := by
  have hle := Nat.mul_le_mul_right size hi
  rw [carve.place, Word.multiply_of_lt (by omega), ok_bind]
  exact Word.add_of_lt (by omega)

/-- Links one object. -/
def carveOne (first size capacity : Nat) (m : Memory) (i : Nat) : Except Fault Memory := do
  let object ← carve.place first size i
  let next ← if i + 1 < capacity then carve.place first size (i + 1) else pure 0
  return m.writeWord object next

def carveLink (first size capacity i : Nat) : Nat :=
  if i + 1 < capacity then first + (i + 1) * size else 0

theorem carveOne_eq (m : Memory) (hfits : first + capacity * size < 2 ^ 64) (hi : i < capacity) :
    carveOne first size capacity m i =
      .ok (m.writeWord (first + i * size) (carveLink first size capacity i)) := by
  rw [carveOne, carve_place hfits (Nat.le_of_lt hi), ok_bind, carveLink]
  by_cases hlast : i + 1 < capacity
  · simp only [if_pos hlast, carve_place hfits hi, ok_bind, pure_eq_ok]
  · simp only [if_neg hlast, ok_bind, pure_eq_ok]

theorem carveLink_lt (hfits : first + capacity * size < 2 ^ 64) :
    carveLink first size capacity i < 2 ^ 64 := by
  rw [carveLink]
  split
  · rename_i hi
    have hle := Nat.mul_le_mul_right size (Nat.le_of_lt hi)
    omega
  · exact Nat.two_pow_pos 64

/-- The links of the first `n` objects. -/
def links (first size capacity n : Nat) : List (Nat × Nat) :=
  (List.range n).map fun i => (first + i * size, carveLink first size capacity i)

theorem patch_links_succ (m : Memory) (n : Nat) :
    m.patch (links first size capacity (n + 1)) = (m.patch (links first size capacity n)).writeWord
      (first + n * size) (carveLink first size capacity n) := by
  rw [links, List.range_succ, List.map_append, Memory.patch_append]
  rfl

theorem carve_run (m : Memory) (hfits : first + capacity * size < 2 ^ 64) (n : Nat)
    (hn : n ≤ capacity) : (List.range n).foldlM (carveOne first size capacity) m =
      .ok (m.patch (links first size capacity n)) := by
  induction n with
  | zero => rfl
  | succ n ih =>
      rw [List.range_succ, List.foldlM_append, ih (Nat.le_of_succ_le hn), ok_bind, List.foldlM_cons,
        carveOne_eq _ hfits hn, patch_links_succ]
      rfl

/-- After the links of the first `n` objects were written. -/
theorem patch_links (m : Memory) (hsize : minObjectSize ≤ size)
    (hfits : first + capacity * size < 2 ^ 64) (n : Nat) :
    (∀ i < n, (m.patch (links first size capacity n)).readWord (first + i * size) =
      carveLink first size capacity i) ∧
    ∀ x, (∀ i < n, x < first + i * size ∨ first + i * size + minObjectSize ≤ x) →
      (m.patch (links first size capacity n)).read x = m.read x := by
  induction n with
  | zero => exact ⟨fun i hi => absurd hi (Nat.not_lt_zero i), fun _ _ => rfl⟩
  | succ n ih =>
      obtain ⟨hlinks, houtside⟩ := ih
      rw [patch_links_succ]
      refine ⟨fun i hi => ?_, fun x hx => ?_⟩
      · by_cases hin : i = n
        · rw [hin]
          exact Memory.readWord_writeWord_of_lt (carveLink_lt hfits)
        · have hlt : i < n := by omega
          have hapart := Nat.mul_le_mul_right size (show i + 1 ≤ n from hlt)
          rw [Nat.add_mul, Nat.one_mul] at hapart
          simp only [minObjectSize] at hsize
          rw [Memory.readWord_writeWord_of_disjoint _ _ _ _ (by omega), hlinks i hlt]
      · rw [Memory.read_writeWord_of_outside _ _ _ _ (hx n (Nat.lt_succ_self n)),
          houtside x fun i hi => hx i (Nat.lt_succ_of_lt hi)]

theorem stacked_range' {n j : Nat} (hj : j + n = slots size)
    (hlinks : ∀ i < slots size, m.readWord (slot page size i) =
      carveLink (page + firstOffset size) size (slots size) i) :
    Stacked m page size (List.range' j n) := by
  induction n generalizing j with
  | zero => trivial
  | succ n ih =>
      refine ⟨?_, ih (by omega)⟩
      rw [hlinks j (by omega), carveLink]
      cases n with
      | zero => exact if_neg (by omega)
      | succ n => exact if_pos (by omega)

theorem writeHeader_outside (m : Memory) {x : Nat} (hx : x < page ∨ page + headerSize ≤ x) :
    (writeHeader m page size first capacity).read x = m.read x := by
  simp only [headerSize] at hx
  simp only [writeHeader]
  iterate 6
    rw [Memory.read_writeWord_of_outside _ _ _ _ (by
      simp only [nextField, objectSizeField, capacityField, lockField, topField, freeCountField]
      omega)]

theorem readHeader_writeHeader (m : Memory)
    (hword : size < 2 ^ 64 ∧ first < 2 ^ 64 ∧ capacity < 2 ^ 64) :
    next (writeHeader m page size first capacity) page = 0 ∧
      objectSize (writeHeader m page size first capacity) page = size ∧
      Slab.capacity (writeHeader m page size first capacity) page = capacity ∧
      top (writeHeader m page size first capacity) page = first ∧
      freeCount (writeHeader m page size first capacity) page = capacity := by
  obtain ⟨hsize, hfirst, hcapacity⟩ := hword
  refine ⟨?_, ?_, ?_, ?_, ?_⟩ <;>
    simp (disch := omega) only [writeHeader, next, nextField, objectSize, objectSizeField,
      Slab.capacity, capacityField, lockField, top, topField, freeCount, freeCountField,
      Memory.readWord_writeWord_of_disjoint, Memory.readWord_writeWord_of_lt]

theorem alignUp_header (hs : Fits size) {k : Nat} (hk : size = 2 ^ k) (hdvd : pageSize ∣ page)
    (hpage : page + pageSize < 2 ^ 64) :
    alignUp (page + headerSize) size = .ok (page + firstOffset size) := by
  have hsize := hs.size_pos
  have hlt := hs.slots_le
  have hmin := hs.slots_pos
  obtain ⟨q, hq⟩ := Nat.dvd_trans hs.dvd_page hdvd
  have hle := Nat.mul_le_mul_right size hmin
  have hheader := hs.header_le
  have hsum : page + headerSize + 2 ^ k < 2 ^ 64 := by
    rw [← hk]
    omega
  rw [hk, alignUp_two_pow hsum, ← hk, hq, Nat.add_assoc, Nat.add_sub_assoc (by omega),
    Nat.mul_add_div hsize, Nat.add_mul, Nat.mul_comm q]
  rfl

/-- The words of a slab's header, and of the links before it, when a page is formatted. -/
def formatWords (page size : Nat) : List (Nat × Nat) :=
  links (page + firstOffset size) size (slots size) (slots size) ++
    [(nextField page, 0), (objectSizeField page, size), (capacityField page, slots size),
      (lockField page, 0), (topField page, page + firstOffset size),
      (freeCountField page, slots size)]

/-- Formatting reads nothing. -/
theorem format_run (m : Memory) (hs : Fits size) {k : Nat} (hk : size = 2 ^ k)
    (hdvd : pageSize ∣ page) (hpage : page + pageSize < 2 ^ 64) :
    format m page size = .ok (m.patch (formatWords page size)) := by
  have hle := hs.slots_le
  have hheader := hs.header_le
  have hcapacity : (page + pageSize - (page + firstOffset size)) / size = slots size := by
    rw [Nat.add_sub_add_left]
    rfl
  have hadd : Word.add page headerSize = .ok (page + headerSize) := Word.add_of_lt (by omega)
  have hadd' : Word.add page pageSize = .ok (page + pageSize) := Word.add_of_lt hpage
  have hcarve : carve m (page + firstOffset size) size (slots size) =
      .ok (m.patch (links (page + firstOffset size) size (slots size) (slots size))) :=
    carve_run m (by omega) _ (Nat.le_refl _)
  simp only [format, hadd, ok_bind, alignUp_header hs hk hdvd hpage, hadd',
    Word.subtract_of_le (show page + firstOffset size ≤ page + pageSize by omega), hcapacity,
    hcarve, pure_eq_ok]
  rw [formatWords, Memory.patch_append]
  rfl

/-- A formatted page is a full slab behind no other, and only its header and the links of its
objects were written. -/
theorem format_eq (m : Memory) (hs : Fits size) {k : Nat} (hk : size = 2 ^ k)
    (hdvd : pageSize ∣ page) (hpage : page + pageSize < 2 ^ 64) :
    ∃ m', format m page size = .ok m' ∧
      Shows m' page size 0 (List.range (slots size)) ∧
      ∀ x, ¬Reserved page size (List.range (slots size)) x → m'.read x = m.read x := by
  have hle := hs.slots_le
  let m₁ := m.patch (links (page + firstOffset size) size (slots size) (slots size))
  have hfits : page + firstOffset size + slots size * size < 2 ^ 64 := by omega
  obtain ⟨hlinks, houtside⟩ := patch_links m hs.word_le hfits (slots size)
  have hheader {x : Nat} (hx : x < page ∨ page + headerSize ≤ x) :
      (writeHeader m₁ page size (page + firstOffset size) (slots size)).read x = m₁.read x :=
    writeHeader_outside m₁ hx
  have hword : size < 2 ^ 64 ∧ page + firstOffset size < 2 ^ 64 ∧ slots size < 2 ^ 64 := by
    have hpages : size < 4096 ∧ slots size < 4096 := ⟨hs.lt_page, hs.slots_lt⟩
    omega
  refine ⟨writeHeader m₁ page size (page + firstOffset size) (slots size), ?_,
    ⟨?_, ?_, ?_, ?_, ?_, ?_, List.nodup_range, fun i hi => List.mem_range.1 hi⟩, fun x hx => ?_⟩
  · rw [format_run m hs hk hdvd hpage, formatWords, Memory.patch_append]
    rfl
  · exact (readHeader_writeHeader m₁ hword).1
  · exact (readHeader_writeHeader m₁ hword).2.1
  · exact (readHeader_writeHeader m₁ hword).2.2.1
  · rw [(readHeader_writeHeader m₁ hword).2.2.2.1, List.range_eq_range']
    obtain ⟨n, hn⟩ := Nat.exists_eq_add_of_lt hs.slots_pos
    rw [hn, Nat.zero_add, List.range'_succ, topWord, slot, Nat.zero_mul]
    rfl
  · rw [(readHeader_writeHeader m₁ hword).2.2.2.2, List.length_range]
  · rw [List.range_eq_range']
    refine stacked_range' (Nat.zero_add _) fun i hi => ?_
    rw [← hlinks i hi]
    refine Memory.readWord_congr fun x hlow _ => hheader (.inr ?_)
    exact Nat.le_trans (hs.le_slot page i) hlow
  · simp only [Reserved, not_or, not_exists, not_and, List.mem_range] at hx
    rw [hheader (by omega), houtside x fun i hi => ?_]
    have := hx.2 i hi
    simp only [slot] at this
    omega

end Format

end Slab
end BuddySlab
