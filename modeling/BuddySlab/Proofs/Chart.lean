import BuddySlab.Proofs.ObjectTier
import BuddySlab.Proofs.PageTier
import BuddySlab.Proofs.Sizes

/-!
A chart says who has the pages of a payload and the objects of its slabs: the free lists, the blocks
held by clients, and the slabs of each class with their stacks. Granting an item and releasing one
are pure functions on charts; they change what is held by just that item.
-/

namespace BuddySlab

/-- What a rounded request asks for: an object of a class or a block of an order. -/
inductive Grade
  | object (i : Fin classSizes.size)
  | block (order : Fin orderCount)
  deriving DecidableEq, Repr

def Grade.size : Grade → Nat
  | .object i => classSizes.get i
  | .block order => blockSize order

/-- Whatever is served is of some grade. -/
theorem exists_grade {n rounded : Nat} (h : roundSize n = .ok rounded) :
    n ≤ rounded ∧ ∃ g : Grade, rounded = g.size := by
  obtain ⟨hle, ⟨i, hi⟩ | ⟨k, hk, hsize⟩⟩ := roundSize_eq_ok h
  · exact ⟨hle, .object i, hi⟩
  · exact ⟨hle, .block ⟨k, Nat.lt_succ_of_le hk⟩, hsize⟩

/-- What a client holds. -/
inductive Item
  | block (b : Block)
  | object (i : Fin classSizes.size) (page number : Nat)
  deriving DecidableEq, Repr

def Block.extent (a : Arena) (b : Block) : Extent :=
  ⟨a.pageAddress b.first, blockSize b.order⟩

namespace Item

def extent (a : Arena) : Item → Extent
  | .block b => b.extent a
  | .object i page number =>
      ⟨Slab.slot (a.pageAddress page) (classSizes.get i) number, classSizes.get i⟩

/-- The block of pages that an item lies in. -/
def home : Item → Block
  | .block b => b
  | .object _ page _ => ⟨page, 0⟩

end Item

namespace Sheet
variable {size i page : Nat} {stack : List Nat}

/-- The objects of a slab that are not free. -/
def live (size : Nat) (s : Sheet) : List Nat :=
  (List.range (Slab.slots size)).filter (· ∉ s.stack)

theorem mem_live {s : Sheet} : i ∈ s.live size ↔ i < Slab.slots size ∧ i ∉ s.stack := by
  simp [live]

theorem live_nodup (size : Nat) (s : Sheet) : (s.live size).Nodup :=
  List.nodup_range.filter _

/-- Putting an object on the stack takes it from those that are not free. -/
theorem live_push (page : Nat) (hi : i < Slab.slots size) (hfresh : i ∉ stack) :
    (live size ⟨page, stack⟩).Perm (i :: live size ⟨page, i :: stack⟩) := by
  refine (List.perm_ext_iff_of_nodup (live_nodup _ _) ?_).2 fun j => ?_
  · refine List.nodup_cons.2 ⟨fun hmem => ?_, live_nodup _ _⟩
    exact (mem_live.1 hmem).2 List.mem_cons_self
  · simp only [List.mem_cons, mem_live, not_or]
    by_cases hji : j = i
    · simp [hji, hi, hfresh]
    · simp [hji]

def items (i : Fin classSizes.size) (s : Sheet) : List Item :=
  (s.live (classSizes.get i)).map (Item.object i s.page)

/-- A new slab has handed out its lowest object. -/
theorem items_fresh (i : Fin classSizes.size) (page : Nat) :
    (items i ⟨page, (List.range (Slab.slots (classSizes.get i))).tail⟩).Perm [.object i page 0] := by
  have hfits := Slab.fits_class i
  have hrange := hfits.range_slots
  have hfresh : 0 ∉ (List.range (Slab.slots (classSizes.get i))).tail :=
    (List.nodup_cons.1 (hrange ▸ List.nodup_range)).1
  have hpush := live_push page hfits.slots_pos hfresh
  have hfull : live (classSizes.get i) ⟨page, List.range (Slab.slots (classSizes.get i))⟩ = [] := by
    simp [live]
  rw [← hrange, hfull] at hpush
  exact hpush.map (Item.object i page)

end Sheet

structure Chart where
  free : Listing
  blocks : List Block
  sheets : Fin classSizes.size → List Sheet

namespace Chart
variable {c : Chart} {i : Fin classSizes.size} {x : Item}

def slabPages (c : Chart) : List Nat :=
  (List.finRange classSizes.size).flatMap fun i => (c.sheets i).map Sheet.page

/-- The blocks that are not free. -/
def used (c : Chart) : List Block :=
  c.blocks ++ c.slabPages.map (Block.mk · 0)

def objects (c : Chart) : List Item :=
  (List.finRange classSizes.size).flatMap fun i => (c.sheets i).flatMap (Sheet.items i)

/-- All that clients hold. -/
def items (c : Chart) : List Item :=
  c.blocks.map .block ++ c.objects

def setSheets (c : Chart) (i : Fin classSizes.size) (sheets : List Sheet) : Chart :=
  { c with sheets := Function.update c.sheets i sheets }

def grant? (c : Chart) : Grade → Option (Item × Chart)
  | .block order =>
      (c.free.take? order).map fun (first, free) =>
        (.block ⟨first, order⟩, { c with free, blocks := ⟨first, order⟩ :: c.blocks })
  | .object i =>
      match Sheet.first? (c.sheets i) with
      | some (page, number) =>
          some (.object i page number,
            c.setSheets i ((c.sheets i).map (Sheet.restack page List.tail)))
      | none =>
          (c.free.take? 0).map fun (page, free) =>
            (.object i page 0, { c with free }.setSheets i
              (⟨page, (List.range (Slab.slots (classSizes.get i))).tail⟩ :: c.sheets i))

def release (c : Chart) (base : Nat) : Item → Chart
  | .block b =>
      { c with free := c.free.give base b.first b.order, blocks := c.blocks.erase b }
  | .object i page number =>
      c.setSheets i ((c.sheets i).map (Sheet.restack page (number :: ·)))

/-- All pages are free. -/
def initial (a : Arena) : Chart :=
  ⟨Buddy.initialListing a, [], fun _ => []⟩

theorem slabPages_initial (a : Arena) : (initial a).slabPages = [] :=
  List.flatMap_eq_nil_iff.2 fun _ _ => rfl

theorem items_initial (a : Arena) : (initial a).items = [] :=
  List.append_eq_nil_iff.2 ⟨rfl, List.flatMap_eq_nil_iff.2 fun _ _ => rfl⟩

theorem mem_slabPages {page : Nat} :
    page ∈ c.slabPages ↔ ∃ i, ∃ s ∈ c.sheets i, s.page = page := by
  simp [slabPages]

theorem mem_objects : x ∈ c.objects ↔ ∃ i, ∃ s ∈ c.sheets i, x ∈ s.items i := by
  simp [objects]

/-- An item is a held block or an object of a slab that is not free. -/
inductive Holds (c : Chart) : Item → Prop
  | block {b : Block} (hb : b ∈ c.blocks) : Holds c (.block b)
  | object {i : Fin classSizes.size} {s : Sheet} {number : Nat} (hs : s ∈ c.sheets i)
      (hlive : number ∈ s.live (classSizes.get i)) : Holds c (.object i s.page number)

theorem mem_items : x ∈ c.items ↔ c.Holds x := by
  simp only [items, List.mem_append, List.mem_map, mem_objects, Sheet.items]
  constructor
  · intro hx
    cases hx with
    | inl hblock =>
        obtain ⟨b, hb, rfl⟩ := hblock
        exact .block hb
    | inr hobject =>
        obtain ⟨i, s, hs, number, hlive, rfl⟩ := hobject
        exact .object hs hlive
  · intro hx
    cases hx with
    | block hb => exact .inl ⟨_, hb, rfl⟩
    | object hs hlive => exact .inr ⟨_, _, hs, _, hlive, rfl⟩

theorem home_mem_used (hx : x ∈ c.items) : x.home ∈ c.used := by
  cases mem_items.1 hx with
  | block hb => exact List.mem_append_left _ hb
  | object hs hlive =>
      exact List.mem_append_right _ (List.mem_map_of_mem (mem_slabPages.2 ⟨_, _, hs, rfl⟩))

theorem setSheets_sheets (c : Chart) (i j : Fin classSizes.size) (sheets : List Sheet) :
    (c.setSheets i sheets).sheets j = if j = i then sheets else c.sheets j :=
  Function.update_apply c.sheets i sheets j

theorem mem_setSheets_cons (c : Chart) (i : Fin classSizes.size) (s : Sheet) (sheets : List Sheet) :
    s ∈ (c.setSheets i (s :: sheets)).sheets i := by
  rw [setSheets_sheets, if_pos rfl]
  exact List.mem_cons_self

/-- A class may change alone. -/
theorem objects_setSheets {sheets : List Sheet}
    (hone : (sheets.flatMap (Sheet.items i)).Perm (x :: (c.sheets i).flatMap (Sheet.items i))) :
    ((c.setSheets i sheets).objects).Perm (x :: c.objects) := by
  refine perm_flatMap_of_one (List.nodup_finRange _) (List.mem_finRange i) (fun j _ hj => ?_) ?_
  · rw [setSheets_sheets, if_neg hj]
  · rwa [setSheets_sheets, if_pos rfl]

theorem objects_of_setSheets {sheets : List Sheet}
    (hone : ((c.sheets i).flatMap (Sheet.items i)).Perm (x :: sheets.flatMap (Sheet.items i))) :
    c.objects.Perm (x :: (c.setSheets i sheets).objects) := by
  refine perm_flatMap_of_one (List.nodup_finRange _) (List.mem_finRange i) (fun j _ hj => ?_) ?_
  · rw [setSheets_sheets, if_neg hj]
  · rwa [setSheets_sheets, if_pos rfl]

theorem slabPages_setSheets {sheets : List Sheet}
    (hpages : sheets.map Sheet.page = (c.sheets i).map Sheet.page) :
    (c.setSheets i sheets).slabPages = c.slabPages := by
  refine List.flatMap_congr fun j _ => ?_
  rw [setSheets_sheets]
  split
  · rename_i hj
    rw [hpages, hj]
  · rfl

/-- A slab keeps its page when it gets another stack. -/
theorem pages_restack (c : Chart) (i : Fin classSizes.size) (page : Nat)
    (f : List Nat → List Nat) (j : Fin classSizes.size) :
    ((c.setSheets i ((c.sheets i).map (Sheet.restack page f))).sheets j).map Sheet.page =
      (c.sheets j).map Sheet.page := by
  rw [setSheets_sheets]
  split
  · rename_i hj
    rw [Sheet.map_restack_page, hj]
  · rfl

theorem slabPages_setSheets_cons (s : Sheet) :
    ((c.setSheets i (s :: c.sheets i)).slabPages).Perm (s.page :: c.slabPages) := by
  refine perm_flatMap_of_one (List.nodup_finRange _) (List.mem_finRange i) (fun j _ hj => ?_) ?_
  · rw [setSheets_sheets, if_neg hj]
  · rw [setSheets_sheets, if_pos rfl, List.map_cons]

theorem flatMap_items_pop {sheets : List Sheet} {page number : Nat} {stack : List Nat}
    (hnodup : (sheets.map Sheet.page).Nodup) (hs : ⟨page, number :: stack⟩ ∈ sheets)
    (hlt : number < Slab.slots (classSizes.get i)) (hfresh : number ∉ stack) :
    ((sheets.map (Sheet.restack page List.tail)).flatMap (Sheet.items i)).Perm
      (.object i page number :: sheets.flatMap (Sheet.items i)) := by
  rw [List.flatMap_map]
  refine perm_flatMap_of_one hnodup.of_map hs (fun t ht hne => ?_) ?_
  · rw [Sheet.restack_of_ne fun hpage => hne (List.inj_on_of_nodup_map hnodup ht hs hpage)]
  · rw [Sheet.restack, if_pos rfl, List.tail_cons]
    exact (Sheet.live_push _ hlt hfresh).map (Item.object i page)

theorem flatMap_items_push {sheets : List Sheet} {s : Sheet} {number : Nat}
    (hnodup : (sheets.map Sheet.page).Nodup) (hs : s ∈ sheets)
    (hlive : number ∈ s.live (classSizes.get i)) :
    (sheets.flatMap (Sheet.items i)).Perm (.object i s.page number ::
      (sheets.map (Sheet.restack s.page (number :: ·))).flatMap (Sheet.items i)) := by
  rw [List.flatMap_map]
  refine perm_flatMap_of_one hnodup.of_map hs (fun t ht hne => ?_) ?_
  · rw [Sheet.restack_of_ne fun hpage => hne (List.inj_on_of_nodup_map hnodup ht hs hpage)]
  · obtain ⟨hlt, hfresh⟩ := Sheet.mem_live.1 hlive
    rw [Sheet.restack, if_pos rfl]
    exact (Sheet.live_push _ hlt hfresh).map (Item.object i s.page)

/-- The slabs of a class have pages of their own, and each stack lists objects of its slab once. -/
structure Proper (c : Chart) : Prop where
  pages_nodup : c.slabPages.Nodup
  stack_nodup : ∀ i, ∀ s ∈ c.sheets i, s.stack.Nodup
  stack_lt : ∀ i, ∀ s ∈ c.sheets i, ∀ n ∈ s.stack, n < Slab.slots (classSizes.get i)

theorem Proper.nodup_sheets (h : c.Proper) (i : Fin classSizes.size) :
    ((c.sheets i).map Sheet.page).Nodup :=
  (List.nodup_flatMap.1 h.pages_nodup).1 i (List.mem_finRange i)

/-- A page is the page of one slab only. -/
theorem Proper.sheet_unique (h : c.Proper) {i j : Fin classSizes.size} {s t : Sheet}
    (hs : s ∈ c.sheets i) (ht : t ∈ c.sheets j) (hpage : s.page = t.page) : i = j ∧ s = t := by
  have hij : i = j := by
    by_contra hne
    have hpairwise := (List.nodup_flatMap.1 h.pages_nodup).2
    have : Std.Symm (Function.onFun List.Disjoint fun i => (c.sheets i).map Sheet.page) :=
      ⟨fun _ _ hdisjoint => List.disjoint_symm hdisjoint⟩
    exact hpairwise.forall (List.mem_finRange i) (List.mem_finRange j) hne
      (List.mem_map_of_mem hs) (hpage ▸ List.mem_map_of_mem ht)
  subst hij
  exact ⟨rfl, List.inj_on_of_nodup_map (h.nodup_sheets i) hs ht hpage⟩

theorem Proper.items_nodup (h : c.Proper) (hblocks : c.blocks.Nodup) : c.items.Nodup := by
  have hitems (i : Fin classSizes.size) (s : Sheet) : (s.items i).Nodup :=
    (Sheet.live_nodup _ s).map fun _ _ heq => (Item.object.inj heq).2.2
  refine List.nodup_append.2 ⟨hblocks.map fun _ _ heq => Item.block.inj heq, ?_, ?_⟩
  · refine List.nodup_flatMap.2 ⟨fun i _ => List.nodup_flatMap.2 ⟨fun s _ => hitems i s, ?_⟩, ?_⟩
    · refine (List.pairwise_map.1 (h.nodup_sheets i)).imp fun {s t} hne x hx hx' => hne ?_
      obtain ⟨n, -, rfl⟩ := List.mem_map.1 hx
      obtain ⟨m, -, heq⟩ := List.mem_map.1 hx'
      exact (Item.object.inj heq).2.1.symm
    · refine (List.nodup_finRange _).imp fun {i j} hne x hx hx' => hne ?_
      obtain ⟨s, -, hx⟩ := List.mem_flatMap.1 hx
      obtain ⟨t, -, hx'⟩ := List.mem_flatMap.1 hx'
      obtain ⟨n, -, rfl⟩ := List.mem_map.1 hx
      obtain ⟨m, -, heq⟩ := List.mem_map.1 hx'
      exact (Item.object.inj heq).1.symm
  · intro x hx y hy hxy
    obtain ⟨b, -, rfl⟩ := List.mem_map.1 hx
    obtain ⟨i, s, -, hmem⟩ := mem_objects.1 hy
    obtain ⟨n, -, rfl⟩ := List.mem_map.1 hmem
    cases hxy

theorem grant?_object_eq_none : c.grant? (.object i) = none ↔
    (∀ s ∈ c.sheets i, s.stack = []) ∧ c.free.take? 0 = none := by
  rw [grant?, ← Sheet.first?_eq_none]
  cases Sheet.first? (c.sheets i) <;> simp

theorem grant?_block_eq_none {k : Fin orderCount} :
    c.grant? (.block k) = none ↔ c.free.take? k = none := by
  rw [grant?, Option.map_eq_none_iff]

/-- All that granting can do. -/
inductive Grants (c : Chart) : Grade → Item → Chart → Prop
  | block {order : Fin orderCount} {first : Nat} {free : Listing}
      (htake : c.free.take? order = some (first, free)) :
      Grants c (.block order) (.block ⟨first, order⟩)
        { c with free, blocks := ⟨first, order⟩ :: c.blocks }
  | object {i : Fin classSizes.size} {page number : Nat}
      (hfirst : Sheet.first? (c.sheets i) = some (page, number)) :
      Grants c (.object i) (.object i page number)
        (c.setSheets i ((c.sheets i).map (Sheet.restack page List.tail)))
  | slab {i : Fin classSizes.size} {page : Nat} {free : Listing}
      (hfull : Sheet.first? (c.sheets i) = none) (htake : c.free.take? 0 = some (page, free)) :
      Grants c (.object i) (.object i page 0) ({ c with free }.setSheets i
        (⟨page, (List.range (Slab.slots (classSizes.get i))).tail⟩ :: c.sheets i))

section Grants
variable {g : Grade} {c' : Chart}

theorem grants_of_eq_some (hg : c.grant? g = some (x, c')) : c.Grants g x c' := by
  cases g with
  | block order =>
      obtain ⟨⟨first, free⟩, htake, heq⟩ := Option.map_eq_some_iff.1 hg
      obtain ⟨rfl, rfl⟩ := Prod.mk.inj heq
      exact .block htake
  | object i =>
      rw [grant?] at hg
      cases hfirst : Sheet.first? (c.sheets i) with
      | some found =>
          rw [hfirst, Option.some.injEq] at hg
          obtain ⟨rfl, rfl⟩ := Prod.mk.inj hg
          exact .object hfirst
      | none =>
          rw [hfirst] at hg
          obtain ⟨⟨page, free⟩, htake, heq⟩ := Option.map_eq_some_iff.1 hg
          obtain ⟨rfl, rfl⟩ := Prod.mk.inj heq
          exact .slab hfirst htake

/-- What is granted is held in addition. -/
theorem Proper.items_grant (h : c.Proper) (hg : c.grant? g = some (x, c')) :
    c'.items.Perm (x :: c.items) := by
  cases grants_of_eq_some hg with
  | block htake => exact .refl _
  | @object i page number hfirst =>
      obtain ⟨stack, hs⟩ := Sheet.first?_eq_some hfirst
      have hlt := h.stack_lt i _ hs number List.mem_cons_self
      have hfresh := (List.nodup_cons.1 (h.stack_nodup i _ hs)).1
      refine (List.Perm.append_left _ (objects_setSheets ?_)).trans List.perm_middle
      exact flatMap_items_pop (h.nodup_sheets i) hs hlt hfresh
  | @slab i page free hfull htake =>
      refine (List.Perm.append_left _ (objects_setSheets ?_)).trans List.perm_middle
      exact (Sheet.items_fresh i page).append_right _

theorem size_of_grant {a : Arena} (hg : c.grant? g = some (x, c')) :
    (x.extent a).size = g.size := by
  cases grants_of_eq_some hg with
  | block htake => rfl
  | object hfirst => rfl
  | slab hfull htake => rfl

/-- A page that is a slab remains one. -/
theorem slabPages_grant (hg : c.grant? g = some (x, c')) : c.slabPages ⊆ c'.slabPages := by
  cases grants_of_eq_some hg with
  | block htake => exact fun _ hj => hj
  | object hfirst =>
      rw [slabPages_setSheets Sheet.map_restack_page]
      exact fun _ hj => hj
  | @slab i page free hfull htake =>
      intro j hj
      have hcons := slabPages_setSheets_cons (c := { c with free }) (i := i)
        ⟨page, (List.range (Slab.slots (classSizes.get i))).tail⟩
      exact hcons.mem_iff.2 (List.mem_cons_of_mem _ hj)

end Grants

theorem slabPages_release (c : Chart) (base : Nat) (x : Item) :
    (c.release base x).slabPages = c.slabPages := by
  cases x with
  | block b => rfl
  | object i page number => exact slabPages_setSheets Sheet.map_restack_page

/-- What is released is held no longer. -/
theorem Proper.items_release (h : c.Proper) (hx : x ∈ c.items) (base : Nat) :
    c.items.Perm (x :: (c.release base x).items) := by
  cases mem_items.1 hx with
  | block hb => exact ((List.perm_cons_erase hb).map Item.block).append_right _
  | @object i s number hs hlive =>
      refine List.Perm.trans (List.Perm.append_left _ (objects_of_setSheets ?_)) List.perm_middle
      exact flatMap_items_push (h.nodup_sheets i) hs hlive

end Chart
end BuddySlab
