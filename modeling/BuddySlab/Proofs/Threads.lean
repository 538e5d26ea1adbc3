import BuddySlab.Proofs.Geometry
import Mathlib.Data.List.Nodup
import Mathlib.Logic.Function.Basic

/-!
The free lists as lists. The head kept for an order and the links in the page records spell a list
of page numbers, forwards and backwards; putting a page in front and taking one out from anywhere
are the same operations on that list, and touch no flag and no order.
-/

namespace BuddySlab

namespace Link

theorem ofIndex_ne_none {i : Nat} (hi : i < noPage) : ofIndex i ≠ none := by
  intro h
  have h := congrArg target? h
  rw [target?_ofIndex hi, target?_none] at h
  cases h

/-- The link to the first page listed, or past an empty list. -/
def toFirst : List Nat → Link → Link
  | [], past => past
  | i :: _, _ => ofIndex i

/-- The link to the last page listed, or before an empty list. -/
def toLast : Link → List Nat → Link
  | before, [] => before
  | _, i :: rest => toLast (ofIndex i) rest

theorem toFirst_append (l m : List Nat) (past : Link) :
    toFirst (l ++ m) past = toFirst l (toFirst m past) := by
  cases l <;> rfl

theorem toLast_append (before : Link) (l : List Nat) (i : Nat) :
    toLast before (l ++ [i]) = ofIndex i := by
  induction l generalizing before with
  | nil => rfl
  | cons j rest ih => exact ih (ofIndex j)

theorem toLast_eq_none_iff {l : List Nat} (hl : ∀ i ∈ l, i < noPage) :
    toLast none l = none ↔ l = [] := by
  cases List.eq_nil_or_concat l with
  | inl hnil => simp [hnil, toLast]
  | inr hconcat =>
      obtain ⟨front, i, hconcat⟩ := hconcat
      rw [List.concat_eq_append] at hconcat
      subst hconcat
      simp [toLast_append, ofIndex_ne_none (hl i (by simp))]

end Link

namespace Descriptor

/-- What a record says about its page apart from the links. -/
def label (d : Descriptor) : Flags × UInt8 :=
  (d.flags, d.order)

end Descriptor

namespace PageTable
variable {t t' : PageTable}

def record (t : PageTable) (index : Nat) : Descriptor :=
  t.entries.getD index .blank

theorem descriptor_eq {i : Nat} (hi : i < t.arena.pages) : t.descriptor i = .ok (t.record i) := by
  have hsize : i < t.entries.size := by rwa [t.size_entries]
  rw [descriptor, dif_pos hsize, record, Array.getD_eq_getD_getElem?,
    Array.getElem?_eq_getElem hsize, Option.getD_some]

theorem record_modify {i : Nat} (hi : i < t.arena.pages) (f : Descriptor → Descriptor) (j : Nat) :
    (t.modify i f).record j = if j = i then f (t.record j) else t.record j := by
  simp only [record, modify, Array.getD_eq_getD_getElem?, Array.getElem?_modify]
  by_cases hj : i = j
  · subst hj
    rw [if_pos rfl, if_pos rfl, Array.getElem?_eq_getElem (by rwa [t.size_entries])]
    rfl
  · rw [if_neg hj, if_neg (Ne.symm hj)]

theorem record_blank (a : Arena) (i : Nat) : (blank a).record i = .blank := by
  simp only [record, blank, Array.getD_eq_getD_getElem?, Array.getElem?_replicate]
  split <;> rfl

/-- The records of the pages link them to each other in this order, the first back to `before` and
the last on to `past`. -/
def Linked (t : PageTable) : Link → List Nat → Link → Prop
  | _, [], _ => True
  | before, i :: rest, past =>
      (t.record i).prev = before ∧ (t.record i).next = Link.toFirst rest past ∧
      t.Linked (.ofIndex i) rest past

theorem linked_append (before : Link) (l m : List Nat) (past : Link) :
    t.Linked before (l ++ m) past ↔
      t.Linked before l (Link.toFirst m past) ∧ t.Linked (Link.toLast before l) m past := by
  induction l generalizing before with
  | nil => simp [Linked, Link.toLast]
  | cons i rest ih =>
      simp only [List.cons_append, Linked, Link.toLast, ih, Link.toFirst_append, and_assoc]

theorem linked_congr {before : Link} {l : List Nat} {past : Link}
    (h : ∀ i ∈ l, t'.record i = t.record i) (hl : t.Linked before l past) :
    t'.Linked before l past := by
  induction l generalizing before with
  | nil => trivial
  | cons i rest ih =>
      simp only [Linked, h i List.mem_cons_self]
      exact ⟨hl.1, hl.2.1, ih (fun j hj => h j (List.mem_cons_of_mem i hj)) hl.2.2⟩

theorem linked_of_links {before : Link} {l : List Nat} {past : Link}
    (hprev : ∀ i, (t'.record i).prev = (t.record i).prev)
    (hnext : ∀ i, (t'.record i).next = (t.record i).next) (hl : t.Linked before l past) :
    t'.Linked before l past := by
  induction l generalizing before with
  | nil => trivial
  | cons i rest ih => exact ⟨(hprev i).trans hl.1, (hnext i).trans hl.2.1, ih hl.2.2⟩

end PageTable

/-- For each order the first pages of its free blocks, in the order of its list. -/
abbrev Listing := Nat → List Nat

namespace Listing
variable {l : Listing} {i j k m : Nat}

def put (l : Listing) (order index : Nat) : Listing :=
  Function.update l order (index :: l order)

def drop (l : Listing) (order index : Nat) : Listing :=
  Function.update l order ((l order).erase index)

theorem put_apply (l : Listing) (k i j : Nat) :
    l.put k i j = if j = k then i :: l k else l j :=
  Function.update_apply l k (i :: l k) j

theorem drop_apply (l : Listing) (k i j : Nat) :
    l.drop k i j = if j = k then (l k).erase i else l j :=
  Function.update_apply l k ((l k).erase i) j

theorem mem_put : m ∈ l.put k i j ↔ (j = k ∧ m = i) ∨ m ∈ l j := by
  rw [put_apply]
  by_cases hj : j = k
  · simp [hj]
  · simp [hj]

theorem mem_drop (hnodup : ∀ k, (l k).Nodup) : m ∈ l.drop k i j ↔ m ∈ l j ∧ ¬(j = k ∧ m = i) := by
  rw [drop_apply]
  by_cases hj : j = k
  · subst hj
    rw [if_pos rfl, (hnodup j).mem_erase_iff]
    simp [and_comm]
  · simp [hj]

end Listing

namespace Buddy
variable {b b' : Buddy} {l : Listing} {i k : Nat}

/-- Only links differ, and only in the records of the pages listed. -/
structure Relinked (b b' : Buddy) (touched : List Nat) : Prop where
  arena : b'.arena = b.arena
  lists : b'.lists = b.lists
  label : ∀ j, (b'.table.record j).label = (b.table.record j).label
  outside : ∀ j, j ∉ touched → b'.table.record j = b.table.record j

theorem Relinked.refl (b : Buddy) (touched : List Nat) : b.Relinked b touched :=
  ⟨rfl, rfl, fun _ => rfl, fun _ _ => rfl⟩

theorem Relinked.append {b'' : Buddy} {touched touched' : List Nat} (h : b.Relinked b' touched)
    (h' : b'.Relinked b'' touched') : b.Relinked b'' (touched ++ touched') := by
  refine ⟨h'.arena.trans h.arena, h'.lists.trans h.lists,
    fun j => (h'.label j).trans (h.label j), fun j hj => ?_⟩
  rw [List.mem_append, not_or] at hj
  exact (h'.outside j hj.2).trans (h.outside j hj.1)

theorem record_modify (hi : i < b.arena.pages) (f : Descriptor → Descriptor) (j : Nat) :
    (b.modify i f).table.record j = if j = i then f (b.table.record j) else b.table.record j :=
  PageTable.record_modify hi f j

theorem update_eq (hi : i < b.arena.pages) (f : Descriptor → Descriptor) :
    b.update i f = .ok (b.modify i f) :=
  if_pos (by rw [b.table.size_entries]; exact hi)

theorem relinked_modify {touched : List Nat} (hi : i < b.arena.pages) (hmem : i ∈ touched)
    {f : Descriptor → Descriptor} (hf : ∀ d, (f d).label = d.label) :
    b.Relinked (b.modify i f) touched := by
  refine ⟨rfl, rfl, fun j => ?_, fun j hj => ?_⟩
  · rw [record_modify hi]
    split
    · exact hf _
    · rfl
  · rw [record_modify hi, if_neg]
    intro hji
    exact hj (hji ▸ hmem)

/-- Turns the first page of a run to a new predecessor. -/
theorem updateLinked_toFirst {before : Link} {l : List Nat} (link : Link)
    (hpages : b.arena.pages < noPage) (hlt : ∀ j ∈ l, j < b.arena.pages) (hnodup : l.Nodup)
    (hl : b.table.Linked before l .none) :
    ∃ b', b.updateLinked (Link.toFirst l .none) (·.withPrev link) = .ok b' ∧
      b.Relinked b' l ∧ b'.table.Linked link l .none := by
  cases l with
  | nil => exact ⟨b, by simp [updateLinked, Link.toFirst, Link.target?_none], .refl b _, trivial⟩
  | cons j rest =>
      have hj := hlt j List.mem_cons_self
      refine ⟨b.modify j (·.withPrev link), ?_, relinked_modify hj List.mem_cons_self fun _ => rfl,
        ?_⟩
      · rw [Link.toFirst, updateLinked, Link.target?_ofIndex (by omega)]
        exact update_eq hj _
      · have hrecord := record_modify hj (·.withPrev link)
        refine ⟨by rw [hrecord, if_pos rfl]; rfl,
          by rw [hrecord, if_pos rfl]; exact hl.2.1,
          PageTable.linked_congr (fun m hm => ?_) hl.2.2⟩
        rw [hrecord, if_neg]
        intro hmj
        exact (List.nodup_cons.1 hnodup).1 (hmj ▸ hm)

/-- Turns the last page of a run to a new successor. -/
theorem updateLinked_toLast {past : Link} {l : List Nat} (link : Link)
    (hpages : b.arena.pages < noPage) (hlt : ∀ j ∈ l, j < b.arena.pages) (hnodup : l.Nodup)
    (hl : b.table.Linked .none l past) :
    ∃ b', b.updateLinked (Link.toLast .none l) (·.withNext link) = .ok b' ∧
      b.Relinked b' l ∧ b'.table.Linked .none l link := by
  cases List.eq_nil_or_concat l with
  | inl hnil =>
      subst hnil
      exact ⟨b, by simp [updateLinked, Link.toLast, Link.target?_none], .refl b _, trivial⟩
  | inr hconcat =>
      obtain ⟨front, j, hconcat⟩ := hconcat
      rw [List.concat_eq_append] at hconcat
      subst hconcat
      have hmem : j ∈ front ++ [j] := by simp
      have hj := hlt j hmem
      refine ⟨b.modify j (·.withNext link), ?_, relinked_modify hj hmem fun _ => rfl, ?_⟩
      · rw [Link.toLast_append, updateLinked, Link.target?_ofIndex (by omega)]
        exact update_eq hj _
      · have hrecord := record_modify hj (·.withNext link)
        rw [PageTable.linked_append] at hl ⊢
        refine ⟨PageTable.linked_congr (fun m hm => ?_) hl.1, ?_, ?_, trivial⟩
        · rw [hrecord, if_neg]
          intro hmj
          exact List.disjoint_of_nodup_append hnodup hm (by simp [hmj])
        · rw [hrecord, if_pos rfl]
          exact hl.2.1
        · rw [hrecord, if_pos rfl]
          rfl

theorem list_setList (hk : k < orderCount) (list : FreeList) (j : Nat) :
    (b.setList k list).list j = if j = k then .ok list else b.list j := by
  simp only [Buddy.list, setList]
  by_cases hj : j = k
  · subst hj
    simp [hk]
  · simp only [if_neg hj, Vector.getElem_setIfInBounds, if_neg (Ne.symm hj)]

/-- Heads, counts and links spell these lists, and no page is on two places of them. -/
structure Threads (b : Buddy) (l : Listing) : Prop where
  pages_lt : b.arena.pages < noPage
  list_eq : ∀ k < orderCount, b.list k = .ok ⟨Link.toFirst (l k) .none, (l k).length⟩
  linked : ∀ k < orderCount, b.table.Linked .none (l k) .none
  nodup : ∀ k, (l k).Nodup
  order_eq : ∀ {i j k}, i ∈ l j → i ∈ l k → j = k
  order_lt : ∀ {i k}, i ∈ l k → k < orderCount
  page_lt : ∀ {i k}, i ∈ l k → i < b.arena.pages

theorem Threads.length_le (h : b.Threads l) (k : Nat) : (l k).length ≤ b.arena.pages :=
  length_le_of_nodup (h.nodup k) fun _ hi => h.page_lt hi

/-- Only the flags and orders of records differ. -/
theorem Threads.of_links (h : b.Threads l) (harena : b'.arena = b.arena)
    (hlists : b'.lists = b.lists)
    (hprev : ∀ i, (b'.table.record i).prev = (b.table.record i).prev)
    (hnext : ∀ i, (b'.table.record i).next = (b.table.record i).next) : b'.Threads l := by
  refine ⟨harena ▸ h.pages_lt, fun k hk => ?_, fun k hk => ?_, h.nodup, h.order_eq, h.order_lt,
    fun hi => harena ▸ h.page_lt hi⟩
  · rw [← h.list_eq k hk, Buddy.list, Buddy.list, hlists]
  · exact PageTable.linked_of_links hprev hnext (h.linked k hk)

/-- A list may change alone: the other lists keep their records. -/
theorem Threads.update {x : List Nat} (h : b.Threads l) (hk : k < orderCount)
    (harena : b'.arena = b.arena)
    (hlist : ∀ j, b'.list j = if j = k then .ok ⟨Link.toFirst x .none, x.length⟩ else b.list j)
    (hlinked : b'.table.Linked .none x .none)
    (hothers : ∀ {j m}, j ≠ k → m ∈ l j → b'.table.record m = b.table.record m)
    (hnodup : x.Nodup) (hlt : ∀ m ∈ x, m < b.arena.pages)
    (hapart : ∀ m ∈ x, ∀ j, j ≠ k → m ∉ l j) : b'.Threads (Function.update l k x) := by
  have hmem {j m : Nat} (hm : m ∈ Function.update l k x j) :
      (j = k ∧ m ∈ x) ∨ (j ≠ k ∧ m ∈ l j) := by
    rw [Function.update_apply] at hm
    split at hm
    · exact .inl ⟨‹_›, hm⟩
    · exact .inr ⟨‹_›, hm⟩
  refine ⟨harena ▸ h.pages_lt, fun j hj => ?_, fun j hj => ?_, fun j => ?_, ?_, ?_, ?_⟩
  · rw [hlist, Function.update_apply]
    split
    · rfl
    · exact h.list_eq j hj
  · rw [Function.update_apply]
    split
    · exact hlinked
    · exact PageTable.linked_congr (fun m hm => hothers ‹_› hm) (h.linked j hj)
  · rw [Function.update_apply]
    split
    · exact hnodup
    · exact h.nodup j
  · intro m j j' hm hm'
    cases hmem hm with
    | inl hx =>
        cases hmem hm' with
        | inl hx' => exact hx.1.trans hx'.1.symm
        | inr hx' => exact absurd hx'.2 (hapart m hx.2 j' hx'.1)
    | inr hx =>
        cases hmem hm' with
        | inl hx' => exact absurd hx.2 (hapart m hx'.2 j hx.1)
        | inr hx' => exact h.order_eq hx.2 hx'.2
  · intro m j hm
    cases hmem hm with
    | inl hx => exact hx.1 ▸ hk
    | inr hx => exact h.order_lt hx.2
  · intro m j hm
    rw [harena]
    cases hmem hm with
    | inl hx => exact hlt m hx.2
    | inr hx => exact h.page_lt hx.2

theorem Threads.push (h : b.Threads l) (hk : k < orderCount) (hi : i < b.arena.pages)
    (hfresh : ∀ j, i ∉ l j) :
    ∃ b', b.push i k = .ok b' ∧ b'.Threads (l.put k i) ∧ b'.arena = b.arena ∧
      ∀ j, (b'.table.record j).label = (b.table.record j).label := by
  let b₁ := b.modify i fun d => (d.withPrev .none).withNext (Link.toFirst (l k) .none)
  have hrecord (j : Nat) : b₁.table.record j = _ := record_modify hi _ j
  have hsame {j m : Nat} (hm : m ∈ l j) : b₁.table.record m = b.table.record m := by
    rw [hrecord, if_neg]
    intro hmi
    exact hfresh j (hmi ▸ hm)
  have hlinked : b₁.table.Linked .none (l k) .none :=
    PageTable.linked_congr (fun m hm => hsame hm) (h.linked k hk)
  obtain ⟨b₂, hb₂, hre, hl₂⟩ := updateLinked_toFirst (b := b₁) (.ofIndex i)
    h.pages_lt (fun j hj => h.page_lt hj) (h.nodup k) hlinked
  have hcount : Word.add (l k).length 1 = .ok ((l k).length + 1) := by
    have hle := h.length_le k
    have hlt := h.pages_lt
    simp only [noPage] at hlt
    exact Word.add_of_lt (by omega)
  have hi₂ : b₂.table.record i =
      ((b.table.record i).withPrev .none).withNext (Link.toFirst (l k) .none) := by
    rw [hre.outside i (hfresh k), hrecord, if_pos rfl]
  refine ⟨b₂.setList k ⟨.ofIndex i, (l k).length + 1⟩, ?_, ?_, hre.arena, fun j => ?_⟩
  · simp only [Buddy.push, h.list_eq k hk, update_eq hi, ok_bind]
    change (b₁.updateLinked _ _ >>= _) = _
    rw [hb₂, ok_bind, hcount]
    rfl
  · refine h.update hk hre.arena (fun j => ?_) ⟨?_, ?_, hl₂⟩ (fun {j m} hj hm => ?_)
      (List.nodup_cons.2 ⟨hfresh k, h.nodup k⟩) (fun m hm => ?_) (fun m hm j hj hmj => ?_)
    · rw [list_setList hk, Buddy.list, Buddy.list, hre.lists]
      rfl
    · exact congrArg Descriptor.prev hi₂
    · exact congrArg Descriptor.next hi₂
    · exact (hre.outside m fun hmk => hj (h.order_eq hm hmk)).trans (hsame hm)
    · cases hm with
      | head => exact hi
      | tail _ hm => exact h.page_lt hm
    · cases hm with
      | head => exact hfresh j hmj
      | tail _ hm => exact hj (h.order_eq hmj hm)
  · refine (hre.label j).trans ?_
    rw [hrecord]
    split <;> rfl

/-- The page is on the list of this order, behind the pages in `front` and before those in `back`. -/
structure Between (b : Buddy) (l : Listing) (k i : Nat) (front back : List Nat) : Prop where
  split : l k = front ++ i :: back
  fresh : i ∉ front ++ back
  nodup : (front ++ back).Nodup
  linked_front : b.table.Linked .none front (.ofIndex i)
  prev_eq : (b.table.record i).prev = Link.toLast .none front
  next_eq : (b.table.record i).next = Link.toFirst back .none
  linked_back : b.table.Linked (.ofIndex i) back .none

theorem Threads.exists_between (h : b.Threads l) (hi : i ∈ l k) :
    ∃ front back, b.Between l k i front back := by
  obtain ⟨front, back, hsplit⟩ := List.append_of_mem hi
  have hnodup := h.nodup k
  have hlinked := h.linked k (h.order_lt hi)
  rw [hsplit] at hnodup
  rw [hsplit, PageTable.linked_append] at hlinked
  obtain ⟨hfront, hprev, hnext, hback⟩ := hlinked
  have hcons := List.nodup_cons.1 (List.perm_middle.nodup_iff.1 hnodup)
  exact ⟨front, back, hsplit, hcons.1, hcons.2, hfront, hprev, hnext, hback⟩

namespace Between
variable {front back : List Nat}

theorem mem_list {m : Nat} (hs : b.Between l k i front back) (hm : m ∈ front ++ back) :
    m ∈ l k := by
  rw [hs.split]
  exact List.perm_middle.symm.subset (List.mem_cons_of_mem i hm)

theorem erase_eq (hs : b.Between l k i front back) : (l k).erase i = front ++ back := by
  have hfront : i ∉ front := fun hm => hs.fresh (List.mem_append_left _ hm)
  rw [hs.split, List.erase_append_right _ hfront, List.erase_cons_head]

/-- A page without a predecessor heads its list. -/
theorem head_eq (hs : b.Between l k i front back) (hprev : Link.toLast .none front = .none)
    (hnum : ∀ m ∈ front, m < noPage) : Link.toFirst (l k) .none = .ofIndex i := by
  rw [hs.split, (Link.toLast_eq_none_iff hnum).1 hprev]
  rfl

theorem new_head_eq (hs : b.Between l k i front back) (hnum : ∀ m ∈ front, m < noPage) :
    (if Link.toLast .none front = .none then Link.toFirst back .none
      else Link.toFirst (l k) .none) = Link.toFirst (front ++ back) .none := by
  cases front with
  | nil => exact if_pos rfl
  | cons m rest =>
      rw [if_neg fun hnone => List.cons_ne_nil m rest ((Link.toLast_eq_none_iff hnum).1 hnone),
        hs.split]
      rfl

/-- The record before the page and the record behind it are turned to each other. -/
theorem bridge (hs : b.Between l k i front back) (hpages : b.arena.pages < noPage)
    (hlt : ∀ m ∈ front ++ back, m < b.arena.pages) :
    ∃ b₁ b₂, b.updateLinked (Link.toLast .none front) (·.withNext (Link.toFirst back .none)) =
        .ok b₁ ∧
      b₁.updateLinked (Link.toFirst back .none) (·.withPrev (Link.toLast .none front)) = .ok b₂ ∧
      b.Relinked b₂ (front ++ back) ∧ b₂.table.Linked .none (front ++ back) .none := by
  obtain ⟨hfront, hback, hdisjoint⟩ := List.nodup_append'.1 hs.nodup
  obtain ⟨b₁, hb₁, hre₁, hl₁⟩ := updateLinked_toLast (Link.toFirst back .none) hpages
    (fun m hm => hlt m (List.mem_append_left _ hm)) hfront hs.linked_front
  have hback₁ : b₁.table.Linked (.ofIndex i) back .none :=
    PageTable.linked_congr (fun m hm => hre₁.outside m fun hm' => hdisjoint hm' hm) hs.linked_back
  obtain ⟨b₂, hb₂, hre₂, hl₂⟩ := updateLinked_toFirst (b := b₁) (Link.toLast .none front)
    (hre₁.arena ▸ hpages) (fun m hm => hre₁.arena ▸ hlt m (List.mem_append_right _ hm)) hback hback₁
  refine ⟨b₁, b₂, hb₁, hb₂, hre₁.append hre₂, ?_⟩
  rw [PageTable.linked_append]
  exact ⟨PageTable.linked_congr (fun m hm => hre₂.outside m (hdisjoint hm)) hl₁, hl₂⟩

end Between

theorem Threads.unlink (h : b.Threads l) (hi : i ∈ l k) :
    ∃ b', b.unlink i k = .ok b' ∧ b'.Threads (l.drop k i) ∧ b'.arena = b.arena ∧
      ∀ j, (b'.table.record j).label = (b.table.record j).label := by
  have hk := h.order_lt hi
  obtain ⟨front, back, hs⟩ := h.exists_between hi
  have hlt : ∀ m ∈ front ++ back, m < b.arena.pages := fun m hm => h.page_lt (hs.mem_list hm)
  have hnum : ∀ m ∈ front, m < noPage := fun m hm =>
    Nat.lt_trans (hlt m (List.mem_append_left _ hm)) h.pages_lt
  obtain ⟨b₁, b₂, hb₁, hb₂, hre, hlinked⟩ := hs.bridge h.pages_lt hlt
  let b₃ := b₂.setList k ⟨Link.toFirst (front ++ back) .none, (front ++ back).length⟩
  have hi₃ : i < b₃.arena.pages := hre.arena ▸ h.page_lt hi
  have hrecord (m : Nat) := record_modify hi₃ (fun d => (d.withPrev .none).withNext .none) m
  have hkeep {m : Nat} (hm : m ≠ i) := (hrecord m).trans (if_neg hm)
  refine ⟨b₃.modify i fun d => (d.withPrev .none).withNext .none, ?_, ?_, hre.arena, fun m => ?_⟩
  · have hhead : ¬(Link.toLast .none front = .none ∧ Link.toFirst (l k) .none ≠ .ofIndex i) :=
      fun hhead => hhead.2 (hs.head_eq hhead.1 hnum)
    have hcount : (l k).length ≠ 0 := Nat.ne_of_gt (List.length_pos_of_mem hi)
    have hlength : (l k).length - 1 = (front ++ back).length := by
      simp [hs.split]
    have hpage : i < b.table.arena.pages := h.page_lt hi
    simp only [Buddy.unlink, PageTable.descriptor_eq hpage, h.list_eq k hk, ok_bind, hs.prev_eq,
      hs.next_eq]
    rw [if_neg hhead, hs.new_head_eq hnum, hb₁, ok_bind, hb₂, ok_bind, if_neg hcount, hlength]
    rfl
  · rw [Listing.drop, hs.erase_eq]
    refine h.update hk hre.arena (fun j => ?_) ?_ (fun {j m} hj hm => ?_) hs.nodup hlt
      fun m hm j hj hmj => hj (h.order_eq hmj (hs.mem_list hm))
    · change (b₂.setList k _).list j = _
      rw [list_setList hk, Buddy.list, Buddy.list, hre.lists]
    · exact PageTable.linked_congr (fun m hm => hkeep fun hmi => hs.fresh (hmi ▸ hm)) hlinked
    · refine (hkeep fun hmi => hj (h.order_eq (hmi ▸ hm) hi)).trans (hre.outside m fun hm' => ?_)
      exact hj (h.order_eq hm (hs.mem_list hm'))
  · refine Eq.trans ?_ (hre.label m)
    rw [hrecord]
    split <;> rfl

end Buddy
end BuddySlab
