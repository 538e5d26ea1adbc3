import BuddySlab.Proofs.Checks
import BuddySlab.Proofs.Peaks

/-!
The checks of the object tier. How many objects of each class and how many pages nobody has decides
what a check is granted. Trying a class makes a slab where the class has no free object, so trying
one class after the other takes a page for each such class as long as there are pages. Of two
objects, the one released last is handed out first, also where a slab was made in between; but the
first is not given back where the second is refused.
-/

namespace BuddySlab

theorem roundSize_class :
    ∀ i : Fin classSizes.size, roundSize (classSizes.get i) = .ok (classSizes.get i) := by
  decide

/-- The class of 32 bytes, whose objects are asked for to see which of two comes back first. -/
def lifoClass : Fin classSizes.size := 2

theorem slots_lifoClass : Slab.slots (classSizes.get lifoClass) = 126 := by
  decide

/-- One object of 32 bytes is left where something is the case, and nothing else. -/
inductive Leaves (p : Prop) : List Extent → Prop
  | nothing (h : ¬p) : Leaves p []
  | one {e : Extent} (he : e.size = classSizes.get lifoClass) (h : p) : Leaves p [e]

namespace Listing

theorem take?_zero_eq_none {l : Listing} : l.take? 0 = none ↔ l.blocks = [] := by
  rw [take?, Option.map_eq_none_iff, first?_eq_none, blocks, List.flatMap_eq_nil_iff]
  simp only [List.mem_range'_1, List.mem_range, List.map_eq_nil_iff]
  exact forall_congr' fun k => imp_congr_left (by omega)

end Listing

namespace Chart
variable {a : Arena} {c c₁ c' : Chart} {i : Fin classSizes.size} {l : List (Fin classSizes.size)}
  {x : Item}

/-- The pages of the free blocks. -/
def vacantPages (c : Chart) : Nat :=
  (c.free.blocks.map fun b => 2 ^ b.order).sum

/-- The free objects of the slabs of a class. -/
def vacantObjects (c : Chart) (i : Fin classSizes.size) : Nat :=
  ((c.sheets i).map fun t => t.stack.length).sum

theorem take?_eq_none_iff : c.free.take? 0 = none ↔ c.vacantPages = 0 := by
  rw [Listing.take?_zero_eq_none, vacantPages, List.sum_eq_zero_iff_forall_eq_nat,
    List.forall_mem_map]
  constructor
  · intro hnil b hb
    rw [hnil] at hb
    cases hb
  · intro hzero
    refine List.eq_nil_iff_forall_not_mem.2 fun b hb => ?_
    exact absurd (hzero b hb) (Nat.ne_of_gt (Nat.two_pow_pos b.order))

theorem first?_eq_none_iff : Sheet.first? (c.sheets i) = none ↔ c.vacantObjects i = 0 := by
  simp only [Sheet.first?_eq_none, vacantObjects, List.sum_eq_zero_iff_forall_eq_nat,
    List.forall_mem_map, List.length_eq_zero_iff]

theorem grant?_object_eq_none_iff :
    c.grant? (.object i) = none ↔ c.vacantObjects i = 0 ∧ c.vacantPages = 0 := by
  rw [grant?_object_eq_none, ← Sheet.first?_eq_none, first?_eq_none_iff, take?_eq_none_iff]

/-- What is granted is a block or an object of its own. -/
theorem Proper.mem_grant {g : Grade} (h : c.Proper) (hg : c.grant? g = some (x, c')) :
    x ∈ c'.items :=
  (h.items_grant hg).mem_iff.2 List.mem_cons_self

/-- Granting an object keeps the slabs, or makes one for a class without a free object. -/
theorem slabs_grant (hg : c.grant? (.object i) = some (x, c')) :
    (c.vacantObjects i ≠ 0 ∧ (∀ j, (c'.sheets j).length = (c.sheets j).length) ∧
      c'.slabPages.length = c.slabPages.length) ∨
    (c.vacantObjects i = 0 ∧ (c'.sheets i).length = (c.sheets i).length + 1 ∧
      (∀ j ≠ i, (c'.sheets j).length = (c.sheets j).length) ∧
      c'.slabPages.length = c.slabPages.length + 1) := by
  cases grants_of_eq_some hg with
  | @object i page number hfirst =>
      refine .inl ⟨fun hzero => ?_, fun j => ?_, ?_⟩
      · cases (first?_eq_none_iff.2 hzero).symm.trans hfirst
      · have hpages := congrArg List.length (c.pages_restack i page List.tail j)
        rwa [List.length_map, List.length_map] at hpages
      · rw [slabPages_setSheets Sheet.map_restack_page]
  | @slab i page free hfull htake =>
      refine .inr ⟨first?_eq_none_iff.1 hfull, ?_, fun j hj => ?_, ?_⟩
      · rw [setSheets_sheets, if_pos rfl, List.length_cons]
      · rw [setSheets_sheets, if_neg hj]
      · exact (slabPages_setSheets_cons (c := { c with free }) _).length_eq

theorem length_sheets_release (c : Chart) (base : Nat) (x : Item) (i : Fin classSizes.size) :
    ((c.release base x).sheets i).length = (c.sheets i).length := by
  have hpages := congrArg List.length (c.pages_release base x i)
  rwa [List.length_map, List.length_map] at hpages

/-- The object on top of a stack goes back to it. -/
theorem release_popped {page number : Nat} {rest : List Nat}
    (hnodup : ((c.sheets i).map Sheet.page).Nodup) (hs : ⟨page, number :: rest⟩ ∈ c.sheets i)
    (base : Nat) : (c.setSheets i ((c.sheets i).map (Sheet.restack page List.tail))).release base
      (.object i page number) = c := by
  have hback : ((c.sheets i).map (Sheet.restack page List.tail)).map
      (Sheet.restack page (number :: ·)) = c.sheets i := by
    rw [List.map_map]
    refine (List.map_congr_left fun t ht => ?_).trans (List.map_id _)
    by_cases hpage : t.page = page
    · obtain rfl := List.inj_on_of_nodup_map hnodup ht hs hpage
      simp only [Function.comp_apply, Sheet.restack, if_true, List.tail_cons, id_eq]
    · rw [Function.comp_apply, Sheet.restack_of_ne hpage, Sheet.restack_of_ne hpage]
      rfl
  rw [release, setSheets_setSheets, setSheets_sheets, if_pos rfl, hback]
  simp only [setSheets, Function.update_eq_self]

/-- The slab in front hands out the object on top of its stack. -/
theorem grant?_front {page number : Nat} {rest : List Nat}
    (hnodup : (page :: (c.sheets i).map Sheet.page).Nodup) :
    (c.setSheets i (⟨page, number :: rest⟩ :: c.sheets i)).grant? (.object i) =
      some (.object i page number, c.setSheets i (⟨page, rest⟩ :: c.sheets i)) := by
  have hfirst : Sheet.first? (⟨page, number :: rest⟩ :: c.sheets i) = some (page, number) := rfl
  have hrestack : ([] ++ (⟨page, number :: rest⟩ : Sheet) :: c.sheets i).map
      (Sheet.restack page List.tail) = [] ++ ⟨page, rest⟩ :: c.sheets i :=
    Sheet.map_restack_split hnodup
  rw [List.nil_append, List.nil_append] at hrestack
  simp only [grant?, setSheets_sheets, if_pos, hfirst, setSheets_setSheets, hrestack]

/-- These classes were tried, one after the other, as long as there were pages. -/
structure Tried (c : Chart) (l : List (Fin classSizes.size)) (c' : Chart) : Prop where
  pages : c'.vacantPages = c.vacantPages - l.countP fun i => c.vacantObjects i = 0
  objects : ∀ i, c'.vacantObjects i = c.vacantObjects i ∨
    i ∈ l ∧ c.vacantObjects i = 0 ∧ c'.vacantObjects i = Slab.slots (classSizes.get i)

/-- One object of 32 bytes is free, and no page. -/
def Scant (c : Chart) : Prop :=
  c.vacantObjects lifoClass = 1 ∧ c.vacantPages = 0

theorem Tried.nil (c : Chart) : c.Tried [] c :=
  ⟨rfl, fun _ => .inl rfl⟩

/-- Without a page nothing comes of it. -/
theorem Tried.stopped (h : c.vacantPages = 0) (l : List (Fin classSizes.size)) : c.Tried l c :=
  ⟨by rw [h, Nat.zero_sub], fun _ => .inl rfl⟩

theorem Tried.cons (h : c.Tried [i] c₁) (h' : c₁.Tried l c') (hi : i ∉ l) :
    c.Tried (i :: l) c' := by
  have hsame (j : Fin classSizes.size) (hj : j ∈ l) : c₁.vacantObjects j = c.vacantObjects j := by
    refine (h.objects j).resolve_right fun hgrown => hi ?_
    rwa [← List.mem_singleton.1 hgrown.1]
  constructor
  · have hcount : (l.countP fun j => c₁.vacantObjects j = 0) =
        l.countP fun j => c.vacantObjects j = 0 :=
      List.countP_congr fun j hj => by rw [hsame j hj]
    rw [h'.pages, h.pages, hcount, Nat.sub_sub, ← List.countP_append, List.singleton_append]
  · intro j
    cases h'.objects j with
    | inl hkept =>
        rw [hkept]
        exact (h.objects j).imp_right fun hgrown =>
          ⟨List.mem_cons.2 (.inl (List.mem_singleton.1 hgrown.1)), hgrown.2⟩
    | inr hgrown =>
        obtain ⟨hj, hzero, hslots⟩ := hgrown
        rw [hsame j hj] at hzero
        exact .inr ⟨List.mem_cons_of_mem i hj, hzero, hslots⟩

end Chart

namespace Pool.Depicts
variable {p : Pool} {c c' : Chart} {g : Grade} {x : Item}

/-- At first all pages are in free blocks. -/
theorem vacantPages_initial {a : Arena} (h : p.Depicts (.initial a)) :
    (Chart.initial a).vacantPages = p.arena.pages := by
  have hused : (Chart.initial a).used = [] := by
    rw [Chart.used, Chart.slabPages_initial]
    rfl
  have hsum := h.tiles.sum_pages
  rwa [hused, List.append_nil] at hsum

/-- What is released and asked for again is granted again. -/
theorem grant?_release (h : p.Depicts c) (hproper : c'.Proper) (hg : c.grant? g = some (x, c')) :
    (c'.release p.arena.base x).grant? g = some (x, c') := by
  cases Chart.grants_of_eq_some hg with
  | @block k first free htake =>
      rw [Chart.release_block _ (h.give_take? (Nat.le_of_lt_succ k.isLt) htake)]
      exact hg
  | @object i page number hfirst =>
      obtain ⟨rest, hs⟩ := Sheet.first?_eq_some hfirst
      rw [Chart.release_popped (h.proper.nodup_sheets i) hs]
      exact hg
  | @slab i page free hfull htake =>
      have hnodup := hproper.nodup_sheets i
      rw [Chart.setSheets_sheets, if_pos rfl] at hnodup
      obtain ⟨hfresh, hpages⟩ := List.nodup_cons.1 hnodup
      rw [Chart.release_slab (c := { c with free }) hfresh hpages]
      exact Chart.grant?_front (c := { c with free }) hnodup

end Pool.Depicts

namespace Ledger
open Service SelfTest

section Stock
variable {s s' : Ledger} {c c' : Chart} {x : Item} {i : Fin classSizes.size}

theorem Charts.freeBytes_eq (h : s.Charts c) :
    s.pool.buddy.freeBytes = .ok (pageSize * c.vacantPages) := by
  have hbytes : (c.free.blocks.map fun b => blockSize b.order).sum = pageSize * c.vacantPages := by
    have hsize : (fun b : Block => blockSize b.order) = fun b => pageSize * 2 ^ b.order :=
      funext fun b => blockSize_eq b.order
    rw [hsize]
    exact List.sum_map_mul_left c.free.blocks (fun b => 2 ^ b.order) pageSize
  rw [← hbytes]
  exact h.depicts.keeps.freeBytes_eq

/-- The pages that nobody has, those of the held blocks and the slabs are all pages. -/
theorem Charts.pages_conserved (h : s.Charts c) :
    pageSize * c.vacantPages + (s.heldBlocks.map Extent.size).sum + pageSize * c.slabPages.length =
      s.pool.arena.stop - s.pool.arena.payloadStart := by
  obtain ⟨bytes, hbytes, hsum⟩ := h.conserved
  cases h.freeBytes_eq.symm.trans hbytes
  rw [← hsum, Chart.slabPages, List.length_flatMap]
  simp only [Chart.survey, List.length_map]

/-- An object is one of the free objects of its class, or one of a slab that was made for it. -/
theorem Charts.stock_of_object (h : s.Charts c) (hg : c.grant? (.object i) = some (x, c'))
    (h' : s'.Charts c') (harena : s'.pool.arena = s.pool.arena)
    (hheld : s'.held.Perm (x.extent s.pool.arena :: s.held)) :
    (c'.vacantObjects i + 1 = c.vacantObjects i ∧ c'.vacantPages = c.vacantPages) ∨
    (c.vacantObjects i = 0 ∧ c'.vacantObjects i + 1 = Slab.slots (classSizes.get i) ∧
      c'.vacantPages + 1 = c.vacantPages) := by
  have hsize : (x.extent s.pool.arena).size = classSizes.get i := Chart.size_of_grant hg
  have hlt := classSizes_lt i
  rw [← hsize] at hlt
  have hblocks : (s'.heldBlocks.map Extent.size).sum = (s.heldBlocks.map Extent.size).sum := by
    have hfilter := hheld.filter (pageSize ≤ ·.size)
    rw [List.filter_cons_of_neg (by simpa using hlt)] at hfilter
    exact (hfilter.map _).sum_nat
  have hcount : (s'.held.filter (·.size = classSizes.get i)).length =
      (s.held.filter (·.size = classSizes.get i)).length + 1 := by
    rw [(hheld.filter _).length_eq, List.filter_cons_of_pos (by simpa using hsize),
      List.length_cons]
  have hpages := h.pages_conserved
  have hpages' := h'.pages_conserved
  have hobjects : c.vacantObjects i + _ = _ := h.sum_objects i
  have hobjects' : c'.vacantObjects i + _ = _ := h'.sum_objects i
  rw [harena, ← hpages, hblocks] at hpages'
  rw [hcount] at hobjects'
  simp only [pageSize] at hpages'
  cases Chart.slabs_grant hg with
  | inl hkept =>
      obtain ⟨-, hsheets, hslabs⟩ := hkept
      rw [hsheets] at hobjects'
      exact .inl ⟨by omega, by omega⟩
  | inr hgrown =>
      obtain ⟨hzero, hone, -, hslabs⟩ := hgrown
      rw [hone, Nat.mul_succ] at hobjects'
      exact .inr ⟨hzero, by omega, by omega⟩

/-- An object is had where one is free, or a page. -/
theorem Charts.step_object (h : s.Charts c) {n : Nat}
    (hround : roundSize n = .ok (classSizes.get i))
    (hsome : ¬(c.vacantObjects i = 0 ∧ c.vacantPages = 0)) :
    ∃ s' c', Step s (.allocate n) s' ∧ s'.Charts c' ∧
      ((c'.vacantObjects i + 1 = c.vacantObjects i ∧ c'.vacantPages = c.vacantPages) ∨
        (c.vacantObjects i = 0 ∧ c'.vacantObjects i + 1 = Slab.slots (classSizes.get i) ∧
          c'.vacantPages + 1 = c.vacantPages)) := by
  cases h.depicts.allocate (g := .object i) hround with
  | refused hnone hrun => exact absurd (Chart.grant?_object_eq_none_iff.1 hnone) hsome
  | granted x c' pool hg hrun hbecomes =>
      have hcharts := h.grant hg hbecomes
      have hsize : (x.extent s.pool.arena).size = classSizes.get i := Chart.size_of_grant hg
      have hstep : Step s (.allocate n) ⟨pool, credit s.held n _⟩ := .allocate hrun
      rw [credit_ok s.held hround, ← hsize] at hstep
      exact ⟨_, c', hstep, hcharts, h.stock_of_object hg hcharts hbecomes.arena (.refl _)⟩

/-- As many objects are had as are free. -/
theorem Charts.runs_objects (h : s.Charts c) {n : Nat}
    (hround : roundSize n = .ok (classSizes.get i)) {count : Nat} (hcount : count ≤ c.vacantObjects i) :
    ∃ s' c', Runs s (List.replicate count (.allocate n)) s' ∧ s'.Charts c' ∧
      c'.vacantObjects i + count = c.vacantObjects i ∧ c'.vacantPages = c.vacantPages := by
  induction count generalizing s c with
  | zero => exact ⟨s, c, .nil s, h, rfl, rfl⟩
  | succ count ih =>
      obtain ⟨s₁, c₁, hstep, h₁, hstock⟩ := h.step_object hround (by omega)
      obtain ⟨s', c', hruns, h', hobjects, hpages⟩ := ih h₁ (by omega)
      exact ⟨s', c', .cons hstep hruns, h', by omega, by omega⟩

namespace Trial
variable {s₀ : Ledger} {lent lent' : List Extent}

theorem objects_add (h : Trial s₀ [] lent s c) (i : Fin classSizes.size) :
    c.vacantObjects i + ((lent ++ s₀.held).filter (·.size = classSizes.get i)).length =
      Slab.slots (classSizes.get i) * (c.sheets i).length := by
  have hheld := (h.held.filter (·.size = classSizes.get i)).length_eq
  have hsum := h.charts.sum_objects i
  rw [hheld] at hsum
  exact hsum

theorem pages_add (h : Trial s₀ [] lent s c) (h' : Trial s₀ [] lent' s' c')
    (hblocks : lent'.filter (pageSize ≤ ·.size) = lent.filter (pageSize ≤ ·.size)) :
    c'.vacantPages + c'.slabPages.length = c.vacantPages + c.slabPages.length := by
  have hsum {t : Ledger} {d : Chart} {l : List Extent} (ht : Trial s₀ [] l t d) :
      (t.heldBlocks.map Extent.size).sum =
        ((l.filter (pageSize ≤ ·.size) ++ s₀.heldBlocks).map Extent.size).sum := by
    rw [heldBlocks, heldBlocks, ← List.filter_append]
    exact ((ht.held.filter _).map _).sum_nat
  have hpages := h.charts.pages_conserved
  have hpages' := h'.charts.pages_conserved
  rw [hsum h, h.arena] at hpages
  rw [hsum h', h'.arena, hblocks, ← hpages] at hpages'
  simp only [pageSize] at hpages'
  omega

/-- A class is tried by asking for an object and giving it back. -/
theorem tried_one (h : Trial s₀ [] lent s c) (hg : c.grant? (.object i) = some (x, c'))
    (h' : Trial s₀ [] lent s' (c'.release s₀.pool.arena.base x)) :
    c.Tried [i] (c'.release s₀.pool.arena.base x) := by
  have hpages := h.pages_add h' rfl
  have hobjects (j : Fin classSizes.size) := h.objects_add j
  have hobjects' (j : Fin classSizes.size) := h'.objects_add j
  simp only [Chart.length_sheets_release] at hobjects'
  rw [Chart.slabPages_release] at hpages
  cases Chart.slabs_grant hg with
  | inl hkept =>
      obtain ⟨hsome, hsheets, hslabs⟩ := hkept
      refine ⟨?_, fun j => .inl ?_⟩
      · rw [List.countP_singleton, if_neg (by simpa using hsome)]
        omega
      · have hobjects := hobjects j
        have hobjects' := hobjects' j
        rw [hsheets j] at hobjects'
        omega
  | inr hgrown =>
      obtain ⟨hzero, hone, hothers, hslabs⟩ := hgrown
      refine ⟨?_, fun j => ?_⟩
      · rw [List.countP_singleton, if_pos (by simpa using hzero)]
        omega
      · have hobjects := hobjects j
        have hobjects' := hobjects' j
        by_cases hj : j = i
        · subst hj
          rw [hone, Nat.mul_succ] at hobjects'
          exact .inr ⟨List.mem_singleton_self j, hzero, by omega⟩
        · rw [hothers j hj] at hobjects'
          exact .inl (by omega)

theorem ends_classAlignmentFrom (h : Trial s₀ [] lent s c) {l : List (Fin classSizes.size)}
    (hnodup : l.Nodup) : Ends (classAlignmentFrom (l.map classSizes.get)) s fun verdict s' =>
      verdict ≠ .failed ∧ ∃ c', Trial s₀ [] lent s' c' ∧ c.Tried l c' := by
  induction l generalizing s c with
  | nil => exact ends_pure ⟨by decide, c, h, .nil c⟩
  | cons i l ih =>
      obtain ⟨hi, hnodup⟩ := List.nodup_cons.1 hnodup
      rw [List.map_cons, classAlignmentFrom]
      refine (h.ends_allocate (g := .object i) (roundSize_class i)).andThen fun answer s' hlends => ?_
      cases hlends with
      | refused refusal hnone =>
          exact ends_pure ⟨by decide, c, h, .stopped (Chart.grant?_object_eq_none_iff.1 hnone).2 _⟩
      | granted x c' s' hg h' =>
          have hx := h.charts.depicts.proper.mem_grant hg
          have hsize : (x.extent s₀.pool.arena).size = classSizes.get i := Chart.size_of_grant hg
          obtain ⟨-, hdvd, -⟩ := h'.charts.depicts.item_placed hx
          have husable := h'.charts.depicts.usableSize_eq hx
          rw [h'.arena] at hdvd husable
          rw [hsize] at hdvd husable
          refine Ends.bind (ends_consult husable ((h'.ends_free hx).andThen fun _ s'' hback => ?_))
          have htried := h.tried_one hg hback
          refine ends_ite (fun _ => ?_) fun hwrong => ?_
          · refine (ih hback hnodup).mono fun verdict t hrest => ?_
            obtain ⟨hv, d, hend, hall⟩ := hrest
            exact ⟨hv, d, hend, htried.cons hall hi⟩
          · exact absurd ⟨Nat.mod_eq_zero_of_dvd hdvd, rfl⟩ hwrong

theorem ends_classAlignment (h : Trial s₀ [] lent s c) : Ends classAlignment s fun verdict s' =>
    verdict ≠ .failed ∧ ∃ c', Trial s₀ [] lent s' c' ∧
      c.Tried (List.finRange classSizes.size) c' := by
  have hlist : classSizes.toList = (List.finRange classSizes.size).map classSizes.get := rfl
  rw [classAlignment, hlist]
  exact h.ends_classAlignmentFrom (List.nodup_finRange _)

/-- After one object of 32 bytes another is refused where one was free, and no page. -/
theorem scant_iff (h : Trial s₀ [] lent s c) (hg : c.grant? (.object lifoClass) = some (x, c'))
    (h' : Trial s₀ [] (x.extent s₀.pool.arena :: lent) s' c') :
    c'.grant? (.object lifoClass) = none ↔ c.Scant := by
  have hheld : s'.held.Perm (x.extent s.pool.arena :: s.held) := by
    rw [h.arena]
    exact h'.held.trans (h.held.cons _).symm
  have hstock := h.charts.stock_of_object hg h'.charts (h'.arena.trans h.arena.symm) hheld
  rw [slots_lifoClass] at hstock
  rw [Chart.grant?_object_eq_none_iff, Chart.Scant]
  omega

theorem ends_lastFreedFirst (h : Trial s₀ [] lent s c) : Ends lastFreedFirst s fun verdict s' =>
    verdict ≠ .failed ∧ ∃ left, Leaves c.Scant left ∧ ∃ c', Trial s₀ [] (left ++ lent) s' c' := by
  have hround : roundSize 32 = .ok (Grade.object lifoClass).size := roundSize_class lifoClass
  refine (h.ends_allocate hround).andThen fun first s₁ hfirst => ?_
  cases hfirst with
  | refused refusal hnone =>
      refine (h.ends_allocate hround).andThen fun second s₂ hsecond => ?_
      cases hsecond with
      | refused refusal' _ =>
          have hzero := (Chart.grant?_object_eq_none_iff.1 hnone).1
          refine ends_pure ⟨by decide, [], .nothing fun hscant => ?_, c, h⟩
          exact absurd hzero (by rw [hscant.1]; decide)
      | granted y c₂ _ hg _ => cases hnone.symm.trans hg
  | granted x c₁ _ hg h₁ =>
      have hscant := h.scant_iff hg h₁
      refine (h₁.ends_allocate hround).andThen fun second s₂ hsecond => ?_
      cases hsecond with
      | refused refusal hnone =>
          have hsize : (x.extent s₀.pool.arena).size = classSizes.get lifoClass :=
            Chart.size_of_grant hg
          exact ends_pure ⟨by decide, [_], .one hsize (hscant.1 hnone), c₁, h₁⟩
      | granted y c₂ _ hg₂ h₂ =>
          -- a second object was had, so the last object of its class was not taken with the first
          have hsome : ¬c.Scant := fun hone => by cases (hscant.2 hone).symm.trans hg₂
          have hy := h₁.charts.depicts.proper.mem_grant hg₂
          have hagain := h₁.charts.depicts.grant?_release h₂.charts.depicts.proper hg₂
          rw [h₁.arena] at hagain
          refine (h₂.ends_free hy).andThen fun _ s₃ h₃ => ?_
          refine (h₃.ends_allocate hround).andThen fun third s₄ hthird => ?_
          cases hthird with
          | refused refusal hnone => cases hnone.symm.trans hagain
          | granted z c₄ _ hg₄ h₄ =>
              cases hagain.symm.trans hg₄
              refine (h₄.ends_free hy).andThen fun _ s₅ h₅ => ?_
              refine h₅.ends_free_lent.andThen fun _ s₆ hfreed => ?_
              rw [if_pos rfl]
              exact ends_pure ⟨by decide, [], .nothing hsome, hfreed⟩

theorem ends_pageFlag (h : Trial s₀ [] lent s c) : Ends pageFlag s fun verdict s' =>
    verdict ≠ .failed ∧ ∃ c', Trial s₀ [] lent s' c' := by
  have hround : roundSize 100 = .ok (Grade.object 4).size := by decide
  refine (h.ends_allocate hround).andThen fun answer s' hlends => ?_
  cases hlends with
  | refused refusal hnone => exact ends_pure ⟨by decide, c, h⟩
  | granted x c' s' hg h' =>
      have hx := h.charts.depicts.proper.mem_grant hg
      obtain ⟨hdescriptor, -⟩ := h'.charts.depicts.descriptorAt_item hx
      rw [h'.arena] at hdescriptor
      refine Ends.bind (ends_consult hdescriptor ?_)
      refine (h'.ends_free hx).andThen fun _ s'' hback => ?_
      refine ends_ite (fun _ => ends_pure ⟨by decide, _, hback⟩) fun hunflagged => ?_
      have hslab : ∃ page number, x = .object 4 page number := by
        cases Chart.grants_of_eq_some hg with
        | object hfirst => exact ⟨_, _, rfl⟩
        | slab hfull htake => exact ⟨_, _, rfl⟩
      obtain ⟨page, number, rfl⟩ := hslab
      cases Chart.mem_items.1 hx with
      | object hs hlive => exact absurd (h'.charts.depicts.slab_of_sheet hs) hunflagged

end Trial
end Stock
end Ledger
end BuddySlab
