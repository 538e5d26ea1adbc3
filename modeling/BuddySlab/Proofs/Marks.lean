import BuddySlab.Proofs.Twins
import BuddySlab.SelfTest

/-!
Memory that holds no sentinel. The self test takes a block for one that is in use when a half of one
of its words is the sentinel. Apart from what clients write, the allocator writes headers, which are
part of no block, and the links of free objects. A link is null or the address of an object, so its
lower half is even and its upper half is that of an address; a payload without an address whose upper
half is the sentinel therefore stays without one, whoever had its bytes before.
-/

namespace BuddySlab

/-- The words of the self test have four bytes and lie at multiples of four. -/
structure Arena.HalfWord (a : Arena) (w : Nat) : Prop where
  aligned : 4 ∣ w
  start_le : a.payloadStart ≤ w
  le_stop : w + 4 ≤ a.stop

/-- No address of the payload has the sentinel for its upper half. -/
def Arena.Unmarked (a : Arena) : Prop :=
  ∀ x, a.payloadStart ≤ x → x < a.stop → x / 2 ^ 32 ≠ SelfTest.sentinel

/-- What a link may be: null or the address of an object. -/
def Arena.Links (a : Arena) (value : Nat) : Prop :=
  value = 0 ∨ (minObjectSize ∣ value ∧ a.payloadStart ≤ value ∧ value < a.stop)

theorem Arena.Unmarked.halves {a : Arena} (h : a.Unmarked) {value : Nat} (hlink : a.Links value) :
    value % 2 ^ 32 ≠ SelfTest.sentinel ∧ value / 2 ^ 32 ≠ SelfTest.sentinel := by
  cases hlink with
  | inl hnull =>
      rw [hnull]
      decide
  | inr haddress =>
      obtain ⟨haligned, hlow, hhigh⟩ := haddress
      refine ⟨?_, h value hlow hhigh⟩
      simp only [minObjectSize, SelfTest.sentinel] at *
      omega

namespace Memory
variable {m m' : Memory} {a : Arena} {taken taken' : Nat → Prop} {start object w : Nat}

theorem readNumber_add (m : Memory) (start i j : Nat) :
    m.readNumber start (i + j) = m.readNumber start i + 256 ^ i * m.readNumber (start + i) j := by
  induction i generalizing start with
  | zero => rw [Nat.zero_add, readNumber, Nat.pow_zero, Nat.one_mul, Nat.zero_add, Nat.add_zero]
  | succ i ih =>
      rw [Nat.succ_add, readNumber, readNumber, ih, Nat.pow_succ, Nat.add_assoc start,
        Nat.add_comm 1 i, Nat.mul_add, Nat.mul_assoc (256 ^ i), Nat.mul_left_comm (256 ^ i),
        Nat.add_assoc]

theorem readNumber_lt (m : Memory) (start count : Nat) : m.readNumber start count < 256 ^ count := by
  induction count generalizing start with
  | zero => exact Nat.one_pos
  | succ n ih =>
      have hbyte := (m.read start).toNat_lt
      have hrest := ih (start + 1)
      rw [readNumber, Nat.pow_succ]
      omega

theorem readNumber_eq_zero {start count : Nat}
    (h : ∀ x, start ≤ x → x < start + count → m.read x = 0) : m.readNumber start count = 0 := by
  induction count generalizing start with
  | zero => rfl
  | succ n ih =>
      rw [readNumber, h start (by omega) (by omega),
        ih fun x hlow hhigh => h x (by omega) (by omega)]
      rfl

/-- The halves of a machine word. -/
theorem readWord_halves (m : Memory) (address : Nat) :
    m.readNumber address 4 = m.readWord address % 2 ^ 32 ∧
      m.readNumber (address + 4) 4 = m.readWord address / 2 ^ 32 := by
  have hword : m.readWord address =
      m.readNumber address 4 + 2 ^ 32 * m.readNumber (address + 4) 4 := m.readNumber_add address 4 4
  have hlow : m.readNumber address 4 < 2 ^ 32 := m.readNumber_lt address 4
  omega

/-- No half word of the payload, apart from those with a byte of what is taken, is the sentinel. -/
def Unmarked (m : Memory) (a : Arena) (taken : Nat → Prop) : Prop :=
  ∀ w, a.HalfWord w → (∀ x, w ≤ x → x < w + 4 → ¬taken x) → m.readNumber w 4 ≠ SelfTest.sentinel

/-- Bytes that are no longer taken or are written anew may leave no sentinel in a half word that has
one of them. -/
theorem Unmarked.change {P : Nat → Prop} (h : m.Unmarked a taken)
    (hsub : ∀ x, taken x → taken' x ∨ P x)
    (hsame : ∀ x, ¬taken' x → ¬P x → m'.read x = m.read x)
    (hmeets : ∀ w, a.HalfWord w → ∀ x, w ≤ x → x < w + 4 → P x →
      m'.readNumber w 4 ≠ SelfTest.sentinel) : m'.Unmarked a taken' := by
  intro w hw hfree
  by_cases hmeet : ∃ x, w ≤ x ∧ x < w + 4 ∧ P x
  · obtain ⟨x, hlow, hhigh, hx⟩ := hmeet
    exact hmeets w hw x hlow hhigh hx
  · have hout (x : Nat) (hlow : w ≤ x) (hhigh : x < w + 4) : ¬P x :=
      fun hx => hmeet ⟨x, hlow, hhigh, hx⟩
    have hread : m'.readNumber w 4 = m.readNumber w 4 := readNumber_congr fun x hlow hhigh =>
      hsame x (hfree x hlow hhigh) (hout x hlow hhigh)
    rw [hread]
    refine h w hw fun x hlow hhigh htaken => ?_
    exact (hsub x htaken).elim (hfree x hlow hhigh) (hout x hlow hhigh)

/-- More may be taken, and what is taken may be written. -/
theorem Unmarked.congr (h : m.Unmarked a taken) (hsub : ∀ x, taken x → taken' x)
    (hsame : ∀ x, ¬taken' x → m'.read x = m.read x) : m'.Unmarked a taken' :=
  h.change (P := fun _ => False) (fun x hx => .inl (hsub x hx)) (fun x hx _ => hsame x hx)
    fun _ _ _ _ _ => False.elim

/-- A link is no longer taken. -/
theorem Unmarked.reveal (h : m.Unmarked a taken) (ha : a.Unmarked)
    (hobject : minObjectSize ∣ object) (hlink : a.Links (m'.readWord object))
    (hsub : ∀ x, taken x → taken' x ∨ (object ≤ x ∧ x < object + minObjectSize))
    (hsame : ∀ x, ¬taken' x → ¬(object ≤ x ∧ x < object + minObjectSize) →
      m'.read x = m.read x) : m'.Unmarked a taken' := by
  refine h.change hsub hsame fun w hw x hlow hhigh hin => ?_
  obtain ⟨hlower, hupper⟩ := ha.halves hlink
  obtain ⟨hlowerWord, hupperWord⟩ := m'.readWord_halves object
  have haligned := hw.aligned
  simp only [minObjectSize] at *
  -- words and links are aligned, so a word that meets the link is one of its halves
  obtain hw' | hw' : w = object ∨ w = object + 4 := by omega
  · rw [hw', hlowerWord]
    exact hlower
  · rw [hw', hupperWord]
    exact hupper

/-- What is cleared is no longer taken. -/
theorem Unmarked.clear (h : m.Unmarked a taken) {start count : Nat} (hstart : 4 ∣ start)
    (hcount : 4 ∣ count) (hsub : ∀ x, taken x → taken' x ∨ (start ≤ x ∧ x < start + count)) :
    (m.fill start count 0).Unmarked a taken' := by
  refine h.change hsub (fun x _ hout => by rw [read_fill, if_neg hout])
    fun w hw x hlow hhigh hin => ?_
  have haligned := hw.aligned
  have hzero : (m.fill start count 0).readNumber w 4 = 0 := by
    refine readNumber_eq_zero fun y hlow' hhigh' => ?_
    rw [read_fill, if_pos (by omega)]
  rw [hzero]
  decide

end Memory

namespace Chart
variable {a : Arena} {c : Chart} {i : Fin classSizes.size} {page z : Nat} {f : List Nat → List Nat}

/-- The bytes that the slabs keep for themselves and those of these extents. -/
def Taken (c : Chart) (a : Arena) (dirty : List Extent) (x : Nat) : Prop :=
  c.Reserves a x ∨ ∃ e ∈ dirty, e.Covers x

/-- What a slab keeps for itself with another stack it keeps, or it is said to be given up. -/
theorem Reserves.restack {P : Prop} (h : c.Reserves a z)
    (hone : ∀ t ∈ c.sheets i, t.page = page →
      Slab.Reserved (a.pageAddress page) (classSizes.get i) t.stack z →
      Slab.Reserved (a.pageAddress page) (classSizes.get i) (f t.stack) z ∨ P) :
    (c.setSheets i ((c.sheets i).map (Sheet.restack page f))).Reserves a z ∨ P := by
  obtain ⟨j, t, ht, hz⟩ := h
  by_cases hj : j = i
  · subst hj
    have hmem : t.restack page f ∈
        (c.setSheets j ((c.sheets j).map (Sheet.restack page f))).sheets j := by
      rw [setSheets_sheets, if_pos rfl]
      exact List.mem_map_of_mem ht
    by_cases hpage : t.page = page
    · subst hpage
      refine (hone t ht rfl hz).imp_left fun hz => ⟨j, _, hmem, ?_⟩
      rwa [Sheet.restack, if_pos rfl]
    · rw [Sheet.restack_of_ne hpage] at hmem
      exact .inl ⟨j, t, hmem, hz⟩
  · refine .inl ⟨j, t, ?_, hz⟩
    rwa [setSheets_sheets, if_neg hj]

theorem Reserves.cons (h : c.Reserves a z) (s : Sheet) :
    (c.setSheets i (s :: c.sheets i)).Reserves a z := by
  obtain ⟨j, t, ht, hz⟩ := h
  refine ⟨j, t, ?_, hz⟩
  rw [setSheets_sheets]
  split
  · rename_i hj
    exact List.mem_cons_of_mem s (hj ▸ ht)
  · exact ht

/-- The header of a slab is its own with any stack. -/
theorem reserves_header {s : Sheet} (hs : s ∈ c.sheets i)
    (hz : a.pageAddress s.page ≤ z ∧ z < a.pageAddress s.page + Slab.headerSize) :
    (c.setSheets i ((c.sheets i).map (Sheet.restack s.page f))).Reserves a z := by
  refine ⟨i, s.restack s.page f, ?_, .inl ?_⟩
  · rw [setSheets_sheets, if_pos rfl]
    exact List.mem_map_of_mem hs
  · rwa [Sheet.restack_page]

end Chart

namespace Slab
variable {a : Arena} {m m' : Memory} {page size link number x : Nat} {stack : List Nat}

theorem reserved_cons : Reserved page size (number :: stack) x ↔
    Reserved page size stack x ∨
      (slot page size number ≤ x ∧ x < slot page size number + minObjectSize) := by
  simp only [Reserved, List.exists_mem_cons_iff, or_assoc]
  exact or_congr_right or_comm

theorem links_topWord (ha : a.Sound) (hs : Fits size) (hpage : page < a.pages)
    (h8 : minObjectSize ∣ size) (hlt : ∀ i ∈ stack, i < slots size) :
    a.Links (topWord (a.pageAddress page) size stack) := by
  cases stack with
  | nil => exact .inl rfl
  | cons i rest =>
      have hdvd := hs.dvd_slot (i := i) (ha.dvd_pageAddress page)
      have hwithin := hs.slot_within (a.pageAddress page) (hlt i List.mem_cons_self)
      have hstop := ha.pageAddress_le_stop (Nat.succ_le_of_lt hpage)
      have hpos := hs.size_pos
      refine .inr ⟨Nat.dvd_trans h8 hdvd, ?_, ?_⟩ <;>
        simp only [topWord, Arena.pageAddress, pageSize] at * <;> omega

/-- A new slab links the object that it hands out to the next. -/
theorem grow_link {cache : Cache} {object k : Nat} (hs : Fits size) (hk : size = 2 ^ k)
    (hdvd : pageSize ∣ page) (hpage : page + pageSize < 2 ^ 64)
    (hrun : Cache.grow ⟨size, link⟩ m page = .ok (object, cache, m')) :
    m'.readWord (slot page size 0) = topWord page size (List.range (slots size)).tail := by
  obtain ⟨m₁, hformat, hshows, -⟩ := format_eq m hs hk hdvd hpage
  rw [hs.range_slots] at hshows
  obtain ⟨m₂, hpop, -, hframe⟩ := hshows.pop_cons hs hpage
  simp only [Cache.grow, Cache.publish, hformat, ok_bind, hpop, pure_eq_ok] at hrun
  cases hrun
  have hslot : page + 48 ≤ slot page size 0 := hs.le_slot page 0
  rw [← hshows.stacked.1, Memory.readWord_writeWord_of_disjoint _ _ _ _
    (by simp only [nextField]; omega)]
  exact Memory.readWord_congr fun x hlow _ => hframe x (.inr (by simp only [headerSize]; omega))

end Slab

theorem minObjectSize_dvd_class : ∀ i : Fin classSizes.size, minObjectSize ∣ classSizes.get i := by
  decide

namespace Pool.Depicts
variable {p p' : Pool} {c c' : Chart} {i : Fin classSizes.size} {s : Sheet} {x : Item} {g : Grade}
  {m : Memory} {n page number : Nat} {answer : Except Refusal Nat} {events : List Event}
  {dirty : List Extent}

theorem dvd_slot (h : p.Depicts c) (i : Fin classSizes.size) (page number : Nat) :
    minObjectSize ∣ Slab.slot (p.arena.pageAddress page) (classSizes.get i) number :=
  Nat.dvd_trans (minObjectSize_dvd_class i)
    ((Slab.fits_class i).dvd_slot (h.sound.dvd_pageAddress page))

theorem dvd_item (h : p.Depicts c) (hx : x ∈ c.items) :
    minObjectSize ∣ (x.extent p.arena).address := by
  cases Chart.mem_items.1 hx with
  | @block b hb =>
      exact Nat.dvd_trans (by decide : minObjectSize ∣ pageSize) (h.sound.dvd_pageAddress b.first)
  | @object i s number hs hlive => exact h.dvd_slot i s.page number

/-- An object that leaves its stack shows the link that it had there. -/
theorem unmarked_popped (h : p.Depicts c) (ha : p.arena.Unmarked)
    (hfirst : Sheet.first? (c.sheets i) = some (page, number))
    (hpop : Slab.pop p.memory (p.arena.pageAddress page) =
      .ok (some ((Item.object i page number).extent p.arena).address, m))
    (hun : p.memory.Unmarked p.arena (c.Taken p.arena dirty)) :
    m.Unmarked p.arena
      ((c.setSheets i ((c.sheets i).map (Sheet.restack page List.tail))).Taken p.arena dirty) := by
  obtain ⟨rest, hs⟩ := Sheet.first?_eq_some hfirst
  obtain ⟨link, hshows⟩ := (h.chain i).linked.shows hs
  have hfits := Slab.fits_class i
  obtain ⟨m', hpop', hshows', hframe⟩ := hshows.pop_cons hfits (h.sound.page_lt (h.page_lt hs))
  cases hpop'.symm.trans hpop
  have hslot := hfits.le_slot (p.arena.pageAddress page) number
  have hlink : m.readWord (Slab.slot (p.arena.pageAddress page) (classSizes.get i) number) =
      Slab.topWord (p.arena.pageAddress page) (classSizes.get i) rest := by
    rw [← hshows.stacked.1]
    exact Memory.readWord_congr fun z hlow _ => hframe z (.inr (Nat.le_trans hslot hlow))
  refine hun.reveal ha (h.dvd_slot i page number) ?_ (fun z hz => ?_) fun z hz _ => hframe z ?_
  · rw [hlink]
    exact Slab.links_topWord h.sound hfits (h.page_lt hs) (minObjectSize_dvd_class i)
      hshows'.lt_slots
  · cases hz with
    | inr hdirty => exact .inl (.inr hdirty)
    | inl hreserves =>
        refine (hreserves.restack fun t ht hpage hz => ?_).imp_left .inl
        obtain rfl := List.inj_on_of_nodup_map (h.proper.nodup_sheets i) ht hs hpage
        exact Slab.reserved_cons.1 hz
  · by_contra hin
    exact hz (.inl (Chart.reserves_header hs (by omega)))

/-- A page that becomes a slab keeps what was in its objects behind their links. -/
theorem unmarked_grown (h : p.Depicts c) (ha : p.arena.Unmarked) {free : Listing} {object : Nat}
    {cache : Cache} (hlt : page < p.arena.pages) (hfresh : page ∉ (c.sheets i).map Sheet.page)
    (hgrow : (p.caches.get i).grow p.memory (p.arena.pageAddress page) = .ok (object, cache, m))
    (hun : p.memory.Unmarked p.arena (c.Taken p.arena dirty)) :
    m.Unmarked p.arena (({ c with free }.setSheets i
      (⟨page, (List.range (Slab.slots (classSizes.get i))).tail⟩ :: c.sheets i)).Taken
        p.arena dirty) := by
  have hfits := Slab.fits_class i
  have hk := Slab.classSizes_eq i
  rw [h.cache_eq i] at hgrow
  have hlink := Slab.grow_link hfits hk (h.sound.dvd_pageAddress page) (h.sound.page_lt hlt) hgrow
  obtain ⟨m', hgrow', -, hframe⟩ := (h.chain i).grow h.sound hk hlt hfresh
  cases hgrow'.symm.trans hgrow
  let sheet : Sheet := ⟨page, (List.range (Slab.slots (classSizes.get i))).tail⟩
  have hsheet := Chart.mem_setSheets_cons { c with free } i sheet (c.sheets i)
  refine hun.reveal ha (h.dvd_slot i page 0) ?_ (fun z hz => ?_) fun z hz hout => hframe z ?_
  · rw [hlink]
    exact Slab.links_topWord h.sound hfits hlt (minObjectSize_dvd_class i)
      fun j hj => List.mem_range.1 (List.mem_of_mem_tail hj)
  · exact .inl (hz.imp_left fun hreserves => Chart.Reserves.cons (c := { c with free }) hreserves sheet)
  · rw [hfits.range_slots, Slab.reserved_cons]
    rintro (hreserved | hin)
    · exact hz (.inl ⟨i, sheet, hsheet, hreserved⟩)
    · exact hout hin

/-- Whatever is granted, what is free and what is granted hold no sentinel. -/
theorem unmarked_grant (h : p.Depicts c) (ha : p.arena.Unmarked) (hround : roundSize n = .ok g.size)
    (hg : c.grant? g = some (x, c')) (hrun : p.allocate n = .ok (answer, p', events))
    (hun : p.memory.Unmarked p.arena (c.Taken p.arena dirty)) :
    p'.memory.Unmarked p.arena (c'.Taken p.arena dirty) := by
  cases Chart.grants_of_eq_some hg with
  | @block k first free htake =>
      rw [Pool.memory_of_allocate hround (pageSize_le_blockSize k) hrun]
      exact hun
  | @object i page number hfirst =>
      have hround : roundSize n = .ok (classSizes.get i) := hround
      obtain ⟨_, hserved⟩ := Pool.served_of_allocate hround hrun
      rw [if_pos (classSizes_lt i)] at hserved
      obtain ⟨m, hpop, hpopped, -⟩ :=
        h.allocateObject_popped (class?_eq h.objectSize_eq i) hfirst
      cases hpopped.symm.trans hserved
      exact h.unmarked_popped ha hfirst hpop hun
  | @slab i page free hfull htake =>
      have hround : roundSize n = .ok (classSizes.get i) := hround
      obtain ⟨_, hserved⟩ := Pool.served_of_allocate hround hrun
      rw [if_pos (classSizes_lt i),
        h.allocateObject_full (class?_eq h.objectSize_eq i) hfull] at hserved
      cases h.keeps.takeOrder (Nat.zero_le _) with
      | inl hrefused => cases hrefused.1.symm.trans htake
      | inr htaken =>
          obtain ⟨page', free', b, hsome, hb, hkeeps, hkin⟩ := htaken
          cases hsome.symm.trans htake
          obtain ⟨b', m, -, hgrow, hgrown, hbecomes⟩ := h.newSlab i hb hkeeps hkin
          cases hgrown.symm.trans hserved
          have hsheet := Chart.mem_setSheets_cons { c with free } i
            ⟨page, (List.range (Slab.slots (classSizes.get i))).tail⟩ (c.sheets i)
          have hlt := hbecomes.depicts.page_lt hsheet
          have hpages := hbecomes.depicts.proper.nodup_sheets i
          rw [hbecomes.arena] at hlt
          rw [Chart.setSheets_sheets, if_pos rfl] at hpages
          exact h.unmarked_grown ha hlt (List.nodup_cons.1 hpages).1 hgrow hun

/-- What is released is free from then on, with all that it holds behind its link. -/
theorem unmarked_release (h : p.Depicts c) (hx : x ∈ c.items)
    (hrun : p.free (x.extent p.arena).address = .ok (p', events))
    (hun : p.memory.Unmarked p.arena (c.Taken p.arena dirty)) :
    p'.memory.Unmarked p.arena ((c.release p.arena.base x).Taken p.arena dirty) := by
  cases Chart.mem_items.1 hx with
  | @block b hb =>
      obtain ⟨buddy, hfree, -⟩ := h.releaseBlock hb
      cases (h.free_eq_free hb hfree).symm.trans hrun
      exact hun
  | @object i s number hs hlive =>
      obtain ⟨m, hrelease, -⟩ := h.releaseObject hs hlive
      cases (h.free_eq_release hs hlive hrelease).symm.trans hrun
      obtain ⟨hlt, hfresh⟩ := Sheet.mem_live.1 hlive
      obtain ⟨m', hrelease', -, hframe⟩ := (h.chain i).release h.sound hs hlt hfresh
      cases hrelease'.symm.trans hrelease
      refine hun.congr (fun z hz => hz.imp_left fun hreserves => ?_) fun z hz => hframe z ?_ ?_
      · refine (hreserves.restack (P := False) fun t ht hpage hz => .inl ?_).resolve_right id
        exact Slab.reserved_cons.2 (.inl hz)
      · by_contra hin
        exact hz (.inl (Chart.reserves_header hs (by omega)))
      · by_contra hout
        have hin : Slab.slot (p.arena.pageAddress s.page) (classSizes.get i) number ≤ z ∧
            z < Slab.slot (p.arena.pageAddress s.page) (classSizes.get i) number + minObjectSize := by
          omega
        refine hz (.inl ⟨i, s.restack s.page (number :: ·), ?_, ?_⟩)
        · rw [Chart.release, Chart.setSheets_sheets, if_pos rfl]
          exact List.mem_map_of_mem hs
        · rw [Sheet.restack, if_pos rfl]
          exact Slab.reserved_cons.2 (.inr hin)

end Pool.Depicts
end BuddySlab
