import BuddySlab.Proofs.Tiling

/-!
The page tier on lists. What splitting, joining, taking and giving back do is said once on pure
lists of page numbers; each operation of the page tier does that to the lists it keeps, never
faults, and leads from a tiling of the payload by free and held blocks to another one. A block in
the middle of an operation is in hand: it is neither listed nor held, and its record says nothing
that counts.
-/

namespace BuddySlab

namespace Listing
variable {l : Listing} {base i j k : Nat}

def partner? (l : Listing) (base index order : Nat) : Option Nat :=
  (l order).find? fun j => Paired base order index j

/-- Joins a block with its free partners, one for each round. -/
def merge (l : Listing) (base index order : Nat) : Nat → Listing × Nat × Nat
  | 0 => (l, index, order)
  | rounds + 1 =>
      match l.partner? base index order with
      | none => (l, index, order)
      | some other => (l.drop order other).merge base (min index other) (order + 1) rounds

def give (l : Listing) (base index order : Nat) : Listing :=
  match l.merge base index order (maxOrder - order) with
  | (l, head, order) => l.put order head

/-- Lists the upper halves that are cut off on the way down to `target`. -/
def cut (l : Listing) (index target : Nat) : Nat → Listing
  | 0 => l
  | rounds + 1 => (l.put (target + rounds) (index + 2 ^ (target + rounds))).cut index target rounds

/-- The head of the first of these lists that has one, with its order. -/
def first? (l : Listing) : List Nat → Option (Nat × Nat)
  | [] => none
  | order :: orders =>
      match l order with
      | [] => l.first? orders
      | index :: _ => some (index, order)

def take? (l : Listing) (order : Nat) : Option (Nat × Listing) :=
  (l.first? (List.range' order (orderCount - order))).map fun (index, found) =>
    (index, (l.drop found index).cut index order (found - order))

theorem partner?_eq_some (h : l.partner? base i k = some j) : j ∈ l k ∧ Paired base k i j := by
  rw [partner?] at h
  exact ⟨List.mem_of_find?_eq_some h, by simpa using List.find?_some h⟩

theorem partner?_eq_none : l.partner? base i k = none ↔ ∀ j ∈ l k, ¬Paired base k i j := by
  simp [partner?]

theorem partner?_of_mem (hj : j ∈ l k) (hpair : Paired base k i j) :
    l.partner? base i k = some j := by
  cases h : l.partner? base i k with
  | none => exact absurd hpair (partner?_eq_none.1 h j hj)
  | some m => rw [hpair.unique (partner?_eq_some h).2]

theorem first?_eq_some {orders : List Nat} (h : l.first? orders = some (i, k)) :
    k ∈ orders ∧ ∃ rest, l k = i :: rest := by
  induction orders with
  | nil => cases h
  | cons order orders ih =>
      cases hl : l order with
      | nil =>
          simp only [first?, hl] at h
          exact ⟨List.mem_cons_of_mem _ (ih h).1, (ih h).2⟩
      | cons index rest =>
          simp only [first?, hl, Option.some.injEq, Prod.mk.injEq] at h
          obtain ⟨rfl, rfl⟩ := h
          exact ⟨List.mem_cons_self, rest, hl⟩

theorem first?_eq_none {orders : List Nat} : l.first? orders = none ↔ ∀ k ∈ orders, l k = [] := by
  induction orders with
  | nil => simp [first?]
  | cons order orders ih => cases hl : l order <;> simp [first?, hl, ih]

end Listing

namespace Buddy
variable {b b' b'' : Buddy} {l l' : Listing} {held hand : List Block} {i j k : Nat} {c : Block}

/-- The page tier keeps these free blocks, and all other blocks of the payload are held or in hand.
-/
structure Keeps (b : Buddy) (l : Listing) (held hand : List Block) : Prop where
  sound : b.arena.Sound
  threads : b.Threads l
  free_iff : ∀ i < b.arena.pages, (b.table.record i).flags.free = true ↔ ∃ k, i ∈ l k
  order_free : ∀ {i k}, i ∈ l k → (b.table.record i).order.toNat = k
  order_held : ∀ c ∈ held, (b.table.record c.first).order.toNat = c.order
  tiles : Tiles b.arena.base b.arena.pages (l.blocks ++ (hand ++ held))
  unpaired : l.Unpaired b.arena.base

/-- The same payload, and the same pages flagged as slabs. -/
structure Kin (b b' : Buddy) : Prop where
  arena : b'.arena = b.arena
  slab : ∀ i, (b'.table.record i).flags.slab = (b.table.record i).flags.slab

theorem Kin.refl (b : Buddy) : b.Kin b :=
  ⟨rfl, fun _ => rfl⟩

theorem Kin.trans (h : b.Kin b') (h' : b'.Kin b'') : b.Kin b'' :=
  ⟨h'.arena.trans h.arena, fun i => (h'.slab i).trans (h.slab i)⟩

theorem kin_of_label (harena : b'.arena = b.arena)
    (hlabel : ∀ j, (b'.table.record j).label = (b.table.record j).label) : b.Kin b' :=
  ⟨harena, fun j => congrArg (fun label => label.1.slab) (hlabel j)⟩

theorem kin_modify (hi : i < b.arena.pages) {f : Descriptor → Descriptor}
    (hf : ∀ d, (f d).flags.slab = d.flags.slab) : b.Kin (b.modify i f) := by
  refine ⟨rfl, fun j => ?_⟩
  rw [record_modify hi]
  split
  · exact hf _
  · rfl

namespace Keeps

theorem mem_blocks (h : b.Keeps l held hand) (hi : i ∈ l k) : (⟨i, k⟩ : Block) ∈ l.blocks :=
  Listing.mem_blocks.2 ⟨h.threads.order_lt hi, hi⟩

/-- A page of a block that is held or in hand heads no free block. -/
theorem not_mem (h : b.Keeps l held hand) (hc : c ∈ hand ++ held) (hj : j ∈ c.pages) (k : Nat) :
    j ∉ l k := by
  intro hjk
  have hmem := h.mem_blocks hjk
  have heq := h.tiles.unique (List.mem_append_left _ hmem) (List.mem_append_right _ hc)
    (Block.first_mem_pages ⟨j, k⟩) hj
  have hdisjoint := (List.nodup_append.1 h.tiles.nodup).2.2
  exact hdisjoint _ hmem _ hc heq

theorem page_lt (h : b.Keeps l held hand) (hc : c ∈ hand ++ held) : c.first < b.arena.pages :=
  h.tiles.page_lt (List.mem_append_right _ hc) c.first_mem_pages

theorem of_perm {held' : List Block} (h : b.Keeps l held hand) (hperm : held'.Perm held) :
    b.Keeps l held' hand :=
  { h with
    order_held := fun c hc => h.order_held c (hperm.mem_iff.1 hc)
    tiles := h.tiles.of_perm ((hperm.append_left hand).append_left l.blocks) }

theorem to_hand (h : b.Keeps l (c :: held) hand) : b.Keeps l held (c :: hand) :=
  { h with
    order_held := fun d hd => h.order_held d (List.mem_cons_of_mem _ hd)
    tiles := h.tiles.of_perm (List.perm_middle.symm.append_left l.blocks) }

theorem to_held (h : b.Keeps l held (c :: hand))
    (horder : (b.table.record c.first).order.toNat = c.order) : b.Keeps l (c :: held) hand :=
  { h with
    order_held := List.forall_mem_cons.2 ⟨horder, h.order_held⟩
    tiles := h.tiles.of_perm (List.perm_middle.append_left l.blocks) }

theorem modify_threads (h : b.Threads l) (hi : i < b.arena.pages) {f : Descriptor → Descriptor}
    (hprev : ∀ d, (f d).prev = d.prev) (hnext : ∀ d, (f d).next = d.next) :
    (b.modify i f).Threads l := by
  refine h.of_links rfl rfl (fun j => ?_) (fun j => ?_)
  · rw [record_modify hi]
    split
    · exact hprev _
    · rfl
  · rw [record_modify hi]
    split
    · exact hnext _
    · rfl

/-- The blocks that are held or in hand begin at different pages. -/
theorem first_ne {d : Block} (h : b.Keeps l held (c :: hand)) (hd : d ∈ hand ++ held) :
    d.first ≠ c.first := by
  intro heq
  have htiles := h.tiles.of_perm List.perm_middle.symm
  refine htiles.first_not_mem (List.mem_append_right _ hd) ?_
  rw [heq]
  exact c.first_mem_pages

/-- A block taken off its list and no longer flagged as free is in hand. -/
theorem remove (h : b.Keeps l held hand) (hi : i ∈ l k) (hthreads : b'.Threads (l.drop k i))
    (harena : b'.arena = b.arena)
    (hlabel : ∀ j, (b'.table.record j).label = (b.table.record j).label) :
    (b'.modify i (·.withFree false)).Keeps (l.drop k i) held (⟨i, k⟩ :: hand) := by
  have hpage := h.threads.page_lt hi
  have hpage' : i < b'.arena.pages := harena ▸ hpage
  have hflags (j : Nat) : (b'.table.record j).flags = (b.table.record j).flags :=
    congrArg Prod.fst (hlabel j)
  have horder (j : Nat) : (b'.table.record j).order = (b.table.record j).order :=
    congrArg Prod.snd (hlabel j)
  have hrecord := record_modify hpage' (·.withFree false)
  have horder' (j : Nat) : ((b'.modify i (·.withFree false)).table.record j).order =
      (b.table.record j).order := by
    rw [hrecord, ← horder]
    split <;> rfl
  have hperm : l.blocks.Perm (⟨i, k⟩ :: (l.drop k i).blocks) :=
    Listing.blocks_drop (h.threads.order_lt hi) hi
  have hmem {j m : Nat} : m ∈ l.drop k i j ↔ m ∈ l j ∧ ¬(j = k ∧ m = i) :=
    Listing.mem_drop h.threads.nodup
  refine ⟨?_, modify_threads hthreads hpage' (fun _ => rfl) (fun _ => rfl), ?_, ?_, ?_, ?_, ?_⟩
  · exact harena ▸ h.sound
  · intro j hj
    rw [hrecord]
    by_cases hji : j = i
    · rw [if_pos hji]
      refine iff_of_false (by simp [Descriptor.withFree]) fun hfree => ?_
      obtain ⟨m, hm⟩ := hfree
      have hm := hmem.1 hm
      exact hm.2 ⟨h.threads.order_eq (hji ▸ hm.1) hi, hji⟩
    · rw [if_neg hji, hflags, h.free_iff j (harena ▸ hj)]
      simp only [hmem, hji, and_false, not_false_eq_true, and_true]
  · intro j m hm
    rw [horder']
    exact h.order_free (hmem.1 hm).1
  · intro c hc
    rw [horder']
    exact h.order_held c hc
  · refine harena ▸ h.tiles.of_perm ?_
    exact List.perm_middle.trans (hperm.symm.append_right _)
  · exact harena ▸ h.unpaired.drop

/-- A block in hand that is labelled as free and put on its list is free. -/
theorem insert (h : b.Keeps l held (⟨i, k⟩ :: hand))
    (hpair : k < maxOrder → ∀ j ∈ l k, ¬Paired b.arena.base k i j) :
    ∃ b', (b.modify i fun d => (d.withOrder k).withFree true).push i k = .ok b' ∧
      b'.Keeps (l.put k i) held hand ∧ b.Kin b' := by
  have hmem : (⟨i, k⟩ : Block) ∈ (⟨i, k⟩ :: hand) ++ held := List.mem_cons_self
  have hi : i < b.arena.pages := h.page_lt hmem
  have hk : k < orderCount :=
    Nat.lt_succ_of_le (h.tiles.order_le _ (List.mem_append_right _ hmem))
  have hfresh : ∀ j, i ∉ l j := h.not_mem hmem (Block.first_mem_pages ⟨i, k⟩)
  let b₁ := b.modify i fun d => (d.withOrder k).withFree true
  have hrecord (j : Nat) : b₁.table.record j = _ := record_modify hi _ j
  have hthreads : b₁.Threads l := modify_threads h.threads hi (fun _ => rfl) (fun _ => rfl)
  obtain ⟨b₂, hb₂, hthreads₂, harena, hlabel⟩ := hthreads.push hk hi hfresh
  have hkin₁ : b.Kin b₁ := kin_modify hi fun _ => rfl
  have hkin : b.Kin b₂ := hkin₁.trans (kin_of_label harena hlabel)
  have hflags (j : Nat) : (b₂.table.record j).flags = (b₁.table.record j).flags :=
    congrArg Prod.fst (hlabel j)
  have horder (j : Nat) : (b₂.table.record j).order = (b₁.table.record j).order :=
    congrArg Prod.snd (hlabel j)
  have hother {m : Nat} (hm : m ≠ i) : b₁.table.record m = b.table.record m :=
    (hrecord m).trans (if_neg hm)
  refine ⟨b₂, hb₂, ⟨?_, hthreads₂, ?_, ?_, ?_, ?_, ?_⟩, hkin⟩
  · exact hkin.arena ▸ h.sound
  · intro j hj
    rw [hflags]
    by_cases hji : j = i
    · rw [hji, hrecord, if_pos rfl]
      exact iff_of_true rfl ⟨k, Listing.mem_put.2 (.inl ⟨rfl, rfl⟩)⟩
    · rw [hother hji, h.free_iff j (hkin.arena ▸ hj)]
      simp only [Listing.mem_put, hji, and_false, false_or]
  · intro m j hm
    rw [horder]
    cases Listing.mem_put.1 hm with
    | inl hnew =>
        obtain ⟨rfl, rfl⟩ := hnew
        rw [hrecord, if_pos rfl]
        exact UInt8.toNat_ofNat_of_lt' (Nat.lt_of_lt_of_le hk (by decide))
    | inr hm =>
        rw [hother fun hmi => hfresh j (hmi ▸ hm)]
        exact h.order_free hm
  · intro c hc
    rw [horder, hother (h.first_ne (List.mem_append_right _ hc))]
    exact h.order_held c hc
  · rw [hkin.arena]
    refine h.tiles.of_perm (((Listing.blocks_put hk).append_right _).trans ?_)
    exact List.perm_middle.symm
  · rw [hkin.arena]
    exact h.unpaired.put (h.tiles.aligned _ (List.mem_append_right _ hmem)) hpair

theorem freeBuddy?_eq (h : b.Keeps l held (⟨i, k⟩ :: hand)) :
    b.freeBuddy? i k = .ok (l.partner? b.arena.base i k) := by
  have hsound := h.sound
  have hi : i < b.arena.pages := h.page_lt (c := ⟨i, k⟩) List.mem_cons_self
  have hmem {j : Nat} (hj : j < b.arena.pages) :
      ((b.table.record j).flags.free && (b.table.record j).order.toNat = k) = true ↔ j ∈ l k := by
    rw [Bool.and_eq_true, h.free_iff j hj, decide_eq_true_eq]
    constructor
    · intro hfree
      obtain ⟨⟨m, hm⟩, horder⟩ := hfree
      rwa [← horder, h.order_free hm]
    · exact fun hjk => ⟨⟨k, hjk⟩, h.order_free hjk⟩
  rw [freeBuddy?, hsound.addressOf_eq hi, ok_bind, hsound.pageAddress_xor]
  cases hholds : b.arena.holds (pageSize * ((b.arena.base + i) ^^^ 2 ^ k)) (blockSize k) with
  | false =>
      simp only [hholds, Bool.false_eq_true, if_false, pure_eq_ok]
      rw [Listing.partner?_eq_none.2]
      intro j hj hpair
      rw [← hpair] at hholds
      have hfits := h.tiles.last_le (List.mem_append_left _ (h.mem_blocks hj))
      exact Bool.false_ne_true (hholds.symm.trans (hsound.holds_iff.2 ⟨j, rfl, hfits⟩))
  | true =>
      obtain ⟨j, hpair, hfits⟩ := hsound.holds_iff.1 hholds
      have hj : j < b.arena.pages := by
        have := Nat.two_pow_pos k
        omega
      have hpaired : Paired b.arena.base k i j := hpair.symm
      simp only [hholds, if_true]
      rw [hpair, ← hsound.pageAddress_eq]
      simp only [pure_eq_ok, ok_bind, hsound.indexOf_pageAddress hj,
        PageTable.descriptor_eq (show j < b.table.arena.pages from hj), hmem hj]
      by_cases hjk : j ∈ l k
      · rw [if_pos hjk, Listing.partner?_of_mem hjk hpaired]
      · rw [if_neg hjk, Listing.partner?_eq_none.2]
        intro m hm hpairm
        exact hjk (hpaired.unique hpairm ▸ hm)

/-- The joined block has no free partner left, or is as large as blocks get. -/
theorem coalesce (rounds : Nat) (h : b.Keeps l held (⟨i, k⟩ :: hand))
    (hrounds : k + rounds = maxOrder) :
    ∃ b' l' i' k', b.coalesce i k rounds = .ok (b', i', k') ∧
      l.merge b.arena.base i k rounds = (l', i', k') ∧ b'.Keeps l' held (⟨i', k'⟩ :: hand) ∧
      b.Kin b' ∧ (k' < maxOrder → ∀ j ∈ l' k', ¬Paired b.arena.base k' i' j) := by
  induction rounds generalizing b l i k with
  | zero => exact ⟨b, l, i, k, rfl, rfl, h, .refl b, fun hk => by omega⟩
  | succ rounds ih =>
      rw [Buddy.coalesce, h.freeBuddy?_eq, ok_bind, Listing.merge]
      cases hpartner : l.partner? b.arena.base i k with
      | none =>
          exact ⟨b, l, i, k, rfl, rfl, h, .refl b, fun _ => Listing.partner?_eq_none.1 hpartner⟩
      | some j =>
          obtain ⟨hj, hpair⟩ := Listing.partner?_eq_some hpartner
          obtain ⟨b₁, hb₁, hthreads, harena, hlabel⟩ := h.threads.unlink hj
          have hpage : j < b₁.arena.pages := harena ▸ h.threads.page_lt hj
          have hremoved := h.remove hj hthreads harena hlabel
          have hkin₁ : b.Kin b₁ := kin_of_label harena hlabel
          have hkin : b.Kin (b₁.modify j (·.withFree false)) :=
            hkin₁.trans (kin_modify hpage fun _ => rfl)
          have hjoined : (b₁.modify j (·.withFree false)).Keeps (l.drop k j) held
              (⟨min i j, k + 1⟩ :: hand) := by
            refine { hremoved with tiles := ?_ }
            have hperm : ((l.drop k j).blocks ++ (⟨j, k⟩ :: ⟨i, k⟩ :: hand ++ held)).Perm
                (⟨i, k⟩ :: ⟨j, k⟩ :: ((l.drop k j).blocks ++ (hand ++ held))) := by
              refine List.perm_middle.trans (.trans (.cons _ List.perm_middle) ?_)
              exact List.Perm.swap _ _ _
            have htiles := hremoved.tiles.of_perm hperm.symm
            rw [hkin.arena] at htiles ⊢
            exact (htiles.join (by omega) hpair).of_perm List.perm_middle
          obtain ⟨b', l', i', k', hrun, hmerge, hkeeps, hkin', hunpaired⟩ :=
            ih hjoined (by omega)
          rw [hkin.arena] at hmerge hunpaired
          refine ⟨b', l', i', k', ?_, hmerge, hkeeps, hkin.trans hkin', hunpaired⟩
          simp only [hb₁, ok_bind, update_eq hpage, hrun]

/-- A held block that is given back is joined as far as possible and listed. -/
theorem giveBack (h : b.Keeps l (c :: held) []) :
    ∃ b', b.giveBack c.first = .ok b' ∧
      b'.Keeps (l.give b.arena.base c.first c.order) held [] ∧ b.Kin b' := by
  have hmem : c ∈ [] ++ c :: held := List.mem_cons_self
  have hi : c.first < b.table.arena.pages := h.page_lt hmem
  have horder := h.order_held c List.mem_cons_self
  have hle : c.order ≤ maxOrder := h.tiles.order_le c (List.mem_append_right _ hmem)
  obtain ⟨b₁, l₁, i, k, hrun, hmerge, hkeeps, hkin, hunpaired⟩ :=
    h.to_hand.coalesce (maxOrder - c.order) (by omega)
  have hpage : i < b₁.arena.pages := hkeeps.page_lt (c := ⟨i, k⟩) List.mem_cons_self
  rw [← hkin.arena] at hunpaired
  obtain ⟨b₂, hb₂, hkeeps₂, hkin₂⟩ := hkeeps.insert hunpaired
  refine ⟨b₂, ?_, ?_, hkin.trans hkin₂⟩
  · simp only [Buddy.giveBack, PageTable.descriptor_eq hi, ok_bind, horder, hrun, update_eq hpage,
      hb₂]
  · rwa [Listing.give, hmerge]

/-- A held block whose record names the order of a half is its lower half; the upper is in hand. -/
theorem shrink (h : b.Keeps l (⟨i, k + 1⟩ :: held) []) :
    (b.modify i fun d => (d.withOrder k).withFree false).Keeps l (⟨i, k⟩ :: held)
      [⟨i + 2 ^ k, k⟩] := by
  have hmem : (⟨i, k + 1⟩ : Block) ∈ [] ++ ⟨i, k + 1⟩ :: held := List.mem_cons_self
  have hi : i < b.arena.pages := h.page_lt hmem
  have hk : k + 1 ≤ maxOrder := h.tiles.order_le _ (List.mem_append_right _ hmem)
  have hne {j m : Nat} (hj : j ∈ l m) : j ≠ i := fun hji =>
    h.not_mem hmem (Block.first_mem_pages ⟨i, k + 1⟩) m (hji ▸ hj)
  have hrecord := record_modify hi fun d => (d.withOrder k).withFree false
  have htiles : Tiles b.arena.base b.arena.pages
      (l.blocks ++ (⟨i + 2 ^ k, k⟩ :: ⟨i, k⟩ :: held)) := by
    have hhalves := (h.tiles.of_perm List.perm_middle.symm).halve
    refine hhalves.of_perm ?_
    exact List.perm_middle.trans ((List.perm_middle.cons _).trans (List.Perm.swap _ _ _))
  refine ⟨h.sound, modify_threads h.threads hi (fun _ => rfl) (fun _ => rfl), fun j hj => ?_,
    fun {j m} hm => ?_, fun c hc => ?_, htiles, h.unpaired⟩
  · rw [hrecord]
    by_cases hji : j = i
    · rw [if_pos hji, hji]
      exact iff_of_false (by simp [Descriptor.withFree]) fun hm => hne hm.choose_spec rfl
    · rw [if_neg hji]
      exact h.free_iff j hj
  · rw [hrecord, if_neg (hne hm)]
    exact h.order_free hm
  · rw [hrecord]
    cases hc with
    | head =>
        rw [if_pos rfl]
        exact UInt8.toNat_ofNat_of_lt' (Nat.lt_of_lt_of_le hk (by decide))
    | tail _ hc =>
        rw [if_neg (h.to_hand.first_ne hc)]
        exact h.order_held c (List.mem_cons_of_mem _ hc)

/-- The upper half of a held block becomes a free block of its own. -/
theorem halve (h : b.Keeps l (⟨i, k + 1⟩ :: held) []) :
    ∃ b', b.halve i = .ok b' ∧ b'.Keeps (l.put k (i + 2 ^ k)) (⟨i, k⟩ :: held) [] ∧ b.Kin b' := by
  have hmem : (⟨i, k + 1⟩ : Block) ∈ [] ++ ⟨i, k + 1⟩ :: held := List.mem_cons_self
  have hi : i < b.arena.pages := h.page_lt hmem
  have hin := List.mem_append_right l.blocks hmem
  have hk : k + 1 ≤ maxOrder := h.tiles.order_le _ hin
  have hfits : i + 2 ^ (k + 1) ≤ b.arena.pages := h.tiles.last_le hin
  have haligned : 2 ^ (k + 1) ∣ b.arena.base + i := h.tiles.aligned _ hin
  have hpages : b.arena.pages < 2 ^ 32 - 1 := h.sound.pages_lt
  have hpow : 2 ^ (k + 1) = 2 ^ k + 2 ^ k := by rw [Nat.pow_succ, Nat.mul_two]
  have hpos := Nat.two_pow_pos k
  let b₁ := b.modify i fun d => (d.withOrder k).withFree false
  have hright : i + 2 ^ k < b₁.arena.pages := by
    change i + 2 ^ k < b.arena.pages
    omega
  have hkin₁ : b.Kin b₁ := kin_modify hi fun _ => rfl
  have hunpaired (j : Nat) (hj : j ∈ l k) : ¬Paired b.arena.base k (i + 2 ^ k) j := by
    intro hpair
    have hji : j = i := hpair.unique (paired_right haligned).symm
    exact h.not_mem hmem (Block.first_mem_pages ⟨i, k + 1⟩) k (hji ▸ hj)
  obtain ⟨b₂, hb₂, hkeeps₂, hkin₂⟩ := h.shrink.insert fun _ => hunpaired
  refine ⟨b₂, ?_, hkeeps₂, hkin₁.trans hkin₂⟩
  have horder : (b.table.record i).order.toNat = k + 1 := h.order_held _ List.mem_cons_self
  have hshift : Word.shiftLeft 1 k = .ok (2 ^ k) := by
    rw [Word.shiftLeft_of_lt (by simp only [maxOrder] at hk; omega) (by omega), Nat.one_mul]
  have hadd : Word.add i (2 ^ k) = .ok (i + 2 ^ k) := Word.add_of_lt (by omega)
  simp only [Buddy.halve, PageTable.descriptor_eq (show i < b.table.arena.pages from hi), ok_bind,
    horder, Nat.succ_ne_zero, if_false, Nat.add_sub_cancel, hshift, hadd, update_eq hi]
  change (b₁.update _ _ >>= _) = _
  rw [update_eq hright, ok_bind]
  exact hb₂

theorem halveDown (n rounds : Nat) (hn : n ≤ rounds)
    (h : b.Keeps l (⟨i, k + n⟩ :: held) []) :
    ∃ b', b.halveDown i k rounds = .ok b' ∧ b'.Keeps (l.cut i k n) (⟨i, k⟩ :: held) [] ∧
      b.Kin b' := by
  induction rounds generalizing b l n with
  | zero =>
      obtain rfl := Nat.le_zero.1 hn
      exact ⟨b, rfl, h, .refl b⟩
  | succ rounds ih =>
      have hi : i < b.table.arena.pages := h.page_lt (c := ⟨i, k + n⟩) List.mem_cons_self
      have horder : (b.table.record i).order.toNat = k + n := h.order_held _ List.mem_cons_self
      rw [Buddy.halveDown, PageTable.descriptor_eq hi, ok_bind, horder]
      cases n with
      | zero => exact ⟨b, if_pos (Nat.le_refl k), h, .refl b⟩
      | succ n =>
          obtain ⟨b₁, hb₁, hkeeps, hkin⟩ := h.halve
          obtain ⟨b', hrun, hkeeps', hkin'⟩ := ih n (Nat.le_of_succ_le_succ hn) hkeeps
          refine ⟨b', ?_, hkeeps', hkin.trans hkin'⟩
          rw [if_neg (by omega)]
          simp only [hb₁, ok_bind, hrun]

end Keeps

theorem Threads.popFirst (h : b.Threads l) {orders : List Nat}
    (horders : ∀ k ∈ orders, k < orderCount) :
    (l.first? orders = none ∧ b.popFirst orders = .ok (none, b)) ∨
      ∃ i k b', l.first? orders = some (i, k) ∧ b.popFirst orders = .ok (some i, b') ∧
        b'.Threads (l.drop k i) ∧ b'.arena = b.arena ∧
        ∀ j, (b'.table.record j).label = (b.table.record j).label := by
  induction orders with
  | nil => exact .inl ⟨rfl, rfl⟩
  | cons order orders ih =>
      have hlist := h.list_eq order (horders order List.mem_cons_self)
      cases hl : l order with
      | nil =>
          have hpop : b.pop order = .ok (none, b) := by
            simp only [Buddy.pop, hlist, ok_bind, hl, Link.toFirst, Link.target?_none, pure_eq_ok]
          simp only [Listing.first?, Buddy.popFirst, hl, hpop, ok_bind]
          exact ih fun k hk => horders k (List.mem_cons_of_mem _ hk)
      | cons i rest =>
          have hi : i ∈ l order := hl ▸ List.mem_cons_self
          obtain ⟨b', hb', hthreads, harena, hlabel⟩ := h.unlink hi
          have htarget := Link.target?_ofIndex (Nat.lt_trans (h.page_lt hi) h.pages_lt)
          refine .inr ⟨i, order, b', by simp only [Listing.first?, hl], ?_, hthreads, harena,
            hlabel⟩
          simp only [Buddy.popFirst, Buddy.pop, hlist, ok_bind, hl, Link.toFirst, htarget, hb',
            pure_eq_ok]

namespace Keeps

theorem takeOrder (h : b.Keeps l held []) (hk : k ≤ maxOrder) :
    (l.take? k = none ∧ b.takeOrder k = .ok (.error .outOfMemory, b)) ∨
      ∃ i l' b', l.take? k = some (i, l') ∧
        b.takeOrder k = .ok (.ok (b.arena.pageAddress i), b') ∧
        b'.Keeps l' (⟨i, k⟩ :: held) [] ∧ b.Kin b' := by
  have horders : ∀ j ∈ List.range' k (orderCount - k), k ≤ j ∧ j < orderCount := by
    intro j hj
    rw [List.mem_range'_1] at hj
    simp only [orderCount] at hj ⊢
    omega
  rw [Listing.take?, Buddy.takeOrder, if_neg (Nat.not_lt.2 hk)]
  cases h.threads.popFirst (fun j hj => (horders j hj).2) with
  | inl hempty =>
      obtain ⟨hnone, hpop⟩ := hempty
      exact .inl ⟨by rw [hnone]; rfl, by rw [hpop]; rfl⟩
  | inr hpopped =>
      obtain ⟨i, m, b₁, hsome, hpop, hthreads, harena, hlabel⟩ := hpopped
      obtain ⟨hm, rest, hl⟩ := Listing.first?_eq_some hsome
      have hkm := (horders m hm).1
      have hm := (horders m hm).2
      have hi : i ∈ l m := hl ▸ List.mem_cons_self
      have hpage : i < b₁.arena.pages := harena ▸ h.threads.page_lt hi
      have hkin₁ : b.Kin b₁ := kin_of_label harena hlabel
      let b₂ := b₁.modify i (·.withFree false)
      have hkin₂ : b.Kin b₂ := hkin₁.trans (kin_modify hpage fun _ => rfl)
      have horder : (b₂.table.record i).order.toNat = m := by
        rw [record_modify hpage, if_pos rfl, ← h.order_free hi]
        exact congrArg UInt8.toNat (congrArg Prod.snd (hlabel i))
      have hremoved : b₂.Keeps (l.drop m i) (⟨i, m⟩ :: held) [] :=
        (h.remove hi hthreads harena hlabel).to_held horder
      obtain ⟨n, rfl⟩ := Nat.exists_eq_add_of_le hkm
      have hrounds : n ≤ 255 := by
        simp only [orderCount, maxOrder] at hm
        omega
      obtain ⟨b', hrun, hkeeps, hkin⟩ := hremoved.halveDown n 255 hrounds
      have hkin' := hkin₂.trans hkin
      have haddress : b'.arena.addressOf i = .ok (b.arena.pageAddress i) := by
        rw [hkin'.arena]
        exact h.sound.addressOf_eq (h.threads.page_lt hi)
      refine .inr ⟨i, (l.drop (k + n) i).cut i k n, b', ?_, ?_, hkeeps, hkin'⟩
      · simp only [hsome, Option.map_some, Nat.add_sub_cancel_left]
      · simp only [hpop, ok_bind, update_eq hpage, Buddy.split]
        change (b₂.halveDown i k 255 >>= _) = _
        rw [hrun, ok_bind, haddress]
        rfl

/-- Nothing is taken where no aligned range of the size is free as a whole. -/
theorem take?_eq_none_iff (h : b.Keeps l held []) (hk : k ≤ maxOrder) :
    l.take? k = none ↔ ∀ i, ¬l.Whole b.arena.base ⟨i, k⟩ := by
  rw [Listing.take?, Option.map_eq_none_iff, Listing.first?_eq_none]
  constructor
  · intro hnil i hwhole
    obtain ⟨d, hd, hle, -⟩ := h.tiles.exists_free_block h.unpaired hk hwhole
    obtain ⟨horder, hmem⟩ := Listing.mem_blocks.1 hd
    rw [hnil d.order (List.mem_range'_1.2 (by omega))] at hmem
    cases hmem
  · intro hnone m hm
    obtain ⟨hkm, -⟩ := List.mem_range'_1.1 hm
    refine List.eq_nil_iff_forall_not_mem.2 fun i hi => hnone i ⟨?_, fun j hj => ?_⟩
    · have haligned := h.tiles.aligned _ (List.mem_append_left _ (h.mem_blocks hi))
      exact Nat.dvd_trans (Nat.pow_dvd_pow 2 hkm) haligned
    · refine ⟨⟨i, m⟩, h.mem_blocks hi, Block.mem_pages.2 ?_⟩
      have hj := Block.mem_pages.1 hj
      have hle : 2 ^ k ≤ 2 ^ m := Nat.pow_le_pow_right (by decide) hkm
      simp only at hj ⊢
      omega

theorem free (h : b.Keeps l (c :: held) [])
    (hslab : (b.table.record c.first).flags.slab = false) :
    ∃ b', b.free (b.arena.pageAddress c.first) = .ok (c.order, b') ∧
      b'.Keeps (l.give b.arena.base c.first c.order) held [] ∧ b.Kin b' := by
  have hi : c.first < b.table.arena.pages := h.page_lt (c := c) List.mem_cons_self
  have horder := h.order_held c List.mem_cons_self
  obtain ⟨b', hrun, hkeeps, hkin⟩ := h.giveBack
  refine ⟨b', ?_, hkeeps, hkin⟩
  simp only [Buddy.free, h.sound.indexOf_pageAddress hi, ok_bind, PageTable.descriptor_eq hi, hslab,
    Bool.false_eq_true, if_false, hrun, horder, pure_eq_ok]

/-- The mark of a slab is no part of what the page tier keeps. -/
theorem flagSlab (h : b.Keeps l held hand) (hi : i < b.arena.pages) :
    ∃ b', b.flagSlab (b.arena.pageAddress i) = .ok b' ∧ b'.Keeps l held hand ∧
      b'.arena = b.arena ∧
      ∀ j, (b'.table.record j).flags.slab = true ↔ j = i ∨ (b.table.record j).flags.slab = true := by
  have hrecord (j : Nat) := record_modify hi (·.withSlab) j
  have hfree (j : Nat) : ((b.modify i (·.withSlab)).table.record j).flags.free =
      (b.table.record j).flags.free := by
    rw [hrecord]
    split <;> rfl
  have horder (j : Nat) : ((b.modify i (·.withSlab)).table.record j).order =
      (b.table.record j).order := by
    rw [hrecord]
    split <;> rfl
  refine ⟨b.modify i (·.withSlab), ?_, ⟨h.sound, ?_, ?_, ?_, ?_, h.tiles, h.unpaired⟩, rfl, ?_⟩
  · rw [Buddy.flagSlab, h.sound.indexOf_pageAddress hi, ok_bind, update_eq hi]
  · exact modify_threads h.threads hi (fun _ => rfl) fun _ => rfl
  · intro j hj
    rw [hfree]
    exact h.free_iff j hj
  · intro j m hm
    rw [horder]
    exact h.order_free hm
  · intro c hc
    rw [horder]
    exact h.order_held c hc
  · intro j
    rw [hrecord]
    by_cases hji : j = i
    · simp [hji, Descriptor.withSlab]
    · simp [hji]

theorem giveBackAll (indices : List Nat)
    (h : b.Keeps l (indices.map (Block.mk · 0) ++ held) []) :
    ∃ b', indices.foldlM Buddy.giveBack b = .ok b' ∧
      b'.Keeps (indices.foldl (fun l i => l.give b.arena.base i 0) l) held [] ∧ b.Kin b' := by
  induction indices generalizing b l with
  | nil => exact ⟨b, rfl, h, .refl b⟩
  | cons i rest ih =>
      obtain ⟨b₁, hb₁, hkeeps, hkin⟩ := h.giveBack (c := ⟨i, 0⟩)
      obtain ⟨b', hrun, hkeeps', hkin'⟩ := ih hkeeps
      refine ⟨b', ?_, hkin.arena ▸ hkeeps', hkin.trans hkin'⟩
      rw [List.foldlM_cons, hb₁, ok_bind, hrun]

end Keeps

/-- The lists after all pages were given back one by one. -/
def initialListing (a : Arena) : Listing :=
  (List.range a.pages).foldl (fun l i => l.give a.base i 0) fun _ => []

/-- On a fresh table every page is a held block of its own. -/
theorem keeps_blank {a : Arena} (ha : a.Sound) :
    Keeps ⟨.blank a, Vector.replicate orderCount .empty⟩ (fun _ => [])
      ((List.range a.pages).map (Block.mk · 0)) [] := by
  have hnil : Listing.blocks (fun _ => []) = [] := rfl
  refine ⟨ha, ?_, fun i hi => ?_, fun hi => by simp at hi, fun c hc => ?_, ⟨?_, ?_, ?_⟩,
    fun _ _ _ hi => by simp at hi⟩
  · exact ⟨ha.pages_lt, fun k hk => by simp [Buddy.list, hk, Link.toFirst, FreeList.empty],
      fun _ _ => trivial, fun _ => List.nodup_nil, fun hi => by simp at hi,
      fun hi => by simp at hi, fun hi => by simp at hi⟩
  · simp [PageTable.record_blank, Descriptor.blank, Flags.empty]
  · obtain ⟨i, -, rfl⟩ := List.mem_map.1 hc
    rw [PageTable.record_blank]
    rfl
  all_goals rw [hnil, List.nil_append, List.nil_append]
  · intro b hb
    obtain ⟨i, -, rfl⟩ := List.mem_map.1 hb
    exact Nat.one_dvd _
  · intro b hb
    obtain ⟨i, -, rfl⟩ := List.mem_map.1 hb
    exact Nat.zero_le _
  · rw [List.flatMap_map]
    exact .of_eq (List.flatMap_singleton' (List.range a.pages))

theorem init_eq {a : Arena} (ha : a.Sound) :
    ∃ b, Buddy.init (.blank a) = .ok b ∧ b.Keeps (initialListing a) [] [] ∧ b.arena = a ∧
      ∀ i, (b.table.record i).flags.slab = false := by
  have hblank := keeps_blank ha
  rw [← List.append_nil ((List.range a.pages).map (Block.mk · 0))] at hblank
  obtain ⟨b, hrun, hkeeps, hkin⟩ := hblank.giveBackAll
  refine ⟨b, hrun, hkeeps, hkin.arena, fun i => ?_⟩
  rw [hkin.slab, PageTable.record_blank]
  rfl

end Buddy
end BuddySlab
