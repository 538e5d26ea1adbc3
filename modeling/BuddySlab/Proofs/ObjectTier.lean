import BuddySlab.Proofs.SlabPage

/-!
The object tier on lists. A cache is a chain of slabs, newest first, each linked through its header
to the one made before it. Popping takes the top off the first stack that is not empty, releasing
puts an object back on the stack of its page, and growing puts a new slab in front. Writing what no
slab keeps for itself leaves the chain as it is.
-/

namespace BuddySlab

/-- A slab by the number of its page, with the numbers of its free objects from the top on. -/
structure Sheet where
  page : Nat
  stack : List Nat
  deriving DecidableEq, Repr

namespace Sheet
variable {sheets : List Sheet} {page i : Nat} {f : List Nat → List Nat}

def restack (page : Nat) (f : List Nat → List Nat) (s : Sheet) : Sheet :=
  if s.page = page then ⟨s.page, f s.stack⟩ else s

/-- The page and the number of the object that the next pop takes. -/
def first? (sheets : List Sheet) : Option (Nat × Nat) :=
  sheets.findSome? fun s => s.stack.head?.map (s.page, ·)

@[simp]
theorem restack_page (page : Nat) (f : List Nat → List Nat) (s : Sheet) :
    (s.restack page f).page = s.page := by
  rw [restack]
  split <;> rfl

theorem restack_of_ne {s : Sheet} (h : s.page ≠ page) : s.restack page f = s :=
  if_neg h

theorem map_restack_page : (sheets.map (restack page f)).map Sheet.page = sheets.map Sheet.page := by
  rw [List.map_map]
  exact List.map_congr_left fun s _ => restack_page page f s

theorem first?_eq_none : first? sheets = none ↔ ∀ s ∈ sheets, s.stack = [] := by
  simp [first?]

theorem first?_eq_some (h : first? sheets = some (page, i)) :
    ∃ rest, ⟨page, i :: rest⟩ ∈ sheets := by
  obtain ⟨s, hs, hsome⟩ := List.exists_of_findSome?_eq_some h
  obtain ⟨j, hj, hpair⟩ := Option.map_eq_some_iff.1 hsome
  obtain ⟨rfl, rfl⟩ := Prod.mk.inj hpair
  obtain ⟨rest, hrest⟩ := List.head?_eq_some_iff.1 hj
  refine ⟨rest, ?_⟩
  rw [← hrest]
  exact hs

/-- All slabs before the one that the next pop takes from are full. -/
theorem first?_split (h : first? sheets = some (page, i)) :
    ∃ before rest after, sheets = before ++ ⟨page, i :: rest⟩ :: after ∧
      ∀ s ∈ before, s.stack = [] := by
  induction sheets with
  | nil => cases h
  | cons s sheets ih =>
      cases hstack : s.stack with
      | nil =>
          have hrest : first? sheets = some (page, i) := by simpa [first?, hstack] using h
          obtain ⟨before, rest, after, rfl, hbefore⟩ := ih hrest
          exact ⟨s :: before, rest, after, rfl, List.forall_mem_cons.2 ⟨hstack, hbefore⟩⟩
      | cons j rest =>
          obtain ⟨rfl, rfl⟩ : s.page = page ∧ j = i := by simpa [first?, hstack] using h
          refine ⟨[], rest, sheets, ?_, List.forall_mem_nil _⟩
          rw [List.nil_append, ← hstack]

/-- Only the slab of the page gets another stack. -/
theorem map_restack_split {before after : List Sheet} {stack : List Nat}
    (hnodup : ((before ++ ⟨page, stack⟩ :: after).map Sheet.page).Nodup) :
    (before ++ ⟨page, stack⟩ :: after).map (restack page f) =
      before ++ ⟨page, f stack⟩ :: after := by
  rw [List.map_append, List.map_cons] at hnodup
  have hfresh := (List.nodup_cons.1 (List.perm_middle.nodup_iff.1 hnodup)).1
  have hkeep {sheets : List Sheet} (h : page ∉ sheets.map Sheet.page) :
      sheets.map (restack page f) = sheets := by
    rw [← List.map_id' sheets, List.map_map]
    exact List.map_congr_left fun s hs => restack_of_ne fun hpage =>
      h (hpage ▸ List.mem_map_of_mem hs)
  rw [List.map_append, List.map_cons, restack, if_pos rfl,
    hkeep fun hmem => hfresh (List.mem_append_left _ hmem),
    hkeep fun hmem => hfresh (List.mem_append_right _ hmem)]

end Sheet

namespace Cache
open Slab
variable {a : Arena} {m m' : Memory} {size limit : Nat} {sheets : List Sheet}

/-- What a cache keeps as its newest slab. -/
def chainHead (a : Arena) : List Sheet → Nat
  | [] => 0
  | s :: _ => a.pageAddress s.page

/-- The headers link the slabs in this order, and each shows its stack. -/
def Linked (a : Arena) (m : Memory) (size : Nat) : List Sheet → Prop
  | [] => True
  | s :: rest =>
      Shows m (a.pageAddress s.page) size (chainHead a rest) s.stack ∧ Linked a m size rest

/-- The memory holds this chain of slabs, all of them on pages of the payload of their own. -/
structure Chain (a : Arena) (m : Memory) (size : Nat) (sheets : List Sheet) : Prop where
  fits : Fits size
  linked : Linked a m size sheets
  page_lt : ∀ s ∈ sheets, s.page < a.pages
  nodup : (sheets.map Sheet.page).Nodup

theorem chainHead_lt (ha : a.Sound) (h : ∀ s ∈ sheets, s.page < a.pages) :
    chainHead a sheets < 2 ^ 64 := by
  cases sheets with
  | nil => exact Nat.two_pow_pos 64
  | cons s rest =>
      have := ha.page_lt (h s List.mem_cons_self)
      exact Nat.lt_of_le_of_lt (Nat.le_add_right _ _) this

theorem chainHead_map {f : Sheet → Sheet} (hpage : ∀ s, (f s).page = s.page) :
    chainHead a (sheets.map f) = chainHead a sheets := by
  cases sheets with
  | nil => rfl
  | cons s rest => exact congrArg a.pageAddress (hpage s)

theorem Linked.shows (h : Linked a m size sheets) {s : Sheet} (hs : s ∈ sheets) :
    ∃ link, Shows m (a.pageAddress s.page) size link s.stack := by
  induction sheets with
  | nil => cases hs
  | cons t rest ih =>
      cases hs with
      | head => exact ⟨_, h.1⟩
      | tail _ hs => exact ih h.2 hs

/-- Only bytes of another page are written. -/
theorem shows_congr_page {page other link : Nat} {stack : List Nat} (hs : Fits size)
    (h : Shows m (a.pageAddress page) size link stack) (hne : page ≠ other)
    (hframe : ∀ x, (x < a.pageAddress other ∨ a.pageAddress other + pageSize ≤ x) →
      m'.read x = m.read x) : Shows m' (a.pageAddress page) size link stack := by
  refine h.congr fun x hx => hframe x ?_
  have hin := hx.mem_page hs h.lt_slots
  have hapart := a.pageAddress_apart hne
  omega

theorem Linked.map (h : Linked a m size sheets) {f : Sheet → Sheet}
    (hpage : ∀ s, (f s).page = s.page)
    (hshows : ∀ s ∈ sheets, ∀ link, Shows m (a.pageAddress s.page) size link s.stack →
      Shows m' (a.pageAddress s.page) size link (f s).stack) :
    Linked a m' size (sheets.map f) := by
  induction sheets with
  | nil => trivial
  | cons s rest ih =>
      refine ⟨?_, ih h.2 fun t ht => hshows t (List.mem_cons_of_mem s ht)⟩
      rw [chainHead_map hpage, hpage]
      exact hshows s List.mem_cons_self _ h.1

namespace Chain

theorem nil (hs : Fits size) : Chain a m size [] :=
  ⟨hs, trivial, List.forall_mem_nil _, List.nodup_nil⟩

theorem tail {s : Sheet} (h : Chain a m size (s :: sheets)) : Chain a m size sheets :=
  ⟨h.fits, h.linked.2, fun t ht => h.page_lt t (List.mem_cons_of_mem s ht),
    (List.nodup_cons.1 h.nodup).2⟩

theorem congr (h : Chain a m size sheets)
    (hsame : ∀ s ∈ sheets, ∀ x, Reserved (a.pageAddress s.page) size s.stack x →
      m'.read x = m.read x) : Chain a m' size sheets := by
  refine { h with linked := ?_ }
  rw [← List.map_id' sheets]
  exact h.linked.map (fun _ => rfl) fun s hs link hshows => hshows.congr (hsame s hs)

theorem congr_page (h : Chain a m size sheets) {page : Nat} (hpage : page ∉ sheets.map Sheet.page)
    (hframe : ∀ x, (x < a.pageAddress page ∨ a.pageAddress page + pageSize ≤ x) →
      m'.read x = m.read x) : Chain a m' size sheets := by
  refine { h with linked := ?_ }
  rw [← List.map_id' sheets]
  refine h.linked.map (fun _ => rfl) fun s hs link hshows => ?_
  refine shows_congr_page h.fits hshows (fun heq => hpage ?_) hframe
  exact heq ▸ List.mem_map_of_mem hs

/-- One slab gets another stack. -/
theorem restack (h : Chain a m size sheets) {s : Sheet} (hs : s ∈ sheets)
    {f : List Nat → List Nat}
    (hshows : ∀ link, Shows m (a.pageAddress s.page) size link s.stack →
      Shows m' (a.pageAddress s.page) size link (f s.stack))
    (hframe : ∀ x, (x < a.pageAddress s.page ∨ a.pageAddress s.page + pageSize ≤ x) →
      m'.read x = m.read x) : Chain a m' size (sheets.map (Sheet.restack s.page f)) := by
  refine ⟨h.fits, ?_, fun t ht => ?_, Sheet.map_restack_page.symm ▸ h.nodup⟩
  · refine h.linked.map (Sheet.restack_page s.page f) fun t ht link hold => ?_
    by_cases hpage : t.page = s.page
    · obtain rfl := List.inj_on_of_nodup_map h.nodup ht hs hpage
      rw [Sheet.restack, if_pos rfl]
      exact hshows link hold
    · rw [Sheet.restack_of_ne hpage]
      exact shows_congr_page h.fits hold hpage hframe
  · obtain ⟨t', ht', rfl⟩ := List.mem_map.1 ht
    rw [Sheet.restack_page]
    exact h.page_lt t' ht'

theorem length_le (h : Chain a m size sheets) : sheets.length ≤ a.pages := by
  rw [← List.length_map (f := Sheet.page)]
  exact length_le_of_nodup h.nodup (List.forall_mem_map.2 h.page_lt)

theorem chain_eq (ha : a.Sound) (h : Chain a m size sheets) (hlimit : sheets.length ≤ limit) :
    chain m (chainHead a sheets) limit = sheets.map fun s => a.pageAddress s.page := by
  induction sheets generalizing limit with
  | nil => cases limit <;> simp [chain, chainHead]
  | cons s rest ih =>
      obtain ⟨limit, rfl⟩ := Nat.exists_eq_add_of_le' (Nat.le_trans (Nat.le_add_left 1 _) hlimit)
      rw [chainHead, chain, if_neg (Nat.ne_of_gt (ha.pageAddress_pos _)), h.linked.1.next_eq,
        ih h.tail (Nat.le_of_succ_le_succ hlimit), List.map_cons]

/-- The search stops at the first stack that is not empty. -/
theorem popFrom_eq (ha : a.Sound) (h : Chain a m size sheets) (hlimit : sheets.length ≤ limit) :
    popFrom m (chainHead a sheets) limit =
      match Sheet.first? sheets with
      | none => .ok (none, m)
      | some (page, _) => pop m (a.pageAddress page) := by
  induction sheets generalizing limit with
  | nil => cases limit <;> simp [popFrom, chainHead, Sheet.first?]
  | cons s rest ih =>
      obtain ⟨limit, rfl⟩ := Nat.exists_eq_add_of_le' (Nat.le_trans (Nat.le_add_left 1 _) hlimit)
      have hshows := h.linked.1
      rw [chainHead, popFrom, if_neg (Nat.ne_of_gt (ha.pageAddress_pos _))]
      cases hstack : s.stack with
      | nil =>
          rw [hstack] at hshows
          have hfirst : Sheet.first? (s :: rest) = Sheet.first? rest := by
            simp [Sheet.first?, hstack]
          rw [hshows.pop_nil, ok_bind, hfirst]
          simp only [hshows.next_eq]
          exact ih h.tail (Nat.le_of_succ_le_succ hlimit)
      | cons i stack =>
          rw [hstack] at hshows
          have hfirst : Sheet.first? (s :: rest) = some (s.page, i) := by
            simp [Sheet.first?, hstack]
          obtain ⟨m', hpop, -⟩ := hshows.pop_cons h.fits (ha.page_lt (h.page_lt s List.mem_cons_self))
          rw [hfirst]
          simp only [hpop, ok_bind, pure_eq_ok]

theorem popFirst (ha : a.Sound) (h : Chain a m size sheets) (hlimit : sheets.length ≤ limit) :
    (Sheet.first? sheets = none ∧ popFrom m (chainHead a sheets) limit = .ok (none, m)) ∨
      ∃ page i m', Sheet.first? sheets = some (page, i) ∧
        popFrom m (chainHead a sheets) limit = .ok (some (slot (a.pageAddress page) size i), m') ∧
        Chain a m' size (sheets.map (Sheet.restack page List.tail)) ∧
        ∀ x, (x < a.pageAddress page ∨ a.pageAddress page + headerSize ≤ x) →
          m'.read x = m.read x := by
  rw [h.popFrom_eq ha hlimit]
  cases hfirst : Sheet.first? sheets with
  | none => exact .inl ⟨rfl, rfl⟩
  | some found =>
      obtain ⟨page, i⟩ := found
      obtain ⟨rest, hs⟩ := Sheet.first?_eq_some hfirst
      have hpage := ha.page_lt (h.page_lt _ hs)
      obtain ⟨link, hshows⟩ := h.linked.shows hs
      obtain ⟨m', hpop, -, hframe⟩ := hshows.pop_cons h.fits hpage
      refine .inr ⟨page, i, m', rfl, hpop, h.restack hs (fun link hold => ?_) fun x hx => ?_, hframe⟩
      · obtain ⟨m'', hpop', hshows', -⟩ := hold.pop_cons h.fits hpage
        rw [hpop, Except.ok.injEq, Prod.mk.injEq] at hpop'
        exact hpop'.2 ▸ hshows'
      · exact hframe x (outside_header hx)

theorem release (ha : a.Sound) (h : Chain a m size sheets) {s : Sheet} (hs : s ∈ sheets) {i : Nat}
    (hi : i < slots size) (hfresh : i ∉ s.stack) :
    ∃ m', Slab.release m (slot (a.pageAddress s.page) size i) = .ok m' ∧
      Chain a m' size (sheets.map (Sheet.restack s.page (i :: ·))) ∧
      ∀ x, (x < a.pageAddress s.page ∨ a.pageAddress s.page + headerSize ≤ x) →
        (x < slot (a.pageAddress s.page) size i ∨
          slot (a.pageAddress s.page) size i + minObjectSize ≤ x) → m'.read x = m.read x := by
  have hpage := ha.page_lt (h.page_lt s hs)
  obtain ⟨link, hshows⟩ := h.linked.shows hs
  obtain ⟨m', hpush, -, hframe⟩ := hshows.push h.fits hpage hi hfresh
  refine ⟨m', ?_, h.restack hs (fun link hold => ?_) fun x hx => hframe x ?_ ?_, hframe⟩
  · rw [Slab.release, h.fits.containing_slot (ha.dvd_pageAddress _) hpage hi, hpush]
  · obtain ⟨m'', hpush', hshows', -⟩ := hold.push h.fits hpage hi hfresh
    rw [hpush, Except.ok.injEq] at hpush'
    exact hpush' ▸ hshows'
  · exact outside_header hx
  · have hwithin := h.fits.slot_within (a.pageAddress s.page) hi
    have hword := h.fits.word_le
    omega

/-- A new slab hands out its lowest object. -/
theorem grow (ha : a.Sound) (h : Chain a m size sheets) {k page : Nat} (hk : size = 2 ^ k)
    (hlt : page < a.pages) (hfresh : page ∉ sheets.map Sheet.page) :
    ∃ m', Cache.grow ⟨size, chainHead a sheets⟩ m (a.pageAddress page) =
        .ok (slot (a.pageAddress page) size 0, ⟨size, a.pageAddress page⟩, m') ∧
      Chain a m' size (⟨page, (List.range (slots size)).tail⟩ :: sheets) ∧
      ∀ x, ¬Reserved (a.pageAddress page) size (List.range (slots size)) x →
        m'.read x = m.read x := by
  have hpage := ha.page_lt hlt
  obtain ⟨m₁, hformat, hshows₁, hframe₁⟩ :=
    format_eq m h.fits hk (ha.dvd_pageAddress page) hpage
  have hshows₁' := hshows₁
  rw [h.fits.range_slots] at hshows₁'
  obtain ⟨m₂, hpop, hshows₂, hframe₂⟩ := hshows₁'.pop_cons h.fits hpage
  have hshows := hshows₂.relink h.fits (chainHead_lt ha h.page_lt)
  have hframe (x : Nat) (hx : ¬Reserved (a.pageAddress page) size (List.range (slots size)) x) :
      (m₂.writeWord (nextField (a.pageAddress page)) (chainHead a sheets)).read x = m.read x := by
    have hout : ¬(a.pageAddress page ≤ x ∧ x < a.pageAddress page + headerSize) :=
      fun hin => hx (.inl hin)
    simp only [headerSize] at hout
    rw [Memory.read_writeWord_of_outside _ _ _ _ (by simp only [nextField]; omega),
      hframe₂ x (by simp only [headerSize]; omega), hframe₁ x hx]
  refine ⟨m₂.writeWord (nextField (a.pageAddress page)) (chainHead a sheets), ?_,
    ⟨h.fits, ⟨hshows, ?_⟩, ?_, List.nodup_cons.2 ⟨hfresh, h.nodup⟩⟩, hframe⟩
  · simp only [Cache.grow, Cache.publish, hformat, ok_bind, hpop, pure_eq_ok]
  · refine (h.congr_page hfresh fun x hx => hframe x fun hin => ?_).linked
    have hin := hin.mem_page h.fits hshows₁.lt_slots
    omega
  · intro s hs
    cases hs with
    | head => exact hlt
    | tail _ hs => exact h.page_lt s hs

end Chain
end Cache
end BuddySlab
