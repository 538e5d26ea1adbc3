import BuddySlab.Proofs.Layout
import BuddySlab.Proofs.Oblivious

/-!
Where a range lies does not matter, up to multiples of the largest block. Pairs of blocks are found
by flipping bits of addresses, but only bits below those that such a move changes, so the tiers do
the same with the same page numbers: two pools of ranges that lie so depict one chart, and whatever
is granted, listed or stacked at one address in the first is at the moved address in the second.
-/

namespace BuddySlab

/-- The second address lies `d` behind the first. -/
def Offset (d : Int) (x y : Nat) : Prop :=
  (y : Int) = x + d

structure Extent.Shifted (d : Int) (e f : Extent) : Prop where
  address : Offset d e.address f.address
  size : f.size = e.size

theorem Extent.Shifted.unique {d : Int} {e f g : Extent} (hf : e.Shifted d f)
    (hg : e.Shifted d g) : f = g := by
  cases f
  cases g
  rw [Extent.mk.injEq]
  exact ⟨Int.ofNat.inj (hf.address.trans hg.address.symm), hf.size.trans hg.size.symm⟩

theorem Extent.Shifted.symm {d : Int} {e f : Extent} (h : e.Shifted d f) : f.Shifted (-d) e := by
  refine ⟨?_, h.size.symm⟩
  have hoffset := h.address
  simp only [Offset] at hoffset ⊢
  omega

structure Pile.Shifted (d : Int) (p q : Pile) : Prop where
  page : Offset d p.page q.page
  stack : List.Forall₂ (Offset d) p.stack q.stack

structure Arena.Shifted (d : Int) (a a' : Arena) : Prop where
  tableStart : Offset d a.tableStart a'.tableStart
  payloadStart : Offset d a.payloadStart a'.payloadStart
  stop : Offset d a.stop a'.stop
  pages : a'.pages = a.pages

/-- The same refusal, or addresses that lie apart by the move. -/
inductive Reply.Shifted (d : Int) : Reply → Reply → Prop
  | granted {x y : Nat} (hoffset : Offset d x y) : Shifted d (.answer (.ok x)) (.answer (.ok y))
  | refused (refusal : Refusal) :
      Shifted d (.answer (.error refusal)) (.answer (.error refusal))
  | done : Shifted d .done .done

/-! ### The same page numbers -/

theorem xor_two_pow_add {k n : Nat} (hk : k < n) (x q : Nat) :
    (x + 2 ^ n * q) ^^^ 2 ^ k = (x ^^^ 2 ^ k) + 2 ^ n * q := by
  have hdiv (y : Nat) : (y ^^^ 2 ^ k) / 2 ^ n = y / 2 ^ n := by
    rw [Nat.xor_div_two_pow, Nat.div_eq_of_lt (Nat.pow_lt_pow_right (by decide) hk), Nat.xor_zero]
  have hmod : ((x + 2 ^ n * q) ^^^ 2 ^ k) % 2 ^ n = (x ^^^ 2 ^ k) % 2 ^ n := by
    rw [Nat.xor_mod_two_pow, Nat.xor_mod_two_pow, Nat.add_mul_mod_self_left]
  calc (x + 2 ^ n * q) ^^^ 2 ^ k
      = 2 ^ n * (((x + 2 ^ n * q) ^^^ 2 ^ k) / 2 ^ n) + ((x + 2 ^ n * q) ^^^ 2 ^ k) % 2 ^ n :=
        (Nat.div_add_mod _ _).symm
    _ = 2 ^ n * (x / 2 ^ n + q) + (x ^^^ 2 ^ k) % 2 ^ n := by
        rw [hdiv, hmod, Nat.add_mul_div_left x q (Nat.two_pow_pos n)]
    _ = 2 ^ n * ((x ^^^ 2 ^ k) / 2 ^ n) + (x ^^^ 2 ^ k) % 2 ^ n + 2 ^ n * q := by
        rw [hdiv, Nat.mul_add, Nat.add_right_comm]
    _ = (x ^^^ 2 ^ k) + 2 ^ n * q := by rw [Nat.div_add_mod]

/-- Whether blocks are a pair is decided by the low bits of the payload's first page number. -/
theorem paired_mod {base k i j : Nat} (hk : k < maxOrder) :
    Paired base k i j ↔ Paired (base % 2 ^ maxOrder) k i j := by
  have hbase := Nat.mod_add_div base (2 ^ maxOrder)
  generalize base % 2 ^ maxOrder = low, base / 2 ^ maxOrder = high at hbase ⊢
  rw [← hbase, Paired, Nat.add_right_comm low _ j, Nat.add_right_comm low _ i, xor_two_pow_add hk,
    Nat.add_right_cancel_iff]
  rfl

namespace Listing
variable {base base' : Nat}

theorem merge_mod (l : Listing) (base i k : Nat) {rounds : Nat} (hrounds : rounds ≤ maxOrder - k) :
    l.merge base i k rounds = l.merge (base % 2 ^ maxOrder) i k rounds := by
  induction rounds generalizing l i k with
  | zero => rfl
  | succ rounds ih =>
      have hpair (j : Nat) : Paired base k i j ↔ Paired (base % 2 ^ maxOrder) k i j :=
        paired_mod (by omega)
      have hpartner : l.partner? base i k = l.partner? (base % 2 ^ maxOrder) i k := by
        simp only [partner?, hpair]
      rw [merge, merge, hpartner]
      cases l.partner? (base % 2 ^ maxOrder) i k with
      | none => rfl
      | some j => exact ih _ _ _ (by omega)

theorem give_congr (h : base' % 2 ^ maxOrder = base % 2 ^ maxOrder) (l : Listing) (i k : Nat) :
    l.give base' i k = l.give base i k := by
  rw [give, give, merge_mod l base' i k (Nat.le_refl _), merge_mod l base i k (Nat.le_refl _), h]

end Listing

theorem Chart.release_congr {base base' : Nat} (h : base' % 2 ^ maxOrder = base % 2 ^ maxOrder)
    (c : Chart) (x : Item) : c.release base' x = c.release base x := by
  cases x with
  | block b => rw [release, release, Listing.give_congr h]
  | object i page number => rfl

theorem Chart.initial_congr {a a' : Arena} (h : a'.base % 2 ^ maxOrder = a.base % 2 ^ maxOrder)
    (hpages : a'.pages = a.pages) : initial a' = initial a := by
  simp only [initial, Buddy.initialListing, hpages, Listing.give_congr h]

/-! ### Moved addresses -/

theorem forall₂_map_of_forall {α β : Type} {R : β → β → Prop} {f g : α → β}
    (h : ∀ x, R (f x) (g x)) (l : List α) : List.Forall₂ R (l.map f) (l.map g) := by
  rw [List.forall₂_map_left_iff, List.forall₂_map_right_iff, List.forall₂_same]
  exact fun x _ => h x

namespace Arena
variable {a a' : Arena} {d : Int}

theorem Shifted.base_mod (h : a.Shifted d a') (ha : a.Sound) (ha' : a'.Sound)
    (hd : (maxBlockSize : Int) ∣ d) : a'.base % 2 ^ maxOrder = a.base % 2 ^ maxOrder := by
  have hoffset := h.payloadStart
  rw [Offset, ha.payload_eq, ha'.payload_eq] at hoffset
  obtain ⟨q, rfl⟩ := hd
  simp only [pageSize, maxOrder, maxBlockSize_eq] at hoffset ⊢
  omega

theorem Shifted.pageAddress (h : a.Shifted d a') (i : Nat) :
    Offset d (a.pageAddress i) (a'.pageAddress i) := by
  have hoffset := h.payloadStart
  simp only [Offset, Arena.pageAddress] at hoffset ⊢
  omega

theorem Shifted.slot (h : a.Shifted d a') (page size number : Nat) :
    Offset d (Slab.slot (a.pageAddress page) size number)
      (Slab.slot (a'.pageAddress page) size number) := by
  have hoffset := h.pageAddress page
  simp only [Offset, Slab.slot] at hoffset ⊢
  omega

theorem Shifted.extent (h : a.Shifted d a') (x : Item) :
    (x.extent a).Shifted d (x.extent a') := by
  cases x with
  | block b => exact ⟨h.pageAddress b.first, rfl⟩
  | object i page number => exact ⟨h.slot page _ number, rfl⟩

theorem Shifted.addresses (h : a.Shifted d a') (pages : List Nat) :
    List.Forall₂ (Offset d) (pages.map a.pageAddress) (pages.map a'.pageAddress) :=
  forall₂_map_of_forall h.pageAddress pages

theorem Shifted.pile (h : a.Shifted d a') (size : Nat) (t : Sheet) :
    (t.pile a size).Shifted d (t.pile a' size) :=
  ⟨h.pageAddress t.page, forall₂_map_of_forall (h.slot t.page size) t.stack⟩

theorem Shifted.piles (h : a.Shifted d a') (c : Chart) (i : Fin classSizes.size) :
    List.Forall₂ (Pile.Shifted d) (c.piles a i) (c.piles a' i) :=
  forall₂_map_of_forall (h.pile (classSizes.get i)) (c.sheets i)

/-- Moving a range by whole pages moves the arena, or the range is refused wherever it lies. -/
theorem ofPages_shifted {first last first' last' : Nat} {e : Int} (hfirst : Offset e first first')
    (hlast : Offset e last last') :
    (∃ refusal, ofPages first last = .error refusal ∧ ofPages first' last' = .error refusal) ∨
      ∃ a a', ofPages first last = .ok a ∧ ofPages first' last' = .ok a' ∧
        a.Shifted (pageSize * e) a' := by
  simp only [Offset] at hfirst hlast
  have hnumber : last' - first' = last - first := by omega
  rw [ofPages, ofPages, hnumber]
  generalize tablePages (last - first) = table
  have hpages : last' - (first' + table) = last - (first + table) := by omega
  rw [hpages]
  by_cases hfull : last ≤ first + table
  · exact .inl ⟨_, if_pos hfull, if_pos (by omega)⟩
  by_cases hmany : noPage ≤ last - (first + table)
  · refine .inl ⟨.invalidRange, ?_, ?_⟩
    · rw [if_neg hfull, if_pos hmany]
    · rw [if_neg (by omega), if_pos hmany]
  · refine .inr ⟨_, _, (if_neg hfull).trans (if_neg hmany),
      (if_neg (by omega)).trans (if_neg hmany), ?_, ?_, ?_, rfl⟩
    all_goals simp only [Offset, pageSize]
    all_goals omega

theorem layOut_shifted {start stop start' stop' : Nat} (hd : (maxBlockSize : Int) ∣ d)
    (hstart : Offset d start start') (hstop : Offset d stop stop') (hpos : 0 < start)
    (hpos' : 0 < start') (hstart_lt : start + pageSize < 2 ^ 64) (hstop_lt : stop < 2 ^ 64)
    (hstart_lt' : start' + pageSize < 2 ^ 64) (hstop_lt' : stop' < 2 ^ 64) :
    (∃ refusal, layOut start stop = .ok (.error refusal) ∧
        layOut start' stop' = .ok (.error refusal)) ∨
      ∃ a a', layOut start stop = .ok (.ok a) ∧ layOut start' stop' = .ok (.ok a') ∧
        a.Shifted d a' := by
  obtain ⟨q, rfl⟩ := hd
  have hpages : (pageSize : Int) * (2 ^ maxOrder * q) = (maxBlockSize : Int) * q := by
    simp only [pageSize, maxOrder, maxBlockSize_eq]
    omega
  have hfirst : Offset (2 ^ maxOrder * q) ((start + (pageSize - 1)) / pageSize)
      ((start' + (pageSize - 1)) / pageSize) := by
    simp only [Offset, pageSize, maxOrder, maxBlockSize_eq] at hstart ⊢
    omega
  have hlast : Offset (2 ^ maxOrder * q) (stop / pageSize) (stop' / pageSize) := by
    simp only [Offset, pageSize, maxOrder, maxBlockSize_eq] at hstop ⊢
    omega
  rw [layOut_eq hpos hstart_lt hstop_lt, layOut_eq hpos' hstart_lt' hstop_lt']
  cases ofPages_shifted hfirst hlast with
  | inl hrefused =>
      obtain ⟨refusal, hrefused, hrefused'⟩ := hrefused
      exact .inl ⟨refusal, congrArg Except.ok hrefused, congrArg Except.ok hrefused'⟩
  | inr hlaid =>
      obtain ⟨a, a', hlaid, hlaid', hshifted⟩ := hlaid
      exact .inr ⟨a, a', congrArg Except.ok hlaid, congrArg Except.ok hlaid', hpages ▸ hshifted⟩

end Arena

/-! ### One chart of two pools -/

namespace Ledger
variable {s s' : Ledger} {c : Chart}

/-- A request is refused at both, or the same item is granted at both. -/
inductive GrantsAlike (s s' : Ledger) (n : Nat)
    (run run' : Except Fault (Except Refusal Nat × Pool × List Event)) : Prop
  | refused (refusal : Refusal) (events events' : List Event)
      (hrun : run = .ok (.error refusal, s.pool, events))
      (hrun' : run' = .ok (.error refusal, s'.pool, events'))
  | granted (x : Item) (c' : Chart) (p p' : Pool) (events events' : List Event)
      (hround : roundSize n = .ok (x.extent s.pool.arena).size)
      (hrun : run = .ok (.ok (x.extent s.pool.arena).address, p, events))
      (hrun' : run' = .ok (.ok (x.extent s'.pool.arena).address, p', events'))
      (hcharts : Charts ⟨p, x.extent s.pool.arena :: s.held⟩ c')
      (hcharts' : Charts ⟨p', x.extent s'.pool.arena :: s'.held⟩ c')
      (harena : p.arena = s.pool.arena) (harena' : p'.arena = s'.pool.arena)

theorem Charts.allocate_alike (h : s.Charts c) (h' : s'.Charts c) (n : Nat) :
    GrantsAlike s s' n (s.pool.allocate n) (s'.pool.allocate n) := by
  cases hround : roundSize n with
  | error refusal =>
      exact .refused refusal [] [] (by rw [Pool.allocate, hround]) (by rw [Pool.allocate, hround])
  | ok rounded =>
      obtain ⟨-, g, rfl⟩ := exists_grade hround
      cases h.depicts.allocate hround with
      | refused hnone hrun =>
          cases h'.depicts.allocate hround with
          | refused _ hrun' => exact .refused _ _ _ hrun hrun'
          | granted x c' p' hsome' => cases hnone.symm.trans hsome'
      | granted x c' p hsome hrun hbecomes =>
          cases h'.depicts.allocate hround with
          | refused hnone' => cases hnone'.symm.trans hsome
          | granted x' c'' p' hsome' hrun' hbecomes' =>
              cases hsome.symm.trans hsome'
              exact .granted x c' p p' _ _ (by rw [hround, Chart.size_of_grant hsome]) hrun hrun'
                (h.grant hsome hbecomes) (h'.grant hsome hbecomes') hbecomes.arena hbecomes'.arena

theorem Charts.allocateZeroed_alike (h : s.Charts c) (h' : s'.Charts c) (n : Nat) :
    GrantsAlike s s' n (s.pool.allocateZeroed n) (s'.pool.allocateZeroed n) := by
  cases h.allocate_alike h' n with
  | refused refusal events events' hrun hrun' =>
      exact .refused refusal events events' (Pool.allocateZeroed_of_refused hrun)
        (Pool.allocateZeroed_of_refused hrun')
  | granted x c' p p' events events' hround hrun hrun' hcharts hcharts' harena harena' =>
      have hle := (exists_grade hround).1
      have hle' : n ≤ (x.extent s'.pool.arena).size := by
        cases x <;> exact hle
      exact .granted x c' (p.fill _ n 0) (p'.fill _ n 0) events events' hround
        (Pool.allocateZeroed_of_granted hrun) (Pool.allocateZeroed_of_granted hrun')
        (hcharts.fill List.mem_cons_self hle 0) (hcharts'.fill List.mem_cons_self hle' 0)
        harena harena'

end Ledger

namespace Register

/-- The same number, and an extent that is moved. -/
def ShiftedHold (d : Int) (x x' : Nat × Extent) : Prop :=
  x'.1 = x.1 ∧ x.2.Shifted d x'.2

/-- All that is held, listed or stacked at one is at the moved address at the other, and whatever is
counted or measured is the same. -/
structure Shifted (d : Int) (r r' : Register) : Prop where
  asked : r'.asked = r.asked
  held : List.Forall₂ (ShiftedHold d) r.held r'.held
  arena : r.pool.arena.Shifted d r'.pool.arena
  free : ∀ order limit, ∃ l l', r.pool.buddy.freeBlocks order limit = .ok l ∧
    r'.pool.buddy.freeBlocks order limit = .ok l' ∧ List.Forall₂ (Offset d) l l'
  counts : r'.pool.buddy.freeCounts = r.pool.buddy.freeCounts
  bytes : ∃ bytes, r.pool.buddy.freeBytes = .ok bytes ∧ r'.pool.buddy.freeBytes = .ok bytes
  stacked : ∃ piles piles', r.ledger.Stacks piles ∧ r'.ledger.Stacks piles' ∧
    ∀ i, List.Forall₂ (Pile.Shifted d) (piles i) (piles' i)
  usable : ∀ e ∈ r.extents, r.pool.usableSize e.address = .ok e.size
  usable' : ∀ e ∈ r'.extents, r'.pool.usableSize e.address = .ok e.size

def ShiftedStep (d : Int) (x x' : Reply × Register) : Prop :=
  x.1.Shifted d x'.1 ∧ x.2.Shifted d x'.2

/-- Runs of the same requests from these two registers answer and lead to the same, moved, at every
step, and whatever may be asked for next goes through at both. -/
def Lockstep (d : Int) (r r' : Register) : Prop :=
  ∀ requests trace trace' s s', Runs r requests trace s → Runs r' requests trace' s' →
    List.Forall₂ (ShiftedStep d) trace trace' ∧ s.Shifted d s' ∧
    ∀ request, (s'.Admits request ↔ s.Admits request) ∧ (s.Admits request →
      ∃ x x', s.Serves request x.1 x.2 ∧ s'.Serves request x'.1 x'.2 ∧ ShiftedStep d x x')

/-- The arena and what is held are moved, and both pools depict one chart. -/
structure Abreast (d : Int) (r r' : Register) : Prop where
  asked : r'.asked = r.asked
  held : List.Forall₂ (ShiftedHold d) r.held r'.held
  arena : r.pool.arena.Shifted d r'.pool.arena
  chart : ∃ c, r.ledger.Charts c ∧ r'.ledger.Charts c

variable {d : Int} {r r' s s' : Register} {request : Request} {number : Nat} {e : Extent}

/-- What is held under a number is held, moved, under the same number, and may be released at both.
-/
theorem lookup_shifted {held held' : List (Nat × Extent)}
    (h : List.Forall₂ (ShiftedHold d) held held') (hlookup : held.lookup number = some e) :
    ∃ e', held'.lookup number = some e' ∧ e.Shifted d e' ∧
      List.Forall₂ (ShiftedHold d) (held.erase (number, e)) (held'.erase (number, e')) := by
  induction h with
  | nil => cases hlookup
  | @cons x x' rest rest' hx hrest ih =>
      obtain ⟨n, f⟩ := x
      obtain ⟨n', f'⟩ := x'
      obtain ⟨rfl, hshifted⟩ : n' = n ∧ f.Shifted d f' := hx
      by_cases hn : number = n'
      · subst hn
        rw [List.lookup_cons_self, Option.some.injEq] at hlookup
        subst hlookup
        refine ⟨f', List.lookup_cons_self, hshifted, ?_⟩
        rwa [List.erase_cons_head, List.erase_cons_head]
      · have hne (g g' : Extent) : ¬((n', g) == (number, g')) = true := by
          simp [Ne.symm hn]
        have hkey : (number == n') = false := beq_false_of_ne hn
        rw [List.lookup_cons, hkey] at hlookup
        obtain ⟨e', hlookup', he', herase⟩ := ih hlookup
        refine ⟨e', by rw [List.lookup_cons, hkey]; exact hlookup', he', ?_⟩
        rw [List.erase_cons_tail (hne f e), List.erase_cons_tail (hne f' e')]
        exact .cons ⟨rfl, hshifted⟩ herase

theorem admits_of_shifted (h : List.Forall₂ (ShiftedHold d) r.held r'.held)
    (hadmits : r.Admits request) : r'.Admits request := by
  cases request with
  | free number =>
      obtain ⟨e, hlookup⟩ := hadmits
      obtain ⟨e', hlookup', -⟩ := lookup_shifted h hlookup
      exact ⟨e', hlookup'⟩
  | _ => trivial

theorem held_symm {held held' : List (Nat × Extent)}
    (h : List.Forall₂ (ShiftedHold d) held held') :
    List.Forall₂ (ShiftedHold (-d)) held' held :=
  (h.imp fun _ _ hx => ⟨hx.1.symm, hx.2.symm⟩).flip

namespace Abreast

theorem admits_iff (h : Abreast d r r') : r'.Admits request ↔ r.Admits request :=
  ⟨admits_of_shifted (held_symm h.held), admits_of_shifted h.held⟩

theorem shifted (h : Abreast d r r') : r.Shifted d r' := by
  obtain ⟨c, hcharts, hcharts'⟩ := h.chart
  have hcounts : r'.pool.buddy.freeCounts = r.pool.buddy.freeCounts :=
    Vector.toList_inj.1 (hcharts'.depicts.keeps.threads.freeCounts_eq.trans
      hcharts.depicts.keeps.threads.freeCounts_eq.symm)
  obtain ⟨bytes, hbytes, -⟩ := hcharts.conserved
  have hbytes' : r'.pool.buddy.freeBytes = .ok bytes := by
    rw [Buddy.freeBytes, hcounts]
    exact hbytes
  exact ⟨h.asked, h.held, h.arena,
    fun order limit => ⟨_, _, hcharts.depicts.keeps.freeBlocks_take,
      hcharts'.depicts.keeps.freeBlocks_take, h.arena.addresses _⟩,
    hcounts, ⟨bytes, hbytes, hbytes'⟩,
    ⟨_, _, hcharts.stacked, hcharts'.stacked, h.arena.piles c⟩,
    fun _ he => hcharts.usableSize_eq he, fun _ he => hcharts'.usableSize_eq he⟩

theorem writes (h : Abreast d r r') (hwrites : r.Writes s) (hwrites' : r'.Writes s') :
    Abreast d s s' := by
  obtain ⟨c, hcharts, hcharts'⟩ := h.chart
  cases hwrites with
  | mk hm =>
      cases hwrites' with
      | mk hm' => exact ⟨h.asked, h.held, h.arena, c, hcharts.rewrite hm, hcharts'.rewrite hm'⟩

theorem granted {n : Nat} {x : Item} {c : Chart} {p p' : Pool} (h : Abreast d r r')
    (hround : roundSize n = .ok (x.extent r.pool.arena).size)
    (hcharts : Ledger.Charts ⟨p, x.extent r.pool.arena :: r.extents⟩ c)
    (hcharts' : Ledger.Charts ⟨p', x.extent r'.pool.arena :: r'.extents⟩ c)
    (harena : p.arena = r.pool.arena) (harena' : p'.arena = r'.pool.arena) :
    Abreast d (r.answered n (.ok (x.extent r.pool.arena).address) p)
      (r'.answered n (.ok (x.extent r'.pool.arena).address) p') := by
  have hextent := h.arena.extent x
  have hround' : roundSize n = .ok (x.extent r'.pool.arena).size := hextent.size ▸ hround
  refine ⟨congrArg Nat.succ h.asked, ?_, ?_, c, ?_, ?_⟩
  · rw [Register.answered, Register.answered, Ledger.credit_ok [] hround,
      Ledger.credit_ok [] hround']
    exact .cons ⟨h.asked, hextent⟩ h.held
  · change p.arena.Shifted d p'.arena
    rw [harena, harena']
    exact h.arena
  · rwa [ledger, extents_answered hround]
  · rwa [ledger, extents_answered hround']

/-- What is granted alike is held at both. -/
theorem answered {n : Nat} {run run' : Except Fault (Except Refusal Nat × Pool × List Event)}
    (h : Abreast d r r') (halike : Ledger.GrantsAlike r.ledger r'.ledger n run run') :
    ∃ answer answer' p p' events events', run = .ok (answer, p, events) ∧
      run' = .ok (answer', p', events') ∧
      Reply.Shifted d (.answer answer) (.answer answer') ∧
      Abreast d (r.answered n answer p) (r'.answered n answer' p') := by
  cases halike with
  | refused refusal events events' hrun hrun' =>
      exact ⟨_, _, _, _, _, _, hrun, hrun', .refused refusal,
        congrArg Nat.succ h.asked, h.held, h.arena, h.chart⟩
  | granted x c' p p' events events' hround hrun hrun' hcharts hcharts' harena harena' =>
      exact ⟨_, _, _, _, _, _, hrun, hrun', .granted (h.arena.extent x).address,
        h.granted hround hcharts hcharts' harena harena'⟩

/-- What is held at the moved address is the same item of the chart, and releasing it joins the same
pages. -/
theorem released {number : Nat} {e : Extent} (hd : (maxBlockSize : Int) ∣ d) (h : Abreast d r r')
    (hlookup : r.held.lookup number = some e) :
    ∃ e' p p' events events', r'.held.lookup number = some e' ∧
      r.pool.free e.address = .ok (p, events) ∧ r'.pool.free e'.address = .ok (p', events') ∧
      Abreast d ⟨p, r.asked, r.held.erase (number, e)⟩
        ⟨p', r'.asked, r'.held.erase (number, e')⟩ := by
  obtain ⟨c, hcharts, hcharts'⟩ := h.chart
  obtain ⟨e', hlookup', hextent, hheld⟩ := lookup_shifted h.held hlookup
  obtain ⟨x, hx, rfl⟩ := hcharts.exists_item (mem_extents hlookup)
  obtain rfl := hextent.unique (h.arena.extent x)
  obtain ⟨p, hrun, hbecomes⟩ := hcharts.depicts.free hx
  obtain ⟨p', hrun', hbecomes'⟩ := hcharts'.depicts.free hx
  have hbase := h.arena.base_mod hcharts.depicts.sound hcharts'.depicts.sound hd
  have hrelease := Chart.release_congr hbase c x
  refine ⟨_, p, p', _, _, hlookup', hrun, hrun', h.asked, hheld, ?_, _,
    (hcharts.giveUp hx hbecomes).of_perm (extents_erase hlookup),
    hrelease ▸ (hcharts'.giveUp hx hbecomes').of_perm (extents_erase hlookup')⟩
  change p.arena.Shifted d p'.arena
  rw [hbecomes.arena, hbecomes'.arena]
  exact h.arena

/-- Whatever may be asked for goes through at both. -/
theorem serves (hd : (maxBlockSize : Int) ∣ d) (h : Abreast d r r') (hadmits : r.Admits request) :
    ∃ reply reply' s s', r.Serves request reply s ∧ r'.Serves request reply' s' ∧
      reply.Shifted d reply' ∧ Abreast d s s' := by
  obtain ⟨c, hcharts, hcharts'⟩ := h.chart
  cases request with
  | allocate size =>
      obtain ⟨answer, answer', p, p', events, events', hrun, hrun', hreply, habreast⟩ :=
        h.answered (hcharts.allocate_alike hcharts' size)
      exact ⟨_, _, _, _, .allocate hrun, .allocate hrun', hreply, habreast⟩
  | allocateZeroed size =>
      obtain ⟨answer, answer', p, p', events, events', hrun, hrun', hreply, habreast⟩ :=
        h.answered (hcharts.allocateZeroed_alike hcharts' size)
      exact ⟨_, _, _, _, .allocateZeroed hrun, .allocateZeroed hrun', hreply, habreast⟩
  | freeNull =>
      exact ⟨_, _, _, _, .freeNull (Pool.Depicts.free_zero _), .freeNull (Pool.Depicts.free_zero _),
        .done, h⟩
  | free number =>
      obtain ⟨e, hlookup⟩ := hadmits
      obtain ⟨e', p, p', events, events', hlookup', hrun, hrun', habreast⟩ :=
        h.released hd hlookup
      exact ⟨_, _, _, _, .free hlookup hrun, .free hlookup' hrun', .done, habreast⟩

/-- Two runs of the same requests. -/
theorem runs {requests : List Request} {trace trace' : List (Reply × Register)}
    (hd : (maxBlockSize : Int) ∣ d) (h : Abreast d r r') (hruns : Runs r requests trace s)
    (hruns' : Runs r' requests trace' s') :
    List.Forall₂ (ShiftedStep d) trace trace' ∧ Abreast d s s' := by
  induction hruns generalizing r' trace' with
  | nil hwrites =>
      cases hruns' with
      | nil hwrites' => exact ⟨.nil, h.writes hwrites hwrites'⟩
  | cons hwrites hserves _ ih =>
      cases hruns' with
      | cons hwrites' hserves' hruns' =>
          obtain ⟨reply, reply', t, t', hfirst, hfirst', hreply, habreast⟩ :=
            (h.writes hwrites hwrites').serves hd hserves.admits
          obtain ⟨rfl, rfl⟩ := hfirst.unique hserves
          obtain ⟨rfl, rfl⟩ := hfirst'.unique hserves'
          obtain ⟨htrace, hlast⟩ := ih habreast hruns'
          exact ⟨.cons ⟨hreply, habreast.shifted⟩ htrace, hlast⟩

theorem lockstep (hd : (maxBlockSize : Int) ∣ d) (h : Abreast d r r') : Lockstep d r r' := by
  intro requests trace trace' s s' hruns hruns'
  obtain ⟨htrace, hlast⟩ := h.runs hd hruns hruns'
  refine ⟨htrace, hlast.shifted, fun request => ⟨hlast.admits_iff, fun hadmits => ?_⟩⟩
  obtain ⟨reply, reply', t, t', hserves, hserves', hreply, habreast⟩ := hlast.serves hd hadmits
  exact ⟨(reply, t), (reply', t'), hserves, hserves', hreply, habreast.shifted⟩

end Abreast

/-- Moving a range by a multiple of the largest block changes nothing but addresses: both ranges are
refused with the same refusal, or both are prepared and their pools answer in lockstep. -/
theorem translated_of_init {d : Int} {start stop start' stop' : Nat}
    (hd : (maxBlockSize : Int) ∣ d) (hstart : Offset d start start') (hstop : Offset d stop stop')
    (hpos : 0 < start) (hpos' : 0 < start') (hstart_lt : start + pageSize < 2 ^ 64)
    (hstop_lt : stop + pageSize < 2 ^ 64) (hstart_lt' : start' + pageSize < 2 ^ 64)
    (hstop_lt' : stop' + pageSize < 2 ^ 64) (m m' : Memory) :
    (∃ refusal, Pool.init m start stop = .ok (.error refusal) ∧
        Pool.init m' start' stop' = .ok (.error refusal)) ∨
      ∃ pool pool', Pool.init m start stop = .ok (.ok pool) ∧
        Pool.init m' start' stop' = .ok (.ok pool') ∧ (opened pool).Shifted d (opened pool') ∧
        Lockstep d (opened pool) (opened pool') := by
  cases Arena.layOut_shifted hd hstart hstop hpos hpos' hstart_lt (by omega) hstart_lt'
    (by omega) with
  | inl hrefused =>
      obtain ⟨refusal, hrefused, hrefused'⟩ := hrefused
      refine .inl ⟨refusal, ?_, ?_⟩
      · simp only [Pool.init, hrefused, ok_bind, pure_eq_ok]
      · simp only [Pool.init, hrefused', ok_bind, pure_eq_ok]
  | inr hlaid =>
      obtain ⟨a, a', hlaid, hlaid', hshifted⟩ := hlaid
      obtain ⟨pool, hinit, rfl, hdepicts⟩ := Pool.init_eq m hlaid
      obtain ⟨pool', hinit', rfl, hdepicts'⟩ := Pool.init_eq m' hlaid'
      have hbase := hshifted.base_mod hdepicts.sound hdepicts'.sound hd
      have hinitial := Chart.initial_congr hbase hshifted.pages
      have habreast : Abreast d (opened pool) (opened pool') :=
        ⟨rfl, .nil, hshifted, _, Ledger.Charts.initial hdepicts,
          hinitial ▸ Ledger.Charts.initial hdepicts'⟩
      exact .inr ⟨pool, pool', hinit, hinit', habreast.shifted, habreast.lockstep hd⟩

/-- Four pages, and four pages sixteen mebibytes further on. -/
theorem translated_of_four_pages : ∃ pool pool', Pool.init .blank 4096 24576 = .ok (.ok pool) ∧
    Pool.init .blank 16781312 16801792 = .ok (.ok pool') ∧
    Lockstep 16777216 (opened pool) (opened pool') := by
  have htranslated := translated_of_init (d := 16777216) (by decide)
    (show Offset 16777216 4096 16781312 from rfl) (show Offset 16777216 24576 16801792 from rfl)
    (by decide) (by decide) (by decide) (by decide) (by decide) (by decide) .blank .blank
  obtain ⟨pool, hinit, -⟩ := Pool.init_eq .blank
    (show Arena.layOut 4096 24576 = .ok (.ok ⟨4096, 4, 8192, 24576⟩) from rfl)
  cases htranslated with
  | inl hrefused =>
      obtain ⟨refusal, hrefused, -⟩ := hrefused
      cases hinit.symm.trans hrefused
  | inr hopened =>
      obtain ⟨pool, pool', hinit, hinit', -, hlockstep⟩ := hopened
      exact ⟨pool, pool', hinit, hinit', hlockstep⟩

end Register
end BuddySlab
