import BuddySlab.Heap
import BuddySlab.Proofs.Contents

/-!
A heap and its tenants. Each live block has a layout, which a reallocation may change in place; its
block stays large and aligned enough for it. A reallocation that moves hands over the bytes that
both sizes share before the old block goes back, once, and no call touches what others hold.
-/

namespace BuddySlab

theorem Grade.size_eq_two_pow (g : Grade) : ∃ k, g.size = 2 ^ k := by
  cases g with
  | object i => exact ⟨_, Slab.classSizes_eq i⟩
  | block order =>
      refine ⟨12 + order, ?_⟩
      rw [Grade.size, blockSize_eq, pageSize_eq_two_pow, Nat.pow_add]

namespace Layout
variable {l : Layout} {size address : Nat}

theorem align_eq_two_pow (hvalid : l.valid = true) : ∃ k, l.align = 2 ^ k := by
  simp only [valid, Bool.and_eq_true, bne_iff_ne, beq_iff_eq] at hvalid
  obtain ⟨⟨⟨hne, hand⟩, -⟩, -⟩ := hvalid
  exact (Nat.and_sub_one_eq_zero_iff_isPowerOfTwo hne).1 hand

/-- What is aligned to the rounded size is aligned as the layout asks. -/
theorem align_dvd (hvalid : l.valid = true) (hround : roundSize l.request = .ok size)
    (haddress : size ∣ address) : l.align ∣ address := by
  obtain ⟨k, hk⟩ := align_eq_two_pow hvalid
  obtain ⟨hle, g, rfl⟩ := exists_grade hround
  obtain ⟨m, hm⟩ := g.size_eq_two_pow
  have hpow : 2 ^ k ≤ 2 ^ m := hk ▸ hm ▸ Nat.le_trans (Nat.le_max_right _ _) hle
  apply Nat.dvd_trans _ haddress
  rw [hk, hm]
  exact Nat.pow_dvd_pow 2 ((Nat.pow_le_pow_iff_right (by decide)).1 hpow)

end Layout

namespace Heap
variable {pool pool' pool'' : Pool} {console : Console} {l : Layout} {events freed : List Event}
  {answer : Except Refusal Nat} {address target usable size : Nat}

theorem allocate_eq (hrun : pool.allocate l.request = .ok (answer, pool', events)) :
    allocate l ⟨pool, console, [], []⟩ =
      .ok (answer.toOption, ⟨pool', console.writeAll events, [], []⟩) := by
  simp only [allocate, Service.bind_apply, Service.allocate_of_quiet, hrun, Service.report, ok_bind,
    Service.pure_apply]

theorem allocateZeroed_refused {refusal : Refusal}
    (hrun : pool.allocate l.request = .ok (.error refusal, pool', events)) :
    allocateZeroed l ⟨pool, console, [], []⟩ =
      .ok (none, ⟨pool', console.writeAll events, [], []⟩) := by
  simp only [allocateZeroed, Service.bind_apply, allocate_eq hrun, ok_bind, Except.toOption,
    Service.pure_apply]

theorem allocateZeroed_granted
    (hrun : pool.allocate l.request = .ok (.ok address, pool', events)) :
    allocateZeroed l ⟨pool, console, [], []⟩ =
      .ok (some address, ⟨pool'.fill address l.size 0, console.writeAll events, [], []⟩) := by
  simp only [allocateZeroed, Service.bind_apply, allocate_eq hrun, ok_bind, Except.toOption,
    Service.operate, Service.pure_apply]

section Reallocate
variable (husable : pool.usableSize address = .ok usable)
include husable

theorem reallocate_stayed (hle : max size l.align ≤ usable) :
    reallocate address l size ⟨pool, console, [], []⟩ =
      .ok (some address, ⟨pool, console, [], []⟩) := by
  simp only [reallocate, Service.bind_apply, Service.consult, husable, ok_bind, if_pos hle,
    Service.pure_apply]

theorem reallocate_refused {refusal : Refusal} (hlt : usable < max size l.align)
    (hrun : pool.allocate (max size l.align) = .ok (.error refusal, pool', events)) :
    reallocate address l size ⟨pool, console, [], []⟩ =
      .ok (none, ⟨pool', console.writeAll events, [], []⟩) := by
  have hallocate : allocate { l with size } ⟨pool, console, [], []⟩ = _ := allocate_eq hrun
  simp only [reallocate, Service.bind_apply, Service.consult, husable, ok_bind,
    if_neg (Nat.not_le.2 hlt), hallocate, Except.toOption, Service.pure_apply]

theorem reallocate_moved (hlt : usable < max size l.align)
    (hrun : pool.allocate (max size l.align) = .ok (.ok target, pool', events))
    (hfree : (pool'.copy address target (min l.size size)).free address = .ok (pool'', freed)) :
    reallocate address l size ⟨pool, console, [], []⟩ =
      .ok (some target, ⟨pool'', (console.writeAll events).writeAll freed, [], []⟩) := by
  have hallocate : allocate { l with size } ⟨pool, console, [], []⟩ = _ := allocate_eq hrun
  simp only [reallocate, Service.bind_apply, Service.consult, husable, ok_bind,
    if_neg (Nat.not_le.2 hlt), hallocate, Except.toOption, Service.operate, Service.free_of_quiet,
    hfree, Service.report, Service.pure_apply]

end Reallocate
end Heap

namespace Ledger

/-- A block was granted, it got the first bytes of another, and that other went back. -/
structure Moved (s : Ledger) (e f : Extent) (count : Nat) (pool : Pool) : Prop where
  charted : ∃ c, Charts ⟨pool, e :: s.held.erase f⟩ c
  apart : e.Apart f
  copied : ∀ i < count, pool.memory.read (e.address + i) = s.pool.memory.read (f.address + i)
  kept : ∀ g ∈ s.held.erase f, ∀ x, g.Covers x → pool.memory.read x = s.pool.memory.read x

namespace Charts
variable {s : Ledger} {c c' : Chart} {e f : Extent} {count : Nat} {pool : Pool}

theorem move (h : s.Charts c) (hf : f ∈ s.held) (hcharts : Charts ⟨pool, e :: s.held⟩ c')
    (hkept : ∀ g ∈ s.held, ∀ x, g.Covers x → pool.memory.read x = s.pool.memory.read x)
    (hcount : count ≤ e.size) (hcount' : count ≤ f.size) :
    ∃ pool' freed, (pool.copy f.address e.address count).free f.address = .ok (pool', freed) ∧
      s.Moved e f count pool' := by
  have hmem : f ∈ e :: s.held := List.mem_cons_of_mem e hf
  have hfresh := (List.nodup_cons.1 hcharts.held_nodup).1
  have hapart := (List.pairwise_cons.1 hcharts.held_apart).1
  have hne : e ≠ f := fun heq => hfresh (heq ▸ hf)
  have hcopied : Charts ⟨pool.copy f.address e.address count, e :: s.held⟩ c' :=
    hcharts.rewrite (Memory.changedIn_copy List.mem_cons_self hcount f.address)
  obtain ⟨pool', c'', freed, hrun, -, -, hback⟩ := hcopied.release hmem
  rw [List.erase_cons_tail (by simpa using hne)] at hback
  refine ⟨pool', freed, hrun, ⟨c'', hback⟩, hapart f hf, ?_, ?_⟩
  · -- the release writes its link into the old block only
    intro i hi
    have hcovers : e.Covers (e.address + i) := ⟨Nat.le_add_right _ _, by omega⟩
    rw [hcopied.free_keeps hmem hrun List.mem_cons_self hne hcovers, Pool.copy, Memory.read_copy,
      if_pos ⟨Nat.le_add_right _ _, by omega⟩, Nat.add_sub_cancel_left]
    exact hkept f hf _ ⟨Nat.le_add_right _ _, by omega⟩
  · intro g hg x hx
    obtain ⟨hgf, hgs⟩ := h.held_nodup.mem_erase_iff.1 hg
    rw [hcopied.free_keeps hmem hrun (List.mem_cons_of_mem e hgs) hgf hx, Pool.copy,
      Memory.read_copy, if_neg]
    · exact hkept g hgs x hx
    · intro hin
      exact hapart g hgs x ⟨hin.1, by omega⟩ hx

end Charts
end Ledger

/-- A live block and the layout that its client has for it. -/
structure Lease where
  block : Extent
  layout : Layout
  deriving DecidableEq, Repr

namespace Lease

/-- The bytes that the client may write. -/
def bytes (lease : Lease) : Extent :=
  ⟨lease.block.address, lease.layout.size⟩

/-- The block is as large and as aligned as the layout asks. -/
def Suits (lease : Lease) : Prop :=
  lease.layout.request ≤ lease.block.size ∧ lease.layout.align ∣ lease.block.address

def resized (lease : Lease) (size : Nat) : Lease :=
  { lease with layout := { lease.layout with size } }

end Lease

structure Tenancy where
  pool : Pool
  leases : List Lease

namespace Tenancy

def ledger (t : Tenancy) : Ledger :=
  ⟨t.pool, t.leases.map Lease.block⟩

/-- The leases after the answer to an allocation. -/
def rent (leases : List Lease) (l : Layout) : Option Nat → List Lease
  | none => leases
  | some address => (Ledger.credit [] l.request (.ok address)).map (Lease.mk · l) ++ leases

/-- The leases after the answer to a reallocation. -/
def renew (leases : List Lease) (lease : Lease) (size : Nat) : Option Nat → List Lease
  | none => leases
  | some address =>
      if address = lease.block.address then lease.resized size :: leases.erase lease
      else rent (leases.erase lease) { lease.layout with size } (some address)

/-- The tenancy is met on a run of a heap that was prepared with this range: clients allocate with
valid layouts, release and resize what they have, and write to the bytes of their layouts. -/
inductive Reached (start stop : Nat) : Tenancy → Prop
  | init {m : Memory} {pool : Pool} (hinit : Pool.init m start stop = .ok (.ok pool)) :
      Reached start stop ⟨pool, []⟩
  | allocate {t : Tenancy} {l : Layout} {answer : Option Nat} {console : Console}
      {station : Station} (h : Reached start stop t) (hvalid : l.valid = true)
      (hrun : Heap.allocate l ⟨t.pool, console, [], []⟩ = .ok (answer, station)) :
      Reached start stop ⟨station.pool, rent t.leases l answer⟩
  | allocateZeroed {t : Tenancy} {l : Layout} {answer : Option Nat} {console : Console}
      {station : Station} (h : Reached start stop t) (hvalid : l.valid = true)
      (hrun : Heap.allocateZeroed l ⟨t.pool, console, [], []⟩ = .ok (answer, station)) :
      Reached start stop ⟨station.pool, rent t.leases l answer⟩
  | releaseNull {t : Tenancy} {console : Console} {station : Station} (h : Reached start stop t)
      (hrun : Service.free 0 ⟨t.pool, console, [], []⟩ = .ok ((), station)) :
      Reached start stop ⟨station.pool, t.leases⟩
  | release {t : Tenancy} {lease : Lease} {console : Console} {station : Station}
      (h : Reached start stop t) (hlease : lease ∈ t.leases)
      (hrun : Service.free lease.block.address ⟨t.pool, console, [], []⟩ = .ok ((), station)) :
      Reached start stop ⟨station.pool, t.leases.erase lease⟩
  | reallocate {t : Tenancy} {lease : Lease} {size : Nat} {answer : Option Nat} {console : Console}
      {station : Station} (h : Reached start stop t) (hlease : lease ∈ t.leases)
      (hvalid : (lease.resized size).layout.valid = true)
      (hrun : Heap.reallocate lease.block.address lease.layout size ⟨t.pool, console, [], []⟩ =
        .ok (answer, station)) :
      Reached start stop ⟨station.pool, renew t.leases lease size answer⟩
  | write {t : Tenancy} {m : Memory} (h : Reached start stop t)
      (hm : t.pool.memory.ChangedIn (t.leases.map Lease.bytes) m) :
      Reached start stop ⟨{ t.pool with memory := m }, t.leases⟩

/-- The live blocks are what is held of the pool. They lie in the payload, no two share a byte, each
measures what it was granted and suits its layout. -/
structure Sound (t : Tenancy) : Prop where
  charted : ∃ c, t.ledger.Charts c
  suits : ∀ lease ∈ t.leases, lease.Suits
  placed : ∀ lease ∈ t.leases, 0 < lease.block.address ∧
    t.pool.arena.payloadStart ≤ lease.block.address ∧
    lease.block.address + lease.block.size ≤ t.pool.arena.stop
  apart : (t.leases.map Lease.block).Pairwise Extent.Apart
  usable : ∀ lease ∈ t.leases, t.pool.usableSize lease.block.address = .ok lease.block.size

/-- The blocks of these leases keep their bytes. -/
def Keeps (t : Tenancy) (leases : List Lease) (pool : Pool) : Prop :=
  ∀ lease ∈ leases, ∀ x, lease.block.Covers x → pool.memory.read x = t.pool.memory.read x

/-- An allocation gives null, and changes nothing, where the pool refuses what the layout asks for;
else a new block, cleared as far as the layout says if that was asked for. -/
inductive Allocates (t : Tenancy) (l : Layout) (zeroed : Bool) (console : Console)
    (run : Except Crash (Option Nat × Station)) : Prop
  | refused (refusal : Refusal) (events : List Event)
      (hserved : t.pool.allocate l.request = .ok (.error refusal, t.pool, events))
      (hrun : run = .ok (none, ⟨t.pool, console.writeAll events, [], []⟩))
  | granted (e : Extent) (pool pool' : Pool) (events : List Event)
      (hserved : t.pool.allocate l.request = .ok (.ok e.address, pool', events))
      (hrun : run = .ok (some e.address, ⟨pool, console.writeAll events, [], []⟩))
      (hround : roundSize l.request = .ok e.size) (hsound : Sound ⟨pool, ⟨e, l⟩ :: t.leases⟩)
      (hzeroed : zeroed = true → ∀ i < l.size, pool.memory.read (e.address + i) = 0)
      (hkept : t.Keeps t.leases pool)

/-- A reallocation stays in place, and changes nothing, where the block is large enough. Else it
gives null, and changes nothing, where the pool refuses, or it moves: what both sizes share is
copied to a new block, and the old one is released once. -/
inductive Reallocates (t : Tenancy) (lease : Lease) (size : Nat) (console : Console)
    (run : Except Crash (Option Nat × Station)) : Prop
  | stayed (hfits : max size lease.layout.align ≤ lease.block.size)
      (hrun : run = .ok (some lease.block.address, ⟨t.pool, console, [], []⟩))
      (hsound : Sound ⟨t.pool, lease.resized size :: t.leases.erase lease⟩)
  | refused (refusal : Refusal) (events : List Event)
      (hlarge : lease.block.size < max size lease.layout.align)
      (hserved : t.pool.allocate (max size lease.layout.align) =
        .ok (.error refusal, t.pool, events))
      (hrun : run = .ok (none, ⟨t.pool, console.writeAll events, [], []⟩))
  | moved (e : Extent) (pool pool' : Pool) (events freed : List Event)
      (hlarge : lease.block.size < max size lease.layout.align)
      (hserved : t.pool.allocate (max size lease.layout.align) = .ok (.ok e.address, pool', events))
      (hfreed : (pool'.copy lease.block.address e.address (min lease.layout.size size)).free
        lease.block.address = .ok (pool, freed))
      (hrun : run = .ok (some e.address, ⟨pool, (console.writeAll events).writeAll freed, [], []⟩))
      (hround : roundSize (max size lease.layout.align) = .ok e.size)
      (hne : e.address ≠ lease.block.address) (hapart : e.Apart lease.block)
      (hsound : Sound ⟨pool, ⟨e, { lease.layout with size }⟩ :: t.leases.erase lease⟩)
      (hcopied : ∀ i < min lease.layout.size size,
        pool.memory.read (e.address + i) = t.pool.memory.read (lease.block.address + i))
      (hkept : t.Keeps (t.leases.erase lease) pool)

/-- A release ends one lease and leaves the bytes of the others. -/
def Releases (t : Tenancy) (lease : Lease) (console : Console)
    (run : Except Crash (Unit × Station)) : Prop :=
  ∃ pool events, t.pool.free lease.block.address = .ok (pool, events) ∧
    run = .ok ((), ⟨pool, console.writeAll events, [], []⟩) ∧ Sound ⟨pool, t.leases.erase lease⟩ ∧
    t.Keeps (t.leases.erase lease) pool

/-- What clients of a heap may rely on. -/
structure Honours (t : Tenancy) : Prop where
  sound : t.Sound
  allocate : ∀ l, l.valid = true → ∀ console,
    t.Allocates l false console (Heap.allocate l ⟨t.pool, console, [], []⟩)
  allocateZeroed : ∀ l, l.valid = true → ∀ console,
    t.Allocates l true console (Heap.allocateZeroed l ⟨t.pool, console, [], []⟩)
  releaseNull : ∀ console,
    Service.free 0 ⟨t.pool, console, [], []⟩ = .ok ((), ⟨t.pool, console, [], []⟩)
  release : ∀ lease ∈ t.leases, ∀ console,
    t.Releases lease console (Service.free lease.block.address ⟨t.pool, console, [], []⟩)
  reallocate : ∀ lease ∈ t.leases, ∀ size, (lease.resized size).layout.valid = true → ∀ console,
    t.Reallocates lease size console
      (Heap.reallocate lease.block.address lease.layout size ⟨t.pool, console, [], []⟩)

variable {t : Tenancy} {c : Chart} {l : Layout} {lease : Lease} {pool : Pool}
  {console : Console}

theorem mem_held (hlease : lease ∈ t.leases) : lease.block ∈ t.ledger.held :=
  List.mem_map_of_mem hlease

theorem Sound.of_charts (h : t.ledger.Charts c) (hsuits : ∀ lease ∈ t.leases, lease.Suits) :
    t.Sound := by
  refine ⟨⟨c, h⟩, hsuits, fun lease hlease => ?_, h.held_apart, fun lease hlease => ?_⟩
  · obtain ⟨-, -, hstart, hstop⟩ := h.isolated.placed _ (mem_held hlease)
    exact ⟨h.address_pos (mem_held hlease), hstart, hstop⟩
  · exact h.usableSize_eq (mem_held hlease)

/-- What is held of the pool after one lease ended. -/
theorem map_erase_perm (hlease : lease ∈ t.leases) :
    ((t.leases.erase lease).map Lease.block).Perm (t.ledger.held.erase lease.block) := by
  have hperm := ((List.perm_cons_erase hlease).map Lease.block).erase lease.block
  rw [List.map_cons, List.erase_cons_head] at hperm
  exact hperm.symm

/-- A block of the rounded size suits the layout that it was granted for. -/
theorem suits_of_round {e : Extent} (hvalid : l.valid = true)
    (hround : roundSize l.request = .ok e.size) (hdvd : e.size ∣ e.address) :
    (Lease.mk e l).Suits :=
  ⟨(exists_grade hround).1, Layout.align_dvd hvalid hround hdvd⟩

namespace Sound

theorem rented {e : Extent} {leases : List Lease} (hvalid : l.valid = true)
    (hround : roundSize l.request = .ok e.size)
    (hcharts : Ledger.Charts ⟨pool, e :: leases.map Lease.block⟩ c)
    (hsuits : ∀ lease ∈ leases, lease.Suits) : Sound ⟨pool, ⟨e, l⟩ :: leases⟩ := by
  apply of_charts (t := ⟨pool, ⟨e, l⟩ :: leases⟩) hcharts
  intro lease hlease
  cases List.mem_cons.1 hlease with
  | inl heq =>
      subst heq
      exact suits_of_round hvalid hround (hcharts.isolated.placed e List.mem_cons_self).2.1
  | inr hold => exact hsuits lease hold

theorem allocates (h : t.Sound) (hvalid : l.valid = true) (console : Console) :
    t.Allocates l false console (Heap.allocate l ⟨t.pool, console, [], []⟩) := by
  obtain ⟨c, hcharts⟩ := h.charted
  cases hcharts.request l.request with
  | refused refusal events hrun => exact .refused refusal events hrun (Heap.allocate_eq hrun)
  | granted e pool c' events hrun hround hle harena hslabs hcharts' =>
      refine .granted e pool pool events hrun (Heap.allocate_eq hrun) hround
        (rented hvalid hround hcharts' h.suits) (fun heq => ?_) fun lease hlease x hx => ?_
      · cases heq
      · exact hcharts.allocate_keeps hrun (mem_held hlease) hx

theorem allocatesZeroed (h : t.Sound) (hvalid : l.valid = true) (console : Console) :
    t.Allocates l true console (Heap.allocateZeroed l ⟨t.pool, console, [], []⟩) := by
  obtain ⟨c, hcharts⟩ := h.charted
  cases hcharts.request l.request with
  | refused refusal events hrun =>
      exact .refused refusal events hrun (Heap.allocateZeroed_refused hrun)
  | granted e pool c' events hrun hround hle harena hslabs hcharts' =>
      have hcount : l.size ≤ e.size := Nat.le_trans (Nat.le_max_left _ _) hle
      have hfill := hcharts'.fill List.mem_cons_self hcount 0
      refine .granted e (pool.fill e.address l.size 0) pool events hrun
        (Heap.allocateZeroed_granted hrun) hround (rented hvalid hround hfill h.suits)
        (fun _ i hi => ?_) fun lease hlease x hx => ?_
      · rw [Pool.fill, Memory.read_fill, if_pos ⟨Nat.le_add_right _ _, by omega⟩]
      · rw [Pool.fill, Memory.read_fill, if_neg]
        · exact hcharts.allocate_keeps hrun (mem_held hlease) hx
        · intro hin
          have hapart := (List.pairwise_cons.1 hcharts'.held_apart).1 _ (mem_held hlease)
          exact hapart x ⟨hin.1, by omega⟩ hx

theorem suits_erase (h : t.Sound) : ∀ other ∈ t.leases.erase lease, other.Suits :=
  fun other hother => h.suits other (List.mem_of_mem_erase hother)

theorem releases (h : t.Sound) (hlease : lease ∈ t.leases) (console : Console) :
    t.Releases lease console (Service.free lease.block.address ⟨t.pool, console, [], []⟩) := by
  obtain ⟨c, hcharts⟩ := h.charted
  obtain ⟨pool, c', events, hrun, -, -, hcharts'⟩ := hcharts.release (mem_held hlease)
  have hperm := map_erase_perm hlease
  have hfree : t.pool.free lease.block.address = .ok (pool, events) := hrun
  refine ⟨pool, events, hfree, ?_, ?_, fun other hother x hx => ?_⟩
  · rw [Service.free_of_quiet, hfree]
    rfl
  · exact of_charts (t := ⟨pool, t.leases.erase lease⟩) (hcharts'.of_perm hperm) h.suits_erase
  · have hmem := hperm.mem_iff.1 (List.mem_map_of_mem hother)
    obtain ⟨hne, hmem⟩ := hcharts.held_nodup.mem_erase_iff.1 hmem
    exact hcharts.free_keeps (mem_held hlease) hrun hmem hne hx

/-- A block that is large enough for another size suits that size too. -/
theorem resized (h : t.Sound) (hlease : lease ∈ t.leases) {size : Nat}
    (hfits : max size lease.layout.align ≤ lease.block.size) :
    Sound ⟨t.pool, lease.resized size :: t.leases.erase lease⟩ := by
  obtain ⟨c, hcharts⟩ := h.charted
  have hback : Ledger.Charts ⟨t.pool, lease.block :: (t.leases.erase lease).map Lease.block⟩ c :=
    hcharts.of_perm ((List.perm_cons_erase hlease).map Lease.block).symm
  apply of_charts (t := ⟨t.pool, lease.resized size :: t.leases.erase lease⟩) hback
  intro other hother
  cases List.mem_cons.1 hother with
  | inl heq =>
      subst heq
      exact ⟨hfits, (h.suits lease hlease).2⟩
  | inr hold => exact h.suits_erase other hold

theorem reallocates (h : t.Sound) (hlease : lease ∈ t.leases) {size : Nat}
    (hvalid : (lease.resized size).layout.valid = true) (console : Console) :
    t.Reallocates lease size console
      (Heap.reallocate lease.block.address lease.layout size ⟨t.pool, console, [], []⟩) := by
  obtain ⟨c, hcharts⟩ := h.charted
  have husable := h.usable lease hlease
  by_cases hfits : max size lease.layout.align ≤ lease.block.size
  · exact .stayed hfits (Heap.reallocate_stayed husable hfits) (h.resized hlease hfits)
  have hlarge := Nat.lt_of_not_le hfits
  cases hcharts.request (max size lease.layout.align) with
  | refused refusal events hrun =>
      exact .refused refusal events hlarge hrun (Heap.reallocate_refused husable hlarge hrun)
  | granted e pool' c' events hrun hround hle harena hslabs hcharts' =>
      have hperm := map_erase_perm hlease
      have hcount : min lease.layout.size size ≤ e.size :=
        Nat.le_trans (Nat.min_le_right _ _) (Nat.le_trans (Nat.le_max_left _ _) hle)
      have hcount' : min lease.layout.size size ≤ lease.block.size := by
        have hsize := Nat.le_trans (Nat.le_max_left _ _) (h.suits lease hlease).1
        exact Nat.le_trans (Nat.min_le_left _ _) hsize
      obtain ⟨pool, freed, hfreed, hmoved⟩ := hcharts.move (mem_held hlease) hcharts'
        (fun g hg x hx => hcharts.allocate_keeps hrun hg hx) hcount hcount'
      obtain ⟨c'', hcharts''⟩ := hmoved.charted
      refine .moved e pool pool' events freed hlarge hrun hfreed
        (Heap.reallocate_moved husable hlarge hrun hfreed) hround (fun heq => ?_) hmoved.apart
        (rented (l := (lease.resized size).layout) hvalid hround (hcharts''.of_perm (hperm.cons e))
          h.suits_erase) hmoved.copied fun other hother x hx => ?_
      · have hsame := hcharts'.held_unique List.mem_cons_self
          (List.mem_cons_of_mem e (mem_held hlease)) heq
        exact (List.nodup_cons.1 hcharts'.held_nodup).1 (hsame ▸ mem_held hlease)
      · exact hmoved.kept _ (hperm.mem_iff.1 (List.mem_map_of_mem hother)) x hx

theorem rewrite (h : t.Sound) {m : Memory}
    (hm : t.pool.memory.ChangedIn (t.leases.map Lease.bytes) m) :
    Sound ⟨{ t.pool with memory := m }, t.leases⟩ := by
  obtain ⟨c, hcharts⟩ := h.charted
  have hheld : t.pool.memory.ChangedIn t.ledger.held m := by
    apply hm.widen
    intro e he
    obtain ⟨lease, hlease, rfl⟩ := List.mem_map.1 he
    refine ⟨lease.block, List.mem_map_of_mem hlease, fun x hx => ⟨hx.1, ?_⟩⟩
    have hsize := Nat.le_trans (Nat.le_max_left _ _) (h.suits lease hlease).1
    exact Nat.lt_of_lt_of_le hx.2 (Nat.add_le_add_left hsize _)
  exact of_charts (t := ⟨{ t.pool with memory := m }, t.leases⟩) (hcharts.rewrite hheld) h.suits

theorem after_allocation {zeroed : Bool} {run : Except Crash (Option Nat × Station)}
    {answer : Option Nat} {station : Station} (h : t.Sound)
    (hallocates : t.Allocates l zeroed console run)
    (hrun : run = .ok (answer, station)) : Sound ⟨station.pool, rent t.leases l answer⟩ := by
  cases hallocates with
  | refused refusal events hserved hrefused =>
      cases hrefused.symm.trans hrun
      exact h
  | granted e pool pool' events hserved hgranted hround hsound =>
      cases hgranted.symm.trans hrun
      rw [rent, Ledger.credit_ok [] hround]
      exact hsound

theorem after_reallocation {size : Nat} {run : Except Crash (Option Nat × Station)}
    {answer : Option Nat} {station : Station} (h : t.Sound)
    (hreallocates : t.Reallocates lease size console run)
    (hrun : run = .ok (answer, station)) :
    Sound ⟨station.pool, renew t.leases lease size answer⟩ := by
  cases hreallocates with
  | stayed hfits hstayed hsound =>
      cases hstayed.symm.trans hrun
      rw [renew, if_pos rfl]
      exact hsound
  | refused refusal events hlarge hserved hrefused =>
      cases hrefused.symm.trans hrun
      exact h
  | moved e pool pool' events freed hlarge hserved hfreed hmoved hround hne hapart hsound =>
      cases hmoved.symm.trans hrun
      have hrequest : roundSize ({ lease.layout with size } : Layout).request = .ok e.size := hround
      rw [renew, if_neg hne, rent, Ledger.credit_ok [] hrequest]
      exact hsound

end Sound

namespace Reached
variable {start stop : Nat}

theorem sound (h : Reached start stop t) : t.Sound := by
  induction h with
  | @init m pool hinit =>
      obtain ⟨c, hcharts, -⟩ := (Ledger.Reached.init hinit).charts
      exact .of_charts (t := ⟨pool, []⟩) hcharts (List.forall_mem_nil _)
  | allocate _ hvalid hrun ih => exact ih.after_allocation (ih.allocates hvalid _) hrun
  | allocateZeroed _ hvalid hrun ih => exact ih.after_allocation (ih.allocatesZeroed hvalid _) hrun
  | releaseNull _ hrun ih =>
      rw [Service.free_of_quiet, Pool.Depicts.free_zero] at hrun
      cases hrun
      exact ih
  | release _ hlease hrun ih =>
      obtain ⟨pool, events, -, hreleased, hsound, -⟩ := ih.releases hlease _
      cases hreleased.symm.trans hrun
      exact hsound
  | reallocate _ hlease hvalid hrun ih =>
      exact ih.after_reallocation (ih.reallocates hlease hvalid _) hrun
  | write _ hm ih => exact ih.rewrite hm

/-- At every point of a run the heap keeps its contract. -/
theorem honours (h : Reached start stop t) : t.Honours := by
  have hsound := h.sound
  constructor
  · exact hsound
  · exact fun l hvalid console => hsound.allocates hvalid console
  · exact fun l hvalid console => hsound.allocatesZeroed hvalid console
  · intro console
    rw [Service.free_of_quiet, Pool.Depicts.free_zero]
    rfl
  · exact fun lease hlease console => hsound.releases hlease console
  · exact fun lease hlease size hvalid console => hsound.reallocates hlease hvalid console

end Reached

theorem exists_ok_of_any {ε α : Type} {x : Except ε α} {q : α → Bool}
    (h : x.toOption.any q = true) : ∃ a, x = .ok a ∧ q a = true := by
  cases x with
  | error _ => cases h
  | ok a => exact ⟨a, rfl, h⟩

/-- A block that was resized, once in place and once by moving. -/
theorem honours_of_four_pages : ∃ t, Reached 4096 24576 t ∧
    t.leases = [⟨⟨8192, 8192⟩, ⟨5000, 8⟩⟩] ∧ t.Honours := by
  have hruns : (Pool.init .blank 4096 24576).toOption.any (fun result =>
      result.toOption.any fun pool =>
        (Heap.allocate ⟨100, 8⟩ ⟨pool, ⟨none, #[]⟩, [], []⟩).toOption.any fun placed =>
          placed.1 = some 16512 &&
          (Heap.reallocate 16512 ⟨100, 8⟩ 120 ⟨placed.2.pool, ⟨none, #[]⟩, [], []⟩).toOption.any
            fun stayed => stayed.1 = some 16512 &&
            (Heap.reallocate 16512 ⟨120, 8⟩ 5000 ⟨stayed.2.pool, ⟨none, #[]⟩, [], []⟩).toOption.any
              fun moved => moved.1 = some 8192) = true := by
    decide +kernel
  obtain ⟨result, hinit, hopen⟩ := exists_ok_of_any hruns
  obtain ⟨pool, rfl, hfirst⟩ := exists_ok_of_any hopen
  obtain ⟨⟨placed, s₁⟩, hallocate, hsecond⟩ := exists_ok_of_any hfirst
  obtain ⟨hplaced, hsecond⟩ := Bool.and_eq_true_iff.1 hsecond
  obtain rfl : placed = some 16512 := of_decide_eq_true hplaced
  obtain ⟨⟨stayed, s₂⟩, hstay, hthird⟩ := exists_ok_of_any hsecond
  obtain ⟨hstayed, hthird⟩ := Bool.and_eq_true_iff.1 hthird
  obtain rfl : stayed = some 16512 := of_decide_eq_true hstayed
  obtain ⟨⟨moved, s₃⟩, hmove, hmoved⟩ := exists_ok_of_any hthird
  obtain rfl : moved = some 8192 := of_decide_eq_true hmoved
  have hopened : Reached 4096 24576 ⟨pool, []⟩ := .init hinit
  have hgranted : Reached 4096 24576 ⟨s₁.pool, [⟨⟨16512, 128⟩, ⟨100, 8⟩⟩]⟩ :=
    hopened.allocate (by decide) hallocate
  have hresized : Reached 4096 24576 ⟨s₂.pool, [⟨⟨16512, 128⟩, ⟨120, 8⟩⟩]⟩ :=
    hgranted.reallocate List.mem_cons_self (by decide) hstay
  have hreached : Reached 4096 24576 ⟨s₃.pool, [⟨⟨8192, 8192⟩, ⟨5000, 8⟩⟩]⟩ :=
    hresized.reallocate List.mem_cons_self (by decide) hmove
  exact ⟨_, hreached, rfl, hreached.honours⟩

end Tenancy
end BuddySlab
