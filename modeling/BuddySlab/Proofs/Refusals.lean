import BuddySlab.Proofs.Vacancy

/-!
When a request is refused. A size is invalid if it is zero or above the largest block. A block is
refused exactly where no aligned range of its size is vacant, however the free pages came to be cut;
an object exactly where all objects of its class are held and no page is vacant. A refusal leaves
the pool as it was, to the last byte.
-/

namespace BuddySlab
namespace Ledger

/-- All objects of the slabs of a class are held. -/
def AllHeld (s : Ledger) (v : Survey) (i : Fin classSizes.size) : Prop :=
  ∀ page ∈ v.slabs i, ∀ n < Slab.capacity s.pool.memory page,
    ⟨Slab.slot page (classSizes.get i) n, classSizes.get i⟩ ∈ s.held

/-- The answer to a request for so many bytes, and the pool after it. -/
structure Exact (s : Ledger) (v : Survey) (size : Nat) (answer : Except Refusal Nat)
    (pool : Pool) : Prop where
  invalid_iff : answer = .error .invalidSize ↔ size = 0 ∨ 2 ^ 24 < size
  block_iff : ∀ rounded, roundSize size = .ok rounded → pageSize ≤ rounded →
    (answer = .error .outOfMemory ↔ ∀ address, ¬s.AllVacant v address rounded)
  object_iff : ∀ rounded, roundSize size = .ok rounded → rounded < pageSize →
    (answer = .error .outOfMemory ↔
      (∀ i, classSizes.get i = rounded → s.AllHeld v i) ∧ ∀ address, ¬s.Vacant v address)
  refusal_cases : ∀ refusal, answer = .error refusal →
    refusal = .invalidSize ∨ refusal = .outOfMemory
  unchanged : ∀ refusal, answer = .error refusal → pool = s.pool

namespace Charts
variable {s : Ledger} {c : Chart} {i : Fin classSizes.size}

theorem allHeld_iff (h : s.Charts c) :
    s.AllHeld (c.survey s.pool.arena) i ↔ ∀ t ∈ c.sheets i, t.stack = [] := by
  have hfits := Slab.fits_class i
  have hcapacity {t : Sheet} (ht : t ∈ c.sheets i) :
      Slab.capacity s.pool.memory (s.pool.arena.pageAddress t.page) =
        Slab.slots (classSizes.get i) := by
    obtain ⟨link, hshows⟩ := (h.depicts.chain i).linked.shows ht
    exact hshows.capacity_eq
  constructor
  · intro hall t ht
    refine List.eq_nil_iff_forall_not_mem.2 fun n hn => ?_
    have hlt := h.depicts.proper.stack_lt i t ht n hn
    have hheld := hall _ (List.mem_map_of_mem ht) n (hcapacity ht ▸ hlt)
    obtain ⟨x, hx, hextent⟩ := h.exists_item hheld
    have hapart := h.depicts.free_object_apart hx ht hn
    rw [hextent] at hapart
    exact hapart _ (Extent.covers_address hfits.size_pos) (Extent.covers_address hfits.size_pos)
  · intro hnil page hpage n hn
    obtain ⟨t, ht, rfl⟩ := List.mem_map.1 hpage
    rw [hcapacity ht] at hn
    have hlive : n ∈ t.live (classSizes.get i) := by
      rw [Sheet.mem_live, hnil t ht]
      exact ⟨hn, List.not_mem_nil⟩
    have hitem := Chart.mem_items.2 (.object ht hlive)
    exact h.held_perm.mem_iff.2 (List.mem_map_of_mem hitem)

theorem take?_eq_none_iff (h : s.Charts c) {k : Nat} (hk : k ≤ maxOrder) :
    c.free.take? k = none ↔
      ∀ address, ¬s.AllVacant (c.survey s.pool.arena) address (blockSize k) := by
  rw [h.depicts.keeps.take?_eq_none_iff hk]
  constructor
  · intro hnone address hall
    obtain ⟨j, -, rfl⟩ := exists_page_of_allVacant hall
    exact hnone j (h.allVacant_iff.1 hall)
  · intro hnone j hwhole
    exact hnone _ (h.allVacant_iff.2 hwhole)

theorem vacant_iff_allVacant (h : s.Charts c) {v : Survey} {address : Nat} :
    s.Vacant v address ↔ s.AllVacant v address (blockSize 0) := by
  constructor
  · intro hvacant
    obtain ⟨⟨j, hj, rfl⟩, -⟩ := id hvacant
    refine ⟨h.depicts.sound.dvd_pageAddress j, fun n hn => ?_⟩
    obtain rfl : n = 0 := by
      change n * pageSize < pageSize at hn
      simp only [pageSize] at hn
      omega
    rwa [Nat.zero_mul]
  · intro hall
    have hfirst := hall.2 0 (by decide)
    rwa [Nat.zero_mul] at hfirst

theorem grant?_object_eq_none_iff (h : s.Charts c) : c.grant? (.object i) = none ↔
    s.AllHeld (c.survey s.pool.arena) i ∧
      ∀ address, ¬s.Vacant (c.survey s.pool.arena) address := by
  rw [Chart.grant?_object_eq_none, h.allHeld_iff, h.take?_eq_none_iff (Nat.zero_le _)]
  simp only [h.vacant_iff_allVacant]

theorem exact_of_grade (h : s.Charts c) {size : Nat} {g : Grade} {answer : Except Refusal Nat}
    {pool : Pool} (hround : roundSize size = .ok g.size)
    (hmemory : answer = .error .outOfMemory ↔ c.grant? g = none)
    (hrefusal : ∀ refusal, answer = .error refusal → refusal = .outOfMemory ∧ pool = s.pool) :
    s.Exact (c.survey s.pool.arena) size answer pool := by
  have hvalid : ¬(size = 0 ∨ 2 ^ 24 < size) := fun hinvalid => by
    rw [roundSize_eq_error_iff.2 ⟨rfl, hinvalid⟩] at hround
    cases hround
  refine ⟨?_, fun rounded hrounded hle => ?_, fun rounded hrounded hlt => ?_,
    fun refusal hanswer => .inr (hrefusal refusal hanswer).1,
    fun refusal hanswer => (hrefusal refusal hanswer).2⟩
  · refine iff_of_false (fun hanswer => ?_) hvalid
    cases (hrefusal _ hanswer).1
  all_goals
    rw [hround, Except.ok.injEq] at hrounded
    subst hrounded
    rw [hmemory]
  · cases g with
    | object i => exact absurd (classSizes_lt i) (Nat.not_lt.2 hle)
    | block k =>
        rw [Chart.grant?_block_eq_none]
        exact h.take?_eq_none_iff (Nat.le_of_lt_succ k.isLt)
  · cases g with
    | block k => exact absurd (pageSize_le_blockSize k) (Nat.not_le.2 hlt)
    | object i =>
        rw [h.grant?_object_eq_none_iff]
        refine and_congr_left fun _ => ⟨fun hall j hj => ?_, fun hall => hall i rfl⟩
        exact classSizes_inj j i hj ▸ hall

theorem allocate_exact (h : s.Charts c) (size : Nat) :
    ∃ answer pool events, s.pool.allocate size = .ok (answer, pool, events) ∧
      s.Exact (c.survey s.pool.arena) size answer pool := by
  cases hround : roundSize size with
  | error refusal =>
      obtain ⟨rfl, hinvalid⟩ := roundSize_eq_error_iff.1 hround
      refine ⟨.error .invalidSize, s.pool, [], by rw [Pool.allocate, hround],
        iff_of_true rfl hinvalid, fun rounded hrounded => ?_, fun rounded hrounded => ?_,
        fun refusal hanswer => .inl (Except.error.inj hanswer).symm, fun _ _ => rfl⟩
      all_goals
        rw [hround] at hrounded
        cases hrounded
  | ok rounded =>
      obtain ⟨-, g, rfl⟩ := exists_grade hround
      cases h.depicts.allocate hround with
      | refused hnone hrun =>
          exact ⟨_, _, _, hrun, h.exact_of_grade hround (iff_of_true rfl hnone)
            fun refusal hanswer => ⟨(Except.error.inj hanswer).symm, rfl⟩⟩
      | granted x c' pool hsome hrun hbecomes =>
          refine ⟨_, _, _, hrun, h.exact_of_grade hround ?_ fun refusal hanswer => ?_⟩
          · simp [hsome]
          · cases hanswer

theorem allocateZeroed_exact (h : s.Charts c) (size : Nat) :
    ∃ answer pool events, s.pool.allocateZeroed size = .ok (answer, pool, events) ∧
      s.Exact (c.survey s.pool.arena) size answer pool := by
  obtain ⟨answer, pool, events, hrun, hexact⟩ := h.allocate_exact size
  cases answer with
  | error refusal =>
      exact ⟨.error refusal, pool, events, Pool.allocateZeroed_of_refused hrun, hexact⟩
  | ok address =>
      refine ⟨.ok address, pool.fill address size 0, events, Pool.allocateZeroed_of_granted hrun,
        { hexact with unchanged := fun refusal hanswer => ?_ }⟩
      cases hanswer

end Charts

/-- Requests of any size at any point of a run. -/
theorem Reached.requests_exact {start stop : Nat} {s : Ledger} (h : Reached start stop s) :
    ∃ v, s.pool.Surveys v ∧ ∀ size,
      (∃ answer pool events, s.pool.allocate size = .ok (answer, pool, events) ∧
        s.Exact v size answer pool) ∧
      ∃ answer pool events, s.pool.allocateZeroed size = .ok (answer, pool, events) ∧
        s.Exact v size answer pool := by
  obtain ⟨c, hcharts, -⟩ := h.charts
  exact ⟨_, hcharts.depicts.surveys, fun size =>
    ⟨hcharts.allocate_exact size, hcharts.allocateZeroed_exact size⟩⟩

theorem requests_exact_of_four_pages : ∃ s, s.held = [⟨8448, 128⟩, ⟨16384, 8192⟩] ∧
    Reached 4096 24576 s ∧ ∃ v, s.pool.Surveys v ∧ ∀ size,
      (∃ answer pool events, s.pool.allocate size = .ok (answer, pool, events) ∧
        s.Exact v size answer pool) ∧
      ∃ answer pool events, s.pool.allocateZeroed size = .ok (answer, pool, events) ∧
        s.Exact v size answer pool := by
  obtain ⟨s, hreached, hheld⟩ := exists_reached
  exact ⟨s, hheld, hreached, hreached.requests_exact⟩

end Ledger
end BuddySlab
