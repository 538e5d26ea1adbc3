import BuddySlab.Proofs.SlabChecks

/-!
The suites of checks. Wherever on a run they begin, with a logger that asks for nothing, all checks
come to an end, and none fails in a memory without a sentinel. What they were lent they have given
back, apart from one object of 32 bytes where one such object is free and there are no more free pages
than classes without a free object.
-/

namespace BuddySlab

namespace Chart
variable {c c' : Chart}

/-- One object of 32 bytes is free, and there are no pages left once each class without a free object
has taken one. -/
def Strands (c : Chart) : Prop :=
  c.vacantObjects lifoClass = 1 ∧
    c.vacantPages ≤ (List.finRange classSizes.size).countP fun i => c.vacantObjects i = 0

/-- What trying all classes leaves scant. -/
theorem Tried.scant_iff (h : c.Tried (List.finRange classSizes.size) c') :
    c'.Scant ↔ c.Strands := by
  have hpages := h.pages
  have hobjects := h.objects lifoClass
  rw [slots_lifoClass] at hobjects
  rw [Scant, Strands]
  omega

end Chart

/-- A byte that was zero is zero in a fresh pool. -/
theorem Pool.read_of_init {m : Memory} {p : Pool} {start stop x : Nat}
    (h : Pool.init m start stop = .ok (.ok p)) (hx : m.read x = 0) : p.memory.read x = 0 := by
  obtain ⟨laid, -, h⟩ := bind_eq_ok.1 h
  cases laid with
  | error refusal => cases h
  | ok a =>
      obtain ⟨buddy, -, h⟩ := bind_eq_ok.1 h
      cases h
      rw [Memory.read_fill, hx, ite_self]

namespace Ledger
open Service SelfTest

namespace Trial
variable {s₀ s : Ledger} {c c' : Chart} {lent : List Extent}

/-- With the same slabs and the same blocks, there is as much left. -/
theorem strands_congr (h : Trial s₀ [] lent s c) {s' : Ledger} (h' : Trial s₀ [] lent s' c')
    (hsheets : c'.sheets = c.sheets) : c'.Strands ↔ c.Strands := by
  have hpages := h.pages_add h' rfl
  have hslabs : c'.slabPages = c.slabPages := by rw [Chart.slabPages, hsheets, Chart.slabPages]
  have hobjects : c'.vacantObjects = c.vacantObjects := funext fun i => by
    rw [Chart.vacantObjects, hsheets, Chart.vacantObjects]
  rw [hslabs, Nat.add_right_cancel_iff] at hpages
  rw [Chart.Strands, hpages, hobjects, Chart.Strands]

theorem ends_buddySuite (h : Trial s₀ [] lent s c) : Ends buddySuite s fun summary s' =>
    summary.total = 3 ∧ summary.failed = 0 ∧
      ∃ c', Trial s₀ [] lent s' c' ∧ (c'.Strands ↔ c.Strands) := by
  refine ends_runSuite (ends_runAll_cons (h.ends_orderAlignment.mono fun v₁ s₁ h₁ => ?_))
  obtain ⟨hv₁, c₁, h₁, hsheets⟩ := h₁
  refine ends_runAll_cons (h₁.ends_roundTrip.mono fun v₂ s₂ h₂ => ?_)
  obtain ⟨hv₂, h₂⟩ := h₂
  refine ends_runAll_cons (h₂.ends_oversizeRejected.mono fun v₃ s₃ h₃ => ?_)
  obtain ⟨hv₃, h₃⟩ := h₃
  refine ends_pure ⟨?_, ?_, c₁, h₃, h.strands_congr h₁ hsheets⟩
  · simp only [Summary.total_count]
    rfl
  · simp only [Summary.failed_count hv₁, Summary.failed_count hv₂, Summary.failed_count hv₃]
    rfl

theorem ends_slabSuite (h : Trial s₀ [] lent s c) : Ends slabSuite s fun summary s' =>
    summary.total = 3 ∧ summary.failed = 0 ∧
      ∃ left, Leaves c.Strands left ∧ ∃ c', Trial s₀ [] (left ++ lent) s' c' := by
  refine ends_runSuite (ends_runAll_cons (h.ends_classAlignment.mono fun v₁ s₁ h₁ => ?_))
  obtain ⟨hv₁, c₁, h₁, htried⟩ := h₁
  refine ends_runAll_cons (h₁.ends_lastFreedFirst.mono fun v₂ s₂ h₂ => ?_)
  obtain ⟨hv₂, left, hleft, c₂, h₂⟩ := h₂
  refine ends_runAll_cons (h₂.ends_pageFlag.mono fun v₃ s₃ h₃ => ?_)
  obtain ⟨hv₃, c₃, h₃⟩ := h₃
  rw [htried.scant_iff] at hleft
  refine ends_pure ⟨?_, ?_, left, hleft, c₃, h₃⟩
  · simp only [Summary.total_count]
    rfl
  · simp only [Summary.failed_count hv₁, Summary.failed_count hv₂, Summary.failed_count hv₃]
    rfl

theorem ends_poolSuite (h : Trial s₀ [] lent s c) : Ends poolSuite s fun summary s' =>
    summary.total = 3 ∧ (s₀.Unmarked → summary.failed = 0) ∧ ∃ c', Trial s₀ [] lent s' c' := by
  refine ends_runSuite (ends_runAll_cons (h.ends_zeroSize.mono fun v₁ s₁ h₁ => ?_))
  obtain ⟨hv₁, h₁⟩ := h₁
  refine ends_runAll_cons (h₁.ends_sentinelFill.mono fun v₂ s₂ h₂ => ?_)
  obtain ⟨hv₂, c₂, h₂⟩ := h₂
  refine ends_runAll_cons (h₂.ends_freeNull.mono fun v₃ s₃ h₃ => ?_)
  obtain ⟨hv₃, h₃⟩ := h₃
  refine ends_pure ⟨?_, fun hun => ?_, c₂, h₃⟩
  · simp only [Summary.total_count]
    rfl
  · simp only [Summary.failed_count hv₁, Summary.failed_count (hv₂ hun), Summary.failed_count hv₃]
    rfl

theorem ends_run (h : Trial s₀ [] lent s c) : Ends run s fun summary s' =>
    summary.total = 9 ∧ (s₀.Unmarked → summary.failed = 0) ∧
      ∃ left, Leaves c.Strands left ∧ ∃ c', Trial s₀ [] (left ++ lent) s' c' := by
  refine Ends.bind (ends_write (h.ends_buddySuite.andThen fun first s₁ h₁ => ?_))
  obtain ⟨htotal₁, hfailed₁, c₁, h₁, hstrands⟩ := h₁
  refine h₁.ends_slabSuite.andThen fun second s₂ h₂ => ?_
  obtain ⟨htotal₂, hfailed₂, left, hleft, c₂, h₂⟩ := h₂
  rw [hstrands] at hleft
  have hmerge := Summary.merge_eq (s := first) (t := second) (by omega)
  refine Ends.bind (ends_consult hmerge (h₂.ends_poolSuite.andThen fun third s₃ h₃ => ?_))
  obtain ⟨htotal₃, hfailed₃, c₃, h₃⟩ := h₃
  simp only [Summary.total] at htotal₁ htotal₂ htotal₃
  refine Ends.bind (ends_consult (Summary.merge_eq ?_) (Ends.bind (ends_write (ends_pure ?_))))
  · simp only [Summary.total]
    omega
  · refine ⟨?_, fun hun => ?_, left, hleft, c₃, h₃⟩
    · simp only [Summary.total]
      omega
    · have hfailed := hfailed₃ hun
      simp only
      omega

end Trial

/-- Whatever was done to a pool before, its self test does not fail, if there is no sentinel in what
nobody holds and none may come of the links of free objects. -/
theorem Reached.self_test_clear {start stop : Nat} {s : Ledger} (h : Reached start stop s)
    (hun : s.Unmarked) (console : Console) :
    ∃ summary station, SelfTest.run ⟨s.pool, console, [], []⟩ = .ok (summary, station) ∧
      summary.failed = 0 ∧ summary.passed + summary.skipped = 9 := by
  obtain ⟨c, hcharts, -⟩ := h.charts
  obtain ⟨summary, s', console', hrun, htotal, hfailed, -⟩ := hcharts.trial.ends_run console
  have hfailed := hfailed hun
  rw [Summary.total] at htotal
  exact ⟨summary, _, hrun, hfailed, by omega⟩

/-- A pool that was made of memory without a set byte, below the addresses whose upper half is the
sentinel or more, has no sentinel. -/
theorem unmarked_of_init {m : Memory} {p : Pool} {start stop : Nat}
    (h : Pool.init m start stop = .ok (.ok p)) (hm : ∀ x, m.read x = 0)
    (hstop : p.arena.stop ≤ sentinel * 2 ^ 32) : Unmarked ⟨p, []⟩ := by
  refine ⟨fun w _ _ => ?_, fun x _ hx => ?_⟩
  · rw [Memory.readNumber_eq_zero fun x _ _ => Pool.read_of_init h (hm x)]
    decide
  · have hx : x < sentinel * 2 ^ 32 := Nat.lt_of_lt_of_le hx hstop
    exact Nat.ne_of_lt ((Nat.div_lt_iff_lt_mul (Nat.two_pow_pos 32)).2 hx)

/-- Of two pages one is held and begins with a sentinel; in the other there is none. -/
theorem exists_unmarked : ∃ s, Reached 4096 16384 s ∧ s.Unmarked ∧
    ∃ e ∈ s.held, s.pool.memory.readNumber e.address 4 = sentinel := by
  let a : Arena := ⟨4096, 2, 8192, 16384⟩
  have hlaid : Arena.layOut 4096 16384 = .ok (.ok a) := rfl
  obtain ⟨pool, hinit, harena, hdepicts⟩ := Pool.init_eq .blank hlaid
  have hpages : (Chart.initial a).vacantPages = 2 :=
    hdepicts.vacantPages_initial.trans (congrArg Arena.pages harena)
  have hun : Unmarked ⟨pool, []⟩ :=
    unmarked_of_init hinit Memory.read_blank (by rw [harena]; decide)
  obtain ⟨answer, s₁, events, hrun, hlends⟩ := (Charts.initial hdepicts).trial.request
    (g := .block ⟨0, Nat.succ_pos _⟩) (roundSize_blockSize ⟨0, _⟩)
  cases hlends with
  | refused refusal hnone =>
      have hzero := Chart.take?_eq_none_iff.1 (Chart.grant?_block_eq_none.1 hnone)
      omega
  | granted x c₁ _ hg h₁ =>
      cases Chart.grants_of_eq_some hg with
      | @block k first free htake =>
          have h₂ := h₁.fill (n := 4) (show 4 ≤ blockSize 0 by decide) (by decide)
            (changedIn_writeSentinels s₁.pool.memory _ 4)
          have hheld := h₂.mem_own (List.mem_append_left _ List.mem_cons_self)
          obtain ⟨acts, hruns, -⟩ := h₂.runs
          refine ⟨_, (Reached.init hinit).runs hruns, ⟨?_, h₂.arena ▸ hun.arena⟩, _, hheld,
            Memory.readNumber_writeNumber ..⟩
          rw [h₂.arena]
          -- there is no slab, so what is taken is the filled word
          refine (h₂.clean hun).congr (fun z hz => ?_) fun _ _ => rfl
          cases hz with
          | inl hreserves =>
              obtain ⟨i, t, ht, -⟩ := hreserves
              cases ht
          | inr hdirty =>
              obtain ⟨e, he, hcovers⟩ := hdirty
              obtain rfl := List.mem_singleton.1 he
              refine ⟨_, hheld, hcovers.1, Nat.lt_of_lt_of_le hcovers.2 ?_⟩
              exact Nat.add_le_add_left (show 4 ≤ blockSize 0 by decide) _

theorem self_test_clear_of_two_pages : ∃ s, Reached 4096 16384 s ∧ s.Unmarked ∧
    (∃ e ∈ s.held, s.pool.memory.readNumber e.address 4 = sentinel) ∧
    ∃ summary station, SelfTest.run ⟨s.pool, ⟨none, #[]⟩, [], []⟩ = .ok (summary, station) ∧
      summary.failed = 0 ∧ summary.passed + summary.skipped = 9 := by
  obtain ⟨s, hreached, hun, hmarked⟩ := exists_unmarked
  exact ⟨s, hreached, hun, hmarked, hreached.self_test_clear hun ⟨none, #[]⟩⟩

end Ledger
end BuddySlab
