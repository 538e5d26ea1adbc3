import BuddySlab.Proofs.SelfTests
import BuddySlab.Script.Session

/-!
What the suites of checks leave behind, told from the counts of free objects and free bytes. They give
back all that they were lent, with one exception: the check that the object released last is handed
out first asks for two objects before it looks at either answer, so where the second is refused the
first is not given back. This happens to the suite of the object tier, where one object of 32 bytes is
free and the free pages are not more than the classes without a free object.
-/

namespace BuddySlab

/-- This suite tries the object tier, alone or after others. -/
def Script.TestSuite.TriesObjects (suite : Script.TestSuite) : Prop :=
  suite = .slab ∨ suite = .all

namespace Pool

/-- By the counts of its slabs and of their free objects, so many objects of a class are held. -/
def CountsHeld (p : Pool) (i : Fin classSizes.size) (n : Nat) : Prop :=
  ∃ free each, (p.caches.get i).freeObjects p.memory p.slabLimit = .ok free ∧
    (p.caches.get i).objectCount = .ok each ∧
    free + n = each * ((p.caches.get i).slabs p.memory p.slabLimit).length

/-- By the counts of free blocks and of slabs, so many bytes are free or belong to slabs. -/
def CountsFree (p : Pool) (n : Nat) : Prop :=
  ∃ bytes, p.buddy.freeBytes = .ok bytes ∧ bytes + pageSize * ((List.finRange classSizes.size).map
    fun i => ((p.caches.get i).slabs p.memory p.slabLimit).length).sum = n

theorem CountsHeld.unique {p : Pool} {i : Fin classSizes.size} {n m : Nat} (h : p.CountsHeld i n)
    (h' : p.CountsHeld i m) : n = m := by
  obtain ⟨free, each, hfree, heach, hsum⟩ := h
  obtain ⟨free', each', hfree', heach', hsum'⟩ := h'
  cases hfree.symm.trans hfree'
  cases heach.symm.trans heach'
  omega

end Pool

namespace Ledger
open Service SelfTest

/-- The pool has so many objects of each class out in addition, and as many bytes free or in slabs;
what was held is still held, with its bytes. -/
structure Returned (s : Ledger) (pool : Pool) (kept : Fin classSizes.size → Nat) : Prop where
  objects : ∀ i, ∃ n, s.pool.CountsHeld i n ∧ pool.CountsHeld i (n + kept i)
  pages : ∃ n, s.pool.CountsFree n ∧ pool.CountsFree n
  blocks : ∃ acts held, Runs s acts ⟨pool, held⟩ ∧ ∀ e ∈ s.held, Act.free e.address ∉ acts ∧
    e ∈ held ∧ ∀ x, e.Covers x → pool.memory.read x = s.pool.memory.read x

/-- One object of 32 bytes is free, and the free pages are not more than the classes without a free
object. -/
def Strands (s : Ledger) : Prop :=
  (s.pool.caches.get lifoClass).freeObjects s.pool.memory s.pool.slabLimit = .ok 1 ∧
    ∃ bytes, s.pool.buddy.freeBytes = .ok bytes ∧
      bytes ≤ pageSize * (List.finRange classSizes.size).countP fun i =>
        decide ((s.pool.caches.get i).freeObjects s.pool.memory s.pool.slabLimit = .ok 0)

theorem Returned.unique {s : Ledger} {pool : Pool} {kept kept' : Fin classSizes.size → Nat}
    (h : s.Returned pool kept) (h' : s.Returned pool kept') : kept = kept' := by
  funext i
  obtain ⟨n, hn, hkept⟩ := h.objects i
  obtain ⟨m, hm, hkept'⟩ := h'.objects i
  obtain rfl := hn.unique hm
  exact Nat.add_left_cancel (hkept.unique hkept')

namespace Charts
variable {s : Ledger} {c : Chart}

theorem strands_iff (h : s.Charts c) : s.Strands ↔ c.Strands := by
  have hfree (i : Fin classSizes.size) (n : Nat) :
      (s.pool.caches.get i).freeObjects s.pool.memory s.pool.slabLimit = .ok n ↔
        c.vacantObjects i = n := by
    rw [h.freeObjects_eq, Except.ok.injEq]
    rfl
  simp only [Strands, hfree, h.freeBytes_eq, Except.ok.injEq, exists_eq_left', Chart.Strands,
    Nat.mul_le_mul_left_iff (show 0 < pageSize by decide)]

theorem countsHeld (h : s.Charts c) (i : Fin classSizes.size) :
    s.pool.CountsHeld i (s.held.filter (·.size = classSizes.get i)).length :=
  h.objects_conserved i

theorem countsFree (h : s.Charts c) : s.pool.CountsFree
    (s.pool.arena.stop - s.pool.arena.payloadStart - (s.heldBlocks.map Extent.size).sum) := by
  obtain ⟨bytes, hbytes, hsum⟩ := h.conserved
  refine ⟨bytes, hbytes, ?_⟩
  have hslabs (i : Fin classSizes.size) :
      (s.pool.caches.get i).slabs s.pool.memory s.pool.slabLimit =
        (c.survey s.pool.arena).slabs i :=
    h.depicts.surveys.slabs_eq i _ (Nat.le_refl _)
  simp only [hslabs]
  omega

end Charts

namespace Trial
variable {s₀ s : Ledger} {c₀ c : Chart} {lent : List Extent}

/-- Apart from the objects that are still lent all is given back. -/
theorem returned (h : Trial s₀ [] lent s c) (h₀ : s₀.Charts c₀)
    (hlent : ∀ e ∈ lent, e.size < pageSize) :
    s₀.Returned s.pool fun i => (lent.filter (·.size = classSizes.get i)).length := by
  refine ⟨fun i => ⟨_, h₀.countsHeld i, ?_⟩, ⟨_, h₀.countsFree, ?_⟩, ?_⟩
  · have hcounts := h.charts.countsHeld i
    rw [(h.held.filter _).length_eq, List.map_nil, List.nil_append, List.filter_append,
      List.length_append, Nat.add_comm] at hcounts
    exact hcounts
  · have hcounts := h.charts.countsFree
    have hblocks := h.held.filter (pageSize ≤ ·.size)
    have hnone : lent.filter (pageSize ≤ ·.size) = [] :=
      List.filter_eq_nil_iff.2 fun e he => by simpa using hlent e he
    rw [List.map_nil, List.nil_append, List.filter_append, hnone, List.nil_append] at hblocks
    rw [h.arena, heldBlocks, (hblocks.map _).sum_nat] at hcounts
    exact hcounts
  · obtain ⟨acts, hruns, hfree⟩ := h.runs
    exact ⟨acts, s.held, hruns, fun e he => ⟨hfree e he, h.held_subset he, h.bytes e he⟩⟩

theorem returned_of_leaves {p : Prop} (h : Trial s₀ [] lent s c) (h₀ : s₀.Charts c₀)
    (hleaves : Leaves p lent) :
    (¬p → s₀.Returned s.pool 0) ∧ (p → s₀.Returned s.pool (Pi.single lifoClass 1)) := by
  cases hleaves with
  | nothing hp => exact ⟨fun _ => h.returned h₀ (List.forall_mem_nil _), fun hp' => absurd hp' hp⟩
  | @one e he hp =>
      refine ⟨fun hp' => absurd hp hp', fun _ => ?_⟩
      have hreturned := h.returned h₀ (List.forall_mem_singleton.2 (he ▸ classSizes_lt lifoClass))
      have hkept : (fun i => ([e].filter (·.size = classSizes.get i)).length) =
          Pi.single lifoClass 1 := by
        funext i
        by_cases hi : i = lifoClass
        · subst hi
          simp [he]
        · have hne : e.size ≠ classSizes.get i :=
            fun heq => hi (classSizes_inj i lifoClass (heq ▸ he))
          simp [hne, hi]
      rwa [hkept] at hreturned

theorem ends_selfTest (h : Trial s₀ [] [] s c) (suite : Script.TestSuite) :
    Ends (Script.Run.selfTest suite) s fun _ s' =>
      ∃ left, Leaves (suite.TriesObjects ∧ c.Strands) left ∧ ∃ c', Trial s₀ [] left s' c' := by
  cases suite with
  | buddy =>
      refine h.ends_buddySuite.mono fun _ s' hend => ?_
      obtain ⟨-, -, c', h', -⟩ := hend
      exact ⟨[], .nothing fun htries => htries.1.elim nofun nofun, c', h'⟩
  | slab =>
      refine h.ends_slabSuite.mono fun _ s' hend => ?_
      obtain ⟨-, -, left, hleft, c', h'⟩ := hend
      rw [List.append_nil] at h'
      exact ⟨left, by rwa [and_iff_right (.inl rfl)], c', h'⟩
  | pool =>
      refine h.ends_poolSuite.mono fun _ s' hend => ?_
      obtain ⟨-, -, c', h'⟩ := hend
      exact ⟨[], .nothing fun htries => htries.1.elim nofun nofun, c', h'⟩
  | all =>
      refine h.ends_run.mono fun _ s' hend => ?_
      obtain ⟨-, -, left, hleft, c', h'⟩ := hend
      rw [List.append_nil] at h'
      exact ⟨left, by rwa [and_iff_right (.inr rfl)], c', h'⟩

end Trial

theorem Charts.selfTest_returns {s : Ledger} {c : Chart} (h : s.Charts c)
    (suite : Script.TestSuite) (console : Console) : ∃ summary pool console',
      Script.Run.selfTest suite ⟨s.pool, console, [], []⟩ =
        .ok (summary, ⟨pool, console', [], []⟩) ∧
      (s.Returned pool 0 ↔ ¬(suite.TriesObjects ∧ s.Strands)) ∧
      (suite.TriesObjects ∧ s.Strands → s.Returned pool (Pi.single lifoClass 1)) := by
  obtain ⟨summary, s', console', hrun, left, hleft, c', h'⟩ := h.trial.ends_selfTest suite console
  rw [← h.strands_iff] at hleft
  obtain ⟨hall, hone⟩ := h'.returned_of_leaves h hleft
  refine ⟨summary, s'.pool, console', hrun, ⟨fun hreturned hstrands => ?_, hall⟩, hone⟩
  have hkept := congrFun (hreturned.unique (hone hstrands)) lifoClass
  rw [Pi.single_eq_same] at hkept
  exact absurd hkept (by decide)

/-- At every point of a run each suite comes to an end, with all objects and pages given back, unless
it tries the object tier and strands an object there: then that object is held by nobody, and all
else is given back. -/
theorem Reached.self_tests_return {start stop : Nat} {s : Ledger} (h : Reached start stop s)
    (suite : Script.TestSuite) (console : Console) : ∃ summary pool console',
      Script.Run.selfTest suite ⟨s.pool, console, [], []⟩ =
        .ok (summary, ⟨pool, console', [], []⟩) ∧
      (s.Returned pool 0 ↔ ¬(suite.TriesObjects ∧ s.Strands)) ∧
      (suite.TriesObjects ∧ s.Strands → s.Returned pool (Pi.single lifoClass 1)) := by
  obtain ⟨c, hcharts, -⟩ := h.charts
  exact hcharts.selfTest_returns suite console

/-- In a payload of one page all objects of 32 bytes but one are held. -/
theorem exists_stranded : ∃ pool s, Pool.init .blank 0x1000000000 0x1000002000 = .ok (.ok pool) ∧
    Runs ⟨pool, []⟩ (List.replicate 125 (.allocate 32)) s ∧ s.Strands := by
  let a : Arena := ⟨0x1000000000, 1, 0x1000001000, 0x1000002000⟩
  have hlaid : Arena.layOut 0x1000000000 0x1000002000 = .ok (.ok a) := rfl
  obtain ⟨pool, hinit, harena, hdepicts⟩ := Pool.init_eq .blank hlaid
  have hround : roundSize 32 = .ok (classSizes.get lifoClass) := roundSize_class lifoClass
  have hslots := slots_lifoClass
  have hobjects : (Chart.initial a).vacantObjects lifoClass = 0 := rfl
  have hpages : (Chart.initial a).vacantPages = 1 :=
    hdepicts.vacantPages_initial.trans (congrArg Arena.pages harena)
  obtain ⟨s₁, c₁, hstep, h₁, hstock⟩ := (Charts.initial hdepicts).step_object hround (by omega)
  obtain ⟨s, c, hruns, h, hleft, hsame⟩ :=
    h₁.runs_objects hround (show 124 ≤ c₁.vacantObjects lifoClass by omega)
  refine ⟨pool, s, hinit, .cons hstep hruns, h.strands_iff.2 ⟨by omega, ?_⟩⟩
  rw [show c.vacantPages = 0 by omega]
  exact Nat.zero_le _

/-- There the whole self test keeps an object. -/
theorem object_not_returned : ∃ pool s,
    Pool.init .blank 0x1000000000 0x1000002000 = .ok (.ok pool) ∧
    Runs ⟨pool, []⟩ (List.replicate 125 (.allocate 32)) s ∧
    ∃ summary pool' console, Script.Run.selfTest .all ⟨s.pool, ⟨none, #[]⟩, [], []⟩ =
      .ok (summary, ⟨pool', console, [], []⟩) ∧ ¬s.Returned pool' 0 := by
  obtain ⟨pool, s, hinit, hruns, hstrands⟩ := exists_stranded
  obtain ⟨c, h, -⟩ := Reached.charts ⟨_, pool, _, hinit, hruns⟩
  obtain ⟨summary, pool', console, hrun, hreturned, -⟩ := h.selfTest_returns .all ⟨none, #[]⟩
  exact ⟨pool, s, hinit, hruns, summary, pool', console, hrun, fun hall =>
    hreturned.1 hall ⟨.inr rfl, hstrands⟩⟩

theorem self_tests_return_of_one_page : ∃ s, Reached 0x1000000000 0x1000002000 s ∧
    (∃ summary pool console, Script.Run.selfTest .pool ⟨s.pool, ⟨none, #[]⟩, [], []⟩ =
      .ok (summary, ⟨pool, console, [], []⟩) ∧ s.Returned pool 0) ∧
    ∃ summary pool console, Script.Run.selfTest .slab ⟨s.pool, ⟨none, #[]⟩, [], []⟩ =
      .ok (summary, ⟨pool, console, [], []⟩) ∧ s.Returned pool (Pi.single lifoClass 1) := by
  obtain ⟨pool, s, hinit, hruns, hstrands⟩ := exists_stranded
  have hreached : Reached 0x1000000000 0x1000002000 s := ⟨_, pool, _, hinit, hruns⟩
  obtain ⟨summary, p, console, hrun, hall, -⟩ := hreached.self_tests_return .pool ⟨none, #[]⟩
  obtain ⟨summary', p', console', hrun', -, hone⟩ := hreached.self_tests_return .slab ⟨none, #[]⟩
  refine ⟨s, hreached, ⟨summary, p, console, hrun, hall.2 fun htries => ?_⟩,
    summary', p', console', hrun', hone ⟨.inl rfl, hstrands⟩⟩
  exact htries.1.elim nofun nofun

end Ledger
end BuddySlab
