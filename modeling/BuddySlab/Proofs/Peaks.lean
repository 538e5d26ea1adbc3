import BuddySlab.Proofs.Stacks

/-!
Slabs are created only when needed. A class has as many slabs as the largest number of its objects
that were ever held at one time requires, however they were released and asked for since. A step
either keeps the slabs of a class or adds one where all objects of the others are held, so the
number of slabs never runs ahead of the peak.
-/

namespace BuddySlab

namespace Chart
variable {c c' : Chart} {g : Grade} {x : Item} {i : Fin classSizes.size}

/-- Granting keeps the slabs of a class, or adds one in front where none has a free object. -/
theorem pages_grant (hg : c.grant? g = some (x, c')) (i : Fin classSizes.size) :
    (c'.sheets i).map Sheet.page = (c.sheets i).map Sheet.page ∨
      g = .object i ∧ Sheet.first? (c.sheets i) = none ∧
        ∃ page, (c'.sheets i).map Sheet.page = page :: (c.sheets i).map Sheet.page := by
  cases grants_of_eq_some hg with
  | block htake => exact .inl rfl
  | @object j page number hfirst => exact .inl (c.pages_restack j page List.tail i)
  | @slab j page free hfull htake =>
      rw [setSheets_sheets]
      by_cases hj : i = j
      · subst hj
        exact .inr ⟨rfl, hfull, page, by rw [if_pos rfl]; rfl⟩
      · exact .inl (by rw [if_neg hj])

theorem pages_release (c : Chart) (base : Nat) (x : Item) (i : Fin classSizes.size) :
    ((c.release base x).sheets i).map Sheet.page = (c.sheets i).map Sheet.page := by
  cases x with
  | block b => rfl
  | object j page number => exact c.pages_restack j page (number :: ·) i

end Chart

theorem Pool.allocate_of_allocateZeroed {p p' : Pool} {n : Nat} {answer : Except Refusal Nat}
    {events : List Event} (hrun : p.allocateZeroed n = .ok (answer, p', events)) :
    ∃ plain, p.allocate n = .ok (answer, plain, events) ∧ p'.buddy = plain.buddy := by
  obtain ⟨⟨result, plain, news⟩, hplain, hrun⟩ := bind_eq_ok.1 hrun
  cases result with
  | error refusal =>
      cases hrun
      exact ⟨p', hplain, rfl⟩
  | ok address =>
      cases hrun
      exact ⟨plain, hplain, rfl⟩

namespace Ledger

/-- How many objects of a class are held. -/
def objectsHeld (s : Ledger) (i : Fin classSizes.size) : Nat :=
  (s.held.filter (·.size = classSizes.get i)).length

/-- The slabs of a class, newest first. -/
def slabs (s : Ledger) (i : Fin classSizes.size) : List Nat :=
  (s.pool.caches.get i).slabs s.pool.memory s.pool.slabLimit

/-- The ledger is met on a run from a fresh pool of this range, after these ledgers, the latest
first. -/
inductive Chronicle (start stop : Nat) : Ledger → List Ledger → Prop
  | opened {m : Memory} {pool : Pool} (hinit : Pool.init m start stop = .ok (.ok pool)) :
      Chronicle start stop ⟨pool, []⟩ []
  | step {s s' : Ledger} {past : List Ledger} {act : Act} (h : Chronicle start stop s past)
      (hstep : Step s act s') : Chronicle start stop s' (s :: past)

/-- The largest number of objects of a class that are held at one time. -/
def peak (i : Fin classSizes.size) : List Ledger → Nat
  | [] => 0
  | s :: past => max (s.objectsHeld i) (peak i past)

/-- The act asks for an object of the class or releases one. -/
inductive Concerns (s : Ledger) (i : Fin classSizes.size) : Act → Prop
  | allocate {n : Nat} (hround : roundSize n = .ok (classSizes.get i)) : Concerns s i (.allocate n)
  | allocateZeroed {n : Nat} (hround : roundSize n = .ok (classSizes.get i)) :
      Concerns s i (.allocateZeroed n)
  | free {e : Extent} (he : e ∈ s.held) (hsize : e.size = classSizes.get i) :
      Concerns s i (.free e.address)

/-- Objects of the class are asked for and released, in any order, and never more than this many are
held. -/
inductive Reuses (i : Fin classSizes.size) (most : Nat) (s : Ledger) : Ledger → Prop
  | none : Reuses i most s s
  | act {t t' : Ledger} {act : Act} (h : Reuses i most s t) (hact : t.Concerns i act)
      (hstep : Step t act t') (hmost : t'.objectsHeld i ≤ most) : Reuses i most s t'

/-- A step keeps the slabs of a class, or more objects are held after it than they have. -/
inductive Paced (s s' : Ledger) (i : Fin classSizes.size) : Prop
  | kept (hslabs : s'.slabs i = s.slabs i)
  | grown (page : Nat) (hslabs : s'.slabs i = page :: s.slabs i)
      (hmore : Slab.slots (classSizes.get i) * (s.slabs i).length < s'.objectsHeld i)

/-- A request is refused and leaves the pool as it is, or what the chart grants for it is held in
addition. -/
inductive Obtains (s : Ledger) (c : Chart) (n : Nat)
    (run : Except Fault (Except Refusal Nat × Pool × List Event)) : Prop
  | refused (refusal : Refusal) (events : List Event)
      (hrun : run = .ok (.error refusal, s.pool, events))
  | granted (g : Grade) (x : Item) (c' : Chart) (pool : Pool) (events : List Event)
      (hround : roundSize n = .ok g.size) (hg : c.grant? g = some (x, c'))
      (hrun : run = .ok (.ok (x.extent s.pool.arena).address, pool, events))
      (harena : pool.arena = s.pool.arena)
      (hcharts : Charts ⟨pool, x.extent s.pool.arena :: s.held⟩ c')

theorem objectsHeld_cons {i : Fin classSizes.size} {e : Extent} {held : List Extent}
    (hsize : e.size = classSizes.get i) (pool : Pool) :
    objectsHeld ⟨pool, e :: held⟩ i = (held.filter (·.size = classSizes.get i)).length + 1 := by
  simp [objectsHeld, hsize]

theorem Step.run_of_free {s s' : Ledger} {address : Nat} (hstep : Step s (.free address) s') :
    ∃ events, s.pool.free address = .ok (s'.pool, events) := by
  cases hstep with
  | freeNull hrun => exact ⟨_, hrun⟩
  | free _ hrun => exact ⟨_, hrun⟩

namespace Charts
variable {s s' : Ledger} {c c' : Chart} {i : Fin classSizes.size} {n : Nat} {act : Act}
  {answer : Except Refusal Nat} {pool : Pool} {events : List Event}
  {run : Except Fault (Except Refusal Nat × Pool × List Event)}

theorem slabs_eq (h : s.Charts c) (i : Fin classSizes.size) :
    s.slabs i = ((c.sheets i).map Sheet.page).map s.pool.arena.pageAddress := by
  rw [List.map_map]
  exact h.depicts.surveys.slabs_eq i s.pool.slabLimit (Nat.le_refl _)

theorem length_slabs (h : s.Charts c) (i : Fin classSizes.size) :
    (s.slabs i).length = (c.sheets i).length := by
  rw [h.slabs_eq, List.length_map, List.length_map]

theorem objectsHeld_le (h : s.Charts c) (i : Fin classSizes.size) :
    s.objectsHeld i ≤ Slab.slots (classSizes.get i) * (s.slabs i).length := by
  have hobjects := h.sum_objects i
  rw [h.length_slabs, objectsHeld]
  omega

/-- Where no slab has a free object, all objects are held. -/
theorem objectsHeld_of_full (h : s.Charts c) (hfull : Sheet.first? (c.sheets i) = none) :
    s.objectsHeld i = Slab.slots (classSizes.get i) * (s.slabs i).length := by
  have hobjects := h.sum_objects i
  have hempty : ((c.sheets i).map fun t => t.stack.length).sum = 0 := by
    refine List.sum_eq_zero fun n hn => ?_
    obtain ⟨t, ht, rfl⟩ := List.mem_map.1 hn
    rw [Sheet.first?_eq_none.1 hfull t ht, List.length_nil]
  rw [h.length_slabs, objectsHeld]
  omega

/-- What has the pages of one chart after another keeps its slabs. -/
theorem kept (h : s.Charts c) (h' : s'.Charts c') (harena : s'.pool.arena = s.pool.arena)
    (hpages : (c'.sheets i).map Sheet.page = (c.sheets i).map Sheet.page) : Paced s s' i := by
  refine .kept ?_
  rw [h'.slabs_eq, h.slabs_eq, harena, hpages]

theorem obtains (h : s.Charts c) (n : Nat) : s.Obtains c n (s.pool.allocate n) := by
  cases hround : roundSize n with
  | error refusal => exact .refused refusal [] (by rw [Pool.allocate, hround])
  | ok rounded =>
      obtain ⟨-, g, rfl⟩ := exists_grade hround
      cases h.depicts.allocate hround with
      | refused hnone hrun => exact .refused _ _ hrun
      | granted x c' pool hg hrun hbecomes =>
          exact .granted g x c' pool _ hround hg hrun hbecomes.arena (h.grant hg hbecomes)

theorem obtainsZeroed (h : s.Charts c) (n : Nat) : s.Obtains c n (s.pool.allocateZeroed n) := by
  cases h.obtains n with
  | refused refusal events hrun =>
      exact .refused refusal events (Pool.allocateZeroed_of_refused hrun)
  | granted g x c' pool events hround hg hrun harena hcharts =>
      have hle : n ≤ (x.extent s.pool.arena).size := by
        rw [Chart.size_of_grant hg]
        exact (exists_grade hround).1
      exact .granted g x c' (pool.fill _ n 0) events hround hg (Pool.allocateZeroed_of_granted hrun)
        harena (hcharts.fill List.mem_cons_self hle 0)

/-- A new slab goes to a class whose objects are all held, and one more is held then. -/
theorem paced_of_obtains (h : s.Charts c) (hobtains : s.Obtains c n run)
    (hrun : run = .ok (answer, pool, events)) (i : Fin classSizes.size) :
    Paced s ⟨pool, credit s.held n answer⟩ i := by
  cases hobtains with
  | refused refusal events' hrefused =>
      cases hrefused.symm.trans hrun
      exact .kept rfl
  | granted g x c' pool' events' hround hg hgranted harena hcharts =>
      cases hgranted.symm.trans hrun
      have hsize : (x.extent s.pool.arena).size = g.size := Chart.size_of_grant hg
      have hcredit : credit s.held n (.ok (x.extent s.pool.arena).address) =
          x.extent s.pool.arena :: s.held := by
        rw [credit_ok s.held hround, ← hsize]
      rw [hcredit]
      cases Chart.pages_grant hg i with
      | inl hpages => exact h.kept hcharts harena hpages
      | inr hslab =>
          obtain ⟨rfl, hfull, page, hpages⟩ := hslab
          refine .grown (s.pool.arena.pageAddress page) ?_ ?_
          · have harena : (Ledger.mk pool (x.extent s.pool.arena :: s.held)).pool.arena =
              s.pool.arena := harena
            rw [hcharts.slabs_eq, h.slabs_eq, harena, hpages, List.map_cons]
          · rw [← h.objectsHeld_of_full hfull, objectsHeld_cons hsize]
            exact Nat.lt_succ_self _

theorem paced (h : s.Charts c) (hstep : Step s act s') (i : Fin classSizes.size) :
    Paced s s' i := by
  cases hstep with
  | allocate hrun => exact h.paced_of_obtains (h.obtains _) hrun i
  | allocateZeroed hrun => exact h.paced_of_obtains (h.obtainsZeroed _) hrun i
  | freeNull hrun =>
      rw [Pool.Depicts.free_zero] at hrun
      cases hrun
      exact .kept rfl
  | free hheld hrun =>
      obtain ⟨x, hx, rfl⟩ := h.exists_item hheld
      obtain ⟨pool, hfree, hbecomes⟩ := h.depicts.free hx
      cases hfree.symm.trans hrun
      exact h.kept (h.giveUp hx hbecomes) hbecomes.arena (Chart.pages_release c _ x i)
  | write hheld hcovers => exact h.kept (h.write hheld hcovers _) rfl rfl

/-- A request for an object leaves the page tier alone as long as a slab has a free one. -/
theorem buddy_of_object (h : s.Charts c) (hround : roundSize n = .ok (classSizes.get i))
    (hrun : s.pool.allocate n = .ok (answer, pool, events)) :
    pool.buddy = s.pool.buddy ∨ Slab.slots (classSizes.get i) * (s.slabs i).length <
      objectsHeld ⟨pool, credit s.held n answer⟩ i := by
  cases hfirst : Sheet.first? (c.sheets i) with
  | some found =>
      obtain ⟨page, number⟩ := found
      have hclass := class?_eq h.depicts.objectSize_eq i
      obtain ⟨m, -, hpopped, -⟩ := h.depicts.allocateObject_popped hclass hfirst
      obtain ⟨events', hserved⟩ := Pool.served_of_allocate hround hrun
      rw [if_pos (classSizes_lt i), hpopped] at hserved
      cases hserved
      exact .inl rfl
  | none =>
      have hfull := h.objectsHeld_of_full hfirst
      cases h.obtains n with
      | refused refusal events' hrefused =>
          cases hrefused.symm.trans hrun
          exact .inl rfl
      | granted g x c' pool' events' hround' hg hgranted harena hcharts =>
          cases hgranted.symm.trans hrun
          refine .inr ?_
          rw [credit_ok s.held hround, ← hfull, objectsHeld_cons rfl]
          exact Nat.lt_succ_self _

theorem buddy_of_concerns (h : s.Charts c) (hact : s.Concerns i act) (hstep : Step s act s') :
    s'.pool.buddy = s.pool.buddy ∨
      Slab.slots (classSizes.get i) * (s.slabs i).length < s'.objectsHeld i := by
  cases hact with
  | allocate hround =>
      cases hstep with
      | allocate hrun => exact h.buddy_of_object hround hrun
  | allocateZeroed hround =>
      cases hstep with
      | allocateZeroed hrun =>
          obtain ⟨pool, hplain, hbuddy⟩ := Pool.allocate_of_allocateZeroed hrun
          rw [hbuddy]
          exact h.buddy_of_object hround hplain
  | free he hsize =>
      obtain ⟨events, hrun⟩ := hstep.run_of_free
      obtain ⟨m, events', -, hfree, -⟩ :=
        h.releaseObject_stacked he (hsize ▸ classSizes_lt i)
      rw [hfree, Except.ok.injEq, Prod.mk.injEq] at hrun
      rw [← hrun.1]
      exact .inl rfl

end Charts

namespace Chronicle
variable {start stop most : Nat} {s t : Ledger} {past : List Ledger} {i : Fin classSizes.size}

theorem reached (h : Chronicle start stop s past) : Reached start stop s := by
  induction h with
  | opened hinit => exact .init hinit
  | step _ hstep ih => exact ih.runs (.cons hstep (.nil _))

theorem runs {acts : List Act} (h : Chronicle start stop s past) (hruns : Runs s acts t) :
    ∃ past', Chronicle start stop t past' := by
  induction hruns generalizing past with
  | nil s => exact ⟨past, h⟩
  | cons hstep _ ih => exact ih (h.step hstep)

/-- The slabs have room for the peak, and without the newest they have not. -/
theorem peak_bounds (h : Chronicle start stop s past) (i : Fin classSizes.size) :
    peak i (s :: past) ≤ Slab.slots (classSizes.get i) * (s.slabs i).length ∧
      Slab.slots (classSizes.get i) * (s.slabs i).length <
        peak i (s :: past) + Slab.slots (classSizes.get i) := by
  induction h with
  | opened hinit =>
      obtain ⟨pool, hinit', -, hdepicts⟩ := Pool.init_eq _ (Pool.layOut_of_init hinit)
      cases hinit'.symm.trans hinit
      have hslabs := (Charts.initial hdepicts).length_slabs i
      rw [hslabs]
      exact ⟨Nat.zero_le _, Nat.lt_of_lt_of_le (Slab.fits_class i).slots_pos (Nat.le_add_left _ _)⟩
  | @step s s' past act h hstep ih =>
      obtain ⟨hle, hlt⟩ := ih
      obtain ⟨c, hcharts, -⟩ := h.reached.charts
      obtain ⟨c', hcharts', -⟩ := hcharts.step hstep
      have hheld := hcharts'.objectsHeld_le i
      change max (s'.objectsHeld i) (peak i (s :: past)) ≤ _ ∧
        _ < max (s'.objectsHeld i) (peak i (s :: past)) + _
      cases hcharts.paced hstep i with
      | kept hslabs =>
          rw [hslabs] at hheld ⊢
          omega
      | grown page hslabs hmore =>
          rw [hslabs, List.length_cons, Nat.mul_succ] at hheld ⊢
          omega

theorem length_slabs (h : Chronicle start stop s past) (i : Fin classSizes.size) :
    (s.slabs i).length = (peak i (s :: past) + (Slab.slots (classSizes.get i) - 1)) /
      Slab.slots (classSizes.get i) := by
  obtain ⟨hle, hlt⟩ := h.peak_bounds i
  have hpos := (Slab.fits_class i).slots_pos
  symm
  rw [Nat.div_eq_iff hpos, Nat.mul_comm]
  omega

/-- What never exceeds the peak takes no page. -/
theorem reuses (h : Chronicle start stop s past) (hreuses : Reuses i (peak i (s :: past)) s t) :
    t.pool.buddy = s.pool.buddy ∧ t.slabs i = s.slabs i ∧
      ∃ past', Chronicle start stop t past' ∧ peak i (t :: past') = peak i (s :: past) := by
  induction hreuses with
  | none => exact ⟨rfl, rfl, past, h, rfl⟩
  | @act t t' act _ hact hstep hmost ih =>
      obtain ⟨hbuddy, hslabs, past', hpast, hpeak⟩ := ih
      obtain ⟨c, hcharts, -⟩ := hpast.reached.charts
      have hroom := (hpast.peak_bounds i).1
      have hnot : ¬Slab.slots (classSizes.get i) * (t.slabs i).length < t'.objectsHeld i := by
        omega
      refine ⟨?_, ?_, t :: past', hpast.step hstep, ?_⟩
      · exact ((hcharts.buddy_of_concerns hact hstep).resolve_right hnot).trans hbuddy
      · cases hcharts.paced hstep i with
        | kept hkept => exact hkept.trans hslabs
        | grown page _ hmore => exact absurd hmore hnot
      · rw [← hpeak] at hmost ⊢
        exact max_eq_right hmost

end Chronicle

/-- Every ledger on a run has a past, and whatever its past, the slabs of each class are as many as
its peak requires; objects are released and asked for again up to the peak without another page. -/
theorem Reached.slabs_of_peak {start stop : Nat} {s : Ledger} (h : Reached start stop s) :
    (∃ past, Chronicle start stop s past) ∧ ∀ past, Chronicle start stop s past →
      ∀ i : Fin classSizes.size, ∃ each, (s.pool.caches.get i).objectCount = .ok each ∧ 0 < each ∧
        (s.slabs i).length = (peak i (s :: past) + (each - 1)) / each ∧
        ∀ t, Reuses i (peak i (s :: past)) s t →
          t.pool.buddy = s.pool.buddy ∧ t.slabs i = s.slabs i := by
  constructor
  · obtain ⟨m, pool, acts, hinit, hruns⟩ := h
    exact (Chronicle.opened hinit).runs hruns
  · intro past hpast i
    obtain ⟨c, hcharts, -⟩ := h.charts
    refine ⟨Slab.slots (classSizes.get i), ?_, (Slab.fits_class i).slots_pos, hpast.length_slabs i,
      fun t hreuses => ?_⟩
    · rw [Cache.objectCount, hcharts.depicts.objectSize_eq, Slab.objectCount_eq]
    · obtain ⟨hbuddy, hslabs, -⟩ := hpast.reuses hreuses
      exact ⟨hbuddy, hslabs⟩

/-- Four objects of three to a slab, of which two on different slabs are released and asked for
again. -/
theorem slabs_of_peak_of_four_pages : ∃ s past t, Reached 4096 24576 s ∧
    Chronicle 4096 24576 s past ∧ (s.slabs 7).length = 2 ∧ 3 < peak 7 (s :: past) ∧
    Runs s [.allocate 1000, .allocate 600] t ∧ t.objectsHeld 7 = 4 ∧
    t.pool.buddy = s.pool.buddy ∧ t.slabs 7 = s.slabs 7 := by
  have hreplay : (replay? .blank 4096 24576 [.allocate 1000, .allocate 1000, .allocate 1000,
      .allocate 1000, .free 18432, .free 21504]).any (fun s => (s.slabs 7).length = 2 &&
        (s.step? (.allocate 1000)).any fun u => u.objectsHeld 7 = 3 &&
          (u.step? (.allocate 600)).any fun t => t.objectsHeld 7 = 4) = true := by
    decide +kernel
  obtain ⟨s, hreached, hs⟩ := exists_reached_of_replay? hreplay
  obtain ⟨hlength, hs⟩ := Bool.and_eq_true_iff.1 hs
  obtain ⟨u, hu, hs⟩ := (Option.any_eq_true _ _).1 hs
  obtain ⟨hthree, hs⟩ := Bool.and_eq_true_iff.1 hs
  obtain ⟨t, ht, hfour⟩ := (Option.any_eq_true _ _).1 hs
  have hlength := of_decide_eq_true hlength
  have hthree := of_decide_eq_true hthree
  have hfour := of_decide_eq_true hfour
  have hfirst := step_of_step? hu
  have hsecond := step_of_step? ht
  obtain ⟨⟨past, hpast⟩, hslabs⟩ := hreached.slabs_of_peak
  obtain ⟨each, heach, -, hcount, hreuse⟩ := hslabs past hpast 7
  obtain ⟨c, hcharts, -⟩ := hreached.charts
  have hthere : each = 3 := by
    rw [Cache.objectCount, hcharts.depicts.objectSize_eq] at heach
    exact (Except.ok.inj heach).symm
  subst hthere
  have hpeak : 3 < peak 7 (s :: past) := by omega
  obtain ⟨hbuddy, hsame⟩ := hreuse t (.act (.act .none (.allocate rfl) hfirst (by omega))
    (.allocate rfl) hsecond (by omega))
  exact ⟨s, past, t, hreached, hpast, hlength, hpeak, .cons hfirst (.cons hsecond (.nil t)), hfour,
    hbuddy, hsame⟩

end Ledger
end BuddySlab
