import BuddySlab.Proofs.RoundTrip
import BuddySlab.Proofs.Trials

/-!
The checks of the two tiers' clients, one by one. A check runs to its end wherever it begins; it does
not fail, and what it was lent it has given back.
-/

namespace BuddySlab

namespace Summary
variable {s t : Summary}

/-- How many checks were run. -/
def total (s : Summary) : Nat :=
  s.passed + s.failed + s.skipped

theorem total_count (s : Summary) (v : Verdict) : (s.count v).total = s.total + 1 := by
  cases v <;> simp only [count, total] <;> omega

theorem failed_count {v : Verdict} (h : v ≠ .failed) : (s.count v).failed = s.failed := by
  cases v with
  | passed => rfl
  | failed => exact absurd rfl h
  | skipped => rfl

theorem merge_eq (h : s.total + t.total < 2 ^ 64) :
    s.merge t = .ok ⟨s.passed + t.passed, s.failed + t.failed, s.skipped + t.skipped⟩ := by
  simp only [total] at h
  rw [merge, Word.add_of_lt (by omega), ok_bind, Word.add_of_lt (by omega), ok_bind,
    Word.add_of_lt (by omega)]
  rfl

end Summary

namespace Service
variable {s : Ledger} {summary : Summary} {check : Check Service} {checks : List (Check Service)}
  {post : Summary → Ledger → Prop}

theorem ends_ite {α : Type} {p : Prop} [Decidable p] {f g : Service α} {post : α → Ledger → Prop}
    (hf : p → Ends f s post) (hg : ¬p → Ends g s post) : Ends (if p then f else g) s post := by
  split
  · exact hf ‹_›
  · exact hg ‹_›

/-- A line that may be written or not. -/
theorem ends_when {α : Type} {p : Prop} [Decidable p] {e : Event} {next : PUnit → Service α}
    {post : α → Ledger → Prop} (h : Ends (next ()) s post) :
    Ends (if p then write e >>= next else next ()) s post :=
  ends_ite (fun _ => Ends.bind (ends_write h)) fun _ => h

theorem ends_forM_write {events : List Event} {post : PUnit → Ledger → Prop} (h : post () s) :
    Ends (events.forM write) s post := by
  induction events with
  | nil => exact ends_pure h
  | cons e rest ih => exact Ends.bind (ends_write ih)

theorem ends_runAll_cons
    (h : Ends check.run s fun verdict s' =>
      Ends (Check.runAll write (summary.count verdict) checks) s' post) :
    Ends (Check.runAll write summary (check :: checks)) s post := by
  rw [Check.runAll]
  exact h.andThen fun verdict s' hrest => Ends.bind (ends_forM_write hrest)

theorem ends_runSuite {name : String} (h : Ends (Check.runAll write .empty checks) s post) :
    Ends (Check.runSuite write name checks) s post := by
  refine Ends.bind (ends_write (Ends.bind (ends_write (h.andThen fun summary s' hpost => ?_))))
  exact Ends.bind (ends_write (ends_when (ends_pure hpost)))

/-- There is no order above the largest. -/
theorem ends_takeOrder_of_lt {k : Nat} (hk : maxOrder < k)
    {post : Except Refusal Nat → Ledger → Prop} (h : post (.error .invalidSize) s) :
    Ends (SelfTest.takeOrder k) s post := by
  refine ends_locked_operate ?_ h
  have hrefused : s.pool.buddy.takeOrder k = .ok (.error .invalidSize, s.pool.buddy) := by
    rw [Buddy.takeOrder, if_pos hk]
    rfl
  simp only [hrefused, ok_bind, pure_eq_ok]

end Service

/-- What a size is filled with lies in it. -/
theorem SelfTest.changedIn_writeSentinels (m : Memory) (address size : Nat) :
    m.ChangedIn [⟨address, size⟩] (writeSentinels m address size) := by
  suffices ∀ count, m.ChangedIn [⟨address, 4 * count⟩]
      (count.fold (fun i _ m => m.writeNumber (address + 4 * i) sentinel 4) m) by
    refine (this (size / 4)).widen fun e he => ⟨_, List.mem_cons_self, fun x hx => ?_⟩
    obtain rfl := List.mem_singleton.1 he
    have hle := Nat.mul_div_le size 4
    simp only [Extent.Covers] at hx ⊢
    omega
  intro count x hx
  simp only [List.mem_singleton, forall_eq, Extent.Covers] at hx
  induction count with
  | zero => rfl
  | succ n ih =>
      rw [Nat.fold_succ, Memory.read_writeNumber_of_outside _ _ _ _ _ (by omega)]
      exact ih (by omega)

namespace Ledger.Trial
open Service SelfTest
variable {s₀ s : Ledger} {c : Chart} {lent : List Extent}

theorem ends_holdOrders (h : Trial s₀ [] lent s c) {orders : List Nat}
    (ho : ∀ k ∈ orders, k < orderCount) {verdict : Verdict} (hv : verdict ≠ .failed) :
    Ends (holdOrders verdict orders) s fun answer s' => answer.1 ≠ .failed ∧
      ∃ taken : List Extent, answer.2 = taken.map Extent.address ∧
        (∀ e ∈ taken, pageSize ≤ e.size) ∧
        ∃ c', Trial s₀ [] (taken ++ lent) s' c' ∧ c'.sheets = c.sheets := by
  induction orders generalizing s c lent verdict with
  | nil => exact ends_pure ⟨hv, [], rfl, List.forall_mem_nil _, c, h, rfl⟩
  | cons order orders ih =>
      obtain ⟨horder, hrest⟩ := List.forall_mem_cons.1 ho
      let k : Fin orderCount := ⟨order, horder⟩
      rw [holdOrders]
      refine (h.ends_takeOrder k).andThen fun answer s' hlends => ?_
      cases hlends with
      | refused refusal hnone =>
          refine Ends.bind (ends_write ?_)
          exact ih h hrest (by decide)
      | granted x c' s' hg h' =>
          cases Chart.grants_of_eq_some hg with
          | @block k first free htake =>
              obtain ⟨-, hdvd, -⟩ := h'.charts.depicts.item_placed (x := .block ⟨first, k⟩)
                (Chart.mem_items.2 (.block List.mem_cons_self))
              rw [h'.arena] at hdvd
              have haligned : ((Item.block ⟨first, k⟩).extent s₀.pool.arena).address %
                blockSize order = 0 := Nat.mod_eq_zero_of_dvd hdvd
              simp only [haligned, if_true]
              refine (ih h' hrest hv).andThen fun answer s'' hheld => ?_
              obtain ⟨hv', taken, htaken, hsizes, c'', h'', hsheets⟩ := hheld
              refine ends_pure ⟨hv', _ :: taken, congrArg (List.cons _) htaken,
                List.forall_mem_cons.2 ⟨pageSize_le_blockSize k, hsizes⟩, c'', ?_, hsheets⟩
              exact h''.of_perm (.refl _) List.perm_middle.symm

theorem ends_freeBlocks (taken : List Extent) (h : Trial s₀ [] (taken ++ lent) s c)
    (hsize : ∀ e ∈ taken, pageSize ≤ e.size) :
    Ends ((taken.map Extent.address).forM freeBlock) s fun _ s' =>
      ∃ c', Trial s₀ [] lent s' c' ∧ c'.sheets = c.sheets := by
  induction taken generalizing s c with
  | nil => exact ends_pure ⟨c, h, rfl⟩
  | cons e taken ih =>
      obtain ⟨he, htaken⟩ := List.forall_mem_cons.1 hsize
      obtain ⟨b, hb, hextent⟩ := h.charts.exists_block (h.mem_held List.mem_cons_self) he
      rw [h.arena] at hextent
      subst hextent
      refine (h.ends_freeBlock hb).andThen fun _ s' h' => (ih h' htaken).mono fun _ s'' hfreed => ?_
      obtain ⟨c', h'', hsheets⟩ := hfreed
      exact ⟨c', h'', hsheets⟩

/-- The address of what is lent is never null. -/
theorem address_ne_zero (h : Trial s₀ [] lent s c) {e : Extent} (he : e ∈ lent) : e.address ≠ 0 := by
  obtain ⟨x, hx, rfl⟩ := h.exists_item he
  obtain ⟨-, hpos⟩ := h.charts.depicts.descriptorAt_item hx
  rw [h.arena] at hpos
  exact Nat.ne_of_gt hpos

theorem ends_orderAlignment (h : Trial s₀ [] lent s c) :
    Ends orderAlignment s fun verdict s' => verdict ≠ .failed ∧
      ∃ c', Trial s₀ [] lent s' c' ∧ c'.sheets = c.sheets := by
  refine (h.ends_holdOrders (by decide) (by decide)).andThen fun answer s' hheld => ?_
  obtain ⟨verdict, held⟩ := answer
  obtain ⟨hv, taken, rfl, hsizes, c', h', hsheets⟩ := hheld
  have hall : (taken.map Extent.address).filter (· ≠ 0) = taken.map Extent.address := by
    refine List.filter_eq_self.2 fun address haddress => ?_
    obtain ⟨e, he, rfl⟩ := List.mem_map.1 haddress
    exact decide_eq_true (h'.address_ne_zero (List.mem_append_left lent he))
  change Ends (((taken.map Extent.address).filter (· ≠ 0)).forM freeBlock >>= _) s' _
  rw [hall]
  refine (h'.ends_freeBlocks taken hsizes).andThen fun _ s'' hfreed => ?_
  obtain ⟨c'', h'', hsheets'⟩ := hfreed
  exact ends_pure ⟨hv, c'', h'', hsheets'.trans hsheets⟩

theorem ends_freeCounts {post : Vector Nat orderCount → Ledger → Prop}
    (h : post s.pool.buddy.freeCounts s) : Ends freeCounts s post :=
  ends_locked_consult rfl h

/-- A chart has its numbers of free blocks. -/
theorem freeCounts_eq {s' : Ledger} (h : Trial s₀ [] lent s c) (h' : Trial s₀ [] lent s' c) :
    s'.pool.buddy.freeCounts = s.pool.buddy.freeCounts := by
  apply Vector.toList_inj.1
  rw [h.charts.depicts.keeps.threads.freeCounts_eq, h'.charts.depicts.keeps.threads.freeCounts_eq]

theorem ends_roundTrip (h : Trial s₀ [] lent s c) :
    Ends roundTrip s fun verdict s' => verdict ≠ .failed ∧ Trial s₀ [] lent s' c := by
  refine Ends.bind (ends_freeCounts ?_)
  refine (h.ends_allocate (g := .block ⟨0, Nat.succ_pos _⟩) (roundSize_blockSize ⟨0, _⟩)).andThen
    fun answer s' hlends => ?_
  cases hlends with
  | refused refusal hnone => exact ends_pure ⟨by decide, h⟩
  | granted x c' s' hg h' =>
      cases Chart.grants_of_eq_some hg with
      | @block k first free htake =>
          have hgive := h.charts.depicts.give_take? (Nat.zero_le _) htake
          rw [h.arena] at hgive
          refine (h'.ends_free (Chart.mem_items.2 (.block List.mem_cons_self))).andThen
            fun _ s'' hback => ?_
          rw [Chart.release_block _ hgive] at hback
          refine Ends.bind (ends_freeCounts ?_)
          refine ends_ite (fun _ => ends_pure ⟨by decide, hback⟩) fun hchanged => ?_
          exact absurd (h.freeCounts_eq hback) hchanged

theorem ends_oversizeRejected (h : Trial s₀ [] lent s c) :
    Ends oversizeRejected s fun verdict s' => verdict ≠ .failed ∧ Trial s₀ [] lent s' c := by
  have hallocate : s.pool.allocate (maxBlockSize + 1) =
      .ok (.error .invalidSize, s.pool, []) := by
    rw [Pool.allocate, roundSize_of_lt (Nat.lt_succ_self _)]
  refine Ends.bind (Service.ends_allocate hallocate ?_)
  refine ends_ite (fun hserved => absurd hserved (by decide)) fun _ => ?_
  refine Ends.bind (ends_takeOrder_of_lt (Nat.lt_succ_self _) ?_)
  exact ends_ite (fun hserved => absurd hserved (by decide)) fun _ => ends_pure ⟨by decide, h⟩

theorem ends_zeroSize (h : Trial s₀ [] lent s c) :
    Ends zeroSize s fun verdict s' => verdict ≠ .failed ∧ Trial s₀ [] lent s' c := by
  have hallocate : s.pool.allocate 0 = .ok (.error .invalidSize, s.pool, []) := by
    rw [Pool.allocate, roundSize_zero]
  exact Ends.bind (Service.ends_allocate hallocate (ends_pure ⟨by decide, h⟩))

theorem ends_freeNull (h : Trial s₀ [] lent s c) :
    Ends freeNull s fun verdict s' => verdict ≠ .failed ∧ Trial s₀ [] lent s' c := by
  refine Ends.bind (ends_freeCounts ?_)
  refine Ends.bind (Service.ends_free (Pool.Depicts.free_zero s.pool) ?_)
  refine Ends.bind (ends_freeCounts (ends_pure ?_))
  rw [if_pos rfl]
  exact ⟨by decide, h⟩

theorem ends_holdSizes {filled : List Filling} (h : Trial s₀ filled lent s c) {sizes : List Nat}
    (hsizes : ∀ n ∈ sizes, 4 ∣ n ∧ n ≠ 0 ∧ n ≤ maxBlockSize) {verdict : Verdict}
    (hv : s₀.Unmarked → verdict ≠ .failed) :
    Ends (holdSizes verdict sizes) s fun answer s' => (s₀.Unmarked → answer.1 ≠ .failed) ∧
      ∃ taken : List Filling, answer.2 = taken.map (fun f => (f.extent.address, f.count)) ∧
        ∃ c', Trial s₀ (taken ++ filled) lent s' c' := by
  induction sizes generalizing s c filled verdict with
  | nil => exact ends_pure ⟨hv, [], rfl, c, h⟩
  | cons n sizes ih =>
      obtain ⟨⟨h4, hpos, hmax⟩, hrest⟩ := List.forall_mem_cons.1 hsizes
      obtain ⟨e, -, -, hround, -⟩ := roundSize_eq_two_pow hpos hmax
      obtain ⟨hle, g, hg⟩ := exists_grade hround
      rw [hg] at hround hle
      rw [holdSizes]
      refine (h.ends_allocate hround).andThen fun answer s' hlends => ?_
      cases hlends with
      | refused refusal hnone => exact ends_pure ⟨fun _ => by decide, [], rfl, c, h⟩
      | granted x c' s' hgrant h' =>
          have hn : n ≤ (x.extent s₀.pool.arena).size := by rwa [Chart.size_of_grant hgrant]
          refine Ends.bind (ends_consult rfl ?_)
          have hinUse (hun : s₀.Unmarked) := h'.holdsSentinel_eq hun hn
          refine ends_when (Ends.bind (ends_update ?_))
          have hfilled := h'.fill hn h4 (changedIn_writeSentinels _ _ n)
          refine (ih hfilled hrest fun hun => ?_).andThen fun answer s'' hheld => ?_
          · rw [hinUse hun]
            exact hv hun
          · obtain ⟨hv', taken, htaken, c'', h''⟩ := hheld
            have hlisted := congrArg (((x.extent s₀.pool.arena).address, n) :: ·) htaken
            refine ends_pure ⟨hv', ⟨_, n, hn, h4⟩ :: taken, hlisted, c'', ?_⟩
            exact h''.of_perm List.perm_middle.symm (.refl _)

theorem ends_clearSizes (taken : List Filling) (h : Trial s₀ taken lent s c) :
    Ends ((taken.map fun f => (f.extent.address, f.count)).forM fun (address, size) => do
      operate fun p => .ok ((), p.fill address size 0)
      free address) s fun _ s' => ∃ c', Trial s₀ [] lent s' c' := by
  induction taken generalizing s c with
  | nil => exact ends_pure ⟨c, h⟩
  | cons f taken ih =>
      refine Ends.bind (Ends.bind (ends_update ?_))
      refine h.clear.ends_free_lent.mono fun _ s' hfreed => ?_
      obtain ⟨c', h'⟩ := hfreed
      exact ih h'

theorem ends_sentinelFill (h : Trial s₀ [] lent s c) :
    Ends sentinelFill s fun verdict s' => (s₀.Unmarked → verdict ≠ .failed) ∧
      ∃ c', Trial s₀ [] lent s' c' := by
  refine (h.ends_holdSizes (by decide) fun _ => by decide).andThen fun answer s' hheld => ?_
  obtain ⟨verdict, held⟩ := answer
  obtain ⟨hv, taken, rfl, c', h'⟩ := hheld
  rw [List.append_nil] at h'
  exact (h'.ends_clearSizes taken).andThen fun _ s'' hfreed => ends_pure ⟨hv, hfreed⟩

end Ledger.Trial
end BuddySlab
