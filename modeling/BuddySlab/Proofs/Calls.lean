import BuddySlab.Proofs.Service
import BuddySlab.Proofs.Twins

/-!
Calls as work on a pool. At a station a call does its work and then the logger makes its requests,
once for each line that it is told of; clearing what was granted may as well come before them. Work
on two pools of one chart has the same reply and the same lines.
-/

namespace BuddySlab

namespace Ledger.Charts
variable {s : Ledger} {c : Chart} {e : Extent}

/-- What the logger does leaves what is held alone, so it may as well come after clearing it. -/
theorem allocateAndFree_fill (h : s.Charts c) (he : e ∈ s.held) {count : Nat}
    (hcount : count ≤ e.size) (byte : UInt8) {sizes : List Nat} {pool : Pool}
    (hrun : s.pool.allocateAndFree sizes = .ok pool) :
    (s.pool.fill e.address count byte).allocateAndFree sizes =
      .ok (pool.fill e.address count byte) := by
  have hfill := h.fill he hcount byte
  have htwins : Pool.Twins s.pool (s.pool.fill e.address count byte) s.held c := ⟨h, hfill, rfl⟩
  obtain ⟨p', q', c', hrun', hrunfill, htwins', hstep⟩ := htwins.allocateAndFree sizes
  cases hrun'.symm.trans hrun
  obtain ⟨q, hspared, hspares⟩ := hfill.allocateAndFree_spares sizes
  cases hspared.symm.trans hrunfill
  have hmemory : (pool.fill e.address count byte).memory = q'.memory := by
    apply Memory.ext
    intro x
    rw [Pool.fill, Memory.read_fill]
    by_cases hx : e.address ≤ x ∧ x < e.address + count
    · have hcovers : e.Covers x := ⟨hx.1, by omega⟩
      rw [if_pos hx, hspares.bytes e he x hcovers, Pool.fill, Memory.read_fill, if_pos hx]
    · rw [if_neg hx]
      apply hstep.bytes
      rw [Pool.fill, Memory.read_fill, if_neg hx]
  rw [hrunfill]
  exact congrArg Except.ok (Pool.ext (hstep.buddy rfl).symm htwins'.caches.symm hmemory.symm)

/-- The logger makes its requests before what was granted is cleared. -/
theorem allocateZeroed_eq (h : s.Charts c) {size : Nat} {answer : Except Refusal Nat}
    {pool pool' : Pool} {events : List Event} {console : Console} {requests : List Nat}
    (hrun : s.pool.allocateZeroed size = .ok (answer, pool, events))
    (hasks : pool.allocateAndFree (console.asks events requests) = .ok pool') :
    Service.allocateZeroed size ⟨s.pool, console, requests, []⟩ =
      .ok (answer, ⟨pool', console.writeAll events, requests, []⟩) := by
  cases h.request size with
  | refused refusal lines hrefused =>
      cases (Pool.allocateZeroed_of_refused hrefused).symm.trans hrun
      exact Service.bind_ok (Service.allocate_eq hrefused hasks)
  | granted e p c' lines hgranted hround hle harena hslabs hcharts =>
      cases (Pool.allocateZeroed_of_granted hgranted).symm.trans hrun
      obtain ⟨p', hbefore, -⟩ := hcharts.allocateAndFree_spares (console.asks events requests)
      cases (hcharts.allocateAndFree_fill List.mem_cons_self hle 0 hbefore).symm.trans hasks
      exact Service.bind_ok (Service.allocate_eq hgranted hbefore)

/-- What a call does to the pool, and then the logger for each line that it is told of. -/
theorem run_of_work (h : s.Charts c) {call : Call} {reply : Reply} {pool pool' : Pool}
    {events : List Event} {console : Console} {requests : List Nat}
    (hwork : call.work s.pool = .ok (reply, pool, events))
    (hasks : pool.allocateAndFree (console.asks events requests) = .ok pool') :
    call.run ⟨s.pool, console, requests, []⟩ =
      .ok (reply, ⟨pool', console.writeAll events, requests, []⟩) := by
  by_cases hzeroed : ∃ size, call = .allocateZeroed size
  · obtain ⟨size, rfl⟩ := hzeroed
    obtain ⟨⟨answer, p, news⟩, hrun, heq⟩ := bind_eq_ok.1 hwork
    cases heq
    exact Service.bind_ok (h.allocateZeroed_eq hrun hasks)
  · exact Call.run_eq (not_exists.1 hzeroed) hwork hasks

end Ledger.Charts

namespace Pool
variable {p q : Pool} {held : List Extent} {c : Chart} {call : Call}

/-- A call has the same reply and the same lines at both, and leaves them twins. -/
inductive ReplyAlike (p q : Pool) (held : List Extent) (call : Call) : Prop
  | mk (reply : Reply) (p' q' : Pool) (events : List Event) (c' : Chart)
      (hwork : call.work p = .ok (reply, p', events))
      (hwork' : call.work q = .ok (reply, q', events))
      (htwins : Twins p' q' (call.settle held reply) c') (hstep : InStep p q p' q')

namespace Twins

/-- A call that only looks. -/
theorem looked (h : Twins p q held c) (reply : Reply) (events : List Event)
    (hwork : call.work p = .ok (reply, p, events)) (hwork' : call.work q = .ok (reply, q, events))
    (hsettle : call.settle held reply = held) : ReplyAlike p q held call :=
  .mk reply p q events c hwork hwork' (hsettle.symm ▸ h) (.refl p q)

theorem asked (h : Twins p q held c) {size : Nat}
    (run : Pool → Except Fault (Except Refusal Nat × Pool × List Event))
    (halike : AnswerAlike p q held size (run p) (run q))
    (hcall : ∀ p answer p' events, run p = .ok (answer, p', events) →
      call.work p = .ok (.answer answer, p', events))
    (hsettle : ∀ answer, call.settle held (.answer answer) = Ledger.credit held size answer) :
    ReplyAlike p q held call := by
  cases halike with
  | refused refusal events hrun hrun' =>
      exact h.looked _ _ (hcall _ _ _ _ hrun) (hcall _ _ _ _ hrun') (hsettle _)
  | granted e p' q' c' events hrun hrun' hround hle htwins hstep =>
      refine .mk _ p' q' events c' (hcall _ _ _ _ hrun) (hcall _ _ _ _ hrun') ?_ hstep
      rwa [hsettle, Ledger.credit_ok held hround]

theorem freeCounts (h : Twins p q held c) : p.buddy.freeCounts = q.buddy.freeCounts := by
  have hleft := h.left.depicts.keeps.threads.freeCounts_eq
  have hright := h.right.depicts.keeps.threads.freeCounts_eq
  exact Vector.toList_inj.1 (hleft.trans hright.symm)

theorem freeBlocks (h : Twins p q held c) (order limit : Nat) :
    q.buddy.freeBlocks order limit = p.buddy.freeBlocks order limit := by
  have harena : q.buddy.arena = p.buddy.arena := h.arena
  rw [h.left.depicts.keeps.freeBlocks_take, h.right.depicts.keeps.freeBlocks_take, harena]

/-- A call that a client may make does the same to both. -/
theorem work (h : Twins p q held c) (hadmits : Ledger.Admits ⟨p, held⟩ call) :
    ReplyAlike p q held call := by
  cases call with
  | allocate size =>
      refine h.asked (·.allocate size) (h.request size) ?_ fun _ => rfl
      intro p answer p' events hrun
      simp only [Call.work, hrun, ok_bind, pure_eq_ok]
  | allocateZeroed size =>
      refine h.asked (·.allocateZeroed size) (h.requestZeroed size) ?_ fun _ => rfl
      intro p answer p' events hrun
      simp only [Call.work, hrun, ok_bind, pure_eq_ok]
  | free address =>
      cases hadmits with
      | inl hzero =>
          subst hzero
          exact h.looked .done [] rfl rfl h.left.kept_zero
      | inr hheld =>
          obtain ⟨e, he, rfl⟩ := hheld
          obtain ⟨p', q', events, c', hrun, hrun', htwins, hstep⟩ := h.release he
          rw [← h.left.kept_free he] at htwins
          refine .mk .done p' q' events c' ?_ ?_ htwins hstep
          · simp only [Call.work, hrun, ok_bind, pure_eq_ok]
          · simp only [Call.work, hrun', ok_bind, pure_eq_ok]
  | usableSize address =>
      obtain ⟨e, he, rfl⟩ := hadmits
      refine h.looked (.number e.size) [] ?_ ?_ rfl
      · simp only [Call.work, h.left.usableSize_eq he, ok_bind, pure_eq_ok]
      · simp only [Call.work, h.right.usableSize_eq he, ok_bind, pure_eq_ok]
  | freeCounts =>
      refine h.looked (.counts p.buddy.freeCounts) [] rfl ?_ rfl
      rw [Call.work, h.freeCounts]
  | freeBytes =>
      obtain ⟨bytes, hbytes, -⟩ := h.left.conserved
      have hbytes' : q.buddy.freeBytes = .ok bytes := by
        rw [← hbytes, Buddy.freeBytes, Buddy.freeBytes, h.freeCounts]
      refine h.looked (.number bytes) [] ?_ ?_ rfl
      · simp only [Call.work, hbytes, ok_bind, pure_eq_ok]
      · simp only [Call.work, hbytes', ok_bind, pure_eq_ok]
  | freeBlocks order limit =>
      obtain ⟨blocks, hblocks⟩ : ∃ blocks, p.buddy.freeBlocks order limit = .ok blocks :=
        ⟨_, h.left.depicts.keeps.freeBlocks_take⟩
      refine h.looked (.blocks blocks) [] ?_ ?_ rfl
      · simp only [Call.work, hblocks, ok_bind, pure_eq_ok]
      · simp only [Call.work, h.freeBlocks, hblocks, ok_bind, pure_eq_ok]
  | dump =>
      refine h.looked .done p.dump rfl ?_ rfl
      rw [Call.work, dump, dump, h.freeCounts]

end Twins
end Pool

end BuddySlab
