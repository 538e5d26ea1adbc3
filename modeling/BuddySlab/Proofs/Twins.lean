import BuddySlab.Proofs.Contents

/-!
Two pools of one payload that depict the same chart. What a request is given and what becomes of the
chart depends on the chart alone, and so do the words that are written on the way. So such pools
answer alike and depict the same chart afterwards; page tiers that were equal are still equal, and
bytes that were equal are still equal, whatever else the two memories hold.
-/

namespace BuddySlab

namespace Slab
variable {m n m' n' : Memory} {page size link link' i x : Nat} {stack : List Nat}

/-- Popping the same stack writes the same words. -/
theorem Shows.pop_congr {answer answer' : Option Nat} (h : Shows m page size link (i :: stack))
    (h' : Shows n page size link' (i :: stack)) (hs : Fits size)
    (hpop : pop m page = .ok (answer, m')) (hpop' : pop n page = .ok (answer', n'))
    (hx : m.read x = n.read x) : m'.read x = n'.read x := by
  cases (h.pop_eq hs).symm.trans hpop
  cases (h'.pop_eq hs).symm.trans hpop'
  exact Memory.read_patch_congr hx

theorem Shows.push_congr (h : Shows m page size link stack) (h' : Shows n page size link' stack)
    (hs : Fits size) (hpush : Slab.push m page (slot page size i) = .ok m')
    (hpush' : Slab.push n page (slot page size i) = .ok n') (hx : m.read x = n.read x) :
    m'.read x = n'.read x := by
  cases (h.push_eq hs i).symm.trans hpush
  cases (h'.push_eq hs i).symm.trans hpush'
  exact Memory.read_patch_congr hx

end Slab

namespace Cache
open Slab

/-- The words of a new slab in front of the slab at `link`, of which the lowest object is handed
out. -/
def growWords (page size link : Nat) : List (Nat × Nat) :=
  formatWords page size ++ popWords page size (List.range (slots size)).tail ++
    [(nextField page, link)]

/-- What a page held before it became a slab does not matter. -/
theorem grow_eq {page size : Nat} (m : Memory) (hs : Fits size) {k : Nat} (hk : size = 2 ^ k)
    (hdvd : pageSize ∣ page) (hpage : page + pageSize < 2 ^ 64) (link : Nat) :
    Cache.grow ⟨size, link⟩ m page =
      .ok (slot page size 0, ⟨size, page⟩, m.patch (growWords page size link)) := by
  obtain ⟨m', hformat, hshows, -⟩ := format_eq m hs hk hdvd hpage
  have hwords := format_run m hs hk hdvd hpage
  cases hformat.symm.trans hwords
  rw [hs.range_slots] at hshows
  simp only [Cache.grow, Cache.publish, hwords, ok_bind, hshows.pop_eq hs, pure_eq_ok]
  rw [growWords, Memory.patch_append, Memory.patch_append]
  rfl

end Cache

attribute [ext] Pool

namespace Pool
variable {p q p' q' p'' q'' : Pool} {c : Chart} {i : Fin classSizes.size} {size n : Nat}
  {answer answer' : Except Refusal Nat} {events events' : List Event}

/-- Two pools changed alike. -/
structure InStep (p q p' q' : Pool) : Prop where
  buddy : p.buddy = q.buddy → p'.buddy = q'.buddy
  bytes : ∀ x, p.memory.read x = q.memory.read x → p'.memory.read x = q'.memory.read x

theorem InStep.refl (p q : Pool) : InStep p q p q :=
  ⟨id, fun _ => id⟩

theorem InStep.trans (h : InStep p q p' q') (h' : InStep p' q' p'' q'') : InStep p q p'' q'' :=
  ⟨fun hbuddy => h'.buddy (h.buddy hbuddy), fun x hx => h'.bytes x (h.bytes x hx)⟩

/-- The same memory stays the same. -/
theorem InStep.memory (h : InStep p q p' q') (hmemory : p.memory = q.memory) :
    p'.memory = q'.memory :=
  Memory.ext fun x => h.bytes x (by rw [hmemory])

/-- Where only memory differs and the same words were written, pools are in step. -/
theorem InStep.of_memory {m m' : Memory}
    (h : ∀ x, p.memory.read x = q.memory.read x → m.read x = m'.read x) :
    InStep p q { p with memory := m } { q with memory := m' } :=
  ⟨id, h⟩

theorem allocateBlock_inStep (hrun : p.allocateBlock size = .ok (answer, p', events))
    (hrun' : q.allocateBlock size = .ok (answer', q', events')) : InStep p q p' q' := by
  constructor
  · intro hbuddy
    have hallocate := (buddy_of_takeBlock (takeBlock_of_allocateBlock hrun)).1
    rw [hbuddy, (buddy_of_takeBlock (takeBlock_of_allocateBlock hrun')).1] at hallocate
    exact (Prod.mk.inj (Except.ok.inj hallocate)).2.symm
  · intro x hx
    rwa [memory_of_allocateBlock hrun, memory_of_allocateBlock hrun']

namespace Depicts

/-- Where the newest slab of each class is the same, so are the caches. -/
theorem caches_eq_of_heads {c' : Chart} (hp : p.Depicts c) (hq : q.Depicts c')
    (harena : q.arena = p.arena)
    (hheads : ∀ i, Cache.chainHead p.arena (c'.sheets i) = Cache.chainHead p.arena (c.sheets i)) :
    p.caches = q.caches := by
  apply Vector.ext
  intro j hj
  have hcache := hq.cache_eq ⟨j, hj⟩
  rw [harena, hheads] at hcache
  exact (hp.cache_eq ⟨j, hj⟩).trans hcache.symm

section InStep
variable (hp : p.Depicts c) (hq : q.Depicts c) (harena : q.arena = p.arena)
include hp hq harena

theorem caches_eq : p.caches = q.caches :=
  hp.caches_eq_of_heads hq harena fun _ => rfl

/-- The page of a new slab is the same for both, and so are the words written to it. -/
theorem newSlab_inStep {page : Nat} {free : Listing} {b b' : Buddy}
    (hrun : p.buddy.takeOrder 0 = .ok (.ok (p.arena.pageAddress page), b))
    (hkeeps : b.Keeps free (⟨page, 0⟩ :: c.used) []) (hkin : p.buddy.Kin b)
    (hrun' : q.buddy.takeOrder 0 = .ok (.ok (q.arena.pageAddress page), b'))
    (hkeeps' : b'.Keeps free (⟨page, 0⟩ :: c.used) []) (hkin' : q.buddy.Kin b')
    (hgrow : p.growCache i = .ok (answer, p', events))
    (hgrow' : q.growCache i = .ok (answer', q', events')) : InStep p q p' q' := by
  obtain ⟨b₁, m₁, hflag, hcache, hp', -⟩ := hp.newSlab i hrun hkeeps hkin
  obtain ⟨b₂, m₂, hflag', hcache', hq', -⟩ := hq.newSlab i hrun' hkeeps' hkin'
  cases hp'.symm.trans hgrow
  cases hq'.symm.trans hgrow'
  rw [harena] at hrun' hflag' hcache'
  constructor
  · intro hbuddy
    rw [hbuddy] at hrun
    cases hrun.symm.trans hrun'
    exact Except.ok.inj (hflag.symm.trans hflag')
  · intro x hx
    have hlt : page < p.arena.pages := by
      have hlt := hkeeps.page_lt (c := ⟨page, 0⟩) List.mem_cons_self
      rwa [hkin.arena] at hlt
    have heq (m : Memory) := Cache.grow_eq m (Slab.fits_class i) (Slab.classSizes_eq i)
      (hp.sound.dvd_pageAddress page) (hp.sound.page_lt hlt)
      (Cache.chainHead p.arena (c.sheets i))
    rw [← hp.caches_eq hq harena] at hcache'
    rw [hp.cache_eq i, heq] at hcache hcache'
    cases hcache
    cases hcache'
    exact Memory.read_patch_congr hx

theorem growCache_inStep (hrun : p.growCache i = .ok (answer, p', events))
    (hrun' : q.growCache i = .ok (answer', q', events')) : InStep p q p' q' := by
  cases hp.keeps.takeOrder (Nat.zero_le _) with
  | inl hrefused =>
      obtain ⟨hnone, htake⟩ := hrefused
      cases hq.keeps.takeOrder (Nat.zero_le _) with
      | inl hrefused' =>
          cases (growCache_refused htake).symm.trans hrun
          cases (growCache_refused hrefused'.2).symm.trans hrun'
          exact .refl p q
      | inr htaken =>
          obtain ⟨_, _, _, hsome, -⟩ := htaken
          cases hnone.symm.trans hsome
  | inr htaken =>
      obtain ⟨page, free, b, hsome, htake, hkeeps, hkin⟩ := htaken
      cases hq.keeps.takeOrder (Nat.zero_le _) with
      | inl hrefused => cases hrefused.1.symm.trans hsome
      | inr htaken' =>
          obtain ⟨page', free', b', hsome', htake', hkeeps', hkin'⟩ := htaken'
          cases hsome.symm.trans hsome'
          exact hp.newSlab_inStep hq harena htake hkeeps hkin htake' hkeeps' hkin' hrun hrun'

theorem allocateObject_inStep (hclass : p.caches.class? size = some i)
    (hrun : p.allocateObject size = .ok (answer, p', events))
    (hrun' : q.allocateObject size = .ok (answer', q', events')) : InStep p q p' q' := by
  have hclass' : q.caches.class? size = some i := hp.caches_eq hq harena ▸ hclass
  cases hfirst : Sheet.first? (c.sheets i) with
  | none =>
      rw [hp.allocateObject_full hclass hfirst] at hrun
      rw [hq.allocateObject_full hclass' hfirst] at hrun'
      exact hp.growCache_inStep hq harena hrun hrun'
  | some found =>
      obtain ⟨page, number⟩ := found
      obtain ⟨m, hpop, hp', -⟩ := hp.allocateObject_popped hclass hfirst
      obtain ⟨m', hpop', hq', -⟩ := hq.allocateObject_popped hclass' hfirst
      cases hp'.symm.trans hrun
      cases hq'.symm.trans hrun'
      obtain ⟨rest, hs⟩ := Sheet.first?_eq_some hfirst
      obtain ⟨link, hshows⟩ := (hp.chain i).linked.shows hs
      obtain ⟨link', hshows'⟩ := (hq.chain i).linked.shows hs
      rw [harena] at hpop' hshows'
      apply InStep.of_memory
      intro x hx
      exact hshows.pop_congr hshows' (Slab.fits_class i) hpop hpop' hx

theorem allocate_inStep (hrun : p.allocate n = .ok (answer, p', events))
    (hrun' : q.allocate n = .ok (answer', q', events')) : InStep p q p' q' := by
  cases hround : roundSize n with
  | error refusal =>
      simp only [Pool.allocate, hround] at hrun hrun'
      cases hrun
      cases hrun'
      exact .refl p q
  | ok rounded =>
      obtain ⟨-, g, rfl⟩ := exists_grade hround
      obtain ⟨_, hserved⟩ := served_of_allocate hround hrun
      obtain ⟨_, hserved'⟩ := served_of_allocate hround hrun'
      cases g with
      | object i =>
          have hlt : (Grade.object i).size < pageSize := classSizes_lt i
          rw [if_pos hlt] at hserved hserved'
          have hclass := class?_eq hp.objectSize_eq i
          exact hp.allocateObject_inStep hq harena hclass hserved hserved'
      | block k =>
          have hle : ¬(Grade.block k).size < pageSize := Nat.not_lt.2 (pageSize_le_blockSize k)
          rw [if_neg hle] at hserved hserved'
          exact allocateBlock_inStep hserved hserved'

theorem free_inStep {x : Item} (hx : x ∈ c.items)
    (hrun : p.free (x.extent p.arena).address = .ok (p', events))
    (hrun' : q.free (x.extent q.arena).address = .ok (q', events')) : InStep p q p' q' := by
  cases Chart.mem_items.1 hx with
  | @block b hb =>
      obtain ⟨buddy, hfree, -⟩ := hp.releaseBlock hb
      obtain ⟨buddy', hfree', -⟩ := hq.releaseBlock hb
      cases (hp.free_eq_free hb hfree).symm.trans hrun
      cases (hq.free_eq_free hb hfree').symm.trans hrun'
      refine ⟨fun hbuddy => ?_, fun _ => id⟩
      rw [harena, ← hbuddy] at hfree'
      cases hfree.symm.trans hfree'
      rfl
  | @object i s number hs hlive =>
      obtain ⟨m, hrelease, -⟩ := hp.releaseObject hs hlive
      obtain ⟨m', hrelease', -⟩ := hq.releaseObject hs hlive
      cases (hp.free_eq_release hs hlive hrelease).symm.trans hrun
      cases (hq.free_eq_release hs hlive hrelease').symm.trans hrun'
      obtain ⟨link, hshows⟩ := (hp.chain i).linked.shows hs
      obtain ⟨link', hshows'⟩ := (hq.chain i).linked.shows hs
      have hcontaining := (Slab.fits_class i).containing_slot (hp.sound.dvd_pageAddress s.page)
        (hp.sound.page_lt (hp.page_lt hs)) (Sheet.mem_live.1 hlive).1
      rw [harena] at hrelease' hshows'
      simp only [Slab.release, Item.extent, hcontaining] at hrelease hrelease'
      apply InStep.of_memory
      intro x hx
      exact hshows.push_congr hshows' (Slab.fits_class i) hrelease hrelease' hx

end InStep

end Depicts

/-- Two pools of one payload behind the same clients, with the same chart. -/
structure Twins (p q : Pool) (held : List Extent) (c : Chart) : Prop where
  left : Ledger.Charts ⟨p, held⟩ c
  right : Ledger.Charts ⟨q, held⟩ c
  arena : q.arena = p.arena

/-- A request has the same answer and the same lines at both, and leaves them twins. -/
inductive AnswerAlike (p q : Pool) (held : List Extent) (n : Nat)
    (run run' : Except Fault (Except Refusal Nat × Pool × List Event)) : Prop
  | refused (refusal : Refusal) (events : List Event)
      (hrun : run = .ok (.error refusal, p, events))
      (hrun' : run' = .ok (.error refusal, q, events))
  | granted (e : Extent) (p' q' : Pool) (c' : Chart) (events : List Event)
      (hrun : run = .ok (.ok e.address, p', events))
      (hrun' : run' = .ok (.ok e.address, q', events))
      (hround : roundSize n = .ok e.size) (hle : n ≤ e.size)
      (htwins : Twins p' q' (e :: held) c') (hstep : InStep p q p' q')

namespace Twins
variable {held held' : List Extent} {e : Extent} {m m' : Memory}

theorem refl (h : Ledger.Charts ⟨p, held⟩ c) : Twins p p held c :=
  ⟨h, h, rfl⟩

theorem caches (h : Twins p q held c) : p.caches = q.caches :=
  h.left.depicts.caches_eq h.right.depicts h.arena

theorem of_perm (h : Twins p q held c) (hperm : held'.Perm held) : Twins p q held' c :=
  ⟨h.left.of_perm hperm, h.right.of_perm hperm, h.arena⟩

/-- Clients may write something else to each. -/
theorem rewrite (h : Twins p q held c) (hm : p.memory.ChangedIn held m)
    (hm' : q.memory.ChangedIn held m') :
    Twins { p with memory := m } { q with memory := m' } held c :=
  ⟨h.left.rewrite hm, h.right.rewrite hm', h.arena⟩

theorem request (h : Twins p q held c) (n : Nat) :
    AnswerAlike p q held n (p.allocate n) (q.allocate n) := by
  cases hround : roundSize n with
  | error refusal =>
      exact .refused refusal [] (by rw [Pool.allocate, hround]) (by rw [Pool.allocate, hround])
  | ok rounded =>
      obtain ⟨hle, g, rfl⟩ := exists_grade hround
      cases h.left.depicts.allocate hround with
      | refused hnone hrun =>
          cases h.right.depicts.allocate hround with
          | refused _ hrun' =>
              rw [h.arena] at hrun'
              exact .refused _ _ hrun hrun'
          | granted _ _ _ hsome => cases hnone.symm.trans hsome
      | granted x c' p' hsome hrun hbecomes =>
          cases h.right.depicts.allocate hround with
          | refused hnone => cases hnone.symm.trans hsome
          | granted x' c'' q' hsome' hrun' hbecomes' =>
              cases hsome.symm.trans hsome'
              have hstep := h.left.depicts.allocate_inStep h.right.depicts h.arena hrun hrun'
              have hsize := Chart.size_of_grant (a := p.arena) hsome
              have hleft := h.left.grant hsome hbecomes
              have hright := h.right.grant hsome hbecomes'
              rw [h.arena] at hrun' hright
              refine .granted _ p' q' c' _ hrun hrun' ?_ ?_ ⟨hleft, hright, ?_⟩ hstep
              · rw [hround, hsize]
              · rwa [hsize]
              · exact hbecomes'.arena.trans (h.arena.trans hbecomes.arena.symm)

/-- The bytes that are cleared are the same at both. -/
theorem requestZeroed (h : Twins p q held c) (n : Nat) :
    AnswerAlike p q held n (p.allocateZeroed n) (q.allocateZeroed n) := by
  cases h.request n with
  | refused refusal events hrun hrun' =>
      exact .refused refusal events (allocateZeroed_of_refused hrun)
        (allocateZeroed_of_refused hrun')
  | granted e p' q' c' events hrun hrun' hround hle htwins hstep =>
      have hfill {m : Memory} : m.ChangedIn (e :: held) (m.fill e.address n 0) :=
        Memory.changedIn_fill List.mem_cons_self hle 0
      refine .granted e (p'.fill e.address n 0) (q'.fill e.address n 0) c' events
        (allocateZeroed_of_granted hrun) (allocateZeroed_of_granted hrun') hround hle
        (htwins.rewrite hfill hfill) (hstep.trans (.of_memory fun x hx => ?_))
      rw [Memory.read_fill, Memory.read_fill, hx]

/-- What both hold is released alike. -/
theorem release (h : Twins p q held c) (he : e ∈ held) :
    ∃ p' q' events c', p.free e.address = .ok (p', events) ∧
      q.free e.address = .ok (q', events) ∧ Twins p' q' (held.erase e) c' ∧ InStep p q p' q' := by
  obtain ⟨x, hx, rfl⟩ := h.left.exists_item he
  obtain ⟨p', hrun, hbecomes⟩ := h.left.depicts.free hx
  obtain ⟨q', hrun', hbecomes'⟩ := h.right.depicts.free hx
  have hstep := h.left.depicts.free_inStep h.right.depicts h.arena hx hrun hrun'
  have hleft := h.left.giveUp hx hbecomes
  have hright := h.right.giveUp hx hbecomes'
  rw [h.arena] at hrun' hright
  exact ⟨p', q', _, _, hrun, hrun',
    ⟨hleft, hright, hbecomes'.arena.trans (h.arena.trans hbecomes.arena.symm)⟩, hstep⟩

/-- What the logger asks for it gets from both, and gives it back to both. -/
theorem allocateAndFree (h : Twins p q held c) (sizes : List Nat) :
    ∃ p' q' c', p.allocateAndFree sizes = .ok p' ∧ q.allocateAndFree sizes = .ok q' ∧
      Twins p' q' held c' ∧ InStep p q p' q' := by
  induction sizes generalizing p q c with
  | nil => exact ⟨p, q, c, rfl, rfl, h, .refl p q⟩
  | cons size sizes ih =>
      cases h.request size with
      | refused refusal events hrun hrun' =>
          obtain ⟨p', q', c', hrest, hrest', htwins, hstep⟩ := ih h
          refine ⟨p', q', c', ?_, ?_, htwins, hstep⟩
          · simp only [Pool.allocateAndFree, hrun, ok_bind, hrest]
          · simp only [Pool.allocateAndFree, hrun', ok_bind, hrest']
      | granted e p₁ q₁ c₁ events hrun hrun' hround hle htwins₁ hstep₁ =>
          obtain ⟨p₂, q₂, events₂, c₂, hfree, hfree', htwins₂, hstep₂⟩ :=
            htwins₁.release List.mem_cons_self
          rw [List.erase_cons_head] at htwins₂
          obtain ⟨p', q', c', hrest, hrest', htwins, hstep⟩ := ih htwins₂
          refine ⟨p', q', c', ?_, ?_, htwins, hstep₁.trans (hstep₂.trans hstep)⟩
          · simp only [Pool.allocateAndFree, hrun, ok_bind, hfree, hrest]
          · simp only [Pool.allocateAndFree, hrun', ok_bind, hfree', hrest']

end Twins

theorem buddy_of_init {m : Memory} {start stop : Nat} (h : Pool.init m start stop = .ok (.ok p)) :
    Buddy.init (PageTable.blank p.arena) = .ok p.buddy := by
  have hrun := h
  rw [Pool.init, layOut_of_init h, ok_bind] at hrun
  obtain ⟨b, hb, heq⟩ := bind_eq_ok.1 hrun
  rw [hb, ← Except.ok.inj (Except.ok.inj heq)]

/-- A range is prepared whatever it holds, and the page tier is the same. -/
theorem twins_of_init {m : Memory} {start stop : Nat} (h : Pool.init m start stop = .ok (.ok p))
    (m' : Memory) : ∃ q, Pool.init m' start stop = .ok (.ok q) ∧ p.buddy = q.buddy ∧
      Twins p q [] (.initial p.arena) := by
  have hlaid := layOut_of_init h
  obtain ⟨p', hinit, -, hdepicts⟩ := init_eq m hlaid
  obtain ⟨q, hinit', harena', hdepicts'⟩ := init_eq m' hlaid
  cases hinit.symm.trans h
  have hbuddy := buddy_of_init hinit'
  rw [harena', buddy_of_init h, Except.ok.injEq] at hbuddy
  exact ⟨q, hinit', hbuddy, .initial hdepicts, .initial hdepicts', harena'⟩

end Pool
end BuddySlab
