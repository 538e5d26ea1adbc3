import BuddySlab.Proofs.Marks

/-!
What a test does to a pool in use. A test takes blocks, may fill them with sentinels and clear them
again, and gives them back; a trial says how far it has come since a given ledger. Whatever was held
then is still held with its bytes, the rest of what is held was lent to the test, and if there was no
sentinel outside of what was held, there is none now outside of that and of what the test has filled.
The steps of a test are stated as runs at a station whose logger asks for nothing.
-/

namespace BuddySlab

namespace Service
variable {α β : Type} {s s' : Ledger} {f : Service α} {post post' : α → Ledger → Prop}

/-- Whatever the console, the run ends with such a result at such a ledger. What is held is not known
to the station, so it is as good as any that goes with the pool. -/
def Ends (f : Service α) (s : Ledger) (post : α → Ledger → Prop) : Prop :=
  ∀ console, ∃ result s' console',
    f ⟨s.pool, console, [], []⟩ = .ok (result, ⟨s'.pool, console', [], []⟩) ∧ post result s'

theorem ends_pure {a : α} (h : post a s) : Ends (pure a) s post :=
  fun console => ⟨a, s, console, rfl, h⟩

theorem Ends.bind {g : α → Service β} {post : β → Ledger → Prop}
    (h : Ends f s fun a s' => Ends (g a) s' post) : Ends (f >>= g) s post := by
  intro console
  obtain ⟨a, s', console', hrun, hrest⟩ := h console
  obtain ⟨b, s'', console'', hrun', hpost⟩ := hrest console'
  refine ⟨b, s'', console'', ?_, hpost⟩
  rw [bind_apply, hrun, ok_bind]
  exact hrun'

theorem Ends.mono (h : Ends f s post) (hpost : ∀ a s', post a s' → post' a s') :
    Ends f s post' := by
  intro console
  obtain ⟨a, s', console', hrun, ha⟩ := h console
  exact ⟨a, s', console', hrun, hpost a s' ha⟩

/-- One run after the other. -/
theorem Ends.andThen {g : α → Service β} {post' : β → Ledger → Prop} (h : Ends f s post)
    (hnext : ∀ a s', post a s' → Ends (g a) s' post') : Ends (f >>= g) s post' :=
  (h.mono hnext).bind

theorem ends_write {e : Event} {post : Unit → Ledger → Prop} (h : post () s) :
    Ends (write e) s post :=
  fun console => ⟨(), s, console.write e, write_of_quiet e, h⟩

theorem ends_consult {f : Pool → Except Fault α} {a : α} (hrun : f s.pool = .ok a)
    (h : post a s) : Ends (consult f) s post :=
  fun console => ⟨a, s, console, consult_ok hrun, h⟩

/-- The locks are open between the steps of a test. -/
theorem ends_locked_consult {lock : Lock} {f : Pool → Except Fault α} {a : α}
    (hrun : f s.pool = .ok a) (h : post a s) : Ends (locked lock (consult f)) s post :=
  fun console => ⟨a, s, console, (locked_consult List.not_mem_nil).trans (consult_ok hrun), h⟩

theorem ends_locked_operate {lock : Lock} {f : Pool → Except Fault (α × Pool)} {a : α}
    {s' : Ledger} (hrun : f s.pool = .ok (a, s'.pool)) (h : post a s') :
    Ends (locked lock (operate f)) s post :=
  fun console => ⟨a, s', console, locked_operate_ok List.not_mem_nil hrun, h⟩

/-- The pool is changed, and nothing else is computed. -/
theorem ends_update {f : Pool → Pool} {post : Unit → Ledger → Prop}
    (h : post () ⟨f s.pool, s.held⟩) : Ends (operate fun p => .ok ((), f p)) s post :=
  fun console => ⟨(), ⟨f s.pool, s.held⟩, console, rfl, h⟩

theorem ends_allocate {size : Nat} {answer : Except Refusal Nat} {events : List Event}
    {post : Except Refusal Nat → Ledger → Prop}
    (hrun : s.pool.allocate size = .ok (answer, s'.pool, events)) (h : post answer s') :
    Ends (allocate size) s post :=
  fun console => ⟨answer, s', console.writeAll events, by rw [allocate_of_quiet, hrun]; rfl, h⟩

theorem ends_free {address : Nat} {events : List Event} {post : Unit → Ledger → Prop}
    (hrun : s.pool.free address = .ok (s'.pool, events)) (h : post () s') :
    Ends (free address) s post :=
  fun console => ⟨(), s', console.writeAll events, by rw [free_of_quiet, hrun]; rfl, h⟩

end Service

theorem roundSize_blockSize : ∀ k : Fin orderCount, roundSize (blockSize k) = .ok (blockSize k) := by
  decide

/-- Asking the page tier for an order is asking the pool for a block of that order, without the
lines. -/
theorem SelfTest.takeOrder_eq {p p' : Pool} {k : Fin orderCount} {answer : Except Refusal Nat}
    {events : List Event} {console : Console} {requests : List Nat}
    (hrun : p.allocate (blockSize k) = .ok (answer, p', events)) :
    takeOrder k ⟨p, console, requests, []⟩ = .ok (answer, ⟨p', console, requests, []⟩) := by
  obtain ⟨_, hserved⟩ := Pool.served_of_allocate (roundSize_blockSize k) hrun
  rw [if_neg (Nat.not_lt.2 (pageSize_le_blockSize k))] at hserved
  obtain ⟨hbuddy, hsame⟩ := Pool.buddy_of_takeBlock (Pool.takeBlock_of_allocateBlock hserved)
  rw [Buddy.allocate, if_neg (Nat.ne_of_gt (blockSize_pos k)), orderFor_blockSize] at hbuddy
  rw [hsame]
  obtain ⟨buddy, caches, memory⟩ := p
  refine Service.locked_operate_ok List.not_mem_nil ?_
  simp only [hbuddy, ok_bind, pure_eq_ok]

/-- Giving a block to the page tier is releasing it, without the line. -/
theorem Pool.Depicts.freeBlock_eq {p p' : Pool} {c : Chart} {b : Block} {events : List Event}
    {console : Console} {requests : List Nat} (h : p.Depicts c) (hb : b ∈ c.blocks)
    (hrun : p.free (b.extent p.arena).address = .ok (p', events)) :
    SelfTest.freeBlock (b.extent p.arena).address ⟨p, console, requests, []⟩ =
      .ok ((), ⟨p', console, requests, []⟩) := by
  obtain ⟨buddy, hfree, -⟩ := h.releaseBlock hb
  cases (h.free_eq_free hb hfree).symm.trans hrun
  have hblock : p.freeBlock (b.extent p.arena).address = .ok (b.order, { p with buddy }) := by
    change (p.buddy.free (p.arena.pageAddress b.first) >>= _) = _
    rw [hfree]
    rfl
  refine Service.locked_operate_ok List.not_mem_nil ?_
  rw [hblock]
  rfl

namespace Ledger

/-- No half word outside of what is held is the sentinel, and no address of the payload has the
sentinel for its upper half. -/
structure Unmarked (s : Ledger) : Prop where
  memory : s.pool.memory.Unmarked s.pool.arena fun x => ∃ e ∈ s.held, e.Covers x
  arena : s.pool.arena.Unmarked

/-- A held extent of which the first bytes are filled with whole half words. -/
structure Filling where
  extent : Extent
  count : Nat
  le_size : count ≤ extent.size
  aligned : 4 ∣ count

/-- The bytes that are filled. -/
def Filling.part (f : Filling) : Extent :=
  ⟨f.extent.address, f.count⟩

/-- A test that began at one ledger has come to another: these extents are lent to it, and of these
it has filled a part. -/
structure Trial (s₀ : Ledger) (filled : List Filling) (lent : List Extent) (s : Ledger) (c : Chart) :
    Prop where
  charts : s.Charts c
  arena : s.pool.arena = s₀.pool.arena
  runs : ∃ acts, Runs s₀ acts s ∧ ∀ e ∈ s₀.held, Act.free e.address ∉ acts
  held : s.held.Perm (filled.map Filling.extent ++ lent ++ s₀.held)
  bytes : ∀ e ∈ s₀.held, ∀ x, e.Covers x → s.pool.memory.read x = s₀.pool.memory.read x
  clean : s₀.Unmarked → s.pool.memory.Unmarked s₀.pool.arena
    (c.Taken s₀.pool.arena (filled.map Filling.part ++ s₀.held))

/-- A request of a test is refused, where the chart grants nothing for it, or what the chart grants
is lent. -/
inductive Trial.Lends (s₀ : Ledger) (filled : List Filling) (lent : List Extent) (s : Ledger)
    (c : Chart) (g : Grade) : Except Refusal Nat → Ledger → Prop
  | refused (refusal : Refusal) (hnone : c.grant? g = none) :
      Lends s₀ filled lent s c g (.error refusal) s
  | granted (x : Item) (c' : Chart) (s' : Ledger) (hg : c.grant? g = some (x, c'))
      (h : Trial s₀ filled (x.extent s₀.pool.arena :: lent) s' c') :
      Lends s₀ filled lent s c g (.ok (x.extent s₀.pool.arena).address) s'

/-- A test begins with nothing. -/
theorem Charts.trial {s : Ledger} {c : Chart} (h : s.Charts c) : Trial s [] [] s c := by
  refine ⟨h, rfl, ⟨[], .nil s, fun _ _ => List.not_mem_nil⟩, .refl _, fun _ _ _ _ => rfl,
    fun hun => hun.memory.congr (fun _ hx => .inr hx) fun _ _ => rfl⟩

/-- Any bytes of a held extent may be written by a client, one after the other. -/
theorem rewrite_runs {pool : Pool} {held : List Extent} {e : Extent} (he : e ∈ held) {count : Nat}
    (hcount : count ≤ e.size) {m : Memory}
    (hm : pool.memory.ChangedIn [⟨e.address, count⟩] m) :
    ∃ acts, Runs ⟨pool, held⟩ acts ⟨{ pool with memory := m }, held⟩ ∧
      ∀ address, Act.free address ∉ acts := by
  induction count generalizing m with
  | zero =>
      have hsame : m = pool.memory := Memory.ext fun x => hm x (by
        simp only [List.mem_singleton, forall_eq, Extent.Covers]
        omega)
      rw [hsame]
      exact ⟨[], .nil _, fun _ => List.not_mem_nil⟩
  | succ n ih =>
      -- all but the last byte first: there the memory still has the byte it had
      have hbefore : pool.memory.ChangedIn [⟨e.address, n⟩]
          (m.write (e.address + n) (pool.memory.read (e.address + n))) := by
        intro x hx
        rw [Memory.read_write]
        split
        · rename_i heq
          rw [heq]
        · refine hm x fun f hf hcovers => hx ⟨e.address, n⟩ List.mem_cons_self ?_
          obtain rfl := List.mem_singleton.1 hf
          simp only [Extent.Covers] at *
          omega
      obtain ⟨acts, hruns, hfree⟩ := ih (Nat.le_of_succ_le hcount) hbefore
      have hcovers : e.Covers (e.address + n) :=
        ⟨Nat.le_add_right _ _, Nat.add_lt_add_left hcount _⟩
      have hlast : (m.write (e.address + n) (pool.memory.read (e.address + n))).write
          (e.address + n) (m.read (e.address + n)) = m := by
        ext x
        simp only [Memory.read_write]
        split
        · rename_i heq
          rw [heq]
        · rfl
      refine ⟨acts ++ [.write (e.address + n) (m.read (e.address + n))], hruns.append ?_, ?_⟩
      · refine .cons (.write he hcovers) ?_
        rw [hlast]
        exact .nil _
      · simp [hfree]

namespace Trial
open Service
variable {s₀ s s' : Ledger} {c c' : Chart} {filled : List Filling} {lent lent' : List Extent}
  {x : Item} {e : Extent} {n : Nat}

/-- What a test has is in no order. -/
theorem of_perm {filled' : List Filling} (h : Trial s₀ filled lent s c)
    (hfilled : filled'.Perm filled) (hlent : lent'.Perm lent) : Trial s₀ filled' lent' s c := by
  refine { h with held := h.held.trans ?_, clean := fun hun => ?_ }
  · exact ((hfilled.symm.map Filling.extent).append hlent.symm).append_right _
  · refine (h.clean hun).congr (fun x hx => hx.imp_right fun hdirty => ?_) fun _ _ => rfl
    obtain ⟨e, he, hcovers⟩ := hdirty
    exact ⟨e, ((hfilled.map Filling.part).append_right _).mem_iff.2 he, hcovers⟩

theorem mem_own (h : Trial s₀ filled lent s c) (he : e ∈ filled.map Filling.extent ++ lent) :
    e ∈ s.held :=
  h.held.mem_iff.2 (List.mem_append_left _ he)

theorem mem_held (h : Trial s₀ filled lent s c) (he : e ∈ lent) : e ∈ s.held :=
  h.mem_own (List.mem_append_right _ he)

theorem held_subset (h : Trial s₀ filled lent s c) : s₀.held ⊆ s.held :=
  fun _ he => h.held.mem_iff.2 (List.mem_append_right _ he)

/-- What is lent is a block of its own. -/
theorem exists_item (h : Trial s₀ filled lent s c) (he : e ∈ lent) :
    ∃ x ∈ c.items, x.extent s₀.pool.arena = e := by
  have hitem := h.charts.exists_item (h.mem_held he)
  rwa [h.arena] at hitem

/-- What was held at the start of the test is apart from all that the test has. -/
theorem apart_own (h : Trial s₀ filled lent s c) (he : e ∈ filled.map Filling.extent ++ lent)
    {f : Extent} (hf : f ∈ s₀.held) : f.Apart e ∧ f.address ≠ e.address := by
  have hnodup := h.held.nodup_iff.1 h.charts.held_nodup
  have hne : f ≠ e := fun heq => (List.nodup_append.1 hnodup).2.2 e he f hf heq.symm
  have hf := h.held_subset hf
  exact ⟨h.charts.held_apart.forall hf (h.mem_own he) hne, fun haddress =>
    hne (h.charts.held_unique hf (h.mem_own he) haddress)⟩

theorem apart_lent (h : Trial s₀ filled (e :: lent) s c) {f : Extent} (hf : f ∈ s₀.held) :
    f.Apart e ∧ f.address ≠ e.address :=
  h.apart_own (List.mem_append_right _ List.mem_cons_self) hf

theorem apart_filled (h : Trial s₀ filled (e :: lent) s c) {f : Filling} (hf : f ∈ filled) :
    f.extent.Apart e := by
  have hnodup := h.held.nodup_iff.1 h.charts.held_nodup
  have hmem : f.extent ∈ filled.map Filling.extent := List.mem_map_of_mem hf
  have hne : f.extent ≠ e := fun heq =>
    (List.nodup_append.1 (List.nodup_append.1 hnodup).1).2.2 f.extent hmem e List.mem_cons_self heq
  have hheld := h.mem_own (List.mem_append_left _ hmem)
  exact h.charts.held_apart.forall hheld (h.mem_held List.mem_cons_self) hne

/-- What is asked for is refused or lent. -/
theorem request (h : Trial s₀ filled lent s c) {g : Grade} (hround : roundSize n = .ok g.size) :
    ∃ answer s' events, s.pool.allocate n = .ok (answer, s'.pool, events) ∧
      Lends s₀ filled lent s c g answer s' := by
  cases h.charts.depicts.allocate hround with
  | refused hnone hrun => exact ⟨_, s, _, hrun, .refused _ hnone⟩
  | granted x c' pool hg hrun hbecomes =>
      have hcharts := h.charts.grant hg hbecomes
      have hheld := h.held.cons (x.extent s₀.pool.arena)
      have hbytes (e : Extent) (he : e ∈ s₀.held) (z : Nat) (hz : e.Covers z) :=
        (h.charts.allocate_keeps hrun (h.held_subset he) hz).trans (h.bytes e he z hz)
      have hclean (hun : s₀.Unmarked) := h.charts.depicts.unmarked_grant
        (h.arena ▸ hun.arena) hround hg hrun (by rw [h.arena]; exact h.clean hun)
      obtain ⟨acts, hruns, hfree⟩ := h.runs
      have hstep : Step s (.allocate n) ⟨pool, x.extent s.pool.arena :: s.held⟩ := by
        have hstep : Step s (.allocate n) ⟨pool, credit s.held n _⟩ := .allocate hrun
        rwa [credit_ok s.held hround, ← Chart.size_of_grant (a := s.pool.arena) hg] at hstep
      rw [h.arena] at hrun hcharts hclean hstep
      refine ⟨_, ⟨pool, x.extent s₀.pool.arena :: s.held⟩, _, hrun, .granted x c' _ hg
        ⟨hcharts, hbecomes.arena.trans h.arena,
          ⟨acts ++ [.allocate n], hruns.append (.cons hstep (.nil _)), fun e he => ?_⟩,
          hheld.trans ?_, hbytes, hclean⟩⟩
      · simp [hfree e he]
      · exact (List.perm_middle.append_right _).symm

/-- What is given back is as the chart says, and no sentinel turns up. -/
theorem release (h : Trial s₀ filled (x.extent s₀.pool.arena :: lent) s c) (hx : x ∈ c.items) :
    ∃ s' events, s.pool.free (x.extent s₀.pool.arena).address = .ok (s'.pool, events) ∧
      Trial s₀ filled lent s' (c.release s₀.pool.arena.base x) := by
  have he := h.mem_held List.mem_cons_self
  obtain ⟨pool, hrun, hbecomes⟩ := h.charts.depicts.free hx
  have hcharts := h.charts.giveUp hx hbecomes
  have hclean (hun : s₀.Unmarked) := h.charts.depicts.unmarked_release hx hrun
    (by rw [h.arena]; exact h.clean hun)
  rw [h.arena] at hrun hcharts hclean
  obtain ⟨acts, hruns, hfree⟩ := h.runs
  have hstep : Step s (.free (x.extent s₀.pool.arena).address)
      ⟨pool, s.held.erase (x.extent s₀.pool.arena)⟩ := .free he hrun
  refine ⟨⟨pool, s.held.erase (x.extent s₀.pool.arena)⟩, _, hrun, hcharts,
    hbecomes.arena.trans h.arena,
    ⟨acts ++ [.free _], hruns.append (.cons hstep (.nil _)), fun e he => ?_⟩, ?_,
    fun e he z hz => ?_, hclean⟩
  · have haddress := (h.apart_lent he).2
    simp [hfree e he, haddress]
  · have herase := (h.held.trans (List.perm_middle.append_right _)).erase (x.extent s₀.pool.arena)
    rwa [List.cons_append, List.erase_cons_head] at herase
  · have hne : e ≠ x.extent s₀.pool.arena := fun heq => (h.apart_lent he).2 (heq ▸ rfl)
    have hkeeps := h.charts.free_keeps (f := x.extent s₀.pool.arena) (h.mem_held List.mem_cons_self)
      hrun (h.held_subset he) hne hz
    exact hkeeps.trans (h.bytes e he z hz)

theorem ends_allocate (h : Trial s₀ filled lent s c) {g : Grade}
    (hround : roundSize n = .ok g.size) :
    Ends (allocate n) s (Lends s₀ filled lent s c g) := by
  obtain ⟨answer, s', events, hrun, hlends⟩ := h.request hround
  exact Service.ends_allocate hrun hlends

theorem ends_takeOrder (h : Trial s₀ filled lent s c) (k : Fin orderCount) :
    Ends (SelfTest.takeOrder k) s (Lends s₀ filled lent s c (.block k)) := by
  obtain ⟨answer, s', events, hrun, hlends⟩ := h.request (g := .block k) (roundSize_blockSize k)
  exact fun console => ⟨answer, s', console, SelfTest.takeOrder_eq hrun, hlends⟩

theorem ends_free (h : Trial s₀ filled (x.extent s₀.pool.arena :: lent) s c) (hx : x ∈ c.items) :
    Ends (free (x.extent s₀.pool.arena).address) s
      fun _ s' => Trial s₀ filled lent s' (c.release s₀.pool.arena.base x) := by
  obtain ⟨s', events, hrun, htrial⟩ := h.release hx
  exact Service.ends_free hrun htrial

/-- Whatever is lent may be given back. -/
theorem ends_free_lent (h : Trial s₀ filled (e :: lent) s c) :
    Ends (free e.address) s fun _ s' => ∃ c', Trial s₀ filled lent s' c' := by
  obtain ⟨x, hx, rfl⟩ := h.exists_item List.mem_cons_self
  exact (h.ends_free hx).mono fun _ s' hback => ⟨_, hback⟩

theorem ends_freeBlock {b : Block}
    (h : Trial s₀ filled (b.extent s₀.pool.arena :: lent) s c) (hb : b ∈ c.blocks) :
    Ends (SelfTest.freeBlock (b.extent s₀.pool.arena).address) s
      fun _ s' => Trial s₀ filled lent s' (c.release s₀.pool.arena.base (.block b)) := by
  obtain ⟨s', events, hrun, htrial⟩ := release (x := .block b) h (Chart.mem_items.2 (.block hb))
  rw [← h.arena] at hrun ⊢
  exact fun console => ⟨(), s', console, h.charts.depicts.freeBlock_eq hb hrun, h.arena ▸ htrial⟩

/-- A test may write what it has; what it has not, stays. -/
theorem rewrite {filled' : List Filling} (h : Trial s₀ filled lent s c)
    (he : e ∈ filled.map Filling.extent ++ lent) (hn : n ≤ e.size) {m : Memory}
    (hm : s.pool.memory.ChangedIn [⟨e.address, n⟩] m)
    (hperm : (filled.map Filling.extent ++ lent).Perm (filled'.map Filling.extent ++ lent'))
    (hclean : s₀.Unmarked →
      m.Unmarked s₀.pool.arena (c.Taken s₀.pool.arena (filled'.map Filling.part ++ s₀.held))) :
    Trial s₀ filled' lent' ⟨{ s.pool with memory := m }, s.held⟩ c := by
  have hpart {x : Nat} (hx : (Extent.mk e.address n).Covers x) : e.Covers x :=
    ⟨hx.1, Nat.lt_of_lt_of_le hx.2 (Nat.add_le_add_left hn _)⟩
  have hwithin : s.pool.memory.ChangedIn s.held m := hm.widen fun f hf =>
    ⟨e, h.mem_own he, fun x hx => hpart (List.mem_singleton.1 hf ▸ hx)⟩
  obtain ⟨acts, hruns, hfree⟩ := h.runs
  obtain ⟨writes, hwrites, hnone⟩ := rewrite_runs (h.mem_own he) hn hm
  refine ⟨h.charts.rewrite hwithin, h.arena,
    ⟨acts ++ writes, hruns.append hwrites, fun f hf => ?_⟩, h.held.trans (hperm.append_right _),
    fun f hf x hx => ?_, hclean⟩
  · simp [hfree f hf, hnone]
  · rw [hm x fun d hd hin => (h.apart_own he hf).1 x hx (hpart (List.mem_singleton.1 hd ▸ hin))]
    exact h.bytes f hf x hx

/-- Some of what is lent is filled. -/
theorem fill (h : Trial s₀ filled (e :: lent) s c) (hn : n ≤ e.size) (h4 : 4 ∣ n) {m : Memory}
    (hm : s.pool.memory.ChangedIn [⟨e.address, n⟩] m) :
    Trial s₀ (⟨e, n, hn, h4⟩ :: filled) lent ⟨{ s.pool with memory := m }, s.held⟩ c := by
  refine h.rewrite (List.mem_append_right _ List.mem_cons_self) hn hm List.perm_middle fun hun => ?_
  refine (h.clean hun).congr (fun x hx => hx.imp_right fun hdirty => ?_) fun x hx => hm x ?_
  · obtain ⟨f, hf, hcovers⟩ := hdirty
    exact ⟨f, List.mem_cons_of_mem _ hf, hcovers⟩
  · intro f hf hin
    obtain rfl := List.mem_singleton.1 hf
    exact hx (.inr ⟨_, List.mem_cons_self, hin⟩)

/-- What was filled is cleared. -/
theorem clear {f : Filling} (h : Trial s₀ (f :: filled) lent s c) :
    Trial s₀ filled (f.extent :: lent)
      ⟨s.pool.fill f.extent.address f.count 0, s.held⟩ c := by
  have hmem : f.extent ∈ (f :: filled).map Filling.extent ++ lent :=
    List.mem_append_left _ List.mem_cons_self
  refine h.rewrite hmem f.le_size (Memory.changedIn_fill (e := f.part) List.mem_cons_self
    (Nat.le_refl _) 0) List.perm_middle.symm fun hun => ?_
  obtain ⟨x, hx, haddress⟩ := h.charts.exists_item (h.mem_own hmem)
  have hdvd := h.charts.depicts.dvd_item hx
  rw [haddress] at hdvd
  refine (h.clean hun).clear (Nat.dvd_trans (by decide) hdvd) f.aligned fun z hz => ?_
  rw [List.map_cons, List.cons_append, Chart.Taken, List.exists_mem_cons_iff, or_left_comm] at hz
  exact hz.symm

/-- What is lent holds no sentinel. -/
theorem holdsSentinel_eq (h : Trial s₀ filled (e :: lent) s c) (hun : s₀.Unmarked)
    (hn : n ≤ e.size) : SelfTest.holdsSentinel s.pool.memory e.address n = false := by
  obtain ⟨x, hx, rfl⟩ := h.exists_item List.mem_cons_self
  have hdvd := h.charts.depicts.dvd_item hx
  obtain ⟨-, -, hstart, hstop⟩ := h.charts.depicts.item_placed hx
  rw [h.arena] at hdvd hstart hstop
  refine List.any_eq_false.2 fun i hi => ?_
  have hi := List.mem_range.1 hi
  simp only [decide_eq_true_eq]
  refine h.clean hun _ ⟨?_, ?_, ?_⟩ fun z hlow hhigh htaken => ?_
  · exact (Nat.dvd_add_iff_left (Nat.dvd_mul_right 4 i)).1 (Nat.dvd_trans (by decide) hdvd)
  · omega
  · omega
  have hz : (x.extent s₀.pool.arena).Covers z := ⟨by omega, by omega⟩
  cases htaken with
  | inl hreserves =>
      rw [← h.arena] at hreserves hz
      exact h.charts.depicts.reserves_apart hx hreserves hz
  | inr hdirty =>
      obtain ⟨d, hd, hcovers⟩ := hdirty
      cases List.mem_append.1 hd with
      | inl hd =>
          obtain ⟨f, hf, rfl⟩ := List.mem_map.1 hd
          have hwide : f.extent.Covers z :=
            ⟨hcovers.1, Nat.lt_of_lt_of_le hcovers.2 (Nat.add_le_add_left f.le_size _)⟩
          exact h.apart_filled hf z hwide hz
      | inr hd => exact (h.apart_lent hd).1 z hcovers hz

end Trial
end Ledger
end BuddySlab
