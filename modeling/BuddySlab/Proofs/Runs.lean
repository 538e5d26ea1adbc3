import BuddySlab.Proofs.Emission
import BuddySlab.Proofs.Separation

/-!
Runs of a pool and its clients. A ledger is a pool together with the extents that clients hold; a
client may ask for any size, release the null address or what is held, and write to what is held. At
every point of a run from a fresh pool there is a chart that the pool depicts and whose items are
what is held, so no step that a client may take is ever a fault.
-/

namespace BuddySlab

namespace Pool

/-- An allocation whose bytes asked for are cleared. -/
def allocateZeroed (p : Pool) (size : Nat) :
    Except Fault (Except Refusal Nat × Pool × List Event) := do
  match ← p.allocate size with
  | (.error refusal, p, events) => return (.error refusal, p, events)
  | (.ok address, p, events) => return (.ok address, p.fill address size 0, events)

section Zeroed
variable {p p' : Pool} {size : Nat} {events : List Event}

theorem allocateZeroed_of_refused {refusal : Refusal}
    (hrun : p.allocate size = .ok (.error refusal, p', events)) :
    p.allocateZeroed size = .ok (.error refusal, p', events) := by
  simp only [allocateZeroed, hrun, ok_bind, pure_eq_ok]

theorem allocateZeroed_of_granted {address : Nat}
    (hrun : p.allocate size = .ok (.ok address, p', events)) :
    p.allocateZeroed size = .ok (.ok address, p'.fill address size 0, events) := by
  simp only [allocateZeroed, hrun, ok_bind, pure_eq_ok]

end Zeroed
end Pool

namespace Service
variable {α : Type} {pool : Pool} {console : Console}

/-- What a pool operation comes to at a station whose logger asks for nothing. -/
def report (console : Console) :
    Except Fault (α × Pool × List Event) → Except Crash (α × Station)
  | .ok (answer, pool, events) => .ok (answer, ⟨pool, console.writeAll events, [], []⟩)
  | .error fault => .error (console.crash fault)

theorem write_of_quiet (e : Event) :
    write e ⟨pool, console, [], []⟩ = .ok ((), ⟨pool, console.write e, [], []⟩) := by
  by_cases htold : (console.keeps e && e.level != .error) = true
  · exact write_told htold rfl
  · exact write_untold htold

theorem forM_write_of_quiet (events : List Event) :
    events.forM write ⟨pool, console, [], []⟩ =
      .ok ((), ⟨pool, console.writeAll events, [], []⟩) := by
  induction events generalizing console with
  | nil => rfl
  | cons e rest ih => exact (bind_ok (write_of_quiet e)).trans ih

theorem afterWork_of_quiet (outcome : Except Fault (α × Pool × List Event)) :
    afterWork write console [] outcome = report console outcome := by
  cases outcome with
  | error fault => rfl
  | ok result => exact bind_ok (forM_write_of_quiet result.2.2)

theorem allocate_of_quiet (size : Nat) :
    allocate size ⟨pool, console, [], []⟩ = report console (pool.allocate size) :=
  (allocateVia_open size console []).trans (afterWork_of_quiet _)

theorem allocateZeroed_of_quiet (size : Nat) :
    allocateZeroed size ⟨pool, console, [], []⟩ = report console (pool.allocateZeroed size) := by
  have hallocate : allocateVia write size ⟨pool, console, [], []⟩ =
      report console (pool.allocate size) := allocate_of_quiet size
  rw [allocateZeroed, allocateZeroedVia, bind_apply, hallocate, Pool.allocateZeroed]
  cases hrun : pool.allocate size with
  | error fault => rfl
  | ok outcome =>
      obtain ⟨answer, pool', events⟩ := outcome
      cases answer <;> rfl

theorem free_of_quiet (address : Nat) :
    free address ⟨pool, console, [], []⟩ =
      report console (pool.free address >>= fun (pool, events) => .ok ((), pool, events)) :=
  (freeVia_open address console []).trans (afterWork_of_quiet _)

end Service

structure Ledger where
  pool : Pool
  held : List Extent

inductive Act
  | allocate (size : Nat)
  | allocateZeroed (size : Nat)
  | free (address : Nat)
  | write (address : Nat) (byte : UInt8)
  deriving DecidableEq, Repr

namespace Ledger

/-- What clients hold after the answer to a request. -/
def credit (held : List Extent) (size : Nat) : Except Refusal Nat → List Extent
  | .error _ => held
  | .ok address =>
      match roundSize size with
      | .error _ => held
      | .ok rounded => ⟨address, rounded⟩ :: held

theorem credit_ok (held : List Extent) {size rounded : Nat} (h : roundSize size = .ok rounded)
    (address : Nat) : credit held size (.ok address) = ⟨address, rounded⟩ :: held := by
  rw [credit, h]

inductive Step : Ledger → Act → Ledger → Prop
  | allocate {pool pool' : Pool} {held : List Extent} {size : Nat} {answer : Except Refusal Nat}
      {events : List Event} (hrun : pool.allocate size = .ok (answer, pool', events)) :
      Step ⟨pool, held⟩ (.allocate size) ⟨pool', credit held size answer⟩
  | allocateZeroed {pool pool' : Pool} {held : List Extent} {size : Nat}
      {answer : Except Refusal Nat} {events : List Event}
      (hrun : pool.allocateZeroed size = .ok (answer, pool', events)) :
      Step ⟨pool, held⟩ (.allocateZeroed size) ⟨pool', credit held size answer⟩
  | freeNull {pool pool' : Pool} {held : List Extent} {events : List Event}
      (hrun : pool.free 0 = .ok (pool', events)) :
      Step ⟨pool, held⟩ (.free 0) ⟨pool', held⟩
  | free {pool pool' : Pool} {held : List Extent} {e : Extent} {events : List Event}
      (hheld : e ∈ held) (hrun : pool.free e.address = .ok (pool', events)) :
      Step ⟨pool, held⟩ (.free e.address) ⟨pool', held.erase e⟩
  | write {pool : Pool} {held : List Extent} {e : Extent} {address : Nat} {byte : UInt8}
      (hheld : e ∈ held) (hcovers : e.Covers address) :
      Step ⟨pool, held⟩ (.write address byte)
        ⟨{ pool with memory := pool.memory.write address byte }, held⟩

inductive Runs : Ledger → List Act → Ledger → Prop
  | nil (s : Ledger) : Runs s [] s
  | cons {s s' s'' : Ledger} {act : Act} {acts : List Act} (hstep : Step s act s')
      (hruns : Runs s' acts s'') : Runs s (act :: acts) s''

/-- The ledger is met on a run from a fresh pool of this range. -/
def Reached (start stop : Nat) (s : Ledger) : Prop :=
  ∃ m pool acts, Pool.init m start stop = .ok (.ok pool) ∧ Runs ⟨pool, []⟩ acts s

/-- Takes a step, if a client may and the pool does not fault. -/
def step? (s : Ledger) : Act → Option Ledger
  | .allocate size =>
      match s.pool.allocate size with
      | .ok (answer, pool, _) => some ⟨pool, credit s.held size answer⟩
      | .error _ => none
  | .allocateZeroed size =>
      match s.pool.allocateZeroed size with
      | .ok (answer, pool, _) => some ⟨pool, credit s.held size answer⟩
      | .error _ => none
  | .free address =>
      match s.pool.free address with
      | .ok (pool, _) =>
          if address = 0 then some ⟨pool, s.held⟩
          else (s.held.find? (·.address = address)).map fun e => ⟨pool, s.held.erase e⟩
      | .error _ => none
  | .write address byte =>
      if s.held.any (·.Covers address) then
        some ⟨{ s.pool with memory := s.pool.memory.write address byte }, s.held⟩
      else none

/-- Takes these steps from a fresh pool. -/
def replay? (m : Memory) (start stop : Nat) (acts : List Act) : Option Ledger :=
  match Pool.init m start stop with
  | .ok (.ok pool) => acts.foldlM step? ⟨pool, []⟩
  | _ => none

theorem step_of_step? {s s' : Ledger} {act : Act} (h : s.step? act = some s') : Step s act s' := by
  cases act with
  | allocate size =>
      cases hrun : s.pool.allocate size with
      | error fault => simp [step?, hrun] at h
      | ok outcome =>
          simp only [step?, hrun, Option.some.injEq] at h
          exact h ▸ .allocate hrun
  | allocateZeroed size =>
      cases hrun : s.pool.allocateZeroed size with
      | error fault => simp [step?, hrun] at h
      | ok outcome =>
          simp only [step?, hrun, Option.some.injEq] at h
          exact h ▸ .allocateZeroed hrun
  | free address =>
      cases hrun : s.pool.free address with
      | error fault => simp [step?, hrun] at h
      | ok outcome =>
          simp only [step?, hrun] at h
          split at h
          · rename_i hzero
            subst hzero
            exact Option.some.inj h ▸ .freeNull hrun
          · obtain ⟨e, he, rfl⟩ := Option.map_eq_some_iff.1 h
            obtain rfl : e.address = address := by simpa using List.find?_some he
            exact .free (List.mem_of_find?_eq_some he) hrun
  | write address byte =>
      rw [step?, Option.ite_none_right_eq_some, List.any_eq_true] at h
      obtain ⟨⟨e, he, hcovers⟩, heq⟩ := h
      exact Option.some.inj heq ▸ .write he (of_decide_eq_true hcovers)

theorem runs_of_foldlM {s s' : Ledger} {acts : List Act} (h : acts.foldlM step? s = some s') :
    Runs s acts s' := by
  induction acts generalizing s with
  | nil => exact Option.some.inj h ▸ .nil s
  | cons act rest ih =>
      obtain ⟨s₁, hstep, hrest⟩ := Option.bind_eq_some_iff.1 h
      exact .cons (step_of_step? hstep) (ih hrest)

theorem reached_of_replay? {m : Memory} {start stop : Nat} {acts : List Act} {s : Ledger}
    (h : replay? m start stop acts = some s) : Reached start stop s := by
  rw [replay?] at h
  split at h
  · rename_i pool hinit
    exact ⟨m, pool, acts, hinit, runs_of_foldlM h⟩
  · cases h

structure Charts (s : Ledger) (c : Chart) : Prop where
  depicts : s.pool.Depicts c
  held_perm : s.held.Perm (c.items.map (Item.extent s.pool.arena))

/-- A request is refused and leaves the pool as it is, or an extent of its rounded size is held in
addition. -/
inductive Answers (s : Ledger) (c : Chart) (size : Nat)
    (run : Except Fault (Except Refusal Nat × Pool × List Event)) : Prop
  | refused (refusal : Refusal) (events : List Event)
      (hrun : run = .ok (.error refusal, s.pool, events))
  | granted (e : Extent) (pool : Pool) (c' : Chart) (events : List Event)
      (hrun : run = .ok (.ok e.address, pool, events)) (hround : roundSize size = .ok e.size)
      (hle : size ≤ e.size) (harena : pool.arena = s.pool.arena)
      (hslabs : c.slabPages ⊆ c'.slabPages) (hcharts : Charts ⟨pool, e :: s.held⟩ c')

namespace Charts
variable {s s' : Ledger} {c : Chart} {act : Act}

theorem exists_item (h : s.Charts c) {e : Extent} (he : e ∈ s.held) :
    ∃ x ∈ c.items, x.extent s.pool.arena = e :=
  List.mem_map.1 (h.held_perm.mem_iff.1 he)

/-- A page or more is held as a block. -/
theorem exists_block (h : s.Charts c) {e : Extent} (he : e ∈ s.held) (hle : pageSize ≤ e.size) :
    ∃ b ∈ c.blocks, (Item.block b).extent s.pool.arena = e := by
  obtain ⟨x, hx, rfl⟩ := h.exists_item he
  cases Chart.mem_items.1 hx with
  | block hb => exact ⟨_, hb, rfl⟩
  | @object i t number ht hlive => exact absurd (classSizes_lt i) (Nat.not_lt.2 hle)

/-- Less than a page is held as an object of a slab. -/
theorem exists_object (h : s.Charts c) {e : Extent} (he : e ∈ s.held) (hlt : e.size < pageSize) :
    ∃ i, ∃ t ∈ c.sheets i, ∃ number ∈ t.live (classSizes.get i),
      (Item.object i t.page number).extent s.pool.arena = e := by
  obtain ⟨x, hx, rfl⟩ := h.exists_item he
  cases Chart.mem_items.1 hx with
  | @block b hb => exact absurd (pageSize_le_blockSize b.order) (Nat.not_le.2 hlt)
  | @object i t number ht hlive => exact ⟨i, t, ht, number, hlive, rfl⟩

/-- What is held has no order. -/
theorem of_perm {pool : Pool} {held held' : List Extent} (h : Charts ⟨pool, held⟩ c)
    (hperm : held'.Perm held) : Charts ⟨pool, held'⟩ c :=
  ⟨h.depicts, hperm.trans h.held_perm⟩

/-- What the chart grants is held in addition. -/
theorem grant (h : s.Charts c) {g : Grade} {x : Item} {c' : Chart} {pool : Pool}
    (hg : c.grant? g = some (x, c')) (hbecomes : s.pool.Becomes pool c' x) :
    Charts ⟨pool, x.extent s.pool.arena :: s.held⟩ c' := by
  have hitems := (h.depicts.proper.items_grant hg).map (Item.extent s.pool.arena)
  refine ⟨hbecomes.depicts, ?_⟩
  rw [hbecomes.arena]
  exact (h.held_perm.cons _).trans hitems.symm

/-- What the chart releases is held no longer. -/
theorem giveUp (h : s.Charts c) {x : Item} (hx : x ∈ c.items) {pool : Pool}
    (hbecomes : s.pool.Becomes pool (c.release s.pool.arena.base x) x) :
    Charts ⟨pool, s.held.erase (x.extent s.pool.arena)⟩ (c.release s.pool.arena.base x) := by
  have hitems := (h.depicts.proper.items_release hx s.pool.arena.base).map
    (Item.extent s.pool.arena)
  have herase := (h.held_perm.trans hitems).erase (x.extent s.pool.arena)
  rw [List.map_cons, List.erase_cons_head] at herase
  refine ⟨hbecomes.depicts, ?_⟩
  rwa [hbecomes.arena]

theorem request (h : s.Charts c) (size : Nat) : s.Answers c size (s.pool.allocate size) := by
  cases hround : roundSize size with
  | error refusal => exact .refused refusal [] (by rw [Pool.allocate, hround])
  | ok rounded =>
      obtain ⟨hle, g, rfl⟩ := exists_grade hround
      cases h.depicts.allocate hround with
      | refused hnone hrun => exact .refused _ _ hrun
      | granted x c' pool hg hrun hbecomes =>
          have hsize := Chart.size_of_grant (a := s.pool.arena) hg
          exact .granted _ pool c' _ hrun (by rw [hround, hsize]) (by rwa [hsize]) hbecomes.arena
            (Chart.slabPages_grant hg) (h.grant hg hbecomes)

theorem rewrite (h : s.Charts c) {m : Memory} (hm : s.pool.memory.ChangedIn s.held m) :
    Charts ⟨{ s.pool with memory := m }, s.held⟩ c :=
  ⟨h.depicts.rewrite (hm.mono h.held_perm.subset), h.held_perm⟩

theorem fill (h : s.Charts c) {e : Extent} (he : e ∈ s.held) {count : Nat} (hcount : count ≤ e.size)
    (byte : UInt8) : Charts ⟨s.pool.fill e.address count byte, s.held⟩ c :=
  h.rewrite (Memory.changedIn_fill he hcount byte)

theorem requestZeroed (h : s.Charts c) (size : Nat) :
    s.Answers c size (s.pool.allocateZeroed size) := by
  cases h.request size with
  | refused refusal events hrun =>
      exact .refused refusal events (Pool.allocateZeroed_of_refused hrun)
  | granted e pool c' events hrun hround hle harena hslabs hcharts =>
      exact .granted e (pool.fill e.address size 0) c' events (Pool.allocateZeroed_of_granted hrun)
        hround hle harena hslabs (hcharts.fill List.mem_cons_self hle 0)

/-- What is credited for an answer is what is held in addition. -/
theorem settle (h : s.Charts c) {size : Nat} {answer : Except Refusal Nat} {pool : Pool}
    {events : List Event} {run : Except Fault (Except Refusal Nat × Pool × List Event)}
    (hanswers : s.Answers c size run) (hrun : run = .ok (answer, pool, events)) :
    ∃ c', Charts ⟨pool, credit s.held size answer⟩ c' ∧ pool.arena = s.pool.arena ∧
      c.slabPages ⊆ c'.slabPages := by
  cases hanswers with
  | refused refusal events' hrefused =>
      cases hrefused.symm.trans hrun
      exact ⟨c, h, rfl, fun _ hj => hj⟩
  | granted e pool' c' events' hgranted hround hle harena hslabs hcharts =>
      cases hgranted.symm.trans hrun
      rw [credit_ok s.held hround]
      exact ⟨c', hcharts, harena, hslabs⟩

theorem release (h : s.Charts c) {e : Extent} (he : e ∈ s.held) :
    ∃ pool c' events, s.pool.free e.address = .ok (pool, events) ∧
      pool.arena = s.pool.arena ∧ c'.slabPages = c.slabPages ∧
      Charts ⟨pool, s.held.erase e⟩ c' := by
  obtain ⟨x, hx, rfl⟩ := h.exists_item he
  obtain ⟨pool, hrun, hbecomes⟩ := h.depicts.free hx
  exact ⟨pool, _, _, hrun, hbecomes.arena, Chart.slabPages_release c _ x, h.giveUp hx hbecomes⟩

theorem write (h : s.Charts c) {e : Extent} (he : e ∈ s.held) {address : Nat}
    (hcovers : e.Covers address) (byte : UInt8) :
    Charts ⟨{ s.pool with memory := s.pool.memory.write address byte }, s.held⟩ c :=
  h.rewrite (Memory.changedIn_write he hcovers byte)

/-- A step leads to a ledger with a chart; pages that are slabs remain slabs. -/
theorem step (h : s.Charts c) (hstep : Step s act s') :
    ∃ c', s'.Charts c' ∧ s'.pool.arena = s.pool.arena ∧ c.slabPages ⊆ c'.slabPages := by
  cases hstep with
  | allocate hrun => exact h.settle (h.request _) hrun
  | allocateZeroed hrun => exact h.settle (h.requestZeroed _) hrun
  | freeNull hrun =>
      rw [Pool.Depicts.free_zero] at hrun
      cases hrun
      exact ⟨c, h, rfl, fun _ hj => hj⟩
  | @free pool pool' held e events hheld hrun =>
      obtain ⟨p, c', events', hfree, harena, hslabs, hcharts⟩ := h.release hheld
      cases hfree.symm.trans hrun
      exact ⟨c', hcharts, harena, fun _ hj => hslabs ▸ hj⟩
  | write hheld hcovers =>
      exact ⟨c, h.write hheld hcovers _, rfl, fun _ hj => hj⟩

theorem runs (h : s.Charts c) {acts : List Act} (hruns : Runs s acts s') :
    ∃ c', s'.Charts c' ∧ s'.pool.arena = s.pool.arena ∧ c.slabPages ⊆ c'.slabPages := by
  induction hruns generalizing c with
  | nil s => exact ⟨c, h, rfl, fun _ hj => hj⟩
  | cons hstep _ ih =>
      obtain ⟨c₁, hcharts, harena, hslabs⟩ := h.step hstep
      obtain ⟨c', hcharts', harena', hslabs'⟩ := ih hcharts
      exact ⟨c', hcharts', harena'.trans harena, fun _ hj => hslabs' (hslabs hj)⟩

end Charts

/-- A pool that was just opened, of which nothing is held. -/
theorem Charts.initial {a : Arena} {pool : Pool} (h : pool.Depicts (.initial a)) :
    Charts ⟨pool, []⟩ (.initial a) := by
  refine ⟨h, ?_⟩
  rw [Chart.items_initial]
  exact .nil

theorem Runs.append {s s' s'' : Ledger} {acts acts' : List Act} (h : Runs s acts s')
    (h' : Runs s' acts' s'') : Runs s (acts ++ acts') s'' := by
  induction h with
  | nil s => exact h'
  | cons hstep _ ih => exact .cons hstep (ih h')

namespace Reached
variable {start stop : Nat} {s s' : Ledger}

theorem init {m : Memory} {pool : Pool} (h : Pool.init m start stop = .ok (.ok pool)) :
    Reached start stop ⟨pool, []⟩ :=
  ⟨m, pool, [], h, .nil _⟩

theorem runs (h : Reached start stop s) {acts : List Act} (hruns : Runs s acts s') :
    Reached start stop s' := by
  obtain ⟨m, pool, before, hinit, hbefore⟩ := h
  exact ⟨m, pool, before ++ acts, hinit, hbefore.append hruns⟩

/-- Every ledger on a run has a chart. -/
theorem charts (h : Reached start stop s) :
    ∃ c, s.Charts c ∧ Arena.layOut start stop = .ok (.ok s.pool.arena) := by
  obtain ⟨m, pool, acts, hinit, hruns⟩ := h
  have hlaid := Pool.layOut_of_init hinit
  obtain ⟨pool', hinit', harena, hdepicts⟩ := Pool.init_eq m hlaid
  rw [hinit, Except.ok.injEq, Except.ok.injEq] at hinit'
  subst hinit'
  obtain ⟨c, hcharts', harena', -⟩ := (Charts.initial hdepicts).runs hruns
  exact ⟨c, hcharts', harena' ▸ hlaid⟩

end Reached

theorem exists_reached_of_replay? {m : Memory} {start stop : Nat} {acts : List Act}
    {q : Ledger → Bool} (h : (replay? m start stop acts).any q = true) :
    ∃ s, Reached start stop s ∧ q s = true := by
  obtain ⟨s, hs, hq⟩ := (Option.any_eq_true _ _).1 h
  exact ⟨s, reached_of_replay? hs, hq⟩

/-- In a payload of four pages a block and an object are held, after another object of the same slab
was released. -/
theorem exists_reached : ∃ s, Reached 4096 24576 s ∧ s.held = [⟨8448, 128⟩, ⟨16384, 8192⟩] := by
  have hreplay : (replay? .blank 4096 24576 [.allocate 5000, .allocateZeroed 100, .allocate 100,
      .write 8500 7, .free 8320]).any (·.held = [⟨8448, 128⟩, ⟨16384, 8192⟩]) = true := by
    decide +kernel
  obtain ⟨s, hreached, hheld⟩ := exists_reached_of_replay? hreplay
  exact ⟨s, hreached, of_decide_eq_true hheld⟩

end Ledger
end BuddySlab
