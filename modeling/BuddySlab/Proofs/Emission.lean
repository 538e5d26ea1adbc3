import BuddySlab.Proofs.Geometry
import BuddySlab.Station

/-!
Where the lines of a call are written. Whatever the pool is and whatever becomes of a line, a call
that finds the locks open has done its work on the pool when it writes its first line, and has the
locks open again: it comes to what its work says as a whole, followed by its lines. So a logger that
uses the pool finds no lock held, and its requests come to what the pool says of them.
-/

namespace BuddySlab

namespace Pool

/-- Allocates each size and frees it before the next. -/
def allocateAndFree (p : Pool) : List Nat → Except Fault Pool
  | [] => .ok p
  | size :: sizes => do
      match ← p.allocate size with
      | (.error _, p, _) => p.allocateAndFree sizes
      | (.ok address, p, _) => do
          let (p, _) ← p.free address
          p.allocateAndFree sizes

section Parts
variable {p : Pool} {size rounded address : Nat}

theorem openSlab_eq (p : Pool) (i : Fin classSizes.size) (page : Nat) :
    p.openSlab i page =
      (p.onMemory (fun m => return ((), ← Slab.format m page (p.caches.get i).objectSize)) >>=
        fun (_, formatted) => formatted.onMemory (Slab.pop · page) >>= fun
          | (none, _) => .error (.violation .corruptFreeList page)
          | (some object, popped) => .ok (object, popped.publish i page,
              [.slabCreated page (p.caches.get i).objectSize])) := by
  obtain ⟨buddy, caches, memory⟩ := p
  rw [openSlab, Cache.grow, onMemory]
  cases Slab.format memory page (caches.get i).objectSize with
  | error fault => rfl
  | ok formatted =>
      simp only [ok_bind, pure_eq_ok, onMemory]
      cases Slab.pop formatted page with
      | error fault => rfl
      | ok popped =>
          obtain ⟨object?, memory'⟩ := popped
          cases object? <;> rfl

theorem allocateObject_of_class {i : Fin classSizes.size} (hclass : p.caches.class? size = some i) :
    p.allocateObject size =
      (p.onMemory (Cache.popFrom · (p.caches.get i).newest p.slabLimit) >>= fun
        | (some object, p) => .ok (.ok object, p, [])
        | (none, p) => p.growCache i) := by
  rw [allocateObject, hclass]
  obtain ⟨buddy, caches, memory⟩ := p
  simp only [onMemory, slabLimit, arena]
  cases Cache.popFrom memory (caches.get i).newest buddy.arena.pages with
  | error fault => rfl
  | ok popped =>
      obtain ⟨object?, memory'⟩ := popped
      cases object? <;> rfl

/-- The last line of a request. -/
def verdict (rounded : Nat) : Except Refusal Nat → Event
  | .ok address => .granted rounded address
  | .error _ => .exhausted rounded

theorem allocate_of_rounded (hround : roundSize size = .ok rounded) :
    p.allocate size =
      ((if rounded < pageSize then p.allocateObject rounded else p.allocateBlock rounded) >>=
        fun (answer, p, events) => .ok (answer, p, events ++ [verdict rounded answer])) := by
  rw [allocate, hround]
  by_cases hlt : rounded < pageSize
  · simp only [if_pos hlt]
    rfl
  · simp only [if_neg hlt]
    rfl

end Parts
end Pool

namespace Service
variable {α β : Type} {pool pool' : Pool} {console : Console} {requests : List Nat}
  {locks : List Lock} {lock : Lock} {emit : Emitter} {fault : Fault}

theorem bind_apply (f : Service α) (g : α → Service β) (s : Station) :
    (f >>= g) s = (f s >>= fun (a, s) => g a s) := rfl

theorem pure_apply (a : α) (s : Station) : (pure a : Service α) s = .ok (a, s) := rfl

section Bind
variable {f : Service α} {g : α → Service β} {s s' : Station} {a : α} {crash : Crash}

theorem bind_ok (hrun : f s = .ok (a, s')) : (f >>= g) s = g a s' := by
  rw [bind_apply, hrun, ok_bind]

theorem bind_error (hrun : f s = .error crash) : (f >>= g) s = .error crash := by
  rw [bind_apply, hrun, error_bind]

theorem bind_congr_left {f' : Service α} (h : f s = f' s) : (f >>= g) s = (f' >>= g) s := by
  rw [bind_apply, bind_apply, h]

end Bind

section Operate
variable {f : Pool → Except Fault (α × Pool)} {a : α}

theorem operate_ok (hrun : f pool = .ok (a, pool')) :
    operate f ⟨pool, console, requests, locks⟩ = .ok (a, ⟨pool', console, requests, locks⟩) := by
  simp only [operate, hrun]

theorem operate_error (hrun : f pool = .error fault) :
    operate f ⟨pool, console, requests, locks⟩ = .error (console.crash fault) := by
  simp only [operate, hrun]

/-- A lock that is open is taken, and open again afterwards. -/
theorem locked_operate (hopen : lock ∉ locks) :
    locked lock (operate f) ⟨pool, console, requests, locks⟩ =
      operate f ⟨pool, console, requests, locks⟩ := by
  cases hrun : f pool with
  | error fault => simp only [locked, if_neg hopen, operate, hrun]
  | ok result => simp only [locked, if_neg hopen, operate, hrun, List.erase_cons_head]

theorem locked_operate_ok (hopen : lock ∉ locks) (hrun : f pool = .ok (a, pool')) :
    locked lock (operate f) ⟨pool, console, requests, locks⟩ =
      .ok (a, ⟨pool', console, requests, locks⟩) :=
  (locked_operate hopen).trans (operate_ok hrun)

end Operate

theorem consult_ok {f : Pool → Except Fault α} {a : α} (hrun : f pool = .ok a) :
    consult f ⟨pool, console, requests, locks⟩ = .ok (a, ⟨pool, console, requests, locks⟩) := by
  simp only [consult, hrun]

theorem consult_error {f : Pool → Except Fault α} (hrun : f pool = .error fault) :
    consult f ⟨pool, console, requests, locks⟩ = .error (console.crash fault) := by
  simp only [consult, hrun]

theorem locked_consult {f : Pool → Except Fault α} (hopen : lock ∉ locks) :
    locked lock (consult f) ⟨pool, console, requests, locks⟩ =
      consult f ⟨pool, console, requests, locks⟩ := by
  cases hrun : f pool with
  | error fault => simp only [locked, if_neg hopen, consult, hrun]
  | ok result => simp only [locked, if_neg hopen, consult, hrun, List.erase_cons_head]

theorem forM_concat (emit : Emitter) (events : List Event) (e : Event) :
    (events ++ [e]).forM emit = (events.forM emit >>= fun _ => emit e) := by
  simp only [List.forM_eq_forM, List.forM_append, List.forM_cons, List.forM_nil, bind_pure_unit]

theorem forM_singleton (emit : Emitter) (e : Event) : [e].forM emit = emit e := by
  simp only [List.forM_eq_forM, List.forM_cons, List.forM_nil, bind_pure_unit]

/-- What becomes of a run whose work on the pool has come to this: its lines are written, with every
lock open, and it ends. -/
def afterWork (emit : Emitter) (console : Console) (requests : List Nat) :
    Except Fault (α × Pool × List Event) → Except Crash (α × Station)
  | .ok (answer, pool, events) =>
      (events.forM emit >>= fun _ => pure answer) ⟨pool, console, requests, []⟩
  | .error fault => .error (console.crash fault)

/-- With the locks open the run first does its work on the pool, which comes to this, and then
writes its lines. -/
def WorksFirst (emit : Emitter) (run : Service α) (pool : Pool)
    (outcome : Except Fault (α × Pool × List Event)) : Prop :=
  ∀ console requests,
    run ⟨pool, console, requests, []⟩ = afterWork emit console requests outcome

section WorksFirst
variable {run : Service α} {k : α → Service β} {outcome : Except Fault (α × Pool × List Event)}

theorem worksFirst_pure (a : α) : WorksFirst emit (pure a) pool (.ok (a, pool, [])) :=
  fun _ _ => rfl

theorem worksFirst_emit (e : Event) : WorksFirst emit (emit e) pool (.ok ((), pool, [e])) := by
  intro console requests
  rw [afterWork, forM_singleton, bind_pure_unit]

/-- What writes no line may come before what works first. -/
theorem worksFirst_bind {f : Pool → Except Fault (α × Pool)}
    {g : α × Pool → Except Fault (β × Pool × List Event)}
    (hrun : ∀ console requests, run ⟨pool, console, requests, []⟩ =
      operate f ⟨pool, console, requests, []⟩)
    (hk : ∀ a pool', f pool = .ok (a, pool') → WorksFirst emit (k a) pool' (g (a, pool'))) :
    WorksFirst emit (run >>= k) pool (f pool >>= g) := by
  intro console requests
  rw [bind_congr_left (hrun console requests)]
  cases hwork : f pool with
  | error fault => exact bind_error (operate_error hwork)
  | ok result =>
      obtain ⟨a, pool'⟩ := result
      exact (bind_ok (operate_ok hwork)).trans (hk a pool' hwork console requests)

theorem worksFirst_consult {f : Pool → Except Fault α}
    {g : α → Except Fault (β × Pool × List Event)}
    (hrun : ∀ console requests, run ⟨pool, console, requests, []⟩ =
      consult f ⟨pool, console, requests, []⟩)
    (hk : ∀ a, f pool = .ok a → WorksFirst emit (k a) pool (g a)) :
    WorksFirst emit (run >>= k) pool (f pool >>= g) := by
  intro console requests
  rw [bind_congr_left (hrun console requests)]
  cases hwork : f pool with
  | error fault => exact bind_error (consult_error hwork)
  | ok a => exact (bind_ok (consult_ok hwork)).trans (hk a hwork console requests)

/-- Looking at the pool changes nothing. -/
theorem worksFirst_look {f : Pool → α} {outcome : Except Fault (β × Pool × List Event)}
    (hrun : ∀ console requests, run ⟨pool, console, requests, []⟩ =
      consult (fun p => .ok (f p)) ⟨pool, console, requests, []⟩)
    (hk : WorksFirst emit (k (f pool)) pool outcome) :
    WorksFirst emit (run >>= k) pool outcome := by
  intro console requests
  rw [bind_congr_left (hrun console requests)]
  exact hk console requests

/-- Work that cannot fail. -/
theorem worksFirst_change {run : Service Unit} {k : Unit → Service β} {f : Pool → Pool}
    {outcome : Except Fault (β × Pool × List Event)}
    (hrun : ∀ console requests, run ⟨pool, console, requests, []⟩ =
      operate (fun p => .ok ((), f p)) ⟨pool, console, requests, []⟩)
    (hk : WorksFirst emit (k ()) (f pool) outcome) :
    WorksFirst emit (run >>= k) pool outcome := by
  intro console requests
  rw [bind_congr_left (hrun console requests)]
  exact hk console requests

/-- Work that comes to one line. -/
theorem worksFirst_line {f : Pool → Except Fault (α × Pool)}
    (hrun : ∀ console requests, run ⟨pool, console, requests, []⟩ =
      operate f ⟨pool, console, requests, []⟩) (line : α → Event) :
    WorksFirst emit (run >>= fun a => emit (line a)) pool
      (f pool >>= fun (a, p) => .ok ((), p, [line a])) :=
  worksFirst_bind hrun fun a _ _ => worksFirst_emit (line a)

theorem WorksFirst.congr {outcome' : Except Fault (α × Pool × List Event)}
    (h : WorksFirst emit run pool outcome) (heq : outcome = outcome') :
    WorksFirst emit run pool outcome' :=
  heq ▸ h

theorem WorksFirst.map (h : WorksFirst emit run pool outcome) (g : α → β) :
    WorksFirst emit (run >>= fun a => pure (g a)) pool
      (outcome >>= fun (a, p, events) => .ok (g a, p, events)) := by
  intro console requests
  rw [bind_apply, h]
  cases outcome with
  | error fault => rfl
  | ok result =>
      obtain ⟨a, pool', events⟩ := result
      simp only [afterWork, bind_apply, ok_bind]
      cases events.forM emit ⟨pool', console, requests, []⟩ <;> rfl

/-- A line that is written after the work comes after its lines. -/
theorem WorksFirst.concat (h : WorksFirst emit run pool outcome) (last : α → Event) :
    WorksFirst emit (run >>= fun a => emit (last a) >>= fun _ => pure a) pool
      (outcome >>= fun (a, p, events) => .ok (a, p, events ++ [last a])) := by
  intro console requests
  rw [bind_apply, h]
  cases outcome with
  | error fault => rfl
  | ok result =>
      obtain ⟨a, pool', events⟩ := result
      simp only [afterWork, ok_bind, forM_concat, bind_assoc, bind_apply]
      cases events.forM emit ⟨pool', console, requests, []⟩ <;> rfl

end WorksFirst

theorem popFrom_open (page limit : Nat) (console : Console) (requests : List Nat) :
    popFrom page limit ⟨pool, console, requests, []⟩ =
      operate (·.onMemory (Cache.popFrom · page limit)) ⟨pool, console, requests, []⟩ := by
  obtain ⟨buddy, caches, memory⟩ := pool
  induction limit generalizing page memory with
  | zero => rfl
  | succ limit ih =>
      by_cases hpage : page = 0
      · subst hpage
        rfl
      simp only [popFrom, if_neg hpage, bind_apply, locked_operate List.not_mem_nil]
      cases hpop : Slab.pop memory page with
      | error fault =>
          simp only [operate, Pool.onMemory, hpop, Cache.popFrom, if_neg hpage, error_bind]
      | ok popped =>
          obtain ⟨object?, memory'⟩ := popped
          cases object? with
          | some object =>
              simp only [operate, Pool.onMemory, hpop, Cache.popFrom, if_neg hpage, ok_bind,
                pure_eq_ok, pure_apply]
          | none =>
              simp only [operate, Pool.onMemory, hpop, Cache.popFrom, if_neg hpage, ok_bind,
                pure_eq_ok, bind_apply, consult, ih]

theorem openSlab_open (i : Fin classSizes.size) (page : Nat) :
    WorksFirst emit (openSlab emit i page) pool (pool.openSlab i page) := by
  rw [openSlab, Pool.openSlab_eq]
  refine worksFirst_look (fun _ _ => rfl) ?_
  -- the size is that of the class before the page is formatted
  dsimp only
  generalize (pool.caches.get i).objectSize = size
  refine worksFirst_bind (fun _ _ => rfl) fun _ formatted hformat => ?_
  refine worksFirst_bind (f := (·.onMemory (Slab.pop · page)))
    (fun _ _ => locked_operate List.not_mem_nil) fun object? popped hpop => ?_
  cases object? with
  | none => exact fun _ _ => rfl
  | some object =>
      refine worksFirst_change (fun _ _ => locked_operate List.not_mem_nil) ?_
      exact (worksFirst_emit _).map fun _ => object

theorem growCache_open (i : Fin classSizes.size) :
    WorksFirst emit (growCache emit i) pool (pool.growCache i) := by
  rw [growCache, Pool.growCache]
  refine worksFirst_bind (fun _ _ => locked_operate List.not_mem_nil) fun answer p htake => ?_
  cases answer with
  | error refusal => exact worksFirst_pure _
  | ok page => exact (openSlab_open i page).map Except.ok

theorem allocateObject_open (size : Nat) :
    WorksFirst emit (allocateObject emit size) pool (pool.allocateObject size) := by
  refine worksFirst_look (fun _ _ => rfl) ?_
  cases hclass : pool.caches.class? size with
  | none =>
      rw [Pool.allocateObject, hclass]
      exact worksFirst_pure _
  | some i =>
      rw [Pool.allocateObject_of_class hclass]
      refine worksFirst_look (fun _ _ => rfl) ?_
      refine worksFirst_bind (popFrom_open _ _) fun object? p hpop => ?_
      cases object? with
      | none => exact growCache_open i
      | some object => exact worksFirst_pure _

theorem allocateBlock_open (size : Nat) :
    WorksFirst emit (allocateBlock size) pool (pool.allocateBlock size) := by
  rw [allocateBlock, Pool.allocateBlock]
  refine worksFirst_bind (fun _ _ => locked_operate List.not_mem_nil) fun answer p htake => ?_
  cases answer with
  | error refusal => exact worksFirst_pure _
  | ok address => exact worksFirst_consult (fun _ _ => rfl) fun _ hcheck => worksFirst_pure _

/-- A request does its work, and the lines come after it. -/
theorem allocateVia_open (size : Nat) :
    WorksFirst emit (allocateVia emit size) pool (pool.allocate size) := by
  cases hround : roundSize size with
  | error refusal =>
      rw [allocateVia, Pool.allocate, hround]
      exact worksFirst_pure _
  | ok rounded =>
      rw [allocateVia, Pool.allocate_of_rounded hround, hround]
      by_cases hlt : rounded < pageSize
      · simp only [if_pos hlt]
        exact (allocateObject_open rounded).concat (Pool.verdict rounded)
      · simp only [if_neg hlt]
        exact (allocateBlock_open rounded).concat (Pool.verdict rounded)

theorem freeVia_open (address : Nat) :
    WorksFirst emit (freeVia emit address) pool
      (pool.free address >>= fun (p, events) => .ok ((), p, events)) := by
  by_cases hzero : address = 0
  · subst hzero
    exact worksFirst_pure ()
  rw [freeVia, if_neg hzero, Pool.free, if_neg hzero, bind_assoc]
  refine worksFirst_consult (fun _ _ => rfl) fun d hread => ?_
  by_cases hslab : d.flags.slab = true
  · rw [if_pos hslab, if_pos hslab]
    refine (worksFirst_line (fun _ _ => locked_operate List.not_mem_nil)
      fun _ => .objectReleased address).congr ?_
    cases pool.freeObject address <;> rfl
  · rw [if_neg hslab, if_neg hslab]
    refine (worksFirst_line (fun _ _ => locked_operate List.not_mem_nil)
      (.blockReleased · address)).congr ?_
    cases pool.freeBlock address <;> rfl

theorem dumpVia_open : WorksFirst emit (dumpVia emit) pool (.ok ((), pool, pool.dump)) := by
  refine worksFirst_look (fun _ _ => locked_consult List.not_mem_nil) fun console requests => ?_
  rw [afterWork, bind_pure_unit]

theorem forM_mute (events : List Event) : events.forM mute = pure () := by
  induction events with
  | nil => rfl
  | cons e rest ih => exact ih

theorem afterWork_mute {answer : α} {events : List Event} :
    afterWork mute console requests (.ok (answer, pool, events)) =
      .ok (answer, ⟨pool, console, requests, []⟩) := by
  rw [afterWork, forM_mute]
  rfl

/-- The requests of a logger that finds the locks open come to what the pool says of them. -/
theorem allocateAndFree_open {sizes : List Nat} (hrun : pool.allocateAndFree sizes = .ok pool') :
    allocateAndFree sizes ⟨pool, console, requests, []⟩ =
      .ok ((), ⟨pool', console, requests, []⟩) := by
  induction sizes generalizing pool with
  | nil =>
      cases hrun
      rfl
  | cons size sizes ih =>
      obtain ⟨⟨answer, pool₁, events⟩, hallocate, hrest⟩ := bind_eq_ok.1 hrun
      have hasked : allocateVia mute size ⟨pool, console, requests, []⟩ =
          .ok (answer, ⟨pool₁, console, requests, []⟩) := by
        rw [allocateVia_open, hallocate, afterWork_mute]
      rw [allocateAndFree, bind_ok hasked]
      cases answer with
      | error refusal => exact ih hrest
      | ok address =>
          obtain ⟨⟨pool₂, freed⟩, hfree, hrest⟩ := bind_eq_ok.1 hrest
          have hgiven : freeVia mute address ⟨pool₁, console, requests, []⟩ =
              .ok ((), ⟨pool₂, console, requests, []⟩) := by
            rw [freeVia_open, hfree, ok_bind, afterWork_mute]
          change (freeVia mute address >>= fun _ => allocateAndFree sizes) _ = _
          rw [bind_ok hgiven]
          exact ih hrest

section Write
variable {e : Event}

theorem write_untold (huntold : ¬(console.keeps e && e.level != .error) = true) :
    write e ⟨pool, console, requests, locks⟩ =
      .ok ((), ⟨pool, console.write e, requests, locks⟩) := by
  simp only [write, huntold]
  rfl

theorem write_told (htold : (console.keeps e && e.level != .error) = true)
    (hasks : pool.allocateAndFree requests = .ok pool') :
    write e ⟨pool, console, requests, []⟩ =
      .ok ((), ⟨pool', console.write e, requests, []⟩) := by
  simp only [write, htold, if_true, allocateAndFree_open hasks]

/-- A line that is written while the page tier is locked hangs a logger that asks for a page. -/
theorem write_deadlock (htold : (console.keeps e && e.level != .error) = true)
    (hheld : Lock.pages ∈ locks) {size rounded : Nat} (hround : roundSize size = .ok rounded)
    (hle : pageSize ≤ rounded) (sizes : List Nat) :
    write e ⟨pool, console, size :: sizes, locks⟩ =
      .error ⟨.deadlock, (console.write e).lines⟩ := by
  have hlocked : allocateVia mute size ⟨pool, console.write e, size :: sizes, locks⟩ =
      .error ((console.write e).crash .deadlock) := by
    simp only [allocateVia, hround, if_neg (Nat.not_lt.2 hle), allocateBlock, bind_apply, locked,
      if_pos hheld, error_bind]
  simp only [write, htold, if_true, allocateAndFree, bind_error hlocked]
  rfl

end Write
end Service
end BuddySlab
