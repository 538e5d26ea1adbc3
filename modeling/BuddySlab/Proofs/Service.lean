import BuddySlab.Proofs.Contents
import BuddySlab.Proofs.Ownership

/-!
A pool in service. Clients make calls, and while a call writes its lines the logger may ask for
blocks and give them back. Whatever the console keeps and whatever its logger asks for, a call that
a client may make is answered, and all that is held, apart from what the call gives back, stays held
with its bytes. So no run of calls and writes ever comes to a fault.
-/

namespace BuddySlab

theorem bind_total {ε α β : Type} {x : Except ε α} {f : α → Except ε β} (hx : ∃ a, x = .ok a)
    (hf : ∀ a, ∃ b, f a = .ok b) : ∃ b, (x >>= f) = .ok b := by
  obtain ⟨a, rfl⟩ := hx
  exact hf a

theorem mapM_total {ε α β : Type} {f : α → Except ε β} {l : List α}
    (h : ∀ a ∈ l, ∃ b, f a = .ok b) : ∃ bs, l.mapM f = .ok bs := by
  induction l with
  | nil => exact ⟨[], rfl⟩
  | cons a rest ih =>
      rw [List.mapM_cons]
      have hrest := ih fun b hb => h b (List.mem_cons_of_mem a hb)
      exact bind_total (h a List.mem_cons_self) fun b => bind_total hrest fun bs => ⟨b :: bs, rfl⟩

namespace Console
variable {c : Console}

theorem keeps_write (c : Console) (e e' : Event) : (c.write e).keeps e' = c.keeps e' := by
  rw [write]
  split <;> rfl

/-- How many of these events the logger is told of: those that are kept, errors apart. -/
def prompts (c : Console) (events : List Event) : Nat :=
  events.countP fun e => c.keeps e && e.level != .error

theorem prompts_cons (c : Console) (e : Event) (events : List Event) :
    c.prompts (e :: events) =
      c.prompts events + if c.keeps e && e.level != .error then 1 else 0 :=
  List.countP_cons

theorem prompts_write (c : Console) (e : Event) (events : List Event) :
    (c.write e).prompts events = c.prompts events := by
  simp only [prompts, keeps_write]

/-- All that the logger asks for while these events are written. -/
def asks (c : Console) (events : List Event) (requests : List Nat) : List Nat :=
  (List.replicate (c.prompts events) requests).flatten

theorem asks_nil (c : Console) (events : List Event) : c.asks events [] = [] := by
  simp [asks]

theorem mem_of_mem_asks {events : List Event} {requests : List Nat} {n : Nat}
    (h : n ∈ c.asks events requests) : n ∈ requests := by
  obtain ⟨l, hl, hn⟩ := List.mem_flatten.1 h
  rwa [List.eq_of_mem_replicate hl] at hn

theorem asks_write (c : Console) (e : Event) (events : List Event) (requests : List Nat) :
    (c.write e).asks events requests = c.asks events requests := by
  rw [asks, asks, prompts_write]

theorem asks_cons (c : Console) (e : Event) (events : List Event) (requests : List Nat) :
    c.asks (e :: events) requests =
      if c.keeps e && e.level != .error then requests ++ c.asks events requests
      else c.asks events requests := by
  rw [asks, asks, prompts_cons]
  split
  · rw [List.replicate_succ, List.flatten_cons]
  · rfl

end Console

theorem Pool.allocateAndFree_append (p : Pool) (sizes more : List Nat) :
    p.allocateAndFree (sizes ++ more) =
      (p.allocateAndFree sizes >>= fun p => p.allocateAndFree more) := by
  induction sizes generalizing p with
  | nil => rfl
  | cons size sizes ih =>
      rw [List.cons_append, allocateAndFree, allocateAndFree]
      cases p.allocate size with
      | error fault => rfl
      | ok outcome =>
          obtain ⟨answer, p₁, events⟩ := outcome
          cases answer with
          | error refusal => exact ih p₁
          | ok address =>
              simp only [ok_bind]
              cases p₁.free address with
              | error fault => rfl
              | ok freed => exact ih freed.1

namespace Service
variable {pool pool' pool'' : Pool} {console : Console} {requests : List Nat}

/-- With each line it is told of the logger gets what it asks for and gives it back. -/
theorem forM_write_eq {events : List Event}
    (hasks : pool.allocateAndFree (console.asks events requests) = .ok pool') :
    events.forM write ⟨pool, console, requests, []⟩ =
      .ok ((), ⟨pool', console.writeAll events, requests, []⟩) := by
  induction events generalizing pool console with
  | nil =>
      cases hasks
      rfl
  | cons e rest ih =>
      change (write e >>= fun _ => rest.forM write) _ = _
      rw [Console.asks_cons] at hasks
      by_cases htold : (console.keeps e && e.level != .error) = true
      · rw [if_pos htold, Pool.allocateAndFree_append] at hasks
        obtain ⟨pool₁, hfirst, hrest⟩ := bind_eq_ok.1 hasks
        rw [bind_ok (write_told htold hfirst)]
        apply ih
        rwa [Console.asks_write]
      · rw [if_neg htold] at hasks
        rw [bind_ok (write_untold htold)]
        apply ih
        rwa [Console.asks_write]

/-- The lines come after the work, and the logger's requests with them. -/
theorem afterWork_write_eq {α : Type} {answer : α} {events : List Event}
    (hasks : pool.allocateAndFree (console.asks events requests) = .ok pool') :
    afterWork write console requests (.ok (answer, pool, events)) =
      .ok (answer, ⟨pool', console.writeAll events, requests, []⟩) :=
  bind_ok (forM_write_eq hasks)

theorem allocate_eq {size : Nat} {answer : Except Refusal Nat} {events : List Event}
    (hrun : pool.allocate size = .ok (answer, pool', events))
    (hasks : pool'.allocateAndFree (console.asks events requests) = .ok pool'') :
    allocate size ⟨pool, console, requests, []⟩ =
      .ok (answer, ⟨pool'', console.writeAll events, requests, []⟩) := by
  rw [allocate, allocateVia_open, hrun, afterWork_write_eq hasks]

theorem free_eq {address : Nat} {events : List Event}
    (hrun : pool.free address = .ok (pool', events))
    (hasks : pool'.allocateAndFree (console.asks events requests) = .ok pool'') :
    free address ⟨pool, console, requests, []⟩ =
      .ok ((), ⟨pool'', console.writeAll events, requests, []⟩) := by
  rw [free, freeVia_open, hrun, ok_bind, afterWork_write_eq hasks]

theorem dump_eq (hasks : pool.allocateAndFree (console.asks pool.dump requests) = .ok pool') :
    dump ⟨pool, console, requests, []⟩ =
      .ok ((), ⟨pool', console.writeAll pool.dump, requests, []⟩) := by
  rw [dump, dumpVia_open, afterWork_write_eq hasks]

end Service

inductive Call
  | allocate (size : Nat)
  | allocateZeroed (size : Nat)
  | free (address : Nat)
  | usableSize (address : Nat)
  | freeCounts
  | freeBytes
  | freeBlocks (order limit : Nat)
  | dump
  deriving DecidableEq, Repr

inductive Reply
  | answer (result : Except Refusal Nat)
  | done
  | number (n : Nat)
  | counts (counts : Vector Nat orderCount)
  | blocks (addresses : List Nat)

namespace Call

/-- Makes the call, with this done with its lines. -/
def runVia (emit : Service.Emitter) : Call → Service Reply
  | allocate size => do return .answer (← Service.allocateVia emit size)
  | allocateZeroed size => do return .answer (← Service.allocateZeroedVia emit size)
  | free address => do
      Service.freeVia emit address
      return .done
  | usableSize address => do return .number (← Service.consult (·.usableSize address))
  | freeCounts => do return .counts (← Service.freeCounts)
  | freeBytes => do return .number (← Service.locked .pages (Service.consult (·.buddy.freeBytes)))
  | freeBlocks order limit => do
      return .blocks (← Service.locked .pages (Service.consult (·.buddy.freeBlocks order limit)))
  | dump => do
      Service.dumpVia emit
      return .done

def run : Call → Service Reply :=
  runVia Service.write

/-- What a call does to a pool that nothing else uses. -/
def work : Call → Pool → Except Fault (Reply × Pool × List Event)
  | allocate size, p => do
      let (answer, p, events) ← p.allocate size
      return (.answer answer, p, events)
  | allocateZeroed size, p => do
      let (answer, p, events) ← p.allocateZeroed size
      return (.answer answer, p, events)
  | free address, p => do
      let (p, events) ← p.free address
      return (.done, p, events)
  | usableSize address, p => do return (.number (← p.usableSize address), p, [])
  | freeCounts, p => .ok (.counts p.buddy.freeCounts, p, [])
  | freeBytes, p => do return (.number (← p.buddy.freeBytes), p, [])
  | freeBlocks order limit, p => do return (.blocks (← p.buddy.freeBlocks order limit), p, [])
  | dump, p => .ok (.done, p, p.dump)

theorem run_allocateZeroed (size : Nat) :
    run (.allocateZeroed size) = (do return .answer (← Service.allocateZeroed size)) := rfl

section Open
variable {call : Call} {pool pool' pool'' : Pool} {console : Console} {requests : List Nat}

/-- A call that finds the locks open does its work and then writes its lines, whatever becomes of
them; only zeros are written later. -/
theorem runVia_open (hzeroed : ∀ size, call ≠ .allocateZeroed size) (emit : Service.Emitter) :
    Service.WorksFirst emit (call.runVia emit) pool (call.work pool) := by
  cases call with
  | allocate size => exact (Service.allocateVia_open size).map Reply.answer
  | allocateZeroed size => exact absurd rfl (hzeroed size)
  | free address =>
      refine ((Service.freeVia_open address).map fun _ => Reply.done).congr ?_
      rw [work]
      cases pool.free address <;> rfl
  | usableSize address =>
      exact Service.worksFirst_consult (fun _ _ => rfl) fun _ _ => Service.worksFirst_pure _
  | freeCounts =>
      refine Service.worksFirst_look (fun _ _ => Service.locked_consult List.not_mem_nil) ?_
      exact Service.worksFirst_pure _
  | freeBytes =>
      refine Service.worksFirst_consult
        (fun _ _ => Service.locked_consult List.not_mem_nil) fun _ _ => ?_
      exact Service.worksFirst_pure _
  | freeBlocks order limit =>
      refine Service.worksFirst_consult
        (fun _ _ => Service.locked_consult List.not_mem_nil) fun _ _ => ?_
      exact Service.worksFirst_pure _
  | dump => exact Service.dumpVia_open.map fun _ => Reply.done

theorem run_eq {reply : Reply} {events : List Event}
    (hzeroed : ∀ size, call ≠ .allocateZeroed size)
    (hwork : call.work pool = .ok (reply, pool', events))
    (hasks : pool'.allocateAndFree (console.asks events requests) = .ok pool'') :
    call.run ⟨pool, console, requests, []⟩ =
      .ok (reply, ⟨pool'', console.writeAll events, requests, []⟩) := by
  rw [run, runVia_open hzeroed, hwork, Service.afterWork_write_eq hasks]

/-- Without a logger a call is its work, and then its lines. -/
theorem run_of_quiet (call : Call) (pool : Pool) (console : Console) :
    call.run ⟨pool, console, [], []⟩ = Service.report console (call.work pool) := by
  by_cases hzeroed : ∃ size, call = .allocateZeroed size
  · obtain ⟨size, rfl⟩ := hzeroed
    rw [run_allocateZeroed, Service.bind_apply, Service.allocateZeroed_of_quiet, work]
    cases pool.allocateZeroed size <;> rfl
  · rw [run, runVia_open (not_exists.1 hzeroed), Service.afterWork_of_quiet]

end Open

/-- What stays held. -/
def kept (held : List Extent) : Call → List Extent
  | free address => held.filter (·.address ≠ address)
  | _ => held

/-- What is held after the reply. -/
def settle (held : List Extent) : Call → Reply → List Extent
  | allocate size, .answer result => Ledger.credit held size result
  | allocateZeroed size, .answer result => Ledger.credit held size result
  | call, _ => call.kept held

end Call

namespace Ledger

/-- What a client may call: only what is held is given back or measured. -/
def Admits (s : Ledger) : Call → Prop
  | .free address => address = 0 ∨ ∃ e ∈ s.held, e.address = address
  | .usableSize address => ∃ e ∈ s.held, e.address = address
  | _ => True

/-- The ledger is met in the service of a fresh pool of this range. From call to call the console
and what its logger asks for may change. -/
inductive InService (start stop : Nat) : Ledger → Prop
  | init {m : Memory} {pool : Pool} (hinit : Pool.init m start stop = .ok (.ok pool)) :
      InService start stop ⟨pool, []⟩
  | write {s : Ledger} {e : Extent} {address : Nat} {byte : UInt8} (h : InService start stop s)
      (hheld : e ∈ s.held) (hcovers : e.Covers address) :
      InService start stop ⟨{ s.pool with memory := s.pool.memory.write address byte }, s.held⟩
  | call {s : Ledger} {call : Call} {reply : Reply} {pool : Pool} {console console' : Console}
      {requests requests' : List Nat} {locks : List Lock} (h : InService start stop s)
      (hadmits : s.Admits call)
      (hrun : call.run ⟨s.pool, console, requests, []⟩ =
        .ok (reply, ⟨pool, console', requests', locks⟩)) :
      InService start stop ⟨pool, call.settle s.held reply⟩

/-- What an act comes to: a call at a station whose logger asks for nothing, or a client's write. -/
inductive Enacted (s : Ledger) : Ledger → Prop
  | call {call : Call} {reply : Reply} {pool : Pool} {events : List Event} (hadmits : s.Admits call)
      (hrun : ∀ console, call.run ⟨s.pool, console, [], []⟩ =
        Service.report console (.ok (reply, pool, events))) :
      Enacted s ⟨pool, call.settle s.held reply⟩
  | write {e : Extent} {address : Nat} {byte : UInt8} (hheld : e ∈ s.held)
      (hcovers : e.Covers address) :
      Enacted s ⟨{ s.pool with memory := s.pool.memory.write address byte }, s.held⟩

/-- A request at a station is refused, or an extent of its rounded size is held in addition; the
logger leaves nothing behind. -/
inductive Attends (s : Ledger) (size : Nat) (requests : List Nat)
    (run : Except Crash (Except Refusal Nat × Station)) : Prop
  | refused (refusal : Refusal) (pool : Pool) (console : Console)
      (hrun : run = .ok (.error refusal, ⟨pool, console, requests, []⟩))
      (hspares : Spares s.held s ⟨pool, s.held⟩)
  | granted (e : Extent) (pool : Pool) (console : Console)
      (hrun : run = .ok (.ok e.address, ⟨pool, console, requests, []⟩))
      (hround : roundSize size = .ok e.size) (hle : size ≤ e.size)
      (hspares : Spares s.held s ⟨pool, e :: s.held⟩)

/-- The pool and what is held after a call; bytes that were to be cleared are zero. -/
structure Replied (s : Ledger) (call : Call) (reply : Reply) (pool : Pool) : Prop where
  spares : Spares (call.kept s.held) s ⟨pool, call.settle s.held reply⟩
  cleared : ∀ size address, call = .allocateZeroed size → reply = .answer (.ok address) →
    ∃ e ∈ call.settle s.held reply, e.address = address ∧ size ≤ e.size ∧
      ∀ x, address ≤ x → x < address + size → pool.memory.read x = 0

/-- The call at a station with this console and these requests of the logger ends with a reply. -/
def Answered (s : Ledger) (call : Call) (console : Console) (requests : List Nat) : Prop :=
  ∃ reply pool console', call.run ⟨s.pool, console, requests, []⟩ =
    .ok (reply, ⟨pool, console', requests, []⟩) ∧ s.Replied call reply pool

/-- What the calls do to the bytes of the range, and what a block of the page tier does. -/
structure BytesKept (s : Ledger) : Prop where
  calls : ∀ call, s.Admits call → ∀ console requests, ∃ reply pool console',
    call.run ⟨s.pool, console, requests, []⟩ = .ok (reply, ⟨pool, console', requests, []⟩) ∧
    (∀ e ∈ s.held, call ≠ .free e.address → ∀ x, e.Covers x →
      pool.image.read x = s.pool.image.read x) ∧
    ∀ size address, call = .allocateZeroed size → reply = .answer (.ok address) →
      ∀ x, address ≤ x → x < address + size → pool.image.read x = 0
  block_allocated : ∀ size rounded, roundSize size = .ok rounded → pageSize ≤ rounded →
    ∃ answer pool events, s.pool.allocate size = .ok (answer, pool, events) ∧
      ∀ x, s.pool.arena.payloadStart ≤ x → pool.image.read x = s.pool.image.read x
  block_freed : ∀ e ∈ s.held, pageSize ≤ e.size →
    ∃ pool events, s.pool.free e.address = .ok (pool, events) ∧
      ∀ x, s.pool.arena.payloadStart ≤ x → pool.image.read x = s.pool.image.read x

/-- Nothing that a client may do comes to a fault. The numbers that are added up without a check
stay words, and the links of the table name the pages that they were made from. -/
structure FaultFree (s : Ledger) : Prop where
  calls : ∀ call, s.Admits call → ∀ console requests, ∃ reply station,
    call.run ⟨s.pool, console, requests, []⟩ = .ok (reply, station) ∧ station.locks = []
  opening : ∃ events, s.pool.openingEvents = .ok events
  counts : s.pool.buddy.freeCounts.toList.sum < 2 ^ 64
  links : ∀ j < s.pool.arena.pages, (Link.ofIndex j).target? = some j

namespace Charts
variable {s : Ledger} {c : Chart} {e : Extent} {console : Console} {requests : List Nat}

theorem allocate_total (h : s.Charts c) (size : Nat) :
    ∃ answer pool events, s.pool.allocate size = .ok (answer, pool, events) := by
  cases h.request size with
  | refused refusal events hrun => exact ⟨_, _, _, hrun⟩
  | granted e pool c' events hrun => exact ⟨_, _, _, hrun⟩

/-- The logger gets what it asks for and gives it back, one size after the other. -/
theorem allocateAndFree_spares (h : s.Charts c) (requests : List Nat) :
    ∃ pool, s.pool.allocateAndFree requests = .ok pool ∧ Spares s.held s ⟨pool, s.held⟩ := by
  induction requests generalizing s c with
  | nil => exact ⟨s.pool, rfl, .refl s⟩
  | cons size sizes ih =>
      cases h.request size with
      | refused refusal events hrun =>
          obtain ⟨pool, hrest, hspares⟩ := ih h
          exact ⟨pool, by simp only [Pool.allocateAndFree, hrun, ok_bind, hrest], hspares⟩
      | granted e pool c' events hrun hround hle harena hslabs hcharts =>
          have hallocate := h.allocate_spares hrun
          rw [credit_ok s.held hround] at hallocate
          obtain ⟨pool₁, c₁, events₁, hfree, -, -, hcharts₁⟩ := hcharts.release List.mem_cons_self
          have hrelease := hcharts.free_spares List.mem_cons_self hfree
          rw [List.erase_cons_head] at hrelease hcharts₁
          obtain ⟨pool₂, hrest, hspares⟩ := ih hcharts₁
          refine ⟨pool₂, ?_, hallocate.trans (hrelease.trans hspares)⟩
          simp only [Pool.allocateAndFree, hrun, ok_bind, hfree, hrest]

theorem allocate_attends (h : s.Charts c) (size : Nat) (console : Console)
    (requests : List Nat) :
    s.Attends size requests (Service.allocate size ⟨s.pool, console, requests, []⟩) := by
  cases h.request size with
  | refused refusal events hrun =>
      obtain ⟨pool, hasks, hspares⟩ := h.allocateAndFree_spares (console.asks events requests)
      exact .refused refusal pool _ (Service.allocate_eq hrun hasks) hspares
  | granted e pool c' events hrun hround hle harena hslabs hcharts =>
      have hallocate := h.allocate_spares hrun
      rw [credit_ok s.held hround] at hallocate
      obtain ⟨pool', hasks, hspares⟩ :=
        hcharts.allocateAndFree_spares (console.asks events requests)
      exact .granted e pool' _ (Service.allocate_eq hrun hasks) hround hle
        (hallocate.trans (hspares.mono (List.subset_cons_self e s.held)))

theorem allocateZeroed_answered (h : s.Charts c) (size : Nat) :
    s.Answered (.allocateZeroed size) console requests := by
  cases h.allocate_attends size console requests with
  | refused refusal pool console' hrun hspares =>
      refine ⟨.answer (.error refusal), pool, console', ?_, hspares, fun _ _ _ heq => ?_⟩
      · exact Service.bind_ok (Service.bind_ok hrun)
      · cases heq
  | granted e pool console' hrun hround hle hspares =>
      obtain ⟨c', hcharts, -⟩ := hspares.charts h
      -- the bytes are cleared after the logger is done, and it has left the extent held
      have hheld := List.mem_cons_self (a := e) (l := s.held)
      have hfill := hcharts.fill_spares hheld hle 0
      rw [List.erase_cons_head] at hfill
      have hsettle : (Call.allocateZeroed size).settle s.held (.answer (.ok e.address)) =
          e :: s.held := credit_ok s.held hround e.address
      refine ⟨.answer (.ok e.address), pool.fill e.address size 0, console', ?_, ?_, ?_⟩
      · exact Service.bind_ok (Service.bind_ok hrun)
      · rw [hsettle]
        exact hspares.trans hfill
      · rw [hsettle]
        intro size' address hcall hreply
        obtain rfl := Call.allocateZeroed.inj hcall
        obtain rfl := Except.ok.inj (Reply.answer.inj hreply)
        refine ⟨e, hheld, rfl, hle, fun x hlow hhigh => ?_⟩
        rw [Pool.fill, Memory.read_fill, if_pos ⟨hlow, hhigh⟩]

theorem kept_zero (h : s.Charts c) : (Call.free 0).kept s.held = s.held :=
  List.filter_eq_self.2 fun _ he => decide_eq_true (Nat.ne_of_gt (h.address_pos he))

theorem kept_free (h : s.Charts c) (he : e ∈ s.held) :
    (Call.free e.address).kept s.held = s.held.erase e :=
  (h.erase_eq_filter he).symm

theorem free_answered (h : s.Charts c) {address : Nat} (hadmits : s.Admits (.free address)) :
    s.Answered (.free address) console requests := by
  suffices hfree : ∃ pool c' events, s.pool.free address = .ok (pool, events) ∧
      Charts ⟨pool, (Call.free address).kept s.held⟩ c' ∧
      Spares ((Call.free address).kept s.held) s ⟨pool, (Call.free address).kept s.held⟩ by
    -- the lines are written after the release: what was given back is the logger's to take, and
    -- only the rest is spared
    obtain ⟨pool, c', events, hrun, hcharts, hspares⟩ := hfree
    obtain ⟨pool', hasks, hspares'⟩ := hcharts.allocateAndFree_spares (console.asks events requests)
    refine ⟨.done, pool', console.writeAll events, ?_, hspares.trans hspares', fun _ _ heq => ?_⟩
    · exact Service.bind_ok (Service.free_eq hrun hasks)
    · cases heq
  cases hadmits with
  | inl hzero =>
      subst hzero
      rw [h.kept_zero]
      exact ⟨s.pool, c, [], Pool.Depicts.free_zero s.pool, h, .refl s⟩
  | inr hheld =>
      obtain ⟨e, he, rfl⟩ := hheld
      obtain ⟨pool, c', events, hrun, -, -, hcharts⟩ := h.release he
      have hspares := h.free_spares he hrun
      rw [h.kept_free he]
      exact ⟨pool, c', events, hrun, hcharts, hspares⟩

/-- A call that only looks at the pool. -/
theorem looked_answered {call : Call} {reply : Reply}
    (hwork : call.work s.pool = .ok (reply, s.pool, []))
    (hkept : call.kept s.held = s.held) (hsettle : call.settle s.held reply = s.held)
    (hzeroed : ∀ n, call ≠ .allocateZeroed n) :
    s.Answered call console requests := by
  refine ⟨reply, s.pool, console, ?_, ?_, fun n _ heq => absurd heq (hzeroed n)⟩
  · exact Call.run_eq hzeroed hwork rfl
  · rw [hkept, hsettle]
    exact .refl s

theorem call_answered (h : s.Charts c) {call : Call} (hadmits : s.Admits call) :
    s.Answered call console requests := by
  cases call with
  | allocate size =>
      cases h.allocate_attends size console requests with
      | refused refusal pool console' hrun hspares =>
          refine ⟨.answer (.error refusal), pool, console', ?_, hspares, fun _ _ heq => by cases heq⟩
          exact Service.bind_ok hrun
      | granted e pool console' hrun hround hle hspares =>
          refine ⟨.answer (.ok e.address), pool, console', ?_, ?_, fun _ _ heq => by cases heq⟩
          · exact Service.bind_ok hrun
          · rwa [Call.settle, credit_ok s.held hround]
  | allocateZeroed size => exact h.allocateZeroed_answered size
  | free address => exact h.free_answered hadmits
  | usableSize address =>
      obtain ⟨e, he, rfl⟩ := hadmits
      have hwork : Call.work (.usableSize e.address) s.pool = .ok (.number e.size, s.pool, []) := by
        rw [Call.work, h.usableSize_eq he]
        rfl
      exact looked_answered hwork rfl rfl fun _ heq => by cases heq
  | freeCounts => exact looked_answered rfl rfl rfl fun _ heq => by cases heq
  | freeBytes =>
      obtain ⟨bytes, hbytes, -⟩ := h.conserved
      have hwork : Call.work .freeBytes s.pool = .ok (.number bytes, s.pool, []) := by
        rw [Call.work, hbytes]
        rfl
      exact looked_answered hwork rfl rfl fun _ heq => by cases heq
  | freeBlocks order limit =>
      obtain ⟨blocks, hblocks⟩ : ∃ blocks, s.pool.buddy.freeBlocks order limit = .ok blocks :=
        ⟨_, h.depicts.keeps.freeBlocks_take⟩
      have hwork : Call.work (.freeBlocks order limit) s.pool = .ok (.blocks blocks, s.pool, []) := by
        rw [Call.work, hblocks]
        rfl
      exact looked_answered hwork rfl rfl fun _ heq => by cases heq
  | dump =>
      obtain ⟨pool, hasks, hspares⟩ :=
        h.allocateAndFree_spares (console.asks s.pool.dump requests)
      refine ⟨.done, pool, console.writeAll s.pool.dump, ?_, hspares, fun _ _ heq => by cases heq⟩
      exact Service.bind_ok (Service.dump_eq hasks)

theorem listOrder_total (h : s.Charts c) (count order : Nat) :
    ∃ events, s.pool.listOrder count order = .ok events := by
  by_cases hcount : count = 0
  · exact ⟨[], if_pos hcount⟩
  have hblocks : s.pool.buddy.freeBlocks order s.pool.arena.pages =
      .ok ((c.free order).map s.pool.arena.pageAddress) :=
    h.depicts.keeps.freeBlocks_eq (Nat.le_refl _)
  rw [Pool.listOrder, if_neg hcount, hblocks, ok_bind]
  refine bind_total (mapM_total fun start hstart => ?_) fun lines => ⟨_, rfl⟩
  obtain ⟨i, hi, rfl⟩ := List.mem_map.1 hstart
  -- a block is shown with its end, which may be the end of the payload
  have hstop : s.pool.arena.pageAddress i + blockSize order ≤ s.pool.arena.stop :=
    (h.placed (List.mem_append_left _ (h.depicts.keeps.mem_blocks hi))).le_stop
  rw [Word.add_of_lt (Nat.lt_of_le_of_lt hstop h.depicts.sound.stop_lt)]
  exact ⟨_, rfl⟩

theorem openingEvents_total (h : s.Charts c) : ∃ events, s.pool.openingEvents = .ok events :=
  bind_total (mapM_total fun _ _ => h.listOrder_total _ _) fun _ => ⟨_, rfl⟩

/-- There are no more free blocks than the payload has bytes. -/
theorem sum_freeCounts_lt (h : s.Charts c) : s.pool.buddy.freeCounts.toList.sum < 2 ^ 64 := by
  have hcounts : s.pool.buddy.freeCounts.toList.sum = c.free.blocks.length := by
    rw [h.depicts.keeps.threads.freeCounts_eq, Listing.blocks, List.length_flatMap]
    simp only [List.length_map]
  have hbytes := h.sum_blockSize
  have hblocks := List.length_le_sum_of_one_le
    ((c.free.blocks ++ c.used).map fun b => blockSize b.order)
    (List.forall_mem_map.2 fun b _ => Nat.succ_le_of_lt (blockSize_pos b.order))
  rw [List.length_map, List.length_append] at hblocks
  have hstop : s.pool.arena.stop = s.pool.arena.payloadStart + s.pool.arena.pages * pageSize :=
    h.depicts.sound.stop_eq
  have hword := h.depicts.sound.stop_lt
  rw [Nat.mul_comm] at hbytes
  omega

/-- Where the payload's memory is the same, so are the bytes of the range. -/
theorem image_eq {s' : Ledger} {c' : Chart} {x : Nat} (h : s.Charts c) (h' : s'.Charts c')
    (harena : s'.pool.arena = s.pool.arena) (hx : s.pool.arena.payloadStart ≤ x)
    (hread : s'.pool.memory.read x = s.pool.memory.read x) :
    s'.pool.image.read x = s.pool.image.read x := by
  rw [h.depicts.read_image hx, h'.depicts.read_image (harena ▸ hx), hread]

theorem payload_le (h : s.Charts c) (he : e ∈ s.held) {x : Nat} (hx : e.Covers x) :
    s.pool.arena.payloadStart ≤ x :=
  Nat.le_trans (h.isolated.placed e he).2.2.1 hx.1

/-- The bytes after a call: what is held and not given back is as before, and what was to be cleared
is zero. -/
theorem bytes_replied (h : s.Charts c) {call : Call} {reply : Reply} {pool : Pool}
    (hreplied : s.Replied call reply pool) :
    (∀ e ∈ s.held, call ≠ .free e.address → ∀ x, e.Covers x →
      pool.image.read x = s.pool.image.read x) ∧
    ∀ size address, call = .allocateZeroed size → reply = .answer (.ok address) →
      ∀ x, address ≤ x → x < address + size → pool.image.read x = 0 := by
  obtain ⟨c', hcharts, harena⟩ := hreplied.spares.charts h
  constructor
  · intro e he hcall x hx
    have hkept : e ∈ call.kept s.held := by
      cases call with
      | free address =>
          refine List.mem_filter.2 ⟨he, decide_eq_true fun haddress => hcall ?_⟩
          rw [haddress]
      | _ => exact he
    exact h.image_eq hcharts harena (h.payload_le he hx) (hreplied.spares.bytes e hkept x hx)
  · intro size address hcall hreply x hlow hhigh
    obtain ⟨e, he, rfl, hle, hzero⟩ := hreplied.cleared size address hcall hreply
    have hcovers : e.Covers x := ⟨hlow, Nat.lt_of_lt_of_le hhigh (Nat.add_le_add_left hle _)⟩
    have hread : pool.image.read x = pool.memory.read x :=
      hcharts.depicts.read_image (hcharts.payload_le he hcovers)
    rw [hread, hzero x hlow hhigh]

theorem enacted {s' : Ledger} (h : s.Charts c) {act : Act} (hstep : Step s act s') :
    s.Enacted s' := by
  cases hstep with
  | @allocate pool pool' held size answer events hrun =>
      have hcall (console : Console) : (Call.allocate size).run ⟨pool, console, [], []⟩ =
          Service.report console (.ok (.answer answer, pool', events)) := by
        rw [Call.run_of_quiet, Call.work, hrun]
        rfl
      have hadmits : Admits ⟨pool, held⟩ (.allocate size) := trivial
      exact .call hadmits hcall
  | @allocateZeroed pool pool' held size answer events hrun =>
      have hcall (console : Console) : (Call.allocateZeroed size).run ⟨pool, console, [], []⟩ =
          Service.report console (.ok (.answer answer, pool', events)) := by
        rw [Call.run_of_quiet, Call.work, hrun]
        rfl
      have hadmits : Admits ⟨pool, held⟩ (.allocateZeroed size) := trivial
      exact .call hadmits hcall
  | @freeNull pool pool' held events hrun =>
      have hcall (console : Console) : (Call.free 0).run ⟨pool, console, [], []⟩ =
          Service.report console (.ok (.done, pool', events)) := by
        rw [Call.run_of_quiet, Call.work, hrun]
        rfl
      have hadmits : Admits ⟨pool, held⟩ (.free 0) := .inl rfl
      have henacted : Enacted ⟨pool, held⟩ ⟨pool', (Call.free 0).kept held⟩ := .call hadmits hcall
      rwa [h.kept_zero] at henacted
  | @free pool pool' held e events hheld hrun =>
      have hcall (console : Console) : (Call.free e.address).run ⟨pool, console, [], []⟩ =
          Service.report console (.ok (.done, pool', events)) := by
        rw [Call.run_of_quiet, Call.work, hrun]
        rfl
      have hadmits : Admits ⟨pool, held⟩ (.free e.address) := .inr ⟨e, hheld, rfl⟩
      have henacted : Enacted ⟨pool, held⟩ ⟨pool', (Call.free e.address).kept held⟩ :=
        .call hadmits hcall
      rwa [h.kept_free hheld] at henacted
  | write hheld hcovers => exact .write hheld hcovers

end Charts

namespace InService
variable {start stop : Nat} {s s' : Ledger}

/-- Calls lead nowhere but where the acts they consist of lead. -/
theorem reached (h : InService start stop s) : Reached start stop s := by
  induction h with
  | init hinit => exact .init hinit
  | write h hheld hcovers ih => exact ih.runs (.cons (.write hheld hcovers) (.nil _))
  | @call s call reply pool console console' requests requests' locks h hadmits hrun ih =>
      obtain ⟨c, hcharts, -⟩ := ih.charts
      obtain ⟨reply', pool', console'', hrun', hreplied⟩ := hcharts.call_answered hadmits
      cases hrun.symm.trans hrun'
      obtain ⟨acts, hruns⟩ := hreplied.spares.runs
      exact ih.runs hruns

theorem charts (h : InService start stop s) : ∃ c, s.Charts c := by
  obtain ⟨c, hcharts, -⟩ := h.reached.charts
  exact ⟨c, hcharts⟩

theorem step (h : InService start stop s) {act : Act} (hstep : Step s act s') :
    InService start stop s' := by
  obtain ⟨c, hcharts⟩ := h.charts
  cases hcharts.enacted hstep with
  | call hadmits hrun => exact h.call hadmits (hrun ⟨none, #[]⟩)
  | write hheld hcovers => exact h.write hheld hcovers

theorem runs (h : InService start stop s) {acts : List Act} (hruns : Runs s acts s') :
    InService start stop s' := by
  induction hruns with
  | nil => exact h
  | cons hstep _ ih => exact ih (h.step hstep)

end InService

/-- Calls in service and acts on the pool alone lead to the same ledgers. -/
theorem inService_iff_reached {start stop : Nat} {s : Ledger} :
    InService start stop s ↔ Reached start stop s := by
  constructor
  · exact InService.reached
  · intro h
    obtain ⟨m, pool, acts, hinit, hruns⟩ := h
    exact (InService.init hinit).runs hruns

/-- The allocator never touches what it does not own. A call leaves all bytes of what is held and
not given back, bytes asked for as zero are zero, and a block comes from the page tier and goes back
to it without a byte of the payload being written. -/
theorem InService.held_bytes_kept {start stop : Nat} {s : Ledger} (h : InService start stop s) :
    s.BytesKept := by
  obtain ⟨c, hcharts⟩ := h.charts
  refine ⟨fun call hadmits console requests => ?_, fun size rounded hround hle => ?_,
    fun e he hle => ?_⟩
  · obtain ⟨reply, pool, console', hrun, hreplied⟩ := hcharts.call_answered hadmits
    exact ⟨reply, pool, console', hrun, hcharts.bytes_replied hreplied⟩
  · obtain ⟨answer, pool, events, hrun⟩ := hcharts.allocate_total size
    obtain ⟨c', hcharts', harena⟩ := (hcharts.allocate_spares hrun).charts hcharts
    have hmemory := Pool.memory_of_allocate hround hle hrun
    refine ⟨answer, pool, events, hrun, fun x hx => ?_⟩
    exact hcharts.image_eq hcharts' harena hx (congrArg (·.read x) hmemory)
  · obtain ⟨pool, c', events, hrun, harena, -, hcharts'⟩ := hcharts.release he
    have hmemory := hcharts.memory_of_free he hle hrun
    refine ⟨pool, events, hrun, fun x hx => ?_⟩
    exact hcharts.image_eq hcharts' harena hx (congrArg (·.read x) hmemory)

theorem held_bytes_kept_of_four_pages : ∃ s, s.held = [⟨8448, 128⟩, ⟨16384, 8192⟩] ∧
    InService 4096 24576 s ∧ s.BytesKept := by
  obtain ⟨s, hreached, hheld⟩ := exists_reached
  have hservice := inService_iff_reached.2 hreached
  exact ⟨s, hheld, hservice, hservice.held_bytes_kept⟩

/-- No fault is reachable: whatever the console and its logger, a call that a client may make ends
with a reply, and so does listing the free blocks. -/
theorem InService.calls_answered {start stop : Nat} {s : Ledger} (h : InService start stop s) :
    s.FaultFree := by
  obtain ⟨c, hcharts⟩ := h.charts
  refine ⟨fun call hadmits console requests => ?_, hcharts.openingEvents_total,
    hcharts.sum_freeCounts_lt, fun j hj => ?_⟩
  · obtain ⟨reply, pool, console', hrun, -⟩ := hcharts.call_answered hadmits
    exact ⟨reply, _, hrun, rfl⟩
  · exact Link.target?_ofIndex (Nat.lt_trans hj hcharts.depicts.sound.pages_lt)

/-- The payload may end with the last page but one of the address space. -/
theorem calls_answered_at_top : ∃ s,
    s.held = [⟨0xffffffffffffe080, 128⟩, ⟨0xffffffffffffc000, 8192⟩] ∧
    InService 0xffffffffffffa000 0xffffffffffffffff s ∧ s.FaultFree := by
  have hreplay : (replay? .blank 0xffffffffffffa000 0xffffffffffffffff
      [.allocate 5000, .allocateZeroed 100]).any
        (·.held = [⟨0xffffffffffffe080, 128⟩, ⟨0xffffffffffffc000, 8192⟩]) = true := by
    decide +kernel
  obtain ⟨s, hreached, hheld⟩ := exists_reached_of_replay? hreplay
  have hservice := inService_iff_reached.2 hreached
  exact ⟨s, of_decide_eq_true hheld, hservice, hservice.calls_answered⟩

end Ledger
end BuddySlab
