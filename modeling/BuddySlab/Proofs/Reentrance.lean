import BuddySlab.Proofs.Calls
import BuddySlab.Proofs.RoundTrip

/-!
A logger that uses the pool while a call writes its lines comes after the call: replies, lines and
pools are those of a session in which no logger interferes, and each call is followed by the
requests that the logger would have made. For lines are written at rest only, with no lock held and
the pool as it may be between calls. Requests that the page tier alone serves leave no trace.
-/

namespace BuddySlab

namespace Console

/-- Nothing was written yet. -/
def blank (threshold : Option Level) : Console :=
  ⟨threshold, #[]⟩

/-- The logger is told of the lines that are no errors. -/
theorem countP_writeAll (c : Console) (events : List Event) :
    (c.writeAll events).lines.countP (·.level != .error) =
      c.lines.countP (·.level != .error) + c.prompts events := by
  induction events generalizing c with
  | nil => rfl
  | cons e rest ih =>
      change ((c.write e).writeAll rest).lines.countP _ = _
      rw [ih, prompts_write, prompts_cons, write]
      by_cases hkeeps : c.keeps e = true
      · rw [if_pos hkeeps, Array.countP_push, hkeeps, Bool.true_and]
        omega
      · rw [if_neg hkeeps, Bool.eq_false_iff.2 hkeeps, Bool.false_and]
        rfl

end Console

namespace Service
variable {pool pool' : Pool} {console : Console}

/-- An ordinary request, and the release of what it was granted. -/
def pair (size : Nat) : Service Unit := do
  match ← allocate size with
  | .error _ => return ()
  | .ok address => free address

def pairs (sizes : List Nat) : Service Unit :=
  sizes.forM pair

/-- Without a logger pairs of calls do what the logger does. -/
theorem pairs_eq {sizes : List Nat} (hrun : pool.allocateAndFree sizes = .ok pool')
    (console : Console) :
    ∃ console', pairs sizes ⟨pool, console, [], []⟩ = .ok ((), ⟨pool', console', [], []⟩) := by
  induction sizes generalizing pool console with
  | nil =>
      cases hrun
      exact ⟨console, rfl⟩
  | cons size sizes ih =>
      change ∃ console', (pair size >>= fun _ => pairs sizes) _ = _
      obtain ⟨⟨answer, pool₁, events⟩, hallocate, hrest⟩ := bind_eq_ok.1 hrun
      cases answer with
      | error refusal =>
          obtain ⟨console', hpairs⟩ := ih hrest (console.writeAll events)
          refine ⟨console', ?_⟩
          simp only [bind_apply, pair, allocate_of_quiet, hallocate, report, ok_bind, pure_apply,
            hpairs]
      | ok address =>
          obtain ⟨⟨pool₂, freed⟩, hfree, hrest⟩ := bind_eq_ok.1 hrest
          obtain ⟨console', hpairs⟩ := ih hrest ((console.writeAll events).writeAll freed)
          refine ⟨console', ?_⟩
          simp only [bind_apply, pair, allocate_of_quiet, free_of_quiet, hallocate, hfree, report,
            ok_bind, hpairs]

end Service

/-- The largest class is half a page. -/
theorem classSizes_le : ∀ i : Fin classSizes.size, classSizes.get i ≤ 2048 := by
  decide

/-- What serves a call with these locks held: the reply, the lines that the call wrote, the pool
after it and the locks that are held then. -/
abbrev Server := Call → Pool → List Lock → Except Crash (Reply × Array Event × Pool × List Lock)

/-- What clients do in a session: they call, or write to what they hold. -/
inductive Deed
  | call (call : Call)
  | write (address : Nat) (byte : UInt8)
  deriving DecidableEq, Repr

/-- What a deed came to. -/
structure Entry where
  reply : Reply
  lines : Array Event
  after : Ledger
  locks : List Lock

/-- The same reply, lines and locks, and ledgers that agree. -/
structure Entry.Alike (entry entry' : Entry) : Prop where
  reply : entry'.reply = entry.reply
  lines : entry'.lines = entry.lines
  locks : entry'.locks = entry.locks
  held : entry'.after.held = entry.after.held
  agrees : entry.after.Agrees entry'.after.pool

namespace Server

/-- This is done with each line when the call comes to it. -/
def nestedVia (emit : Service.Emitter) (threshold : Option Level) (requests : List Nat) : Server :=
  fun call pool locks => do
    let (reply, station) ← call.runVia emit ⟨pool, .blank threshold, requests, locks⟩
    return (reply, station.console.lines, station.pool, station.locks)

/-- The logger makes its requests with each line when the call comes to it. -/
def nested (threshold : Option Level) (requests : List Nat) : Server :=
  nestedVia Service.write threshold requests

/-- The logger makes no requests. They follow as ordinary calls, as often as there are lines that
are no errors; the lines that they write are not the call's. -/
def flat (threshold : Option Level) (requests : List Nat) : Server := fun call pool locks => do
  let (reply, station) ← call.run ⟨pool, .blank threshold, [], locks⟩
  let told := station.console.lines.countP (·.level != .error)
  let ((), after) ← Service.pairs (List.replicate told requests).flatten station
  return (reply, station.console.lines, after.pool, after.locks)

def attend (serve : Server) (s : Ledger) (locks : List Lock) : Deed → Except Crash Entry
  | .call call => do
      let (reply, lines, pool, locks) ← serve call s.pool locks
      return ⟨reply, lines, ⟨pool, call.settle s.held reply⟩, locks⟩
  | .write address byte =>
      let memory := s.pool.memory.write address byte
      .ok ⟨.done, #[], ⟨{ s.pool with memory }, s.held⟩, locks⟩

def session (serve : Server) (s : Ledger) (locks : List Lock) :
    List Deed → Except Crash (List Entry)
  | [] => .ok []
  | deed :: deeds => do
      let entry ← serve.attend s locks deed
      return entry :: (← serve.session entry.after entry.locks deeds)

end Server

namespace Ledger

/-- What a client may do. -/
def Allows (s : Ledger) : Deed → Prop
  | .call call => s.Admits call
  | .write address _ => ∃ e ∈ s.held, e.Covers address

end Ledger

/-- Each deed is what a client may do when its turn comes. -/
def Server.Valid (serve : Server) (s : Ledger) (locks : List Lock) : List Deed → Prop
  | [] => True
  | deed :: deeds =>
      s.Allows deed ∧ ∀ entry, serve.attend s locks deed = .ok entry →
        serve.Valid entry.after entry.locks deeds

/-- Wherever no lock is held, and the pool is one that may be met between calls, the same is done
with a line as the logger does. What is done elsewhere is left open. -/
def Service.Emitter.LogsAtRest (emit : Service.Emitter) (start stop : Nat) (requests : List Nat) :
    Prop :=
  ∀ e pool console, (∃ held, Ledger.Reached start stop ⟨pool, held⟩) →
    emit e ⟨pool, console, requests, []⟩ = Service.write e ⟨pool, console, requests, []⟩

/-- A session whose logger uses the pool is the one in which the logger's requests follow as calls
of their own, and no lock is held after a deed. Lines are written at rest: what would be done with
one anywhere else does not matter. Where no request is for an object, the session is one without
them. -/
structure Serialised (start stop : Nat) (threshold : Option Level) (requests : List Nat)
    (s : Ledger) (deeds : List Deed) : Prop where
  flat : ∃ entries, (Server.nested threshold requests).session s [] deeds = .ok entries ∧
    (Server.flat threshold requests).session s [] deeds = .ok entries ∧
    ∀ entry ∈ entries, entry.locks = []
  at_rest : ∀ emit : Service.Emitter, emit.LogsAtRest start stop requests →
    (Server.nestedVia emit threshold requests).session s [] deeds =
      (Server.nested threshold requests).session s [] deeds
  traceless : (∀ n ∈ requests, n = 0 ∨ 2048 < n) → ∃ entries entries',
    (Server.nested threshold requests).session s [] deeds = .ok entries ∧
    (Server.nested threshold []).session s [] deeds = .ok entries' ∧
    List.Forall₂ Entry.Alike entries entries'

namespace Ledger.Charts
variable {s : Ledger} {c : Chart} {call : Call} {reply : Reply} {pool pool' : Pool}
  {events : List Event} {requests : List Nat} {threshold : Option Level}

theorem nested_eq (h : s.Charts c) (hwork : call.work s.pool = .ok (reply, pool, events))
    (hasks : pool.allocateAndFree
      ((Console.blank threshold).asks events requests) = .ok pool') :
    Server.nested threshold requests call s.pool [] =
      .ok (reply, ((Console.blank threshold).writeAll events).lines, pool', []) := by
  have hrun : call.runVia Service.write ⟨s.pool, .blank threshold, requests, []⟩ =
      .ok (reply, ⟨pool', (Console.blank threshold).writeAll events, requests, []⟩) :=
    h.run_of_work hwork hasks
  rw [Server.nested, Server.nestedVia, hrun]
  rfl

theorem flat_eq (h : s.Charts c) (hwork : call.work s.pool = .ok (reply, pool, events))
    (hasks : pool.allocateAndFree
      ((Console.blank threshold).asks events requests) = .ok pool') :
    Server.flat threshold requests call s.pool [] =
      .ok (reply, ((Console.blank threshold).writeAll events).lines, pool', []) := by
  have hquiet : pool.allocateAndFree ((Console.blank threshold).asks events []) = .ok pool := by
    rw [Console.asks_nil]
    rfl
  have htold : ((Console.blank threshold).writeAll events).lines.countP (·.level != .error) =
      (Console.blank threshold).prompts events := by
    rw [Console.countP_writeAll, Console.blank, Array.countP_empty, Nat.zero_add]
  obtain ⟨console', hpairs⟩ :=
    Service.pairs_eq hasks ((Console.blank threshold).writeAll events)
  rw [Console.asks] at hpairs
  simp only [Server.flat, h.run_of_work hwork hquiet, ok_bind, htold, hpairs, pure_eq_ok]

end Ledger.Charts

namespace Ledger.Reached
variable {start stop : Nat} {s : Ledger} {call : Call} {requests : List Nat}
  {threshold : Option Level} {emit : Service.Emitter}

/-- The work of a call leads to a pool that may be met between calls. -/
theorem work (h : Reached start stop s) (hadmits : s.Admits call) :
    ∃ reply pool events, call.work s.pool = .ok (reply, pool, events) ∧
      Reached start stop ⟨pool, call.settle s.held reply⟩ := by
  obtain ⟨c, hcharts, -⟩ := h.charts
  cases (Pool.Twins.refl hcharts).work hadmits with
  | mk reply pool q events c' hwork =>
      have hrun : call.run ⟨s.pool, .blank none, [], []⟩ =
          .ok (reply, ⟨pool, (Console.blank none).writeAll events, [], []⟩) := by
        rw [Call.run_of_quiet, hwork]
        rfl
      exact ⟨reply, pool, events, hwork, ((inService_iff_reached.2 h).call hadmits hrun).reached⟩

/-- The logger gives back what it asks for, so the pool may be met between calls again. -/
theorem allocateAndFree (h : Reached start stop s) (sizes : List Nat) :
    ∃ pool, s.pool.allocateAndFree sizes = .ok pool ∧ Reached start stop ⟨pool, s.held⟩ := by
  obtain ⟨c, hcharts, -⟩ := h.charts
  obtain ⟨pool, hasks, hspares⟩ := hcharts.allocateAndFree_spares sizes
  obtain ⟨acts, hruns⟩ := hspares.runs
  exact ⟨pool, hasks, h.runs hruns⟩

theorem attend_flat (h : Reached start stop s) {deed : Deed} (hallows : s.Allows deed) :
    ∃ entry, (Server.nested threshold requests).attend s [] deed = .ok entry ∧
      (Server.flat threshold requests).attend s [] deed = .ok entry ∧ entry.locks = [] ∧
      Reached start stop entry.after := by
  cases deed with
  | call call =>
      obtain ⟨c, hcharts, -⟩ := h.charts
      obtain ⟨reply, p, events, hwork, hworked⟩ := h.work hallows
      obtain ⟨pool, hasks, hasked⟩ :=
        hworked.allocateAndFree ((Console.blank threshold).asks events requests)
      refine ⟨⟨reply, ((Console.blank threshold).writeAll events).lines,
        ⟨pool, call.settle s.held reply⟩, []⟩, ?_, ?_, rfl, hasked⟩
      · simp only [Server.attend, hcharts.nested_eq hwork hasks, ok_bind, pure_eq_ok]
      · simp only [Server.attend, hcharts.flat_eq hwork hasks, ok_bind, pure_eq_ok]
  | write address byte =>
      obtain ⟨e, he, hcovers⟩ := hallows
      exact ⟨_, rfl, rfl, rfl, h.runs (.cons (.write he hcovers) (.nil _))⟩

theorem session_flat (h : Reached start stop s) {deeds : List Deed}
    (hvalid : (Server.nested threshold requests).Valid s [] deeds) :
    ∃ entries, (Server.nested threshold requests).session s [] deeds = .ok entries ∧
      (Server.flat threshold requests).session s [] deeds = .ok entries ∧
      ∀ entry ∈ entries, entry.locks = [] := by
  induction deeds generalizing s with
  | nil => exact ⟨[], rfl, rfl, fun _ hmem => absurd hmem List.not_mem_nil⟩
  | cons deed deeds ih =>
      obtain ⟨hallows, hrest⟩ := hvalid
      obtain ⟨entry, hnested, hflat, hlocks, hreached⟩ := h.attend_flat hallows
      have hvalid' := hrest entry hnested
      rw [hlocks] at hvalid'
      obtain ⟨entries, hnested', hflat', hall⟩ := ih hreached hvalid'
      refine ⟨entry :: entries, ?_, ?_, List.forall_mem_cons.2 ⟨hlocks, hall⟩⟩
      · simp only [Server.session, hnested, hlocks, hnested', ok_bind, pure_eq_ok]
      · simp only [Server.session, hflat, hlocks, hflat', ok_bind, pure_eq_ok]

section AtRest
variable (hemit : emit.LogsAtRest start stop requests)
include hemit

/-- The lines that follow the work of a call are written at rest. -/
theorem forM_eq_write {pool : Pool} {held : List Extent} {console : Console}
    (h : Reached start stop ⟨pool, held⟩) (events : List Event) :
    events.forM emit ⟨pool, console, requests, []⟩ =
      events.forM Service.write ⟨pool, console, requests, []⟩ := by
  induction events generalizing pool console with
  | nil => rfl
  | cons e rest ih =>
      change (emit e >>= fun _ => rest.forM emit) _ =
        (Service.write e >>= fun _ => rest.forM Service.write) _
      rw [Service.bind_congr_left (hemit e pool console ⟨held, h⟩)]
      by_cases htold : (console.keeps e && e.level != .error) = true
      · obtain ⟨pool', hasks, hasked⟩ := h.allocateAndFree requests
        rw [Service.bind_ok (Service.write_told htold hasks),
          Service.bind_ok (Service.write_told htold hasks)]
        exact ih hasked
      · rw [Service.bind_ok (Service.write_untold htold),
          Service.bind_ok (Service.write_untold htold)]
        exact ih h

theorem afterWork_eq_write {α : Type} {answer : α} {pool : Pool} {held : List Extent}
    {console : Console} (h : Reached start stop ⟨pool, held⟩) (events : List Event) :
    Service.afterWork emit console requests (.ok (answer, pool, events)) =
      Service.afterWork Service.write console requests (.ok (answer, pool, events)) :=
  Service.bind_congr_left (h.forM_eq_write hemit events)

theorem runVia_eq_run (h : Reached start stop s) (hadmits : s.Admits call) {console : Console} :
    call.runVia emit ⟨s.pool, console, requests, []⟩ =
      call.run ⟨s.pool, console, requests, []⟩ := by
  by_cases hzeroed : ∃ size, call = .allocateZeroed size
  · -- only the lines of the request are written; clearing comes after them and writes none
    obtain ⟨size, rfl⟩ := hzeroed
    have hplain : s.Admits (.allocate size) := trivial
    obtain ⟨reply, pool, events, hwork, hworked⟩ := h.work hplain
    obtain ⟨⟨answer, p, news⟩, hrun, heq⟩ := bind_eq_ok.1 hwork
    cases heq
    have hallocate : Service.allocateVia emit size ⟨s.pool, console, requests, []⟩ =
        Service.allocateVia Service.write size ⟨s.pool, console, requests, []⟩ := by
      rw [Service.allocateVia_open, Service.allocateVia_open, hrun]
      exact hworked.afterWork_eq_write hemit events
    exact Service.bind_congr_left (Service.bind_congr_left hallocate)
  · obtain ⟨reply, pool, events, hwork, hworked⟩ := h.work hadmits
    rw [Call.run, Call.runVia_open (not_exists.1 hzeroed), Call.runVia_open (not_exists.1 hzeroed),
      hwork]
    exact hworked.afterWork_eq_write hemit events

theorem attend_at_rest (h : Reached start stop s) {deed : Deed} (hallows : s.Allows deed) :
    (Server.nestedVia emit threshold requests).attend s [] deed =
      (Server.nested threshold requests).attend s [] deed := by
  cases deed with
  | call call =>
      have hrun : call.runVia emit ⟨s.pool, .blank threshold, requests, []⟩ =
          call.runVia Service.write ⟨s.pool, .blank threshold, requests, []⟩ :=
        h.runVia_eq_run hemit hallows
      simp only [Server.attend, Server.nested, Server.nestedVia, hrun]
  | write address byte => rw [Server.attend, Server.attend]

theorem session_at_rest (h : Reached start stop s) {deeds : List Deed}
    (hvalid : (Server.nested threshold requests).Valid s [] deeds) :
    (Server.nestedVia emit threshold requests).session s [] deeds =
      (Server.nested threshold requests).session s [] deeds := by
  induction deeds generalizing s with
  | nil => rw [Server.session, Server.session]
  | cons deed deeds ih =>
      obtain ⟨hallows, hrest⟩ := hvalid
      obtain ⟨entry, hnested, -, hlocks, hreached⟩ := h.attend_flat hallows
      have hvalid' := hrest entry hnested
      rw [hlocks] at hvalid'
      simp only [Server.session, h.attend_at_rest hemit hallows, hnested, hlocks, ok_bind,
        ih hreached hvalid']

end AtRest
end Ledger.Reached

namespace Ledger.Charts
variable {s : Ledger} {c : Chart} {requests : List Nat}

/-- What the page tier grants is merged back when it is released. -/
theorem pair_returned (h : s.Charts c) {n : Nat} (hn : n = 0 ∨ 2048 < n) :
    (∃ refusal events, s.pool.allocate n = .ok (.error refusal, s.pool, events)) ∨
    ∃ address p events p' freed, s.pool.allocate n = .ok (.ok address, p, events) ∧
      p.free address = .ok (p', freed) ∧ Charts ⟨p', s.held⟩ c ∧ p'.arena = s.pool.arena ∧
      p'.memory = s.pool.memory := by
  cases hround : roundSize n with
  | error refusal => exact .inl ⟨refusal, [], by rw [Pool.allocate, hround]⟩
  | ok rounded =>
      obtain ⟨hle, g, rfl⟩ := exists_grade hround
      cases g with
      | object i =>
          have hsmall : n ≤ 2048 := Nat.le_trans hle (classSizes_le i)
          cases hn with
          | inl hzero =>
              subst hzero
              cases hround
          | inr hlarge => exact absurd hlarge (Nat.not_lt.2 hsmall)
      | block k =>
          cases h.depicts.allocate hround with
          | refused hnone hrun => exact .inl ⟨_, _, hrun⟩
          | granted x c' p hsome hrun hbecomes =>
              cases Chart.grants_of_eq_some hsome with
              | block htake =>
                  obtain ⟨p', freed, hfree, hback, harena, hmemory⟩ :=
                    h.block_returned hround htake hrun hbecomes
                  exact .inr ⟨_, p, _, p', freed, hrun, hfree, hback, harena, hmemory⟩

theorem allocateAndFree_pages (h : s.Charts c) (hrequests : ∀ n ∈ requests, n = 0 ∨ 2048 < n) :
    ∃ pool, s.pool.allocateAndFree requests = .ok pool ∧ Charts ⟨pool, s.held⟩ c ∧
      pool.arena = s.pool.arena ∧ pool.memory = s.pool.memory := by
  induction requests generalizing s with
  | nil => exact ⟨s.pool, rfl, h, rfl, rfl⟩
  | cons n rest ih =>
      have hrest : ∀ m ∈ rest, m = 0 ∨ 2048 < m :=
        fun m hm => hrequests m (List.mem_cons_of_mem n hm)
      cases h.pair_returned (hrequests n List.mem_cons_self) with
      | inl hrefused =>
          obtain ⟨refusal, events, hrun⟩ := hrefused
          obtain ⟨pool, hpool, hsame⟩ := ih h hrest
          refine ⟨pool, ?_, hsame⟩
          simp only [Pool.allocateAndFree, hrun, ok_bind, hpool]
      | inr hgranted =>
          obtain ⟨address, p, events, p', freed, hrun, hfree, hback, harena, hmemory⟩ := hgranted
          obtain ⟨pool, hpool, hcharts, harena', hmemory'⟩ := ih hback hrest
          refine ⟨pool, ?_, hcharts, harena'.trans harena, hmemory'.trans hmemory⟩
          simp only [Pool.allocateAndFree, hrun, ok_bind, hfree, hpool]

end Ledger.Charts

namespace Pool

/-- Twins with the same memory. -/
structure Mirrors (p q : Pool) (held : List Extent) (c : Chart) : Prop extends
    Twins p q held c where
  memory : p.memory = q.memory

namespace Mirrors
variable {p q : Pool} {held : List Extent} {c : Chart} {requests : List Nat}
  {threshold : Option Level}

theorem alike (h : Mirrors p q held c) (reply : Reply) (lines : Array Event) :
    Entry.Alike ⟨reply, lines, ⟨p, held⟩, []⟩ ⟨reply, lines, ⟨q, held⟩, []⟩ :=
  ⟨rfl, rfl, rfl, rfl, h.left.agrees h.right h.arena h.memory.symm⟩

/-- Requests that the page tier serves leave a mirror image. -/
theorem attend (h : Mirrors p q held c) (hrequests : ∀ n ∈ requests, n = 0 ∨ 2048 < n)
    {deed : Deed} (hallows : Ledger.Allows ⟨p, held⟩ deed) :
    ∃ p' q' held' c' reply lines,
      (Server.nested threshold requests).attend ⟨p, held⟩ [] deed =
        .ok ⟨reply, lines, ⟨p', held'⟩, []⟩ ∧
      (Server.nested threshold []).attend ⟨q, held⟩ [] deed =
        .ok ⟨reply, lines, ⟨q', held'⟩, []⟩ ∧
      Mirrors p' q' held' c' := by
  cases deed with
  | call call =>
      cases h.work hallows with
      | mk reply p₁ q₁ events c' hwork hwork' htwins hstep =>
          have hasked : ∀ n ∈ (Console.blank threshold).asks events requests,
              n = 0 ∨ 2048 < n := fun n hn => hrequests n (Console.mem_of_mem_asks hn)
          obtain ⟨p₂, hasks, hcharts, harena, hmemory⟩ :=
            htwins.left.allocateAndFree_pages hasked
          have hquiet : q₁.allocateAndFree
              ((Console.blank threshold).asks events []) = .ok q₁ := by
            rw [Console.asks_nil]
            rfl
          refine ⟨p₂, q₁, call.settle held reply, c', reply,
            ((Console.blank threshold).writeAll events).lines, ?_, ?_,
            ⟨hcharts, htwins.right, htwins.arena.trans harena.symm⟩,
            hmemory.trans (hstep.memory h.memory)⟩
          · simp only [Server.attend, h.left.nested_eq hwork hasks, ok_bind, pure_eq_ok]
          · simp only [Server.attend, h.right.nested_eq hwork' hquiet, ok_bind, pure_eq_ok]
  | write address byte =>
      obtain ⟨e, he, hcovers⟩ := hallows
      refine ⟨_, _, held, c, .done, #[], rfl, rfl, ?_, ?_⟩
      · exact h.rewrite (Memory.changedIn_write he hcovers byte)
          (Memory.changedIn_write he hcovers byte)
      · exact congrArg (Memory.write · address byte) h.memory

theorem session (h : Mirrors p q held c) (hrequests : ∀ n ∈ requests, n = 0 ∨ 2048 < n)
    {deeds : List Deed} (hvalid : (Server.nested threshold requests).Valid ⟨p, held⟩ [] deeds) :
    ∃ entries entries',
      (Server.nested threshold requests).session ⟨p, held⟩ [] deeds = .ok entries ∧
      (Server.nested threshold []).session ⟨q, held⟩ [] deeds = .ok entries' ∧
      List.Forall₂ Entry.Alike entries entries' := by
  induction deeds generalizing p q held c with
  | nil => exact ⟨[], [], rfl, rfl, .nil⟩
  | cons deed deeds ih =>
      obtain ⟨hallows, hrest⟩ := hvalid
      obtain ⟨p', q', held', c', reply, lines, hfirst, hfirst', hmirrors⟩ :=
        h.attend hrequests hallows
      obtain ⟨entries, entries', hnext, hnext', halike⟩ := ih hmirrors (hrest _ hfirst)
      refine ⟨_ :: entries, _ :: entries', ?_, ?_, .cons (hmirrors.alike reply lines) halike⟩
      · simp only [Server.session, hfirst, ok_bind, hnext, pure_eq_ok]
      · simp only [Server.session, hfirst', ok_bind, hnext', pure_eq_ok]

end Mirrors
end Pool

namespace Ledger

/-- A logger that uses the pool comes after the call that logs. It never finds a lock held or a pool
that is half changed, and leaves no trace where the page tier serves it. -/
theorem Reached.serialised {start stop : Nat} {s : Ledger} (h : Reached start stop s)
    {threshold : Option Level} {requests : List Nat} {deeds : List Deed}
    (hvalid : (Server.nested threshold requests).Valid s [] deeds) :
    Serialised start stop threshold requests s deeds := by
  obtain ⟨c, hcharts, -⟩ := h.charts
  refine ⟨h.session_flat hvalid, fun emit hemit => h.session_at_rest hemit hvalid, ?_⟩
  intro hrequests
  have hmirrors : Pool.Mirrors s.pool s.pool s.held c := ⟨.refl hcharts, rfl⟩
  exact hmirrors.session hrequests hvalid

/-- A client writes to an object, releases a block, asks for zeros and for a dump. -/
theorem serialised_of_four_pages : ∃ s, Reached 4096 24576 s ∧
    ∀ requests ∈ [[4096, 64], [0, 4096]], Serialised 4096 24576 (some .trace) requests s
      [.write 8448 7, .call (.free 16384), .call (.allocateZeroed 1000), .call .dump] := by
  obtain ⟨s, hreached, hheld⟩ := exists_reached
  refine ⟨s, hreached, fun requests _ => hreached.serialised ?_⟩
  have hobject : ⟨8448, 128⟩ ∈ s.held := by simp [hheld]
  have hblock : ⟨16384, 8192⟩ ∈ s.held := by simp [hheld]
  refine ⟨⟨_, hobject, by decide⟩, fun written heq => ?_⟩
  cases heq
  exact ⟨.inr ⟨_, hblock, rfl⟩, fun _ _ => ⟨trivial, fun _ _ => ⟨trivial, fun _ _ => trivial⟩⟩⟩

end Ledger
end BuddySlab
