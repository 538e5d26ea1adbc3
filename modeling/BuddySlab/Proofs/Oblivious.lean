import BuddySlab.Proofs.FreeLists
import BuddySlab.Proofs.Service
import BuddySlab.Proofs.Stacks
import BuddySlab.Proofs.Twins

/-!
What memory holds does not matter. Take one range with any two contents, and two runs of the same
requests in which clients write what they like to what they hold: the replies are the same, and so
are the records, the lists, the slabs with their stacks and what is held, at every step.
-/

namespace BuddySlab

/-- What is released is named by the number of the request that it was granted to. -/
inductive Request
  | allocate (size : Nat)
  | allocateZeroed (size : Nat)
  | freeNull
  | free (number : Nat)
  deriving DecidableEq, Repr

/-- A pool with what clients hold of it, each under the number of its request. -/
structure Register where
  pool : Pool
  /-- How many requests for memory there were. -/
  asked : Nat
  held : List (Nat × Extent)

namespace Register

def extents (r : Register) : List Extent :=
  r.held.map Prod.snd

def ledger (r : Register) : Ledger :=
  ⟨r.pool, r.extents⟩

/-- A pool of which nothing is held. -/
def opened (pool : Pool) : Register :=
  ⟨pool, 0, []⟩

/-- After the answer to a request for memory. -/
def answered (r : Register) (size : Nat) (answer : Except Refusal Nat) (pool : Pool) : Register :=
  ⟨pool, r.asked + 1, (Ledger.credit [] size answer).map (Prod.mk r.asked) ++ r.held⟩

inductive Serves (r : Register) : Request → Reply → Register → Prop
  | allocate {size : Nat} {answer : Except Refusal Nat} {pool : Pool} {events : List Event}
      (hrun : r.pool.allocate size = .ok (answer, pool, events)) :
      Serves r (.allocate size) (.answer answer) (r.answered size answer pool)
  | allocateZeroed {size : Nat} {answer : Except Refusal Nat} {pool : Pool} {events : List Event}
      (hrun : r.pool.allocateZeroed size = .ok (answer, pool, events)) :
      Serves r (.allocateZeroed size) (.answer answer) (r.answered size answer pool)
  | freeNull {pool : Pool} {events : List Event} (hrun : r.pool.free 0 = .ok (pool, events)) :
      Serves r .freeNull .done { r with pool }
  | free {number : Nat} {e : Extent} {pool : Pool} {events : List Event}
      (hheld : r.held.lookup number = some e) (hrun : r.pool.free e.address = .ok (pool, events)) :
      Serves r (.free number) .done ⟨pool, r.asked, r.held.erase (number, e)⟩

/-- A client may release what it holds, and ask for anything. -/
def Admits (r : Register) : Request → Prop
  | .free number => ∃ e, r.held.lookup number = some e
  | _ => True

/-- Clients wrote to what they hold, whatever they liked. -/
inductive Writes (r : Register) : Register → Prop
  | mk {m : Memory} (hm : r.pool.memory.ChangedIn r.extents m) :
      Writes r { r with pool := { r.pool with memory := m } }

/-- A run of requests, with each reply and the register after it. Clients write before each request
and after the last. -/
inductive Runs : Register → List Request → List (Reply × Register) → Register → Prop
  | nil {r s : Register} (hwrites : r.Writes s) : Runs r [] [] s
  | cons {r s t u : Register} {request : Request} {reply : Reply} {requests : List Request}
      {trace : List (Reply × Register)} (hwrites : r.Writes s) (hserves : s.Serves request reply t)
      (hruns : Runs t requests trace u) : Runs r (request :: requests) ((reply, t) :: trace) u

/-- The same is held of both, and they are the same but for what memory holds: the records of the
pages and their bytes, the free lists in their order, and the slabs with their stacks in their
order. -/
structure Alike (r r' : Register) : Prop where
  asked : r'.asked = r.asked
  held : r'.held = r.held
  table : r'.pool.buddy.table = r.pool.buddy.table
  records : ∀ x, (⟨r.pool.arena.tableStart, r.pool.arena.tableSize⟩ : Extent).Covers x →
    r'.pool.image.read x = r.pool.image.read x
  free : ∃ l, r.pool.buddy.Spells l ∧ r'.pool.buddy.Spells l
  caches : r'.pool.caches = r.pool.caches
  stacked : ∃ piles, r.ledger.Stacks piles ∧ r'.ledger.Stacks piles
  usable : ∀ e ∈ r.extents, r.pool.usableSize e.address = .ok e.size ∧
    r'.pool.usableSize e.address = .ok e.size

/-- The same reply, and registers that are alike after it. -/
def SameStep (x x' : Reply × Register) : Prop :=
  x.1 = x'.1 ∧ x.2.Alike x'.2

/-- Runs of the same requests from these two registers have the same replies and lead to registers
that are alike, and whatever may be asked for next goes through at both. -/
def Oblivious (r r' : Register) : Prop :=
  ∀ requests trace trace' s s', Runs r requests trace s → Runs r' requests trace' s' →
    List.Forall₂ SameStep trace trace' ∧ s.Alike s' ∧
    ∀ request, s.Admits request → ∃ reply t t', s.Serves request reply t ∧
      s'.Serves request reply t'

variable {r r' s s' t t' : Register} {request : Request} {reply reply' : Reply}

theorem extents_answered {e : Extent} {size : Nat} (hround : roundSize size = .ok e.size)
    (r : Register) (pool : Pool) :
    (r.answered size (.ok e.address) pool).extents = e :: r.extents := by
  rw [answered, Ledger.credit_ok [] hround]
  rfl

theorem mem_extents {number : Nat} {e : Extent} (h : r.held.lookup number = some e) :
    e ∈ r.extents := by
  obtain ⟨before, after, hsplit, -⟩ := List.lookup_eq_some_iff.1 h
  exact List.mem_map_of_mem (hsplit ▸ List.mem_append_right before List.mem_cons_self)

/-- What is held after a release, with its number or without. -/
theorem extents_erase {number : Nat} {e : Extent} (h : r.held.lookup number = some e) :
    ((r.held.erase (number, e)).map Prod.snd).Perm (r.extents.erase e) := by
  obtain ⟨before, after, hsplit, -⟩ := List.lookup_eq_some_iff.1 h
  have hmem : (number, e) ∈ r.held :=
    hsplit ▸ List.mem_append_right before List.mem_cons_self
  have herase := ((List.perm_cons_erase hmem).map Prod.snd).erase e
  rw [List.map_cons, List.erase_cons_head] at herase
  exact herase.symm

/-- A request has one reply. -/
theorem Serves.unique (h : r.Serves request reply s) (h' : r.Serves request reply' s') :
    reply = reply' ∧ s = s' := by
  cases h with
  | allocate hrun =>
      cases h' with
      | allocate hrun' =>
          cases hrun.symm.trans hrun'
          exact ⟨rfl, rfl⟩
  | allocateZeroed hrun =>
      cases h' with
      | allocateZeroed hrun' =>
          cases hrun.symm.trans hrun'
          exact ⟨rfl, rfl⟩
  | freeNull hrun =>
      cases h' with
      | freeNull hrun' =>
          cases hrun.symm.trans hrun'
          exact ⟨rfl, rfl⟩
  | free hheld hrun =>
      cases h' with
      | free hheld' hrun' =>
          cases hheld.symm.trans hheld'
          cases hrun.symm.trans hrun'
          exact ⟨rfl, rfl⟩

theorem Serves.admits (h : r.Serves request reply s) : r.Admits request := by
  cases h with
  | free hheld _ => exact ⟨_, hheld⟩
  | _ => trivial

/-- Two registers with the same held extents and equal page tiers, that depict one chart. -/
structure Paired (r r' : Register) : Prop where
  asked : r'.asked = r.asked
  held : r'.held = r.held
  buddy : r.pool.buddy = r'.pool.buddy
  twins : ∃ c, Pool.Twins r.pool r'.pool r.extents c

namespace Paired

theorem alike (h : Paired r r') : r.Alike r' := by
  obtain ⟨c, htwins⟩ := h.twins
  have hspells := htwins.left.depicts.keeps.threads.spells htwins.left.depicts.sound
  have hextents : r'.extents = r.extents := congrArg (List.map Prod.snd) h.held
  have hright : Ledger.Charts r'.ledger c := by
    rw [ledger, hextents]
    exact htwins.right
  have hstacked := hright.stacked
  have harena : r'.ledger.pool.arena = r.pool.arena := htwins.arena
  rw [harena] at hstacked
  refine ⟨h.asked, h.held, congrArg Buddy.table h.buddy.symm, fun x hx => ?_,
    ⟨_, hspells, h.buddy ▸ hspells⟩, htwins.caches.symm, ⟨_, htwins.left.stacked, hstacked⟩,
    fun e he => ⟨?_, ?_⟩⟩
  · rw [Pool.image, Pool.image, ← h.buddy]
    exact r.pool.buddy.table.read_writeImage_inside _ _ hx
  · exact htwins.left.usableSize_eq he
  · exact htwins.right.usableSize_eq he

/-- What clients write makes no difference. -/
theorem writes (h : Paired r r') (hwrites : r.Writes s) (hwrites' : r'.Writes s') :
    Paired s s' := by
  obtain ⟨c, htwins⟩ := h.twins
  cases hwrites with
  | mk hm =>
      cases hwrites' with
      | mk hm' =>
          rw [extents, h.held] at hm'
          exact ⟨h.asked, h.held, h.buddy, c, htwins.rewrite hm hm'⟩

/-- The same answer to both is held of both. -/
theorem answered {size : Nat} {e : Extent} {p p' : Pool} {c : Chart} (h : Paired r r')
    (hround : roundSize size = .ok e.size) (htwins : Pool.Twins p p' (e :: r.extents) c)
    (hstep : Pool.InStep r.pool r'.pool p p') :
    Paired (r.answered size (.ok e.address) p) (r'.answered size (.ok e.address) p') := by
  refine ⟨congrArg Nat.succ h.asked, ?_, hstep.buddy h.buddy, c, ?_⟩
  · rw [Register.answered, Register.answered, h.asked, h.held]
  · rwa [extents_answered hround]

theorem refused (h : Paired r r') (size : Nat) (refusal : Refusal) :
    Paired (r.answered size (.error refusal) r.pool) (r'.answered size (.error refusal) r'.pool) :=
  ⟨congrArg Nat.succ h.asked, h.held, h.buddy, h.twins⟩

/-- Whatever may be asked for goes through at both, with the same reply. -/
theorem serves (h : Paired r r') (hadmits : r.Admits request) :
    ∃ reply s s', r.Serves request reply s ∧ r'.Serves request reply s' ∧ Paired s s' := by
  obtain ⟨c, htwins⟩ := h.twins
  cases request with
  | allocate size =>
      cases htwins.request size with
      | refused refusal events hrun hrun' =>
          exact ⟨_, _, _, .allocate hrun, .allocate hrun', h.refused size refusal⟩
      | granted e p p' c' events hrun hrun' hround hle htwins' hstep =>
          exact ⟨_, _, _, .allocate hrun, .allocate hrun', h.answered hround htwins' hstep⟩
  | allocateZeroed size =>
      cases htwins.requestZeroed size with
      | refused refusal events hrun hrun' =>
          exact ⟨_, _, _, .allocateZeroed hrun, .allocateZeroed hrun', h.refused size refusal⟩
      | granted e p p' c' events hrun hrun' hround hle htwins' hstep =>
          exact ⟨_, _, _, .allocateZeroed hrun, .allocateZeroed hrun',
            h.answered hround htwins' hstep⟩
  | freeNull =>
      exact ⟨_, _, _, .freeNull (Pool.Depicts.free_zero _), .freeNull (Pool.Depicts.free_zero _), h⟩
  | free number =>
      obtain ⟨e, hheld⟩ := hadmits
      obtain ⟨p, p', events, c', hrun, hrun', htwins', hstep⟩ :=
        htwins.release (mem_extents hheld)
      refine ⟨_, _, _, .free hheld hrun, .free (h.held ▸ hheld) hrun', h.asked, ?_,
        hstep.buddy h.buddy, c', htwins'.of_perm (extents_erase hheld)⟩
      rw [h.held]

/-- Two runs of the same requests. -/
theorem runs {requests : List Request} {trace trace' : List (Reply × Register)} (h : Paired r r')
    (hruns : Runs r requests trace s) (hruns' : Runs r' requests trace' s') :
    List.Forall₂ SameStep trace trace' ∧ Paired s s' := by
  induction hruns generalizing r' trace' with
  | nil hwrites =>
      cases hruns' with
      | nil hwrites' => exact ⟨.nil, h.writes hwrites hwrites'⟩
  | cons hwrites hserves _ ih =>
      cases hruns' with
      | cons hwrites' hserves' hruns' =>
          obtain ⟨reply, t, t', hsame, hsame', hpaired⟩ :=
            (h.writes hwrites hwrites').serves hserves.admits
          obtain ⟨rfl, rfl⟩ := hsame.unique hserves
          obtain ⟨rfl, rfl⟩ := hsame'.unique hserves'
          obtain ⟨htrace, hlast⟩ := ih hpaired hruns'
          exact ⟨.cons ⟨rfl, hpaired.alike⟩ htrace, hlast⟩

theorem oblivious (h : Paired r r') : Oblivious r r' := by
  intro requests trace trace' s s' hruns hruns'
  obtain ⟨htrace, hlast⟩ := h.runs hruns hruns'
  refine ⟨htrace, hlast.alike, fun request hadmits => ?_⟩
  obtain ⟨reply, t, t', hserves, hserves', -⟩ := hlast.serves hadmits
  exact ⟨reply, t, t', hserves, hserves'⟩

end Paired

/-- A range that can be prepared can be prepared whatever it holds, and then what memory held and
what clients write to what they hold makes no difference. -/
theorem oblivious_of_init {start stop : Nat} {m : Memory} {pool : Pool}
    (h : Pool.init m start stop = .ok (.ok pool)) (m' : Memory) :
    ∃ pool', Pool.init m' start stop = .ok (.ok pool') ∧ (opened pool).Alike (opened pool') ∧
      Oblivious (opened pool) (opened pool') := by
  obtain ⟨pool', hinit, hbuddy, htwins⟩ := Pool.twins_of_init h m'
  have hpaired : Paired (opened pool) (opened pool') := ⟨rfl, rfl, hbuddy, _, htwins⟩
  exact ⟨pool', hinit, hpaired.alike, hpaired.oblivious⟩

/-- Four pages of zeros and four pages of dirt. -/
theorem oblivious_of_four_pages : ∃ pool pool', Pool.init .blank 4096 24576 = .ok (.ok pool) ∧
    Pool.init (Memory.blank.fill 4096 20480 0xa5) 4096 24576 = .ok (.ok pool') ∧
    Oblivious (opened pool) (opened pool') := by
  obtain ⟨s, hreached, -⟩ := Ledger.exists_reached
  obtain ⟨c, -, hlaid⟩ := hreached.charts
  obtain ⟨pool, hinit, -, -⟩ := Pool.init_eq .blank hlaid
  obtain ⟨pool', hinit', -, hoblivious⟩ :=
    oblivious_of_init hinit (Memory.blank.fill 4096 20480 0xa5)
  exact ⟨pool, pool', hinit, hinit', hoblivious⟩

end Register
end BuddySlab
