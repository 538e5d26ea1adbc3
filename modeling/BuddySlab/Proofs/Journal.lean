import BuddySlab.Proofs.Lines
import BuddySlab.Proofs.Peaks
import BuddySlab.Proofs.Reentrance

/-!
The printed lines as a journal. A console at level trace keeps every line of a run, and from what is
printed follow what clients hold, each block with its size, and the slabs of each class. Blocks come
and go with the lines of the pool, slabs come with the lines of the object tier; a call that is
refused writes no line that counts.
-/

namespace BuddySlab

/-- What the printed lines of a run say. -/
structure Journal where
  /-- What is held, the latest first. -/
  entries : List Extent
  /-- The slabs of each object size, newest first. -/
  slabs : Nat → List Nat

namespace Journal

def empty : Journal :=
  ⟨[], fun _ => []⟩

/-- An address is entered only while it has no entry. -/
def insert? (j : Journal) (e : Extent) : Option Journal :=
  if ∃ f ∈ j.entries, f.address = e.address then none
  else some { j with entries := e :: j.entries }

/-- Removes the entry of an address; it has to be there, with a size that the line admits. -/
def remove? (j : Journal) (address : Nat) (admits : Nat → Bool) : Option Journal :=
  (j.entries.find? (·.address = address)).bind fun e =>
    if admits e.size then some { j with entries := j.entries.filter (·.address ≠ address) }
    else none

def addSlab (j : Journal) (page objectSize : Nat) : Journal :=
  { j with slabs := Function.update j.slabs objectSize (page :: j.slabs objectSize) }

theorem addSlab_slabs (j : Journal) (page objectSize size : Nat) :
    (j.addSlab page objectSize).slabs size =
      if size = objectSize then page :: j.slabs objectSize else j.slabs size :=
  Function.update_apply j.slabs objectSize _ size

/-- Enters what a line tells. A block is released under the order of its size, an object has less
than a page. -/
def note? (j : Journal) : Notice → Option Journal
  | .granted size address => j.insert? ⟨address, size⟩
  | .blockReleased order address => j.remove? address fun size => size = blockSize order
  | .objectReleased address => j.remove? address fun size => size < pageSize
  | .slabCreated page objectSize => some (j.addSlab page objectSize)

/-- Enters a printed line. -/
def enter? (j : Journal) (line : String) : Option Journal :=
  match Notice.read? line with
  | some notice => j.note? notice
  | none => some j

def replay? (j : Journal) (lines : List String) : Option Journal :=
  lines.foldlM enter? j

/-- A printed line enters what its event tells. -/
theorem enter?_line (j : Journal) (e : Event) :
    j.enter? e.line = match e.notice? with
      | some notice => j.note? notice
      | none => some j := by
  rw [enter?, Notice.read?_line]

theorem replay?_append (j : Journal) (lines more : List String) :
    j.replay? (lines ++ more) = (j.replay? lines).bind (·.replay? more) :=
  List.foldlM_append

theorem replay?_singleton (j : Journal) (line : String) : j.replay? [line] = j.enter? line := by
  rw [replay?, List.foldlM_cons]
  cases j.enter? line <;> rfl

end Journal

/-- The printed line says nothing to any journal. -/
def Event.Silent (e : Event) : Prop :=
  ∀ j : Journal, j.enter? e.line = some j

theorem Event.silent_of_untold {e : Event} (h : e.notice? = none) : e.Silent := by
  intro j
  rw [Journal.enter?_line, h]

/-- The events as they are printed. -/
def printed (events : List Event) : List String :=
  events.map Event.line

theorem printed_append (events more : List Event) :
    printed (events ++ more) = printed events ++ printed more :=
  List.map_append

theorem Journal.replay?_of_silent {events : List Event} (h : ∀ e ∈ events, e.Silent)
    (j : Journal) : j.replay? (printed events) = some j := by
  induction events with
  | nil => rfl
  | cons e rest ih =>
      rw [printed, List.map_cons, replay?, List.foldlM_cons, h e List.mem_cons_self j]
      exact ih fun f hf => h f (List.mem_cons_of_mem e hf)

theorem Fault.banner_silent (fault : Fault) : ∀ e ∈ fault.banner, e.Silent := by
  cases fault with
  | violation cause value =>
      have huntold : ∀ e ∈ banner (.violation cause value), e.notice? = none := by
        simp [banner, Event.notice?]
      exact fun e he => Event.silent_of_untold (huntold e he)
  | _ => simp [banner]

theorem forall_mem_of_mapM {ε α β : Type} {f : α → Except ε β} {P : β → Prop}
    (hf : ∀ a b, f a = .ok b → P b) {l : List α} {bs : List β} (h : l.mapM f = .ok bs) :
    ∀ b ∈ bs, P b := by
  induction l generalizing bs with
  | nil =>
      cases h
      exact List.forall_mem_nil _
  | cons a rest ih =>
      rw [List.mapM_cons] at h
      obtain ⟨first, hfirst, h⟩ := bind_eq_ok.1 h
      obtain ⟨others, hothers, h⟩ := bind_eq_ok.1 h
      cases h
      exact List.forall_mem_cons.2 ⟨hf a first hfirst, ih hothers⟩

namespace Pool
variable {p : Pool} {events : List Event}

theorem dump_silent (p : Pool) : ∀ e ∈ p.dump, e.Silent :=
  List.forall_mem_map.2 fun _ _ => Event.silent_of_untold rfl

theorem listOrder_silent {count order : Nat} (h : p.listOrder count order = .ok events) :
    ∀ e ∈ events, e.Silent := by
  rw [listOrder] at h
  split at h
  · cases h
    exact List.forall_mem_nil _
  · obtain ⟨blocks, -, h⟩ := bind_eq_ok.1 h
    obtain ⟨lines, hlines, h⟩ := bind_eq_ok.1 h
    cases h
    refine List.forall_mem_cons.2
      ⟨Event.silent_of_untold rfl, forall_mem_of_mapM (fun start e he => ?_) hlines⟩
    obtain ⟨stop, -, heq⟩ := bind_eq_ok.1 he
    cases heq
    exact Event.silent_of_untold rfl

/-- At first nothing is held, and there are no slabs. -/
theorem openingEvents_silent (h : p.openingEvents = .ok events) : ∀ e ∈ events, e.Silent := by
  obtain ⟨listing, hlisting, h⟩ := bind_eq_ok.1 h
  cases h
  have hlists : ∀ lines ∈ listing, ∀ e ∈ lines, e.Silent :=
    forall_mem_of_mapM (fun _ _ hlist => listOrder_silent hlist) hlisting
  have hflat : ∀ e ∈ listing.flatten, e.Silent := fun e he => by
    obtain ⟨lines, hlines, he⟩ := List.mem_flatten.1 he
    exact hlists lines hlines e he
  have hrest {e : Event} (huntold : e.notice? = none) : e.Silent := Event.silent_of_untold huntold
  simp only [Arena.events, List.forall_mem_append, List.forall_mem_cons]
  exact ⟨⟨⟨hrest rfl, hrest rfl, hrest rfl, List.forall_mem_nil _⟩, hrest rfl, hrest rfl, hflat⟩,
    hrest rfl, List.forall_mem_nil _⟩

end Pool

namespace Console
variable {c : Console}

theorem threshold_write (c : Console) (e : Event) : (c.write e).threshold = c.threshold := by
  rw [write]
  split <;> rfl

/-- At level trace a console keeps every line. -/
theorem lines_writeAll (h : c.threshold = some .trace) (events : List Event) :
    (c.writeAll events).threshold = some .trace ∧
      (c.writeAll events).lines.toList = c.lines.toList ++ events := by
  induction events generalizing c with
  | nil => exact ⟨h, (List.append_nil _).symm⟩
  | cons e rest ih =>
      have hkeeps : c.keeps e = true := by
        rw [keeps, h]
        cases e <;> rfl
      have hwrite : c.write e = { c with lines := c.lines.push e } := if_pos hkeeps
      obtain ⟨hthreshold, hlines⟩ := ih ((threshold_write c e).trans h)
      refine ⟨hthreshold, hlines.trans ?_⟩
      rw [hwrite, Array.toList_push, List.append_assoc]
      rfl

/-- Only lines that say nothing to a journal were added. -/
def Hushed (c : Console) (lines : Array Event) : Prop :=
  ∃ news, lines.toList = c.lines.toList ++ news ∧ ∀ e ∈ news, e.Silent

end Console

namespace Call

theorem exists_work_of_run {call : Call} {pool : Pool} {console : Console} {reply : Reply}
    {station : Station} (hrun : call.run ⟨pool, console, [], []⟩ = .ok (reply, station)) :
    ∃ events, call.work pool = .ok (reply, station.pool, events) ∧
      station.console = console.writeAll events := by
  rw [run_of_quiet] at hrun
  cases hwork : call.work pool with
  | error fault =>
      rw [hwork] at hrun
      cases hrun
  | ok outcome =>
      rw [hwork] at hrun
      cases hrun
      exact ⟨_, rfl, rfl⟩

theorem exists_fault_of_run {call : Call} {pool : Pool} {console : Console} {crash : Crash}
    (hrun : call.run ⟨pool, console, [], []⟩ = .error crash) :
    ∃ fault, crash = console.crash fault := by
  rw [run_of_quiet] at hrun
  cases hwork : call.work pool with
  | error fault =>
      rw [hwork] at hrun
      cases hrun
      exact ⟨fault, rfl⟩
  | ok outcome =>
      rw [hwork] at hrun
      cases hrun

end Call

namespace Chart
variable {c c' : Chart} {g : Grade} {x : Item} {a : Arena}

/-- A class gets a slab only where something is granted. -/
theorem news_of_refused (hnone : c.grant? g = none) : c.news a g = [] := by
  cases g with
  | block k => rfl
  | object i =>
      obtain ⟨hfull, htake⟩ := grant?_object_eq_none.1 hnone
      rw [news, Sheet.first?_eq_none.2 hfull, htake]

/-- The slabs of the classes stay, or the one that is added is told of. -/
theorem pages_of_news (hg : c.grant? g = some (x, c')) :
    (c.news a g = [] ∧ ∀ j, (c'.sheets j).map Sheet.page = (c.sheets j).map Sheet.page) ∨
    ∃ i page, c.news a g = [.slabCreated (a.pageAddress page) (classSizes.get i)] ∧
      ∀ j, (c'.sheets j).map Sheet.page =
        if j = i then page :: (c.sheets i).map Sheet.page else (c.sheets j).map Sheet.page := by
  cases grants_of_eq_some hg with
  | block htake => exact .inl ⟨rfl, fun _ => rfl⟩
  | @object i page number hfirst =>
      exact .inl ⟨by rw [news, hfirst], c.pages_restack i page List.tail⟩
  | @slab i page free hfull htake =>
      refine .inr ⟨i, page, by rw [news, hfull, htake], fun j => ?_⟩
      rw [setSheets_sheets]
      split <;> rfl

end Chart

namespace Ledger

/-- The journal has what the ledger has: what is held, and the slabs of each class. -/
structure Told (s : Ledger) (j : Journal) : Prop where
  entries : j.entries = s.held
  slabs : ∀ i, j.slabs (classSizes.get i) = s.slabs i
  others : ∀ size, (∀ i, classSizes.get i ≠ size) → j.slabs size = []

/-- From what the one ledger has these lines, once printed, lead to what the other has. -/
def Leads (s s' : Ledger) (lines : List Event) : Prop :=
  ∀ j, s.Told j → ∃ j', j.replay? (printed lines) = some j' ∧ s'.Told j'

/-- The ledger is met on a run from a fresh pool of this range, and its console has the lines of
the whole run; its logger asks for nothing. -/
inductive Logged (start stop : Nat) : Ledger → Console → Prop
  | init {m : Memory} {pool : Pool} {events : List Event}
      (hinit : Pool.init m start stop = .ok (.ok pool)) (hopening : pool.openingEvents = .ok events) :
      Logged start stop ⟨pool, []⟩
        ((Console.blank (some .trace)).writeAll (.poolOpening start :: events))
  | write {s : Ledger} {console : Console} {e : Extent} {address : Nat} {byte : UInt8}
      (h : Logged start stop s console) (hheld : e ∈ s.held) (hcovers : e.Covers address) :
      Logged start stop ⟨{ s.pool with memory := s.pool.memory.write address byte }, s.held⟩
        console
  | call {s : Ledger} {console console' : Console} {call : Call} {reply : Reply} {pool : Pool}
      {locks : List Lock} (h : Logged start stop s console) (hadmits : s.Admits call)
      (hrun : call.run ⟨s.pool, console, [], []⟩ = .ok (reply, ⟨pool, console', [], locks⟩)) :
      Logged start stop ⟨pool, call.settle s.held reply⟩ console'

/-- The printed lines replay, from nothing, to what the ledger has. A call that is refused adds no
line that counts, and neither does a call that comes to a fault. -/
structure Journalled (s : Ledger) (console : Console) : Prop where
  replays : ∃ j, Journal.empty.replay? (printed console.lines.toList) = some j ∧ s.Told j
  refused : ∀ (call : Call) (refusal : Refusal) (station : Station),
    call.run ⟨s.pool, console, [], []⟩ = .ok (.answer (.error refusal), station) →
      console.Hushed station.console.lines
  faulted : ∀ (call : Call) (crash : Crash), call.run ⟨s.pool, console, [], []⟩ = .error crash →
    console.Hushed crash.lines

namespace Told
variable {s s' : Ledger} {j : Journal} {e : Extent}

theorem congr (h : s.Told j) (hheld : s'.held = s.held) (hslabs : ∀ i, s'.slabs i = s.slabs i) :
    s'.Told j :=
  ⟨h.entries.trans hheld.symm, fun i => (h.slabs i).trans (hslabs i).symm, h.others⟩

theorem addSlab (h : s.Told j) {i : Fin classSizes.size} {page : Nat} (hheld : s'.held = s.held)
    (hslabs : ∀ k, s'.slabs k = if k = i then page :: s.slabs i else s.slabs k) :
    s'.Told (j.addSlab page (classSizes.get i)) := by
  refine ⟨h.entries.trans hheld.symm, fun k => ?_, fun size hsize => ?_⟩
  · rw [hslabs, Journal.addSlab_slabs]
    by_cases hk : k = i
    · rw [if_pos hk, if_pos (congrArg classSizes.get hk), h.slabs]
    · rw [if_neg hk, if_neg fun heq => hk (classSizes_inj k i heq), h.slabs]
  · rw [Journal.addSlab_slabs, if_neg (hsize i).symm]
    exact h.others size hsize

theorem insert (h : s.Told j) (hfresh : ∀ f ∈ s.held, f.address ≠ e.address) :
    ∃ j', j.insert? e = some j' ∧ Told ⟨s.pool, e :: s.held⟩ j' := by
  have hnew : ¬∃ f ∈ j.entries, f.address = e.address := by
    rw [h.entries]
    exact fun ⟨f, hf, haddress⟩ => hfresh f hf haddress
  refine ⟨{ j with entries := e :: j.entries }, if_neg hnew, ?_, h.slabs, h.others⟩
  exact congrArg (e :: ·) h.entries

theorem remove (h : s.Told j) (he : e ∈ s.held)
    (hunique : ∀ f ∈ s.held, f.address = e.address → f = e) {admits : Nat → Bool}
    (hadmits : admits e.size = true) :
    ∃ j', j.remove? e.address admits = some j' ∧
      Told ⟨s.pool, (Call.free e.address).kept s.held⟩ j' := by
  have hfound : j.entries.find? (·.address = e.address) = some e := by
    rw [h.entries]
    cases hfind : s.held.find? (·.address = e.address) with
    | none => simpa using List.find?_eq_none.1 hfind e he
    | some f =>
        have haddress : f.address = e.address := by simpa using List.find?_some hfind
        rw [hunique f (List.mem_of_find?_eq_some hfind) haddress]
  refine ⟨{ j with entries := j.entries.filter (·.address ≠ e.address) }, ?_, ?_, h.slabs,
    h.others⟩
  · rw [Journal.remove?, hfound, Option.bind_some, if_pos hadmits]
  · exact congrArg (List.filter (·.address ≠ e.address)) h.entries

end Told

/-- What a call writes leads to what the ledger has after its reply, and says nothing where the
reply is a refusal. -/
structure Enters (s s' : Ledger) (reply : Reply) (lines : List Event) : Prop where
  leads : s.Leads s' lines
  silent : ∀ refusal, reply = .answer (.error refusal) → ∀ e ∈ lines, e.Silent

theorem Enters.of_silent {s : Ledger} {reply : Reply} {lines : List Event}
    (h : ∀ e ∈ lines, e.Silent) : s.Enters s reply lines :=
  ⟨fun j hj => ⟨j, Journal.replay?_of_silent h j, hj⟩, fun _ _ => h⟩

namespace Charts
variable {s s' : Ledger} {c c' : Chart} {g : Grade} {x : Item} {n : Nat}
  {answer : Except Refusal Nat} {reply : Reply} {call : Call} {pool : Pool} {events : List Event}
  {j : Journal}

theorem slabs_congr (h : s.Charts c) (h' : s'.Charts c') (harena : s'.pool.arena = s.pool.arena)
    (hpages : ∀ i, (c'.sheets i).map Sheet.page = (c.sheets i).map Sheet.page)
    (i : Fin classSizes.size) : s'.slabs i = s.slabs i := by
  rw [h'.slabs_eq, h.slabs_eq, harena, hpages]

/-- The lines before the last tell of the slab that was made for the request. -/
theorem news_told (h : s.Charts c) (hg : c.grant? g = some (x, c'))
    (hcharts : Charts ⟨pool, x.extent s.pool.arena :: s.held⟩ c')
    (harena : pool.arena = s.pool.arena) (hj : s.Told j) :
    ∃ j', j.replay? (printed (c.news s.pool.arena g)) = some j' ∧ Told ⟨pool, s.held⟩ j' := by
  cases Chart.pages_of_news hg with
  | inl hkept =>
      obtain ⟨hnews, hpages⟩ := hkept
      have hslabs := h.slabs_congr hcharts harena hpages
      rw [hnews]
      exact ⟨j, rfl, hj.congr rfl hslabs⟩
  | inr hadded =>
      obtain ⟨i, page, hnews, hpages⟩ := hadded
      refine ⟨j.addSlab (s.pool.arena.pageAddress page) (classSizes.get i), ?_,
        hj.addSlab rfl fun k => ?_⟩
      · rw [hnews]
        exact (j.replay?_singleton _).trans (j.enter?_line _)
      have hslabs := hcharts.slabs_eq k
      rw [show pool.arena = s.pool.arena from harena, hpages] at hslabs
      refine hslabs.trans ?_
      rw [h.slabs_eq, h.slabs_eq]
      split <;> rfl

theorem granted_leads (h : s.Charts c) (hg : c.grant? g = some (x, c'))
    (hcharts : Charts ⟨pool, x.extent s.pool.arena :: s.held⟩ c')
    (harena : pool.arena = s.pool.arena) :
    s.Leads ⟨pool, x.extent s.pool.arena :: s.held⟩
      (c.news s.pool.arena g ++ [.granted g.size (x.extent s.pool.arena).address]) := by
  intro j hj
  obtain ⟨j₁, hnews, hj₁⟩ := h.news_told hg hcharts harena hj
  -- two extents that are held at a time have different addresses, so this one has no entry yet
  have hfresh : ∀ f ∈ s.held, f.address ≠ (x.extent s.pool.arena).address := by
    intro f hf haddress
    have heq := hcharts.held_unique (List.mem_cons_of_mem _ hf) List.mem_cons_self haddress
    exact (List.nodup_cons.1 hcharts.held_nodup).1 (heq ▸ hf)
  obtain ⟨j₂, hinsert, hj₂⟩ := hj₁.insert hfresh
  refine ⟨j₂, ?_, hj₂⟩
  rw [printed_append, Journal.replay?_append, hnews, Option.bind_some, ← hinsert]
  rw [← Chart.size_of_grant hg]
  exact (j₁.replay?_singleton _).trans (j₁.enter?_line _)

theorem allocate_enters (h : s.Charts c) (hrun : s.pool.allocate n = .ok (answer, pool, events)) :
    s.Enters ⟨pool, credit s.held n answer⟩ (.answer answer) events := by
  cases hround : roundSize n with
  | error refusal =>
      rw [Pool.allocate, hround] at hrun
      cases hrun
      exact .of_silent (List.forall_mem_nil _)
  | ok rounded =>
      obtain ⟨-, g, rfl⟩ := exists_grade hround
      cases h.depicts.allocate hround with
      | refused hnone hrefused =>
          cases hrefused.symm.trans hrun
          rw [Chart.news_of_refused hnone]
          exact .of_silent (List.forall_mem_singleton.2 (Event.silent_of_untold rfl))
      | granted x c' pool' hg hgranted hbecomes =>
          cases hgranted.symm.trans hrun
          have hsize : (x.extent s.pool.arena).size = g.size := Chart.size_of_grant hg
          have hcredit : credit s.held n (.ok (x.extent s.pool.arena).address) =
              x.extent s.pool.arena :: s.held := by
            rw [credit_ok s.held hround, ← hsize]
          rw [hcredit]
          exact ⟨h.granted_leads hg (h.grant hg hbecomes) hbecomes.arena, fun _ heq => by cases heq⟩

theorem allocateZeroed_enters (h : s.Charts c)
    (hrun : s.pool.allocateZeroed n = .ok (answer, pool, events)) :
    s.Enters ⟨pool, credit s.held n answer⟩ (.answer answer) events := by
  cases h.request n with
  | refused refusal lines hrefused =>
      cases (Pool.allocateZeroed_of_refused hrefused).symm.trans hrun
      exact h.allocate_enters hrefused
  | granted e plain c' lines hgranted hround hle harena hslabs hcharts =>
      cases (Pool.allocateZeroed_of_granted hgranted).symm.trans hrun
      obtain ⟨hleads, hsilent⟩ := h.allocate_enters hgranted
      refine ⟨fun j hj => ?_, hsilent⟩
      obtain ⟨j', hreplay, hj'⟩ := hleads j hj
      -- the bytes that are cleared are the client's, so the slabs stay as they are
      have hslabs := hcharts.slabs_congr (hcharts.fill List.mem_cons_self hle 0) rfl fun _ => rfl
      exact ⟨j', hreplay, hj'.congr rfl hslabs⟩

theorem free_leads (h : s.Charts c) {address : Nat} (hadmits : s.Admits (.free address))
    (hrun : s.pool.free address = .ok (pool, events)) :
    s.Leads ⟨pool, (Call.free address).kept s.held⟩ events := by
  cases hadmits with
  | inl hzero =>
      subst hzero
      cases hrun
      rw [h.kept_zero]
      exact fun j hj => ⟨j, rfl, hj⟩
  | inr hheld =>
      obtain ⟨e, he, rfl⟩ := hheld
      obtain ⟨x, hx, rfl⟩ := h.exists_item he
      obtain ⟨pool', hfree, hbecomes⟩ := h.depicts.free hx
      cases hfree.symm.trans hrun
      intro j hj
      have hslabs := h.slabs_congr (h.giveUp hx hbecomes) hbecomes.arena
        (Chart.pages_release c s.pool.arena.base x)
      have hunique : ∀ f ∈ s.held, f.address = (x.extent s.pool.arena).address →
          f = x.extent s.pool.arena := fun f hf => h.held_unique hf he
      -- the line is that of the tier, and each tier has its own check of the entry's size
      suffices hremove : ∃ admits : Nat → Bool, admits (x.extent s.pool.arena).size = true ∧
          j.enter? (x.farewell s.pool.arena).line =
            j.remove? (x.extent s.pool.arena).address admits by
        obtain ⟨admits, hsize, henter⟩ := hremove
        obtain ⟨j', hremoved, hj'⟩ := hj.remove he hunique hsize
        refine ⟨j', ?_, hj'.congr rfl hslabs⟩
        exact (j.replay?_singleton _).trans (henter.trans hremoved)
      cases x with
      | block b =>
          exact ⟨fun size => size = blockSize b.order, decide_eq_true rfl, j.enter?_line _⟩
      | object i page number =>
          exact ⟨fun size => size < pageSize, decide_eq_true (classSizes_lt i),
            j.enter?_line _⟩

theorem work_enters (h : s.Charts c) (hadmits : s.Admits call)
    (hwork : call.work s.pool = .ok (reply, pool, events)) :
    s.Enters ⟨pool, call.settle s.held reply⟩ reply events := by
  cases call with
  | allocate size =>
      obtain ⟨⟨answer, p, lines⟩, hrun, heq⟩ := bind_eq_ok.1 hwork
      cases heq
      exact h.allocate_enters hrun
  | allocateZeroed size =>
      obtain ⟨⟨answer, p, lines⟩, hrun, heq⟩ := bind_eq_ok.1 hwork
      cases heq
      exact h.allocateZeroed_enters hrun
  | free address =>
      obtain ⟨⟨p, lines⟩, hrun, heq⟩ := bind_eq_ok.1 hwork
      cases heq
      exact ⟨h.free_leads hadmits hrun, fun _ heq => by cases heq⟩
  | usableSize address =>
      obtain ⟨bytes, -, heq⟩ := bind_eq_ok.1 hwork
      cases heq
      exact .of_silent (List.forall_mem_nil _)
  | freeCounts =>
      cases hwork
      exact .of_silent (List.forall_mem_nil _)
  | freeBytes =>
      obtain ⟨bytes, -, heq⟩ := bind_eq_ok.1 hwork
      cases heq
      exact .of_silent (List.forall_mem_nil _)
  | freeBlocks order limit =>
      obtain ⟨blocks, -, heq⟩ := bind_eq_ok.1 hwork
      cases heq
      exact .of_silent (List.forall_mem_nil _)
  | dump =>
      cases hwork
      exact .of_silent s.pool.dump_silent

end Charts

/-- Only requests are refused, and a client may make any. -/
theorem admits_of_refused {s : Ledger} {call : Call} {refusal : Refusal} {pool : Pool}
    {events : List Event} (hwork : call.work s.pool = .ok (.answer (.error refusal), pool, events)) :
    s.Admits call := by
  cases call with
  | free address =>
      obtain ⟨freed, -, heq⟩ := bind_eq_ok.1 hwork
      cases heq
  | usableSize address =>
      obtain ⟨bytes, -, heq⟩ := bind_eq_ok.1 hwork
      cases heq
  | _ => trivial

namespace Logged
variable {start stop : Nat} {s s' : Ledger} {console : Console}

theorem inService (h : Logged start stop s console) : InService start stop s := by
  induction h with
  | init hinit hopening => exact .init hinit
  | write h hheld hcovers ih => exact ih.write hheld hcovers
  | call h hadmits hrun ih => exact ih.call hadmits hrun

theorem step (h : Logged start stop s console) {act : Act} (hstep : Step s act s') :
    ∃ console', Logged start stop s' console' := by
  obtain ⟨c, hcharts⟩ := h.inService.charts
  cases hcharts.enacted hstep with
  | call hadmits hrun => exact ⟨_, h.call hadmits (hrun console)⟩
  | write hheld hcovers => exact ⟨console, h.write hheld hcovers⟩

theorem runs {acts : List Act} (h : Logged start stop s console) (hruns : Runs s acts s') :
    ∃ console', Logged start stop s' console' := by
  induction hruns generalizing console with
  | nil s => exact ⟨console, h⟩
  | cons hstep _ ih =>
      obtain ⟨console', h'⟩ := h.step hstep
      exact ih h'

/-- The console has kept every line, and they lead from nothing to what the ledger has. -/
theorem replays (h : Logged start stop s console) : console.threshold = some .trace ∧
    ∃ j, Journal.empty.replay? (printed console.lines.toList) = some j ∧ s.Told j := by
  induction h with
  | @init m pool events hinit hopening =>
      have hblank : (Console.blank (some .trace)).threshold = some .trace := rfl
      obtain ⟨hthreshold, hlines⟩ := Console.lines_writeAll hblank (.poolOpening start :: events)
      have hsilent : ∀ e ∈ Event.poolOpening start :: events, e.Silent :=
        List.forall_mem_cons.2
          ⟨Event.silent_of_untold rfl, Pool.openingEvents_silent hopening⟩
      refine ⟨hthreshold, .empty, ?_, rfl, fun i => ?_, fun _ _ => rfl⟩
      · rw [hlines]
        exact Journal.replay?_of_silent hsilent _
      · obtain ⟨pool', hinit', -, hdepicts⟩ := Pool.init_eq m (Pool.layOut_of_init hinit)
        cases hinit'.symm.trans hinit
        exact ((Charts.initial hdepicts).slabs_eq i).symm
  | @write s console e address byte h hheld hcovers ih =>
      obtain ⟨hthreshold, j, hreplay, hj⟩ := ih
      obtain ⟨c, hcharts⟩ := h.inService.charts
      have hwritten := hcharts.write hheld hcovers byte
      have hslabs := hcharts.slabs_congr hwritten rfl fun _ => rfl
      exact ⟨hthreshold, j, hreplay, hj.congr rfl hslabs⟩
  | @call s console console' call reply pool locks h hadmits hrun ih =>
      obtain ⟨hthreshold, j, hreplay, hj⟩ := ih
      obtain ⟨c, hcharts⟩ := h.inService.charts
      obtain ⟨events, hwork, rfl⟩ := Call.exists_work_of_run hrun
      obtain ⟨j', hreplay', hj'⟩ := (hcharts.work_enters hadmits hwork).leads j hj
      obtain ⟨hthreshold', hlines⟩ := Console.lines_writeAll hthreshold events
      refine ⟨hthreshold', j', ?_, hj'⟩
      rw [hlines, printed_append, Journal.replay?_append, hreplay, Option.bind_some, hreplay']

end Logged

/-- Every run may be logged. -/
theorem reached_iff_logged {start stop : Nat} {s : Ledger} :
    Reached start stop s ↔ ∃ console, Logged start stop s console := by
  constructor
  · intro ⟨m, pool, acts, hinit, hruns⟩
    have hservice : InService start stop ⟨pool, []⟩ := .init hinit
    obtain ⟨c, hcharts⟩ := hservice.charts
    obtain ⟨events, hopening⟩ := hcharts.openingEvents_total
    exact (Logged.init hinit hopening).runs hruns
  · intro ⟨console, h⟩
    exact h.inService.reached

/-- The trace of a run is a faithful journal of it: what the printed lines say was granted and not
released is what clients hold, with its sizes, and the slabs they tell of are those of the classes. -/
theorem Logged.journalled {start stop : Nat} {s : Ledger} {console : Console}
    (h : Logged start stop s console) : Journalled s console := by
  obtain ⟨hthreshold, hreplays⟩ := h.replays
  obtain ⟨c, hcharts⟩ := h.inService.charts
  have hadded (events : List Event) (hsilent : ∀ e ∈ events, e.Silent) :
      console.Hushed (console.writeAll events).lines :=
    ⟨events, (Console.lines_writeAll hthreshold events).2, hsilent⟩
  refine ⟨hreplays, fun call refusal station hrun => ?_, fun call crash hrun => ?_⟩
  · obtain ⟨events, hwork, hconsole⟩ := Call.exists_work_of_run hrun
    have henters := hcharts.work_enters (admits_of_refused hwork) hwork
    rw [hconsole]
    exact hadded events (henters.silent refusal rfl)
  · obtain ⟨fault, rfl⟩ := Call.exists_fault_of_run hrun
    exact hadded fault.banner fault.banner_silent

theorem journalled_of_four_pages : ∃ s console, s.held = [⟨8448, 128⟩, ⟨16384, 8192⟩] ∧
    Logged 4096 24576 s console ∧ Journalled s console := by
  obtain ⟨s, hreached, hheld⟩ := exists_reached
  obtain ⟨console, hlogged⟩ := reached_iff_logged.1 hreached
  exact ⟨s, console, hheld, hlogged, hlogged.journalled⟩

end Ledger
end BuddySlab
