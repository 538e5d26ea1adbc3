import BuddySlab.Proofs.Depiction
import BuddySlab.Proofs.Layout
import BuddySlab.Script.Session

/-!
Which ranges can be managed, and where their pages lie. Whether a range is refused depends only on
how many whole pages it has: there has to be one left over behind the table, and a link has to name
each. What is laid out then has the table first, the payload up to the last whole page, and a number
for each page of it. The one thing that is not counted in pages is the start of the range: rounded up
it has to be a word, and in the last page of the address space it is not.
-/

namespace BuddySlab

namespace Script.Run
variable {α β : Type}

theorem bind_apply (f : Run α) (g : α → Run β) (s : Session) :
    (f >>= g) s = (f s >>= fun (a, s) => g a s) := rfl

theorem pure_apply (a : α) (s : Session) : (pure a : Run α) s = .ok (a, s) := rfl

theorem get_apply (s : Session) : (get : Run Session) s = .ok (s, s) := rfl

theorem modify_apply (f : Session → Session) (s : Session) :
    (modify f : Run Unit) s = .ok ((), f s) := rfl

theorem check_ok (a : α) : check (.ok a) = pure a := rfl

end Script.Run

namespace Arena

/-- Where the first whole page of a range begins. -/
def firstPage (start : Nat) : Nat :=
  (start + (pageSize - 1)) / pageSize * pageSize

/-- Where the last whole page of a range ends. -/
def lastPage (stop : Nat) : Nat :=
  stop / pageSize * pageSize

def wholePages (start stop : Nat) : Nat :=
  (lastPage stop - firstPage start) / pageSize

/-- A page is left over behind the table, and there are fewer than a link can name. -/
def Usable (start stop : Nat) : Prop :=
  tablePages (wholePages start stop) < wholePages start stop ∧
    wholePages start stop - tablePages (wholePages start stop) < noPage

instance (start stop : Nat) : Decidable (Usable start stop) :=
  inferInstanceAs (Decidable (_ ∧ _))

/-- Preparing a range comes to an end: it is refused because it begins at the null address, or
because it is not usable, and goes through otherwise. -/
structure Settled {α : Type} (start stop : Nat) (run : Except Fault (Except Refusal α)) : Prop where
  ended : ∃ outcome, run = .ok outcome
  null_iff : run = .ok (.error .invalidAddress) ↔ start = 0
  unusable_iff : run = .ok (.error .invalidRange) ↔ start ≠ 0 ∧ ¬Usable start stop
  granted_iff : (∃ a, run = .ok (.ok a)) ↔ start ≠ 0 ∧ Usable start stop

/-- Every outcome for the range is a result or a refusal, and a session that is refused it has the
bytes it had. -/
structure Reported (start stop : Nat) : Prop where
  payload : ∃ payload?, payloadOf start stop = .ok payload?
  layOut : Settled start stop (layOut start stop)
  init : ∀ m, Settled start stop (Pool.init m start stop)
  pool_refused : ∀ (s : Script.Session) (refusal : Refusal),
    Pool.init s.subject.retire start stop = .ok (.error refusal) →
    Script.Run.openPool start stop s =
      .ok (.refused refusal, { s with
        subject := .vacant s.subject.retire, console := s.console.write (.poolOpening start) })
  arena_refused : ∀ (s : Script.Session) (refusal : Refusal),
    Arena.layOut start stop = .ok (.error refusal) →
    Script.Run.openArena start stop s =
      .ok (.refused refusal, { s with subject := .vacant s.subject.retire })

/-- Rounding up the start of the range has no result, and nothing looks at that before. -/
structure Faulting (start stop : Nat) : Prop where
  payload : payloadOf start stop = .error (.overflow .add)
  layOut : Arena.layOut start stop = .error (.overflow .add)
  init : ∀ m, Pool.init m start stop = .error (.overflow .add)

/-- The whole pages of a range are divided into a table and a payload, and the pages of the payload
are numbered in order. -/
structure Divides (a : Arena) (start stop : Nat) : Prop where
  tableStart_eq : a.tableStart = firstPage start
  payloadStart_eq : a.payloadStart =
    firstPage start + pageSize * tablePages (wholePages start stop)
  payloadOf_eq : payloadOf start stop = .ok (some a.payloadStart)
  payloadOf_rounded : payloadOf (firstPage start) (lastPage stop) = .ok (some a.payloadStart)
  stop_eq : a.stop = lastPage stop
  pages_eq : a.pages = wholePages start stop - tablePages (wholePages start stop)
  pages_pos : 1 ≤ a.pages
  record_le : ∀ i < a.pages, firstPage start + recordSize * i + recordSize ≤ a.payloadStart
  inverse : ∀ i address, a.addressOf i = .ok address ↔ a.indexOf address = .ok i
  numbers : ∀ i, (∃ address, a.addressOf i = .ok address) ↔ i < a.pages
  addresses : ∀ address, (∃ i, a.indexOf address = .ok i) ↔
    pageSize ∣ address ∧ a.payloadStart ≤ address ∧ address < a.stop
  byte : ∀ x, a.payloadStart ≤ x → x < a.stop → ∃ i address, a.pageOf x = .ok i ∧
    a.addressOf i = .ok address ∧ address ≤ x ∧ x < address + pageSize

section Rounding
variable {start stop : Nat}

theorem wholePages_eq (start stop : Nat) :
    wholePages start stop = stop / pageSize - (start + (pageSize - 1)) / pageSize := by
  rw [wholePages, lastPage, firstPage, ← Nat.sub_mul, Nat.mul_div_cancel _ (by decide)]

/-- One page of a range is its table, and from two on one page holds the records of all. -/
theorem tablePages_lt_iff {n : Nat} : tablePages n < n ↔ 2 ≤ n := by
  simp only [tablePages, recordSize, pageSize]
  omega

theorem usable_iff : Usable start stop ↔ 2 ≤ wholePages start stop ∧
    wholePages start stop - tablePages (wholePages start stop) < noPage := by
  rw [Usable, tablePages_lt_iff]

/-- A range of whole pages is refused or laid out by their number alone. -/
theorem ofPages_of_usable {first last : Nat} (hroom : tablePages (last - first) < last - first)
    (hnamed : last - first - tablePages (last - first) < noPage) :
    ofPages first last = .ok
      { tableStart := first * pageSize
        pages := last - first - tablePages (last - first)
        payloadStart := (first + tablePages (last - first)) * pageSize
        stop := last * pageSize } := by
  rw [ofPages, if_neg (by omega), if_neg (by omega), Nat.sub_add_eq]

theorem ofPages_of_unusable {first last : Nat} (h : ¬(tablePages (last - first) < last - first ∧
    last - first - tablePages (last - first) < noPage)) :
    ofPages first last = .error .invalidRange := by
  rw [ofPages]
  by_cases hfull : last ≤ first + tablePages (last - first)
  · rw [if_pos hfull]
  · rw [if_neg hfull, if_pos (by omega)]

end Rounding

section Reports
variable {start stop : Nat}

theorem layOut_zero (stop : Nat) : layOut 0 stop = .ok (.error .invalidAddress) :=
  rfl

/-- What a usable range is laid out as. -/
theorem layOut_of_usable (hpos : 0 < start) (hstart : start + pageSize < 2 ^ 64)
    (hstop : stop < 2 ^ 64) (h : Usable start stop) :
    layOut start stop = .ok (.ok
      { tableStart := firstPage start
        pages := wholePages start stop - tablePages (wholePages start stop)
        payloadStart := firstPage start + pageSize * tablePages (wholePages start stop)
        stop := lastPage stop }) := by
  rw [Usable, wholePages_eq] at h
  rw [layOut_eq hpos hstart hstop, ofPages_of_usable h.1 h.2, wholePages_eq, Nat.add_mul,
    Nat.mul_comm (tablePages _)]
  rfl

theorem layOut_of_unusable (hpos : 0 < start) (hstart : start + pageSize < 2 ^ 64)
    (hstop : stop < 2 ^ 64) (h : ¬Usable start stop) :
    layOut start stop = .ok (.error .invalidRange) := by
  rw [Usable, wholePages_eq] at h
  rw [layOut_eq hpos hstart hstop, ofPages_of_unusable h]

/-- The outcomes exclude each other, so one equation for each of the three cases settles a run. -/
theorem settled_of_cases {α : Type} {run : Except Fault (Except Refusal α)}
    (hnull : start = 0 → run = .ok (.error .invalidAddress))
    (hunusable : start ≠ 0 → ¬Usable start stop → run = .ok (.error .invalidRange))
    (husable : start ≠ 0 → Usable start stop → ∃ a, run = .ok (.ok a)) :
    Settled start stop run := by
  by_cases hstart : start = 0
  · have hrun := hnull hstart
    refine ⟨⟨_, hrun⟩, iff_of_true hrun hstart, ?_, ?_⟩ <;> simp [hrun, hstart]
  by_cases h : Usable start stop
  · obtain ⟨a, hrun⟩ := husable hstart h
    refine ⟨⟨_, hrun⟩, ?_, ?_, ?_⟩ <;> simp [hrun, hstart, h]
  · have hrun := hunusable hstart h
    refine ⟨⟨_, hrun⟩, ?_, ?_, ?_⟩ <;> simp [hrun, hstart, h]

theorem layOut_settled (hstart : start + pageSize < 2 ^ 64) (hstop : stop < 2 ^ 64) :
    Settled start stop (layOut start stop) := by
  refine settled_of_cases (fun hzero => ?_) (fun hne => ?_) fun hne h => ?_
  · rw [hzero, layOut_zero]
  · exact layOut_of_unusable (Nat.pos_of_ne_zero hne) hstart hstop
  · exact ⟨_, layOut_of_usable (Nat.pos_of_ne_zero hne) hstart hstop h⟩

theorem init_refused {refusal : Refusal} (m : Memory)
    (h : layOut start stop = .ok (.error refusal)) :
    Pool.init m start stop = .ok (.error refusal) := by
  rw [Pool.init, h]
  rfl

/-- A pool is opened on the ranges that an arena is laid out on. -/
theorem init_settled (m : Memory) (h : Settled start stop (layOut start stop)) :
    Settled start stop (Pool.init m start stop) := by
  refine settled_of_cases (fun hzero => ?_) (fun hne hunusable => ?_) fun hne husable => ?_
  · exact init_refused m (h.null_iff.2 hzero)
  · exact init_refused m (h.unusable_iff.2 ⟨hne, hunusable⟩)
  · obtain ⟨a, hlaid⟩ := h.granted_iff.2 ⟨hne, husable⟩
    obtain ⟨p, hinit, -⟩ := Pool.init_eq m hlaid
    exact ⟨p, hinit⟩

theorem openPool_refused {refusal : Refusal} (s : Script.Session)
    (h : Pool.init s.subject.retire start stop = .ok (.error refusal)) :
    Script.Run.openPool start stop s =
      .ok (.refused refusal, { s with
        subject := .vacant s.subject.retire, console := s.console.write (.poolOpening start) }) := by
  simp only [Script.Run.openPool, Script.Run.write, Script.Run.bind_apply, Script.Run.get_apply,
    Script.Run.modify_apply, ok_bind, h, Script.Run.check_ok, Script.Run.pure_apply]

theorem openArena_refused {refusal : Refusal} (s : Script.Session)
    (h : Arena.layOut start stop = .ok (.error refusal)) :
    Script.Run.openArena start stop s =
      .ok (.refused refusal, { s with subject := .vacant s.subject.retire }) := by
  simp only [Script.Run.openArena, Script.Run.bind_apply, Script.Run.get_apply,
    Script.Run.modify_apply, ok_bind, h, Script.Run.check_ok, Script.Run.pure_apply]

theorem reported (hstart : start + pageSize < 2 ^ 64) (hstop : stop < 2 ^ 64) :
    Reported start stop :=
  ⟨⟨_, payloadOf_eq hstart hstop⟩, layOut_settled hstart hstop,
    fun m => init_settled m (layOut_settled hstart hstop), fun s _ => openPool_refused s,
    fun s _ => openArena_refused s⟩

theorem faulting (hstart : 2 ^ 64 ≤ start + pageSize) : Faulting start stop := by
  have hpayload : payloadOf start stop = .error (.overflow .add) := by
    rw [payloadOf, alignUp_of_overflow hstart, error_bind]
  have hpos : start ≠ 0 := by
    rintro rfl
    exact absurd hstart (by decide)
  have hlaid : Arena.layOut start stop = .error (.overflow .add) := by
    rw [Arena.layOut, if_neg hpos, hpayload]
    rfl
  exact ⟨hpayload, hlaid, fun m => by rw [Pool.init, hlaid, error_bind]⟩

/-- A fault is not an outcome. -/
theorem Faulting.not_reported (h : Faulting start stop) : ¬Reported start stop := by
  intro hreported
  obtain ⟨payload?, hpayload⟩ := hreported.payload
  cases h.payload.symm.trans hpayload

end Reports

/-- The ranges that are reported on are those that begin before the last page of the address space;
for the others nothing is reported. -/
theorem reported_iff {start stop : Nat} (hstop : stop < 2 ^ 64) :
    (Reported start stop ↔ start + pageSize < 2 ^ 64) ∧
      (2 ^ 64 ≤ start + pageSize → Faulting start stop) := by
  refine ⟨⟨fun hreported => ?_, fun hstart => reported hstart hstop⟩, fun htop => faulting htop⟩
  by_contra hstart
  exact (faulting (Nat.le_of_not_lt hstart)).not_reported hreported

/-- The last page but one of the address space, and the last. -/
theorem reported_iff_at_top :
    Reported 0xffffffffffffe000 0xfffffffffffff000 ∧ Faulting 0xfffffffffffff000 0 :=
  ⟨(reported_iff (by decide)).1.2 (by decide), (reported_iff (by decide)).2 (by decide)⟩

/-- The empty range at the very top is a pair of words. -/
theorem not_reported_at_top : ¬Reported 0xffffffffffffffff 0xffffffffffffffff :=
  (faulting (by decide)).not_reported

section Sound
variable {a : Arena} (ha : a.Sound)
include ha

theorem Sound.addressOf_iff {i address : Nat} :
    a.addressOf i = .ok address ↔ i < a.pages ∧ a.pageAddress i = address := by
  by_cases hi : i < a.pages
  · simp [ha.addressOf_eq hi, hi]
  · refine iff_of_false (fun haddress => ?_) fun hpage => hi hpage.1
    simp only [addressOf, if_neg hi] at haddress
    cases haddress

theorem Sound.indexOf_iff {i address : Nat} :
    a.indexOf address = .ok i ↔ i < a.pages ∧ a.pageAddress i = address := by
  constructor
  · intro hindex
    simp only [indexOf, isAligned_pageSize, ok_bind] at hindex
    by_cases haligned : address % pageSize = 0
    · by_cases hin : a.contains address = true
      · simp only [haligned, BEq.rfl, if_true, hin, pure_eq_ok, Except.ok.injEq] at hindex
        have hstop := ha.stop_eq
        have hstart := ha.payload_eq
        simp only [contains, Bool.and_eq_true, decide_eq_true_eq] at hin
        simp only [pageAddress, pageSize] at *
        omega
      · simp only [haligned, BEq.rfl, if_true, hin] at hindex
        cases hindex
    · simp only [beq_eq_false_iff_ne.2 haligned] at hindex
      cases hindex
  · intro hpage
    obtain ⟨hi, rfl⟩ := hpage
    exact ha.indexOf_pageAddress hi

theorem Sound.exists_page {x : Nat} (hlow : a.payloadStart ≤ x) (hhigh : x < a.stop) :
    ∃ i < a.pages, (a.pageExtent i).Covers x := by
  have hstop := ha.stop_eq
  refine ⟨(x - a.payloadStart) / pageSize, ?_, ?_⟩ <;>
    simp only [Extent.Covers, pageExtent, pageAddress, pageSize] at * <;> omega

theorem Sound.exists_index_iff {address : Nat} : (∃ i, a.indexOf address = .ok i) ↔
    pageSize ∣ address ∧ a.payloadStart ≤ address ∧ address < a.stop := by
  simp only [ha.indexOf_iff]
  constructor
  · intro hpage
    obtain ⟨i, hi, rfl⟩ := hpage
    have hpages := ha.pageAddress_le_stop (Nat.succ_le_of_lt hi)
    simp only [pageAddress, pageSize] at hpages ⊢
    exact ⟨ha.dvd_pageAddress i, by omega, by omega⟩
  · intro haddress
    obtain ⟨⟨q, rfl⟩, hlow, hhigh⟩ := haddress
    obtain ⟨i, hi, hcovers⟩ := ha.exists_page hlow hhigh
    refine ⟨i, hi, ?_⟩
    simp only [Extent.Covers, pageExtent, ha.pageAddress_eq, pageSize] at hcovers ⊢
    omega

/-- Between the pages and their numbers, and for every byte of the payload. -/
theorem Sound.pageOf_byte {x : Nat} (hlow : a.payloadStart ≤ x) (hhigh : x < a.stop) :
    ∃ i address, a.pageOf x = .ok i ∧ a.addressOf i = .ok address ∧ address ≤ x ∧
      x < address + pageSize := by
  obtain ⟨i, hi, hcovers⟩ := ha.exists_page hlow hhigh
  exact ⟨i, _, ha.pageOf_eq hi hcovers.1 hcovers.2, ha.addressOf_eq hi, hcovers.1, hcovers.2⟩

end Sound

section Divides
variable {start stop : Nat} {a : Arena}

theorem firstPage_firstPage (start : Nat) : firstPage (firstPage start) = firstPage start := by
  simp only [firstPage, pageSize]
  omega

theorem lastPage_lastPage (stop : Nat) : lastPage (lastPage stop) = lastPage stop := by
  rw [lastPage, lastPage, Nat.mul_div_cancel _ (by decide)]

/-- The records of all pages of the payload fit in the pages of the table. -/
theorem record_le_tablePages {n i : Nat} (hi : i < n - tablePages n) :
    recordSize * i + recordSize ≤ pageSize * tablePages n := by
  simp only [tablePages, recordSize, pageSize] at *
  omega

theorem payloadOf_of_usable (hstart : start + pageSize < 2 ^ 64) (hstop : stop < 2 ^ 64)
    (h : Usable start stop) : payloadOf start stop =
      .ok (some (firstPage start + pageSize * tablePages (wholePages start stop))) := by
  rw [Usable, wholePages_eq] at h
  rw [payloadOf_eq hstart hstop, if_neg (by omega), wholePages_eq, Nat.add_mul,
    Nat.mul_comm (tablePages _)]
  rfl

theorem divides (hpos : 0 < start) (hstart : start + pageSize < 2 ^ 64) (hstop : stop < 2 ^ 64)
    (h : Usable start stop) (hlaid : Arena.layOut start stop = .ok (.ok a)) :
    a.Divides start stop := by
  have ha := sound_of_layOut hlaid
  cases (layOut_of_usable hpos hstart hstop h).symm.trans hlaid
  have hbelow : lastPage stop ≤ stop := Nat.div_mul_le_self stop pageSize
  have hroom := h.1
  -- what was rounded up is the start of a page below the end, so it can be rounded up again
  have hfirst : firstPage start + pageSize < 2 ^ 64 := by
    simp only [wholePages, tablePages, recordSize, pageSize] at hroom ⊢
    omega
  have hwhole : wholePages (firstPage start) (lastPage stop) = wholePages start stop := by
    rw [wholePages, firstPage_firstPage, lastPage_lastPage, wholePages]
  have hrounded : Usable (firstPage start) (lastPage stop) := by
    rwa [Usable, hwhole]
  have hpayload := payloadOf_of_usable hfirst (Nat.lt_of_le_of_lt hbelow hstop) hrounded
  rw [firstPage_firstPage, hwhole] at hpayload
  refine ⟨rfl, rfl, payloadOf_of_usable hstart hstop h, hpayload, rfl, rfl, ha.pages_pos,
    fun i hi => ?_, fun i address => ha.addressOf_iff.trans ha.indexOf_iff.symm, fun i => ?_,
    fun address => ha.exists_index_iff, fun x hlow hhigh => ha.pageOf_byte hlow hhigh⟩
  · rw [Nat.add_assoc]
    exact Nat.add_le_add_left (record_le_tablePages hi) _
  · simp [ha.addressOf_iff]

end Divides

/-- Where rounding up has a result, a range is laid out if it has two whole pages or more and not
too many, and then its pages are divided and numbered as said. -/
theorem layOut_divides {start stop : Nat} (hpos : 0 < start) (hstart : start + pageSize < 2 ^ 64)
    (hstop : stop < 2 ^ 64) :
    ((∃ a, layOut start stop = .ok (.ok a)) ↔ 2 ≤ wholePages start stop ∧
      wholePages start stop - tablePages (wholePages start stop) < noPage) ∧
    ∀ a, layOut start stop = .ok (.ok a) → a.Divides start stop := by
  have hgranted := (layOut_settled hstart hstop).granted_iff
  constructor
  · rw [hgranted, usable_iff]
    exact and_iff_right (Nat.ne_of_gt hpos)
  · intro a hlaid
    exact divides hpos hstart hstop (hgranted.1 ⟨a, hlaid⟩).2 hlaid

/-- A range whose ends lie inside of pages: one page is the table and four are left. -/
theorem layOut_divides_of_four_pages :
    ∃ a, layOut 5000 30000 = .ok (.ok a) ∧ a.pages = 4 ∧ a.Divides 5000 30000 := by
  have hdivides := @layOut_divides 5000 30000 (by decide) (by decide) (by decide)
  obtain ⟨a, hlaid⟩ := hdivides.1.2 (by decide)
  have ha := hdivides.2 a hlaid
  exact ⟨a, hlaid, ha.pages_eq.trans (by decide), ha⟩

end Arena
end BuddySlab
