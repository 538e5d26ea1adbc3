import BuddySlab.Station
import BuddySlab.Suite

/-!
The checks a pool runs on itself at boot. They use it as a client would, and give back what they
take; a check that cannot get memory is skipped.
-/

namespace BuddySlab
namespace SelfTest

open Service (operate consult locked write allocate free freeCounts)

def takeOrder (order : Nat) : Service (Except Refusal Nat) :=
  locked .pages <| operate fun
    | ⟨buddy, caches, memory⟩ => do
        let (result, buddy) ← buddy.takeOrder order
        return (result, ⟨buddy, caches, memory⟩)

def freeBlock (address : Nat) : Service Unit :=
  locked .pages <| operate fun p => do return ((), (← p.freeBlock address).2)

/-- Takes a block of each order listed; the verdict is the last one given. -/
def holdOrders (verdict : Verdict) : List Nat → Service (Verdict × List Nat)
  | [] => pure (verdict, [])
  | order :: orders => do
      match ← takeOrder order with
      | .ok address =>
          let aligned := address % blockSize order = 0
          unless aligned do write (.misalignedBlock address)
          let (verdict, held) ← holdOrders (if aligned then verdict else .failed) orders
          return (verdict, address :: held)
      | .error _ =>
          write (.noBlockOfOrder order)
          holdOrders .skipped orders

def orderAlignment : Service Verdict := do
  let (verdict, held) ← holdOrders .passed [0, 1, 2, 3]
  (held.filter (· ≠ 0)).forM freeBlock
  return verdict

def roundTrip : Service Verdict := do
  let before ← freeCounts
  match ← allocate pageSize with
  | .error _ => return .skipped
  | .ok address =>
      free address
      if (← freeCounts) = before then return .passed
      write .countsChanged
      return .failed

def oversizeRejected : Service Verdict := do
  if (← allocate (maxBlockSize + 1)) matches .ok _ then return .failed
  if (← takeOrder (maxOrder + 1)) matches .ok _ then return .failed
  return .passed

def classAlignmentFrom : List Nat → Service Verdict
  | [] => pure .passed
  | size :: sizes => do
      match ← allocate size with
      | .error _ => return .skipped
      | .ok address =>
          let usable ← consult (·.usableSize address)
          free address
          if address % size = 0 ∧ usable = size then
            classAlignmentFrom sizes
          else
            write (.wrongClass size)
            return .failed

def classAlignment : Service Verdict :=
  classAlignmentFrom classSizes.toList

/-- Both objects are asked for before either answer is looked at, so a lone first one is kept. -/
def lastFreedFirst : Service Verdict := do
  let first ← allocate 32
  let second ← allocate 32
  match first, second with
  | .ok a, .ok b =>
      free b
      match ← allocate 32 with
      | .error _ => return .skipped
      | .ok again =>
          free again
          free a
          return if again = b then .passed else .failed
  | _, _ => return .skipped

def pageFlag : Service Verdict := do
  match ← allocate 100 with
  | .error _ => return .skipped
  | .ok address =>
      let d ← consult (·.buddy.table.descriptorAt address)
      free address
      if d.flags.slab then return .passed
      write (.unflaggedPage address)
      return .failed

def zeroSize : Service Verdict := do
  match ← allocate 0 with
  | .error .invalidSize => return .passed
  | _ => return .failed

def sentinel : Nat := 0xDEADBEEF

def holdsSentinel (m : Memory) (address size : Nat) : Bool :=
  (List.range (size / 4)).any fun i => m.readNumber (address + 4 * i) 4 = sentinel

def writeSentinels (m : Memory) (address size : Nat) : Memory :=
  (size / 4).fold (fun i _ m => m.writeNumber (address + 4 * i) sentinel 4) m

/-- Takes a block of each size listed and fills it with sentinels; one that already held a sentinel
may be in use elsewhere. -/
def holdSizes (verdict : Verdict) : List Nat → Service (Verdict × List (Nat × Nat))
  | [] => pure (verdict, [])
  | size :: sizes => do
      match ← allocate size with
      | .error _ => return (.skipped, [])
      | .ok address =>
          let inUse ← consult fun p => .ok (holdsSentinel p.memory address size)
          if inUse then write (.blockInUse address)
          operate fun p => .ok ((), { p with memory := writeSentinels p.memory address size })
          let (verdict, held) ← holdSizes (if inUse then .failed else verdict) sizes
          return (verdict, (address, size) :: held)

def sentinelFill : Service Verdict := do
  let (verdict, held) ← holdSizes .passed [8, 48, 512, 2048, 4096, 12288]
  held.forM fun (address, size) => do
    operate fun p => .ok ((), p.fill address size 0)
    free address
  return verdict

def freeNull : Service Verdict := do
  let before ← freeCounts
  free 0
  return if (← freeCounts) = before then .passed else .failed

def buddySuite : Service Summary :=
  Check.runSuite write "Buddy"
    [⟨"buddy_order_alignment", orderAlignment⟩, ⟨"buddy_round_trip", roundTrip⟩,
      ⟨"buddy_oversize_rejected", oversizeRejected⟩]

def slabSuite : Service Summary :=
  Check.runSuite write "Slab"
    [⟨"slab_class_alignment", classAlignment⟩, ⟨"slab_lifo_reuse", lastFreedFirst⟩,
      ⟨"slab_page_flag", pageFlag⟩]

def poolSuite : Service Summary :=
  Check.runSuite write "PMM"
    [⟨"pmm_zero_size", zeroSize⟩, ⟨"pmm_sentinel_fill", sentinelFill⟩,
      ⟨"pmm_free_null", freeNull⟩]

def run : Service Summary := do
  write .selfTestStarted
  let summary ← buddySuite
  let summary ← merge summary (← slabSuite)
  let summary ← merge summary (← poolSuite)
  write (if summary.failed = 0 then .selfTestPassed else .selfTestFailed)
  return summary
where
  merge (s t : Summary) : Service Summary := consult fun _ => s.merge t

end SelfTest
end BuddySlab
