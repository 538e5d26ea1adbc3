import BuddySlab.Station

/-!
A heap on top of a pool. Blocks are aligned to their rounded size, so a request for `size` bytes at
a multiple of `align` asks the pool for the larger of the two.
-/

namespace BuddySlab

/-- The size and alignment of a client's block. -/
structure Layout where
  size : Nat
  align : Nat
  deriving DecidableEq, Repr

namespace Layout

/-- The alignment is a power of two, and the size rounded up to it stays below `2 ^ 63`. -/
def valid (l : Layout) : Bool :=
  l.align != 0 && (l.align &&& (l.align - 1)) == 0 && l.align ≤ 2 ^ 63
    && l.size ≤ 2 ^ 63 - l.align

def request (l : Layout) : Nat :=
  max l.size l.align

end Layout

namespace Heap

def allocate (l : Layout) : Service (Option Nat) := do
  return (← Service.allocate l.request).toOption

def allocateZeroed (l : Layout) : Service (Option Nat) := do
  match ← allocate l with
  | none => return none
  | some address =>
      Service.operate fun p => .ok ((), p.fill address l.size 0)
      return some address

/-- Stays in place while the block is large enough; else moves, copies what both sizes share and
gives the old block back. Without room for the new block the old one stays. -/
def reallocate (address : Nat) (l : Layout) (size : Nat) : Service (Option Nat) := do
  let usable ← Service.consult (·.usableSize address)
  if max size l.align ≤ usable then return some address
  match ← allocate { l with size } with
  | none => return none
  | some target =>
      Service.operate fun p => .ok ((), p.copy address target (min l.size size))
      Service.free address
      return some target

end Heap
end BuddySlab
