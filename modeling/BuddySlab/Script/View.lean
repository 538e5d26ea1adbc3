import BuddySlab.Pool

/-!
What a script is shown of a pool, and of the slabs in an arena.
-/

namespace BuddySlab
namespace Script

structure CacheView where
  objectSize : Nat
  perSlab : Nat
  slabs : Nat
  free : Nat
  deriving DecidableEq, Repr

structure SlabView where
  page : Nat
  objectSize : Nat
  capacity : Nat
  free : Nat
  deriving DecidableEq, Repr

/-- What a pool holds: the free blocks of each order, their bytes, and the slabs of each class that
has any, newest first. -/
structure Snapshot where
  blocks : List (List Nat)
  bytes : Nat
  slabs : List (Nat × List SlabView)
  deriving DecidableEq, Repr

/-- At most `limit` blocks are looked at, and never more than one past the count of the list. -/
def shownBlocks (b : Buddy) (order limit : Nat) : Except Fault (List Nat) :=
  let count := b.lists[order]?.elim 0 (·.count)
  b.freeBlocks order (min count limit + 1)

def slabView (m : Memory) (page : Nat) : SlabView :=
  ⟨page, Slab.objectSize m page, Slab.capacity m page, Slab.freeCount m page⟩

def cacheView (c : Cache) (m : Memory) (limit : Nat) : Except Fault CacheView := do
  let perSlab ← c.objectCount
  let free ← c.freeObjects m limit
  return ⟨c.objectSize, perSlab, (c.slabs m limit).length, free⟩

/-- The slab that an address lies in, if its page is one. -/
def slabAt (t : PageTable) (m : Memory) (address : Nat) : Except Fault (Option SlabView) := do
  let d ← t.descriptorAt address
  return if d.flags.slab then some (slabView m (Slab.containing address)) else none

def snapshot (p : Pool) : Except Fault Snapshot := do
  let blocks ← (List.range orderCount).mapM fun order =>
    shownBlocks p.buddy order p.arena.pages
  let bytes ← p.buddy.freeBytes
  let slabs := p.caches.toList.map fun c =>
    (c.objectSize, (c.slabs p.memory p.slabLimit).map (slabView p.memory))
  return ⟨blocks, bytes, slabs.filter (!·.2.isEmpty)⟩

end Script
end BuddySlab
