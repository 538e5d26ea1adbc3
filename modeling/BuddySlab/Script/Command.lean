import BuddySlab.Heap

/-!
The commands of a script. They name addresses directly or through slots, in which earlier commands
left the addresses they got.
-/

namespace BuddySlab
namespace Script

inductive Target
  | address (value : Nat)
  | slot (name : String)
  deriving DecidableEq, Repr

/-- An address and an offset from it, which wraps around. -/
structure Pointer where
  target : Target
  offset : Int
  deriving DecidableEq, Repr

/-- The order in which numbered slots are visited. -/
inductive Visit
  | forward
  | backward
  | evens
  | odds
  | stride (step : Nat)
  deriving DecidableEq, Repr

namespace Visit

def indices (count : Nat) : Visit → List Nat
  | .forward => List.range count
  | .backward => (List.range count).reverse
  | .evens => (List.range count).filter (· % 2 = 0)
  | .odds => (List.range count).filter (· % 2 = 1)
  | .stride step => (List.range count).map fun i => i * step % count

end Visit

inductive TestSuite
  | buddy
  | slab
  | pool
  | all
  deriving DecidableEq, Repr

inductive Command
  | init (start stop : Nat)
  | allocate (size : Nat) (slot? : Option String)
  | allocateZeroed (size : Nat) (slot? : Option String)
  | allocateMany (size count : Nat) (slots : String)
  | free (pointer : Pointer)
  | freeMany (slots : String) (count : Nat) (visit : Visit)
  | freeObject (pointer : Pointer)
  | usable (pointer : Pointer)
  | blocks (order : Nat)
  | cache (size : Nat)
  | slabAt (pointer : Pointer)
  | state
  | dump
  | selfTest (suite : TestSuite)
  | arena
  | indexOf (pointer : Pointer)
  | contains (pointer : Pointer)
  | holds (pointer : Pointer) (size : Nat)
  | addressOf (index : Nat)
  | descriptor (index : Nat)
  | page (pointer : Pointer)
  | setFree (index : Nat) (free : Bool)
  | setOrder (index order : Nat)
  | markSlab (index : Nat)
  | read (pointer : Pointer) (count : Nat)
  | sum (pointer : Pointer) (count : Nat)
  | write (pointer : Pointer) (bytes : List UInt8)
  | fill (pointer : Pointer) (count : Nat) (byte : UInt8)
  | heapAllocate (layout : Layout) (slot? : Option String)
  | heapAllocateZeroed (layout : Layout) (slot? : Option String)
  | heapFree (pointer : Pointer) (layout : Layout)
  | heapReallocate (pointer : Pointer) (layout : Layout) (size : Nat) (slot? : Option String)
  deriving Repr

end Script
end BuddySlab
