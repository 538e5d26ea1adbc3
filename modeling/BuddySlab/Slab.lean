import BuddySlab.Alignment
import BuddySlab.Memory
import BuddySlab.Size

/-!
A slab: one page of objects of one size. The page begins with a header; the objects follow, at
multiples of their size, up to the end of the page. The free objects form a stack whose links are
kept in the first word of each, so a slab lives entirely in memory and is named by the address of
its page.
-/

namespace BuddySlab
namespace Slab

def headerSize : Nat := 48

/-- Where the header keeps the next slab of the same cache; zero for none. -/
def nextField (page : Nat) : Nat := page

def objectSizeField (page : Nat) : Nat := page + 8

def capacityField (page : Nat) : Nat := page + 16

/-- A word set aside for a lock, which is open whenever nobody works on the slab. -/
def lockField (page : Nat) : Nat := page + 24

/-- Where the header keeps the free object on top of the stack; zero for none. -/
def topField (page : Nat) : Nat := page + 32

def freeCountField (page : Nat) : Nat := page + 40

def next (m : Memory) (page : Nat) : Nat := m.readWord (nextField page)

def objectSize (m : Memory) (page : Nat) : Nat := m.readWord (objectSizeField page)

def capacity (m : Memory) (page : Nat) : Nat := m.readWord (capacityField page)

def top (m : Memory) (page : Nat) : Nat := m.readWord (topField page)

def freeCount (m : Memory) (page : Nat) : Nat := m.readWord (freeCountField page)

/-- The page that an address lies in. -/
def containing (address : Nat) : Nat :=
  address &&& Word.complement (pageSize - 1)

/-- How many objects of a size fit behind the header. -/
def objectCount (size : Nat) : Except Fault Nat := do
  let first ← alignUp headerSize size
  return (← Word.subtract pageSize first) / size

/-- Links each object to the one after it and the last to none. -/
def carve (m : Memory) (first size capacity : Nat) : Except Fault Memory :=
  (List.range capacity).foldlM
    (fun m i => do
      let object ← place i
      let next ← if i + 1 < capacity then place (i + 1) else pure 0
      return m.writeWord object next)
    m
where
  place (i : Nat) : Except Fault Nat := do Word.add first (← Word.multiply i size)

def writeHeader (m : Memory) (page size first capacity : Nat) : Memory :=
  let m := m.writeWord (nextField page) 0
  let m := m.writeWord (objectSizeField page) size
  let m := m.writeWord (capacityField page) capacity
  let m := m.writeWord (lockField page) 0
  let m := m.writeWord (topField page) first
  m.writeWord (freeCountField page) capacity

/-- Makes a page into a slab whose objects are all free, the lowest on top. -/
def format (m : Memory) (page size : Nat) : Except Fault Memory := do
  let first ← alignUp (← Word.add page headerSize) size
  let capacity := (← Word.subtract (← Word.add page pageSize) first) / size
  let m ← carve m first size capacity
  return writeHeader m page size first capacity

def pop (m : Memory) (page : Nat) : Except Fault (Option Nat × Memory) := do
  let object := top m page
  if object = 0 then return (none, m)
  let m := m.writeWord (topField page) (m.readWord object)
  let count ← Word.subtract (freeCount m page) 1
  return (some object, m.writeWord (freeCountField page) count)

/-- The object becomes the top of the stack. -/
def push (m : Memory) (page object : Nat) : Except Fault Memory := do
  let m := m.writeWord object (top m page)
  let m := m.writeWord (topField page) object
  let count ← Word.add (freeCount m page) 1
  return m.writeWord (freeCountField page) count

/-- Puts an object back on the stack of the slab it lies in. -/
def release (m : Memory) (object : Nat) : Except Fault Memory :=
  push m (containing object) object

end Slab
end BuddySlab
