import BuddySlab.Buddy
import BuddySlab.Event
import BuddySlab.Slab.Cache

/-!
The allocator: a page tier, an object tier that takes its pages from it, and the memory they manage.
A request is rounded to a power of two and served by the tier of that size; a release is routed by
the slab flag of the page. Beside what its parts do, this says what a whole call comes to on a pool
that nothing else uses meanwhile, and which lines it writes.
-/

namespace BuddySlab

structure Pool where
  buddy : Buddy
  caches : CacheSet
  memory : Memory

/-- What laying out an arena reports. -/
def Arena.events (a : Arena) : List Event :=
  [.tablePlaced a.tableStart, .payloadPlaced a.payloadStart, .payloadCounted a.pages]

namespace Pool

def arena (p : Pool) : Arena :=
  p.buddy.arena

/-- Prepares a range; a refusal leaves the memory as it was. -/
def init (m : Memory) (start stop : Nat) : Except Fault (Except Refusal Pool) := do
  match ← Arena.layOut start stop with
  | .error refusal => return .error refusal
  | .ok arena =>
      let buddy ← Buddy.init (PageTable.blank arena)
      return .ok ⟨buddy, CacheSet.empty, m.fill arena.tableStart arena.tableSize 0⟩

/-- No chain of slabs is longer than the payload has pages. -/
def slabLimit (p : Pool) : Nat :=
  p.arena.pages

/-- Works on the memory alone. -/
def onMemory {α : Type} (p : Pool) (f : Memory → Except Fault (α × Memory)) :
    Except Fault (α × Pool) :=
  match p with
  | ⟨buddy, caches, memory⟩ => do
      let (result, memory) ← f memory
      return (result, ⟨buddy, caches, memory⟩)

/-- Takes a block from the page tier. -/
def takeBlock (p : Pool) (size : Nat) : Except Fault (Except Refusal Nat × Pool) :=
  match p with
  | ⟨buddy, caches, memory⟩ => do
      let (result, buddy) ← buddy.allocate size
      return (result, ⟨buddy, caches, memory⟩)

/-- A block that is handed out lies in the payload, and not at the null address. -/
def checkBlock (p : Pool) (address size : Nat) : Except Fault Unit :=
  unless p.arena.holds address size && address != 0 do
    throw (.violation .outOfBounds address)

/-- Takes a page from the page tier and flags it as a slab. -/
def takePage (p : Pool) : Except Fault (Except Refusal Nat × Pool) :=
  match p with
  | ⟨buddy, caches, memory⟩ => do
      match ← buddy.allocate pageSize with
      | (.error refusal, buddy) => return (.error refusal, ⟨buddy, caches, memory⟩)
      | (.ok page, buddy) => return (.ok page, ⟨← buddy.flagSlab page, caches, memory⟩)

/-- A slab that is ready becomes the newest of its class. -/
def publish (p : Pool) (i : Fin classSizes.size) (page : Nat) : Pool :=
  match p with
  | ⟨buddy, caches, memory⟩ =>
      let (cache, memory) := (caches.get i).publish memory page
      ⟨buddy, caches.put i cache, memory⟩

/-- A page that was taken becomes the newest slab of a class and gives up its first object. -/
def openSlab (p : Pool) (i : Fin classSizes.size) (page : Nat) :
    Except Fault (Nat × Pool × List Event) :=
  match p with
  | ⟨buddy, caches, memory⟩ => do
      let (object, cache, memory) ← (caches.get i).grow memory page
      return (object, ⟨buddy, caches.put i cache, memory⟩, [.slabCreated page cache.objectSize])

/-- Takes a page for a new slab of a class. -/
def growCache (p : Pool) (i : Fin classSizes.size) :
    Except Fault (Except Refusal Nat × Pool × List Event) := do
  match ← p.takePage with
  | (.error refusal, p) => return (.error refusal, p, [])
  | (.ok page, p) =>
      let (object, p, events) ← p.openSlab i page
      return (.ok object, p, events)

/-- Serves a size below a page. -/
def allocateObject (p : Pool) (size : Nat) :
    Except Fault (Except Refusal Nat × Pool × List Event) :=
  match p.caches.class? size with
  | none => .ok (.error .invalidSize, p, [])
  | some i =>
      let limit := p.slabLimit
      match p with
      | ⟨buddy, caches, memory⟩ => do
          match ← Cache.popFrom memory (caches.get i).newest limit with
          | (some object, memory) => return (.ok object, ⟨buddy, caches, memory⟩, [])
          | (none, memory) => growCache ⟨buddy, caches, memory⟩ i

/-- Serves a size of a page or more. -/
def allocateBlock (p : Pool) (size : Nat) :
    Except Fault (Except Refusal Nat × Pool × List Event) := do
  match ← p.takeBlock size with
  | (.error refusal, p) => return (.error refusal, p, [])
  | (.ok address, p) =>
      p.checkBlock address size
      return (.ok address, p, [])

/-- A size that cannot be rounded is refused without an event. -/
def allocate (p : Pool) (size : Nat) : Except Fault (Except Refusal Nat × Pool × List Event) :=
  match roundSize size with
  | .error refusal => .ok (.error refusal, p, [])
  | .ok rounded => do
      let (result, p, events) ←
        if rounded < pageSize then p.allocateObject rounded else p.allocateBlock rounded
      let last := match result with
        | .ok address => Event.granted rounded address
        | .error _ => Event.exhausted rounded
      return (result, p, events ++ [last])

/-- Puts an object back without looking at the descriptor of its page. -/
def freeObject (p : Pool) (address : Nat) : Except Fault Pool :=
  match p with
  | ⟨buddy, caches, memory⟩ => do return ⟨buddy, caches, ← Slab.release memory address⟩

/-- Gives a block back to the page tier, and returns its order. -/
def freeBlock (p : Pool) (address : Nat) : Except Fault (Nat × Pool) :=
  match p with
  | ⟨buddy, caches, memory⟩ => do
      let (order, buddy) ← buddy.free address
      return (order, ⟨buddy, caches, memory⟩)

/-- The null address is released by doing nothing. -/
def free (p : Pool) (address : Nat) : Except Fault (Pool × List Event) := do
  if address = 0 then return (p, [])
  let d ← p.buddy.table.descriptorAt address
  if d.flags.slab then
    return (← p.freeObject address, [.objectReleased address])
  else
    let (order, p) ← p.freeBlock address
    return (p, [.blockReleased order address])

/-- The bytes that a held block really has. -/
def usableSize (p : Pool) (address : Nat) : Except Fault Nat := do
  let d ← p.buddy.table.descriptorAt address
  if d.flags.slab then return Slab.objectSize p.memory (Slab.containing address)
  Word.shiftLeft pageSize d.order.toNat

def fill (p : Pool) (start count : Nat) (byte : UInt8) : Pool :=
  { p with memory := p.memory.fill start count byte }

def copy (p : Pool) (source target count : Nat) : Pool :=
  { p with memory := p.memory.copy source target count }

/-- One event for each order, with the number of its free blocks. -/
def dump (p : Pool) : List Event :=
  p.buddy.freeCounts.toList.zipIdx.map fun (count, order) => .orderCounted order count

/-- The free blocks of one order, under a heading; nothing where there are none. -/
def listOrder (p : Pool) (count order : Nat) : Except Fault (List Event) := do
  if count = 0 then return []
  let blocks ← p.buddy.freeBlocks order p.arena.pages
  let lines ← blocks.mapM fun start => do
    return .blockListed start (← Word.add start (blockSize order))
  return .orderListed order :: lines

/-- What a successful `init` reports, after the line that announces it. -/
def openingEvents (p : Pool) : Except Fault (List Event) := do
  let counts := p.buddy.freeCounts.toList
  let listing ← counts.zipIdx.mapM fun (count, order) => p.listOrder count order
  let total := counts.foldl (· + ·) 0
  return p.arena.events ++
    .buddyOpening p.arena.pages :: .buddyReady total :: listing.flatten ++ [.poolReady]

end Pool
end BuddySlab
