import BuddySlab.PageTable

/-!
The free lists of the page tier, one for each order. A list is threaded through the records of the
pages that head its blocks: a head and a count are kept here, the neighbours in the page table. New
blocks go in front, and a block can leave from any place.
-/

namespace BuddySlab

structure FreeList where
  head : Link
  count : Nat
  deriving DecidableEq, Repr

def FreeList.empty : FreeList := ⟨.none, 0⟩

structure Buddy where
  table : PageTable
  lists : Vector FreeList orderCount

namespace Buddy

def arena (b : Buddy) : Arena :=
  b.table.arena

def list (b : Buddy) (order : Nat) : Except Fault FreeList :=
  if h : order < orderCount then .ok b.lists[order]
  else .error (.indexOutOfBounds orderCount order)

def setList (b : Buddy) (order : Nat) (list : FreeList) : Buddy :=
  { b with lists := b.lists.setIfInBounds order list }

def modify (b : Buddy) (index : Nat) (f : Descriptor → Descriptor) : Buddy :=
  { b with table := b.table.modify index f }

def update (b : Buddy) (index : Nat) (f : Descriptor → Descriptor) : Except Fault Buddy :=
  if index < b.table.entries.size then .ok (b.modify index f)
  else .error (.violation .outOfBounds index)

/-- The same for a link, where no page means no change. -/
def updateLinked (b : Buddy) (link : Link) (f : Descriptor → Descriptor) : Except Fault Buddy :=
  match link.target? with
  | some index => b.update index f
  | none => .ok b

def push (b : Buddy) (index order : Nat) : Except Fault Buddy := do
  let list ← b.list order
  let b ← b.update index fun d => (d.withPrev .none).withNext list.head
  let b ← b.updateLinked list.head (·.withPrev (.ofIndex index))
  let count ← Word.add list.count 1
  return b.setList order ⟨.ofIndex index, count⟩

/-- A block without a predecessor has to be the head of its list, and a list that has a block has to
count it. -/
def unlink (b : Buddy) (index order : Nat) : Except Fault Buddy := do
  let d ← b.table.descriptor index
  let list ← b.list order
  if d.prev = .none ∧ list.head ≠ .ofIndex index then
    throw (.violation .corruptFreeList (← b.arena.addressOf index))
  let head := if d.prev = .none then d.next else list.head
  let b ← b.updateLinked d.prev (·.withNext d.next)
  let b ← b.updateLinked d.next (·.withPrev d.prev)
  if list.count = 0 then throw (.violation .corruptFreeList order)
  let b := b.setList order ⟨head, list.count - 1⟩
  return b.modify index fun d => (d.withPrev .none).withNext .none

def pop (b : Buddy) (order : Nat) : Except Fault (Option Nat × Buddy) := do
  let list ← b.list order
  match list.head.target? with
  | none => return (none, b)
  | some index => return (some index, ← b.unlink index order)

/-- The first `limit` page numbers met from `link` on. -/
def follow (b : Buddy) (link : Link) : Nat → Except Fault (List Nat)
  | 0 => .ok []
  | limit + 1 =>
      match link.target? with
      | none => .ok []
      | some index => do
          let d ← b.table.descriptor index
          return index :: (← b.follow d.next limit)

/-- The addresses of the first `limit` blocks on the list of an order, head first; none for an order
that has no list. -/
def freeBlocks (b : Buddy) (order limit : Nat) : Except Fault (List Nat) := do
  let head := b.lists[order]?.elim Link.none (·.head)
  (← b.follow head limit).mapM b.arena.addressOf

def freeCounts (b : Buddy) : Vector Nat orderCount :=
  b.lists.map (·.count)

/-- The bytes of all free blocks. -/
def freeBytes (b : Buddy) : Except Fault Nat :=
  b.freeCounts.toList.zipIdx.foldlM
    (fun total (count, order) => do Word.add total (← Word.multiply count (blockSize order))) 0

end Buddy
end BuddySlab
