import BuddySlab.Buddy.FreeList

/-!
The page tier: blocks of `2 ^ order` pages, aligned to their size. A block is split in halves until
it fits a request; a released block is joined with the other half of its pair as long as that half
is free as a whole.
-/

namespace BuddySlab
namespace Buddy

/-- Turns the upper half of the block headed by `index` into a free block of its own. -/
def halve (b : Buddy) (index : Nat) : Except Fault Buddy := do
  let d ← b.table.descriptor index
  let order := d.order.toNat
  if order = 0 then throw (.violation .splitOrderZero (← b.arena.addressOf index))
  let half := order - 1
  let right ← Word.add index (← Word.shiftLeft 1 half)
  let b ← b.update index fun d => (d.withOrder half).withFree false
  let b ← b.update right fun d => (d.withOrder half).withFree true
  b.push right half

/-- Each round lowers the order by one. -/
def halveDown (b : Buddy) (index target : Nat) : Nat → Except Fault Buddy
  | 0 => .ok b
  | rounds + 1 => do
      let d ← b.table.descriptor index
      if d.order.toNat ≤ target then return b
      (← b.halve index).halveDown index target rounds

/-- An order is one byte, so 255 rounds reach any target. -/
def split (b : Buddy) (index target : Nat) : Except Fault Buddy :=
  b.halveDown index target 255

/-- Takes the head of the first list that has one. -/
def popFirst (b : Buddy) : List Nat → Except Fault (Option Nat × Buddy)
  | [] => .ok (none, b)
  | order :: orders => do
      match ← b.pop order with
      | (some index, b) => return (some index, b)
      | (none, b) => b.popFirst orders

/-- Takes a block of one order, splitting a larger one where that order has none. -/
def takeOrder (b : Buddy) (order : Nat) : Except Fault (Except Refusal Nat × Buddy) := do
  if maxOrder < order then return (.error .invalidSize, b)
  match ← b.popFirst (List.range' order (orderCount - order)) with
  | (none, b) => return (.error .outOfMemory, b)
  | (some index, b) =>
      let b ← b.update index (·.withFree false)
      let b ← b.split index order
      return (.ok (← b.arena.addressOf index), b)

/-- Takes the smallest block that holds `size` bytes. -/
def allocate (b : Buddy) (size : Nat) : Except Fault (Except Refusal Nat × Buddy) :=
  if size = 0 then .ok (.error .invalidSize, b)
  else b.takeOrder (orderForPages (pagesFor size))

/-- The other half of the pair that a block belongs to, if it lies in the payload and is one free
block of the same order. -/
def freeBuddy? (b : Buddy) (index order : Nat) : Except Fault (Option Nat) := do
  let address ← b.arena.addressOf index
  let other := address ^^^ blockSize order
  unless b.arena.holds other (blockSize order) do return none
  let other ← b.arena.indexOf other
  let d ← b.table.descriptor other
  return if d.flags.free && d.order.toNat = order then some other else none

/-- Joins the block with its free buddies, at most one for each round, and returns the head and the
order of the result, which is on no list yet. -/
def coalesce (b : Buddy) (index order : Nat) : Nat → Except Fault (Buddy × Nat × Nat)
  | 0 => .ok (b, index, order)
  | rounds + 1 => do
      match ← b.freeBuddy? index order with
      | none => return (b, index, order)
      | some other =>
          let b ← b.unlink other order
          let b ← b.update other (·.withFree false)
          b.coalesce (min index other) (order + 1) rounds

/-- Gives back the block that a page heads. -/
def giveBack (b : Buddy) (index : Nat) : Except Fault Buddy := do
  let d ← b.table.descriptor index
  let order := d.order.toNat
  let (b, head, order) ← b.coalesce index order (maxOrder - order)
  let b ← b.update head fun d => (d.withOrder order).withFree true
  b.push head order

/-- Also returns the order of the block as it was held, before any joining. -/
def free (b : Buddy) (address : Nat) : Except Fault (Nat × Buddy) := do
  let index ← b.arena.indexOf address
  let d ← b.table.descriptor index
  if d.flags.slab then throw (.violation .slabOwned address)
  return (d.order.toNat, ← b.giveBack index)

def flagSlab (b : Buddy) (address : Nat) : Except Fault Buddy := do
  b.update (← b.arena.indexOf address) (·.withSlab)

/-- All pages of a fresh table are given back one by one, in ascending order. -/
def init (table : PageTable) : Except Fault Buddy :=
  (List.range table.arena.pages).foldlM giveBack ⟨table, Vector.replicate orderCount .empty⟩

end Buddy
end BuddySlab
