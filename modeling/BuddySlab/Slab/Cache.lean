import BuddySlab.Slab

/-!
The object tier. A cache chains the slabs of one object size, newest first, and takes a page from
the page tier when none of them has a free object. A page that became a slab remains one.
-/

namespace BuddySlab

structure Cache where
  objectSize : Nat
  /-- The page of the newest slab; zero while there is none. -/
  newest : Nat
  deriving DecidableEq, Repr

namespace Cache

def empty (objectSize : Nat) : Cache := ⟨objectSize, 0⟩

def objectCount (c : Cache) : Except Fault Nat :=
  Slab.objectCount c.objectSize

/-- The slabs met from `page` on, at most `limit`. -/
def chain (m : Memory) (page : Nat) : Nat → List Nat
  | 0 => []
  | limit + 1 => if page = 0 then [] else page :: chain m (Slab.next m page) limit

def slabs (c : Cache) (m : Memory) (limit : Nat) : List Nat :=
  chain m c.newest limit

def freeObjects (c : Cache) (m : Memory) (limit : Nat) : Except Fault Nat :=
  (c.slabs m limit).foldlM (fun total page => Word.add total (Slab.freeCount m page)) 0

/-- Pops from the first slab, from `page` on, that has a free object. -/
def popFrom (m : Memory) (page : Nat) : Nat → Except Fault (Option Nat × Memory)
  | 0 => .ok (none, m)
  | limit + 1 => do
      if page = 0 then return (none, m)
      match ← Slab.pop m page with
      | (some object, m) => return (some object, m)
      | (none, m) => popFrom m (Slab.next m page) limit

/-- A slab that is ready goes to the front of the chain. -/
def publish (c : Cache) (m : Memory) (page : Nat) : Cache × Memory :=
  ({ c with newest := page }, m.writeWord (Slab.nextField page) c.newest)

/-- Formats a page as the newest slab and pops its first object. -/
def grow (c : Cache) (m : Memory) (page : Nat) : Except Fault (Nat × Cache × Memory) := do
  let m ← Slab.format m page c.objectSize
  match ← Slab.pop m page with
  | (none, _) => throw (.violation .corruptFreeList page)
  | (some object, m) =>
      let (c, m) := c.publish m page
      return (object, c, m)

end Cache

abbrev CacheSet := Vector Cache classSizes.size

namespace CacheSet

def empty : CacheSet := classSizes.map Cache.empty

/-- The position of the smallest class that holds `size` bytes. -/
def class? (s : CacheSet) (size : Nat) : Option (Fin classSizes.size) :=
  s.findFinIdx? fun c => size ≤ c.objectSize

def put (s : CacheSet) (i : Fin classSizes.size) (c : Cache) : CacheSet :=
  s.set i c

theorem get_put (s : CacheSet) (i j : Fin classSizes.size) (c : Cache) :
    (s.put i c).get j = if j = i then c else s.get j := by
  by_cases h : j = i
  · subst h
    rw [if_pos rfl]
    exact Vector.getElem_set_self _
  · rw [if_neg h]
    exact Vector.getElem_set_ne _ _ fun heq => h (Fin.ext heq.symm)

def cache? (s : CacheSet) (size : Nat) : Option Cache :=
  (s.class? size).map s.get

end CacheSet
end BuddySlab
