import BuddySlab.Word

/-!
Sizes of pages, blocks and objects. Every request is rounded to a power of two; below a page it is
the size of one object class, from a page on it is a block of `2 ^ order` pages.
-/

namespace BuddySlab

def pageSize : Nat := 4096

def pageShift : Nat := 12

def maxOrder : Nat := 12

def orderCount : Nat := maxOrder + 1

/-- The bytes of a block of `2 ^ order` pages. -/
def blockSize (order : Nat) : Nat :=
  pageSize <<< order

def maxBlockSize : Nat := blockSize maxOrder

def minObjectSize : Nat := 8

/-- The object classes of the slab tier, ascending. -/
def classSizes : Vector Nat 9 :=
  #v[8, 16, 32, 64, 128, 256, 512, 1024, 2048]

/-- The least power of two that is not below `n`, if it is a word. -/
def nextPowerOfTwo? (n : Nat) : Option Nat :=
  if n ≤ 1 then some 1
  else if n ≤ 2 ^ 63 then some (2 ^ ((n - 1).log2 + 1))
  else none

/-- Rounds up to a power of two that is at least `floor`. -/
def roundToClass? (size floor : Nat) : Option Nat :=
  (nextPowerOfTwo? size).map (max floor)

/-- The least order whose block holds `pages` pages. -/
def orderForPages (pages : Nat) : Nat :=
  if pages ≤ 1 then 0 else (pages - 1).log2 + 1

/-- The least number of pages that hold `size` bytes. -/
def pagesFor (size : Nat) : Nat :=
  (size + (pageSize - 1)) / pageSize

/-- What a request for `size` bytes is given. -/
def roundSize (size : Nat) : Except Refusal Nat :=
  if size = 0 then .error .invalidSize
  else
    match roundToClass? size minObjectSize with
    | some rounded => if rounded ≤ maxBlockSize then .ok rounded else .error .invalidSize
    | none => .error .invalidSize

end BuddySlab
