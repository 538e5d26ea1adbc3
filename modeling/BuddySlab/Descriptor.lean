import BuddySlab.Link

/-!
The record kept for each payload page: whether a free block starts there, whether the page is a
slab, the order of the block it heads and its neighbours on a free list.
-/

namespace BuddySlab

structure Flags where
  free : Bool
  slab : Bool
  deriving DecidableEq, Repr

namespace Flags

def empty : Flags := ⟨false, false⟩

def all : Flags := ⟨true, true⟩

def bits (f : Flags) : Nat :=
  f.free.toNat + 2 * f.slab.toNat

/-- Bits that stand for no flag are dropped. -/
def ofBits (n : Nat) : Flags :=
  ⟨n.testBit 0, n.testBit 1⟩

def ofBits? (n : Nat) : Option Flags :=
  if n = (ofBits n).bits then some (ofBits n) else none

def complement (f : Flags) : Flags :=
  ⟨!f.free, !f.slab⟩

def text : Flags → String
  | ⟨false, false⟩ => "BlockFlags(0x0)"
  | ⟨true, false⟩ => "BlockFlags(FREE)"
  | ⟨false, true⟩ => "BlockFlags(SLAB)"
  | ⟨true, true⟩ => "BlockFlags(FREE | SLAB)"

end Flags

structure Descriptor where
  flags : Flags
  order : UInt8
  prev : Link
  next : Link
  deriving DecidableEq, Repr

namespace Descriptor

/-- A record of zero bytes: not free, no slab, order zero. Its links name page zero and mean nothing
until the page is put on a list. -/
def blank : Descriptor := ⟨.empty, 0, .ofIndex 0, .ofIndex 0⟩

def withFree (d : Descriptor) (free : Bool) : Descriptor :=
  { d with flags := { d.flags with free } }

def withSlab (d : Descriptor) : Descriptor :=
  { d with flags := { d.flags with slab := true } }

/-- Keeps the low byte of `order`. -/
def withOrder (d : Descriptor) (order : Nat) : Descriptor :=
  { d with order := UInt8.ofNat order }

def withPrev (d : Descriptor) (prev : Link) : Descriptor :=
  { d with prev }

def withNext (d : Descriptor) (next : Link) : Descriptor :=
  { d with next }

/-- The twelve bytes of the record: flags, order, two unused bytes and the links. -/
def image (d : Descriptor) : List UInt8 :=
  [UInt8.ofNat d.flags.bits, d.order, 0, 0] ++ d.prev.bytes ++ d.next.bytes

end Descriptor
end BuddySlab
