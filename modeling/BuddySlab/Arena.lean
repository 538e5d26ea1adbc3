import BuddySlab.Alignment
import BuddySlab.Link
import BuddySlab.Size

/-!
Geometry of a managed range. The whole pages of the range are split into the page table, which comes
first, and the payload, whose pages are numbered from zero. An address or a number outside the
payload is a broken invariant, never a caller's mistake.
-/

namespace BuddySlab

/-- Bytes of one page record in the table. -/
def recordSize : Nat := 12

structure Arena where
  tableStart : Nat
  pages : Nat
  payloadStart : Nat
  stop : Nat
  deriving DecidableEq, Repr

namespace Arena

/-- Where the payload of the range begins, if a page is left over behind the table. -/
def payloadOf (start stop : Nat) : Except Fault (Option Nat) := do
  let start ← alignUp start pageSize
  let stop ← alignDown stop pageSize
  if stop ≤ start then return none
  let tableStop := start + (stop - start) / pageSize * recordSize
  if 2 ^ 64 ≤ tableStop then return none
  let payloadStart ← alignUp tableStop pageSize
  return if stop ≤ payloadStart then none else some payloadStart

/-- Refused when the range begins at the null address, cannot hold the table and one page of
payload, or has more pages than a link can name. -/
def layOut (start stop : Nat) : Except Fault (Except Refusal Arena) := do
  if start = 0 then return .error .invalidAddress
  match ← payloadOf start stop with
  | none => return .error .invalidRange
  | some payloadStart =>
      let tableStart ← alignUp start pageSize
      let stop ← alignDown stop pageSize
      let pages := (stop - payloadStart) / pageSize
      if noPage ≤ pages then return .error .invalidRange
      return .ok { tableStart, pages, payloadStart, stop }

def tableSize (a : Arena) : Nat :=
  a.pages * recordSize

def contains (a : Arena) (address : Nat) : Bool :=
  a.payloadStart ≤ address && address < a.stop

/-- Whether a whole block lies in the payload. -/
def holds (a : Arena) (address size : Nat) : Bool :=
  a.payloadStart ≤ address && address + size < 2 ^ 64 && address + size ≤ a.stop

/-- The number of the page that begins at an address. -/
def indexOf (a : Arena) (address : Nat) : Except Fault Nat := do
  unless ← isAligned address pageSize do throw (.violation .misalignedAddress address)
  unless a.contains address do throw (.violation .outOfBounds address)
  return (address - a.payloadStart) / pageSize

def addressOf (a : Arena) (index : Nat) : Except Fault Nat := do
  unless index < a.pages do throw (.violation .outOfBounds index)
  Word.add a.payloadStart (← Word.shiftLeft index pageShift)

/-- The number of the page that an address lies in. -/
def pageOf (a : Arena) (address : Nat) : Except Fault Nat := do
  a.indexOf (← alignDown address pageSize)

end Arena
end BuddySlab
