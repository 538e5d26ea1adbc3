import BuddySlab.Script.Answer
import BuddySlab.Script.Command
import BuddySlab.SelfTest
import Std.Data.TreeMap

/-!
Running the commands of a script. A session holds what the commands work on: memory alone, a page
table over it, or a pool. A crash ends the session; so does a command that cannot be understood.
-/

namespace BuddySlab
namespace Script

inductive Setting
  | pool
  | arena
  | heap
  deriving DecidableEq, Repr

inductive Subject
  | vacant (memory : Memory)
  | arena (table : PageTable) (memory : Memory)
  | pool (pool : Pool)

namespace Subject

def table? : Subject → Option PageTable
  | .vacant _ => none
  | .arena table _ => some table
  | .pool p => some p.buddy.table

def pool? : Subject → Option Pool
  | .pool p => some p
  | _ => none

def memory : Subject → Memory
  | .vacant memory => memory
  | .arena _ memory => memory
  | .pool p => p.memory

def mapMemory (f : Memory → Memory) : Subject → Subject
  | .vacant memory => .vacant (f memory)
  | .arena table memory => .arena table (f memory)
  | .pool p => .pool { p with memory := f p.memory }

/-- What is left once the object is dropped: its memory, with the bytes of its table in it. -/
def retire : Subject → Memory
  | .vacant memory => memory
  | .arena table memory => table.writeImage memory
  | .pool p => p.buddy.table.writeImage p.memory

end Subject

inductive Stop
  | crashed (crash : Crash)
  | malformed (message : String)

structure Session where
  setting : Setting
  subject : Subject
  console : Console
  requests : List Nat
  /-- The locks of the pool that are held. -/
  locks : List Lock
  slots : Std.TreeMap String Nat

abbrev Run := StateT Session (Except Stop)

namespace Run

def malformed {α : Type} (message : String) : Run α := fun _ => .error (.malformed message)

def fail {α : Type} (fault : Fault) : Run α := fun s => .error (.crashed (s.console.crash fault))

def check {α : Type} : Except Fault α → Run α
  | .ok result => pure result
  | .error fault => fail fault

def write (e : Event) : Run Unit :=
  modify fun s => { s with console := s.console.write e }

def writeAll (events : List Event) : Run Unit :=
  events.forM write

def serve {α : Type} (f : Service α) : Run α := fun s =>
  match s with
  | ⟨setting, .pool pool, console, requests, locks, slots⟩ =>
      match f.run ⟨pool, console, requests, locks⟩ with
      | .ok (result, ⟨pool, console, requests, locks⟩) =>
          .ok (result, ⟨setting, .pool pool, console, requests, locks, slots⟩)
      | .error crash => .error (.crashed crash)
  | _ => .error (.malformed "no pool")

def readTable {α : Type} (f : PageTable → Except Fault α) : Run α := fun s =>
  match s.subject.table? with
  | some table =>
      match f table with
      | .ok result => .ok (result, s)
      | .error fault => .error (.crashed (s.console.crash fault))
  | none => .error (.malformed "no arena")

def updateTable (index : Nat) (f : Descriptor → Descriptor) : Run Unit := do
  let _ ← readTable (·.descriptor index)
  modify fun
    | ⟨setting, .arena table memory, console, requests, locks, slots⟩ =>
        ⟨setting, .arena (table.modify index f) memory, console, requests, locks, slots⟩
    | ⟨setting, .pool ⟨buddy, caches, memory⟩, console, requests, locks, slots⟩ =>
        ⟨setting, .pool ⟨buddy.modify index f, caches, memory⟩, console, requests, locks, slots⟩
    | s => s

def locate (p : Pointer) : Run Nat := do
  match p.target with
  | .address value => return Word.wrappingOffset value p.offset
  | .slot name =>
      match (← get).slots[name]? with
      | some value => return Word.wrappingOffset value p.offset
      | none => malformed ("unknown slot " ++ name)

def store (slot? : Option String) (address : Nat) : Run Unit :=
  match slot? with
  | none => pure ()
  | some name => modify fun s => { s with slots := s.slots.insert name address }

def hasPool : Run Bool := return (← get).subject.pool?.isSome

/-- Only the pool of a heap session stands behind the heap. -/
def heapReady : Run Bool := do
  return (← get).setting = .heap && (← hasPool)

/-- Runs `f` on an address if the client may touch `count` bytes there. -/
def access (p : Pointer) (count : Nat) (f : Nat → Run Answer) : Run Answer := do
  let address ← locate p
  if ← readTable fun table => .ok (table.arena.holds address count) then f address
  else return .noAccess

def mapMemory (f : Memory → Memory) : Run Unit := modify fun s =>
  match s with
  | ⟨setting, subject, console, requests, locks, slots⟩ =>
      ⟨setting, subject.mapMemory f, console, requests, locks, slots⟩

def updateMemory (f : Memory → Except Fault Memory) : Run Unit := do
  let memory ← check (f (← get).subject.memory)
  mapMemory fun _ => memory

def readMemory {α : Type} (f : Memory → α) : Run α := return f (← get).subject.memory

def openArena (start stop : Nat) : Run Answer := do
  let memory := (← get).subject.retire
  modify fun s => { s with subject := .vacant memory }
  match ← check (Arena.layOut start stop) with
  | .error refusal => return .refused refusal
  | .ok arena =>
      writeAll arena.events
      let memory := memory.fill arena.tableStart arena.tableSize 0
      modify fun s => { s with subject := .arena (.blank arena) memory }
      return .opened arena

def openPool (start stop : Nat) : Run Answer := do
  let memory := (← get).subject.retire
  modify fun s => { s with subject := .vacant memory }
  write (.poolOpening start)
  match ← check (Pool.init memory start stop) with
  | .error refusal => return .refused refusal
  | .ok pool =>
      writeAll (← check pool.openingEvents)
      let arena := pool.arena
      modify fun s => { s with subject := .pool pool, locks := [] }
      return .opened arena

/-- A heap takes the first range on which a pool can be made, and ignores later ones. -/
def init (start stop : Nat) : Run Answer := do
  match (← get).setting with
  | .arena => openArena start stop
  | .pool => openPool start stop
  | .heap =>
      if ← hasPool then return .done
      match ← openPool start stop with
      | .refused refusal => return .refused refusal
      | _ => return .done

def allocated (slot? : Option String) : Except Refusal Nat → Run Answer
  | .ok address => do store slot? address; return .granted address
  | .error refusal => do store slot? 0; return .refused refusal

def allocateFrom (size : Nat) (slots : String) : List Nat → Run (List Nat × Nat)
  | [] => return ([], 0)
  | i :: rest => do
      let slot := some (slots ++ toString i)
      match ← serve (Service.allocate size) with
      | .ok address =>
          store slot address
          let (addresses, failed) ← allocateFrom size slots rest
          return (address :: addresses, failed)
      | .error _ =>
          store slot 0
          let (addresses, failed) ← allocateFrom size slots rest
          return (addresses, failed + 1)

def descriptor (index : Nat) : Run Answer :=
  return .descriptor (← readTable (·.descriptor index))

def heapAllocate (layout : Layout) (slot? : Option String) (f : Layout → Service (Option Nat)) :
    Run Answer := do
  unless layout.valid do return .invalidLayout
  let address? ←
    if ← heapReady then serve (f layout)
    else do
      write (.heapNotReady layout.size)
      pure none
  store slot? (address?.getD 0)
  return .grantedOrNull address?

def heapReallocate (p : Pointer) (layout : Layout) (size : Nat) (slot? : Option String) :
    Run Answer := do
  unless layout.valid && { layout with size }.valid do return .invalidLayout
  let address ← locate p
  unless ← heapReady do return .grantedOrNull none
  match ← serve (Heap.reallocate address layout size) with
  | some moved =>
      store slot? moved
      return .grantedOrNull (some moved)
  | none => return .grantedOrNull none

def selfTest : TestSuite → Service Summary
  | .buddy => SelfTest.buddySuite
  | .slab => SelfTest.slabSuite
  | .pool => SelfTest.poolSuite
  | .all => SelfTest.run

def command : Command → Run Answer
  | .init start stop => init start stop
  | .allocate size slot? => do allocated slot? (← serve (Service.allocate size))
  | .allocateZeroed size slot? => do allocated slot? (← serve (Service.allocateZeroed size))
  | .allocateMany size count slots => do
      let (addresses, failed) ← allocateFrom size slots (List.range count)
      return .grantedMany addresses failed
  | .free p => do
      let address ← locate p
      serve (Service.free address)
      return .done
  | .freeMany slots count visit => do
      (visit.indices count).forM fun i => do
        let address ← locate ⟨.slot (slots ++ toString i), 0⟩
        serve (Service.free address)
      return .done
  | .freeObject p => do
      let address ← locate p
      updateMemory (Slab.release · address)
      return .done
  | .usable p => do
      let address ← locate p
      return .usable (← serve (Service.consult (·.usableSize address)))
  | .blocks order => do
      serve (Service.locked .pages (Service.consult fun p => do
        return .blocks (← shownBlocks p.buddy order (p.buddy.lists[order]?.elim 0 (·.count)))))
  | .cache size => do
      serve (Service.consult fun p => do
        match p.caches.cache? size with
        | some c => return .cache (some (← cacheView c p.memory p.slabLimit))
        | none => return .cache none)
  | .slabAt p => do
      let address ← locate p
      let memory := (← get).subject.memory
      return .slab (← readTable (slabAt · memory address))
  | .state => do
      match (← get).subject.pool? with
      | some p => return .state (some (← check (snapshot p)))
      | none => return .state none
  | .dump => do
      serve Service.dump
      return .done
  | .selfTest suite => return .summary (← serve (selfTest suite))
  | .arena => return .arena (← readTable fun table => .ok table.arena)
  | .indexOf p => do
      let address ← locate p
      return .index (← readTable (·.arena.indexOf address))
  | .contains p => do
      let address ← locate p
      return .inside (← readTable fun table => .ok (table.arena.contains address))
  | .holds p size => do
      let address ← locate p
      return .inside (← readTable fun table => .ok (table.arena.holds address size))
  | .addressOf index => return .address (← readTable (·.arena.addressOf index))
  | .descriptor index => descriptor index
  | .page p => do
      let address ← locate p
      return .descriptor (← readTable (·.descriptorAt address))
  | .setFree index free => do
      updateTable index (·.withFree free)
      descriptor index
  | .setOrder index order => do
      updateTable index (·.withOrder order)
      descriptor index
  | .markSlab index => do
      updateTable index (·.withSlab)
      descriptor index
  | .read p count => access p count fun address => do
      return .bytes (← readMemory (·.bytes address count))
  | .sum p count => access p count fun address => do
      return .sum (← readMemory (·.sum address count))
  | .write p bytes => access p bytes.length fun address => do
      mapMemory (·.writeBytes address bytes)
      return .done
  | .fill p count byte => access p count fun address => do
      mapMemory (·.fill address count byte)
      return .done
  | .heapAllocate layout slot? => heapAllocate layout slot? Heap.allocate
  | .heapAllocateZeroed layout slot? => heapAllocate layout slot? Heap.allocateZeroed
  | .heapFree p layout => do
      unless layout.valid do return .invalidLayout
      let address ← locate p
      if ← heapReady then serve (Service.free address)
      return .done
  | .heapReallocate p layout size slot? => heapReallocate p layout size slot?

end Run
end Script
end BuddySlab
