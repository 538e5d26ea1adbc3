import BuddySlab.Console
import BuddySlab.Pool

/-!
A pool in service. What its parts keep is under locks; while one call runs no other does, so a lock
that is held is waited for in vain. A line goes to the console at the point of the call where it is
written, and the console's logger may itself use the pool there, before the call goes on: for each
line it keeps, errors apart, it asks for a fixed list of sizes and gives back at once what it got.
The lines of these calls are dropped.
-/

namespace BuddySlab

inductive Lock
  /-- The page tier. -/
  | pages
  /-- The front of the chain of slabs of a class. -/
  | chain (i : Fin classSizes.size)
  /-- The free objects of a slab. -/
  | slab (page : Nat)
  deriving DecidableEq, Repr

structure Station where
  pool : Pool
  console : Console
  /-- The sizes that the logger asks for with each line. -/
  requests : List Nat
  /-- The locks that are held. -/
  locks : List Lock

/-- A run at a station. A crash keeps the lines and nothing else. -/
abbrev Service := StateT Station (Except Crash)

namespace Service

/-- Runs a pool operation that reports nothing. -/
def operate {α : Type} (f : Pool → Except Fault (α × Pool)) : Service α := fun s =>
  match s with
  | ⟨pool, console, requests, locks⟩ =>
      match f pool with
      | .ok (result, pool) => .ok (result, ⟨pool, console, requests, locks⟩)
      | .error fault => .error (console.crash fault)

/-- Computes something from the pool without changing it. -/
def consult {α : Type} (f : Pool → Except Fault α) : Service α := fun s =>
  match f s.pool with
  | .ok result => .ok (result, s)
  | .error fault => .error (s.console.crash fault)

/-- Does something with a lock held, and opens the lock again. -/
def locked {α : Type} (lock : Lock) (f : Service α) : Service α := fun s =>
  match s with
  | ⟨pool, console, requests, locks⟩ =>
      if lock ∈ locks then .error (console.crash .deadlock)
      else
        match f ⟨pool, console, requests, lock :: locks⟩ with
        | .ok (result, ⟨pool, console, requests, locks⟩) =>
            .ok (result, ⟨pool, console, requests, locks.erase lock⟩)
        | .error crash => .error crash

/-- What becomes of a line when a call comes to it. -/
abbrev Emitter := Event → Service Unit

/-- Pops from the first slab, from `page` on, that has a free object. The chain is followed without
its lock, and each slab is locked while it is looked at. -/
def popFrom (page : Nat) : Nat → Service (Option Nat)
  | 0 => pure none
  | limit + 1 => do
      if page = 0 then return none
      match ← locked (.slab page) (operate (·.onMemory (Slab.pop · page))) with
      | some object => return some object
      | none =>
          let next ← consult fun p => .ok (Slab.next p.memory page)
          popFrom next limit

/-- A new slab is reached by nobody else until it is published, and its line comes after that. -/
def openSlab (emit : Emitter) (i : Fin classSizes.size) (page : Nat) : Service Nat := do
  let size ← consult fun p => .ok (p.caches.get i).objectSize
  operate (·.onMemory fun m => return ((), ← Slab.format m page size))
  match ← locked (.slab page) (operate (·.onMemory (Slab.pop · page))) with
  | none => consult fun _ => .error (.violation .corruptFreeList page)
  | some object =>
      locked (.chain i) (operate fun p => .ok ((), p.publish i page))
      emit (.slabCreated page size)
      return object

def growCache (emit : Emitter) (i : Fin classSizes.size) : Service (Except Refusal Nat) := do
  match ← locked .pages (operate (·.takePage)) with
  | .error refusal => return .error refusal
  | .ok page => return .ok (← openSlab emit i page)

def allocateObject (emit : Emitter) (size : Nat) : Service (Except Refusal Nat) := do
  match ← consult fun p => .ok (p.caches.class? size) with
  | none => return .error .invalidSize
  | some i =>
      let (newest, limit) ← consult fun p => .ok ((p.caches.get i).newest, p.slabLimit)
      match ← popFrom newest limit with
      | some object => return .ok object
      | none => growCache emit i

def allocateBlock (size : Nat) : Service (Except Refusal Nat) := do
  match ← locked .pages (operate (·.takeBlock size)) with
  | .error refusal => return .error refusal
  | .ok address =>
      consult (·.checkBlock address size)
      return .ok address

def allocateVia (emit : Emitter) (size : Nat) : Service (Except Refusal Nat) := do
  match roundSize size with
  | .error refusal => return .error refusal
  | .ok rounded =>
      let result ← if rounded < pageSize then allocateObject emit rounded else allocateBlock rounded
      emit <| match result with
        | .ok address => .granted rounded address
        | .error _ => .exhausted rounded
      return result

def freeVia (emit : Emitter) (address : Nat) : Service Unit := do
  if address = 0 then return
  let d ← consult (·.buddy.table.descriptorAt address)
  if d.flags.slab then
    locked (.slab (Slab.containing address)) (operate fun p => return ((), ← p.freeObject address))
    emit (.objectReleased address)
  else
    let order ← locked .pages (operate (·.freeBlock address))
    emit (.blockReleased order address)

/-- The bytes asked for are cleared after the lines are written. -/
def allocateZeroedVia (emit : Emitter) (size : Nat) : Service (Except Refusal Nat) := do
  match ← allocateVia emit size with
  | .error refusal => return .error refusal
  | .ok address =>
      operate fun p => .ok ((), p.fill address size 0)
      return .ok address

/-- The lock is open again when the lines are written. -/
def dumpVia (emit : Emitter) : Service Unit := do
  let lines ← locked .pages (consult fun p => .ok p.dump)
  lines.forM emit

/-- Drops the line. -/
def mute : Emitter := fun _ => pure ()

/-- Allocates each size and frees it before the next. -/
def allocateAndFree : List Nat → Service Unit
  | [] => pure ()
  | size :: sizes => do
      match ← allocateVia mute size with
      | .error _ => pure ()
      | .ok address => freeVia mute address
      allocateAndFree sizes

/-- The logger makes its requests with the locks of the call that writes the line. -/
def write : Emitter := fun e s =>
  match s with
  | ⟨pool, console, requests, locks⟩ =>
      let kept := console.keeps e && e.level != .error
      let console := console.write e
      if kept then
        match allocateAndFree requests ⟨pool, console, requests, locks⟩ with
        | .ok ((), station) => .ok ((), station)
        | .error crash => .error ⟨crash.fault, console.lines⟩
      else .ok ((), ⟨pool, console, requests, locks⟩)

def allocate (size : Nat) : Service (Except Refusal Nat) :=
  allocateVia write size

def free (address : Nat) : Service Unit :=
  freeVia write address

def allocateZeroed (size : Nat) : Service (Except Refusal Nat) :=
  allocateZeroedVia write size

def dump : Service Unit :=
  dumpVia write

def freeCounts : Service (Vector Nat orderCount) :=
  locked .pages (consult fun p => .ok p.buddy.freeCounts)

end Service
end BuddySlab
