import BuddySlab.Event

/-!
A console keeps the lines up to its level, in the order in which they are written. A broken
invariant prints a banner before the machine stops; the lines up to that point survive it.
-/

namespace BuddySlab

structure Console where
  /-- The least urgent level that is kept; with none the console keeps nothing. -/
  threshold : Option Level
  lines : Array Event
  deriving Repr

/-- A machine stopped by a fault, with the lines written until then. -/
structure Crash where
  fault : Fault
  lines : Array Event
  deriving Repr

/-- What the fault prints; only a broken invariant prints anything. -/
def Fault.banner : Fault → List Event
  | .violation cause value =>
      [.bannerRule, .bannerTitle, .bannerRule, .bannerCause cause, .bannerValue value, .bannerRule]
  | _ => []

namespace Console

def keeps (c : Console) (e : Event) : Bool :=
  match c.threshold with
  | some level => e.level.rank ≤ level.rank
  | none => false

def write (c : Console) (e : Event) : Console :=
  if c.keeps e then { c with lines := c.lines.push e } else c

def writeAll (c : Console) (events : List Event) : Console :=
  events.foldl write c

def crash (c : Console) (fault : Fault) : Crash :=
  ⟨fault, (c.writeAll fault.banner).lines⟩

end Console
end BuddySlab
