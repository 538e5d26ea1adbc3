import BuddySlab.Arena
import BuddySlab.Descriptor
import BuddySlab.Memory

/-!
The page table: one record for each page of an arena.
-/

namespace BuddySlab

structure PageTable where
  arena : Arena
  entries : Array Descriptor
  size_entries : entries.size = arena.pages

namespace PageTable

def blank (arena : Arena) : PageTable :=
  ⟨arena, Array.replicate arena.pages .blank, Array.size_replicate⟩

def descriptor (t : PageTable) (index : Nat) : Except Fault Descriptor :=
  if h : index < t.entries.size then .ok t.entries[index]
  else .error (.violation .outOfBounds index)

def modify (t : PageTable) (index : Nat) (f : Descriptor → Descriptor) : PageTable :=
  { t with
    entries := t.entries.modify index f
    size_entries := by rw [Array.size_modify, t.size_entries] }

def descriptorAt (t : PageTable) (address : Nat) : Except Fault Descriptor := do
  t.descriptor (← t.arena.pageOf address)

/-- Leaves the table's bytes in memory, where a later arena may take them for payload. -/
def writeImage (t : PageTable) (m : Memory) : Memory :=
  m.writeBytes t.arena.tableStart (t.entries.toList.flatMap Descriptor.image)

end PageTable
end BuddySlab
