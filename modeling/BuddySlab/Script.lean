import BuddySlab.Script.Session

/-!
Whole scripts and what they leave: an entry for each command that was carried out, the crash that
ended the run early, and otherwise the state at its end.
-/

namespace BuddySlab

structure Script where
  setting : Script.Setting
  /-- The range to begin with; a heap begins with none. -/
  range? : Option (Nat × Nat)
  /-- What the bytes of that range hold; zero without it. -/
  dirt? : Option UInt8
  threshold : Option Level
  requests : List Nat
  commands : List Script.Command

namespace Script

structure Entry where
  answer : Answer
  lines : Array Event
  /-- The number of free blocks of each order, where there is a pool. -/
  counts? : Option (List Nat)

structure Report where
  opening : Option Entry
  entries : List Entry
  crash? : Option Crash
  final : Option Snapshot

/-- Carries out a command on an empty console. -/
def entry (c : Command) : Run Entry := do
  modify fun s => { s with console := { s.console with lines := #[] } }
  let answer ← Run.command c
  let s ← get
  return ⟨answer, s.console.lines, s.subject.pool?.map (·.buddy.freeCounts.toList)⟩

/-- Without a page table or a pool, only a heap takes commands other than `init`. -/
def Command.runsOn (s : Session) : Command → Bool
  | .init .. => true
  | _ => s.setting == .heap || s.subject.table?.isSome

/-- The entries so far come newest first. -/
def runCommands (s : Session) :
    List Command → List Entry → Except String (List Entry × Except Crash Session)
  | [], entries => .ok (entries.reverse, .ok s)
  | c :: commands, entries =>
      if c.runsOn s then
        match (entry c).run s with
        | .ok (e, s) => runCommands s commands (e :: entries)
        | .error (.crashed crash) => .ok (entries.reverse, .error crash)
        | .error (.malformed message) => .error message
      else .ok (entries.reverse, .ok s)

def finalState (s : Session) : Except Fault (Option Snapshot) :=
  match s.subject.pool? with
  | some p => some <$> snapshot p
  | none => .ok none

def Session.begin (script : Script) : Session :=
  let memory := match script.range?, script.dirt? with
    | some (start, stop), some byte => Memory.blank.fill start (stop - start) byte
    | _, _ => Memory.blank
  { setting := script.setting
    subject := .vacant memory
    console := ⟨script.threshold, #[]⟩
    requests := script.requests
    locks := []
    slots := ∅ }

/-- Runs a script; one that cannot be understood has no report, only a message. -/
def run (script : Script) : Except String Report := do
  let opening := match script.range? with
    | some (start, stop) => [Command.init start stop]
    | none => []
  let (entries, outcome) ← runCommands (.begin script) (opening ++ script.commands) []
  let (first, rest) := match script.range? with
    | some _ => (entries.head?, entries.tail)
    | none => (none, entries)
  match outcome with
  | .error crash => return ⟨first, rest, some crash, none⟩
  | .ok s =>
      match finalState s with
      | .ok final => return ⟨first, rest, none, final⟩
      | .error fault => return ⟨first, rest, some (s.console.crash fault), none⟩

end Script
end BuddySlab
