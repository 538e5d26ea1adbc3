import BuddySlab.Event
import BuddySlab.Word

/-!
Suites of named checks. Running a suite reports each outcome as it comes and then the totals.
-/

namespace BuddySlab

inductive Verdict
  | passed
  | failed
  | skipped
  deriving DecidableEq, Repr

structure Summary where
  passed : Nat
  failed : Nat
  skipped : Nat
  deriving DecidableEq, Repr

namespace Summary

def empty : Summary := ⟨0, 0, 0⟩

def count (s : Summary) : Verdict → Summary
  | .passed => { s with passed := s.passed + 1 }
  | .failed => { s with failed := s.failed + 1 }
  | .skipped => { s with skipped := s.skipped + 1 }

def merge (s t : Summary) : Except Fault Summary := do
  let passed ← Word.add s.passed t.passed
  let failed ← Word.add s.failed t.failed
  let skipped ← Word.add s.skipped t.skipped
  return ⟨passed, failed, skipped⟩

end Summary

def Verdict.events (name : String) : Verdict → List Event
  | .passed => [.casePassed name]
  | .failed => [.caseFailed name]
  | .skipped => [.caseSkipped, .skippedNamed name]

structure Check (m : Type → Type) where
  name : String
  run : m Verdict

namespace Check

def runAll {m : Type → Type} [Monad m] (write : Event → m PUnit) (summary : Summary) :
    List (Check m) → m Summary
  | [] => pure summary
  | check :: checks => do
      let verdict ← check.run
      (verdict.events check.name).forM write
      runAll write (summary.count verdict) checks

def runSuite {m : Type → Type} [Monad m] (write : Event → m PUnit) (name : String)
    (checks : List (Check m)) : m Summary := do
  write .suiteStarted
  write (.suiteNamed name)
  let summary ← runAll write .empty checks
  write (.passedCounted summary.passed)
  if summary.failed ≠ 0 then write (.failedCounted summary.failed)
  return summary

end Check
end BuddySlab
