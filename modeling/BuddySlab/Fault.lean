/-!
How a call can end other than with its result. A refusal is an answer the caller can act on and
leaves everything as it was. A fault stops the machine: the allocator found one of its invariants
broken, a 64-bit computation had no result, or a lock is waited for that nobody will open.
-/

namespace BuddySlab

inductive Refusal
  | outOfMemory
  | invalidSize
  | invalidRange
  | invalidAddress
  deriving DecidableEq, Repr

namespace Refusal

def text : Refusal → String
  | .outOfMemory => "sem bloco livre de ordem suficiente"
  | .invalidSize => "tamanho zero ou acima de 16 MiB"
  | .invalidRange => "faixa pequena demais para metadados + 1 página"
  | .invalidAddress => "faixa começa no endereço nulo"

end Refusal

/-- The invariants that the allocator checks while it works. -/
inductive Violation
  | misalignedAddress
  | splitOrderZero
  | outOfBounds
  | corruptFreeList
  | slabOwned
  deriving DecidableEq, Repr

namespace Violation

def text : Violation → String
  | .misalignedAddress => "endereço não alinhado a página"
  | .splitOrderZero => "split de bloco de ordem 0"
  | .outOfBounds => "bloco fora dos limites do pool"
  | .corruptFreeList => "free list corrompida"
  | .slabOwned => "página de slab liberada no Buddy"

end Violation

/-- The 64-bit operations whose result may not exist. -/
inductive Operation
  | add
  | subtract
  | multiply
  | shiftLeft
  deriving DecidableEq, Repr

def Operation.phrase : Operation → String
  | .add => "add"
  | .subtract => "subtract"
  | .multiply => "multiply"
  | .shiftLeft => "shift left"

inductive Fault
  /-- A broken invariant, with the address, index or order that showed it. -/
  | violation (cause : Violation) (value : Nat)
  | overflow (operation : Operation)
  | indexOutOfBounds (size index : Nat)
  /-- A lock is waited for by the call that holds it; the machine hangs without a word. -/
  | deadlock
  deriving DecidableEq, Repr

/-- Lowercase, without leading zeros. -/
def hex (n : Nat) : String :=
  "0x" ++ String.ofList (Nat.toDigits 16 n)

def Fault.message : Fault → String
  | .violation cause value => "PMM: " ++ cause.text ++ " (" ++ hex value ++ ")"
  | .overflow operation => "attempt to " ++ operation.phrase ++ " with overflow"
  | .indexOutOfBounds size index =>
      "index out of bounds: the len is " ++ toString size ++ " but the index is " ++ toString index
  | .deadlock => "deadlock"

end BuddySlab
