import BuddySlab.Script.View
import BuddySlab.Suite

/-!
The answers to commands.
-/

namespace BuddySlab
namespace Script

inductive Answer
  | done
  | opened (arena : Arena)
  | refused (refusal : Refusal)
  | granted (address : Nat)
  | grantedOrNull (address? : Option Nat)
  | grantedMany (addresses : List Nat) (failed : Nat)
  | usable (size : Nat)
  | blocks (addresses : List Nat)
  | cache (view : Option CacheView)
  | slab (view : Option SlabView)
  | state (snapshot : Option Snapshot)
  | summary (summary : Summary)
  | arena (arena : Arena)
  | index (index : Nat)
  | inside (inside : Bool)
  | address (address : Nat)
  | descriptor (d : Descriptor)
  | bytes (bytes : List UInt8)
  | sum (total : Nat)
  | noAccess
  | invalidLayout
  deriving Repr

end Script
end BuddySlab
