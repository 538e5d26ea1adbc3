import BuddySlab.Word

/-!
Page numbers as the page table keeps them: 32 bits, of which the word of all ones stands for no
page.
-/

namespace BuddySlab

/-- The word that is no page number; a payload has fewer pages than this. -/
def noPage : Nat := 2 ^ 32 - 1

structure Link where
  word : UInt32
  deriving DecidableEq, Repr

namespace Link

/-- The low 32 bits of `index`. -/
def ofIndex (index : Nat) : Link := ⟨UInt32.ofNat index⟩

def none : Link := ofIndex noPage

def target? (link : Link) : Option Nat :=
  if link = none then .none else some link.word.toNat

/-- Least significant byte first. -/
def bytes (link : Link) : List UInt8 :=
  [link.word, link.word >>> 8, link.word >>> 16, link.word >>> 24].map (·.toUInt8)

theorem target?_none : none.target? = .none :=
  if_pos rfl

theorem target?_ofIndex {index : Nat} (h : index < noPage) :
    (ofIndex index).target? = some index := by
  have hword : (UInt32.ofNat index).toNat = index :=
    UInt32.toNat_ofNat_of_lt' (Nat.lt_of_lt_of_le h (by decide))
  have hne : ofIndex index ≠ none := fun heq => by
    have := congrArg (·.word.toNat) heq
    simp only [ofIndex, none, hword] at this
    exact absurd this (Nat.ne_of_lt h)
  rw [target?, if_neg hne]
  exact congrArg some hword

end Link
end BuddySlab
