import Std.Data.TreeMap

/-!
A store of bytes in chunks that exist only once written, so that filling a long range costs one step
per chunk. The laws say what each operation does to `read`.
-/

namespace BuddySlab

def chunkSize : Nat := 4096

theorem chunkSize_pos : 0 < chunkSize := by decide

/-- Where an address lies in its chunk. -/
def chunkOffset (address : Nat) : Fin chunkSize :=
  ⟨address % chunkSize, Nat.mod_lt _ chunkSize_pos⟩

/-- The chunks written so far, by number; all others hold zeros. -/
structure Chunks where
  written : Std.TreeMap Nat (Vector UInt8 chunkSize)

namespace Chunks

def blank : Chunks := ⟨∅⟩

def chunk (c : Chunks) (index : Nat) : Vector UInt8 chunkSize :=
  c.written.getD index (Vector.replicate chunkSize 0)

def read (c : Chunks) (address : Nat) : UInt8 :=
  (c.chunk (address / chunkSize))[chunkOffset address]

def write (c : Chunks) (address : Nat) (byte : UInt8) : Chunks :=
  ⟨c.written.alter (address / chunkSize) fun chunk? =>
    some ((chunk?.getD (Vector.replicate chunkSize 0)).set (chunkOffset address) byte)⟩

theorem read_blank (address : Nat) : blank.read address = 0 := by
  simp [blank, read, chunk]

theorem chunk_write (c : Chunks) (a : Nat) (byte : UInt8) (k : Nat) :
    (c.write a byte).chunk k =
      if k = a / chunkSize then (c.chunk k).set (chunkOffset a) byte else c.chunk k := by
  unfold chunk write
  rw [Std.TreeMap.getD_alter]
  by_cases hk : k = a / chunkSize
  · subst hk; simp [Std.TreeMap.getD_eq_getD_getElem?]
  · rw [if_neg (by simpa using Ne.symm hk), if_neg hk]

theorem read_write (c : Chunks) (a : Nat) (byte : UInt8) (x : Nat) :
    (c.write a byte).read x = if x = a then byte else c.read x := by
  have hdiv := Nat.div_add_mod x chunkSize
  have hdiv' := Nat.div_add_mod a chunkSize
  unfold read
  simp only [chunk_write]
  by_cases hc : x / chunkSize = a / chunkSize
  · simp only [if_pos hc, Fin.getElem_fin, Vector.getElem_set, chunkOffset]
    rw [hc] at hdiv
    split <;> split <;> first | rfl | omega
  · have hx : x ≠ a := fun h => hc (by rw [h])
    simp only [if_neg hc, if_neg hx]

def fillBytes (c : Chunks) (start count : Nat) (byte : UInt8) : Chunks :=
  count.fold (fun i _ c => c.write (start + i) byte) c

theorem read_fillBytes (c : Chunks) (start count : Nat) (byte : UInt8) (x : Nat) :
    (c.fillBytes start count byte).read x =
      if start ≤ x ∧ x < start + count then byte else c.read x := by
  unfold fillBytes
  induction count with
  | zero => rw [if_neg (by omega)]; simp
  | succ n ih => rw [Nat.fold_succ, read_write, ih]; grind

/-- All the chunks share one vector until one of them is written. -/
def fillChunks (c : Chunks) (start count : Nat) (byte : UInt8) : Chunks :=
  let whole := Vector.replicate chunkSize byte
  ⟨count.fold (fun i _ chunks => chunks.insert (start + i) whole) c.written⟩

theorem chunk_fillChunks (c : Chunks) (start count : Nat) (byte : UInt8) (k : Nat) :
    (c.fillChunks start count byte).chunk k =
      if start ≤ k ∧ k < start + count then Vector.replicate chunkSize byte else c.chunk k := by
  unfold fillChunks chunk
  induction count with
  | zero => rw [if_neg (by omega)]; simp
  | succ n ih =>
      simp only at ih ⊢
      rw [Nat.fold_succ, Std.TreeMap.getD_insert, ih]
      simp only [Nat.compare_eq_eq]
      grind

theorem read_fillChunks (c : Chunks) (start count : Nat) (byte : UInt8) (x : Nat) :
    (c.fillChunks start count byte).read x =
      if start * chunkSize ≤ x ∧ x < (start + count) * chunkSize then byte else c.read x := by
  have hlow : start * chunkSize ≤ x ↔ start ≤ x / chunkSize :=
    (Nat.le_div_iff_mul_le chunkSize_pos).symm
  have hhigh : x < (start + count) * chunkSize ↔ x / chunkSize < start + count :=
    (Nat.div_lt_iff_lt_mul chunkSize_pos).symm
  unfold read
  simp only [chunk_fillChunks, hlow, hhigh]
  split <;> simp

/-- Sets `count` bytes: single bytes up to a chunk boundary, whole chunks, single bytes again. -/
def fill (c : Chunks) (start count : Nat) (byte : UInt8) : Chunks :=
  let first := (start + (chunkSize - 1)) / chunkSize
  let last := (start + count) / chunkSize
  if first < last then
    let c := c.fillBytes start (first * chunkSize - start) byte
    let c := c.fillChunks first (last - first) byte
    c.fillBytes (last * chunkSize) (start + count - last * chunkSize) byte
  else
    c.fillBytes start count byte

theorem read_fill (c : Chunks) (start count : Nat) (byte : UInt8) (x : Nat) :
    (c.fill start count byte).read x =
      if start ≤ x ∧ x < start + count then byte else c.read x := by
  unfold fill
  by_cases h : (start + (chunkSize - 1)) / chunkSize < (start + count) / chunkSize
  · simp only [if_pos h, read_fillBytes, read_fillChunks]
    simp only [chunkSize] at h ⊢
    grind
  · simp only [if_neg h, read_fillBytes]

end Chunks
end BuddySlab
