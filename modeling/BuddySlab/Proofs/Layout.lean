import BuddySlab.Proofs.Geometry

/-!
Laying out an arena, counted in pages. Of the whole pages of a range the first hold the table, which
has a record for each of them, and the rest is the payload. The rounding of addresses says no more
than that, for every range that does not begin in the last page of the address space.
-/

namespace BuddySlab
namespace Arena

/-- The pages that a table with records for `n` pages takes. -/
def tablePages (n : Nat) : Nat :=
  (n * recordSize + (pageSize - 1)) / pageSize

/-- The arena of the pages from `first` to before `last`, counted from the start of the address
space. -/
def ofPages (first last : Nat) : Except Refusal Arena :=
  if last ≤ first + tablePages (last - first) then .error .invalidRange
  else if noPage ≤ last - (first + tablePages (last - first)) then .error .invalidRange
  else .ok
    { tableStart := first * pageSize
      pages := last - (first + tablePages (last - first))
      payloadStart := (first + tablePages (last - first)) * pageSize
      stop := last * pageSize }

theorem alignUp_pageSize {value : Nat} (h : value + pageSize < 2 ^ 64) :
    alignUp value pageSize = .ok ((value + (pageSize - 1)) / pageSize * pageSize) :=
  alignUp_two_pow (k := 12) h

theorem payloadOf_eq {start stop : Nat} (hstart : start + pageSize < 2 ^ 64)
    (hstop : stop < 2 ^ 64) :
    payloadOf start stop =
      .ok (if stop / pageSize ≤ (start + (pageSize - 1)) / pageSize +
          tablePages (stop / pageSize - (start + (pageSize - 1)) / pageSize) then none
        else some (((start + (pageSize - 1)) / pageSize +
          tablePages (stop / pageSize - (start + (pageSize - 1)) / pageSize)) * pageSize)) := by
  have hfirst := alignUp_pageSize hstart
  have hlast := alignDown_pageSize stop
  rw [Nat.mod_eq_of_lt hstop] at hlast
  rw [payloadOf, hfirst, ok_bind, hlast, ok_bind]
  generalize hf : (start + (pageSize - 1)) / pageSize = first
  generalize hl : stop / pageSize = last
  have hlt : last * pageSize < 2 ^ 64 := by
    rw [← hl]
    exact Nat.lt_of_le_of_lt (Nat.div_mul_le_self stop pageSize) hstop
  by_cases hempty : last ≤ first
  · rw [if_pos (Nat.mul_le_mul_right pageSize hempty), if_pos (by omega)]
    rfl
  · obtain ⟨n, rfl⟩ := Nat.exists_eq_add_of_lt (Nat.lt_of_not_le hempty)
    have hpages : ((first + n + 1) * pageSize - first * pageSize) / pageSize = n + 1 := by
      rw [← Nat.sub_mul, Nat.mul_div_cancel _ (by decide)]
      omega
    have hnumber : first + n + 1 - first = n + 1 := by omega
    simp only [pageSize] at hlt hempty
    have htable : first * pageSize + (n + 1) * recordSize + pageSize < 2 ^ 64 := by
      simp only [pageSize, recordSize]
      omega
    have halign : (first * pageSize + (n + 1) * recordSize + (pageSize - 1)) / pageSize * pageSize =
        (first + tablePages (n + 1)) * pageSize := by
      simp only [tablePages, pageSize, recordSize]
      omega
    rw [if_neg (by simp only [pageSize]; omega), hpages, if_neg (by omega)]
    change (alignUp _ pageSize >>= _) = _
    rw [alignUp_pageSize htable, ok_bind, halign, hnumber, pure_eq_ok]
    refine congrArg Except.ok (if_congr ?_ rfl rfl)
    exact Nat.mul_le_mul_right_iff (by decide)

/-- A range is laid out in whole pages, whatever its ends are, or refused. -/
theorem layOut_eq {start stop : Nat} (hpos : 0 < start) (hstart : start + pageSize < 2 ^ 64)
    (hstop : stop < 2 ^ 64) :
    layOut start stop = .ok (ofPages ((start + (pageSize - 1)) / pageSize) (stop / pageSize)) := by
  have hfirst := alignUp_pageSize hstart
  have hlast := alignDown_pageSize stop
  rw [Nat.mod_eq_of_lt hstop] at hlast
  rw [layOut, if_neg (Nat.ne_of_gt hpos)]
  simp only [payloadOf_eq hstart hstop, ok_bind, hfirst, hlast, ofPages]
  generalize (start + (pageSize - 1)) / pageSize = first, stop / pageSize = last
  by_cases hfull : last ≤ first + tablePages (last - first)
  · rw [if_pos hfull, if_pos hfull]
    rfl
  · rw [if_neg hfull, if_neg hfull]
    simp only [← Nat.sub_mul, Nat.mul_div_cancel _ (show 0 < pageSize by decide), pure_eq_ok]
    split <;> rfl

end Arena
end BuddySlab
