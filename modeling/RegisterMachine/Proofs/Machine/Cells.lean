import Mathlib.Algebra.Group.Nat.Defs
import Mathlib.Algebra.Ring.Int.Defs
import RegisterMachine.Machine.Basic

/-!
# Words and cells

How the 64-bit words move by one as long as they stay away from the ends of their range, and what
each operation of the arena does to each of its cells.
-/

set_option autoImplicit false

namespace RegisterMachine

/-! ### Words -/

namespace Word

theorem toInt_add {a b : Int64} (hlow : -2 ^ 63 ≤ a.toInt + b.toInt)
    (hhigh : a.toInt + b.toInt < 2 ^ 63) : (a + b).toInt = a.toInt + b.toInt := by
  rw [Int64.toInt_add, Int.bmod_eq_of_le (by omega) (by omega)]

theorem toInt_add_one {n : Int64} (h : n.toInt < 2 ^ 63 - 1) : (n + 1).toInt = n.toInt + 1 := by
  have hlow := n.le_toInt
  have hone : (1 : Int64).toInt = 1 := rfl
  rw [toInt_add (by omega) (by omega), hone]

theorem toInt_sub_one {n : Int64} (h : -2 ^ 63 < n.toInt) : (n - 1).toInt = n.toInt - 1 := by
  have hhigh := n.toInt_lt
  have hone : (1 : Int64).toInt = 1 := rfl
  rw [Int64.toInt_sub, hone, Int.bmod_eq_of_le (by omega) (by omega)]

theorem toInt_max (a b : Int64) : (max a b).toInt = max a.toInt b.toInt := by
  simp only [max, Int64.le_iff_toInt_le]
  split <;> rfl

end Word

/-! ### Cells -/

namespace Arena

theorem contains_iff {a : Arena} {i : Int64} :
    a.contains i ↔ 0 ≤ i.toInt ∧ i.toInt < a.size := by
  have hzero : (0 : Int64).toInt = 0 := rfl
  simp only [contains, Int64.toNatClampNeg, Bool.and_eq_true, decide_eq_true_eq,
    Int64.le_iff_toInt_le, hzero]
  omega

theorem cell?_of_nonneg {a : Arena} {i : Int64} (h : 0 ≤ i.toInt) :
    a.cell? i = a.cells[i.toNatClampNeg]? := by
  have hzero : (0 : Int64).toInt = 0 := rfl
  rw [cell?, if_neg (by rw [Int64.lt_iff_toInt_lt, hzero]; omega)]

theorem cell?_of_neg {a : Arena} {i : Int64} (h : i.toInt < 0) : a.cell? i = none := by
  have hzero : (0 : Int64).toInt = 0 := rfl
  rw [cell?, if_pos (by rw [Int64.lt_iff_toInt_lt, hzero]; omega)]

/-- Exactly the addresses inside the arena have a cell. -/
theorem isSome_cell? {a : Arena} {i : Int64} : (a.cell? i).isSome ↔ a.contains i := by
  rw [contains_iff]
  by_cases h : 0 ≤ i.toInt
  · rw [cell?_of_nonneg h, Int64.toNatClampNeg, isSome_getElem?, size]
    omega
  · rw [cell?_of_neg (by omega)]
    simp only [Option.isSome_none, Bool.false_eq_true, false_iff]
    omega

theorem contains_of_cell? {a : Arena} {i : Int64} {c : Cell} (h : a.cell? i = some c) :
    a.contains i :=
  isSome_cell?.mp (by rw [h]; rfl)

@[simp] theorem size_put (a : Arena) (i : Int64) (w : Word) : (a.put i w).size = a.size := by
  unfold put size
  split
  · rfl
  · exact Array.size_setIfInBounds

@[simp] theorem size_release (a : Arena) (i : Int64) : (a.release i).size = a.size := by
  unfold release size
  split
  · rfl
  · exact Array.size_modify

private theorem index_ne {i j : Int64} (hi : 0 ≤ i.toInt) (hj : 0 ≤ j.toInt) (h : j ≠ i) :
    i.toNatClampNeg ≠ j.toNatClampNeg := by
  intro he
  simp only [Int64.toNatClampNeg] at he
  exact h (Int64.toInt_inj.mp (by omega))

/-- A write is seen at its own address and nowhere else. -/
theorem cell?_put {a : Arena} {i : Int64} (hi : a.contains i) (w : Word) (j : Int64) :
    (a.put i w).cell? j = if j = i then some { value := w, live := true } else a.cell? j := by
  obtain ⟨hlow, hhigh⟩ := contains_iff.mp hi
  have hzero : (0 : Int64).toInt = 0 := rfl
  have hput : a.put i w = ⟨a.cells.setIfInBounds i.toNatClampNeg { value := w, live := true }⟩ := by
    rw [put, if_neg (by rw [Int64.lt_iff_toInt_lt, hzero]; omega)]
  by_cases hj : 0 ≤ j.toInt
  · rw [hput, cell?_of_nonneg hj, cell?_of_nonneg hj, Array.getElem?_setIfInBounds]
    by_cases he : j = i
    · subst he
      have hlt : j.toNatClampNeg < a.cells.size := by
        rw [Int64.toNatClampNeg]
        change j.toInt < a.cells.size at hhigh
        omega
      rw [if_pos rfl, if_pos hlt, if_pos rfl]
    · rw [if_neg (index_ne hlow hj he), if_neg he]
  · have he : j ≠ i := by rintro rfl; exact hj hlow
    rw [cell?_of_neg (by omega), cell?_of_neg (by omega), if_neg he]

/-- A release frees its own cell, which keeps its word. -/
theorem cell?_release {a : Arena} {i : Int64} (hi : a.contains i) (j : Int64) :
    (a.release i).cell? j =
      if j = i then (a.cell? j).map fun c => { c with live := false } else a.cell? j := by
  obtain ⟨hlow, hhigh⟩ := contains_iff.mp hi
  have hzero : (0 : Int64).toInt = 0 := rfl
  have hrel : a.release i =
      ⟨a.cells.modify i.toNatClampNeg fun c => { c with live := false }⟩ := by
    rw [release, if_neg (by rw [Int64.lt_iff_toInt_lt, hzero]; omega)]
  by_cases hj : 0 ≤ j.toInt
  · rw [hrel, cell?_of_nonneg hj, cell?_of_nonneg hj, Array.getElem?_modify]
    by_cases he : j = i
    · subst he
      rw [if_pos rfl, if_pos rfl]
    · rw [if_neg (index_ne hlow hj he), if_neg he]
  · have he : j ≠ i := by rintro rfl; exact hj hlow
    rw [cell?_of_neg (by omega), cell?_of_neg (by omega), if_neg he]

/-- Reading succeeds exactly at the live cells that hold a number. -/
theorem read_eq_ok {a : Arena} {i n : Int64} :
    a.read i = .ok n ↔ a.cell? i = some { value := some n, live := true } := by
  unfold read
  split <;> simp_all

/-- The search for a free cell ends at one. -/
theorem firstFree?_eq_some {a : Arena} {k : Nat} (hk : k < 2 ^ 63) (h : a.firstFree? = some k) :
    ∃ c, a.cell? (Int64.ofNat k) = some c ∧ c.live = false := by
  obtain ⟨hlt, hfree, -⟩ := Array.findIdx?_eq_some_iff_getElem.mp h
  have hint : (Int64.ofNat k).toInt = k := Int64.toInt_ofNat_of_lt hk
  refine ⟨a.cells[k], ?_, by simpa using hfree⟩
  rw [cell?_of_nonneg (by omega), Int64.toNatClampNeg, hint, Int.toNat_natCast]
  exact Array.getElem?_eq_getElem hlt

theorem firstFree_eq_ok {a : Arena} {k : Nat} : a.firstFree = .ok k ↔ a.firstFree? = some k := by
  unfold firstFree
  split <;> simp_all

theorem firstFree?_lt {a : Arena} {k : Nat} (h : a.firstFree? = some k) : k < a.size :=
  (Array.findIdx?_eq_some_iff_getElem.mp h).1

theorem size_ofSize (size : Int64) : (ofSize size).size = size.toNatClampNeg :=
  Array.size_replicate

/-- Every cell of a new arena is free and empty. -/
theorem cell?_ofSize {size i : Int64} {c : Cell} (h : (ofSize size).cell? i = some c) : c = {} := by
  by_cases hi : 0 ≤ i.toInt
  · rw [cell?_of_nonneg hi, ofSize, Array.getElem?_replicate] at h
    split at h
    · exact (Option.some.inj h).symm
    · cases h
  · rw [cell?_of_neg (by omega)] at h
    cases h

end Arena

end RegisterMachine
