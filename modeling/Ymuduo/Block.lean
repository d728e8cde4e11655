/-
  Ymuduo/Block.lean
  =================
  **Blocks of memory as lists: slices, stores, overlapping copies, resizing.**

  A block is a list of cells.  `slice xs i j` reads the half-open range `[i, j)`,
  `store` overwrites a range and fails when it would run past the end, `move` is
  a forward copy inside one block, which is undefined when the destination lies
  inside the source range, and `resize` is the container's `resize`.
-/
import Mathlib.Data.List.Basic

namespace Ymuduo.Block

variable {α : Type*}

/-- The cells `[i, j)` of the block. -/
def slice (xs : List α) (i j : Nat) : List α := (xs.drop i).take (j - i)

/-- Overwrite the cells from `i` on with `ys`; `none` if they are not all inside. -/
def store (xs : List α) (i : Nat) (ys : List α) : Option (List α) :=
  if i + ys.length ≤ xs.length then
    some (xs.take i ++ ys ++ xs.drop (i + ys.length))
  else none

/-- Copy `[first, last)` forward to `dst`, cell by cell.  Undefined (`none`) when
    `dst` lies in `[first, last)`; for a destination before the source the cells
    are read before they are overwritten, so the original slice arrives. -/
def move (xs : List α) (first last dst : Nat) : Option (List α) :=
  if first ≤ dst ∧ dst < last then none else store xs dst (slice xs first last)

/-- Cut the block to `n` cells, or fill it up to `n` cells with `a`. -/
def resize (xs : List α) (n : Nat) (a : α) : List α :=
  xs.take n ++ List.replicate (n - xs.length) a

/-! ### Slices -/

@[simp] theorem slice_self (xs : List α) (i : Nat) : slice xs i i = [] := by
  simp [slice]

theorem length_slice {xs : List α} {i j : Nat} (hj : j ≤ xs.length) :
    (slice xs i j).length = j - i := by
  simp only [slice, List.length_take, List.length_drop]
  omega

theorem take_slice {xs : List α} {i j n : Nat} (h : i + n ≤ j) :
    (slice xs i j).take n = slice xs i (i + n) := by
  simp only [slice, List.take_take]
  congr 1
  omega

theorem drop_slice (xs : List α) (i j n : Nat) :
    (slice xs i j).drop n = slice xs (i + n) j := by
  simp only [slice, List.drop_take, List.drop_drop]
  congr 1
  omega

theorem slice_of_append_left {xs ys : List α} {i j : Nat} (hj : j ≤ xs.length) :
    slice (xs ++ ys) i j = slice xs i j := by
  rcases Nat.le_total i j with hij | hji
  · have hi : i ≤ xs.length := Nat.le_trans hij hj
    simp only [slice, List.drop_append_of_le_length hi]
    exact List.take_append_of_le_length (by simp only [List.length_drop]; omega)
  · simp [slice, Nat.sub_eq_zero_of_le hji]

/-! ### Stores -/

theorem store_eq_some {xs ys : List α} {i : Nat} (h : i + ys.length ≤ xs.length) :
    store xs i ys = some (xs.take i ++ ys ++ xs.drop (i + ys.length)) := by
  simp [store, h]

theorem fits_of_store {xs ys zs : List α} {i : Nat} (h : store xs i ys = some zs) :
    i + ys.length ≤ xs.length := by
  unfold store at h
  split at h
  · rename_i hfit
    exact hfit
  · cases h

theorem length_store {xs ys zs : List α} {i : Nat} (h : store xs i ys = some zs) :
    zs.length = xs.length := by
  unfold store at h
  split at h
  · rename_i hfit
    cases h
    simp only [List.length_append, List.length_take, List.length_drop]
    omega
  · cases h

/-- What was stored right behind a slice extends it. -/
theorem slice_store {xs ys zs : List α} {i j : Nat} (hij : i ≤ j)
    (h : store xs j ys = some zs) :
    slice zs i (j + ys.length) = slice xs i j ++ ys := by
  unfold store at h
  split at h
  · rename_i hfit
    cases h
    have hlen : (xs.take j ++ ys).length = j + ys.length := by
      simp only [List.length_append, List.length_take]; omega
    rw [slice_of_append_left (Nat.le_of_eq hlen.symm)]
    have hi : i ≤ (xs.take j).length := by simp only [List.length_take]; omega
    have hdrop : (xs.take j).drop i = slice xs i j := by
      simp only [slice, List.drop_take]
    rw [slice, List.drop_append_of_le_length hi, hdrop]
    refine List.take_of_length_le ?_
    rw [List.length_append, length_slice (by omega)]
    omega
  · cases h

/-! ### Copies inside one block, resizing -/

theorem move_eq_store {xs : List α} {first last dst : Nat} (h : dst < first) :
    move xs first last dst = store xs dst (slice xs first last) := by
  unfold move
  rw [if_neg]
  omega

theorem length_move {xs moved : List α} {first last dst : Nat}
    (h : move xs first last dst = some moved) : moved.length = xs.length := by
  unfold move at h
  split at h
  · cases h
  · exact length_store h

theorem length_resize {xs : List α} {n : Nat} (a : α) (h : xs.length ≤ n) :
    (resize xs n a).length = n := by
  simp only [resize, List.length_append, List.length_take, List.length_replicate]
  omega

theorem length_resize_of_ge {xs : List α} {n : Nat} (a : α) (h : n ≤ xs.length) :
    (resize xs n a).length = n := by
  simp only [resize, List.length_append, List.length_take, List.length_replicate]
  omega

theorem slice_resize {xs : List α} {i j n : Nat} (a : α) (hj : j ≤ xs.length)
    (hn : xs.length ≤ n) : slice (resize xs n a) i j = slice xs i j := by
  unfold resize
  rw [List.take_of_length_le hn]
  exact slice_of_append_left hj

end Ymuduo.Block
