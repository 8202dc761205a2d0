import Mathlib.Data.List.Basic

/-!
# Cutting a list into chunks

`chunksOf n` cuts a list into pieces of `n` elements, the last of which may be shorter. The pieces
put together are the list, and their number is the rounded-up quotient of the lengths.
-/

namespace Skattr.Lib

variable {α : Type}

def chunksFrom (n : Nat) : Nat → List α → List (List α)
  | 0, _ => []
  | _ + 1, [] => []
  | count + 1, a :: as => (a :: as).take n :: chunksFrom n count ((a :: as).drop n)

def chunksOf (n : Nat) (as : List α) : List (List α) := chunksFrom n as.length as

variable {n count : Nat} {as : List α}

theorem flatten_chunksFrom (hn : 0 < n) (hcount : as.length ≤ count) :
    (chunksFrom n count as).flatten = as := by
  induction count generalizing as with
  | zero =>
    rw [List.eq_nil_of_length_eq_zero (Nat.le_zero.mp hcount)]
    rfl
  | succ count ih =>
    cases as with
    | nil => rfl
    | cons a as =>
      have hrest : ((a :: as).drop n).length ≤ count := by
        rw [List.length_drop, List.length_cons] at *
        omega
      rw [chunksFrom, List.flatten_cons, ih hrest, List.take_append_drop]

theorem flatten_chunksOf (hn : 0 < n) (as : List α) : (chunksOf n as).flatten = as :=
  flatten_chunksFrom hn (Nat.le_refl _)

theorem length_le_of_mem_chunksOf {piece : List α} (h : piece ∈ chunksOf n as) :
    piece.length ≤ n := by
  unfold chunksOf at h
  generalize as.length = count at h
  induction count generalizing as with
  | zero => cases h
  | succ count ih =>
    cases as with
    | nil => cases h
    | cons a as =>
      rcases List.mem_cons.mp h with rfl | hrest
      · exact List.length_take_le _ _
      · exact ih hrest

theorem length_chunksFrom (hn : 0 < n) (hcount : as.length ≤ count) :
    (chunksFrom n count as).length = (as.length + n - 1) / n := by
  induction count generalizing as with
  | zero =>
    rw [List.eq_nil_of_length_eq_zero (Nat.le_zero.mp hcount)]
    exact (Nat.div_eq_of_lt (by simp; omega)).symm
  | succ count ih =>
    cases as with
    | nil => exact (Nat.div_eq_of_lt (by simp; omega)).symm
    | cons a as =>
      have hrest : ((a :: as).drop n).length ≤ count := by
        rw [List.length_drop, List.length_cons] at *
        omega
      rw [chunksFrom, List.length_cons, ih hrest, List.length_drop, List.length_cons]
      by_cases hshort : as.length + 1 ≤ n
      · rw [Nat.sub_eq_zero_of_le hshort, Nat.div_eq_of_lt (by omega)]
        exact (Nat.div_eq_of_lt_le (by omega) (by omega)).symm
      · have hsplit : as.length + 1 + n - 1 = as.length + 1 - n + n - 1 + n := by omega
        rw [hsplit, Nat.add_div_right _ hn]

theorem length_chunksOf (hn : 0 < n) (as : List α) :
    (chunksOf n as).length = (as.length + n - 1) / n :=
  length_chunksFrom hn (Nat.le_refl _)

end Skattr.Lib
