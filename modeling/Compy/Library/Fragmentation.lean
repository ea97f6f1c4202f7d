import Mathlib.Data.List.Basic
import Mathlib.Tactic.Ring

/-!
# Fragments of a list

A list cut into windows of one size, the last one shorter where the size does not divide
its length, and the list put together again from fragments that say whether they are the
first or the last.
-/

set_option autoImplicit false

namespace Fragmentation

variable {β : Type}

def window (size : Nat) (data : List β) (index : Nat) : List β :=
  (data.drop (index * size)).take size

def windowCount (size length : Nat) : Nat := length / size + if length % size = 0 then 0 else 1

theorem flatten_windows (size : Nat) (data : List β) (count : Nat) :
    ((List.range count).map (window size data)).flatten = data.take (count * size) := by
  induction count with
  | zero => rw [Nat.zero_mul, List.take_zero]; rfl
  | succ count ih =>
      rw [List.range_succ, List.map_append, List.flatten_append, ih, Nat.succ_mul, List.take_add]
      simp only [List.map_cons, List.map_nil, List.flatten_cons, List.flatten_nil, List.append_nil,
        window]

theorem length_le_windowCount {size : Nat} (positive : 0 < size) (length : Nat) :
    length ≤ windowCount size length * size := by
  have whole := Nat.div_add_mod length size
  have rest := Nat.mod_lt length positive
  rw [windowCount, Nat.add_mul, Nat.mul_comm (length / size)]
  split
  · omega
  · rw [Nat.one_mul]
    omega

theorem flatten_allWindows {size : Nat} (positive : 0 < size) (data : List β) :
    ((List.range (windowCount size data.length)).map (window size data)).flatten = data := by
  rw [flatten_windows, List.take_of_length_le (length_le_windowCount positive data.length)]

theorem length_window_le (size : Nat) (data : List β) (index : Nat) :
    (window size data index).length ≤ size := by
  rw [window, List.length_take]
  exact Nat.min_le_left _ _

theorem windowCount_ge_two {size length : Nat} (positive : 0 < size) (longer : size < length) :
    2 ≤ windowCount size length := by
  rw [windowCount]
  have one : 1 ≤ length / size := (Nat.one_le_div_iff positive).mpr (Nat.le_of_lt longer)
  split
  · rename_i divides
    by_contra few
    have single : length / size = 1 := by omega
    have whole := Nat.div_add_mod length size
    rw [single, divides] at whole
    omega
  · omega

theorem map_range_cons {γ : Type} (piece : Nat → γ) {count : Nat} (positive : 0 < count) :
    (List.range count).map piece = piece 0 :: (List.range' 1 (count - 1)).map piece := by
  obtain ⟨left, rfl⟩ : ∃ left, count = left + 1 := ⟨count - 1, by omega⟩
  rw [List.range_eq_range', List.range'_succ, List.map_cons, Nat.add_sub_cancel]

/-- The fragments with the marks of the first and of the last. -/
def marked {γ : Type} (count : Nat) (piece : Nat → γ) : List (Bool × Bool × γ) :=
  (List.range count).map fun index => (index == 0, index + 1 == count, piece index)

def collectRest : List (Bool × Bool × List β) → Option (List β)
  | [] => none
  | (first, last, data) :: rest =>
      if first then none
      else if last then (if rest.isEmpty then some data else none)
      else (collectRest rest).map (data ++ ·)

/-- At least two fragments, the first one and no other marked as the first, the last one
and no other marked as the last. -/
def collect : List (Bool × Bool × List β) → Option (List β)
  | (true, false, data) :: rest => (collectRest rest).map (data ++ ·)
  | _ => none

theorem collectRest_marked (count : Nat) (piece : Nat → List β) (left start : Nat)
    (later : 0 < start) (sum : start + (left + 1) = count) :
    collectRest ((List.range' start (left + 1)).map fun index =>
        (index == 0, index + 1 == count, piece index)) =
      some ((List.range' start (left + 1)).map piece).flatten := by
  have other : (start == 0) = false := beq_eq_false_iff_ne.mpr (by omega)
  induction left generalizing start with
  | zero =>
      have last : (start + 1 == count) = true := beq_iff_eq.mpr (by omega)
      simp [collectRest, other, last]
  | succ left ih =>
      have inner : (start + 1 == count) = false := beq_eq_false_iff_ne.mpr (by omega)
      have next := ih (start + 1) (by omega) (by omega) (beq_eq_false_iff_ne.mpr (by omega))
      rw [List.range'_succ, List.map_cons, collectRest, other, inner, next]
      rfl

theorem collect_marked (count : Nat) (piece : Nat → List β) (several : 2 ≤ count) :
    collect (marked count piece) = some ((List.range count).map piece).flatten := by
  obtain ⟨left, rfl⟩ : ∃ left, count = left + 2 := ⟨count - 2, by omega⟩
  have inner : (0 + 1 == left + 2) = false := beq_eq_false_iff_ne.mpr (by omega)
  have rest := collectRest_marked (left + 2) piece left 1 Nat.one_pos (by omega)
  rw [marked, List.range_eq_range', List.range'_succ, List.map_cons, inner, beq_self_eq_true,
    collect, rest]
  rfl

end Fragmentation
