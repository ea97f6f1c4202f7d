import Mathlib.Data.List.Basic

/-!
# A list cut behind its closing elements

Some elements close the group that they are in.  The groups are the list cut behind each of
them; the last group may be open.
-/

set_option autoImplicit false

namespace Grouping

variable {α : Type} (closes : α → Bool)

def front : List α → List α
  | [] => []
  | first :: rest => if closes first then [first] else first :: front rest

def behind : List α → List α
  | [] => []
  | first :: rest => if closes first then rest else behind rest

def groups : List α → List (List α)
  | [] => []
  | first :: rest =>
      if closes first then [first] :: groups rest
      else match groups rest with
        | [] => [[first]]
        | group :: others => (first :: group) :: others

theorem front_append_behind (list : List α) : front closes list ++ behind closes list = list := by
  induction list with
  | nil => rfl
  | cons first rest ih =>
      rw [front, behind]
      split
      · rfl
      · rw [List.cons_append, ih]

theorem length_front (list : List α) :
    (front closes list).length + (behind closes list).length = list.length := by
  rw [← List.length_append, front_append_behind]

theorem drop_front (list : List α) : list.drop (front closes list).length = behind closes list := by
  induction list with
  | nil => rfl
  | cons first rest ih =>
      rw [front, behind]
      split
      · rfl
      · exact ih

theorem groups_eq {list : List α} (some_ : list ≠ []) :
    groups closes list = front closes list :: groups closes (behind closes list) := by
  induction list with
  | nil => exact absurd rfl some_
  | cons first rest ih =>
      rw [groups, front, behind]
      split
      · rfl
      · cases rest with
        | nil => rfl
        | cons second rest => rw [ih (List.cons_ne_nil _ _)]

theorem flatten_groups (list : List α) : (groups closes list).flatten = list := by
  induction list with
  | nil => rfl
  | cons first rest ih =>
      rw [groups]
      split
      · rw [List.flatten_cons, ih]
        rfl
      · cases others : groups closes rest with
        | nil =>
            rw [others, List.flatten_nil] at ih
            rw [← ih]
            rfl
        | cons group others' =>
            rw [others, List.flatten_cons] at ih
            rw [List.flatten_cons, List.cons_append, ih]

theorem cut_closed {init : List α} {last : α} (opened : ∀ other ∈ init, closes other = false)
    (closed : closes last = true) (rest : List α) :
    front closes (init ++ last :: rest) = init ++ [last] ∧
      behind closes (init ++ last :: rest) = rest := by
  induction init with
  | nil =>
      rw [List.nil_append, front, behind, if_pos closed, if_pos closed]
      exact ⟨rfl, rfl⟩
  | cons first init ih =>
      obtain ⟨here, later⟩ := List.forall_mem_cons.mp opened
      obtain ⟨taken, left⟩ := ih later
      have other : ¬ closes first = true := by
        rw [here]
        exact Bool.false_ne_true
      rw [List.cons_append, front, behind, if_neg other, if_neg other, taken, left]
      exact ⟨rfl, rfl⟩

end Grouping
