import Mathlib.Data.List.Basic

/-!
# Items read one after the other

A reader of one item, used again on what it leaves until the input is used up.
-/

set_option autoImplicit false

namespace Framing

variable {α β ε : Type}

/-- `stuck` is the answer when the input is longer than the fuel. -/
def readAll (read : List β → Except ε (α × List β)) (stuck : ε) :
    (fuel : Nat) → List β → Except ε (List α)
  | _, [] => .ok []
  | 0, _ :: _ => .error stuck
  | fuel + 1, first :: input => do
      let (item, rest) ← read (first :: input)
      let items ← readAll read stuck fuel rest
      return item :: items

theorem readAll_step {read : List β → Except ε (α × List β)} {stuck : ε} {input rest : List β}
    {item : α} (more : input ≠ []) (reads : read input = .ok (item, rest)) (fuel : Nat) :
    readAll read stuck (fuel + 1) input = (readAll read stuck fuel rest).map (item :: ·) := by
  cases input with
  | nil => exact absurd rfl more
  | cons first input =>
      rw [readAll, reads]
      cases others : readAll read stuck fuel rest with
      | error fault => simp [bind, Except.bind, Except.map, others]
      | ok items => simp [bind, Except.bind, Except.map, others, pure, Except.pure]

theorem readAll_step_iff {read : List β → Except ε (α × List β)} {stuck : ε}
    {input rest : List β} {item : α} (more : input ≠ []) (reads : read input = .ok (item, rest))
    (fuel : Nat) (first : α) (items : List α) :
    readAll read stuck (fuel + 1) input = .ok (first :: items) ↔
      item = first ∧ readAll read stuck fuel rest = .ok items := by
  rw [readAll_step more reads]
  cases readAll read stuck fuel rest with
  | error fault => simp [Except.map]
  | ok others => simp [Except.map]

theorem readAll_flatMap {γ : Type} {read : List β → Except ε (α × List β)} {stuck : ε}
    {pieces : γ → List β} {value : γ → α} (items : List γ)
    (present : ∀ item ∈ items, pieces item ≠ [])
    (reads : ∀ item ∈ items, ∀ rest, read (pieces item ++ rest) = .ok (value item, rest))
    (fuel : Nat) (enough : (items.flatMap pieces).length ≤ fuel) :
    readAll read stuck fuel (items.flatMap pieces) = .ok (items.map value) := by
  induction items generalizing fuel with
  | nil => cases fuel <;> rfl
  | cons item items ih =>
      obtain ⟨here, later⟩ := List.forall_mem_cons.mp present
      obtain ⟨first, others⟩ := List.forall_mem_cons.mp reads
      have positive := List.length_pos_of_ne_nil here
      rw [List.flatMap_cons] at enough ⊢
      rw [List.length_append] at enough
      obtain ⟨fuel, rfl⟩ : ∃ left, fuel = left + 1 := ⟨fuel - 1, by omega⟩
      rw [readAll_step (List.append_ne_nil_of_left_ne_nil here _) (first _),
        ih later others fuel (by omega)]
      rfl

end Framing
