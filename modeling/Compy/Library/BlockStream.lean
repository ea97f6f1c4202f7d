import Mathlib.Algebra.Group.Nat.Defs
import Mathlib.Data.List.Basic

/-!
# Blocks of a stream

A stream is taken in blocks of `size` elements, each block moving a state on, and what is left
at the end waits for more.  Taking a stream in two parts comes to the same as taking it whole,
provided that the second part starts with what the first one left.
-/

set_option autoImplicit false

namespace BlockStream

variable {State α : Type} (process : State → List α → State) (size : Nat)

def chain (state : State) (data : List α) : State :=
  (List.range (data.length / size)).foldl
    (fun state k => process state ((data.drop (size * k)).take size)) state

def leftover (data : List α) : List α := data.drop (size * (data.length / size))

variable {process size}

theorem chain_short (state : State) (data : List α) (short : data.length < size) :
    chain process size state data = state := by
  simp [chain, Nat.div_eq_of_lt short]

theorem leftover_short (data : List α) (short : data.length < size) :
    leftover size data = data := by
  simp [leftover, Nat.div_eq_of_lt short]

theorem blocks_succ (block data : List α) (whole : block.length = size) (positive : 0 < size) :
    (block ++ data).length / size = data.length / size + 1 := by
  rw [List.length_append, whole, Nat.add_div_left _ positive]

theorem drop_block (block data : List α) (whole : block.length = size) (k : Nat) :
    (block ++ data).drop (size * (k + 1)) = data.drop (size * k) := by
  rw [Nat.mul_add, Nat.mul_one, Nat.add_comm, ← List.drop_drop, ← whole, List.drop_left]

theorem chain_block (state : State) (block data : List α) (whole : block.length = size)
    (positive : 0 < size) :
    chain process size state (block ++ data) = chain process size (process state block) data := by
  have first : ((block ++ data).drop (size * 0)).take size = block := by
    rw [Nat.mul_zero, List.drop_zero, ← whole, List.take_left]
  unfold chain
  rw [blocks_succ block data whole positive, List.range_succ_eq_map, List.foldl_cons,
    List.foldl_map, first]
  simp only [Nat.succ_eq_add_one, drop_block block data whole]

theorem leftover_block (block data : List α) (whole : block.length = size) (positive : 0 < size) :
    leftover size (block ++ data) = leftover size data := by
  rw [leftover, blocks_succ block data whole positive, drop_block block data whole, leftover]

theorem blocks_induction {motive : List α → Prop} (positive : 0 < size)
    (short : ∀ data, data.length < size → motive data)
    (block : ∀ block data, block.length = size → motive data → motive (block ++ data))
    (data : List α) : motive data := by
  induction bound : data.length using Nat.strongRecOn generalizing data with
  | ind length ih =>
      by_cases small : data.length < size
      · exact short data small
      · have shorter := ih (data.drop size).length (by rw [List.length_drop]; omega) _ rfl
        have whole : (data.take size).length = size := by
          rw [List.length_take]
          omega
        rw [← List.take_append_drop size data]
        exact block _ _ whole shorter

theorem chain_append (positive : 0 < size) (front back : List α) : ∀ state : State,
    chain process size state (front ++ back) =
      chain process size (chain process size state front) (leftover size front ++ back) := by
  induction front using blocks_induction positive with
  | short data small =>
      intro state
      rw [chain_short state data small, leftover_short data small]
  | block block data whole ih =>
      intro state
      rw [List.append_assoc, chain_block state block _ whole positive, ih,
        chain_block state block data whole positive, leftover_block block data whole positive]

theorem leftover_append (positive : 0 < size) (front back : List α) :
    leftover size (front ++ back) = leftover size (leftover size front ++ back) := by
  induction front using blocks_induction positive with
  | short data small => rw [leftover_short data small]
  | block block data whole ih =>
      rw [List.append_assoc, leftover_block block _ whole positive, ih,
        leftover_block block data whole positive]

@[simp] theorem leftover_length (data : List α) :
    (leftover size data).length = data.length % size := by
  rw [leftover, List.length_drop, Nat.mod_eq_sub]

end BlockStream
