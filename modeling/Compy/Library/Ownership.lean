import Mathlib.Data.List.Count
import Mathlib.Data.List.Perm.Basic
import Compy.Library.CheckedBytes

/-!
# Ownership of what has been allocated

An arena hands out addresses, each once, and takes back what is live.  A ledger divides what is
live into the addresses that somebody owns, who is to free them, and the lost ones, which nobody
will.
-/

set_option autoImplicit false

namespace Ownership

open CheckedBytes

structure Arena where
  next : Nat
  live : List Nat

namespace Arena

def new : Arena := ⟨0, []⟩

def alloc (self : Arena) : Nat × Arena := (self.next, ⟨self.next + 1, self.next :: self.live⟩)

def free (self : Arena) (addr : Nat) : Access Arena :=
  if addr ∈ self.live then .ok { self with live := self.live.erase addr } else .error .outOfBounds

def freeAll : List Nat → Arena → Access Arena
  | [], self => .ok self
  | addr :: addrs, self => do
      let self ← self.free addr
      freeAll addrs self

def touch (self : Arena) (addrs : List Nat) : Access Unit :=
  if ∀ addr ∈ addrs, addr ∈ self.live then .ok () else .error .outOfBounds

theorem touch_ok {self : Arena} {addrs : List Nat} (live : ∀ addr ∈ addrs, addr ∈ self.live) :
    self.touch addrs = .ok () := if_pos live

end Arena

theorem Arena.freeAll_live (addrs : List Nat) (arena : Arena) : Returns True
    (fun next => ∀ addr ∈ next.live, addr ∈ arena.live) (arena.freeAll addrs) := by
  induction addrs generalizing arena with
  | nil => exact fun addr live => live
  | cons addr addrs ih =>
      rw [freeAll, free]
      split
      · exact (ih _).mono fun next live other member => List.mem_of_mem_erase (live other member)
      · trivial

structure Ledger (arena : Arena) (owned lost : List Nat) : Prop where
  division : arena.live.Perm (owned ++ lost)
  nodup : arena.live.Nodup
  below : ∀ addr ∈ arena.live, addr < arena.next

namespace Ledger

theorem new : Ledger .new [] [] where
  division := .nil
  nodup := List.nodup_nil
  below _ none := absurd none List.not_mem_nil

variable {arena : Arena} {owned lost : List Nat} (ledger : Ledger arena owned lost)

include ledger

/-- Other owners, and perhaps fewer. -/
theorem divide {owned' lost' : List Nat} (same : (owned ++ lost).Perm (owned' ++ lost')) :
    Ledger arena owned' lost' :=
  ⟨ledger.division.trans same, ledger.nodup, ledger.below⟩

theorem mem_live (addr : Nat) : addr ∈ arena.live ↔ addr ∈ owned ∨ addr ∈ lost := by
  rw [ledger.division.mem_iff, List.mem_append]

theorem fresh : arena.next ∉ arena.live := fun live => Nat.lt_irrefl _ (ledger.below _ live)

theorem alloc : Ledger arena.alloc.2 (arena.next :: owned) lost where
  division := ledger.division.cons arena.next
  nodup := List.nodup_cons.mpr ⟨ledger.fresh, ledger.nodup⟩
  below addr member := by
    rcases List.mem_cons.mp member with rfl | before
    · exact Nat.lt_succ_self _
    · exact Nat.lt_succ_of_lt (ledger.below addr before)

theorem live_nil_iff (none : owned = []) : arena.live = [] ↔ lost = [] := by
  have division := ledger.division
  rw [none, List.nil_append] at division
  constructor
  · intro empty
    rw [empty] at division
    exact division.nil_eq.symm
  · intro empty
    rw [empty] at division
    exact division.eq_nil

end Ledger

theorem Ledger.free {arena : Arena} {addr : Nat} {owned lost : List Nat}
    (ledger : Ledger arena (addr :: owned) lost) :
    ∃ next, arena.free addr = .ok next ∧ Ledger next owned lost := by
  have live : addr ∈ arena.live := (ledger.mem_live addr).mpr (Or.inl List.mem_cons_self)
  refine ⟨_, if_pos live, ?_, ledger.nodup.erase addr, fun other member => ?_⟩
  · have erased := ledger.division.erase addr
    rwa [List.cons_append, List.erase_cons_head] at erased
  · exact ledger.below other (List.mem_of_mem_erase member)

theorem Ledger.gone {arena arena' : Arena} {addr : Nat} {owned lost : List Nat}
    (before : Ledger arena (addr :: owned) lost) (after : Ledger arena' owned lost) :
    addr ∉ arena'.live := by
  have once := before.division.nodup_iff.mp before.nodup
  rw [List.cons_append, List.nodup_cons, List.mem_append] at once
  rw [after.mem_live]
  exact once.1

theorem Ledger.freeAll {arena : Arena} {addrs owned lost : List Nat}
    (ledger : Ledger arena (addrs ++ owned) lost) :
    ∃ next, arena.freeAll addrs = .ok next ∧ Ledger next owned lost := by
  induction addrs generalizing arena with
  | nil => exact ⟨arena, rfl, ledger⟩
  | cons addr addrs ih =>
      obtain ⟨middle, freed, later⟩ := ledger.free
      obtain ⟨next, rest, left⟩ := ih later
      refine ⟨next, ?_, left⟩
      rw [Arena.freeAll, freed]
      exact rest

end Ownership
