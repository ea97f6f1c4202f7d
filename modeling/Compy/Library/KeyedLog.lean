import Mathlib.Algebra.GroupWithZero.Nat
import Mathlib.Data.List.Perm.Subperm
import Mathlib.Data.List.Range
import Mathlib.Data.List.Sort

/-!
# A log whose last entry for a key counts

Entries as they were written, with a key each.  In force is the last entry of every key, and
the entries in force are listed by increasing key.  The second part is about lists with
increasing keys: when an entry stands at the index that is its key.
-/

set_option autoImplicit false

namespace KeyedLog

variable {α : Type} (key : α → Nat)

def last (log : List α) (k : Nat) : Option α := (log.filter fun entry => key entry = k).getLast?

def inForce (bound : Nat) (log : List α) : List α := (List.range bound).filterMap (last key log)

variable {key} {log : List α} {bound : Nat}

theorem mem_of_last {k : Nat} {entry : α} (found : last key log k = some entry) :
    entry ∈ log ∧ key entry = k := by
  simpa using List.mem_of_getLast? found

theorem mem_inForce (entry : α) :
    entry ∈ inForce key bound log ↔ key entry < bound ∧ last key log (key entry) = some entry := by
  simp only [inForce, List.mem_filterMap, List.mem_range]
  constructor
  · rintro ⟨k, below, found⟩
    obtain ⟨_, rfl⟩ := mem_of_last found
    exact ⟨below, found⟩
  · intro inside
    exact ⟨key entry, inside⟩

theorem inForce_subset : inForce key bound log ⊆ log := by
  intro entry member
  exact (mem_of_last ((mem_inForce entry).mp member).2).1

theorem inForce_increasing : (inForce key bound log).Pairwise fun a b => key a < key b := by
  apply List.pairwise_filterMap.mpr
  apply List.pairwise_lt_range.imp
  intro i j below entry found other foundOther
  rwa [(mem_of_last found).2, (mem_of_last foundOther).2]

theorem nodup_of_increasing {entries : List α}
    (increasing : entries.Pairwise fun a b => key a < key b) : (entries.map key).Nodup := by
  apply List.pairwise_map.mpr
  exact increasing.imp Nat.ne_of_lt

/-! ## A log in which every key is written once -/

theorem last_of_distinct (distinct : (log.map key).Nodup) {entry : α} (member : entry ∈ log) :
    last key log (key entry) = some entry := by
  induction log with
  | nil => contradiction
  | cons head rest ih =>
      obtain ⟨fresh, distinct⟩ := List.nodup_cons.mp distinct
      rw [last]
      rcases List.mem_cons.mp member with rfl | behind
      · have none : rest.filter (fun other => key other = key entry) = [] := by
          simp only [List.filter_eq_nil_iff, decide_eq_true_eq]
          intro other member same
          exact fresh (List.mem_map.mpr ⟨other, member, same⟩)
        rw [List.filter_cons_of_pos (by simp), none]
        rfl
      · have other : key head ≠ key entry := fun same =>
          fresh (List.mem_map.mpr ⟨entry, behind, same.symm⟩)
        rw [List.filter_cons_of_neg (by simpa using other)]
        exact ih distinct behind

theorem inForce_perm (distinct : (log.map key).Nodup) (bounded : ∀ entry ∈ log, key entry < bound) :
    (inForce key bound log).Perm log := by
  apply (List.perm_ext_iff_of_nodup (nodup_of_increasing inForce_increasing).of_map
    distinct.of_map).mpr
  intro entry
  constructor
  · intro member
    exact inForce_subset member
  · intro member
    exact (mem_inForce entry).mpr ⟨bounded entry member, last_of_distinct distinct member⟩

theorem inForce_eq_sorted (distinct : (log.map key).Nodup)
    (bounded : ∀ entry ∈ log, key entry < bound) :
    inForce key bound log = log.insertionSort fun a b => key a ≤ key b := by
  have perm := inForce_perm distinct bounded
  have sorted := List.perm_insertionSort (fun a b => key a ≤ key b) log
  have total : Std.Total fun a b : α => key a ≤ key b := ⟨fun a b => Nat.le_total _ _⟩
  have transitive : IsTrans α fun a b => key a ≤ key b := ⟨fun _ _ _ => Nat.le_trans⟩
  have increasing : (inForce key bound log).Pairwise fun a b => key a < key b := inForce_increasing
  apply List.Perm.eq_of_pairwise ?_ (increasing.imp Nat.le_of_lt)
    (List.pairwise_insertionSort _ log) (perm.trans sorted.symm)
  intro a b left right below above
  have first := last_of_distinct distinct (perm.subset left)
  have second := last_of_distinct distinct (sorted.subset right)
  rw [Nat.le_antisymm below above, second] at first
  exact (Option.some.inj first).symm

theorem eq_of_sublist_of_weight (weight : α → Nat) {part : List α} (sublist : part.Sublist log)
    (positive : ∀ entry ∈ log, 0 < weight entry) :
    (part.map weight).sum ≤ (log.map weight).sum ∧
      ((log.map weight).sum ≤ (part.map weight).sum → part = log) := by
  induction sublist with
  | slnil => exact ⟨Nat.le_refl _, fun _ => rfl⟩
  | cons entry sublist ih =>
      obtain ⟨heavy, positive⟩ := List.forall_mem_cons.mp positive
      have below := (ih positive).1
      rw [List.map_cons, List.sum_cons]
      exact ⟨by omega, fun whole => by omega⟩
  | cons_cons entry sublist ih =>
      obtain ⟨below, whole⟩ := ih (List.forall_mem_cons.mp positive).2
      simp only [List.map_cons, List.sum_cons, Nat.add_le_add_iff_left]
      exact ⟨below, fun all => congrArg _ (whole all)⟩

/-- Where nothing weighs less in force than in the log, no key is written twice. -/
theorem distinct_of_weight (weight : α → Nat) (positive : ∀ entry ∈ log, 0 < weight entry)
    (whole : ((inForce key bound log).map weight).sum = (log.map weight).sum) :
    (log.map key).Nodup := by
  have distinct : ((inForce key bound log).map key).Nodup := nodup_of_increasing inForce_increasing
  obtain ⟨part, perm, sublist⟩ := distinct.of_map.subperm inForce_subset
  have weights := (perm.map weight).sum_nat
  have same := (eq_of_sublist_of_weight weight sublist positive).2 (by omega)
  rw [← same]
  exact (perm.map key).nodup_iff.mpr distinct

/-! ## Increasing keys -/

section

variable {entries : List α} (increasing : entries.Pairwise fun a b => key a < key b)

include increasing

theorem index_gap (i distance : Nat) (inside : i + distance < entries.length) :
    key entries[i] + distance ≤ key entries[i + distance] := by
  induction distance with
  | zero => exact Nat.le_refl _
  | succ distance ih =>
      have below := List.pairwise_iff_getElem.mp increasing (i + distance) (i + (distance + 1))
        (by omega) inside (by omega)
      exact Nat.lt_of_le_of_lt (ih (by omega)) below

theorem index_le_key (i : Nat) (inside : i < entries.length) : i ≤ key entries[i] := by
  have gap := index_gap increasing 0 i (by omega)
  simp only [Nat.zero_add] at gap
  omega

theorem index_unique (i j : Nat) (inside : i < entries.length) (other : j < entries.length)
    (same : key entries[i] = key entries[j]) : i = j := by
  have ordered := List.pairwise_iff_getElem.mp increasing
  rcases Nat.lt_trichotomy i j with before | rfl | behind
  · exact absurd same (Nat.ne_of_lt (ordered i j inside other before))
  · rfl
  · exact absurd same.symm (Nat.ne_of_lt (ordered j i other inside behind))

theorem key_eq_index_iff (i : Nat) (inside : i < entries.length) :
    key entries[i] = i ↔ ∀ k < key entries[i], ∃ entry ∈ entries, key entry = k := by
  constructor
  · intro fixed k below
    have before : k < entries.length := by omega
    have least := index_le_key increasing k before
    have gap := index_gap increasing k (i - k) (by omega)
    have behind : k + (i - k) = i := by omega
    simp only [behind] at gap
    exact ⟨entries[k], List.getElem_mem before, by omega⟩
  · intro filled
    -- The smaller keys stand at their own indices, one after the other.
    have placed : ∀ k, k ≤ key entries[i] → ∃ inside : k < entries.length, key entries[k] = k := by
      intro k
      induction k using Nat.strong_induction_on with
      | _ k ih =>
          intro below
          obtain ⟨j, inside, same⟩ : ∃ j, ∃ inside : j < entries.length, key entries[j] = k := by
            rcases Nat.lt_or_eq_of_le below with smaller | rfl
            · obtain ⟨entry, member, same⟩ := filled k smaller
              obtain ⟨j, inside, rfl⟩ := List.mem_iff_getElem.mp member
              exact ⟨j, inside, same⟩
            · exact ⟨i, inside, rfl⟩
          rcases Nat.lt_or_eq_of_le (index_le_key increasing j inside) with before | fixed
          · obtain ⟨_, own⟩ := ih j (same ▸ before) (by omega)
            omega
          · rw [same] at fixed
            subst fixed
            exact ⟨inside, same⟩
    obtain ⟨inside', own⟩ := placed (key entries[i]) (Nat.le_refl _)
    exact index_unique increasing _ _ inside' inside own

/-- The keys of the marked entries are their indices exactly where each marked entry has all
smaller keys beside it. -/
theorem marked_iff (marked : α → Bool) (width : Nat) (short : entries.length ≤ width) :
    (∀ i, (∃ entry ∈ entries, marked entry ∧ key entry = i ∧ i < width) ↔
      ∃ entry ∈ entries[i]?, marked entry) ↔
      ∀ entry ∈ entries, marked entry → ∀ k < key entry, ∃ other ∈ entries, key other = k := by
  constructor
  · intro agree
    have placed : ∀ i, ∀ inside : i < entries.length, marked entries[i] → key entries[i] = i := by
      intro i
      induction i using Nat.strong_induction_on with
      | _ i ih =>
          intro inside mark
          obtain ⟨entry, member, other, same, _⟩ := (agree i).mpr
            ⟨entries[i], List.getElem?_eq_getElem inside, mark⟩
          obtain ⟨j, within, rfl⟩ := List.mem_iff_getElem.mp member
          -- An entry before this one has its own index for a key.
          rcases Nat.lt_or_eq_of_le (index_le_key increasing j within) with before | fixed
          · have own := ih j (by omega) within other
            omega
          · rw [same] at fixed
            subst fixed
            exact same
    intro entry member mark
    obtain ⟨i, inside, rfl⟩ := List.mem_iff_getElem.mp member
    exact (key_eq_index_iff increasing i inside).mp (placed i inside mark)
  · intro filled i
    constructor
    · rintro ⟨entry, member, mark, rfl, _⟩
      obtain ⟨j, inside, rfl⟩ := List.mem_iff_getElem.mp member
      have own := (key_eq_index_iff increasing j inside).mpr (filled _ member mark)
      rw [own]
      exact ⟨entries[j], List.getElem?_eq_getElem inside, mark⟩
    · rintro ⟨entry, found, mark⟩
      obtain ⟨inside, rfl⟩ := List.getElem?_eq_some_iff.mp found
      have member := List.getElem_mem inside
      have own := (key_eq_index_iff increasing i inside).mpr (filled _ member mark)
      exact ⟨entries[i], member, mark, own, Nat.lt_of_lt_of_le inside short⟩

end

end KeyedLog
