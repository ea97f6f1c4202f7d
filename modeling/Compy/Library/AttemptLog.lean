import Mathlib.Data.List.Basic
import Mathlib.Order.Basic

/-!
# Logs of numbered attempts

A sender numbers what it sends and moves to the next number only when an attempt
is done.  A log of all attempts then has every number once for each failed
attempt and once for the one that was done.  `Numbered` says that of each entry
of a log some property holds at the entry's number, `Recorded` that it holds of
each entry and all that was logged before it.
-/

set_option autoImplicit false

namespace AttemptLog

variable {α : Type} (P : Nat → α → Prop) (done : α → Bool)

def Numbered : Nat → List α → Prop
  | _, [] => True
  | number, entry :: rest =>
      P number entry ∧ Numbered (if done entry then number + 1 else number) rest

theorem Numbered.append (number : Nat) (log : List α) (entry : α) :
    Numbered P done number (log ++ [entry]) ↔
      Numbered P done number log ∧ P (number + log.countP done) entry := by
  induction log generalizing number with
  | nil => simp [Numbered]
  | cons first rest ih =>
      rw [List.cons_append, Numbered, Numbered, ih, and_assoc, List.countP_cons]
      cases done first with
      | true => simp only [if_true, Nat.add_right_comm _ 1, Nat.add_assoc]
      | false => simp only [Bool.false_eq_true, if_false, Nat.add_zero]

variable {P done}

theorem Numbered.getElem {number : Nat} {log : List α} (numbered : Numbered P done number log)
    (i : Nat) (inside : i < log.length) :
    P (number + (log.take i).countP done) log[i] := by
  induction log generalizing number i with
  | nil => contradiction
  | cons first rest ih =>
      obtain ⟨here, later⟩ := numbered
      cases i with
      | zero => exact here
      | succ i =>
          have found := ih later i (Nat.lt_of_succ_lt_succ inside)
          rw [List.take_succ_cons, List.countP_cons, List.getElem_cons_succ]
          cases finished : done first with
          | true =>
              rw [finished, if_pos rfl] at found
              rw [if_pos rfl, Nat.add_comm _ 1, ← Nat.add_assoc]
              exact found
          | false =>
              rw [finished, if_neg Bool.false_ne_true] at found
              rw [if_neg Bool.false_ne_true]
              exact found

theorem Numbered.getElem_filter {number : Nat} {log : List α}
    (numbered : Numbered P done number log) (k : Nat) (inside : k < (log.filter done).length) :
    P (number + k) (log.filter done)[k] := by
  induction log generalizing number k with
  | nil => contradiction
  | cons first rest ih =>
      obtain ⟨here, later⟩ := numbered
      cases finished : done first with
      | true =>
          rw [finished, if_pos rfl] at later
          simp only [List.filter_cons, finished, if_true] at inside ⊢
          cases k with
          | zero => exact here
          | succ k =>
              have found := ih later k (Nat.lt_of_succ_lt_succ inside)
              rw [Nat.add_right_comm] at found
              exact found
      | false =>
          rw [finished, if_neg Bool.false_ne_true] at later
          simp only [List.filter_cons, finished, Bool.false_eq_true, if_false] at inside ⊢
          exact ih later k inside

theorem countP_take_mono (done : α → Bool) (log : List α) (i j : Nat) (ordered : i ≤ j) :
    (log.take i).countP done ≤ (log.take j).countP done :=
  (List.take_sublist_take_left ordered).countP_le

/-- Entries with one number have only failed attempts from the first to the last. -/
theorem failed_between {log : List α} {i j : Nat}
    (same : (log.take i).countP done = (log.take j).countP done) (m : Nat) (low : i ≤ m)
    (high : m < j) (inside : m < log.length) : done log[m] = false := by
  have upper := countP_take_mono done log (m + 1) j high
  have lower := countP_take_mono done log i m low
  rw [List.take_succ_eq_append_getElem inside, List.countP_append, List.countP_singleton] at upper
  by_contra finished
  rw [if_pos (Bool.not_eq_false _ ▸ finished)] at upper
  omega

/-- What each attempt keeps from a failed one before it, all attempts at one
number share. -/
theorem shared_of_retries {β : Type} (content : α → β) {log : List α}
    (retries : ∀ m (inside : m + 1 < log.length), done log[m] = false →
      content log[m + 1] = content log[m])
    {i j : Nat} (ordered : i ≤ j) (inside : j < log.length)
    (same : (log.take i).countP done = (log.take j).countP done) :
    content log[j] = content log[i] := by
  induction ordered with
  | refl => rfl
  | @step j ordered ih =>
      have failed := failed_between same j ordered (Nat.lt_succ_self j) (Nat.lt_of_succ_lt inside)
      have lower := countP_take_mono done log i j ordered
      have upper := countP_take_mono done log j j.succ (Nat.le_succ j)
      rw [retries j inside failed]
      exact ih (Nat.lt_of_succ_lt inside) (by omega)

/-! ## Entries and what was logged before them -/

def Recorded (Q : List α → α → Prop) (log : List α) : Prop :=
  ∀ earlier entry later, log = earlier ++ entry :: later → Q earlier entry

theorem recorded_nil (Q : List α → α → Prop) : Recorded Q [] := by
  intro earlier entry later split_
  simp at split_

theorem Recorded.append {Q : List α → α → Prop} {log : List α} (recorded : Recorded Q log)
    {entry : α} (new : Q log entry) : Recorded Q (log ++ [entry]) := by
  intro earlier other later split_
  rcases later.eq_nil_or_concat with rfl | ⟨front, last, rfl⟩
  · obtain ⟨rfl, same⟩ := List.append_inj' split_ rfl
    simp only [List.cons.injEq, and_true] at same
    rwa [← same]
  · rw [List.concat_eq_append, ← List.cons_append, ← List.append_assoc] at split_
    obtain ⟨rfl, _⟩ := List.append_inj' split_ rfl
    exact recorded earlier other front rfl

theorem split_of_filter (done : α → Bool) (log : List α) (k : Nat)
    (inside : k < (log.filter done).length) :
    ∃ earlier later, log = earlier ++ (log.filter done)[k] :: later ∧
      (earlier.filter done).length = k ∧ done (log.filter done)[k] = true := by
  induction log generalizing k with
  | nil => simp at inside
  | cons first rest ih =>
      cases finished : done first with
      | true =>
          simp only [List.filter_cons, finished, if_true, List.length_cons] at inside ⊢
          cases k with
          | zero => exact ⟨[], rest, rfl, rfl, finished⟩
          | succ k =>
              obtain ⟨earlier, later, split_, count, here⟩ := ih k (Nat.lt_of_succ_lt_succ inside)
              refine ⟨first :: earlier, later, congrArg (first :: ·) split_, ?_, here⟩
              simp [finished, count]
      | false =>
          simp only [List.filter_cons, finished, Bool.false_eq_true, if_false] at inside ⊢
          obtain ⟨earlier, later, split_, count, here⟩ := ih k inside
          refine ⟨first :: earlier, later, congrArg (first :: ·) split_, ?_, here⟩
          simp [finished, count]

end AttemptLog
