import Mathlib.Data.List.Basic
import Mathlib.Tactic.Ring

/-!
# Byte arrays with checked accesses

An array is the list of the bytes it holds.  Every read and every write states
the range it touches and is an error when the range leaves the array, so that
"all accesses stay inside" is "the error is unreachable".

The other two faults are the remaining ways a C function can fail to return:
a loop that never ends and an assertion that does not hold.
-/

set_option autoImplicit false

namespace CheckedBytes

inductive Fault where
  | outOfBounds
  | diverges
  | assertion
  deriving DecidableEq, Repr

abbrev Access := Except Fault

def readBytes (array : List UInt8) (offset count : Nat) : Access (List UInt8) :=
  if offset + count ≤ array.length then .ok ((array.drop offset).take count)
  else .error .outOfBounds

def writeBytes (array : List UInt8) (offset : Nat) (bytes : List UInt8) :
    Access (List UInt8) :=
  if offset + bytes.length ≤ array.length then
    .ok (array.take offset ++ bytes ++ array.drop (offset + bytes.length))
  else .error .outOfBounds

def byteAt (array : List UInt8) (offset : Nat) : Access UInt8 :=
  if inside : offset < array.length then .ok array[offset] else .error .outOfBounds

@[simp] theorem ok_bind {α β : Type} (value : α) (next : α → Access β) :
    ((.ok value : Access α) >>= next) = next value := rfl

@[simp] theorem error_bind {α β : Type} (fault : Fault) (next : α → Access β) :
    ((.error fault : Access α) >>= next) = .error fault := rfl

@[simp] theorem pure_eq_ok {α : Type} (value : α) : (pure value : Access α) = .ok value := rfl

theorem readBytes_ok (array : List UInt8) (offset count : Nat)
    (inside : offset + count ≤ array.length) :
    readBytes array offset count = .ok ((array.drop offset).take count) := if_pos inside

theorem byteAt_ok (array : List UInt8) (offset : Nat) (inside : offset < array.length) :
    byteAt array offset = .ok array[offset] := dif_pos inside

theorem byteAt_eq_ok {array : List UInt8} {offset : Nat} {byte : UInt8} :
    byteAt array offset = .ok byte ↔ array[offset]? = some byte := by
  rw [byteAt]
  split
  · rename_i inside
    rw [List.getElem?_eq_getElem inside, Except.ok.injEq, Option.some.injEq]
  · rename_i outside
    rw [List.getElem?_eq_none (Nat.le_of_not_lt outside)]
    simp

theorem writeBytes_ok (array : List UInt8) (offset : Nat) (bytes : List UInt8)
    (inside : offset + bytes.length ≤ array.length) :
    writeBytes array offset bytes =
      .ok (array.take offset ++ bytes ++ array.drop (offset + bytes.length)) := if_pos inside

theorem writeBytes_error (array : List UInt8) (offset : Nat) (bytes : List UInt8)
    (outside : array.length < offset + bytes.length) :
    writeBytes array offset bytes = .error .outOfBounds := if_neg (by omega)

@[simp] theorem length_written (array : List UInt8) (offset : Nat) (bytes : List UInt8)
    (inside : offset + bytes.length ≤ array.length) :
    (array.take offset ++ bytes ++ array.drop (offset + bytes.length)).length =
      array.length := by
  simp only [List.length_append, List.length_take, List.length_drop]
  omega

/-! ## What a computation returns -/

/-- A result has the property, or is a fault where `faults` says that there may be one. -/
def Returns {α : Type} (faults : Prop) (post : α → Prop) : Access α → Prop
  | .ok value => post value
  | .error _ => faults

namespace Returns

variable {α β : Type} {faults : Prop} {post post' : α → Prop} {result : Access α}

theorem mono (returns : Returns faults post result) (weaker : ∀ value, post value → post' value) :
    Returns faults post' result := by
  cases result with
  | ok value => exact weaker value returns
  | error fault => exact returns

theorem bind {after : β → Prop} {next : α → Access β} (returns : Returns faults post result)
    (later : ∀ value, post value → Returns faults after (next value)) :
    Returns faults after (result >>= next) := by
  cases result with
  | ok value => exact later value returns
  | error fault => exact returns

theorem holds {value : α} (returns : Returns faults post result) (ran : result = .ok value) :
    post value := by
  rw [ran] at returns
  exact returns

theorem value (returns : Returns False post result) : ∃ value, result = .ok value ∧ post value := by
  cases result with
  | ok value => exact ⟨value, rfl, returns⟩
  | error fault => exact returns.elim

end Returns

theorem writeBytes_append (array : List UInt8) (offset : Nat) (front back : List UInt8) :
    (writeBytes array offset front >>= fun once =>
      writeBytes once (offset + front.length) back) = writeBytes array offset (front ++ back) := by
  by_cases first : offset + front.length ≤ array.length
  · have size := length_written array offset front first
    have start : (array.take offset ++ front).length = offset + front.length := by
      rw [List.length_append, List.length_take, Nat.min_eq_left (by omega)]
    rw [writeBytes_ok array offset front first, ok_bind]
    by_cases second : offset + (front ++ back).length ≤ array.length
    · rw [List.length_append] at second
      rw [writeBytes_ok _ _ back (by omega), writeBytes_ok array offset _ (by
        rw [List.length_append]
        omega), List.take_left' start, ← List.drop_drop, List.drop_left' start, List.drop_drop,
        List.length_append, List.append_assoc (array.take offset) front back, Nat.add_assoc]
    · rw [List.length_append] at second
      rw [writeBytes_error _ _ back (by omega), writeBytes_error array offset _ (by
        rw [List.length_append]
        omega)]
  · rw [writeBytes_error array offset front (by omega), writeBytes_error array offset _ (by
      rw [List.length_append]
      omega), error_bind]

/-- Two fields written one after the other from the start of a scratch array and
then read back: the only way to fail is that the two do not fit. -/
theorem write_write_read (array front bytes : List UInt8) :
    (do
      let once ← writeBytes array 0 front
      let twice ← writeBytes once front.length bytes
      readBytes twice 0 (front.length + bytes.length)) =
    if front.length + bytes.length ≤ array.length then .ok (front ++ bytes)
    else .error .outOfBounds := by
  by_cases first : front.length ≤ array.length
  · have inside : 0 + front.length ≤ array.length := by omega
    have size := length_written array 0 front inside
    rw [writeBytes_ok array 0 front inside]
    simp only [List.take_zero, List.nil_append, Nat.zero_add] at size ⊢
    change (writeBytes (front ++ array.drop front.length) front.length bytes >>= _) = _
    by_cases second : front.length + bytes.length ≤ array.length
    · rw [writeBytes_ok _ _ _ (by omega), if_pos second]
      change readBytes _ 0 _ = _
      rw [readBytes_ok _ _ _ (by simp)]
      have whole : front.length + bytes.length = (front ++ bytes).length := by simp
      rw [List.drop_zero, List.take_left, whole, List.take_left]
    · rw [writeBytes_error _ _ _ (by omega), if_neg second]
      rfl
  · rw [writeBytes_error _ _ _ (by omega), if_neg (by omega)]
    rfl

/-! ## Bytes at an offset -/

def Holds (array : List UInt8) (offset : Nat) (bytes : List UInt8) : Prop :=
  bytes <+: array.drop offset

theorem holds_nil (array : List UInt8) (offset : Nat) : Holds array offset [] :=
  List.nil_prefix

theorem holds_singleton {array : List UInt8} {offset : Nat} {byte : UInt8} :
    Holds array offset [byte] ↔ array[offset]? = some byte := by
  rw [Holds, ← Nat.add_zero offset, ← List.getElem?_drop, Nat.add_zero]
  cases array.drop offset with
  | nil => simp
  | cons first rest => simp [List.cons_prefix_cons, eq_comm]

theorem holds_append {array : List UInt8} {offset : Nat} {front back : List UInt8} :
    Holds array offset (front ++ back) ↔
      Holds array offset front ∧ Holds array (offset + front.length) back := by
  constructor
  · rintro ⟨rest, whole⟩
    refine ⟨⟨back ++ rest, by rw [← whole, List.append_assoc]⟩, rest, ?_⟩
    rw [← List.drop_drop, ← whole, List.append_assoc, List.drop_left]
  · rintro ⟨⟨rest, first⟩, second⟩
    rw [Holds, ← List.drop_drop, ← first, List.drop_left] at second
    obtain ⟨behind, rfl⟩ := second
    exact ⟨behind, by rw [← first, List.append_assoc]⟩

theorem holds_cons {array : List UInt8} {offset : Nat} {byte : UInt8} {bytes : List UInt8} :
    Holds array offset (byte :: bytes) ↔
      array[offset]? = some byte ∧ Holds array (offset + 1) bytes := by
  rw [← holds_singleton, ← List.singleton_append, holds_append]
  rfl

theorem holds_read (array : List UInt8) (offset count : Nat) :
    Holds array offset ((array.drop offset).take count) := List.take_prefix _ _

theorem Holds.readBytes {array bytes : List UInt8} {offset count : Nat}
    (holds : Holds array offset bytes) (size : bytes.length = count)
    (inside : offset + count ≤ array.length) :
    CheckedBytes.readBytes array offset count = .ok bytes := by
  rw [readBytes_ok _ _ _ inside, ← size]
  exact congrArg Except.ok (List.prefix_iff_eq_take.mp holds).symm

theorem Holds.byteAt {array : List UInt8} {offset : Nat} {byte : UInt8}
    (holds : Holds array offset [byte]) : CheckedBytes.byteAt array offset = .ok byte :=
  byteAt_eq_ok.mpr (holds_singleton.mp holds)

theorem Holds.append {array front back : List UInt8} {offset next : Nat}
    (first : Holds array offset front) (second : Holds array next back)
    (adjacent : offset + front.length = next) : Holds array offset (front ++ back) :=
  holds_append.mpr ⟨first, adjacent ▸ second⟩

theorem Holds.eq_drop {array bytes : List UInt8} {offset : Nat} (holds : Holds array offset bytes)
    (ends : offset + bytes.length = array.length) : array.drop offset = bytes := by
  refine (List.IsPrefix.eq_of_length holds ?_).symm
  rw [List.length_drop]
  omega

end CheckedBytes
