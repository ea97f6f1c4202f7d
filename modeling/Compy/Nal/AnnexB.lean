import Compy.Library.CheckedBytes
import Compy.Library.Delimited
import Compy.Nal.Header

/-!
# The units of a file

The start codes of `nal.c`, and the table that `build_nal_index` makes of a file in Annex B
format: for every unit where it begins, how long it is and its type.
-/

set_option autoImplicit false

namespace Compy.Nal

open CheckedBytes Searching Delimited

def startCode3b : List UInt8 := [0x00, 0x00, 0x01]

def startCode4b : List UInt8 := [0x00, 0x00, 0x00, 0x01]

abbrev NalStartCodeTester := List UInt8 → Nat

/-- The common body of the two testers. -/
def testStartCode (code : List UInt8) : NalStartCodeTester := fun data =>
  if data.length < code.length then 0
  else if data.take code.length = code then code.length
  else 0

def testStartCode3b : NalStartCodeTester := testStartCode startCode3b

def testStartCode4b : NalStartCodeTester := testStartCode startCode4b

def determineStartCode (data : List UInt8) : Option NalStartCodeTester :=
  if testStartCode3b data ≠ 0 then some testStartCode3b
  else if testStartCode4b data ≠ 0 then some testStartCode4b
  else none

/-- `data` is where the unit begins in the file. -/
structure NalEntry where
  data : Nat
  len : Nat
  nalType : UInt8
  deriving DecidableEq, Repr

structure NalTable where
  entries : List NalEntry
  startIdx : Nat
  deriving DecidableEq, Repr

def nalTypeOf (byte : UInt8) : UInt8 := byte &&& 0x1F

def nalUnitSps : UInt8 := 7

theorem scan_shrinks (first : UInt8) (rest : List UInt8) {count : Nat} (some_ : 0 < count) :
    ((first :: rest).drop count).length < (first :: rest).length := by
  rw [List.length_drop, List.length_cons]
  omega

/-- The first pass. -/
def countNals (tester : NalStartCodeTester) : List UInt8 → Nat
  | [] => 0
  | first :: rest =>
      if found : 0 < tester (first :: rest) then
        countNals tester ((first :: rest).drop (tester (first :: rest))) + 1
      else countNals tester rest
termination_by scan => scan.length
decreasing_by
  · exact scan_shrinks first rest found
  · exact Nat.lt_succ_self _

/-- An entry of the table, which has a fixed number of them. -/
def storeEntry (table : List NalEntry) (idx : Nat) (entry : NalEntry) : Access (List NalEntry) :=
  if idx < table.length then .ok (table.set idx entry) else .error .outOfBounds

/-- The entry in front of `idx` ends where the pointer is. -/
def closeEntry (table : List NalEntry) (idx ptr : Nat) : Option Nat → Access (List NalEntry)
  | none => .ok table
  | some prevNal =>
      if 0 < idx then
        match table[idx - 1]? with
        | none => .error .outOfBounds
        | some entry => storeEntry table (idx - 1) { entry with len := ptr - prevNal }
      else .ok table

/-- The second pass, and the last unit, which extends to the end of the file.  The table has room
for `count` entries. -/
def indexNals (tester : NalStartCodeTester) (video : List UInt8) :
    (scan : List UInt8) → (idx : Nat) → (prevNal : Option Nat) → List NalEntry →
      Access (List NalEntry)
  | [], idx, prevNal, table => do
      let table ← closeEntry table idx video.length prevNal
      return table.take idx
  | first :: rest, idx, prevNal, table =>
      if found : 0 < tester (first :: rest) then do
        let ptr := video.length - (first :: rest).length
        let table ← closeEntry table idx ptr prevNal
        let scan := (first :: rest).drop (tester (first :: rest))
        let ptr := ptr + tester (first :: rest)
        let byte ← byteAt video ptr
        let table ← storeEntry table idx { data := ptr, len := 0, nalType := nalTypeOf byte }
        indexNals tester video scan (idx + 1) (some ptr) table
      else indexNals tester video rest idx prevNal table
termination_by scan => scan.length
decreasing_by
  · exact scan_shrinks first rest found
  · exact Nat.lt_succ_self _

/-- The first sequence parameter set, or the first unit. -/
def startIdx (types : List UInt8) : Nat :=
  match types.findIdx? (· == nalUnitSps) with
  | some i => i
  | none => 0

/-- There is no table for a file that does not begin with a start code.  What `malloc` gives is
`heap`. -/
def buildNalIndex (heap : NalEntry) (video : List UInt8) : Access (Option NalTable) :=
  match determineStartCode video with
  | none => .ok none
  | some tester => do
      let table := List.replicate (countNals tester video) heap
      let entries ← indexNals tester video video 0 none table
      return some { entries := entries, startIdx := startIdx (entries.map NalEntry.nalType) }

/-! ## What the table has to hold -/

/-- The entries of the units from the place `ptr` on. -/
def entriesFrom (code : List UInt8) : Nat → List (List UInt8) → List NalEntry
  | _, [] => []
  | ptr, unit :: units =>
      { data := ptr + code.length, len := unit.length
        nalType := nalTypeOf ((unit ++ joined code units).headD 0) } ::
          entriesFrom code (ptr + code.length + unit.length) units

theorem startCode_unbordered {code : List UInt8} (known : code = startCode3b ∨ code = startCode4b) :
    Unbordered code ∧ code ≠ [] := by
  rcases known with rfl | rfl
  · exact ⟨by decide, by decide⟩
  · exact ⟨by decide, by decide⟩

theorem testStartCode_found {code : List UInt8} (rest : List UInt8) :
    testStartCode code (code ++ rest) = code.length := by
  rw [testStartCode, if_neg (by rw [List.length_append]; omega), List.take_left, if_pos rfl]

theorem testStartCode_none {code data : List UInt8} (other : ¬ code <+: data) :
    testStartCode code data = 0 := by
  rw [testStartCode]
  split
  · rfl
  · rw [if_neg]
    intro same
    exact other (same ▸ List.take_prefix _ _)

theorem determineStartCode_eq {code : List UInt8}
    (known : code = startCode3b ∨ code = startCode4b) (rest : List UInt8) :
    determineStartCode (code ++ rest) = some (testStartCode code) := by
  rcases known with rfl | rfl
  · rw [determineStartCode, testStartCode3b, testStartCode_found]
    rfl
  · have other : ¬ startCode3b <+: startCode4b ++ rest := by
      intro starts
      have same := List.prefix_of_prefix_length_le starts (List.prefix_append startCode4b rest)
        (by decide)
      exact absurd same (by decide)
    rw [determineStartCode, testStartCode3b, testStartCode_none other, testStartCode4b,
      testStartCode_found]
    rfl

/-! ## The two passes -/

theorem closeEntry_open (closed more : List NalEntry) (start ptr : Nat) (type : UInt8) :
    closeEntry (closed ++ ⟨start, 0, type⟩ :: more) (closed.length + 1) ptr (some start) =
      .ok (closed ++ ⟨start, ptr - start, type⟩ :: more) := by
  rw [closeEntry, if_pos (Nat.zero_lt_succ _), Nat.add_sub_cancel,
    List.getElem?_append_right (Nat.le_refl _), Nat.sub_self, List.getElem?_cons_zero]
  dsimp only
  rw [storeEntry, if_pos (by simp), List.set_append_right _ _ (Nat.le_refl _), Nat.sub_self,
    List.set_cons_zero]

section

variable {code : List UInt8} (unbordered : Unbordered code) (present : code ≠ [])

include unbordered

theorem countNals_skip {piece rest : List UInt8} (clean : ¬ code <:+: piece)
    (follows : Follows code rest) :
    countNals (testStartCode code) (piece ++ rest) = countNals (testStartCode code) rest := by
  induction piece with
  | nil => rfl
  | cons first piece ih =>
      have none_ := testStartCode_none (no_start unbordered clean follows)
      rw [List.cons_append] at none_ ⊢
      rw [countNals, dif_neg (by rw [none_]; exact Nat.lt_irrefl 0), ih (clean_tail clean)]

theorem indexNals_skip (video : List UInt8) {piece rest : List UInt8} (clean : ¬ code <:+: piece)
    (follows : Follows code rest) (idx : Nat) (prevNal : Option Nat) (table : List NalEntry) :
    indexNals (testStartCode code) video (piece ++ rest) idx prevNal table =
      indexNals (testStartCode code) video rest idx prevNal table := by
  induction piece with
  | nil => rfl
  | cons first piece ih =>
      have none_ := testStartCode_none (no_start unbordered clean follows)
      rw [List.cons_append] at none_ ⊢
      rw [indexNals, dif_neg (by rw [none_]; exact Nat.lt_irrefl 0), ih (clean_tail clean)]

include present

theorem countNals_found (rest : List UInt8) :
    countNals (testStartCode code) (code ++ rest) = countNals (testStartCode code) rest + 1 := by
  have found := @testStartCode_found code rest
  have positive := List.length_pos_of_ne_nil present
  obtain ⟨first, more, rfl⟩ := List.exists_cons_of_ne_nil present
  rw [List.cons_append] at found ⊢
  rw [countNals, dif_pos (by rw [found]; exact positive), found, ← List.cons_append, List.drop_left]

theorem countNals_joined (units : List (List UInt8)) (clean : Clean code units) :
    countNals (testStartCode code) (joined code units) = units.length := by
  induction units with
  | nil =>
      rw [joined, List.flatMap_nil, countNals]
      rfl
  | cons unit units ih =>
      obtain ⟨here, later⟩ := List.forall_mem_cons.mp clean
      rw [joined_cons, countNals_found unbordered present,
        countNals_skip unbordered here (joined_follows units), ih later, List.length_cons]

theorem indexNals_found (video rest : List UInt8) (idx : Nat) (prevNal : Option Nat)
    (table : List NalEntry) :
    indexNals (testStartCode code) video (code ++ rest) idx prevNal table = (do
      let table ← closeEntry table idx (video.length - (code ++ rest).length) prevNal
      let byte ← byteAt video (video.length - (code ++ rest).length + code.length)
      let table ← storeEntry table idx
        { data := video.length - (code ++ rest).length + code.length, len := 0
          nalType := nalTypeOf byte }
      indexNals (testStartCode code) video rest (idx + 1)
        (some (video.length - (code ++ rest).length + code.length)) table) := by
  have found := @testStartCode_found code rest
  have positive := List.length_pos_of_ne_nil present
  obtain ⟨first, more, rfl⟩ := List.exists_cons_of_ne_nil present
  rw [List.cons_append] at found ⊢
  rw [indexNals, dif_pos (by rw [found]; exact positive)]
  simp only [found]
  rw [← List.cons_append, List.drop_left]

/-- The entry of a unit, from the place where it begins on. -/
def enter (code : List UInt8) (heap : NalEntry) (front unit : List UInt8)
    (units : List (List UInt8)) (closed : List NalEntry) : Access (List NalEntry) := do
  let byte ← byteAt (front ++ (unit ++ joined code units)) front.length
  let table ← storeEntry (closed ++ List.replicate (units.length + 1) heap) closed.length
    { data := front.length, len := 0, nalType := nalTypeOf byte }
  indexNals (testStartCode code) (front ++ (unit ++ joined code units)) (unit ++ joined code units)
    (closed.length + 1) (some front.length) table

omit unbordered present in
theorem enter_empty (heap : NalEntry) (front : List UInt8) (closed : List NalEntry) :
    enter code heap front [] [] closed = .error .outOfBounds := by
  rw [enter, joined, List.flatMap_nil, List.append_nil, List.append_nil, byteAt,
    dif_neg (Nat.lt_irrefl _)]
  rfl

omit present in
theorem enter_some (heap : NalEntry) (front : List UInt8) {unit : List UInt8}
    {units : List (List UInt8)} (here : ¬ code <:+: unit) (closed : List NalEntry) {byte : UInt8}
    {more : List UInt8} (next : unit ++ joined code units = byte :: more) :
    enter code heap front unit units closed =
      indexNals (testStartCode code) (front ++ (unit ++ joined code units)) (joined code units)
        (closed.length + 1) (some front.length)
        (closed ++ ⟨front.length, 0, nalTypeOf byte⟩ :: List.replicate units.length heap) := by
  have read : byteAt (front ++ (unit ++ joined code units)) front.length = .ok byte := by
    rw [next, byteAt_eq_ok, List.getElem?_append_right (Nat.le_refl _), Nat.sub_self]
    rfl
  rw [enter, read, ok_bind, storeEntry, if_pos (by simp), ok_bind,
    indexNals_skip unbordered _ here (joined_follows units), List.replicate_succ,
    List.set_append_right _ _ (Nat.le_refl _), Nat.sub_self, List.set_cons_zero]

theorem enter_eq (heap : NalEntry) (front unit : List UInt8) (units : List (List UInt8))
    (clean : Clean code (unit :: units)) (closed : List NalEntry) :
    enter code heap front unit units closed =
      if (unit :: units).getLast? = some [] then .error .outOfBounds
      else .ok (closed ++ ⟨front.length, unit.length,
        nalTypeOf ((unit ++ joined code units).headD 0)⟩ ::
          entriesFrom code (front.length + unit.length) units) := by
  induction units generalizing front unit closed with
  | nil =>
      have here := List.forall_mem_singleton.mp clean
      cases unit with
      | nil =>
          rw [enter_empty]
          rfl
      | cons byte more =>
          rw [enter_some unbordered heap front here closed (List.append_nil _), joined,
            List.flatMap_nil, List.append_nil, indexNals, closeEntry_open, ok_bind,
            List.length_append, Nat.add_sub_cancel_left, entriesFrom]
          simp
  | cons next units ih =>
      obtain ⟨here, later⟩ := List.forall_mem_cons.mp clean
      obtain ⟨byte, more, starts⟩ := List.exists_cons_of_ne_nil
        (List.append_ne_nil_of_right_ne_nil unit (t := joined code (next :: units)) (by
          rw [joined_cons]
          exact List.append_ne_nil_of_left_ne_nil present _))
      have ptr : (front ++ (unit ++ (code ++ (next ++ joined code units)))).length -
          (code ++ (next ++ joined code units)).length = front.length + unit.length := by
        simp only [List.length_append]
        omega
      have rest := ih (front ++ unit ++ code) next later
        (closed ++ [⟨front.length, unit.length, nalTypeOf byte⟩])
      have head : (unit ++ joined code (next :: units)).headD 0 = byte := by
        rw [starts]
        rfl
      rw [enter_some unbordered heap front here closed starts, head, joined_cons,
        indexNals_found unbordered present, ptr, closeEntry_open, ok_bind, Nat.add_sub_cancel_left,
        List.getLast?_cons_cons, entriesFrom]
      simp only [enter, List.length_append, List.length_singleton, List.append_assoc,
        List.singleton_append, Nat.add_assoc] at rest ⊢
      exact rest

end

theorem buildNalIndex_joined (heap : NalEntry) {code : List UInt8}
    (known : code = startCode3b ∨ code = startCode4b) {units : List (List UInt8)}
    (some_ : units ≠ []) (clean : Clean code units) :
    buildNalIndex heap (joined code units) =
      if units.getLast? = some [] then .error .outOfBounds
      else .ok (some ⟨entriesFrom code 0 units,
        startIdx ((entriesFrom code 0 units).map NalEntry.nalType)⟩) := by
  obtain ⟨unbordered, present⟩ := startCode_unbordered known
  obtain ⟨unit, units, rfl⟩ := List.exists_cons_of_ne_nil some_
  have count := countNals_joined unbordered present (unit :: units) clean
  have table := enter_eq unbordered present heap code unit units clean []
  simp only [enter, List.nil_append, List.length_nil] at table
  rw [joined_cons] at count
  rw [joined_cons, buildNalIndex, determineStartCode_eq known]
  dsimp only
  rw [count, indexNals_found unbordered present, closeEntry, ok_bind, Nat.sub_self, Nat.zero_add,
    List.length_cons, table]
  split
  · rfl
  · rw [ok_bind, entriesFrom, Nat.zero_add]
    rfl

/-- A file that begins with a start code is cut by it into units in one way; the table says of
every unit where it is, how long it is and of which type.  Reading the type of a unit that is
missing at the end of the file leaves the file. -/
theorem buildNalIndex_units (heap : NalEntry) {code : List UInt8}
    (known : code = startCode3b ∨ code = startCode4b) (video : List UInt8)
    (starts : code <+: video) : ∃ units, joined code units = video ∧ Clean code units ∧
      (∀ others, joined code others = video → Clean code others → others = units) ∧
      buildNalIndex heap video = if units.getLast? = some [] then .error .outOfBounds
        else .ok (some ⟨entriesFrom code 0 units,
          startIdx ((entriesFrom code 0 units).map NalEntry.nalType)⟩) := by
  obtain ⟨unbordered, present⟩ := startCode_unbordered known
  obtain ⟨units, same, clean, some_⟩ := exists_pieces present video starts
  refine ⟨units, same, clean, fun others same' clean' =>
    pieces_unique unbordered present clean' clean (same'.trans same.symm), ?_⟩
  rw [← same]
  exact buildNalIndex_joined heap known some_ clean

def shortVideo : List UInt8 := startCode3b ++ [0x67, 0x42] ++ startCode3b ++ [0x65, 0x88]

theorem shortVideo_units : ∃ units, joined startCode3b units = shortVideo ∧
    Clean startCode3b units ∧
      (∀ others, joined startCode3b others = shortVideo → Clean startCode3b others →
        others = units) ∧
      buildNalIndex ⟨0, 0, 0⟩ shortVideo = if units.getLast? = some [] then .error .outOfBounds
        else .ok (some ⟨entriesFrom startCode3b 0 units,
          startIdx ((entriesFrom startCode3b 0 units).map NalEntry.nalType)⟩) :=
  buildNalIndex_units ⟨0, 0, 0⟩ (Or.inl rfl) shortVideo (List.prefix_append _ _)

end Compy.Nal
