import Compy.Jpeg.Frame
import Compy.Library.BigEndian

/-!
# What the DQT and SOF0 segments tell

A DQT segment is a row of table definitions and a SOF0 segment a frame header.  `parse_dqt`
appends the tables as they come, `parse_sof0` keeps a type and two sizes of the header.
-/

set_option autoImplicit false

namespace Compy.Jpeg

open BigEndian CheckedBytes

/-! ## The readers -/

theorem readWord_ok (data : List UInt8) (p : Nat) (inside : p + 2 ≤ data.length) :
    readWord data p = .ok (word16 (data.drop p)) := by
  rw [readWord, byteAt_ok _ _ (by omega), ok_bind, byteAt_ok _ _ (by omega), ok_bind,
    List.drop_eq_getElem_cons (show p < data.length by omega),
    List.drop_eq_getElem_cons (show p + 1 < data.length by omega), shifted_eq_word16]
  rfl

/-! ## Quantisation tables -/

/-- A table with the byte in front of it, which holds `Pq` and `Tq`. -/
structure TableDefinition where
  head : UInt8
  table : List UInt8
  sized : table.length = if head >>> 4 &&& 0x0F = 0 then 64 else 128
  deriving DecidableEq

namespace TableDefinition

def bytes (self : TableDefinition) : List UInt8 := self.head :: self.table

def wide (self : TableDefinition) : Bool := self.head >>> 4 &&& 0x0F != 0

def tq (self : TableDefinition) : UInt8 := self.head &&& 0x0F

theorem length_table (self : TableDefinition) :
    self.table.length = if self.wide then 128 else 64 := by
  rw [self.sized, wide]
  by_cases narrow : self.head >>> 4 &&& 0x0F = 0 <;> simp [narrow]

theorem tq_lt (self : TableDefinition) : self.tq.toNat < 16 := by
  have mask := Nat.and_le_right (n := self.head.toNat) (m := 15)
  rw [tq, UInt8.toNat_and]
  exact Nat.lt_succ_of_le mask

theorem bytes_unique (definition other : TableDefinition) (rest tail : List UInt8)
    (same : definition.bytes ++ rest = other.bytes ++ tail) : definition = other ∧ rest = tail := by
  obtain ⟨head, table, sized⟩ := definition
  obtain ⟨code, bytes, length⟩ := other
  obtain ⟨rfl, behind⟩ := List.cons.inj same
  obtain ⟨rfl, rest⟩ := List.append_inj behind (sized.trans length.symm)
  exact ⟨rfl, rest⟩

end TableDefinition

theorem definitions_unique (definitions others : List TableDefinition)
    (same : definitions.flatMap TableDefinition.bytes = others.flatMap TableDefinition.bytes) :
    definitions = others := by
  induction definitions generalizing others with
  | nil =>
      cases others with
      | nil => rfl
      | cons other others => simp [TableDefinition.bytes] at same
  | cons definition definitions ih =>
      cases others with
      | nil => simp [TableDefinition.bytes] at same
      | cons other others =>
          rw [List.flatMap_cons, List.flatMap_cons] at same
          obtain ⟨rfl, behind⟩ := definition.bytes_unique other _ _ same
          rw [ih others behind]

def markPrecision (precision : UInt8) (definition : TableDefinition) : UInt8 :=
  if definition.wide ∧ definition.tq < 8 then precision ||| 1 <<< definition.tq else precision

structure TablesAdded (definitions : List TableDefinition) (info next : JpegFrameInfo) :
    Prop where
  data : next.qtData.val = info.qtData.val ++ definitions.flatMap TableDefinition.table
  precision : next.qtPrecision = definitions.foldl markPrecision info.qtPrecision

theorem TablesAdded.none {info next : JpegFrameInfo} (data : next.qtData = info.qtData)
    (precision : next.qtPrecision = info.qtPrecision) : TablesAdded [] info next := by
  refine ⟨?_, precision⟩
  rw [data, List.flatMap_nil, List.append_nil]

theorem TablesAdded.cons {definition : TableDefinition} {definitions : List TableDefinition}
    {info next final : JpegFrameInfo} (data : next.qtData.val = info.qtData.val ++ definition.table)
    (precision : next.qtPrecision = markPrecision info.qtPrecision definition)
    (rest : TablesAdded definitions next final) :
    TablesAdded (definition :: definitions) info final := by
  refine ⟨?_, ?_⟩
  · rw [rest.data, data, List.flatMap_cons, List.append_assoc]
  · rw [rest.precision, precision, List.foldl_cons]

theorem TablesAdded.append {first second : List TableDefinition} {info next final : JpegFrameInfo}
    (front : TablesAdded first info next) (back : TablesAdded second next final) :
    TablesAdded (first ++ second) info final := by
  refine ⟨?_, ?_⟩
  · rw [back.data, front.data, List.flatMap_append, List.append_assoc]
  · rw [back.precision, front.precision, List.foldl_append]

theorem parseDqtLoop_cases (data : List UInt8) (fuel p : Nat) (info : JpegFrameInfo)
    (enough : data.length - p < fuel) :
    ∃ result, parseDqtLoop data fuel p info = .ok result ∧ ∀ next ∈ result, ∃ definitions,
      data.drop p = definitions.flatMap TableDefinition.bytes ∧
      TablesAdded definitions info next ∧
      next = { info with qtData := next.qtData, qtPrecision := next.qtPrecision } := by
  induction fuel generalizing p info with
  | zero => omega
  | succ fuel ih =>
      rw [parseDqtLoop]
      by_cases more : p < data.length
      swap
      · refine ⟨some info, if_neg more, fun next same => ?_⟩
        obtain rfl := Option.some.inj same
        exact ⟨[], List.drop_eq_nil_of_le (Nat.le_of_not_lt more), .none rfl rfl, rfl⟩
      rw [if_pos more, byteAt_ok data p more, ok_bind]
      dsimp only
      generalize size : (if data[p] >>> 4 &&& 0x0F = 0 then 64 else 128) = tableSize
      by_cases short : data.length - (p + 1) < tableSize
      · exact ⟨none, by rw [if_pos short]; rfl, nofun⟩
      rw [if_neg short]
      by_cases full : maxQtData < info.qtLen + tableSize
      · exact ⟨none, by rw [if_pos full]; rfl, nofun⟩
      have length : ((data.drop (p + 1)).take tableSize).length = tableSize := by
        rw [List.length_take, List.length_drop]
        omega
      have room : (info.qtData.val ++ (data.drop (p + 1)).take tableSize).length ≤ maxQtData := by
        rw [List.length_append, length]
        exact Nat.le_of_not_lt full
      have positive : 0 < tableSize := by
        rw [← size]
        split <;> decide
      rw [if_neg full, readBytes_ok _ _ _ (by omega), ok_bind, QtData.append, dif_pos room,
        ok_bind]
      let definition : TableDefinition :=
        ⟨data[p], (data.drop (p + 1)).take tableSize, length.trans size.symm⟩
      obtain ⟨result, ran, keeps⟩ := ih (p + 1 + tableSize) _ (by omega)
      refine ⟨result, ran, fun next member => ?_⟩
      obtain ⟨definitions, bytes, added, others⟩ := keeps next member
      refine ⟨definition :: definitions, ?_, added.cons rfl ?_, others⟩
      · have behind : data.drop (p + 1 + tableSize) = (data.drop (p + 1)).drop tableSize :=
          List.drop_drop.symm
        rw [List.flatMap_cons, ← bytes, List.drop_eq_getElem_cons more, behind]
        exact congrArg (data[p] :: ·) (List.take_append_drop tableSize _).symm
      · simp [definition, markPrecision, TableDefinition.wide, TableDefinition.tq]

theorem parseDqt_cases (data : List UInt8) (info : JpegFrameInfo) :
    ∃ result, parseDqt data info = .ok result ∧ ∀ next ∈ result, ∃ definitions,
      data = definitions.flatMap TableDefinition.bytes ∧ TablesAdded definitions info next ∧
      next = { info with qtData := next.qtData, qtPrecision := next.qtPrecision } :=
  parseDqtLoop_cases data (data.length + 1) 0 info (by omega)

/-! ## The frame header -/

structure Component where
  id : UInt8
  horizontal : UInt8
  vertical : UInt8
  table : UInt8
  deriving DecidableEq, Repr

structure FrameHeader where
  precision : UInt8
  height : UInt16
  width : UInt16
  components : List Component
  deriving DecidableEq, Repr

def readComponents : (count : Nat) → List UInt8 → Option (List Component)
  | 0, _ => some []
  | count + 1, id :: sampling :: table :: rest =>
      (readComponents count rest).map
        (⟨id, sampling >>> 4 &&& 0x0F, sampling &&& 0x0F, table⟩ :: ·)
  | _ + 1, _ => none

def readFrameHeader : List UInt8 → Option FrameHeader
  | precision :: heightHigh :: heightLow :: widthHigh :: widthLow :: nf :: rest =>
      (readComponents nf.toNat rest).map
        (⟨precision, word16 [heightHigh, heightLow], word16 [widthHigh, widthLow], ·⟩)
  | _ => none

def FrameHeader.type (self : FrameHeader) : UInt8 :=
  match self.components with
  | luma :: _ :: _ :: _ => if luma.horizontal = 2 ∧ luma.vertical = 2 then 1 else 0
  | _ => 0

theorem FrameHeader.type_lt (self : FrameHeader) : self.type < 2 := by
  unfold type
  split
  · split <;> decide
  · decide

theorem FrameHeader.type_of_short (self : FrameHeader) (short : self.components.length < 3) :
    self.type = 0 := by
  unfold type
  split
  · rename_i same
    simp only [same, List.length_cons] at short
    omega
  · rfl

def JpegFrameInfo.setSizes (self : JpegFrameInfo) (header : FrameHeader) : JpegFrameInfo :=
  { self with
    type := header.type
    width8 := eighths header.width
    height8 := eighths header.height }

theorem readComponents_some (count : Nat) (bytes : List UInt8) (enough : count * 3 ≤ bytes.length) :
    ∃ components, readComponents count bytes = some components ∧ components.length = count := by
  induction count generalizing bytes with
  | zero => exact ⟨[], rfl, rfl⟩
  | succ count ih =>
      match bytes, enough with
      | id :: sampling :: table :: rest, enough =>
          simp only [List.length_cons] at enough
          obtain ⟨components, read, length⟩ := ih rest (by omega)
          exact ⟨_, by rw [readComponents, read]; rfl, by rw [List.length_cons, length]⟩
      | [], enough | [_], enough | [_, _], enough =>
          simp only [List.length_cons, List.length_nil] at enough
          omega

theorem readComponents_cons {count : Nat} {bytes : List UInt8} {components : List Component}
    (read : readComponents (count + 1) bytes = some components) :
    ∃ id sampling table rest others, bytes = id :: sampling :: table :: rest ∧
      readComponents count rest = some others ∧
      components = ⟨id, sampling >>> 4 &&& 0x0F, sampling &&& 0x0F, table⟩ :: others := by
  unfold readComponents at read
  split at read
  · contradiction
  · rename_i same
    obtain ⟨others, behind, rfl⟩ := Option.map_eq_some_iff.mp read
    obtain rfl := Nat.succ.inj same
    exact ⟨_, _, _, _, others, rfl, behind, rfl⟩
  · contradiction

theorem parseSof0_cases (data : List UInt8) (info : JpegFrameInfo) :
    ∃ result, parseSof0 data info = .ok result ∧ ∀ next ∈ result, ∃ header,
      readFrameHeader data = some header ∧ next = info.setSizes header := by
  rw [parseSof0]
  by_cases short : data.length < 6
  · exact ⟨none, by rw [if_pos short]; rfl, nofun⟩
  match data, short with
  | precision :: heightHigh :: heightLow :: widthHigh :: widthLow :: nf :: rest, short =>
    rw [if_neg short, readWord_ok _ _ (by simp), ok_bind, readWord_ok _ _ (by simp), ok_bind,
      byteAt_ok _ _ (by simp), ok_bind]
    simp only [List.getElem_cons_succ, List.getElem_cons_zero, List.drop_succ_cons, List.drop_zero]
    by_cases wrong : nf < 1 ∨ 4 < nf ∨ (precision :: heightHigh :: heightLow :: widthHigh ::
        widthLow :: nf :: rest).length < 6 + nf.toNat * 3
    · exact ⟨none, by rw [if_pos wrong]; rfl, nofun⟩
    have enough : nf.toNat * 3 ≤ rest.length := by
      have most := Nat.le_of_not_lt fun below => wrong (Or.inr (Or.inr below))
      simp only [List.length_cons] at most
      omega
    obtain ⟨components, read, count⟩ := readComponents_some nf.toNat rest enough
    have header : readFrameHeader (precision :: heightHigh :: heightLow :: widthHigh ::
        widthLow :: nf :: rest) = some ⟨precision, word16 [heightHigh, heightLow],
          word16 [widthHigh, widthLow], components⟩ := by
      rw [readFrameHeader, read]
      rfl
    rw [if_neg wrong]
    by_cases colour : 3 ≤ nf
    · obtain ⟨more, three⟩ : ∃ more, nf.toNat = more + 3 := ⟨nf.toNat - 3, by
        have least : 3 ≤ nf.toNat := colour
        omega⟩
      rw [three] at read
      obtain ⟨_, _, _, _, _, rfl, behindY, rfl⟩ := readComponents_cons read
      obtain ⟨_, _, _, _, _, rfl, behindCb, rfl⟩ := readComponents_cons behindY
      obtain ⟨_, _, _, _, _, rfl, _, rfl⟩ := readComponents_cons behindCb
      rw [if_pos colour, byteAt_ok _ _ (by simp)]
      refine ⟨_, rfl, fun next same => ⟨_, header, ?_⟩⟩
      obtain rfl := Option.some.inj same
      rfl
    · refine ⟨_, if_neg colour, fun next same => ⟨_, header, ?_⟩⟩
      obtain rfl := Option.some.inj same
      have few : components.length < 3 := by
        rw [count]
        exact Nat.lt_of_not_le colour
      rw [JpegFrameInfo.setSizes, FrameHeader.type_of_short _ few]
      rfl
  | [], short | [_], short | [_, _], short | [_, _, _], short | [_, _, _, _], short
  | [_, _, _, _, _], short => simp at short

end Compy.Jpeg
