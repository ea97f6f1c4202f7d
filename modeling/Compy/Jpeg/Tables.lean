import Compy.Jpeg.Reassembly
import Compy.Library.KeyedLog

/-!
# The numbers of the quantisation tables

A receiver knows the tables of the first fragment by their place in it.  The transport sends
them as they are defined and marks the 16-bit ones by their destinations.  The tables arrive
under their numbers if that comes to the same.
-/

set_option autoImplicit false

namespace Compy.Jpeg

open CheckedBytes Compy.Rtp

def TableDefinition.destination (self : TableDefinition) : Nat := self.tq.toNat

/-- The last table of every destination, by increasing destination. -/
def tablesInForce (definitions : List TableDefinition) : List TableDefinition :=
  KeyedLog.inForce TableDefinition.destination 16 definitions

structure TablesNumbered (definitions : List TableDefinition) (header : QuantisationHeader) :
    Prop where
  data : header.tables = (tablesInForce definitions).flatMap TableDefinition.table
  precision : ∀ i, header.precision.toNat.testBit i ↔
    ∃ definition ∈ (tablesInForce definitions)[i]?, definition.wide

def sortedTables (definitions : List TableDefinition) : List TableDefinition :=
  definitions.insertionSort fun a b => a.destination ≤ b.destination

/-- No destination comes twice, sorting changes none of the bytes, and a 16-bit table has all
smaller destinations beside it. -/
structure InOrder (definitions : List TableDefinition) : Prop where
  distinct : (definitions.map TableDefinition.destination).Nodup
  bytes : definitions.flatMap TableDefinition.table =
    (sortedTables definitions).flatMap TableDefinition.table
  filled : ∀ definition ∈ definitions, definition.wide → ∀ tq < definition.destination,
    ∃ other ∈ definitions, other.destination = tq

theorem InOrder.of_increasing {definitions : List TableDefinition}
    (increasing : definitions.Pairwise fun a b => a.destination < b.destination)
    (filled : ∀ definition ∈ definitions, definition.wide → ∀ tq < definition.destination,
      ∃ other ∈ definitions, other.destination = tq) : InOrder definitions := by
  refine ⟨KeyedLog.nodup_of_increasing increasing, ?_, filled⟩
  rw [sortedTables, (increasing.imp Nat.le_of_lt).insertionSort_eq]

/-! ## The precision bits -/

theorem testBit_markPrecision (precision : UInt8) (definition : TableDefinition) (i : Nat) :
    (markPrecision precision definition).toNat.testBit i =
      (precision.toNat.testBit i ||
        (definition.wide && definition.destination == i && decide (i < 8))) := by
  unfold markPrecision TableDefinition.destination
  by_cases marked : definition.wide ∧ definition.tq < 8
  · obtain ⟨wide, small⟩ := marked
    have below : definition.tq.toNat < 8 := small
    rw [if_pos ⟨wide, small⟩, UInt8.toNat_or, UInt8.toNat_shiftLeft, Nat.mod_eq_of_lt below,
      Nat.testBit_or, Nat.testBit_mod_two_pow, UInt8.toNat_one, Nat.one_shiftLeft,
      Nat.testBit_two_pow, wide]
    by_cases same : definition.tq.toNat = i <;> simp [same]
  · rw [if_neg marked]
    by_cases same : definition.tq.toNat = i
    · subst same
      have below : definition.tq < 8 ↔ definition.tq.toNat < 8 := Iff.rfl
      cases wide : definition.wide <;> simp_all
    · simp [same]

theorem testBit_foldl_markPrecision (definitions : List TableDefinition) (precision : UInt8)
    (i : Nat) :
    (definitions.foldl markPrecision precision).toNat.testBit i ↔ precision.toNat.testBit i ∨
      ∃ definition ∈ definitions, definition.wide ∧ definition.destination = i ∧ i < 8 := by
  induction definitions generalizing precision with
  | nil => simp
  | cons definition rest ih =>
      rw [List.foldl_cons, ih, testBit_markPrecision]
      simp [or_assoc, and_assoc]

/-! ## The tables of a header -/

theorem length_tables (definitions : List TableDefinition) :
    64 * definitions.length ≤ (definitions.flatMap TableDefinition.table).length := by
  induction definitions with
  | nil => simp
  | cons definition rest ih =>
      have length := definition.length_table
      rw [List.flatMap_cons, List.length_append, List.length_cons, length]
      split <;> omega

theorem destination_lt (definitions : List TableDefinition) :
    ∀ definition ∈ definitions, definition.destination < 16 :=
  fun definition _ => definition.tq_lt

theorem tablesInForce_distinct (definitions : List TableDefinition)
    (bytes : definitions.flatMap TableDefinition.table =
      (tablesInForce definitions).flatMap TableDefinition.table) :
    (definitions.map TableDefinition.destination).Nodup := by
  apply KeyedLog.distinct_of_weight fun definition => definition.table.length
  · intro definition _
    rw [definition.length_table]
    split <;> decide
  · have lengths := congrArg List.length bytes
    rw [List.length_flatMap, List.length_flatMap] at lengths
    exact lengths.symm

theorem tablesNumbered_iff_inOrder (definitions : List TableDefinition)
    (header : QuantisationHeader)
    (tables : header.tables = definitions.flatMap TableDefinition.table)
    (precision : header.precision = definitions.foldl markPrecision 0)
    (bounded : (definitions.flatMap TableDefinition.table).length ≤ maxQtData) :
    TablesNumbered definitions header ↔ InOrder definitions := by
  have numbered (distinct : (definitions.map TableDefinition.destination).Nodup) :
      (∀ i, header.precision.toNat.testBit i ↔
        ∃ definition ∈ (tablesInForce definitions)[i]?, definition.wide) ↔
      ∀ definition ∈ definitions, definition.wide → ∀ tq < definition.destination,
        ∃ other ∈ definitions, other.destination = tq := by
    have perm : (tablesInForce definitions).Perm definitions :=
      KeyedLog.inForce_perm distinct (destination_lt definitions)
    have few := length_tables definitions
    have short : (tablesInForce definitions).length ≤ 8 := by
      rw [perm.length_eq]
      rw [maxQtData] at bounded
      omega
    have increasing : (tablesInForce definitions).Pairwise
        fun a b => a.destination < b.destination := KeyedLog.inForce_increasing
    have marked := KeyedLog.marked_iff increasing TableDefinition.wide 8 short
    simp only [perm.mem_iff] at marked
    rw [← marked]
    simp [precision, testBit_foldl_markPrecision]
  constructor
  · intro holds
    have distinct := tablesInForce_distinct definitions (tables.symm.trans holds.data)
    refine ⟨distinct, ?_, (numbered distinct).mp holds.precision⟩
    rw [sortedTables, ← KeyedLog.inForce_eq_sorted distinct (destination_lt definitions), ← tables]
    exact holds.data
  · intro ordered
    refine ⟨?_, (numbered ordered.distinct).mpr ordered.filled⟩
    rw [tables, ordered.bytes, sortedTables,
      ← KeyedLog.inForce_eq_sorted ordered.distinct (destination_lt definitions)]
    rfl

/-! ## The tables of a frame -/

/-- The first of the packets holds the tables of the frame under their numbers. -/
def TablesDelivered (jpegFrame : List UInt8) (packets : List RtpPayload) : Prop :=
  ∃ segments sos scan definitions packet rest header, Layout jpegFrame segments sos scan ∧
    tableData segments = definitions.flatMap TableDefinition.bytes ∧ packets = packet :: rest ∧
    (readJpegPayload packet.bytes).bind JpegPayload.quantisation = some header ∧
    TablesNumbered definitions header

/-- The DQT segments before SOS define the tables in order. -/
def TablesInOrder (jpegFrame : List UInt8) : Prop :=
  ∃ segments sos scan definitions, Layout jpegFrame segments sos scan ∧
    tableData segments = definitions.flatMap TableDefinition.bytes ∧ InOrder definitions

theorem Layout.definitions_unique {frame scan otherScan : List UInt8}
    {segments others : List Segment} {sos otherSos : Segment}
    {definitions otherDefinitions : List TableDefinition} (layout : Layout frame segments sos scan)
    (other : Layout frame others otherSos otherScan)
    (data : tableData segments = definitions.flatMap TableDefinition.bytes)
    (otherData : tableData others = otherDefinitions.flatMap TableDefinition.bytes) :
    definitions = otherDefinitions := by
  obtain ⟨rfl, _, _⟩ := layout.unique other
  exact Jpeg.definitions_unique definitions otherDefinitions (data.symm.trans otherData)

section

variable {ρ : Type} {config : JpegTransportConfig} {send : RtpSend ρ}
  {jpegFrame : List UInt8} {t t' : ρ}

/-- The first fragment of a frame that is sent with success holds its tables as they come. -/
theorem tables_sent (accepted : JpegTransport.sendFrame config send jpegFrame t = .ok (t', 0)) :
    ∃ segments sos scan definitions packet rest header, Layout jpegFrame segments sos scan ∧
      tableData segments = definitions.flatMap TableDefinition.bytes ∧
      JpegTransport.sendFrame config (recording send) jpegFrame (t, []) =
        .ok ((t', packet :: rest), 0) ∧
      (readJpegPayload packet.bytes).bind JpegPayload.quantisation = some header ∧
      (TablesNumbered definitions header ↔ InOrder definitions) := by
  obtain ⟨segments, sos, scan, final, scanStart, packets, layout, uses, found, nonempty, short,
    recorded, fragments⟩ := accepted_cases accepted
  obtain ⟨definitions, data, tables⟩ := uses.tablesAdded
  cases packets with
  | nil => exact absurd rfl (fragments.nonempty nonempty)
  | cons packet rest =>
      obtain ⟨start, chunk, same, _, first, _⟩ := fragments.getElem 0 (Nat.zero_lt_succ _)
      obtain rfl := first.mpr rfl
      have agrees := TypeAgrees.finish final.2 (uses.type_lt found) scanStart scan.length
      have read := read_jpegPacket _ agrees scan 0 chunk (by decide)
      refine ⟨segments, sos, scan, definitions, packet, rest,
        ⟨final.2.qtPrecision, UInt16.ofNat final.2.qtLen, final.2.qtData.val⟩, layout, data,
        recorded, ?_, tablesNumbered_iff_inOrder definitions _ tables.data tables.precision ?_⟩
      · rw [show packet = jpegPacket _ scan 0 chunk from same, read]
        rfl
      · have whole : final.2.qtData.val = definitions.flatMap TableDefinition.table := tables.data
        rw [← whole]
        exact final.2.qtData.property

theorem TablesDelivered.inOrder {packets : List RtpPayload}
    (accepted : JpegTransport.sendFrame config send jpegFrame t = .ok (t', 0))
    (sent : JpegTransport.sendFrame config (recording send) jpegFrame (t, []) =
      .ok ((t', packets), 0))
    (delivered : TablesDelivered jpegFrame packets) : TablesInOrder jpegFrame := by
  obtain ⟨segments, sos, scan, definitions, packet, rest, header, layout, data, recorded, read,
    same⟩ := tables_sent accepted
  obtain ⟨others, otherSos, otherScan, otherDefinitions, first, more, other, otherLayout,
    otherData, rfl, otherRead, numbered⟩ := delivered
  obtain rfl := layout.definitions_unique otherLayout data otherData
  rw [recorded] at sent
  cases sent
  rw [read] at otherRead
  cases otherRead
  exact ⟨segments, sos, scan, definitions, layout, data, same.mp numbered⟩

/-- Whatever the transport, the tables of an accepted frame are given to it under their
numbers exactly where they are defined in order. -/
theorem tablesDelivered_iff
    (accepted : JpegTransport.sendFrame config send jpegFrame t = .ok (t', 0)) :
    ∃ packets, JpegTransport.sendFrame config (recording send) jpegFrame (t, []) =
        .ok ((t', packets), 0) ∧
      (TablesDelivered jpegFrame packets ↔ TablesInOrder jpegFrame) := by
  obtain ⟨segments, sos, scan, definitions, packet, rest, header, layout, data, recorded, read,
    same⟩ := tables_sent accepted
  refine ⟨packet :: rest, recorded, TablesDelivered.inOrder accepted recorded, ?_⟩
  rintro ⟨others, otherSos, otherScan, otherDefinitions, otherLayout, otherData, ordered⟩
  obtain rfl := layout.definitions_unique otherLayout data otherData
  exact ⟨segments, sos, scan, definitions, packet, rest, header, layout, data, rfl, read,
    same.mpr ordered⟩

end

/-! ## A picture with two tables -/

def lumaTable : TableDefinition := ⟨0x00, List.replicate 64 1, rfl⟩

def chromaTable : TableDefinition := ⟨0x01, List.replicate 64 2, rfl⟩

/-- The frame header of a picture that is 16 high, with the sampling of its luma component. -/
def pictureHeader (width luma : UInt8) : Segment :=
  ⟨0, jpegSof0, [8, 0, 16, 0, width, 3, 1, luma, 0, 2, 0x11, 1, 3, 0x11, 1]⟩

def pictureSegments (tables : List TableDefinition) (width luma : UInt8) : List Segment :=
  tables.map (fun definition => ⟨0, jpegDqt, definition.bytes⟩) ++ [pictureHeader width luma]

def pictureSos : Segment := ⟨0, jpegSos, [3, 1, 0x00, 2, 0x11, 3, 0x11, 0, 63, 0]⟩

def picture (tables : List TableDefinition) (width luma : UInt8) : List UInt8 :=
  [0xFF, jpegSoi] ++
    ((pictureSegments tables width luma).flatMap Segment.bytes ++ pictureSos.bytes) ++
    [1, 2, 3] ++ [0xFF, jpegEoi]

theorem picture_layout (tables : List TableDefinition) (width luma : UInt8) :
    Layout (picture tables width luma) (pictureSegments tables width luma) pictureSos
      [1, 2, 3] := by
  refine ⟨rfl, ?_, ⟨by decide, by decide, by decide⟩, rfl⟩
  intro segment member
  simp only [pictureSegments, List.mem_append, List.mem_map, List.mem_singleton] at member
  rcases member with ⟨definition, _, rfl⟩ | rfl
  · have sized : standalone jpegDqt ≠ true := by decide
    refine ⟨⟨show jpegDqt ≠ 0xFF by decide, fun bare => absurd bare sized, ?_⟩,
      show jpegDqt ≠ jpegSos by decide⟩
    have length := definition.length_table
    simp only [TableDefinition.bytes, List.length_cons, length]
    split <;> decide
  · have sized : standalone jpegSof0 ≠ true := by decide
    exact ⟨⟨show jpegSof0 ≠ 0xFF by decide, fun bare => absurd bare sized,
      show 15 + 2 < 2 ^ 16 by decide⟩, show jpegSof0 ≠ jpegSos by decide⟩

theorem picture_tables (tables : List TableDefinition) (width luma : UInt8) :
    tableData (pictureSegments tables width luma) = tables.flatMap TableDefinition.bytes := by
  have header : tableData [pictureHeader width luma] = [] := rfl
  rw [pictureSegments, tableData_append, header, List.append_nil]
  induction tables with
  | nil => rfl
  | cons definition rest ih =>
      rw [List.map_cons, ← List.singleton_append, tableData_append, ih, List.flatMap_cons]
      simp [tableData]

def orderedPicture : List UInt8 := picture [lumaTable, chromaTable] 16 0x22

def swappedPicture : List UInt8 := picture [chromaTable, lumaTable] 16 0x22

def picturePacket (tables : List TableDefinition) : RtpPayload where
  marker := true
  header := [0, 0, 0, 0, 1, 255, 2, 2, 0, 0, 0, 128] ++ tables.flatMap TableDefinition.table
  data := [1, 2, 3]

theorem orderedPicture_accepted : JpegTransport.sendFrame ⟨1200⟩ recorder orderedPicture [] =
    .ok ([picturePacket [lumaTable, chromaTable]], 0) := by decide +kernel

theorem ordered_tables_delivered : ∃ packets,
    JpegTransport.sendFrame ⟨1200⟩ (recording recorder) orderedPicture ([], []) =
        .ok (([picturePacket [lumaTable, chromaTable]], packets), 0) ∧
      TablesDelivered orderedPicture packets := by
  obtain ⟨packets, sent, same⟩ := tablesDelivered_iff orderedPicture_accepted
  refine ⟨packets, sent, same.mpr ?_⟩
  exact ⟨_, _, _, _, picture_layout _ 16 0x22, picture_tables _ 16 0x22,
    InOrder.of_increasing (by decide) (by decide)⟩

theorem swapped_tables_confused :
    JpegTransport.sendFrame ⟨1200⟩ (recording recorder) swappedPicture ([], []) =
        .ok (([picturePacket [chromaTable, lumaTable]], [picturePacket [chromaTable, lumaTable]]),
          0) ∧
      ¬ TablesDelivered swappedPicture [picturePacket [chromaTable, lumaTable]] := by
  have accepted : JpegTransport.sendFrame ⟨1200⟩ recorder swappedPicture [] =
      .ok ([picturePacket [chromaTable, lumaTable]], 0) := by decide +kernel
  have sent : JpegTransport.sendFrame ⟨1200⟩ (recording recorder) swappedPicture ([], []) =
      .ok (([picturePacket [chromaTable, lumaTable]], [picturePacket [chromaTable, lumaTable]]),
        0) := by decide +kernel
  refine ⟨sent, fun delivered => ?_⟩
  obtain ⟨segments, sos, scan, definitions, layout, data, ordered⟩ :=
    delivered.inOrder accepted sent
  obtain rfl := (picture_layout [chromaTable, lumaTable] 16 0x22).definitions_unique layout
    (picture_tables _ 16 0x22) data
  exact absurd ordered.bytes (by decide +kernel)

end Compy.Jpeg
