import Compy.Jpeg.Tables

/-!
# The geometry that the headers describe

The main header of a fragment has a type for the sampling and a byte for each size, in units
of eight pixels.  The parser gives the type 0 to all that is not 4:2:0 and rounds the sizes
down, so that only some frame headers are described by what is sent.
-/

set_option autoImplicit false

namespace Compy.Jpeg

open BigEndian CheckedBytes Compy.Rtp

def FrameHeader.sampling (self : FrameHeader) : List (UInt8 × UInt8) :=
  self.components.map fun component => (component.horizontal, component.vertical)

/-- The type without the mark of the restart markers. -/
def JpegPayload.baseType (self : JpegPayload) : UInt8 := self.type &&& 0x3F

/-- 4:2:2 is type 0 and 4:2:0 is type 1. -/
def typeSampling (baseType : UInt8) : Option (List (UInt8 × UInt8)) :=
  if baseType = 0 then some [(2, 1), (1, 1), (1, 1)]
  else if baseType = 1 then some [(2, 2), (1, 1), (1, 1)]
  else none

/-- The pixels of an MCU, whose luma blocks are two wide and as high as the type says. -/
def mcuWidth : Nat := 16

def mcuHeight (baseType : UInt8) : Nat := if baseType = 0 then 8 else 16

def unitCount (size unit : Nat) : Nat := (size + (unit - 1)) / unit

/-- What the header of a fragment says is so in the frame header. -/
structure Described (header : FrameHeader) (fragment : JpegPayload) : Prop where
  sampling : typeSampling fragment.baseType = some header.sampling
  columns : unitCount (8 * fragment.width.toNat) mcuWidth = unitCount header.width.toNat mcuWidth
  rows : unitCount (8 * fragment.height.toNat) (mcuHeight fragment.baseType) =
    unitCount header.height.toNat (mcuHeight fragment.baseType)

/-- Nothing of a unit of 16 is lost when the size is rounded down to eights. -/
def Covered (size : UInt16) : Prop := size.toNat % 16 = 0 ∨ 8 ≤ size.toNat % 16

/-- The frame headers that the payload format and this parser have in common. -/
inductive Representable (header : FrameHeader) : Prop where
  | yuv422 (sampling : header.sampling = [(2, 1), (1, 1), (1, 1)]) (width : Covered header.width)
      (height : header.height.toNat % 8 = 0)
  | yuv420 (sampling : header.sampling = [(2, 2), (1, 1), (1, 1)]) (width : Covered header.width)
      (height : Covered header.height)

/-! ## One header -/

theorem toNat_eighths (size : UInt16) (small : size ≤ 2040) :
    (eighths size).toNat = size.toNat / 8 := by
  have bound : size.toNat ≤ 2040 := small
  rw [eighths, if_neg (UInt16.not_lt.mpr small), UInt16.toNat_toUInt8, UInt16.toNat_div]
  simp only [UInt16.reduceToNat]
  omega

theorem unitCount_sixteen_iff (size : UInt16) :
    unitCount (8 * (size.toNat / 8)) 16 = unitCount size.toNat 16 ↔ Covered size := by
  rw [unitCount, unitCount, Covered]
  omega

theorem unitCount_eight_iff (size : UInt16) :
    unitCount (8 * (size.toNat / 8)) 8 = unitCount size.toNat 8 ↔ size.toNat % 8 = 0 := by
  rw [unitCount, unitCount]
  omega

theorem FrameHeader.type_of_sampling (self : FrameHeader) (luma cb cr : UInt8 × UInt8)
    (sampling : self.sampling = [luma, cb, cr]) : self.type = if luma = (2, 2) then 1 else 0 := by
  simp only [FrameHeader.sampling, List.map_eq_cons_iff, List.map_eq_nil_iff] at sampling
  obtain ⟨y, _, components, rfl, _, _, rfl, _, _, _, rfl, _, rfl⟩ := sampling
  rw [type, components]
  simp

theorem FrameHeader.type_cases (self : FrameHeader) : self.type = 0 ∨ self.type = 1 := by
  unfold type
  split
  · split <;> simp
  · simp

theorem described_iff_representable (header : FrameHeader) (fragment : JpegPayload)
    (narrow : header.width ≤ 2040) (low : header.height ≤ 2040)
    (type : fragment.baseType = header.type) (width : fragment.width = eighths header.width)
    (height : fragment.height = eighths header.height) :
    Described header fragment ↔ Representable header := by
  have columns := unitCount_sixteen_iff header.width
  rw [← toNat_eighths header.width narrow, ← width] at columns
  constructor
  · intro described
    have covered := columns.mp described.columns
    have sampling := described.sampling
    have rows := described.rows
    rw [height, toNat_eighths header.height low, type] at rows
    rw [type] at sampling
    rcases header.type_cases with zero | one
    · rw [zero] at sampling rows
      exact .yuv422 (Option.some.inj sampling).symm covered ((unitCount_eight_iff _).mp rows)
    · rw [one] at sampling rows
      exact .yuv420 (Option.some.inj sampling).symm covered ((unitCount_sixteen_iff _).mp rows)
  · intro representable
    cases representable with
    | yuv422 sampling covered whole =>
        have zero := type.trans (header.type_of_sampling _ _ _ sampling)
        refine ⟨?_, columns.mpr covered, ?_⟩
        · rw [zero, sampling]
          rfl
        · rw [zero, height, toNat_eighths header.height low]
          exact (unitCount_eight_iff _).mpr whole
    | yuv420 sampling covered whole =>
        have one := type.trans (header.type_of_sampling _ _ _ sampling)
        refine ⟨?_, columns.mpr covered, ?_⟩
        · rw [one, sampling]
          rfl
        · rw [one, height, toNat_eighths header.height low]
          exact (unitCount_sixteen_iff _).mpr whole

/-! ## The headers of a frame -/

def HeaderInForce (jpegFrame : List UInt8) (header : FrameHeader) : Prop :=
  ∃ segments sos scan, Layout jpegFrame segments sos scan ∧
    lastFrameHeader segments = some header

/-- There are packets, and every one describes the frame header. -/
def GeometryDelivered (header : FrameHeader) (packets : List RtpPayload) : Prop :=
  packets ≠ [] ∧ ∀ packet ∈ packets,
    ∃ fragment, readJpegPayload packet.bytes = some fragment ∧ Described header fragment

theorem HeaderInForce.unique {jpegFrame : List UInt8} {header other : FrameHeader}
    (inForce : HeaderInForce jpegFrame header) (otherInForce : HeaderInForce jpegFrame other) :
    header = other := by
  obtain ⟨segments, sos, scan, layout, last⟩ := inForce
  obtain ⟨_, _, _, otherLayout, otherLast⟩ := otherInForce
  obtain ⟨rfl, _, _⟩ := layout.unique otherLayout
  exact Option.some.inj (last.symm.trans otherLast)

theorem baseType_finish (self : JpegFrameInfo) (header : FrameHeader) (scanOffset scanLen : Nat)
    (type : self.type = header.type) :
    (self.finish scanOffset scanLen).type &&& 0x3F = header.type := by
  rw [self.finish_type, type]
  rcases header.type_cases with zero | one
  · rw [zero]
    split <;> decide
  · rw [one]
    split <;> decide

section

variable {ρ : Type} {config : JpegTransportConfig} {send : RtpSend ρ}
  {jpegFrame : List UInt8} {t t' : ρ}

/-- The fragments of a frame that is sent with success have the type and the sizes of the
SOF0 in force. -/
theorem headers_sent (accepted : JpegTransport.sendFrame config send jpegFrame t = .ok (t', 0)) :
    ∃ header packets, HeaderInForce jpegFrame header ∧
      JpegTransport.sendFrame config (recording send) jpegFrame (t, []) =
        .ok ((t', packets), 0) ∧ packets ≠ [] ∧
      ∀ packet ∈ packets, ∃ fragment, readJpegPayload packet.bytes = some fragment ∧
        fragment.baseType = header.type ∧ fragment.width = eighths header.width ∧
        fragment.height = eighths header.height := by
  obtain ⟨segments, sos, scan, final, scanStart, packets, layout, uses, found, nonempty, short,
    recorded, fragments⟩ := accepted_cases accepted
  have known := uses.headerKnown none ⟨rfl, nofun⟩
  obtain ⟨header, last⟩ := Option.isSome_iff_exists.mp (known.found.symm.trans found)
  obtain ⟨type, width, height⟩ := known.sizes header last
  refine ⟨header, packets, ⟨segments, sos, scan, layout, last⟩, recorded,
    fragments.nonempty nonempty, fun packet member => ?_⟩
  obtain ⟨index, inside, rfl⟩ := List.mem_iff_getElem.mp member
  obtain ⟨start, chunk, same, _, _, _, within, _⟩ := fragments.getElem index inside
  have agrees := TypeAgrees.finish final.2 (uses.type_lt found) scanStart scan.length
  have read := read_jpegPacket _ agrees scan start chunk (by omega)
  rw [same]
  exact ⟨_, read, baseType_finish final.2 header scanStart scan.length type, width, height⟩

theorem GeometryDelivered.representable {header : FrameHeader} {packets : List RtpPayload}
    (accepted : JpegTransport.sendFrame config send jpegFrame t = .ok (t', 0))
    (sent : JpegTransport.sendFrame config (recording send) jpegFrame (t, []) =
      .ok ((t', packets), 0))
    (inForce : HeaderInForce jpegFrame header) (narrow : header.width ≤ 2040)
    (low : header.height ≤ 2040) (delivered : GeometryDelivered header packets) :
    Representable header := by
  obtain ⟨other, others, otherInForce, recorded, some, headers⟩ := headers_sent accepted
  obtain rfl := inForce.unique otherInForce
  rw [recorded] at sent
  cases sent
  obtain ⟨packet, member⟩ := List.exists_mem_of_ne_nil packets some
  obtain ⟨fragment, read, type, width, height⟩ := headers packet member
  obtain ⟨otherFragment, otherRead, right⟩ := delivered.2 packet member
  rw [read] at otherRead
  cases otherRead
  exact (described_iff_representable header fragment narrow low type width height).mp right

/-- Whatever the transport, an accepted frame is described as it is exactly where its header
is one of those that the payload format has. -/
theorem geometryDelivered_iff
    (accepted : JpegTransport.sendFrame config send jpegFrame t = .ok (t', 0)) :
    ∃ header packets, HeaderInForce jpegFrame header ∧
      JpegTransport.sendFrame config (recording send) jpegFrame (t, []) =
        .ok ((t', packets), 0) ∧
      (header.width ≤ 2040 → header.height ≤ 2040 →
        (GeometryDelivered header packets ↔ Representable header)) := by
  obtain ⟨header, packets, inForce, recorded, some, headers⟩ := headers_sent accepted
  refine ⟨header, packets, inForce, recorded, fun narrow low => ⟨?_, fun representable => ?_⟩⟩
  · exact GeometryDelivered.representable accepted recorded inForce narrow low
  · refine ⟨some, fun packet member => ?_⟩
    obtain ⟨fragment, read, type, width, height⟩ := headers packet member
    exact ⟨fragment, read, (described_iff_representable header fragment narrow low type width
      height).mpr representable⟩

end

/-! ## Pictures that are described right and wrong -/

theorem orderedPicture_described : ∃ header packets, HeaderInForce orderedPicture header ∧
    JpegTransport.sendFrame ⟨1200⟩ (recording recorder) orderedPicture ([], []) =
      .ok (([picturePacket [lumaTable, chromaTable]], packets), 0) ∧
    GeometryDelivered header packets := by
  have last : lastFrameHeader (pictureSegments [lumaTable, chromaTable] 16 0x22) =
      some ⟨8, 16, 16, [⟨1, 2, 2, 0⟩, ⟨2, 1, 1, 1⟩, ⟨3, 1, 1, 1⟩]⟩ := by decide
  obtain ⟨header, packets, inForce, sent, same⟩ := geometryDelivered_iff orderedPicture_accepted
  obtain rfl := inForce.unique ⟨_, _, _, picture_layout _ 16 0x22, last⟩
  refine ⟨_, packets, inForce, sent, (same (by decide) (by decide)).mpr ?_⟩
  exact .yuv420 rfl (Or.inl rfl) (Or.inl rfl)

def Misdescribed (jpegFrame : List UInt8) : Prop :=
  ∃ header t' packets, HeaderInForce jpegFrame header ∧ header.width ≤ 2040 ∧
    header.height ≤ 2040 ∧
    JpegTransport.sendFrame ⟨1200⟩ (recording recorder) jpegFrame ([], []) =
      .ok ((t', packets), 0) ∧
    ¬ GeometryDelivered header packets

theorem Misdescribed.of_status {jpegFrame : List UInt8} {header : FrameHeader}
    (inForce : HeaderInForce jpegFrame header) (narrow : header.width ≤ 2040)
    (low : header.height ≤ 2040) (other : ¬ Representable header)
    (status : (JpegTransport.sendFrame ⟨1200⟩ recorder jpegFrame []).map Prod.snd = .ok 0) :
    Misdescribed jpegFrame := by
  cases ran : JpegTransport.sendFrame ⟨1200⟩ recorder jpegFrame [] with
  | error fault =>
      rw [ran] at status
      contradiction
  | ok sent =>
      obtain ⟨t', ret⟩ := sent
      rw [ran] at status
      obtain rfl : ret = 0 := Except.ok.inj status
      obtain ⟨_, packets, _, recorded, _⟩ := headers_sent ran
      refine ⟨header, t', packets, inForce, narrow, low, recorded, fun delivered => other ?_⟩
      exact delivered.representable ran recorded inForce narrow low

/-- A picture 20 wide, of whose two columns one is left, and one in 4:4:4, which becomes
4:2:2. -/
theorem pictures_misdescribed : Misdescribed (picture [lumaTable] 20 0x22) ∧
    Misdescribed (picture [lumaTable] 16 0x11) := by
  have wide : lastFrameHeader (pictureSegments [lumaTable] 20 0x22) =
      some ⟨8, 16, 20, [⟨1, 2, 2, 0⟩, ⟨2, 1, 1, 1⟩, ⟨3, 1, 1, 1⟩]⟩ := by decide
  have full : lastFrameHeader (pictureSegments [lumaTable] 16 0x11) =
      some ⟨8, 16, 16, [⟨1, 1, 1, 0⟩, ⟨2, 1, 1, 1⟩, ⟨3, 1, 1, 1⟩]⟩ := by decide
  constructor
  · apply Misdescribed.of_status ⟨_, _, _, picture_layout _ 20 0x22, wide⟩ (by decide) (by decide)
    · rintro (⟨sampling, covered, _⟩ | ⟨_, covered, _⟩)
      · contradiction
      · exact absurd covered (by unfold Covered; decide)
    · decide +kernel
  · apply Misdescribed.of_status ⟨_, _, _, picture_layout _ 16 0x11, full⟩ (by decide) (by decide)
    · rintro (⟨sampling, _, _⟩ | ⟨sampling, _, _⟩)
      · contradiction
      · contradiction
    · decide +kernel

end Compy.Jpeg
