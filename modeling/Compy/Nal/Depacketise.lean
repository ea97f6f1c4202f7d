import Compy.Nal.Transport

/-!
# What a receiver makes of the packets

The receiving side of RFC 6184 and RFC 7798, in the numbers of the fields: one packet with
a whole unit, or fragmentation units whose header is rebuilt from the indicator and the
type behind it.  It gets back every unit that the transport has sent.
-/

set_option autoImplicit false

namespace Compy.Nal

open CheckedBytes Fragmentation BitFields Compy.Rtp

inductive Codec where
  | H264
  | H265
  deriving DecidableEq, Repr

def NalHeader.codec : NalHeader → Codec
  | .H264 _ => .H264
  | .H265 _ => .H265

/-- Forbidden bit, `nal_ref_idc` and a type of 5 bits. -/
def h264Header (indicator : UInt8) (type : Nat) : NalHeader :=
  .H264 ⟨field indicator 7 1 == 1, UInt8.ofNat (field indicator 5 2), UInt8.ofNat type⟩

/-- Forbidden bit, a type of 6 bits, the layer across both bytes and the temporal id. -/
def h265Header (byte0 byte1 : UInt8) (type : Nat) : NalHeader :=
  .H265 ⟨field byte0 7 1 == 1, UInt8.ofNat type,
    UInt8.ofNat (32 * field byte0 0 1 + field byte1 3 5), UInt8.ofNat (field byte1 0 3)⟩

def singleUnit : Codec → List UInt8 → Option NalUnit
  | .H264, byte :: data =>
      if 1 ≤ field byte 0 5 ∧ field byte 0 5 ≤ 23 then
        some ⟨h264Header byte (field byte 0 5), data⟩
      else none
  | .H265, byte0 :: byte1 :: data =>
      if field byte0 1 6 ≤ 47 then some ⟨h265Header byte0 byte1 (field byte0 1 6), data⟩ else none
  | _, _ => none

/-- A fragmentation unit: the header of the whole unit, the bits S and E, and the data. -/
def fragment : Codec → List UInt8 → Option (NalHeader × Bool × Bool × List UInt8)
  | .H264, indicator :: fu :: data =>
      if field indicator 0 5 = 28 then
        some (h264Header indicator (field fu 0 5), field fu 7 1 == 1, field fu 6 1 == 1, data)
      else none
  | .H265, byte0 :: byte1 :: fu :: data =>
      if field byte0 1 6 = 49 then
        some (h265Header byte0 byte1 (field fu 0 6), field fu 7 1 == 1, field fu 6 1 == 1, data)
      else none
  | _, _ => none

def joinFragments : List (NalHeader × Bool × Bool × List UInt8) → Option NalUnit
  | [] => none
  | (header, fu) :: rest =>
      if rest.all (fun other => other.1 == header) then
        (collect (fu :: rest.map Prod.snd)).map (NalUnit.mk header)
      else none

def depacketise (codec : Codec) : List (List UInt8) → Option NalUnit
  | [] => none
  | first :: rest =>
      match singleUnit codec first with
      | some unit => if rest.isEmpty then some unit else none
      | none => ((first :: rest).mapM (fragment codec)).bind joinFragments

/-! ## Headers read back -/

theorem h264Header_eq (h : H264NalHeader) (indicator : UInt8) (type : Nat) (low : Nat)
    (valid : NalHeader.Valid (.H264 h)) (value : indicator.toNat = 32 * h.refIdc.toNat + low)
    (below : low < 32) (same : type = h.unitType.toNat) :
    h264Header indicator type = .H264 h := by
  obtain ⟨clear, idc, _, _⟩ := valid
  have bit : field indicator 7 1 = 0 := by
    rw [field, value]
    omega
  have ref : field indicator 5 2 = h.refIdc.toNat := by
    rw [field, value]
    omega
  rw [h264Header, bit, ref, same, UInt8.ofNat_toNat, UInt8.ofNat_toNat]
  obtain ⟨_, _, _⟩ := h
  cases clear
  rfl

theorem h265Header_eq (h : H265NalHeader) (type : UInt8) (kind : Nat)
    (valid : NalHeader.Valid (.H265 h)) (small : type.toNat < 64)
    (same : kind = h.unitType.toNat) :
    h265Header ({ h with unitType := type } : H265NalHeader).byte0 h.byte1 kind = .H265 h := by
  obtain ⟨clear, _, layer, temporal⟩ := valid
  have value0 := H265NalHeader.toNat_byte0 { h with unitType := type } clear small
  have value1 := h.toNat_byte1 temporal
  dsimp only at value0
  have bit : field ({ h with unitType := type } : H265NalHeader).byte0 7 1 = 0 := by
    rw [field, value0]
    omega
  have layers : 32 * field ({ h with unitType := type } : H265NalHeader).byte0 0 1 +
      field h.byte1 3 5 = h.nuhLayerId.toNat := by
    rw [field, field, value0, value1]
    omega
  have id : field h.byte1 0 3 = h.nuhTemporalIdPlus1.toNat := by
    rw [field, value1]
    omega
  rw [h265Header, bit, layers, id, same, UInt8.ofNat_toNat, UInt8.ofNat_toNat, UInt8.ofNat_toNat]
  obtain ⟨_, _, _, _⟩ := h
  cases clear
  rfl

theorem singleUnit_serialize (nalu : NalUnit) (valid : nalu.header.Valid) :
    singleUnit nalu.header.codec (nalu.header.serialize ++ nalu.payload) = some nalu := by
  obtain ⟨header, payload⟩ := nalu
  cases header with
  | H264 h =>
      have ⟨clear, idc, low, high⟩ := valid
      have value := h.toNat_serialize clear idc (by omega)
      have type : field h.serialize 0 5 = h.unitType.toNat := by
        rw [field, value]
        omega
      simp only [NalHeader.codec, NalHeader.serialize, List.cons_append, List.nil_append,
        singleUnit]
      rw [if_pos (by omega), h264Header_eq h _ _ _ valid value (by omega) type]
  | H265 h =>
      have ⟨clear, type, layer, temporal⟩ := valid
      have value := h.toNat_byte0 clear (by omega)
      have kind : field h.byte0 1 6 = h.unitType.toNat := by
        rw [field, value]
        omega
      have bytes := h265Header_eq h h.unitType _ valid (by omega) kind
      simp only [NalHeader.codec, NalHeader.serialize, H265NalHeader.store_serialize,
        List.cons_append, List.nil_append, singleUnit]
      rw [if_pos (by omega), bytes]

theorem field_nalFuHeader (isFirst isLast : Bool) (unitType : UInt8) (width : Nat)
    (type : unitType.toNat < 2 ^ width) (six : width ≤ 6) :
    field (nalFuHeader isFirst isLast unitType) 0 width = unitType.toNat ∧
      (field (nalFuHeader isFirst isLast unitType) 7 1 == 1) = isFirst ∧
      (field (nalFuHeader isFirst isLast unitType) 6 1 == 1) = isLast := by
  have power : 2 ^ width ∣ 2 ^ 6 := Nat.pow_dvd_pow 2 six
  have below : unitType.toNat < 64 := Nat.lt_of_lt_of_le type (Nat.le_of_dvd (by decide) power)
  have value := toNat_nalFuHeader isFirst isLast unitType below
  refine ⟨?_, ?_, ?_⟩
  · have flags : 2 ^ width ∣ 128 * isFirst.toNat + 64 * isLast.toNat :=
      Nat.dvd_add (Nat.dvd_mul_right_of_dvd (Nat.dvd_trans power (by decide)) _)
        (Nat.dvd_mul_right_of_dvd power _)
    obtain ⟨count, flags⟩ := flags
    rw [field, value, Nat.pow_zero, Nat.div_one, flags, Nat.mul_add_mod, Nat.mod_eq_of_lt type]
  · rw [field, value]
    cases isFirst <;> cases isLast <;> simp only [Bool.toNat_true, Bool.toNat_false] <;>
      simp only [beq_iff_eq, beq_eq_false_iff_ne] <;> omega
  · rw [field, value]
    cases isFirst <;> cases isLast <;> simp only [Bool.toNat_true, Bool.toNat_false] <;>
      simp only [beq_iff_eq, beq_eq_false_iff_ne] <;> omega

theorem fragment_writeFuHeader (header : NalHeader) (valid : header.Valid) (isFirst isLast : Bool)
    (data : List UInt8) :
    singleUnit header.codec (header.writeFuHeader isFirst isLast ++ data) = none ∧
      fragment header.codec (header.writeFuHeader isFirst isLast ++ data) =
        some (header, isFirst, isLast, data) := by
  cases header with
  | H264 h =>
      have ⟨clear, idc, low, high⟩ := valid
      have value := toNat_fuIdentifier h.refIdc idc
      have type : field (fuIdentifier h.refIdc) 0 5 = 28 := by
        rw [field, value]
        omega
      obtain ⟨kind, first, last⟩ := field_nalFuHeader isFirst isLast h.unitType 5
        (by omega) (by decide)
      simp only [NalHeader.codec, NalHeader.writeFuHeader, H264NalHeader.writeFuHeader,
        List.cons_append, List.nil_append, singleUnit, fragment]
      rw [if_neg (by omega), if_pos type, first, last,
        h264Header_eq h _ _ _ valid value (by omega) kind]
      exact ⟨rfl, rfl⟩
  | H265 h =>
      have ⟨clear, type, layer, temporal⟩ := valid
      have value := H265NalHeader.toNat_byte0 { h with unitType := 49 } clear
        (show (49 : UInt8).toNat < 64 by decide)
      have fu : field ({ h with unitType := 49 } : H265NalHeader).byte0 1 6 = 49 := by
        rw [field, value]
        simp only [UInt8.reduceToNat]
        omega
      obtain ⟨kind, first, last⟩ := field_nalFuHeader isFirst isLast h.unitType 6
        (by omega) (by decide)
      have bytes := h265Header_eq h 49 _ valid (by decide) kind
      simp only [NalHeader.codec, NalHeader.writeFuHeader, H265NalHeader.writeFuHeader,
        H265NalHeader.store_serialize, List.cons_append, List.nil_append, singleUnit, fragment]
      rw [if_neg (by omega), if_pos fu, first, last]
      exact ⟨rfl, by rw [← bytes]; rfl⟩

/-! ## Units read back -/

theorem mapM_some {α γ δ : Type} (read : γ → Option δ) (made : α → γ) (result : α → δ)
    (list : List α) (each : ∀ item, read (made item) = some (result item)) :
    (list.map made).mapM read = some (list.map result) := by
  induction list with
  | nil => rfl
  | cons item list ih =>
      rw [List.map_cons, List.mapM_cons, each, ih]
      rfl

theorem joinFragments_marked (header : NalHeader) (count : Nat) (piece : Nat → List UInt8)
    (several : 2 ≤ count) :
    joinFragments ((List.range count).map fun index =>
        (header, index == 0, index + 1 == count, piece index)) =
      (collect (marked count piece)).map (NalUnit.mk header) := by
  have positive : 0 < count := Nat.zero_lt_of_lt several
  rw [marked, map_range_cons _ positive, map_range_cons _ positive, joinFragments, if_pos,
    List.map_map]
  · rfl
  · rw [List.all_eq_true]
    intro other member
    obtain ⟨_, _, rfl⟩ := List.mem_map.mp member
    exact beq_self_eq_true header

theorem depacketise_fuPackets (nalu : NalUnit) (valid : nalu.header.Valid) (size : Nat)
    (positive : 0 < size) (longer : size < nalu.payload.length) :
    depacketise nalu.header.codec ((fuPackets nalu size).map RtpPayload.bytes) = some nalu := by
  have several := windowCount_ge_two positive longer
  have whole := collect_marked (windowCount size nalu.payload.length)
    (window size nalu.payload) several
  rw [flatten_allWindows positive] at whole
  generalize count_eq : windowCount size nalu.payload.length = count at several whole
  have read (index : Nat) := fragment_writeFuHeader nalu.header valid (index == 0)
    (index + 1 == count) (window size nalu.payload index)
  have fragments := mapM_some (fragment nalu.header.codec)
    (RtpPayload.bytes ∘ fuPacket nalu size count) _ (List.range count) fun index => (read index).2
  have joined := joinFragments_marked nalu.header count (window size nalu.payload) several
  rw [fuPackets, count_eq, List.map_map]
  have cut := map_range_cons (RtpPayload.bytes ∘ fuPacket nalu size count)
    (Nat.zero_lt_of_lt several)
  have first : singleUnit nalu.header.codec ((RtpPayload.bytes ∘ fuPacket nalu size count) 0) =
      none := (read 0).1
  rw [cut, depacketise, first, ← cut, fragments, Option.bind_some, joined, whole]
  rfl

/-- What the packets of a unit are to a receiver. -/
structure Sent (nalu : NalUnit) (limit : Nat) (packets : List RtpPayload) : Prop where
  restored : depacketise nalu.header.codec (packets.map RtpPayload.bytes) = some nalu
  bounded : ∀ packet ∈ packets, packet.bytes.length ≤ limit
  fragmented : limit ≤ nalu.header.size + nalu.payload.length → 2 ≤ packets.length ∧
    ∀ (index : Nat) (inside : index < packets.length), ∃ isFirst isLast data,
      fragment nalu.header.codec packets[index].bytes =
          some (nalu.header, isFirst, isLast, data) ∧
        (isFirst = true ↔ index = 0) ∧ (isLast = true ↔ index + 1 = packets.length) ∧
        packets[index].marker = isLast ∧ (isFirst && isLast) = false

theorem sent_fuPackets (nalu : NalUnit) (valid : nalu.header.Valid) (limit : Nat)
    (room : nalu.header.fuSize < limit)
    (long : limit ≤ nalu.header.size + nalu.payload.length) :
    Sent nalu limit (fuPackets nalu (limit - nalu.header.fuSize)) := by
  have header : nalu.header.fuSize = nalu.header.size + 1 := by
    cases nalu.header <;> rfl
  have positive : 0 < limit - nalu.header.fuSize := by omega
  have longer : limit - nalu.header.fuSize < nalu.payload.length := by omega
  have several := windowCount_ge_two positive longer
  refine ⟨depacketise_fuPackets nalu valid _ positive longer, length_fuPacket_le nalu limit room,
    fun _ => ?_⟩
  · have length : (fuPackets nalu (limit - nalu.header.fuSize)).length =
        windowCount (limit - nalu.header.fuSize) nalu.payload.length := by
      rw [fuPackets, List.length_map, List.length_range]
    refine ⟨length ▸ several, fun index inside => ?_⟩
    have packet : (fuPackets nalu (limit - nalu.header.fuSize))[index] = fuPacket nalu
        (limit - nalu.header.fuSize)
        (windowCount (limit - nalu.header.fuSize) nalu.payload.length) index := by
      simp only [fuPackets, List.getElem_map, List.getElem_range]
    rw [packet, length]
    refine ⟨_, _, _, (fragment_writeFuHeader nalu.header valid _ _ _).2, beq_iff_eq, beq_iff_eq,
      rfl, ?_⟩
    rw [Bool.and_eq_false_iff, beq_eq_false_iff_ne, beq_eq_false_iff_ne]
    omega

theorem sent_single (nalu : NalUnit) (valid : nalu.header.Valid) (limit : Nat) (marker : Bool)
    (short : nalu.header.size + nalu.payload.length < limit) :
    Sent nalu limit [⟨marker, nalu.header.serialize, nalu.payload⟩] := by
  refine ⟨?_, ?_, fun long => absurd short (Nat.not_lt.mpr long)⟩
  · rw [List.map_singleton, depacketise, RtpPayload.bytes, singleUnit_serialize nalu valid]
    rfl
  · intro packet member
    rw [List.mem_singleton.mp member, RtpPayload.bytes, List.length_append,
      NalHeader.length_serialize]
    exact Nat.le_of_lt short

theorem nalu_sent {ρ : Type} (config : NalTransportConfig) (send : RtpSend ρ)
    (emitted : ρ → List RtpPayload) (never : NeverFails send emitted) (nalu : NalUnit)
    (valid : nalu.header.Valid) (room : nalu.header.fuSize < config.limit nalu.header) (t : ρ) :
    ∃ t' ret packets, NalTransport.sendPacket config send nalu t = .ok (t', ret) ∧ ret ≠ -1 ∧
      emitted t' = emitted t ++ packets ∧ Sent nalu (config.limit nalu.header) packets := by
  obtain ⟨t', ret, sent, other, added⟩ := sendPacket_neverFails config send emitted never nalu
    (Nat.zero_lt_of_lt room) t
  refine ⟨t', ret, _, sent, other, added, ?_⟩
  rw [limitPackets]
  split
  · rename_i short
    exact sent_single nalu valid _ _ short
  · rename_i long
    rw [fragmentSize_room nalu.header _ room]
    exact sent_fuPackets nalu valid _ room (Nat.le_of_not_lt long)

def idrUnit : NalUnit where
  header := .H264 (H264NalHeader.parse 0x65)
  payload := [1, 2, 3, 4, 5, 6, 7, 8, 9]

theorem idrUnit_sent :
    ∃ t' ret packets, NalTransport.sendPacket ⟨10, 10⟩ recorder idrUnit [] = .ok (t', ret) ∧
      ret ≠ -1 ∧ id t' = id [] ++ packets ∧ Sent idrUnit 10 packets :=
  nalu_sent ⟨10, 10⟩ recorder id recorder_neverFails idrUnit
    ⟨rfl, by decide, by decide, by decide⟩ (by decide) []

end Compy.Nal
