import Compy.Jpeg.Segments
import Compy.Jpeg.Transport

/-!
# What a receiver makes of the fragments

The payload format of RFC 2435: the main header, a restart header for the types from 64 to
127, a quantisation table header for the values of Q from 128 on at offset zero, and scan
data.  A receiver that puts each fragment at its offset gets back the scan of the frame.
-/

set_option autoImplicit false

namespace Compy.Jpeg

open BigEndian CheckedBytes Compy.Rtp

structure QuantisationHeader where
  precision : UInt8
  length : UInt16
  tables : List UInt8
  deriving DecidableEq, Repr

structure JpegPayload where
  offset : Nat
  type : UInt8
  q : UInt8
  width : UInt8
  height : UInt8
  restart : Option UInt16
  quantisation : Option QuantisationHeader
  data : List UInt8
  deriving DecidableEq, Repr

def readRestart (type : UInt8) (bytes : List UInt8) : Option (Option UInt16 × List UInt8) :=
  if 64 ≤ type ∧ type ≤ 127 then
    if 4 ≤ bytes.length then some (some (word16 bytes), bytes.drop 4) else none
  else some (none, bytes)

def readTables : List UInt8 → Option (QuantisationHeader × List UInt8)
  | _ :: precision :: high :: low :: rest =>
      let length := word16 [high, low]
      if length.toNat ≤ rest.length then
        some (⟨precision, length, rest.take length.toNat⟩, rest.drop length.toNat)
      else none
  | _ => none

def readQuantisation (q : UInt8) (offset : Nat) (bytes : List UInt8) :
    Option (Option QuantisationHeader × List UInt8) :=
  if 128 ≤ q ∧ offset = 0 then (readTables bytes).map fun (header, rest) => (some header, rest)
  else some (none, bytes)

def readJpegPayload : List UInt8 → Option JpegPayload
  | _ :: high :: middle :: low :: type :: q :: width :: height :: rest => do
      let offset := 65536 * high.toNat + 256 * middle.toNat + low.toNat
      let (restart, rest) ← readRestart type rest
      let (quantisation, data) ← readQuantisation q offset rest
      return ⟨offset, type, q, width, height, restart, quantisation, data⟩
  | _ => none

/-- Each fragment continues the scan where it says. -/
def reassemble : (scan : List UInt8) → List JpegPayload → Option (List UInt8)
  | scan, [] => some scan
  | scan, fragment :: rest =>
      if fragment.offset = scan.length then reassemble (scan ++ fragment.data) rest else none

/-! ## The headers read back -/

theorem toUInt8_and (x : UInt32) : (x &&& 0xFF).toUInt8 = x.toUInt8 := by
  apply UInt8.toNat_inj.mp
  have mask := Nat.and_two_pow_sub_one_eq_mod x.toNat 8
  rw [UInt32.toNat_toUInt8, UInt32.toNat_toUInt8, UInt32.toNat_and]
  change (x.toNat &&& 2 ^ 8 - 1) % 256 = _
  rw [mask]
  omega

theorem offset_bytes (offset : Nat) (small : offset < 2 ^ 24) :
    65536 * (UInt32.ofNat offset >>> 16 &&& 0xFF).toUInt8.toNat +
      256 * (UInt32.ofNat offset >>> 8 &&& 0xFF).toUInt8.toNat +
      (UInt32.ofNat offset &&& 0xFF).toUInt8.toNat = offset := by
  have value : (UInt32.ofNat offset).toNat = offset := by
    rw [UInt32.toNat_ofNat', Nat.mod_eq_of_lt (Nat.lt_trans small (by decide))]
  rw [toUInt8_and, toUInt8_and, toUInt8_and, toNat_byte32 _ _ (by decide),
    toNat_byte32 _ _ (by decide), UInt32.toNat_toUInt8, value]
  simp only [UInt32.reduceToNat]
  omega

theorem qtLen_bytes (qtLen : Nat) (small : qtLen ≤ maxQtData) :
    word16 [UInt8.ofNat (qtLen >>> 8 &&& 0xFF), UInt8.ofNat (qtLen &&& 0xFF)] =
      UInt16.ofNat qtLen := by
  have high := Nat.and_two_pow_sub_one_eq_mod (qtLen >>> 8) 8
  have low := Nat.and_two_pow_sub_one_eq_mod qtLen 8
  have bound : qtLen ≤ 512 := small
  simp only [Nat.reducePow, Nat.reduceSub, Nat.shiftRight_eq_div_pow] at high low
  apply UInt16.toNat_inj.mp
  simp only [word16, List.getD_cons_zero, List.getD_cons_succ, UInt8.toNat_ofNat',
    UInt16.toNat_ofNat', Nat.shiftRight_eq_div_pow, high, low]
  omega

theorem writeRestartHeader_eq (interval : UInt16) :
    writeRestartHeader interval = be16 interval ++ [0xFF, 0xFF] := by
  have low : (interval &&& 0xFF).toUInt8 = interval.toUInt8 := by
    apply UInt8.toNat_inj.mp
    have mask := Nat.and_two_pow_sub_one_eq_mod interval.toNat 8
    rw [UInt16.toNat_toUInt8, UInt16.toNat_toUInt8, UInt16.toNat_and]
    change (interval.toNat &&& 2 ^ 8 - 1) % 256 = _
    rw [mask]
    omega
  rw [writeRestartHeader, low]
  rfl

/-- The type tells of the restart header. -/
def JpegFrameInfo.TypeAgrees (self : JpegFrameInfo) : Prop :=
  self.type ≤ 127 ∧ (64 ≤ self.type ↔ 0 < self.restartInterval)

theorem readRestart_phdr (info : JpegFrameInfo) (agrees : info.TypeAgrees) (rest : List UInt8) :
    readRestart info.type
        ((if info.hasDri then writeRestartHeader info.restartInterval else []) ++ rest) =
      some (if info.restartInterval = 0 then none else some info.restartInterval, rest) := by
  obtain ⟨small, same⟩ := agrees
  rw [readRestart, JpegFrameInfo.hasDri]
  by_cases restart : 0 < info.restartInterval
  · have other : info.restartInterval ≠ 0 := fun zero => absurd (zero ▸ restart) (by decide)
    rw [if_pos ⟨same.mpr restart, small⟩, decide_eq_true restart, if_pos rfl, if_neg other,
      writeRestartHeader_eq, List.append_assoc, word16_be16, if_pos]
    · rfl
    · rw [List.length_append, List.length_append]
      change 4 ≤ 2 + (2 + rest.length)
      omega
  · have zero : info.restartInterval = 0 := by
      by_contra other
      exact restart (UInt16.pos_iff_ne_zero.mpr other)
    rw [if_neg (fun both => restart (same.mp both.1)), decide_eq_false restart, if_pos zero]
    rfl

theorem readQuantisation_phdr (info : JpegFrameInfo) (offset : Nat) (data : List UInt8) :
    readQuantisation jpegQCustom offset ((if (offset == 0) = true then
        writeQtHeader info.qtPrecision info.qtLen ++ info.qtData.val else []) ++ data) =
      some (if offset = 0 then
        some ⟨info.qtPrecision, UInt16.ofNat info.qtLen, info.qtData.val⟩ else none, data) := by
  have small : info.qtLen ≤ maxQtData := info.qtData.property
  rw [readQuantisation]
  by_cases first : offset = 0
  · obtain rfl := first
    have length : (UInt16.ofNat info.qtLen).toNat = info.qtData.val.length := by
      rw [UInt16.toNat_ofNat', Nat.mod_eq_of_lt (Nat.lt_of_le_of_lt small (by decide))]
      rfl
    rw [if_pos ⟨by decide, rfl⟩]
    simp only [beq_self_eq_true, if_true, writeQtHeader, List.cons_append, List.nil_append,
      readTables, qtLen_bytes info.qtLen small, length, List.take_left, List.drop_left,
      List.length_append, Nat.le_add_right, Option.map_some]
  · rw [if_neg (fun both => first both.2), beq_eq_false_iff_ne.mpr first, if_neg first]
    rfl

theorem readJpegPayload_phdr (info : JpegFrameInfo) (agrees : info.TypeAgrees) (offset : Nat)
    (small : offset < 2 ^ 24) (data : List UInt8) :
    readJpegPayload (info.phdr offset (offset == 0) ++ data) =
      some ⟨offset, info.type, jpegQCustom, info.width8, info.height8,
        if info.restartInterval = 0 then none else some info.restartInterval,
        if offset = 0 then some ⟨info.qtPrecision, UInt16.ofNat info.qtLen, info.qtData.val⟩
        else none, data⟩ := by
  rw [JpegFrameInfo.phdr, List.append_assoc, List.append_assoc, writeJpegRtpHeader]
  simp only [List.cons_append, List.nil_append, readJpegPayload, offset_bytes offset small]
  rw [readRestart_phdr info agrees, Option.bind_eq_bind, Option.bind_some,
    readQuantisation_phdr info offset data]
  rfl

theorem read_jpegPacket (info : JpegFrameInfo) (agrees : info.TypeAgrees) (scan : List UInt8)
    (offset chunk : Nat) (small : offset < 2 ^ 24) :
    readJpegPayload (jpegPacket info scan offset chunk).bytes =
      some ⟨offset, info.type, jpegQCustom, info.width8, info.height8,
        if info.restartInterval = 0 then none else some info.restartInterval,
        if offset = 0 then some ⟨info.qtPrecision, UInt16.ofNat info.qtLen, info.qtData.val⟩
        else none, (scan.drop offset).take chunk⟩ :=
  readJpegPayload_phdr info agrees offset small ((scan.drop offset).take chunk)

theorem TypeAgrees.finish (info : JpegFrameInfo) (small : info.type < 2)
    (scanOffset scanLen : Nat) : (info.finish scanOffset scanLen).TypeAgrees := by
  have below : info.type.toNat < 2 := small
  have raised : (info.type + 64).toNat = info.type.toNat + 64 := by
    rw [UInt8.toNat_add]
    exact Nat.mod_eq_of_lt (by simp only [UInt8.reduceToNat]; omega)
  rw [JpegFrameInfo.TypeAgrees, JpegFrameInfo.finish]
  by_cases restart : 0 < info.restartInterval
  · rw [if_pos restart, UInt8.le_iff_toNat_le, UInt8.le_iff_toNat_le, raised]
    refine ⟨?_, iff_of_true ?_ restart⟩
    · exact Nat.le_trans (Nat.add_le_add_right (Nat.le_of_lt_succ below) 64) (by decide)
    · exact Nat.le_add_left 64 _
  · rw [if_neg restart, UInt8.le_iff_toNat_le, UInt8.le_iff_toNat_le]
    refine ⟨Nat.le_trans (Nat.le_of_lt_succ below) (by decide), iff_of_false ?_ restart⟩
    exact Nat.not_le.mpr (Nat.lt_trans below (by decide))

/-! ## The fragments read back -/

namespace Fragments

variable {info : JpegFrameInfo} {maxFrag offset : Nat} {scan : List UInt8}
  {packets : List RtpPayload}

theorem inside (fragments : Fragments info maxFrag scan offset packets) :
    offset ≤ scan.length := by
  cases fragments with
  | done => exact Nat.le_refl _
  | more offset chunk rest positive inside room others => omega

theorem flatten (fragments : Fragments info maxFrag scan offset packets) :
    (packets.map RtpPayload.data).flatten = scan.drop offset := by
  induction fragments with
  | done => rw [List.drop_length]; rfl
  | more offset chunk rest positive inside room others ih =>
      rw [List.map_cons, List.flatten_cons, ih, ← List.drop_drop]
      exact List.take_append_drop chunk (scan.drop offset)

theorem nonempty (fragments : Fragments info maxFrag scan 0 packets) (some : 0 < scan.length) :
    packets ≠ [] := by
  rintro rfl
  have none : [] = scan := fragments.flatten
  rw [← none] at some
  contradiction

theorem reassembled (fragments : Fragments info maxFrag scan offset packets)
    (agrees : info.TypeAgrees) (short : scan.length < 2 ^ 24) :
    (packets.mapM fun packet => readJpegPayload packet.bytes).bind
      (reassemble (scan.take offset)) = some scan := by
  induction fragments with
  | done =>
      rw [List.take_length]
      rfl
  | more offset chunk rest positive inside room others ih =>
      rw [List.mapM_cons, read_jpegPacket info agrees scan offset chunk (by omega)]
      cases tail : rest.mapM fun packet => readJpegPayload packet.bytes with
      | none =>
          rw [tail] at ih
          contradiction
      | some payloads =>
          rw [tail, Option.bind_some] at ih
          simp only [Option.bind_eq_bind, Option.bind_some, Option.pure_def]
          rw [reassemble, if_pos, ← List.take_add, ih]
          rw [List.length_take, Nat.min_eq_left (by omega)]

theorem getElem (fragments : Fragments info maxFrag scan offset packets) (index : Nat)
    (inside : index < packets.length) :
    ∃ start chunk, packets[index] = jpegPacket info scan start chunk ∧
      start = offset + ((packets.take index).map RtpPayload.data).flatten.length ∧
      (start = offset ↔ index = 0) ∧ 0 < chunk ∧ start + chunk ≤ scan.length ∧
      (info.phdr start (start == 0)).length + chunk ≤ maxFrag ∧
      (scan.length ≤ start + chunk ↔ index + 1 = packets.length) := by
  induction fragments generalizing index with
  | done => exact absurd inside (Nat.not_lt_zero _)
  | more offset chunk rest positive within room others ih =>
      cases index with
      | zero =>
          refine ⟨offset, chunk, rfl, rfl, iff_of_true rfl rfl, positive, within, room, ?_⟩
          generalize behind : offset + chunk = next at others within
          cases others with
          | done => exact iff_of_true (Nat.le_refl _) rfl
          | more _ later _ nonempty inner =>
              refine iff_of_false (by omega) ?_
              rw [List.length_cons, List.length_cons]
              omega
      | succ index =>
          obtain ⟨start, size, packet, place, _, others⟩ := ih index (Nat.lt_of_succ_lt_succ inside)
          have length : (jpegPacket info scan offset chunk).data.length = chunk := by
            rw [jpegPacket, List.length_take, List.length_drop]
            omega
          refine ⟨start, size, packet, ?_, iff_of_false (by omega) (Nat.succ_ne_zero index), ?_⟩
          · rw [List.take_succ_cons, List.map_cons, List.flatten_cons, List.length_append, length,
              place, Nat.add_assoc]
          · rw [List.length_cons, Nat.add_right_cancel_iff]
            exact others

end Fragments

/-- What one packet is to a receiver that has the packets `before` it. -/
structure FragmentSent (maxFragmentSize : Nat) (interval : UInt16) (before : List RtpPayload)
    (isLast : Bool) (packet : RtpPayload) (fragment : JpegPayload) : Prop where
  read : readJpegPayload packet.bytes = some fragment
  data : fragment.data = packet.data
  nonempty : packet.data ≠ []
  bounded : packet.bytes.length ≤ maxFragmentSize
  offset : fragment.offset = (before.map RtpPayload.data).flatten.length
  quantisation : fragment.quantisation.isSome = before.isEmpty
  tables : ∀ header ∈ fragment.quantisation, header.length.toNat = header.tables.length
  restart : fragment.restart = if interval = 0 then none else some interval
  type : 64 ≤ fragment.type ↔ interval ≠ 0
  marker : packet.marker = isLast

structure Sent (maxFragmentSize : Nat) (interval : UInt16) (scan : List UInt8)
    (packets : List RtpPayload) : Prop where
  restored : (packets.mapM fun packet => readJpegPayload packet.bytes).bind (reassemble []) =
    some scan
  chunks : (packets.map RtpPayload.data).flatten = scan
  each : ∀ (index : Nat) (inside : index < packets.length), ∃ fragment,
    FragmentSent maxFragmentSize interval (packets.take index) (index + 1 == packets.length)
      packets[index] fragment

theorem Fragments.sent {info : JpegFrameInfo} {maxFrag : Nat} {scan : List UInt8}
    {packets : List RtpPayload} (fragments : Fragments info maxFrag scan 0 packets)
    (agrees : info.TypeAgrees) (short : scan.length < 2 ^ 24) :
    Sent maxFrag info.restartInterval scan packets := by
  refine ⟨fragments.reassembled agrees short, fragments.flatten, fun index inside => ?_⟩
  obtain ⟨start, chunk, packet, place, first, positive, within, room, last⟩ :=
    fragments.getElem index inside
  rw [Nat.zero_add] at place
  have read := read_jpegPacket info agrees scan start chunk (by omega)
  have length : ((scan.drop start).take chunk).length = chunk := by
    rw [List.length_take, List.length_drop]
    omega
  have interval : 0 < info.restartInterval ↔ info.restartInterval ≠ 0 := UInt16.pos_iff_ne_zero
  rw [packet]
  refine ⟨_, read, rfl, ?_, ?_, place, ?_, ?_, rfl, agrees.2.trans interval, ?_⟩
  · exact List.ne_nil_of_length_pos (length.symm ▸ positive)
  · rw [RtpPayload.bytes, List.length_append, jpegPacket]
    dsimp only
    rwa [length]
  · dsimp only
    cases index with
    | zero =>
        rw [if_pos (first.mpr rfl)]
        rfl
    | succ index =>
        obtain ⟨head, rest, rfl⟩ := List.exists_cons_of_length_pos (Nat.zero_lt_of_lt inside)
        rw [if_neg (fun same => Nat.succ_ne_zero index (first.mp same))]
        rfl
  · intro header member
    dsimp only at member
    split at member
    · obtain rfl := Option.some.inj member
      have small : info.qtLen ≤ maxQtData := info.qtData.property
      rw [UInt16.toNat_ofNat', Nat.mod_eq_of_lt (Nat.lt_of_le_of_lt small (by decide))]
      rfl
    · contradiction
  · rw [jpegPacket, Bool.eq_iff_iff, decide_eq_true_iff, beq_iff_eq]
    exact last

/-- A frame is refused before anything is sent, or it is laid out in segments and the loop
over its scan runs with what they have told. -/
theorem sendFrame_cases (config : JpegTransportConfig) (jpegFrame : List UInt8) :
    (∀ {σ : Type} (send : RtpSend σ) (t : σ),
      JpegTransport.sendFrame config send jpegFrame t = .ok (t, -1)) ∨
    ∃ segments sos scan final scanStart, Layout jpegFrame segments sos scan ∧
      Uses segments (false, .zero) final ∧ final.1 = true ∧ 0 < scan.length ∧
      scan.length < 2 ^ 24 ∧
      ScanFits config.maxFragmentSize jpegFrame scan (final.2.finish scanStart scan.length) ∧
      ∀ {σ : Type} (send : RtpSend σ) (t : σ), JpegTransport.sendFrame config send jpegFrame t =
        fragmentLoop send config.maxFragmentSize jpegFrame
          (final.2.finish scanStart scan.length) (scan.length + 1) 0 (0 == 0) t := by
  rcases parseJpegFrame_cases jpegFrame with
    none | ⟨segments, sos, scan, final, scanStart, layout, uses, found, _, data, ends, parsed⟩
  · left
    intro σ send t
    rw [JpegTransport.sendFrame, none, ok_bind]
    rfl
  by_cases size : (final.2.finish scanStart scan.length).scanLen = 0 ∨
      0xFFFFFF < (final.2.finish scanStart scan.length).scanLen
  · left
    intro σ send t
    rw [JpegTransport.sendFrame, parsed, ok_bind]
    exact if_pos size
  by_cases room : config.maxFragmentSize ≤ (final.2.finish scanStart scan.length).firstHdr
  · left
    intro σ send t
    rw [JpegTransport.sendFrame, parsed, ok_bind]
    exact (if_neg size).trans (if_pos room)
  right
  have some : 0 < scan.length := Nat.pos_of_ne_zero fun empty => size (Or.inl empty)
  have short : scan.length < 2 ^ 24 :=
    Nat.lt_succ_of_le (Nat.le_of_not_lt fun long => size (Or.inr long))
  refine ⟨segments, sos, scan, final, scanStart, layout, uses, found, some, short,
    ⟨data, Nat.le_of_add_right_le (Nat.le_of_eq ends), Nat.lt_of_not_le room⟩, ?_⟩
  intro σ send t
  rw [JpegTransport.sendFrame, parsed, ok_bind]
  exact (if_neg size).trans (if_neg room)

theorem accepted_cases {ρ : Type} {config : JpegTransportConfig} {send : RtpSend ρ}
    {jpegFrame : List UInt8} {t t' : ρ}
    (accepted : JpegTransport.sendFrame config send jpegFrame t = .ok (t', 0)) :
    ∃ segments sos scan final scanStart packets, Layout jpegFrame segments sos scan ∧
      Uses segments (false, .zero) final ∧ final.1 = true ∧ 0 < scan.length ∧
      scan.length < 2 ^ 24 ∧
      JpegTransport.sendFrame config (recording send) jpegFrame (t, []) =
        .ok ((t', packets), 0) ∧
      Fragments (final.2.finish scanStart scan.length) config.maxFragmentSize scan 0 packets := by
  rcases sendFrame_cases config jpegFrame with
    refused | ⟨segments, sos, scan, final, scanStart, layout, uses, found, some, short, fits, runs⟩
  · rw [refused] at accepted
    cases accepted
  · rw [runs] at accepted
    obtain ⟨packets, recorded, fragments⟩ := fragmentLoop_recorded send config.maxFragmentSize
      jpegFrame scan _ fits (scan.length + 1) 0 (Nat.zero_le _) t t' [] accepted
    exact ⟨segments, sos, scan, final, scanStart, packets, layout, uses, found, some, short,
      (runs (recording send) (t, [])).trans recorded, fragments⟩

/-- The transport returns for every frame, and what it sends with success is the scan of
the frame to a receiver. -/
theorem frame_sent {ρ : Type} (config : JpegTransportConfig) (send : RtpSend ρ)
    (emitted : ρ → List RtpPayload) (never : NeverFails send emitted) (jpegFrame : List UInt8)
    (t : ρ) :
    ∃ t' ret, JpegTransport.sendFrame config send jpegFrame t = .ok (t', ret) ∧
      (ret = 0 → ∃ segments sos scan packets, Layout jpegFrame segments sos scan ∧
        emitted t' = emitted t ++ packets ∧
        Sent config.maxFragmentSize (lastRestartInterval segments) scan packets) := by
  rcases sendFrame_cases config jpegFrame with
    refused | ⟨segments, sos, scan, final, scanStart, layout, uses, found, _, short, fits, runs⟩
  · exact ⟨t, -1, refused send t, fun same => absurd same (by decide)⟩
  obtain ⟨t', ret, ran, fragments⟩ := fragmentLoop_cases send emitted never config.maxFragmentSize
    jpegFrame scan _ fits (scan.length + 1) 0 (Nat.zero_le _) (Nat.lt_succ_of_le (Nat.sub_le _ _)) t
  refine ⟨t', ret, (runs send t).trans ran, fun success => ?_⟩
  obtain ⟨packets, added, fragments⟩ := fragments success
  have agrees := TypeAgrees.finish final.2 (uses.type_lt found) scanStart scan.length
  have sent := fragments.sent agrees short
  rw [show (final.2.finish scanStart scan.length).restartInterval = lastRestartInterval segments
    from uses.restartInterval] at sent
  exact ⟨segments, sos, scan, packets, layout, added, sent⟩

def greyFrame : List UInt8 :=
  [0xFF, 0xD8] ++ ([0xFF, 0xDB, 0x00, 0x43, 0x00] ++ List.replicate 64 1) ++
    [0xFF, 0xDD, 0x00, 0x04, 0x00, 0x01] ++
    [0xFF, 0xC0, 0x00, 0x0B, 0x08, 0x00, 0x10, 0x00, 0x10, 0x01, 0x01, 0x11, 0x00] ++
    [0xFF, 0xDA, 0x00, 0x08, 0x01, 0x01, 0x00, 0x00, 0x3F, 0x00] ++ [1, 2, 3, 4, 5, 6, 7] ++
    [0xFF, 0xD9]

theorem greyFrame_fragments : (JpegTransport.sendFrame ⟨84⟩ recorder greyFrame []).map
    (fun sent => (sent.1.map RtpPayload.data, sent.2)) = .ok ([[1, 2, 3, 4], [5, 6, 7]], 0) := by
  decide +kernel

theorem greyFrame_sent : ∃ packets segments sos scan,
    JpegTransport.sendFrame ⟨84⟩ recorder greyFrame [] = .ok (packets, 0) ∧
      Layout greyFrame segments sos scan ∧
      Sent 84 (lastRestartInterval segments) scan packets := by
  obtain ⟨packets, ret, ran, sent⟩ := frame_sent ⟨84⟩ recorder id recorder_neverFails greyFrame []
  have success := greyFrame_fragments
  rw [ran] at success
  have zero : ret = 0 := congrArg Prod.snd (Except.ok.inj success)
  obtain ⟨segments, sos, scan, own, layout, same, whole⟩ := sent zero
  obtain rfl : packets = own := same
  exact ⟨packets, segments, sos, scan, by rw [ran, zero], layout, whole⟩

end Compy.Jpeg
