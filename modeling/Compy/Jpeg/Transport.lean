import Compy.Jpeg.Frame
import Compy.Rtp.Payloads

/-!
# The JPEG transport

`jpeg_transport.c` on top of any RTP transport: the headers in front of the scan data and
the loop over the fragments.
-/

set_option autoImplicit false

namespace Compy.Jpeg

open CheckedBytes Compy.Rtp

def jpegQCustom : UInt8 := 255

structure JpegTransportConfig where
  maxFragmentSize : Nat

def JpegTransportConfig.default : JpegTransportConfig where
  maxFragmentSize := 1200

def writeJpegRtpHeader (offset : UInt32) (info : JpegFrameInfo) : List UInt8 :=
  [0, (offset >>> 16 &&& 0xFF).toUInt8, (offset >>> 8 &&& 0xFF).toUInt8, (offset &&& 0xFF).toUInt8,
    info.type, jpegQCustom, info.width8, info.height8]

def writeQtHeader (precision : UInt8) (qtLen : Nat) : List UInt8 :=
  [0, precision, UInt8.ofNat (qtLen >>> 8 &&& 0xFF), UInt8.ofNat (qtLen &&& 0xFF)]

def writeRestartHeader (interval : UInt16) : List UInt8 :=
  [(interval >>> 8).toUInt8, (interval &&& 0xFF).toUInt8, 0xFF, 0xFF]

def JpegFrameInfo.hasDri (self : JpegFrameInfo) : Bool := 0 < self.restartInterval

def JpegFrameInfo.baseHdr (self : JpegFrameInfo) : Nat := 8 + if self.hasDri then 4 else 0

def JpegFrameInfo.firstHdr (self : JpegFrameInfo) : Nat := self.baseHdr + (4 + self.qtLen)

/-- The first `hdr_size` bytes of `phdr`. -/
def JpegFrameInfo.phdr (self : JpegFrameInfo) (offset : Nat) (first : Bool) : List UInt8 :=
  writeJpegRtpHeader (UInt32.ofNat offset) self ++
    (if self.hasDri then writeRestartHeader self.restartInterval else []) ++
    if first then writeQtHeader self.qtPrecision self.qtLen ++ self.qtData.val else []

variable {ρ : Type}

def fragmentLoop (send : RtpSend ρ) (maxFrag : Nat) (jpegFrame : List UInt8)
    (info : JpegFrameInfo) : (fuel offset : Nat) → (first : Bool) → ρ → Access (ρ × Int)
  | 0, _, _, _ => .error .diverges
  | fuel + 1, offset, first, t =>
      if offset < info.scanLen then do
        let hdrSize := if first then info.firstHdr else info.baseHdr
        let avail := maxFrag - hdrSize
        let remaining := info.scanLen - offset
        let chunk := if remaining < avail then remaining else avail
        let last := decide (info.scanLen ≤ offset + chunk)
        let data ← readBytes jpegFrame (info.scanOffset + offset) chunk
        let (t, ret) ← send last (info.phdr offset first) data t
        if ret ≠ 0 then return (t, -1)
        fragmentLoop send maxFrag jpegFrame info fuel (offset + chunk) false t
      else return (t, 0)

def JpegTransport.sendFrame (config : JpegTransportConfig) (send : RtpSend ρ)
    (jpegFrame : List UInt8) (t : ρ) : Access (ρ × Int) := do
  match ← parseJpegFrame jpegFrame with
  | none => return (t, -1)
  | some info =>
    if info.scanLen = 0 ∨ 0xFFFFFF < info.scanLen then return (t, -1)
    if config.maxFragmentSize ≤ info.firstHdr then return (t, -1)
    fragmentLoop send config.maxFragmentSize jpegFrame info (info.scanLen + 1) 0 true t

/-! ## The fragments of a frame -/

def jpegPacket (info : JpegFrameInfo) (scan : List UInt8) (offset chunk : Nat) : RtpPayload where
  marker := decide (scan.length ≤ offset + chunk)
  header := info.phdr offset (offset == 0)
  data := (scan.drop offset).take chunk

/-- The packets from an offset in the scan on. -/
inductive Fragments (info : JpegFrameInfo) (maxFrag : Nat) (scan : List UInt8) :
    (offset : Nat) → List RtpPayload → Prop where
  | done : Fragments info maxFrag scan scan.length []
  | more (offset chunk : Nat) (rest : List RtpPayload) (positive : 0 < chunk)
      (inside : offset + chunk ≤ scan.length)
      (room : (info.phdr offset (offset == 0)).length + chunk ≤ maxFrag)
      (others : Fragments info maxFrag scan (offset + chunk) rest) :
      Fragments info maxFrag scan offset (jpegPacket info scan offset chunk :: rest)

theorem JpegFrameInfo.length_phdr (self : JpegFrameInfo) (offset : Nat) (first : Bool) :
    (self.phdr offset first).length = if first then self.firstHdr else self.baseHdr := by
  have fixed : (writeJpegRtpHeader (UInt32.ofNat offset) self).length = 8 := rfl
  rw [phdr, List.length_append, List.length_append, fixed, firstHdr, baseHdr]
  cases first <;> cases self.hasDri <;> simp [writeRestartHeader, writeQtHeader, qtLen] <;> omega

/-- What the loop relies on. -/
structure ScanFits (maxFrag : Nat) (jpegFrame scan : List UInt8) (info : JpegFrameInfo) : Prop where
  data : scan = (jpegFrame.drop info.scanOffset).take info.scanLen
  inside : info.scanOffset + info.scanLen ≤ jpegFrame.length
  room : info.firstHdr < maxFrag

namespace ScanFits

variable {maxFrag offset : Nat} {jpegFrame scan : List UInt8} {info : JpegFrameInfo}

theorem length_scan (fits : ScanFits maxFrag jpegFrame scan info) : scan.length = info.scanLen := by
  have inside := fits.inside
  rw [fits.data, List.length_take, List.length_drop]
  omega

theorem step (fits : ScanFits maxFrag jpegFrame scan info) (more : offset < scan.length) :
    ∃ chunk, 0 < chunk ∧ offset + chunk ≤ scan.length ∧
      (info.phdr offset (offset == 0)).length + chunk ≤ maxFrag ∧
      ∀ {σ : Type} (send : RtpSend σ) (fuel : Nat) (t : σ),
        fragmentLoop send maxFrag jpegFrame info (fuel + 1) offset (offset == 0) t = (do
          let (t, ret) ← send (jpegPacket info scan offset chunk).marker
            (jpegPacket info scan offset chunk).header (jpegPacket info scan offset chunk).data t
          if ret ≠ 0 then return (t, -1)
          fragmentLoop send maxFrag jpegFrame info fuel (offset + chunk)
            (offset + chunk == 0) t) := by
  have room := fits.room
  have inside := fits.inside
  have length := fits.length_scan
  have header : (info.phdr offset (offset == 0)).length ≤ info.firstHdr := by
    rw [info.length_phdr]
    split
    · exact Nat.le_refl _
    · exact Nat.le_add_right _ _
  have later (chunk : Nat) (positive : 0 < chunk) : (offset + chunk == 0) = false :=
    beq_eq_false_iff_ne.mpr (by omega)
  generalize size : (if info.scanLen - offset < maxFrag - (info.phdr offset (offset == 0)).length
    then info.scanLen - offset else maxFrag - (info.phdr offset (offset == 0)).length) = chunk
  have bounds : 0 < chunk ∧ offset + chunk ≤ scan.length ∧
      (info.phdr offset (offset == 0)).length + chunk ≤ maxFrag := by
    rw [← size]
    split <;> omega
  obtain ⟨positive, within, small⟩ := bounds
  have bytes : (jpegFrame.drop (info.scanOffset + offset)).take chunk =
      (scan.drop offset).take chunk := by
    rw [fits.data, List.drop_take, List.drop_drop, List.take_take, Nat.min_eq_left (by omega)]
  refine ⟨chunk, positive, within, small, fun send fuel t => ?_⟩
  rw [fragmentLoop, if_pos (length ▸ more), ← info.length_phdr offset]
  dsimp only
  rw [size, readBytes_ok _ _ _ (by omega), ok_bind, bytes, ← length, later chunk positive]
  rfl

end ScanFits

/-- The loop ends: with -1 where the transport has failed, and with 0 behind the last
fragment. -/
theorem fragmentLoop_cases (send : RtpSend ρ) (emitted : ρ → List RtpPayload)
    (never : NeverFails send emitted) (maxFrag : Nat) (jpegFrame scan : List UInt8)
    (info : JpegFrameInfo) (fits : ScanFits maxFrag jpegFrame scan info)
    (fuel offset : Nat) (inside : offset ≤ scan.length) (enough : scan.length - offset < fuel)
    (t : ρ) :
    ∃ t' ret, fragmentLoop send maxFrag jpegFrame info fuel offset (offset == 0) t =
        .ok (t', ret) ∧
      (ret = 0 → ∃ packets, emitted t' = emitted t ++ packets ∧
        Fragments info maxFrag scan offset packets) := by
  induction fuel generalizing offset t with
  | zero => omega
  | succ fuel ih =>
      rcases Nat.lt_or_eq_of_le inside with more | rfl
      swap
      · refine ⟨t, 0, ?_, fun _ => ⟨[], (List.append_nil _).symm, .done⟩⟩
        rw [fragmentLoop, if_neg (fits.length_scan ▸ Nat.lt_irrefl _)]
        rfl
      obtain ⟨chunk, positive, within, small, turn⟩ := fits.step more
      obtain ⟨next, ret, sent, _, added⟩ := never (jpegPacket info scan offset chunk).marker
        (jpegPacket info scan offset chunk).header (jpegPacket info scan offset chunk).data t
      rw [turn, sent, ok_bind]
      by_cases failed : ret ≠ 0
      · exact ⟨next, -1, if_pos failed, fun same => absurd same (by decide)⟩
      · obtain ⟨final, ret, ran, fragments⟩ := ih (offset + chunk) within (by omega) next
        refine ⟨final, ret, (if_neg failed).trans ran, fun ends => ?_⟩
        obtain ⟨rest, all, others⟩ := fragments ends
        refine ⟨_, ?_, .more offset chunk rest positive within small others⟩
        rw [all, added, List.append_assoc]
        rfl

theorem fragmentLoop_recorded (send : RtpSend ρ) (maxFrag : Nat) (jpegFrame scan : List UInt8)
    (info : JpegFrameInfo) (fits : ScanFits maxFrag jpegFrame scan info)
    (fuel offset : Nat) (inside : offset ≤ scan.length) (t t' : ρ) (log : List RtpPayload)
    (ran : fragmentLoop send maxFrag jpegFrame info fuel offset (offset == 0) t = .ok (t', 0)) :
    ∃ packets, fragmentLoop (recording send) maxFrag jpegFrame info fuel offset (offset == 0)
        (t, log) = .ok ((t', log ++ packets), 0) ∧
      Fragments info maxFrag scan offset packets := by
  induction fuel generalizing offset t log with
  | zero => contradiction
  | succ fuel ih =>
      rcases Nat.lt_or_eq_of_le inside with more | rfl
      swap
      · have ended : ¬ scan.length < info.scanLen := fits.length_scan ▸ Nat.lt_irrefl _
        rw [fragmentLoop, if_neg ended] at ran
        cases ran
        refine ⟨[], ?_, .done⟩
        rw [fragmentLoop, if_neg ended, List.append_nil]
        rfl
      obtain ⟨chunk, positive, within, small, turn⟩ := fits.step more
      rw [turn] at ran
      rw [turn]
      cases sent : send (jpegPacket info scan offset chunk).marker
          (jpegPacket info scan offset chunk).header (jpegPacket info scan offset chunk).data t with
      | error fault =>
          rw [sent] at ran
          contradiction
      | ok result =>
          obtain ⟨next, ret⟩ := result
          rw [sent, ok_bind] at ran
          dsimp only at ran
          rw [recording_ok sent, ok_bind]
          by_cases failed : ret ≠ 0
          · rw [if_pos failed] at ran
            cases ran
          · rw [if_neg failed] at ran
            obtain ⟨rest, recorded, others⟩ := ih (offset + chunk) within next
              (log ++ [jpegPacket info scan offset chunk]) ran
            refine ⟨_, ?_, .more offset chunk rest positive within small others⟩
            rw [List.append_assoc] at recorded
            exact (if_neg failed).trans recorded

end Compy.Jpeg
