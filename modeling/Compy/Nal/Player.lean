import Mathlib.Data.List.Forall2
import Mathlib.Data.List.TakeWhile
import Compy.Library.Grouping
import Compy.Nal.AnnexB
import Compy.Nal.Stream
import Compy.Rtp.Playing

/-!
# The video player

`play_video` and `send_video_packet_cb` of the example server: at every period of a timer the
parameter sets in front of the next slice and the slice itself are given to a NAL transport, all
with one timestamp, until the table of the file is used up.
-/

set_option autoImplicit false

namespace Compy.Nal

open CheckedBytes Grouping Compy.Rtp

variable {ρ : Type}

/-- What is loaded when the server starts. -/
structure Media where
  video : List UInt8
  table : NalTable
  fps : Int

structure VideoPlace where
  timestamp : UInt32
  nalIdx : Nat

abbrev VideoCtx (ρ : Type) := Playing VideoPlace ρ

def videoSampleRate : Int := 90000

def nalUnitAud : UInt8 := 9

def isVcl (nalType : UInt8) : Bool := 1 ≤ nalType && nalType ≤ 5

/-- The division is one of `int` numbers, and the sum one of 32 bits. -/
def Media.increment (media : Media) : UInt32 := UInt32.ofInt (videoSampleRate.tdiv media.fps)

def playVideo (media : Media) (t : ρ) (streamsPlaying : Int) : VideoCtx ρ where
  place := { timestamp := 0, nalIdx := media.table.startIdx }
  transport := t
  pending := true
  streamsPlaying := streamsPlaying + 1

/-- The slice of an empty unit has `SIZE_MAX` bytes, which no file has.  That a send fails is
only printed. -/
def sendNal (send : TimedSend ρ) (video : List UInt8) (nal : NalEntry) (timestamp : UInt32)
    (t : ρ) : Access ρ := do
  let byte ← byteAt video nal.data
  if nal.len = 0 then throw .outOfBounds
  let payload ← readBytes video (nal.data + 1) (nal.len - 1)
  let nalu : NalUnit := { header := .H264 (H264NalHeader.parse byte), payload }
  let (t, _) ← NalTransport.sendPacket .default (send (.raw timestamp)) nalu t
  return t

def nextUnit (ctx : VideoCtx ρ) (t : ρ) : VideoCtx ρ :=
  { ctx with
    place := { ctx.place with nalIdx := ctx.place.nalIdx + 1 }
    transport := t }

/-- The units in front of a slice, without the delimiters. -/
def sendLeading (send : TimedSend ρ) (media : Media) (ctx : VideoCtx ρ) : Access (VideoCtx ρ) :=
  if inside : ctx.place.nalIdx < media.table.entries.length then
    let nal := media.table.entries[ctx.place.nalIdx]
    if nal.nalType = nalUnitAud then sendLeading send media (nextUnit ctx ctx.transport)
    else if isVcl nal.nalType then .ok ctx
    else do
      let t ← sendNal send media.video nal ctx.place.timestamp ctx.transport
      sendLeading send media (nextUnit ctx t)
  else .ok ctx
termination_by media.table.entries.length - ctx.place.nalIdx
decreasing_by
  · exact Nat.sub_succ_lt_self _ _ inside
  · exact Nat.sub_succ_lt_self _ _ inside

/-- A division by zero traps. -/
def sendSlice (send : TimedSend ρ) (media : Media) (ctx : VideoCtx ρ) : Access (VideoCtx ρ) :=
  if inside : ctx.place.nalIdx < media.table.entries.length then do
    let nal := media.table.entries[ctx.place.nalIdx]
    let t ← sendNal send media.video nal ctx.place.timestamp ctx.transport
    if media.fps = 0 then throw .assertion
    return { ctx with
      place := ⟨ctx.place.timestamp + media.increment, ctx.place.nalIdx + 1⟩
      transport := t }
  else .ok ctx

def sendPicture (send : TimedSend ρ) (media : Media) (ctx : VideoCtx ρ) :
    Access (VideoCtx ρ) := do
  let ctx ← sendLeading send media ctx
  sendSlice send media ctx

def sendVideoPacketCb (send : TimedSend ρ) (media : Media) (ctx : VideoCtx ρ) :
    Access (VideoCtx ρ) := do
  let ctx ← sendPicture send media ctx
  if media.table.entries.length ≤ ctx.place.nalIdx then
    return { ctx with pending := false, streamsPlaying := ctx.streamsPlaying - 1 }
  return ctx

/-! ## The packets of a unit -/

def timedPackets (unit : UInt32 × NalUnit) : List (UInt32 × RtpPayload) :=
  (limitPackets 1200 unit.2).map (Prod.mk unit.1)

def sendUnits (send : TimedSend ρ) (units : List (UInt32 × NalUnit)) : ρ → Access ρ :=
  sendTimed send (units.flatMap timedPackets)

theorem sendUnits_append (send : TimedSend ρ) (first second : List (UInt32 × NalUnit)) (t : ρ) :
    sendUnits send (first ++ second) t = (do
      let t ← sendUnits send first t
      sendUnits send second t) := by
  rw [sendUnits, List.flatMap_append, sendTimed_append]
  rfl

theorem sendPacket_timed {send : TimedSend ρ} (willing : Willing 1200 send) (ts : UInt32)
    (h : H264NalHeader) (payload : List UInt8) (t : ρ) :
    ∃ t' ret, NalTransport.sendPacket .default (send (.raw ts)) ⟨.H264 h, payload⟩ t =
        .ok (t', ret) ∧
      sendUnits send [(ts, ⟨.H264 h, payload⟩)] t = .ok t' := by
  have limit : NalTransportConfig.default.limit (.H264 h) = 1200 := rfl
  have packets : [(ts, (⟨.H264 h, payload⟩ : NalUnit))].flatMap timedPackets =
      (limitPackets 1200 ⟨.H264 h, payload⟩).map (Prod.mk ts) := List.append_nil _
  rw [NalTransport.sendPacket, sendUnits, packets, limit, limitPackets]
  dsimp only
  split
  · rename_i short
    obtain ⟨t', ret, sent, _⟩ := willing (.raw ts)
      (NalHeader.isCodedSliceIdr (.H264 h) || NalHeader.isCodedSliceNonIdr (.H264 h))
      (NalHeader.serialize (.H264 h)) payload t (by
        rw [NalHeader.length_serialize]
        omega)
    refine ⟨t', ret, sent, ?_⟩
    rw [List.map_singleton, sendTimed, sent]
    rfl
  · have bounded : ∀ packet ∈ fuPackets ⟨.H264 h, payload⟩ (fragmentSize (.H264 h) 1200),
        packet.bytes.length ≤ 1200 := length_fuPacket_le _ 1200 (by decide : 2 < 1200)
    obtain ⟨t', sent, timed⟩ := sendAll_timed willing ts _ bounded t
    refine ⟨t', 0, ?_, timed⟩
    rw [sendFragmentizedNalData_eq _ 1200 _ (by decide)]
    exact sent

/-! ## One period -/

/-- What an entry stands for. -/
def Holds (video : List UInt8) (nal : NalEntry) (nalu : NalUnit) : Prop :=
  ∃ byte, byteAt video nal.data = .ok byte ∧ nal.len ≠ 0 ∧
    readBytes video (nal.data + 1) (nal.len - 1) = .ok nalu.payload ∧
    nalu.header = .H264 (H264NalHeader.parse byte) ∧ nal.nalType = nalTypeOf byte

def NalUnit.h264Type (nalu : NalUnit) : UInt8 :=
  match nalu.header with
  | .H264 h => h.unitType
  | .H265 h => h.unitType

def NalUnit.isSlice (nalu : NalUnit) : Bool := isVcl nalu.h264Type

def NalUnit.isSent (nalu : NalUnit) : Bool := nalu.h264Type != nalUnitAud

def pictures (units : List NalUnit) : List (List NalUnit) :=
  (groups NalUnit.isSlice units).map (List.filter NalUnit.isSent)

def schedule (increment : UInt32) : UInt32 → List (List NalUnit) → List (List (UInt32 × NalUnit))
  | _, [] => []
  | ts, picture :: rest => picture.map (Prod.mk ts) :: schedule increment (ts + increment) rest

def schedulePlan (units : List (List (UInt32 × NalUnit))) : PlayPlan :=
  units.map (List.flatMap timedPackets)

theorem schedulePlan_take (units : List (List (UInt32 × NalUnit))) (count : Nat) :
    ((schedulePlan units).take count).flatten = ((units.take count).flatten).flatMap timedPackets := by
  rw [schedulePlan, ← List.map_take, ← List.flatMap_def, List.flatten_eq_flatMap,
    List.flatMap_assoc]
  rfl

theorem Holds.type {video : List UInt8} {nal : NalEntry} {nalu : NalUnit}
    (holds : Holds video nal nalu) : nal.nalType = nalu.h264Type := by
  obtain ⟨byte, _, _, _, header, type⟩ := holds
  rw [NalUnit.h264Type, header, type]
  rfl

theorem sendNal_holds {send : TimedSend ρ} (willing : Willing 1200 send) {video : List UInt8}
    {nal : NalEntry} {nalu : NalUnit} (holds : Holds video nal nalu) (ts : UInt32) (t : ρ) :
    ∃ t', sendNal send video nal ts t = .ok t' ∧ sendUnits send [(ts, nalu)] t = .ok t' := by
  obtain ⟨header, payload⟩ := nalu
  obtain ⟨byte, found, some_, read, rfl, _⟩ := holds
  obtain ⟨t', ret, sent, timed⟩ := sendPacket_timed willing ts (.parse byte) payload t
  refine ⟨t', ?_, timed⟩
  dsimp only at read
  rw [sendNal, found, ok_bind, if_neg some_, read]
  dsimp only
  rw [ok_bind, sent]
  rfl

section

variable (send : TimedSend ρ) (media : Media) (ctx : VideoCtx ρ)

theorem sendPicture_end (outside : media.table.entries.length ≤ ctx.place.nalIdx) :
    sendPicture send media ctx = .ok ctx := by
  have none := Nat.not_lt.mpr outside
  rw [sendPicture, sendLeading, dif_neg none, ok_bind, sendSlice, dif_neg none]

variable {ctx} {nal : NalEntry} {rest : List NalEntry}
  (next : media.table.entries.drop ctx.place.nalIdx = nal :: rest)

include next

theorem entry_next : ∃ inside : ctx.place.nalIdx < media.table.entries.length,
    media.table.entries[ctx.place.nalIdx] = nal := by
  have found : media.table.entries[ctx.place.nalIdx]? = some nal := by
    have head := congrArg List.head? next
    rwa [List.head?_drop] at head
  exact List.getElem?_eq_some_iff.mp found

theorem sendPicture_delimiter (aud : nal.nalType = nalUnitAud) :
    sendPicture send media ctx = sendPicture send media (nextUnit ctx ctx.transport) := by
  obtain ⟨inside, entry⟩ := entry_next media next
  rw [sendPicture, sendLeading, dif_pos inside]
  dsimp only
  rw [entry, if_pos aud]
  rfl

theorem sendPicture_leading (other : nal.nalType ≠ nalUnitAud) (leads : isVcl nal.nalType = false) :
    sendPicture send media ctx = (do
      let t ← sendNal send media.video nal ctx.place.timestamp ctx.transport
      sendPicture send media (nextUnit ctx t)) := by
  obtain ⟨inside, entry⟩ := entry_next media next
  rw [sendPicture, sendLeading, dif_pos inside]
  dsimp only
  rw [entry, if_neg other, if_neg (by rw [leads]; exact Bool.false_ne_true)]
  cases sendNal send media.video nal ctx.place.timestamp ctx.transport with
  | error fault => rfl
  | ok t => rfl

theorem sendPicture_slice (slice : isVcl nal.nalType = true) (rate : media.fps ≠ 0) :
    sendPicture send media ctx = (do
      let t ← sendNal send media.video nal ctx.place.timestamp ctx.transport
      return { ctx with
        place := ⟨ctx.place.timestamp + media.increment, ctx.place.nalIdx + 1⟩
        transport := t }) := by
  obtain ⟨inside, entry⟩ := entry_next media next
  have other : nal.nalType ≠ nalUnitAud := by
    intro aud
    rw [aud] at slice
    exact absurd slice (by decide)
  rw [sendPicture, sendLeading, dif_pos inside]
  dsimp only
  rw [entry, if_neg other, if_pos slice, ok_bind, sendSlice, dif_pos inside]
  dsimp only
  rw [entry]
  cases sendNal send media.video nal ctx.place.timestamp ctx.transport with
  | error fault => rfl
  | ok t => rw [ok_bind, ok_bind, if_neg rate]

end

/-- What one period sends, and where it leaves the context. -/
structure Period (send : TimedSend ρ) (media : Media) (units : List NalUnit)
    (ctx ctx' : VideoCtx ρ) : Prop where
  sent : sendUnits send (((front NalUnit.isSlice units).filter NalUnit.isSent).map
    (Prod.mk ctx.place.timestamp)) ctx.transport = .ok ctx'.transport
  nalIdx : ctx'.place.nalIdx = ctx.place.nalIdx + (front NalUnit.isSlice units).length
  timestamp : behind NalUnit.isSlice units ≠ [] →
    ctx'.place.timestamp = ctx.place.timestamp + media.increment
  pending : ctx'.pending = ctx.pending
  streamsPlaying : ctx'.streamsPlaying = ctx.streamsPlaying

theorem sendPicture_period {send : TimedSend ρ} (willing : Willing 1200 send) (media : Media)
    (rate : media.fps ≠ 0) (units : List NalUnit) (ctx : VideoCtx ρ)
    (holds : List.Forall₂ (Holds media.video) (media.table.entries.drop ctx.place.nalIdx) units) :
    ∃ ctx', sendPicture send media ctx = .ok ctx' ∧ Period send media units ctx ctx' := by
  induction units generalizing ctx with
  | nil =>
      have outside := List.drop_eq_nil_iff.mp (List.forall₂_nil_right_iff.mp holds)
      exact ⟨ctx, sendPicture_end send media ctx outside, rfl, rfl, fun some_ => absurd rfl some_,
        rfl, rfl⟩
  | cons nalu units ih =>
      obtain ⟨nal, rest, here, later, next⟩ := List.forall₂_cons_right_iff.mp holds
      have behind_ : media.table.entries.drop (ctx.place.nalIdx + 1) = rest := by
        rw [← List.drop_drop, next]
        rfl
      have type := here.type
      by_cases slice : nalu.isSlice = true
      · -- The slice ends the period, and is never a delimiter.
        obtain ⟨t, sent, units_⟩ := sendNal_holds willing here ctx.place.timestamp ctx.transport
        have passes : nalu.isSent = true := by
          rw [NalUnit.isSent, bne_iff_ne]
          intro aud
          rw [NalUnit.isSlice, aud] at slice
          exact absurd slice (by decide)
        refine ⟨_, by
          rw [sendPicture_slice send media next (by rw [type]; exact slice) rate, sent]
          rfl, ?_⟩
        constructor
        · rw [front, if_pos slice, List.filter_cons_of_pos passes]
          exact units_
        · rw [front, if_pos slice]
          rfl
        · exact fun _ => rfl
        · rfl
        · rfl
      · by_cases passes : nalu.isSent = true
        · obtain ⟨t, sent, units_⟩ := sendNal_holds willing here ctx.place.timestamp ctx.transport
          obtain ⟨ctx', ran, period⟩ := ih (nextUnit ctx t) (by
            rw [nextUnit, behind_]
            exact later)
          refine ⟨ctx', ?_, ?_⟩
          · rw [sendPicture_leading send media next
              (by rw [type]; exact bne_iff_ne.mp passes)
              (by rw [type]; exact Bool.eq_false_iff.mpr slice), sent, ok_bind, ran]
          · constructor
            · rw [front, if_neg slice, List.filter_cons_of_pos passes, List.map_cons,
                ← List.singleton_append, sendUnits_append, units_, ok_bind]
              exact period.sent
            · rw [front, if_neg slice, period.nalIdx, List.length_cons, nextUnit]
              exact Nat.add_right_comm _ _ _
            · rw [behind, if_neg slice]
              exact period.timestamp
            · exact period.pending
            · exact period.streamsPlaying
        · obtain ⟨ctx', ran, period⟩ := ih (nextUnit ctx ctx.transport) (by
            rw [nextUnit, behind_]
            exact later)
          have aud : nal.nalType = nalUnitAud := by
            rw [type]
            simpa [NalUnit.isSent] using passes
          refine ⟨ctx', ?_, ?_⟩
          · rw [sendPicture_delimiter send media next aud, ran]
          · constructor
            · rw [front, if_neg slice, List.filter_cons_of_neg passes]
              exact period.sent
            · rw [front, if_neg slice, period.nalIdx, List.length_cons, nextUnit]
              exact Nat.add_right_comm _ _ _
            · rw [behind, if_neg slice]
              exact period.timestamp
            · exact period.pending
            · exact period.streamsPlaying

/-! ## Over any transport -/

/-- Every entry of the table is one of a unit. -/
def Media.Indexed (media : Media) : Prop :=
  ∀ nal ∈ media.table.entries, ∃ nalu, Holds media.video nal nalu

/-- How far a part of a period has come. -/
structure Onward (media : Media) (post : ρ → Prop) (ctx ctx' : VideoCtx ρ) : Prop where
  kept : post ctx'.transport
  nalIdx : ctx.place.nalIdx ≤ ctx'.place.nalIdx
  pending : ctx'.pending = ctx.pending

section

variable {faults : Prop} {post : ρ → Prop} {send : TimedSend ρ}
  (each : ∀ ts marker header data t, post t →
    Returns faults (fun sent => post sent.1) (send ts marker header data t))

include each

/-- Only a unit that is not there can make a send fault by itself. -/
theorem sendNal_returns {video : List UInt8} {nal : NalEntry}
    (unit : (∃ nalu, Holds video nal nalu) ∨ faults) (ts : UInt32) (t : ρ) (holds : post t) :
    Returns faults post (sendNal send video nal ts t) := by
  have sent (byte : UInt8) (payload : List UInt8) : Returns faults post (do
      let nalu : NalUnit := { header := .H264 (H264NalHeader.parse byte), payload }
      let (t, _) ← NalTransport.sendPacket .default (send (.raw ts)) nalu t
      return t) :=
    (sendPacket_returns (each (.raw ts)) .default ⟨.H264 (H264NalHeader.parse byte), payload⟩
      (by decide : 0 < 1200) t holds).bind fun sent kept => kept
  rw [sendNal]
  rcases unit with ⟨nalu, byte, found, some_, read, _, _⟩ | allowed
  · rw [found, ok_bind, if_neg some_, read]
    exact sent byte nalu.payload
  · cases byteAt video nal.data with
    | error fault => exact allowed
    | ok byte =>
        rw [ok_bind]
        split
        · exact allowed
        · cases readBytes video (nal.data + 1) (nal.len - 1) with
          | error fault => exact allowed
          | ok payload => exact sent byte payload

variable (media : Media) (units : media.Indexed ∨ faults)

include units

theorem sendLeading_returns (ctx : VideoCtx ρ) (holds : post ctx.transport) :
    Returns faults (Onward media post ctx) (sendLeading send media ctx) := by
  generalize left : media.table.entries.length - ctx.place.nalIdx = count
  induction count generalizing ctx with
  | zero =>
      rw [sendLeading, dif_neg (by omega)]
      exact ⟨holds, Nat.le_refl _, rfl⟩
  | succ count ih =>
      have fewer : media.table.entries.length - (ctx.place.nalIdx + 1) = count := by omega
      have next (t : ρ) (kept : post t) :
          Returns faults (Onward media post ctx) (sendLeading send media (nextUnit ctx t)) :=
        (ih (nextUnit ctx t) kept fewer).mono fun _ onward =>
          ⟨onward.kept, Nat.le_of_succ_le onward.nalIdx, onward.pending⟩
      have inside : ctx.place.nalIdx < media.table.entries.length := by omega
      rw [sendLeading, dif_pos inside]
      dsimp only
      split_ifs
      · exact next ctx.transport holds
      · exact ⟨holds, Nat.le_refl _, rfl⟩
      · exact (sendNal_returns each (units.imp_left fun all => all _ (List.getElem_mem inside)) _ _
          holds).bind next

theorem sendSlice_returns (rate : media.fps ≠ 0 ∨ faults) (ctx : VideoCtx ρ)
    (holds : post ctx.transport) : Returns faults (fun ctx' => Onward media post ctx ctx' ∧
      (ctx.place.nalIdx < media.table.entries.length → ctx.place.nalIdx < ctx'.place.nalIdx))
        (sendSlice send media ctx) := by
  rw [sendSlice]
  split
  · rename_i inside
    refine (sendNal_returns each (units.imp_left fun all => all _ (List.getElem_mem inside)) _ _
      holds).bind fun t kept => ?_
    split
    · rename_i zero
      exact rate.resolve_left fun nonzero => nonzero zero
    · exact ⟨⟨kept, Nat.le_succ _, rfl⟩, fun _ => Nat.lt_succ_self _⟩
  · rename_i outside
    exact ⟨⟨holds, Nat.le_refl _, rfl⟩, fun inside => absurd inside outside⟩

theorem sendVideoPacketCb_returns (rate : media.fps ≠ 0 ∨ faults) (ctx : VideoCtx ρ)
    (holds : post ctx.transport) : Returns faults (fun ctx' => post ctx'.transport ∧
      (ctx'.pending = true → ctx.place.nalIdx < ctx'.place.nalIdx ∧
        ctx'.place.nalIdx < media.table.entries.length)) (sendVideoPacketCb send media ctx) := by
  have picture : Returns faults (fun ctx' => Onward media post ctx ctx' ∧
      (ctx'.place.nalIdx < media.table.entries.length → ctx.place.nalIdx < ctx'.place.nalIdx))
        (sendPicture send media ctx) := by
    refine (sendLeading_returns each media units ctx holds).bind fun middle leading => ?_
    refine (sendSlice_returns each media units rate middle leading.kept).mono
      fun ctx' ⟨slice, more⟩ => ⟨⟨slice.kept, Nat.le_trans leading.nalIdx slice.nalIdx,
        slice.pending.trans leading.pending⟩, fun inside => ?_⟩
    exact Nat.lt_of_le_of_lt leading.nalIdx (more (Nat.lt_of_le_of_lt slice.nalIdx inside))
  rw [sendVideoPacketCb]
  refine picture.bind fun ctx' ⟨onward, more⟩ => ?_
  split
  · exact ⟨onward.kept, fun pending => Bool.noConfusion pending⟩
  · rename_i inside
    have inside := Nat.lt_of_not_le inside
    exact ⟨onward.kept, fun _ => ⟨more inside, inside⟩⟩

end

/-! ## Many periods -/

theorem pictures_eq {units : List NalUnit} (some_ : units ≠ []) :
    pictures units = (front NalUnit.isSlice units).filter NalUnit.isSent ::
      pictures (behind NalUnit.isSlice units) := by
  rw [pictures, groups_eq NalUnit.isSlice some_, List.map_cons]
  rfl

/-- The place of these units, which are still to be played. -/
def VideoReady (media : Media) (plan : PlayPlan) (place : VideoPlace) : Prop :=
  ∃ units, units ≠ [] ∧
    List.Forall₂ (Holds media.video) (media.table.entries.drop place.nalIdx) units ∧
    plan = schedulePlan (schedule media.increment place.timestamp (pictures units))

/-- A tick for each picture, the timer deleted with the last one. -/
theorem sendVideoPacketCb_follows {send : TimedSend ρ} (willing : Willing 1200 send)
    (media : Media) (rate : media.fps ≠ 0) :
    FollowsPlan send (sendVideoPacketCb send media) (VideoReady media) := by
  rintro packets rest ctx ⟨units, some_, holds, plan⟩ pending
  obtain ⟨middle, ran, period⟩ := sendPicture_period willing media rate units ctx holds
  have length := holds.length_eq
  rw [List.length_drop] at length
  have split_ := length_front NalUnit.isSlice units
  rw [pictures_eq some_, schedule, schedulePlan, List.map_cons, List.cons.injEq] at plan
  obtain ⟨rfl, rfl⟩ := plan
  have sent := period.sent
  rw [sendUnits] at sent
  rw [sendVideoPacketCb, ran, ok_bind]
  by_cases last : behind NalUnit.isSlice units = []
  · rw [last, List.length_nil] at split_
    rw [if_pos (show _ ≤ middle.place.nalIdx by rw [period.nalIdx]; omega), last]
    refine ⟨_, rfl, sent, ?_⟩
    rw [show pictures [] = [] from rfl, schedule, List.map_nil, if_pos rfl]
    exact ⟨rfl, congrArg (· - 1) period.streamsPlaying⟩
  · have positive := List.length_pos_of_ne_nil last
    rw [if_neg (show ¬ _ ≤ middle.place.nalIdx by rw [period.nalIdx]; omega)]
    refine ⟨middle, rfl, sent, ?_⟩
    rw [pictures_eq last, schedule, List.map_cons, if_neg (List.cons_ne_nil _ _)]
    refine ⟨period.pending.trans pending, period.streamsPlaying, _, last, ?_, ?_⟩
    · rw [period.nalIdx, ← List.drop_drop, ← drop_front NalUnit.isSlice units]
      exact List.forall₂_drop _ holds
    · rw [period.timestamp last, pictures_eq last]
      rfl

/-! ## A whole file -/

def unitOf (unit : List UInt8) : NalUnit where
  header := .H264 (H264NalHeader.parse (unit.headD 0))
  payload := unit.tail

def NalUnit.isSps (nalu : NalUnit) : Bool := nalu.h264Type == nalUnitSps

/-- From the first sequence parameter set on, or everything where there is none. -/
def fromSps (units : List NalUnit) : List NalUnit :=
  if units.any NalUnit.isSps then units.dropWhile (fun nalu => !nalu.isSps) else units

theorem fromSps_ne_nil {units : List NalUnit} (some_ : units ≠ []) : fromSps units ≠ [] := by
  rw [fromSps]
  split
  · rename_i any
    intro none
    obtain ⟨nalu, member, sps⟩ := List.any_eq_true.mp any
    have other := List.dropWhile_eq_nil_iff.mp none nalu member
    rw [sps] at other
    exact absurd other (by decide)
  · exact some_

theorem mem_schedule {increment ts : UInt32} {list : List (List NalUnit)}
    {unit : UInt32 × NalUnit} (member : unit ∈ (schedule increment ts list).flatten) :
    unit.2 ∈ list.flatten := by
  induction list generalizing ts with
  | nil => exact absurd member List.not_mem_nil
  | cons picture list ih =>
      rw [schedule, List.flatten_cons, List.mem_append] at member
      rw [List.flatten_cons, List.mem_append]
      rcases member with here | later
      · obtain ⟨nalu, inside, rfl⟩ := List.mem_map.mp here
        exact Or.inl inside
      · exact Or.inr (ih later)

theorem mem_pictures {units : List NalUnit} {nalu : NalUnit}
    (member : nalu ∈ (pictures (fromSps units)).flatten) : nalu ∈ units := by
  obtain ⟨picture, inside, here⟩ := List.mem_flatten.mp member
  obtain ⟨group, among, rfl⟩ := List.mem_map.mp inside
  have whole : nalu ∈ (groups NalUnit.isSlice (fromSps units)).flatten :=
    List.mem_flatten.mpr ⟨group, among, List.mem_of_mem_filter here⟩
  rw [flatten_groups, fromSps] at whole
  split at whole
  · exact List.dropWhile_subset _ whole
  · exact whole

theorem entriesFrom_holds (code : List UInt8) (units : List (List UInt8))
    (some_ : ∀ unit ∈ units, unit ≠ []) (front : List UInt8) :
    List.Forall₂ (Holds (front ++ Delimited.joined code units))
      (entriesFrom code front.length units) (units.map unitOf) := by
  induction units generalizing front with
  | nil => exact .nil
  | cons unit units ih =>
      obtain ⟨here, later⟩ := List.forall_mem_cons.mp some_
      obtain ⟨byte, payload, rfl⟩ := List.exists_cons_of_ne_nil here
      have rest := ih later (front ++ code ++ byte :: payload)
      rw [List.length_append, List.length_append, List.append_assoc, List.append_assoc] at rest
      rw [Delimited.joined_cons, entriesFrom, List.map_cons]
      have place : front ++ (code ++ (byte :: payload ++ Delimited.joined code units)) =
          (front ++ code) ++ byte :: (payload ++ Delimited.joined code units) := by
        rw [List.append_assoc]
        rfl
      refine .cons ⟨byte, ?_, Nat.succ_ne_zero _, ?_, rfl, rfl⟩ rest
      · rw [place, ← List.length_append, byteAt_eq_ok, List.getElem?_append_right (Nat.le_refl _),
          Nat.sub_self]
        rfl
      · have inside : front.length + code.length + 1 + payload.length ≤
            ((front ++ code) ++ byte :: (payload ++ Delimited.joined code units)).length := by
          simp only [List.length_append, List.length_cons]
          omega
        have dropped : ((front ++ code) ++ byte :: (payload ++ Delimited.joined code units)).drop
            (front.length + code.length + 1) = payload ++ Delimited.joined code units := by
          rw [← List.length_append, ← List.drop_drop, List.drop_left]
          rfl
        rw [place, show (byte :: payload).length - 1 = payload.length from rfl,
          readBytes_ok _ _ _ inside, dropped, List.take_left]
        rfl

theorem drop_startIdx (units : List NalUnit) :
    units.drop (startIdx (units.map NalUnit.h264Type)) = fromSps units := by
  have found : (units.map NalUnit.h264Type).findIdx? (· == nalUnitSps) =
      units.findIdx? NalUnit.isSps := List.findIdx?_map
  rw [startIdx, found, fromSps]
  cases place : units.findIdx? NalUnit.isSps with
  | none =>
      have none_ : ¬ units.any NalUnit.isSps = true := by
        rw [List.any_eq_true]
        rintro ⟨nalu, member, sps⟩
        exact absurd sps (by rw [List.findIdx?_eq_none_iff.mp place nalu member]; decide)
      rw [if_neg none_]
      rfl
  | some index =>
      obtain ⟨inside, sps, _⟩ := List.findIdx?_eq_some_iff_getElem.mp place
      have some_ : units.any NalUnit.isSps = true :=
        List.any_eq_true.mpr ⟨_, List.getElem_mem inside, sps⟩
      have same : units.findIdx NalUnit.isSps = index := by
        rw [List.findIdx?_eq_some_iff_findIdx_eq] at place
        exact place.2
      rw [if_pos some_, List.dropWhile_eq_drop_findIdx_not]
      simp only [Bool.not_not]
      exact congrArg (fun i => units.drop i) same.symm

/-- A file of these units, as it is loaded. -/
def mediaOf (code : List UInt8) (units : List (List UInt8)) (fps : Int) : Media where
  video := Delimited.joined code units
  table := ⟨entriesFrom code 0 units, startIdx ((units.map unitOf).map NalUnit.h264Type)⟩
  fps := fps

theorem mediaOf_holds (code : List UInt8) {units : List (List UInt8)}
    (some_ : ∀ unit ∈ units, unit ≠ []) (fps : Int) :
    List.Forall₂ (Holds (mediaOf code units fps).video) (mediaOf code units fps).table.entries
      (units.map unitOf) := by
  have holds := entriesFrom_holds code units some_ []
  rwa [List.nil_append, List.length_nil] at holds

theorem mediaOf_indexed (code : List UInt8) {units : List (List UInt8)}
    (some_ : ∀ unit ∈ units, unit ≠ []) (fps : Int) : (mediaOf code units fps).Indexed := by
  have holds := mediaOf_holds code some_ fps
  intro nal member
  obtain ⟨i, inside, rfl⟩ := List.getElem_of_mem member
  exact ⟨_, holds.get inside (holds.length_eq ▸ inside)⟩

theorem mediaOf_table (heap : NalEntry) {code : List UInt8}
    (known : code = startCode3b ∨ code = startCode4b) {units : List (List UInt8)}
    (present : units ≠ []) (clean : Delimited.Clean code units)
    (some_ : ∀ unit ∈ units, unit ≠ []) (fps : Int) :
    buildNalIndex heap (mediaOf code units fps).video = .ok (some (mediaOf code units fps).table) := by
  have holds := mediaOf_holds code some_ fps
  have types : (entriesFrom code 0 units).map NalEntry.nalType =
      (units.map unitOf).map NalUnit.h264Type := by
    rw [← List.forall₂_eq_eq_eq, List.forall₂_map_left_iff, List.forall₂_map_right_iff]
    exact holds.imp fun _ _ entry => entry.type
  have ended : units.getLast? ≠ some [] := fun last => some_ [] (List.mem_of_getLast? last) rfl
  rw [mediaOf, buildNalIndex_joined heap known present clean, if_neg ended, types]

/-- The pictures of a file with the timestamps of their periods. -/
def filePlan (units : List (List UInt8)) (fps : Int) : List (List (UInt32 × NalUnit)) :=
  schedule (UInt32.ofInt (videoSampleRate.tdiv fps)) 0 (pictures (fromSps (units.map unitOf)))

theorem filePlan_ne_nil {units : List (List UInt8)} (present : units ≠ []) (fps : Int) :
    filePlan units fps ≠ [] := by
  have some_ : units.map unitOf ≠ [] := fun none => present (List.map_eq_nil_iff.mp none)
  rw [filePlan, pictures_eq (fromSps_ne_nil some_), schedule]
  exact List.cons_ne_nil _ _

theorem filePlan_valid {units : List (List UInt8)} (fps : Int)
    (valid : ∀ unit ∈ units, (unitOf unit).header.Valid) :
    ∀ unit ∈ (filePlan units fps).flatten, unit.2.header.Valid ∧
      unit.2.header.codec = .H264 ∧ unit.2.header.fuSize < 1200 := by
  intro unit member
  obtain ⟨bytes, inside, same⟩ := List.mem_map.mp (mem_pictures (mem_schedule member))
  rw [← same]
  exact ⟨valid bytes inside, rfl, (by decide : 2 < 1200)⟩

/-- What the periods of a file without empty units send. -/
theorem playEvents_file {send : TimedSend ρ} (willing : Willing 1200 send) (code : List UInt8)
    {units : List (List UInt8)} (present : units ≠ []) (some_ : ∀ unit ∈ units, unit ≠ [])
    (fps : Int) (rate : fps ≠ 0) (events : List (PlayEvent ρ)) (t : ρ) (streamsPlaying : Int) :
    ∃ ctx, playEvents (sendVideoPacketCb send (mediaOf code units fps)) events
        (playVideo (mediaOf code units fps) t streamsPlaying) = .ok ctx ∧
      Played send events (schedulePlan (filePlan units fps))
        (playVideo (mediaOf code units fps) t streamsPlaying) ctx := by
  have units_ : units.map unitOf ≠ [] := fun none => present (List.map_eq_nil_iff.mp none)
  refine playEvents_played (sendVideoPacketCb_follows willing (mediaOf code units fps) rate) events
    _ (fun none => filePlan_ne_nil present fps (List.map_eq_nil_iff.mp none)) _
    ⟨_, fromSps_ne_nil units_, ?_, rfl⟩ rfl
  rw [← drop_startIdx]
  exact List.forall₂_drop _ (mediaOf_holds code some_ fps)

end Compy.Nal
