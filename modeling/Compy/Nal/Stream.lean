import Compy.Library.Framing
import Compy.Library.Grouping
import Compy.Nal.Limits

/-!
# A stream of NAL units

A receiver of many units: it takes the packets up to the one that is a whole unit or the last
fragment, and puts the unit together if all of them have one timestamp.
-/

set_option autoImplicit false

namespace Compy.Nal

open Fragmentation Framing Grouping Compy.Rtp

/-- The payload is a whole unit or the last fragment of one. -/
def closesUnit (codec : Codec) (payload : List UInt8) : Bool :=
  (singleUnit codec payload).isSome ||
    match fragment codec payload with
    | some (_, _, isLast, _) => isLast
    | none => false

def readUnit (codec : Codec) (packets : List (UInt32 × List UInt8)) :
    Except Unit ((UInt32 × NalUnit) × List (UInt32 × List UInt8)) :=
  match front (fun packet => closesUnit codec packet.2) packets with
  | [] => .error ()
  | (ts, payload) :: more =>
      if more.all (fun packet => packet.1 == ts) then
        match depacketise codec (payload :: more.map Prod.snd) with
        | some nalu => .ok ((ts, nalu), behind (fun packet => closesUnit codec packet.2) packets)
        | none => .error ()
      else .error ()

def readUnits (codec : Codec) (packets : List (UInt32 × List UInt8)) :
    Except Unit (List (UInt32 × NalUnit)) :=
  readAll (readUnit codec) () packets.length packets

def stampedPackets (limit : Nat) (unit : UInt32 × NalUnit) : List (UInt32 × List UInt8) :=
  (limitPackets limit unit.2).map fun packet => (unit.1, packet.bytes)

theorem closesUnit_single (nalu : NalUnit) (valid : nalu.header.Valid) :
    closesUnit nalu.header.codec (nalu.header.serialize ++ nalu.payload) = true := by
  rw [closesUnit, singleUnit_serialize nalu valid]
  rfl

theorem closesUnit_fuPacket (nalu : NalUnit) (valid : nalu.header.Valid)
    (size count index : Nat) :
    closesUnit nalu.header.codec (fuPacket nalu size count index).bytes = (index + 1 == count) := by
  obtain ⟨several, read⟩ := fragment_writeFuHeader nalu.header valid (index == 0)
    (index + 1 == count) (window size nalu.payload index)
  rw [closesUnit, RtpPayload.bytes, fuPacket, several, read]
  rfl

theorem readUnit_closed (codec : Codec) (ts : UInt32) (nalu : NalUnit)
    (init : List (List UInt8)) (last : List UInt8)
    (opened : ∀ payload ∈ init, closesUnit codec payload = false)
    (closed : closesUnit codec last = true)
    (restored : depacketise codec (init ++ [last]) = some nalu)
    (rest : List (UInt32 × List UInt8)) :
    readUnit codec ((init ++ [last]).map (Prod.mk ts) ++ rest) = .ok ((ts, nalu), rest) := by
  have others : ∀ packet ∈ init.map (Prod.mk ts), closesUnit codec packet.2 = false := by
    intro packet member
    obtain ⟨payload, here, rfl⟩ := List.mem_map.mp member
    exact opened payload here
  have cut := @cut_closed _ (fun packet => closesUnit codec packet.2) _ (ts, last) others closed rest
  have same : (init ++ [last]).map (Prod.mk ts) ++ rest =
      init.map (Prod.mk ts) ++ (ts, last) :: rest := by
    rw [List.map_append, List.append_assoc]
    rfl
  have stamps (payloads : List (List UInt8)) :
      (payloads.map (Prod.mk ts)).all (fun packet => packet.1 == ts) = true ∧
        (payloads.map (Prod.mk ts)).map Prod.snd = payloads := by
    constructor
    · rw [List.all_map, List.all_eq_true]
      exact fun _ _ => beq_self_eq_true ts
    · rw [List.map_map]
      exact List.map_id _
  rw [readUnit, same, cut.1, cut.2]
  cases init with
  | nil =>
      rw [List.map_nil, List.nil_append]
      dsimp only
      rw [List.nil_append] at restored
      rw [List.all_nil, if_pos rfl, List.map_nil, restored]
  | cons first init =>
      have whole : init.map (Prod.mk ts) ++ [(ts, last)] = (init ++ [last]).map (Prod.mk ts) := by
        rw [List.map_append]
        rfl
      rw [List.map_cons, List.cons_append, whole]
      dsimp only
      rw [if_pos (stamps _).1, (stamps _).2, ← List.cons_append, restored]

theorem readUnit_packets (limit : Nat) (unit : UInt32 × NalUnit) (valid : unit.2.header.Valid)
    (room : unit.2.header.fuSize < limit) (rest : List (UInt32 × List UInt8)) :
    readUnit unit.2.header.codec (stampedPackets limit unit ++ rest) = .ok (unit, rest) := by
  obtain ⟨ts, nalu⟩ := unit
  dsimp only at valid room ⊢
  have split_ : stampedPackets limit (ts, nalu) =
      ((limitPackets limit nalu).map RtpPayload.bytes).map (Prod.mk ts) := by
    rw [stampedPackets, List.map_map]
    rfl
  rw [split_, limitPackets]
  split
  · rename_i short
    have sent := sent_single nalu valid limit
      (nalu.header.isCodedSliceIdr || nalu.header.isCodedSliceNonIdr) short
    exact readUnit_closed _ ts nalu [] _ (fun _ none => absurd none List.not_mem_nil)
      (closesUnit_single nalu valid) sent.restored rest
  · rename_i long
    rw [fragmentSize_room nalu.header limit room]
    have sent := sent_fuPackets nalu valid limit room (Nat.le_of_not_lt long)
    generalize limit - nalu.header.fuSize = size at sent
    have several := (sent.fragmented (Nat.le_of_not_lt long)).1
    have restored := sent.restored
    rw [fuPackets, List.length_map, List.length_range] at several
    obtain ⟨before, count⟩ : ∃ before, windowCount size nalu.payload.length = before + 1 :=
      ⟨windowCount size nalu.payload.length - 1, by omega⟩
    rw [fuPackets, count, List.range_succ, List.map_append, List.map_append] at restored ⊢
    refine readUnit_closed _ ts nalu _ _ ?_ ?_ restored rest
    · intro payload member
      rw [List.map_map] at member
      obtain ⟨index, inside, rfl⟩ := List.mem_map.mp member
      have earlier := List.mem_range.mp inside
      rw [Function.comp_apply, closesUnit_fuPacket nalu valid, beq_eq_false_iff_ne]
      omega
    · rw [closesUnit_fuPacket nalu valid]
      exact beq_self_eq_true _

theorem stampedPackets_ne_nil (limit : Nat) (unit : UInt32 × NalUnit)
    (room : unit.2.header.fuSize < limit) : stampedPackets limit unit ≠ [] := by
  have header : unit.2.header.fuSize = unit.2.header.size + 1 := by
    cases unit.2.header <;> rfl
  intro none
  obtain ⟨empty, long⟩ := (limitPackets_eq_nil limit unit.2 (Nat.zero_lt_of_lt room)).mp
    (List.map_eq_nil_iff.mp none)
  omega

/-- Units of one codec, one after the other, come back with their timestamps. -/
theorem readUnits_packets (codec : Codec) (limit : Nat) (units : List (UInt32 × NalUnit))
    (valid : ∀ unit ∈ units, unit.2.header.Valid ∧ unit.2.header.codec = codec ∧
      unit.2.header.fuSize < limit) :
    readUnits codec (units.flatMap (stampedPackets limit)) = .ok units := by
  have reads : ∀ unit ∈ units, ∀ rest,
      readUnit codec (stampedPackets limit unit ++ rest) = .ok (id unit, rest) := by
    intro unit member rest
    obtain ⟨well, same, room⟩ := valid unit member
    rw [← same]
    exact readUnit_packets limit unit well room rest
  refine (readAll_flatMap units (fun unit member => ?_) reads _ (Nat.le_refl _)).trans ?_
  · exact stampedPackets_ne_nil limit unit (valid unit member).2.2
  · rw [List.map_id]

end Compy.Nal
