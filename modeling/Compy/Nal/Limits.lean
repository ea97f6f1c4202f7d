import Compy.Nal.Depacketise

/-!
# Any size limits

`Compy_NalTransport_new_with_config` takes the two limits as they are.  A limit of zero is
divided by, a unit without payload under a limit no larger than its header is cut into no
fragments at all, and the two ways to send a unit do not agree on the marker of its last
packet.
-/

set_option autoImplicit false

namespace Compy.Nal

open CheckedBytes Fragmentation Compy.Rtp

variable {ρ : Type}

/-! ## What becomes of a unit -/

/-- The call returns, and where it returns 0 the whole payload is in the packets sent. -/
def UnitSent (config : NalTransportConfig) (send : RtpSend ρ) (emitted : ρ → List RtpPayload)
    (nalu : NalUnit) (t : ρ) : Prop :=
  ∃ t' ret, NalTransport.sendPacket config send nalu t = .ok (t', ret) ∧
    (ret = 0 → ∃ packets, emitted t' = emitted t ++ packets ∧ packets ≠ [] ∧
      (packets.map RtpPayload.data).flatten = nalu.payload)

/-- The remainder by zero. -/
theorem sendPacket_zero (config : NalTransportConfig) (send : RtpSend ρ) (nalu : NalUnit)
    (zero : config.limit nalu.header = 0) (t : ρ) :
    NalTransport.sendPacket config send nalu t = .error .assertion := by
  simp [NalTransport.sendPacket, sendFragmentizedNalData, zero]
  rfl

theorem length_fuPackets (nalu : NalUnit) (size : Nat) :
    (fuPackets nalu size).length = windowCount size nalu.payload.length := by
  simp [fuPackets]

theorem flatten_fuPackets (nalu : NalUnit) (size : Nat) (positive : 0 < size) :
    ((fuPackets nalu size).map RtpPayload.data).flatten = nalu.payload := by
  have whole := flatten_allWindows positive nalu.payload
  rw [fuPackets, List.map_map]
  exact whole

theorem flatten_limitPackets (limit : Nat) (nalu : NalUnit) (nonzero : 0 < limit) :
    ((limitPackets limit nalu).map RtpPayload.data).flatten = nalu.payload := by
  unfold limitPackets
  split
  · simp
  · exact flatten_fuPackets nalu _ (fragmentSize_pos nalu.header limit nonzero)

theorem windowCount_eq_zero {size length : Nat} (positive : 0 < size) :
    windowCount size length = 0 ↔ length = 0 := by
  constructor
  · intro none
    have total := length_le_windowCount positive length
    rw [none, Nat.zero_mul] at total
    exact Nat.le_zero.mp total
  · intro zero
    simp [windowCount, zero]

theorem limitPackets_eq_nil (limit : Nat) (nalu : NalUnit) (nonzero : 0 < limit) :
    limitPackets limit nalu = [] ↔ nalu.payload = [] ∧ limit ≤ nalu.header.size := by
  have positive := fragmentSize_pos nalu.header limit nonzero
  unfold limitPackets
  split
  · rename_i short
    constructor
    · intro none
      contradiction
    · rintro ⟨empty, small⟩
      rw [empty, List.length_nil] at short
      omega
  · rename_i long
    rw [← List.length_eq_zero_iff, length_fuPackets, windowCount_eq_zero positive,
      List.length_eq_zero_iff]
    constructor
    · intro empty
      rw [empty, List.length_nil] at long
      exact ⟨empty, by omega⟩
    · exact And.left

/-- A unit is sent as it should be where its limit is not zero and, for a unit without
payload, larger than the header. -/
theorem unitSent_iff (config : NalTransportConfig) (send : RtpSend ρ)
    (emitted : ρ → List RtpPayload) (never : NeverFails send emitted) (nalu : NalUnit) (t : ρ) :
    UnitSent config send emitted nalu t ↔ config.limit nalu.header ≠ 0 ∧
      (nalu.payload = [] → nalu.header.size < config.limit nalu.header) := by
  by_cases zero : config.limit nalu.header = 0
  · constructor
    · rintro ⟨t', ret, sent, _⟩
      rw [sendPacket_zero config send nalu zero] at sent
      contradiction
    · intro condition
      exact absurd zero condition.1
  have nonzero : 0 < config.limit nalu.header := Nat.pos_of_ne_zero zero
  have whole := flatten_limitPackets (config.limit nalu.header) nalu nonzero
  have none := limitPackets_eq_nil (config.limit nalu.header) nalu nonzero
  obtain ⟨t', ret, sent, _, added⟩ := sendPacket_neverFails config send emitted never nalu nonzero t
  constructor
  · rintro ⟨u, code, same, complete⟩
    refine ⟨zero, fun empty => ?_⟩
    by_contra small
    have nothing := none.mpr ⟨empty, Nat.le_of_not_lt small⟩
    -- nothing goes out, and the call returns 0
    have returned : ret = 0 := by
      rw [NalTransport.sendPacket, if_neg (by simp [empty]; omega),
        sendFragmentizedNalData_eq send _ nalu nonzero] at sent
      have fragments : fuPackets nalu (fragmentSize nalu.header (config.limit nalu.header)) =
          [] := by simp [fuPackets, windowCount, empty]
      rw [fragments, sendAll] at sent
      cases sent
      rfl
    rw [sent] at same
    cases same
    obtain ⟨packets, more, some_, _⟩ := complete returned
    rw [nothing] at added
    exact some_ (List.append_cancel_left (more.symm.trans added))
  · rintro ⟨_, condition⟩
    refine ⟨t', ret, sent, fun _ => ⟨_, added, ?_, whole⟩⟩
    intro nothing
    obtain ⟨empty, small⟩ := none.mp nothing
    exact absurd (condition empty) (Nat.not_lt.mpr small)

/-- A limit of one cuts the unit into single bytes. -/
theorem idrUnit_sentByBytes : UnitSent ⟨1, 1⟩ recorder id idrUnit [] :=
  (unitSent_iff ⟨1, 1⟩ recorder id recorder_neverFails idrUnit []).mpr ⟨by decide, by decide⟩

def emptyUnit : NalUnit where
  header := .H265 (H265NalHeader.parse 0x46 0x01)
  payload := []

/-- A limit of zero stops the program, and one of two loses the unit. -/
theorem small_limits_fail :
    ¬ UnitSent ⟨0, 0⟩ recorder id idrUnit [] ∧ ¬ UnitSent ⟨2, 2⟩ recorder id emptyUnit [] ∧
      NalTransport.sendPacket ⟨2, 2⟩ recorder emptyUnit [] = .ok ([], 0) := by
  refine ⟨?_, ?_, rfl⟩
  · rintro ⟨t', ret, sent, _⟩
    rw [sendPacket_zero ⟨0, 0⟩ recorder idrUnit rfl] at sent
    contradiction
  · rintro ⟨t', ret, sent, complete⟩
    cases sent
    obtain ⟨packets, added, some_, _⟩ := complete rfl
    exact some_ added.symm

/-! ## The marker of the last packet -/

def lastMarker (packets : List RtpPayload) : Option Bool := packets.getLast?.map RtpPayload.marker

def NalHeader.isCodedSlice (self : NalHeader) : Bool :=
  self.isCodedSliceIdr || self.isCodedSliceNonIdr

theorem lastMarker_fuPackets (nalu : NalUnit) (size : Nat) (positive : 0 < size)
    (nonempty : nalu.payload ≠ []) : lastMarker (fuPackets nalu size) = some true := by
  obtain ⟨left, count⟩ : ∃ left, windowCount size nalu.payload.length = left + 1 := by
    apply Nat.exists_eq_succ_of_ne_zero
    rw [Ne, windowCount_eq_zero positive, List.length_eq_zero_iff]
    exact nonempty
  simp [lastMarker, fuPackets, count, List.range_succ, fuPacket]

theorem lastMarker_limitPackets (limit : Nat) (nalu : NalUnit)
    (room : nalu.header.fuSize < limit) :
    lastMarker (limitPackets limit nalu) =
      some (nalu.header.isCodedSlice ||
        decide (limit ≤ nalu.header.size + nalu.payload.length)) := by
  have header : nalu.header.fuSize = nalu.header.size + 1 := by
    cases nalu.header <;> rfl
  unfold limitPackets
  split
  · rename_i short
    simp [lastMarker, NalHeader.isCodedSlice, Nat.not_le.mpr short]
  · rename_i long
    have nonempty : nalu.payload ≠ [] := by
      intro empty
      rw [empty, List.length_nil] at long
      omega
    rw [lastMarker_fuPackets nalu _ (fragmentSize_pos _ _ (Nat.zero_lt_of_lt room)) nonempty]
    simp [Nat.le_of_not_lt long]

/-- Under both limits packets go out, and the last ones agree on the marker. -/
def MarkersAgree (first second : NalTransportConfig) (send : RtpSend ρ)
    (emitted : ρ → List RtpPayload) (nalu : NalUnit) (t u : ρ) : Prop :=
  ∃ t' u' ret other left right marker,
    NalTransport.sendPacket first send nalu t = .ok (t', ret) ∧ emitted t' = emitted t ++ left ∧
    NalTransport.sendPacket second send nalu u = .ok (u', other) ∧ emitted u' = emitted u ++ right ∧
    lastMarker left = some marker ∧ lastMarker right = some marker

theorem markersAgree_lastMarkers (first second : NalTransportConfig) (send : RtpSend ρ)
    (emitted : ρ → List RtpPayload) (never : NeverFails send emitted) (nalu : NalUnit)
    (room : nalu.header.fuSize < first.limit nalu.header)
    (otherRoom : nalu.header.fuSize < second.limit nalu.header) (t u : ρ) :
    MarkersAgree first second send emitted nalu t u ↔
      lastMarker (limitPackets (first.limit nalu.header) nalu) =
        lastMarker (limitPackets (second.limit nalu.header) nalu) := by
  obtain ⟨t', ret, sent, _, added⟩ := sendPacket_neverFails first send emitted never nalu
    (Nat.zero_lt_of_lt room) t
  obtain ⟨u', other, sentOther, _, addedOther⟩ := sendPacket_neverFails second send emitted never
    nalu (Nat.zero_lt_of_lt otherRoom) u
  constructor
  · rintro ⟨_, _, _, _, packets, others, marker, ran, more, ranOther, moreOther, marked,
      markedOther⟩
    rw [sent] at ran
    rw [sentOther] at ranOther
    cases ran
    cases ranOther
    rw [List.append_cancel_left (added.symm.trans more),
      List.append_cancel_left (addedOther.symm.trans moreOther), marked, markedOther]
  · intro agree
    have marked := lastMarker_limitPackets (first.limit nalu.header) nalu room
    exact ⟨t', u', ret, other, _, _, _, sent, added, sentOther, addedOther, marked,
      agree.symm.trans marked⟩

/-- The markers agree for a coded slice, and where both limits send the unit the same way. -/
theorem markersAgree_iff (first second : NalTransportConfig) (send : RtpSend ρ)
    (emitted : ρ → List RtpPayload) (never : NeverFails send emitted) (nalu : NalUnit)
    (room : nalu.header.fuSize < first.limit nalu.header)
    (otherRoom : nalu.header.fuSize < second.limit nalu.header) (t u : ρ) :
    MarkersAgree first second send emitted nalu t u ↔ nalu.header.isCodedSlice = true ∨
      (nalu.header.size + nalu.payload.length < first.limit nalu.header ↔
        nalu.header.size + nalu.payload.length < second.limit nalu.header) := by
  rw [markersAgree_lastMarkers first second send emitted never nalu room otherRoom,
    lastMarker_limitPackets (first.limit nalu.header) nalu room,
    lastMarker_limitPackets (second.limit nalu.header) nalu otherRoom]
  cases slice : nalu.header.isCodedSlice with
  | true => simp
  | false =>
      simp only [Bool.false_or, Option.some.injEq, decide_eq_decide, Bool.false_eq_true, false_or]
      omega

def spsUnit : NalUnit where
  header := .H264 (H264NalHeader.parse 0x67)
  payload := [0x42, 0xC0, 0x1E]

/-- A slice is marked whether it goes out whole or in fragments. -/
theorem idrUnit_marked : MarkersAgree ⟨10, 10⟩ ⟨11, 11⟩ recorder id idrUnit [] [] :=
  (markersAgree_iff ⟨10, 10⟩ ⟨11, 11⟩ recorder id recorder_neverFails idrUnit (by decide)
    (by decide) [] []).mpr (Or.inl (by decide))

/-- Whole, the parameter set is not marked; in fragments it is. -/
theorem parameterSet_marked : spsUnit.header.fuSize < 4 ∧ spsUnit.header.fuSize < 5 ∧
    ¬ MarkersAgree ⟨4, 4⟩ ⟨5, 5⟩ recorder id spsUnit [] [] := by
  refine ⟨by decide, by decide, ?_⟩
  rw [markersAgree_lastMarkers ⟨4, 4⟩ ⟨5, 5⟩ recorder id recorder_neverFails spsUnit (by decide)
    (by decide)]
  decide

end Compy.Nal
