import Compy.Jpeg.SegmentData

/-!
# The segments of a JPEG frame

A frame is the start marker, segments, the first SOS segment, the scan and the end marker.
The parser finds such a layout in every frame it accepts, and what it knows at the end is
what the segments before SOS have told it.
-/

set_option autoImplicit false

namespace Compy.Jpeg

open BigEndian CheckedBytes

structure Segment where
  fill : Nat
  marker : UInt8
  data : List UInt8
  deriving DecidableEq, Repr

def Segment.bytes (self : Segment) : List UInt8 :=
  List.replicate (self.fill + 1) 0xFF ++ self.marker ::
    if standalone self.marker then []
    else be16 (UInt16.ofNat (self.data.length + 2)) ++ self.data

structure Segment.WellFormed (segment : Segment) : Prop where
  code : segment.marker ≠ 0xFF
  bare : standalone segment.marker = true → segment.data = []
  short : segment.data.length + 2 < 2 ^ 16

structure Layout (frame : List UInt8) (segments : List Segment) (sos : Segment)
    (scan : List UInt8) : Prop where
  bytes : frame = [0xFF, jpegSoi] ++ (segments.flatMap Segment.bytes ++ sos.bytes) ++ scan ++
    [0xFF, jpegEoi]
  wellFormed : ∀ segment ∈ segments, segment.WellFormed ∧ segment.marker ≠ jpegSos
  sosWellFormed : sos.WellFormed
  sosMarker : sos.marker = jpegSos

/-! ## A frame has one layout -/

theorem fill_unique (fill other : Nat) (marker code : UInt8) (rest tail : List UInt8)
    (notFill : marker ≠ 0xFF) (codeNotFill : code ≠ 0xFF)
    (same : List.replicate fill 0xFF ++ marker :: rest =
      List.replicate other 0xFF ++ code :: tail) :
    fill = other ∧ marker = code ∧ rest = tail := by
  induction fill generalizing other with
  | zero =>
      cases other with
      | zero => exact ⟨rfl, List.cons.inj same⟩
      | succ other => exact absurd (List.cons.inj same).1 notFill
  | succ fill ih =>
      cases other with
      | zero => exact absurd (List.cons.inj same).1.symm codeNotFill
      | succ other =>
          obtain ⟨fills, others⟩ := ih other (List.cons.inj same).2
          exact ⟨congrArg Nat.succ fills, others⟩

theorem Segment.bytes_unique (segment other : Segment) (rest tail : List UInt8)
    (wellFormed : segment.WellFormed) (otherWellFormed : other.WellFormed)
    (same : segment.bytes ++ rest = other.bytes ++ tail) : segment = other ∧ rest = tail := by
  obtain ⟨fill, marker, data⟩ := segment
  obtain ⟨otherFill, code, bytes⟩ := other
  simp only [Segment.bytes, List.append_assoc, List.cons_append] at same
  obtain ⟨fills, rfl, content⟩ := fill_unique _ _ _ _ _ _ wellFormed.code otherWellFormed.code same
  obtain rfl := Nat.succ.inj fills
  cases bare : standalone marker with
  | true =>
      rw [bare] at content
      obtain rfl : data = [] := wellFormed.bare bare
      obtain rfl : bytes = [] := otherWellFormed.bare bare
      exact ⟨rfl, content⟩
  | false =>
      rw [bare] at content
      simp only [Bool.false_eq_true, if_false, List.append_assoc] at content
      have words := congrArg word16 content
      rw [word16_be16, word16_be16] at words
      have lengths := congrArg UInt16.toNat words
      have short : data.length + 2 < 2 ^ 16 := wellFormed.short
      have otherShort : bytes.length + 2 < 2 ^ 16 := otherWellFormed.short
      rw [UInt16.toNat_ofNat', UInt16.toNat_ofNat', Nat.mod_eq_of_lt short,
        Nat.mod_eq_of_lt otherShort] at lengths
      rw [words] at content
      obtain ⟨rfl, rest⟩ := List.append_inj (List.append_cancel_left content) (by omega)
      exact ⟨rfl, rest⟩

theorem segments_unique (segments others : List Segment) (sos otherSos : Segment)
    (rest tail : List UInt8)
    (wellFormed : ∀ segment ∈ segments, segment.WellFormed ∧ segment.marker ≠ jpegSos)
    (otherWellFormed : ∀ segment ∈ others, segment.WellFormed ∧ segment.marker ≠ jpegSos)
    (sosWellFormed : sos.WellFormed) (otherSosWellFormed : otherSos.WellFormed)
    (sosMarker : sos.marker = jpegSos) (otherSosMarker : otherSos.marker = jpegSos)
    (same : segments.flatMap Segment.bytes ++ (sos.bytes ++ rest) =
      others.flatMap Segment.bytes ++ (otherSos.bytes ++ tail)) :
    segments = others ∧ sos = otherSos ∧ rest = tail := by
  induction segments generalizing others with
  | nil =>
      cases others with
      | nil =>
          exact ⟨rfl, sos.bytes_unique otherSos rest tail sosWellFormed otherSosWellFormed same⟩
      | cons other others =>
          obtain ⟨valid, before⟩ := otherWellFormed other List.mem_cons_self
          rw [List.flatMap_nil, List.nil_append, List.flatMap_cons, List.append_assoc] at same
          obtain ⟨rfl, _⟩ := sos.bytes_unique other _ _ sosWellFormed valid same
          exact absurd sosMarker before
  | cons segment segments ih =>
      obtain ⟨⟨valid, before⟩, wellFormed⟩ := List.forall_mem_cons.mp wellFormed
      rw [List.flatMap_cons, List.append_assoc] at same
      cases others with
      | nil =>
          obtain ⟨rfl, _⟩ := segment.bytes_unique otherSos _ _ valid otherSosWellFormed same
          exact absurd otherSosMarker before
      | cons other others =>
          obtain ⟨⟨otherValid, _⟩, others'⟩ := List.forall_mem_cons.mp otherWellFormed
          rw [List.flatMap_cons, List.append_assoc] at same
          obtain ⟨rfl, behind⟩ := segment.bytes_unique other _ _ valid otherValid same
          obtain ⟨rfl, rfl, rfl⟩ := ih others wellFormed others' behind
          exact ⟨rfl, rfl, rfl⟩

theorem Layout.unique {frame scan otherScan : List UInt8} {segments others : List Segment}
    {sos otherSos : Segment} (layout : Layout frame segments sos scan)
    (other : Layout frame others otherSos otherScan) :
    segments = others ∧ sos = otherSos ∧ scan = otherScan := by
  have same := layout.bytes.symm.trans other.bytes
  simp only [List.append_assoc] at same
  obtain ⟨rfl, rfl, behind⟩ := segments_unique segments others sos otherSos _ _ layout.wellFormed
    other.wellFormed layout.sosWellFormed other.sosWellFormed layout.sosMarker other.sosMarker
    (List.append_cancel_left same)
  exact ⟨rfl, rfl, List.append_cancel_right behind⟩

inductive Uses : List Segment → Known → Known → Prop where
  | nil (known : Known) : Uses [] known known
  | cons (segment : Segment) (rest : List Segment) (known next final : Known)
      (used : useSegment segment.marker segment.data known = .ok (some next))
      (others : Uses rest next final) : Uses (segment :: rest) known final

/-! ## The readers -/

theorem holds_word (data : List UInt8) (p : Nat) (inside : p + 2 ≤ data.length) :
    Holds data p (be16 (word16 (data.drop p))) := by
  rw [Holds, List.drop_eq_getElem_cons (show p < data.length by omega),
    List.drop_eq_getElem_cons (show p + 1 < data.length by omega)]
  change be16 (word16 [data[p], data[p + 1]]) <+: _
  rw [be16_word16]
  exact ⟨_, rfl⟩

theorem skipFill_cases (frame : List UInt8) (fuel p : Nat) (inside : p ≤ frame.length)
    (enough : frame.length - p < fuel) :
    ∃ fill, skipFill frame fuel p = .ok (p + fill) ∧ p + fill ≤ frame.length ∧
      Holds frame p (List.replicate fill 0xFF) ∧ frame[p + fill]? ≠ some 0xFF := by
  induction fuel generalizing p with
  | zero => omega
  | succ fuel ih =>
      rw [skipFill]
      by_cases more : p < frame.length
      · rw [if_pos more, byteAt_ok frame p more, ok_bind]
        by_cases filling : frame[p] = 0xFF
        · obtain ⟨fill, skipped, inside, holds, other⟩ := ih (p + 1) more (by omega)
          rw [Nat.add_assoc, Nat.add_comm 1 fill] at skipped inside other
          rw [if_pos filling]
          refine ⟨fill + 1, skipped, inside, ?_, other⟩
          rw [List.replicate_succ, holds_cons, List.getElem?_eq_getElem more, filling]
          exact ⟨rfl, holds⟩
        · rw [if_neg filling]
          refine ⟨0, rfl, inside, holds_nil frame p, ?_⟩
          rw [Nat.add_zero, List.getElem?_eq_getElem more]
          exact fun same => filling (Option.some.inj same)
      · rw [if_neg more]
        refine ⟨0, rfl, inside, holds_nil frame p, ?_⟩
        rw [Nat.add_zero, List.getElem?_eq_none (Nat.le_of_not_lt more)]
        exact nofun

theorem readMarker_cases (frame : List UInt8) (p : Nat) (inside : p < frame.length) :
    readMarker frame p = .ok none ∨ ∃ fill marker,
      readMarker frame p = .ok (some (marker, p + (fill + 2))) ∧
      p + (fill + 2) ≤ frame.length ∧ marker ≠ 0xFF ∧
      Holds frame p (List.replicate (fill + 1) 0xFF ++ [marker]) := by
  rw [readMarker, byteAt_ok frame p inside, ok_bind]
  by_cases starts : frame[p] = 0xFF
  · rw [if_neg (not_not_intro starts)]
    obtain ⟨fill, skipped, bound, holds, other⟩ :=
      skipFill_cases frame (frame.length + 1) (p + 1) inside (by omega)
    rw [skipped, ok_bind]
    by_cases ends : frame.length ≤ p + 1 + fill
    · left
      rw [if_pos ends]
      rfl
    · right
      have more : p + 1 + fill < frame.length := Nat.lt_of_not_le ends
      rw [List.getElem?_eq_getElem more] at other
      rw [if_neg ends, byteAt_ok _ _ more, ok_bind]
      refine ⟨fill, frame[p + 1 + fill], ?_, by omega, fun same => other (congrArg _ same), ?_⟩
      · rw [show p + (fill + 2) = p + 1 + fill + 1 by omega]
        rfl
      · rw [List.replicate_succ, List.cons_append, holds_cons, holds_append, holds_singleton,
          List.length_replicate, List.getElem?_eq_getElem inside, starts,
          List.getElem?_eq_getElem more]
        exact ⟨rfl, holds, rfl⟩
  · left
    rw [if_pos starts]
    rfl

theorem readSegment_cases (frame : List UInt8) (p : Nat) (inside : p ≤ frame.length) :
    readSegment frame p = .ok none ∨ ∃ data,
      readSegment frame p = .ok (some (data, p + (data.length + 2))) ∧
      p + (data.length + 2) ≤ frame.length ∧ data.length + 2 < 2 ^ 16 ∧
      Holds frame p (be16 (UInt16.ofNat (data.length + 2)) ++ data) := by
  rw [readSegment]
  by_cases short : frame.length - p < 2
  · left
    rw [if_pos short]
    rfl
  rw [if_neg short, readWord_ok frame p (by omega), ok_bind]
  have word := holds_word frame p (by omega)
  have bound := (word16 (frame.drop p)).toNat_lt
  have same : UInt16.ofNat (word16 (frame.drop p)).toNat = word16 (frame.drop p) :=
    UInt16.ofNat_toNat
  generalize word16 (frame.drop p) = segLen at word bound same
  by_cases outside : segLen < 2 ∨ frame.length < p + segLen.toNat
  · left
    rw [if_pos outside]
    rfl
  · right
    have least : 2 ≤ segLen.toNat := by
      have most := fun below => outside (Or.inl below)
      rw [UInt16.lt_iff_toNat_lt] at most
      exact Nat.le_of_not_lt most
    have most : p + segLen.toNat ≤ frame.length :=
      Nat.le_of_not_lt fun above => outside (Or.inr above)
    have length : ((frame.drop (p + 2)).take (segLen.toNat - 2)).length + 2 = segLen.toNat := by
      rw [List.length_take, List.length_drop]
      omega
    rw [if_neg outside, readBytes_ok _ _ _ (by omega), ok_bind]
    refine ⟨(frame.drop (p + 2)).take (segLen.toNat - 2), ?_⟩
    rw [length, same, holds_append]
    exact ⟨rfl, most, bound, word, holds_read frame (p + 2) _⟩

/-- What a segment that is accepted makes known. -/
inductive SegmentUsed (segment : Segment) (known : Known) : Known → Prop where
  | tables (marker : segment.marker = jpegDqt) (definitions : List TableDefinition)
      (data : segment.data = definitions.flatMap TableDefinition.bytes) (next : JpegFrameInfo)
      (added : TablesAdded definitions known.2 next)
      (others : next = { known.2 with qtData := next.qtData, qtPrecision := next.qtPrecision }) :
      SegmentUsed segment known (known.1, next)
  | sizes (marker : segment.marker = jpegSof0) (header : FrameHeader)
      (data : readFrameHeader segment.data = some header) :
      SegmentUsed segment known (true, known.2.setSizes header)
  | interval (marker : segment.marker = jpegDri) :
      SegmentUsed segment known
        (known.1, { known.2 with restartInterval := word16 segment.data })
  | nothing (notTables : segment.marker ≠ jpegDqt) (notSizes : segment.marker ≠ jpegSof0)
      (notInterval : segment.marker ≠ jpegDri) : SegmentUsed segment known known

theorem useSegment_cases (segment : Segment) (known : Known) :
    ∃ result, useSegment segment.marker segment.data known = .ok result ∧
      ∀ next ∈ result, SegmentUsed segment known next := by
  obtain ⟨foundSof, info⟩ := known
  rw [useSegment]
  by_cases isDqt : segment.marker = jpegDqt
  · obtain ⟨tables, parsed, keeps⟩ := parseDqt_cases segment.data info
    rw [if_pos isDqt, parsed, ok_bind]
    refine ⟨_, rfl, fun next member => ?_⟩
    obtain ⟨inner, same, rfl⟩ := Option.map_eq_some_iff.mp member
    obtain ⟨definitions, data, added, others⟩ := keeps inner same
    exact .tables isDqt definitions data inner added others
  rw [if_neg isDqt]
  by_cases isSof : segment.marker = jpegSof0
  · obtain ⟨sizes, parsed, keeps⟩ := parseSof0_cases segment.data info
    rw [if_pos isSof, parsed, ok_bind]
    refine ⟨_, rfl, fun next member => ?_⟩
    obtain ⟨inner, same, rfl⟩ := Option.map_eq_some_iff.mp member
    obtain ⟨header, data, rfl⟩ := keeps inner same
    exact .sizes isSof header data
  rw [if_neg isSof]
  by_cases isDri : segment.marker = jpegDri
  · rw [if_pos isDri]
    by_cases short : segment.data.length < 2
    · exact ⟨none, by rw [if_pos short]; rfl, nofun⟩
    · rw [if_neg short, readWord_ok _ _ (by omega)]
      refine ⟨_, rfl, fun next same => ?_⟩
      obtain rfl := Option.some.inj same
      exact .interval isDri
  · rw [if_neg isDri]
    refine ⟨_, rfl, fun next same => ?_⟩
    obtain rfl := Option.some.inj same
    exact .nothing isDqt isSof isDri

theorem SegmentUsed.of_used {segment : Segment} {known next : Known}
    (used : useSegment segment.marker segment.data known = .ok (some next)) :
    SegmentUsed segment known next := by
  obtain ⟨result, ran, cases⟩ := useSegment_cases segment known
  rw [used] at ran
  exact cases next (Except.ok.inj ran).symm

theorem useSegment_standalone (marker : UInt8) (bare : standalone marker = true) (known : Known) :
    useSegment marker [] known = .ok (some known) := by
  have other (code : UInt8) (sized : standalone code = false) : marker ≠ code := by
    rintro rfl
    rw [bare] at sized
    contradiction
  rw [useSegment]
  simp only [other jpegDqt rfl, other jpegSof0 rfl, other jpegDri rfl, if_false, pure_eq_ok]

theorem holds_segment (frame : List UInt8) (p fill : Nat) (marker : UInt8) (data : List UInt8)
    (sized : standalone marker = false)
    (front : Holds frame p (List.replicate (fill + 1) 0xFF ++ [marker]))
    (back : Holds frame (p + (fill + 2)) (be16 (UInt16.ofNat (data.length + 2)) ++ data)) :
    Holds frame p (Segment.mk fill marker data).bytes := by
  rw [Segment.bytes, sized]
  dsimp only [Bool.false_eq_true, if_false]
  rw [← List.singleton_append, ← List.append_assoc, holds_append]
  refine ⟨front, ?_⟩
  rw [List.length_append, List.length_replicate]
  exact back

theorem holds_standalone (frame : List UInt8) (p fill : Nat) (marker : UInt8)
    (bare : standalone marker = true)
    (front : Holds frame p (List.replicate (fill + 1) 0xFF ++ [marker])) :
    Holds frame p (Segment.mk fill marker []).bytes := by
  rw [Segment.bytes, bare]
  exact front

theorem useSos_cases (frame : List UInt8) (scanStart : Nat) (info : JpegFrameInfo)
    (long : 4 ≤ frame.length) :
    useSos frame scanStart info = .ok none ∨
      scanStart + 2 ≤ frame.length ∧ Holds frame (frame.length - 2) [0xFF, jpegEoi] ∧
        useSos frame scanStart info =
          .ok (some (info.setScan scanStart (frame.length - 2 - scanStart))) := by
  rw [useSos, byteAt_ok _ _ (show frame.length - 2 < frame.length by omega), ok_bind,
    byteAt_ok _ _ (show frame.length - 1 < frame.length by omega), ok_bind]
  by_cases outside : frame.length - 1 ≤ scanStart
  · left
    rw [if_pos outside]
    rfl
  rw [if_neg outside]
  by_cases code : frame[frame.length - 2] = 0xFF
  · by_cases eoi : frame[frame.length - 1] = jpegEoi
    · right
      rw [if_neg (not_not_intro code), if_neg (not_not_intro eoi)]
      refine ⟨by omega, ?_, rfl⟩
      rw [holds_cons, holds_singleton, show frame.length - 2 + 1 = frame.length - 1 by omega,
        List.getElem?_eq_getElem (by omega), List.getElem?_eq_getElem (by omega), code, eoi]
      exact ⟨rfl, rfl⟩
    · left
      rw [if_neg (not_not_intro code), if_pos eoi]
      rfl
  · left
    rw [if_pos code]
    rfl

/-! ## The loop over the segments -/

/-- How the loop can end: an error, no SOS segment, or the first SOS segment behind
segments that have told what is known. -/
inductive LoopEnd (frame : List UInt8) (p : Nat) (known : Known) :
    Option (Known × Bool) → Prop where
  | failed : LoopEnd frame p known none
  | ended (final : Known) : LoopEnd frame p known (some (final, false))
  | found (segments : List Segment) (sos : Segment) (final : Known) (scanStart : Nat)
      (wellFormed : ∀ segment ∈ segments, segment.WellFormed ∧ segment.marker ≠ jpegSos)
      (sosWellFormed : sos.WellFormed) (sosMarker : sos.marker = jpegSos)
      (uses : Uses segments known final)
      (holds : Holds frame p (segments.flatMap Segment.bytes ++ sos.bytes))
      (ends : scanStart = p + (segments.flatMap Segment.bytes ++ sos.bytes).length)
      (room : scanStart + 2 ≤ frame.length)
      (eoi : Holds frame (frame.length - 2) [0xFF, jpegEoi]) :
      LoopEnd frame p known
        (some ((final.1, final.2.setScan scanStart (frame.length - 2 - scanStart)), true))

theorem LoopEnd.cons {frame : List UInt8} {p : Nat} {known next : Known} {segment : Segment}
    {result : Option (Known × Bool)} (wellFormed : segment.WellFormed)
    (other : segment.marker ≠ jpegSos)
    (used : useSegment segment.marker segment.data known = .ok (some next))
    (holds : Holds frame p segment.bytes)
    (rest : LoopEnd frame (p + segment.bytes.length) next result) :
    LoopEnd frame p known result := by
  cases rest with
  | failed => exact .failed
  | ended final => exact .ended final
  | found segments sos final scanStart wellFormeds sosWellFormed sosMarker uses holdsRest ends room
      eoi =>
      refine .found (segment :: segments) sos final scanStart
        (List.forall_mem_cons.mpr ⟨⟨wellFormed, other⟩, wellFormeds⟩) sosWellFormed sosMarker
        (.cons segment segments known next final used uses) ?_ ?_ room eoi
      · rw [List.flatMap_cons, List.append_assoc, holds_append]
        exact ⟨holds, holdsRest⟩
      · rw [List.flatMap_cons, List.append_assoc, List.length_append, ends, Nat.add_assoc]

theorem length_bytes (segment : Segment) (sized : standalone segment.marker = false) :
    segment.bytes.length = segment.fill + 2 + (segment.data.length + 2) := by
  rw [Segment.bytes, sized]
  simp only [Bool.false_eq_true, if_false, List.length_append, List.length_replicate,
    List.length_cons]
  rw [show (be16 (UInt16.ofNat (segment.data.length + 2))).length = 2 from rfl]
  omega

/-- Every turn moves on by at least two bytes, so the loop ends. -/
theorem segmentLoop_cases (frame : List UInt8) (long : 4 ≤ frame.length) (fuel p : Nat)
    (inside : p ≤ frame.length) (enough : frame.length - p < fuel) (known : Known) :
    ∃ result, segmentLoop frame fuel p known = .ok result ∧ LoopEnd frame p known result := by
  induction fuel generalizing p known with
  | zero => omega
  | succ fuel ih =>
      rw [segmentLoop]
      by_cases more : p < frame.length - 1
      swap
      · exact ⟨_, if_neg more, .ended known⟩
      rw [if_pos more]
      rcases readMarker_cases frame p (by omega) with
        none | ⟨fill, marker, read, bound, code, front⟩
      · rw [none, ok_bind]
        exact ⟨_, rfl, .failed⟩
      rw [read, ok_bind]
      dsimp only
      by_cases bare : standalone marker = true
      · obtain ⟨result, ran, ending⟩ := ih (p + (fill + 2)) bound (by omega) known
        have length : (Segment.mk fill marker []).bytes.length = fill + 2 := by
          rw [Segment.bytes, bare]
          simp
        have sos : marker ≠ jpegSos := by
          rintro rfl
          contradiction
        rw [if_pos bare]
        have wellFormed : (Segment.mk fill marker []).WellFormed :=
          ⟨code, fun _ => rfl, (by decide : 2 < 2 ^ 16)⟩
        refine ⟨result, ran, LoopEnd.cons wellFormed sos (useSegment_standalone marker bare known)
          (holds_standalone frame p fill marker bare front) ?_⟩
        rwa [length]
      have sized : standalone marker = false := Bool.eq_false_iff.mpr bare
      rw [if_neg bare]
      rcases readSegment_cases frame (p + (fill + 2)) bound with
        none | ⟨segData, read, bound, short, back⟩
      · rw [none, ok_bind]
        exact ⟨_, rfl, .failed⟩
      rw [read, ok_bind]
      dsimp only
      have wellFormed : (Segment.mk fill marker segData).WellFormed :=
        ⟨code, fun same => absurd same bare, short⟩
      have holds := holds_segment frame p fill marker segData sized front back
      have length := length_bytes (Segment.mk fill marker segData) sized
      rw [Nat.add_assoc] at read bound
      rw [Nat.add_assoc, ← length]
      by_cases sos : marker = jpegSos
      · rw [if_pos sos]
        rcases useSos_cases frame (p + (Segment.mk fill marker segData).bytes.length) known.2 long
          with none | ⟨room, eoi, used⟩
        · rw [none, ok_bind]
          exact ⟨_, rfl, .failed⟩
        · rw [used, ok_bind]
          exact ⟨_, rfl, .found [] _ known _ (fun _ member => absurd member List.not_mem_nil)
            wellFormed sos (.nil known) holds rfl room eoi⟩
      · rw [if_neg sos]
        obtain ⟨outcome, used, _⟩ := useSegment_cases ⟨fill, marker, segData⟩ known
        rw [used, ok_bind]
        cases outcome with
        | none => exact ⟨_, rfl, .failed⟩
        | some next =>
            dsimp only at length
            obtain ⟨result, ran, ending⟩ := ih (p + (Segment.mk fill marker segData).bytes.length)
              (by omega) (by omega) next
            exact ⟨result, ran, ending.cons wellFormed sos used holds⟩

/-! ## What the segments have told -/

def Segment.restartInterval (interval : UInt16) (segment : Segment) : UInt16 :=
  if segment.marker = jpegDri then word16 segment.data else interval

def lastRestartInterval (segments : List Segment) : UInt16 :=
  segments.foldl Segment.restartInterval 0

def Segment.frameHeader (header : Option FrameHeader) (segment : Segment) : Option FrameHeader :=
  if segment.marker = jpegSof0 then readFrameHeader segment.data else header

def lastFrameHeader (segments : List Segment) : Option FrameHeader :=
  segments.foldl Segment.frameHeader none

def tableData (segments : List Segment) : List UInt8 :=
  (segments.filter fun segment => segment.marker = jpegDqt).flatMap Segment.data

theorem tableData_append (segments others : List Segment) :
    tableData (segments ++ others) = tableData segments ++ tableData others := by
  simp [tableData]

/-- What is known is what the frame header says. -/
structure HeaderKnown (header : Option FrameHeader) (known : Known) : Prop where
  found : known.1 = header.isSome
  sizes : ∀ sof ∈ header, known.2.type = sof.type ∧ known.2.width8 = eighths sof.width ∧
    known.2.height8 = eighths sof.height

namespace SegmentUsed

variable {segment : Segment} {known next : Known}

theorem restartInterval (used : SegmentUsed segment known next) :
    next.2.restartInterval = segment.restartInterval known.2.restartInterval := by
  rw [Segment.restartInterval]
  cases used with
  | tables marker definitions data next added others =>
      rw [if_neg (marker ▸ by decide), others]
  | sizes marker header data =>
      rw [if_neg (marker ▸ by decide)]
      rfl
  | interval marker => rw [if_pos marker]
  | nothing notTables notSizes notInterval => rw [if_neg notInterval]

theorem headerKnown (used : SegmentUsed segment known next) (header : Option FrameHeader)
    (before : HeaderKnown header known) : HeaderKnown (segment.frameHeader header) next := by
  rw [Segment.frameHeader]
  cases used with
  | tables marker definitions data next added others =>
      rw [if_neg (marker ▸ by decide)]
      refine ⟨before.found, fun sof member => ?_⟩
      rw [others]
      exact before.sizes sof member
  | sizes marker sof data =>
      rw [if_pos marker, data]
      refine ⟨rfl, fun other same => ?_⟩
      obtain rfl := Option.some.inj same
      exact ⟨rfl, rfl, rfl⟩
  | interval marker =>
      rw [if_neg (marker ▸ by decide)]
      exact ⟨before.found, before.sizes⟩
  | nothing notTables notSizes notInterval => rwa [if_neg notSizes]

theorem tablesAdded (used : SegmentUsed segment known next) :
    ∃ definitions, tableData [segment] = definitions.flatMap TableDefinition.bytes ∧
      TablesAdded definitions known.2 next.2 := by
  cases used with
  | tables marker definitions data next added others =>
      exact ⟨definitions, by simp [tableData, marker, data], added⟩
  | sizes marker header data =>
      exact ⟨[], by simp [tableData, marker, jpegSof0, jpegDqt], .none rfl rfl⟩
  | interval marker =>
      exact ⟨[], by simp [tableData, marker, jpegDri, jpegDqt], .none rfl rfl⟩
  | nothing notTables notSizes notInterval =>
      exact ⟨[], by simp [tableData, notTables], .none rfl rfl⟩

end SegmentUsed

namespace Uses

variable {segments : List Segment} {known final : Known}

theorem restartInterval (uses : Uses segments known final) :
    final.2.restartInterval =
      segments.foldl Segment.restartInterval known.2.restartInterval := by
  induction uses with
  | nil known => rfl
  | cons segment rest known next final used others ih =>
      rw [ih, (SegmentUsed.of_used used).restartInterval, List.foldl_cons]

theorem headerKnown (uses : Uses segments known final) (header : Option FrameHeader)
    (before : HeaderKnown header known) :
    HeaderKnown (segments.foldl Segment.frameHeader header) final := by
  induction uses generalizing header with
  | nil known => exact before
  | cons segment rest known next final used others ih =>
      exact ih _ ((SegmentUsed.of_used used).headerKnown header before)

theorem tablesAdded (uses : Uses segments known final) :
    ∃ definitions, tableData segments = definitions.flatMap TableDefinition.bytes ∧
      TablesAdded definitions known.2 final.2 := by
  induction uses with
  | nil known => exact ⟨[], rfl, .none rfl rfl⟩
  | cons segment rest known next final used others ih =>
      obtain ⟨first, front, added⟩ := (SegmentUsed.of_used used).tablesAdded
      obtain ⟨second, back, more⟩ := ih
      refine ⟨first ++ second, ?_, added.append more⟩
      rw [← List.singleton_append, tableData_append, front, back, List.flatMap_append]

theorem type_lt (uses : Uses segments (false, .zero) final) (found : final.1 = true) :
    final.2.type < 2 := by
  have known := uses.headerKnown none ⟨rfl, nofun⟩
  rw [known.found, Option.isSome_iff_exists] at found
  obtain ⟨sof, same⟩ := found
  rw [(known.sizes sof same).1]
  exact sof.type_lt

end Uses

/-- The end of the parser: the scan behind SOS, and a type that tells of restart markers. -/
def JpegFrameInfo.finish (self : JpegFrameInfo) (scanOffset scanLen : Nat) : JpegFrameInfo :=
  { self with
    type := if 0 < self.restartInterval then self.type + 64 else self.type
    scanOffset := scanOffset
    scanLen := scanLen }

theorem JpegFrameInfo.finish_type (self : JpegFrameInfo) (scanOffset scanLen : Nat) :
    (self.finish scanOffset scanLen).type =
      if self.restartInterval = 0 then self.type else self.type + 64 := by
  rw [finish]
  by_cases none : self.restartInterval = 0
  · rw [if_pos none, if_neg (by simp [none])]
  · rw [if_neg none, if_pos (UInt16.pos_iff_ne_zero.mpr none)]

theorem layout_of_holds (frame : List UInt8) (segments : List Segment) (sos : Segment)
    (scanStart : Nat) (long : 4 ≤ frame.length)
    (wellFormed : ∀ segment ∈ segments, segment.WellFormed ∧ segment.marker ≠ jpegSos)
    (sosWellFormed : sos.WellFormed) (sosMarker : sos.marker = jpegSos)
    (soi : Holds frame 0 [0xFF, jpegSoi])
    (holds : Holds frame 2 (segments.flatMap Segment.bytes ++ sos.bytes))
    (ends : scanStart = 2 + (segments.flatMap Segment.bytes ++ sos.bytes).length)
    (room : scanStart + 2 ≤ frame.length) (eoi : Holds frame (frame.length - 2) [0xFF, jpegEoi]) :
    Layout frame segments sos ((frame.drop scanStart).take (frame.length - 2 - scanStart)) := by
  refine ⟨?_, wellFormed, sosWellFormed, sosMarker⟩
  have length : ((frame.drop scanStart).take (frame.length - 2 - scanStart)).length =
      frame.length - 2 - scanStart := by
    rw [List.length_take, List.length_drop]
    omega
  have front := Holds.append soi holds rfl
  have behind : 0 + ([0xFF, jpegSoi] ++ (segments.flatMap Segment.bytes ++ sos.bytes)).length =
      scanStart := by
    rw [List.length_append, ends, Nat.zero_add]
    rfl
  have middle := front.append (holds_read frame scanStart (frame.length - 2 - scanStart)) behind
  have whole := middle.append eoi (by
    rw [List.length_append, ← Nat.add_assoc, behind, length]
    omega)
  refine whole.eq_drop ?_
  rw [List.length_append, List.length_append, ← Nat.add_assoc, ← Nat.add_assoc, behind, length]
  simp only [List.length_cons, List.length_nil]
  omega

/-- The parser always returns, and what it accepts is laid out in segments. -/
theorem parseJpegFrame_cases (frame : List UInt8) :
    parseJpegFrame frame = .ok none ∨ ∃ segments sos scan final scanStart,
      Layout frame segments sos scan ∧ Uses segments (false, .zero) final ∧
      final.1 = true ∧ final.2.qtLen ≠ 0 ∧
      scan = (frame.drop scanStart).take scan.length ∧
      scanStart + scan.length + 2 = frame.length ∧
      parseJpegFrame frame = .ok (some (final.2.finish scanStart scan.length)) := by
  rw [parseJpegFrame]
  by_cases short : frame.length < 4
  · left
    rw [if_pos short]
    rfl
  have long : 4 ≤ frame.length := Nat.le_of_not_lt short
  rw [if_neg short, byteAt_ok _ _ (show 0 < frame.length by omega), ok_bind,
    byteAt_ok _ _ (show 1 < frame.length by omega), ok_bind]
  by_cases code : frame[0] = 0xFF
  swap
  · left
    rw [if_pos code]
    rfl
  by_cases start : frame[1] = jpegSoi
  swap
  · left
    rw [if_neg (not_not_intro code), if_pos start]
    rfl
  have soi : Holds frame 0 [0xFF, jpegSoi] := by
    rw [holds_cons, holds_singleton, List.getElem?_eq_getElem (by omega),
      List.getElem?_eq_getElem (by omega), code]
    exact ⟨rfl, congrArg some start⟩
  rw [if_neg (not_not_intro code), if_neg (not_not_intro start)]
  obtain ⟨result, ran, ending⟩ :=
    segmentLoop_cases frame long (frame.length + 1) 2 (by omega) (by omega) (false, .zero)
  rw [ran, ok_bind]
  cases ending with
  | failed => exact Or.inl rfl
  | ended final =>
      left
      dsimp only
      rw [if_pos (Or.inr (Or.inl (by decide)))]
      rfl
  | found segments sos final scanStart wellFormed sosWellFormed sosMarker uses holds ends room
      eoi =>
      dsimp only
      split
      · exact Or.inl rfl
      · rename_i complete
        right
        have sof : final.1 = true := by_contra fun none => complete (Or.inl none)
        have tables : final.2.qtLen ≠ 0 := fun none => complete (Or.inr (Or.inr none))
        have length : ((frame.drop scanStart).take (frame.length - 2 - scanStart)).length =
            frame.length - 2 - scanStart := by
          rw [List.length_take, List.length_drop]
          omega
        have layout := layout_of_holds frame segments sos scanStart long wellFormed sosWellFormed
          sosMarker soi holds ends room eoi
        refine ⟨segments, sos, _, final, scanStart, layout, uses, sof, tables, ?_, ?_, ?_⟩
        · rw [length]
        · rw [length]
          omega
        · rw [length, JpegFrameInfo.finish]
          split
          · rename_i restart
            rw [if_pos (show 0 < final.2.restartInterval from restart)]
            rfl
          · rename_i restart
            rw [if_neg (show ¬ 0 < final.2.restartInterval from restart)]
            rfl

theorem TablesAdded.whole {definitions : List TableDefinition} {info : JpegFrameInfo}
    (added : TablesAdded definitions .zero info) : 64 ∣ info.qtLen := by
  have length : info.qtLen = (definitions.flatMap TableDefinition.table).length :=
    congrArg List.length added.data
  rw [length]
  clear added length
  induction definitions with
  | nil => exact Nat.dvd_zero 64
  | cons definition rest ih =>
      rw [List.flatMap_cons, List.length_append]
      apply Nat.dvd_add _ ih
      rw [definition.length_table]
      split <;> decide

/-- What an accepted frame is known to be. -/
structure Parsed (frame : List UInt8) (info : JpegFrameInfo) : Prop where
  scan : info.scanOffset + info.scanLen + 2 = frame.length
  eoi : frame.drop (frame.length - 2) = [0xFF, jpegEoi]
  tables : 0 < info.qtLen ∧ info.qtLen ≤ 512
  wholeTables : 64 ∣ info.qtLen
  type : ∃ base, (base = 0 ∨ base = 1) ∧
    info.type = if info.restartInterval = 0 then base else base + 64

/-- The parser returns for every frame, with no access outside the frame and the table
buffer. -/
theorem parsed_sound (frame : List UInt8) :
    ∃ result, parseJpegFrame frame = .ok result ∧ ∀ info ∈ result, Parsed frame info := by
  rcases parseJpegFrame_cases frame with
    rejected | ⟨segments, sos, scan, final, scanStart, layout, uses, found, tables, _, ends, parsed⟩
  · exact ⟨none, rejected, nofun⟩
  refine ⟨_, parsed, fun info same => ?_⟩
  obtain rfl := Option.some.inj same
  refine ⟨ends, ?_, ⟨Nat.pos_of_ne_zero tables, final.2.qtData.property⟩, ?_, ?_⟩
  · rw [layout.bytes, List.length_append]
    exact List.drop_left' rfl
  · obtain ⟨definitions, _, added⟩ := uses.tablesAdded
    exact added.whole
  · refine ⟨final.2.type, ?_, final.2.finish_type scanStart scan.length⟩
    have small := uses.type_lt found
    simp only [UInt8.lt_iff_toNat_lt, ← UInt8.toNat_inj] at small ⊢
    have below : final.2.type.toNat < 2 := small
    change final.2.type.toNat = 0 ∨ final.2.type.toNat = 1
    omega

end Compy.Jpeg
