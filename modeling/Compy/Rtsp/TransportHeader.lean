import Compy.Rtsp.Grammar

/-!
# The Transport header

`compy_parse_transport`: the lower transport and the parameters behind it, each up to the
next semicolon.  A parameter is known by how it begins, and of several of one kind the last
one is kept.
-/

set_option autoImplicit false

namespace Compy.Rtsp

inductive LowerTransport where
  | TCP
  | UDP
  deriving DecidableEq, Repr

structure ChannelPair where
  rtpChannel : UInt8
  rtcpChannel : UInt8
  deriving DecidableEq, Repr

structure PortPair where
  rtpPort : UInt16
  rtcpPort : UInt16
  deriving DecidableEq, Repr

structure TransportConfig where
  lower : LowerTransport
  unicast : Bool
  multicast : Bool
  interleaved : Option ChannelPair
  clientPort : Option PortPair
  serverPort : Option PortPair
  deriving DecidableEq, Repr

def startsWith (str beginning : List UInt8) : Bool := beginning.isPrefixOf str

/-- One unsigned conversion of `sscanf`, and what it leaves of the string. -/
def scanUnsigned (str : List UInt8) : Option (UInt64 × List UInt8) :=
  let text := str.dropWhile isSpace
  let negative := text.head? == some '-'.toUInt8
  let unsigned := if negative || text.head? == some '+'.toUInt8 then text.tail else text
  let digits := unsigned.takeWhile isDigit
  if digits = [] then none
  else some (strtoul negative (digitsValue digits), unsigned.dropWhile isDigit)

/-- `PARSE_RANGE`: at least one byte that is no `=`, then `=`, a number, `-` and a number. -/
def parseRange {α : Type} (convert : UInt64 → α) (param : List UInt8) : Option (α × α) :=
  if param.takeWhile (· != '='.toUInt8) = [] then none
  else
    match param.dropWhile (· != '='.toUInt8) with
    | [] => none
    | _ :: text => do
        let (lhs, text) ← scanUnsigned text
        if text.head? ≠ some '-'.toUInt8 then none
        let (rhs, _) ← scanUnsigned text.tail
        some (convert lhs, convert rhs)

def parseChannelPair (param : List UInt8) : Option ChannelPair :=
  (parseRange UInt64.toUInt8 param).map fun (lhs, rhs) => { rtpChannel := lhs, rtcpChannel := rhs }

def parsePortPair (param : List UInt8) : Option PortPair :=
  (parseRange UInt64.toUInt16 param).map fun (lhs, rhs) => { rtpPort := lhs, rtcpPort := rhs }

def parseTransportParam (result : TransportConfig) (param : List UInt8) : Option TransportConfig :=
  if startsWith param (charSlice "unicast") then some { result with unicast := true }
  else if startsWith param (charSlice "multicast") then some { result with multicast := true }
  else if startsWith param (charSlice "interleaved") then
    (parseChannelPair param).map fun val => { result with interleaved := some val }
  else if startsWith param (charSlice "client_port") then
    (parsePortPair param).map fun val => { result with clientPort := some val }
  else if startsWith param (charSlice "server_port") then
    (parsePortPair param).map fun val => { result with serverPort := some val }
  else some result

def rtpAvp : List UInt8 := charSlice "RTP/AVP"

def parseLowerTransport (headerValue : List UInt8) : Option LowerTransport :=
  if ¬ startsWith headerValue rtpAvp then none
  else if startsWith (headerValue.drop rtpAvp.length) (charSlice "/TCP") then some .TCP
  else some .UDP

/-- What stands behind the first semicolon, cut at the others. -/
def transportParams (input : List UInt8) : List (List UInt8) := (input.splitOn ';'.toUInt8).tail

/-- The configuration and the return value. -/
def compyParseTransport (config : TransportConfig) (headerValue : List UInt8) :
    TransportConfig × Int :=
  let input := cStr headerValue
  let parsed : Option TransportConfig := do
    let lower ← parseLowerTransport input
    (transportParams input).foldlM parseTransportParam
      { lower, unicast := false, multicast := false, interleaved := none, clientPort := none,
        serverPort := none }
  match parsed with
  | some result => (result, 0)
  | none => (config, -1)

example : compyParseTransport ⟨.UDP, false, false, none, none, none⟩
    (charSlice "RTP/AVP/UDP;unicast;client_port=3056-3057;interleaved=4-5;") =
      (⟨.UDP, true, false, some ⟨4, 5⟩, some ⟨3056, 3057⟩, none⟩, 0) := by decide +kernel

/-! ## The parameters with numbers -/

inductive RangeField where
  | interleaved
  | clientPort
  | serverPort
  deriving DecidableEq, Repr

namespace RangeField

def width : RangeField → Nat
  | .interleaved => 8
  | .clientPort | .serverPort => 16

def parse (param : List UInt8) : RangeField → Option (Nat × Nat)
  | .interleaved => (parseChannelPair param).map fun val =>
      (val.rtpChannel.toNat, val.rtcpChannel.toNat)
  | .clientPort | .serverPort => (parsePortPair param).map fun val =>
      (val.rtpPort.toNat, val.rtcpPort.toNat)

end RangeField

def TransportConfig.numbers (self : TransportConfig) : RangeField → Option (Nat × Nat)
  | .interleaved => self.interleaved.map fun val => (val.rtpChannel.toNat, val.rtcpChannel.toNat)
  | .clientPort => self.clientPort.map fun val => (val.rtpPort.toNat, val.rtcpPort.toNat)
  | .serverPort => self.serverPort.map fun val => (val.rtpPort.toNat, val.rtcpPort.toNat)

def rangeField (param : List UInt8) : Option RangeField :=
  if startsWith param (charSlice "unicast") then none
  else if startsWith param (charSlice "multicast") then none
  else if startsWith param (charSlice "interleaved") then some .interleaved
  else if startsWith param (charSlice "client_port") then some .clientPort
  else if startsWith param (charSlice "server_port") then some .serverPort
  else none

def TransportConfig.flagged (self : TransportConfig) (param : List UInt8) : TransportConfig :=
  if startsWith param (charSlice "unicast") then { self with unicast := true }
  else if startsWith param (charSlice "multicast") then { self with multicast := true }
  else self

@[simp] theorem numbers_flagged (self : TransportConfig) (param : List UInt8) (field : RangeField) :
    (self.flagged param).numbers field = self.numbers field := by
  rw [TransportConfig.flagged]
  split_ifs <;> cases field <;> rfl

theorem parseTransportParam_eq (result : TransportConfig) (param : List UInt8) :
    parseTransportParam result param = match rangeField param with
      | none => some (result.flagged param)
      | some .interleaved =>
          (parseChannelPair param).map fun val => { result with interleaved := some val }
      | some .clientPort =>
          (parsePortPair param).map fun val => { result with clientPort := some val }
      | some .serverPort =>
          (parsePortPair param).map fun val => { result with serverPort := some val } := by
  rw [parseTransportParam, rangeField, TransportConfig.flagged]
  split_ifs <;> rfl

theorem parseTransportParam_numbers {result next : TransportConfig} {param : List UInt8}
    (parsed : parseTransportParam result param = some next) (field : RangeField) :
    next.numbers field =
      if rangeField param = some field then field.parse param else result.numbers field := by
  rw [parseTransportParam_eq] at parsed
  cases known : rangeField param with
  | none =>
      rw [known] at parsed
      cases parsed
      simp
  | some kind =>
      rw [known] at parsed
      cases kind <;> obtain ⟨val, pair, rfl⟩ := Option.map_eq_some_iff.mp parsed <;>
        cases field <;> simp [TransportConfig.numbers, RangeField.parse, pair]

theorem parseTransportParam_isSome {result : TransportConfig} {param : List UInt8}
    (ranges : ∀ field, rangeField param = some field → (field.parse param).isSome = true) :
    (parseTransportParam result param).isSome = true := by
  rw [parseTransportParam_eq]
  cases known : rangeField param with
  | none => rfl
  | some kind =>
      have range := ranges kind known
      cases kind <;> simpa [RangeField.parse] using range

def lastParam (field : RangeField) (params : List (List UInt8)) : Option (List UInt8) :=
  (params.filter fun param => rangeField param == some field).getLast?

theorem lastParam_append (field : RangeField) (params : List (List UInt8)) (param : List UInt8) :
    lastParam field (params ++ [param]) =
      if rangeField param = some field then some param else lastParam field params := by
  rw [lastParam, List.filter_append, List.filter_singleton]
  split_ifs with same
  · simp [same]
  · have other : (rangeField param == some field) = false := beq_eq_false_iff_ne.mpr same
    simp [other, lastParam]

theorem lastParam_mem {field : RangeField} {params : List (List UInt8)} {param : List UInt8}
    (last : lastParam field params = some param) :
    param ∈ params ∧ rangeField param = some field := by
  simpa using List.mem_filter.mp (List.mem_of_getLast? last)

/-- The last parameter of a kind is what its field is set from. -/
theorem params_numbers {params : List (List UInt8)} {start config : TransportConfig}
    (parsed : params.foldlM parseTransportParam start = some config) (field : RangeField) :
    config.numbers field =
      ((lastParam field params).map field.parse).getD (start.numbers field) := by
  induction params using List.reverseRecOn generalizing config with
  | nil =>
      cases parsed
      rfl
  | append_singleton params param ih =>
      rw [List.foldlM_append] at parsed
      obtain ⟨middle, early, late⟩ := Option.bind_eq_some_iff.mp parsed
      rw [List.foldlM_cons] at late
      obtain ⟨_, last, same⟩ := Option.bind_eq_some_iff.mp late
      cases same
      rw [parseTransportParam_numbers last, lastParam_append, ih early]
      split_ifs <;> rfl

theorem params_isSome {params : List (List UInt8)} {start : TransportConfig}
    (ranges : ∀ param ∈ params, ∀ field, rangeField param = some field →
      (field.parse param).isSome = true) :
    (params.foldlM parseTransportParam start).isSome = true := by
  induction params generalizing start with
  | nil => rfl
  | cons param params ih =>
      obtain ⟨here, later⟩ := List.forall_mem_cons.mp ranges
      have accepted : (parseTransportParam start param).isSome = true :=
        parseTransportParam_isSome here
      obtain ⟨next, parsed⟩ := Option.isSome_iff_exists.mp accepted
      rw [List.foldlM_cons, parsed]
      exact ih later

/-- What the parameters are read into. -/
def TransportConfig.start (lower : LowerTransport) : TransportConfig where
  lower := lower
  unicast := false
  multicast := false
  interleaved := none
  clientPort := none
  serverPort := none

theorem compyParseTransport_cases (config : TransportConfig) (headerValue : List UInt8) :
    (startsWith (cStr headerValue) rtpAvp = false ∧
        compyParseTransport config headerValue = (config, -1)) ∨
      (startsWith (cStr headerValue) rtpAvp = true ∧ ∃ lower,
        compyParseTransport config headerValue =
          match (transportParams (cStr headerValue)).foldlM parseTransportParam
              (TransportConfig.start lower) with
          | some result => (result, 0)
          | none => (config, -1)) := by
  cases begins : startsWith (cStr headerValue) rtpAvp with
  | false => simp [compyParseTransport, parseLowerTransport, begins]
  | true =>
      right
      have known : ∃ lower, parseLowerTransport (cStr headerValue) = some lower := by
        rw [parseLowerTransport, if_neg (not_not.mpr begins)]
        split
        · exact ⟨.TCP, rfl⟩
        · exact ⟨.UDP, rfl⟩
      obtain ⟨lower, found⟩ := known
      refine ⟨rfl, lower, ?_⟩
      rw [compyParseTransport]
      simp only [found]
      rfl

/-! ## Decimal numbers -/

/-- A name, `=`, and two decimal numbers around a `-`; anything may follow but a digit. -/
def DecimalRange (param lhs rhs : List UInt8) : Prop := ∃ name tail,
  param = name ++ '='.toUInt8 :: (lhs ++ '-'.toUInt8 :: (rhs ++ tail)) ∧ name ≠ [] ∧
    (∀ c ∈ name, c ≠ '='.toUInt8) ∧ Digits lhs ∧ Digits rhs ∧
    ∀ c, tail.head? = some c → isDigit c = false

theorem digits_span {digits rest : List UInt8} (all : Digits digits)
    (stops : ∀ c, rest.head? = some c → isDigit c = false) :
    (digits ++ rest).takeWhile isDigit = digits ∧ (digits ++ rest).dropWhile isDigit = rest :=
  span_stops all.2 stops

theorem dash_stops (text : List UInt8) :
    ∀ c, ('-'.toUInt8 :: text).head? = some c → isDigit c = false := by
  intro c same
  cases same
  rfl

theorem DecimalRange.digits {param lhs rhs : List UInt8} (range : DecimalRange param lhs rhs) :
    let text := (param.dropWhile (· != '='.toUInt8)).tail
    text.takeWhile isDigit = lhs ∧ (text.dropWhile isDigit).tail.takeWhile isDigit = rhs := by
  obtain ⟨name, tail, rfl, _, clean, digits, digits', stops⟩ := range
  have named : ∀ c ∈ name, (c != '='.toUInt8) = true := fun c member =>
    bne_iff_ne.mpr (clean c member)
  have left := digits_span digits (dash_stops (rhs ++ tail))
  rw [List.dropWhile_append_of_pos named, List.dropWhile_cons_of_neg (by simp), List.tail_cons]
  dsimp only
  rw [left.1, left.2, List.tail_cons]
  exact ⟨rfl, (digits_span digits' stops).1⟩

theorem scanUnsigned_digits {digits rest : List UInt8} (all : Digits digits)
    (stops : ∀ c, rest.head? = some c → isDigit c = false) :
    scanUnsigned (digits ++ rest) = some (strtoul false (digitsValue digits), rest) := by
  have taken := digits_span all stops
  obtain ⟨first, more, same⟩ := List.exists_cons_of_ne_nil all.1
  have digit := all.2 first (by simp [same])
  have minus : (first == '-'.toUInt8) = false := beq_eq_false_iff_ne.mpr (matched_ne digit rfl)
  have plus : first ≠ '+'.toUInt8 := matched_ne digit rfl
  have unsigned : (digits ++ rest).dropWhile isSpace = digits ++ rest := by
    rw [same, List.cons_append, List.dropWhile_cons_of_neg]
    simp [digit_not_isSpace digit]
  have head : (digits ++ rest).head? = some first := by rw [same]; rfl
  simp [scanUnsigned, unsigned, head, minus, plus, taken.1, taken.2, all.1]

theorem parseRange_decimal {α : Type} (convert : UInt64 → α) {param lhs rhs : List UInt8}
    (range : DecimalRange param lhs rhs) :
    parseRange convert param = some (convert (strtoul false (digitsValue lhs)),
      convert (strtoul false (digitsValue rhs))) := by
  obtain ⟨name, tail, rfl, present, clean, digits, digits', stops⟩ := range
  have named : ∀ c ∈ name, (c != '='.toUInt8) = true := fun c member =>
    bne_iff_ne.mpr (clean c member)
  have left := scanUnsigned_digits digits (dash_stops (rhs ++ tail))
  have right := scanUnsigned_digits digits' stops
  rw [parseRange, List.takeWhile_append_of_pos named, List.dropWhile_append_of_pos named]
  simp [present, left, right]

end Compy.Rtsp
