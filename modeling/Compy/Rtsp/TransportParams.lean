import Compy.Rtsp.Numbers

/-!
# Lists of transport parameters

The values that a client may send: a profile and parameters in any order, some of them several
times.  What `compy_parse_transport` makes of such a value depends on which flags are among the
parameters and on the last one of every kind with numbers.
-/

set_option autoImplicit false

namespace Compy.Rtsp

/-- A decimal number of so many bits, with any number of zeros in front. -/
structure NumberText (width : Nat) where
  digits : List UInt8
  decimal : Digits digits
  fits : FitsBits width digits

def RangeField.name : RangeField → List UInt8
  | .interleaved => charSlice "interleaved"
  | .clientPort => charSlice "client_port"
  | .serverPort => charSlice "server_port"

/-- How the parameters begin that the parser knows. -/
def paramNames : List (List UInt8) :=
  [charSlice "unicast", charSlice "multicast", charSlice "interleaved", charSlice "client_port",
    charSlice "server_port"]

/-- A parameter of none of these names; it may be empty. -/
structure OtherToken where
  text : List UInt8
  whole : ∀ c ∈ text, c ≠ ';'.toUInt8 ∧ c ≠ 0
  other : ∀ name ∈ paramNames, startsWith text name = false

inductive TransportParam where
  | unicast
  | multicast
  | range (field : RangeField) (lhs rhs : NumberText field.width)
  | other (token : OtherToken)

inductive TransportProfile where
  | avp
  | avpTcp
  | avpUdp

namespace TransportProfile

def text : TransportProfile → List UInt8
  | .avp => charSlice "RTP/AVP"
  | .avpTcp => charSlice "RTP/AVP/TCP"
  | .avpUdp => charSlice "RTP/AVP/UDP"

def lower : TransportProfile → LowerTransport
  | .avpTcp => .TCP
  | .avp | .avpUdp => .UDP

end TransportProfile

/-- Which parameters set the same field. -/
inductive ParamKind where
  | unicast
  | multicast
  | range (field : RangeField)
  | other
  deriving DecidableEq, Repr

namespace TransportParam

def text : TransportParam → List UInt8
  | .unicast => charSlice "unicast"
  | .multicast => charSlice "multicast"
  | .range field lhs rhs => field.name ++ '='.toUInt8 :: (lhs.digits ++ '-'.toUInt8 :: rhs.digits)
  | .other token => token.text

def kind : TransportParam → ParamKind
  | .unicast => .unicast
  | .multicast => .multicast
  | .range field _ _ => .range field
  | .other _ => .other

def numbers (field : RangeField) : TransportParam → Option (Nat × Nat)
  | .range own lhs rhs =>
      if own = field then some (digitsValue lhs.digits, digitsValue rhs.digits) else none
  | _ => none

end TransportParam

/-- The profile and the parameters, each behind a semicolon. -/
def transportText (profile : TransportProfile) (params : List TransportParam) (trailing : Bool) :
    List UInt8 :=
  profile.text ++ params.flatMap (fun param => ';'.toUInt8 :: param.text) ++
    if trailing then [';'.toUInt8] else []

/-- The configuration that the parameters ask for. -/
structure Configures (profile : TransportProfile) (params : List TransportParam)
    (config : TransportConfig) : Prop where
  lower : config.lower = profile.lower
  unicast : config.unicast = true ↔ .unicast ∈ params
  multicast : config.multicast = true ↔ .multicast ∈ params
  numbers : ∀ field, config.numbers field =
    (params.filterMap (TransportParam.numbers field)).getLast?

/-! ## One parameter -/

namespace TransportParam

theorem rangeField_text (param : TransportParam) : rangeField param.text =
    match param.kind with
      | .range field => some field
      | _ => none := by
  cases param with
  | unicast => rfl
  | multicast => rfl
  | range field lhs rhs => cases field <;> rfl
  | other token =>
      have unknown := token.other
      simp only [paramNames, List.forall_mem_cons] at unknown
      simp [text, kind, rangeField, unknown]

theorem text_whole (param : TransportParam) : ∀ c ∈ param.text, c ≠ ';'.toUInt8 ∧ c ≠ 0 := by
  have digit {width : Nat} (number : NumberText width) :
      ∀ c ∈ number.digits, c ≠ ';'.toUInt8 ∧ c ≠ 0 := fun c member =>
    ⟨matched_ne (number.decimal.2 c member) rfl, matched_ne (number.decimal.2 c member) rfl⟩
  cases param with
  | unicast => decide +kernel
  | multicast => decide +kernel
  | range field lhs rhs =>
      have name : ∀ c ∈ field.name, c ≠ ';'.toUInt8 ∧ c ≠ 0 := by cases field <;> decide +kernel
      simp only [text, List.forall_mem_append, List.forall_mem_cons]
      exact ⟨name, by decide, digit lhs, by decide, digit rhs⟩
  | other token => exact token.whole

theorem range_text (field : RangeField) (lhs rhs : NumberText field.width) :
    DecimalRange (range field lhs rhs).text lhs.digits rhs.digits := by
  refine ⟨field.name, [], ?_, ?_, ?_, lhs.decimal, rhs.decimal, by simp⟩
  · rw [List.append_nil]
    rfl
  · cases field <;> exact List.cons_ne_nil _ _
  · cases field <;> decide +kernel

end TransportParam

theorem parseTransportParam_kept {result next : TransportConfig} {param : List UInt8}
    {field : RangeField} (known : rangeField param = some field)
    (parsed : parseTransportParam result param = some next) :
    next.lower = result.lower ∧ next.unicast = result.unicast ∧
      next.multicast = result.multicast := by
  rw [parseTransportParam_eq, known] at parsed
  cases field <;> obtain ⟨_, _, rfl⟩ := Option.map_eq_some_iff.mp parsed <;> exact ⟨rfl, rfl, rfl⟩

theorem lastNumbers_append {field : RangeField} {param : TransportParam}
    (unset : param.numbers field = none) (done : List TransportParam) :
    ((done ++ [param]).filterMap (TransportParam.numbers field)).getLast? =
      (done.filterMap (TransportParam.numbers field)).getLast? := by
  simp [List.filterMap_append, unset]

namespace Configures

variable {profile : TransportProfile} {done : List TransportParam} {result : TransportConfig}

theorem add_unicast (configures : Configures profile done result) :
    Configures profile (done ++ [.unicast]) { result with unicast := true } where
  lower := configures.lower
  unicast := by simp
  multicast := by simp [configures.multicast]
  numbers field := by
    rw [lastNumbers_append rfl, ← configures.numbers]
    cases field <;> rfl

theorem add_multicast (configures : Configures profile done result) :
    Configures profile (done ++ [.multicast]) { result with multicast := true } where
  lower := configures.lower
  unicast := by simp [configures.unicast]
  multicast := by simp
  numbers field := by
    rw [lastNumbers_append rfl, ← configures.numbers]
    cases field <;> rfl

theorem add_other (configures : Configures profile done result) (token : OtherToken) :
    Configures profile (done ++ [.other token]) result where
  lower := configures.lower
  unicast := by simp [configures.unicast]
  multicast := by simp [configures.multicast]
  numbers field := by
    rw [lastNumbers_append rfl, configures.numbers]

theorem add_range (configures : Configures profile done result) {field : RangeField}
    (lhs rhs : NumberText field.width) : ∃ next,
      parseTransportParam result (TransportParam.range field lhs rhs).text = some next ∧
        Configures profile (done ++ [.range field lhs rhs]) next := by
  have known : rangeField (TransportParam.range field lhs rhs).text = some field :=
    TransportParam.rangeField_text (.range field lhs rhs)
  obtain ⟨numbers, found, exact_⟩ := range_decimal field (TransportParam.range_text field lhs rhs)
  have accepted : (parseTransportParam result (TransportParam.range field lhs rhs).text).isSome =
      true := by
    apply parseTransportParam_isSome
    intro own same
    cases Option.some.inj (known.symm.trans same)
    rw [found]
    rfl
  obtain ⟨next, parsed⟩ := Option.isSome_iff_exists.mp accepted
  obtain ⟨lower, unicast, multicast⟩ := parseTransportParam_kept known parsed
  refine ⟨next, parsed, lower.trans configures.lower, ?_, ?_, ?_⟩
  · simp [unicast, configures.unicast]
  · simp [multicast, configures.multicast]
  · intro other
    rw [parseTransportParam_numbers parsed other, known]
    by_cases same : field = other
    · cases same
      rw [if_pos rfl, found, exact_ lhs.fits rhs.fits]
      simp [TransportParam.numbers]
    · have unset : (TransportParam.range field lhs rhs).numbers other = none := if_neg same
      rw [if_neg fun equal => same (Option.some.inj equal), lastNumbers_append unset,
        configures.numbers]

theorem step (configures : Configures profile done result) (param : TransportParam) :
    ∃ next, parseTransportParam result param.text = some next ∧
      Configures profile (done ++ [param]) next := by
  cases param with
  | unicast => exact ⟨_, rfl, configures.add_unicast⟩
  | multicast => exact ⟨_, rfl, configures.add_multicast⟩
  | range field lhs rhs => exact configures.add_range lhs rhs
  | other token =>
      have unknown := token.other
      simp only [paramNames, List.forall_mem_cons] at unknown
      refine ⟨result, ?_, configures.add_other token⟩
      simp [TransportParam.text, parseTransportParam, unknown]

theorem run (params : List TransportParam) (configures : Configures profile done result) :
    ∃ final, (params.map TransportParam.text).foldlM parseTransportParam result = some final ∧
      Configures profile (done ++ params) final := by
  induction params generalizing done result with
  | nil => exact ⟨result, rfl, by rwa [List.append_nil]⟩
  | cons param params ih =>
      obtain ⟨next, parsed, more⟩ := configures.step param
      obtain ⟨final, rest, all⟩ := ih more
      refine ⟨final, ?_, ?_⟩
      · rw [List.map_cons, List.foldlM_cons, parsed]
        exact rest
      · rwa [List.append_assoc] at all

theorem start (profile : TransportProfile) :
    Configures profile [] (TransportConfig.start profile.lower) where
  lower := rfl
  unicast := by simp [TransportConfig.start]
  multicast := by simp [TransportConfig.start]
  numbers field := by cases field <;> rfl

end Configures

/-! ## The whole value -/

theorem profile_whole (profile : TransportProfile) :
    ∀ c ∈ profile.text, c ≠ ';'.toUInt8 ∧ c ≠ 0 := by
  cases profile <;> decide +kernel

theorem intercalate_cons (first : List UInt8) (pieces : List (List UInt8)) (separator : UInt8) :
    [separator].intercalate (first :: pieces) =
      first ++ pieces.flatMap (fun piece => separator :: piece) := by
  induction pieces generalizing first with
  | nil => simp
  | cons piece pieces ih =>
      rw [List.intercalate_cons_cons, ih]
      simp

/-- A semicolon at the end is one in front of an empty piece. -/
theorem transportText_pieces (profile : TransportProfile) (params : List TransportParam)
    (trailing : Bool) : transportText profile params trailing =
      [';'.toUInt8].intercalate (profile.text :: (params.map TransportParam.text ++
        if trailing then [[]] else [])) := by
  rw [intercalate_cons, transportText, List.flatMap_append, List.flatMap_map]
  cases trailing <;> simp

theorem transportParams_text (profile : TransportProfile) (params : List TransportParam)
    (trailing : Bool) : transportParams (transportText profile params trailing) =
      params.map TransportParam.text ++ if trailing then [[]] else [] := by
  rw [transportText_pieces, transportParams, List.splitOn_intercalate]
  · rfl
  · intro piece member
    rcases List.mem_cons.mp member with rfl | member
    · exact fun inside => (profile_whole profile _ inside).1 rfl
    · rcases List.mem_append.mp member with member | member
      · obtain ⟨param, _, rfl⟩ := List.mem_map.mp member
        exact fun inside => (param.text_whole _ inside).1 rfl
      · cases trailing <;> simp_all
  · exact List.cons_ne_nil _ _

theorem cStr_transportText (profile : TransportProfile) (params : List TransportParam)
    (trailing : Bool) :
    cStr (transportText profile params trailing) = transportText profile params trailing := by
  apply cStr_of_present
  have tail : ∀ c ∈ (if trailing then [';'.toUInt8] else []), c ≠ 0 := by
    cases trailing <;> decide +kernel
  simp only [transportText, List.forall_mem_append, List.mem_flatMap]
  refine ⟨⟨fun c member => (profile_whole profile c member).2, ?_⟩, tail⟩
  intro c ⟨param, _, member⟩
  rcases List.mem_cons.mp member with rfl | inside
  · decide
  · exact (param.text_whole c inside).2

theorem parseLowerTransport_text (profile : TransportProfile) (params : List TransportParam)
    (trailing : Bool) :
    parseLowerTransport (transportText profile params trailing) = some profile.lower := by
  rw [transportText_pieces]
  generalize params.map TransportParam.text ++ (if trailing then [[]] else []) = pieces
  cases pieces with
  | nil => cases profile <;> rfl
  | cons piece pieces =>
      rw [intercalate_cons, List.flatMap_cons]
      cases profile <;> rfl

theorem transport_configures (config : TransportConfig) (profile : TransportProfile)
    (params : List TransportParam) (trailing : Bool) :
    ∃ result, compyParseTransport config (transportText profile params trailing) = (result, 0) ∧
      Configures profile params result := by
  obtain ⟨result, folded, configures⟩ := (Configures.start profile).run params
  have empty : (if trailing then [[]] else [] : List (List UInt8)).foldlM parseTransportParam
      result = some result := by
    cases trailing <;> rfl
  refine ⟨result, ?_, configures⟩
  have parsed : (transportParams (transportText profile params trailing)).foldlM
      parseTransportParam (TransportConfig.start profile.lower) = some result := by
    rw [transportParams_text, List.foldlM_append, folded]
    exact empty
  rw [TransportConfig.start] at parsed
  simp [compyParseTransport, cStr_transportText, parseLowerTransport_text, parsed]

theorem refused_unchanged (config : TransportConfig) (value : List UInt8)
    (refused : (compyParseTransport config value).2 = -1) :
    (compyParseTransport config value).1 = config := by
  rcases compyParseTransport_cases config value with ⟨_, parsed⟩ | ⟨_, lower, parsed⟩
  · rw [parsed]
  · rw [parsed] at refused ⊢
    split at refused
    · contradiction
    · rfl

/-! ## The order of the parameters -/

/-- The parameters of every kind are the same and in the same order. -/
def SameKinds (params params' : List TransportParam) : Prop := ∀ kind,
  params.filter (fun param => param.kind = kind) = params'.filter (fun param => param.kind = kind)

theorem filterMap_range (field : RangeField) (params : List TransportParam) :
    params.filterMap (TransportParam.numbers field) =
      (params.filter fun param => param.kind = .range field).filterMap
        (TransportParam.numbers field) := by
  rw [List.filterMap_filter]
  congr 1
  funext param
  cases param with
  | unicast | multicast | other => rfl
  | range own lhs rhs => by_cases same : own = field <;> simp [TransportParam.numbers,
      TransportParam.kind, same]

theorem channelNumbers_injective : Function.Injective
    fun val : ChannelPair => (val.rtpChannel.toNat, val.rtcpChannel.toNat) := by
  intro val val' same
  obtain ⟨rtp, rtcp⟩ := Prod.mk.inj same
  cases val
  cases val'
  rw [ChannelPair.mk.injEq]
  exact ⟨UInt8.toNat_inj.mp rtp, UInt8.toNat_inj.mp rtcp⟩

theorem portNumbers_injective : Function.Injective
    fun val : PortPair => (val.rtpPort.toNat, val.rtcpPort.toNat) := by
  intro val val' same
  obtain ⟨rtp, rtcp⟩ := Prod.mk.inj same
  cases val
  cases val'
  rw [PortPair.mk.injEq]
  exact ⟨UInt16.toNat_inj.mp rtp, UInt16.toNat_inj.mp rtcp⟩

theorem TransportConfig.ext_numbers {config config' : TransportConfig}
    (lower : config.lower = config'.lower) (unicast : config.unicast = config'.unicast)
    (multicast : config.multicast = config'.multicast)
    (numbers : ∀ field, config.numbers field = config'.numbers field) : config = config' := by
  have interleaved := Option.map_injective channelNumbers_injective (numbers .interleaved)
  have clientPort := Option.map_injective portNumbers_injective (numbers .clientPort)
  have serverPort := Option.map_injective portNumbers_injective (numbers .serverPort)
  cases config
  cases config'
  rw [TransportConfig.mk.injEq]
  exact ⟨lower, unicast, multicast, interleaved, clientPort, serverPort⟩

theorem SameKinds.mem_iff {params params' : List TransportParam} (same : SameKinds params params')
    (param : TransportParam) : param ∈ params ↔ param ∈ params' := by
  have kept (list : List TransportParam) :
      param ∈ list ↔ param ∈ list.filter fun other => other.kind = param.kind := by
    simp [List.mem_filter]
  rw [kept params, kept params', same]

theorem Configures.unique {profile : TransportProfile} {params params' : List TransportParam}
    {config config' : TransportConfig} (configures : Configures profile params config)
    (configures' : Configures profile params' config') (same : SameKinds params params') :
    config = config' := by
  apply TransportConfig.ext_numbers
  · rw [configures.lower, configures'.lower]
  · rw [Bool.eq_iff_iff, configures.unicast, configures'.unicast, same.mem_iff]
  · rw [Bool.eq_iff_iff, configures.multicast, configures'.multicast, same.mem_iff]
  · intro field
    rw [configures.numbers, configures'.numbers, filterMap_range, filterMap_range field params',
      same]

/-- A value of known parameters is accepted and stored, in whatever order the kinds come; one
that is refused leaves the configuration alone. -/
theorem transport_parameters (config : TransportConfig) :
    (∀ profile params trailing, ∃ result,
      compyParseTransport config (transportText profile params trailing) = (result, 0) ∧
        Configures profile params result) ∧
    (∀ profile params params' trailing trailing', SameKinds params params' →
      compyParseTransport config (transportText profile params trailing) =
        compyParseTransport config (transportText profile params' trailing')) ∧
    ∀ value, (compyParseTransport config value).2 = -1 →
      (compyParseTransport config value).1 = config := by
  refine ⟨transport_configures config, ?_, refused_unchanged config⟩
  intro profile params params' trailing trailing' same
  obtain ⟨result, parsed, configures⟩ := transport_configures config profile params trailing
  obtain ⟨result', parsed', configures'⟩ := transport_configures config profile params' trailing'
  rw [parsed, parsed', configures.unique configures' same]

def channel (n : UInt8) : NumberText 8 where
  digits := decimal n.toNat
  decimal := ⟨decimal_ne_nil _, decimal_digits _⟩
  fits := by
    rw [FitsBits, digitsValue_decimal]
    exact n.toNat_lt

def channels : TransportParam := .range .interleaved (channel 4) (channel 5)

theorem swapped_sameKinds : SameKinds [.unicast, channels] [channels, .unicast] := by
  intro kind
  by_cases unicast : kind = .unicast
  · rw [unicast]
    rfl
  · have apart : TransportParam.kind .unicast ≠ kind := fun same => unicast same.symm
    simp [List.filter_cons, apart]

theorem swapped_params :
    compyParseTransport (TransportConfig.start .UDP)
        (charSlice "RTP/AVP/TCP;unicast;interleaved=4-5;") =
      compyParseTransport (TransportConfig.start .UDP)
        (charSlice "RTP/AVP/TCP;interleaved=4-5;unicast") := by
  have text : transportText .avpTcp [.unicast, channels] true =
      charSlice "RTP/AVP/TCP;unicast;interleaved=4-5;" := by decide +kernel
  have text' : transportText .avpTcp [channels, .unicast] false =
      charSlice "RTP/AVP/TCP;interleaved=4-5;unicast" := by decide +kernel
  rw [← text, ← text']
  exact (transport_parameters (TransportConfig.start .UDP)).2.1 .avpTcp _ _ true false
    swapped_sameKinds

end Compy.Rtsp
