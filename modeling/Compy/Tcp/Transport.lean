import Compy.Library.CheckedBytes
import Compy.Library.Framing
import Compy.Rtp.Transport
import Compy.Rtsp.Interleaving

/-!
# The TCP transport

`tcp.c` on top of any writer, and `compy_parse_interleaved_header` of `util.c`, which takes
apart what it writes.  The header has 16 bits for the length of a payload, and a longer
payload goes through with the length cut off.
-/

set_option autoImplicit false

namespace Compy.Tcp

open BigEndian CheckedBytes Framing Compy.Rtp Compy.Rtsp

/-- `write` of a `Compy_Writer`; nothing comes back from a call that has not returned. -/
abbrev Write (ω : Type) := List UInt8 → ω → Option (ω × Int)

structure TcpTransport where
  channelId : UInt8

def tcpTxStackBuf : Nat := 2048

/-- The header and the contents of the vectors in one buffer. -/
def coalesce (channelId : UInt8) (bufs : IoVecSlice) : List UInt8 :=
  bufs.foldl (fun buf iov => buf ++ iov)
    (interleavedHeader channelId (htons (UInt16.ofNat bufs.len)))

/-- `allocated` tells whether `malloc` succeeds, where it is called. -/
def TcpTransport.transmit {ω : Type} (write : Write ω) (self : TcpTransport) (allocated : Bool)
    (bufs : IoVecSlice) (w : ω) : Option (ω × Int) := do
  let total := interleavedHeaderSize + bufs.len
  if tcpTxStackBuf < total ∧ allocated = false then return (w, -1)
  let (w, ret) ← write (coalesce self.channelId bufs) w
  return (w, if ret = total then 0 else -1)

structure Transmit where
  transport : TcpTransport
  bufs : IoVecSlice
  allocated : Bool

def transmitAll {ω : Type} (write : Write ω) : List Transmit → ω → Option (ω × List Int)
  | [], w => some (w, [])
  | call :: rest, w => do
      let (w, ret) ← call.transport.transmit write call.allocated call.bufs w
      let (w, rets) ← transmitAll write rest w
      return (w, ret :: rets)

/-- The channels and the payloads of the calls that have returned 0. -/
def succeeded : List Transmit → List Int → List (UInt8 × List UInt8)
  | call :: calls, ret :: rets =>
      if ret = 0 then (call.transport.channelId, call.bufs.flatten) :: succeeded calls rets
      else succeeded calls rets
  | _, _ => []

def fullWrite : Write (List UInt8) := fun data out => some (out ++ data, data.length)

/-- `compy_parse_interleaved_header`: the channel and the length. -/
def parseInterleavedHeader (data : List UInt8) : Access (UInt8 × UInt16) := do
  if data.getD 0 0 ≠ '$'.toUInt8 then throw .assertion
  return (data.getD 1 0, htons (load16 (data.drop 2)))

/-- A header and the payload that it announces. -/
def readFrame (input : List UInt8) : Access ((UInt8 × List UInt8) × List UInt8) := do
  let header ← readBytes input 0 interleavedHeaderSize
  let (channelId, payloadLen) ← parseInterleavedHeader header
  let payload ← readBytes input interleavedHeaderSize payloadLen.toNat
  return ((channelId, payload), input.drop (interleavedHeaderSize + payloadLen.toNat))

/-- A reader of the output gets exactly what has been transmitted with success. -/
def Lossless (calls : List Transmit) : Prop :=
  ∃ out rets, transmitAll fullWrite calls [] = some (out, rets) ∧
    readAll readFrame .diverges out.length out = .ok (succeeded calls rets)

/-! ## One call -/

theorem coalesce_header (channelId : UInt8) (bufs : IoVecSlice) :
    coalesce channelId bufs =
      interleavedHeader channelId (htons (UInt16.ofNat bufs.flatten.length)) ++ bufs.flatten := by
  have joined : ∀ (iovs : IoVecSlice) (buf : List UInt8),
      iovs.foldl (fun buf iov => buf ++ iov) buf = buf ++ iovs.flatten := by
    intro iovs
    induction iovs with
    | nil => intro buf; exact (List.append_nil buf).symm
    | cons iov iovs ih =>
        intro buf
        rw [List.foldl_cons, ih, List.flatten_cons, List.append_assoc]
  rw [coalesce, joined, IoVecSlice.len_eq]

theorem coalesce_eq (channelId : UInt8) (bufs : IoVecSlice) :
    coalesce channelId bufs =
      ['$'.toUInt8, channelId] ++ be16 (UInt16.ofNat bufs.flatten.length) ++ bufs.flatten := by
  rw [coalesce_header, interleavedHeader, store16_htons]

theorem length_coalesce (channelId : UInt8) (bufs : IoVecSlice) :
    (coalesce channelId bufs).length = interleavedHeaderSize + bufs.len := by
  rw [coalesce_eq, List.length_append, IoVecSlice.len_eq]
  rfl

theorem parseInterleavedHeader_eq (channelId : UInt8) (n : UInt16) :
    parseInterleavedHeader (['$'.toUInt8, channelId] ++ be16 n) = .ok (channelId, n) := by
  have length : htons (load16 (be16 n)) = n := (htons_load16 _ _).trans (word16_be16 n [])
  change (Except.ok (channelId, htons (load16 (be16 n))) : Access (UInt8 × UInt16)) = _
  rw [length]

theorem readFrame_coalesce (channelId : UInt8) (bufs : IoVecSlice) (rest : List UInt8) :
    readFrame (coalesce channelId bufs ++ rest) =
      .ok ((channelId, (bufs.flatten ++ rest).take (bufs.flatten.length % 2 ^ 16)),
        (bufs.flatten ++ rest).drop (bufs.flatten.length % 2 ^ 16)) := by
  rw [coalesce_eq]
  generalize length : UInt16.ofNat bufs.flatten.length = n
  have count : n.toNat = bufs.flatten.length % 2 ^ 16 := by
    rw [← length, UInt16.toNat_ofNat']
  have small : n.toNat ≤ bufs.flatten.length := count ▸ Nat.mod_le _ _
  have size (bytes : List UInt8) :
      (['$'.toUInt8, channelId] ++ be16 n ++ bytes).length = interleavedHeaderSize + bytes.length :=
    List.length_append
  have header (bytes : List UInt8) :
      ((['$'.toUInt8, channelId] ++ be16 n ++ bytes).drop 0).take interleavedHeaderSize =
        ['$'.toUInt8, channelId] ++ be16 n := rfl
  have behind (bytes : List UInt8) :
      (['$'.toUInt8, channelId] ++ be16 n ++ bytes).drop interleavedHeaderSize = bytes := rfl
  rw [readFrame, List.append_assoc, readBytes_ok _ _ _ (by rw [size]; omega), ok_bind, header,
    parseInterleavedHeader_eq, ok_bind]
  dsimp only
  rw [readBytes_ok _ _ _ (by rw [size, List.length_append]; omega), ok_bind,
    ← List.drop_drop, behind, ← count]
  rfl

theorem coalesce_ne_nil (channelId : UInt8) (bufs : IoVecSlice) : coalesce channelId bufs ≠ [] := by
  rw [coalesce_eq]
  exact List.cons_ne_nil _ _

/-! ## All calls -/

def Transmit.total (self : Transmit) : Nat := interleavedHeaderSize + self.bufs.len

/-- There is no buffer for the frame. -/
def Transmit.refused (self : Transmit) : Bool := tcpTxStackBuf < self.total && !self.allocated

def Transmit.frame (self : Transmit) : List UInt8 := coalesce self.transport.channelId self.bufs

theorem Transmit.length_frame (self : Transmit) : self.frame.length = self.total :=
  length_coalesce _ _

theorem Transmit.transmit_eq {ω : Type} (write : Write ω) (self : Transmit) (w : ω) :
    self.transport.transmit write self.allocated self.bufs w =
      if self.refused then some (w, -1)
      else (write self.frame w).map fun (w, ret) => (w, if ret = self.total then 0 else -1) := by
  rw [TcpTransport.transmit, Transmit.refused]
  simp only [Bool.and_eq_true, decide_eq_true_iff, Bool.not_eq_true']
  change (if tcpTxStackBuf < self.total ∧ self.allocated = false then _ else _) = _
  split
  · rfl
  · change (do
      let (w, ret) ← write self.frame w
      return (w, if ret = self.total then 0 else -1)) = _
    cases write self.frame w <;> rfl

/-- What one call adds to the output of a writer that takes everything. -/
def Transmit.emitted (self : Transmit) : List UInt8 := if self.refused then [] else self.frame

def Transmit.ret (self : Transmit) : Int := if self.refused then -1 else 0

theorem Transmit.of_refused (self : Transmit) (refused : self.refused = true) :
    self.emitted = [] ∧ self.ret = -1 := by
  rw [emitted, ret, refused]
  exact ⟨rfl, rfl⟩

theorem Transmit.of_accepted (self : Transmit) (accepted : self.refused = false) :
    self.emitted = self.frame ∧ self.ret = 0 := by
  rw [emitted, ret, accepted]
  exact ⟨rfl, rfl⟩

theorem transmitAll_full (calls : List Transmit) (out : List UInt8) :
    transmitAll fullWrite calls out =
      some (out ++ calls.flatMap Transmit.emitted, calls.map Transmit.ret) := by
  induction calls generalizing out with
  | nil => simp [transmitAll]
  | cons call calls ih =>
      rw [transmitAll, call.transmit_eq, List.flatMap_cons, List.map_cons]
      cases refused : call.refused with
      | true =>
          obtain ⟨emitted, ret⟩ := call.of_refused refused
          simp [ih, emitted, ret]
      | false =>
          obtain ⟨emitted, ret⟩ := call.of_accepted refused
          simp [fullWrite, call.length_frame, ih, emitted, ret]

/-- The payload of the first frame that is read is as long as its header tells, so it is
the payload of the call only where the header has room for the length. -/
theorem readAll_emitted (calls : List Transmit) (fuel : Nat)
    (enough : (calls.flatMap Transmit.emitted).length ≤ fuel) :
    readAll readFrame .diverges fuel (calls.flatMap Transmit.emitted) =
        .ok (succeeded calls (calls.map Transmit.ret)) ↔
      ∀ call ∈ calls, call.refused = false → call.bufs.flatten.length < 2 ^ 16 := by
  induction calls generalizing fuel with
  | nil =>
      refine iff_of_true ?_ (fun _ member => absurd member List.not_mem_nil)
      cases fuel <;> rfl
  | cons call calls ih =>
      rw [List.forall_mem_cons, List.flatMap_cons, List.map_cons, succeeded]
      rw [List.flatMap_cons, List.length_append] at enough
      cases refused : call.refused with
      | true =>
          obtain ⟨emitted, ret⟩ := call.of_refused refused
          rw [emitted, List.length_nil, Nat.zero_add] at enough
          rw [emitted, ret, List.nil_append, if_neg (by decide), ih fuel enough]
          exact ⟨fun others => ⟨nofun, others⟩, fun both => both.2⟩
      | false =>
          obtain ⟨emitted, ret⟩ := call.of_accepted refused
          have length := call.length_frame
          rw [Transmit.total, interleavedHeaderSize] at length
          rw [emitted, length] at enough
          obtain ⟨fuel, rfl⟩ : ∃ left, fuel = left + 1 := ⟨fuel - 1, by omega⟩
          have more : call.frame ++ calls.flatMap Transmit.emitted ≠ [] :=
            List.append_ne_nil_of_left_ne_nil (coalesce_ne_nil _ _) _
          rw [emitted, ret, if_pos rfl, readAll_step_iff more
            (readFrame_coalesce call.transport.channelId call.bufs _), Prod.mk.injEq]
          by_cases short : call.bufs.flatten.length < 2 ^ 16
          · rw [Nat.mod_eq_of_lt short, List.take_left, List.drop_left, ih fuel (by omega)]
            exact ⟨fun both => ⟨fun _ => short, both.2⟩, fun both => ⟨⟨rfl, rfl⟩, both.2⟩⟩
          · refine iff_of_false (fun both => short ?_) (fun both => short (both.1 rfl))
            have lengths := congrArg List.length both.1.2
            rw [List.length_take, List.length_append] at lengths
            have below := Nat.mod_lt call.bufs.flatten.length (Nat.two_pow_pos 16)
            omega

theorem lossless_iff_accepted (calls : List Transmit) :
    Lossless calls ↔
      ∀ call ∈ calls, call.refused = false → call.bufs.flatten.length < 2 ^ 16 := by
  rw [Lossless, ← readAll_emitted calls _ (Nat.le_refl _)]
  constructor
  · rintro ⟨out, rets, ran, all⟩
    rw [transmitAll_full, List.nil_append] at ran
    cases ran
    exact all
  · intro all
    exact ⟨_, _, by rw [transmitAll_full, List.nil_append], all⟩

/-- A payload of `2 ^ 16` bytes or more fits into no buffer on the stack. -/
theorem lossless_iff (calls : List Transmit) :
    Lossless calls ↔
      ∀ call ∈ calls, call.allocated = true → call.bufs.flatten.length < 2 ^ 16 := by
  have refused (call : Transmit) :
      (call.refused = false → call.bufs.flatten.length < 2 ^ 16) ↔
        (call.allocated = true → call.bufs.flatten.length < 2 ^ 16) := by
    rw [Transmit.refused, Transmit.total, IoVecSlice.len_eq, interleavedHeaderSize, tcpTxStackBuf]
    cases call.allocated <;> simp
    omega
  rw [lossless_iff_accepted]
  simp only [refused]

/-- A payload of 65536 bytes, of which the header tells nothing. -/
theorem longTransmit_lost : ¬ Lossless [⟨⟨0⟩, [List.replicate 65536 0], true⟩] := by
  rw [lossless_iff_accepted]
  intro short
  have below := short _ List.mem_cons_self (by rw [Transmit.refused]; exact Bool.and_false _)
  rw [List.flatten_cons, List.flatten_nil, List.append_nil, List.length_replicate] at below
  exact absurd below (by decide)

end Compy.Tcp
