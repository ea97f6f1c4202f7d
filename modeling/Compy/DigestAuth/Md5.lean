import Compy.Rtsp.Parsing

/-!
# MD5

`md5.c`.  A step of `md5_transform` gives back the registers in the order in which the next
one names them, so the sixteen lines of a round are a table of the word, the constant and
the rotation.
-/

set_option autoImplicit false

namespace Compy.DigestAuth

open Compy.Rtsp

namespace Md5

structure State where
  a : UInt32
  b : UInt32
  c : UInt32
  d : UInt32
  deriving DecidableEq

abbrev Mix := UInt32 → UInt32 → UInt32 → UInt32

def F : Mix := fun x y z => (x &&& y) ||| (~~~x &&& z)

def G : Mix := fun x y z => (x &&& z) ||| (y &&& ~~~z)

def H : Mix := fun x y z => x ^^^ y ^^^ z

def I : Mix := fun x y z => y ^^^ (x ||| ~~~z)

def rot (x n : UInt32) : UInt32 := (x <<< n) ||| (x >>> (32 - n))

def step (f : Mix) (regs : State) (x t s : UInt32) : State where
  a := regs.d
  b := rot (regs.a + (f regs.b regs.c regs.d + x + t)) s + regs.b
  c := regs.b
  d := regs.c

/-- One line of a round. -/
structure Line where
  x : Nat
  t : UInt32
  s : UInt32

def roundF : List Line := [
  ⟨0, 0xd76aa478, 7⟩, ⟨1, 0xe8c7b756, 12⟩, ⟨2, 0x242070db, 17⟩, ⟨3, 0xc1bdceee, 22⟩,
  ⟨4, 0xf57c0faf, 7⟩, ⟨5, 0x4787c62a, 12⟩, ⟨6, 0xa8304613, 17⟩, ⟨7, 0xfd469501, 22⟩,
  ⟨8, 0x698098d8, 7⟩, ⟨9, 0x8b44f7af, 12⟩, ⟨10, 0xffff5bb1, 17⟩, ⟨11, 0x895cd7be, 22⟩,
  ⟨12, 0x6b901122, 7⟩, ⟨13, 0xfd987193, 12⟩, ⟨14, 0xa679438e, 17⟩, ⟨15, 0x49b40821, 22⟩]

def roundG : List Line := [
  ⟨1, 0xf61e2562, 5⟩, ⟨6, 0xc040b340, 9⟩, ⟨11, 0x265e5a51, 14⟩, ⟨0, 0xe9b6c7aa, 20⟩,
  ⟨5, 0xd62f105d, 5⟩, ⟨10, 0x02441453, 9⟩, ⟨15, 0xd8a1e681, 14⟩, ⟨4, 0xe7d3fbc8, 20⟩,
  ⟨9, 0x21e1cde6, 5⟩, ⟨14, 0xc33707d6, 9⟩, ⟨3, 0xf4d50d87, 14⟩, ⟨8, 0x455a14ed, 20⟩,
  ⟨13, 0xa9e3e905, 5⟩, ⟨2, 0xfcefa3f8, 9⟩, ⟨7, 0x676f02d9, 14⟩, ⟨12, 0x8d2a4c8a, 20⟩]

def roundH : List Line := [
  ⟨5, 0xfffa3942, 4⟩, ⟨8, 0x8771f681, 11⟩, ⟨11, 0x6d9d6122, 16⟩, ⟨14, 0xfde5380c, 23⟩,
  ⟨1, 0xa4beea44, 4⟩, ⟨4, 0x4bdecfa9, 11⟩, ⟨7, 0xf6bb4b60, 16⟩, ⟨10, 0xbebfbc70, 23⟩,
  ⟨13, 0x289b7ec6, 4⟩, ⟨0, 0xeaa127fa, 11⟩, ⟨3, 0xd4ef3085, 16⟩, ⟨6, 0x04881d05, 23⟩,
  ⟨9, 0xd9d4d039, 4⟩, ⟨12, 0xe6db99e5, 11⟩, ⟨15, 0x1fa27cf8, 16⟩, ⟨2, 0xc4ac5665, 23⟩]

def roundI : List Line := [
  ⟨0, 0xf4292244, 6⟩, ⟨7, 0x432aff97, 10⟩, ⟨14, 0xab9423a7, 15⟩, ⟨5, 0xfc93a039, 21⟩,
  ⟨12, 0x655b59c3, 6⟩, ⟨3, 0x8f0ccc92, 10⟩, ⟨10, 0xffeff47d, 15⟩, ⟨1, 0x85845dd1, 21⟩,
  ⟨8, 0x6fa87e4f, 6⟩, ⟨15, 0xfe2ce6e0, 10⟩, ⟨6, 0xa3014314, 15⟩, ⟨13, 0x4e0811a1, 21⟩,
  ⟨4, 0xf7537e82, 6⟩, ⟨11, 0xbd3af235, 10⟩, ⟨2, 0x2ad7d2bb, 15⟩, ⟨9, 0xeb86d391, 21⟩]

def blockWords (block : List UInt8) : List UInt32 :=
  (List.range 16).map fun i => (block.getD (4 * i) 0).toUInt32 |||
    (block.getD (4 * i + 1) 0).toUInt32 <<< 8 ||| (block.getD (4 * i + 2) 0).toUInt32 <<< 16 |||
    (block.getD (4 * i + 3) 0).toUInt32 <<< 24

def round (f : Mix) (lines : List Line) (words : List UInt32) (regs : State) : State :=
  lines.foldl (fun regs line => step f regs (words.getD line.x 0) line.t line.s) regs

def transform (state : State) (block : List UInt8) : State :=
  let words := blockWords block
  let regs := round I roundI words (round H roundH words (round G roundG words
    (round F roundF words state)))
  { a := state.a + regs.a, b := state.b + regs.b, c := state.c + regs.c, d := state.d + regs.d }

end Md5

def memcpy {size : Nat} (buffer : Vector UInt8 size) (offset : Nat) (data : List UInt8)
    (room : offset + data.length ≤ size) : Vector UInt8 size where
  toArray := (buffer.toList.take offset ++ data ++
    buffer.toList.drop (offset + data.length)).toArray
  size_toArray := by
    simp only [List.size_toArray, List.length_append, List.length_take, List.length_drop,
      Vector.length_toList]
    omega

structure Md5 where
  state : Md5.State
  count : UInt64
  buffer : Vector UInt8 64

namespace Md5

def init (ctx : Md5) : Md5 :=
  { ctx with count := 0, state := ⟨0x67452301, 0xefcdab89, 0x98badcfe, 0x10325476⟩ }

/-- The place in the buffer, `count & 0x3F`. -/
def index (ctx : Md5) : Nat := ctx.count.toNat % 64

theorem index_lt (ctx : Md5) : ctx.index < 64 := Nat.mod_lt _ (by decide)

/-- The loop over whole blocks and the rest that goes into the buffer. -/
def blocks (ctx : Md5) (data : List UInt8) : Md5 :=
  let taken := 64 * (data.length / 64)
  { ctx with
    state := (List.range (data.length / 64)).foldl
      (fun state k => transform state ((data.drop (64 * k)).take 64)) ctx.state
    buffer := memcpy ctx.buffer 0 (data.drop taken) (by rw [List.length_drop]; omega) }

def update (ctx : Md5) (data : List UInt8) : Md5 :=
  let counted := { ctx with count := ctx.count + UInt64.ofNat data.length }
  if ctx.index = 0 then counted.blocks data
  else if enough : 64 - ctx.index ≤ data.length then
    let part := 64 - ctx.index
    let buffer := memcpy ctx.buffer ctx.index (data.take part) (by
      have := ctx.index_lt
      rw [List.length_take]
      omega)
    Md5.blocks { counted with buffer := buffer, state := transform ctx.state buffer.toList }
      (data.drop part)
  else
    { counted with buffer := memcpy ctx.buffer ctx.index data (by omega) }

def padding : List UInt8 := 0x80 :: List.replicate 63 0

def wordBytes (x : UInt32) : List UInt8 :=
  [x.toUInt8, (x >>> 8).toUInt8, (x >>> 16).toUInt8, (x >>> 24).toUInt8]

def final (ctx : Md5) : List UInt8 :=
  let bitCount := ctx.count * 8
  let bits := (List.range 8).map fun i => (bitCount >>> UInt64.ofNat (i * 8)).toUInt8
  let padLen := if ctx.index < 56 then 56 - ctx.index else 120 - ctx.index
  let state := ((ctx.update (padding.take padLen)).update bits).state
  wordBytes state.a ++ wordBytes state.b ++ wordBytes state.c ++ wordBytes state.d

/-- The context on the stack that `compy_md5_hex` starts from. -/
def uninit : Md5 := ⟨⟨0, 0, 0, 0⟩, 0, Vector.replicate 64 0⟩

end Md5

def hexDigit (n : UInt8) : UInt8 :=
  if n < 10 then '0'.toUInt8 + n else 'a'.toUInt8 + (n - 10)

/-- Two characters for each byte, as `%02x` prints it. -/
def hex (bytes : List UInt8) : List UInt8 :=
  bytes.flatMap fun c => [hexDigit (c / 16), hexDigit (c % 16)]

def md5Hex (data : List UInt8) : List UInt8 := hex ((Md5.init .uninit).update data).final

theorem hexDigit_toNat (n : UInt8) (small : n.toNat < 16) :
    (hexDigit n).toNat = if n.toNat < 10 then 48 + n.toNat else 87 + n.toNat := by
  have zero : '0'.toUInt8.toNat = 48 := rfl
  have letter : 'a'.toUInt8.toNat = 97 := rfl
  have ten : (10 : UInt8).toNat = 10 := rfl
  rw [hexDigit, if_congr UInt8.lt_iff_toNat_lt rfl rfl, ten]
  split
  · rw [UInt8.toNat_add, zero]
    omega
  · rename_i above
    have least : 10 ≤ n := UInt8.le_iff_toNat_le.mpr (Nat.le_of_not_lt above)
    rw [UInt8.toNat_add, UInt8.toNat_sub_of_le _ _ least, letter, ten]
    omega

@[simp] theorem hex_length (bytes : List UInt8) : (hex bytes).length = 2 * bytes.length := by
  induction bytes with
  | nil => rfl
  | cons c bytes ih =>
      rw [hex, List.flatMap_cons, List.length_append, ← hex, ih]
      simp only [List.length_cons, List.length_nil]
      omega

/-- A character that stands in the middle of a quoted value. -/
def Quotable (c : UInt8) : Prop := c ≠ 0 ∧ c ≠ '"'.toUInt8

instance : DecidablePred Quotable := fun c => inferInstanceAs (Decidable (c ≠ 0 ∧ c ≠ _))

theorem hex_quotable (bytes : List UInt8) : ∀ c ∈ hex bytes, Quotable c := by
  have digit (n : UInt8) (small : n.toNat < 16) : Quotable (hexDigit n) := by
    have value := hexDigit_toNat n small
    constructor
    · intro zero
      rw [zero, show (0 : UInt8).toNat = 0 from rfl] at value
      split at value <;> omega
    · intro quote
      rw [quote, show '"'.toUInt8.toNat = 34 from rfl] at value
      split at value <;> omega
  intro c member
  obtain ⟨byte, _, written⟩ := List.mem_flatMap.mp member
  have bound := byte.toNat_lt
  rw [List.mem_cons, List.mem_singleton] at written
  rcases written with rfl | rfl
  · apply digit
    simp
    omega
  · apply digit
    simp
    omega

theorem final_length (ctx : Md5) : ctx.final.length = 16 := rfl

theorem md5Hex_length (data : List UInt8) : (md5Hex data).length = 32 := by
  rw [md5Hex, hex_length, final_length]

example : md5Hex (charSlice "abc") = charSlice "900150983cd24fb0d6963f7d28e17f72" := by
  decide +kernel

end Compy.DigestAuth
