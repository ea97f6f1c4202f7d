import Compy.DigestAuth.Md5
import Compy.Library.BlockStream

/-!
# MD5 of a message that comes in pieces

What RFC 1321 digests is the message with its padding and its length in bits.  The context
holds the chain over the whole blocks that came so far, the bytes of the block not yet full
and the number of bytes; every call of `compy_md5_update` keeps it so.
-/

set_option autoImplicit false

namespace Compy.DigestAuth.Md5

open BlockStream

/-! ## The digest of a whole message -/

def start : State := ⟨0x67452301, 0xefcdab89, 0x98badcfe, 0x10325476⟩

def littleEndian (n : Nat) : List UInt8 := (List.range 8).map fun i => UInt8.ofNat (n / 256 ^ i)

def paddingZeros (length : Nat) : Nat := (119 - length % 64) % 64

/-- The message, a one bit, zeros up to eight bytes short of a block, and the bit count. -/
def padded (data : List UInt8) : List UInt8 :=
  data ++ 0x80 :: List.replicate (paddingZeros data.length) 0 ++ littleEndian (8 * data.length)

def digestBytes (state : State) : List UInt8 :=
  wordBytes state.a ++ wordBytes state.b ++ wordBytes state.c ++ wordBytes state.d

def rfc1321 (data : List UInt8) : List UInt8 := digestBytes (chain transform 64 start (padded data))

/-! ## What the context holds -/

structure Holds (ctx : Md5) (data : List UInt8) : Prop where
  state : ctx.state = chain transform 64 start data
  held : ctx.buffer.toList.take (data.length % 64) = leftover 64 data
  count : ctx.count = UInt64.ofNat data.length

variable {ctx : Md5} {data : List UInt8}

theorem Holds.index (holds : ctx.Holds data) : ctx.index = data.length % 64 := by
  rw [Md5.index, holds.count, UInt64.toNat_ofNat']
  omega

theorem init_holds (ctx : Md5) : ctx.init.Holds [] where
  state := (chain_short start [] (by simp)).symm
  held := by simp [leftover]
  count := rfl

theorem memcpy_toList {size : Nat} (buffer : Vector UInt8 size) (offset : Nat)
    (data : List UInt8) (room : offset + data.length ≤ size) :
    (memcpy buffer offset data room).toList =
      buffer.toList.take offset ++ data ++ buffer.toList.drop (offset + data.length) := rfl

theorem memcpy_taken {size : Nat} (buffer : Vector UInt8 size) (offset : Nat)
    (data : List UInt8) (room : offset + data.length ≤ size) (filled : Nat)
    (all : filled = offset + data.length) :
    (memcpy buffer offset data room).toList.take filled = buffer.toList.take offset ++ data := by
  rw [memcpy_toList]
  apply List.take_left'
  rw [List.length_append, List.length_take, Vector.length_toList]
  omega

theorem blocks_holds (ctx : Md5) (front data : List UInt8)
    (state : ctx.state = chain transform 64 start front) (aligned : leftover 64 front = [])
    (count : ctx.count = UInt64.ofNat (front ++ data).length) :
    (ctx.blocks data).Holds (front ++ data) := by
  have rest : leftover 64 (front ++ data) = leftover 64 data := by
    rw [leftover_append (by decide), aligned, List.nil_append]
  refine ⟨?_, ?_, count⟩
  · rw [chain_append (by decide), aligned, List.nil_append, ← state]
    rfl
  · have room : 0 + (leftover 64 data).length ≤ 64 := by
      rw [leftover_length]
      omega
    rw [← leftover_length, rest]
    exact memcpy_taken ctx.buffer 0 (leftover 64 data) room _ (Nat.zero_add _).symm

theorem Holds.block (holds : ctx.Holds data) (front : List UInt8)
    (full : data.length % 64 + front.length = 64) :
    chain transform 64 start (data ++ front) =
        transform ctx.state (leftover 64 data ++ front) ∧
      leftover 64 (data ++ front) = [] := by
  have whole : (leftover 64 data ++ front).length = 64 := by
    rw [List.length_append, leftover_length, full]
  have state : chain transform 64 ctx.state (leftover 64 data ++ front ++ []) =
      chain transform 64 (transform ctx.state (leftover 64 data ++ front)) [] :=
    chain_block ctx.state _ [] whole (by decide)
  have rest := leftover_block (leftover 64 data ++ front) [] whole (by decide)
  rw [List.append_nil] at state rest
  constructor
  · rw [chain_append (by decide), ← holds.state, state]
    exact chain_short _ [] (by simp)
  · rw [leftover_append (by decide), rest]
    exact leftover_short [] (by simp)

theorem Holds.update (holds : ctx.Holds data) (chunk : List UInt8) :
    (ctx.update chunk).Holds (data ++ chunk) := by
  have index := holds.index
  have kept : ctx.buffer.toList.take ctx.index = leftover 64 data := by
    rw [index]
    exact holds.held
  have heldLength : (leftover 64 data).length = data.length % 64 := leftover_length data
  have count : ctx.count + UInt64.ofNat chunk.length = UInt64.ofNat (data ++ chunk).length := by
    rw [holds.count, List.length_append, UInt64.ofNat_add]
  unfold Md5.update
  dsimp only
  split
  · have aligned : leftover 64 data = [] := by
      apply List.eq_nil_of_length_eq_zero
      omega
    exact blocks_holds _ data chunk holds.state aligned count
  split
  · rename_i enough
    have length : (chunk.take (64 - ctx.index)).length = 64 - ctx.index := by
      rw [List.length_take]
      omega
    obtain ⟨state, rest⟩ := holds.block (chunk.take (64 - ctx.index)) (by omega)
    have split : data ++ chunk =
        (data ++ chunk.take (64 - ctx.index)) ++ chunk.drop (64 - ctx.index) := by
      rw [List.append_assoc, List.take_append_drop]
    rw [split] at count ⊢
    apply blocks_holds _ (data ++ chunk.take (64 - ctx.index)) _ _ rest count
    have room : ctx.index + (chunk.take (64 - ctx.index)).length ≤ 64 := by omega
    have block := memcpy_taken ctx.buffer ctx.index _ room 64 (by omega)
    rw [List.take_of_length_le (by simp), kept] at block
    rw [block, state]
  · have short : (leftover 64 data ++ chunk).length < 64 := by
      rw [List.length_append]
      omega
    have rest : leftover 64 (data ++ chunk) = leftover 64 data ++ chunk := by
      rw [leftover_append (by decide), leftover_short _ short]
    refine ⟨?_, ?_, count⟩
    · rw [chain_append (by decide), chain_short _ _ short]
      exact holds.state
    · have all : (data ++ chunk).length % 64 = ctx.index + chunk.length := by
        rw [List.length_append] at short ⊢
        omega
      rw [rest, ← kept]
      have room : ctx.index + chunk.length ≤ 64 := by omega
      exact memcpy_taken ctx.buffer ctx.index chunk room _ all

theorem Holds.updates (holds : ctx.Holds data) (chunks : List (List UInt8)) :
    (chunks.foldl Md5.update ctx).Holds (data ++ chunks.flatten) := by
  induction chunks generalizing ctx data with
  | nil => simpa using holds
  | cons chunk chunks ih =>
      have later := ih (holds.update chunk)
      rw [List.append_assoc] at later
      exact later

/-! ## The end of the message -/

theorem padding_taken (zeros : Nat) (bounded : zeros ≤ 63) :
    padding.take (1 + zeros) = 0x80 :: List.replicate zeros 0 := by
  rw [padding, Nat.add_comm, List.take_succ_cons, List.take_replicate, Nat.min_eq_left bounded]

theorem littleEndian_bits (count : UInt64) (length : Nat) (counted : count = UInt64.ofNat length)
    (short : length < 2 ^ 61) :
    ((List.range 8).map fun i => ((count * 8) >>> UInt64.ofNat (i * 8)).toUInt8) =
      littleEndian (8 * length) := by
  have bits : (count * 8).toNat = 8 * length := by
    rw [counted, UInt64.toNat_mul, UInt64.toNat_ofNat']
    simp only [UInt64.reduceToNat]
    omega
  apply List.map_congr_left
  intro i member
  have small := List.mem_range.mp member
  have amount : (UInt64.ofNat (i * 8)).toNat % 64 = 8 * i := by
    rw [UInt64.toNat_ofNat']
    omega
  apply UInt8.toNat_inj.mp
  rw [UInt64.toNat_toUInt8, UInt64.toNat_shiftRight, amount, bits, Nat.shiftRight_eq_div_pow,
    UInt8.toNat_ofNat', Nat.pow_mul]

theorem Holds.final (holds : ctx.Holds data) (short : data.length < 2 ^ 61) :
    ctx.final = rfc1321 data := by
  have index := holds.index
  have length : (if ctx.index < 56 then 56 - ctx.index else 120 - ctx.index) =
      1 + paddingZeros data.length := by
    unfold paddingZeros
    split <;> omega
  have bounded : paddingZeros data.length ≤ 63 := by
    unfold paddingZeros
    omega
  have closed := ((holds.update (padding.take (1 + paddingZeros data.length))).update
    (littleEndian (8 * data.length))).state
  rw [padding_taken _ bounded] at closed
  unfold Md5.final
  dsimp only
  rw [length, littleEndian_bits ctx.count data.length holds.count short, padding_taken _ bounded,
    closed]
  rfl

/-- Any split of a message into calls gives the digest of the whole. -/
theorem chunks_digest (ctx : Md5) (chunks : List (List UInt8))
    (short : chunks.flatten.length < 2 ^ 61) :
    (chunks.foldl Md5.update ctx.init).final = rfc1321 chunks.flatten ∧
      md5Hex chunks.flatten = hex (rfc1321 chunks.flatten) := by
  constructor
  · exact ((init_holds ctx).updates chunks).final short
  · have whole := ((init_holds Md5.uninit).update chunks.flatten).final short
    rw [md5Hex, whole]
    rfl

theorem chunks_digest_over_a_block :
    ([List.replicate 60 97, [], List.replicate 60 98].foldl Md5.update (init uninit)).final =
      rfc1321 (List.replicate 60 97 ++ List.replicate 60 98) := by
  exact (chunks_digest uninit [List.replicate 60 97, [], List.replicate 60 98] (by decide)).1

end Compy.DigestAuth.Md5
