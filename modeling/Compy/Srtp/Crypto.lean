import Compy.Library.Aes128
import Compy.Library.BigEndian
import Compy.Library.HmacSha1

/-!
# SRTP primitives, suites and packet encryption

`CryptoSrtpOps` is the table of functions a TLS backend fills in.  The backends
hand the work to a library, so the table is a parameter of everything below.
`CtrXors` is the only assumption any result makes about it.  `referenceOps` is
AES-128 and HMAC-SHA1 themselves.

The rest is the sender's and the receiver's common part of `srtp.c`: suites,
key derivation, the counter-mode IV, the in-place cipher call and the length of
the RTP header that is sent in the clear.
-/

set_option autoImplicit false

namespace Compy.Srtp

open BigEndian

abbrev Key := Vector UInt8 16

abbrev Salt := Vector UInt8 14

abbrev AuthKey := Vector UInt8 20

abbrev Iv := Vector UInt8 16

/-- `aes128_ctr` works in place, so it cannot change the length. -/
structure CryptoSrtpOps where
  aes128Ecb : Key → Vector UInt8 16 → Vector UInt8 16
  aes128Ctr : Key → Iv → List UInt8 → List UInt8
  length_aes128Ctr : ∀ key iv data, (aes128Ctr key iv data).length = data.length
  hmacSha1 : AuthKey → List UInt8 → Vector UInt8 20

def CtrXors (ops : CryptoSrtpOps) (keystream : Key → Iv → Nat → UInt8) : Prop :=
  ∀ key iv data,
    ops.aes128Ctr key iv data = data.mapIdx fun position byte => byte ^^^ keystream key iv position

theorem CtrXors.involutive {ops : CryptoSrtpOps} {keystream : Key → Iv → Nat → UInt8}
    (xors : CtrXors ops keystream) (key : Key) (iv : Iv) (data : List UInt8) :
    ops.aes128Ctr key iv (ops.aes128Ctr key iv data) = data := by
  rw [xors, xors]
  apply List.ext_getElem
  · simp
  · intro position left right
    rw [List.getElem_mapIdx, List.getElem_mapIdx, UInt8.xor_assoc, UInt8.xor_self, UInt8.xor_zero]

def referenceOps : CryptoSrtpOps where
  aes128Ecb := Aes128.encryptBlock
  aes128Ctr := Aes128.ctr
  length_aes128Ctr := Aes128.length_ctr
  hmacSha1 key data := HmacSha1.hmac key.toList data

theorem referenceOps_xors : CtrXors referenceOps Aes128.keystream := fun _ _ _ => rfl

/-! ## Suites and session keys -/

def srtpMaxPacketSize : Nat := 2048

def srtpAuthTag80 : Nat := 10

def srtpAuthTag32 : Nat := 4

inductive SrtpSuite where
  | aesCm128HmacSha1_80
  | aesCm128HmacSha1_32
  deriving DecidableEq, Repr

/-- The `auth_tag_len` field: both constructors of a context set it by suite. -/
abbrev AuthTagLen := { n : Nat // n = srtpAuthTag80 ∨ n = srtpAuthTag32 }

def SrtpSuite.authTagLen : SrtpSuite → AuthTagLen
  | .aesCm128HmacSha1_80 => ⟨srtpAuthTag80, Or.inl rfl⟩
  | .aesCm128HmacSha1_32 => ⟨srtpAuthTag32, Or.inr rfl⟩

theorem AuthTagLen.bounds (tag : AuthTagLen) : 4 ≤ tag.val ∧ tag.val ≤ 10 := by
  rcases tag.property with long | short
  · simp [long, srtpAuthTag80]
  · simp [short, srtpAuthTag32]

structure SrtpKeyMaterial where
  masterKey : Key
  masterSalt : Salt

def labelSrtpEncryption : UInt8 := 0x00

def labelSrtpAuth : UInt8 := 0x01

def labelSrtpSalt : UInt8 := 0x02

def labelSrtcpEncryption : UInt8 := 0x03

def labelSrtcpAuth : UInt8 := 0x04

def labelSrtcpSalt : UInt8 := 0x05

/-- The block `x` with the counter in its last two bytes. -/
def kdfBlock (masterSalt : Salt) (label : UInt8) (counter : UInt16) : Vector UInt8 16 :=
  let x : Vector UInt8 16 :=
    (masterSalt ++ (#v[0, 0] : Vector UInt8 2)).set 7 (masterSalt[7] ^^^ label)
  (x.set 14 (counter >>> 8).toUInt8).set 15 counter.toUInt8

def kdfLoop (ops : CryptoSrtpOps) (masterKey : Key) (masterSalt : Salt) (label : UInt8)
    (counter : UInt16) (remaining : Nat) : List UInt8 :=
  if remaining = 0 then []
  else
    let keystream := ops.aes128Ecb masterKey (kdfBlock masterSalt label counter)
    keystream.toList.take (min remaining 16) ++
      kdfLoop ops masterKey masterSalt label (counter + 1) (remaining - min remaining 16)
termination_by remaining
decreasing_by omega

theorem length_kdfLoop (ops : CryptoSrtpOps) (masterKey : Key) (masterSalt : Salt)
    (label : UInt8) (counter : UInt16) (remaining : Nat) :
    (kdfLoop ops masterKey masterSalt label counter remaining).length = remaining := by
  fun_induction kdfLoop with
  | case1 counter => rfl
  | case2 counter remaining positive keystream ih =>
      rw [List.length_append, ih, List.length_take, Vector.length_toList]
      omega

def srtpKdf (ops : CryptoSrtpOps) (key : SrtpKeyMaterial) (label : UInt8) (outLen : Nat) :
    Vector UInt8 outLen :=
  ⟨(kdfLoop ops key.masterKey key.masterSalt label 0 outLen).toArray, by
    simp [length_kdfLoop]⟩

/-! ## Packet encryption -/

/-- The sixteen bytes `srtp_encrypt_payload` builds.  `index` is 32 bits wide,
so the `roc` it is split into again has only its low 16 bits. -/
def srtpIv (sessionSalt : Salt) (ssrc index : UInt32) : Iv :=
  let roc := index >>> 16
  let seq := index.toUInt16
  #v[sessionSalt[0], sessionSalt[1], sessionSalt[2], sessionSalt[3],
    sessionSalt[4] ^^^ (ssrc >>> 24).toUInt8, sessionSalt[5] ^^^ (ssrc >>> 16).toUInt8,
    sessionSalt[6] ^^^ (ssrc >>> 8).toUInt8, sessionSalt[7] ^^^ ssrc.toUInt8,
    sessionSalt[8] ^^^ (roc >>> 24).toUInt8, sessionSalt[9] ^^^ (roc >>> 16).toUInt8,
    sessionSalt[10] ^^^ (roc >>> 8).toUInt8, sessionSalt[11] ^^^ roc.toUInt8,
    sessionSalt[12] ^^^ (seq >>> 8).toUInt8, sessionSalt[13] ^^^ seq.toUInt8,
    0, 0]

theorem srtpIv_injective (sessionSalt : Salt) (ssrc left right : UInt32)
    (same : srtpIv sessionSalt ssrc left = srtpIv sessionSalt ssrc right) : left = right := by
  have byte10 := congrArg (fun iv : Iv => iv[10]) same
  have byte11 := congrArg (fun iv : Iv => iv[11]) same
  have byte12 := congrArg (fun iv : Iv => iv[12]) same
  have byte13 := congrArg (fun iv : Iv => iv[13]) same
  simp only [srtpIv, Vector.getElem_mk, List.getElem_toArray, List.getElem_cons_succ,
    List.getElem_cons_zero, UInt8.xor_right_inj] at byte10 byte11 byte12 byte13
  have nat10 := congrArg UInt8.toNat byte10
  have nat11 := congrArg UInt8.toNat byte11
  have nat12 := congrArg UInt8.toNat byte12
  have nat13 := congrArg UInt8.toNat byte13
  simp only [toNat_byte32 _ 8 (by decide), toNat_byte16 _ 8 (by decide), UInt32.toNat_toUInt8,
    UInt16.toNat_toUInt8, UInt32.toNat_toUInt16, UInt32.toNat_shiftRight,
    UInt32.reduceToNat, UInt16.reduceToNat, Nat.shiftRight_eq_div_pow, Nat.reduceMod,
    Nat.reducePow] at nat10 nat11 nat12 nat13
  apply UInt32.toNat_inj.mp
  have leftBound := left.toNat_lt
  have rightBound := right.toNat_lt
  omega

def srtpEncryptPayload (ops : CryptoSrtpOps) (sessionKey : Key) (sessionSalt : Salt)
    (ssrc index : UInt32) (payload : List UInt8) : List UInt8 :=
  ops.aes128Ctr sessionKey (srtpIv sessionSalt ssrc index) payload

end Compy.Srtp
