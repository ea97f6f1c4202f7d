import Mathlib.Algebra.Group.Nat.Defs
import Mathlib.Data.List.Basic

/-!
# HMAC-SHA1

SHA-1 (FIPS 180-4) and HMAC (RFC 2104) over byte lists, executable.
-/

set_option autoImplicit false

namespace HmacSha1

structure Chain where
  a : UInt32
  b : UInt32
  c : UInt32
  d : UInt32
  e : UInt32

def start : Chain := ⟨0x67452301, 0xEFCDAB89, 0x98BADCFE, 0x10325476, 0xC3D2E1F0⟩

def rotl (x : UInt32) (n : UInt32) : UInt32 := (x <<< n) ||| (x >>> (32 - n))

def bytesOf (x : UInt32) : List UInt8 :=
  [(x >>> 24).toUInt8, (x >>> 16).toUInt8, (x >>> 8).toUInt8, x.toUInt8]

def wordAt (bytes : List UInt8) (k : Nat) : UInt32 :=
  (bytes.getD (4 * k) 0).toUInt32 <<< 24 ||| (bytes.getD (4 * k + 1) 0).toUInt32 <<< 16 |||
    (bytes.getD (4 * k + 2) 0).toUInt32 <<< 8 ||| (bytes.getD (4 * k + 3) 0).toUInt32

/-- The last sixteen words of the message schedule, newest first. -/
def schedule (block : List UInt8) : List UInt32 :=
  ((List.range 16).map (wordAt block)).reverse

def nextWord (recent : List UInt32) : UInt32 :=
  rotl (recent.getD 2 0 ^^^ recent.getD 7 0 ^^^ recent.getD 13 0 ^^^ recent.getD 15 0) 1

def mixer (t : Nat) (x : Chain) : UInt32 :=
  if t < 20 then ((x.b &&& x.c) ||| (~~~x.b &&& x.d)) + 0x5A827999
  else if t < 40 then (x.b ^^^ x.c ^^^ x.d) + 0x6ED9EBA1
  else if t < 60 then ((x.b &&& x.c) ||| (x.b &&& x.d) ||| (x.c &&& x.d)) + 0x8F1BBCDC
  else (x.b ^^^ x.c ^^^ x.d) + 0xCA62C1D6

def step (t : Nat) (word : UInt32) (x : Chain) : Chain :=
  ⟨rotl x.a 5 + mixer t x + x.e + word, x.a, rotl x.b 30, x.c, x.d⟩

/-- Rounds `t` on; `recent` starts with the word of round `t` once `t` is 16 or more. -/
def rounds (block : List UInt8) : Nat → Nat → List UInt32 → Chain → Chain
  | 0, _, _, x => x
  | left + 1, t, recent, x =>
      if t < 16 then rounds block left (t + 1) recent (step t (wordAt block t) x)
      else
        let word := nextWord recent
        rounds block left (t + 1) (word :: recent.take 15) (step t word x)

def compress (x : Chain) (block : List UInt8) : Chain :=
  let y := rounds block 80 0 (schedule block) x
  ⟨x.a + y.a, x.b + y.b, x.c + y.c, x.d + y.d, x.e + y.e⟩

def padded (message : List UInt8) : List UInt8 :=
  message ++ [0x80] ++ List.replicate ((119 - message.length % 64) % 64) 0 ++
    (List.range 8).map fun k => UInt8.ofNat (8 * message.length / 256 ^ (7 - k))

def digest (message : List UInt8) : Vector UInt8 20 :=
  let input := padded message
  let x := (List.range (input.length / 64)).foldl
    (fun x k => compress x ((input.drop (64 * k)).take 64)) start
  ⟨(bytesOf x.a ++ bytesOf x.b ++ bytesOf x.c ++ bytesOf x.d ++ bytesOf x.e).toArray, rfl⟩

def blockKey (key : List UInt8) : List UInt8 :=
  let short := if key.length ≤ 64 then key else (digest key).toList
  short ++ List.replicate (64 - short.length) 0

def hmac (key message : List UInt8) : Vector UInt8 20 :=
  let inner := digest ((blockKey key).map (· ^^^ 0x36) ++ message)
  digest ((blockKey key).map (· ^^^ 0x5c) ++ inner.toList)

end HmacSha1
