import Mathlib.Algebra.Group.Nat.Defs
import Mathlib.Data.List.Basic
import Mathlib.Data.Nat.Notation

/-!
# AES-128 and its counter mode

The block cipher of FIPS 197 and the counter mode of SP 800-38A, executable.
Blocks are column by column, as in the standard: byte `4 * c + r` is row `r` of
column `c`.  The S-box is computed from its definition, inversion in GF(2^8)
followed by the affine map.
-/

set_option autoImplicit false

namespace Aes128

abbrev Block := Vector UInt8 16

def xtime (b : UInt8) : UInt8 := (b <<< 1) ^^^ (if b < 0x80 then 0 else 0x1b)

def mulBits (a b : UInt8) : Nat → UInt8
  | 0 => 0
  | bits + 1 => (if b &&& 1 = 0 then 0 else a) ^^^ mulBits (xtime a) (b >>> 1) bits

def mul (a b : UInt8) : UInt8 := mulBits a b 8

/-- `a ^ 254`, the product of `a ^ 2`, `a ^ 4`, ... , `a ^ 128`. -/
def inverse (a : UInt8) : UInt8 :=
  ((List.range 7).foldl (fun (square, product) _ =>
    (mul square square, mul product (mul square square))) (a, (1 : UInt8))).2

def rotl (b : UInt8) (n : UInt8) : UInt8 := (b <<< n) ||| (b >>> (8 - n))

def subByte (b : UInt8) : UInt8 :=
  let i := inverse b
  i ^^^ rotl i 1 ^^^ rotl i 2 ^^^ rotl i 3 ^^^ rotl i 4 ^^^ 0x63

def addBlock (a b : Block) : Block := Vector.zipWith (· ^^^ ·) a b

def byteAt (block : Block) (column row : Nat) : UInt8 :=
  block.toList.getD (4 * (column % 4) + row % 4) 0

def ofBytes (byte : Nat → Nat → UInt8) : Block :=
  Vector.ofFn fun k => byte (k.val / 4) (k.val % 4)

def subBytes (block : Block) : Block := block.map subByte

def shiftRows (block : Block) : Block := ofBytes fun c r => byteAt block (c + r) r

def mixColumns (block : Block) : Block := ofBytes fun c r =>
  mul 2 (byteAt block c r) ^^^ mul 3 (byteAt block c (r + 1)) ^^^
    byteAt block c (r + 2) ^^^ byteAt block c (r + 3)

def nextRoundKey (rcon : UInt8) (key : Block) : Block :=
  let turned := fun r => subByte (byteAt key 3 (r + 1)) ^^^ (if r = 0 then rcon else 0)
  let column0 := fun r => byteAt key 0 r ^^^ turned r
  let column1 := fun r => byteAt key 1 r ^^^ column0 r
  let column2 := fun r => byteAt key 2 r ^^^ column1 r
  let column3 := fun r => byteAt key 3 r ^^^ column2 r
  ofBytes fun c r => match c with
    | 0 => column0 r
    | 1 => column1 r
    | 2 => column2 r
    | _ => column3 r

/-- The nine full rounds and the last one without the column mix. -/
def rounds (rcon : UInt8) (key state : Block) : Nat → Block
  | 0 => addBlock (shiftRows (subBytes state)) (nextRoundKey rcon key)
  | left + 1 =>
      let roundKey := nextRoundKey rcon key
      rounds (xtime rcon) roundKey
        (addBlock (mixColumns (shiftRows (subBytes state))) roundKey) left

def encryptBlock (key plain : Block) : Block := rounds 1 key (addBlock plain key) 9

/-- The counter block `n` places after `iv`, as a 128-bit big-endian number. -/
def counterBlock (iv : Block) (n : Nat) : Block :=
  let start := iv.toList.foldl (fun acc b => 256 * acc + b.toNat) 0
  Vector.ofFn fun k => UInt8.ofNat ((start + n) / 256 ^ (15 - k.val))

def keystream (key iv : Block) (position : Nat) : UInt8 :=
  (encryptBlock key (counterBlock iv (position / 16))).toList.getD (position % 16) 0

def ctr (key iv : Block) (data : List UInt8) : List UInt8 :=
  data.mapIdx fun position byte => byte ^^^ keystream key iv position

@[simp] theorem length_ctr (key iv : Block) (data : List UInt8) :
    (ctr key iv data).length = data.length := List.length_mapIdx

end Aes128
