import PrimePaths.Text.Quoted

namespace PrimePaths.Sha256

/-- The first 32 bits of the fractions of the cube roots of the first 64 prime numbers. -/
def roundConstants : List UInt32 := [
  0x428a2f98, 0x71374491, 0xb5c0fbcf, 0xe9b5dba5, 0x3956c25b, 0x59f111f1, 0x923f82a4, 0xab1c5ed5,
  0xd807aa98, 0x12835b01, 0x243185be, 0x550c7dc3, 0x72be5d74, 0x80deb1fe, 0x9bdc06a7, 0xc19bf174,
  0xe49b69c1, 0xefbe4786, 0x0fc19dc6, 0x240ca1cc, 0x2de92c6f, 0x4a7484aa, 0x5cb0a9dc, 0x76f988da,
  0x983e5152, 0xa831c66d, 0xb00327c8, 0xbf597fc7, 0xc6e00bf3, 0xd5a79147, 0x06ca6351, 0x14292967,
  0x27b70a85, 0x2e1b2138, 0x4d2c6dfc, 0x53380d13, 0x650a7354, 0x766a0abb, 0x81c2c92e, 0x92722c85,
  0xa2bfe8a1, 0xa81a664b, 0xc24b8b70, 0xc76c51a3, 0xd192e819, 0xd6990624, 0xf40e3585, 0x106aa070,
  0x19a4c116, 0x1e376c08, 0x2748774c, 0x34b0bcb5, 0x391c0cb3, 0x4ed8aa4a, 0x5b9cca4f, 0x682e6ff3,
  0x748f82ee, 0x78a5636f, 0x84c87814, 0x8cc70208, 0x90befffa, 0xa4506ceb, 0xbef9a3f7, 0xc67178f2]

/-- The eight words that are carried from block to block. -/
structure Registers where
  a : UInt32
  b : UInt32
  c : UInt32
  d : UInt32
  e : UInt32
  f : UInt32
  g : UInt32
  h : UInt32
  deriving DecidableEq, Repr

/-- The first 32 bits of the fractions of the square roots of the first eight prime numbers. -/
def initial : Registers where
  a := 0x6a09e667
  b := 0xbb67ae85
  c := 0x3c6ef372
  d := 0xa54ff53a
  e := 0x510e527f
  f := 0x9b05688c
  g := 0x1f83d9ab
  h := 0x5be0cd19

def rotateRight (x n : UInt32) : UInt32 :=
  (x >>> n) ||| (x <<< (32 - n))

def round (r : Registers) (constant word : UInt32) : Registers :=
  let s1 := rotateRight r.e 6 ^^^ rotateRight r.e 11 ^^^ rotateRight r.e 25
  let choice := (r.e &&& r.f) ^^^ (~~~r.e &&& r.g)
  let t1 := r.h + s1 + choice + constant + word
  let s0 := rotateRight r.a 2 ^^^ rotateRight r.a 13 ^^^ rotateRight r.a 22
  let majority := (r.a &&& r.b) ^^^ (r.a &&& r.c) ^^^ (r.b &&& r.c)
  { a := t1 + s0 + majority, b := r.a, c := r.b, d := r.c, e := r.d + t1, f := r.e, g := r.f, h := r.g }

/-- The word that begins at a byte, the highest byte first. -/
def wordAt (bytes : ByteArray) (start : Nat) : UInt32 :=
  (List.range 4).foldl (fun w i => (w <<< 8) ||| (bytes[start + i]?.getD 0).toUInt32) 0

/-- Adds the next word to those of a block: a sum of four earlier words, two of them mixed. -/
def extend (words : Array UInt32) : Array UInt32 :=
  let back (k : Nat) : UInt32 := words.getD (words.size - k) 0
  let s0 := rotateRight (back 15) 7 ^^^ rotateRight (back 15) 18 ^^^ (back 15 >>> 3)
  let s1 := rotateRight (back 2) 17 ^^^ rotateRight (back 2) 19 ^^^ (back 2 >>> 10)
  words.push (back 16 + s0 + back 7 + s1)

/-- The words of the rounds of a block: its own 16 words, then 48 more. -/
def schedule (bytes : ByteArray) (start : Nat) : Array UInt32 :=
  let own := ((List.range 16).map fun i => wordAt bytes (start + 4 * i)).toArray
  Nat.repeat extend 48 own

/-- Takes in the block of 64 bytes that begins at a byte. -/
def compress (bytes : ByteArray) (r : Registers) (start : Nat) : Registers :=
  let s := (roundConstants.zip (schedule bytes start).toList).foldl (fun r (k, w) => round r k w) r
  { a := r.a + s.a, b := r.b + s.b, c := r.c + s.c, d := r.d + s.d
    e := r.e + s.e, f := r.f + s.f, g := r.g + s.g, h := r.h + s.h }

/-- The bytes with a one bit, zeros and their length in bits behind them, a multiple of 64 bytes. -/
def padded (bytes : ByteArray) : ByteArray :=
  let zeros := (119 - bytes.size % 64) % 64
  let bits := 8 * bytes.size
  let length := (List.range 8).map fun i => UInt8.ofNat (bits >>> (8 * (7 - i)))
  bytes ++ ByteArray.mk (0x80 :: (List.replicate zeros 0 ++ length)).toArray

/-- The SHA-256 digest of a sequence of bytes. -/
def digest (bytes : ByteArray) : String :=
  let p := padded bytes
  let r := (List.range (p.size / 64)).foldl (fun r i => compress p r (64 * i)) initial
  String.ofList ([r.a, r.b, r.c, r.d, r.e, r.f, r.g, r.h].flatMap fun w => Text.hex 8 w.toNat)

end PrimePaths.Sha256
