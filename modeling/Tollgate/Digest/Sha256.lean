/-!
The digest SHA-256.

The message schedule is a window of sixteen words that slides one word a round; the round constants
are a list, and the compression function folds over it.
-/

namespace Tollgate.Digest.Sha256

/-- The eight chaining words. -/
structure Chain where
  a : UInt32
  b : UInt32
  c : UInt32
  d : UInt32
  e : UInt32
  f : UInt32
  g : UInt32
  h : UInt32

/-- The first thirty-two bits of the fractional parts of the square roots of the first eight
primes. -/
def Chain.initial : Chain :=
  ⟨0x6a09e667, 0xbb67ae85, 0x3c6ef372, 0xa54ff53a, 0x510e527f, 0x9b05688c, 0x1f83d9ab, 0x5be0cd19⟩

def Chain.add (x y : Chain) : Chain :=
  ⟨x.a + y.a, x.b + y.b, x.c + y.c, x.d + y.d, x.e + y.e, x.f + y.f, x.g + y.g, x.h + y.h⟩

/-- The first thirty-two bits of the fractional parts of the cube roots of the first sixty-four
primes. -/
def roundConstants : List UInt32 := [
  0x428a2f98, 0x71374491, 0xb5c0fbcf, 0xe9b5dba5, 0x3956c25b, 0x59f111f1, 0x923f82a4, 0xab1c5ed5,
  0xd807aa98, 0x12835b01, 0x243185be, 0x550c7dc3, 0x72be5d74, 0x80deb1fe, 0x9bdc06a7, 0xc19bf174,
  0xe49b69c1, 0xefbe4786, 0x0fc19dc6, 0x240ca1cc, 0x2de92c6f, 0x4a7484aa, 0x5cb0a9dc, 0x76f988da,
  0x983e5152, 0xa831c66d, 0xb00327c8, 0xbf597fc7, 0xc6e00bf3, 0xd5a79147, 0x06ca6351, 0x14292967,
  0x27b70a85, 0x2e1b2138, 0x4d2c6dfc, 0x53380d13, 0x650a7354, 0x766a0abb, 0x81c2c92e, 0x92722c85,
  0xa2bfe8a1, 0xa81a664b, 0xc24b8b70, 0xc76c51a3, 0xd192e819, 0xd6990624, 0xf40e3585, 0x106aa070,
  0x19a4c116, 0x1e376c08, 0x2748774c, 0x34b0bcb5, 0x391c0cb3, 0x4ed8aa4a, 0x5b9cca4f, 0x682e6ff3,
  0x748f82ee, 0x78a5636f, 0x84c87814, 0x8cc70208, 0x90befffa, 0xa4506ceb, 0xbef9a3f7, 0xc67178f2]

/-- Sixteen consecutive words of the message schedule, the next one to use first. -/
structure Window where
  w0 : UInt32
  w1 : UInt32
  w2 : UInt32
  w3 : UInt32
  w4 : UInt32
  w5 : UInt32
  w6 : UInt32
  w7 : UInt32
  w8 : UInt32
  w9 : UInt32
  w10 : UInt32
  w11 : UInt32
  w12 : UInt32
  w13 : UInt32
  w14 : UInt32
  w15 : UInt32

/-- Rotates a word to the right, for an amount from 1 to 31. -/
@[inline]
def rotate (word amount : UInt32) : UInt32 :=
  (word >>> amount) ||| (word <<< (32 - amount))

/-- The window one word further on. -/
@[inline]
def Window.slide (w : Window) : Window :=
  let older := rotate w.w1 7 ^^^ rotate w.w1 18 ^^^ (w.w1 >>> 3)
  let newer := rotate w.w14 17 ^^^ rotate w.w14 19 ^^^ (w.w14 >>> 10)
  ⟨w.w1, w.w2, w.w3, w.w4, w.w5, w.w6, w.w7, w.w8, w.w9, w.w10, w.w11, w.w12, w.w13, w.w14, w.w15,
    w.w0 + older + w.w9 + newer⟩

/-- One round with the round constant `k` and the schedule word `word`. -/
@[inline]
def Chain.round (s : Chain) (k word : UInt32) : Chain :=
  let upper := rotate s.e 6 ^^^ rotate s.e 11 ^^^ rotate s.e 25
  let choice := (s.e &&& s.f) ^^^ (~~~s.e &&& s.g)
  let first := s.h + upper + choice + k + word
  let lower := rotate s.a 2 ^^^ rotate s.a 13 ^^^ rotate s.a 22
  let majority := (s.a &&& s.b) ^^^ (s.a &&& s.c) ^^^ (s.b &&& s.c)
  ⟨first + (lower + majority), s.a, s.b, s.c, s.d + first, s.e, s.f, s.g⟩

def rounds (s : Chain) (w : Window) : List UInt32 → Chain
  | [] => s
  | k :: rest => rounds (s.round k w.w0) w.slide rest

def compress (s : Chain) (w : Window) : Chain :=
  s.add (rounds s w roundConstants)

/-- The big-endian word at offset `i`; bytes beyond the end count as zero. -/
@[inline]
def wordAt (bytes : ByteArray) (i : Nat) : UInt32 :=
  let byte := fun j => if inside : j < bytes.size then bytes[j].toUInt32 else 0
  (byte i <<< 24) ||| (byte (i + 1) <<< 16) ||| (byte (i + 2) <<< 8) ||| byte (i + 3)

/-- The block of sixty-four bytes at offset `i`. -/
def windowAt (bytes : ByteArray) (i : Nat) : Window :=
  ⟨wordAt bytes i, wordAt bytes (i + 4), wordAt bytes (i + 8), wordAt bytes (i + 12),
    wordAt bytes (i + 16), wordAt bytes (i + 20), wordAt bytes (i + 24), wordAt bytes (i + 28),
    wordAt bytes (i + 32), wordAt bytes (i + 36), wordAt bytes (i + 40), wordAt bytes (i + 44),
    wordAt bytes (i + 48), wordAt bytes (i + 52), wordAt bytes (i + 56), wordAt bytes (i + 60)⟩

/-- Pushes `count` zero bytes. -/
def pushZeros (bytes : ByteArray) : Nat → ByteArray
  | 0 => bytes
  | count + 1 => pushZeros (bytes.push 0) count

/-- Pushes the lowest `k` bytes of a number, the highest of them first. -/
def pushBigEndian (bytes : ByteArray) (value : UInt64) : Nat → ByteArray
  | 0 => bytes
  | k + 1 => pushBigEndian (bytes.push (value >>> (8 * k.toUInt64)).toUInt8) value k

/-- The message with a one bit, zero bits and its length in bits, filling whole blocks. -/
def padMessage (message : ByteArray) : ByteArray :=
  let bits := (message.size * 8).toUInt64
  let zeros := (119 - message.size % 64) % 64
  pushBigEndian (pushZeros (message.push 0x80) zeros) bits 8

/-- Compresses `count` blocks, the first of them at block number `first`. -/
def compressBlocks (s : Chain) (bytes : ByteArray) (first : Nat) : Nat → Chain
  | 0 => s
  | count + 1 => compressBlocks (compress s (windowAt bytes (first * 64))) bytes (first + 1) count

def Chain.toBytes (s : Chain) : ByteArray :=
  let push := fun (bytes : ByteArray) (word : UInt32) => pushBigEndian bytes word.toUInt64 4
  let start := push (push (push (push (ByteArray.emptyWithCapacity 32) s.a) s.b) s.c) s.d
  push (push (push (push start s.e) s.f) s.g) s.h

/-- The digest of a message: thirty-two bytes. -/
def digest (message : ByteArray) : ByteArray :=
  let padded := padMessage message
  (compressBlocks Chain.initial padded 0 (padded.size / 64)).toBytes

end Tollgate.Digest.Sha256
