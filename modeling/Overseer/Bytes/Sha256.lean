/-!
The SHA-256 digest.

The message is padded with one set bit, zeros and its length in bits to a whole number of blocks of
64 bytes; each block is expanded to 64 words and mixed into eight chaining words by 64 rounds.
-/

namespace Overseer.Bytes.Sha256

/-- The round constants: the first 32 bits of the fractions of the cube roots of the first 64
primes. -/
def roundConstants : Array UInt32 := #[
  0x428a2f98, 0x71374491, 0xb5c0fbcf, 0xe9b5dba5, 0x3956c25b, 0x59f111f1, 0x923f82a4, 0xab1c5ed5,
  0xd807aa98, 0x12835b01, 0x243185be, 0x550c7dc3, 0x72be5d74, 0x80deb1fe, 0x9bdc06a7, 0xc19bf174,
  0xe49b69c1, 0xefbe4786, 0x0fc19dc6, 0x240ca1cc, 0x2de92c6f, 0x4a7484aa, 0x5cb0a9dc, 0x76f988da,
  0x983e5152, 0xa831c66d, 0xb00327c8, 0xbf597fc7, 0xc6e00bf3, 0xd5a79147, 0x06ca6351, 0x14292967,
  0x27b70a85, 0x2e1b2138, 0x4d2c6dfc, 0x53380d13, 0x650a7354, 0x766a0abb, 0x81c2c92e, 0x92722c85,
  0xa2bfe8a1, 0xa81a664b, 0xc24b8b70, 0xc76c51a3, 0xd192e819, 0xd6990624, 0xf40e3585, 0x106aa070,
  0x19a4c116, 0x1e376c08, 0x2748774c, 0x34b0bcb5, 0x391c0cb3, 0x4ed8aa4a, 0x5b9cca4f, 0x682e6ff3,
  0x748f82ee, 0x78a5636f, 0x84c87814, 0x8cc70208, 0x90befffa, 0xa4506ceb, 0xbef9a3f7, 0xc67178f2
]

/-- The eight chaining words. -/
structure Chain where
  a : UInt32
  b : UInt32
  c : UInt32
  d : UInt32
  e : UInt32
  f : UInt32
  g : UInt32
  h : UInt32

/-- The first 32 bits of the fractions of the square roots of the first eight primes. -/
def initial : Chain where
  a := 0x6a09e667
  b := 0xbb67ae85
  c := 0x3c6ef372
  d := 0xa54ff53a
  e := 0x510e527f
  f := 0x9b05688c
  g := 0x1f83d9ab
  h := 0x5be0cd19

def rotateRight (x : UInt32) (n : UInt32) : UInt32 := (x >>> n) ||| (x <<< (32 - n))

/-- The message, a set bit, zeros, and the length in bits as eight bytes. -/
def pad (message : ByteArray) : ByteArray :=
  let zeros := (119 - message.size % 64) % 64
  let bits := 8 * message.size
  let tail : List UInt8 := 0x80 :: List.replicate zeros 0 ++
    (List.range 8).map fun i => UInt8.ofNat (bits / Nat.pow 256 (7 - i) % 256)
  message ++ ByteArray.mk tail.toArray

/-- The big-endian word at a byte position. -/
def wordAt (bytes : ByteArray) (i : Nat) : UInt32 :=
  let byte (k : Nat) : UInt32 := (bytes.get! (i + k)).toUInt32
  (byte 0 <<< 24) ||| (byte 1 <<< 16) ||| (byte 2 <<< 8) ||| byte 3

/-- The sixteen words of a block followed by 48 words made from earlier ones. -/
def expand (bytes : ByteArray) (start : Nat) : Array UInt32 :=
  let first := (Array.range 16).map fun i => wordAt bytes (start + 4 * i)
  (List.range 48).foldl (fun w i =>
    let w15 := w[i + 1]!
    let w2 := w[i + 14]!
    let s0 := rotateRight w15 7 ^^^ rotateRight w15 18 ^^^ (w15 >>> 3)
    let s1 := rotateRight w2 17 ^^^ rotateRight w2 19 ^^^ (w2 >>> 10)
    w.push (w[i]! + s0 + w[i + 9]! + s1)) first

/-- One round: mixes a word of the block and a constant into the chain. -/
def mixRound (s : Chain) (word constant : UInt32) : Chain :=
  let s1 := rotateRight s.e 6 ^^^ rotateRight s.e 11 ^^^ rotateRight s.e 25
  let choice := (s.e &&& s.f) ^^^ (~~~s.e &&& s.g)
  let t1 := s.h + s1 + choice + constant + word
  let s0 := rotateRight s.a 2 ^^^ rotateRight s.a 13 ^^^ rotateRight s.a 22
  let majority := (s.a &&& s.b) ^^^ (s.a &&& s.c) ^^^ (s.b &&& s.c)
  { a := t1 + s0 + majority, b := s.a, c := s.b, d := s.c, e := s.d + t1, f := s.e, g := s.f,
    h := s.g }

/-- Mixes the block that starts at a byte position into the chain. -/
def mixBlock (bytes : ByteArray) (s : Chain) (start : Nat) : Chain :=
  let w := expand bytes start
  let t := (List.range 64).foldl (fun t i => mixRound t w[i]! roundConstants[i]!) s
  { a := s.a + t.a, b := s.b + t.b, c := s.c + t.c, d := s.d + t.d, e := s.e + t.e, f := s.f + t.f,
    g := s.g + t.g, h := s.h + t.h }

def wordBytes (w : UInt32) : List UInt8 :=
  [(w >>> 24).toUInt8, (w >>> 16).toUInt8, (w >>> 8).toUInt8, w.toUInt8]

/-- The 32 bytes of the digest. -/
def digest (message : ByteArray) : ByteArray :=
  let padded := pad message
  let s := (List.range (padded.size / 64)).foldl (fun s i => mixBlock padded s (64 * i)) initial
  ByteArray.mk ([s.a, s.b, s.c, s.d, s.e, s.f, s.g, s.h].flatMap wordBytes).toArray

end Overseer.Bytes.Sha256
