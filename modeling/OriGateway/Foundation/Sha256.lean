import OriGateway.Foundation.Bytes

/-! # SHA-256

The hash by which durable records are named, as an executable function on byte strings. Nothing
is assumed of it beyond the length of its digest: no result of the development rests on the
absence of collisions. -/

namespace Foundation

namespace Sha256

/-- The eight chaining words. -/
structure Chain where
  a : UInt32
  b : UInt32
  c : UInt32
  d : UInt32
  e : UInt32
  f : UInt32
  g : UInt32
  h : UInt32

def initial : Chain :=
  ⟨0x6a09e667, 0xbb67ae85, 0x3c6ef372, 0xa54ff53a, 0x510e527f, 0x9b05688c, 0x1f83d9ab, 0x5be0cd19⟩

/-- The round constants. -/
def constants : List UInt32 := [
  0x428a2f98, 0x71374491, 0xb5c0fbcf, 0xe9b5dba5, 0x3956c25b, 0x59f111f1, 0x923f82a4, 0xab1c5ed5,
  0xd807aa98, 0x12835b01, 0x243185be, 0x550c7dc3, 0x72be5d74, 0x80deb1fe, 0x9bdc06a7, 0xc19bf174,
  0xe49b69c1, 0xefbe4786, 0x0fc19dc6, 0x240ca1cc, 0x2de92c6f, 0x4a7484aa, 0x5cb0a9dc, 0x76f988da,
  0x983e5152, 0xa831c66d, 0xb00327c8, 0xbf597fc7, 0xc6e00bf3, 0xd5a79147, 0x06ca6351, 0x14292967,
  0x27b70a85, 0x2e1b2138, 0x4d2c6dfc, 0x53380d13, 0x650a7354, 0x766a0abb, 0x81c2c92e, 0x92722c85,
  0xa2bfe8a1, 0xa81a664b, 0xc24b8b70, 0xc76c51a3, 0xd192e819, 0xd6990624, 0xf40e3585, 0x106aa070,
  0x19a4c116, 0x1e376c08, 0x2748774c, 0x34b0bcb5, 0x391c0cb3, 0x4ed8aa4a, 0x5b9cca4f, 0x682e6ff3,
  0x748f82ee, 0x78a5636f, 0x84c87814, 0x8cc70208, 0x90befffa, 0xa4506ceb, 0xbef9a3f7, 0xc67178f2]

def rotr (x n : UInt32) : UInt32 := (x >>> n) ||| (x <<< (32 - n))

/-- The message schedule, from a sliding window of its last sixteen words. -/
def schedule : Nat → List UInt32 → List UInt32
  | 0, _ => []
  | n + 1, window =>
    let w0 := window.getD 0 0
    let w1 := window.getD 1 0
    let w9 := window.getD 9 0
    let w14 := window.getD 14 0
    let s0 := rotr w1 7 ^^^ rotr w1 18 ^^^ (w1 >>> 3)
    let s1 := rotr w14 17 ^^^ rotr w14 19 ^^^ (w14 >>> 10)
    w0 :: schedule n (window.tail ++ [w0 + s0 + w9 + s1])

/-- One compression round on the sum of a schedule word and its constant. -/
def mixRound (s : Chain) (kw : UInt32) : Chain :=
  let s1 := rotr s.e 6 ^^^ rotr s.e 11 ^^^ rotr s.e 25
  let ch := (s.e &&& s.f) ^^^ (~~~s.e &&& s.g)
  let t1 := s.h + s1 + ch + kw
  let s0 := rotr s.a 2 ^^^ rotr s.a 13 ^^^ rotr s.a 22
  let maj := (s.a &&& s.b) ^^^ (s.a &&& s.c) ^^^ (s.b &&& s.c)
  ⟨t1 + (s0 + maj), s.a, s.b, s.c, s.d + t1, s.e, s.f, s.g⟩

/-- Absorb one block. -/
def compress (h : Chain) (block : List UInt32) : Chain :=
  let s := (List.zipWith (· + ·) constants (schedule 64 block)).foldl mixRound h
  ⟨h.a + s.a, h.b + s.b, h.c + s.c, h.d + s.d, h.e + s.e, h.f + s.f, h.g + s.g, h.h + s.h⟩

/-- Big-endian words of a byte string whose length is a multiple of four. -/
def toWords : Bytes → List UInt32
  | a :: b :: c :: d :: rest =>
    UInt32.ofNat (a.toNat * 16777216 + b.toNat * 65536 + c.toNat * 256 + d.toNat) :: toWords rest
  | _ => []

def wordBytes (w : UInt32) : Bytes :=
  let n := w.toNat
  [UInt8.ofNat (n / 16777216), UInt8.ofNat (n / 65536), UInt8.ofNat (n / 256), UInt8.ofNat n]

/-- The message followed by its padding: a one bit, zeros, and its length in bits. -/
def pad (message : Bytes) : Bytes :=
  let bits := message.length * 8
  message ++ 0x80 :: List.replicate ((119 - message.length % 64) % 64) 0 ++
    wordBytes (UInt32.ofNat (bits / 4294967296)) ++ wordBytes (UInt32.ofNat bits)

/-- Fold the blocks of a padded message, sixteen words at a time. -/
def absorb : Nat → Chain → List UInt32 → Chain
  | 0, h, _ => h
  | n + 1, h, words => absorb n (compress h (words.take 16)) (words.drop 16)

end Sha256

/-- The digest of a message. -/
def sha256 (message : Bytes) : Bytes :=
  let padded := Sha256.pad message
  let h := Sha256.absorb (padded.length / 64) Sha256.initial (Sha256.toWords padded)
  [h.a, h.b, h.c, h.d, h.e, h.f, h.g, h.h].flatMap Sha256.wordBytes

@[simp] theorem sha256_length (message : Bytes) : (sha256 message).length = 32 := by
  simp [sha256, Sha256.wordBytes]

/-- The key of an HMAC as one block: hashed when it is longer, and padded with zeros. -/
def hmacBlock (key : Bytes) : Bytes :=
  let short := if 64 < key.length then sha256 key else key
  short ++ List.replicate (64 - short.length) 0

def hmacSha256 (key message : Bytes) : Bytes :=
  let block := hmacBlock key
  sha256 (block.map (· ^^^ 0x5c) ++ sha256 (block.map (· ^^^ 0x36) ++ message))

example : hexEncode (hmacSha256 (ascii "Jefe") (ascii "what do ya want for nothing?")) =
    ascii "5bdcc146bf60754e6a042426089575c75a003f089d2739839dec58b964ec3843" := by
  decide +kernel

example : hexEncode (sha256 (ascii "abc")) =
    ascii "ba7816bf8f01cfea414140de5dae2223b00361a396177a9cb410ff61f20015ad" := by
  decide +kernel

end Foundation
