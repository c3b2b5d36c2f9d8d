import OriGateway.Foundation.Bytes

/-! # UTF-8

Decoding of byte strings into Unicode scalar values, as the standard decoders do it: an ill-formed
sequence stands for one replacement character and consumes one byte. -/

namespace Foundation

namespace Utf8

/-- Whether a byte may continue a sequence, within the bounds its lead byte leaves. -/
def continues (low high : Nat) (b : UInt8) : Bool :=
  decide (low ≤ b.toNat) && decide (b.toNat ≤ high)

def tailBits (b : UInt8) : Nat := b.toNat % 64

/-- The least second byte after a lead byte: overlong forms are excluded. -/
def secondLow (n : Nat) : Nat := if n = 0xE0 then 0xA0 else if n = 0xF0 then 0x90 else 0x80

/-- The greatest second byte after a lead byte: surrogates and values past `0x10FFFF` are
excluded. -/
def secondHigh (n : Nat) : Nat := if n = 0xED then 0x9F else if n = 0xF4 then 0x8F else 0xBF

/-- The scalar value that a lead byte and what follows it encode, with the number of continuation
bytes; `none` when the sequence is ill formed. -/
def decodeRune (lead : UInt8) (rest : Bytes) : Option (Nat × Nat) :=
  let n := lead.toNat
  if n < 0x80 then some (n, 0)
  else if 0xC2 ≤ n ∧ n ≤ 0xDF then
    match rest with
    | b :: _ => if continues 0x80 0xBF b then some (n % 32 * 64 + tailBits b, 1) else none
    | _ => none
  else if 0xE0 ≤ n ∧ n ≤ 0xEF then
    match rest with
    | b :: c :: _ =>
      if continues (secondLow n) (secondHigh n) b && continues 0x80 0xBF c then
        some (n % 16 * 4096 + tailBits b * 64 + tailBits c, 2)
      else none
    | _ => none
  else if 0xF0 ≤ n ∧ n ≤ 0xF4 then
    match rest with
    | b :: c :: d :: _ =>
      if continues (secondLow n) (secondHigh n) b && continues 0x80 0xBF c &&
          continues 0x80 0xBF d then
        some (n % 8 * 262144 + tailBits b * 4096 + tailBits c * 64 + tailBits d, 3)
      else none
    | _ => none
  else none

/-- The scalar values of a byte string, `none` for each ill-formed byte. The counter is the number
of continuation bytes of the last value still to pass over. -/
def runesFrom : Nat → Bytes → List (Option Nat)
  | _, [] => []
  | skip + 1, _ :: rest => runesFrom skip rest
  | 0, b :: rest =>
    match decodeRune b rest with
    | some (r, n) => some r :: runesFrom n rest
    | none => none :: runesFrom 0 rest

/-- The scalar values of a byte string, `none` for each ill-formed byte. -/
def runes (bs : Bytes) : List (Option Nat) := runesFrom 0 bs

def valid (bs : Bytes) : Bool := (runes bs).all Option.isSome

/-- The encoding of a scalar value. -/
def encodeRune (r : Nat) : Bytes :=
  if r < 0x80 then [UInt8.ofNat r]
  else if r < 0x800 then [UInt8.ofNat (0xC0 + r / 64), UInt8.ofNat (0x80 + r % 64)]
  else if r < 0x10000 then
    [UInt8.ofNat (0xE0 + r / 4096), UInt8.ofNat (0x80 + r / 64 % 64), UInt8.ofNat (0x80 + r % 64)]
  else
    [UInt8.ofNat (0xF0 + r / 262144), UInt8.ofNat (0x80 + r / 4096 % 64),
      UInt8.ofNat (0x80 + r / 64 % 64), UInt8.ofNat (0x80 + r % 64)]

def replacement : Nat := 0xFFFD

theorem decodeRune_ascii {b : UInt8} (h : b.toNat < 0x80) (rest : Bytes) :
    decodeRune b rest = some (b.toNat, 0) := by
  simp [decodeRune, h]

end Utf8

end Foundation
