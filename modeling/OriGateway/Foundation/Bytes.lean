import Mathlib

/-! # Byte strings and their text encodings

A byte string is a list of bytes. Here are the three text encodings that durable records are written
in, decimal, lower-case hexadecimal and standard padded Base64, with the functions that read them.
The Base64 reader ignores line breaks and the unused low bits of a final quantum. Besides the round
trips, the lengths are computed exactly, for a reader that reserves room for the largest record. -/

namespace Foundation

abbrev Bytes := List UInt8

instance : LawfulBEq Bytes := inferInstance

instance : IsTrans Bytes (· ≤ ·) := inferInstance

instance : Std.Antisymm (α := Bytes) (· ≤ ·) := inferInstance

instance : Std.Total (α := Bytes) (· ≤ ·) := inferInstance

def ascii (text : String) : Bytes := text.toByteArray.data.toList

/-! ## Decimal integers -/

def digit (d : Nat) : UInt8 := UInt8.ofNat (48 + d)

def isDigit (b : UInt8) : Bool := decide (48 ≤ b.toNat) && decide (b.toNat ≤ 57)

/-- The decimal digits of a natural number, most significant first. -/
def decimal (n : Nat) : Bytes :=
  if n = 0 then [48] else (Nat.digits 10 n).reverse.map digit

/-- The value of a run of decimal digits, most significant first. -/
def parseDigits (ds : Bytes) : Nat := ds.foldl (fun acc d => acc * 10 + (d.toNat - 48)) 0

def formatInt (z : Int) : Bytes :=
  if z < 0 then 45 :: decimal z.natAbs else decimal z.natAbs

/-- Read a decimal integer. -/
def parseInt : Bytes → Option Int
  | [] => none
  | 45 :: ds => if ds ≠ [] ∧ ds.all isDigit then some (-(parseDigits ds : Int)) else none
  | ds => if ds.all isDigit then some (parseDigits ds : Int) else none

theorem digit_toNat {d : Nat} (h : d < 10) : (digit d).toNat = 48 + d := by
  have hlt : 48 + d < 2 ^ 8 := by omega
  simp only [digit, UInt8.toNat_ofNat', Nat.mod_eq_of_lt hlt]

theorem isDigit_digit {d : Nat} (h : d < 10) : isDigit (digit d) = true := by
  have hn := digit_toNat h
  simp only [isDigit, hn, Bool.and_eq_true, decide_eq_true_eq]
  omega

theorem decimal_isDigit (n : Nat) : ∀ b ∈ decimal n, isDigit b = true := by
  intro b hb
  unfold decimal at hb
  split at hb
  · rw [List.mem_singleton] at hb
    subst hb
    decide
  · simp only [List.mem_map, List.mem_reverse] at hb
    obtain ⟨d, hd, rfl⟩ := hb
    exact isDigit_digit (Nat.digits_lt_base (by norm_num) hd)

theorem decimal_ne_nil (n : Nat) : decimal n ≠ [] := by
  unfold decimal
  split
  · simp
  · next h =>
    simp only [ne_eq, List.map_eq_nil_iff, List.reverse_eq_nil_iff]
    exact Nat.digits_ne_nil_iff_ne_zero.mpr h

theorem parseDigits_reverse_map_digit (ds : List Nat) (h : ∀ d ∈ ds, d < 10) :
    parseDigits (ds.reverse.map digit) = Nat.ofDigits 10 ds := by
  unfold parseDigits
  rw [List.map_reverse, List.foldl_reverse]
  induction ds with
  | nil => rfl
  | cons d ds ih =>
    have hd := digit_toNat (h d (by simp))
    have htail := ih fun x hx => h x (by simp [hx])
    simp only [List.map_cons, List.foldr_cons, Nat.ofDigits_cons, hd, htail]
    omega

/-- **Decimal digits read back.** -/
@[simp] theorem parseDigits_decimal (n : Nat) : parseDigits (decimal n) = n := by
  unfold decimal
  split
  · next h => subst h; rfl
  · rw [parseDigits_reverse_map_digit _ fun d hd => Nat.digits_lt_base (by norm_num) hd]
    exact Nat.ofDigits_digits 10 n

theorem decimal_head_ne_minus (n : Nat) (b : UInt8) (ds : Bytes) (h : decimal n = b :: ds) :
    b ≠ 45 := by
  rintro rfl
  have := decimal_isDigit n 45 (by simp [h])
  exact absurd this (by decide)

theorem parseInt_decimal (n : Nat) : parseInt (decimal n) = some (n : Int) := by
  have hall : (decimal n).all isDigit = true := List.all_eq_true.mpr (decimal_isDigit n)
  have hval := parseDigits_decimal n
  cases h : decimal n with
  | nil => exact absurd h (decimal_ne_nil n)
  | cons b ds =>
    have hb := decimal_head_ne_minus n b ds h
    rw [h] at hall hval
    unfold parseInt
    split
    · next heq => cases heq
    · next heq => exact absurd (List.cons.inj heq).1 hb
    · next heq => rw [if_pos hall, hval]

/-- **Integers read back from their decimal form.** -/
@[simp] theorem parseInt_formatInt (z : Int) : parseInt (formatInt z) = some z := by
  unfold formatInt
  split
  · next h =>
    have hall : (decimal z.natAbs).all isDigit = true :=
      List.all_eq_true.mpr (decimal_isDigit z.natAbs)
    unfold parseInt
    simp only [ne_eq, decimal_ne_nil, not_false_eq_true, hall, and_self, if_true,
      parseDigits_decimal]
    congr 1
    omega
  · rw [parseInt_decimal]
    congr 1
    omega

theorem decimal_length_le {n k : Nat} (hk : 0 < k) (h : n < 10 ^ k) : (decimal n).length ≤ k := by
  unfold decimal
  split
  · simpa using Nat.one_le_iff_ne_zero.mpr hk.ne'
  · rw [List.length_map, List.length_reverse]
    exact (Nat.digits_length_le_iff (by norm_num) n).mpr h

/-- The decimal form of a non-negative integer below `10 ^ k` has at most `k` digits. -/
theorem formatInt_length_le {z : Int} {k : Nat} (hk : 0 < k) (h0 : 0 ≤ z) (h : z < 10 ^ k) :
    (formatInt z).length ≤ k := by
  rw [formatInt, if_neg (not_lt.mpr h0)]
  refine decimal_length_le hk ?_
  zify
  rwa [abs_of_nonneg h0]

/-! ## Hexadecimal -/

def hexDigit (d : Nat) : UInt8 := UInt8.ofNat (if d < 10 then 48 + d else 87 + d)

def hexEncode (bs : Bytes) : Bytes :=
  bs.flatMap fun b => [hexDigit (b.toNat / 16), hexDigit (b.toNat % 16)]

@[simp] theorem hexEncode_length (bs : Bytes) : (hexEncode bs).length = 2 * bs.length := by
  induction bs with
  | nil => rfl
  | cons b bs ih =>
    simp only [hexEncode, List.flatMap_cons, List.length_append, List.length_cons,
      List.length_nil] at ih ⊢
    omega

def isHexDigit (b : UInt8) : Bool :=
  isDigit b || (decide (97 ≤ b.toNat) && decide (b.toNat ≤ 102))

theorem isHexDigit_hexDigit : ∀ d < 16, isHexDigit (hexDigit d) = true := by decide

theorem hexEncode_isHexDigit (bs : Bytes) : ∀ b ∈ hexEncode bs, isHexDigit b = true := by
  intro b hb
  simp only [hexEncode, List.mem_flatMap, List.mem_cons, List.not_mem_nil, or_false] at hb
  obtain ⟨a, -, rfl | rfl⟩ := hb
  · refine isHexDigit_hexDigit _ ?_
    have := a.toNat_lt
    omega
  · exact isHexDigit_hexDigit _ (Nat.mod_lt _ (by norm_num))

/-! ## Base64 -/

def base64Letter (d : Nat) : UInt8 :=
  UInt8.ofNat <|
    if d < 26 then 65 + d else if d < 52 then 71 + d else if d < 62 then d - 4
    else if d = 62 then 43 else 47

/-- The value of a letter. -/
def base64Value (b : UInt8) : Option Nat :=
  let n := b.toNat
  if 65 ≤ n ∧ n ≤ 90 then some (n - 65)
  else if 97 ≤ n ∧ n ≤ 122 then some (n - 71)
  else if 48 ≤ n ∧ n ≤ 57 then some (n + 4)
  else if n = 43 then some 62
  else if n = 47 then some 63
  else none

/-- The standard encoding. -/
def base64Encode : Bytes → Bytes
  | [] => []
  | [a] =>
    [base64Letter (a.toNat / 4), base64Letter (a.toNat % 4 * 16), 61, 61]
  | [a, b] =>
    [base64Letter (a.toNat / 4), base64Letter (a.toNat % 4 * 16 + b.toNat / 16),
      base64Letter (b.toNat % 16 * 4), 61]
  | a :: b :: c :: rest =>
    base64Letter (a.toNat / 4) :: base64Letter (a.toNat % 4 * 16 + b.toNat / 16) ::
      base64Letter (b.toNat % 16 * 4 + c.toNat / 64) :: base64Letter (c.toNat % 64) ::
      base64Encode rest

/-- Read quanta of four Base64 letters. Padding ends the text; the unused low bits of a padded
quantum are not checked. -/
def base64Quanta : Bytes → Option Bytes
  | [] => some []
  | p :: q :: r :: s :: rest =>
    match base64Value p, base64Value q with
    | some x, some y =>
      let first := UInt8.ofNat (x * 4 + y / 16)
      if s = 61 then
        if rest ≠ [] then none
        else if r = 61 then some [first]
        else (base64Value r).map fun z => [first, UInt8.ofNat (y % 16 * 16 + z / 4)]
      else
        match base64Value r, base64Value s, base64Quanta rest with
        | some z, some w, some tail =>
          some (first :: UInt8.ofNat (y % 16 * 16 + z / 4) ::
            UInt8.ofNat (z % 4 * 64 + w) :: tail)
        | _, _, _ => none
    | _, _ => none
  | _ => none

def base64Decode (text : Bytes) : Option Bytes :=
  base64Quanta (text.filter fun b => !(b == 10 || b == 13))

/-- Read Base64 whose unused low bits are zero; line breaks are still ignored. -/
def base64DecodeStrict (text : Bytes) : Option Bytes :=
  (base64Decode text).filter fun bs => base64Encode bs == text.filter fun b => !(b == 10 || b == 13)

theorem base64Value_letter : ∀ d < 64, base64Value (base64Letter d) = some d := by decide

theorem base64Letter_ne_pad : ∀ d < 64, base64Letter d ≠ 61 := by decide

def isBase64 (b : UInt8) : Bool := b == 61 || (base64Value b).isSome

theorem isBase64_letter (d : Nat) (h : d < 64) : isBase64 (base64Letter d) = true := by
  simp [isBase64, base64Value_letter d h]

theorem base64Encode_isBase64 (bs : Bytes) : ∀ b ∈ base64Encode bs, isBase64 b = true := by
  have hbyte : ∀ a : UInt8, a.toNat < 256 := fun a => a.toNat_lt
  induction bs using base64Encode.induct with
  | case1 => simp [base64Encode]
  | case2 a =>
    have ha := hbyte a
    simp only [base64Encode, List.mem_cons, List.not_mem_nil, or_false]
    rintro x (rfl | rfl | rfl | rfl)
    all_goals first | rfl | exact isBase64_letter _ (by omega)
  | case3 a b =>
    have ha := hbyte a
    have hb := hbyte b
    simp only [base64Encode, List.mem_cons, List.not_mem_nil, or_false]
    rintro x (rfl | rfl | rfl | rfl)
    all_goals first | rfl | exact isBase64_letter _ (by omega)
  | case4 a b c rest ih =>
    have ha := hbyte a
    have hb := hbyte b
    have hc := hbyte c
    simp only [base64Encode, List.mem_cons]
    rintro x (rfl | rfl | rfl | rfl | hx)
    all_goals first | exact ih x hx | exact isBase64_letter _ (by omega)

theorem base64Encode_filter (bs : Bytes) :
    (base64Encode bs).filter (fun b => !(b == 10 || b == 13)) = base64Encode bs := by
  rw [List.filter_eq_self]
  intro b hb
  have h := base64Encode_isBase64 bs b hb
  have hten : b ≠ 10 := by rintro rfl; exact absurd h (by decide)
  have hthirteen : b ≠ 13 := by rintro rfl; exact absurd h (by decide)
  simp [hten, hthirteen]

theorem base64Quanta_encode (bs : Bytes) : base64Quanta (base64Encode bs) = some bs := by
  have hbyte : ∀ a : UInt8, a.toNat < 256 := fun a => a.toNat_lt
  induction bs using base64Encode.induct with
  | case1 => rfl
  | case2 a =>
    have ha := hbyte a
    have hfirst : UInt8.ofNat (a.toNat / 4 * 4 + a.toNat % 4 * 16 / 16) = a := by
      rw [show a.toNat / 4 * 4 + a.toNat % 4 * 16 / 16 = a.toNat by omega, UInt8.ofNat_toNat]
    simp only [base64Encode, base64Quanta, base64Value_letter _ (by omega : a.toNat / 4 < 64),
      base64Value_letter _ (by omega : a.toNat % 4 * 16 < 64), ne_eq, not_true_eq_false,
      if_false, if_true, hfirst]
  | case3 a b =>
    have ha := hbyte a
    have hb := hbyte b
    have hr : base64Letter (b.toNat % 16 * 4) ≠ 61 := base64Letter_ne_pad _ (by omega)
    have hfirst : UInt8.ofNat (a.toNat / 4 * 4 + (a.toNat % 4 * 16 + b.toNat / 16) / 16) = a := by
      rw [show a.toNat / 4 * 4 + (a.toNat % 4 * 16 + b.toNat / 16) / 16 = a.toNat by omega,
        UInt8.ofNat_toNat]
    have hsecond : UInt8.ofNat ((a.toNat % 4 * 16 + b.toNat / 16) % 16 * 16
        + b.toNat % 16 * 4 / 4) = b := by
      rw [show (a.toNat % 4 * 16 + b.toNat / 16) % 16 * 16 + b.toNat % 16 * 4 / 4 = b.toNat
        by omega, UInt8.ofNat_toNat]
    simp only [base64Encode, base64Quanta, base64Value_letter _ (by omega : a.toNat / 4 < 64),
      base64Value_letter _ (by omega : a.toNat % 4 * 16 + b.toNat / 16 < 64),
      base64Value_letter _ (by omega : b.toNat % 16 * 4 < 64), ne_eq, not_true_eq_false,
      if_false, if_true, if_neg hr, Option.map_some, hfirst, hsecond]
  | case4 a b c rest ih =>
    have ha := hbyte a
    have hb := hbyte b
    have hc := hbyte c
    have hs : base64Letter (c.toNat % 64) ≠ 61 := base64Letter_ne_pad _ (by omega)
    have hfirst : UInt8.ofNat (a.toNat / 4 * 4 + (a.toNat % 4 * 16 + b.toNat / 16) / 16) = a := by
      rw [show a.toNat / 4 * 4 + (a.toNat % 4 * 16 + b.toNat / 16) / 16 = a.toNat by omega,
        UInt8.ofNat_toNat]
    have hsecond : UInt8.ofNat ((a.toNat % 4 * 16 + b.toNat / 16) % 16 * 16
        + (b.toNat % 16 * 4 + c.toNat / 64) / 4) = b := by
      rw [show (a.toNat % 4 * 16 + b.toNat / 16) % 16 * 16
        + (b.toNat % 16 * 4 + c.toNat / 64) / 4 = b.toNat by omega, UInt8.ofNat_toNat]
    have hthird : UInt8.ofNat ((b.toNat % 16 * 4 + c.toNat / 64) % 4 * 64 + c.toNat % 64) = c := by
      rw [show (b.toNat % 16 * 4 + c.toNat / 64) % 4 * 64 + c.toNat % 64 = c.toNat by omega,
        UInt8.ofNat_toNat]
    simp only [base64Encode, base64Quanta, base64Value_letter _ (by omega : a.toNat / 4 < 64),
      base64Value_letter _ (by omega : a.toNat % 4 * 16 + b.toNat / 16 < 64),
      base64Value_letter _ (by omega : b.toNat % 16 * 4 + c.toNat / 64 < 64),
      base64Value_letter _ (by omega : c.toNat % 64 < 64), if_neg hs, ih, hfirst, hsecond, hthird]

/-- **Base64 text reads back as the bytes it was written from.** -/
@[simp] theorem base64Decode_encode (bs : Bytes) : base64Decode (base64Encode bs) = some bs := by
  rw [base64Decode, base64Encode_filter, base64Quanta_encode]

/-- **The exact length of a Base64 form.** -/
@[simp] theorem base64Encode_length (bs : Bytes) :
    (base64Encode bs).length = 4 * ((bs.length + 2) / 3) := by
  induction bs using base64Encode.induct with
  | case1 => rfl
  | case2 a => simp [base64Encode]
  | case3 a b => simp [base64Encode]
  | case4 a b c rest ih =>
    simp only [base64Encode, List.length_cons, ih]
    omega

end Foundation
