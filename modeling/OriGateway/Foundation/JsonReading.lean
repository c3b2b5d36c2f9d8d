import OriGateway.Foundation.JsonStrings

/-! # Raw strings, character by character

A raw string is read one escape or one UTF-8 sequence at a time. Said once as an induction
(**`RawString.read_induction`**), this is what every fact about raw strings here rests on: what is
read is well-formed UTF-8, the raw form with the fewest escapes (**`minimal`**) reads back, and so
does the one a writer makes of a raw string it copies (**`htmlEscape`**). -/

namespace Foundation

/-- A property of all 256 bytes, to be decided. -/
theorem forall_byte {p : UInt8 → Prop} (h : ∀ n < 256, p (UInt8.ofNat n)) (b : UInt8) : p b := by
  have hb := h b.toNat b.toNat_lt
  rwa [UInt8.ofNat_toNat] at hb

namespace Utf8

variable {lead : UInt8} {cont : Bytes} {rune : Nat}

/-- The continuation bytes of a sequence are below every lead byte. -/
theorem Decodes.cont_lt (h : Decodes lead cont rune) : ∀ b ∈ cont, b.toNat < 0xC0 := by
  have hencode := h.encode
  unfold encodeRune at hencode
  split_ifs at hencode
  all_goals
    obtain ⟨-, rfl⟩ := List.cons.inj hencode
    simp <;> omega

/-- A scalar value: a code point that is no surrogate. -/
def IsScalar (rune : Nat) : Prop := rune < 0xD800 ∨ 0xE000 ≤ rune ∧ rune < 0x110000

/-- A sequence has at most three continuation bytes. -/
theorem Decodes.cont_length_le (h : Decodes lead cont rune) : cont.length ≤ 3 := by
  have hencode := h.encode
  unfold encodeRune at hencode
  split_ifs at hencode
  all_goals
    obtain ⟨-, rfl⟩ := List.cons.inj hencode
    simp

/-- A well-formed string has at most four bytes a rune. -/
theorem length_le_of_valid {s : Bytes} (h : valid s = true) : s.length ≤ 4 * (runes s).length := by
  induction s using sequence_induction with
  | nil => simp
  | invalid b rest hdec ih => simp [valid, runes, runesFrom, hdec] at h
  | sequence lead cont after rune hd ih =>
    rw [valid_cons hd] at h
    have hafter := ih h
    have hcont := hd.cont_length_le
    have hrunes : (runes (lead :: (cont ++ after))).length = (runes after).length + 1 := by
      simp [runes, runesFrom, hd.decode after, runesFrom_skip]
    simp only [List.length_cons, List.length_append, hrunes]
    omega

/-- **The form of a scalar value decodes to it.** -/
theorem decodes_encodeRune (h : IsScalar rune) :
    ∃ lead cont, encodeRune rune = lead :: cont ∧ Decodes lead cont rune := by
  unfold IsScalar at h
  have hof : ∀ n < 256, (UInt8.ofNat n).toNat = n := fun n hn => UInt8.toNat_ofNat_of_lt' hn
  unfold encodeRune
  split_ifs with h1 h2 h3
  · refine ⟨_, _, rfl, fun after => ?_, ?_, by simp⟩
    · have hrune := decodeRune_ascii (b := UInt8.ofNat rune) (by rw [hof _ (by omega)]; exact h1)
        after
      rwa [hof _ (by omega)] at hrune
    · rw [encodeRune, if_pos h1]
  · have hl := hof (0xC0 + rune / 64) (by omega)
    have hb := hof (0x80 + rune % 64) (by omega)
    have hd := @decodes_two (UInt8.ofNat (0xC0 + rune / 64)) (UInt8.ofNat (0x80 + rune % 64))
      (by omega)
      (continues_iff.mpr (by omega))
    rw [tailBits, hl, hb, show (0xC0 + rune / 64) % 32 * 64 + (0x80 + rune % 64) % 64
      = rune by omega] at hd
    exact ⟨_, _, rfl, hd⟩
  · have hl := hof (0xE0 + rune / 4096) (by omega)
    have hb := hof (0x80 + rune / 64 % 64) (by omega)
    have hc := hof (0x80 + rune % 64) (by omega)
    have hd := @decodes_three (UInt8.ofNat (0xE0 + rune / 4096))
      (UInt8.ofNat (0x80 + rune / 64 % 64))
      (UInt8.ofNat (0x80 + rune % 64)) (by omega)
      (continues_iff.mpr (by rw [hl, hb]; unfold secondLow secondHigh; split_ifs <;> omega))
      (continues_iff.mpr (by omega))
    rw [tailBits, tailBits, hl, hb, hc, show (0xE0 + rune / 4096) % 16 * 4096 +
      (0x80 + rune / 64 % 64) % 64 * 64 + (0x80 + rune % 64) % 64 = rune by omega] at hd
    exact ⟨_, _, rfl, hd⟩
  · have hl := hof (0xF0 + rune / 262144) (by omega)
    have hb := hof (0x80 + rune / 4096 % 64) (by omega)
    have hc := hof (0x80 + rune / 64 % 64) (by omega)
    have hd := hof (0x80 + rune % 64) (by omega)
    have hdec := @decodes_four (UInt8.ofNat (0xF0 + rune / 262144))
      (UInt8.ofNat (0x80 + rune / 4096 % 64))
      (UInt8.ofNat (0x80 + rune / 64 % 64)) (UInt8.ofNat (0x80 + rune % 64)) (by omega)
      (continues_iff.mpr (by rw [hl, hb]; unfold secondLow secondHigh; split_ifs <;> omega))
      (continues_iff.mpr (by omega)) (continues_iff.mpr (by omega))
    rw [tailBits, tailBits, tailBits, hl, hb, hc, hd, show (0xF0 + rune / 262144) % 8 * 262144 +
      (0x80 + rune / 4096 % 64) % 64 * 4096 + (0x80 + rune / 64 % 64) % 64 * 64 +
      (0x80 + rune % 64) % 64 = rune by omega] at hdec
    exact ⟨_, _, rfl, hdec⟩

/-- A scalar value in front of a string leaves it well formed or ill formed as it is. -/
theorem valid_encodeRune_append (h : IsScalar rune) (after : Bytes) :
    valid (encodeRune rune ++ after) = valid after := by
  obtain ⟨lead, cont, hencode, hdecodes⟩ := decodes_encodeRune h
  rw [hencode]
  exact valid_cons hdecodes

end Utf8

namespace Json

variable {b c lead p q r t p' q' r' t' : UInt8} {cont raw : Bytes} {u u' rune : Nat} {after : Bytes}
  {depth : Nat} {members : List (Bytes × Json)}

/-! ## Characters -/

/-- A raw string stays one without a first byte that starts no escape. -/
theorem RawString.tail (hb : b ≠ 92) (h : RawString (b :: raw)) : RawString raw := by
  cases h with
  | unit | simple => exact absurd rfl hb
  | byte _ _ _ hraw => exact hraw

/-- A raw string stays one without the bytes beyond ASCII in front of it. -/
theorem RawString.of_high (hcont : ∀ b ∈ cont, 0x80 ≤ b.toNat) (h : RawString (cont ++ after)) :
    RawString after := by
  induction cont with
  | nil => exact h
  | cons b cont ih =>
    have hb : b ≠ 92 := by
      rintro rfl
      exact absurd (hcont 92 List.mem_cons_self) (by decide)
    exact ih (fun c hc => hcont c (List.mem_cons_of_mem b hc)) (h.tail hb)

/-- A raw string stays one with bytes beyond ASCII in front of it. -/
theorem RawString.high_append (hcont : ∀ b ∈ cont, 0x80 ≤ b.toNat)
    (h : RawString raw) : RawString (cont ++ raw) := by
  induction cont with
  | nil => exact h
  | cons b cont ih =>
    have hb := hcont b List.mem_cons_self
    have hne : ∀ c : UInt8, c.toNat < 0x80 → b ≠ c := by
      rintro c hc rfl
      omega
    exact .byte (hne 34 (by decide)) (hne 92 (by decide)) (by omega)
      (ih fun c hc => hcont c (List.mem_cons_of_mem b hc))

/-- A surrogate that no escape follows is read as the replacement character. -/
theorem unitRune_lone (hs : isSurrogate u = true)
    (h : ∀ p q r t rest, after ≠ 92 :: 117 :: p :: q :: r :: t :: rest) :
    unitRune u after = (Utf8.replacement, 0) := by
  unfold unitRune
  rw [if_pos hs]
  split
  · next p q r t rest => exact absurd rfl (h p q r t rest)
  · rfl

/-- **Induction over a raw string character by character**: an escape that is a scalar value, a
surrogate pair, a surrogate alone, a simple escape, a UTF-8 sequence or an ill-formed byte is taken
off at a time. -/
theorem RawString.read_induction {motive : Bytes → Prop} (nil : motive [])
    (unit : ∀ {p q r t : UInt8} {raw : Bytes} {u : Nat}, hexUnit p q r t = some u →
      isSurrogate u = false → RawString raw → motive raw →
      motive (92 :: 117 :: p :: q :: r :: t :: raw))
    (pair : ∀ {p q r t p' q' r' t' : UInt8} {raw : Bytes} {u u' rune : Nat},
      hexUnit p q r t = some u → hexUnit p' q' r' t' = some u' → surrogatePair u u' = some rune →
      RawString raw → motive raw →
      motive (92 :: 117 :: p :: q :: r :: t :: 92 :: 117 :: p' :: q' :: r' :: t' :: raw))
    (lone : ∀ {p q r t : UInt8} {raw : Bytes} {u : Nat}, hexUnit p q r t = some u →
      unitRune u raw = (Utf8.replacement, 0) → isSurrogate u = true → RawString raw → motive raw →
      motive (92 :: 117 :: p :: q :: r :: t :: raw))
    (simple : ∀ {c : UInt8} {raw : Bytes}, isSimpleEscape c = true → RawString raw → motive raw →
      motive (92 :: c :: raw))
    (sequence : ∀ {lead : UInt8} {cont raw : Bytes} {rune : Nat}, Utf8.Decodes lead cont rune →
      lead ≠ 34 → lead ≠ 92 → 32 ≤ lead.toNat → RawString raw → motive raw →
      motive (lead :: (cont ++ raw)))
    (invalid : ∀ {b : UInt8} {raw : Bytes}, Utf8.decodeRune b raw = none → b ≠ 34 → b ≠ 92 →
      32 ≤ b.toNat → RawString raw → motive raw → motive (b :: raw)) (h : RawString raw) :
    motive raw := by
  induction hn : raw.length using Nat.strong_induction_on generalizing raw with
  | _ n ih =>
    subst hn
    cases h with
    | nil => exact nil
    | simple hsimple hraw => exact simple hsimple hraw (ih _ (by simp) hraw rfl)
    | @byte b raw hquote hback hlow hraw =>
      cases hdecode : Utf8.decodeRune b raw with
      | none => exact invalid hdecode hquote hback hlow hraw (ih _ (by simp) hraw rfl)
      | some d =>
        obtain ⟨cont, after, rfl, -, hd⟩ := Utf8.decodes_of_decodeRune hdecode
        have hafter := hraw.of_high hd.high
        exact sequence hd hquote hback hlow hafter (ih _ (by simp) hafter rfl)
    | @unit p q r t raw hunit hraw =>
      obtain ⟨u, hu⟩ := Option.isSome_iff_exists.mp hunit
      have htail := ih _ (by simp; omega) hraw rfl
      cases hs : isSurrogate u with
      | false => exact unit hu hs hraw htail
      | true =>
        -- a surrogate is half of a pair only if the text goes on with the other half
        cases hraw with
        | @unit p' q' r' t' raw hunit' hraw' =>
          obtain ⟨u', hu'⟩ := Option.isSome_iff_exists.mp hunit'
          cases hpair : surrogatePair u u' with
          | some rune => exact pair hu hu' hpair hraw' (ih _ (by simp; omega) hraw' rfl)
          | none => exact lone hu (by simp [unitRune, hs, hu', hpair]) hs (.unit hunit' hraw') htail
        | nil => exact lone hu (unitRune_lone hs (by simp)) hs .nil htail
        | @simple c raw hsimple hraw' =>
          have hc : c ≠ 117 := by
            rintro rfl
            exact absurd hsimple (by decide)
          exact lone hu (unitRune_lone hs (by simp [hc])) hs (.simple hsimple hraw') htail
        | byte hquote hback hlow hraw' =>
          exact lone hu (unitRune_lone hs (by simp [hback])) hs (.byte hquote hback hlow hraw')
            htail

/-- Four hexadecimal digits are a 16-bit unit. -/
theorem hexUnit_lt (h : hexUnit p q r t = some u) : u < 0x10000 := by
  have hvalue : ∀ {b : UInt8} {n : Nat}, hexValue b = some n → n < 16 := by
    intro b n hb
    simp only [hexValue] at hb
    split_ifs at hb <;> simp at hb <;> omega
  unfold hexUnit at h
  split at h
  · next a b c d ha hb hc hd =>
    have ha := hvalue ha
    have hb := hvalue hb
    have hc := hvalue hc
    have hd := hvalue hd
    cases h
    omega
  · cases h

theorem ge_of_hexValue {n : Nat} (h : hexValue b = some n) : 32 ≤ b.toNat := by
  simp only [hexValue] at h
  split_ifs at h <;> omega

/-- **A raw string holds no control character.** -/
theorem RawString.ge (h : RawString raw) : ∀ b ∈ raw, 32 ≤ b.toNat := by
  induction h with
  | nil => simp
  | @unit p q r t raw hunit _ ih =>
    obtain ⟨u, hu⟩ := Option.isSome_iff_exists.mp hunit
    unfold hexUnit at hu
    split at hu
    · next ha hb hc hd =>
      simpa [ge_of_hexValue ha, ge_of_hexValue hb, ge_of_hexValue hc, ge_of_hexValue hd] using ih
    · cases hu
  | @simple c raw hsimple _ ih =>
    have hc : 32 ≤ c.toNat := by
      simp only [isSimpleEscape, Bool.or_eq_true, beq_iff_eq] at hsimple
      rcases hsimple with ((((((rfl | rfl) | rfl) | rfl) | rfl) | rfl) | rfl) | rfl <;> decide
    simpa [hc] using ih
  | byte _ _ hlow _ ih => simpa [hlow] using ih

/-- A surrogate pair is a scalar value. -/
theorem isScalar_surrogatePair (h : surrogatePair u u' = some rune) :
    Utf8.IsScalar rune ∧ isSurrogate u = true := by
  unfold surrogatePair at h
  split_ifs at h with hrange
  cases h
  unfold Utf8.IsScalar
  simp only [isSurrogate, Bool.and_eq_true, decide_eq_true_eq]
  omega

/-- A unit that is no surrogate is a scalar value. -/
theorem isScalar_unit (hu : hexUnit p q r t = some u) (hs : isSurrogate u = false) :
    Utf8.IsScalar u := by
  have hlt := hexUnit_lt hu
  unfold Utf8.IsScalar
  simp only [isSurrogate, Bool.and_eq_false_iff, decide_eq_false_iff_not] at hs
  omega

/-! ## What each character is read as -/

theorem unquoteFrom_pair (hu : hexUnit p q r t = some u) (hu' : hexUnit p' q' r' t' = some u')
    (hpair : surrogatePair u u' = some rune) (raw : Bytes) :
    unquoteFrom 0 (92 :: 117 :: p :: q :: r :: t :: 92 :: 117 :: p' :: q' :: r' :: t' :: raw)
      = Utf8.encodeRune rune ++ unquoteFrom 0 raw := by
  have hs := (isScalar_surrogatePair hpair).2
  rw [unquoteFrom_zero]
  simp only [if_true, hu, Option.getD_some, unitRune, hs, hu', Option.bind_some, hpair]
  rfl

theorem unquoteFrom_lone (hu : hexUnit p q r t = some u)
    (hlone : unitRune u raw = (Utf8.replacement, 0)) :
    unquoteFrom 0 (92 :: 117 :: p :: q :: r :: t :: raw)
      = Utf8.encodeRune Utf8.replacement ++ unquoteFrom 0 raw := by
  rw [unquoteFrom_zero]
  simp only [if_true, hu, Option.getD_some, hlone]
  rfl

theorem unquoteFrom_invalid (h : Utf8.decodeRune b raw = none) :
    unquoteFrom 0 (b :: raw) = Utf8.encodeRune Utf8.replacement ++ unquoteFrom 0 raw := by
  have hback : b ≠ 92 := by
    rintro rfl
    rw [Utf8.decodeRune_ascii (by decide)] at h
    cases h
  rw [unquoteFrom_zero]
  simp only [if_neg hback, h]

theorem ne_unit_of_isSimpleEscape (h : isSimpleEscape c = true) : c ≠ 117 := by
  rintro rfl
  exact absurd h (by decide)

/-- A simple escape stands for an ASCII character. -/
theorem simpleEscape_lt (c : UInt8) (h : isSimpleEscape c = true) :
    (simpleEscape c).toNat < 0x80 := by
  revert c
  exact forall_byte (by decide +kernel)

/-- An ASCII character is a sequence by itself. -/
theorem decodes_ascii (h : b.toNat < 0x80) : Utf8.Decodes b [] b.toNat := by
  refine ⟨fun after => Utf8.decodeRune_ascii h _, ?_, by simp⟩
  rw [Utf8.encodeRune, if_pos h, UInt8.ofNat_toNat]

/-- **What is read is well-formed UTF-8.** -/
theorem RawString.valid_unquote (h : RawString raw) : Utf8.valid (unquote raw) = true := by
  unfold unquote
  apply h.read_induction (motive := fun raw => Utf8.valid (unquoteFrom 0 raw) = true)
  case nil => rfl
  case unit =>
    intro p q r t raw u hu hs _ ih
    rw [unquoteFrom_unit hu hs, Utf8.valid_encodeRune_append (isScalar_unit hu hs), ih]
  case pair =>
    intro p q r t p' q' r' t' raw u u' rune hu hu' hpair _ ih
    rw [unquoteFrom_pair hu hu' hpair,
      Utf8.valid_encodeRune_append (isScalar_surrogatePair hpair).1, ih]
  case lone =>
    intro p q r t raw u hu hlone _ _ ih
    rw [unquoteFrom_lone hu hlone, Utf8.valid_encodeRune_append (.inr (by decide)), ih]
  case simple =>
    intro c raw hsimple _ ih
    rw [unquoteFrom_simple (ne_unit_of_isSimpleEscape hsimple)]
    exact (Utf8.valid_cons (decodes_ascii (simpleEscape_lt c hsimple))).trans ih
  case sequence =>
    intro lead cont raw rune hd _ hback _ _ ih
    rw [unquoteFrom_sequence hd hback]
    exact (Utf8.valid_cons hd).trans ih
  case invalid =>
    intro b raw hdecode _ _ _ _ ih
    rw [unquoteFrom_invalid hdecode, Utf8.valid_encodeRune_append (.inr (by decide)), ih]

/-! ## Strings in which nothing is replaced -/

/-- Whether every character of a raw string is a scalar value: no byte is ill formed and no
surrogate is alone. The counter is the number of bytes of the last escape or sequence still to pass
over. -/
def isScalarFrom : Nat → Bytes → Bool
  | _, [] => true
  | skip + 1, _ :: rest => isScalarFrom skip rest
  | 0, b :: rest =>
    if b = 92 then
      match rest with
      | 117 :: p :: q :: r :: s :: after =>
        match hexUnit p q r s with
        | some u =>
          (!isSurrogate u || (unitRune u after).2 != 0) && isScalarFrom (5 + (unitRune u after).2)
            rest
        | none => false
      | _ :: _ => isScalarFrom 1 rest
      | [] => true
    else
      match Utf8.decodeRune b rest with
      | some (_, n) => isScalarFrom n rest
      | none => false

/-- Whether nothing of a raw string is replaced when it is read. -/
def isScalarString (raw : Bytes) : Bool := isScalarFrom 0 raw

theorem isScalarFrom_zero (b : UInt8) (rest : Bytes) : isScalarFrom 0 (b :: rest) =
    if b = 92 then
      match rest with
      | 117 :: p :: q :: r :: s :: after =>
        match hexUnit p q r s with
        | some u =>
          (!isSurrogate u || (unitRune u after).2 != 0) && isScalarFrom (5 + (unitRune u after).2)
            rest
        | none => false
      | _ :: _ => isScalarFrom 1 rest
      | [] => true
    else
      match Utf8.decodeRune b rest with
      | some (_, n) => isScalarFrom n rest
      | none => false := rfl

/-- The bytes of a sequence that was judged are passed over. -/
theorem isScalarFrom_skip (cont after : Bytes) :
    isScalarFrom cont.length (cont ++ after) = isScalarFrom 0 after := by
  induction cont with
  | nil => rfl
  | cons b cont ih => exact ih

theorem isScalarFrom_unit (hu : hexUnit p q r t = some u) (hs : isSurrogate u = false)
    (raw : Bytes) :
    isScalarFrom 0 (92 :: 117 :: p :: q :: r :: t :: raw) = isScalarFrom 0 raw := by
  rw [isScalarFrom_zero]
  simp only [if_true, hu, unitRune, hs, Bool.false_eq_true, if_false, Bool.not_false, Bool.true_or,
    Bool.true_and]
  rfl

theorem isScalarFrom_pair (hu : hexUnit p q r t = some u) (hu' : hexUnit p' q' r' t' = some u')
    (hpair : surrogatePair u u' = some rune) (raw : Bytes) :
    isScalarFrom 0 (92 :: 117 :: p :: q :: r :: t :: 92 :: 117 :: p' :: q' :: r' :: t' :: raw)
      = isScalarFrom 0 raw := by
  have hs := (isScalar_surrogatePair hpair).2
  rw [isScalarFrom_zero]
  simp only [if_true, hu, unitRune, hs, hu', Option.bind_some, hpair]
  rfl

theorem isScalarFrom_lone (hu : hexUnit p q r t = some u)
    (hlone : unitRune u raw = (Utf8.replacement, 0)) (hs : isSurrogate u = true) :
    isScalarFrom 0 (92 :: 117 :: p :: q :: r :: t :: raw) = false := by
  rw [isScalarFrom_zero]
  simp [hu, hlone, hs]

theorem isScalarFrom_simple (hc : c ≠ 117) (raw : Bytes) :
    isScalarFrom 0 (92 :: c :: raw) = isScalarFrom 0 raw := by
  rw [isScalarFrom_zero]
  simp only [if_true]
  split
  · next h => exact absurd (List.cons.inj h).1 hc
  · next h =>
    obtain ⟨rfl, rfl⟩ := List.cons.inj h
    rfl
  · next h => cases h

theorem isScalarFrom_sequence (h : Utf8.Decodes lead cont rune) (hback : lead ≠ 92)
    (raw : Bytes) :
    isScalarFrom 0 (lead :: (cont ++ raw)) = isScalarFrom 0 raw := by
  rw [isScalarFrom_zero]
  simp only [if_neg hback, h.decode raw, isScalarFrom_skip]

theorem isScalarFrom_invalid (h : Utf8.decodeRune b raw = none) :
    isScalarFrom 0 (b :: raw) = false := by
  have hback : b ≠ 92 := by
    rintro rfl
    rw [Utf8.decodeRune_ascii (by decide)] at h
    cases h
  rw [isScalarFrom_zero]
  simp only [if_neg hback, h]

/-! ## The fewest escapes -/

/-- The raw form of a byte with the fewest escapes: only quotes, backslashes and control characters
need one. -/
def minimalByte (b : UInt8) : Bytes := if b = 60 ∨ b = 62 ∨ b = 38 then [b] else escapeByte b

/-- The raw form of a string with the fewest escapes. -/
def minimal (s : Bytes) : Bytes := s.flatMap minimalByte

theorem minimal_cons (b : UInt8) (s : Bytes) : minimal (b :: s) = minimalByte b ++ minimal s := by
  simp only [minimal, List.flatMap_cons]

theorem minimal_append (s s' : Bytes) : minimal (s ++ s') = minimal s ++ minimal s' := by
  simp only [minimal, List.flatMap_append]

/-- A byte beyond ASCII is written as it is. -/
theorem minimalByte_high (b : UInt8) (h : 0x80 ≤ b.toNat) : minimalByte b = [b] := by
  revert b
  exact forall_byte (by decide +kernel)

theorem minimal_high {bs : Bytes} (h : ∀ b ∈ bs, 0x80 ≤ b.toNat) : minimal bs = bs := by
  induction bs with
  | nil => rfl
  | cons b bs ih =>
    rw [minimal_cons, minimalByte_high b (h b List.mem_cons_self),
      ih fun c hc => h c (List.mem_cons_of_mem b hc), List.singleton_append]

/-- The fewest escapes make a string at most six times as long. -/
theorem length_minimal_le (s : Bytes) : (minimal s).length ≤ 6 * s.length := by
  have hbyte : ∀ b, (minimalByte b).length ≤ 6 := by
    intro b
    unfold minimalByte escapeByte
    split_ifs <;> simp
  induction s with
  | nil => simp [minimal]
  | cons b s ih =>
    have hb := hbyte b
    rw [minimal_cons, List.length_append, List.length_cons]
    omega

/-- **The raw form with the fewest escapes is a raw string.** -/
theorem rawString_minimal (s : Bytes) : RawString (minimal s) := by
  refine isRaw_iff.mp (Scans.isRaw ?_)
  induction s with
  | nil => exact scans_nil
  | cons b s ih =>
    rw [minimal_cons]
    refine Scans.append ?_ ih
    unfold minimalByte
    split_ifs with hhtml
    · rcases hhtml with rfl | rfl | rfl <;> exact scans_byte (by decide) (by decide) (by decide)
    · by_cases hascii : b.toNat < 0x80
      · exact scans_escapeByte hascii
      · have hb := minimalByte_high b (Nat.le_of_not_lt hascii)
        rw [minimalByte, if_neg hhtml] at hb
        rw [hb]
        exact scans_high (by simpa using Nat.le_of_not_lt hascii)

theorem unquoteFrom_minimalByte (h : b.toNat < 0x80) (raw : Bytes) :
    unquoteFrom 0 (minimalByte b ++ raw) = b :: unquoteFrom 0 raw := by
  unfold minimalByte
  split_ifs with hhtml
  · refine unquoteFrom_sequence (decodes_ascii h) ?_ raw
    rcases hhtml with rfl | rfl | rfl <;> decide
  · exact unquoteFrom_escapeByte h raw

theorem isScalarFrom_escapeByte (h : b.toNat < 0x80) (raw : Bytes) :
    isScalarFrom 0 (escapeByte b ++ raw) = isScalarFrom 0 raw := by
  unfold escapeByte
  split_ifs with h1 h2 h3 h4 h5 h6 h7
  · rcases h1 with rfl | rfl <;> exact isScalarFrom_simple (by decide) raw
  · exact isScalarFrom_simple (by decide) raw
  · exact isScalarFrom_simple (by decide) raw
  · exact isScalarFrom_simple (by decide) raw
  · exact isScalarFrom_simple (by decide) raw
  · exact isScalarFrom_simple (by decide) raw
  · refine isScalarFrom_unit (hexUnit_low h) ?_ raw
    simp only [isSurrogate, Bool.and_eq_false_iff, decide_eq_false_iff_not]
    omega
  · rw [not_or] at h1
    exact isScalarFrom_sequence (decodes_ascii h) h1.2 raw

theorem isScalarFrom_minimalByte (h : b.toNat < 0x80) (raw : Bytes) :
    isScalarFrom 0 (minimalByte b ++ raw) = isScalarFrom 0 raw := by
  unfold minimalByte
  split_ifs with hhtml
  · refine isScalarFrom_sequence (decodes_ascii h) ?_ raw
    rcases hhtml with rfl | rfl | rfl <;> decide
  · exact isScalarFrom_escapeByte h raw

/-- **Nothing of a string that was written is replaced in reading it**, whatever its bytes were. -/
theorem isScalarString_escape (s : Bytes) : isScalarString (escapeFrom 0 true s) = true := by
  unfold isScalarString
  induction s using Utf8.sequence_induction with
  | nil => rfl
  | invalid b rest hdec ih =>
    rw [escapeFrom_invalid hdec]
    exact (isScalarFrom_unit (u := 0xFFFD) (by decide) (by decide) _).trans ih
  | sequence lead cont after rune hd ih =>
    rw [escapeFrom_cons hd, escapeRune]
    split_ifs with hascii hsep
    · rw [isScalarFrom_escapeByte hascii, ih]
    · rcases hsep with rfl | rfl
      · exact (isScalarFrom_unit (u := 0x2028) (by decide) (by decide) _).trans ih
      · exact (isScalarFrom_unit (u := 0x2029) (by decide) (by decide) _).trans ih
    · have hback : lead ≠ 92 := by
        rintro rfl
        exact hascii (by decide)
      rw [List.cons_append, isScalarFrom_sequence hd hback, ih]

/-- The raw form of a string whose first character is not ASCII starts with that character. -/
theorem minimal_sequence (hd : Utf8.Decodes lead cont rune) (hhigh : ¬ lead.toNat < 0x80)
    (after : Bytes) :
    lead ≠ 92 ∧ minimal (lead :: (cont ++ after)) = lead :: (cont ++ minimal after) := by
  refine ⟨?_, ?_⟩
  · rintro rfl
    exact hhigh (by decide)
  · have hbytes : ∀ b ∈ lead :: cont, 0x80 ≤ b.toNat := by
      rintro b (_ | ⟨_, hb⟩)
      · exact Nat.le_of_not_lt hhigh
      · exact hd.high b hb
    rw [← List.cons_append, minimal_append, minimal_high hbytes, List.cons_append]

/-- **A well-formed string reads back from its raw form with the fewest escapes**, and nothing of it
is replaced. -/
theorem read_minimal {s : Bytes} (h : Utf8.valid s = true) :
    unquote (minimal s) = s ∧ isScalarString (minimal s) = true := by
  unfold unquote isScalarString
  induction s using Utf8.sequence_induction with
  | nil => exact ⟨rfl, rfl⟩
  | invalid b rest hdec ih => simp [Utf8.valid, Utf8.runes, Utf8.runesFrom, hdec] at h
  | sequence lead cont after rune hd ih =>
    rw [Utf8.valid_cons hd] at h
    obtain ⟨hread, hscalar⟩ := ih h
    by_cases hascii : lead.toNat < 0x80
    · rw [hd.cont_eq_nil hascii, List.nil_append, minimal_cons, unquoteFrom_minimalByte hascii,
        hread, isScalarFrom_minimalByte hascii]
      exact ⟨rfl, hscalar⟩
    · obtain ⟨hback, hsplit⟩ := minimal_sequence hd hascii after
      rw [hsplit, unquoteFrom_sequence hd hback, hread, isScalarFrom_sequence hd hback]
      exact ⟨rfl, hscalar⟩

/-! ## Escapes added to a raw string -/

/-- What a writer that escapes HTML-sensitive characters makes of a byte of a raw string. -/
def htmlEscapeByte (b : UInt8) : Bytes :=
  if b = 60 ∨ b = 62 ∨ b = 38 then
    [92, 117, 48, 48, hexDigit (b.toNat / 16), hexDigit (b.toNat % 16)] else [b]

/-- What such a writer makes of a raw string: the two line separators are escaped too. -/
def htmlEscape : Bytes → Bytes
  | [] => []
  | 226 :: 128 :: 168 :: rest => [92, 117, 50, 48, 50, 56] ++ htmlEscape rest
  | 226 :: 128 :: 169 :: rest => [92, 117, 50, 48, 50, 57] ++ htmlEscape rest
  | b :: rest => htmlEscapeByte b ++ htmlEscape rest

/-- A byte that starts no line separator is escaped by itself. -/
theorem htmlEscape_cons {rest : Bytes}
    (h : ∀ rest', b :: rest ≠ 226 :: 128 :: 168 :: rest' ∧ b :: rest ≠ 226 :: 128 :: 169 :: rest') :
    htmlEscape (b :: rest) = htmlEscapeByte b ++ htmlEscape rest := by
  rw [htmlEscape.eq_def]
  split
  · next heq => cases heq
  · next heq => exact absurd heq (h _).1
  · next heq => exact absurd heq (h _).2
  · next heq =>
    cases heq
    rfl

/-- Bytes that need no escape are copied. -/
theorem htmlEscape_copy {bs : Bytes} (h : ∀ b ∈ bs, b ≠ 226 ∧ b ≠ 60 ∧ b ≠ 62 ∧ b ≠ 38)
    (rest : Bytes) : htmlEscape (bs ++ rest) = bs ++ htmlEscape rest := by
  induction bs with
  | nil => rfl
  | cons b bs ih =>
    obtain ⟨hlead, hlt, hgt, hamp⟩ := h b List.mem_cons_self
    rw [List.cons_append, htmlEscape_cons (by simp [hlead]), htmlEscapeByte,
      if_neg (by simp [hlt, hgt, hamp]), ih fun c hc => h c (List.mem_cons_of_mem b hc)]
    rfl

/-- An escape needs no escape. -/
theorem hexUnit_copied (h : hexUnit p q r t = some u) :
    ∀ b ∈ [92, 117, p, q, r, t], b ≠ 226 ∧ b ≠ 60 ∧ b ≠ 62 ∧ b ≠ 38 := by
  have hvalue : ∀ {b : UInt8} {n : Nat}, hexValue b = some n → b ≠ 226 ∧ b ≠ 60 ∧ b ≠ 62 ∧
      b ≠ 38 := by
    intro b n hb
    refine ⟨?_, ?_, ?_, ?_⟩ <;> (rintro rfl; cases hb)
  unfold hexUnit at h
  split at h
  · next a b c d ha hb hc hd => simp [hvalue ha, hvalue hb, hvalue hc, hvalue hd]
  · cases h

theorem htmlEscape_unit (h : hexUnit p q r t = some u) (raw : Bytes) :
    htmlEscape (92 :: 117 :: p :: q :: r :: t :: raw)
      = 92 :: 117 :: p :: q :: r :: t :: htmlEscape raw :=
  htmlEscape_copy (hexUnit_copied h) raw

theorem htmlEscape_simple (h : isSimpleEscape c = true) (raw : Bytes) :
    htmlEscape (92 :: c :: raw) = 92 :: c :: htmlEscape raw := by
  have hc : c ≠ 226 ∧ c ≠ 60 ∧ c ≠ 62 ∧ c ≠ 38 := by
    refine ⟨?_, ?_, ?_, ?_⟩ <;> (rintro rfl; exact absurd h (by decide))
  exact @htmlEscape_copy [92, c] (by simpa using hc) raw

/-- A byte that is not ASCII starts no line separator when it is below the lead bytes. -/
theorem copied_of_cont (h : 0x80 ≤ b.toNat ∧ b.toNat < 0xC0) :
    b ≠ 226 ∧ b ≠ 60 ∧ b ≠ 62 ∧ b ≠ 38 := by
  refine ⟨?_, ?_, ?_, ?_⟩ <;> (rintro rfl; exact absurd h (by decide))

/-- A sequence with the lead byte of the line separators has three bytes. -/
theorem decodes_separator (hd : Utf8.Decodes 226 cont rune) :
    ∃ b c, cont = [b, c] := by
  have hdecode := hd.decode []
  rw [List.append_nil] at hdecode
  match cont with
  | [] => cases hdecode
  | [_] => cases hdecode
  | [b, c] => exact ⟨b, c, rfl⟩
  | b :: c :: d :: rest =>
    have hn : (226 : UInt8).toNat = 226 := rfl
    simp only [Utf8.decodeRune, hn] at hdecode
    split_ifs at hdecode
    all_goals
      have hlen := (Prod.mk.inj (Option.some.inj hdecode)).2
      simp only [List.length_cons] at hlen
      omega

/-- **A UTF-8 sequence is copied, or written as the escape of its scalar value.** -/
theorem htmlEscape_sequence (hd : Utf8.Decodes lead cont rune) (raw : Bytes) :
    (∃ p q r t, hexUnit p q r t = some rune ∧ isSurrogate rune = false ∧
        htmlEscape (lead :: (cont ++ raw)) = 92 :: 117 :: p :: q :: r :: t :: htmlEscape raw) ∨
      htmlEscape (lead :: (cont ++ raw)) = lead :: (cont ++ htmlEscape raw) := by
  have hcopy := htmlEscape_copy (fun b hb => copied_of_cont ⟨hd.high b hb, hd.cont_lt b hb⟩) raw
  by_cases hhtml : lead = 60 ∨ lead = 62 ∨ lead = 38
  · -- an HTML-sensitive character is written as its escape
    have hascii : lead.toNat < 0x80 := by rcases hhtml with rfl | rfl | rfl <;> decide
    have hrune : rune = lead.toNat := by
      have hdecode := hd.decode []
      rw [Utf8.decodeRune_ascii hascii] at hdecode
      exact (Prod.mk.inj (Option.some.inj hdecode)).1.symm
    have hlead : lead ≠ 226 := by
      rintro rfl
      exact absurd hascii (by decide)
    refine .inl ⟨48, 48, hexDigit (lead.toNat / 16), hexDigit (lead.toNat % 16), ?_, ?_, ?_⟩
    · rw [hrune]
      exact hexUnit_low hascii
    · rw [hrune]
      simp only [isSurrogate, Bool.and_eq_false_iff, decide_eq_false_iff_not]
      omega
    · rw [htmlEscape_cons (by simp [hlead]), htmlEscapeByte, if_pos hhtml, hcopy,
        hd.cont_eq_nil hascii]
      rfl
  · by_cases hseparator : lead = 226 ∧ (cont = [128, 168] ∨ cont = [128, 169])
    · obtain ⟨rfl, rfl | rfl⟩ := hseparator
      · have hdecode : some (rune, 2) = some (0x2028, 2) := (hd.decode []).symm
        cases hdecode
        exact .inl ⟨50, 48, 50, 56, by decide, by decide, rfl⟩
      · have hdecode : some (rune, 2) = some (0x2029, 2) := (hd.decode []).symm
        cases hdecode
        exact .inl ⟨50, 48, 50, 57, by decide, by decide, rfl⟩
    · refine .inr ?_
      rw [htmlEscape_cons, htmlEscapeByte, if_neg hhtml, hcopy]
      · rfl
      · intro rest'
        refine ⟨fun heq => hseparator ?_, fun heq => hseparator ?_⟩
        all_goals
          obtain ⟨rfl, hrest⟩ := List.cons.inj heq
          obtain ⟨b, c, rfl⟩ := decodes_separator hd
          simp only [List.cons_append, List.nil_append, List.cons.injEq] at hrest
          simp [hrest.1, hrest.2.1]

/-- Continuation bytes after the escapes were there before them. -/
theorem of_htmlEscape_cont (hcont : ∀ b ∈ cont, 0x80 ≤ b.toNat ∧ b.toNat < 0xC0)
    (h : htmlEscape raw = cont ++ after) : ∃ after', raw = cont ++ after' := by
  induction cont generalizing raw with
  | nil => exact ⟨raw, rfl⟩
  | cons c cont ih =>
    have hc := hcont c List.mem_cons_self
    have hback : c ≠ 92 := by
      rintro rfl
      exact absurd hc (by decide)
    revert h
    fun_cases htmlEscape raw with
    | case1 => intro h; cases h
    | case2 | case3 => intro h; exact absurd (List.cons.inj h).1.symm hback
    | case4 b rest _ _ =>
      intro h
      unfold htmlEscapeByte at h
      split_ifs at h
      · exact absurd (List.cons.inj h).1.symm hback
      · obtain ⟨rfl, hrest⟩ := List.cons.inj h
        obtain ⟨after', rfl⟩ := ih (fun d hd => hcont d (List.mem_cons_of_mem b hd)) hrest
        exact ⟨after', rfl⟩

/-- An ill-formed byte is copied, and stays ill formed. -/
theorem htmlEscape_invalid (h : Utf8.decodeRune b raw = none) :
    htmlEscape (b :: raw) = b :: htmlEscape raw ∧ Utf8.decodeRune b (htmlEscape raw) = none := by
  have hhigh : ¬ b.toNat < 0x80 := by
    intro hascii
    rw [Utf8.decodeRune_ascii hascii] at h
    cases h
  have hhtml : ¬ (b = 60 ∨ b = 62 ∨ b = 38) := by
    rintro (rfl | rfl | rfl) <;> exact hhigh (by decide)
  refine ⟨?_, ?_⟩
  · rw [htmlEscape_cons, htmlEscapeByte, if_neg hhtml, List.singleton_append]
    intro rest'
    refine ⟨fun heq => ?_, fun heq => ?_⟩
    all_goals
      obtain ⟨rfl, rfl⟩ := List.cons.inj heq
      cases h
  · -- a sequence after the escapes would have been one before them
    cases hdecode : Utf8.decodeRune b (htmlEscape raw) with
    | none => rfl
    | some d =>
      obtain ⟨cont, after, hsplit, -, hd⟩ := Utf8.decodes_of_decodeRune hdecode
      obtain ⟨after', rfl⟩ :=
        of_htmlEscape_cont (fun c hc => ⟨hd.high c hc, hd.cont_lt c hc⟩) hsplit
      rw [hd.decode after'] at h
      cases h

/-- A surrogate that was alone before the escapes is alone after them. -/
theorem unitRune_htmlEscape (hraw : RawString raw)
    (hs : isSurrogate u = true) (h : unitRune u raw = (Utf8.replacement, 0)) :
    unitRune u (htmlEscape raw) = (Utf8.replacement, 0) := by
  -- an escape that is no low surrogate does not make a pair
  have hadded : ∀ {p q r t : UInt8} {v : Nat} (rest : Bytes), hexUnit p q r t = some v →
    v < 0xDC00 →
      unitRune u (92 :: 117 :: p :: q :: r :: t :: rest) = (Utf8.replacement, 0) := by
    intro p q r t v rest hv hlt
    have hpair : surrogatePair u v = none := if_neg (by omega)
    simp [unitRune, hs, hv, hpair]
  cases hraw with
  | nil => exact h
  | @unit p q r t raw hunit _ =>
    obtain ⟨v, hv⟩ := Option.isSome_iff_exists.mp hunit
    rw [htmlEscape_unit hv]
    simpa [unitRune, hs, hv] using h
  | simple hsimple _ =>
    rw [htmlEscape_simple hsimple]
    exact unitRune_lone hs (by simp [ne_unit_of_isSimpleEscape hsimple])
  | @byte b raw _ hback _ _ =>
    rw [htmlEscape.eq_def]
    split
    · next heq => cases heq
    · exact hadded (v := 0x2028) _ (by decide) (by decide)
    · exact hadded (v := 0x2029) _ (by decide) (by decide)
    · next heq =>
      cases heq
      unfold htmlEscapeByte
      split_ifs with hhtml
      · have hascii : b.toNat < 0x80 := by rcases hhtml with rfl | rfl | rfl <;> decide
        exact hadded _ (hexUnit_low hascii) (by omega)
      · exact unitRune_lone hs (by simp [hback])

/-- Escapes added to a raw string leave it one. -/
theorem RawString.htmlEscape (h : RawString raw) : RawString (htmlEscape raw) := by
  apply h.read_induction (motive := fun raw => RawString (Json.htmlEscape raw))
  case nil => exact .nil
  case unit =>
    intro p q r t raw u hu _ _ ih
    rw [htmlEscape_unit hu]
    exact .unit (by simp [hu]) ih
  case pair =>
    intro p q r t p' q' r' t' raw u u' rune hu hu' _ _ ih
    rw [htmlEscape_unit hu, htmlEscape_unit hu']
    exact .unit (by simp [hu]) (.unit (by simp [hu']) ih)
  case lone =>
    intro p q r t raw u hu _ _ _ ih
    rw [htmlEscape_unit hu]
    exact .unit (by simp [hu]) ih
  case simple =>
    intro c raw hsimple _ ih
    rw [htmlEscape_simple hsimple]
    exact .simple hsimple ih
  case sequence =>
    intro lead cont raw rune hd hquote hback hlow _ ih
    obtain ⟨p, q, r, t, hu, -, hescape⟩ | hescape := htmlEscape_sequence hd raw
    · rw [hescape]
      exact .unit (by simp [hu]) ih
    · rw [hescape]
      exact .byte hquote hback hlow (ih.high_append hd.high)
  case invalid =>
    intro b raw hdecode hquote hback hlow _ ih
    rw [(htmlEscape_invalid hdecode).1]
    exact .byte hquote hback hlow ih

/-- **Escapes added to a raw string do not change what is read**, nor whether anything is
replaced. -/
theorem RawString.read_htmlEscape (h : RawString raw) :
    unquote (Json.htmlEscape raw) = unquote raw ∧
      isScalarString (Json.htmlEscape raw) = isScalarString raw := by
  unfold unquote isScalarString
  apply h.read_induction (motive := fun raw =>
    unquoteFrom 0 (Json.htmlEscape raw) = unquoteFrom 0 raw ∧
      isScalarFrom 0 (Json.htmlEscape raw) = isScalarFrom 0 raw)
  case nil => exact ⟨rfl, rfl⟩
  case unit =>
    rintro p q r t raw u hu hs _ ⟨hread, hscalar⟩
    rw [htmlEscape_unit hu, unquoteFrom_unit hu hs, unquoteFrom_unit hu hs, hread,
      isScalarFrom_unit hu hs, isScalarFrom_unit hu hs]
    exact ⟨rfl, hscalar⟩
  case pair =>
    rintro p q r t p' q' r' t' raw u u' rune hu hu' hpair _ ⟨hread, hscalar⟩
    rw [htmlEscape_unit hu, htmlEscape_unit hu', unquoteFrom_pair hu hu' hpair,
      unquoteFrom_pair hu hu' hpair, hread, isScalarFrom_pair hu hu' hpair,
      isScalarFrom_pair hu hu' hpair]
    exact ⟨rfl, hscalar⟩
  case lone =>
    rintro p q r t raw u hu hlone hs hraw ⟨hread, -⟩
    have hlone' := unitRune_htmlEscape hraw hs hlone
    rw [htmlEscape_unit hu, unquoteFrom_lone hu hlone, unquoteFrom_lone hu hlone', hread,
      isScalarFrom_lone hu hlone hs, isScalarFrom_lone hu hlone' hs]
    exact ⟨rfl, rfl⟩
  case simple =>
    rintro c raw hsimple _ ⟨hread, hscalar⟩
    have hc := ne_unit_of_isSimpleEscape hsimple
    rw [htmlEscape_simple hsimple, unquoteFrom_simple hc, unquoteFrom_simple hc, hread,
      isScalarFrom_simple hc, isScalarFrom_simple hc]
    exact ⟨rfl, hscalar⟩
  case sequence =>
    rintro lead cont raw rune hd _ hback _ _ ⟨hread, hscalar⟩
    rw [unquoteFrom_sequence hd hback, isScalarFrom_sequence hd hback]
    obtain ⟨p, q, r, t, hu, hs, hescape⟩ | hescape := htmlEscape_sequence hd raw
    · rw [hescape, unquoteFrom_unit hu hs, hd.encode, hread, isScalarFrom_unit hu hs]
      exact ⟨rfl, hscalar⟩
    · rw [hescape, unquoteFrom_sequence hd hback, hread, isScalarFrom_sequence hd hback]
      exact ⟨rfl, hscalar⟩
  case invalid =>
    rintro b raw hdecode _ _ _ _ ⟨hread, -⟩
    obtain ⟨hescape, hdecode'⟩ := htmlEscape_invalid hdecode
    rw [hescape, unquoteFrom_invalid hdecode, unquoteFrom_invalid hdecode', hread,
      isScalarFrom_invalid hdecode, isScalarFrom_invalid hdecode']
    exact ⟨rfl, rfl⟩

/-! ## Reading members -/

/-- **Induction over the members** that are read into a record. -/
theorem decodeMembers_induction {R : Type} {strict : Bool} {tags : List Bytes}
    {store : Nat → Json → R → Option R} {I : R → Prop}
    (hstore : ∀ i v r r', Fits depth v → I r → store i v r = some r' → I r') {r r' : R}
    (hfits : FitsMembers depth members) (hr : I r)
    (h : decodeMembers strict tags store members r = some r') : I r' := by
  induction members generalizing r with
  | nil =>
    cases h
    exact hr
  | cons m members ih =>
    obtain ⟨name, v⟩ := m
    obtain ⟨-, hv, hrest⟩ := hfits
    rw [decodeMembers] at h
    split at h
    · split at h
      · cases h
      · exact ih hrest hr h
    · next i _ =>
      obtain ⟨r₁, hstored, h⟩ := Option.bind_eq_some_iff.mp h
      exact ih hrest (hstore i v r r₁ hv hr hstored) h

/-- A string that is read is well-formed UTF-8. -/
theorem valid_of_readString {old s : Bytes} {v : Json} (hv : Fits depth v)
    (hold : Utf8.valid old = true) (h : readString old v = some s) : Utf8.valid s = true := by
  cases v with
  | null =>
    cases h
    exact hold
  | str raw =>
    cases h
    simp only [Fits] at hv
    exact (isRaw_iff.mp hv).valid_unquote
  | _ => cases h

theorem fitsMembers_iff :
    FitsMembers depth members ↔ ∀ m ∈ members, IsRaw m.1 ∧ Fits depth m.2 := by
  induction members with
  | nil => simp [FitsMembers]
  | cons m members ih => simp [FitsMembers, ih, and_assoc]

theorem decodeMembers_pass {R : Type} {tags : List Bytes} {store : Nat → Json → R → Option R}
    (h : ∀ m ∈ members, matchField tags (unquote m.1) = none) (r : R) :
    decodeMembers false tags store members r = some r := by
  induction members with
  | nil => rfl
  | cons m members ih =>
    obtain ⟨name, v⟩ := m
    rw [decodeMembers, h _ List.mem_cons_self]
    exact ih fun m hm => h m (List.mem_cons_of_mem _ hm)

end Json

end Foundation
