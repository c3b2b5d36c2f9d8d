import OriGateway.Foundation.JsonRoundTrip

/-! # JSON fields read back

The writer's raw form of a byte string is always one the scanner reads whole (**`isRaw_escape`**),
and for well-formed UTF-8 it stands for that very string (**`unquote_escape`**): escapes are only
ever written for what reads back as itself. So the reading functions invert the writing functions at
each kind of field, and a record written field by field is read back field by field. -/

namespace Foundation

namespace Utf8

/-- What a successful decoding says: the continuation bytes it consumed, that it looked at no other,
and that encoding gives the sequence back. -/
structure Decodes (lead : UInt8) (cont : Bytes) (rune : Nat) : Prop where
  decode : ∀ after, decodeRune lead (cont ++ after) = some (rune, cont.length)
  encode : encodeRune rune = lead :: cont
  high : ∀ b ∈ cont, 0x80 ≤ b.toNat

theorem Decodes.cont_eq_nil {lead : UInt8} {cont : Bytes} {rune : Nat} (h : Decodes lead cont rune)
    (hascii : lead.toNat < 0x80) : cont = [] := by
  have hdec := h.decode []
  rw [decodeRune_ascii hascii] at hdec
  exact List.length_eq_zero_iff.mp (Prod.mk.inj (Option.some.inj hdec)).2.symm

theorem continues_iff {low high : Nat} {b : UInt8} :
    continues low high b = true ↔ low ≤ b.toNat ∧ b.toNat ≤ high := by
  simp [continues]

theorem tailBits_of_continues {b : UInt8} (h : 0x80 ≤ b.toNat ∧ b.toNat ≤ 0xBF) :
    tailBits b = b.toNat - 0x80 := by
  unfold tailBits
  omega

theorem ofNat_eq_of_toNat {b : UInt8} {n : Nat} (h : n = b.toNat) : UInt8.ofNat n = b := by
  rw [h, UInt8.ofNat_toNat]

theorem secondLow_ge (n : Nat) : 0x80 ≤ secondLow n := by
  unfold secondLow
  split_ifs <;> omega

theorem secondHigh_le (n : Nat) : secondHigh n ≤ 0xBF := by
  unfold secondHigh
  split_ifs <;> omega

theorem decodes_two {lead b : UInt8} (hl : 0xC2 ≤ lead.toNat ∧ lead.toNat ≤ 0xDF)
    (hb : continues 0x80 0xBF b = true) :
    Decodes lead [b] (lead.toNat % 32 * 64 + tailBits b) := by
  have hb' := continues_iff.mp hb
  have htb := tailBits_of_continues hb'
  refine ⟨fun after => ?_, ?_, by simpa using hb'.1⟩
  · simp only [decodeRune, List.cons_append, List.nil_append, hb, if_true]
    rw [if_neg (by omega), if_pos hl]
    rfl
  · generalize hr : lead.toNat % 32 * 64 + tailBits b = r
    unfold encodeRune
    rw [if_neg (by omega), if_pos (by omega), ofNat_eq_of_toNat (b := lead) (by omega),
      ofNat_eq_of_toNat (b := b) (by omega)]

theorem decodes_three {lead b c : UInt8} (hl : 0xE0 ≤ lead.toNat ∧ lead.toNat ≤ 0xEF)
    (hb : continues (secondLow lead.toNat) (secondHigh lead.toNat) b = true)
    (hc : continues 0x80 0xBF c = true) :
    Decodes lead [b, c] (lead.toNat % 16 * 4096 + tailBits b * 64 + tailBits c) := by
  have hb' := continues_iff.mp hb
  have hc' := continues_iff.mp hc
  have hlow := secondLow_ge lead.toNat
  have hhigh := secondHigh_le lead.toNat
  have htb := tailBits_of_continues (b := b) (by omega)
  have htc := tailBits_of_continues hc'
  -- A second byte in bounds keeps the value out of the range of shorter forms.
  have hmin : 0x800 ≤ lead.toNat % 16 * 4096 + tailBits b * 64 := by
    by_cases h : lead.toNat = 0xE0
    · have : secondLow lead.toNat = 0xA0 := by rw [h]; rfl
      omega
    · omega
  refine ⟨fun after => ?_, ?_, ?_⟩
  · simp only [decodeRune, List.cons_append, List.nil_append, hb, hc, Bool.and_self, if_true]
    rw [if_neg (by omega), if_neg (by omega), if_pos hl]
    rfl
  · generalize hr : lead.toNat % 16 * 4096 + tailBits b * 64 + tailBits c = r
    unfold encodeRune
    rw [if_neg (by omega), if_neg (by omega), if_pos (by omega),
      ofNat_eq_of_toNat (b := lead) (by omega), ofNat_eq_of_toNat (b := b) (by omega),
      ofNat_eq_of_toNat (b := c) (by omega)]
  · simp only [List.mem_cons, List.not_mem_nil, or_false]
    rintro x (rfl | rfl) <;> omega

theorem decodes_four {lead b c d : UInt8} (hl : 0xF0 ≤ lead.toNat ∧ lead.toNat ≤ 0xF4)
    (hb : continues (secondLow lead.toNat) (secondHigh lead.toNat) b = true)
    (hc : continues 0x80 0xBF c = true) (hd : continues 0x80 0xBF d = true) :
    Decodes lead [b, c, d]
      (lead.toNat % 8 * 262144 + tailBits b * 4096 + tailBits c * 64 + tailBits d) := by
  have hb' := continues_iff.mp hb
  have hc' := continues_iff.mp hc
  have hd' := continues_iff.mp hd
  have hlow := secondLow_ge lead.toNat
  have hhigh := secondHigh_le lead.toNat
  have htb := tailBits_of_continues (b := b) (by omega)
  have htc := tailBits_of_continues hc'
  have htd := tailBits_of_continues hd'
  have hmin : 0x10000 ≤ lead.toNat % 8 * 262144 + tailBits b * 4096 := by
    by_cases h : lead.toNat = 0xF0
    · have : secondLow lead.toNat = 0x90 := by rw [h]; rfl
      omega
    · omega
  refine ⟨fun after => ?_, ?_, ?_⟩
  · simp only [decodeRune, List.cons_append, List.nil_append, hb, hc, hd, Bool.and_self, if_true]
    rw [if_neg (by omega), if_neg (by omega), if_neg (by omega), if_pos hl]
    rfl
  · generalize hr :
      lead.toNat % 8 * 262144 + tailBits b * 4096 + tailBits c * 64 + tailBits d = r
    unfold encodeRune
    rw [if_neg (by omega), if_neg (by omega), if_neg (by omega),
      ofNat_eq_of_toNat (b := lead) (by omega), ofNat_eq_of_toNat (b := b) (by omega),
      ofNat_eq_of_toNat (b := c) (by omega), ofNat_eq_of_toNat (b := d) (by omega)]
  · simp only [List.mem_cons, List.not_mem_nil, or_false]
    rintro x (rfl | rfl | rfl) <;> omega

/-- **Decoding one scalar value** consumes bytes that encode it. -/
theorem decodes_of_decodeRune {lead : UInt8} {rest : Bytes} {rune n : Nat}
    (h : decodeRune lead rest = some (rune, n)) :
    ∃ cont after, rest = cont ++ after ∧ cont.length = n ∧ Decodes lead cont rune := by
  simp only [decodeRune] at h
  split_ifs at h with h1 h2 h3 h4
  · obtain ⟨rfl, rfl⟩ := Prod.mk.inj (Option.some.inj h)
    refine ⟨[], rest, rfl, rfl, ⟨fun after => decodeRune_ascii h1 _, ?_, by simp⟩⟩
    rw [encodeRune, if_pos h1, UInt8.ofNat_toNat]
  · split at h
    · next b after =>
      split_ifs at h with hb
      obtain ⟨rfl, rfl⟩ := Prod.mk.inj (Option.some.inj h)
      exact ⟨[b], after, rfl, rfl, decodes_two h2 hb⟩
    · cases h
  · split at h
    · next b c after =>
      split_ifs at h with hbc
      rw [Bool.and_eq_true] at hbc
      obtain ⟨rfl, rfl⟩ := Prod.mk.inj (Option.some.inj h)
      exact ⟨[b, c], after, rfl, rfl, decodes_three h3 hbc.1 hbc.2⟩
    · cases h
  · split at h
    · next b c d after =>
      split_ifs at h with hbcd
      rw [Bool.and_eq_true, Bool.and_eq_true] at hbcd
      obtain ⟨rfl, rfl⟩ := Prod.mk.inj (Option.some.inj h)
      exact ⟨[b, c, d], after, rfl, rfl, decodes_four h4 hbcd.1.1 hbcd.1.2 hbcd.2⟩
    · cases h

/-- **Induction over a byte string sequence by sequence**: an ill-formed byte or a whole value is
taken off at a time. -/
theorem sequence_induction {motive : Bytes → Prop} (nil : motive [])
    (invalid : ∀ b rest, decodeRune b rest = none → motive rest → motive (b :: rest))
    (sequence : ∀ lead cont after rune, Decodes lead cont rune → motive after →
      motive (lead :: (cont ++ after))) (s : Bytes) : motive s := by
  induction hn : s.length using Nat.strong_induction_on generalizing s with
  | _ n ih =>
    subst hn
    cases s with
    | nil => exact nil
    | cons b rest =>
      cases hdec : decodeRune b rest with
      | none => exact invalid b rest hdec (ih rest.length (by simp) rest rfl)
      | some p =>
        obtain ⟨cont, after, rfl, -, hd⟩ := decodes_of_decodeRune hdec
        refine sequence b cont after p.1 hd (ih after.length ?_ after rfl)
        simp

theorem runesFrom_skip (cont after : Bytes) :
    runesFrom cont.length (cont ++ after) = runesFrom 0 after := by
  induction cont with
  | nil => rfl
  | cons b cont ih => exact ih

theorem valid_cons {lead : UInt8} {cont after : Bytes} {rune : Nat} (h : Decodes lead cont rune) :
    valid (lead :: (cont ++ after)) = valid after := by
  simp [valid, runes, runesFrom, h.decode after, runesFrom_skip]

end Utf8

namespace Json

variable {b : UInt8} {s : Bytes} {z : Int}

/-! ## The scanner on the writer's raw strings -/

theorem scans_high {bs : Bytes} (h : ∀ b ∈ bs, 0x80 ≤ b.toNat) : Scans bs := by
  induction bs with
  | nil => exact scans_nil
  | cons b bs ih =>
    have hb := h b (by simp)
    have hne : ∀ c : UInt8, c.toNat < 0x80 → b ≠ c := by
      rintro c hc rfl
      omega
    exact (scans_byte (hne 34 (by decide)) (hne 92 (by decide)) (by omega)).append
      (ih fun x hx => h x (by simp [hx]))

theorem hexUnit_low (h : b.toNat < 0x80) :
    hexUnit 48 48 (hexDigit (b.toNat / 16)) (hexDigit (b.toNat % 16)) = some b.toNat := by
  have key : ∀ n < 128, hexUnit 48 48 (hexDigit (n / 16)) (hexDigit (n % 16)) = some n := by
    decide +kernel
  exact key b.toNat h

theorem scans_escapeByte (h : b.toNat < 0x80) : Scans (escapeByte b) := by
  unfold escapeByte
  split_ifs with h1 h2 h3 h4 h5 h6 h7
  · rcases h1 with rfl | rfl <;> exact scans_simple (by decide)
  · exact scans_simple (by decide)
  · exact scans_simple (by decide)
  · exact scans_simple (by decide)
  · exact scans_simple (by decide)
  · exact scans_simple (by decide)
  · exact scans_unit (by rw [hexUnit_low h]; rfl)
  · rw [not_or] at h1 h7
    exact scans_byte h1.1 h1.2 (by omega)

/-! ## Escaping, sequence by sequence -/

theorem escapeFrom_flag (keep : Bool) (s : Bytes) : escapeFrom 0 keep s = escapeFrom 0 true s := by
  cases s <;> simp [escapeFrom]

theorem escapeFrom_copy (cont after : Bytes) :
    escapeFrom cont.length true (cont ++ after) = cont ++ escapeFrom 0 true after := by
  induction cont with
  | nil => rfl
  | cons b cont ih => simp [escapeFrom, ih]

theorem escapeFrom_drop (cont after : Bytes) :
    escapeFrom cont.length false (cont ++ after) = escapeFrom 0 true after := by
  induction cont with
  | nil => exact escapeFrom_flag false after
  | cons b cont ih => simp [escapeFrom, ih]

/-- The escaped form of a scalar value. -/
def escapeRune (lead : UInt8) (cont : Bytes) (rune : Nat) : Bytes :=
  if lead.toNat < 0x80 then escapeByte lead
  else if rune = 0x2028 ∨ rune = 0x2029 then [92, 117, 50, 48, 50, hexDigit (rune % 16)]
  else lead :: cont

theorem escapeFrom_cons {lead : UInt8} {cont after : Bytes} {rune : Nat}
    (h : Utf8.Decodes lead cont rune) :
    escapeFrom 0 true (lead :: (cont ++ after))
      = escapeRune lead cont rune ++ escapeFrom 0 true after := by
  rw [escapeFrom, escapeRune]
  by_cases hascii : lead.toNat < 0x80
  · simp [hascii, h.cont_eq_nil hascii]
  · simp only [if_neg hascii, h.decode after]
    split_ifs
    · rw [escapeFrom_drop]
    · rw [escapeFrom_copy, List.cons_append]

/-- A string that starts with an ill-formed byte is written with its replacement first. -/
theorem escapeFrom_invalid {rest : Bytes} (h : Utf8.decodeRune b rest = none) :
    escapeFrom 0 true (b :: rest) = [92, 117, 102, 102, 102, 100] ++ escapeFrom 0 true rest := by
  have hascii : ¬ b.toNat < 0x80 := by
    intro hascii
    rw [Utf8.decodeRune_ascii hascii] at h
    cases h
  rw [escapeFrom]
  simp [hascii, h]

/-- **Every raw string the writer writes is one the scanner reads whole.** -/
theorem scans_escape (s : Bytes) : Scans (escapeFrom 0 true s) := by
  induction s using Utf8.sequence_induction with
  | nil => exact scans_nil
  | invalid b rest hdec ih =>
    rw [escapeFrom_invalid hdec]
    exact (scans_unit (by decide)).append ih
  | sequence lead cont after rune hd ih =>
    rw [escapeFrom_cons hd]
    refine Scans.append ?_ ih
    unfold escapeRune
    split_ifs with hascii hsep
    · exact scans_escapeByte hascii
    · rcases hsep with rfl | rfl <;> exact scans_unit (by decide)
    · refine scans_high fun x hx => ?_
      rcases List.mem_cons.mp hx with rfl | hx
      · exact Nat.le_of_not_lt hascii
      · exact hd.high x hx

theorem isRaw_escape (s : Bytes) : IsRaw (escapeFrom 0 true s) := (scans_escape s).isRaw

/-! ## Unescaping -/

theorem unquoteFrom_zero (b : UInt8) (rest : Bytes) : unquoteFrom 0 (b :: rest) =
    if b = 92 then
      match rest with
      | 117 :: p :: q :: r :: s :: after =>
        let rune := unitRune ((hexUnit p q r s).getD Utf8.replacement) after
        Utf8.encodeRune rune.1 ++ unquoteFrom (5 + rune.2) rest
      | c :: _ => simpleEscape c :: unquoteFrom 1 rest
      | [] => []
    else
      match Utf8.decodeRune b rest with
      | some (rune, n) => Utf8.encodeRune rune ++ unquoteFrom n rest
      | none => Utf8.encodeRune Utf8.replacement ++ unquoteFrom 0 rest := rfl

theorem unquoteFrom_skip (cont after : Bytes) :
    unquoteFrom cont.length (cont ++ after) = unquoteFrom 0 after := by
  induction cont with
  | nil => rfl
  | cons b cont ih => exact ih

theorem unquoteFrom_sequence {lead : UInt8} {cont : Bytes} {rune : Nat}
    (h : Utf8.Decodes lead cont rune) (hback : lead ≠ 92) (text : Bytes) :
    unquoteFrom 0 (lead :: (cont ++ text)) = lead :: (cont ++ unquoteFrom 0 text) := by
  rw [unquoteFrom_zero]
  simp only [if_neg hback, h.decode text, h.encode, unquoteFrom_skip, List.cons_append]

theorem unquoteFrom_simple {c : UInt8} (hc : c ≠ 117) (text : Bytes) :
    unquoteFrom 0 (92 :: c :: text) = simpleEscape c :: unquoteFrom 0 text := by
  rw [unquoteFrom_zero]
  simp only [if_true]
  split
  · next h => exact absurd (List.cons.inj h).1 hc
  · next h =>
    obtain ⟨rfl, rfl⟩ := List.cons.inj h
    rfl
  · next h => cases h

theorem unquoteFrom_unit {p q r t : UInt8} {u : Nat} (hu : hexUnit p q r t = some u)
    (hs : isSurrogate u = false) (text : Bytes) :
    unquoteFrom 0 (92 :: 117 :: p :: q :: r :: t :: text)
      = Utf8.encodeRune u ++ unquoteFrom 0 text := by
  rw [unquoteFrom_zero]
  simp only [if_true, hu, Option.getD_some, unitRune, hs, Bool.false_eq_true, if_false]
  rfl

theorem unquoteFrom_escapeByte (h : b.toNat < 0x80) (text : Bytes) :
    unquoteFrom 0 (escapeByte b ++ text) = b :: unquoteFrom 0 text := by
  have hself : Utf8.encodeRune b.toNat = [b] := by
    rw [Utf8.encodeRune, if_pos h, UInt8.ofNat_toNat]
  unfold escapeByte
  split_ifs with h1 h2 h3 h4 h5 h6 h7
  · rcases h1 with rfl | rfl <;> exact unquoteFrom_simple (by decide) text
  · subst h2
    exact unquoteFrom_simple (by decide) text
  · subst h3
    exact unquoteFrom_simple (by decide) text
  · subst h4
    exact unquoteFrom_simple (by decide) text
  · subst h5
    exact unquoteFrom_simple (by decide) text
  · subst h6
    exact unquoteFrom_simple (by decide) text
  · have hs : isSurrogate b.toNat = false := by
      simp only [isSurrogate, Bool.and_eq_false_iff, decide_eq_false_iff_not]
      omega
    refine (unquoteFrom_unit (hexUnit_low h) hs text).trans ?_
    rw [hself, List.singleton_append]
  · rw [not_or] at h1
    have hd : Utf8.Decodes b [] b.toNat :=
      ⟨fun after => Utf8.decodeRune_ascii h _, hself, by simp⟩
    exact unquoteFrom_sequence hd h1.2 text

/-- **A well-formed string reads back from its raw form.** -/
theorem unquote_escape (h : Utf8.valid s = true) : unquote (escapeFrom 0 true s) = s := by
  unfold unquote
  induction s using Utf8.sequence_induction with
  | nil => rfl
  | invalid b rest hdec ih => simp [Utf8.valid, Utf8.runes, Utf8.runesFrom, hdec] at h
  | sequence lead cont after rune hd ih =>
    rw [Utf8.valid_cons hd] at h
    have hunit : ∀ t : UInt8, hexUnit 50 48 50 t = some rune → isSurrogate rune = false →
        unquoteFrom 0 ([92, 117, 50, 48, 50, t] ++ escapeFrom 0 true after)
          = lead :: (cont ++ after) := by
      intro t ht hs
      refine (unquoteFrom_unit ht hs (escapeFrom 0 true after)).trans ?_
      rw [hd.encode, ih h, List.cons_append]
    rw [escapeFrom_cons hd, escapeRune]
    split_ifs with hascii hsep
    · rw [unquoteFrom_escapeByte hascii, ih h, hd.cont_eq_nil hascii, List.nil_append]
    · rcases hsep with rfl | rfl <;> exact hunit _ (by decide) (by decide)
    · have hback : lead ≠ 92 := by
        rintro rfl
        exact hascii (by decide)
      rw [List.cons_append, unquoteFrom_sequence hd hback, ih h]

/-! ## Plain strings -/

def isPlain (b : UInt8) : Bool :=
  decide (32 ≤ b.toNat) && decide (b.toNat < 127) && b != 34 && b != 92 && b != 60 && b != 62 &&
    b != 38

theorem isPlain_iff (b : UInt8) : isPlain b = true ↔
    32 ≤ b.toNat ∧ b.toNat < 127 ∧ b ≠ 34 ∧ b ≠ 92 ∧ b ≠ 60 ∧ b ≠ 62 ∧ b ≠ 38 := by
  simp [isPlain, and_assoc]

theorem isRaw_of_plain {raw : Bytes} (h : ∀ b ∈ raw, isPlain b = true) : IsRaw raw := by
  refine Scans.isRaw ?_
  induction raw with
  | nil => exact scans_nil
  | cons b raw ih =>
    obtain ⟨hlow, -, hquote, hback, -⟩ := (isPlain_iff b).mp (h b (by simp))
    exact (scans_byte hquote hback hlow).append (ih fun x hx => h x (by simp [hx]))

/-! ## Fields read back -/

theorem escapeFrom_plain (h : ∀ b ∈ s, isPlain b = true) : escapeFrom 0 true s = s := by
  induction s with
  | nil => rfl
  | cons b s ih =>
    obtain ⟨hlow, hhigh, hquote, hback, hlt, hgt, hamp⟩ := (isPlain_iff b).mp (h b (by simp))
    have hascii : b.toNat < 0x80 := by omega
    have hctl : ∀ c : UInt8, c.toNat < 32 → b ≠ c := by
      rintro c hc rfl
      omega
    rw [escapeFrom, if_pos hascii, ih fun x hx => h x (by simp [hx]), escapeByte,
      if_neg (by simp [hquote, hback]), if_neg (hctl 8 (by decide)), if_neg (hctl 12 (by decide)),
      if_neg (hctl 10 (by decide)), if_neg (hctl 13 (by decide)), if_neg (hctl 9 (by decide)),
      if_neg (by simp [hlt, hgt, hamp, hlow])]
    rfl

theorem valid_of_plain (h : ∀ b ∈ s, isPlain b = true) : Utf8.valid s = true := by
  induction s with
  | nil => rfl
  | cons b s ih =>
    obtain ⟨-, hhigh, -⟩ := (isPlain_iff b).mp (h b (by simp))
    have hascii : b.toNat < 0x80 := by omega
    have hd : Utf8.Decodes b [] b.toNat := by
      refine ⟨fun after => Utf8.decodeRune_ascii hascii _, ?_, by simp⟩
      rw [Utf8.encodeRune, if_pos hascii, UInt8.ofNat_toNat]
    exact (Utf8.valid_cons hd).trans (ih fun x hx => h x (by simp [hx]))

theorem unquote_plain (h : ∀ b ∈ s, isPlain b = true) : unquote s = s := by
  have hread := unquote_escape (valid_of_plain h)
  rwa [escapeFrom_plain h] at hread

theorem readInt64_ofInt (h : -2 ^ 63 ≤ z ∧ z < 2 ^ 63) (old : Int) :
    readInt64 old (ofInt z) = some z := by
  simpa [readInt64, readInt, ofInt, Option.filter] using h

theorem readInt64Ptr_ofInt (h : -2 ^ 63 ≤ z ∧ z < 2 ^ 63) :
    readInt64Ptr (ofInt z) = some (some z) := by
  simpa [readInt64Ptr, readIntPtr, ofInt, Option.filter] using h

/-- What is read into a 64-bit integer is one. -/
theorem range_of_readInt64 {old : Int} {v : Json} (h : readInt64 old v = some z) :
    -2 ^ 63 ≤ z ∧ z < 2 ^ 63 := by
  have hrange := (Option.filter_eq_some_iff.mp h).2
  exact of_decide_eq_true hrange

@[simp] theorem readBool_bool (old b : Bool) : readBool old (.bool b) = some b := rfl

theorem readString_ofString (h : Utf8.valid s = true) (old : Bytes) :
    readString old (ofString s) = some s := by
  rw [ofString, readString, unquote_escape h]

theorem readStrings_ofStrings {ss : List Bytes} (h : ∀ s ∈ ss, Utf8.valid s = true) :
    readStrings (.arr (ss.map ofString)) = some ss := by
  rw [readStrings, List.mapM_map]
  induction ss with
  | nil => rfl
  | cons s ss ih =>
    rw [List.mapM_cons, ih fun x hx => h x (by simp [hx]), Function.comp_apply,
      readString_ofString (h s (by simp))]
    rfl

theorem isPlain_of_isBase64 : ∀ b : UInt8, isBase64 b = true → isPlain b = true := by
  intro b h
  have hb : b.toNat < 256 := b.toNat_lt
  have key : ∀ n < 256, isBase64 (UInt8.ofNat n) = true → isPlain (UInt8.ofNat n) = true := by
    decide +kernel
  have := key b.toNat hb
  rw [UInt8.ofNat_toNat] at this
  exact this h

theorem readBytes_ofString_base64 (bs : Bytes) :
    readBytes (ofString (base64Encode bs)) = some bs := by
  have hplain : ∀ b ∈ base64Encode bs, isPlain b = true := fun b hb =>
    isPlain_of_isBase64 b (base64Encode_isBase64 bs b hb)
  rw [ofString, escapeFrom_plain hplain, readBytes, unquote_plain hplain, base64Decode_encode]

theorem fits_ofString (depth : Nat) (s : Bytes) : Fits depth (ofString s) := by
  rw [ofString, Fits]
  exact isRaw_escape s

theorem fits_ofInt (depth : Nat) (z : Int) : Fits depth (ofInt z) := by
  rw [ofInt, Fits]
  exact isNumber_formatInt z

theorem fits_bool (depth : Nat) (b : Bool) : Fits depth (.bool b) := by
  rw [Fits]
  trivial

theorem fits_ofStrings (depth : Nat) (ss : List Bytes) :
    Fits (depth + 1) (.arr (ss.map ofString)) := by
  rw [Fits]
  induction ss with
  | nil => simp [FitsItems]
  | cons s ss ih => exact ⟨fits_ofString depth s, ih⟩

theorem isPlain_hexEncode (bs : Bytes) : ∀ b ∈ hexEncode bs, isPlain b = true := by
  have key : ∀ n < 256, isHexDigit (UInt8.ofNat n) = true → isPlain (UInt8.ofNat n) = true := by
    decide +kernel
  intro b hb
  have := key b.toNat b.toNat_lt
  rw [UInt8.ofNat_toNat] at this
  exact this (hexEncode_isHexDigit bs b hb)

/-! ## Records read back -/

section Records

variable {R : Type} {strict : Bool} {tags : List Bytes} {store : Nat → Json → R → Option R}

/-- Names of fields that are read back as written: distinct, and in need of no escapes. -/
structure FieldNames (tags : List Bytes) : Prop where
  nodup : tags.Nodup
  plain : ∀ tag ∈ tags, ∀ b ∈ tag, isPlain b = true

theorem FieldNames.of_all (hnodup : tags.Nodup) (hplain : tags.all (·.all isPlain) = true) :
    FieldNames tags :=
  ⟨hnodup, fun tag htag => List.all_eq_true.mp (List.all_eq_true.mp hplain tag htag)⟩

theorem matchField_tag (h : FieldNames tags) {i : Nat} (hi : i < tags.length) :
    matchField tags (unquote tags[i]) = some i := by
  rw [unquote_plain (h.plain _ (List.getElem_mem hi)), matchField]
  have hfind : tags.findIdx? (· == tags[i]) = some i := by
    rw [List.findIdx?_eq_some_iff_getElem]
    refine ⟨hi, by simp, fun j hj => ?_⟩
    have hne : tags[j] ≠ tags[i] := fun heq =>
      absurd ((List.Nodup.getElem_inj_iff h.nodup).mp heq) (by omega)
    simpa using hne
  rw [hfind, Option.some_or]

theorem decodeMembers_zip (h : FieldNames tags) : ∀ (vs : List Json) (n : Nat) (r : R),
    n + vs.length ≤ tags.length →
      decodeMembers strict tags store ((tags.drop n).zip vs) r
        = (vs.zipIdx n).foldlM (fun r p => store p.2 p.1 r) r
  | [], n, r, _ => by simp [decodeMembers]
  | v :: vs, n, r, hlen => by
    rw [List.length_cons] at hlen
    have hn : n < tags.length := by omega
    rw [List.drop_eq_getElem_cons hn, List.zip_cons_cons, decodeMembers, matchField_tag h hn,
      List.zipIdx_cons, List.foldlM_cons]
    have hrest : decodeMembers strict tags store ((tags.drop (n + 1)).zip vs)
        = fun r' => (vs.zipIdx (n + 1)).foldlM (fun r p => store p.2 p.1 r) r' :=
      funext fun r' => decodeMembers_zip h vs (n + 1) r' (by omega)
    rw [hrest]
    rfl

theorem fitsMembers_zip {depth : Nat} (hraw : ∀ tag ∈ tags, IsRaw tag) {vs : List Json}
    (hvs : ∀ v ∈ vs, Fits depth v) : FitsMembers depth (tags.zip vs) := by
  induction tags generalizing vs with
  | nil => simp [FitsMembers]
  | cons tag tags ih =>
    cases vs with
    | nil => simp [FitsMembers]
    | cons v vs =>
      rw [List.zip_cons_cons, FitsMembers]
      refine ⟨hraw tag (by simp), hvs v (by simp), ih (fun t ht => hraw t (by simp [ht])) ?_⟩
      exact fun w hw => hvs w (by simp [hw])

/-- **A record reads back field by field from the text of its fields.** -/
theorem decodeRecord_ofFields (h : FieldNames tags) (zero : R) {vs : List Json}
    (hlen : vs.length ≤ tags.length) (hvs : ∀ v ∈ vs, Fits 9999 v) :
    decodeRecord strict tags store zero (render (ofFields tags vs))
      = vs.zipIdx.foldlM (fun r p => store p.2 p.1 r) zero := by
  have hfits : Fits maxNestingDepth (ofFields tags vs) := by
    rw [maxNestingDepth, ofFields, Fits]
    exact fitsMembers_zip (fun t ht => isRaw_of_plain (h.plain t ht)) hvs
  rw [decodeRecord, parse_render hfits, Option.bind_some, ofFields, decodeStruct]
  exact decodeMembers_zip h vs 0 zero (by omega)

/-- **What every field keeps holds of a record that was read.** -/
theorem decodeRecord_induction {I : R → Prop}
    (hstore : ∀ i v r r', I r → store i v r = some r' → I r') {zero r : R} (hzero : I zero)
    {text : Bytes} (h : decodeRecord strict tags store zero text = some r) : I r := by
  have hmembers : ∀ members r r', I r → decodeMembers strict tags store members r = some r' →
      I r' := by
    intro members
    induction members with
    | nil =>
      intro r r' hr h
      cases h
      exact hr
    | cons m members ih =>
      intro r r' hr h
      rw [decodeMembers] at h
      split at h
      · split at h
        · cases h
        · exact ih r r' hr h
      · obtain ⟨r₁, hstored, h⟩ := Option.bind_eq_some_iff.mp h
        exact ih r₁ r' (hstore _ _ r r₁ hr hstored) h
  obtain ⟨v, -, h⟩ := Option.bind_eq_some_iff.mp h
  cases v with
  | null =>
    cases h
    exact hzero
  | obj members => exact hmembers members zero r hzero h
  | _ => cases h

theorem length_renderMembers (ms : List (Bytes × Json)) :
    (renderMembers ms).length = 1 + (ms.map fun m => m.1.length + (render m.2).length + 4).sum := by
  induction ms with
  | nil => rfl
  | cons m ms ih =>
    simp only [renderMembers, List.length_append, List.length_cons, ih, List.map_cons,
      List.sum_cons]
    omega

theorem length_render_obj (m : Bytes × Json) (ms : List (Bytes × Json)) :
    (render (.obj (m :: ms))).length
      = 1 + ((m :: ms).map fun m => m.1.length + (render m.2).length + 4).sum := by
  simp only [render, List.length_append, List.length_cons, length_renderMembers, List.map_cons,
    List.sum_cons]
  omega

theorem length_render_ofString {s : Bytes} (h : ∀ b ∈ s, isPlain b = true) :
    (render (ofString s)).length = s.length + 2 := by
  simp [ofString, render, escapeFrom_plain h]

theorem length_render_ofInt (z : Int) : (render (ofInt z)).length = (formatInt z).length := rfl

end Records

end Json

end Foundation
