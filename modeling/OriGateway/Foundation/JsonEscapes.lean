import OriGateway.Foundation.JsonReading

/-! # The escapes of a JSON string

A raw string as the reader takes it from left to right, and when its surrogate escapes are
paired. -/

namespace Foundation

/-- Whether a text is UTF-8 does not depend on a well-formed text before it. -/
theorem Utf8.valid_append {bs : Bytes} (h : valid bs = true) (text : Bytes) :
    valid (bs ++ text) = valid text := by
  induction bs using sequence_induction with
  | nil => rfl
  | invalid b rest hdec ih => simp [valid, runes, runesFrom, hdec] at h
  | sequence lead cont after rune hd ih =>
    rw [valid_cons hd] at h
    rw [List.cons_append, List.append_assoc, valid_cons hd, ih h]

theorem Utf8.valid_ascii_append {bs : Bytes} (h : ∀ b ∈ bs, b.toNat < 0x80) (text : Bytes) :
    valid (bs ++ text) = valid text := by
  induction bs with
  | nil => rfl
  | cons b bs ih =>
    exact (valid_cons (Json.decodes_ascii (h b List.mem_cons_self))).trans
      (ih fun b hb => h b (List.mem_cons_of_mem _ hb))

/-- **An ill-formed byte** stays one when an ASCII byte is written after the text. -/
theorem Utf8.decodeRune_append_ascii {b c : UInt8} (hc : c.toNat < 0x80) {text : Bytes}
    (h : decodeRune b text = none) : decodeRune b (text ++ [c]) = none := by
  cases hdecode : decodeRune b (text ++ [c]) with
  | none => rfl
  | some d =>
    obtain ⟨cont, after, heq, -, hd⟩ := decodes_of_decodeRune hdecode
    -- the continuation bytes are not ASCII, so all of them stand before the last byte
    obtain ⟨mid, rfl, hlast⟩ | ⟨mid, rfl, -⟩ := List.append_eq_append_iff.mp heq
    · cases mid with
      | nil =>
        have hsome := hd.decode []
        rw [List.append_nil, List.append_nil, h] at hsome
        cases hsome
      | cons c' mid =>
        obtain ⟨rfl, -⟩ := List.cons.inj hlast
        have hhigh := hd.high c (by simp)
        omega
    · rw [hd.decode] at h
      cases h

namespace Json

theorem hexUnit_ascii {p q r t : UInt8} {u : Nat} (h : hexUnit p q r t = some u) :
    ∀ b ∈ [92, 117, p, q, r, t], b.toNat < 0x80 := by
  have hvalue : ∀ {b : UInt8} {n : Nat}, hexValue b = some n → b.toNat < 0x80 := by
    intro b n hb
    simp only [hexValue] at hb
    split_ifs at hb <;> omega
  unfold hexUnit at h
  split at h
  · next ha hb hc hd => simp [hvalue ha, hvalue hb, hvalue hc, hvalue hd]
  · cases h

theorem lt_of_isSimpleEscape {c : UInt8} (h : isSimpleEscape c = true) : c.toNat < 0x80 := by
  simp only [isSimpleEscape, Bool.or_eq_true, beq_iff_eq] at h
  obtain (((((((rfl | rfl) | rfl) | rfl) | rfl) | rfl) | rfl) | rfl) := h <;> decide

/-- **A name that reads as ASCII** was not repaired. -/
theorem isScalarString_of_ascii {raw : Bytes} (hraw : RawString raw)
    (h : ∀ b ∈ unquote raw, b.toNat < 0x80) : isScalarString raw = true := by
  unfold unquote at h
  unfold isScalarString
  have hreplaced : ¬ ∀ b ∈ Utf8.encodeRune Utf8.replacement, b.toNat < 0x80 := fun h =>
    absurd (h 239 (by decide)) (by decide)
  revert h
  apply hraw.read_induction (motive := fun raw =>
    (∀ b ∈ unquoteFrom 0 raw, b.toNat < 0x80) → isScalarFrom 0 raw = true)
  case nil => exact fun _ => rfl
  case unit =>
    intro p q r t raw u hu hs _ ih h
    rw [unquoteFrom_unit hu hs] at h
    rw [isScalarFrom_unit hu hs, ih fun b hb => h b (List.mem_append_right _ hb)]
  case pair =>
    intro p q r t p' q' r' t' raw u u' rune hu hu' hpair _ ih h
    rw [unquoteFrom_pair hu hu' hpair] at h
    rw [isScalarFrom_pair hu hu' hpair, ih fun b hb => h b (List.mem_append_right _ hb)]
  case lone =>
    intro p q r t raw u hu hlone _ _ _ h
    rw [unquoteFrom_lone hu hlone] at h
    exact absurd (fun b hb => h b (List.mem_append_left _ hb)) hreplaced
  case simple =>
    intro c raw hsimple _ ih h
    have hc := ne_unit_of_isSimpleEscape hsimple
    rw [unquoteFrom_simple hc] at h
    rw [isScalarFrom_simple hc, ih fun b hb => h b (List.mem_cons_of_mem _ hb)]
  case sequence =>
    intro lead cont raw rune hd _ hback _ _ ih h
    rw [unquoteFrom_sequence hd hback] at h
    rw [isScalarFrom_sequence hd hback,
      ih fun b hb => h b (List.mem_cons_of_mem _ (List.mem_append_right _ hb))]
  case invalid =>
    intro b raw hdecode _ _ _ _ _ h
    rw [unquoteFrom_invalid hdecode] at h
    exact absurd (fun b hb => h b (List.mem_append_left _ hb)) hreplaced

inductive StringToken where
  | byte (b : UInt8)
  | simple (c : UInt8)
  | unit (u : Nat)

/-- The tokens of a string's body. -/
def stringTokens : Bytes → List StringToken
  | [] => []
  | b :: rest =>
    if b = 92 then
      match rest with
      | 117 :: p :: q :: r :: t :: after =>
        .unit ((hexUnit p q r t).getD Utf8.replacement) :: stringTokens after
      | c :: after => .simple c :: stringTokens after
      | [] => []
    else .byte b :: stringTokens rest

def IsHigh (u : Nat) : Prop := 0xD800 ≤ u ∧ u ≤ 0xDBFF

def IsLow (u : Nat) : Prop := 0xDC00 ≤ u ∧ u ≤ 0xDFFF

/-- Every surrogate escape is a high half followed at once by a low half, or the low half of such a
pair. -/
def SurrogatesPaired (ts : List StringToken) : Prop :=
  ∀ i u, ts[i]? = some (.unit u) →
    (IsHigh u → ∃ v, ts[i + 1]? = some (.unit v) ∧ IsLow v) ∧
    (IsLow u → ∃ j v, i = j + 1 ∧ ts[j]? = some (.unit v) ∧ IsHigh v)

theorem isSurrogate_iff {u : Nat} : isSurrogate u = true ↔ IsHigh u ∨ IsLow u := by
  simp only [isSurrogate, Bool.and_eq_true, decide_eq_true_eq, IsHigh, IsLow]
  omega

theorem surrogatePair_isSome {u v : Nat} :
    (surrogatePair u v).isSome = true ↔ IsHigh u ∧ IsLow v := by
  unfold surrogatePair IsHigh IsLow
  split <;> simp <;> omega

theorem stringTokens_byte {b : UInt8} (h : b ≠ 92) (rest : Bytes) :
    stringTokens (b :: rest) = .byte b :: stringTokens rest := by
  rw [stringTokens.eq_def]
  simp only [if_neg h]

theorem stringTokens_simple {c : UInt8} (h : c ≠ 117) (rest : Bytes) :
    stringTokens (92 :: c :: rest) = .simple c :: stringTokens rest := by
  rw [stringTokens.eq_def]
  simp only [if_true]
  split
  · next heq => exact absurd (List.cons.inj heq).1 h
  · next heq =>
    obtain ⟨rfl, rfl⟩ := List.cons.inj heq
    rfl
  · next heq => cases heq

theorem stringTokens_unit {p q r t : UInt8} {u : Nat} (h : hexUnit p q r t = some u)
    (rest : Bytes) :
    stringTokens (92 :: 117 :: p :: q :: r :: t :: rest) = .unit u :: stringTokens rest := by
  rw [stringTokens.eq_def]
  simp only [if_true, h, Option.getD_some]

/-- **An element that is no surrogate** leaves the pairing of those after it as it is. -/
theorem surrogatesPaired_cons {t : StringToken} (ht : ∀ u, t = .unit u → isSurrogate u = false)
    (ts : List StringToken) : SurrogatesPaired (t :: ts) ↔ SurrogatesPaired ts := by
  have hno : ∀ u, t = .unit u → ¬ IsHigh u ∧ ¬ IsLow u := by
    intro u hu
    rw [← not_or, ← isSurrogate_iff, ht u hu]
    exact Bool.false_ne_true
  constructor
  · intro h i u hu
    obtain ⟨hhigh, hlow⟩ := h (i + 1) u hu
    refine ⟨hhigh, fun hl => ?_⟩
    obtain ⟨j, v, hj, hv, hvhigh⟩ := hlow hl
    obtain rfl : i = j := by omega
    cases i with
    | zero => exact absurd hvhigh (hno v (by simpa using hv)).1
    | succ k => exact ⟨k, v, rfl, hv, hvhigh⟩
  · intro h i u hu
    cases i with
    | zero => exact ⟨fun hh => absurd hh (hno u (by simpa using hu)).1,
        fun hl => absurd hl (hno u (by simpa using hu)).2⟩
    | succ i =>
      obtain ⟨hhigh, hlow⟩ := h i u hu
      refine ⟨hhigh, fun hl => ?_⟩
      obtain ⟨j, v, rfl, hv, hvhigh⟩ := hlow hl
      exact ⟨j + 1, v, rfl, hv, hvhigh⟩

/-- **A pair** leaves the pairing of those after it as it is. -/
theorem surrogatesPaired_pair {u v : Nat} (hu : IsHigh u) (hv : IsLow v) (ts : List StringToken) :
    SurrogatesPaired (.unit u :: .unit v :: ts) ↔ SurrogatesPaired ts := by
  have hvhigh : ¬ IsHigh v := by
    unfold IsHigh IsLow at *
    omega
  have hulow : ¬ IsLow u := by
    unfold IsHigh IsLow at *
    omega
  constructor
  · intro h i w hw
    obtain ⟨hhigh, hlow⟩ := h (i + 2) w hw
    refine ⟨hhigh, fun hl => ?_⟩
    obtain ⟨j, x, hj, hx, hxhigh⟩ := hlow hl
    obtain rfl : j = i + 1 := by omega
    cases i with
    | zero =>
      obtain rfl : v = x := by simpa using hx
      exact absurd hxhigh hvhigh
    | succ k => exact ⟨k, x, rfl, hx, hxhigh⟩
  · intro h i w hw
    match i with
    | 0 =>
      obtain rfl : u = w := by simpa using hw
      exact ⟨fun _ => ⟨v, rfl, hv⟩, fun hl => absurd hl hulow⟩
    | 1 =>
      obtain rfl : v = w := by simpa using hw
      exact ⟨fun hh => absurd hh hvhigh, fun _ => ⟨0, u, rfl, rfl, hu⟩⟩
    | i + 2 =>
      obtain ⟨hhigh, hlow⟩ := h i w hw
      refine ⟨hhigh, fun hl => ?_⟩
      obtain ⟨j, x, rfl, hx, hxhigh⟩ := hlow hl
      exact ⟨j + 2, x, rfl, hx, hxhigh⟩

/-- **A surrogate that is half of no pair** is found. -/
theorem not_surrogatesPaired_lone {u : Nat} (hs : isSurrogate u = true) {ts : List StringToken}
    (hnext : ∀ v, ts.head? = some (.unit v) → surrogatePair u v = none) :
    ¬ SurrogatesPaired (.unit u :: ts) := by
  intro h
  obtain ⟨hhigh, hlow⟩ := h 0 u rfl
  obtain hu | hu := isSurrogate_iff.mp hs
  · obtain ⟨v, hv, hvlow⟩ := hhigh hu
    have hpair := surrogatePair_isSome.mpr ⟨hu, hvlow⟩
    rw [hnext v (by simpa [List.head?_eq_getElem?] using hv)] at hpair
    cases hpair
  · obtain ⟨j, v, hj, -⟩ := hlow hu
    omega

end Json

end Foundation
