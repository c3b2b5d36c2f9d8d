import OriGateway.Foundation.Json

/-! # What the JSON scanners read

A raw string or a number literal that a scanner has read is one it reads again, up to the same
place, whatever text follows it (**`of_scanString`**, **`of_scanNumber`**). -/

namespace Foundation

namespace Json

variable {raw rest text : Bytes}

/-! ## Raw strings and number literals -/

def IsRaw (raw : Bytes) : Prop := ∀ rest, scanString (raw ++ 34 :: rest) = some (raw, rest)

def NumberEnd (rest : Bytes) : Prop :=
  ∀ b tail, rest = b :: tail → isDigit b = false ∧ b ≠ 46 ∧ b ≠ 101 ∧ b ≠ 69

/-- A literal the scanner reads as a number, and that starts like one. -/
structure IsNumber (lit : Bytes) : Prop where
  starts : ∃ b tail, lit = b :: tail ∧ (isDigit b = true ∨ b = 45)
  /-- Before text that cannot continue it, the scanner stops at its end. -/
  scans : ∀ rest, NumberEnd rest → scanNumber (lit ++ rest) = some (lit, rest)

def Scans (chunk : Bytes) : Prop :=
  ∀ text, scanString (chunk ++ text) = (scanString text).map fun t => (chunk ++ t.1, t.2)

theorem scans_nil : Scans [] := by
  intro text
  cases h : scanString text <;> simp [h]

theorem Scans.append {xs ys : Bytes} (hx : Scans xs) (hy : Scans ys) : Scans (xs ++ ys) := by
  intro text
  rw [List.append_assoc, hx, hy]
  cases scanString text <;> simp

theorem Scans.isRaw (h : Scans raw) : IsRaw raw := by
  intro rest
  rw [h]
  simp [scanString]

theorem scans_byte {b : UInt8} (hquote : b ≠ 34) (hback : b ≠ 92) (hlow : 32 ≤ b.toNat) :
    Scans [b] := by
  intro text
  rw [List.singleton_append, scanString.eq_def]
  split
  · next h => cases h
  · next h => exact absurd (List.cons.inj h).1 hquote
  · next h => exact absurd (List.cons.inj h).1 hback
  · next h => exact absurd (List.cons.inj h).1 hback
  · next c tail _ _ _ h =>
    obtain ⟨rfl, rfl⟩ := List.cons.inj h
    have hcond : (b == 92 || decide (b.toNat < 32)) = false := by simp [hback, hlow]
    rw [hcond, if_neg (by decide)]
    rfl

theorem scans_simple {c : UInt8} (hc : isSimpleEscape c = true) : Scans [92, c] := by
  intro text
  have hu : c ≠ 117 := by
    rintro rfl
    exact absurd hc (by decide)
  simp only [List.cons_append, List.nil_append]
  rw [scanString.eq_def]
  split
  · next h => cases h
  · next h => exact absurd (List.cons.inj h).1 (by decide)
  · next h => exact absurd (List.cons.inj (List.cons.inj h).2).1 hu
  · next b tail _ h =>
    obtain ⟨rfl, rfl⟩ := List.cons.inj (List.cons.inj h).2
    rw [if_pos hc]
  · next d tail _ _ hno h =>
    obtain ⟨rfl, rfl⟩ := List.cons.inj h
    exact absurd rfl (hno c text rfl)

theorem scans_unit {p q r t : UInt8} (h : (hexUnit p q r t).isSome = true) :
    Scans [92, 117, p, q, r, t] := by
  intro text
  simp only [List.cons_append, List.nil_append, scanString, h, if_true]

/-- **What a raw string is made of**: escapes, and bytes that are no quote, backslash or control
character. -/
inductive RawString : Bytes → Prop where
  | nil : RawString []
  | unit {p q r t : UInt8} {raw : Bytes} (hunit : (hexUnit p q r t).isSome = true)
      (hraw : RawString raw) : RawString (92 :: 117 :: p :: q :: r :: t :: raw)
  | simple {c : UInt8} {raw : Bytes} (hsimple : isSimpleEscape c = true) (hraw : RawString raw) :
      RawString (92 :: c :: raw)
  | byte {b : UInt8} {raw : Bytes} (hquote : b ≠ 34) (hback : b ≠ 92) (hlow : 32 ≤ b.toNat)
      (hraw : RawString raw) : RawString (b :: raw)

theorem RawString.scans (h : RawString raw) : Scans raw := by
  induction h with
  | nil => exact scans_nil
  | unit hunit _ ih => exact (scans_unit hunit).append ih
  | simple hsimple _ ih => exact (scans_simple hsimple).append ih
  | byte hquote hback hlow _ ih => exact (scans_byte hquote hback hlow).append ih

/-- **A string that was read** is a raw string up to its quote. -/
theorem of_scanString (h : scanString text = some (raw, rest)) :
    text = raw ++ 34 :: rest ∧ RawString raw := by
  fun_induction scanString text generalizing raw rest with
  | case1 => cases h
  | case2 =>
    cases h
    exact ⟨rfl, .nil⟩
  | case3 p q r s text hunit ih =>
    obtain ⟨⟨raw', rest'⟩, hscan, heq⟩ := Option.map_eq_some_iff.mp h
    obtain ⟨rfl, hraw⟩ := ih hscan
    cases heq
    exact ⟨rfl, .unit hunit hraw⟩
  | case4 => cases h
  | case5 b text hne hsimple ih =>
    obtain ⟨⟨raw', rest'⟩, hscan, heq⟩ := Option.map_eq_some_iff.mp h
    obtain ⟨rfl, hraw⟩ := ih hscan
    cases heq
    exact ⟨rfl, .simple hsimple hraw⟩
  | case6 => cases h
  | case7 => cases h
  | case8 b text hquote hunit hesc hcond ih =>
    obtain ⟨⟨raw', rest'⟩, hscan, heq⟩ := Option.map_eq_some_iff.mp h
    obtain ⟨rfl, hraw⟩ := ih hscan
    cases heq
    simp only [Bool.or_eq_true, beq_iff_eq, decide_eq_true_eq, not_or, not_lt] at hcond
    exact ⟨rfl, .byte (fun hb => hquote hb) hcond.1 hcond.2 hraw⟩

theorem isRaw_iff : IsRaw raw ↔ RawString raw :=
  ⟨fun h => (of_scanString (h [])).2, fun h => h.scans.isRaw⟩

theorem spanDigits_append {ds : Bytes} (hds : ∀ b ∈ ds, isDigit b = true)
    (hrest : ∀ b tail, rest = b :: tail → isDigit b = false) :
    spanDigits (ds ++ rest) = (ds, rest) := by
  unfold spanDigits
  rw [List.takeWhile_append_of_pos hds, List.dropWhile_append_of_pos hds]
  cases rest with
  | nil => simp
  | cons b tail => simp [hrest b tail rfl]

theorem scanFraction_end (hrest : NumberEnd rest) : scanFraction rest = some ([], rest) := by
  rw [scanFraction.eq_def]
  split
  · next tail => exact absurd rfl (hrest 46 tail rfl).2.1
  · rfl

theorem scanExponent_end (hrest : NumberEnd rest) : scanExponent rest = some ([], rest) := by
  cases rest with
  | nil => rfl
  | cons b tail =>
    obtain ⟨-, -, he, hE⟩ := hrest b tail rfl
    simp [scanExponent, he, hE]

theorem scanSign_of_ne {b : UInt8} (hb : b ≠ 45) (tail : Bytes) :
    scanSign (b :: tail) = ([], b :: tail) := by
  rw [scanSign.eq_def]
  split
  · next heq => exact absurd (List.cons.inj heq).1 hb
  · rfl

def Leads (p : UInt8 → Prop) (text : Bytes) : Prop := ∀ b tail, text = b :: tail → p b

theorem leads_nil (p : UInt8 → Prop) : Leads p [] := by
  intro b tail h
  cases h

theorem Leads.append {p : UInt8 → Prop} {xs ys : Bytes} (hx : Leads p xs) (hy : Leads p ys) :
    Leads p (xs ++ ys) := by
  cases xs with
  | nil => exact hy
  | cons x xs =>
    intro b tail h
    rw [← (List.cons.inj h).1]
    exact hx x xs rfl

theorem Leads.imp {p q : UInt8 → Prop} (h : Leads p text) (hpq : ∀ b, p b → q b) : Leads q text :=
  fun b tail htext => hpq b (h b tail htext)

theorem of_spanDigits (text : Bytes) : (∀ b ∈ (spanDigits text).1, isDigit b = true) ∧
    text = (spanDigits text).1 ++ (spanDigits text).2 :=
  ⟨fun _ hb => List.mem_takeWhile_imp hb, List.takeWhile_append_dropWhile.symm⟩

theorem of_scanIntPart {int : Bytes} (h : scanIntPart text = some (int, rest)) :
    text = int ++ rest ∧ (∃ b tail, int = b :: tail ∧ isDigit b = true) ∧
      ∀ rest', Leads (isDigit · = false) rest' →
        scanIntPart (int ++ rest') = some (int, rest') := by
  revert h
  fun_cases scanIntPart text with
  | case1 tail =>
    intro h
    cases h
    exact ⟨rfl, ⟨48, [], rfl, by decide⟩, fun _ _ => rfl⟩
  | case2 b tail hzero hdigit ds rest' hspan =>
    intro h
    cases h
    obtain ⟨hds, hsplit⟩ := of_spanDigits tail
    rw [hspan] at hds hsplit
    refine ⟨by rw [hsplit]; rfl, ⟨b, ds, rfl, hdigit⟩, fun rest' hrest' => ?_⟩
    rw [List.cons_append, scanIntPart.eq_def]
    split
    · next heq => exact absurd (List.cons.inj heq).1 (fun hb => hzero hb)
    · next c tail' _ heq =>
      obtain ⟨rfl, rfl⟩ := List.cons.inj heq
      rw [if_pos hdigit, spanDigits_append hds hrest']
    · next heq => cases heq
  | case3 =>
    intro h
    cases h
  | case4 =>
    intro h
    cases h

theorem of_scanFraction {frac : Bytes} (h : scanFraction text = some (frac, rest)) :
    text = frac ++ rest ∧ Leads (· = 46) frac ∧
      ∀ rest', Leads (fun b => isDigit b = false ∧ b ≠ 46) rest' →
        scanFraction (frac ++ rest') = some (frac, rest') := by
  revert h
  fun_cases scanFraction text with
  | case1 =>
    intro h
    cases h
  | case2 tail ds rest' hspan hne =>
    intro h
    cases h
    obtain ⟨hds, hsplit⟩ := of_spanDigits tail
    rw [hspan] at hds hsplit
    refine ⟨by rw [hsplit]; rfl, fun b tail hb => (List.cons.inj hb).1.symm, fun rest' hrest' => ?_⟩
    rw [List.cons_append, scanFraction, spanDigits_append hds fun b tail hb => (hrest' b tail hb).1]
    exact if_neg hne
  | case3 _ hdot =>
    intro h
    cases h
    refine ⟨rfl, leads_nil _, fun rest' hrest' => ?_⟩
    rw [List.nil_append, scanFraction.eq_def]
    split
    · next tail => exact absurd rfl (hrest' 46 tail rfl).2
    · rfl

theorem of_scanExponentDigits {lead exp : Bytes}
    (h : scanExponentDigits lead text = some (exp, rest)) :
    ∃ d ds, exp = lead ++ d :: ds ∧ text = d :: ds ++ rest ∧ (isDigit d = true) ∧
      ∀ rest', Leads (isDigit · = false) rest' →
        scanExponentDigits lead (d :: ds ++ rest') = some (exp, rest') := by
  unfold scanExponentDigits at h ⊢
  obtain ⟨hds, hsplit⟩ := of_spanDigits text
  dsimp only at h
  split_ifs at h with hne
  cases h
  cases hspan : (spanDigits text).1 with
  | nil => exact absurd hspan hne
  | cons d ds =>
    rw [hspan] at hds hsplit
    refine ⟨d, ds, rfl, hsplit, hds d (by simp), fun rest' hrest' => ?_⟩
    rw [spanDigits_append hds hrest']
    simp

theorem of_scanExponent {exp : Bytes} (h : scanExponent text = some (exp, rest)) :
    text = exp ++ rest ∧ Leads (fun b => b = 101 ∨ b = 69) exp ∧
      ∀ rest', NumberEnd rest' → scanExponent (exp ++ rest') = some (exp, rest') := by
  revert h
  fun_cases scanExponent text with
  | case1 e he s tail hs =>
    intro h
    obtain ⟨d, ds, rfl, rfl, -, hagain⟩ := of_scanExponentDigits h
    refine ⟨rfl, ?_, fun rest' hrest' => ?_⟩
    · rintro b tail heq
      cases heq
      simpa using he
    · have := hagain rest' fun b tail hb => (hrest' b tail hb).1
      simpa [scanExponent, he, hs] using this
  | case2 e he s tail hs =>
    intro h
    obtain ⟨d, ds, rfl, heq, hd, hagain⟩ := of_scanExponentDigits h
    refine ⟨by rw [heq]; rfl, ?_, fun rest' hrest' => ?_⟩
    · rintro b tail heq
      cases heq
      simpa using he
    · have hsign : (d == 43 || d == 45) = false := by
        cases heq
        simpa using hs
      have := hagain rest' fun b tail hb => (hrest' b tail hb).1
      simpa [scanExponent, he, hsign] using this
  | case3 =>
    intro h
    cases h
  | case4 e tail he =>
    intro h
    cases h
    exact ⟨rfl, leads_nil _, fun rest' hrest' => scanExponent_end hrest'⟩
  | case5 =>
    intro h
    cases h
    exact ⟨rfl, leads_nil _, fun rest' hrest' => scanExponent_end hrest'⟩

theorem of_scanSign (text : Bytes) : text = (scanSign text).1 ++ (scanSign text).2 ∧
    Leads (· = 45) (scanSign text).1 ∧
      ∀ b tail, isDigit b = true →
        scanSign ((scanSign text).1 ++ b :: tail) = ((scanSign text).1, b :: tail) := by
  fun_cases scanSign text with
  | case1 tail => exact ⟨rfl, fun b tail hb => (List.cons.inj hb).1.symm, fun _ _ _ => rfl⟩
  | case2 _ hminus =>
    refine ⟨rfl, leads_nil _, fun b tail hb => scanSign_of_ne ?_ tail⟩
    rintro rfl
    exact absurd hb (by decide)

/-- **A number that was read** is a number literal. -/
theorem of_scanNumber {lit : Bytes} (h : scanNumber text = some (lit, rest)) :
    text = lit ++ rest ∧ IsNumber lit := by
  obtain ⟨hsign, hlead, hsign'⟩ := of_scanSign text
  unfold scanNumber at h
  split at h
  · cases h
  · next int rest₁ hint =>
    split at h
    · cases h
    · next frac rest₂ hfrac =>
      obtain ⟨⟨exp, rest₃⟩, hexp, heq⟩ := Option.map_eq_some_iff.mp h
      cases heq
      obtain ⟨htext₁, ⟨d, ds, rfl, hd⟩, hint'⟩ := of_scanIntPart hint
      obtain ⟨rfl, hdot, hfrac'⟩ := of_scanFraction hfrac
      obtain ⟨rfl, hletter, hexp'⟩ := of_scanExponent hexp
      refine ⟨?_, ⟨?_, fun rest' hrest' => ?_⟩⟩
      · rw [htext₁] at hsign
        simpa using hsign
      · cases hs : (scanSign text).1 with
        | nil => exact ⟨d, _, rfl, .inl hd⟩
        | cons b tail =>
          rw [hs] at hlead
          exact ⟨b, _, rfl, .inr (hlead b tail rfl)⟩
      · -- each part ends where the next one, or the text after the number, starts
        have hend : Leads (fun b => isDigit b = false ∧ b ≠ 46) (exp ++ rest') := by
          refine (hletter.imp ?_).append fun b tail hb =>
            ⟨(hrest' b tail hb).1, (hrest' b tail hb).2.1⟩
          rintro b (rfl | rfl) <;> decide
        have hend' : Leads (isDigit · = false) (frac ++ (exp ++ rest')) := by
          refine (hdot.imp ?_).append (hend.imp fun b hb => hb.1)
          rintro b rfl
          decide
        have hnumber := hint' _ hend'
        rw [List.cons_append] at hnumber
        simp only [scanNumber, List.append_assoc, List.cons_append, hsign' d _ hd, hnumber,
          hfrac' _ hend, hexp' rest' hrest', Option.map_some]

end Json

end Foundation
