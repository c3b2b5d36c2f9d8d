import OriGateway.Foundation.JsonGrammar

/-! # JSON texts read back

The parser inverts the writer: a value whose raw strings and number literals are well formed, and
whose nesting is within the limit, is what its compact text parses to (**`parse_render`**). -/

namespace Foundation

namespace Json

/-! ## The scanners on a decimal form -/

theorem decimal_head {n : Nat} (h : n ≠ 0) :
    ∃ b ds, decimal n = b :: ds ∧ b ≠ 48 ∧ isDigit b = true := by
  cases hd : decimal n with
  | nil => exact absurd hd (decimal_ne_nil n)
  | cons b ds =>
    refine ⟨b, ds, rfl, ?_, decimal_isDigit n b (by simp [hd])⟩
    rintro rfl
    -- The leading digit is the last of the little-endian digits, which is not zero.
    have hne : Nat.digits 10 n ≠ [] := Nat.digits_ne_nil_iff_ne_zero.mpr h
    rw [decimal, if_neg h] at hd
    have hlast : digit ((Nat.digits 10 n).getLast hne) = 48 := by
      have := congrArg List.head? hd
      rw [List.head?_map, List.head?_reverse, List.getLast?_eq_some_getLast hne] at this
      simpa using this
    have hlt := Nat.digits_lt_base (b := 10) (by norm_num) (List.getLast_mem hne)
    have hval := congrArg UInt8.toNat hlast
    rw [digit_toNat hlt] at hval
    have hzero : (Nat.digits 10 n).getLast hne = 0 := by simpa using hval
    exact Nat.getLast_digit_ne_zero 10 h hzero

theorem scanIntPart_decimal (n : Nat) {rest : Bytes} (hrest : NumberEnd rest) :
    scanIntPart (decimal n ++ rest) = some (decimal n, rest) := by
  by_cases h : n = 0
  · subst h
    rfl
  · obtain ⟨b, ds, hd, hzero, hb⟩ := decimal_head h
    have hds : ∀ x ∈ ds, isDigit x = true := fun x hx => decimal_isDigit n x (by simp [hd, hx])
    rw [hd, List.cons_append, scanIntPart.eq_def]
    split
    · next heq => exact absurd (List.cons.inj heq).1 hzero
    · next c tail _ heq =>
      obtain ⟨rfl, rfl⟩ := List.cons.inj heq
      rw [if_pos hb, spanDigits_append hds fun x tail hx => (hrest x tail hx).1]
    · next heq => cases heq

theorem scanSign_formatInt (z : Int) (rest : Bytes) :
    scanSign (formatInt z ++ rest)
      = (if z < 0 then [45] else [], decimal z.natAbs ++ rest) := by
  by_cases h : z < 0
  · rw [formatInt, if_pos h, if_pos h]
    rfl
  · rw [formatInt, if_neg h, if_neg h]
    cases hd : decimal z.natAbs with
    | nil => exact absurd hd (decimal_ne_nil _)
    | cons b ds => exact scanSign_of_ne (decimal_head_ne_minus _ b ds hd) _

theorem scanNumber_formatInt (z : Int) {rest : Bytes} (hrest : NumberEnd rest) :
    scanNumber (formatInt z ++ rest) = some (formatInt z, rest) := by
  simp only [scanNumber, scanSign_formatInt, scanIntPart_decimal z.natAbs hrest,
    scanFraction_end hrest, scanExponent_end hrest, Option.map_some, List.append_nil]
  rw [formatInt]
  split <;> rfl

theorem isNumber_formatInt (z : Int) : IsNumber (formatInt z) where
  starts := by
    by_cases h : z < 0
    · exact ⟨45, decimal z.natAbs, by rw [formatInt, if_pos h], Or.inr rfl⟩
    · cases hd : decimal z.natAbs with
      | nil => exact absurd hd (decimal_ne_nil _)
      | cons b ds =>
        refine ⟨b, ds, by rw [formatInt, if_neg h, hd], Or.inl ?_⟩
        exact decimal_isDigit z.natAbs b (by simp [hd])
  scans _ hrest := scanNumber_formatInt z hrest

/-! ## The compact text -/

mutual

theorem spells_render : ∀ v : Json, Spells v (render v)
  | .null | .bool _ | .num _ | .str _ => ⟨[], space_nil, rfl⟩
  | .arr [] | .obj [] => ⟨[], [], space_nil, space_nil, rfl⟩
  | .arr (v :: vs) =>
    ⟨[], render v, renderItems vs, space_nil, spells_render v,
      spellsItems_render vs, by simp [render]⟩
  | .obj ((name, v) :: ms) =>
    ⟨[], [], [], render v, renderMembers ms, space_nil, space_nil, space_nil, spells_render v,
      spellsMembers_render ms, by simp [render]⟩

theorem spellsItems_render : ∀ vs : List Json, SpellsItems vs (renderItems vs)
  | [] => ⟨[], space_nil, rfl⟩
  | v :: vs =>
    ⟨[], render v, renderItems vs, space_nil, spells_render v, spellsItems_render vs,
      by simp [renderItems]⟩

theorem spellsMembers_render : ∀ ms : List (Bytes × Json), SpellsMembers ms (renderMembers ms)
  | [] => ⟨[], space_nil, rfl⟩
  | (name, v) :: ms =>
    ⟨[], [], [], render v, renderMembers ms, space_nil, space_nil, space_nil, spells_render v,
      spellsMembers_render ms, by simp [renderMembers]⟩

end

/-- **A value parses back from its compact text.** -/
theorem parse_render {v : Json} (h : Fits maxNestingDepth v) : parse (render v) = some v := by
  have hparse := parse_spells (spells_render v) h space_nil
  rwa [List.append_nil] at hparse

end Json

end Foundation
