import OriGateway.Foundation.JsonScan

/-! # The grammar of JSON texts

What a text spells, said without the parser: **`Spells`** relates a value to the texts that write
it, white space and all. The parser is sound (**`of_parse`**) and complete (**`parse_spells`**) for
it, within its nesting limit. -/

namespace Foundation

namespace Json

/-! ## Values within a nesting bound -/

mutual

/-- A value whose raw parts are well formed and whose nesting is within a bound. -/
def Fits : Nat → Json → Prop
  | _, .null => True
  | _, .bool _ => True
  | _, .num lit => IsNumber lit
  | _, .str raw => IsRaw raw
  | 0, .arr _ => False
  | depth + 1, .arr vs => FitsItems depth vs
  | 0, .obj _ => False
  | depth + 1, .obj ms => FitsMembers depth ms

def FitsItems : Nat → List Json → Prop
  | _, [] => True
  | depth, v :: vs => Fits depth v ∧ FitsItems depth vs

def FitsMembers : Nat → List (Bytes × Json) → Prop
  | _, [] => True
  | depth, (name, v) :: ms => IsRaw name ∧ Fits depth v ∧ FitsMembers depth ms

end

mutual

def weight : Json → Nat
  | .arr vs => 1 + weightItems vs
  | .obj ms => 1 + weightMembers ms
  | _ => 1

def weightItems : List Json → Nat
  | [] => 0
  | v :: vs => 1 + weight v + weightItems vs

def weightMembers : List (Bytes × Json) → Nat
  | [] => 0
  | (_, v) :: ms => 1 + weight v + weightMembers ms

end

/-- The text of a value starts with a byte that is neither white space nor a closing bracket. -/
theorem render_head (v : Json) {depth : Nat} (h : Fits depth v) :
    ∃ b tail, render v = b :: tail ∧ isSpace b = false ∧ b ≠ 93 := by
  match v with
  | .null => exact ⟨110, _, rfl, by decide, by decide⟩
  | .bool true => exact ⟨116, _, rfl, by decide, by decide⟩
  | .bool false => exact ⟨102, _, rfl, by decide, by decide⟩
  | .str raw => exact ⟨34, _, rfl, by decide, by decide⟩
  | .arr [] => exact ⟨91, _, rfl, by decide, by decide⟩
  | .arr (_ :: _) => exact ⟨91, _, rfl, by decide, by decide⟩
  | .obj [] => exact ⟨123, _, rfl, by decide, by decide⟩
  | .obj ((_, _) :: _) => exact ⟨123, _, rfl, by decide, by decide⟩
  | .num lit =>
    simp only [Fits] at h
    obtain ⟨b, tail, rfl, hb | rfl⟩ := h.starts
    · refine ⟨b, tail, rfl, ?_, ?_⟩
      · simp only [isSpace, Bool.or_eq_false_iff, beq_eq_false_iff_ne, ne_eq]
        refine ⟨⟨⟨?_, ?_⟩, ?_⟩, ?_⟩
        all_goals (rintro rfl; exact absurd hb (by decide))
      · rintro rfl
        exact absurd hb (by decide)
    · exact ⟨45, tail, rfl, by decide, by decide⟩

theorem skipSpace_cons {b : UInt8} (hb : isSpace b = false) (tail : Bytes) :
    skipSpace (b :: tail) = b :: tail := by
  simp [skipSpace, hb]

theorem numberEnd_nil : NumberEnd [] := by
  intro b tail h
  cases h

theorem numberEnd_cons {b : UInt8} {tail : Bytes}
    (h : isDigit b = false ∧ b ≠ 46 ∧ b ≠ 101 ∧ b ≠ 69) : NumberEnd (b :: tail) := by
  intro b' tail' heq
  obtain ⟨rfl, -⟩ := List.cons.inj heq
  exact h

theorem parseValue_num {lit : Bytes} (h : IsNumber lit) (fuel depth : Nat) {rest : Bytes}
    (hrest : NumberEnd rest) :
    parseValue (fuel + 1) depth (lit ++ rest) = some (.num lit, rest) := by
  have hscan := h.scans rest hrest
  obtain ⟨b, tail, rfl, hb⟩ := h.starts
  have hclass : isDigit b = true ∨ b = 45 → isSpace b = false ∧ b ≠ 110 ∧ b ≠ 116 ∧ b ≠ 102 ∧
      b ≠ 34 ∧ b ≠ 91 ∧ b ≠ 123 := by
    rintro (hb | rfl)
    · refine ⟨?_, ?_, ?_, ?_, ?_, ?_, ?_⟩
      · simp only [isSpace, Bool.or_eq_false_iff, beq_eq_false_iff_ne, ne_eq]
        refine ⟨⟨⟨?_, ?_⟩, ?_⟩, ?_⟩
        all_goals (rintro rfl; exact absurd hb (by decide))
      all_goals (rintro rfl; exact absurd hb (by decide))
    · decide
  obtain ⟨hspace, h1, h2, h3, h4, h5, h6⟩ := hclass hb
  rw [List.cons_append, parseValue, skipSpace_cons hspace]
  split
  · next heq => exact absurd (List.cons.inj heq).1 h1
  · next heq => exact absurd (List.cons.inj heq).1 h2
  · next heq => exact absurd (List.cons.inj heq).1 h3
  · next heq => exact absurd (List.cons.inj heq).1 h4
  · next heq => exact absurd (List.cons.inj heq).1 h5
  · next heq => exact absurd (List.cons.inj heq).1 h6
  · rw [← List.cons_append, hscan]
    rfl

/-! ## The grammar -/

def Space (text : Bytes) : Prop := ∀ b ∈ text, isSpace b = true

mutual

/-- **What a text spells**: a value, with white space before it and around its parts. -/
def Spells : Json → Bytes → Prop
  | .arr [], text => ∃ w w', Space w ∧ Space w' ∧ text = w ++ 91 :: (w' ++ [93])
  | .arr (v :: vs), text =>
    ∃ w t r, Space w ∧ Spells v t ∧ SpellsItems vs r ∧ text = w ++ 91 :: (t ++ r)
  | .obj [], text => ∃ w w', Space w ∧ Space w' ∧ text = w ++ 123 :: (w' ++ [125])
  | .obj ((name, v) :: ms), text =>
    ∃ w w₁ w₂ t r, Space w ∧ Space w₁ ∧ Space w₂ ∧ Spells v t ∧ SpellsMembers ms r ∧
      text = w ++ 123 :: (w₁ ++ 34 :: (name ++ 34 :: (w₂ ++ 58 :: (t ++ r))))
  | v, text => ∃ w, Space w ∧ text = w ++ render v

/-- What a text after an item spells: the other items of the array, to its closing bracket. -/
def SpellsItems : List Json → Bytes → Prop
  | [], text => ∃ w, Space w ∧ text = w ++ [93]
  | v :: vs, text =>
    ∃ w t r, Space w ∧ Spells v t ∧ SpellsItems vs r ∧ text = w ++ 44 :: (t ++ r)

/-- What a text after a member spells: the other members of the object, to its closing brace. -/
def SpellsMembers : List (Bytes × Json) → Bytes → Prop
  | [], text => ∃ w, Space w ∧ text = w ++ [125]
  | (name, v) :: ms, text =>
    ∃ w w₁ w₂ t r, Space w ∧ Space w₁ ∧ Space w₂ ∧ Spells v t ∧ SpellsMembers ms r ∧
      text = w ++ 44 :: (w₁ ++ 34 :: (name ++ 34 :: (w₂ ++ 58 :: (t ++ r))))

end

theorem skipSpace_append {w : Bytes} (hw : Space w) {b : UInt8} (hb : isSpace b = false)
    (rest : Bytes) : skipSpace (w ++ b :: rest) = b :: rest := by
  rw [skipSpace, List.dropWhile_append_of_pos hw]
  exact skipSpace_cons hb rest

theorem of_skipSpace {text : Bytes} {b : UInt8} {rest : Bytes} (h : skipSpace text = b :: rest) :
    ∃ w, Space w ∧ text = w ++ b :: rest := by
  refine ⟨text.takeWhile isSpace, fun c hc => List.mem_takeWhile_imp hc, ?_⟩
  rw [← h]
  exact List.takeWhile_append_dropWhile.symm

theorem Space.append {w w' : Bytes} (hw : Space w) (hw' : Space w') : Space (w ++ w') := by
  intro b hb
  rcases List.mem_append.mp hb with hb | hb
  · exact hw b hb
  · exact hw' b hb

theorem space_nil : Space [] := by
  intro b hb
  cases hb

theorem Spells.space {v : Json} {text w : Bytes} (hw : Space w) (h : Spells v text) :
    Spells v (w ++ text) := by
  match v with
  | .null | .bool _ | .num _ | .str _ =>
    obtain ⟨w', hw', rfl⟩ := h
    exact ⟨w ++ w', hw.append hw', by rw [List.append_assoc]⟩
  | .arr [] | .obj [] =>
    obtain ⟨w', w'', hw', hw'', rfl⟩ := h
    exact ⟨w ++ w', w'', hw.append hw', hw'', by rw [List.append_assoc]⟩
  | .arr (_ :: _) =>
    obtain ⟨w', t, r, hw', ht, hr, rfl⟩ := h
    exact ⟨w ++ w', t, r, hw.append hw', ht, hr, by rw [List.append_assoc]⟩
  | .obj ((_, _) :: _) =>
    obtain ⟨w', w₁, w₂, t, r, hw', hw₁, hw₂, ht, hr, rfl⟩ := h
    exact ⟨w ++ w', w₁, w₂, t, r, hw.append hw', hw₁, hw₂, ht, hr, by rw [List.append_assoc]⟩

theorem skipSpace_split (text : Bytes) : ∃ w, Space w ∧ text = w ++ skipSpace text :=
  ⟨text.takeWhile isSpace, fun _ hc => List.mem_takeWhile_imp hc,
    List.takeWhile_append_dropWhile.symm⟩

/-! ## The parser is sound -/

mutual

theorem of_parseValue : ∀ (fuel depth : Nat) (text : Bytes) (v : Json) (rest : Bytes),
    parseValue fuel depth text = some (v, rest) →
      ∃ t, text = t ++ rest ∧ Spells v t ∧ Fits depth v
  | 0, _, _, _, _, h => by simp [parseValue] at h
  | fuel + 1, depth, text, v, rest, h => by
    rw [parseValue] at h
    split at h
    · next hskip =>
      cases h
      obtain ⟨w, hw, rfl⟩ := of_skipSpace hskip
      exact ⟨w ++ render .null, by simp [render], ⟨w, hw, rfl⟩, by simp [Fits]⟩
    · next hskip =>
      cases h
      obtain ⟨w, hw, rfl⟩ := of_skipSpace hskip
      exact ⟨w ++ render (.bool true), by simp [render], ⟨w, hw, rfl⟩, by simp [Fits]⟩
    · next hskip =>
      cases h
      obtain ⟨w, hw, rfl⟩ := of_skipSpace hskip
      exact ⟨w ++ render (.bool false), by simp [render], ⟨w, hw, rfl⟩, by simp [Fits]⟩
    · next hskip =>
      obtain ⟨⟨raw, rest'⟩, hscan, heq⟩ := Option.map_eq_some_iff.mp h
      cases heq
      obtain ⟨w, hw, rfl⟩ := of_skipSpace hskip
      obtain ⟨rfl, hraw⟩ := of_scanString hscan
      exact ⟨w ++ render (.str raw), by simp [render],
        ⟨w, hw, rfl⟩, by simpa [Fits] using hraw.scans.isRaw⟩
    · next hskip =>
      obtain ⟨w, hw, rfl⟩ := of_skipSpace hskip
      cases depth with
      | zero => cases h
      | succ depth =>
        simp only at h
        split at h
        · next hclose =>
          cases h
          obtain ⟨w', hw', rfl⟩ := of_skipSpace hclose
          exact ⟨w ++ 91 :: (w' ++ [93]), by simp, ⟨w, w', hw, hw', rfl⟩, by simp [Fits, FitsItems]⟩
        · obtain ⟨⟨vs, rest'⟩, hitems, heq⟩ := Option.map_eq_some_iff.mp h
          cases heq
          next rest₁ _ _ =>
          obtain ⟨w', hw', hsplit⟩ := skipSpace_split rest₁
          obtain ⟨v, vs', t, r, rfl, htext, hv, hvs, hfits⟩ := of_parseItems fuel depth _ _ _ hitems
          refine ⟨w ++ 91 :: (w' ++ t ++ r), ?_, ⟨w, w' ++ t, r, hw, hv.space hw', hvs, rfl⟩, hfits⟩
          rw [hsplit, htext]
          simp
    · next hskip =>
      obtain ⟨w, hw, rfl⟩ := of_skipSpace hskip
      cases depth with
      | zero => cases h
      | succ depth =>
        simp only at h
        split at h
        · next hclose =>
          cases h
          obtain ⟨w', hw', rfl⟩ := of_skipSpace hclose
          exact ⟨w ++ 123 :: (w' ++ [125]), by simp,
            ⟨w, w', hw, hw', rfl⟩, by simp [Fits, FitsMembers]⟩
        · obtain ⟨⟨ms, rest'⟩, hmembers, heq⟩ := Option.map_eq_some_iff.mp h
          cases heq
          next rest₁ _ _ =>
          obtain ⟨w', hw', hsplit⟩ := skipSpace_split rest₁
          obtain ⟨name, v, ms', w₁, w₂, t, r, rfl, htext, hw₁, hw₂, hv, hms, hfits⟩ :=
            of_parseMembers fuel depth _ _ _ hmembers
          refine ⟨w ++ 123 :: (w' ++ w₁ ++ 34 :: (name ++ 34 :: (w₂ ++ 58 :: (t ++ r)))), ?_,
            ⟨w, w' ++ w₁, w₂, t, r, hw, hw'.append hw₁, hw₂, hv, hms, rfl⟩, hfits⟩
          rw [hsplit, htext]
          simp
    · obtain ⟨⟨lit, rest'⟩, hscan, heq⟩ := Option.map_eq_some_iff.mp h
      cases heq
      obtain ⟨w, hw, hsplit⟩ := skipSpace_split text
      obtain ⟨hlit, hnumber⟩ := of_scanNumber hscan
      refine ⟨w ++ lit, ?_, ⟨w, hw, rfl⟩, by simpa [Fits] using hnumber⟩
      rw [hsplit, hlit, List.append_assoc]

theorem of_parseItems : ∀ (fuel depth : Nat) (text : Bytes) (vs : List Json) (rest : Bytes),
    parseItems fuel depth text = some (vs, rest) →
      ∃ v vs' t r, vs = v :: vs' ∧ text = t ++ (r ++ rest) ∧ Spells v t ∧ SpellsItems vs' r ∧
        FitsItems depth vs
  | 0, _, _, _, _, h => by simp [parseItems] at h
  | fuel + 1, depth, text, vs, rest, h => by
    rw [parseItems] at h
    split at h
    · cases h
    · next v rest₁ hv =>
      obtain ⟨t, rfl, hspells, hfits⟩ := of_parseValue fuel depth text v rest₁ hv
      split at h
      · next hskip =>
        obtain ⟨⟨vs', rest'⟩, hitems, heq⟩ := Option.map_eq_some_iff.mp h
        cases heq
        obtain ⟨w, hw, rfl⟩ := of_skipSpace hskip
        obtain ⟨v', vs'', t', r', rfl, rfl, hspells', hitems', hfits'⟩ :=
          of_parseItems fuel depth _ _ _ hitems
        refine ⟨v, _, t, w ++ 44 :: (t' ++ r'), rfl, by simp, hspells,
          ⟨w, t', r', hw, hspells', hitems', rfl⟩,
          hfits, hfits'⟩
      · next hskip =>
        cases h
        obtain ⟨w, hw, rfl⟩ := of_skipSpace hskip
        exact ⟨v, [], t, w ++ [93], rfl, by simp, hspells, ⟨w, hw, rfl⟩, hfits, trivial⟩
      · cases h

theorem of_parseMembers :
    ∀ (fuel depth : Nat) (text : Bytes) (ms : List (Bytes × Json)) (rest : Bytes),
    parseMembers fuel depth text = some (ms, rest) →
      ∃ name v ms' w₁ w₂ t r, ms = (name, v) :: ms' ∧
        text = w₁ ++ 34 :: (name ++ 34 :: (w₂ ++ 58 :: (t ++ (r ++ rest)))) ∧ Space w₁ ∧ Space w₂ ∧
          Spells v t ∧ SpellsMembers ms' r ∧ FitsMembers depth ms
  | 0, _, _, _, _, h => by simp [parseMembers] at h
  | fuel + 1, depth, text, ms, rest, h => by
    rw [parseMembers] at h
    split at h
    · next hquote =>
      obtain ⟨w₁, hw₁, rfl⟩ := of_skipSpace hquote
      split at h
      · cases h
      · next name rest₁ hscan =>
        obtain ⟨rfl, hname⟩ := of_scanString hscan
        split at h
        · next hcolon =>
          obtain ⟨w₂, hw₂, rfl⟩ := of_skipSpace hcolon
          split at h
          · cases h
          · next v rest₂ hv =>
            obtain ⟨t, rfl, hspells, hfits⟩ := of_parseValue fuel depth _ v rest₂ hv
            split at h
            · next hskip =>
              obtain ⟨⟨ms', rest'⟩, hmembers, heq⟩ := Option.map_eq_some_iff.mp h
              cases heq
              obtain ⟨w, hw, rfl⟩ := of_skipSpace hskip
              obtain ⟨name', v', ms'', w₁', w₂', t', r', rfl, rfl, hw₁', hw₂', hspells', hms',
                hfits'⟩ :=
                of_parseMembers fuel depth _ _ _ hmembers
              exact ⟨name, v, _, w₁, w₂, t,
                w ++ 44 :: (w₁' ++ 34 :: (name' ++ 34 :: (w₂' ++ 58 :: (t' ++ r')))),
                rfl, by simp, hw₁, hw₂, hspells,
                ⟨w, w₁', w₂', t', r', hw, hw₁', hw₂', hspells', hms', rfl⟩,
                hname.scans.isRaw, hfits, hfits'⟩
            · next hskip =>
              cases h
              obtain ⟨w, hw, rfl⟩ := of_skipSpace hskip
              exact ⟨name, v, [], w₁, w₂, t, w ++ [125], rfl, by simp, hw₁, hw₂, hspells,
                ⟨w, hw, rfl⟩,
                hname.scans.isRaw, hfits, trivial⟩
            · cases h
        · cases h
    · cases h

end

/-! ## The parser is complete -/

theorem numberEnd_of_isSpace {b : UInt8} (hb : isSpace b = true) (rest : Bytes) :
    NumberEnd (b :: rest) := by
  refine numberEnd_cons ?_
  simp only [isSpace, Bool.or_eq_true, beq_iff_eq] at hb
  rcases hb with ((rfl | rfl) | rfl) | rfl <;> decide

theorem numberEnd_space {w : Bytes} (hw : Space w) {b : UInt8} {rest : Bytes}
    (hb : isDigit b = false ∧ b ≠ 46 ∧ b ≠ 101 ∧ b ≠ 69) : NumberEnd (w ++ b :: rest) := by
  cases w with
  | nil => exact numberEnd_cons hb
  | cons c w => exact numberEnd_of_isSpace (hw c List.mem_cons_self) _

theorem SpellsItems.numberEnd {vs : List Json} {text : Bytes} (h : SpellsItems vs text)
    (rest : Bytes) : NumberEnd (text ++ rest) := by
  cases vs with
  | nil =>
    obtain ⟨w, hw, rfl⟩ := h
    rw [List.append_assoc]
    exact numberEnd_space hw (by decide)
  | cons v vs =>
    obtain ⟨w, t, r, hw, -, -, rfl⟩ := h
    rw [List.append_assoc]
    exact numberEnd_space hw (by decide)

theorem SpellsMembers.numberEnd {ms : List (Bytes × Json)} {text : Bytes}
    (h : SpellsMembers ms text) (rest : Bytes) : NumberEnd (text ++ rest) := by
  cases ms with
  | nil =>
    obtain ⟨w, hw, rfl⟩ := h
    rw [List.append_assoc]
    exact numberEnd_space hw (by decide)
  | cons m ms =>
    obtain ⟨w, w₁, w₂, t, r, hw, -, -, -, -, rfl⟩ := h
    rw [List.append_assoc, List.cons_append]
    exact numberEnd_space hw (by decide)

theorem parseValue_congr {fuel depth : Nat} {text text' : Bytes}
    (h : skipSpace text = skipSpace text') :
    parseValue (fuel + 1) depth text = parseValue (fuel + 1) depth text' := by
  rw [parseValue, parseValue, h]

theorem Spells.skipSpace {v : Json} {text : Bytes} {depth : Nat} (h : Spells v text)
    (hfits : Fits depth v) :
    ∃ b tail, (∀ rest, skipSpace (text ++ rest) = b :: (tail ++ rest)) ∧ Spells v (b :: tail) ∧
    b ≠ 93 := by
  have key : ∀ {w tail : Bytes} {b : UInt8}, Space w → isSpace b = false → ∀ rest,
      Json.skipSpace (w ++ b :: tail ++ rest) = b :: (tail ++ rest) := by
    intro w tail b hw hb rest
    rw [List.append_assoc]
    exact skipSpace_append hw hb _
  match v with
  | .null | .bool _ | .num _ | .str _ =>
    obtain ⟨w, hw, rfl⟩ := h
    obtain ⟨b, tail, hrender, hb, hclose⟩ := render_head _ hfits
    rw [hrender]
    exact ⟨b, tail, key hw hb, ⟨[], space_nil, by rw [hrender]; rfl⟩, hclose⟩
  | .arr [] | .obj [] =>
    obtain ⟨w, w', hw, hw', rfl⟩ := h
    exact ⟨_, _, key hw (by decide), ⟨[], w', space_nil, hw', rfl⟩, by decide⟩
  | .arr (_ :: _) =>
    obtain ⟨w, t, r, hw, ht, hr, rfl⟩ := h
    exact ⟨_, _, key hw (by decide), ⟨[], t, r, space_nil, ht, hr, rfl⟩, by decide⟩
  | .obj ((_, _) :: _) =>
    obtain ⟨w, w₁, w₂, t, r, hw, hw₁, hw₂, ht, hr, rfl⟩ := h
    exact ⟨_, _, key hw (by decide),
      ⟨[], w₁, w₂, t, r, space_nil, hw₁, hw₂, ht, hr, rfl⟩, by decide⟩

mutual

/-- The parser reads the value a text spells, before text that cannot continue a number. -/
theorem parseValue_spells : ∀ (v : Json) (fuel depth : Nat) (text rest : Bytes), weight v ≤ fuel →
    Fits depth v → Spells v text → NumberEnd rest →
    parseValue fuel depth (text ++ rest) = some (v, rest)
  | v, 0, _, _, _, hw, _, _, _ => by cases v <;> simp [weight] at hw
  | .null, _ + 1, _, _, _, _, _, h, _ => by
    obtain ⟨w, hw, rfl⟩ := h
    simp [render, parseValue, skipSpace_append hw (b := 110) (by decide)]
  | .bool true, _ + 1, _, _, _, _, _, h, _ => by
    obtain ⟨w, hw, rfl⟩ := h
    simp [render, parseValue, skipSpace_append hw (b := 116) (by decide)]
  | .bool false, _ + 1, _, _, _, _, _, h, _ => by
    obtain ⟨w, hw, rfl⟩ := h
    simp [render, parseValue, skipSpace_append hw (b := 102) (by decide)]
  | .num lit, fuel + 1, depth, _, rest, _, hfits, h, hrest => by
    obtain ⟨w, hw, rfl⟩ := h
    obtain ⟨b, tail, hlit, hb, -⟩ := render_head (.num lit) hfits
    simp only [Fits] at hfits
    have hskip : skipSpace (w ++ lit ++ rest) = skipSpace (lit ++ rest) := by
      rw [show lit = b :: tail from hlit, List.append_assoc, List.cons_append,
        skipSpace_append hw hb, skipSpace_cons hb]
    exact (parseValue_congr hskip).trans (parseValue_num hfits fuel depth hrest)
  | .str raw, _ + 1, _, _, rest, _, hfits, h, _ => by
    obtain ⟨w, hw, rfl⟩ := h
    simp only [Fits] at hfits
    simp [render, parseValue, skipSpace_append hw (b := 34) (by decide), hfits rest]
  | .arr _, _ + 1, 0, _, _, _, hfits, _, _ => by simp [Fits] at hfits
  | .arr [], _ + 1, _ + 1, _, _, _, _, h, _ => by
    obtain ⟨w, w', hw, hw', rfl⟩ := h
    simp [parseValue, skipSpace_append hw (b := 91) (by decide),
      skipSpace_append hw' (b := 93) (by decide)]
  | .arr (v :: vs), fuel + 1, depth + 1, _, rest, hw, hfits, h, _ => by
    obtain ⟨w, t, r, hspace, hv, hvs, rfl⟩ := h
    simp only [Fits] at hfits
    obtain ⟨b, tail, hskip, hv', hclose⟩ := hv.skipSpace hfits.1
    have hitems := parseItems_spells v vs fuel depth (b :: tail) r rest
      (by simp only [weight, weightItems] at hw ⊢; omega) hfits hv' hvs
    simp only [List.append_assoc, List.cons_append, parseValue,
      skipSpace_append hspace (show isSpace 91 = false by decide), hskip]
    split
    · next heq => exact absurd (List.cons.inj heq).1 hclose
    · rw [← List.cons_append, hitems]
      rfl
  | .obj _, _ + 1, 0, _, _, _, hfits, _, _ => by simp [Fits] at hfits
  | .obj [], _ + 1, _ + 1, _, _, _, _, h, _ => by
    obtain ⟨w, w', hw, hw', rfl⟩ := h
    simp [parseValue, skipSpace_append hw (b := 123) (by decide),
      skipSpace_append hw' (b := 125) (by decide)]
  | .obj ((name, v) :: ms), fuel + 1, depth + 1, _, rest, hw, hfits, h, _ => by
    obtain ⟨w, w₁, w₂, t, r, hspace, hw₁, hw₂, hv, hms, rfl⟩ := h
    simp only [Fits] at hfits
    have hmembers := parseMembers_spells name v ms fuel depth [] w₂ t r rest
      (by simp only [weight, weightMembers] at hw ⊢; omega) hfits space_nil hw₂ hv hms
    simp only [List.append_assoc, List.cons_append, parseValue,
      skipSpace_append hspace (show isSpace 123 = false by decide),
      skipSpace_append hw₁ (show isSpace 34 = false by decide)]
    split
    · next heq => exact absurd (List.cons.inj heq).1 (by decide)
    · rw [← List.nil_append (34 :: _), hmembers]
      rfl
termination_by _ fuel => fuel

theorem parseItems_spells : ∀ (v : Json) (vs : List Json) (fuel depth : Nat) (t r rest : Bytes),
    weightItems (v :: vs) ≤ fuel → FitsItems depth (v :: vs) → Spells v t → SpellsItems vs r →
    parseItems fuel depth (t ++ (r ++ rest)) = some (v :: vs, rest)
  | _, _, 0, _, _, _, _, hw, _, _, _ => by simp [weightItems] at hw
  | v, vs, fuel + 1, depth, t, r, rest, hw, hfits, hv, hvs => by
    simp only [FitsItems] at hfits
    have hvalue := parseValue_spells v fuel depth t (r ++ rest)
      (by simp only [weightItems] at hw; omega) hfits.1 hv (hvs.numberEnd rest)
    rw [parseItems, hvalue]
    cases vs with
    | nil =>
      obtain ⟨w, hspace, rfl⟩ := hvs
      simp [skipSpace_append hspace (b := 93) (by decide)]
    | cons v' vs =>
      obtain ⟨w, t', r', hspace, hv', hvs', rfl⟩ := hvs
      have hitems := parseItems_spells v' vs fuel depth t' r' rest
        (by simp only [weightItems] at hw ⊢; omega) hfits.2 hv' hvs'
      simp [skipSpace_append hspace (b := 44) (by decide), hitems]
termination_by _ _ fuel => fuel

theorem parseMembers_spells :
    ∀ (name : Bytes) (v : Json) (ms : List (Bytes × Json)) (fuel depth : Nat)
    (w₁ w₂ t r rest : Bytes), weightMembers ((name, v) :: ms) ≤ fuel →
    FitsMembers depth ((name, v) :: ms) →
    Space w₁ → Space w₂ → Spells v t → SpellsMembers ms r →
    parseMembers fuel depth (w₁ ++ 34 :: (name ++ 34 :: (w₂ ++ 58 :: (t ++ (r ++ rest)))))
      = some ((name, v) :: ms, rest)
  | _, _, _, 0, _, _, _, _, _, _, hw, _, _, _, _, _ => by simp [weightMembers] at hw
  | name, v, ms, fuel + 1, depth, w₁, w₂, t, r, rest, hw, hfits, hw₁, hw₂, hv, hms => by
    simp only [FitsMembers] at hfits
    obtain ⟨hname, hfits, hfits'⟩ := hfits
    have hvalue := parseValue_spells v fuel depth t (r ++ rest)
      (by simp only [weightMembers] at hw; omega) hfits hv (hms.numberEnd rest)
    have hscan := hname (w₂ ++ 58 :: (t ++ (r ++ rest)))
    simp only [parseMembers, skipSpace_append hw₁ (show isSpace 34 = false by decide), hscan,
      skipSpace_append hw₂ (show isSpace 58 = false by decide), hvalue]
    cases ms with
    | nil =>
      obtain ⟨w, hspace, rfl⟩ := hms
      simp [skipSpace_append hspace (b := 125) (by decide)]
    | cons m ms =>
      obtain ⟨name', v'⟩ := m
      obtain ⟨w, w₁', w₂', t', r', hspace, hw₁', hw₂', hv', hms', rfl⟩ := hms
      have hmembers := parseMembers_spells name' v' ms fuel depth w₁' w₂' t' r' rest
        (by simp only [weightMembers] at hw ⊢; omega) hfits' hw₁' hw₂' hv' hms'
      simp [skipSpace_append hspace (b := 44) (by decide), hmembers]
termination_by _ _ _ fuel => fuel

end

theorem Spells.length_pos {v : Json} {text : Bytes} {depth : Nat} (h : Spells v text)
    (hfits : Fits depth v) : 1 ≤ text.length := by
  obtain ⟨b, tail, hskip, -⟩ := h.skipSpace hfits
  cases text with
  | nil => cases hskip []
  | cons c text => simp

mutual

theorem Spells.weight_le : ∀ {v : Json} {depth : Nat} {text : Bytes}, Spells v text → Fits depth v →
    weight v ≤ 2 * text.length
  | .null, _, _, h, hfits => by
    have := h.length_pos hfits
    simp only [weight]
    omega
  | .bool _, _, _, h, hfits => by
    have := h.length_pos hfits
    simp only [weight]
    omega
  | .num _, _, _, h, hfits => by
    have := h.length_pos hfits
    simp only [weight]
    omega
  | .str _, _, _, h, hfits => by
    have := h.length_pos hfits
    simp only [weight]
    omega
  | .arr [], _, _, h, _ => by
    obtain ⟨w, w', -, -, rfl⟩ := h
    simp [weight, weightItems]
    omega
  | .arr (v :: vs), 0, _, _, hfits => by simp [Fits] at hfits
  | .arr (v :: vs), depth + 1, _, h, hfits => by
    obtain ⟨w, t, r, -, hv, hvs, rfl⟩ := h
    simp only [Fits] at hfits
    have hv := hv.weight_le hfits.1
    have hvs := hvs.weight_le hfits.2
    simp only [weight, weightItems, List.length_cons, List.length_append]
    omega
  | .obj [], _, _, h, _ => by
    obtain ⟨w, w', -, -, rfl⟩ := h
    simp [weight, weightMembers]
    omega
  | .obj ((name, v) :: ms), 0, _, _, hfits => by simp [Fits] at hfits
  | .obj ((name, v) :: ms), depth + 1, _, h, hfits => by
    obtain ⟨w, w₁, w₂, t, r, -, -, -, hv, hms, rfl⟩ := h
    simp only [Fits] at hfits
    have hv := hv.weight_le hfits.2.1
    have hms := hms.weight_le hfits.2.2
    simp only [weight, weightMembers, List.length_cons, List.length_append]
    omega

theorem SpellsItems.weight_le : ∀ {vs : List Json} {depth : Nat} {text : Bytes},
    SpellsItems vs text →
    FitsItems depth vs → weightItems vs ≤ 2 * text.length
  | [], _, _, _, _ => by simp [weightItems]
  | v :: vs, depth, _, h, hfits => by
    obtain ⟨w, t, r, -, hv, hvs, rfl⟩ := h
    have hv := hv.weight_le hfits.1
    have hvs := hvs.weight_le hfits.2
    simp only [weightItems, List.length_cons, List.length_append]
    omega

theorem SpellsMembers.weight_le : ∀ {ms : List (Bytes × Json)} {depth : Nat} {text : Bytes},
    SpellsMembers ms text → FitsMembers depth ms → weightMembers ms ≤ 2 * text.length
  | [], _, _, _, _ => by simp [weightMembers]
  | (name, v) :: ms, depth, _, h, hfits => by
    obtain ⟨w, w₁, w₂, t, r, -, -, -, hv, hms, rfl⟩ := h
    have hv := hv.weight_le hfits.2.1
    have hms := hms.weight_le hfits.2.2
    simp only [weightMembers, List.length_cons, List.length_append]
    omega

end

theorem skipSpace_eq_nil {w : Bytes} : skipSpace w = [] ↔ Space w := by
  rw [skipSpace, List.dropWhile_eq_nil_iff]
  rfl

theorem Space.numberEnd {w : Bytes} (hw : Space w) : NumberEnd w := by
  cases w with
  | nil => exact numberEnd_nil
  | cons b w => exact numberEnd_of_isSpace (hw b List.mem_cons_self) w

/-- **What is read is spelled by the text**, and is within the limits. -/
theorem of_parse {text : Bytes} {v : Json} (h : parse text = some v) :
    ∃ t w, text = t ++ w ∧ Space w ∧ Spells v t ∧ Fits maxNestingDepth v := by
  unfold parse at h
  split at h
  · next v' rest hv =>
    split_ifs at h with hrest
    cases h
    obtain ⟨t, rfl, hspells, hfits⟩ := of_parseValue _ _ _ _ _ hv
    exact ⟨t, rest, rfl, skipSpace_eq_nil.mp hrest, hspells, hfits⟩
  · cases h

theorem decodeFirst_of_parse {text : Bytes} {v : Json} (h : parse text = some v) :
    decodeFirst text = some v := by
  unfold parse at h
  split at h
  · next v' rest hv =>
    split_ifs at h
    cases h
    rw [decodeFirst, hv]
    rfl
  · cases h

theorem fits_of_decodeFirst {text : Bytes} {v : Json} (h : decodeFirst text = some v) :
    Fits maxNestingDepth v := by
  obtain ⟨⟨v', rest⟩, hv, rfl⟩ := Option.map_eq_some_iff.mp h
  obtain ⟨t, -, -, hfits⟩ := of_parseValue _ _ _ _ _ hv
  exact hfits

/-- **A text that spells a value is read as that value.** -/
theorem parse_spells {v : Json} {t w : Bytes} (h : Spells v t) (hfits : Fits maxNestingDepth v)
    (hw : Space w) : parse (t ++ w) = some v := by
  have hlen := h.weight_le hfits
  have hv := parseValue_spells v (2 * (t ++ w).length + 2) maxNestingDepth t w
    (by rw [List.length_append]; omega) hfits h hw.numberEnd
  simp only [parse, hv, skipSpace_eq_nil.mpr hw, if_true]

end Json

end Foundation
