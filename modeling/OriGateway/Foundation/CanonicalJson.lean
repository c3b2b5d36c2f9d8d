import OriGateway.Foundation.JsonReading

/-! # JSON values and their canonical form

A JSON **value** is what a text stands for once its strings are read and its members are found by
name, the last of one name; the **canonical form** writes each value one way: members in the order
of their names, the fewest escapes, numbers as they were spelled, no white space. It reads back as
its value (**`parse_canonical`**), so it is injective. -/

namespace Foundation

/-! ## Members in the order of their names -/

section Members

variable {K V : Type} [LT K] [DecidableEq K] [DecidableLT K]

/-- Add a member to members in the order of their names, unless one of its name is there. -/
def insertMember (k : K) (v : V) : List (K × V) → List (K × V)
  | [] => [(k, v)]
  | (k', v') :: ms =>
    if k < k' then (k, v) :: (k', v') :: ms
    else if k = k' then (k', v') :: ms
    else (k', v') :: insertMember k v ms

def Ascending (ms : List (K × V)) : Prop := ms.Pairwise fun a b => a.1 < b.1

theorem mem_insertMember {k : K} {v : V} {ms : List (K × V)} {m : K × V}
    (h : m ∈ insertMember k v ms) : m = (k, v) ∨ m ∈ ms := by
  induction ms with
  | nil => exact .inl (by simpa [insertMember] using h)
  | cons m' ms ih =>
    obtain ⟨k', v'⟩ := m'
    rw [insertMember] at h
    split_ifs at h
    · simpa using h
    · exact .inr h
    · rcases List.mem_cons.mp h with rfl | h
      · exact .inr List.mem_cons_self
      · exact (ih h).imp_right (List.mem_cons_of_mem _)

variable [IsTrans K (· < ·)] [@Std.Trichotomous K (· < ·)] in
theorem ascending_insertMember {k : K} {v : V} {ms : List (K × V)} (h : Ascending ms) :
    Ascending (insertMember k v ms) := by
  induction ms with
  | nil => simp [insertMember, Ascending]
  | cons m ms ih =>
    obtain ⟨k', v'⟩ := m
    obtain ⟨hfirst, hrest⟩ := List.pairwise_cons.mp h
    rw [insertMember]
    split_ifs with hlt heq
    · refine List.pairwise_cons.mpr ⟨fun m hm => ?_, h⟩
      rcases List.mem_cons.mp hm with rfl | hm
      · exact hlt
      · exact IsTrans.trans _ _ _ hlt (hfirst m hm)
    · exact h
    · refine List.pairwise_cons.mpr ⟨fun m hm => ?_, ih hrest⟩
      rcases mem_insertMember hm with rfl | hm
      · exact not_not.mp fun hge => heq (Std.Trichotomous.trichotomous _ _ hlt hge)
      · exact hfirst m hm

theorem insertMember_of_lt {k : K} {v : V} {ms : List (K × V)} (h : ∀ m ∈ ms, k < m.1) :
    insertMember k v ms = (k, v) :: ms := by
  cases ms with
  | nil => rfl
  | cons m ms =>
    rw [insertMember]
    exact if_pos (h m List.mem_cons_self)

theorem insertMember_perm {k : K} {v : V} {ms : List (K × V)} (h : k ∉ ms.map Prod.fst) :
    (insertMember k v ms).Perm ((k, v) :: ms) := by
  induction ms with
  | nil => exact .refl _
  | cons m ms ih =>
    obtain ⟨k', v'⟩ := m
    rw [List.map_cons, List.mem_cons, not_or] at h
    rw [insertMember]
    split_ifs with hlt heq
    · exact .refl _
    · exact absurd heq h.1
    · exact ((ih h.2).cons _).trans (.swap _ _ _)

end Members

/-! ## Values -/

/-- A JSON value: strings as they are read, numbers as they are spelled, members in the order of
their names. -/
inductive JsonValue where
  | null : JsonValue
  | bool : Bool → JsonValue
  | number : Bytes → JsonValue
  | string : Bytes → JsonValue
  | array : List JsonValue → JsonValue
  | object : List (Bytes × JsonValue) → JsonValue

namespace Json

mutual

/-- **The value of a parsed text.** -/
def value : Json → JsonValue
  | .null => .null
  | .bool b => .bool b
  | .num lit => .number lit
  | .str raw => .string (unquote raw)
  | .arr vs => .array (valueItems vs)
  | .obj ms => .object (valueMembers ms)

def valueItems : List Json → List JsonValue
  | [] => []
  | v :: vs => value v :: valueItems vs

/-- The members of an object by name: of those of one name the last is kept. -/
def valueMembers : List (Bytes × Json) → List (Bytes × JsonValue)
  | [] => []
  | (name, v) :: ms => insertMember (unquote name) (value v) (valueMembers ms)

end

end Json

namespace JsonValue

mutual

/-- The syntax tree of a value. -/
def json : JsonValue → Json
  | .null => .null
  | .bool b => .bool b
  | .number lit => .num lit
  | .string s => .str (Json.minimal s)
  | .array vs => .arr (jsonItems vs)
  | .object ms => .obj (jsonMembers ms)

def jsonItems : List JsonValue → List Json
  | [] => []
  | v :: vs => json v :: jsonItems vs

def jsonMembers : List (Bytes × JsonValue) → List (Bytes × Json)
  | [] => []
  | (name, v) :: ms => (Json.minimal name, json v) :: jsonMembers ms

end

/-- **The canonical form of a value.** -/
def canonical (v : JsonValue) : Bytes := v.json.render

mutual

/-- Values as texts have them: strings and names are well-formed UTF-8, numbers are literals, and
members are in the order of their names. -/
def WellFormed : JsonValue → Prop
  | .null => True
  | .bool _ => True
  | .number lit => Json.IsNumber lit
  | .string s => Utf8.valid s = true
  | .array vs => WellFormedItems vs
  | .object ms => Ascending ms ∧ WellFormedMembers ms

def WellFormedItems : List JsonValue → Prop
  | [] => True
  | v :: vs => WellFormed v ∧ WellFormedItems vs

def WellFormedMembers : List (Bytes × JsonValue) → Prop
  | [] => True
  | (name, v) :: ms => Utf8.valid name = true ∧ WellFormed v ∧ WellFormedMembers ms

end

theorem wellFormedMembers_iff {ms : List (Bytes × JsonValue)} :
    WellFormedMembers ms ↔ ∀ m ∈ ms, Utf8.valid m.1 = true ∧ WellFormed m.2 := by
  induction ms with
  | nil => simp [WellFormedMembers]
  | cons m ms ih =>
    obtain ⟨name, v⟩ := m
    simp [WellFormedMembers, ih, and_assoc]

end JsonValue

namespace Json

open JsonValue

theorem ascending_valueMembers (ms : List (Bytes × Json)) : Ascending (valueMembers ms) := by
  induction ms with
  | nil => exact List.Pairwise.nil
  | cons m ms ih => exact ascending_insertMember ih

mutual

/-- **The value of a parsed text is well formed.** -/
theorem Fits.wellFormed : ∀ {v : Json} {depth : Nat}, Fits depth v → v.value.WellFormed
  | .null, _, _ => trivial
  | .bool _, _, _ => trivial
  | .num _, _, h => by simpa [value, WellFormed, Fits] using h
  | .str _, _, h => by
    simp only [Fits] at h
    exact (isRaw_iff.mp h).valid_unquote
  | .arr _, 0, h => by simp [Fits] at h
  | .arr _, _ + 1, h => FitsItems.wellFormed h
  | .obj _, 0, h => by simp [Fits] at h
  | .obj ms, _ + 1, h => ⟨ascending_valueMembers ms, FitsMembers.wellFormed h⟩

theorem FitsItems.wellFormed : ∀ {vs : List Json} {depth : Nat}, FitsItems depth vs →
    WellFormedItems (valueItems vs)
  | [], _, _ => trivial
  | _ :: _, _, h => ⟨Fits.wellFormed h.1, FitsItems.wellFormed h.2⟩

theorem FitsMembers.wellFormed : ∀ {ms : List (Bytes × Json)} {depth : Nat}, FitsMembers depth ms →
    WellFormedMembers (valueMembers ms)
  | [], _, _ => trivial
  | (name, v) :: ms, _, h => by
    obtain ⟨hname, hv, hms⟩ := h
    have hrest := wellFormedMembers_iff.mp (FitsMembers.wellFormed hms)
    refine wellFormedMembers_iff.mpr fun m hm => ?_
    rw [valueMembers] at hm
    rcases mem_insertMember hm with rfl | hm
    · exact ⟨(isRaw_iff.mp hname).valid_unquote, Fits.wellFormed hv⟩
    · exact hrest m hm

end

end Json

namespace JsonValue

open Json

mutual

/-- **A well-formed value reads back from how it is written.** -/
theorem value_json : ∀ {v : JsonValue}, v.WellFormed → v.json.value = v
  | .null, _ => rfl
  | .bool _, _ => rfl
  | .number _, _ => rfl
  | .string _, h => congrArg string (read_minimal h).1
  | .array _, h => congrArg array (valueItems_json h)
  | .object _, h => congrArg object (valueMembers_json h.1 h.2)

theorem valueItems_json : ∀ {vs : List JsonValue}, WellFormedItems vs →
    valueItems (jsonItems vs) = vs
  | [], _ => rfl
  | _ :: _, h => congrArg₂ List.cons (value_json h.1) (valueItems_json h.2)

theorem valueMembers_json : ∀ {ms : List (Bytes × JsonValue)}, Ascending ms → WellFormedMembers ms →
    valueMembers (jsonMembers ms) = ms
  | [], _, _ => rfl
  | (name, v) :: ms, hasc, h => by
    obtain ⟨hname, hv, hms⟩ := h
    obtain ⟨hfirst, hrest⟩ := List.pairwise_cons.mp hasc
    rw [jsonMembers, valueMembers, (read_minimal hname).1, value_json hv,
      valueMembers_json hrest hms]
    exact insertMember_of_lt hfirst

end

end JsonValue

namespace Json

def isNumberByte (b : UInt8) : Bool :=
  isDigit b || b == 43 || b == 45 || b == 46 || b == 69 || b == 101

theorem isNumberByte_of_isDigit {b : UInt8} (h : isDigit b = true) : isNumberByte b = true := by
  simp [isNumberByte, h]

theorem scanIntPart_bytes {text int rest : Bytes} (h : scanIntPart text = some (int, rest)) :
    ∀ b ∈ int, isNumberByte b = true := by
  revert h
  fun_cases scanIntPart text with
  | case1 tail =>
    intro h
    cases h
    simp [isNumberByte, isDigit]
  | case2 b tail hzero hdigit ds rest' hspan =>
    intro h
    cases h
    have hds := (of_spanDigits tail).1
    rw [hspan] at hds
    rintro c (_ | ⟨_, hc⟩)
    · exact isNumberByte_of_isDigit hdigit
    · exact isNumberByte_of_isDigit (hds c hc)
  | case3 => intro h; cases h
  | case4 => intro h; cases h

theorem scanFraction_bytes {text frac rest : Bytes} (h : scanFraction text = some (frac, rest)) :
    ∀ b ∈ frac, isNumberByte b = true := by
  revert h
  fun_cases scanFraction text with
  | case1 => intro h; cases h
  | case2 tail ds rest' hspan hne =>
    intro h
    cases h
    have hds := (of_spanDigits tail).1
    rw [hspan] at hds
    rintro c (_ | ⟨_, hc⟩)
    · decide
    · exact isNumberByte_of_isDigit (hds c hc)
  | case3 =>
    intro h
    cases h
    simp

theorem scanExponentDigits_bytes {lead text exp rest : Bytes}
    (hlead : ∀ b ∈ lead, isNumberByte b = true)
    (h : scanExponentDigits lead text = some (exp, rest)) : ∀ b ∈ exp, isNumberByte b = true := by
  unfold scanExponentDigits at h
  dsimp only at h
  split_ifs at h
  cases h
  intro b hb
  rcases List.mem_append.mp hb with hb | hb
  · exact hlead b hb
  · exact isNumberByte_of_isDigit ((of_spanDigits text).1 b hb)

theorem scanExponent_bytes {text exp rest : Bytes} (h : scanExponent text = some (exp, rest)) :
    ∀ b ∈ exp, isNumberByte b = true := by
  revert h
  fun_cases scanExponent text with
  | case1 e he s tail hs =>
    refine scanExponentDigits_bytes ?_
    simp only [Bool.or_eq_true, beq_iff_eq] at he hs
    rcases he with rfl | rfl <;> rcases hs with rfl | rfl <;> simp [isNumberByte]
  | case2 e he s tail hs =>
    refine scanExponentDigits_bytes ?_
    simp only [Bool.or_eq_true, beq_iff_eq] at he
    rcases he with rfl | rfl <;> simp [isNumberByte]
  | case3 => intro h; cases h
  | case4 =>
    intro h
    cases h
    simp
  | case5 =>
    intro h
    cases h
    simp

/-- **A number literal is made of digits, signs, points and exponent letters.** -/
theorem IsNumber.bytes {lit : Bytes} (h : IsNumber lit) : ∀ b ∈ lit, isNumberByte b = true := by
  have hscan := h.scans [] numberEnd_nil
  rw [List.append_nil, scanNumber] at hscan
  split at hscan
  · cases hscan
  · next int rest₁ hint =>
    split at hscan
    · cases hscan
    · next frac rest₂ hfrac =>
      obtain ⟨⟨exp, rest₃⟩, hexp, heq⟩ := Option.map_eq_some_iff.mp hscan
      obtain ⟨hlit, -⟩ := Prod.mk.inj heq
      intro b hb
      rw [← hlit] at hb
      simp only [List.mem_append, or_assoc] at hb
      rcases hb with hb | hb | hb | hb
      · revert hb
        fun_cases scanSign lit with
        | case1 => simp +contextual [isNumberByte]
        | case2 => simp
      · exact scanIntPart_bytes hint b hb
      · exact scanFraction_bytes hfrac b hb
      · exact scanExponent_bytes hexp b hb

/-! ## Nesting -/

mutual

def depth : Json → Nat
  | .arr vs => depthItems vs + 1
  | .obj ms => depthMembers ms + 1
  | _ => 0

def depthItems : List Json → Nat
  | [] => 0
  | v :: vs => max (depth v) (depthItems vs)

def depthMembers : List (Bytes × Json) → Nat
  | [] => 0
  | (_, v) :: ms => max (depth v) (depthMembers ms)

end

mutual

theorem Fits.of_depth_le : ∀ {v : Json} {bound bound' : Nat}, Fits bound v → v.depth ≤ bound' →
    Fits bound' v
  | .null, _, _, _, _ => by simp [Fits]
  | .bool _, _, _, _, _ => by simp [Fits]
  | .num _, _, _, h, _ => by simpa [Fits] using h
  | .str _, _, _, h, _ => by simpa [Fits] using h
  | .arr _, 0, _, h, _ => by simp [Fits] at h
  | .arr _, _ + 1, 0, _, hle => by simp [depth] at hle
  | .arr _, _ + 1, _ + 1, h, hle => FitsItems.of_depth_le h (by simpa [depth] using hle)
  | .obj _, 0, _, h, _ => by simp [Fits] at h
  | .obj _, _ + 1, 0, _, hle => by simp [depth] at hle
  | .obj _, _ + 1, _ + 1, h, hle => FitsMembers.of_depth_le h (by simpa [depth] using hle)

theorem FitsItems.of_depth_le : ∀ {vs : List Json} {bound bound' : Nat}, FitsItems bound vs →
    depthItems vs ≤ bound' → FitsItems bound' vs
  | [], _, _, _, _ => trivial
  | _ :: _, _, _, h, hle =>
    ⟨Fits.of_depth_le h.1 ((le_max_left _ _).trans hle),
      FitsItems.of_depth_le h.2 ((le_max_right _ _).trans hle)⟩

theorem FitsMembers.of_depth_le : ∀ {ms : List (Bytes × Json)} {bound bound' : Nat},
    FitsMembers bound ms →
    depthMembers ms ≤ bound' → FitsMembers bound' ms
  | [], _, _, _, _ => trivial
  | (_, _) :: _, _, _, h, hle =>
    ⟨h.1, Fits.of_depth_le h.2.1 ((le_max_left _ _).trans hle),
      FitsMembers.of_depth_le h.2.2 ((le_max_right _ _).trans hle)⟩

end

mutual

theorem Fits.depth_le : ∀ {v : Json} {bound : Nat}, Fits bound v → v.depth ≤ bound
  | .null, _, _ => Nat.zero_le _
  | .bool _, _, _ => Nat.zero_le _
  | .num _, _, _ => Nat.zero_le _
  | .str _, _, _ => Nat.zero_le _
  | .arr _, 0, h => by simp [Fits] at h
  | .arr _, _ + 1, h => Nat.succ_le_succ (FitsItems.depth_le h)
  | .obj _, 0, h => by simp [Fits] at h
  | .obj _, _ + 1, h => Nat.succ_le_succ (FitsMembers.depth_le h)

theorem FitsItems.depth_le : ∀ {vs : List Json} {bound : Nat}, FitsItems bound vs →
    depthItems vs ≤ bound
  | [], _, _ => Nat.zero_le _
  | _ :: _, _, h => max_le (Fits.depth_le h.1) (FitsItems.depth_le h.2)

theorem FitsMembers.depth_le : ∀ {ms : List (Bytes × Json)} {bound : Nat}, FitsMembers bound ms →
    depthMembers ms ≤ bound
  | [], _, _ => Nat.zero_le _
  | (_, _) :: _, _, h => max_le (Fits.depth_le h.2.1) (FitsMembers.depth_le h.2.2)

end

theorem IsNumber.ge {lit : Bytes} (h : IsNumber lit) : ∀ b ∈ lit, 32 ≤ b.toNat := by
  intro b hb
  have hbyte := h.bytes b hb
  simp only [isNumberByte, isDigit, Bool.or_eq_true, Bool.and_eq_true, decide_eq_true_eq,
    beq_iff_eq] at hbyte
  rcases hbyte with ((((hbyte | rfl) | rfl) | rfl) | rfl) | rfl
  · omega
  all_goals decide

mutual

/-- **A compact text holds no control character.** -/
theorem Fits.render_ge : ∀ {v : Json} {bound : Nat}, Fits bound v → ∀ b ∈ render v, 32 ≤ b.toNat
  | .null, _, _ => by simp [render]
  | .bool true, _, _ => by simp [render]
  | .bool false, _, _ => by simp [render]
  | .num _, _, h => by
    simp only [Fits] at h
    exact h.ge
  | .str _, _, h => by
    simp only [Fits] at h
    simpa [render, or_imp, forall_and] using (isRaw_iff.mp h).ge
  | .arr _, 0, h => by simp [Fits] at h
  | .arr [], _ + 1, _ => by simp [render]
  | .arr (_ :: _), _ + 1, h => by
    simpa [render, or_imp, forall_and] using And.intro (Fits.render_ge h.1)
      (FitsItems.render_ge h.2)
  | .obj _, 0, h => by simp [Fits] at h
  | .obj [], _ + 1, _ => by simp [render]
  | .obj ((_, _) :: _), _ + 1, h => by
    simpa [render, or_imp, forall_and] using
      And.intro (isRaw_iff.mp h.1).ge
        (And.intro (Fits.render_ge h.2.1) (FitsMembers.render_ge h.2.2))

theorem FitsItems.render_ge : ∀ {vs : List Json} {bound : Nat}, FitsItems bound vs →
    ∀ b ∈ renderItems vs, 32 ≤ b.toNat
  | [], _, _ => by simp [renderItems]
  | _ :: _, _, h => by
    simpa [renderItems, or_imp, forall_and] using And.intro (Fits.render_ge h.1)
      (FitsItems.render_ge h.2)

theorem FitsMembers.render_ge : ∀ {ms : List (Bytes × Json)} {bound : Nat}, FitsMembers bound ms →
    ∀ b ∈ renderMembers ms, 32 ≤ b.toNat
  | [], _, _ => by simp [renderMembers]
  | (_, _) :: _, _, h => by
    simpa [renderMembers, or_imp, forall_and] using
      And.intro (isRaw_iff.mp h.1).ge
        (And.intro (Fits.render_ge h.2.1) (FitsMembers.render_ge h.2.2))

end

/-- **A compact text is that of one value only.** -/
theorem render_injective {v v' : Json} {bound bound' : Nat} (h : Fits bound v) (h' : Fits bound' v')
    (heq : render v = render v') : v = v' := by
  have hfits := h.of_depth_le (h.depth_le.trans (le_max_left bound bound'))
  have hfits' := h'.of_depth_le (h'.depth_le.trans (le_max_right bound bound'))
  have hv := parseValue_spells v (weight v + weight v') _ _ [] (by omega) hfits (spells_render v)
    numberEnd_nil
  have hv' := parseValue_spells v' (weight v + weight v') _ _ [] (by omega) hfits'
    (spells_render v')
    numberEnd_nil
  rw [heq, hv'] at hv
  exact (Prod.mk.inj (Option.some.inj hv)).1.symm

end Json

namespace JsonValue

open Json

mutual

theorem WellFormed.fits : ∀ {v : JsonValue}, v.WellFormed → Fits v.json.depth v.json
  | .null, _ => by simp [json, Fits]
  | .bool _, _ => by simp [json, Fits]
  | .number _, h => by simpa [json, Fits, WellFormed] using h
  | .string s, _ => by
    rw [json, Fits]
    exact isRaw_iff.mpr (rawString_minimal s)
  | .array _, h => WellFormedItems.fits h
  | .object _, h => WellFormedMembers.fits h.2

theorem WellFormedItems.fits : ∀ {vs : List JsonValue}, WellFormedItems vs →
    FitsItems (depthItems (jsonItems vs)) (jsonItems vs)
  | [], _ => trivial
  | _ :: _, h =>
    ⟨(WellFormed.fits h.1).of_depth_le (le_max_left _ _),
      (WellFormedItems.fits h.2).of_depth_le (le_max_right _ _)⟩

theorem WellFormedMembers.fits : ∀ {ms : List (Bytes × JsonValue)}, WellFormedMembers ms →
    FitsMembers (depthMembers (jsonMembers ms)) (jsonMembers ms)
  | [], _ => trivial
  | (name, _) :: _, h =>
    ⟨isRaw_iff.mpr (rawString_minimal name), (WellFormed.fits h.2.1).of_depth_le (le_max_left _ _),
      (WellFormedMembers.fits h.2.2).of_depth_le (le_max_right _ _)⟩

end

/-- **The canonical form is injective.** -/
theorem canonical_injective {v v' : JsonValue} (h : v.WellFormed) (h' : v'.WellFormed)
    (heq : v.canonical = v'.canonical) : v = v' := by
  rw [← value_json h, ← value_json h', render_injective h.fits h'.fits heq]

/-- **The canonical form parses to how the value is written.** -/
theorem parse_canonical {v : JsonValue} (h : v.WellFormed)
    (hdepth : v.json.depth ≤ maxNestingDepth) :
    parse v.canonical = some v.json :=
  parse_render (h.fits.of_depth_le hdepth)

/-- **The canonical form holds no line break.** -/
theorem newline_not_mem_canonical {v : JsonValue} (h : v.WellFormed) : 10 ∉ v.canonical := by
  intro hmem
  exact absurd (h.fits.render_ge 10 hmem) (by decide)

end JsonValue

end Foundation
