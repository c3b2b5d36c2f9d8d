import OriGateway.Foundation.StrictJson

/-! # Canonical JSON libraries

A program takes its canonical JSON from a library, so the library is a parameter of whatever uses it
(`CanonicalJSON`). What its users rely on is stated as laws: that it is injective, that it writes
one line, that it is compositional, or that it keeps the documented rules. `documentedJSON` is a
library that keeps them all. -/

namespace Foundation

/-- **A canonical JSON library**, as far as it is called. -/
structure CanonicalJSON where
  /-- Whether bytes are UTF-8 in which every surrogate escape is paired. -/
  validateWireUnicode : Bytes → Bool
  /-- Whether the strict decoder takes a text, with these defined and these required members. -/
  decodeStrict : List Bytes → List Bytes → Bytes → Bool
  /-- The canonical form of a value, unless it is refused. -/
  marshal : JsonValue → Option Bytes
  /-- The canonical form of a JSON text, unless it is refused. -/
  marshalWire : Bytes → Option Bytes

namespace CanonicalJSON

/-- Distinct values have distinct canonical forms. -/
def Injective (lib : CanonicalJSON) : Prop :=
  ∀ {v v' : JsonValue} {text : Bytes}, v.WellFormed → v'.WellFormed → lib.marshal v = some text →
    lib.marshal v' = some text → v = v'

/-- A canonical form holds no raw line break. -/
def OneLine (lib : CanonicalJSON) : Prop :=
  ∀ {v : JsonValue} {text : Bytes}, v.WellFormed → lib.marshal v = some text → 10 ∉ text

/-- **A compositional library**: the canonical form of an object contains that of each member. -/
structure Compositional (lib : CanonicalJSON) : Prop where
  /-- Only JSON texts have a canonical form. -/
  parses : ∀ {text payload}, lib.marshalWire text = some payload → (Json.parse text).isSome = true
  /-- The form depends on what is written, not on how: on the value, on whether a string has to be
  repaired, and on whether a name stands twice. -/
  spelling : ∀ {text text' v v'}, Json.parse text = some v → Json.parse text' = some v' →
    v.value = v'.value → v.isScalar = v'.isScalar →
      v.objectsAll Json.namesDistinct = v'.objectsAll Json.namesDistinct →
        lib.marshalWire text = lib.marshalWire text'
  /-- The form of a member's text stands in the form of the object, as that member. -/
  member : ∀ {text payload ms name v}, Json.parse text = some (.obj ms) →
    lib.marshalWire text = some payload → (ms.map fun m => Json.unquote m.1).Nodup →
    (name, v) ∈ ms →
      ∃ canonical before after members member, lib.marshalWire v.render = some canonical ∧
        payload = before ++ canonical ++ after ∧ Json.parse payload = some (.obj members) ∧
          members.lookup (Json.minimal (Json.unquote name)) = some member ∧
          member.render = canonical

/-- How deep a strict text may be nested. -/
def maxNesting : Nat := 32

/-- **A library that keeps the documented rules.** -/
structure Documented (lib : CanonicalJSON) : Prop where
  /-- A value is written with its members in order, no white space and the fewest escapes, and with
  its numbers as they were spelled. -/
  marshal : ∀ {v : JsonValue}, v.WellFormed → lib.marshal v = some v.canonical
  /-- A text is written as the value it reads as. -/
  marshalWire : ∀ {text v members}, Json.parse text = some v → Json.Strict maxNesting members v →
    lib.marshalWire text = some v.value.canonical
  /-- Only texts in which nothing is repaired are written. -/
  wire : ∀ {text payload}, lib.marshalWire text = some payload →
    ∃ v, Json.parse text = some v ∧ v.isScalar = true ∧ payload = v.value.canonical
  /-- The strict decoder takes objects nested within the bound in which nothing is repaired and no
  name stands twice, or differs from another or from a defined one by case only. -/
  decodeStrict : ∀ {members text}, lib.decodeStrict members [] text = true ↔
    ∃ ms, Json.parse text = some (.obj ms) ∧ Json.Strict maxNesting members (.obj ms)

end CanonicalJSON

/-- The library that does what is documented and nothing else. -/
def documentedJSON : CanonicalJSON where
  validateWireUnicode text := Utf8.valid text && (Json.parse text).all Json.isScalar
  decodeStrict members required text :=
    match Json.parse text with
    | some (.obj ms) => Json.isStrict CanonicalJSON.maxNesting members (.obj ms) &&
        required.all fun name => ms.any fun m => Json.unquote m.1 == name
    | _ => false
  marshal v := some v.canonical
  marshalWire := Json.marshalWire

/-! ## The library keeps the laws -/

theorem documentedJSON_injective : documentedJSON.Injective := by
  intro v v' text hv hv' h h'
  exact JsonValue.canonical_injective hv hv' ((Option.some.inj h).trans (Option.some.inj h').symm)

theorem documentedJSON_oneLine : documentedJSON.OneLine := by
  rintro v text hv h
  cases Option.some.inj h
  exact JsonValue.newline_not_mem_canonical hv

theorem documentedJSON_documented : documentedJSON.Documented where
  marshal _ := rfl
  marshalWire hparse hstrict := Json.marshalWire_eq_some.mpr ⟨_, hparse, hstrict.isScalar, rfl⟩
  wire h := by
    obtain ⟨v, hparse, hscalar, hform⟩ := Json.marshalWire_eq_some.mp h
    exact ⟨v, hparse, hscalar, hform.symm⟩
  decodeStrict {members text} := by
    unfold documentedJSON
    dsimp only
    cases hparse : Json.parse text with
    | none => simp
    | some v =>
      obtain ⟨t, w, -, -, -, hfits⟩ := Json.of_parse hparse
      cases v with
      | obj ms => simp [Json.isStrict_iff hfits]
      | _ => simp

namespace Json

theorem mem_valueMembers : ∀ {ms : List (Bytes × Json)} {name : Bytes} {v : Json},
    (ms.map fun m => unquote m.1).Nodup → (name, v) ∈ ms → (unquote name, v.value) ∈ valueMembers ms
  | (k, u) :: ms, name, v, hnodup, hmem => by
    obtain ⟨hnew, hrest⟩ := List.nodup_cons.mp hnodup
    have hperm := insertMember_perm (v := u.value)
      (fun h => hnew ((names_valueMembers hrest).mem_iff.mp h))
    refine hperm.mem_iff.mpr ?_
    rcases List.mem_cons.mp hmem with h | h
    · cases h
      exact List.mem_cons_self
    · exact List.mem_cons_of_mem _ (mem_valueMembers hrest h)

theorem lookup_jsonMembers : ∀ {ms : List (Bytes × JsonValue)} {name : Bytes} {v : JsonValue},
    Ascending ms → JsonValue.WellFormedMembers ms → (name, v) ∈ ms →
      (JsonValue.jsonMembers ms).lookup (minimal name) = some v.json
  | (k, u) :: ms, name, v, hasc, hwell, hmem => by
    obtain ⟨hfirst, hrest⟩ := List.pairwise_cons.mp hasc
    rw [JsonValue.jsonMembers, List.lookup_cons]
    rcases List.mem_cons.mp hmem with h | h
    · cases h
      rw [beq_self_eq_true]
    · have hvalid := (JsonValue.wellFormedMembers_iff.mp hwell.2.2 _ h).1
      have hne : (minimal name == minimal k) = false := by
        refine beq_eq_false_iff_ne.mpr fun heq => ?_
        have hsame := congrArg unquote heq
        rw [(read_minimal hvalid).1, (read_minimal hwell.1).1] at hsame
        exact absurd (hsame ▸ hfirst _ h) (List.lt_irrefl _)
      rw [hne]
      exact lookup_jsonMembers hrest hwell.2.2 h

theorem render_mem_renderMembers : ∀ {ms : List (Bytes × Json)} {name : Bytes} {v : Json},
    (name, v) ∈ ms → ∃ before after, renderMembers ms = before ++ v.render ++ after
  | (k, u) :: ms, name, v, hmem => by
    rcases List.mem_cons.mp hmem with h | h
    · cases h
      exact ⟨44 :: 34 :: k ++ [34, 58], renderMembers ms, by simp [renderMembers]⟩
    · obtain ⟨before, after, hsplit⟩ := render_mem_renderMembers h
      exact ⟨44 :: 34 :: k ++ 34 :: 58 :: u.render ++ before,
        after, by simp [renderMembers, hsplit]⟩

/-- The text of a member stands in the text of its object. -/
theorem render_mem_render {ms : List (Bytes × Json)} {name : Bytes} {v : Json}
    (h : (name, v) ∈ ms) :
    ∃ before after, (Json.obj ms).render = before ++ v.render ++ after := by
  cases ms with
  | nil => cases h
  | cons m ms =>
    obtain ⟨k, u⟩ := m
    rcases List.mem_cons.mp h with h | h
    · cases h
      exact ⟨123 :: 34 :: name ++ [34, 58], renderMembers ms, by simp [render]⟩
    · obtain ⟨before, after, hsplit⟩ := render_mem_renderMembers h
      exact ⟨123 :: 34 :: k ++ 34 :: 58 :: u.render ++ before, after, by simp [render, hsplit]⟩

theorem FitsMembers.of_mem : ∀ {ms : List (Bytes × Json)} {bound : Nat} {name : Bytes} {v : Json},
    FitsMembers bound ms → (name, v) ∈ ms → Fits bound v
  | (_, _) :: _, _, _, _, h, hmem => by
    rcases List.mem_cons.mp hmem with heq | hmem
    · cases heq
      exact h.2.1
    · exact FitsMembers.of_mem h.2.2 hmem

theorem isScalar_of_mem : ∀ {ms : List (Bytes × Json)} {name : Bytes} {v : Json},
    isScalarMembers ms = true → (name, v) ∈ ms → v.isScalar = true
  | (_, _) :: _, _, _, h, hmem => by
    simp only [isScalarMembers, Bool.and_eq_true] at h
    rcases List.mem_cons.mp hmem with heq | hmem
    · cases heq
      exact h.1.2
    · exact isScalar_of_mem h.2 hmem

end Json

theorem documentedJSON_compositional : documentedJSON.Compositional where
  parses h := by
    obtain ⟨v, hparse, -⟩ := Json.marshalWire_eq_some.mp h
    rw [hparse]
    rfl
  spelling hparse hparse' hvalue hscalar _ := by
    simp only [documentedJSON, Json.marshalWire, hparse, hparse', hvalue, hscalar]
  member {text payload ms name v} hparse hwire hnodup hmem := by
    obtain ⟨u, hu, hscalar, rfl⟩ := Json.marshalWire_eq_some.mp hwire
    cases hparse.symm.trans hu
    obtain ⟨t, w, -, -, -, hfits⟩ := Json.of_parse hparse
    have hwell := hfits.wellFormed
    have hvalue := Json.mem_valueMembers hnodup hmem
    have hmember : Json.Fits Json.maxNestingDepth v :=
      (Json.FitsMembers.of_mem hfits hmem).of_depth_le
        ((Json.FitsMembers.of_mem hfits hmem).depth_le.trans (Nat.le_succ _))
    have hlookup := Json.lookup_jsonMembers hwell.1 hwell.2 hvalue
    obtain ⟨front, back, hmembers, -⟩ := List.lookup_eq_some_iff.mp hlookup
    obtain ⟨before, after, hsplit⟩ := Json.render_mem_render (hmembers ▸ List.mem_append_cons_self)
    refine ⟨v.value.canonical, before, after, _, v.value.json, ?_, hsplit, ?_, hlookup, rfl⟩
    · exact Json.marshalWire_eq_some.mpr
        ⟨v, Json.parse_render hmember, Json.isScalar_of_mem hscalar hmem, rfl⟩
    · exact JsonValue.parse_canonical hwell ((Json.depth_value _).trans hfits.depth_le)

end Foundation
