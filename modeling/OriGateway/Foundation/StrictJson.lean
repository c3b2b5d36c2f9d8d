import OriGateway.Foundation.CanonicalJson

/-! # Texts that every reader reads alike

Readers disagree on a text in which a string has to be repaired, or an object names a member twice
or in two cases. A strict reader refuses those texts (`Strict`), and what it accepts it still
accepts in canonical form (`Strict.canonical`). A writer that copies a value as it stands
(`compacted`) changes neither what it reads as nor whether a string is repaired. -/

namespace Foundation

namespace Json

/-! ## Strings that need no repair -/

mutual

/-- Whether no string and no name of a value is repaired in reading it. -/
def isScalar : Json → Bool
  | .str raw => isScalarString raw
  | .arr vs => isScalarItems vs
  | .obj ms => isScalarMembers ms
  | _ => true

def isScalarItems : List Json → Bool
  | [] => true
  | v :: vs => isScalar v && isScalarItems vs

def isScalarMembers : List (Bytes × Json) → Bool
  | [] => true
  | (name, v) :: ms => isScalarString name && isScalar v && isScalarMembers ms

end

/-! ## Values copied by a writer -/

mutual

/-- What a writer that escapes HTML-sensitive characters makes of a value it copies. -/
def compacted : Json → Json
  | .str raw => .str (htmlEscape raw)
  | .arr vs => .arr (compactedItems vs)
  | .obj ms => .obj (compactedMembers ms)
  | .null => .null
  | .bool b => .bool b
  | .num lit => .num lit

def compactedItems : List Json → List Json
  | [] => []
  | v :: vs => compacted v :: compactedItems vs

def compactedMembers : List (Bytes × Json) → List (Bytes × Json)
  | [] => []
  | (name, v) :: ms => (htmlEscape name, compacted v) :: compactedMembers ms

end

mutual

theorem fits_compacted : ∀ {v : Json} {bound : Nat}, Fits bound v → Fits bound (compacted v)
  | .null, _, _ => by simp [compacted, Fits]
  | .bool _, _, _ => by simp [compacted, Fits]
  | .num _, _, h => by simpa [compacted, Fits] using h
  | .str _, _, h => by
    simp only [compacted, Fits] at h ⊢
    exact isRaw_iff.mpr (isRaw_iff.mp h).htmlEscape
  | .arr _, 0, h => by simp [Fits] at h
  | .arr _, _ + 1, h => fitsItems_compacted h
  | .obj _, 0, h => by simp [Fits] at h
  | .obj _, _ + 1, h => fitsMembers_compacted h

theorem fitsItems_compacted : ∀ {vs : List Json} {bound : Nat}, FitsItems bound vs →
    FitsItems bound (compactedItems vs)
  | [], _, _ => trivial
  | _ :: _, _, h => ⟨fits_compacted h.1, fitsItems_compacted h.2⟩

theorem fitsMembers_compacted : ∀ {ms : List (Bytes × Json)} {bound : Nat}, FitsMembers bound ms →
    FitsMembers bound (compactedMembers ms)
  | [], _, _ => trivial
  | (_, _) :: _, _, h =>
    ⟨isRaw_iff.mpr (isRaw_iff.mp h.1).htmlEscape, fits_compacted h.2.1, fitsMembers_compacted h.2.2⟩

end

mutual

/-- **A copied value reads the same.** -/
theorem value_compacted : ∀ {v : Json} {bound : Nat}, Fits bound v → (compacted v).value = v.value
  | .null, _, _ => rfl
  | .bool _, _, _ => rfl
  | .num _, _, _ => rfl
  | .str _, _, h => by
    simp only [Fits] at h
    exact congrArg JsonValue.string (isRaw_iff.mp h).read_htmlEscape.1
  | .arr _, 0, h => by simp [Fits] at h
  | .arr _, _ + 1, h => congrArg JsonValue.array (valueItems_compacted h)
  | .obj _, 0, h => by simp [Fits] at h
  | .obj _, _ + 1, h => congrArg JsonValue.object (valueMembers_compacted h)

theorem valueItems_compacted : ∀ {vs : List Json} {bound : Nat}, FitsItems bound vs →
    valueItems (compactedItems vs) = valueItems vs
  | [], _, _ => rfl
  | _ :: _, _, h => congrArg₂ List.cons (value_compacted h.1) (valueItems_compacted h.2)

theorem valueMembers_compacted : ∀ {ms : List (Bytes × Json)} {bound : Nat}, FitsMembers bound ms →
    valueMembers (compactedMembers ms) = valueMembers ms
  | [], _, _ => rfl
  | (_, _) :: _, _, h => by
    rw [compactedMembers, valueMembers, valueMembers, (isRaw_iff.mp h.1).read_htmlEscape.1,
      value_compacted h.2.1, valueMembers_compacted h.2.2]

end

mutual

theorem isScalar_compacted : ∀ {v : Json} {bound : Nat}, Fits bound v →
    (compacted v).isScalar = v.isScalar
  | .null, _, _ => rfl
  | .bool _, _, _ => rfl
  | .num _, _, _ => rfl
  | .str _, _, h => by
    simp only [Fits] at h
    exact (isRaw_iff.mp h).read_htmlEscape.2
  | .arr _, 0, h => by simp [Fits] at h
  | .arr _, _ + 1, h => isScalarItems_compacted h
  | .obj _, 0, h => by simp [Fits] at h
  | .obj _, _ + 1, h => isScalarMembers_compacted h

theorem isScalarItems_compacted : ∀ {vs : List Json} {bound : Nat}, FitsItems bound vs →
    isScalarItems (compactedItems vs) = isScalarItems vs
  | [], _, _ => rfl
  | _ :: _, _, h => congrArg₂ and (isScalar_compacted h.1) (isScalarItems_compacted h.2)

theorem isScalarMembers_compacted : ∀ {ms : List (Bytes × Json)} {bound : Nat},
    FitsMembers bound ms →
    isScalarMembers (compactedMembers ms) = isScalarMembers ms
  | [], _, _ => rfl
  | (_, _) :: _, _, h => by
    rw [compactedMembers, isScalarMembers, isScalarMembers,
      (isRaw_iff.mp h.1).read_htmlEscape.2, isScalar_compacted h.2.1,
      isScalarMembers_compacted h.2.2]

end

/-! ## Objects at any depth -/

mutual

/-- Whether the names of every object in a value, as they are read, are as required. -/
def objectsAll (p : List Bytes → Bool) : Json → Bool
  | .arr vs => objectsAllItems p vs
  | .obj ms => p (ms.map fun m => unquote m.1) && objectsAllMembers p ms
  | _ => true

def objectsAllItems (p : List Bytes → Bool) : List Json → Bool
  | [] => true
  | v :: vs => objectsAll p v && objectsAllItems p vs

def objectsAllMembers (p : List Bytes → Bool) : List (Bytes × Json) → Bool
  | [] => true
  | (_, v) :: ms => objectsAll p v && objectsAllMembers p ms

end

def namesDistinct (names : List Bytes) : Bool := decide names.Nodup

/-- No two names that differ by case only, and none that differs so from a defined member. -/
def namesExact (members names : List Bytes) : Bool :=
  decide (names.map foldName).Nodup &&
    names.all fun name => members.all fun m => name == m || foldName name != foldName m

theorem names_compacted : ∀ {ms : List (Bytes × Json)} {bound : Nat}, FitsMembers bound ms →
    (compactedMembers ms).map (fun m => unquote m.1) = ms.map fun m => unquote m.1
  | [], _, _ => rfl
  | (_, _) :: _, _, h =>
    congrArg₂ List.cons (isRaw_iff.mp h.1).read_htmlEscape.1 (names_compacted h.2.2)

mutual

/-- Copying a value keeps the names of its objects. -/
theorem objectsAll_compacted {p : List Bytes → Bool} : ∀ {v : Json} {bound : Nat}, Fits bound v →
    (compacted v).objectsAll p = v.objectsAll p
  | .null, _, _ => rfl
  | .bool _, _, _ => rfl
  | .num _, _, _ => rfl
  | .str _, _, _ => rfl
  | .arr _, 0, h => by simp [Fits] at h
  | .arr _, _ + 1, h => objectsAllItems_compacted h
  | .obj _, 0, h => by simp [Fits] at h
  | .obj _, _ + 1, h =>
    congrArg₂ and (congrArg p (names_compacted h)) (objectsAllMembers_compacted h)

theorem objectsAllItems_compacted {p : List Bytes → Bool} : ∀ {vs : List Json} {bound : Nat},
    FitsItems bound vs → objectsAllItems p (compactedItems vs) = objectsAllItems p vs
  | [], _, _ => rfl
  | _ :: _, _, h => congrArg₂ and (objectsAll_compacted h.1) (objectsAllItems_compacted h.2)

theorem objectsAllMembers_compacted {p : List Bytes → Bool} : ∀ {ms : List (Bytes × Json)}
    {bound : Nat}, FitsMembers bound ms →
      objectsAllMembers p (compactedMembers ms) = objectsAllMembers p ms
  | [], _, _ => rfl
  | (_, _) :: _, _, h =>
    congrArg₂ and (objectsAll_compacted h.2.1) (objectsAllMembers_compacted h.2.2)

end

/-! ## The strict reader -/

/-- **What a strict reader asks of a value**, with a bound on its nesting and the names of defined
members. -/
structure Strict (limit : Nat) (members : List Bytes) (v : Json) : Prop where
  /-- Its raw parts are well formed and its nesting is within the limit. -/
  fits : Fits limit v
  /-- Nothing in it is repaired. -/
  isScalar : v.isScalar = true
  /-- No object names a member twice. -/
  distinct : v.objectsAll namesDistinct = true
  /-- No name differs from another, or from a defined one, by case only. -/
  exact : v.objectsAll (namesExact members) = true

/-- Whether a parsed value is strict. -/
def isStrict (limit : Nat) (members : List Bytes) (v : Json) : Bool :=
  decide (v.depth ≤ limit) && v.isScalar && v.objectsAll namesDistinct &&
    v.objectsAll (namesExact members)

theorem isStrict_iff {limit bound : Nat} {members : List Bytes} {v : Json} (hfits : Fits bound v) :
    isStrict limit members v = true ↔ Strict limit members v := by
  simp only [isStrict, Bool.and_eq_true, decide_eq_true_eq]
  constructor
  · rintro ⟨⟨⟨hdepth, hscalar⟩, hdistinct⟩, hexact⟩
    exact ⟨hfits.of_depth_le hdepth, hscalar, hdistinct, hexact⟩
  · intro h
    exact ⟨⟨⟨h.fits.depth_le, h.isScalar⟩, h.distinct⟩, h.exact⟩

mutual

theorem depth_le_weight : ∀ v : Json, v.depth ≤ weight v
  | .null | .bool _ | .num _ | .str _ => Nat.zero_le _
  | .arr vs => by
    have := depthItems_le_weight vs
    simp only [depth, weight]
    omega
  | .obj ms => by
    have := depthMembers_le_weight ms
    simp only [depth, weight]
    omega

theorem depthItems_le_weight : ∀ vs : List Json, depthItems vs ≤ weightItems vs
  | [] => Nat.zero_le _
  | v :: vs => by
    have hv := depth_le_weight v
    have hvs := depthItems_le_weight vs
    simp only [depthItems, weightItems]
    omega

theorem depthMembers_le_weight : ∀ ms : List (Bytes × Json), depthMembers ms ≤ weightMembers ms
  | [] => Nat.zero_le _
  | (_, v) :: ms => by
    have hv := depth_le_weight v
    have hms := depthMembers_le_weight ms
    simp only [depthMembers, weightMembers]
    omega

end

theorem parseValue_strict {v : Json} {t w : Bytes} {bound : Nat} (h : Spells v t)
    (hfits : Fits bound v) (hw : Space w) :
    parseValue (2 * (t ++ w).length + 2) (2 * (t ++ w).length + 2) (t ++ w) = some (v, w) := by
  have hweight := h.weight_le hfits
  have hdepth := depth_le_weight v
  have hlen : t.length ≤ (t ++ w).length := by simp
  exact parseValue_spells v _ _ t w (by omega) (hfits.of_depth_le (by omega)) h hw.numberEnd

/-- **A text is parsed as the one value it spells.** -/
theorem eq_of_parse {v w : Json} {t s : Bytes} {bound : Nat} (h : Spells v t) (hfits : Fits bound v)
    (hs : Space s) (hparse : parse (t ++ s) = some w) : w = v ∧ Fits maxNestingDepth v := by
  obtain ⟨t', s', htext, hs', hspells, hfits'⟩ := of_parse hparse
  have hread := parseValue_strict h hfits hs
  have hread' := parseValue_strict hspells hfits' hs'
  rw [htext, hread'] at hread
  obtain ⟨rfl, -⟩ := Prod.mk.inj (Option.some.inj hread)
  exact ⟨rfl, hfits'⟩

/-! ## The canonical form of what is accepted -/

theorem names_jsonMembers {ms : List (Bytes × JsonValue)} (h : JsonValue.WellFormedMembers ms) :
    (JsonValue.jsonMembers ms).map (fun m => unquote m.1) = ms.map Prod.fst := by
  induction ms with
  | nil => rfl
  | cons m ms ih =>
    obtain ⟨name, v⟩ := m
    rw [JsonValue.jsonMembers, List.map_cons, List.map_cons, (read_minimal h.1).1, ih h.2.2]

theorem names_valueMembers {ms : List (Bytes × Json)} (h : (ms.map fun m => unquote m.1).Nodup) :
    ((valueMembers ms).map Prod.fst).Perm (ms.map fun m => unquote m.1) := by
  induction ms with
  | nil => exact .refl _
  | cons m ms ih =>
    obtain ⟨name, v⟩ := m
    obtain ⟨hnot, hrest⟩ := List.nodup_cons.mp h
    have hperm := ih hrest
    have hnew : unquote name ∉ (valueMembers ms).map Prod.fst :=
      fun hmem => hnot (hperm.mem_iff.mp hmem)
    rw [valueMembers]
    exact ((insertMember_perm hnew).map Prod.fst).trans (hperm.cons _)

theorem objectsAllMembers_json {p : List Bytes → Bool} {ms : List (Bytes × JsonValue)} :
    objectsAllMembers p (JsonValue.jsonMembers ms) = true ↔
    ∀ m ∈ ms, m.2.json.objectsAll p = true := by
  induction ms with
  | nil => simp [JsonValue.jsonMembers, objectsAllMembers]
  | cons m ms ih =>
    obtain ⟨name, v⟩ := m
    simp [JsonValue.jsonMembers, objectsAllMembers, ih]

theorem depthMembers_json {bound : Nat} {ms : List (Bytes × JsonValue)} :
    depthMembers (JsonValue.jsonMembers ms) ≤ bound ↔ ∀ m ∈ ms, m.2.json.depth ≤ bound := by
  induction ms with
  | nil => simp [JsonValue.jsonMembers, depthMembers]
  | cons m ms ih =>
    obtain ⟨name, v⟩ := m
    simp [JsonValue.jsonMembers, depthMembers, ih]

mutual

/-- **A rule on the names of objects that does not look at their order holds in canonical form.** -/
theorem objectsAll_value {p : List Bytes → Bool}
    (hperm : ∀ {a b : List Bytes}, a.Perm b → p a = p b) :
    ∀ {v : Json} {bound : Nat}, Fits bound v → v.objectsAll namesDistinct = true →
      v.objectsAll p = true → v.value.json.objectsAll p = true
  | .null, _, _, _, _ => rfl
  | .bool _, _, _, _, _ => rfl
  | .num _, _, _, _, _ => rfl
  | .str _, _, _, _, _ => rfl
  | .arr _, 0, h, _, _ => by simp [Fits] at h
  | .arr _, _ + 1, h, hdistinct, hall => objectsAllItems_value hperm h hdistinct hall
  | .obj _, 0, h, _, _ => by simp [Fits] at h
  | .obj ms, _ + 1, h, hdistinct, hall => by
    simp only [objectsAll, Bool.and_eq_true] at hdistinct hall
    have hnames := names_valueMembers (of_decide_eq_true hdistinct.1)
    rw [value, JsonValue.json, objectsAll, names_jsonMembers (FitsMembers.wellFormed h),
      hperm hnames, hall.1, Bool.true_and, objectsAllMembers_json]
    exact objectsAllMembers_value hperm h hdistinct.2 hall.2

theorem objectsAllItems_value {p : List Bytes → Bool}
    (hperm : ∀ {a b : List Bytes}, a.Perm b → p a = p b) :
    ∀ {vs : List Json} {bound : Nat}, FitsItems bound vs → objectsAllItems namesDistinct vs = true →
      objectsAllItems p vs = true → objectsAllItems p (JsonValue.jsonItems (valueItems vs)) = true
  | [], _, _, _, _ => rfl
  | _ :: _, _, h, hdistinct, hall => by
    simp only [objectsAllItems, Bool.and_eq_true] at hdistinct hall
    simp only [valueItems, JsonValue.jsonItems, objectsAllItems, Bool.and_eq_true]
    exact ⟨objectsAll_value hperm h.1 hdistinct.1 hall.1,
      objectsAllItems_value hperm h.2 hdistinct.2 hall.2⟩

theorem objectsAllMembers_value {p : List Bytes → Bool}
    (hperm : ∀ {a b : List Bytes}, a.Perm b → p a = p b) :
    ∀ {ms : List (Bytes × Json)} {bound : Nat}, FitsMembers bound ms →
      objectsAllMembers namesDistinct ms = true → objectsAllMembers p ms = true →
        ∀ m ∈ valueMembers ms, m.2.json.objectsAll p = true
  | [], _, _, _, _ => by simp [valueMembers]
  | (_, _) :: _, _, h, hdistinct, hall => by
    simp only [objectsAllMembers, Bool.and_eq_true] at hdistinct hall
    intro m hm
    rw [valueMembers] at hm
    rcases mem_insertMember hm with rfl | hm
    · exact objectsAll_value hperm h.2.1 hdistinct.1 hall.1
    · exact objectsAllMembers_value hperm h.2.2 hdistinct.2 hall.2 m hm

end

mutual

theorem depth_value : ∀ v : Json, v.value.json.depth ≤ v.depth
  | .null | .bool _ | .num _ | .str _ => le_refl _
  | .arr vs => Nat.succ_le_succ (depthItems_value vs)
  | .obj ms => Nat.succ_le_succ (depthMembers_json.mpr (depthMembers_value ms))

theorem depthItems_value : ∀ vs : List Json, depthItems (JsonValue.jsonItems (valueItems vs))
    ≤ depthItems vs
  | [] => le_refl _
  | v :: vs => max_le_max (depth_value v) (depthItems_value vs)

theorem depthMembers_value : ∀ ms : List (Bytes × Json), ∀ m ∈ valueMembers ms,
    m.2.json.depth ≤ depthMembers ms
  | [] => by simp [valueMembers]
  | (_, v) :: ms => by
    intro m hm
    rw [valueMembers] at hm
    rcases mem_insertMember hm with rfl | hm
    · exact (depth_value v).trans (le_max_left _ _)
    · exact (depthMembers_value ms m hm).trans (le_max_right _ _)

end

mutual

theorem isScalar_json : ∀ {v : JsonValue}, v.WellFormed → v.json.isScalar = true
  | .null, _ => rfl
  | .bool _, _ => rfl
  | .number _, _ => rfl
  | .string _, h => (read_minimal h).2
  | .array _, h => isScalarItems_json h
  | .object _, h => isScalarMembers_json h.2

theorem isScalarItems_json : ∀ {vs : List JsonValue}, JsonValue.WellFormedItems vs →
    isScalarItems (JsonValue.jsonItems vs) = true
  | [], _ => rfl
  | _ :: _, h => by
    rw [JsonValue.jsonItems, isScalarItems, isScalar_json h.1, isScalarItems_json h.2,
      Bool.and_self]

theorem isScalarMembers_json : ∀ {ms : List (Bytes × JsonValue)}, JsonValue.WellFormedMembers ms →
    isScalarMembers (JsonValue.jsonMembers ms) = true
  | [], _ => rfl
  | (_, _) :: _, h => by
    rw [JsonValue.jsonMembers, isScalarMembers, (read_minimal h.1).2, isScalar_json h.2.1,
      isScalarMembers_json h.2.2, Bool.and_self, Bool.and_self]

end

theorem namesDistinct_perm {names names' : List Bytes} (h : names.Perm names') :
    namesDistinct names = namesDistinct names' := by
  simp only [namesDistinct, h.nodup_iff]

theorem namesExact_perm (members : List Bytes) {names names' : List Bytes} (h : names.Perm names') :
    namesExact members names = namesExact members names' := by
  simp only [namesExact, (h.map foldName).nodup_iff]
  congr 1
  rw [Bool.eq_iff_iff, List.all_eq_true, List.all_eq_true]
  exact ⟨fun hall name hname => hall name (h.mem_iff.mpr hname),
    fun hall name hname => hall name (h.mem_iff.mp hname)⟩

/-- **What the strict reader asks of a value holds of its canonical form.** -/
theorem Strict.canonical {limit : Nat} {members : List Bytes} {v : Json}
    (h : Strict limit members v) : Strict limit members v.value.json where
  fits := h.fits.wellFormed.fits.of_depth_le ((depth_value v).trans h.fits.depth_le)
  isScalar := isScalar_json h.fits.wellFormed
  distinct := objectsAll_value namesDistinct_perm h.fits h.distinct h.distinct
  exact := objectsAll_value (namesExact_perm members) h.fits h.distinct h.exact

/-! ## The canonical form of a text -/

/-- **The canonical form of a text**, when it is a JSON text in which nothing is repaired. -/
def marshalWire (text : Bytes) : Option Bytes :=
  match parse text with
  | none => none
  | some v => if v.isScalar then some v.value.canonical else none

theorem marshalWire_eq_some {text canonical : Bytes} :
    marshalWire text = some canonical ↔
      ∃ v, parse text = some v ∧ v.isScalar = true ∧ v.value.canonical = canonical := by
  unfold marshalWire
  cases parse text with
  | none => simp
  | some v => simp

end Json

end Foundation
