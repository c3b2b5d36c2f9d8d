import OriGateway.Evidence.Routing
import OriGateway.Foundation.JsonEscapes
import OriGateway.Foundation.JsonMembers

/-! # What is read of the routing members

The check of a routing string reads no byte outside it and finds exactly the strings in which a
decoder would replace nothing; a routing field is therefore what a strict reader reads. -/

namespace OriGateway

open Foundation

variable {u unit : Nat} {raw : Bytes} {p q r t : UInt8} {v : Json}

/-! ## The check of a string, byte by byte -/

/-- `hexUnit` by position; the outer `none` is a read out of range. -/
def hexUnitRead (raw : Bytes) (start : Nat) : Option (Option Nat) :=
  if raw.length < start + 4 then some none
  else do
    let p ← raw[start]?
    let q ← raw[start + 1]?
    let r ← raw[start + 2]?
    let s ← raw[start + 3]?
    return Json.hexUnit p q r s

/-- The loop of `scalarValueString` by position: `none` is a read out of range, or a loop that has
not ended within its first argument's number of turns. -/
def scalarLoop (raw : Bytes) : Nat → Nat → Option Bool
  | 0, _ => none
  | turns + 1, i =>
    if raw.length ≤ i then some true
    else do
      let b ← raw[i]?
      if b ≠ 92 then scalarLoop raw turns (i + 1)
      else if raw.length ≤ i + 1 then scalarLoop raw turns (i + 2)
      else do
        let c ← raw[i + 1]?
        if c ≠ 117 then scalarLoop raw turns (i + 2)
        else do
          match ← hexUnitRead raw (i + 2) with
          | none => some false
          | some unit =>
            if 0xDC00 ≤ unit ∧ unit ≤ 0xDFFF then some false
            else if 0xD800 ≤ unit ∧ unit ≤ 0xDBFF then
              if raw.length ≤ i + 7 then some false
              else do
                let d ← raw[i + 6]?
                if d ≠ 92 then some false
                else do
                  let e ← raw[i + 7]?
                  if e ≠ 117 then some false
                  else do
                    match ← hexUnitRead raw (i + 8) with
                    | none => some false
                    | some low =>
                      if low < 0xDC00 ∨ 0xDFFF < low then some false
                      else scalarLoop raw turns (i + 12)
            else scalarLoop raw turns (i + 6)

/-- `scalarValueString` by position: `none` is a read out of range. -/
def scalarValueStringRead (raw : Bytes) : Option Bool :=
  if !Utf8.valid raw then some false else scalarLoop raw (raw.length + 1) 0

theorem hexUnitRead_eq (raw : Bytes) (start : Nat) :
    hexUnitRead raw start = some (hexUnitAt (raw.drop start)) := by
  unfold hexUnitRead
  by_cases hlen : raw.length < start + 4
  · rw [if_pos hlen]
    have hshort : (raw.drop start).length < 4 := by
      rw [List.length_drop]
      omega
    match raw.drop start, hshort with
    | [], _ | [_], _ | [_, _], _ | [_, _, _], _ => rfl
    | _ :: _ :: _ :: _ :: _, h => exact absurd h (by simp)
  · have hget (k : Nat) : raw[start + k]? = (raw.drop start)[k]? := by rw [List.getElem?_drop]
    have hlong : 4 ≤ (raw.drop start).length := by
      rw [List.length_drop]
      omega
    rw [if_neg hlen, hget 1, hget 2, hget 3, ← Nat.add_zero start, hget 0, Nat.add_zero]
    match raw.drop start, hlong with
    | _ :: _ :: _ :: _ :: _, _ => rfl

theorem scalarEscapesFrom_skip (n : Nat) (text : Bytes) :
    scalarEscapesFrom n text = scalarEscapesFrom 0 (text.drop n) := by
  induction text generalizing n with
  | nil => simp [scalarEscapesFrom]
  | cons b text ih =>
    cases n with
    | zero => rfl
    | succ n => exact ih n

theorem scalarEscapesFrom_zero (b : UInt8) (rest : Bytes) : scalarEscapesFrom 0 (b :: rest) =
    if b = 92 then
      match rest with
      | 117 :: after =>
        match hexUnitAt after with
        | none => false
        | some unit =>
          if 0xDC00 ≤ unit ∧ unit ≤ 0xDFFF then false
          else if 0xD800 ≤ unit ∧ unit ≤ 0xDBFF then
            match after.drop 4 with
            | 92 :: 117 :: digits =>
              match hexUnitAt digits with
              | some low =>
                if 0xDC00 ≤ low ∧ low ≤ 0xDFFF then scalarEscapesFrom 11 rest else false
              | none => false
            | _ => false
          else scalarEscapesFrom 5 rest
      | _ => scalarEscapesFrom 1 rest
    else scalarEscapesFrom 0 rest := rfl

theorem scalarEscapesFrom_byte {b : UInt8} (h : b ≠ 92) (rest : Bytes) :
    scalarEscapesFrom 0 (b :: rest) = scalarEscapesFrom 0 rest := by
  rw [scalarEscapesFrom_zero, if_neg h]

theorem scalarEscapesFrom_bytes {bs : Bytes} (h : ∀ b ∈ bs, b ≠ 92) (rest : Bytes) :
    scalarEscapesFrom 0 (bs ++ rest) = scalarEscapesFrom 0 rest := by
  induction bs with
  | nil => rfl
  | cons b bs ih =>
    rw [List.cons_append, scalarEscapesFrom_byte (h b List.mem_cons_self)]
    exact ih fun b hb => h b (List.mem_cons_of_mem _ hb)

theorem scalarEscapesFrom_simple {c : UInt8} (h : c ≠ 117) (rest : Bytes) :
    scalarEscapesFrom 0 (92 :: c :: rest) = scalarEscapesFrom 0 rest := by
  rw [scalarEscapesFrom_zero, if_pos rfl]
  split
  · next heq => exact absurd (List.cons.inj heq).1 h
  · rfl

/-- What a `\u` escape asks of the text after its four digits. -/
def unitPasses (unit : Nat) (after : Bytes) : Bool :=
  if 0xDC00 ≤ unit ∧ unit ≤ 0xDFFF then false
  else if 0xD800 ≤ unit ∧ unit ≤ 0xDBFF then
    after.take 2 == [92, 117] && (hexUnitAt (after.drop 2)).any
      (fun low => decide (0xDC00 ≤ low ∧ low ≤ 0xDFFF)) &&
      scalarEscapesFrom 0 (after.drop 6)
  else scalarEscapesFrom 0 after

theorem unitPasses_low (h : Json.IsLow unit) (after : Bytes) : unitPasses unit after = false :=
  if_pos h

theorem unitPasses_high (h : Json.IsHigh unit) (after : Bytes) :
    unitPasses unit after =
    (after.take 2 == [92, 117] && (hexUnitAt (after.drop 2)).any
      (fun low => decide (0xDC00 ≤ low ∧ low ≤ 0xDFFF)) &&
      scalarEscapesFrom 0 (after.drop 6)) := by
  have hlow : ¬ (0xDC00 ≤ unit ∧ unit ≤ 0xDFFF) := by
    unfold Json.IsHigh at h
    omega
  rw [unitPasses, if_neg hlow]
  exact if_pos h

theorem unitPasses_plain (h : Json.isSurrogate unit = false) (after : Bytes) :
    unitPasses unit after = scalarEscapesFrom 0 after := by
  have hno := fun hs => Bool.false_ne_true (h.symm.trans (Json.isSurrogate_iff.mpr hs))
  exact (if_neg fun hl => hno (.inr hl)).trans (if_neg fun hh => hno (.inl hh))

theorem scalarEscapesFrom_unit (after : Bytes) : scalarEscapesFrom 0 (92 :: 117 :: after) =
    (hexUnitAt after).any fun unit => unitPasses unit (after.drop 4) := by
  rw [scalarEscapesFrom_zero, if_pos rfl]
  simp only [scalarEscapesFrom_skip 11, scalarEscapesFrom_skip 5, List.drop_succ_cons]
  cases hexUnitAt after with
  | none => rfl
  | some unit =>
    -- the bytes passed over after the first escape are the second one
    have hdrop : after.drop 10 = (after.drop 4).drop 6 := by rw [List.drop_drop]
    rw [hdrop, Option.any_some, unitPasses]
    generalize after.drop 4 = text
    dsimp only
    congr 2
    split
    · next digits =>
      cases hlow : hexUnitAt digits with
      | none => simp [hlow]
      | some low => by_cases hrange : 0xDC00 ≤ low ∧ low ≤ 0xDFFF <;> simp [hlow, hrange]
    · next hno =>
      match text with
      | [] | [_] => simp
      | d :: e :: digits =>
        have hpair : ¬ (d = 92 ∧ e = 117) := fun ⟨hd, he⟩ => hno digits (by rw [hd, he])
        simp [hpair]

/-- **The loop by position** ends, reads nothing out of range, and answers as the recursion over the
rest of the text does. -/
theorem scalarLoop_eq (raw : Bytes) (turns i : Nat) (h : raw.length ≤ turns + i) :
    scalarLoop raw (turns + 1) i = some (scalarEscapesFrom 0 (raw.drop i)) := by
  induction turns generalizing i with
  | zero =>
    have hend : raw.length ≤ i := by omega
    rw [scalarLoop, if_pos hend, List.drop_eq_nil_of_le hend]
    rfl
  | succ turns ih =>
    have hnext (k : Nat) (hk : 0 < k) : scalarLoop raw (turns + 1) (i + k)
        = some (scalarEscapesFrom 0 ((raw.drop i).drop k)) := by
      rw [ih (i + k) (by omega), List.drop_drop]
    have hget (k : Nat) : raw[i + k]? = (raw.drop i)[k]? := by rw [List.getElem?_drop]
    have hlen (k : Nat) : raw.length ≤ i + k ↔ (raw.drop i).length ≤ k := by
      rw [List.length_drop]
      omega
    have hunit (k : Nat) : hexUnitRead raw (i + k) = some (hexUnitAt ((raw.drop i).drop k)) := by
      rw [hexUnitRead_eq, List.drop_drop]
    have hget0 : raw[i]? = (raw.drop i)[0]? := hget 0
    have hlen0 : raw.length ≤ i ↔ (raw.drop i).length ≤ 0 := hlen 0
    rw [scalarLoop]
    simp only [hnext, hget, hget0, hlen, hlen0, hunit, Nat.zero_lt_succ, ne_eq]
    generalize raw.drop i = text
    match text with
    | [] => rfl
    | [b] =>
      by_cases hb : b = 92
      · simp [hb, scalarEscapesFrom]
      · simp [scalarEscapesFrom_byte hb]
    | b :: c :: rest =>
      by_cases hb : b = 92
      · by_cases hc : c = 117
        · subst hb hc
          rw [scalarEscapesFrom_unit]
          cases hu : hexUnitAt rest with
          | none => simp [hu]
          | some unit =>
            obtain ⟨p, q, r, s, after, rfl⟩ : ∃ p q r s after, rest = p :: q :: r :: s ::
              after := by
              match rest, hu with
              | p :: q :: r :: s :: after, _ => exact ⟨p, q, r, s, after, rfl⟩
            by_cases hlow : 0xDC00 ≤ unit ∧ unit ≤ 0xDFFF
            · simp [hu, unitPasses_low hlow, hlow]
            by_cases hhigh : 0xD800 ≤ unit ∧ unit ≤ 0xDBFF
            · match after, hu with
              | [], hu | [d], hu => simp [hu, unitPasses_high hhigh, hlow, hhigh]
              | d :: e :: digits, hu =>
                by_cases hpair : d = 92 ∧ e = 117
                · obtain ⟨rfl, rfl⟩ := hpair
                  cases hl : hexUnitAt digits with
                  | none => simp [hu, unitPasses_high hhigh, hlow, hhigh, hl]
                  | some low =>
                    by_cases hrange : 0xDC00 ≤ low ∧ low ≤ 0xDFFF
                    · simp [hu, unitPasses_high hhigh, hlow, hhigh, hl, hrange, Nat.not_lt.mpr]
                    · have hout : low < 0xDC00 ∨ 0xDFFF < low := by omega
                      simp [hu, unitPasses_high hhigh, hlow, hhigh, hl, hrange, hout]
                · obtain rfl | hd := eq_or_ne d 92
                  · have he : e ≠ 117 := fun he => hpair ⟨rfl, he⟩
                    simp [hu, unitPasses_high hhigh, hlow, hhigh, he]
                  · simp [hu, unitPasses_high hhigh, hlow, hhigh, hd]
            · have hplain : Json.isSurrogate unit = false :=
                Bool.eq_false_iff.mpr fun hs => (Json.isSurrogate_iff.mp hs).elim hhigh hlow
              simp [hu, unitPasses_plain hplain, hlow, hhigh]
        · simp [hb, hc, scalarEscapesFrom_simple hc]
      · simp [hb, scalarEscapesFrom_byte hb]

theorem scalarValueStringRead_eq (raw : Bytes) :
    scalarValueStringRead raw = some (scalarValueString raw) := by
  unfold scalarValueStringRead scalarValueString
  cases Utf8.valid raw with
  | false => rfl
  | true => exact scalarLoop_eq raw raw.length 0 (Nat.le_refl _)

/-! ## Against the grammar -/

/-- The check's answer on a text is that its surrogates are paired. -/
def EscapesAgree (text : Bytes) : Prop :=
  scalarEscapesFrom 0 text = true ↔ Json.SurrogatesPaired (Json.stringTokens text)

theorem EscapesAgree.byte {b : UInt8} (hb : b ≠ 92) {text : Bytes} (h : EscapesAgree text) :
    EscapesAgree (b :: text) := by
  rw [EscapesAgree, scalarEscapesFrom_byte hb, Json.stringTokens_byte hb,
    Json.surrogatesPaired_cons (by simp)]
  exact h

theorem EscapesAgree.bytes {bs : Bytes} (hbs : ∀ b ∈ bs, b ≠ 92) {text : Bytes}
    (h : EscapesAgree text) : EscapesAgree (bs ++ text) := by
  induction bs with
  | nil => exact h
  | cons b bs ih =>
    exact .byte (hbs b List.mem_cons_self) (ih fun b hb => hbs b (List.mem_cons_of_mem _ hb))

/-- The escape that would complete a pair with a lone surrogate does not follow it. -/
theorem no_pair_of_lone (hlone : Json.unitRune u raw = (Utf8.replacement, 0))
    (hs : Json.isSurrogate u = true) {rest : Bytes} {v : Nat}
    (hraw : raw = 92 :: 117 :: p :: q :: r :: t :: rest) (hv : Json.hexUnit p q r t = some v) :
    Json.surrogatePair u v = none := by
  subst hraw
  cases hpair : Json.surrogatePair u v with
  | none => rfl
  | some rune =>
    rw [Json.unitRune, if_pos hs] at hlone
    simp [hv, hpair] at hlone

theorem scalarEscapesFrom_lone (hu : Json.hexUnit p q r t = some u)
    (hlone : Json.unitRune u raw = (Utf8.replacement, 0)) (hs : Json.isSurrogate u = true)
    (hraw : Json.RawString raw) :
    scalarEscapesFrom 0 (92 :: 117 :: p :: q :: r :: t :: (raw ++ [34])) = false := by
  rw [scalarEscapesFrom_unit, hexUnitAt, hu, Option.any_some, List.drop_succ_cons,
    List.drop_succ_cons, List.drop_succ_cons, List.drop_succ_cons, List.drop_zero]
  obtain hhigh | hlow := Json.isSurrogate_iff.mp hs
  · rw [unitPasses_high hhigh]
    cases hraw with
    | nil => rfl
    | simple hsimple _ => simp [Json.ne_unit_of_isSimpleEscape hsimple]
    | byte _ hback _ _ =>
      have htake : ∀ b text, b ≠ 92 → ((b :: text : Bytes).take 2 == [92, 117]) = false := by
        intro b text hb
        simp [hb]
      rw [List.cons_append, htake _ _ hback]
      rfl
    | unit hunit _ =>
      obtain ⟨v, hv⟩ := Option.isSome_iff_exists.mp hunit
      have hlow : ¬ Json.IsLow v := fun hlow => by
        have hpair := Json.surrogatePair_isSome.mpr ⟨hhigh, hlow⟩
        rw [no_pair_of_lone hlone hs rfl hv] at hpair
        cases hpair
      have hrange : decide (0xDC00 ≤ v ∧ v ≤ 0xDFFF) = false := decide_eq_false hlow
      simp only [List.cons_append, List.drop_succ_cons, List.drop_zero, hexUnitAt, hv,
        Option.any_some, hrange, Bool.and_false, Bool.false_and]
  · exact unitPasses_low hlow _

theorem not_surrogatesPaired_of_lone (hu : Json.hexUnit p q r t = some u)
    (hlone : Json.unitRune u raw = (Utf8.replacement, 0)) (hs : Json.isSurrogate u = true)
    (hraw : Json.RawString raw) :
    ¬ Json.SurrogatesPaired
      (Json.stringTokens (92 :: 117 :: p :: q :: r :: t :: (raw ++ [34]))) := by
  rw [Json.stringTokens_unit hu]
  apply Json.not_surrogatesPaired_lone hs
  intro v hv
  cases hraw with
  | nil => simp [Json.stringTokens_byte] at hv
  | simple hsimple _ =>
    simp [Json.stringTokens_simple (Json.ne_unit_of_isSimpleEscape hsimple)] at hv
  | byte _ hback _ _ => simp [Json.stringTokens_byte hback] at hv
  | unit hunit _ =>
    obtain ⟨v', hv'⟩ := Option.isSome_iff_exists.mp hunit
    obtain rfl : v' = v := by simpa [Json.stringTokens_unit hv'] using hv
    exact no_pair_of_lone hlone hs rfl hv'

theorem agrees_of_rawString (h : Json.RawString raw) : EscapesAgree (raw ++ [34]) := by
  apply h.read_induction (motive := fun raw => EscapesAgree (raw ++ [34]))
  case nil =>
    exact .byte (by decide)
      (by simp [EscapesAgree, scalarEscapesFrom, Json.stringTokens, Json.SurrogatesPaired])
  case unit =>
    intro p q r t raw u hu hs _ ih
    simp only [List.cons_append, EscapesAgree]
    rw [scalarEscapesFrom_unit, hexUnitAt, hu, Json.stringTokens_unit hu,
      Json.surrogatesPaired_cons (by rintro _ ⟨⟩; exact hs)]
    simpa [EscapesAgree, unitPasses_plain hs] using ih
  case pair =>
    intro p q r t p' q' r' t' raw u u' rune hu hu' hpair _ ih
    obtain ⟨hhigh, hlow⟩ := Json.surrogatePair_isSome.mp (Option.isSome_of_eq_some hpair)
    simp only [List.cons_append, EscapesAgree]
    rw [scalarEscapesFrom_unit, hexUnitAt, hu, Json.stringTokens_unit hu,
      Json.stringTokens_unit hu', Json.surrogatesPaired_pair hhigh hlow]
    have hrange : 0xDC00 ≤ u' ∧ u' ≤ 0xDFFF := hlow
    simpa [EscapesAgree, unitPasses_high hhigh, hexUnitAt, hu', hrange] using ih
  case lone =>
    intro p q r t raw u hu hlone hs hraw _
    simp [EscapesAgree, scalarEscapesFrom_lone hu hlone hs hraw,
      not_surrogatesPaired_of_lone hu hlone hs hraw]
  case simple =>
    intro c raw hsimple _ ih
    have hc := Json.ne_unit_of_isSimpleEscape hsimple
    simp only [List.cons_append, EscapesAgree]
    rw [scalarEscapesFrom_simple hc, Json.stringTokens_simple hc,
      Json.surrogatesPaired_cons (by simp)]
    exact ih
  case sequence =>
    intro lead cont raw rune hd _ hback _ _ ih
    have hcont : ∀ b ∈ cont, b ≠ 92 := by
      rintro b hb rfl
      exact absurd (hd.high _ hb) (by decide)
    rw [List.cons_append, List.append_assoc]
    exact .byte hback (ih.bytes hcont)
  case invalid =>
    intro b raw _ _ hback _ _ ih
    exact .byte hback ih

/-- **The check of a routing string** reads nothing outside it, and of a JSON string it says exactly
whether its bytes are UTF-8 and its surrogate escapes paired. -/
theorem scalarValueString_exact (token : Bytes) :
    (∃ answer, scalarValueStringRead token = some answer) ∧
    ∀ raw, token = 34 :: raw ++ [34] → Json.RawString raw →
      (scalarValueStringRead token = some true ↔
        Utf8.valid token = true ∧ Json.SurrogatesPaired (Json.stringTokens token)) := by
  refine ⟨⟨_, scalarValueStringRead_eq token⟩, ?_⟩
  rintro raw rfl hraw
  have hagrees : EscapesAgree (34 :: raw ++ [34]) := .byte (by decide) (agrees_of_rawString hraw)
  rw [EscapesAgree] at hagrees
  rw [scalarValueStringRead_eq, Option.some.injEq, scalarValueString, Bool.and_eq_true, hagrees]

/-- A pair of surrogates passes. -/
theorem scalarValueString_exact_pair :
    scalarValueStringRead (ascii "\"\\ud83d\\ude00\"") = some true := by
  have hpaired : Json.SurrogatesPaired [.byte 34, .unit 0xD83D, .unit 0xDE00, .byte 34] := by
    rw [Json.surrogatesPaired_cons (by simp),
      Json.surrogatesPaired_pair ⟨by decide, by decide⟩ ⟨by decide, by decide⟩,
      Json.surrogatesPaired_cons (by simp)]
    exact nofun
  exact ((scalarValueString_exact _).2 (ascii "\\ud83d\\ude00") rfl
    (.unit (by decide) (.unit (by decide) .nil))).mpr ⟨by decide, hpaired⟩

/-! ## A strict reader -/

/-- The string a strict reader reads: it replaces nothing. -/
def strictString (raw : Bytes) : Option Bytes :=
  if Json.isScalarString raw then some (Json.unquote raw) else none

def strictText : Json → Option Bytes
  | .str raw => strictString raw
  | _ => none

def strictInt64 : Json → Option Int
  | .num lit => Json.readInt64 0 (.num lit)
  | _ => none

/-- What a strict reader reads into a field: the value of the one member of that very name, and the
field's zero value when there is none or it is null. -/
def strictField {F : Type} (tag : Bytes) (zero : F) (read : Json → Option F)
    (members : List (Bytes × Json)) : Option F :=
  match members.filter fun m => strictString m.1 == some tag with
  | [] => some zero
  | [(_, .null)] => some zero
  | [(_, v)] => read v
  | _ => none

/-- A value that is no string a decoder would repair. -/
def Unrepaired (v : Json) : Prop := ∀ raw, v = .str raw → Json.isScalarString raw = true

/-- A tagged field of a routing record: how a strict reader reads it, and that the decoder reads it
so when it has not been written before. -/
structure RoutingSchema.Field {R : Type} (schema : RoutingSchema R) (F : Type) where
  tag : Bytes
  index : Nat
  get : R → F
  read : Json → Option F
  found : schema.members.findIdx? (· == tag) = some index
  plain : ∀ b ∈ tag, b.toNat < 0x80
  own : ∀ v r r', get r = get schema.zero → Unrepaired v → schema.store index v r = some r' →
    v = .null ∧ get r' = get schema.zero ∨ v ≠ .null ∧ read v = some (get r')
  other : ∀ j < schema.members.length, j ≠ index → ∀ v r r', schema.store j v r = some r' →
    get r' = get r

/-- **A field is read strictly**: no member differs from its tag by case only, and its value is a
strict reader's. -/
structure RoutingSchema.Field.StrictlyRead {R F : Type} {schema : RoutingSchema R}
    (field : schema.Field F)
    (members : List (Bytes × Json)) (r : R) : Prop where
  spelled : ∀ m ∈ members, Json.foldName (Json.unquote m.1) = Json.foldName field.tag →
    strictString m.1 = some field.tag
  value : strictField field.tag (field.get schema.zero) field.read members = some (field.get r)

theorem checkMember_inv {key : Bytes} {tags seen seen' : List Bytes} {routing routing' : Bool}
    (h : checkMember key tags routing seen = .ok (routing', seen')) :
    (∀ tag ∈ tags, Json.foldName key = Json.foldName tag → key = tag) ∧
    (routing = true → routing' = true) ∧
      seen ⊆ seen' ∧ (key ∈ tags → routing' = true ∧ key ∉ seen ∧ key ∈ seen') := by
  induction tags generalizing routing seen with
  | nil =>
    cases h
    exact ⟨by simp, id, List.Subset.refl _, by simp⟩
  | cons tag tags ih =>
    rw [checkMember] at h
    by_cases hkey : key = tag
    · subst hkey
      rw [if_pos rfl] at h
      by_cases hseen : key ∈ seen
      · rw [if_pos hseen] at h
        cases h
      · rw [if_neg hseen] at h
        obtain ⟨hfold, hrouting, hsub, -⟩ := ih h
        have hsub' := fun tag ht => hsub (List.mem_cons_of_mem key ht : tag ∈ key :: seen)
        exact ⟨List.forall_mem_cons.mpr ⟨fun _ => rfl, hfold⟩, fun _ => hrouting rfl, hsub',
          fun _ => ⟨hrouting rfl, hseen, hsub List.mem_cons_self⟩⟩
    · rw [if_neg hkey] at h
      by_cases hcase : Json.foldName key = Json.foldName tag
      · rw [if_pos hcase] at h
        cases h
      · rw [if_neg hcase] at h
        obtain ⟨hfold, hrouting, hsub, hmem⟩ := ih h
        exact ⟨List.forall_mem_cons.mpr ⟨fun heq => absurd heq hcase, hfold⟩, hrouting, hsub,
          fun hm => hmem (List.mem_of_ne_of_mem hkey hm)⟩

/-- **What the refusal leaves** of a routing member: it is spelled exactly, stands at most once, and
as a string is one of scalar values. -/
theorem refuseAmbiguousMembers_inv {tags : List Bytes} {tag : Bytes} (htag : tag ∈ tags)
    {members : List (Bytes × Json)} {seen : List Bytes}
    (h : refuseAmbiguousMembers tags members seen = .ok ()) :
    (∀ m ∈ members, Json.foldName (Json.unquote m.1) = Json.foldName tag → Json.unquote m.1 = tag) ∧
      (∀ m ∈ members, Json.unquote m.1 = tag → ambiguousValue m.2 = false) ∧
      (members.filter fun m => Json.unquote m.1 == tag).length + (if tag ∈ seen then 1 else 0)
        ≤ 1 := by
  induction members generalizing seen with
  | nil =>
    refine ⟨by simp, by simp, ?_⟩
    rw [List.filter_nil, List.length_nil]
    split <;> omega
  | cons m members ih =>
    obtain ⟨name, v⟩ := m
    rw [refuseAmbiguousMembers] at h
    split at h
    · cases h
    · next routing seen' hcheck =>
      obtain ⟨hfold, -, hsub, hmem⟩ := checkMember_inv hcheck
      split at h
      · cases h
      · next hvalue =>
        obtain ⟨hspelled, hscalar, hcount⟩ := ih h
        refine ⟨List.forall_mem_cons.mpr ⟨hfold tag htag, hspelled⟩,
          List.forall_mem_cons.mpr ⟨?_, hscalar⟩, ?_⟩
        · rintro rfl
          rw [(hmem htag).1, Bool.true_and] at hvalue
          exact Bool.eq_false_iff.mpr hvalue
        · by_cases hname : Json.unquote name = tag
          · subst hname
            obtain ⟨-, hnew, hnow⟩ := hmem htag
            rw [if_pos hnow] at hcount
            rw [List.filter_cons_of_pos (by simp), List.length_cons, if_neg hnew]
            omega
          · rw [List.filter_cons_of_neg (by simpa using hname)]
            by_cases hold : tag ∈ seen
            · rw [if_pos (hsub hold)] at hcount
              rwa [if_pos hold]
            · rw [if_neg hold]
              split at hcount <;> omega

/-- **A string that passes the check** is one a decoder repairs nothing in. -/
theorem isScalarString_of_scalarValueString (hraw : Json.RawString raw)
    (h : scalarValueString (34 :: raw ++ [34]) = true) : Json.isScalarString raw = true := by
  obtain ⟨hvalid, hescapes⟩ := (Bool.and_eq_true _ _).mp h
  rw [List.cons_append, scalarEscapesFrom_byte (by decide)] at hescapes
  have hvalid : Utf8.valid (raw ++ [34]) = true := by
    rwa [← Utf8.valid_ascii_append (by simp : ∀ b ∈ [(34 : UInt8)], b.toNat < 0x80)]
  unfold Json.isScalarString
  revert hescapes
  revert hvalid
  apply hraw.read_induction (motive := fun raw =>
    Utf8.valid (raw ++ [34]) = true → scalarEscapesFrom 0 (raw ++ [34]) = true →
    Json.isScalarFrom 0 raw = true)
  case nil => exact fun _ _ => rfl
  case unit =>
    intro p q r t raw u hu hs _ ih hvalid hescapes
    rw [Json.isScalarFrom_unit hu hs]
    apply ih
    · rwa [← Utf8.valid_ascii_append (Json.hexUnit_ascii hu)]
    · simpa [scalarEscapesFrom_unit, hexUnitAt, hu, unitPasses_plain hs] using hescapes
  case pair =>
    intro p q r t p' q' r' t' raw u u' rune hu hu' hpair _ ih hvalid hescapes
    obtain ⟨hhigh, -⟩ := Json.surrogatePair_isSome.mp (Option.isSome_of_eq_some hpair)
    rw [Json.isScalarFrom_pair hu hu' hpair]
    apply ih
    · rwa [← Utf8.valid_ascii_append (Json.hexUnit_ascii hu'),
        ← Utf8.valid_ascii_append (Json.hexUnit_ascii hu)]
    · simp only [List.cons_append, scalarEscapesFrom_unit, hexUnitAt, hu, Option.any_some,
        unitPasses_high hhigh, Bool.and_eq_true] at hescapes
      exact hescapes.2
  case lone =>
    intro p q r t raw u hu hlone hs hraw _ _ hescapes
    exact absurd ((scalarEscapesFrom_lone hu hlone hs hraw).symm.trans hescapes) Bool.false_ne_true
  case simple =>
    intro c raw hsimple _ ih hvalid hescapes
    have hc := Json.ne_unit_of_isSimpleEscape hsimple
    rw [Json.isScalarFrom_simple hc]
    apply ih
    · have hascii : ∀ b ∈ [92, c], b.toNat < 0x80 := by simp [Json.lt_of_isSimpleEscape hsimple]
      rwa [← Utf8.valid_ascii_append hascii]
    · rwa [List.cons_append, List.cons_append, scalarEscapesFrom_simple hc] at hescapes
  case sequence =>
    intro lead cont raw rune hd _ hback _ _ ih hvalid hescapes
    rw [List.cons_append, List.append_assoc] at hvalid hescapes
    rw [Json.isScalarFrom_sequence hd hback]
    apply ih
    · rwa [Utf8.valid_cons hd] at hvalid
    · have hcont : ∀ b ∈ cont, b ≠ 92 := by
        rintro b hb rfl
        exact absurd (hd.high _ hb) (by decide)
      rwa [scalarEscapesFrom_byte hback, scalarEscapesFrom_bytes hcont] at hescapes
  case invalid =>
    intro b raw hdecode _ _ _ _ _ hvalid _
    have hnone := Utf8.decodeRune_append_ascii (by decide : (34 : UInt8).toNat < 0x80) hdecode
    simp [Utf8.valid, Utf8.runes, Utf8.runesFrom, hnone] at hvalid

theorem matchField_eq_some_iff {R F : Type} {schema : RoutingSchema R} (field : schema.Field F)
    {name : Bytes} (hspelled : Json.foldName name = Json.foldName field.tag → name = field.tag) :
    Json.matchField schema.members name = some field.index ↔ name = field.tag := by
  constructor
  · intro h
    obtain ⟨hlt, htag, -⟩ := List.findIdx?_eq_some_iff_getElem.mp field.found
    obtain h | ⟨-, h⟩ := Option.or_eq_some_iff.mp h
    · obtain ⟨_, hname, -⟩ := List.findIdx?_eq_some_iff_getElem.mp h
      exact (beq_iff_eq.mp hname).symm.trans (beq_iff_eq.mp htag)
    · obtain ⟨_, hname, -⟩ := List.findIdx?_eq_some_iff_getElem.mp h
      rw [beq_iff_eq.mp htag] at hname
      exact hspelled (beq_iff_eq.mp hname).symm
  · rintro rfl
    rw [Json.matchField, field.found, Option.some_or]

/-- **Every field of a routing record is read strictly.** -/
theorem decodeRouting_strict {R F : Type} {schema : RoutingSchema R} (field : schema.Field F)
    {payload : Bytes} {r : R} (h : decodeRouting schema payload = .ok r)
    {members : List (Bytes × Json)} (hparse : Json.parse payload = some (.obj members)) :
    field.StrictlyRead members r := by
  have htag : field.tag ∈ schema.members := by
    obtain ⟨hlt, htag, -⟩ := List.findIdx?_eq_some_iff_getElem.mp field.found
    exact beq_iff_eq.mp htag ▸ List.getElem_mem hlt
  obtain ⟨_, _, -, -, -, hfits⟩ := Json.of_parse hparse
  have hraw := Json.fitsMembers_iff.mp hfits
  rw [decodeRouting, hparse] at h
  dsimp only at h
  split at h
  · cases h
  · next hrefuse =>
    split at h
    · next hdecode =>
      cases h
      obtain ⟨hspelled, hscalar, hcount⟩ := refuseAmbiguousMembers_inv htag hrefuse
      have hread : ∀ m ∈ members, Json.unquote m.1 = field.tag →
          strictString m.1 = some field.tag := by
        intro m hm hname
        have hscalar :=
          Json.isScalarString_of_ascii (Json.isRaw_iff.mp (hraw m hm).1) (hname ▸ field.plain)
        rw [strictString, if_pos hscalar, hname]
      refine ⟨fun m hm hfold => hread m hm (hspelled m hm hfold), ?_⟩
      -- the decoder's match, the exact name and the strict reader's name pick out the same members
      have hname : (members.filter fun m => strictString m.1 == some field.tag)
          = members.filter fun m => Json.unquote m.1 == field.tag := by
        refine List.filter_congr fun m hm => ?_
        rw [Bool.eq_iff_iff, beq_iff_eq, beq_iff_eq]
        refine ⟨fun hs => ?_, hread m hm⟩
        unfold strictString at hs
        split at hs
        · exact Option.some.inj hs
        · cases hs
      have hmatch : (members.filter fun m =>
        Json.matchField schema.members (Json.unquote m.1) == some field.index)
          = members.filter fun m => Json.unquote m.1 == field.tag := by
        refine List.filter_congr fun m hm => ?_
        rw [Bool.eq_iff_iff, beq_iff_eq, beq_iff_eq, matchField_eq_some_iff field (hspelled m hm)]
      have hfield := Json.decodeMembers_field field.other hdecode
      rw [hmatch] at hfield
      unfold strictField
      rw [hname]
      rw [if_neg List.not_mem_nil, Nat.add_zero] at hcount
      have hmem := fun m hm =>
        List.mem_filter.mp (hm : m ∈ members.filter fun m => Json.unquote m.1 == field.tag)
      generalize (members.filter fun m => Json.unquote m.1 == field.tag)
        = found at hfield hcount hmem
      match found, hcount with
      | [], _ => exact congrArg some hfield.symm
      | [(name, v)], _ =>
        obtain ⟨r₁, r₂, hbefore, hstore, hafter⟩ := hfield
        obtain ⟨hm, htagged⟩ := hmem _ List.mem_cons_self
        have hunrepaired : Unrepaired v := by
          rintro raw rfl
          have hvalue := hscalar _ hm (beq_iff_eq.mp htagged)
          have hfits := (hraw _ hm).2
          simp only [Json.Fits] at hfits
          exact isScalarString_of_scalarValueString (Json.isRaw_iff.mp hfits)
            (by simpa [ambiguousValue] using hvalue)
        obtain ⟨rfl, hzero⟩ | ⟨hne, hvalue⟩ := field.own v r₁ r₂ hbefore hunrepaired hstore
        · rw [hafter, hzero]
        · rw [hafter, ← hvalue]
          cases v with
          | null => exact absurd rfl hne
          | _ => rfl
    · cases h

/-! ## The routing records -/

theorem own_text {old new : Bytes} (hv : Unrepaired v) (h : Json.readString old v = some new) :
    v = .null ∧ new = old ∨ v ≠ .null ∧ strictText v = some new := by
  cases v with
  | null =>
    cases h
    exact .inl ⟨rfl, rfl⟩
  | str raw =>
    cases h
    refine .inr ⟨nofun, ?_⟩
    rw [strictText, strictString, if_pos (hv raw rfl)]
  | _ => cases h

theorem own_int64 {new : Int} (h : Json.readInt64 0 v = some new) :
    v = .null ∧ new = 0 ∨ v ≠ .null ∧ strictInt64 v = some new := by
  cases v with
  | null =>
    obtain ⟨h, -⟩ := Option.filter_eq_some_iff.mp h
    cases h
    exact .inl ⟨rfl, rfl⟩
  | num lit => exact .inr ⟨nofun, h⟩
  | _ => cases h

theorem own_int64Ptr {new : Option Int} (h : Json.readInt64Ptr v = some new) :
    v = .null ∧ new = none ∨ v ≠ .null ∧ (strictInt64 v).map some = some new := by
  cases v with
  | null =>
    obtain ⟨h, -⟩ := Option.filter_eq_some_iff.mp h
    cases h
    exact .inl ⟨rfl, rfl⟩
  | num lit =>
    refine .inr ⟨nofun, ?_⟩
    obtain ⟨h, hrange⟩ := Option.filter_eq_some_iff.mp h
    obtain ⟨z, hz, rfl⟩ := Option.map_eq_some_iff.mp h
    have hread : strictInt64 (.num lit) = some z := Option.filter_eq_some_iff.mpr ⟨hz, hrange⟩
    rw [hread, Option.map_some]
  | _ => cases h

theorem ascii_of_all {tag : Bytes} (h : tag.all (fun b => decide (b.toNat < 0x80)) = true) :
    ∀ b ∈ tag, b.toNat < 0x80 := fun b hb => of_decide_eq_true (List.all_eq_true.mp h b hb)

def deviceField : deviceSchema.Field Bytes where
  tag := ascii "device_id"
  index := 0
  get := id
  read := strictText
  found := by decide
  plain := ascii_of_all (by decide)
  own v r r' hr hv h := by
    obtain rfl : r = [] := hr
    exact own_text hv h
  other j hj hne := absurd (Nat.lt_one_iff.mp hj) hne

def outboundDevice : outboundSchema.Field Bytes where
  tag := ascii "device_id"
  index := 0
  get := OutboundRouting.deviceID
  read := strictText
  found := by decide
  plain := ascii_of_all (by decide)
  own v r r' hr hv h := by
    obtain ⟨d, hd, rfl⟩ := Option.map_eq_some_iff.mp h
    rw [hr] at hd
    exact own_text hv hd
  other j hj hne v r r' h := by
    have hj : j < 2 := hj
    obtain rfl : j = 1 := by omega
    obtain ⟨_, -, rfl⟩ := Option.map_eq_some_iff.mp h
    rfl

def outboundSeq : outboundSchema.Field Int where
  tag := ascii "local_seq"
  index := 1
  get := OutboundRouting.localSeq
  read := strictInt64
  found := by decide
  plain := ascii_of_all (by decide)
  own v r r' hr _ h := by
    obtain ⟨n, hn, rfl⟩ := Option.map_eq_some_iff.mp h
    rw [hr] at hn
    exact own_int64 hn
  other j hj hne v r r' h := by
    have hj : j < 2 := hj
    obtain rfl : j = 0 := by omega
    obtain ⟨_, -, rfl⟩ := Option.map_eq_some_iff.mp h
    rfl

def authorityDevice : authoritySchema.Field Bytes where
  tag := ascii "device_id"
  index := 0
  get := AuthorityRouting.deviceID
  read := strictText
  found := by decide
  plain := ascii_of_all (by decide)
  own v r r' hr hv h := by
    obtain ⟨d, hd, rfl⟩ := Option.map_eq_some_iff.mp h
    rw [hr] at hd
    exact own_text hv hd
  other j hj hne v r r' h := by
    have hj : j < 3 := hj
    obtain rfl | rfl : j = 1 ∨ j = 2 := by omega
    all_goals
      obtain ⟨_, -, rfl⟩ := Option.map_eq_some_iff.mp h
      rfl

def authorityFrom : authoritySchema.Field (Option Int) where
  tag := ascii "from_seq"
  index := 1
  get := AuthorityRouting.fromSeq
  read v := (strictInt64 v).map some
  found := by decide
  plain := ascii_of_all (by decide)
  own v r r' _ _ h := by
    obtain ⟨n, hn, rfl⟩ := Option.map_eq_some_iff.mp h
    exact own_int64Ptr hn
  other j hj hne v r r' h := by
    have hj : j < 3 := hj
    obtain rfl | rfl : j = 0 ∨ j = 2 := by omega
    all_goals
      obtain ⟨_, -, rfl⟩ := Option.map_eq_some_iff.mp h
      rfl

def authorityTo : authoritySchema.Field (Option Int) where
  tag := ascii "to_seq"
  index := 2
  get := AuthorityRouting.toSeq
  read v := (strictInt64 v).map some
  found := by decide
  plain := ascii_of_all (by decide)
  own v r r' _ _ h := by
    obtain ⟨n, hn, rfl⟩ := Option.map_eq_some_iff.mp h
    exact own_int64Ptr hn
  other j hj hne v r r' h := by
    have hj : j < 3 := hj
    obtain rfl | rfl : j = 0 ∨ j = 1 := by omega
    all_goals
      obtain ⟨_, -, rfl⟩ := Option.map_eq_some_iff.mp h
      rfl

theorem members_of_decodeRouting {R : Type} {schema : RoutingSchema R} {payload : Bytes} {r : R}
    (h : decodeRouting schema payload = .ok r) :
    ∃ members, Json.parse payload = some (.obj members) := by
  unfold decodeRouting at h
  split at h
  · cases h
  · next members hparse => exact ⟨members, hparse⟩
  · cases h

/-- **Whatever routing record a payload is accepted into**, each of its fields is what a strict
reader reads in the member of that very name. -/
theorem routing_fields_strict (payload : Bytes) :
    (∀ r, decodeRouting deviceSchema payload = .ok r →
      ∃ members, Json.parse payload = some (.obj members) ∧ deviceField.StrictlyRead members r) ∧
    (∀ r, decodeRouting outboundSchema payload = .ok r →
      ∃ members, Json.parse payload = some (.obj members) ∧ outboundDevice.StrictlyRead members r ∧
        outboundSeq.StrictlyRead members r) ∧
    (∀ r, decodeRouting authoritySchema payload = .ok r →
      ∃ members, Json.parse payload = some (.obj members) ∧ authorityDevice.StrictlyRead members r ∧
        authorityFrom.StrictlyRead members r ∧ authorityTo.StrictlyRead members r) := by
  refine ⟨fun r h => ?_, fun r h => ?_, fun r h => ?_⟩
  · obtain ⟨members, hparse⟩ := members_of_decodeRouting h
    exact ⟨members, hparse, decodeRouting_strict _ h hparse⟩
  · obtain ⟨members, hparse⟩ := members_of_decodeRouting h
    exact ⟨members, hparse, decodeRouting_strict _ h hparse, decodeRouting_strict _ h hparse⟩
  · obtain ⟨members, hparse⟩ := members_of_decodeRouting h
    exact ⟨members, hparse, decodeRouting_strict _ h hparse, decodeRouting_strict _ h hparse,
      decodeRouting_strict _ h hparse⟩

/-- An escaped name is read as the name it decodes to. -/
theorem routing_fields_strict_escaped : ∃ members,
    Json.parse (ascii "\x7b\"d\\u0065vice_id\":\"x\"\x7d") = some (.obj members) ∧
      deviceField.StrictlyRead members (ascii "x") :=
  (routing_fields_strict _).1 _ (by decide +kernel)

end OriGateway
