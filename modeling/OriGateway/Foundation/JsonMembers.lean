import OriGateway.Foundation.JsonReading

/-! # Members of a JSON object

A reader of one member passes over every other, wherever it stands (**`decodeMembers_one`**). -/

namespace Foundation

namespace Json

variable {R : Type} {tags : List Bytes} {store : Nat → Json → R → Option R}

theorem decodeMembers_append {before : List (Bytes × Json)}
    (h : ∀ m ∈ before, matchField tags (unquote m.1) = none) (members : List (Bytes × Json))
    (r : R) :
    decodeMembers false tags store (before ++ members) r
      = decodeMembers false tags store members r := by
  induction before with
  | nil => rfl
  | cons m before ih =>
    obtain ⟨name, v⟩ := m
    rw [List.cons_append, decodeMembers, h _ List.mem_cons_self]
    exact ih fun m hm => h m (List.mem_cons_of_mem _ hm)

/-- **A reader of one member finds it among others.** -/
theorem decodeMembers_one {before after : List (Bytes × Json)} {name : Bytes} {i : Nat}
    (hbefore : ∀ m ∈ before, matchField tags (unquote m.1) = none)
    (hname : matchField tags (unquote name) = some i)
    (hafter : ∀ m ∈ after, matchField tags (unquote m.1) = none) (v : Json) (r : R) :
    decodeMembers false tags store (before ++ (name, v) :: after) r = store i v r := by
  rw [decodeMembers_append hbefore, decodeMembers, hname]
  have hrest : decodeMembers false tags store after = some := funext (decodeMembers_pass hafter)
  simp only [hrest, Option.bind_fun_some]

theorem matchField_lt {name : Bytes} {i : Nat} (h : matchField tags name = some i) :
    i < tags.length := by
  obtain h | ⟨-, h⟩ := Option.or_eq_some_iff.mp h
  · exact (List.findIdx?_eq_some_iff_getElem.mp h).1
  · exact (List.findIdx?_eq_some_iff_getElem.mp h).1

/-- **A field's value** is the one it had, or what its one member was read as. -/
theorem decodeMembers_field {F : Type} {get : R → F} {i : Nat}
    (hother : ∀ j < tags.length, j ≠ i → ∀ v r r', store j v r = some r' → get r' = get r)
    {members : List (Bytes × Json)} {r r' : R}
    (h : decodeMembers false tags store members r = some r') :
    match members.filter fun m => matchField tags (unquote m.1) == some i with
    | [] => get r' = get r
    | [m] => ∃ r₁ r₂, get r₁ = get r ∧ store i m.2 r₁ = some r₂ ∧ get r' = get r₂
    | _ => True := by
  induction members generalizing r with
  | nil =>
    cases h
    rfl
  | cons m members ih =>
    obtain ⟨name, v⟩ := m
    rw [decodeMembers] at h
    by_cases hmatch : matchField tags (unquote name) = some i
    · rw [List.filter_cons_of_pos (by simpa using hmatch)]
      rw [hmatch] at h
      obtain ⟨r₁, hstore, h⟩ := Option.bind_eq_some_iff.mp h
      have hrest := ih h
      split
      · next heq => cases heq
      · next heq =>
        obtain ⟨rfl, hnil⟩ := List.cons.inj heq
        rw [hnil] at hrest
        exact ⟨r, r₁, rfl, hstore, hrest⟩
      · trivial
    · rw [List.filter_cons_of_neg (by simpa using hmatch)]
      split at h
      · exact ih h
      · next j hj =>
        obtain ⟨r₁, hstore, h⟩ := Option.bind_eq_some_iff.mp h
        have hget := hother j (matchField_lt hj) (fun hji => hmatch (hj.trans (congrArg some hji)))
          v r r₁ hstore
        rw [← hget]
        exact ih h

end Json

end Foundation
