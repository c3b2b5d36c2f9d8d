import Mathlib

/-! # Checks in order

A validator takes its checks in order and refuses by the first that fails. **`firstRefusal`** says
so of a list of checks; a chain of conditionals is compared with it one check at a time
(**`firstRefusal_cons`**). -/

namespace Foundation

variable {V A : Type} {fails : V → Bool} {a b : A} {v : V} {checks : List V}

/-- The result of checks taken in order: the first that fails, or a value. -/
def firstRefusal (fails : V → Bool) (checks : List V) (a : A) : Except V A :=
  match checks.find? fails with
  | some v => .error v
  | none => .ok a

@[simp] theorem firstRefusal_nil : firstRefusal fails [] a = .ok a := rfl

theorem firstRefusal_of_fails (h : fails v = true) :
    firstRefusal fails (v :: checks) a = .error v := by
  rw [firstRefusal, List.find?_cons_of_pos h]

theorem firstRefusal_of_passes (h : fails v = false) :
    firstRefusal fails (v :: checks) a = firstRefusal fails checks a := by
  rw [firstRefusal, List.find?_cons_of_neg (by simp [h]), firstRefusal]

theorem firstRefusal_cons {c : Prop} [Decidable c] {rest : Except V A} (hc : fails v = decide c)
    (hrest : rest = firstRefusal fails checks a) :
    (if c then .error v else rest) = firstRefusal fails (v :: checks) a := by
  split_ifs with h
  · rw [firstRefusal_of_fails (by simp [hc, h])]
  · rw [firstRefusal_of_passes (by simp [hc, h]), hrest]

theorem firstRefusal_eq_ok_iff :
    firstRefusal fails checks a = .ok b ↔ (∀ v ∈ checks, fails v = false) ∧ a = b := by
  rw [firstRefusal]
  cases hfind : checks.find? fails with
  | some v =>
    have hfails := List.find?_some hfind
    simp only [reduceCtorEq, false_iff, not_and]
    exact fun hall => absurd (hall v (List.mem_of_find?_eq_some hfind)) (by simp [hfails])
  | none => simpa using fun _ => List.find?_eq_none.mp hfind

/-- **A refusal is by the first check that fails.** -/
theorem firstRefusal_eq_error_iff :
    firstRefusal fails checks a = .error v ↔
    fails v = true ∧ ∃ before after, checks = before ++ v :: after ∧ ∀ u ∈ before,
    fails u = false := by
  rw [firstRefusal]
  cases hfind : checks.find? fails with
  | some u =>
    simp only [Except.error.injEq]
    constructor
    · rintro rfl
      simpa using List.find?_eq_some_iff_append.mp hfind
    · intro h
      have hv := List.find?_eq_some_iff_append.mpr (by simpa using h : fails v = true ∧ _)
      exact Option.some.inj (hfind.symm.trans hv)
  | none =>
    simp only [reduceCtorEq, false_iff, not_and]
    rintro hv ⟨before, after, rfl, _⟩
    exact List.find?_eq_none.mp hfind v (by simp) hv

theorem map_firstRefusal {B : Type} (f : A → B) :
    (firstRefusal fails checks a).map f = firstRefusal fails checks (f a) := by
  rw [firstRefusal, firstRefusal]
  split <;> rfl

end Foundation
