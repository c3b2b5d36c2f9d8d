import OriGateway.Foundation.GoMap

/-! # Folds that can fail

The two rules for a fold whose step may refuse: what every step that succeeds keeps, the result of a
fold that succeeds has; and a fold each of whose steps succeeds from what the last one left
succeeds. -/

namespace Foundation

variable {α β γ ε : Type}

theorem bind_eq_ok {x : Except ε α} {f : α → Except ε β} {b : β} :
    (x >>= f) = .ok b ↔ ∃ a, x = .ok a ∧ f a = .ok b := by
  cases x with
  | error e => simp [bind, Except.bind]
  | ok a => simp [bind, Except.bind]

/-- **What every successful step keeps, a successful fold keeps.** -/
theorem foldlM_ok_induction {f : β → α → Except ε β} {I : β → Prop} {l : List α}
    (hstep : ∀ b a b', I b → f b a = .ok b' → I b') {b b' : β} (hb : I b)
    (h : l.foldlM f b = .ok b') : I b' := by
  induction l generalizing b with
  | nil =>
    cases h
    exact hb
  | cons a l ih =>
    rw [List.foldlM_cons, bind_eq_ok] at h
    obtain ⟨b₁, hstep₁, hrest⟩ := h
    exact ih (hstep b a b₁ hb hstep₁) hrest

/-- **A fold succeeds when each step does**, with an invariant over the elements still to come. -/
theorem foldlM_ok {f : β → α → Except ε β} {I : List α → β → Prop}
    (hstep : ∀ a l b, I (a :: l) b → ∃ b', f b a = .ok b' ∧ I l b') {l : List α} {b : β}
    (hb : I l b) : ∃ b', l.foldlM f b = .ok b' ∧ I [] b' := by
  induction l generalizing b with
  | nil => exact ⟨b, rfl, hb⟩
  | cons a l ih =>
    obtain ⟨b₁, hstep₁, hb₁⟩ := hstep a l b hb
    obtain ⟨b', hrest, hb'⟩ := ih hb₁
    refine ⟨b', ?_, hb'⟩
    rw [List.foldlM_cons, bind_eq_ok]
    exact ⟨b₁, hstep₁, hrest⟩

/-- **A fold that collects a map**: over the names of a map's keys, in any order, with a step that
adds the value of the name's key. -/
theorem foldlM_collect {K N V : Type} [DecidableEq K] {name : K → N}
    (hname : Function.Injective name) {m : GoMap K V} (state : GoMap K V → β)
    {step : β → N → Except ε β}
    (hstep : ∀ seen k v, m.lookup k = some v →
      step (state seen) (name k) = .ok (state (seen.insert k v)))
    {names : List N} (hnames : ∀ n ∈ names, ∃ k v, n = name k ∧ m.lookup k = some v)
    (hfull : ∀ k v, m.lookup k = some v → name k ∈ names) :
    names.foldlM step (state ∅) = .ok (state m) := by
  -- what was seen is part of the map, and the rest of it is to come
  let I : List N → β → Prop := fun rest b => ∃ seen : GoMap K V, b = state seen ∧
    (∀ k v, seen.lookup k = some v → m.lookup k = some v) ∧
    (∀ k v, m.lookup k = some v → seen.lookup k = some v ∨ name k ∈ rest) ∧
    ∀ n ∈ rest, ∃ k v, n = name k ∧ m.lookup k = some v
  have hkeep : ∀ n rest b, I (n :: rest) b → ∃ b', step b n = .ok b' ∧ I rest b' := by
    rintro n rest _ ⟨seen, rfl, hsub, hfull, hnames⟩
    obtain ⟨k, v, rfl, hk⟩ := hnames n List.mem_cons_self
    refine ⟨_, hstep seen k v hk, _, rfl, forall_lookup_insert hsub hk, fun k' v' h' => ?_,
      fun n hn => hnames n (List.mem_cons_of_mem _ hn)⟩
    rw [lookup_insert_ite]
    split
    · next heq =>
      rw [heq, hk] at h'
      exact .inl h'
    · next hne =>
      refine (hfull k' v' h').imp_right fun hin => (List.mem_cons.mp hin).resolve_left ?_
      exact fun heq => hne (hname heq)
  have hstart : I names (state ∅) :=
    ⟨∅, rfl, by simp, fun k v hk => .inr (hfull k v hk), hnames⟩
  obtain ⟨b, hfold, seen, rfl, hsub, hrest, -⟩ := foldlM_ok hkeep hstart
  have hseen : seen = m := by
    refine Finmap.ext_lookup fun k => ?_
    cases hk : m.lookup k with
    | none =>
      cases hs : seen.lookup k with
      | none => rfl
      | some v =>
        rw [hsub k v hs] at hk
        cases hk
    | some v => exact (hrest k v hk).resolve_right (by simp)
  rw [hfold, hseen]

end Foundation
