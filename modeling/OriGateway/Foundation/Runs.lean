import Mathlib.Tactic.Common

/-! # Runs of a machine

A machine says what an event does in a state, when the event is possible there. A run is a list of
events that are all possible, each in the state the ones before it lead to. What one event keeps, a
run keeps (**`runAll_induction`**). -/

namespace Foundation

variable {σ ε : Type}

/-- The state a list of events leads to, when each of them is possible. -/
def runAll (step : σ → ε → Option σ) : σ → List ε → Option σ
  | s, [] => some s
  | s, e :: es =>
    match step s e with
    | some s' => runAll step s' es
    | none => none

theorem runAll_cons {step : σ → ε → Option σ} {s s'' : σ} {e : ε} {es : List ε} :
    runAll step s (e :: es) = some s'' ↔ ∃ s', step s e = some s' ∧
    runAll step s' es = some s'' := by
  rw [runAll]
  cases step s e <;> simp

theorem runAll_append {step : σ → ε → Option σ} {s s'' : σ} {es es' : List ε} :
    runAll step s (es ++ es') = some s'' ↔
      ∃ s', runAll step s es = some s' ∧ runAll step s' es' = some s'' := by
  induction es generalizing s with
  | nil => simp [runAll]
  | cons e es ih =>
    rw [List.cons_append, runAll_cons]
    constructor
    · rintro ⟨s₁, hstep, hrest⟩
      obtain ⟨s', hes, hes'⟩ := ih.mp hrest
      exact ⟨s', runAll_cons.mpr ⟨s₁, hstep, hes⟩, hes'⟩
    · rintro ⟨s', hes, hes'⟩
      obtain ⟨s₁, hstep, hes⟩ := runAll_cons.mp hes
      exact ⟨s₁, hstep, ih.mpr ⟨s', hes, hes'⟩⟩

/-- Every event of a run meets a condition, in the state in which it happens. -/
def StepsMeet (step : σ → ε → Option σ) (P : σ → ε → Prop) : σ → List ε → Prop
  | _, [] => True
  | s, e :: es => P s e ∧ ∀ s', step s e = some s' → StepsMeet step P s' es

instance StepsMeet.instDecidable {step : σ → ε → Option σ} {P : σ → ε → Prop}
    [∀ s e, Decidable (P s e)] :
    (s : σ) → (es : List ε) → Decidable (StepsMeet step P s es)
  | _, [] => .isTrue trivial
  | s, e :: es =>
    match h : step s e with
    | none => decidable_of_iff (P s e) ⟨fun hP => ⟨hP, by rw [h]; nofun⟩, And.left⟩
    | some s' =>
      haveI : Decidable (StepsMeet step P s' es) := instDecidable s' es
      decidable_of_iff (P s e ∧ StepsMeet step P s' es)
        (and_congr_right fun _ =>
          ⟨fun hes s₁ h₁ => Option.some.inj (h.symm.trans h₁) ▸ hes, fun hes => hes s' h⟩)

/-- **Induction over a run that uses something up**: what the first state has with the events to
come allowed for, and every event that meets the condition keeps with one less, the last state
has. -/
theorem runAll_countdown {step : σ → ε → Option σ} {I : Nat → σ → Prop} {P : σ → ε → Prop}
    (hstep : ∀ n s e s', P s e → I (n + 1) s → step s e = some s' → I n s') {es : List ε} {n : Nat}
    {s s' : σ} (hes : StepsMeet step P s es) (hs : I (n + es.length) s)
    (hrun : runAll step s es = some s') : I n s' := by
  induction es generalizing s with
  | nil =>
    cases hrun
    exact hs
  | cons e es ih =>
    obtain ⟨s₁, hone, hrest⟩ := runAll_cons.mp hrun
    exact ih (hes.2 s₁ hone) (hstep (n + es.length) s e s₁ hes.1 hs hone) hrest

/-- **Induction over a run**: what the first state has and every event that meets the condition
keeps, the last state has. -/
theorem runAll_induction {step : σ → ε → Option σ} {I : σ → Prop} {P : σ → ε → Prop}
    (hstep : ∀ s e s', P s e → I s → step s e = some s' → I s') {es : List ε} {s s' : σ}
    (hes : StepsMeet step P s es) (hs : I s) (hrun : runAll step s es = some s') : I s' :=
  runAll_countdown (I := fun _ => I) (n := 0) (fun _ => hstep) hes hs hrun

theorem stepsMeet_true {step : σ → ε → Option σ} (s : σ) (es : List ε) :
    StepsMeet step (fun _ _ => True) s es := by
  induction es generalizing s with
  | nil => trivial
  | cons e es ih => exact ⟨trivial, fun s' _ => ih s'⟩

theorem stepsMeet_of_mem {step : σ → ε → Option σ} {R : ε → Prop} {es : List ε} (s : σ)
    (hes : ∀ e ∈ es, R e) : StepsMeet step (fun _ e => R e) s es := by
  induction es generalizing s with
  | nil => trivial
  | cons e es ih =>
    refine ⟨hes e List.mem_cons_self, ?_⟩
    intro s' _
    exact ih s' fun e' he' => hes e' (List.mem_cons_of_mem _ he')

theorem StepsMeet.mono {step : σ → ε → Option σ} {P Q : σ → ε → Prop} (hPQ : ∀ s e, P s e → Q s e)
    {es : List ε} {s : σ} (hes : StepsMeet step P s es) : StepsMeet step Q s es := by
  induction es generalizing s with
  | nil => trivial
  | cons e es ih => exact ⟨hPQ s e hes.1, fun s' hone => ih (hes.2 s' hone)⟩

theorem StepsMeet.of_append {step : σ → ε → Option σ} {P : σ → ε → Prop} {es es' : List ε}
    {s s' : σ} (hes : StepsMeet step P s (es ++ es')) (hrun : runAll step s es = some s') :
    StepsMeet step P s' es' := by
  induction es generalizing s with
  | nil =>
    cases hrun
    exact hes
  | cons e es ih =>
    obtain ⟨s₁, hone, hrest⟩ := runAll_cons.mp hrun
    exact ih (hes.2 s₁ hone) hrest

theorem runAll_invariant {step : σ → ε → Option σ} {I : σ → Prop}
    (hstep : ∀ s e s', I s → step s e = some s' → I s') {es : List ε} {s s' : σ} (hs : I s)
    (hrun : runAll step s es = some s') : I s' :=
  runAll_induction (fun s e s' _ => hstep s e s') (stepsMeet_true s es) hs hrun

/-- **Induction over a run and its events**: what holds before the first event and stays as each one
is added, holds of all the events and the last state. -/
theorem runAll_history {step : σ → ε → Option σ} {I : List ε → σ → Prop} {s : σ} (hs : I [] s)
    (hstep : ∀ es s e s', I es s → step s e = some s' → I (es ++ [e]) s') {es : List ε} {s' : σ}
    (hrun : runAll step s es = some s') : I es s' := by
  -- the events made so far are carried along
  have hfrom : ∀ es' before s, I before s → runAll step s es' = some s' → I (before ++ es') s' := by
    intro es'
    induction es' with
    | nil =>
      intro before s hs hrun
      cases hrun
      rw [List.append_nil]
      exact hs
    | cons e es' ih =>
      intro before s hs hrun
      obtain ⟨s₁, hone, hrest⟩ := runAll_cons.mp hrun
      rw [List.append_cons]
      exact ih (before ++ [e]) s₁ (hstep before s e s₁ hs hone) hrest
  exact hfrom es [] s hs hrun

theorem stepsMeet_iff {step : σ → ε → Option σ} {I : σ → Prop} {R : ε → Prop} {P Q : σ → ε → Prop}
    (hstep : ∀ s e s', I s → step s e = some s' → I s')
    (hiff : ∀ s e, I s → R e → (P s e ↔ Q s e)) {es : List ε} {s : σ} (hs : I s)
    (hes : ∀ e ∈ es, R e) : StepsMeet step P s es ↔ StepsMeet step Q s es := by
  induction es generalizing s with
  | nil => exact Iff.rfl
  | cons e es ih =>
    have hrest : ∀ s', step s e = some s' → (StepsMeet step P s' es ↔ StepsMeet step Q s' es) :=
      fun s' hone => ih (hstep s e s' hs hone) fun e' he' => hes e' (List.mem_cons_of_mem _ he')
    rw [StepsMeet, StepsMeet, hiff s e hs (hes e List.mem_cons_self)]
    refine and_congr_right fun _ => ?_
    exact forall_congr' fun s' => imp_congr_right (hrest s')

end Foundation
