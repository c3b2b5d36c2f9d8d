import Mathlib.Algebra.Order.Ring.Rat
import Mathlib.Tactic.Linarith
import Mathlib.Tactic.Ring

/-! # Token buckets

A bucket fills at a rate up to a burst, and draws take from it. A run that is metered by a bucket
draws in any window at most the burst and what the window brings (**`Meter.window_le`**). -/

namespace Foundation

structure BucketRate where
  perSecond : ℚ
  burst : ℚ
  perSecond_nonneg : 0 ≤ perSecond
  burst_nonneg : 0 ≤ burst

structure Bucket where
  tokens : ℚ
  last : ℚ

namespace Bucket

variable (r : BucketRate) {b : Bucket} {t t' : ℚ}

/-- What a bucket holds at an instant. -/
def level (b : Bucket) (now : ℚ) : ℚ :=
  if 0 < now - b.last then min r.burst (b.tokens + (now - b.last) * r.perSecond) else b.tokens

structure Within (b : Bucket) : Prop where
  nonneg : 0 ≤ b.tokens
  le : b.tokens ≤ r.burst

variable {r}

@[simp] theorem level_self (x now : ℚ) : level r ⟨x, now⟩ now = x := by
  simp [level]

theorem Within.level_le (h : Within r b) (now : ℚ) : b.level r now ≤ r.burst := by
  unfold level
  split
  · exact min_le_left _ _
  · exact h.le

theorem Within.level_nonneg (h : Within r b) (now : ℚ) : 0 ≤ b.level r now := by
  unfold level
  split
  · next helapsed =>
    exact le_min r.burst_nonneg (add_nonneg h.nonneg (mul_nonneg helapsed.le r.perSecond_nonneg))
  · exact h.nonneg

/-- **A bucket gains no faster than its rate.** -/
theorem level_le_add (hlast : b.last ≤ t) (ht : t ≤ t') :
    b.level r t' ≤ b.level r t + r.perSecond * (t' - t) := by
  have hgain : 0 ≤ r.perSecond * (t' - t) := mul_nonneg r.perSecond_nonneg (by linarith)
  unfold level
  split
  · split
    · rw [min_def, min_def]
      split_ifs <;> linarith
    · next hnow =>
      have hstart : t = b.last := le_antisymm (by linarith) hlast
      refine (min_le_right _ _).trans (le_of_eq ?_)
      rw [hstart]
      ring
  · next hlater =>
    have hend : t' = t := le_antisymm (by linarith) ht
    rw [if_neg (by rw [← hend]; exact hlater)]
    linarith

/-- Drawing at an instant what the bucket holds then. -/
theorem Within.draw (h : Within r b) {now x : ℚ} (hx : 0 ≤ x) (hlevel : x ≤ b.level r now) :
    Within r ⟨b.level r now - x, now⟩ :=
  ⟨sub_nonneg.mpr hlevel, (sub_le_self _ hx).trans (h.level_le now)⟩

end Bucket

/-! ## What a run draws -/

section Drawn

variable {σ ε : Type} (step : σ → ε → σ) (gain : σ → ε → ℚ)

def drawn : σ → List ε → ℚ
  | _, [] => 0
  | s, e :: es => gain s e + drawn (step s e) es

/-- **A meter of a run**: what is held at an instant, such that a step that meets a condition draws
no more than is held and the time since the last brings. -/
structure Meter (time : ε → ℚ) (r : BucketRate) (P : σ → ε → Prop) where
  Holds : σ → ℚ → Prop
  held : σ → ℚ → ℚ
  held_nonneg : ∀ {s t}, Holds s t → 0 ≤ held s t
  held_le : ∀ {s t}, Holds s t → held s t ≤ r.burst
  later : ∀ {s t t'}, Holds s t → t ≤ t' → Holds s t'
  keeps : ∀ {s t e}, Holds s t → t ≤ time e → Holds (step s e) (time e)
  draws : ∀ {s t e}, Holds s t → P s e → t ≤ time e →
    held (step s e) (time e) + gain s e ≤ held s t + r.perSecond * (time e - t)

variable {step gain} {time : ε → ℚ} {r : BucketRate} {P : σ → ε → Prop}
  (m : Meter step gain time r P)

theorem Meter.holds_run {pre : List ε} {e : ε} {s : σ} {start : ℚ} (hs : m.Holds s start)
    (hclock : List.IsChain (· ≤ ·) (start :: (pre ++ [e]).map time)) :
    ∃ t ≤ time e, m.Holds (pre.foldl step s) t := by
  induction pre generalizing s start with
  | nil => exact ⟨start, (List.isChain_cons_cons.mp hclock).1, hs⟩
  | cons e' pre ih =>
    rw [List.cons_append, List.map_cons, List.isChain_cons_cons] at hclock
    exact ih (m.keeps hs hclock.1) hclock.2

/-- **What a run draws** is at most what is held before it and what its time brings. -/
theorem Meter.drawn_le {es : List ε} {s : σ} {t T : ℚ} (hs : m.Holds s t)
    (hclock : List.IsChain (· ≤ ·) (t :: es.map time)) (hend : ∀ e ∈ es, time e ≤ T) (hT : t ≤ T)
    (hmeets : ∀ pre e post, es = pre ++ e :: post → P (pre.foldl step s) e) :
    drawn step gain s es ≤ m.held s t + r.perSecond * (T - t) := by
  induction es generalizing s t with
  | nil => exact add_nonneg (m.held_nonneg hs) (mul_nonneg r.perSecond_nonneg (by linarith))
  | cons e es ih =>
    rw [List.map_cons, List.isChain_cons_cons] at hclock
    have hdraw := m.draws hs (hmeets [] e es rfl) hclock.1
    have hrest := ih (m.keeps hs hclock.1) hclock.2 (fun e he => hend e (List.mem_cons_of_mem _ he))
      (hend e List.mem_cons_self) fun pre e' post heq =>
        hmeets (e :: pre) e' post (by rw [heq, List.cons_append])
    rw [drawn]
    linarith

/-- **What is drawn in any window** of a run is at most the burst and what the window brings. -/
theorem Meter.window_le {pre win : List ε} {s : σ} {start t w : ℚ} (hs : m.Holds s start)
    (hclock : List.IsChain (· ≤ ·) (start :: (pre ++ win).map time))
    (hwin : ∀ e ∈ win, t ≤ time e ∧ time e ≤ t + w) (hw : 0 ≤ w)
    (hmeets : ∀ pre' e post, win = pre' ++ e :: post → P ((pre ++ pre').foldl step s) e) :
    drawn step gain (pre.foldl step s) win ≤ r.burst + r.perSecond * w := by
  induction pre generalizing s start with
  | cons e pre ih =>
    rw [List.cons_append, List.map_cons, List.isChain_cons_cons] at hclock
    exact ih (m.keeps hs hclock.1) hclock.2 hmeets
  | nil =>
    cases win with
    | nil => exact add_nonneg r.burst_nonneg (mul_nonneg r.perSecond_nonneg hw)
    | cons e es =>
      rw [List.nil_append, List.map_cons, List.isChain_cons_cons] at hclock
      have hfirst := m.later hs hclock.1
      have hchain : List.IsChain (· ≤ ·) (time e :: (e :: es).map time) :=
        List.isChain_cons_cons.mpr ⟨le_refl _, hclock.2⟩
      have hdrawn := m.drawn_le hfirst hchain (fun e he => (hwin e he).2)
        (hwin e List.mem_cons_self).2 hmeets
      have hheld := m.held_le hfirst
      have hlate : r.perSecond * (t + w - time e) ≤ r.perSecond * w :=
        mul_le_mul_of_nonneg_left (by linarith [(hwin e List.mem_cons_self).1]) r.perSecond_nonneg
      exact hdrawn.trans (by linarith)

end Drawn

end Foundation
