import OriGateway.Foundation.Int64
import OriGateway.Foundation.Runs

/-! # The heartbeat publisher

The gateway says that it is alive. Every attempt to say so succeeds, fails or panics; after so many
failures the process ends, so that its supervisor starts it again, and a panic starts the loop
again.

The number of failures is a variable of the loop and dies with it, and a panic is not noted as a
failure. So failures on both sides of a panic are not counted together, and a publisher whose last
attempt panicked still reports that it is publishing (**`panic_hides_failures`**). Where no panic
comes at such a moment, the limit holds and the report is true (**`heartbeat_supervised`**). -/

namespace OriGateway

open Foundation

/-- The failures after which the process ends, when none are configured. -/
def defaultFailureLimit : Int := 5

/-- What a publisher is made with. -/
structure HeartbeatOptions where
  interval : Int
  failureLimit : Int

/-- How an attempt ends, other than by the stop of the run. -/
inductive HeartbeatOutcome where
  /-- The heartbeat is published, at a reading of the monotonic clock. -/
  | succeeded (now : Int)
  /-- The heartbeat is not built, signed or published. -/
  | failed
  | panicked
  deriving DecidableEq

/-- A publisher, with the failures its loop has counted and whether it has called for the end of the
process. -/
structure HeartbeatPublisher where
  interval : Int
  failureLimit : Int
  failures : Int
  everPublished : Bool
  failing : Bool
  lastPublished : Int
  fatal : Bool
  deriving DecidableEq

namespace HeartbeatPublisher

/-- A publisher before its first attempt; an interval that is not positive is refused. -/
def new (opts : HeartbeatOptions) : Option HeartbeatPublisher :=
  if opts.interval ≤ 0 then none
  else some
    { interval := opts.interval
      failureLimit := if opts.failureLimit ≤ 0 then defaultFailureLimit else opts.failureLimit
      failures := 0
      everPublished := false
      failing := false
      lastPublished := 0
      fatal := false }

/-- Count a failure, and call for the end of the process at the limit. -/
def recordFailure (p : HeartbeatPublisher) : HeartbeatPublisher :=
  { p with
    failures := p.failures + 1
    failing := true
    fatal := decide (p.failureLimit ≤ p.failures + 1) }

/-- **One attempt**; none are made once the loop has returned. -/
def publishOnce (p : HeartbeatPublisher) : HeartbeatOutcome → Option HeartbeatPublisher
  | .succeeded now =>
    if p.fatal then none
    else some { p with
      failures := 0, everPublished := true, failing := false, lastPublished := now }
  | .failed => if p.fatal then none else some p.recordFailure
  -- the loop is left with its count, and another is entered
  | .panicked => if p.fatal then none else some { p with failures := 0 }

def publishing (p : HeartbeatPublisher) (now : Int) : Bool :=
  p.everPublished && !p.failing && decide (now - p.lastPublished ≤ int64 (3 * p.interval))

variable {p p' : HeartbeatPublisher} {o : HeartbeatOutcome} {outcomes : List HeartbeatOutcome}

/-- **What an attempt can do.** -/
theorem publishOnce_cases (h : publishOnce p o = some p') : p.fatal = false ∧
    ((∃ now, o = .succeeded now ∧
        p' = { p with
          failures := 0, everPublished := true, failing := false, lastPublished := now }) ∨
      (o = .failed ∧ p' = p.recordFailure) ∨ (o = .panicked ∧ p' = { p with failures := 0 })) := by
  cases hfatal : p.fatal <;> cases o <;> simp_all [publishOnce]

end HeartbeatPublisher

/-- The errors since the last success, of so many before the first of these attempts. -/
def errorsSince : Int → List HeartbeatOutcome → Int
  | n, [] => n
  | _, .succeeded _ :: outcomes => errorsSince 0 outcomes
  | n, .failed :: outcomes => errorsSince (n + 1) outcomes
  | n, .panicked :: outcomes => errorsSince n outcomes

def PanicsUncounted (p : HeartbeatPublisher) (o : HeartbeatOutcome) : Prop :=
  o = .panicked → p.failures = 0

/-- A panic that comes when the publisher does not report that it is publishing. -/
def PanicsUnreported (p : HeartbeatPublisher) (o : HeartbeatOutcome) : Prop :=
  o = .panicked → p.everPublished = true → p.failing = true

instance (p : HeartbeatPublisher) (o : HeartbeatOutcome) : Decidable (PanicsUncounted p o) :=
  inferInstanceAs (Decidable (_ → _))

instance (p : HeartbeatPublisher) (o : HeartbeatOutcome) : Decidable (PanicsUnreported p o) :=
  inferInstanceAs (Decidable (_ → _))

namespace HeartbeatPublisher

variable {p p' : HeartbeatPublisher} {o : HeartbeatOutcome} {outcomes : List HeartbeatOutcome}

/-- The count of a publisher is that of the errors since the last success, and at the limit it has
called for the end of the process. -/
def Counts (p : HeartbeatPublisher) (errors : Int) : Prop :=
  p.failures = errors ∧ (p.failureLimit ≤ errors → p.fatal = true)

theorem Counts.publishOnce {n : Int} (h : p.Counts n) (hlimit : 0 < p.failureLimit)
    (hpanic : PanicsUncounted p o) (hstep : p.publishOnce o = some p') :
    p'.Counts (errorsSince n [o]) ∧ p'.failureLimit = p.failureLimit := by
  obtain ⟨hcount, -⟩ := h
  obtain ⟨hfatal, ⟨now, rfl, rfl⟩ | ⟨rfl, rfl⟩ | ⟨rfl, rfl⟩⟩ := publishOnce_cases hstep
  · exact ⟨⟨rfl, fun hle => absurd hle (Int.not_le.mpr hlimit)⟩, rfl⟩
  · refine ⟨⟨?_, fun hle => ?_⟩, rfl⟩
    · simp only [recordFailure, errorsSince, hcount]
    · simp only [recordFailure, decide_eq_true_eq, hcount]
      exact hle
  · -- nothing was counted, so nothing is forgotten
    have hzero : p.failures = 0 := hpanic rfl
    refine ⟨⟨?_, fun hle => ?_⟩, rfl⟩
    · simp only [errorsSince, ← hcount, hzero]
    · simp only [errorsSince, ← hcount, hzero] at hle
      exact absurd hle (Int.not_le.mpr hlimit)

theorem errorsSince_cons (n : Int) (o : HeartbeatOutcome) (outcomes : List HeartbeatOutcome) :
    errorsSince n (o :: outcomes) = errorsSince (errorsSince n [o]) outcomes := by
  cases o <;> rfl

/-- **A run keeps the count.** -/
theorem Counts.run {n : Int} (h : p.Counts n) (hlimit : 0 < p.failureLimit)
    (hpanics : StepsMeet HeartbeatPublisher.publishOnce PanicsUncounted p outcomes)
    (hrun : runAll HeartbeatPublisher.publishOnce p outcomes = some p') :
    p'.Counts (errorsSince n outcomes) ∧ p'.failureLimit = p.failureLimit := by
  induction outcomes generalizing p n with
  | nil =>
    cases hrun
    exact ⟨h, rfl⟩
  | cons o outcomes ih =>
    obtain ⟨p₁, hone, hrest⟩ := runAll_cons.mp hrun
    obtain ⟨hcounts, hsame⟩ := h.publishOnce hlimit hpanics.1 hone
    rw [errorsSince_cons]
    obtain ⟨hcounts', hsame'⟩ := ih hcounts (hsame ▸ hlimit) (hpanics.2 p₁ hone) hrest
    exact ⟨hcounts', hsame'.trans hsame⟩

theorem new_limit {opts : HeartbeatOptions} (h : new opts = some p) :
    0 < p.failureLimit ∧ p.failures = 0 ∧ p.everPublished = false := by
  unfold new at h
  split at h
  · cases h
  · cases h
    refine ⟨?_, rfl, rfl⟩
    change 0 < (if opts.failureLimit ≤ 0 then defaultFailureLimit else opts.failureLimit)
    split
    · decide
    · next hpos => exact Int.not_le.mp hpos

/-- What is reported after an attempt: it succeeded, or what was reported before it is. -/
theorem succeeded_of_publishing {now : Int} (hpanic : PanicsUnreported p o)
    (hstep : p.publishOnce o = some p') (hpublishing : p'.publishing now = true) :
    ∃ time, o = .succeeded time := by
  simp only [publishing, Bool.and_eq_true, Bool.not_eq_true'] at hpublishing
  obtain ⟨⟨hever, hfailing⟩, -⟩ := hpublishing
  obtain ⟨-, ⟨time, rfl, -⟩ | ⟨rfl, rfl⟩ | ⟨rfl, rfl⟩⟩ := publishOnce_cases hstep
  · exact ⟨time, rfl⟩
  · cases hfailing
  · rw [hpanic rfl hever] at hfailing
    cases hfailing

end HeartbeatPublisher

/-- **Failed heartbeats end the process, and what is reported is true.** In every run of a publisher
whose panics come only when no failure is counted, once so many attempts as the limit have ended in
an error since the last success, the publisher has called for the end of the process. In every run
whose panics come only when it does not report that it is publishing, it reports so only if its last
attempt succeeded. -/
theorem heartbeat_supervised {opts : HeartbeatOptions} {start p : HeartbeatPublisher}
    (hnew : HeartbeatPublisher.new opts = some start) {outcomes : List HeartbeatOutcome}
    (hrun : runAll HeartbeatPublisher.publishOnce start outcomes = some p) :
    (StepsMeet HeartbeatPublisher.publishOnce PanicsUncounted start outcomes →
      start.failureLimit ≤ errorsSince 0 outcomes → p.fatal = true) ∧
    (StepsMeet HeartbeatPublisher.publishOnce PanicsUnreported start outcomes →
      ∀ now, p.publishing now = true → ∃ before time, outcomes = before ++ [.succeeded time]) := by
  obtain ⟨hlimit, hzero, hnever⟩ := HeartbeatPublisher.new_limit hnew
  refine ⟨fun hpanics hreached => ?_, fun hpanics now hpublishing => ?_⟩
  · have hstart : start.Counts 0 := ⟨hzero, fun hle => absurd hle (Int.not_le.mpr hlimit)⟩
    obtain ⟨⟨-, hfatal⟩, hsame⟩ := hstart.run hlimit hpanics hrun
    exact hfatal (hsame ▸ hreached)
  · rcases List.eq_nil_or_concat outcomes with rfl | ⟨before, o, rfl⟩
    · cases hrun
      simp [HeartbeatPublisher.publishing, hnever] at hpublishing
    · rw [List.concat_eq_append] at hrun hpanics ⊢
      obtain ⟨p₁, hbefore, hlast⟩ := runAll_append.mp hrun
      obtain ⟨p₂, hone, hdone⟩ := runAll_cons.mp hlast
      cases hdone
      obtain ⟨time, rfl⟩ := HeartbeatPublisher.succeeded_of_publishing
        (hpanics.of_append hbefore).1 hone hpublishing
      exact ⟨before, time, rfl⟩

def twoFailures : HeartbeatOptions := ⟨10, 2⟩

/-- **A panic hides failures**: two attempts fail with a panic between them, and the process is not
ended; and an attempt that panics after one that succeeded leaves the publisher reporting that it is
publishing. -/
theorem panic_hides_failures :
    errorsSince 0 [.failed, .panicked, .failed] = twoFailures.failureLimit ∧
    (HeartbeatPublisher.new twoFailures).bind
      (runAll HeartbeatPublisher.publishOnce · [.failed, .panicked, .failed]) =
        some ⟨10, 2, 1, false, true, 0, false⟩ ∧
    ((HeartbeatPublisher.new twoFailures).bind
      (runAll HeartbeatPublisher.publishOnce · [.succeeded 1, .panicked])).any (·.publishing 2)
        = true := by
  decide

/-- A panic before anything else, a success and two failures. -/
theorem heartbeat_supervised_twice :
    HeartbeatPublisher.new twoFailures = some ⟨10, 2, 0, false, false, 0, false⟩ ∧
      runAll HeartbeatPublisher.publishOnce ⟨10, 2, 0, false, false, 0, false⟩
        [.panicked, .succeeded 1, .failed, .failed] = some ⟨10, 2, 2, true, true, 1, true⟩ ∧
      (⟨10, 2, 2, true, true, 1, true⟩ : HeartbeatPublisher).fatal = true := by
  refine ⟨by decide, by decide, ?_⟩
  exact (@heartbeat_supervised twoFailures ⟨10, 2, 0, false, false, 0, false⟩ _ (by decide)
    [.panicked, .succeeded 1, .failed, .failed] (by decide)).1 (by decide) (by decide)

end OriGateway
