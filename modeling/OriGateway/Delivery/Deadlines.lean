import OriGateway.Delivery.Acceptance

/-! # Back-off deadlines on two clocks

A back-off is kept on the wall clock, in whole milliseconds, and on the monotonic clock. An observer
(**`Timing`**) keeps the readings of the scheduling, and **`InForce`** is what is true of a back-off
until the next attempt, however the wall clock steps: the monotonic deadline is never moved, and
that of the wall clock only when the wall clock stepped back. -/

namespace OriGateway

open Foundation DurableQueue

variable {t : Timing} {cfg : WorkerConfig} {l : DeliveryLane} {key : LaneKey} {e : WorkerEvent}
  {w : Worker}

/-! ## Arithmetic of deadlines -/

theorem le_ceilMilli (t : Int) : t ≤ ceilMilli t := by
  unfold ceilMilli unixMilli millisecond
  dsimp only
  split <;> omega

theorem ceilMilli_lt (t : Int) : ceilMilli t < t + millisecond := by
  unfold ceilMilli unixMilli millisecond
  dsimp only
  split <;> omega

/-- Between an instant and its whole millisecond there is no other whole millisecond. -/
theorem ceilMilli_between {t u : Int} (h : t ≤ u) (h' : u ≤ ceilMilli t) :
    ceilMilli u = ceilMilli t := by
  unfold ceilMilli unixMilli millisecond at *
  dsimp only at *
  split at h' <;> split <;> omega

theorem int64_int64_sub (x y : Int) : int64 (int64 x - y) = int64 (x - y) := by
  unfold int64
  omega

namespace DeliveryLane

variable {cfg : WorkerConfig} {env : LaneEnv} {l l' : DeliveryLane} {input : LaneInput}

/-- The deadline after a look at the back-off: the bound, when more than that is left. -/
def clampedDeadline (cfg : WorkerConfig) (l : DeliveryLane) (wall : Int) : Int :=
  if timeSub l.notBefore wall > cfg.waitBound l.retryAfter then
    ceilMilli (wall + cfg.waitBound l.retryAfter)
  else l.notBefore

/-- **A look at the back-off**: what is left on the later of the two clocks, and the deadline. -/
theorem untilDue_spec (cfg : WorkerConfig) (l : DeliveryLane) (wall mono : Int) :
    ∃ clamp, l.untilDue cfg wall mono =
        (max (timeSub (l.clampedDeadline cfg wall) wall) (int64 (l.monoDue - mono)),
          { l with notBefore := l.clampedDeadline cfg wall }, clamp) ∧
      ∀ record ∈ clamp, record.notBeforeMS = unixMilli (l.clampedDeadline cfg wall) := by
  unfold untilDue clampedDeadline
  dsimp only
  split
  · refine ⟨_, rfl, ?_⟩
    intro record hrecord
    split at hrecord
    · cases hrecord
    · cases hrecord
      rfl
  · exact ⟨none, rfl, nofun⟩

theorem timeSub_clampedDeadline (cfg : WorkerConfig) (l : DeliveryLane) (wall : Int) :
    timeSub (l.clampedDeadline cfg wall) wall ≤ cfg.waitBound l.retryAfter + (millisecond - 1) := by
  have hpos := cfg.waitBound_pos l.retryAfter
  unfold clampedDeadline
  split
  · have hlt := ceilMilli_lt (wall + cfg.waitBound l.retryAfter)
    unfold timeSub
    unfold millisecond at hlt ⊢
    omega
  · next h =>
    unfold millisecond
    omega

theorem le_clampedDeadline {wall : Int} (h : l.clampedDeadline cfg wall ≠ l.notBefore) :
    wall + cfg.waitBound l.retryAfter ≤ l.clampedDeadline cfg wall := by
  unfold clampedDeadline at h ⊢
  split
  · exact le_ceilMilli _
  · next hle =>
    rw [if_neg hle] at h
    exact absurd rfl h

/-- **A deadline does not move unless the wall clock is before its scheduling**: when the delay is
the whole bound, the rounding alone can leave more than the bound, and the clamp then comes to the
same millisecond. -/
theorem clampedDeadline_eq {wall delay now : Int}
    (hdeadline : l.notBefore = ceilMilli (wall + delay))
    (hdelay : delay ≤ cfg.waitBound l.retryAfter) (hnow : wall ≤ now) :
    l.clampedDeadline cfg now = l.notBefore := by
  unfold clampedDeadline
  split
  · next hleft =>
    have hpos := cfg.waitBound_pos l.retryAfter
    have hlater : now + cfg.waitBound l.retryAfter ≤ ceilMilli (wall + delay) := by
      rw [← hdeadline]
      unfold timeSub at hleft
      omega
    rw [hdeadline]
    exact ceilMilli_between (by omega) hlater
  · rfl

end DeliveryLane

/-! ## Where a lane stands -/

/-- Whether an attempt is due: the back-off was looked at, and nothing was left of it. -/
def LanePhase.due : LanePhase → Bool
  | clamping _ due => due
  | draining | peeking | adopting _ | releasing _ | attempting _ => true
  | _ => false

/-- Whether the lane is between an attempt and the end of its back-off's scheduling. -/
def LanePhase.afterAttempt : LanePhase → Bool
  | delivering _ | storing .. | removing .. | retired _ | opening | handing | holding .. |
      persisting _ | failing _ |
      stalling _ | clearing | counting _ | scheduling .. => true
  | _ => false

def LanePhase.written : LanePhase → Option BackoffRecord
  | clamping record _ => some record
  | saving record => some record
  | _ => none

def LanePhase.floor : LanePhase → Int
  | failing failure => failure.floor
  | stalling failure => failure.floor
  | counting failure => failure.floor
  | scheduling _ _ floor => floor
  | _ => 0

/-- What a lane reads of the clocks and the channel: the monotonic clock does not go back, and
durations are of 64 bits. -/
def LaneInput.Regular (lastMono : Int) : LaneInput → Prop
  | clock _ mono => lastMono ≤ mono ∧ mono ≤ maxInt64
  | outcome (.result r) => r.retryAfter ≤ maxInt64
  | _ => True

instance (last : Int) : (input : LaneInput) → Decidable (input.Regular last)
  | .clock _ _ => inferInstanceAs (Decidable (_ ∧ _))
  | .outcome (.result _) => inferInstanceAs (Decidable (_ ≤ _))
  | .outcome .unrecognised | .outcome .unavailable | .step | .wake | .timer | .stop | .now _ |
      .stored _ | .returned _ =>
    .isTrue trivial

namespace DeliveryLane

variable {cfg : WorkerConfig} {env : LaneEnv} {l l' : DeliveryLane} {input : LaneInput}

theorem adoptDurableHold_cases (l : DeliveryLane) (env : LaneEnv) (queued : QueuedArtifact) :
    l.adoptDurableHold env queued = l ∨
    ∃ record, l.adoptDurableHold env queued = l.hold record true := by
  unfold adoptDurableHold
  split
  · exact .inl rfl
  · split
    · exact .inl rfl
    · exact .inr ⟨_, rfl⟩

/-- **What a step does to the deadlines**: they are looked at, set by a new back-off, dropped by an
attempt or after one, or left alone. -/
inductive DeadlineChange (cfg : WorkerConfig) (l : DeliveryLane) : LaneInput → DeliveryLane →
    Prop where
  | looked (wall mono : Int) (attempts : Bool) (hphase : l.phase.afterAttempt = false) :
      DeadlineChange cfg l (.clock wall mono) (l.awaitDue cfg wall mono attempts)
  | scheduled (attempts : Int) (head : Option QueuedArtifact) (floor wall mono : Int)
      (hphase : l.phase = .scheduling attempts head floor) :
      DeadlineChange cfg l (.clock wall mono) (l.scheduled cfg attempts head floor wall mono)
  | began (queued : QueuedArtifact) (hphase : l.phase = .attempting queued) :
      DeadlineChange cfg l .step (l.began queued)
  | cleared (hphase : l.phase = .clearing) : DeadlineChange cfg l .step l.cleared
  | kept (input : LaneInput) (l' : DeliveryLane) (hclock : ∀ wall mono, input ≠ .clock wall mono)
      (hnotBefore : l'.notBefore = l.notBefore) (hmonoDue : l'.monoDue = l.monoDue)
      (hretryAfter : l'.retryAfter = l.retryAfter) (hbegan : ∀ queued, l.phase ≠ .attempting queued)
      (hdue : l'.phase.due = true → l.phase.due = true)
      (hafter : l'.phase.afterAttempt = true → l.phase.afterAttempt = true)
      (hwritten : l'.phase.written = none) : DeadlineChange cfg l input l'

theorem deadlineChange (h : l.step cfg env input = some l') : DeadlineChange cfg l input l' := by
  cases moves h with
  | looked attempts hphase =>
    refine .looked _ _ attempts ?_
    rcases hphase with hphase | hphase | hphase | hphase <;> rw [hphase] <;> rfl
  | scheduled attempts head floor wall mono hphase =>
    exact .scheduled attempts head floor wall mono hphase
  | began queued hphase => exact .began queued hphase
  | cleared hphase => exact .cleared hphase
  | adopted head hphase =>
    have hkept : (l.adopted env head).notBefore = l.notBefore ∧
      (l.adopted env head).monoDue = l.monoDue ∧
        (l.adopted env head).retryAfter = l.retryAfter := by
      cases head with
      | none => exact ⟨rfl, rfl, rfl⟩
      | some a =>
        show (l.adoptDurableHold env a).notBefore = _ ∧ (l.adoptDurableHold env a).monoDue = _ ∧
          (l.adoptDurableHold env a).retryAfter = _
        rcases l.adoptDurableHold_cases env a with heq | ⟨_, heq⟩ <;> rw [heq] <;>
          exact ⟨rfl, rfl, rfl⟩
    exact .kept _ _ nofun hkept.1 hkept.2.1 hkept.2.2 (by rw [hphase]; nofun)
      (fun _ => by rw [hphase]; rfl) nofun rfl
  | released head hphase =>
    have hdue : l.phase.due = true := by rw [hphase]; rfl
    unfold released
    split
    · split
      · exact .kept _ _ nofun rfl rfl rfl (by rw [hphase]; nofun) nofun nofun rfl
      · exact .kept _ _ nofun rfl rfl rfl (by rw [hphase]; nofun) (fun _ => hdue) nofun rfl
    · exact .kept _ _ nofun rfl rfl rfl (by rw [hphase]; nofun) nofun nofun rfl
  | answered queued o hphase =>
    have hafter : l.phase.afterAttempt = true := by rw [hphase]; rfl
    rcases answered_cases cfg env l queued o with ⟨_, _, heq, -⟩ | ⟨_, _, heq, -⟩ |
      ⟨_, _, _, heq, -⟩
    all_goals
      rw [heq]
      exact .kept _ _ nofun rfl rfl rfl (by rw [hphase]; nofun) nofun (fun _ => hafter) rfl
  | clamped record due result hphase =>
    have hdue : l.phase.due = due := by rw [hphase]; rfl
    cases due with
    | true => exact .kept _ _ nofun rfl rfl rfl (by rw [hphase]; nofun) (fun _ => hdue) nofun rfl
    | false => exact .kept _ _ nofun rfl rfl rfl (by rw [hphase]; nofun) nofun nofun rfl
  | woke hphase | fired hphase | ended hphase | erased _ _ hphase | saved _ _ hphase
  | succeeded hphase | handed hphase =>
    exact .kept _ _ nofun rfl rfl rfl (by rw [hphase]; nofun) nofun nofun rfl
  | drained hphase | peeked hphase =>
    exact .kept _ _ nofun rfl rfl rfl (by rw [hphase]; nofun) (fun _ => by rw [hphase]; rfl)
      nofun rfl
  | staged _ _ _ hphase | stored _ _ _ _ _ hphase | unstored _ _ _ _ _ hphase | opened hphase
  | held _ _ _ _ hphase | persisted _ _ hphase | counted _ hphase =>
    exact .kept _ _ nofun rfl rfl rfl (by rw [hphase]; nofun) nofun (fun _ => by rw [hphase]; rfl)
      rfl
  | reminded hphase =>
    refine .kept _ _ nofun rfl rfl rfl (by rw [hphase]; nofun) ?_ ?_ ?_ <;> dsimp only <;> split
    all_goals first | rfl | (intro hx; cases hx)
  | removed _ _ _ _ hphase | retired _ hphase | failed _ _ hphase | stalled _ hphase =>
    refine .kept _ _ nofun rfl rfl rfl (by rw [hphase]; nofun) ?_ (fun _ => by rw [hphase]; rfl)
      ?_ <;> dsimp only <;>
      split
    all_goals first | rfl | (intro hx; cases hx)

theorem floor_step (h : l.step cfg env input = some l') (hl : l.phase.floor ≤ maxInt64) {last : Int}
    (hinput : input.Regular last) : l'.phase.floor ≤ maxInt64 := by
  have hzero : (0 : Int) ≤ maxInt64 := by decide
  cases moves h with
  | answered queued o hphase =>
    unfold answered spoiled
    cases o with
    | unrecognised | unavailable => exact hzero
    | result r =>
      dsimp only
      split
      · dsimp only
        split
        · split <;> exact hzero
        · exact hinput
      · split
        · exact hzero
        · split
          · exact hzero
          · split <;> exact hzero
  | failed failure t hphase =>
    rw [hphase] at hl
    dsimp only
    split
    · exact hzero
    · exact hl
  | stalled failure hphase =>
    rw [hphase] at hl
    dsimp only
    split
    · exact hzero
    · exact hl
  | counted failure hphase =>
    rw [hphase] at hl
    exact hl
  | looked attempts =>
    obtain ⟨_, phase, heq, hcases⟩ := awaitDue_eq cfg l _ _ attempts
    rw [heq]
    rcases hcases with rfl | ⟨_, rfl⟩ | ⟨-, rfl | ⟨_, rfl⟩⟩ <;> exact hzero
  | released head =>
    unfold released
    split
    · split <;> exact hzero
    · exact hzero
  | cleared =>
    unfold cleared
    dsimp only
    split <;> exact hzero
  | scheduled =>
    unfold scheduled
    dsimp only
    split <;> exact hzero
  | reminded | clamped | removed | retired =>
    dsimp only
    split <;> exact hzero
  | _ => exact hzero

/-- **Where a look at the back-off leads**: an attempt is due when nothing is left on either clock,
and the deadline that is written is the one in force. -/
theorem awaitDue_spec (cfg : WorkerConfig) (l : DeliveryLane) (wall mono : Int) (attempts : Bool) :
    ∃ phase, l.awaitDue cfg wall mono attempts
      = { l with notBefore := l.clampedDeadline cfg wall, phase := phase } ∧
      phase.afterAttempt = false ∧ (phase.due = true → int64 (l.monoDue - mono) ≤ 0) ∧
      ∀ record ∈ phase.written, record.notBeforeMS = unixMilli (l.clampedDeadline cfg wall) := by
  obtain ⟨clamp, heq, hclamp⟩ := untilDue_spec cfg l wall mono
  rw [awaitDue, heq]
  dsimp only
  generalize hwait : max (timeSub (l.clampedDeadline cfg wall) wall) (int64 (l.monoDue - mono))
    = wait
  have hleft : int64 (l.monoDue - mono) ≤ wait := hwait ▸ le_max_right _ _
  have hdue : (attempts && decide (wait ≤ 0)) = true → int64 (l.monoDue - mono) ≤ 0 := by
    intro h
    simp only [Bool.and_eq_true, decide_eq_true_eq] at h
    exact hleft.trans h.2
  cases clamp with
  | some record => exact ⟨_, rfl, rfl, hdue, hclamp⟩
  | none =>
    refine ⟨_, rfl, ?_⟩
    split
    · next h => exact ⟨rfl, fun _ => hdue h, fun _ hrecord => by cases hrecord⟩
    · exact ⟨rfl, fun h => (by cases h), fun _ hrecord => by cases hrecord⟩

end DeliveryLane

/-! ## The observer -/

/-- A back-off as it was scheduled. -/
structure Backoff where
  wall : Int
  mono : Int
  delay : Int
  /-- Whether the wall clock was read before the scheduling's reading since. -/
  back : Bool
  deriving DecidableEq

/-- What an observer of one lane keeps. -/
structure Timing where
  lastMono : Int
  backoff : Option Backoff
  deriving DecidableEq

namespace Timing

def fresh : Timing := ⟨0, none⟩

/-- What a lane input changes. -/
def observe (cfg : WorkerConfig) (t : Timing) : LanePhase → LaneInput → Timing
  | .scheduling attempts _ floor, .clock wall mono =>
    ⟨mono, some ⟨wall, mono, cfg.backoffDelay attempts floor, false⟩⟩
  | _, .clock wall mono =>
    ⟨mono, t.backoff.map fun b => { b with back := b.back || decide (wall < b.wall) }⟩
  | .attempting _, .step => { t with backoff := none }
  | _, _ => t

/-- What a worker's event changes. -/
def next (t : Timing) (key : LaneKey) (w : Worker) : WorkerEvent → Timing
  | .restore _ mono _ => { t with lastMono := mono }
  | .step key' input =>
    match w.lanes.lookup key with
    | some l => if key' = key then t.observe w.config l.phase input else t
    | none => t
  | _ => t

end Timing

def timedStep (key : LaneKey) (s : Worker × Timing) (e : WorkerEvent) : Option (Worker × Timing) :=
  (s.1.step e).map fun w' => (w', s.2.next key s.1 e)

/-- An event whose monotonic clock does not go back. -/
def Regular (key : LaneKey) (s : Worker × Timing) : WorkerEvent → Prop
  | .restore _ mono _ => s.2.lastMono ≤ mono ∧ mono ≤ maxInt64
  | .step key' input => key' = key → input.Regular s.2.lastMono
  | _ => True

instance (key : LaneKey) (s : Worker × Timing) : (e : WorkerEvent) → Decidable (Regular key s e)
  | .restore .. => inferInstanceAs (Decidable (_ ∧ _))
  | .step .. => inferInstanceAs (Decidable (_ → _))
  | .queue _ | .clamp _ | .run | .lane _ | .notify _ | .call .. => .isTrue trivial

/-! ## What holds of a back-off -/

/-- **A back-off in force**, from its scheduling to the next attempt. -/
structure InForce (cfg : WorkerConfig) (t : Timing) (l : DeliveryLane) (b : Backoff) : Prop where
  mono : 0 ≤ b.mono ∧ b.mono ≤ t.lastMono
  /-- The delay is positive and no longer than the bound of the wait. -/
  delay : 0 < b.delay ∧ b.delay ≤ maxInt64 ∧ b.delay ≤ cfg.waitBound l.retryAfter
  monoDue : l.monoDue = int64 (b.mono + b.delay)
  waits : l.phase.afterAttempt = false
  passed : l.phase.due = true → b.mono + b.delay ≤ t.lastMono
  /-- Unless the wall clock went back, the deadline is the one of the scheduling. -/
  deadline : b.back = false → l.notBefore = ceilMilli (b.wall + b.delay)
  written : b.back = false → ∀ record ∈ l.phase.written,
    record.notBeforeMS = unixMilli (ceilMilli (b.wall + b.delay))

/-- **The deadlines of a lane.** -/
structure Timed (cfg : WorkerConfig) (t : Timing) (l : DeliveryLane) : Prop where
  mono : 0 ≤ t.lastMono ∧ t.lastMono ≤ maxInt64
  /-- The monotonic deadline is no further away than the bound of the wait and the rest of a
  millisecond. -/
  due : ∃ due, l.monoDue = int64 due ∧ 0 ≤ due ∧ due ≤ t.lastMono + maxInt64 ∧
    due ≤ t.lastMono + (cfg.waitBound l.retryAfter + (millisecond - 1))
  floor : l.phase.floor ≤ maxInt64
  backoff : ∀ b, t.backoff = some b → InForce cfg t l b

namespace Timed

variable {cfg : WorkerConfig} {t : Timing} {l l' : DeliveryLane} {env : LaneEnv} {input : LaneInput}

theorem left (h : Timed cfg t l) {mono : Int} (hmono : t.lastMono ≤ mono) (hmax : mono ≤ maxInt64) :
    int64 (l.monoDue - mono) ≤ cfg.waitBound l.retryAfter + (millisecond - 1) := by
  obtain ⟨due, heq, hpos, hfits, hdue⟩ := h.due
  unfold maxInt64 at hfits hmax
  rw [heq, int64_int64_sub, int64_eq ⟨by omega, by omega⟩]
  omega

theorem untilDue_le (h : Timed cfg t l) (wall : Int) {mono : Int} (hmono : t.lastMono ≤ mono)
    (hmax : mono ≤ maxInt64) :
    (l.untilDue cfg wall mono).1 ≤ cfg.waitBound l.retryAfter + millisecond := by
  obtain ⟨clamp, heq, -⟩ := DeliveryLane.untilDue_spec cfg l wall mono
  rw [heq]
  have hwall := DeliveryLane.timeSub_clampedDeadline cfg l wall
  have hleft := h.left hmono hmax
  exact max_le (by omega) (by omega)

end Timed

theorem InForce.passed_of_left {b : Backoff} (h : InForce cfg t l b) {mono : Int}
    (hmono : t.lastMono ≤ mono) (hmax : mono ≤ maxInt64)
    (hleft : int64 (l.monoDue - mono) ≤ 0) : b.mono + b.delay ≤ mono := by
  have hm := h.mono
  have hd := h.delay
  unfold maxInt64 at hmax hd
  rw [h.monoDue, int64_int64_sub, int64_eq ⟨by omega, by omega⟩] at hleft
  omega

namespace Timed

variable {cfg : WorkerConfig} {t : Timing} {l l' : DeliveryLane} {env : LaneEnv} {input : LaneInput}

theorem of_none (hmono : 0 ≤ t.lastMono ∧ t.lastMono ≤ maxInt64) (hdue : l.monoDue = 0)
    (hfloor : l.phase.floor ≤ maxInt64) (hnone : t.backoff = none) : Timed cfg t l := by
  refine ⟨hmono, ⟨0, hdue.trans rfl, le_refl _, ?_, ?_⟩, hfloor, ?_⟩
  · exact add_nonneg hmono.1 (by decide)
  · have hbound := cfg.waitBound_pos l.retryAfter
    unfold millisecond
    omega
  · intro b hb
    rw [hnone] at hb
    cases hb

theorem looked (ht : Timed cfg t l) (wall : Int) {mono : Int} (attempts : Bool)
    (hmono : t.lastMono ≤ mono)
    (hmax : mono ≤ maxInt64)
    (hfloor : (l.awaitDue cfg wall mono attempts).phase.floor ≤ maxInt64) :
    Timed cfg ⟨mono, t.backoff.map fun b => { b with back := b.back || decide (wall < b.wall) }⟩
      (l.awaitDue cfg wall mono attempts) := by
  obtain ⟨phase, heq, hafter, hdue, hwritten⟩ := l.awaitDue_spec cfg wall mono attempts
  rw [heq] at hfloor ⊢
  refine ⟨⟨ht.mono.1.trans hmono, hmax⟩, ?_, hfloor, ?_⟩
  · obtain ⟨due, hmonoDue, hpos, hfits, hle⟩ := ht.due
    exact ⟨due, hmonoDue, hpos, by dsimp only; omega, by dsimp only; omega⟩
  · intro b' hb'
    obtain ⟨b, hb, rfl⟩ := Option.map_eq_some_iff.mp hb'
    have hforce := ht.backoff b hb
    -- unless the wall clock was read before the scheduling's reading, the deadline stays
    have hstays : (b.back || decide (wall < b.wall)) = false →
        l.clampedDeadline cfg wall = ceilMilli (b.wall + b.delay) := by
      intro hback
      simp only [Bool.or_eq_false_iff, decide_eq_false_iff_not, not_lt] at hback
      have hdeadline := hforce.deadline hback.1
      rw [← hdeadline]
      exact DeliveryLane.clampedDeadline_eq hdeadline hforce.delay.2.2 hback.2
    refine ⟨⟨hforce.mono.1, hforce.mono.2.trans hmono⟩, hforce.delay, hforce.monoDue, hafter, ?_,
      hstays, ?_⟩
    · intro hphase
      exact hforce.passed_of_left hmono hmax (hdue hphase)
    · intro hback record hrecord
      rw [← hstays hback]
      exact hwritten record hrecord

theorem scheduled (hcfg : cfg.maxBackoff ≤ maxInt64) (ht : Timed cfg t l) {attempts : Int}
    {head : Option QueuedArtifact} {floor : Int}
    (hphase : l.phase = .scheduling attempts head floor) (wall : Int) {mono : Int}
    (hmono : t.lastMono ≤ mono) (hmax : mono ≤ maxInt64) :
    Timed cfg ⟨mono, some ⟨wall, mono, cfg.backoffDelay attempts floor, false⟩⟩
      (l.scheduled cfg attempts head floor wall mono) := by
  have hfloor : floor ≤ maxInt64 := by
    have h := ht.floor
    rwa [hphase] at h
  have hpos := cfg.backoffDelay_pos attempts floor
  have hle := cfg.backoffDelay_le attempts floor
  have hfits := hle.trans (cfg.waitBound_le hcfg hfloor)
  have hnonneg := ht.mono.1.trans hmono
  refine ⟨⟨hnonneg, hmax⟩, ⟨_, rfl, ?_, ?_, ?_⟩, ?_, ?_⟩
  · omega
  · dsimp only
    omega
  · show mono + cfg.backoffDelay attempts floor ≤ mono + (cfg.waitBound floor + (millisecond - 1))
    unfold millisecond
    omega
  · unfold DeliveryLane.scheduled
    dsimp only
    split <;> exact (by decide : (0 : Int) ≤ maxInt64)
  · rintro b ⟨⟩
    refine ⟨⟨hnonneg, le_refl _⟩, ⟨hpos, hfits, hle⟩, rfl, ?_, ?_, fun _ => rfl, ?_⟩
    all_goals
      unfold DeliveryLane.scheduled
      dsimp only
      split
    · rfl
    · rfl
    · nofun
    · nofun
    · rintro _ record ⟨⟩
      rfl
    · nofun

theorem observe (hcfg : cfg.maxBackoff ≤ maxInt64) (ht : Timed cfg t l)
    (h : l.step cfg env input = some l') (hinput : input.Regular t.lastMono) :
    Timed cfg (t.observe cfg l.phase input) l' := by
  have hfloor := DeliveryLane.floor_step h ht.floor hinput
  cases DeliveryLane.deadlineChange h with
  | looked wall mono attempts hphase =>
    have hobserve : t.observe cfg l.phase (.clock wall mono) =
        ⟨mono, t.backoff.map fun b => { b with back := b.back || decide (wall < b.wall) }⟩ := by
      cases hp : l.phase with
      | scheduling =>
        rw [hp] at hphase
        cases hphase
      | _ => rfl
    rw [hobserve]
    exact ht.looked wall attempts hinput.1 hinput.2 hfloor
  | scheduled attempts head floor wall mono hphase =>
    rw [hphase]
    exact ht.scheduled hcfg hphase wall hinput.1 hinput.2
  | began queued hphase =>
    rw [hphase]
    exact .of_none ht.mono rfl hfloor rfl
  | cleared hphase =>
    have hobserve : t.observe cfg l.phase .step = t := by rw [hphase]; rfl
    rw [hobserve]
    refine .of_none ht.mono rfl hfloor ?_
    -- the back-off ended with the attempt before
    cases hb : t.backoff with
    | none => rfl
    | some b =>
      have hwaits := (ht.backoff b hb).waits
      rw [hphase] at hwaits
      cases hwaits
  | kept _ _ hclock hnotBefore hmonoDue hretryAfter hbegan hdue hafter hwritten =>
    have hobserve : t.observe cfg l.phase input = t := by
      unfold Timing.observe
      split
      · exact absurd rfl (hclock _ _)
      · exact absurd rfl (hclock _ _)
      · next hp => exact absurd hp (hbegan _)
      · rfl
    rw [hobserve]
    refine ⟨ht.mono, by rw [hmonoDue, hretryAfter]; exact ht.due, hfloor, ?_⟩
    intro b hb
    have hforce := ht.backoff b hb
    refine ⟨hforce.mono, by rw [hretryAfter]; exact hforce.delay, hmonoDue.trans hforce.monoDue, ?_,
      ?_, ?_, ?_⟩
    · cases hx : l'.phase.afterAttempt with
      | false => rfl
      | true => exact absurd (hafter hx) (by rw [hforce.waits]; nofun)
    · exact fun hp => hforce.passed (hdue hp)
    · exact fun hback => hnotBefore.trans (hforce.deadline hback)
    · rw [hwritten]
      nofun

end Timed

/-! ## Over every run -/

theorem timedStep_eq_some {s s' : Worker × Timing} :
    timedStep key s e = some s' ↔ s.1.step e = some s'.1 ∧ s'.2 = s.2.next key s.1 e := by
  obtain ⟨w', t'⟩ := s'
  simp only [timedStep, Option.map_eq_some_iff, Prod.mk.injEq]
  constructor
  · rintro ⟨w₁, h, rfl, rfl⟩
    exact ⟨h, rfl⟩
  · rintro ⟨h, rfl⟩
    exact ⟨w', h, rfl, rfl⟩

theorem Timed.restored (env : LaneEnv) (backoffFor : Bytes → Option BackoffRecord)
    (ht : Timed cfg t l) (hnone : t.backoff = none) (wall : Int) {mono : Int} (now : Int)
    (hmono : t.lastMono ≤ mono) (hmax : mono ≤ maxInt64) :
    Timed cfg { t with lastMono := mono } (l.restore cfg env backoffFor wall mono now).1 := by
  have hnonneg := ht.mono.1.trans hmono
  have hphase := DeliveryLane.phase_restore cfg env backoffFor l wall mono now
  refine ⟨⟨hnonneg, hmax⟩, ?_, by rw [hphase]; exact ht.floor, ?_⟩
  swap
  · intro b hb
    rw [show t.backoff = some b from hb] at hnone
    cases hnone
  obtain ⟨due, hmonoDue, hpos, hfits, hle⟩ := ht.due
  -- without a durable back-off the deadline stays
  have hsame : ∀ l' : DeliveryLane, l'.monoDue = l.monoDue → l'.retryAfter = l.retryAfter →
      ∃ due, l'.monoDue = int64 due ∧ 0 ≤ due ∧ due ≤ mono + maxInt64 ∧
        due ≤ mono + (cfg.waitBound l'.retryAfter + (millisecond - 1)) := by
    intro l' hl' hretry
    rw [hl', hretry]
    exact ⟨due, hmonoDue, hpos, by omega, by omega⟩
  unfold DeliveryLane.restore
  split
  · exact hsame l rfl rfl
  · next head _ =>
    dsimp only
    split
    · rcases l.adoptDurableHold_cases env head with heq | ⟨_, heq⟩
      · rw [heq]
        exact hsame l rfl rfl
      · rw [heq]
        exact hsame _ rfl rfl
    · next record _ =>
      refine ⟨_, rfl, ?_⟩
      dsimp only
      generalize (record.retryAfterMS.map fun ms => int64 (ms * millisecond)).getD 0 = retryAfter
      have hbound := cfg.waitBound_pos retryAfter
      have hceil := ceilMilli_lt (wall + cfg.waitBound retryAfter)
      unfold timeSub maxInt64 at *
      unfold millisecond at *
      split
      · omega
      · next hclamp =>
        simp only [decide_eq_true_eq, not_lt] at hclamp
        omega

theorem Timed.later (ht : Timed cfg t l) {mono : Int} (hmono : t.lastMono ≤ mono)
    (hmax : mono ≤ maxInt64) :
    Timed cfg { t with lastMono := mono } l := by
  obtain ⟨due, hmonoDue, hpos, hfits, hle⟩ := ht.due
  refine ⟨⟨ht.mono.1.trans hmono, hmax⟩,
    ⟨due, hmonoDue, hpos, by dsimp only; omega, by dsimp only; omega⟩, ht.floor, ?_⟩
  intro b hb
  have hforce := ht.backoff b hb
  exact { hforce with
    mono := ⟨hforce.mono.1, hforce.mono.2.trans hmono⟩
    passed := fun hdue => (hforce.passed hdue).trans hmono }

def TimedAt (w : Worker) (t : Timing) : Option DeliveryLane → Prop
  | none => (0 ≤ t.lastMono ∧ t.lastMono ≤ maxInt64) ∧ t.backoff = none
  | some l => Timed w.config t l ∧ (t.backoff.isSome → w.running = true)

theorem TimedAt.mono {o : Option DeliveryLane} (h : TimedAt w t o) :
    0 ≤ t.lastMono ∧ t.lastMono ≤ maxInt64 := by
  cases o with
  | none => exact h.1
  | some l => exact h.1.mono

theorem TimedAt.getD {o : Option DeliveryLane} (h : TimedAt w t o) :
    TimedAt w t (some (o.getD .fresh)) := by
  cases o with
  | none => exact ⟨.of_none h.1 rfl (by decide) h.2, by rw [h.2]; nofun⟩
  | some l => exact h

/-- An event that is not the lane's is at most a later reading of the monotonic clock. -/
theorem Timing.next_other (hactor : e.actor ≠ some key) (hmax : t.lastMono ≤ maxInt64)
    (hregular : Regular key (w, t) e) :
    ∃ mono, t.next key w e = { t with lastMono := mono } ∧ t.lastMono ≤ mono ∧ mono ≤ maxInt64 := by
  cases e with
  | restore wall mono now => exact ⟨mono, rfl, hregular⟩
  | step key' input =>
    refine ⟨t.lastMono, ?_, le_refl _, hmax⟩
    have hne : key' ≠ key := fun heq => hactor (congrArg some heq)
    cases hl : w.lanes.lookup key with
    | none => simp [next, hl]
    | some l => simp [next, hl, hne]
  | _ => exact ⟨t.lastMono, rfl, le_refl _, hmax⟩

theorem Timing.next_drives {w' : Worker} {input : LaneInput} (hl : w.lanes.lookup key = some l)
    (h : w.Drives w' key e input) : t.next key w e = t.observe w.config l.phase input := by
  cases h with
  | step => simp [next, hl]
  | call => cases l.phase <;> rfl

theorem timedAt_runAll {es : List WorkerEvent} {s s' : Worker × Timing}
    (hcfg : s.1.config.maxBackoff ≤ maxInt64) (hs : TimedAt s.1 s.2 (s.1.lanes.lookup key))
    (hes : StepsMeet (timedStep key) (Regular key) s es)
    (hrun : runAll (timedStep key) s es = some s') :
    s'.1.config = s.1.config ∧ TimedAt s'.1 s'.2 (s'.1.lanes.lookup key) := by
  refine runAll_induction
    (I := fun s' => s'.1.config = s.1.config ∧ TimedAt s'.1 s'.2 (s'.1.lanes.lookup key)) ?_ hes
    ⟨rfl, hs⟩ hrun
  rintro ⟨w, t⟩ e ⟨w', t'⟩ hregular ⟨hconfig, ht⟩ hstep
  obtain ⟨h, rfl⟩ := timedStep_eq_some.mp hstep
  dsimp only at hconfig ht h ⊢
  have hconfig' := (Worker.settings_step h).1
  refine ⟨hconfig'.trans hconfig, ?_⟩
  -- an event that is not the lane's leaves what is relied on
  have hother : e.actor ≠ some key → ∀ o, TimedAt w t o → TimedAt w' (t.next key w e) o := by
    intro hactor o ho
    obtain ⟨mono, hnext, hle, hmax⟩ := Timing.next_other hactor ht.mono.2 hregular
    rw [hnext]
    cases o with
    | none => exact ⟨⟨ho.1.1.trans hle, hmax⟩, ho.2⟩
    | some l =>
      refine ⟨?_, fun hsome => (Worker.settings_step h).2 (ho.2 hsome)⟩
      rw [hconfig']
      exact ho.1.later hle hmax
  have hchange := Worker.lane_change h key
  generalize hl : w.lanes.lookup key = o at hchange ht
  generalize w'.lanes.lookup key = o' at hchange
  cases hchange with
  | same _ hactor => exact hother hactor _ ht
  | created hactor => exact hother hactor _ ht.getD
  | notified _ hactor =>
    obtain ⟨htimed, hruns⟩ := ht.getD
    refine hother hactor _ ⟨?_, hruns⟩
    exact ⟨htimed.mono, htimed.due, htimed.floor, fun b hb =>
      have hforce := htimed.backoff b hb
      ⟨hforce.mono, hforce.delay, hforce.monoDue, hforce.waits, hforce.passed, hforce.deadline,
        hforce.written⟩⟩
  | restored _ wall mono now hevent hstill =>
    subst hevent
    obtain ⟨htimed, hruns⟩ := ht.getD
    have hnone : t.backoff = none := by
      cases hb : t.backoff with
      | none => rfl
      | some b => exact absurd (hruns (by rw [hb]; rfl)) (by rw [hstill]; nofun)
    refine ⟨?_, fun hsome => ?_⟩
    · rw [hconfig']
      exact htimed.restored _ _ hnone wall now hregular.1 hregular.2
    · rw [show ((t.next key w (.restore wall mono now)).backoff) = none from hnone] at hsome
      cases hsome
  | stepped l l' input hrunning hsignals hdrives hone =>
    rw [Timing.next_drives hl hdrives]
    refine ⟨?_, fun _ => (Worker.settings_step h).2 hrunning⟩
    rw [hconfig']
    refine ht.1.observe (by rw [hconfig]; exact hcfg) hone ?_
    cases hdrives with
    | step => exact hregular rfl
    | call => trivial

/-- **No attempt before the delay has passed.** In every run of a worker whose lane reads a
monotonic clock that does not go back, with a back-off this process scheduled since the last
attempt: an attempt is made only when the delay has passed on the monotonic clock, whatever the wall
clock showed and however the deadline was clamped; the remaining wait that is reported is at most
the bound of the wait and a millisecond; a clamp moves the deadline to no less than the delay from
now; and unless the wall clock was read before the scheduling's reading, the deadline in memory, and
any that is written, is the one that was scheduled. -/
theorem attempts_after_delay {key : LaneKey} (config : WorkerConfig)
    (hcfg : config.maxBackoff ≤ maxInt64) (queue : World DurableQueue) {es : List WorkerEvent}
    {w : Worker} {t : Timing}
    (hes : StepsMeet (timedStep key) (Regular key) (newDeliveryWorker config queue, .fresh) es)
    (hrun : runAll (timedStep key) (newDeliveryWorker config queue, .fresh) es = some (w, t))
    {l : DeliveryLane} (hl : w.lanes.lookup key = some l) :
    (∀ wall mono, t.lastMono ≤ mono → mono ≤ maxInt64 →
      (l.untilDue config wall mono).1 ≤ config.waitBound l.retryAfter + millisecond) ∧
    ∀ b, t.backoff = some b →
      (∀ a, l.phase = .attempting a → b.mono + b.delay ≤ t.lastMono) ∧
      (∀ wall mono, t.lastMono ≤ mono → mono ≤ maxInt64 →
        ((l.untilDue config wall mono).1 ≤ 0 → b.mono + b.delay ≤ mono) ∧
        ((l.untilDue config wall mono).2.1.notBefore ≠ l.notBefore →
          wall + b.delay ≤ (l.untilDue config wall mono).2.1.notBefore)) ∧
      (b.back = false → l.notBefore = ceilMilli (b.wall + b.delay) ∧
        ∀ record ∈ l.phase.written,
        record.notBeforeMS = unixMilli (ceilMilli (b.wall + b.delay))) := by
  obtain ⟨hconfig, htimed⟩ := timedAt_runAll (s := (newDeliveryWorker config queue, .fresh)) hcfg
    ⟨⟨le_refl _, (by decide : (0 : Int) ≤ maxInt64)⟩, rfl⟩ hes hrun
  dsimp only at hconfig htimed
  rw [hl] at htimed
  have ht := htimed.1
  rw [show w.config = config from hconfig] at ht
  refine ⟨fun wall mono hmono hmax => ht.untilDue_le wall hmono hmax, fun b hb => ?_⟩
  have hforce := ht.backoff b hb
  refine ⟨?_, ?_, fun hback => ⟨hforce.deadline hback, hforce.written hback⟩⟩
  · intro a hphase
    exact hforce.passed (by rw [hphase]; rfl)
  · intro wall mono hmono hmax
    obtain ⟨clamp, heq, -⟩ := DeliveryLane.untilDue_spec config l wall mono
    rw [heq]
    constructor
    · intro hwait
      exact hforce.passed_of_left hmono hmax ((le_max_right _ _).trans hwait)
    · intro hmoved
      have hbound := DeliveryLane.le_clampedDeadline hmoved
      have hdelay := hforce.delay.2.2
      dsimp only
      omega

/-- A head is not delivered, and sent again once the back-off has passed; the rounding of the
deadline alone leads to a clamp. -/
def backoffEvents : List WorkerEvent :=
  envelopeEvents ++ [.run, .step evidenceLane (.clock 0 0)] ++ attemptEvents evidenceLane 0 0 ++
    [.step evidenceLane (.outcome .unavailable), .step evidenceLane (.now 5000000),
      .step evidenceLane .step, .step evidenceLane .step, .step evidenceLane (.clock 7 3),
      .call evidenceLane [],
      .step evidenceLane (.clock 7 3), .call evidenceLane [], .notify evidenceLane] ++
    (attemptEvents evidenceLane 1000000 4).dropLast

/-- The head is sent again one nanosecond after the scheduling, its deadline unmoved. -/
theorem attempts_after_delay_backoffEvents :
    ∃ (w : Worker) (t : Timing) (l : DeliveryLane) (b : Backoff) (a : QueuedArtifact),
      runAll (timedStep evidenceLane)
        (newDeliveryWorker plainConfig (openedWorld (emptyQueue plainOptions) freshDirectory 0),
          .fresh)
        backoffEvents = some (w, t) ∧
      w.lanes.lookup evidenceLane = some l ∧ t.backoff = some b ∧ l.phase = .attempting a ∧
      b.mono + b.delay ≤ t.lastMono ∧ l.notBefore = ceilMilli (b.wall + b.delay) := by
  obtain ⟨⟨w, t⟩, hrun, heval⟩ := Option.map_eq_some_iff.mp (by decide +kernel :
    (runAll (timedStep evidenceLane)
      (newDeliveryWorker plainConfig (openedWorld (emptyQueue plainOptions) freshDirectory 0),
        .fresh)
      backoffEvents).map (fun s =>
        ((s.1.lanes.lookup evidenceLane).any fun l => match l.phase with
          | .attempting _ => true
          | _ => false) && s.2.backoff.any (!·.back)) = some true)
  simp only [Bool.and_eq_true, Option.any_eq_true, Bool.not_eq_true'] at heval
  obtain ⟨⟨l, hl, hphase⟩, b, hb, hback⟩ := heval
  split at hphase
  · next a heq =>
    obtain ⟨-, hbackoff⟩ :=
      attempts_after_delay plainConfig (by decide) _ (by decide +kernel) hrun hl
    obtain ⟨hdelay, -, hdeadline⟩ := hbackoff b hb
    exact ⟨w, t, l, b, a, hrun, hl, hb, heq, hdelay a heq, (hdeadline hback).1⟩
  · cases hphase

end OriGateway
