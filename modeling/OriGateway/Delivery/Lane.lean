import OriGateway.Evidence.Authority
import OriGateway.Foundation.Int64

/-! # A delivery lane

One device's lane of the delivery worker: the goroutine that sends the lane's head, as a machine
that makes one atomic step after another (**`DeliveryLane.step`**). Where the code reads a clock,
the queue, the channel or the sink, the step takes what is read or answered as its input.
**`DeliveryLane.moves`** says what a step can be. -/

namespace OriGateway

open Foundation

/-! ## Time

Instants are nanoseconds since the Unix epoch and durations are nanoseconds. -/

def zeroTime : Int := -62135596800 * 10 ^ 9

/-- The duration between two instants, at most the longest there is. -/
def timeSub (a b : Int) : Int := max (-2 ^ 63) (min maxInt64 (a - b))

def millisecond : Int := 1000000

def unixMilli (t : Int) : Int := t / millisecond

/-- The instant in whole milliseconds, rounded up: the one a back-off record keeps. -/
def ceilMilli (t : Int) : Int :=
  let ms := unixMilli t * millisecond
  if ms < t then ms + millisecond else ms

/-! ## Configuration -/

/-- How a delivery worker is configured. -/
structure DeliveryWorkerOptions where
  retryInterval : Int
  backoffBase : Int
  /-- The bound of the growing back-off, a default when it is not positive. -/
  maxBackoff : Int
  sink : Bool

def defaultDeliveryRetry : Int := 5 * 10 ^ 9

def defaultMaxBackoff : Int := 300 * 10 ^ 9

/-- The configuration a worker runs with. -/
structure WorkerConfig where
  retry : Int
  backoffBase : Int
  maxBackoff : Int
  sink : Bool
  retry_pos : 0 < retry
  retry_le : retry ≤ backoffBase
  base_le : backoffBase ≤ maxBackoff

/-- The configuration of a new worker: a value that is out of order is raised. -/
def DeliveryWorkerOptions.config (opts : DeliveryWorkerOptions) : WorkerConfig :=
  let retry := if opts.retryInterval ≤ 0 then defaultDeliveryRetry else opts.retryInterval
  let base := max opts.backoffBase retry
  let bound := if opts.maxBackoff ≤ 0 then max defaultMaxBackoff base else opts.maxBackoff
  { retry := retry, backoffBase := base, maxBackoff := max bound base, sink := opts.sink
    retry_pos := by
      unfold retry
      split_ifs with hretry
      · decide
      · exact not_le.mp hretry
    retry_le := le_max_right _ _
    base_le := le_max_right _ _ }

namespace WorkerConfig

/-- A delay doubled a number of times, while it is below a bound. -/
def doubled (bound : Int) : Nat → Int → Int
  | 0, delay => delay
  | n + 1, delay => if delay < bound then doubled bound n (int64 (delay * 2)) else delay

/-- The wait before the next attempt, after a number of consecutive back-offs: the base doubling to
the bound, and never shorter than the interval or the floor the response carried. -/
def backoffDelay (cfg : WorkerConfig) (attempts floor : Int) : Int :=
  let delay := doubled cfg.maxBackoff (attempts - 1).toNat cfg.backoffBase
  let delay := if delay > cfg.maxBackoff then cfg.maxBackoff else delay
  max delay (max cfg.retry floor)

/-- A delay below the bound can be doubled in 64 bits, as often as it is. -/
def Doubles (base bound : Int) : Prop := ∀ k, base * 2 ^ k < bound → base * 2 ^ (k + 1) < 2 ^ 63

theorem Doubles.double {base bound : Int} (h : Doubles base bound) : Doubles (base * 2) bound := by
  have hshift : ∀ k : Nat, base * 2 * 2 ^ k = base * 2 ^ (k + 1) :=
    fun k => by rw [pow_succ', mul_assoc]
  intro k hk
  rw [hshift] at hk ⊢
  exact h (k + 1) hk

theorem min_doubled {bound : Int} (n : Nat) {base : Int} (hpos : 0 < base)
    (h : Doubles base bound) :
    min (doubled bound n base) bound = min (base * 2 ^ n) bound := by
  induction n generalizing base with
  | zero => rw [doubled, pow_zero, mul_one]
  | succ n ih =>
    rw [doubled]
    split_ifs with hbelow
    · have hfits : base * 2 < 2 ^ 63 := by simpa using h 0 (by simpa using hbelow)
      rw [int64_eq ⟨by omega, hfits⟩, ih (by omega) h.double, pow_succ', mul_assoc]
    · -- the base is past the bound already
      have hpow : base ≤ base * 2 ^ (n + 1) :=
        le_mul_of_one_le_right hpos.le (one_le_pow₀ (by norm_num))
      rw [min_eq_right (not_lt.mp hbelow), min_eq_right ((not_lt.mp hbelow).trans hpow)]

/-- A delay that is below the bound is doubled once more, and wraps if it must. -/
theorem doubled_succ {bound : Int} (hbound : bound ≤ 2 ^ 63) (k : Nat) {base : Int}
    (hpos : 0 < base) (h : base * 2 ^ k < bound) :
    doubled bound (k + 1) base = int64 (base * 2 ^ (k + 1)) := by
  induction k generalizing base with
  | zero => simpa [doubled] using fun hle : bound ≤ base => absurd h (by simpa using hle)
  | succ k ih =>
    rw [pow_succ', ← mul_assoc] at h
    have hle : base * 2 ≤ base * 2 * 2 ^ k :=
      le_mul_of_one_le_right (by omega) (one_le_pow₀ (by norm_num))
    rw [doubled, if_pos (by omega), int64_eq ⟨by omega, by omega⟩, ih (by omega) h,
      pow_succ' 2 (k + 1), mul_assoc]

/-- **The back-off without overflow**: the base doubling to the bound, and never below the interval
or the floor. -/
theorem backoffDelay_eq (cfg : WorkerConfig) (h : Doubles cfg.backoffBase cfg.maxBackoff)
    (attempts floor : Int) :
    cfg.backoffDelay attempts floor =
      max (min (cfg.backoffBase * 2 ^ (attempts - 1).toNat) cfg.maxBackoff)
        (max cfg.retry floor) := by
  have hmin : ∀ delay : Int, (if delay > cfg.maxBackoff then cfg.maxBackoff else delay) =
      min delay cfg.maxBackoff := by
    intro delay
    split_ifs with hdelay
    · exact (min_eq_right (le_of_lt hdelay)).symm
    · exact (min_eq_left (not_lt.mp hdelay)).symm
  rw [backoffDelay, hmin, min_doubled _ (lt_of_lt_of_le cfg.retry_pos cfg.retry_le) h]

/-- The longest a back-off waits. -/
def waitBound (cfg : WorkerConfig) (retryAfter : Int) : Int :=
  max cfg.maxBackoff (max cfg.retry retryAfter)

theorem waitBound_pos (cfg : WorkerConfig) (retryAfter : Int) : 0 < cfg.waitBound retryAfter :=
  lt_of_lt_of_le cfg.retry_pos ((le_max_left _ _).trans (le_max_right _ _))

theorem backoffDelay_pos (cfg : WorkerConfig) (attempts floor : Int) :
    0 < cfg.backoffDelay attempts floor :=
  lt_of_lt_of_le cfg.retry_pos ((le_max_left _ _).trans (le_max_right _ _))

theorem backoffDelay_le (cfg : WorkerConfig) (attempts floor : Int) :
    cfg.backoffDelay attempts floor ≤ cfg.waitBound floor := by
  refine max_le_max_right _ ?_
  split
  · exact le_refl _
  · next h => exact not_lt.mp h

theorem waitBound_le (cfg : WorkerConfig) {retryAfter : Int} (hbound : cfg.maxBackoff ≤ maxInt64)
    (hfloor : retryAfter ≤ maxInt64) : cfg.waitBound retryAfter ≤ maxInt64 := by
  have hretry := (cfg.retry_le.trans cfg.base_le).trans hbound
  exact max_le hbound (max_le hretry hfloor)

end WorkerConfig

/-! ## The channel's answer -/

/-- What the evidence channel answers. -/
structure DeliveryResult where
  accepted : Bool
  retriable : Bool
  /-- The floor of the back-off, zero when the response carried none. -/
  retryAfter : Int
  /-- Whether a refusal names the receiver's state and not the artifact's bytes. -/
  receiverState : Bool
  refusalStatus : Int
  refusalReason : Bytes
  authorityArtifacts : List AuthorityArtifact
  deriving DecidableEq

/-- How a delivery ends. -/
inductive ChannelOutcome where
  | unrecognised
  | unavailable
  | result (r : DeliveryResult)
  deriving DecidableEq

/-- Why an attempt fails. -/
inductive DeliveryFailure where
  | channelUnavailable
  /-- The channel refused for now, with the floor it asked for. -/
  | channelRefused (retryAfter : Int)
  | channelPermanentRefusal
  /-- The channel refused for the state of the receiver. -/
  | channelReceiverState
  | runtimeSink
  | malformedResponse
  | queueRetirement
  deriving DecidableEq

/-- The reason a failure is reported with. -/
def safeFailureReason : DeliveryFailure → Bytes
  | .channelUnavailable => ascii "channel_unavailable"
  | .channelRefused _ => ascii "channel_refused"
  | .channelPermanentRefusal => ascii "channel_permanent_refusal"
  | .channelReceiverState => ascii "channel_receiver_state_refusal"
  | .runtimeSink => ascii "runtime_sink_unavailable"
  | .malformedResponse => ascii "malformed_channel_response"
  | .queueRetirement => ascii "queue_retirement_failed"

def DeliveryFailure.floor : DeliveryFailure → Int
  | channelRefused retryAfter => retryAfter
  | _ => 0

/-- Bind what an acceptance returned to the record it answers: the artifacts as they are staged, and
whether one of them is a receipt that covers the record. One that is not of a known type, is empty
or is not bound to the record spoils them all. -/
def routeArtifacts (domain : Bytes → Bool) (queued : QueuedArtifact) :
    List AuthorityArtifact → Option (List AuthorityArtifact × Bool)
  | [] => some ([], false)
  | artifact :: rest =>
    if artifact.payload = [] ∨ validAuthorityArtifactType artifact.type = false then none
    else
      match validateAuthorityRouting queued artifact domain with
      | .error _ => none
      | .ok (deviceID, covers) =>
        (routeArtifacts domain queued rest).map fun routed =>
          (⟨artifact.type, deviceID, artifact.payload⟩ :: routed.1, covers || routed.2)

/-! ## The lane -/

/-- A head that was refused for good. -/
structure HeldHead where
  record : HoldRecord
  persisted : Bool
  deriving DecidableEq

/-- A head that could not be delivered and is not held. -/
structure StallState where
  id : Bytes
  failure : Bytes
  reason : Bytes
  waitsForHandoff : Bool
  deriving DecidableEq

/-- The point a lane's goroutine has reached. -/
inductive LanePhase where
  /-- It starts: the timer is set for the end of the back-off. -/
  | starting
  | waiting
  /-- It took a wake, and asks whether a back-off is in force. -/
  | woken
  /-- The timer fired, and a held head or one that waits for a handoff is reminded of. -/
  | reminding
  /-- The timer fired, and the rest of a back-off is waited for. -/
  | elapsed
  /-- A deadline that was clamped is written; then the head is attempted, if that is due. -/
  | clamping (record : BackoffRecord) (due : Bool)
  /-- An attempt begins: a pending wake is consumed. -/
  | draining
  | peeking
  | adopting (head : Option QueuedArtifact)
  | releasing (head : Option QueuedArtifact)
  /-- The head is about to be passed to the channel. -/
  | attempting (queued : QueuedArtifact)
  | delivering (queued : QueuedArtifact)
  /-- What an acceptance returned is staged: what the sink has stored, and what is left. -/
  | storing (queued : QueuedArtifact) (result : DeliveryResult)
      (stored rest : List AuthorityArtifact)
  /-- Everything was stored, and the head is removed from the queue. -/
  | removing (queued : QueuedArtifact) (result : DeliveryResult) (stored : List AuthorityArtifact)
  | retired (queued : QueuedArtifact)
  /-- The device's evidence lane is looked up, to be notified. -/
  | opening
  | handing
  | holding (queued : QueuedArtifact) (status : Int) (reason : Bytes)
  | persisting (record : HoldRecord)
  | failing (failure : DeliveryFailure)
  | stalling (failure : DeliveryFailure)
  | clearing
  | erasing (id : Bytes)
  | counting (failure : DeliveryFailure)
  | scheduling (attempts : Int) (head : Option QueuedArtifact) (floor : Int)
  | saving (record : BackoffRecord)
  | rescheduled
  /-- The attempt made no failure: it retired the head, or there was none. -/
  | succeeded
  | ended
  deriving DecidableEq

/-- One device's lane. -/
structure DeliveryLane where
  wake : Bool
  lastFailureAt : Int
  lastError : Bytes
  notBefore : Int
  monoDue : Int
  attempts : Int
  retryAfter : Int
  backoffID : Bytes
  held : Option HeldHead
  stall : Option StallState
  attempted : Option QueuedArtifact
  attemptReason : Bytes
  phase : LanePhase
  deriving DecidableEq

/-- What a step of a lane takes from outside. -/
inductive LaneInput where
  | step
  | wake
  | timer
  | stop
  /-- The wall clock and the monotonic clock are read. -/
  | clock (wall mono : Int)
  | now (t : Int)
  | outcome (o : ChannelOutcome)
  /-- The sink's store returns, with or without an error. -/
  | stored (ok : Bool)
  | returned (result : Except QueueError Unit)

/-- What a lane reads of the queue. -/
structure LaneEnv where
  head : Option QueuedArtifact
  holdFor : Bytes → Option HoldRecord
  routes : Bytes → Bool

namespace DeliveryLane

/-- A lane as it is made. -/
def fresh : DeliveryLane where
  wake := false
  lastFailureAt := zeroTime
  lastError := []
  notBefore := zeroTime
  monoDue := 0
  attempts := 0
  retryAfter := 0
  backoffID := []
  held := none
  stall := none
  attempted := none
  attemptReason := []
  phase := .starting

def notify (l : DeliveryLane) : DeliveryLane := { l with wake := true }

/-! ### Back-off -/

/-- The sidecar of a back-off. -/
def backoffRecord (id : Bytes) (notBefore attempts retryAfter : Int) : BackoffRecord where
  v := 0
  queueRecord := id
  notBeforeMS := unixMilli notBefore
  attempts := attempts
  retryAfterMS := if retryAfter > 0 then some (retryAfter / millisecond) else none

/-- How long the back-off still forbids an attempt, with the deadline that was clamped when the wall
clock moved backwards, and the record of it. -/
def untilDue (cfg : WorkerConfig) (l : DeliveryLane) (wall mono : Int) :
    Int × DeliveryLane × Option BackoffRecord :=
  let remaining := timeSub l.notBefore wall
  let bound := cfg.waitBound l.retryAfter
  if remaining > bound then
    let notBefore := ceilMilli (wall + bound)
    (max (timeSub notBefore wall) (int64 (l.monoDue - mono)), { l with notBefore := notBefore },
      if l.backoffID = [] then none
      else some (backoffRecord l.backoffID notBefore l.attempts l.retryAfter))
  else (max remaining (int64 (l.monoDue - mono)), l, none)

/-- Look at the back-off, and go on: to an attempt when the goroutine would make one and it is
due. -/
def awaitDue (cfg : WorkerConfig) (l : DeliveryLane) (wall mono : Int) (attempts : Bool) :
    DeliveryLane :=
  let (wait, l, clamp) := l.untilDue cfg wall mono
  let due := attempts && decide (wait ≤ 0)
  match clamp with
  | some record => { l with phase := .clamping record due }
  | none => { l with phase := if due then .draining else .waiting }

/-- Count a failed attempt. -/
def counted (l : DeliveryLane) (failure : DeliveryFailure) : DeliveryLane :=
  let attempts := if l.attempts < maxBackoffAttempts then l.attempts + 1 else l.attempts
  { l with attempts := attempts, phase := .scheduling attempts l.attempted failure.floor }

/-- Schedule the next attempt. -/
def scheduled (cfg : WorkerConfig) (l : DeliveryLane) (attempts : Int)
    (head : Option QueuedArtifact) (floor wall mono : Int) : DeliveryLane :=
  let delay := cfg.backoffDelay attempts floor
  let notBefore := ceilMilli (wall + delay)
  { l with
    notBefore := notBefore
    monoDue := int64 (mono + delay)
    retryAfter := floor
    backoffID := (head.map (·.id)).getD []
    phase := match head with
      | some a => .saving (backoffRecord a.id notBefore attempts floor)
      | none => .rescheduled }

/-- Forget the schedule. -/
def cleared (l : DeliveryLane) : DeliveryLane :=
  { l with
    notBefore := zeroTime
    monoDue := 0
    attempts := 0
    retryAfter := 0
    backoffID := []
    phase := match l.attempted with
      | some a => .erasing a.id
      | none => .waiting }

/-! ### Holds -/

/-- The sidecar of a hold. -/
def holdRecord (queued : QueuedArtifact) (status : Int) (reason : Bytes) (nowMS : Int) :
    HoldRecord :=
  let status := if heldRefusalStatus status then status else 0
  { v := holdRecordVersion, queueRecord := queued.id, artifactDigest := payloadDigest queued.payload
    artifactType := queued.type, refusalStatus := status, reason := recordedReason status reason
    firstHeldAtMS := nowMS, acknowledged := false }

/-- Hold the head. -/
def hold (l : DeliveryLane) (record : HoldRecord) (persisted : Bool) : DeliveryLane :=
  { l with
    held := some ⟨record, persisted⟩
    stall := none
    lastError := safeFailureReason .channelPermanentRefusal
    lastFailureAt := record.firstHeldAtMS * millisecond }

def holds (l : DeliveryLane) (id : Bytes) : Bool := l.held.any fun h => h.record.queueRecord == id

/-- Adopt the durable hold of the head, if it has one, without sending it. -/
def adoptDurableHold (l : DeliveryLane) (env : LaneEnv) (queued : QueuedArtifact) : DeliveryLane :=
  if l.holds queued.id then l
  else
    match env.holdFor queued.id with
    | none => l
    | some record => l.hold record true

/-- The lane once the durable hold of its head, if it has one, is adopted. -/
def adopted (l : DeliveryLane) (env : LaneEnv) : Option QueuedArtifact → DeliveryLane
  | some queued => l.adoptDurableHold env queued
  | none => l

/-- Release the hold unless it is the head's, and go on with the head that is not held. -/
def released (l : DeliveryLane) : Option QueuedArtifact → DeliveryLane
  | some queued =>
    if l.holds queued.id then { l with phase := .waiting }
    else { l with held := none, phase := .attempting queued }
  | none => { l with held := none, phase := .succeeded }

/-! ### An attempt -/

/-- Begin an attempt. A new head starts its own back-off from the beginning. -/
def began (l : DeliveryLane) (queued : QueuedArtifact) : DeliveryLane :=
  { l with
    attempts := if l.attempted.map (·.id) = some queued.id then l.attempts else 0
    attempted := some queued
    attemptReason := []
    notBefore := zeroTime
    monoDue := 0
    retryAfter := 0
    backoffID := []
    phase := .delivering queued }

def spoiled (l : DeliveryLane) (failure : DeliveryFailure) : DeliveryLane :=
  { l with attemptReason := unrecognised, phase := .failing failure }

/-- What the channel's outcome does to the lane. -/
def answered (cfg : WorkerConfig) (env : LaneEnv) (l : DeliveryLane) (queued : QueuedArtifact) :
    ChannelOutcome → DeliveryLane
  | .unrecognised => l.spoiled .malformedResponse
  | .unavailable => { l with phase := .failing .channelUnavailable }
  | .result r =>
    if !r.accepted then
      let phase :=
        if !r.retriable then
          if r.receiverState then .failing .channelReceiverState
          else .holding queued r.refusalStatus r.refusalReason
        else .failing (.channelRefused r.retryAfter)
      { l with attemptReason := recordedReason r.refusalStatus r.refusalReason, phase := phase }
    else if r.authorityArtifacts ≠ [] ∧ cfg.sink = false then
      { l with phase := .failing .runtimeSink }
    else
      match routeArtifacts env.routes queued r.authorityArtifacts with
      | none => l.spoiled .malformedResponse
      | some (routed, covers) =>
        if queued.type = .deliveryEnvelope ∧ covers = false then l.spoiled .malformedResponse
        else { l with phase := .storing queued r [] routed }

/-- Note why the head stalls. -/
def noteStall (l : DeliveryLane) (failure : DeliveryFailure) : DeliveryLane :=
  { l with
    stall := some
      ⟨(l.attempted.map (·.id)).getD [], safeFailureReason failure, l.attemptReason,
        failure == .channelReceiverState⟩ }

/-- Whether the timer only reminds: a head is held, or waits for a handoff. -/
def reminds (l : DeliveryLane) : Bool := l.held.isSome || l.stall.any (·.waitsForHandoff)

/-! ### Steps -/

/-- **One step of a lane's goroutine.** -/
def step (cfg : WorkerConfig) (env : LaneEnv) (l : DeliveryLane) (input : LaneInput) :
    Option DeliveryLane :=
  match l.phase, input with
  | .starting, .clock wall mono => some (l.awaitDue cfg wall mono false)
  | .waiting, .wake => if l.wake then some { l with wake := false, phase := .woken } else none
  | .waiting, .timer => some { l with phase := .reminding }
  | .waiting, .stop => some { l with phase := .ended }
  -- a handoff never brings a back-off forward
  | .woken, .clock wall mono => some (l.awaitDue cfg wall mono true)
  | .reminding, .step => some { l with phase := if l.reminds then .waiting else .elapsed }
  | .elapsed, .clock wall mono => some (l.awaitDue cfg wall mono true)
  | .clamping _ due, .returned _ => some { l with phase := if due then .draining else .waiting }
  | .draining, .step => some { l with wake := false, phase := .peeking }
  | .peeking, .step => some { l with phase := .adopting env.head }
  | .adopting head, .step => some { l.adopted env head with phase := .releasing head }
  | .releasing head, .step => some (l.released head)
  | .attempting queued, .step => some (l.began queued)
  | .delivering queued, .outcome o => some (l.answered cfg env queued o)
  | .storing queued r stored [], .step => some { l with phase := .removing queued r stored }
  | .storing queued r stored (artifact :: rest), .stored ok =>
    some (if ok then { l with phase := .storing queued r (stored ++ [artifact]) rest }
      else l.spoiled .runtimeSink)
  | .removing queued _ _, .returned result =>
    some { l with phase := if result.isOk then .retired queued else .failing .queueRetirement }
  | .retired queued, .step =>
    some { l with
      attempts := 0
      attempted := none
      phase := if queued.type = .anchorRegistration then .opening else .succeeded }
  | .opening, .step => some { l with phase := .handing }
  | .handing, .step => some { l with phase := .succeeded }
  | .holding queued status reason, .now t =>
    let record := holdRecord queued status reason (unixMilli t)
    some { l.hold record false with phase := .persisting record }
  | .persisting _, .returned result =>
    some { l with
      held := l.held.map fun h => { h with persisted := result.isOk }
      phase := .failing .channelPermanentRefusal }
  | .failing failure, .now t =>
    some { l with
      lastFailureAt := t
      lastError := safeFailureReason failure
      phase := if failure = .channelPermanentRefusal then .clearing else .stalling failure }
  | .stalling failure, .step =>
    some { l.noteStall failure with
      phase := if failure = .channelReceiverState then .clearing else .counting failure }
  | .clearing, .step => some l.cleared
  | .erasing _, .returned _ => some { l with phase := .waiting }
  | .counting failure, .step => some (l.counted failure)
  | .scheduling attempts head floor, .clock wall mono =>
    some (l.scheduled cfg attempts head floor wall mono)
  | .saving _, .returned _ => some { l with phase := .rescheduled }
  | .rescheduled, .clock wall mono => some (l.awaitDue cfg wall mono false)
  | .succeeded, .step => some { l with lastError := [], stall := none, phase := .waiting }
  | _, _ => none

/-- Adopt what an earlier process left for the lane's head, without sending it; and the record of
the deadline, when it was clamped. -/
def restore (cfg : WorkerConfig) (env : LaneEnv) (backoffFor : Bytes → Option BackoffRecord)
    (l : DeliveryLane) (wall mono now : Int) : DeliveryLane × Option BackoffRecord :=
  match env.head with
  | none => (l, none)
  | some head =>
    let l := l.adoptDurableHold env head
    match backoffFor head.id with
    | none => (l, none)
    | some record =>
      let retryAfter := (record.retryAfterMS.map fun ms => int64 (ms * millisecond)).getD 0
      let latest := wall + cfg.waitBound retryAfter
      let clamped := decide (record.notBeforeMS * millisecond > latest)
      let notBefore := if clamped then ceilMilli latest else record.notBeforeMS * millisecond
      -- the head of the last attempt is not restored
      ({ l with
          notBefore := notBefore
          attempts := record.attempts
          retryAfter := retryAfter
          backoffID := head.id
          monoDue := int64 (mono + max (timeSub notBefore wall) 0)
          lastError := safeFailureReason (.channelRefused 0)
          lastFailureAt := now },
        if clamped then some (backoffRecord head.id notBefore record.attempts retryAfter) else none)

/-- **What a step can do**: the transitions of a lane's goroutine, one by one. -/
inductive Moves (cfg : WorkerConfig) (env : LaneEnv) (l : DeliveryLane) : LaneInput → DeliveryLane →
    Prop where
  /-- It looks at the back-off; only after a wake or the timer may an attempt follow. -/
  | looked {wall mono : Int} (attempts : Bool)
      (hphase : l.phase = .starting ∨ l.phase = .woken ∨ l.phase = .elapsed ∨
        l.phase = .rescheduled)
      (hattempts : attempts = true → l.phase = .woken ∨ l.phase = .elapsed) :
      Moves cfg env l (.clock wall mono) (l.awaitDue cfg wall mono attempts)
  | woke (hphase : l.phase = .waiting) (hwake : l.wake = true) :
      Moves cfg env l .wake { l with wake := false, phase := .woken }
  | fired (hphase : l.phase = .waiting) : Moves cfg env l .timer { l with phase := .reminding }
  | ended (hphase : l.phase = .waiting) : Moves cfg env l .stop { l with phase := .ended }
  /-- It reminds, or goes on to look at the back-off. -/
  | reminded (hphase : l.phase = .reminding) :
      Moves cfg env l .step { l with phase := if l.reminds then .waiting else .elapsed }
  | clamped (record : BackoffRecord) (due : Bool) (result : Except QueueError Unit)
      (hphase : l.phase = .clamping record due) :
      Moves cfg env l (.returned result) { l with phase := if due then .draining else .waiting }
  | drained (hphase : l.phase = .draining) :
      Moves cfg env l .step { l with wake := false, phase := .peeking }
  | peeked (hphase : l.phase = .peeking) :
      Moves cfg env l .step { l with phase := .adopting env.head }
  | adopted (head : Option QueuedArtifact) (hphase : l.phase = .adopting head) :
      Moves cfg env l .step { l.adopted env head with phase := .releasing head }
  | released (head : Option QueuedArtifact) (hphase : l.phase = .releasing head) :
      Moves cfg env l .step (l.released head)
  | began (queued : QueuedArtifact) (hphase : l.phase = .attempting queued) :
      Moves cfg env l .step (l.began queued)
  | answered (queued : QueuedArtifact) (o : ChannelOutcome)
      (hphase : l.phase = .delivering queued) :
      Moves cfg env l (.outcome o) (l.answered cfg env queued o)
  | staged (queued : QueuedArtifact) (r : DeliveryResult) (stored : List AuthorityArtifact)
      (hphase : l.phase = .storing queued r stored []) :
      Moves cfg env l .step { l with phase := .removing queued r stored }
  | stored (queued : QueuedArtifact) (r : DeliveryResult) (stored : List AuthorityArtifact)
      (artifact : AuthorityArtifact) (rest : List AuthorityArtifact)
      (hphase : l.phase = .storing queued r stored (artifact :: rest)) :
      Moves cfg env l (.stored true)
        { l with phase := .storing queued r (stored ++ [artifact]) rest }
  | unstored (queued : QueuedArtifact) (r : DeliveryResult) (stored : List AuthorityArtifact)
      (artifact : AuthorityArtifact) (rest : List AuthorityArtifact)
      (hphase : l.phase = .storing queued r stored (artifact :: rest)) :
      Moves cfg env l (.stored false) (l.spoiled .runtimeSink)
  | removed (queued : QueuedArtifact) (r : DeliveryResult) (stored : List AuthorityArtifact)
      (result : Except QueueError Unit) (hphase : l.phase = .removing queued r stored) :
      Moves cfg env l (.returned result)
        { l with phase := if result.isOk then .retired queued else .failing .queueRetirement }
  | retired (queued : QueuedArtifact) (hphase : l.phase = .retired queued) :
      Moves cfg env l .step
        { l with
          attempts := 0
          attempted := none
          phase := if queued.type = .anchorRegistration then .opening else .succeeded }
  | opened (hphase : l.phase = .opening) : Moves cfg env l .step { l with phase := .handing }
  | handed (hphase : l.phase = .handing) : Moves cfg env l .step { l with phase := .succeeded }
  | held (queued : QueuedArtifact) (status : Int) (reason : Bytes) (t : Int)
      (hphase : l.phase = .holding queued status reason) :
      Moves cfg env l (.now t)
        { l.hold (holdRecord queued status reason (unixMilli t)) false with
          phase := .persisting (holdRecord queued status reason (unixMilli t)) }
  | persisted (record : HoldRecord) (result : Except QueueError Unit)
      (hphase : l.phase = .persisting record) :
      Moves cfg env l (.returned result)
        { l with
          held := l.held.map fun h => { h with persisted := result.isOk }
          phase := .failing .channelPermanentRefusal }
  | failed (failure : DeliveryFailure) (t : Int) (hphase : l.phase = .failing failure) :
      Moves cfg env l (.now t)
        { l with
          lastFailureAt := t
          lastError := safeFailureReason failure
          phase := if failure = .channelPermanentRefusal then .clearing else .stalling failure }
  | stalled (failure : DeliveryFailure) (hphase : l.phase = .stalling failure) :
      Moves cfg env l .step
        { l.noteStall failure with
          phase := if failure = .channelReceiverState then .clearing else .counting failure }
  | cleared (hphase : l.phase = .clearing) : Moves cfg env l .step l.cleared
  | erased (id : Bytes) (result : Except QueueError Unit) (hphase : l.phase = .erasing id) :
      Moves cfg env l (.returned result) { l with phase := .waiting }
  | counted (failure : DeliveryFailure) (hphase : l.phase = .counting failure) :
      Moves cfg env l .step (l.counted failure)
  | scheduled (attempts : Int) (head : Option QueuedArtifact) (floor wall mono : Int)
      (hphase : l.phase = .scheduling attempts head floor) :
      Moves cfg env l (.clock wall mono) (l.scheduled cfg attempts head floor wall mono)
  | saved (record : BackoffRecord) (result : Except QueueError Unit)
      (hphase : l.phase = .saving record) :
      Moves cfg env l (.returned result) { l with phase := .rescheduled }
  | succeeded (hphase : l.phase = .succeeded) :
      Moves cfg env l .step { l with lastError := [], stall := none, phase := .waiting }

/-- **Every step is one of the transitions.** -/
theorem moves {cfg : WorkerConfig} {env : LaneEnv} {l l' : DeliveryLane} {input : LaneInput}
    (h : l.step cfg env input = some l') : Moves cfg env l input l' := by
  unfold step at h
  split at h
  case h_1 hphase => cases h; exact .looked false (.inl hphase) (by simp)
  case h_2 hphase =>
    split at h
    · next hwake => cases h; exact .woke hphase hwake
    · cases h
  case h_3 hphase => cases h; exact .fired hphase
  case h_4 hphase => cases h; exact .ended hphase
  case h_5 hphase => cases h; exact .looked true (.inr (.inl hphase)) fun _ => .inl hphase
  case h_6 hphase => cases h; exact .reminded hphase
  case h_7 hphase => cases h; exact .looked true (.inr (.inr (.inl hphase))) fun _ => .inr hphase
  case h_8 hphase => cases h; exact .clamped _ _ _ hphase
  case h_9 hphase => cases h; exact .drained hphase
  case h_10 hphase => cases h; exact .peeked hphase
  case h_11 hphase => cases h; exact .adopted _ hphase
  case h_12 hphase => cases h; exact .released _ hphase
  case h_13 hphase => cases h; exact .began _ hphase
  case h_14 hphase => cases h; exact .answered _ _ hphase
  case h_15 hphase => cases h; exact .staged _ _ _ hphase
  case h_16 ok hphase =>
    cases h
    cases ok with
    | true => exact .stored _ _ _ _ _ hphase
    | false => exact .unstored _ _ _ _ _ hphase
  case h_17 hphase => cases h; exact .removed _ _ _ _ hphase
  case h_18 hphase => cases h; exact .retired _ hphase
  case h_19 hphase => cases h; exact .opened hphase
  case h_20 hphase => cases h; exact .handed hphase
  case h_21 hphase => cases h; exact .held _ _ _ _ hphase
  case h_22 hphase => cases h; exact .persisted _ _ hphase
  case h_23 hphase => cases h; exact .failed _ _ hphase
  case h_24 hphase => cases h; exact .stalled _ hphase
  case h_25 hphase => cases h; exact .cleared hphase
  case h_26 hphase => cases h; exact .erased _ _ hphase
  case h_27 hphase => cases h; exact .counted _ hphase
  case h_28 hphase => cases h; exact .scheduled _ _ _ _ _ hphase
  case h_29 hphase => cases h; exact .saved _ _ hphase
  case h_30 hphase => cases h; exact .looked false (.inr (.inr (.inr hphase))) (by simp)
  case h_31 hphase => cases h; exact .succeeded hphase
  case h_32 => cases h

end DeliveryLane

/-- The queue's operation a lane makes. -/
def LanePhase.call : LanePhase → Option QueueOp
  | clamping record _ => some (.setBackoff record)
  | removing queued _ _ => some (.remove queued.id)
  | persisting record => some (.hold record)
  | erasing id => some (.clearBackoff id)
  | saving record => some (.setBackoff record)
  | _ => none

/-- Whether a phase is part of an attempt: from the head that was read to its removal or its
hold. -/
def LanePhase.attempt : LanePhase → Bool
  | adopting _ | releasing _ | attempting _ | delivering _ | storing .. | removing .. | holding
      .. => true
  | _ => false

/-- The artifact an attempt is about, up to the outcome of its removal. -/
def LanePhase.queued : LanePhase → Option QueuedArtifact
  | adopting head => head
  | releasing head => head
  | attempting a => some a
  | delivering a => some a
  | storing a _ _ _ => some a
  | removing a _ _ => some a
  | holding a _ _ => some a
  | _ => none

theorem LanePhase.queued_of_not_attempt {phase : LanePhase} (h : phase.attempt = false) :
    phase.queued = none := by
  cases phase <;> first | rfl | cases h

end OriGateway
