import OriGateway.Delivery.Channel
import OriGateway.Delivery.Deadlines

/-! # The sidecars of a record

What the worker writes beside a queue record, the hold of a refusal for good and the back-off of any
other failure, is judged by other code when it is written and again when it is loaded. The two agree
for every response the channel can report, and a restart takes from a back-off just what its lane
kept (**`restore_of_says`**). -/

namespace OriGateway

open Foundation DurableQueue

variable {d wall : Int} {record : BackoffRecord} {l : DeliveryLane} {env : LaneEnv}
  {cfg : WorkerConfig} {q : DurableQueue}

/-! ## Readings -/

/-- A reading of the wall clock that is after its origin, in milliseconds, and below `2 ^ 52` of
them. -/
def InRange (t : Int) : Prop := 0 < unixMilli t ∧ unixMilli t < 2 ^ 52

instance (t : Int) : Decidable (InRange t) := inferInstanceAs (Decidable (_ ∧ _))

/-- A floor of whole milliseconds, no longer than the channel parses. -/
def IsFloor (d : Int) : Prop := ∃ ms, d = ms * millisecond ∧ 0 ≤ ms ∧ ms ≤ maxRetryAfterMS

theorem isFloor_zero : IsFloor 0 := ⟨0, by simp, le_refl _, by decide⟩

theorem isFloor_seconds {seconds : Nat} (h : seconds < 2 ^ 31) : IsFloor (seconds * 10 ^ 9) := by
  refine ⟨seconds * 1000, ?_, by omega, ?_⟩
  · unfold millisecond
    omega
  · unfold maxRetryAfterMS
    omega

theorem IsFloor.nonneg (h : IsFloor d) : 0 ≤ d := by
  obtain ⟨ms, rfl, hnonneg, -⟩ := h
  unfold millisecond
  omega

theorem IsFloor.le_maxInt64 (h : IsFloor d) : d ≤ maxInt64 := by
  obtain ⟨ms, rfl, -, hle⟩ := h
  unfold maxRetryAfterMS at hle
  unfold millisecond maxInt64
  omega

theorem IsFloor.milliseconds (h : IsFloor d) : int64 (d / millisecond * millisecond) = d := by
  have hmax := h.le_maxInt64
  have hnonneg := h.nonneg
  obtain ⟨ms, rfl, -, -⟩ := h
  unfold maxInt64 millisecond at *
  rw [Int.mul_ediv_cancel _ (by norm_num), int64_eq ⟨by omega, by omega⟩]

theorem unixMilli_ceilMilli (t : Int) : unixMilli (ceilMilli t) * millisecond = ceilMilli t := by
  unfold ceilMilli unixMilli millisecond
  dsimp only
  split <;> omega

theorem InRange.deadline {delay : Int} (h : InRange wall) (hpos : 0 < delay)
    (hle : delay ≤ maxInt64) :
    0 < unixMilli (ceilMilli (wall + delay)) ∧
    unixMilli (ceilMilli (wall + delay)) ≤ maxSafeInteger := by
  have hlow := le_ceilMilli (wall + delay)
  have hhigh := ceilMilli_lt (wall + delay)
  unfold InRange at h
  unfold unixMilli millisecond maxInt64 maxSafeInteger at *
  omega

/-! ## Holds -/

def MayHold (status : Int) (reason : Bytes) : Prop :=
  heldRefusalStatus status = true ∧ status ≠ 0 ∧ recordedReason status reason = reason ∧
  held status reason = true

theorem mayHold_of_policy {status : Int} {reason : Bytes} (hstatus : status ∈ refusalStatuses)
    (hpolicy : policy status reason = .hold) : MayHold status (recordedReason status reason) := by
  have hthree := status_of_policy_hold hstatus hpolicy
  have hzero : status ≠ 0 := by omega
  refine ⟨?_, hzero, recordedReason_recordedReason status reason, ?_⟩
  · rcases hthree with rfl | rfl | rfl <;> rfl
  · unfold recordedReason
    rw [if_neg hzero]
    by_cases hmem : reason ∈ statusRefusalReasons status
    · rw [if_pos hmem]
      unfold held
      split
      · rfl
      · simp [hmem, hpolicy]
    · rw [if_neg hmem]
      rfl

/-- **The hold of a refusal is accepted for the record that was refused**, and reads back from its
bytes. -/
theorem holdRecord_valid {queued : QueuedArtifact} {record : QueueRecord} {status : Int}
    {reason : Bytes} {t : Int} (hrecord : record.artifact = queued) (hhold : MayHold status reason)
    (ht : InRange t) :
    validateHoldRecord (DeliveryLane.holdRecord queued status reason (unixMilli t)) record
      = .ok () := by
  obtain ⟨hstatus, -, hreason, hheld⟩ := hhold
  subst hrecord
  unfold InRange at ht
  refine validateHoldRecord_ok.mpr ⟨rfl, rfl, rfl, rfl, ?_, ?_, ht.1, ?_⟩
  · simp only [DeliveryLane.holdRecord, hstatus, if_true, hreason]
    exact hheld
  · simp only [DeliveryLane.holdRecord, hstatus, if_true]
  · show unixMilli t ≤ maxSafeInteger
    unfold maxSafeInteger
    omega

/-! ## Back-offs -/

def BackoffRecord.floor (record : BackoffRecord) : Int :=
  (record.retryAfterMS.map fun ms => int64 (ms * millisecond)).getD 0

/-- **A back-off that is accepted and says what its lane keeps.** -/
structure Says (l : DeliveryLane) (record : BackoffRecord) : Prop where
  valid : validateBackoffRecord record.versioned = .ok ()
  reads : BackoffRecord.unmarshal record.versioned.marshal = some record.versioned
  names : record.queueRecord = l.backoffID
  deadline : record.notBeforeMS * millisecond = l.notBefore
  attempts : record.attempts = l.attempts
  floor : record.floor = l.retryAfter

def IsCount (attempts : Int) : Prop := 1 ≤ attempts ∧ attempts ≤ maxBackoffAttempts

theorem backoffRecord_says (hid : ∀ b ∈ l.backoffID, Json.isPlain b = true)
    (hcount : IsCount l.attempts) (hfloor : IsFloor l.retryAfter)
    (hwhole : unixMilli l.notBefore * millisecond = l.notBefore)
    (hrange : 0 < unixMilli l.notBefore ∧ unixMilli l.notBefore ≤ maxSafeInteger) :
    Says l (DeliveryLane.backoffRecord l.backoffID l.notBefore l.attempts l.retryAfter) := by
  have hcount' : ¬(l.attempts < 1 ∨ maxBackoffAttempts < l.attempts) := by
    unfold IsCount at hcount
    omega
  have hrange' : ¬(unixMilli l.notBefore ≤ 0 ∨ maxSafeInteger < unixMilli l.notBefore) := by omega
  have hvalid : validateBackoffRecord (DeliveryLane.backoffRecord l.backoffID l.notBefore l.attempts
      l.retryAfter).versioned = .ok () := by
    unfold validateBackoffRecord BackoffRecord.versioned DeliveryLane.backoffRecord
    dsimp only
    by_cases hpos : l.retryAfter > 0
    · have hms : ¬(l.retryAfter / millisecond < 1 ∨
          maxRetryAfterMS < l.retryAfter / millisecond) := by
        obtain ⟨ms, heq, -, hle⟩ := hfloor
        rw [heq] at hpos ⊢
        unfold millisecond at hpos ⊢
        omega
      simp [hpos, hcount', hrange', hms, backoffRecordV1, backoffRecordV2]
    · simp [hpos, hcount', hrange', backoffRecordV1, backoffRecordV2]
  refine ⟨hvalid, BackoffRecord.unmarshal_marshal hid hvalid, rfl, hwhole, rfl, ?_⟩
  · unfold BackoffRecord.floor DeliveryLane.backoffRecord
    dsimp only
    split
    · exact hfloor.milliseconds
    · next hpos =>
      have := hfloor.nonneg
      show (0 : Int) = l.retryAfter
      omega

theorem count_and_floor (h : validateBackoffRecord record = .ok ()) :
    1 ≤ record.attempts ∧ record.attempts ≤ maxBackoffAttempts ∧ IsFloor record.floor := by
  unfold validateBackoffRecord at h
  split_ifs at h with _ _ _ _ hcount hfloor
  refine ⟨by omega, by omega, ?_⟩
  unfold BackoffRecord.floor
  cases hms : record.retryAfterMS with
  | none => exact isFloor_zero
  | some ms =>
    simp only [hms, Option.any_some, decide_eq_true_eq, not_or, not_lt] at hfloor
    refine ⟨ms, ?_, by omega, hfloor.2⟩
    show int64 (ms * millisecond) = ms * millisecond
    unfold maxRetryAfterMS at hfloor
    unfold millisecond
    exact int64_eq ⟨by omega, by omega⟩

theorem ceilMilli_mono {t u : Int} (h : t ≤ u) : ceilMilli t ≤ ceilMilli u := by
  unfold ceilMilli unixMilli millisecond
  dsimp only
  split <;> split <;> omega

/-- A restart takes from a back-off what it says: the attempts, the floor and the deadline, which is
bounded as any wait is by what the restart's own clock shows. -/
theorem restore_of_says (h : Says l record) (cfg : WorkerConfig)
    {backoffFor : Bytes → Option BackoffRecord} {head : QueuedArtifact} (l₀ : DeliveryLane)
    (hhead : env.head = some head) (hrecord : backoffFor head.id = some record.versioned)
    (wall mono now : Int) :
    (l₀.restore cfg env backoffFor wall mono now).1.attempts = l.attempts ∧
      (l₀.restore cfg env backoffFor wall mono now).1.retryAfter = l.retryAfter ∧
      (l₀.restore cfg env backoffFor wall mono now).1.notBefore =
        if l.notBefore > wall + cfg.waitBound l.retryAfter then
          ceilMilli (wall + cfg.waitBound l.retryAfter)
        else l.notBefore := by
  have hfloor : (record.versioned.retryAfterMS.map fun ms => int64 (ms * millisecond)).getD 0
    = l.retryAfter := h.floor
  have hdeadline : record.versioned.notBeforeMS * millisecond = l.notBefore := h.deadline
  simp only [DeliveryLane.restore, hhead, hrecord, hfloor, hdeadline, decide_eq_true_eq]
  exact ⟨h.attempts, trivial, trivial⟩

/-- **A back-off that is accepted, written and loaded, restores what its lane kept.** `wall₀` is
what the wall clock showed when it was built. -/
structure Restores (cfg : WorkerConfig) (wall₀ : Int) (l : DeliveryLane) (record : BackoffRecord) :
    Prop where
  valid : validateBackoffRecord record.versioned = .ok ()
  reads : BackoffRecord.unmarshal record.versioned.marshal = some record.versioned
  deadline : record.notBeforeMS * millisecond = l.notBefore
  /-- Whatever the wall clock shows at the restart, the attempts and the floor are the same; the
  deadline is bounded as any wait is, so it is the same when the wall clock did not go back. -/
  restores : ∀ (l₀ : DeliveryLane) (env : LaneEnv) (backoffFor : Bytes → Option BackoffRecord)
    (head : QueuedArtifact)
    (wall mono now : Int), env.head = some head → backoffFor head.id = some record.versioned →
    (l₀.restore cfg env backoffFor wall mono now).1.attempts = l.attempts ∧
    (l₀.restore cfg env backoffFor wall mono now).1.retryAfter = l.retryAfter ∧
    (l₀.restore cfg env backoffFor wall mono now).1.notBefore =
      (if l.notBefore > wall + cfg.waitBound l.retryAfter then
        ceilMilli (wall + cfg.waitBound l.retryAfter) else l.notBefore) ∧
    (wall₀ ≤ wall → (l₀.restore cfg env backoffFor wall mono now).1.notBefore = l.notBefore)

theorem Says.restores (h : Says l record) {wall₀ : Int}
    (hle : l.notBefore ≤ ceilMilli (wall₀ + cfg.waitBound l.retryAfter)) :
    Restores cfg wall₀ l record := by
  refine ⟨h.valid, h.reads, h.deadline, ?_⟩
  intro l₀ env backoffFor head wall mono now hhead hrecord
  obtain ⟨hattempts, hfloor, hdeadline⟩ := restore_of_says h cfg l₀ hhead hrecord wall mono now
  refine ⟨hattempts, hfloor, hdeadline, fun hwall => ?_⟩
  rw [hdeadline]
  split
  · next hgt =>
    -- the deadline is of whole milliseconds, so it is the next one after the bound
    have hlater : l.notBefore ≤ ceilMilli (wall + cfg.waitBound l.retryAfter) :=
      hle.trans (ceilMilli_mono (by omega))
    have hwhole : ceilMilli l.notBefore = l.notBefore := by
      rw [← h.deadline]
      unfold ceilMilli unixMilli millisecond
      dsimp only
      split <;> omega
    rw [← ceilMilli_between hgt.le hlater, hwhole]
  · rfl

/-! ## A lane -/

def LanePhase.silent : LanePhase → Bool
  | clamping .. | saving _ | scheduling .. | holding .. | persisting _ | failing _ | stalling _ |
      counting _ => false
  | _ => true

def IsPlainID (id : Bytes) : Prop := ∀ b ∈ id, Json.isPlain b = true

/-- **What a lane keeps so that what it writes is accepted.** -/
structure Sidecars (head : Option QueuedArtifact) (l : DeliveryLane) : Prop where
  attempts : 0 ≤ l.attempts ∧ l.attempts ≤ maxBackoffAttempts
  counted : l.backoffID ≠ [] → 1 ≤ l.attempts
  dropped : l.phase.afterAttempt = true → l.backoffID = []
  retryAfter : IsFloor l.retryAfter
  backoffID : IsPlainID l.backoffID
  attempted : ∀ a, l.attempted = some a → IsPlainID a.id
  floor : IsFloor l.phase.floor
  scheduling : ∀ attempts head floor, l.phase = .scheduling attempts head floor →
    attempts = l.attempts ∧ 1 ≤ attempts ∧ head = l.attempted
  written : ∀ record ∈ l.phase.written, Says l record
  holding : ∀ a status reason, l.phase = .holding a status reason → MayHold status reason
  persisting : ∀ record, l.phase = .persisting record → ∃ a status reason t, head = some a ∧
    MayHold status reason ∧
    InRange t ∧ record = DeliveryLane.holdRecord a status reason (unixMilli t)

/-- What a lane reads: times in range, and what the channel makes of a response. -/
def LaneInput.Reported (parseMediaType : Bytes → Option Bytes) : LaneInput → Prop
  | clock wall _ => InRange wall
  | now t => InRange t
  | outcome o => ∃ artifact resp, o = deliver parseMediaType artifact resp
  | _ => True

namespace Sidecars

variable {head : Option QueuedArtifact} {cfg : WorkerConfig} {env : LaneEnv} {l l' : DeliveryLane}
  {input : LaneInput} {head' : Option QueuedArtifact} {wall : Int}

theorem floor_of_silent {phase : LanePhase} (h : phase.silent = true) : phase.floor = 0 := by
  cases phase <;> first | rfl | cases h

theorem of_silent (hattempts : 0 ≤ l'.attempts ∧ l'.attempts ≤ maxBackoffAttempts)
    (hcounted : l'.backoffID ≠ [] → 1 ≤ l'.attempts)
    (hdropped : l'.phase.afterAttempt = true → l'.backoffID = [])
    (hretryAfter : IsFloor l'.retryAfter) (hid : IsPlainID l'.backoffID)
    (hattempted : ∀ a, l'.attempted = some a → IsPlainID a.id) (hsilent : l'.phase.silent = true) :
    Sidecars head l' := by
  have hfloor := floor_of_silent hsilent
  refine ⟨hattempts, hcounted, hdropped, hretryAfter, hid,
    hattempted, by rw [hfloor]; exact isFloor_zero, ?_, ?_, ?_, ?_⟩
  all_goals
    cases hphase : l'.phase <;> rw [hphase] at hsilent <;> first | (cases hsilent; done) | nofun

theorem silently (h : Sidecars head l) (hattempts : l'.attempts = l.attempts)
    (hid : l'.backoffID = l.backoffID) (hretryAfter : l'.retryAfter = l.retryAfter)
    (hattempted : l'.attempted = l.attempted) (hsilent : l'.phase.silent = true)
    (hafter : l'.phase.afterAttempt = true → l.phase.afterAttempt = true) : Sidecars head' l' := by
  refine of_silent ?_ ?_ ?_ ?_ ?_ ?_ hsilent
  · rw [hattempts]
    exact h.attempts
  · rw [hid, hattempts]
    exact h.counted
  · rw [hid]
    exact fun hphase => h.dropped (hafter hphase)
  · rw [hretryAfter]
    exact h.retryAfter
  · rw [hid]
    exact h.backoffID
  · rw [hattempted]
    exact h.attempted

theorem failing (h : Sidecars head l) (hattempts : l'.attempts = l.attempts)
    (hid : l'.backoffID = l.backoffID) (hretryAfter : l'.retryAfter = l.retryAfter)
    (hattempted : l'.attempted = l.attempted) (hafter : l.phase.afterAttempt = true)
    {failure : DeliveryFailure}
    (hphase : l'.phase = .failing failure ∨ l'.phase = .stalling failure ∨
      l'.phase = .counting failure) (hfloor : IsFloor failure.floor) : Sidecars head' l' := by
  have hkept : Sidecars head' { l' with phase := .waiting } :=
    h.silently hattempts hid hretryAfter hattempted rfl nofun
  refine ⟨hkept.attempts, hkept.counted, fun _ => hid.trans (h.dropped hafter), hkept.retryAfter,
    hkept.backoffID,
    hkept.attempted, ?_, ?_, ?_, ?_, ?_⟩
  all_goals
    rcases hphase with hphase | hphase | hphase <;> rw [hphase] <;> first | exact hfloor | nofun

theorem looked (hcfg : cfg.maxBackoff ≤ maxInt64) (h : Sidecars head l) (hwall : InRange wall)
    (mono : Int) (attempts : Bool) : Sidecars head' (l.awaitDue cfg wall mono attempts) := by
  have hbound := cfg.waitBound_le hcfg h.retryAfter.le_maxInt64
  have hrange := hwall.deadline (cfg.waitBound_pos l.retryAfter) hbound
  unfold DeliveryLane.awaitDue DeliveryLane.untilDue
  dsimp only
  by_cases hclamp : timeSub l.notBefore wall > cfg.waitBound l.retryAfter
  · rw [if_pos hclamp]
    by_cases hid : l.backoffID = []
    · rw [if_pos hid]
      dsimp only
      split <;> exact h.silently rfl rfl rfl rfl rfl nofun
    · rw [if_neg hid]
      dsimp only
      -- the deadline is moved, and written as it is then
      refine ⟨h.attempts, h.counted, nofun, h.retryAfter, h.backoffID, h.attempted, isFloor_zero,
        nofun, ?_, nofun, nofun⟩
      rintro record ⟨⟩
      exact backoffRecord_says
        (l := { l with notBefore := ceilMilli (wall + cfg.waitBound l.retryAfter), phase := _ })
        h.backoffID ⟨h.counted hid, h.attempts.2⟩ h.retryAfter (unixMilli_ceilMilli _) hrange
  · rw [if_neg hclamp]
    dsimp only
    split <;> exact h.silently rfl rfl rfl rfl rfl nofun

theorem scheduled (hcfg : cfg.maxBackoff ≤ maxInt64) (h : Sidecars head l) {attempts : Int}
    {queued : Option QueuedArtifact} {floor : Int}
    (hphase : l.phase = .scheduling attempts queued floor) (hwall : InRange wall) (mono : Int) :
    Sidecars head' (l.scheduled cfg attempts queued floor wall mono) := by
  obtain ⟨rfl, hpos, rfl⟩ := h.scheduling attempts queued floor hphase
  have hfloor : IsFloor floor := by
    have hf := h.floor
    rwa [hphase] at hf
  have hdelay := (cfg.backoffDelay_le l.attempts floor).trans
    (cfg.waitBound_le hcfg hfloor.le_maxInt64)
  have hrange := hwall.deadline (cfg.backoffDelay_pos l.attempts floor) hdelay
  cases hattempted : l.attempted with
  | none =>
    exact of_silent h.attempts (fun _ => hpos) nofun hfloor (by rintro b ⟨⟩)
      (fun a ha => h.attempted a ha) rfl
  | some a =>
    have hplain := h.attempted a hattempted
    refine ⟨h.attempts, fun _ => hpos, nofun, hfloor, hplain, h.attempted, isFloor_zero, nofun, ?_,
      nofun, nofun⟩
    rintro record ⟨⟩
    exact backoffRecord_says (l := l.scheduled cfg l.attempts (some a) floor wall mono) hplain
      ⟨hpos, h.attempts.2⟩ hfloor
      (unixMilli_ceilMilli _) hrange

theorem of_deliver {parseMediaType : Bytes → Option Bytes} {artifact : QueuedArtifact}
    {resp : Option HTTPResponse} {r : DeliveryResult}
    (h : deliver parseMediaType artifact resp = .result r) :
    r.accepted = true ∨ ∃ status reason, ∃ seconds : Nat,
    r = refusalResult status reason (seconds * 10 ^ 9) ∧
      seconds < 2 ^ 31 ∧ status ∈ refusalStatuses := by
  cases resp with
  | none => cases h
  | some resp =>
    unfold deliver deliverResponse at h
    dsimp only at h
    cases hread : readResponse parseMediaType resp with
    | error e => rw [hread] at h; cases h
    | ok wire =>
      rw [hread] at h
      dsimp only at h
      by_cases hstatus : resp.statusCode = 200
      · rw [if_neg (not_not.mpr hstatus)] at h
        cases haccepted : acceptedDeliveryResult wire (payloadDigest artifact.payload) with
        | error e => rw [haccepted] at h; cases h
        | ok r' =>
          rw [haccepted] at h
          cases h
          exact .inl (acceptedDeliveryResult_eq_ok haccepted).1
      · rw [if_pos hstatus] at h
        cases hrefused : refusedDeliveryResult resp wire (payloadDigest artifact.payload) with
        | error e => rw [hrefused] at h; cases h
        | ok r' =>
          rw [hrefused] at h
          cases h
          obtain ⟨seconds, heq, hlt, hmem, -⟩ := refusedDeliveryResult_eq_ok hrefused
          exact .inr ⟨_, _, seconds, heq, hlt, hmem⟩

theorem answered {parseMediaType : Bytes → Option Bytes} (h : Sidecars head l)
    {head' : Option QueuedArtifact} {queued : QueuedArtifact} {o : ChannelOutcome}
    (hphase : l.phase = .delivering queued) (ho : LaneInput.Reported parseMediaType (.outcome o)) :
    Sidecars head' (l.answered cfg env queued o) := by
  have hafter : l.phase.afterAttempt = true := by rw [hphase]; rfl
  obtain ⟨artifact, resp, rfl⟩ := ho
  cases hdeliver : deliver parseMediaType artifact resp with
  | unrecognised => exact h.failing rfl rfl rfl rfl hafter (.inl rfl) isFloor_zero
  | unavailable => exact h.failing rfl rfl rfl rfl hafter (.inl rfl) isFloor_zero
  | result r =>
    rcases of_deliver hdeliver with haccepted | ⟨status, reason, seconds, rfl, hlt, hmem⟩
    · simp only [DeliveryLane.answered, haccepted, Bool.not_true, Bool.false_eq_true, if_false]
      split
      · exact h.failing rfl rfl rfl rfl hafter (.inl rfl) isFloor_zero
      · split
        · exact h.failing rfl rfl rfl rfl hafter (.inl rfl) isFloor_zero
        · split
          · exact h.failing rfl rfl rfl rfl hafter (.inl rfl) isFloor_zero
          · exact h.silently rfl rfl rfl rfl rfl fun _ => hafter
    · rw [DeliveryLane.answered_refusalResult]
      cases hpolicy : policy status reason with
      | hold =>
        simp only [refusedPhase, hpolicy]
        refine ⟨h.attempts, h.counted, fun _ => h.dropped hafter, h.retryAfter, h.backoffID,
          h.attempted, isFloor_zero,
          fun _ _ _ heq => ?_, fun _ heq => ?_, ?_, fun _ heq => ?_⟩
        · cases heq
        · cases heq
        · rintro a status' reason' ⟨⟩
          exact mayHold_of_policy hmem hpolicy
        · cases heq
      | handoff =>
        simp only [refusedPhase, hpolicy]
        exact h.failing rfl rfl rfl rfl hafter (.inl rfl) isFloor_zero
      | backoff =>
        simp only [refusedPhase, hpolicy]
        exact h.failing rfl rfl rfl rfl hafter (.inl rfl) (isFloor_seconds hlt)

/-- **A step keeps to it.** `head` is the head of the lane in the queue. -/
theorem step {parseMediaType : Bytes → Option Bytes} (hcfg : cfg.maxBackoff ≤ maxInt64)
    (h : Sidecars head l) (hstep : l.step cfg env input = some l')
    (hinput : input.Reported parseMediaType)
    (hplain : ∀ a, l.phase.queued = some a → IsPlainID a.id)
    (hhead : ∀ a, l.phase.queued = some a → head = some a) : Sidecars head l' := by
  cases DeliveryLane.moves hstep with
  | looked attempts hphase => exact h.looked hcfg hinput _ attempts
  | scheduled attempts queued floor wall mono hphase => exact h.scheduled hcfg hphase hinput mono
  | answered queued o hphase => exact h.answered hphase hinput
  | began queued hphase =>
    refine of_silent ?_ (fun hne => absurd rfl hne) (fun _ => rfl) isFloor_zero (by rintro b ⟨⟩) ?_
      rfl
    · show 0 ≤ (if _ then l.attempts else 0) ∧ (if _ then l.attempts else 0) ≤ maxBackoffAttempts
      split
      · exact h.attempts
      · exact ⟨le_refl _, by decide⟩
    · rintro a ⟨⟩
      exact hplain queued (by rw [hphase]; rfl)
  | cleared hphase =>
    refine of_silent ⟨le_refl _, (by decide : (0 : Int) ≤ maxBackoffAttempts)⟩
      (fun hne => absurd rfl hne) (fun _ => rfl) isFloor_zero (by rintro b ⟨⟩)
      h.attempted ?_
    unfold DeliveryLane.cleared
    dsimp only
    split <;> rfl
  | counted failure hphase =>
    have hcount : 1 ≤ (l.counted failure).attempts ∧
        (l.counted failure).attempts ≤ maxBackoffAttempts := by
      have hattempts := h.attempts
      unfold DeliveryLane.counted
      unfold maxBackoffAttempts at *
      dsimp only
      split <;> omega
    have hfloor := h.floor
    rw [hphase] at hfloor
    refine ⟨⟨by omega, hcount.2⟩, fun _ => hcount.1, fun _ => h.dropped (by rw [hphase]; rfl),
      h.retryAfter, h.backoffID,
      h.attempted, hfloor, ?_, nofun, nofun, nofun⟩
    rintro attempts queued floor heq
    cases heq
    exact ⟨rfl, hcount.1, rfl⟩
  | held queued status reason t hphase =>
    refine ⟨h.attempts, h.counted, fun _ => h.dropped (by rw [hphase]; rfl), h.retryAfter,
      h.backoffID, h.attempted,
      isFloor_zero, nofun, nofun, nofun, ?_⟩
    rintro record ⟨⟩
    exact ⟨queued, status, reason, t, hhead queued (by rw [hphase]; rfl), h.holding _ _ _ hphase,
      hinput, rfl⟩
  | retired queued hphase =>
    have hdropped := h.dropped (by rw [hphase]; rfl)
    refine of_silent ⟨le_refl _, (by decide : (0 : Int) ≤ maxBackoffAttempts)⟩
      (fun hne => absurd hdropped hne) (fun _ => hdropped) h.retryAfter h.backoffID
      nofun ?_
    dsimp only
    split <;> rfl
  | removed queued r stored result hphase =>
    have hafter : l.phase.afterAttempt = true := by rw [hphase]; rfl
    cases hok : result.isOk with
    | true => exact h.silently rfl rfl rfl rfl rfl fun _ => hafter
    | false => exact h.failing rfl rfl rfl rfl hafter (.inl rfl) isFloor_zero
  | unstored queued r stored artifact rest hphase =>
    exact h.failing rfl rfl rfl rfl (by rw [hphase]; rfl) (.inl rfl) isFloor_zero
  | persisted record result hphase =>
    exact h.failing rfl rfl rfl rfl (by rw [hphase]; rfl) (.inl rfl) isFloor_zero
  | failed failure t hphase =>
    have hafter : l.phase.afterAttempt = true := by rw [hphase]; rfl
    have hfloor := h.floor
    rw [hphase] at hfloor
    by_cases hpermanent : failure = .channelPermanentRefusal
    · exact h.silently rfl rfl rfl rfl (by simp [hpermanent]; rfl) fun _ => hafter
    · exact h.failing rfl rfl rfl rfl hafter (.inr (.inl (by simp [hpermanent]))) hfloor
  | stalled failure hphase =>
    have hafter : l.phase.afterAttempt = true := by rw [hphase]; rfl
    have hfloor := h.floor
    rw [hphase] at hfloor
    by_cases hstate : failure = .channelReceiverState
    · exact h.silently rfl rfl rfl rfl (by simp [hstate]; rfl) fun _ => hafter
    · exact h.failing rfl rfl rfl rfl hafter (.inr (.inr (by simp [hstate]))) hfloor
  | adopted queued hphase =>
    have hkept : (l.adopted env queued).attempts = l.attempts ∧
      (l.adopted env queued).backoffID = l.backoffID ∧
        (l.adopted env queued).retryAfter = l.retryAfter ∧
        (l.adopted env queued).attempted = l.attempted := by
      cases queued with
      | none => exact ⟨rfl, rfl, rfl, rfl⟩
      | some a =>
        rw [show l.adopted env (some a) = l.adoptDurableHold env a from rfl]
        rcases l.adoptDurableHold_cases env a with heq | ⟨_, heq⟩ <;> rw [heq] <;>
          exact ⟨rfl, rfl, rfl, rfl⟩
    exact h.silently hkept.1 hkept.2.1 hkept.2.2.1 hkept.2.2.2 rfl nofun
  | released queued hphase =>
    unfold DeliveryLane.released
    split
    · split <;> exact h.silently rfl rfl rfl rfl rfl nofun
    · exact h.silently rfl rfl rfl rfl rfl nofun
  | reminded hphase | clamped record due result hphase =>
    refine h.silently rfl rfl rfl rfl ?_ ?_ <;> dsimp only <;> split
    all_goals first | rfl | (intro hx; cases hx)
  | staged _ _ _ hphase | stored _ _ _ _ _ hphase | opened hphase =>
    exact h.silently rfl rfl rfl rfl rfl fun _ => by rw [hphase]; rfl
  | _ => exact h.silently rfl rfl rfl rfl rfl nofun

theorem not_persisting_of_returned {result : Except QueueError Unit}
    (hstep : l.step cfg env (.returned result) = some l') (record : HoldRecord) :
    l'.phase ≠ .persisting record := by
  generalize hinput : LaneInput.returned result = input at hstep
  cases DeliveryLane.moves hstep with
  | clamped | removed =>
    dsimp only
    split <;> nofun
  | persisted | erased | saved => nofun
  | _ => cases hinput

theorem congr_head (h : Sidecars head l)
    (hhead : (∀ record, l.phase ≠ .persisting record) ∨ ∀ a, head = some a → head' = some a) :
    Sidecars head' l := by
  refine { h with persisting := fun record hphase => ?_ }
  rcases hhead with hnone | hsame
  · exact absurd hphase (hnone record)
  · obtain ⟨a, status, reason, t, hhead, hrest⟩ := h.persisting record hphase
    exact ⟨a, status, reason, t, hsame a hhead, hrest⟩

theorem fresh : Sidecars head .fresh :=
  of_silent ⟨le_refl _, (by decide : (0 : Int) ≤ maxBackoffAttempts)⟩ (fun hne => absurd rfl hne)
    nofun isFloor_zero
    (by rintro b ⟨⟩) nofun rfl

theorem restored (hcfg : cfg.maxBackoff ≤ maxInt64) (h : Sidecars head l)
    (hphase : l.phase = .starting) {backoffFor : Bytes → Option BackoffRecord}
    (hbackoffs : ∀ id b, backoffFor id = some b → validateBackoffRecord b = .ok ())
    (hplain : ∀ a, env.head = some a → IsPlainID a.id) (hwall : InRange wall) (mono now : Int) :
    Sidecars head (l.restore cfg env backoffFor wall mono now).1 ∧
      ∀ record, (l.restore cfg env backoffFor wall mono now).2 = some record →
        Says (l.restore cfg env backoffFor wall mono now).1 record := by
  have hstart := DeliveryLane.phase_restore cfg env backoffFor l wall mono now
  rw [hphase] at hstart
  unfold DeliveryLane.restore at hstart ⊢
  split at hstart
  · exact ⟨h, nofun⟩
  · next a ha =>
    dsimp only at hstart ⊢
    have hkept : Sidecars head (l.adoptDurableHold env a) := by
      rcases l.adoptDurableHold_cases env a with heq | ⟨_, heq⟩
      · rw [heq]
        exact h
      · rw [heq]
        exact h.silently rfl rfl rfl rfl
          (by rw [show (l.hold _ true).phase = l.phase from rfl, hphase]; rfl) id
    split at hstart
    · exact ⟨hkept, nofun⟩
    · next record hrecord =>
      dsimp only at hstart ⊢
      obtain ⟨hlow, hhigh, hfloor⟩ := count_and_floor (hbackoffs a.id record hrecord)
      have hbound := cfg.waitBound_le hcfg hfloor.le_maxInt64
      have hrange := hwall.deadline (cfg.waitBound_pos _) hbound
      have hafter : (l.adoptDurableHold env a).phase.afterAttempt = false := by rw [hstart]; rfl
      have hsilent : (l.adoptDurableHold env a).phase.silent = true := by rw [hstart]; rfl
      refine ⟨of_silent ⟨zero_le_one.trans hlow, hhigh⟩ (fun _ => hlow)
        (fun hx => by rw [hafter] at hx; cases hx) hfloor (hplain a ha)
        hkept.attempted hsilent, ?_⟩
      intro clamp hclamp
      split at hclamp
      · next hclamped =>
        cases hclamp
        rw [if_pos hclamped]
        exact backoffRecord_says (l := { l.adoptDurableHold env a with
          notBefore := _, attempts :=
            _, retryAfter := _, backoffID := _, monoDue := _, lastError := _, lastFailureAt := _ })
          (hplain a ha) ⟨hlow, hhigh⟩ hfloor (unixMilli_ceilMilli _) hrange
      · cases hclamp

end Sidecars

/-! ## The queue -/

def BackoffsValid (q : DurableQueue) : Prop :=
  ∀ id b, q.backoffs.lookup id = some b → validateBackoffRecord b = .ok ()

theorem backoffsValid_of_open {opts : QueueOptions} {d : Directory}
    (h : openDurableQueue opts d = .ok q) (hbelow : Below q.entries) : BackoffsValid q := by
  obtain ⟨-, -, -, q₀, hshares, hload⟩ := openDurableQueue_ok h
  obtain ⟨st, q₁, q₂, hloading, hholds, hbackoffs, hdevices⟩ :=
    load_ok (loading_reserveShares hshares) hload hbelow
  have hsorted : BackoffsValid st.queue.sortOrder := by
    intro id b hb
    rw [show st.queue.sortOrder.backoffs = st.queue.backoffs from rfl, hloading.backoffs] at hb
    cases hb
  have h₁ : BackoffsValid q₁ := by
    refine foldlM_ok_induction (fun q name q' hq hname => ?_) hsorted hholds
    obtain ⟨record, queued, -, -, rfl⟩ := loadHold_ok hname
    exact hq
  have h₂ : BackoffsValid q₂ := by
    refine foldlM_ok_induction (fun q name q' hq hname => ?_) h₁ hbackoffs
    obtain ⟨record, queued, -, hcheck, rfl⟩ := loadBackoff_ok hname
    exact forall_lookup_insert hq hcheck
  rw [loadUnconfigured_same hdevices]
  exact h₂

theorem BackoffsValid.forget (h : BackoffsValid q) (kind : Sidecar) (id : Bytes) :
    BackoffsValid (kind.forget id q) := by
  cases kind with
  | hold => exact h
  | backoff => exact fun id' b hb => h id' b (lookup_of_erase hb)

theorem Effect.backoffsValid {op : QueueOp} {q' : DurableQueue} {r : Except QueueError Unit}
    (h : Effect op q r q') (hq : BackoffsValid q) : BackoffsValid q' := by
  induction h with
  | refused | found | probed | foundStaged => exact hq
  | admitted | staged | held => exact hq
  | backedOff queued hlookup hcheck => exact forall_lookup_insert hq hcheck
  | cleared => exact hq.forget .backoff _
  | unheld e => exact hq.forget .hold _
  | bared e => exact (hq.forget .hold _).forget .backoff _
  | retired r hlookup => exact (hq.forget .hold _).forget .backoff _
  | noted r hc | notedAdmitted hc =>
    rw [hc.same]
    exact hq
  | faults _ hs ih =>
    rw [hs]
    exact ih hq

theorem record_of_mem (hq : Consistent q) {a : QueuedArtifact} (ha : a ∈ q.artifacts) :
    ∃ r, q.entries.lookup a.id = some r ∧ r.artifact = a ∧ r.Sound := by
  obtain ⟨id, hid, rfl⟩ := List.mem_map.mp ha
  obtain ⟨r, hr⟩ := mem_keys_iff.mp (hq.mem_order.mp hid)
  have hsound := hq.sound id r hr
  rw [entry_of_lookup hr]
  refine ⟨r, ?_, rfl, hsound.1⟩
  rw [show r.artifact.id = id from hsound.2, hr]

/-! ## Over every run -/

/-- What the worker reads: times in range, and what the channel makes of a response. -/
def WorkerEvent.Reported (parseMediaType : Bytes → Option Bytes) : WorkerEvent → Prop
  | restore wall _ _ => InRange wall
  | step _ input => input.Reported parseMediaType
  | _ => True

namespace Worker

variable {w w' : Worker} {e : WorkerEvent} {n : Nat}

theorem clamp_change (h : w.step e = some w') {record : BackoffRecord}
    (hclamp : w'.clamp = some record) :
    (∃ key wall mono now, e = .restore wall mono now ∧ w.running = false ∧
      w'.lanes.lookup key
        = some ((w.laneAt key).restore w.config (w.env key) w.queue.mem.backoffs.lookup wall mono
          now).1 ∧
      ((w.laneAt key).restore w.config (w.env key) w.queue.mem.backoffs.lookup wall mono now).2
        = some record) ∨
    w.clamp = some record ∧ (∀ wall mono now, e ≠ .restore wall mono now) ∧
      (w.running = true ∨ w'.lanes = w.lanes ∧ w'.running = w.running) := by
  -- while it is to be written the worker is not there
  have hready : w.clamp = some record → w.ready = false := by
    intro hsome
    simp [ready, hsome]
  cases steps_of_step h with
  | queue => exact .inr ⟨hclamp, nofun, .inr ⟨rfl, rfl⟩⟩
  | clamp => cases hclamp
  | call hrunning _ _ hlane =>
    exact .inr ⟨(frame_laneStep hlane).2.2.2.symm.trans hclamp, nofun, .inl hrunning⟩
  | @restore wall mono now key rest hrunning =>
    refine .inl ⟨key, wall, mono, now, rfl, hrunning, ?_, hclamp⟩
    exact (lookup_setLane w key key _).trans (if_pos rfl)
  | run hguard | lane hguard | notify hguard =>
    exact absurd ((hready hclamp).symm.trans hguard) Bool.false_ne_true
  | step hrunning _ hlane =>
    exact .inr ⟨(frame_laneStep hlane).2.2.2.symm.trans hclamp, nofun, .inl hrunning⟩

/-- **What a worker keeps so that every sidecar it writes is accepted.** -/
structure WritesSidecars (cfg : WorkerConfig) (n : Nat) (w : Worker) : Prop where
  config : w.config = cfg
  heads : Heads n w
  backoffs : BackoffsValid w.queue.mem
  lanes : ∀ key l, w.lanes.lookup key = some l → Sidecars (w.queue.mem.peekLane key) l
  starting : w.running = false → ∀ key l, w.lanes.lookup key = some l → l.phase = .starting
  clamp : ∀ record, w.clamp = some record →
    w.running = false ∧ ∃ key l, w.lanes.lookup key = some l ∧ Says l record

theorem Heads.isPlainID (hw : Heads n w) {key : LaneKey} {a : QueuedArtifact}
    (ha : w.queue.mem.peekLane key = some a) : IsPlainID a.id := by
  obtain ⟨r, -, rfl, hsound⟩ := record_of_mem hw.consistent (hw.consistent.of_peekLane ha).1
  exact hsound.isPlain_id

theorem WritesSidecars.new (cfg : WorkerConfig) {queue : World DurableQueue}
    (hq : Roomy n queue.mem) (hbackoffs : BackoffsValid queue.mem) :
    WritesSidecars cfg n (newDeliveryWorker cfg queue) :=
  ⟨rfl, .new cfg hq, hbackoffs, fun key l hl => (by cases hl), fun _ key l hl => (by cases hl),
    nofun⟩

theorem WritesSidecars.laneAt {cfg : WorkerConfig} (hw : WritesSidecars cfg n w) (key : LaneKey) :
    Sidecars (w.queue.mem.peekLane key) (w.laneAt key) ∧
    (w.running = false → (w.laneAt key).phase = .starting) := by
  unfold Worker.laneAt
  cases hl : w.lanes.lookup key with
  | none => exact ⟨.fresh, fun _ => rfl⟩
  | some l => exact ⟨hw.lanes key l hl, fun hstill => hw.starting hstill key l hl⟩

theorem WritesSidecars.restored {cfg : WorkerConfig} (hcfg : cfg.maxBackoff ≤ maxInt64)
    (hw : WritesSidecars cfg n w) (hstill : w.running = false) (key : LaneKey) {wall : Int}
    (hwall : InRange wall) (mono now : Int) :
    Sidecars (w.queue.mem.peekLane key)
        ((w.laneAt key).restore w.config (w.env key) w.queue.mem.backoffs.lookup wall mono now).1 ∧
      ∀ record, ((w.laneAt key).restore w.config (w.env key) w.queue.mem.backoffs.lookup wall mono
        now).2 = some record →
        Says ((w.laneAt key).restore w.config (w.env key) w.queue.mem.backoffs.lookup wall mono
          now).1 record :=
  (hw.laneAt key).1.restored (by rw [hw.config]; exact hcfg) ((hw.laneAt key).2 hstill) hw.backoffs
    (fun _ ha => hw.heads.isPlainID ha) hwall mono now

/-- **Every step keeps to it.** -/
theorem WritesSidecars.step {cfg : WorkerConfig} {parseMediaType : Bytes → Option Bytes}
    (hcfg : cfg.maxBackoff ≤ maxInt64) (hw : WritesSidecars cfg (n + 1) w)
    (he : e.Reported parseMediaType) (h : w.step e = some w') : WritesSidecars cfg n w' := by
  refine ⟨(settings_step h).1.trans hw.config, hw.heads.step h, ?_, ?_, ?_, ?_⟩
  · rcases queue_change h with ⟨-, hqueue⟩ | ⟨c, result, hcall, hrun⟩
    · rw [hqueue]
      exact hw.backoffs
    · exact (QueueCall.effect hw.heads.consistent hrun).backoffsValid hw.backoffs
  · intro key l' hl'
    -- another lane's step leaves the head of this one
    have hother : e.actor ≠ some key → ∀ l, Sidecars (w.queue.mem.peekLane key) l →
        Sidecars (w'.queue.mem.peekLane key) l := by
      intro hactor l hl
      refine hl.congr_head (.inr fun a ha => peekLane_step h hw.heads ha ?_)
      rintro script rfl
      exact hactor rfl
    have hchange := lane_change h key
    rw [hl'] at hchange
    generalize ho : w.lanes.lookup key = o at hchange
    generalize ho' : some l' = o' at hchange
    cases hchange with
    | same _ hactor => exact hother hactor l' (hw.lanes key l' (ho.trans ho'.symm))
    | created hactor =>
      cases ho'
      exact .fresh
    | notified _ hactor =>
      cases ho'
      have hkept := (hw.laneAt key).1
      rw [Worker.laneAt, ho] at hkept
      exact hother hactor _ { hkept with
        written := fun record hr => { hkept.written record hr with } }
    | restored _ wall mono now hevent hstill =>
      subst hevent
      cases ho'
      have hkept := (hw.restored hcfg hstill key he mono now).1
      rw [Worker.laneAt, ho] at hkept
      exact hother (fun hactor => by cases hactor) _ hkept
    | stepped l l'' input hrunning hsignals hdrives hstep =>
      cases ho'
      have hkept := hw.lanes key l ho
      have hinput : input.Reported parseMediaType := by
        cases hdrives with
        | step => exact he
        | call => trivial
      have hone : Sidecars (w.queue.mem.peekLane key) l' :=
        hkept.step (by rw [hw.config]; exact hcfg) hstep hinput
          (fun a ha => hw.heads.isPlainID (hw.heads.head key l a ho ha))
            (fun a ha => hw.heads.head key l a ho ha)
      cases hdrives with
      | step =>
        refine hone.congr_head (.inr fun a ha => peekLane_step h hw.heads ha fun script heq => ?_)
        cases heq
      | call => exact hone.congr_head (.inl (Sidecars.not_persisting_of_returned hstep))
  · intro hstill' key l' hl'
    have hstill : w.running = false := by
      cases hrunning : w.running with
      | false => rfl
      | true => rw [(settings_step h).2 hrunning] at hstill'; cases hstill'
    have hchange := lane_change h key
    rw [hl'] at hchange
    generalize ho : w.lanes.lookup key = o at hchange
    generalize ho' : some l' = o' at hchange
    have hstart := (hw.laneAt key).2 hstill
    rw [Worker.laneAt, ho] at hstart
    cases hchange with
    | same => exact hw.starting hstill key l' (ho.trans ho'.symm)
    | created =>
      cases ho'
      rfl
    | notified =>
      cases ho'
      exact hstart
    | restored =>
      cases ho'
      rw [DeliveryLane.phase_restore]
      exact hstart
    | stepped _ _ _ hrunning => rw [hstill] at hrunning; cases hrunning
  · intro record hclamp
    rcases clamp_change h hclamp with ⟨key, wall, mono, now, rfl, hstill, hl, hrecord⟩ |
      ⟨hsome, -, hcase⟩
    · refine ⟨?_, key, _, hl, (hw.restored hcfg hstill key he mono now).2 record hrecord⟩
      cases hrunning : w'.running with
      | false => rfl
      | true =>
        cases steps_of_step h with
        | restore => exact Bool.noConfusion (hrunning.symm.trans hstill)
    · obtain ⟨hstill, key, l, hl, hsays⟩ := hw.clamp record hsome
      rcases hcase with hrunning | ⟨hlanes, hrunning⟩
      · rw [hstill] at hrunning
        cases hrunning
      · exact ⟨hrunning.trans hstill, key, l, by rw [hlanes]; exact hl, hsays⟩

end Worker

/-! ## Every sidecar that is written -/

theorem DeliveryLane.written_le {l' : DeliveryLane} {mono : Int}
    (h : l.step cfg env (.clock wall mono) = some l') (hwritten : l'.phase.written = some record) :
    l'.notBefore ≤ ceilMilli (wall + cfg.waitBound l'.retryAfter) := by
  cases deadlineChange h with
  | looked _ _ attempts =>
    unfold awaitDue untilDue at hwritten ⊢
    dsimp only at hwritten ⊢
    by_cases hclamp : timeSub l.notBefore wall > cfg.waitBound l.retryAfter
    · rw [if_pos hclamp]
      by_cases hid : l.backoffID = []
      · rw [if_pos hid]
      · rw [if_neg hid]
    · rw [if_neg hclamp] at hwritten
      dsimp only at hwritten
      split at hwritten <;> cases hwritten
  | scheduled attempts head floor =>
    show ceilMilli (wall + cfg.backoffDelay attempts floor) ≤ ceilMilli (wall + cfg.waitBound floor)
    exact ceilMilli_mono (add_le_add_right (cfg.backoffDelay_le attempts floor) wall)
  | kept _ _ _ _ _ _ _ _ _ hnone => rw [hnone] at hwritten; cases hwritten

theorem DeliveryLane.restored_le {backoffFor : Bytes → Option BackoffRecord} {mono now : Int}
    (h : (l.restore cfg env backoffFor wall mono now).2 = some record) :
    (l.restore cfg env backoffFor wall mono now).1.notBefore ≤
      ceilMilli (wall + cfg.waitBound
        (l.restore cfg env backoffFor wall mono now).1.retryAfter) := by
  unfold restore at h ⊢
  split at h
  · cases h
  · dsimp only at h ⊢
    split at h
    · cases h
    · dsimp only at h ⊢
      split at h
      · next hclamped => rw [if_pos hclamped]
      · cases h

/-- **Every sidecar the worker writes is accepted, and says what the worker keeps.** In every run of
a worker whose queue was opened with its places below `2 ^ 62`, of fewer events than that, with
times in range and whatever responses the channel gets: a hold that is written is accepted for the
queue record that was refused, and is loaded as it was written; and a back-off built by a lane's
step, or by a restart, is accepted, is loaded as it was written, and restores the attempts, the
floor and, bounded as any wait is, the deadline. -/
theorem sidecars_valid {opts : QueueOptions} {d : Directory} {q : DurableQueue}
    (config : WorkerConfig) (hcfg : config.maxBackoff ≤ maxInt64)
    (hopen : openDurableQueue opts d = .ok q) (hearly : EarlyPlaces q) (temps : Nat)
    (parseMediaType : Bytes → Option Bytes) {es : List WorkerEvent}
    (hevents : es.length + 1 < 2 ^ 62) (hes : ∀ e ∈ es, e.Reported parseMediaType) {w : Worker}
    (hrun : runAll Worker.step (newDeliveryWorker config (openedWorld q d temps)) es = some w) :
    (∀ key l record, w.lanes.lookup key = some l → l.phase = .persisting record →
      ∃ queued, w.queue.mem.entries.lookup record.queueRecord = some queued ∧
        validateHoldRecord record.versioned queued = .ok () ∧
        HoldRecord.unmarshal record.versioned.marshal = some record.versioned) ∧
    (∀ key wall₀ mono₀ w' l record, InRange wall₀ →
      w.step (.step key (.clock wall₀ mono₀)) = some w' →
      w'.lanes.lookup key = some l → l.phase.written = some record →
      Restores config wall₀ l record) ∧
    (∀ wall₀ mono₀ now w' record, InRange wall₀ → w.step (.restore wall₀ mono₀ now) = some w' →
      w'.clamp = some record → ∃ key l, w'.lanes.lookup key = some l ∧
      Restores config wall₀ l record) := by
  have hroomy : Roomy (1 + es.length) q := hearly.roomy hopen (by omega)
  have hw : Worker.WritesSidecars config 1 w :=
    runAll_countdown (fun _ s e s' he hs h => hs.step hcfg he h) (stepsMeet_of_mem _ hes)
      (.new config hroomy (backoffsValid_of_open hopen hearly.below)) hrun
  refine ⟨?_, ?_, ?_⟩
  · intro key l record hl hphase
    obtain ⟨a, status, reason, t, hhead, hhold, ht, rfl⟩ :=
      (hw.lanes key l hl).persisting record hphase
    obtain ⟨queued, hlookup, hartifact, hsound⟩ :=
      record_of_mem hw.heads.consistent (hw.heads.consistent.of_peekLane hhead).1
    have hvalid := holdRecord_valid hartifact hhold ht
    exact ⟨queued, hlookup, hvalid, HoldRecord.unmarshal_marshal hsound hvalid⟩
  · intro key wall₀ mono₀ w' l' record hwall hstep hl' hwritten
    have he : WorkerEvent.Reported parseMediaType (.step key (.clock wall₀ mono₀)) := hwall
    have hw' := hw.step hcfg he hstep
    refine ((hw'.lanes key l' hl').written record hwritten).restores ?_
    rcases Worker.phase_change hstep hl' with hstart | ⟨l, -, hactor, -⟩ |
      ⟨l, input, -, hdrives, hone⟩
    · rw [hstart] at hwritten
      cases hwritten
    · exact absurd rfl hactor
    · rw [hw.config] at hone
      cases hdrives with
      | step => exact DeliveryLane.written_le hone hwritten
  · intro wall₀ mono₀ now w' record hwall hstep hclamp
    rcases Worker.clamp_change hstep hclamp with ⟨key, wall, mono, now, heq, hstill, hl, hrecord⟩ |
      ⟨-, hnot, -⟩
    · cases heq
      have hsays := (hw.restored hcfg hstill key hwall mono₀ now).2 record hrecord
      refine ⟨key, _, hl, hsays.restores ?_⟩
      have hle := DeliveryLane.restored_le hrecord
      rwa [hw.config] at hle ⊢
    · exact absurd rfl (hnot _ _ _)

def rateLimited : HTTPResponse where
  statusCode := 429
  contentType := ascii "application/json"
  retryAfter := ascii " 2"
  body := ascii "\x7b\"v\":1,\"outcome\":\"pending\",\"reason\":\"rate_limited\"," ++
    ascii "\"artifact_digest\":\"" ++
    payloadDigest (ascii "\x7b\"device_id\":\"d\",\"local_seq\":3\x7d") ++ ascii "\"\x7d"

/-- A head is delivered at a wall reading, and the response asks to wait; the back-off is not set
yet. -/
def limitedEvents (wall : Int) : List WorkerEvent :=
  envelopeEvents ++ [.run, .step evidenceLane (.clock wall 0)] ++ attemptEvents evidenceLane wall
    0 ++
    [.step evidenceLane (.outcome (deliver some
        ⟨[], .deliveryEnvelope, ascii "\x7b\"device_id\":\"d\",\"local_seq\":3\x7d", 1⟩
        (some rateLimited))),
      .step evidenceLane (.now wall), .step evidenceLane .step, .step evidenceLane .step]

/-- The worker after `limitedEvents`. -/
def limitedWorker (wall : Int) : Option Worker :=
  runAll Worker.step (newDeliveryWorker plainConfig
    (openedWorld (emptyQueue plainOptions) freshDirectory 0)) (limitedEvents wall)

theorem reported_limitedEvents (hrange : InRange wall) :
    ∀ e ∈ limitedEvents wall, e.Reported some := by
  intro e he
  simp only [limitedEvents, envelopeEvents, attemptEvents, List.replicate, List.cons_append,
    List.nil_append, List.mem_cons, List.not_mem_nil, or_false] at he
  rcases he with rfl | rfl | rfl | rfl | rfl | rfl | rfl | rfl | rfl | rfl | rfl | rfl | rfl | rfl |
    rfl | rfl
  all_goals first | trivial | exact hrange | exact ⟨_, _, rfl⟩

/-- The back-off that is set then lasts two seconds, and is restored. -/
theorem sidecars_valid_limitedEvents :
    ∃ (w w' : Worker) (l : DeliveryLane) (record : BackoffRecord),
      limitedWorker 1000000 = some w ∧ w.step (.step evidenceLane (.clock 1000000 0)) = some w' ∧
      w'.lanes.lookup evidenceLane = some l ∧ l.phase.written = some record ∧
      record.retryAfterMS = some 2000 ∧ Restores plainConfig 1000000 l record := by
  obtain ⟨w, hrun, heval⟩ := Option.map_eq_some_iff.mp (by decide +kernel :
    (limitedWorker 1000000).map (fun w => (w.step (.step evidenceLane (.clock 1000000 0))).any
      fun w' => (w'.lanes.lookup evidenceLane).any fun l =>
        l.phase.written.any fun record => decide (record.retryAfterMS = some 2000)) = some true)
  simp only [Option.any_eq_true, decide_eq_true_eq] at heval
  obtain ⟨w', hstep, l, hl, record, hwritten, hms⟩ := heval
  have hrange : InRange 1000000 := by decide +kernel
  obtain ⟨-, hbackoff, -⟩ := sidecars_valid plainConfig (by decide) openDurableQueue_plainOptions
    (by simp [EarlyPlaces, emptyQueue]) 0 some (by decide) (reported_limitedEvents hrange) hrun
  exact ⟨w, w', l, record, hrun, hstep, hl, hwritten, hms,
    hbackoff evidenceLane 1000000 0 w' l record hrange hstep hl hwritten⟩

/-- **A restart under an earlier wall clock shortens the wait.** The back-off is built at `10 ^ 12`
ms and loaded as it was written; a restart that reads `999999000000` ms bounds its deadline. -/
theorem restart_clamps_deadline :
    ∃ (w w' : Worker) (l : DeliveryLane) (record : BackoffRecord),
      limitedWorker (10 ^ 18) = some w ∧
      w.step (.step evidenceLane (.clock (10 ^ 18) 0)) = some w' ∧
      w'.lanes.lookup evidenceLane = some l ∧ l.phase.written = some record ∧
      InRange (10 ^ 18) ∧ InRange (999999000000 * millisecond) ∧
      BackoffRecord.unmarshal record.versioned.marshal = some record.versioned ∧
      (w'.env evidenceLane).head.isSome = true ∧
      (DeliveryLane.fresh.restore plainConfig (w'.env evidenceLane) (fun _ => some record.versioned)
        (999999000000 * millisecond) 0 0).1.notBefore ≠ l.notBefore := by
  obtain ⟨w, hrun, heval⟩ := Option.map_eq_some_iff.mp (by decide +kernel :
    (limitedWorker (10 ^ 18)).map (fun w => (w.step (.step evidenceLane (.clock (10 ^ 18) 0))).any
      fun w' => (w'.lanes.lookup evidenceLane).any fun l => l.phase.written.any fun record =>
        decide (BackoffRecord.unmarshal record.versioned.marshal = some record.versioned ∧
          (w'.env evidenceLane).head.isSome = true ∧
          (DeliveryLane.fresh.restore plainConfig (w'.env evidenceLane)
            (fun _ => some record.versioned) (999999000000 * millisecond) 0 0).1.notBefore
              ≠ l.notBefore)) = some true)
  simp only [Option.any_eq_true, decide_eq_true_eq] at heval
  obtain ⟨w', hstep, l, hl, record, hwritten, hloaded, hhead, hdeadline⟩ := heval
  exact ⟨w, w', l, record, hrun, hstep, hl, hwritten, by decide +kernel, by decide +kernel, hloaded,
    hhead, hdeadline⟩

end OriGateway
