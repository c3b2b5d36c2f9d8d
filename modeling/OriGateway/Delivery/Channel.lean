import OriGateway.Delivery.Journal

/-! # The evidence channel

What the channel makes of the evidence authority's response to a delivery. **`readResponse`** reads
a response that is not too large, is JSON, has no ambiguous or unknown member and is of the one
version; then a 200 is an acceptance or nothing, and any other status is judged by the refusal
policy. Everything else is an unrecognised outcome. **`response_classified`** says what becomes of
the head for each. -/

namespace OriGateway

open Foundation

/-! ## The response -/

/-- A response to a delivery: its status, the headers that are read, and its body. -/
structure HTTPResponse where
  statusCode : Int
  contentType : Bytes
  retryAfter : Bytes
  body : Bytes

/-- One artifact of an acceptance. -/
structure ChannelAuthorityArtifact where
  artifactType : Bytes
  artifactB64 : Bytes
  deriving DecidableEq

/-- The body of a response. -/
structure ChannelResponse where
  v : Int
  artifactDigest : Bytes
  outcome : Bytes
  reason : Bytes
  retriable : Bool
  authorityArtifacts : List ChannelAuthorityArtifact
  deriving DecidableEq

/-- Why a response is an unrecognised outcome. -/
inductive UnrecognisedOutcome where
  /-- "oversized response". -/
  | oversized
  /-- "wrong content type". -/
  | contentType
  /-- "ambiguous response member" or "malformed response body". -/
  | body
  /-- "unsupported response version". -/
  | version
  /-- "malformed acceptance". -/
  | acceptance
  /-- "unknown authority artifact type". -/
  | authorityType
  /-- "malformed authority artifact bytes". -/
  | authorityBytes
  /-- "malformed refusal". -/
  | refusal
  /-- "malformed authentication refusal". -/
  | authenticationRefusal
  /-- "malformed backpressure". -/
  | backpressure
  /-- "rate limit without Retry-After". -/
  | rateLimit
  /-- "status outside the refusal policy". -/
  | status
  deriving DecidableEq

def maxResponseBytes : Nat := 2 ^ 20

def channelAuthorityArtifactMembers : List Bytes := [ascii "artifact_type", ascii "artifact_b64"]

/-- Store a member of an authority artifact. -/
def storeChannelAuthorityArtifact : Nat → Json → ChannelAuthorityArtifact →
    Option ChannelAuthorityArtifact
  | 0, v, a => (Json.readString a.artifactType v).map fun s => { a with artifactType := s }
  | _, v, a => (Json.readString a.artifactB64 v).map fun s => { a with artifactB64 := s }

/-- Read an object each member of which is named once, spelled exactly, and known. -/
def readExactly {R : Type} (members : List Bytes) (store : Nat → Json → R → Option R) (zero : R) :
    Json → Option R
  | .obj ms =>
    match refuseAmbiguousMembers members ms [] with
    | .ok () => Json.decodeMembers true members store ms zero
    | .error _ => none
  | _ => none

/-- Read the array of authority artifacts. -/
def readAuthorityArtifacts (old : List ChannelAuthorityArtifact) : Json →
    Option (List ChannelAuthorityArtifact)
  | .null => some old
  | .arr items =>
    items.mapM (readExactly channelAuthorityArtifactMembers storeChannelAuthorityArtifact ⟨[], []⟩)
  | _ => none

def channelResponseMembers : List Bytes :=
  [ascii "v", ascii "artifact_digest", ascii "outcome", ascii "reason", ascii "retriable",
    ascii "authority_artifacts"]

/-- Store a member of a response. -/
def storeChannelResponse : Nat → Json → ChannelResponse → Option ChannelResponse
  | 0, v, r => (Json.readInt64 r.v v).map fun n => { r with v := n }
  | 1, v, r => (Json.readString r.artifactDigest v).map fun s => { r with artifactDigest := s }
  | 2, v, r => (Json.readString r.outcome v).map fun s => { r with outcome := s }
  | 3, v, r => (Json.readString r.reason v).map fun s => { r with reason := s }
  | 4, v, r => (Json.readBool r.retriable v).map fun b => { r with retriable := b }
  | _, v, r =>
    (readAuthorityArtifacts r.authorityArtifacts v).map fun as =>
      { r with authorityArtifacts := as }

def decodeChannelResponse (body : Bytes) : Option ChannelResponse :=
  (Json.parse body).bind
    (readExactly channelResponseMembers storeChannelResponse ⟨0, [], [], [], false, []⟩)

/-- A response that is well formed. `parseMediaType` reads the media type of a `Content-Type`. -/
def readResponse (parseMediaType : Bytes → Option Bytes) (resp : HTTPResponse) :
    Except UnrecognisedOutcome ChannelResponse :=
  if maxResponseBytes < resp.body.length then .error .oversized
  else if parseMediaType resp.contentType ≠ some (ascii "application/json") then .error .contentType
  else
    match decodeChannelResponse resp.body with
    | none => .error .body
    | some wire => if wire.v ≠ 1 then .error .version else .ok wire

/-! ## What it says -/

/-- The seconds of a `Retry-After`, as a duration, and whether there are any. -/
def parseRetryAfter (value : Bytes) : Int × Bool :=
  let text := trimSpace value
  if text ≠ [] ∧ text.all isDigit = true ∧ parseDigits text < 2 ^ 31 ∧ parseDigits text ≠ 0 then
    (parseDigits text * 10 ^ 9, true)
  else (0, false)

/-- A refusal of a status and reason, with the floor of its back-off: its class is the policy's. -/
def refusalResult (status : Int) (reason : Bytes) (retryAfter : Int) : DeliveryResult where
  accepted := false
  retriable := policy status reason == .backoff
  retryAfter := retryAfter
  receiverState := policy status reason == .handoff
  refusalStatus := status
  refusalReason := recordedReason status reason
  authorityArtifacts := []

/-- What a response that is no 200 says: it must be well formed for its status. -/
def refusedDeliveryResult (resp : HTTPResponse) (wire : ChannelResponse) (artifactDigest : Bytes) :
    Except UnrecognisedOutcome DeliveryResult :=
  let status := resp.statusCode
  if status = 400 ∨ status = 403 ∨ status = 409 ∨ status = 422 then
    -- only a 400 may omit the digest
    if wire.outcome ≠ ascii "refused" ∨
        ¬(wire.artifactDigest = artifactDigest ∨ (status = 400 ∧ wire.artifactDigest = [])) ∨
        wire.authorityArtifacts ≠ [] then .error .refusal
    else .ok (refusalResult status wire.reason 0)
  else if status = 401 then
    if wire.outcome ≠ ascii "refused" ∨ wire.artifactDigest ≠ [] ∨ wire.authorityArtifacts ≠ [] then
      .error .authenticationRefusal
    else .ok (refusalResult status wire.reason 0)
  else if status = 429 ∨ status = 503 then
    if wire.outcome ≠ ascii "pending" ∨
        (wire.artifactDigest ≠ artifactDigest ∧ ¬(status = 503 ∧ wire.artifactDigest = [])) ∨
        wire.authorityArtifacts ≠ [] then .error .backpressure
    else if status = 429 then
      let recorded := recordedReason status wire.reason
      let retryAfter := parseRetryAfter resp.retryAfter
      if (recorded = ascii "rate_limited" ∨ recorded = ascii "pending_registration_limit") ∧
        retryAfter.2 = false then
        .error .rateLimit
      else .ok (refusalResult status wire.reason retryAfter.1)
    else .ok (refusalResult status wire.reason 0)
  else .error .status

/-- The type of a name. -/
def AuthorityArtifactType.ofName (name : Bytes) : AuthorityArtifactType :=
  if name = ascii "delivery_receipt" then .deliveryReceipt
  else if name = ascii "epoch_confirmation" then .epochConfirmation
  else if name = ascii "custody_acknowledgement" then .custodyAcknowledgement
  else .other name

/-- Check and decode a returned artifact. -/
def returnedArtifact (returned : ChannelAuthorityArtifact) :
    Except UnrecognisedOutcome AuthorityArtifact :=
  let kind := AuthorityArtifactType.ofName returned.artifactType
  if !validAuthorityArtifactType kind then .error .authorityType
  else
    match base64DecodeStrict returned.artifactB64 with
    | none => .error .authorityBytes
    | some payload => if payload = [] then .error .authorityBytes else .ok ⟨kind, [], payload⟩

/-- What a 200 says: only one that meets every requirement is an acceptance. -/
def acceptedDeliveryResult (wire : ChannelResponse) (artifactDigest : Bytes) :
    Except UnrecognisedOutcome DeliveryResult :=
  if wire.outcome ≠ ascii "accepted" ∨ wire.reason ≠ [] ∨ wire.retriable = true ∨
      wire.artifactDigest ≠ artifactDigest then .error .acceptance
  else
    (wire.authorityArtifacts.mapM returnedArtifact).map fun authority =>
      { accepted := true, retriable := false, retryAfter := 0, receiverState := false,
        refusalStatus := 0
        refusalReason := [], authorityArtifacts := authority }

/-- What `Deliver` makes of a response. -/
def deliverResponse (parseMediaType : Bytes → Option Bytes) (artifactDigest : Bytes)
    (resp : HTTPResponse) : Except UnrecognisedOutcome DeliveryResult :=
  match readResponse parseMediaType resp with
  | .error e => .error e
  | .ok wire =>
    if resp.statusCode ≠ 200 then refusedDeliveryResult resp wire artifactDigest
    else acceptedDeliveryResult wire artifactDigest

/-- Deliver an artifact: without a response the channel is unavailable. -/
def deliver (parseMediaType : Bytes → Option Bytes) (artifact : QueuedArtifact) :
    Option HTTPResponse → ChannelOutcome
  | none => .unavailable
  | some resp =>
    match deliverResponse parseMediaType (payloadDigest artifact.payload) resp with
    | .error _ => .unrecognised
    | .ok r => .result r

/-! ## What becomes of the head -/

/-- What becomes of a head once the channel answered. -/
inductive OutcomeClass where
  /-- It is retired, once what came with the acceptance is stored. -/
  | accepted
  | held
  | handoff
  | backedOff
  /-- It is backed off, the outcome recorded as unrecognised. -/
  | unrecognised
  deriving DecidableEq

/-- What becomes of the head, by where the goroutine went with the answer. -/
def LanePhase.outcome : LanePhase → Option OutcomeClass
  | storing .. => some .accepted
  | holding .. => some .held
  | failing .channelReceiverState => some .handoff
  | failing .malformedResponse => some .unrecognised
  | failing _ => some .backedOff
  | _ => none

/-- A lane that attempted an artifact, with the response to the attempt. -/
def DeliveryLane.respondedWith (parseMediaType : Bytes → Option Bytes) (cfg : WorkerConfig)
    (env : LaneEnv) (l : DeliveryLane) (artifact : QueuedArtifact) (resp : HTTPResponse) :
    DeliveryLane :=
  (l.began artifact).answered cfg env artifact (deliver parseMediaType artifact (some resp))

/-! ## What a refusal says -/

theorem parseRetryAfter_fst (value : Bytes) :
    ∃ seconds : Nat, (parseRetryAfter value).1 = seconds * 10 ^ 9 ∧ seconds < 2 ^ 31 := by
  unfold parseRetryAfter
  dsimp only
  split_ifs with h
  · exact ⟨_, rfl, h.2.2.1⟩
  · exact ⟨0, by simp, by norm_num⟩

/-- **A refusal that is well formed** is one of the table's statuses; one that may hold names the
artifact. -/
theorem refusedDeliveryResult_eq_ok {resp : HTTPResponse} {wire : ChannelResponse} {digest : Bytes}
    {r : DeliveryResult} (h : refusedDeliveryResult resp wire digest = .ok r) :
    ∃ seconds : Nat, r = refusalResult resp.statusCode wire.reason (seconds * 10 ^ 9) ∧
    seconds < 2 ^ 31 ∧
      resp.statusCode ∈ refusalStatuses ∧
      (resp.statusCode = 400 ∨ resp.statusCode = 409 ∨ resp.statusCode = 422 →
        wire.outcome = ascii "refused" ∧
          (wire.artifactDigest = digest ∨ resp.statusCode = 400 ∧ wire.artifactDigest = [])) := by
  unfold refusedDeliveryResult at h
  dsimp only at h
  split_ifs at h with hrefused hform hauth hform hpressure hform hlimit hmissing <;> cases h
  · refine ⟨0, by simp, by norm_num, by simp [refusalStatuses]; tauto, fun _ => ?_⟩
    push Not at hform
    exact ⟨hform.1, hform.2.1⟩
  · exact ⟨0, by simp, by norm_num, by simp [refusalStatuses, hauth], by omega⟩
  · obtain ⟨seconds, heq, hlt⟩ := parseRetryAfter_fst resp.retryAfter
    exact ⟨seconds, by rw [heq], hlt, by simp [refusalStatuses, hlimit], by omega⟩
  · exact ⟨0, by simp, by norm_num, by simp [refusalStatuses]; tauto, by omega⟩

theorem refusedDeliveryResult_retriable (resp : HTTPResponse) (wire : ChannelResponse)
    (digest : Bytes) (b : Bool) :
    refusedDeliveryResult resp { wire with retriable := b } digest
      = refusedDeliveryResult resp wire digest := rfl

theorem recordedReason_of_notMem {status : Int} {reason : Bytes} (hstatus : status ≠ 0)
    (h : reason ∉ statusRefusalReasons status) : recordedReason status reason = unrecognised := by
  rw [recordedReason, if_neg hstatus, if_neg h]

theorem policy_of_notMem {status : Int} {reason reason' : Bytes}
    (h : reason ∉ statusRefusalReasons status) (h' : reason' ∉ statusRefusalReasons status) :
    policy status reason = policy status reason' := by
  unfold policy
  split_ifs with _ _ hconflict hr hr' hr' hbyte hr hr' hr' <;> try rfl
  all_goals simp_all [statusRefusalReasons]

theorem refusedDeliveryResult_reason (resp : HTTPResponse) (wire : ChannelResponse) (digest : Bytes)
    {reason : Bytes} (h : wire.reason ∉ statusRefusalReasons resp.statusCode)
    (h' : reason ∉ statusRefusalReasons resp.statusCode) :
    refusedDeliveryResult resp { wire with reason := reason } digest
      = refusedDeliveryResult resp wire digest := by
  by_cases hzero : resp.statusCode = 0
  · simp [refusedDeliveryResult, hzero]
  · have hrecorded : recordedReason resp.statusCode reason
        = recordedReason resp.statusCode wire.reason := by
      rw [recordedReason_of_notMem hzero h, recordedReason_of_notMem hzero h']
    have hresult (floor : Int) :
        refusalResult resp.statusCode reason floor
          = refusalResult resp.statusCode wire.reason floor := by
      simp only [refusalResult, policy_of_notMem h h', hrecorded]
    simp only [refusedDeliveryResult, hresult, hrecorded]

theorem refusedDeliveryResult_headers {resp resp' : HTTPResponse} (wire : ChannelResponse)
    (digest : Bytes) (hstatus : resp'.statusCode = resp.statusCode)
    (hretry : resp'.retryAfter = resp.retryAfter) :
    refusedDeliveryResult resp' wire digest = refusedDeliveryResult resp wire digest := by
  simp only [refusedDeliveryResult, hstatus, hretry]

theorem recordedReason_mem {status : Int} (hstatus : status ≠ 0) (reason : Bytes) :
    recordedReason status reason ∈ statusRefusalReasons status ∨
    recordedReason status reason = unrecognised := by
  unfold recordedReason
  rw [if_neg hstatus]
  split_ifs with h
  · exact .inl h
  · exact .inr rfl

theorem unrecognised_notMem (status : Int) : unrecognised ∉ statusRefusalReasons status := by
  have htable : unrecognised ∉ everyReason := by decide +kernel
  exact fun h => htable (mem_everyReason h)

theorem recordedReason_recordedReason (status : Int) (reason : Bytes) :
    recordedReason status (recordedReason status reason) = recordedReason status reason := by
  by_cases hzero : status = 0
  · subst hzero
    simp only [recordedReason, if_true]
    split_ifs <;> rfl
  · rcases recordedReason_mem hzero reason with h | h
    · rw [recordedReason, if_neg hzero, if_pos h]
    · rw [h, recordedReason_of_notMem hzero (unrecognised_notMem status)]

/-! ## Where a response leads -/

/-- Where a refusal leaves the lane. -/
def refusedPhase (artifact : QueuedArtifact) (status : Int) (reason : Bytes) (retryAfter : Int) :
    LanePhase :=
  match policy status reason with
  | .hold => .holding artifact status (recordedReason status reason)
  | .handoff => .failing .channelReceiverState
  | .backoff => .failing (.channelRefused retryAfter)

/-- **Where a response leads**: the phase the goroutine goes to, and the reason it records. -/
inductive Responds (parseMediaType : Bytes → Option Bytes) (artifact : QueuedArtifact)
    (resp : HTTPResponse) :
    LanePhase → Bytes → Prop where
  /-- It is outside the policy, or an acceptance that lacks what it must have. -/
  | unrecognised : Responds parseMediaType artifact resp (.failing .malformedResponse) unrecognised
  | refused (wire : ChannelResponse) (seconds : Nat) (hstatus : resp.statusCode ≠ 200)
      (hread : readResponse parseMediaType resp = .ok wire)
      (hrefused : refusedDeliveryResult resp wire (payloadDigest artifact.payload) =
        .ok (refusalResult resp.statusCode wire.reason (seconds * 10 ^ 9))) :
      Responds parseMediaType artifact resp
        (refusedPhase artifact resp.statusCode wire.reason (seconds * 10 ^ 9))
        (recordedReason resp.statusCode wire.reason)
  /-- It is an acceptance with artifacts that nothing can store. -/
  | sinkless (hstatus : resp.statusCode = 200) :
      Responds parseMediaType artifact resp (.failing .runtimeSink) []
  | accepted (wire : ChannelResponse) (r : DeliveryResult) (routed : List AuthorityArtifact)
      (hstatus : resp.statusCode = 200) (hread : readResponse parseMediaType resp = .ok wire)
      (haccepted : acceptedDeliveryResult wire (payloadDigest artifact.payload) = .ok r) :
      Responds parseMediaType artifact resp (.storing artifact r [] routed) []

section Responds

variable {parseMediaType : Bytes → Option Bytes} {artifact : QueuedArtifact} {resp : HTTPResponse}
  {phase : LanePhase} {reason : Bytes}

theorem DeliveryLane.answered_refusalResult (cfg : WorkerConfig) (env : LaneEnv) (l : DeliveryLane)
    (status : Int) (reason : Bytes) (floor : Int) :
    l.answered cfg env artifact (.result (refusalResult status reason floor)) =
      { l with
        attemptReason := recordedReason status reason
        phase := refusedPhase artifact status reason floor } := by
  cases hpolicy : policy status reason <;>
    simp [answered, refusalResult, refusedPhase, hpolicy, recordedReason_recordedReason]

theorem acceptedDeliveryResult_eq_ok {wire : ChannelResponse} {digest : Bytes} {r : DeliveryResult}
    (h : acceptedDeliveryResult wire digest = .ok r) :
    r.accepted = true ∧ wire.outcome = ascii "accepted" ∧ wire.artifactDigest = digest := by
  unfold acceptedDeliveryResult at h
  split_ifs at h with hform
  push Not at hform
  cases hmap : wire.authorityArtifacts.mapM returnedArtifact with
  | error e => rw [hmap] at h; cases h
  | ok authority =>
    rw [hmap] at h
    cases h
    exact ⟨rfl, hform.1, hform.2.2.2⟩

/-- **Every response leads one of these ways.** -/
theorem DeliveryLane.respondedWith_responds (parseMediaType : Bytes → Option Bytes)
    (cfg : WorkerConfig) (env : LaneEnv) (l : DeliveryLane) (artifact : QueuedArtifact)
    (resp : HTTPResponse) :
    Responds parseMediaType artifact resp
      (l.respondedWith parseMediaType cfg env artifact resp).phase
      (l.respondedWith parseMediaType cfg env artifact resp).attemptReason := by
  unfold respondedWith deliver deliverResponse
  dsimp only
  cases hread : readResponse parseMediaType resp with
  | error e => exact .unrecognised
  | ok wire =>
    dsimp only
    by_cases hstatus : resp.statusCode = 200
    · rw [if_neg (not_not.mpr hstatus)]
      cases haccepted : acceptedDeliveryResult wire (payloadDigest artifact.payload) with
      | error e => exact .unrecognised
      | ok r =>
        have hr := (acceptedDeliveryResult_eq_ok haccepted).1
        simp only [answered, hr, Bool.not_true, Bool.false_eq_true, if_false]
        split_ifs
        · exact .sinkless hstatus
        · split
          · exact .unrecognised
          · split_ifs
            · exact .unrecognised
            · exact .accepted wire r _ hstatus hread haccepted
    · rw [if_pos hstatus]
      cases hrefused : refusedDeliveryResult resp wire (payloadDigest artifact.payload) with
      | error e => exact .unrecognised
      | ok r =>
        obtain ⟨seconds, rfl, -⟩ := refusedDeliveryResult_eq_ok hrefused
        dsimp only
        rw [answered_refusalResult]
        exact .refused wire seconds hstatus hread hrefused

theorem Responds.outcome (h : Responds parseMediaType artifact resp phase reason) :
    ∃! c, phase.outcome = some c := by
  have hone {c : OutcomeClass} (hc : phase.outcome = some c) : ∃! c, phase.outcome = some c :=
    ⟨c, hc, fun c' hc' => Option.some_injective _ (hc'.symm.trans hc)⟩
  cases h with
  | unrecognised => exact hone rfl
  | refused wire seconds =>
    cases hpolicy : policy resp.statusCode wire.reason with
    | hold => exact hone (c := .held) (by simp [refusedPhase, hpolicy, LanePhase.outcome])
    | handoff => exact hone (c := .handoff) (by simp [refusedPhase, hpolicy, LanePhase.outcome])
    | backoff => exact hone (c := .backedOff) (by simp [refusedPhase, hpolicy, LanePhase.outcome])
  | sinkless => exact hone rfl
  | accepted => exact hone rfl

theorem outcome_refusedPhase (artifact : QueuedArtifact) (status : Int) (reason : Bytes)
    (floor : Int) :
    (refusedPhase artifact status reason floor).outcome ≠ some .accepted ∧
      ((refusedPhase artifact status reason floor).outcome = some .held ↔
        policy status reason = .hold) := by
  cases hpolicy : policy status reason <;> simp [refusedPhase, hpolicy, LanePhase.outcome]

theorem Responds.of_accepted (h : Responds parseMediaType artifact resp phase reason)
    (hclass : phase.outcome = some .accepted) :
    resp.statusCode = 200 ∧ ∃ wire, readResponse parseMediaType resp = .ok wire ∧
      wire.outcome = ascii "accepted" ∧ wire.artifactDigest = payloadDigest artifact.payload := by
  cases h with
  | unrecognised => cases hclass
  | refused wire seconds => exact absurd hclass (outcome_refusedPhase ..).1
  | sinkless => cases hclass
  | accepted wire r routed hstatus hread haccepted =>
    obtain ⟨-, houtcome, hdigest⟩ := acceptedDeliveryResult_eq_ok haccepted
    exact ⟨hstatus, wire, hread, houtcome, hdigest⟩

theorem status_of_policy_hold {status : Int} (hstatus : status ∈ refusalStatuses)
    (hpolicy : policy status reason = .hold) : status = 400 ∨ status = 409 ∨ status = 422 := by
  simp only [refusalStatuses, List.mem_cons, List.not_mem_nil, or_false] at hstatus
  rcases hstatus with rfl | rfl | rfl | rfl | rfl | rfl | rfl <;> simp_all [policy]

theorem Responds.of_held (h : Responds parseMediaType artifact resp phase reason)
    (hclass : phase.outcome = some .held) :
    (resp.statusCode = 400 ∨ resp.statusCode = 409 ∨ resp.statusCode = 422) ∧
      ∃ wire, readResponse parseMediaType resp = .ok wire ∧ wire.outcome = ascii "refused" ∧
        (wire.artifactDigest = payloadDigest artifact.payload ∨ resp.statusCode = 400 ∧
          wire.artifactDigest = []) ∧
        policy resp.statusCode wire.reason = .hold := by
  cases h with
  | unrecognised => cases hclass
  | refused wire seconds hstatus hread hrefused =>
    have hpolicy := (outcome_refusedPhase ..).2.mp hclass
    obtain ⟨-, -, -, hmem, hform⟩ := refusedDeliveryResult_eq_ok hrefused
    have hthree := status_of_policy_hold hmem hpolicy
    exact ⟨hthree, wire, hread, (hform hthree).1, (hform hthree).2, hpolicy⟩
  | sinkless => cases hclass
  | accepted => cases hclass

theorem Responds.reason_mem (h : Responds parseMediaType artifact resp phase reason) :
    reason ∈ statusRefusalReasons resp.statusCode ∨ reason = OriGateway.unrecognised ∨
      resp.statusCode = 200 ∧ reason = [] := by
  cases h with
  | unrecognised => exact .inr (.inl rfl)
  | refused wire seconds hstatus hread hrefused =>
    obtain ⟨-, -, -, hmem, -⟩ := refusedDeliveryResult_eq_ok hrefused
    have hzero : resp.statusCode ≠ 0 := by
      rintro hz
      simp [hz, refusalStatuses] at hmem
    rcases recordedReason_mem hzero wire.reason with h | h
    · exact .inl h
    · exact .inr (.inl h)
  | sinkless hstatus => exact .inr (.inr ⟨hstatus, rfl⟩)
  | accepted wire r routed hstatus => exact .inr (.inr ⟨hstatus, rfl⟩)

theorem Responds.of_holding {a : QueuedArtifact} {status : Int} {why : Bytes}
    (h : Responds parseMediaType artifact resp (.holding a status why) reason) :
    a = artifact ∧ status = resp.statusCode ∧ why = reason := by
  generalize hphase : LanePhase.holding a status why = phase at h
  cases h with
  | unrecognised => cases hphase
  | refused wire seconds =>
    cases hpolicy : policy resp.statusCode wire.reason with
    | hold =>
      simp only [refusedPhase, hpolicy, LanePhase.holding.injEq] at hphase
      exact hphase
    | handoff => simp [refusedPhase, hpolicy] at hphase
    | backoff => simp [refusedPhase, hpolicy] at hphase
  | sinkless => cases hphase
  | accepted => cases hphase

theorem DeliveryLane.respondedWith_congr (cfg : WorkerConfig) (env : LaneEnv) (l : DeliveryLane)
    {resp' : HTTPResponse} {wire wire' : ChannelResponse} (hstatus : resp.statusCode ≠ 200)
    (hstatus' : resp'.statusCode = resp.statusCode)
    (hread : readResponse parseMediaType resp = .ok wire)
    (hread' : readResponse parseMediaType resp' = .ok wire')
    (hsame : refusedDeliveryResult resp' wire' (payloadDigest artifact.payload)
      = refusedDeliveryResult resp wire (payloadDigest artifact.payload)) :
    l.respondedWith parseMediaType cfg env artifact resp'
      = l.respondedWith parseMediaType cfg env artifact resp := by
  have hdeliver : deliver parseMediaType artifact (some resp')
      = deliver parseMediaType artifact (some resp) := by
    simp only [deliver, deliverResponse, hread, hread', hstatus', hsame, if_pos hstatus]
  rw [respondedWith, respondedWith, hdeliver]

end Responds

/-- **What a response does to the head.** It has exactly one outcome. It is accepted only with a 200
whose body is well formed and names the artifact, and held only with a well-formed 400, 409 or 422
that names it (a 400 may omit the digest) and whose class is a hold. For a response that is no 200
neither the flag nor which of two unlisted reasons it gives changes anything. What is recorded is a
reason of its status or unrecognised, and a hold records just that; an acceptance records none. -/
theorem response_classified (parseMediaType : Bytes → Option Bytes) (cfg : WorkerConfig)
    (env : LaneEnv)
    (l : DeliveryLane) (artifact : QueuedArtifact) (resp : HTTPResponse) :
    let lane := l.respondedWith parseMediaType cfg env artifact
    let digest := payloadDigest artifact.payload
    (∃! c, (lane resp).phase.outcome = some c) ∧
    ((lane resp).phase.outcome = some .accepted →
      resp.statusCode = 200 ∧ ∃ wire, readResponse parseMediaType resp = .ok wire ∧
        wire.outcome = ascii "accepted" ∧ wire.artifactDigest = digest) ∧
    ((lane resp).phase.outcome = some .held →
      (resp.statusCode = 400 ∨ resp.statusCode = 409 ∨ resp.statusCode = 422) ∧
        ∃ wire, readResponse parseMediaType resp = .ok wire ∧ wire.outcome = ascii "refused" ∧
          (wire.artifactDigest = digest ∨ resp.statusCode = 400 ∧ wire.artifactDigest = []) ∧
          policy resp.statusCode wire.reason = .hold) ∧
    (∀ resp' wire retriable, resp.statusCode ≠ 200 → resp'.statusCode = resp.statusCode →
      resp'.retryAfter = resp.retryAfter → readResponse parseMediaType resp = .ok wire →
      readResponse parseMediaType resp' = .ok { wire with retriable := retriable } →
      (lane resp').phase.outcome = (lane resp).phase.outcome) ∧
    (∀ resp' wire reason, resp.statusCode ≠ 200 → resp'.statusCode = resp.statusCode →
      resp'.retryAfter = resp.retryAfter → readResponse parseMediaType resp = .ok wire →
      readResponse parseMediaType resp' = .ok { wire with reason := reason } →
      wire.reason ∉ statusRefusalReasons resp.statusCode →
      reason ∉ statusRefusalReasons resp.statusCode →
      (lane resp').phase.outcome = (lane resp).phase.outcome) ∧
    (resp.statusCode ∉ [200, 400, 409, 422] →
      (lane resp).phase.outcome ≠ some .held ∧ (lane resp).phase.outcome ≠ some .accepted) ∧
    ((lane resp).attemptReason ∈ statusRefusalReasons resp.statusCode ∨
      (lane resp).attemptReason = unrecognised ∨ resp.statusCode = 200 ∧
      (lane resp).attemptReason = []) ∧
    (∀ a status reason, (lane resp).phase = .holding a status reason →
      a = artifact ∧ status = resp.statusCode ∧ reason = (lane resp).attemptReason) := by
  intro lane digest
  have h := l.respondedWith_responds parseMediaType cfg env artifact resp
  refine ⟨h.outcome, h.of_accepted, h.of_held, ?_, ?_, ?_, h.reason_mem, ?_⟩
  · intro resp' wire retriable hstatus hstatus' hretry hread hread'
    refine congrArg (fun l' => l'.phase.outcome)
      (l.respondedWith_congr cfg env hstatus hstatus' hread hread' ?_)
    rw [refusedDeliveryResult_retriable, refusedDeliveryResult_headers _ _ hstatus' hretry]
  · intro resp' wire reason hstatus hstatus' hretry hread hread' hmem hmem'
    refine congrArg (fun l' => l'.phase.outcome)
      (l.respondedWith_congr cfg env hstatus hstatus' hread hread' ?_)
    rw [refusedDeliveryResult_headers _ _ hstatus' hretry,
      refusedDeliveryResult_reason _ _ _ hmem hmem']
  · intro hstatus
    simp only [List.mem_cons, List.not_mem_nil, or_false, not_or] at hstatus
    refine ⟨fun hheld => ?_, fun haccepted => hstatus.1 (h.of_accepted haccepted).1⟩
    rcases (h.of_held hheld).1 with h400 | h409 | h422
    · exact hstatus.2.1 h400
    · exact hstatus.2.2.1 h409
    · exact hstatus.2.2.2 h422
  · intro a status reason hphase
    rw [show l.respondedWith parseMediaType cfg env artifact resp = lane resp from rfl, hphase] at h
    exact h.of_holding

/-- A 422 without a known reason holds the head, whatever its flag says. -/
example :
    deliver some ⟨[], .deliveryEnvelope, [], 0⟩
      (some ⟨422, ascii "application/json", [],
        ascii "\x7b\"v\":1,\"artifact_digest\":\"" ++ payloadDigest [] ++
          ascii "\",\"outcome\":\"refused\",\"reason\":\"other\",\"retriable\":true\x7d"⟩) =
      .result ⟨false, false, 0, false, 422, unrecognised, []⟩ := by
  decide +kernel

end OriGateway
