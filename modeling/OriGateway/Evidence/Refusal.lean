import OriGateway.Evidence.Routing

/-! # The refusal policy

What a refusal of the evidence authority does to the head of a lane, by its status and reason: the
closed list of reasons each status admits, the reason the gateway records, the class of each refusal
and which of them a hold may record. -/

namespace OriGateway

open Foundation

def unrecognised : Bytes := ascii "unrecognised"

def pendingRegistrationConflict : Bytes := ascii "pending_registration_conflict"

def byteRefusalReasons : List Bytes :=
  [ascii "bad_authenticator", ascii "binding_mismatch", ascii "commissioning_digest_mismatch"]

def receiverStateRefusalReasons : List Bytes := [ascii "unrecognised_version", ascii "unknown_key"]

def refusalStatuses : List Int := [400, 401, 403, 409, 422, 429, 503]

/-- The reasons a status may give. -/
def statusRefusalReasons (status : Int) : List Bytes :=
  if status = 400 then [ascii "malformed"]
  else if status = 401 then
    [ascii "malformed", ascii "unknown_key", ascii "bad_authenticator", ascii "stale",
      ascii "replay"]
  else if status = 403 then [ascii "not_authorized"]
  else if status = 409 then [ascii "conflict", pendingRegistrationConflict]
  else if status = 422 then byteRefusalReasons ++ receiverStateRefusalReasons
  else if status = 429 then [ascii "rate_limited", ascii "pending_registration_limit"]
  else if status = 503 then [ascii "unavailable"]
  else []

def everyReason : List Bytes := refusalStatuses.flatMap statusRefusalReasons

/-- The reason the gateway records; status 0 is a channel that reports none. -/
def recordedReason (status : Int) (reason : Bytes) : Bytes :=
  if status = 0 then
    if reason ∈ everyReason then reason else unrecognised
  else if reason ∈ statusRefusalReasons status then reason
  else unrecognised

/-- What the courier does with a well-formed refusal. -/
inductive RefusalClass where
  /-- The head is held: never sent again, never discarded. -/
  | hold
  /-- The head is kept and sent again on the next handoff only. -/
  | handoff
  /-- The head is kept and sent again after a back-off. -/
  | backoff
  deriving DecidableEq

/-- What a refusal does to the head. -/
def policy (status : Int) (reason : Bytes) : RefusalClass :=
  if status = 401 ∨ status = 403 then .handoff
  else if status = 400 then .hold
  else if status = 409 then
    if reason = pendingRegistrationConflict then .backoff else .hold
  else if status = 422 then
    if reason ∈ receiverStateRefusalReasons then .handoff else .hold
  else if status = 429 ∨ status = 503 then .backoff
  else .hold

/-- Whether a hold record's refusal is one that holds. -/
def held (status : Int) (reason : Bytes) : Bool :=
  if reason = unrecognised then true
  else if status = 0 then reason != [] && recordedReason 0 reason == reason
  else decide (reason ∈ statusRefusalReasons status) && policy status reason == .hold

def heldRefusalStatus (status : Int) : Bool :=
  status == 0 || status == 400 || status == 409 || status == 422

theorem mem_everyReason {status : Int} {reason : Bytes} (h : reason ∈ statusRefusalReasons status) :
    reason ∈ everyReason := by
  refine List.mem_flatMap.mpr ⟨status, ?_, h⟩
  unfold statusRefusalReasons at h
  split_ifs at h <;> simp_all [refusalStatuses]

theorem mem_everyReason_of_held {status : Int} {reason : Bytes} (h : held status reason = true) :
    reason = unrecognised ∨ reason ∈ everyReason := by
  unfold held at h
  split_ifs at h with hun hzero
  · exact Or.inl hun
  · by_cases hmem : reason ∈ everyReason
    · exact Or.inr hmem
    · simp only [recordedReason, if_true, if_neg hmem, Bool.and_eq_true, beq_iff_eq] at h
      exact Or.inl h.2.symm
  · simp only [Bool.and_eq_true, decide_eq_true_eq] at h
    exact Or.inr (mem_everyReason h.1)

theorem isPlain_of_held {status : Int} {reason : Bytes} (h : held status reason = true) :
    ∀ b ∈ reason, Json.isPlain b = true := by
  have htable : (unrecognised :: everyReason).all (fun r => r.all Json.isPlain) = true := by
    decide +kernel
  have hmem : reason ∈ unrecognised :: everyReason := by
    rcases mem_everyReason_of_held h with rfl | hmem
    · exact List.mem_cons_self
    · exact List.mem_cons_of_mem _ hmem
  exact List.all_eq_true.mp (List.all_eq_true.mp htable reason hmem)

end OriGateway
