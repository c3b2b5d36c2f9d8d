import OriGateway.Dispatcher.Requests

/-! # Enrichment requests

A runtime asks for context around a Tier C proposal. The request is read, verified and checked
(**`receiveEnrichment`**); then the provider is called with it, for as long as the request allows.
What the request says of the reading is only carried to the provider, so it is a parameter with its
reader. -/

namespace OriGateway

open Foundation

def tierCEnrichmentRequestMessageType : Bytes := ascii "tier_c_enrichment_request"

/-- An enrichment request, around what it says of the reading. -/
structure TierCEnrichmentRequest (R : Type) where
  requestID : Bytes
  proposalID : Bytes
  deviceID : Bytes
  skillName : Bytes
  triggerName : Bytes
  sensorID : Bytes
  sensorType : Bytes
  reading : R
  proposedAction : Bytes
  safeDefaultAction : Bytes
  operatorMessage : Bytes
  timeoutMS : Int
  auth : Option HeartbeatAuth

namespace TierCEnrichmentRequest

variable {R : Type}

/-- The members of a request. -/
def fields : List Bytes :=
  [ascii "request_id", ascii "proposal_id", ascii "device_id", ascii "skill_name",
    ascii "trigger_name", ascii "sensor_id", ascii "sensor_type", ascii "proposed_action",
    ascii "safe_default_action", ascii "operator_message", ascii "timeout_ms", ascii "auth",
    ascii "reading_value", ascii "unit", ascii "history_window"]

/-- Read a value into a field; the fields of the reading are numbered from nought. -/
def store (readReading : Nat → Json → R → Option R) :
    Nat → Json → TierCEnrichmentRequest R → Option (TierCEnrichmentRequest R)
  | 0, v, r => (Json.readString r.requestID v).map fun s => { r with requestID := s }
  | 1, v, r => (Json.readString r.proposalID v).map fun s => { r with proposalID := s }
  | 2, v, r => (Json.readString r.deviceID v).map fun s => { r with deviceID := s }
  | 3, v, r => (Json.readString r.skillName v).map fun s => { r with skillName := s }
  | 4, v, r => (Json.readString r.triggerName v).map fun s => { r with triggerName := s }
  | 5, v, r => (Json.readString r.sensorID v).map fun s => { r with sensorID := s }
  | 6, v, r => (Json.readString r.sensorType v).map fun s => { r with sensorType := s }
  | 7, v, r => (Json.readString r.proposedAction v).map fun s => { r with proposedAction := s }
  | 8, v, r =>
    (Json.readString r.safeDefaultAction v).map fun s => { r with safeDefaultAction := s }
  | 9, v, r => (Json.readString r.operatorMessage v).map fun s => { r with operatorMessage := s }
  | 10, v, r => (Json.readInt64 r.timeoutMS v).map fun n => { r with timeoutMS := n }
  | 11, v, r => (ReasoningRequest.readAuth v).map fun a => { r with auth := a }
  | i, v, r => (readReading (i - 12) v r.reading).map fun c => { r with reading := c }

/-- The request before any member is stored. -/
def zero (reading : R) : TierCEnrichmentRequest R where
  requestID := []
  proposalID := []
  deviceID := []
  skillName := []
  triggerName := []
  sensorID := []
  sensorType := []
  reading := reading
  proposedAction := []
  safeDefaultAction := []
  operatorMessage := []
  timeoutMS := 0
  auth := none

end TierCEnrichmentRequest

/-- Why an enrichment request is not valid. -/
inductive InvalidEnrichment where
  | requestID
  | proposalID
  | deviceID
  /-- "skill_name must not be empty". -/
  | skillName
  /-- "trigger_name must not be empty". -/
  | triggerName
  /-- "sensor_id must not be empty". -/
  | sensorID
  /-- "sensor_type must not be empty". -/
  | sensorType
  /-- "proposed_action must not be empty". -/
  | proposedAction
  /-- "safe_default_action must not be empty". -/
  | safeDefaultAction
  /-- "operator_message must not be empty". -/
  | operatorMessage
  /-- "timeout_ms must be positive". -/
  | timeout
  deriving DecidableEq

/-- The checks of a request, in order. -/
def validateTierCEnrichmentRequest {R : Type} (req : TierCEnrichmentRequest R) :
    Except InvalidEnrichment Unit :=
  if !validRoutingID req.requestID then .error .requestID
  else if !validRoutingID req.proposalID then .error .proposalID
  else if !validMQTTDeviceID req.deviceID then .error .deviceID
  else if req.skillName = [] then .error .skillName
  else if req.triggerName = [] then .error .triggerName
  else if req.sensorID = [] then .error .sensorID
  else if req.sensorType = [] then .error .sensorType
  else if req.proposedAction = [] then .error .proposedAction
  else if req.safeDefaultAction = [] then .error .safeDefaultAction
  else if req.operatorMessage = [] then .error .operatorMessage
  else if req.timeoutMS ≤ 0 then .error .timeout
  else .ok ()

theorem timeout_pos_of_valid {R : Type} {req : TierCEnrichmentRequest R}
    (h : validateTierCEnrichmentRequest req = .ok ()) : 0 < req.timeoutMS := by
  by_contra hle
  have hle : req.timeoutMS ≤ 0 := not_lt.mp hle
  revert h
  simp only [validateTierCEnrichmentRequest, if_pos hle]
  -- whichever check comes first, it fails
  repeat' split
  all_goals exact nofun

/-- The device of a request's topic. -/
def deviceIDFromTierCEnrichmentRequestTopic (topic : Bytes) : Option Bytes :=
  match splitSlash topic with
  | [ori, device, tier, enrichment, direction] =>
    if ori = ascii "ori" ∧ tier = ascii "tier_c" ∧ enrichment = ascii "enrichment" ∧
        direction = ascii "request" ∧ validMQTTDeviceID device = true then some device
    else none
  | _ => none

/-- Why an enrichment request is refused unanswered. -/
inductive EnrichmentRefusal where
  | canceled
  /-- "request topic". -/
  | topic
  /-- "decode request". -/
  | decode
  /-- "request topic does not match device_id". -/
  | device
  /-- "unauthenticated enrichment request". -/
  | unauthenticated (e : VerifyError Empty)
  /-- "request_id or proposal_id outside its contract form". -/
  | correlation

/-- What becomes of an enrichment request before the provider is called. -/
inductive EnrichmentReception (R : Type) where
  | refused (e : EnrichmentRefusal)
  /-- It is answered with "invalid enrichment request". -/
  | invalid (req : TierCEnrichmentRequest R) (e : InvalidEnrichment)
  | accepted (req : TierCEnrichmentRequest R)

section Handler

variable {R : Type}

/-- A request that was verified, or needs no verification: its correlation and its form are
checked. -/
def checkEnrichment (req : TierCEnrichmentRequest R) : EnrichmentReception R :=
  if !validRoutingID req.requestID || !validRoutingID req.proposalID then .refused .correlation
  else
    match validateTierCEnrichmentRequest req with
    | .error e => .invalid req e
    | .ok () => .accepted req

/-- **Receive an enrichment request**: everything before the provider is called, with the verifier
after it. -/
def receiveEnrichment (lib : CanonicalJSON) (readReading : Nat → Json → R → Option R) (reading : R)
    (verifier : Option Verifier) (topic payload : Bytes) (canceled : Bool) (now : Int) :
    EnrichmentReception R × Option Verifier :=
  if canceled then (.refused .canceled, verifier)
  else
    match deviceIDFromTierCEnrichmentRequestTopic topic with
    | none => (.refused .topic, verifier)
    | some device =>
      match Json.decodeRecord false TierCEnrichmentRequest.fields
          (TierCEnrichmentRequest.store readReading) (.zero reading) payload with
      | none => (.refused .decode, verifier)
      | some req =>
        if req.deviceID ≠ device then (.refused .device, verifier)
        else
          -- verification precedes every side effect, the correlated error response included
          match verifier with
          | none => (checkEnrichment { req with auth := none }, none)
          | some v =>
            let r := verifyJSON (decodeAuthPayload lib) v
              { payload := payload
                messageType := tierCEnrichmentRequestMessageType
                expectedDeviceID := device
                expectedRequestID := req.requestID
                now := now
                decide := none }
            match r.1.error with
            | some e => (.refused (.unauthenticated e), some r.2)
            | none => (checkEnrichment { req with auth := none }, some r.2)

/-- The timeout an enrichment provider is given, in nanoseconds. -/
def enrichmentTimeout (req : TierCEnrichmentRequest R) : Int := int64 (req.timeoutMS * 1000000)

theorem checkEnrichment_accepted {req req' : TierCEnrichmentRequest R}
    (h : checkEnrichment req = .accepted req') :
    req' = req ∧ validateTierCEnrichmentRequest req = .ok () := by
  unfold checkEnrichment at h
  split at h
  · cases h
  · split at h
    · cases h
    · next hvalid =>
      cases h
      exact ⟨rfl, hvalid⟩

/-- **An accepted request is valid.** -/
theorem valid_of_receiveEnrichment {lib : CanonicalJSON}
    {readReading : Nat → Json → R → Option R} {reading : R}
    {verifier : Option Verifier} {topic payload : Bytes} {canceled : Bool} {now : Int}
    {req : TierCEnrichmentRequest R}
    (h : (receiveEnrichment lib readReading reading verifier topic payload canceled now).1
      = .accepted req) :
    validateTierCEnrichmentRequest req = .ok () := by
  have hcheck : ∀ {req₀ : TierCEnrichmentRequest R}, checkEnrichment req₀ = .accepted req →
      validateTierCEnrichmentRequest req = .ok () := by
    intro req₀ hchecked
    obtain ⟨rfl, hvalid⟩ := checkEnrichment_accepted hchecked
    exact hvalid
  unfold receiveEnrichment at h
  split at h
  · cases h
  · split at h
    · cases h
    · split at h
      · cases h
      · split at h
        · cases h
        · split at h
          · exact hcheck h
          · dsimp only at h
            split at h
            · cases h
            · exact hcheck h

end Handler

end OriGateway
