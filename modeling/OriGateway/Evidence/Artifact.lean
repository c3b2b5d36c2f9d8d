import OriGateway.Foundation.Sha256
import OriGateway.Foundation.JsonStrings

/-! # Evidence artifacts

The artifacts the courier carries: their types, the lane each travels in, their identity and digest,
and the sizes the queue's shares are reckoned with. -/

namespace OriGateway

open Foundation

/-! ## Types and lanes -/

/-- The type of a queued artifact. -/
inductive ArtifactType where
  | deliveryEnvelope
  | anchorRegistration
  | checkpoint
  | deliveryReceipt
  /-- `epoch_confirmation`, in the return queue only. -/
  | epochConfirmation
  /-- `custody_acknowledgement`, in the return queue only. -/
  | custodyAcknowledgement
  | other (name : Bytes)
  deriving DecidableEq

/-- The wire name of a type. -/
def ArtifactType.name : ArtifactType → Bytes
  | deliveryEnvelope => ascii "delivery_envelope"
  | anchorRegistration => ascii "anchor_registration"
  | checkpoint => ascii "checkpoint"
  | deliveryReceipt => ascii "delivery_receipt"
  | epochConfirmation => ascii "epoch_confirmation"
  | custodyAcknowledgement => ascii "custody_acknowledgement"
  | other name => name

/-- The type of a wire name. -/
def ArtifactType.ofName (name : Bytes) : ArtifactType :=
  if name = ascii "delivery_envelope" then deliveryEnvelope
  else if name = ascii "anchor_registration" then anchorRegistration
  else if name = ascii "checkpoint" then checkpoint
  else if name = ascii "delivery_receipt" then deliveryReceipt
  else if name = ascii "epoch_confirmation" then epochConfirmation
  else if name = ascii "custody_acknowledgement" then custodyAcknowledgement
  else other name

def validOutboundArtifactType : ArtifactType → Bool
  | .deliveryEnvelope | .anchorRegistration | .checkpoint => true
  | _ => false

def validQueueArtifactType (kind : ArtifactType) : Bool :=
  validOutboundArtifactType kind || kind == .deliveryReceipt || kind == .epochConfirmation ||
    kind == .custodyAcknowledgement

theorem ofName_name {kind : ArtifactType} (h : validQueueArtifactType kind = true) :
    ArtifactType.ofName kind.name = kind := by
  cases kind with
  | other name => exact absurd h (by simp [validQueueArtifactType, validOutboundArtifactType])
  | _ => decide +kernel

theorem isPlain_name {kind : ArtifactType} (h : validQueueArtifactType kind = true) :
    ∀ b ∈ kind.name, Json.isPlain b = true := by
  rw [← List.all_eq_true]
  cases kind with
  | other name => exact absurd h (by simp [validQueueArtifactType, validOutboundArtifactType])
  | _ => decide +kernel

theorem validQueueArtifactType_of_outbound {kind : ArtifactType}
    (h : validOutboundArtifactType kind = true) : validQueueArtifactType kind = true := by
  simp [validQueueArtifactType, h]

/-- One of a device's two delivery orders. -/
inductive Lane where
  | registration
  | evidence
  deriving DecidableEq

/-- One device's lane. -/
structure LaneKey where
  device : Bytes
  lane : Lane
  deriving DecidableEq

def laneOfType : ArtifactType → Lane
  | .anchorRegistration => .registration
  | _ => .evidence

/-! ## Identity -/

/-- The identity of an artifact: the digest of its type's name, a zero byte and its bytes. -/
def artifactID (kind : ArtifactType) (payload : Bytes) : Bytes :=
  hexEncode (sha256 (kind.name ++ 0 :: payload))

def payloadDigest (payload : Bytes) : Bytes := ascii "sha256:" ++ hexEncode (sha256 payload)

theorem artifactID_length (kind : ArtifactType) (payload : Bytes) :
    (artifactID kind payload).length = 64 := by
  rw [artifactID, hexEncode_length, sha256_length]

theorem artifactID_isHexDigit (kind : ArtifactType) (payload : Bytes) :
    ∀ b ∈ artifactID kind payload, isHexDigit b = true := hexEncode_isHexDigit _

theorem isPlain_artifactID (kind : ArtifactType) (payload : Bytes) :
    ∀ b ∈ artifactID kind payload, Json.isPlain b = true := Json.isPlain_hexEncode _

theorem isPlain_payloadDigest (payload : Bytes) :
    ∀ b ∈ payloadDigest payload, Json.isPlain b = true := by
  intro b hb
  rcases List.mem_append.mp hb with hb | hb
  · have hlabel : (ascii "sha256:").all Json.isPlain = true := by decide +kernel
    exact List.all_eq_true.mp hlabel b hb
  · exact Json.isPlain_hexEncode _ b hb

/-- One entry of a queue as its callers see it. -/
structure QueuedArtifact where
  id : Bytes
  type : ArtifactType
  payload : Bytes
  enqueuedAtMS : Int
  deriving DecidableEq

/-! ## Sizes -/

def maxArtifactBytes : Nat := 1048576

/-- The bytes a record's encoding takes at most. -/
def maxRecordOverhead : Int :=
  ((ascii "\x7b\"v\":1,\"id\":\"").length + 64 + (ascii "\",\"artifact_type\":\"").length +
    (ascii "\",\"queue_seq\":").length + 19 + (ascii ",\"enqueued_at_ms\":").length + 19 +
    (ascii ",\"payload\":\"").length + 4 * ((maxArtifactBytes + 2) / 3) +
    (ascii "\"\x7d").length : Nat)

/-- The encoded size of the largest outbound queue record, an anchor registration. -/
def maxQueueRecordBytes : Int :=
  maxRecordOverhead + (ArtifactType.anchorRegistration.name.length : Nat)

/-- The encoded size of the largest record that is no registration, a delivery envelope. -/
def maxEvidenceRecordBytes : Int :=
  maxRecordOverhead + (ArtifactType.deliveryEnvelope.name.length : Nat)

def minDeviceShareItems : Int := 2

/-- The least number of bytes a device's share may hold: the registration reserve and one largest
evidence record. -/
def minDeviceShareBytes : Int := maxQueueRecordBytes + maxEvidenceRecordBytes

def maxSafeInteger : Int := 9007199254740991

end OriGateway
