import OriGateway.Evidence.Authority
import OriGateway.Foundation.Paths
import OriGateway.MqttAuth.Verifier

/-! # Acknowledgements of inbound artifacts

A runtime acknowledges the artifact it received: on its own topic, naming the artifact's type and
the digest of its canonical bytes, with what it did with it. **`judgeAck`** is what that says of the
artifact at the head of the return queue. -/

namespace OriGateway

open Foundation

/-! ## Topics -/

/-- Whether white space begins or ends a text. -/
def hasOuterSpace (text : Bytes) : Bool :=
  let isSpace := fun r : Option Nat => isWhiteSpace (r.getD Utf8.replacement)
  (Utf8.runes text).head?.any isSpace || (Utf8.runes text).getLast?.any isSpace

def validMQTTDeviceID (device : Bytes) : Bool :=
  device != [] && !hasOuterSpace device && !device.any fun b =>
    b == 47 || b == 43 || b == 35 || b == 124

/-- The device of the topic on which inbound artifacts are acknowledged. -/
def deviceIDFromEvidenceInboundAckTopic (topic : Bytes) : Option Bytes :=
  match splitSlash topic with
  | [ori, device, evidence, direction, ack] =>
    if ori = ascii "ori" ∧ evidence = ascii "evidence" ∧ direction = ascii "inbound" ∧
        ack = ascii "ack" ∧ validMQTTDeviceID device = true then some device
    else none
  | _ => none

def evidenceInboundAckMessageType : Bytes := ascii "evidence_inbound_ack"

/-! ## Reading an acknowledgement -/

/-- An acknowledgement of an inbound artifact. -/
structure InboundAck where
  deviceID : Bytes
  artifactType : Bytes
  artifactDigest : Bytes
  outcome : Bytes
  reason : Bytes
  acknowledgedAtMS : Int
  auth : Option HeartbeatAuth
  deriving DecidableEq

def inboundAckStrings : List Bytes :=
  [ascii "device_id", ascii "artifact_type", ascii "artifact_digest", ascii "outcome",
    ascii "reason"]

def inboundAckMembers : List Bytes :=
  inboundAckStrings ++ [ascii "acknowledged_at_ms", ascii "auth"]

def heartbeatAuthMembers : List Bytes := [ascii "scheme", ascii "signed_at_ms", ascii "signature"]

/-- Store a member of `auth`. -/
def storeHeartbeatAuth : Nat → Json → HeartbeatAuth → Option HeartbeatAuth
  | 0, v, a => (Json.readString a.scheme v).map fun s => { a with scheme := s }
  | 1, v, a => (Json.readInt64 a.signedAtMS v).map fun n => { a with signedAtMS := n }
  | _, v, a => (Json.readString a.signature v).map fun s => { a with signature := s }

/-- Read `auth`. -/
def readHeartbeatAuth : Json → Option (Option HeartbeatAuth)
  | .null => some none
  | .obj members =>
    (Json.decodeMembers true heartbeatAuthMembers storeHeartbeatAuth members ⟨[], 0, []⟩).map some
  | _ => none

/-- Store a member of an acknowledgement. -/
def storeInboundAck : Nat → Json → InboundAck → Option InboundAck
  | 0, v, a => (Json.readString a.deviceID v).map fun s => { a with deviceID := s }
  | 1, v, a => (Json.readString a.artifactType v).map fun s => { a with artifactType := s }
  | 2, v, a => (Json.readString a.artifactDigest v).map fun s => { a with artifactDigest := s }
  | 3, v, a => (Json.readString a.outcome v).map fun s => { a with outcome := s }
  | 4, v, a => (Json.readString a.reason v).map fun s => { a with reason := s }
  | 5, v, a => (Json.readInt64 a.acknowledgedAtMS v).map fun n => { a with acknowledgedAtMS := n }
  | _, v, a => (readHeartbeatAuth v).map fun auth => { a with auth := auth }

/-- Whether a member is present as a string; of two of one name the last counts. -/
def isStringMember (members : List (Bytes × Json)) (name : Bytes) : Bool :=
  match members.reverse.find? fun m => Json.unquote m.1 == name with
  | some (_, .str _) => true
  | _ => false

/-- Read an acknowledgement: no member ambiguous, every string present as one, and none unknown. -/
def decodeInboundAck (payload : Bytes) : Option InboundAck :=
  match Json.parse payload with
  | some (.obj members) =>
    match refuseAmbiguousMembers inboundAckMembers members [] with
    | .error _ => none
    | .ok () =>
      if inboundAckStrings.all (isStringMember members) then
        Json.decodeMembers true inboundAckMembers storeInboundAck members
          ⟨[], [], [], [], [], 0, none⟩
      else none
  | _ => none

/-! ## The decision -/

/-- The reasons of a refusal, and whether each retires the artifact. -/
def inboundRefusalRetires : List (Bytes × Bool) :=
  [(ascii "malformed", true), (ascii "bad_authenticator", true), (ascii "binding_mismatch", true),
    (ascii "non_contiguous_range", true), (ascii "unrecognised_version", false),
    (ascii "wrong_purpose", false), (ascii "unknown_key", false), (ascii "retired_key", false),
    (ascii "unknown_sequence", false), (ascii "superseded", true),
    (ascii "restatement_conflict", true)]

/-- What an outcome decides: whether it retires the artifact, and whether its reason is known. -/
def inboundDecision (outcome reason : Bytes) : Option (Bool × Bool) :=
  if outcome = ascii "applied" then if reason ≠ [] then none else some (true, true)
  else if outcome = ascii "refused" then
    match inboundRefusalRetires.lookup reason with
    | some retire => some (retire, true)
    | none => some (false, false)
  else none

/-- An outcome that retires an artifact: it was applied, with no reason, or refused with one that
retires. -/
def RetiringOutcome (outcome reason : Bytes) : Prop :=
  (outcome = ascii "applied" ∧ reason = []) ∨
    (outcome = ascii "refused" ∧ inboundRefusalRetires.lookup reason = some true)

theorem retiringOutcome_of_decision {outcome reason : Bytes} {recognised : Bool}
    (h : inboundDecision outcome reason = some (true, recognised)) :
    RetiringOutcome outcome reason := by
  unfold inboundDecision at h
  split at h
  next happlied =>
    split at h
    next => cases h
    next hreason => exact .inl ⟨happlied, not_not.mp hreason⟩
  next =>
    split at h
    next hrefused =>
      split at h
      next retire hlookup =>
        cases h
        exact .inr ⟨hrefused, hlookup⟩
      next => cases h
    next => cases h

/-- Why an acknowledgement does not decide the head, or is reported though it does. -/
inductive AckError where
  /-- "malformed inbound acknowledgement". -/
  | malformed
  /-- "inbound acknowledgement binding mismatch". -/
  | bindingMismatch
  /-- "acknowledgement names an empty return queue". -/
  | emptyQueue
  /-- "invalid queued authority artifact" or "invalid authority return queue type". -/
  | invalidQueued
  /-- "queued authority artifact is not canonicalisable". -/
  | notCanonical
  /-- "acknowledgement does not name the queued authority artifact". -/
  | notNamed
  /-- "invalid inbound acknowledgement outcome". -/
  | invalidOutcome
  /-- "inbound refusal reason unrecognised; authority artifact held". -/
  | unrecognisedReason (reason : Bytes)
  | remove (e : QueueError)
  deriving DecidableEq

section Judge

variable (canonical : Bytes → Option Bytes)

/-- What an acknowledgement on a device's topic decides of the head: its device, whether it retires,
and whether its reason is known. -/
def judgeAck (deviceID : Bytes) (ack : InboundAck) (queued : QueuedArtifact) :
    Except AckError (Bytes × Bool × Bool) :=
  match authorityQueueRouting queued with
  | none => .error .invalidQueued
  | some (queuedDevice, queuedType) =>
    match canonical queued.payload with
    | none => .error .notCanonical
    | some bytes =>
      if queuedDevice ≠ deviceID ∨ queuedType.name ≠ ack.artifactType ∨
          ack.artifactDigest ≠ payloadDigest bytes then .error .notNamed
      else
        match inboundDecision ack.outcome ack.reason with
        | none => .error .invalidOutcome
        | some (retire, recognised) => .ok (queuedDevice, retire, recognised)

/-- An acknowledgement names an artifact: its device, its type and the digest of its canonical
bytes. -/
structure Names (deviceID : Bytes) (ack : InboundAck) (queued : QueuedArtifact) : Prop where
  routed : ∃ kind, authorityQueueRouting queued = some (deviceID, kind) ∧
    ack.artifactType = kind.name
  digest : ∃ bytes, canonical queued.payload = some bytes ∧ ack.artifactDigest = payloadDigest bytes

theorem judgeAck_ok {deviceID device : Bytes} {ack : InboundAck} {queued : QueuedArtifact}
    {retire recognised : Bool}
    (h : judgeAck canonical deviceID ack queued = .ok (device, retire, recognised)) :
    device = deviceID ∧ Names canonical deviceID ack queued ∧
      inboundDecision ack.outcome ack.reason = some (retire, recognised) := by
  unfold judgeAck at h
  split at h
  next => cases h
  next queuedDevice queuedType hrouting =>
    split at h
    next => cases h
    next bytes hcanonical =>
      split at h
      next => cases h
      next hnamed =>
        simp only [not_or, not_not] at hnamed
        obtain ⟨rfl, htype, hdigest⟩ := hnamed
        split at h
        next => cases h
        next retire' recognised' hdecision =>
          cases h
          exact ⟨rfl, ⟨⟨queuedType, hrouting, htype.symm⟩, ⟨bytes, hcanonical, hdigest⟩⟩, hdecision⟩

end Judge

end OriGateway
