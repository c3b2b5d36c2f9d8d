import OriGateway.Foundation.Sha256
import OriGateway.Foundation.Unicode
import OriGateway.MqttAuth.ReplayState

/-! # The verifier of signed envelopes

A verifier authenticates an envelope and then, under one lock, checks that it is fresh and was not
accepted before, and records its key (**`verifyJSON`**). An envelope that answers something is
recorded only when the receiver's decision applied it. What a payload decodes to is a parameter
(`decode`): the JSON reader and the canonical form of its members. Everything after that is the
verifier's own, the signature included. **`Verifies`** is what one verification can do. -/

namespace OriGateway

open Foundation

/-! ## Envelopes and signatures -/

/-- The authenticator of an envelope. -/
structure HeartbeatAuth where
  scheme : Bytes
  signedAtMS : Int
  signature : Bytes
  deriving DecidableEq

def heartbeatAuthScheme : Bytes := ascii "hmac-sha256"

def signaturePrefix : Bytes := ascii "hmac-sha256:"

/-- What a payload decodes to. -/
structure AuthEnvelope (U : Type) where
  auth : HeartbeatAuth
  deviceID : Option Bytes
  requestID : Option Bytes
  unsigned : U
  canonical : Option Bytes

def joinLines : List Bytes → Bytes
  | [] => []
  | [line] => line
  | line :: rest => line ++ 10 :: joinLines rest

/-- The bytes that are signed. -/
def signingInput (messageType deviceID requestID : Bytes) (signedAtMS : Int)
    (canonicalPayload : Bytes) : Bytes :=
  joinLines [messageType, deviceID, requestID, formatInt signedAtMS, canonicalPayload]

def computeSignature (secret input : Bytes) : Bytes := hexEncode (hmacSha256 secret input)

/-- One part of a replay key: its length, the part and an end mark. -/
def keyPart (part : Bytes) : Bytes := decimal part.length ++ 58 :: part ++ [59]

def replayKey (messageType deviceID requestID : Bytes) (signedAtMS : Int) (signature : Bytes) :
    Bytes :=
  [messageType, deviceID, requestID, formatInt signedAtMS, signature].flatMap keyPart

/-! ## The verifier -/

/-- How a verifier is configured; durations are in nanoseconds. -/
structure VerifierConfig where
  sharedSecret : Bytes
  previousSharedSecret : Bytes
  maxSkew : Int
  replayTTL : Int
  maxKeys : Int

/-- A verifier. -/
structure Verifier where
  sharedSecret : Bytes
  previousSharedSecret : Bytes
  replay : ReplayState

/-- Why a verifier is not built. -/
inductive VerifierError where
  /-- "mqtt auth shared secret must not be empty". -/
  | emptySecret
  /-- "mqtt auth previous shared secret must differ from shared secret". -/
  | sameSecrets
  deriving DecidableEq

def defaultMaxSkew : Int := 300000000000

/-- Five minutes in nanoseconds: the default retention from receipt. -/
def defaultReplayTTL : Int := 300000000000

def defaultMaxKeys : Int := 131072

def milliseconds (duration : Int) : Int := duration / 1000000

/-- **Build a verifier**: the secrets are trimmed, and a limit that is not set has its default. -/
def newVerifier (cfg : VerifierConfig) (startClock : Int) : Except VerifierError Verifier :=
  let secret := trimSpace cfg.sharedSecret
  if secret = [] then .error .emptySecret
  else
    let maxSkew := if cfg.maxSkew ≤ 0 then defaultMaxSkew else cfg.maxSkew
    let replayTTL := if cfg.replayTTL ≤ 0 then defaultReplayTTL else cfg.replayTTL
    let previousSecret := trimSpace cfg.previousSharedSecret
    if previousSecret ≠ [] ∧ previousSecret = secret then .error .sameSecrets
    else
      let maxKeys := if cfg.maxKeys ≤ 0 then defaultMaxKeys else cfg.maxKeys
      .ok
        { sharedSecret := secret
          previousSharedSecret := previousSecret
          replay := newReplayState (milliseconds maxSkew) (milliseconds replayTTL) false maxKeys
            startClock }

/-- Why a verification fails. -/
inductive VerifyError (E : Type) where
  | undecodable
  /-- "unsupported auth scheme". -/
  | unsupportedScheme
  /-- "signed_at_ms must be positive". -/
  | signedAtNotPositive
  /-- "signature must use hmac-sha256: prefix". -/
  | signatureScheme
  /-- "device_id does not match topic device_id". -/
  | deviceMismatch
  /-- "request_id does not match expected request_id". -/
  | requestMismatch
  /-- "canonicalize mqtt auth payload". -/
  | notCanonical
  /-- "mqtt auth signature mismatch". -/
  | signatureMismatch
  | refused (e : ReplayRefusal)
  | decision (e : E)

def memberMatches (expected : Bytes) (member : Option Bytes) : Bool :=
  expected == [] || member == some expected

namespace Verifier

/-- Whether either secret gives the signature. -/
def signatureMatches (v : Verifier) (signature messageType deviceID requestID : Bytes)
    (signedAtMS : Int) (canonical : Bytes) : Bool :=
  let input := signingInput messageType deviceID requestID signedAtMS canonical
  if signature = signaturePrefix ++ computeSignature v.sharedSecret input then true
  else if v.previousSharedSecret = [] then false
  else decide (signature = signaturePrefix ++ computeSignature v.previousSharedSecret input)

end Verifier

/-- One verification: the payload, what it is expected to be, the clock reading under the lock and,
for a payload that answers something, the decision (whether it applied, and its error). -/
structure VerifyCall (U E : Type) where
  payload : Bytes
  messageType : Bytes
  expectedDeviceID : Bytes
  expectedRequestID : Bytes
  now : Int
  decide : Option (U → Bool × Option E)

/-- What a verification comes to: its error, if any, whether the decision was asked, and whether the
key was recorded. -/
structure Verdict (E : Type) where
  error : Option (VerifyError E)
  decided : Bool
  recorded : Bool

section Verify

variable {U E : Type}

/-- Refuse a stale or replayed envelope and record its key: always without a decision, and with one
only when it applied. -/
def checkFreshAndRecord (s : ReplayState) (key : Bytes) (signedAt now : Int) (unsigned : U)
    (decide : Option (U → Bool × Option E)) : Verdict E × ReplayState :=
  let s := s.prune now
  match s.check key signedAt now with
  | some e => (⟨some (.refused e), false, false⟩, s)
  | none =>
    match decide with
    | none => (⟨none, false, true⟩, s.record key signedAt now)
    | some decision =>
      let (applied, error) := decision unsigned
      if applied then
        match s.recheck key signedAt with
        | some e => (⟨some (.refused e), true, false⟩, s)
        | none => (⟨error.map .decision, true, true⟩, s.record key signedAt now)
      else (⟨error.map .decision, true, false⟩, s)

variable (decode : Bytes → Option (AuthEnvelope U))

/-- What a payload must be before it is looked up: of the scheme, signed, from whom and about what
is expected, and with a signature of the verifier's. -/
def authenticate (v : Verifier) (c : VerifyCall U E) : Except (VerifyError E) (AuthEnvelope U) :=
  match decode c.payload with
  | none => .error .undecodable
  | some envelope =>
    if envelope.auth.scheme ≠ heartbeatAuthScheme then .error .unsupportedScheme
    else if envelope.auth.signedAtMS ≤ 0 then .error .signedAtNotPositive
    else if !signaturePrefix.isPrefixOf envelope.auth.signature then .error .signatureScheme
    else if !memberMatches c.expectedDeviceID envelope.deviceID then .error .deviceMismatch
    else if !memberMatches c.expectedRequestID envelope.requestID then .error .requestMismatch
    else
      match envelope.canonical with
      | none => .error .notCanonical
      | some canonical =>
        if v.signatureMatches envelope.auth.signature c.messageType c.expectedDeviceID
            c.expectedRequestID envelope.auth.signedAtMS canonical then .ok envelope
        else .error .signatureMismatch

def VerifyCall.key (c : VerifyCall U E) (envelope : AuthEnvelope U) : Bytes :=
  replayKey c.messageType c.expectedDeviceID c.expectedRequestID envelope.auth.signedAtMS
    envelope.auth.signature

/-- **Verify a signed payload.** -/
def verifyJSON (v : Verifier) (c : VerifyCall U E) : Verdict E × Verifier :=
  match authenticate decode v c with
  | .error e => (⟨some e, false, false⟩, v)
  | .ok envelope =>
    let r := checkFreshAndRecord v.replay (c.key envelope) envelope.auth.signedAtMS c.now
      envelope.unsigned c.decide
    (r.1, { v with replay := r.2 })

def verifyAll (v : Verifier) (calls : List (VerifyCall U E)) : Verifier :=
  calls.foldl (fun v c => (verifyJSON decode v c).2) v

/-! ## What a verification can do -/

/-- **What one verification can do**: nothing to an envelope that does not authenticate; otherwise
the due keys are dropped, and then the envelope is refused, or passes and is recorded or not. -/
inductive Verifies (v : Verifier) (c : VerifyCall U E) : Verdict E → Verifier → Prop where
  | unauthenticated (e : VerifyError E) (hauth : authenticate decode v c = .error e) :
      Verifies v c ⟨some e, false, false⟩ v
  | refused (envelope : AuthEnvelope U) (e : ReplayRefusal)
      (hauth : authenticate decode v c = .ok envelope)
      (hcheck : (v.replay.prune c.now).check (c.key envelope) envelope.auth.signedAtMS c.now
        = some e) :
      Verifies v c ⟨some (.refused e), false, false⟩ { v with replay := v.replay.prune c.now }
  | declined (envelope : AuthEnvelope U) (verdict : Verdict E)
      (hauth : authenticate decode v c = .ok envelope)
      (hcheck : (v.replay.prune c.now).check (c.key envelope) envelope.auth.signedAtMS c.now = none)
      (hrecorded : verdict.recorded = false) :
      Verifies v c verdict { v with replay := v.replay.prune c.now }
  | recorded (envelope : AuthEnvelope U) (verdict : Verdict E)
      (hauth : authenticate decode v c = .ok envelope)
      (hcheck : (v.replay.prune c.now).check (c.key envelope) envelope.auth.signedAtMS c.now = none)
      (hrecorded : verdict.recorded = true) :
      Verifies v c verdict
        { v with replay :=
            (v.replay.prune c.now).record (c.key envelope) envelope.auth.signedAtMS c.now }

theorem verifies (v : Verifier) (c : VerifyCall U E) :
    Verifies decode v c (verifyJSON decode v c).1 (verifyJSON decode v c).2 := by
  unfold verifyJSON
  cases hauth : authenticate decode v c with
  | error e => exact .unauthenticated e hauth
  | ok envelope =>
    simp only [checkFreshAndRecord]
    cases hcheck : (v.replay.prune c.now).check (c.key envelope) envelope.auth.signedAtMS c.now with
    | some e => exact .refused envelope e hauth hcheck
    | none =>
      cases hdecide : c.decide with
      | none => exact .recorded envelope _ hauth hcheck rfl
      | some decision =>
        -- the decision runs under the same lock, so the second look cannot fail
        simp only
        split
        · split
          · exact .declined envelope _ hauth hcheck rfl
          · exact .recorded envelope _ hauth hcheck rfl
        · exact .declined envelope _ hauth hcheck rfl

/-- A passed check says that the key is not held and the signing time is not before the floor. -/
theorem ReplayState.check_eq_none {s : ReplayState} {key : Bytes} {signedAt t : Int} :
    s.check key signedAt t = none ↔ int64 (t - s.skew) ≤ signedAt ∧ signedAt ≤ int64 (t + s.skew) ∧
      s.floor ≤ signedAt ∧ s.keys.lookup key = none := by
  unfold ReplayState.check ReplayState.recheck
  split
  · simp
    omega
  · split
    · simp
      omega
    · split
      · simp
        omega
      · cases s.keys.lookup key with
        | none => simp; omega
        | some _ => simp

theorem Verifies.secrets {v v' : Verifier} {c : VerifyCall U E} {verdict : Verdict E}
    (h : Verifies decode v c verdict v') :
    v'.sharedSecret = v.sharedSecret ∧ v'.previousSharedSecret = v.previousSharedSecret := by
  cases h <;> exact ⟨rfl, rfl⟩

theorem secrets_verifyAll (v : Verifier) (calls : List (VerifyCall U E)) :
    (verifyAll decode v calls).sharedSecret = v.sharedSecret ∧
      (verifyAll decode v calls).previousSharedSecret = v.previousSharedSecret := by
  induction calls generalizing v with
  | nil => exact ⟨rfl, rfl⟩
  | cons c calls ih =>
    obtain ⟨hshared, hprevious⟩ := (verifies decode v c).secrets
    obtain ⟨hshared', hprevious'⟩ := ih (verifyJSON decode v c).2
    exact ⟨hshared'.trans hshared, hprevious'.trans hprevious⟩

theorem authenticate_verifyAll (v : Verifier) (calls : List (VerifyCall U E))
    (c : VerifyCall U E) :
    authenticate decode (verifyAll decode v calls) c = authenticate decode v c := by
  have hsecrets := secrets_verifyAll decode v calls
  generalize verifyAll decode v calls = v' at hsecrets
  obtain ⟨shared, previous, replay⟩ := v'
  obtain ⟨rfl, rfl⟩ := hsecrets
  rfl

theorem verifyAll_append (v : Verifier) (calls calls' : List (VerifyCall U E)) :
    verifyAll decode v (calls ++ calls') = verifyAll decode (verifyAll decode v calls) calls' :=
  List.foldl_append

theorem verifyAll_concat (v : Verifier) (calls : List (VerifyCall U E)) (c : VerifyCall U E) :
    verifyAll decode v (calls ++ [c]) = (verifyJSON decode (verifyAll decode v calls) c).2 := by
  rw [verifyAll_append]
  rfl

end Verify

end OriGateway
