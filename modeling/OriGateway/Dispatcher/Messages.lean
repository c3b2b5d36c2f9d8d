import OriGateway.Evidence.Inbound

/-! # Reasoning requests and responses

What a runtime asks and what it is answered: a request is decoded and checked (`decodeRequest`,
`validateRequest`, `validateRequestTopic`), and a response is written with the request's own
identity, signed when the gateway signs (`encodeResponse`). Every response that is written reads
back with the identity of the request it answers (`responseRoute_of_encodeResponse`).

Floating-point numbers and a request's reading context are only carried, so they are parameters: a
`FloatFormat` is the numbers a response may hold and how they are written, and the context is a type
with its reader. -/

namespace OriGateway

open Foundation

/-! ## Topics -/

def reasoningRequestMessageType : Bytes := ascii "reasoning_request"

def reasoningResponseMessageType : Bytes := ascii "reasoning_response"

def reasoningResponseMaximum : Nat := 262144

def errorResponseTooLarge : Bytes := ascii "response_too_large"

/-- A topic `ori/<device>/reasoning/<direction>`. -/
def reasoningTopic (direction device : Bytes) : Option Bytes :=
  if validMQTTDeviceID device then some (ascii "ori/" ++ device ++ ascii "/reasoning/" ++ direction)
  else none

def requestTopic (device : Bytes) : Option Bytes := reasoningTopic (ascii "request") device

def responseTopic (device : Bytes) : Option Bytes := reasoningTopic (ascii "response") device

/-- Whether a text may be the identity of a request: 1 to 128 letters, digits, dots, underscores and
hyphens. -/
def validRoutingID (value : Bytes) : Bool :=
  value != [] && decide (value.length ≤ 128) && value.all fun b =>
    (decide (97 ≤ b.toNat) && decide (b.toNat ≤ 122)) ||
      (decide (65 ≤ b.toNat) && decide (b.toNat ≤ 90)) ||
      (decide (48 ≤ b.toNat) && decide (b.toNat ≤ 57)) || b == 46 || b == 95 || b == 45

def isValidActionTier (tier : Bytes) : Bool :=
  tier == ascii "A" || tier == ascii "B" || tier == ascii "C" || tier == ascii "D"

/-! ## Requests -/

/-- A request, around a reading context. -/
structure ReasoningRequest (X : Type) where
  requestID : Bytes
  deviceID : Bytes
  sensorType : Bytes
  triggerName : Bytes
  prompt : Bytes
  context : X
  actionTierHint : Bytes
  timeoutMS : Int
  auth : Option HeartbeatAuth

namespace ReasoningRequest

variable {X : Type}

/-- The names of the members of a request. -/
def fields : List Bytes :=
  [ascii "request_id", ascii "device_id", ascii "sensor_type", ascii "trigger_name", ascii "prompt",
    ascii "context", ascii "action_tier_hint", ascii "timeout_ms", ascii "auth"]

/-- Read an authenticator that may be absent; members it does not name are passed over. -/
def readAuth : Json → Option (Option HeartbeatAuth)
  | .null => some none
  | .obj members =>
    (Json.decodeMembers false heartbeatAuthMembers storeHeartbeatAuth members ⟨[], 0, []⟩).map some
  | _ => none

/-- Store a member of a request. -/
def store (readContext : X → Json → Option X) :
    Nat → Json → ReasoningRequest X → Option (ReasoningRequest X)
  | 0, v, r => (Json.readString r.requestID v).map fun s => { r with requestID := s }
  | 1, v, r => (Json.readString r.deviceID v).map fun s => { r with deviceID := s }
  | 2, v, r => (Json.readString r.sensorType v).map fun s => { r with sensorType := s }
  | 3, v, r => (Json.readString r.triggerName v).map fun s => { r with triggerName := s }
  | 4, v, r => (Json.readString r.prompt v).map fun s => { r with prompt := s }
  | 5, v, r => (readContext r.context v).map fun c => { r with context := c }
  | 6, v, r => (Json.readString r.actionTierHint v).map fun s => { r with actionTierHint := s }
  | 7, v, r => (Json.readInt64 r.timeoutMS v).map fun n => { r with timeoutMS := n }
  | _, v, r => (readAuth v).map fun a => { r with auth := a }

def zero (context : X) : ReasoningRequest X := ⟨[], [], [], [], [], context, [], 0, none⟩

/-- What identifies a request: a request's identity is unique within its device alone. -/
def key (r : ReasoningRequest X) : Bytes × Bytes := (r.deviceID, r.requestID)

end ReasoningRequest

/-- **Decode a request.** -/
def decodeRequest {X : Type} (readContext : X → Json → Option X) (context : X) (payload : Bytes) :
    Option (ReasoningRequest X) :=
  Json.decodeRecord false ReasoningRequest.fields (ReasoningRequest.store readContext)
    (.zero context) payload

/-- Why a request is not valid. -/
inductive InvalidRequest where
  /-- "request_id must be 1 to 128 ASCII letters, digits, '.', '_' or '-'". -/
  | requestID
  | deviceID
  /-- "prompt must not be empty". -/
  | emptyPrompt
  /-- "action_tier_hint must be A, B, C, or D". -/
  | actionTierHint
  /-- "timeout_ms must not be negative". -/
  | negativeTimeout
  deriving DecidableEq

/-- **Validate a request**: its identity, its prompt and its tier. -/
def validateRequest {X : Type} (req : ReasoningRequest X) : Except InvalidRequest Unit :=
  if !validRoutingID req.requestID then .error .requestID
  else if !validMQTTDeviceID req.deviceID then .error .deviceID
  else if req.prompt = [] then .error .emptyPrompt
  else if !isValidActionTier req.actionTierHint then .error .actionTierHint
  else .ok ()

/-- Whether a request came on its device's topic; no topic is that of a caller within the
gateway. -/
def validateRequestTopic {X : Type} (req : ReasoningRequest X) (topic : Bytes) : Bool :=
  topic == [] || requestTopic req.deviceID == some topic

theorem validateRequest_ok_iff {X : Type} {req : ReasoningRequest X} :
    validateRequest req = .ok () ↔
    validRoutingID req.requestID = true ∧ validMQTTDeviceID req.deviceID = true ∧ req.prompt ≠ [] ∧
      isValidActionTier req.actionTierHint = true := by
  unfold validateRequest
  split_ifs with hrequest hdevice hprompt htier <;> simp_all

/-! ## What was read is well formed -/

theorem isPlain_of_validRoutingID {value : Bytes} (h : validRoutingID value = true) :
    ∀ b ∈ value, Json.isPlain b = true := by
  intro b hb
  simp only [validRoutingID, Bool.and_eq_true, List.all_eq_true] at h
  have hbyte := h.2 b hb
  simp only [Bool.or_eq_true, Bool.and_eq_true, decide_eq_true_eq, beq_iff_eq] at hbyte
  rw [Json.isPlain_iff]
  have hnat : ∀ n : UInt8, b = n ↔ b.toNat = n.toNat := fun n => UInt8.toNat_inj.symm
  simp only [ne_eq, hnat] at hbyte ⊢
  simp only [UInt8.reduceToNat] at hbyte ⊢
  omega

/-- **The device of a request is well-formed text.** -/
theorem valid_deviceID_of_decodeRequest {X : Type} {readContext : X → Json → Option X} {context : X}
    {payload : Bytes} {req : ReasoningRequest X}
    (h : decodeRequest readContext context payload = some req) :
    Utf8.valid req.deviceID = true := by
  obtain ⟨v, hparse, hstruct⟩ := Option.bind_eq_some_iff.mp h
  obtain ⟨-, -, -, -, -, hfits⟩ := Json.of_parse hparse
  have hzero : Utf8.valid (ReasoningRequest.zero context).deviceID = true := rfl
  cases v with
  | null =>
    cases hstruct
    exact hzero
  | obj members =>
    rw [Json.maxNestingDepth, Json.Fits] at hfits
    refine Json.decodeMembers_induction (I := fun r => Utf8.valid r.deviceID = true)
      (fun i v r r' hv hr hstored => ?_) hfits hzero hstruct
    -- only the field of the device changes it
    unfold ReasoningRequest.store at hstored
    split at hstored
    case h_2 =>
      obtain ⟨s, hs, rfl⟩ := Option.map_eq_some_iff.mp hstored
      exact Json.valid_of_readString hv hr hs
    all_goals
      obtain ⟨_, -, rfl⟩ := Option.map_eq_some_iff.mp hstored
      exact hr
  | _ => cases hstruct

/-! ## Responses -/

/-- The numbers a response may hold: nought, rounding to four decimal places, and the text of a
number that has one. -/
structure FloatFormat (F : Type) where
  zero : F
  round : F → F
  format : F → Option Bytes
  isNumber : ∀ x lit, format x = some lit → Json.IsNumber lit

/-- A response. -/
structure ReasoningResponse (F : Type) where
  requestID : Bytes
  deviceID : Bytes
  text : Bytes
  model : Bytes
  tokensUsed : Int
  latencyMS : Int
  confidence : F
  actionTier : Bytes
  proposedAction : Option Bytes
  error : Option Bytes
  auth : Option HeartbeatAuth

def maxErrorScalars : Nat := 128

/-- The first characters of a message, with the number of them taken so far and the number of bytes
of the last one still to come. -/
def boundedFrom : Nat → Nat → Bytes → Bytes
  | _, _, [] => []
  | count, rest + 1, b :: message => b :: boundedFrom count rest message
  | count, 0, b :: message =>
    if count = maxErrorScalars then []
    else b :: boundedFrom (count + 1) ((Utf8.decodeRune b message).elim 0 Prod.snd) message

def boundedError (message : Bytes) : Bytes := boundedFrom 0 0 message

section Responses

variable {F X : Type} (floats : FloatFormat F)

/-- An error response: a bounded error and no other content of its own. -/
def newErrorResponse (requestID deviceID actionTier message : Bytes) : ReasoningResponse F where
  requestID := requestID
  deviceID := deviceID
  text := []
  model := []
  tokensUsed := 0
  latencyMS := 0
  confidence := floats.zero
  actionTier := actionTier
  proposedAction := none
  error := some (boundedError message)
  auth := none

def errorResponseFor (req : ReasoningRequest X) (message : Bytes) : ReasoningResponse F :=
  newErrorResponse floats req.requestID req.deviceID req.actionTierHint message

/-- Whether a response answers a request: its identity is compared, its tier only has to be one. -/
def validateResponseForRequest (req : ReasoningRequest X) (resp : ReasoningResponse F) : Bool :=
  req.requestID == resp.requestID && req.deviceID == resp.deviceID &&
    isValidActionTier resp.actionTier

/-- The members of a response, in the order they are written. -/
def responseMembers (resp : ReasoningResponse F) (confidence : Bytes) : List (Bytes × Json) :=
  [(ascii "request_id", .ofString resp.requestID), (ascii "device_id", .ofString resp.deviceID),
    (ascii "text", .ofString resp.text), (ascii "model", .ofString resp.model),
    (ascii "tokens_used", .ofInt resp.tokensUsed), (ascii "latency_ms", .ofInt resp.latencyMS),
    (ascii "confidence", .num confidence), (ascii "action_tier", .ofString resp.actionTier),
    (ascii "proposed_action", (resp.proposedAction.map Json.ofString).getD .null)] ++
  resp.error.toList.map (fun e => (ascii "error", .ofString e)) ++
  resp.auth.toList.map fun a => (ascii "auth", authJson a)

/-- The text of a response, unless its confidence has none. -/
def marshalResponse (resp : ReasoningResponse F) : Option Bytes :=
  (floats.format resp.confidence).map fun lit => (Json.obj (responseMembers resp lit)).render

/-- Why a response has no bytes. -/
inductive EncodeError where
  /-- The signing clock gives no time. -/
  | clock
  /-- "sign response". -/
  | sign
  /-- "encode response". -/
  | marshal
  deriving DecidableEq

/-- **The bytes of a response**: an error goes out as the error response, the confidence is rounded,
and the whole is signed with the time the clock gives, when there is a secret. -/
def encodeResponse (lib : CanonicalJSON) (signingSecret : Bytes) (req : ReasoningRequest X)
    (resp : ReasoningResponse F) (signedAt : Option Int) : Except EncodeError Bytes :=
  let resp := match resp.error with
    | some message => errorResponseFor floats req message
    | none => resp
  let resp := { resp with confidence := floats.round resp.confidence, auth := none }
  if signingSecret = [] then (marshalResponse floats resp).elim (.error .marshal) .ok
  else
    match signedAt with
    | none => .error .clock
    | some signedAt =>
      match marshalResponse floats resp with
      | none => .error .sign
      | some text =>
        match sign lib text reasoningResponseMessageType req.deviceID req.requestID signedAt
            signingSecret with
        | .error _ => .error .sign
        | .ok auth =>
          (marshalResponse floats { resp with auth := some auth }).elim (.error .marshal) .ok

/-- What a runtime reads of a response to find the request it answers. -/
def responseRoute (payload : Bytes) : Option (Bytes × Bytes) :=
  Json.decodeRecord false [ascii "request_id", ascii "device_id"]
    (fun i v r => match i with
      | 0 => (Json.readString r.1 v).map fun s => (s, r.2)
      | _ => (Json.readString r.2 v).map fun s => (r.1, s)) ([], []) payload

variable {floats}

/-- The names of the members after the identity, and those of an authenticator. -/
def responseTail : List Bytes :=
  [ascii "text", ascii "model", ascii "tokens_used", ascii "latency_ms", ascii "confidence",
    ascii "action_tier", ascii "proposed_action", ascii "error", ascii "auth"]

theorem isRaw_responseName {name : Bytes}
    (h : name ∈ [ascii "request_id", ascii "device_id", ascii "scheme", ascii "signed_at_ms",
      ascii "signature"] ++ responseTail) : Json.IsRaw name := by
  have hplain : ∀ name ∈ [ascii "request_id", ascii "device_id", ascii "scheme",
      ascii "signed_at_ms", ascii "signature"] ++ responseTail, ∀ b ∈ name,
        Json.isPlain b = true := by
    decide +kernel
  exact Json.isRaw_of_plain (hplain name h)

theorem fits_authJson (depth : Nat) (auth : HeartbeatAuth) :
    Json.Fits (depth + 1) (authJson auth) := by
  rw [authJson, Json.Fits, Json.fitsMembers_iff]
  intro m hm
  simp only [List.mem_cons, List.not_mem_nil, or_false] at hm
  rcases hm with rfl | rfl | rfl
  · exact ⟨isRaw_responseName (by simp), Json.fits_ofString _ _⟩
  · exact ⟨isRaw_responseName (by simp), Json.fits_ofInt _ _⟩
  · exact ⟨isRaw_responseName (by simp), Json.fits_ofString _ _⟩

def responseRest (resp : ReasoningResponse F) (confidence : Bytes) : List (Bytes × Json) :=
  (responseMembers resp confidence).drop 2

theorem responseMembers_eq (resp : ReasoningResponse F) (confidence : Bytes) :
    responseMembers resp confidence =
      (ascii "request_id", .ofString resp.requestID) ::
        (ascii "device_id", .ofString resp.deviceID) :: responseRest resp confidence := rfl

theorem responseRest_mem {resp : ReasoningResponse F} {confidence : Bytes}
    (hnumber : Json.IsNumber confidence) {m : Bytes × Json} (hm : m ∈ responseRest resp confidence)
    (depth : Nat) : m.1 ∈ responseTail ∧ Json.Fits (depth + 1) m.2 := by
  have haction : Json.Fits (depth + 1) ((resp.proposedAction.map Json.ofString).getD .null) := by
    cases resp.proposedAction with
    | none => trivial
    | some action => exact Json.fits_ofString _ _
  simp only [responseRest, responseMembers, List.cons_append, List.nil_append, List.drop_succ_cons,
    List.drop_zero, List.mem_cons, List.mem_append, List.mem_map, Option.mem_toList] at hm
  rcases hm with rfl | rfl | rfl | rfl | rfl | rfl | rfl | ⟨e, -, rfl⟩ | ⟨auth, -, rfl⟩
  · exact ⟨by simp [responseTail], Json.fits_ofString _ _⟩
  · exact ⟨by simp [responseTail], Json.fits_ofString _ _⟩
  · exact ⟨by simp [responseTail], Json.fits_ofInt _ _⟩
  · exact ⟨by simp [responseTail], Json.fits_ofInt _ _⟩
  · exact ⟨by simp [responseTail], hnumber⟩
  · exact ⟨by simp [responseTail], Json.fits_ofString _ _⟩
  · exact ⟨by simp [responseTail], haction⟩
  · exact ⟨by simp [responseTail], Json.fits_ofString _ _⟩
  · exact ⟨by simp [responseTail], fits_authJson _ _⟩

/-- **The text of a response reads back as its members.** -/
theorem parse_marshalResponse {resp : ReasoningResponse F} {payload : Bytes}
    (h : marshalResponse floats resp = some payload) :
    ∃ lit, Json.IsNumber lit ∧ Json.parse payload = some (.obj (responseMembers resp lit)) := by
  obtain ⟨lit, hlit, rfl⟩ := Option.map_eq_some_iff.mp h
  have hnumber := floats.isNumber _ lit hlit
  refine ⟨lit, hnumber, Json.parse_render ?_⟩
  rw [Json.maxNestingDepth, Json.Fits, Json.fitsMembers_iff, responseMembers_eq]
  intro m hm
  rcases List.mem_cons.mp hm with rfl | hm
  · exact ⟨isRaw_responseName (by simp), Json.fits_ofString _ _⟩
  · rcases List.mem_cons.mp hm with rfl | hm
    · exact ⟨isRaw_responseName (by simp), Json.fits_ofString _ _⟩
    · obtain ⟨hname, hfits⟩ := responseRest_mem hnumber hm 9998
      exact ⟨isRaw_responseName (List.mem_append_right _ hname), hfits⟩

/-- **A response is found by its identity.** -/
theorem responseRoute_marshalResponse {resp : ReasoningResponse F} {payload : Bytes}
    (h : marshalResponse floats resp = some payload) (hrequest : Utf8.valid resp.requestID = true)
    (hdevice : Utf8.valid resp.deviceID = true) :
    responseRoute payload = some (resp.requestID, resp.deviceID) := by
  obtain ⟨lit, hnumber, hparse⟩ := parse_marshalResponse h
  have hfirst : Json.matchField [ascii "request_id", ascii "device_id"]
      (Json.unquote (ascii "request_id")) = some 0 := by decide +kernel
  have hsecond : Json.matchField [ascii "request_id", ascii "device_id"]
      (Json.unquote (ascii "device_id")) = some 1 := by decide +kernel
  have hothers : ∀ name ∈ responseTail, Json.matchField [ascii "request_id", ascii "device_id"]
      (Json.unquote name) = none := by decide +kernel
  rw [responseRoute, Json.decodeRecord, hparse, Option.bind_some, Json.decodeStruct,
    responseMembers_eq, Json.decodeMembers, hfirst]
  simp only [Json.readString_ofString hrequest, Option.map_some, Option.bind_some]
  rw [Json.decodeMembers, hsecond]
  simp only [Json.readString_ofString hdevice, Option.map_some, Option.bind_some]
  exact Json.decodeMembers_pass (fun m hm => hothers _ (responseRest_mem hnumber hm 0).1) _

/-- The response that goes out: one with an error is the error response. -/
def outgoing (floats : FloatFormat F) (req : ReasoningRequest X) (resp : ReasoningResponse F) :
    ReasoningResponse F :=
  match resp.error with
  | some message => errorResponseFor floats req message
  | none => resp

/-- **What is written of a response**: what goes out, its confidence rounded, with no authenticator
when nothing is signed, and else with one for the time the signing clock gave. -/
theorem encodeResponse_inv {lib : CanonicalJSON} {signingSecret : Bytes} {req : ReasoningRequest X}
    {resp : ReasoningResponse F} {signedAt : Option Int} {payload : Bytes}
    (h : encodeResponse floats lib signingSecret req resp signedAt = .ok payload) :
    ∃ auth : Option HeartbeatAuth,
      (signingSecret = [] ∧ auth = none ∨ signingSecret ≠ [] ∧ ∃ a text signedAtMS, auth = some a ∧
        signedAt = some signedAtMS ∧ sign lib text reasoningResponseMessageType req.deviceID
          req.requestID signedAtMS signingSecret = .ok a) ∧
      marshalResponse floats { outgoing floats req resp with
        confidence := floats.round (outgoing floats req resp).confidence, auth := auth } =
          some payload := by
  have hsome : ∀ {o : Option Bytes},
      o.elim (.error .marshal) .ok = (.ok payload : Except EncodeError Bytes) →
      o = some payload := by
    intro o ho
    cases o with
    | none => cases ho
    | some p =>
      cases ho
      rfl
  unfold encodeResponse at h
  extract_lets base sent at h
  split at h
  · next hsecret => exact ⟨none, .inl ⟨hsecret, rfl⟩, hsome h⟩
  · next hsecret =>
    split at h
    · cases h
    · next signedAtMS =>
      split at h
      · cases h
      · next text _ =>
        split at h
        · cases h
        · next auth hsign =>
          exact ⟨some auth, .inr ⟨hsecret, auth, text, signedAtMS, rfl, rfl, hsign⟩, hsome h⟩

/-- **Every response that is written reads back with the identity of the request it answers.** -/
theorem responseRoute_of_encodeResponse {lib : CanonicalJSON} {signingSecret : Bytes}
    {req : ReasoningRequest X} {resp : ReasoningResponse F} {signedAt : Option Int}
    {payload : Bytes} (h : encodeResponse floats lib signingSecret req resp signedAt = .ok payload)
    (hrequest : resp.requestID = req.requestID) (hdevice : resp.deviceID = req.deviceID)
    (hvalid : validRoutingID req.requestID = true) (hutf8 : Utf8.valid req.deviceID = true) :
    responseRoute payload = some (req.requestID, req.deviceID) := by
  obtain ⟨auth, -, hmarshal⟩ := encodeResponse_inv h
  have hsent : (outgoing floats req resp).requestID = req.requestID ∧
      (outgoing floats req resp).deviceID = req.deviceID := by
    unfold outgoing
    split
    · exact ⟨rfl, rfl⟩
    · exact ⟨hrequest, hdevice⟩
  have hrequest8 := Json.valid_of_plain (isPlain_of_validRoutingID hvalid)
  have hroute := responseRoute_marshalResponse hmarshal (hsent.1 ▸ hrequest8) (hsent.2 ▸ hutf8)
  rw [hroute, hsent.1, hsent.2]

end Responses

end OriGateway
