import OriGateway.Dispatcher.Answers
import OriGateway.Evidence.Inbound

/-! # The sizes of responses

A response over its family's maximum is replaced by an error response, and an error response is
meant to fit the floor below which no maximum may be set. It is not measured: its error is cut to a
number of characters and the identity of its request is bounded, but the device it names is bounded
by nothing, and is written with escapes.

`length_error` counts the bytes of an error response. So `responses_within_maxima` says which
published responses fit, and `error_response_over_floor` is a device whose error response does
not. -/

namespace OriGateway

open Foundation

/-- The least maximum a message family may have. -/
def payloadFloor : Nat := 4096

/-- Whether a response carries an error. -/
def carriesError (payload : Bytes) : Bool :=
  match Json.parse payload with
  | some (.obj members) => members.any fun m => m.1 == ascii "error"
  | _ => false

/-- The number of bytes a text is written in, between its quotes. -/
def escapedLength (text : Bytes) : Nat := (Json.escapeFrom 0 true text).length

section Sizes

variable {F X : Type} (cfg : DispatcherConfig F X)

/-- The number of bytes of the authenticator of a response, with its name. -/
def authLength (signedAt : Option Int) : Nat :=
  if cfg.signingSecret = [] then 0 else 139 + (formatInt (signedAt.getD 0)).length

/-- **The number of bytes of an error response.** -/
def errorLength (req : ReasoningRequest X) (message : Bytes) (signedAt : Option Int) : Nat :=
  escapedLength req.deviceID + req.requestID.length + escapedLength (boundedError message) +
    ((cfg.floats.format (cfg.floats.round cfg.floats.zero)).getD []).length + authLength cfg
      signedAt + 150

/-- The error that goes out in answer to a request, if one does, with the time it is signed at. -/
def sentError (req : ReasoningRequest X) (resp : ReasoningResponse F) (first second : Option Int) :
    Option (Bytes × Option Int) :=
  match encodeResponse cfg.floats cfg.lib cfg.signingSecret req resp first with
  | .error _ => some (invalidResponseMessage, second)
  | .ok payload =>
    if reasoningResponseMaximum < payload.length then some (errorResponseTooLarge, second)
    else resp.error.map fun message => (message, first)

variable {cfg} {req : ReasoningRequest X} {payload : Bytes}

theorem length_render_escaped (text : Bytes) :
    (Json.render (.ofString text)).length = escapedLength text + 2 := by
  simp [Json.ofString, Json.render, escapedLength]

theorem length_authJson {lib : CanonicalJSON} {text messageType deviceID requestID secret : Bytes}
    {signedAtMS : Int} {auth : HeartbeatAuth}
    (h : sign lib text messageType deviceID requestID signedAtMS secret = .ok auth) :
    (Json.render (authJson auth)).length = 131 + (formatInt signedAtMS).length := by
  obtain ⟨canonical, -, rfl⟩ := of_sign h
  have hplain : ∀ b ∈ heartbeatAuthScheme ++ signaturePrefix, Json.isPlain b = true := by
    decide +kernel
  have hsignature : ∀ secret input, ∀ b ∈ signaturePrefix ++ computeSignature secret input,
      Json.isPlain b = true := by
    intro secret input b hb
    rcases List.mem_append.mp hb with hb | hb
    · exact hplain b (List.mem_append_right _ hb)
    · exact Json.isPlain_hexEncode _ b hb
  have hnames : (ascii "scheme").length = 6 ∧ (ascii "signed_at_ms").length = 12 ∧
      (ascii "signature").length = 9 ∧ heartbeatAuthScheme.length = 11 ∧
      signaturePrefix.length = 12 := by
    decide
  have hdigest : ∀ secret input, (computeSignature secret input).length = 64 := by
    simp [computeSignature, hmacSha256]
  simp only [authJson, Json.length_render_obj, List.map_cons, List.map_nil, List.sum_cons,
    List.sum_nil, Json.length_render_ofInt, Json.length_render_ofString (hsignature _ _),
    Json.length_render_ofString fun b hb => hplain b (List.mem_append_left _ hb),
    List.length_append,
    hnames, hdigest]
  omega

/-- **The bytes of an error response are counted.** -/
theorem length_error {resp : ReasoningResponse F} {message : Bytes} {signedAt : Option Int}
    (hrequest : validRoutingID req.requestID = true)
    (htier : isValidActionTier req.actionTierHint = true)
    (hresp : outgoing cfg.floats req resp = errorResponseFor cfg.floats req message)
    (h : encodeResponse cfg.floats cfg.lib cfg.signingSecret req resp signedAt = .ok payload) :
    payload.length = errorLength cfg req message signedAt := by
  obtain ⟨auth, hauth, hmarshal⟩ := encodeResponse_inv h
  rw [hresp] at hmarshal
  obtain ⟨lit, hlit, rfl⟩ := Option.map_eq_some_iff.mp hmarshal
  have hconfidence : cfg.floats.format (cfg.floats.round cfg.floats.zero) = some lit := hlit
  have htierLength : (Json.render (.ofString req.actionTierHint)).length = 3 := by
    simp only [isValidActionTier, Bool.or_eq_true, beq_iff_eq] at htier
    rcases htier with ((heq | heq) | heq) | heq <;> rw [heq] <;> decide
  have hnames : (ascii "request_id").length = 10 ∧ (ascii "device_id").length = 9 ∧
      (ascii "text").length = 4 ∧ (ascii "model").length = 5 ∧ (ascii "tokens_used").length = 11 ∧
      (ascii "latency_ms").length = 10 ∧ (ascii "confidence").length = 10 ∧
      (ascii "action_tier").length = 11 ∧ (ascii "proposed_action").length = 15 ∧
      (ascii "error").length = 5 ∧ (ascii "auth").length = 4 := by
    decide
  have hfixed : (Json.render (.ofString [])).length = 2 ∧ (Json.render (.ofInt 0)).length = 1 ∧
      (Json.render .null).length = 4 := by
    decide
  have hnumber : (Json.render (.num lit)).length = lit.length := rfl
  have hid := Json.length_render_ofString (isPlain_of_validRoutingID hrequest)
  rw [errorLength, hconfidence, authLength]
  rcases hauth with ⟨hsecret, rfl⟩ | ⟨hsecret, auth, text, signedAtMS, rfl, rfl, hsign⟩
  · rw [if_pos hsecret]
    simp only [responseMembers, errorResponseFor, newErrorResponse, List.cons_append,
      List.nil_append, Option.toList_some, Option.toList_none, Option.map_none, Option.getD_none,
      Option.getD_some, Json.length_render_obj, List.map_cons, List.map_nil, List.sum_cons,
      List.sum_nil, hnames, hfixed, hnumber, hid, htierLength, length_render_escaped req.deviceID,
      length_render_escaped (boundedError message)]
    omega
  · rw [if_neg hsecret]
    simp only [responseMembers, errorResponseFor, newErrorResponse, List.cons_append,
      List.nil_append, Option.toList_some, Option.map_none, Option.getD_none, Option.getD_some,
      Json.length_render_obj, List.map_cons, List.map_nil, List.sum_cons, List.sum_nil, hnames,
      hfixed, hnumber, hid, htierLength, length_render_escaped req.deviceID,
      length_render_escaped (boundedError message), length_authJson hsign]
    omega

/-- **A payload carries an error exactly when its response has one.** -/
theorem carriesError_marshalResponse {resp : ReasoningResponse F}
    (h : marshalResponse cfg.floats resp = some payload) :
    carriesError payload = resp.error.isSome := by
  obtain ⟨lit, -, hparse⟩ := parse_marshalResponse h
  have hnames : ∀ name ∈ [ascii "request_id", ascii "device_id", ascii "text", ascii "model",
      ascii "tokens_used", ascii "latency_ms", ascii "confidence", ascii "action_tier",
      ascii "proposed_action", ascii "auth"], (name == ascii "error") = false := by
    decide
  rw [carriesError, hparse]
  simp only [responseMembers, List.any_append, List.any_cons, List.any_nil, List.any_map,
    Function.comp_def, hnames _ (by simp : ascii "auth" ∈ _), Bool.or_false]
  simp only [hnames _ (by simp : ascii "request_id" ∈ _),
    hnames _ (by simp : ascii "device_id" ∈ _), hnames _ (by simp : ascii "text" ∈ _),
    hnames _ (by simp : ascii "model" ∈ _),
    hnames _ (by simp : ascii "tokens_used" ∈ _), hnames _ (by simp : ascii "latency_ms" ∈ _),
    hnames _ (by simp : ascii "confidence" ∈ _), hnames _ (by simp : ascii "action_tier" ∈ _),
    hnames _ (by simp : ascii "proposed_action" ∈ _), Bool.false_or]
  cases resp.error <;> simp

theorem carriesError_of_encodeResponse {resp : ReasoningResponse F} {signedAt : Option Int}
    (h : encodeResponse cfg.floats cfg.lib cfg.signingSecret req resp signedAt = .ok payload) :
    carriesError payload = resp.error.isSome := by
  obtain ⟨auth, -, hmarshal⟩ := encodeResponse_inv h
  rw [carriesError_marshalResponse hmarshal]
  unfold outgoing
  split
  · next message herror => rw [herror]; rfl
  · next herror => rw [herror]

/-- **What goes out**: an error response of the length that was counted, or a response without an
error that is within the maximum. -/
theorem replyPayload_size {resp : ReasoningResponse F} {first second : Option Int}
    (hrequest : validRoutingID req.requestID = true)
    (htier : isValidActionTier req.actionTierHint = true)
    (h : replyPayload cfg req resp first second = .ok payload) :
    match sentError cfg req resp first second with
    | some (message, signedAt) =>
      carriesError payload = true ∧ payload.length = errorLength cfg req message signedAt
    | none => carriesError payload = false ∧ payload.length ≤ reasoningResponseMaximum := by
  unfold replyPayload at h
  unfold sentError
  cases hencode : encodeResponse cfg.floats cfg.lib cfg.signingSecret req resp first with
  | error e =>
    rw [hencode] at h
    exact ⟨carriesError_of_encodeResponse h, length_error hrequest htier rfl h⟩
  | ok written =>
    rw [hencode] at h
    dsimp only at h ⊢
    split_ifs at h ⊢ with hlarge
    · exact ⟨carriesError_of_encodeResponse h, length_error hrequest htier rfl h⟩
    · cases h
      have hcarries := carriesError_of_encodeResponse hencode
      cases herror : resp.error with
      | some message =>
        rw [herror] at hcarries
        exact ⟨hcarries, length_error hrequest htier (by rw [outgoing, herror]) hencode⟩
      | none =>
        rw [herror] at hcarries
        exact ⟨hcarries, not_lt.mp hlarge⟩

/-- **A reply fits exactly when its error response, if it is one, is counted within the floor.** -/
theorem replyPayload_fits_iff {resp : ReasoningResponse F} {first second : Option Int}
    (hrequest : validRoutingID req.requestID = true)
    (htier : isValidActionTier req.actionTierHint = true)
    (h : replyPayload cfg req resp first second = .ok payload) :
    (payload.length ≤ reasoningResponseMaximum ∧
        (carriesError payload = true → payload.length ≤ payloadFloor)) ↔
      ∀ sent ∈ sentError cfg req resp first second, errorLength cfg req sent.1 sent.2
        ≤ payloadFloor := by
  have hsize := replyPayload_size hrequest htier h
  have hfloor : payloadFloor ≤ reasoningResponseMaximum := by decide
  cases hsent : sentError cfg req resp first second with
  | none =>
    rw [hsent] at hsize
    simp [hsize.1, hsize.2]
  | some sent =>
    rw [hsent] at hsize
    simp only [hsize.1, hsize.2, Option.mem_some_iff, forall_eq', forall_const]
    exact ⟨fun hfits => hfits.2, fun hfits => ⟨hfits.trans hfloor, hfits⟩⟩

end Sizes

/-- **Which responses fit.** In every run, of each request and what its provider did: the response
that is published is within its family's maximum, and within the floor if it carries an error,
exactly when the error that goes out, if one does, makes an error response that is counted within
the floor. -/
theorem responses_within_maxima {F X : Type} (cfg : DispatcherConfig F X)
    (verifier : Option Verifier) {steps : List (DispatchStep F)} {s : Requests F X}
    (hrun : runAll (Requests.step cfg) (.start verifier) steps = some s) :
    ∀ i req timeout outcome first second topic payload taken, .called req timeout ∈ s.trace i →
      .replying outcome first second ∈ s.trace i → .published topic payload taken ∈ s.trace i →
        ((payload.length ≤ reasoningResponseMaximum ∧
            (carriesError payload = true → payload.length ≤ payloadFloor)) ↔
          ∀ sent ∈ sentError cfg req (responseTo cfg req outcome) first second,
            errorLength cfg req sent.1 sent.2 ≤ payloadFloor) := by
  intro i req timeout outcome first second topic payload taken hcalled hreplying hpublished
  obtain ⟨k, haccepts, hfits⟩ := ((Requests.tracked_run cfg verifier hrun).traced i).handled hcalled
  obtain ⟨rfl, -⟩ := hfits _ hcalled
  obtain ⟨rfl, rfl, rfl⟩ := hfits _ hreplying
  obtain ⟨-, hreply, -⟩ := hfits _ hpublished
  exact replyPayload_fits_iff haccepts.requestID haccepts.tier hreply

/-- The topic of a device whose name is a number of bytes that are each written as six. -/
def longTopic (n : Nat) : Bytes := ascii "ori/" ++ List.replicate n 60 ++ ascii "/reasoning/request"

/-- A request of that device. -/
def longRequest (n : Nat) : Bytes :=
  ascii "\x7b\"request_id\":\"r\",\"prompt\":\"p\",\"action_tier_hint\":\"A\",\"device_id\":\"" ++
    List.replicate n 60 ++ ascii "\"\x7d"

/-- The request arrives, and its provider fails. -/
def failedRequest (n : Nat) : List (DispatchStep Unit) :=
  [.arrive (longTopic n) (longRequest n) false 0, .begin 0, .answer 0 .failed none none true]

/-- The lengths of the errors that are published. -/
def publishedErrors (trace : List (DispatchEvent Unit Unit)) : List Nat :=
  trace.filterMap fun
    | .published _ payload _ => if carriesError payload then some payload.length else none
    | _ => none

/-- **A device's name makes an error response that does not fit the floor**: a request of a device
of 700 bytes is accepted, its provider fails, and the error response names the device in six times
as many. -/
theorem error_response_over_floor :
    (longTopic 700).length ≤ 65535 ∧ (longRequest 700).length ≤ 262144 ∧
      (runAll (Requests.step plainDispatcher) (.start none) (failedRequest 700)).map
        (fun s => publishedErrors (s.trace 0)) = some [4366] ∧ payloadFloor < 4366 := by
  decide +kernel

/-- The error response of a device of one byte fits. -/
theorem responses_within_maxima_short :
    ∃ s, runAll (Requests.step plainDispatcher) (.start none) (failedRequest 1) = some s ∧
      publishedErrors (s.trace 0) = [172] ∧
      ∀ i req timeout outcome first second topic payload taken, .called req timeout ∈ s.trace i →
        .replying outcome first second ∈ s.trace i → .published topic payload taken ∈ s.trace i →
          ((payload.length ≤ reasoningResponseMaximum ∧
              (carriesError payload = true → payload.length ≤ payloadFloor)) ↔
            ∀ sent ∈ sentError plainDispatcher req (responseTo plainDispatcher req outcome) first
                second, errorLength plainDispatcher req sent.1 sent.2 ≤ payloadFloor) := by
  obtain ⟨s, hrun, hlengths⟩ := Option.map_eq_some_iff.mp
    (by decide +kernel :
      (runAll (Requests.step plainDispatcher) (.start none) (failedRequest 1)).map
        (fun s => publishedErrors (s.trace 0)) = some [172])
  exact ⟨s, hrun, hlengths, responses_within_maxima plainDispatcher none hrun⟩

end OriGateway
