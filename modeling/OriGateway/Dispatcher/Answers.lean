import OriGateway.Dispatcher.Requests
import OriGateway.Foundation.JsonMembers

/-! # The tier of a response

A runtime reads in a response the tier it is about (`responseTier`). An error response has the tier
of the request, but a provider's own answer is published with the tier the provider gave it
(`provider_changes_tier`): a response has the tier of its request exactly when the answer that goes
out, if it is the provider's own, has it (`response_keeps_tier`). -/

namespace OriGateway

open Foundation

/-- The tier a runtime reads in a response. -/
def responseTier (payload : Bytes) : Option Bytes :=
  Json.decodeRecord false [ascii "action_tier"] (fun _ v tier => Json.readString tier v) [] payload

section Tiers

variable {payload : Bytes} {first second : Option Int}

variable {F X : Type} {cfg : DispatcherConfig F X} {req : ReasoningRequest X}

theorem valid_of_isValidActionTier {tier : Bytes} (h : isValidActionTier tier = true) :
    Utf8.valid tier = true := by
  simp only [isValidActionTier, Bool.or_eq_true, beq_iff_eq] at h
  rcases h with ((rfl | rfl) | rfl) | rfl <;> decide

theorem responseTier_marshalResponse {floats : FloatFormat F} {resp : ReasoningResponse F}
    (h : marshalResponse floats resp = some payload) (htier : Utf8.valid resp.actionTier = true) :
    responseTier payload = some resp.actionTier := by
  obtain ⟨lit, -, hparse⟩ := parse_marshalResponse h
  have hsplit : responseMembers resp lit = (responseMembers resp lit).take 7 ++
      (ascii "action_tier", .ofString resp.actionTier) :: (responseMembers resp lit).drop 8 := rfl
  have hbefore : ∀ m ∈ (responseMembers resp lit).take 7, m.1 ∈
      [ascii "request_id", ascii "device_id", ascii "text", ascii "model", ascii "tokens_used",
        ascii "latency_ms", ascii "confidence"] := by
    intro m hm
    simp only [responseMembers, List.cons_append, List.take_succ_cons, List.take_zero,
      List.mem_cons, List.not_mem_nil, or_false] at hm
    rcases hm with rfl | rfl | rfl | rfl | rfl | rfl | rfl <;> simp
  have hafter : ∀ m ∈ (responseMembers resp lit).drop 8, m.1 ∈
      [ascii "proposed_action", ascii "error", ascii "auth"] := by
    intro m hm
    simp only [responseMembers, List.cons_append, List.nil_append, List.drop_succ_cons,
      List.drop_zero, List.mem_cons, List.mem_append, List.mem_map, Option.mem_toList] at hm
    rcases hm with rfl | ⟨e, -, rfl⟩ | ⟨auth, -, rfl⟩ <;> simp
  have hothers : ∀ name ∈ [ascii "request_id", ascii "device_id", ascii "text", ascii "model",
      ascii "tokens_used", ascii "latency_ms", ascii "confidence"] ++
        [ascii "proposed_action", ascii "error", ascii "auth"],
      Json.matchField [ascii "action_tier"] (Json.unquote name) = none := by
    decide +kernel
  have hname : Json.matchField [ascii "action_tier"] (Json.unquote (ascii "action_tier"))
      = some 0 := by
    decide +kernel
  rw [responseTier, Json.decodeRecord, hparse, Option.bind_some, Json.decodeStruct, hsplit,
    Json.decodeMembers_one (fun m hm => hothers _ (List.mem_append_left _ (hbefore m hm))) hname
      (fun m hm => hothers _ (List.mem_append_right _ (hafter m hm))),
    Json.readString_ofString htier]

variable (cfg) in
/-- **The provider's own answer goes out**: it has no error, the identity of the request and a tier,
and its bytes are within the maximum. -/
def GoesOut (req : ReasoningRequest X) (outcome : ProviderOutcome F) (first : Option Int)
    (resp : ReasoningResponse F) : Prop :=
  outcome = .response resp ∧ resp.error = none ∧ resp.requestID = req.requestID ∧
    isValidActionTier resp.actionTier = true ∧
      ∃ payload, encodeResponse cfg.floats cfg.lib cfg.signingSecret req
        { resp with deviceID := req.deviceID } first = .ok payload ∧
          payload.length ≤ reasoningResponseMaximum

/-- What is written has the tier of what went out. -/
theorem responseTier_encodeResponse {resp : ReasoningResponse F} {signedAt : Option Int}
    (h : encodeResponse cfg.floats cfg.lib cfg.signingSecret req resp signedAt = .ok payload)
    (htier : isValidActionTier (outgoing cfg.floats req resp).actionTier = true) :
    responseTier payload = some (outgoing cfg.floats req resp).actionTier := by
  obtain ⟨auth, -, hmarshal⟩ := encodeResponse_inv h
  have hread := responseTier_marshalResponse hmarshal
  exact hread (valid_of_isValidActionTier htier)

theorem responseTo_response {resp : ReasoningResponse F} (hid : resp.requestID = req.requestID)
    (hvalid : isValidActionTier resp.actionTier = true) :
    responseTo cfg req (.response resp) = { resp with deviceID := req.deviceID } :=
  if_pos (by simp [validateResponseForRequest, hid, hvalid])

/-- The provider's own answer, when it goes out, is what is published. -/
theorem GoesOut.responseTier {outcome : ProviderOutcome F} {resp : ReasoningResponse F}
    (h : GoesOut cfg req outcome first resp)
    (hreply : replyPayload cfg req (responseTo cfg req outcome) first second = .ok payload) :
    OriGateway.responseTier payload = some resp.actionTier := by
  obtain ⟨rfl, hnone, hid, hvalid, written, hencode, hlength⟩ := h
  rw [responseTo_response hid hvalid, replyPayload, hencode] at hreply
  dsimp only at hreply
  rw [if_neg (not_lt.mpr hlength)] at hreply
  cases hreply
  have hsent : outgoing cfg.floats req { resp with deviceID := req.deviceID }
      = { resp with deviceID := req.deviceID } := by
    simp only [outgoing, hnone]
  have hread := responseTier_encodeResponse hencode
  rw [hsent] at hread
  exact hread hvalid

/-- What goes out instead has the tier of the request. -/
theorem responseTier_of_not_goesOut {outcome : ProviderOutcome F}
    (htier : isValidActionTier req.actionTierHint = true)
    (hnot : ∀ resp, ¬GoesOut cfg req outcome first resp)
    (h : replyPayload cfg req (responseTo cfg req outcome) first second = .ok payload) :
    responseTier payload = some req.actionTierHint := by
  unfold replyPayload at h
  split at h
  · exact responseTier_encodeResponse h htier
  · next written hencode =>
    split_ifs at h with hlarge
    · exact responseTier_encodeResponse h htier
    · cases h
      -- within the maximum: the answer was replaced or carries an error
      have hkept : (outgoing cfg.floats req (responseTo cfg req outcome)).actionTier
          = req.actionTierHint := by
        cases outcome with
        | response resp =>
          by_cases hpasses : resp.requestID = req.requestID ∧
            isValidActionTier resp.actionTier = true
          · have hresponse := @responseTo_response F X cfg req resp hpasses.1 hpasses.2
            cases herror : resp.error with
            | some message =>
              rw [hresponse]
              unfold outgoing
              simp only [herror]
              rfl
            | none =>
              rw [hresponse] at hencode
              exact absurd ⟨rfl, herror, hpasses.1, hpasses.2, _, hencode, not_lt.mp hlarge⟩
                (hnot resp)
          · have hresponse : responseTo cfg req (.response resp)
                = errorResponseFor cfg.floats req invalidResponseMessage := by
              refine if_neg fun hvalid => hpasses ?_
              simp only [validateResponseForRequest, Bool.and_eq_true, beq_iff_eq] at hvalid
              exact ⟨hvalid.1.1.symm, hvalid.2⟩
            rw [hresponse]
            rfl
        | _ => rfl
      have hread := responseTier_encodeResponse hencode
      rw [hkept] at hread
      exact hread htier

/-- **A reply has the tier of the request exactly when the provider's own answer has it**, if that
is what goes out. -/
theorem responseTier_replyPayload {outcome : ProviderOutcome F}
    (htier : isValidActionTier req.actionTierHint = true)
    (h : replyPayload cfg req (responseTo cfg req outcome) first second = .ok payload) :
    responseTier payload = some req.actionTierHint ↔
      ∀ resp, GoesOut cfg req outcome first resp → resp.actionTier = req.actionTierHint := by
  constructor
  · intro hkept resp hout
    exact Option.some.inj ((hout.responseTier h).symm.trans hkept)
  · intro hkeeps
    by_cases hout : ∃ resp, GoesOut cfg req outcome first resp
    · obtain ⟨resp, hout⟩ := hout
      rw [hout.responseTier h, hkeeps resp hout]
    · exact responseTier_of_not_goesOut htier (not_exists.mp hout) h

end Tiers

/-- **A response has the tier of its request exactly when the answer that goes out has it.** In
every run, of each request and what its provider did: the response that is published has the tier of
the request, unless it is the provider's own answer and has another. -/
theorem response_keeps_tier {F X : Type} (cfg : DispatcherConfig F X) (verifier : Option Verifier)
    {steps : List (DispatchStep F)} {s : Requests F X}
    (hrun : runAll (Requests.step cfg) (.start verifier) steps = some s) :
    ∀ i req timeout outcome first second topic payload taken, .called req timeout ∈ s.trace i →
      .replying outcome first second ∈ s.trace i → .published topic payload taken ∈ s.trace i →
        (responseTier payload = some req.actionTierHint ↔
          ∀ resp, GoesOut cfg req outcome first resp → resp.actionTier = req.actionTierHint) := by
  intro i req timeout outcome first second topic payload taken hcalled hreplying hpublished
  obtain ⟨k, haccepts, hfits⟩ := ((Requests.tracked_run cfg verifier hrun).traced i).handled hcalled
  obtain ⟨rfl, -⟩ := hfits _ hcalled
  obtain ⟨rfl, rfl, rfl⟩ := hfits _ hreplying
  obtain ⟨-, hreply, -⟩ := hfits _ hpublished
  exact responseTier_replyPayload haccepts.tier hreply

def tieredResponse (tier : Bytes) : ReasoningResponse Unit where
  requestID := ascii "r"
  deviceID := ascii "d"
  text := ascii "t"
  model := []
  tokensUsed := 0
  latencyMS := 0
  confidence := ()
  actionTier := tier
  proposedAction := none
  error := none
  auth := none

def tieredRequest (tier : Bytes) : List (DispatchStep Unit) :=
  [.arrive (ascii "ori/d/reasoning/request") plainRequest false 0,
    .begin 0, .answer 0 (.response (tieredResponse tier)) none none true]

def publishedTiers (trace : List (DispatchEvent Unit Unit)) : List (Option Bytes) :=
  trace.filterMap fun
    | .published _ payload _ => some (responseTier payload)
    | _ => none

def calledTiers (trace : List (DispatchEvent Unit Unit)) : List Bytes :=
  trace.filterMap fun
    | .called req _ => some req.actionTierHint
    | _ => none

/-- **A provider's own tier is published**: it is asked about tier A, answers with tier D, and the
response the gateway publishes has tier D. -/
theorem provider_changes_tier :
    (runAll (Requests.step plainDispatcher) (.start none) (tieredRequest (ascii "D"))).any
      (fun s => calledTiers (s.trace 0) == [ascii "A"] &&
        publishedTiers (s.trace 0) == [some (ascii "D")]) = true := by
  decide +kernel

/-- A provider that answers about the tier it was asked about. -/
theorem response_keeps_tier_kept :
    ∃ s, runAll (Requests.step plainDispatcher) (.start none) (tieredRequest (ascii "A")) = some s ∧
      calledTiers (s.trace 0) = [ascii "A"] ∧
      publishedTiers (s.trace 0) = [some (ascii "A")] ∧
      ∀ i req timeout outcome first second topic payload taken, .called req timeout ∈ s.trace i →
        .replying outcome first second ∈ s.trace i → .published topic payload taken ∈ s.trace i →
          (responseTier payload = some req.actionTierHint ↔
            ∀ resp, GoesOut plainDispatcher req outcome first resp →
              resp.actionTier = req.actionTierHint) := by
  have hends : (runAll (Requests.step plainDispatcher) (.start none)
    (tieredRequest (ascii "A"))).any
      (fun s => calledTiers (s.trace 0) == [ascii "A"] &&
        publishedTiers (s.trace 0) == [some (ascii "A")]) = true := by
    decide +kernel
  cases hrun : runAll (Requests.step plainDispatcher) (.start none) (tieredRequest (ascii "A")) with
  | none =>
    rw [hrun] at hends
    cases hends
  | some s =>
    rw [hrun] at hends
    simp only [Option.any_some, Bool.and_eq_true, beq_iff_eq] at hends
    exact ⟨s, rfl, hends.1, hends.2, response_keeps_tier plainDispatcher none hrun⟩

end OriGateway
