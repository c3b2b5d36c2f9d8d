import OriGateway.Evidence.Acknowledgement
import OriGateway.MqttAuth.Signing
import OriGateway.Site.Degradation

/-! # Heartbeats of runtime nodes

A node's heartbeat from its topic to the registry: its members must be named exactly, it is
authenticated when the gateway has a verifier, its status and reasons are judged on their raw
values, and only then is it decoded and recorded (`RuntimeHeartbeatHandler.handle`). In a run of
heartbeats among the other calls that change the registry (`SiteState.run`), every node is as an
accepted heartbeat of the run reported it (`SiteState.recorded_run`). -/

namespace OriGateway

open Foundation

/-- Why a heartbeat is refused. -/
inductive HeartbeatError where
  /-- "invalid runtime heartbeat topic", or the device in it is none. -/
  | topic
  /-- "decode runtime node heartbeat". -/
  | decode
  /-- "runtime_heartbeat_member_case_variant". -/
  | memberCaseVariant
  /-- "runtime_heartbeat_member_duplicate". -/
  | memberDuplicate
  | unverified (e : VerifyError Unit)
  | degradation (v : DegradationVerdict)
  /-- "device_id does not match topic device_id". -/
  | deviceMismatch
  /-- "runtime heartbeat status is not supported". -/
  | status
  /-- "runtime heartbeat last_seen_ms must be positive". -/
  | lastSeenNotPositive
  /-- "runtime heartbeat last_seen_ms is too far in the future". -/
  | lastSeenAhead
  /-- "runtime heartbeat active_triggers exceeds maximum". -/
  | tooManyTriggers
  /-- "runtime heartbeat active trigger names must be non-empty and trimmed", or one "exceeds 128
  bytes". -/
  | triggerName
  /-- "runtime heartbeat evidence" with a head, a count or an event type that is none. -/
  | evidence

/-- The device of a topic `ori/<device>/runtime/heartbeat`. -/
def deviceIDFromRuntimeNodeHeartbeatTopic (topic : Bytes) : Option Bytes :=
  match splitSlash topic with
  | [ori, device, runtime, heartbeat] =>
    if ori = ascii "ori" ∧ runtime = ascii "runtime" ∧ heartbeat = ascii "heartbeat" ∧
        validMQTTDeviceID device = true then some device
    else none
  | _ => none

/-! ## Members -/

/-- The members of the heartbeat contract. -/
def runtimeHeartbeatMembers : List Bytes :=
  [ascii "device_id", ascii "status", ascii "last_seen_ms", ascii "gateway_seen_ms",
    ascii "active_triggers", ascii "degradation_reasons", ascii "evidence", ascii "auth"]

def runtimeHeartbeatEvidenceMembers : List Bytes :=
  [ascii "chain_head_hash", ascii "attestation_gap_count", ascii "available",
    ascii "action_event_type"]

/-- Refuse a member named in another case and a contract member named twice; `nested` looks into the
value of a contract member. -/
def refuseInexactMembers (contract : List Bytes) (nested : Bytes → Json → Option HeartbeatError) :
    List Bytes → List (Bytes × Json) → Option HeartbeatError
  | _, [] => none
  | seen, (raw, v) :: rest =>
    let name := Json.unquote raw
    if contract.any fun member => name != member && Json.foldName name == Json.foldName member then
      some .memberCaseVariant
    else if name ∉ contract then refuseInexactMembers contract nested seen rest
    else if name ∈ seen then some .memberDuplicate
    else (nested name v).or (refuseInexactMembers contract nested (name :: seen) rest)

/-- Refuse a heartbeat, or its evidence, whose members are not named exactly. -/
def refuseInexactHeartbeatMembers (payload : Bytes) : Option HeartbeatError :=
  match Json.decodeFirst payload with
  | some (.obj members) =>
    refuseInexactMembers runtimeHeartbeatMembers (fun name v =>
      match v with
      | .obj evidence =>
        if name = ascii "evidence" then
          refuseInexactMembers runtimeHeartbeatEvidenceMembers (fun _ _ => none) [] evidence
        else none
      | _ => none) [] members
  | _ => some .decode

/-- The value of a member by its exact name; of two the last is read. -/
def exactMember (members : List (Bytes × Json)) (name : Bytes) : Option Json :=
  (members.reverse.find? fun m => Json.unquote m.1 == name).map (·.2)

/-- Read the member of an exact name, absent ones as their zero value. -/
def decodeExactMember {α : Type} (members : List (Bytes × Json)) (name : Bytes) (zero : α)
    (read : Json → Option α) : Option α :=
  match exactMember members name with
  | none => some zero
  | some v => read v

/-- A heartbeat as it is decoded. -/
structure RuntimeNodeHeartbeat where
  deviceID : Bytes
  status : Bytes
  lastSeenMS : Int
  activeTriggers : List Bytes
  evidence : Option NodeEvidence

/-- The evidence signal of a heartbeat, absent when it is absent or `null`. -/
def decodeEvidence (members : List (Bytes × Json)) : Option (Option NodeEvidence) :=
  match exactMember members (ascii "evidence") with
  | none | some .null => some none
  | some (.obj evidence) => do
      let head ← decodeExactMember evidence (ascii "chain_head_hash") [] (Json.readString [])
      let gaps ← decodeExactMember evidence (ascii "attestation_gap_count") 0 (Json.readInt64 0)
      let available ← decodeExactMember evidence (ascii "available") false (Json.readBool false)
      let event ← decodeExactMember evidence (ascii "action_event_type") [] (Json.readString [])
      return some ⟨head, gaps, available, event, false, false⟩
  | some _ => none

/-- Decode the members of a heartbeat. -/
def decodeRuntimeHeartbeat (members : List (Bytes × Json)) : Option RuntimeNodeHeartbeat := do
  let deviceID ← decodeExactMember members (ascii "device_id") [] (Json.readString [])
  let status ← decodeExactMember members (ascii "status") [] (Json.readString [])
  let lastSeenMS ← decodeExactMember members (ascii "last_seen_ms") 0 (Json.readInt64 0)
  -- decoded for its type only: the gateway stamps its own receipt
  let _ ← decodeExactMember members (ascii "gateway_seen_ms") 0 (Json.readInt64 0)
  let activeTriggers ← decodeExactMember members (ascii "active_triggers") [] Json.readStrings
  let evidence ← decodeEvidence members
  return ⟨deviceID, status, lastSeenMS, activeTriggers, evidence⟩

/-- The members of a payload without its authenticator. -/
def heartbeatMembers (unsigned : Bytes) : Option (List (Bytes × Json)) :=
  match Json.parse unsigned with
  | some (.obj members) => some members
  | some .null => some []
  | _ => none

/-- **Judge a heartbeat's status and reasons, and decode it.** -/
def parseRuntimeHeartbeat (unsigned : Bytes) :
    Except HeartbeatError (RuntimeNodeHeartbeat × Option (List Bytes)) :=
  match heartbeatMembers unsigned with
  | none => .error .decode
  | some members =>
    match judgeReasons (exactMember members (ascii "status"))
      (exactMember members (ascii "degradation_reasons")) with
    | .error v => .error (.degradation v)
    | .ok (_, reasons) =>
      match decodeRuntimeHeartbeat members with
      | none => .error .decode
      | some beat => .ok (beat, reasons)

/-! ## The handler -/

/-- The limits of a handler; the skew is in nanoseconds. -/
structure RuntimeHeartbeatHandler where
  maxActiveTriggers : Nat
  maxFutureSkew : Int

def runtimeHeartbeatMessageType : Bytes := ascii "runtime.heartbeat"

/-- Whether an evidence signal has a head, a count and an event type of the contract. -/
def validateEvidenceSignal (e : NodeEvidence) : Bool :=
  (e.chainHeadHash == [] || e.chainHeadHash.length == 64 &&
      e.chainHeadHash.all fun b => 48 ≤ b && b ≤ 57 || 97 ≤ b && b ≤ 102) &&
    decide (0 ≤ e.attestationGapCount) && decide (e.actionEventType.length ≤ 64) &&
    e.actionEventType.all fun b => 65 ≤ b && b ≤ 90 || b == 95

namespace RuntimeHeartbeatHandler

/-- The payload without its authenticator, verified if there is a verifier. -/
def unsignedPayload (lib : CanonicalJSON) (verifier : Option Verifier) (deviceID payload : Bytes)
    (now : Int) : Except HeartbeatError Bytes × Option Verifier :=
  let marshal := fun members => Json.htmlEscape (JsonValue.object members).canonical
  match verifier with
  | some v =>
    let call : VerifyCall (List (Bytes × JsonValue)) Unit :=
      ⟨payload, runtimeHeartbeatMessageType, deviceID, [], now, none⟩
    let (verdict, v') := verifyJSON (decodeAuthPayload lib) v call
    match verdict.error, authenticate (decodeAuthPayload lib) v call with
    | some e, _ => (.error (.unverified e), some v')
    | none, .error e => (.error (.unverified e), some v')
    | none, .ok envelope => (.ok (marshal envelope.unsigned), some v')
  | none =>
    match Json.decodeFirst payload with
    | some (.obj members) => (.ok (marshal (cloneWithoutAuth (Json.valueMembers members))), none)
    | _ => (.error .decode, none)

/-- Validate a decoded heartbeat against its topic and the clock. -/
def validate (h : RuntimeHeartbeatHandler) (deviceID : Bytes) (now : Int)
    (beat : RuntimeNodeHeartbeat) : Except HeartbeatError Unit :=
  if beat.deviceID ≠ deviceID then .error .deviceMismatch
  else if (statusSeverity beat.status).isNone then .error .status
  else if beat.lastSeenMS ≤ 0 then .error .lastSeenNotPositive
  else if now + h.maxFutureSkew < beat.lastSeenMS * 10 ^ 6 then .error .lastSeenAhead
  else if h.maxActiveTriggers < beat.activeTriggers.length then .error .tooManyTriggers
  else if beat.activeTriggers.any fun t => trimSpace t != t || t == [] || 128 < t.length then
    .error .triggerName
  else if beat.evidence.any fun e => !validateEvidenceSignal e then .error .evidence
  else .ok ()

/-- What the registry is given of a heartbeat. -/
def nodeHeartbeat (beat : RuntimeNodeHeartbeat) (reasons : Option (List Bytes)) :
    NodeHeartbeat where
  deviceID := beat.deviceID
  status := beat.status
  lastSeenMS := beat.lastSeenMS
  gatewaySeen := 0
  activeTriggers := if beat.activeTriggers = [] then none else some beat.activeTriggers
  degradationReasons := reasons
  posture := none
  evidence := beat.evidence
  exportSeverity := []
  receivedMono := 0
  advancedMono := 0

/-- **Handle a heartbeat**: what the registry is to record, and the verifier after it. -/
def handle (lib : CanonicalJSON) (h : RuntimeHeartbeatHandler) (verifier : Option Verifier)
    (topic payload : Bytes) (now : Int) : Except HeartbeatError NodeHeartbeat × Option Verifier :=
  match deviceIDFromRuntimeNodeHeartbeatTopic topic with
  | none => (.error .topic, verifier)
  | some deviceID =>
    match refuseInexactHeartbeatMembers payload with
    | some e => (.error e, verifier)
    | none =>
      match unsignedPayload lib verifier deviceID payload now with
      | (.error e, v) => (.error e, v)
      | (.ok unsigned, v) =>
        match parseRuntimeHeartbeat unsigned with
        | .error e => (.error e, v)
        | .ok (beat, reasons) =>
          match h.validate deviceID now beat with
          | .error e => (.error e, v)
          | .ok () => (.ok (nodeHeartbeat beat reasons), v)

end RuntimeHeartbeatHandler

/-! ## Runs -/

/-- The registry with the verifier of heartbeats. -/
structure SiteState where
  verifier : Option Verifier
  registry : Registry

/-- A call that changes the registry, a heartbeat as it comes in. -/
inductive SiteCall where
  | heartbeat (topic payload : Bytes) (now wall mono : Int)
  | upsertPosture (deviceID : Bytes) (posture : SiteNodePosture)
  | evict (ttl now : Int)

namespace SiteState

/-- One call. -/
def step (lib : CanonicalJSON) (h : RuntimeHeartbeatHandler) (s : SiteState) : SiteCall → SiteState
  | .heartbeat topic payload now wall mono =>
    match h.handle lib s.verifier topic payload now with
    | (.ok beat, v) => ⟨v, s.registry.upsert beat wall mono⟩
    | (.error _, v) => ⟨v, s.registry⟩
  | .upsertPosture deviceID posture =>
    { s with registry := s.registry.upsertPosture deviceID posture }
  | .evict ttl now =>
    { s with registry := (s.registry.evictStaleRetainingCritical ttl now).registry }

/-- A run of calls on an empty registry. -/
def run (lib : CanonicalJSON) (h : RuntimeHeartbeatHandler) (verifier : Option Verifier)
    (calls : List SiteCall) : SiteState :=
  calls.foldl (step lib h) ⟨verifier, .newRegistry⟩

end SiteState

/-- **A node as a heartbeat's members reported it**, the two members as the contract has them. -/
structure ReportedBy (members : List (Bytes × Json)) (n : NodeHeartbeat) : Prop where
  passes : Passes (exactMember members (ascii "status"))
    (exactMember members (ascii "degradation_reasons"))
  status : statusOf (exactMember members (ascii "status")) = some n.status
  reasons : n.degradationReasons = tokensOf (exactMember members (ascii "degradation_reasons"))

/-- The members of a heartbeat that a call brings past the verifier it meets. -/
def SiteCall.Brings (lib : CanonicalJSON) (verifier : Option Verifier)
    (members : List (Bytes × Json)) :
    SiteCall → Prop
  | .heartbeat topic payload now _ _ => ∃ deviceID unsigned,
      deviceIDFromRuntimeNodeHeartbeatTopic topic = some deviceID ∧
      (RuntimeHeartbeatHandler.unsignedPayload lib verifier deviceID payload now).1 = .ok unsigned ∧
      heartbeatMembers unsigned = some members
  | _ => False

theorem decodeRuntimeHeartbeat_status {members : List (Bytes × Json)} {beat : RuntimeNodeHeartbeat}
    (h : decodeRuntimeHeartbeat members = some beat) :
    decodeExactMember members (ascii "status") [] (Json.readString []) = some beat.status := by
  simp only [decodeRuntimeHeartbeat, Option.bind_eq_bind, Option.bind_eq_some_iff, Option.pure_def,
    Option.some.injEq] at h
  obtain ⟨_, _, status, hstatus, _, _, _, _, _, _, _, _, rfl⟩ := h
  exact hstatus

theorem parseRuntimeHeartbeat_inv {unsigned : Bytes} {beat : RuntimeNodeHeartbeat}
    {reasons : Option (List Bytes)} (h : parseRuntimeHeartbeat unsigned = .ok (beat, reasons)) :
    ∃ members, heartbeatMembers unsigned = some members ∧
      ReportedBy members (RuntimeHeartbeatHandler.nodeHeartbeat beat reasons) := by
  unfold parseRuntimeHeartbeat at h
  cases hmembers : heartbeatMembers unsigned with
  | none => rw [hmembers] at h; cases h
  | some members =>
    rw [hmembers] at h
    dsimp only at h
    cases hclass : judgeReasons (exactMember members (ascii "status"))
        (exactMember members (ascii "degradation_reasons")) with
    | error v => rw [hclass] at h; cases h
    | ok r =>
      rw [hclass] at h
      cases hdecode : decodeRuntimeHeartbeat members with
      | none => rw [hdecode] at h; cases h
      | some beat =>
        rw [hdecode] at h
        cases h
        obtain ⟨hpasses, hr⟩ := judgeReasons_eq_ok_iff.mp hclass
        obtain ⟨s, hs, _⟩ := id hpasses
        obtain ⟨v, hv, hstring⟩ := Option.bind_eq_some_iff.mp hs
        refine ⟨members, rfl, hpasses, ?_, congrArg Prod.snd hr.symm⟩
        -- a value that was judged a string is read as that string
        have hread := decodeRuntimeHeartbeat_status hdecode
        rw [decodeExactMember, hv] at hread
        cases v with
        | str raw => rw [hs, ← hstring]; exact hread
        | _ => exact nomatch hstring

theorem RuntimeHeartbeatHandler.handle_inv {lib : CanonicalJSON} {h : RuntimeHeartbeatHandler}
    {verifier : Option Verifier} {topic payload : Bytes} {now wall mono : Int} {n : NodeHeartbeat}
    (hok : (h.handle lib verifier topic payload now).1 = .ok n) :
    ∃ members, (SiteCall.heartbeat topic payload now wall mono).Brings lib verifier members ∧
      ReportedBy members n := by
  unfold handle at hok
  split at hok
  · cases hok
  · next deviceID htopic =>
    split at hok
    · cases hok
    · split at hok
      · cases hok
      · next unsigned v hunsigned =>
        split at hok
        · cases hok
        · next beat reasons hparse =>
          split at hok
          · cases hok
          · cases hok
            obtain ⟨members, hmembers, hrecorded⟩ := parseRuntimeHeartbeat_inv hparse
            exact ⟨members, ⟨deviceID, unsigned, htopic, congrArg Prod.fst hunsigned, hmembers⟩,
              hrecorded⟩

theorem ReportedBy.congr {members : List (Bytes × Json)} {n n' : NodeHeartbeat}
    (h : ReportedBy members n) (hstatus : n'.status = n.status)
    (hreasons : n'.degradationReasons = n.degradationReasons) : ReportedBy members n' :=
  ⟨h.passes, h.status.trans (congrArg some hstatus.symm), hreasons.trans h.reasons⟩

/-- **One call**: a node is as a heartbeat of the call reported it, or as it was before. -/
theorem SiteState.step_recorded {lib : CanonicalJSON} {h : RuntimeHeartbeatHandler} {s : SiteState}
    {c : SiteCall} {device : Bytes} {n : NodeHeartbeat}
    (hnode : (s.step lib h c).registry.nodes.lookup device = some n) :
    (∃ members, c.Brings lib s.verifier members ∧ ReportedBy members n) ∨
      ∃ n', s.registry.nodes.lookup device = some n' ∧ n.status = n'.status ∧
        n.degradationReasons = n'.degradationReasons := by
  cases c with
  | heartbeat topic payload now wall mono =>
    simp only [step] at hnode
    split at hnode
    · next beat v hok =>
      rw [Registry.lookup_upsert] at hnode
      split_ifs at hnode
      · cases hnode
        obtain ⟨members, hbrings, hrecorded⟩ :=
          RuntimeHeartbeatHandler.handle_inv (congrArg Prod.fst hok)
        exact .inl ⟨members, hbrings, hrecorded.congr rfl rfl⟩
      · exact .inr ⟨n, hnode, rfl, rfl⟩
    · exact .inr ⟨n, hnode, rfl, rfl⟩
  | upsertPosture deviceID posture =>
    rw [step, Registry.lookup_upsertPosture] at hnode
    split_ifs at hnode
    · obtain ⟨n', hn', rfl⟩ := Option.map_eq_some_iff.mp hnode
      exact .inr ⟨n', hn', rfl, rfl⟩
    · exact .inr ⟨n, hnode, rfl, rfl⟩
  | evict ttl now =>
    rw [step, Registry.lookup_evictStaleRetainingCritical] at hnode
    exact .inr ⟨n, (Option.filter_eq_some_iff.mp hnode).1, rfl, rfl⟩

/-- **Every node of a run is as an accepted heartbeat of the run reported it**, past the verifier as
it was when the heartbeat came in. -/
theorem SiteState.recorded_run (lib : CanonicalJSON) (h : RuntimeHeartbeatHandler)
    (verifier : Option Verifier) (calls : List SiteCall) {device : Bytes} {n : NodeHeartbeat}
    (hnode : (run lib h verifier calls).registry.nodes.lookup device = some n) :
    ∃ before c after, calls = before ++ c :: after ∧ ∃ members,
      c.Brings lib (run lib h verifier before).verifier members ∧ ReportedBy members n := by
  induction calls using List.reverseRecOn generalizing n with
  | nil => simp [run, Registry.newRegistry] at hnode
  | append_singleton calls c ih =>
    rw [run, List.foldl_concat] at hnode
    rcases step_recorded hnode with hnew | ⟨n', hn', hstatus, hreasons⟩
    · exact ⟨calls, c, [], rfl, hnew⟩
    · obtain ⟨before, c', after, rfl, members, hbrings, hrecorded⟩ := ih hn'
      exact ⟨before, c', after ++ [c], by simp, members, hbrings, hrecorded.congr hstatus hreasons⟩

/-- **The two checks decide the contract.** A status and reasons pass exactly when they are as the
contract has them, a refusal is by the first step that fails, and every node that heartbeats brought
into the registry meets the contract, with absent reasons absent and no empty ones. -/
theorem heartbeats_meet_contract :
    (∀ status reasons, (∃ s, validateRuntimeStatus status = .ok s ∧
        ∃ tokens, validateDegradationReasons reasons s = .ok tokens) ↔ Passes status reasons) ∧
      (∀ status reasons v, judgeReasons status reasons = .error v ↔
        DegradationVerdict.fails status reasons v = true ∧ ∃ before after,
          DegradationVerdict.order = before ++ v :: after ∧
            ∀ u ∈ before, DegradationVerdict.fails status reasons u = false) ∧
      ∀ (lib : CanonicalJSON) (h : RuntimeHeartbeatHandler) (verifier : Option Verifier)
        (calls : List SiteCall) (device : Bytes) (n : NodeHeartbeat),
        (SiteState.run lib h verifier calls).registry.nodes.lookup device = some n →
        (∃ before c after, calls = before ++ c :: after ∧ ∃ members,
          c.Brings lib (SiteState.run lib h verifier before).verifier members ∧
          ReportedBy members n ∧
          (n.degradationReasons = none ↔ exactMember members (ascii "degradation_reasons")
            = none)) ∧
        (n.status = nodeStatusHealthy ∨ n.status = nodeStatusDegraded ∨
          n.status = nodeStatusCritical) ∧
        ∀ tokens, n.degradationReasons = some tokens → Reported n.status tokens := by
  refine ⟨fun status reasons => ?_, fun status reasons v => ?_,
    fun lib h verifier calls device n hnode => ?_⟩
  · have hclass : (∃ r, judgeReasons status reasons = .ok r) ↔ Passes status reasons := by
      simp [judgeReasons_eq_ok_iff]
    rw [← hclass, judgeReasons]
    cases validateRuntimeStatus status with
    | error v => simp
    | ok s => cases hr : validateDegradationReasons reasons s <;> simp [hr, Except.map]
  · rw [judgeReasons_eq, firstRefusal_eq_error_iff]
  · obtain ⟨before, c, after, hcalls, members, hbrings, hrecorded⟩ :=
      SiteState.recorded_run lib h verifier calls hnode
    obtain ⟨s, hs, hstatus, hreasons⟩ := id hrecorded.passes
    obtain rfl : n.status = s := Option.some.inj (hrecorded.status.symm.trans hs)
    refine ⟨⟨before, c, after, hcalls, members, hbrings, hrecorded, ?_⟩, hstatus,
      fun tokens htokens => ?_⟩
    · rw [hrecorded.reasons]
      rcases hreasons with hnone | ⟨tokens, htokens, _⟩
      · simp [hnone, tokensOf, elementsOf]
      · rw [htokens]
        refine ⟨fun h => (by cases h), fun hnone => ?_⟩
        rw [hnone] at htokens
        cases htokens
    · rw [hrecorded.reasons] at htokens
      rcases hreasons with hnone | ⟨tokens', htokens', hreported⟩
      · rw [hnone] at htokens
        cases htokens
      · rw [htokens] at htokens'
        cases htokens'
        exact hreported

def degradedHeartbeat : SiteCall :=
  .heartbeat (ascii "ori/d/runtime/heartbeat")
    (ascii "\x7b\"device_id\":\"d\",\"status\":\"degraded\",\"last_seen_ms\":1," ++
      ascii "\"degradation_reasons\":[\"sensor_stale\"]\x7d") 1000000 0 0

/-- Its node is in the registry with its reason. -/
theorem heartbeats_meet_contract_degraded :
    ∃ n, (SiteState.run documentedJSON ⟨64, 0⟩ none [degradedHeartbeat]).registry.nodes.lookup
      (ascii "d") = some n ∧
      Reported n.status [ascii "sensor_stale"] := by
  obtain ⟨n, hn, hreasons⟩ := Option.map_eq_some_iff.mp (by decide +kernel :
    ((SiteState.run documentedJSON ⟨64, 0⟩ none [degradedHeartbeat]).registry.nodes.lookup
      (ascii "d")).map
      (·.degradationReasons) = some (some [ascii "sensor_stale"]))
  exact ⟨n, hn, (heartbeats_meet_contract.2.2 _ _ _ _ _ n hn).2.2 _ hreasons⟩

end OriGateway
