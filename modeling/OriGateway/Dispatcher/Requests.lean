import OriGateway.Dispatcher.Messages
import OriGateway.Foundation.Runs

/-! # Requests in flight

The dispatcher handles many requests at once. Each is decoded, checked and verified (`receive`);
then it takes the slot of its identity, or is refused when another holds it; the provider is called;
what the provider does becomes one response (`responseTo`), or an error response in its place; it is
published (`publishResponse`); and the slot is freed. Between any two of these another request may
take any step (`Requests.step`).

`Traced` says what a request has done by the time it is where it is, and `SlotsHeld` that the slots
are those of the requests in flight, one each. Hence what every run does with every request
(`request_answered_once`). -/

namespace OriGateway

open Foundation

/-! ## One request -/

/-- What a dispatcher is made with. -/
structure DispatcherConfig (F X : Type) where
  lib : CanonicalJSON
  floats : FloatFormat F
  readContext : X → Json → Option X
  context : X
  /-- The secret responses are signed with; empty when they are not. -/
  signingSecret : Bytes
  providerTimeout : Int

/-- Why a request is not accepted. -/
inductive RequestRefusal where
  /-- The context of the call is done. -/
  | canceled
  /-- "decode request". -/
  | decode
  /-- "validate request". -/
  | invalid (e : InvalidRequest)
  /-- "request topic does not match device_id". -/
  | topic
  /-- "unauthenticated reasoning request". -/
  | unauthenticated (e : VerifyError Empty)
  /-- "request_id already in flight". -/
  | inFlight

/-- How a request fails. -/
inductive RequestError where
  | refused (e : RequestRefusal)
  /-- "response topic". -/
  | responseTopic
  /-- "publish response": there is nothing to publish. -/
  | reply (e : EncodeError)
  /-- "publish response". -/
  | publish

/-- How a call of the provider ends. -/
inductive ProviderOutcome (F : Type) where
  | response (resp : ReasoningResponse F)
  | deadlineExceeded
  | canceled
  | panic
  | failed

section Parts

variable {F X : Type} (cfg : DispatcherConfig F X)

/-- What the verifier is asked about a request. -/
def requestVerification (payload : Bytes) (req : ReasoningRequest X) (now : Int) :
    VerifyCall (List (Bytes × JsonValue)) Empty where
  payload := payload
  messageType := reasoningRequestMessageType
  expectedDeviceID := req.deviceID
  expectedRequestID := req.requestID
  now := now
  decide := none

/-- **Receive a request**: everything before its slot is taken, with the verifier after it. -/
def receive (verifier : Option Verifier) (topic payload : Bytes) (canceled : Bool) (now : Int) :
    Except RequestRefusal (ReasoningRequest X) × Option Verifier :=
  if canceled then (.error .canceled, verifier)
  else
    match decodeRequest cfg.readContext cfg.context payload with
    | none => (.error .decode, verifier)
    | some req =>
      match validateRequest req with
      | .error e => (.error (.invalid e), verifier)
      | .ok () =>
        if req.timeoutMS < 0 then (.error (.invalid .negativeTimeout), verifier)
        else if !validateRequestTopic req topic then (.error .topic, verifier)
        else
          -- verification precedes every side effect
          match verifier with
          | none => (.ok { req with auth := none }, none)
          | some v =>
            let r := verifyJSON (decodeAuthPayload cfg.lib) v (requestVerification payload req now)
            match r.1.error with
            | some e => (.error (.unauthenticated e), some r.2)
            | none => (.ok { req with auth := none }, some r.2)

/-- The timeout the provider is given, in nanoseconds. -/
def callTimeout (req : ReasoningRequest X) : Int :=
  let requested := int64 (req.timeoutMS * 1000000)
  if 0 < req.timeoutMS ∧ requested < cfg.providerTimeout then requested else cfg.providerTimeout

def invalidResponseMessage : Bytes := ascii "provider returned invalid response"

/-- **What the provider's outcome is answered with.** -/
def responseTo (req : ReasoningRequest X) : ProviderOutcome F → ReasoningResponse F
  | .response resp =>
    let resp := { resp with deviceID := req.deviceID }
    if validateResponseForRequest req resp then resp
    else errorResponseFor cfg.floats req invalidResponseMessage
  | .deadlineExceeded => errorResponseFor cfg.floats req (ascii "provider timeout")
  | .canceled => errorResponseFor cfg.floats req (ascii "provider canceled")
  | .panic => errorResponseFor cfg.floats req (ascii "provider panic")
  | .failed => errorResponseFor cfg.floats req (ascii "provider error")

/-- The bytes of a reply: those of the response, or of an error response when it has none or too
many. The signing clock is read once for each. -/
def replyPayload (req : ReasoningRequest X) (resp : ReasoningResponse F)
    (first second : Option Int) : Except EncodeError Bytes :=
  match encodeResponse cfg.floats cfg.lib cfg.signingSecret req resp first with
  | .error _ =>
    encodeResponse cfg.floats cfg.lib cfg.signingSecret req
      (errorResponseFor cfg.floats req invalidResponseMessage) second
  | .ok payload =>
    if reasoningResponseMaximum < payload.length then
      encodeResponse cfg.floats cfg.lib cfg.signingSecret req
        (errorResponseFor cfg.floats req errorResponseTooLarge) second
    else .ok payload

/-- **Publish a response**: the topic and bytes handed to the broker, if any, and the result, given
how the broker takes them. -/
def publishResponse (req : ReasoningRequest X) (resp : ReasoningResponse F)
    (first second : Option Int) (taken : Bool) :
    Option (Bytes × Bytes) × Except RequestError Unit :=
  match responseTopic req.deviceID with
  | none => (none, .error .responseTopic)
  | some topic =>
    match replyPayload cfg req resp first second with
    | .error e => (none, .error (.reply e))
    | .ok payload => (some (topic, payload), if taken then .ok () else .error .publish)

end Parts

/-! ## All requests -/

/-- What a request does. -/
inductive DispatchEvent (F X : Type) where
  /-- It arrives, with the verifier as it then is. -/
  | arrived (topic payload : Bytes) (verifier : Option Verifier) (now : Int)
  | called (req : ReasoningRequest X) (timeout : Int)
  /-- The provider is done; the signing clock gives these times for the reply and for an error in
  its place. -/
  | replying (outcome : ProviderOutcome F) (first second : Option Int)
  /-- A response is handed to the broker, which takes it or does not. -/
  | published (topic payload : Bytes) (taken : Bool)
  | returned (result : Except RequestError Unit)

/-- Where a request is. -/
inductive HandlerPhase (X : Type) where
  | verified (req : ReasoningRequest X)
  | calling (req : ReasoningRequest X)
  /-- It holds its slot and was answered, or could not be. -/
  | answered (req : ReasoningRequest X) (result : Except RequestError Unit)

/-- The request whose slot a handler holds. -/
def HandlerPhase.held {X : Type} : HandlerPhase X → Option (ReasoningRequest X)
  | verified _ => none
  | calling req => some req
  | answered req _ => some req

/-- The dispatcher: its verifier, its slots, and its requests with what each has done. -/
structure Requests (F X : Type) where
  verifier : Option Verifier
  inFlight : Finset (Bytes × Bytes)
  handlers : GoMap Nat (HandlerPhase X)
  next : Nat
  trace : Nat → List (DispatchEvent F X)

/-- One step of the dispatcher. -/
inductive DispatchStep (F : Type) where
  | arrive (topic payload : Bytes) (canceled : Bool) (now : Int)
  | begin (i : Nat)
  /-- The provider is done, and the response is published; the signing clock gives these times, and
  the broker takes the response or does not. -/
  | answer (i : Nat) (outcome : ProviderOutcome F) (first second : Option Int) (taken : Bool)
  /-- A request frees its slot and its handler returns. -/
  | finish (i : Nat)

namespace Requests

variable {F X : Type}

/-- A dispatcher before any request. -/
def start (verifier : Option Verifier) : Requests F X := ⟨verifier, ∅, ∅, 0, fun _ => []⟩

/-- A request does something more. -/
def note (s : Requests F X) (i : Nat) (events : List (DispatchEvent F X)) : Requests F X :=
  { s with trace := Function.update s.trace i (s.trace i ++ events) }

theorem note_trace (s : Requests F X) (i : Nat) (events : List (DispatchEvent F X)) (j : Nat) :
    (s.note i events).trace j = if j = i then s.trace i ++ events else s.trace j :=
  Function.update_apply ..

/-- **A step of the dispatcher**, when it is possible. -/
def step (cfg : DispatcherConfig F X) (s : Requests F X) : DispatchStep F → Option (Requests F X)
  | .arrive topic payload canceled now =>
    let r := receive cfg s.verifier topic payload canceled now
    match r.1 with
    | .error e =>
      some { s.note s.next [.arrived topic payload s.verifier now,
        .returned (.error (.refused e))] with
        verifier := r.2
        next := s.next + 1 }
    | .ok req =>
      some { s.note s.next [.arrived topic payload s.verifier now] with
        verifier := r.2
        next := s.next + 1
        handlers := s.handlers.insert s.next (.verified req) }
  | .begin i =>
    match s.handlers.lookup i with
    | some (.verified req) =>
      if req.key ∈ s.inFlight then
        some { s.note i [.returned (.error (.refused .inFlight))] with
          handlers := s.handlers.erase i }
      else
        some { s.note i [.called req (callTimeout cfg req)] with
          inFlight := insert req.key s.inFlight
          handlers := s.handlers.insert i (.calling req) }
    | _ => none
  | .answer i outcome first second taken =>
    match s.handlers.lookup i with
    | some (.calling req) =>
      let r := publishResponse cfg req (responseTo cfg req outcome) first second taken
      some { s.note i (.replying outcome first second ::
          r.1.toList.map fun p => .published p.1 p.2 taken) with
        handlers := s.handlers.insert i (.answered req r.2) }
    | _ => none
  | .finish i =>
    match s.handlers.lookup i with
    | some (.answered req result) =>
      some { s.note i [.returned result] with
        inFlight := s.inFlight.erase req.key
        handlers := s.handlers.erase i }
    | _ => none

end Requests

/-! ## What a request has done -/

section Traces

variable {F X : Type} (cfg : DispatcherConfig F X)

/-- **A message that is accepted as a request**: it decodes to one that is valid, came on its
device's topic, or on none from within the gateway, and passes the verifier there is. -/
structure Accepts (verifier : Option Verifier) (now : Int) (topic payload : Bytes)
    (req : ReasoningRequest X) : Prop where
  decoded : ∃ decoded, decodeRequest cfg.readContext cfg.context payload = some decoded ∧
    req = { decoded with auth := none }
  requestID : validRoutingID req.requestID = true
  deviceID : validMQTTDeviceID req.deviceID = true
  prompt : req.prompt ≠ []
  tier : isValidActionTier req.actionTierHint = true
  timeout : 0 ≤ req.timeoutMS
  routed : topic = [] ∨ requestTopic req.deviceID = some topic
  verified : ∀ v ∈ verifier,
    (verifyJSON (decodeAuthPayload cfg.lib) v (requestVerification payload req now)).1.error = none

/-- A request that was passed to the provider, from its arrival to its result. -/
structure Handling (F X : Type) where
  topic : Bytes
  payload : Bytes
  verifier : Option Verifier
  now : Int
  req : ReasoningRequest X
  outcome : ProviderOutcome F
  first : Option Int
  second : Option Int
  result : Except RequestError Unit

/-- What it has done before it is answered. -/
def Handling.begun (k : Handling F X) : List (DispatchEvent F X) :=
  [.arrived k.topic k.payload k.verifier k.now, .called k.req (callTimeout cfg k.req),
    .replying k.outcome k.first k.second]

/-- **How an accepted request is answered**: one response with its identity on its device's topic,
which the broker takes or does not; or none, when its error response has no bytes. -/
inductive Replies (k : Handling F X) : List (DispatchEvent F X) → Prop where
  | published {topic payload : Bytes} (taken : Bool)
      (htopic : responseTopic k.req.deviceID = some topic)
      (hreply : replyPayload cfg k.req (responseTo cfg k.req k.outcome) k.first k.second
        = .ok payload)
      (hroute : responseRoute payload = some (k.req.requestID, k.req.deviceID))
      (hresult : k.result = if taken then .ok () else .error .publish) :
      Replies k [.published topic payload taken]
  | unencoded {message : Bytes} {e : EncodeError}
      (hencode : encodeResponse cfg.floats cfg.lib cfg.signingSecret k.req
        (errorResponseFor cfg.floats k.req message) k.second = .error e)
      (hresult : k.result = .error (.reply e)) : Replies k []

/-- **What a request has done by the time it is where it is.** -/
inductive Traced : Option (HandlerPhase X) → List (DispatchEvent F X) → Prop where
  | absent : Traced none []
  | refused (topic payload : Bytes) (verifier : Option Verifier) (now : Int) (e : RequestRefusal) :
      Traced none [.arrived topic payload verifier now, .returned (.error (.refused e))]
  | verified {topic payload : Bytes} {verifier : Option Verifier} {now : Int}
      {req : ReasoningRequest X}
      (haccepts : Accepts cfg verifier now topic payload req) :
      Traced (some (.verified req)) [.arrived topic payload verifier now]
  | calling {topic payload : Bytes} {verifier : Option Verifier} {now : Int}
      {req : ReasoningRequest X}
      (haccepts : Accepts cfg verifier now topic payload req) :
      Traced (some (.calling req))
        [.arrived topic payload verifier now, .called req (callTimeout cfg req)]
  | answered {k : Handling F X} {reply : List (DispatchEvent F X)}
      (haccepts : Accepts cfg k.verifier k.now k.topic k.payload k.req)
        (hreply : Replies cfg k reply) :
      Traced (some (.answered k.req k.result)) (k.begun cfg ++ reply)
  | returned {k : Handling F X} {reply : List (DispatchEvent F X)}
      (haccepts : Accepts cfg k.verifier k.now k.topic k.payload k.req)
        (hreply : Replies cfg k reply) :
      Traced none (k.begun cfg ++ reply ++ [.returned k.result])

variable {cfg}

/-- **What is received is accepted.** -/
theorem accepts_of_receive {verifier : Option Verifier} {now : Int} {topic payload : Bytes}
    {canceled : Bool} {req : ReasoningRequest X}
    (h : (receive cfg verifier topic payload canceled now).1 = .ok req) :
    Accepts cfg verifier now topic payload req := by
  unfold receive at h
  split at h
  · cases h
  · split at h
    · cases h
    · next decoded hdecode =>
      split at h
      · cases h
      · next hvalid =>
        obtain ⟨hid, hdevice, hprompt, htier⟩ := validateRequest_ok_iff.mp hvalid
        split at h
        · cases h
        · next htimeout =>
          split at h
          · cases h
          · next htopic =>
            have hrouted : topic = [] ∨ requestTopic decoded.deviceID = some topic := by
              simpa [validateRequestTopic, or_iff_not_imp_left] using htopic
            have haccepts := fun hverified =>
              (⟨⟨decoded, hdecode, rfl⟩, hid, hdevice, hprompt, htier,
              not_lt.mp htimeout, hrouted, hverified⟩ :
                Accepts cfg verifier now topic payload { decoded with auth := none })
            split at h
            · cases h
              exact haccepts nofun
            · dsimp only at h
              split at h
              · cases h
              · next herror =>
                cases h
                exact haccepts fun v hv => Option.some.inj hv ▸ herror

variable (cfg) in
theorem identity_responseTo (req : ReasoningRequest X) (outcome : ProviderOutcome F) :
    (responseTo cfg req outcome).requestID = req.requestID ∧
      (responseTo cfg req outcome).deviceID = req.deviceID := by
  cases outcome with
  | response resp =>
    simp only [responseTo]
    split
    · next hvalid =>
      simp only [validateResponseForRequest, Bool.and_eq_true, beq_iff_eq] at hvalid
      exact ⟨hvalid.1.1.symm, rfl⟩
    · exact ⟨rfl, rfl⟩
  | _ => exact ⟨rfl, rfl⟩

variable (cfg) in
/-- A reply has bytes that are found by the request's identity, unless an error response has
none. -/
theorem replyPayload_cases {req : ReasoningRequest X} {resp : ReasoningResponse F}
    (first second : Option Int) (hrequest : resp.requestID = req.requestID)
    (hdevice : resp.deviceID = req.deviceID) (hvalid : validRoutingID req.requestID = true)
    (hutf8 : Utf8.valid req.deviceID = true) :
    (∃ payload, replyPayload cfg req resp first second = .ok payload ∧
        responseRoute payload = some (req.requestID, req.deviceID)) ∨
      ∃ message e, replyPayload cfg req resp first second = .error e ∧
        encodeResponse cfg.floats cfg.lib cfg.signingSecret req
          (errorResponseFor cfg.floats req message)
          second = .error e := by
  have herror : ∀ message, (∃ payload, encodeResponse cfg.floats cfg.lib cfg.signingSecret req
        (errorResponseFor cfg.floats req message) second = .ok payload ∧
        responseRoute payload = some (req.requestID, req.deviceID)) ∨
      ∃ message' e, encodeResponse cfg.floats cfg.lib cfg.signingSecret req
          (errorResponseFor cfg.floats req message) second = .error e ∧
        encodeResponse cfg.floats cfg.lib cfg.signingSecret req
          (errorResponseFor cfg.floats req message')
          second = .error e := by
    intro message
    cases hencode : encodeResponse cfg.floats cfg.lib cfg.signingSecret req
        (errorResponseFor cfg.floats req message) second with
    | error e => exact .inr ⟨message, e, rfl, hencode⟩
    | ok payload =>
      exact .inl ⟨payload, rfl, responseRoute_of_encodeResponse hencode rfl rfl hvalid hutf8⟩
  unfold replyPayload
  cases hencode : encodeResponse cfg.floats cfg.lib cfg.signingSecret req resp first with
  | error e => exact herror _
  | ok payload =>
    dsimp only
    split
    · exact herror _
    · exact .inl ⟨payload, rfl,
        responseRoute_of_encodeResponse hencode hrequest hdevice hvalid hutf8⟩

/-- **An accepted request is answered**, whatever the provider, the clock and the broker do. -/
theorem Accepts.replies {verifier : Option Verifier} {now : Int} {topic payload : Bytes}
    {req : ReasoningRequest X} (h : Accepts cfg verifier now topic payload req)
    (outcome : ProviderOutcome F) (first second : Option Int) (taken : Bool) :
    Replies cfg ⟨topic, payload, verifier, now, req, outcome, first, second,
        (publishResponse cfg req (responseTo cfg req outcome) first second taken).2⟩
      ((publishResponse cfg req (responseTo cfg req outcome) first second taken).1.toList.map
        fun p => .published p.1 p.2 taken) := by
  obtain ⟨decoded, hdecode, rfl⟩ := h.decoded
  have hutf8 := valid_deviceID_of_decodeRequest hdecode
  obtain ⟨topic, htopic⟩ : ∃ topic, responseTopic decoded.deviceID = some topic :=
    ⟨_, if_pos h.deviceID⟩
  obtain ⟨hrequest, hresponse⟩ := identity_responseTo cfg { decoded with auth := none } outcome
  unfold publishResponse
  simp only [htopic]
  rcases replyPayload_cases cfg first second hrequest hresponse h.requestID hutf8 with
    ⟨reply, hreply, hroute⟩ | ⟨message, e, hreply, hencode⟩
  · simp only [hreply]
    exact .published taken htopic hreply hroute rfl
  · simp only [hreply]
    exact .unencoded hencode rfl

end Traces

/-! ## Slots -/

namespace Requests

variable {F X : Type} {cfg : DispatcherConfig F X} {s s' : Requests F X}

def Holds (s : Requests F X) (i : Nat) (req : ReasoningRequest X) : Prop :=
  (s.handlers.lookup i).bind HandlerPhase.held = some req

/-- **The slots are those of the requests in flight, one each.** -/
structure SlotsHeld (s : Requests F X) : Prop where
  taken : ∀ k, k ∈ s.inFlight ↔ ∃ i req, s.Holds i req ∧ req.key = k
  unique : ∀ i j req req', s.Holds i req → s.Holds j req' → req.key = req'.key → i = j

theorem SlotsHeld.of_holds (h : s.SlotsHeld) (hflight : s'.inFlight = s.inFlight)
    (hholds : ∀ i req, s'.Holds i req ↔ s.Holds i req) : s'.SlotsHeld where
  taken k := by simp only [hflight, h.taken, hholds]
  unique i j req req' hi hj := h.unique i j req req' ((hholds i req).mp hi) ((hholds j req').mp hj)

/-- A handler that held none takes a free slot. -/
theorem SlotsHeld.take (h : s.SlotsHeld) {i : Nat} {req : ReasoningRequest X}
    (hidle : ∀ req', ¬ s.Holds i req') (hfree : req.key ∉ s.inFlight)
    (hflight : s'.inFlight = insert req.key s.inFlight)
    (hholds : ∀ j req', s'.Holds j req' ↔ if j = i then req = req' else s.Holds j req') :
    s'.SlotsHeld := by
  have hother : ∀ j req', s.Holds j req' → req'.key ≠ req.key := by
    rintro j req' hj heq
    exact hfree ((h.taken req.key).mpr ⟨j, req', hj, heq⟩)
  refine ⟨fun k => ?_, fun j j' r r' hj hj' hkey => ?_⟩
  · rw [hflight, Finset.mem_insert, h.taken]
    constructor
    · rintro (rfl | ⟨j, req', hj, hkey⟩)
      · exact ⟨i, req, (hholds i req).mpr (if_pos rfl ▸ rfl), rfl⟩
      · refine ⟨j, req', (hholds j req').mpr ?_, hkey⟩
        rw [if_neg]
        · exact hj
        · rintro rfl
          exact hidle req' hj
    · rintro ⟨j, req', hj, hkey⟩
      have hj := (hholds j req').mp hj
      split at hj
      · subst hj
        exact .inl hkey.symm
      · exact .inr ⟨j, req', hj, hkey⟩
  · have hj := (hholds j r).mp hj
    have hj' := (hholds j' r').mp hj'
    split at hj <;> split at hj'
    · next heq heq' => rw [heq, heq']
    · subst hj
      exact absurd hkey.symm (hother j' r' hj')
    · subst hj'
      exact absurd hkey (hother j r hj)
    · exact h.unique j j' r r' hj hj' hkey

theorem holds_insert (s : Requests F X) (i : Nat) (phase : HandlerPhase X) (j : Nat)
    (req : ReasoningRequest X) :
    ((s.handlers.insert i phase).lookup j).bind HandlerPhase.held = some req ↔
      if j = i then phase.held = some req else s.Holds j req := by
  rw [lookup_insert_ite]
  split <;> rfl

theorem holds_erase (s : Requests F X) (i j : Nat) (req : ReasoningRequest X) :
    ((s.handlers.erase i).lookup j).bind HandlerPhase.held = some req ↔ j ≠ i ∧ s.Holds j req := by
  rw [lookup_erase_ite]
  split
  · next heq => simp [heq]
  · next hne => simp [hne, Holds]

/-- **What holds between any two steps**: each request is where its trace says, those to come have
done nothing, and the slots are held. -/
structure Tracked (cfg : DispatcherConfig F X) (s : Requests F X) : Prop where
  traced : ∀ i, Traced cfg (s.handlers.lookup i) (s.trace i)
  fresh : ∀ i, s.next ≤ i → s.handlers.lookup i = none ∧ s.trace i = []
  slots : s.SlotsHeld

theorem Tracked.move (h : Tracked cfg s) (i : Nat) (phase : Option (HandlerPhase X))
    {events : List (DispatchEvent F X)}
    (hlookup : ∀ j, s'.handlers.lookup j = if j = i then phase else s.handlers.lookup j)
    (htrace : s'.trace = (s.note i events).trace) (hnext : s.next ≤ s'.next) (hi : i < s'.next)
    (htraced : Traced cfg phase (s.trace i ++ events)) (hslots : s'.SlotsHeld) :
    Tracked cfg s' where
  traced j := by
    rw [hlookup, htrace, note_trace]
    split
    · exact htraced
    · exact h.traced j
  fresh j hj := by
    have hne : j ≠ i := by omega
    rw [hlookup, htrace, note_trace, if_neg hne, if_neg hne]
    exact h.fresh j (hnext.trans hj)
  slots := hslots

theorem Tracked.lt_next (h : Tracked cfg s) {i : Nat} {phase : HandlerPhase X}
    (hphase : s.handlers.lookup i = some phase) : i < s.next := by
  by_contra hle
  rw [(h.fresh i (not_lt.mp hle)).1] at hphase
  cases hphase

theorem holds_of_lookup {i : Nat} {phase : HandlerPhase X} {req : ReasoningRequest X}
    (hphase : s.handlers.lookup i = some phase) (hheld : phase.held = some req) :
    s.Holds i req := by
  rw [Holds, hphase]
  exact hheld

theorem Tracked.arrive (h : Tracked cfg s) {topic payload : Bytes} {canceled : Bool} {now : Int}
    (hstep : step cfg s (.arrive topic payload canceled now) = some s') : Tracked cfg s' := by
  obtain ⟨hnone, hempty⟩ := h.fresh s.next le_rfl
  unfold step at hstep
  dsimp only at hstep
  split at hstep
  · cases hstep
    refine h.move s.next none (fun j => ?_) rfl (Nat.le_succ _) (Nat.lt_succ_self _)
      (by rw [hempty]; exact .refused topic payload _ _ _) (h.slots.of_holds rfl fun _ _ => Iff.rfl)
    change s.handlers.lookup j = _
    split
    · next heq => rw [heq, hnone]
    · rfl
  · next req hreq =>
    cases hstep
    refine h.move s.next _ (fun j => lookup_insert_ite ..) rfl (Nat.le_succ _) (Nat.lt_succ_self _)
      (by rw [hempty]; exact .verified (accepts_of_receive hreq))
        (h.slots.of_holds rfl fun j req' => ?_)
    refine (s.holds_insert s.next _ j req').trans ?_
    split
    · next heq =>
      rw [Holds, heq, hnone]
      simp [HandlerPhase.held]
    · rfl

theorem Tracked.begin (h : Tracked cfg s) {i : Nat}
    (hstep : step cfg s (.begin i) = some s') : Tracked cfg s' := by
  unfold step at hstep
  dsimp only at hstep
  split at hstep
  · next req hphase =>
    have htraced := h.traced i
    rw [hphase] at htraced
    have hidle : ∀ req', ¬ s.Holds i req' := by
      intro req' hholds
      rw [Holds, hphase] at hholds
      cases hholds
    obtain ⟨topic, payload, verifier, now, haccepts, htrace⟩ :
        ∃ topic payload verifier now, Accepts cfg verifier now topic payload req ∧
          s.trace i = [.arrived topic payload verifier now] := by
      generalize s.trace i = trace at htraced
      cases htraced with
      | verified haccepts => exact ⟨_, _, _, _, haccepts, rfl⟩
    split at hstep
    · -- the slot is taken: the request ends without one
      cases hstep
      refine h.move i none (fun j => lookup_erase_ite ..) rfl le_rfl
        (h.lt_next hphase) (by rw [htrace]; exact .refused topic payload _ _ _)
        (h.slots.of_holds rfl fun j req' => ?_)
      refine (s.holds_erase i j req').trans (and_iff_right_of_imp fun hholds heq => ?_)
      exact hidle req' (heq ▸ hholds)
    · next hfree =>
      cases hstep
      refine h.move i _ (fun j => lookup_insert_ite ..) rfl le_rfl (h.lt_next hphase)
        (by rw [htrace]; exact .calling haccepts) ?_
      -- the request alone has the slot, which nobody had
      refine h.slots.take hidle hfree rfl fun j req' => ?_
      refine (s.holds_insert i _ j req').trans ?_
      simp only [HandlerPhase.held, Option.some.injEq]
  · cases hstep

theorem Tracked.answer (h : Tracked cfg s) {i : Nat} {outcome : ProviderOutcome F}
    {first second : Option Int} {taken : Bool}
    (hstep : step cfg s (.answer i outcome first second taken) = some s') :
    Tracked cfg s' := by
  unfold step at hstep
  dsimp only at hstep
  split at hstep
  · next req hphase =>
    cases hstep
    have htraced := h.traced i
    rw [hphase] at htraced
    obtain ⟨topic, payload, verifier, now, haccepts, htrace⟩ :
        ∃ topic payload verifier now, Accepts cfg verifier now topic payload req ∧
          s.trace i = [.arrived topic payload verifier now, .called req (callTimeout cfg req)] := by
      generalize s.trace i = trace at htraced
      cases htraced with
      | calling haccepts => exact ⟨_, _, _, _, haccepts, rfl⟩
    refine h.move i _ (fun j => lookup_insert_ite ..) rfl le_rfl (h.lt_next hphase)
      (by rw [htrace]; exact .answered haccepts (haccepts.replies outcome first second taken)) ?_
    refine h.slots.of_holds rfl fun j req' => ?_
    refine (s.holds_insert i _ j req').trans ?_
    split
    · next heq =>
      rw [Holds, heq, hphase]
      simp [HandlerPhase.held]
    · rfl
  · cases hstep

theorem Tracked.finish (h : Tracked cfg s) {i : Nat}
    (hstep : step cfg s (.finish i) = some s') : Tracked cfg s' := by
  unfold step at hstep
  dsimp only at hstep
  split at hstep
  · next req result hphase =>
    cases hstep
    have htraced := h.traced i
    rw [hphase] at htraced
    have hheld : s.Holds i req := holds_of_lookup hphase rfl
    have hdone : Traced cfg none (s.trace i ++ [.returned result]) := by
      generalize s.trace i = trace at htraced
      cases htraced with
      | answered haccepts hreply => exact .returned haccepts hreply
    refine h.move i none (fun j => lookup_erase_ite ..) rfl le_rfl
      (h.lt_next hphase) hdone ?_
    have hholds : ∀ j req', Holds { s.note i [.returned result] with
        inFlight := s.inFlight.erase req.key
        handlers := s.handlers.erase i } j req' ↔ j ≠ i ∧ s.Holds j req' :=
      fun j req' => s.holds_erase i j req'
    refine ⟨fun k => ?_, fun j j' r r' hj hj' hkey => ?_⟩
    · change k ∈ s.inFlight.erase req.key ↔ _
      rw [Finset.mem_erase, h.slots.taken]
      constructor
      · rintro ⟨hne, j, req', hj, hkey⟩
        refine ⟨j, req', (hholds j req').mpr ⟨?_, hj⟩, hkey⟩
        rintro rfl
        rw [Holds] at hj hheld
        rw [hheld] at hj
        cases hj
        exact hne hkey.symm
      · rintro ⟨j, req', hj, hkey⟩
        obtain ⟨hne, hj⟩ := (hholds j req').mp hj
        refine ⟨fun heq => hne ?_, j, req', hj, hkey⟩
        exact h.slots.unique j i req' req hj hheld (hkey.trans heq)
    · exact h.slots.unique j j' r r' ((hholds j r).mp hj).2 ((hholds j' r').mp hj').2 hkey
  · cases hstep

/-- **A step keeps every request where its trace says.** -/
theorem Tracked.step {e : DispatchStep F} (h : Tracked cfg s)
    (hstep : Requests.step cfg s e = some s') : Tracked cfg s' := by
  cases e with
  | arrive topic payload canceled now => exact h.arrive hstep
  | begin i => exact h.begin hstep
  | answer i outcome first second taken => exact h.answer hstep
  | finish i => exact h.finish hstep

theorem tracked_start (cfg : DispatcherConfig F X) (verifier : Option Verifier) :
    Tracked cfg (start verifier) where
  traced _ := .absent
  fresh _ _ := ⟨rfl, rfl⟩
  slots := ⟨fun k => by simp [start, Holds], fun i j req req' hi => by cases hi⟩

theorem step_answer {i : Nat} {req : ReasoningRequest X}
    (hphase : s.handlers.lookup i = some (.calling req)) (outcome : ProviderOutcome F)
    (first second : Option Int) (taken : Bool) :
    Requests.step cfg s (.answer i outcome first second taken) = some
      { s.note i (.replying outcome first second :: (publishResponse cfg req
          (responseTo cfg req outcome) first second taken).1.toList.map
            fun p => .published p.1 p.2 taken) with
        handlers := s.handlers.insert i (.answered req
          (publishResponse cfg req (responseTo cfg req outcome) first second taken).2) } := by
  unfold Requests.step
  simp only [hphase]

theorem step_finish {i : Nat} {req : ReasoningRequest X} {result : Except RequestError Unit}
    (hphase : s.handlers.lookup i = some (.answered req result)) :
    Requests.step cfg s (.finish i) = some
      { s.note i [.returned result] with
        inFlight := s.inFlight.erase req.key
        handlers := s.handlers.erase i } := by
  unfold Requests.step
  simp only [hphase]

/-- **What remains of a request in flight**: however the provider, the clock and the broker behave,
it is answered or cannot be, its slot is freed and its handler returns. -/
theorem frees_slot {i : Nat} {req : ReasoningRequest X}
    (hphase : s.handlers.lookup i = some (.calling req)) (outcome : ProviderOutcome F)
    (first second : Option Int) (taken : Bool) :
    ∃ s₁ s₂, Requests.step cfg s (.answer i outcome first second taken) = some s₁ ∧
      Requests.step cfg s₁ (.finish i) = some s₂ ∧ req.key ∉ s₂.inFlight ∧
      ∃ result, .returned result ∈ s₂.trace i := by
  refine ⟨_, _, step_answer hphase outcome first second taken,
    step_finish ((lookup_insert_ite ..).trans (if_pos rfl)), Finset.notMem_erase _ _,
    (publishResponse cfg req (responseTo cfg req outcome) first second taken).2, ?_⟩
  change _ ∈ (note _ i _).trace i
  rw [note_trace, if_pos rfl]
  exact List.mem_append_right _ List.mem_cons_self

end Requests

/-! ## Every run -/

/-- **What a dispatcher owes a request**, said of what the request has done. -/
structure AnsweredOnce {F X : Type} (cfg : DispatcherConfig F X)
    (trace : List (DispatchEvent F X)) :
    Prop where
  /-- The provider is called with messages that are accepted alone, by the verifier they met. -/
  accepted : ∀ topic payload verifier now req timeout, .arrived topic payload verifier now ∈ trace →
    .called req timeout ∈ trace → Accepts cfg verifier now topic payload req
  once : (trace.filter fun | .published .. => true | _ => false).length ≤ 1
  carries : ∀ topic payload taken, .published topic payload taken ∈ trace →
    ∃ req timeout, .called req timeout ∈ trace ∧ responseTopic req.deviceID = some topic ∧
      responseRoute payload = some (req.requestID, req.deviceID)
  /-- A request that was accepted is answered, unless the publish fails or its error response has no
  bytes at the time the signing clock gave for it. -/
  answered : ∀ req timeout result, .called req timeout ∈ trace → .returned result ∈ trace →
    (result = .ok () ∧ ∃ topic payload, .published topic payload true ∈ trace) ∨
    (result = .error .publish ∧ ∃ topic payload, .published topic payload false ∈ trace) ∨
    ∃ outcome first second message e, .replying outcome first second ∈ trace ∧
      result = .error (.reply e) ∧ encodeResponse cfg.floats cfg.lib cfg.signingSecret req
        (errorResponseFor cfg.floats req message) second = .error e
  /-- A request that was refused reaches no provider and is not answered. -/
  refused : ∀ e, .returned (.error (.refused e)) ∈ trace →
    (∀ req timeout, .called req timeout ∉ trace) ∧
      ∀ topic payload taken, .published topic payload taken ∉ trace

section Answered

variable {F X : Type} {cfg : DispatcherConfig F X} {trace : List (DispatchEvent F X)}
  {phase : Option (HandlerPhase X)}

/-- What a request that is handled so may have done. -/
def DispatchEvent.Fits (cfg : DispatcherConfig F X) (k : Handling F X) : DispatchEvent F X → Prop
  | arrived topic payload verifier now =>
    topic = k.topic ∧ payload = k.payload ∧ verifier = k.verifier ∧ now = k.now
  | called req timeout => req = k.req ∧ timeout = callTimeout cfg k.req
  | replying outcome first second => outcome = k.outcome ∧ first = k.first ∧ second = k.second
  | published topic payload _ => responseTopic k.req.deviceID = some topic ∧
      replyPayload cfg k.req (responseTo cfg k.req k.outcome) k.first k.second = .ok payload ∧
      responseRoute payload = some (k.req.requestID, k.req.deviceID)
  | returned result => result = k.result

theorem Replies.fits {k : Handling F X} {reply tail : List (DispatchEvent F X)}
    (h : Replies cfg k reply) (htail : ∀ e ∈ tail, e = .returned k.result) :
    ∀ e ∈ k.begun cfg ++ reply ++ tail, e.Fits cfg k := by
  simp only [Handling.begun, List.cons_append, List.nil_append, List.forall_mem_cons,
    List.forall_mem_append]
  refine ⟨⟨rfl, rfl, rfl, rfl⟩, ⟨rfl, rfl⟩, ⟨rfl, rfl, rfl⟩, fun e he => ?_, fun e he => ?_⟩
  · cases h with
    | published taken htopic hreply hroute =>
      rw [List.mem_singleton.mp he]
      exact ⟨htopic, hreply, hroute⟩
    | unencoded hencode => cases he
  · rw [htail e he]
    rfl

/-- **A request that was passed to the provider did what became of it.** -/
theorem Traced.handled (h : Traced cfg phase trace) {req : ReasoningRequest X} {timeout : Int}
    (hcalled : .called req timeout ∈ trace) :
    ∃ k : Handling F X, Accepts cfg k.verifier k.now k.topic k.payload k.req ∧
      ∀ e ∈ trace, e.Fits cfg k := by
  cases h with
  | absent => cases hcalled
  | refused topic payload verifier now e => simp at hcalled
  | verified haccepts => simp at hcalled
  | @calling topic payload verifier now req haccepts =>
    refine ⟨⟨topic, payload, verifier, now, req, .failed, none, none, .ok ()⟩, haccepts, ?_⟩
    simp [DispatchEvent.Fits]
  | @answered k reply haccepts hreply =>
    refine ⟨k, haccepts, ?_⟩
    rw [← List.append_nil (_ ++ _)]
    exact hreply.fits (by simp)
  | @returned k reply haccepts hreply =>
    exact ⟨k, haccepts, hreply.fits fun e he => List.mem_singleton.mp he⟩

theorem Replies.answeredOnce {k : Handling F X} {reply tail : List (DispatchEvent F X)}
    (h : Replies cfg k reply) (haccepts : Accepts cfg k.verifier k.now k.topic k.payload k.req)
    (htail : ∀ e ∈ tail, e = .returned k.result) :
    AnsweredOnce cfg (k.begun cfg ++ reply ++ tail) := by
  have hfits := h.fits htail
  have hcalled : .called k.req (callTimeout cfg k.req) ∈ k.begun cfg ++ reply ++ tail := by
    simp [Handling.begun]
  constructor
  case accepted =>
    intro topic payload verifier now req timeout harrived hcalled
    obtain ⟨rfl, rfl, rfl, rfl⟩ := hfits _ harrived
    obtain ⟨rfl, -⟩ := hfits _ hcalled
    exact haccepts
  case once =>
    have hsilent : tail.filter (fun | .published .. => true | _ => false) = [] := by
      refine List.filter_eq_nil_iff.mpr fun e he => ?_
      rw [htail e he]
      exact Bool.false_ne_true
    rw [List.filter_append, hsilent, List.append_nil]
    cases h <;> simp [Handling.begun]
  case carries =>
    intro topic payload taken hpublished
    obtain ⟨htopic, -, hroute⟩ := hfits _ hpublished
    exact ⟨k.req, _, hcalled, htopic, hroute⟩
  case answered =>
    intro req timeout result hcalled hreturned
    obtain ⟨rfl, -⟩ := hfits _ hcalled
    obtain rfl : result = k.result := hfits _ hreturned
    cases h with
    | @published topic payload taken htopic hpayload hroute hresult =>
      have hmem : .published topic payload taken ∈
          k.begun cfg ++ [.published topic payload taken] ++ tail := by simp
      cases taken with
      | true => exact .inl ⟨hresult, topic, payload, hmem⟩
      | false => exact .inr (.inl ⟨hresult, topic, payload, hmem⟩)
    | unencoded hencode hresult =>
      exact .inr (.inr
        ⟨k.outcome, k.first, k.second, _, _, by simp [Handling.begun], hresult, hencode⟩)
  case refused =>
    intro e hreturned
    have hrefused : .error (.refused e) = k.result := hfits _ hreturned
    cases h with
    | published taken _ _ _ hresult =>
      rw [hresult] at hrefused
      cases taken <;> cases hrefused
    | unencoded hencode hresult =>
      rw [hresult] at hrefused
      cases hrefused

theorem Traced.answeredOnce (h : Traced cfg phase trace) : AnsweredOnce cfg trace := by
  cases h with
  | absent => constructor <;> simp
  | refused topic payload verifier now e => constructor <;> simp
  | verified haccepts => constructor <;> simp
  | calling haccepts =>
    constructor
    case accepted =>
      intro topic payload verifier now req timeout harrived hcalled
      simp only [List.mem_cons, DispatchEvent.arrived.injEq, DispatchEvent.called.injEq,
        reduceCtorEq, List.not_mem_nil, or_false, false_or] at harrived hcalled
      obtain ⟨rfl, rfl, rfl, rfl⟩ := harrived
      obtain ⟨rfl, -⟩ := hcalled
      exact haccepts
    all_goals simp
  | answered haccepts hreply =>
    rw [← List.append_nil (_ ++ _)]
    exact hreply.answeredOnce haccepts (by simp)
  | returned haccepts hreply =>
    exact hreply.answeredOnce haccepts fun e he => List.mem_singleton.mp he

end Answered

theorem Requests.tracked_run {F X : Type} (cfg : DispatcherConfig F X) (verifier : Option Verifier)
    {steps : List (DispatchStep F)} {s : Requests F X}
    (hrun : runAll (Requests.step cfg) (.start verifier) steps = some s) : Tracked cfg s :=
  runAll_invariant (fun _ _ _ h hstep => h.step hstep) (tracked_start cfg verifier) hrun

/-- **Every request is answered once, or has a reason not to be.** From a dispatcher before any
request, take any run of its steps: requests arriving, taking their slots, their providers
responding, failing, panicking or running out of time, responses that are invalid, too large or
cannot be encoded, the signing clock failing, the broker failing, and handlers returning, in any
order. Every request was answered as it is owed; the slots are those of the requests in flight, one
each; and of every request in flight what remains can be done, whatever happens to it, and frees its
slot. -/
theorem request_answered_once {F X : Type} (cfg : DispatcherConfig F X) (verifier : Option Verifier)
    {steps : List (DispatchStep F)} {s : Requests F X}
    (hrun : runAll (Requests.step cfg) (.start verifier) steps = some s) :
    (∀ i, AnsweredOnce cfg (s.trace i)) ∧ s.SlotsHeld ∧
      ∀ i req, s.handlers.lookup i = some (.calling req) → ∀ outcome first second taken,
        ∃ s₁ s₂, Requests.step cfg s (.answer i outcome first second taken) = some s₁ ∧
          Requests.step cfg s₁ (.finish i) = some s₂ ∧ req.key ∉ s₂.inFlight ∧
          ∃ result, .returned result ∈ s₂.trace i := by
  have htracked := Requests.tracked_run cfg verifier hrun
  refine ⟨fun i => (htracked.traced i).answeredOnce, htracked.slots, fun i req hphase => ?_⟩
  exact Requests.frees_slot hphase

/-- A dispatcher that signs nothing, of responses whose confidence is always nought. -/
def plainDispatcher : DispatcherConfig Unit Unit where
  lib := documentedJSON
  floats :=
    { zero := ()
      round := id
      format := fun _ => some (formatInt 0)
      isNumber := fun _ lit h => by
        cases h
        exact Json.isNumber_formatInt 0 }
  readContext := fun _ _ => some ()
  context := ()
  signingSecret := []
  providerTimeout := 1

/-- A request of tier A. -/
def plainRequest : Bytes :=
  ascii "\x7b\"request_id\":\"r\",\"device_id\":\"d\",\"prompt\":\"p\"," ++
    ascii "\"action_tier_hint\":\"A\"\x7d"

def panickedRequest : List (DispatchStep Unit) :=
  [.arrive (ascii "ori/d/reasoning/request") plainRequest false 0,
    .begin 0, .answer 0 .panic none none true, .finish 0]

/-- A request whose provider panics arrives, is passed on, answered and done. -/
theorem request_answered_once_panicked :
    ∃ s, runAll (Requests.step plainDispatcher) (.start none) panickedRequest = some s ∧
      (s.trace 0).length = 5 ∧ AnsweredOnce plainDispatcher (s.trace 0) ∧ s.SlotsHeld := by
  have hends : (runAll (Requests.step plainDispatcher) (.start none) panickedRequest).any
      (fun s => (s.trace 0).length == 5) = true := by
    decide +kernel
  cases hrun : runAll (Requests.step plainDispatcher) (.start none) panickedRequest with
  | none =>
    rw [hrun] at hends
    cases hends
  | some s =>
    rw [hrun] at hends
    obtain ⟨hanswered, hslots, -⟩ := request_answered_once plainDispatcher none hrun
    exact ⟨s, rfl, beq_iff_eq.mp hends, hanswered 0, hslots⟩

end OriGateway
