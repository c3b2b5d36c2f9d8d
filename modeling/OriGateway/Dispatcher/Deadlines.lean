import OriGateway.Dispatcher.Answers
import OriGateway.Enrichment.Requests
import OriGateway.Foundation.Int64

/-! # Deadlines of providers

A provider is given until the smaller of the configured and the requested timeout; an enrichment
provider is given what was requested. Timeouts come in milliseconds and are kept in nanoseconds, as
64-bit integers, and only their sign is checked, so the product may wrap
(`long_timeout_expires_at_once`). `provider_deadlines` says exactly when a deadline is the one that
was asked for. -/

namespace OriGateway

open Foundation

def defaultProviderTimeoutMS : Int := 10000

/-- The configured timeout of the provider: one that is not positive is refused. -/
def loadProviderTimeoutMS : Option Int → Option Int
  | none => some defaultProviderTimeoutMS
  | some timeoutMS => if timeoutMS ≤ 0 then none else some timeoutMS

/-- The timeout a dispatcher is made with: a negative one is refused, and none is the default. -/
def newProviderTimeout (providerTimeoutMS : Int) : Option Int :=
  if providerTimeoutMS < 0 then none
  else if providerTimeoutMS = 0 then some (defaultProviderTimeoutMS * 1000000)
  else some (int64 (providerTimeoutMS * 1000000))

/-- The most milliseconds whose nanoseconds are a 64-bit integer. -/
def maxTimeoutMS : Int := 9223372036854

/-- **Nanoseconds do not wrap** exactly up to the most milliseconds there are. -/
theorem int64_milliseconds_iff {timeoutMS : Int} (hpos : 0 ≤ timeoutMS) :
    int64 (timeoutMS * 1000000) = timeoutMS * 1000000 ↔ timeoutMS ≤ maxTimeoutMS := by
  unfold maxTimeoutMS
  constructor
  · intro h
    have hrange := inInt64_int64 (timeoutMS * 1000000)
    unfold InInt64 at hrange
    omega
  · intro hmax
    refine int64_eq ⟨?_, ?_⟩ <;> omega

theorem loadProviderTimeoutMS_pos {raw : Option Int} {configured : Int}
    (h : loadProviderTimeoutMS raw = some configured) : 0 < configured := by
  unfold loadProviderTimeoutMS at h
  split at h
  · cases h
    decide
  · split at h
    · cases h
    · next hpos =>
      cases h
      exact not_le.mp hpos

theorem newProviderTimeout_eq {raw : Option Int} {configured timeout : Int}
    (hload : loadProviderTimeoutMS raw = some configured)
    (hnew : newProviderTimeout configured = some timeout) :
    timeout = int64 (configured * 1000000) := by
  have hpos := loadProviderTimeoutMS_pos hload
  rw [newProviderTimeout, if_neg (by omega), if_neg (by omega)] at hnew
  exact (Option.some.inj hnew).symm

/-- The milliseconds a request asks for: the smaller of the two timeouts, the configured one if it
names none. -/
def requestedMS (configured timeoutMS : Int) : Int :=
  if timeoutMS = 0 then configured else min configured timeoutMS

/-- **The deadline is what was asked for**: it can be kept in nanoseconds, and the larger timeout
does not wrap below it. -/
def Timely (configured timeoutMS : Int) : Prop :=
  requestedMS configured timeoutMS ≤ maxTimeoutMS ∧
    (0 < timeoutMS →
      requestedMS configured timeoutMS * 1000000 ≤ int64 (max configured timeoutMS * 1000000))

instance (configured timeoutMS : Int) : Decidable (Timely configured timeoutMS) :=
  inferInstanceAs (Decidable (_ ∧ _))

section Calls

variable {F X : Type} {cfg : DispatcherConfig F X} {req : ReasoningRequest X}

/-- **The provider is given what was asked for exactly when that does not wrap.** -/
theorem callTimeout_eq_iff {configured : Int} (hpos : 0 < configured)
    (hcfg : cfg.providerTimeout = int64 (configured * 1000000)) (htimeout : 0 ≤ req.timeoutMS) :
    callTimeout cfg req = requestedMS configured req.timeoutMS * 1000000 ↔
      Timely configured req.timeoutMS := by
  have hconfigured := int64_milliseconds_iff hpos.le
  have hrequested := int64_milliseconds_iff htimeout
  unfold callTimeout Timely requestedMS
  simp only [hcfg]
  by_cases hzero : req.timeoutMS = 0
  · simp [hzero, hconfigured]
  · have hgt : 0 < req.timeoutMS := by omega
    simp only [if_neg hzero, hgt, true_and, forall_const]
    rcases le_total configured req.timeoutMS with hle | hle
    · rw [min_eq_left hle, max_eq_right hle, ← hconfigured]
      split_ifs with hless
      · constructor
        · intro h
          have hrange := inInt64_int64 (req.timeoutMS * 1000000)
          have hwhole : int64 (configured * 1000000) = configured * 1000000 := int64_eq (h ▸ hrange)
          omega
        · rintro ⟨h, h'⟩
          omega
      · constructor
        · exact fun h => ⟨h, by omega⟩
        · exact fun h => h.1
    · rw [min_eq_right hle, max_eq_left hle, ← hrequested]
      split_ifs with hless
      · constructor
        · exact fun h => ⟨h, by omega⟩
        · exact fun h => h.1
      · constructor
        · intro h
          have hrange := inInt64_int64 (configured * 1000000)
          have hwhole : int64 (req.timeoutMS * 1000000) = req.timeoutMS * 1000000 :=
            int64_eq (h ▸ hrange)
          exact ⟨hwhole, h.ge⟩
        · rintro ⟨h, h'⟩
          omega

end Calls

theorem requestedMS_mono (configured : Int) {a b : Int} (ha : 0 < a) (hab : a ≤ b) :
    requestedMS configured a ≤ requestedMS configured b := by
  rw [requestedMS, requestedMS, if_neg ha.ne', if_neg (ha.trans_le hab).ne']
  exact min_le_min_left configured hab

/-- **When providers are given what was asked for.** Take a dispatcher made with a timeout the
loader accepts. In every run, a call of the provider is given the smaller of the configured and the
requested timeout, or the configured one if the request names none, exactly when that is timely; an
accepted enrichment request is given what it asks for exactly when that is at most `maxTimeoutMS`;
and of two requests that name a timeout and are given what they ask for, the one for more is not
given less. -/
theorem provider_deadlines {F X R : Type} (cfg : DispatcherConfig F X) (verifier : Option Verifier)
    {raw : Option Int} {configured : Int} (hload : loadProviderTimeoutMS raw = some configured)
    (hnew : newProviderTimeout configured = some cfg.providerTimeout)
    (readReading : Nat → Json → R → Option R) (reading : R) :
    (∀ steps s, runAll (Requests.step cfg) (.start verifier) steps = some s →
      ∀ i req timeout, .called req timeout ∈ s.trace i →
        (timeout = (if req.timeoutMS = 0 then configured else min configured req.timeoutMS) *
          1000000 ↔
          Timely configured req.timeoutMS)) ∧
    (∀ enrichmentVerifier topic payload canceled now req,
      (receiveEnrichment cfg.lib readReading reading enrichmentVerifier topic payload canceled
        now).1
          = .accepted req →
        (enrichmentTimeout req = req.timeoutMS * 1000000 ↔ req.timeoutMS ≤ maxTimeoutMS)) ∧
    (∀ req req' : ReasoningRequest X, 0 < req.timeoutMS → req.timeoutMS ≤ req'.timeoutMS →
      Timely configured req.timeoutMS → Timely configured req'.timeoutMS →
        callTimeout cfg req ≤ callTimeout cfg req') ∧
    ∀ req req' : TierCEnrichmentRequest R, 0 < req.timeoutMS → req.timeoutMS ≤ req'.timeoutMS →
      req'.timeoutMS ≤ maxTimeoutMS → enrichmentTimeout req ≤ enrichmentTimeout req' := by
  have hpos := loadProviderTimeoutMS_pos hload
  have hcfg := newProviderTimeout_eq hload hnew
  refine ⟨fun steps s hrun i req timeout hcalled => ?_, ?_, ?_, ?_⟩
  · obtain ⟨k, haccepts, hfits⟩ :=
      ((Requests.tracked_run cfg verifier hrun).traced i).handled hcalled
    obtain ⟨rfl, rfl⟩ := hfits _ hcalled
    exact callTimeout_eq_iff hpos hcfg haccepts.timeout
  · intro enrichmentVerifier topic payload canceled now req haccepted
    have hpos := timeout_pos_of_valid (valid_of_receiveEnrichment haccepted)
    exact int64_milliseconds_iff hpos.le
  · intro req req' hgt hle htimely htimely'
    rw [(callTimeout_eq_iff hpos hcfg hgt.le).mpr htimely,
      (callTimeout_eq_iff hpos hcfg (hgt.le.trans hle)).mpr htimely']
    have hmono := requestedMS_mono configured hgt hle
    omega
  · intro req req' hgt hle hmax
    rw [enrichmentTimeout, enrichmentTimeout, (int64_milliseconds_iff hgt.le).mpr (hle.trans hmax),
      (int64_milliseconds_iff (hgt.le.trans hle)).mpr hmax]
    omega

def defaultDispatcher : DispatcherConfig Unit Unit :=
  { plainDispatcher with providerTimeout := 10000000000 }

def timedRequest (timeoutMS : Int) : List (DispatchStep Unit) :=
  [.arrive (ascii "ori/d/reasoning/request")
      (ascii "\x7b\"request_id\":\"r\",\"device_id\":\"d\",\"prompt\":\"p\"," ++
        ascii "\"action_tier_hint\":\"A\",\"timeout_ms\":" ++ formatInt timeoutMS ++ [125]) false 0,
    .begin 0]

def calledTimeouts (trace : List (DispatchEvent Unit Unit)) : List (Int × Int) :=
  trace.filterMap fun
    | .called req timeout => some (req.timeoutMS, timeout)
    | _ => none

def timedEnrichment (timeoutMS : Int) : Bytes :=
  ascii "\x7b\"request_id\":\"r\",\"proposal_id\":\"p\",\"device_id\":\"d\"," ++
    ascii "\"skill_name\":\"s\",\"trigger_name\":\"t\",\"sensor_id\":\"i\"," ++
    ascii "\"sensor_type\":\"y\",\"proposed_action\":\"a\"," ++
    ascii "\"safe_default_action\":\"n\",\"operator_message\":\"m\",\"timeout_ms\":" ++
    formatInt timeoutMS ++ [125]

/-- The timeout an enrichment request asks for and is given, when it is accepted. -/
def acceptedTimeouts (payload : Bytes) : Option (Int × Int) :=
  match (receiveEnrichment documentedJSON (fun _ _ _ => some ()) () none
      (ascii "ori/d/tier_c/enrichment/request") payload false 0).1 with
  | .accepted req => some (req.timeoutMS, enrichmentTimeout req)
  | _ => none

/-- **The longest timeouts expire at once**: of requests for one millisecond more than
`maxTimeoutMS`, both providers are given a deadline 292 years ago, and so is every request to a
gateway with such a timeout configured. -/
theorem long_timeout_expires_at_once :
    loadProviderTimeoutMS none = some 10000 ∧
    newProviderTimeout 10000 = some defaultDispatcher.providerTimeout ∧
    (runAll (Requests.step defaultDispatcher) (.start none) (timedRequest 9223372036855)).map
      (fun s => calledTimeouts (s.trace 0)) = some [(9223372036855, -9223372036854551616)] ∧
    acceptedTimeouts (timedEnrichment 9223372036855) = some (9223372036855, -9223372036854551616) ∧
    loadProviderTimeoutMS (some 9223372036855) = some 9223372036855 ∧
    newProviderTimeout 9223372036855 = some (-9223372036854551616) := by
  decide +kernel

/-- A request for five seconds is given five seconds. -/
theorem provider_deadlines_five_seconds : ∃ s,
    runAll (Requests.step defaultDispatcher) (.start none) (timedRequest 5000) = some s ∧
      calledTimeouts (s.trace 0) = [(5000, 5000000000)] ∧ Timely 10000 5000 ∧
      ∀ i req timeout, .called req timeout ∈ s.trace i →
        (timeout = (if req.timeoutMS = 0 then 10000 else min 10000 req.timeoutMS) * 1000000 ↔
          Timely 10000 req.timeoutMS) := by
  obtain ⟨s, hrun, htimeouts⟩ := Option.map_eq_some_iff.mp
    (by decide +kernel :
      (runAll (Requests.step defaultDispatcher) (.start none) (timedRequest 5000)).map
        (fun s => calledTimeouts (s.trace 0)) = some [(5000, 5000000000)])
  have hdeadlines :=
    @provider_deadlines Unit Unit Unit defaultDispatcher none none 10000 rfl (by decide)
    (fun _ _ _ => some ()) ()
  exact ⟨s, hrun, htimeouts, by decide, hdeadlines.1 _ s hrun⟩

end OriGateway
