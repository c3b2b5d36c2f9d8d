import OriGateway.Foundation.Checks
import OriGateway.Foundation.Json
import OriGateway.Site.Health

/-! # Reasons of a degradation

A heartbeat's status and the reasons it gives for one that is not healthy, judged on their raw
values before anything else is decoded. **`DegradationVerdict.fails`** is what each step of the
contract refuses, whatever the others say; the checks refuse by the first step that fails
(**`judgeReasons_eq`**). -/

namespace OriGateway

open Foundation

variable {tokens : List Bytes} {status reasons : Option Json} {s : Bytes}

/-- The steps of the contract, in their order, by the verdict of each. -/
inductive DegradationVerdict where
  /-- "runtime_status_invalid". -/
  | statusInvalid
  /-- "degradation_reasons_not_array". -/
  | notArray
  /-- "degradation_reasons_length_invalid". -/
  | lengthInvalid
  /-- "degradation_reason_not_string". -/
  | notString
  /-- "degradation_reasons_not_unique". -/
  | notUnique
  /-- "degradation_reasons_not_ordered". -/
  | notOrdered
  /-- "degradation_reason_unknown". -/
  | unknown
  /-- "degradation_reason_not_alone". -/
  | notAlone
  /-- "degradation_reasons_status_mismatch". -/
  | statusMismatch
  /-- "degradation_reasons_severity_understated". -/
  | severityUnderstated
  deriving DecidableEq

def maxDegradationReasons : Nat := 32

def healthSnapshotInvalid : Bytes := ascii "health_snapshot_invalid"

/-- The severity of each token. -/
def degradationReasonSeverity : List (Bytes × Severity) :=
  [(ascii "action_log_records_lost", .degraded),
    (ascii "action_log_records_stalled", .degraded),
    (ascii "alert_delivery_overdue", .degraded),
    (ascii "commissioning_problem", .degraded),
    (ascii "community_skills_refused", .degraded),
    (ascii "config_unsigned_value_source", .degraded),
    (ascii "decision_record_lost", .critical),
    (ascii "evidence_contributor_link_unresolved", .degraded),
    (ascii "evidence_courier_answer_unrecognised", .degraded),
    (ascii "evidence_posture_problem", .degraded),
    (ascii "firmware_liveness_degraded", .healthy),
    (ascii "firmware_liveness_device_expired", .critical),
    (ascii "firmware_liveness_over_capacity", .degraded),
    (ascii "firmware_liveness_stopped", .critical),
    (ascii "firmware_liveness_tick_failures", .degraded),
    (ascii "firmware_liveness_tick_stale", .critical),
    (healthSnapshotInvalid, .critical),
    (ascii "safety_zone_activation_refused", .degraded),
    (ascii "safety_zone_active_unprotected", .degraded),
    (ascii "safety_zone_trip_unresolved", .critical),
    (ascii "sensor_measurement_degraded", .degraded),
    (ascii "sensor_stale", .degraded),
    (ascii "sensor_unconnected", .degraded),
    (ascii "skill_optional_hooks_unavailable", .degraded),
    (ascii "skill_required_hooks_unavailable", .critical),
    (ascii "subsystem_starting", .degraded),
    (ascii "subsystem_state_unknown", .degraded),
    (ascii "subsystem_state_unknown_critical", .critical),
    (ascii "tier_c_records_degraded", .degraded),
    (ascii "tier_c_recovery_failed", .degraded),
    (ascii "tier_d_alert_delivery_unconfirmed", .critical)]

def decodedString : Json → Option Bytes
  | .str raw => some (Json.unquote raw)
  | _ => none

/-! ## The checks -/

/-- Check the status. -/
def validateRuntimeStatus (raw : Option Json) : Except DegradationVerdict Bytes :=
  match raw with
  | none => .error .statusInvalid
  | some v =>
    match decodedString v with
    | none => .error .statusInvalid
    | some status => if (statusSeverity status).isSome then .ok status else .error .statusInvalid

/-- Check the tokens against the status. -/
def validateTokens (tokens : List Bytes) (status : Bytes) :
    Except DegradationVerdict (List Bytes) :=
  if ¬ tokens.Nodup then .error .notUnique
  else if ¬ tokens.IsChain (· ≤ ·) then .error .notOrdered
  else if tokens.any fun token => (degradationReasonSeverity.lookup token).isNone then
    .error .unknown
  else if healthSnapshotInvalid ∈ tokens ∧ (tokens.length ≠ 1 ∨ status ≠ nodeStatusCritical) then
    .error .notAlone
  else if status ≠ nodeStatusDegraded ∧ status ≠ nodeStatusCritical then .error .statusMismatch
  else if tokens.any fun token =>
      decide ((statusSeverity status).getD .healthy
        < (degradationReasonSeverity.lookup token).getD .healthy) then
    .error .severityUnderstated
  else .ok tokens

/-- Check the reasons against the status. -/
def validateDegradationReasons (raw : Option Json) (status : Bytes) :
    Except DegradationVerdict (Option (List Bytes)) :=
  match raw with
  | none => .ok none
  | some (.arr elements) =>
    if elements.length < 1 ∨ maxDegradationReasons < elements.length then .error .lengthInvalid
    else
      match elements.mapM decodedString with
      | none => .error .notString
      | some tokens => (validateTokens tokens status).map some
  | some _ => .error .notArray

/-- Check the status, then the reasons. -/
def judgeReasons (status reasons : Option Json) :
    Except DegradationVerdict (Bytes × Option (List Bytes)) :=
  match validateRuntimeStatus status with
  | .error v => .error v
  | .ok s => (validateDegradationReasons reasons s).map fun tokens => (s, tokens)

/-! ## The contract -/

def elementsOf : Option Json → Option (List Json)
  | some (.arr elements) => some elements
  | _ => none

def tokensOf (reasons : Option Json) : Option (List Bytes) :=
  (elementsOf reasons).bind (·.mapM decodedString)

def statusOf (status : Option Json) : Option Bytes := status.bind decodedString

namespace DegradationVerdict

/-- **What each step refuses**, said of the two members alone. -/
def fails (status reasons : Option Json) : DegradationVerdict → Bool
  | statusInvalid => ((statusOf status).bind statusSeverity).isNone
  | notArray => reasons.isSome && (elementsOf reasons).isNone
  | lengthInvalid => (elementsOf reasons).any fun es => decide (es.length < 1 ∨ 32 < es.length)
  | notString => (elementsOf reasons).any fun es => es.any fun v => (decodedString v).isNone
  | notUnique => (tokensOf reasons).any fun ts => !decide ts.Nodup
  | notOrdered => (tokensOf reasons).any fun ts => !decide (ts.Pairwise (· ≤ ·))
  | unknown =>
    (tokensOf reasons).any fun ts => ts.any fun t => (degradationReasonSeverity.lookup t).isNone
  | notAlone => (tokensOf reasons).any fun ts => decide (healthSnapshotInvalid ∈ ts ∧
      (ts ≠ [healthSnapshotInvalid] ∨ statusOf status ≠ some nodeStatusCritical))
  | statusMismatch => (tokensOf reasons).any fun _ =>
    decide (statusOf status ≠ some nodeStatusDegraded ∧ statusOf status ≠ some nodeStatusCritical)
  | severityUnderstated => (tokensOf reasons).any fun ts => ts.any fun t =>
    decide (((statusOf status).bind statusSeverity).getD .healthy <
      (degradationReasonSeverity.lookup t).getD .healthy)

def order : List DegradationVerdict :=
  [statusInvalid, notArray, lengthInvalid, notString, notUnique, notOrdered, unknown, notAlone,
    statusMismatch, severityUnderstated]

end DegradationVerdict

open DegradationVerdict

theorem isChain_le_iff (tokens : List Bytes) : tokens.IsChain (· ≤ ·) ↔ tokens.Pairwise (· ≤ ·) :=
  List.isChain_iff_pairwise

theorem alone_iff {token : Bytes} (h : token ∈ tokens) : tokens.length ≠ 1 ↔ tokens ≠ [token] := by
  constructor
  · rintro hlength rfl
    exact hlength rfl
  · intro hne hlength
    obtain ⟨t, rfl⟩ := List.length_eq_one_iff.mp hlength
    exact hne (by rw [List.mem_singleton.mp h])

theorem mapM_decodedString_eq_none {elements : List Json} (h : elements.mapM decodedString = none) :
    (elements.any fun v => (decodedString v).isNone) = true := by
  induction elements with
  | nil => exact nomatch h
  | cons v rest ih =>
    rw [List.any_cons, Bool.or_eq_true]
    cases hv : decodedString v with
    | none => exact .inl rfl
    | some s =>
      refine .inr (ih ?_)
      rw [List.mapM_cons, hv] at h
      cases hrest : rest.mapM decodedString with
      | none => rfl
      | some tokens =>
        rw [hrest] at h
        exact nomatch h

theorem mapM_decodedString_eq_some {elements : List Json}
    (h : elements.mapM decodedString = some tokens) :
    (elements.any fun v => (decodedString v).isNone) = false ∧ tokens.length = elements.length := by
  induction elements generalizing tokens with
  | nil => cases h; exact ⟨rfl, rfl⟩
  | cons v rest ih =>
    rw [List.mapM_cons] at h
    cases hv : decodedString v with
    | none => rw [hv] at h; exact nomatch h
    | some s =>
      cases hrest : rest.mapM decodedString with
      | none => rw [hv, hrest] at h; exact nomatch h
      | some tokens' =>
        rw [hv, hrest] at h
        cases h
        obtain ⟨hany, hlength⟩ := ih hrest
        rw [List.any_cons, hv, hany]
        exact ⟨rfl, congrArg (· + 1) hlength⟩

theorem validateTokens_eq (hs : statusOf status = some s) (ht : tokensOf reasons = some tokens) :
    validateTokens tokens s = firstRefusal (fails status reasons)
      [notUnique, notOrdered, unknown, notAlone, statusMismatch, severityUnderstated] tokens := by
  unfold validateTokens
  refine firstRefusal_cons ?_ (firstRefusal_cons ?_ (firstRefusal_cons ?_ (firstRefusal_cons ?_
    (firstRefusal_cons ?_ (firstRefusal_cons ?_ rfl)))))
  · simp [fails, ht]
  · simp [fails, ht, isChain_le_iff]
  · simp [fails, ht]
  · simp only [fails, ht, hs, Option.any_some, ne_eq, Option.some.injEq]
    rw [decide_eq_decide]
    exact and_congr_right fun hmem => or_congr_left (alone_iff hmem).symm
  · simp [fails, ht, hs]
  · simp only [fails, ht, hs, Option.any_some, Option.bind_some, Bool.decide_eq_true]

/-- **The checks refuse by the first step of the contract that fails.** -/
theorem judgeReasons_eq (status reasons : Option Json) :
    judgeReasons status reasons =
      firstRefusal (fails status reasons) order ((statusOf status).getD [], tokensOf reasons) := by
  cases hseverity : (statusOf status).bind statusSeverity with
  | none =>
    rw [order, firstRefusal_of_fails (by simp [fails, hseverity])]
    have hstatus : validateRuntimeStatus status = .error .statusInvalid := by
      unfold validateRuntimeStatus
      cases status with
      | none => rfl
      | some v =>
        cases hv : decodedString v with
        | none => simp [hv]
        | some s => simp_all [statusOf]
    rw [judgeReasons, hstatus]
  | some severity =>
    obtain ⟨s, hs, hsev⟩ := Option.bind_eq_some_iff.mp hseverity
    obtain ⟨v, rfl, hv⟩ := Option.bind_eq_some_iff.mp hs
    have hstatus : validateRuntimeStatus (some v) = .ok s := by
      simp [validateRuntimeStatus, hv, hsev]
    rw [judgeReasons, hstatus, order, firstRefusal_of_passes (by simp [fails, hseverity]), hs,
      Option.getD_some]
    dsimp only
    cases reasons with
    | none => rfl
    | some raw =>
      cases raw with
      | arr elements =>
        rw [firstRefusal_of_passes (by simp [fails, elementsOf])]
        rw [validateDegradationReasons]
        by_cases hlength : elements.length < 1 ∨ maxDegradationReasons < elements.length
        · rw [if_pos hlength, firstRefusal_of_fails (by
            simpa [fails, elementsOf, maxDegradationReasons] using hlength)]
          rfl
        rw [if_neg hlength, firstRefusal_of_passes (by
          simpa [fails, elementsOf, maxDegradationReasons, not_or] using hlength)]
        cases htokens : elements.mapM decodedString with
        | none =>
          have hfails : fails (some v) (some (.arr elements)) notString = true :=
            mapM_decodedString_eq_none htokens
          rw [firstRefusal_of_fails hfails]
          rfl
        | some tokens =>
          have ht : tokensOf (some (.arr elements)) = some tokens := htokens
          have hpasses : fails (some v) (some (.arr elements)) notString = false :=
            (mapM_decodedString_eq_some htokens).1
          rw [firstRefusal_of_passes hpasses, ht]
          dsimp only
          rw [validateTokens_eq hs ht]
          exact (congrArg _ (map_firstRefusal some)).trans (map_firstRefusal _)
      | _ => exact (firstRefusal_of_fails rfl).symm

/-! ## What passes -/

/-- **Reasons that a status may be given with.** -/
structure Reported (status : Bytes) (tokens : List Bytes) : Prop where
  length : 1 ≤ tokens.length ∧ tokens.length ≤ 32
  ascending : tokens.Pairwise (· < ·)
  /-- The status is degraded at least, and at least as severe as every token, all of them known. -/
  severity : ∃ severity, statusSeverity status = some severity ∧ .degraded ≤ severity ∧
    ∀ token ∈ tokens, ∃ least, degradationReasonSeverity.lookup token = some least ∧
    least ≤ severity
  alone : healthSnapshotInvalid ∈ tokens → tokens = [healthSnapshotInvalid] ∧
    status = nodeStatusCritical

/-- **A status and its reasons, as the contract has them**: reasons that are absent need nothing. -/
def Passes (status reasons : Option Json) : Prop :=
  ∃ s, statusOf status = some s ∧
  (s = nodeStatusHealthy ∨ s = nodeStatusDegraded ∨ s = nodeStatusCritical) ∧
    (reasons = none ∨ ∃ tokens, tokensOf reasons = some tokens ∧ Reported s tokens)

theorem statusSeverity_isSome_iff (status : Bytes) :
    (∃ severity, statusSeverity status = some severity) ↔
    status = nodeStatusHealthy ∨ status = nodeStatusDegraded ∨ status = nodeStatusCritical := by
  unfold statusSeverity
  split_ifs with hh hd hc
  · simp [hh]
  · simp [hd]
  · simp [hc]
  · simp [hh, hd, hc]

theorem degraded_le_iff {status : Bytes} {severity : Severity}
    (h : statusSeverity status = some severity) :
    .degraded ≤ severity ↔ status = nodeStatusDegraded ∨ status = nodeStatusCritical := by
  revert h
  unfold statusSeverity
  split_ifs with hh hd hc
  · rintro ⟨⟩
    rw [hh]
    decide
  · rintro ⟨⟩
    exact ⟨fun _ => .inl hd, fun _ => le_rfl⟩
  · rintro ⟨⟩
    exact ⟨fun _ => .inr hc, fun _ => by decide⟩
  · exact nofun

theorem mem_order (v : DegradationVerdict) : v ∈ order := by
  cases v <;> decide

theorem tokensOf_of_passes {raw : Json} (h : ∀ v, fails status (some raw) v = false) :
    ∃ tokens, tokensOf (some raw) = some tokens ∧ 1 ≤ tokens.length ∧ tokens.length ≤ 32 := by
  have harray := h notArray
  cases raw with
  | arr elements =>
    cases htokens : elements.mapM decodedString with
    | none =>
      exact absurd (h notString) (by simp [fails, elementsOf, mapM_decodedString_eq_none htokens])
    | some tokens =>
      have hlength := h lengthInvalid
      simp only [fails, elementsOf, Option.any_some, decide_eq_false_iff_not] at hlength
      have heq := (mapM_decodedString_eq_some htokens).2
      exact ⟨tokens, htokens, by omega, by omega⟩
  | _ => exact nomatch harray

theorem reported_of_passes {severity : Severity} (h : ∀ v, fails status reasons v = false)
    (hs : statusOf status = some s) (hseverity : statusSeverity s = some severity)
    (ht : tokensOf reasons = some tokens) (hlength : 1 ≤ tokens.length ∧ tokens.length ≤ 32) :
    Reported s tokens := by
  have hunique := h notUnique
  have hordered := h notOrdered
  have hknown := h unknown
  have halone := h notAlone
  have hmismatch := h statusMismatch
  have hunderstated := h severityUnderstated
  simp only [fails, ht, hs, Option.any_some, Bool.not_eq_false', decide_eq_true_eq,
    List.any_eq_false, decide_eq_false_iff_not, Option.bind_some, hseverity, Option.getD_some,
    not_lt, ne_eq, Option.some.injEq]
    at hunique hordered hknown halone hmismatch hunderstated
  refine ⟨hlength, ?_, ⟨severity, hseverity, ?_, ?_⟩, ?_⟩
  · exact (hordered.and hunique).imp fun hle => Std.lt_of_le_of_ne hle.1 hle.2
  · rw [degraded_le_iff hseverity]
    tauto
  · intro token hmem
    cases hlookup : degradationReasonSeverity.lookup token with
    | none => exact absurd hlookup (by simpa using hknown token hmem)
    | some least => exact ⟨least, rfl, by simpa [hlookup] using hunderstated token hmem⟩
  · intro hmem
    tauto

theorem passes_of_reported (hs : statusOf status = some s) (ht : tokensOf reasons = some tokens)
    (h : Reported s tokens) (v : DegradationVerdict) : fails status reasons v = false := by
  obtain ⟨elements, helements, htokens⟩ := Option.bind_eq_some_iff.mp ht
  obtain ⟨severity, hseverity, hdegraded, hleast⟩ := h.severity
  obtain ⟨hstrings, hlength⟩ := mapM_decodedString_eq_some htokens
  cases v with
  | statusInvalid => simp [fails, hs, hseverity]
  | notArray => simp [fails, helements]
  | lengthInvalid =>
    have := h.length
    simp only [fails, helements, Option.any_some, decide_eq_false_iff_not]
    omega
  | notString => simpa only [fails, helements, Option.any_some] using hstrings
  | notUnique =>
    have hnodup : tokens.Nodup := h.ascending.imp fun hlt => Std.ne_of_lt hlt
    simp [fails, ht, hnodup]
  | notOrdered => simpa [fails, ht] using h.ascending.imp fun hlt => Std.le_of_lt hlt
  | unknown =>
    simp only [fails, ht, Option.any_some, List.any_eq_false]
    intro token hmem
    obtain ⟨least, hlookup, _⟩ := hleast token hmem
    simp [hlookup]
  | notAlone =>
    have := h.alone
    simp only [fails, ht, hs, Option.any_some, decide_eq_false_iff_not, ne_eq, Option.some.injEq]
    tauto
  | statusMismatch =>
    have := (degraded_le_iff hseverity).mp hdegraded
    simp only [fails, ht, hs, Option.any_some, decide_eq_false_iff_not, ne_eq, Option.some.injEq]
    tauto
  | severityUnderstated =>
    simp only [fails, ht, hs, Option.any_some, Option.bind_some, hseverity, Option.getD_some,
      List.any_eq_false, decide_eq_true_eq, not_lt]
    intro token hmem
    obtain ⟨least, hlookup, hle⟩ := hleast token hmem
    simpa [hlookup] using hle

/-- **No step fails exactly when the two members are as the contract has them.** -/
theorem passes_iff (status reasons : Option Json) :
    (∀ v ∈ order, fails status reasons v = false) ↔ Passes status reasons := by
  constructor
  · intro h
    have h : ∀ v, fails status reasons v = false := fun v => h v (mem_order v)
    obtain ⟨severity, hseverity⟩ :=
      Option.isSome_iff_exists.mp (by simpa [fails] using h statusInvalid)
    obtain ⟨s, hs, hsev⟩ := Option.bind_eq_some_iff.mp hseverity
    refine ⟨s, hs, (statusSeverity_isSome_iff s).mp ⟨severity, hsev⟩, ?_⟩
    cases reasons with
    | none => exact .inl rfl
    | some raw =>
      obtain ⟨tokens, ht, hlength⟩ := tokensOf_of_passes h
      exact .inr ⟨tokens, ht, reported_of_passes h hs hsev ht hlength⟩
  · rintro ⟨s, hs, hstatus, rfl | ⟨tokens, ht, hreported⟩⟩ v _
    · obtain ⟨severity, hseverity⟩ := (statusSeverity_isSome_iff s).mpr hstatus
      cases v with
      | statusInvalid => simp [fails, hs, hseverity]
      | _ => rfl
    · exact passes_of_reported hs ht hreported v

theorem judgeReasons_eq_ok_iff {r : Bytes × Option (List Bytes)} :
    judgeReasons status reasons = .ok r ↔
      Passes status reasons ∧ ((statusOf status).getD [], tokensOf reasons) = r := by
  rw [judgeReasons_eq, firstRefusal_eq_ok_iff, passes_iff]

end OriGateway
