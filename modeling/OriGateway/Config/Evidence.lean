import OriGateway.Delivery.Lane
import OriGateway.Foundation.Paths

/-! # The evidence configuration

The evidence section of the configuration file: its defaults and what the loader refuses
(`normalizeEvidence`, `validateEvidence`), and what the delivery worker is built from
(`deliveryWorkerOptions`). Durations are configured in whole seconds and multiplied out in 64 bits,
and a delay is doubled in 64 bits, so `backoffDelay_configured` says for which configurations the
worker's delays are those of the configured seconds. -/

namespace OriGateway

open Foundation
open Foundation.Path (clean)

/-! ## The file -/

/-- The evidence section of the file; a key that is not set is `none`. -/
structure FileEvidenceConfig where
  enabled : Bool
  queueDirectory : Bytes
  returnQueueDirectory : Bytes
  maxItems : Option Int
  maxBytes : Option Int
  retryIntervalS : Option Int
  backoffBaseS : Option Int
  backoffMaxS : Option Int
  storeProbeIntervalS : Option Int
  endpointEnv : Bytes
  clientIDEnv : Bytes
  secretEnv : Bytes
  /-- The authority's certificates, when they are not the system's. -/
  authorityCAFile : Bytes
  /-- The carriage each device declares, in the order the map is ranged over. -/
  deviceCarriage : List (Bytes × Bytes)

/-- The evidence configuration, after defaults. -/
structure EvidenceConfig where
  enabled : Bool
  queueDirectory : Bytes
  returnQueueDirectory : Bytes
  maxItems : Int
  maxBytes : Int
  retryIntervalS : Int
  backoffBaseS : Int
  backoffMaxS : Int
  storeProbeIntervalS : Int
  endpointEnv : Bytes
  clientIDEnv : Bytes
  secretEnv : Bytes
  /-- The authority's certificates, when they are not the system's. -/
  authorityCAFile : Bytes
  deviceCarriage : List (Bytes × Bytes)
  deriving DecidableEq

def defaultEvidenceMaxItems : Int := 10000
def defaultEvidenceMaxBytes : Int := 256 * 2 ^ 20
def defaultEvidenceRetryS : Int := 5
def defaultEvidenceBackoffMaxS : Int := 300
def defaultEvidenceStoreProbeIntervalS : Int := 900
def minEvidenceStoreProbeIntervalS : Int := 300
def maxEvidenceStoreProbeIntervalS : Int := 900

def carriageGatewayAPIV1 : Bytes := ascii "gateway-api/v1"

def carriageEvidenceCarriageV1 : Bytes := ascii "gateway-evidence-carriage/v1"

/-- The configuration of a file, with the defaults of what it does not set. -/
def normalizeEvidence (raw : FileEvidenceConfig) : EvidenceConfig :=
  let retry := raw.retryIntervalS.getD defaultEvidenceRetryS
  let base := raw.backoffBaseS.getD retry
  { enabled := raw.enabled
    queueDirectory := trimSpace raw.queueDirectory
    returnQueueDirectory := trimSpace raw.returnQueueDirectory
    maxItems := raw.maxItems.getD defaultEvidenceMaxItems
    maxBytes := raw.maxBytes.getD defaultEvidenceMaxBytes
    retryIntervalS := retry
    backoffBaseS := base
    backoffMaxS := raw.backoffMaxS.getD (max defaultEvidenceBackoffMaxS base)
    storeProbeIntervalS := raw.storeProbeIntervalS.getD defaultEvidenceStoreProbeIntervalS
    endpointEnv := trimSpace raw.endpointEnv
    clientIDEnv := trimSpace raw.clientIDEnv
    secretEnv := trimSpace raw.secretEnv
    authorityCAFile := raw.authorityCAFile
    deviceCarriage := raw.deviceCarriage }

/-! ## What is refused -/

/-- Why an evidence configuration is refused. -/
inductive EvidenceConfigError where
  /-- "evidence queue directories must be absolute". -/
  | relativeDirectory
  /-- "evidence outbound and return queues must use distinct directories". -/
  | sameDirectory
  /-- "evidence.authority_ca_file must be an absolute, clean path". -/
  | authorityCAFile
  /-- "evidence queue bounds and retry interval must be positive". -/
  | notPositive
  /-- The field "must be an environment variable name". -/
  | envVarName (field : Bytes)
  /-- "evidence.device_carriage names device_id, which gateway.device_ids does not configure". -/
  | unconfiguredDevice (deviceID : Bytes)
  /-- "evidence.device_carriage must be" one of the two. -/
  | unknownCarriage (deviceID carriage : Bytes)
  /-- "gateway.device_ids: device_id declares gateway-evidence-carriage/v1, so it must be" in the
  routing domain. -/
  | deviceID (deviceID : Bytes)
  /-- "evidence back-off must satisfy backoff_max_s >= backoff_base_s >= retry_interval_s". -/
  | backoffOrder (bound base retry : Int)
  /-- "evidence.max_items and evidence.max_bytes are shared equally across devices". -/
  | shareTooSmall (devices : Nat)
  /-- "evidence.store_probe_interval_s must be 300 through 900 seconds". -/
  | storeProbeInterval (got : Int)
  deriving DecidableEq

/-- A path from the root. -/
def isAbs (path : Bytes) : Bool := path.head? == some 47

/-- The name of an environment variable: not empty, without white space or an equals sign. -/
def validateEnvVarName (field value : Bytes) : Except EvidenceConfigError Unit :=
  if value = [] then .error (.envVarName field)
  else if value.any fun b => b == 32 || b == 9 || b == 13 || b == 10 || b == 61 then
    .error (.envVarName field)
  else .ok ()

/-- The carriage of every configured device, once the declared ones are known to be right. -/
def resolveDeviceCarriage (declared : List (Bytes × Bytes)) (deviceIDs : List Bytes) :
    Except EvidenceConfigError (List (Bytes × Bytes)) :=
  match declared.find? fun d => !deviceIDs.contains d.1 ||
      (d.2 != carriageGatewayAPIV1 && d.2 != carriageEvidenceCarriageV1) with
  | some (deviceID, carriage) =>
    if deviceID ∈ deviceIDs then .error (.unknownCarriage deviceID carriage)
    else .error (.unconfiguredDevice deviceID)
  | none => .ok (deviceIDs.map fun d => (d, (declared.lookup d).getD carriageGatewayAPIV1))

namespace EvidenceConfig

/-- Some device declares the versioned carriage. -/
def declaresVersionedCarriage (cfg : EvidenceConfig) : Bool :=
  cfg.deviceCarriage.any fun d => d.2 == carriageEvidenceCarriageV1

/-- The rules of the versioned carriage: its devices are in the routing domain, the back-off is in
order, every device's share is large enough, and the store is probed neither too often nor too
seldom. -/
def validateVersioned (cfg : EvidenceConfig) (deviceIDs : List Bytes) :
    Except EvidenceConfigError Unit :=
  match cfg.deviceCarriage.find? fun d =>
      d.2 == carriageEvidenceCarriageV1 && !validRoutingDeviceID d.1 with
  | some (deviceID, _) => .error (.deviceID deviceID)
  | none =>
    if cfg.backoffMaxS < cfg.backoffBaseS ∨ cfg.backoffBaseS < cfg.retryIntervalS then
      .error (.backoffOrder cfg.backoffMaxS cfg.backoffBaseS cfg.retryIntervalS)
    else if 0 < deviceIDs.length ∧ (cfg.maxItems.tdiv deviceIDs.length < minDeviceShareItems ∨
        cfg.maxBytes.tdiv deviceIDs.length < minDeviceShareBytes) then
      .error (.shareTooSmall deviceIDs.length)
    else if cfg.storeProbeIntervalS < minEvidenceStoreProbeIntervalS ∨
        maxEvidenceStoreProbeIntervalS < cfg.storeProbeIntervalS then
      .error (.storeProbeInterval cfg.storeProbeIntervalS)
    else .ok ()

end EvidenceConfig

/-- **Check an evidence configuration**: of one that is disabled nothing, and the rules of the
versioned carriage only where a device declares it. -/
def validateEvidence (cfg : EvidenceConfig) (deviceIDs : List Bytes) :
    Except EvidenceConfigError EvidenceConfig :=
  if !cfg.enabled then .ok { cfg with deviceCarriage := [] }
  else if !isAbs cfg.queueDirectory || !isAbs cfg.returnQueueDirectory then
    .error .relativeDirectory
  else if clean cfg.queueDirectory = clean cfg.returnQueueDirectory then .error .sameDirectory
  else if cfg.authorityCAFile ≠ [] ∧ (isAbs cfg.authorityCAFile = false ∨
      clean cfg.authorityCAFile ≠ cfg.authorityCAFile ∨
      trimSpace cfg.authorityCAFile ≠ cfg.authorityCAFile) then .error .authorityCAFile
  else if cfg.maxItems ≤ 0 ∨ cfg.maxBytes ≤ 0 ∨ cfg.retryIntervalS ≤ 0 then .error .notPositive
  else
    -- the source ranges over a map here: which of several wrong names is reported is not determined
    match validateEnvVarName (ascii "evidence.endpoint_env") cfg.endpointEnv,
        validateEnvVarName (ascii "evidence.client_id_env") cfg.clientIDEnv,
        validateEnvVarName (ascii "evidence.secret_env") cfg.secretEnv with
    | .error e, _, _ => .error e
    | _, .error e, _ => .error e
    | _, _, .error e => .error e
    | .ok (), .ok (), .ok () =>
      match resolveDeviceCarriage cfg.deviceCarriage deviceIDs with
      | .error e => .error e
      | .ok carriage =>
        let cfg := { cfg with deviceCarriage := carriage }
        if !cfg.declaresVersionedCarriage then .ok cfg
        else (cfg.validateVersioned deviceIDs).map fun _ => cfg

/-- Load the evidence section of a file. -/
def loadEvidence (raw : FileEvidenceConfig) (deviceIDs : List Bytes) :
    Except EvidenceConfigError EvidenceConfig :=
  validateEvidence (normalizeEvidence raw) deviceIDs

/-! ## What the worker gets -/

/-- A number of seconds as a duration. -/
def seconds (s : Int) : Int := int64 (s * 10 ^ 9)

namespace EvidenceConfig

/-- The base and the bound of the back-off, as durations. -/
def backoff (cfg : EvidenceConfig) : Int × Int :=
  if !cfg.declaresVersionedCarriage then
    let base := seconds cfg.retryIntervalS
    (base, max (defaultEvidenceBackoffMaxS * 10 ^ 9) base)
  else (seconds cfg.backoffBaseS, seconds cfg.backoffMaxS)

/-- What the delivery worker is built with, when the courier runs. -/
def deliveryWorkerOptions (cfg : EvidenceConfig) : Option DeliveryWorkerOptions :=
  if cfg.enabled then
    some { retryInterval := seconds cfg.retryIntervalS, backoffBase := cfg.backoff.1,
           maxBackoff := cfg.backoff.2,
           sink := true }
  else none

/-- The base and the bound of the back-off as configured, in seconds. -/
def backoffSeconds (cfg : EvidenceConfig) : Int × Int :=
  if cfg.declaresVersionedCarriage then (cfg.backoffBaseS, cfg.backoffMaxS)
  else (cfg.retryIntervalS, max defaultEvidenceBackoffMaxS cfg.retryIntervalS)

end EvidenceConfig

/-- **What an accepted configuration met**, with the carriages it ends up with. -/
theorem validateEvidence_inv {cfg cfg' : EvidenceConfig} {deviceIDs : List Bytes}
    (h : validateEvidence cfg deviceIDs = .ok cfg') (henabled : cfg'.enabled = true) :
    (isAbs cfg.queueDirectory = true ∧ isAbs cfg.returnQueueDirectory = true) ∧
    0 < cfg.retryIntervalS ∧
      (∃ carriage, cfg' = { cfg with deviceCarriage := carriage }) ∧
      (cfg'.declaresVersionedCarriage = true → cfg'.validateVersioned deviceIDs = .ok ()) := by
  unfold validateEvidence at h
  split_ifs at h with hdisabled hrelative hsame hfile hpositive
  · cases h
    exact absurd hdisabled (by simpa using henabled)
  · refine ⟨by simpa using hrelative, by omega, ?_⟩
    split at h
    all_goals try cases h
    split at h
    · cases h
    · next carriage _ =>
      dsimp only at h
      split_ifs at h with hlegacy
      · cases h
        refine ⟨⟨carriage, rfl⟩, fun hversioned => ?_⟩
        rw [hversioned] at hlegacy
        exact nomatch hlegacy
      · cases hversioned :
          EvidenceConfig.validateVersioned { cfg with deviceCarriage := carriage } deviceIDs with
        | error e =>
          rw [hversioned] at h
          cases h
        | ok _ =>
          rw [hversioned] at h
          cases h
          exact ⟨⟨carriage, rfl⟩, fun _ => hversioned⟩

/-- **What an accepted configuration has**: a positive interval, and the base between it and the
bound. -/
theorem backoffSeconds_of_validateEvidence {cfg cfg' : EvidenceConfig} {deviceIDs : List Bytes}
    (h : validateEvidence cfg deviceIDs = .ok cfg') (henabled : cfg'.enabled = true) :
    0 < cfg'.retryIntervalS ∧ cfg'.retryIntervalS ≤ cfg'.backoffSeconds.1 ∧
      cfg'.backoffSeconds.1 ≤ cfg'.backoffSeconds.2 := by
  obtain ⟨_, hretry, ⟨carriage, rfl⟩, hversioned⟩ := validateEvidence_inv h henabled
  unfold EvidenceConfig.backoffSeconds
  split_ifs with hdeclares
  · have hversioned := hversioned hdeclares
    unfold EvidenceConfig.validateVersioned at hversioned
    split at hversioned
    · cases hversioned
    · split_ifs at hversioned with horder
      dsimp only at horder ⊢
      omega
  · exact ⟨hretry, le_refl _, le_max_right _ _⟩

theorem seconds_eq {s : Int} (hpos : 0 < s) (h : s * 10 ^ 9 < 2 ^ 63) : seconds s = s * 10 ^ 9 :=
  int64_eq ⟨by omega, h⟩

/-- The base and the bound the worker gets are those configured, when the bound fits. -/
theorem EvidenceConfig.backoff_eq {cfg : EvidenceConfig} (hretry : 0 < cfg.retryIntervalS)
    (hbase : cfg.retryIntervalS ≤ cfg.backoffSeconds.1)
    (hbound : cfg.backoffSeconds.1 ≤ cfg.backoffSeconds.2)
    (hfits : cfg.backoffSeconds.2 * 10 ^ 9 < 2 ^ 63) :
    cfg.backoff = (cfg.backoffSeconds.1 * 10 ^ 9, cfg.backoffSeconds.2 * 10 ^ 9) := by
  unfold backoffSeconds at hbase hbound hfits ⊢
  unfold backoff
  by_cases hversioned : cfg.declaresVersionedCarriage = true
  · simp only [hversioned, if_true, Bool.not_true, Bool.false_eq_true,
      if_false] at hbase hbound hfits ⊢
    rw [seconds_eq (by omega) (by omega), seconds_eq (by omega) hfits]
  · simp only [Bool.not_eq_true] at hversioned
    simp only [hversioned, Bool.not_false, if_true, Bool.false_eq_true, if_false] at hfits ⊢
    rw [seconds_eq hretry (by omega), max_mul_of_nonneg _ _ (by norm_num)]

/-- The delay after `n` consecutive back-offs, computed from the configured seconds without
overflow: the base doubling to the bound, and never below the interval or the floor of the
response. -/
def EvidenceConfig.configuredDelay (cfg : EvidenceConfig) (n floor : Int) : Int :=
  max (min (cfg.backoffSeconds.1 * 10 ^ 9 * 2 ^ (n - 1).toNat) (cfg.backoffSeconds.2 * 10 ^ 9))
    (max (cfg.retryIntervalS * 10 ^ 9) floor)

/-- **The configuration fits**: the bound is a 64-bit number of nanoseconds, and every delay below
it can be doubled. -/
def EvidenceConfig.Fits (cfg : EvidenceConfig) : Prop :=
  cfg.backoffSeconds.2 * 10 ^ 9 < 2 ^ 63 ∧
    WorkerConfig.Doubles (cfg.backoffSeconds.1 * 10 ^ 9) (cfg.backoffSeconds.2 * 10 ^ 9)

section Configured

variable {raw : FileEvidenceConfig} {deviceIDs : List Bytes} {cfg : EvidenceConfig}
  {opts : DeliveryWorkerOptions}

/-- Nothing is raised: the interval, the base and the bound are in order. -/
theorem config_of_loadEvidence (hload : loadEvidence raw deviceIDs = .ok cfg)
    (hopts : cfg.deliveryWorkerOptions = some opts)
    (hfits : cfg.backoffSeconds.2 * 10 ^ 9 < 2 ^ 63) :
    opts.config.retry = cfg.retryIntervalS * 10 ^ 9 ∧
      opts.config.backoffBase = cfg.backoffSeconds.1 * 10 ^ 9 ∧
      opts.config.maxBackoff = cfg.backoffSeconds.2 * 10 ^ 9 := by
  unfold EvidenceConfig.deliveryWorkerOptions at hopts
  split_ifs at hopts with henabled
  obtain ⟨hretry, hbase, hbound⟩ := backoffSeconds_of_validateEvidence hload henabled
  cases hopts
  rw [EvidenceConfig.backoff_eq hretry hbase hbound hfits, seconds_eq hretry (by omega)]
  simp only [DeliveryWorkerOptions.config]
  rw [if_neg (by omega), if_neg (by omega), max_eq_left (by omega)]
  exact ⟨rfl, rfl, max_eq_left (by omega)⟩

/-- The delays of a configuration that fits are those configured. -/
theorem backoffDelay_of_fits (hload : loadEvidence raw deviceIDs = .ok cfg)
    (hopts : cfg.deliveryWorkerOptions = some opts) (hfits : cfg.Fits) (n floor : Int) :
    opts.config.backoffDelay n floor = cfg.configuredDelay n floor := by
  obtain ⟨hretry, hbase, hbound⟩ := config_of_loadEvidence hload hopts hfits.1
  have hdelay := opts.config.backoffDelay_eq (by rw [hbase, hbound]; exact hfits.2) n floor
  rwa [hretry, hbase, hbound] at hdelay

theorem EvidenceConfig.configuredDelay_mono (hbase : 0 < cfg.backoffSeconds.1) (floor : Int)
    {n m : Int} (hnm : n ≤ m) : cfg.configuredDelay n floor ≤ cfg.configuredDelay m floor := by
  have hpow : (2 : Int) ^ (n - 1).toNat ≤ 2 ^ (m - 1).toNat :=
    pow_le_pow_right₀ (by norm_num) (by omega)
  have hgrows := mul_le_mul_of_nonneg_left hpow (show 0 ≤ cfg.backoffSeconds.1 * 10 ^ 9 by omega)
  exact max_le_max_right _ (min_le_min_right _ hgrows)

theorem seconds_le_maxInt64 (s : Int) : seconds s ≤ maxInt64 :=
  Int.le_sub_one_of_lt (inInt64_int64 _).2

/-- The bound a worker is built with is a 64-bit integer. -/
theorem maxBackoff_le_maxInt64 (hopts : cfg.deliveryWorkerOptions = some opts) :
    opts.config.maxBackoff ≤ maxInt64 := by
  have hdefaults : defaultDeliveryRetry ≤ maxInt64 ∧ defaultMaxBackoff ≤ maxInt64 ∧
      defaultEvidenceBackoffMaxS * 10 ^ 9 ≤ maxInt64 := by
    decide
  unfold EvidenceConfig.deliveryWorkerOptions at hopts
  split_ifs at hopts
  cases hopts
  have hbackoff : cfg.backoff.1 ≤ maxInt64 ∧ cfg.backoff.2 ≤ maxInt64 := by
    unfold EvidenceConfig.backoff
    split_ifs
    · exact ⟨seconds_le_maxInt64 _, max_le hdefaults.2.2 (seconds_le_maxInt64 _)⟩
    · exact ⟨seconds_le_maxInt64 _, seconds_le_maxInt64 _⟩
  have hretry := seconds_le_maxInt64 cfg.retryIntervalS
  simp only [DeliveryWorkerOptions.config]
  split_ifs <;> simp_all

/-- A delay that wraps when it is doubled is not what is configured. -/
theorem doubles_of_delays (hload : loadEvidence raw deviceIDs = .ok cfg)
    (hopts : cfg.deliveryWorkerOptions = some opts) (hfits : cfg.backoffSeconds.2 * 10 ^ 9 < 2 ^ 63)
    (hdelays : ∀ n, 1 ≤ n → n ≤ maxBackoffAttempts →
      opts.config.backoffDelay n 0 = cfg.configuredDelay n 0) :
    WorkerConfig.Doubles (cfg.backoffSeconds.1 * 10 ^ 9) (cfg.backoffSeconds.2 * 10 ^ 9) := by
  intro k hk
  by_contra hwraps
  obtain ⟨hretry, hbase, hbound⟩ := config_of_loadEvidence hload hopts hfits
  have hpos := opts.config.retry_pos
  have horder := opts.config.retry_le
  rw [hretry] at hpos
  rw [hretry, hbase] at horder
  have hnext : cfg.backoffSeconds.1 * 10 ^ 9 * 2 ^ (k + 1)
      = cfg.backoffSeconds.1 * 10 ^ 9 * 2 ^ k * 2 := by
    rw [pow_succ 2 k, ← mul_assoc]
  rw [hnext] at hwraps
  have hgrows : cfg.backoffSeconds.1 * 10 ^ 9 ≤ cfg.backoffSeconds.1 * 10 ^ 9 * 2 ^ k :=
    le_mul_of_one_le_right (by omega) (one_le_pow₀ (by norm_num))
  -- the base is at least one second, so there is no room for many doublings
  have hsmall : k < 63 := by
    by_contra hle
    have hpow : (2 : Int) ^ 63 ≤ 2 ^ k := pow_le_pow_right₀ (by norm_num) (not_lt.mp hle)
    have hone : (2 : Int) ^ k ≤ cfg.backoffSeconds.1 * 10 ^ 9 * 2 ^ k :=
      le_mul_of_one_le_left (by positivity) (by omega)
    omega
  -- so the delay after the last doubling is negative, and the worker waits for the interval only
  have hdoubled :
    WorkerConfig.doubled (cfg.backoffSeconds.2 * 10 ^ 9) (k + 1) (cfg.backoffSeconds.1 * 10 ^ 9)
      = cfg.backoffSeconds.1 * 10 ^ 9 * 2 ^ k * 2 - 2 ^ 64 := by
    rw [WorkerConfig.doubled_succ hfits.le k (by omega) hk, hnext, int64]
    omega
  have hdelay := hdelays (k + 2) (by omega) (by unfold maxBackoffAttempts; omega)
  have hcount : ((k : Int) + 2 - 1).toNat = k + 1 := by omega
  rw [WorkerConfig.backoffDelay, EvidenceConfig.configuredDelay, hcount, hretry, hbase, hbound,
    hdoubled, hnext] at hdelay
  omega

/-- A bound that does not fit is never reached: no delay of the worker is as long. -/
theorem fits_of_last_delay (hpos : 0 < cfg.backoffSeconds.1)
    (hopts : cfg.deliveryWorkerOptions = some opts)
    (hlast : opts.config.backoffDelay maxBackoffAttempts 0
      = cfg.configuredDelay maxBackoffAttempts 0) : cfg.backoffSeconds.2 * 10 ^ 9 < 2 ^ 63 := by
  by_contra hlarge
  have hbelow : opts.config.backoffDelay maxBackoffAttempts 0 < 2 ^ 63 :=
    Int.lt_of_le_sub_one ((opts.config.backoffDelay_le _ 0).trans
      (opts.config.waitBound_le (maxBackoff_le_maxInt64 hopts) (by decide)))
  have hpow : (2 : Int) ^ 63 ≤ 2 ^ (maxBackoffAttempts - 1).toNat :=
    pow_le_pow_right₀ (by norm_num) (by decide)
  have habove : (2 : Int) ^ 63
    ≤ cfg.backoffSeconds.1 * 10 ^ 9 * 2 ^ (maxBackoffAttempts - 1).toNat :=
    hpow.trans (le_mul_of_one_le_left (by positivity) (by omega))
  rw [hlast, EvidenceConfig.configuredDelay] at hbelow
  exact absurd hbelow (not_lt.mpr ((le_min habove (not_lt.mp hlarge)).trans (le_max_left _ _)))

/-- **When the worker's delays are those of the configured seconds.** For every configuration the
loader accepts, with the courier enabled, the delay after each possible number of consecutive
back-offs is the one configured, and never falls as the number grows, exactly when the configuration
fits. -/
theorem backoffDelay_configured (hload : loadEvidence raw deviceIDs = .ok cfg)
    (hopts : cfg.deliveryWorkerOptions = some opts) :
    (∀ n floor, 1 ≤ n → n ≤ maxBackoffAttempts →
      opts.config.backoffDelay n floor = cfg.configuredDelay n floor ∧
        ∀ m, n ≤ m → m ≤ maxBackoffAttempts →
          opts.config.backoffDelay n floor ≤ opts.config.backoffDelay m floor) ↔ cfg.Fits := by
  have hpos : 0 < cfg.backoffSeconds.1 := by
    have henabled : cfg.enabled = true := by
      unfold EvidenceConfig.deliveryWorkerOptions at hopts
      split_ifs at hopts with henabled
      exact henabled
    obtain ⟨hretry, hbase, -⟩ := backoffSeconds_of_validateEvidence hload henabled
    omega
  constructor
  · intro hdelays
    have hfits := fits_of_last_delay hpos hopts (hdelays _ 0 (by decide) le_rfl).1
    exact ⟨hfits, doubles_of_delays hload hopts hfits fun n h1 hmax => (hdelays n 0 h1 hmax).1⟩
  · intro hfits n floor _ _
    have hdelay := backoffDelay_of_fits hload hopts hfits
    refine ⟨hdelay n floor, fun m hnm _ => ?_⟩
    rw [hdelay n floor, hdelay m floor]
    exact EvidenceConfig.configuredDelay_mono hpos floor hnm

end Configured

/-- A file with an interval and what is required. -/
def plainEvidenceFile (retryIntervalS : Int) : FileEvidenceConfig where
  enabled := true
  queueDirectory := ascii "/q"
  returnQueueDirectory := ascii "/r"
  maxItems := none
  maxBytes := none
  retryIntervalS := some retryIntervalS
  backoffBaseS := none
  backoffMaxS := none
  storeProbeIntervalS := none
  endpointEnv := ascii "ENDPOINT"
  clientIDEnv := ascii "CLIENT"
  secretEnv := ascii "SECRET"
  authorityCAFile := []
  deviceCarriage := []

/-- With an interval of twenty seconds the second delay is forty. -/
theorem backoffDelay_configured_plainEvidenceFile :
    ∃ (cfg : EvidenceConfig) (opts : DeliveryWorkerOptions),
      loadEvidence (plainEvidenceFile 20) [ascii "d"] = .ok cfg ∧
      cfg.deliveryWorkerOptions = some opts ∧
      opts.config.backoffDelay 2 0 = 40 * 10 ^ 9 := by
  obtain ⟨cfg, hload, henabled, hretry, hseconds⟩ : ∃ cfg : EvidenceConfig,
      loadEvidence (plainEvidenceFile 20) [ascii "d"] = .ok cfg ∧ cfg.enabled = true ∧
        cfg.retryIntervalS = 20 ∧ cfg.backoffSeconds = (20, 300) :=
    ⟨_, rfl, rfl, rfl, by decide⟩
  have hopts : ∃ opts, cfg.deliveryWorkerOptions = some opts := ⟨_, if_pos henabled⟩
  obtain ⟨opts, hopts⟩ := hopts
  -- a bound of at most `2 ^ 62` nanoseconds leaves room to double what is below it
  have hdoubles : WorkerConfig.Doubles (20 * 10 ^ 9) (300 * 10 ^ 9) := by
    intro k hk
    rw [pow_succ']
    omega
  have hdelay := ((backoffDelay_configured hload hopts).mpr
    (by rw [EvidenceConfig.Fits, hseconds]; exact ⟨by decide, hdoubles⟩)
    2 0 (by decide) (by decide)).1
  rw [EvidenceConfig.configuredDelay, hseconds, hretry] at hdelay
  exact ⟨cfg, opts, hload, hopts, hdelay.trans (by decide)⟩

/-- An interval the loader accepts that does not fit in 64 bits of nanoseconds: the worker backs off
for five seconds, the default interval, and not for ten thousand million. -/
theorem backoffDelay_overflows :
    ∃ (cfg : EvidenceConfig) (opts : DeliveryWorkerOptions),
      loadEvidence (plainEvidenceFile (10 ^ 10)) [ascii "d"] = .ok cfg ∧
      cfg.deliveryWorkerOptions = some opts ∧ opts.config.backoffDelay 1 0 = 5 * 10 ^ 9 ∧
      cfg.configuredDelay 1 0 = 10 ^ 19 := by
  obtain ⟨cfg, hload, henabled, hretry, hseconds, hcarriage⟩ : ∃ cfg : EvidenceConfig,
      loadEvidence (plainEvidenceFile (10 ^ 10)) [ascii "d"] = .ok cfg ∧ cfg.enabled = true ∧
        cfg.retryIntervalS = 10 ^ 10 ∧ cfg.backoffSeconds = (10 ^ 10, 10 ^ 10) ∧
        cfg.declaresVersionedCarriage = false :=
    ⟨_, rfl, rfl, rfl, by decide, by decide⟩
  refine ⟨cfg, _, hload, if_pos henabled, ?_, ?_⟩
  · rw [EvidenceConfig.backoff, hcarriage, hretry, Bool.not_false, if_pos rfl]
    decide
  · rw [EvidenceConfig.configuredDelay, hseconds, hretry]
    norm_num

end OriGateway
