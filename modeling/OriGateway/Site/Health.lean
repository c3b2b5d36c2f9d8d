import OriGateway.Site.Registry
import Mathlib.Data.Fintype.Basic
import Mathlib.Order.Bounds.Basic

/-! # The site health projection

What the gateway shows of the site (**`project`**): each expected node with its status, and the
site's own. A node is shown critical exactly when its last heartbeat or its last export was, and the
site is as severe as the gateway and every node. -/

namespace OriGateway

open Foundation

/-! ## Severities -/

/-- How severe a status is. -/
inductive Severity where
  | healthy
  | degraded
  | critical
  deriving DecidableEq

instance : Fintype Severity where
  elems := {.healthy, .degraded, .critical}
  complete := by rintro (_ | _ | _) <;> decide

def Severity.rank : Severity → Nat
  | .healthy => 0
  | .degraded => 1
  | .critical => 2

instance : LinearOrder Severity := LinearOrder.lift' Severity.rank (by decide)

/-- The severity of a node's status. -/
def statusSeverity (status : Bytes) : Option Severity :=
  if status = nodeStatusHealthy then some .healthy
  else if status = nodeStatusDegraded then some .degraded
  else if status = nodeStatusCritical then some .critical
  else none

def projectedSeverity (status : Bytes) : Severity := (statusSeverity status).getD .degraded

def siteStatusName : Severity → Bytes
  | .healthy => ascii "healthy"
  | .degraded => ascii "degraded"
  | .critical => ascii "critical"

/-- How severe a node is at least, by the severity its health export read. -/
def exportSeverityFloor (severity : Bytes) : Severity :=
  if severity = [] ∨ severity = exportSeverityOK then .healthy
  else if severity = exportSeverityCritical then .critical
  else .degraded

/-! ## The projection -/

/-- The evidence delivery of the gateway, as far as it decides a status. -/
structure GatewayEvidenceDeliveryView where
  degraded : Bool
  blocked : Bool
  deriving DecidableEq

/-- The refusals of one family of topics. -/
structure MQTTIngressCount where
  payloadTooLarge : Nat
  volumeDropped : Nat
  deriving DecidableEq

/-- What the gateway shows of itself. The members that are only shown again are left out. -/
structure GatewayView where
  status : Bytes
  evidenceDelivery : Option GatewayEvidenceDeliveryView
  mqttIngress : GoMap Bytes MQTTIngressCount
  deriving DecidableEq

/-- The topic families that are received. -/
def receivedFamilies : List Bytes :=
  [ascii "ori/\x7bdevice_id\x7d/runtime/heartbeat", ascii "ori/\x7bdevice_id\x7d/reasoning/request",
    ascii "ori/\x7bdevice_id\x7d/tier_c/enrichment/request",
    ascii "ori/\x7bdevice_id\x7d/export/response/\x7brequest_id\x7d",
    ascii "ori/\x7bdevice_id\x7d/evidence/outbound",
    ascii "ori/\x7bdevice_id\x7d/evidence/inbound/ack"]

/-- One node, as it is shown. -/
structure SiteNode where
  deviceID : Bytes
  status : Bytes
  lastSeenMS : Int
  gatewayObserved : Bool
  stale : Bool
  activeTriggerCount : Nat
  degradationReasons : Option (List Bytes)
  posture : Option SiteNodePosture
  evidence : Option NodeEvidence
  deriving DecidableEq

/-- The site, as it is shown. -/
structure SiteHealth where
  generatedAtMS : Int
  status : Bytes
  nodes : List SiteNode
  gateway : GatewayView
  deriving DecidableEq

/-- What a projection shows: the devices that are expected, and the limit past which a report is
stale. -/
structure ProjectOptions where
  expectedDeviceIDs : List Bytes
  nodeTTL : Int

def Registry.snapshot (r : Registry) : List NodeHeartbeat :=
  (sortedKeys (· ≤ ·) r.nodes.keys).filterMap fun deviceID => r.nodes.lookup deviceID

/-- The severity recorded for a device; only a reading is recorded, never an empty one. -/
def Registry.recordedSeverity (r : Registry) (deviceID : Bytes) : Bytes :=
  ((r.exportSeverity.lookup deviceID).filter fun severity => decide (severity ≠ [])).getD []

def observedNodes (snapshot : List NodeHeartbeat) : GoMap Bytes NodeHeartbeat :=
  snapshot.foldl (fun observed n => observed.insert n.deviceID n) ∅

def evidenceProblem (evidence : Option NodeEvidence) : Bool :=
  match evidence with
  | some e => e.truncationSuspected || e.headRegressed || !e.available
  | none => false

/-- The severity with which a node that is known is shown: its own status, raised. -/
def nodeSeverity (n : NodeHeartbeat) (stale : Bool) : Severity :=
  let status := projectedSeverity n.status
  let status := if stale then max status .degraded else status
  let status := max status (exportSeverityFloor n.exportSeverity)
  if evidenceProblem n.evidence then max status .degraded else status

/-- What the view shows of a device. -/
def projectNode (observed : GoMap Bytes NodeHeartbeat) (severity : Bytes → Bytes) (now ttl : Int)
    (deviceID : Bytes) : SiteNode :=
  match observed.lookup deviceID with
  | none =>
    { deviceID := deviceID
      status := siteStatusName (max .degraded (exportSeverityFloor (severity deviceID)))
      lastSeenMS := 0
      gatewayObserved := false
      stale := true
      activeTriggerCount := 0
      degradationReasons := none
      posture := none
      evidence := none }
  | some n =>
    let stale := reportStale n now ttl
    { deviceID := deviceID
      status := siteStatusName (nodeSeverity n stale)
      lastSeenMS := n.lastSeenMS
      gatewayObserved := true
      stale := stale
      activeTriggerCount := (n.activeTriggers.getD []).length
      degradationReasons := n.degradationReasons
      posture := n.posture
      evidence := n.evidence }

/-- The severity of the gateway itself: its status, raised by its evidence delivery. -/
def gatewaySeverity (gateway : GatewayView) : Severity :=
  let status := projectedSeverity gateway.status
  match gateway.evidenceDelivery with
  | some delivery => if delivery.degraded || delivery.blocked then max status .degraded else status
  | none => status

/-- The site at a moment, on the wall clock and on the clock of the registry. -/
def project (r : Registry) (opts : ProjectOptions) (nowMS receiptNow : Int)
    (gateway : GatewayView) :
    SiteHealth :=
  let observed := observedNodes r.snapshot
  let nodes := opts.expectedDeviceIDs.map
    (projectNode observed r.recordedSeverity receiptNow opts.nodeTTL)
  let status := nodes.foldl (fun status n => max status (projectedSeverity n.status))
    (gatewaySeverity gateway)
  let ingress := receivedFamilies.foldl
    (fun ingress family =>
      ingress.insert family ((gateway.mqttIngress.lookup family).getD ⟨0, 0⟩)) ∅
  { generatedAtMS := nowMS
    status := siteStatusName status
    nodes := nodes
    gateway := { gateway with mqttIngress := ingress } }

/-! ## Severities of what is shown -/

/-- The status that a call reports of a device, if it is a heartbeat of it. -/
def RegistryCall.statusOf (device : Bytes) : RegistryCall → Option Bytes
  | .upsert heartbeat _ _ => if heartbeat.deviceID = device then some heartbeat.status else none
  | _ => none

/-- The severity that a call reads of a device, if it is a posture of it that carries one. -/
def RegistryCall.readingOf (device : Bytes) : RegistryCall → Option Bytes
  | .upsertPosture deviceID posture =>
    if deviceID = device ∧ posture.exportSeverity ≠ [] then some posture.exportSeverity else none
  | _ => none

def lastStatus (device : Bytes) (calls : List RegistryCall) : Option Bytes :=
  calls.reverse.findSome? (RegistryCall.statusOf device)

/-- The last severity that was read from a device's health export. -/
def lastReading (device : Bytes) (calls : List RegistryCall) : Option Bytes :=
  calls.reverse.findSome? (RegistryCall.readingOf device)

theorem findSome?_concat_reverse {α β : Type} (f : α → Option β) (l : List α) (a : α) :
    (l ++ [a]).reverse.findSome? f = (f a).or (l.reverse.findSome? f) := by
  rw [List.reverse_append, List.reverse_singleton, List.singleton_append, List.findSome?_cons]
  cases f a <;> rfl

/-- What the registry knows of every device after a history of calls. -/
structure Registry.Tracks (calls : List RegistryCall) (r : Registry) : Prop where
  reading : ∀ device, r.exportSeverity.lookup device = lastReading device calls
  deviceID : ∀ device heartbeat, r.nodes.lookup device = some heartbeat →
    heartbeat.deviceID = device
  status : ∀ device heartbeat, r.nodes.lookup device = some heartbeat →
    lastStatus device calls = some heartbeat.status
  severity : ∀ device heartbeat, r.nodes.lookup device = some heartbeat →
    heartbeat.exportSeverity = r.severityOf device
  gone : ∀ device, r.nodes.lookup device = none →
    lastStatus device calls ≠ some nodeStatusCritical

namespace Registry

variable {calls : List RegistryCall} {r : Registry}

theorem tracks_newRegistry : newRegistry.Tracks [] where
  reading := fun device => Finmap.lookup_empty device
  deviceID := by simp [newRegistry]
  status := by simp [newRegistry]
  severity := by simp [newRegistry]
  gone := by simp [lastStatus]

theorem Tracks.upsert (h : r.Tracks calls) (heartbeat : NodeHeartbeat) (wall mono : Int) :
    (r.upsert heartbeat wall mono).Tracks (calls ++ [.upsert heartbeat wall mono]) := by
  have hstatus : ∀ device, lastStatus device (calls ++ [.upsert heartbeat wall mono]) =
      if device = heartbeat.deviceID then some heartbeat.status else lastStatus device calls := by
    intro device
    rw [lastStatus, findSome?_concat_reverse, RegistryCall.statusOf]
    split
    next hsame => rw [if_pos hsame.symm, Option.some_or]
    next hother => rw [if_neg (Ne.symm hother), Option.none_or, lastStatus]
  refine
    { reading := fun device => ?_
      deviceID := fun device n hlookup => ?_
      status := fun device n hlookup => ?_
      severity := fun device n hlookup => ?_
      gone := fun device hlookup => ?_ }
  · rw [upsert_exportSeverity, h.reading, lastReading, lastReading, findSome?_concat_reverse]
    rfl
  · rw [lookup_upsert] at hlookup
    split at hlookup
    next hsame =>
      cases hlookup
      exact hsame.symm
    next => exact h.deviceID device n hlookup
  · rw [lookup_upsert] at hlookup
    rw [hstatus]
    split at hlookup
    next hsame =>
      cases hlookup
      rw [if_pos hsame]
      rfl
    next hother =>
      rw [if_neg hother]
      exact h.status device n hlookup
  · rw [lookup_upsert] at hlookup
    split at hlookup
    next hsame =>
      cases hlookup
      rw [hsame]
      rfl
    next => exact h.severity device n hlookup
  · rw [lookup_upsert] at hlookup
    rw [hstatus]
    split at hlookup
    next => cases hlookup
    next hother =>
      rw [if_neg hother]
      exact h.gone device hlookup

theorem Tracks.upsertPosture (h : r.Tracks calls) (deviceID : Bytes) (posture : SiteNodePosture) :
    (r.upsertPosture deviceID posture).Tracks (calls ++ [.upsertPosture deviceID posture]) := by
  have hstatus : ∀ device, lastStatus device (calls ++ [.upsertPosture deviceID posture]) =
      lastStatus device calls := fun device => findSome?_concat_reverse ..
  refine
    { reading := fun device => ?_
      deviceID := fun device n hlookup => ?_
      status := fun device n hlookup => ?_
      severity := fun device n hlookup => ?_
      gone := fun device hlookup => ?_ }
  · rw [upsertPosture_exportSeverity, lookup_recordSeverity, lastReading, findSome?_concat_reverse,
      RegistryCall.readingOf, h.reading, lastReading]
    by_cases hsame : device = deviceID
    · simp only [hsame, true_and]
      split <;> rfl
    · simp [hsame, Ne.symm hsame]
  · rw [lookup_upsertPosture] at hlookup
    split at hlookup
    next hsame =>
      obtain ⟨n', hn', rfl⟩ := Option.map_eq_some_iff.mp hlookup
      exact h.deviceID device n' hn'
    next => exact h.deviceID device n hlookup
  · rw [lookup_upsertPosture] at hlookup
    rw [hstatus]
    split at hlookup
    next hsame =>
      obtain ⟨n', hn', rfl⟩ := Option.map_eq_some_iff.mp hlookup
      exact h.status device n' hn'
    next => exact h.status device n hlookup
  · rw [lookup_upsertPosture] at hlookup
    split at hlookup
    next hsame =>
      obtain ⟨n', hn', rfl⟩ := Option.map_eq_some_iff.mp hlookup
      rw [hsame, severityOf, severityOf, upsertPosture_exportSeverity]
    next hother =>
      rw [h.severity device n hlookup, severityOf, severityOf, upsertPosture_exportSeverity,
        lookup_recordSeverity, if_neg (fun hand => hother hand.1)]
  · rw [lookup_upsertPosture] at hlookup
    rw [hstatus]
    split at hlookup
    next hsame => exact h.gone device (Option.map_eq_none_iff.mp hlookup)
    next => exact h.gone device hlookup

theorem Tracks.evict (h : r.Tracks calls) (ttl now : Int) :
    (r.evictStaleRetainingCritical ttl now).registry.Tracks (calls ++ [.evict ttl now]) := by
  have hstatus : ∀ device, lastStatus device (calls ++ [.evict ttl now]) =
      lastStatus device calls := fun device => findSome?_concat_reverse ..
  have hkept : ∀ device n,
      (r.evictStaleRetainingCritical ttl now).registry.nodes.lookup device = some n →
      r.nodes.lookup device = some n := by
    intro device n hlookup
    rw [lookup_evictStaleRetainingCritical] at hlookup
    exact (Option.filter_eq_some_iff.mp hlookup).1
  refine
    { reading := fun device => ?_
      deviceID := fun device n hlookup => h.deviceID device n (hkept device n hlookup)
      status := fun device n hlookup => ?_
      severity := fun device n hlookup => ?_
      gone := fun device hlookup => ?_ }
  · rw [evictStaleRetainingCritical_exportSeverity, h.reading, lastReading, lastReading,
      findSome?_concat_reverse]
    rfl
  · rw [hstatus]
    exact h.status device n (hkept device n hlookup)
  · rw [h.severity device n (hkept device n hlookup), severityOf, severityOf,
      evictStaleRetainingCritical_exportSeverity]
  · rw [hstatus]
    cases hnode : r.nodes.lookup device with
    | none => exact h.gone device hnode
    | some n =>
      -- the node was evicted by this call, so its last heartbeat was not critical
      rw [lookup_evictStaleRetainingCritical, hnode] at hlookup
      have hevicts : evicts now ttl n = true := by
        by_contra hnot
        simp [Option.filter, Bool.not_eq_true _ ▸ hnot] at hlookup
      have hcritical : isCritical n = false := by
        simp only [evicts, Bool.and_eq_true, Bool.not_eq_true'] at hevicts
        exact hevicts.1
      rw [h.status device n hnode]
      intro hsome
      have heq := Option.some_injective _ hsome
      simp [isCritical, heq] at hcritical

/-- **The registry tracks every history of calls.** -/
theorem tracks_runCalls (calls : List RegistryCall) : (runCalls calls).Tracks calls := by
  induction calls using List.reverseRecOn with
  | nil => exact tracks_newRegistry
  | append_singleton calls call ih =>
    rw [runCalls_concat]
    cases call with
    | upsert heartbeat wall mono => exact ih.upsert heartbeat wall mono
    | upsertPosture deviceID posture => exact ih.upsertPosture deviceID posture
    | evict ttl now => exact ih.evict ttl now

theorem Tracks.lookup_observedNodes (h : r.Tracks calls) (device : Bytes) :
    (observedNodes r.snapshot).lookup device = r.nodes.lookup device := by
  have hfold : ∀ (devices : List Bytes) (observed : GoMap Bytes NodeHeartbeat),
      (∀ device ∈ devices, device ∈ r.nodes.keys) →
      ((devices.filterMap fun device => r.nodes.lookup device).foldl
          (fun observed n => observed.insert n.deviceID n) observed).lookup device =
        if device ∈ devices then r.nodes.lookup device else observed.lookup device := by
    intro devices
    induction devices with
    | nil => simp
    | cons first devices ih =>
      intro observed hkeys
      obtain ⟨n, hn⟩ := mem_keys_iff.mp (hkeys first List.mem_cons_self)
      have hfirst := h.deviceID first n hn
      rw [List.filterMap_cons_some (f := fun device => r.nodes.lookup device) hn, List.foldl_cons,
        ih _ fun device hmem => hkeys device (List.mem_cons_of_mem _ hmem), lookup_insert_ite,
        hfirst]
      by_cases hmem : device ∈ devices
      · simp [hmem]
      · by_cases hsame : device = first
        · rw [if_neg hmem, if_pos hsame, if_pos (by simp [hsame]), hsame, hn]
        · simp [hmem, hsame]
  rw [observedNodes, snapshot, hfold _ _ fun device hmem => (mem_sortedKeys _ _ _).mp hmem]
  split
  next => rfl
  next hmem =>
    rw [mem_sortedKeys] at hmem
    rw [lookup_eq_none_of_notMem hmem, Finmap.lookup_empty]

theorem Tracks.severityOf_eq (h : r.Tracks calls) (device : Bytes) :
    r.severityOf device = (lastReading device calls).getD [] := by
  rw [severityOf, h.reading]

end Registry

theorem getD_eq_critical_iff (reading : Option Bytes) :
    reading.getD [] = exportSeverityCritical ↔ reading = some exportSeverityCritical := by
  cases reading with
  | none => decide
  | some severity => simp

end OriGateway
