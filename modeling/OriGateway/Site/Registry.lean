import OriGateway.Foundation.Bytes
import OriGateway.Foundation.GoMap
import OriGateway.Foundation.Int64

/-! # The node registry

What the gateway knows of each runtime node: its last accepted heartbeat, the severity last read
from its health export, which outlives heartbeats and eviction, and the recent heads of its evidence
chain, by which a truncated or rolled-back chain is noticed (**`EvidenceTrack`**). A history is a
list of calls (**`Registry.runCalls`**). -/

namespace OriGateway

open Foundation

/-! ## Evidence of a node -/

/-- A node's evidence-chain signal, with what the gateway observed of it. -/
structure NodeEvidence where
  chainHeadHash : Bytes
  attestationGapCount : Int
  available : Bool
  actionEventType : Bytes
  truncationSuspected : Bool
  headRegressed : Bool
  deriving DecidableEq

def evidenceHeadHistorySize : Nat := 16

/-- What is remembered of a device's evidence chain. -/
structure EvidenceTrack where
  recentHeads : List Bytes
  truncationSuspected : Bool
  headRegressed : Bool
  deriving DecidableEq

namespace EvidenceTrack

def empty : EvidenceTrack := ⟨[], false, false⟩

def currentHead (t : EvidenceTrack) : Bytes := t.recentHeads.getLast?.getD []

def sawHeadBeforeCurrent (t : EvidenceTrack) (head : Bytes) : Bool :=
  decide (head ∈ t.recentHeads.dropLast)

def recordHead (t : EvidenceTrack) (head : Bytes) : EvidenceTrack :=
  let heads := t.recentHeads ++ [head]
  { t with recentHeads := heads.drop (heads.length - evidenceHeadHistorySize) }

/-- A heartbeat without evidence, from a device that has shown some. -/
def observeMissing (t : EvidenceTrack) : NodeEvidence where
  chainHeadHash := t.currentHead
  attestationGapCount := 0
  available := false
  actionEventType := []
  truncationSuspected := t.truncationSuspected
  headRegressed := t.headRegressed

/-- The track after a report. -/
def observed (t : EvidenceTrack) (reported : NodeEvidence) : EvidenceTrack :=
  let head := reported.chainHeadHash
  if head = [] then
    if t.currentHead ≠ [] then { t with truncationSuspected := true } else t
  else if head ≠ t.currentHead then
    if t.sawHeadBeforeCurrent head then { t with headRegressed := true }.recordHead head
    else t.recordHead head
  else t

/-- Fold one heartbeat's evidence into the track, and return it with what the track shows. -/
def observe (t : EvidenceTrack) (reported : NodeEvidence) : EvidenceTrack × NodeEvidence :=
  let t := t.observed reported
  (t, { reported with
    truncationSuspected := t.truncationSuspected, headRegressed := t.headRegressed })

end EvidenceTrack

/-! ## Nodes -/

/-- The posture a health export shows. The members that are only shown again are left out. -/
structure SiteNodePosture where
  exportSeverity : Bytes
  deriving DecidableEq

/-- A node's last accepted heartbeat, as the registry keeps it. -/
structure NodeHeartbeat where
  deviceID : Bytes
  status : Bytes
  lastSeenMS : Int
  gatewaySeen : Int
  activeTriggers : Option (List Bytes)
  degradationReasons : Option (List Bytes)
  posture : Option SiteNodePosture
  evidence : Option NodeEvidence
  exportSeverity : Bytes
  receivedMono : Int
  /-- When the gateway accepted the last heartbeat whose report moved, on the same clock. -/
  advancedMono : Int
  deriving DecidableEq

def nodeStatusHealthy : Bytes := ascii "healthy"

def nodeStatusDegraded : Bytes := ascii "degraded"

def nodeStatusCritical : Bytes := ascii "critical"

def exportSeverityOK : Bytes := ascii "ok"

def exportSeverityCritical : Bytes := ascii "critical"

def receiptStale (heartbeat : NodeHeartbeat) (now ttl : Int) : Bool :=
  decide (int64 (now - heartbeat.receivedMono) > ttl)

def reportStale (heartbeat : NodeHeartbeat) (now ttl : Int) : Bool :=
  decide (int64 (now - heartbeat.advancedMono) > ttl)

/-! ## The registry -/

/-- What is known of the nodes. -/
structure Registry where
  nodes : GoMap Bytes NodeHeartbeat
  evidence : GoMap Bytes EvidenceTrack
  exportSeverity : GoMap Bytes Bytes
  /-- The devices that were retained as critical since their last heartbeat. -/
  silentCritical : Finset Bytes
  deriving DecidableEq

namespace Registry

def newRegistry : Registry := ⟨∅, ∅, ∅, ∅⟩

def severityOf (r : Registry) (deviceID : Bytes) : Bytes :=
  (r.exportSeverity.lookup deviceID).getD []

/-- The evidence that a heartbeat shows in the registry, and the tracks with it. -/
def trackEvidence (r : Registry) (heartbeat : NodeHeartbeat) :
    GoMap Bytes EvidenceTrack × Option NodeEvidence :=
  match heartbeat.evidence with
  | some reported =>
    let track := (r.evidence.lookup heartbeat.deviceID).getD .empty
    let (track, enriched) := track.observe reported
    (r.evidence.insert heartbeat.deviceID track, some enriched)
  | none =>
    match r.evidence.lookup heartbeat.deviceID with
    | some track => (r.evidence, some track.observeMissing)
    | none => (r.evidence, none)

/-- When the node's report last moved: with this heartbeat, unless its `last_seen_ms` does not pass
the previous heartbeat's. -/
def advanced (r : Registry) (heartbeat : NodeHeartbeat) (mono : Int) : Int :=
  match r.nodes.lookup heartbeat.deviceID with
  | some previous =>
    if heartbeat.lastSeenMS ≤ previous.lastSeenMS then previous.advancedMono else mono
  | none => mono

/-- A heartbeat as it is recorded: stamped with its receipt, and with what the registry keeps of the
node. -/
def stamped (heartbeat : NodeHeartbeat) (wall mono : Int) (r : Registry) : NodeHeartbeat :=
  { heartbeat with
    activeTriggers := some (heartbeat.activeTriggers.getD [])
    gatewaySeen := wall
    receivedMono := mono
    advancedMono := r.advanced heartbeat mono
    evidence := (r.trackEvidence heartbeat).2
    exportSeverity := r.severityOf heartbeat.deviceID }

/-- Record an accepted heartbeat, received at a reading of each clock. -/
def upsert (heartbeat : NodeHeartbeat) (wall mono : Int) (r : Registry) : Registry :=
  { r with
    nodes := r.nodes.insert heartbeat.deviceID (r.stamped heartbeat wall mono)
    evidence := (r.trackEvidence heartbeat).1
    silentCritical := r.silentCritical.erase heartbeat.deviceID }

/-- Record a posture's severity, if it has one. -/
def recordSeverity (deviceID : Bytes) (posture : SiteNodePosture) (r : Registry) : Registry :=
  if posture.exportSeverity ≠ [] then
    { r with exportSeverity := r.exportSeverity.insert deviceID posture.exportSeverity }
  else r

/-- Record the severity a health export read, and the posture of a node that is known. -/
def upsertPosture (deviceID : Bytes) (posture : SiteNodePosture) (r : Registry) : Registry :=
  let r := r.recordSeverity deviceID posture
  match r.nodes.lookup deviceID with
  | none => r
  | some heartbeat =>
    { r with
      nodes := r.nodes.insert deviceID
        { heartbeat with exportSeverity := r.severityOf deviceID, posture := some posture } }

/-- Whether a node is critical by its last heartbeat or its health export. -/
def isCritical (heartbeat : NodeHeartbeat) : Bool :=
  decide (heartbeat.status = nodeStatusCritical) ||
    decide (heartbeat.exportSeverity = exportSeverityCritical)

/-- The registry during an eviction, with the nodes evicted and those first found silent. -/
structure Eviction where
  registry : Registry
  evicted : List NodeHeartbeat
  retained : List NodeHeartbeat

/-- Evict one node, or retain it as silent. -/
def evictNode (now ttl : Int) (e : Eviction) (deviceID : Bytes) : Eviction :=
  match e.registry.nodes.lookup deviceID with
  | none => e
  | some heartbeat =>
    let silent := receiptStale heartbeat now ttl
    if isCritical heartbeat then
      if silent && !decide (deviceID ∈ e.registry.silentCritical) then
        { e with
          registry :=
            { e.registry with silentCritical := insert deviceID e.registry.silentCritical }
          retained := e.retained ++ [heartbeat] }
      else e
    else if silent then
      { e with
        registry :=
          { e.registry with
            nodes := e.registry.nodes.erase deviceID
            evidence := e.registry.evidence.erase deviceID }
        evicted := e.evicted ++ [heartbeat] }
    else e

/-- Evict the nodes that are silent for longer than the limit, the critical ones apart. Each node is
looked at once, in an order that does not matter. -/
def evictStaleRetainingCritical (ttl now : Int) (r : Registry) : Eviction :=
  (sortedKeys (· ≤ ·) r.nodes.keys).foldl (evictNode now ttl) ⟨r, [], []⟩

end Registry

/-! ## Histories of calls -/

/-- A call that changes the registry. -/
inductive RegistryCall where
  /-- An accepted heartbeat, at a reading of each clock. -/
  | upsert (heartbeat : NodeHeartbeat) (wall mono : Int)
  | upsertPosture (deviceID : Bytes) (posture : SiteNodePosture)
  /-- An eviction, at a reading of the monotonic clock. -/
  | evict (ttl now : Int)

namespace Registry

/-- One call on the registry. -/
def runCall (r : Registry) : RegistryCall → Registry
  | .upsert heartbeat wall mono => r.upsert heartbeat wall mono
  | .upsertPosture deviceID posture => r.upsertPosture deviceID posture
  | .evict ttl now => (r.evictStaleRetainingCritical ttl now).registry

def runCalls (calls : List RegistryCall) : Registry := calls.foldl runCall newRegistry

@[simp] theorem runCalls_concat (calls : List RegistryCall) (call : RegistryCall) :
    runCalls (calls ++ [call]) = (runCalls calls).runCall call := by
  rw [runCalls, List.foldl_concat, runCalls]

/-! ## One device at a time -/

def evicts (now ttl : Int) (heartbeat : NodeHeartbeat) : Bool :=
  !isCritical heartbeat && receiptStale heartbeat now ttl

theorem lookup_evictNode (now ttl : Int) (e : Eviction) (deviceID device : Bytes) :
    (evictNode now ttl e deviceID).registry.nodes.lookup device =
      (e.registry.nodes.lookup device).filter
        fun heartbeat => !(decide (device = deviceID) && evicts now ttl heartbeat) := by
  unfold evictNode evicts
  by_cases hsame : device = deviceID
  · subst hsame
    cases hlookup : e.registry.nodes.lookup device with
    | none => simp [hlookup]
    | some heartbeat =>
      cases hcritical : isCritical heartbeat <;> cases hsilent : receiptStale heartbeat now ttl <;>
        by_cases hmem : device ∈ e.registry.silentCritical <;>
        simp [hcritical, hsilent, hmem, hlookup, Option.filter]
  · have hkeep : (e.registry.nodes.lookup device).filter
        (fun heartbeat => !(decide (device = deviceID) &&
          (!isCritical heartbeat && receiptStale heartbeat now ttl))) =
        e.registry.nodes.lookup device := by
      cases e.registry.nodes.lookup device <;> simp [hsame, Option.filter]
    rw [hkeep]
    split
    next => rfl
    next =>
      simp only
      split_ifs
      · rfl
      · rfl
      · exact Finmap.lookup_erase_ne hsame
      · rfl

@[simp] theorem evictNode_exportSeverity (now ttl : Int) (e : Eviction) (deviceID : Bytes) :
    (evictNode now ttl e deviceID).registry.exportSeverity = e.registry.exportSeverity := by
  unfold evictNode
  split
  · rfl
  · simp only
    split_ifs <;> rfl

theorem lookup_foldl_evictNode (now ttl : Int) (devices : List Bytes) (e : Eviction)
    (device : Bytes) :
    (devices.foldl (evictNode now ttl) e).registry.nodes.lookup device =
      (e.registry.nodes.lookup device).filter
        fun heartbeat => !(decide (device ∈ devices) && evicts now ttl heartbeat) := by
  induction devices generalizing e with
  | nil =>
    rw [List.foldl_nil]
    cases e.registry.nodes.lookup device <;> simp [Option.filter]
  | cons deviceID devices ih =>
    rw [List.foldl_cons, ih, lookup_evictNode]
    cases hlookup : e.registry.nodes.lookup device with
    | none => rfl
    | some heartbeat =>
      by_cases hsame : device = deviceID <;> by_cases hmem : device ∈ devices <;>
        cases hevicts : evicts now ttl heartbeat <;>
        simp [hsame, hmem, hevicts, Option.filter]

theorem foldl_evictNode_exportSeverity (now ttl : Int) (devices : List Bytes) (e : Eviction) :
    (devices.foldl (evictNode now ttl) e).registry.exportSeverity = e.registry.exportSeverity := by
  induction devices generalizing e with
  | nil => rfl
  | cons deviceID devices ih => rw [List.foldl_cons, ih, evictNode_exportSeverity]

/-- **An eviction removes exactly the nodes that are silent and not critical.** -/
theorem lookup_evictStaleRetainingCritical (r : Registry) (ttl now : Int) (device : Bytes) :
    (r.evictStaleRetainingCritical ttl now).registry.nodes.lookup device =
      (r.nodes.lookup device).filter fun heartbeat => !evicts now ttl heartbeat := by
  rw [evictStaleRetainingCritical, lookup_foldl_evictNode]
  cases hlookup : r.nodes.lookup device with
  | none => rfl
  | some heartbeat =>
    have hmem : device ∈ sortedKeys (· ≤ ·) r.nodes.keys := by
      rw [mem_sortedKeys]
      exact mem_keys_iff.mpr ⟨heartbeat, hlookup⟩
    simp [hmem]

/-- Whether an eviction retains a node as critical, though it is silent. -/
def retains (now ttl : Int) (heartbeat : NodeHeartbeat) : Bool :=
  isCritical heartbeat && receiptStale heartbeat now ttl

theorem lookup_evictNode_of_ne (now ttl : Int) (e : Eviction) {deviceID device : Bytes}
    (hne : device ≠ deviceID) :
    (evictNode now ttl e deviceID).registry.nodes.lookup device
      = e.registry.nodes.lookup device := by
  rw [lookup_evictNode]
  cases e.registry.nodes.lookup device <;> simp [hne, Option.filter]

theorem lookup_evidence_evictNode (now ttl : Int) (e : Eviction) (deviceID device : Bytes) :
    (evictNode now ttl e deviceID).registry.evidence.lookup device =
      if device = deviceID ∧ (e.registry.nodes.lookup device).any (evicts now ttl) then none
      else e.registry.evidence.lookup device := by
  unfold evictNode evicts
  by_cases hsame : device = deviceID
  · subst hsame
    cases hlookup : e.registry.nodes.lookup device with
    | none => simp
    | some heartbeat =>
      cases hcritical : isCritical heartbeat <;> cases hsilent : receiptStale heartbeat now ttl <;>
        by_cases hmem : device ∈ e.registry.silentCritical <;>
        simp [hcritical, hsilent, hmem]
  · rw [if_neg fun hand => hsame hand.1]
    split
    next => rfl
    next =>
      simp only
      split_ifs
      · rfl
      · rfl
      · exact Finmap.lookup_erase_ne hsame
      · rfl

/-- What `evictNode` reports of a node. -/
theorem evictNode_reports (now ttl : Int) (e : Eviction) (deviceID : Bytes) :
    (evictNode now ttl e deviceID).evicted =
        e.evicted ++ ((e.registry.nodes.lookup deviceID).filter (evicts now ttl)).toList ∧
      (evictNode now ttl e deviceID).retained =
        e.retained ++ if deviceID ∈ e.registry.silentCritical then []
          else ((e.registry.nodes.lookup deviceID).filter (retains now ttl)).toList := by
  unfold evictNode evicts retains
  cases hlookup : e.registry.nodes.lookup deviceID with
  | none => simp
  | some heartbeat =>
    cases hcritical : isCritical heartbeat <;> cases hsilent : receiptStale heartbeat now ttl <;>
      by_cases hmem : deviceID ∈ e.registry.silentCritical <;>
      simp [hcritical, hsilent, hmem, Option.filter]

theorem mem_silentCritical_evictNode (now ttl : Int) (e : Eviction) (deviceID device : Bytes) :
    device ∈ (evictNode now ttl e deviceID).registry.silentCritical ↔
      device ∈ e.registry.silentCritical ∨
        device = deviceID ∧ (e.registry.nodes.lookup device).any (retains now ttl) := by
  unfold evictNode retains
  cases hlookup : e.registry.nodes.lookup deviceID with
  | none =>
    refine ⟨.inl, ?_⟩
    rintro (hmem | ⟨rfl, hany⟩)
    · exact hmem
    · simp [hlookup] at hany
  | some heartbeat =>
    by_cases hsame : device = deviceID
    · subst hsame
      cases hcritical : isCritical heartbeat <;> cases hsilent : receiptStale heartbeat now ttl <;>
        by_cases hmem : device ∈ e.registry.silentCritical <;>
        simp [hlookup, hcritical, hsilent, hmem]
    · cases hcritical : isCritical heartbeat <;> cases hsilent : receiptStale heartbeat now ttl <;>
        by_cases hmem : deviceID ∈ e.registry.silentCritical <;>
        simp [hcritical, hsilent, hsame, hmem]

/-- **What an eviction does with a list of nodes**, each of which it looks at once: it reports those
that it evicts, and those first found silent, and forgets the evidence of the first. -/
theorem foldl_evictNode (now ttl : Int) {devices : List Bytes} (hnodup : devices.Nodup)
    (e : Eviction) :
    let after := devices.foldl (evictNode now ttl) e
    after.evicted = e.evicted ++
        devices.filterMap (fun device => (e.registry.nodes.lookup device).filter (evicts now ttl)) ∧
      after.retained = e.retained ++
        devices.filterMap (fun device => if device ∈ e.registry.silentCritical then none
          else (e.registry.nodes.lookup device).filter (retains now ttl)) ∧
      ∀ device,
        (after.registry.evidence.lookup device =
          if device ∈ devices ∧ (e.registry.nodes.lookup device).any (evicts now ttl) then none
          else e.registry.evidence.lookup device) ∧
        (device ∈ after.registry.silentCritical ↔ device ∈ e.registry.silentCritical ∨
          device ∈ devices ∧ (e.registry.nodes.lookup device).any (retains now ttl)) := by
  induction devices generalizing e with
  | nil => simp
  | cons deviceID devices ih =>
    obtain ⟨hfresh, hnodup⟩ := List.nodup_cons.mp hnodup
    -- the nodes still to come are as they were
    have hother : ∀ device ∈ devices, device ≠ deviceID :=
      fun device hmem heq => hfresh (heq ▸ hmem)
    have hlookup : ∀ device ∈ devices,
        (evictNode now ttl e deviceID).registry.nodes.lookup device =
          e.registry.nodes.lookup device :=
      fun device hmem => lookup_evictNode_of_ne now ttl e (hother device hmem)
    have hsilent : ∀ device ∈ devices,
        (device ∈ (evictNode now ttl e deviceID).registry.silentCritical ↔
          device ∈ e.registry.silentCritical) := by
      intro device hmem
      rw [mem_silentCritical_evictNode, or_iff_left fun hand => hother device hmem hand.1]
    obtain ⟨hevicted, hretained, hrest⟩ := ih hnodup (evictNode now ttl e deviceID)
    rw [List.foldl_cons]
    refine ⟨?_, ?_, fun device => ⟨?_, ?_⟩⟩
    · rw [hevicted, (evictNode_reports ..).1, List.append_assoc,
        List.filterMap_congr fun device hmem => by rw [hlookup device hmem]]
      rw [List.filterMap_cons]
      cases (e.registry.nodes.lookup deviceID).filter (evicts now ttl) <;> rfl
    · rw [hretained, (evictNode_reports ..).2, List.append_assoc,
        List.filterMap_congr fun device hmem => by
          rw [hlookup device hmem, if_congr (hsilent device hmem) rfl rfl]]
      rw [List.filterMap_cons]
      split_ifs with hmem
      · rfl
      · cases (e.registry.nodes.lookup deviceID).filter (retains now ttl) <;> rfl
    · rw [(hrest device).1, lookup_evidence_evictNode]
      by_cases hmem : device ∈ devices
      · rw [hlookup device hmem]
        simp [hmem, hother device hmem]
      · simp [hmem]
    · rw [(hrest device).2, mem_silentCritical_evictNode, or_assoc]
      by_cases hmem : device ∈ devices
      · rw [hlookup device hmem]
        simp [hmem, hother device hmem]
      · simp [hmem]

theorem any_lookup_mem {r : Registry} {device : Bytes} {p : NodeHeartbeat → Bool} :
    (device ∈ sortedKeys (· ≤ ·) r.nodes.keys ∧ (r.nodes.lookup device).any p) ↔
      (r.nodes.lookup device).any p := by
  refine and_iff_right_of_imp fun hany => ?_
  rw [mem_sortedKeys]
  cases hlookup : r.nodes.lookup device with
  | none => simp [hlookup] at hany
  | some heartbeat => exact mem_keys_iff.mpr ⟨heartbeat, hlookup⟩

theorem lookup_evidence_evict (r : Registry) (ttl now : Int) (device : Bytes) :
    (r.evictStaleRetainingCritical ttl now).registry.evidence.lookup device =
      if (r.nodes.lookup device).any (evicts now ttl) then none else r.evidence.lookup device := by
  rw [evictStaleRetainingCritical,
    ((foldl_evictNode now ttl (sortedKeys_nodup _ _) _).2.2 device).1,
    if_congr any_lookup_mem rfl rfl]

theorem mem_silentCritical_evict (r : Registry) (ttl now : Int) (device : Bytes) :
    device ∈ (r.evictStaleRetainingCritical ttl now).registry.silentCritical ↔
      device ∈ r.silentCritical ∨ (r.nodes.lookup device).any (retains now ttl) := by
  rw [evictStaleRetainingCritical,
    ((foldl_evictNode now ttl (sortedKeys_nodup _ _) _).2.2 device).2, any_lookup_mem]

theorem evict_evicted (r : Registry) (ttl now : Int) :
    (r.evictStaleRetainingCritical ttl now).evicted =
      (sortedKeys (· ≤ ·) r.nodes.keys).filterMap fun device =>
        (r.nodes.lookup device).filter (evicts now ttl) :=
  (foldl_evictNode now ttl (sortedKeys_nodup _ _) _).1

theorem evict_retained (r : Registry) (ttl now : Int) :
    (r.evictStaleRetainingCritical ttl now).retained =
      (sortedKeys (· ≤ ·) r.nodes.keys).filterMap fun device =>
        if device ∈ r.silentCritical then none
        else (r.nodes.lookup device).filter (retains now ttl) :=
  (foldl_evictNode now ttl (sortedKeys_nodup _ _) _).2.1

@[simp] theorem evictStaleRetainingCritical_exportSeverity (r : Registry) (ttl now : Int) :
    (r.evictStaleRetainingCritical ttl now).registry.exportSeverity = r.exportSeverity :=
  foldl_evictNode_exportSeverity now ttl _ _

theorem lookup_upsert (r : Registry) (heartbeat : NodeHeartbeat) (wall mono : Int)
    (device : Bytes) :
    (r.upsert heartbeat wall mono).nodes.lookup device =
      if device = heartbeat.deviceID then some (r.stamped heartbeat wall mono)
      else r.nodes.lookup device :=
  lookup_insert_ite ..

@[simp] theorem upsert_exportSeverity (r : Registry) (heartbeat : NodeHeartbeat) (wall mono : Int) :
    (r.upsert heartbeat wall mono).exportSeverity = r.exportSeverity := rfl

theorem lookup_recordSeverity (r : Registry) (deviceID : Bytes) (posture : SiteNodePosture)
    (device : Bytes) :
    (r.recordSeverity deviceID posture).exportSeverity.lookup device =
      if device = deviceID ∧ posture.exportSeverity ≠ [] then some posture.exportSeverity
      else r.exportSeverity.lookup device := by
  unfold recordSeverity
  split
  next hne => simp [lookup_insert_ite, hne]
  next hempty => simp [hempty]

@[simp] theorem recordSeverity_nodes (r : Registry) (deviceID : Bytes) (posture : SiteNodePosture) :
    (r.recordSeverity deviceID posture).nodes = r.nodes := by
  unfold recordSeverity
  split <;> rfl

@[simp] theorem upsertPosture_exportSeverity (r : Registry) (deviceID : Bytes)
    (posture : SiteNodePosture) :
    (r.upsertPosture deviceID posture).exportSeverity =
      (r.recordSeverity deviceID posture).exportSeverity := by
  unfold upsertPosture
  simp only
  split <;> rfl

theorem upsertPosture_kept (r : Registry) (deviceID : Bytes) (posture : SiteNodePosture) :
    (r.upsertPosture deviceID posture).evidence = r.evidence ∧
      (r.upsertPosture deviceID posture).silentCritical = r.silentCritical := by
  have hrecord : (r.recordSeverity deviceID posture).evidence = r.evidence ∧
      (r.recordSeverity deviceID posture).silentCritical = r.silentCritical := by
    unfold recordSeverity
    split <;> exact ⟨rfl, rfl⟩
  unfold upsertPosture
  simp only
  split
  · exact hrecord
  · exact hrecord

@[simp] theorem upsertPosture_evidence (r : Registry) (deviceID : Bytes)
  (posture : SiteNodePosture) :
    (r.upsertPosture deviceID posture).evidence = r.evidence :=
  (r.upsertPosture_kept deviceID posture).1

@[simp] theorem upsertPosture_silentCritical (r : Registry) (deviceID : Bytes)
    (posture : SiteNodePosture) :
    (r.upsertPosture deviceID posture).silentCritical = r.silentCritical :=
  (r.upsertPosture_kept deviceID posture).2

theorem lookup_upsertPosture (r : Registry) (deviceID : Bytes) (posture : SiteNodePosture)
    (device : Bytes) :
    (r.upsertPosture deviceID posture).nodes.lookup device =
      if device = deviceID then
        (r.nodes.lookup device).map fun heartbeat =>
          { heartbeat with
            exportSeverity := (r.recordSeverity deviceID posture).severityOf deviceID
            posture := some posture }
      else r.nodes.lookup device := by
  unfold upsertPosture
  simp only [recordSeverity_nodes]
  cases hlookup : r.nodes.lookup deviceID with
  | none =>
    show (r.recordSeverity deviceID posture).nodes.lookup device = _
    rw [recordSeverity_nodes]
    split
    next hsame => rw [hsame, hlookup, Option.map_none]
    next => rfl
  | some heartbeat =>
    rw [lookup_insert_ite]
    split
    next hsame => rw [hsame, hlookup, Option.map_some]
    next => rfl

end Registry

end OriGateway
