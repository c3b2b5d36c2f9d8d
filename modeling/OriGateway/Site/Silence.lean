import OriGateway.Site.Health

/-! # Silence, eviction and the clocks

Whether a node is still reporting is measured on the gateway's monotonic clock alone. The wall clock
shows when a heartbeat was received, and a node's own `last_seen_ms` only whether its report moved.
The passes at which a node is to be evicted (**`Due`**), and at which it is silent but critical
(**`Retained`**), are said over the history of calls. Registries that differ in wall-clock readings
and shifted reports stay **`Registry.Alike`**. -/

namespace OriGateway

open Foundation

/-! ## Silence over a history -/

/-- When a call receives a heartbeat of a device, on the monotonic clock. -/
def RegistryCall.receiptOf (device : Bytes) : RegistryCall → Option Int
  | .upsert heartbeat _ mono => if heartbeat.deviceID = device then some mono else none
  | .upsertPosture _ _ => none
  | .evict _ _ => none

/-- When the last heartbeat of a device was received. -/
def lastReceipt (device : Bytes) (calls : List RegistryCall) : Option Int :=
  calls.reverse.findSome? (RegistryCall.receiptOf device)

/-- A device is critical by its last heartbeat or the last reading of its health export. -/
def CriticalBy (device : Bytes) (calls : List RegistryCall) : Prop :=
  lastStatus device calls = some nodeStatusCritical ∨
    lastReading device calls = some exportSeverityCritical

/-- More than the limit has passed since the last heartbeat of a device. -/
def SilentFor (device : Bytes) (calls : List RegistryCall) (ttl now : Int) : Prop :=
  ∃ received, lastReceipt device calls = some received ∧ ttl < now - received

/-- A device is due for eviction: it is silent and not critical. -/
def Due (device : Bytes) (calls : List RegistryCall) (ttl now : Int) : Prop :=
  ¬CriticalBy device calls ∧ SilentFor device calls ttl now

/-- An eviction pass with a property came since the last heartbeat of a device. -/
def EarlierPass (P : List RegistryCall → Int → Int → Prop) (device : Bytes)
    (calls : List RegistryCall) : Prop :=
  ∃ before ttl now rest, calls = before ++ .evict ttl now :: rest ∧ P before ttl now ∧
    ∀ call ∈ rest, call.receiptOf device = none

/-- A device is silent and critical, and was not evicted since its last heartbeat. -/
def Retained (device : Bytes) (calls : List RegistryCall) (ttl now : Int) : Prop :=
  CriticalBy device calls ∧ SilentFor device calls ttl now ∧ ¬EarlierPass (Due device) device calls

/-- The readings that a call takes of the monotonic clock are times since its origin. -/
def RegistryCall.SinceOrigin : RegistryCall → Prop
  | .upsert _ _ mono => 0 ≤ mono ∧ mono ≤ maxInt64
  | .upsertPosture _ _ => True
  | .evict _ now => 0 ≤ now ∧ now ≤ maxInt64

section Histories

variable {P : List RegistryCall → Int → Int → Prop} {device : Bytes} {calls : List RegistryCall}
  {call : RegistryCall}

theorem lastReceipt_concat : lastReceipt device (calls ++ [call]) =
    (call.receiptOf device).or (lastReceipt device calls) :=
  findSome?_concat_reverse ..

theorem not_earlierPass_nil : ¬EarlierPass P device [] := by
  rintro ⟨before, ttl, now, rest, hcalls, -⟩
  simp at hcalls

/-- One more call: a heartbeat of the device forgets the passes before it. -/
theorem earlierPass_concat : EarlierPass P device (calls ++ [call]) ↔
    call.receiptOf device = none ∧
      (EarlierPass P device calls ∨ ∃ ttl now, call = .evict ttl now ∧ P calls ttl now) := by
  constructor
  · rintro ⟨before, ttl, now, rest, hcalls, hP, hrest⟩
    rcases List.eq_nil_or_concat rest with rfl | ⟨rest, last, rfl⟩
    · obtain ⟨rfl, hcall⟩ := List.append_inj' hcalls rfl
      cases hcall
      exact ⟨rfl, .inr ⟨ttl, now, rfl, hP⟩⟩
    · rw [List.concat_eq_append, ← List.cons_append, ← List.append_assoc] at hcalls
      obtain ⟨rfl, hcall⟩ := List.append_inj' hcalls rfl
      cases hcall
      refine ⟨hrest _ (by simp), .inl ⟨before, ttl, now, rest, rfl, hP, fun call hmem => ?_⟩⟩
      exact hrest call (by simp [hmem])
  · rintro ⟨hother, ⟨before, ttl, now, rest, rfl, hP, hrest⟩ | ⟨ttl, now, rfl, hP⟩⟩
    · refine ⟨before, ttl, now, rest ++ [call], by simp, hP, fun call' hmem => ?_⟩
      rcases List.mem_append.mp hmem with hmem | hmem
      · exact hrest call' hmem
      · rwa [List.mem_singleton.mp hmem]
    · exact ⟨calls, ttl, now, [], rfl, hP, by simp⟩

/-- What was received is a time since the origin of the clock. -/
theorem lastReceipt_sinceOrigin (hreadings : ∀ call ∈ calls, call.SinceOrigin) {received : Int}
    (h : lastReceipt device calls = some received) : 0 ≤ received ∧ received ≤ maxInt64 := by
  obtain ⟨call, hmem, hcall⟩ := List.exists_of_findSome?_eq_some h
  have hreading := hreadings call (List.mem_reverse.mp hmem)
  cases call with
  | upsert heartbeat wall mono =>
    rw [RegistryCall.receiptOf] at hcall
    split at hcall
    · cases hcall
      exact hreading
    · cases hcall
  | upsertPosture deviceID posture => cases hcall
  | evict ttl now => cases hcall

end Histories

/-! ## What the registry keeps of a silence -/

namespace Registry

variable {device : Bytes} {calls : List RegistryCall} {r : Registry} {n : NodeHeartbeat}

/-- A registry hears a device: its node knows when its last heartbeat was received, is gone once a
pass found it due, and is remembered as silent once a pass retained it. -/
structure Hears (device : Bytes) (calls : List RegistryCall) (r : Registry) : Prop where
  receipt : ∀ n, r.nodes.lookup device = some n → lastReceipt device calls = some n.receivedMono
  gone : r.nodes.lookup device = none ↔
    lastReceipt device calls = none ∨ EarlierPass (Due device) device calls
  reported : device ∈ r.silentCritical ↔ EarlierPass (Retained device) device calls

theorem hears_newRegistry : newRegistry.Hears device [] where
  receipt := by simp [newRegistry]
  gone := by simp [newRegistry, lastReceipt]
  reported := by simp [newRegistry, not_earlierPass_nil]

/-- The registry finds a node critical by the last heartbeat and the last reading. -/
theorem Tracks.isCritical_iff (h : r.Tracks calls) (hnode : r.nodes.lookup device = some n) :
    isCritical n = true ↔ CriticalBy device calls := by
  rw [isCritical, Bool.or_eq_true, decide_eq_true_iff, decide_eq_true_iff, CriticalBy,
    h.status device n hnode, Option.some_inj, h.severity device n hnode, h.severityOf_eq,
    getD_eq_critical_iff]

/-- The registry finds a node silent by the last receipt, for no difference overflows. -/
theorem Hears.receiptStale_iff (h : r.Hears device calls)
    (hreadings : ∀ call ∈ calls, call.SinceOrigin) {ttl now : Int} (hnow : 0 ≤ now ∧ now ≤ maxInt64)
    (hnode : r.nodes.lookup device = some n) :
    receiptStale n now ttl = true ↔ SilentFor device calls ttl now := by
  have hreceipt := h.receipt n hnode
  obtain ⟨hlow, hhigh⟩ := lastReceipt_sinceOrigin hreadings hreceipt
  have hrange : InInt64 (now - n.receivedMono) := by
    unfold InInt64
    unfold maxInt64 at hhigh hnow
    omega
  simp [receiptStale, SilentFor, hreceipt, int64_eq hrange]

theorem Hears.not_earlierPass (h : r.Hears device calls) (hnode : r.nodes.lookup device = some n) :
    ¬EarlierPass (Due device) device calls := by
  intro hpass
  have hgone := h.gone.mpr (.inr hpass)
  rw [hnode] at hgone
  cases hgone

theorem Hears.exists_node (h : r.Hears device calls) {received : Int}
    (hreceipt : lastReceipt device calls = some received)
    (hpass : ¬EarlierPass (Due device) device calls) : ∃ n, r.nodes.lookup device = some n := by
  refine Option.ne_none_iff_exists'.mp fun hnone => ?_
  rcases h.gone.mp hnone with hnever | hearlier
  · rw [hreceipt] at hnever
    cases hnever
  · exact hpass hearlier

/-- **What a pass finds of a node**, which is there exactly when its device was heard and was not
due before since then. -/
theorem Hears.any_iff (h : r.Hears device calls) {p : NodeHeartbeat → Bool} {Q : Prop}
    (hof : ∀ n, r.nodes.lookup device = some n → (p n = true ↔ Q))
    (hheard : Q → ∃ received, lastReceipt device calls = some received) :
    (r.nodes.lookup device).any p = true ↔ Q ∧ ¬EarlierPass (Due device) device calls := by
  constructor
  · intro hany
    cases hnode : r.nodes.lookup device with
    | none => simp [hnode] at hany
    | some n =>
      rw [hnode, Option.any_some] at hany
      exact ⟨(hof n hnode).mp hany, h.not_earlierPass hnode⟩
  · rintro ⟨hQ, hpass⟩
    obtain ⟨received, hreceipt⟩ := hheard hQ
    obtain ⟨n, hnode⟩ := h.exists_node hreceipt hpass
    rw [hnode, Option.any_some]
    exact (hof n hnode).mpr hQ

theorem SilentFor.heard {ttl now : Int} (h : SilentFor device calls ttl now) :
    ∃ received, lastReceipt device calls = some received :=
  h.imp fun _ hreceived => hreceived.1

/-- **The node that a pass evicts**: it is due, and was not before since its last heartbeat. -/
theorem Hears.any_evicts_iff (h : r.Hears device calls) (htracks : r.Tracks calls)
    (hreadings : ∀ call ∈ calls, call.SinceOrigin) (ttl : Int) {now : Int}
    (hnow : 0 ≤ now ∧ now ≤ maxInt64) :
    (r.nodes.lookup device).any (evicts now ttl) = true ↔
      Due device calls ttl now ∧ ¬EarlierPass (Due device) device calls := by
  refine h.any_iff (fun n hnode => ?_) fun hdue => SilentFor.heard hdue.2
  rw [evicts, Bool.and_eq_true, Bool.not_eq_true', ← Bool.not_eq_true,
    htracks.isCritical_iff hnode, h.receiptStale_iff hreadings hnow hnode, Due]

/-- The node that a pass retains: it is silent and critical. -/
theorem Hears.any_retains_iff (h : r.Hears device calls) (htracks : r.Tracks calls)
    (hreadings : ∀ call ∈ calls, call.SinceOrigin) (ttl : Int) {now : Int}
    (hnow : 0 ≤ now ∧ now ≤ maxInt64) :
    (r.nodes.lookup device).any (retains now ttl) = true ↔ Retained device calls ttl now := by
  refine (h.any_iff (fun n hnode => ?_) fun hsilent => SilentFor.heard hsilent.2).trans and_assoc
  rw [retains, Bool.and_eq_true, htracks.isCritical_iff hnode,
    h.receiptStale_iff hreadings hnow hnode]

/-! ### One call -/

/-- A heartbeat is heard. -/
theorem Hears.upsert (h : r.Hears device calls) (heartbeat : NodeHeartbeat) (wall mono : Int) :
    (r.upsert heartbeat wall mono).Hears device (calls ++ [.upsert heartbeat wall mono]) := by
  have hsilent : (r.upsert heartbeat wall mono).silentCritical =
      r.silentCritical.erase heartbeat.deviceID := rfl
  by_cases hdevice : heartbeat.deviceID = device
  · have hreceipt : (RegistryCall.upsert heartbeat wall mono).receiptOf device = some mono :=
      if_pos hdevice
    have hnode : (r.upsert heartbeat wall mono).nodes.lookup device =
        some (r.stamped heartbeat wall mono) := by rw [lookup_upsert, if_pos hdevice.symm]
    refine ⟨fun n hn => ?_, ?_, ?_⟩
    · rw [hnode] at hn
      cases hn
      rw [lastReceipt_concat, hreceipt, Option.some_or]
      rfl
    · rw [hnode, lastReceipt_concat, earlierPass_concat, hreceipt]
      simp
    · rw [earlierPass_concat, hreceipt, hsilent, hdevice]
      simp
  · have hreceipt : (RegistryCall.upsert heartbeat wall mono).receiptOf device = none :=
      if_neg hdevice
    have hnode : (r.upsert heartbeat wall mono).nodes.lookup device = r.nodes.lookup device := by
      rw [lookup_upsert, if_neg (Ne.symm hdevice)]
    refine ⟨fun n hn => ?_, ?_, ?_⟩
    · rw [hnode] at hn
      rw [lastReceipt_concat, hreceipt, Option.none_or, h.receipt n hn]
    · rw [hnode, lastReceipt_concat, earlierPass_concat, hreceipt, h.gone]
      simp
    · rw [earlierPass_concat, hreceipt, hsilent, Finset.mem_erase, h.reported]
      simp [Ne.symm hdevice]

/-- A posture is no heartbeat. -/
theorem Hears.upsertPosture (h : r.Hears device calls) (deviceID : Bytes)
    (posture : SiteNodePosture) :
    (r.upsertPosture deviceID posture).Hears device
      (calls ++ [.upsertPosture deviceID posture]) := by
  have hreceipt : (RegistryCall.upsertPosture deviceID posture).receiptOf device = none := rfl
  refine ⟨fun n hn => ?_, ?_, ?_⟩
  · rw [lastReceipt_concat, hreceipt, Option.none_or]
    rw [lookup_upsertPosture] at hn
    split at hn
    · obtain ⟨m, hm, rfl⟩ := Option.map_eq_some_iff.mp hn
      exact h.receipt m hm
    · exact h.receipt n hn
  · rw [lastReceipt_concat, earlierPass_concat, hreceipt, lookup_upsertPosture]
    have hgone := h.gone
    split <;> simp [hgone]
  · rw [earlierPass_concat, hreceipt, upsertPosture_silentCritical, h.reported]
    simp

/-- A pass evicts the node that is due, and remembers the one it retains. -/
theorem Hears.evict (h : r.Hears device calls) (htracks : r.Tracks calls)
    (hreadings : ∀ call ∈ calls, call.SinceOrigin) {now : Int} (hnow : 0 ≤ now ∧ now ≤ maxInt64)
    (ttl : Int) :
    (r.evictStaleRetainingCritical ttl now).registry.Hears device (calls ++ [.evict ttl now]) := by
  have hreceipt : (RegistryCall.evict ttl now).receiptOf device = none := rfl
  have hevicts := h.any_evicts_iff htracks hreadings ttl hnow
  refine ⟨fun n hn => ?_, ?_, ?_⟩
  · rw [lastReceipt_concat, hreceipt, Option.none_or]
    rw [lookup_evictStaleRetainingCritical] at hn
    exact h.receipt n (Option.filter_eq_some_iff.mp hn).1
  · have hfilter : (r.evictStaleRetainingCritical ttl now).registry.nodes.lookup device = none ↔
        r.nodes.lookup device = none ∨ (r.nodes.lookup device).any (evicts now ttl) = true := by
      rw [lookup_evictStaleRetainingCritical]
      cases r.nodes.lookup device with
      | none => simp
      | some n => cases hn : evicts now ttl n <;> simp [Option.filter, hn]
    rw [hfilter, hevicts, h.gone, lastReceipt_concat, earlierPass_concat, hreceipt, Option.none_or]
    simp only [RegistryCall.evict.injEq, true_and]
    constructor
    · rintro ((hnever | hearlier) | ⟨hdue, -⟩)
      · exact .inl hnever
      · exact .inr (.inl hearlier)
      · exact .inr (.inr ⟨ttl, now, ⟨rfl, rfl⟩, hdue⟩)
    · rintro (hnever | hearlier | ⟨ttl', now', ⟨rfl, rfl⟩, hdue⟩)
      · exact .inl (.inl hnever)
      · exact .inl (.inr hearlier)
      · by_cases hearlier : EarlierPass (Due device) device calls
        · exact .inl (.inr hearlier)
        · exact .inr ⟨hdue, hearlier⟩
  · rw [mem_silentCritical_evict, h.any_retains_iff htracks hreadings ttl hnow, h.reported,
      earlierPass_concat, hreceipt]
    simp only [RegistryCall.evict.injEq, true_and]
    refine or_congr_right ⟨fun hretained => ⟨ttl, now, ⟨rfl, rfl⟩, hretained⟩, ?_⟩
    rintro ⟨ttl', now', ⟨rfl, rfl⟩, hretained⟩
    exact hretained

/-- **The registry hears every device**, over every history of calls. -/
theorem hears_runCalls (hreadings : ∀ call ∈ calls, call.SinceOrigin) (device : Bytes) :
    (runCalls calls).Hears device calls := by
  induction calls using List.reverseRecOn with
  | nil => exact hears_newRegistry
  | append_singleton calls call ih =>
    have hbefore : ∀ call ∈ calls, call.SinceOrigin :=
      fun call hmem => hreadings call (List.mem_append_left _ hmem)
    have hlast : call.SinceOrigin := hreadings call (by simp)
    rw [runCalls_concat]
    cases call with
    | upsert heartbeat wall mono => exact (ih hbefore).upsert heartbeat wall mono
    | upsertPosture deviceID posture => exact (ih hbefore).upsertPosture deviceID posture
    | evict ttl now => exact (ih hbefore).evict (tracks_runCalls calls) hbefore hlast ttl

/-! ### What a pass reports -/

/-- The devices of the nodes that a pass reports, passing over some. -/
theorem Tracks.mem_reported_iff (h : r.Tracks calls) (p : NodeHeartbeat → Bool) (q : Bytes → Prop)
    [DecidablePred q] :
    (∃ n ∈ (sortedKeys (· ≤ ·) r.nodes.keys).filterMap fun device =>
        if q device then none else (r.nodes.lookup device).filter p, n.deviceID = device) ↔
      ¬q device ∧ (r.nodes.lookup device).any p = true := by
  constructor
  · rintro ⟨n, hmem, rfl⟩
    obtain ⟨d, -, hfilter⟩ := List.mem_filterMap.mp hmem
    split at hfilter
    · cases hfilter
    next hnew =>
      obtain ⟨hnode, hp⟩ := Option.filter_eq_some_iff.mp hfilter
      rw [h.deviceID d n hnode, hnode, Option.any_some, hp]
      exact ⟨hnew, rfl⟩
  · rintro ⟨hnew, hany⟩
    cases hnode : r.nodes.lookup device with
    | none => simp [hnode] at hany
    | some n =>
      rw [hnode, Option.any_some] at hany
      refine ⟨n, List.mem_filterMap.mpr ⟨device, ?_, ?_⟩, h.deviceID device n hnode⟩
      · rw [mem_sortedKeys]
        exact mem_keys_iff.mpr ⟨n, hnode⟩
      · rw [if_neg hnew]
        exact Option.filter_eq_some_iff.mpr ⟨hnode, hany⟩

theorem Tracks.mem_evicted_iff (h : r.Tracks calls) (ttl now : Int) :
    (∃ n ∈ (r.evictStaleRetainingCritical ttl now).evicted, n.deviceID = device) ↔
      (r.nodes.lookup device).any (evicts now ttl) = true := by
  rw [evict_evicted]
  simpa only [if_false, not_false_eq_true, true_and] using
    h.mem_reported_iff (evicts now ttl) fun _ => False

theorem Tracks.mem_retained_iff (h : r.Tracks calls) (ttl now : Int) :
    (∃ n ∈ (r.evictStaleRetainingCritical ttl now).retained, n.deviceID = device) ↔
      device ∉ r.silentCritical ∧ (r.nodes.lookup device).any (retains now ttl) = true := by
  rw [evict_retained]
  exact h.mem_reported_iff (retains now ttl) (· ∈ r.silentCritical)

/-- A pass reports no retained device twice. -/
theorem Tracks.retained_nodup (h : r.Tracks calls) (ttl now : Int) :
    ((r.evictStaleRetainingCritical ttl now).retained.map (·.deviceID)).Nodup := by
  rw [evict_retained, List.map_filterMap]
  refine List.Nodup.filterMap ?_ (sortedKeys_nodup _ _)
  have hdevice : ∀ d b, b ∈ Option.map (·.deviceID) (if d ∈ r.silentCritical then none
      else (r.nodes.lookup d).filter (retains now ttl)) → b = d := by
    intro d b hb
    obtain ⟨n, hn, rfl⟩ := Option.map_eq_some_iff.mp hb
    split at hn
    · cases hn
    · exact h.deviceID d n (Option.filter_eq_some_iff.mp hn).1
  intro d d' b hb hb'
  rw [← hdevice d b hb, hdevice d' b hb']

end Registry

/-! ## Registries that differ in the clocks they do not measure with -/

/-- A node whose own clock is shifted, received at another reading of the wall clock. -/
def NodeHeartbeat.Alike (shift : Int) (n n' : NodeHeartbeat) : Prop :=
  ∃ wall, n' = { n with lastSeenMS := n.lastSeenMS + shift, gatewaySeen := wall }

/-- Calls that differ in the wall-clock readings, and in a shift of the clock of each device. -/
inductive RegistryCall.Alike (shift : Bytes → Int) : RegistryCall → RegistryCall → Prop
  | upsert (heartbeat : NodeHeartbeat) (wall wall' mono : Int) :
      RegistryCall.Alike shift (.upsert heartbeat wall mono)
        (.upsert { heartbeat with lastSeenMS := heartbeat.lastSeenMS + shift heartbeat.deviceID }
          wall' mono)
  | upsertPosture (deviceID : Bytes) (posture : SiteNodePosture) :
      RegistryCall.Alike shift (.upsertPosture deviceID posture) (.upsertPosture deviceID posture)
  | evict (ttl now : Int) : RegistryCall.Alike shift (.evict ttl now) (.evict ttl now)

namespace Registry

/-- Registries whose nodes differ so, and that agree on everything else. -/
structure Alike (shift : Bytes → Int) (r r' : Registry) : Prop where
  nodes : ∀ device, Option.Rel (NodeHeartbeat.Alike (shift device)) (r.nodes.lookup device)
    (r'.nodes.lookup device)
  evidence : r'.evidence = r.evidence
  exportSeverity : r'.exportSeverity = r.exportSeverity
  silentCritical : r'.silentCritical = r.silentCritical

variable {shift : Bytes → Int} {r r' : Registry}

/-- **The nodes of a device in alike registries**: neither is there, or they are alike. -/
@[elab_as_elim]
theorem Alike.lookup_rule {P : Option NodeHeartbeat → Option NodeHeartbeat → Prop}
    (h : r.Alike shift r') (device : Bytes) (none : P none none)
    (some : ∀ n n', n.Alike (shift device) n' → P (some n) (some n')) :
    P (r.nodes.lookup device) (r'.nodes.lookup device) := by
  have hnode := h.nodes device
  generalize r.nodes.lookup device = node at hnode
  generalize r'.nodes.lookup device = node' at hnode
  cases hnode with
  | none => exact none
  | some halike => exact some _ _ halike

theorem alike_newRegistry : newRegistry.Alike shift newRegistry where
  nodes := fun device => by simp [newRegistry]
  evidence := rfl
  exportSeverity := rfl
  silentCritical := rfl

/-- A shift of a device's clock does not change when its report moved. -/
theorem Alike.advanced_eq (h : r.Alike shift r') (heartbeat : NodeHeartbeat) (mono : Int) :
    r'.advanced { heartbeat with lastSeenMS := heartbeat.lastSeenMS + shift heartbeat.deviceID }
      mono = r.advanced heartbeat mono := by
  unfold advanced
  refine h.lookup_rule heartbeat.deviceID rfl ?_
  rintro previous _ ⟨wall, rfl⟩
  simp only [add_le_add_iff_right]

/-- Alike heartbeats leave alike registries. -/
theorem Alike.upsert (h : r.Alike shift r') (heartbeat : NodeHeartbeat) (wall wall' mono : Int) :
    (r.upsert heartbeat wall mono).Alike shift
      (r'.upsert { heartbeat with lastSeenMS := heartbeat.lastSeenMS + shift heartbeat.deviceID }
        wall' mono) := by
  have htrack : r'.trackEvidence
      { heartbeat with lastSeenMS := heartbeat.lastSeenMS + shift heartbeat.deviceID } =
        r.trackEvidence heartbeat := by
    unfold trackEvidence
    rw [h.evidence]
  refine ⟨fun device => ?_, congrArg Prod.fst htrack, h.exportSeverity, ?_⟩
  · rw [lookup_upsert, lookup_upsert]
    by_cases hdevice : device = heartbeat.deviceID
    · rw [if_pos hdevice, if_pos hdevice, hdevice]
      refine .some ⟨wall', ?_⟩
      simp only [stamped, htrack, h.advanced_eq, severityOf, h.exportSeverity]
    · rw [if_neg hdevice, if_neg hdevice]
      exact h.nodes device
  · show r'.silentCritical.erase heartbeat.deviceID = _
    rw [h.silentCritical]
    rfl

/-- A posture leaves alike registries. -/
theorem Alike.upsertPosture (h : r.Alike shift r') (deviceID : Bytes) (posture : SiteNodePosture) :
    (r.upsertPosture deviceID posture).Alike shift (r'.upsertPosture deviceID posture) := by
  have hrecord : (r'.recordSeverity deviceID posture).exportSeverity =
      (r.recordSeverity deviceID posture).exportSeverity := by
    unfold recordSeverity
    split
    · show r'.exportSeverity.insert _ _ = _
      rw [h.exportSeverity]
    · exact h.exportSeverity
  refine ⟨fun device => ?_, ?_, ?_, ?_⟩
  · rw [lookup_upsertPosture, lookup_upsertPosture]
    split
    · refine h.lookup_rule device .none ?_
      rintro n _ ⟨wall, rfl⟩
      refine .some ⟨wall, ?_⟩
      rw [severityOf, severityOf, hrecord]
    · exact h.nodes device
  · rw [upsertPosture_evidence, upsertPosture_evidence, h.evidence]
  · rw [upsertPosture_exportSeverity, upsertPosture_exportSeverity, hrecord]
  · rw [upsertPosture_silentCritical, upsertPosture_silentCritical, h.silentCritical]

theorem Alike.filter_lookup (h : r.Alike shift r') {p : NodeHeartbeat → Bool}
    (hp : ∀ c n n', NodeHeartbeat.Alike c n n' → p n' = p n) (device : Bytes) :
    Option.Rel (NodeHeartbeat.Alike (shift device)) ((r.nodes.lookup device).filter p)
      ((r'.nodes.lookup device).filter p) := by
  refine h.lookup_rule device .none fun n n' halike => ?_
  have hpn := hp _ n n' halike
  cases htest : p n with
  | true => simpa [Option.filter, htest, hpn.trans htest] using halike
  | false => simp [Option.filter, htest, hpn.trans htest]

theorem Alike.any_lookup (h : r.Alike shift r') {p : NodeHeartbeat → Bool}
    (hp : ∀ c n n', NodeHeartbeat.Alike c n n' → p n' = p n) (device : Bytes) :
    (r'.nodes.lookup device).any p = (r.nodes.lookup device).any p :=
  h.lookup_rule device rfl fun n n' halike => hp _ n n' halike

theorem evicts_of_alike (now ttl c : Int) (n n' : NodeHeartbeat) (h : n.Alike c n') :
    evicts now ttl n' = evicts now ttl n := by
  obtain ⟨wall, rfl⟩ := h
  rfl

theorem retains_of_alike (now ttl c : Int) (n n' : NodeHeartbeat) (h : n.Alike c n') :
    retains now ttl n' = retains now ttl n := by
  obtain ⟨wall, rfl⟩ := h
  rfl

/-- A pass leaves alike registries. -/
theorem Alike.evict (h : r.Alike shift r') (ttl now : Int) :
    (r.evictStaleRetainingCritical ttl now).registry.Alike shift
      (r'.evictStaleRetainingCritical ttl now).registry := by
  refine ⟨fun device => ?_, ?_, ?_, ?_⟩
  · rw [lookup_evictStaleRetainingCritical, lookup_evictStaleRetainingCritical]
    exact h.filter_lookup (fun c n n' halike => by rw [evicts_of_alike now ttl c n n' halike])
      device
  · refine Finmap.ext_lookup fun device => ?_
    rw [lookup_evidence_evict, lookup_evidence_evict, h.any_lookup (evicts_of_alike now ttl),
      h.evidence]
  · rw [evictStaleRetainingCritical_exportSeverity, evictStaleRetainingCritical_exportSeverity,
      h.exportSeverity]
  · ext device
    rw [mem_silentCritical_evict, mem_silentCritical_evict, h.any_lookup (retains_of_alike now ttl),
      h.silentCritical]

theorem Alike.keys_eq (h : r.Alike shift r') : r'.nodes.keys = r.nodes.keys := by
  ext device
  rw [mem_keys_iff, mem_keys_iff]
  exact h.lookup_rule device (by simp) (by simp)

/-- A pass reports alike nodes. -/
theorem Alike.map_filterMap {β : Type} (h : r.Alike shift r') {f : NodeHeartbeat → β}
    (hf : ∀ device n n', n.Alike (shift device) n' → f n' = f n) {p : NodeHeartbeat → Bool}
    (hp : ∀ c n n', NodeHeartbeat.Alike c n n' → p n' = p n) (q : Bytes → Prop) [DecidablePred q] :
    ((sortedKeys (· ≤ ·) r'.nodes.keys).filterMap fun device =>
        if q device then none else (r'.nodes.lookup device).filter p).map f =
      ((sortedKeys (· ≤ ·) r.nodes.keys).filterMap fun device =>
        if q device then none else (r.nodes.lookup device).filter p).map f := by
  rw [h.keys_eq, List.map_filterMap, List.map_filterMap]
  refine List.filterMap_congr fun device _ => ?_
  split
  · rfl
  · have hnode := h.filter_lookup hp device
    generalize (r.nodes.lookup device).filter p = node at hnode
    generalize (r'.nodes.lookup device).filter p = node' at hnode
    cases hnode with
    | none => rfl
    | some halike => exact congrArg some (hf device _ _ halike)

/-- What the eviction passes of a history report: the nodes evicted, and those first found
silent. -/
def passes : Registry → List RegistryCall → List (List NodeHeartbeat × List NodeHeartbeat)
  | _, [] => []
  | r, .upsert heartbeat wall mono :: calls => passes (r.upsert heartbeat wall mono) calls
  | r, .upsertPosture deviceID posture :: calls => passes (r.upsertPosture deviceID posture) calls
  | r, .evict ttl now :: calls =>
    let e := r.evictStaleRetainingCritical ttl now
    (e.evicted, e.retained) :: passes e.registry calls

/-- What the eviction passes report of each node. -/
def reportsOf {β : Type} (f : NodeHeartbeat → β) (calls : List RegistryCall) :
    List (List β × List β) :=
  (passes newRegistry calls).map (Prod.map (List.map f) (List.map f))

/-- **Alike histories report alike nodes, and leave alike registries.** -/
theorem Alike.run {β : Type} {f : NodeHeartbeat → β}
    (hf : ∀ device n n', n.Alike (shift device) n' → f n' = f n) {calls calls' : List RegistryCall}
    (hcalls : List.Forall₂ (RegistryCall.Alike shift) calls calls') (h : r.Alike shift r') :
    (passes r' calls').map (Prod.map (List.map f) (List.map f)) =
        (passes r calls).map (Prod.map (List.map f) (List.map f)) ∧
      (calls.foldl runCall r).Alike shift (calls'.foldl runCall r') := by
  induction hcalls generalizing r r' with
  | nil => exact ⟨rfl, h⟩
  | cons hcall hcalls ih =>
    cases hcall with
    | upsert heartbeat wall wall' mono => exact ih (h.upsert heartbeat wall wall' mono)
    | upsertPosture deviceID posture => exact ih (h.upsertPosture deviceID posture)
    | evict ttl now =>
      obtain ⟨hreports, hafter⟩ := ih (h.evict ttl now)
      refine ⟨?_, hafter⟩
      have hevicted := h.map_filterMap hf (evicts_of_alike now ttl) fun _ => False
      have hretained := h.map_filterMap hf (retains_of_alike now ttl) (· ∈ r.silentCritical)
      simp only [if_false] at hevicted
      rw [passes, passes, List.map_cons, List.map_cons, hreports, Prod.map_apply, Prod.map_apply,
        evict_evicted, evict_evicted, hevicted, evict_retained, evict_retained, h.silentCritical,
        hretained]

end Registry

/-- Calls that differ only in the readings of the wall clock. -/
inductive RegistryCall.SameButWall : RegistryCall → RegistryCall → Prop
  | upsert (heartbeat : NodeHeartbeat) (wall wall' mono : Int) :
      RegistryCall.SameButWall (.upsert heartbeat wall mono) (.upsert heartbeat wall' mono)
  | same (call : RegistryCall) : RegistryCall.SameButWall call call

/-- A call with a constant added to what a device reports of its own clock. -/
def RegistryCall.shiftLastSeen (device : Bytes) (shift : Int) : RegistryCall → RegistryCall
  | .upsert heartbeat wall mono =>
    if heartbeat.deviceID = device then
      .upsert { heartbeat with lastSeenMS := heartbeat.lastSeenMS + shift } wall mono
    else .upsert heartbeat wall mono
  | call => call

/-- A node without the time at which the gateway saw it on its wall clock. -/
def NodeHeartbeat.withoutWall (n : NodeHeartbeat) : NodeHeartbeat := { n with gatewaySeen := 0 }

theorem RegistryCall.SameButWall.alike {call call' : RegistryCall} (h : call.SameButWall call') :
    call.Alike (fun _ => 0) call' := by
  cases h with
  | upsert heartbeat wall wall' mono =>
    have halike : RegistryCall.Alike (fun _ => 0) _ _ := .upsert heartbeat wall wall' mono
    simpa only [add_zero] using halike
  | same =>
    cases call with
    | upsert heartbeat wall mono =>
      have halike : RegistryCall.Alike (fun _ => 0) _ _ := .upsert heartbeat wall wall mono
      simpa only [add_zero] using halike
    | upsertPosture deviceID posture => exact .upsertPosture deviceID posture
    | evict ttl now => exact .evict ttl now

theorem RegistryCall.alike_shiftLastSeen (device : Bytes) (shift : Int) (call : RegistryCall) :
    call.Alike (fun d => if d = device then shift else 0) (call.shiftLastSeen device shift) := by
  cases call with
  | upsert heartbeat wall mono =>
    have halike : RegistryCall.Alike (fun d => if d = device then shift else 0) _ _ :=
      .upsert heartbeat wall wall mono
    rw [shiftLastSeen]
    by_cases hdevice : heartbeat.deviceID = device
    · simpa only [if_pos hdevice] using halike
    · simpa only [if_neg hdevice, add_zero] using halike
  | upsertPosture deviceID posture => exact .upsertPosture deviceID posture
  | evict ttl now => exact .evict ttl now

/-- Alike registries show the same staleness. -/
theorem stale_of_alike {shift : Bytes → Int} {calls calls' : List RegistryCall}
    (h : (Registry.runCalls calls).Alike shift (Registry.runCalls calls')) (opts : ProjectOptions)
    (nowMS receiptNow : Int) (gateway : GatewayView) :
    (project (Registry.runCalls calls') opts nowMS receiptNow gateway).nodes.map (·.stale) =
      (project (Registry.runCalls calls) opts nowMS receiptNow gateway).nodes.map (·.stale) := by
  simp only [project, List.map_map]
  refine List.map_congr_left fun device _ => ?_
  simp only [Function.comp_apply, projectNode, (Registry.tracks_runCalls _).lookup_observedNodes]
  refine h.lookup_rule device rfl ?_
  rintro n _ ⟨wall, rfl⟩
  rfl

/-- Registries that differ in wall-clock readings alone show the same nodes. -/
theorem nodes_of_alike {calls calls' : List RegistryCall}
    (h : (Registry.runCalls calls).Alike (fun _ => 0) (Registry.runCalls calls'))
    (opts : ProjectOptions) (nowMS receiptNow : Int) (gateway : GatewayView) :
    (project (Registry.runCalls calls') opts nowMS receiptNow gateway).nodes =
      (project (Registry.runCalls calls) opts nowMS receiptNow gateway).nodes := by
  simp only [project]
  refine List.map_congr_left fun device _ => ?_
  simp only [projectNode, (Registry.tracks_runCalls _).lookup_observedNodes]
  have hseverity : (Registry.runCalls calls').recordedSeverity =
      (Registry.runCalls calls).recordedSeverity := by
    funext device
    rw [Registry.recordedSeverity, h.exportSeverity, Registry.recordedSeverity]
  rw [hseverity]
  refine h.lookup_rule device rfl ?_
  rintro n _ ⟨wall, rfl⟩
  simp only [add_zero]
  rfl

/-- **Silence is measured on the monotonic clock.** Over every history of calls whose monotonic
readings are times since the clock's origin:

* histories that differ only in the readings of the wall clock report the same nodes, the time of
  that clock apart, and show the same nodes, so with the same staleness;
* a pass evicts a device exactly when it is the first one since the device's last heartbeat at which
  the device is not critical and more than the limit has passed since then; a critical device is
  never evicted;
* a pass reports a retained device exactly when it is the first one since the device's last
  heartbeat at which the device is silent, critical and still known, and reports it once;
* a constant added to all that a device reports of its own clock changes no staleness. -/
theorem silence_on_monotonic_clock (calls : List RegistryCall)
    (hreadings : ∀ call ∈ calls, call.SinceOrigin) :
    (∀ calls', List.Forall₂ RegistryCall.SameButWall calls calls' →
      Registry.reportsOf NodeHeartbeat.withoutWall calls' =
          Registry.reportsOf NodeHeartbeat.withoutWall calls ∧
        ∀ opts nowMS receiptNow gateway,
          (project (Registry.runCalls calls') opts nowMS receiptNow gateway).nodes =
            (project (Registry.runCalls calls) opts nowMS receiptNow gateway).nodes) ∧
    (∀ device ttl now, 0 ≤ now ∧ now ≤ maxInt64 →
      let pass := (Registry.runCalls calls).evictStaleRetainingCritical ttl now
      ((∃ n ∈ pass.evicted, n.deviceID = device) ↔
        Due device calls ttl now ∧ ¬EarlierPass (Due device) device calls) ∧
      (CriticalBy device calls → ¬∃ n ∈ pass.evicted, n.deviceID = device) ∧
      ((∃ n ∈ pass.retained, n.deviceID = device) ↔
        Retained device calls ttl now ∧ ¬EarlierPass (Retained device) device calls) ∧
      (pass.retained.map (·.deviceID)).Nodup) ∧
    ∀ device shift opts nowMS receiptNow gateway,
      (project (Registry.runCalls (calls.map (RegistryCall.shiftLastSeen device shift))) opts nowMS
          receiptNow gateway).nodes.map (·.stale) =
        (project (Registry.runCalls calls) opts nowMS receiptNow gateway).nodes.map (·.stale) := by
  have htracks := Registry.tracks_runCalls calls
  refine ⟨fun calls' hcalls => ?_, fun device ttl now hnow => ?_,
    fun device shift opts nowMS receiptNow gateway => ?_⟩
  · have halike : ∀ device n n', NodeHeartbeat.Alike ((fun _ : Bytes => 0) device) n n' →
        n'.withoutWall = n.withoutWall := by
      rintro device n n' ⟨wall, rfl⟩
      simp only [NodeHeartbeat.withoutWall, add_zero]
    obtain ⟨hreports, hafter⟩ := Registry.Alike.run halike
      (hcalls.imp fun _ _ hcall => hcall.alike) Registry.alike_newRegistry
    exact ⟨hreports, nodes_of_alike hafter⟩
  · intro pass
    have hhears := Registry.hears_runCalls hreadings device
    have hevicted := (htracks.mem_evicted_iff ttl now).trans
      (hhears.any_evicts_iff htracks hreadings ttl hnow)
    refine ⟨hevicted, fun hcritical hmem => (hevicted.mp hmem).1.1 hcritical, ?_,
      htracks.retained_nodup ttl now⟩
    rw [htracks.mem_retained_iff ttl now, hhears.any_retains_iff htracks hreadings ttl hnow,
      hhears.reported, and_comm]
  · have hcalls : List.Forall₂ (RegistryCall.Alike fun d => if d = device then shift else 0) calls
        (calls.map (RegistryCall.shiftLastSeen device shift)) := by
      rw [List.forall₂_map_right_iff]
      exact List.forall₂_same.mpr fun call _ => RegistryCall.alike_shiftLastSeen device shift call
    obtain ⟨-, hafter⟩ := Registry.Alike.run (f := fun _ => ()) (fun _ _ _ _ => rfl) hcalls
      Registry.alike_newRegistry
    exact stale_of_alike hafter opts nowMS receiptNow gateway

/-- One heartbeat, and nothing after it. -/
def quietHistory : List RegistryCall :=
  [.upsert
    { deviceID := ascii "dev", status := nodeStatusHealthy, lastSeenMS := 7, gatewaySeen := 0
      activeTriggers := none, degradationReasons := none, posture := none, evidence := none
      exportSeverity := [], receivedMono := 0, advancedMono := 0 } 5 0]

/-- The silent node is evicted once the limit has passed. -/
theorem silence_on_monotonic_clock_quietHistory :
    (∀ call ∈ quietHistory, call.SinceOrigin) ∧ Due (ascii "dev") quietHistory 10 20 ∧
      ∃ n ∈ ((Registry.runCalls quietHistory).evictStaleRetainingCritical 10 20).evicted,
        n.deviceID = ascii "dev" := by
  have hreadings : ∀ call ∈ quietHistory, call.SinceOrigin := by
    simp [quietHistory, RegistryCall.SinceOrigin, maxInt64]
  have hdue : Due (ascii "dev") quietHistory 10 20 := by
    refine ⟨?_, 0, by decide, by decide⟩
    rintro (hcritical | hcritical)
    · revert hcritical
      decide
    · cases hcritical
  have hfirst : ¬EarlierPass (Due (ascii "dev")) (ascii "dev") quietHistory := by
    rw [quietHistory, ← List.nil_append [RegistryCall.upsert ..], earlierPass_concat]
    rintro ⟨hother, -⟩
    revert hother
    decide
  refine ⟨hreadings, hdue, ?_⟩
  obtain ⟨-, hpasses, -⟩ := silence_on_monotonic_clock quietHistory hreadings
  exact (hpasses (ascii "dev") 10 20 (by decide)).1.mpr ⟨hdue, hfirst⟩

end OriGateway
