import OriGateway.Evidence.Shares

/-! # Admission

The courier's front door: an artifact's routing fields are checked, the artifact is queued, and of
an envelope custody is acknowledged. With reserved shares two things follow. A device without a
queued registration can always queue one (**`registration_never_full`**), and whether a device is
told that the queue is full is decided by its own counters and the size of its own record
(**`queueFull_iff_ownShareFull`**). -/

namespace OriGateway

open Foundation

/-! ## The courier's front door -/

/-- What an admission reports, with the acknowledgement of custody of an envelope. -/
structure Admission (A : Type) where
  queued : QueuedArtifact
  new : Bool
  custody : Option A

/-- Why an admission fails. -/
inductive AdmitError (A : Type) where
  /-- The routing fields are refused, before anything is queued. -/
  | refused (e : AdmissionRefusal)
  | queue (e : QueueError)
  /-- "decode queued envelope routing fields". -/
  | envelopeRouting (admission : Admission A) (e : RoutingError)
  /-- The acknowledgement could not be constructed; the artifact is queued. -/
  | custodyConstruction (admission : Admission A)

/-- A signer of custody acknowledgements: of a device's sequence, the digest of its envelope and the
time it was queued. -/
abbrev Signer (A : Type) := Bytes → Int → Bytes → Int → Option A

namespace Courier

open DurableQueue

/-- **Admit an outbound artifact.** -/
def admitArtifact {A : Type} (signer : Option (Signer A)) (now : Int) (kind : ArtifactType)
    (payload : Bytes) : FsM DurableQueue (Except (AdmitError A) (Admission A)) := do
  let q ← FsM.getMem
  match validateArtifactRoutingFields kind payload q.routingDeviceID with
  | .error e => return .error (.refused e)
  | .ok () =>
    match ← enqueueOutbound now kind payload with
    | .error e => return .error (.queue e)
    | .ok (queued, isNew) =>
      let admission : Admission A := ⟨queued, isNew, none⟩
      match kind, signer with
      | .deliveryEnvelope, some acknowledge =>
        match decodeRouting outboundSchema payload with
        | .error e => return .error (.envelopeRouting admission e)
        | .ok envelope =>
          match acknowledge envelope.deviceID envelope.localSeq (payloadDigest payload)
              queued.enqueuedAtMS with
          | none => return .error (.custodyConstruction admission)
          | some ack => return .ok { admission with custody := some ack }
      | _, _ => return .ok admission

/-- An admission fails in the queue only when queueing does, and after its fields passed. -/
theorem wp_admitArtifact {A : Type} {signer : Option (Signer A)} {now : Int} {kind : ArtifactType}
    {payload : Bytes} {w : World DurableQueue}
    {Q : Except (AdmitError A) (Admission A) → World DurableQueue → Prop}
    {C : World DurableQueue → Prop} (hrefused : ∀ e, Q (.error (.refused e)) w)
    (hqueue : validateArtifactRoutingFields kind payload w.mem.routingDeviceID = .ok () →
      wp (enqueueOutbound now kind payload) (fun r w' =>
        (∀ e, r = .error e → Q (.error (.queue e)) w') ∧
        (∀ queued, r = .ok queued → ∀ result, (∀ e, result ≠ .error (.queue e)) → Q result w'))
        C w) :
    wp (admitArtifact signer now kind payload) Q C w := by
  unfold admitArtifact
  simp only [wp_bind, wp_getMem]
  cases hrouting : validateArtifactRoutingFields kind payload w.mem.routingDeviceID with
  | error e => exact hrefused e
  | ok _ =>
    simp only [wp_bind]
    refine wp_post (hqueue hrouting) ?_
    rintro (e | ⟨queued, isNew⟩) w' ⟨herror, hok⟩
    · exact herror e rfl
    · have hany := hok (queued, isNew) rfl
      simp only
      split
      · split
        · exact hany _ fun _ h => by cases h
        · split
          · exact hany _ fun _ h => by cases h
          · exact hany _ fun _ h => by cases h
      · exact hany _ fun _ h => by cases h

end Courier

/-! ## Refusals of a full queue -/

namespace DurableQueue

section Refusals

variable {now : Int} {kind : ArtifactType} {payload : Bytes} {w : World DurableQueue}

/-- "Full" is the answer of a check. -/
theorem wp_enqueueOutbound_full :
    wp (enqueueOutbound now kind payload)
      (fun r _ => ∀ limit, r = .error (.queueFull limit) →
        w.mem.Refuses now kind payload (.queueFull limit)) (fun _ => True) w := by
  refine wp_enqueueOutbound (fun _ _ h => by cases h) fun _ => ?_
  refine wp_enqueueOrFind ?_ (fun _ _ _ h => by cases h) fun _ => ?_
  · intro e he limit h
    cases h
    exact he
  · refine wp_commitFile ?_ ?_ ?_ fun _ _ _ => trivial
    · intro w' _ _ _ _ limit h
      cases h
    · intro w' _ _ _ limit h
      cases h
    · intro e w' _ _ _ _ limit h
      cases h

/-- An artifact that is not queued and that a check refuses is refused so, and nothing is
written. -/
theorem wp_enqueueOutbound_check (hkind : validOutboundArtifactType kind = true)
    (hpayload : payload ≠ []) (habsent : w.mem.entries.lookup (artifactID kind payload) = none)
    {e : QueueError} (hrefusal : w.mem.insertRefusal now kind payload = some e) :
    wp (enqueueOutbound now kind payload) (fun r w' => r = .error e ∧ w' = w) (fun _ => False)
      w := by
  refine wp_enqueueOutbound (fun hother => ?_) fun _ => ?_
  · rw [hkind] at hother
    cases hother
  · refine wp_enqueueOrFind (fun e' he' => ?_) (fun r hr => ?_) fun hadmits => ?_
    · cases he' with
      | type hother =>
        rw [validQueueArtifactType_of_outbound hkind] at hother
        cases hother
      | empty hempty => exact absurd hempty hpayload
      | check _ _ h =>
        rw [hrefusal] at h
        cases h
        exact ⟨rfl, rfl⟩
    · rw [habsent] at hr
      cases hr
    · have := hadmits.admitted
      rw [hrefusal] at this
      cases this

end Refusals

/-- What a device has queued: its own counters. -/
structure OwnLoad where
  items : Int
  laneItems : Int
  bytes : Int
  laneBytes : Int
  deriving DecidableEq

/-- The load of a lane and of its device. -/
def ownLoad (q : DurableQueue) (key : LaneKey) : OwnLoad where
  items := GoMap.count q.deviceItems key.device
  laneItems := GoMap.count q.laneItems key
  bytes := GoMap.count q.deviceBytes key.device
  laneBytes := GoMap.count q.laneBytes key

/-- Whether a device's own share is full for a record of its own, of its size and at a clock
reading: what the device is to be told whatever the other devices have queued. -/
def OwnShareFull (shareItems shareBytes : Int) (lane : Lane) (load : OwnLoad) (size now : Int) :
    Prop :=
  shareItems ≤ load.items ∨ lane ≠ .registration ∧ shareItems - 1 ≤ load.laneItems ∨
    0 < now ∧ (shareBytes < load.bytes + size ∨
      lane ≠ .registration ∧ shareBytes - maxQueueRecordBytes < load.laneBytes + size)

theorem insertRefusal_eq_queueFull {q : DurableQueue} {now : Int} {kind : ArtifactType}
    {payload : Bytes} (hconf : q.isConfigured (recordDevice payload) = true) :
    (∃ limit, q.insertRefusal now kind payload = some (.queueFull limit)) ↔
      q.maxItems ≤ q.len ∨ q.laneShareRefusal ⟨recordDevice payload, laneOfType kind⟩ 0 ≠ none ∨
        0 < int64 now ∧
        (q.maxBytes < q.bytes + ((q.newRecord now kind payload).marshal.length : Nat) ∨
          q.laneShareRefusal ⟨recordDevice payload, laneOfType kind⟩
            ((q.newRecord now kind payload).marshal.length : Nat) ≠ none) := by
  unfold insertRefusal
  simp only [hconf, Bool.not_true, Bool.false_eq_true, if_false, ge_iff_le, gt_iff_lt]
  by_cases hlen : q.maxItems ≤ q.len
  · simp [hlen]
  · cases q.laneShareRefusal ⟨recordDevice payload, laneOfType kind⟩ 0 with
    | some limit => simp [hlen]
    | none =>
      by_cases hnow : int64 now ≤ 0
      · simp [hlen, hnow, Int.not_lt.mpr hnow]
      · by_cases hbytes :
          q.maxBytes < q.bytes + ((q.newRecord now kind payload).marshal.length : Nat)
        · simp [hlen, hnow, hbytes, Int.not_le.mp hnow]
        · cases q.laneShareRefusal ⟨recordDevice payload, laneOfType kind⟩
            ((q.newRecord now kind payload).marshal.length : Nat) <;>
          simp [hlen, hnow, hbytes, Int.not_le.mp hnow]

namespace Shared

variable {opts : QueueOptions} {q : DurableQueue} {now : Int} {kind : ArtifactType}
  {payload : Bytes}

/-- **Whether the queue is full for a record is decided by its device's own counters.** Where the
whole queue has no room the device's share has none. -/
theorem insertRefusal_full (h : Shared opts q) (hq : Consistent q)
    (hkind : validQueueArtifactType kind = true)
    (hdevice : recordDevice payload ∈ opts.devices.toFinset) :
    (∃ limit, q.insertRefusal now kind payload = some (.queueFull limit)) ↔
      OwnShareFull q.shareItems q.shareBytes (laneOfType kind)
        (q.ownLoad ⟨recordDevice payload, laneOfType kind⟩)
        ((q.newRecord now kind payload).marshal.length : Nat) (int64 now) := by
  have hconf : q.isConfigured (recordDevice payload) = true := by
    simpa [isConfigured, h.configured] using hdevice
  rw [insertRefusal_eq_queueFull hconf, Ne, Ne, laneShareRefusal_zero,
    laneShareRefusal_pos (newRecord_marshal_pos q now hkind payload)]
  have hitems := h.room_items hq hdevice
  have hbytes : _ → q.bytes + ((q.newRecord now kind payload).marshal.length : Nat) ≤ q.maxBytes :=
    h.room_bytes hq hdevice
  simp only [h.reserved, true_imp_iff, OwnShareFull, ownLoad, not_and_or, Classical.not_imp, not_lt,
    not_le]
  constructor
  · rintro (hfull | hown | ⟨hnow, hfull | hown⟩)
    · exact .inl (not_lt.mp fun hroom => absurd (hitems hroom) (not_lt.mpr hfull))
    · exact hown.imp_right .inl
    · exact .inr (.inr
        ⟨hnow, .inl (not_le.mp fun hroom => absurd (hbytes hroom) (not_le.mpr hfull))⟩)
    · exact .inr (.inr ⟨hnow, hown⟩)
  · rintro (hown | hown | ⟨hnow, hown⟩)
    · exact .inr (.inl (.inl hown))
    · exact .inr (.inl (.inr hown))
    · exact .inr (.inr ⟨hnow, .inr hown⟩)

/-- **A device without a queued registration has room for one.** -/
theorem registration_room (h : Shared opts q) (hq : Within opts q)
    (hdevice : recordDevice payload ∈ opts.devices.toFinset)
    (hnone : ∀ id r, q.entries.lookup id = some r → r.lane ≠ ⟨recordDevice payload, .registration⟩)
    (hpayload : payload ≠ []) (hlength : payload.length ≤ maxArtifactBytes) (limit : Limit) :
    q.insertRefusal now .anchorRegistration payload ≠ some (.queueFull limit) := by
  -- all the device has queued is evidence, and evidence leaves room for a registration
  have hclass : classOf q.entries.keys (fun id => (q.entry id).lane.device) (recordDevice payload)
      = classOf q.entries.keys (fun id => (q.entry id).lane) ⟨recordDevice payload, .evidence⟩ := by
    apply Finset.filter_congr
    intro id hid
    obtain ⟨r, hr⟩ := mem_keys_iff.mp hid
    have hlane := hnone id r hr
    simp only [entry_of_lookup hr]
    rcases hr' : r.lane with ⟨device, lane⟩
    rw [hr'] at hlane
    cases lane with
    | evidence => simp
    | registration =>
      have hother : device ≠ recordDevice payload := fun heq => hlane (by rw [heq])
      simp [hother]
  have hitems : GoMap.count q.deviceItems (recordDevice payload)
      = GoMap.count q.laneItems ⟨recordDevice payload, .evidence⟩ := by
    rw [hq.devices.count_eq, hq.lanes.count_eq, hclass]
  have hbytes : GoMap.count q.deviceBytes (recordDevice payload)
      = GoMap.count q.laneBytes ⟨recordDevice payload, .evidence⟩ := by
    rw [hq.devices.sum_eq, hq.lanes.sum_eq, hclass]
  have hevidenceItems := h.evidence_items_le (recordDevice payload)
  have hevidenceBytes := h.evidence_bytes_le (recordDevice payload)
  intro hrefusal
  have hfull := (h.insertRefusal_full hq.toConsistent (by decide) hdevice).mp ⟨limit, hrefusal⟩
  rcases hfull with hfull | ⟨hlane, -⟩ | ⟨hpos, hfull | ⟨hlane, -⟩⟩
  · simp only [ownLoad] at hfull
    omega
  · exact hlane rfl
  · have hsound : (q.newRecord now .anchorRegistration payload).Sound :=
      hq.newRecord_sound (by decide) hpayload hpos
    have hsize := QueueRecord.marshal_length_le hsound hlength
    have hmax : maxQueueRecordBytes
        = maxRecordOverhead + (ArtifactType.anchorRegistration.name.length : Nat) := rfl
    simp only [ownLoad] at hfull
    simp only [newRecord] at hsize hfull
    omega
  · exact hlane rfl

end Shared

end DurableQueue

open DurableQueue Courier

def sharedOptions : QueueOptions where
  maxItems := 4
  maxBytes := 2 * minDeviceShareBytes
  devices := [ascii "d", ascii "e"]
  reserveDeviceShares := true
  versionedDevices := []
  faults := none
  faultSource := []

def sharedQueue : DurableQueue :=
  { emptyQueue sharedOptions with
    reserved := true, shareItems := 2, shareBytes := minDeviceShareBytes }

theorem openDurableQueueOutbound_sharedOptions :
    openDurableQueueOutbound sharedOptions freshDirectory = .ok sharedQueue := by
  have hshares : reserveShares sharedOptions (emptyQueue sharedOptions) = .ok sharedQueue := rfl
  exact openDurableQueueOutbound_ok.mpr
    ⟨openDurableQueue_freshDirectory (by decide) (by decide +kernel) hshares,
      by simp [sharedQueue, emptyQueue]⟩

/-! ## Admissions -/

section Admissions

variable {A : Type} {signer : Option (Signer A)} {now : Int} {kind : ArtifactType}
  {payload : Bytes} {w w' : World DurableQueue} {result : Except (AdmitError A) (Admission A)}

/-- "Full" is the answer of a check to an artifact whose fields passed and that is not queued. -/
theorem insertRefusal_of_admitArtifact {limit : Limit}
    (hrun : admitArtifact signer now kind payload w = .done result w')
    (hfull : result = .error (.queue (.queueFull limit))) :
    validateArtifactRoutingFields kind payload w.mem.routingDeviceID = .ok () ∧
      w.mem.Refuses now kind payload (.queueFull limit) := by
  suffices hall : wp (admitArtifact signer now kind payload) (fun r _ =>
      ∀ limit, r = .error (.queue (.queueFull limit)) →
        validateArtifactRoutingFields kind payload w.mem.routingDeviceID = .ok () ∧
          w.mem.Refuses now kind payload (.queueFull limit)) (fun _ => True) w from
    hall.done hrun limit hfull
  refine wp_admitArtifact (fun e limit h => by cases h) fun hrouting => ?_
  refine wp_post wp_enqueueOutbound_full (fun r w' hr => ⟨?_, ?_⟩)
  · intro e he limit h
    cases h
    exact ⟨hrouting, hr limit he⟩
  · intro queued _ result hother limit h
    exact absurd h (hother _)

/-- An artifact whose fields passed and that is not queued is refused as the check says. -/
theorem admitArtifact_of_insertRefusal {e : QueueError}
    (hrun : admitArtifact signer now kind payload w = .done result w')
    (hrouting : validateArtifactRoutingFields kind payload w.mem.routingDeviceID = .ok ())
    (habsent : w.mem.entries.lookup (artifactID kind payload) = none)
    (hrefusal : w.mem.insertRefusal now kind payload = some e) :
    result = .error (.queue e) := by
  have hkind := (length_le_of_validateArtifactRoutingFields hrouting).2
  have hpayload : payload ≠ [] := by
    rintro rfl
    simp [validateArtifactRoutingFields, hkind, decodeRouting_nil] at hrouting
  suffices hall : wp (admitArtifact signer now kind payload) (fun r _ =>
      validateArtifactRoutingFields kind payload w.mem.routingDeviceID = .ok () →
        r = .error (.queue e)) (fun _ => True) w from hall.done hrun hrouting
  unfold admitArtifact
  simp only [wp_bind, wp_getMem, hrouting]
  refine wp_mono (wp_enqueueOutbound_check hkind hpayload habsent hrefusal) ?_ fun _ hC => hC.elim
  rintro r w'' ⟨rfl, -⟩ -
  rfl

end Admissions

section SharedRuns

variable {opts : QueueOptions} {q₀ : DurableQueue} {calls : List QueueCall} {trace : Trace}
  {w w' : World DurableQueue} {A : Type} {now : Int} {kind : ArtifactType} {payload : Bytes}
  {result : Except (AdmitError A) (Admission A)}

/-- **The registration of a device that has none queued is never refused for want of room**,
whatever else is queued. -/
theorem registration_never_full (hreserve : opts.reserveDeviceShares = true)
    (hopen : openDurableQueueOutbound opts freshDirectory = .ok q₀) (temps : Nat)
    (hcalls : calls.length < 2 ^ 62) (hops : ∀ c ∈ calls, c.op.outbound = true)
    (hrun : runCalls calls (openedWorld q₀ freshDirectory temps) = .done trace w)
    (hdevice : recordDevice payload ∈ opts.devices)
    (hnone : ∀ id r, w.mem.entries.lookup id = some r →
      r.lane ≠ ⟨recordDevice payload, .registration⟩)
    (signer : Option (Signer A)) (script : List Outcome)
    (hadmitted : admitArtifact signer now .anchorRegistration payload { w with script := script }
      = .done result w') (limit : Limit) :
    result ≠ .error (.queue (.queueFull limit)) := by
  obtain ⟨hwithin, -, hshared⟩ := shared_runCalls hreserve hopen temps hcalls hops hrun
  intro hfull
  obtain ⟨hrouting, hrefuses⟩ := insertRefusal_of_admitArtifact hadmitted hfull
  cases hrefuses with
  | check hpayload _ hrefusal =>
    exact hshared.registration_room hwithin (List.mem_toFinset.mpr hdevice) hnone hpayload
      (length_le_of_validateArtifactRoutingFields hrouting).1 limit hrefusal

def smallArtifact : Bytes := ascii "\x7b\"device_id\":\"d\"\x7d"

def evidenceCalls : List QueueCall := [⟨.enqueue 1 .checkpoint smallArtifact, []⟩]

theorem registration_never_full_evidenceCalls :
    ∃ trace w result w',
      runCalls evidenceCalls (openedWorld sharedQueue freshDirectory 0) = .done trace w ∧
      w.mem.len = 1 ∧
      admitArtifact (A := Unit) none 2 .anchorRegistration smallArtifact { w with script := [] }
        = .done result w' ∧
      ∀ limit, result ≠ .error (.queue (.queueFull limit)) := by
  obtain ⟨trace, w, hrun, hw⟩ := Exec.returns_iff.mp (by decide +kernel : (runCalls evidenceCalls
    (openedWorld sharedQueue freshDirectory 0)).returns (fun _ w =>
      decide (w.mem.entries.keys = {artifactID .checkpoint smallArtifact}) &&
        decide ((w.mem.entry (artifactID .checkpoint smallArtifact)).lane.lane = .evidence) &&
        (admitArtifact (A := Unit) none 2 .anchorRegistration smallArtifact
          { w with script := [] }).returns fun _ _ => true) = true)
  simp only [Bool.and_eq_true, decide_eq_true_eq] at hw
  obtain ⟨⟨hkeys, hlane⟩, hadmitted⟩ := hw
  obtain ⟨result, w', hadmitted, -⟩ := Exec.returns_iff.mp hadmitted
  refine ⟨trace, w, result, w', hrun, by simp [len, hkeys], hadmitted, ?_⟩
  refine registration_never_full rfl openDurableQueueOutbound_sharedOptions 0 (by decide)
    (by decide)
    hrun (by decide +kernel) (fun id r hr heq => ?_) none [] hadmitted
  have hid : id = artifactID .checkpoint smallArtifact := by
    have hmem := mem_keys_iff.mpr ⟨r, hr⟩
    rwa [hkeys, Finset.mem_singleton] at hmem
  rw [← hid, entry_of_lookup hr, heq] at hlane
  cases hlane

/-- **A device is told that the queue is full by its own share alone**: by its own counters and the
size of its own record, whatever the other devices have queued. So one that passes the checks of its
own share is never told so. -/
theorem queueFull_iff_ownShareFull (hreserve : opts.reserveDeviceShares = true)
    (hopen : openDurableQueueOutbound opts freshDirectory = .ok q₀) (temps : Nat)
    (hcalls : calls.length < 2 ^ 62) (hops : ∀ c ∈ calls, c.op.outbound = true)
    (hrun : runCalls calls (openedWorld q₀ freshDirectory temps) = .done trace w)
    (hdevice : recordDevice payload ∈ opts.devices) (signer : Option (Signer A))
    (script : List Outcome)
    (hadmitted : admitArtifact signer now kind payload { w with script := script }
      = .done result w') :
    ((∃ limit, result = .error (.queue (.queueFull limit))) ↔
      validateArtifactRoutingFields kind payload w.mem.routingDeviceID = .ok () ∧
        w.mem.entries.lookup (artifactID kind payload) = none ∧
        OwnShareFull (opts.maxItems / opts.devices.toFinset.card)
          (opts.maxBytes / opts.devices.toFinset.card) (laneOfType kind)
          (w.mem.ownLoad ⟨recordDevice payload, laneOfType kind⟩)
          ((w.mem.newRecord now kind payload).marshal.length : Nat) (int64 now)) ∧
    (w.mem.laneShareRefusal ⟨recordDevice payload, laneOfType kind⟩ 0 = none →
      w.mem.laneShareRefusal ⟨recordDevice payload, laneOfType kind⟩
        ((w.mem.newRecord now kind payload).marshal.length : Nat) = none →
      ∀ limit, result ≠ .error (.queue (.queueFull limit))) := by
  obtain ⟨hwithin, -, hshared⟩ := shared_runCalls hreserve hopen temps hcalls hops hrun
  have hmem : recordDevice payload ∈ opts.devices.toFinset := List.mem_toFinset.mpr hdevice
  have hown : (∃ limit, result = .error (.queue (.queueFull limit))) ↔
      validateArtifactRoutingFields kind payload w.mem.routingDeviceID = .ok () ∧
        w.mem.entries.lookup (artifactID kind payload) = none ∧
        OwnShareFull w.mem.shareItems w.mem.shareBytes (laneOfType kind)
          (w.mem.ownLoad ⟨recordDevice payload, laneOfType kind⟩)
          ((w.mem.newRecord now kind payload).marshal.length : Nat) (int64 now) := by
    constructor
    · rintro ⟨limit, hfull⟩
      obtain ⟨hrouting, hrefuses⟩ := insertRefusal_of_admitArtifact hadmitted hfull
      have hkind := validQueueArtifactType_of_outbound
        (length_le_of_validateArtifactRoutingFields hrouting).2
      cases hrefuses with
      | check _ habsent hrefusal =>
        exact ⟨hrouting, habsent,
          (hshared.insertRefusal_full hwithin.toConsistent hkind hmem).mp ⟨limit, hrefusal⟩⟩
    · rintro ⟨hrouting, habsent, hfull⟩
      have hkind := validQueueArtifactType_of_outbound
        (length_le_of_validateArtifactRoutingFields hrouting).2
      obtain ⟨limit, hrefusal⟩ :=
        (hshared.insertRefusal_full hwithin.toConsistent hkind hmem).mpr hfull
      exact ⟨limit, admitArtifact_of_insertRefusal hadmitted hrouting habsent hrefusal⟩
  refine ⟨?_, fun hitems hbytes limit hfull => ?_⟩
  · rw [← hshared.shareItems_eq, ← hshared.shareBytes_eq]
    exact hown
  · obtain ⟨hrouting, -, hfull⟩ := hown.mp ⟨limit, hfull⟩
    have hkind := validQueueArtifactType_of_outbound
      (length_le_of_validateArtifactRoutingFields hrouting).2
    rw [laneShareRefusal_zero] at hitems
    rw [laneShareRefusal_pos (newRecord_marshal_pos _ _ hkind _)] at hbytes
    rcases hfull with hfull | ⟨hlane, hfull⟩ | ⟨-, hfull | ⟨hlane, hfull⟩⟩
    · exact absurd hitems.1 (not_lt.mpr hfull)
    · exact absurd (hitems.2 hshared.reserved hlane) (not_lt.mpr hfull)
    · exact absurd hbytes.1 (not_le.mpr hfull)
    · exact absurd (hbytes.2 hshared.reserved hlane) (not_le.mpr hfull)

/-- An envelope of the same device, whose evidence already takes all but the reserved slot. -/
def smallEnvelope : Bytes := ascii "\x7b\"device_id\":\"d\",\"local_seq\":1\x7d"

def isFull {A : Type} : Except (AdmitError A) (Admission A) → Bool
  | .error (.queue (.queueFull _)) => true
  | _ => false

theorem queueFull_iff_ownShareFull_evidenceCalls :
    ∃ trace w result w',
      runCalls evidenceCalls (openedWorld sharedQueue freshDirectory 0) = .done trace w ∧
      admitArtifact (A := Unit) none 2 .deliveryEnvelope smallEnvelope { w with script := [] }
        = .done result w' ∧
      (∃ limit, result = .error (.queue (.queueFull limit))) ∧
      OwnShareFull (sharedOptions.maxItems / sharedOptions.devices.toFinset.card)
        (sharedOptions.maxBytes / sharedOptions.devices.toFinset.card) .evidence
        (w.mem.ownLoad ⟨recordDevice smallEnvelope, .evidence⟩)
        ((w.mem.newRecord 2 .deliveryEnvelope smallEnvelope).marshal.length : Nat) 2 := by
  obtain ⟨trace, w, hrun, hadmitted⟩ := Exec.returns_iff.mp (by decide +kernel : (runCalls
    evidenceCalls (openedWorld sharedQueue freshDirectory 0)).returns (fun _ w =>
      (admitArtifact (A := Unit) none 2 .deliveryEnvelope smallEnvelope
        { w with script := [] }).returns fun r _ => isFull r) = true)
  obtain ⟨result, w', hadmitted, hresult⟩ := Exec.returns_iff.mp hadmitted
  have hfull : ∃ limit, result = .error (.queue (.queueFull limit)) := by
    unfold isFull at hresult
    split at hresult
    · exact ⟨_, rfl⟩
    · cases hresult
  have howned := (queueFull_iff_ownShareFull rfl openDurableQueueOutbound_sharedOptions 0
    (by decide) (by decide) hrun (by decide +kernel) none [] hadmitted).1.mp hfull
  exact ⟨trace, w, result, w', hrun, hadmitted, hfull, howned.2.2⟩

end SharedRuns

end OriGateway
