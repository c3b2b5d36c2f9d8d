import OriGateway.Evidence.Reopening

/-! # Reserved shares

With reserved capacity every configured device has an equal share of the queue's records and bytes,
and its evidence leaves one record and the bytes of a largest registration free. **`Shared`** says
so of the counters; every operation keeps it (**`Effect.shared`**), and since the shares add up to
at most the whole queue, room in a device's own share is room in the queue (**`Shared.room_items`**,
**`Shared.room_bytes`**). -/

namespace OriGateway

open Foundation

namespace DurableQueue

/-- **A queue whose devices keep to their shares.** -/
structure Shared (opts : QueueOptions) (q : DurableQueue) : Prop where
  reserved : q.reserved = true
  configured : q.configured = some opts.devices.toFinset
  shareItems_eq : q.shareItems = opts.maxItems / opts.devices.toFinset.card
  shareBytes_eq : q.shareBytes = opts.maxBytes / opts.devices.toFinset.card
  items_share : (opts.devices.toFinset.card : Int) * q.shareItems ≤ q.maxItems
  bytes_share : (opts.devices.toFinset.card : Int) * q.shareBytes ≤ q.maxBytes
  devices : ∀ id ∈ q.entries.keys, (q.entry id).lane.device ∈ opts.devices.toFinset
  items_le : ∀ device, GoMap.count q.deviceItems device ≤ q.shareItems
  evidence_items_le : ∀ device, GoMap.count q.laneItems ⟨device, .evidence⟩ ≤ q.shareItems - 1
  bytes_le : ∀ device, GoMap.count q.deviceBytes device ≤ q.shareBytes
  /-- Its evidence leaves the bytes of a largest registration free. -/
  evidence_bytes_le : ∀ device,
    GoMap.count q.laneBytes ⟨device, .evidence⟩ ≤ q.shareBytes - maxQueueRecordBytes

/-! ## A device's own checks -/

section Checks

variable {q : DurableQueue} {key : LaneKey}

theorem laneShareRefusal_zero : q.laneShareRefusal key 0 = none ↔
    GoMap.count q.deviceItems key.device < q.shareItems ∧
      (q.reserved = true → key.lane ≠ .registration →
        GoMap.count q.laneItems key < q.shareItems - 1) := by
  unfold laneShareRefusal
  simp only [Bool.and_eq_true, bne_iff_ne, ge_iff_le, if_true, ite_eq_right_iff, reduceCtorEq,
    imp_false, not_or, not_le, not_and, and_imp]

theorem laneShareRefusal_pos {size : Int} (hsize : 0 < size) :
    q.laneShareRefusal key size = none ↔
      GoMap.count q.deviceBytes key.device + size ≤ q.shareBytes ∧
        (q.reserved = true → key.lane ≠ .registration →
          GoMap.count q.laneBytes key + size ≤ q.shareBytes - maxQueueRecordBytes) := by
  unfold laneShareRefusal
  rw [if_neg hsize.ne']
  simp only [Bool.and_eq_true, bne_iff_ne, gt_iff_lt, ite_eq_right_iff, reduceCtorEq, imp_false,
    not_or, not_lt, not_and, and_imp]

theorem newRecord_marshal_pos (q : DurableQueue) (now : Int) {kind : ArtifactType}
    (hkind : validQueueArtifactType kind = true) (payload : Bytes) :
    (0 : Int) < ((q.newRecord now kind payload).marshal.length : Nat) := by
  have hlength := QueueRecord.marshal_length (r := q.newRecord now kind payload)
    (isPlain_artifactID kind payload) hkind
  omega

end Checks

/-! ## Operations -/

namespace Shared

variable {opts : QueueOptions} {q q' : DurableQueue}

theorem of_sameButFaults (h : Shared opts q) (hs : SameButFaults q q') : Shared opts q' := by
  rw [hs]
  exact { h with }

theorem of_unconfiguredChange (h : Shared opts q) (hc : UnconfiguredChange q q') :
    Shared opts q' := by
  rw [hc.same]
  exact { h with }

theorem forget (h : Shared opts q) (kind : Sidecar) (id : Bytes) :
    Shared opts (kind.forget id q) := by
  cases kind <;> exact { h with }

theorem admitted (h : Shared opts q) {now : Int} {kind : ArtifactType} {payload : Bytes}
    (hadmits : q.Admits now kind payload) : Shared opts (q.admitted now kind payload) := by
  obtain ⟨hconf, -, hitems, -, -, hbytes⟩ := insertRefusal_eq_none.mp hadmits.admitted
  have hpos := newRecord_marshal_pos q now hadmits.type_valid payload
  rw [laneShareRefusal_zero] at hitems
  rw [laneShareRefusal_pos hpos] at hbytes
  have hdevice : recordDevice payload ∈ opts.devices.toFinset := by
    simpa [isConfigured, h.configured] using hconf
  have hevidence : ∀ {device}, (⟨device, .evidence⟩ : LaneKey)
      = (q.newRecord now kind payload).lane → laneOfType kind ≠ .registration := by
    intro device hkey
    have hlane : Lane.evidence = laneOfType kind := congrArg LaneKey.lane hkey
    rw [← hlane]
    decide
  constructor
  case reserved => exact h.reserved
  case configured => exact h.configured
  case shareItems_eq => exact h.shareItems_eq
  case shareBytes_eq => exact h.shareBytes_eq
  case items_share => exact h.items_share
  case bytes_share => exact h.bytes_share
  case devices =>
    intro id hid
    obtain ⟨r, hr⟩ := mem_keys_iff.mp hid
    rw [entry_of_lookup hr]
    have hlookup := lookup_insert_ite q.entries (artifactID kind payload)
      (q.newRecord now kind payload) id
    rw [show (q.admitted now kind payload).entries.lookup id = _ from hlookup] at hr
    split at hr
    · cases hr
      exact hdevice
    · have := h.devices id (mem_keys_iff.mpr ⟨r, hr⟩)
      rwa [entry_of_lookup hr] at this
  case items_le =>
    intro device
    exact count_add_le (h.items_le device) fun _ => hitems.1
  case evidence_items_le =>
    intro device
    refine count_add_le (h.evidence_items_le device) fun hkey => ?_
    exact hitems.2 h.reserved (hevidence hkey)
  case bytes_le =>
    intro device
    exact count_add_le (h.bytes_le device) fun _ => hbytes.1
  case evidence_bytes_le =>
    intro device
    refine count_add_le (h.evidence_bytes_le device) fun hkey => ?_
    exact hbytes.2 h.reserved (hevidence hkey)

theorem retired (h : Shared opts q) (hq : Within opts q) {id : Bytes} {r : QueueRecord}
    (hlookup : q.entries.lookup id = some r) :
    Shared opts ((q.withoutSidecars id).removeEntry id) := by
  have hcons := hq.toConsistent.retired hlookup
  have hkeys : ((q.withoutSidecars id).removeEntry id).entries.keys = q.entries.keys.erase id :=
    Finmap.keys_erase _ _
  have hsub : ((q.withoutSidecars id).removeEntry id).entries.keys ⊆ q.entries.keys := by
    rw [hkeys]
    exact Finset.erase_subset _ _
  have hne : ∀ id' ∈ ((q.withoutSidecars id).removeEntry id).entries.keys, id' ≠ id := by
    intro id' hid'
    rw [hkeys] at hid'
    exact (Finset.mem_erase.mp hid').1
  have hentry : ∀ id' ∈ ((q.withoutSidecars id).removeEntry id).entries.keys,
      ((q.withoutSidecars id).removeEntry id).entry id' = q.entry id' := fun id' hid' =>
    removeEntry_entry_of_ne (hne id' hid')
  have hsize : ∀ id' ∈ ((q.withoutSidecars id).removeEntry id).entries.keys,
      ((q.withoutSidecars id).removeEntry id).size id' = q.size id' := fun id' hid' =>
    removeEntry_size_of_ne (hne id' hid')
  have hnonneg : ∀ id' ∈ q.entries.keys, 0 ≤ q.size id' := by
    intro id' hid'
    obtain ⟨r', hr'⟩ := mem_keys_iff.mp hid'
    rw [size, hq.sizes_eq id' r' hr', Option.getD_some]
    exact Int.natCast_nonneg _
  -- every counter falls or stays
  have hlane : ∀ id' ∈ ((q.withoutSidecars id).removeEntry id).entries.keys,
      (((q.withoutSidecars id).removeEntry id).entry id').lane = (q.entry id').lane :=
    fun id' hid' => by rw [hentry id' hid']
  have hdevice : ∀ id' ∈ ((q.withoutSidecars id).removeEntry id).entries.keys,
      (((q.withoutSidecars id).removeEntry id).entry id').lane.device
        = (q.entry id').lane.device := fun id' hid' => by rw [hentry id' hid']
  constructor
  case reserved => exact h.reserved
  case configured => exact h.configured
  case shareItems_eq => exact h.shareItems_eq
  case shareBytes_eq => exact h.shareBytes_eq
  case items_share => exact h.items_share
  case bytes_share => exact h.bytes_share
  case devices =>
    intro id' hid'
    rw [hentry id' hid']
    exact h.devices id' (hsub hid')
  case items_le =>
    exact fun device => (hq.devices.count_mono hcons.devices hsub hdevice device).trans
      (h.items_le device)
  case evidence_items_le =>
    exact fun device => (hq.lanes.count_mono hcons.lanes hsub hlane _).trans
      (h.evidence_items_le device)
  case bytes_le =>
    exact fun device => (hq.devices.sum_mono hcons.devices hsub hdevice hsize hnonneg device).trans
      (h.bytes_le device)
  case evidence_bytes_le =>
    exact fun device => (hq.lanes.sum_mono hcons.lanes hsub hlane hsize hnonneg _).trans
      (h.evidence_bytes_le device)

theorem of_reserveShares (hreserve : opts.reserveDeviceShares = true)
    (hshares : reserveShares opts (emptyQueue opts) = .ok q) : Shared opts q := by
  unfold reserveShares at hshares
  rw [hreserve, Bool.not_true, if_neg Bool.false_ne_true] at hshares
  have hconf : (emptyQueue opts).configured
      = if opts.devices = [] then none else some opts.devices.toFinset := rfl
  by_cases hnone : opts.devices = []
  · rw [hconf, if_pos hnone] at hshares
    cases hshares
  · rw [hconf, if_neg hnone] at hshares
    simp only at hshares
    split at hshares
    · cases hshares
    · next hmin =>
      cases hshares
      rw [not_or, not_lt, not_lt] at hmin
      have hcard : (opts.devices.toFinset.card : Int) ≠ 0 := by
        simpa using hnone
      have hsizes : (0 : Int) ≤ maxQueueRecordBytes ∧ (0 : Int) ≤ maxEvidenceRecordBytes := by
        decide +kernel
      have hitems : (2 : Int) ≤ opts.maxItems / opts.devices.toFinset.card := hmin.1
      have hbytes : maxQueueRecordBytes + maxEvidenceRecordBytes
          ≤ opts.maxBytes / opts.devices.toFinset.card := hmin.2
      constructor
      case reserved => rfl
      case configured => rfl
      case shareItems_eq => rfl
      case shareBytes_eq => rfl
      case items_share => exact Int.mul_ediv_self_le hcard
      case bytes_share => exact Int.mul_ediv_self_le hcard
      case devices => simp [emptyQueue]
      case items_le =>
        intro device
        change (0 : Int) ≤ opts.maxItems / opts.devices.toFinset.card
        omega
      case evidence_items_le =>
        intro device
        change (0 : Int) ≤ opts.maxItems / opts.devices.toFinset.card - 1
        omega
      case bytes_le =>
        intro device
        change (0 : Int) ≤ opts.maxBytes / opts.devices.toFinset.card
        omega
      case evidence_bytes_le =>
        intro device
        change (0 : Int) ≤ opts.maxBytes / opts.devices.toFinset.card - maxQueueRecordBytes
        omega

/-- **Room for a record in a device's share is room in the queue.** -/
theorem room_items (h : Shared opts q) (hq : Consistent q) {device : Bytes}
    (hdevice : device ∈ opts.devices.toFinset)
    (hroom : GoMap.count q.deviceItems device < q.shareItems) : q.len < q.maxItems := by
  have hcount : ∀ device, GoMap.count q.deviceItems device
      = ∑ _id ∈ classOf q.entries.keys (fun id => (q.entry id).lane.device) device, (1 : Int) := by
    intro device
    rw [hq.devices.count_eq, Finset.sum_const, nsmul_eq_mul, mul_one]
  have htotal := sum_add_le_of_shares (fun _ => 1) 1 h.devices
    (fun device _ => hcount device ▸ h.items_le device) hdevice
    (by rw [← hcount]; exact hroom)
  rw [Finset.sum_const, nsmul_eq_mul, mul_one] at htotal
  have := h.items_share
  rw [len]
  omega

/-- **Room for bytes in a device's share is room in the queue.** -/
theorem room_bytes (h : Shared opts q) (hq : Consistent q) {device : Bytes} {size : Int}
    (hdevice : device ∈ opts.devices.toFinset)
    (hroom : GoMap.count q.deviceBytes device + size ≤ q.shareBytes) :
    q.bytes + size ≤ q.maxBytes := by
  have htotal := sum_add_le_of_shares q.size size h.devices
    (fun device _ => hq.devices.sum_eq device ▸ h.bytes_le device) hdevice
    (by rw [← hq.devices.sum_eq]; exact hroom)
  rw [hq.bytes_eq]
  exact htotal.trans h.bytes_share

end Shared

end DurableQueue

open DurableQueue

/-- **Every operation keeps the devices to their shares.** -/
theorem Effect.shared {opts : QueueOptions} {op : QueueOp} {q q' : DurableQueue}
    {r : Except QueueError Unit} (h : Effect op q r q') (hq : Within opts q)
    (hs : Shared opts q) : Shared opts q' := by
  induction h with
  | refused | found | foundStaged | probed => exact hs
  | admitted hkind hadmits => exact hs.admitted hadmits
  | staged hadmits => exact hs.admitted hadmits
  | held | backedOff => exact { hs with }
  | cleared => exact hs.forget .backoff _
  | unheld e => exact hs.forget .hold _
  | bared e => exact (hs.forget .hold _).forget .backoff _
  | retired r hlookup => exact hs.retired hq hlookup
  | noted r hc => exact hs.of_unconfiguredChange hc
  | notedAdmitted hc => exact hs.of_unconfiguredChange hc
  | faults _ hsame ih => exact (ih hq hs).of_sameButFaults hsame

/-- **In every run from a fresh queue the devices keep to their shares**, as long as there are
places left. -/
theorem shared_runCalls {opts : QueueOptions} {q₀ : DurableQueue}
    (hreserve : opts.reserveDeviceShares = true)
    (hopen : openDurableQueueOutbound opts freshDirectory = .ok q₀) (temps : Nat)
    {calls : List QueueCall} (hcalls : calls.length < 2 ^ 62)
    (hops : ∀ c ∈ calls, c.op.outbound = true) {trace : Trace} {w : World DurableQueue}
    (hrun : runCalls calls (openedWorld q₀ freshDirectory temps) = .done trace w) :
    Within opts w.mem ∧ Roomy 1 w.mem ∧ Shared opts w.mem := by
  have hfresh : Shared opts q₀ := by
    obtain ⟨hitems, hbytes, -, q, hshares, -⟩ :=
      openDurableQueue_ok (openDurableQueueOutbound_ok.mp hopen).1
    have hopen' := (openDurableQueueOutbound_ok.mp hopen).1
    rw [openDurableQueue_freshDirectory hitems hbytes hshares] at hopen'
    cases hopen'
    exact .of_reserveShares hreserve hshares
  have hroom : Roomy (1 + calls.length) q₀ := roomy_of_fresh hopen (by omega)
  refine runCalls_induction
    (I := fun n w => Within opts w.mem ∧ Roomy n w.mem ∧ Shared opts w.mem) ?_ hops
    ⟨(within_of_fresh hopen).1, hroom, hfresh⟩ hrun
  intro n c w result w' hop ⟨hw, hroom, hs⟩ hcall
  have heffect := QueueCall.effect hw.toConsistent hcall
  exact ⟨heffect.within hop hw hroom.next_lt, heffect.roomy hroom, heffect.shared hw hs⟩

end OriGateway
