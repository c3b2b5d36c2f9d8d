import OriGateway.Evidence.Recovery

/-! # Memories that reopen

What the memory of an outbound queue keeps besides its consistency: it is within the bounds it was
opened with, its sizes are those of its records' bytes, and its sidecars pass the loader's checks.
Every operation keeps this (**`Effect.within`**), and a directory that holds the records of such a
memory, with any valid sidecars, opens again (**`Within.reopens`**). -/

namespace OriGateway

open Foundation

namespace DurableQueue

/-- **A memory within the bounds of its options** whose content the loader would accept. -/
structure Within (opts : QueueOptions) (q : DurableQueue) : Prop extends Consistent q where
  maxItems_eq : q.maxItems = opts.maxItems
  maxBytes_eq : q.maxBytes = opts.maxBytes
  items_le : q.len ≤ q.maxItems
  bytes_le : q.bytes ≤ q.maxBytes
  sizes_eq : ∀ id r, q.entries.lookup id = some r →
    q.sizes.lookup id = some ((r.marshal.length : Nat) : Int)
  outbound : ∀ id r, q.entries.lookup id = some r → validOutboundArtifactType r.type = true
  holds_valid : ∀ id h, q.holds.lookup id = some h →
    ∃ r, q.entries.lookup id = some r ∧ validateHoldRecord h r = .ok ()
  backoffs_valid : ∀ id b, q.backoffs.lookup id = some b →
    b.queueRecord = id ∧ validateBackoffRecord b = .ok ()
  devices_kept : DevicesKept q

namespace Within

variable {opts : QueueOptions} {q q' : DurableQueue}

theorem of_sameButFaults (h : Within opts q) (hs : SameButFaults q q') : Within opts q' := by
  rw [hs]
  exact { h with devices_kept := { h.devices_kept with } }

theorem of_unconfiguredChange (h : Within opts q) (hc : UnconfiguredChange q q') :
    Within opts q' := by
  have hkept : DevicesKept q' :=
    ⟨hc.valid h.devices_kept.valid, hc.card_le h.devices_kept.card_le⟩
  have hsame := hc.same
  rw [hsame]
  rw [hsame] at hkept
  exact { h with devices_kept := hkept }

theorem forget (h : Within opts q) (kind : Sidecar) (id : Bytes) :
    Within opts (kind.forget id q) := by
  have hcons := h.toConsistent.forget kind id
  cases kind with
  | hold =>
    refine { hcons, h with holds_valid := ?_, devices_kept := { h.devices_kept with } }
    exact fun id' r hr => h.holds_valid id' r (lookup_of_erase hr)
  | backoff =>
    refine { hcons, h with backoffs_valid := ?_, devices_kept := { h.devices_kept with } }
    exact fun id' r hr => h.backoffs_valid id' r (lookup_of_erase hr)

theorem insertHold (h : Within opts q) {id : Bytes} {r : HoldRecord} {queued : QueueRecord}
    (hlookup : q.entries.lookup id = some queued)
    (hcheck : validateHoldRecord r queued = .ok ()) :
    Within opts { q with holds := q.holds.insert id r } := by
  have hcons := h.toConsistent.insertHold (mem_keys_iff.mpr ⟨queued, hlookup⟩) r
  refine { hcons, h with holds_valid := ?_, devices_kept := { h.devices_kept with } }
  exact forall_lookup_insert h.holds_valid ⟨queued, hlookup, hcheck⟩

theorem insertBackoff (h : Within opts q) {id : Bytes} {r : BackoffRecord}
    (hid : id ∈ q.entries.keys) (hnames : r.queueRecord = id)
    (hcheck : validateBackoffRecord r = .ok ()) :
    Within opts { q with backoffs := q.backoffs.insert id r } := by
  have hcons := h.toConsistent.insertBackoff hid r
  refine { hcons, h with backoffs_valid := ?_, devices_kept := { h.devices_kept with } }
  exact forall_lookup_insert h.backoffs_valid ⟨hnames, hcheck⟩

theorem admitted (h : Within opts q) (hroom : q.nextSeq < maxInt64) {now : Int}
    {kind : ArtifactType} {payload : Bytes} (hkind : validOutboundArtifactType kind = true)
    (hadmits : q.Admits now kind payload) : Within opts (q.admitted now kind payload) := by
  obtain ⟨-, hlen, -, -, hbytes, -⟩ := insertRefusal_eq_none.mp hadmits.admitted
  have hentries : ∀ id, (q.admitted now kind payload).entries.lookup id
      = if id = artifactID kind payload then some (q.newRecord now kind payload)
        else q.entries.lookup id :=
    lookup_insert_ite q.entries _ _
  have hsizes : ∀ id, (q.admitted now kind payload).sizes.lookup id
      = if id = artifactID kind payload then
          some (((q.newRecord now kind payload).marshal.length : Nat) : Int)
        else q.sizes.lookup id :=
    lookup_insert_ite q.sizes _ _
  refine
    { (h.toConsistent.admitted hroom hadmits).consistent with
      maxItems_eq := h.maxItems_eq
      maxBytes_eq := h.maxBytes_eq
      items_le := ?_
      bytes_le := hbytes
      sizes_eq := fun id r hr => ?_
      outbound := fun id r hr => ?_
      holds_valid := fun id r hr => ?_
      backoffs_valid := h.backoffs_valid
      devices_kept := { h.devices_kept with } }
  · have hkeys : (q.admitted now kind payload).entries.keys
        = insert (artifactID kind payload) q.entries.keys := keys_insert _ _ _
    have hcard := Finset.card_insert_le (artifactID kind payload) q.entries.keys
    rw [len, hkeys]
    rw [len] at hlen
    change _ ≤ q.maxItems
    omega
  · rw [hentries] at hr
    rw [hsizes]
    split at hr
    · next heq =>
      cases hr
      rw [if_pos heq]
    · next hne =>
      rw [if_neg hne]
      exact h.sizes_eq id r hr
  · rw [hentries] at hr
    split at hr
    · cases hr
      exact hkind
    · exact h.outbound id r hr
  · obtain ⟨queued, hqueued, hcheck⟩ := h.holds_valid id r hr
    refine ⟨queued, ?_, hcheck⟩
    rw [hentries, if_neg]
    · exact hqueued
    · rintro rfl
      rw [hadmits.absent] at hqueued
      cases hqueued

theorem retired (h : Within opts q) {id : Bytes} {r : QueueRecord}
    (hlookup : q.entries.lookup id = some r) :
    Within opts ((q.withoutSidecars id).removeEntry id) := by
  have hbare : Within opts (q.withoutSidecars id) := (h.forget .hold id).forget .backoff id
  have hentries : ∀ id', ((q.withoutSidecars id).removeEntry id).entries.lookup id'
      = if id' = id then none else q.entries.lookup id' := lookup_erase_ite q.entries id
  have hsizes : ∀ id', ((q.withoutSidecars id).removeEntry id).sizes.lookup id'
      = if id' = id then none else q.sizes.lookup id' := lookup_erase_ite q.sizes id
  have hnone : (q.withoutSidecars id).holds.lookup id = none := Finmap.lookup_erase _ _
  refine
    { h.toConsistent.retired hlookup with
      maxItems_eq := h.maxItems_eq
      maxBytes_eq := h.maxBytes_eq
      items_le := ?_
      bytes_le := ?_
      sizes_eq := fun id' r' hr' => ?_
      outbound := fun id' r' hr' => ?_
      holds_valid := fun id' r' hr' => ?_
      backoffs_valid := hbare.backoffs_valid
      devices_kept := { hbare.devices_kept with } }
  · have hkeys : ((q.withoutSidecars id).removeEntry id).entries.keys = q.entries.keys.erase id :=
      Finmap.keys_erase _ _
    have hcard : (q.entries.keys.erase id).card ≤ q.entries.keys.card := Finset.card_erase_le
    have hle := h.items_le
    rw [len] at hle
    rw [len, hkeys]
    change _ ≤ q.maxItems
    omega
  · -- the bytes fall by the record's size
    have hsize : (((q.withoutSidecars id).sizes.lookup id).getD 0) = (r.marshal.length : Nat) := by
      change ((q.sizes.lookup id).getD 0) = _
      rw [h.sizes_eq id r hlookup]
      rfl
    have hle := h.bytes_le
    change q.bytes - ((q.withoutSidecars id).sizes.lookup id).getD 0 ≤ q.maxBytes
    rw [hsize]
    omega
  · rw [hentries] at hr'
    rw [hsizes]
    split at hr'
    · cases hr'
    · next hne =>
      rw [if_neg hne]
      exact h.sizes_eq id' r' hr'
  · rw [hentries] at hr'
    split at hr'
    · cases hr'
    · exact h.outbound id' r' hr'
  · obtain ⟨queued, hqueued, hcheck⟩ := hbare.holds_valid id' r' hr'
    refine ⟨queued, ?_, hcheck⟩
    rw [hentries, if_neg]
    · exact hqueued
    · rintro rfl
      rw [show ((q.withoutSidecars id').removeEntry id').holds.lookup id' = none from hnone] at hr'
      cases hr'

end Within

end DurableQueue

open DurableQueue

/-- **Every outbound operation keeps the memory within its bounds.** -/
theorem Effect.within {opts : QueueOptions} {op : QueueOp} {q q' : DurableQueue}
    {r : Except QueueError Unit} (h : Effect op q r q') (hop : op.outbound = true)
    (hq : Within opts q) (hroom : q.nextSeq < maxInt64) : Within opts q' := by
  induction h with
  | refused | found | probed => exact hq
  | foundStaged | staged => cases hop
  | admitted hkind hadmits => exact hq.admitted hroom hkind hadmits
  | held queued hlookup hcheck => exact hq.insertHold hlookup hcheck
  | backedOff queued hlookup hcheck =>
    exact hq.insertBackoff (mem_keys_iff.mpr ⟨queued, hlookup⟩) rfl hcheck
  | cleared => exact hq.forget .backoff _
  | unheld e => exact hq.forget .hold _
  | bared e => exact (hq.forget .hold _).forget .backoff _
  | retired r hlookup => exact hq.retired hlookup
  | noted r hc => exact hq.of_unconfiguredChange hc
  | notedAdmitted hc => exact hq.of_unconfiguredChange hc
  | faults _ hs ih => exact (ih hop hq hroom).of_sameButFaults hs

namespace DurableQueue

variable {opts : QueueOptions} {d : Directory} {q : DurableQueue}

/-- Options a queue can be opened with. -/
structure Usable (opts : QueueOptions) : Prop where
  items_pos : 0 < opts.maxItems
  bytes_pos : 0 < opts.maxBytes
  shares : ∃ q, reserveShares opts (emptyQueue opts) = .ok q

theorem openDurableQueueOutbound_ok :
    openDurableQueueOutbound opts d = .ok q ↔ openDurableQueue opts d = .ok q ∧
      ∀ id ∈ q.order, validOutboundArtifactType (q.entry id).type = true := by
  unfold openDurableQueueOutbound
  rw [bind_eq_ok]
  constructor
  · rintro ⟨q', hopen, h⟩
    split at h
    · cases h
    · next hall =>
      cases h
      simp only [List.any_eq_true, Bool.not_eq_true', not_exists, not_and,
        Bool.not_eq_false] at hall
      exact ⟨hopen, hall⟩
  · rintro ⟨hopen, hall⟩
    refine ⟨q, hopen, if_neg ?_⟩
    simp only [List.any_eq_true, Bool.not_eq_true', not_exists, not_and, Bool.not_eq_false]
    exact hall

theorem openDurableQueueOutbound_plainOptions :
    openDurableQueueOutbound plainOptions freshDirectory = .ok (emptyQueue plainOptions) :=
  openDurableQueueOutbound_ok.mpr ⟨openDurableQueue_plainOptions, by simp [emptyQueue]⟩

theorem usable_of_open (h : openDurableQueue opts d = .ok q) : Usable opts := by
  obtain ⟨hitems, hbytes, -, q₀, hshares, -⟩ := openDurableQueue_ok h
  exact ⟨hitems, hbytes, q₀, hshares⟩

/-- **A directory that holds the records of a memory within its bounds opens again**, with that
content. -/
theorem Within.reopens {c : Content} (h : Within opts q) (hopts : Usable opts) (hs : Stores d c)
    (hc : c.Valid) (hrecords : c.records = q.entries) :
    ∃ q', openDurableQueueOutbound opts d = .ok q' ∧ Holds c q' ∧ Within opts q' := by
  obtain ⟨q₀, hshares⟩ := hopts.shares
  have hq₀ := reserveShares_ok hshares
  have hitems : (c.records.keys.card : Int) ≤ q₀.maxItems := by
    rw [hq₀, hrecords]
    change q.len ≤ opts.maxItems
    rw [← h.maxItems_eq]
    exact h.items_le
  have hbytes : c.bytes ≤ q₀.maxBytes := by
    rw [← h.toIndexed.bytes_eq_content hrecords.symm h.sizes_eq, hq₀]
    change q.bytes ≤ opts.maxBytes
    rw [← h.maxBytes_eq]
    exact h.bytes_le
  obtain ⟨q', hload, hholds, hmaxItems, hmaxBytes⟩ := load_of_stores hs hc
    (loading_reserveShares hshares) (by rw [hq₀]; rfl) (by rw [hq₀]; rfl) hitems hbytes
  have hopen : openDurableQueue opts d = .ok q' := by
    have hitems := hopts.items_pos
    have hbytes := hopts.bytes_pos
    rw [openDurableQueue, if_neg (by omega), if_neg (by omega), hs.marker]
    simp only [bind, Except.bind, hshares, hload, Except.mapError]
  have hloaded := loaded_of_open hopen (hholds.entries ▸ hc.below)
  have houtbound : ∀ id r, q'.entries.lookup id = some r →
      validOutboundArtifactType r.type = true := by
    intro id r hr
    rw [hholds.entries, hrecords] at hr
    exact h.outbound id r hr
  refine ⟨q', openDurableQueueOutbound_ok.mpr ⟨hopen, fun id hid => ?_⟩, hholds, ?_⟩
  · obtain ⟨r, hr⟩ := mem_keys_iff.mp (hloaded.mem_order.mp hid)
    rw [entry_of_lookup hr]
    exact houtbound id r hr
  · exact
      { hloaded.toConsistent with
        maxItems_eq := by rw [hmaxItems, hq₀]; rfl
        maxBytes_eq := by rw [hmaxBytes, hq₀]; rfl
        items_le := by rw [len, hholds.entries, hmaxItems]; exact hitems
        bytes_le := by
          rw [hloaded.toIndexed.bytes_eq_content hholds.entries hholds.sizes, hmaxBytes]
          exact hbytes
        sizes_eq := hholds.sizes
        outbound := houtbound
        holds_valid := by
          rw [hholds.holds, hholds.entries]
          exact hc.holds
        backoffs_valid := by
          rw [hholds.backoffs]
          exact fun id b hb => ⟨(hc.backoffs id b hb).1, (hc.backoffs id b hb).2.2⟩
        devices_kept := hholds.devices }

/-! ## A first open -/

def noContent : Content := ⟨∅, ∅, ∅, none⟩

theorem stores_freshDirectory : Stores freshDirectory noContent where
  marker := by decide +kernel
  files n hignored _ := by
    have hne : n ≠ queueMarkerName := by
      rintro rfl
      exact hignored (by decide)
    rw [freshDirectory, lookup_insert_ite, if_neg hne]
    cases classify n <;> rfl

theorem valid_noContent : noContent.Valid where
  sound := by simp [noContent]
  below := by simp [Below, noContent]
  seq_inj := by simp [noContent]
  holds := by simp [noContent]
  backoffs := by simp [noContent]
  unconfigured := by simp [noContent]

theorem within_of_fresh (h : openDurableQueueOutbound opts freshDirectory = .ok q) :
    Within opts q ∧ q.entries = ∅ ∧ q.holds = ∅ ∧ q.backoffs = ∅ := by
  have hopen := (openDurableQueueOutbound_ok.mp h).1
  obtain ⟨hitems, hbytes, -, q₀, hshares, -⟩ := openDurableQueue_ok hopen
  obtain rfl : q₀ = q := by
    rw [openDurableQueue_freshDirectory hitems hbytes hshares] at hopen
    exact Except.ok.inj hopen
  have hq₀ := reserveShares_ok hshares
  have hbelow : Below q₀.entries := by
    rw [hq₀]
    simp [Below, emptyQueue]
  have hloaded := (loaded_of_open hopen hbelow).toConsistent
  rw [hq₀] at hloaded ⊢
  refine ⟨{ hloaded with
    maxItems_eq := rfl
    maxBytes_eq := rfl
    items_le := hitems.le
    bytes_le := hbytes.le
    sizes_eq := by simp [emptyQueue]
    outbound := by simp [emptyQueue]
    holds_valid := by simp [emptyQueue]
    backoffs_valid := by simp [emptyQueue]
    devices_kept := ⟨by simp [emptyQueue], by simp [emptyQueue]⟩ }, rfl, rfl, rfl⟩

theorem roomy_of_fresh (h : openDurableQueueOutbound opts freshDirectory = .ok q) {n : Nat}
    (hn : n ≤ 2 ^ 62) : Roomy n q := by
  obtain ⟨hwithin, hentries, -⟩ := within_of_fresh h
  have hbelow : Below q.entries := by simp [Below, hentries]
  refine ⟨hwithin.toConsistent, ?_⟩
  rcases (loaded_of_open (openDurableQueueOutbound_ok.mp h).1 hbelow).next with hnext | ⟨id, hid, -⟩
  · rw [hnext]
    unfold maxInt64
    omega
  · simp [hentries] at hid

end DurableQueue

end OriGateway
