import OriGateway.Evidence.Effects

/-! # The queue's memory stays consistent

What relates the parts of a queue's memory to each other, and that it holds of every memory the
loader makes and is kept by every operation, whichever of its file-system calls fail. The order, the
places, the sizes, the lanes and the counters all describe the same records (`Indexed`); moreover
the order ascends and every sidecar has its record (`Consistent`). Places are 64-bit integers, so
this is kept as long as there is a place left for every operation to come (`Roomy`). -/

namespace OriGateway

open Foundation

namespace DurableQueue

variable {q : DurableQueue} {id : Bytes}

def size (q : DurableQueue) (id : Bytes) : Int := (q.sizes.lookup id).getD 0

/-- **The index of a queue describes its records**: the order lists them, their places are distinct
and below the next one, and sizes, lanes and counters are theirs. -/
structure Indexed (q : DurableQueue) : Prop where
  order_perm : (q.order : Multiset Bytes) = q.entries.keys.val
  sound : ∀ id r, q.entries.lookup id = some r → r.Sound ∧ r.id = id
  seq_inj : ∀ a ∈ q.entries.keys, ∀ b ∈ q.entries.keys,
    (q.entry a).queueSeq = (q.entry b).queueSeq → a = b
  seq_lt : ∀ id ∈ q.entries.keys, (q.entry id).queueSeq < q.nextSeq
  next_pos : 0 < q.nextSeq
  next_le : q.nextSeq ≤ maxInt64
  sizes_keys : q.sizes.keys = q.entries.keys
  bytes_eq : q.bytes = ∑ id ∈ q.entries.keys, q.size id
  lanes : Tallies q.entries.keys (fun id => (q.entry id).lane) q.size q.laneItems q.laneBytes
  devices : Tallies q.entries.keys (fun id => (q.entry id).lane.device) q.size q.deviceItems
    q.deviceBytes
  laneOf_eq : ∀ id, q.laneOf.lookup id = (q.entries.lookup id).map QueueRecord.lane

/-- **A consistent memory**: the index describes the records, the order ascends, and every sidecar
has its record. -/
structure Consistent (q : DurableQueue) : Prop extends Indexed q where
  ascending : q.order.Pairwise fun a b => (q.entry a).queueSeq < (q.entry b).queueSeq
  holds_keys : q.holds.keys ⊆ q.entries.keys
  backoffs_keys : q.backoffs.keys ⊆ q.entries.keys

theorem entry_of_lookup {r : QueueRecord} (h : q.entries.lookup id = some r) : q.entry id = r := by
  rw [entry, h, Option.getD_some]

/-- **The order is the records'**: consistent memories with the same records list them alike. -/
theorem order_eq_of_entries {q' : DurableQueue} (h : Consistent q) (h' : Consistent q')
    (hentries : q.entries = q'.entries) : q.order = q'.order := by
  have hentry : ∀ id, q'.entry id = q.entry id := fun id => by rw [entry, entry, hentries]
  have hascending := h'.ascending
  simp only [hentry] at hascending
  refine List.Perm.eq_of_pairwise (fun a b _ _ hab hba => ?_) h.ascending hascending ?_
  · exact absurd hab (not_lt.mpr hba.le)
  · rw [← Multiset.coe_eq_coe, h.order_perm, h'.order_perm, hentries]

theorem Indexed.nodup (h : Indexed q) : q.order.Nodup := by
  rw [← Multiset.coe_nodup, h.order_perm]
  exact q.entries.keys.nodup

theorem Indexed.mem_order (h : Indexed q) : id ∈ q.order ↔ id ∈ q.entries.keys := by
  rw [← Multiset.mem_coe, h.order_perm, Finset.mem_val]

theorem Indexed.laneAt_eq (h : Indexed q) (hid : id ∈ q.entries.keys) :
    q.laneAt id = (q.entry id).lane := by
  obtain ⟨r, hr⟩ := mem_keys_iff.mp hid
  rw [laneAt, h.laneOf_eq, hr, entry_of_lookup hr]
  rfl

/-! ## Sorting -/

theorem recordLE_total (a b : QueueRecord) : RecordLE a b ∨ RecordLE b a := by
  unfold RecordLE
  rcases lt_trichotomy a.queueSeq b.queueSeq with h | h | h
  · exact Or.inl (Or.inl h)
  · rcases List.le_total a.id b.id with hid | hid
    · exact Or.inl (Or.inr ⟨h, hid⟩)
    · exact Or.inr (Or.inr ⟨h.symm, hid⟩)
  · exact Or.inr (Or.inl h)

theorem recordLE_trans {a b c : QueueRecord} (hab : RecordLE a b) (hbc : RecordLE b c) :
    RecordLE a c := by
  unfold RecordLE at *
  rcases hab with hab | ⟨hab, hid⟩ <;> rcases hbc with hbc | ⟨hbc, hid'⟩
  · exact Or.inl (hab.trans hbc)
  · exact Or.inl (hbc ▸ hab)
  · exact Or.inl (hab ▸ hbc)
  · exact Or.inr ⟨hab.trans hbc, List.le_trans hid hid'⟩

instance (entries : GoMap Bytes QueueRecord) : Std.Total (OrderLE entries) :=
  ⟨fun _ _ => recordLE_total _ _⟩

instance (entries : GoMap Bytes QueueRecord) : IsTrans Bytes (OrderLE entries) :=
  ⟨fun _ _ _ => recordLE_trans⟩

theorem Indexed.sortOrder (h : Indexed q) : Indexed q.sortOrder :=
  { h with
    order_perm :=
      (Multiset.coe_eq_coe.mpr (List.perm_insertionSort _ _)).trans h.order_perm }

theorem Indexed.ascending_sortOrder (h : Indexed q) :
    q.sortOrder.order.Pairwise fun a b => (q.entry a).queueSeq < (q.entry b).queueSeq := by
  have hsorted : q.sortOrder.order.Pairwise (OrderLE q.entries) :=
    List.pairwise_insertionSort (OrderLE q.entries) q.order
  refine (hsorted.and h.sortOrder.nodup).imp_of_mem fun {a b} ha hb hab => ?_
  rcases hab.1 with hlt | ⟨heq, -⟩
  · exact hlt
  · have ha' : a ∈ q.entries.keys := h.sortOrder.mem_order.mp ha
    have hb' : b ∈ q.entries.keys := h.sortOrder.mem_order.mp hb
    exact absurd (h.seq_inj a ha' b hb' heq) hab.2

/-! ## Adding a record -/

section Add

variable {q : DurableQueue} {r : QueueRecord} {size : Int}

/-- The memory with a record added; the order, the bytes and the next place are given. -/
def added (q : DurableQueue) (r : QueueRecord) (size : Int) (order : List Bytes) (next : Int) :
    DurableQueue :=
  { ({ q with
      entries := q.entries.insert r.id r
      sizes := q.sizes.insert r.id size } : DurableQueue).indexLocked r size with
    order := order
    bytes := q.bytes + size
    nextSeq := next }

@[simp] theorem added_entry (order : List Bytes) (next : Int) :
    (q.added r size order next).entry r.id = r := by
  simp [entry, added, indexLocked, Finmap.lookup_insert]

theorem added_entry_of_ne (order : List Bytes) (next : Int) {id : Bytes} (h : id ≠ r.id) :
    (q.added r size order next).entry id = q.entry id := by
  simp [entry, added, indexLocked, Finmap.lookup_insert_of_ne _ h]

@[simp] theorem added_size (order : List Bytes) (next : Int) :
    (q.added r size order next).size r.id = size := by
  simp [DurableQueue.size, added, indexLocked, Finmap.lookup_insert]

theorem added_size_of_ne (order : List Bytes) (next : Int) {id : Bytes} (h : id ≠ r.id) :
    (q.added r size order next).size id = q.size id := by
  simp [DurableQueue.size, added, indexLocked, Finmap.lookup_insert_of_ne _ h]

theorem added_keys (order : List Bytes) (next : Int) :
    (q.added r size order next).entries.keys = insert r.id q.entries.keys := keys_insert _ _ _

theorem tallies_added {κ : Type} [DecidableEq κ] (cls : QueueRecord → κ) {counts sums : GoMap κ Int}
    (hnew : r.id ∉ q.entries.keys) (order : List Bytes) (next : Int)
    (h : Tallies q.entries.keys (fun id => cls (q.entry id)) q.size counts sums) :
    Tallies (q.added r size order next).entries.keys
      (fun id => cls ((q.added r size order next).entry id)) (q.added r size order next).size
      (GoMap.add counts (cls r) 1) (GoMap.add sums (cls r) size) := by
  have hne : ∀ id ∈ q.entries.keys, id ≠ r.id := fun id hid heq => hnew (heq ▸ hid)
  have hold : Tallies q.entries.keys (fun id => cls ((q.added r size order next).entry id))
      (q.added r size order next).size counts sums :=
    h.congr (fun id hid => by rw [added_entry_of_ne order next (hne id hid)])
      fun id hid => (added_size_of_ne order next (hne id hid)).symm
  have hadd := hold.insert hnew
  simp only [added_entry, added_size] at hadd
  rw [added_keys]
  exact hadd

/-- **Adding a record keeps the index.** -/
theorem Indexed.add (h : Indexed q) (hr : r.Sound) (hnew : r.id ∉ q.entries.keys)
    (hseq : ∀ id ∈ q.entries.keys, (q.entry id).queueSeq ≠ r.queueSeq) {order : List Bytes}
    (horder : (order : Multiset Bytes) = r.id ::ₘ (q.order : Multiset Bytes)) {next : Int}
    (hnext : q.nextSeq ≤ next) (hlt : r.queueSeq < next) (hle : next ≤ maxInt64) (size : Int) :
    Indexed (q.added r size order next) := by
  have hne : ∀ id ∈ q.entries.keys, id ≠ r.id := fun id hid heq => hnew (heq ▸ hid)
  have hentry : ∀ id ∈ q.entries.keys, (q.added r size order next).entry id = q.entry id :=
    fun id hid => added_entry_of_ne order next (hne id hid)
  constructor
  case order_perm =>
    change (order : Multiset Bytes) = _
    rw [added_keys, Finset.insert_val_of_notMem hnew, horder, h.order_perm]
  case sound =>
    intro id s hs
    by_cases hid : id = r.id
    · subst hid
      obtain rfl : r = s := by simpa [added, indexLocked, Finmap.lookup_insert] using hs
      exact ⟨hr, rfl⟩
    · exact h.sound id s (by simpa [added, indexLocked, Finmap.lookup_insert_of_ne _ hid] using hs)
  case seq_inj =>
    intro a ha b hb hab
    rw [added_keys, Finset.mem_insert] at ha hb
    rcases ha with rfl | ha <;> rcases hb with rfl | hb
    · rfl
    · rw [added_entry, hentry b hb] at hab
      exact absurd hab.symm (hseq b hb)
    · rw [added_entry, hentry a ha] at hab
      exact absurd hab (hseq a ha)
    · rw [hentry a ha, hentry b hb] at hab
      exact h.seq_inj a ha b hb hab
  case seq_lt =>
    intro id hid
    rw [added_keys, Finset.mem_insert] at hid
    rcases hid with rfl | hid
    · rw [added_entry]
      exact hlt
    · rw [hentry id hid]
      exact (h.seq_lt id hid).trans_le hnext
  case next_pos => exact h.next_pos.trans_le hnext
  case next_le => exact hle
  case sizes_keys =>
    rw [added_keys, ← h.sizes_keys]
    exact keys_insert _ _ _
  case bytes_eq =>
    change q.bytes + size = _
    rw [added_keys, Finset.sum_insert hnew, added_size, h.bytes_eq, add_comm]
    refine congrArg _ (Finset.sum_congr rfl fun id hid => ?_)
    rw [added_size_of_ne order next (hne id hid)]
  case lanes => exact tallies_added QueueRecord.lane hnew order next h.lanes
  case devices => exact tallies_added (fun s => s.lane.device) hnew order next h.devices
  case laneOf_eq =>
    intro id
    by_cases hid : id = r.id
    · subst hid
      simp [added, indexLocked, Finmap.lookup_insert]
    · simpa [added, indexLocked, Finmap.lookup_insert_of_ne _ hid] using h.laneOf_eq id

/-- The next place after one that is not the last. -/
theorem Indexed.int64_next (h : Indexed q) (hroom : q.nextSeq < maxInt64) :
    int64 (q.nextSeq + 1) = q.nextSeq + 1 :=
  int64_eq (inInt64_of_pos (by have := h.next_pos; omega) (by omega))

/-- **Adding a record at the next place keeps a memory consistent**, if that is not the last. -/
theorem Consistent.insertEntry (h : Consistent q) (hroom : q.nextSeq < maxInt64) (hr : r.Sound)
    (hnew : r.id ∉ q.entries.keys) (hseq : r.queueSeq = q.nextSeq) (size : Int) :
    Consistent (q.insertEntry r size) := by
  have hdistinct : ∀ id ∈ q.entries.keys, (q.entry id).queueSeq ≠ r.queueSeq := fun id hid =>
    (hseq ▸ h.seq_lt id hid).ne
  have hnext := h.int64_next hroom
  have hadd : Indexed (q.added r size (q.order ++ [r.id]) (int64 (q.nextSeq + 1))) :=
    h.toIndexed.add hr hnew hdistinct (by simp) (by omega) (by omega) (by omega) size
  have hkeys : q.entries.keys ⊆ (q.entries.insert r.id r).keys := by
    rw [keys_insert]
    exact Finset.subset_insert _ _
  exact { hadd.sortOrder with
    ascending := hadd.ascending_sortOrder
    holds_keys := h.holds_keys.trans hkeys
    backoffs_keys := h.backoffs_keys.trans hkeys }

end Add

/-! ## Removing a record -/

section Remove

variable {q : DurableQueue} {id : Bytes}

theorem removeEntry_entry_of_ne {id' : Bytes} (h : id' ≠ id) :
    (q.removeEntry id).entry id' = q.entry id' := by
  simp [entry, removeEntry, unindexLocked, Finmap.lookup_erase_ne h]

theorem removeEntry_size_of_ne {id' : Bytes} (h : id' ≠ id) :
    (q.removeEntry id).size id' = q.size id' := by
  simp [DurableQueue.size, removeEntry, unindexLocked, Finmap.lookup_erase_ne h]

theorem removeEntry_keys : (q.removeEntry id).entries.keys = q.entries.keys.erase id :=
  Finmap.keys_erase _ _

theorem coe_removeEntry_order :
    ((q.removeEntry id).order : Multiset Bytes) = (q.order : Multiset Bytes).erase id := by
  rw [Multiset.coe_erase]
  change ((q.order.erase id : List Bytes) : Multiset Bytes) = _
  congr 2
  exact lawful_beq_subsingleton _ _

theorem tallies_removed {κ : Type} [DecidableEq κ] (cls : QueueRecord → κ)
    {counts sums : GoMap κ Int} (hid : id ∈ q.entries.keys)
    (h : Tallies q.entries.keys (fun id => cls (q.entry id)) q.size counts sums) :
    Tallies (q.removeEntry id).entries.keys (fun id' => cls ((q.removeEntry id).entry id'))
      (q.removeEntry id).size (GoMap.release counts sums (cls (q.entry id)) (q.size id)).1
      (GoMap.release counts sums (cls (q.entry id)) (q.size id)).2 := by
  rw [removeEntry_keys]
  refine (h.erase hid).congr (fun id' hid' => ?_) fun id' hid' => ?_
  · rw [removeEntry_entry_of_ne (Finset.ne_of_mem_erase hid')]
  · rw [removeEntry_size_of_ne (Finset.ne_of_mem_erase hid')]

/-- **Removing a record keeps the index.** -/
theorem Indexed.remove (h : Indexed q) (hid : id ∈ q.entries.keys) :
    Indexed (q.removeEntry id) := by
  have hlane := h.laneAt_eq hid
  have hentry : ∀ id' ∈ q.entries.keys.erase id, (q.removeEntry id).entry id' = q.entry id' :=
    fun id' hid' => removeEntry_entry_of_ne (Finset.ne_of_mem_erase hid')
  constructor
  case order_perm =>
    rw [removeEntry_keys, Finset.erase_val, ← h.order_perm]
    exact coe_removeEntry_order
  case sound =>
    intro id' s hs
    by_cases hne : id' = id
    · subst hne
      simp [removeEntry, unindexLocked, Finmap.lookup_erase] at hs
    · refine h.sound id' s ?_
      simpa [removeEntry, unindexLocked, Finmap.lookup_erase_ne hne] using hs
  case seq_inj =>
    intro a ha b hb hab
    rw [removeEntry_keys] at ha hb
    rw [hentry a ha, hentry b hb] at hab
    exact h.seq_inj a (Finset.mem_of_mem_erase ha) b (Finset.mem_of_mem_erase hb) hab
  case seq_lt =>
    intro id' hid'
    rw [removeEntry_keys] at hid'
    rw [hentry id' hid']
    exact h.seq_lt id' (Finset.mem_of_mem_erase hid')
  case next_pos => exact h.next_pos
  case next_le => exact h.next_le
  case sizes_keys =>
    rw [removeEntry_keys, ← h.sizes_keys]
    exact Finmap.keys_erase _ _
  case bytes_eq =>
    change q.bytes - q.size id = _
    rw [removeEntry_keys, h.bytes_eq, ← Finset.sum_erase_eq_sub hid]
    refine Finset.sum_congr rfl fun id' hid' => ?_
    rw [removeEntry_size_of_ne (Finset.ne_of_mem_erase hid')]
  case lanes =>
    have hrelease := tallies_removed QueueRecord.lane hid h.lanes
    rw [← hlane] at hrelease
    exact hrelease
  case devices =>
    have hrelease := tallies_removed (fun s => s.lane.device) hid h.devices
    rw [← hlane] at hrelease
    exact hrelease
  case laneOf_eq =>
    intro id'
    by_cases hne : id' = id
    · subst hne
      simp [removeEntry, unindexLocked, Finmap.lookup_erase]
    · simpa [removeEntry, unindexLocked, Finmap.lookup_erase_ne hne] using h.laneOf_eq id'

/-- **Removing a record without sidecars keeps a memory consistent.** -/
theorem Consistent.removeEntry (h : Consistent q) (hid : id ∈ q.entries.keys)
    (hhold : id ∉ q.holds.keys) (hbackoff : id ∉ q.backoffs.keys) :
    Consistent (q.removeEntry id) where
  toIndexed := h.toIndexed.remove hid
  ascending := by
    have hsub : (q.order.erase id).Sublist q.order := List.erase_sublist
    refine (h.ascending.sublist hsub).imp_of_mem fun {a b} ha hb hab => ?_
    have hne : ∀ {x}, x ∈ q.order.erase id → x ≠ id := fun hx =>
      (List.Nodup.mem_erase_iff h.nodup).mp hx |>.1
    rwa [removeEntry_entry_of_ne (hne ha), removeEntry_entry_of_ne (hne hb)]
  holds_keys := by
    intro x hx
    rw [removeEntry_keys]
    exact Finset.mem_erase.mpr ⟨fun heq => hhold (heq ▸ hx), h.holds_keys hx⟩
  backoffs_keys := by
    intro x hx
    rw [removeEntry_keys]
    exact Finset.mem_erase.mpr ⟨fun heq => hbackoff (heq ▸ hx), h.backoffs_keys hx⟩

end Remove

/-! ## Sidecars and faults -/

section Sidecars

variable {q q' : DurableQueue} {id : Bytes}

theorem Consistent.of_sameButFaults (h : Consistent q) (hs : SameButFaults q q') :
    Consistent q' := by
  rw [hs]
  exact { h with }

theorem Consistent.insertHold (h : Consistent q) (hid : id ∈ q.entries.keys) (r : HoldRecord) :
    Consistent { q with holds := q.holds.insert id r } :=
  { h with
    holds_keys := by
      rw [keys_insert]
      exact Finset.insert_subset hid h.holds_keys }

theorem Consistent.insertBackoff (h : Consistent q) (hid : id ∈ q.entries.keys)
    (r : BackoffRecord) : Consistent { q with backoffs := q.backoffs.insert id r } :=
  { h with
    backoffs_keys := by
      rw [keys_insert]
      exact Finset.insert_subset hid h.backoffs_keys }

theorem Consistent.forget (h : Consistent q) (kind : Sidecar) (id : Bytes) :
    Consistent (kind.forget id q) := by
  cases kind with
  | hold =>
    exact { h with
      holds_keys := by
        rw [Sidecar.forget, Finmap.keys_erase]
        exact (Finset.erase_subset _ _).trans h.holds_keys }
  | backoff =>
    exact { h with
      backoffs_keys := by
        rw [Sidecar.forget, Finmap.keys_erase]
        exact (Finset.erase_subset _ _).trans h.backoffs_keys }

def Sidecar.keys : Sidecar → DurableQueue → Finset Bytes
  | hold, q => q.holds.keys
  | backoff, q => q.backoffs.keys

theorem notMem_keys_forget (kind : Sidecar) (id : Bytes) (q : DurableQueue) :
    id ∉ kind.keys (kind.forget id q) := by
  cases kind <;> simp [Sidecar.keys, Sidecar.forget, Finmap.keys_erase]

end Sidecars

/-! ## Admission -/

theorem insertRefusal_eq_none {now : Int} {kind : ArtifactType} {payload : Bytes} :
    q.insertRefusal now kind payload = none ↔
      q.isConfigured (recordDevice payload) = true ∧ q.len < q.maxItems ∧
        q.laneShareRefusal ⟨recordDevice payload, laneOfType kind⟩ 0 = none ∧ 0 < int64 now ∧
        q.bytes + ((q.newRecord now kind payload).marshal.length : Nat) ≤ q.maxBytes ∧
        q.laneShareRefusal ⟨recordDevice payload, laneOfType kind⟩
          ((q.newRecord now kind payload).marshal.length : Nat) = none := by
  unfold insertRefusal
  simp only [Bool.not_eq_true', ge_iff_le, gt_iff_lt]
  by_cases hconf : q.isConfigured (recordDevice payload) = true
  · by_cases hlen : q.maxItems ≤ q.len
    · simp [hconf, hlen]
    · cases hitems : q.laneShareRefusal ⟨recordDevice payload, laneOfType kind⟩ 0 with
      | some limit => simp [hconf, hlen]
      | none =>
        by_cases hnow : int64 now ≤ 0
        · simp [hconf, hlen, hnow]
        · by_cases hbytes : q.maxBytes <
              q.bytes + ((q.newRecord now kind payload).marshal.length : Nat)
          · simp [hconf, hlen, hnow, hbytes]
          · simp [hconf, hlen, hnow, hbytes, not_le.mp hlen, not_le.mp hnow, not_lt.mp hbytes]
  · simp [hconf]

theorem Indexed.newRecord_sound (h : Indexed q) {now : Int} {kind : ArtifactType}
    {payload : Bytes} (hkind : validQueueArtifactType kind = true) (hpayload : payload ≠ [])
    (hnow : 0 < int64 now) : (q.newRecord now kind payload).Sound :=
  ⟨rfl, h.next_pos, h.next_le, hnow, Int.le_sub_one_of_lt (inInt64_int64 now).2, hkind, hpayload,
    rfl⟩

/-! ## Operations -/

section Operations

variable {n : Nat} {q q' : DurableQueue}

/-- **A consistent memory with places left**: so many, at least. -/
structure Roomy (n : Nat) (q : DurableQueue) : Prop extends Consistent q where
  room : q.nextSeq + n ≤ maxInt64

theorem Roomy.mono {m : Nat} (h : Roomy n q) (hle : m ≤ n) : Roomy m q :=
  ⟨h.toConsistent, by have := h.room; omega⟩

theorem Roomy.next_lt (h : Roomy (n + 1) q) : q.nextSeq < maxInt64 := by
  have := h.room
  omega

/-- A consistent memory whose next place is at most one further on. -/
structure Advances (q q' : DurableQueue) : Prop where
  consistent : Consistent q'
  next_le : q'.nextSeq ≤ q.nextSeq + 1

theorem Consistent.advances (h : Consistent q') (hnext : q'.nextSeq = q.nextSeq) :
    Advances q q' := ⟨h, by omega⟩

theorem Advances.roomy (h : Advances q q') (hq : Roomy (n + 1) q) : Roomy n q' :=
  ⟨h.consistent, by have := hq.room; have := h.next_le; omega⟩

theorem Consistent.of_unconfiguredChange (h : Consistent q) (hc : UnconfiguredChange q q') :
    Consistent q' := by
  rw [hc.same]
  exact { h with }

theorem Consistent.admitted {q : DurableQueue} (h : Consistent q) (hroom : q.nextSeq < maxInt64)
    {now : Int} {kind : ArtifactType} {payload : Bytes} (hadmits : q.Admits now kind payload) :
    Advances q (q.admitted now kind payload) := by
  obtain ⟨-, -, -, hnow, -⟩ := insertRefusal_eq_none.mp hadmits.admitted
  have hsound := h.newRecord_sound hadmits.type_valid hadmits.payload_ne hnow
  have hnew : artifactID kind payload ∉ q.entries.keys := fun hmem =>
    Finmap.lookup_eq_none.mp hadmits.absent (Finmap.mem_keys.mp hmem)
  exact ⟨h.insertEntry hroom hsound hnew rfl _, (h.int64_next hroom).le⟩

theorem Consistent.retired {q : DurableQueue} (h : Consistent q) {id : Bytes} {r : QueueRecord}
    (hlookup : q.entries.lookup id = some r) :
    Consistent ((q.withoutSidecars id).removeEntry id) := by
  have hbare : Consistent (q.withoutSidecars id) := (h.forget .hold id).forget .backoff id
  refine hbare.removeEntry (mem_keys_iff.mpr ⟨r, hlookup⟩) ?_ ?_
  · exact notMem_keys_forget .hold id q
  · exact notMem_keys_forget .backoff id (Sidecar.hold.forget id q)

end Operations

end DurableQueue

open DurableQueue

/-- **Every operation keeps the memory consistent**, whichever of its calls fail. -/
theorem Effect.advances {op : QueueOp} {q q' : DurableQueue} {r : Except QueueError Unit}
    (h : Effect op q r q') (hq : Consistent q) (hroom : q.nextSeq < maxInt64) : Advances q q' := by
  induction h with
  | refused | found | foundStaged | probed => exact hq.advances rfl
  | admitted hkind hadmits => exact hq.admitted hroom hadmits
  | staged hadmits => exact hq.admitted hroom hadmits
  | held queued hlookup hcheck =>
    exact (hq.insertHold (mem_keys_iff.mpr ⟨queued, hlookup⟩) _).advances rfl
  | backedOff queued hlookup hcheck =>
    exact (hq.insertBackoff (mem_keys_iff.mpr ⟨queued, hlookup⟩) _).advances rfl
  | cleared => exact (hq.forget .backoff _).advances rfl
  | unheld e => exact (hq.forget .hold _).advances rfl
  | bared e => exact ((hq.forget .hold _).forget .backoff _).advances rfl
  | retired r hlookup => exact (hq.retired hlookup).advances rfl
  | noted r hc => exact (hq.of_unconfiguredChange hc).advances (by rw [hc.same])
  | notedAdmitted hc => exact (hq.of_unconfiguredChange hc).advances (by rw [hc.same])
  | faults _ hs ih =>
    obtain ⟨hcons, hnext⟩ := ih hq hroom
    refine ⟨hcons.of_sameButFaults hs, ?_⟩
    rw [hs]
    exact hnext

/-- An operation takes one place at most. -/
theorem Effect.roomy {op : QueueOp} {q q' : DurableQueue} {r : Except QueueError Unit} {n : Nat}
    (h : Effect op q r q') (hq : Roomy (n + 1) q) : Roomy n q' :=
  (h.advances hq.toConsistent hq.next_lt).roomy hq

theorem QueueCall.effect {c : QueueCall} {w w' : World DurableQueue}
    {r : Except QueueError Unit} (h : Consistent w.mem) (hrun : c.run w = .done r w') :
    Effect c.op w.mem r w'.mem :=
  (wp_effect c.op (w := { w with script := c.script }) fun id r hr => (h.sound id r hr).2).done hrun

end OriGateway
