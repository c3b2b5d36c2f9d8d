import OriGateway.Evidence.Content
import OriGateway.Evidence.Opening

/-! # Directories that open

The other direction of loading: a directory that holds a valid content within the bounds loads as
that content (`load_of_stores`), and opens. Loading goes through the directory file by file, so the
proof says what has been gathered from the files seen (`Gathering`) and that each file adds its own
part. -/

namespace OriGateway

open Foundation

/-- What the loader checks of a record of the unconfigured devices. -/
def UnconfiguredRecord.Acceptable (u : UnconfiguredRecord) : Prop :=
  u.v = unconfiguredFileVersion ∧ u.devices.length ≤ DurableQueue.maxUnconfiguredDevices ∧
    ∀ device ∈ u.devices, validRoutingDeviceID device = true

/-- **A content the loader accepts**, its bounds apart; and no record has the last place. -/
structure Content.Valid (c : Content) : Prop where
  sound : ∀ id r, c.records.lookup id = some r → r.Sound ∧ r.id = id
  below : DurableQueue.Below c.records
  seq_inj : ∀ a r b r', c.records.lookup a = some r → c.records.lookup b = some r' →
    r.queueSeq = r'.queueSeq → a = b
  holds : ∀ id h, c.holds.lookup id = some h →
    ∃ r, c.records.lookup id = some r ∧ validateHoldRecord h r = .ok ()
  backoffs : ∀ id b, c.backoffs.lookup id = some b →
    b.queueRecord = id ∧ (∃ r, c.records.lookup id = some r) ∧ validateBackoffRecord b = .ok ()
  unconfigured : ∀ u, c.unconfigured = some u → u.Acceptable

namespace Content

variable {c : Content}

def bytes (c : Content) : Int :=
  ∑ id ∈ c.records.keys, ((((c.records.lookup id).getD .zero).marshal.length : Nat) : Int)

/-- The identity a record is filed under is a digest, so its file is told apart as a record's. -/
theorem Valid.head_of_lookup (hc : c.Valid) {id : Bytes} {r : QueueRecord}
    (h : c.records.lookup id = some r) : ∃ b rest, id = b :: rest ∧ b ≠ 46 := by
  obtain ⟨hsound, rfl⟩ := hc.sound id r h
  rw [hsound.identity]
  exact head_artifactID _ _

theorem Valid.classify_of_lookup (hc : c.Valid) {id : Bytes} {r : QueueRecord}
    (h : c.records.lookup id = some r) : classify (recordFile id) = .record id :=
  classify_recordFile (hc.head_of_lookup h)

end Content

namespace DurableQueue

/-! ## The files one by one -/

/-- **What has been gathered** from a directory when the files `rest` are still to come. -/
structure Gathering (d : Directory) (c : Content) (q₀ : DurableQueue)
    (rest : List (Bytes × File)) (st : LoadState) : Prop where
  loading : Loading st
  rest_files : ∀ file ∈ rest, d.lookup file.1 = some file.2
  rest_nodup : (rest.map Prod.fst).Nodup
  records : ∀ id r, st.queue.entries.lookup id = some r →
    c.records.lookup id = some r ∧ recordFile id ∉ rest.map Prod.fst
  records_full : ∀ id r, c.records.lookup id = some r →
    st.queue.entries.lookup id = some r ∨ recordFile id ∈ rest.map Prod.fst
  sizes : ∀ id r, st.queue.entries.lookup id = some r →
    st.queue.sizes.lookup id = some ((r.marshal.length : Nat) : Int)
  holdNames : ∀ name ∈ st.holdNames, ∃ id h, name = holdFilePrefix ++ id ∧
    c.holds.lookup id = some h
  holds_full : ∀ id h, c.holds.lookup id = some h →
    holdFilePrefix ++ id ∈ st.holdNames ∨ holdFilePrefix ++ id ∈ rest.map Prod.fst
  backoffNames : ∀ name ∈ st.backoffNames, ∃ id b, name = backoffFilePrefix ++ id ∧
    c.backoffs.lookup id = some b
  backoffs_full : ∀ id b, c.backoffs.lookup id = some b →
    backoffFilePrefix ++ id ∈ st.backoffNames ∨ backoffFilePrefix ++ id ∈ rest.map Prod.fst
  /-- A record of unconfigured devices that was seen is the content's. -/
  unconfigured : st.unconfiguredPresent = true → ∃ u, c.unconfigured = some u
  maxItems : st.queue.maxItems = q₀.maxItems
  maxBytes : st.queue.maxBytes = q₀.maxBytes
  devices : st.queue.unconfigured = q₀.unconfigured

namespace Gathering

variable {d : Directory} {c : Content} {q₀ : DurableQueue} {rest : List (Bytes × File)}
  {name : Bytes} {f : File} {st : LoadState}

theorem later {n : Bytes} (h : n ∈ ((name, f) :: rest).map Prod.fst) (hne : n ≠ name) :
    n ∈ rest.map Prod.fst := (List.mem_cons.mp h).resolve_left hne

theorem loadRecord_replacement {r : QueueRecord} (hr : r.Sound)
    (hnew : st.queue.entries.lookup r.id = none) (hplace : r.queueSeq ∉ st.seenQueueSeq) :
    OriGateway.loadRecord (recordFile r.id) (replacement r.marshal) st = .ok { st with
      queue := st.queue.loadEntry r (r.marshal.length : Nat)
      seenQueueSeq := insert r.queueSeq st.seenQueueSeq } := by
  have hvalid : ¬ (r.v ≠ queueRecordVersion ∨ r.queueSeq ≤ 0 ∨ r.enqueuedAtMS ≤ 0 ∨
      validQueueArtifactType r.type = false ∨ r.payload = []) := by
    simp only [not_or, not_not, not_le, Bool.not_eq_false]
    exact ⟨hr.version, hr.seq_pos, hr.time_pos, hr.type_valid, hr.payload_ne⟩
  have hprivate : ¬ (!(replacement r.marshal).isPrivate) = true := by
    simp [File.isPrivate, replacement]
  rw [OriGateway.loadRecord, if_neg (by simp [replacement]), if_neg hprivate]
  simp only [replacement, QueueRecord.unmarshal_marshal hr]
  rw [if_neg hvalid, if_neg (not_not.mpr hr.identity), if_neg (not_not.mpr rfl),
    if_neg (by simp [hnew]), if_neg hplace]

/-- **A record's file adds the record.** -/
theorem stepRecord (hc : c.Valid) {r : QueueRecord} {id : Bytes}
    (hlookup : c.records.lookup id = some r)
    (h : Gathering d c q₀ ((recordFile id, replacement r.marshal) :: rest) st) :
    ∃ st', OriGateway.loadRecord (recordFile id) (replacement r.marshal) st = .ok st' ∧
      Gathering d c q₀ rest st' := by
  obtain ⟨hsound, rfl⟩ := hc.sound id r hlookup
  have hnew : st.queue.entries.lookup r.id = none := by
    cases hentry : st.queue.entries.lookup r.id with
    | none => rfl
    | some r' => exact absurd (by simp) (h.records r.id r' hentry).2
  have hplace : r.queueSeq ∉ st.seenQueueSeq := by
    rw [h.loading.seen]
    rintro ⟨id', hid', hseq⟩
    obtain ⟨r', hr'⟩ := mem_keys_iff.mp hid'
    obtain ⟨hother, hseen⟩ := h.records id' r' hr'
    rw [entry_of_lookup hr'] at hseq
    rw [hc.seq_inj id' r' r.id r hother hlookup hseq] at hseen
    exact absurd (by simp) hseen
  have hload := loadRecord_replacement hsound hnew hplace
  refine ⟨_, hload, ?_⟩
  -- the entries are those from before and the record
  have hentries : ∀ id, (st.queue.loadEntry r (r.marshal.length : Nat)).entries.lookup id
      = if id = r.id then some r else st.queue.entries.lookup id :=
    lookup_insert_ite st.queue.entries r.id r
  have hsizes : ∀ id, (st.queue.loadEntry r (r.marshal.length : Nat)).sizes.lookup id
      = if id = r.id then some ((r.marshal.length : Nat) : Int) else st.queue.sizes.lookup id :=
    lookup_insert_ite st.queue.sizes r.id _
  have hhead : recordFile r.id ∉ rest.map Prod.fst := (List.nodup_cons.mp h.rest_nodup).1
  exact
    { loading := Loading.loadRecord (fun _ => h.loading) hload fun id r' hr' => by
        rw [hentries] at hr'
        split at hr'
        · cases hr'
          exact hc.below _ _ hlookup
        · exact hc.below _ _ (h.records id r' hr').1
      rest_files := fun file hfile => h.rest_files file (List.mem_cons_of_mem _ hfile)
      rest_nodup := (List.nodup_cons.mp h.rest_nodup).2
      records := by
        intro id r' hr'
        rw [hentries] at hr'
        split at hr'
        · next heq =>
          cases hr'
          rw [heq]
          exact ⟨hlookup, hhead⟩
        · obtain ⟨hmem, hseen⟩ := h.records id r' hr'
          exact ⟨hmem, fun hlater => hseen (List.mem_cons_of_mem _ hlater)⟩
      records_full := by
        intro id r' hr'
        rw [hentries]
        split
        · next heq =>
          rw [heq, hlookup] at hr'
          exact .inl hr'
        · next hne =>
          refine (h.records_full id r' hr').imp_right fun hin => later hin ?_
          intro heq
          exact hne (List.append_cancel_right heq)
      sizes := by
        intro id r' hr'
        rw [hentries] at hr'
        rw [hsizes]
        split at hr'
        · next heq =>
          cases hr'
          rw [if_pos heq]
        · next hne =>
          rw [if_neg hne]
          exact h.sizes id r' hr'
      holdNames := h.holdNames
      holds_full := fun id hold hlook => (h.holds_full id hold hlook).imp_right fun hin =>
        later hin fun heq => by
          have := classify_hold id
          rw [heq, hc.classify_of_lookup hlookup] at this
          cases this
      backoffNames := h.backoffNames
      backoffs_full := fun id b hlook => (h.backoffs_full id b hlook).imp_right fun hin =>
        later hin fun heq => by
          have := classify_backoff id
          rw [heq, hc.classify_of_lookup hlookup] at this
          cases this
      unconfigured := h.unconfigured
      maxItems := h.maxItems
      maxBytes := h.maxBytes
      devices := h.devices }

/-- **A file that is no record** is passed over, or its name is kept for later. -/
theorem pass (hs : Stores d c) (hc : c.Valid) (h : Gathering d c q₀ ((name, f) :: rest) st)
    (hk : ∀ id, classify name ≠ .record id) {holdNames backoffNames : List Bytes} {present : Bool}
    (hholds : ∀ n, n ∈ holdNames ↔
      n ∈ st.holdNames ∨ n = name ∧ ∃ id, classify name = .hold id)
    (hbackoffs : ∀ n, n ∈ backoffNames ↔
      n ∈ st.backoffNames ∨ n = name ∧ ∃ id, classify name = .backoff id)
    (hpresent : present = true → st.unconfiguredPresent = true ∨ classify name = .unconfigured) :
    Gathering d c q₀ rest { st with
      holdNames := holdNames, backoffNames := backoffNames, unconfiguredPresent := present } := by
  -- what the content has at the file's class
  have hfile : ∀ k, classify name = k → k ≠ .ignored → k ≠ .temp → c.file k = some f := by
    rintro k rfl hignored htemp
    rw [← hs.files name hignored htemp]
    exact h.rest_files (name, f) List.mem_cons_self
  exact
    { loading := { h.loading with }
      rest_files := fun file hfile => h.rest_files file (List.mem_cons_of_mem _ hfile)
      rest_nodup := (List.nodup_cons.mp h.rest_nodup).2
      records := by
        intro id r hr
        obtain ⟨hmem, hseen⟩ := h.records id r hr
        exact ⟨hmem, fun hlater => hseen (List.mem_cons_of_mem _ hlater)⟩
      records_full := by
        intro id r hr
        refine (h.records_full id r hr).imp_right fun hin => later hin ?_
        rintro rfl
        exact hk id (hc.classify_of_lookup hr)
      sizes := h.sizes
      holdNames := by
        intro n hn
        rcases (hholds n).mp hn with hold | ⟨rfl, id, hid⟩
        · exact h.holdNames n hold
        · have hsome := hfile _ hid (by simp) (by simp)
          obtain ⟨r, hr, -⟩ := Option.map_eq_some_iff.mp hsome
          exact ⟨id, r, name_classify (by rw [hid]; rfl), hr⟩
      holds_full := by
        intro id r hr
        rcases h.holds_full id r hr with hseen | hin
        · exact .inl ((hholds _).mpr (.inl hseen))
        · by_cases heq : holdFilePrefix ++ id = name
          · exact .inl ((hholds _).mpr (.inr ⟨heq, id, heq ▸ classify_hold id⟩))
          · exact .inr (later hin heq)
      backoffNames := by
        intro n hn
        rcases (hbackoffs n).mp hn with hold | ⟨rfl, id, hid⟩
        · exact h.backoffNames n hold
        · have hsome := hfile _ hid (by simp) (by simp)
          obtain ⟨r, hr, -⟩ := Option.map_eq_some_iff.mp hsome
          exact ⟨id, r, name_classify (by rw [hid]; rfl), hr⟩
      backoffs_full := by
        intro id r hr
        rcases h.backoffs_full id r hr with hseen | hin
        · exact .inl ((hbackoffs _).mpr (.inl hseen))
        · by_cases heq : backoffFilePrefix ++ id = name
          · exact .inl ((hbackoffs _).mpr (.inr ⟨heq, id, heq ▸ classify_backoff id⟩))
          · exact .inr (later hin heq)
      unconfigured := by
        intro hu
        rcases hpresent hu with hseen | hclass
        · exact h.unconfigured hseen
        · have hsome := hfile _ hclass (by simp) (by simp)
          obtain ⟨u, hu, -⟩ := Option.map_eq_some_iff.mp hsome
          exact ⟨u, hu⟩
      maxItems := h.maxItems
      maxBytes := h.maxBytes
      devices := h.devices }

/-- **Each file adds its part.** -/
theorem step (hs : Stores d c) (hc : c.Valid) (h : Gathering d c q₀ ((name, f) :: rest) st) :
    ∃ st', OriGateway.loadFile name f st = .ok st' ∧ Gathering d c q₀ rest st' := by
  have hlookup : d.lookup name = some f := h.rest_files (name, f) List.mem_cons_self
  unfold OriGateway.loadFile
  cases hk : classify name with
  | ignored => exact ⟨_, rfl, h.pass hs hc (by simp [hk]) (by simp [hk]) (by simp [hk]) .inl⟩
  | temp => exact ⟨_, rfl, h.pass hs hc (by simp [hk]) (by simp [hk]) (by simp [hk]) .inl⟩
  | unconfigured =>
    exact ⟨_, rfl, h.pass hs hc (by simp [hk]) (by simp [hk]) (by simp [hk]) fun _ => .inr hk⟩
  | hold id => exact ⟨_, rfl, h.pass hs hc (by simp [hk]) (by simp [hk]) (by simp [hk]) .inl⟩
  | backoff id => exact ⟨_, rfl, h.pass hs hc (by simp [hk]) (by simp [hk]) (by simp [hk]) .inl⟩
  | unexpected =>
    -- a content has no such file
    have hnone := hs.files name (by simp [hk]) (by simp [hk])
    rw [hk, hlookup] at hnone
    cases hnone
  | record id =>
    have hfile := hs.files name (by simp [hk]) (by simp [hk])
    rw [hk, hlookup] at hfile
    obtain ⟨r, hr, rfl⟩ := Option.map_eq_some_iff.mp hfile.symm
    obtain rfl : name = recordFile id := name_classify (by rw [hk]; rfl)
    simp only [replacement, reduceCtorEq, if_false]
    exact h.stepRecord hc hr

end Gathering

/-! ## The directory -/

section Load

variable {d : Directory} {c : Content} {q₀ : DurableQueue} {q : DurableQueue}

theorem mem_files_of_stores (hs : Stores d c) {k : NameClass} {name : Bytes} {f : File}
    (hk : classify name = k) (hignored : k ≠ .ignored) (htemp : k ≠ .temp)
    (hf : c.file k = some f) : name ∈ (Directory.files d).map Prod.fst := by
  have hlookup : d.lookup name = some f := by
    rw [hs.files name (hk ▸ hignored) (hk ▸ htemp), hk, hf]
  exact List.mem_map.mpr ⟨(name, f), Directory.mem_files.mpr hlookup, rfl⟩

/-- **All files together make the content's records** and the names of its sidecars. -/
theorem loadFiles_of_stores (hs : Stores d c) (hc : c.Valid)
    (hempty : Loading ⟨q₀, ∅, [], [], false⟩) (hentries : q₀.entries = ∅) :
    ∃ st, loadFiles (Directory.files d) ⟨q₀, ∅, [], [], false⟩ = .ok st ∧
      Gathering d c q₀ [] st := by
  refine foldlM_ok (I := Gathering d c q₀) (fun file rest st h => h.step hs hc) ?_
  exact
    { loading := hempty
      rest_files := fun file hfile => Directory.mem_files.mp hfile
      rest_nodup := Directory.nodup_files d
      records := by simp [hentries]
      records_full := fun id r hr => .inr (mem_files_of_stores hs (hc.classify_of_lookup hr)
        (by simp) (by simp) (by rw [Content.file, hr]; rfl))
      sizes := by simp [hentries]
      holdNames := by simp
      holds_full := fun id r hr => .inr (mem_files_of_stores hs (classify_hold id)
        (by simp) (by simp) (by rw [Content.file, hr]; rfl))
      backoffNames := by simp
      backoffs_full := fun id r hr => .inr (mem_files_of_stores hs (classify_backoff id)
        (by simp) (by simp) (by rw [Content.file, hr]; rfl))
      unconfigured := by simp
      maxItems := rfl
      maxBytes := rfl
      devices := rfl }

theorem Gathering.entries {st : LoadState} (h : Gathering d c q₀ [] st) :
    st.queue.entries = c.records := by
  refine Finmap.ext_lookup fun id => ?_
  cases hr : c.records.lookup id with
  | some r => exact (h.records_full id r hr).resolve_right (by simp)
  | none =>
    cases hentry : st.queue.entries.lookup id with
    | none => rfl
    | some r =>
      rw [(h.records id r hentry).1] at hr
      cases hr

theorem Indexed.bytes_eq_content (h : Indexed q) (hentries : q.entries = c.records)
    (hsizes : ∀ id r, q.entries.lookup id = some r →
      q.sizes.lookup id = some ((r.marshal.length : Nat) : Int)) : q.bytes = c.bytes := by
  rw [h.bytes_eq, Content.bytes, hentries]
  refine Finset.sum_congr rfl fun id hid => ?_
  obtain ⟨r, hr⟩ := mem_keys_iff.mp hid
  rw [size, hsizes id r (by rw [hentries, hr]), hr]
  rfl

theorem readPrivateSidecar_of_stores (hs : Stores d c) {k : NameClass} {name data : Bytes}
    (hk : classify name = k) (hignored : k ≠ .ignored) (htemp : k ≠ .temp)
    (hf : c.file k = some (replacement data)) : readPrivateSidecar d name = .ok data := by
  have hlookup : d.lookup name = some (replacement data) := by
    rw [hs.files name (hk ▸ hignored) (hk ▸ htemp), hk, hf]
  rw [readPrivateSidecar, hlookup]
  simp [replacement, File.isPrivate]

theorem loadHold_of_stores (hs : Stores d c) (hc : c.Valid) (hentries : q.entries = c.records)
    {id : Bytes} {r : HoldRecord} (hr : c.holds.lookup id = some r) :
    loadHold d q (holdFilePrefix ++ id) = .ok { q with holds := q.holds.insert id r } := by
  obtain ⟨queued, hqueued, hcheck⟩ := hc.holds id r hr
  obtain ⟨hsound, hid⟩ := hc.sound id queued hqueued
  have hread : readPrivateSidecar d (holdFilePrefix ++ id) = .ok r.marshal :=
    readPrivateSidecar_of_stores hs (classify_hold id) (by simp) (by simp)
      (by rw [Content.file, hr]; rfl)
  have hnames : r.queueRecord = id := (validateHoldRecord_ok.mp hcheck).2.1.trans hid
  rw [loadHold, bind_eq_ok]
  refine ⟨r.marshal, hread, ?_⟩
  rw [List.drop_left]
  simp only [HoldRecord.unmarshal_marshal hsound hcheck, hnames, ne_eq, not_true, if_false,
    hentries, hqueued, hcheck]

theorem loadBackoff_of_stores (hs : Stores d c) (hc : c.Valid) (hentries : q.entries = c.records)
    {id : Bytes} {r : BackoffRecord} (hr : c.backoffs.lookup id = some r) :
    loadBackoff d q (backoffFilePrefix ++ id)
      = .ok { q with backoffs := q.backoffs.insert id r } := by
  obtain ⟨hnames, ⟨queued, hqueued⟩, hcheck⟩ := hc.backoffs id r hr
  obtain ⟨hsound, hid⟩ := hc.sound id queued hqueued
  have hread : readPrivateSidecar d (backoffFilePrefix ++ id) = .ok r.marshal :=
    readPrivateSidecar_of_stores hs (classify_backoff id) (by simp) (by simp)
      (by rw [Content.file, hr]; rfl)
  have hplain : ∀ b ∈ r.queueRecord, Json.isPlain b = true := by
    rw [hnames, ← hid]
    exact hsound.isPlain_id
  rw [loadBackoff, bind_eq_ok]
  refine ⟨r.marshal, hread, ?_⟩
  rw [List.drop_left]
  simp only [BackoffRecord.unmarshal_marshal hplain hcheck, hnames, ne_eq, not_true, if_false,
    hentries, hqueued, hcheck]

/-- The unconfigured devices a queue keeps: within the routing domain and their bound. -/
structure DevicesKept (q : DurableQueue) : Prop where
  valid : ∀ device ∈ q.unconfigured, validRoutingDeviceID device = true
  card_le : q.unconfigured.card ≤ maxUnconfiguredDevices

theorem DevicesKept.acceptable (hq : DevicesKept q) : q.unconfiguredRecord.Acceptable := by
  refine ⟨rfl, ?_, fun device hdevice => hq.valid device ?_⟩
  · change (sortedKeys (· ≤ ·) q.unconfigured).length ≤ _
    rw [sortedKeys_length]
    exact hq.card_le
  · simpa [unconfiguredRecord] using hdevice

theorem loadUnconfigured_of_stores (hs : Stores d c) (hc : c.Valid)
    (hdevices : q.unconfigured = ∅) {present : Bool}
    (hpresent : present = true → ∃ u, c.unconfigured = some u) :
    ∃ q', loadUnconfigured d present q = .ok q' ∧ UnconfiguredChange q q' ∧ DevicesKept q' := by
  have hkept : DevicesKept q := ⟨by simp [hdevices], by simp [hdevices]⟩
  cases hp : present with
  | false =>
    exact ⟨q, rfl, ⟨rfl, fun h => h, fun h => h⟩, hkept⟩
  | true =>
    obtain ⟨u, hu⟩ := hpresent hp
    obtain ⟨hversion, hlength, hvalid⟩ := hc.unconfigured u hu
    have hread : readPrivateSidecar d unconfiguredFileName = .ok u.marshal :=
      readPrivateSidecar_of_stores (k := .unconfigured) hs (by decide) (by simp) (by simp)
        (by rw [Content.file, hu]; rfl)
    have hdecoded : UnconfiguredRecord.unmarshal u.marshal = some u :=
      UnconfiguredRecord.unmarshal_marshal hversion fun device hdevice =>
        valid_of_validRoutingDeviceID (hvalid device hdevice)
    have hchecks : ¬ (u.v ≠ unconfiguredFileVersion ∨
        maxUnconfiguredDevices < u.devices.length ∨
        (u.devices.any fun device => !validRoutingDeviceID device) = true) := by
      simp only [not_or, not_not, not_lt, Bool.not_eq_true, List.any_eq_false]
      exact ⟨hversion, hlength, fun device hdevice => by simp [hvalid device hdevice]⟩
    -- the devices read are acceptable, whether or not they raise the fault
    have hafter : ∀ q', q' = { q with
        faults := q'.faults
        unconfigured := q.unconfigured ∪ u.devices.toFinset
        unconfiguredOverflow := u.overflow } → UnconfiguredChange q q' ∧ DevicesKept q' := by
      intro q' hq'
      have hunion : q'.unconfigured = u.devices.toFinset := by
        rw [hq', hdevices, Finset.empty_union]
      have hkept' : DevicesKept q' := by
        constructor
        · intro device hdevice
          rw [hunion, List.mem_toFinset] at hdevice
          exact hvalid device hdevice
        · rw [hunion]
          exact (List.toFinset_card_le _).trans hlength
      refine ⟨⟨?_, fun _ => hkept'.valid, fun _ => hkept'.card_le⟩, hkept'⟩
      rw [hq']
    simp only [loadUnconfigured, Bool.not_true, Bool.false_eq_true, if_false, hread, bind,
      Except.bind, hdecoded]
    rw [if_neg hchecks]
    split
    · exact ⟨_, rfl, hafter _ rfl⟩
    · exact ⟨_, rfl, hafter _ rfl⟩

/-- **A memory that holds a content.** -/
structure Holds (c : Content) (q : DurableQueue) : Prop where
  entries : q.entries = c.records
  holds : q.holds = c.holds
  backoffs : q.backoffs = c.backoffs
  sizes : ∀ id r, q.entries.lookup id = some r →
    q.sizes.lookup id = some ((r.marshal.length : Nat) : Int)
  devices : DevicesKept q

/-- **A valid content within the bounds loads as itself.** -/
theorem load_of_stores (hs : Stores d c) (hc : c.Valid)
    (hempty : Loading ⟨q₀, ∅, [], [], false⟩) (hentries : q₀.entries = ∅)
    (hdevices : q₀.unconfigured = ∅) (hitems : (c.records.keys.card : Int) ≤ q₀.maxItems)
    (hbytes : c.bytes ≤ q₀.maxBytes) :
    ∃ q, load q₀ d = .ok q ∧ Holds c q ∧ q.maxItems = q₀.maxItems ∧ q.maxBytes = q₀.maxBytes := by
  obtain ⟨st, hfiles, h⟩ := loadFiles_of_stores hs hc hempty hentries
  have hinj : ∀ p : Bytes, Function.Injective (p ++ ·) := fun p a b heq =>
    List.append_cancel_left heq
  have hbounds : ¬ (st.queue.sortOrder.len > st.queue.sortOrder.maxItems ∨
      st.queue.sortOrder.bytes > st.queue.sortOrder.maxBytes) := by
    change ¬ ((st.queue.entries.keys.card : Int) > st.queue.maxItems ∨
      st.queue.bytes > st.queue.maxBytes)
    rw [h.entries, h.loading.indexed.bytes_eq_content h.entries h.sizes, h.maxItems, h.maxBytes]
    omega
  -- the holds, then the back-offs, are gathered into maps that are still empty
  have hholds : st.holdNames.foldlM (loadHold d) st.queue.sortOrder
      = .ok { st.queue.sortOrder with holds := c.holds } := by
    have hstart : st.queue.sortOrder = { st.queue.sortOrder with holds := ∅ } := by
      rw [← h.loading.holds]
      rfl
    rw [hstart]
    refine foldlM_collect (hinj holdFilePrefix)
      (fun holds => { st.queue.sortOrder with holds := holds })
      (fun seen id r hr => ?_) h.holdNames fun id r hr => ?_
    · exact loadHold_of_stores (q := { st.queue.sortOrder with holds := seen }) hs hc h.entries hr
    · exact (h.holds_full id r hr).resolve_right (by simp)
  have hbackoffs : st.backoffNames.foldlM (loadBackoff d)
      { st.queue.sortOrder with holds := c.holds }
      = .ok { st.queue.sortOrder with holds := c.holds, backoffs := c.backoffs } := by
    have hstart : ({ st.queue.sortOrder with holds := c.holds } : DurableQueue)
        = { st.queue.sortOrder with holds := c.holds, backoffs := ∅ } := by
      rw [← h.loading.backoffs]
      rfl
    rw [hstart]
    refine foldlM_collect (hinj backoffFilePrefix)
      (fun backoffs => { st.queue.sortOrder with holds := c.holds, backoffs := backoffs })
      (fun seen id r hr => ?_) h.backoffNames fun id r hr => ?_
    · exact loadBackoff_of_stores (q := { st.queue.sortOrder with
        holds := c.holds, backoffs := seen }) hs hc h.entries hr
    · exact (h.backoffs_full id r hr).resolve_right (by simp)
  obtain ⟨q, hunconfigured, hchange, hkept⟩ :=
    loadUnconfigured_of_stores (q := { st.queue.sortOrder with
      holds := c.holds, backoffs := c.backoffs }) hs hc
      (h.devices.trans hdevices) h.unconfigured
  have hq := hchange.same
  refine ⟨q, ?_, ⟨?_, ?_, ?_, ?_, hkept⟩, ?_, ?_⟩
  · rw [load, bind_eq_ok]
    refine ⟨st, hfiles, ?_⟩
    simp only
    rw [if_neg hbounds, bind_eq_ok]
    refine ⟨_, hholds, ?_⟩
    rw [bind_eq_ok]
    exact ⟨_, hbackoffs, hunconfigured⟩
  · rw [hq]
    exact h.entries
  · rw [hq]
  · rw [hq]
  · rw [hq]
    exact h.sizes
  · rw [hq]
    exact h.maxItems
  · rw [hq]
    exact h.maxBytes

end Load

end DurableQueue

end OriGateway
