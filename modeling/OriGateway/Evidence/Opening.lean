import OriGateway.Evidence.Consistency
import OriGateway.Foundation.Fold

/-! # What opening a queue makes

Every directory that opens makes a consistent memory, if none of its records has the last place: the
loader's checks leave no other. With that, `memory_consistent` says of every run from any directory
that opens, with any of its calls failing, that the memory is consistent after it. -/

namespace OriGateway

open Foundation

namespace DurableQueue

variable {name : Bytes} {f : File} {st st' : LoadState} {d : Directory} {q q' : DurableQueue}
  {opts : QueueOptions}

/-- **No record has the last place**, the one after which places would wrap. -/
def Below (entries : GoMap Bytes QueueRecord) : Prop :=
  ∀ id r, entries.lookup id = some r → r.queueSeq < maxInt64

/-- The memory while records are being loaded: indexed, without sidecars, and the places seen so far
are those of the records. -/
structure Loading (st : LoadState) : Prop where
  indexed : Indexed st.queue
  seen : ∀ n, n ∈ st.seenQueueSeq ↔
    ∃ id ∈ st.queue.entries.keys, (st.queue.entry id).queueSeq = n
  next : st.queue.nextSeq = 1 ∨
    ∃ id ∈ st.queue.entries.keys, st.queue.nextSeq = (st.queue.entry id).queueSeq + 1
  holds : st.queue.holds = ∅
  backoffs : st.queue.backoffs = ∅

/-- What a record that loads is: sound, new, at a new place, in a private regular file of its
name. -/
theorem loadRecord_ok (h : loadRecord name f st = .ok st') :
    ∃ r, QueueRecord.unmarshal f.data = some r ∧ r.Sound ∧ name = recordFile r.id ∧
      st.queue.entries.lookup r.id = none ∧ r.queueSeq ∉ st.seenQueueSeq ∧
      st' = { st with
        queue := st.queue.loadEntry r (f.data.length : Nat)
        seenQueueSeq := insert r.queueSeq st.seenQueueSeq } := by
  unfold loadRecord at h
  split at h
  · cases h
  split at h
  · cases h
  split at h
  · cases h
  · next r hr =>
    obtain ⟨⟨-, hseq'⟩, -, htime'⟩ := QueueRecord.inInt64_of_unmarshal hr
    split at h
    · cases h
    · next hvalid =>
      simp only [not_or, not_not, not_le, Bool.not_eq_false] at hvalid
      obtain ⟨hv, hseq, htime, htype, hpayload⟩ := hvalid
      split at h
      · cases h
      · next hid =>
        split at h
        · cases h
        · next hname =>
          split at h
          · cases h
          · next hnew =>
            split at h
            · cases h
            · next hplace =>
              refine ⟨r, hr, ⟨hv, hseq, Int.le_sub_one_of_lt hseq', htime,
                Int.le_sub_one_of_lt htime',
                htype, hpayload, not_not.mp hid⟩, not_not.mp hname, ?_, hplace,
                  (Except.ok.inj h).symm⟩
              simpa using hnew

theorem Loading.loadRecord (hst : Below st.queue.entries → Loading st)
    (h : OriGateway.loadRecord name f st = .ok st') (hbelow : Below st'.queue.entries) :
    Loading st' := by
  obtain ⟨r, -, hsound, -, hnew, hplace, rfl⟩ := loadRecord_ok h
  have hentries : ∀ id s, (st.queue.entries.insert r.id r).lookup id = some s →
    s.queueSeq < maxInt64 :=
    hbelow
  have hlast : r.queueSeq < maxInt64 := hentries r.id r (Finmap.lookup_insert _)
  have hst := hst fun id s hs => by
    refine hentries id s ?_
    rw [lookup_insert_ite, if_neg]
    · exact hs
    · rintro rfl
      exact nomatch hnew.symm.trans hs
  have hadded : int64 (r.queueSeq + 1) = r.queueSeq + 1 :=
    int64_eq (inInt64_of_pos (by have := hsound.seq_pos; omega) (by omega))
  have hnotMem : r.id ∉ st.queue.entries.keys := fun hmem =>
    Finmap.lookup_eq_none.mp hnew (Finmap.mem_keys.mp hmem)
  have hseq : ∀ id ∈ st.queue.entries.keys, (st.queue.entry id).queueSeq ≠ r.queueSeq :=
    fun id hid heq => hplace ((hst.seen _).mpr ⟨id, hid, heq⟩)
  generalize hnext : (if r.queueSeq ≥ st.queue.nextSeq then int64 (r.queueSeq + 1)
    else st.queue.nextSeq) = next
  rw [hadded] at hnext
  have hle : st.queue.nextSeq ≤ next := by
    rw [← hnext]
    split <;> omega
  have hlt : r.queueSeq < next := by
    rw [← hnext]
    split <;> omega
  have hmax : next ≤ maxInt64 := by
    have hmax := hst.indexed.next_le
    rw [← hnext]
    split <;> omega
  have hq : st.queue.loadEntry r (f.data.length : Nat)
      = st.queue.added r (f.data.length : Nat) (st.queue.order ++ [r.id]) next := by
    rw [← hnext, ← hadded]
    rfl
  refine ⟨?_, fun n => ?_, ?_, hst.holds, hst.backoffs⟩
  · rw [hq]
    exact hst.indexed.add hsound hnotMem hseq (by simp) hle hlt hmax _
  · simp only [hq, added_keys, Finset.mem_insert, exists_eq_or_imp, added_entry, hst.seen]
    refine or_congr eq_comm ⟨?_, ?_⟩
    · rintro ⟨id, hid, rfl⟩
      refine ⟨id, hid, ?_⟩
      rw [added_entry_of_ne _ _ fun heq => hnotMem (heq ▸ hid)]
    · rintro ⟨id, hid, rfl⟩
      refine ⟨id, hid, ?_⟩
      rw [added_entry_of_ne _ _ fun heq => hnotMem (heq ▸ hid)]
  · -- the next place moves past the record, or stays where an earlier one left it
    simp only [hq, added_keys, Finset.mem_insert, exists_eq_or_imp, added_entry]
    change next = 1 ∨ next = r.queueSeq + 1 ∨ _
    by_cases hpast : r.queueSeq ≥ st.queue.nextSeq
    · rw [if_pos hpast] at hnext
      exact .inr (.inl hnext.symm)
    · rw [if_neg hpast] at hnext
      rw [← hnext]
      rcases hst.next with hfirst | ⟨id, hid, hfollows⟩
      · exact .inl hfirst
      · refine .inr (.inr ⟨id, hid, ?_⟩)
        rw [added_entry_of_ne _ _ fun heq => hnotMem (heq ▸ hid)]
        exact hfollows

theorem Loading.loadFile (hst : Below st.queue.entries → Loading st)
    (h : OriGateway.loadFile name f st = .ok st') (hbelow : Below st'.queue.entries) :
    Loading st' := by
  unfold OriGateway.loadFile at h
  split at h
  case h_7 =>
    split at h
    · cases h
    · exact Loading.loadRecord hst h hbelow
  all_goals
    cases h
    try exact { hst hbelow with }

theorem loadHold_ok (h : loadHold d q name = .ok q') :
    ∃ record queued, q.entries.lookup (name.drop holdFilePrefix.length) = some queued ∧
      validateHoldRecord record queued = .ok () ∧
      q' = { q with holds := q.holds.insert (name.drop holdFilePrefix.length) record } := by
  unfold loadHold at h
  obtain ⟨raw, -, h⟩ := bind_eq_ok.mp h
  split at h
  · cases h
  · next record _ =>
    split at h
    · cases h
    · split at h
      · cases h
      · next queued hqueued =>
        split at h
        · cases h
        · next hcheck => exact ⟨record, queued, hqueued, hcheck, (Except.ok.inj h).symm⟩

theorem loadBackoff_ok (h : loadBackoff d q name = .ok q') :
    ∃ record queued, q.entries.lookup (name.drop backoffFilePrefix.length) = some queued ∧
      validateBackoffRecord record = .ok () ∧
      q' = { q with backoffs := q.backoffs.insert (name.drop
        backoffFilePrefix.length) record } := by
  unfold loadBackoff at h
  obtain ⟨raw, -, h⟩ := bind_eq_ok.mp h
  split at h
  · cases h
  · next record _ =>
    split at h
    · cases h
    · split at h
      · cases h
      · next queued hqueued =>
        split at h
        · cases h
        · next hcheck => exact ⟨record, queued, hqueued, hcheck, (Except.ok.inj h).symm⟩

/-- **A memory just loaded**: consistent, and the next place is the first or follows a record's. -/
structure Loaded (q : DurableQueue) : Prop extends Consistent q where
  next : q.nextSeq = 1 ∨ ∃ id ∈ q.entries.keys, q.nextSeq = (q.entry id).queueSeq + 1

/-- Loading the unconfigured devices touches nothing else. -/
theorem loadUnconfigured_same {present : Bool}
    (h : OriGateway.loadUnconfigured d present q = .ok q') : q' = { q with
      faults := q'.faults
      unconfigured := q'.unconfigured
      unconfiguredOverflow := q'.unconfiguredOverflow } := by
  unfold OriGateway.loadUnconfigured at h
  split at h
  · cases h
    rfl
  · obtain ⟨raw, -, h⟩ := bind_eq_ok.mp h
    split at h
    · cases h
    · split at h
      · cases h
      · simp only at h
        split at h <;> cases h <;> rfl

theorem Loaded.loadHold (hq : Loaded q) (h : OriGateway.loadHold d q name = .ok q') :
    Loaded q' := by
  obtain ⟨record, queued, hlookup, -, rfl⟩ := loadHold_ok h
  exact ⟨hq.insertHold (mem_keys_iff.mpr ⟨queued, hlookup⟩) record, hq.next⟩

theorem Loaded.loadBackoff (hq : Loaded q) (h : OriGateway.loadBackoff d q name = .ok q') :
    Loaded q' := by
  obtain ⟨record, queued, hlookup, -, rfl⟩ := loadBackoff_ok h
  exact ⟨hq.insertBackoff (mem_keys_iff.mpr ⟨queued, hlookup⟩) record, hq.next⟩

theorem Loaded.loadUnconfigured {present : Bool} (hq : Loaded q)
    (h : OriGateway.loadUnconfigured d present q = .ok q') : Loaded q' := by
  rw [loadUnconfigured_same h]
  exact { hq with }

theorem Loading.sorted (h : Loading st) : Loaded st.queue.sortOrder :=
  { h.indexed.sortOrder with
    ascending := h.indexed.ascending_sortOrder
    holds_keys := by
      change st.queue.holds.keys ⊆ _
      simp [h.holds]
    backoffs_keys := by
      change st.queue.backoffs.keys ⊆ _
      simp [h.backoffs]
    next := h.next }

/-- The steps of a load: the record files, the holds, the back-offs and the unconfigured devices. -/
theorem load_ok (hq : Loading ⟨q, ∅, [], [], false⟩) (h : load q d = .ok q')
    (hbelow : Below q'.entries) :
    ∃ st q₁ q₂, Loading st ∧ st.holdNames.foldlM (loadHold d) st.queue.sortOrder = .ok q₁ ∧
      st.backoffNames.foldlM (loadBackoff d) q₁ = .ok q₂ ∧
      loadUnconfigured d st.unconfiguredPresent q₂ = .ok q' := by
  unfold load at h
  obtain ⟨st, hst, h⟩ := bind_eq_ok.mp h
  have hloading : Below st.queue.entries → Loading st :=
    foldlM_ok_induction (I := fun st => Below st.queue.entries → Loading st)
      (fun st file st' hst hfile => Loading.loadFile hst hfile) (fun _ => hq) hst
  simp only at h
  split at h
  · cases h
  · obtain ⟨q₁, hholds, h⟩ := bind_eq_ok.mp h
    obtain ⟨q₂, hbackoffs, h⟩ := bind_eq_ok.mp h
    -- nothing after the record files changes the records
    have h₁ : q₁.entries = st.queue.entries := by
      refine foldlM_ok_induction (I := fun q => q.entries = st.queue.entries)
        (fun q name q' hq hname => ?_) rfl hholds
      obtain ⟨_, _, -, -, rfl⟩ := loadHold_ok hname
      exact hq
    have h₂ : q₂.entries = st.queue.entries := by
      refine foldlM_ok_induction (I := fun q => q.entries = st.queue.entries)
        (fun q name q' hq hname => ?_) h₁ hbackoffs
      obtain ⟨_, _, -, -, rfl⟩ := loadBackoff_ok hname
      exact hq
    rw [loadUnconfigured_same h] at hbelow
    rw [h₂] at hbelow
    exact ⟨st, q₁, q₂, hloading hbelow, hholds, hbackoffs, h⟩

/-- **A directory that loads makes a consistent memory.** -/
theorem loaded_of_load (hq : Loading ⟨q, ∅, [], [], false⟩) (h : load q d = .ok q')
    (hbelow : Below q'.entries) : Loaded q' := by
  obtain ⟨st, q₁, q₂, hloading, hholds, hbackoffs, hdevices⟩ := load_ok hq h hbelow
  have h₁ : Loaded q₁ :=
    foldlM_ok_induction (fun q name q' hq hname => hq.loadHold hname) hloading.sorted hholds
  have h₂ : Loaded q₂ :=
    foldlM_ok_induction (fun q name q' hq hname => hq.loadBackoff hname) h₁ hbackoffs
  exact h₂.loadUnconfigured hdevices

theorem indexed_emptyQueue (opts : QueueOptions) : Indexed (emptyQueue opts) := by
  constructor
  case lanes => exact Tallies.empty _ _
  case devices => exact Tallies.empty _ _
  case next_le =>
    change (1 : Int) ≤ maxInt64
    decide
  all_goals simp [emptyQueue]

theorem reserveShares_ok (h : reserveShares opts (emptyQueue opts) = .ok q) :
    q = { emptyQueue opts with
      reserved := q.reserved, shareItems := q.shareItems, shareBytes := q.shareBytes } := by
  unfold reserveShares at h
  split at h
  · cases h
    rfl
  · split at h
    · cases h
    · simp only at h
      split at h
      · cases h
      · cases h
        rfl

theorem loading_reserveShares (h : reserveShares opts (emptyQueue opts) = .ok q) :
    Loading ⟨q, ∅, [], [], false⟩ := by
  have hempty : Loading ⟨emptyQueue opts, ∅, [], [], false⟩ :=
    ⟨indexed_emptyQueue opts, by simp [emptyQueue], .inl rfl, rfl, rfl⟩
  rw [reserveShares_ok h]
  exact ⟨{ hempty.indexed with }, hempty.seen, hempty.next, rfl, rfl⟩

theorem openDurableQueue_ok (h : openDurableQueue opts d = .ok q) :
    0 < opts.maxItems ∧ 0 < opts.maxBytes ∧ ensureQueueMarker d = .ok () ∧
      ∃ q₀, reserveShares opts (emptyQueue opts) = .ok q₀ ∧ load q₀ d = .ok q := by
  unfold openDurableQueue at h
  split at h
  · cases h
  · next hitems =>
    split at h
    · cases h
    · next hbytes =>
      obtain ⟨⟨⟩, hmarker, h⟩ := bind_eq_ok.mp h
      obtain ⟨q₀, hshares, h⟩ := bind_eq_ok.mp h
      refine ⟨not_le.mp hitems, not_le.mp hbytes, hmarker, q₀, hshares, ?_⟩
      cases hload : load q₀ d with
      | error e => rw [hload] at h; cases h
      | ok q' => rw [hload] at h; cases h; rfl

/-- **A directory that opens makes a consistent memory.** -/
theorem loaded_of_open (h : openDurableQueue opts d = .ok q) (hbelow : Below q.entries) :
    Loaded q := by
  obtain ⟨-, -, -, q₀, hshares, hload⟩ := openDurableQueue_ok h
  exact loaded_of_load (loading_reserveShares hshares) hload hbelow

theorem files_freshDirectory :
    Directory.files freshDirectory = [(queueMarkerName, replacement queueMarkerBody)] := by
  decide +kernel

theorem openDurableQueue_freshDirectory (hitems : 0 < opts.maxItems) (hbytes : 0 < opts.maxBytes)
    (hshares : reserveShares opts (emptyQueue opts) = .ok q) :
    openDurableQueue opts freshDirectory = .ok q := by
  have hmarker : ensureQueueMarker freshDirectory = .ok () := by
    decide +kernel
  have hignored : classify queueMarkerName = .ignored := by
    decide
  have hloadFile (st : LoadState) :
      OriGateway.loadFile queueMarkerName (replacement queueMarkerBody) st = .ok st := by
    rw [OriGateway.loadFile, hignored]
  have hload : load q freshDirectory = .ok q := by
    rw [load, loadFiles, files_freshDirectory]
    simp only [List.foldlM_cons, List.foldlM_nil, hloadFile, bind, pure, Except.bind, Except.pure]
    rw [if_neg]
    · rw [reserveShares_ok hshares]
      rfl
    · rw [reserveShares_ok hshares]
      change ¬((0 : Int) > opts.maxItems ∨ (0 : Int) > opts.maxBytes)
      omega
  rw [openDurableQueue, if_neg (by omega), if_neg (by omega), hmarker]
  simp only [bind, Except.bind, hshares, hload, Except.mapError]

/-! ## Runs -/

theorem consistent_runCalls {cs : List QueueCall} {w w' : World DurableQueue} {trace : Trace}
    (h : Roomy cs.length w.mem) (hrun : runCalls cs w = .done trace w') :
    Consistent w'.mem ∧ w'.mem.nextSeq ≤ w.mem.nextSeq + cs.length := by
  induction cs generalizing w trace with
  | nil =>
    cases hrun
    exact ⟨h.toConsistent, by simp⟩
  | cons c cs ih =>
    obtain ⟨result, w₁, rest, hc, hrest, -⟩ := runCalls_cons hrun
    have heffect := QueueCall.effect h.toConsistent hc
    have hstep := heffect.advances h.toConsistent (Roomy.next_lt h)
    obtain ⟨hcons, hnext⟩ := ih (heffect.roomy h) hrest
    refine ⟨hcons, hnext.trans ?_⟩
    have := hstep.next_le
    simp only [List.length_cons, Nat.cast_add, Nat.cast_one]
    omega

/-- **Records whose places are below `2 ^ 62`**, as those of every queue that exists are. -/
def EarlyPlaces (q : DurableQueue) : Prop :=
  ∀ id ∈ q.entries.keys, (q.entry id).queueSeq < 2 ^ 62

theorem EarlyPlaces.below (h : EarlyPlaces q) : Below q.entries := by
  intro id r hr
  have hlt := h id (mem_keys_iff.mpr ⟨r, hr⟩)
  rw [entry, hr] at hlt
  exact hlt.trans (by decide)

/-- A directory that opens with early places leaves room for many operations. -/
theorem EarlyPlaces.roomy (h : EarlyPlaces q) (hopen : openDurableQueue opts d = .ok q) {n : Nat}
    (hn : n < 2 ^ 62) : Roomy n q := by
  have hloaded := loaded_of_open hopen h.below
  refine ⟨hloaded.toConsistent, ?_⟩
  have hnext : q.nextSeq ≤ 2 ^ 62 := by
    rcases hloaded.next with hfirst | ⟨id, hid, hfollows⟩
    · omega
    · have := h id hid
      omega
  unfold maxInt64
  omega

/-- **The queue's memory is consistent after every run** of fewer than `2 ^ 62` operations from any
directory that opened with the places of its records below `2 ^ 62`, whichever file-system calls
failed; and the next place is at most that and the number of calls, so no 64-bit place overflows. -/
theorem memory_consistent {opts : QueueOptions} {d : Directory} {q : DurableQueue}
    (hopen : openDurableQueue opts d = .ok q)
    (hseq : ∀ id ∈ q.entries.keys, (q.entry id).queueSeq < 2 ^ 62) (temps : Nat)
    {calls : List QueueCall} (hcalls : calls.length < 2 ^ 62) {trace : Trace}
    {w : World DurableQueue} (hrun : runCalls calls (openedWorld q d temps) = .done trace w) :
    Consistent w.mem ∧ w.mem.nextSeq ≤ 2 ^ 62 + calls.length := by
  have hearly : EarlyPlaces q := hseq
  have hloaded := loaded_of_open hopen hearly.below
  have hnext : q.nextSeq ≤ 2 ^ 62 := by
    rcases hloaded.next with hfirst | ⟨id, hid, hfollows⟩
    · omega
    · have := hseq id hid
      omega
  obtain ⟨hcons, hplaces⟩ := consistent_runCalls (hearly.roomy hopen hcalls) hrun
  exact ⟨hcons, hplaces.trans (Int.add_le_add_right hnext _)⟩

/-- An outbound queue of at most ten records and a hundred thousand bytes, for any device. -/
def plainOptions : QueueOptions where
  maxItems := 10
  maxBytes := 100000
  devices := []
  reserveDeviceShares := false
  versionedDevices := []
  faults := none
  faultSource := []

theorem openDurableQueue_plainOptions :
    openDurableQueue plainOptions freshDirectory = .ok (emptyQueue plainOptions) :=
  openDurableQueue_freshDirectory (by decide) (by decide) rfl

/-- An admission that is committed and whose flush fails, and one that returns. -/
def unflushedCalls : List QueueCall :=
  [⟨.enqueue 1 .checkpoint (ascii "\x7b\"device_id\":\"d\"\x7d"),
    [.done, .done, .done, .done, .done, .done, .fails]⟩,
   ⟨.enqueue 2 .checkpoint (ascii "\x7b\"device_id\":\"e\"\x7d"), []⟩]

theorem memory_consistent_unflushedCalls :
    ∃ trace w, runCalls unflushedCalls (openedWorld (emptyQueue plainOptions) freshDirectory 0)
      = .done trace w ∧ Consistent w.mem ∧ w.mem.nextSeq ≤ 2 ^ 62 + unflushedCalls.length := by
  obtain ⟨trace, w, hrun, -⟩ := Exec.returns_iff.mp (by decide +kernel : (runCalls unflushedCalls
    (openedWorld (emptyQueue plainOptions) freshDirectory 0)).returns (fun _ _ => true) = true)
  refine ⟨trace, w, hrun, ?_⟩
  exact memory_consistent openDurableQueue_plainOptions (by simp [emptyQueue]) 0 (by decide) hrun

end DurableQueue

end OriGateway
