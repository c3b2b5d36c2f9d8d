import OriGateway.Evidence.Crashes
import OriGateway.Foundation.Restarts

/-! # The record of the unconfigured devices

A load takes the queue's records and sidecars from the directory, and the unconfigured devices from
one file of their own. So two directories that differ in that file, in the probe's and in scratch
files alone load in the same way up to the last step (**`load_of_same`**). -/

namespace OriGateway

open Foundation DurableQueue

variable {name : Bytes} {d d' : Directory} {q : DurableQueue}

/-! ## Files a load passes over -/

def passedOver (name : Bytes) : Bool :=
  match classify name with
  | .ignored | .temp | .unconfigured => true
  | .hold _ | .backoff _ | .record _ | .unexpected => false

/-- The state of a load with the presence of the record of the unconfigured devices set. -/
def LoadState.withPresent (st : LoadState) (present : Bool) : LoadState :=
  { st with unconfiguredPresent := present }

/-- A file that counts is taken without regard to the record of the unconfigured devices. -/
theorem loadFile_withPresent (hname : passedOver name = false) (f : File) (st : LoadState)
    (present : Bool) :
    loadFile name f (st.withPresent present)
      = (loadFile name f st).map fun st => st.withPresent present := by
  unfold passedOver at hname
  unfold loadFile
  split at hname
  · cases hname
  · cases hname
  · cases hname
  · next hc => rw [hc]; rfl
  · next hc => rw [hc]; rfl
  · next hc =>
    rw [hc]
    simp only
    by_cases hkind : f.kind = .directory
    · rw [if_pos hkind, if_pos hkind]
      rfl
    · rw [if_neg hkind, if_neg hkind]
      unfold loadRecord LoadState.withPresent
      simp only
      split_ifs <;> try rfl
      split
      · rfl
      · split_ifs <;> rfl
  · next hc => rw [hc]; rfl

theorem loadFiles_withPresent {files : List (Bytes × File)}
    (hfiles : ∀ file ∈ files, passedOver file.1 = false) (st : LoadState) (present : Bool) :
    loadFiles files (st.withPresent present)
      = (loadFiles files st).map fun st => st.withPresent present := by
  induction files generalizing st with
  | nil => rfl
  | cons file files ih =>
    have hrest := fun file' hfile' => hfiles file' (List.mem_cons_of_mem _ hfile')
    simp only [loadFiles, List.foldlM_cons] at ih ⊢
    rw [loadFile_withPresent (hfiles file List.mem_cons_self)]
    cases loadFile file.1 file.2 st with
    | error e => rfl
    | ok st' => exact ih hrest st'

/-- The names of the record of the unconfigured devices among some files. -/
def hasUnconfigured (files : List (Bytes × File)) : Bool :=
  files.any fun file => decide (classify file.1 = .unconfigured)

/-- **A load is made by the files that count**, and by the presence of the record of the
unconfigured devices. -/
theorem loadFiles_eq_filter (files : List (Bytes × File)) (st : LoadState) :
    loadFiles files st
      = (loadFiles (files.filter fun file => !passedOver file.1) st).map fun st' =>
          st'.withPresent (st.unconfiguredPresent || hasUnconfigured files) := by
  induction files generalizing st with
  | nil =>
    change Except.ok st = .ok (st.withPresent (st.unconfiguredPresent || false))
    rw [Bool.or_false]
    rfl
  | cons file files ih =>
    have hcons : ∀ st, loadFiles (file :: files) st
        = loadFile file.1 file.2 st >>= loadFiles files := fun st => List.foldlM_cons ..
    rw [hcons]
    by_cases hname : passedOver file.1 = true
    · rw [List.filter_cons_of_neg (by simp [hname])]
      unfold passedOver at hname
      split at hname
      · next hc =>
        rw [show loadFile file.1 file.2 st = .ok st by rw [loadFile, hc],
          show hasUnconfigured (file :: files) = hasUnconfigured files by
            simp [hasUnconfigured, hc]]
        exact ih st
      · next hc =>
        rw [show loadFile file.1 file.2 st = .ok st by rw [loadFile, hc],
          show hasUnconfigured (file :: files) = hasUnconfigured files by
            simp [hasUnconfigured, hc]]
        exact ih st
      · next hc =>
        rw [show loadFile file.1 file.2 st = .ok (st.withPresent true) by rw [loadFile, hc]; rfl,
          show hasUnconfigured (file :: files) = true by simp [hasUnconfigured, hc],
          Bool.or_true]
        refine (ih (st.withPresent true)).trans ?_
        rw [loadFiles_withPresent (by simp)]
        cases loadFiles (files.filter fun file => !passedOver file.1) st with
        | error e => rfl
        | ok st' => rfl
      all_goals cases hname
    · have hcounts : passedOver file.1 = false := by simpa using hname
      rw [List.filter_cons_of_pos (by simp [hcounts])]
      have hclass : hasUnconfigured (file :: files) = hasUnconfigured files := by
        unfold passedOver at hcounts
        split at hcounts <;> simp_all [hasUnconfigured]
      rw [hclass]
      have hcons' : loadFiles (file :: files.filter fun file => !passedOver file.1) st
          = loadFile file.1 file.2 st >>= loadFiles (files.filter fun file => !passedOver file.1) :=
        List.foldlM_cons ..
      rw [hcons']
      have hkept := loadFile_withPresent hcounts file.2 st st.unconfiguredPresent
      rw [show st.withPresent st.unconfiguredPresent = st from rfl] at hkept
      cases hfile : loadFile file.1 file.2 st with
      | error e => rfl
      | ok st' =>
        rw [hfile] at hkept
        have hst : st' = st'.withPresent st.unconfiguredPresent := Except.ok.inj hkept
        rw [show st.unconfiguredPresent = st'.unconfiguredPresent by rw [hst]; rfl]
        exact ih st'

theorem classify_eq_unconfigured : classify name = .unconfigured ↔ name = unconfiguredFileName :=
  ⟨fun h => name_classify (by rw [h]; rfl), fun h => by subst h; decide⟩

theorem hasUnconfigured_files (d : Directory) :
    hasUnconfigured (Directory.files d) = (d.lookup unconfiguredFileName).isSome := by
  rw [Bool.eq_iff_iff]
  simp only [hasUnconfigured, List.any_eq_true, decide_eq_true_eq, classify_eq_unconfigured,
    Option.isSome_iff_exists]
  constructor
  · rintro ⟨⟨name, f⟩, hfile, rfl⟩
    exact ⟨f, Directory.mem_files.mp hfile⟩
  · rintro ⟨f, hf⟩
    exact ⟨_, Directory.mem_files.mpr hf, rfl⟩

/-! ## Loads of directories with the same records -/

/-- Two directories with the same records and sidecars, and the same marker. -/
def SameRecords (d d' : Directory) : Prop :=
  ∀ n, ¬ queueTempPrefix <+: n → n ≠ probeFileName → n ≠ unconfiguredFileName →
    d.lookup n = d'.lookup n

theorem passedOver_eq_false (h : passedOver name = false) :
    ¬ queueTempPrefix <+: name ∧ name ≠ probeFileName ∧ name ≠ unconfiguredFileName := by
  refine ⟨fun hp => ?_, ?_, ?_⟩
  · rw [passedOver, classify_eq_temp.mpr hp] at h
    cases h
  · rintro rfl
    revert h
    decide
  · rintro rfl
    revert h
    decide

theorem loadFiles_sidecars {files : List (Bytes × File)} {st st' : LoadState}
    (h : loadFiles files st = .ok st')
    (hst : ∀ n ∈ st.holdNames ++ st.backoffNames, passedOver n = false) :
    ∀ n ∈ st'.holdNames ++ st'.backoffNames, passedOver n = false := by
  refine foldlM_ok_induction (I := fun st => ∀ n ∈ st.holdNames ++ st.backoffNames,
    passedOver n = false) (fun st file st' hst hfile => ?_) hst h
  unfold loadFile at hfile
  split at hfile
  · cases hfile
    exact hst
  · cases hfile
    exact hst
  · cases hfile
    exact hst
  · next hc =>
    cases hfile
    have hname : passedOver file.1 = false := by rw [passedOver, hc]
    intro n hn
    simp only [List.mem_append, List.mem_singleton] at hn hst
    grind
  · next hc =>
    cases hfile
    have hname : passedOver file.1 = false := by rw [passedOver, hc]
    intro n hn
    simp only [List.mem_append, List.mem_singleton] at hn hst
    grind
  · cases hfile
  · split at hfile
    · cases hfile
    · unfold loadRecord at hfile
      split_ifs at hfile
      split at hfile
      · cases hfile
      · split_ifs at hfile
        cases hfile
        exact hst

theorem readPrivateSidecar_of_same (hsame : SameRecords d d') (hname : passedOver name = false) :
    readPrivateSidecar d' name = readPrivateSidecar d name := by
  obtain ⟨htemp, hprobe, hdevices⟩ := passedOver_eq_false hname
  rw [readPrivateSidecar, readPrivateSidecar, hsame name htemp hprobe hdevices]

/-- Holds and back-offs are read in the same way from directories with the same records. -/
theorem foldlM_sidecars_of_same {names : List Bytes}
    (read : Directory → DurableQueue → Bytes → Except LoadError DurableQueue)
    (hread : ∀ q n, passedOver n = false → read d' q n = read d q n)
    (hnames : ∀ n ∈ names, passedOver n = false) (q : DurableQueue) :
    names.foldlM (read d') q = names.foldlM (read d) q := by
  induction names generalizing q with
  | nil => rfl
  | cons n names ih =>
    rw [List.foldlM_cons, List.foldlM_cons, hread q n (hnames n List.mem_cons_self)]
    congr 1
    funext q'
    exact ih (fun n' hn' => hnames n' (List.mem_cons_of_mem _ hn')) q'

theorem loadFile_unconfigured {f : File} {st st' : LoadState} (h : loadFile name f st = .ok st') :
    st'.queue.unconfigured = st.queue.unconfigured := by
  unfold loadFile at h
  split at h
  case h_7 =>
    split at h
    · cases h
    · unfold loadRecord at h
      split_ifs at h
      split at h
      · cases h
      · split_ifs at h
        cases h
        rfl
  all_goals cases h <;> rfl

/-- **Directories with the same records load in the same way** up to the record of the unconfigured
devices. -/
theorem load_of_same {q₀ : DurableQueue} (h : load q₀ d = .ok q) (hsame : SameRecords d d') :
    ∃ q₁, q₁.unconfigured = q₀.unconfigured ∧
      loadUnconfigured d (d.lookup unconfiguredFileName).isSome q₁ = .ok q ∧
      load q₀ d' = loadUnconfigured d' (d'.lookup unconfiguredFileName).isSome q₁ := by
  have hfiles : (Directory.files d).filter (fun file => !passedOver file.1)
      = (Directory.files d').filter fun file => !passedOver file.1 :=
    Directory.filter_files_congr (P := fun n => !passedOver n) fun n hn => by
      obtain ⟨htemp, hprobe, hdevices⟩ := passedOver_eq_false (by simpa using hn)
      exact hsame n htemp hprobe hdevices
  unfold load at h ⊢
  rw [loadFiles_eq_filter, hasUnconfigured_files] at h ⊢
  rw [← hfiles]
  cases hst : loadFiles ((Directory.files d).filter fun file => !passedOver file.1)
      ⟨q₀, ∅, [], [], false⟩ with
  | error e =>
    rw [hst] at h
    cases h
  | ok st =>
    rw [hst] at h
    simp only [Except.map, bind, Except.bind, LoadState.withPresent, Bool.false_or] at h ⊢
    have hnames := loadFiles_sidecars hst (by simp)
    have hdevices : st.queue.unconfigured = q₀.unconfigured :=
      foldlM_ok_induction (I := fun st => st.queue.unconfigured = q₀.unconfigured)
        (fun st file st' hst hfile => (loadFile_unconfigured hfile).trans hst) rfl hst
    have hholds : ∀ q, st.holdNames.foldlM (loadHold d') q = st.holdNames.foldlM (loadHold d) q :=
      foldlM_sidecars_of_same loadHold
        (fun q n hn => by rw [loadHold, loadHold, readPrivateSidecar_of_same hsame hn])
        fun n hn => hnames n (List.mem_append_left _ hn)
    have hbackoffs : ∀ q,
        st.backoffNames.foldlM (loadBackoff d') q = st.backoffNames.foldlM (loadBackoff d) q :=
      foldlM_sidecars_of_same loadBackoff
        (fun q n hn => by rw [loadBackoff, loadBackoff, readPrivateSidecar_of_same hsame hn])
        fun n hn => hnames n (List.mem_append_right _ hn)
    by_cases hbounds : st.queue.sortOrder.len > st.queue.sortOrder.maxItems ∨
        st.queue.sortOrder.bytes > st.queue.sortOrder.maxBytes
    · rw [if_pos hbounds] at h
      cases h
    · rw [if_neg hbounds] at h ⊢
      rw [hholds]
      cases hq₁ : st.holdNames.foldlM (loadHold d) st.queue.sortOrder with
      | error e =>
        rw [hq₁] at h
        cases h
      | ok q₁ =>
        rw [hq₁] at h
        simp only at h ⊢
        rw [hbackoffs]
        cases hq₂ : st.backoffNames.foldlM (loadBackoff d) q₁ with
        | error e =>
          rw [hq₂] at h
          cases h
        | ok q₂ =>
          rw [hq₂] at h
          have h₁ : q₁.unconfigured = q₀.unconfigured :=
            foldlM_ok_induction (I := fun q => q.unconfigured = q₀.unconfigured)
              (fun q n q' hq hn => by
                obtain ⟨record, queued, -, -, rfl⟩ := loadHold_ok hn
                exact hq) hdevices hq₁
          have h₂ : q₂.unconfigured = q₀.unconfigured :=
            foldlM_ok_induction (I := fun q => q.unconfigured = q₀.unconfigured)
              (fun q n q' hq hn => by
                obtain ⟨record, queued, -, -, rfl⟩ := loadBackoff_ok hn
                exact hq) h₁ hq₂
          exact ⟨q₂, h₂, h, rfl⟩

/-! ## The file of the record -/

/-- A file that a load reads as an acceptable record of the unconfigured devices. -/
structure HoldsRecord (f : File) (r : UnconfiguredRecord) : Prop where
  regular : f.kind = .regular
  isPrivate : f.isPrivate = true
  decoded : UnconfiguredRecord.unmarshal f.data = some r
  acceptable : r.Acceptable

/-- **A record names a device**: in its list, or among those it no longer lists. -/
def UnconfiguredRecord.Names (r : UnconfiguredRecord) (device : Bytes) : Prop :=
  device ∈ r.devices ∨ r.overflow = true

namespace DurableQueue

/-- The fault for an unconfigured device is active, where faults are recorded at all. -/
def RaisesUnconfigured (q : DurableQueue) : Prop :=
  ∀ faults, q.faults = some faults → (Fault.deviceUnconfigured, devicesFaultSource) ∈ faults

/-- The memory with a record of the unconfigured devices taken over. -/
def takeRecord (q : DurableQueue) (r : UnconfiguredRecord) : DurableQueue :=
  let q := { q with
    unconfigured := q.unconfigured ∪ r.devices.toFinset
    unconfiguredOverflow := r.overflow }
  if q.unconfigured ≠ ∅ ∨ q.unconfiguredOverflow then
    q.noteFault .deviceUnconfigured devicesFaultSource true
  else q

@[simp] theorem takeRecord_unconfigured (q : DurableQueue) (r : UnconfiguredRecord) :
    (q.takeRecord r).unconfigured = q.unconfigured ∪ r.devices.toFinset := by
  unfold takeRecord
  simp only
  split <;> rfl

@[simp] theorem takeRecord_overflow (q : DurableQueue) (r : UnconfiguredRecord) :
    (q.takeRecord r).unconfiguredOverflow = r.overflow := by
  unfold takeRecord
  simp only
  split <;> rfl

theorem takeRecord_names {r : UnconfiguredRecord} {device : Bytes} (q : DurableQueue)
    (h : r.Names device) :
    (q.takeRecord r).Names device ∧ (q.takeRecord r).RaisesUnconfigured := by
  constructor
  · rw [Names, takeRecord_unconfigured, takeRecord_overflow, Finset.mem_union, List.mem_toFinset]
    exact h.imp .inr id
  · have hsome : q.unconfigured ∪ r.devices.toFinset ≠ ∅ ∨ r.overflow = true :=
      h.imp (fun hd => Finset.ne_empty_of_mem (Finset.mem_union_right _ (List.mem_toFinset.mpr hd)))
        id
    intro faults hfaults
    have heq : q.takeRecord r = noteFault { q with
        unconfigured := q.unconfigured ∪ r.devices.toFinset
        unconfiguredOverflow := r.overflow } .deviceUnconfigured devicesFaultSource true :=
      if_pos hsome
    rw [heq] at hfaults
    obtain ⟨before, -, rfl⟩ := Option.map_eq_some_iff.mp hfaults
    simp [Recorder.note]

end DurableQueue

/-- **What a load takes from the record's file**: nothing when there is none, and its record
otherwise. -/
theorem loadUnconfigured_ok {q' : DurableQueue} :
    loadUnconfigured d (d.lookup unconfiguredFileName).isSome q = .ok q' ↔
      d.lookup unconfiguredFileName = none ∧ q' = q ∨
      ∃ f r, d.lookup unconfiguredFileName = some f ∧ HoldsRecord f r ∧ q' = q.takeRecord r := by
  cases hf : d.lookup unconfiguredFileName with
  | none => simp [loadUnconfigured, eq_comm]
  | some f =>
    simp only [loadUnconfigured, Option.isSome_some, Bool.not_true, Bool.false_eq_true, if_false,
      readPrivateSidecar, hf, reduceCtorEq, false_and, false_or]
    constructor
    · intro h
      obtain ⟨raw, hraw, h⟩ := bind_eq_ok.mp h
      split at hraw
      · cases hraw
      · next hkind =>
        split at hraw
        · cases hraw
        · next hprivate =>
          cases hraw
          split at h
          · cases h
          · next r hr =>
            split at h
            · cases h
            · next hchecks =>
              simp only [not_or, not_not, not_lt, Bool.not_eq_true, List.any_eq_false,
                Bool.not_eq_eq_eq_not] at hchecks
              refine ⟨f, r, rfl, ⟨not_not.mp hkind, by simpa using hprivate, hr, hchecks.1,
                hchecks.2.1, fun device hdevice => by simpa using hchecks.2.2 device hdevice⟩, ?_⟩
              unfold takeRecord
              simp only at h ⊢
              split at h <;> rename_i hsome <;> cases h
              · rw [if_pos hsome]
              · rw [if_neg hsome]
    · rintro ⟨_, r, ⟨⟩, hr, rfl⟩
      obtain ⟨hversion, hlength, hvalid⟩ := hr.acceptable
      have hchecks : ¬ (r.v ≠ unconfiguredFileVersion ∨
          maxUnconfiguredDevices < r.devices.length ∨
          (r.devices.any fun device => !validRoutingDeviceID device) = true) := by
        simp only [not_or, not_not, not_lt, Bool.not_eq_true, List.any_eq_false]
        exact ⟨hversion, hlength, fun device hdevice => by simp [hvalid device hdevice]⟩
      rw [if_neg (not_not.mpr hr.regular), if_neg (by simp [hr.isPrivate])]
      simp only [bind, Except.bind, hr.decoded]
      rw [if_neg hchecks]
      unfold takeRecord
      simp only
      split <;> rfl

/-! ## Opening -/

/-- A record's file that a load accepts: none, or one with an acceptable record. -/
def Readable (v : Option File) : Prop := ∀ f, v = some f → ∃ r, HoldsRecord f r

def FileNames (device : Bytes) (v : Option File) : Prop :=
  ∃ f r, v = some f ∧ HoldsRecord f r ∧ r.Names device

/-- **A directory opens if one with the same records does** and its record of the unconfigured
devices is readable. -/
theorem openDurableQueue_of_same {opts : QueueOptions} (hopen : openDurableQueue opts d = .ok q)
    (hsame : SameRecords d d') (hread : Readable (d'.lookup unconfiguredFileName)) :
    ∃ q', openDurableQueue opts d' = .ok q' := by
  obtain ⟨hitems, hbytes, hmarker, q₀, hshares, hload⟩ := openDurableQueue_ok hopen
  obtain ⟨q₁, -, -, hload'⟩ := load_of_same hload hsame
  have hlast : ∃ q', loadUnconfigured d' (d'.lookup unconfiguredFileName).isSome q₁ = .ok q' := by
    cases hf : d'.lookup unconfiguredFileName with
    | none => exact ⟨q₁, rfl⟩
    | some f =>
      obtain ⟨r, hr⟩ := hread f hf
      refine ⟨q₁.takeRecord r, ?_⟩
      rw [← hf]
      exact loadUnconfigured_ok.mpr (.inr ⟨f, r, hf, hr, rfl⟩)
  obtain ⟨q', hq'⟩ := hlast
  refine ⟨q', ?_⟩
  have hmarker' : ensureQueueMarker d' = .ok () := by
    rw [← hmarker]
    exact Stores.ensureQueueMarker_congr (hsame _ (by decide) (by decide) (by decide)).symm
  rw [openDurableQueue, if_neg (by omega), if_neg (by omega), hmarker']
  simp only [bind, Except.bind, hshares, hload', hq', Except.mapError]

/-- **What an opened queue has of the unconfigured devices** is what its directory's record says. -/
theorem unconfigured_of_open {opts : QueueOptions} (hopen : openDurableQueue opts d = .ok q) :
    Readable (d.lookup unconfiguredFileName) ∧ DevicesKept q ∧
      ∀ device, FileNames device (d.lookup unconfiguredFileName) →
        q.Names device ∧ q.RaisesUnconfigured := by
  obtain ⟨-, -, -, q₀, hshares, hload⟩ := openDurableQueue_ok hopen
  have hself : SameRecords d d := fun _ _ _ _ => rfl
  obtain ⟨q₁, hdevices, hlast, -⟩ := load_of_same hload hself
  have hempty : q₁.unconfigured = ∅ := by
    rw [hdevices, reserveShares_ok hshares]
    rfl
  rcases loadUnconfigured_ok.mp hlast with ⟨hnone, rfl⟩ | ⟨f, r, hf, hr, rfl⟩
  · rw [hnone]
    refine ⟨fun f hf => (by cases hf), ⟨by simp [hempty], by simp [hempty]⟩, ?_⟩
    rintro device ⟨f, r, ⟨⟩, -⟩
  · rw [hf]
    refine ⟨?_, ⟨?_, ?_⟩, ?_⟩
    · rintro f' ⟨⟩
      exact ⟨r, hr⟩
    · simpa [hempty] using hr.acceptable.2.2
    · rw [takeRecord_unconfigured, hempty, Finset.empty_union]
      exact (List.toFinset_card_le _).trans hr.acceptable.2.1
    · rintro device ⟨f', r', ⟨⟩, hr', hnames⟩
      obtain rfl : r' = r := Option.some.inj (hr'.decoded.symm.trans hr.decoded)
      exact q₁.takeRecord_names hnames

end OriGateway
