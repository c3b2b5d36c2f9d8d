import OriGateway.Evidence.Unconfigured

/-! # Notes of unconfigured devices

A carriage for a device that is not configured is noted, so that the fault it raises outlives the
process. A note that returned should therefore be found again at every later start, until the device
is admitted.

A note is in memory before it is in the directory, and a later note of the same device returns
without a write. So the property fails after a failed write, when a second note returns
(**`note_lost_after_failed_write`**). It holds in every run in which each note that returns without
a write finds the device already recorded in the directory (**`note_survives_restart`**). -/

namespace OriGateway

open Foundation DurableQueue

/-! ## Restarts -/

/-- **The queue is opened again**, on the directory the process saw or on one that survives a
crash. -/
inductive Restarted (opts : QueueOptions) (w : World DurableQueue) : World DurableQueue → Prop where
  | process {q : DurableQueue} {s : Store} (script : List Outcome) (temps : Nat)
      (hopen : openDurableQueue opts w.store.live = .ok q) (hstore : SameStore w.store s) :
      Restarted opts w ⟨q, s, script, temps⟩
  | machine {q : DurableQueue} {d : Directory} (temps : Nat) (hd : w.store.Survives d)
      (hopen : openDurableQueue opts d = .ok q) : Restarted opts w (openedWorld q d temps)

theorem synced_freshDirectory (n : Bytes) (f : File) (h : freshDirectory.lookup n = some f) :
    f.synced = true := by
  rw [freshDirectory, lookup_insert_ite] at h
  split at h
  · cases h
    rfl
  · cases h

/-! ## Writing the record -/

namespace DurableQueue

variable {q : DurableQueue} {device : Bytes}

/-- The file a memory's unconfigured devices are written to: none when there are none. -/
def devicesFile (q : DurableQueue) : Option File :=
  if q.unconfigured = ∅ ∧ q.unconfiguredOverflow = false then none
  else some (replacement q.unconfiguredRecord.marshal)

theorem unconfiguredWrite_eq (q : DurableQueue) (s : Store) :
    q.unconfiguredWrite s = s.set unconfiguredFileName q.devicesFile := by
  unfold unconfiguredWrite devicesFile
  split <;> rfl

theorem synced_devicesFile (q : DurableQueue) (f : File) (h : q.devicesFile = some f) :
    f.synced = true := by
  unfold devicesFile at h
  split at h
  · cases h
  · cases h
    rfl

theorem DevicesKept.holdsRecord (hq : DevicesKept q) :
    HoldsRecord (replacement q.unconfiguredRecord.marshal) q.unconfiguredRecord where
  regular := rfl
  isPrivate := (by decide : (0o600 &&& 0o077 == 0) = true)
  decoded := UnconfiguredRecord.unmarshal_marshal rfl fun device hdevice =>
    valid_of_validRoutingDeviceID (hq.acceptable.2.2 device hdevice)
  acceptable := hq.acceptable

theorem DevicesKept.readable (hq : DevicesKept q) : Readable q.devicesFile := by
  intro f hf
  unfold devicesFile at hf
  split at hf
  · cases hf
  · cases hf
    exact ⟨_, hq.holdsRecord⟩

theorem DevicesKept.fileNames (hq : DevicesKept q) (h : q.Names device) :
    FileNames device q.devicesFile := by
  have hsome : ¬ (q.unconfigured = ∅ ∧ q.unconfiguredOverflow = false) := by
    rintro ⟨hempty, hoverflow⟩
    rcases h with h | h
    · rw [hempty] at h
      exact absurd h (Finset.notMem_empty _)
    · rw [hoverflow] at h
      cases h
  refine ⟨_, _, if_neg hsome, hq.holdsRecord, ?_⟩
  rcases h with h | h
  · exact .inl ((mem_sortedKeys _ _ _).mpr h)
  · exact .inr h

theorem SameButFaults.names {q' : DurableQueue} (hs : SameButFaults q q') (h : q.Names device) :
    q'.Names device := by
  rw [hs]
  exact h

theorem SameButFaults.devicesKept {q' : DurableQueue} (hs : SameButFaults q q')
    (h : DevicesKept q) : DevicesKept q' := by
  rw [hs]
  exact { h with }

theorem UnconfiguredChange.devicesKept {q' : DurableQueue} (hc : UnconfiguredChange q q')
    (h : DevicesKept q) : DevicesKept q' :=
  ⟨hc.valid h.valid, hc.card_le h.card_le⟩

section Programs

variable {w : World DurableQueue} {C : World DurableQueue → Prop}

/-- **What writing the record does to the directory**, whatever of it fails. -/
theorem wp_writes_writeUnconfiguredLocked (hw : Store.Flushed queueTempPrefix w.store) :
    wp writeUnconfiguredLocked
      (fun r w' => SameButFaults w.mem w'.mem ∧
        Store.Writes queueTempPrefix unconfiguredFileName w.mem.devicesFile w.store w'.store ∧
        (r = .ok () → ∀ v, w'.store.MayShow unconfiguredFileName v → v = w.mem.devicesFile))
      (fun w' => Store.Writes queueTempPrefix unconfiguredFileName w.mem.devicesFile w.store
        w'.store) w := by
  have hsynced := w.mem.synced_devicesFile
  refine wp_writeUnconfiguredLocked (fun w' hs ha => ?_) (fun e w' _ hs ha => ?_)
    fun w' hm ha => ?_
  · rw [unconfiguredWrite_eq] at ha
    exact ⟨hs, hw.writes_sync hsynced ha, fun _ v hv => hv.of_set_sync (by decide) hsynced ha⟩
  · rw [unconfiguredWrite_eq] at ha
    exact ⟨hs, ha.elim hw.writes (hw.writes_set hsynced), fun h => by cases h⟩
  · rw [unconfiguredWrite_eq] at ha
    exact ha.elim hw.writes (hw.writes_set hsynced)

end Programs

end DurableQueue

/-! ## Runs over restarts -/

/-- A queue in service, with the devices whose note returned and that were not admitted since. -/
structure DeviceNotes where
  opts : QueueOptions
  world : World DurableQueue
  noted : Finset Bytes

def QueueOp.isNote : QueueOp → Bool
  | .noteUnconfiguredDevice _ | .noteAdmittedDevice _ | .probe _ => true
  | .enqueue .. | .stage .. | .remove _ | .hold _ | .setBackoff _ | .clearBackoff _ => false

/-- The devices noted and not admitted since, after an operation: its result, or none when the
process stopped inside it. -/
def notedAfter (noted : Finset Bytes) : QueueOp → Option (Except QueueError Unit) → Finset Bytes
  | .noteUnconfiguredDevice device, some (.ok ()) => insert device noted
  | .noteAdmittedDevice device, _ => noted.erase device
  | _, _ => noted

/-- **The process stops**: between two operations, or inside one. -/
inductive Stopped (w : World DurableQueue) : Option QueueOp → World DurableQueue → Prop where
  | between : Stopped w none w
  | inside {c : QueueCall} {w' : World DurableQueue} (hop : c.op.isNote = true)
      (hrun : c.run w = .crashed w') : Stopped w (some c.op) w'

namespace DeviceNotes

def start (opts : QueueOptions) (q : DurableQueue) (d : Directory) (temps : Nat) : DeviceNotes :=
  ⟨opts, openedWorld q d temps, ∅⟩

/-- **A step**: a call that returns, or a restart under any options. -/
inductive Step (s : DeviceNotes) : Option QueueOp → DeviceNotes → Prop where
  | call {c : QueueCall} {r : Except QueueError Unit} {w' : World DurableQueue}
      (hop : c.op.isNote = true) (hrun : c.run s.world = .done r w') :
      Step s (some c.op) ⟨s.opts, w', notedAfter s.noted c.op (some r)⟩
  /-- The process stops and the queue is opened again. -/
  | restart {opts : QueueOptions} {inFlight : Option QueueOp} {w w' : World DurableQueue}
      (hstop : Stopped s.world inFlight w) (hopen : Restarted opts w w') :
      Step s none ⟨opts, w', inFlight.elim s.noted fun op => notedAfter s.noted op none⟩

/-- **A note that returns without a write finds the device recorded**: whatever of the record a
restart may find names it. -/
def Confirmed (s : DeviceNotes) (op : Option QueueOp) : Prop :=
  ∀ device, op = some (.noteUnconfiguredDevice device) → s.world.mem.Silent device →
    ∀ v, s.world.store.MayShow unconfiguredFileName v → FileNames device v

def Run (P : DeviceNotes → Option QueueOp → Prop) : DeviceNotes → DeviceNotes → Prop :=
  Relation.ReflTransGen fun s s' => ∃ op, P s op ∧ s.Step op s'

end DeviceNotes

/-! ## What the directory keeps -/

/-- **A directory that keeps the notes of some devices**: whatever a restart may find of it opens,
and names the devices. -/
structure Recorded (opts : QueueOptions) (noted : Finset Bytes) (s : Store) : Prop where
  /-- The records and sidecars are those of a directory that opens. -/
  opens : ∃ d q, openDurableQueue opts d = .ok q ∧
    ∀ n v, ¬ queueTempPrefix <+: n → n ≠ probeFileName → n ≠ unconfiguredFileName →
      s.MayShow n v → v = d.lookup n
  flushed : Store.Flushed queueTempPrefix s
  readable : ∀ v, s.MayShow unconfiguredFileName v → Readable v
  names : ∀ device ∈ noted, ∀ v, s.MayShow unconfiguredFileName v → FileNames device v

namespace Recorded

variable {opts : QueueOptions} {noted : Finset Bytes} {s s' : Store}

theorem mono (h : Recorded opts noted s) {noted' : Finset Bytes} (hsub : noted' ⊆ noted) :
    Recorded opts noted' s :=
  { h with names := fun device hdevice => h.names device (hsub hdevice) }

theorem insert (h : Recorded opts noted s) {device : Bytes}
    (hdevice : ∀ v, s.MayShow unconfiguredFileName v → FileNames device v) :
    Recorded opts (insert device noted) s where
  opens := h.opens
  flushed := h.flushed
  readable := h.readable
  names other hother v hv := by
    rcases Finset.mem_insert.mp hother with rfl | hother
    · exact hdevice v hv
    · exact h.names other hother v hv

/-- A write of one file keeps the notes, if it is the probe's or the record of a memory that names
the devices. -/
theorem writes (h : Recorded opts noted s) {name : Bytes} {new : Option File}
    (hname : name = probeFileName ∨ name = unconfiguredFileName)
    (hread : name = unconfiguredFileName → Readable new)
    (hnames : name = unconfiguredFileName → ∀ device ∈ noted, FileNames device new)
    (hw : Store.Writes queueTempPrefix name new s s') : Recorded opts noted s' where
  opens := by
    obtain ⟨d, q, hopen, hsame⟩ := h.opens
    refine ⟨d, q, hopen, fun n v hn hprobe hdevices hv => ?_⟩
    rcases hw.shows n v hn hv with hv | ⟨rfl, -⟩
    · exact hsame n v hn hprobe hdevices hv
    · exact absurd hname (not_or.mpr ⟨hprobe, hdevices⟩)
  flushed := hw.flushed
  readable v hv := by
    rcases hw.shows _ v (by decide) hv with hv | ⟨heq, rfl⟩
    · exact h.readable v hv
    · exact hread heq.symm
  names device hdevice v hv := by
    rcases hw.shows _ v (by decide) hv with hv | ⟨heq, rfl⟩
    · exact h.names device hdevice v hv
    · exact hnames heq.symm device hdevice

theorem sameRecords (h : Recorded opts noted s) :
    ∃ d q, openDurableQueue opts d = .ok q ∧
      ∀ d', s.Leaves d' → SameRecords d d' ∧ Readable (d'.lookup unconfiguredFileName) := by
  obtain ⟨d, q, hopen, hsame⟩ := h.opens
  refine ⟨d, q, hopen, fun d' hd' => ⟨fun n hn hprobe hdevices => ?_, ?_⟩⟩
  · exact (hsame n _ hn hprobe hdevices (hd'.mayShow n)).symm
  · exact h.readable _ (hd'.mayShow _)

end Recorded

/-- **A queue in service that keeps its notes**: its directory does, and its memory names the
devices. -/
structure DeviceNotes.Kept (s : DeviceNotes) : Prop where
  recorded : Recorded s.opts s.noted s.world.store
  devices : DevicesKept s.world.mem
  names : ∀ device ∈ s.noted, s.world.mem.Names device

namespace DeviceNotes

variable {s s' : DeviceNotes}

/-! ## Steps -/

section Calls

variable {opts : QueueOptions} {noted : Finset Bytes} {w : World DurableQueue} {device : Bytes}

/-- The record is written from a memory that names the devices: they stay recorded, and once the
write returned every device the memory names is. -/
theorem wp_kept_writeUnconfiguredLocked (h : Kept ⟨opts, w, noted⟩) :
    wp writeUnconfiguredLocked
      (fun r w' => SameButFaults w.mem w'.mem ∧ Kept ⟨opts, w', noted⟩ ∧
        (r = .ok () → ∀ device, w.mem.Names device →
          ∀ v, w'.store.MayShow unconfiguredFileName v → FileNames device v))
      (fun w' => Recorded opts noted w'.store) w := by
  have hkeeps : ∀ {s : Store},
      Store.Writes queueTempPrefix unconfiguredFileName w.mem.devicesFile w.store s →
      Recorded opts noted s := fun hw =>
    h.recorded.writes (.inr rfl) (fun _ => h.devices.readable)
      (fun _ device hdevice => h.devices.fileNames (h.names device hdevice)) hw
  refine wp_mono (wp_writes_writeUnconfiguredLocked h.recorded.flushed) ?_ fun w' hw => hkeeps hw
  rintro r w' ⟨hs, hw, hshows⟩
  refine ⟨hs, ⟨hkeeps hw, hs.devicesKept h.devices, ?_⟩, fun hr device hdevice v hv => ?_⟩
  · exact fun device hdevice => hs.names (h.names device hdevice)
  · rw [hshows hr v hv]
    exact h.devices.fileNames hdevice

theorem wp_kept_noteUnconfiguredDevice (h : Kept ⟨opts, w, noted⟩) :
    wp (noteUnconfiguredDevice device)
      (fun r w' => Confirmed ⟨opts, w, noted⟩ (some (.noteUnconfiguredDevice device)) →
        Kept ⟨opts, w', notedAfter noted (.noteUnconfiguredDevice device) (some r)⟩)
      (fun w' => Recorded opts noted w'.store) w := by
  refine wp_noteUnconfiguredDevice (fun q' hs hsilent hconfirmed => ?_)
    fun q' hc hdevice hothers => ?_
  · refine ⟨h.recorded.insert (hconfirmed device rfl hsilent), hs.devicesKept h.devices, ?_⟩
    intro other hother
    refine hs.names ?_
    rcases Finset.mem_insert.mp hother with rfl | hother
    · exact hsilent.names
    · exact h.names other hother
  · have h' : Kept ⟨opts, { w with mem := q' }, noted⟩ :=
      ⟨h.recorded, hc.devicesKept h.devices,
        fun other hother => hothers other (h.names other hother)⟩
    refine wp_mono (wp_kept_writeUnconfiguredLocked h') ?_ fun w' hw => hw
    rintro (e | ⟨⟩) w' ⟨hs, hkept, hshows⟩ -
    · exact hkept
    · refine ⟨hkept.recorded.insert (hshows rfl device hdevice), hkept.devices, ?_⟩
      intro other hother
      rcases Finset.mem_insert.mp hother with rfl | hother
      · exact hs.names hdevice
      · exact hkept.names other hother

theorem wp_kept_noteAdmittedDevice (h : Kept ⟨opts, w, noted⟩) :
    wp (noteAdmittedDevice device) (fun _ w' => Kept ⟨opts, w', noted.erase device⟩)
      (fun w' => Recorded opts (noted.erase device) w'.store) w := by
  have hrest : Kept ⟨opts, w, noted.erase device⟩ :=
    ⟨h.recorded.mono (Finset.erase_subset _ _), h.devices,
      fun other hother => h.names other (Finset.mem_of_mem_erase hother)⟩
  refine wp_noteAdmittedDevice hrest fun q' hc hothers => ?_
  have h' : Kept ⟨opts, { w with mem := q' }, noted.erase device⟩ :=
    ⟨hrest.recorded, hc.devicesKept h.devices, fun other hother =>
      hothers other (Finset.ne_of_mem_erase hother) (hrest.names other hother)⟩
  refine wp_mono (wp_kept_writeUnconfiguredLocked h') ?_ fun w' hw => hw
  rintro r w' ⟨-, hkept, -⟩ q'' hs
  exact ⟨hkept.recorded, hs.devicesKept hkept.devices,
    fun other hother => hs.names (hkept.names other hother)⟩

theorem wp_kept_probe (h : Kept ⟨opts, w, noted⟩) (body : Bytes) :
    wp (probe body) (fun _ w' => Kept ⟨opts, w', noted⟩)
      (fun w' => Recorded opts noted w'.store) w := by
  have hsynced : ∀ f, some (replacement body) = some f → f.synced = true := by
    rintro f ⟨⟩
    rfl
  have hkeeps : ∀ {s : Store},
      Store.Writes queueTempPrefix probeFileName (some (replacement body)) w.store s →
      Recorded opts noted s := fun hw =>
    h.recorded.writes (.inl rfl) (fun heq => absurd heq (by decide))
      (fun heq => absurd heq (by decide)) hw
  have hmemory : ∀ {w' : World DurableQueue}, SameButFaults w.mem w'.mem →
      Recorded opts noted w'.store → Kept ⟨opts, w', noted⟩ := fun hs hw =>
    ⟨hw, hs.devicesKept h.devices, fun device hdevice => hs.names (h.names device hdevice)⟩
  have hflushed := h.recorded.flushed
  refine wp_probe (fun w' hs ha => ?_) (fun e w' _ hs ha => ?_) fun w' _ ha => ?_
  · exact hmemory hs (hkeeps (hflushed.writes_sync hsynced ha))
  · exact hmemory hs (hkeeps (ha.elim hflushed.writes (hflushed.writes_set hsynced)))
  · exact hkeeps (ha.elim hflushed.writes (hflushed.writes_set hsynced))

/-- **A call keeps the notes** when a note it confirms is recorded; and so does the directory it
leaves when the process stops inside it. -/
theorem Kept.wp_program {op : QueueOp} (hop : op.isNote = true) (h : Kept ⟨opts, w, noted⟩) :
    wp op.program
      (fun r w' => Confirmed ⟨opts, w, noted⟩ (some op) →
        Kept ⟨opts, w', notedAfter noted op (some r)⟩)
      (fun w' => Recorded opts (notedAfter noted op none) w'.store) w := by
  cases op with
  | noteUnconfiguredDevice device => exact wp_kept_noteUnconfiguredDevice h
  | noteAdmittedDevice device =>
    exact wp_mono (wp_kept_noteAdmittedDevice h) (fun _ _ hw _ => hw) fun _ hw => hw
  | probe body => exact wp_mono (wp_kept_probe h body) (fun _ _ hw _ => hw) fun _ hw => hw
  | enqueue | stage | remove | hold | setBackoff | clearBackoff => cases hop

end Calls

theorem Kept.call (h : s.Kept) {c : QueueCall} (hop : c.op.isNote = true) :
    wp c.op.program
      (fun r w' => s.Confirmed (some c.op) → Kept ⟨s.opts, w', notedAfter s.noted c.op (some r)⟩)
      (fun w' => Recorded s.opts (notedAfter s.noted c.op none) w'.store)
      { s.world with script := c.script } :=
  Kept.wp_program (w := { s.world with script := c.script }) hop
    ⟨h.recorded, h.devices, h.names⟩

theorem Kept.stopped {inFlight : Option QueueOp} {w : World DurableQueue} (h : s.Kept)
    (hstop : Stopped s.world inFlight w) :
    Recorded s.opts (inFlight.elim s.noted fun op => notedAfter s.noted op none) w.store := by
  cases hstop with
  | between => exact h.recorded
  | inside hop hrun => exact (h.call hop).crashed hrun

end DeviceNotes

theorem Recorded.opened {opts : QueueOptions} {noted : Finset Bytes} {s s' : Store}
    {d : Directory} {q : DurableQueue} {script : List Outcome} {temps : Nat} {opts' : QueueOptions}
    (h : Recorded opts noted s) (hd : s.Leaves d) (hopen : openDurableQueue opts' d = .ok q)
    (hflushed : Store.Flushed queueTempPrefix s')
    (hshows : ∀ n v, ¬ queueTempPrefix <+: n → s'.MayShow n v → s.MayShow n v)
    (hrecords : ∀ n v, ¬ queueTempPrefix <+: n → n ≠ probeFileName → n ≠ unconfiguredFileName →
      s.MayShow n v → v = d.lookup n) :
    DeviceNotes.Kept ⟨opts', ⟨q, s', script, temps⟩, noted⟩ := by
  obtain ⟨-, hdevices, hnames⟩ := unconfigured_of_open hopen
  refine ⟨⟨⟨d, q, hopen, fun n v hn hprobe hrecord hv => ?_⟩, hflushed, fun v hv => ?_,
    fun device hdevice v hv => ?_⟩, hdevices, fun device hdevice => ?_⟩
  · exact hrecords n v hn hprobe hrecord (hshows n v hn hv)
  · exact h.readable v (hshows _ v (by decide) hv)
  · exact h.names device hdevice v (hshows _ v (by decide) hv)
  · exact (hnames device (h.names device hdevice _ (hd.mayShow _))).1

/-- **A restart keeps the notes.** -/
theorem Recorded.restarted {opts opts' : QueueOptions} {noted : Finset Bytes}
    {w w' : World DurableQueue} (h : Recorded opts noted w.store)
    (hopen : Restarted opts' w w') : DeviceNotes.Kept ⟨opts', w', noted⟩ := by
  obtain ⟨d₀, q₀, -, hsame⟩ := h.opens
  -- a name that counts shows one value alone, so any directory found has it
  have hrecords : ∀ {d : Directory}, w.store.Leaves d → ∀ n v, ¬ queueTempPrefix <+: n →
      n ≠ probeFileName → n ≠ unconfiguredFileName → w.store.MayShow n v → v = d.lookup n := by
    intro d hd n v hn hprobe hrecord hv
    rw [hsame n v hn hprobe hrecord hv, hsame n _ hn hprobe hrecord (hd.mayShow n)]
  cases hopen with
  | process script temps hopen hstore =>
    exact h.opened (.inl rfl) hopen (h.flushed.of_agrees hstore)
      (fun n v hn hv => hv.of_agrees hstore hn) (hrecords (.inl rfl))
  | @machine q d temps hd hopen =>
    have hagrees := Directory.agrees_withoutScratch queueTempPrefix d
    have hsynced : ∀ n f, ¬ queueTempPrefix <+: n →
        (Directory.withoutScratch queueTempPrefix d).lookup n = some f → f.synced = true :=
      fun n f hn hf => hd.synced ((hagrees n hn).trans hf)
    refine h.opened (.inr hd) hopen hsynced (fun n v hn hv => ?_) (hrecords (.inr hd))
    rw [hv.of_ofDirectory fun f hf => hsynced n f hn hf, ← hagrees n hn]
    exact (Store.Leaves.mayShow (.inr hd) n)

namespace DeviceNotes

variable {s s' : DeviceNotes}

/-- **A step keeps the notes.** -/
theorem Kept.step {op : Option QueueOp} (h : s.Kept) (hconfirmed : s.Confirmed op)
    (hstep : s.Step op s') : s'.Kept := by
  cases hstep with
  | call hop hrun => exact (h.call hop).done hrun hconfirmed
  | restart hstop hopen => exact (h.stopped hstop).restarted hopen

theorem kept_start {opts : QueueOptions} {d : Directory} {q : DurableQueue}
    (hopen : openDurableQueue opts d = .ok q)
    (hflushed : ∀ n f, d.lookup n = some f → f.synced = true) (temps : Nat) :
    (start opts q d temps).Kept := by
  have hagrees := Directory.agrees_withoutScratch queueTempPrefix d
  have hsynced : ∀ n f, ¬ queueTempPrefix <+: n →
      (Directory.withoutScratch queueTempPrefix d).lookup n = some f → f.synced = true :=
    fun n f hn hf => hflushed n f ((hagrees n hn).trans hf)
  have hshows : ∀ n v, ¬ queueTempPrefix <+: n →
      (start opts q d temps).world.store.MayShow n v → v = d.lookup n := by
    intro n v hn hv
    rw [hv.of_ofDirectory fun f hf => hsynced n f hn hf, ← hagrees n hn]
  obtain ⟨hread, hdevices, -⟩ := unconfigured_of_open hopen
  refine ⟨⟨⟨d, q, hopen, fun n v hn _ _ hv => hshows n v hn hv⟩, hsynced, fun v hv => ?_, ?_⟩,
    hdevices, ?_⟩
  · rw [hshows _ v (by decide) hv]
    exact hread
  · exact fun device hdevice => absurd hdevice (Finset.notMem_empty _)
  · exact fun device hdevice => absurd hdevice (Finset.notMem_empty _)

/-- **A run keeps the notes.** -/
theorem Kept.run (h : s.Kept) (hrun : Run Confirmed s s') : s'.Kept := by
  induction hrun with
  | refl => exact h
  | tail _ hstep ih =>
    obtain ⟨op, hconfirmed, hstep⟩ := hstep
    exact ih.step hconfirmed hstep

end DeviceNotes

/-- **A note that returned is found again.** From a queue that was opened, take any run of notes,
admissions, probes and restarts, with any file-system call failing, in which every note that returns
without a write finds the device recorded. Let the process then stop between two operations or
inside one that is not an admission of the device, or let the machine go down there. For every
device whose note returned and that was not admitted since, the directory that is left has a record
that names the device or has its overflow flag set; it opens; and whatever is opened from it raises
the fault. -/
theorem note_survives_restart {opts : QueueOptions} {d₀ : Directory} {q : DurableQueue}
    (hopen : openDurableQueue opts d₀ = .ok q)
    (hflushed : ∀ n f, d₀.lookup n = some f → f.synced = true) (temps : Nat) {s : DeviceNotes}
    (hrun : DeviceNotes.Run DeviceNotes.Confirmed (.start opts q d₀ temps) s) {device : Bytes}
    (hnoted : device ∈ s.noted) {inFlight : Option QueueOp} {w : World DurableQueue}
    (hstop : Stopped s.world inFlight w)
    (hadmission : inFlight ≠ some (.noteAdmittedDevice device)) {d : Directory}
    (hd : w.store.Leaves d) :
    (∃ f r, d.lookup unconfiguredFileName = some f ∧ HoldsRecord f r ∧
        (device ∈ r.devices ∨ r.overflow = true)) ∧
      (∃ q', openDurableQueue s.opts d = .ok q') ∧
      ∀ opts' q', openDurableQueue opts' d = .ok q' → q'.Names device ∧ q'.RaisesUnconfigured := by
  have hkept := (DeviceNotes.kept_start hopen hflushed temps).run hrun
  have hrecorded := hkept.stopped hstop
  have hmember : device ∈ inFlight.elim s.noted fun op => notedAfter s.noted op none := by
    cases inFlight with
    | none => exact hnoted
    | some op =>
      cases op with
      | noteAdmittedDevice other =>
        refine Finset.mem_erase.mpr ⟨?_, hnoted⟩
        rintro rfl
        exact hadmission rfl
      | _ => exact hnoted
  have hnames := hrecorded.names device hmember _ (hd.mayShow _)
  obtain ⟨d₁, q₁, hopen₁, hleft⟩ := hrecorded.sameRecords
  obtain ⟨hsame, hread⟩ := hleft d hd
  exact ⟨hnames, openDurableQueue_of_same hopen₁ hsame hread,
    fun opts' q' hopen' => (unconfigured_of_open hopen').2.2 device hnames⟩

/-! ## A note and a failed write -/

def alarmOptions : QueueOptions := { plainOptions with faults := some ∅ }

theorem openDurableQueue_alarmOptions :
    openDurableQueue alarmOptions freshDirectory = .ok (emptyQueue alarmOptions) :=
  openDurableQueue_freshDirectory (by decide) (by decide) rfl

def noteCall (script : List Outcome) : QueueCall := ⟨.noteUnconfiguredDevice (ascii "d"), script⟩

/-- A note whose write is made is found again. -/
theorem note_survives_restart_written :
    ∃ (w : World DurableQueue) (q' : DurableQueue),
      (noteCall []).run (openedWorld (emptyQueue alarmOptions) freshDirectory 0)
        = .done (.ok ()) w ∧
      openDurableQueue alarmOptions w.store.live = .ok q' ∧ q'.Names (ascii "d") ∧
      q'.RaisesUnconfigured := by
  obtain ⟨r, w, hcall, hok⟩ := Exec.returns_iff.mp (by decide +kernel :
    ((noteCall []).run (openedWorld (emptyQueue alarmOptions) freshDirectory 0)).returns
      (fun r _ => r.isOk) = true)
  obtain rfl : r = .ok () := by
    cases r with
    | error e => cases hok
    | ok u => rfl
  have hstep := DeviceNotes.Step.call (s := .start alarmOptions (emptyQueue alarmOptions)
    freshDirectory 0) (c := noteCall []) rfl hcall
  have hrun : DeviceNotes.Run DeviceNotes.Confirmed
      (.start alarmOptions (emptyQueue alarmOptions) freshDirectory 0)
      ⟨alarmOptions, w, insert (ascii "d") ∅⟩ := by
    refine .single ⟨_, ?_, hstep⟩
    rintro device - hsilent
    rcases hsilent with h | ⟨-, h⟩ <;> cases h
  obtain ⟨-, ⟨q', hq'⟩, hraises⟩ := note_survives_restart openDurableQueue_alarmOptions
    synced_freshDirectory 0 hrun (Finset.mem_insert_self _ _) .between (by simp) (.inl rfl)
  exact ⟨w, q', hcall, hq', hraises _ q' hq'⟩

/-- **A note is lost when its write fails and it is made again.** The first note fails and stays in
memory; the second finds it there and returns, and the directory has no record. -/
theorem note_lost_after_failed_write :
    ∃ (s : DeviceNotes) (q' : DurableQueue),
      DeviceNotes.Run (fun _ _ => True)
        (.start alarmOptions (emptyQueue alarmOptions) freshDirectory 0) s ∧
      ascii "d" ∈ s.noted ∧ s.world.store.live.lookup unconfiguredFileName = none ∧
      openDurableQueue alarmOptions s.world.store.live = .ok q' ∧ ¬ q'.Names (ascii "d") ∧
      ¬ q'.RaisesUnconfigured := by
  obtain ⟨r₁, w₁, hfirst, h⟩ := Exec.returns_iff.mp (by decide +kernel :
    ((noteCall [.fails]).run (openedWorld (emptyQueue alarmOptions) freshDirectory 0)).returns
      (fun _ w => ((noteCall []).run w).returns fun r w' => r.isOk &&
        (w'.store.live.lookup unconfiguredFileName).isNone &&
        (openDurableQueue alarmOptions w'.store.live).toOption.any fun q' =>
          decide (q'.unconfigured = ∅) && !q'.unconfiguredOverflow &&
            decide (q'.faults = some ∅)) = true)
  obtain ⟨r₂, w₂, hsecond, h⟩ := Exec.returns_iff.mp h
  simp only [Bool.and_eq_true, Option.any_eq_true, decide_eq_true_eq, Bool.not_eq_true',
    Option.isNone_iff_eq_none] at h
  obtain ⟨⟨hok, hnone⟩, q', hopen, ⟨hempty, hoverflow⟩, hfaults⟩ := h
  obtain rfl : r₂ = .ok () := by
    cases r₂ with
    | error e => cases hok
    | ok u => rfl
  have hopened : openDurableQueue alarmOptions w₂.store.live = .ok q' := by
    cases hresult : openDurableQueue alarmOptions w₂.store.live with
    | error e =>
      rw [hresult] at hopen
      cases hopen
    | ok q =>
      rw [hresult] at hopen
      exact congrArg _ (Option.some.inj hopen)
  have hrun := (Relation.ReflTransGen.single
    ⟨_, trivial, .call (c := noteCall [.fails]) rfl hfirst⟩ :
    DeviceNotes.Run (fun _ _ => True)
      (.start alarmOptions (emptyQueue alarmOptions) freshDirectory 0) _)
  refine ⟨_, q', hrun.tail ⟨_, trivial, .call (c := noteCall []) rfl hsecond⟩,
    Finset.mem_insert_self _ _, hnone, hopened, ?_, fun hraises => ?_⟩
  · rintro (h | h)
    · rw [hempty] at h
      cases h
    · rw [hoverflow] at h
      cases h
  · exact absurd (hraises ∅ hfaults) (Finset.notMem_empty _)

end OriGateway
