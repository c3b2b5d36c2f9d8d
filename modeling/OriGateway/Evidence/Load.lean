import OriGateway.Evidence.Queue

/-! # Opening a queue

What the loader makes of a queue directory: which kind of file each name stands for
(**`classify`**), the checks each file must pass, and the memory the queue starts with
(**`load`**). A file that fails a check refuses the whole directory. Reading the directory and its
files is taken to succeed; incomplete writes are removed. -/

namespace OriGateway

open Foundation

/-! ## Names -/

/-- The kind of file a name in a queue directory stands for. -/
inductive NameClass where
  /-- The marker, the probe file or a signing clock's mark: passed over. -/
  | ignored
  | unconfigured
  | hold (id : Bytes)
  | backoff (id : Bytes)
  | temp
  | record (id : Bytes)
  | unexpected
  deriving DecidableEq

/-- What a file's name says it is. -/
def classify (name : Bytes) : NameClass :=
  if name = queueMarkerName ∨ signingClockFilePrefix <+: name ∨ name = probeFileName then .ignored
  else if name = unconfiguredFileName then .unconfigured
  else if holdFilePrefix <+: name then .hold (name.drop holdFilePrefix.length)
  else if backoffFilePrefix <+: name then .backoff (name.drop backoffFilePrefix.length)
  else if queueTempPrefix <+: name then .temp
  else if queueFileSuffix <:+ name then
    .record (name.take (name.length - queueFileSuffix.length))
  else .unexpected

/-! ## Loading -/

/-- Why a directory is refused. -/
inductive LoadError where
  /-- "unexpected entry in durable queue". -/
  | unexpectedEntry
  /-- "queue record must be a regular file". -/
  | recordNotRegular
  /-- "queue record permissions are not private". -/
  | recordNotPrivate
  /-- "corrupt queue record". -/
  | corruptRecord
  /-- "invalid queue record". -/
  | invalidRecord
  /-- "queue record identity does not match its bytes". -/
  | identityMismatch
  /-- "queue record filename does not match its identity". -/
  | filenameMismatch
  /-- "duplicate queue record". -/
  | duplicateRecord
  /-- "duplicate durable queue sequence". -/
  | duplicateSequence
  /-- "existing durable queue exceeds configured bounds". -/
  | exceedsBounds
  /-- A sidecar "must be a regular file". -/
  | sidecarNotRegular (name : Bytes)
  /-- A sidecar's "permissions are not private". -/
  | sidecarNotPrivate (name : Bytes)
  /-- A "corrupt refused-head record" or "corrupt back-off record". -/
  | corruptSidecar (name : Bytes)
  /-- A sidecar "names queue record" other than its file's. -/
  | sidecarNames (name other : Bytes)
  /-- A sidecar that "has no queue record". -/
  | orphanSidecar (name : Bytes)
  /-- A hold that "does not match its queue record". -/
  | holdMismatch (id : Bytes) (e : HoldFault)
  /-- A back-off that "is invalid". -/
  | invalidBackoff (id : Bytes) (e : BackoffFault)
  /-- "corrupt unconfigured-device record". -/
  | corruptUnconfigured
  deriving DecidableEq

/-- What the loader has gathered so far. -/
structure LoadState where
  queue : DurableQueue
  seenQueueSeq : Finset Int
  holdNames : List Bytes
  backoffNames : List Bytes
  unconfiguredPresent : Bool

namespace DurableQueue

/-- Enter a record that was read. -/
def loadEntry (q : DurableQueue) (record : QueueRecord) (size : Int) : DurableQueue :=
  let q := { q with
    entries := q.entries.insert record.id record
    sizes := q.sizes.insert record.id size }
  let q := q.indexLocked record size
  { q with
    order := q.order ++ [record.id]
    bytes := q.bytes + size
    nextSeq := if record.queueSeq ≥ q.nextSeq then int64 (record.queueSeq + 1) else q.nextSeq }

end DurableQueue

/-- Check and enter a record's file. -/
def loadRecord (name : Bytes) (f : File) (st : LoadState) : Except LoadError LoadState :=
  if f.kind ≠ .regular then .error .recordNotRegular
  else if !f.isPrivate then .error .recordNotPrivate
  else
    match QueueRecord.unmarshal f.data with
    | none => .error .corruptRecord
    | some record =>
      if record.v ≠ queueRecordVersion ∨ record.queueSeq ≤ 0 ∨ record.enqueuedAtMS ≤ 0 ∨
          validQueueArtifactType record.type = false ∨ record.payload = [] then
        .error .invalidRecord
      else if record.id ≠ artifactID record.type record.payload then .error .identityMismatch
      else if name ≠ recordFile record.id then .error .filenameMismatch
      else if (st.queue.entries.lookup record.id).isSome then .error .duplicateRecord
      else if record.queueSeq ∈ st.seenQueueSeq then .error .duplicateSequence
      else .ok { st with
        queue := st.queue.loadEntry record (f.data.length : Nat)
        seenQueueSeq := insert record.queueSeq st.seenQueueSeq }

/-- Take one file of the directory. -/
def loadFile (name : Bytes) (f : File) (st : LoadState) : Except LoadError LoadState :=
  match classify name with
  | .ignored | .temp => .ok st
  | .unconfigured => .ok { st with unconfiguredPresent := true }
  | .hold _ => .ok { st with holdNames := st.holdNames ++ [name] }
  | .backoff _ => .ok { st with backoffNames := st.backoffNames ++ [name] }
  | .unexpected => .error .unexpectedEntry
  | .record _ =>
    if f.kind = .directory then .error .unexpectedEntry else loadRecord name f st

/-- Read a private regular file. -/
def readPrivateSidecar (d : Directory) (name : Bytes) : Except LoadError Bytes :=
  match d.lookup name with
  | none => .error (.sidecarNotRegular name)
  | some f =>
    if f.kind ≠ .regular then .error (.sidecarNotRegular name)
    else if !f.isPrivate then .error (.sidecarNotPrivate name)
    else .ok f.data

/-- Check and enter a hold's file. -/
def loadHold (d : Directory) (q : DurableQueue) (name : Bytes) : Except LoadError DurableQueue := do
  let id := name.drop holdFilePrefix.length
  let raw ← readPrivateSidecar d name
  match HoldRecord.unmarshal raw with
  | none => .error (.corruptSidecar name)
  | some record =>
    if record.queueRecord ≠ id then .error (.sidecarNames name record.queueRecord)
    else
      match q.entries.lookup id with
      | none => .error (.orphanSidecar name)
      | some queued =>
        match validateHoldRecord record queued with
        | .error e => .error (.holdMismatch id e)
        | .ok () => .ok { q with holds := q.holds.insert id record }

/-- Check and enter a back-off's file. -/
def loadBackoff (d : Directory) (q : DurableQueue) (name : Bytes) :
    Except LoadError DurableQueue := do
  let id := name.drop backoffFilePrefix.length
  let raw ← readPrivateSidecar d name
  match BackoffRecord.unmarshal raw with
  | none => .error (.corruptSidecar name)
  | some record =>
    if record.queueRecord ≠ id then .error (.sidecarNames name record.queueRecord)
    else
      match q.entries.lookup id with
      | none => .error (.orphanSidecar name)
      | some _ =>
        match validateBackoffRecord record with
        | .error e => .error (.invalidBackoff id e)
        | .ok () => .ok { q with backoffs := q.backoffs.insert id record }

/-- Load the record of the unconfigured devices, if there is one, and raise its fault. -/
def loadUnconfigured (d : Directory) (present : Bool) (q : DurableQueue) :
    Except LoadError DurableQueue :=
  if !present then .ok q
  else do
    let raw ← readPrivateSidecar d unconfiguredFileName
    match UnconfiguredRecord.unmarshal raw with
    | none => .error .corruptUnconfigured
    | some record =>
      if record.v ≠ unconfiguredFileVersion ∨
          DurableQueue.maxUnconfiguredDevices < record.devices.length ∨
          record.devices.any (fun device => !validRoutingDeviceID device) then
        .error .corruptUnconfigured
      else
        let q := { q with
          unconfigured := q.unconfigured ∪ record.devices.toFinset
          unconfiguredOverflow := record.overflow }
        if q.unconfigured ≠ ∅ ∨ q.unconfiguredOverflow then
          .ok (q.noteFault .deviceUnconfigured DurableQueue.devicesFaultSource true)
        else .ok q

def loadFiles (files : List (Bytes × File)) (st : LoadState) : Except LoadError LoadState :=
  files.foldlM (fun st file => loadFile file.1 file.2 st) st

/-- **The memory a directory's files make.** -/
def load (q : DurableQueue) (d : Directory) : Except LoadError DurableQueue := do
  let st ← loadFiles (Directory.files d) ⟨q, ∅, [], [], false⟩
  let q := st.queue.sortOrder
  if q.len > q.maxItems ∨ q.bytes > q.maxBytes then
    .error .exceedsBounds
  else do
    let q ← st.holdNames.foldlM (loadHold d) q
    let q ← st.backoffNames.foldlM (loadBackoff d) q
    loadUnconfigured d st.unconfiguredPresent q

/-! ## Opening -/

/-- Why a queue is not opened. -/
inductive OpenError where
  /-- "queue max items must be positive". -/
  | maxItems
  /-- "queue max bytes must be positive". -/
  | maxBytes
  /-- "existing queue directory has no ownership marker". -/
  | noMarker
  /-- "invalid queue ownership marker". -/
  | invalidMarker
  /-- "queue ownership marker does not match". -/
  | markerMismatch
  /-- "per-device queue shares require the configured devices". -/
  | sharesNeedDevices
  /-- "per-device queue share cannot hold the registration reserve and one maximum-size evidence
  record". -/
  | shareTooSmall
  | load (e : LoadError)
  /-- "outbound queue contains an authority artifact". -/
  | authorityArtifact
  deriving DecidableEq

/-- Check the marker of the directory. -/
def ensureQueueMarker (d : Directory) : Except OpenError Unit :=
  match d.lookup queueMarkerName with
  | none => .error .noMarker
  | some f =>
    if f.kind ≠ .regular ∨ f.isPrivate = false then .error .invalidMarker
    else if f.data ≠ queueMarkerBody then .error .markerMismatch
    else .ok ()

/-- The memory before anything is loaded: the bounds of the options, the whole queue as the share of
every device. -/
def emptyQueue (opts : QueueOptions) : DurableQueue where
  maxItems := opts.maxItems
  maxBytes := opts.maxBytes
  reserved := false
  versioned := opts.versionedDevices.toFinset
  entries := ∅
  holds := ∅
  backoffs := ∅
  sizes := ∅
  order := []
  bytes := 0
  nextSeq := 1
  laneOf := ∅
  laneItems := ∅
  laneBytes := ∅
  deviceItems := ∅
  deviceBytes := ∅
  configured := if opts.devices = [] then none else some opts.devices.toFinset
  shareItems := opts.maxItems
  shareBytes := opts.maxBytes
  faults := opts.faults
  faultSource := opts.faultSource
  unconfigured := ∅
  unconfiguredOverflow := false

/-- Reserve an equal share for each configured device, when the options ask for it. -/
def reserveShares (opts : QueueOptions) (q : DurableQueue) : Except OpenError DurableQueue :=
  if !opts.reserveDeviceShares then .ok q
  else
    match q.configured with
    | none => .error .sharesNeedDevices
    | some devices =>
      let shareItems := opts.maxItems / (devices.card : Nat)
      let shareBytes := opts.maxBytes / (devices.card : Nat)
      if shareItems < minDeviceShareItems ∨ shareBytes < minDeviceShareBytes then
        .error .shareTooSmall
      else .ok { q with reserved := true, shareItems := shareItems, shareBytes := shareBytes }

/-- **Open a queue directory that exists.** The probe that follows is an operation of the run. -/
def openDurableQueue (opts : QueueOptions) (d : Directory) : Except OpenError DurableQueue := do
  if opts.maxItems ≤ 0 then .error .maxItems
  else if opts.maxBytes ≤ 0 then .error .maxBytes
  else do
    ensureQueueMarker d
    let q ← reserveShares opts (emptyQueue opts)
    (load q d).mapError .load

/-- Open a queue of outbound records. -/
def openDurableQueueOutbound (opts : QueueOptions) (d : Directory) :
    Except OpenError DurableQueue := do
  let q ← openDurableQueue opts d
  if q.order.any fun id => !validOutboundArtifactType (q.entry id).type then
    .error .authorityArtifact
  else .ok q

/-- A process that has just opened a directory: incomplete writes are gone. -/
def openedWorld (q : DurableQueue) (d : Directory) (temps : Nat) : World DurableQueue :=
  { mem := q, store := .ofDirectory (Directory.withoutScratch queueTempPrefix d), script := [],
    temps := temps }

def freshDirectory : Directory :=
  (∅ : Directory).insert queueMarkerName (replacement queueMarkerBody)

end OriGateway
