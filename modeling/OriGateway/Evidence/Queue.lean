import OriGateway.Evidence.Records
import OriGateway.Foundation.FsProgram
import OriGateway.Foundation.GoMap

/-! # The durable evidence queue

The queue's memory (**`DurableQueue`**) and its operations, each a program over the queue's
directory: every file-system call it makes, in order, with what it does when the call fails. Memory
is changed only after the directory was. -/

namespace OriGateway

open Foundation

/-! ## Faults -/

/-- The courier's faults. -/
inductive Fault where
  | storeUnavailable
  /-- Evidence that must be retained was not admitted. -/
  | admissionFailed
  /-- Some device's delivery is not clean and cannot be listed. -/
  | deliveryImpaired
  /-- A carriage was observed for a device that is not configured. -/
  | deviceUnconfigured
  deriving DecidableEq

abbrev Recorder := Finset (Fault × Bytes)

/-- Raise a fault for a source on a failure, and clear it on a success. -/
def Recorder.note (r : Recorder) (fault : Fault) (source : Bytes) (failed : Bool) : Recorder :=
  if failed then insert (fault, source) r else r.erase (fault, source)

/-! ## Names -/

def queueFileSuffix : Bytes := ascii ".json"

def queueMarkerName : Bytes := ascii ".ori-evidence-queue-v1"

def queueMarkerBody : Bytes := ascii "ori evidence durable queue v1\n"

def queueTempPrefix : Bytes := ascii ".ori-evidence-queue-tmp-"

def holdFilePrefix : Bytes := ascii ".ori-evidence-hold-"

def backoffFilePrefix : Bytes := ascii ".ori-evidence-backoff-"

def probeFileName : Bytes := ascii ".ori-evidence-probe"

def unconfiguredFileName : Bytes := ascii ".ori-evidence-unconfigured"

def signingClockFilePrefix : Bytes := ascii ".ori-signed-at-"

def recordFile (id : Bytes) : Bytes := id ++ queueFileSuffix

/-! ## Options and memory -/

/-- How a queue is opened. -/
structure QueueOptions where
  maxItems : Int
  maxBytes : Int
  devices : List Bytes
  reserveDeviceShares : Bool
  versionedDevices : List Bytes
  faults : Option Recorder
  faultSource : Bytes

/-- The memory of an open queue. -/
structure DurableQueue where
  maxItems : Int
  maxBytes : Int
  reserved : Bool
  versioned : Finset Bytes
  entries : GoMap Bytes QueueRecord
  holds : GoMap Bytes HoldRecord
  backoffs : GoMap Bytes BackoffRecord
  sizes : GoMap Bytes Int
  order : List Bytes
  bytes : Int
  nextSeq : Int
  laneOf : GoMap Bytes LaneKey
  laneItems : GoMap LaneKey Int
  laneBytes : GoMap LaneKey Int
  deviceItems : GoMap Bytes Int
  deviceBytes : GoMap Bytes Int
  configured : Option (Finset Bytes)
  shareItems : Int
  shareBytes : Int
  faults : Option Recorder
  faultSource : Bytes
  unconfigured : Finset Bytes
  unconfiguredOverflow : Bool

/-- A bound that refuses an artifact. -/
inductive Limit where
  | item
  | byte
  | deviceItem
  | deviceByte
  deriving DecidableEq

/-- Why a queue operation fails. -/
inductive QueueError where
  /-- "unsupported outbound artifact type". -/
  | unsupportedOutboundType
  /-- "unsupported queue artifact type". -/
  | unsupportedQueueType
  /-- "artifact payload must not be empty". -/
  | emptyPayload
  /-- "carriage for an unconfigured device". -/
  | unconfiguredDevice
  /-- "durable queue is full". -/
  | queueFull (limit : Limit)
  /-- "queue clock must produce a positive timestamp". -/
  | clockNotPositive
  | write (e : ReplaceError)
  /-- "queued artifact not found". -/
  | notFound
  | invalidHold (e : HoldFault)
  | invalidBackoff (e : BackoffFault)
  /-- "remove refused-head record" or "remove back-off record". -/
  | removeSidecar
  /-- "persist refused-head removal" or "persist back-off removal". -/
  | persistSidecarRemoval
  /-- "retire queued artifact". -/
  | retire
  /-- "persist queue retirement", with the failure to restore the record if that failed too. -/
  | persistRetirement (restore : Option ReplaceError)
  /-- "probe read". -/
  | probeRead
  /-- Removing the record of unconfigured devices failed. -/
  | removeUnconfigured
  | persistUnconfigured
  deriving DecidableEq

namespace DurableQueue

/-! ## Memory -/

def len (q : DurableQueue) : Int := (q.entries.keys.card : Nat)

/-- The record at an identity, the zero record when there is none. -/
def entry (q : DurableQueue) (id : Bytes) : QueueRecord := (q.entries.lookup id).getD .zero

/-- Whether one record stands no later in the order than another: by place, then by identity. -/
def RecordLE (a b : QueueRecord) : Prop :=
  a.queueSeq < b.queueSeq ∨ a.queueSeq = b.queueSeq ∧ a.id ≤ b.id

instance (a b : QueueRecord) : Decidable (RecordLE a b) :=
  inferInstanceAs (Decidable (a.queueSeq < b.queueSeq ∨ a.queueSeq = b.queueSeq ∧ a.id ≤ b.id))

def OrderLE (entries : GoMap Bytes QueueRecord) (a b : Bytes) : Prop :=
  RecordLE ((entries.lookup a).getD .zero) ((entries.lookup b).getD .zero)

instance (entries : GoMap Bytes QueueRecord) : DecidableRel (OrderLE entries) := fun a b =>
  inferInstanceAs
    (Decidable (RecordLE ((entries.lookup a).getD .zero) ((entries.lookup b).getD .zero)))

def sortOrder (q : DurableQueue) : DurableQueue :=
  { q with order := q.order.insertionSort (OrderLE q.entries) }

/-- Count a record in its lane and device. -/
def indexLocked (q : DurableQueue) (record : QueueRecord) (size : Int) : DurableQueue :=
  let key := record.lane
  { q with
    laneOf := q.laneOf.insert record.id key
    laneItems := GoMap.add q.laneItems key 1
    laneBytes := GoMap.add q.laneBytes key size
    deviceItems := GoMap.add q.deviceItems key.device 1
    deviceBytes := GoMap.add q.deviceBytes key.device size }

def laneAt (q : DurableQueue) (id : Bytes) : LaneKey := (q.laneOf.lookup id).getD ⟨[], .evidence⟩

/-- Take a record out of the counts. -/
def unindexLocked (q : DurableQueue) (id : Bytes) (size : Int) : DurableQueue :=
  let key := q.laneAt id
  let lane := GoMap.release q.laneItems q.laneBytes key size
  let device := GoMap.release q.deviceItems q.deviceBytes key.device size
  { q with
    laneOf := q.laneOf.erase id
    laneItems := lane.1
    laneBytes := lane.2
    deviceItems := device.1
    deviceBytes := device.2 }

/-- Enter a new record at the end. -/
def insertEntry (q : DurableQueue) (record : QueueRecord) (size : Int) : DurableQueue :=
  let q := { q with
    entries := q.entries.insert record.id record
    sizes := q.sizes.insert record.id size }
  let q := q.indexLocked record size
  let q := { q with order := q.order ++ [record.id] }
  let q := q.sortOrder
  { q with bytes := q.bytes + size, nextSeq := int64 (q.nextSeq + 1) }

/-- Take a record out. -/
def removeEntry (q : DurableQueue) (id : Bytes) : DurableQueue :=
  let storedSize := (q.sizes.lookup id).getD 0
  let q := { q with entries := q.entries.erase id, sizes := q.sizes.erase id }
  let q := q.unindexLocked id storedSize
  { q with order := q.order.erase id, bytes := q.bytes - storedSize }

/-- Record the outcome of a durable-store operation: a failure raises the store's fault, a success
leaves it. -/
def noteStore (q : DurableQueue) (failed : Bool) : DurableQueue :=
  if failed then
    { q with faults := q.faults.map fun r => Recorder.note r .storeUnavailable q.faultSource true }
  else q

def noteFault (q : DurableQueue) (fault : Fault) (source : Bytes) (failed : Bool) : DurableQueue :=
  { q with faults := q.faults.map fun r => Recorder.note r fault source failed }

def isConfigured (q : DurableQueue) (device : Bytes) : Bool :=
  match q.configured with
  | none => true
  | some devices => decide (device ∈ devices)

/-- Whether a device can be routed: within the routing domain when it declares the carriage version,
and present otherwise. -/
def routingDeviceID (q : DurableQueue) (device : Bytes) : Bool :=
  if device ∈ q.versioned then validRoutingDeviceID device else device != []

def peekLane (q : DurableQueue) (key : LaneKey) : Option QueuedArtifact :=
  (q.order.find? fun id => q.laneAt id == key).map fun id => (q.entry id).artifact

/-! ## Writes -/

def writeFileAtomicRaw (name encoded : Bytes) : FsM DurableQueue (Except ReplaceError Unit) :=
  atomicReplace queueTempPrefix name encoded

/-- Replace a file and record the outcome. -/
def writeFileAtomic (name encoded : Bytes) : FsM DurableQueue (Except ReplaceError Unit) := do
  let result ← writeFileAtomicRaw name encoded
  FsM.modifyMem fun q => q.noteStore (!result.isOk)
  return result

/-- Replace one private file and, once it is durable, change the memory. -/
def commitFile (name encoded : Bytes) (change : DurableQueue → DurableQueue) :
    FsM DurableQueue (Except QueueError Unit) := do
  match ← writeFileAtomic name encoded with
  | .error e => return .error (.write e)
  | .ok () =>
    FsM.modifyMem change
    return .ok ()

def writeRecord (record : QueueRecord) (encoded : Bytes) :
    FsM DurableQueue (Except ReplaceError Unit) :=
  writeFileAtomic (recordFile record.id) encoded

/-! ## Admission -/

/-- The bound that refuses a record of a lane, if any: with size 0 the records of the lane and its
device are checked, and with a record's size their bytes. Of a reserved share the evidence lane may
not take the slot and the bytes kept for a registration. -/
def laneShareRefusal (q : DurableQueue) (key : LaneKey) (size : Int) : Option Limit :=
  let reserved := q.reserved && key.lane != .registration
  if size = 0 then
    if GoMap.count q.deviceItems key.device ≥ q.shareItems ∨
        (reserved = true ∧ GoMap.count q.laneItems key ≥ q.shareItems - 1) then
      some .deviceItem
    else none
  else if GoMap.count q.deviceBytes key.device + size > q.shareBytes ∨
      (reserved = true ∧
        GoMap.count q.laneBytes key + size > q.shareBytes - maxQueueRecordBytes) then
    some .deviceByte
  else none

/-- The record of a payload. -/
def newRecord (q : DurableQueue) (now : Int) (kind : ArtifactType) (payload : Bytes) :
    QueueRecord :=
  { v := queueRecordVersion, id := artifactID kind payload, type := kind, queueSeq := q.nextSeq,
    enqueuedAtMS := int64 now, payload := payload }

/-- Why an artifact that is not queued yet is not admitted, if it is not; the checks in their
order. -/
def insertRefusal (q : DurableQueue) (now : Int) (kind : ArtifactType) (payload : Bytes) :
    Option QueueError :=
  let device := recordDevice payload
  let key : LaneKey := ⟨device, laneOfType kind⟩
  let size : Int := ((q.newRecord now kind payload).marshal.length : Nat)
  if !q.isConfigured device then some .unconfiguredDevice
  else if q.len ≥ q.maxItems then some (.queueFull .item)
  else
    match q.laneShareRefusal key 0 with
    | some limit => some (.queueFull limit)
    | none =>
      if int64 now ≤ 0 then some .clockNotPositive
      else if q.bytes + size > q.maxBytes then some (.queueFull .byte)
      else (q.laneShareRefusal key size).map .queueFull

/-- Queue an artifact that is not queued yet: refused without a change, or written and then
counted. -/
def insertLocked (now : Int) (kind : ArtifactType) (payload : Bytes) :
    FsM DurableQueue (Except QueueError QueuedArtifact) := do
  let q ← FsM.getMem
  match q.insertRefusal now kind payload with
  | some e => return .error e
  | none =>
    let record := q.newRecord now kind payload
    let encoded := record.marshal
    match ← commitFile (recordFile record.id) encoded
        (fun q => q.insertEntry record (encoded.length : Nat)) with
    | .error e => return .error e
    | .ok () => return .ok record.artifact

/-- Queue an artifact, or find the entry already held for the same bytes; and whether it was. -/
def enqueueOrFind (now : Int) (kind : ArtifactType) (payload : Bytes) :
    FsM DurableQueue (Except QueueError (QueuedArtifact × Bool)) := do
  if !validQueueArtifactType kind then
    return .error .unsupportedQueueType
  if payload = [] then
    return .error .emptyPayload
  let q ← FsM.getMem
  match q.entries.lookup (artifactID kind payload) with
  | some existing => return .ok (existing.artifact, true)
  | none =>
    match ← insertLocked now kind payload with
    | .error e => return .error e
    | .ok queued => return .ok (queued, false)

/-- `Enqueue`, for outbound types only. -/
def enqueueOutbound (now : Int) (kind : ArtifactType) (payload : Bytes) :
    FsM DurableQueue (Except QueueError (QueuedArtifact × Bool)) := do
  if !validOutboundArtifactType kind then
    return .error .unsupportedOutboundType
  match ← enqueueOrFind now kind payload with
  | .error e => return .error e
  | .ok (queued, existing) => return .ok (queued, !existing)

/-! ## Sidecars -/

/-- A kind of file that stands beside a queue record. -/
inductive Sidecar where
  | hold
  | backoff
  deriving DecidableEq

def Sidecar.file : Sidecar → Bytes → Bytes
  | hold, id => holdFilePrefix ++ id
  | backoff, id => backoffFilePrefix ++ id

def Sidecar.present : Sidecar → DurableQueue → Bytes → Bool
  | hold, q, id => (q.holds.lookup id).isSome
  | backoff, q, id => (q.backoffs.lookup id).isSome

def Sidecar.forget : Sidecar → Bytes → DurableQueue → DurableQueue
  | hold, id, q => { q with holds := q.holds.erase id }
  | backoff, id, q => { q with backoffs := q.backoffs.erase id }

/-- Remove the sidecar of a record, if memory holds one. A file that is gone is no failure. -/
def removeSidecar (kind : Sidecar) (id : Bytes) : FsM DurableQueue (Except QueueError Unit) := do
  let q ← FsM.getMem
  if !kind.present q id then
    return .ok ()
  match ← unlink (kind.file id) with
  | .failed => return .error .removeSidecar
  | _ =>
    if !(← syncDirectory) then
      return .error .persistSidecarRemoval
    FsM.modifyMem (kind.forget id)
    return .ok ()

def removeHoldLocked (id : Bytes) : FsM DurableQueue (Except QueueError Unit) :=
  removeSidecar .hold id

def removeBackoffLocked (id : Bytes) : FsM DurableQueue (Except QueueError Unit) :=
  removeSidecar .backoff id

/-- Write a record's hold. -/
def hold (record : HoldRecord) : FsM DurableQueue (Except QueueError Unit) := do
  let q ← FsM.getMem
  match q.entries.lookup record.queueRecord with
  | none => return .error .notFound
  | some queued =>
    let record := record.versioned
    match validateHoldRecord record queued with
    | .error e => return .error (.invalidHold e)
    | .ok () =>
      commitFile (Sidecar.hold.file record.queueRecord) record.marshal fun q =>
        { q with holds := q.holds.insert record.queueRecord record }

/-- Write a record's back-off. -/
def setBackoff (record : BackoffRecord) : FsM DurableQueue (Except QueueError Unit) := do
  let q ← FsM.getMem
  match q.entries.lookup record.queueRecord with
  | none => return .error .notFound
  | some _ =>
    let record := record.versioned
    match validateBackoffRecord record with
    | .error e => return .error (.invalidBackoff e)
    | .ok () =>
      commitFile (Sidecar.backoff.file record.queueRecord) record.marshal fun q =>
        { q with backoffs := q.backoffs.insert record.queueRecord record }

/-- Remove a record's back-off, if it has one, and record the outcome. -/
def clearBackoff (id : Bytes) : FsM DurableQueue (Except QueueError Unit) := do
  let q ← FsM.getMem
  if (q.backoffs.lookup id).isNone then
    return .ok ()
  let result ← removeBackoffLocked id
  FsM.modifyMem fun q => q.noteStore (!result.isOk)
  return result

/-! ## Retirement -/

/-- Remove a record's file, then forget the record. When the directory's flush fails the record is
written again, so that memory and directory still agree on it. -/
def retireRecord (record : QueueRecord) (id : Bytes) :
    FsM DurableQueue (Except QueueError Unit) := do
  match ← unlink (recordFile id) with
  | .removed =>
    if ← syncDirectory then
      FsM.modifyMem fun q => q.removeEntry id
      return .ok ()
    else
      match ← writeRecord record record.marshal with
      | .error e => return .error (.persistRetirement (some e))
      | .ok () => return .error (.persistRetirement none)
  | _ => return .error .retire

/-- Remove the sidecars, then the record. -/
def removeLocked (id : Bytes) : FsM DurableQueue (Except QueueError Unit) := do
  let q ← FsM.getMem
  match q.entries.lookup id with
  | none => return .error .notFound
  | some record =>
    match ← removeHoldLocked id with
    | .error e => return .error e
    | .ok () =>
      match ← removeBackoffLocked id with
      | .error e => return .error e
      | .ok () => retireRecord record id

/-- Retire a record and record the outcome. -/
def remove (id : Bytes) : FsM DurableQueue (Except QueueError Unit) := do
  let result ← removeLocked id
  match result with
  | .error .notFound => return result
  | _ =>
    FsM.modifyMem fun q => q.noteStore (!result.isOk)
    return result

/-! ## Probes and unconfigured devices -/

/-- Read the directory and replace the probe file; the outcome raises or clears the store's
fault. -/
def probe (body : Bytes) : FsM DurableQueue (Except QueueError Unit) := do
  let result : Except QueueError Unit ← do
    if !(← readDirectory) then
      pure (.error .probeRead)
    else
      match ← writeFileAtomicRaw probeFileName body with
      | .error e => pure (.error (.write e))
      | .ok () => pure (.ok ())
  FsM.modifyMem fun q => q.noteFault .storeUnavailable q.faultSource (!result.isOk)
  return result

def maxUnconfiguredDevices : Nat := 256

def devicesFaultSource : Bytes := ascii "devices"

def unconfiguredRecord (q : DurableQueue) : UnconfiguredRecord :=
  { v := unconfiguredFileVersion, devices := sortedKeys (· ≤ ·) q.unconfigured,
    overflow := q.unconfiguredOverflow }

/-- Write the record of the unconfigured devices, or remove it when there are none. -/
def writeUnconfiguredLocked : FsM DurableQueue (Except QueueError Unit) := do
  let q ← FsM.getMem
  let encoded := q.unconfiguredRecord.marshal
  if q.unconfigured = ∅ ∧ q.unconfiguredOverflow = false then
    match ← unlink unconfiguredFileName with
    | .failed =>
      FsM.modifyMem fun q => q.noteStore true
      return .error .removeUnconfigured
    | _ =>
      let synced ← syncDirectory
      FsM.modifyMem fun q => q.noteStore (!synced)
      return if synced then .ok () else .error .persistUnconfigured
  else
    match ← writeFileAtomic unconfiguredFileName encoded with
    | .error e => return .error (.write e)
    | .ok () => return .ok ()

/-- Record that a carriage was observed for a device that is not configured. -/
def noteUnconfiguredDevice (device : Bytes) : FsM DurableQueue (Except QueueError Unit) := do
  FsM.modifyMem fun q => q.noteFault .deviceUnconfigured devicesFaultSource true
  let q ← FsM.getMem
  if device ∈ q.unconfigured then
    return .ok ()
  if q.unconfigured.card ≥ maxUnconfiguredDevices ∨ validRoutingDeviceID device = false then
    if q.unconfiguredOverflow then
      return .ok ()
    FsM.modifyMem fun q => { q with unconfiguredOverflow := true }
  else
    FsM.modifyMem fun q => { q with unconfigured := insert device q.unconfigured }
  writeUnconfiguredLocked

/-- Record an admission for a device: it is no longer an unconfigured one. -/
def noteAdmittedDevice (device : Bytes) : FsM DurableQueue (Except QueueError Unit) := do
  let q ← FsM.getMem
  if device ∉ q.unconfigured then
    return .ok ()
  FsM.modifyMem fun q => { q with unconfigured := q.unconfigured.erase device }
  match ← writeUnconfiguredLocked with
  | .error _ => return .ok ()
  | .ok () =>
    let q ← FsM.getMem
    if q.unconfigured = ∅ ∧ q.unconfiguredOverflow = false then
      FsM.modifyMem fun q => q.noteFault .deviceUnconfigured devicesFaultSource false
    return .ok ()

end DurableQueue

/-! ## Runs -/

/-- One operation on a queue. -/
inductive QueueOp where
  /-- Queue an outbound artifact, at a clock reading. -/
  | enqueue (now : Int) (kind : ArtifactType) (payload : Bytes)
  /-- Queue an artifact of the return direction, at a clock reading. -/
  | stage (now : Int) (kind : ArtifactType) (payload : Bytes)
  | remove (id : Bytes)
  | hold (record : HoldRecord)
  | setBackoff (record : BackoffRecord)
  | clearBackoff (id : Bytes)
  | probe (body : Bytes)
  | noteUnconfiguredDevice (device : Bytes)
  | noteAdmittedDevice (device : Bytes)

open DurableQueue in
/-- The program of an operation; its error, if it fails, is all that is kept of the result. -/
def QueueOp.program : QueueOp → FsM DurableQueue (Except QueueError Unit)
  | enqueue now kind payload => do
      match ← enqueueOutbound now kind payload with
      | .error e => return .error e
      | .ok _ => return .ok ()
  | stage now kind payload => do
      match ← enqueueOrFind now kind payload with
      | .error e => return .error e
      | .ok _ => return .ok ()
  | remove id => DurableQueue.remove id
  | hold record => DurableQueue.hold record
  | setBackoff record => DurableQueue.setBackoff record
  | clearBackoff id => DurableQueue.clearBackoff id
  | probe body => DurableQueue.probe body
  | noteUnconfiguredDevice device => DurableQueue.noteUnconfiguredDevice device
  | noteAdmittedDevice device => DurableQueue.noteAdmittedDevice device

def QueueOp.outbound : QueueOp → Bool
  | stage .. => false
  | _ => true

/-- One call of a run: the operation and how its file-system calls end. -/
structure QueueCall where
  op : QueueOp
  script : List Outcome

def QueueCall.run (c : QueueCall) (w : World DurableQueue) :
    Exec DurableQueue (Except QueueError Unit) :=
  c.op.program { w with script := c.script }

abbrev Trace := List (QueueOp × Except QueueError Unit)

/-- Run operations until one crashes. -/
def runCalls : List QueueCall → World DurableQueue → Exec DurableQueue Trace
  | [], w => .done [] w
  | c :: cs, w =>
    match c.run w with
    | .crashed w' => .crashed w'
    | .done result w' =>
      match runCalls cs w' with
      | .crashed w'' => .crashed w''
      | .done trace w'' => .done ((c.op, result) :: trace) w''

theorem runCalls_cons {c : QueueCall} {cs : List QueueCall} {w w'' : World DurableQueue}
    {trace : Trace} (h : runCalls (c :: cs) w = .done trace w'') :
    ∃ result w' rest, c.run w = .done result w' ∧ runCalls cs w' = .done rest w'' ∧
      trace = (c.op, result) :: rest := by
  rw [runCalls] at h
  split at h
  · cases h
  · next result w' hrun =>
    split at h
    · cases h
    · next rest w₂ hrest =>
      cases h
      exact ⟨result, w', rest, hrun, hrest, rfl⟩

theorem runCalls_append {cs cs' : List QueueCall} {w w'' : World DurableQueue} {trace : Trace}
    (h : runCalls (cs ++ cs') w = .done trace w'') :
    ∃ trace₁ w' trace₂, runCalls cs w = .done trace₁ w' ∧ runCalls cs' w' = .done trace₂ w'' := by
  induction cs generalizing w trace with
  | nil => exact ⟨[], w, trace, rfl, h⟩
  | cons c cs ih =>
    obtain ⟨result, w₁, rest, hc, hrest, -⟩ := runCalls_cons h
    obtain ⟨trace₁, w', trace₂, h₁, h₂⟩ := ih hrest
    refine ⟨(c.op, result) :: trace₁, w', trace₂, ?_, h₂⟩
    simp only [runCalls, hc, h₁]

/-- **Induction over a run**: what the first memory and directory have with so many calls to go and
every call keeps, the last have. -/
theorem runCalls_induction {I : Nat → World DurableQueue → Prop} {P : QueueCall → Prop}
    (hstep : ∀ n c w result w', P c → I (n + 1) w → c.run w = .done result w' → I n w')
    {cs : List QueueCall} {n : Nat} {w w' : World DurableQueue} {trace : Trace}
    (hcs : ∀ c ∈ cs, P c) (hw : I (n + cs.length) w) (hrun : runCalls cs w = .done trace w') :
    I n w' := by
  induction cs generalizing w trace with
  | nil =>
    cases hrun
    exact hw
  | cons c cs ih =>
    obtain ⟨result, w₁, rest, hc, hrest, -⟩ := runCalls_cons hrun
    have hw₁ := hstep (n + cs.length) c w result w₁ (hcs c (by simp)) hw hc
    exact ih (fun c' hc' => hcs c' (by simp [hc'])) hw₁ hrest

end OriGateway
