import OriGateway.Evidence.Refusal
import OriGateway.Foundation.Int64

/-! # Durable records

The files of an evidence queue: the queue records themselves, the hold and back-off sidecars beside
them, and the record of unconfigured devices. Each is one JSON object, written field by field and
read back by the decoder's rules; its integers are of 64 bits, and a larger one is refused. What a
queue writes of a sound record or of a sidecar that passes its check is read back as it was
(`unmarshal_marshal`), and a queue record is not much longer than its artifact
(`marshal_length_le`). -/

namespace OriGateway

open Foundation

/-! ## Queue records -/

/-- One queue record. -/
structure QueueRecord where
  v : Int
  id : Bytes
  type : ArtifactType
  queueSeq : Int
  enqueuedAtMS : Int
  payload : Bytes
  deriving DecidableEq

/-- The version a queue record is written under. -/
def queueRecordVersion : Int := 1

namespace QueueRecord

def fields : List Bytes :=
  [ascii "v", ascii "id", ascii "artifact_type", ascii "queue_seq", ascii "enqueued_at_ms",
    ascii "payload"]

/-- The bytes of a queue record. -/
def marshal (r : QueueRecord) : Bytes :=
  (Json.ofFields fields [.ofInt r.v, .ofString r.id, .ofString r.type.name, .ofInt r.queueSeq,
    .ofInt r.enqueuedAtMS, .ofString (base64Encode r.payload)]).render

def zero : QueueRecord := ⟨0, [], .other [], 0, 0, []⟩

def store : Nat → Json → QueueRecord → Option QueueRecord
  | 0, j, r => (Json.readInt64 r.v j).map fun x => { r with v := x }
  | 1, j, r => (Json.readString r.id j).map fun x => { r with id := x }
  | 2, j, r => (Json.readString r.type.name j).map fun x => { r with type := .ofName x }
  | 3, j, r => (Json.readInt64 r.queueSeq j).map fun x => { r with queueSeq := x }
  | 4, j, r => (Json.readInt64 r.enqueuedAtMS j).map fun x => { r with enqueuedAtMS := x }
  | _, j, r => (Json.readBytes j).map fun x => { r with payload := x }

/-- Read a queue record; members it does not name are passed over. -/
def unmarshal (raw : Bytes) : Option QueueRecord := Json.decodeRecord false fields store zero raw

/-- What the loader requires of a record by itself, its integers being of 64 bits. -/
structure Sound (r : QueueRecord) : Prop where
  version : r.v = queueRecordVersion
  seq_pos : 0 < r.queueSeq
  seq_le : r.queueSeq ≤ maxInt64
  time_pos : 0 < r.enqueuedAtMS
  time_le : r.enqueuedAtMS ≤ maxInt64
  type_valid : validQueueArtifactType r.type = true
  payload_ne : r.payload ≠ []
  identity : r.id = artifactID r.type r.payload

instance (r : QueueRecord) : Decidable r.Sound :=
  decidable_of_iff
    (r.v = queueRecordVersion ∧ 0 < r.queueSeq ∧ r.queueSeq ≤ maxInt64 ∧ 0 < r.enqueuedAtMS ∧
      r.enqueuedAtMS ≤ maxInt64 ∧ validQueueArtifactType r.type = true ∧ r.payload ≠ [] ∧
      r.id = artifactID r.type r.payload)
    ⟨fun ⟨a, b, c, d, e, f, g, h⟩ => ⟨a, b, c, d, e, f, g, h⟩,
      fun ⟨a, b, c, d, e, f, g, h⟩ => ⟨a, b, c, d, e, f, g, h⟩⟩

/-- The artifact a record carries. -/
def artifact (r : QueueRecord) : QueuedArtifact := ⟨r.id, r.type, r.payload, r.enqueuedAtMS⟩

/-- The lane a record is delivered on. -/
def lane (r : QueueRecord) : LaneKey := ⟨recordDevice r.payload, laneOfType r.type⟩

theorem fieldNames : Json.FieldNames fields :=
  .of_all (by decide +kernel) (by decide +kernel)

theorem Sound.isPlain_id {r : QueueRecord} (h : r.Sound) : ∀ b ∈ r.id, Json.isPlain b = true := by
  rw [h.identity]
  exact isPlain_artifactID _ _

theorem isPlain_base64 (bs : Bytes) : ∀ b ∈ base64Encode bs, Json.isPlain b = true := fun b hb =>
  Json.isPlain_of_isBase64 b (base64Encode_isBase64 bs b hb)

/-- The integers of a record that was read are of 64 bits. -/
theorem inInt64_of_unmarshal {raw : Bytes} {r : QueueRecord} (h : unmarshal raw = some r) :
    InInt64 r.queueSeq ∧ InInt64 r.enqueuedAtMS := by
  refine Json.decodeRecord_induction (I := fun r => InInt64 r.queueSeq ∧ InInt64 r.enqueuedAtMS)
    (fun i v r r' hr hstored => ?_) (by decide) h
  -- only the fields of the place and of the time change them
  unfold store at hstored
  split at hstored
  case h_4 =>
    obtain ⟨z, hz, rfl⟩ := Option.map_eq_some_iff.mp hstored
    exact ⟨Json.range_of_readInt64 hz, hr.2⟩
  case h_5 =>
    obtain ⟨z, hz, rfl⟩ := Option.map_eq_some_iff.mp hstored
    exact ⟨hr.1, Json.range_of_readInt64 hz⟩
  all_goals
    obtain ⟨_, -, rfl⟩ := Option.map_eq_some_iff.mp hstored
    exact hr

/-- **A sound record reads back from its own bytes.** -/
theorem unmarshal_marshal {r : QueueRecord} (h : r.Sound) : unmarshal r.marshal = some r := by
  have hv := Json.readInt64_ofInt (h.version ▸ by decide : InInt64 r.v)
  have hseq := Json.readInt64_ofInt (inInt64_of_pos h.seq_pos h.seq_le)
  have htime := Json.readInt64_ofInt (inInt64_of_pos h.time_pos h.time_le)
  have hid := Json.readString_ofString (Json.valid_of_plain h.isPlain_id)
  have htype := Json.readString_ofString (Json.valid_of_plain (isPlain_name h.type_valid))
  unfold unmarshal marshal
  rw [Json.decodeRecord_ofFields fieldNames zero (by simp [fields])]
  · simp only [List.zipIdx_cons, List.zipIdx_nil, List.foldlM_cons, List.foldlM_nil, store,
      hv, hseq, htime, hid, htype, Json.readBytes_ofString_base64, Option.map_some,
      Option.bind_eq_bind, Option.bind_some, Option.pure_def, ofName_name h.type_valid]
  · intro v hv
    simp only [List.mem_cons, List.not_mem_nil, or_false] at hv
    rcases hv with rfl | rfl | rfl | rfl | rfl | rfl
    all_goals first | exact Json.fits_ofInt _ _ | exact Json.fits_ofString _ _

theorem marshal_length {r : QueueRecord} (hid : ∀ b ∈ r.id, Json.isPlain b = true)
    (htype : validQueueArtifactType r.type = true) :
    r.marshal.length = 77 + (formatInt r.v).length + r.id.length + r.type.name.length +
      (formatInt r.queueSeq).length + (formatInt r.enqueuedAtMS).length +
      (base64Encode r.payload).length := by
  have hnames : fields.map List.length = [1, 2, 13, 9, 14, 7] := by decide +kernel
  simp only [fields, List.map_cons, List.map_nil, List.cons.injEq, and_true] at hnames
  obtain ⟨h1, h2, h3, h4, h5, h6⟩ := hnames
  simp only [marshal, Json.ofFields, fields, List.zip_cons_cons, List.zip_nil_right,
    Json.length_render_obj, List.map_cons, List.map_nil, List.sum_cons, List.sum_nil,
    Json.length_render_ofInt, Json.length_render_ofString hid,
    Json.length_render_ofString (isPlain_name htype),
    Json.length_render_ofString (isPlain_base64 _), h1, h2, h3, h4, h5, h6]
  omega

theorem maxRecordOverhead_eq :
    maxRecordOverhead = (78 + 64 + 19 + 19 + 4 * ((maxArtifactBytes + 2) / 3) : Nat) := by
  decide +kernel

/-- **The size of a queue record**: at most the overhead and its type's name, as long as its
artifact is within the limit. -/
theorem marshal_length_le {r : QueueRecord} (h : r.Sound)
    (hpayload : r.payload.length ≤ maxArtifactBytes) :
    (r.marshal.length : Int) ≤ maxRecordOverhead + (r.type.name.length : Nat) := by
  have hdigits : ∀ z : Int, 0 < z → z ≤ maxInt64 → (formatInt z).length ≤ 19 := fun z hz hle =>
    formatInt_length_le (by decide) hz.le (hle.trans_lt (by norm_num [maxInt64]))
  have hone : (formatInt r.v).length = 1 := by
    rw [h.version]
    decide +kernel
  have hid : r.id.length = 64 := by rw [h.identity, artifactID_length]
  have hs := hdigits _ h.seq_pos h.seq_le
  have ht := hdigits _ h.time_pos h.time_le
  have hb : (base64Encode r.payload).length ≤ 4 * ((maxArtifactBytes + 2) / 3) := by
    rw [base64Encode_length]
    exact Nat.mul_le_mul_left 4 (Nat.div_le_div_right (by omega))
  rw [marshal_length h.isPlain_id h.type_valid, maxRecordOverhead_eq, hone, hid]
  generalize 4 * ((maxArtifactBytes + 2) / 3) = k at hb ⊢
  push_cast
  omega

end QueueRecord

/-! ## Holds -/

/-- The durable diagnosis of a record the evidence authority refused for good. -/
structure HoldRecord where
  v : Int
  queueRecord : Bytes
  artifactDigest : Bytes
  artifactType : ArtifactType
  refusalStatus : Int
  reason : Bytes
  firstHeldAtMS : Int
  acknowledged : Bool
  deriving DecidableEq

def holdRecordVersion : Int := 1

/-- Why a hold does not match its queue record. -/
inductive HoldFault where
  /-- "unsupported version". -/
  | version
  /-- "queue record mismatch". -/
  | queueRecord
  /-- "artifact digest mismatch". -/
  | artifactDigest
  /-- "artifact type mismatch". -/
  | artifactType
  /-- "reason is not one at which its refusal status holds". -/
  | reason
  /-- "refusal status cannot hold". -/
  | refusalStatus
  /-- "first-held time out of range". -/
  | firstHeldAt
  deriving DecidableEq

/-- **Check a hold** against the record it stands beside. -/
def validateHoldRecord (record : HoldRecord) (queued : QueueRecord) : Except HoldFault Unit :=
  if record.v ≠ holdRecordVersion then .error .version
  else if record.queueRecord ≠ queued.id then .error .queueRecord
  else if record.artifactDigest ≠ payloadDigest queued.payload then .error .artifactDigest
  else if record.artifactType ≠ queued.type then .error .artifactType
  else if !held record.refusalStatus record.reason then .error .reason
  else if !heldRefusalStatus record.refusalStatus then .error .refusalStatus
  else if record.firstHeldAtMS ≤ 0 ∨ maxSafeInteger < record.firstHeldAtMS then .error .firstHeldAt
  else .ok ()

namespace HoldRecord

def fields : List Bytes :=
  [ascii "v", ascii "queue_record", ascii "artifact_digest", ascii "artifact_type",
    ascii "refusal_status", ascii "reason", ascii "first_held_at_ms", ascii "acknowledged"]

/-- The bytes of a hold. -/
def marshal (r : HoldRecord) : Bytes :=
  (Json.ofFields fields [.ofInt r.v, .ofString r.queueRecord, .ofString r.artifactDigest,
    .ofString r.artifactType.name, .ofInt r.refusalStatus, .ofString r.reason,
    .ofInt r.firstHeldAtMS, .bool r.acknowledged]).render

/-- The hold with the version it is written under. -/
def versioned (r : HoldRecord) : HoldRecord := { r with v := holdRecordVersion }

def zero : HoldRecord := ⟨0, [], [], .other [], 0, [], 0, false⟩

def store : Nat → Json → HoldRecord → Option HoldRecord
  | 0, j, r => (Json.readInt64 r.v j).map fun x => { r with v := x }
  | 1, j, r => (Json.readString r.queueRecord j).map fun x => { r with queueRecord := x }
  | 2, j, r => (Json.readString r.artifactDigest j).map fun x => { r with artifactDigest := x }
  | 3, j, r =>
    (Json.readString r.artifactType.name j).map fun x => { r with artifactType := .ofName x }
  | 4, j, r => (Json.readInt64 r.refusalStatus j).map fun x => { r with refusalStatus := x }
  | 5, j, r => (Json.readString r.reason j).map fun x => { r with reason := x }
  | 6, j, r => (Json.readInt64 r.firstHeldAtMS j).map fun x => { r with firstHeldAtMS := x }
  | _, j, r => (Json.readBool r.acknowledged j).map fun x => { r with acknowledged := x }

/-- Read a hold; members it does not name are refused. -/
def unmarshal (raw : Bytes) : Option HoldRecord := Json.decodeRecord true fields store zero raw

theorem fieldNames : Json.FieldNames fields :=
  .of_all (by decide +kernel) (by decide +kernel)

end HoldRecord

theorem validateHoldRecord_ok {record : HoldRecord} {queued : QueueRecord} :
    validateHoldRecord record queued = .ok () ↔
      record.v = holdRecordVersion ∧ record.queueRecord = queued.id ∧
        record.artifactDigest = payloadDigest queued.payload ∧ record.artifactType = queued.type ∧
        held record.refusalStatus record.reason = true ∧
        heldRefusalStatus record.refusalStatus = true ∧
        0 < record.firstHeldAtMS ∧ record.firstHeldAtMS ≤ maxSafeInteger := by
  unfold validateHoldRecord
  split_ifs <;> simp_all
  omega

theorem inInt64_of_safe {z : Int} (hpos : 0 < z) (hle : z ≤ maxSafeInteger) : InInt64 z :=
  inInt64_of_pos hpos (hle.trans (by decide))

theorem inInt64_of_heldRefusalStatus {status : Int} (h : heldRefusalStatus status = true) :
    InInt64 status := by
  simp only [heldRefusalStatus, Bool.or_eq_true, beq_iff_eq] at h
  rcases h with ((rfl | rfl) | rfl) | rfl <;> decide

/-- **A hold that passes its check against a sound record reads back from its own bytes.** -/
theorem HoldRecord.unmarshal_marshal {record : HoldRecord} {queued : QueueRecord}
    (hq : queued.Sound) (h : validateHoldRecord record queued = .ok ()) :
    unmarshal record.marshal = some record := by
  obtain ⟨hversion, hid, hdigest, htype, hheld, hstatus, hpos, hsafe⟩ := validateHoldRecord_ok.mp h
  have hv := Json.readInt64_ofInt (hversion ▸ by decide : InInt64 record.v)
  have hstatus' := Json.readInt64_ofInt (inInt64_of_heldRefusalStatus hstatus)
  have htime := Json.readInt64_ofInt (inInt64_of_safe hpos hsafe)
  have hid' := Json.readString_ofString (Json.valid_of_plain (hid ▸ hq.isPlain_id))
  have hdigest' := Json.readString_ofString
    (Json.valid_of_plain (hdigest ▸ isPlain_payloadDigest queued.payload))
  have hvalid : validQueueArtifactType record.artifactType = true := htype ▸ hq.type_valid
  have htype' := Json.readString_ofString (Json.valid_of_plain (isPlain_name hvalid))
  have hreason := Json.readString_ofString (Json.valid_of_plain (isPlain_of_held hheld))
  unfold unmarshal marshal
  rw [Json.decodeRecord_ofFields fieldNames zero (by simp [fields])]
  · simp only [List.zipIdx_cons, List.zipIdx_nil, List.foldlM_cons, List.foldlM_nil, store,
      hv, hstatus', htime, Json.readBool_bool, hid', hdigest', htype', hreason, Option.map_some,
      Option.bind_eq_bind, Option.bind_some, Option.pure_def, ofName_name hvalid]
  · intro v hv
    simp only [List.mem_cons, List.not_mem_nil, or_false] at hv
    rcases hv with rfl | rfl | rfl | rfl | rfl | rfl | rfl | rfl
    all_goals
      first
      | exact Json.fits_ofInt _ _
      | exact Json.fits_ofString _ _
      | exact Json.fits_bool _ _

/-! ## Back-offs -/

/-- When a backed-off record may next be sent. -/
structure BackoffRecord where
  v : Int
  queueRecord : Bytes
  notBeforeMS : Int
  attempts : Int
  /-- The floor the refusal carried, in a record of the second version only. -/
  retryAfterMS : Option Int
  deriving DecidableEq

def backoffRecordV1 : Int := 1

def backoffRecordV2 : Int := 2

/-- The longest floor a refusal may carry. -/
def maxRetryAfterMS : Int := (2 ^ 31 - 1) * 1000

/-- The most consecutive back-offs a record may count. -/
def maxBackoffAttempts : Int := 65536

/-- Why a back-off is invalid. -/
inductive BackoffFault where
  /-- "version 1 carries no retry-after". -/
  | unexpectedRetryAfter
  /-- "version 2 carries a retry-after". -/
  | missingRetryAfter
  /-- "unsupported version". -/
  | version
  /-- "not-before time out of range". -/
  | notBefore
  /-- "attempt count out of range". -/
  | attempts
  /-- "retry-after out of range". -/
  | retryAfter
  deriving DecidableEq

/-- **Check a back-off** by itself. -/
def validateBackoffRecord (record : BackoffRecord) : Except BackoffFault Unit :=
  if record.v = backoffRecordV1 ∧ record.retryAfterMS.isSome then .error .unexpectedRetryAfter
  else if record.v = backoffRecordV2 ∧ record.retryAfterMS.isNone then .error .missingRetryAfter
  else if record.v ≠ backoffRecordV1 ∧ record.v ≠ backoffRecordV2 then .error .version
  else if record.notBeforeMS ≤ 0 ∨ maxSafeInteger < record.notBeforeMS then .error .notBefore
  else if record.attempts < 1 ∨ maxBackoffAttempts < record.attempts then .error .attempts
  else if record.retryAfterMS.any fun ms => decide (ms < 1 ∨ maxRetryAfterMS < ms) then
    .error .retryAfter
  else .ok ()

namespace BackoffRecord

def fields : List Bytes :=
  [ascii "v", ascii "queue_record", ascii "not_before_ms", ascii "attempts",
    ascii "retry_after_ms"]

/-- The bytes of a back-off; the floor is left out when there is none. -/
def marshal (r : BackoffRecord) : Bytes :=
  (Json.ofFields fields ([.ofInt r.v, .ofString r.queueRecord, .ofInt r.notBeforeMS,
    .ofInt r.attempts] ++ (r.retryAfterMS.map Json.ofInt).toList)).render

/-- The back-off with the version it is written under: that of its floor. -/
def versioned (r : BackoffRecord) : BackoffRecord :=
  { r with v := if r.retryAfterMS.isSome then backoffRecordV2 else backoffRecordV1 }

def zero : BackoffRecord := ⟨0, [], 0, 0, none⟩

def store : Nat → Json → BackoffRecord → Option BackoffRecord
  | 0, j, r => (Json.readInt64 r.v j).map fun x => { r with v := x }
  | 1, j, r => (Json.readString r.queueRecord j).map fun x => { r with queueRecord := x }
  | 2, j, r => (Json.readInt64 r.notBeforeMS j).map fun x => { r with notBeforeMS := x }
  | 3, j, r => (Json.readInt64 r.attempts j).map fun x => { r with attempts := x }
  | _, j, r => (Json.readInt64Ptr j).map fun x => { r with retryAfterMS := x }

/-- Read a back-off; members it does not name are refused. -/
def unmarshal (raw : Bytes) : Option BackoffRecord := Json.decodeRecord true fields store zero raw

theorem fieldNames : Json.FieldNames fields :=
  .of_all (by decide +kernel) (by decide +kernel)

/-- What a back-off that passes its check has. -/
theorem of_validateBackoffRecord {r : BackoffRecord} (h : validateBackoffRecord r = .ok ()) :
    (r.v = backoffRecordV1 ∨ r.v = backoffRecordV2) ∧
    (0 < r.notBeforeMS ∧ r.notBeforeMS ≤ maxSafeInteger) ∧
      (1 ≤ r.attempts ∧ r.attempts ≤ maxBackoffAttempts) ∧
      ∀ ms ∈ r.retryAfterMS, 1 ≤ ms ∧ ms ≤ maxRetryAfterMS := by
  unfold validateBackoffRecord at h
  split_ifs at h with h1 h2 hversion hnotBefore hattempts hretry
  refine ⟨by omega, by omega, by omega, fun ms hms => ?_⟩
  simp only [Bool.not_eq_true, Option.any_eq_false, decide_eq_false_iff_not] at hretry
  have := hretry ms hms
  omega

/-- **A back-off that passes its check, of a record with a plain identity, reads back from its own
bytes.** -/
theorem unmarshal_marshal {r : BackoffRecord} (h : ∀ b ∈ r.queueRecord, Json.isPlain b = true)
    (hvalid : validateBackoffRecord r = .ok ()) : unmarshal r.marshal = some r := by
  obtain ⟨hversion, hnotBefore, hattempts, hretry⟩ := of_validateBackoffRecord hvalid
  have hid := Json.readString_ofString (Json.valid_of_plain h)
  have hv := Json.readInt64_ofInt
    (by rcases hversion with hv | hv <;> rw [hv] <;> decide : InInt64 r.v)
  have hnotBefore' := Json.readInt64_ofInt (inInt64_of_safe hnotBefore.1 hnotBefore.2)
  have hattempts' := Json.readInt64_ofInt
    (inInt64_of_pos (by omega) (hattempts.2.trans (by decide)) : InInt64 r.attempts)
  obtain ⟨v, queueRecord, notBeforeMS, attempts, retryAfterMS⟩ := r
  unfold unmarshal marshal
  -- The floor is the last field, so leaving it out shortens the list of values.
  cases retryAfterMS with
  | none =>
    rw [Json.decodeRecord_ofFields fieldNames zero (by simp [fields])]
    · simp only [Option.map_none, Option.toList_none, List.append_nil, List.zipIdx_cons,
        List.zipIdx_nil, List.foldlM_cons, List.foldlM_nil, store, hv, hnotBefore', hattempts', hid,
        Option.map_some, Option.bind_eq_bind, Option.bind_some, Option.pure_def, zero]
    · intro v hv
      simp only [Option.map_none, Option.toList_none, List.append_nil, List.mem_cons,
        List.not_mem_nil, or_false] at hv
      rcases hv with rfl | rfl | rfl | rfl
      all_goals first | exact Json.fits_ofInt _ _ | exact Json.fits_ofString _ _
  | some ms =>
    have hms := hretry ms rfl
    have hretry' := Json.readInt64Ptr_ofInt
      (inInt64_of_pos (by omega) (hms.2.trans (by decide)) : InInt64 ms)
    rw [Json.decodeRecord_ofFields fieldNames zero (by simp [fields])]
    · simp only [Option.map_some, Option.toList_some, List.cons_append, List.nil_append,
        List.zipIdx_cons, List.zipIdx_nil, List.foldlM_cons, List.foldlM_nil, store, hv,
        hnotBefore', hattempts', hretry', hid, Option.bind_eq_bind, Option.bind_some,
        Option.pure_def]
    · intro v hv
      simp only [Option.map_some, Option.toList_some, List.cons_append, List.nil_append,
        List.mem_cons, List.not_mem_nil, or_false] at hv
      rcases hv with rfl | rfl | rfl | rfl | rfl
      all_goals first | exact Json.fits_ofInt _ _ | exact Json.fits_ofString _ _

end BackoffRecord

/-! ## Unconfigured devices -/

/-- The devices whose carriage was observed while they were not configured. -/
structure UnconfiguredRecord where
  v : Int
  devices : List Bytes
  overflow : Bool
  deriving DecidableEq

def unconfiguredFileVersion : Int := 1

namespace UnconfiguredRecord

def fields : List Bytes := [ascii "v", ascii "devices", ascii "overflow"]

/-- The bytes of the record of unconfigured devices. -/
def marshal (r : UnconfiguredRecord) : Bytes :=
  (Json.ofFields fields [.ofInt r.v, .arr (r.devices.map Json.ofString), .bool r.overflow]).render

def zero : UnconfiguredRecord := ⟨0, [], false⟩

def store : Nat → Json → UnconfiguredRecord → Option UnconfiguredRecord
  | 0, j, r => (Json.readInt64 r.v j).map fun x => { r with v := x }
  | 1, j, r => (Json.readStrings j).map fun x => { r with devices := x }
  | _, j, r => (Json.readBool r.overflow j).map fun x => { r with overflow := x }

def unmarshal (raw : Bytes) : Option UnconfiguredRecord :=
  Json.decodeRecord true fields store zero raw

theorem fieldNames : Json.FieldNames fields :=
  .of_all (by decide +kernel) (by decide +kernel)

/-- **A record of devices that are well-formed strings reads back from its own bytes.** -/
theorem unmarshal_marshal {r : UnconfiguredRecord} (hversion : r.v = unconfiguredFileVersion)
    (h : ∀ d ∈ r.devices, Utf8.valid d = true) : unmarshal r.marshal = some r := by
  have hv := Json.readInt64_ofInt (hversion ▸ by decide : InInt64 r.v)
  unfold unmarshal marshal
  rw [Json.decodeRecord_ofFields fieldNames zero (by simp [fields])]
  · simp only [List.zipIdx_cons, List.zipIdx_nil, List.foldlM_cons, List.foldlM_nil, store,
      hv, Json.readStrings_ofStrings h, Json.readBool_bool, Option.map_some,
      Option.bind_eq_bind, Option.bind_some, Option.pure_def]
  · intro v hv
    simp only [List.mem_cons, List.not_mem_nil, or_false] at hv
    rcases hv with rfl | rfl | rfl
    · exact Json.fits_ofInt _ _
    · exact Json.fits_ofStrings _ _
    · exact Json.fits_bool _ _

end UnconfiguredRecord

end OriGateway
