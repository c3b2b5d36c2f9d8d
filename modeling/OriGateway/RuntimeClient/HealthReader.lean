import OriGateway.Foundation.CanonicalJson
import OriGateway.Foundation.GoMap

/-! # Reading health exports

How severe a health export item reads. A runtime serves either a marked projection or, before it
adopts it, an unmarked snapshot whose shape is checked member by member (**`snapshotFault`**); once
a device has served the projection, nothing unmarked from it is believed. **`WellFormed`** is the
shape of a snapshot, said at once. -/

namespace OriGateway

open Foundation

/-! ## Severities and members -/

def healthStatusOK : Bytes := ascii "ok"

def healthStatusDegraded : Bytes := ascii "degraded"

def healthStatusCritical : Bytes := ascii "critical"

def healthStatusUnknown : Bytes := ascii "unknown"

def healthProjectionMarker : Bytes := ascii "runtime-health/v4/remote"

def projectionOnlyMembers : List Bytes :=
  [ascii "projection", ascii "unknown_critical_blocks", ascii "action_log_records",
    ascii "safety_registry", ascii "skill_hooks"]

/-- A JSON type, as the member table states it. -/
inductive JsonKind where
  | string
  | number
  | boolean
  | array
  | object
  | objectOrNull
  deriving DecidableEq

/-- One row of the member table of a snapshot. -/
structure SnapshotMember where
  name : Bytes
  kind : JsonKind
  deriving DecidableEq

/-- The members every snapshot has. -/
def snapshotRequired : List SnapshotMember :=
  [⟨ascii "device_id", .string⟩, ⟨ascii "uptime_s", .number⟩, ⟨ascii "health_socket_path", .string⟩,
    ⟨ascii "sensors", .array⟩, ⟨ascii "degradation_reasons", .array⟩,
    ⟨ascii "safety", .objectOrNull⟩,
    ⟨ascii "alert_outbox", .object⟩, ⟨ascii "capability_posture", .object⟩,
    ⟨ascii "commissioning", .object⟩, ⟨ascii "community_skills", .object⟩,
    ⟨ascii "config_authority", .object⟩, ⟨ascii "device_policy", .object⟩,
    ⟨ascii "evidence", .object⟩,
    ⟨ascii "firmware_liveness", .object⟩, ⟨ascii "firmware_mqtt_operator", .object⟩,
    ⟨ascii "gateway_broker_posture", .object⟩, ⟨ascii "last_alert_timestamps", .object⟩,
    ⟨ascii "remote_command_lockout", .object⟩, ⟨ascii "state_store_encryption", .object⟩,
    ⟨ascii "telemetry_export", .object⟩]

def snapshotRequiredAfterV250 : List SnapshotMember :=
  [⟨ascii "critical", .boolean⟩, ⟨ascii "firmware_reading_age", .object⟩,
    ⟨ascii "firmware_controller_profiles", .object⟩]

def snapshotOptional : List SnapshotMember :=
  [⟨ascii "status", .string⟩, ⟨ascii "safety_zones", .array⟩]

/-! ## Reading one item -/

abbrev HealthItem := GoMap Bytes JsonValue

/-- Whether a value is of a kind. -/
def hasKind (value : JsonValue) (kind : JsonKind) : Bool :=
  match kind, value with
  | .string, .string _ => true
  | .number, .number _ => true
  | .boolean, .bool _ => true
  | .array, .array _ => true
  | .object, .object _ => true
  | .objectOrNull, .null => true
  | .objectOrNull, .object _ => true
  | _, _ => false

def isText (value : Option JsonValue) (text : Bytes) : Bool :=
  match value with
  | some (.string s) => decide (s = text)
  | _ => false

def isTrue (value : Option JsonValue) : Bool :=
  match value with
  | some (.bool b) => b
  | _ => false

def degradationReasons (item : HealthItem) : List JsonValue :=
  match item.lookup (ascii "degradation_reasons") with
  | some (.array reasons) => reasons
  | _ => []

/-- The first required member that is wrong. -/
def requiredFault (item : HealthItem) : List SnapshotMember → Option Bytes
  | [] => none
  | member :: members =>
    match item.lookup member.name with
    | none => some (ascii "member_absent:" ++ member.name)
    | some value =>
      if !hasKind value member.kind then some (ascii "member_mistyped:" ++ member.name)
      else requiredFault item members

/-- The first optional member that is present and of another type. -/
def optionalFault (item : HealthItem) : List SnapshotMember → Option Bytes
  | [] => none
  | member :: members =>
    match item.lookup member.name with
    | none => optionalFault item members
    | some value =>
      if !hasKind value member.kind then some (ascii "member_mistyped:" ++ member.name)
      else optionalFault item members

/-- How many listed members an item of v2.5.0 has, once every required one is there. -/
def presentMembers (item : HealthItem) : Nat :=
  snapshotOptional.foldl
    (fun present member => if (item.lookup member.name).isSome then present + 1 else present)
    snapshotRequired.length

/-- Why an item is not well formed for its encoding, after v2.5.0 or not; empty when it is. -/
def snapshotFault (item : HealthItem) (deviceID : Bytes) (afterV250 : Bool) : Bytes :=
  let required := if afterV250 then
    snapshotRequired ++ snapshotRequiredAfterV250 else snapshotRequired
  match requiredFault item required with
  | some fault => fault
  | none =>
    match optionalFault item snapshotOptional with
    | some fault => fault
    | none =>
      if !isText (item.lookup (ascii "device_id")) deviceID then ascii "device_mismatch"
      else if !afterV250 && decide (item.keys.card ≠ presentMembers item) then
        ascii "member_outside_v2_5_0_set"
      else []

/-- The severity of an item and, when it reads unknown, the fault. -/
structure HealthReading where
  severity : Bytes
  fault : Bytes
  marked : Bool
  deriving DecidableEq

def unknownReading (fault : Bytes) (marked : Bool) : HealthReading :=
  ⟨healthStatusUnknown, fault, marked⟩

def isMarked (item : HealthItem) : Bool :=
  isText (item.lookup (ascii "projection")) healthProjectionMarker

def statesCritical (item : HealthItem) : Bool :=
  isTrue (item.lookup (ascii "critical")) || isText (item.lookup (ascii "status"))
    healthStatusCritical

/-- Read an item that is marked. -/
def readMarked (item : HealthItem) : HealthReading :=
  let status := item.lookup (ascii "status")
  if isText status healthStatusOK then ⟨healthStatusOK, [], true⟩
  else if isText status healthStatusDegraded then ⟨healthStatusDegraded, [], true⟩
  else unknownReading (ascii "marked_status_unrecognised") true

/-- Read a full snapshot. -/
def readSnapshot (item : HealthItem) : HealthReading :=
  let status := item.lookup (ascii "status")
  let hasStatus := status.isSome
  let hasCritical := (item.lookup (ascii "critical")).isSome
  if hasStatus && isText status healthStatusDegraded then ⟨healthStatusDegraded, [], false⟩
  else if decide ((degradationReasons item).length ≠ 0) &&
    (!hasStatus || isText status healthStatusOK) then
    unknownReading (ascii "inconsistent_degradation_reasons") false
  else if !hasStatus then ⟨healthStatusOK, [], false⟩
  else if isText status healthStatusOK && hasCritical then ⟨healthStatusOK, [], false⟩
  else unknownReading (ascii "status_unrecognised") false

/-- **The severity of an item** of a device, which has served the projection before or not. -/
def readHealthItem (item : HealthItem) (deviceID : Bytes) (latched : Bool) : HealthReading :=
  if statesCritical item then ⟨healthStatusCritical, [], isMarked item⟩
  else if isMarked item then readMarked item
  else if latched then unknownReading (ascii "unmarked_after_projection") false
  else if projectionOnlyMembers.any fun name => (item.lookup name).isSome then
    unknownReading (ascii "projection_member_unmarked") false
  else
    let fault := snapshotFault item deviceID (item.lookup (ascii "critical")).isSome
    if fault ≠ [] then unknownReading fault false else readSnapshot item

/-! ## Reading the items of each device -/

/-- The latch of each device, and the fault last logged for it. -/
structure HealthReader where
  latched : GoMap Bytes Bool
  logged : GoMap Bytes Bytes

namespace HealthReader

def empty : HealthReader := ⟨∅, ∅⟩

def isLatched (r : HealthReader) (deviceID : Bytes) : Bool := (r.latched.lookup deviceID).getD false

/-- Read an item of a device: what it reads as, the fault to log, and the reader after it. -/
def read (r : HealthReader) (item : HealthItem) (deviceID : Bytes) :
    HealthReading × Bytes × HealthReader :=
  let reading := readHealthItem item deviceID (r.isLatched deviceID)
  let latched := if reading.marked then r.latched.insert deviceID true else r.latched
  let toLog := if reading.fault ≠ (r.logged.lookup deviceID).getD [] then reading.fault else []
  let logged := if reading.fault = [] then r.logged.erase deviceID
    else r.logged.insert deviceID reading.fault
  (reading, toLog, ⟨latched, logged⟩)

def readAll (items : List (Bytes × HealthItem)) : HealthReader :=
  items.foldl (fun r next => (r.read next.2 next.1).2.2) empty

/-- What the next item of a device reads as, after a sequence of items. -/
def readingAfter (items : List (Bytes × HealthItem)) (deviceID : Bytes) (item : HealthItem) :
    HealthReading :=
  ((readAll items).read item deviceID).1

end HealthReader

/-! ## The shape of a snapshot -/

def HasMember (item : HealthItem) (member : SnapshotMember) : Prop :=
  ∃ value, item.lookup member.name = some value ∧ hasKind value member.kind = true

def MayHaveMember (item : HealthItem) (member : SnapshotMember) : Prop :=
  ∀ value, item.lookup member.name = some value → hasKind value member.kind = true

def memberNames (members : List SnapshotMember) : Finset Bytes := (members.map (·.name)).toFinset

/-- A snapshot of a release after v2.5.0, or of v2.5.0: it names its device, has every required
member, its optional members are of their type, and that of v2.5.0 has no other member. -/
structure WellFormed (item : HealthItem) (deviceID : Bytes) (afterV250 : Bool) : Prop where
  device : item.lookup (ascii "device_id") = some (.string deviceID)
  required : ∀ member ∈ snapshotRequired, HasMember item member
  later : afterV250 = true → ∀ member ∈ snapshotRequiredAfterV250, HasMember item member
  optional : ∀ member ∈ snapshotOptional, MayHaveMember item member
  closed : afterV250 = false → ∃ names ⊆ memberNames snapshotOptional,
    item.keys = memberNames snapshotRequired ∪ names

section Shape

variable {item : HealthItem} {deviceID : Bytes} {members : List SnapshotMember}

theorem isText_eq_true_iff {value : Option JsonValue} {text : Bytes} :
    isText value text = true ↔ value = some (.string text) := by
  unfold isText
  split
  next s => simp
  next hother =>
    refine iff_of_false Bool.false_ne_true fun heq => ?_
    exact hother text heq

theorem isTrue_eq_true_iff {value : Option JsonValue} :
    isTrue value = true ↔ value = some (.bool true) := by
  unfold isTrue
  split
  next b => simp
  next hother =>
    refine iff_of_false Bool.false_ne_true fun heq => ?_
    exact hother true heq

theorem requiredFault_eq_none_iff :
    requiredFault item members = none ↔ ∀ member ∈ members, HasMember item member := by
  induction members with
  | nil => simp [requiredFault]
  | cons member members ih =>
    rw [requiredFault, List.forall_mem_cons, ← ih]
    cases hvalue : item.lookup member.name with
    | none => simp [HasMember, hvalue]
    | some value => cases hkind : hasKind value member.kind <;> simp [HasMember, hvalue, hkind]

theorem optionalFault_eq_none_iff :
    optionalFault item members = none ↔ ∀ member ∈ members, MayHaveMember item member := by
  induction members with
  | nil => simp [optionalFault]
  | cons member members ih =>
    rw [optionalFault, List.forall_mem_cons, ← ih]
    cases hvalue : item.lookup member.name with
    | none => simp [MayHaveMember, hvalue]
    | some value => cases hkind : hasKind value member.kind <;> simp [MayHaveMember, hvalue, hkind]

theorem requiredFault_ne_nil {fault : Bytes} (h : requiredFault item members = some fault) :
    fault ≠ [] := by
  induction members with
  | nil => cases h
  | cons member members ih =>
    rw [requiredFault] at h
    split at h
    · cases h
      exact List.append_ne_nil_of_left_ne_nil (by decide) _
    · split at h
      · cases h
        exact List.append_ne_nil_of_left_ne_nil (by decide) _
      · exact ih h

theorem optionalFault_ne_nil {fault : Bytes} (h : optionalFault item members = some fault) :
    fault ≠ [] := by
  induction members with
  | nil => cases h
  | cons member members ih =>
    rw [optionalFault] at h
    split at h
    · exact ih h
    · split at h
      · cases h
        exact List.append_ne_nil_of_left_ne_nil (by decide) _
      · exact ih h

/-- The listed members that an item has, besides the required ones. -/
def presentOptional (item : HealthItem) : Finset Bytes :=
  (memberNames snapshotOptional).filter fun name => (item.lookup name).isSome

theorem presentMembers_eq (item : HealthItem) :
    presentMembers item = (memberNames snapshotRequired ∪ presentOptional item).card := by
  have hdisjoint : Disjoint (memberNames snapshotRequired) (presentOptional item) := by
    refine Finset.disjoint_of_subset_right (Finset.filter_subset _ _) ?_
    decide
  have hrequired : (memberNames snapshotRequired).card = snapshotRequired.length := by decide
  rw [Finset.card_union_of_disjoint hdisjoint, hrequired]
  unfold presentMembers presentOptional
  have hnames : memberNames snapshotOptional = {ascii "status", ascii "safety_zones"} := by decide
  have hne : ascii "status" ≠ ascii "safety_zones" := by decide
  rw [hnames, Finset.filter_insert, Finset.filter_singleton]
  cases hstatus : (item.lookup (ascii "status")).isSome <;>
    cases hzones : (item.lookup (ascii "safety_zones")).isSome <;>
    simp [snapshotOptional, hstatus, hzones, hne]

/-- **The count of its members closes the set of a v2.5.0 item.** -/
theorem card_keys_eq_iff (hrequired : ∀ member ∈ snapshotRequired, HasMember item member) :
    item.keys.card = presentMembers item ↔
      ∃ names ⊆ memberNames snapshotOptional, item.keys = memberNames snapshotRequired ∪ names := by
  have hmem : ∀ name, name ∈ item.keys ↔ (item.lookup name).isSome = true := by
    intro name
    rw [mem_keys_iff, Option.isSome_iff_exists]
  have hsub : memberNames snapshotRequired ∪ presentOptional item ⊆ item.keys := by
    refine Finset.union_subset (fun name hname => ?_) fun name hname => ?_
    · obtain ⟨member, hmember, rfl⟩ := List.mem_map.mp (List.mem_toFinset.mp hname)
      obtain ⟨value, hvalue, -⟩ := hrequired member hmember
      exact mem_keys_iff.mpr ⟨value, hvalue⟩
    · exact (hmem name).mpr (Finset.mem_filter.mp hname).2
  rw [presentMembers_eq]
  constructor
  · intro hcard
    exact ⟨presentOptional item, Finset.filter_subset _ _,
      (Finset.eq_of_subset_of_card_le hsub hcard.le).symm⟩
  · rintro ⟨names, hnames, hkeys⟩
    -- the optional members that are present are the ones the set has
    suffices heq : item.keys = memberNames snapshotRequired ∪ presentOptional item by rw [← heq]
    refine Finset.Subset.antisymm (fun name hname => ?_) hsub
    have hpresent := (hmem name).mp hname
    rw [hkeys, Finset.mem_union] at hname
    rw [Finset.mem_union]
    refine hname.imp id fun hin => ?_
    exact Finset.mem_filter.mpr ⟨hnames hin, hpresent⟩

/-- **The shape check passes exactly the well formed items.** -/
theorem snapshotFault_eq_nil_iff (item : HealthItem) (deviceID : Bytes) (afterV250 : Bool) :
    snapshotFault item deviceID afterV250 = [] ↔ WellFormed item deviceID afterV250 := by
  have hall : (∀ member ∈ (if afterV250 then snapshotRequired ++ snapshotRequiredAfterV250
      else snapshotRequired), HasMember item member) ↔
      (∀ member ∈ snapshotRequired, HasMember item member) ∧
        (afterV250 = true → ∀ member ∈ snapshotRequiredAfterV250, HasMember item member) := by
    cases afterV250 with
    | false => simp
    | true => simp only [if_true, List.forall_mem_append, forall_const]
  unfold snapshotFault
  simp only
  cases hreq : requiredFault item (if afterV250 then snapshotRequired ++ snapshotRequiredAfterV250
      else snapshotRequired) with
  | some fault =>
    refine iff_of_false (requiredFault_ne_nil hreq) fun hwf => ?_
    rw [requiredFault_eq_none_iff.mpr (hall.mpr ⟨hwf.required, hwf.later⟩)] at hreq
    cases hreq
  | none =>
    obtain ⟨hrequired, hlater⟩ := hall.mp (requiredFault_eq_none_iff.mp hreq)
    simp only
    cases hopt : optionalFault item snapshotOptional with
    | some fault =>
      refine iff_of_false (optionalFault_ne_nil hopt) fun hwf => ?_
      rw [optionalFault_eq_none_iff.mpr hwf.optional] at hopt
      cases hopt
    | none =>
      have hoptional := optionalFault_eq_none_iff.mp hopt
      simp only
      split
      next hdevice =>
        refine iff_of_false (by decide) fun hwf => ?_
        rw [isText_eq_true_iff.mpr hwf.device] at hdevice
        cases hdevice
      next hdevice =>
        have hdevice := isText_eq_true_iff.mp (by simpa using hdevice)
        split
        next hopen =>
          rw [Bool.and_eq_true, Bool.not_eq_true', decide_eq_true_iff] at hopen
          refine iff_of_false (by decide) fun hwf => hopen.2 ?_
          exact (card_keys_eq_iff hrequired).mpr (hwf.closed hopen.1)
        next hclosed =>
          refine iff_of_true rfl ⟨hdevice, hrequired, hlater, hoptional, fun hbefore => ?_⟩
          rw [hbefore, Bool.not_false, Bool.true_and, decide_eq_true_iff, not_not] at hclosed
          exact (card_keys_eq_iff hrequired).mp hclosed

end Shape

/-! ## What an item reads as -/

/-- An item that states no degraded or critical condition. -/
structure StatesNothing (item : HealthItem) : Prop where
  notCritical : item.lookup (ascii "critical") ≠ some (.bool true)
  statusNotCritical : item.lookup (ascii "status") ≠ some (.string healthStatusCritical)
  statusNotDegraded : item.lookup (ascii "status") ≠ some (.string healthStatusDegraded)
  noReasons : item.lookup (ascii "degradation_reasons") = some (.array [])

section Items

variable {item : HealthItem} {deviceID : Bytes} {latched : Bool}

theorem readHealthItem_of_critical (h : statesCritical item = true) :
    readHealthItem item deviceID latched = ⟨healthStatusCritical, [], isMarked item⟩ :=
  if_pos h

theorem readHealthItem_marked (item : HealthItem) (deviceID : Bytes) (latched : Bool) :
    (readHealthItem item deviceID latched).marked = isMarked item := by
  unfold readHealthItem
  split
  next => rfl
  next =>
    split
    next hmarked =>
      rw [hmarked, readMarked]
      split_ifs <;> rfl
    next hunmarked =>
      rw [Bool.not_eq_true] at hunmarked
      rw [hunmarked]
      split
      · rfl
      · split
        · rfl
        · simp only
          split
          · rfl
          · rw [readSnapshot]
            split_ifs <;> rfl

/-- Nothing unmarked is believed of a device that has served the projection, but that it is
critical. -/
theorem readHealthItem_of_latched (hcritical : statesCritical item = false)
    (hmarked : isMarked item = false) :
    (readHealthItem item deviceID true).severity = healthStatusUnknown := by
  rw [readHealthItem, if_neg (by simp [hcritical]), if_neg (by simp [hmarked]), if_pos rfl]
  rfl

theorem readSnapshot_eq_ok (h : (readSnapshot item).severity = healthStatusOK) :
    isText (item.lookup (ascii "status")) healthStatusDegraded = false ∧
    degradationReasons item = [] := by
  unfold readSnapshot at h
  simp only at h
  split at h
  next => exact absurd h (by decide)
  next hdegraded =>
    have hstatus : isText (item.lookup (ascii "status")) healthStatusDegraded = false := by
      cases hvalue : item.lookup (ascii "status") with
      | none => rfl
      | some value => simpa [hvalue] using hdegraded
    split at h
    next => exact absurd h (by decide)
    next hreasons =>
      refine ⟨hstatus, ?_⟩
      -- an item that reads well has no status, or states that it is well
      have hsilent : (!(item.lookup (ascii "status")).isSome ||
          isText (item.lookup (ascii "status")) healthStatusOK) = true := by
        split at h
        next hnone => simp [hnone]
        next =>
          split at h
          next hok =>
            rw [Bool.and_eq_true] at hok
            simp [hok.1]
          next => exact absurd h (by decide)
      rw [hsilent, Bool.and_true, decide_eq_true_iff, not_not] at hreasons
      exact List.length_eq_zero_iff.mp hreasons

/-- **What reads well**: a marked item that says so, or a well formed one that states nothing else,
of a device that has not served the projection. -/
theorem readHealthItem_eq_ok
    (h : (readHealthItem item deviceID latched).severity = healthStatusOK) :
    (isMarked item = true ∧ item.lookup (ascii "status") = some (.string healthStatusOK)) ∨
      isMarked item = false ∧ latched = false ∧
        WellFormed item deviceID (item.lookup (ascii "critical")).isSome ∧ StatesNothing item := by
  have hcriticalNe : healthStatusCritical ≠ healthStatusOK := by decide
  have hunknownNe : healthStatusUnknown ≠ healthStatusOK := by decide
  unfold readHealthItem at h
  split at h
  next => exact absurd h hcriticalNe
  next hcritical =>
    split at h
    next hmarked =>
      refine .inl ⟨hmarked, ?_⟩
      unfold readMarked at h
      simp only at h
      split at h
      next hok => exact isText_eq_true_iff.mp hok
      next =>
        split at h
        · exact absurd h (by decide)
        · exact absurd h (by decide)
    next hunmarked =>
      split at h
      next => exact absurd h (by decide)
      next hlatched =>
        split at h
        next => exact absurd h (by decide)
        next =>
          simp only at h
          split at h
          next => exact absurd h hunknownNe
          next hfault =>
            have hwf := (snapshotFault_eq_nil_iff _ _ _).mp (not_not.mp hfault)
            obtain ⟨hstatus, hreasons⟩ := readSnapshot_eq_ok h
            rw [statesCritical, Bool.or_eq_true, isTrue_eq_true_iff,
              isText_eq_true_iff] at hcritical
            obtain ⟨hnotCritical, hnotStatus⟩ := not_or.mp hcritical
            refine .inr ⟨Bool.not_eq_true _ ▸ hunmarked, Bool.not_eq_true _ ▸ hlatched, hwf,
              hnotCritical, hnotStatus, fun hdegraded => ?_, ?_⟩
            · rw [isText_eq_true_iff.mpr hdegraded] at hstatus
              cases hstatus
            · obtain ⟨value, hvalue, hkind⟩ :=
                hwf.required ⟨ascii "degradation_reasons", .array⟩ (by decide)
              have hvalue : item.lookup (ascii "degradation_reasons") = some value := hvalue
              rw [degradationReasons, hvalue] at hreasons
              cases value with
              | array reasons =>
                simp only at hreasons
                rw [hvalue, hreasons]
              | null => cases hkind
              | bool b => cases hkind
              | number n => cases hkind
              | string s => cases hkind
              | object ms => cases hkind

end Items

namespace HealthReader

/-- **A device is latched exactly when a marked item of it was read.** -/
theorem isLatched_readAll (items : List (Bytes × HealthItem)) (deviceID : Bytes) :
    (readAll items).isLatched deviceID = true ↔
      ∃ item, (deviceID, item) ∈ items ∧ isMarked item = true := by
  induction items using List.reverseRecOn with
  | nil => simp [readAll, isLatched, empty]
  | append_singleton items next ih =>
    obtain ⟨device, item⟩ := next
    have hlatched : (readAll (items ++ [(device, item)])).latched =
        if isMarked item then (readAll items).latched.insert device true
        else (readAll items).latched := by
      rw [readAll, List.foldl_concat, ← readAll]
      show (if (readHealthItem _ _ _).marked = true then _ else _) = _
      rw [readHealthItem_marked]
    rw [isLatched, hlatched]
    cases hmarked : isMarked item with
    | false =>
      rw [if_neg Bool.false_ne_true, ← isLatched, ih]
      refine exists_congr fun item' => ?_
      rw [List.mem_append, List.mem_singleton]
      constructor
      · rintro ⟨hmem, hmarked'⟩
        exact ⟨.inl hmem, hmarked'⟩
      · rintro ⟨hmem | heq, hmarked'⟩
        · exact ⟨hmem, hmarked'⟩
        · cases heq
          rw [hmarked] at hmarked'
          cases hmarked'
    | true =>
      rw [if_pos rfl, lookup_insert_ite]
      by_cases hdevice : deviceID = device
      · subst hdevice
        rw [if_pos rfl]
        refine iff_of_true rfl ⟨item, ?_, hmarked⟩
        simp
      · rw [if_neg hdevice, ← isLatched, ih]
        refine exists_congr fun item' => and_congr_left fun _ => ?_
        simp [hdevice]

end HealthReader

/-- **What a health export item reads as**, after any sequence of items, each of a device.

* It reads ok only if it is marked and states the status ok, or is unmarked and well formed, states
  no degraded or critical condition, and no marked item of its device was read before.
* It reads critical if it states `critical` true or the status critical.
* If a marked item of its device was read before, it is unmarked and does not state critical, it
  reads unknown.
* If it is unmarked and has no member `critical`, it passes the shape check exactly when it names
  its device, every required member and every optional member that is present is of its type, and
  its members are the required ones and some of the optional ones. -/
theorem health_reading (items : List (Bytes × HealthItem)) (deviceID : Bytes) (item : HealthItem) :
    let reading := HealthReader.readingAfter items deviceID item
    (reading.severity = healthStatusOK →
      (isMarked item = true ∧ item.lookup (ascii "status") = some (.string healthStatusOK)) ∨
        isMarked item = false ∧ WellFormed item deviceID (item.lookup (ascii "critical")).isSome ∧
          StatesNothing item ∧ ∀ before, (deviceID, before) ∈ items → isMarked before = false) ∧
    (item.lookup (ascii "critical") = some (.bool true) ∨
        item.lookup (ascii "status") = some (.string healthStatusCritical) →
      reading.severity = healthStatusCritical) ∧
    ((∃ before, (deviceID, before) ∈ items ∧ isMarked before = true) → isMarked item = false →
      ¬(item.lookup (ascii "critical") = some (.bool true) ∨
        item.lookup (ascii "status") = some (.string healthStatusCritical)) →
      reading.severity = healthStatusUnknown) ∧
    (isMarked item = false → item.lookup (ascii "critical") = none →
      (snapshotFault item deviceID (item.lookup (ascii "critical")).isSome = [] ↔
        item.lookup (ascii "device_id") = some (.string deviceID) ∧
          (∀ member ∈ snapshotRequired, HasMember item member) ∧
          (∀ member ∈ snapshotOptional, MayHaveMember item member) ∧
          ∃ names ⊆ memberNames snapshotOptional,
          item.keys = memberNames snapshotRequired ∪ names)) := by
  intro reading
  have hcritical : statesCritical item = true ↔ item.lookup (ascii "critical") = some (.bool true) ∨
      item.lookup (ascii "status") = some (.string healthStatusCritical) := by
    rw [statesCritical, Bool.or_eq_true, isTrue_eq_true_iff, isText_eq_true_iff]
  have hlatched := HealthReader.isLatched_readAll items deviceID
  refine ⟨fun hok => ?_, fun hstated => ?_, fun hbefore hunmarked hnot => ?_, fun _ hnone => ?_⟩
  · rcases readHealthItem_eq_ok hok with hmarked | ⟨hunmarked, hopen, hwf, hnothing⟩
    · exact .inl hmarked
    · refine .inr ⟨hunmarked, hwf, hnothing, fun before hmem => ?_⟩
      cases hmarked : isMarked before with
      | false => rfl
      | true =>
        rw [hlatched.mpr ⟨before, hmem, hmarked⟩] at hopen
        cases hopen
  · show (readHealthItem item deviceID _).severity = _
    rw [readHealthItem_of_critical (hcritical.mpr hstated)]
  · show (readHealthItem item deviceID ((HealthReader.readAll items).isLatched deviceID)).severity
      = _
    rw [hlatched.mpr hbefore]
    exact readHealthItem_of_latched (Bool.not_eq_true _ ▸ fun h => hnot (hcritical.mp h)) hunmarked
  · rw [hnone, Option.isSome_none, snapshotFault_eq_nil_iff]
    constructor
    · intro hwf
      exact ⟨hwf.device, hwf.required, hwf.optional, hwf.closed rfl⟩
    · rintro ⟨hdevice, hrequired, hoptional, hclosed⟩
      exact ⟨hdevice, hrequired, nofun, hoptional, fun _ => hclosed⟩

def bareProjection : HealthItem :=
  (∅ : HealthItem).insert (ascii "projection") (.string healthProjectionMarker)

/-- A snapshot of v2.5.0 that states nothing. -/
def quietSnapshot : HealthItem :=
  snapshotRequired.foldl (fun item member => item.insert member.name
    (match member.kind with
    | .string => .string (ascii "dev")
    | .number => .number (ascii "60")
    | .array => .array []
    | _ => .object [])) ∅

/-- A well-formed snapshot reads ok, and unknown once its device has served the projection. -/
theorem health_reading_bareProjection :
    (HealthReader.readingAfter [] (ascii "dev") quietSnapshot).severity = healthStatusOK ∧
      (HealthReader.readingAfter [(ascii "dev", bareProjection)] (ascii "dev")
        quietSnapshot).severity = healthStatusUnknown := by
  obtain ⟨-, -, hlatched, -⟩ :=
    health_reading [(ascii "dev", bareProjection)] (ascii "dev") quietSnapshot
  have hmarked : isMarked bareProjection = true := by decide +kernel
  have hcritical : quietSnapshot.lookup (ascii "critical") = none := by decide +kernel
  have hstatus : quietSnapshot.lookup (ascii "status") = none := by decide +kernel
  refine ⟨by decide +kernel, hlatched ⟨_, List.mem_cons_self, hmarked⟩ (by decide +kernel) ?_⟩
  simp [hcritical, hstatus]

end OriGateway
