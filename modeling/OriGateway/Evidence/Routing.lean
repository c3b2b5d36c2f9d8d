import OriGateway.Evidence.Artifact
import OriGateway.Foundation.Unicode

/-! # Routing fields

What the courier reads of an artifact: its device, an envelope's ledger sequence, and a receipt's
range. Each is read by `decodeRouting`, which refuses a payload whose routing members another reader
could read differently, and nothing else of the payload is looked at. -/

namespace OriGateway

open Foundation

/-! ## Strings of scalar values -/

def hexUnitAt : Bytes → Option Nat
  | p :: q :: r :: s :: _ => Json.hexUnit p q r s
  | _ => none

/-- Whether the escapes of a raw JSON string encode only scalar values: a surrogate escape must be a
high half followed at once by a low half. The counter is the number of bytes of the last escape
still to pass over. -/
def scalarEscapesFrom : Nat → Bytes → Bool
  | _, [] => true
  | skip + 1, _ :: rest => scalarEscapesFrom skip rest
  | 0, b :: rest =>
    if b = 92 then
      match rest with
      | 117 :: after =>
        match hexUnitAt after with
        | none => false
        | some unit =>
          if 0xDC00 ≤ unit ∧ unit ≤ 0xDFFF then false
          else if 0xD800 ≤ unit ∧ unit ≤ 0xDBFF then
            match after.drop 4 with
            | 92 :: 117 :: digits =>
              match hexUnitAt digits with
              | some low =>
                if 0xDC00 ≤ low ∧ low ≤ 0xDFFF then scalarEscapesFrom 11 rest else false
              | none => false
            | _ => false
          else scalarEscapesFrom 5 rest
      | _ => scalarEscapesFrom 1 rest
    else scalarEscapesFrom 0 rest

/-- Whether a raw JSON string is valid UTF-8 whose escapes encode only scalar values. -/
def scalarValueString (raw : Bytes) : Bool := Utf8.valid raw && scalarEscapesFrom 0 raw

/-! ## Reading routing members -/

/-- Why a payload's routing members are not read. -/
inductive RoutingError where
  | unparseable
  | notAnObject
  | repeated (member : Bytes)
  /-- A member differs from a routing member by case only. -/
  | misspelled (member : Bytes)
  /-- A routing member is no string of scalar values. -/
  | notScalarValues (member : Bytes)
  | badType
  deriving DecidableEq

/-- Compare one member name with the routing members in order: whether it is one of them, and those
seen so far. -/
def checkMember (key : Bytes) : List Bytes → Bool → List Bytes →
    Except RoutingError (Bool × List Bytes)
  | [], routing, seen => .ok (routing, seen)
  | member :: rest, routing, seen =>
    if key = member then
      if member ∈ seen then .error (.repeated member)
      else checkMember key rest true (member :: seen)
    else if Json.foldName key = Json.foldName member then .error (.misspelled member)
    else checkMember key rest routing seen

/-- Whether a routing member's value could be read as another string than it is. -/
def ambiguousValue : Json → Bool
  | .str raw => !scalarValueString (34 :: raw ++ [34])
  | _ => false

/-- Require each routing member to appear at most once, spelled exactly, and as a string to carry
only scalar values. -/
def refuseAmbiguousMembers (members : List Bytes) :
    List (Bytes × Json) → List Bytes → Except RoutingError Unit
  | [], _ => .ok ()
  | (name, value) :: rest, seen =>
    match checkMember (Json.unquote name) members false seen with
    | .error e => .error e
    | .ok (routing, seen) =>
      if routing && ambiguousValue value then .error (.notScalarValues (Json.unquote name))
      else refuseAmbiguousMembers members rest seen

/-- A record of routing fields: the members' names, how each is read, and the empty record. -/
structure RoutingSchema (R : Type) where
  members : List Bytes
  store : Nat → Json → R → Option R
  zero : R

/-- Read a payload's routing fields strictly. -/
def decodeRouting {R : Type} (schema : RoutingSchema R) (payload : Bytes) : Except RoutingError R :=
  match Json.parse payload with
  | none => .error .unparseable
  | some (.obj members) =>
    match refuseAmbiguousMembers schema.members members [] with
    | .error e => .error e
    | .ok () =>
      match Json.decodeMembers false schema.members schema.store members schema.zero with
      | some r => .ok r
      | none => .error .badType
  | some _ => .error .notAnObject

theorem decodeRouting_nil {R : Type} (schema : RoutingSchema R) :
    decodeRouting schema [] = .error .unparseable := rfl

def deviceSchema : RoutingSchema Bytes where
  members := [ascii "device_id"]
  store _ v device := Json.readString device v
  zero := []

/-- The routing fields of an outbound artifact. -/
structure OutboundRouting where
  deviceID : Bytes
  localSeq : Int
  deriving DecidableEq

/-- The routing fields of an outbound record. -/
def outboundSchema : RoutingSchema OutboundRouting where
  members := [ascii "device_id", ascii "local_seq"]
  store
    | 0, v, r => (Json.readString r.deviceID v).map fun d => { r with deviceID := d }
    | _, v, r => (Json.readInt64 r.localSeq v).map fun n => { r with localSeq := n }
  zero := ⟨[], 0⟩

/-- The routing fields of an authority artifact. -/
structure AuthorityRouting where
  deviceID : Bytes
  fromSeq : Option Int
  toSeq : Option Int
  deriving DecidableEq

/-- The routing fields of an authority artifact. -/
def authoritySchema : RoutingSchema AuthorityRouting where
  members := [ascii "device_id", ascii "from_seq", ascii "to_seq"]
  store
    | 0, v, r => (Json.readString r.deviceID v).map fun d => { r with deviceID := d }
    | 1, v, r => (Json.readInt64Ptr v).map fun n => { r with fromSeq := n }
    | _, v, r => (Json.readInt64Ptr v).map fun n => { r with toSeq := n }
  zero := ⟨[], none, none⟩

/-- The device a queued record belongs to, empty when its routing fields cannot be read. -/
def recordDevice (payload : Bytes) : Bytes :=
  match decodeRouting deviceSchema payload with
  | .ok device => device
  | .error _ => []

/-! ## The routing domain -/

def isControl (r : Nat) : Bool := decide (r < 0x20) || (decide (0x7F ≤ r) && decide (r ≤ 0x9F))

def isRoutingRune (r : Nat) : Bool :=
  !(isControl r || isWhiteSpace r || r == 47 || r == 43 || r == 35)

/-- The routing domain of a device: one to 128 characters of a topic segment. -/
def validRoutingDeviceID (device : Bytes) : Bool :=
  device != [] && Utf8.valid device && decide ((Utf8.runes device).length ≤ 128) &&
    (Utf8.runes device).all fun r => isRoutingRune (r.getD Utf8.replacement)

theorem valid_of_validRoutingDeviceID {device : Bytes} (h : validRoutingDeviceID device = true) :
    Utf8.valid device = true := by
  simp only [validRoutingDeviceID, Bool.and_eq_true] at h
  exact h.1.1.2

/-- Why an artifact is not admitted for its routing fields. -/
inductive AdmissionRefusal where
  /-- "unsupported outbound artifact type". -/
  | unsupportedType
  /-- "artifact routing fields are missing or unparseable". -/
  | unparseable (e : RoutingError)
  /-- "artifact device_id is outside its routing domain". -/
  | outsideDomain
  /-- "artifact exceeds the evidence-transport maximum". -/
  | tooLarge
  /-- "delivery envelope local_seq must be positive". -/
  | localSeqNotPositive
  /-- "delivery envelope local_seq is outside the D-011 integer zone". -/
  | localSeqUnsafe
  deriving DecidableEq

/-- The checks of a record's routing fields. -/
def validateArtifactRoutingFields (kind : ArtifactType) (payload : Bytes) (domain : Bytes → Bool) :
    Except AdmissionRefusal Unit :=
  if !validOutboundArtifactType kind then .error .unsupportedType
  else
    match decodeRouting outboundSchema payload with
    | .error e => .error (.unparseable e)
    | .ok routing =>
      if !domain routing.deviceID then .error .outsideDomain
      else if maxArtifactBytes < payload.length then .error .tooLarge
      else if kind = .deliveryEnvelope ∧ routing.localSeq ≤ 0 then .error .localSeqNotPositive
      else if kind = .deliveryEnvelope ∧ maxSafeInteger < routing.localSeq then
        .error .localSeqUnsafe
      else .ok ()

theorem length_le_of_validateArtifactRoutingFields {kind : ArtifactType} {payload : Bytes}
    {domain : Bytes → Bool} (h : validateArtifactRoutingFields kind payload domain = .ok ()) :
    payload.length ≤ maxArtifactBytes ∧ validOutboundArtifactType kind = true := by
  unfold validateArtifactRoutingFields at h
  by_cases hkind : validOutboundArtifactType kind = true
  · rw [hkind, Bool.not_true, if_neg Bool.false_ne_true] at h
    by_cases hlen : maxArtifactBytes < payload.length
    · simp only [hlen, if_true] at h
      split at h
      · cases h
      · split at h <;> cases h
    · exact ⟨Nat.le_of_not_lt hlen, hkind⟩
  · simp [hkind] at h

end OriGateway
