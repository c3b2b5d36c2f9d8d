import OriGateway.Foundation.CanonicalLibrary
import OriGateway.Foundation.GoMap

/-! # Items of an export

A page of an export is a JSON object with a list of items, and each item is mapped to a record, its
members read by name. The page is decoded with numbers kept as they are spelled.

`boolValue` reads a flag: it knows booleans and the machine's numbers, but no number as it is
spelled. So a flag written as a number that is not nought reads false (`numeric_flag_reads_false`),
and a flag reads as it is written exactly when it is not written so (`export_flags_read`). -/

namespace OriGateway

open Foundation

/-! ## Decoded values -/

/-- What an `any` of Go holds: a decoder may give a number as it is spelled or as a machine
number. -/
inductive GoValue where
  | null
  | bool (b : Bool)
  /-- A `json.Number`. -/
  | number (lit : Bytes)
  /-- A `float64`, by its bits. -/
  | float64 (bits : UInt64)
  | int (n : Int)
  | string (s : Bytes)
  | array (vs : List GoValue)
  | object (ms : List (Bytes × GoValue))

namespace GoValue

mutual

/-- A JSON value as a decoder that keeps numbers as they are spelled gives it. -/
def ofJson : JsonValue → GoValue
  | .null => .null
  | .bool b => .bool b
  | .number lit => .number lit
  | .string s => .string s
  | .array vs => .array (ofItems vs)
  | .object ms => .object (ofMembers ms)

def ofItems : List JsonValue → List GoValue
  | [] => []
  | v :: vs => ofJson v :: ofItems vs

def ofMembers : List (Bytes × JsonValue) → List (Bytes × GoValue)
  | [] => []
  | (name, v) :: ms => (name, ofJson v) :: ofMembers ms

end

theorem lookup_ofMembers (ms : List (Bytes × JsonValue)) (key : Bytes) :
    (ofMembers ms).lookup key = (ms.lookup key).map ofJson := by
  induction ms with
  | nil => rfl
  | cons m ms ih =>
    obtain ⟨name, v⟩ := m
    rw [ofMembers, List.lookup_cons, List.lookup_cons]
    split
    · rfl
    · exact ih

theorem mem_ofMembers {ms : List (Bytes × JsonValue)} {name : Bytes} {v : GoValue}
    (h : (name, v) ∈ ofMembers ms) : ∃ u, v = ofJson u := by
  induction ms with
  | nil => cases h
  | cons m ms ih =>
    rcases List.mem_cons.mp h with h | h
    · cases h
      exact ⟨m.2, rfl⟩
    · exact ih h

theorem mem_ofItems {vs : List JsonValue} {v : GoValue} (h : v ∈ ofItems vs) :
    ∃ u, v = ofJson u := by
  induction vs with
  | nil => cases h
  | cons u vs ih =>
    rcases List.mem_cons.mp h with rfl | h
    · exact ⟨u, rfl⟩
    · exact ih h

theorem ofJson_eq_object {v : JsonValue} {ms : List (Bytes × GoValue)} (h : ofJson v = .object ms) :
    ∃ members, ms = ofMembers members := by
  cases v with
  | object members =>
    cases h
    exact ⟨members, rfl⟩
  | _ => cases h

theorem ofJson_eq_array {v : JsonValue} {vs : List GoValue} (h : ofJson v = .array vs) :
    ∃ items, vs = ofItems items := by
  cases v with
  | array items =>
    cases h
    exact ⟨items, rfl⟩
  | _ => cases h

end GoValue

/-- An item: a `map[string]any`. -/
abbrev ExportItem := List (Bytes × GoValue)

/-! ## Pages -/

/-- Why an export fails. -/
inductive ExportError where
  /-- The subscription, the request or the wait for its response failed, or decryption did. -/
  | request (text : Bytes)
  | malformed
  | undecodable
  | requestIDMismatch (got : Bytes)
  | deviceMismatch (got : Bytes)
  | typeMismatch (got : Bytes)
  /-- "runtime export failed". -/
  | failed (error : Bytes)
  /-- "exceeded max item limit". -/
  | itemLimit
  /-- "incomplete without next_page_token". -/
  | noToken
  /-- "repeated next_page_token". -/
  | repeatedToken (token : Bytes)
  /-- "exceeded max page limit". -/
  | pageLimit

def exportEnvelope : List Bytes :=
  [ascii "request_id", ascii "export_type", ascii "device_id", ascii "items",
    ascii "next_page_token", ascii "complete", ascii "error"]

/-- The defined members of an export response. -/
def exportResponseMembers : List Bytes :=
  ["action_name", "action_taken", "action_tier", "auth", "avg_value", "bucket_ms", "ciphertext",
    "complete", "contributed_to", "correlation_id", "device_id", "encrypted", "encryption",
    "end_ms", "error", "executed",
    "export_type", "items", "max_value", "min_value", "next_page_token", "nonce", "producer_time",
    "quality",
    "reasoning_status", "received_at_ms", "record_key", "record_kind", "request_id", "sample_count",
    "scheme",
    "sensor_id", "sensor_type", "signature", "signed_at_ms", "start_ms", "tier", "tier_used",
    "timestamp", "unit",
    "value"].map ascii

/-- A page of an export. -/
structure ExportPage where
  requestID : Bytes
  exportType : Bytes
  deviceID : Bytes
  items : List ExportItem
  nextPageToken : Bytes
  complete : Bool
  error : Bytes

namespace ExportPage

/-- The names of the members of a page. -/
def fields : List Bytes :=
  [ascii "request_id", ascii "export_type", ascii "device_id", ascii "items",
    ascii "next_page_token", ascii "complete", ascii "error"]

/-- Read an item; `null` is an empty one. -/
def readItem : Json → Option ExportItem
  | .null => some []
  | .obj members => some (GoValue.ofMembers (Json.valueMembers members))
  | _ => none

/-- Read the items of a page. -/
def readItems : Json → Option (List ExportItem)
  | .null => some []
  | .arr items => items.mapM readItem
  | _ => none

/-- Store a member of a page. -/
def store : Nat → Json → ExportPage → Option ExportPage
  | 0, v, p => (Json.readString p.requestID v).map fun s => { p with requestID := s }
  | 1, v, p => (Json.readString p.exportType v).map fun s => { p with exportType := s }
  | 2, v, p => (Json.readString p.deviceID v).map fun s => { p with deviceID := s }
  | 3, v, p => (readItems v).map fun items => { p with items := items }
  | 4, v, p => (Json.readString p.nextPageToken v).map fun s => { p with nextPageToken := s }
  | 5, v, p => (Json.readBool p.complete v).map fun b => { p with complete := b }
  | _, v, p => (Json.readString p.error v).map fun s => { p with error := s }

/-- **Decode a page.** -/
def decode (encoded : Bytes) : Option ExportPage :=
  (Json.decodeFirst encoded).bind
    (Json.decodeStruct false fields store ⟨[], [], [], [], [], false, []⟩)

end ExportPage

/-- **Read a response** that was verified, and decrypted where it had to be. -/
def decodeResponsePayload (lib : CanonicalJSON) (encoded : Bytes) : Except ExportError ExportPage :=
  if !lib.decodeStrict exportResponseMembers exportEnvelope encoded then .error .malformed
  else
    match ExportPage.decode encoded with
    | none => .error .undecodable
    | some resp => .ok resp

theorem decode_of_decodeResponsePayload {lib : CanonicalJSON} {encoded : Bytes} {page : ExportPage}
    (h : decodeResponsePayload lib encoded = .ok page) : ExportPage.decode encoded = some page := by
  unfold decodeResponsePayload at h
  split_ifs at h
  split at h
  · cases h
  · next resp hresp =>
    cases h
    exact hresp

/-! ## Records -/

/-- **Read a flag**: a boolean, or a machine number that is not nought. The bits of a `float64` but
the sign are nought for nought only. -/
def boolValue (m : ExportItem) (key : Bytes) : Bool :=
  match m.lookup key with
  | some (.bool b) => b
  | some (.float64 bits) => decide (bits.toNat % 2 ^ 63 ≠ 0)
  | some (.int n) => decide (n ≠ 0)
  | _ => false

/-- The members of an object among the members of an item. -/
def subMap (item : ExportItem) (key : Bytes) : Option ExportItem :=
  match item.lookup key with
  | some (.object members) => some members
  | _ => none

/-- The flags of an entry of the action log. -/
structure ActionLogEntry where
  safeDefaultUsed : Bool
  success : Bool

def mapActionLogEntry (item : ExportItem) : ActionLogEntry where
  safeDefaultUsed := boolValue item (ascii "safe_default_used")
  success := boolValue item (ascii "executed")

/-- The flag of an entry of the log of Tier C decisions. -/
structure TierCDecisionEntry where
  safeDefaultUsed : Bool

def mapTierCDecisionEntry (item : ExportItem) : TierCDecisionEntry where
  safeDefaultUsed := boolValue item (ascii "safe_default_used")

/-- The flags of the posture of the broker. -/
structure GatewayBrokerPosture where
  available : Bool
  gatewayEnabled : Bool
  requireCredentials : Bool
  credentialsConfigured : Bool
  requiresACLHardening : Bool

/-- Read `gateway_broker_posture`. -/
def mapGatewayBrokerPosture (item : ExportItem) : Option GatewayBrokerPosture :=
  (subMap item (ascii "gateway_broker_posture")).map fun posture =>
    { available := boolValue posture (ascii "available")
      gatewayEnabled := boolValue posture (ascii "gateway_enabled")
      requireCredentials := boolValue posture (ascii "require_credentials")
      credentialsConfigured := boolValue posture (ascii "credentials_configured")
      requiresACLHardening := boolValue posture (ascii "requires_acl_hardening") }

/-- The flags of the posture of the state store. -/
structure StateStoreEncryptionPosture where
  available : Bool
  satisfied : Bool
  markerConfigured : Bool
  pathPrefixConfigured : Bool

/-- Read `state_store_encryption`. -/
def mapStateStoreEncryptionPosture (item : ExportItem) : Option StateStoreEncryptionPosture :=
  (subMap item (ascii "state_store_encryption")).map fun posture =>
    { available := boolValue posture (ascii "available")
      satisfied := boolValue posture (ascii "satisfied")
      markerConfigured := boolValue posture (ascii "marker_configured")
      pathPrefixConfigured := boolValue posture (ascii "path_prefix_configured") }

/-- The flag of the posture of the alert outbox. -/
structure AlertOutboxPosture where
  available : Bool

/-- The posture of the alert outbox: available whenever it is described at all. -/
def mapAlertOutboxPosture (item : ExportItem) : Option AlertOutboxPosture :=
  (subMap item (ascii "alert_outbox")).map fun _ => { available := true }

/-- The flags of a sender's lockout. -/
structure LockoutRiskState where
  lockedOut : Bool
  stale : Bool

def lockoutRiskStateFromMap (m : ExportItem) : LockoutRiskState where
  lockedOut := boolValue m (ascii "locked_out")
  stale := boolValue m (ascii "stale")

/-- The objects that describe lockouts, by sender: those of `lockout_risk_levels` when it has
members, else those of `remote_command_lockout`. `senderKey` joins a sender's channel and number. -/
def lockoutObjects (senderKey : ExportItem → Bytes) (item : ExportItem) :
    Option (List (Bytes × ExportItem)) :=
  match subMap item (ascii "lockout_risk_levels") with
  | some (level :: levels) => some ((level :: levels).filterMap fun
      | (key, .object m) => some (key, m)
      | _ => none)
  | _ =>
    match (subMap item (ascii "remote_command_lockout")).bind (·.lookup (ascii "senders")) with
    | some (.array (sender :: senders)) => some ((sender :: senders).filterMap fun
        | .object m => some (senderKey m, m)
        | _ => none)
    | _ => none

/-- The lockouts by sender; of two that share a key the last is kept. -/
def mapLockoutRiskLevels (senderKey : ExportItem → Bytes) (item : ExportItem) :
    Option (GoMap Bytes LockoutRiskState) :=
  (lockoutObjects senderKey item).map
    (List.foldl (fun out p => out.insert p.1 (lockoutRiskStateFromMap p.2)) ∅)

/-- Whether the gateway was seen, by either of two members. -/
def gatewaySeen (item : ExportItem) : Bool :=
  boolValue item (ascii "gateway_seen") ||
    ((subMap item (ascii "capability_posture")).any (boolValue · (ascii "gateway_reachable")))

/-! ## What a flag says -/

/-- Whether a number is not nought: a digit of its significand is not. -/
def isNonzero (lit : Bytes) : Bool :=
  (lit.takeWhile fun b => b != 101 && b != 69).any fun b => decide (49 ≤ b.toNat ∧ b.toNat ≤ 57)

/-- A member is a number that is not nought. -/
def Numeric (m : ExportItem) (key : Bytes) : Prop :=
  ∃ lit, m.lookup key = some (.number lit) ∧ isNonzero lit = true

/-- A member says yes: it is true, or a number that is not nought. -/
def Affirms (m : ExportItem) (key : Bytes) : Prop :=
  m.lookup key = some (.bool true) ∨ Numeric m key

/-- A flag reads as its member says. -/
def ReadsFlag (m : ExportItem) (key : Bytes) (flag : Bool) : Prop := flag = true ↔ Affirms m key

/-- A flag reads as its member says, exactly when that is not a number other than nought. -/
def ReadsUnlessNumeric (m : ExportItem) (key : Bytes) (flag : Bool) : Prop :=
  ReadsFlag m key flag ↔ ¬Numeric m key

/-- An item as it is decoded: no number in it is a machine number. -/
def Decoded (m : ExportItem) : Prop := ∃ members, m = GoValue.ofMembers members

theorem boolValue_iff {m : ExportItem} (hm : Decoded m) {key : Bytes} :
    boolValue m key = true ↔ m.lookup key = some (.bool true) := by
  obtain ⟨members, rfl⟩ := hm
  rw [boolValue, GoValue.lookup_ofMembers]
  cases members.lookup key with
  | none => simp
  | some v => cases v <;> simp [GoValue.ofJson]

/-- **Reading a flag of a decoded item.** -/
theorem readsUnlessNumeric_boolValue {m : ExportItem} (hm : Decoded m) (key : Bytes) :
    ReadsUnlessNumeric m key (boolValue m key) := by
  rw [ReadsUnlessNumeric, ReadsFlag, boolValue_iff hm, Affirms]
  constructor
  · rintro h ⟨lit, hlit, hnonzero⟩
    have htrue := h.mpr (.inr ⟨lit, hlit, hnonzero⟩)
    rw [hlit] at htrue
    cases htrue
  · exact fun hplain => ⟨.inl, fun h => h.resolve_right hplain⟩

theorem decoded_of_subMap {item m : ExportItem} {key : Bytes} (hitem : Decoded item)
    (h : subMap item key = some m) : item.lookup key = some (.object m) ∧ Decoded m := by
  unfold subMap at h
  split at h
  · next hlookup =>
    cases h
    refine ⟨hlookup, ?_⟩
    obtain ⟨members, rfl⟩ := hitem
    rw [GoValue.lookup_ofMembers] at hlookup
    obtain ⟨v, -, hv⟩ := Option.map_eq_some_iff.mp hlookup
    exact GoValue.ofJson_eq_object hv
  · cases h

theorem decoded_of_lockoutObjects {senderKey : ExportItem → Bytes} {item : ExportItem}
    {objects : List (Bytes × ExportItem)} (hitem : Decoded item)
    (h : lockoutObjects senderKey item = some objects) : ∀ p ∈ objects, Decoded p.2 := by
  unfold lockoutObjects at h
  split at h
  · next level levels hlevels =>
    cases h
    obtain ⟨-, members, hmembers⟩ := decoded_of_subMap hitem hlevels
    rintro p hp
    obtain ⟨⟨key, v⟩, hv, hread⟩ := List.mem_filterMap.mp hp
    rw [hmembers] at hv
    obtain ⟨u, rfl⟩ := GoValue.mem_ofMembers hv
    split at hread
    · next key' m heq =>
      cases hread
      exact GoValue.ofJson_eq_object (Prod.mk.inj heq).2
    · cases hread
  · split at h
    · next sender senders hsenders =>
      cases h
      obtain ⟨lockout, hlockout, harray⟩ := Option.bind_eq_some_iff.mp hsenders
      obtain ⟨-, members, rfl⟩ := decoded_of_subMap hitem hlockout
      rw [GoValue.lookup_ofMembers] at harray
      obtain ⟨w, -, hw⟩ := Option.map_eq_some_iff.mp harray
      obtain ⟨items, hitems⟩ := GoValue.ofJson_eq_array hw
      rintro p hp
      obtain ⟨v, hv, hread⟩ := List.mem_filterMap.mp hp
      rw [hitems] at hv
      obtain ⟨u, rfl⟩ := GoValue.mem_ofItems hv
      split at hread
      · next m heq =>
        cases hread
        exact GoValue.ofJson_eq_object heq
      · cases hread
    · cases h

theorem of_mapLockoutRiskLevels {senderKey : ExportItem → Bytes} {item : ExportItem}
    {levels : GoMap Bytes LockoutRiskState} (h : mapLockoutRiskLevels senderKey item = some levels)
    {key : Bytes} {state : LockoutRiskState} (hstate : levels.lookup key = some state) :
    ∃ objects m, lockoutObjects senderKey item = some objects ∧ (key, m) ∈ objects ∧
      state = lockoutRiskStateFromMap m := by
  obtain ⟨objects, hobjects, rfl⟩ := Option.map_eq_some_iff.mp h
  -- every entry of the map built so far was read from one of the objects
  have hfold : ∀ (rest : List (Bytes × ExportItem)) (out : GoMap Bytes LockoutRiskState),
    rest ⊆ objects →
      (∀ key state, out.lookup key = some state → ∃ m, (key, m) ∈ objects ∧
        state = lockoutRiskStateFromMap m) →
      ∀ key state, (rest.foldl (fun out p => out.insert p.1 (lockoutRiskStateFromMap p.2))
        out).lookup key =
        some state → ∃ m, (key, m) ∈ objects ∧ state = lockoutRiskStateFromMap m := by
    intro rest
    induction rest with
    | nil => exact fun out _ hout => hout
    | cons p rest ih =>
      intro out hsub hout
      exact ih _ (fun q hq => hsub (List.mem_cons_of_mem _ hq))
        (forall_lookup_insert hout ⟨p.2, hsub List.mem_cons_self, rfl⟩)
  obtain ⟨m, hm, hread⟩ := hfold objects ∅ (List.Subset.refl _) (by simp) key state hstate
  exact ⟨objects, m, hobjects, hm, hread⟩

theorem decoded_of_readItem {v : Json} {item : ExportItem} (h : ExportPage.readItem v = some item) :
    Decoded item := by
  cases v with
  | null =>
    cases h
    exact ⟨[], rfl⟩
  | obj members =>
    cases h
    exact ⟨_, rfl⟩
  | _ => cases h

theorem decoded_of_mapM {vs : List Json} {items : List ExportItem}
    (h : vs.mapM ExportPage.readItem = some items) : ∀ item ∈ items, Decoded item := by
  induction vs generalizing items with
  | nil =>
    cases h
    simp
  | cons v vs ih =>
    simp only [List.mapM_cons, Option.bind_eq_bind, Option.bind_eq_some_iff] at h
    obtain ⟨item, hitem, rest, hrest, hall⟩ := h
    cases hall
    exact List.forall_mem_cons.mpr ⟨decoded_of_readItem hitem, ih hrest⟩

theorem decoded_store {i : Nat} {v : Json} {page page' : ExportPage}
    (hpage : ∀ item ∈ page.items, Decoded item) (h : ExportPage.store i v page = some page') :
    ∀ item ∈ page'.items, Decoded item := by
  unfold ExportPage.store at h
  split at h
  -- only the fourth member holds items
  case h_4 =>
    obtain ⟨items, hitems, rfl⟩ := Option.map_eq_some_iff.mp h
    cases v with
    | null =>
      cases hitems
      simp
    | arr vs => exact decoded_of_mapM hitems
    | _ => cases hitems
  all_goals
    obtain ⟨_, -, rfl⟩ := Option.map_eq_some_iff.mp h
    exact hpage

theorem decoded_of_decode {encoded : Bytes} {page : ExportPage}
    (h : ExportPage.decode encoded = some page) : ∀ item ∈ page.items, Decoded item := by
  obtain ⟨v, hread, hv⟩ := Option.bind_eq_some_iff.mp h
  have hfits := Json.fits_of_decodeFirst hread
  cases v with
  | null =>
    cases hv
    simp
  | obj members =>
    have hempty : ∀ item ∈ ([] : List ExportItem), Decoded item := by simp
    exact Json.decodeMembers_induction
      (I := fun page : ExportPage => ∀ item ∈ page.items, Decoded item)
      (fun _ _ _ _ _ hpage hstore => decoded_store hpage hstore) hfits hempty hv
  | _ => cases hv

theorem gatewaySeen_iff {item : ExportItem} (hitem : Decoded item) : gatewaySeen item = true ↔
    item.lookup (ascii "gateway_seen") = some (.bool true) ∨
      ∃ m, item.lookup (ascii "capability_posture") = some (.object m) ∧
        m.lookup (ascii "gateway_reachable") = some (.bool true) := by
  rw [gatewaySeen, Bool.or_eq_true, boolValue_iff hitem, Option.any_eq_true]
  refine or_congr Iff.rfl (exists_congr fun m => ?_)
  constructor
  · rintro ⟨hm, hflag⟩
    obtain ⟨hlookup, hm⟩ := decoded_of_subMap hitem hm
    exact ⟨hlookup, (boolValue_iff hm).mp hflag⟩
  · rintro ⟨hlookup, hflag⟩
    have hm : subMap item (ascii "capability_posture") = some m := by rw [subMap, hlookup]
    exact ⟨hm, (boolValue_iff (decoded_of_subMap hitem hm).2).mpr hflag⟩

/-- **A flag reads as it is written exactly when it is not written as a number other than nought**,
for each flag of each record of every item of every page the client decodes. The flag of two members
is right also when the other member is true, and that of the alert outbox, which is set, exactly
when its member says yes. -/
theorem export_flags_read {lib : CanonicalJSON} {encoded : Bytes} {page : ExportPage}
    (hpage : decodeResponsePayload lib encoded = .ok page) (senderKey : ExportItem → Bytes)
    {item : ExportItem} (hitem : item ∈ page.items) :
    (ReadsUnlessNumeric item (ascii "safe_default_used") (mapActionLogEntry item).safeDefaultUsed ∧
      ReadsUnlessNumeric item (ascii "executed") (mapActionLogEntry item).success ∧
      ReadsUnlessNumeric item (ascii "safe_default_used")
        (mapTierCDecisionEntry item).safeDefaultUsed) ∧
    (∀ posture, mapGatewayBrokerPosture item = some posture →
      ∃ m, item.lookup (ascii "gateway_broker_posture") = some (.object m) ∧
        ReadsUnlessNumeric m (ascii "available") posture.available ∧
        ReadsUnlessNumeric m (ascii "gateway_enabled") posture.gatewayEnabled ∧
        ReadsUnlessNumeric m (ascii "require_credentials") posture.requireCredentials ∧
        ReadsUnlessNumeric m (ascii "credentials_configured") posture.credentialsConfigured ∧
        ReadsUnlessNumeric m (ascii "requires_acl_hardening") posture.requiresACLHardening) ∧
    (∀ posture, mapStateStoreEncryptionPosture item = some posture →
      ∃ m, item.lookup (ascii "state_store_encryption") = some (.object m) ∧
        ReadsUnlessNumeric m (ascii "available") posture.available ∧
        ReadsUnlessNumeric m (ascii "satisfied") posture.satisfied ∧
        ReadsUnlessNumeric m (ascii "marker_configured") posture.markerConfigured ∧
        ReadsUnlessNumeric m (ascii "path_prefix_configured") posture.pathPrefixConfigured) ∧
    (∀ posture, mapAlertOutboxPosture item = some posture →
      ∃ m, item.lookup (ascii "alert_outbox") = some (.object m) ∧
        (ReadsFlag m (ascii "available") posture.available ↔ Affirms m (ascii "available"))) ∧
    (∀ levels key state, mapLockoutRiskLevels senderKey item = some levels →
      levels.lookup key = some state →
        ∃ objects m, lockoutObjects senderKey item = some objects ∧ (key, m) ∈ objects ∧
          ReadsUnlessNumeric m (ascii "locked_out") state.lockedOut ∧
          ReadsUnlessNumeric m (ascii "stale") state.stale) ∧
    ((gatewaySeen item = true ↔ Affirms item (ascii "gateway_seen") ∨
        ∃ m, item.lookup (ascii "capability_posture") = some (.object m) ∧
          Affirms m (ascii "gateway_reachable")) ↔
      (item.lookup (ascii "gateway_seen") = some (.bool true) ∨
        ∃ m, item.lookup (ascii "capability_posture") = some (.object m) ∧
          m.lookup (ascii "gateway_reachable") = some (.bool true)) ∨
      ¬Numeric item (ascii "gateway_seen") ∧
        ∀ m, item.lookup (ascii "capability_posture") = some (.object m) →
          ¬Numeric m (ascii "gateway_reachable")) := by
  have hdecoded := decoded_of_decode (decode_of_decodeResponsePayload hpage) item hitem
  have hread := fun key => readsUnlessNumeric_boolValue hdecoded key
  refine ⟨⟨hread _, hread _, hread _⟩, ?_, ?_, ?_, ?_, ?_⟩
  · intro posture h
    obtain ⟨m, hm, rfl⟩ := Option.map_eq_some_iff.mp h
    obtain ⟨hlookup, hm⟩ := decoded_of_subMap hdecoded hm
    have hread := fun key => readsUnlessNumeric_boolValue hm key
    exact ⟨m, hlookup, hread _, hread _, hread _, hread _, hread _⟩
  · intro posture h
    obtain ⟨m, hm, rfl⟩ := Option.map_eq_some_iff.mp h
    obtain ⟨hlookup, hm⟩ := decoded_of_subMap hdecoded hm
    have hread := fun key => readsUnlessNumeric_boolValue hm key
    exact ⟨m, hlookup, hread _, hread _, hread _, hread _⟩
  · intro posture h
    obtain ⟨m, hm, rfl⟩ := Option.map_eq_some_iff.mp h
    exact ⟨m, (decoded_of_subMap hdecoded hm).1, by simp [ReadsFlag]⟩
  · intro levels key state hlevels hstate
    obtain ⟨objects, m, hobjects, hm, rfl⟩ := of_mapLockoutRiskLevels hlevels hstate
    have hread := fun key => readsUnlessNumeric_boolValue
      (decoded_of_lockoutObjects hdecoded hobjects _ hm) key
    exact ⟨objects, m, hobjects, hm, hread _, hread _⟩
  · rw [gatewaySeen_iff hdecoded]
    constructor
    · intro h
      by_cases hseen : item.lookup (ascii "gateway_seen") = some (.bool true) ∨ ∃ m,
          item.lookup (ascii "capability_posture") = some (.object m) ∧
            m.lookup (ascii "gateway_reachable") = some (.bool true)
      · exact .inl hseen
      · exact .inr ⟨fun hnumeric => hseen (h.mpr (.inl (.inr hnumeric))),
          fun m hm hnumeric => hseen (h.mpr (.inr ⟨m, hm, .inr hnumeric⟩))⟩
    · rintro (hseen | ⟨hplain, hposture⟩)
      · refine ⟨fun _ => ?_, fun _ => hseen⟩
        exact hseen.imp .inl fun ⟨m, hm, hflag⟩ => ⟨m, hm, .inl hflag⟩
      · refine or_congr ⟨.inl, fun h => h.resolve_right hplain⟩ (exists_congr fun m => ?_)
        exact and_congr_right fun hm => ⟨.inl, fun h => h.resolve_right (hposture m hm)⟩

def actionPage (items : Bytes) : Bytes :=
  ascii "\x7b\"complete\":true,\"device_id\":\"d\",\"error\":\"\"," ++
    ascii "\"export_type\":\"action_log\",\"items\":" ++
    items ++ ascii ",\"next_page_token\":\"\",\"request_id\":\"r\"\x7d"

def actionFlags (encoded : Bytes) : Option (List (Bool × Bool)) :=
  (decodeResponsePayload documentedJSON encoded).toOption.map fun page =>
    page.items.map fun item =>
      ((mapActionLogEntry item).safeDefaultUsed, (mapActionLogEntry item).success)

/-- **A flag written as a number reads false**: an action that was executed, as the runtime's store
writes it, is reported as one that was not. -/
theorem numeric_flag_reads_false :
    actionFlags (actionPage (ascii "[\x7b\"executed\":1,\"safe_default_used\":true\x7d]"))
      = some [(true, false)] := by
  decide +kernel

/-- A flag written as a boolean reads as it is. -/
theorem export_flags_read_true : ∃ page item, decodeResponsePayload documentedJSON
    (actionPage (ascii "[\x7b\"executed\":true\x7d]")) = .ok page ∧ item ∈ page.items ∧
      (mapActionLogEntry item).success = true ∧ Affirms item (ascii "executed") := by
  cases hpage : decodeResponsePayload documentedJSON
      (actionPage (ascii "[\x7b\"executed\":true\x7d]")) with
  | error e =>
    have hok : (decodeResponsePayload documentedJSON
        (actionPage (ascii "[\x7b\"executed\":true\x7d]"))).isOk = true := by decide +kernel
    rw [hpage] at hok
    cases hok
  | ok page =>
    have hany : (decodeResponsePayload documentedJSON
        (actionPage (ascii "[\x7b\"executed\":true\x7d]"))).toOption.any (fun page =>
          page.items.any fun item => boolValue item (ascii "executed")) = true := by decide +kernel
    rw [hpage] at hany
    obtain ⟨item, hitem, hexecuted⟩ := List.any_eq_true.mp hany
    have hlookup := (boolValue_iff (decoded_of_decode (decode_of_decodeResponsePayload hpage) item
      hitem)).mp hexecuted
    have hreads := (export_flags_read hpage (fun _ => []) hitem).1.2.1.mpr (by
      rintro ⟨lit, hlit, -⟩
      rw [hlookup] at hlit
      cases hlit)
    exact ⟨page, item, rfl, hitem, hexecuted, hreads.mp hexecuted⟩

end OriGateway
