import OriGateway.MqttAuth.Signing

/-! # Inbound messages

How a staged authority artifact is carried to its runtime: an envelope of the routing values and the
artifact as it stands, signed, written in canonical form, and refused when it is over its maximum or
breaks the payload member rule. The artifact in the message is the canonical form of the queued
bytes, so its digest is the one an acknowledgement has to name (`inbound_artifact_canonical`), and
whatever the return queue takes is carried (`encodeInbound_of_store`). -/

namespace OriGateway

open Foundation

variable {artifact : AuthorityArtifact} {lib : CanonicalJSON} {deviceID : Bytes} {v : Json}

/-! ## The message -/

def evidenceInboundMessageType : Bytes := ascii "evidence_inbound"

def inboundPayloadMaximum : Nat := 1114112

/-- The members the payload member rule defines for inbound messages. -/
def inboundDefinedMembers : List Bytes :=
  [ascii "artifact", ascii "artifact_type", ascii "auth", ascii "ciphertext", ascii "custody_at_ms",
    ascii "device_id", ascii "encrypted", ascii "encryption", ascii "envelope_digest",
    ascii "key_id",
    ascii "local_seq", ascii "mac", ascii "nonce", ascii "scheme", ascii "signature",
    ascii "signed_at_ms",
    ascii "v"]

/-- The payload member rule for inbound messages. -/
def admitInbound (lib : CanonicalJSON) (payload : Bytes) : Bool :=
  lib.decodeStrict inboundDefinedMembers [] payload

/-- The `auth` member. -/
def authJson (auth : HeartbeatAuth) : Json :=
  .obj [(ascii "scheme", Json.ofString auth.scheme),
    (ascii "signed_at_ms", Json.ofInt auth.signedAtMS),
    (ascii "signature", Json.ofString auth.signature)]

/-- An envelope as it is written, around an artifact; the authenticator is left out when there is
none. -/
def inboundEnvelope (deviceID : Bytes) (kind : AuthorityArtifactType) (artifact : Json)
    (auth : Option HeartbeatAuth) : Json :=
  .obj ([(ascii "device_id", Json.ofString deviceID),
    (ascii "artifact_type", Json.ofString kind.name),
    (ascii "artifact", artifact)] ++ auth.toList.map fun a => (ascii "auth", authJson a))

/-- The text of an envelope: the artifact is copied, when it is JSON. -/
def marshalInbound (deviceID : Bytes) (kind : AuthorityArtifactType) (artifact : Bytes)
    (auth : Option HeartbeatAuth) : Option Bytes :=
  (Json.parse artifact).map fun v => (inboundEnvelope deviceID kind v.compacted auth).render

/-- Why an artifact is not carried. -/
inductive InboundError where
  | marshal
  /-- "queued authority artifact is not canonicalisable". -/
  | notCanonical
  | overMaximum
  | memberRule
  deriving DecidableEq

/-- **The message that carries an artifact.** -/
def encodeInbound (lib : CanonicalJSON) (deviceID : Bytes) (kind : AuthorityArtifactType)
    (artifact : Bytes) (signedAt : Int) (secret : Bytes) : Except InboundError Bytes :=
  match marshalInbound deviceID kind artifact none with
  | none => .error .notCanonical
  | some text =>
    match sign lib text evidenceInboundMessageType deviceID [] signedAt secret with
    | .error _ => .error .notCanonical
    | .ok auth =>
      match marshalInbound deviceID kind artifact (some auth) with
      | none => .error .marshal
      | some encoded =>
        match lib.marshalWire encoded with
        | none => .error .notCanonical
        | some payload =>
          if payload.length > inboundPayloadMaximum then .error .overMaximum
          else if !admitInbound lib payload then .error .memberRule
          else .ok payload

/-! ## What an envelope reads as -/

/-- The members of an inbound message. -/
def inboundMembers (deviceID : Bytes) (kind : AuthorityArtifactType) (artifact : JsonValue)
    (auth : HeartbeatAuth) : List (Bytes × JsonValue) :=
  [(ascii "artifact", artifact), (ascii "artifact_type", (Json.ofString kind.name).value),
    (ascii "auth", (authJson auth).value), (ascii "device_id", (Json.ofString deviceID).value)]

theorem inbound_names :
    (Json.unquote (ascii "device_id") = ascii "device_id" ∧
      Json.unquote (ascii "artifact_type") = ascii "artifact_type" ∧
        Json.unquote (ascii "artifact") = ascii "artifact" ∧
        Json.unquote (ascii "auth") = ascii "auth") ∧
    ascii "artifact" < ascii "auth" ∧ ¬ ascii "artifact_type" < ascii "artifact" ∧
      ascii "artifact_type" ≠ ascii "artifact" ∧ ascii "artifact_type" < ascii "auth" ∧
        ¬ ascii "device_id" < ascii "artifact" ∧ ascii "device_id" ≠ ascii "artifact" ∧
          ¬ ascii "device_id" < ascii "artifact_type" ∧ ascii "device_id" ≠ ascii "artifact_type" ∧
            ¬ ascii "device_id" < ascii "auth" ∧ ascii "device_id" ≠ ascii "auth" := by
  decide

/-- **What a signed envelope reads as.** -/
theorem value_inboundEnvelope (deviceID : Bytes) (kind : AuthorityArtifactType) (artifact : Json)
    (auth : HeartbeatAuth) :
    (inboundEnvelope deviceID kind artifact (some auth)).value
      = .object (inboundMembers deviceID kind artifact.value auth) := by
  obtain ⟨⟨hdevice, htype, hartifact, hauth⟩, h1, h2, h3, h4, h5, h6, h7, h8, h9, h10⟩ :=
    inbound_names
  simp only [inboundEnvelope, Option.toList_some, List.map_cons, List.map_nil, List.cons_append,
    List.nil_append, Json.value, Json.valueMembers, hdevice, htype, hartifact, hauth, insertMember,
    h1, h2, h3, h4, h5, h6, h7, h8, h9, h10, if_true, if_false, inboundMembers]

theorem fits_inboundEnvelope (deviceID : Bytes) (kind : AuthorityArtifactType)
    (auth : Option HeartbeatAuth) {artifact : Json} {bound : Nat}
    (h : Json.Fits (bound + 1) artifact) :
    Json.Fits (bound + 2) (inboundEnvelope deviceID kind artifact auth) := by
  have hraw : ∀ name ∈ [ascii "device_id", ascii "artifact_type", ascii "artifact", ascii "auth",
    ascii "scheme",
      ascii "signed_at_ms", ascii "signature"], Json.IsRaw name := by
    intro name hname
    have hplain : ∀ name ∈ [ascii "device_id", ascii "artifact_type", ascii "artifact",
      ascii "auth",
        ascii "scheme", ascii "signed_at_ms", ascii "signature"], ∀ b ∈ name,
          Json.isPlain b = true := by
      decide +kernel
    exact Json.isRaw_of_plain (hplain name hname)
  have hauth : ∀ a : HeartbeatAuth, Json.Fits (bound + 1) (authJson a) := fun a =>
    ⟨hraw _ (by simp), Json.fits_ofString _ _, hraw _ (by simp), Json.fits_ofInt _ _,
      hraw _ (by simp),
      Json.fits_ofString _ _, trivial⟩
  cases auth with
  | none =>
    exact ⟨hraw _ (by simp), Json.fits_ofString _ _, hraw _ (by simp), Json.fits_ofString _ _,
      hraw _ (by simp), h, trivial⟩
  | some a =>
    exact ⟨hraw _ (by simp), Json.fits_ofString _ _, hraw _ (by simp), Json.fits_ofString _ _,
      hraw _ (by simp), h, hraw _ (by simp), hauth a, trivial⟩

/-- Nothing of an envelope is repaired in reading it unless something of its artifact is. -/
theorem isScalar_inboundEnvelope (deviceID : Bytes) (kind : AuthorityArtifactType) (artifact : Json)
    (auth : HeartbeatAuth) :
    (inboundEnvelope deviceID kind artifact (some auth)).isScalar = artifact.isScalar := by
  have hnames : Json.isScalarString (ascii "device_id") = true ∧
    Json.isScalarString (ascii "artifact_type") = true ∧
      Json.isScalarString (ascii "artifact") = true ∧ Json.isScalarString (ascii "auth") = true ∧
        Json.isScalarString (ascii "scheme") = true ∧
        Json.isScalarString (ascii "signed_at_ms") = true ∧
          Json.isScalarString (ascii "signature") = true := by
    decide
  obtain ⟨h1, h2, h3, h4, h5, h6, h7⟩ := hnames
  simp only [inboundEnvelope, authJson, Option.toList_some, List.map_cons, List.map_nil,
    List.cons_append, List.nil_append, Json.isScalar, Json.isScalarMembers, Json.ofString,
    Json.ofInt, h1, h2, h3, h4, h5, h6, h7, Json.isScalarString_escape, Bool.true_and,
    Bool.and_true]

/-- **What is carried**: the canonical form of a signed envelope around a copy of the artifact. -/
theorem of_encodeInbound {kind : AuthorityArtifactType} {artifact : Bytes} {signedAt : Int}
    {secret payload : Bytes}
    (h : encodeInbound lib deviceID kind artifact signedAt secret = .ok payload) :
    ∃ v auth, Json.parse artifact = some v ∧
      lib.marshalWire (inboundEnvelope deviceID kind v.compacted (some auth)).render
        = some payload := by
  unfold encodeInbound at h
  split at h
  · cases h
  · split at h
    · cases h
    · next auth hsign =>
      split at h
      · cases h
      · next encoded hencoded =>
        split at h
        · cases h
        · next payload' hwire =>
          split_ifs at h
          cases h
          obtain ⟨v, hparse, rfl⟩ := Option.map_eq_some_iff.mp hencoded
          exact ⟨v, auth, hparse, hwire⟩

/-! ## The artifact in the message -/

/-- **The artifact in a message is the canonical form of the queued bytes**, when canonical forms
are compositional. Its bytes stand in the message as they are, and their digest is the one an
acknowledgement of the queued artifact has to name, however the queued bytes were spelled. -/
theorem inbound_artifact_canonical {lib : CanonicalJSON} (hlib : lib.Compositional)
    {deviceID : Bytes} {kind : AuthorityArtifactType} {artifact : Bytes} {signedAt : Int}
    {secret payload : Bytes}
    (h : encodeInbound lib deviceID kind artifact signedAt secret = .ok payload) :
    ∃ canonical before after members member, lib.marshalWire artifact = some canonical ∧
      payload = before ++ canonical ++ after ∧ Json.parse payload = some (.obj members) ∧
        members.lookup (ascii "artifact") = some member ∧ member.render = canonical ∧
          ∀ queued ack, queued.payload = artifact →
          authorityQueueRouting queued = some (deviceID, kind) →
            ack.artifactType = kind.name →
              (judgeAck lib.marshalWire deviceID ack queued = .error .notNamed ↔
                ack.artifactDigest ≠ payloadDigest member.render) := by
  obtain ⟨v, auth, hparse, hwire⟩ := of_encodeInbound h
  obtain ⟨t, s, -, -, -, hfits⟩ := Json.of_parse hparse
  -- the envelope's text is read as the envelope
  have hcopied : Json.Fits 10001 (inboundEnvelope deviceID kind v.compacted (some auth)) :=
    fits_inboundEnvelope deviceID kind (some auth) (Json.fits_compacted hfits)
  obtain ⟨w, hw⟩ := Option.isSome_iff_exists.mp (hlib.parses hwire)
  obtain ⟨rfl, -⟩ := Json.eq_of_parse (Json.spells_render _) hcopied Json.space_nil
    (by rwa [List.append_nil])
  have hnodup : (([ascii "device_id", ascii "artifact_type", ascii "artifact", ascii "auth"]).map
      Json.unquote).Nodup := by
    decide
  have hmem : (ascii "artifact", v.compacted) ∈ [(ascii "device_id", Json.ofString deviceID),
      (ascii "artifact_type", Json.ofString kind.name), (ascii "artifact", v.compacted),
      (ascii "auth", authJson auth)] := by
    simp
  obtain ⟨canonical, before, after, members, member, hform, hsplit, hpayload, hlookup, hrender⟩ :=
    hlib.member hw hwire hnodup hmem
  -- a copy of the artifact has the canonical form of the artifact
  have hsame : lib.marshalWire artifact = some canonical := by
    rw [← hform]
    exact hlib.spelling hparse (Json.parse_render (Json.fits_compacted hfits))
      (Json.value_compacted hfits).symm (Json.isScalar_compacted hfits).symm
      (Json.objectsAll_compacted hfits).symm
  have hname : Json.minimal (Json.unquote (ascii "artifact")) = ascii "artifact" := by decide
  rw [hname] at hlookup
  refine ⟨canonical, before, after, members, member, hsame, hsplit, hpayload, hlookup, hrender, ?_⟩
  rintro queued ack rfl hrouting htype
  unfold judgeAck
  rw [hrouting, hrender]
  simp only [hsame, ne_eq, htype, not_true_eq_false, false_or]
  by_cases hdigest : ack.artifactDigest = payloadDigest canonical
  · cases hdecision : inboundDecision ack.outcome ack.reason with
    | none => simp [hdigest]
    | some decision => simp [hdigest]
  · simp [hdigest]

def spelledReceipt : AuthorityArtifact :=
  ⟨.deliveryReceipt, ascii "d", ascii "\x7b \"n\" : 1.0, \"device_id\":\"\\u0064\" \x7d"⟩

def carriedReceipt : Except InboundError Bytes :=
  encodeInbound documentedJSON spelledReceipt.deviceID spelledReceipt.type spelledReceipt.payload 1
    (ascii "k")

theorem inbound_artifact_canonical_spelledReceipt : ∃ payload members member,
    carriedReceipt = .ok payload ∧ Json.parse payload = some (.obj members) ∧
      members.lookup (ascii "artifact") = some member ∧
        member.render = ascii "\x7b\"device_id\":\"d\",\"n\":1.0\x7d" := by
  have hok : carriedReceipt.isOk = true := by decide +kernel
  cases h : carriedReceipt with
  | error e =>
    rw [h] at hok
    cases hok
  | ok payload =>
    obtain ⟨canonical, before, after, members, member, hwire, -, hparse, hlookup, hrender, -⟩ :=
      inbound_artifact_canonical documentedJSON_compositional h
    have hform : documentedJSON.marshalWire spelledReceipt.payload
        = some (ascii "\x7b\"device_id\":\"d\",\"n\":1.0\x7d") := by
      decide +kernel
    rw [hwire] at hform
    exact ⟨payload, members, member, rfl, hparse, hlookup, hrender.trans (Option.some.inj hform)⟩

/-! ## Whatever is staged is carried -/

/-- **What the checks of the return queue say.** -/
theorem of_storeCheck {canonical : Bytes → Option Bytes} {memberRule : Bytes → Bool}
    {kind : ArtifactType} (h : storeCheck canonical memberRule artifact = .ok kind) :
    returnKind artifact.type = some kind ∧
      decodeRouting deviceSchema artifact.payload = .ok artifact.deviceID ∧ artifact.deviceID ≠ [] ∧
        memberRule (inboundMemberPayload artifact) = true ∧
          ∃ bytes, canonical artifact.payload = some bytes ∧
          bytes.length ≤ maxAuthorityArtifactBytes := by
  unfold storeCheck at h
  split at h
  · cases h
  · next kind' hkind =>
    split at h
    · cases h
    · next device hdevice =>
      split_ifs at h with hbound hrule
      simp only [not_or, not_not] at hbound
      obtain ⟨hne, rfl⟩ := hbound
      split at h
      · cases h
      · next bytes hbytes =>
        split_ifs at h with hlen
        cases h
        exact ⟨hkind, hdevice, hne, by simpa using hrule, bytes, hbytes, not_lt.mp hlen⟩

/-- The authenticator that stands in for one when an artifact is judged. -/
def placeholderAuth : HeartbeatAuth := ⟨heartbeatAuthScheme, 1, signaturePrefix⟩

theorem escape_name {type : AuthorityArtifactType} {kind : ArtifactType}
    (h : returnKind type = some kind) : Json.ofString type.name = .str type.name := by
  have hplain : ∀ b ∈ type.name, Json.isPlain b = true := by
    cases type with
    | deliveryReceipt => decide +kernel
    | epochConfirmation => decide +kernel
    | custodyAcknowledgement => decide +kernel
    | other => cases h
  rw [Json.ofString, Json.escapeFrom_plain hplain]

theorem spells_inboundMemberPayload {kind : ArtifactType} {t w : Bytes}
    (hkind : returnKind artifact.type = some kind) (hpayload : artifact.payload = t ++ w)
    (hw : Json.Space w) (h : Json.Spells v t) :
    Json.Spells (inboundEnvelope [] artifact.type v (some placeholderAuth))
      (inboundMemberPayload artifact) := by
  have hempty : Json.ofString [] = .str [] := rfl
  have hfirst : ascii "\x7b\"device_id\":\"\",\"artifact_type\":\""
      = 123 :: 34 :: (ascii "device_id" ++ 34 :: 58 :: 34 :: 34 :: 44 :: 34 ::
        (ascii "artifact_type" ++ [34, 58, 34])) := by
    decide
  have hsecond : ascii "\",\"artifact\":" = 34 :: 44 :: 34 :: (ascii "artifact" ++ [34, 58]) := by
    decide
  have hlast : ascii placeholderMember
      = 44 :: 34 :: (ascii "auth" ++ 34 :: 58 :: ((authJson placeholderAuth).render ++ [125])) := by
    decide
  simp only [inboundEnvelope, Option.toList_some, List.map_cons, List.map_nil, List.cons_append,
    List.nil_append, escape_name hkind, hempty]
  have hauth : Json.SpellsMembers [(ascii "auth", authJson placeholderAuth)]
    (w ++ 44 :: 34 :: (ascii "auth" ++
      34 :: 58 :: ((authJson placeholderAuth).render ++ [125]))) :=
    ⟨w, [], [], _, [125], hw, Json.space_nil, Json.space_nil, Json.spells_render _,
      ⟨[], Json.space_nil, rfl⟩, rfl⟩
  have hartifact :
    Json.SpellsMembers [(ascii "artifact", v), (ascii "auth", authJson placeholderAuth)] _ :=
    ⟨[], [], [], t, _, Json.space_nil, Json.space_nil, Json.space_nil, h, hauth, rfl⟩
  have htype : Json.SpellsMembers
    [(ascii "artifact_type", .str artifact.type.name), (ascii "artifact", v),
      (ascii "auth", authJson placeholderAuth)] _ :=
    ⟨[], [], [], _, _, Json.space_nil, Json.space_nil, Json.space_nil, Json.spells_render _,
      hartifact, rfl⟩
  refine ⟨[], [], [], _, _, Json.space_nil, Json.space_nil, Json.space_nil, Json.spells_render _,
    htype, ?_⟩
  simp only [inboundMemberPayload, hfirst, hsecond, hlast, hpayload, Json.render, List.cons_append,
    List.nil_append, List.append_assoc]

theorem objectsAll_inboundEnvelope {p : List Bytes → Bool} {artifact artifact' : Json}
    (h : artifact.objectsAll p = artifact'.objectsAll p) (deviceID deviceID' : Bytes)
    (kind kind' : AuthorityArtifactType) (auth auth' : HeartbeatAuth) :
    (inboundEnvelope deviceID kind artifact (some auth)).objectsAll p
      = (inboundEnvelope deviceID' kind' artifact' (some auth')).objectsAll p := by
  simp only [inboundEnvelope, authJson, Option.toList_some, List.map_cons, List.map_nil,
    List.cons_append, List.nil_append, Json.objectsAll, Json.objectsAllMembers, Json.ofString,
    Json.ofInt, h]

/-- An envelope is strict when one around an artifact of the same names is. -/
theorem strict_of_strict {limit : Nat} {deviceID' : Bytes} {kind kind' : AuthorityArtifactType}
    {v' : Json} {auth auth' : HeartbeatAuth} (hv : Json.Fits (limit + 1) v')
    (hscalar : v'.isScalar = v.isScalar) (hnames : ∀ p, v'.objectsAll p = v.objectsAll p)
    (h : Json.Strict (limit + 2) inboundDefinedMembers
      (inboundEnvelope deviceID kind v (some auth))) :
    Json.Strict (limit + 2) inboundDefinedMembers
      (inboundEnvelope deviceID' kind' v' (some auth')) where
  fits := fits_inboundEnvelope deviceID' kind' (some auth') hv
  isScalar := by
    rw [isScalar_inboundEnvelope, hscalar, ← isScalar_inboundEnvelope deviceID kind v auth]
    exact h.isScalar
  distinct := (objectsAll_inboundEnvelope (hnames _) _ _ _ _ _ _).trans h.distinct
  exact := (objectsAll_inboundEnvelope (hnames _) _ _ _ _ _ _).trans h.exact

/-- **The envelope of a staged artifact is one that every reader reads alike.** -/
theorem strict_inboundEnvelope (hlib : lib.Documented) {kind : ArtifactType}
    (hkind : returnKind artifact.type = some kind) (hparse : Json.parse artifact.payload = some v)
    (hrule : admitInbound lib (inboundMemberPayload artifact) = true) (deviceID : Bytes)
    (auth : HeartbeatAuth) :
    Json.Strict CanonicalJSON.maxNesting inboundDefinedMembers
      (inboundEnvelope deviceID artifact.type v (some auth)) := by
  obtain ⟨t, w, hpayload, hw, hspells, hfits⟩ := Json.of_parse hparse
  have hstaged := spells_inboundMemberPayload hkind hpayload hw hspells
  have hfits' : Json.Fits 10001 (inboundEnvelope [] artifact.type v (some placeholderAuth)) :=
    fits_inboundEnvelope [] artifact.type (some placeholderAuth) hfits
  obtain ⟨members, hmembers, hstrict⟩ := hlib.decodeStrict.mp hrule
  obtain ⟨hsame, -⟩ := Json.eq_of_parse hstaged hfits' Json.space_nil (by rwa [List.append_nil])
  rw [hsame] at hstrict
  have hinner : Json.Fits 31 v := hstrict.fits.2.2.2.2.2.1
  exact strict_of_strict hinner rfl (fun _ => rfl) hstrict

theorem length_render_string {s : Bytes} (h : Utf8.valid s = true) :
    (Json.ofString s).value.json.render.length ≤ 6 * s.length + 2 := by
  have hlen := Json.length_minimal_le s
  simp only [Json.ofString, Json.value, JsonValue.json, Json.unquote_escape h, Json.render,
    List.length_append, List.length_cons, List.length_nil]
  omega

theorem auth_names :
    (Json.unquote (ascii "scheme") = ascii "scheme" ∧
      Json.unquote (ascii "signed_at_ms") = ascii "signed_at_ms" ∧
      Json.unquote (ascii "signature") = ascii "signature") ∧
    ascii "scheme" < ascii "signature" ∧ ¬ ascii "signed_at_ms" < ascii "signature" ∧
      ascii "signed_at_ms" ≠ ascii "signature" := by
  decide

theorem value_authJson (auth : HeartbeatAuth) :
    (authJson auth).value = .object
    [(ascii "scheme", (Json.ofString auth.scheme).value),
      (ascii "signature", (Json.ofString auth.signature).value),
      (ascii "signed_at_ms", (Json.ofInt auth.signedAtMS).value)] := by
  obtain ⟨⟨hscheme, hsigned, hsignature⟩, h1, h2, h3⟩ := auth_names
  simp only [authJson, Json.value, Json.valueMembers, hscheme, hsigned, hsignature, insertMember,
    h1, h2, h3, if_true, if_false]

theorem length_canonical_inbound {deviceID : Bytes} {kind : AuthorityArtifactType} {v : JsonValue}
    {auth : HeartbeatAuth} (hdevice : Utf8.valid deviceID = true)
    (hkind : Utf8.valid kind.name = true) (hscheme : Utf8.valid auth.scheme = true)
    (hsignature : Utf8.valid auth.signature = true) :
    (JsonValue.object (inboundMembers deviceID kind v auth)).canonical.length
      ≤ v.canonical.length + 6 * (deviceID.length + kind.name.length + auth.scheme.length +
        auth.signature.length) + (formatInt auth.signedAtMS).length + 1000 := by
  have hnames : (Json.minimal (ascii "artifact")).length = 8 ∧
    (Json.minimal (ascii "artifact_type")).length = 13 ∧
      (Json.minimal (ascii "auth")).length = 4 ∧ (Json.minimal (ascii "device_id")).length = 9 ∧
        (Json.minimal (ascii "scheme")).length = 6 ∧ (Json.minimal (ascii "signature")).length = 9 ∧
          (Json.minimal (ascii "signed_at_ms")).length = 12 := by
    decide
  obtain ⟨h1, h2, h3, h4, h5, h6, h7⟩ := hnames
  have hdevice := length_render_string hdevice
  have hkind := length_render_string hkind
  have hscheme := length_render_string hscheme
  have hsignature := length_render_string hsignature
  have htime : (Json.ofInt auth.signedAtMS).value.json.render = formatInt auth.signedAtMS := rfl
  simp only [JsonValue.canonical, inboundMembers, value_authJson, JsonValue.json,
    JsonValue.jsonMembers, Json.length_render_obj, List.map_cons, List.map_nil, List.sum_cons,
    List.sum_nil, htime, h1, h2, h3, h4, h5, h6, h7] at *
  omega

theorem sizes_of_sign {text messageType requestID sharedSecret : Bytes} {signedAtMS : Int}
    {auth : HeartbeatAuth}
    (h : sign lib text messageType deviceID requestID signedAtMS sharedSecret = .ok auth) :
    auth.signedAtMS = signedAtMS ∧ Utf8.valid auth.scheme = true ∧ auth.scheme.length = 11 ∧
      Utf8.valid auth.signature = true ∧ auth.signature.length = 76 := by
  obtain ⟨canonical, -, rfl⟩ := of_sign h
  have hprefix : ∀ b ∈ signaturePrefix, Json.isPlain b = true := by decide +kernel
  have hlength : heartbeatAuthScheme.length = 11 ∧ signaturePrefix.length = 12 := by decide
  have hscheme : Utf8.valid heartbeatAuthScheme = true := by decide
  refine ⟨rfl, hscheme, hlength.1, Json.valid_of_plain fun b hb => ?_, ?_⟩
  · rcases List.mem_append.mp hb with hb | hb
    · exact hprefix b hb
    · exact Json.isPlain_hexEncode _ b hb
  · simp [hlength.2, computeSignature, hmacSha256]

theorem length_le_of_validRoutingDeviceID {device : Bytes}
    (h : validRoutingDeviceID device = true) :
    device.length ≤ 512 := by
  have hlen := Utf8.length_le_of_valid (valid_of_validRoutingDeviceID h)
  simp only [validRoutingDeviceID, Bool.and_eq_true, decide_eq_true_eq] at h
  have hrunes := h.1.2
  omega

section Envelope

variable {kind : AuthorityArtifactType} {auth : HeartbeatAuth} {signedAt : Int} {secret : Bytes}

/-- The envelope around a compacted artifact reads back as it is written. -/
theorem parse_inboundEnvelope (hv : Json.Fits 31 v) (auth : Option HeartbeatAuth) :
    Json.parse (inboundEnvelope deviceID kind v.compacted auth).render
      = some (inboundEnvelope deviceID kind v.compacted auth) := by
  have hfits : Json.Fits CanonicalJSON.maxNesting
      (inboundEnvelope deviceID kind v.compacted auth) :=
    fits_inboundEnvelope _ _ auth (Json.fits_compacted hv)
  exact Json.parse_render (hfits.of_depth_le (hfits.depth_le.trans (by decide)))

/-- The envelope is signed, at any positive time and with any secret but white space. -/
theorem sign_inboundEnvelope (hlib : lib.Documented) (hv : Json.Fits 31 v)
    (hpositive : 0 < signedAt) (hsecret : trimSpace secret ≠ []) :
    ∃ auth, sign lib (inboundEnvelope deviceID kind v.compacted none).render
      evidenceInboundMessageType deviceID [] signedAt secret = .ok auth := by
  obtain ⟨members, hmembers⟩ : ∃ members, unsignedMembers
      (inboundEnvelope deviceID kind v.compacted none).render = some members := by
    rw [unsignedMembers, Json.decodeFirst_of_parse (parse_inboundEnvelope hv none)]
    exact ⟨_, rfl⟩
  unfold sign
  simp only [hsecret, if_false, not_le.mpr hpositive, canonicalJSONWithoutAuth, hmembers,
    Option.bind_some, hlib.marshal (wellFormed_unsignedMembers hmembers)]
  exact ⟨_, rfl⟩

/-- The library writes the envelope in its canonical form. -/
theorem marshalWire_inboundEnvelope (hlib : lib.Documented) (hv : Json.Fits 31 v)
    (hstrict : Json.Strict CanonicalJSON.maxNesting inboundDefinedMembers
      (inboundEnvelope deviceID kind v (some auth))) :
    lib.marshalWire (inboundEnvelope deviceID kind v.compacted (some auth)).render
      = some (JsonValue.object (inboundMembers deviceID kind v.value auth)).canonical := by
  have hvalue := value_inboundEnvelope deviceID kind v.compacted auth
  rw [Json.value_compacted hv] at hvalue
  rw [← hvalue]
  exact hlib.marshalWire (parse_inboundEnvelope hv _) (strict_of_strict (Json.fits_compacted hv)
    (Json.isScalar_compacted hv) (fun _ => Json.objectsAll_compacted hv) hstrict)

/-- The member rule admits the canonical form. -/
theorem admitInbound_canonical (hlib : lib.Documented)
    (hstrict : Json.Strict CanonicalJSON.maxNesting inboundDefinedMembers
      (inboundEnvelope deviceID kind v (some auth))) :
    admitInbound lib (JsonValue.object (inboundMembers deviceID kind v.value auth)).canonical
      = true := by
  have hform := hstrict.canonical
  have hwell := hstrict.fits.wellFormed
  rw [value_inboundEnvelope] at hform hwell
  refine hlib.decodeStrict.mpr ⟨_, JsonValue.parse_canonical hwell ?_, hform⟩
  exact hform.fits.depth_le.trans (by decide)

/-- The canonical form is within the maximum. -/
theorem length_signed_le {queueKind : ArtifactType} {text : Bytes} {value : JsonValue}
    (hkind : returnKind kind = some queueKind) (hdomain : validRoutingDeviceID deviceID = true)
    (hpositive : 0 < signedAt) (hrange : signedAt ≤ maxInt64)
    (hsign : sign lib text evidenceInboundMessageType deviceID [] signedAt secret = .ok auth)
    (hlen : value.canonical.length ≤ maxAuthorityArtifactBytes) :
    (JsonValue.object (inboundMembers deviceID kind value auth)).canonical.length
      ≤ inboundPayloadMaximum := by
  obtain ⟨hat, hscheme, hschemeLen, hsignature, hsignatureLen⟩ := sizes_of_sign hsign
  have hname : Utf8.valid kind.name = true ∧ kind.name.length ≤ 23 := by
    cases kind with
    | deliveryReceipt => decide
    | epochConfirmation => decide
    | custodyAcknowledgement => decide
    | other => cases hkind
  have hbound := @length_canonical_inbound deviceID kind value auth
    (valid_of_validRoutingDeviceID hdomain) hname.1 hscheme hsignature
  have hdevice := length_le_of_validRoutingDeviceID hdomain
  have htime : (formatInt auth.signedAtMS).length ≤ 19 := by
    rw [hat]
    exact formatInt_length_le (by norm_num) hpositive.le
      (hrange.trans_lt (by norm_num [maxInt64]))
  unfold inboundPayloadMaximum
  unfold maxAuthorityArtifactBytes at hlen
  omega

end Envelope

/-- A record of a staged artifact is routed as the artifact is. -/
theorem authorityQueueRouting_of_staged {queued : QueuedArtifact}
    (hkind : returnKind artifact.type = some queued.type)
    (hrouting : decodeRouting deviceSchema artifact.payload = .ok artifact.deviceID)
    (hne : artifact.deviceID ≠ []) (hqueued : queued.payload = artifact.payload) :
    authorityQueueRouting queued = some (artifact.deviceID, artifact.type) := by
  unfold authorityQueueRouting
  rw [hqueued, hrouting]
  simp only [hne, if_false]
  cases htype : artifact.type <;>
    rw [htype] at hkind <;> simp only [returnKind, Option.some.injEq] at hkind
  all_goals first
    | rw [← hkind]
    | cases hkind

/-- **Whatever the return queue takes is carried**: for a device of the routing domain, any positive
signing time and any secret but white space, an artifact that passed the checks has a message within
its maximum that the member rule admits, when the library keeps its documented rules. -/
theorem encodeInbound_of_store {lib : CanonicalJSON} (hlib : lib.Documented)
    {artifact : AuthorityArtifact} {kind : ArtifactType} {signedAt : Int} {secret : Bytes}
    (hstore : storeCheck lib.marshalWire (admitInbound lib) artifact = .ok kind)
    (hdomain : validRoutingDeviceID artifact.deviceID = true) (hpositive : 0 < signedAt)
    (hrange : signedAt ≤ maxInt64) (hsecret : trimSpace secret ≠ []) :
    (∃ payload, encodeInbound lib artifact.deviceID artifact.type artifact.payload signedAt secret
        = .ok payload ∧ payload.length ≤ inboundPayloadMaximum ∧ admitInbound lib payload = true) ∧
      ∀ queued : QueuedArtifact, queued.type = kind → queued.payload = artifact.payload →
        authorityQueueRouting queued = some (artifact.deviceID, artifact.type) := by
  obtain ⟨hkind, hrouting, hne, hrule, bytes, hbytes, hlen⟩ := of_storeCheck hstore
  obtain ⟨v, hparse, -, rfl⟩ := hlib.wire hbytes
  have hstrict := strict_inboundEnvelope hlib hkind hparse hrule
  have hv : Json.Fits 31 v := (hstrict [] placeholderAuth).fits.2.2.2.2.2.1
  have hmarshal : ∀ auth, marshalInbound artifact.deviceID artifact.type artifact.payload auth
      = some (inboundEnvelope artifact.deviceID artifact.type v.compacted auth).render := by
    intro auth
    rw [marshalInbound, hparse]
    rfl
  obtain ⟨auth, hsign⟩ := @sign_inboundEnvelope _ artifact.deviceID _ artifact.type _ _ hlib hv
    hpositive hsecret
  have hwire := marshalWire_inboundEnvelope hlib hv (hstrict artifact.deviceID auth)
  have hadmit := admitInbound_canonical hlib (hstrict artifact.deviceID auth)
  have hlength := length_signed_le hkind hdomain hpositive hrange hsign hlen
  refine ⟨⟨_, ?_, hlength, hadmit⟩, ?_⟩
  · unfold encodeInbound
    simp only [hmarshal, hsign, hwire, hadmit, not_lt.mpr hlength, Bool.not_true,
      Bool.false_eq_true, if_false]
  · rintro queued rfl hqueued
    exact authorityQueueRouting_of_staged hkind hrouting hne hqueued

theorem encodeInbound_of_store_spelledReceipt :
    ∃ payload, carriedReceipt = .ok payload ∧ admitInbound documentedJSON payload = true := by
  obtain ⟨⟨payload, hpayload, -, hadmit⟩, -⟩ := @encodeInbound_of_store documentedJSON
    documentedJSON_documented spelledReceipt .deliveryReceipt 1 (ascii "k")
    (by decide +kernel) (by decide +kernel) (by decide) (by decide) (by decide +kernel)
  exact ⟨payload, hpayload, hadmit⟩

end OriGateway
