import OriGateway.Foundation.CanonicalLibrary
import OriGateway.Evidence.Acknowledgement

/-! # Signed envelopes

What is signed is the type of the message, its device, its request, the signing time and the
canonical form of its members, each on a line of its own. The lines determine the message although a
device or a request may hold line breaks: the first line is a constant, the last two hold none, and
the device is also a member of what is signed. `sign` gives the authenticator of a payload,
`decodeAuthPayload` is what a signed payload decodes to, and a signature made for one message
verifies for no other (`signature_binds`). -/

namespace OriGateway

open Foundation

variable {deviceID requestID messageType : Bytes} {signedAtMS : Int}

/-! ## Signing -/

/-- What a Go map reads a JSON value as: `null` leaves it empty. -/
def payloadMembers : Json → Option (List (Bytes × JsonValue))
  | .obj ms => some (Json.valueMembers ms)
  | .null => some []
  | _ => none

/-- The members of an envelope but its authenticator. -/
def cloneWithoutAuth (payload : List (Bytes × JsonValue)) : List (Bytes × JsonValue) :=
  payload.filter fun m => m.1 != ascii "auth"

/-- The members that are signed, of a value given as its text. -/
def unsignedMembers (text : Bytes) : Option (List (Bytes × JsonValue)) :=
  ((Json.decodeFirst text).bind payloadMembers).map cloneWithoutAuth

/-- The canonical form of a value with the authenticator removed; the value is given as its text. -/
def canonicalJSONWithoutAuth (lib : CanonicalJSON) (text : Bytes) : Option Bytes :=
  (unsignedMembers text).bind fun members => lib.marshal (.object members)

/-- Why a payload is not signed. -/
inductive SignError where
  /-- "mqtt auth shared secret must not be empty". -/
  | emptySecret
  /-- "signed_at_ms must be positive". -/
  | signedAtNotPositive
  /-- The value has no canonical form. -/
  | notCanonical
  deriving DecidableEq

/-- **The authenticator of a value**, given as its text. -/
def sign (lib : CanonicalJSON) (text messageType deviceID requestID : Bytes) (signedAtMS : Int)
    (sharedSecret : Bytes) : Except SignError HeartbeatAuth :=
  let secret := trimSpace sharedSecret
  if secret = [] then .error .emptySecret
  else if signedAtMS ≤ 0 then .error .signedAtNotPositive
  else
    match canonicalJSONWithoutAuth lib text with
    | none => .error .notCanonical
    | some canonical =>
      .ok
        { scheme := heartbeatAuthScheme
          signedAtMS := signedAtMS
          signature := signaturePrefix ++ computeSignature secret
            (signingInput messageType deviceID requestID signedAtMS canonical) }

/-- **What an authenticator is.** -/
theorem of_sign {lib : CanonicalJSON} {text sharedSecret : Bytes} {auth : HeartbeatAuth}
    (h : sign lib text messageType deviceID requestID signedAtMS sharedSecret = .ok auth) :
    ∃ canonical, canonicalJSONWithoutAuth lib text = some canonical ∧ auth =
      { scheme := heartbeatAuthScheme
        signedAtMS := signedAtMS
        signature := signaturePrefix ++ computeSignature (trimSpace sharedSecret)
          (signingInput messageType deviceID requestID signedAtMS canonical) } := by
  unfold sign at h
  dsimp only at h
  split_ifs at h
  split at h
  · cases h
  · next canonical hcanonical =>
    cases h
    exact ⟨canonical, hcanonical, rfl⟩

/-! ## Reading a signed payload -/

/-- The names of the members of an authenticator. -/
def authMembers : List Bytes := heartbeatAuthMembers

/-- Whether a name differs from an authenticator's member by case only. -/
def inexactAuthMember (name : Bytes) : Bool :=
  authMembers.any fun member => name != member && Json.foldName name == Json.foldName member

/-- Read an authenticator: an object with none of its names misspelled by case. -/
def decodeAuth : JsonValue → Option HeartbeatAuth
  | .object members =>
    if members.any fun m => inexactAuthMember m.1 then none
    else
      Json.decodeStruct false authMembers storeHeartbeatAuth ⟨[], 0, []⟩
        (JsonValue.object members).json
  | _ => none

/-- The text of a member, when it is a string. -/
def stringMember (members : List (Bytes × JsonValue)) (name : Bytes) : Option Bytes :=
  match members.lookup name with
  | some (.string s) => some s
  | _ => none

/-- What the decoded members of a payload are to the verifier, when an authenticator is among
them. -/
def authEnvelope (lib : CanonicalJSON) (envelope : List (Bytes × JsonValue)) :
    Option (AuthEnvelope (List (Bytes × JsonValue))) :=
  match envelope.lookup (ascii "auth") with
  | none => none
  | some authValue =>
    (decodeAuth authValue).map fun auth =>
      { auth := auth
        deviceID := stringMember envelope (ascii "device_id")
        requestID := stringMember envelope (ascii "request_id")
        unsigned := cloneWithoutAuth envelope
        canonical := lib.marshal (.object (cloneWithoutAuth envelope)) }

/-- **What a signed payload decodes to**, when no reader could read it another way. -/
def decodeAuthPayload (lib : CanonicalJSON) (payload : Bytes) :
    Option (AuthEnvelope (List (Bytes × JsonValue))) :=
  if !lib.validateWireUnicode payload then none
  -- the payload member rule, with no defined members
  else if !lib.decodeStrict [] [] payload then none
  else ((Json.decodeFirst payload).bind payloadMembers).bind (authEnvelope lib)

/-! ## Lines -/

theorem line_front {x x' rest rest' : Bytes} (hx : 10 ∉ x) (hx' : 10 ∉ x')
    (h : x ++ 10 :: rest = x' ++ 10 :: rest') : x = x' ∧ rest = rest' := by
  induction x generalizing x' with
  | nil =>
    cases x' with
    | nil => exact ⟨rfl, (List.cons.inj h).2⟩
    | cons b x' =>
      obtain ⟨rfl, -⟩ := List.cons.inj h
      exact absurd List.mem_cons_self hx'
  | cons b x ih =>
    cases x' with
    | nil =>
      obtain ⟨rfl, -⟩ := List.cons.inj h
      exact absurd List.mem_cons_self hx
    | cons b' x' =>
      obtain ⟨rfl, htail⟩ := List.cons.inj h
      obtain ⟨rfl, rfl⟩ := ih (fun hb => hx (List.mem_cons_of_mem _ hb))
        (fun hb => hx' (List.mem_cons_of_mem _ hb)) htail
      exact ⟨rfl, rfl⟩

theorem line_back {x x' rest rest' : Bytes} (hrest : 10 ∉ rest) (hrest' : 10 ∉ rest')
    (h : x ++ 10 :: rest = x' ++ 10 :: rest') : x = x' ∧ rest = rest' := by
  have hreverse : rest.reverse ++ 10 :: x.reverse = rest'.reverse ++ 10 :: x'.reverse := by
    simpa using congrArg List.reverse h
  obtain ⟨hback, hfront⟩ := line_front (by simpa using hrest) (by simpa using hrest') hreverse
  exact ⟨List.reverse_injective hfront, List.reverse_injective hback⟩

theorem newline_not_mem_formatInt (z : Int) : 10 ∉ formatInt z := by
  intro hmem
  unfold formatInt at hmem
  split_ifs at hmem
  · rcases List.mem_cons.mp hmem with h | h
    · cases h
    · exact absurd (decimal_isDigit _ _ h) (by decide)
  · exact absurd (decimal_isDigit _ _ hmem) (by decide)

theorem formatInt_injective {z z' : Int} (h : formatInt z = formatInt z') : z = z' := by
  have hparse := congrArg parseInt h
  rw [parseInt_formatInt, parseInt_formatInt] at hparse
  exact Option.some.inj hparse

/-- **A signing input determines its type, its time and its canonical form**, and the two lines
between them together. -/
theorem signingInput_split {canonical messageType' deviceID' requestID' canonical' : Bytes}
    {signedAtMS' : Int} (htype : 10 ∉ messageType) (htype' : 10 ∉ messageType')
    (hcanonical : 10 ∉ canonical) (hcanonical' : 10 ∉ canonical')
    (h : signingInput messageType deviceID requestID signedAtMS canonical
      = signingInput messageType' deviceID' requestID' signedAtMS' canonical') :
    messageType = messageType' ∧ signedAtMS = signedAtMS' ∧ canonical = canonical' ∧
      deviceID ++ 10 :: requestID = deviceID' ++ 10 :: requestID' := by
  simp only [signingInput, joinLines] at h
  obtain ⟨rfl, hrest⟩ := line_front htype htype' h
  have hlast : (deviceID ++ 10 :: (requestID ++ 10 :: formatInt signedAtMS)) ++ 10 :: canonical
      = (deviceID' ++ 10 :: (requestID' ++ 10 :: formatInt signedAtMS')) ++ 10 :: canonical' := by
    simpa using hrest
  obtain ⟨htime, rfl⟩ := line_back hcanonical hcanonical' hlast
  have htime' : (deviceID ++ 10 :: requestID) ++ 10 :: formatInt signedAtMS
      = (deviceID' ++ 10 :: requestID') ++ 10 :: formatInt signedAtMS' := by
    simpa using htime
  obtain ⟨hids, hat⟩ := line_back (newline_not_mem_formatInt _) (newline_not_mem_formatInt _) htime'
  exact ⟨rfl, formatInt_injective hat, rfl, hids⟩

/-! ## What a signature binds -/

theorem wellFormed_cloneWithoutAuth {ms : List (Bytes × Json)} {bound : Nat}
    (h : Json.FitsMembers bound ms) :
    (JsonValue.object (cloneWithoutAuth (Json.valueMembers ms))).WellFormed := by
  refine ⟨(Json.ascending_valueMembers ms).filter _, ?_⟩
  refine JsonValue.wellFormedMembers_iff.mpr fun m hm => ?_
  exact JsonValue.wellFormedMembers_iff.mp (Json.FitsMembers.wellFormed h) m
    (List.mem_of_mem_filter hm)

theorem stringMember_cloneWithoutAuth {members : List (Bytes × JsonValue)} {name : Bytes}
    (hname : name ≠ ascii "auth") :
    stringMember (cloneWithoutAuth members) name = stringMember members name := by
  have hlookup : (cloneWithoutAuth members).lookup name = members.lookup name := by
    induction members with
    | nil => rfl
    | cons m members ih =>
      obtain ⟨k, v⟩ := m
      by_cases hk : k = ascii "auth"
      · subst hk
        have hne : (name == ascii "auth") = false := beq_eq_false_iff_ne.mpr hname
        rw [List.lookup_cons, hne, ← ih]
        rfl
      · have hkeep : cloneWithoutAuth ((k, v) :: members) = (k, v) :: cloneWithoutAuth members :=
          List.filter_cons_of_pos (by simpa using hk)
        rw [hkeep, List.lookup_cons, List.lookup_cons, ih]
  unfold stringMember
  rw [hlookup]

theorem hexEncode_injective {bs bs' : Bytes} (h : hexEncode bs = hexEncode bs') : bs = bs' := by
  have hdigit : ∀ d < 16, ∀ d' < 16, hexDigit d = hexDigit d' → d = d' := by decide
  induction bs generalizing bs' with
  | nil =>
    cases bs' with
    | nil => rfl
    | cons b' bs' => simp [hexEncode] at h
  | cons b bs ih =>
    cases bs' with
    | nil => simp [hexEncode] at h
    | cons b' bs' =>
      simp only [hexEncode, List.flatMap_cons, List.cons_append, List.nil_append,
        List.cons.injEq] at h
      obtain ⟨hhigh, hlow, hrest⟩ := h
      have hb := b.toNat_lt
      have hb' := b'.toNat_lt
      have hhigh := hdigit _ (by omega) _ (by omega) hhigh
      have hlow := hdigit _ (by omega) _ (by omega) hlow
      rw [ih hrest, UInt8.toNat_inj.mp (show b.toNat = b'.toNat by omega)]

/-- **What an authenticated payload is.** -/
theorem of_authenticate {U E : Type} {decode : Bytes → Option (AuthEnvelope U)} {v : Verifier}
    {c : VerifyCall U E} {envelope : AuthEnvelope U} (h : authenticate decode v c = .ok envelope) :
    decode c.payload = some envelope ∧ memberMatches c.expectedDeviceID envelope.deviceID = true ∧
      memberMatches c.expectedRequestID envelope.requestID = true ∧
        ∃ canonical, envelope.canonical = some canonical ∧
          v.signatureMatches envelope.auth.signature c.messageType c.expectedDeviceID
            c.expectedRequestID
            envelope.auth.signedAtMS canonical = true := by
  unfold authenticate at h
  split at h
  · cases h
  · next envelope' hdecode =>
    split_ifs at h with hscheme hsigned hform hdevice hrequest
    split at h
    · cases h
    · next canonical hcanonical =>
      split_ifs at h with hsignature
      cases h
      simp only [Bool.not_eq_true', Bool.not_eq_false] at hdevice hrequest
      exact ⟨hdecode, hdevice, hrequest, canonical, hcanonical, hsignature⟩

theorem of_memberMatches {expected : Bytes} {member : Option Bytes}
    (h : memberMatches expected member = true) (hexpected : expected ≠ []) :
    member = some expected := by
  unfold memberMatches at h
  rw [Bool.or_eq_true, beq_iff_eq, beq_iff_eq] at h
  exact h.resolve_left hexpected

theorem Verifier.of_signatureMatches {v : Verifier} {signature canonical : Bytes}
    (h : v.signatureMatches signature messageType deviceID requestID signedAtMS canonical = true) :
    ∃ secret ∈ [v.sharedSecret, v.previousSharedSecret], signature = signaturePrefix ++
      computeSignature secret
        (signingInput messageType deviceID requestID signedAtMS canonical) := by
  unfold Verifier.signatureMatches at h
  dsimp only at h
  split_ifs at h with hshared hprevious
  · exact ⟨_, by simp, hshared⟩
  · exact ⟨_, by simp, of_decide_eq_true h⟩

/-- **What a decoded payload is**: its members are those its text would be signed with. -/
theorem of_decodeAuthPayload {lib : CanonicalJSON} {payload : Bytes}
    {envelope : AuthEnvelope (List (Bytes × JsonValue))}
    (h : decodeAuthPayload lib payload = some envelope) :
    unsignedMembers payload = some envelope.unsigned ∧
      envelope.canonical = lib.marshal (.object envelope.unsigned) ∧
        envelope.deviceID = stringMember envelope.unsigned (ascii "device_id") := by
  unfold decodeAuthPayload at h
  split_ifs at h
  obtain ⟨members, hmembers, henvelope⟩ := Option.bind_eq_some_iff.mp h
  unfold authEnvelope at henvelope
  split at henvelope
  · cases henvelope
  · obtain ⟨auth, -, rfl⟩ := Option.map_eq_some_iff.mp henvelope
    refine ⟨?_, rfl, (stringMember_cloneWithoutAuth (by decide)).symm⟩
    rw [unsignedMembers, hmembers]
    rfl

theorem wellFormed_unsignedMembers {text : Bytes} {members : List (Bytes × JsonValue)}
    (h : unsignedMembers text = some members) : (JsonValue.object members).WellFormed := by
  obtain ⟨payload, hpayload, rfl⟩ := Option.map_eq_some_iff.mp h
  obtain ⟨v, hread, hv⟩ := Option.bind_eq_some_iff.mp hpayload
  have hfits := Json.fits_of_decodeFirst hread
  cases v with
  | obj ms =>
    cases hv
    exact wellFormed_cloneWithoutAuth hfits
  | null =>
    cases hv
    exact ⟨List.Pairwise.nil, trivial⟩
  | _ => cases hv

/-- **A signature verifies only for the message it was made for.** A value that names its device is
signed, and a payload that carries the signature authenticates for some type, device and request:
they are those of the signing, as are the signing time and the canonical form of the members.
Canonical forms are injective and on one line, and collisions are excluded for the two inputs at
hand. -/
theorem signature_binds {lib : CanonicalJSON} {E : Type}
    {text messageType deviceID requestID sharedSecret : Bytes} {signedAtMS : Int}
    {auth : HeartbeatAuth} {members : List (Bytes × JsonValue)} {v : Verifier}
    {c : VerifyCall (List (Bytes × JsonValue)) E}
    {envelope : AuthEnvelope (List (Bytes × JsonValue))} (hinjective : lib.Injective)
    (honeLine : lib.OneLine)
    (hsign : sign lib text messageType deviceID requestID signedAtMS sharedSecret = .ok auth)
    (hmembers : unsignedMembers text = some members)
    (hdevice : stringMember members (ascii "device_id") = some deviceID)
    (hverify : authenticate (decodeAuthPayload lib) v c = .ok envelope)
    (hcarried : envelope.auth.signature = auth.signature) (hexpected : c.expectedDeviceID ≠ [])
    (htype : 10 ∉ messageType) (htype' : 10 ∉ c.messageType)
    (hcollision : ∀ secret ∈ [v.sharedSecret, v.previousSharedSecret], ∀ canonical canonical',
      canonicalJSONWithoutAuth lib text = some canonical → envelope.canonical = some canonical' →
      hmacSha256 (trimSpace sharedSecret)
        (signingInput messageType deviceID requestID signedAtMS canonical)
          = hmacSha256 secret
            (signingInput c.messageType c.expectedDeviceID c.expectedRequestID
              envelope.auth.signedAtMS canonical') →
                signingInput messageType deviceID requestID signedAtMS canonical
                  = signingInput c.messageType c.expectedDeviceID c.expectedRequestID
                    envelope.auth.signedAtMS canonical') :
    c.messageType = messageType ∧ c.expectedDeviceID = deviceID ∧ c.expectedRequestID = requestID ∧
      envelope.auth.signedAtMS = signedAtMS ∧ envelope.unsigned = members ∧
        envelope.canonical = canonicalJSONWithoutAuth lib text := by
  obtain ⟨hdecode, hmatch, -, canonical', hcanonical', hsignature⟩ := of_authenticate hverify
  obtain ⟨hunsigned, hform', hdevice'⟩ := of_decodeAuthPayload hdecode
  obtain ⟨secret, hsecret, hmac'⟩ := Verifier.of_signatureMatches hsignature
  obtain ⟨canonical, hcanonical, rfl⟩ := of_sign hsign
  have hform : lib.marshal (.object members) = some canonical := by
    rwa [canonicalJSONWithoutAuth, hmembers] at hcanonical
  have hwell := wellFormed_unsignedMembers hmembers
  have hwell' := wellFormed_unsignedMembers hunsigned
  rw [hcarried] at hmac'
  have hmac := hexEncode_injective (List.append_cancel_left hmac')
  have hinput := hcollision secret hsecret _ _ hcanonical hcanonical' hmac
  have hform'' := hform'.symm.trans hcanonical'
  obtain ⟨hsameType, hsameTime, rfl, hids⟩ := signingInput_split htype htype'
    (honeLine hwell hform) (honeLine hwell' hform'') hinput
  have hsameMembers := hinjective hwell' hwell hform'' hform
  cases hsameMembers
  -- the device is a member of what is signed, and the expected one of what is verified
  have hsameDevice : c.expectedDeviceID = deviceID := by
    have hnamed := of_memberMatches hmatch hexpected
    rw [hdevice', hdevice] at hnamed
    exact (Option.some.inj hnamed).symm
  rw [hsameDevice] at hids
  have hsameRequest := List.cons.inj (List.append_cancel_left hids)
  exact ⟨hsameType.symm, hsameDevice, hsameRequest.2.symm, hsameTime.symm, rfl,
    hcanonical'.trans hcanonical.symm⟩

def unsignedText : Bytes := ascii "\x7b\"request_id\": \"r\", \"device_id\": \"d\"\x7d"

def unsignedForm : Bytes := ascii "\x7b\"device_id\":\"d\",\"request_id\":\"r\"\x7d"

def signedAuth : HeartbeatAuth :=
  ⟨heartbeatAuthScheme, 1, signaturePrefix ++
    computeSignature (ascii "k") (signingInput (ascii "t") (ascii "d") (ascii "r") 1 unsignedForm)⟩

/-- The text above with the authenticator that signing it gives. -/
def signedPayload : Bytes :=
  ascii "\x7b\"auth\":\x7b\"scheme\":\"hmac-sha256\",\"signature\":\"" ++ signedAuth.signature ++
    ascii "\",\"signed_at_ms\":1\x7d,\"device_id\":\"d\",\"request_id\":\"r\"\x7d"

def signedVerifier : Verifier := ⟨ascii "k", [], newReplayState 1 1 false 1 0⟩

def signedCall : VerifyCall (List (Bytes × JsonValue)) Unit :=
  ⟨signedPayload, ascii "t", ascii "d", ascii "r", 0, none⟩

/-- The signed payload authenticates. -/
theorem authenticate_signedCall : ∃ envelope,
    authenticate (decodeAuthPayload documentedJSON) signedVerifier signedCall = .ok envelope ∧
      envelope.auth = signedAuth ∧ envelope.canonical = some unsignedForm := by
  obtain ⟨envelope, hverify, hread⟩ := Option.map_eq_some_iff.mp
    (by decide +kernel :
      (authenticate (decodeAuthPayload documentedJSON) signedVerifier signedCall).toOption.map
        (fun e => (e.auth, e.canonical)) = some (signedAuth, some unsignedForm))
  obtain ⟨hauth, hcanonical⟩ := Prod.mk.inj hread
  refine ⟨envelope, ?_, hauth, hcanonical⟩
  cases h : authenticate (decodeAuthPayload documentedJSON) signedVerifier signedCall with
  | error e => rw [h] at hverify; cases hverify
  | ok e => rw [h] at hverify; cases hverify; rfl

theorem signature_binds_signedCall : ∃ envelope members,
    authenticate (decodeAuthPayload documentedJSON) signedVerifier signedCall = .ok envelope ∧
      unsignedMembers unsignedText = some members ∧ envelope.auth.signedAtMS = 1 ∧
        envelope.unsigned = members := by
  obtain ⟨envelope, hverify, hauth, hcanonical⟩ := authenticate_signedCall
  obtain ⟨members, hmembers, hdevice⟩ := Option.map_eq_some_iff.mp
    (by decide +kernel : (unsignedMembers unsignedText).map
      (fun ms => stringMember ms (ascii "device_id")) = some (some (ascii "d")))
  have hform : canonicalJSONWithoutAuth documentedJSON unsignedText = some unsignedForm := by
    decide +kernel
  have hsign : sign documentedJSON unsignedText (ascii "t") (ascii "d") (ascii "r") 1 (ascii " k")
      = .ok signedAuth := by
    unfold sign
    rw [hform, show trimSpace (ascii " k") = ascii "k" by decide +kernel]
    rfl
  have hbound := signature_binds documentedJSON_injective documentedJSON_oneLine hsign hmembers
    hdevice
    hverify (by rw [hauth]) (by decide) (by decide) (by decide) (by
      intro secret _ canonical canonical' hc hc' _
      rw [hform] at hc
      rw [hcanonical] at hc'
      cases hc
      cases hc'
      rw [hauth]
      rfl)
  exact ⟨envelope, members, hverify, hmembers, hbound.2.2.2.1, hbound.2.2.2.2.1⟩

end OriGateway
