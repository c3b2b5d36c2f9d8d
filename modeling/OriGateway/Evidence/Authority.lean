import OriGateway.Evidence.QueueList

/-! # Authority artifacts

What the evidence authority answers with, and how it is staged for the runtime it is for: the
courier reads an artifact's routing fields and nothing else of it (**`validateAuthorityRouting`**).
The canonical form of a JSON text and the payload member rule are parameters. -/

namespace OriGateway

open Foundation

/-- The type of an artifact that travels back to a runtime. -/
inductive AuthorityArtifactType where
  | deliveryReceipt
  | epochConfirmation
  /-- `custody_acknowledgement`, which the gateway itself issues. -/
  | custodyAcknowledgement
  | other (name : Bytes)
  deriving DecidableEq

/-- The wire name of a type. -/
def AuthorityArtifactType.name : AuthorityArtifactType → Bytes
  | deliveryReceipt => ascii "delivery_receipt"
  | epochConfirmation => ascii "epoch_confirmation"
  | custodyAcknowledgement => ascii "custody_acknowledgement"
  | other name => name

/-- An artifact that the evidence channel returned, or the gateway issued. -/
structure AuthorityArtifact where
  type : AuthorityArtifactType
  deviceID : Bytes
  payload : Bytes
  deriving DecidableEq

/-- Whether the evidence channel may return an artifact of a type. -/
def validAuthorityArtifactType (kind : AuthorityArtifactType) : Bool :=
  kind == .deliveryReceipt || kind == .epochConfirmation

/-! ## Routing of an answer -/

/-- Why an artifact is not bound to the record it answers. -/
inductive AuthorityRoutingError where
  /-- "invalid queued routing fields". -/
  | queuedFields
  /-- "invalid authority routing fields". -/
  | authorityFields
  /-- "invalid receipt range". -/
  | receiptRange
  /-- "authority artifact names a different device". -/
  | otherDevice
  deriving DecidableEq

/-- The range of a receipt, if it is one. -/
def receiptRange (routing : AuthorityRouting) : Option (Int × Int) :=
  match routing.fromSeq, routing.toSeq with
  | some fromSeq, some toSeq =>
    if fromSeq ≤ 0 ∨ toSeq < fromSeq ∨ toSeq > maxSafeInteger then none else some (fromSeq, toSeq)
  | _, _ => none

/-- The routing of an authority artifact. -/
def authorityRoutingProjection (kind : AuthorityArtifactType) (payload : Bytes)
    (domain : Bytes → Bool) : Except AuthorityRoutingError AuthorityRouting :=
  match decodeRouting authoritySchema payload with
  | .error _ => .error .authorityFields
  | .ok routing =>
    if !domain routing.deviceID then .error .authorityFields
    else if kind ≠ .deliveryReceipt then .ok routing
    else if (receiptRange routing).isNone then .error .receiptRange
    else .ok routing

/-- Whether an artifact is bound to the queued record it answers: the device it names, and whether
it is a receipt that covers the record. -/
def validateAuthorityRouting (queued : QueuedArtifact) (artifact : AuthorityArtifact)
    (domain : Bytes → Bool) : Except AuthorityRoutingError (Bytes × Bool) :=
  match decodeRouting outboundSchema queued.payload with
  | .error _ => .error .queuedFields
  | .ok outbound =>
    if outbound.deviceID = [] then .error .queuedFields
    else
      match authorityRoutingProjection artifact.type artifact.payload domain with
      | .error e => .error e
      | .ok authority =>
        if authority.deviceID ≠ outbound.deviceID then .error .otherDevice
        else if artifact.type ≠ .deliveryReceipt then .ok (authority.deviceID, false)
        else
          match receiptRange authority with
          | none => .ok (authority.deviceID, false)
          | some (fromSeq, toSeq) =>
            .ok (authority.deviceID, decide (queued.type = .deliveryEnvelope ∧
              fromSeq ≤ outbound.localSeq ∧ outbound.localSeq ≤ toSeq))

/-! ## The device of a record -/

theorem matchField_device (name : Bytes) :
    Json.matchField deviceSchema.members name =
      if Json.matchField outboundSchema.members name = some 0 then some 0 else none := by
  have hfold : Json.foldName (ascii "local_seq") ≠ Json.foldName (ascii "device_id") := by
    decide +kernel
  have hne : ascii "local_seq" ≠ ascii "device_id" := by decide +kernel
  simp only [Json.matchField, deviceSchema, outboundSchema, List.findIdx?_cons, List.findIdx?_nil]
  by_cases hdevice : ascii "device_id" = name
  · simp [hdevice]
  by_cases hlocal : ascii "local_seq" = name
  · subst hlocal
    simp [hne.symm, hfold.symm]
  by_cases hcase : Json.foldName (ascii "device_id") = Json.foldName name
  · simp [hdevice, hlocal, hcase]
  · simp [hdevice, hlocal, hcase]

/-- A payload that may be read as an outbound artifact may be read for its device alone. -/
theorem refuseAmbiguousMembers_device {members : List (Bytes × Json)} {seen seen' : List Bytes}
    (hseen : ascii "device_id" ∈ seen' → ascii "device_id" ∈ seen)
    (h : refuseAmbiguousMembers outboundSchema.members members seen = .ok ()) :
    refuseAmbiguousMembers deviceSchema.members members seen' = .ok () := by
  induction members generalizing seen seen' with
  | nil => rfl
  | cons member rest ih =>
    obtain ⟨name, value⟩ := member
    have hfold : Json.foldName (ascii "device_id") ≠ Json.foldName (ascii "local_seq") := by
      decide +kernel
    have hne : ascii "device_id" ≠ ascii "local_seq" := by decide +kernel
    simp only [refuseAmbiguousMembers, deviceSchema, outboundSchema, checkMember] at h ih ⊢
    by_cases hdevice : Json.unquote name = ascii "device_id"
    · rw [hdevice] at h ⊢
      by_cases hmem : ascii "device_id" ∈ seen
      · simp [hmem] at h
      · have hmem' : ascii "device_id" ∉ seen' := fun hmem' => hmem (hseen hmem')
        simp only [hmem, hmem', if_true, if_false, hne, hfold] at h ⊢
        split at h
        · cases h
        · next hvalue =>
          rw [if_neg hvalue]
          exact ih (by simp) h
    · simp only [hdevice, if_false] at h ⊢
      by_cases hcase : Json.foldName (Json.unquote name) = Json.foldName (ascii "device_id")
      · simp [hcase] at h
      · simp only [hcase, if_false] at h ⊢
        split at h
        · cases h
        · next routing seen₁ hcheck =>
          split at h
          · cases h
          · refine ih (fun hmem => ?_) h
            split at hcheck
            · split at hcheck
              · cases hcheck
              · cases hcheck
                exact List.mem_cons_of_mem _ (hseen hmem)
            · split at hcheck
              · cases hcheck
              · cases hcheck
                exact hseen hmem

theorem decodeMembers_device {members : List (Bytes × Json)} {r r' : OutboundRouting}
    (h : Json.decodeMembers false outboundSchema.members outboundSchema.store members r = some r') :
    Json.decodeMembers false deviceSchema.members deviceSchema.store members r.deviceID
      = some r'.deviceID := by
  induction members generalizing r with
  | nil =>
    cases h
    rfl
  | cons member rest ih =>
    obtain ⟨name, value⟩ := member
    rw [Json.decodeMembers, matchField_device]
    rw [Json.decodeMembers] at h
    split at h
    · next hnone =>
      rw [hnone]
      exact ih h
    · next i hsome =>
      rw [hsome]
      obtain ⟨r₁, hstore, hrest⟩ := Option.bind_eq_some_iff.mp h
      cases i with
      | zero =>
        obtain ⟨d, hd, rfl⟩ := Option.map_eq_some_iff.mp hstore
        simp only [if_true]
        rw [show deviceSchema.store 0 value r.deviceID = some d from hd]
        exact ih hrest
      | succ i =>
        obtain ⟨n, -, rfl⟩ := Option.map_eq_some_iff.mp hstore
        simp only [Option.some.injEq, Nat.add_one_ne_zero, if_false]
        exact (ih hrest :)

/-- **The device of an outbound artifact is the device of its record.** -/
theorem recordDevice_of_outbound {payload : Bytes} {outbound : OutboundRouting}
    (h : decodeRouting outboundSchema payload = .ok outbound) :
    recordDevice payload = outbound.deviceID := by
  have hdevice : decodeRouting deviceSchema payload = .ok outbound.deviceID := by
    unfold decodeRouting at h ⊢
    split at h
    · cases h
    · next members _ =>
      split at h
      · cases h
      · next hmembers =>
        rw [refuseAmbiguousMembers_device (by simp) hmembers]
        split at h
        · next r hr =>
          cases h
          dsimp only
          rw [show deviceSchema.zero = outboundSchema.zero.deviceID from rfl,
            decodeMembers_device hr]
        · cases h
    · cases h
  rw [recordDevice, hdevice]
/-! ## Staging -/

/-- Why the return queue does not take an artifact. -/
inductive StoreError where
  /-- "unsupported authority artifact type". -/
  | unsupportedType
  /-- "authority artifact routing mismatch". -/
  | routingMismatch
  /-- The member rule refuses the message that would carry it. -/
  | memberRule
  /-- "authority artifact is not canonicalisable". -/
  | notCanonical
  /-- "authority artifact exceeds the inbound maximum". -/
  | overMaximum
  | queue (e : QueueError)
  deriving DecidableEq

def maxAuthorityArtifactBytes : Nat := 1048576

/-- The queue's type of an authority artifact. -/
def returnKind : AuthorityArtifactType → Option ArtifactType
  | .deliveryReceipt => some .deliveryReceipt
  | .epochConfirmation => some .epochConfirmation
  | .custodyAcknowledgement => some .custodyAcknowledgement
  | .other _ => none

/-- The authenticator of the message that would carry an artifact, and the end of the message. -/
def placeholderMember : String :=
  ",\"auth\":\x7b\"scheme\":\"hmac-sha256\",\"signed_at_ms\":1," ++
    "\"signature\":\"hmac-sha256:\"\x7d\x7d"

/-- The inbound message that would carry an artifact, with placeholders for what is not judged. -/
def inboundMemberPayload (artifact : AuthorityArtifact) : Bytes :=
  ascii "\x7b\"device_id\":\"\",\"artifact_type\":\"" ++ artifact.type.name ++
    ascii "\",\"artifact\":" ++ artifact.payload ++ ascii placeholderMember

section Staging

variable (canonical : Bytes → Option Bytes) (memberRule : Bytes → Bool)

/-- The checks an artifact passes before it is staged, and the type under which it is. -/
def storeCheck (artifact : AuthorityArtifact) : Except StoreError ArtifactType :=
  match returnKind artifact.type with
  | none => .error .unsupportedType
  | some kind =>
    match decodeRouting deviceSchema artifact.payload with
    | .error _ => .error .routingMismatch
    | .ok device =>
      if device = [] ∨ device ≠ artifact.deviceID then .error .routingMismatch
      else if !memberRule (inboundMemberPayload artifact) then .error .memberRule
      else
        match canonical artifact.payload with
        | none => .error .notCanonical
        | some bytes =>
          if bytes.length > maxAuthorityArtifactBytes then .error .overMaximum else .ok kind

end Staging

/-! ## Routing of a staged artifact -/

/-- The device a staged artifact is for and its type, when both are readable. -/
def authorityQueueRouting (queued : QueuedArtifact) : Option (Bytes × AuthorityArtifactType) :=
  match decodeRouting deviceSchema queued.payload with
  | .error _ => none
  | .ok device =>
    if device = [] then none
    else
      match queued.type with
      | .deliveryReceipt => some (device, .deliveryReceipt)
      | .epochConfirmation => some (device, .epochConfirmation)
      | .custodyAcknowledgement => some (device, .custodyAcknowledgement)
      | _ => none

end OriGateway
