import OriGateway.MqttAuth.Verifier

/-! # Replays are refused, and fresh envelopes are not

Two properties of every run of one verifier, whatever its payloads. Once the key of an envelope was
recorded, the same envelope is never accepted again and never reaches a decision, however the clock
moves: the key is still held, or the floor is past its signing time. The floor is raised to one past
the signing time, so this needs a signing time that has a next one. And while the clock does not go
back and no key was evicted, pruning never raises the floor past the stale bound, so an envelope
within the skew is accepted unless it was before, if the bound itself can be computed. -/

namespace OriGateway

open Foundation

/-! ## Recorded keys are kept -/

namespace ReplayState

/-- A recorded key is kept: it is held with its signing time, or the floor is past that. -/
def Kept (s : ReplayState) (key : Bytes) (signedAt : Int) : Prop :=
  (∃ id, s.keys.lookup key = some id ∧ (s.cells id).signedAt = signedAt) ∨ signedAt < s.floor

theorem Kept.check_ne_none {s : ReplayState} {key : Bytes} {signedAt : Int}
    (h : s.Kept key signedAt) (t : Int) : s.check key signedAt t ≠ none := by
  rw [Ne, check_eq_none]
  rintro ⟨-, -, hfloor, habsent⟩
  rcases h with ⟨id, hid, -⟩ | hpast
  · rw [habsent] at hid
    cases hid
  · omega

theorem Drops.kept_of_kept {may : Nat → Prop} {s s' : ReplayState} {key : Bytes} {signedAt : Int}
    (h : Drops may s s') (hpos : 0 < signedAt) (hlt : signedAt < maxInt64)
    (hkept : s.Kept key signedAt) : s'.Kept key signedAt := by
  rcases hkept with ⟨id, hid, hsigned⟩ | hpast
  · rcases h.kept key id hid with hid' | hraised
    · refine .inl ⟨id, hid', ?_⟩
      rw [h.names.1, hsigned]
    · unfold maxInt64 at hlt
      have hexact : int64 (signedAt + 1) = signedAt + 1 := int64_eq (by unfold InInt64; omega)
      rw [hsigned, hexact] at hraised
      exact .inr (by omega)
  · exact .inr (hpast.trans_le h.floor_le)

theorem drops_makeRoom {s : ReplayState} (h : Tracks s) :
    Drops (fun _ => True) s (if s.full then s.evict else s) := by
  split
  · exact drops_evict h
  · exact .refl h

section Record

variable {s : ReplayState} {key : Bytes} {signedAt receivedAt : Int}

theorem Tracks.record (h : Tracks s) (hkey : s.keys.lookup key = none) :
    Tracks (s.record key signedAt receivedAt) := by
  have hroom := drops_makeRoom h
  refine hroom.tracks.hold ?_ signedAt receivedAt
  cases hlookup : (if s.full then s.evict else s).keys.lookup key with
  | none => rfl
  | some id =>
    have := hroom.held key id hlookup
    rw [hkey] at this
    cases this

theorem kept_record (s : ReplayState) (key : Bytes) (signedAt receivedAt : Int) :
    (s.record key signedAt receivedAt).Kept key signedAt := by
  refine .inl ⟨(if s.full then s.evict else s).next, ?_, ?_⟩
  · exact Finmap.lookup_insert _
  · simp [ReplayState.record, ReplayState.hold]

theorem floor_le_record (h : Tracks s) : s.floor ≤ (s.record key signedAt receivedAt).floor :=
  (drops_makeRoom h).floor_le

theorem Kept.record {key' : Bytes} {signedAt' : Int} (hkept : s.Kept key' signedAt') (h : Tracks s)
    (hpos : 0 < signedAt') (hlt : signedAt' < maxInt64) (hkey : s.keys.lookup key = none) :
    (s.record key signedAt receivedAt).Kept key' signedAt' := by
  have hroom := drops_makeRoom h
  rcases hroom.kept_of_kept hpos hlt hkept with ⟨id, hid, hsigned⟩ | hpast
  · -- a held key is not the new one, and its name is older
    have hne : key' ≠ key := by
      rintro rfl
      have := hroom.held key' id hid
      rw [hkey] at this
      cases this
    have hlt := hroom.tracks.fresh id ((hroom.tracks.lookup_iff key' id).mp hid).1
    refine .inl ⟨id, ?_, ?_⟩
    · exact (Finmap.lookup_insert_of_ne _ hne).trans hid
    · simp only [ReplayState.record, ReplayState.hold]
      rw [Function.update_of_ne (Nat.ne_of_lt hlt)]
      exact hsigned
  · exact .inr hpast

end Record

end ReplayState

open ReplayState

section Runs

variable {U E : Type} {decode : Bytes → Option (AuthEnvelope U)} {v v' : Verifier}

theorem Verifies.tracks {c : VerifyCall U E} {verdict : Verdict E}
    (h : Verifies decode v c verdict v') (hv : v.replay.Tracks) :
    v'.replay.Tracks ∧ v.replay.floor ≤ v'.replay.floor := by
  have hprune := drops_prune hv c.now
  cases h with
  | unauthenticated e hauth => exact ⟨hv, le_rfl⟩
  | refused envelope e hauth hcheck => exact ⟨hprune.tracks, hprune.floor_le⟩
  | declined envelope _ hauth hcheck hrecorded => exact ⟨hprune.tracks, hprune.floor_le⟩
  | recorded envelope _ hauth hcheck hrecorded =>
    exact ⟨hprune.tracks.record (check_eq_none.mp hcheck).2.2.2,
      hprune.floor_le.trans (floor_le_record hprune.tracks)⟩

theorem Verifies.kept {c : VerifyCall U E} {verdict : Verdict E} {key : Bytes} {signedAt : Int}
    (h : Verifies decode v c verdict v') (hv : v.replay.Tracks) (hpos : 0 < signedAt)
    (hlt : signedAt < maxInt64) (hkept : v.replay.Kept key signedAt) :
    v'.replay.Kept key signedAt := by
  have hprune := drops_prune hv c.now
  have hkept' := hprune.kept_of_kept hpos hlt hkept
  cases h with
  | unauthenticated e hauth => exact hkept
  | refused envelope e hauth hcheck => exact hkept'
  | declined envelope _ hauth hcheck hrecorded => exact hkept'
  | recorded envelope _ hauth hcheck hrecorded =>
    exact hkept'.record hprune.tracks hpos hlt (check_eq_none.mp hcheck).2.2.2

theorem tracks_verifyAll (hv : v.replay.Tracks) (calls : List (VerifyCall U E)) :
    (verifyAll decode v calls).replay.Tracks ∧
      v.replay.floor ≤ (verifyAll decode v calls).replay.floor := by
  induction calls generalizing v with
  | nil => exact ⟨hv, le_rfl⟩
  | cons c calls ih =>
    obtain ⟨htracks, hfloor⟩ := (verifies decode v c).tracks hv
    obtain ⟨htracks', hfloor'⟩ := ih htracks
    exact ⟨htracks', hfloor.trans hfloor'⟩

theorem kept_verifyAll (hv : v.replay.Tracks) {key : Bytes} {signedAt : Int} (hpos : 0 < signedAt)
    (hlt : signedAt < maxInt64) (hkept : v.replay.Kept key signedAt)
    (calls : List (VerifyCall U E)) : (verifyAll decode v calls).replay.Kept key signedAt := by
  induction calls generalizing v with
  | nil => exact hkept
  | cons c calls ih =>
    have hstep := verifies decode v c
    exact ih (hstep.tracks hv).1 (hstep.kept hv hpos hlt hkept)

theorem newVerifier_ok {cfg : VerifierConfig} {start : Int} (h : newVerifier cfg start = .ok v) :
    v.replay.Tracks ∧ v.replay.floor = start ∧ v.replay.keys = ∅ ∧ 0 ≤ v.replay.skew := by
  unfold newVerifier at h
  dsimp only at h
  by_cases hsecret : trimSpace cfg.sharedSecret = []
  · rw [if_pos hsecret] at h
    cases h
  · rw [if_neg hsecret] at h
    split at h
    · cases h
    · cases h
      refine ⟨tracks_newReplayState _ _ _ _ _, rfl, rfl, ?_⟩
      simp only [newReplayState, milliseconds, defaultMaxSkew]
      split <;> omega

theorem signedAt_pos_of_authenticate {c : VerifyCall U E} {envelope : AuthEnvelope U}
    (h : authenticate decode v c = .ok envelope) :
    decode c.payload = some envelope ∧ 0 < envelope.auth.signedAtMS := by
  unfold authenticate at h
  split at h
  · cases h
  · next envelope' hdecode =>
    by_cases hpos : envelope'.auth.signedAtMS ≤ 0
    · simp only [hpos, if_true] at h
      split at h <;> cases h
    · have heq : envelope' = envelope := by
        repeat' split at h
        all_goals first | exact Except.ok.inj h | cases h
      subst heq
      exact ⟨hdecode, by omega⟩

def VerifyCall.SameEnvelope (c c' : VerifyCall U E) : Prop :=
  c'.payload = c.payload ∧ c'.messageType = c.messageType ∧
    c'.expectedDeviceID = c.expectedDeviceID ∧ c'.expectedRequestID = c.expectedRequestID

theorem VerifyCall.SameEnvelope.authenticate_eq {c c' : VerifyCall U E} (h : c.SameEnvelope c')
    (v : Verifier) : authenticate decode v c' = authenticate decode v c := by
  obtain ⟨hpayload, htype, hdevice, hrequest⟩ := h
  simp only [authenticate, hpayload, htype, hdevice, hrequest]

theorem VerifyCall.SameEnvelope.key_eq {c c' : VerifyCall U E} (h : c.SameEnvelope c')
    (envelope : AuthEnvelope U) : c'.key envelope = c.key envelope := by
  obtain ⟨-, htype, hdevice, hrequest⟩ := h
  simp only [key, htype, hdevice, hrequest]

theorem Verifies.of_recorded {c : VerifyCall U E} {verdict : Verdict E}
    (h : Verifies decode v c verdict v') (hrecorded : verdict.recorded = true) :
    ∃ envelope, authenticate decode v c = .ok envelope ∧
      (v.replay.prune c.now).check (c.key envelope) envelope.auth.signedAtMS c.now = none ∧
      v'.replay = (v.replay.prune c.now).record (c.key envelope) envelope.auth.signedAtMS
        c.now := by
  cases h with
  | unauthenticated e hauth => cases hrecorded
  | refused envelope e hauth hcheck => cases hrecorded
  | declined envelope _ hauth hcheck hnot =>
    rw [hnot] at hrecorded
    cases hrecorded
  | recorded envelope _ hauth hcheck _ => exact ⟨envelope, hauth, hcheck, rfl⟩

theorem Verifies.of_check_ne_none {c : VerifyCall U E} {verdict : Verdict E}
    {envelope : AuthEnvelope U} (h : Verifies decode v c verdict v')
    (hauth : authenticate decode v c = .ok envelope)
    (hcheck : (v.replay.prune c.now).check (c.key envelope) envelope.auth.signedAtMS c.now ≠ none) :
    verdict.error ≠ none ∧ verdict.decided = false := by
  cases h with
  | unauthenticated e hother => exact ⟨by simp, rfl⟩
  | refused envelope e hother hrefused => exact ⟨by simp, rfl⟩
  | declined envelope' _ hother hpass _ =>
    rw [hauth] at hother
    cases hother
    exact absurd hpass hcheck
  | recorded envelope' _ hother hpass _ =>
    rw [hauth] at hother
    cases hother
    exact absurd hpass hcheck

/-- **An envelope whose key was recorded is not accepted again**, whatever was verified in between
and whatever the clock read: it is refused, it does not reach a decision, its key is still held or
the floor is past its signing time, and no call ever lowers the floor. Its signing time must have a
next one. -/
theorem replay_refused {cfg : VerifierConfig} {start : Int} {v₀ : Verifier}
    (hnew : newVerifier cfg start = .ok v₀) (before : List (VerifyCall U E)) {c c' : VerifyCall U E}
    (between : List (VerifyCall U E))
    (hbound : ∀ envelope, decode c.payload = some envelope → envelope.auth.signedAtMS < maxInt64)
    (hrecorded : (verifyJSON decode (verifyAll decode v₀ before) c).1.recorded = true)
    (hsame : c.SameEnvelope c') :
    let v := verifyAll decode v₀ (before ++ c :: between)
    (verifyJSON decode v c').1.error ≠ none ∧ (verifyJSON decode v c').1.decided = false ∧
      (∃ envelope, authenticate decode v₀ c = .ok envelope ∧
        v.replay.Kept (c.key envelope) envelope.auth.signedAtMS) ∧
      ∀ calls later : List (VerifyCall U E),
        (verifyAll decode v₀ calls).replay.floor
          ≤ (verifyAll decode v₀ (calls ++ later)).replay.floor := by
  intro v
  have hstart : (verifyAll decode v₀ before).replay.Tracks :=
    (tracks_verifyAll (newVerifier_ok hnew).1 before).1
  have hstep := verifies decode (verifyAll decode v₀ before) c
  obtain ⟨htracks, -⟩ := hstep.tracks hstart
  have hv : v = verifyAll decode (verifyJSON decode (verifyAll decode v₀ before) c).2 between :=
    verifyAll_append decode v₀ before (c :: between)
  obtain ⟨envelope, hauth, -, hreplay⟩ := hstep.of_recorded hrecorded
  rw [authenticate_verifyAll] at hauth
  obtain ⟨hdecode, hpos⟩ := signedAt_pos_of_authenticate hauth
  have hlt := hbound envelope hdecode
  -- the key was kept when it was recorded, and is kept by all that follows
  have hkept : v.replay.Kept (c.key envelope) envelope.auth.signedAtMS := by
    rw [hv]
    refine kept_verifyAll htracks hpos hlt ?_ between
    rw [hreplay]
    exact kept_record _ _ _ _
  have hlast : v.replay.Tracks := by
    rw [hv]
    exact (tracks_verifyAll htracks between).1
  have hauth' : authenticate decode v c' = .ok envelope := by
    rw [hsame.authenticate_eq, authenticate_verifyAll, hauth]
  have hcheck := ((drops_prune hlast c'.now).kept_of_kept hpos hlt hkept).check_ne_none c'.now
  rw [← hsame.key_eq] at hcheck
  obtain ⟨herror, hdecided⟩ := (verifies decode v c').of_check_ne_none hauth' hcheck
  refine ⟨herror, hdecided, ⟨envelope, hauth, hkept⟩, fun calls later => ?_⟩
  rw [verifyAll_append]
  exact (tracks_verifyAll (tracks_verifyAll (newVerifier_ok hnew).1 calls).1 later).2

end Runs

/-! ## A signing time without a next one -/

/-- A verifier with a secret, a skew of five minutes and a retention in milliseconds. -/
def plainVerifierConfig (ttl : Int) : VerifierConfig := ⟨ascii "s", [], 0, ttl * 1000000, 0⟩

def plainVerifier (ttl start : Int) : Verifier :=
  ⟨ascii "s", [], newReplayState 300000 ttl false 131072 start⟩

def plainEnvelope (signedAt : Int) : AuthEnvelope Unit where
  auth := ⟨heartbeatAuthScheme, signedAt, signaturePrefix ++
    computeSignature (ascii "s") (signingInput (ascii "m") [] [] signedAt (ascii "c"))⟩
  deviceID := none
  requestID := none
  unsigned := ()
  canonical := some (ascii "c")

def plainDecode (signedAt : Int) : Bytes → Option (AuthEnvelope Unit) :=
  fun _ => some (plainEnvelope signedAt)

def plainCall (now : Int) : VerifyCall Unit Unit := ⟨[], ascii "m", [], [], now, none⟩

theorem authenticate_of_signed {U E : Type} {decode : Bytes → Option (AuthEnvelope U)}
    {v : Verifier} {c : VerifyCall U E} {envelope : AuthEnvelope U} {canonical : Bytes}
    (hdecode : decode c.payload = some envelope)
    (hscheme : envelope.auth.scheme = heartbeatAuthScheme) (hpos : 0 < envelope.auth.signedAtMS)
    (hsignature : envelope.auth.signature = signaturePrefix ++ computeSignature v.sharedSecret
      (signingInput c.messageType c.expectedDeviceID c.expectedRequestID envelope.auth.signedAtMS
        canonical))
    (hdevice : memberMatches c.expectedDeviceID envelope.deviceID = true)
    (hrequest : memberMatches c.expectedRequestID envelope.requestID = true)
    (hcanonical : envelope.canonical = some canonical) :
    authenticate decode v c = .ok envelope := by
  have hstarts : signaturePrefix.isPrefixOf envelope.auth.signature = true := by
    rw [hsignature]
    exact List.isPrefixOf_iff_prefix.mpr (List.prefix_append _ _)
  have hmatches : v.signatureMatches envelope.auth.signature c.messageType c.expectedDeviceID
      c.expectedRequestID envelope.auth.signedAtMS canonical = true := if_pos hsignature
  simp [authenticate, hdecode, hscheme, not_le.mpr hpos, hstarts, hdevice, hrequest, hcanonical,
    hmatches]

theorem verifyJSON_of_check {U E : Type} {decode : Bytes → Option (AuthEnvelope U)} {v : Verifier}
    {c : VerifyCall U E} {envelope : AuthEnvelope U}
    (hauth : authenticate decode v c = .ok envelope)
    (hcheck : (v.replay.prune c.now).check (c.key envelope) envelope.auth.signedAtMS c.now = none)
    (hdecide : c.decide = none) :
    verifyJSON decode v c = (⟨none, false, true⟩,
      { v with
        replay :=
          (v.replay.prune c.now).record (c.key envelope) envelope.auth.signedAtMS c.now }) := by
  simp only [verifyJSON, hauth, checkFreshAndRecord, hcheck, hdecide]

theorem recorded_of_check {U E : Type} {decode : Bytes → Option (AuthEnvelope U)} {v : Verifier}
    {c : VerifyCall U E} {envelope : AuthEnvelope U}
    (hauth : authenticate decode v c = .ok envelope)
    (hcheck : (v.replay.prune c.now).check (c.key envelope) envelope.auth.signedAtMS c.now = none)
    (hdecide : c.decide = none) : (verifyJSON decode v c).1.recorded = true := by
  rw [verifyJSON_of_check hauth hcheck hdecide]

theorem authenticate_plainCall {signedAt : Int} (hpos : 0 < signedAt) (replay : ReplayState)
    (now : Int) :
    authenticate (plainDecode signedAt) ⟨ascii "s", [], replay⟩ (plainCall now)
      = .ok (plainEnvelope signedAt) :=
  authenticate_of_signed rfl rfl hpos rfl rfl rfl rfl

/-- The state of a verifier with a retention of ten minutes, started at zero. -/
def overflowState : ReplayState := newReplayState 300000 600000 false 131072 0

/-- A clock reading from which the last representable time is within the skew. -/
def overflowClock : Int := maxInt64 - 300000

/-- Whatever its key, an envelope signed at the last representable time passes the checks, and
passes them again once it was recorded: its retention has ended at once and the floor was not
raised. -/
theorem check_overflow (key : Bytes) :
    (overflowState.prune overflowClock).check key maxInt64 overflowClock = none ∧
      (((overflowState.prune overflowClock).record key maxInt64 overflowClock).prune
        overflowClock).check key maxInt64 overflowClock = none := by
  have hpruned : ((overflowState.prune overflowClock).record key maxInt64 overflowClock).prune
      overflowClock
      = ((overflowState.prune overflowClock).record key maxInt64 overflowClock).drop 0 := rfl
  rw [hpruned, check_eq_none, check_eq_none]
  refine ⟨⟨by decide, by decide, by decide, rfl⟩, ?_, ?_, ?_, Finmap.lookup_erase _ _⟩
  · exact (by decide : int64 (overflowClock - 300000) ≤ maxInt64)
  · exact (by decide : maxInt64 ≤ int64 (overflowClock + 300000))
  · exact (by decide : (0 : Int) ≤ maxInt64)

theorem accepted_twice {U E : Type} {decode : Bytes → Option (AuthEnvelope U)} {v : Verifier}
    {c : VerifyCall U E} {envelope : AuthEnvelope U}
    (hauth : ∀ replay, authenticate decode { v with replay := replay } c = .ok envelope)
    (hreplay : v.replay = overflowState) (hsigned : envelope.auth.signedAtMS = maxInt64)
    (hnow : c.now = overflowClock) (hdecide : c.decide = none) :
    (verifyJSON decode v c).1.recorded = true ∧
      (verifyJSON decode (verifyAll decode v [c]) c).1.error = none := by
  obtain ⟨hcheck, hcheck'⟩ := check_overflow (c.key envelope)
  rw [← hreplay, ← hsigned, ← hnow] at hcheck hcheck'
  have hfirst := verifyJSON_of_check (hauth v.replay) hcheck hdecide
  have hstate : verifyAll decode v [c] = { v with
      replay := (v.replay.prune c.now).record (c.key envelope) envelope.auth.signedAtMS c.now } :=
    congrArg Prod.snd hfirst
  have hagain := verifyJSON_of_check (hauth
    ((v.replay.prune c.now).record (c.key envelope) envelope.auth.signedAtMS c.now)) hcheck' hdecide
  exact ⟨recorded_of_check (hauth v.replay) hcheck hdecide, by rw [hstate, hagain]⟩

/-- **A replay is accepted** when the clock is within the skew of the last representable time and
the envelope is signed at that time: the end of its retention and one past its signing time both
overflow, so its key is dropped at once and the floor stays. -/
theorem replay_accepted :
    ∃ (decode : Bytes → Option (AuthEnvelope Unit)) (v : Verifier) (c : VerifyCall Unit Unit),
      newVerifier (plainVerifierConfig 600000) 0 = .ok v ∧
      (verifyJSON decode v c).1.recorded = true ∧
      (verifyJSON decode (verifyAll decode v [c]) c).1.error = none :=
  ⟨plainDecode maxInt64, plainVerifier 600000 0, plainCall overflowClock, rfl,
    accepted_twice (fun replay => authenticate_plainCall (by decide) replay overflowClock) rfl rfl
      rfl
      rfl⟩

theorem replay_refused_plainCall :
    ∃ (v : Verifier) (c : VerifyCall Unit Unit), newVerifier (plainVerifierConfig 300000) 0
      = .ok v ∧
      (verifyJSON (plainDecode 1000) v c).1.recorded = true ∧
      (verifyJSON (plainDecode 1000) (verifyAll (plainDecode 1000) v [c, plainCall 999999999])
        c).1.error
        ≠ none := by
  have hcheck : ∀ key, ((plainVerifier 300000 0).replay.prune 1000).check key 1000 1000 = none :=
    fun key => check_eq_none.mpr ⟨by decide, by decide, by decide, rfl⟩
  have hrecorded : (verifyJSON (plainDecode 1000) (plainVerifier 300000 0)
      (plainCall 1000)).1.recorded = true :=
    recorded_of_check (authenticate_plainCall (by decide) _ 1000) (hcheck _) rfl
  have hbound : ∀ envelope, plainDecode 1000 (plainCall 1000).payload = some envelope →
      envelope.auth.signedAtMS < maxInt64 := by
    intro envelope henvelope
    rw [← Option.some.inj henvelope]
    decide
  have hnew : newVerifier (plainVerifierConfig 300000) 0 = .ok (plainVerifier 300000 0) := rfl
  have hfirst : verifyAll (plainDecode 1000) (plainVerifier 300000 0)
    ([] : List (VerifyCall Unit Unit))
      = plainVerifier 300000 0 := rfl
  have hrecorded' : (verifyJSON (plainDecode 1000) (verifyAll (plainDecode 1000)
      (plainVerifier 300000 0) ([] : List (VerifyCall Unit Unit))) (plainCall 1000)).1.recorded
      = true := by
    rw [hfirst]
    exact hrecorded
  have hsame : (plainCall 1000).SameEnvelope (plainCall 1000) := ⟨rfl, rfl, rfl, rfl⟩
  have herror := (replay_refused hnew [] [plainCall 999999999] hbound hrecorded' hsame).1
  rw [List.nil_append] at herror
  exact ⟨plainVerifier 300000 0, plainCall 1000, hnew, hrecorded, herror⟩

/-! ## Fresh envelopes are accepted -/

section Fresh

variable {U E : Type} (decode : Bytes → Option (AuthEnvelope U))

/-- Whether a verification records a key when no further one can be held. -/
def Evicts (v : Verifier) (c : VerifyCall U E) : Prop :=
  (verifyJSON decode v c).1.recorded = true ∧ (v.replay.prune c.now).full = true

def RecordedIn (v : Verifier) (calls : List (VerifyCall U E)) (key : Bytes) : Prop :=
  ∃ pre c post envelope, calls = pre ++ c :: post ∧ authenticate decode v c = .ok envelope ∧
    c.key envelope = key ∧ (verifyJSON decode (verifyAll decode v pre) c).1.recorded = true

/-- A clock reading at which the bounds of freshness, and the end of the retention of what is fresh,
are representable. -/
def ExactAt (skew t : Int) : Prop := -2 ^ 63 ≤ t - skew ∧ t + 2 * skew + 1 < 2 ^ 63

instance (skew t : Int) : Decidable (ExactAt skew t) := inferInstanceAs (Decidable (_ ∧ _))

/-- What a run without an eviction and with a clock that never goes back keeps, up to a time. -/
structure Prunes (start : Int) (v₀ : Verifier) (calls : List (VerifyCall U E)) (skew t : Int)
    (s : ReplayState) : Prop where
  tracks : Tracks s
  skew_eq : s.skew = skew
  floor_le : s.floor ≤ max start (t - skew)
  /-- A held key is retained while its envelope is fresh, and its signing time has a next one. -/
  retained : ∀ id ∈ s.byDrop.items, (s.cells id).signedAt + skew + 1 ≤ (s.cells id).dropAt ∧
    -2 ^ 63 ≤ (s.cells id).signedAt ∧ (s.cells id).signedAt + 1 < 2 ^ 63
  recorded : ∀ key id, s.keys.lookup key = some id → RecordedIn decode v₀ calls key

variable {decode} {start skew t : Int} {v₀ : Verifier} {calls : List (VerifyCall U E)}
  {s : ReplayState}

theorem RecordedIn.concat {key : Bytes} (h : RecordedIn decode v₀ calls key) (c : VerifyCall U E) :
    RecordedIn decode v₀ (calls ++ [c]) key := by
  obtain ⟨pre, c', post, envelope, rfl, hrest⟩ := h
  exact ⟨pre, c', post ++ [c], envelope, by simp, hrest⟩

theorem Prunes.prune (h : Prunes decode start v₀ calls skew t s) {t' : Int} (hle : t ≤ t') :
    Prunes decode start v₀ calls skew t' (s.prune t') := by
  have hdrops := drops_prune h.tracks t'
  have hmem : ∀ id ∈ (s.prune t').byDrop.items, id ∈ s.byDrop.items := by
    intro id hid
    have hheld := (hdrops.tracks.lookup_iff _ id).mpr ⟨hid, rfl⟩
    exact ((h.tracks.lookup_iff _ id).mp (hdrops.held _ id hheld)).1
  constructor
  case tracks => exact hdrops.tracks
  case skew_eq => exact hdrops.bounds.1.trans h.skew_eq
  case floor_le =>
    have hfloor := h.floor_le
    rcases hdrops.floor_from with hsame | ⟨id, hid, hdue, hraised⟩
    · omega
    · -- a dropped key was retained until its envelope was stale
      obtain ⟨hretained, hlow, hhigh⟩ := h.retained id hid
      rw [hraised, int64_eq ⟨by omega, hhigh⟩]
      omega
  case retained =>
    intro id hid
    rw [hdrops.names.1]
    exact h.retained id (hmem id hid)
  case recorded => exact fun key id hk => h.recorded key id (hdrops.held key id hk)

theorem Prunes.record (h : Prunes decode start v₀ calls skew t s) (hskew : 0 ≤ skew)
    (hexact : ExactAt skew t) (hroom : s.full = false) {key : Bytes} {signedAt : Int}
    (hcheck : s.check key signedAt t = none) {c : VerifyCall U E}
    (hrecorded : RecordedIn decode v₀ (calls ++ [c]) key) :
    Prunes decode start v₀ (calls ++ [c]) skew t (s.record key signedAt t) := by
  obtain ⟨hlow, hhigh, -, habsent⟩ := check_eq_none.mp hcheck
  obtain ⟨hexactLow, hexactHigh⟩ := hexact
  rw [h.skew_eq, int64_eq ⟨by omega, by omega⟩] at hlow
  rw [h.skew_eq, int64_eq ⟨by omega, by omega⟩] at hhigh
  have hrecord : s.record key signedAt t = s.hold key signedAt t := by
    simp [ReplayState.record, hroom]
  have hitems : (s.hold key signedAt t).byDrop.items.Perm (s.next :: s.byDrop.items) :=
    PosHeap.push_perm _ _ _
  have hdropAt : signedAt + skew + 1 ≤ s.dropAt signedAt t := by
    have hstale : int64 (int64 (signedAt + s.skew) + 1) = signedAt + skew + 1 := by
      have hsum : int64 (signedAt + skew) = signedAt + skew := int64_eq ⟨by omega, by omega⟩
      rw [h.skew_eq, hsum]
      exact int64_eq ⟨by omega, by omega⟩
    unfold ReplayState.dropAt
    simp only [hstale]
    split
    · exact le_max_left _ _
    · exact le_rfl
  rw [hrecord]
  constructor
  case tracks => exact h.tracks.hold habsent signedAt t
  case skew_eq => exact h.skew_eq
  case floor_le => exact h.floor_le
  case retained =>
    intro id hid
    rw [hitems.mem_iff, List.mem_cons] at hid
    rcases hid with rfl | hid
    · have hcell : (s.hold key signedAt t).cells s.next
          = ⟨key, signedAt, t, s.dropAt signedAt t⟩ := Function.update_self _ _ _
      rw [hcell]
      exact ⟨hdropAt, by simp only; omega, by simp only; omega⟩
    · have hne : id ≠ s.next := Nat.ne_of_lt (h.tracks.fresh id hid)
      have hcell : (s.hold key signedAt t).cells id = s.cells id := Function.update_of_ne hne _ _
      rw [hcell]
      exact h.retained id hid
  case recorded =>
    exact forall_lookup_insert (fun key' id hk => (h.recorded key' id hk).concat c) hrecorded

theorem Prunes.mono (h : Prunes decode start v₀ calls skew t s) {t' : Int} (hle : t ≤ t') :
    Prunes decode start v₀ calls skew t' s := by
  have hfloor := h.floor_le
  exact { h with floor_le := by omega }

theorem Verifies.prunes {v v' : Verifier} {c : VerifyCall U E} {verdict : Verdict E}
    (h : Verifies decode v c verdict v') (hv : v = verifyAll decode v₀ calls)
    (hverdict : verdict = (verifyJSON decode v c).1) (hskew : 0 ≤ skew)
    (hexact : ExactAt skew c.now) (hroom : ¬ Evicts decode v c)
    (hbefore : Prunes decode start v₀ calls skew c.now v.replay) :
    Prunes decode start v₀ (calls ++ [c]) skew c.now v'.replay := by
  have hlonger : ∀ {s : ReplayState}, Prunes decode start v₀ calls skew c.now s →
      Prunes decode start v₀ (calls ++ [c]) skew c.now s := fun hs =>
    { hs with recorded := fun key id hk => (hs.recorded key id hk).concat c }
  have hpruned := hbefore.prune le_rfl
  cases h with
  | unauthenticated e hauth => exact hlonger hbefore
  | refused envelope e hauth hcheck => exact hlonger hpruned
  | declined envelope _ hauth hcheck hrecorded => exact hlonger hpruned
  | recorded envelope _ hauth hcheck hrecorded =>
    rw [hverdict] at hrecorded
    have hspace : (v.replay.prune c.now).full = false := by
      cases hfull : (v.replay.prune c.now).full with
      | false => rfl
      | true => exact absurd ⟨hrecorded, hfull⟩ hroom
    refine hpruned.record hskew hexact hspace hcheck ?_
    rw [hv] at hauth hrecorded
    rw [authenticate_verifyAll] at hauth
    exact ⟨calls, c, [], envelope, rfl, hauth, rfl, hrecorded⟩

/-- **A run without an eviction whose clock never goes back** raises the floor to the stale bound at
most. -/
theorem prunes_verifyAll {cfg : VerifierConfig} (hnew : newVerifier cfg start = .ok v₀)
    (hsorted : (calls.map VerifyCall.now ++ [t]).Pairwise (· ≤ ·))
    (hroom : ∀ pre c post, calls = pre ++ c :: post → ¬ Evicts decode (verifyAll decode v₀ pre) c)
    (hexact : ∀ c ∈ calls, ExactAt v₀.replay.skew c.now) :
    Prunes decode start v₀ calls v₀.replay.skew t (verifyAll decode v₀ calls).replay := by
  obtain ⟨htracks, hfloor, hkeys, hskew⟩ := newVerifier_ok hnew
  induction calls using List.reverseRecOn generalizing t with
  | nil =>
    have hempty : ∀ key id, v₀.replay.keys.lookup key ≠ some id := by
      intro key id
      rw [hkeys, Finmap.lookup_empty]
      exact nofun
    constructor
    case tracks => exact htracks
    case skew_eq => rfl
    case floor_le => exact hfloor.le.trans (le_max_left _ _)
    case retained =>
      intro id hid
      exact absurd ((htracks.lookup_iff _ id).mpr ⟨hid, rfl⟩) (hempty _ id)
    case recorded => exact fun key id hk => absurd hk (hempty key id)
  | append_singleton calls c ih =>
    rw [List.map_append, List.pairwise_append] at hsorted
    obtain ⟨hcalls, -, hlast⟩ := hsorted
    have hle : c.now ≤ t := hlast c.now (by simp) t (by simp)
    have hbefore := ih hcalls
      (fun pre c' post heq => hroom pre c' (post ++ [c]) (by simp [heq]))
      (fun c' hc' => hexact c' (by simp [hc']))
    rw [verifyAll_concat]
    refine ((verifies decode _ c).prunes rfl rfl hskew (hexact c (by simp)) ?_ hbefore).mono hle
    exact hroom calls c [] rfl

/-- **A fresh envelope is accepted unless it was before**, in every run without an eviction whose
clock never goes back: the floor is at most the start or the stale bound, so pruning refuses nothing
that is within the skew and not signed before the start. The bounds must be representable. -/
theorem fresh_accepted {cfg : VerifierConfig} (hnew : newVerifier cfg start = .ok v₀)
    (hsorted : (calls.map VerifyCall.now ++ [t]).Pairwise (· ≤ ·))
    (hroom : ∀ pre c post, calls = pre ++ c :: post → ¬ Evicts decode (verifyAll decode v₀ pre) c)
    (hexact : ∀ c ∈ calls, ExactAt v₀.replay.skew c.now) (hexactNow : ExactAt v₀.replay.skew t)
    {key : Bytes} {signedAt : Int} (hkey : ¬ RecordedIn decode v₀ calls key)
    (hlow : t - v₀.replay.skew ≤ signedAt) (hhigh : signedAt ≤ t + v₀.replay.skew)
    (hstart : start ≤ signedAt) :
    ((verifyAll decode v₀ calls).replay.prune t).floor ≤ max start (t - v₀.replay.skew) ∧
      ((verifyAll decode v₀ calls).replay.prune t).check key signedAt t = none := by
  have hskew := (newVerifier_ok hnew).2.2.2
  have hpruned := (prunes_verifyAll hnew hsorted hroom hexact).prune le_rfl
  have hfloor := hpruned.floor_le
  obtain ⟨hexactLow, hexactHigh⟩ := hexactNow
  refine ⟨hfloor, check_eq_none.mpr ⟨?_, ?_, ?_, ?_⟩⟩
  · rw [hpruned.skew_eq, int64_eq ⟨by omega, by omega⟩]
    exact hlow
  · rw [hpruned.skew_eq, int64_eq ⟨by omega, by omega⟩]
    exact hhigh
  · omega
  · cases hlookup : ((verifyAll decode v₀ calls).replay.prune t).keys.lookup key with
    | none => rfl
    | some id => exact absurd (hpruned.recorded key id hlookup) hkey

end Fresh

/-- **A fresh envelope is refused** when the clock reads the last representable time: the later
bound of freshness overflows, and what is signed at the reading itself is taken for the future. -/
theorem fresh_refused :
    newVerifier (plainVerifierConfig 300000) 0 = .ok (plainVerifier 300000 0) ∧
      ∀ key, ((plainVerifier 300000 0).replay.prune maxInt64).check key maxInt64 maxInt64
        = some .futureTimestamp :=
  ⟨rfl, fun _ => rfl⟩

theorem fresh_accepted_plainCall :
    ∃ v, newVerifier (plainVerifierConfig 300000) 0 = .ok v ∧
      ((verifyAll (plainDecode 1000) v [plainCall 1000]).replay.prune 5000000).check [] 4900000
        5000000
        = none := by
  have hnew : newVerifier (plainVerifierConfig 300000) 0 = .ok (plainVerifier 300000 0) := rfl
  have hroom : ∀ pre c post, [plainCall 1000] = pre ++ c :: post →
      ¬ Evicts (plainDecode 1000) (verifyAll (plainDecode 1000) (plainVerifier 300000 0) pre)
        c := by
    rintro (_ | ⟨_, _ | _⟩) c post heq ⟨-, hfull⟩ <;> cases heq
    revert hfull
    decide
  have hkey : ¬ RecordedIn (plainDecode 1000) (plainVerifier 300000 0) [plainCall 1000] [] := by
    rintro ⟨-, c, -, envelope, -, -, hkey, -⟩
    simp [VerifyCall.key, replayKey, keyPart] at hkey
  exact ⟨_, hnew, (fresh_accepted hnew (by decide) hroom (by decide) (by decide) hkey (by decide)
    (by decide) (by decide)).2⟩

end OriGateway
