import OriGateway.Evidence.Load

/-! # How the queue's file-system programs end

One rule for each program the queue's operations are made of: every way it can end, with what it
leaves in memory and, up to scratch files, in the directory. A claim about an operation is proved
from these rules and never looks at the calls again. -/

namespace OriGateway

open Foundation

namespace DurableQueue

variable {w : World DurableQueue} {C : World DurableQueue → Prop} {id device : Bytes}
  {Q : Except QueueError Unit → World DurableQueue → Prop}

abbrev SameStore (s s' : Store) : Prop := Store.Agrees queueTempPrefix s s'

/-- **How a recorded atomic write ends.** -/
theorem wp_writeFileAtomic {name data : Bytes}
    {Q : Except ReplaceError Unit → World DurableQueue → Prop}
    (hok : ∀ w', Completes w.script 7 → w'.mem = w.mem → w'.script = w.script.drop 7 →
      SameStore (w.store.put name (replacement data)).sync w'.store → Q (.ok ()) w')
    (hpersist : ∀ w', FailsAt w.script 6 → w'.mem = w.mem.noteStore true →
      SameStore (w.store.put name (replacement data)) w'.store → Q (.error .persist) w')
    (hfail : ∀ e w', e ≠ .persist → FailsAt w.script e.position → w'.mem = w.mem.noteStore true →
      SameStore w.store w'.store → Q (.error e) w')
    (hcrash : ∀ w', w'.mem = w.mem → SameStore w.store w'.store ∨
      SameStore (w.store.put name (replacement data)) w'.store → C w') :
    wp (writeFileAtomic name data) Q C w := by
  unfold writeFileAtomic writeFileAtomicRaw
  rw [wp_bind]
  refine wp_atomicReplace (fun w' h7 hm hs ha => ?_) (fun w' h6 hm ha => ?_)
    (fun e w' hne he hm ha => ?_) hcrash
  · exact hok _ h7 hm hs ha
  · exact hpersist _ h6 (by rw [← hm]; rfl) ha
  · exact hfail e _ hne he (by rw [← hm]; rfl) ha

/-- **How a write that changes the memory ends.** -/
theorem wp_commitFile {name data : Bytes} {change : DurableQueue → DurableQueue}
    (hok : ∀ w', Completes w.script 7 → w'.mem = change w.mem → w'.script = w.script.drop 7 →
      SameStore (w.store.put name (replacement data)).sync w'.store → Q (.ok ()) w')
    (hpersist : ∀ w', FailsAt w.script 6 → w'.mem = w.mem.noteStore true →
      SameStore (w.store.put name (replacement data)) w'.store → Q (.error (.write .persist)) w')
    (hfail : ∀ e w', e ≠ .persist → FailsAt w.script e.position → w'.mem = w.mem.noteStore true →
      SameStore w.store w'.store → Q (.error (.write e)) w')
    (hcrash : ∀ w', w'.mem = w.mem → SameStore w.store w'.store ∨
      SameStore (w.store.put name (replacement data)) w'.store → C w') :
    wp (commitFile name data change) Q C w := by
  unfold commitFile
  rw [wp_bind]
  refine wp_writeFileAtomic (fun w' h7 hm hs ha => ?_) hpersist hfail hcrash
  exact hok _ h7 (congrArg change hm) hs ha

def SameButFaults (q q' : DurableQueue) : Prop := q' = { q with faults := q'.faults }

theorem SameButFaults.refl (q : DurableQueue) : SameButFaults q q := rfl

theorem sameButFaults_noteStore (q : DurableQueue) (failed : Bool) :
    SameButFaults q (q.noteStore failed) := by
  cases failed <;> rfl

theorem sameButFaults_noteFault (q : DurableQueue) (fault : Fault) (source : Bytes)
    (failed : Bool) : SameButFaults q (q.noteFault fault source failed) := rfl

/-- **How the removal of a sidecar ends.** -/
theorem wp_removeSidecar {kind : Sidecar} (habsent : kind.present w.mem id = false → Q (.ok ()) w)
    (hok : ∀ w', kind.present w.mem id = true → Completes w.script 2 →
      w'.mem = kind.forget id w.mem → w'.script = w.script.drop 2 →
      w'.store = (w.store.del (kind.file id)).sync → Q (.ok ()) w')
    (hfail : ∀ e w', kind.present w.mem id = true → FailsAt w.script 0 ∨ FailsAt w.script 1 →
      w'.mem = w.mem → w'.store = w.store ∨ w'.store = w.store.del (kind.file id) →
      Q (.error e) w')
    (hcrash : ∀ w', w'.mem = w.mem → w'.store = w.store ∨ w'.store = w.store.del (kind.file id) →
      C w') : wp (removeSidecar kind id) Q C w := by
  have hfirst : w.script.getD 0 .done = w.outcome := (outcome_of_drop rfl).symm
  unfold removeSidecar
  simp only [wp_bind, wp_getMem, wp_ite, wp_pure, Bool.not_eq_true', Bool.not_eq_false]
  refine ⟨habsent, fun hpresent => ?_⟩
  -- After the unlink only the directory's flush is left, from either store.
  have hflush : ∀ w₁ : World DurableQueue, w₁.mem = w.mem → w₁.script = w.script.drop 1 →
      w.outcome = .done → (w₁.store = w.store ∨ w₁.store = w.store.del (kind.file id)) →
      w₁.store.sync = (w.store.del (kind.file id)).sync →
      wp syncDirectory (fun b w' => (b = false → Q (.error .persistSidecarRemoval) w') ∧
        (b = true → Q (.ok ()) { w' with mem := kind.forget id w'.mem })) C w₁ := by
    intro w₁ hm hs hdone hstore hsync
    have hone : Completes w.script 1 := (completes_zero _).succ (hfirst.trans hdone)
    have hnext := outcome_of_drop hs
    simp only [syncDirectory, wp_call, Bool.false_eq_true, forall_const, true_and,
      IsEmpty.forall_iff, and_true, Bool.true_eq_false]
    refine ⟨fun h => ?_, fun h => ?_, fun _ => ?_⟩
    · exact hok _ hpresent (hone.succ (hnext ▸ h)) (by rw [← hm]; rfl) (by simp [hs]) hsync
    · exact hfail _ _ hpresent (Or.inr ⟨hone, hnext ▸ h⟩) hm hstore
    · exact hcrash _ hm hstore
  rw [wp_unlink]
  refine ⟨fun hdone hsome => ?_, fun hdone hnone => ?_, fun hfails => ?_, fun _ => ?_⟩
  · simpa only [wp_bind, wp_ite, wp_pure, wp_modifyMem, Bool.not_eq_true', Bool.not_eq_false] using
      hflush (w.next.onStore (Store.del (kind.file id))) rfl (by simp) hdone (Or.inr rfl) rfl
  · simpa only [wp_bind, wp_ite, wp_pure, wp_modifyMem, Bool.not_eq_true', Bool.not_eq_false] using
      hflush w.next rfl (by simp) hdone (Or.inl rfl) (Store.sync_del_of_absent hnone)
  · exact hfail _ _ hpresent (Or.inl ⟨completes_zero _, hfirst.trans hfails⟩) rfl (Or.inl rfl)
  · exact hcrash _ rfl (Or.inl rfl)

/-- **How the removal of a record's file ends.** -/
theorem wp_retireRecord {record : QueueRecord} (hid : record.id = id)
    (hok : ∀ w', w'.mem = w.mem.removeEntry id →
      w'.store = (w.store.del (recordFile id)).sync → Q (.ok ()) w')
    (hkept : ∀ w', (w.store.live.lookup (recordFile id) = none ∨ FailsAt w.script 0) →
      w'.mem = w.mem → w'.store = w.store → Q (.error .retire) w')
    (hrestored : ∀ w', FailsAt w.script 1 → w'.mem = w.mem →
      SameStore ((w.store.del (recordFile id)).put (recordFile id)
        (replacement record.marshal)).sync w'.store → Q (.error (.persistRetirement none)) w')
    (hunsynced : ∀ w', FailsAt w.script 1 → w'.mem = w.mem.noteStore true →
      SameStore ((w.store.del (recordFile id)).put (recordFile id) (replacement record.marshal))
        w'.store → Q (.error (.persistRetirement (some .persist))) w')
    (hlost : ∀ e w', FailsAt w.script 1 → e ≠ .persist → FailsAt (w.script.drop 2) e.position →
      w'.mem = w.mem.noteStore true → SameStore (w.store.del (recordFile id)) w'.store →
        Q (.error (.persistRetirement (some e))) w')
    (hcrash : ∀ w', w'.mem = w.mem → (SameStore w.store w'.store ∨
      SameStore (w.store.del (recordFile id)) w'.store ∨ FailsAt w.script 1 ∧
      SameStore ((w.store.del (recordFile id)).put (recordFile id) (replacement record.marshal))
        w'.store) → C w') : wp (retireRecord record id) Q C w := by
  have hfirst : w.script.getD 0 .done = w.outcome := (outcome_of_drop rfl).symm
  unfold retireRecord
  rw [wp_bind, wp_unlink]
  refine ⟨fun hdone _ => ?_, fun _ hnone => ?_, fun hfails => ?_, fun _ => ?_⟩
  · have hone : Completes w.script 1 := (completes_zero _).succ (hfirst.trans hdone)
    simp only [wp_bind, syncDirectory, wp_call]
    refine ⟨fun _ => ?_, fun hfails => ?_, fun _ => ?_⟩
    · simp only [if_true, wp_bind, wp_modifyMem, wp_pure]
      exact hok _ rfl rfl
    · have hsecond : FailsAt w.script 1 :=
        ⟨hone, (outcome_of_drop (w := w.next.onStore _) (World.next_script w)) ▸ hfails⟩
      simp only [Bool.false_eq_true, if_false, wp_bind, writeRecord, hid]
      refine wp_writeFileAtomic (fun w' _ hm _ ha => ?_) (fun w' _ hm ha => ?_)
        (fun e w' hne he hm ha => ?_) (fun w' hm ha => ?_)
      · exact hrestored w' hsecond hm ha
      · exact hunsynced w' hsecond hm ha
      · refine hlost e w' hsecond hne ?_ hm ha
        simpa [List.drop_drop] using he
      · exact hcrash w' hm (Or.inr (ha.imp_right fun ha => ⟨hsecond, ha⟩))
    · exact hcrash _ rfl (Or.inr (Or.inl (Store.Agrees.refl _)))
  · exact hkept _ (Or.inl hnone) rfl rfl
  · exact hkept _ (Or.inr ⟨completes_zero _, hfirst.trans hfails⟩) rfl rfl
  · exact hcrash _ rfl (Or.inl (Store.Agrees.refl _))

/-! ## Operations

Each operation is refused without a change, or is one of the programs above. -/

/-- What must hold for an artifact to be queued as a new record. -/
structure Admits (q : DurableQueue) (now : Int) (kind : ArtifactType) (payload : Bytes) : Prop where
  type_valid : validQueueArtifactType kind = true
  payload_ne : payload ≠ []
  absent : q.entries.lookup (artifactID kind payload) = none
  admitted : q.insertRefusal now kind payload = none

/-- Why queueing an artifact is refused before anything is written. -/
inductive Refuses (q : DurableQueue) (now : Int) (kind : ArtifactType) (payload : Bytes) :
    QueueError → Prop where
  | type (h : validQueueArtifactType kind = false) :
      Refuses q now kind payload .unsupportedQueueType
  | empty (h : payload = []) : Refuses q now kind payload .emptyPayload
  | check {e : QueueError} (hpayload : payload ≠ [])
      (habsent : q.entries.lookup (artifactID kind payload) = none)
      (h : q.insertRefusal now kind payload = some e) : Refuses q now kind payload e

theorem wp_enqueueOrFind {now : Int} {kind : ArtifactType} {payload : Bytes}
    {Q : Except QueueError (QueuedArtifact × Bool) → World DurableQueue → Prop}
    (hrefused : ∀ e, w.mem.Refuses now kind payload e → Q (.error e) w)
    (hexisting : ∀ r, w.mem.entries.lookup (artifactID kind payload) = some r →
      Q (.ok (r.artifact, true)) w)
    (hnew : w.mem.Admits now kind payload →
      wp (commitFile (recordFile (artifactID kind payload))
        (w.mem.newRecord now kind payload).marshal fun q =>
          q.insertEntry (w.mem.newRecord now kind payload)
            ((w.mem.newRecord now kind payload).marshal.length : Nat))
        (fun r w' => Q (r.map fun _ => ((w.mem.newRecord now kind payload).artifact, false)) w')
        C w) :
    wp (enqueueOrFind now kind payload) Q C w := by
  unfold enqueueOrFind
  simp only [wp_bind, wp_ite, wp_pure, wp_getMem, Bool.not_eq_true', Bool.not_eq_false]
  refine ⟨fun hkind => hrefused _ (.type hkind), fun hkind =>
    ⟨fun hempty => hrefused _ (.empty hempty), fun hpayload => ?_⟩⟩
  cases hlookup : w.mem.entries.lookup (artifactID kind payload) with
  | some existing => exact hexisting existing hlookup
  | none =>
    simp only [wp_bind, insertLocked, wp_getMem]
    cases hrefusal : w.mem.insertRefusal now kind payload with
    | some e => exact hrefused e (.check hpayload hlookup hrefusal)
    | none =>
      simp only [wp_bind]
      refine wp_mono (hnew ⟨hkind, hpayload, hlookup, hrefusal⟩) (fun r w' hQ => ?_)
        fun w' hC => hC
      cases r <;> exact hQ

theorem wp_hold {record : HoldRecord} (hrefused : ∀ e, Q (.error e) w)
    (hvalid : ∀ queued, w.mem.entries.lookup record.queueRecord = some queued →
      validateHoldRecord record.versioned queued = .ok () →
      wp (commitFile (Sidecar.hold.file record.queueRecord) record.versioned.marshal fun q =>
        { q with holds := q.holds.insert record.queueRecord record.versioned }) Q C w) :
    wp (hold record) Q C w := by
  unfold hold
  simp only [wp_bind, wp_getMem]
  cases hlookup : w.mem.entries.lookup record.queueRecord with
  | none => exact hrefused _
  | some queued =>
    dsimp only
    cases hcheck : validateHoldRecord record.versioned queued with
    | error e => exact hrefused _
    | ok _ => exact hvalid queued hlookup hcheck

theorem wp_setBackoff {record : BackoffRecord} (hrefused : ∀ e, Q (.error e) w)
    (hvalid : ∀ queued, w.mem.entries.lookup record.queueRecord = some queued →
      validateBackoffRecord record.versioned = .ok () →
      wp (commitFile (Sidecar.backoff.file record.queueRecord) record.versioned.marshal fun q =>
        { q with backoffs := q.backoffs.insert record.queueRecord record.versioned }) Q C w) :
    wp (setBackoff record) Q C w := by
  unfold setBackoff
  simp only [wp_bind, wp_getMem]
  cases hlookup : w.mem.entries.lookup record.queueRecord with
  | none => exact hrefused _
  | some queued =>
    dsimp only
    cases hcheck : validateBackoffRecord record.versioned with
    | error e => exact hrefused _
    | ok _ => exact hvalid queued hlookup hcheck

theorem wp_clearBackoff (habsent : w.mem.backoffs.lookup id = none → Q (.ok ()) w)
    (hpresent : wp (removeSidecar .backoff id)
      (fun r w' => ∀ q', SameButFaults w'.mem q' → Q r { w' with mem := q' }) C w) :
    wp (clearBackoff id) Q C w := by
  unfold clearBackoff removeBackoffLocked
  simp only [wp_bind, wp_getMem, wp_ite, wp_pure, wp_modifyMem]
  refine ⟨fun hnone => habsent (Option.isNone_iff_eq_none.mp hnone), fun _ =>
    wp_mono hpresent (fun r w' hQ => ?_) fun w' hC => hC⟩
  exact hQ _ (sameButFaults_noteStore _ _)

theorem wp_remove
    (h : wp (removeLocked id)
      (fun r w' => ∀ q', SameButFaults w'.mem q' → Q r { w' with mem := q' }) C w) :
    wp (remove id) Q C w := by
  unfold remove
  rw [wp_bind]
  refine wp_mono h (fun r w' hQ => ?_) fun w' hC => hC
  split
  · exact hQ _ (SameButFaults.refl _)
  · exact hQ _ (sameButFaults_noteStore _ _)

/-- **How a probe ends.** -/
theorem wp_probe {body : Bytes}
    (hok : ∀ w', SameButFaults w.mem w'.mem →
      SameStore (w.store.put probeFileName (replacement body)).sync w'.store → Q (.ok ()) w')
    (hfail : ∀ e w', .fails ∈ w.script → SameButFaults w.mem w'.mem →
      (SameStore w.store w'.store ∨
        SameStore (w.store.put probeFileName (replacement body)) w'.store) → Q (.error e) w')
    (hcrash : ∀ w', w'.mem = w.mem → (SameStore w.store w'.store ∨
      SameStore (w.store.put probeFileName (replacement body)) w'.store) → C w') :
    wp (probe body) Q C w := by
  have hsub : ∀ n, FailsAt (w.script.drop 1) n → .fails ∈ w.script := fun n h =>
    List.mem_of_mem_drop (h.mem)
  have hnote : ∀ (w' : World DurableQueue) (b : Bool), w'.mem = w.mem → SameButFaults w.mem
      (w'.mem.noteFault .storeUnavailable w'.mem.faultSource b) := by
    intro w' b hm
    rw [hm]
    exact sameButFaults_noteFault _ _ _ _
  unfold probe
  simp only [wp_bind, readDirectory, wp_call, wp_modifyMem, wp_pure, Bool.not_true,
    Bool.not_false, Bool.false_eq_true, if_false, if_true]
  refine ⟨fun _ => ?_, fun hfails => ?_, fun _ => hcrash _ rfl (Or.inl (Store.Agrees.refl _))⟩
  · unfold writeFileAtomicRaw
    refine wp_atomicReplace (fun w' _ hm _ ha => ?_) (fun w' h6 hm ha => ?_)
      (fun e w' _ he hm ha => ?_) (fun w' hm ha => ?_)
    · exact hok _ (hnote w' _ hm) ha
    · exact hfail _ _ (hsub 6 (by simpa using h6)) (hnote w' _ hm) (Or.inr ha)
    · exact hfail _ _ (hsub _ (by simpa using he)) (hnote w' _ hm) (Or.inl ha)
    · exact hcrash w' hm ha
  · exact hfail _ _ (mem_of_outcome_fails hfails) (hnote w.next _ rfl)
      (Or.inl (Store.Agrees.refl _))

/-- What writing the record of unconfigured devices makes of the directory: the record removed when
there are none, and replaced otherwise. -/
def unconfiguredWrite (q : DurableQueue) (s : Store) : Store :=
  if q.unconfigured = ∅ ∧ q.unconfiguredOverflow = false then s.del unconfiguredFileName
  else s.put unconfiguredFileName (replacement q.unconfiguredRecord.marshal)

/-- **How writing the record of unconfigured devices ends.** -/
theorem wp_writeUnconfiguredLocked
    (hok : ∀ w', SameButFaults w.mem w'.mem →
      SameStore (w.mem.unconfiguredWrite w.store).sync w'.store → Q (.ok ()) w')
    (hfail : ∀ e w', .fails ∈ w.script → SameButFaults w.mem w'.mem →
      (SameStore w.store w'.store ∨ SameStore (w.mem.unconfiguredWrite w.store) w'.store) →
        Q (.error e) w')
    (hcrash : ∀ w', w'.mem = w.mem → (SameStore w.store w'.store ∨
      SameStore (w.mem.unconfiguredWrite w.store) w'.store) → C w') :
    wp writeUnconfiguredLocked Q C w := by
  have hnote : ∀ (w' : World DurableQueue) (b : Bool), w'.mem = w.mem →
      SameButFaults w.mem (w'.mem.noteStore b) := by
    intro w' b hm
    rw [hm]
    exact sameButFaults_noteStore _ _
  unfold writeUnconfiguredLocked
  simp only [wp_bind, wp_getMem, wp_ite]
  refine ⟨fun hempty => ?_, fun hfull => ?_⟩
  · have hwrite : w.mem.unconfiguredWrite w.store = w.store.del unconfiguredFileName :=
      if_pos hempty
    rw [hwrite] at hok hfail hcrash
    -- Once the file is gone, by the unlink or before it, only the directory's flush is left.
    have hflush : ∀ w₁ : World DurableQueue, w₁.mem = w.mem → (∀ o ∈ w₁.script, o ∈ w.script) →
        (w₁.store = w.store ∨ w₁.store = w.store.del unconfiguredFileName) →
        w₁.store.sync = (w.store.del unconfiguredFileName).sync →
        wp syncDirectory (fun b w' => Q (if b = true then .ok () else .error .persistUnconfigured)
          { w' with mem := w'.mem.noteStore (!b) }) C w₁ := by
      intro w₁ hm hs hstore hsync
      have hagree : SameStore w.store w₁.store ∨
          SameStore (w.store.del unconfiguredFileName) w₁.store := by
        rcases hstore with h | h <;> rw [h]
        · exact Or.inl (Store.Agrees.refl _)
        · exact Or.inr (Store.Agrees.refl _)
      simp only [syncDirectory, wp_call]
      refine ⟨fun _ => hok _ (hnote w₁ false hm) ?_, fun hfails => ?_, fun _ => hcrash _ hm hagree⟩
      · rw [← hsync]
        exact Store.Agrees.refl _
      · exact hfail _ _ (hs _ (mem_of_outcome_fails hfails)) (hnote w₁ true hm) hagree
    have hsub : ∀ o ∈ w.next.script, o ∈ w.script := fun o ho => by
      rw [World.next_script] at ho
      exact List.mem_of_mem_drop ho
    rw [wp_unlink]
    refine ⟨fun _ _ => ?_, fun _ hnone => ?_, fun hfails => ?_, fun _ => ?_⟩
    · simpa only [wp_bind, wp_modifyMem, wp_pure] using
        hflush (w.next.onStore (Store.del unconfiguredFileName)) rfl hsub (Or.inr rfl) rfl
    · simpa only [wp_bind, wp_modifyMem, wp_pure] using
        hflush w.next rfl hsub (Or.inl rfl) (Store.sync_del_of_absent hnone)
    · simp only [wp_bind, wp_modifyMem, wp_pure]
      exact hfail _ _ (mem_of_outcome_fails hfails) (hnote w.next true rfl)
        (Or.inl (Store.Agrees.refl _))
    · exact hcrash _ rfl (Or.inl (Store.Agrees.refl _))
  · have hwrite : w.mem.unconfiguredWrite w.store
        = w.store.put unconfiguredFileName (replacement w.mem.unconfiguredRecord.marshal) :=
      if_neg hfull
    rw [hwrite] at hok hfail hcrash
    refine wp_writeFileAtomic (fun w' _ hm _ ha => ?_) (fun w' h6 hm ha => ?_)
      (fun e w' _ he hm ha => ?_) hcrash
    · exact hok w' (hm ▸ SameButFaults.refl _) ha
    · exact hfail _ w' h6.mem (hm ▸ sameButFaults_noteStore _ _) (Or.inr ha)
    · exact hfail _ w' he.mem (hm ▸ sameButFaults_noteStore _ _) (Or.inl ha)

/-- A change of the unconfigured devices that keeps them within the routing domain and their
bound. -/
structure UnconfiguredChange (q q' : DurableQueue) : Prop where
  same : q' = { q with
    faults := q'.faults
    unconfigured := q'.unconfigured
    unconfiguredOverflow := q'.unconfiguredOverflow }
  valid : (∀ d ∈ q.unconfigured, validRoutingDeviceID d = true) →
    ∀ d ∈ q'.unconfigured, validRoutingDeviceID d = true
  card_le : q.unconfigured.card ≤ maxUnconfiguredDevices →
    q'.unconfigured.card ≤ maxUnconfiguredDevices

/-- **A memory names a device** as unconfigured: in its set, or among those it no longer keeps. -/
def Names (q : DurableQueue) (device : Bytes) : Prop :=
  device ∈ q.unconfigured ∨ q.unconfiguredOverflow = true

/-- **A note that returns without a write**: the device is in memory, or it is one of those that are
not kept and that some are not kept is in memory. -/
def Silent (q : DurableQueue) (device : Bytes) : Prop :=
  device ∈ q.unconfigured ∨
    (q.unconfigured.card ≥ maxUnconfiguredDevices ∨ validRoutingDeviceID device = false) ∧
      q.unconfiguredOverflow = true

theorem Silent.names {q : DurableQueue} (h : q.Silent device) : q.Names device :=
  h.imp id And.right

theorem wp_noteUnconfiguredDevice
    (hsilent : ∀ q', SameButFaults w.mem q' → w.mem.Silent device →
      Q (.ok ()) { w with mem := q' })
    (hwrite : ∀ q', UnconfiguredChange w.mem q' → q'.Names device →
      (∀ other, w.mem.Names other → q'.Names other) →
      wp writeUnconfiguredLocked Q C { w with mem := q' }) :
    wp (noteUnconfiguredDevice device) Q C w := by
  unfold noteUnconfiguredDevice
  simp only [wp_bind, wp_modifyMem, wp_getMem, wp_ite, wp_pure]
  have hnoted := sameButFaults_noteFault w.mem .deviceUnconfigured devicesFaultSource true
  refine ⟨fun hmem => hsilent _ hnoted (.inl hmem), fun _ => ⟨fun hfull => ⟨fun hoverflow => ?_,
    fun _ => ?_⟩, fun hroom => ?_⟩⟩
  · exact hsilent _ hnoted (.inr ⟨hfull, hoverflow⟩)
  · exact hwrite _ ⟨rfl, fun h => h, fun h => h⟩ (.inr rfl) fun other _ => .inr rfl
  · rw [not_or, not_le, Bool.not_eq_false] at hroom
    refine hwrite _ ⟨rfl, fun h d hd => ?_, fun _ => ?_⟩ (.inl (Finset.mem_insert_self _ _))
      fun other h => h.imp Finset.mem_insert_of_mem id
    · rcases Finset.mem_insert.mp hd with rfl | hd
      · exact hroom.2
      · exact h d hd
    · exact (Finset.card_insert_le _ _).trans hroom.1

theorem wp_noteAdmittedDevice (hsame : Q (.ok ()) w)
    (hwrite : ∀ q', UnconfiguredChange w.mem q' →
      (∀ other, other ≠ device → w.mem.Names other → q'.Names other) →
      wp writeUnconfiguredLocked (fun _ w' => ∀ q'', SameButFaults w'.mem q'' →
        Q (.ok ()) { w' with mem := q'' }) C { w with mem := q' }) :
    wp (noteAdmittedDevice device) Q C w := by
  unfold noteAdmittedDevice
  simp only [wp_bind, wp_getMem, wp_ite, wp_pure, wp_modifyMem]
  refine ⟨fun _ => hsame, fun _ => ?_⟩
  have hchange : UnconfiguredChange w.mem
      { w.mem with unconfigured := w.mem.unconfigured.erase device } :=
    ⟨rfl, fun h d hd => h d (Finset.mem_of_mem_erase hd),
      fun h => (Finset.card_erase_le).trans h⟩
  have hothers : ∀ other, other ≠ device → w.mem.Names other →
      Names { w.mem with unconfigured := w.mem.unconfigured.erase device } other :=
    fun other hne h => h.imp (fun hd => Finset.mem_erase.mpr ⟨hne, hd⟩) id
  refine wp_mono (hwrite _ hchange hothers) (fun r w' hQ => ?_) fun w' hC => hC
  cases r with
  | error e => exact hQ _ (SameButFaults.refl _)
  | ok _ =>
    simp only [wp_bind, wp_getMem, wp_ite, wp_modifyMem, wp_pure]
    exact ⟨fun _ => hQ _ (sameButFaults_noteFault _ _ _ _), fun _ => hQ _ (SameButFaults.refl _)⟩

theorem wp_enqueueOutbound {now : Int} {kind : ArtifactType} {payload : Bytes}
    {Q : Except QueueError (QueuedArtifact × Bool) → World DurableQueue → Prop}
    (hrefused : validOutboundArtifactType kind = false → Q (.error .unsupportedOutboundType) w)
    (h : validOutboundArtifactType kind = true → wp (enqueueOrFind now kind payload)
      (fun r w' => Q (r.map fun p => (p.1, !p.2)) w') C w) :
    wp (enqueueOutbound now kind payload) Q C w := by
  unfold enqueueOutbound
  simp only [wp_bind, wp_ite, wp_pure, Bool.not_eq_true', Bool.not_eq_false]
  refine ⟨hrefused, fun hkind => wp_mono (h hkind) (fun r w' hQ => ?_) fun w' hC => hC⟩
  cases r <;> exact hQ

end DurableQueue

theorem wp_program_enqueue {w : World DurableQueue} {C : World DurableQueue → Prop} {now : Int}
    {kind : ArtifactType} {payload : Bytes}
    {Q : Except QueueError Unit → World DurableQueue → Prop}
    (h : wp (DurableQueue.enqueueOutbound now kind payload)
      (fun r w' => Q (r.map fun _ => ()) w') C w) :
    wp (QueueOp.enqueue now kind payload).program Q C w := by
  unfold QueueOp.program
  rw [wp_bind]
  refine wp_mono h (fun r w' hQ => ?_) fun w' hC => hC
  cases r <;> exact hQ

theorem wp_program_stage {w : World DurableQueue} {C : World DurableQueue → Prop} {now : Int}
    {kind : ArtifactType} {payload : Bytes}
    {Q : Except QueueError Unit → World DurableQueue → Prop}
    (h : wp (DurableQueue.enqueueOrFind now kind payload)
      (fun r w' => Q (r.map fun _ => ()) w') C w) :
    wp (QueueOp.stage now kind payload).program Q C w := by
  unfold QueueOp.program
  rw [wp_bind]
  refine wp_mono h (fun r w' hQ => ?_) fun w' hC => hC
  cases r <;> exact hQ

end OriGateway
