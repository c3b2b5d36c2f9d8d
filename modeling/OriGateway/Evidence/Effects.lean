import OriGateway.Evidence.QueueCalls

/-! # What an operation does to the memory

**`Effect op q r q'`** says everything an operation can do to the queue's memory: with result `r`
it leaves `q'` of `q`. A failure leaves the memory as it was, but for the sidecars a retirement
removed before it failed; faults apart, a success makes exactly the operation's change.
**`wp_effect`** is the one place that looks at the programs: every invariant of the memory follows
from it by cases. -/

namespace OriGateway

open Foundation

namespace DurableQueue

def withoutSidecars (q : DurableQueue) (id : Bytes) : DurableQueue :=
  Sidecar.backoff.forget id (Sidecar.hold.forget id q)

/-- The queue with an admitted record. -/
def admitted (q : DurableQueue) (now : Int) (kind : ArtifactType) (payload : Bytes) :
    DurableQueue :=
  q.insertEntry (q.newRecord now kind payload)
    ((q.newRecord now kind payload).marshal.length : Nat)

end DurableQueue

open DurableQueue

/-- **What an operation does to the memory.** -/
inductive Effect : QueueOp → DurableQueue → Except QueueError Unit → DurableQueue → Prop where
  | refused {op q} (e : QueueError) : Effect op q (.error e) q
  | found {now kind payload q} (r : QueueRecord)
      (hlookup : q.entries.lookup (artifactID kind payload) = some r) :
      Effect (.enqueue now kind payload) q (.ok ()) q
  | admitted {now kind payload q} (hkind : validOutboundArtifactType kind = true)
      (hadmits : q.Admits now kind payload) :
      Effect (.enqueue now kind payload) q (.ok ()) (q.admitted now kind payload)
  | foundStaged {now kind payload q} (r : QueueRecord)
      (hlookup : q.entries.lookup (artifactID kind payload) = some r) :
      Effect (.stage now kind payload) q (.ok ()) q
  | staged {now kind payload q} (hadmits : q.Admits now kind payload) :
      Effect (.stage now kind payload) q (.ok ()) (q.admitted now kind payload)
  | held {record q} (queued : QueueRecord)
      (hlookup : q.entries.lookup record.queueRecord = some queued)
      (hcheck : validateHoldRecord record.versioned queued = .ok ()) :
      Effect (.hold record) q (.ok ())
        { q with holds := q.holds.insert record.queueRecord record.versioned }
  | backedOff {record q} (queued : QueueRecord)
      (hlookup : q.entries.lookup record.queueRecord = some queued)
      (hcheck : validateBackoffRecord record.versioned = .ok ()) :
      Effect (.setBackoff record) q (.ok ())
        { q with backoffs := q.backoffs.insert record.queueRecord record.versioned }
  | cleared {id q} : Effect (.clearBackoff id) q (.ok ()) (Sidecar.backoff.forget id q)
  /-- The retirement fails after the hold was removed. -/
  | unheld {id q} (e : QueueError) : Effect (.remove id) q (.error e) (Sidecar.hold.forget id q)
  /-- The retirement fails after both sidecars were removed. -/
  | bared {id q} (e : QueueError) : Effect (.remove id) q (.error e) (q.withoutSidecars id)
  | retired {id q} (r : QueueRecord) (hlookup : q.entries.lookup id = some r) :
      Effect (.remove id) q (.ok ()) ((q.withoutSidecars id).removeEntry id)
  | probed {body q} : Effect (.probe body) q (.ok ()) q
  /-- A carriage of an unconfigured device is noted, or fails to be. -/
  | noted {device q q'} (r : Except QueueError Unit) (h : UnconfiguredChange q q') :
      Effect (.noteUnconfiguredDevice device) q r q'
  | notedAdmitted {device q q'} (h : UnconfiguredChange q q') :
      Effect (.noteAdmittedDevice device) q (.ok ()) q'
  | faults {op q r q' q''} (h : Effect op q r q') (hs : SameButFaults q' q'') : Effect op q r q''

namespace DurableQueue

variable {w : World DurableQueue}

theorem forget_of_absent {kind : Sidecar} {q : DurableQueue} {id : Bytes}
    (h : kind.present q id = false) : kind.forget id q = q := by
  cases kind with
  | hold =>
    have hlookup : q.holds.lookup id = none := by simpa [Sidecar.present] using h
    rw [Sidecar.forget, erase_of_lookup_none hlookup]
  | backoff =>
    have hlookup : q.backoffs.lookup id = none := by simpa [Sidecar.present] using h
    rw [Sidecar.forget, erase_of_lookup_none hlookup]

theorem wp_mem_commitFile {name data : Bytes} {change : DurableQueue → DurableQueue}
    {Q : Except QueueError Unit → DurableQueue → Prop} (hok : Q (.ok ()) (change w.mem))
    (hfail : ∀ e, Q (.error e) (w.mem.noteStore true)) :
    wp (commitFile name data change) (fun r w' => Q r w'.mem) (fun _ => True) w := by
  refine wp_commitFile (fun w' _ hm _ _ => ?_) (fun w' _ hm _ => ?_) (fun e w' _ _ hm _ => ?_)
    fun _ _ _ => trivial
  · exact hm ▸ hok
  · exact hm ▸ hfail _
  · exact hm ▸ hfail _

theorem wp_mem_removeSidecar (kind : Sidecar) (id : Bytes) :
    wp (removeSidecar kind id)
      (fun r w' => (r = .ok () ∧ w'.mem = kind.forget id w.mem) ∨
        (∃ e, r = .error e) ∧ w'.mem = w.mem)
      (fun _ => True) w := by
  refine wp_removeSidecar (fun habsent => ?_) (fun w' _ _ hm _ _ => ?_) (fun e w' _ _ hm _ => ?_)
    fun _ _ _ => trivial
  · exact .inl ⟨rfl, (forget_of_absent habsent).symm⟩
  · exact .inl ⟨rfl, hm⟩
  · exact .inr ⟨⟨e, rfl⟩, hm⟩

theorem wp_mem_enqueueOrFind {now : Int} {kind : ArtifactType} {payload : Bytes}
    {Q : Except QueueError Unit → DurableQueue → Prop}
    (hrefused : ∀ e q', SameButFaults w.mem q' → Q (.error e) q')
    (hfound : ∀ r, w.mem.entries.lookup (artifactID kind payload) = some r → Q (.ok ()) w.mem)
    (hadmitted : w.mem.Admits now kind payload → Q (.ok ()) (w.mem.admitted now kind payload)) :
    wp (enqueueOrFind now kind payload) (fun r w' => Q (r.map fun _ => ()) w'.mem)
      (fun _ => True) w := by
  refine wp_enqueueOrFind (fun e _ => hrefused e _ (SameButFaults.refl _)) (fun r hr => hfound r hr)
    fun hadmits => ?_
  refine wp_post (wp_mem_commitFile (Q := Q) (hadmitted hadmits) fun e =>
    hrefused e _ (sameButFaults_noteStore _ _)) (fun r w' hQ => ?_)
  cases r <;> exact hQ

theorem wp_mem_retireRecord {record : QueueRecord} {id : Bytes} (hid : record.id = id) :
    wp (retireRecord record id)
      (fun r w' => (r = .ok () ∧ w'.mem = w.mem.removeEntry id) ∨
        (∃ e, r = .error e) ∧ SameButFaults w.mem w'.mem)
      (fun _ => True) w := by
  refine wp_retireRecord hid (fun w' hm _ => .inl ⟨rfl, hm⟩)
    (fun w' _ hm _ => .inr ⟨⟨_, rfl⟩, hm ▸ SameButFaults.refl _⟩)
    (fun w' _ hm _ => .inr ⟨⟨_, rfl⟩, hm ▸ SameButFaults.refl _⟩)
    (fun w' _ hm _ => .inr ⟨⟨_, rfl⟩, ?_⟩) (fun e w' _ _ _ hm _ => .inr ⟨⟨_, rfl⟩, ?_⟩)
    fun _ _ _ => trivial
  · exact hm ▸ sameButFaults_noteStore _ _
  · exact hm ▸ sameButFaults_noteStore _ _

theorem wp_effect_removeLocked {id : Bytes}
    (hid : ∀ r, w.mem.entries.lookup id = some r → r.id = id) :
    wp (removeLocked id) (fun r w' => Effect (.remove id) w.mem r w'.mem) (fun _ => True) w := by
  unfold removeLocked removeHoldLocked removeBackoffLocked
  simp only [wp_bind, wp_getMem]
  cases hlookup : w.mem.entries.lookup id with
  | none => exact .refused _
  | some record =>
    simp only [wp_bind]
    -- the hold goes first, then the back-off, then the record
    refine wp_post (wp_mem_removeSidecar .hold id) ?_
    rintro r₁ w₁ (⟨rfl, h₁⟩ | ⟨⟨e, rfl⟩, h₁⟩)
    · simp only [wp_bind]
      refine wp_post (wp_mem_removeSidecar .backoff id) ?_
      rintro r₂ w₂ (⟨rfl, h₂⟩ | ⟨⟨e, rfl⟩, h₂⟩)
      · have hbare : w₂.mem = w.mem.withoutSidecars id := by rw [h₂, h₁, withoutSidecars]
        refine wp_post (wp_mem_retireRecord (hid record hlookup)) ?_
        rintro r₃ w₃ (⟨rfl, h₃⟩ | ⟨⟨e, rfl⟩, h₃⟩)
        · rw [h₃, hbare]
          exact .retired record hlookup
        · rw [hbare] at h₃
          exact (Effect.bared e).faults h₃
      · change Effect _ _ _ w₂.mem
        rw [h₂, h₁]
        exact .unheld e
    · change Effect _ _ _ w₁.mem
      rw [h₁]
      exact .refused e

theorem wp_mem_writeUnconfiguredLocked :
    wp writeUnconfiguredLocked (fun _ w' => SameButFaults w.mem w'.mem) (fun _ => True) w :=
  wp_writeUnconfiguredLocked (fun _ hs _ => hs) (fun _ _ _ hs _ => hs) fun _ _ _ => trivial

theorem UnconfiguredChange.faults {q q' q'' : DurableQueue} (h : UnconfiguredChange q q')
    (hs : SameButFaults q' q'') : UnconfiguredChange q q'' := by
  have hdevices : q''.unconfigured = q'.unconfigured := by rw [hs]
  refine ⟨?_, fun hv => hdevices ▸ h.valid hv, fun hc => hdevices ▸ h.card_le hc⟩
  rw [hs, h.same]

theorem UnconfiguredChange.refl (q : DurableQueue) : UnconfiguredChange q q :=
  ⟨rfl, fun h => h, fun h => h⟩

end DurableQueue

/-- **Every operation has an effect**, whichever of its calls fail. -/
theorem wp_effect (op : QueueOp) {w : World DurableQueue}
    (hid : ∀ id r, w.mem.entries.lookup id = some r → r.id = id) :
    wp op.program (fun r w' => Effect op w.mem r w'.mem) (fun _ => True) w := by
  cases op with
  | enqueue now kind payload =>
    refine wp_program_enqueue (wp_enqueueOutbound (fun _ => .refused _) fun hkind => ?_)
    refine wp_post (wp_mem_enqueueOrFind (Q := Effect (.enqueue now kind payload) w.mem)
      (fun e q' hs => (Effect.refused e).faults hs) (fun r hr => .found r hr)
      fun hadmits => .admitted hkind hadmits) (fun r w' h => ?_)
    cases r <;> exact h
  | stage now kind payload =>
    refine wp_program_stage (wp_mem_enqueueOrFind (Q := Effect (.stage now kind payload) w.mem)
      (fun e q' hs => (Effect.refused e).faults hs) (fun r hr => .foundStaged r hr)
      fun hadmits => .staged hadmits)
  | remove id =>
    refine wp_remove (wp_post (wp_effect_removeLocked (hid id)) ?_)
    exact fun r w' h q' hs => h.faults hs
  | hold record =>
    refine wp_hold (fun e => .refused e) fun queued hlookup hcheck => ?_
    exact wp_mem_commitFile (Q := Effect (.hold record) w.mem) (.held queued hlookup hcheck)
      fun e => (Effect.refused e).faults (sameButFaults_noteStore _ _)
  | setBackoff record =>
    refine wp_setBackoff (fun e => .refused e) fun queued hlookup hcheck => ?_
    exact wp_mem_commitFile (Q := Effect (.setBackoff record) w.mem)
      (.backedOff queued hlookup hcheck)
      fun e => (Effect.refused e).faults (sameButFaults_noteStore _ _)
  | clearBackoff id =>
    refine wp_clearBackoff (fun hnone => ?_)
      (wp_post (wp_mem_removeSidecar .backoff id) ?_)
    · have hcleared : Effect (.clearBackoff id) w.mem (.ok ()) (Sidecar.backoff.forget id w.mem) :=
        .cleared
      rwa [forget_of_absent (by simp [Sidecar.present, hnone])] at hcleared
    · rintro r w' (⟨rfl, hm⟩ | ⟨⟨e, rfl⟩, hm⟩) q' hs
      · exact Effect.cleared.faults (hm ▸ hs)
      · exact (Effect.refused e).faults (hm ▸ hs)
  | probe body =>
    refine wp_probe (fun w' hs _ => ?_) (fun e w' _ hs _ => ?_) fun _ _ _ => trivial
    · exact Effect.probed.faults hs
    · exact (Effect.refused e).faults hs
  | noteUnconfiguredDevice device =>
    refine wp_noteUnconfiguredDevice (fun q' hs _ => ?_) fun q' hc _ _ => ?_
    · exact (Effect.noted _ (.refl _)).faults hs
    · refine wp_post wp_mem_writeUnconfiguredLocked (fun r w' hs => ?_)
      exact .noted r (hc.faults hs)
  | noteAdmittedDevice device =>
    refine wp_noteAdmittedDevice (.notedAdmitted (.refl _)) fun q' hc _ => ?_
    refine wp_post wp_mem_writeUnconfiguredLocked (fun r w' hs q'' hs' => ?_)
    exact .notedAdmitted ((hc.faults hs).faults hs')

/-- **A record stays until it is retired.** -/
theorem Effect.lookup {op : QueueOp} {q q' : DurableQueue} {result : Except QueueError Unit}
    (h : Effect op q result q') {id : Bytes} {r : QueueRecord} (hop : op ≠ .remove id)
    (hr : q.entries.lookup id = some r) : q'.entries.lookup id = some r := by
  have hadmitted : ∀ {q : DurableQueue} {now kind payload}, q.Admits now kind payload →
      q.entries.lookup id = some r → (q.admitted now kind payload).entries.lookup id = some r := by
    intro q now kind payload hadmits hr
    refine (lookup_insert_ite q.entries _ _ id).trans ?_
    rw [if_neg]
    · exact hr
    · rintro rfl
      have habsent := hadmits.absent
      rw [show q.entries.lookup (artifactID kind payload) = some r from hr] at habsent
      cases habsent
  induction h with
  | refused | found | foundStaged | held | backedOff | cleared | unheld | bared | probed => exact hr
  | admitted hkind hadmits => exact hadmitted hadmits hr
  | staged hadmits => exact hadmitted hadmits hr
  | @retired id' q r' hlookup =>
    refine (lookup_erase_ite q.entries id' id).trans ?_
    rw [if_neg]
    · exact hr
    · rintro rfl
      exact hop rfl
  | noted _ hc =>
    rw [hc.same]
    exact hr
  | notedAdmitted hc =>
    rw [hc.same]
    exact hr
  | faults _ hs ih =>
    rw [hs]
    exact ih hop hr

/-- **An admission that returns leaves its record**: the one found, or the new one. -/
theorem Effect.lookup_enqueue {op : QueueOp} {q q' : DurableQueue}
    {result : Except QueueError Unit} (h : Effect op q result q') {now : Int}
    {kind : ArtifactType} {payload : Bytes} (hop : op = .enqueue now kind payload)
    (hresult : result = .ok ()) :
    q'.entries.lookup (artifactID kind payload)
      = some ((q.entries.lookup (artifactID kind payload)).getD
          (q.newRecord now kind payload)) := by
  induction h with
  | refused => cases hresult
  | found r hlookup =>
    cases hop
    rw [hlookup, Option.getD_some]
  | admitted hkind hadmits =>
    cases hop
    rw [hadmits.absent, Option.getD_none]
    exact Finmap.lookup_insert _
  | faults _ hs ih =>
    rw [hs]
    exact ih hop hresult
  | _ => cases hop

end OriGateway
