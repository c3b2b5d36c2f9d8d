import OriGateway.Evidence.Reopening

/-! # Failed writes

What failed file-system calls leave behind. The memory follows the directory only as long as a write
that was committed but not flushed is known to the memory: a new record, or the first sidecar of a
record, whose directory flush fails is on disk and not in memory, and so is a retirement whose
record could not be written back. **`QueueCall.Tolerable`** rules these failures out, and no others;
then the directory holds the memory's records and no sidecar the memory does not know
(**`Covers`**), and opens again (**`reopens_of_tolerated`**). Without it a later call can leave a
directory that is refused. -/

namespace OriGateway

open Foundation

/-! ## Changes of a valid content -/

namespace Content

variable {c : Content}

def present (c : Content) : DurableQueue.Sidecar → Bytes → Bool
  | .hold, id => (c.holds.lookup id).isSome
  | .backoff, id => (c.backoffs.lookup id).isSome

theorem Valid.insertRecord (hc : c.Valid) {r : QueueRecord} (hr : r.Sound)
    (hlast : r.queueSeq < maxInt64) (hnew : c.records.lookup r.id = none)
    (hseq : ∀ id r', c.records.lookup id = some r' → r'.queueSeq ≠ r.queueSeq) :
    ({ c with records := c.records.insert r.id r } : Content).Valid := by
  -- a record from before is still there
  have hkeep : ∀ {id r'}, c.records.lookup id = some r' →
      (c.records.insert r.id r).lookup id = some r' := by
    intro id r' hr'
    rw [lookup_insert_ite, if_neg]
    · exact hr'
    · rintro rfl
      rw [hnew] at hr'
      cases hr'
  constructor
  case sound => exact forall_lookup_insert hc.sound ⟨hr, rfl⟩
  case below => exact forall_lookup_insert hc.below hlast
  case seq_inj =>
    intro a ra b rb ha hb hab
    rw [lookup_insert_ite] at ha hb
    split at ha <;> split at hb
    · next h₁ h₂ => rw [h₁, h₂]
    · cases ha
      exact absurd hab.symm (hseq b rb hb)
    · cases hb
      exact absurd hab (hseq a ra ha)
    · exact hc.seq_inj a ra b rb ha hb hab
  case holds =>
    intro id h hh
    obtain ⟨r', hr', hcheck⟩ := hc.holds id h hh
    exact ⟨r', hkeep hr', hcheck⟩
  case backoffs =>
    intro id b hb
    obtain ⟨hnames, ⟨r', hr'⟩, hcheck⟩ := hc.backoffs id b hb
    exact ⟨hnames, ⟨r', hkeep hr'⟩, hcheck⟩
  case unconfigured => exact hc.unconfigured

theorem Valid.eraseRecord (hc : c.Valid) {id : Bytes} (hbare : ∀ kind, c.present kind id = false) :
    ({ c with records := c.records.erase id } : Content).Valid := by
  have hkeep : ∀ {id' r'}, c.records.lookup id' = some r' → id' ≠ id →
      (c.records.erase id).lookup id' = some r' := fun hr' hne => by
    rwa [lookup_erase_ite, if_neg hne]
  constructor
  case sound => exact fun id' r' hr' => hc.sound id' r' (lookup_of_erase hr')
  case below => exact fun id' r' hr' => hc.below id' r' (lookup_of_erase hr')
  case seq_inj =>
    exact fun a ra b rb ha hb => hc.seq_inj a ra b rb (lookup_of_erase ha) (lookup_of_erase hb)
  case holds =>
    intro id' h hh
    obtain ⟨r', hr', hcheck⟩ := hc.holds id' h hh
    refine ⟨r', hkeep hr' ?_, hcheck⟩
    rintro rfl
    have hnone := hbare .hold
    simp [present, show c.holds.lookup id' = some h from hh] at hnone
  case backoffs =>
    intro id' b hb
    obtain ⟨hnames, ⟨r', hr'⟩, hcheck⟩ := hc.backoffs id' b hb
    refine ⟨hnames, ⟨r', hkeep hr' ?_⟩, hcheck⟩
    rintro rfl
    have hnone := hbare .backoff
    simp [present, show c.backoffs.lookup id' = some b from hb] at hnone
  case unconfigured => exact hc.unconfigured

theorem Valid.insertHold (hc : c.Valid) {id : Bytes} {h : HoldRecord} {queued : QueueRecord}
    (hlookup : c.records.lookup id = some queued)
    (hcheck : validateHoldRecord h queued = .ok ()) :
    ({ c with holds := c.holds.insert id h } : Content).Valid :=
  { hc with holds := forall_lookup_insert hc.holds ⟨queued, hlookup, hcheck⟩ }

theorem Valid.insertBackoff (hc : c.Valid) {id : Bytes} {b : BackoffRecord}
    {queued : QueueRecord} (hlookup : c.records.lookup id = some queued)
    (hnames : b.queueRecord = id) (hcheck : validateBackoffRecord b = .ok ()) :
    ({ c with backoffs := c.backoffs.insert id b } : Content).Valid :=
  { hc with backoffs := forall_lookup_insert hc.backoffs ⟨hnames, ⟨queued, hlookup⟩, hcheck⟩ }

theorem Valid.forget (hc : c.Valid) (kind : DurableQueue.Sidecar) (id : Bytes) :
    (c.forget kind id).Valid := by
  cases kind with
  | hold => exact { hc with holds := fun id' h' hh' => hc.holds id' h' (lookup_of_erase hh') }
  | backoff =>
    exact { hc with backoffs := fun id' b' hb' => hc.backoffs id' b' (lookup_of_erase hb') }

theorem present_of_forget {kind kind' : DurableQueue.Sidecar} {id id' : Bytes}
    (h : (c.forget kind id).present kind' id' = true) :
    c.present kind' id' = true ∧ (kind', id') ≠ (kind, id) := by
  cases kind <;> cases kind' <;>
    simp only [Content.forget, present, lookup_erase_ite] at h ⊢ <;> grind

end Content

namespace DurableQueue

theorem present_forget {kind kind' : Sidecar} {id id' : Bytes} {q : DurableQueue}
    (h : kind'.present q id' = true) (hne : (kind', id') ≠ (kind, id)) :
    kind'.present (kind.forget id q) id' = true := by
  cases kind <;> cases kind' <;>
    simp only [Sidecar.forget, Sidecar.present, lookup_erase_ite] at h ⊢ <;> grind

/-! ## Directories that a memory covers -/

/-- **A directory that a memory covers**: it holds the memory's records, and valid sidecars the
memory knows. -/
def Covers (q : DurableQueue) (d : Directory) : Prop :=
  ∃ c, Stores d c ∧ c.Valid ∧ c.records = q.entries ∧
    ∀ kind id, c.present kind id = true → kind.present q id = true

namespace Covers

variable {q q' : DurableQueue} {d d' : Directory}

theorem of_agrees (h : Covers q d) (ha : Directory.Agrees queueTempPrefix d d') :
    Covers q d' := by
  obtain ⟨c, hs, hc⟩ := h
  exact ⟨c, hs.of_agrees ha, hc⟩

theorem mono (h : Covers q d) (hentries : q'.entries = q.entries)
    (hpresent : ∀ (kind : Sidecar) (id : Bytes), kind.present q id = true →
      kind.present q' id = true) :
    Covers q' d := by
  obtain ⟨c, hs, hc, hrecords, hsidecars⟩ := h
  exact ⟨c, hs, hc, hrecords.trans hentries.symm,
    fun kind id hp => hpresent kind id (hsidecars kind id hp)⟩

theorem of_sameButFaults (h : Covers q d) (hs : SameButFaults q q') : Covers q' d := by
  rw [hs]
  exact h.mono rfl fun kind id hp => by cases kind <;> exact hp

theorem of_unconfiguredChange (h : Covers q d) (hc : UnconfiguredChange q q') : Covers q' d := by
  rw [hc.same]
  exact h.mono rfl fun kind id hp => by cases kind <;> exact hp

theorem admitted (hq : Consistent q) (hroom : q.nextSeq < maxInt64) (h : Covers q d) {now : Int}
    {kind : ArtifactType} {payload : Bytes} (hadmits : q.Admits now kind payload) :
    Covers (q.admitted now kind payload)
      (d.insert (recordFile (artifactID kind payload))
        (replacement (q.newRecord now kind payload).marshal)) := by
  obtain ⟨c, hs, hc, hrecords, hsidecars⟩ := h
  obtain ⟨-, -, -, hnow, -⟩ := insertRefusal_eq_none.mp hadmits.admitted
  have hsound := hq.newRecord_sound hadmits.type_valid hadmits.payload_ne hnow
  refine ⟨_, hs.putRecord (head_artifactID kind payload) (q.newRecord now kind payload),
    hc.insertRecord hsound hroom ?_ ?_, ?_, fun kind' id hp => ?_⟩
  · rw [hrecords]
    exact hadmits.absent
  · intro id r hr heq
    rw [hrecords] at hr
    have hlt := hq.seq_lt id (mem_keys_iff.mpr ⟨r, hr⟩)
    rw [entry_of_lookup hr, heq] at hlt
    exact absurd hlt (lt_irrefl _)
  · rw [hrecords]
    rfl
  · have := hsidecars kind' id (by cases kind' <;> exact hp)
    cases kind' <;> exact this

theorem putHold (h : Covers q d) {id : Bytes} {r : HoldRecord} {queued : QueueRecord}
    (hlookup : q.entries.lookup id = some queued) (hcheck : validateHoldRecord r queued = .ok ())
    (hknown : Sidecar.hold.present q id = true) :
    Covers q (d.insert (Sidecar.hold.file id) (replacement r.marshal)) := by
  obtain ⟨c, hs, hc, hrecords, hsidecars⟩ := h
  refine ⟨_, hs.putHold id r, hc.insertHold (by rwa [hrecords]) hcheck, hrecords, ?_⟩
  rintro (_ | _) id' hp
  · simp only [Content.present, lookup_insert_ite] at hp
    split at hp
    · next heq =>
      rw [heq]
      exact hknown
    · exact hsidecars .hold id' hp
  · exact hsidecars .backoff id' hp

theorem putBackoff (h : Covers q d) {id : Bytes} {r : BackoffRecord} {queued : QueueRecord}
    (hlookup : q.entries.lookup id = some queued) (hnames : r.queueRecord = id)
    (hcheck : validateBackoffRecord r = .ok ()) (hknown : Sidecar.backoff.present q id = true) :
    Covers q (d.insert (Sidecar.backoff.file id) (replacement r.marshal)) := by
  obtain ⟨c, hs, hc, hrecords, hsidecars⟩ := h
  refine ⟨_, hs.putBackoff id r, hc.insertBackoff (by rwa [hrecords]) hnames hcheck, hrecords, ?_⟩
  rintro (_ | _) id' hp
  · exact hsidecars .hold id' hp
  · simp only [Content.present, lookup_insert_ite] at hp
    split at hp
    · next heq =>
      rw [heq]
      exact hknown
    · exact hsidecars .backoff id' hp

theorem delSidecar (h : Covers q d) (kind : Sidecar) (id : Bytes) :
    Covers q (d.erase (kind.file id)) := by
  obtain ⟨c, hs, hc, hrecords, hsidecars⟩ := h
  refine ⟨_, hs.delSidecar kind id, hc.forget kind id, ?_, fun kind' id' hp => ?_⟩
  · cases kind <;> exact hrecords
  · exact hsidecars kind' id' (Content.present_of_forget hp).1

theorem forget (h : Covers q d) (kind : Sidecar) (id : Bytes) :
    Covers (kind.forget id q) (d.erase (kind.file id)) := by
  obtain ⟨c, hs, hc, hrecords, hsidecars⟩ := h
  refine ⟨_, hs.delSidecar kind id, hc.forget kind id, ?_, fun kind' id' hp => ?_⟩
  · cases kind <;> exact hrecords
  · obtain ⟨hin, hne⟩ := Content.present_of_forget hp
    exact present_forget (hsidecars kind' id' hin) hne

theorem retired (h : Covers q d) {id : Bytes} {r : QueueRecord}
    (hlookup : q.entries.lookup id = some r) (hbare : ∀ kind : Sidecar, kind.present q id = false) :
    Covers (q.removeEntry id) (d.erase (recordFile id)) := by
  obtain ⟨c, hs, hc, hrecords, hsidecars⟩ := h
  have hhead := hc.head_of_lookup (hrecords ▸ hlookup)
  refine ⟨_, hs.delRecord hhead, hc.eraseRecord fun kind => ?_, ?_, fun kind id' hp => ?_⟩
  · by_contra hp
    rw [Bool.not_eq_false] at hp
    exact absurd (hbare kind) (by simp [hsidecars kind id hp])
  · rw [hrecords]
    rfl
  · have := hsidecars kind id' (by cases kind <;> exact hp)
    cases kind <;> exact this

theorem restored (h : Covers q d) {id : Bytes} {r : QueueRecord}
    (hlookup : q.entries.lookup id = some r) :
    Covers q ((d.erase (recordFile id)).insert (recordFile id) (replacement r.marshal)) := by
  obtain ⟨c, hs, hc, hrecords, hsidecars⟩ := h
  rw [← hrecords] at hlookup
  have hhead := hc.head_of_lookup hlookup
  have hback := (hs.delRecord hhead).putRecord hhead r
  rw [insert_erase_of_lookup hlookup] at hback
  exact ⟨c, hback, hc, hrecords, hsidecars⟩

end Covers

/-! ## Operations -/

/-- The number of file-system calls that remove a record's sidecars. -/
def sidecarCalls (q : DurableQueue) (id : Bytes) : Nat :=
  (if Sidecar.hold.present q id then 2 else 0) + if Sidecar.backoff.present q id then 2 else 0

section Operations

variable {w : World DurableQueue}

abbrev wpCovers {α : Type} (m : FsM DurableQueue α) (w : World DurableQueue) : Prop :=
  wp m (fun _ w' => Covers w'.mem w'.store.live) (fun _ => True) w

/-- A write that changes the memory, by what it leaves when it is flushed, when it is committed and
not flushed, and when it is not committed. -/
theorem wp_covers_commitFile {name data : Bytes} {change : DurableQueue → DurableQueue}
    (hok : Covers (change w.mem) (w.store.live.insert name (replacement data)))
    (hpersist : FailsAt w.script 6 →
      Covers w.mem (w.store.live.insert name (replacement data)))
    (hkept : Covers w.mem w.store.live) : wpCovers (commitFile name data change) w := by
  refine wp_commitFile (fun w' _ hm _ ha => ?_) (fun w' h6 hm ha => ?_)
    (fun e w' _ _ hm ha => ?_) fun _ _ _ => trivial
  · rw [hm]
    exact hok.of_agrees ha.live
  · rw [hm]
    exact ((hpersist h6).of_agrees ha.live).of_sameButFaults (sameButFaults_noteStore _ _)
  · rw [hm]
    exact (hkept.of_agrees ha.live).of_sameButFaults (sameButFaults_noteStore _ _)

theorem wp_covers_removeSidecar {kind : Sidecar} {id : Bytes} (h : Covers w.mem w.store.live) :
    wp (removeSidecar kind id) (fun r w' => Covers w'.mem w'.store.live ∧
      (r = .ok () → w'.mem = kind.forget id w.mem ∧
        w'.script = w.script.drop (if kind.present w.mem id then 2 else 0) ∧
        Completes w.script (if kind.present w.mem id then 2 else 0))) (fun _ => True) w := by
  refine wp_removeSidecar (fun habsent => ?_) (fun w' hpresent h2 hm hs hstore => ?_)
    (fun e w' _ _ hm hstore => ?_) fun _ _ _ => trivial
  · refine ⟨h, fun _ => ⟨(forget_of_absent habsent).symm, ?_⟩⟩
    simp [habsent, completes_zero]
  · rw [hm, hstore]
    exact ⟨h.forget kind id, fun _ => ⟨rfl, by rw [hs, if_pos hpresent], by rwa [if_pos hpresent]⟩⟩
  · refine ⟨?_, fun hr => by cases hr⟩
    rw [hm]
    rcases hstore with hstore | hstore <;> rw [hstore]
    · exact h
    · exact h.delSidecar kind id

/-- A retirement, unless its record is lost: removed without a flush and not written back. -/
theorem wp_covers_removeLocked {id : Bytes} (hq : Consistent w.mem)
    (h : Covers w.mem w.store.live)
    (hback : FailsAt w.script (w.mem.sidecarCalls id + 1) →
      ∀ i < 6, ¬ FailsAt (w.script.drop (w.mem.sidecarCalls id + 2)) i) :
    wpCovers (removeLocked id) w := by
  unfold wpCovers removeLocked removeHoldLocked removeBackoffLocked
  simp only [wp_bind, wp_getMem]
  cases hlookup : w.mem.entries.lookup id with
  | none => exact h
  | some record =>
    simp only [wp_bind]
    refine wp_post (wp_covers_removeSidecar h) ?_
    rintro r₁ w₁ ⟨hcovers₁, h₁⟩
    cases r₁ with
    | error e => exact hcovers₁
    | ok _ =>
      obtain ⟨hm₁, hs₁, hc₁⟩ := h₁ rfl
      simp only [wp_bind]
      refine wp_post (wp_covers_removeSidecar hcovers₁) ?_
      rintro r₂ w₂ ⟨hcovers₂, h₂⟩
      cases r₂ with
      | error e => exact hcovers₂
      | ok _ =>
        obtain ⟨hm₂, hs₂, hc₂⟩ := h₂ rfl
        rw [hm₁] at hs₂ hc₂
        rw [hs₁] at hs₂ hc₂
        rw [List.drop_drop] at hs₂
        -- the script is past the sidecars' calls, all of which took effect
        have hscript : w₂.script = w.script.drop (w.mem.sidecarCalls id) := hs₂
        have hcompletes : Completes w.script (w.mem.sidecarCalls id) := hc₁.of_drop hc₂
        have hbare : w₂.mem = w.mem.withoutSidecars id := by
          rw [hm₂, hm₁, withoutSidecars]
        have hentry : w₂.mem.entries.lookup id = some record := by rw [hbare]; exact hlookup
        have habsent : ∀ kind : Sidecar, kind.present w₂.mem id = false := by
          rw [hbare]
          rintro (_ | _) <;>
            simp [Sidecar.present, withoutSidecars, Sidecar.forget, Finmap.lookup_erase]
        have hcons : record.id = id := (hq.sound id record hlookup).2
        refine wp_retireRecord hcons (fun w' hm hstore => ?_) (fun w' _ hm hstore => ?_)
          (fun w' _ hm ha => ?_) (fun w' _ hm ha => ?_) (fun e w' h1 hne he hm _ => ?_)
          fun _ _ _ => trivial
        · rw [hm, hstore]
          exact hcovers₂.retired hentry habsent
        · rw [hm, hstore]
          exact hcovers₂
        · rw [hm]
          exact (hcovers₂.restored hentry).of_agrees ha.live
        · rw [hm]
          exact ((hcovers₂.restored hentry).of_agrees ha.live).of_sameButFaults
            (sameButFaults_noteStore _ _)
        · -- the record would be lost
          rw [hscript] at h1 he
          rw [List.drop_drop] at he
          exact absurd he (hback (.of_drop hcompletes h1) e.position
            (e.position_lt hne))

theorem Covers.unconfiguredWrite {q : DurableQueue} {s : Store} (hq : DevicesKept q)
    (h : Covers q s.live) : Covers q (q.unconfiguredWrite s).live := by
  obtain ⟨c, hs, hc, hrecords, hsidecars⟩ := h
  unfold DurableQueue.unconfiguredWrite
  split
  · refine ⟨_, hs.delUnconfigured, { hc with unconfigured := fun u hu => ?_ }, hrecords,
      fun kind id hp => hsidecars kind id (by cases kind <;> exact hp)⟩
    cases hu
  · refine ⟨_, hs.putUnconfigured q.unconfiguredRecord, { hc with unconfigured := fun u hu => ?_ },
      hrecords, fun kind id hp => hsidecars kind id (by cases kind <;> exact hp)⟩
    cases hu
    exact hq.acceptable

theorem wp_covers_writeUnconfiguredLocked (hq : DevicesKept w.mem)
    (h : Covers w.mem w.store.live) : wpCovers writeUnconfiguredLocked w := by
  refine wp_writeUnconfiguredLocked (fun w' hs ha => ?_) (fun e w' _ hs ha => ?_)
    fun _ _ _ => trivial
  · exact ((h.unconfiguredWrite hq).of_agrees ha.live).of_sameButFaults hs
  · rcases ha with ha | ha
    · exact (h.of_agrees ha.live).of_sameButFaults hs
    · exact ((h.unconfiguredWrite hq).of_agrees ha.live).of_sameButFaults hs

end Operations

end DurableQueue

open DurableQueue

/-! ## Runs -/

/-- **A call whose failures the queue tolerates.** The directory's flush does not fail right after a
new record, or the first sidecar of a record, was committed; and when it fails right after a record
was removed, the record is written back. -/
def QueueCall.Tolerable (c : QueueCall) (q : DurableQueue) : Prop :=
  match c.op with
  | .enqueue now kind payload => q.Admits now kind payload → ¬ FailsAt c.script 6
  | .hold record => FailsAt c.script 6 → Sidecar.hold.present q record.queueRecord = true
  | .setBackoff record => FailsAt c.script 6 → Sidecar.backoff.present q record.queueRecord = true
  | .remove id => FailsAt c.script (q.sidecarCalls id + 1) →
      ∀ i < 6, ¬ FailsAt (c.script.drop (q.sidecarCalls id + 2)) i
  | _ => True

/-- **A tolerable call of an outbound queue keeps the directory covered.** -/
theorem QueueCall.covers {opts : QueueOptions} {c : QueueCall} {w w' : World DurableQueue}
    {r : Except QueueError Unit} (hop : c.op.outbound = true) (hq : Within opts w.mem)
    (hroom : w.mem.nextSeq < maxInt64) (h : Covers w.mem w.store.live) (htol : c.Tolerable w.mem)
    (hrun : c.run w = .done r w') : Covers w'.mem w'.store.live := by
  obtain ⟨op, script⟩ := c
  suffices hall : wpCovers op.program { w with script := script } from hall.done hrun
  have hwrite : ∀ q', UnconfiguredChange w.mem q' →
      wpCovers writeUnconfiguredLocked { w with mem := q', script := script } := by
    intro q' hc
    exact wp_covers_writeUnconfiguredLocked (hq.of_unconfiguredChange hc).devices_kept
      (h.of_unconfiguredChange hc)
  cases op with
  | enqueue now kind payload =>
    refine wp_program_enqueue (wp_enqueueOutbound (fun _ => h) fun _ => ?_)
    refine wp_enqueueOrFind (fun _ _ => h) (fun _ _ => h) fun hadmits => ?_
    refine wp_covers_commitFile (Covers.admitted hq.toConsistent hroom h hadmits) ?_ h
    exact fun h6 => absurd h6 (htol hadmits)
  | stage now kind payload => cases hop
  | remove id =>
    refine wp_remove (wp_post (wp_covers_removeLocked hq.toConsistent h htol) ?_)
    exact fun r w' hw' q' hs => hw'.of_sameButFaults hs
  | hold record =>
    refine wp_hold (fun _ => h) fun queued hlookup hcheck => ?_
    refine wp_covers_commitFile ?_ (fun h6 => h.putHold hlookup hcheck (htol h6)) h
    refine (h.mono rfl fun kind id hp => ?_ : Covers { w.mem with
      holds := w.mem.holds.insert record.queueRecord record.versioned } _).putHold hlookup hcheck ?_
    · cases kind with
      | hold =>
        simp only [Sidecar.present, lookup_insert_ite]
        split
        · rfl
        · exact hp
      | backoff => exact hp
    · simp [Sidecar.present, Finmap.lookup_insert]
  | setBackoff record =>
    refine wp_setBackoff (fun _ => h) fun queued hlookup hcheck => ?_
    refine wp_covers_commitFile ?_ (fun h6 => h.putBackoff hlookup rfl hcheck (htol h6)) h
    refine (h.mono rfl fun kind id hp => ?_ : Covers { w.mem with
      backoffs := w.mem.backoffs.insert record.queueRecord record.versioned } _).putBackoff
        hlookup rfl hcheck ?_
    · cases kind with
      | hold => exact hp
      | backoff =>
        simp only [Sidecar.present, lookup_insert_ite]
        split
        · rfl
        · exact hp
    · simp [Sidecar.present, Finmap.lookup_insert]
  | clearBackoff id =>
    refine wp_clearBackoff (fun _ => h) (wp_post (wp_covers_removeSidecar h) ?_)
    exact fun r w' hw' q' hs => hw'.1.of_sameButFaults hs
  | probe body =>
    have hprobed : Covers w.mem (w.store.live.insert probeFileName (replacement body)) := by
      obtain ⟨c, hs, hc⟩ := h
      exact ⟨c, hs.insert_probe _, hc⟩
    refine wp_probe (fun w' hs ha => ?_) (fun e w' _ hs ha => ?_) fun _ _ _ => trivial
    · exact (hprobed.of_agrees ha.live).of_sameButFaults hs
    · rcases ha with ha | ha
      · exact (h.of_agrees ha.live).of_sameButFaults hs
      · exact (hprobed.of_agrees ha.live).of_sameButFaults hs
  | noteUnconfiguredDevice device =>
    exact wp_noteUnconfiguredDevice (fun q' hs _ => h.of_sameButFaults hs) fun q' hc _ _ =>
      hwrite q' hc
  | noteAdmittedDevice device =>
    refine wp_noteAdmittedDevice h fun q' hc _ => wp_post (hwrite q' hc) ?_
    exact fun r w' hw' q'' hs => hw'.of_sameButFaults hs

def Tolerated : List QueueCall → World DurableQueue → Prop
  | [], _ => True
  | c :: cs, w => c.Tolerable w.mem ∧ ∀ r w', c.run w = .done r w' → Tolerated cs w'

/-- **A run of tolerable calls keeps the directory covered.** -/
theorem covers_runCalls {opts : QueueOptions} {cs : List QueueCall} {w w' : World DurableQueue}
    {trace : Trace} (hops : ∀ c ∈ cs, c.op.outbound = true) (hq : Within opts w.mem)
    (hroom : Roomy cs.length w.mem) (h : Covers w.mem w.store.live) (htol : Tolerated cs w)
    (hrun : runCalls cs w = .done trace w') : Within opts w'.mem ∧ Covers w'.mem w'.store.live := by
  induction cs generalizing w trace with
  | nil =>
    cases hrun
    exact ⟨hq, h⟩
  | cons c cs ih =>
    obtain ⟨result, w₁, rest, hc, hrest, -⟩ := runCalls_cons hrun
    have hop : c.op.outbound = true := hops c List.mem_cons_self
    have heffect := QueueCall.effect hq.toConsistent hc
    refine ih (fun c' hc' => hops c' (List.mem_cons_of_mem _ hc')) ?_ (heffect.roomy hroom) ?_
      (htol.2 result w₁ hc) hrest
    · exact heffect.within hop hq (Roomy.next_lt hroom)
    · exact QueueCall.covers hop hq (Roomy.next_lt hroom) h htol.1 hc

/-- **A queue opens again after failed writes.** From a queue that was created and opened, after any
run of fewer than `2 ^ 62` operations whose calls fail in any tolerable way, the directory opens
with the same options and gives the records in memory. -/
theorem reopens_of_tolerated {opts : QueueOptions} {q : DurableQueue}
    (hopen : openDurableQueueOutbound opts freshDirectory = .ok q) (temps : Nat)
    {calls : List QueueCall} (hcalls : calls.length < 2 ^ 62)
    (hops : ∀ c ∈ calls, c.op.outbound = true)
    (htol : Tolerated calls (openedWorld q freshDirectory temps)) {trace : Trace}
    {w : World DurableQueue}
    (hrun : runCalls calls (openedWorld q freshDirectory temps) = .done trace w) :
    ∃ q', openDurableQueueOutbound opts w.store.live = .ok q' ∧ q'.entries = w.mem.entries ∧
      q'.order = w.mem.order := by
  obtain ⟨hwithin, hentries, -⟩ := within_of_fresh hopen
  have hroom := roomy_of_fresh hopen hcalls.le
  have hstart : Covers q (openedWorld q freshDirectory temps).store.live := by
    refine ⟨noContent, ?_, valid_noContent, hentries.symm, fun kind id hp => ?_⟩
    · exact stores_freshDirectory.of_agrees (Directory.agrees_withoutScratch _ _)
    · cases kind <;> simp [Content.present, noContent] at hp
  obtain ⟨hafter, c, hs, hc, hrecords, -⟩ := covers_runCalls hops hwithin hroom hstart htol hrun
  have husable := usable_of_open (openDurableQueueOutbound_ok.mp hopen).1
  obtain ⟨q', hopen', hholds, hwithin'⟩ := hafter.reopens husable hs hc hrecords
  have hsame : q'.entries = w.mem.entries := hholds.entries.trans hrecords
  exact ⟨q', hopen', hsame, order_eq_of_entries hwithin'.toConsistent hafter.toConsistent hsame⟩

/-- An admission whose write fails, one that returns, and its retirement, whose flush fails and
whose record is written back. -/
def toleratedCalls : List QueueCall :=
  [⟨.enqueue 1 .checkpoint (ascii "\x7b\"device_id\":\"d\"\x7d"), [.done, .done, .fails]⟩,
   ⟨.enqueue 2 .checkpoint (ascii "\x7b\"device_id\":\"e\"\x7d"), []⟩,
   ⟨.remove (artifactID .checkpoint (ascii "\x7b\"device_id\":\"e\"\x7d")), [.done, .fails]⟩]

theorem reopens_of_tolerated_calls :
    ∃ trace w q', runCalls toleratedCalls (openedWorld (emptyQueue plainOptions) freshDirectory 0)
      = .done trace w ∧ openDurableQueueOutbound plainOptions w.store.live = .ok q' ∧
      q'.entries = w.mem.entries ∧ q'.order = w.mem.order := by
  obtain ⟨trace, w, hrun, -⟩ := Exec.returns_iff.mp (by decide +kernel : (runCalls toleratedCalls
    (openedWorld (emptyQueue plainOptions) freshDirectory 0)).returns (fun _ _ => true) = true)
  have htol : Tolerated toleratedCalls
      (openedWorld (emptyQueue plainOptions) freshDirectory 0) := by
    refine ⟨fun _ => by decide, fun _ _ _ => ⟨fun _ => by decide, fun _ w' _ => ⟨?_, fun _ _ _ =>
      trivial⟩⟩⟩
    -- the second failure is the directory's flush, and nothing fails after it
    rintro - i - hfails
    have hnone : ∀ k, (([.done, .fails] : List Outcome).drop (k + 2)) = [] := fun k => by
      simp
    rw [hnone] at hfails
    exact absurd hfails.mem (by simp)
  obtain ⟨q', hopen, hentries, horder⟩ := reopens_of_tolerated
    openDurableQueueOutbound_plainOptions 0 (by decide) (by decide) htol hrun
  exact ⟨trace, w, q', hrun, hopen, hentries, horder⟩

def refusal : Except OpenError DurableQueue → Option OpenError
  | .error e => some e
  | .ok _ => none

theorem refusal_eq_some {result : Except OpenError DurableQueue} {e : OpenError} :
    refusal result = some e ↔ result = .error e := by
  cases result <;> simp [refusal]

/-- **A failed flush can make the directory unreadable.** The first admission is committed and its
flush fails, so memory does not count it; the second takes the same place. -/
theorem reopen_refuses_duplicate :
    openDurableQueueOutbound plainOptions freshDirectory = .ok (emptyQueue plainOptions) ∧
    ∃ trace w, runCalls unflushedCalls (openedWorld (emptyQueue plainOptions) freshDirectory 0)
      = .done trace w ∧
      openDurableQueueOutbound plainOptions w.store.live
        = .error (.load .duplicateSequence) := by
  refine ⟨openDurableQueueOutbound_plainOptions, ?_⟩
  obtain ⟨trace, w, hrun, hrefused⟩ := Exec.returns_iff.mp (by decide +kernel :
    (runCalls unflushedCalls (openedWorld (emptyQueue plainOptions) freshDirectory 0)).returns
      (fun _ w => decide (refusal (openDurableQueueOutbound plainOptions w.store.live)
        = some (.load .duplicateSequence))) = true)
  exact ⟨trace, w, hrun, refusal_eq_some.mp (of_decide_eq_true hrefused)⟩

end OriGateway
