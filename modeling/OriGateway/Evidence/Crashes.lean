import OriGateway.Evidence.Reopening

/-! # Crashes

A queue whose calls do not fail keeps its directory settled: it holds what memory holds, and nothing
is left to be flushed (**`Settled`**). A crash inside an operation then leaves a directory that
holds one of the operation's effects, with nothing of it half done (**`QueueCall.settled`**), and so
it opens with the records of that effect (**`crash_recovers`**). -/

namespace OriGateway

open Foundation

variable {opts : QueueOptions} {w : World DurableQueue}

namespace DurableQueue

/-- What a memory holds, with a record of the unconfigured devices. -/
def content (q : DurableQueue) (u : Option UnconfiguredRecord) : Content :=
  ⟨q.entries, q.holds, q.backoffs, u⟩

/-- **A directory that mirrors a memory**: it holds the memory's records and sidecars, and an
acceptable record of the unconfigured devices or none. -/
def Mirrors (q : DurableQueue) (d : Directory) : Prop :=
  ∃ u, (∀ u', u = some u' → u'.Acceptable) ∧ Stores d (q.content u)

theorem Within.valid_content {opts : QueueOptions} {q : DurableQueue} (h : Within opts q)
    {u : Option UnconfiguredRecord} (hu : ∀ u', u = some u' → u'.Acceptable) :
    (q.content u).Valid where
  sound := h.sound
  below id r hr := by
    have hlt := h.seq_lt id (mem_keys_iff.mpr ⟨r, hr⟩)
    rw [entry_of_lookup hr] at hlt
    exact hlt.trans_le h.next_le
  seq_inj a r b r' ha hb hab := by
    refine h.seq_inj a (mem_keys_iff.mpr ⟨r, ha⟩) b (mem_keys_iff.mpr ⟨r', hb⟩) ?_
    rw [entry_of_lookup ha, entry_of_lookup hb, hab]
  holds := h.holds_valid
  backoffs id b hb :=
    ⟨(h.backoffs_valid id b hb).1, mem_keys_iff.mp (h.backoffs_keys (mem_keys_iff.mpr ⟨b, hb⟩)),
      (h.backoffs_valid id b hb).2⟩
  unconfigured := hu

namespace Mirrors

variable {q q' : DurableQueue} {d d' : Directory}

theorem of_agrees (h : Mirrors q d) (ha : Directory.Agrees queueTempPrefix d d') :
    Mirrors q d' := by
  obtain ⟨u, hu, hs⟩ := h
  exact ⟨u, hu, hs.of_agrees ha⟩

theorem of_sameButFaults (h : Mirrors q d) (hs : SameButFaults q q') : Mirrors q' d := by
  rw [hs]
  exact h

theorem of_unconfiguredChange (h : Mirrors q d) (hc : UnconfiguredChange q q') :
    Mirrors q' d := by
  rw [hc.same]
  exact h

theorem probe (h : Mirrors q d) (f : File) : Mirrors q (d.insert probeFileName f) := by
  obtain ⟨u, hu, hs⟩ := h
  exact ⟨u, hu, hs.insert_probe f⟩

theorem admitted (h : Mirrors q d) (now : Int) (kind : ArtifactType) (payload : Bytes) :
    Mirrors (q.admitted now kind payload) (d.insert (recordFile (artifactID kind payload))
      (replacement (q.newRecord now kind payload).marshal)) := by
  obtain ⟨u, hu, hs⟩ := h
  exact ⟨u, hu, hs.putRecord (head_artifactID kind payload) (q.newRecord now kind payload)⟩

theorem held (h : Mirrors q d) (id : Bytes) (r : HoldRecord) :
    Mirrors { q with holds := q.holds.insert id r }
      (d.insert (Sidecar.hold.file id) (replacement r.marshal)) := by
  obtain ⟨u, hu, hs⟩ := h
  exact ⟨u, hu, hs.putHold id r⟩

theorem backedOff (h : Mirrors q d) (id : Bytes) (r : BackoffRecord) :
    Mirrors { q with backoffs := q.backoffs.insert id r }
      (d.insert (Sidecar.backoff.file id) (replacement r.marshal)) := by
  obtain ⟨u, hu, hs⟩ := h
  exact ⟨u, hu, hs.putBackoff id r⟩

theorem forget (h : Mirrors q d) (kind : Sidecar) (id : Bytes) :
    Mirrors (kind.forget id q) (d.erase (kind.file id)) := by
  obtain ⟨u, hu, hs⟩ := h
  refine ⟨u, hu, ?_⟩
  cases kind with
  | hold => exact hs.delSidecar .hold id
  | backoff => exact hs.delSidecar .backoff id

theorem retired (h : Mirrors q d) {id : Bytes} (hid : ∃ b rest, id = b :: rest ∧ b ≠ 46) :
    Mirrors (q.removeEntry id) (d.erase (recordFile id)) := by
  obtain ⟨u, hu, hs⟩ := h
  exact ⟨u, hu, hs.delRecord hid⟩

end Mirrors

/-! ## Settled directories -/

/-- **A settled queue**: its directory mirrors its memory, and nothing is left to be flushed. -/
structure Settled (w : World DurableQueue) : Prop where
  mirrors : Mirrors w.mem w.store.live
  quiet : Store.Quiet queueTempPrefix w.store

/-- What a crash may leave: a directory that mirrors one of the memories in `R`. -/
def Leaves (R : DurableQueue → Prop) (w : World DurableQueue) : Prop :=
  ∀ d, w.store.Survives d → ∃ q, R q ∧ Mirrors q d

section Programs

variable {w : World DurableQueue} {R : DurableQueue → Prop} {w' : World DurableQueue}
  {id data name : Bytes} {q' : DurableQueue}

/-- A program that leaves a settled queue, and of a crash a memory in `R`. -/
abbrev wpSettled {α : Type} (R : DurableQueue → Prop) (m : FsM DurableQueue α)
    (w : World DurableQueue) : Prop :=
  wp m (fun _ w' => Settled w') (Leaves R) w

theorem Settled.leaves (h : Settled w) (ha : SameStore w.store w'.store) (hR : R w.mem) :
    Leaves R w' := by
  intro d hd
  exact ⟨w.mem, hR, h.mirrors.of_agrees (h.quiet.survives ha hd).symm⟩

theorem Settled.leaves_put (h : Settled w)
    (ha : SameStore (w.store.put name (replacement data)) w'.store) (hold : R w.mem) (hnew : R q')
    (hmirrors : Mirrors q' (w.store.live.insert name (replacement data))) : Leaves R w' := by
  intro d hd
  rcases h.quiet.survives_put rfl ha hd with hsame | hchanged
  · exact ⟨w.mem, hold, h.mirrors.of_agrees hsame.symm⟩
  · exact ⟨q', hnew, hmirrors.of_agrees hchanged.symm⟩

theorem Settled.leaves_del (h : Settled w) (ha : SameStore (w.store.del name) w'.store)
    (hold : R w.mem) (hnew : R q') (hmirrors : Mirrors q' (w.store.live.erase name)) :
    Leaves R w' := by
  intro d hd
  rcases h.quiet.survives_del ha hd with hsame | hchanged
  · exact ⟨w.mem, hold, h.mirrors.of_agrees hsame.symm⟩
  · exact ⟨q', hnew, hmirrors.of_agrees hchanged.symm⟩

theorem Settled.put_sync (h : Settled w)
    (ha : SameStore (w.store.put name (replacement data)).sync w'.store)
    (hmirrors : Mirrors w'.mem (w.store.live.insert name (replacement data))) : Settled w' := by
  refine ⟨hmirrors.of_agrees ha.live, (Store.quiet_sync fun n f hn hf => ?_).of_agrees ha⟩
  rw [Store.put_live, lookup_insert_ite] at hf
  split at hf
  · cases hf
    rfl
  · exact h.quiet.flushed n f hn hf

theorem Settled.del_sync (h : Settled w) (ha : SameStore (w.store.del name).sync w'.store)
    (hmirrors : Mirrors w'.mem (w.store.live.erase name)) : Settled w' := by
  refine ⟨hmirrors.of_agrees ha.live, (Store.quiet_sync fun n f hn hf => ?_).of_agrees ha⟩
  exact h.quiet.flushed n f hn (lookup_of_erase hf)

theorem Settled.of_sameButFaults (h : Settled w) (hs : SameButFaults w.mem q') :
    Settled { w with mem := q' } := ⟨h.mirrors.of_sameButFaults hs, h.quiet⟩

theorem wp_settled_commitFile {change : DurableQueue → DurableQueue} (h : Settled w)
    (hnofail : .fails ∉ w.script)
    (hmirrors : Mirrors (change w.mem) (w.store.live.insert name (replacement data)))
    (hold : R w.mem) (hnew : R (change w.mem)) : wpSettled R (commitFile name data change) w := by
  refine wp_commitFile (fun w' _ hm _ ha => ?_) (fun w' h6 _ _ => absurd h6.mem hnofail)
    (fun e w' _ he _ _ => absurd he.mem hnofail) fun w' hm ha => ?_
  · exact h.put_sync ha (hm ▸ hmirrors)
  · rcases ha with ha | ha
    · exact h.leaves ha hold
    · exact h.leaves_put ha hold hnew hmirrors

theorem wp_settled_removeSidecar {kind : Sidecar} (h : Settled w) (hnofail : .fails ∉ w.script)
    (hold : R w.mem) (hnew : R (kind.forget id w.mem)) :
    wp (removeSidecar kind id) (fun r w' => Settled w' ∧ r = .ok () ∧
      w'.mem = kind.forget id w.mem ∧ .fails ∉ w'.script) (Leaves R) w := by
  refine wp_removeSidecar (fun habsent => ?_) (fun w' _ _ hm hs hstore => ?_)
    (fun e w' _ hfails _ _ => ?_) fun w' hm hstore => ?_
  · exact ⟨h, rfl, (forget_of_absent habsent).symm, hnofail⟩
  · have ha : SameStore (w.store.del (kind.file id)).sync w'.store := by
      rw [hstore]
      exact Store.Agrees.refl _
    refine ⟨h.del_sync ha ?_, rfl, hm, ?_⟩
    · rw [hm]
      exact h.mirrors.forget kind id
    · rw [hs]
      exact fun hin => hnofail (List.mem_of_mem_drop hin)
  · rcases hfails with h0 | h1
    · exact absurd h0.mem hnofail
    · exact absurd h1.mem hnofail
  · rcases hstore with hstore | hstore
    · exact h.leaves (hstore ▸ Store.Agrees.refl _) hold
    · exact h.leaves_del (hstore ▸ Store.Agrees.refl _) hold hnew (h.mirrors.forget kind id)

theorem wp_settled_retireRecord {record : QueueRecord} (hid : record.id = id)
    (hhead : ∃ b rest, id = b :: rest ∧ b ≠ 46) (h : Settled w) (hnofail : .fails ∉ w.script)
    (hentry : w.mem.entries.lookup id = some record) (hold : R w.mem)
    (hnew : R (w.mem.removeEntry id)) : wpSettled R (retireRecord record id) w := by
  have hmirrors := h.mirrors.retired hhead
  -- the record's file is there to be removed
  have hpresent : w.store.live.lookup (recordFile id) ≠ none := by
    obtain ⟨u, -, hs⟩ := h.mirrors
    have hk := classify_recordFile hhead
    rw [hs.files _ (by simp [hk]) (by simp [hk]), hk]
    simp [Content.file, content, hentry]
  refine wp_retireRecord hid (fun w' hm hstore => ?_) (fun w' hkept _ _ => ?_)
    (fun w' h1 _ _ => absurd h1.mem hnofail) (fun w' h1 _ _ => absurd h1.mem hnofail)
    (fun e w' h1 _ _ _ _ => absurd h1.mem hnofail) fun w' hm hstore => ?_
  · exact h.del_sync (hstore ▸ Store.Agrees.refl _) (hm ▸ hmirrors)
  · rcases hkept with hnone | h0
    · exact absurd hnone hpresent
    · exact absurd h0.mem hnofail
  · rcases hstore with ha | ha | ⟨h1, -⟩
    · exact h.leaves ha hold
    · exact h.leaves_del ha hold hnew hmirrors
    · exact absurd h1.mem hnofail

theorem wp_settled_removeLocked (hq : Consistent w.mem) (h : Settled w)
    (hnofail : .fails ∉ w.script) :
    wpSettled (fun q => ∃ r, Effect (.remove id) w.mem r q) (removeLocked id) w := by
  unfold wpSettled removeLocked removeHoldLocked removeBackoffLocked
  simp only [wp_bind, wp_getMem]
  cases hlookup : w.mem.entries.lookup id with
  | none => exact h
  | some record =>
    have hkept : ∃ r, Effect (.remove id) w.mem r w.mem := ⟨_, .refused .notFound⟩
    have hunheld : ∃ r, Effect (.remove id) w.mem r (Sidecar.hold.forget id w.mem) :=
      ⟨_, .unheld .notFound⟩
    have hbared : ∃ r, Effect (.remove id) w.mem r (w.mem.withoutSidecars id) :=
      ⟨_, .bared .notFound⟩
    obtain ⟨hsound, hid⟩ := hq.sound id record hlookup
    have hhead : ∃ b rest, id = b :: rest ∧ b ≠ 46 := by
      rw [← hid, hsound.identity]
      exact head_artifactID _ _
    simp only [wp_bind]
    refine wp_post (wp_settled_removeSidecar h hnofail hkept hunheld) ?_
    rintro r₁ w₁ ⟨h₁, rfl, hm₁, hnofail₁⟩
    simp only [wp_bind]
    rw [← hm₁] at hunheld
    have hbared₁ : ∃ r, Effect (.remove id) w.mem r (Sidecar.backoff.forget id w₁.mem) := by
      rw [hm₁]
      exact hbared
    refine wp_post (wp_settled_removeSidecar h₁ hnofail₁ hunheld hbared₁) ?_
    rintro r₂ w₂ ⟨h₂, rfl, hm₂, hnofail₂⟩
    have hbare : w₂.mem = w.mem.withoutSidecars id := by rw [hm₂, hm₁, withoutSidecars]
    refine wp_settled_retireRecord hid hhead h₂ hnofail₂ ?_ ?_ ?_
    · rw [hbare]
      exact hlookup
    · rw [hbare]
      exact hbared
    · rw [hbare]
      exact ⟨_, .retired record hlookup⟩

/-- The record of the unconfigured devices: whatever of it a crash leaves is acceptable. -/
theorem wp_settled_writeUnconfiguredLocked (hq : DevicesKept w.mem) (h : Settled w)
    (hnofail : .fails ∉ w.script) (hR : R w.mem) : wpSettled R writeUnconfiguredLocked w := by
  obtain ⟨u, hu, hs⟩ := h.mirrors
  have hremoved : Mirrors w.mem (w.store.live.erase unconfiguredFileName) :=
    ⟨none, by simp, hs.delUnconfigured⟩
  have hwritten : Mirrors w.mem (w.store.live.insert unconfiguredFileName
      (replacement w.mem.unconfiguredRecord.marshal)) :=
    ⟨some _, by simpa using hq.acceptable, hs.putUnconfigured _⟩
  by_cases hempty : w.mem.unconfigured = ∅ ∧ w.mem.unconfiguredOverflow = false
  · have hwrite : w.mem.unconfiguredWrite w.store = w.store.del unconfiguredFileName :=
      if_pos hempty
    refine wp_writeUnconfiguredLocked (fun w' hsame ha => ?_)
      (fun e w' hfails _ _ => absurd hfails hnofail) fun w' hm ha => ?_
    · rw [hwrite] at ha
      exact h.del_sync ha (hremoved.of_sameButFaults hsame)
    · rw [hwrite] at ha
      rcases ha with ha | ha
      · exact h.leaves ha hR
      · exact h.leaves_del ha hR hR hremoved
  · have hwrite : w.mem.unconfiguredWrite w.store
        = w.store.put unconfiguredFileName (replacement w.mem.unconfiguredRecord.marshal) :=
      if_neg hempty
    refine wp_writeUnconfiguredLocked (fun w' hsame ha => ?_)
      (fun e w' hfails _ _ => absurd hfails hnofail) fun w' hm ha => ?_
    · rw [hwrite] at ha
      exact h.put_sync ha (hwritten.of_sameButFaults hsame)
    · rw [hwrite] at ha
      rcases ha with ha | ha
      · exact h.leaves ha hR
      · exact h.leaves_put ha hR hR hwritten

end Programs

end DurableQueue

open DurableQueue

/-- **An operation none of whose calls fails settles the queue**, and a crash inside it leaves one
of its effects. -/
theorem wp_settled (op : QueueOp) (hq : Within opts w.mem) (h : Settled w)
    (hnofail : .fails ∉ w.script) : wpSettled (fun q => ∃ r, Effect op w.mem r q) op.program w := by
  have hkept : ∃ r, Effect op w.mem r w.mem := ⟨_, .refused .notFound⟩
  cases op with
  | enqueue now kind payload =>
    refine wp_program_enqueue (wp_enqueueOutbound (fun _ => h) fun hkind => ?_)
    refine wp_enqueueOrFind (fun _ _ => h) (fun _ _ => h) fun hadmits => ?_
    exact wp_settled_commitFile h hnofail (h.mirrors.admitted now kind payload) hkept
      ⟨_, .admitted hkind hadmits⟩
  | stage now kind payload =>
    refine wp_program_stage (wp_enqueueOrFind (fun _ _ => h) (fun _ _ => h) fun hadmits => ?_)
    exact wp_settled_commitFile h hnofail (h.mirrors.admitted now kind payload) hkept
      ⟨_, .staged hadmits⟩
  | remove id =>
    refine wp_remove (wp_post (wp_settled_removeLocked hq.toConsistent h hnofail) ?_)
    exact fun r w' hw' q' hs => hw'.of_sameButFaults hs
  | hold record =>
    refine wp_hold (fun _ => h) fun queued hlookup hcheck => ?_
    exact wp_settled_commitFile h hnofail (h.mirrors.held _ _) hkept
      ⟨_, .held queued hlookup hcheck⟩
  | setBackoff record =>
    refine wp_setBackoff (fun _ => h) fun queued hlookup hcheck => ?_
    exact wp_settled_commitFile h hnofail (h.mirrors.backedOff _ _) hkept
      ⟨_, .backedOff queued hlookup hcheck⟩
  | clearBackoff id =>
    refine wp_clearBackoff (fun _ => h) (wp_post
      (wp_settled_removeSidecar h hnofail hkept ⟨_, .cleared⟩) ?_)
    exact fun r w' hw' q' hs => hw'.1.of_sameButFaults hs
  | probe body =>
    have hprobed := h.mirrors.probe (replacement body)
    refine wp_probe (fun w' hs ha => ?_) (fun e w' hfails _ _ => absurd hfails hnofail)
      fun w' hm ha => ?_
    · exact h.put_sync ha (hprobed.of_sameButFaults hs)
    · rcases ha with ha | ha
      · exact h.leaves ha hkept
      · exact h.leaves_put ha hkept hkept hprobed
  | noteUnconfiguredDevice device =>
    refine wp_noteUnconfiguredDevice (fun q' hs _ => h.of_sameButFaults hs) fun q' hc _ _ => ?_
    have h' : Settled { w with mem := q' } := ⟨h.mirrors.of_unconfiguredChange hc, h.quiet⟩
    exact wp_settled_writeUnconfiguredLocked (hq.of_unconfiguredChange hc).devices_kept h' hnofail
      ⟨.ok (), .noted _ hc⟩
  | noteAdmittedDevice device =>
    refine wp_noteAdmittedDevice h fun q' hc _ => ?_
    have h' : Settled { w with mem := q' } := ⟨h.mirrors.of_unconfiguredChange hc, h.quiet⟩
    refine wp_post (wp_settled_writeUnconfiguredLocked
      (hq.of_unconfiguredChange hc).devices_kept h' hnofail ⟨_, .notedAdmitted hc⟩) ?_
    exact fun r w' hw' q'' hs => hw'.of_sameButFaults hs

theorem QueueCall.settled {c : QueueCall} (hq : Within opts w.mem) (h : Settled w)
    (hnofail : .fails ∉ c.script) :
    wpSettled (fun q => ∃ r, Effect c.op w.mem r q) c.op.program { w with script := c.script } :=
  wp_settled c.op (w := { w with script := c.script }) hq ⟨h.mirrors, h.quiet⟩ hnofail

/-! ## Runs -/

/-- **A run none of whose calls fails settles the queue.** -/
theorem settled_runCalls {cs : List QueueCall} {n : Nat} {w' : World DurableQueue} {trace : Trace}
    (hops : ∀ c ∈ cs, c.op.outbound = true) (hnofail : ∀ c ∈ cs, .fails ∉ c.script)
    (hq : Within opts w.mem) (hroom : Roomy (n + cs.length) w.mem) (h : Settled w)
    (hrun : runCalls cs w = .done trace w') : Within opts w'.mem ∧ Roomy n w'.mem ∧ Settled w' := by
  refine runCalls_induction
    (I := fun n w => Within opts w.mem ∧ Roomy n w.mem ∧ Settled w)
    (P := fun c => c.op.outbound = true ∧ .fails ∉ c.script) ?_
    (fun c hc => ⟨hops c hc, hnofail c hc⟩) ⟨hq, hroom, h⟩ hrun
  intro n c w result w' ⟨hop, hfail⟩ ⟨hq, hroom, h⟩ hcall
  have heffect := QueueCall.effect hq.toConsistent hcall
  exact ⟨heffect.within hop hq hroom.next_lt, heffect.roomy hroom,
    (QueueCall.settled hq h hfail).done hcall⟩

theorem lookup_runCalls {cs : List QueueCall} {n : Nat} {w' : World DurableQueue} {trace : Trace}
    {id : Bytes} {r : QueueRecord} (hkept : ∀ c ∈ cs, c.op ≠ .remove id)
    (hroom : Roomy (n + cs.length) w.mem) (hr : w.mem.entries.lookup id = some r)
    (hrun : runCalls cs w = .done trace w') : w'.mem.entries.lookup id = some r := by
  refine (runCalls_induction (I := fun n w => Roomy n w.mem ∧ w.mem.entries.lookup id = some r) ?_
    hkept ⟨hroom, hr⟩ hrun).2
  intro n c w result w' hkept ⟨hroom, hr⟩ hcall
  have heffect := QueueCall.effect hroom.toConsistent hcall
  exact ⟨heffect.roomy hroom, heffect.lookup hkept hr⟩

/-- **A crash**, and a directory it may leave: between two operations, or before some file-system
call of an operation in flight. -/
inductive Crash (w : World DurableQueue) : Option QueueOp → Directory → Prop where
  | between {d : Directory} (hd : w.store.Survives d) : Crash w none d
  /-- An operation is in flight, none of whose calls failed. -/
  | inside {c : QueueCall} {w' : World DurableQueue} {d : Directory}
      (hop : c.op.outbound = true) (hnofail : .fails ∉ c.script) (hrun : c.run w = .crashed w')
      (hd : w'.store.Survives d) : Crash w (some c.op) d

/-- The memories a crash may restore: the one there was, or an effect of the operation in flight. -/
def Restorable (inFlight : Option QueueOp) (q m : DurableQueue) : Prop :=
  m = q ∨ ∃ op r, inFlight = some op ∧ Effect op q r m

/-- **A settled queue recovers from a crash**: what it leaves opens, with everything that one of the
restorable memories holds. -/
theorem DurableQueue.Settled.recovers {inFlight : Option QueueOp} {d : Directory}
    (hopts : Usable opts) (hq : Within opts w.mem) (hroom : w.mem.nextSeq < maxInt64)
    (h : Settled w) (hcrash : Crash w inFlight d) :
    ∃ q' m, openDurableQueueOutbound opts d = .ok q' ∧ Restorable inFlight w.mem m ∧
      q'.entries = m.entries ∧ q'.holds = m.holds ∧ q'.backoffs = m.backoffs ∧
      Within opts q' := by
  -- whichever directory is left mirrors some restorable memory
  have hmirrors : ∃ m, Restorable inFlight w.mem m ∧ Within opts m ∧ Mirrors m d := by
    cases hcrash with
    | between hd =>
      have hsame := h.quiet.survives (Store.Agrees.refl _) hd
      exact ⟨w.mem, .inl rfl, hq, h.mirrors.of_agrees hsame.symm⟩
    | inside hop hnofail hrun hd =>
      obtain ⟨m, ⟨r, heffect⟩, hm⟩ := (QueueCall.settled hq h hnofail).crashed hrun _ hd
      exact ⟨m, .inr ⟨_, r, rfl, heffect⟩, heffect.within hop hq hroom, hm⟩
  obtain ⟨m, hm, hwithin, u, hu, hs⟩ := hmirrors
  obtain ⟨q', hopen, hholds, hwithin'⟩ :=
    hwithin.reopens hopts hs (hwithin.valid_content hu) rfl
  exact ⟨q', m, hopen, hm, hholds.entries, hholds.holds, hholds.backoffs, hwithin'⟩

theorem settled_of_fresh {q : DurableQueue}
    (h : openDurableQueueOutbound opts freshDirectory = .ok q) (temps : Nat) :
    Settled (openedWorld q freshDirectory temps) := by
  have hagrees := Directory.agrees_withoutScratch queueTempPrefix freshDirectory
  obtain ⟨-, hentries, hholds, hbackoffs⟩ := within_of_fresh h
  have hcontent : noContent = q.content none := by
    rw [content, hentries, hholds, hbackoffs, noContent]
  refine ⟨⟨none, by simp, ?_⟩, Store.quiet_ofDirectory fun n f hn hf => ?_⟩
  · exact hcontent ▸ stores_freshDirectory.of_agrees hagrees
  · rw [← hagrees n hn, freshDirectory, lookup_insert_ite] at hf
    split at hf
    · cases hf
      rfl
    · cases hf

/-- **No crash loses a record.** From a queue that was created and opened, after any run of fewer
than `2 ^ 62` operations none of whose calls fails, let the process crash between two operations or
at any point inside one. Whatever directory is left opens again, and gives exactly the records, the
order and the sidecars memory had, or those of an effect of the operation in flight; no sidecar is
there without its record; and the record of every admission that returned and whose retirement was
not called is there. -/
theorem crash_recovers {opts : QueueOptions} {q : DurableQueue}
    (hopen : openDurableQueueOutbound opts freshDirectory = .ok q) (temps : Nat)
    {calls : List QueueCall} (hcalls : calls.length < 2 ^ 62)
    (hops : ∀ c ∈ calls, c.op.outbound = true) (hnofail : ∀ c ∈ calls, .fails ∉ c.script)
    {trace : Trace} {w : World DurableQueue}
    (hrun : runCalls calls (openedWorld q freshDirectory temps) = .done trace w)
    {inFlight : Option QueueOp} {d : Directory} (hcrash : Crash w inFlight d) :
    ∃ q' m, openDurableQueueOutbound opts d = .ok q' ∧ Restorable inFlight w.mem m ∧
      q'.entries = m.entries ∧ q'.order = m.order ∧ q'.holds = m.holds ∧
      q'.backoffs = m.backoffs ∧ q'.holds.keys ⊆ q'.entries.keys ∧
      q'.backoffs.keys ⊆ q'.entries.keys ∧
      ∀ before now kind payload script after trace₁ w₁ w₂,
        calls = before ++ ⟨.enqueue now kind payload, script⟩ :: after →
        runCalls before (openedWorld q freshDirectory temps) = .done trace₁ w₁ →
        QueueCall.run ⟨.enqueue now kind payload, script⟩ w₁ = .done (.ok ()) w₂ →
        (∀ c ∈ after, c.op ≠ .remove (artifactID kind payload)) →
        inFlight ≠ some (.remove (artifactID kind payload)) →
        q'.entries.lookup (artifactID kind payload)
          = some ((w₁.mem.entries.lookup (artifactID kind payload)).getD
              (w₁.mem.newRecord now kind payload)) := by
  have hfresh := (within_of_fresh hopen).1
  have hsettled := settled_of_fresh hopen temps
  have husable := usable_of_open (openDurableQueueOutbound_ok.mp hopen).1
  have hstart : Roomy (1 + calls.length) q := roomy_of_fresh hopen (by omega)
  obtain ⟨hq, hroom, h⟩ := settled_runCalls hops hnofail hfresh hstart hsettled hrun
  obtain ⟨q', m, hopen', hm, hentries, hholds, hbackoffs, hwithin⟩ :=
    h.recovers husable hq hroom.next_lt hcrash
  have hconsistent : Consistent m := by
    rcases hm with rfl | ⟨op, r, -, heffect⟩
    · exact hq.toConsistent
    · exact (heffect.roomy hroom).toConsistent
  refine ⟨q', m, hopen', hm, hentries,
    order_eq_of_entries hwithin.toConsistent hconsistent hentries, hholds, hbackoffs,
    hwithin.holds_keys, hwithin.backoffs_keys, ?_⟩
  intro before now kind payload script after trace₁ w₁ w₂ hsplit hbefore hadmitted hafter hflight
  subst hsplit
  -- the admission leaves its record in memory, and nothing retires it until the crash
  obtain ⟨trace₁', w₁', trace₂, hbefore', hrest⟩ := runCalls_append hrun
  obtain ⟨rfl, rfl⟩ : trace₁' = trace₁ ∧ w₁' = w₁ := by
    rw [hbefore] at hbefore'
    cases hbefore'
    exact ⟨rfl, rfl⟩
  obtain ⟨result, w₂', rest, hcall, hrest', -⟩ := runCalls_cons hrest
  obtain ⟨rfl, rfl⟩ : result = .ok () ∧ w₂' = w₂ := by
    rw [hadmitted] at hcall
    cases hcall
    exact ⟨rfl, rfl⟩
  have hstart₁ : Roomy (after.length + 1 + before.length) q :=
    hstart.mono (by simp only [List.length_append, List.length_cons]; omega)
  obtain ⟨-, hroom₁, -⟩ := settled_runCalls (fun c hc => hops c (by simp [hc]))
    (fun c hc => hnofail c (by simp [hc])) hfresh hstart₁ hsettled hbefore
  have heffect := QueueCall.effect hroom₁.toConsistent hcall
  have hrecord := heffect.lookup_enqueue rfl rfl
  have hroom₂ : Roomy (0 + after.length) w₂'.mem := (heffect.roomy hroom₁).mono (by omega)
  have hkept := lookup_runCalls hafter hroom₂ hrecord hrest'
  rw [hentries]
  rcases hm with rfl | ⟨op, r, hop, hinside⟩
  · exact hkept
  · exact hinside.lookup (fun heq => hflight (hop.trans (congrArg some heq))) hkept

def returnedCalls : List QueueCall :=
  [⟨.enqueue 1 .checkpoint (ascii "\x7b\"device_id\":\"d\"\x7d"), []⟩]

/-- An admission that crashes between its rename and the directory's flush. -/
def crashedCall : QueueCall :=
  ⟨.enqueue 2 .checkpoint (ascii "\x7b\"device_id\":\"e\"\x7d"),
    [.done, .done, .done, .done, .done, .done, .crashes]⟩

/-- The second admission's record is lost by this crash, and the first one's is there. -/
theorem crash_recovers_crashedCall :
    ∃ (trace : Trace) (w w' : World DurableQueue) (q' m : DurableQueue),
      runCalls returnedCalls (openedWorld (emptyQueue plainOptions) freshDirectory 0)
        = .done trace w ∧ Crash w (some crashedCall.op) w'.store.durable ∧
      openDurableQueueOutbound plainOptions w'.store.durable = .ok q' ∧
      Restorable (some crashedCall.op) w.mem m ∧ q'.entries = m.entries ∧ q'.order = m.order := by
  obtain ⟨trace, w, hrun, hinside⟩ := Exec.returns_iff.mp (by decide +kernel :
    (runCalls returnedCalls (openedWorld (emptyQueue plainOptions) freshDirectory 0)).returns
      (fun _ w => (crashedCall.run w).crashes fun w' =>
        (Directory.files w'.store.durable).all fun file => file.2.synced) = true)
  obtain ⟨w', hcrashed, hsynced⟩ := Exec.crashes_iff.mp hinside
  have hd : w'.store.Survives w'.store.durable := Store.survives_durable fun n f hf =>
    List.all_eq_true.mp hsynced (n, f) (Directory.mem_files.mpr hf)
  have hcrash : Crash w (some crashedCall.op) w'.store.durable :=
    .inside rfl (by decide) hcrashed hd
  obtain ⟨q', m, hopen, hm, hentries, horder, -⟩ := crash_recovers
    openDurableQueueOutbound_plainOptions 0 (by decide) (by decide) (by decide) hrun hcrash
  exact ⟨trace, w, w', q', m, hrun, hcrash, hopen, hm, hentries, horder⟩

end OriGateway
