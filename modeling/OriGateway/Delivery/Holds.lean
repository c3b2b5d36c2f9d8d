import OriGateway.Delivery.Acceptance

/-! # Held heads

A record that was refused for good is never sent again by the process, and never leaves the queue:
neither one whose hold was called in the process, whether or not the hold could be written, nor one
for which the queue was opened with a durable hold. **`Barred`** is what keeps a record from being
sent, and every step keeps it. -/

namespace OriGateway

variable {q q' : DurableQueue}

open Foundation DurableQueue

/-! ## Durable holds -/

def HoldsNamed (q : DurableQueue) : Prop := ∀ id r, q.holds.lookup id = some r → r.queueRecord = id

theorem HoldsNamed.insert (h : HoldsNamed q) {id : Bytes} {record : HoldRecord}
    (hid : record.queueRecord = id) : HoldsNamed { q with holds := q.holds.insert id record } := by
  exact forall_lookup_insert h hid

theorem HoldsNamed.forget (h : HoldsNamed q) (kind : Sidecar) (id : Bytes) :
    HoldsNamed (kind.forget id q) := by
  cases kind with
  | hold => exact fun id' r hr => h id' r (lookup_of_erase hr)
  | backoff => exact h

theorem Effect.holdsNamed {op : QueueOp} {result : Except QueueError Unit}
    (h : Effect op q result q') (hq : HoldsNamed q) : HoldsNamed q' := by
  induction h with
  | refused | found | admitted | foundStaged | staged | backedOff | probed => exact hq
  | held => exact hq.insert rfl
  | cleared => exact hq.forget .backoff _
  | unheld => exact hq.forget .hold _
  | @bared id q => exact (hq.forget .hold id).forget .backoff id
  | @retired id q => exact (hq.forget .hold id).forget .backoff id
  | noted _ hc =>
    rw [hc.same]
    exact hq
  | notedAdmitted hc =>
    rw [hc.same]
    exact hq
  | faults _ hs ih =>
    rw [hs]
    exact ih hq

/-- **A hold stays until its record is retired.** -/
theorem Effect.held_isSome {op : QueueOp} {result : Except QueueError Unit}
    (h : Effect op q result q') {id : Bytes} (hop : op ≠ .remove id)
    (hid : (q.holds.lookup id).isSome) : (q'.holds.lookup id).isSome := by
  have herase : ∀ (q : DurableQueue) (id' : Bytes), id' ≠ id → (q.holds.lookup id).isSome →
      ((q.holds.erase id').lookup id).isSome := by
    intro q id' hne hid
    rwa [lookup_erase_ite, if_neg (Ne.symm hne)]
  induction h with
  | refused | found | admitted | foundStaged | staged | backedOff | probed | cleared => exact hid
  | @held record q =>
    change ((q.holds.insert record.queueRecord record.versioned).lookup id).isSome
    rw [lookup_insert_ite]
    split
    · rfl
    · exact hid
  | @unheld id' q | @bared id' q | @retired id' q =>
    exact herase q id' (fun heq => hop (congrArg _ heq)) hid
  | noted _ hc =>
    rw [hc.same]
    exact hid
  | notedAdmitted hc =>
    rw [hc.same]
    exact hid
  | faults _ hs ih =>
    rw [hs]
    exact ih hop hid

theorem queueRecord_of_validateHoldRecord {record : HoldRecord} {queued : QueueRecord}
    (h : validateHoldRecord record queued = .ok ()) : record.queueRecord = queued.id := by
  by_contra hne
  unfold validateHoldRecord at h
  split_ifs at h

theorem holdsNamed_of_load {d : Directory} (hq : Loading ⟨q, ∅, [], [], false⟩)
    (h : load q d = .ok q') (hbelow : Below q'.entries) : HoldsNamed q' := by
  obtain ⟨st, q₁, q₂, hloading, hholds, hbackoffs, hdevices⟩ := load_ok hq h hbelow
  have hempty : HoldsNamed st.queue.sortOrder := by
    intro id r hr
    change st.queue.holds.lookup id = some r at hr
    rw [hloading.holds] at hr
    cases hr
  have h₁ : Loaded q₁ ∧ HoldsNamed q₁ := by
    refine foldlM_ok_induction (I := fun q => Loaded q ∧ HoldsNamed q) ?_ ⟨hloading.sorted, hempty⟩
      hholds
    rintro q name q' ⟨hq, hnamed⟩ hname
    refine ⟨hq.loadHold hname, ?_⟩
    obtain ⟨record, queued, hlookup, hcheck, rfl⟩ := loadHold_ok hname
    refine hnamed.insert ?_
    rw [queueRecord_of_validateHoldRecord hcheck, (hq.sound _ _ hlookup).2]
  have h₂ : q₂.holds = q₁.holds := by
    refine foldlM_ok_induction (I := fun q => q.holds = q₁.holds) ?_ rfl hbackoffs
    intro q name q' hq hname
    obtain ⟨record, queued, -, -, rfl⟩ := loadBackoff_ok hname
    exact hq
  have h₃ : q'.holds = q₂.holds := by rw [loadUnconfigured_same hdevices]
  intro id r hr
  rw [h₃, h₂] at hr
  exact h₁.2 id r hr

/-! ## What a lane's step does to its hold -/

/-- The artifact a lane has committed to: it is not asked any more whether it is held. -/
def LanePhase.committed : LanePhase → Option QueuedArtifact
  | attempting a => some a
  | delivering a => some a
  | storing a _ _ _ => some a
  | removing a _ _ => some a
  | holding a _ _ => some a
  | _ => none

theorem LanePhase.committed_of_not_attempt {phase : LanePhase} (h : phase.attempt = false) :
    phase.committed = none := by
  cases phase <;> first | rfl | cases h

namespace DeliveryLane

variable {cfg : WorkerConfig} {env : LaneEnv} {l l' : DeliveryLane} {input : LaneInput}
  {a : QueuedArtifact}

theorem holds_hold (l : DeliveryLane) (record : HoldRecord) (persisted : Bool) :
    (l.hold record persisted).holds record.queueRecord = true := by
  simp [holds, hold]

theorem committed_step (h : l.step cfg env input = some l') (ha : l'.phase.committed = some a) :
    l.phase.committed = some a ∨ l.phase = .releasing (some a) ∧ l.holds a.id = false := by
  rcases attempt_step h with hnone | hattempt
  · rw [LanePhase.committed_of_not_attempt hnone] at ha
    cases ha
  generalize l'.phase = phase at hattempt ha
  cases hattempt with
  | peeked | adopted => cases ha
  | released b hphase hheld =>
    cases ha
    exact .inr ⟨hphase, hheld⟩
  | began _ hphase | refused _ _ hphase | accepted _ _ _ _ hphase | stored _ _ _ _ _ hphase
  | staged _ _ _ hphase =>
    rw [hphase]
    exact .inl ha

theorem adopted_step (h : l.step cfg env input = some l') (hphase : l'.phase = .releasing (some a))
    (hheld : l.holds a.id = true ∨ ∃ record, env.holdFor a.id = some record ∧
      record.queueRecord = a.id) : l'.holds a.id = true := by
  rcases attempt_step h with hnone | hattempt
  · rw [hphase] at hnone
    cases hnone
  rw [hphase] at hattempt
  cases hattempt with
  | adopted _ _ hl' =>
    subst hl'
    show (l.adoptDurableHold env a).holds a.id = true
    unfold adoptDurableHold
    split
    · assumption
    · next hnot =>
      rcases hheld with hheld | ⟨record, hrecord, hname⟩
      · exact absurd hheld hnot
      · rw [hrecord, ← hname]
        exact holds_hold l record true

theorem holds_step (h : l.step cfg env input = some l') (hheld : l.holds a.id = true)
    (hqueued : ∀ b, l.phase.queued = some b → b = a)
    (hempty : l.phase ≠ .adopting none ∧ l.phase ≠ .releasing none) : l'.holds a.id = true := by
  cases moves h with
  | looked attempts =>
    obtain ⟨_, _, heq, -⟩ := awaitDue_eq cfg l _ _ attempts
    rw [heq]
    exact hheld
  | woke | fired | ended | reminded | clamped | drained | peeked | began | staged | stored |
      unstored | removed |
      retired | opened | handed | failed | stalled | cleared | erased | counted | scheduled |
        saved |
      succeeded => exact hheld
  | adopted head hphase =>
    cases head with
    | none => exact absurd hphase hempty.1
    | some b =>
      obtain rfl := hqueued b (by rw [hphase]; rfl)
      show (l.adoptDurableHold env b).holds b.id = true
      rwa [adoptDurableHold, if_pos hheld]
  | released head hphase =>
    cases head with
    | none => exact absurd hphase hempty.2
    | some b =>
      obtain rfl := hqueued b (by rw [hphase]; rfl)
      rwa [released, if_pos hheld]
  | answered queued o =>
    rcases answered_cases cfg env l queued o with ⟨_, _, heq, -⟩ | ⟨_, _, heq, -⟩ |
      ⟨_, _, _, heq, -⟩
    all_goals
      rw [heq]
      exact hheld
  | held queued status reason t hphase =>
    obtain rfl := hqueued queued (by rw [hphase]; rfl)
    exact holds_hold l (holdRecord queued status reason (unixMilli t)) false
  | persisted =>
    simp only [holds, Option.any_map] at hheld ⊢
    exact hheld

theorem empty_step (h : l.step cfg env input = some l') (hhead : env.head = some a)
    (hempty : l.phase ≠ .adopting none ∧ l.phase ≠ .releasing none) :
    l'.phase ≠ .adopting none ∧ l'.phase ≠ .releasing none := by
  rcases attempt_step h with hnone | hattempt
  · constructor <;> rintro hphase <;> rw [hphase] at hnone <;> cases hnone
  generalize l'.phase = phase at hattempt
  cases hattempt with
  | peeked => simp [hhead]
  | adopted head hphase =>
    refine ⟨nofun, ?_⟩
    rintro heq
    cases heq
    exact hempty.1 hphase
  | released | began | refused | accepted | stored | staged => exact ⟨nofun, nofun⟩

theorem holds_restore (cfg : WorkerConfig) (backoffFor : Bytes → Option BackoffRecord)
    (wall mono now : Int) (hheld : l.holds a.id = true) (hhead : env.head = some a) :
    (l.restore cfg env backoffFor wall mono now).1.holds a.id = true := by
  have hadopt : l.adoptDurableHold env a = l := by rw [adoptDurableHold, if_pos hheld]
  rw [restore, hhead]
  dsimp only
  rw [hadopt]
  split <;> exact hheld

end DeliveryLane

/-! ## Records that are not sent -/

namespace Worker

/-- **What keeps an artifact from being sent**: it is queued, its hold is durable or its lane holds
it as its head, and no lane has committed to it. -/
structure Barred (w : Worker) (a : QueuedArtifact) : Prop where
  queued : a ∈ w.queue.mem.artifacts
  /-- It has a durable hold, or is the head of a lane that holds it. -/
  kept : (w.queue.mem.holds.lookup a.id).isSome ∨
    ∃ l, w.lanes.lookup a.lane = some l ∧ l.holds a.id = true ∧
    w.queue.mem.peekLane a.lane = some a ∧
      l.phase ≠ .adopting none ∧ l.phase ≠ .releasing none
  committed : ∀ key l, w.lanes.lookup key = some l → l.phase.committed ≠ some a
  adopted : ∀ key l, w.lanes.lookup key = some l → l.phase = .releasing (some a) →
    l.holds a.id = true

variable {w w' : Worker} {e : WorkerEvent} {a : QueuedArtifact} {n : Nat}

theorem holdsNamed_step (h : w.step e = some w') (hq : Consistent w.queue.mem)
    (hn : HoldsNamed w.queue.mem) : HoldsNamed w'.queue.mem := by
  rcases queue_change h with ⟨-, hqueue⟩ | ⟨c, result, hcall, hrun⟩
  · rw [hqueue]
    exact hn
  · exact (QueueCall.effect hq hrun).holdsNamed hn

theorem Barred.not_removed (hb : Barred w a) (hw : Heads n w) {c : QueueCall}
    (hcall : w.call e = some c) : c.op ≠ .remove a.id := by
  intro hop
  rcases call_cases hcall with ⟨-, hadmission⟩ | ⟨_, _, -, rfl⟩ |
    ⟨key, script, l, op, -, -, hl, hphase, rfl⟩
  · rw [hop] at hadmission
    cases hadmission
  · cases hop
  · cases hop
    obtain ⟨b, r, stored, hphase, hid⟩ := LanePhase.call_eq_remove hphase
    have hhead := hw.head key l b hl (by rw [hphase]; rfl)
    obtain rfl := hw.consistent.artifact_inj hb.queued (hw.consistent.of_peekLane hhead).1 hid
    exact hb.committed key l hl (by rw [hphase]; rfl)

theorem Barred.queued_step (hb : Barred w a) (hw : Heads n w) (h : w.step e = some w') :
    a ∈ w'.queue.mem.artifacts := by
  cases artifacts_change h hw.consistent with
  | same heq => exact heq ▸ hb.queued
  | appended c b hevent hnew heq => exact heq ▸ List.mem_append_left _ hb.queued
  | removed key script l b r stored hevent hl hphase hrun heq =>
    rw [heq]
    refine List.mem_filter.mpr ⟨hb.queued, ?_⟩
    have hne : a.id ≠ b.id := by
      intro hid
      have hhead := hw.head key l b hl (by rw [hphase]; rfl)
      obtain rfl := hw.consistent.artifact_inj hb.queued (hw.consistent.of_peekLane hhead).1 hid
      exact hb.committed key l hl (by rw [hphase]; rfl)
    simpa using hne

theorem Barred.held_step (hb : Barred w a) (hw : Heads (n + 1) w) (h : w.step e = some w')
    {l : DeliveryLane} (hl : w.lanes.lookup a.lane = some l) (hheld : l.holds a.id = true)
    (hhead : w.queue.mem.peekLane a.lane = some a)
    (hempty : l.phase ≠ .adopting none ∧ l.phase ≠ .releasing none) :
    ∃ l', w'.lanes.lookup a.lane = some l' ∧ l'.holds a.id = true ∧
      w'.queue.mem.peekLane a.lane = some a ∧ l'.phase ≠ .adopting none ∧
      l'.phase ≠ .releasing none := by
  -- nothing stands before the artifact in its lane, and it is not removed
  have hhead' : w'.queue.mem.peekLane a.lane = some a := by
    rcases laneArtifacts_change h hw a.lane with ⟨_, l₁, b, _, _, -, hl₁, hphase, hlist⟩ |
      ⟨extra, hextra⟩
    · rw [hw.consistent.peekLane_eq_head, hlist] at hhead
      cases hhead
      exact absurd (by rw [hphase]; rfl) (hb.committed a.lane l₁ hl₁)
    · rw [(roomy_step h hw.roomy).peekLane_eq_head, hextra, List.head?_append,
        ← hw.consistent.peekLane_eq_head, hhead, Option.some_or]
  have hchange := lane_change h a.lane
  rw [hl] at hchange
  generalize ho' : w'.lanes.lookup a.lane = o' at hchange
  generalize ho : some l = o at hchange
  cases hchange with
  | same => exact ⟨l, ho.symm, hheld, hhead', hempty⟩
  | created => cases ho
  | notified =>
    cases ho
    exact ⟨_, rfl, hheld, hhead', hempty⟩
  | restored _ wall mono now =>
    cases ho
    refine ⟨_, rfl, DeliveryLane.holds_restore _ _ wall mono now hheld hhead, hhead', ?_⟩
    rw [DeliveryLane.phase_restore]
    exact hempty
  | stepped _ l' input hrunning hsignals hdrives hstep =>
    cases ho
    refine ⟨l', rfl, ?_, hhead', DeliveryLane.empty_step hstep hhead hempty⟩
    refine DeliveryLane.holds_step hstep hheld (fun b hphase => ?_) hempty
    exact Option.some.inj ((hw.head a.lane l b hl hphase).symm.trans hhead)

theorem Barred.adopted_step (hb : Barred w a) (hw : Heads n w) (hn : HoldsNamed w.queue.mem)
    (h : w.step e = some w') {key : LaneKey} {l' : DeliveryLane}
    (hl' : w'.lanes.lookup key = some l') (hphase : l'.phase = .releasing (some a)) :
    l'.holds a.id = true := by
  have hchange := lane_change h key
  rw [hl'] at hchange
  generalize ho : w.lanes.lookup key = o at hchange
  generalize ho' : some l' = o' at hchange
  cases hchange with
  | same =>
    cases ho'
    exact hb.adopted key l' ho hphase
  | created =>
    cases ho'
    cases hphase
  | notified =>
    cases ho'
    cases o with
    | none => cases hphase
    | some l => exact hb.adopted key l ho hphase
  | restored _ wall mono now =>
    cases ho'
    rw [DeliveryLane.phase_restore] at hphase
    cases o with
    | none => cases hphase
    | some l =>
      refine DeliveryLane.holds_restore _ _ wall mono now (hb.adopted key l ho hphase) ?_
      exact hw.head key l a ho (by rw [Option.getD_some] at hphase; rw [hphase]; rfl)
  | stepped l _ input hrunning hsignals hdrives hstep =>
    cases ho'
    refine DeliveryLane.adopted_step hstep hphase ?_
    have hqueued : l'.phase.queued = some a := by rw [hphase]; rfl
    have hkey : key = a.lane := by
      rcases (DeliveryLane.queued_step hstep hqueued).1 with hfrom | hfrom
      · exact (hw.consistent.of_peekLane (hw.head key l a ho hfrom)).2.symm
      · exact (hw.consistent.of_peekLane hfrom).2.symm
    rcases hb.kept with hdurable | ⟨l₁, hl₁, hheld, -⟩
    · obtain ⟨record, hrecord⟩ := Option.isSome_iff_exists.mp hdurable
      exact .inr ⟨record, hrecord, hn _ _ hrecord⟩
    · rw [hkey, hl₁] at ho
      cases ho
      exact .inl hheld

/-- **Every step keeps an artifact barred.** -/
theorem Barred.step (hb : Barred w a) (hw : Heads (n + 1) w) (hn : HoldsNamed w.queue.mem)
    (h : w.step e = some w') : Barred w' a where
  queued := hb.queued_step hw h
  kept := by
    rcases hb.kept with hdurable | ⟨l, hl, hheld, hhead, hempty⟩
    · refine .inl ?_
      rcases queue_change h with ⟨-, hqueue⟩ | ⟨c, result, hcall, hrun⟩
      · rw [hqueue]
        exact hdurable
      · exact (QueueCall.effect hw.consistent hrun).held_isSome (hb.not_removed hw hcall) hdurable
    · exact .inr (hb.held_step hw h hl hheld hhead hempty)
  committed := by
    intro key l' hl' hcommitted
    rcases phase_change h hl' with hphase | ⟨l, hl, -, hphase⟩ | ⟨l, input, hl, -, hstep⟩
    · rw [hphase] at hcommitted
      cases hcommitted
    · exact hb.committed key l hl (hphase ▸ hcommitted)
    · rcases DeliveryLane.committed_step hstep hcommitted with hcommitted | ⟨hphase, hfree⟩
      · exact hb.committed key l hl hcommitted
      · rw [hb.adopted key l hl hphase] at hfree
        cases hfree
  adopted := fun _ _ hl' hphase => hb.adopted_step hw hn h hl' hphase

/-- **The hold bars the head**, before it is written. -/
theorem Barred.of_held (hw : Heads (n + 1) w) {key : LaneKey} {l : DeliveryLane} {status t : Int}
    {reason : Bytes} (hl : w.lanes.lookup key = some l)
    (hphase : l.phase = .holding a status reason) (h : w.step (.step key (.now t)) = some w') :
    Barred w' a := by
  have hhead := hw.head key l a hl (by rw [hphase]; rfl)
  obtain ⟨hmem, hkey⟩ := hw.consistent.of_peekLane hhead
  have hqueue : w'.queue = w.queue := by
    rcases queue_change h with ⟨-, hqueue⟩ | ⟨c, result, hcall, -⟩
    · exact hqueue
    · cases hcall
  -- the lane's own step is the hold
  have hlane : ∃ l', w'.lanes.lookup key = some l' ∧
      l' = { l.hold (DeliveryLane.holdRecord a status reason (unixMilli t)) false with
        phase := .persisting (DeliveryLane.holdRecord a status reason (unixMilli t)) } := by
    have hchange := lane_change h key
    rw [hl] at hchange
    generalize w'.lanes.lookup key = o' at hchange
    generalize ho : some l = o at hchange
    cases hchange with
    | same _ hactor => exact absurd rfl hactor
    | created hactor => exact absurd rfl hactor
    | notified _ hactor => exact absurd rfl hactor
    | restored _ _ _ _ hevent => cases hevent
    | stepped _ l' input _ _ hdrives hstep =>
      cases ho
      cases hdrives with
      | step =>
        cases DeliveryLane.moves hstep with
        | held _ _ _ _ hphase' =>
          rw [hphase] at hphase'
          cases hphase'
          exact ⟨_, rfl, rfl⟩
        | failed _ _ hphase' =>
          rw [hphase] at hphase'
          cases hphase'
  obtain ⟨l', hl', rfl⟩ := hlane
  -- no other lane works on the artifact
  have hother : ∀ key' l'', w'.lanes.lookup key' = some l'' → key' ≠ key →
      l''.phase.queued ≠ some a := by
    intro key' l'' hl'' hne hqueued
    have hhead' := (hw.step h).head key' l'' a hl'' hqueued
    exact hne (((hw.step h).consistent.of_peekLane hhead').2.symm.trans hkey)
  refine ⟨by rw [hqueue]; exact hmem, .inr ?_, ?_, ?_⟩
  · rw [hkey, hqueue]
    exact ⟨_, hl', DeliveryLane.holds_hold l _ false, hhead, nofun, nofun⟩
  · intro key' l'' hl'' hcommitted
    by_cases hne : key' = key
    · subst hne
      rw [hl'] at hl''
      cases hl''
      cases hcommitted
    · refine hother key' l'' hl'' hne ?_
      generalize l''.phase = phase at hcommitted
      cases phase <;> first | exact hcommitted | cases hcommitted
  · intro key' l'' hl'' hreleasing
    by_cases hne : key' = key
    · subst hne
      rw [hl'] at hl''
      cases hl''
      cases hreleasing
    · exact absurd (by rw [hreleasing]; rfl) (hother key' l'' hl'' hne)

theorem Barred.of_durable (config : WorkerConfig) {queue : World DurableQueue}
    (hq : Consistent queue.mem) {id : Bytes} (hid : (queue.mem.holds.lookup id).isSome) :
    ∃ a, Barred (newDeliveryWorker config queue) a ∧ a.id = id := by
  obtain ⟨record, hrecord⟩ := Option.isSome_iff_exists.mp hid
  have hmem : id ∈ queue.mem.artifacts.map (·.id) := by
    rw [hq.map_id_artifacts, hq.mem_order]
    exact hq.holds_keys (mem_keys_iff.mpr ⟨record, hrecord⟩)
  obtain ⟨a, ha, rfl⟩ := List.mem_map.mp hmem
  exact ⟨a, ⟨ha, .inl hid, (fun _ _ hl => by cases hl), (fun _ _ hl => by cases hl)⟩, rfl⟩

end Worker

/-! ## Over every run -/

/-- Something seen sends a record: it is passed to the channel, or leaves the queue. -/
def Act.Sends (id : Bytes) : Act → Prop
  | .lane _ (.delivered a) => a.id = id
  | .retired a => a.id = id
  | _ => False

def Act.Holds (id : Bytes) : Act → Prop
  | .lane _ (.held record) => record.queueRecord = id
  | _ => False

namespace Worker

variable {w w' : Worker} {e : WorkerEvent} {a : QueuedArtifact} {n : Nat}

theorem Barred.not_sends (hb : Barred w a) (hw : Heads n w) (h : w.step e = some w') :
    ∀ act ∈ w.acts e w', ¬ act.Sends a.id := by
  intro act hact hsends
  cases act with
  | admitted => exact hsends
  | retired b =>
    obtain ⟨hmem, hleft⟩ := mem_acts_retired hact
    obtain rfl := hw.consistent.artifact_inj hmem hb.queued hsends
    exact hleft (hb.queued_step hw h)
  | lane key act =>
    obtain ⟨input, l, rfl, hl, hact⟩ := mem_acts_lane hact
    cases act with
    | delivered b =>
      obtain ⟨hphase, -⟩ := DeliveryLane.act_eq_delivered hact
      have hhead := hw.head key l b hl (by rw [hphase]; rfl)
      obtain rfl := hw.consistent.artifact_inj (hw.consistent.of_peekLane hhead).1 hb.queued hsends
      exact hb.committed key l hl (by rw [hphase]; rfl)
    | refusedForState | held | backedOff => exact hsends

end Worker

/-- **What a run keeps to**: every record that was held, or has a durable hold since the queue was
opened, is barred, and nothing seen after its hold sends it. -/
structure HoldsKept (opened : DurableQueue) (n : Nat) (c : Courier) : Prop where
  heads : c.worker.Heads n
  named : HoldsNamed c.worker.queue.mem
  durable : ∀ id, (opened.holds.lookup id).isSome → ∃ a, c.worker.Barred a ∧ a.id = id
  held : ∀ id, ∀ act ∈ c.log, act.Holds id → ∃ a, c.worker.Barred a ∧ a.id = id
  /-- Nothing seen sends a record with a durable hold at the start. -/
  durable_sends : ∀ id, (opened.holds.lookup id).isSome → ∀ act ∈ c.log, ¬ act.Sends id
  held_sends : c.log.Pairwise fun earlier later => ∀ id, earlier.Holds id → ¬ later.Sends id

theorem HoldsKept.step {opened : DurableQueue} {c c' : Courier} {e : WorkerEvent} {n : Nat}
    (hc : HoldsKept opened (n + 1) c) (h : c.step e = some c') : HoldsKept opened n c' := by
  obtain ⟨w', hstep, rfl⟩ := Courier.step_eq_some.mp h
  have hkeep : ∀ id, (∃ a, c.worker.Barred a ∧ a.id = id) → ∃ a, w'.Barred a ∧ a.id = id := by
    rintro id ⟨a, hb, rfl⟩
    exact ⟨a, hb.step hc.heads hc.named hstep, rfl⟩
  have hsends : ∀ id, (∃ a, c.worker.Barred a ∧ a.id = id) → ∀ act ∈ c.worker.acts e w',
      ¬ act.Sends id := by
    rintro id ⟨a, hb, rfl⟩
    exact hb.not_sends hc.heads hstep
  -- a hold is seen alone
  have hholds : ∀ id, ∀ act ∈ c.worker.acts e w', act.Holds id →
      (∃ a, w'.Barred a ∧ a.id = id) ∧ c.worker.acts e w' = [act] := by
    intro id act hact hid
    cases act with
    | admitted | retired => cases hid
    | lane key act =>
      obtain ⟨input, l, rfl, hl, hlact⟩ := Worker.mem_acts_lane hact
      cases act with
      | delivered | refusedForState | backedOff => cases hid
      | held record =>
        obtain ⟨a, status, reason, t, hphase, rfl, rfl⟩ := DeliveryLane.act_eq_held hlact
        refine ⟨⟨a, .of_held hc.heads hl hphase hstep, hid⟩, ?_⟩
        rw [Worker.acts_step hstep, Worker.laneActs, hl, Option.bind_some, hlact]
        rfl
  refine ⟨hc.heads.step hstep, Worker.holdsNamed_step hstep hc.heads.consistent hc.named,
    fun id hid => hkeep id (hc.durable id hid), ?_, ?_, ?_⟩
  · intro id act hact hid
    rcases List.mem_append.mp hact with hact | hact
    · exact hkeep id (hc.held id act hact hid)
    · exact (hholds id act hact hid).1
  · intro id hid act hact
    rcases List.mem_append.mp hact with hact | hact
    · exact hc.durable_sends id hid act hact
    · exact hsends id (hc.durable id hid) act hact
  · refine List.pairwise_append.mpr ⟨hc.held_sends, ?_, ?_⟩
    · by_cases hany : ∃ id, ∃ act ∈ c.worker.acts e w', act.Holds id
      · obtain ⟨id, act, hact, hid⟩ := hany
        rw [(hholds id act hact hid).2]
        exact List.pairwise_singleton _ _
      · refine List.pairwise_of_forall_mem_list fun act hact _ _ id hid => ?_
        exact absurd ⟨id, act, hact, hid⟩ hany
    · intro earlier hearlier later hlater id hid
      exact hsends id (hc.held id earlier hearlier hid) later hlater

namespace Courier

/-- **A record that was refused for good is not sent again.** In every run of a process, of fewer
than `2 ^ 62` events and from any directory that opened with its places below that, whatever the
wakes, timers, admissions, answers of the channel and failures of the store, nothing seen after the
hold of a record passes it to the channel or retires it; and a record for which the queue was opened
with a durable hold is not passed to the channel or retired at all. -/
theorem held_never_sent {opts : QueueOptions} {d : Directory} {q : DurableQueue}
    (hopen : openDurableQueueOutbound opts d = .ok q) (hearly : EarlyPlaces q) (temps : Nat)
    (config : WorkerConfig) {es : List WorkerEvent} {c : Courier} (hevents : es.length < 2 ^ 62)
    (hrun : runAll Courier.step ⟨newDeliveryWorker config (openedWorld q d temps), []⟩ es
      = some c) :
    (c.log.Pairwise fun earlier later => ∀ id, earlier.Holds id → ¬ later.Sends id) ∧
      ∀ id, (q.holds.lookup id).isSome → ∀ act ∈ c.log, ¬ act.Sends id := by
  have hopen := (openDurableQueueOutbound_ok.mp hopen).1
  obtain ⟨-, -, -, q₀, hshares, hload⟩ := openDurableQueue_ok hopen
  have hq : Roomy (0 + es.length) q := hearly.roomy hopen (by omega)
  have hstart : HoldsKept q (0 + es.length)
    ⟨newDeliveryWorker config (openedWorld q d temps), []⟩ :=
    ⟨.new config hq, holdsNamed_of_load (loading_reserveShares hshares) hload hearly.below,
      fun id hid => Worker.Barred.of_durable config hq.toConsistent hid, nofun, nofun, .nil⟩
  have hkept := runAll_countdown (fun _ _ _ _ _ => HoldsKept.step) (stepsMeet_true _ es) hstart hrun
  exact ⟨hkept.held_sends, hkept.durable_sends⟩

end Courier

def refusedResult : DeliveryResult where
  accepted := false
  retriable := false
  retryAfter := 0
  receiverState := false
  refusalStatus := 400
  refusalReason := ascii "malformed"
  authorityArtifacts := []

/-- A head is refused for good, its hold cannot be written, and it is asked for again by a
handoff. -/
def heldHeadEvents : List WorkerEvent :=
  envelopeEvents ++ [.run, .step evidenceLane (.clock 0 0)] ++ attemptEvents evidenceLane 0 0 ++
    [.step evidenceLane (.outcome (.result refusedResult)), .step evidenceLane (.now 5000000),
      .call evidenceLane [.fails], .step evidenceLane (.now 6000000), .step evidenceLane .step,
      .call evidenceLane [], .notify evidenceLane] ++
    (attemptEvents evidenceLane 10 10).dropLast

/-- The head was held, without a durable hold, and is not sent again. -/
theorem held_never_sent_heldHeadEvents :
    ∃ (c : Courier) (id : Bytes), runAll Courier.step
        ⟨newDeliveryWorker plainConfig (openedWorld (emptyQueue plainOptions) freshDirectory 0), []⟩
        heldHeadEvents = some c ∧
      (∃ act ∈ c.log, act.Holds id) ∧ c.worker.queue.mem.holds.lookup id = none ∧
      c.log.Pairwise fun earlier later => ∀ id, earlier.Holds id → ¬ later.Sends id := by
  obtain ⟨c, hrun, heval⟩ := Option.map_eq_some_iff.mp (by decide +kernel : (runAll Courier.step
      ⟨newDeliveryWorker plainConfig (openedWorld (emptyQueue plainOptions) freshDirectory 0), []⟩
      heldHeadEvents).map (fun c => c.log.any fun act => match act with
        | .lane _ (.held record) => (c.worker.queue.mem.holds.lookup record.queueRecord).isNone
        | _ => false) = some true)
  obtain ⟨act, hact, hheld⟩ := List.any_eq_true.mp heval
  split at hheld
  · next record =>
    exact ⟨c, record.queueRecord, hrun, ⟨_, hact, rfl⟩, Option.isNone_iff_eq_none.mp hheld,
      (Courier.held_never_sent openDurableQueueOutbound_plainOptions
        (by simp [EarlyPlaces, emptyQueue]) 0
        plainConfig (by decide) hrun).1⟩
  · cases hheld

end OriGateway
