import OriGateway.Delivery.Worker
import OriGateway.Evidence.Crashes

/-! # The journal of the delivery worker

What can be seen of a worker from outside, in the order in which it happened: the artifacts that
were queued and retired, and what each lane did. The artifact a lane works on is its head until its
removal returns (**`Heads`**), so a lane retires nothing but its head; every other step leaves the
artifacts as they are, or appends one (**`Worker.artifacts_change`**). -/

namespace OriGateway

open Foundation DurableQueue

/-! ## What a lane does -/

/-- What a lane does that can be seen from outside. -/
inductive LaneAct where
  | delivered (a : QueuedArtifact)
  /-- Its attempt ends in a refusal for the receiver's state. -/
  | refusedForState (a : QueuedArtifact)
  | held (record : HoldRecord)
  | backedOff (id : Bytes) (delay : Int)
  deriving DecidableEq

/-- What a step does at the channel, if anything. -/
def DeliveryLane.act (cfg : WorkerConfig) (l : DeliveryLane) (input : LaneInput) : Option LaneAct :=
  match l.phase, input with
  | .attempting a, .step => some (.delivered a)
  | .delivering a, .outcome (.result r) =>
    if !r.accepted && !r.retriable && r.receiverState then some (.refusedForState a) else none
  | .holding a status reason, .now t => some (.held (holdRecord a status reason (unixMilli t)))
  | .scheduling attempts head floor, .clock _ _ =>
    some (.backedOff ((head.map (·.id)).getD []) (cfg.backoffDelay attempts floor))
  | _, _ => none

/-- What can be seen of the worker. -/
inductive Act where
  | admitted (a : QueuedArtifact)
  | retired (a : QueuedArtifact)
  | lane (key : LaneKey) (act : LaneAct)
  deriving DecidableEq

def changes (q q' : DurableQueue) : List Act :=
  (q.artifacts.filter fun a => a ∉ q'.artifacts).map .retired ++
    (q'.artifacts.filter fun a => a ∉ q.artifacts).map .admitted

def Worker.laneActs (w : Worker) : WorkerEvent → List Act
  | .step key input =>
    ((w.lanes.lookup key).bind fun l => l.act w.config input).toList.map (.lane key)
  | _ => []

def Worker.acts (w : Worker) (e : WorkerEvent) (w' : Worker) : List Act :=
  w.laneActs e ++ changes w.queue.mem w'.queue.mem

/-- A worker and its journal. -/
structure Courier where
  worker : Worker
  log : List Act

def Courier.step (c : Courier) (e : WorkerEvent) : Option Courier :=
  (c.worker.step e).map fun w' => ⟨w', c.log ++ c.worker.acts e w'⟩

theorem Courier.step_eq_some {c c' : Courier} {e : WorkerEvent} :
    c.step e = some c' ↔ ∃ w', c.worker.step e = some w' ∧
    c' = ⟨w', c.log ++ c.worker.acts e w'⟩ := by
  simp only [step, Option.map_eq_some_iff]
  exact ⟨fun ⟨w', h, heq⟩ => ⟨w', h, heq.symm⟩, fun ⟨w', h, heq⟩ => ⟨w', h, heq.symm⟩⟩

/-! ## Lanes of the queue -/

def DurableQueue.laneArtifacts (q : DurableQueue) (key : LaneKey) : List QueuedArtifact :=
  q.artifacts.filter fun a => a.lane = key

theorem DurableQueue.Consistent.peekLane_eq_head {q : DurableQueue} (h : Consistent q)
    (key : LaneKey) : q.peekLane key = (q.laneArtifacts key).head? := by
  rw [h.peekLane_eq, laneArtifacts, List.head?_filter]
  rfl

theorem DurableQueue.Consistent.of_peekLane {q : DurableQueue} (h : Consistent q) {key : LaneKey}
    {a : QueuedArtifact} (ha : q.peekLane key = some a) : a ∈ q.artifacts ∧ a.lane = key := by
  rw [h.peekLane_eq_head] at ha
  have hmem := List.mem_filter.mp (List.mem_of_mem_head? ha)
  exact ⟨hmem.1, by simpa using hmem.2⟩

theorem DurableQueue.Consistent.artifact_inj {q : DurableQueue} (h : Consistent q)
    {a b : QueuedArtifact} (ha : a ∈ q.artifacts) (hb : b ∈ q.artifacts) (hid : a.id = b.id) :
    a = b :=
  List.inj_on_of_nodup_map h.nodup_artifacts ha hb hid

/-! ## The artifact of an attempt -/

namespace DeliveryLane

variable {cfg : WorkerConfig} {env : LaneEnv} {l l' : DeliveryLane} {input : LaneInput}

theorem untilDue_eq (cfg : WorkerConfig) (l : DeliveryLane) (wall mono : Int) :
    ∃ wait notBefore clamp,
    l.untilDue cfg wall mono = (wait, { l with notBefore := notBefore }, clamp) := by
  unfold untilDue
  dsimp only
  split
  · exact ⟨_, _, _, rfl⟩
  · exact ⟨_, l.notBefore, none, rfl⟩

/-- **Where a look at the back-off leads**: only to an attempt if one may follow. -/
theorem awaitDue_eq (cfg : WorkerConfig) (l : DeliveryLane) (wall mono : Int) (attempts : Bool) :
    ∃ notBefore phase, l.awaitDue cfg wall mono attempts
      = { l with notBefore := notBefore, phase := phase } ∧
      (phase = .waiting ∨ (∃ r, phase = .clamping r false) ∨
        attempts = true ∧ (phase = .draining ∨ ∃ r, phase = .clamping r true)) := by
  obtain ⟨wait, notBefore, clamp, heq⟩ := untilDue_eq cfg l wall mono
  rw [awaitDue, heq]
  dsimp only
  generalize hdue : (attempts && decide (wait ≤ 0)) = due
  have hattempts : due = true → attempts = true := by
    rintro rfl
    exact (Bool.and_eq_true_iff.mp hdue).1
  cases clamp with
  | none =>
    refine ⟨notBefore, _, rfl, ?_⟩
    cases due with
    | true => exact .inr (.inr ⟨hattempts rfl, .inl rfl⟩)
    | false => exact .inl rfl
  | some record =>
    refine ⟨notBefore, _, rfl, ?_⟩
    cases due with
    | true => exact .inr (.inr ⟨hattempts rfl, .inr ⟨record, rfl⟩⟩)
    | false => exact .inr (.inl ⟨record, rfl⟩)

/-- **Where an answer leads**: to a failure, to a hold, or, when the acceptance is clean, to the
sink. -/
theorem answered_cases (cfg : WorkerConfig) (env : LaneEnv) (l : DeliveryLane)
    (queued : QueuedArtifact)
    (o : ChannelOutcome) :
    (∃ reason failure, l.answered cfg env queued o =
        { l with attemptReason := reason, phase := .failing failure } ∧
      failure ≠ .channelPermanentRefusal ∧
      (failure = .channelReceiverState → ∃ r, o = .result r ∧ r.accepted = false ∧
        r.retriable = false ∧ r.receiverState = true)) ∨
    (∃ reason r, l.answered cfg env queued o =
        { l with
          attemptReason := reason, phase := .holding queued r.refusalStatus r.refusalReason } ∧
      o = .result r ∧ r.accepted = false ∧ r.retriable = false ∧ r.receiverState = false) ∨
    (∃ r routed covers, l.answered cfg env queued o
      = { l with phase := .storing queued r [] routed } ∧
      o = .result r ∧ r.accepted = true ∧ routeArtifacts env.routes queued r.authorityArtifacts =
        some (routed, covers) ∧ (queued.type = .deliveryEnvelope → covers = true)) := by
  unfold answered spoiled
  cases o with
  | unrecognised => exact .inl ⟨_, _, rfl, by decide, nofun⟩
  | unavailable => exact .inl ⟨_, _, rfl, by decide, nofun⟩
  | result r =>
    dsimp only
    split_ifs with haccepted hretriable hstate hsink
    · refine .inl ⟨_, _, rfl, by decide, fun _ => ⟨r, rfl, ?_⟩⟩
      simp_all
    · refine .inr (.inl ⟨_, r, rfl, rfl, ?_⟩)
      simp_all
    · exact .inl ⟨_, _, rfl, nofun, nofun⟩
    · exact .inl ⟨_, _, rfl, by decide, nofun⟩
    · split
      · exact .inl ⟨_, _, rfl, by decide, nofun⟩
      · next routed covers hroute =>
        split_ifs with hcovers
        · exact .inl ⟨_, _, rfl, by decide, nofun⟩
        · refine .inr (.inr
            ⟨r, routed, covers, rfl, rfl, by simpa using haccepted, hroute, fun htype => ?_⟩)
          simpa [htype] using hcovers

/-- **How an attempt goes on**: the steps that lead to a phase of an attempt. -/
inductive Attempts (cfg : WorkerConfig) (env : LaneEnv) (l l' : DeliveryLane) : LaneInput →
    LanePhase → Prop where
  | peeked (hphase : l.phase = .peeking) : Attempts cfg env l l' .step (.adopting env.head)
  | adopted (head : Option QueuedArtifact) (hphase : l.phase = .adopting head)
      (hl' : l' = { l.adopted env head with phase := .releasing head }) :
      Attempts cfg env l l' .step (.releasing head)
  | released (a : QueuedArtifact) (hphase : l.phase = .releasing (some a))
      (hheld : l.holds a.id = false) :
      Attempts cfg env l l' .step (.attempting a)
  | began (a : QueuedArtifact) (hphase : l.phase = .attempting a) :
      Attempts cfg env l l' .step (.delivering a)
  | refused (a : QueuedArtifact) (r : DeliveryResult) (hphase : l.phase = .delivering a) :
      Attempts cfg env l l' (.outcome (.result r)) (.holding a r.refusalStatus r.refusalReason)
  | accepted (a : QueuedArtifact) (r : DeliveryResult) (routed : List AuthorityArtifact)
      (covers : Bool)
      (hphase : l.phase = .delivering a) (haccepted : r.accepted = true)
      (hroute : routeArtifacts env.routes a r.authorityArtifacts = some (routed, covers))
      (hcovers : a.type = .deliveryEnvelope → covers = true) :
      Attempts cfg env l l' (.outcome (.result r)) (.storing a r [] routed)
  | stored (a : QueuedArtifact) (r : DeliveryResult) (stored : List AuthorityArtifact)
      (x : AuthorityArtifact)
      (rest : List AuthorityArtifact) (hphase : l.phase = .storing a r stored (x :: rest)) :
      Attempts cfg env l l' (.stored true) (.storing a r (stored ++ [x]) rest)
  | staged (a : QueuedArtifact) (r : DeliveryResult) (stored : List AuthorityArtifact)
      (hphase : l.phase = .storing a r stored []) :
        Attempts cfg env l l' .step (.removing a r stored)

/-- **A step leaves the attempt, or goes on with it.** -/
theorem attempt_step (h : l.step cfg env input = some l') :
    l'.phase.attempt = false ∨ Attempts cfg env l l' input l'.phase := by
  cases moves h with
  | looked attempts =>
    obtain ⟨_, phase, heq, hcases⟩ := awaitDue_eq cfg l _ _ attempts
    rw [heq]
    rcases hcases with rfl | ⟨_, rfl⟩ | ⟨-, rfl | ⟨_, rfl⟩⟩ <;> exact .inl rfl
  | woke | fired | ended | drained | unstored | opened | handed | held | persisted | erased |
      counted | saved |
      succeeded => exact .inl rfl
  | reminded | clamped | removed | retired | failed | stalled =>
    refine .inl ?_
    dsimp only
    split <;> rfl
  | cleared =>
    unfold cleared
    dsimp only
    split <;> exact .inl rfl
  | scheduled =>
    unfold scheduled
    dsimp only
    split <;> exact .inl rfl
  | peeked hphase => exact .inr (.peeked hphase)
  | adopted head hphase => exact .inr (.adopted head hphase rfl)
  | released head hphase =>
    unfold released
    split
    · next a =>
      split
      · exact .inl rfl
      · next hheld => exact .inr (.released a hphase (by simpa using hheld))
    · exact .inl rfl
  | began a hphase => exact .inr (.began a hphase)
  | answered a o hphase =>
    rcases answered_cases cfg env l a o with ⟨_, _, heq, -⟩ | ⟨_, r, heq, rfl, -⟩ |
      ⟨r, routed, covers, heq, rfl, haccepted, hroute, hcovers⟩
    all_goals rw [heq]
    · exact .inl rfl
    · exact .inr (.refused a r hphase)
    · exact .inr (.accepted a r routed covers hphase haccepted hroute hcovers)
  | staged a r stored hphase => exact .inr (.staged a r stored hphase)
  | stored a r stored x rest hphase => exact .inr (.stored a r stored x rest hphase)

/-- **A step keeps to the artifact of the attempt**; it takes a new one from the queue's head only,
and has none after an operation on the queue. -/
theorem queued_step (h : l.step cfg env input = some l') {a : QueuedArtifact}
    (ha : l'.phase.queued = some a) :
    (l.phase.queued = some a ∨ env.head = some a) ∧ input.isReturned = false := by
  rcases attempt_step h with hnone | hattempt
  · rw [LanePhase.queued_of_not_attempt hnone] at ha
    cases ha
  generalize l'.phase = phase at hattempt ha
  cases hattempt with
  | peeked => exact ⟨.inr ha, rfl⟩
  | adopted _ hphase | released _ hphase | began _ hphase | refused _ _ hphase
  | accepted _ _ _ _ hphase | stored _ _ _ _ _ hphase | staged _ _ _ hphase =>
    rw [hphase]
    exact ⟨.inl ha, rfl⟩

end DeliveryLane

theorem DeliveryLane.phase_restore (cfg : WorkerConfig) (env : LaneEnv)
    (backoffFor : Bytes → Option BackoffRecord) (l : DeliveryLane) (wall mono now : Int) :
    (l.restore cfg env backoffFor wall mono now).1.phase = l.phase := by
  have hadopt : ∀ a, (l.adoptDurableHold env a).phase = l.phase := by
    intro a
    unfold adoptDurableHold
    split
    · rfl
    · split <;> rfl
  unfold restore
  split
  · rfl
  · next head _ =>
    dsimp only
    split
    · exact hadopt head
    · exact hadopt head

/-! ## What happens to the queue -/

theorem LanePhase.call_eq_remove {phase : LanePhase} {id : Bytes}
    (h : phase.call = some (.remove id)) :
    ∃ a r stored, phase = .removing a r stored ∧ id = a.id := by
  cases phase <;> cases h
  exact ⟨_, _, _, rfl, rfl⟩

namespace Worker

variable {w w' : Worker} {e : WorkerEvent} {c : QueueCall} {n : Nat} {key : LaneKey}
  {q q' : DurableQueue} {a : QueuedArtifact}

theorem call_cases (h : w.call e = some c) :
    (e = .queue c ∧ c.op.ofAdmission = true) ∨
    (∃ record script, e = .clamp script ∧ c = ⟨.setBackoff record, script⟩) ∨
    (∃ key script l op, e = .call key script ∧ w.running = true ∧ w.lanes.lookup key = some l ∧
      l.phase.call = some op ∧ c = ⟨op, script⟩) := by
  cases e with
  | queue c' =>
    simp only [call] at h
    split at h
    · next hop =>
      cases h
      exact .inl ⟨rfl, hop⟩
    · cases h
  | clamp script =>
    obtain ⟨record, -, rfl⟩ := Option.map_eq_some_iff.mp h
    exact .inr (.inl ⟨record, script, rfl, rfl⟩)
  | call key script =>
    simp only [call] at h
    split at h
    · next hrunning =>
      obtain ⟨op, hop, rfl⟩ := Option.map_eq_some_iff.mp h
      obtain ⟨l, hl, hop⟩ := Option.bind_eq_some_iff.mp hop
      exact .inr (.inr ⟨key, script, l, op, rfl, hrunning, hl, hop, rfl⟩)
    · cases h
  | restore | run | lane | notify | step => cases h

/-- **What a step does to the phase of a lane**: a new lane starts, another lane's step leaves it,
and its own step moves it. -/
theorem phase_change (h : w.step e = some w') {l' : DeliveryLane}
    (hl' : w'.lanes.lookup key = some l') :
    l'.phase = .starting ∨
    (∃ l, w.lanes.lookup key = some l ∧ e.actor ≠ some key ∧ l'.phase = l.phase) ∨
    ∃ l input, w.lanes.lookup key = some l ∧ Drives w w' key e input ∧
      l.step w.config (w.env key) input = some l' := by
  have hchange := lane_change h key
  rw [hl'] at hchange
  generalize w.lanes.lookup key = o at hchange
  generalize ho' : some l' = o' at hchange
  cases hchange with
  | same _ hactor => exact .inr (.inl ⟨l', ho'.symm, hactor, rfl⟩)
  | created =>
    cases ho'
    exact .inl rfl
  | notified _ hactor =>
    cases ho'
    cases o with
    | none => exact .inl rfl
    | some l => exact .inr (.inl ⟨l, rfl, hactor, rfl⟩)
  | restored _ wall mono now hevent =>
    cases ho'
    rw [DeliveryLane.phase_restore]
    cases o with
    | none => exact .inl rfl
    | some l => exact .inr (.inl ⟨l, rfl, by rw [hevent]; nofun, rfl⟩)
  | stepped l l'' input hrunning hsignals hdrives hstep =>
    cases ho'
    exact .inr (.inr ⟨l, input, rfl, hdrives, hstep⟩)

/-- **What a step does to the artifacts.** -/
inductive ArtifactsChange (w : Worker) (e : WorkerEvent) (w' : Worker) : Prop where
  | same (h : w'.queue.mem.artifacts = w.queue.mem.artifacts)
  | appended (c : QueueCall) (a : QueuedArtifact) (hevent : e = .queue c)
      (hnew : a.id ∉ w.queue.mem.artifacts.map (·.id))
      (h : w'.queue.mem.artifacts = w.queue.mem.artifacts ++ [a])
  | removed (key : LaneKey) (script : List Outcome) (l : DeliveryLane) (a : QueuedArtifact)
      (r : DeliveryResult) (stored : List AuthorityArtifact) (hevent : e = .call key script)
      (hlane : w.lanes.lookup key = some l) (hphase : l.phase = .removing a r stored)
      (hrun : QueueCall.run ⟨.remove a.id, script⟩ w.queue = .done (.ok ()) w'.queue)
      (h : w'.queue.mem.artifacts = w.queue.mem.artifacts.filter (·.id ≠ a.id))

theorem artifacts_change (h : w.step e = some w') (hq : Consistent w.queue.mem) :
    ArtifactsChange w e w' := by
  rcases queue_change h with ⟨-, hqueue⟩ | ⟨c, result, hcall, hrun⟩
  · exact .same (by rw [hqueue])
  have hlisted := (QueueCall.effect hq hrun).listed hq
  generalize hl : w.queue.mem.artifacts = before at hlisted
  generalize hl' : w'.queue.mem.artifacts = after at hlisted
  generalize hop : c.op = op at hlisted
  cases hlisted with
  | same => exact .same (hl'.trans hl.symm)
  | appended now kind payload hkind hnew =>
    have hqueue : e = .queue c := by
      rcases call_cases hcall with ⟨he, -⟩ | ⟨_, _, -, rfl⟩ | ⟨_, _, l, _, -, -, -, hphase, rfl⟩
      · exact he
      · rcases hkind with rfl | rfl <;> cases hop
      · subst hop
        cases hp : l.phase <;>
          rw [hp] at hphase <;> cases hphase <;> rcases hkind with h | h <;> cases h
    exact .appended c ⟨artifactID kind payload, kind, payload, int64 now⟩ hqueue (hl ▸ hnew)
      (by rw [hl', hl])
  | retired b hb =>
    rcases call_cases hcall with ⟨-, hadmission⟩ | ⟨_, _, -, rfl⟩ |
      ⟨key, script, l, _, he, -, hlane, hphase, rfl⟩
    · rw [hop] at hadmission
      cases hadmission
    · cases hop
    · subst hop
      obtain ⟨a, r, stored, hphase, hid⟩ := LanePhase.call_eq_remove hphase
      rw [hid] at hrun hl'
      exact .removed key script l a r stored he hlane hphase hrun (by rw [hl', hl])

/-- **The artifact a lane works on is its head**, and there are places left for the events to
come. -/
structure Heads (n : Nat) (w : Worker) : Prop where
  roomy : Roomy n w.queue.mem
  head : ∀ key l a, w.lanes.lookup key = some l → l.phase.queued = some a →
    w.queue.mem.peekLane key = some a

theorem Heads.consistent (hw : Heads n w) : Consistent w.queue.mem := hw.roomy.toConsistent

theorem Heads.new (config : WorkerConfig) {queue : World DurableQueue} (h : Roomy n queue.mem) :
    Heads n (newDeliveryWorker config queue) :=
  ⟨h, fun key l a hl => by cases hl⟩

theorem roomy_step (h : w.step e = some w') (hq : Roomy (n + 1) w.queue.mem) :
    Roomy n w'.queue.mem := by
  rcases queue_change h with ⟨-, hqueue⟩ | ⟨c, result, hcall, hrun⟩
  · rw [hqueue]
    exact hq.mono n.le_succ
  · exact (QueueCall.effect hq.toConsistent hrun).roomy hq

theorem laneArtifacts_appended (h : q'.artifacts = q.artifacts ++ [a]) (key : LaneKey) :
    q'.laneArtifacts key = q.laneArtifacts key ++ if a.lane = key then [a] else [] := by
  rw [laneArtifacts, laneArtifacts, h, List.filter_append]
  congr 1
  by_cases hkey : a.lane = key <;> simp [hkey]

theorem laneArtifacts_removed (hq : Consistent q) (ha : q.peekLane key = some a)
    (h : q'.artifacts = q.artifacts.filter (·.id ≠ a.id)) :
    q.laneArtifacts key = a :: q'.laneArtifacts key := by
  rw [hq.peekLane_eq_head] at ha
  obtain ⟨rest, hrest⟩ : ∃ rest, q.laneArtifacts key = a :: rest := by
    cases hlist : q.laneArtifacts key with
    | nil => rw [hlist] at ha; cases ha
    | cons b rest =>
      rw [hlist] at ha
      cases ha
      exact ⟨rest, rfl⟩
  have hnodup : ((q.laneArtifacts key).map (·.id)).Nodup :=
    hq.nodup_artifacts.sublist (List.filter_sublist.map _)
  have hlane : q'.laneArtifacts key = (q.laneArtifacts key).filter (·.id ≠ a.id) := by
    rw [laneArtifacts, laneArtifacts, h, List.filter_filter, List.filter_filter]
    simp only [Bool.and_comm]
  rw [hrest, List.map_cons, List.nodup_cons] at hnodup
  rw [hlane, hrest, List.filter_cons_of_neg (by simp)]
  refine congrArg _ (List.filter_eq_self.mpr fun b hb => ?_).symm
  have hne : b.id ≠ a.id := fun heq => hnodup.1 (heq ▸ List.mem_map_of_mem hb)
  simpa using hne

theorem laneArtifacts_removed_of_ne (hq : Consistent q) (ha : a ∈ q.artifacts)
    (hkey : key ≠ a.lane) (h : q'.artifacts = q.artifacts.filter (·.id ≠ a.id)) :
    q'.laneArtifacts key = q.laneArtifacts key := by
  rw [laneArtifacts, laneArtifacts, h, List.filter_filter]
  refine List.filter_congr fun b hb => ?_
  have hne : b.lane = key → b.id ≠ a.id := by
    rintro rfl hid
    exact hkey (congrArg QueuedArtifact.lane (hq.artifact_inj hb ha hid))
  simpa using hne

/-- **What a step does to a lane of the queue**: it stays, its head is removed by its own call, or
an artifact is appended. -/
theorem laneArtifacts_change (h : w.step e = some w') (hw : Heads n w) (key : LaneKey) :
    (∃ script l a r stored, e = .call key script ∧ w.lanes.lookup key = some l ∧
      l.phase = .removing a r stored ∧
      w.queue.mem.laneArtifacts key = a :: w'.queue.mem.laneArtifacts key) ∨
    ∃ extra, w'.queue.mem.laneArtifacts key = w.queue.mem.laneArtifacts key ++ extra := by
  cases artifacts_change h hw.consistent with
  | same h => exact .inr ⟨[], by rw [laneArtifacts, h, List.append_nil, laneArtifacts]⟩
  | appended c a hevent hnew h => exact .inr ⟨_, laneArtifacts_appended h key⟩
  | removed key' script l a r stored hevent hlane hphase hrun h =>
    have hhead := hw.head key' l a hlane (by rw [hphase]; rfl)
    obtain ⟨hmem, hlane'⟩ := hw.consistent.of_peekLane hhead
    by_cases hkey : key = key'
    · subst hkey
      exact .inl ⟨script, l, a, r, stored, hevent, hlane, hphase,
        laneArtifacts_removed hw.consistent hhead h⟩
    · refine .inr ⟨[], ?_⟩
      rw [List.append_nil, laneArtifacts_removed_of_ne hw.consistent hmem (hlane' ▸ hkey) h]

theorem peekLane_step (h : w.step e = some w') (hw : Heads (n + 1) w)
    (ha : w.queue.mem.peekLane key = some a) (hcall : ∀ script, e ≠ .call key script) :
    w'.queue.mem.peekLane key = some a := by
  rcases laneArtifacts_change h hw key with ⟨script, _, _, _, _, he, -⟩ | ⟨extra, hextra⟩
  · exact absurd he (hcall script)
  · rw [(roomy_step h hw.roomy).peekLane_eq_head, hextra, List.head?_append,
      ← hw.consistent.peekLane_eq_head, ha, Option.some_or]

/-- **The artifact a lane works on stays its head**, whatever is queued and retired meanwhile. -/
theorem Heads.step (hw : Heads (n + 1) w) (h : w.step e = some w') : Heads n w' := by
  refine ⟨roomy_step h hw.roomy, fun key l' a hl' ha => ?_⟩
  rcases phase_change h hl' with hphase | ⟨l, hl, hactor, hphase⟩ | ⟨l, input, hl, hdrives, hstep⟩
  · rw [hphase] at ha
    cases ha
  · refine peekLane_step h hw (hw.head key l a hl (hphase ▸ ha)) ?_
    rintro script rfl
    exact hactor rfl
  · obtain ⟨hfrom, hinput⟩ := DeliveryLane.queued_step hstep ha
    have hhead : w.queue.mem.peekLane key = some a := by
      rcases hfrom with hfrom | hfrom
      · exact hw.head key l a hl hfrom
      · exact hfrom
    refine peekLane_step h hw hhead ?_
    rintro script rfl
    cases hdrives with
    | call => cases hinput

theorem heads_runAll {es : List WorkerEvent} (hw : Heads (n + es.length) w)
    (hrun : runAll Worker.step w es = some w') : Heads n w' :=
  runAll_countdown (fun _ _ _ _ _ => Heads.step) (stepsMeet_true w es) hw hrun

/-! ## What is seen -/

theorem changes_of_same (h : q'.artifacts = q.artifacts) : changes q q' = [] := by
  simp [changes, h]

theorem mem_acts_lane {act : LaneAct} (h : .lane key act ∈ w.acts e w') :
    ∃ input l, e = .step key input ∧ w.lanes.lookup key = some l ∧
    l.act w.config input = some act := by
  rcases List.mem_append.mp h with h | h
  · cases e with
    | step key' input =>
      simp only [laneActs, List.mem_map, Option.mem_toList, Option.bind_eq_some_iff] at h
      obtain ⟨act', ⟨l, hl, hact⟩, heq⟩ := h
      cases heq
      exact ⟨input, l, rfl, hl, hact⟩
    | _ => cases h
  · simp [changes] at h

theorem mem_acts_retired (h : .retired a ∈ w.acts e w') :
    a ∈ w.queue.mem.artifacts ∧ a ∉ w'.queue.mem.artifacts := by
  rcases List.mem_append.mp h with h | h
  · cases e with
    | step key' input => simp [laneActs] at h
    | _ => cases h
  · simpa [changes] using h

theorem acts_step {input : LaneInput} (h : w.step (.step key input) = some w') :
    w.acts (.step key input) w' = w.laneActs (.step key input) := by
  rcases queue_change h with ⟨-, hqueue⟩ | ⟨c, result, hcall, -⟩
  · rw [acts, changes_of_same (by rw [hqueue]), List.append_nil]
  · cases hcall

end Worker

namespace DeliveryLane

variable {cfg : WorkerConfig} {l : DeliveryLane} {input : LaneInput}

theorem act_eq_delivered {a : QueuedArtifact} (h : l.act cfg input = some (.delivered a)) :
    l.phase = .attempting a ∧ input = .step := by
  unfold act at h
  split at h
  · next hphase =>
    cases h
    exact ⟨hphase, rfl⟩
  · split at h <;> cases h
  all_goals cases h

theorem act_eq_held {record : HoldRecord} (h : l.act cfg input = some (.held record)) :
    ∃ a status reason t, l.phase = .holding a status reason ∧ input = .now t ∧
      record = holdRecord a status reason (unixMilli t) := by
  unfold act at h
  split at h
  · cases h
  · split at h <;> cases h
  · next a status reason t hphase =>
    cases h
    exact ⟨a, status, reason, t, hphase, rfl, rfl⟩
  all_goals cases h

end DeliveryLane

end OriGateway
