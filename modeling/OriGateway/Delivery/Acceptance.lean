import OriGateway.Delivery.Journal
import OriGateway.Evidence.Reopening

/-! # Retirement on a clean acceptance

A lane removes its head from the queue only after the channel accepted it with everything an
acceptance must carry, and the sink stored all of it. Every other step of every lane leaves the
artifacts of the lanes where they are.

**`CleanAcceptance`** is what an acceptance must carry, and **`Staging`** how far the staging of
what it returned has come, and from which answers of the channel and the sink;
**`Worker.removed_on_clean_acceptance`** is over every run. -/

namespace OriGateway

open Foundation DurableQueue

/-! ## What an acceptance must carry -/

/-- An authority artifact that names the record's device. -/
def BoundTo (a : QueuedArtifact) (x : AuthorityArtifact) : Prop :=
  ∃ authority, decodeRouting authoritySchema x.payload = .ok authority ∧
    authority.deviceID = recordDevice a.payload ∧ recordDevice a.payload ≠ []

/-- An authority artifact is a receipt whose range has the record's sequence. -/
def CoversRecord (a : QueuedArtifact) (x : AuthorityArtifact) : Prop :=
  x.type = .deliveryReceipt ∧ ∃ outbound authority fromSeq toSeq,
    decodeRouting outboundSchema a.payload = .ok outbound ∧
    decodeRouting authoritySchema x.payload = .ok authority ∧ authority.fromSeq = some fromSeq ∧
    authority.toSeq = some toSeq ∧ fromSeq ≤ outbound.localSeq ∧ outbound.localSeq ≤ toSeq

/-- **A clean acceptance of a record.** -/
structure CleanAcceptance (a : QueuedArtifact) (r : DeliveryResult) : Prop where
  accepted : r.accepted = true
  /-- Everything returned is of a known type, is not empty and names the record's device. -/
  bound : ∀ x ∈ r.authorityArtifacts,
    validAuthorityArtifactType x.type = true ∧ x.payload ≠ [] ∧ BoundTo a x
  covered : a.type = .deliveryEnvelope → ∃ x ∈ r.authorityArtifacts, CoversRecord a x

def AuthorityArtifact.stagedFor (a : QueuedArtifact) (x : AuthorityArtifact) : AuthorityArtifact :=
  ⟨x.type, recordDevice a.payload, x.payload⟩

theorem receiptRange_eq_some {routing : AuthorityRouting} {fromSeq toSeq : Int}
    (h : receiptRange routing = some (fromSeq, toSeq)) :
    routing.fromSeq = some fromSeq ∧ routing.toSeq = some toSeq := by
  unfold receiptRange at h
  split at h
  · next hfrom hto =>
    split at h
    · cases h
    · cases h
      exact ⟨hfrom, hto⟩
  · cases h

theorem authorityRoutingProjection_ok {kind : AuthorityArtifactType} {payload : Bytes}
    {domain : Bytes → Bool} {routing : AuthorityRouting}
    (h : authorityRoutingProjection kind payload domain = .ok routing) :
    decodeRouting authoritySchema payload = .ok routing := by
  unfold authorityRoutingProjection at h
  split at h
  · cases h
  · split_ifs at h
    all_goals cases h
    all_goals assumption

/-- **What routing an answer finds**: the record's device, and whether the answer covers the
record. -/
theorem validateAuthorityRouting_ok {a : QueuedArtifact} {x : AuthorityArtifact}
    {domain : Bytes → Bool} {device : Bytes} {covers : Bool}
    (h : validateAuthorityRouting a x domain = .ok (device, covers)) :
    device = recordDevice a.payload ∧ BoundTo a x ∧ (covers = true → CoversRecord a x) := by
  unfold validateAuthorityRouting at h
  split at h
  · cases h
  next outbound houtbound =>
  split at h
  · cases h
  next hdevice =>
  split at h
  · cases h
  next authority hprojection =>
  have hauthority := authorityRoutingProjection_ok hprojection
  have hrecord := recordDevice_of_outbound houtbound
  split at h
  · cases h
  next hsame =>
  have heq : authority.deviceID = outbound.deviceID := not_not.mp hsame
  have hbound : BoundTo a x :=
    ⟨authority, hauthority, by rw [heq, hrecord], by rw [hrecord]; exact hdevice⟩
  split at h
  · cases h
    exact ⟨by rw [heq, hrecord], hbound, nofun⟩
  next htype =>
  split at h
  · cases h
    exact ⟨by rw [heq, hrecord], hbound, nofun⟩
  next fromSeq toSeq hrange =>
  cases h
  refine ⟨by rw [heq, hrecord], hbound, fun hcovers => ⟨not_not.mp htype, ?_⟩⟩
  obtain ⟨hfrom, hto⟩ := receiptRange_eq_some hrange
  obtain ⟨-, hle, hle'⟩ := of_decide_eq_true hcovers
  exact ⟨outbound, authority, fromSeq, toSeq, houtbound, hauthority, hfrom, hto, hle, hle'⟩

/-- **What routing an acceptance finds.** -/
theorem routeArtifacts_eq_some {domain : Bytes → Bool} {a : QueuedArtifact}
    {xs routed : List AuthorityArtifact} {covers : Bool}
    (h : routeArtifacts domain a xs = some (routed, covers)) :
    routed = xs.map (·.stagedFor a) ∧
      (∀ x ∈ xs, validAuthorityArtifactType x.type = true ∧ x.payload ≠ [] ∧ BoundTo a x) ∧
      (covers = true → ∃ x ∈ xs, CoversRecord a x) := by
  induction xs generalizing routed covers with
  | nil =>
    cases h
    exact ⟨rfl, nofun, nofun⟩
  | cons x xs ih =>
    rw [routeArtifacts] at h
    split at h
    · cases h
    next hform =>
    simp only [not_or, Bool.not_eq_false] at hform
    split at h
    · cases h
    next device coversOne hvalid =>
    obtain ⟨⟨routed', covers'⟩, hrest, heq⟩ := Option.map_eq_some_iff.mp h
    cases heq
    obtain ⟨rfl, hbound, hcovers⟩ := validateAuthorityRouting_ok hvalid
    obtain ⟨rfl, hall, hany⟩ := ih hrest
    refine ⟨rfl, ?_, ?_⟩
    · rintro y (_ | ⟨_, hy⟩)
      · exact ⟨hform.2, hform.1, hbound⟩
      · exact hall y hy
    · intro hor
      rcases Bool.or_eq_true_iff.mp hor with h | h
      · exact ⟨x, List.mem_cons_self, hcovers h⟩
      · obtain ⟨y, hy, hcovered⟩ := hany h
        exact ⟨y, List.mem_cons_of_mem _ hy, hcovered⟩

/-! ## Staging -/

/-- The inputs a run gives to a lane, its operations on the queue apart. -/
def laneInputs (key : LaneKey) (es : List WorkerEvent) : List LaneInput :=
  es.filterMap fun
    | .step key' input => if key' = key then some input else none
    | _ => none

theorem laneInputs_append (key : LaneKey) (es es' : List WorkerEvent) :
    laneInputs key (es ++ es') = laneInputs key es ++ laneInputs key es' := List.filterMap_append

theorem laneInputs_of_actor {key : LaneKey} {e : WorkerEvent} (h : e.actor ≠ some key) :
    laneInputs key [e] = [] := by
  cases e with
  | step key' input =>
    have hne : key' ≠ key := fun heq => h (congrArg some heq)
    simp [laneInputs, hne]
  | _ => rfl

/-- **How far a lane has come in staging an acceptance**: the last inputs it got are the channel's
answer and the sink's success for each artifact it has stored. -/
structure Staging (inputs : List LaneInput) (a : QueuedArtifact) (r : DeliveryResult)
    (stored rest : List AuthorityArtifact) : Prop where
  clean : CleanAcceptance a r
  artifacts : r.authorityArtifacts.map (·.stagedFor a) = stored ++ rest
  inputs : ∃ before, inputs = before ++ .outcome (.result r) ::
    List.replicate stored.length (.stored true)

/-- What a lane that stores or removes has stored. -/
def LanePhase.Staged (inputs : List LaneInput) : LanePhase → Prop
  | storing a r stored rest => Staging inputs a r stored rest
  | removing a r stored => ∃ inputs', inputs = inputs' ++ [.step] ∧ Staging inputs' a r stored []
  | _ => True

/-- **One step of a lane keeps track of what was staged.** -/
theorem DeliveryLane.staged_step {cfg : WorkerConfig} {env : LaneEnv} {l l' : DeliveryLane}
    {input : LaneInput} {inputs : List LaneInput} (h : l.step cfg env input = some l')
    (hl : l.phase.Staged inputs) :
    l'.phase.Staged (inputs ++ if input.isReturned then [] else [input]) := by
  rcases attempt_step h with hnone | hattempt
  · generalize l'.phase = phase at hnone
    cases phase <;> trivial
  generalize l'.phase = phase at hattempt
  cases hattempt with
  | peeked | adopted | released | began | refused => trivial
  | accepted a r routed covers hphase haccepted hroute hcovers =>
    obtain ⟨rfl, hbound, hany⟩ := routeArtifacts_eq_some hroute
    exact ⟨⟨haccepted, hbound, fun htype => hany (hcovers htype)⟩, rfl, inputs, rfl⟩
  | stored a r stored x rest hphase =>
    rw [hphase] at hl
    obtain ⟨before, hbefore⟩ := hl.inputs
    refine ⟨hl.clean, by rw [hl.artifacts, List.append_assoc]; rfl, before, ?_⟩
    rw [hbefore, List.length_append, List.length_singleton, List.replicate_succ', List.append_assoc]
    rfl
  | staged a r stored hphase =>
    rw [hphase] at hl
    exact ⟨inputs, rfl, hl⟩

namespace Worker

variable {w w' : Worker} {e : WorkerEvent}

theorem staged_runAll {es : List WorkerEvent} {config : WorkerConfig} {queue : World DurableQueue}
    (hrun : runAll Worker.step (newDeliveryWorker config queue) es = some w) {key : LaneKey}
    {l : DeliveryLane} (hl : w.lanes.lookup key = some l) : l.phase.Staged (laneInputs key es) := by
  refine runAll_history (I := fun es w => ∀ key l, w.lanes.lookup key = some l →
    l.phase.Staged (laneInputs key es)) ?_ ?_ hrun key l hl
  · intro key l hl
    cases hl
  intro es w e w' hw hstep key l' hl'
  rw [laneInputs_append]
  rcases phase_change hstep hl' with hphase | ⟨l, hl, hactor, hphase⟩ |
    ⟨l, input, hl, hdrives, hstep⟩
  · rw [hphase]
    trivial
  · rw [laneInputs_of_actor hactor, List.append_nil, hphase]
    exact hw key l hl
  · have hinputs : laneInputs key [e] = if input.isReturned then [] else [input] := by
      cases hdrives with
      | step hinput => simp [laneInputs, hinput]
      | call => rfl
    rw [hinputs]
    exact DeliveryLane.staged_step hstep (hw key l hl)

theorem heads_of_open {opts : QueueOptions} {d : Directory} {q : DurableQueue}
    (hopen : openDurableQueueOutbound opts d = .ok q) (hearly : EarlyPlaces q) (temps : Nat)
    (config : WorkerConfig) {n : Nat} {es : List WorkerEvent} (hes : n + es.length < 2 ^ 62)
    (hrun : runAll Worker.step (newDeliveryWorker config (openedWorld q d temps)) es = some w) :
    Heads n w :=
  heads_runAll (.new config (hearly.roomy (openDurableQueueOutbound_ok.mp hopen).1 hes)) hrun

/-- **The head is retired on a clean acceptance only.** In every run of a worker, over every
interleaving, of fewer than `2 ^ 62` events and from any directory that opened with its places below
that, an artifact that leaves the queue is the head of its lane, removed by the lane's own call. The
channel's answer to the attempt was a clean acceptance of it, and after that answer and before the
removal the sink returned no error for each of the artifacts that were returned. Every other step
keeps each lane's artifacts, in their places. -/
theorem removed_on_clean_acceptance {opts : QueueOptions} {d : Directory} {q : DurableQueue}
    (hopen : openDurableQueueOutbound opts d = .ok q) (hearly : EarlyPlaces q) (temps : Nat)
    (config : WorkerConfig) {es : List WorkerEvent} (hevents : es.length < 2 ^ 62)
    (hrun : runAll Worker.step (newDeliveryWorker config (openedWorld q d temps)) es = some w)
    (hstep : w.step e = some w') :
    (∀ a ∈ w.queue.mem.artifacts, a ∉ w'.queue.mem.artifacts →
      ∃ key script r before, e = .call key script ∧ w.queue.mem.peekLane key = some a ∧
        CleanAcceptance a r ∧
        (w.lanes.lookup key).map (·.phase) =
          some (.removing a r (r.authorityArtifacts.map (·.stagedFor a))) ∧
        laneInputs key es = before ++ .outcome (.result r) ::
          List.replicate r.authorityArtifacts.length (.stored true) ++ [.step]) ∧
    ∀ key, w.queue.mem.laneArtifacts key <+: w'.queue.mem.laneArtifacts key ∨
      ∃ a, a ∉ w'.queue.mem.artifacts ∧
        w.queue.mem.laneArtifacts key = a :: w'.queue.mem.laneArtifacts key := by
  have hw : Heads 0 w := heads_of_open hopen hearly temps config (by omega) hrun
  have hchange := artifacts_change hstep hw.consistent
  constructor
  · intro a ha hleft
    cases hchange with
    | same h => exact absurd (h ▸ ha) hleft
    | appended c b hevent hnew h => exact absurd (h ▸ List.mem_append_left _ ha) hleft
    | removed key script l b r stored hevent hlane hphase hrun' h =>
      have hhead := hw.head key l b hlane (by rw [hphase]; rfl)
      obtain rfl : a = b := by
        refine hw.consistent.artifact_inj ha (hw.consistent.of_peekLane hhead).1 ?_
        by_contra hne
        exact hleft (h ▸ List.mem_filter.mpr ⟨ha, by simpa using hne⟩)
      have hstaged := staged_runAll hrun hlane
      rw [hphase] at hstaged
      obtain ⟨inputs, hinputs, hstaging⟩ := hstaged
      obtain ⟨before, hbefore⟩ := hstaging.inputs
      have hstored : r.authorityArtifacts.map (·.stagedFor a) = stored := by
        rw [hstaging.artifacts, List.append_nil]
      refine ⟨key, script, r, before, hevent, hhead, hstaging.clean, ?_, ?_⟩
      · rw [hlane, hstored, Option.map_some, hphase]
      · rw [hinputs, hbefore, ← hstored, List.length_map]
  · intro key
    cases hchange with
    | same h => exact .inl (by rw [laneArtifacts, laneArtifacts, h])
    | appended c b hevent hnew h => exact .inl ⟨_, (laneArtifacts_appended h key).symm⟩
    | removed key' script l b r stored hevent hlane hphase hrun' h =>
      have hhead := hw.head key' l b hlane (by rw [hphase]; rfl)
      obtain ⟨hmem, hkey'⟩ := hw.consistent.of_peekLane hhead
      by_cases hkey : key = key'
      · subst hkey
        refine .inr ⟨b, ?_, laneArtifacts_removed hw.consistent hhead h⟩
        rw [h]
        simp
      · rw [laneArtifacts_removed_of_ne hw.consistent hmem (hkey' ▸ hkey) h]
        exact .inl (List.prefix_refl _)

end Worker

/-! ### An envelope and its receipt -/

def plainConfig : WorkerConfig := DeliveryWorkerOptions.config ⟨1, 1, 4, true⟩

def evidenceLane : LaneKey := ⟨ascii "d", .evidence⟩

/-- An admission of an envelope, with the handoff that follows it. -/
def envelopeEvents : List WorkerEvent :=
  [.queue ⟨.enqueue 1 .deliveryEnvelope (ascii "\x7b\"device_id\":\"d\",\"local_seq\":3\x7d"), []⟩,
    .lane evidenceLane, .notify evidenceLane]

def attemptEvents (key : LaneKey) (wall mono : Int) : List WorkerEvent :=
  .step key .wake :: .step key (.clock wall mono) :: List.replicate 5 (.step key .step)

def coveringResult : DeliveryResult where
  accepted := true
  retriable := false
  retryAfter := 0
  receiverState := false
  refusalStatus := 0
  refusalReason := []
  authorityArtifacts := [⟨.deliveryReceipt, [],
    ascii "\x7b\"device_id\":\"d\",\"from_seq\":1,\"to_seq\":5\x7d"⟩]

def deliveredEvents : List WorkerEvent :=
  envelopeEvents ++ [.run, .step evidenceLane (.clock 0 0)] ++ attemptEvents evidenceLane 0 0 ++
    [.step evidenceLane (.outcome (.result coveringResult)), .step evidenceLane (.stored true),
      .step evidenceLane .step]

/-- The envelope leaves the queue once its receipt is stored. -/
theorem removed_on_clean_acceptance_deliveredEvents :
    ∃ (w w' : Worker) (a : QueuedArtifact) (r : DeliveryResult),
      runAll Worker.step
        (newDeliveryWorker plainConfig (openedWorld (emptyQueue plainOptions) freshDirectory 0))
        deliveredEvents = some w ∧ w.step (.call evidenceLane []) = some w' ∧
      w.queue.mem.artifacts = [a] ∧ w'.queue.mem.artifacts = [] ∧ CleanAcceptance a r := by
  obtain ⟨w, hrun, heval⟩ := Option.bind_eq_some_iff.mp (by decide +kernel : (runAll Worker.step
      (newDeliveryWorker plainConfig (openedWorld (emptyQueue plainOptions) freshDirectory 0))
      deliveredEvents).bind (fun w => (w.step (.call evidenceLane [])).map fun w' =>
        decide (w.queue.mem.artifacts.length = 1 ∧ w'.queue.mem.artifacts = [])) = some true)
  obtain ⟨w', hstep, heval⟩ := Option.map_eq_some_iff.mp heval
  obtain ⟨hone, hnone⟩ := of_decide_eq_true heval
  obtain ⟨a, ha⟩ := List.length_eq_one_iff.mp hone
  obtain ⟨_, _, r, _, -, -, hclean, -⟩ := (Worker.removed_on_clean_acceptance
    openDurableQueueOutbound_plainOptions (by simp [EarlyPlaces, emptyQueue]) 0 plainConfig
      (by decide)
    hrun hstep).1 a (by simp [ha]) (by simp [hnone])
  exact ⟨w, w', a, r, hrun, hstep, ha, hnone, hclean⟩

end OriGateway
