import OriGateway.Evidence.Inbound
import OriGateway.Evidence.QueueList
import OriGateway.Evidence.Opening
import OriGateway.Foundation.Runs

/-! # The return publisher

Authority artifacts wait in one queue for the runtimes they are for. A loop carries the head, again
and again, until the head's runtime acknowledges it: an acknowledgement retires the head or holds
it, and a held head is carried again only once the state of its receiver has changed.

**`ReturnPublisher.step`** is what the loop, the acknowledgements, the staging of artifacts and the
calls from outside do, one critical section at a time and in any order. Between any two of them the
head alone is held and what is judged is the head (**`Settled`**); hence how long a hold lasts and
how an artifact leaves the queue (**`held_and_retired_runAll`**).

The mutex of the publisher is held from the reading of a head to its judgement; the verifier's lock
is held for the whole of an acknowledgement, so there is one at a time. Signing, encoding and the
broker are outside: an attempt to publish ends in any way. -/

namespace OriGateway

open Foundation DurableQueue

/-! ## The state -/

/-- Why a return queue does not open. -/
inductive SinkError where
  | queue (e : OpenError)
  /-- "authority return queue contains an outbound artifact". -/
  | outboundArtifact

def isReturnType (kind : ArtifactType) : Bool :=
  kind == .deliveryReceipt || kind == .epochConfirmation || kind == .custodyAcknowledgement

/-- Open the queue of returned artifacts. -/
def openDurableAuthoritySink (opts : QueueOptions) (d : Directory) :
    Except SinkError DurableQueue :=
  match openDurableQueue opts d with
  | .error e => .error (.queue e)
  | .ok q =>
    if q.order.any fun id => !isReturnType (q.entry id).type then
      .error .outboundArtifact else .ok q

/-- An acknowledgement that the verifier let through to be decided. -/
structure PendingAck (U : Type) where
  topic : Bytes
  deviceID : Bytes
  payload : Bytes
  envelope : AuthEnvelope U
  now : Int

/-- How far the acknowledgement in hand has come. -/
inductive AckPhase (U : Type) where
  | idle
  | verified (pending : PendingAck U)
  /-- The head was read, and the publisher's mutex is held. -/
  | peeked (pending : PendingAck U) (ack : InboundAck) (queued : QueuedArtifact)

/-- Where the loop is. -/
inductive PublishPhase where
  | waiting
  | due
  | publishing (queued : QueuedArtifact)
  deriving DecidableEq

/-- A return publisher. -/
structure ReturnPublisher (U : Type) where
  verifier : Verifier
  queue : World DurableQueue
  retry : Int
  wake : Bool
  heldID : Bytes
  heldDevice : Bytes
  lastID : Bytes
  lastAt : Int
  loop : PublishPhase
  phase : AckPhase U

/-- The retry interval when none is set: five seconds, in nanoseconds. -/
def defaultRetry : Int := 5000000000

/-- A publisher over an opened queue. -/
def newReturnPublisher {U : Type} (queue : World DurableQueue)
    (envelopeSecret previousEnvelopeSecret : Bytes) (retry startClock : Int) :
    Except VerifierError (ReturnPublisher U) :=
  match newVerifier ⟨envelopeSecret, previousEnvelopeSecret, 0, 0, 0⟩ startClock with
  | .error e => .error e
  | .ok verifier =>
    .ok
      { verifier := verifier, queue := queue, retry := if retry ≤ 0 then defaultRetry else retry,
        wake := false, heldID := [], heldDevice := [], lastID := [], lastAt := 0, loop := .waiting,
        phase := .idle }

/-- What happens to a publisher. -/
inductive PublisherEvent where
  /-- An artifact is staged, at a clock reading; its file-system calls end as the script says. -/
  | store (artifact : AuthorityArtifact) (now : Int) (script : List Outcome)
  | probe (body : Bytes) (script : List Outcome)
  | notify
  | receiverStateChanged (deviceID : Bytes)
  | wakeUp
  | timer
  /-- The loop looks at the head, at a clock reading. -/
  | selectHead (now : Int)
  /-- The attempt to carry the head ends: at a time, or in an error. -/
  | published (carriedAt : Option Int)
  /-- An acknowledgement arrives, and is verified at a clock reading. -/
  | receive (topic payload : Bytes) (now : Int)
  /-- The acknowledgement in hand is read, the mutex taken and the head read. -/
  | readHead
  /-- The acknowledgement in hand is applied to the head. -/
  | decideAck (script : List Outcome)

namespace ReturnPublisher

variable {U : Type}

def ackCall (deviceID payload : Bytes) (now : Int) : VerifyCall U AckError :=
  ⟨payload, evidenceInboundAckMessageType, deviceID, [], now, none⟩

def mutexFree (s : ReturnPublisher U) : Bool :=
  match s.phase with
  | .peeked .. => false
  | _ => true

def notified (s : ReturnPublisher U) : ReturnPublisher U := { s with wake := true }

/-- Run one operation of the queue; a process that crashes goes no further. -/
def queueCall (s : ReturnPublisher U) (c : QueueCall) :
    Option (Except QueueError Unit × ReturnPublisher U) :=
  match c.run s.queue with
  | .crashed _ => none
  | .done result w => some (result, { s with queue := w })

/-- Release the hold on an artifact of a device, and wake the loop. -/
def released (s : ReturnPublisher U) (deviceID : Bytes) : ReturnPublisher U :=
  if s.heldDevice = deviceID then
    { s with heldID := [], heldDevice := [], wake := true } else s.notified

/-- The artifact the loop would carry: the head, when it is not held and was not carried just
now. -/
def selectable (s : ReturnPublisher U) (now : Int) : Option QueuedArtifact :=
  match s.queue.mem.peek with
  | none => none
  | some queued =>
    if queued.id = s.heldID ∨ (queued.id = s.lastID ∧ now - s.lastAt < s.retry) then
      none else some queued

def selected (s : ReturnPublisher U) (now : Int) : ReturnPublisher U :=
  match s.selectable now with
  | none => { s with loop := .waiting }
  | some queued => { s with loop := .publishing queued }

/-- The head was published, or not. -/
def carried (s : ReturnPublisher U) (queued : QueuedArtifact) : Option Int → ReturnPublisher U
  | none => { s with loop := .waiting }
  | some now => { s with loop := .waiting, lastID := queued.id, lastAt := now }

/-- The acknowledgement in hand is done with, and its key not recorded. -/
def dropped (s : ReturnPublisher U) : ReturnPublisher U := { s with phase := .idle }

/-- The acknowledgement in hand decided the head, and its key is recorded, unless it has been
since. -/
def applied (s : ReturnPublisher U) (pending : PendingAck U) : ReturnPublisher U :=
  let key := (ackCall (U := U) pending.deviceID pending.payload pending.now).key pending.envelope
  let signedAt := pending.envelope.auth.signedAtMS
  match s.verifier.replay.recheck key signedAt with
  | some _ => s.dropped
  | none =>
    { s with
      verifier := { s.verifier with replay := s.verifier.replay.record key signedAt pending.now }
      phase := .idle }

def held (s : ReturnPublisher U) (queued : QueuedArtifact) (device : Bytes) : ReturnPublisher U :=
  { s with heldID := queued.id, heldDevice := device }

/-- The head was retired: its hold goes with it, and the loop is woken. -/
def retired (s : ReturnPublisher U) (queued : QueuedArtifact) : ReturnPublisher U :=
  if s.heldID = queued.id then
    { s with heldID := [], heldDevice := [], wake := true } else s.notified

section Step

variable (canonical : Bytes → Option Bytes) (memberRule : Bytes → Bool)
  (decode : Bytes → Option (AuthEnvelope U))

/-- An acknowledgement arrives. -/
def receive (s : ReturnPublisher U) (topic payload : Bytes) (now : Int) : ReturnPublisher U :=
  match deviceIDFromEvidenceInboundAckTopic topic with
  | none => s
  | some deviceID =>
    let call : VerifyCall U AckError := ackCall deviceID payload now
    match authenticate decode s.verifier call with
    | .error _ => s
    | .ok envelope =>
      let s := { s with verifier := { s.verifier with replay := s.verifier.replay.prune now } }
      match s.verifier.replay.check (call.key envelope) envelope.auth.signedAtMS now with
      | some _ => s
      | none => { s with phase := .verified ⟨topic, deviceID, payload, envelope, now⟩ }

/-- Read the acknowledgement in hand, and then the head under the mutex. -/
def readHead (s : ReturnPublisher U) (pending : PendingAck U) : ReturnPublisher U :=
  match decodeInboundAck pending.payload with
  | none => s.dropped
  | some ack =>
    if ack.deviceID ≠ pending.deviceID ∨ ack.acknowledgedAtMS ≤ 0 then s.dropped
    else
      match s.queue.mem.peek with
      | none => s.dropped
      | some queued => { s with phase := .peeked pending ack queued }

/-- Judge a verified acknowledgement. -/
def decideAck (s : ReturnPublisher U) (pending : PendingAck U) (ack : InboundAck)
    (queued : QueuedArtifact) (script : List Outcome) : Option (ReturnPublisher U) :=
  match judgeAck canonical pending.deviceID ack queued with
  | .error _ => some s.dropped
  | .ok (device, false, _) => some ((s.held queued device).applied pending)
  | .ok (_, true, _) =>
    match s.queueCall ⟨.remove queued.id, script⟩ with
    | none => none
    | some (.error _, s) => some s.dropped
    | some (.ok (), s) => some ((s.retired queued).applied pending)

/-- **What an event does**, when it can happen: the mutex is free unless a head is being judged. -/
def step (s : ReturnPublisher U) : PublisherEvent → Option (ReturnPublisher U)
  | .store artifact now script =>
    match storeCheck canonical memberRule artifact with
    | .error _ => some s
    | .ok kind => (s.queueCall ⟨.stage now kind artifact.payload, script⟩).map (·.2)
  | .probe body script => (s.queueCall ⟨.probe body, script⟩).map (·.2)
  | .notify => some s.notified
  | .receiverStateChanged deviceID => if s.mutexFree then some (s.released deviceID) else none
  | .wakeUp =>
    if s.loop = .waiting ∧ s.wake = true then some { s with loop := .due, wake := false } else none
  | .timer => if s.loop = .waiting then some { s with loop := .due } else none
  | .selectHead now => if s.mutexFree ∧ s.loop = .due then some (s.selected now) else none
  | .published carriedAt =>
    match s.loop with
    | .publishing queued =>
      -- an artifact whose device or type is not readable is never carried
      if carriedAt.isSome ∧ (s.mutexFree = false ∨ authorityQueueRouting queued = none) then none
      else some (s.carried queued carriedAt)
    | _ => none
  | .receive topic payload now =>
    match s.phase with
    | .idle => some (s.receive decode topic payload now)
    | _ => none
  | .readHead =>
    match s.phase with
    | .verified pending => some (s.readHead pending)
    | _ => none
  | .decideAck script =>
    match s.phase with
    | .peeked pending ack queued => s.decideAck canonical pending ack queued script
    | _ => none

/-! ## What holds between two events -/

variable {canonical memberRule decode}

def HeldFor (q : DurableQueue) (id device : Bytes) : Prop :=
  (id = [] ∧ device = []) ∨
    ∃ a kind, q.peek = some a ∧ a.id = id ∧ authorityQueueRouting a = some (device, kind)

/-- An acknowledgement was authenticated on the topic of a device. -/
structure Verified (decode : Bytes → Option (AuthEnvelope U)) (v : Verifier) (p : PendingAck U) :
    Prop where
  topic : deviceIDFromEvidenceInboundAckTopic p.topic = some p.deviceID
  authentic : authenticate decode v (ackCall p.deviceID p.payload p.now) = .ok p.envelope

def PhaseHolds (decode : Bytes → Option (AuthEnvelope U)) (v : Verifier) (q : DurableQueue) :
    AckPhase U → Prop
  | .idle => True
  | .verified p => Verified decode v p
  | .peeked p ack a => Verified decode v p ∧ decodeInboundAck p.payload = some ack ∧ q.peek = some a

/-- **What holds between two events**: there are places left for the events to come, the head alone
is held, for its own device, and what is judged is the head. -/
structure Settled (decode : Bytes → Option (AuthEnvelope U)) (n : Nat) (s : ReturnPublisher U) :
    Prop where
  roomy : Roomy n s.queue.mem
  held : HeldFor s.queue.mem s.heldID s.heldDevice
  phase : PhaseHolds decode s.verifier s.queue.mem s.phase

theorem Settled.consistent {s : ReturnPublisher U} {n : Nat} (h : s.Settled decode n) :
    Consistent s.queue.mem :=
  h.roomy.toConsistent

theorem Settled.fewer {s : ReturnPublisher U} {n : Nat} (h : s.Settled decode (n + 1)) :
    s.Settled decode n :=
  ⟨h.roomy.mono n.le_succ, h.held, h.phase⟩

theorem queueCall_eq_some {s s' : ReturnPublisher U} {c : QueueCall}
    {result : Except QueueError Unit} (h : s.queueCall c = some (result, s')) :
    ∃ w, c.run s.queue = .done result w ∧ s' = { s with queue := w } := by
  unfold queueCall at h
  split at h
  next => cases h
  next result' w hrun =>
    cases h
    exact ⟨w, hrun, rfl⟩

theorem HeldFor.mono {q q' : DurableQueue} {id device : Bytes} (h : HeldFor q id device)
    (hpeek : ∀ a, q.peek = some a → q'.peek = some a) : HeldFor q' id device := by
  rcases h with hnone | ⟨a, kind, hhead, hid, hdevice⟩
  · exact .inl hnone
  · exact .inr ⟨a, kind, hpeek a hhead, hid, hdevice⟩

theorem PhaseHolds.mono {v : Verifier} {q q' : DurableQueue} {phase : AckPhase U}
    (h : PhaseHolds decode v q phase) (hpeek : ∀ a, q.peek = some a → q'.peek = some a) :
    PhaseHolds decode v q' phase := by
  cases phase with
  | idle => trivial
  | verified p => exact h
  | peeked p ack a => exact ⟨h.1, h.2.1, hpeek a h.2.2⟩

theorem Settled.queueCall {s s' : ReturnPublisher U} {c : QueueCall} {n : Nat}
    {result : Except QueueError Unit} (h : s.Settled decode (n + 1)) (hop : ∀ id, c.op ≠ .remove id)
    (hcall : s.queueCall c = some (result, s')) : s'.Settled decode n := by
  obtain ⟨w, hrun, rfl⟩ := queueCall_eq_some hcall
  have heffect := QueueCall.effect h.consistent hrun
  have hpeek : ∀ a, s.queue.mem.peek = some a → w.mem.peek = some a := by
    intro a ha
    rw [peek_eq] at ha ⊢
    exact (heffect.listed h.consistent).head hop ha
  exact ⟨heffect.roomy h.roomy, h.held.mono hpeek, h.phase.mono hpeek⟩

theorem Settled.receive {s : ReturnPublisher U} {n : Nat} (h : s.Settled decode n)
    (hidle : s.phase = .idle) (topic payload : Bytes) (now : Int) :
    (s.receive decode topic payload now).Settled decode n := by
  unfold ReturnPublisher.receive
  split
  next => exact h
  next deviceID htopic =>
    dsimp only
    split
    next => exact h
    next envelope hauth =>
      split
      next => exact ⟨h.roomy, h.held, by rw [hidle]; trivial⟩
      next => exact ⟨h.roomy, h.held, ⟨htopic, hauth⟩⟩

theorem Settled.dropped {s : ReturnPublisher U} {n : Nat} (h : s.Settled decode n) :
    s.dropped.Settled decode n :=
  ⟨h.roomy, h.held, trivial⟩

theorem Settled.readHead {s : ReturnPublisher U} {pending : PendingAck U} {n : Nat}
    (h : s.Settled decode n) (hphase : s.phase = .verified pending) :
    (s.readHead pending).Settled decode n := by
  have hverified : Verified decode s.verifier pending := by
    have := h.phase
    rwa [hphase] at this
  unfold ReturnPublisher.readHead
  split
  next => exact h.dropped
  next ack hack =>
    split
    next => exact h.dropped
    next =>
      split
      next => exact h.dropped
      next queued hpeek => exact ⟨h.roomy, h.held, hverified, hack, hpeek⟩

theorem applied_same (s : ReturnPublisher U) (pending : PendingAck U) :
    (s.applied pending).queue = s.queue ∧ (s.applied pending).heldID = s.heldID ∧
      (s.applied pending).heldDevice = s.heldDevice ∧ (s.applied pending).phase = .idle := by
  unfold applied
  dsimp only
  split <;> exact ⟨rfl, rfl, rfl, rfl⟩

theorem settled_applied {s : ReturnPublisher U} {n : Nat} (hroomy : Roomy n s.queue.mem)
    (hheld : HeldFor s.queue.mem s.heldID s.heldDevice) (pending : PendingAck U) :
    (s.applied pending).Settled decode n := by
  obtain ⟨hqueue, hid, hdevice, hphase⟩ := s.applied_same pending
  refine ⟨hqueue ▸ hroomy, ?_, ?_⟩
  · rw [hqueue, hid, hdevice]
    exact hheld
  · rw [hphase]
    trivial

theorem retired_held {s : ReturnPublisher U} {queued : QueuedArtifact}
    (h : HeldFor s.queue.mem s.heldID s.heldDevice) (hpeek : s.queue.mem.peek = some queued)
    (w : World DurableQueue) :
    ({ s with queue := w }.retired queued).heldID = [] ∧
      ({ s with queue := w }.retired queued).heldDevice = [] := by
  unfold retired
  split
  next => exact ⟨rfl, rfl⟩
  next hother =>
    rcases h with hnone | ⟨a, kind, hhead, hid, -⟩
    · exact hnone
    · obtain rfl := Option.some.inj (hhead.symm.trans hpeek)
      exact absurd hid.symm hother

@[simp] theorem retired_queue (s : ReturnPublisher U) (queued : QueuedArtifact) :
    (s.retired queued).queue = s.queue := by
  unfold retired
  split <;> rfl

/-- **What judging a head can do**: nothing, hold it, or retire it when the acknowledgement names it
with an outcome that retires. -/
theorem decideAck_cases {s s' : ReturnPublisher U} {pending : PendingAck U} {ack : InboundAck}
    {queued : QueuedArtifact} {script : List Outcome}
    (h : s.decideAck canonical pending ack queued script = some s') :
    s' = s.dropped ∨
      (Names canonical pending.deviceID ack queued ∧
        s' = (s.held queued pending.deviceID).applied pending) ∨
      (∃ result w, (QueueCall.run ⟨.remove queued.id, script⟩ s.queue = .done result w) ∧
        ((∃ e, result = .error e) ∧ s' = { s with queue := w }.dropped ∨
          result = .ok () ∧ Names canonical pending.deviceID ack queued ∧
            RetiringOutcome ack.outcome ack.reason ∧
            s' = ({ s with queue := w }.retired queued).applied pending)) := by
  unfold ReturnPublisher.decideAck at h
  split at h
  next => exact .inl (Option.some.inj h).symm
  next device recognised hjudge =>
    obtain ⟨rfl, hnames, -⟩ := judgeAck_ok canonical hjudge
    exact .inr (.inl ⟨hnames, (Option.some.inj h).symm⟩)
  next device recognised hjudge =>
    obtain ⟨rfl, hnames, hdecision⟩ := judgeAck_ok canonical hjudge
    split at h
    next => cases h
    next e s₁ hcall =>
      obtain ⟨w, hrun, rfl⟩ := queueCall_eq_some hcall
      exact .inr (.inr ⟨_, w, hrun, .inl ⟨⟨e, rfl⟩, (Option.some.inj h).symm⟩⟩)
    next s₁ hcall =>
      obtain ⟨w, hrun, rfl⟩ := queueCall_eq_some hcall
      exact .inr (.inr ⟨_, w, hrun,
        .inr ⟨rfl, hnames, retiringOutcome_of_decision hdecision, (Option.some.inj h).symm⟩⟩)

theorem Settled.decideAck {s s' : ReturnPublisher U} {pending : PendingAck U} {ack : InboundAck}
    {queued : QueuedArtifact} {script : List Outcome} {n : Nat} (h : s.Settled decode (n + 1))
    (hphase : s.phase = .peeked pending ack queued)
    (hdecide : s.decideAck canonical pending ack queued script = some s') :
    s'.Settled decode n := by
  have hpeek : s.queue.mem.peek = some queued := by
    have := h.phase
    rw [hphase] at this
    exact this.2.2
  rcases decideAck_cases hdecide with rfl | ⟨hnames, rfl⟩ |
    ⟨result, w, hrun, ⟨⟨e, rfl⟩, rfl⟩ | ⟨rfl, -, -, rfl⟩⟩
  · exact h.fewer.dropped
  · obtain ⟨kind, hrouting, -⟩ := hnames.routed
    exact settled_applied (s := s.held queued pending.deviceID) h.fewer.roomy
      (.inr ⟨queued, kind, hpeek, rfl, hrouting⟩) pending
  · have heffect := QueueCall.effect h.consistent hrun
    refine ⟨heffect.roomy h.roomy, h.held.mono fun a ha => ?_, trivial⟩
    show w.mem.peek = some a
    rw [peek_eq, (heffect.listed h.consistent).failed, ← peek_eq]
    exact ha
  · have heffect := QueueCall.effect h.consistent hrun
    refine settled_applied ?_ (.inl (retired_held h.held hpeek w)) pending
    rw [retired_queue]
    exact heffect.roomy h.roomy

/-- **What an event can do**, as far as the queue, the hold and the acknowledgement in hand go. -/
inductive Moves (canonical : Bytes → Option Bytes) (decode : Bytes → Option (AuthEnvelope U))
    (s : ReturnPublisher U) : PublisherEvent → ReturnPublisher U → Prop where
  | operated {e} (c : QueueCall) (result : Except QueueError Unit) (s' : ReturnPublisher U)
      (hop : ∀ id, c.op ≠ .remove id) (hcall : s.queueCall c = some (result, s')) :
        Moves canonical decode s e s'
  | looped {e} (wake : Bool) (loop : PublishPhase) (lastID : Bytes) (lastAt : Int) :
      Moves canonical decode s e
        { s with wake := wake, loop := loop, lastID := lastID, lastAt := lastAt }
  | released (device : Bytes) :
      Moves canonical decode s (.receiverStateChanged device) (s.released device)
  | received {e} (topic payload : Bytes) (now : Int) (hphase : s.phase = .idle) :
      Moves canonical decode s e (s.receive decode topic payload now)
  | read {e} (pending : PendingAck U) (hphase : s.phase = .verified pending) :
      Moves canonical decode s e (s.readHead pending)
  | decided (pending : PendingAck U) (ack : InboundAck) (queued : QueuedArtifact)
      (script : List Outcome)
      (s' : ReturnPublisher U) (hphase : s.phase = .peeked pending ack queued)
      (hdecide : s.decideAck canonical pending ack queued script = some s') :
      Moves canonical decode s (.decideAck script) s'

theorem moves {s s' : ReturnPublisher U} {e : PublisherEvent}
    (hstep : s.step canonical memberRule decode e = some s') : Moves canonical decode s e s' := by
  cases e with
  | store artifact now script =>
    simp only [ReturnPublisher.step] at hstep
    split at hstep
    next =>
      cases hstep
      exact .looped s.wake s.loop s.lastID s.lastAt
    next kind =>
      obtain ⟨⟨result, s₁⟩, hcall, rfl⟩ := Option.map_eq_some_iff.mp hstep
      exact .operated _ result s₁ (fun _ hop => by cases hop) hcall
  | probe body script =>
    obtain ⟨⟨result, s₁⟩, hcall, rfl⟩ := Option.map_eq_some_iff.mp hstep
    exact .operated _ result s₁ (fun _ hop => by cases hop) hcall
  | notify =>
    cases hstep
    exact .looped true s.loop s.lastID s.lastAt
  | receiverStateChanged deviceID =>
    obtain ⟨-, hs⟩ := Option.ite_none_right_eq_some.mp hstep
    cases hs
    exact .released deviceID
  | wakeUp =>
    obtain ⟨-, hs⟩ := Option.ite_none_right_eq_some.mp hstep
    cases hs
    exact .looped false .due s.lastID s.lastAt
  | timer =>
    obtain ⟨-, hs⟩ := Option.ite_none_right_eq_some.mp hstep
    cases hs
    exact .looped s.wake .due s.lastID s.lastAt
  | selectHead now =>
    obtain ⟨-, hs⟩ := Option.ite_none_right_eq_some.mp hstep
    cases hs
    unfold selected
    split
    next => exact .looped s.wake .waiting s.lastID s.lastAt
    next queued _ => exact .looped s.wake (.publishing queued) s.lastID s.lastAt
  | published carriedAt =>
    simp only [ReturnPublisher.step] at hstep
    split at hstep
    next queued hloop =>
      obtain ⟨-, hs⟩ := Option.ite_none_left_eq_some.mp hstep
      cases hs
      cases carriedAt with
      | none => exact .looped s.wake .waiting s.lastID s.lastAt
      | some now => exact .looped s.wake .waiting queued.id now
    next => cases hstep
  | receive topic payload now =>
    simp only [ReturnPublisher.step] at hstep
    split at hstep
    next hidle =>
      cases hstep
      exact .received topic payload now hidle
    next => cases hstep
  | readHead =>
    simp only [ReturnPublisher.step] at hstep
    split at hstep
    next pending hphase =>
      cases hstep
      exact .read pending hphase
    next => cases hstep
  | decideAck script =>
    simp only [ReturnPublisher.step] at hstep
    split at hstep
    next pending ack queued hphase => exact .decided pending ack queued script s' hphase hstep
    next => cases hstep

/-- **Every event leaves everything settled.** -/
theorem Settled.moves {s s' : ReturnPublisher U} {e : PublisherEvent} {n : Nat}
    (h : s.Settled decode (n + 1)) (hmoves : Moves canonical decode s e s') :
    s'.Settled decode n := by
  cases hmoves with
  | operated c result _ hop hcall => exact h.queueCall hop hcall
  | looped => exact ⟨h.fewer.roomy, h.held, h.phase⟩
  | released device =>
    unfold released
    split
    next => exact ⟨h.fewer.roomy, .inl ⟨rfl, rfl⟩, h.phase⟩
    next => exact ⟨h.fewer.roomy, h.held, h.phase⟩
  | received topic payload now hphase => exact h.fewer.receive hphase topic payload now
  | read pending hphase => exact h.fewer.readHead hphase
  | decided pending ack queued script _ hphase hdecide => exact h.decideAck hphase hdecide

/-! ## A hold lasts -/

def queuedIDs (s : ReturnPublisher U) : List Bytes := s.queue.mem.artifacts.map (·.id)

theorem receive_heldID (s : ReturnPublisher U) (topic payload : Bytes) (now : Int) :
    (s.receive decode topic payload now).heldID = s.heldID ∧
      (s.receive decode topic payload now).heldDevice = s.heldDevice ∧
      (s.receive decode topic payload now).queue = s.queue := by
  unfold ReturnPublisher.receive
  split
  next => exact ⟨rfl, rfl, rfl⟩
  next =>
    dsimp only
    split
    next => exact ⟨rfl, rfl, rfl⟩
    next => split <;> exact ⟨rfl, rfl, rfl⟩

theorem readHead_heldID (s : ReturnPublisher U) (pending : PendingAck U) :
    (s.readHead pending).heldID = s.heldID ∧ (s.readHead pending).heldDevice = s.heldDevice ∧
      (s.readHead pending).queue = s.queue := by
  unfold ReturnPublisher.readHead
  split
  next => exact ⟨rfl, rfl, rfl⟩
  next =>
    split
    next => exact ⟨rfl, rfl, rfl⟩
    next => split <;> exact ⟨rfl, rfl, rfl⟩

/-- A hold lasts through every event but the change of its receiver's state and its retirement. -/
theorem Moves.held {s s' : ReturnPublisher U} {e : PublisherEvent} {n : Nat}
    (hmoves : Moves canonical decode s e s') (h : s.Settled decode n) (hheld : s.heldID ≠ [])
    (he : e ≠ .receiverStateChanged s.heldDevice) (hkept : s.heldID ∈ s'.queuedIDs) :
    s'.heldID = s.heldID ∧ s'.heldDevice = s.heldDevice := by
  cases hmoves with
  | operated c result _ hop hcall =>
    obtain ⟨w, -, rfl⟩ := queueCall_eq_some hcall
    exact ⟨rfl, rfl⟩
  | looped => exact ⟨rfl, rfl⟩
  | released device =>
    have hother : s.heldDevice ≠ device := fun hsame => he (hsame ▸ rfl)
    rw [ReturnPublisher.released, if_neg hother]
    exact ⟨rfl, rfl⟩
  | received topic payload now _ => exact ⟨(s.receive_heldID ..).1, (s.receive_heldID ..).2.1⟩
  | read pending _ => exact ⟨(s.readHead_heldID pending).1, (s.readHead_heldID pending).2.1⟩
  | decided pending ack queued script _ hphase hdecide =>
    have hpeek : s.queue.mem.peek = some queued := by
      have := h.phase
      rw [hphase] at this
      exact this.2.2
    -- the held artifact is the head, so it is the one that is judged
    obtain ⟨hnone, -⟩ | ⟨a, kind, hhead, hid, hrouting⟩ := h.held
    · exact absurd hnone hheld
    obtain rfl := Option.some.inj (hhead.symm.trans hpeek)
    rcases decideAck_cases hdecide with rfl | ⟨hnames, rfl⟩ |
      ⟨result, w, hrun, ⟨-, rfl⟩ | ⟨rfl, -, -, rfl⟩⟩
    · exact ⟨rfl, rfl⟩
    · obtain ⟨kind', hrouting', -⟩ := hnames.routed
      obtain ⟨-, hheldID, hheldDevice, -⟩ := (s.held a pending.deviceID).applied_same pending
      rw [hrouting] at hrouting'
      obtain ⟨hdevice, -⟩ := Prod.mk.inj (Option.some.inj hrouting')
      exact ⟨hheldID.trans hid, hheldDevice.trans hdevice.symm⟩
    · exact ⟨rfl, rfl⟩
    · obtain ⟨hqueue, -⟩ := applied_same (retired { s with queue := w } a) pending
      have hlisted := (QueueCall.effect h.consistent hrun).listed h.consistent
      rw [queuedIDs, hqueue, retired_queue] at hkept
      rw [← hid] at hkept
      exact absurd hkept hlisted.removed

/-- The events through which a hold on an artifact of a device lasts. -/
def KeepsHold (canonical : Bytes → Option Bytes) (memberRule : Bytes → Bool)
    (decode : Bytes → Option (AuthEnvelope U)) (id device : Bytes) (s : ReturnPublisher U)
    (e : PublisherEvent) : Prop :=
  e ≠ .receiverStateChanged device ∧
    ∀ s', s.step canonical memberRule decode e = some s' → id ∈ s'.queuedIDs

theorem held_runAll {s s' : ReturnPublisher U} {es : List PublisherEvent}
    (h : s.Settled decode (0 + es.length)) (hheld : s.heldID ≠ [])
    (hes : StepsMeet (step canonical memberRule decode)
      (KeepsHold canonical memberRule decode s.heldID s.heldDevice) s es)
    (hrun : runAll (step canonical memberRule decode) s es = some s') :
    s'.heldID = s.heldID ∧ s'.heldDevice = s.heldDevice := by
  refine (runAll_countdown (I := fun n t => t.Settled decode n ∧ t.heldID = s.heldID ∧
    t.heldDevice = s.heldDevice) ?_ hes ⟨h, rfl, rfl⟩ hrun).2
  intro n t e t' ⟨he, hkept⟩ ⟨ht, hid, hdevice⟩ hstep
  have hmoves := moves hstep
  have := hmoves.held ht (hid ▸ hheld) (hdevice ▸ he) (hid ▸ hkept t' hstep)
  exact ⟨ht.moves hmoves, this.1.trans hid, this.2.trans hdevice⟩

theorem selected_of_held {s s' : ReturnPublisher U} {now : Int} {queued : QueuedArtifact}
    (hstep : s.step canonical memberRule decode (.selectHead now) = some s')
    (hpicked : s'.loop = .publishing queued) : queued.id ≠ s.heldID := by
  obtain ⟨⟨-, hdue⟩, hs⟩ := Option.ite_none_right_eq_some.mp hstep
  cases hs
  unfold selected selectable at hpicked
  cases hpeek : s.queue.mem.peek with
  | none =>
    rw [hpeek] at hpicked
    cases hpicked
  | some head =>
    rw [hpeek] at hpicked
    by_cases hskip : head.id = s.heldID ∨ (head.id = s.lastID ∧ now - s.lastAt < s.retry)
    · simp only [if_pos hskip] at hpicked
      cases hpicked
    · simp only [if_neg hskip] at hpicked
      cases hpicked
      exact fun hsame => hskip (.inl hsame)

/-! ## Leaving the queue -/

/-- **An artifact is retired by an acknowledgement**: it is the head, and what is judged is
authentic, came on the topic of the artifact's own device, names it, and has an outcome that
retires. -/
def RetiredByAck (canonical : Bytes → Option Bytes) (decode : Bytes → Option (AuthEnvelope U))
    (s : ReturnPublisher U) (a : QueuedArtifact) : Prop :=
  s.queue.mem.peek = some a ∧
    ∃ pending ack, s.phase = .peeked pending ack a ∧ Verified decode s.verifier pending ∧
      decodeInboundAck pending.payload = some ack ∧ Names canonical pending.deviceID ack a ∧
      RetiringOutcome ack.outcome ack.reason

theorem Moves.left {s s' : ReturnPublisher U} {e : PublisherEvent} {n : Nat}
    (hmoves : Moves canonical decode s e s') (h : s.Settled decode n) {a : QueuedArtifact}
    (ha : a ∈ s.queue.mem.artifacts) (hleft : a ∉ s'.queue.mem.artifacts) :
    (∃ script, e = .decideAck script) ∧ s.RetiredByAck canonical decode a := by
  cases hmoves with
  | operated c result _ hop hcall =>
    obtain ⟨w, hrun, rfl⟩ := queueCall_eq_some hcall
    have hlisted := (QueueCall.effect h.consistent hrun).listed h.consistent
    exact absurd (hlisted.left ha hleft).1 (hop a.id)
  | looped => exact absurd ha hleft
  | released device =>
    unfold ReturnPublisher.released at hleft
    split at hleft <;> exact absurd ha hleft
  | received topic payload now _ =>
    rw [(s.receive_heldID ..).2.2] at hleft
    exact absurd ha hleft
  | read pending _ =>
    rw [(s.readHead_heldID pending).2.2] at hleft
    exact absurd ha hleft
  | decided pending ack queued script _ hphase hdecide =>
    have hjudged := h.phase
    rw [hphase] at hjudged
    obtain ⟨hverified, hack, hpeek⟩ := hjudged
    rcases decideAck_cases hdecide with rfl | ⟨-, rfl⟩ |
      ⟨result, w, hrun, ⟨⟨e, rfl⟩, rfl⟩ | ⟨rfl, hnames, houtcome, rfl⟩⟩
    · exact absurd ha hleft
    · rw [((s.held queued pending.deviceID).applied_same pending).1] at hleft
      exact absurd ha hleft
    · have hlisted := (QueueCall.effect h.consistent hrun).listed h.consistent
      exact absurd (hlisted.left ha hleft).2 (by simp)
    · obtain ⟨hqueue, -⟩ := applied_same (retired { s with queue := w } queued) pending
      rw [hqueue, retired_queue] at hleft
      have hlisted := (QueueCall.effect h.consistent hrun).listed h.consistent
      have hid : queued.id = a.id := QueueOp.remove.inj (hlisted.left ha hleft).1
      have hqueued : queued ∈ s.queue.mem.artifacts := by
        rw [peek_eq] at hpeek
        exact List.mem_of_mem_head? hpeek
      obtain rfl : queued = a :=
        List.inj_on_of_nodup_map h.consistent.nodup_artifacts hqueued ha hid
      exact ⟨⟨script, rfl⟩, hpeek, pending, ack, hphase, hverified, hack, hnames, houtcome⟩

/-! ## Every run -/

variable {opts : QueueOptions} {d : Directory} {q : DurableQueue} {secret previous : Bytes}
  {retry startClock : Int} {s₀ s : ReturnPublisher U} {es : List PublisherEvent}

theorem settled_newReturnPublisher {w : World DurableQueue} {n : Nat} (hq : Roomy n w.mem)
    (hnew : newReturnPublisher w secret previous retry startClock = .ok s₀) :
    s₀.Settled decode n := by
  unfold newReturnPublisher at hnew
  split at hnew
  next => cases hnew
  next =>
    cases hnew
    exact ⟨hq, .inl ⟨rfl, rfl⟩, trivial⟩

theorem openDurableQueue_of_sink (hopen : openDurableAuthoritySink opts d = .ok q) :
    openDurableQueue opts d = .ok q := by
  unfold openDurableAuthoritySink at hopen
  split at hopen
  next => cases hopen
  next q' hq =>
    split at hopen
    next => cases hopen
    next =>
      cases hopen
      exact hq

/-- **A held head waits for its receiver, and the queue for the acknowledgement of its head.** In
every run of fewer than `2 ^ 62` events, from any directory that opened with its places below that:
nothing is held, or the head is, for its device; a held head is not picked by the loop before the
state of its device's receiver changes or it is retired; and an artifact leaves the queue only as
its head, by an authentic acknowledgement on the topic of its device that names it, with an outcome
that retires. -/
theorem held_and_retired_runAll (hopen : openDurableAuthoritySink opts d = .ok q)
    (hearly : EarlyPlaces q) (temps : Nat) (hevents : es.length < 2 ^ 62)
    (hnew : newReturnPublisher (openedWorld q d temps) secret previous retry startClock = .ok s₀)
    (hrun : runAll (step canonical memberRule decode) s₀ es = some s) :
    HeldFor s.queue.mem s.heldID s.heldDevice ∧
      (s.heldID ≠ [] → ∀ es' s', es.length + es'.length < 2 ^ 62 →
        StepsMeet (step canonical memberRule decode)
          (KeepsHold canonical memberRule decode s.heldID s.heldDevice) s es' →
        runAll (step canonical memberRule decode) s es' = some s' →
        s'.heldID = s.heldID ∧ s'.heldDevice = s.heldDevice ∧
          ∀ now s'' queued, s'.step canonical memberRule decode (.selectHead now) = some s'' →
            s''.loop = .publishing queued → queued.id ≠ s.heldID) ∧
      ∀ e s', s.step canonical memberRule decode e = some s' → ∀ a ∈ s.queue.mem.artifacts,
        a ∉ s'.queue.mem.artifacts →
          (∃ script, e = .decideAck script) ∧ s.RetiredByAck canonical decode a := by
  -- after the run there are places left for as many events as the bound still allows
  have hsettled : ∀ n, n + es.length < 2 ^ 62 → s.Settled decode n := by
    intro n hn
    have hroomy := hearly.roomy (openDurableQueue_of_sink hopen) hn
    have hfirst : s₀.Settled decode (n + es.length) := settled_newReturnPublisher hroomy hnew
    exact runAll_countdown (fun _ _ _ _ _ ht hstep => ht.moves (moves hstep)) (stepsMeet_true s₀ es)
      hfirst hrun
  have hs : s.Settled decode 0 := hsettled 0 (by omega)
  refine ⟨hs.held, ?_, ?_⟩
  · intro hheld es' s' hlength hes' hrun'
    obtain ⟨hid, hdevice⟩ := held_runAll (hsettled _ (by omega)) hheld hes' hrun'
    refine ⟨hid, hdevice, ?_⟩
    intro now s'' queued hstep hpicked
    exact hid ▸ selected_of_held hstep hpicked
  · intro e s' hstep a ha hleft
    exact (moves hstep).left hs ha hleft

end Step

/-! A receipt is staged, and its device refuses it for want of a key: from then on it is held. -/

def heldReceipt : AuthorityArtifact :=
  ⟨.deliveryReceipt, ascii "d", ascii "\x7b\"device_id\":\"d\",\"from_seq\":1,\"to_seq\":1\x7d"⟩

/-- The device's refusal of the receipt, around the text of its authenticator. -/
def heldAckAround (auth : Bytes) : Bytes :=
  ascii "\x7b\"acknowledged_at_ms\":1,\"artifact_digest\":\"" ++ payloadDigest
    heldReceipt.payload ++
    ascii "\",\"artifact_type\":\"delivery_receipt\"," ++ auth ++
    ascii "\"device_id\":\"d\",\"outcome\":\"refused\",\"reason\":\"unknown_key\"\x7d"

/-- The refusal, signed by the device with the secret `s`. -/
def heldAck : Bytes :=
  heldAckAround (ascii "\"auth\":\x7b\"scheme\":\"hmac-sha256\",\"signature\":\"" ++
    signaturePrefix ++
    computeSignature (ascii "s")
      (signingInput evidenceInboundAckMessageType (ascii "d") [] 1 (heldAckAround [])) ++
    ascii "\",\"signed_at_ms\":1\x7d,")

def heldEvents : List PublisherEvent :=
  [.store heldReceipt 1 [], .receive (ascii "ori/d/evidence/inbound/ack") heldAck 1, .readHead,
    .decideAck [], .timer, .selectHead 2]

/-- The step of a publisher, with the canonical JSON library that does what is documented. -/
def heldStep : ReturnPublisher (List (Bytes × JsonValue)) → PublisherEvent →
    Option (ReturnPublisher (List (Bytes × JsonValue))) :=
  step documentedJSON.marshalWire (admitInbound documentedJSON) (decodeAuthPayload documentedJSON)

def heldStart : ReturnPublisher (List (Bytes × JsonValue)) where
  verifier := ⟨ascii "s", [], newReplayState 300000 300000 false 131072 0⟩
  queue := openedWorld (emptyQueue plainOptions) freshDirectory 0
  retry := defaultRetry
  wake := false
  heldID := []
  heldDevice := []
  lastID := []
  lastAt := 0
  loop := .waiting
  phase := .idle

theorem held_and_retired_runAll_heldEvents :
    newReturnPublisher (openedWorld (emptyQueue plainOptions) freshDirectory 0) (ascii "s") [] 0 0
        = .ok heldStart ∧
      ∃ s, runAll heldStep heldStart heldEvents = some s ∧ s.heldID ≠ [] ∧
        HeldFor s.queue.mem s.heldID s.heldDevice ∧
        ∀ now s' queued, heldStep s (.selectHead now) = some s' → s'.loop = .publishing queued →
          queued.id ≠ s.heldID := by
  have hopen : openDurableAuthoritySink plainOptions freshDirectory
      = .ok (emptyQueue plainOptions) := by
    unfold openDurableAuthoritySink
    rw [openDurableQueue_plainOptions]
    rfl
  have hnew : newReturnPublisher (openedWorld (emptyQueue plainOptions) freshDirectory 0)
    (ascii "s") [] 0 0
      = .ok heldStart := rfl
  obtain ⟨s, hrun, hheld⟩ := Option.map_eq_some_iff.mp (by decide +kernel :
    (runAll heldStep heldStart heldEvents).map (fun s => decide (s.heldID ≠ [])) = some true)
  have hheld : s.heldID ≠ [] := of_decide_eq_true hheld
  obtain ⟨hheldFor, hlasts, -⟩ := held_and_retired_runAll hopen
    (by simp [EarlyPlaces, emptyQueue]) 0 (by decide) hnew hrun
  exact ⟨hnew, s, hrun, hheld, hheldFor, (hlasts hheld [] s (by decide) trivial rfl).2.2⟩

end ReturnPublisher

end OriGateway
