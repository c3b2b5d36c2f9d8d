import OriGateway.Delivery.Lane
import OriGateway.Foundation.Runs

/-! # The delivery worker

The worker's lanes over one durable queue. A step (**`Worker.step`**) is one atomic action of one of
them, an operation of the admission path on the queue, or one half of a handoff; an interleaving is
a list of such steps. The journal keeps what can be seen from outside. **`Worker.lane_change`** and
**`Worker.queue_change`** are everything a step can do. -/

namespace OriGateway

open Foundation

/-! ## Lane keys -/

def Lane.name : Lane → Bytes
  | registration => ascii "registration"
  | evidence => ascii "evidence"

theorem Lane.name_inj {a b : Lane} (h : a.name = b.name) : a = b := by
  cases a <;> cases b <;> first | rfl | exact absurd h (by decide)

def LaneKey.LE (a b : LaneKey) : Prop :=
  a.device < b.device ∨ a.device = b.device ∧ a.lane.name ≤ b.lane.name

namespace LaneKey

instance : DecidableRel LaneKey.LE := fun a b =>
  inferInstanceAs
    (Decidable (a.device < b.device ∨ a.device = b.device ∧ a.lane.name ≤ b.lane.name))

instance : IsTrans LaneKey LaneKey.LE where
  trans := by
    rintro a b c (hab | ⟨hab, hab'⟩) (hbc | ⟨hbc, hbc'⟩)
    · exact .inl (List.lt_trans hab hbc)
    · exact .inl (hbc ▸ hab)
    · exact .inl (hab ▸ hbc)
    · exact .inr ⟨hab.trans hbc, List.le_trans hab' hbc'⟩

instance : Std.Antisymm LaneKey.LE where
  antisymm := by
    rintro ⟨d, l⟩ ⟨d', l'⟩ (hab | ⟨hab, hab'⟩) (hba | ⟨hba, hba'⟩)
    · exact absurd (List.lt_trans hab hba) (List.lt_irrefl _)
    · exact absurd hab (hba ▸ List.lt_irrefl _)
    · exact absurd hba (hab ▸ List.lt_irrefl _)
    · cases hab
      exact congrArg _ (Lane.name_inj (List.le_antisymm hab' hba'))

instance : Std.Total LaneKey.LE where
  total a b := by
    rcases Std.lt_trichotomy a.device b.device with h | h | h
    · exact .inl (.inl h)
    · rcases List.le_total a.lane.name b.lane.name with h' | h'
      · exact .inl (.inr ⟨h, h'⟩)
      · exact .inr (.inr ⟨h.symm, h'⟩)
    · exact .inr (.inl h)

def evidence (key : LaneKey) : LaneKey := ⟨key.device, .evidence⟩

end LaneKey

def DurableQueue.lanes (q : DurableQueue) : List LaneKey := sortedKeys LaneKey.LE q.laneItems.keys

def QueueOp.ofAdmission : QueueOp → Bool
  | enqueue .. | probe .. | noteUnconfiguredDevice .. | noteAdmittedDevice .. => true
  | _ => false

/-! ## The machine -/

/-- A delivery worker and the queue it drains. -/
structure Worker where
  config : WorkerConfig
  queue : World DurableQueue
  lanes : GoMap LaneKey DeliveryLane
  /-- The lanes that are still to be restored before the worker is there. -/
  restoring : List LaneKey
  /-- The clamped deadline of the lane restored last, until it is written. -/
  clamp : Option BackoffRecord
  running : Bool

/-- A step of the worker and its surroundings. -/
inductive WorkerEvent where
  /-- The admission path makes an operation on the queue. -/
  | queue (c : QueueCall)
  /-- The next lane is restored, at these readings of the clocks. -/
  | restore (wall mono now : Int)
  /-- The clamped deadline of a restored lane is written. -/
  | clamp (script : List Outcome)
  | run
  | lane (key : LaneKey)
  | notify (key : LaneKey)
  /-- A lane makes a step that is no operation of the queue. -/
  | step (key : LaneKey) (input : LaneInput)
  /-- A lane makes the operation of the queue its phase stands at. -/
  | call (key : LaneKey) (script : List Outcome)

def WorkerEvent.actor : WorkerEvent → Option LaneKey
  | step key _ => some key
  | call key _ => some key
  | _ => none

def LaneInput.isReturned : LaneInput → Bool
  | returned _ => true
  | _ => false

/-- The result of a call that does not crash, and what it leaves. -/
def QueueCall.finished (c : QueueCall) (w : World DurableQueue) :
    Option (Except QueueError Unit × World DurableQueue) :=
  match c.run w with
  | .done result w' => some (result, w')
  | .crashed _ => none

theorem QueueCall.finished_eq_some {c : QueueCall} {w w' : World DurableQueue}
    {result : Except QueueError Unit} :
    c.finished w = some (result, w') ↔ c.run w = .done result w' := by
  unfold finished
  cases c.run w <;> simp

/-- A worker over an opened queue. -/
def newDeliveryWorker (config : WorkerConfig) (queue : World DurableQueue) : Worker where
  config := config
  queue := queue
  lanes := ∅
  restoring := queue.mem.lanes
  clamp := none
  running := false

namespace Worker

def ready (w : Worker) : Bool := w.restoring.isEmpty && w.clamp.isNone

def env (w : Worker) (key : LaneKey) : LaneEnv where
  head := w.queue.mem.peekLane key
  holdFor := w.queue.mem.holds.lookup
  routes := w.queue.mem.routingDeviceID

def laneAt (w : Worker) (key : LaneKey) : DeliveryLane := (w.lanes.lookup key).getD .fresh

def setLane (w : Worker) (key : LaneKey) (l : DeliveryLane) : Worker :=
  { w with lanes := w.lanes.insert key l }

def lane (w : Worker) (key : LaneKey) : Worker := w.setLane key (w.laneAt key)

def notify (w : Worker) (key : LaneKey) : Worker := w.setLane key (w.laneAt key).notify

/-- What a lane's step does to the device's other lane: a registration that was retired is a handoff
to the evidence lane. -/
def handOver (w : Worker) (key : LaneKey) (phase : LanePhase) : Worker :=
  match phase with
  | .opening => w.lane key.evidence
  | .handing => w.notify key.evidence
  | _ => w

/-- A lane's step. -/
def laneStep (w : Worker) (key : LaneKey) (input : LaneInput) : Option Worker := do
  let l ← w.lanes.lookup key
  let l' ← l.step w.config (w.env key) input
  return (w.handOver key l.phase).setLane key l'

def laneCall (w : Worker) (key : LaneKey) : Option QueueOp := do
  let l ← w.lanes.lookup key
  l.phase.call

/-- The queue's operation an event makes. -/
def call (w : Worker) : WorkerEvent → Option QueueCall
  | .queue c => if c.op.ofAdmission then some c else none
  | .clamp script => w.clamp.map fun record => ⟨.setBackoff record, script⟩
  | .call key script => if w.running then (w.laneCall key).map fun op => ⟨op, script⟩ else none
  | _ => none

/-- The worker once that operation returned. -/
def returned (w : Worker) (queue : World DurableQueue) (result : Except QueueError Unit) :
    WorkerEvent → Option Worker
  | .clamp _ => some { w with queue := queue, clamp := none }
  | .call key _ => (w.laneStep key (.returned result)).map fun w => { w with queue := queue }
  | _ => some { w with queue := queue }

/-- An event that makes no operation. -/
def quiet (w : Worker) : WorkerEvent → Option Worker
  | .restore wall mono now =>
    match w.restoring, w.clamp, w.running with
    | key :: rest, none, false =>
      let restored :=
        (w.laneAt key).restore w.config (w.env key) w.queue.mem.backoffs.lookup wall mono now
      some { w.setLane key restored.1 with restoring := rest, clamp := restored.2 }
    | _, _, _ => none
  | .run => if w.ready && !w.running then some { w with running := true } else none
  | .lane key => if w.ready then some (w.lane key) else none
  | .notify key => if w.ready && (w.lanes.lookup key).isSome then some (w.notify key) else none
  | .step key input => if w.running && !input.isReturned then w.laneStep key input else none
  | _ => none

/-- **One step of the worker.** -/
def step (w : Worker) (e : WorkerEvent) : Option Worker :=
  match w.call e with
  | some c => do
      let (result, queue) ← c.finished w.queue
      w.returned queue result e
  | none => w.quiet e

/-! ## What a step can do -/

variable {w w' : Worker} {e : WorkerEvent} {key : LaneKey} {input : LaneInput}

@[simp] theorem lookup_setLane (w : Worker) (key key' : LaneKey) (l : DeliveryLane) :
    (w.setLane key l).lanes.lookup key' = if key' = key then some l else w.lanes.lookup key' :=
  lookup_insert_ite _ _ _ _

theorem laneStep_eq_some :
    w.laneStep key input = some w' ↔ ∃ l l', w.lanes.lookup key = some l ∧
      l.step w.config (w.env key) input = some l' ∧
      w' = (w.handOver key l.phase).setLane key l' := by
  simp only [laneStep, Option.bind_eq_bind, Option.bind_eq_some_iff, Option.pure_def,
    Option.some.injEq]
  constructor
  · rintro ⟨l, hl, l', hl', rfl⟩
    exact ⟨l, l', hl, hl', rfl⟩
  · rintro ⟨l, l', hl, hl', rfl⟩
    exact ⟨l, hl, l', hl', rfl⟩

/-- A lane's step touches nothing but lanes. -/
theorem frame_laneStep (h : w.laneStep key input = some w') :
    w'.queue = w.queue ∧ w'.config = w.config ∧ w'.running = w.running ∧ w'.clamp = w.clamp := by
  obtain ⟨l, l', -, -, rfl⟩ := laneStep_eq_some.mp h
  show (w.handOver key l.phase).queue = _ ∧ (w.handOver key l.phase).config = _ ∧
    (w.handOver key l.phase).running = _ ∧ (w.handOver key l.phase).clamp = _
  unfold handOver
  split <;> exact ⟨rfl, rfl, rfl, rfl⟩

/-- **What a step is**, for each event. -/
inductive Steps (w : Worker) : WorkerEvent → Worker → Prop where
  | queue {c : QueueCall} {result : Except QueueError Unit} {queue : World DurableQueue}
      (hcall : w.call (.queue c) = some c) (hrun : c.run w.queue = .done result queue) :
      Steps w (.queue c) { w with queue := queue }
  | clamp {script : List Outcome} {c : QueueCall} {result : Except QueueError Unit}
      {queue : World DurableQueue} (hcall : w.call (.clamp script) = some c)
      (hrun : c.run w.queue = .done result queue) :
      Steps w (.clamp script) { w with queue := queue, clamp := none }
  | call {key : LaneKey} {script : List Outcome} {op : QueueOp} {result : Except QueueError Unit}
      {queue : World DurableQueue} {w₁ : Worker} (hrunning : w.running = true)
      (hop : w.laneCall key = some op)
      (hrun : QueueCall.run ⟨op, script⟩ w.queue = .done result queue)
      (hlane : w.laneStep key (.returned result) = some w₁) :
      Steps w (.call key script) { w₁ with queue := queue }
  | restore {wall mono now : Int} {key : LaneKey} {rest : List LaneKey}
      (hrunning : w.running = false) :
      Steps w (.restore wall mono now)
        { w.setLane key ((w.laneAt key).restore w.config (w.env key) w.queue.mem.backoffs.lookup
            wall mono now).1 with
          restoring := rest
          clamp := ((w.laneAt key).restore w.config (w.env key) w.queue.mem.backoffs.lookup
            wall mono now).2 }
  | run (hready : w.ready = true) : Steps w .run { w with running := true }
  | lane {key : LaneKey} (hready : w.ready = true) : Steps w (.lane key) (w.lane key)
  | notify {key : LaneKey} (hready : w.ready = true) : Steps w (.notify key) (w.notify key)
  | step {key : LaneKey} {input : LaneInput} {w' : Worker} (hrunning : w.running = true)
      (hinput : input.isReturned = false) (hlane : w.laneStep key input = some w') :
      Steps w (.step key input) w'

/-- An event that makes no operation of the queue is one of these. -/
theorem steps_of_quiet (h : w.quiet e = some w') : w.Steps e w' := by
  cases e with
  | queue | clamp | call => cases h
  | restore wall mono now =>
    simp only [quiet] at h
    split at h
    · next hrunning =>
      cases h
      exact .restore hrunning
    · cases h
  | run =>
    obtain ⟨hguard, hw⟩ := Option.ite_none_right_eq_some.mp h
    cases hw
    exact .run (Bool.and_elim_left hguard)
  | lane key =>
    obtain ⟨hready, hw⟩ := Option.ite_none_right_eq_some.mp h
    cases hw
    exact .lane hready
  | notify key =>
    obtain ⟨hguard, hw⟩ := Option.ite_none_right_eq_some.mp h
    cases hw
    exact .notify (Bool.and_elim_left hguard)
  | step key input =>
    obtain ⟨hguard, hlane⟩ := Option.ite_none_right_eq_some.mp h
    simp only [Bool.and_eq_true, Bool.not_eq_true'] at hguard
    exact .step hguard.1 hguard.2 hlane

/-- **Every step is one of these.** -/
theorem steps_of_step (h : w.step e = some w') : w.Steps e w' := by
  unfold step at h
  cases hcall : w.call e with
  | none =>
    rw [hcall] at h
    exact steps_of_quiet h
  | some c =>
    rw [hcall] at h
    obtain ⟨⟨result, queue⟩, hrun, h⟩ := Option.bind_eq_some_iff.mp h
    rw [QueueCall.finished_eq_some] at hrun
    cases e with
    | queue c' =>
      cases h
      obtain ⟨-, hc⟩ := Option.ite_none_right_eq_some.mp hcall
      cases hc
      exact .queue hcall hrun
    | clamp script =>
      cases h
      exact .clamp hcall hrun
    | call key script =>
      obtain ⟨w₁, hlane, rfl⟩ := Option.map_eq_some_iff.mp h
      obtain ⟨hrunning, hc⟩ := Option.ite_none_right_eq_some.mp hcall
      obtain ⟨op, hop, rfl⟩ := Option.map_eq_some_iff.mp hc
      exact .call hrunning hop hrun hlane
    | restore | run | lane | notify | step => cases hcall

/-- **What a step does to the queue**: the operation it makes, or nothing. -/
theorem queue_change (h : w.step e = some w') :
    (w.call e = none ∧ w'.queue = w.queue) ∨
      ∃ c result, w.call e = some c ∧ c.run w.queue = .done result w'.queue := by
  cases steps_of_step h with
  | queue hcall hrun => exact .inr ⟨_, _, hcall, hrun⟩
  | clamp hcall hrun => exact .inr ⟨_, _, hcall, hrun⟩
  | call hrunning hop hrun hlane => exact .inr ⟨_, _, by simp [call, hrunning, hop], hrun⟩
  | restore | run | lane | notify => exact .inl ⟨rfl, rfl⟩
  | step _ _ hlane => exact .inl ⟨rfl, (frame_laneStep hlane).1⟩

/-- A step keeps the configuration, and a worker that runs goes on running. -/
theorem settings_step (h : w.step e = some w') :
    w'.config = w.config ∧ (w.running = true → w'.running = true) := by
  cases steps_of_step h with
  | queue | clamp | restore | lane | notify => exact ⟨rfl, id⟩
  | run => exact ⟨rfl, fun _ => rfl⟩
  | call _ _ _ hlane | step _ _ hlane =>
    obtain ⟨-, hconfig, hrunning, -⟩ := frame_laneStep hlane
    exact ⟨hconfig, hrunning.trans⟩

/-- Whether an event signals a lane: a handoff notifies it, or the device's registration lane
does. -/
def signals (w : Worker) (key : LaneKey) : WorkerEvent → Bool
  | .notify key' => key' == key
  | .step key' _ =>
    key' != key && key'.evidence == key && decide
      ((w.lanes.lookup key').map (·.phase) = some .handing)
  | _ => false

/-- The input an event gives to a lane. -/
inductive Drives (w w' : Worker) (key : LaneKey) : WorkerEvent → LaneInput → Prop where
  | step {input : LaneInput} (hinput : input.isReturned = false) :
      Drives w w' key (.step key input) input
  | call {script : List Outcome} {op : QueueOp} {result : Except QueueError Unit}
      (hop : w.laneCall key = some op)
        (hrun : QueueCall.run ⟨op, script⟩ w.queue = .done result w'.queue) :
      Drives w w' key (.call key script) (.returned result)

/-- **What a step does to a lane.** -/
inductive LaneChange (w : Worker) (e : WorkerEvent) (w' : Worker) (key : LaneKey) :
    Option DeliveryLane → Option DeliveryLane → Prop where
  | same (o : Option DeliveryLane) (hactor : e.actor ≠ some key)
      (hsignals : w.signals key e = false) :
      LaneChange w e w' key o o
  | created (hactor : e.actor ≠ some key) (hsignals : w.signals key e = false) :
      LaneChange w e w' key none (some .fresh)
  | notified (o : Option DeliveryLane) (hactor : e.actor ≠ some key)
      (hsignals : w.signals key e = true) :
      LaneChange w e w' key o (some (o.getD .fresh).notify)
  | restored (o : Option DeliveryLane) (wall mono now : Int) (hevent : e = .restore wall mono now)
      (hrunning : w.running = false) :
      LaneChange w e w' key o (some ((o.getD .fresh).restore w.config (w.env key)
        w.queue.mem.backoffs.lookup wall mono now).1)
  | stepped (l l' : DeliveryLane) (input : LaneInput) (hrunning : w.running = true)
      (hsignals : w.signals key e = false) (hdrives : Drives w w' key e input)
      (hstep : l.step w.config (w.env key) input = some l') :
        LaneChange w e w' key (some l) (some l')

theorem lookup_lane (w : Worker) (key key' : LaneKey) :
    (w.lane key).lanes.lookup key' = w.lanes.lookup key' ∨
      w.lanes.lookup key' = none ∧ (w.lane key).lanes.lookup key' = some .fresh := by
  rw [lane, lookup_setLane, laneAt]
  split
  · next heq =>
    subst heq
    cases hlookup : w.lanes.lookup key' with
    | none => exact .inr ⟨rfl, rfl⟩
    | some l => exact .inl rfl
  · exact .inl rfl

/-- What a lane's step does to a lane: its own step, or the handoff of a retired registration. -/
theorem lane_change_laneStep {key' : LaneKey} {w₁ : Worker} (hrunning : w.running = true)
    (hdrives : Drives w w' key' e input) (h : w.laneStep key' input = some w₁) (key : LaneKey) :
    LaneChange w e w' key (w.lanes.lookup key) (w₁.lanes.lookup key) := by
  obtain ⟨l, l', hl, hstep, rfl⟩ := laneStep_eq_some.mp h
  rw [lookup_setLane]
  have hown : w.signals key' e = false := by cases hdrives <;> simp [signals]
  have hactor : e.actor = some key' := by cases hdrives <;> rfl
  by_cases hkey : key = key'
  · subst hkey
    rw [if_pos rfl, hl]
    exact .stepped l l' input hrunning hown hdrives hstep
  rw [if_neg hkey]
  have hother : e.actor ≠ some key := by
    rw [hactor]
    exact fun heq => hkey (Option.some.inj heq).symm
  -- another lane is touched by the handoff of a retired registration only
  have hinput : ∀ p, l.phase = p → p = .opening ∨ p = .handing → e = .step key' input := by
    rintro p hp hcase
    cases hdrives with
    | step => rfl
    | call hop =>
      rw [laneCall, hl] at hop
      rcases hcase with rfl | rfl <;> simp [hp, LanePhase.call] at hop
  have hquiet : l.phase ≠ .handing → w.signals key e = false := by
    intro hp
    cases hdrives <;> simp [signals, hl, hp]
  unfold handOver
  split
  · next hp =>
    rcases lookup_lane w key'.evidence key with hsame | ⟨hnone, hfresh⟩
    · rw [hsame]
      exact .same _ hother (hquiet (by simp [hp]))
    · rw [hnone, hfresh]
      exact .created hother (hquiet (by simp [hp]))
  · next hp =>
    obtain rfl := hinput _ hp (.inr rfl)
    rw [notify, lookup_setLane]
    split
    · next heq =>
      subst heq
      exact .notified _ hother (by simp [signals, Ne.symm hkey, hl, hp])
    · next hne => exact .same _ hother (by simp [signals, Ne.symm hne])
  · next hp _ => exact .same _ hother (hquiet (fun hp' => by simp_all))

/-- **What a step does to a lane.** -/
theorem lane_change (h : w.step e = some w') (key : LaneKey) :
    LaneChange w e w' key (w.lanes.lookup key) (w'.lanes.lookup key) := by
  cases steps_of_step h with
  | queue | clamp | run => exact .same _ nofun rfl
  | call hrunning hop hrun hlane => exact lane_change_laneStep hrunning (.call hop hrun) hlane key
  | @restore wall mono now key' rest hrunning =>
    show LaneChange _ _ _ _ _ ((w.setLane key' _).lanes.lookup key)
    rw [lookup_setLane]
    split
    · next heq =>
      subst heq
      exact .restored _ wall mono now rfl hrunning
    · exact .same _ nofun rfl
  | @lane key' =>
    rcases lookup_lane w key' key with hsame | ⟨hnone, hfresh⟩
    · rw [hsame]
      exact .same _ nofun rfl
    · rw [hnone, hfresh]
      exact .created nofun rfl
  | @notify key' =>
    rw [notify, lookup_setLane]
    split
    · next heq =>
      subst heq
      exact .notified _ nofun (by simp [signals])
    · next hne => exact .same _ nofun (by simp [signals, Ne.symm hne])
  | step hrunning hinput hlane => exact lane_change_laneStep hrunning (.step hinput) hlane key

end Worker

end OriGateway
