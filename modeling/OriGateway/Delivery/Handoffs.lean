import OriGateway.Delivery.Holds

/-! # Handoffs and refusals for the receiver's state

After a refusal for the receiver's state a lane waits for a handoff. An observer (**`Watch`**) keeps
whether the lane was signalled since it last read its head, and since its last attempt read it. No
signal is lost (**`Unlost`**). The lane takes a pending wake before it reads its head, but a handoff
does not take the delivery lock, so one may fall between the two. When none does, no attempt follows
the refusal before a signal that came after the head was read (**`Parks`**); when one does, an
attempt may follow that no later signal caused. -/

namespace OriGateway

open Foundation DurableQueue

variable {s s' : Worker × Watch} {g : Watch} {input : LaneInput} {cfg : WorkerConfig}
  {env : LaneEnv} {l l' : DeliveryLane}

/-! ## The observer -/

/-- What an observer of one lane keeps. -/
structure Watch where
  sinceRead : Bool
  /-- Whether the lane was signalled since its last attempt read its head. -/
  sinceAttempt : Bool
  /-- Whether a signal since the last read of the head was not taken yet. -/
  untaken : Bool
  /-- Whether the last attempt ended in a refusal for the receiver's state. -/
  parked : Bool
  deriving DecidableEq

namespace Watch

def fresh : Watch := ⟨false, true, false, false⟩

def signalled (g : Watch) : Watch :=
  { g with sinceRead := true, sinceAttempt := true, untaken := true }

/-- What a lane's input changes. -/
def observe (g : Watch) (phase : LanePhase) (input : LaneInput) : Watch :=
  match phase, input with
  | .waiting, .wake => { g with untaken := false }
  | .peeking, .step => { g with sinceRead := false, untaken := false }
  | .attempting _, .step => { g with sinceAttempt := g.sinceRead, parked := false }
  | .delivering _, .outcome (.result r) =>
    { g with parked := !r.accepted && !r.retriable && r.receiverState }
  | _, _ => g

/-- What a worker's event changes. -/
def next (g : Watch) (key : LaneKey) (w : Worker) (e : WorkerEvent) : Watch :=
  if w.signals key e then g.signalled
  else
    match e, w.lanes.lookup key with
    | .step key' input, some l => if key' = key then g.observe l.phase input else g
    | _, _ => g

end Watch

def watchedStep (key : LaneKey) (s : Worker × Watch) (e : WorkerEvent) : Option (Worker × Watch) :=
  (s.1.step e).map fun w' => (w', s.2.next key s.1 e)

theorem watchedStep_eq_some {key : LaneKey} {e : WorkerEvent} :
    watchedStep key s e = some s' ↔ s.1.step e = some s'.1 ∧ s'.2 = s.2.next key s.1 e := by
  obtain ⟨w', g'⟩ := s'
  simp only [watchedStep, Option.map_eq_some_iff, Prod.mk.injEq]
  constructor
  · rintro ⟨w₁, h, rfl, rfl⟩
    exact ⟨h, rfl⟩
  · rintro ⟨h, rfl⟩
    exact ⟨w', h, rfl, rfl⟩

/-! ## The wake channel -/

namespace DeliveryLane

variable {cfg : WorkerConfig} {env : LaneEnv} {l l' : DeliveryLane} {input : LaneInput}

/-- **What a step does to the wake channel**: it is received from when the lane waits, or emptied
before the head is read. -/
theorem wake_step (h : l.step cfg env input = some l') :
    (l'.wake = l.wake ∧ l'.phase ≠ .peeking) ∨
      (l.phase = .waiting ∧ input = .wake ∧ l.wake = true ∧ l'.wake = false ∧ l'.phase = .woken) ∨
      (l.phase = .draining ∧ l'.phase = .peeking ∧ l'.wake = false) := by
  cases moves h with
  | woke hphase hwake => exact .inr (.inl ⟨hphase, rfl, hwake, rfl, rfl⟩)
  | drained hphase => exact .inr (.inr ⟨hphase, rfl, rfl⟩)
  | looked attempts =>
    obtain ⟨_, phase, heq, hcases⟩ := awaitDue_eq cfg l _ _ attempts
    rw [heq]
    refine .inl ⟨rfl, ?_⟩
    rcases hcases with rfl | ⟨_, rfl⟩ | ⟨-, rfl | ⟨_, rfl⟩⟩ <;> nofun
  | fired | ended | peeked | began | staged | stored | unstored | opened | handed | held |
      persisted | erased |
      counted | saved | succeeded => exact .inl ⟨rfl, nofun⟩
  | reminded | clamped | removed | retired | failed | stalled =>
    refine .inl ⟨rfl, ?_⟩
    dsimp only
    split <;> nofun
  | adopted head =>
    refine .inl ⟨?_, nofun⟩
    cases head with
    | none => rfl
    | some a =>
      show (l.adoptDurableHold env a).wake = l.wake
      unfold adoptDurableHold
      split
      · rfl
      · split <;> rfl
  | released head =>
    unfold released
    split
    · split <;> exact .inl ⟨rfl, nofun⟩
    · exact .inl ⟨rfl, nofun⟩
  | answered queued o =>
    rcases answered_cases cfg env l queued o with ⟨_, _, heq, -⟩ | ⟨_, _, heq, -⟩ |
      ⟨_, _, _, heq, -⟩
    all_goals
      rw [heq]
      exact .inl ⟨rfl, nofun⟩
  | cleared =>
    unfold cleared
    dsimp only
    split <;> exact .inl ⟨rfl, nofun⟩
  | scheduled =>
    unfold scheduled
    dsimp only
    split <;> exact .inl ⟨rfl, nofun⟩

theorem peeking_step (h : l.step cfg env input = some l') (hphase : l.phase = .peeking) :
    input = .step ∧ l' = { l with phase := .adopting env.head } := by
  unfold step at h
  rw [hphase] at h
  cases input <;> cases h
  exact ⟨rfl, rfl⟩

theorem wake_restore (cfg : WorkerConfig) (env : LaneEnv)
    (backoffFor : Bytes → Option BackoffRecord) (l : DeliveryLane) (wall mono now : Int) :
    (l.restore cfg env backoffFor wall mono now).1.wake = l.wake := by
  have hadopt : ∀ a, (l.adoptDurableHold env a).wake = l.wake := by
    intro a
    unfold adoptDurableHold
    split
    · rfl
    · split <;> rfl
  unfold restore
  split
  · rfl
  · next head _ =>
    dsimp only
    split
    · exact hadopt head
    · exact hadopt head

end DeliveryLane

/-! ## No signal is lost -/

/-- **No signal is lost**: one that was not taken is in the wake channel, except between the
consumption of a pending wake and the read of the head. -/
def Unlost (g : Watch) : Option DeliveryLane → Prop
  | none => g.untaken = false
  | some l => l.phase ≠ .peeking → g.untaken = true → l.wake = true

theorem Watch.untaken_observe {phase : LanePhase} (h : (g.observe phase input).untaken = true) :
    g.untaken = true ∧ (phase = .waiting → input ≠ .wake) ∧ (phase = .peeking → input ≠ .step) := by
  unfold observe at h
  split at h
  · cases h
  · cases h
  · exact ⟨h, nofun, nofun⟩
  · exact ⟨h, nofun, nofun⟩
  · next hwaiting hpeeking _ _ =>
    refine ⟨h, ?_, ?_⟩
    · rintro rfl rfl
      exact hwaiting rfl rfl
    · rintro rfl rfl
      exact hpeeking rfl rfl

theorem Unlost.observe (hg : Unlost g (some l)) (h : l.step cfg env input = some l') :
    Unlost (g.observe l.phase input) (some l') := by
  intro hphase' huntaken
  obtain ⟨huntaken, hwaiting, hpeeking⟩ := Watch.untaken_observe huntaken
  rcases DeliveryLane.wake_step h with ⟨hwake, -⟩ | ⟨hphase, hinput, -⟩ | ⟨-, hphase, -⟩
  · rw [hwake]
    refine hg (fun hphase => ?_) huntaken
    exact hpeeking hphase (DeliveryLane.peeking_step h hphase).1
  · exact absurd hinput (hwaiting hphase)
  · exact absurd hphase hphase'

/-! ## Waiting for a handoff -/

/-- The lane stands where only a signal leads to an attempt: the refusal is being recorded, or the
lane waits and its timer only reminds. -/
def Stands (l : DeliveryLane) : Prop :=
  l.phase = .failing .channelReceiverState ∨ l.phase = .stalling .channelReceiverState ∨
    (l.stall.any (·.waitsForHandoff) = true ∧
      (l.phase = .clearing ∨ (∃ id, l.phase = .erasing id) ∨ l.phase = .waiting ∨
        l.phase = .reminding ∨
        l.phase = .ended))

/-- **No attempt follows a refusal for the receiver's state but for a later signal.** -/
structure Parks (g : Watch) (l : DeliveryLane) : Prop where
  wake : l.wake = true → g.sinceRead = true
  drained : l.phase = .peeking → l.wake = false
  /-- The last attempt read the head no later than it was last read. -/
  read : g.sinceRead = true → g.sinceAttempt = true
  /-- Without a signal since the refused attempt read the head, the lane stands still. -/
  stands : g.parked = true → g.sinceAttempt = false → Stands l

theorem Watch.sinceRead_observe {phase : LanePhase} (h : phase = .peeking → input ≠ .step) :
    (g.observe phase input).sinceRead = g.sinceRead := by
  unfold observe
  split
  · rfl
  · exact absurd rfl (h rfl)
  · rfl
  · rfl
  · rfl

theorem Stands.step (hl : Stands l) (h : l.step cfg env input = some l') (hwake : l.wake = false) :
    Stands l' := by
  rcases hl with hphase | hphase | ⟨hstall, hphase | ⟨id, hphase⟩ | hphase | hphase | hphase⟩
  · unfold DeliveryLane.step at h
    rw [hphase] at h
    cases input <;> cases h
    exact .inr (.inl rfl)
  · unfold DeliveryLane.step at h
    rw [hphase] at h
    cases input <;> cases h
    exact .inr (.inr ⟨rfl, .inl rfl⟩)
  · unfold DeliveryLane.step at h
    rw [hphase] at h
    cases input <;> cases h
    refine .inr (.inr ⟨hstall, ?_⟩)
    unfold DeliveryLane.cleared
    dsimp only
    split
    · exact .inr (.inl ⟨_, rfl⟩)
    · exact .inr (.inr (.inl rfl))
  · unfold DeliveryLane.step at h
    rw [hphase] at h
    cases input <;> cases h
    exact .inr (.inr ⟨hstall, .inr (.inr (.inl rfl))⟩)
  · unfold DeliveryLane.step at h
    rw [hphase] at h
    cases input with
    | wake => simp [hwake] at h
    | timer =>
      cases h
      exact .inr (.inr ⟨hstall, .inr (.inr (.inr (.inl rfl)))⟩)
    | stop =>
      cases h
      exact .inr (.inr ⟨hstall, .inr (.inr (.inr (.inr rfl)))⟩)
    | _ => cases h
  · unfold DeliveryLane.step at h
    rw [hphase] at h
    cases input <;> cases h
    refine .inr (.inr ⟨hstall, .inr (.inr (.inl ?_))⟩)
    simp [DeliveryLane.reminds, hstall]
  · unfold DeliveryLane.step at h
    rw [hphase] at h
    cases input <;> cases h

theorem DeliveryLane.answered_receiverState (cfg : WorkerConfig) (env : LaneEnv) (l : DeliveryLane)
    (queued : QueuedArtifact) {r : DeliveryResult}
    (hr : (!r.accepted && !r.retriable && r.receiverState) = true) :
    (l.answered cfg env queued (.result r)).phase = .failing .channelReceiverState := by
  simp only [Bool.and_eq_true, Bool.not_eq_true'] at hr
  simp [answered, hr.1.1, hr.1.2, hr.2]

theorem Parks.observe (hg : Parks g l) (h : l.step cfg env input = some l') :
    Parks (g.observe l.phase input) l' := by
  -- a lane that stands is not signalled
  have hstands : g.parked = true → g.sinceAttempt = false → Stands l' := by
    intro hparked hsince
    refine (hg.stands hparked hsince).step h ?_
    by_contra hwake
    have hlater := hg.read (hg.wake (by simpa using hwake))
    rw [hsince] at hlater
    cases hlater
  refine ⟨?_, ?_, ?_, ?_⟩
  · intro hwake
    rcases DeliveryLane.wake_step h with ⟨heq, -⟩ | ⟨-, -, -, hnone, -⟩ | ⟨-, -, hnone⟩
    · rw [heq] at hwake
      rw [Watch.sinceRead_observe]
      · exact hg.wake hwake
      · intro hphase
        rw [hg.drained hphase] at hwake
        cases hwake
    · rw [hnone] at hwake
      cases hwake
    · rw [hnone] at hwake
      cases hwake
  · intro hphase
    rcases DeliveryLane.wake_step h with ⟨-, hne⟩ | ⟨-, -, -, -, hwoken⟩ | ⟨-, -, hnone⟩
    · exact absurd hphase hne
    · rw [hwoken] at hphase
      cases hphase
    · exact hnone
  · unfold Watch.observe
    split
    · exact hg.read
    · nofun
    · exact id
    · exact hg.read
    · exact hg.read
  · cases DeliveryLane.moves h with
    | began queued hphase =>
      rw [hphase]
      nofun
    | answered queued o hphase =>
      rw [hphase]
      cases o with
      | unrecognised | unavailable => exact hstands
      | result r =>
        intro hparked _
        exact .inl (DeliveryLane.answered_receiverState cfg env l queued hparked)
    | _ =>
      unfold Watch.observe
      split
      all_goals first | exact hstands | skip
      all_goals simp_all

/-! ## Over every run -/

/-- **What a step does to a lane and to what its observer keeps.** -/
theorem Watch.next_change {w w' : Worker} {e : WorkerEvent} (h : w.step e = some w') (key : LaneKey)
    (g : Watch) :
    (w.signals key e = true ∧ g.next key w e = g.signalled ∧
      w'.lanes.lookup key = some ((w.lanes.lookup key).getD .fresh).notify) ∨
    (g.next key w e = g ∧ w'.lanes.lookup key = w.lanes.lookup key) ∨
    (g.next key w e = g ∧ w.lanes.lookup key = none ∧ w'.lanes.lookup key = some .fresh) ∨
    (g.next key w e = g ∧ w.running = false ∧ ∃ l', w'.lanes.lookup key = some l' ∧
      l'.wake = ((w.lanes.lookup key).getD .fresh).wake ∧
      l'.phase = ((w.lanes.lookup key).getD .fresh).phase) ∨
    ∃ l l' input, w.lanes.lookup key = some l ∧ w'.lanes.lookup key = some l' ∧ w.running = true ∧
      l.step w.config (w.env key) input = some l' ∧ g.next key w e = g.observe l.phase input := by
  have hchange := Worker.lane_change h key
  have hother : e.actor ≠ some key → w.signals key e = false → g.next key w e = g := by
    intro hactor hsignals
    simp only [next, hsignals, Bool.false_eq_true, if_false]
    split
    · next key' input l _ =>
      rw [if_neg]
      rintro rfl
      exact hactor rfl
    · rfl
  generalize ho : w.lanes.lookup key = o at hchange
  generalize w'.lanes.lookup key = o' at hchange
  cases hchange with
  | same _ hactor hsignals => exact .inr (.inl ⟨hother hactor hsignals, rfl⟩)
  | created hactor hsignals => exact .inr (.inr (.inl ⟨hother hactor hsignals, rfl, rfl⟩))
  | notified _ hactor hsignals => exact .inl ⟨hsignals, if_pos hsignals, rfl⟩
  | restored _ wall mono now hevent hrunning =>
    subst hevent
    exact .inr (.inr (.inr (.inl ⟨hother nofun rfl, hrunning, _, rfl,
      DeliveryLane.wake_restore _ _ _ _ wall mono now,
      DeliveryLane.phase_restore _ _ _ _ wall mono now⟩)))
  | stepped l l' input hrunning hsignals hdrives hstep =>
    refine .inr (.inr (.inr (.inr ⟨l, l', input, rfl, rfl, hrunning, hstep, ?_⟩)))
    cases hdrives with
    | step => simp [next, hsignals, ho]
    | call =>
      -- the return of a queue call is nothing the observer keeps
      refine (if_neg (by simp [hsignals])).trans ?_
      cases l.phase <;> rfl

variable {key : LaneKey}

theorem unlost_runAll {es : List WorkerEvent} (hs : Unlost s.2 (s.1.lanes.lookup key))
    (hrun : runAll (watchedStep key) s es = some s') : Unlost s'.2 (s'.1.lanes.lookup key) := by
  refine runAll_invariant (I := fun s => Unlost s.2 (s.1.lanes.lookup key)) ?_ hs hrun
  rintro ⟨w, g⟩ e ⟨w', g'⟩ hg hstep
  obtain ⟨h, rfl⟩ := watchedStep_eq_some.mp hstep
  dsimp only at hg h ⊢
  rcases Watch.next_change h key g with ⟨-, hnext, ho'⟩ | ⟨hnext, ho'⟩ | ⟨hnext, ho, ho'⟩ |
    ⟨hnext, -, l', ho', hwake, hphase⟩ | ⟨l, l', input, ho, ho', -, hone, hnext⟩
  all_goals rw [hnext, ho']
  · exact fun _ _ => rfl
  · exact hg
  · rw [ho] at hg
    exact fun _ huntaken => absurd (hg.symm.trans huntaken) Bool.false_ne_true
  · intro hne huntaken
    rw [hwake]
    cases ho : w.lanes.lookup key with
    | none =>
      rw [ho] at hg
      exact absurd (hg.symm.trans huntaken) Bool.false_ne_true
    | some l =>
      rw [ho] at hg hphase
      exact hg (fun heq => hne (hphase.trans heq)) huntaken
  · rw [ho] at hg
    exact hg.observe hone

def ParksAt (w : Worker) (g : Watch) : Option DeliveryLane → Prop
  | none => g.parked = false ∧ (g.sinceRead = true → g.sinceAttempt = true)
  | some l => Parks g l ∧ (g.parked = true → w.running = true)

/-- **No handoff falls between**: the lane is not signalled after it consumed a pending wake and
before it reads its head. -/
def NoHandoffBetween (key : LaneKey) (s : Worker × Watch) (e : WorkerEvent) : Prop :=
  s.1.signals key e = true → (s.1.lanes.lookup key).map (·.phase) ≠ some .peeking

instance (key : LaneKey) (s : Worker × Watch) (e : WorkerEvent) :
    Decidable (NoHandoffBetween key s e) :=
  inferInstanceAs (Decidable (_ → _))

/-- In every run in which no handoff falls between, no attempt follows but for a later signal. -/
theorem parksAt_runAll {es : List WorkerEvent} (hs : ParksAt s.1 s.2 (s.1.lanes.lookup key))
    (hes : StepsMeet (watchedStep key) (NoHandoffBetween key) s es)
    (hrun : runAll (watchedStep key) s es = some s') :
    ParksAt s'.1 s'.2 (s'.1.lanes.lookup key) := by
  refine runAll_induction (I := fun s => ParksAt s.1 s.2 (s.1.lanes.lookup key)) ?_ hes hs hrun
  rintro ⟨w, g⟩ e ⟨w', g'⟩ hbetween hg hstep
  obtain ⟨h, rfl⟩ := watchedStep_eq_some.mp hstep
  dsimp only at hg h ⊢
  have hread : g.sinceRead = true → g.sinceAttempt = true := by
    cases ho : w.lanes.lookup key with
    | none =>
      rw [ho] at hg
      exact hg.2
    | some l =>
      rw [ho] at hg
      exact hg.1.read
  have hrunning : g.parked = true → w'.running = true := by
    intro hparked
    cases ho : w.lanes.lookup key with
    | none =>
      rw [ho] at hg
      exact absurd (hg.1.symm.trans hparked) Bool.false_ne_true
    | some l =>
      rw [ho] at hg
      exact (Worker.settings_step h).2 (hg.2 hparked)
  rcases Watch.next_change h key g with ⟨hsignals, hnext, ho'⟩ | ⟨hnext, ho'⟩ | ⟨hnext, ho, ho'⟩ |
    ⟨hnext, hstill, l', ho', hwake, hphase⟩ | ⟨l, l', input, ho, ho', hruns, hone, hnext⟩
  all_goals rw [hnext, ho']
  · refine ⟨⟨fun _ => rfl, fun hphase => ?_, fun _ => rfl, fun _ => nofun⟩, hrunning⟩
    cases ho : w.lanes.lookup key with
    | none =>
      rw [ho] at hphase
      cases hphase
    | some l =>
      rw [ho] at hphase
      exact absurd (by rw [ho]; exact congrArg some hphase) (hbetween hsignals)
  · cases ho : w.lanes.lookup key with
    | none =>
      rw [ho] at hg
      exact hg
    | some l =>
      rw [ho] at hg
      exact ⟨hg.1, hrunning⟩
  · rw [ho] at hg
    exact ⟨⟨nofun, nofun, hg.2, fun hparked => absurd (hg.1.symm.trans hparked) Bool.false_ne_true⟩,
      hrunning⟩
  · cases ho : w.lanes.lookup key with
    | none =>
      rw [ho] at hg hwake hphase
      refine ⟨⟨?_, ?_, hg.2, fun hparked => absurd (hg.1.symm.trans hparked) Bool.false_ne_true⟩,
        hrunning⟩
      · rw [hwake]
        nofun
      · rw [hphase]
        nofun
    | some l =>
      rw [ho] at hg hwake hphase
      refine ⟨⟨?_, ?_, hg.1.read, fun hparked => ?_⟩, hrunning⟩
      · rw [hwake]
        exact hg.1.wake
      · rw [hwake, hphase]
        exact hg.1.drained
      · exact absurd (hstill.symm.trans (hg.2 hparked)) Bool.false_ne_true
  · rw [ho] at hg
    exact ⟨hg.1.observe hone, fun _ => (Worker.settings_step h).2 hruns⟩

/-- **A lane that waits for a handoff.** In every run of a worker: while the lane waits, a signal
that came after the head was last read and was not taken yet is in the wake channel. And in every
run in which no handoff falls between the consumption of a pending wake and the read of the head, a
lane whose last attempt was refused for the receiver's state makes no further attempt unless it was
signalled after that attempt read the head. -/
theorem attempts_after_later_signal (config : WorkerConfig) (queue : World DurableQueue)
    {es : List WorkerEvent} {w : Worker} {g : Watch}
    (hrun : runAll (watchedStep key) (newDeliveryWorker config queue, .fresh) es = some (w, g))
    {l : DeliveryLane} (hl : w.lanes.lookup key = some l) :
    (l.phase = .waiting → g.untaken = true → l.wake = true) ∧
      (StepsMeet (watchedStep key) (NoHandoffBetween key) (newDeliveryWorker config queue, .fresh)
        es →
        ∀ a, l.phase = .attempting a → g.parked = true → g.sinceAttempt = true) := by
  constructor
  · have hlost := unlost_runAll (s := (newDeliveryWorker config queue, .fresh)) rfl hrun
    dsimp only at hlost
    rw [hl] at hlost
    intro hphase
    exact hlost (by rw [hphase]; nofun)
  · intro hes a hphase hparked
    have hparks := parksAt_runAll (s := (newDeliveryWorker config queue, .fresh)) ⟨rfl, nofun⟩ hes
      hrun
    dsimp only at hparks
    rw [hl] at hparks
    by_contra hsince
    rcases hparks.1.stands hparked (by simpa using hsince) with h | h | ⟨-, h | ⟨_, h⟩ | h | h | h⟩
    all_goals
      rw [hphase] at h
      cases h

def receiverStateResult : DeliveryResult where
  accepted := false
  retriable := false
  retryAfter := 0
  receiverState := true
  refusalStatus := 422
  refusalReason := ascii "unknown_key"
  authorityArtifacts := []

/-- The lane records a refusal for the receiver's state and waits. -/
def parkEvents : List WorkerEvent :=
  [.step evidenceLane (.outcome (.result receiverStateResult)), .step evidenceLane (.now 5000000),
    .step evidenceLane .step, .step evidenceLane .step, .call evidenceLane []]

/-- A head is refused for the receiver's state and sent again after the given handoffs: one between
the consumption of the pending wake and the read of the head, and one while the lane waits. -/
def handoffEvents (between waiting : List WorkerEvent) : List WorkerEvent :=
  envelopeEvents ++ [.run, .step evidenceLane (.clock 0 0), .step evidenceLane .wake,
    .step evidenceLane (.clock 0 0), .step evidenceLane .step] ++ between ++
    List.replicate 4 (.step evidenceLane .step) ++ parkEvents ++ waiting ++
    (attemptEvents evidenceLane 10 10).dropLast

/-- A handoff that falls between leads to an attempt that no later signal caused. -/
theorem attempt_without_later_signal :
    ∃ (w : Worker) (g : Watch) (l : DeliveryLane) (a : QueuedArtifact),
      runAll (watchedStep evidenceLane)
        (newDeliveryWorker plainConfig (openedWorld (emptyQueue plainOptions) freshDirectory 0),
          .fresh)
        (handoffEvents [.notify evidenceLane] []) = some (w, g) ∧
      w.lanes.lookup evidenceLane = some l ∧ l.phase = .attempting a ∧ g.parked = true ∧
      g.sinceAttempt = false := by
  obtain ⟨⟨w, g⟩, hrun, heval⟩ := Option.map_eq_some_iff.mp (by decide +kernel :
    (runAll (watchedStep evidenceLane)
      (newDeliveryWorker plainConfig (openedWorld (emptyQueue plainOptions) freshDirectory 0),
        .fresh)
      (handoffEvents [.notify evidenceLane] [])).map (fun s =>
        ((s.1.lanes.lookup evidenceLane).any fun l => match l.phase with
          | .attempting _ => true
          | _ => false) && s.2.parked && !s.2.sinceAttempt) = some true)
  simp only [Bool.and_eq_true, Bool.not_eq_true', Option.any_eq_true] at heval
  obtain ⟨⟨⟨l, hl, hphase⟩, hparked⟩, hsince⟩ := heval
  split at hphase
  · next a heq => exact ⟨w, g, l, a, hrun, hl, heq, hparked, hsince⟩
  · cases hphase

/-- After a handoff that comes while the lane waits, the head is sent again. -/
theorem attempts_after_later_signal_handoffEvents :
    ∃ (w : Worker) (g : Watch) (l : DeliveryLane) (a : QueuedArtifact),
      runAll (watchedStep evidenceLane)
        (newDeliveryWorker plainConfig (openedWorld (emptyQueue plainOptions) freshDirectory 0),
          .fresh)
        (handoffEvents [] [.notify evidenceLane]) = some (w, g) ∧
      w.lanes.lookup evidenceLane = some l ∧ l.phase = .attempting a ∧ g.parked = true ∧
      g.sinceAttempt = true := by
  obtain ⟨⟨w, g⟩, hrun, heval⟩ := Option.map_eq_some_iff.mp (by decide +kernel :
    (runAll (watchedStep evidenceLane)
      (newDeliveryWorker plainConfig (openedWorld (emptyQueue plainOptions) freshDirectory 0),
        .fresh)
      (handoffEvents [] [.notify evidenceLane])).map (fun s =>
        ((s.1.lanes.lookup evidenceLane).any fun l => match l.phase with
          | .attempting _ => true
          | _ => false) && s.2.parked) = some true)
  simp only [Bool.and_eq_true, Option.any_eq_true] at heval
  obtain ⟨⟨l, hl, hphase⟩, hparked⟩ := heval
  split at hphase
  · next a heq =>
    exact ⟨w, g, l, a, hrun, hl, heq, hparked, (attempts_after_later_signal plainConfig _ hrun hl).2
      (by decide +kernel) a heq hparked⟩
  · cases hphase

end OriGateway
