import OriGateway.Lifecycle.Stop
import OriGateway.MqttAuth.SigningInvariants

/-! # What was let in is released once

Who holds a unit of work is read off the goroutines and the waiting messages
(**`Gateway.holders`**), and every event keeps each gate balanced with them (**`Balance.step`**). A
decision that has returned has closed every gate and stopped the clock, and a gate whose closing has
returned counts nothing as running (**`Settling`**). -/

namespace OriGateway

open Foundation

/-! ## Holders -/

/-- The units of a gate that a goroutine holds. -/
def Routine.holds : GateName → Routine → List Nat
  | .callbacks, .callback _ _ _ (.handling u) => [u]
  | .callbacks, .callback _ _ _ (.dropping u v) => [v, u]
  | .callbacks, .callback _ _ _ (.leaving u) => [u]
  | .callbacks, .running _ _ req _ _ => [req.unit]
  | .webhook, .request (some u) => [u]
  | .posture, .fetching _ u _ => [u]
  | _, _ => []

/-- Whether a goroutine does work, and neither decides nor closes. -/
def Routine.isWork : Routine → Bool
  | .deciding _ => false
  | .closing _ _ => false
  | _ => true

/-- How many phases of a decision are left. -/
def DecisionPhase.left : DecisionPhase → Nat
  | .refuseCallbacks => 6
  | .refuseWebhook => 5
  | .refusePosture => 4
  | .stopSigning => 3
  | .stoppingClock => 2
  | .cancel => 1
  | .returned => 0

/-- Whether a goroutine is the one that handles the messages of a device. -/
def Routine.drains (k : Nat) (device : Bytes) : Routine → Bool
  | .draining k' device' => k' == k && device' == device
  | .running _ _ _ true (.releasing true) => false
  | .running k' device' _ true _ => k' == k && device' == device
  | _ => false

/-- Whether a goroutine is to take another message of a device. -/
def Routine.awaits (k : Nat) (device : Bytes) : Routine → Bool
  | .draining k' device' => k' == k && device' == device
  | .running k' device' _ true (.releasing false) => k' == k && device' == device
  | _ => false

/-- A goroutine that is to take a message of a device is the one that handles them. -/
theorem Routine.drains_of_awaits {k : Nat} {device : Bytes} {t : Routine}
    (h : t.awaits k device = true) : t.drains k device = true := by
  unfold Routine.awaits at h
  split at h
  · exact h
  · exact h
  · cases h

/-- A goroutine works for a pool that there is, and as that pool handles its messages. -/
def Routine.PoolKnown (pools : List RequestPool) : Routine → Prop
  | .callback (.pooled k _) _ _ _ => k < pools.length
  | .draining k _ => ∃ p, pools[k]? = some p ∧ p.ordered = true
  | .running k _ _ drains _ => ∃ p, pools[k]? = some p ∧ p.ordered = drains
  | _ => True

/-- How much a goroutine has left to do. -/
def Routine.left : Routine → Nat
  | .callback _ _ _ .arriving => 20
  | .callback _ _ _ (.handling _) => 18
  | .callback _ _ _ (.dropping _ _) => 4
  | .callback _ _ _ (.leaving _) => 2
  | .draining _ _ => 1
  | .running _ _ _ _ .checking => 6
  | .running _ _ _ _ .handling => 5
  | .running _ _ _ _ .finishing => 4
  | .running _ _ _ _ (.releasing _) => 3
  | .request none => 2
  | .request (some _) => 1
  | .fetching _ _ true => 2
  | .fetching _ _ false => 1
  | .deciding phase => phase.left
  | .closing _ .refusing => 2
  | .closing _ .waiting => 1
  | .closing _ .returned => 0
  | .ended => 0

/-- A goroutine goes on, for the same pool and device, with less to do. -/
structure Routine.Passes (t t' : Routine) : Prop where
  left : t'.left < t.left
  isWork : t'.isWork = t.isWork
  drains : ∀ k d, t'.drains k d = t.drains k d
  awaits : ∀ k d, t'.awaits k d = true → t.awaits k d = true
  known : ∀ pools, t.PoolKnown pools → t'.PoolKnown pools

/-- A goroutine that handles the messages of no device goes on. -/
theorem Routine.Passes.idle {t t' : Routine} (hleft : t'.left < t.left)
    (hwork : t'.isWork = t.isWork) (hbefore : ∀ k d, t.drains k d = false)
    (hafter : ∀ k d, t'.drains k d = false)
    (hknown : ∀ pools, t.PoolKnown pools → t'.PoolKnown pools) : t.Passes t' where
  left := hleft
  isWork := hwork
  drains k d := (hafter k d).trans (hbefore k d).symm
  awaits k d hawaits := absurd (Routine.drains_of_awaits hawaits) (by simp [hafter])
  known := hknown

/-- A callback goes on to a phase with less to do. -/
theorem Routine.passes_callback {job : Job} {topic payload : Bytes} {phase phase' : CallbackPhase}
    (hleft : (Routine.callback job topic payload phase').left
      < (Routine.callback job topic payload phase).left) :
    (Routine.callback job topic payload phase).Passes (.callback job topic payload phase') :=
  .idle hleft rfl (fun _ _ => rfl) (fun _ _ => rfl) fun _ h => by cases job <;> exact h

/-- The units of a gate that the messages of a pool hold while they wait. -/
def RequestPool.holds : GateName → RequestPool → List Nat
  | .callbacks, p => p.queued.map fun r => r.2.unit
  | _, _ => []

namespace Gateway

/-- The units of a gate that goroutines and waiting messages hold. -/
def holders (s : Gateway) (name : GateName) : List Nat :=
  s.routines.flatMap (Routine.holds name) ++ s.pools.flatMap (RequestPool.holds name)

/-- **Every gate is balanced** with who holds its units. -/
def Balance (s : Gateway) : Prop := ∀ name, (s.gates name).Balanced (s.holders name)

variable {s s' : Gateway} {i k : Nat} {t t' : Routine} {p p' : RequestPool} {name : GateName}
  {u : Nat} {device : Bytes} {req : PendingRequest} {e : GatewayEvent} {g : Gate}

/-- A message that is finished with leaves the waiting ones as they are. -/
theorem finish_holds (p : RequestPool) (device : Bytes) (req : PendingRequest) (name : GateName) :
    (finish p device req).2.holds name = p.holds name := by
  have hunhold : ∀ key, (p.unhold key).holds name = p.holds name := by
    intro key
    unfold RequestPool.unhold
    split <;> cases name <;> rfl
  unfold finish
  dsimp only
  split
  next =>
    rw [← hunhold ⟨device, req.family⟩]
    cases name <;> rfl
  next => exact hunhold _

/-- A message that is taken was waiting. -/
theorem pop_eq_some (h : p.pop device = some (req, p')) :
    (device, req) ∈ p.queued ∧ p' = { p with queued := p.queued.erase (device, req) } := by
  unfold RequestPool.pop at h
  split at h
  next => cases h
  next r hfind =>
    have hdevice : r.1 = device := by simpa using List.find?_some hfind
    obtain ⟨device', req'⟩ := r
    obtain rfl : device' = device := hdevice
    cases h
    exact ⟨List.mem_of_find?_eq_some hfind, rfl⟩

/-- A unit of one gate. -/
def unitOf (name : GateName) (u : Nat) : GateName → List Nat :=
  fun name' => if name' = name then [u] else []

/-- **What a goroutine that goes on does.** -/
inductive Goes (s : Gateway) (i : Nat) : Routine → Gateway → Prop
  /-- It touches no gate and no pool; the clock it stops only where it decides. -/
  | turns {t t' : Routine} {s₁ : Gateway} (hpass : t.Passes t')
      (hholds : ∀ name, t'.holds name = t.holds name) (hgates : s₁.gates = s.gates)
      (hpools : s₁.pools = s.pools) (hroutines : s₁.routines = s.routines)
      (hclock : t.isWork = true → s₁.clock = s.clock ∧ s₁.stopOnce = s.stopOnce) :
        Goes s i t (s₁.put i t')
  | enters {t t' : Routine} {name : GateName} {u : Nat} {g : Gate} (hpass : t.Passes t')
      (henter : (s.gates name).enter = some (u, g))
      (hgain : ∀ name', t'.holds name' = unitOf name u name' ++ t.holds name') :
      Goes s i t ((s.setGate name g).put i t')
  | releases {t t' : Routine} {name : GateName} {u : Nat} (hpass : t.Passes t')
      (hlose : ∀ name', t.holds name' = unitOf name u name' ++ t'.holds name') :
      Goes s i t ((s.release name u).put i t')
  | refuses {t t' : Routine} {name : GateName} (hpass : t.Passes t') (hwork : t.isWork = false)
      (hholds : ∀ name, t'.holds name = t.holds name) :
      Goes s i t ((s.setGate name (s.gates name).refuse).put i t')
  | accepts {k : Nat} {family topic payload : Bytes} {u v : Nat} {g : Gate} {p : RequestPool}
      (hp : s.pools[k]? = some p) (henter : (s.gates .callbacks).enter = some (v, g)) :
      Goes s i (.callback (.pooled k family) topic payload (.handling u))
        (((s.setGate .callbacks g).put i
          (.callback (.pooled k family) topic payload (.leaving u))).accept k p
          (p.deviceOf topic) ⟨topic, payload, family, v⟩)
  | takes {k : Nat} {device : Bytes} {req : PendingRequest} {p : RequestPool}
      (hp : s.pools[k]? = some p)
      (hmem : (device, req) ∈ p.queued) :
      Goes s i (.draining k device)
        ((s.setPool k { p with queued := p.queued.erase (device, req) }).put i
        (.running k device req true .checking))
  | finishes {k : Nat} {device : Bytes} {req : PendingRequest} {drains : Bool} {p : RequestPool}
      (hp : s.pools[k]? = some p) :
      Goes s i (.running k device req drains .finishing)
        ((s.setPool k (finish p device req).2).put i
        (.running k device req drains (.releasing (finish p device req).1)))

/-- A goroutine goes on by itself. -/
theorem Goes.turn (hpass : t.Passes t') (hholds : ∀ name, t'.holds name = t.holds name) :
    s.Goes i t (s.put i t') :=
  .turns hpass hholds rfl rfl rfl fun _ => ⟨rfl, rfl⟩

/-- What a callback does. -/
theorem goes_callbackStep {job : Job} {topic payload : Bytes} {phase : CallbackPhase}
    (hstep : s.callbackStep i job topic payload phase = some s') :
    s.Goes i (.callback job topic payload phase) s' := by
  have hended : ∀ phase, 0 < (Routine.callback job topic payload phase).left →
      (Routine.callback job topic payload phase).Passes .ended := fun phase hleft =>
    .idle hleft rfl (fun _ _ => rfl) (fun _ _ => rfl) fun _ _ => trivial
  cases phase with
  | arriving =>
    simp only [Gateway.callbackStep] at hstep
    split at hstep
    next =>
      cases hstep
      exact .turn (hended _ (Nat.zero_lt_succ _)) fun name => by cases name <;> rfl
    next u g henter =>
      cases hstep
      exact .enters (Routine.passes_callback (by simp [Routine.left])) henter
        fun name => by cases name <;> rfl
  | handling u =>
    cases job with
    | inline =>
      cases hstep
      exact .turn (Routine.passes_callback (by simp [Routine.left]))
        fun name => by cases name <;> rfl
    | pooled k family =>
      simp only [Gateway.callbackStep, Gateway.handOver] at hstep
      split at hstep
      next => cases hstep
      next p hp =>
        split at hstep
        next =>
          cases hstep
          exact .turn (Routine.passes_callback (by simp [Routine.left]))
            fun name => by cases name <;> rfl
        next v g henter =>
          split at hstep
          next =>
            cases hstep
            exact .enters (Routine.passes_callback (by simp [Routine.left])) henter
              fun name => by cases name <;> rfl
          next =>
            cases hstep
            exact .accepts hp henter
  | dropping u v =>
    cases hstep
    exact .releases (Routine.passes_callback (by simp [Routine.left]))
      fun name => by cases name <;> rfl
  | leaving u =>
    cases hstep
    exact .releases (hended _ (Nat.zero_lt_succ _)) fun name => by cases name <;> rfl

/-- What a goroutine does that handles a message of a pool. -/
theorem goes_runStep {drains : Bool} {phase : RunPhase}
    (hstep : s.runStep i k device req drains phase = some s') :
    s.Goes i (.running k device req drains phase) s' := by
  cases phase with
  | checking =>
    simp only [Gateway.runStep] at hstep
    split at hstep <;> cases hstep <;>
      exact .turn ⟨by simp [Routine.left], rfl, fun _ _ => (by cases drains <;> rfl),
        fun _ _ h => (by cases drains <;> cases h), fun _ => id⟩ fun name => by cases name <;> rfl
  | handling =>
    cases hstep
    exact .turn ⟨by simp [Routine.left], rfl, fun _ _ => (by cases drains <;> rfl),
      fun _ _ h => (by cases drains <;> cases h), fun _ => id⟩ fun name => by cases name <;> rfl
  | finishing =>
    simp only [Gateway.runStep] at hstep
    split at hstep
    next => cases hstep
    next p hp =>
      cases hstep
      exact .finishes hp
  | releasing last =>
    simp only [Gateway.runStep] at hstep
    split at hstep
    next hgoes =>
      obtain ⟨rfl, rfl⟩ := hgoes
      cases hstep
      refine .releases ⟨by simp [Routine.left], rfl, fun _ _ => rfl, fun _ _ => id, fun _ => id⟩
        fun name => ?_
      cases name <;> rfl
    next hends =>
      cases hstep
      refine .releases
        (.idle (by simp [Routine.left]) rfl (fun k' d => ?_) (fun _ _ => rfl) fun _ _ => trivial)
        fun name => by cases name <;> rfl
      cases drains with
      | false => rfl
      | true =>
        cases last with
        | false => exact absurd ⟨rfl, rfl⟩ hends
        | true => rfl

/-- What a decision does. -/
theorem goes_decisionStep {phase : DecisionPhase} (hstep : s.decisionStep i phase = some s') :
    s.Goes i (.deciding phase) s' := by
  have hpass : ∀ {phase'}, phase'.left < phase.left →
    (Routine.deciding phase).Passes (.deciding phase') :=
    fun hleft => .idle hleft rfl (fun _ _ => rfl) (fun _ _ => rfl) fun _ => id
  have hidle : ∀ phase' name, (Routine.deciding phase').holds name
      = (Routine.deciding phase).holds name := by
    intro phase' name
    cases name <;> rfl
  cases phase with
  | refuseCallbacks | refuseWebhook | refusePosture =>
    cases hstep
    exact .refuses (hpass (by decide)) rfl (hidle _)
  | stopSigning =>
    simp only [Gateway.decisionStep] at hstep
    split at hstep <;> cases hstep <;>
      exact .turns (hpass (by decide)) (hidle _) rfl rfl rfl fun hwork => by cases hwork
  | stoppingClock | cancel =>
    cases hstep
    exact .turns (hpass (by decide)) (hidle _) rfl rfl rfl fun hwork => by cases hwork
  | returned => cases hstep

/-- **Whatever a goroutine does, it is one of these.** -/
theorem goes_advance (hstep : s.advance i t = some s') : s.Goes i t s' := by
  cases t with
  | callback job topic payload phase => exact goes_callbackStep hstep
  | draining k device =>
    simp only [Gateway.advance, Gateway.drainStep] at hstep
    split at hstep
    next => cases hstep
    next p hp =>
      split at hstep
      next => cases hstep
      next req p' hpop =>
        cases hstep
        obtain ⟨hmem, rfl⟩ := pop_eq_some hpop
        exact .takes hp hmem
  | running k device req drains phase => exact goes_runStep hstep
  | request unit =>
    have hpass : ∀ t', t'.left < (Routine.request unit).left →
        t' = .ended ∨ (∃ u, t' = .request u) → (Routine.request unit).Passes t' := by
      rintro t' hleft (rfl | ⟨u, rfl⟩) <;>
        exact .idle hleft rfl (fun _ _ => rfl) (fun _ _ => rfl) fun _ _ => trivial
    cases unit with
    | none =>
      simp only [Gateway.advance] at hstep
      split at hstep
      next =>
        cases hstep
        exact .turn (hpass _ (by decide) (.inl rfl)) fun name => by cases name <;> rfl
      next u g henter =>
        cases hstep
        exact .enters (hpass _ (by simp [Routine.left]) (.inr ⟨_, rfl⟩)) henter
          fun name => by cases name <;> rfl
    | some u =>
      cases hstep
      exact .releases (hpass _ (by simp [Routine.left]) (.inl rfl))
        fun name => by cases name <;> rfl
  | fetching device u inflight =>
    cases inflight with
    | true =>
      cases hstep
      exact .turns
        (.idle (by simp [Routine.left]) rfl (fun _ _ => rfl) (fun _ _ => rfl) fun _ => id)
        (fun name => by cases name <;> rfl) rfl rfl rfl fun _ => ⟨rfl, rfl⟩
    | false =>
      cases hstep
      exact .releases
        (.idle (by simp [Routine.left]) rfl (fun _ _ => rfl) (fun _ _ => rfl) fun _ => id)
        fun name => by cases name <;> rfl
  | deciding phase => exact goes_decisionStep hstep
  | closing name phase =>
    cases phase with
    | refusing =>
      cases hstep
      exact .refuses
        (.idle (by simp [Routine.left]) rfl (fun _ _ => rfl) (fun _ _ => rfl) fun _ => id) rfl
        fun name => by cases name <;> rfl
    | waiting =>
      obtain ⟨-, hs⟩ := Option.ite_none_right_eq_some.mp hstep
      cases hs
      exact .turn
        (.idle (by simp [Routine.left]) rfl (fun _ _ => rfl) (fun _ _ => rfl) fun _ => id)
        fun name => by cases name <;> rfl
    | returned => cases hstep
  | ended => cases hstep

/-- A goroutine as it arrives. -/
inductive Arrives (s : Gateway) : Routine → Prop
  | callback {job : Job} {topic payload : Bytes} (hserves : s.serves job = true) :
      Arrives s (.callback job topic payload .arriving)
  | request : Arrives s (.request none)
  | deciding : Arrives s (.deciding .refuseCallbacks)
  | closing {name : GateName} : Arrives s (.closing name .refusing)

/-- **What an event is**: something arrives, a fetch is let in, the clock goes on, or a goroutine
does. -/
theorem step_cases (hstep : s.step e = some s') :
    (∃ t, s.Arrives t ∧ s' = s.spawn t) ∨ (∃ device, s' = s.tryStart device) ∨
      (∃ r r' e, s.clock = some r ∧ r.step e = some r' ∧ s' = { s with clock := some r' }) ∨
      ∃ i t, s.routines[i]? = some t ∧ s.advance i t = some s' := by
  cases e with
  | deliver job topic payload =>
    obtain ⟨hserves, hs⟩ := Option.ite_none_right_eq_some.mp hstep
    cases hs
    exact .inl ⟨_, .callback hserves, rfl⟩
  | request =>
    cases hstep
    exact .inl ⟨_, .request, rfl⟩
  | decide =>
    cases hstep
    exact .inl ⟨_, .deciding, rfl⟩
  | close name =>
    cases hstep
    exact .inl ⟨_, .closing, rfl⟩
  | tryStart i device =>
    simp only [Gateway.step] at hstep
    split at hstep <;> cases hstep
    exact .inr (.inl ⟨device, rfl⟩)
  | sign e =>
    simp only [Gateway.step] at hstep
    split at hstep
    next => cases hstep
    next => cases hstep
    next r hclock _ =>
      obtain ⟨r', hr', rfl⟩ := Option.map_eq_some_iff.mp hstep
      exact .inr (.inr (.inl ⟨r, r', _, hclock, hr', rfl⟩))
  | run i =>
    simp only [Gateway.step] at hstep
    split at hstep
    next => cases hstep
    next t ht => exact .inr (.inr (.inr ⟨i, t, ht, hstep⟩))

/-! ## Every gate is balanced -/

/-- A goroutine that goes on holds what it holds then, and no longer what it held. -/
theorem holders_put (t' : Routine) (ht : s.routines[i]? = some t) (name : GateName) :
    (t.holds name ++ (s.put i t').holders name).Perm (t'.holds name ++ s.holders name) := by
  have hperm := (cons_set_perm (x := t') ht).flatMap_right (Routine.holds name)
  rw [List.flatMap_cons, List.flatMap_cons] at hperm
  rw [holders, holders, ← List.append_assoc, ← List.append_assoc]
  exact hperm.append_right _

/-- So does a pool whose messages change. -/
theorem holders_setPool (p' : RequestPool) (hp : s.pools[k]? = some p) (name : GateName) :
    (p.holds name ++ (s.setPool k p').holders name).Perm (p'.holds name ++ s.holders name) := by
  have hperm := (cons_set_perm (x := p') hp).flatMap_right (RequestPool.holds name)
  rw [List.flatMap_cons, List.flatMap_cons] at hperm
  rw [holders, holders]
  refine (List.perm_append_comm_assoc _ _ _).trans ?_
  exact (hperm.append_left _).trans (List.perm_append_comm_assoc _ _ _)

/-- A goroutine that starts holds what it starts with. -/
theorem holders_spawn (t : Routine) (name : GateName) :
    ((s.spawn t).holders name).Perm (t.holds name ++ s.holders name) := by
  rw [holders, holders, ← List.append_assoc]
  refine List.Perm.append_right _ ?_
  show ((s.routines ++ [t]).flatMap (Routine.holds name)).Perm _
  rw [List.flatMap_append, List.flatMap_singleton]
  exact List.perm_append_comm

/-- The units that are owed were let in, and nobody holds them yet. -/
def Owes (s : Gateway) (owed : GateName → List Nat) : Prop :=
  ∀ name, (s.gates name).Balanced (owed name ++ s.holders name)

section

variable {owed owed' : GateName → List Nat}

/-- Units may be owed by the gateway or held by a part of it. -/
theorem Owes.moved {before after : GateName → List Nat} (h : s.Owes owed)
    (hgates : s'.gates = s.gates)
    (hholders : ∀ name, (before name ++ s'.holders name).Perm (after name ++ s.holders name))
    (hperm : ∀ name, (owed' name ++ after name).Perm (owed name ++ before name)) :
    s'.Owes owed' := by
  intro name
  rw [hgates]
  refine (h name).perm ((List.perm_append_left_iff (before name)).mp ?_)
  have hheld := (hholders name).append_left (owed' name)
  have hmoved := (hperm name).append_right (s.holders name)
  rw [← List.append_assoc (owed' name) (after name)] at hheld
  rw [List.append_assoc (owed name)] at hmoved
  exact ((List.perm_append_comm_assoc _ _ _).trans (hheld.trans hmoved)).trans
    (List.perm_append_comm_assoc _ _ _)

theorem Owes.put (h : s.Owes owed) (ht : s.routines[i]? = some t)
    (hperm : ∀ name, (owed' name ++ t'.holds name).Perm (owed name ++ t.holds name)) :
    (s.put i t').Owes owed' :=
  h.moved rfl (holders_put t' ht) hperm

theorem Owes.setPool (h : s.Owes owed) (hp : s.pools[k]? = some p)
    (hperm : ∀ name, (owed' name ++ p'.holds name).Perm (owed name ++ p.holds name)) :
    (s.setPool k p').Owes owed' :=
  h.moved rfl (holders_setPool p' hp) hperm

theorem Owes.spawn (h : s.Owes owed)
    (hperm : ∀ name, (owed' name ++ t.holds name).Perm (owed name)) :
    (s.spawn t).Owes owed' :=
  @Owes.moved s _ owed owed' (fun _ => []) _ h rfl (holders_spawn t)
    fun name => by simpa using hperm name

end

/-- One gate changes, and the others stay balanced. -/
theorem balanced_setGate {held : GateName → List Nat} (hg : g.Balanced (held name))
    (hother : ∀ name' ≠ name, (s.gates name').Balanced (held name')) (name' : GateName) :
    ((s.setGate name g).gates name').Balanced (held name') := by
  show (Function.update s.gates name g name').Balanced _
  by_cases hname : name' = name
  · subst hname
    rwa [Function.update_self]
  · rw [Function.update_of_ne hname]
    exact hother name' hname

/-- A unit that is let in is owed. -/
theorem Balance.enter (h : s.Balance) (henter : (s.gates name).enter = some (u, g)) :
    (s.setGate name g).Owes (unitOf name u) := by
  refine balanced_setGate ?_ fun name' hname => ?_
  · rw [unitOf, if_pos rfl]
    exact (h name).enter henter
  · rw [unitOf, if_neg hname]
    exact h name'

/-- A unit that is owed may be released. -/
theorem Owes.release (h : s.Owes (unitOf name u)) : (s.release name u).Balance := by
  refine balanced_setGate ?_ fun name' hname => ?_
  · have hunit := h name
    rw [unitOf, if_pos rfl] at hunit
    exact hunit.release
  · have hsame := h name'
    rwa [unitOf, if_neg hname] at hsame

/-- A gate may be closed at any moment. -/
theorem Balance.refuse (h : s.Balance) (name : GateName) :
    (s.setGate name (s.gates name).refuse).Balance :=
  balanced_setGate (h name).refuse fun name' _ => h name'

theorem owes_nil : s.Owes (fun _ => []) ↔ s.Balance := Iff.rfl

/-- A pool that accepts a message takes over its unit. -/
theorem Owes.accept (h : s.Owes (unitOf .callbacks req.unit)) (hp : s.pools[k]? = some p) :
    (s.accept k p device req).Balance := by
  -- the message that waits holds the unit
  have hwaits : ∀ p', p'.queued = p.queued ++ [(device, req)] →
      (s.setPool k p').Owes fun _ => [] := by
    intro p' hqueued
    refine h.setPool hp fun name => ?_
    cases name with
    | callbacks =>
      show (p'.queued.map fun r => r.2.unit).Perm _
      rw [hqueued, List.map_append]
      exact List.perm_append_singleton _ _
    | webhook | posture => exact .refl _
  unfold Gateway.accept
  dsimp only
  rw [← owes_nil]
  split
  next =>
    split
    next => exact hwaits _ rfl
    next => exact Owes.spawn (hwaits _ rfl) fun name => by cases name <;> exact .refl _
  next =>
    have hheld : (s.setPool k (p.hold ⟨device, req.family⟩)).Owes (unitOf .callbacks req.unit) :=
      h.setPool hp fun name => by cases name <;> exact .refl _
    exact hheld.spawn fun name => by cases name <;> exact .refl _

theorem Balance.put (h : s.Balance) (ht : s.routines[i]? = some t)
    (hsame : ∀ name, t'.holds name = t.holds name) : (s.put i t').Balance :=
  owes_nil.mp ((owes_nil.mpr h).put ht fun name => by rw [hsame name])

/-- Whatever a goroutine does keeps every gate balanced. -/
theorem Balance.goes (h : s.Balance) (ht : s.routines[i]? = some t) (hgoes : s.Goes i t s') :
    s'.Balance := by
  cases hgoes with
  | @turns _ _ s₁ hpass hholds hgates hpools hroutines hclock =>
    have hsame : s₁.Balance := fun name => by
      rw [holders, hgates, hpools, hroutines]
      exact h name
    exact hsame.put (hroutines ▸ ht) hholds
  | enters hpass henter hgain =>
    refine owes_nil.mp ((h.enter henter).put ht fun name => ?_)
    rw [hgain]
    exact .refl _
  | releases hpass hlose =>
    refine Owes.release ((owes_nil.mpr h).put ht fun name => ?_)
    rw [hlose]
    exact .refl _
  | refuses hpass hwork hholds => exact (h.refuse _).put ht hholds
  | accepts hp henter =>
    refine Owes.accept ((h.enter henter).put ht fun name => ?_) hp
    cases name <;> exact .refl _
  | @takes k device req p hp hmem =>
    -- the unit passes from the waiting message to the goroutine
    have htaken : (s.setPool k { p with queued := p.queued.erase (device, req) }).Owes
        (unitOf .callbacks req.unit) := by
      refine (owes_nil.mpr h).setPool hp fun name => ?_
      cases name with
      | callbacks => exact ((List.perm_cons_erase hmem).map fun r => r.2.unit).symm
      | webhook | posture => exact .refl _
    exact owes_nil.mp (htaken.put ht fun name => by cases name <;> exact .refl _)
  | finishes hp =>
    refine Balance.put (owes_nil.mp ((owes_nil.mpr h).setPool hp fun name => ?_)) ht fun name => ?_
    · rw [finish_holds]
    · cases name <;> rfl

theorem Balance.tryStart (h : s.Balance) (device : Bytes) : (s.tryStart device).Balance := by
  unfold Gateway.tryStart
  split
  next => exact h
  next u g henter =>
    split
    next => exact h
    next =>
      have hentered :
          ({ s with inflight := device :: s.inflight }.setGate .posture g).Owes
            (unitOf .posture u) :=
        h.enter henter
      exact owes_nil.mp (hentered.spawn fun name => by cases name <;> exact .refl _)

/-- **Every event keeps every gate balanced.** -/
theorem Balance.step (h : s.Balance) (hstep : s.step e = some s') : s'.Balance := by
  rcases step_cases hstep with ⟨t, ht, rfl⟩ | ⟨device, rfl⟩ | ⟨r, r', e, -, -, rfl⟩ |
    ⟨i, t, ht, hadvance⟩
  · refine owes_nil.mp ((owes_nil.mpr h).spawn fun name => ?_)
    cases ht <;> cases name <;> exact .refl _
  · exact h.tryStart device
  · exact h
  · exact h.goes ht (goes_advance hadvance)

/-! ## The decision and the closing of a gate -/

/-- The clock, if there is one, is stopped. -/
def SigningStopped (clock : Option ClockRun) : Prop := ∀ r, clock = some r → r.closed = true

/-- What becomes of the gateway: a gate that refuses goes on to, and a stopped clock issues
nothing. -/
structure Later (s s' : Gateway) : Prop where
  gates : ∀ name, (s.gates name).Later (s'.gates name)
  clock : SigningStopped s.clock → SigningStopped s'.clock
  issued : SigningStopped s.clock → s'.clock.map ClockRun.issued = s.clock.map ClockRun.issued

theorem Later.refl (s : Gateway) : s.Later s := ⟨fun _ => .refl _, id, fun _ => rfl⟩

theorem Later.trans {s'' : Gateway} (h : s.Later s') (h' : s'.Later s'') : s.Later s'' where
  gates name := (h.gates name).trans (h'.gates name)
  clock hs := h'.clock (h.clock hs)
  issued hs := (h'.issued (h.clock hs)).trans (h.issued hs)

/-- Nothing becomes of a gateway with the same gates and clock. -/
theorem later_of_same (hgates : s'.gates = s.gates) (hclock : s'.clock = s.clock) : s.Later s' where
  gates name := by
    rw [hgates]
    exact .refl _
  clock hs := by rwa [hclock]
  issued _ := by rw [hclock]

theorem later_setGate (hg : (s.gates name).Later g) : s.Later (s.setGate name g) where
  gates name' := by
    show (s.gates name').Later (Function.update s.gates name g name')
    by_cases hname : name' = name
    · subst hname
      rwa [Function.update_self]
    · rw [Function.update_of_ne hname]
      exact .refl _
  clock := id
  issued _ := rfl

/-- What work does to the gateway: it decides nothing and stops nothing. -/
structure Worked (s s' : Gateway) : Prop where
  later : s.Later s'
  clock : s'.clock = s.clock
  once : s'.stopOnce = s.stopOnce
  routines : ∀ t ∈ s'.routines, t ∈ s.routines ∨ t.isWork = true

theorem Worked.trans {s'' : Gateway} (h : s.Worked s') (h' : s'.Worked s'') : s.Worked s'' where
  later := h.later.trans h'.later
  clock := h'.clock.trans h.clock
  once := h'.once.trans h.once
  routines t ht := (h'.routines t ht).elim (h.routines t) .inr

theorem worked_put (s : Gateway) (i : Nat) (ht : t.isWork = true) : s.Worked (s.put i t) where
  later := later_of_same rfl rfl
  clock := rfl
  once := rfl
  routines t' ht' := by
    rcases List.mem_or_eq_of_mem_set ht' with hmem | rfl
    · exact .inl hmem
    · exact .inr ht

theorem worked_spawn (s : Gateway) (ht : t.isWork = true) : s.Worked (s.spawn t) where
  later := later_of_same rfl rfl
  clock := rfl
  once := rfl
  routines t' ht' := by
    rcases List.mem_append.mp ht' with hmem | hmem
    · exact .inl hmem
    · obtain rfl := List.mem_singleton.mp hmem
      exact .inr ht

theorem worked_setPool (s : Gateway) (k : Nat) (p : RequestPool) : s.Worked (s.setPool k p) :=
  ⟨later_of_same rfl rfl, rfl, rfl, fun _ => .inl⟩

theorem worked_setGate (hg : (s.gates name).Later g) : s.Worked (s.setGate name g) :=
  ⟨later_setGate hg, rfl, rfl, fun _ => .inl⟩

theorem worked_accept (s : Gateway) (k : Nat) (p : RequestPool) (device : Bytes)
    (req : PendingRequest) : s.Worked (s.accept k p device req) := by
  unfold Gateway.accept
  dsimp only
  split
  next =>
    split
    next => exact worked_setPool s k _
    next => exact (worked_setPool s k _).trans (worked_spawn _ rfl)
  next => exact (worked_setPool s k _).trans (worked_spawn _ rfl)

/-- A goroutine that does work decides and stops nothing. -/
theorem worked_goes (ht : t.isWork = true) (hgoes : s.Goes i t s') : s.Worked s' := by
  have hputs : ∀ {s₁ : Gateway} {t' : Routine}, t.Passes t' → s.Worked s₁ →
      s.Worked (s₁.put i t') :=
    fun hpass hworked => hworked.trans (worked_put _ i (hpass.isWork.trans ht))
  cases hgoes with
  | turns hpass hholds hgates hpools hroutines hclock =>
    obtain ⟨hclock, honce⟩ := hclock ht
    exact hputs hpass ⟨later_of_same hgates hclock, hclock, honce, fun _ => hroutines ▸ .inl⟩
  | enters hpass henter hgain => exact hputs hpass (worked_setGate (Gate.later_enter henter))
  | releases hpass hlose => exact hputs hpass (worked_setGate (Gate.later_release _ _))
  | refuses hpass hwork hholds => exact absurd (hwork.symm.trans ht) Bool.false_ne_true
  | accepts hp henter =>
    have hentered := worked_setGate (Gate.later_enter henter)
    exact (hentered.trans (worked_put _ i rfl)).trans (worked_accept _ _ _ _ _)
  | takes hp hmem => exact (worked_setPool s _ _).trans (worked_put _ i rfl)
  | finishes hp => exact (worked_setPool s _ _).trans (worked_put _ i rfl)

theorem worked_tryStart (s : Gateway) (device : Bytes) : s.Worked (s.tryStart device) := by
  unfold Gateway.tryStart
  split
  next => exact ⟨.refl s, rfl, rfl, fun _ => .inl⟩
  next u g henter =>
    split
    next => exact ⟨.refl s, rfl, rfl, fun _ => .inl⟩
    next =>
      have hgate := later_setGate (s := s) (Gate.later_enter henter)
      have hentered : s.Worked ({ s with inflight := device :: s.inflight }.setGate .posture g) :=
        ⟨⟨hgate.gates, id, fun _ => rfl⟩, rfl, rfl, fun _ => .inl⟩
      exact hentered.trans (worked_spawn _ rfl)

/-- What a decision has done by a phase. -/
def Decided (s : Gateway) : DecisionPhase → Prop
  | .refuseCallbacks => True
  | .refuseWebhook => (s.gates .callbacks).closed = true
  | .refusePosture => (s.gates .callbacks).closed = true ∧ (s.gates .webhook).closed = true
  | .stopSigning | .stoppingClock => ∀ name, (s.gates name).closed = true
  | .cancel | .returned => (∀ name, (s.gates name).closed = true) ∧ SigningStopped s.clock

/-- What the closing of a gate has done by a phase. -/
def Closed (s : Gateway) (name : GateName) : ClosePhase → Prop
  | .refusing => True
  | .waiting => (s.gates name).closed = true
  | .returned => (s.gates name).closed = true ∧ (s.gates name).running = 0

/-- A goroutine that decides or closes has done what it is past. -/
def Done (s : Gateway) : Routine → Prop
  | .deciding phase => s.Decided phase
  | .closing name phase => s.Closed name phase
  | _ => True

/-- **Every decision and every closing has done what it is past**, and the clock is stopped once
somebody has stopped it. -/
structure Settling (s : Gateway) : Prop where
  done : ∀ t ∈ s.routines, s.Done t
  once : s.stopOnce = .done → SigningStopped s.clock

/-- What was done stays done. -/
theorem Done.later (h : s.Done t) (hlater : s.Later s') : s'.Done t := by
  have hgate : ∀ name, (s.gates name).closed = true → (s'.gates name).closed = true := fun name =>
    (hlater.gates name).closed
  cases t with
  | deciding phase =>
    cases phase with
    | refuseCallbacks => trivial
    | refuseWebhook => exact hgate _ h
    | refusePosture => exact ⟨hgate _ h.1, hgate _ h.2⟩
    | stopSigning | stoppingClock => exact fun name => hgate name (h name)
    | cancel | returned => exact ⟨fun name => hgate name (h.1 name), hlater.clock h.2⟩
  | closing name phase =>
    cases phase with
    | refusing => trivial
    | waiting => exact hgate _ h
    | returned =>
      refine ⟨hgate _ h.1, Nat.eq_zero_of_le_zero ?_⟩
      exact h.2 ▸ (hlater.gates name).running h.1
  | callback | draining | running | request | fetching | ended => trivial

theorem done_of_isWork (ht : t.isWork = true) : s.Done t := by
  cases t with
  | deciding phase => cases ht
  | closing name phase => cases ht
  | callback | draining | running | request | fetching | ended => trivial

/-- Work keeps what was done. -/
theorem Settling.worked (h : s.Settling) (hworked : s.Worked s') : s'.Settling where
  done t ht := by
    rcases hworked.routines t ht with hold | hnew
    · exact (h.done t hold).later hworked.later
    · exact done_of_isWork hnew
  once hdone := by
    rw [hworked.clock]
    exact h.once (hworked.once ▸ hdone)

/-- A goroutine goes on that has done what it is past then. -/
theorem Settling.put (h : s.Settling) {s₁ : Gateway} (hlater : s.Later s₁)
    (hroutines : s₁.routines = s.routines) (honce : s₁.stopOnce = .done → SigningStopped s₁.clock)
    (ht : s₁.Done t) : (s₁.put i t).Settling where
  done t' ht' := by
    have hput : s₁.Later (s₁.put i t) := later_of_same rfl rfl
    rcases List.mem_or_eq_of_mem_set ht' with hmem | rfl
    · exact ((h.done t' (hroutines ▸ hmem)).later hlater).later hput
    · exact ht.later hput
  once := honce

theorem closed_refuse (s : Gateway) (name : GateName) :
    ((s.setGate name (s.gates name).refuse).gates name).closed = true := by
  show (Function.update s.gates name _ name).closed = true
  rw [Function.update_self]
  rfl

theorem closed_setGate {name' : GateName} (h : (s.gates name').closed = true)
    (hg : (s.gates name).Later g) : ((s.setGate name g).gates name').closed = true :=
  ((later_setGate hg).gates name').closed h

theorem signingStopped_stop (clock : Option ClockRun) :
    SigningStopped (clock.map ClockRun.stop) := by
  intro r hr
  obtain ⟨r', -, rfl⟩ := Option.map_eq_some_iff.mp hr
  rfl

theorem later_stop (s : Gateway) (once : Once) :
    s.Later { s with clock := s.clock.map ClockRun.stop, stopOnce := once } where
  gates _ := .refl _
  clock _ := signingStopped_stop s.clock
  issued _ := by
    cases hclock : s.clock with
    | none => rfl
    | some r => rfl

/-- A decision does what its phases say. -/
theorem Settling.decisionStep {phase : DecisionPhase} (h : s.Settling)
    (ht : s.routines[i]? = some (.deciding phase)) (hstep : s.decisionStep i phase = some s') :
    s'.Settling ∧ s.Later s' := by
  have hdone : s.Decided phase := h.done _ (List.mem_of_getElem? ht)
  have hrefuse : ∀ name, s.Later (s.setGate name (s.gates name).refuse) := fun name =>
    later_setGate (Gate.later_refuse _)
  have hput : ∀ {s₁ : Gateway} {t : Routine}, s₁.Later (s₁.put i t) := later_of_same rfl rfl
  cases phase with
  | refuseCallbacks =>
    cases hstep
    exact ⟨h.put (hrefuse _) rfl h.once (closed_refuse s .callbacks), (hrefuse _).trans hput⟩
  | refuseWebhook =>
    cases hstep
    refine ⟨h.put (hrefuse _) rfl h.once ?_, (hrefuse _).trans hput⟩
    exact ⟨closed_setGate hdone (Gate.later_refuse _), closed_refuse s .webhook⟩
  | refusePosture =>
    cases hstep
    refine ⟨h.put (hrefuse _) rfl h.once ?_, (hrefuse _).trans hput⟩
    intro name
    cases name with
    | callbacks => exact closed_setGate hdone.1 (Gate.later_refuse _)
    | webhook => exact closed_setGate hdone.2 (Gate.later_refuse _)
    | posture => exact closed_refuse s .posture
  | stopSigning =>
    simp only [Gateway.decisionStep] at hstep
    split at hstep
    next hclock =>
      cases hstep
      refine ⟨h.put (.refl s) rfl h.once ⟨hdone, ?_⟩, hput⟩
      intro r hr
      rw [hclock] at hr
      cases hr
    next =>
      cases hstep
      have hlater : s.Later { s with stopOnce := .running } := later_of_same rfl rfl
      exact ⟨h.put hlater rfl (fun hdone => by cases hdone) hdone, hlater.trans hput⟩
    next => cases hstep
    next hclock honce =>
      cases hstep
      exact ⟨h.put (.refl s) rfl h.once ⟨hdone, h.once honce⟩, hput⟩
  | stoppingClock =>
    cases hstep
    have hstopped := signingStopped_stop s.clock
    refine ⟨h.put (later_stop s .done) rfl (fun _ => hstopped) ⟨hdone, hstopped⟩, ?_⟩
    exact (later_stop s .done).trans hput
  | cancel =>
    cases hstep
    have hlater : s.Later { s with cancelled := true } := later_of_same rfl rfl
    exact ⟨h.put hlater rfl h.once hdone, hlater.trans hput⟩
  | returned => cases hstep

/-- The closing of a gate returns once nothing is running. -/
theorem Settling.closeStep {phase : ClosePhase} (h : s.Settling)
    (ht : s.routines[i]? = some (.closing name phase))
    (hstep : s.closeStep i name phase = some s') : s'.Settling ∧ s.Later s' := by
  have hdone : s.Closed name phase := h.done _ (List.mem_of_getElem? ht)
  have hput : ∀ {s₁ : Gateway} {t : Routine}, s₁.Later (s₁.put i t) := later_of_same rfl rfl
  cases phase with
  | refusing =>
    cases hstep
    have hrefuse : s.Later (s.setGate name (s.gates name).refuse) :=
      later_setGate (Gate.later_refuse _)
    exact ⟨h.put hrefuse rfl h.once (closed_refuse s name), hrefuse.trans hput⟩
  | waiting =>
    obtain ⟨hnone, hs⟩ := Option.ite_none_right_eq_some.mp hstep
    cases hs
    exact ⟨h.put (.refl s) rfl h.once ⟨hdone, hnone⟩, hput⟩
  | returned => cases hstep

theorem Settling.spawn (h : s.Settling) (ht : s.Done t) :
    (s.spawn t).Settling ∧ s.Later (s.spawn t) := by
  have hlater : s.Later (s.spawn t) := later_of_same rfl rfl
  refine ⟨⟨?_, h.once⟩, hlater⟩
  intro t' ht'
  rcases List.mem_append.mp ht' with hmem | hmem
  · exact (h.done t' hmem).later hlater
  · obtain rfl := List.mem_singleton.mp hmem
    exact ht.later hlater

/-- A stopped clock goes on without issuing anything. -/
theorem later_sign {r r' : ClockRun} {e : ClockEvent} (hclock : s.clock = some r)
    (hstep : r.step e = some r') : s.Later { s with clock := some r' } where
  gates _ := .refl _
  clock hs := by
    intro r'' hr''
    cases hr''
    exact (ClockRun.stilled_step (hs r hclock) hstep).closed
  issued hs := by
    rw [hclock]
    exact congrArg some (ClockRun.stilled_step (hs r hclock) hstep).issued_eq

/-- **Every event keeps what was done**, and nothing that was closed or stopped opens again. -/
theorem Settling.step (h : s.Settling) (hstep : s.step e = some s') : s'.Settling ∧ s.Later s' := by
  rcases step_cases hstep with ⟨t, ht, rfl⟩ | ⟨device, rfl⟩ | ⟨r, r', e, hclock, hr', rfl⟩ |
    ⟨i, t, ht, hadvance⟩
  · exact h.spawn (by cases ht <;> trivial)
  · have hworked := worked_tryStart s device
    exact ⟨h.worked hworked, hworked.later⟩
  · have hlater := later_sign hclock hr'
    refine ⟨⟨fun t ht => (h.done t ht).later hlater, ?_⟩, hlater⟩
    exact fun hdone => hlater.clock (h.once hdone)
  · by_cases hwork : t.isWork = true
    · have hworked := worked_goes hwork (goes_advance hadvance)
      exact ⟨h.worked hworked, hworked.later⟩
    · cases t with
      | deciding phase => exact h.decisionStep ht hadvance
      | closing name phase => exact h.closeStep ht hadvance
      | callback | draining | running | request | fetching | ended => exact absurd rfl hwork

end Gateway

end OriGateway
