import OriGateway.Lifecycle.Release

/-! # Nothing is left unreleased

A unit that waits in a pool is handled by the goroutine of its device, and there is exactly one
(**`Served`**); so whenever a unit is not released, a goroutine can go on
(**`exists_run_of_unreleased`**). Every goroutine that goes on leaves less to do (**`work_run`**),
so the goroutines come to an end by themselves, with every unit released. -/

namespace OriGateway

open Foundation

/-! ## One goroutine for the messages of a device -/

namespace Gateway

variable {req : PendingRequest}

/-- **The messages that wait are handled**: where some of a device wait there is exactly one
goroutine that handles them, and one that is to take another finds it. -/
structure Served (s : Gateway) : Prop where
  one : ∀ (k : Nat) (p : RequestPool) (d : Bytes), s.pools[k]? = some p →
    s.routines.countP (Routine.drains k d) = if d ∈ p.draining then 1 else 0
  waiting : ∀ (k : Nat) (p : RequestPool) (d : Bytes), s.pools[k]? = some p → p.waits d = true →
    d ∈ p.draining
  next : ∀ t ∈ s.routines, ∀ (k : Nat) (p : RequestPool) (d : Bytes), s.pools[k]? = some p →
    t.awaits k d = true → p.waits d = true
  known : ∀ t ∈ s.routines, t.PoolKnown s.pools

variable {s s' : Gateway} {i k : Nat} {t t' : Routine} {p p' : RequestPool} {device : Bytes}

theorem countP_put (t' : Routine) (ht : s.routines[i]? = some t) (P : Routine → Bool) :
    (if P t then 1 else 0) + (s.put i t').routines.countP P =
      (if P t' then 1 else 0) + s.routines.countP P := by
  have hcount := (cons_set_perm (x := t') ht).countP_eq P
  rw [List.countP_cons, List.countP_cons] at hcount
  show _ + (s.routines.set i t').countP P = _
  omega

theorem Served.of_same (h : s.Served) (hpools : s'.pools = s.pools)
    (hroutines : s'.routines = s.routines) : s'.Served := by
  obtain ⟨hone, hwaiting, hnext, hknown⟩ := h
  refine ⟨?_, ?_, ?_, ?_⟩
  · rwa [hpools, hroutines]
  · rwa [hpools]
  · rwa [hpools, hroutines]
  · rwa [hpools, hroutines]

/-- A goroutine goes on and handles the same devices. -/
theorem Served.put (h : s.Served) (ht : s.routines[i]? = some t)
    (hdrains : ∀ k d, t'.drains k d = t.drains k d)
    (hnext : ∀ (k : Nat) (p : RequestPool) (d : Bytes), s.pools[k]? = some p →
      t'.awaits k d = true → p.waits d = true) (hknown : t'.PoolKnown s.pools) :
    (s.put i t').Served where
  one k p d hp := by
    have hcount := countP_put t' ht (Routine.drains k d)
    rw [hdrains] at hcount
    rw [← h.one k p d hp]
    omega
  waiting := h.waiting
  next t₁ ht₁ k p d hp hawaits₁ := by
    rcases List.mem_or_eq_of_mem_set ht₁ with hmem | rfl
    · exact h.next t₁ hmem k p d hp hawaits₁
    · exact hnext k p d hp hawaits₁
  known t₁ ht₁ := by
    rcases List.mem_or_eq_of_mem_set ht₁ with hmem | rfl
    · exact h.known t₁ hmem
    · exact hknown

theorem Served.passes (h : s.Served) (ht : s.routines[i]? = some t) (hpass : t.Passes t') :
    (s.put i t').Served :=
  h.put ht hpass.drains
    (fun k p d hp hawaits => h.next t (List.mem_of_getElem? ht) k p d hp (hpass.awaits k d hawaits))
    (hpass.known _ (h.known t (List.mem_of_getElem? ht)))

/-- A goroutine is started that handles no device's messages. -/
theorem Served.spawn (h : s.Served) (hdrains : ∀ k d, t.drains k d = false)
    (hknown : t.PoolKnown s.pools) : (s.spawn t).Served where
  one k p d hp := by
    show (s.routines ++ [t]).countP _ = _
    rw [List.countP_append, List.countP_singleton, hdrains, h.one k p d hp]
    rfl
  waiting := h.waiting
  next t₁ ht₁ k p d hp hawaits := by
    rcases List.mem_append.mp ht₁ with hmem | hmem
    · exact h.next t₁ hmem k p d hp hawaits
    · obtain rfl := List.mem_singleton.mp hmem
      exact absurd (Routine.drains_of_awaits hawaits) (by simp [hdrains])
  known t₁ ht₁ := by
    rcases List.mem_append.mp ht₁ with hmem | hmem
    · exact h.known t₁ hmem
    · obtain rfl := List.mem_singleton.mp hmem
      exact hknown

theorem pools_setPool (hp : s.pools[k]? = some p) {k' : Nat} {q : RequestPool}
    (hq : (s.setPool k p').pools[k']? = some q) :
    (k' = k ∧ q = p') ∨ (k' ≠ k ∧ s.pools[k']? = some q) := by
  by_cases hk : k' = k
  · subst hk
    have hlt : k' < s.pools.length := (List.getElem?_eq_some_iff.mp hp).1
    have hself : (s.setPool k' p').pools[k']? = some p' := List.getElem?_set_self hlt
    exact .inl ⟨rfl, Option.some.inj (hq.symm.trans hself)⟩
  · have hother : (s.setPool k p').pools[k']? = s.pools[k']? := List.getElem?_set_ne (Ne.symm hk)
    exact .inr ⟨hk, hother ▸ hq⟩

theorem poolKnown_setPool (hp : s.pools[k]? = some p) (hordered : p'.ordered = p.ordered)
    (h : t.PoolKnown s.pools) : t.PoolKnown (s.setPool k p').pools := by
  have hlookup : ∀ {k' : Nat} {b : Bool}, (∃ q, s.pools[k']? = some q ∧ q.ordered = b) →
      ∃ q, (s.setPool k p').pools[k']? = some q ∧ q.ordered = b := by
    rintro k' b ⟨q, hq, hb⟩
    by_cases hk : k' = k
    · subst hk
      have hlt : k' < s.pools.length := (List.getElem?_eq_some_iff.mp hp).1
      obtain rfl := Option.some.inj (hq.symm.trans hp)
      exact ⟨p', List.getElem?_set_self hlt, hordered.trans hb⟩
    · exact ⟨q, (List.getElem?_set_ne (Ne.symm hk)).trans hq, hb⟩
  cases t with
  | callback job topic payload phase =>
    cases job with
    | inline => trivial
    | pooled k' family => exact lt_of_lt_of_eq h List.length_set.symm
  | draining k' d => exact hlookup h
  | running k' d req drains phase => exact hlookup h
  | request | fetching | deciding | closing | ended => trivial

/-- One pool changes, and the goroutines with it: only what concerns that pool is to be shown. -/
theorem Served.change (h : s.Served) (hp : s.pools[k]? = some p)
    (hpools : s'.pools = (s.setPool k p').pools) (hordered : p'.ordered = p.ordered)
    (hone : ∀ d, s'.routines.countP (Routine.drains k d) = if d ∈ p'.draining then 1 else 0)
    (helse : ∀ k', k' ≠ k → ∀ d, s'.routines.countP (Routine.drains k' d)
      = s.routines.countP (Routine.drains k' d))
    (hwaiting : ∀ d, p'.waits d = true → d ∈ p'.draining)
    (hnext : ∀ t ∈ s'.routines, ∀ d, t.awaits k d = true → p'.waits d = true)
    (hnew : ∀ t ∈ s'.routines, t ∈ s.routines ∨ t.PoolKnown s.pools ∧ ∀ k', k' ≠ k →
      ∀ d, t.awaits k' d = false) : s'.Served where
  one k' q d hq := by
    rcases pools_setPool hp (hpools ▸ hq) with ⟨rfl, rfl⟩ | ⟨hk, hq⟩
    · exact hone d
    · rw [helse k' hk d]
      exact h.one k' q d hq
  waiting k' q d hq hwaits := by
    rcases pools_setPool hp (hpools ▸ hq) with ⟨rfl, rfl⟩ | ⟨-, hq⟩
    · exact hwaiting d hwaits
    · exact h.waiting k' q d hq hwaits
  next t ht k' q d hq hawaits := by
    rcases pools_setPool hp (hpools ▸ hq) with ⟨rfl, rfl⟩ | ⟨hk, hq⟩
    · exact hnext t ht d hawaits
    · rcases hnew t ht with hold | ⟨-, hnone⟩
      · exact h.next t hold k' q d hq hawaits
      · exact absurd hawaits (by simp [hnone k' hk d])
  known t ht := by
    rw [hpools]
    rcases hnew t ht with hold | ⟨hknown, -⟩
    · exact poolKnown_setPool hp hordered (h.known t hold)
    · exact poolKnown_setPool hp hordered hknown

theorem Served.setPool (h : s.Served) (hp : s.pools[k]? = some p)
    (hordered : p'.ordered = p.ordered) (hdraining : p'.draining = p.draining)
    (hmore : ∀ d, p.waits d = true → p'.waits d = true)
    (hwaiting : ∀ d, p'.waits d = true → d ∈ p'.draining) : (s.setPool k p').Served :=
  h.change hp rfl hordered (fun d => hdraining ▸ h.one k p d hp) (fun _ _ _ => rfl) hwaiting
    (fun t ht d hawaits => hmore d (h.next t ht k p d hp hawaits)) fun _ => .inl

/-- A device's first message waits, and the goroutine that is to handle it is started. -/
theorem Served.startDraining (h : s.Served) (hp : s.pools[k]? = some p)
    (hordered : p'.ordered = p.ordered) (hmode : p.ordered = true) (hnew : device ∉ p.draining)
    (hdraining : p'.draining = device :: p.draining)
    (hwaits : ∀ d, p'.waits d = true ↔ p.waits d = true ∨ d = device) :
    ((s.setPool k p').spawn (.draining k device)).Served := by
  have hcount : ∀ P, ((s.setPool k p').spawn (.draining k device)).routines.countP P =
      s.routines.countP P + if P (.draining k device) then 1 else 0 := by
    intro P
    show (s.routines ++ [Routine.draining k device]).countP P = _
    rw [List.countP_append, List.countP_singleton]
  have hspawned : ∀ t ∈ ((s.setPool k p').spawn (.draining k device)).routines,
      t ∈ s.routines ∨ t = .draining k device := fun t ht =>
    (List.mem_append.mp ht).imp_right List.mem_singleton.mp
  refine h.change hp rfl hordered (fun d => ?_) (fun k' hk d => ?_) (fun d hwait => ?_)
    (fun t ht d hawaits => ?_)
    fun t ht => ?_
  · rw [hcount, h.one k p d hp, hdraining]
    by_cases hd : d = device
    · subst hd
      simp [Routine.drains, hnew]
    · simp [Routine.drains, hd, Ne.symm hd]
  · rw [hcount]
    simp [Routine.drains, Ne.symm hk]
  · rw [hdraining, List.mem_cons]
    exact ((hwaits d).mp hwait).symm.imp_right (h.waiting k p d hp)
  · rcases hspawned t ht with hmem | rfl
    · exact (hwaits d).mpr (.inl (h.next t hmem k p d hp hawaits))
    · simp only [Routine.awaits, Bool.and_eq_true, beq_iff_eq] at hawaits
      exact (hwaits d).mpr (.inr hawaits.2.symm)
  · refine (hspawned t ht).imp_right ?_
    rintro rfl
    exact ⟨⟨p, hp, hmode⟩, fun k' hk d => by simp [Routine.awaits, Ne.symm hk]⟩

theorem waits_append (p : RequestPool) (device d : Bytes) (req : PendingRequest) :
    (p.append device req).waits d = true ↔ p.waits d = true ∨ d = device := by
  show ((p.queued ++ [(device, req)]).any fun r => r.1 == d) = true ↔ _
  rw [List.any_append, Bool.or_eq_true]
  refine or_congr Iff.rfl ?_
  rw [List.any_cons, List.any_nil, Bool.or_false, beq_iff_eq]
  exact eq_comm

/-- An accepted message has a goroutine that will handle it. -/
theorem Served.accept (h : s.Served) (hp : s.pools[k]? = some p) :
    (s.accept k p device req).Served := by
  have hwaits := waits_append (p.hold ⟨device, req.family⟩) device
  unfold Gateway.accept
  dsimp only
  split
  next hmode =>
    split
    next hdraining =>
      refine h.setPool hp rfl rfl (fun d hd => (hwaits d req).mpr (.inl hd)) fun d hd => ?_
      rcases (hwaits d req).mp hd with hold | rfl
      · exact h.waiting k p d hp hold
      · exact hdraining
    next hnew => exact h.startDraining hp rfl hmode hnew rfl fun d => hwaits d req
  next hmode =>
    have hheld : (s.setPool k (p.hold ⟨device, req.family⟩)).Served :=
      h.setPool hp rfl rfl (fun d hd => hd) (h.waiting k p · hp)
    have hlt : k < s.pools.length := (List.getElem?_eq_some_iff.mp hp).1
    refine hheld.spawn (fun _ _ => rfl)
      ⟨p.hold ⟨device, req.family⟩, List.getElem?_set_self hlt, ?_⟩
    exact Bool.eq_false_iff.mpr hmode

theorem waits_unhold (p : RequestPool) (key : PoolKey) (d : Bytes) :
    (p.unhold key).waits d = p.waits d := by
  unfold RequestPool.unhold
  split <;> rfl

theorem draining_unhold (p : RequestPool) (key : PoolKey) :
    (p.unhold key).draining = p.draining := by
  unfold RequestPool.unhold
  split <;> rfl

theorem ordered_unhold (p : RequestPool) (key : PoolKey) : (p.unhold key).ordered = p.ordered := by
  unfold RequestPool.unhold
  split <;> rfl

/-- The last message of a device is handled, and its goroutine ends. -/
theorem Served.stopDraining (h : s.Served)
    (ht : s.routines[i]? = some (.running k device req true .finishing))
    (hp : s.pools[k]? = some p) (hordered : p'.ordered = p.ordered) (hmode : p.ordered = true)
    (hdraining : p'.draining = p.draining.filter (· ≠ device))
    (hwaits : ∀ d, p'.waits d = p.waits d) (hlast : p.waits device = false) :
    ((s.setPool k p').put i (.running k device req true (.releasing true))).Served := by
  have hcount := fun P => countP_put (.running k device req true (.releasing true)) ht P
  refine h.change hp rfl hordered (fun d => ?_) (fun k' hk d => ?_) (fun d hwait => ?_)
    (fun t₁ ht₁ d hawaits => ?_)
    fun t₁ ht₁ => ?_
  · have hd := hcount (Routine.drains k d)
    rw [h.one k p d hp] at hd
    show (s.put i _).routines.countP _ = _
    by_cases hdevice : d = device
    · subst hdevice
      simp [Routine.drains] at hd
      rw [hdraining]
      simp only [List.mem_filter, decide_eq_true_eq, ne_eq, not_true_eq_false, and_false, if_false]
      split at hd <;> omega
    · simp [Routine.drains, Ne.symm hdevice] at hd
      rw [hdraining, hd]
      simp [hdevice]
  · have hd := hcount (Routine.drains k' d)
    show (s.put i _).routines.countP _ = _
    simpa [Routine.drains, Ne.symm hk] using hd
  · rw [hwaits] at hwait
    rw [hdraining]
    refine List.mem_filter.mpr ⟨h.waiting k p d hp hwait, decide_eq_true fun hd => ?_⟩
    rw [hd, hlast] at hwait
    cases hwait
  · rcases List.mem_or_eq_of_mem_set ht₁ with hmem | rfl
    · rw [hwaits]
      exact h.next t₁ hmem k p d hp hawaits
    · cases hawaits
  · refine (List.mem_or_eq_of_mem_set ht₁).imp_right ?_
    rintro rfl
    exact ⟨⟨p, hp, hmode⟩, fun _ _ _ => rfl⟩

theorem Served.finishes {req : PendingRequest} {drains : Bool} (h : s.Served)
    (ht : s.routines[i]? = some (.running k device req drains .finishing))
    (hp : s.pools[k]? = some p) :
    ((s.setPool k (finish p device req).2).put i
      (.running k device req drains (.releasing (finish p device req).1))).Served := by
  have hmode : p.ordered = drains := by
    obtain ⟨q, hq, hmode⟩ := h.known _ (List.mem_of_getElem? ht)
    obtain rfl := Option.some.inj (hq.symm.trans hp)
    exact hmode
  unfold finish
  dsimp only
  split
  next hlast =>
    rw [ordered_unhold, waits_unhold] at hlast
    obtain rfl : drains = true := hmode.symm.trans hlast.1
    exact h.stopDraining ht hp (ordered_unhold p _) hmode (congrArg _ (draining_unhold p _))
      (waits_unhold p _) hlast.2
  next hmore =>
    rw [ordered_unhold, waits_unhold] at hmore
    have hset : (s.setPool k (p.unhold ⟨device, req.family⟩)).Served := by
      refine h.setPool hp (ordered_unhold p _) (draining_unhold p _) (fun d hd => ?_) fun d hd => ?_
      · rwa [waits_unhold]
      · rw [draining_unhold]
        exact h.waiting k p d hp (by rwa [waits_unhold] at hd)
    have hknown : (Routine.running k device req drains (.releasing false)).PoolKnown s.pools :=
      ⟨p, hp, hmode⟩
    refine hset.put ht (fun _ _ => by cases drains <;> rfl) (fun k' q d hq ha => ?_)
      (poolKnown_setPool hp (ordered_unhold p _) hknown)
    -- it goes on to the next message only where one waits
    cases drains with
    | false => cases ha
    | true =>
      simp only [Routine.awaits, Bool.and_eq_true, beq_iff_eq] at ha
      obtain ⟨rfl, rfl⟩ := ha
      rcases pools_setPool hp hq with ⟨-, rfl⟩ | ⟨hk, -⟩
      · rw [waits_unhold]
        exact Bool.eq_true_of_not_eq_false fun hnone => hmore ⟨hmode, hnone⟩
      · exact absurd rfl hk

theorem eq_of_countP_eq_one {P : Routine → Bool} {l : List Routine} (h : l.countP P = 1)
    (ht : t ∈ l) (ht' : t' ∈ l) (hP : P t = true) (hP' : P t' = true) : t = t' := by
  rw [List.countP_eq_length_filter, List.length_eq_one_iff] at h
  obtain ⟨a, ha⟩ := h
  have hmem : ∀ {t}, t ∈ l → P t = true → t = a := fun {t} ht hP =>
    List.mem_singleton.mp (ha ▸ List.mem_filter.mpr ⟨ht, hP⟩)
  exact (hmem ht hP).trans (hmem ht' hP').symm

/-- A goroutine takes the next message of the device it handles. -/
theorem Served.takes {req : PendingRequest} (h : s.Served)
    (ht : s.routines[i]? = some (.draining k device))
    (hp : s.pools[k]? = some p) :
    ((s.setPool k { p with queued := p.queued.erase (device, req) }).put i
      (.running k device req true .checking)).Served := by
  obtain ⟨q, hq, hmode⟩ := h.known _ (List.mem_of_getElem? ht)
  obtain rfl := Option.some.inj (hq.symm.trans hp)
  have hsame : ∀ k' d,
    (s.routines.set i (.running k device req true .checking)).countP (Routine.drains k' d) =
      s.routines.countP (Routine.drains k' d) := fun k' d =>
    Nat.add_left_cancel (countP_put (.running k device req true .checking) ht (Routine.drains k' d))
  refine h.change hp rfl rfl (fun d => (hsame k d).trans (h.one k q d hp)) (fun k' _ => hsame k')
    (fun d hwait => ?_)
    (fun t₁ ht₁ d hawaits => ?_) fun t₁ ht₁ => ?_
  · obtain ⟨r, hr, hrd⟩ := List.any_eq_true.mp hwait
    exact h.waiting k q d hp (List.any_eq_true.mpr ⟨r, List.mem_of_mem_erase hr, hrd⟩)
  · rcases List.mem_or_eq_of_mem_set ht₁ with hmem | rfl
    · have hwait := h.next t₁ hmem k q d hp hawaits
      by_cases hd : d = device
      · -- the goroutine that took the message is the only one that handles this device
        subst hd
        have htaken : Routine.running k d req true .checking
          ∈ s.routines.set i (.running k d req true .checking) :=
          List.mem_set (List.getElem?_eq_some_iff.mp ht).1 _
        have hcount := (hsame k d).trans (h.one k q d hp)
        rw [if_pos (h.waiting k q d hp hwait)] at hcount
        obtain rfl := eq_of_countP_eq_one hcount ht₁ htaken (Routine.drains_of_awaits hawaits)
          (by simp [Routine.drains])
        cases hawaits
      · obtain ⟨r, hr, hrd⟩ := List.any_eq_true.mp hwait
        refine List.any_eq_true.mpr ⟨r, (List.mem_erase_of_ne ?_).mpr hr, hrd⟩
        rintro rfl
        exact hd (LawfulBEq.eq_of_beq hrd).symm
    · cases hawaits
  · refine (List.mem_or_eq_of_mem_set ht₁).imp_right ?_
    rintro rfl
    exact ⟨⟨q, hp, hmode⟩, fun _ _ _ => rfl⟩

theorem Served.goes (h : s.Served) (ht : s.routines[i]? = some t) (hgoes : s.Goes i t s') :
    s'.Served := by
  cases hgoes with
  | turns hpass hholds hgates hpools hroutines hclock =>
    exact (h.of_same hpools hroutines).passes (hroutines ▸ ht) hpass
  | enters hpass henter hgain => exact Served.passes (h.of_same rfl rfl) ht hpass
  | releases hpass hlose => exact Served.passes (h.of_same rfl rfl) ht hpass
  | refuses hpass hwork hholds => exact Served.passes (h.of_same rfl rfl) ht hpass
  | accepts hp henter =>
    refine Served.accept (Served.passes (h.of_same rfl rfl) ht (Routine.passes_callback ?_)) hp
    simp [Routine.left]
  | takes hp hmem => exact h.takes ht hp
  | finishes hp => exact h.finishes ht hp

theorem Served.step {e : GatewayEvent} (h : s.Served) (hstep : s.step e = some s') : s'.Served := by
  rcases step_cases hstep with ⟨t, ht, rfl⟩ | ⟨device, rfl⟩ | ⟨r, r', e, -, -, rfl⟩ |
    ⟨i, t, ht, hadvance⟩
  · cases ht with
    | @callback job _ _ hserves =>
      refine h.spawn (fun _ _ => rfl) ?_
      cases job with
      | inline => trivial
      | pooled k family =>
        have hlt : k < s.pools.length := of_decide_eq_true hserves
        exact hlt
    | request | deciding | closing => exact h.spawn (fun _ _ => rfl) trivial
  · unfold Gateway.tryStart
    split
    next => exact h
    next u g _ =>
      split
      next => exact h
      next =>
        have hmarked : ({ s with inflight := device :: s.inflight }.setGate .posture g).Served :=
          h.of_same rfl rfl
        exact hmarked.spawn (fun _ _ => rfl) trivial
  · exact h.of_same rfl rfl
  · exact h.goes ht (goes_advance hadvance)

/-! ## A goroutine can go on -/

theorem pop_of_waits (h : p.waits device = true) : ∃ req p', p.pop device = some (req, p') := by
  obtain ⟨r, hr, hd⟩ := List.any_eq_true.mp h
  unfold RequestPool.pop
  cases hfind : p.queued.find? fun r => r.1 == device with
  | none => exact absurd hd (by simpa using List.find?_eq_none.mp hfind r hr)
  | some r' => exact ⟨_, _, rfl⟩

theorem runStep_exists {drains : Bool} (hp : s.pools[k]? = some p) (phase : RunPhase) :
    ∃ s', s.runStep i k device req drains phase = some s' := by
  cases phase with
  | checking =>
    simp only [Gateway.runStep]
    split <;> exact ⟨_, rfl⟩
  | handling => exact ⟨_, rfl⟩
  | finishing =>
    simp only [Gateway.runStep, hp]
    exact ⟨_, rfl⟩
  | releasing last =>
    simp only [Gateway.runStep]
    split <;> exact ⟨_, rfl⟩

/-- A goroutine that holds a unit can go on. -/
theorem advance_of_holds {name : GateName} {u : Nat} (h : s.Served) (ht : s.routines[i]? = some t)
    (hu : u ∈ t.holds name) : ∃ s', s.advance i t = some s' := by
  have hknown := h.known t (List.mem_of_getElem? ht)
  cases t with
  | callback job topic payload phase =>
    cases phase with
    | arriving => cases name <;> cases hu
    | handling v =>
      cases job with
      | inline => exact ⟨_, rfl⟩
      | pooled k family =>
        obtain ⟨p, hp⟩ : ∃ p, s.pools[k]? = some p := ⟨_, List.getElem?_eq_getElem hknown⟩
        simp only [Gateway.advance, Gateway.callbackStep, Gateway.handOver, hp]
        split
        next => exact ⟨_, rfl⟩
        next =>
          split
          next => exact ⟨_, rfl⟩
          next => exact ⟨_, rfl⟩
    | dropping v w => exact ⟨_, rfl⟩
    | leaving v => exact ⟨_, rfl⟩
  | running k device req drains phase =>
    obtain ⟨p, hp, -⟩ := hknown
    exact runStep_exists hp phase
  | request unit =>
    cases unit with
    | none => cases name <;> cases hu
    | some v => exact ⟨_, rfl⟩
  | fetching device v inflight => cases inflight <;> exact ⟨_, rfl⟩
  | draining | deciding | closing | ended => cases name <;> cases hu

/-- While a message waits a goroutine can go on. -/
theorem advance_of_waits (h : s.Served) (hp : s.pools[k]? = some p)
    (hwaits : p.waits device = true) :
    ∃ i t s', s.routines[i]? = some t ∧ s.advance i t = some s' := by
  have hone := h.one k p device hp
  rw [if_pos (h.waiting k p device hp hwaits)] at hone
  obtain ⟨t, ht, hdrains⟩ := List.countP_pos_iff.mp (hone ▸ Nat.one_pos)
  obtain ⟨i, hi⟩ := List.getElem?_of_mem ht
  refine ⟨i, t, ?_⟩
  cases t with
  | draining k' device' =>
    simp only [Routine.drains, Bool.and_eq_true, beq_iff_eq] at hdrains
    obtain ⟨rfl, rfl⟩ := hdrains
    obtain ⟨req, p', hpop⟩ := pop_of_waits hwaits
    have hgoes : ∃ s', s.drainStep i k' device' = some s' := by
      simp only [Gateway.drainStep, hp, hpop]
      exact ⟨_, rfl⟩
    obtain ⟨s', hs'⟩ := hgoes
    exact ⟨s', hi, hs'⟩
  | running k' device' req drains phase =>
    obtain ⟨p', hp', -⟩ := h.known _ ht
    have hgoes : ∃ s', s.runStep i k' device' req drains phase = some s' := runStep_exists hp' phase
    obtain ⟨s', hs'⟩ := hgoes
    exact ⟨s', hi, hs'⟩
  | callback | request | fetching | deciding | closing | ended => cases hdrains

/-- **While a unit is not released, a goroutine can go on.** -/
theorem exists_run_of_unreleased {name : GateName} {u : Nat} (hbalance : s.Balance) (h : s.Served)
    (hu : u < (s.gates name).admitted) (hnot : u ∉ (s.gates name).released) :
    ∃ i s', s.step (.run i) = some s' := by
  have hheld : u ∈ s.holders name := by
    rw [← List.count_pos_iff, (hbalance name).held hu hnot]
    exact Nat.one_pos
  have hrun : ∀ {i : Nat} {t : Routine} {s' : Gateway}, s.routines[i]? = some t →
    s.advance i t = some s' →
      ∃ i s', s.step (.run i) = some s' := by
    intro i t s' ht hstep
    refine ⟨i, s', ?_⟩
    simp only [Gateway.step, ht]
    exact hstep
  rcases List.mem_append.mp hheld with hroutine | hpool
  · obtain ⟨t, ht, hut⟩ := List.mem_flatMap.mp hroutine
    obtain ⟨i, hi⟩ := List.getElem?_of_mem ht
    obtain ⟨s', hs'⟩ := advance_of_holds h hi hut
    exact hrun hi hs'
  · obtain ⟨p, hp, hup⟩ := List.mem_flatMap.mp hpool
    obtain ⟨k, hk⟩ := List.getElem?_of_mem hp
    cases name with
    | callbacks =>
      obtain ⟨r, hr, -⟩ := List.mem_map.mp hup
      have hwaits : p.waits r.1 = true := List.any_eq_true.mpr ⟨r, hr, beq_self_eq_true _⟩
      obtain ⟨i, t, s', ht, hs'⟩ := advance_of_waits h hk hwaits
      exact hrun ht hs'
    | webhook => cases hup
    | posture => cases hup

/-! ## The goroutines come to an end -/

/-- What is left to do, at most: by the goroutines, and for the messages that wait. -/
def work (s : Gateway) : Nat :=
  (s.routines.map Routine.left).sum + (s.pools.map fun p => 8 * p.queued.length).sum

theorem work_put (ht : s.routines[i]? = some t) (t' : Routine) :
    t.left + (s.put i t').work = t'.left + s.work := by
  have hsum := ((cons_set_perm (x := t') ht).map Routine.left).sum_eq
  rw [List.map_cons, List.map_cons, List.sum_cons, List.sum_cons] at hsum
  show t.left + (((s.routines.set i t').map Routine.left).sum +
    (s.pools.map fun p => 8 * p.queued.length).sum) = _
  rw [work]
  omega

theorem work_setPool (hp : s.pools[k]? = some p) (p' : RequestPool) :
    8 * p.queued.length + (s.setPool k p').work = 8 * p'.queued.length + s.work := by
  have hsum := ((cons_set_perm (x := p') hp).map fun p => 8 * p.queued.length).sum_eq
  rw [List.map_cons, List.map_cons, List.sum_cons, List.sum_cons] at hsum
  show _ + ((s.routines.map Routine.left).sum +
    ((s.pools.set k p').map fun p => 8 * p.queued.length).sum) = _
  rw [work]
  omega

theorem work_spawn (s : Gateway) (t : Routine) : (s.spawn t).work = t.left + s.work := by
  show ((s.routines ++ [t]).map Routine.left).sum + (s.pools.map fun p => 8 * p.queued.length).sum
    = _
  rw [List.map_append, List.sum_append, List.map_singleton, List.sum_singleton, work]
  omega

theorem work_passes {s₁ : Gateway} (ht : s.routines[i]? = some t) (hpools : s₁.pools = s.pools)
    (hroutines : s₁.routines = s.routines) (hpass : t.Passes t') : (s₁.put i t').work < s.work := by
  have hput := work_put (s := s₁) (hroutines ▸ ht) t'
  have hsame : s₁.work = s.work := by rw [work, work, hpools, hroutines]
  have hless := hpass.left
  omega

/-- An accepted message adds at most its handling and one goroutine. -/
theorem work_accept (hp : s.pools[k]? = some p) : (s.accept k p device req).work ≤ s.work + 9 := by
  have happend : ∀ p', p'.queued = p.queued ++ [(device, req)] →
      (s.setPool k p').work = s.work + 8 := by
    intro p' hqueued
    have hset := work_setPool hp p'
    rw [hqueued, List.length_append, List.length_singleton] at hset
    omega
  unfold Gateway.accept
  dsimp only
  split
  next =>
    split
    next =>
      rw [happend _ rfl]
      omega
    next =>
      rw [work_spawn, happend _ rfl]
      exact le_of_eq (by rw [Routine.left]; omega)
  next =>
    have hset := work_setPool hp (p.hold ⟨device, req.family⟩)
    have hsame : (p.hold ⟨device, req.family⟩).queued.length = p.queued.length := rfl
    rw [work_spawn, Routine.left]
    omega

/-- **Every goroutine that goes on leaves less to do.** -/
theorem work_goes (ht : s.routines[i]? = some t) (hgoes : s.Goes i t s') : s'.work < s.work := by
  cases hgoes with
  | turns hpass hholds hgates hpools hroutines hclock => exact work_passes ht hpools hroutines hpass
  | enters hpass henter hgain => exact work_passes ht rfl rfl hpass
  | releases hpass hlose => exact work_passes ht rfl rfl hpass
  | refuses hpass hwork hholds => exact work_passes ht rfl rfl hpass
  | @accepts k family topic payload u v g p hp henter =>
    -- the message may wait, and a goroutine may be started for it
    have hput : 18 + ((s.setGate .callbacks g).put i
        (.callback (.pooled k family) topic payload (.leaving u))).work = 2 + s.work :=
      work_put (s := s.setGate .callbacks g) ht _
    refine lt_of_le_of_lt (work_accept hp) ?_
    omega
  | @takes k device req p hp hmem =>
    have hset := work_setPool hp { p with queued := p.queued.erase (device, req) }
    have hput : 1 + ((s.setPool k { p with queued := p.queued.erase (device, req) }).put i
        (.running k device req true .checking)).work
      = 6 + (s.setPool k { p with queued := p.queued.erase (device, req) }).work :=
      work_put (s := s.setPool k { p with queued := p.queued.erase (device, req) }) ht _
    have hlength : (p.queued.erase (device, req)).length + 1 = p.queued.length :=
      List.length_erase_add_one hmem
    dsimp only at hset
    omega
  | @finishes k device req drains p hp =>
    have hset := work_setPool hp (finish p device req).2
    have hqueued : (finish p device req).2.queued.length = p.queued.length := by
      have hholds := congrArg List.length (finish_holds p device req .callbacks)
      simpa [RequestPool.holds] using hholds
    have hput : 4 + ((s.setPool k (finish p device req).2).put i
        (.running k device req drains (.releasing (finish p device req).1))).work
      = 3 + (s.setPool k (finish p device req).2).work :=
      work_put (s := s.setPool k (finish p device req).2) ht _
    omega

theorem work_run (hstep : s.step (.run i) = some s') : s'.work < s.work := by
  simp only [Gateway.step] at hstep
  split at hstep
  next => cases hstep
  next t ht => exact work_goes ht (goes_advance hstep)

/-- The goroutines take at most as many steps as there is work. -/
theorem length_le_work {is : List Nat} (hrun : runAll step s (is.map .run) = some s') :
    is.length + s'.work ≤ s.work := by
  induction is generalizing s with
  | nil =>
    cases hrun
    simp
  | cons i is ih =>
    obtain ⟨s₁, hone, hrest⟩ := runAll_cons.mp hrun
    have hless := work_run hone
    have hmore := ih hrest
    rw [List.length_cons]
    omega

/-! ## Every run -/

variable {pools : List PoolConfig} {clock : Option ClockRun} {es : List GatewayEvent}

theorem pools_started {q : RequestPool} (hq : (started pools clock).pools[k]? = some q) :
    ∃ c, q = newRequestPool c := by
  obtain ⟨c, -, hc⟩ := List.mem_map.mp (List.mem_of_getElem? hq)
  exact ⟨c, hc.symm⟩

theorem balance_started : (started pools clock).Balance := by
  intro name
  have hnone : (started pools clock).holders name = [] := by
    rw [holders]
    refine List.flatMap_eq_nil_iff.mpr ?_
    intro q hq
    obtain ⟨c, -, rfl⟩ := List.mem_map.mp hq
    cases name <;> rfl
  rw [hnone]
  exact Gate.balanced_fresh

theorem settling_started : (started pools clock).Settling :=
  ⟨fun _ ht => absurd ht List.not_mem_nil, fun hdone => by cases hdone⟩

theorem served_started : (started pools clock).Served where
  one k q d hq := by
    obtain ⟨c, rfl⟩ := pools_started hq
    rfl
  waiting k q d hq hwaits := by
    obtain ⟨c, rfl⟩ := pools_started hq
    cases hwaits
  next _ ht := absurd ht List.not_mem_nil
  known _ ht := absurd ht List.not_mem_nil

theorem later_runAll {es' : List GatewayEvent} (h : s.Settling)
    (hrun : runAll step s es' = some s') :
    s.Later s' :=
  (runAll_invariant (I := fun t => t.Settling ∧ s.Later t)
    (fun _ _ _ ht hstep => ⟨(ht.1.step hstep).1, ht.2.trans (ht.1.step hstep).2⟩) ⟨h, .refl s⟩
      hrun).2

/-- **Once a decision to stop has returned nothing more is let in or signed, and what was let in is
released once.** In every run of the gateway: after any decision has returned no gate lets anything
in and the message signing clock issues no value; when the closing of a gate has returned, every
unit it let in was released exactly once; no unit is released twice; and while one is not released
it has exactly one holder, a goroutine can go on, and the goroutines take only so many steps before
they come to an end. -/
theorem stop_admits_nothing_and_releases_once
    (hrun : runAll step (started pools clock) es = some s) :
    (.deciding .returned ∈ s.routines → ∀ es' s', runAll step s es' = some s' →
        (∀ name, (s'.gates name).admitted = (s.gates name).admitted) ∧
          s'.clock.map ClockRun.issued = s.clock.map ClockRun.issued) ∧
      (∀ name, .closing name .returned ∈ s.routines → ∀ u < (s.gates name).admitted,
        (s.gates name).released.count u = 1) ∧
      (∀ name, (s.gates name).released.Nodup ∧ ∀ u < (s.gates name).admitted,
        u ∉ (s.gates name).released →
          (s.holders name).count u = 1 ∧ ∃ i s', s.step (.run i) = some s') ∧
      ∀ (is : List Nat) (s' : Gateway), runAll step s (is.map .run) = some s' →
      is.length ≤ s.work := by
  have hbalance : s.Balance := runAll_invariant (fun _ _ _ ht => ht.step) balance_started hrun
  have hsettling : s.Settling :=
    runAll_invariant (fun _ _ _ ht hstep => (ht.step hstep).1) settling_started hrun
  have hserved : s.Served := runAll_invariant (fun _ _ _ ht => ht.step) served_started hrun
  refine ⟨?_, ?_, ?_, ?_⟩
  · intro hdecided es' s' hrun'
    obtain ⟨hclosed, hstopped⟩ := hsettling.done _ hdecided
    have hlater := later_runAll hsettling hrun'
    exact ⟨fun name => (hlater.gates name).admitted (hclosed name), hlater.issued hstopped⟩
  · intro name hreturned u hu
    obtain ⟨-, hnone⟩ := hsettling.done _ hreturned
    exact (hbalance name).released_once hnone hu
  · intro name
    refine ⟨(hbalance name).nodup_released, ?_⟩
    intro u hu hnot
    exact ⟨(hbalance name).held hu hnot, exists_run_of_unreleased hbalance hserved hu hnot⟩
  · intro is s' hrun'
    have hlength := length_le_work hrun'
    omega

/-- A message waits in an ordered pool when the stop is decided: it is released without being
handled, and the closing of the gate returns. -/
def stoppedEvents : List GatewayEvent :=
  [.deliver (.pooled 0 (ascii "f")) (ascii "ori/d/f") [], .run 0, .run 0, .decide, .run 2, .run 2,
    .run 2, .run 2, .run 2, .run 2, .close .callbacks, .run 3, .run 1, .run 1, .run 1, .run 1,
    .run 0, .run 3]

theorem stop_admits_nothing_and_releases_once_stoppedEvents :
    ∃ s, runAll step (started [⟨true, fun _ => 1, [ascii "d"]⟩] (newDurableSigningClock none 0))
      stoppedEvents
        = some s ∧ .deciding .returned ∈ s.routines ∧ .closing .callbacks .returned ∈ s.routines ∧
      (s.gates .callbacks).admitted = 2 ∧ ∀ u < 2, (s.gates .callbacks).released.count u = 1 := by
  obtain ⟨s, hrun, hs⟩ := Option.map_eq_some_iff.mp (by decide +kernel :
    (runAll step (started [⟨true, fun _ => 1, [ascii "d"]⟩] (newDurableSigningClock none 0))
      stoppedEvents).map
      (fun s => decide
        (.deciding .returned ∈ s.routines ∧ .closing .callbacks .returned ∈ s.routines ∧
        (s.gates .callbacks).admitted = 2)) = some true)
  obtain ⟨hdecided, hreturned, hadmitted⟩ := of_decide_eq_true hs
  obtain ⟨-, honce, -⟩ := stop_admits_nothing_and_releases_once hrun
  refine ⟨s, hrun, hdecided, hreturned, hadmitted, ?_⟩
  rw [← hadmitted]
  exact honce .callbacks hreturned

end Gateway

end OriGateway
