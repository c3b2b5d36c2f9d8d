import OriGateway.MqttAuth.SigningHistory

/-! # Bounds of the signing clock

How far marks and values run ahead of the wall clock: they are at most a limit plus the number of
calls (**`ClockRun.Within`**), so every sum and difference that an event computes stays in its
range. -/

namespace OriGateway

open Foundation

/-! ## Marks and calls -/

def CallState.issued : CallState → Bool
  | .returned (.ok _) => true
  | _ => false

namespace ClockRun

/-- What every event keeps while each reading of the wall clock is one reservation below a limit:
each call moves the clock at most one past it. -/
structure Within (limit : Int) (r : ClockRun) : Prop where
  issued_length : r.issued.length = r.calls.countP CallState.issued
  last_le : r.last ≤ limit + r.issued.length
  written_le : r.written ≤ limit + r.calls.length

variable {r r' : ClockRun} {limit : Int} {call : Nat} {c : CallState} {wall : Int}

theorem Within.issued_lt (h : r.Within limit) (hcall : r.calls[call]? = some c)
    (hc : c.issued = false) : r.issued.length < r.calls.length := by
  rw [h.issued_length]
  refine lt_of_le_of_ne List.countP_le_length ?_
  intro hall
  have hissued := List.countP_eq_length.mp hall c (List.mem_of_getElem? hcall)
  rw [hc] at hissued
  cases hissued

theorem countP_set_issued {calls : List CallState} (hcall : calls[call]? = some c)
    (hc : c.issued = false) (c' : CallState) :
    (calls.set call c').countP CallState.issued =
      calls.countP CallState.issued + if c'.issued then 1 else 0 := by
  obtain ⟨hlt, hget⟩ := List.getElem?_eq_some_iff.mp hcall
  rw [List.countP_set hlt, hget, hc]
  simp

theorem Within.steady (h : r.Within limit) (hsteady : Steady r r') : r'.Within limit where
  issued_length := by rw [hsteady.issued_eq, hsteady.calls_eq, h.issued_length]
  last_le := by
    rw [hsteady.last_eq, hsteady.issued_eq]
    exact h.last_le
  written_le := by
    rw [hsteady.written_eq, hsteady.calls_eq]
    exact h.written_le

/-- A reading of the wall clock that a sum does not leave the range with. -/
def WallInRange (wall : Int) : Prop := InInt64 wall ∧ wall < signingCeiling

instance (wall : Int) : Decidable (WallInRange wall) := inferInstanceAs (Decidable (_ ∧ _))

theorem reserved_inInt64 (hwall : WallInRange wall) : InInt64 (wall + signingReservation) := by
  unfold WallInRange InInt64 signingCeiling maxInt64 at hwall
  unfold InInt64 signingReservation
  omega

theorem reservationFor_le {value bound : Int} (hwall : WallInRange wall)
    (hbound : wall + signingReservation ≤ bound) (hvalue : value ≤ bound) :
    reservationFor wall value ≤ bound := by
  unfold reservationFor
  rw [int64_eq (reserved_inInt64 hwall)]
  omega

theorem Within.startWriteLocked (h : r.Within limit) {mark : Int}
    (hmark : mark ≤ limit + r.calls.length) : (r.startWriteLocked mark).Within limit :=
  { h with written_le := Int.max_le.mpr ⟨hmark, h.written_le⟩ }

theorem Within.setCall (h : r.Within limit) {c' : CallState} (hcall : r.calls[call]? = some c)
    (hc : c.issued = false) (hc' : c'.issued = false) :
    ({ r with calls := r.calls.set call c' } : ClockRun).Within limit where
  issued_length := by
    show r.issued.length = (r.calls.set call c').countP CallState.issued
    rw [countP_set_issued hcall hc, hc', h.issued_length]
    rfl
  last_le := h.last_le
  written_le := by
    show r.written ≤ limit + (r.calls.set call c').length
    rw [List.length_set]
    exact h.written_le

theorem Within.issue (h : r.Within limit) (hcall : r.calls[call]? = some c)
    (hc : c.issued = false) {value : Int} (hvalue : value ≤ limit + (r.issued.length + 1)) :
    (r.issue call wall value).Within limit where
  issued_length := by
    show r.issued.length + 1 = (r.calls.set call (.returned (.ok value))).countP CallState.issued
    rw [countP_set_issued hcall hc, h.issued_length]
    rfl
  last_le := by
    show value ≤ limit + ((r.issued.length + 1 : Nat) : Int)
    exact_mod_cast hvalue
  written_le := by
    show r.written ≤ limit + (r.calls.set call (.returned (.ok value))).length
    rw [List.length_set]
    exact h.written_le

theorem Within.turn (h : r.Within limit) (hsound : r.Sound) (hcall : r.calls[call]? = some c)
    (hc : c.issued = false) (hwall : WallInRange wall)
    (hlimit : wall + signingReservation ≤ limit) : (r.turn call wall).Within limit := by
  have hpending := h.issued_lt hcall hc
  have hvalue : r.candidate wall ≤ limit + (r.issued.length + 1) := by
    rw [hsound.candidate_eq]
    have hlast := h.last_le
    unfold signingReservation at hlimit
    omega
  -- the mark that covers the value is within the limit too: this call has not returned
  have hstart : (r.startWriteLocked (reservationFor wall (r.candidate wall))).Within limit := by
    refine h.startWriteLocked (reservationFor_le hwall ?_ ?_) <;> omega
  unfold ClockRun.turn
  simp only
  split
  next => exact h.setCall hcall hc rfl
  next =>
    split
    next => exact h.setCall hcall hc rfl
    next =>
      split
      next =>
        split
        · exact hstart.setCall hcall hc rfl
        · exact h.setCall hcall hc rfl
      next =>
        split
        · exact hstart.issue hcall hc hvalue
        · exact h.issue hcall hc hvalue

/-- **Every event keeps the limit**, when its reading of the wall clock does. -/
theorem Within.step (h : r.Within limit) (hsound : r.Sound) {e : ClockEvent}
    (hwall : ∀ wall ∈ e.wall, WallInRange wall ∧ wall + signingReservation ≤ limit)
    (hstep : r.step e = some r') : r'.Within limit := by
  rcases step_cases hstep with hsteady | rfl | ⟨wall, rfl, rfl⟩ | ⟨call, wall, rfl, rfl, hcall⟩
  · exact h.steady hsteady
  · refine ⟨?_, h.last_le, ?_⟩
    · show r.issued.length = (r.calls ++ [CallState.ready]).countP CallState.issued
      rw [List.countP_append, h.issued_length]
      rfl
    · show r.written ≤ limit + ((r.calls ++ [CallState.ready]).length : Nat)
      have hwritten := h.written_le
      rw [List.length_append, List.length_singleton]
      omega
  · obtain ⟨hrange, hlimit⟩ := hwall wall rfl
    have hran : r.retryRan.Within limit := { h with }
    refine hran.startWriteLocked (reservationFor_le hrange ?_ ?_)
    · show _ ≤ limit + (r.calls.length : Int)
      omega
    · have hcount := h.issued_length
      have hle : r.calls.countP CallState.issued ≤ r.calls.length := List.countP_le_length
      have hlast := h.last_le
      show r.last ≤ limit + (r.calls.length : Int)
      omega
  · obtain ⟨hrange, hlimit⟩ := hwall wall rfl
    rcases hcall with hready | ⟨changed, hwaiting⟩
    · exact h.turn hsound hready rfl hrange hlimit
    · exact h.turn hsound hwaiting rfl hrange hlimit

/-! ## Machine arithmetic -/

def issues (wall : Int) (r : ClockRun) : Bool :=
  decide (r.candidate wall < signingCeiling) && !r.closed &&
    (decide (r.candidate wall ≤ r.covered) || r.episode)

/-- The sums and differences of one turn of a call, before they are kept in 64 bits. -/
def turnArithmetic (wall : Int) (r : ClockRun) : List Int :=
  let value := r.candidate wall
  (r.last + 1) ::
    if value ≥ signingCeiling then []
    else if r.closed then []
    else if value > r.covered ∧ r.episode = false then
      if r.write.isNone then [wall + signingReservation] else []
    else
      -- the conditions of an extension, from the left
      (if !r.episode && r.write.isNone then
        (r.covered - value) ::
          if int64 (r.covered - value) < signingReservation / 2 then
            [wall + signingReservation] else []
      else []) ++ [value - wall]

def arithmetic (r : ClockRun) : ClockEvent → List Int
  | .next _ wall => r.turnArithmetic wall
  | .retryTimer wall =>
    if r.closed || !r.episode || r.write.isSome then [] else [wall + signingReservation]
  | _ => []

/-- The value that a call issues is not so far ahead of the wall clock that their distance leaves
the range. -/
def Apart (r : ClockRun) : ClockEvent → Prop
  | .next _ wall => r.issues wall = true → r.last + 1 - wall ≤ maxInt64
  | _ => True

theorem Sound.succ_inInt64 (h : r.Sound) : InInt64 (r.last + 1) := by
  have hlast := h.last_range
  unfold MarkInRange signingCeiling maxInt64 at hlast
  unfold InInt64
  omega

theorem Sound.left_inInt64 (h : r.Sound) (hlt : r.candidate wall < signingCeiling) :
    InInt64 (r.covered - r.candidate wall) := by
  have hcovered := h.covered_le_written.trans_lt h.written_range.2
  have hnonneg := h.covered_nonneg
  have hpos := h.last_range.1.trans_lt (h.last_lt_candidate wall)
  unfold signingCeiling maxInt64 at hlt hcovered
  unfold InInt64
  omega

theorem Sound.lead_inInt64_iff (h : r.Sound) (wall : Int) :
    InInt64 (r.candidate wall - wall) ↔ r.last + 1 - wall ≤ maxInt64 := by
  rw [h.candidate_eq]
  unfold InInt64 maxInt64
  omega

/-- What a turn computes stays in the range, the distance to the wall clock of a value it issues
apart. -/
theorem Sound.turnArithmetic_iff (h : r.Sound) (hwall : WallInRange wall) :
    (∀ z ∈ r.turnArithmetic wall, InInt64 z) ↔
      (r.issues wall = true → r.last + 1 - wall ≤ maxInt64) := by
  have hsucc := h.succ_inInt64
  have hreserved := reserved_inInt64 hwall
  unfold turnArithmetic issues
  simp only [List.forall_mem_cons, hsucc, true_and]
  split
  next hceiling => simp [not_lt.mpr hceiling]
  next hceiling =>
    have hlt : r.candidate wall < signingCeiling := not_le.mp hceiling
    split
    next hclosed => simp [hclosed]
    next hclosed =>
      split
      next hwait =>
        have hnot : ¬ r.candidate wall ≤ r.covered := not_le.mpr hwait.1
        split <;> simp [hreserved, hnot, hwait.2]
      next hissue =>
        have hissues : (decide (r.candidate wall ≤ r.covered) || r.episode) = true := by
          by_contra hnot
          simp only [Bool.or_eq_true, decide_eq_true_eq, not_or, not_le, Bool.not_eq_true] at hnot
          exact hissue hnot
        have hextension : ∀ z ∈ (if !r.episode && r.write.isNone then
            (r.covered - r.candidate wall) ::
              if int64 (r.covered - r.candidate wall) < signingReservation / 2 then
                [wall + signingReservation] else []
            else []), InInt64 z := by
          split
          · refine List.forall_mem_cons.mpr ⟨h.left_inInt64 hlt, ?_⟩
            split <;> simp [hreserved]
          · simp
        rw [List.forall_mem_append, List.forall_mem_singleton, h.lead_inInt64_iff wall]
        simp only [hissues, hlt, decide_true, Bool.and_true,
          Bool.not_eq_true _ ▸ hclosed, Bool.not_false, forall_const]
        exact ⟨And.right, fun hlead => ⟨hextension, hlead⟩⟩

/-- What an event computes stays in the range exactly when the value it issues is not so far
ahead. -/
theorem Sound.arithmetic_iff (h : r.Sound) {e : ClockEvent}
    (hwall : ∀ wall ∈ e.wall, WallInRange wall) :
    (∀ z ∈ r.arithmetic e, InInt64 z) ↔ r.Apart e := by
  cases e with
  | next call wall => exact h.turnArithmetic_iff (hwall wall rfl)
  | retryTimer wall =>
    have hreserved := reserved_inInt64 (hwall wall rfl)
    simp only [arithmetic, Apart, iff_true]
    split <;> simp [hreserved]
  | call => simp [arithmetic, Apart]
  | land id => simp [arithmetic, Apart]
  | persist id ok => simp [arithmetic, Apart]
  | boundTimer id => simp [arithmetic, Apart]
  | waitTimer call => simp [arithmetic, Apart]
  | stop => simp [arithmetic, Apart]

end ClockRun

namespace ClockHistory

variable {h h' : ClockHistory} {first : Option Mark}

def arithmetic (h : ClockHistory) : HistoryEvent → List Int
  | .start wall _ =>
    match h.file with
    | some mark => [wall + signingReservation, mark.value + 1]
    | none => [wall + signingReservation]
  | .event e =>
    match h.run with
    | some r => r.arithmetic e
    | none => []
  | _ => []

/-- The value that a call issues is not so far ahead of the wall clock that their distance leaves
the range. -/
def Apart (h : ClockHistory) : HistoryEvent → Prop
  | .event e =>
    match h.run with
    | some r => r.Apart e
    | none => True
  | _ => True

theorem Sound.arithmetic_iff (hsound : h.Sound) {e : HistoryEvent}
    (hwall : ∀ wall ∈ e.wall, ClockRun.WallInRange wall) :
    (∀ z ∈ h.arithmetic e, InInt64 z) ↔ h.Apart e := by
  cases e with
  | start wall outcome =>
    have hreserved := ClockRun.reserved_inInt64 (hwall wall rfl)
    simp only [arithmetic, Apart, iff_true]
    cases hfile : h.file with
    | none => simp [hreserved]
    | some mark =>
      have hsucc : InInt64 (mark.value + 1) := by
        have hrange := mark.inRange
        unfold MarkInRange signingCeiling maxInt64 at hrange
        unfold InInt64
        omega
      simp [hreserved, hsucc]
  | event e =>
    simp only [arithmetic, Apart]
    cases hrun : h.run with
    | none => simp
    | some r => exact (hsound.sound r (by simp [runs, hrun])).arithmetic_iff hwall
  | exit => simp [arithmetic, Apart]
  | powerLoss left => simp [arithmetic, Apart]

/-! ## The lead over the wall clock -/

def endedCalls (h : ClockHistory) : Nat := (h.ended.map fun r => r.calls.length).sum

theorem calls_eq (h : ClockHistory) :
    h.calls = (h.run.toList.map fun r => r.calls.length).sum + h.endedCalls := by
  rw [calls, runs, List.map_append, List.sum_append, endedCalls]

/-- A bound of the first mark, and of every reading of the wall clock plus one reservation. -/
def Bounds (first : Option Mark) (bound : Int) (h : ClockHistory) : Prop :=
  (∀ mark ∈ first, mark.value ≤ bound) ∧ ∀ wall ∈ h.walls, wall + signingReservation ≤ bound

/-- What every event keeps: the marks that may be left on disk, and the present run, are within the
bound and the number of calls. -/
structure Within (first : Option Mark) (h : ClockHistory) : Prop where
  file_le : ∀ bound, Bounds first bound h → ∀ file ∈ h.file :: h.unsynced, ∀ mark ∈ file,
    mark.value ≤ bound + h.calls
  run_within : ∀ bound, Bounds first bound h → ∀ r ∈ h.run, r.Within (bound + h.endedCalls)

theorem within_initial (first : Option Mark) : (initial first).Within first where
  file_le := by
    intro bound hbound file hfile mark hmark
    obtain rfl := List.mem_singleton.mp hfile
    have hle := hbound.1 mark hmark
    omega
  run_within := by simp [initial]

theorem Within.exit (hwithin : h.Within first) : h.exit.Within first where
  file_le := hwithin.file_le
  run_within := by simp [ClockHistory.exit]

theorem Within.event (hwithin : h.Within first) (hsound : h.Sound) {e : ClockEvent}
    (hwall : ∀ wall ∈ e.wall, ClockRun.WallInRange wall) (hevent : h.event e = some h') :
    h'.Within first := by
  have hsound' := hsound.event hevent
  unfold ClockHistory.event at hevent
  split at hevent
  next => cases hevent
  next r hrun =>
    split at hevent
    next => cases hevent
    next r' hstep =>
      cases hevent
      have hr : r.Sound := hsound.sound r (by simp [runs, hrun])
      have hrun' : ∀ bound, Bounds first bound
          { h with run := some r', file := some r'.disk, unsynced := r'.unsynced.map some,
                   walls := e.wall.toList ++ h.walls } → r'.Within (bound + h.endedCalls) := by
        intro bound hbound
        have hold : Bounds first bound h :=
          ⟨hbound.1, fun wall hmem => hbound.2 wall (List.mem_append_right _ hmem)⟩
        refine (hwithin.run_within bound hold r hrun).step hr ?_ hstep
        intro wall hmem
        have hle := hbound.2 wall (List.mem_append_left _ (Option.mem_toList.mpr hmem))
        exact ⟨hwall wall hmem, by omega⟩
      refine ⟨?_, ?_⟩
      · intro bound hbound file hfile mark hmark
        obtain ⟨left, hleft, rfl⟩ := List.mem_map.mp
          (show file ∈ (r'.disk :: r'.unsynced).map some from hfile)
        obtain rfl : left = mark := Option.some_injective _ hmark
        have hwritten := (hrun' bound hbound).written_le
        have hle := (hr.step hstep).le_written left hleft
        rw [calls_eq]
        simp only [Option.toList_some, List.map_cons, List.map_nil, List.sum_cons, List.sum_nil]
        show left.value ≤ bound + ((r'.calls.length + 0 + h.endedCalls : Nat) : Int)
        omega
      · rintro bound hbound _ ⟨⟩
        exact hrun' bound hbound

theorem startMark_le {file : Option Mark} {wall bound : Int} (hwall : ClockRun.WallInRange wall)
    (hbound : wall + signingReservation ≤ bound) (hfile : ∀ mark ∈ file, mark.value ≤ bound) :
    startMark file wall ≤ bound := by
  unfold startMark
  rw [int64_eq (ClockRun.reserved_inInt64 hwall)]
  cases file with
  | none => simp only; omega
  | some mark =>
    have hle := hfile mark rfl
    simp only
    omega

theorem Within.start (hwithin : h.Within first) {wall : Int} {outcome : StartOutcome}
    (hwall : ClockRun.WallInRange wall) (hstart : h.start wall outcome = some h') :
    h'.Within first := by
  obtain ⟨hnone, hwalls, hended, hcases⟩ := start_cases hstart
  have hold : ∀ bound, Bounds first bound h' → Bounds first bound h := by
    rintro bound ⟨hfirst, hbound⟩
    rw [hwalls] at hbound
    exact ⟨hfirst, fun wall hmem => hbound wall (List.mem_cons_of_mem _ hmem)⟩
  have hcalls : h.calls = h.endedCalls := by simp [calls_eq, hnone]
  have hendedCalls : h'.endedCalls = h.endedCalls := by simp [endedCalls, hended]
  rcases hcases with ⟨hrun, hfile, hunsynced, -⟩ | ⟨start, hwrite, hfile, hcases⟩
  · have hcalls' : h'.calls = h.calls := by simp [calls_eq, hrun, hnone, hendedCalls]
    refine ⟨?_, by simp [hrun]⟩
    intro bound hbound
    rw [hfile, hunsynced, hcalls']
    exact hwithin.file_le bound (hold bound hbound)
  · have hstartMark : ∀ bound, Bounds first bound h' → start.value ≤ bound + h.endedCalls := by
      intro bound hbound
      rw [(ClockRun.startWrite_eq_some hwrite).2]
      refine startMark_le hwall ?_ ?_
      · have hle := hbound.2 wall (by simp [hwalls])
        omega
      · intro mark hmark
        rw [← hcalls]
        exact hwithin.file_le bound (hold bound hbound) h.file List.mem_cons_self mark hmark
    rcases hcases with ⟨hrun, hunsynced, -⟩ | ⟨hrun, hunsynced, -⟩
    · have hcalls' : h'.calls = h.calls := by simp [calls_eq, hrun, hnone, hendedCalls]
      refine ⟨?_, by simp [hrun]⟩
      intro bound hbound file hmem mark hmark
      rw [hfile, hunsynced] at hmem
      rw [hcalls']
      rcases List.mem_cons.mp hmem with rfl | hmem
      · obtain rfl := Option.some_injective _ hmark
        rw [hcalls]
        exact hstartMark bound hbound
      · exact hwithin.file_le bound (hold bound hbound) file hmem mark hmark
    · have hcalls' : h'.calls = h.endedCalls := by
        simp [calls_eq, hrun, hendedCalls, ClockRun.started]
      refine ⟨?_, ?_⟩
      · intro bound hbound file hmem mark hmark
        rw [hfile, hunsynced, List.mem_singleton] at hmem
        obtain rfl := hmem
        obtain rfl := Option.some_injective _ hmark
        rw [hcalls']
        exact hstartMark bound hbound
      · intro bound hbound r hr
        rw [hrun] at hr
        cases hr
        have hle := hstartMark bound hbound
        have hfound := ClockRun.foundValue_le hwrite
        rw [hendedCalls]
        exact
          { issued_length := rfl
            last_le := by
              show foundValue h.file ≤ bound + h.endedCalls + ((0 : Nat) : Int)
              omega
            written_le := by
              show start.value ≤ bound + h.endedCalls + ((0 : Nat) : Int)
              omega }

theorem Within.step (hwithin : h.Within first) (hsound : h.Sound) {e : HistoryEvent}
    (hwall : ∀ wall ∈ e.wall, ClockRun.WallInRange wall) (hstep : h.step e = some h') :
    h'.Within first := by
  cases e with
  | start wall outcome => exact hwithin.start (hwall wall rfl) hstep
  | event e => exact hwithin.event hsound hwall hstep
  | exit =>
    cases hstep
    exact hwithin.exit
  | powerLoss left =>
    simp only [ClockHistory.step] at hstep
    split at hstep
    next hleft =>
      cases hstep
      refine ⟨?_, hwithin.exit.run_within⟩
      intro bound hbound file hmem
      obtain rfl := List.mem_singleton.mp hmem
      exact hwithin.exit.file_le bound hbound _ hleft
    next => cases hstep

theorem refused_lt_step (hlt : ∀ mark ∈ h.refused, mark < signingCeiling) {e : HistoryEvent}
    (hstep : h.step e = some h') : ∀ mark ∈ h'.refused, mark < signingCeiling := by
  cases e with
  | start wall outcome =>
    have hnew : ∀ mark ∈ startMark h.file wall :: h.refused, mark < signingCeiling :=
      List.forall_mem_cons.mpr ⟨ClockRun.startMark_lt _ _, hlt⟩
    obtain ⟨-, -, -,
      ⟨-, -, -, hrefused | hrefused⟩ | ⟨start, -, -, ⟨-, -, hrefused⟩ | ⟨-, -, hrefused⟩⟩⟩ :=
      start_cases hstep <;> rw [hrefused]
    exacts [hlt, hnew, hnew, hlt]
  | event e =>
    simp only [ClockHistory.step, ClockHistory.event] at hstep
    split at hstep
    next => cases hstep
    next =>
      split at hstep
      next => cases hstep
      next =>
        cases hstep
        exact hlt
  | exit =>
    cases hstep
    exact hlt
  | powerLoss left =>
    simp only [ClockHistory.step] at hstep
    split at hstep
    next =>
      cases hstep
      exact hlt
    next => cases hstep

/-- The bounds of a history that a list of events leads to. -/
structure Bounded (first : Option Mark) (es : List HistoryEvent) (h : ClockHistory) : Prop where
  /-- No sum or difference that is computed on the way leaves the range of 64 bits. -/
  no_overflow : StepsMeet ClockHistory.step (fun h e => ∀ z ∈ h.arithmetic e, InInt64 z)
    (initial first) es
  /-- Every mark that a run passes to a write is below the ceiling. -/
  passed_lt : ∀ r ∈ h.runs, ∀ mark ∈ r.passed, mark < signingCeiling
  refused_lt : ∀ mark ∈ h.refused, mark < signingCeiling
  passed_sorted : ∀ r ∈ h.runs, r.passed.Pairwise (· ≥ ·)
  /-- The mark on disk is at most the larger of the first mark and the greatest reading of the wall
  clock plus one reservation, plus the number of calls. -/
  lead_le : ∀ mark ∈ h.file, ∀ bound, (∀ found ∈ first, found.value ≤ bound) →
    (∀ wall ∈ h.walls, wall + 1000 ≤ bound) → mark.value ≤ bound + h.calls

/-- **A history stays in its bounds exactly when no call issues a value that is too far ahead** of
the reading of the wall clock it takes, for the distance to be a machine integer. -/
theorem bounded_iff_apart {first : Option Mark} {es : List HistoryEvent} {h : ClockHistory}
    (hwalls : ∀ e ∈ es, ∀ wall ∈ e.wall, InInt64 wall ∧ wall < signingCeiling)
    (hrun : runAll ClockHistory.step (initial first) es = some h) :
    Bounded first es h ↔ StepsMeet ClockHistory.step Apart (initial first) es := by
  have hsound := sound_runAll hrun
  have hoverflow : StepsMeet ClockHistory.step (fun h e => ∀ z ∈ h.arithmetic e, InInt64 z)
      (initial first) es ↔ StepsMeet ClockHistory.step Apart (initial first) es :=
    stepsMeet_iff (fun _ _ _ hs hstep => hs.step hstep)
      (fun _ _ hs hwall => hs.arithmetic_iff hwall)
      (sound_initial first) hwalls
  constructor
  · intro hbounded
    exact hoverflow.mp hbounded.no_overflow
  · intro hapart
    have hwithin : h.Sound ∧ h.Within first := by
      refine runAll_induction (I := fun h => h.Sound ∧ h.Within first) ?_
        (stepsMeet_of_mem (initial first) hwalls) ⟨sound_initial first, within_initial first⟩ hrun
      rintro s e s' hwall ⟨hs, hw⟩ hstep
      exact ⟨hs.step hstep, hw.step hs hwall hstep⟩
    exact
      { no_overflow := hoverflow.mpr hapart
        passed_lt := fun r hr mark hmark =>
          ((hsound.sound r hr).passed_le mark hmark).trans_lt (hsound.sound r hr).written_range.2
        refused_lt := runAll_invariant (fun _ _ _ hs hstep => refused_lt_step hs hstep)
          (by simp [initial]) hrun
        passed_sorted := fun r hr => (hsound.sound r hr).passed_sorted
        lead_le := fun mark hmark bound hfirst hbound =>
          hwithin.2.file_le bound ⟨hfirst, hbound⟩ h.file List.mem_cons_self mark hmark }

/-- A clock that starts from no mark, and issues a value at a reading of the wall clock. -/
def oneValue (wall : Int) : List HistoryEvent :=
  [.start 0 .completed, .event .call, .event (.next 0 wall)]

theorem bounded_iff_apart_oneValue :
    (∀ e ∈ oneValue 900, ∀ wall ∈ e.wall, InInt64 wall ∧ wall < signingCeiling) ∧
      ∃ h, runAll ClockHistory.step (initial none) (oneValue 900) = some h ∧
        Bounded none (oneValue 900) h := by
  have hwalls : ∀ e ∈ oneValue 900, ∀ wall ∈ e.wall, InInt64 wall ∧ wall < signingCeiling := by
    simp [oneValue, HistoryEvent.wall, ClockEvent.wall, InInt64, signingCeiling, maxInt64]
  refine ⟨hwalls, _, rfl, (bounded_iff_apart hwalls rfl).mpr ?_⟩
  refine ⟨trivial, ?_⟩
  rintro _ ⟨⟩
  refine ⟨trivial, ?_⟩
  rintro _ ⟨⟩
  exact ⟨fun _ => by decide, fun _ _ => trivial⟩

/-- With the least reading there is, the distance of the value issued to the wall clock does not
fit. -/
theorem lead_overflows :
    (∀ e ∈ oneValue (-2 ^ 63), ∀ wall ∈ e.wall, InInt64 wall ∧ wall < signingCeiling) ∧
      ∃ h, runAll ClockHistory.step (initial none) (oneValue (-2 ^ 63)) = some h ∧
        ¬ Bounded none (oneValue (-2 ^ 63)) h := by
  refine ⟨by simp [oneValue, HistoryEvent.wall, ClockEvent.wall, InInt64, signingCeiling, maxInt64],
    _, rfl, ?_⟩
  intro hbounded
  have hlast := (hbounded.no_overflow.2 _ rfl).2 _ rfl
  have hlead : InInt64 (1 - -2 ^ 63) := hlast.1 _ (by decide)
  exact absurd hlead (by decide)

end ClockHistory

end OriGateway
