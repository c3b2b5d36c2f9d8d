import OriGateway.Foundation.Int64
import OriGateway.Foundation.Runs
import Mathlib.Data.List.Basic

/-! # The durable signing clock

The clock that issues the signing time of every envelope a process signs: past the wall clock's
reading and past every value issued before, and covered by a mark on disk, so that a restart never
repeats one. The mark is written off the lock, by at most one write at a time; while a write cannot
be completed an episode is open, in which values are issued uncovered and the write is retried.

A run (**`ClockRun`**) is a list of events, each what runs under the lock in one piece. Timers are
events without a time: one may run at any later moment, as late as after it was stopped. What the
clock logs is left out. -/

namespace OriGateway

open Foundation

/-! ## Bounds -/

def signingCeiling : Int := maxInt64 - 2001

def signingReservation : Int := 1000

/-- How far ahead of the wall clock a signing time may run before a warning. -/
def signingAheadWarning : Int := 300000

/-- The mark that covers a value: one reservation past the wall clock, or the value itself when the
clock runs ahead, below the ceiling. -/
def reservationFor (wall value : Int) : Int :=
  min (max (int64 (wall + signingReservation)) value) (signingCeiling - 1)

/-! ## The mark on disk -/

def MarkInRange (mark : Int) : Prop := 0 ≤ mark ∧ mark < signingCeiling

instance (mark : Int) : Decidable (MarkInRange mark) := inferInstanceAs (Decidable (_ ∧ _))

/-- A mark that was written or found. -/
structure Mark where
  value : Int
  inRange : MarkInRange value
  deriving DecidableEq

/-! ## The state of a run -/

/-- A write of the mark that has not ended. -/
structure MarkWrite where
  id : Nat
  mark : Int
  landed : Bool
  deriving DecidableEq

/-- Why no value is issued. -/
inductive ClockError where
  /-- "signing clock exhausted". -/
  | exhausted
  /-- "signing clock closed". -/
  | closed
  deriving DecidableEq

/-- Where a call for the next value stands. -/
inductive CallState where
  | ready
  /-- Waiting for coverage, until a channel is closed. -/
  | waiting (changed : Nat)
  | returned (result : Except ClockError Int)

/-- One run of the clock. -/
structure ClockRun where
  found : Option Mark
  last : Int
  covered : Int
  written : Int
  ahead : Bool
  closed : Bool
  episode : Bool
  write : Option Nat
  retry : Bool
  changed : Nat
  writers : List MarkWrite
  writes : Nat
  retries : Nat
  /-- The calls for the next value, in the order in which they were made. -/
  calls : List CallState
  persisted : Int
  disk : Mark
  /-- The marks that a loss of power may bring back: those the file held since its last replacement
  that was made durable. -/
  unsynced : List Mark
  issued : List Int
  completed : List Int
  passed : List Int
  /-- The channels a stop returned: an outstanding write's, or one that is closed. -/
  stopped : List (Option Nat)

/-! ## The start -/

def firstValue (found : Option Mark) (wall : Int) : Int :=
  match found with
  | some mark => max wall (int64 (mark.value + 1))
  | none => wall

/-- The mark a start writes. -/
def startMark (found : Option Mark) (wall : Int) : Int :=
  match found with
  | some mark => min (max (int64 (wall + signingReservation)) mark.value) (signingCeiling - 1)
  | none => min (int64 (wall + signingReservation)) (signingCeiling - 1)

def foundValue (found : Option Mark) : Int :=
  match found with
  | some mark => mark.value
  | none => 0

/-- A clock once its first mark is written. -/
def ClockRun.started (found : Option Mark) (start : Mark) : ClockRun where
  found := found
  last := foundValue found
  covered := max (foundValue found) start.value
  written := start.value
  ahead := false
  closed := false
  episode := false
  write := none
  retry := false
  changed := 0
  writers := []
  writes := 0
  retries := 0
  calls := []
  persisted := start.value
  disk := start
  unsynced := []
  issued := []
  completed := [start.value]
  passed := [start.value]
  stopped := []

/-- The mark with which a start goes on: its first value is below the ceiling, and its mark may be
written. -/
def startWrite (found : Option Mark) (wall : Int) : Option Mark :=
  if h : firstValue found wall < signingCeiling ∧ MarkInRange (startMark found wall) then
    some ⟨startMark found wall, h.2⟩
  else none

/-- The clock of a start that is not refused and whose write completed. -/
def newDurableSigningClock (found : Option Mark) (wall : Int) : Option ClockRun :=
  (startWrite found wall).map (ClockRun.started found)

/-! ## Under the lock -/

namespace ClockRun

def broadcastLocked (r : ClockRun) : ClockRun := { r with changed := r.changed + 1 }

/-- Start the one outstanding write of the mark, never lower than a mark written before. -/
def startWriteLocked (mark : Int) (r : ClockRun) : ClockRun :=
  let mark := max mark r.written
  { r with
    written := mark
    write := some r.writes
    writes := r.writes + 1
    writers := ⟨r.writes, mark, false⟩ :: r.writers
    passed := mark :: r.passed }

/-- Schedule the next write of an episode, unless a write is outstanding or one is scheduled. -/
def scheduleRetryLocked (r : ClockRun) : ClockRun :=
  if r.retry || r.closed || r.write.isSome then r
  else { r with retry := true, retries := r.retries + 1 }

def openEpisodeLocked (r : ClockRun) : ClockRun :=
  if r.episode then r else ({ r with episode := true }.scheduleRetryLocked).broadcastLocked

def writer (r : ClockRun) (id : Nat) : Option MarkWrite := r.writers.find? fun w => w.id == id

/-- The file is replaced, which a write does unless a mark as high was written. -/
def land (id : Nat) (r : ClockRun) : Option ClockRun :=
  match r.writer id with
  | none => none
  | some w =>
    if h : MarkInRange w.mark ∧ r.persisted < w.mark ∧ w.landed = false then
      some { r with
        disk := ⟨w.mark, h.1⟩
        unsynced := r.disk :: r.unsynced
        writers := r.writers.map fun w' => if w'.id = id then { w' with landed := true } else w' }
    else none

/-- Whether a write may end without an error: a mark as high was written, or the file replaced. -/
def MayComplete (r : ClockRun) (w : MarkWrite) : Prop :=
  MarkInRange w.mark ∧ (w.mark ≤ r.persisted ∨ w.landed = true)

instance (r : ClockRun) (w : MarkWrite) : Decidable (r.MayComplete w) :=
  inferInstanceAs (Decidable (_ ∧ _))

def endWrite (id : Nat) (r : ClockRun) : ClockRun :=
  { r with write := none, writers := r.writers.filter fun w => w.id != id }

/-- The mark of a write that completed is durable, and covers what it bounds. -/
def cover (w : MarkWrite) (r : ClockRun) : ClockRun :=
  { r with
    persisted := max r.persisted w.mark
    unsynced := if w.landed then [] else r.unsynced
    completed := w.mark :: r.completed
    covered := max r.covered w.mark }

def closeEpisode (r : ClockRun) : ClockRun :=
  if r.episode && decide (r.covered ≥ r.last) then { r with episode := false } else r

def rearm (r : ClockRun) : ClockRun := if r.episode then r.scheduleRetryLocked else r

/-- A writer's mark is written, or fails. -/
def persist (id : Nat) (ok : Bool) (r : ClockRun) : Option ClockRun :=
  match r.writer id with
  | none => none
  | some w =>
    if ok = true ∧ ¬ r.MayComplete w then none
    else
      let r := r.endWrite id
      let r := if ok then (r.cover w).closeEpisode else r.openEpisodeLocked
      some r.rearm.broadcastLocked

/-- A write's bound has passed: an episode opens if it is still outstanding. -/
def boundTimer (id : Nat) (r : ClockRun) : ClockRun :=
  if r.write = some id then r.openEpisodeLocked else r

/-- A value has waited for the bound: an episode opens if it still waits. -/
def waitTimer (call : Nat) (r : ClockRun) : ClockRun :=
  match r.calls[call]? with
  | some (.waiting _) => r.openEpisodeLocked
  | _ => r

/-- A retry timer fires. -/
def retryWrite (wall : Int) (r : ClockRun) : Option ClockRun :=
  if r.retries = 0 then none
  else
    let r := { r with retry := false, retries := r.retries - 1 }
    if r.closed || !r.episode || r.write.isSome then some r
    else some (r.startWriteLocked (reservationFor wall r.last))

def stop (r : ClockRun) : ClockRun :=
  let r := { r with closed := true, retry := false }.broadcastLocked
  { r with stopped := r.write :: r.stopped }

/-- Whether a channel that a stop returned is closed: a write's is, once the write has ended. -/
def channelClosed (r : ClockRun) (channel : Option Nat) : Bool :=
  match channel with
  | none => true
  | some id => (r.writer id).isNone

def candidate (r : ClockRun) (wall : Int) : Int := max wall (int64 (r.last + 1))

def finish (call : Nat) (result : Except ClockError Int) (r : ClockRun) : ClockRun :=
  { r with calls := r.calls.set call (.returned result) }

/-- A call returns a value. -/
def issue (call : Nat) (wall value : Int) (r : ClockRun) : ClockRun :=
  { r with
    ahead := decide (int64 (value - wall) > signingAheadWarning)
    last := value
    issued := value :: r.issued }.finish call (.ok value)

/-- Whether the next reservation is written in the background: half of the present one is used, and
the mark would move forward. -/
def extension (wall value : Int) (r : ClockRun) : Bool :=
  !r.episode && r.write.isNone && decide (int64 (r.covered - value) < signingReservation / 2) &&
    decide (reservationFor wall value > r.covered)

/-- One turn of a call for the next value: it is refused, waits for a write to cover its value, or
issues it. -/
def turn (call : Nat) (wall : Int) (r : ClockRun) : ClockRun :=
  let value := r.candidate wall
  if value ≥ signingCeiling then r.finish call (.error .exhausted)
  else if r.closed then r.finish call (.error .closed)
  else if value > r.covered ∧ r.episode = false then
    let r := if r.write.isNone then r.startWriteLocked (reservationFor wall value) else r
    { r with calls := r.calls.set call (.waiting r.changed) }
  else
    let r := if r.extension wall value then r.startWriteLocked (reservationFor wall value) else r
    r.issue call wall value

/-- A call takes the lock: for the first time, or once the channel it waits for is closed. -/
def next (call : Nat) (wall : Int) (r : ClockRun) : Option ClockRun :=
  match r.calls[call]? with
  | some .ready => some (r.turn call wall)
  | some (.waiting changed) => if changed = r.changed then none else some (r.turn call wall)
  | _ => none

def makeCall (r : ClockRun) : ClockRun := { r with calls := r.calls ++ [.ready] }

end ClockRun

/-! ## Events -/

/-- What can happen next in a run. -/
inductive ClockEvent where
  | call
  /-- A call takes the lock, at a reading of the wall clock. -/
  | next (call : Nat) (wall : Int)
  | land (id : Nat)
  | persist (id : Nat) (ok : Bool)
  | boundTimer (id : Nat)
  | waitTimer (call : Nat)
  | retryTimer (wall : Int)
  | stop

/-- **What an event does**, when it is possible. -/
def ClockRun.step (r : ClockRun) : ClockEvent → Option ClockRun
  | .call => some r.makeCall
  | .next call wall => r.next call wall
  | .land id => r.land id
  | .persist id ok => r.persist id ok
  | .boundTimer id => some (r.boundTimer id)
  | .waitTimer call => some (r.waitTimer call)
  | .retryTimer wall => r.retryWrite wall
  | .stop => some r.stop

end OriGateway
