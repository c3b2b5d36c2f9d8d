import OriGateway.MqttAuth.SigningInvariants
import Mathlib.Algebra.GroupWithZero.Nat

/-! # The signing clock across restarts

One process after another starts the clock from the mark it finds on disk, runs it and ends, at any
moment and with or without a loss of power (**`ClockHistory.step`**). -/

namespace OriGateway

open Foundation

/-! ## Histories -/

/-- The state directory and the processes that use it, one after another. -/
structure ClockHistory where
  file : Option Mark
  unsynced : List (Option Mark)
  run : Option ClockRun
  /-- The clocks of the processes that have ended, the latest first. -/
  ended : List ClockRun
  /-- The marks that a start passed to a write that did not complete. -/
  refused : List Int
  walls : List Int

/-- A directory that no process has used, with the mark it holds. -/
def ClockHistory.initial (file : Option Mark) : ClockHistory :=
  ⟨file, [], none, [], [], []⟩

/-- How the write of a start ends. -/
inductive StartOutcome where
  | completed
  /-- It fails, or does not complete in time, and the file is not replaced. -/
  | failed
  /-- It fails, or does not complete in time, once the file is replaced. -/
  | replaced

/-- What can happen next in a history. -/
inductive HistoryEvent where
  /-- A process starts the clock, at a reading of the wall clock. -/
  | start (wall : Int) (outcome : StartOutcome)
  /-- Something happens in the run of the present process. -/
  | event (e : ClockEvent)
  | exit
  /-- The power is lost, and a mark is left on disk. -/
  | powerLoss (left : Option Mark)

def ClockEvent.wall : ClockEvent → Option Int
  | .next _ wall => some wall
  | .retryTimer wall => some wall
  | _ => none

def HistoryEvent.wall : HistoryEvent → Option Int
  | .start wall _ => some wall
  | .event e => e.wall
  | _ => none

namespace ClockHistory

def runs (h : ClockHistory) : List ClockRun := h.run.toList ++ h.ended

def calls (h : ClockHistory) : Nat := (h.runs.map fun r => r.calls.length).sum

/-- A start of the process. -/
def start (wall : Int) (outcome : StartOutcome) (h : ClockHistory) : Option ClockHistory :=
  if h.run.isSome then none
  else
    let h := { h with walls := wall :: h.walls }
    match startWrite h.file wall with
    | none =>
      -- refused for the ceiling, or a mark out of range is refused by the write
      some (if firstValue h.file wall < signingCeiling then
        { h with refused := startMark h.file wall :: h.refused } else h)
    | some start =>
      match outcome with
      | .completed =>
        some { h with
          run := some (ClockRun.started h.file start)
          file := some start
          unsynced := [] }
      | .failed => some { h with refused := start.value :: h.refused }
      | .replaced =>
        some { h with
          refused := start.value :: h.refused
          file := some start
          unsynced := h.file :: h.unsynced }

/-- An event of the running process. -/
def event (e : ClockEvent) (h : ClockHistory) : Option ClockHistory :=
  match h.run with
  | none => none
  | some r =>
    match r.step e with
    | none => none
    | some r' =>
      some { h with
        run := some r'
        file := some r'.disk
        unsynced := r'.unsynced.map some
        walls := e.wall.toList ++ h.walls }

def exit (h : ClockHistory) : ClockHistory := { h with run := none, ended := h.runs }

/-- **What an event does**, when it is possible. -/
def step (h : ClockHistory) : HistoryEvent → Option ClockHistory
  | .start wall outcome => h.start wall outcome
  | .event e => h.event e
  | .exit => some h.exit
  | .powerLoss left =>
    if left ∈ h.file :: h.unsynced then some { h.exit with file := left, unsynced := [] } else none

/-! ## Values across restarts -/

/-- Every value of a process that ended with no episode open is below those of a later one. -/
def Precedes (later earlier : ClockRun) : Prop :=
  earlier.episode = false → ∀ value ∈ earlier.issued, ∀ value' ∈ later.issued, value < value'

/-- The values of a run, if no episode is open in it, are at most the mark of a file. -/
def HeldBy (r : ClockRun) (file : Option Mark) : Prop :=
  r.episode = false → ∀ value ∈ r.issued, ∃ mark ∈ file, value ≤ mark.value

/-- What every event keeps: whatever mark is left on disk, it is at least every value of a process
that ended with no episode open, and the present process found such a mark. -/
structure Sound (h : ClockHistory) : Prop where
  sound : ∀ r ∈ h.runs, r.Sound
  file_eq : ∀ r ∈ h.run, h.file = some r.disk
  unsynced_eq : ∀ r ∈ h.run, h.unsynced = r.unsynced.map some
  held : ∀ r ∈ h.ended, ∀ file ∈ h.file :: h.unsynced, HeldBy r file
  found : ∀ r ∈ h.run, ∀ r' ∈ h.ended, HeldBy r' r.found
  ordered : h.runs.Pairwise Precedes

variable {h h' : ClockHistory}

theorem HeldBy.mono {r : ClockRun} {file file' : Option Mark} (hheld : HeldBy r file)
    (hle : ∀ mark ∈ file, ∃ mark' ∈ file', mark.value ≤ mark'.value) : HeldBy r file' := by
  intro hclosed value hvalue
  obtain ⟨mark, hmark, hvalue⟩ := hheld hclosed value hvalue
  obtain ⟨mark', hmark', hle⟩ := hle mark hmark
  exact ⟨mark', hmark', hvalue.trans hle⟩

theorem heldBy_disk {r : ClockRun} (hr : r.Sound) {mark : Mark}
    (hmark : mark ∈ r.disk :: r.unsynced) : HeldBy r (some mark) := by
  intro hclosed value hvalue
  refine ⟨mark, rfl, ?_⟩
  calc value ≤ r.last := hr.issued_le value hvalue
    _ ≤ r.covered := hr.last_le hclosed
    _ ≤ mark.value := hr.covered_le mark hmark

theorem precedes_of_found {later earlier : ClockRun} (hlater : later.Sound)
    (hfound : HeldBy earlier later.found) : Precedes later earlier := by
  intro hclosed value hvalue value' hvalue'
  obtain ⟨mark, hmark, hle⟩ := hfound hclosed value hvalue
  exact hle.trans_lt (hlater.found_lt value' hvalue' mark hmark)

theorem HeldBy.disk {r earlier : ClockRun} (hr : r.Sound) (hfound : HeldBy earlier r.found)
    {mark : Mark} (hmark : mark ∈ r.disk :: r.unsynced) : HeldBy earlier (some mark) := by
  refine hfound.mono ?_
  intro found hmem
  exact ⟨mark, rfl, (hr.found_covered found hmem).trans (hr.covered_le mark hmark)⟩

theorem Sound.exit (hsound : h.Sound) : h.exit.Sound where
  sound := hsound.sound
  file_eq := by simp [ClockHistory.exit]
  unsynced_eq := by simp [ClockHistory.exit]
  held := by
    intro r hr file hfile
    rcases List.mem_append.mp hr with hpresent | hended
    · -- the process that ends: its values are covered, and the file holds the coverage
      have hrun := Option.mem_toList.mp hpresent
      have hdisk : file ∈ (r.disk :: r.unsynced).map some := by
        have hfile' : file ∈ h.file :: h.unsynced := hfile
        rwa [hsound.file_eq r hrun, hsound.unsynced_eq r hrun] at hfile'
      obtain ⟨mark, hmark, rfl⟩ := List.mem_map.mp hdisk
      exact heldBy_disk (hsound.sound r hr) hmark
    · exact hsound.held r hended file hfile
  found := by simp [ClockHistory.exit]
  ordered := hsound.ordered

theorem Sound.event (hsound : h.Sound) {e : ClockEvent} (hevent : h.event e = some h') :
    h'.Sound := by
  unfold ClockHistory.event at hevent
  split at hevent
  next => cases hevent
  next r hrun =>
    split at hevent
    next => cases hevent
    next r' hstep =>
      cases hevent
      have hmem : r ∈ h.runs := by simp [runs, hrun]
      have hr' : r'.Sound := (hsound.sound r hmem).step hstep
      have hfound : ∀ earlier ∈ h.ended, HeldBy earlier r'.found := by
        intro earlier hearlier
        rw [ClockRun.step_found hstep]
        exact hsound.found r hrun earlier hearlier
      have hordered : (h.run.toList ++ h.ended).Pairwise Precedes := hsound.ordered
      rw [hrun, Option.toList_some, List.singleton_append, List.pairwise_cons] at hordered
      exact
        { sound := by
            intro r'' hr''
            rcases List.mem_cons.mp hr'' with rfl | hended
            · exact hr'
            · exact hsound.sound r'' (List.mem_append_right _ hended)
          file_eq := by
            rintro _ ⟨⟩
            rfl
          unsynced_eq := by
            rintro _ ⟨⟩
            rfl
          held := by
            intro earlier hearlier file hfile
            obtain ⟨mark, hmark, rfl⟩ := List.mem_map.mp
              (show file ∈ (r'.disk :: r'.unsynced).map some from hfile)
            exact (hfound earlier hearlier).disk hr' hmark
          found := by
            rintro _ ⟨⟩ earlier hearlier
            exact hfound earlier hearlier
          ordered := List.Pairwise.cons
            (fun earlier hearlier => precedes_of_found hr' (hfound earlier hearlier)) hordered.2 }

/-- What a start does: it leaves the file, or replaces it by its mark, or the clock runs. -/
theorem start_cases {wall : Int} {outcome : StartOutcome}
    (hstart : h.start wall outcome = some h') :
    h.run = none ∧ h'.walls = wall :: h.walls ∧ h'.ended = h.ended ∧
      ((h'.run = none ∧ h'.file = h.file ∧ h'.unsynced = h.unsynced ∧
          (h'.refused = h.refused ∨ h'.refused = startMark h.file wall :: h.refused)) ∨
        ∃ start, startWrite h.file wall = some start ∧ h'.file = some start ∧
          ((h'.run = none ∧ h'.unsynced = h.file :: h.unsynced ∧
              h'.refused = startMark h.file wall :: h.refused) ∨
            (h'.run = some (ClockRun.started h.file start) ∧ h'.unsynced = [] ∧
              h'.refused = h.refused))) := by
  unfold ClockHistory.start at hstart
  split at hstart
  next => cases hstart
  next hidle =>
    have hnone : h.run = none := by simpa using hidle
    refine ⟨hnone, ?_⟩
    simp only at hstart
    split at hstart
    next =>
      cases hstart
      split
      · exact ⟨rfl, rfl, .inl ⟨hnone, rfl, rfl, .inr rfl⟩⟩
      · exact ⟨rfl, rfl, .inl ⟨hnone, rfl, rfl, .inl rfl⟩⟩
    next start hwrite =>
      have hvalue := (ClockRun.startWrite_eq_some hwrite).2
      cases outcome with
      | completed =>
        cases hstart
        exact ⟨rfl, rfl, .inr ⟨start, hwrite, rfl, .inr ⟨rfl, rfl, rfl⟩⟩⟩
      | failed =>
        cases hstart
        refine ⟨rfl, rfl, .inl ⟨hnone, rfl, rfl, .inr ?_⟩⟩
        rw [hvalue]
      | replaced =>
        cases hstart
        refine ⟨rfl, rfl, .inr ⟨start, hwrite, rfl, .inl ⟨hnone, rfl, ?_⟩⟩⟩
        rw [hvalue]

theorem HeldBy.startWrite {r : ClockRun} {file : Option Mark} {wall : Int} {start : Mark}
    (hheld : HeldBy r file) (hwrite : startWrite file wall = some start) :
    HeldBy r (some start) := by
  refine hheld.mono ?_
  intro mark hmark
  have hle := ClockRun.foundValue_le hwrite
  rw [Option.mem_def.mp hmark] at hle
  exact ⟨start, rfl, hle⟩

theorem Sound.start (hsound : h.Sound) {wall : Int} {outcome : StartOutcome}
    (hstart : h.start wall outcome = some h') : h'.Sound := by
  obtain ⟨hnone, -, hended, hcases⟩ := start_cases hstart
  have hruns : h.runs = h.ended := by simp [runs, hnone]
  have hordered : h.ended.Pairwise Precedes := hruns ▸ hsound.ordered
  have hall : ∀ r ∈ h.ended, r.Sound := hruns ▸ hsound.sound
  rcases hcases with ⟨hrun, hfile, hunsynced, -⟩ | ⟨start, hwrite, hfile, hcases⟩
  · -- no clock runs, and the file is as it was
    have hruns' : h'.runs = h.ended := by simp [runs, hrun, hended]
    exact
      { sound := hruns' ▸ hall
        file_eq := by simp [hrun]
        unsynced_eq := by simp [hrun]
        held := by
          rw [hended, hfile, hunsynced]
          exact hsound.held
        found := by simp [hrun]
        ordered := hruns' ▸ hordered }
  · have hheld : ∀ r ∈ h.ended, HeldBy r (some start) := fun r hr =>
      (hsound.held r hr h.file List.mem_cons_self).startWrite hwrite
    rcases hcases with ⟨hrun, hunsynced, -⟩ | ⟨hrun, hunsynced, -⟩
    · -- the file was replaced, which a loss of power may undo
      have hruns' : h'.runs = h.ended := by simp [runs, hrun, hended]
      exact
        { sound := hruns' ▸ hall
          file_eq := by simp [hrun]
          unsynced_eq := by simp [hrun]
          held := by
            rw [hended, hfile, hunsynced]
            intro r hr file hmem
            rcases List.mem_cons.mp hmem with rfl | hmem
            · exact hheld r hr
            · exact hsound.held r hr file hmem
          found := by simp [hrun]
          ordered := hruns' ▸ hordered }
    · have hruns' : h'.runs = ClockRun.started h.file start :: h.ended := by
        simp [runs, hrun, hended]
      have hnew := ClockRun.sound_started (ClockRun.foundValue_le hwrite)
      have hfound : ∀ r ∈ h.ended, HeldBy r (ClockRun.started h.file start).found := fun r hr =>
        hsound.held r hr h.file List.mem_cons_self
      exact
        { sound := by
            rw [hruns']
            exact List.forall_mem_cons.mpr ⟨hnew, hall⟩
          file_eq := by
            rw [hrun, hfile]
            rintro _ ⟨⟩
            rfl
          unsynced_eq := by
            rw [hrun, hunsynced]
            rintro _ ⟨⟩
            rfl
          held := by
            rw [hended, hfile, hunsynced]
            intro r hr file hmem
            obtain rfl := List.mem_singleton.mp hmem
            exact hheld r hr
          found := by
            rw [hended, hrun]
            rintro _ ⟨⟩
            exact hfound
          ordered := by
            rw [hruns']
            exact hordered.cons fun r hr => precedes_of_found hnew (hfound r hr) }

/-- **Every event keeps the invariant.** -/
theorem Sound.step (hsound : h.Sound) {e : HistoryEvent} (hstep : h.step e = some h') :
    h'.Sound := by
  cases e with
  | start wall outcome => exact hsound.start hstep
  | event e => exact hsound.event hstep
  | exit =>
    cases hstep
    exact hsound.exit
  | powerLoss left =>
    simp only [ClockHistory.step] at hstep
    split at hstep
    next hleft =>
      cases hstep
      exact
        { hsound.exit with
          file_eq := by simp [ClockHistory.exit]
          unsynced_eq := by simp [ClockHistory.exit]
          held := by
            intro r hr file hmem
            obtain rfl := List.mem_singleton.mp hmem
            exact hsound.exit.held r hr _ hleft }
    next => cases hstep

theorem sound_initial (file : Option Mark) : (initial file).Sound where
  sound := by simp [runs, initial]
  file_eq := by simp [initial]
  unsynced_eq := by simp [initial]
  held := by simp [initial]
  found := by simp [initial]
  ordered := by simp [runs, initial]

theorem sound_runAll {first : Option Mark} {es : List HistoryEvent}
    (hrun : runAll ClockHistory.step (initial first) es = some h) : h.Sound :=
  runAll_invariant (fun _ _ _ hs hstep => hs.step hstep) (sound_initial first) hrun

/-- **No value is issued twice.** In one process the values rise from the mark found, and while no
episode is open they are at most a completed mark. A process that ended with no episode open issued
only values below those of every later one. -/
theorem values_never_repeat {first : Option Mark} {es : List HistoryEvent} {h : ClockHistory}
    (hrun : runAll ClockHistory.step (initial first) es = some h) :
    (∀ r ∈ h.runs, r.issued.Pairwise (· > ·) ∧
        (∀ value ∈ r.issued, ∀ mark ∈ r.found, mark.value < value) ∧
        (r.episode = false →
          ∃ top, IsGreatest {mark | mark ∈ r.completed} top ∧ ∀ value ∈ r.issued, value ≤ top)) ∧
      h.runs.Pairwise fun later earlier =>
        earlier.episode = false → ∀ value ∈ earlier.issued, ∀ value' ∈ later.issued,
        value < value' := by
  have hsound := sound_runAll hrun
  refine ⟨?_, hsound.ordered⟩
  intro r hr
  have hr := hsound.sound r hr
  refine ⟨hr.increasing, hr.found_lt, ?_⟩
  intro hclosed
  exact ⟨r.covered, hr.covered_greatest,
    fun value hvalue => (hr.issued_le value hvalue).trans (hr.last_le hclosed)⟩

/-- Two processes: the second starts with a wall clock that went back, from a file whose last
replacement the first did not see completed. -/
def restartedHistory : List HistoryEvent :=
  [.start 0 .completed, .event .call, .event (.next 0 900), .event (.land 0), .exit,
    .start 100 .completed, .event .call, .event (.next 0 100), .event (.land 0),
    .event (.persist 0 true), .event (.next 0 100)]

theorem values_never_repeat_restartedHistory :
    ∃ h, runAll ClockHistory.step (initial none) restartedHistory = some h ∧
      h.runs.map (fun r => r.issued) = [[1901], [900]] ∧
      h.runs.Pairwise fun later earlier =>
        earlier.episode = false → ∀ value ∈ earlier.issued, ∀ value' ∈ later.issued,
        value < value' := by
  refine ⟨_, rfl, rfl, ?_⟩
  exact (@values_never_repeat none restartedHistory _ rfl).2

end ClockHistory

end OriGateway
