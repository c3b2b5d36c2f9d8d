import OriGateway.MqttAuth.SigningClock
import Mathlib.Order.Bounds.Basic

/-! # What holds in every run of the signing clock

**`ClockRun.Sound`** is about the values issued, the coverage, the file and the one write
outstanding; **`ClockRun.Watched`** says that an open episode has a write or a retry that will end
it, and that nothing is armed once the clock is stopped. Every event keeps both. -/

namespace OriGateway

open Foundation

namespace ClockRun

/-! ## Coverage -/

/-- The write that is outstanding, if any, is the only one, and it writes the highest mark
written. -/
def Outstanding (r : ClockRun) : Prop :=
  match r.write with
  | none => r.writers = []
  | some id =>
    id < r.writes ∧ ∃ landed, r.writers = [⟨id, r.written, landed⟩] ∧
      (landed = true → r.disk.value = r.written)

/-- What every event keeps: the values rise from the mark found, the coverage is a completed mark
that the disk holds, and without an episode it covers every value. -/
structure Sound (r : ClockRun) : Prop where
  last_range : MarkInRange r.last
  found_le : ∀ mark ∈ r.found, mark.value ≤ r.last
  found_covered : ∀ mark ∈ r.found, mark.value ≤ r.covered
  found_lt : ∀ value ∈ r.issued, ∀ mark ∈ r.found, mark.value < value
  issued_le : ∀ value ∈ r.issued, value ≤ r.last
  increasing : r.issued.Pairwise (· > ·)
  covered_nonneg : 0 ≤ r.covered
  covered_greatest : IsGreatest {mark | mark ∈ r.completed} r.covered
  last_le : r.episode = false → r.last ≤ r.covered
  persisted_eq : r.persisted = r.covered
  covered_le : ∀ mark ∈ r.disk :: r.unsynced, r.covered ≤ mark.value
  le_written : ∀ mark ∈ r.disk :: r.unsynced, mark.value ≤ r.written
  written_range : MarkInRange r.written
  passed_le : ∀ mark ∈ r.passed, mark ≤ r.written
  passed_sorted : r.passed.Pairwise (· ≥ ·)
  outstanding : r.Outstanding

variable {r r' : ClockRun} {id call : Nat} {ok : Bool} {wall : Int} {w : MarkWrite}
  {e : ClockEvent} {found : Option Mark} {start : Mark}

/-- The coverage is within the marks written. -/
theorem Sound.covered_le_written (h : r.Sound) : r.covered ≤ r.written :=
  (h.covered_le _ List.mem_cons_self).trans (h.le_written _ List.mem_cons_self)

/-- A write that is under way is the one outstanding. -/
theorem Outstanding.of_writer (h : r.Outstanding) (hw : r.writer id = some w) :
    r.write = some id ∧ id < r.writes ∧ w.id = id ∧ w.mark = r.written ∧ r.writers = [w] ∧
      (w.landed = true → r.disk.value = r.written) := by
  unfold Outstanding at h
  cases hwrite : r.write with
  | none =>
    rw [hwrite] at h
    simp [writer, h] at hw
  | some id' =>
    rw [hwrite] at h
    obtain ⟨hid, landed, hwriters, hlanded⟩ := h
    rw [writer, hwriters, List.find?_singleton] at hw
    split at hw
    next heq =>
      cases hw
      obtain rfl : id' = id := by simpa using heq
      exact ⟨rfl, hid, rfl, rfl, hwriters, hlanded⟩
    next => cases hw

/-! ## One piece at a time -/

theorem Sound.broadcastLocked (h : r.Sound) : r.broadcastLocked.Sound := { h with }

/-- Arming a retry keeps the invariant. -/
theorem Sound.scheduleRetryLocked (h : r.Sound) : r.scheduleRetryLocked.Sound := by
  unfold ClockRun.scheduleRetryLocked
  split
  · exact h
  · exact { h with }

/-- Opening an episode keeps the invariant, for it promises less coverage. -/
theorem Sound.openEpisodeLocked (h : r.Sound) : r.openEpisodeLocked.Sound := by
  unfold ClockRun.openEpisodeLocked
  split
  · exact h
  · have hopen : ({ r with episode := true } : ClockRun).Sound :=
      { h with last_le := fun hfalse => by cases hfalse }
    exact hopen.scheduleRetryLocked.broadcastLocked

/-- Starting a write keeps the invariant, when none is outstanding. -/
theorem Sound.startWriteLocked (h : r.Sound) (hnone : r.write = none) {mark : Int}
    (hmark : mark < signingCeiling) : (r.startWriteLocked mark).Sound := by
  have hwriters : r.writers = [] := by
    have := h.outstanding
    rwa [Outstanding, hnone] at this
  have hle : r.written ≤ max mark r.written := Int.le_max_right ..
  exact
    { h with
      le_written := fun m hm => (h.le_written m hm).trans hle
      written_range := ⟨h.written_range.1.trans hle, Int.max_lt.mpr ⟨hmark, h.written_range.2⟩⟩
      passed_le := by
        intro m hm
        rcases List.mem_cons.mp hm with rfl | hm
        · exact le_rfl
        · exact (h.passed_le m hm).trans hle
      passed_sorted := by
        refine List.Pairwise.cons ?_ h.passed_sorted
        intro m hm
        exact (h.passed_le m hm).trans hle
      outstanding := by
        refine ⟨Nat.lt_succ_self _, false, ?_, by simp⟩
        simp [ClockRun.startWriteLocked, hwriters] }

/-- Every mark that is reserved is in range. -/
theorem reservationFor_lt (wall value : Int) : reservationFor wall value < signingCeiling := by
  unfold reservationFor
  omega

/-- A write lands by replacing the file, which is durable only later. -/
theorem land_eq_some (hland : r.land id = some r') :
    ∃ w, ∃ h : MarkInRange w.mark, r.writer id = some w ∧
      r' = { r with
        disk := ⟨w.mark, h⟩
        unsynced := r.disk :: r.unsynced
        writers := r.writers.map fun w' => if w'.id = id then
          { w' with landed := true } else w' } := by
  unfold ClockRun.land at hland
  split at hland
  next => cases hland
  next w hw =>
    split at hland
    next hrange =>
      cases hland
      exact ⟨w, hrange.1, hw, rfl⟩
    next => cases hland

/-- The landing of the one write keeps the invariant. -/
theorem Sound.land (h : r.Sound) (hland : r.land id = some r') : r'.Sound := by
  obtain ⟨w, hrange, hw, rfl⟩ := land_eq_some hland
  obtain ⟨hwrite, hid, hwid, hmark, hwriters, -⟩ := h.outstanding.of_writer hw
  exact
    { h with
      covered_le := by
        intro m hm
        rcases List.mem_cons.mp hm with rfl | hm
        · show r.covered ≤ w.mark
          rw [hmark]
          exact h.covered_le_written
        · exact h.covered_le m hm
      le_written := by
        intro m hm
        rcases List.mem_cons.mp hm with rfl | hm
        · exact hmark.le
        · exact h.le_written m hm
      outstanding := by
        simp only [Outstanding, hwrite]
        exact ⟨hid, true, by simp [hwriters, hwid, ← hmark], fun _ => hmark⟩ }

/-- Without the one write, none is outstanding. -/
theorem Sound.endWrite (h : r.Sound) (hw : r.writer id = some w) : (r.endWrite id).Sound := by
  obtain ⟨-, -, hwid, -, hwriters, -⟩ := h.outstanding.of_writer hw
  exact
    { h with
      outstanding := by
        show r.writers.filter _ = []
        simp [hwriters, hwid] }

/-- The mark of a write that completed is on disk, whatever a loss of power brings back. -/
theorem Sound.mark_le_disk (h : r.Sound) (hmay : r.MayComplete w)
    (hmark : w.mark = r.written) (hlanded : w.landed = true → r.disk.value = r.written) :
    ∀ mark ∈ r.disk :: (if w.landed then [] else r.unsynced), w.mark ≤ mark.value := by
  intro mark hmem
  cases hw : w.landed with
  | true =>
    -- the file was replaced by this write, and made durable
    rw [hw, if_pos rfl, List.mem_singleton] at hmem
    rw [hmem, hlanded hw, hmark]
  | false =>
    -- a mark as high had been completed before
    rw [hw, if_neg (by decide)] at hmem
    have hpersisted : w.mark ≤ r.persisted := by
      rcases hmay.2 with hle | htrue
      · exact hle
      · rw [hw] at htrue
        cases htrue
    rw [h.persisted_eq] at hpersisted
    exact hpersisted.trans (h.covered_le mark hmem)

/-- The coverage may be raised to the mark of a write that completed. -/
theorem Sound.cover (h : r.Sound) (hmay : r.MayComplete w)
    (hmark : w.mark = r.written) (hlanded : w.landed = true → r.disk.value = r.written)
    (hnone : r.write = none) : (r.cover w).Sound := by
  have hle : r.covered ≤ max r.covered w.mark := Int.le_max_left ..
  have hdisk := h.mark_le_disk hmay hmark hlanded
  have hsub : ∀ mark ∈ r.disk :: (if w.landed then [] else r.unsynced),
      mark ∈ r.disk :: r.unsynced := by
    intro mark hmem
    split at hmem
    · exact List.mem_cons.mpr (.inl (List.mem_singleton.mp hmem))
    · exact hmem
  exact
    { h with
      covered_greatest := by
        constructor
        · rcases Int.le_total r.covered w.mark with hcase | hcase
          · exact List.mem_cons.mpr (.inl (Int.max_eq_right hcase))
          · refine List.mem_cons_of_mem _ ?_
            show max r.covered w.mark ∈ r.completed
            rw [Int.max_eq_left hcase]
            exact h.covered_greatest.1
        · intro mark hmem
          rcases List.mem_cons.mp hmem with rfl | hmem
          · exact Int.le_max_right ..
          · exact (h.covered_greatest.2 hmem).trans hle
      found_covered := fun mark hmark => (h.found_covered mark hmark).trans hle
      covered_nonneg := h.covered_nonneg.trans hle
      last_le := fun hfalse => (h.last_le hfalse).trans hle
      persisted_eq := congrArg (max · w.mark) h.persisted_eq
      covered_le := fun mark hmem =>
        Int.max_le.mpr ⟨h.covered_le mark (hsub mark hmem), hdisk mark hmem⟩
      le_written := fun mark hmem => h.le_written mark (hsub mark hmem)
      outstanding := by
        have hout := h.outstanding
        simpa only [Outstanding, ClockRun.cover, hnone] using hout }

/-- Closing an episode keeps the invariant. -/
theorem Sound.closeEpisode (h : r.Sound) : r.closeEpisode.Sound := by
  unfold ClockRun.closeEpisode
  split
  next hend =>
    -- the comparison that ends the episode is the coverage of the last value
    simp only [Bool.and_eq_true, decide_eq_true_eq] at hend
    exact { h with last_le := fun _ => hend.2 }
  next => exact h

/-- Arming the retry of an open episode keeps the invariant. -/
theorem Sound.rearm (h : r.Sound) : r.rearm.Sound := by
  unfold ClockRun.rearm
  split
  · exact h.scheduleRetryLocked
  · exact h

theorem persist_eq_some (hpersist : r.persist id ok = some r') :
    ∃ w, r.writer id = some w ∧ (ok = true → r.MayComplete w) ∧
      r' = (if ok then ((r.endWrite id).cover w).closeEpisode
        else (r.endWrite id).openEpisodeLocked).rearm.broadcastLocked := by
  unfold ClockRun.persist at hpersist
  split at hpersist
  next => cases hpersist
  next w hw =>
    split at hpersist
    next => cases hpersist
    next hok =>
      cases hpersist
      refine ⟨w, hw, ?_, rfl⟩
      intro htrue
      by_contra hnot
      exact hok ⟨htrue, hnot⟩

/-- **The rule of a write's end**: a property that the end of a write establishes, and that the
episode, the retry and the broadcast after it keep. -/
theorem persist_rule {P : ClockRun → Prop} (hpersist : r.persist id ok = some r')
    (ended : ∀ {w}, r.writer id = some w → P (r.endWrite id))
    (covered : ∀ {w}, r.writer id = some w → r.MayComplete w → P (r.endWrite id) →
      P ((r.endWrite id).cover w))
    (closes : ∀ {r}, P r → P r.closeEpisode) (opens : ∀ {r}, P r → P r.openEpisodeLocked)
    (rearms : ∀ {r}, P r → P r.rearm) (broadcasts : ∀ {r}, P r → P r.broadcastLocked) :
    P r' := by
  obtain ⟨w, hw, hmay, rfl⟩ := persist_eq_some hpersist
  refine broadcasts (rearms ?_)
  split
  next hok => exact closes (covered hw (hmay hok) (ended hw))
  next => exact opens (ended hw)

/-- The end of a write keeps the invariant, whether it completed or failed. -/
theorem Sound.persist (h : r.Sound) (hpersist : r.persist id ok = some r') : r'.Sound := by
  refine persist_rule hpersist h.endWrite ?_ closeEpisode openEpisodeLocked rearm broadcastLocked
  intro w hw hmay hended
  obtain ⟨-, -, -, hmark, -, hlanded⟩ := h.outstanding.of_writer hw
  exact hended.cover hmay hmark hlanded rfl

/-! ## Timers, calls and the stop -/

/-- The clock after a retry timer ran, before the retry is judged. -/
def retryRan (r : ClockRun) : ClockRun := { r with retry := false, retries := r.retries - 1 }

/-- A retry starts a write while an episode is open and none is outstanding, and does nothing
otherwise. -/
theorem retryWrite_eq_some (hretry : r.retryWrite wall = some r') :
    (r' = r.retryRan ∧ (r.closed = true ∨ r.episode = false ∨ r.write.isSome = true)) ∨
      (r' = r.retryRan.startWriteLocked (reservationFor wall r.last) ∧ r.closed = false ∧
        r.write = none) := by
  unfold ClockRun.retryWrite at hretry
  split at hretry
  next => cases hretry
  next =>
    simp only at hretry
    split at hretry
    next hskip =>
      cases hretry
      exact .inl ⟨rfl, by simpa [or_assoc] using hskip⟩
    next hgo =>
      cases hretry
      simp only [Bool.or_eq_true, not_or, Bool.not_eq_true, Option.isSome_eq_false_iff] at hgo
      exact .inr ⟨rfl, hgo.1.1, Option.isNone_iff_eq_none.mp hgo.2⟩

/-- A retry keeps the invariant. -/
theorem Sound.retryWrite (h : r.Sound) (hretry : r.retryWrite wall = some r') : r'.Sound := by
  have hran : r.retryRan.Sound := { h with }
  rcases retryWrite_eq_some hretry with ⟨rfl, -⟩ | ⟨rfl, -, hnone⟩
  · exact hran
  · exact hran.startWriteLocked hnone (reservationFor_lt _ _)

theorem Sound.stop (h : r.Sound) : r.stop.Sound := { h with }

theorem Sound.makeCall (h : r.Sound) : r.makeCall.Sound := { h with }

theorem Sound.finish (h : r.Sound) (call : Nat) (result : Except ClockError Int) :
    (r.finish call result).Sound := { h with }

/-- The next value does not overflow. -/
theorem Sound.candidate_eq (h : r.Sound) (wall : Int) :
    r.candidate wall = max wall (r.last + 1) := by
  have hlast := h.last_range
  have hsucc : InInt64 (r.last + 1) := by
    unfold MarkInRange signingCeiling maxInt64 at hlast
    unfold InInt64
    omega
  rw [candidate, int64_eq hsucc]

theorem Sound.last_lt_candidate (h : r.Sound) (wall : Int) : r.last < r.candidate wall := by
  rw [h.candidate_eq]
  omega

/-- A value past the last one may be issued, if it is covered or an episode is open. -/
theorem Sound.issue (h : r.Sound) {value : Int} (hlast : r.last < value)
    (hceiling : value < signingCeiling) (hcovered : r.episode = false → value ≤ r.covered) :
    (r.issue call wall value).Sound := by
  have hnonneg := h.last_range.1
  exact
    { h with
      last_range := ⟨hnonneg.trans hlast.le, hceiling⟩
      found_le := fun mark hmark => (h.found_le mark hmark).trans hlast.le
      found_lt := by
        intro v hv mark hmark
        rcases List.mem_cons.mp hv with rfl | hv
        · exact (h.found_le mark hmark).trans_lt hlast
        · exact h.found_lt v hv mark hmark
      issued_le := by
        intro v hv
        rcases List.mem_cons.mp hv with rfl | hv
        · exact le_rfl
        · exact (h.issued_le v hv).trans hlast.le
      increasing := by
        refine List.Pairwise.cons ?_ h.increasing
        intro v hv
        exact (h.issued_le v hv).trans_lt hlast
      last_le := hcovered }

/-- **One turn of a call keeps the invariant**: it fails, waits, or issues its value. -/
theorem Sound.turn (h : r.Sound) (call : Nat) (wall : Int) : (r.turn call wall).Sound := by
  unfold ClockRun.turn
  simp only
  split
  next => exact h.finish ..
  next hceiling =>
    split
    next => exact h.finish ..
    next =>
      split
      next =>
        have hstart : (if r.write.isNone then
            r.startWriteLocked (reservationFor wall (r.candidate wall)) else r).Sound := by
          split
          next hnone =>
            exact h.startWriteLocked (Option.isNone_iff_eq_none.mp hnone) (reservationFor_lt _ _)
          next => exact h
        exact { hstart with }
      next hcover =>
        have hlt : r.candidate wall < signingCeiling := not_le.mp hceiling
        have hcovered : r.episode = false → r.candidate wall ≤ r.covered := by
          intro hfalse
          by_contra hnot
          exact hcover ⟨not_le.mp hnot, hfalse⟩
        split
        next hextend =>
          have hnone : r.write = none := by
            simp only [extension, Bool.and_eq_true] at hextend
            exact Option.isNone_iff_eq_none.mp hextend.1.1.2
          have hstart := h.startWriteLocked hnone (reservationFor_lt wall (r.candidate wall))
          exact hstart.issue (h.last_lt_candidate wall) hlt hcovered
        next => exact h.issue (h.last_lt_candidate wall) hlt hcovered

/-- A call goes on when it is ready or what it waits for changed. -/
theorem next_eq_some (hnext : r.next call wall = some r') :
    r' = r.turn call wall ∧
      (r.calls[call]? = some .ready ∨ ∃ changed, r.calls[call]? = some (.waiting changed)) := by
  unfold ClockRun.next at hnext
  split at hnext
  next hready =>
    cases hnext
    exact ⟨rfl, .inl hready⟩
  next changed hwaiting =>
    split at hnext
    next => cases hnext
    next =>
      cases hnext
      exact ⟨rfl, .inr ⟨changed, hwaiting⟩⟩
  next => cases hnext

/-- **The rule of an event**: what is to be shown of each piece of work it may be. The timer of a
write and that of a call open an episode or do nothing. -/
theorem step_rule {P : ClockEvent → ClockRun → Prop} (hstep : r.step e = some r')
    (called : P .call r.makeCall)
    (turns : ∀ {call wall},
      r.calls[call]? = some .ready ∨ (∃ changed, r.calls[call]? = some (.waiting changed)) →
      P (.next call wall) (r.turn call wall))
    (lands : ∀ {id r'}, r.land id = some r' → P (.land id) r')
    (ends : ∀ {id ok r'}, r.persist id ok = some r' → P (.persist id ok) r')
    (opens : ∀ {e}, P e r.openEpisodeLocked) (idle : ∀ {e}, P e r)
    (retries : ∀ {wall r'}, r.retryWrite wall = some r' → P (.retryTimer wall) r')
    (stops : P .stop r.stop) : P e r' := by
  cases e with
  | call =>
    cases hstep
    exact called
  | next call wall =>
    obtain ⟨rfl, hcall⟩ := next_eq_some hstep
    exact turns hcall
  | land id => exact lands hstep
  | persist id ok => exact ends hstep
  | boundTimer id =>
    cases hstep
    unfold ClockRun.boundTimer
    split
    · exact opens
    · exact idle
  | waitTimer call =>
    cases hstep
    unfold ClockRun.waitTimer
    split
    · exact opens
    · exact idle
  | retryTimer wall => exact retries hstep
  | stop =>
    cases hstep
    exact stops

/-- **Every event keeps the invariant.** -/
theorem Sound.step (h : r.Sound) (hstep : r.step e = some r') : r'.Sound :=
  step_rule hstep h.makeCall (fun _ => h.turn _ _) h.land h.persist h.openEpisodeLocked h
    h.retryWrite h.stop

/-! ## The start -/

/-- The first mark is in range. -/
theorem startMark_lt (found : Option Mark) (wall : Int) :
    startMark found wall < signingCeiling := by
  cases found <;> simp only [startMark] <;> omega

theorem startWrite_eq_some (hstart : startWrite found wall = some start) :
    firstValue found wall < signingCeiling ∧ start.value = startMark found wall := by
  unfold startWrite at hstart
  split at hstart
  next hok =>
    cases hstart
    exact ⟨hok.1, rfl⟩
  next => cases hstart

/-- The first mark is not below the one found. -/
theorem foundValue_le (hstart : startWrite found wall = some start) :
    foundValue found ≤ start.value := by
  have hrange := start.inRange
  rw [(startWrite_eq_some hstart).2] at hrange ⊢
  cases found with
  | none => exact hrange.1
  | some mark =>
    have hmark := mark.inRange.2
    simp only [foundValue, startMark]
    omega

theorem foundValue_range (found : Option Mark) : MarkInRange (foundValue found) := by
  cases found with
  | none => exact ⟨by decide, by decide⟩
  | some mark => exact mark.inRange

/-- A clock starts with the invariant. -/
theorem sound_started (hle : foundValue found ≤ start.value) :
    (started found start).Sound where
  last_range := foundValue_range found
  found_le := by
    rintro mark hmark
    cases hmark
    exact le_rfl
  found_covered := by
    rintro mark hmark
    cases hmark
    exact Int.le_max_left ..
  found_lt := by simp [started]
  issued_le := by simp [started]
  increasing := by simp [started]
  covered_nonneg := start.inRange.1.trans (Int.le_max_right ..)
  covered_greatest := by simp [started, Int.max_eq_right hle]
  last_le := fun _ => Int.le_max_left ..
  persisted_eq := (Int.max_eq_right hle).symm
  covered_le := by simp [started, hle]
  le_written := by simp [started]
  written_range := start.inRange
  passed_le := by simp [started]
  passed_sorted := by simp [started]
  outstanding := by simp [Outstanding, started]

theorem newDurableSigningClock_eq_some
    (hstart : newDurableSigningClock found wall = some r) :
    ∃ start, startWrite found wall = some start ∧ r = started found start := by
  obtain ⟨start, hwrite, rfl⟩ := Option.map_eq_some_iff.mp hstart
  exact ⟨start, hwrite, rfl⟩

/-- **A whole run keeps the invariant.** -/
theorem sound_runAll {r₀ : ClockRun} {es : List ClockEvent}
    (hstart : newDurableSigningClock found wall = some r₀)
    (hrun : runAll ClockRun.step r₀ es = some r) : r.Sound := by
  obtain ⟨start, hwrite, rfl⟩ := newDurableSigningClock_eq_some hstart
  exact runAll_invariant (fun _ _ _ hs hstep => hs.step hstep)
    (sound_started (foundValue_le hwrite)) hrun

/-! ## What only a call changes -/

/-- The values, the calls and the mark written are as before. -/
structure Steady (r r' : ClockRun) : Prop where
  found_eq : r'.found = r.found
  last_eq : r'.last = r.last
  issued_eq : r'.issued = r.issued
  calls_eq : r'.calls = r.calls
  written_eq : r'.written = r.written

theorem Steady.refl (r : ClockRun) : Steady r r := ⟨rfl, rfl, rfl, rfl, rfl⟩

theorem Steady.trans {r'' : ClockRun} (h : Steady r r') (h' : Steady r' r'') : Steady r r'' where
  found_eq := h'.found_eq.trans h.found_eq
  last_eq := h'.last_eq.trans h.last_eq
  issued_eq := h'.issued_eq.trans h.issued_eq
  calls_eq := h'.calls_eq.trans h.calls_eq
  written_eq := h'.written_eq.trans h.written_eq

/-- Arming a retry changes nothing that only a call changes. -/
theorem steady_scheduleRetryLocked (r : ClockRun) : Steady r r.scheduleRetryLocked := by
  unfold ClockRun.scheduleRetryLocked
  split
  · exact .refl r
  · exact ⟨rfl, rfl, rfl, rfl, rfl⟩

theorem steady_openEpisodeLocked (r : ClockRun) : Steady r r.openEpisodeLocked := by
  unfold ClockRun.openEpisodeLocked
  split
  · exact .refl r
  · have hopen := steady_scheduleRetryLocked { r with episode := true }
    exact { hopen with }

theorem steady_closeEpisode (r : ClockRun) : Steady r r.closeEpisode := by
  unfold ClockRun.closeEpisode
  split
  · exact ⟨rfl, rfl, rfl, rfl, rfl⟩
  · exact .refl r

theorem steady_rearm (r : ClockRun) : Steady r r.rearm := by
  unfold ClockRun.rearm
  split
  · exact steady_scheduleRetryLocked r
  · exact .refl r

/-- The end of a write changes nothing that only a call changes. -/
theorem steady_persist (hpersist : r.persist id ok = some r') : Steady r r' :=
  persist_rule (P := Steady r) hpersist (fun _ => ⟨rfl, rfl, rfl, rfl, rfl⟩)
    (fun _ _ h => { h with }) (fun h => h.trans (steady_closeEpisode _))
    (fun h => h.trans (steady_openEpisodeLocked _)) (fun h => h.trans (steady_rearm _))
    (fun h => { h with })

/-- **What an event can change**: nothing but what is steady, or it is a call, a retry that writes,
or a turn of a call. -/
theorem step_cases (hstep : r.step e = some r') :
    Steady r r' ∨ r' = r.makeCall ∨
      (∃ wall, e = .retryTimer wall ∧
        r' = r.retryRan.startWriteLocked (reservationFor wall r.last)) ∨
      ∃ call wall, e = .next call wall ∧ r' = r.turn call wall ∧
        (r.calls[call]? = some .ready ∨ ∃ changed, r.calls[call]? = some (.waiting changed)) := by
  refine step_rule (P := fun e r' => Steady r r' ∨ r' = r.makeCall ∨
    (∃ wall, e = .retryTimer wall ∧
      r' = r.retryRan.startWriteLocked (reservationFor wall r.last)) ∨
    ∃ call wall, e = .next call wall ∧ r' = r.turn call wall ∧
      (r.calls[call]? = some .ready ∨ ∃ changed, r.calls[call]? = some (.waiting changed)))
    hstep (.inr (.inl rfl)) ?_ ?_ (fun h => .inl (steady_persist h))
    (.inl (steady_openEpisodeLocked r)) (.inl (.refl r)) ?_ (.inl ⟨rfl, rfl, rfl, rfl, rfl⟩)
  · intro call wall hcall
    exact .inr (.inr (.inr ⟨call, wall, rfl, rfl, hcall⟩))
  · intro id r' hland
    obtain ⟨w, hrange, -, rfl⟩ := land_eq_some hland
    exact .inl ⟨rfl, rfl, rfl, rfl, rfl⟩
  · intro wall r' hretry
    rcases retryWrite_eq_some hretry with ⟨rfl, -⟩ | ⟨rfl, -, -⟩
    · exact .inl ⟨rfl, rfl, rfl, rfl, rfl⟩
    · exact .inr (.inr (.inl ⟨wall, rfl, rfl⟩))

theorem turn_found (r : ClockRun) (call : Nat) (wall : Int) :
    (r.turn call wall).found = r.found := by
  unfold ClockRun.turn
  simp only
  split_ifs <;> rfl

/-- The mark that was found is never another. -/
theorem step_found (hstep : r.step e = some r') : r'.found = r.found := by
  rcases step_cases hstep with hsteady | rfl | ⟨wall, -, rfl⟩ | ⟨call, wall, -, rfl, -⟩
  · exact hsteady.found_eq
  · rfl
  · rfl
  · exact turn_found r call wall

/-! ## Episodes -/

/-- An episode that is open is not forgotten: a write is outstanding or a retry is armed. -/
def Watched (r : ClockRun) : Prop :=
  r.episode = true → r.closed = false → r.write.isSome = true ∨ r.retry = true

/-- An open episode is watched once a retry is armed for it. -/
theorem watched_scheduleRetryLocked (r : ClockRun) : r.scheduleRetryLocked.Watched := by
  intro _ hclosed
  unfold ClockRun.scheduleRetryLocked at hclosed ⊢
  split at hclosed
  next hskip =>
    rw [if_pos hskip]
    simp only [Bool.or_eq_true, hclosed, Bool.false_eq_true, or_false] at hskip
    exact hskip.symm
  next hgo =>
    rw [if_neg hgo]
    exact .inr rfl

theorem watched_rearm (r : ClockRun) : r.rearm.Watched := by
  unfold ClockRun.rearm
  split
  next => exact watched_scheduleRetryLocked r
  next hfalse =>
    intro hepisode
    exact absurd hepisode hfalse

/-- An episode is watched from its opening. -/
theorem Watched.openEpisodeLocked (h : r.Watched) : r.openEpisodeLocked.Watched := by
  unfold ClockRun.openEpisodeLocked
  split
  · exact h
  · exact watched_scheduleRetryLocked _

theorem watched_startWriteLocked (r : ClockRun) (mark : Int) : (r.startWriteLocked mark).Watched :=
  fun _ _ => .inl rfl

theorem Watched.turn (h : r.Watched) (call : Nat) (wall : Int) : (r.turn call wall).Watched := by
  unfold ClockRun.turn
  simp only
  split
  next => exact h
  next =>
    split
    next => exact h
    next =>
      split
      next =>
        split
        · exact watched_startWriteLocked r (reservationFor wall (r.candidate wall))
        · exact h
      next =>
        split
        · exact watched_startWriteLocked r (reservationFor wall (r.candidate wall))
        · exact h

/-- A retry that ran has started a write, unless one is outstanding or the episode is over. -/
theorem watched_retryWrite (hretry : r.retryWrite wall = some r') : r'.Watched := by
  rcases retryWrite_eq_some hretry with ⟨rfl, hskip⟩ | ⟨rfl, -, -⟩
  · intro hepisode hclosed
    rcases hskip with htrue | hfalse | hsome
    · exact absurd (htrue.symm.trans hclosed) (by decide)
    · exact absurd (hfalse.symm.trans hepisode) (by decide)
    · exact .inl hsome
  · exact watched_startWriteLocked _ _

/-- Every event keeps open episodes watched. -/
theorem Watched.step (h : r.Watched) (hstep : r.step e = some r') : r'.Watched := by
  refine step_rule hstep h (fun _ => h.turn _ _) ?_ ?_ h.openEpisodeLocked h watched_retryWrite ?_
  · intro id r' hland
    obtain ⟨w, hrange, -, rfl⟩ := land_eq_some hland
    exact h
  · intro id ok r' hpersist
    obtain ⟨w, -, -, rfl⟩ := persist_eq_some hpersist
    exact watched_rearm _
  · intro _ hclosed
    cases hclosed

/-! ## The stop -/

/-- What a stop promises: no retry stays armed, and every channel it returned is that of the write
that is outstanding, or none is. -/
structure Stopping (r : ClockRun) : Prop where
  retry_pending : r.retry = true → 0 < r.retries
  retry_closed : r.closed = true → r.retry = false
  stopped_closed : ∀ channel ∈ r.stopped, r.closed = true
  stopped_write : ∀ channel ∈ r.stopped, r.write = none ∨ r.write = channel

/-- What a stopped clock keeps: it issues no value, starts no write and arms no retry. -/
structure Stilled (r r' : ClockRun) : Prop where
  closed : r'.closed = true
  issued_eq : r'.issued = r.issued
  passed_eq : r'.passed = r.passed
  writes_eq : r'.writes = r.writes
  retries_le : r'.retries ≤ r.retries

/-- A retry is armed only while the clock is not stopped. -/
theorem Stopping.scheduleRetryLocked (h : r.Stopping) : r.scheduleRetryLocked.Stopping := by
  unfold ClockRun.scheduleRetryLocked
  split
  next => exact h
  next hgo =>
    simp only [Bool.or_eq_true, not_or, Bool.not_eq_true] at hgo
    exact
      { h with
        retry_pending := fun _ => Nat.succ_pos _
        retry_closed := fun hclosed => absurd (hgo.1.2.symm.trans hclosed) (by decide) }

theorem Stopping.openEpisodeLocked (h : r.Stopping) : r.openEpisodeLocked.Stopping := by
  unfold ClockRun.openEpisodeLocked
  split
  · exact h
  · have hopen : ({ r with episode := true } : ClockRun).Stopping := { h with }
    exact { hopen.scheduleRetryLocked with }

/-- A write starts only while the clock is not stopped. -/
theorem Stopping.startWriteLocked (h : r.Stopping) (hopen : r.closed = false) (mark : Int) :
    (r.startWriteLocked mark).Stopping :=
  { h with
    stopped_write := by
      intro channel hmem
      rw [h.stopped_closed channel hmem] at hopen
      cases hopen }

/-- One turn of a call keeps what a stop promises. -/
theorem Stopping.turn (h : r.Stopping) (call : Nat) (wall : Int) : (r.turn call wall).Stopping := by
  unfold ClockRun.turn
  simp only
  split
  next => exact { h with }
  next =>
    split
    next => exact { h with }
    next hopen =>
      have hstart := h.startWriteLocked (Bool.not_eq_true _ ▸ hopen)
        (reservationFor wall (r.candidate wall))
      split
      next =>
        split
        · exact { hstart with }
        · exact { h with }
      next =>
        split
        · exact { hstart with }
        · exact { h with }

theorem Stopping.retryWrite (h : r.Stopping) (hretry : r.retryWrite wall = some r') :
    r'.Stopping := by
  have hran : r.retryRan.Stopping :=
    { h with
      retry_pending := fun hfalse => by cases hfalse
      retry_closed := fun _ => rfl }
  rcases retryWrite_eq_some hretry with ⟨rfl, -⟩ | ⟨rfl, hopen, -⟩
  · exact hran
  · exact hran.startWriteLocked hopen _

theorem Stopping.closeEpisode (h : r.Stopping) : r.closeEpisode.Stopping := by
  unfold ClockRun.closeEpisode
  split
  · exact { h with }
  · exact h

theorem Stopping.rearm (h : r.Stopping) : r.rearm.Stopping := by
  unfold ClockRun.rearm
  split
  · exact h.scheduleRetryLocked
  · exact h

/-- The end of a write closes the channels that a stop returned. -/
theorem Stopping.persist (h : r.Stopping) (hpersist : r.persist id ok = some r') : r'.Stopping :=
  persist_rule hpersist (fun _ => { h with stopped_write := fun _ _ => .inl rfl })
    (fun _ _ hended => { hended with }) closeEpisode openEpisodeLocked rearm (fun h => { h with })

/-- A stop returns the channel of the write that is outstanding. -/
theorem Stopping.stop (h : r.Stopping) : r.stop.Stopping where
  retry_pending := fun hfalse => by cases hfalse
  retry_closed := fun _ => rfl
  stopped_closed := fun _ _ => rfl
  stopped_write := by
    intro channel hmem
    rcases List.mem_cons.mp hmem with rfl | hmem
    · exact .inr rfl
    · exact h.stopped_write channel hmem

/-- Every event keeps what a stop promises. -/
theorem Stopping.step (h : r.Stopping) (hstep : r.step e = some r') : r'.Stopping := by
  refine step_rule hstep { h with } (fun _ => h.turn _ _) ?_ h.persist h.openEpisodeLocked h
    h.retryWrite h.stop
  intro id r' hland
  obtain ⟨w, hrange, -, rfl⟩ := land_eq_some hland
  exact { h with }

/-! ## After the stop -/

theorem Stilled.refl (hclosed : r.closed = true) : Stilled r r := ⟨hclosed, rfl, rfl, rfl, le_rfl⟩

theorem Stilled.trans {r'' : ClockRun} (h : Stilled r r') (h' : Stilled r' r'') :
    Stilled r r'' where
  closed := h'.closed
  issued_eq := h'.issued_eq.trans h.issued_eq
  passed_eq := h'.passed_eq.trans h.passed_eq
  writes_eq := h'.writes_eq.trans h.writes_eq
  retries_le := h'.retries_le.trans h.retries_le

/-- A stopped clock arms no retry. -/
theorem scheduleRetryLocked_eq (hclosed : r.closed = true) : r.scheduleRetryLocked = r := by
  unfold ClockRun.scheduleRetryLocked
  rw [if_pos (by simp [hclosed])]

theorem stilled_openEpisodeLocked (hclosed : r.closed = true) : Stilled r r.openEpisodeLocked := by
  unfold ClockRun.openEpisodeLocked
  split
  · exact .refl hclosed
  · rw [scheduleRetryLocked_eq (r := { r with episode := true }) hclosed]
    exact ⟨hclosed, rfl, rfl, rfl, le_rfl⟩

theorem stilled_rearm (hclosed : r.closed = true) : Stilled r r.rearm := by
  unfold ClockRun.rearm
  rw [scheduleRetryLocked_eq hclosed, ite_self]
  exact .refl hclosed

theorem stilled_closeEpisode (hclosed : r.closed = true) : Stilled r r.closeEpisode := by
  unfold ClockRun.closeEpisode
  split
  · exact ⟨hclosed, rfl, rfl, rfl, le_rfl⟩
  · exact .refl hclosed

theorem stilled_turn (hclosed : r.closed = true) (call : Nat) (wall : Int) :
    Stilled r (r.turn call wall) := by
  unfold ClockRun.turn
  simp only [hclosed, if_true]
  split
  · exact ⟨hclosed, rfl, rfl, rfl, le_rfl⟩
  · exact ⟨hclosed, rfl, rfl, rfl, le_rfl⟩

/-- The end of a write starts nothing in a stopped clock. -/
theorem stilled_persist (hclosed : r.closed = true) (hpersist : r.persist id ok = some r') :
    Stilled r r' :=
  persist_rule (P := Stilled r) hpersist (fun _ => ⟨hclosed, rfl, rfl, rfl, le_rfl⟩)
    (fun _ _ h => { h with }) (fun h => h.trans (stilled_closeEpisode h.closed))
    (fun h => h.trans (stilled_openEpisodeLocked h.closed))
    (fun h => h.trans (stilled_rearm h.closed)) (fun h => { h with })

/-- No event starts anything in a stopped clock. -/
theorem stilled_step (hclosed : r.closed = true) (hstep : r.step e = some r') : Stilled r r' := by
  have hsame : Stilled r r := .refl hclosed
  refine step_rule hstep { hsame with } (fun _ => stilled_turn hclosed _ _) ?_
    (stilled_persist hclosed) (stilled_openEpisodeLocked hclosed) hsame ?_
    { hsame with closed := rfl }
  · intro id r' hland
    obtain ⟨w, hrange, -, rfl⟩ := land_eq_some hland
    exact { hsame with }
  · intro wall r' hretry
    rcases retryWrite_eq_some hretry with ⟨rfl, -⟩ | ⟨-, hopen, -⟩
    · exact { hsame with retries_le := Nat.sub_le .. }
    · exact absurd (hopen.symm.trans hclosed) (by decide)

/-- **A stopped clock** issues no value, starts no write and arms no retry, in any run. -/
theorem stilled_runAll (hclosed : r.closed = true) {es : List ClockEvent}
    (hrun : runAll ClockRun.step r es = some r') : Stilled r r' :=
  runAll_invariant (I := Stilled r) (fun _ _ _ hs hstep => hs.trans (stilled_step hs.closed hstep))
    (.refl hclosed) hrun

/-! ## Writes, episodes and the stop -/

/-- How the writes of a clock are supervised, in one state. -/
structure Supervised (r : ClockRun) : Prop where
  one_write : r.writers.length ≤ 1
  watched : r.episode = true → r.closed = false →
    r.writers ≠ [] ∨ (r.retry = true ∧ 0 < r.retries)
  /-- An episode ends only when the completed coverage is at least every value issued. -/
  ends_covered : ∀ e r', r.step e = some r' → r.episode = true → r'.episode = false →
    r'.covered ∈ r'.completed ∧ ∀ value ∈ r'.issued, value ≤ r'.covered
  /-- After a stop no value is issued, no write starts and no retry is armed. -/
  stop_final : ∀ es r', runAll ClockRun.step r.stop es = some r' →
    r'.issued = r.issued ∧ r'.passed = r.passed ∧ r'.writes = r.writes ∧ r'.retry = false ∧
      r'.retries ≤ r.retries
  /-- A channel that a stop returned is closed only when no write is outstanding. -/
  stop_waits : ∀ channel ∈ r.stopped, r.channelClosed channel = true → r.writers = []

theorem Outstanding.writers_eq_nil_iff (h : r.Outstanding) : r.writers = [] ↔ r.write = none := by
  unfold Outstanding at h
  cases hwrite : r.write with
  | none =>
    rw [hwrite] at h
    simp [h]
  | some id =>
    rw [hwrite] at h
    obtain ⟨-, landed, hwriters, -⟩ := h
    simp [hwriters]

/-- At most one write is under way. -/
theorem Outstanding.length_le (h : r.Outstanding) : r.writers.length ≤ 1 := by
  unfold Outstanding at h
  split at h
  · simp [h]
  · obtain ⟨-, landed, hwriters, -⟩ := h
    simp [hwriters]

/-- The channel that a stop returned stays open until its write ended. -/
theorem Sound.stop_waits (h : r.Sound) (hstopping : r.Stopping) {channel : Option Nat}
    (hmem : channel ∈ r.stopped) (hclosed : r.channelClosed channel = true) : r.writers = [] := by
  rcases hstopping.stopped_write channel hmem with hnone | hsame
  · exact h.outstanding.writers_eq_nil_iff.mpr hnone
  · cases channel with
    | none => exact h.outstanding.writers_eq_nil_iff.mpr hsame
    | some id =>
      -- its write is the outstanding one, so its channel is still open
      have hout := h.outstanding
      simp only [Outstanding, hsame] at hout
      obtain ⟨-, landed, hwriters, -⟩ := hout
      simp [channelClosed, writer, hwriters] at hclosed

/-- The three invariants are the supervision of the writes. -/
theorem Sound.supervised (h : r.Sound) (hwatched : r.Watched) (hstopping : r.Stopping) :
    r.Supervised where
  one_write := h.outstanding.length_le
  watched := by
    intro hepisode hopen
    rcases hwatched hepisode hopen with hwrite | hretry
    · left
      intro hnil
      rw [h.outstanding.writers_eq_nil_iff.mp hnil] at hwrite
      cases hwrite
    · exact .inr ⟨hretry, hstopping.retry_pending hretry⟩
  ends_covered := by
    intro e r' hstep _ hended
    have h' := h.step hstep
    exact ⟨h'.covered_greatest.1,
      fun value hvalue => (h'.issued_le value hvalue).trans (h'.last_le hended)⟩
  stop_final := by
    intro es r' hrun
    have hstilled := stilled_runAll rfl hrun
    have hstopping' : r'.Stopping :=
      runAll_invariant (fun _ _ _ hs hstep => hs.step hstep) hstopping.stop hrun
    exact ⟨hstilled.issued_eq, hstilled.passed_eq, hstilled.writes_eq,
      hstopping'.retry_closed hstilled.closed, hstilled.retries_le⟩
  stop_waits := fun _ hmem hclosed => h.stop_waits hstopping hmem hclosed

/-- **In every run the writes are supervised**: one at a time, retried while an episode is open, and
none after the stop. -/
theorem supervised_runAll {found : Option Mark} {wall : Int} {r₀ r : ClockRun}
    {es : List ClockEvent} (hstart : newDurableSigningClock found wall = some r₀)
    (hrun : runAll ClockRun.step r₀ es = some r) : r.Supervised := by
  have hsound := sound_runAll hstart hrun
  obtain ⟨start, -, rfl⟩ := newDurableSigningClock_eq_some hstart
  have hwatched : r.Watched :=
    runAll_invariant (fun _ _ _ hs hstep => hs.step hstep) (fun hfalse => by cases hfalse) hrun
  have hstopping : r.Stopping := by
    refine runAll_invariant (fun _ _ _ hs hstep => hs.step hstep) ?_ hrun
    exact
      { retry_pending := fun hfalse => by cases hfalse
        retry_closed := fun _ => rfl
        stopped_closed := by simp [started]
        stopped_write := by simp [started] }
  exact hsound.supervised hwatched hstopping

/-- A value past the coverage waits, an episode opens, the value is issued, and the clock is stopped
while the write is outstanding. -/
def stalledRun : List ClockEvent :=
  [.call, .next 0 5000, .boundTimer 0, .next 0 5000, .stop]

theorem supervised_runAll_stalledRun :
    ∃ r₀ r, newDurableSigningClock none 0 = some r₀ ∧ runAll ClockRun.step r₀ stalledRun = some r ∧
      r.issued = [5000] ∧ r.episode = true ∧ r.stopped = [some 0] ∧ r.Supervised :=
  ⟨_, _, rfl, rfl, rfl, rfl, rfl, @supervised_runAll none 0 _ _ stalledRun rfl rfl⟩

end ClockRun

end OriGateway
