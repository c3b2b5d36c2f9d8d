import OriGateway.Evidence.Routing
import OriGateway.Foundation.FsProgram
import OriGateway.Foundation.Int64
import OriGateway.Foundation.Runs

/-! # The evidence signing clock

The clock that issues the signing times of the messages the gateway emits from durable state. Each
of the two families keeps its own high-water mark, which is written before a time is returned, so
that a restart under any wall clock signs later than before. **`MarkHistory`** is the processes that
use one directory: calls, restarts and losses of power. -/

namespace OriGateway

open Foundation

/-! ## The clock -/

/-- A family of messages the gateway signs. -/
inductive SigningFamily where
  | outboundAck
  | inboundReturn
  deriving DecidableEq

def signingFilePrefix : Bytes := ascii ".ori-signed-at-"

def SigningFamily.fileName : SigningFamily → Bytes
  | outboundAck => signingFilePrefix ++ ascii "outbound-ack"
  | inboundReturn => signingFilePrefix ++ ascii "inbound-return"

def SigningFamily.scratch (family : SigningFamily) : Bytes := family.fileName ++ ascii "."

/-- The last time issued, as the process keeps it. -/
structure EvidenceClock where
  last : Int
  deriving DecidableEq

/-- Why a clock is not opened. -/
inductive SigningClockError where
  /-- "acknowledgement clock is not a regular file". -/
  | notRegular
  /-- "acknowledgement clock is corrupt". -/
  | corrupt
  deriving DecidableEq

/-- `strconv.ParseInt` of base 10. -/
def parseInt64 (text : Bytes) : Option Int :=
  (match text with
    | 43 :: ds => if ds ≠ [] ∧ ds.all isDigit then some (parseDigits ds : Int) else none
    | _ => parseInt text).filter fun z => decide (InInt64 z)

/-- The mark a file holds. -/
def markOf (f : File) : Except SigningClockError Int :=
  if f.kind ≠ .regular then .error .notRegular
  else
    match parseInt64 (trimSpace f.data) with
    | some last => if last < 0 then .error .corrupt else .ok last
    | none => .error .corrupt

/-- The clock of a family's file. -/
def openSigningClock (family : SigningFamily) (d : Directory) :
    Except SigningClockError EvidenceClock :=
  match d.lookup family.fileName with
  | none => .ok ⟨0⟩
  | some f => (markOf f).map EvidenceClock.mk

namespace EvidenceClock

def markText (mark : Int) : Bytes := formatInt mark ++ [10]

def persist (family : SigningFamily) (mark : Int) : FsM EvidenceClock (Except ReplaceError Unit) :=
  atomicReplace family.scratch family.fileName (markText mark)

def candidate (c : EvidenceClock) (wall : Int) : Int :=
  if wall ≤ c.last then int64 (c.last + 1) else wall

/-- **The next signing time**, after it is written. -/
def next (family : SigningFamily) (wall : Int) : FsM EvidenceClock (Except ReplaceError Int) := do
  let c ← FsM.getMem
  match ← persist family (c.candidate wall) with
  | .error e => return .error e
  | .ok () =>
    FsM.modifyMem fun _ => ⟨c.candidate wall⟩
    return .ok (c.candidate wall)

end EvidenceClock

/-! ## The history of a directory -/

/-- A time that was issued, with the directory at that moment. -/
structure IssuedTime where
  value : Int
  store : Store

/-- What happens to a directory with a family's mark. -/
structure MarkHistory where
  process : World EvidenceClock
  running : Bool
  issued : List IssuedTime

/-- What can happen. -/
inductive MarkHistoryEvent where
  /-- The next time is asked for, and the file-system calls end as the script says. -/
  | next (wall : Int) (script : List Outcome)
  /-- The process ends, if it runs, and another one opens the clock. -/
  | restart
  /-- Power is lost and a directory is left; then a process opens the clock. -/
  | powerLoss (left : Directory)

namespace MarkHistory

/-- The clock opened from a store. -/
def reopened (family : SigningFamily) (h : MarkHistory) (s : Store) : MarkHistory :=
  match openSigningClock family s.live with
  | .ok c => { h with process := ⟨c, s, [], h.process.temps⟩, running := true }
  | .error _ => { h with process := { h.process with store := s }, running := false }

/-- One event of a history. -/
def step (family : SigningFamily) (h : MarkHistory) : MarkHistoryEvent → Option MarkHistory
  | .next wall script =>
    if h.running then
      match EvidenceClock.next family wall { h.process with script := script } with
      | .done (.ok value) w => some ⟨w, true, h.issued ++ [⟨value, w.store⟩]⟩
      | .done (.error _) w => some { h with process := w }
      | .crashed w => some { h with process := w, running := false }
    else none
  | .restart => some (h.reopened family h.process.store)
  | .powerLoss left => some (h.reopened family (.ofDirectory left))

def first (family : SigningFamily) (d : Directory) : MarkHistory :=
  reopened family ⟨⟨⟨0⟩, .ofDirectory d, [], 0⟩, false, []⟩ (.ofDirectory d)

/-- The events that can happen: the wall clock reads below `2 ^ 62`, and a loss of power leaves a
directory that may be left. -/
def Possible (h : MarkHistory) : MarkHistoryEvent → Prop
  | .next wall _ => wall < 2 ^ 62
  | .restart => True
  | .powerLoss left => h.process.store.Survives left

end MarkHistory

/-! ## The mark on disk -/

theorem markOf_replacement {mark : Int} (hnonneg : 0 ≤ mark) (hmax : mark ≤ maxInt64) :
    markOf (replacement (EvidenceClock.markText mark)) = .ok mark := by
  have hdigits : ∀ b ∈ formatInt mark, isDigit b = true := by
    rw [formatInt, if_neg (not_lt.mpr hnonneg)]
    exact decimal_isDigit _
  have hspace : ∀ n, 48 ≤ n → n ≤ 57 → isWhiteSpace n = false := by
    intro n hlow hhigh
    interval_cases n <;> rfl
  have htrim : trimSpace (EvidenceClock.markText mark) = formatInt mark := by
    refine Utf8.trim_append (fun b hb => ?_) ?_
    · have hd := hdigits b hb
      simp only [isDigit, Bool.and_eq_true, decide_eq_true_eq] at hd
      exact ⟨by omega, hspace _ hd.1 hd.2⟩
    · rintro b hb
      obtain rfl := List.mem_singleton.mp hb
      decide
  have hparse : parseInt64 (formatInt mark) = some mark := by
    have hplus : ∀ ds, formatInt mark ≠ 43 :: ds := by
      intro ds heq
      exact absurd (hdigits 43 (heq ▸ List.mem_cons_self)) (by decide)
    unfold parseInt64
    split
    · next ds heq => exact absurd heq (hplus ds)
    · rw [parseInt_formatInt]
      refine Option.filter_eq_some_iff.mpr ⟨rfl, ?_⟩
      unfold maxInt64 at hmax
      exact decide_eq_true ⟨by omega, by omega⟩
  have hdata : (replacement (EvidenceClock.markText mark)).data = EvidenceClock.markText mark := rfl
  unfold markOf
  rw [if_neg (by simp [replacement]), hdata, htrim, hparse]
  exact if_neg (not_lt.mpr hnonneg)

/-- **What the mark's file may hold**: before a time was issued nothing, and otherwise a mark that
is no earlier than every time issued, and at most `top`. -/
def Covers (issued : List IssuedTime) (top : Int) : Option File → Prop
  | none => issued = []
  | some f =>
    ∃ mark, f = replacement (EvidenceClock.markText mark) ∧ 0 ≤ mark ∧ mark ≤ top ∧ ∀ t ∈ issued,
    t.value ≤ mark

theorem Covers.mono {issued : List IssuedTime} {top top' : Int} (h : top ≤ top') {v : Option File}
    (hv : Covers issued top v) : Covers issued top' v := by
  cases v with
  | none => exact hv
  | some f =>
    obtain ⟨mark, hf, hnonneg, hle, hissued⟩ := hv
    exact ⟨mark, hf, hnonneg, hle.trans h, hissued⟩

theorem SigningFamily.not_scratch (family : SigningFamily) :
    ¬ family.scratch <+: family.fileName := by
  intro h
  have hle := h.length_le
  simp [scratch, ascii] at hle

/-- What a process sees of the mark, and what may be left of it, is covered. -/
def CoversStore (family : SigningFamily) (issued : List IssuedTime) (top : Int) (s : Store) :
    Prop :=
  Covers issued top (s.live.lookup family.fileName) ∧ ∀ v, s.MayHold family.fileName v →
  Covers issued top v

namespace CoversStore

variable {family : SigningFamily} {issued : List IssuedTime} {top : Int} {s s' : Store}

theorem of_agrees (h : CoversStore family issued top s) (ha : Store.Agrees family.scratch s s') :
    CoversStore family issued top s' := by
  refine ⟨?_, fun v hv => h.2 v (hv.of_agrees ha.symm family.not_scratch)⟩
  rw [← ha.live _ family.not_scratch]
  exact h.1

theorem put (h : CoversStore family issued top s) {f : File} (hf : Covers issued top (some f)) :
    CoversStore family issued top (s.put family.fileName f) := by
  refine ⟨?_, fun v hv => ?_⟩
  · rw [Store.put_live, Finmap.lookup_insert]
    exact hf
  · rcases hv with hv | hv
    · exact h.2 v (.inl hv)
    · rcases List.mem_cons.mp hv with heq | hv
      · cases heq
        exact hf
      · exact h.2 v (.inr hv)

/-- A directory with nothing pending, such as a flushed one, is covered as it stands. -/
theorem ofDirectory {d : Directory} (h : Covers issued top (d.lookup family.fileName)) :
    CoversStore family issued top (.ofDirectory d) := by
  refine ⟨h, fun v hv => ?_⟩
  rcases hv with rfl | hv
  · exact h
  · cases hv

/-- What a loss of power leaves is covered: a mark is flushed before it is put in place. -/
theorem survives (h : CoversStore family issued top s) {d : Directory} (hd : s.Survives d) :
    Covers issued top (d.lookup family.fileName) := by
  obtain ⟨v, hv, htorn⟩ := hd family.fileName
  have hcovers := h.2 v hv
  rw [Store.torn_of_synced (fun f hf => ?_) htorn]
  · exact hcovers
  · rw [hf] at hcovers
    obtain ⟨mark, rfl, -⟩ := hcovers
    rfl

end CoversStore

/-! ## A call -/

/-- **How a call for the next time ends**: it is written and returned; or the call fails, or the
process crashes, with the mark replaced or not. -/
theorem EvidenceClock.wp_next {family : SigningFamily} {wall : Int} {w : World EvidenceClock}
    {Q : Except ReplaceError Int → World EvidenceClock → Prop} {C : World EvidenceClock → Prop}
    (hok : ∀ w', w'.mem = ⟨w.mem.candidate wall⟩ →
      Store.Agrees family.scratch
        (w.store.put family.fileName (replacement (markText (w.mem.candidate wall)))).sync
          w'.store → Q (.ok (w.mem.candidate wall)) w')
    (herror : ∀ e w', w'.mem = w.mem → Store.Agrees family.scratch w.store w'.store ∨
      Store.Agrees family.scratch
        (w.store.put family.fileName (replacement (markText (w.mem.candidate wall)))) w'.store →
        Q (.error e) w')
    (hcrash : ∀ w', w'.mem = w.mem → Store.Agrees family.scratch w.store w'.store ∨
      Store.Agrees family.scratch
        (w.store.put family.fileName (replacement (markText (w.mem.candidate wall)))) w'.store →
        C w') : wp (next family wall) Q C w := by
  unfold next persist
  simp only [wp_bind, wp_getMem]
  refine wp_atomicReplace ?_ ?_ ?_ hcrash
  · intro w' _ hmem _ hstore
    simp only [wp_bind, wp_modifyMem, wp_pure]
    exact hok _ rfl hstore
  · intro w' _ hmem hstore
    exact herror _ w' hmem (.inr hstore)
  · intro e w' _ _ hmem hstore
    exact herror e w' hmem (.inl hstore)

/-- A time that can be issued is past the last one, unless that is the greatest there is. -/
theorem EvidenceClock.lt_candidate {c : EvidenceClock} (wall : Int) (hnonneg : 0 ≤ c.last)
    (hlast : c.last < maxInt64) :
    c.last < c.candidate wall ∧ (c.candidate wall = c.last + 1 ∨ c.candidate wall = wall) := by
  unfold candidate
  split
  · have heq : int64 (c.last + 1) = c.last + 1 := by
      unfold maxInt64 at hlast
      exact int64_eq ⟨by omega, by omega⟩
    rw [heq]
    exact ⟨by omega, .inl rfl⟩
  · next h => exact ⟨not_le.mp h, .inr rfl⟩

/-! ## The history -/

def markIn (family : SigningFamily) (d : Directory) : Option Int :=
  (d.lookup family.fileName).bind fun f => (markOf f).toOption

/-- A time is at most the mark that a process sees and that every loss of power leaves. -/
def IssuedTime.Marked (family : SigningFamily) (t : IssuedTime) : Prop :=
  (∃ mark, markIn family t.store.live = some mark ∧ t.value ≤ mark) ∧
    ∀ d, t.store.Survives d → ∃ mark, markIn family d = some mark ∧ t.value ≤ mark

theorem markIn_of_covers {family : SigningFamily} {issued : List IssuedTime} {d : Directory}
    (h : Covers issued maxInt64 (d.lookup family.fileName)) {t : IssuedTime} (ht : t ∈ issued) :
    ∃ mark, markIn family d = some mark ∧ t.value ≤ mark := by
  cases hf : d.lookup family.fileName with
  | none =>
    rw [hf] at h
    rw [show issued = [] from h] at ht
    cases ht
  | some f =>
    rw [hf] at h
    obtain ⟨mark, rfl, hnonneg, hmax, hissued⟩ := h
    refine ⟨mark, ?_, hissued t ht⟩
    simp [markIn, hf, markOf_replacement hnonneg hmax, Except.toOption]

/-- **What holds of a directory throughout.** -/
structure MarkHistory.Ordered (family : SigningFamily) (top : Int) (h : MarkHistory) : Prop where
  covers : CoversStore family h.issued top h.process.store
  last : h.running = true → 0 ≤ h.process.mem.last ∧ h.process.mem.last ≤ top ∧ ∀ t ∈ h.issued,
    t.value ≤ h.process.mem.last
  increasing : h.issued.Pairwise fun t t' => t.value < t'.value
  marked : ∀ t ∈ h.issued, t.Marked family

namespace MarkHistory

variable {family : SigningFamily} {top : Int} {h h' : MarkHistory} {e : MarkHistoryEvent}

theorem Ordered.reopened (hh : Ordered family top h) (htop : top ≤ maxInt64) (hzero : 0 ≤ top)
    {s : Store} (hs : CoversStore family h.issued top s) :
    Ordered family top (h.reopened family s) ∧
      (h.reopened family s).running = true := by
  unfold MarkHistory.reopened openSigningClock
  cases hf : s.live.lookup family.fileName with
  | none =>
    have hnone : h.issued = [] := by
      have hlive := hs.1
      rwa [hf] at hlive
    exact ⟨⟨hs, fun _ => ⟨le_refl _, hzero, by rw [hnone]; nofun⟩, hh.increasing, hh.marked⟩, rfl⟩
  | some f =>
    have hlive := hs.1
    rw [hf] at hlive
    obtain ⟨mark, rfl, hnonneg, hle, hissued⟩ := hlive
    dsimp only
    rw [markOf_replacement hnonneg (hle.trans htop)]
    exact ⟨⟨hs, fun _ => ⟨hnonneg, hle, hissued⟩, hh.increasing, hh.marked⟩, rfl⟩

theorem Ordered.survives (hh : Ordered family top h) {d : Directory}
    (hd : h.process.store.Survives d) : CoversStore family h.issued top (.ofDirectory d) :=
  .ofDirectory (hh.covers.survives hd)

/-- A call that issues nothing replaces the mark or not, and either covers what was issued. -/
theorem Ordered.unissued (hh : Ordered family top h) (hrunning : h.running = true) {f : File}
    (hnew : Covers h.issued top (some f)) {w' : World EvidenceClock}
    (hmem : w'.mem = h.process.mem)
    (hstore : Store.Agrees family.scratch h.process.store w'.store ∨
      Store.Agrees family.scratch (h.process.store.put family.fileName f) w'.store)
    (running : Bool) : Ordered family top { h with process := w', running := running } where
  covers := by
    rcases hstore with ha | ha
    · exact hh.covers.of_agrees ha
    · exact (hh.covers.put hnew).of_agrees ha
  last _ := by
    show 0 ≤ w'.mem.last ∧ w'.mem.last ≤ top ∧ ∀ t ∈ h.issued, t.value ≤ w'.mem.last
    rw [hmem]
    exact hh.last hrunning
  increasing := hh.increasing
  marked := hh.marked

/-- A call that issues a time past the last one leaves a mark that covers it. -/
theorem Ordered.issue (hh : Ordered family top h) (htop : top ≤ maxInt64)
    (hrunning : h.running = true) {value : Int} (hlt : h.process.mem.last < value)
    (hle : value ≤ top) {w' : World EvidenceClock} (hmem : w'.mem = ⟨value⟩)
    (hstore : Store.Agrees family.scratch (h.process.store.put family.fileName
      (replacement (EvidenceClock.markText value))).sync w'.store) :
    Ordered family top ⟨w', true, h.issued ++ [⟨value, w'.store⟩]⟩ := by
  obtain ⟨hnonneg, -, hissued⟩ := hh.last hrunning
  have hall : ∀ t ∈ h.issued ++ [⟨value, w'.store⟩], t.value ≤ value := by
    intro t ht
    rcases List.mem_append.mp ht with ht | ht
    · exact (hissued t ht).trans hlt.le
    · obtain rfl := List.mem_singleton.mp ht
      exact le_refl _
  have hafter : CoversStore family (h.issued ++ [⟨value, w'.store⟩]) top w'.store := by
    refine CoversStore.of_agrees (CoversStore.ofDirectory ?_) hstore
    rw [Store.put_live, Finmap.lookup_insert]
    exact ⟨_, rfl, hnonneg.trans hlt.le, hle, hall⟩
  refine ⟨hafter, fun _ => ?_, ?_, fun t ht => ?_⟩
  · show 0 ≤ w'.mem.last ∧ w'.mem.last ≤ top ∧ _
    rw [hmem]
    exact ⟨hnonneg.trans hlt.le, hle, hall⟩
  · refine List.pairwise_append.mpr ⟨hh.increasing, List.pairwise_singleton _ _, ?_⟩
    intro t ht t' ht'
    obtain rfl := List.mem_singleton.mp ht'
    exact (hissued t ht).trans_lt hlt
  · rcases List.mem_append.mp ht with hold | hnow
    · exact hh.marked t hold
    · obtain rfl := List.mem_singleton.mp hnow
      have hmax : CoversStore family _ maxInt64 w'.store :=
        ⟨hafter.1.mono htop, fun v hv => (hafter.2 v hv).mono htop⟩
      exact ⟨markIn_of_covers hmax.1 ht, fun d hd => markIn_of_covers (hmax.survives hd) ht⟩

/-- **A call keeps to it**, when the time it would issue is past the last one. -/
theorem Ordered.next (hh : Ordered family top h) (htop : top ≤ maxInt64) {wall : Int}
    {script : List Outcome} (hrunning : h.running = true)
    (hlt : h.process.mem.last < h.process.mem.candidate wall)
    (hle : h.process.mem.candidate wall ≤ top)
    (hstep : h.step family (.next wall script) = some h') : Ordered family top h' := by
  obtain ⟨hnonneg, -, hissued⟩ := hh.last hrunning
  have hnew : Covers h.issued top
      (some (replacement (EvidenceClock.markText (h.process.mem.candidate wall)))) :=
    ⟨_, rfl, by omega, hle, fun t ht => (hissued t ht).trans hlt.le⟩
  have hwp : wp (EvidenceClock.next family wall)
      (fun r w' => ∀ h', (match r with
        | .ok value => some (⟨w', true, h.issued ++ [⟨value, w'.store⟩]⟩ : MarkHistory)
        | .error _ => some { h with process := w' }) = some h' → Ordered family top h')
      (fun w' => Ordered family top { h with process := w', running := false })
      { h.process with script := script } := by
    refine EvidenceClock.wp_next ?_ ?_ ?_
    · rintro w' hmem hstore _ ⟨⟩
      exact hh.issue htop hrunning hlt hle hmem hstore
    · rintro e w' hmem hstore _ ⟨⟩
      exact hh.unissued hrunning hnew hmem hstore h.running
    · intro w' hmem hstore
      exact hh.unissued hrunning hnew hmem hstore false
  simp only [step] at hstep
  rw [if_pos hrunning] at hstep
  split at hstep
  · next value w' hrun => exact hwp.done hrun h' hstep
  · next e w' hrun => exact hwp.done hrun h' hstep
  · next w' hrun =>
    cases hstep
    exact hwp.crashed hrun

theorem running_of_next {wall : Int} {script : List Outcome}
    (hstep : h.step family (.next wall script) = some h') : h.running = true := by
  cases hr : h.running with
  | true => rfl
  | false => simp [MarkHistory.step, hr] at hstep

/-- What holds below a mark holds below a later one. -/
theorem Ordered.mono (hh : Ordered family top h) {top' : Int} (hle : top ≤ top') :
    Ordered family top' h where
  covers := ⟨hh.covers.1.mono hle, fun v hv => (hh.covers.2 v hv).mono hle⟩
  last hrunning := by
    obtain ⟨hnonneg, hlast, hissued⟩ := hh.last hrunning
    exact ⟨hnonneg, hlast.trans hle, hissued⟩
  increasing := hh.increasing
  marked := hh.marked

/-- **An event moves the last time, and the mark, by one at most** past the wall clock's bound. -/
theorem Ordered.step (hh : Ordered family top h) (hlow : 2 ^ 62 - 1 ≤ top) (htop : top < maxInt64)
    (he : h.Possible e) (hstep : h.step family e = some h') : Ordered family (top + 1) h' := by
  cases e with
  | next wall script =>
    have hwall : wall < 2 ^ 62 := he
    have hrunning := running_of_next hstep
    obtain ⟨hnonneg, hlast, -⟩ := hh.last hrunning
    obtain ⟨hlt, hcase⟩ := EvidenceClock.lt_candidate wall hnonneg (hlast.trans_lt htop)
    refine (hh.mono (by omega)).next (by omega) hrunning hlt ?_ hstep
    rcases hcase with heq | heq <;> omega
  | restart =>
    cases hstep
    exact (hh.reopened htop.le (by omega) hh.covers).1.mono (by omega)
  | powerLoss left =>
    cases hstep
    exact (hh.reopened htop.le (by omega) (hh.survives he)).1.mono (by omega)

theorem ordered_first {d : Directory} (hnone : d.lookup family.fileName = none)
    (htop : top ≤ maxInt64) (hzero : 0 ≤ top) : Ordered family top (first family d) := by
  have hcovers : CoversStore family [] top (.ofDirectory d) := .ofDirectory (by rw [hnone]; rfl)
  have hempty : Ordered family top ⟨⟨⟨0⟩, .ofDirectory d, [], 0⟩, false, []⟩ :=
    ⟨hcovers, fun hr => (by cases hr), List.Pairwise.nil, fun t ht => (by cases ht)⟩
  exact (hempty.reopened htop hzero hcovers).1

/-- **A history keeps to it** while its events leave room below the greatest time. -/
theorem Ordered.run {es : List MarkHistoryEvent} (hh : Ordered family top h)
    (hlow : 2 ^ 62 - 1 ≤ top) (hroom : top + es.length ≤ maxInt64)
    (hes : StepsMeet (MarkHistory.step family) Possible h es)
    (hrun : runAll (MarkHistory.step family) h es = some h') : Ordered family maxInt64 h' := by
  induction es generalizing h top with
  | nil =>
    cases hrun
    exact hh.mono (by simpa using hroom)
  | cons e es ih =>
    obtain ⟨h₁, hstep, hrest⟩ := runAll_cons.mp hrun
    rw [List.length_cons] at hroom
    push_cast at hroom
    exact ih (hh.step hlow (by omega) hes.1 hstep) (by omega) (by omega) (hes.2 h₁ hstep) hrest

end MarkHistory

/-- **The times ascend, each covered by the mark.** In every history of a directory that had no
mark, of fewer than `2 ^ 62` calls whose file-system calls end in any way, restarts and losses of
power, with every wall reading below `2 ^ 62`: the times ascend strictly across all processes, each
was at most the mark on disk when it was returned, whatever a loss of power would have left of it,
and a process that opens the clock can. -/
theorem issued_increasing (family : SigningFamily) {d : Directory}
    (hnone : d.lookup family.fileName = none) {es : List MarkHistoryEvent} {h : MarkHistory}
    (hlen : es.length < 2 ^ 62)
    (hes : StepsMeet (MarkHistory.step family) MarkHistory.Possible (.first family d) es)
    (hrun : runAll (MarkHistory.step family) (.first family d) es = some h) :
    h.issued.Pairwise (fun t t' => t.value < t'.value) ∧ (∀ t ∈ h.issued, t.Marked family) ∧
      (h.reopened family h.process.store).running = true := by
  have hfirst : MarkHistory.Ordered family (2 ^ 62 - 1) (.first family d) :=
    MarkHistory.ordered_first hnone (by decide) (by decide)
  have hroom : (2 ^ 62 - 1 : Int) + es.length ≤ maxInt64 := by
    unfold maxInt64
    omega
  have hh := hfirst.run (le_refl _) hroom hes hrun
  exact ⟨hh.increasing, hh.marked, (hh.reopened (le_refl _) (by decide) hh.covers).2⟩

/-- Calls of which one fails after the mark was replaced and one crashes before it, with a restart
under a wall clock that went back. -/
def regressingEvents : List MarkHistoryEvent :=
  [.next 5 [], .next 9 [.done, .done, .done, .done, .done, .done, .fails], .next 3 [],
    .next 8 [.done, .crashes], .restart, .next 0 []]

/-- The times are issued in order all the same. -/
theorem issued_increasing_regressingEvents :
    ∃ h, runAll (MarkHistory.step .outboundAck) (.first .outboundAck ∅) regressingEvents = some h ∧
      h.issued.map (·.value) = [5, 6, 7] ∧ h.issued.Pairwise (fun t t' => t.value < t'.value) := by
  obtain ⟨h, hrun, heval⟩ := Option.map_eq_some_iff.mp (by decide +kernel :
    (runAll (MarkHistory.step .outboundAck) (.first .outboundAck ∅) regressingEvents).map
      (fun h => h.issued.map (·.value)) = some [5, 6, 7])
  have hpossible :
    StepsMeet (MarkHistory.step .outboundAck) MarkHistory.Possible (.first .outboundAck ∅)
      regressingEvents := by
    refine (stepsMeet_of_mem (R := fun e => match e with
      | .next wall _ => wall < 2 ^ 62
      | .restart => True
      | .powerLoss _ => False) _ ?_).mono ?_
    · simp [regressingEvents]
    · rintro h (_ | _ | _) he
      · exact he
      · trivial
      · cases he
  exact ⟨h, hrun, heval, (issued_increasing .outboundAck rfl (by decide) hpossible hrun).1⟩

end OriGateway
