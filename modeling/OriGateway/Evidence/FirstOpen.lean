import OriGateway.Evidence.Reopening
import OriGateway.Foundation.Place

/-! # The first open of a queue

A queue makes its own directory and marks it as its own. A directory that exists and has no marker
is refused, so that a queue never takes over a directory of somebody else. The two do not fit
together: a crash after the directory is made and before its marker is complete and flushed leaves a
directory that every later start refuses (`first_open_crash_leaves_refused_directory`). The next
open succeeds, with an empty queue, exactly where the crash left no directory or the complete marker
(`first_open_recovers`). -/

namespace OriGateway

open Foundation DurableQueue

/-- Why a queue's path is not opened. -/
inductive PathError where
  /-- "inspect queue directory". -/
  | inspect
  /-- "create queue parent directory". -/
  | createParent
  /-- "create queue directory". -/
  | create
  /-- "protect queue directory". -/
  | protect
  /-- "queue path must be a directory, not a symlink or file". -/
  | notDirectory
  /-- "queue directory must not be accessible by group or other users". -/
  | notPrivate
  /-- "create queue ownership marker". -/
  | createMarker
  /-- "write queue ownership marker". -/
  | writeMarker
  /-- "sync queue ownership marker". -/
  | syncMarker
  /-- "close queue ownership marker". -/
  | closeMarker
  /-- "persist queue ownership marker". -/
  | persistMarker
  /-- The options, the marker or the directory's files are refused. -/
  | refused (e : OpenError)
  deriving DecidableEq

def maskedPerm (mode umask : Nat) : Nat := mode &&& (0o777 ^^^ (umask &&& 0o777))

/-- Write, flush and close the marker that was just created, and flush the directory. A marker that
was not completed is removed. -/
def completeQueueMarker : FsM Place (Except PathError Unit) := do
  if !(← rewriteFile queueMarkerName fun f => { f with data := queueMarkerBody }) then
    let _ ← call id
    let _ ← unlink queueMarkerName
    return .error .writeMarker
  if !(← rewriteFile queueMarkerName fun f => { f with synced := true }) then
    let _ ← call id
    let _ ← unlink queueMarkerName
    return .error .syncMarker
  if !(← call id) then
    let _ ← unlink queueMarkerName
    return .error .closeMarker
  if !(← syncDirectory) then
    return .error .persistMarker
  return .ok ()

/-- Check the marker that is there: its entry is inspected, then its content is read. -/
def checkQueueMarker : FsM Place (Except PathError Unit) := do
  let inspected ← call id
  let d ← readLive
  match d.lookup queueMarkerName with
  | none => return .error (.refused .invalidMarker)
  | some f =>
    if inspected = false ∨ f.kind ≠ .regular ∨ f.isPrivate = false then
      return .error (.refused .invalidMarker)
    let read ← call id
    if read = false ∨ f.data ≠ queueMarkerBody then
      return .error (.refused .markerMismatch)
    return .ok ()

/-- Whether a marker is there, as far as can be seen: a failed inspection does not say it is not. -/
def seesQueueMarker : FsM Place Bool := do
  let inspected ← call id
  let d ← readLive
  return !inspected || (d.lookup queueMarkerName).isSome

/-- Create the marker of a directory that was just made, and check that of any other. -/
def ensureQueueMarkerAt (umask : Nat) (mayCreate : Bool) : FsM Place (Except PathError Unit) := do
  let known ← if mayCreate then pure true else seesQueueMarker
  if !known then
    return .error (.refused .noMarker)
  match ← createExclusive queueMarkerName (maskedPerm 0o600 umask) with
  | .created => completeQueueMarker
  | .exist => checkQueueMarker
  | .failed => return .error .createMarker

/-- Check what stands at the queue's path. -/
def checkQueueDirectory (umask : Nat) (created : Bool) : Lstat → FsM Place (Except PathError Unit)
  | .entry kind perm =>
    if kind ≠ .directory then return .error .notDirectory
    else if perm &&& 0o077 ≠ 0 then return .error .notPrivate
    else ensureQueueMarkerAt umask created
  | .failed | .notExist => return .error .inspect

/-- **Make the queue's directory, or check the one that is there.** -/
def ensurePrivateQueueDirectory (umask : Nat) : FsM Place (Except PathError Unit) := do
  match ← lstatPlace with
  | .notExist =>
    if !(← call id) then
      return .error .createParent
    match ← makePlace (maskedPerm 0o700 umask) with
    | .created =>
      if !(← protectPlace 0o700) then
        return .error .protect
      checkQueueDirectory umask true (← lstatPlace)
    | .exist => checkQueueDirectory umask false (← lstatPlace)
    | .failed => return .error .create
  | found => checkQueueDirectory umask false found

/-- Load the queue from its directory. -/
def loadQueuePath (opts : QueueOptions) (d : Directory) : Except PathError DurableQueue := do
  let q ← (reserveShares opts (emptyQueue opts)).mapError .refused
  (load q d).mapError fun e => .refused (.load e)

/-- **Open the queue at a path.** -/
def openQueuePath (umask : Nat) (opts : QueueOptions) : FsM Place (Except PathError DurableQueue) :=
  do
  if opts.maxItems ≤ 0 then
    return .error (.refused .maxItems)
  if opts.maxBytes ≤ 0 then
    return .error (.refused .maxBytes)
  match ← ensurePrivateQueueDirectory umask with
  | .error e => return .error e
  | .ok () =>
    let d ← readLive
    return loadQueuePath opts d

def absentWorld (script : List Outcome) : World Place :=
  ⟨.absent, .ofDirectory ∅, script, 0⟩

/-! ## What a first open may leave -/

/-- A file as a queue makes it. -/
def IsQueueFile (f : File) : Prop := f.kind = .regular ∧ f.isPrivate = true

/-- **What a first open leaves at every point**: at the path nothing or a private directory, with no
file but a marker that the queue made. -/
structure FirstOpening (w : World Place) : Prop where
  entries : ∀ kind perm, some (kind, perm) ∈ w.mem.entries →
    kind = .directory ∧ perm &&& 0o077 = 0
  entry : w.mem.entry ∈ w.mem.entries
  only : w.store.Only queueMarkerName IsQueueFile

theorem maskedPerm_private {mode umask : Nat} (h : mode &&& 0o077 = 0) :
    maskedPerm mode umask &&& 0o077 = 0 := by
  rw [maskedPerm, Nat.land_assoc, Nat.land_comm _ 0o077, ← Nat.land_assoc, h, Nat.zero_and]

namespace FirstOpening

theorem absentWorld (script : List Outcome) : FirstOpening (absentWorld script) where
  entries := by simp [OriGateway.absentWorld, Place.absent]
  entry := by simp [OriGateway.absentWorld, Place.absent]
  only := Store.Only.empty _ _

theorem next (w : World Place) (h : FirstOpening w) : FirstOpening w.next :=
  ⟨h.entries, h.entry, h.only⟩

theorem onStore {f : Store → Store}
    (hf : ∀ s, s.Only queueMarkerName IsQueueFile → (f s).Only queueMarkerName IsQueueFile)
    (w : World Place) (h : FirstOpening w) : FirstOpening (w.onStore f) :=
  ⟨h.entries, h.entry, hf _ h.only⟩

theorem set {e : PathEntry} {w : World Place}
    (he : ∀ kind perm, e = some (kind, perm) → kind = .directory ∧ perm &&& 0o077 = 0)
    (h : FirstOpening w) : FirstOpening { w with mem := w.mem.set e } where
  entries kind perm hmem := by
    rcases List.mem_cons.mp hmem with heq | hmem
    · exact he kind perm heq.symm
    · exact h.entries kind perm hmem
  entry := List.mem_cons_self
  only := h.only

/-! Each program of a first open keeps it. -/

theorem preserves_wait : Preserves FirstOpening (call id) :=
  preserves_call next fun _ h => h

theorem preserves_rewriteMarker {g : File → File} (hg : ∀ f, IsQueueFile f → IsQueueFile (g f)) :
    Preserves FirstOpening (rewriteFile queueMarkerName g) :=
  preserves_call next (onStore fun _ hs => hs.rewrite hg)

theorem preserves_unlinkMarker : Preserves FirstOpening (unlink queueMarkerName) :=
  preserves_unlink next (onStore fun _ hs => hs.del)

theorem preserves_completeQueueMarker : Preserves FirstOpening completeQueueMarker := by
  have hdrop : ∀ e : PathError, Preserves FirstOpening (do
      let _ ← call id
      let _ ← unlink queueMarkerName
      return (.error e : Except PathError Unit)) := fun e =>
    preserves_wait.bind fun _ => preserves_unlinkMarker.bind fun _ => preserves_pure _
  unfold completeQueueMarker
  refine Preserves.bind (preserves_rewriteMarker fun _ h => h) fun _ => Preserves.ite (hdrop _) ?_
  refine Preserves.bind (preserves_rewriteMarker fun _ h => h) fun _ => Preserves.ite (hdrop _) ?_
  refine preserves_wait.bind fun _ =>
    .ite (preserves_unlinkMarker.bind fun _ => preserves_pure _) ?_
  refine Preserves.bind (preserves_call next (onStore fun _ hs => hs.sync)) fun _ => ?_
  exact .ite (preserves_pure _) (preserves_pure _)

theorem preserves_checkQueueMarker : Preserves FirstOpening checkQueueMarker := by
  unfold checkQueueMarker
  refine preserves_wait.bind fun _ => preserves_readLive.bind fun d => ?_
  split
  · exact preserves_pure _
  · refine .ite (preserves_pure _) (preserves_wait.bind fun _ => ?_)
    exact .ite (preserves_pure _) (preserves_pure _)

theorem preserves_ensureQueueMarkerAt (umask : Nat) (mayCreate : Bool) :
    Preserves FirstOpening (ensureQueueMarkerAt umask mayCreate) := by
  have hsees : Preserves FirstOpening seesQueueMarker :=
    preserves_wait.bind fun _ => preserves_readLive.bind fun _ => preserves_pure _
  have hmarker : ∀ known : Bool, Preserves FirstOpening (do
      if !known then
        return .error (.refused .noMarker)
      match ← createExclusive queueMarkerName (maskedPerm 0o600 umask) with
      | .created => completeQueueMarker
      | .exist => checkQueueMarker
      | .failed => return .error .createMarker) := by
    intro known
    have hmade : IsQueueFile ⟨.regular, maskedPerm 0o600 umask, [], false⟩ :=
      ⟨rfl, beq_iff_eq.mpr (maskedPerm_private rfl)⟩
    refine .ite (preserves_pure _) ?_
    refine (preserves_createExclusive next (onStore fun _ hs => hs.put hmade)).bind fun made => ?_
    cases made with
    | created => exact preserves_completeQueueMarker
    | exist => exact preserves_checkQueueMarker
    | failed => exact preserves_pure _
  exact .ite ((preserves_pure true).bind hmarker) (hsees.bind hmarker)

theorem preserves_checkQueueDirectory (umask : Nat) (created : Bool) (found : Lstat) :
    Preserves FirstOpening (checkQueueDirectory umask created found) := by
  cases found with
  | entry kind perm =>
    exact .ite (preserves_pure _) (.ite (preserves_pure _) (preserves_ensureQueueMarkerAt _ _))
  | failed => exact preserves_pure _
  | notExist => exact preserves_pure _

theorem preserves_ensurePrivateQueueDirectory (umask : Nat) :
    Preserves FirstOpening (ensurePrivateQueueDirectory umask) := by
  have hlook : ∀ created, Preserves FirstOpening
      (do checkQueueDirectory umask created (← lstatPlace)) := fun created =>
    (preserves_lstatPlace next).bind fun found => preserves_checkQueueDirectory umask created found
  have hmake : Preserves FirstOpening (makePlace (maskedPerm 0o700 umask)) := by
    refine preserves_makePlace next fun w h => h.set ?_
    rintro kind perm ⟨⟩
    exact ⟨rfl, maskedPerm_private (by decide)⟩
  have hprotect : Preserves FirstOpening (protectPlace 0o700) := by
    refine preserves_call next fun w h => h.set fun kind perm heq => ?_
    obtain ⟨⟨kind', perm'⟩, hentry, heq⟩ := Option.map_eq_some_iff.mp heq
    cases heq
    exact ⟨(h.entries kind' perm' (hentry ▸ h.entry)).1, by decide⟩
  unfold ensurePrivateQueueDirectory
  refine (preserves_lstatPlace next).bind fun found => ?_
  cases found with
  | failed => exact preserves_checkQueueDirectory _ _ _
  | entry kind perm => exact preserves_checkQueueDirectory _ _ _
  | notExist =>
    refine preserves_wait.bind fun _ => .ite (preserves_pure _) ?_
    refine hmake.bind fun made => ?_
    cases made with
    | created => exact hprotect.bind fun _ => .ite (preserves_pure _) (hlook true)
    | exist => exact hlook false
    | failed => exact preserves_pure _

/-- **A first open keeps it**, wherever it crashes and whatever fails. -/
theorem preserves_openQueuePath (umask : Nat) (opts : QueueOptions) :
    Preserves FirstOpening (openQueuePath umask opts) := by
  unfold openQueuePath
  refine .ite (preserves_pure _) (.ite (preserves_pure _) ?_)
  refine (preserves_ensurePrivateQueueDirectory umask).bind fun r => ?_
  cases r with
  | error e => exact preserves_pure _
  | ok _ => exact preserves_readLive.bind fun _ => preserves_pure _

end FirstOpening

/-! ## Opening what was left -/

section Reopening

variable {umask : Nat} {opts : QueueOptions}

theorem wp_checkQueueMarker {m : Place} {s : Store} {temps : Nat} {f : File}
    (hf : s.live.lookup queueMarkerName = some f) :
    wp checkQueueMarker (fun r w' => r = (ensureQueueMarker s.live).mapError .refused ∧
      w'.store = s) (fun _ => False) ⟨m, s, [], temps⟩ := by
  by_cases hkind : f.kind ≠ .regular ∨ f.isPrivate = false
  · simp [checkQueueMarker, wp_call, World.outcome, World.next, hf, hkind, ensureQueueMarker,
      Except.mapError]
  · by_cases hdata : f.data = queueMarkerBody
    · simp [checkQueueMarker, wp_call, World.outcome, World.next, hf, hkind, hdata,
        ensureQueueMarker, Except.mapError]
    · simp [checkQueueMarker, wp_call, World.outcome, World.next, hf, hkind, hdata,
        ensureQueueMarker, Except.mapError]

/-- **A private directory that exists is accepted for its marker alone**, and left as it is. -/
theorem wp_ensurePrivateQueueDirectory_existing {perm temps : Nat} {entries : List PathEntry}
    {s : Store} (hperm : perm &&& 0o077 = 0) :
    wp (ensurePrivateQueueDirectory umask)
      (fun r w' => r = (ensureQueueMarker s.live).mapError .refused ∧ w'.store = s)
      (fun _ => False) ⟨⟨some (.directory, perm), entries⟩, s, [], temps⟩ := by
  cases hf : s.live.lookup queueMarkerName with
  | none =>
    simp [ensurePrivateQueueDirectory, wp_lstatPlace, World.outcome, World.next,
      checkQueueDirectory, hperm, ensureQueueMarkerAt, seesQueueMarker, wp_call, hf,
      ensureQueueMarker, Except.mapError]
  | some f =>
    have hcheck : wp checkQueueMarker (fun r w' =>
        r = (ensureQueueMarker s.live).mapError .refused ∧ w'.store = s) (fun _ => False)
        ⟨⟨some (.directory, perm), entries⟩, s, [], temps⟩ := wp_checkQueueMarker hf
    simpa [ensurePrivateQueueDirectory, wp_lstatPlace, World.outcome, World.next,
      checkQueueDirectory, hperm, ensureQueueMarkerAt, seesQueueMarker, wp_call, hf,
      wp_createExclusive] using hcheck

theorem wp_ensurePrivateQueueDirectory_absent {temps : Nat} {entries : List PathEntry} :
    wp (ensurePrivateQueueDirectory umask)
      (fun r w' => r = .ok () ∧ w'.store.live = (∅ : Directory).insert queueMarkerName
        ⟨.regular, maskedPerm 0o600 umask, queueMarkerBody, true⟩)
      (fun _ => False) ⟨⟨none, entries⟩, .ofDirectory ∅, [], temps⟩ := by
  refine ⟨rfl, ?_⟩
  simp [Store.rewrite, Store.ofDirectory]

theorem stores_marked {d : Directory} (honly : ∀ n, n ≠ queueMarkerName → d.lookup n = none)
    (hmarker : ensureQueueMarker d = .ok ()) : Stores d noContent where
  marker := hmarker
  files n hignored _ := by
    have hne : n ≠ queueMarkerName := by
      rintro rfl
      exact hignored (by decide)
    rw [honly n hne]
    cases classify n <;> rfl

theorem loadQueuePath_marked (hopts : Usable opts) {d : Directory}
    (honly : ∀ n, n ≠ queueMarkerName → d.lookup n = none)
    (hmarker : ensureQueueMarker d = .ok ()) :
    ∃ q, loadQueuePath opts d = .ok q ∧ q.entries = ∅ ∧ q.holds = ∅ ∧ q.backoffs = ∅ := by
  obtain ⟨q₀, hshares⟩ := hopts.shares
  have hq₀ := reserveShares_ok hshares
  have hitems : ((noContent.records.keys.card : Nat) : Int) ≤ q₀.maxItems := by
    rw [hq₀]
    exact hopts.items_pos.le
  have hbytes : noContent.bytes ≤ q₀.maxBytes := by
    rw [hq₀]
    exact hopts.bytes_pos.le
  obtain ⟨q, hload, hholds, -⟩ := load_of_stores (stores_marked honly hmarker) valid_noContent
    (loading_reserveShares hshares) (by rw [hq₀]; rfl) (by rw [hq₀]; rfl) hitems hbytes
  refine ⟨q, ?_, hholds.entries, hholds.holds, hholds.backoffs⟩
  simp only [loadQueuePath, hshares, hload, Except.mapError, bind, Except.bind]

/-- An open ends as it does once the directory is there. -/
theorem openQueuePath_ends (hopts : Usable opts) {w : World Place}
    {R : Except PathError Unit → World Place → Prop} {Q : Except PathError DurableQueue → Prop}
    (hdirectory : wp (ensurePrivateQueueDirectory umask) R (fun _ => False) w)
    (hrefused : ∀ e w', R (.error e) w' → Q (.error e))
    (hloaded : ∀ w', R (.ok ()) w' → Q (loadQueuePath opts w'.store.live)) :
    ∃ r w', openQueuePath umask opts w = .done r w' ∧ Q r := by
  have hitems := hopts.items_pos
  have hbytes := hopts.bytes_pos
  have hopens : wp (openQueuePath umask opts) (fun r _ => Q r) (fun _ => False) w := by
    unfold openQueuePath
    rw [if_neg (by omega), if_neg (by omega), wp_bind]
    refine wp_post hdirectory (fun r w' hr => ?_)
    cases r with
    | error e => exact hrefused e w' hr
    | ok => exact hloaded w' hr
  cases hrun : openQueuePath umask opts w with
  | done r w' => exact ⟨r, w', rfl, hopens.done hrun⟩
  | crashed w' => exact (hopens.crashed hrun).elim

/-- The queue is empty when its directory is accepted with no file but the marker. -/
theorem openQueuePath_empty (hopts : Usable opts) {w : World Place}
    (hdirectory : wp (ensurePrivateQueueDirectory umask)
      (fun r w' => r = .ok () ∧ (∀ n, n ≠ queueMarkerName → w'.store.live.lookup n = none) ∧
        ensureQueueMarker w'.store.live = .ok ()) (fun _ => False) w) :
    ∃ q w', openQueuePath umask opts w = .done (.ok q) w' ∧ q.entries = ∅ ∧ q.holds = ∅ ∧
      q.backoffs = ∅ := by
  obtain ⟨r, w', hopen, q, rfl, hempty⟩ := @openQueuePath_ends umask opts hopts w _
    (fun r => ∃ q, r = .ok q ∧ q.entries = ∅ ∧ q.holds = ∅ ∧ q.backoffs = ∅) hdirectory
    (fun _ _ h => nomatch h.1) fun _ h => loadQueuePath_marked hopts h.2.1 h.2.2
  exact ⟨q, w', hopen, hempty⟩

/-- A marker that the queue made is accepted for its content alone. -/
theorem ensureQueueMarker_iff {d : Directory}
    (hfiles : ∀ n f, d.lookup n = some f → n = queueMarkerName ∧ IsQueueFile f) :
    ensureQueueMarker d = .ok () ↔
      (d.lookup queueMarkerName).map File.data = some queueMarkerBody := by
  unfold ensureQueueMarker
  cases hf : d.lookup queueMarkerName with
  | none => simp
  | some f =>
    obtain ⟨-, hkind, hprivate⟩ := hfiles _ f hf
    by_cases hdata : f.data = queueMarkerBody <;> simp [hkind, hprivate, hdata]

end Reopening

/-- **Which interrupted first opens can be made again.** Whatever failed before a first open
stopped, and whether the process alone or the machine went down: of what a process that starts again
finds, the next open succeeds, with an empty queue, exactly when there is no directory, or one with
the whole marker in it. -/
theorem first_open_recovers {opts : QueueOptions} (hopts : Usable opts) {umask : Nat}
    {script : List Outcome} {w : World Place}
    (hstop : openQueuePath umask opts (absentWorld script) = .crashed w ∨
      ∃ r, openQueuePath umask opts (absentWorld script) = .done r w)
    {found : World Place} (hfound : Place.Found w found) (umask' : Nat) :
    (∃ q w', openQueuePath umask' opts found = .done (.ok q) w' ∧ q.entries = ∅ ∧ q.holds = ∅ ∧
        q.backoffs = ∅) ↔
      found.mem.entry = none ∨
        (found.store.live.lookup queueMarkerName).map File.data = some queueMarkerBody := by
  have hopening : FirstOpening w := by
    have hkeeps := FirstOpening.preserves_openQueuePath umask opts _ (.absentWorld script)
    rcases hstop with h | ⟨r, h⟩
    · exact hkeeps.crashed h
    · exact hkeeps.done h
  -- what is found is nothing, or a private directory with no file but the marker
  have hentry : ∃ entry entries s temps,
    found = ⟨⟨entry, entries⟩, Place.under entry s, [], temps⟩ ∧
      entry ∈ w.mem.entries ∧
        ∀ n f, s.live.lookup n = some f → n = queueMarkerName ∧ IsQueueFile f := by
    cases hfound with
    | process temps => exact ⟨_, _, _, temps, rfl, hopening.entry, hopening.only.live⟩
    | machine temps he hd =>
      exact ⟨_, _, _, temps, rfl, he, fun n f hf => hopening.only.survives (fun _ _ h => h) hd hf⟩
  obtain ⟨entry, entries, s, temps, rfl, hmem, hfiles⟩ := hentry
  have honly : ∀ n, n ≠ queueMarkerName → s.live.lookup n = none := by
    intro n hn
    cases hf : s.live.lookup n with
    | none => rfl
    | some f => exact absurd (hfiles n f hf).1 hn
  cases entry with
  | none =>
    refine iff_of_true (openQueuePath_empty hopts ?_) (.inl rfl)
    refine wp_post wp_ensurePrivateQueueDirectory_absent ?_
    rintro r w' ⟨rfl, hlive⟩
    rw [hlive]
    refine ⟨rfl, fun n hn => ?_, ?_⟩
    · rw [lookup_insert_ite, if_neg hn]
      rfl
    · have hprivate : maskedPerm 0o600 umask' &&& 0o077 = 0 := maskedPerm_private (by decide)
      simp [ensureQueueMarker, File.isPrivate, hprivate]
  | some e =>
    obtain ⟨kind, perm⟩ := e
    obtain ⟨rfl, hperm⟩ := hopening.entries kind perm hmem
    have hexisting : wp (ensurePrivateQueueDirectory umask')
        (fun r w' => r = (ensureQueueMarker s.live).mapError .refused ∧ w'.store = s)
          (fun _ => False)
        ⟨⟨some (.directory, perm), entries⟩, s, [], temps⟩ :=
      wp_ensurePrivateQueueDirectory_existing hperm
    change _ ↔ _ ∨ (s.live.lookup queueMarkerName).map File.data = _
    rw [← ensureQueueMarker_iff hfiles]
    cases hmarker : ensureQueueMarker s.live with
    | ok =>
      refine iff_of_true (openQueuePath_empty hopts ?_) (.inr rfl)
      refine wp_post hexisting ?_
      rintro r w' ⟨hr, hstore⟩
      rw [hstore]
      rw [hmarker] at hr
      exact ⟨hr, honly, hmarker⟩
    | error e =>
      -- the directory is refused, so nothing is opened
      refine iff_of_false ?_ (by simp)
      rintro ⟨q, w', hdone, -⟩
      rw [hmarker] at hexisting
      obtain ⟨r, w'', hopen, e', rfl⟩ := @openQueuePath_ends _ opts hopts _ _
        (fun r => ∃ e', r = .error e') hexisting (fun e' _ _ => ⟨e', rfl⟩)
        (fun _ h => by cases h.1)
      cases hopen.symm.trans hdone

/-- A first open that crashes at its last call, before the directory is flushed. -/
def crashedOpening : List Outcome := List.replicate 9 .done ++ [.crashes]

/-- The machine comes up with the directory lost, and the next open makes it again. -/
theorem first_open_recovers_lostDirectory :
    ∃ w q w', openQueuePath 0o022 plainOptions (absentWorld crashedOpening) = .crashed w ∧
      Place.Found w ⟨.flushed none, .ofDirectory ∅, [], 0⟩ ∧
      openQueuePath 0o022 plainOptions ⟨.flushed none, .ofDirectory ∅, [], 0⟩ = .done (.ok q) w' ∧
      q.entries = ∅ := by
  have husable : Usable plainOptions := ⟨by decide, by decide, _, rfl⟩
  obtain ⟨w, hcrash, hlost⟩ : ∃ w, openQueuePath 0o022 plainOptions (absentWorld crashedOpening)
      = .crashed w ∧ Place.Found w ⟨.flushed none, .ofDirectory ∅, [], 0⟩ := by
    refine ⟨_, rfl, .machine (d := ∅) 0 (by decide) fun n => ⟨none, .inl rfl, rfl⟩⟩
  obtain ⟨q, w', hopen, hempty, -⟩ :=
    (first_open_recovers husable (.inl hcrash) hlost 0o022).mpr (.inl rfl)
  exact ⟨w, q, w', hcrash, hlost, hopen, hempty⟩

/-- **A crash of the first open can leave a directory that every later start refuses.** The process
goes down once the directory is made; what it left is refused for its missing marker, and stays as
it is. -/
theorem first_open_crash_leaves_refused_directory :
    ∃ w found, openQueuePath 0o022 plainOptions (absentWorld [.done, .done, .done, .crashes])
        = .crashed w ∧ Place.Found w found ∧
      openQueuePath 0o022 plainOptions found = .done (.error (.refused .noMarker)) found :=
  ⟨_, _, rfl, .process 0, rfl⟩

end OriGateway
