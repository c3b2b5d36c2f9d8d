import OriGateway.Foundation.Store

/-! # File-system programs with faults and crashes

A program (**`FsM σ α`**) that keeps some memory and works on one directory, call by call. A
`script` fixes how each call of a run ends: it takes effect, it fails with an error and no effect,
or the process crashes before it. **`wp m Q C w`** says that every run of `m` from `w` returns with
`Q` or crashes with `C`; **`wp_atomicReplace`** what each ending of the replacement of one file
through a scratch file leaves. -/

namespace Foundation

variable {script : List Outcome} {n : Nat}

/-- How one file-system call ends. -/
inductive Outcome where
  | done
  | fails
  | crashes
  deriving DecidableEq

/-- A running process: its memory, its directory, how its next calls end, and how many scratch names
were taken. -/
structure World (σ : Type) where
  mem : σ
  store : Store
  /-- How the next calls end; after the last one every call takes effect. -/
  script : List Outcome
  temps : Nat

/-- How a run ends. -/
inductive Exec (σ α : Type) where
  | done (a : α) (w : World σ)
  | crashed (w : World σ)

def Exec.returns {σ α : Type} (p : α → World σ → Bool) : Exec σ α → Bool
  | done a w => p a w
  | crashed _ => false

theorem Exec.returns_iff {σ α : Type} {p : α → World σ → Bool} {e : Exec σ α} :
    e.returns p = true ↔ ∃ a w, e = .done a w ∧ p a w = true := by
  cases e <;> simp [returns]

def Exec.crashes {σ α : Type} (p : World σ → Bool) : Exec σ α → Bool
  | done .. => false
  | crashed w => p w

theorem Exec.crashes_iff {σ α : Type} {p : World σ → Bool} {e : Exec σ α} :
    e.crashes p = true ↔ ∃ w, e = .crashed w ∧ p w = true := by
  cases e <;> simp [crashes]

def FsM (σ α : Type) : Type := World σ → Exec σ α

namespace FsM

variable {σ α β : Type}

def pure (a : α) : FsM σ α := fun w => .done a w

def bind (m : FsM σ α) (k : α → FsM σ β) : FsM σ β := fun w =>
  match m w with
  | .done a w' => k a w'
  | .crashed w' => .crashed w'

instance : Monad (FsM σ) where
  pure := FsM.pure
  bind := FsM.bind

def getMem : FsM σ σ := fun w => .done w.mem w

def modifyMem (f : σ → σ) : FsM σ Unit := fun w => .done () { w with mem := f w.mem }

end FsM

namespace World

variable {σ : Type}

def outcome (w : World σ) : Outcome := w.script.headD .done

def next (w : World σ) : World σ := { w with script := w.script.tail }

def onStore (f : Store → Store) (w : World σ) : World σ := { w with store := f w.store }

@[simp] theorem next_mem (w : World σ) : w.next.mem = w.mem := rfl

@[simp] theorem next_store (w : World σ) : w.next.store = w.store := rfl

@[simp] theorem next_script (w : World σ) : w.next.script = w.script.drop 1 := by
  simp [next]

@[simp] theorem next_temps (w : World σ) : w.next.temps = w.temps := rfl

@[simp] theorem onStore_mem (f : Store → Store) (w : World σ) : (w.onStore f).mem = w.mem := rfl

@[simp] theorem onStore_store (f : Store → Store) (w : World σ) :
    (w.onStore f).store = f w.store := rfl

@[simp] theorem onStore_script (f : Store → Store) (w : World σ) :
    (w.onStore f).script = w.script := rfl

end World

/-! ## Calls -/

section Calls

variable {σ α : Type}

def call (effect : World σ → World σ) : FsM σ Bool := fun w =>
  match w.outcome with
  | .done => .done true (effect w.next)
  | .fails => .done false w.next
  | .crashes => .crashed w.next

/-- How removing a name ends. -/
inductive Unlinked where
  | removed
  | notExist
  | failed
  deriving DecidableEq

/-- `os.Remove`. -/
def unlink (name : Bytes) : FsM σ Unlinked := fun w =>
  match w.outcome with
  | .done =>
    if (w.store.live.lookup name).isSome then .done .removed (w.next.onStore (Store.del name))
    else .done .notExist w.next
  | .fails => .done .failed w.next
  | .crashes => .crashed w.next

def syncDirectory : FsM σ Bool := call (World.onStore Store.sync)

def readDirectory : FsM σ Bool := call id

def Store.alter (name : Bytes) (g : File → File) (s : Store) : Store :=
  match s.live.lookup name with
  | some f => s.put name (g f)
  | none => s

def Store.rename (src dst : Bytes) (s : Store) : Store :=
  match s.live.lookup src with
  | some f => (s.put dst f).del src
  | none => s

def World.scratchName (scratch : Bytes) (w : World σ) : Bytes := scratch ++ decimal w.temps

/-- The process past the creation of an empty private file at its next scratch name. -/
def World.created (scratch : Bytes) (w : World σ) : World σ :=
  { w.next with
    store := w.store.put (w.scratchName scratch) ⟨.regular, 0o600, [], false⟩
    temps := w.temps + 1 }

/-- `os.CreateTemp`. -/
def createTemp (scratch : Bytes) : FsM σ (Option Bytes) := fun w =>
  match w.outcome with
  | .done => .done (some (w.scratchName scratch)) (w.created scratch)
  | .fails => .done none w.next
  | .crashes => .crashed w.next

/-- The step of an atomic replacement that failed. -/
inductive ReplaceError where
  | create
  | protect
  | write
  | sync
  | close
  | commit
  /-- Flushing the directory failed, with the file already replaced. -/
  | persist
  deriving DecidableEq

/-- The call of an atomic replacement that fails with this error. -/
def ReplaceError.position : ReplaceError → Nat
  | create => 0
  | protect => 1
  | write => 2
  | sync => 3
  | close => 4
  | commit => 5
  | persist => 6

theorem ReplaceError.position_lt (e : ReplaceError) (h : e ≠ .persist) : e.position < 6 := by
  cases e with
  | persist => exact absurd rfl h
  | _ => decide

/-- Write, flush and rename a temporary file. -/
def commitTemp (tmp name data : Bytes) : FsM σ (Except ReplaceError Unit) := do
  if !(← call (World.onStore (Store.alter tmp fun f => { f with perm := 0o600 }))) then
    return .error .protect
  if !(← call (World.onStore (Store.alter tmp fun f => { f with data := data }))) then
    return .error .write
  if !(← call (World.onStore (Store.alter tmp fun f => { f with synced := true }))) then
    return .error .sync
  if !(← call id) then
    return .error .close
  if !(← call (World.onStore (Store.rename tmp name))) then
    return .error .commit
  if !(← syncDirectory) then
    return .error .persist
  return .ok ()

/-- **Replace one file atomically**, through a scratch file that is removed unless the replacement
completed. -/
def atomicReplace (scratch name data : Bytes) : FsM σ (Except ReplaceError Unit) := do
  match ← createTemp scratch with
  | none => return .error .create
  | some tmp =>
    match ← commitTemp tmp name data with
    | .ok () => return .ok ()
    | .error e =>
      let _ ← unlink tmp
      return .error e

end Calls

/-! ## Weakest preconditions -/

section Wp

variable {σ α β : Type}

/-- Every run of `m` from `w` returns with `Q` or crashes with `C`. -/
def wp (m : FsM σ α) (Q : α → World σ → Prop) (C : World σ → Prop) (w : World σ) : Prop :=
  match m w with
  | .done a w' => Q a w'
  | .crashed w' => C w'

variable {Q Q' : α → World σ → Prop} {C C' : World σ → Prop} {w : World σ}

theorem wp_iff {m : FsM σ α} :
    wp m Q C w ↔
      (∀ a w', m w = .done a w' → Q a w') ∧ ∀ w', m w = .crashed w' → C w' := by
  unfold wp
  cases m w <;> simp

theorem wp.done {m : FsM σ α} (h : wp m Q C w) {a : α} {w' : World σ} (hrun : m w = .done a w') :
    Q a w' := (wp_iff.mp h).1 a w' hrun

theorem wp.crashed {m : FsM σ α} (h : wp m Q C w) {w' : World σ} (hrun : m w = .crashed w') :
    C w' := (wp_iff.mp h).2 w' hrun

theorem wp_mono {m : FsM σ α} (h : wp m Q C w) (hQ : ∀ a w', Q a w' → Q' a w')
    (hC : ∀ w', C w' → C' w') : wp m Q' C' w := by
  rw [wp_iff] at h ⊢
  exact ⟨fun a w' hrun => hQ a w' (h.1 a w' hrun), fun w' hrun => hC w' (h.2 w' hrun)⟩

/-- A stronger result, with crashes as they were. -/
theorem wp_post {m : FsM σ α} (h : wp m Q C w) (hQ : ∀ a w', Q a w' → Q' a w') : wp m Q' C w :=
  wp_mono h hQ fun _ hC => hC

@[simp] theorem wp_pure (a : α) : wp (pure a : FsM σ α) Q C w ↔ Q a w := Iff.rfl

@[simp] theorem wp_bind (m : FsM σ β) (k : β → FsM σ α) :
    wp (m >>= k) Q C w ↔ wp m (fun b w' => wp (k b) Q C w') C w := by
  change wp (FsM.bind m k) Q C w ↔ _
  unfold wp FsM.bind
  cases m w <;> rfl

@[simp] theorem wp_getMem {Q : σ → World σ → Prop} : wp FsM.getMem Q C w ↔ Q w.mem w := Iff.rfl

@[simp] theorem wp_modifyMem {Q : Unit → World σ → Prop} (f : σ → σ) :
    wp (FsM.modifyMem f) Q C w ↔ Q () { w with mem := f w.mem } := Iff.rfl

@[simp] theorem wp_ite (c : Prop) [Decidable c] (m m' : FsM σ α) :
    wp (if c then m else m') Q C w ↔ (c → wp m Q C w) ∧ (¬ c → wp m' Q C w) := by
  by_cases h : c <;> simp [h]

theorem wp_call {Q : Bool → World σ → Prop} (effect : World σ → World σ) :
    wp (call effect) Q C w ↔
      (w.outcome = .done → Q true (effect w.next)) ∧ (w.outcome = .fails → Q false w.next) ∧
        (w.outcome = .crashes → C w.next) := by
  unfold wp call
  cases w.outcome <;> simp

theorem wp_unlink {Q : Unlinked → World σ → Prop} (name : Bytes) :
    wp (unlink name) Q C w ↔
      (w.outcome = .done → (w.store.live.lookup name).isSome = true →
        Q .removed (w.next.onStore (Store.del name))) ∧
      (w.outcome = .done → w.store.live.lookup name = none → Q .notExist w.next) ∧
      (w.outcome = .fails → Q .failed w.next) ∧ (w.outcome = .crashes → C w.next) := by
  unfold wp unlink
  cases w.outcome <;> cases w.store.live.lookup name <;> simp

theorem wp_createTemp {Q : Option Bytes → World σ → Prop} (scratch : Bytes) :
    wp (createTemp scratch) Q C w ↔
      (w.outcome = .done → Q (some (w.scratchName scratch)) (w.created scratch)) ∧
        (w.outcome = .fails → Q none w.next) ∧ (w.outcome = .crashes → C w.next) := by
  unfold wp createTemp
  cases w.outcome <;> simp

end Wp

/-! ## Scripts -/

def Completes (script : List Outcome) (n : Nat) : Prop :=
  ∀ i < n, script.getD i .done = .done

/-- A script's call `n` fails after all those before it took effect. -/
def FailsAt (script : List Outcome) (n : Nat) : Prop :=
  Completes script n ∧ script.getD n .done = .fails

instance (script : List Outcome) (n : Nat) : Decidable (Completes script n) :=
  inferInstanceAs (Decidable (∀ i < n, _))

instance (script : List Outcome) (n : Nat) : Decidable (FailsAt script n) :=
  inferInstanceAs (Decidable (_ ∧ _))

theorem completes_zero (script : List Outcome) : Completes script 0 :=
  fun _ h => absurd h (Nat.not_lt_zero _)

theorem Completes.succ (h : Completes script n) (hn : script.getD n .done = .done) :
    Completes script (n + 1) := by
  intro i hi
  rcases Nat.lt_succ_iff_lt_or_eq.mp hi with hlt | rfl
  · exact h i hlt
  · exact hn

theorem Completes.of_drop {k : Nat} (hk : Completes script k) (h : Completes (script.drop k) n) :
    Completes script (k + n) := by
  intro i hi
  by_cases hlt : i < k
  · exact hk i hlt
  · have hafter := h (i - k) (by omega)
    rw [List.getD_eq_getElem?_getD, List.getElem?_drop, Nat.add_sub_cancel' (not_lt.mp hlt),
      ← List.getD_eq_getElem?_getD] at hafter
    exact hafter

/-- A call that fails in what is left of a script, once the calls before took effect. -/
theorem FailsAt.of_drop {k : Nat} (hk : Completes script k) (h : FailsAt (script.drop k) n) :
    FailsAt script (k + n) := by
  refine ⟨hk.of_drop h.1, ?_⟩
  have hfails := h.2
  rwa [List.getD_eq_getElem?_getD, List.getElem?_drop, ← List.getD_eq_getElem?_getD] at hfails

theorem FailsAt.mem (h : FailsAt script n) : .fails ∈ script := by
  by_cases hn : n < script.length
  · have hget := h.2
    rw [List.getD_eq_getElem _ _ hn] at hget
    exact hget ▸ List.getElem_mem hn
  · have hget := h.2
    rw [List.getD_eq_default _ _ (Nat.le_of_not_lt hn)] at hget
    cases hget

theorem mem_of_outcome_fails {σ : Type} {w : World σ} (h : w.outcome = .fails) :
    .fails ∈ w.script := by
  unfold World.outcome at h
  cases hs : w.script with
  | nil => rw [hs] at h; cases h
  | cons o rest =>
    rw [hs] at h
    exact List.mem_cons.mpr (Or.inl h.symm)

theorem outcome_of_drop {σ : Type} {w : World σ} (h : w.script = script.drop n) :
    w.outcome = script.getD n .done := by
  rw [World.outcome, h]
  simp [List.headD_eq_head?_getD, List.getD_eq_getElem?_getD]

theorem drop_next {σ : Type} {w : World σ} (h : w.script = script.drop n) :
    w.next.script = script.drop (n + 1) := by
  simp [h]

/-! ## Atomic replacement -/

section AtomicReplace

variable {σ : Type} {scratch : Bytes} {s : Store} {m : σ} {script : List Outcome}

/-- A process `n` calls into an atomic replacement: its memory and, up to scratch names, its
directory are as before, and the scratch file holds `f`. -/
structure Filling (scratch : Bytes) (s : Store) (m : σ) (script : List Outcome) (tmp : Bytes)
    (n : Nat) (f : File) (w : World σ) : Prop where
  mem : w.mem = m
  agrees : Store.Agrees scratch s w.store
  file : w.store.live.lookup tmp = some f
  completes : Completes script n
  rest : w.script = script.drop n

namespace Filling

variable {tmp : Bytes} {n : Nat} {f : File} {w : World σ}

theorem alter (h : Filling scratch s m script tmp n f w) (hs : scratch <+: tmp)
    (hdone : w.outcome = .done) (g : File → File) :
    Filling scratch s m script tmp (n + 1) (g f) (w.next.onStore (Store.alter tmp g)) where
  mem := h.mem
  agrees := by
    simp only [World.onStore_store, World.next_store, Store.alter, h.file]
    exact h.agrees.put_scratch hs _
  file := by simp [Store.alter, h.file, Finmap.lookup_insert]
  completes := h.completes.succ (outcome_of_drop h.rest ▸ hdone)
  rest := drop_next h.rest

theorem idle (h : Filling scratch s m script tmp n f w) (hdone : w.outcome = .done) :
    Filling scratch s m script tmp (n + 1) f w.next where
  mem := h.mem
  agrees := h.agrees
  file := h.file
  completes := h.completes.succ (outcome_of_drop h.rest ▸ hdone)
  rest := drop_next h.rest

theorem failsAt (h : Filling scratch s m script tmp n f w) (hfails : w.outcome = .fails) :
    FailsAt script n := ⟨h.completes, outcome_of_drop h.rest ▸ hfails⟩

theorem rename (h : Filling scratch s m script tmp n f w) (hs : scratch <+: tmp) (name : Bytes) :
    Store.Agrees scratch (s.put name f) (w.next.onStore (Store.rename tmp name)).store := by
  simp only [World.onStore_store, World.next_store, Store.rename, h.file]
  exact (h.agrees.put name f).del_scratch hs

end Filling

def replacement (data : Bytes) : File := ⟨.regular, 0o600, data, true⟩

theorem wp_commitTemp {tmp name data : Bytes} {f : File} {w : World σ}
    {Q : Except ReplaceError Unit → World σ → Prop} {C : World σ → Prop} (hs : scratch <+: tmp)
    (hkind : f.kind = .regular) (h : Filling scratch s m script tmp 1 f w)
    (hok : ∀ w', Completes script 7 → w'.mem = m → w'.script = script.drop 7 →
      Store.Agrees scratch (s.put name (replacement data)).sync w'.store → Q (.ok ()) w')
    (hpersist : ∀ w', FailsAt script 6 → w'.mem = m →
      Store.Agrees scratch (s.put name (replacement data)) w'.store → Q (.error .persist) w')
    (hfail : ∀ e w', e ≠ .persist → FailsAt script e.position → w'.mem = m →
      Store.Agrees scratch s w'.store → Q (.error e) w')
    (hcrash : ∀ w', w'.mem = m → Store.Agrees scratch s w'.store ∨
      Store.Agrees scratch (s.put name (replacement data)) w'.store → C w') :
    wp (commitTemp tmp name data) Q C w := by
  -- Up to the rename every ending leaves the directory as it was.
  have hearly : ∀ {n f} {w' : World σ} (e : ReplaceError), e ≠ .persist → e.position = n →
      Filling scratch s m script tmp n f w' → (w'.outcome = .fails → Q (.error e) w'.next) ∧
        (w'.outcome = .crashes → C w'.next) := by
    rintro n f w' e hne rfl hw'
    exact ⟨fun hf => hfail e _ hne (hw'.failsAt hf) hw'.mem hw'.agrees,
      fun _ => hcrash _ hw'.mem (Or.inl hw'.agrees)⟩
  unfold commitTemp
  simp only [wp_bind, wp_call, syncDirectory, Bool.not_true, Bool.not_false, Bool.false_eq_true,
    if_false, if_true, wp_pure]
  refine ⟨fun h1 => ?_, hearly .protect (by decide) rfl h⟩
  have hw1 := h.alter hs h1 fun f => { f with perm := 0o600 }
  refine ⟨fun h2 => ?_, hearly .write (by decide) rfl hw1⟩
  have hw2 := hw1.alter hs h2 fun f => { f with data := data }
  refine ⟨fun h3 => ?_, hearly .sync (by decide) rfl hw2⟩
  have hw3 := hw2.alter hs h3 fun f => { f with synced := true }
  refine ⟨fun h4 => ?_, hearly .close (by decide) rfl hw3⟩
  have hw4 := hw3.idle h4
  refine ⟨fun h5 => ?_, hearly .commit (by decide) rfl hw4⟩
  -- After the rename the file is replaced, and only the directory's flush is left.
  have hput := hw4.rename hs name
  have hw5 := hw4.idle h5
  rw [show ({ f with perm := 0o600, data := data, synced := true } : File) = replacement data by
    simp [replacement, hkind]] at hput
  refine ⟨fun h6 => ?_, fun h6 => ?_, fun _ => ?_⟩
  · refine hok _ (hw5.completes.succ (outcome_of_drop hw5.rest ▸ h6)) hw5.mem ?_ hput.sync
    exact drop_next hw5.rest
  · exact hpersist _ (hw5.failsAt h6) hw5.mem hput
  · exact hcrash _ hw5.mem (Or.inr hput)

/-- **How an atomic replacement ends**: the file is replaced for good; or replaced and the
directory's flush failed; or some earlier call failed and nothing but scratch names changed; or the
process crashed with the file replaced or not. -/
theorem wp_atomicReplace {name data : Bytes} {w : World σ}
    {Q : Except ReplaceError Unit → World σ → Prop} {C : World σ → Prop}
    (hok : ∀ w', Completes w.script 7 → w'.mem = w.mem → w'.script = w.script.drop 7 →
      Store.Agrees scratch (w.store.put name (replacement data)).sync w'.store → Q (.ok ()) w')
    (hpersist : ∀ w', FailsAt w.script 6 → w'.mem = w.mem →
      Store.Agrees scratch (w.store.put name (replacement data)) w'.store →
        Q (.error .persist) w')
    (hfail : ∀ e w', e ≠ .persist → FailsAt w.script e.position → w'.mem = w.mem →
      Store.Agrees scratch w.store w'.store → Q (.error e) w')
    (hcrash : ∀ w', w'.mem = w.mem → Store.Agrees scratch w.store w'.store ∨
      Store.Agrees scratch (w.store.put name (replacement data)) w'.store → C w') :
    wp (atomicReplace scratch name data) Q C w := by
  have hs : scratch <+: w.scratchName scratch := List.prefix_append _ _
  have hfirst : w.script.getD 0 .done = w.outcome := (outcome_of_drop rfl).symm
  unfold atomicReplace
  rw [wp_bind, wp_createTemp]
  refine ⟨fun hdone => ?_, fun hfails => ?_, fun _ => ?_⟩
  · have hw : Filling scratch w.store w.mem w.script (w.scratchName scratch) 1
        ⟨.regular, 0o600, [], false⟩ (w.created scratch) :=
      { mem := rfl
        agrees := (Store.Agrees.refl _).put_scratch hs _
        file := Finmap.lookup_insert _
        completes := (completes_zero _).succ (hfirst.trans hdone)
        rest := World.next_script w }
    simp only [wp_bind]
    -- Removing the scratch file after a failure changes nothing else.
    refine wp_commitTemp hs rfl hw hok (fun w' h6 hm ha => ?_) (fun e w' hne he hm ha => ?_) hcrash
    · simp only [wp_bind, wp_unlink, wp_pure]
      exact ⟨fun _ _ => hpersist _ h6 hm (ha.del_scratch hs), fun _ _ => hpersist _ h6 hm ha,
        fun _ => hpersist _ h6 hm ha, fun _ => hcrash _ hm (Or.inr ha)⟩
    · simp only [wp_bind, wp_unlink, wp_pure]
      exact ⟨fun _ _ => hfail _ _ hne he hm (ha.del_scratch hs), fun _ _ => hfail _ _ hne he hm ha,
        fun _ => hfail _ _ hne he hm ha, fun _ => hcrash _ hm (Or.inl ha)⟩
  · refine hfail .create _ (by decide) ⟨completes_zero _, hfirst.trans hfails⟩ rfl ?_
    exact Store.Agrees.refl _
  · exact hcrash _ rfl (Or.inl (Store.Agrees.refl _))

end AtomicReplace

end Foundation
