import OriGateway.Foundation.FsProgram

/-! # A directory that may not be there

A program that makes its own directory works on a path at which there is nothing yet. A `Place` is
what a process sees at the path, with every entry the path has had since its parent was last
flushed: nobody flushes the parent here, so the machine may come up with any of them
(**`Place.Found`**), the directory lost with everything in it among others.

A property that every call keeps is kept by a program, wherever it crashes (**`Preserves`**). -/

namespace Foundation

abbrev PathEntry := Option (FileKind × Nat)

/-- What is at a path. -/
structure Place where
  entry : PathEntry
  /-- Every entry since the parent was flushed, the flushed one included. -/
  entries : List PathEntry

namespace Place

def absent : Place := ⟨none, [none]⟩

def flushed (e : PathEntry) : Place := ⟨e, [e]⟩

def set (e : PathEntry) (p : Place) : Place := ⟨e, e :: p.entries⟩

def under (e : PathEntry) (s : Store) : Store := if e = none then .ofDirectory ∅ else s

/-- **What a process that starts again finds**: the path and the directory as they were seen, or,
when the machine went down, an entry the path has had and a directory that survives. -/
inductive Found (w : World Place) : World Place → Prop where
  | process (temps : Nat) : Found w ⟨w.mem, under w.mem.entry w.store, [], temps⟩
  | machine {e : PathEntry} {d : Directory} (temps : Nat) (he : e ∈ w.mem.entries)
      (hd : w.store.Survives d) : Found w ⟨flushed e, under e (.ofDirectory d), [], temps⟩

end Place

/-! ## Calls -/

/-- What looking at a path finds. -/
inductive Lstat where
  | failed
  | notExist
  | entry (kind : FileKind) (perm : Nat)
  deriving DecidableEq

/-- How making a directory or a file of its own ends. -/
inductive Made where
  | created
  | exist
  | failed
  deriving DecidableEq

section Calls

variable {σ α β : Type}

def readLive : FsM σ Directory := fun w => .done w.store.live w

/-- `os.Lstat` of the path. -/
def lstatPlace : FsM Place Lstat := fun w =>
  match w.outcome with
  | .done =>
    match w.mem.entry with
    | none => .done .notExist w.next
    | some (kind, perm) => .done (.entry kind perm) w.next
  | .fails => .done .failed w.next
  | .crashes => .crashed w.next

/-- `os.Mkdir` of the path. -/
def makePlace (perm : Nat) : FsM Place Made := fun w =>
  match w.outcome with
  | .done =>
    if w.mem.entry = none then
      .done .created { w.next with mem := w.mem.set (some (.directory, perm)) }
    else .done .exist w.next
  | .fails => .done .failed w.next
  | .crashes => .crashed w.next

def protectPlace (perm : Nat) : FsM Place Bool :=
  call fun w => { w with mem := w.mem.set (w.mem.entry.map fun e => (e.1, perm)) }

/-- `os.OpenFile` with `O_EXCL`. -/
def createExclusive (name : Bytes) (perm : Nat) : FsM σ Made := fun w =>
  match w.outcome with
  | .done =>
    if (w.store.live.lookup name).isSome then .done .exist w.next
    else .done .created (w.next.onStore (Store.put name ⟨.regular, perm, [], false⟩))
  | .fails => .done .failed w.next
  | .crashes => .crashed w.next

/-- Change a file in place. The file at a name is one and the same wherever it is still pending, so
each of its values changes. -/
def Store.rewrite (name : Bytes) (g : File → File) (s : Store) : Store where
  live := match s.live.lookup name with
    | some f => s.live.insert name (g f)
    | none => s.live
  durable := match s.durable.lookup name with
    | some f => s.durable.insert name (g f)
    | none => s.durable
  pending := s.pending.map fun e => if e.1 = name then (e.1, e.2.map g) else e

def rewriteFile (name : Bytes) (g : File → File) : FsM σ Bool :=
  call (World.onStore (Store.rewrite name g))

section Rules

variable {C : World σ → Prop} {w : World σ}

@[simp] theorem wp_readLive {Q : Directory → World σ → Prop} :
    wp readLive Q C w ↔ Q w.store.live w := Iff.rfl

theorem wp_createExclusive {Q : Made → World σ → Prop} (name : Bytes) (perm : Nat) :
    wp (createExclusive name perm) Q C w ↔
      (w.outcome = .done → (w.store.live.lookup name).isSome = true → Q .exist w.next) ∧
      (w.outcome = .done → w.store.live.lookup name = none →
        Q .created (w.next.onStore (Store.put name ⟨.regular, perm, [], false⟩))) ∧
      (w.outcome = .fails → Q .failed w.next) ∧ (w.outcome = .crashes → C w.next) := by
  unfold wp createExclusive
  cases w.outcome <;> cases w.store.live.lookup name <;> simp

theorem wp_lstatPlace {C : World Place → Prop} {w : World Place} {Q : Lstat → World Place → Prop} :
    wp lstatPlace Q C w ↔
      (w.outcome = .done → w.mem.entry = none → Q .notExist w.next) ∧
      (w.outcome = .done → ∀ kind perm, w.mem.entry = some (kind, perm) →
        Q (.entry kind perm) w.next) ∧
      (w.outcome = .fails → Q .failed w.next) ∧ (w.outcome = .crashes → C w.next) := by
  unfold wp lstatPlace
  cases w.outcome <;> rcases w.mem.entry with _ | ⟨kind, perm⟩ <;> simp

theorem wp_makePlace {C : World Place → Prop} {w : World Place} {Q : Made → World Place → Prop}
    (perm : Nat) :
    wp (makePlace perm) Q C w ↔
      (w.outcome = .done → w.mem.entry = none →
        Q .created { w.next with mem := w.mem.set (some (.directory, perm)) }) ∧
      (w.outcome = .done → w.mem.entry ≠ none → Q .exist w.next) ∧
      (w.outcome = .fails → Q .failed w.next) ∧ (w.outcome = .crashes → C w.next) := by
  unfold wp makePlace
  cases w.outcome <;> cases w.mem.entry <;> simp

end Rules

/-! ## Programs that keep a property -/

/-- **A program that keeps a property**, whether it returns or crashes. -/
def Preserves (I : World σ → Prop) (m : FsM σ α) : Prop :=
  ∀ w, I w → wp m (fun _ w' => I w') I w

variable {I : World σ → Prop}

theorem preserves_pure (a : α) : Preserves I (pure a : FsM σ α) := fun _ h => h

theorem Preserves.bind {m : FsM σ α} {k : α → FsM σ β} (hm : Preserves I m)
    (hk : ∀ a, Preserves I (k a)) : Preserves I (m >>= k) := by
  intro w hw
  rw [wp_bind]
  exact wp_mono (hm w hw) (fun a w' hw' => hk a w' hw') fun w' hw' => hw'

theorem Preserves.ite {c : Prop} [Decidable c] {m m' : FsM σ α} (hm : Preserves I m)
    (hm' : Preserves I m') : Preserves I (if c then m else m') := by
  split
  · exact hm
  · exact hm'

theorem preserves_readLive : Preserves I (readLive : FsM σ Directory) := fun _ h => h

theorem preserves_call (hnext : ∀ w, I w → I w.next) {effect : World σ → World σ}
    (heffect : ∀ w, I w → I (effect w)) : Preserves I (call effect) := by
  intro w hw
  rw [wp_call]
  exact ⟨fun _ => heffect _ (hnext w hw), fun _ => hnext w hw, fun _ => hnext w hw⟩

theorem preserves_unlink (hnext : ∀ w, I w → I w.next) {name : Bytes}
    (hdel : ∀ w, I w → I (w.onStore (Store.del name))) : Preserves I (unlink name) := by
  intro w hw
  rw [wp_unlink]
  exact ⟨fun _ _ => hdel _ (hnext w hw), fun _ _ => hnext w hw, fun _ => hnext w hw,
    fun _ => hnext w hw⟩

theorem preserves_createExclusive (hnext : ∀ w, I w → I w.next) {name : Bytes} {perm : Nat}
    (hput : ∀ w, I w → I (w.onStore (Store.put name ⟨.regular, perm, [], false⟩))) :
    Preserves I (createExclusive name perm) := by
  intro w hw
  rw [wp_createExclusive]
  exact ⟨fun _ _ => hnext w hw, fun _ _ => hput _ (hnext w hw), fun _ => hnext w hw,
    fun _ => hnext w hw⟩

theorem preserves_lstatPlace {I : World Place → Prop} (hnext : ∀ w, I w → I w.next) :
    Preserves I lstatPlace := by
  intro w hw
  rw [wp_lstatPlace]
  exact ⟨fun _ _ => hnext w hw, fun _ _ _ _ => hnext w hw, fun _ => hnext w hw,
    fun _ => hnext w hw⟩

theorem preserves_makePlace {I : World Place → Prop} (hnext : ∀ w, I w → I w.next) {perm : Nat}
    (hset : ∀ w, I w → I { w with mem := w.mem.set (some (.directory, perm)) }) :
    Preserves I (makePlace perm) := by
  intro w hw
  rw [wp_makePlace]
  exact ⟨fun _ _ => hset _ (hnext w hw), fun _ _ => hnext w hw, fun _ => hnext w hw,
    fun _ => hnext w hw⟩

end Calls

/-! ## Directories of one file -/

/-- **A store that has one name at most**, and there only files that meet a condition. -/
structure Store.Only (name : Bytes) (P : File → Prop) (s : Store) : Prop where
  live : ∀ n f, s.live.lookup n = some f → n = name ∧ P f
  durable : ∀ n f, s.durable.lookup n = some f → n = name ∧ P f
  pending : ∀ n f, (n, some f) ∈ s.pending → n = name ∧ P f

namespace Store.Only

variable {name : Bytes} {P : File → Prop} {s : Store}

theorem empty (name : Bytes) (P : File → Prop) : Only name P (ofDirectory ∅) where
  live _ _ h := by cases h
  durable _ _ h := by cases h
  pending _ _ h := by cases h

theorem put (h : Only name P s) {f : File} (hf : P f) : Only name P (s.put name f) where
  live := forall_lookup_insert h.live ⟨rfl, hf⟩
  durable := h.durable
  pending n g hp := by
    rcases List.mem_cons.mp hp with heq | hp
    · cases heq
      exact ⟨rfl, hf⟩
    · exact h.pending n g hp

theorem del (h : Only name P s) : Only name P (s.del name) where
  live n g hg := h.live n g (lookup_of_erase hg)
  durable := h.durable
  pending n g hp := by
    rcases List.mem_cons.mp hp with heq | hp
    · cases heq
    · exact h.pending n g hp

theorem sync (h : Only name P s) : Only name P s.sync where
  live := h.live
  durable := h.live
  pending _ _ hp := by cases hp

/-- The one file is changed, in a directory that has no other. -/
theorem lookup_rewrite {d : Directory} (h : ∀ n f, d.lookup n = some f → n = name ∧ P f)
    {g : File → File}
    (hg : ∀ f, P f → P (g f)) {n : Bytes} {f : File}
    (hf : (match d.lookup name with
      | some f => d.insert name (g f)
      | none => d).lookup n = some f) : n = name ∧ P f := by
  split at hf
  · next f' hf' => exact forall_lookup_insert h ⟨rfl, hg f' (h name f' hf').2⟩ n f hf
  · exact h n f hf

theorem rewrite (h : Only name P s) {g : File → File} (hg : ∀ f, P f → P (g f)) :
    Only name P (s.rewrite name g) where
  live _ _ hf := lookup_rewrite h.live hg hf
  durable _ _ hf := lookup_rewrite h.durable hg hf
  pending n f hp := by
    obtain ⟨⟨m, u⟩, hmem, heq⟩ := List.mem_map.mp hp
    split at heq
    · obtain ⟨rfl, hu⟩ := Prod.mk.inj heq
      obtain ⟨f', rfl, rfl⟩ := Option.map_eq_some_iff.mp hu
      exact ⟨(h.pending m f' hmem).1, hg f' (h.pending m f' hmem).2⟩
    · cases heq
      exact h.pending n f hmem

/-- What a crash leaves of it has no other name either, and its file still meets a condition that
does not look at the content. -/
theorem survives (h : Only name P s)
    (hP : ∀ f data, P f → P { f with data := data, synced := true })
    {d : Directory} (hd : s.Survives d) {n : Bytes} {f : File} (hf : d.lookup n = some f) :
    n = name ∧ P f := by
  obtain ⟨v, hv, ht⟩ := hd n
  rw [hf] at ht
  cases v with
  | none => cases ht
  | some g =>
    have hg : n = name ∧ P g := hv.elim (fun hv => h.durable n g hv.symm) (h.pending n g)
    simp only [Torn] at ht
    split at ht
    · cases ht
      exact hg
    · obtain ⟨data, hdata⟩ := ht
      cases hdata
      exact ⟨hg.1, hP g data hg.2⟩

end Store.Only

end Foundation
