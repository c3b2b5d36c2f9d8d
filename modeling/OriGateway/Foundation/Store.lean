import OriGateway.Foundation.Bytes
import OriGateway.Foundation.GoMap

/-! # Directories that survive crashes

One directory of a file system, as a program that must survive a crash sees it. A `Store` keeps what
a running process sees (`live`), the entries as of the last directory sync (`durable`), and every
value a name has taken since (`pending`). After a crash each name holds, independently of the
others, its durable value or one of its pending ones, and a file whose content was not flushed holds
arbitrary bytes (**`Store.Survives`**).

A program replaces files through scratch names under one prefix, which recovery discards. So two
stores count as the same when they agree at every other name (**`Store.Agrees`**): every operation
respects that relation, and results about a program are stated up to it. -/

namespace Foundation

/-- What a directory entry is. -/
inductive FileKind where
  | regular
  | directory
  | symlink
  | special
  deriving DecidableEq

/-- A directory entry's file. -/
structure File where
  kind : FileKind
  perm : Nat
  data : Bytes
  synced : Bool
  deriving DecidableEq

def File.isPrivate (f : File) : Bool := f.perm &&& 0o077 == 0

abbrev Directory := Finmap fun _ : Bytes => File

/-- A directory with what of it a crash may undo. -/
structure Store where
  live : Directory
  durable : Directory
  pending : List (Bytes × Option File)

/-- Two directories that agree outside the scratch names under a prefix. -/
def Directory.Agrees (scratch : Bytes) (d d' : Directory) : Prop :=
  ∀ n, ¬ scratch <+: n → d.lookup n = d'.lookup n

namespace Directory

variable {scratch : Bytes} {d d' d'' : Directory}

theorem Agrees.refl (d : Directory) : Agrees scratch d d := fun _ _ => rfl

theorem Agrees.symm (h : Agrees scratch d d') : Agrees scratch d' d := fun n hn => (h n hn).symm

theorem Agrees.trans (h : Agrees scratch d d') (h' : Agrees scratch d' d'') :
    Agrees scratch d d'' := fun n hn => (h n hn).trans (h' n hn)

theorem Agrees.insert (h : Agrees scratch d d') (name : Bytes) (f : File) :
    Agrees scratch (d.insert name f) (d'.insert name f) := by
  intro n hn
  by_cases heq : n = name
  · subst heq
    rw [Finmap.lookup_insert, Finmap.lookup_insert]
  · rw [Finmap.lookup_insert_of_ne _ heq, Finmap.lookup_insert_of_ne _ heq, h n hn]

theorem Agrees.insert_scratch (h : Agrees scratch d d') {name : Bytes} (hs : scratch <+: name)
    (f : File) : Agrees scratch d (d'.insert name f) := by
  intro n hn
  have hne : n ≠ name := fun heq => hn (heq ▸ hs)
  rw [Finmap.lookup_insert_of_ne _ hne, h n hn]

theorem Agrees.erase_scratch (h : Agrees scratch d d') {name : Bytes} (hs : scratch <+: name) :
    Agrees scratch d (d'.erase name) := by
  intro n hn
  have hne : n ≠ name := fun heq => hn (heq ▸ hs)
  rw [Finmap.lookup_erase_ne hne, h n hn]

def files (d : Directory) : List (Bytes × File) :=
  (sortedKeys (· ≤ ·) d.keys).filterMap fun name => (d.lookup name).map fun f => (name, f)

theorem mem_files {d : Directory} {name : Bytes} {f : File} :
    (name, f) ∈ files d ↔ d.lookup name = some f := by
  simp only [files, List.mem_filterMap, Option.map_eq_some_iff, Prod.mk.injEq, mem_sortedKeys]
  constructor
  · rintro ⟨_, _, _, hf, rfl, rfl⟩
    exact hf
  · intro hf
    exact ⟨name, mem_keys_iff.mpr ⟨f, hf⟩, f, hf, rfl, rfl⟩

theorem names_files_sublist (d : Directory) :
    ((files d).map Prod.fst).Sublist (sortedKeys (· ≤ ·) d.keys) := by
  unfold files
  generalize sortedKeys (· ≤ ·) d.keys = names
  induction names with
  | nil => exact List.Sublist.slnil
  | cons name names ih =>
    rw [List.filterMap_cons]
    cases d.lookup name with
    | none => exact ih.cons name
    | some f => exact ih.cons_cons name

theorem nodup_files (d : Directory) : ((files d).map Prod.fst).Nodup :=
  (names_files_sublist d).nodup (sortedKeys_nodup _ _)

theorem pairwise_files (d : Directory) : (files d).Pairwise fun a b => a.1 ≤ b.1 :=
  List.pairwise_map.mp ((sortedKeys_pairwise _ d.keys).sublist (names_files_sublist d))

/-- **Directories that agree on some names have the same files at them**, in the same order. -/
theorem filter_files_congr {P : Bytes → Bool}
    (h : ∀ n, P n = true → d.lookup n = d'.lookup n) :
    (files d).filter (fun file => P file.1) = (files d').filter fun file => P file.1 := by
  have hnodup : ∀ d : Directory, ((files d).filter fun file => P file.1).Nodup := fun d =>
    ((nodup_files d).of_map _).filter _
  have hperm : ((files d).filter fun file => P file.1).Perm
      ((files d').filter fun file => P file.1) := by
    refine (List.perm_ext_iff_of_nodup (hnodup d) (hnodup d')).mpr fun file => ?_
    simp only [List.mem_filter]
    refine and_congr_left fun hP => ?_
    rw [mem_files, mem_files, h _ hP]
  refine hperm.eq_of_pairwise (fun a b ha hb hab hba => ?_) ((pairwise_files d).filter _)
    ((pairwise_files d').filter _)
  -- two files of one name are one file
  have hname : a.1 = b.1 := List.le_antisymm hab hba
  have hfile := mem_files.mp (List.mem_of_mem_filter (hperm.mem_iff.mp ha))
  have hfile' := mem_files.mp (List.mem_of_mem_filter hb)
  rw [hname, hfile'] at hfile
  exact Prod.ext hname (Option.some.inj hfile).symm

def withoutScratch (scratch : Bytes) (d : Directory) : Directory :=
  (sortedKeys (· ≤ ·) d.keys).foldl (fun d name => if scratch <+: name then d.erase name else d) d

theorem agrees_withoutScratch (scratch : Bytes) (d : Directory) :
    Agrees scratch d (withoutScratch scratch d) := by
  have key : ∀ (names : List Bytes) (d' : Directory), Agrees scratch d d' → Agrees scratch d
      (names.foldl (fun d name => if scratch <+: name then d.erase name else d) d') := by
    intro names
    induction names with
    | nil => exact fun d' h => h
    | cons name names ih =>
      intro d' h
      refine ih _ ?_
      by_cases hs : scratch <+: name
      · simp only [hs, if_true]
        exact h.erase_scratch hs
      · simp only [hs, if_false]
        exact h
  exact key _ d (Agrees.refl d)

end Directory

namespace Store

variable {scratch : Bytes} {s s' : Store} {name : Bytes} {d : Directory}

/-! ## Operations -/

def put (name : Bytes) (f : File) (s : Store) : Store :=
  { s with live := s.live.insert name f, pending := (name, some f) :: s.pending }

def del (name : Bytes) (s : Store) : Store :=
  { s with live := s.live.erase name, pending := (name, none) :: s.pending }

def sync (s : Store) : Store := { live := s.live, durable := s.live, pending := [] }

def ofDirectory (d : Directory) : Store := { live := d, durable := d, pending := [] }

@[simp] theorem put_live (name : Bytes) (f : File) (s : Store) :
    (s.put name f).live = s.live.insert name f := rfl

@[simp] theorem put_durable (name : Bytes) (f : File) (s : Store) :
    (s.put name f).durable = s.durable := rfl

@[simp] theorem put_pending (name : Bytes) (f : File) (s : Store) :
    (s.put name f).pending = (name, some f) :: s.pending := rfl

@[simp] theorem del_live (name : Bytes) (s : Store) : (s.del name).live = s.live.erase name := rfl

@[simp] theorem del_durable (name : Bytes) (s : Store) : (s.del name).durable = s.durable := rfl

@[simp] theorem del_pending (name : Bytes) (s : Store) :
    (s.del name).pending = (name, none) :: s.pending := rfl

@[simp] theorem sync_live (s : Store) : s.sync.live = s.live := rfl

@[simp] theorem sync_durable (s : Store) : s.sync.durable = s.live := rfl

@[simp] theorem sync_pending (s : Store) : s.sync.pending = [] := rfl

theorem sync_del_of_absent (h : s.live.lookup name = none) : s.sync = (s.del name).sync := by
  simp only [sync, del_live, erase_of_lookup_none h]

/-! ## Agreement outside scratch names -/

/-- Two stores that agree outside the scratch names: in what a process sees, in what is durable and
in what is pending. -/
structure Agrees (scratch : Bytes) (s s' : Store) : Prop where
  live : Directory.Agrees scratch s.live s'.live
  durable : Directory.Agrees scratch s.durable s'.durable
  pending : ∀ n v, ¬ scratch <+: n → ((n, v) ∈ s.pending ↔ (n, v) ∈ s'.pending)

namespace Agrees

variable {s s' : Store}

theorem refl (s : Store) : Agrees scratch s s :=
  ⟨Directory.Agrees.refl _, Directory.Agrees.refl _, fun _ _ _ => Iff.rfl⟩

theorem symm (h : Agrees scratch s s') : Agrees scratch s' s :=
  ⟨h.live.symm, h.durable.symm, fun n v hn => (h.pending n v hn).symm⟩

theorem put (h : Agrees scratch s s') (name : Bytes) (f : File) :
    Agrees scratch (s.put name f) (s'.put name f) := by
  refine ⟨h.live.insert name f, h.durable, fun n v hn => ?_⟩
  simp only [put_pending, List.mem_cons, h.pending n v hn]

theorem sync (h : Agrees scratch s s') : Agrees scratch s.sync s'.sync :=
  ⟨h.live, h.live, fun _ _ _ => Iff.rfl⟩

theorem put_scratch (h : Agrees scratch s s') {name : Bytes} (hs : scratch <+: name) (f : File) :
    Agrees scratch s (s'.put name f) := by
  refine ⟨h.live.insert_scratch hs f, h.durable, fun n v hn => ?_⟩
  have hne : n ≠ name := fun heq => hn (heq ▸ hs)
  simp [h.pending n v hn, hne]

theorem del_scratch (h : Agrees scratch s s') {name : Bytes} (hs : scratch <+: name) :
    Agrees scratch s (s'.del name) := by
  refine ⟨h.live.erase_scratch hs, h.durable, fun n v hn => ?_⟩
  have hne : n ≠ name := fun heq => hn (heq ▸ hs)
  simp [h.pending n v hn, hne]

end Agrees

/-! ## Crashes -/

/-- A value a name may hold after a crash, before its content is torn. -/
def MayHold (s : Store) (name : Bytes) (v : Option File) : Prop :=
  v = s.durable.lookup name ∨ (name, v) ∈ s.pending

/-- What a crash leaves of one value: a flushed file as it was, and otherwise a file of the same
kind and permissions with arbitrary content. -/
def Torn : Option File → Option File → Prop
  | none, v => v = none
  | some f, v => if f.synced then v = some f else ∃ data, v = some { f with data, synced := true }

/-- **The directories a crash may leave**: each name holds one of the values it may hold, torn when
its content was not flushed. -/
def Survives (s : Store) (d : Directory) : Prop :=
  ∀ n, ∃ v, s.MayHold n v ∧ Torn v (d.lookup n)

theorem survives_durable (h : ∀ n f, s.durable.lookup n = some f → f.synced = true) :
    s.Survives s.durable := by
  intro n
  refine ⟨s.durable.lookup n, .inl rfl, ?_⟩
  cases hf : s.durable.lookup n with
  | none => exact rfl
  | some f => simp [Torn, h n f hf]

theorem Survives.synced (hd : s.Survives d) {n : Bytes} {f : File} (hf : d.lookup n = some f) :
    f.synced = true := by
  obtain ⟨v, -, ht⟩ := hd n
  rw [hf] at ht
  cases v with
  | none => cases ht
  | some g =>
    simp only [Torn] at ht
    by_cases hg : g.synced = true
    · rw [if_pos hg] at ht
      cases ht
      exact hg
    · rw [if_neg hg] at ht
      obtain ⟨data, hdata⟩ := ht
      cases hdata
      rfl

/-- Outside scratch names every file is flushed, durable and not pending a change. -/
structure Quiet (scratch : Bytes) (s : Store) : Prop where
  settled : Directory.Agrees scratch s.durable s.live
  still : ∀ n v, ¬ scratch <+: n → (n, v) ∉ s.pending
  flushed : ∀ n f, ¬ scratch <+: n → s.live.lookup n = some f → f.synced = true

theorem Quiet.of_agrees (h : Quiet scratch s) (ha : Agrees scratch s s') :
    Quiet scratch s' where
  settled := ha.durable.symm.trans (h.settled.trans ha.live)
  still n v hn hp := h.still n v hn ((ha.pending n v hn).mpr hp)
  flushed n f hn hl := h.flushed n f hn ((ha.live n hn).trans hl)

theorem quiet_ofDirectory (h : ∀ n f, ¬ scratch <+: n → d.lookup n = some f → f.synced = true) :
    Quiet scratch (ofDirectory d) :=
  ⟨Directory.Agrees.refl _, fun _ _ _ hp => by simp [ofDirectory] at hp, h⟩

theorem quiet_sync (h : ∀ n f, ¬ scratch <+: n → s.live.lookup n = some f → f.synced = true) :
    Quiet scratch s.sync :=
  ⟨Directory.Agrees.refl _, fun _ _ _ hp => by simp at hp, h⟩

theorem torn_of_synced {v v' : Option File} (h : ∀ f, v = some f → f.synced = true)
    (ht : Torn v v') : v' = v := by
  cases v with
  | none => exact ht
  | some f => simpa [Torn, h f rfl] using ht

theorem MayHold.of_agrees (ha : Agrees scratch s s') {n : Bytes} (hn : ¬ scratch <+: n)
    {v : Option File} (h : s.MayHold n v) : s'.MayHold n v := by
  rcases h with h | h
  · exact Or.inl (h.trans (ha.durable n hn))
  · exact Or.inr ((ha.pending n v hn).mp h)

/-- **A crash of a quiet store leaves what a process saw.** -/
theorem Quiet.survives (h : Quiet scratch s) (ha : Agrees scratch s s') (hd : s'.Survives d) :
    Directory.Agrees scratch d s.live := by
  intro n hn
  obtain ⟨v, hv, ht⟩ := hd n
  rcases hv.of_agrees ha.symm hn with rfl | hp
  · rw [h.settled n hn] at ht
    exact torn_of_synced (fun f hf => h.flushed n f hn hf) ht
  · exact absurd hp (h.still n v hn)

/-- When one name has a pending value, a crash leaves the old directory or the one with that value
at that name. -/
theorem Quiet.survives_change (h : Quiet scratch s) {new : Option File} {after : Directory}
    (hnew : ∀ f, new = some f → f.synced = true)
    (hafter : ∀ n, after.lookup n = if n = name then new else s.live.lookup n)
    (ha : Agrees scratch { s with live := after, pending := (name, new) :: s.pending } s')
    (hd : s'.Survives d) :
    Directory.Agrees scratch d s.live ∨ Directory.Agrees scratch d after := by
  -- Each name alone holds its old value, unless it is the one name and holds the new one.
  have hone : ∀ n, ¬ scratch <+: n →
      d.lookup n = s.live.lookup n ∨ n = name ∧ d.lookup n = new := by
    intro n hn
    obtain ⟨v, hv, ht⟩ := hd n
    rcases hv.of_agrees ha.symm hn with rfl | hp
    · rw [h.settled n hn] at ht
      exact Or.inl (torn_of_synced (fun f hf => h.flushed n f hn hf) ht)
    · rcases List.mem_cons.mp hp with heq | hp
      · cases heq
        exact Or.inr ⟨rfl, torn_of_synced hnew ht⟩
      · exact absurd hp (h.still n v hn)
  by_cases hname : d.lookup name = new
  · refine Or.inr fun n hn => ?_
    rw [hafter]
    rcases hone n hn with hold | ⟨rfl, _⟩
    · split
      · next heq => rw [heq, hname]
      · exact hold
    · rw [if_pos rfl, hname]
  · refine Or.inl fun n hn => ?_
    rcases hone n hn with hold | ⟨rfl, hn⟩
    · exact hold
    · exact absurd hn hname

/-- **A crash during one replacement** leaves the old directory or the new one. -/
theorem Quiet.survives_put (h : Quiet scratch s) {f : File} (hf : f.synced = true)
    (ha : Agrees scratch (s.put name f) s') (hd : s'.Survives d) :
    Directory.Agrees scratch d s.live ∨ Directory.Agrees scratch d (s.live.insert name f) := by
  refine h.survives_change ?_ (lookup_insert_ite _ _ _) ha hd
  rintro g ⟨⟩
  exact hf

/-- **A crash during one removal** leaves the old directory or the new one. -/
theorem Quiet.survives_del (h : Quiet scratch s) (ha : Agrees scratch (s.del name) s')
    (hd : s'.Survives d) :
    Directory.Agrees scratch d s.live ∨ Directory.Agrees scratch d (s.live.erase name) := by
  refine h.survives_change ?_ (lookup_erase_ite _ _) ha hd
  rintro g ⟨⟩

end Store

end Foundation
