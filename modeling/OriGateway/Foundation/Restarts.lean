import OriGateway.Foundation.Store

/-! # What a restart finds

A process that starts again finds the directory as the process before it saw it, or, when the
machine itself went down, one of those that survive the crash (**`Store.Leaves`**). Read name by
name, that is the set of values a name may show (**`Store.MayShow`**): an operation adds the value
it writes to that set, and a directory sync leaves the live value alone. -/

namespace Foundation

namespace Store

variable {scratch : Bytes} {s s' : Store} {n : Bytes} {v : Option File}

/-- **The directories a restart may find**: the one a process sees, or one that survives a crash. -/
def Leaves (s : Store) (d : Directory) : Prop := d = s.live ∨ s.Survives d

def MayShow (s : Store) (n : Bytes) (v : Option File) : Prop :=
  v = s.live.lookup n ∨ ∃ u, s.MayHold n u ∧ Torn u v

theorem mayShow_live (s : Store) (n : Bytes) : s.MayShow n (s.live.lookup n) := .inl rfl

theorem Leaves.mayShow {d : Directory} (h : s.Leaves d) (n : Bytes) : s.MayShow n (d.lookup n) := by
  rcases h with rfl | h
  · exact s.mayShow_live n
  · exact .inr (h n)

theorem MayShow.of_agrees (ha : Agrees scratch s s') (hn : ¬ scratch <+: n)
    (h : s'.MayShow n v) : s.MayShow n v := by
  rcases h with rfl | ⟨u, hu, ht⟩
  · rw [← ha.live n hn]
    exact s.mayShow_live n
  · exact .inr ⟨u, hu.of_agrees ha.symm hn, ht⟩

/-! ## Changes of one name -/

def set (name : Bytes) : Option File → Store → Store
  | some f, s => s.put name f
  | none, s => s.del name

theorem lookup_live_set (s : Store) (name : Bytes) (new : Option File) (n : Bytes) :
    (s.set name new).live.lookup n = if n = name then new else s.live.lookup n := by
  cases new with
  | none => exact lookup_erase_ite ..
  | some f => exact lookup_insert_ite ..

theorem set_durable (s : Store) (name : Bytes) (new : Option File) :
    (s.set name new).durable = s.durable := by
  cases new <;> rfl

theorem set_pending (s : Store) (name : Bytes) (new : Option File) :
    (s.set name new).pending = (name, new) :: s.pending := by
  cases new <;> rfl

theorem MayShow.of_set {name : Bytes} {new : Option File}
    (hnew : ∀ f, new = some f → f.synced = true) (h : (s.set name new).MayShow n v) :
    s.MayShow n v ∨ n = name ∧ v = new := by
  rcases h with rfl | ⟨u, hu | hu, ht⟩
  · rw [lookup_live_set]
    by_cases hname : n = name
    · rw [if_pos hname]
      exact .inr ⟨hname, rfl⟩
    · rw [if_neg hname]
      exact .inl (s.mayShow_live n)
  · rw [set_durable] at hu
    exact .inl (.inr ⟨u, .inl hu, ht⟩)
  · rw [set_pending] at hu
    rcases List.mem_cons.mp hu with heq | hu
    · obtain ⟨rfl, rfl⟩ := Prod.mk.inj heq
      exact .inr ⟨rfl, torn_of_synced hnew ht⟩
    · exact .inl (.inr ⟨u, .inr hu, ht⟩)

/-- Once the directory is flushed, a name whose live file is flushed shows it and nothing else. -/
theorem MayShow.of_sync (hf : ∀ f, s.live.lookup n = some f → f.synced = true)
    (h : s.sync.MayShow n v) : v = s.live.lookup n := by
  rcases h with rfl | ⟨u, hu | hu, ht⟩
  · rfl
  · subst hu
    exact torn_of_synced hf ht
  · cases hu

theorem MayShow.of_ofDirectory {d : Directory} (hf : ∀ f, d.lookup n = some f → f.synced = true)
    (h : (ofDirectory d).MayShow n v) : v = d.lookup n :=
  MayShow.of_sync (s := ofDirectory d) hf h

def Flushed (scratch : Bytes) (s : Store) : Prop :=
  ∀ n f, ¬ scratch <+: n → s.live.lookup n = some f → f.synced = true

theorem Flushed.of_agrees (h : Flushed scratch s) (ha : Agrees scratch s s') :
    Flushed scratch s' := fun n f hn hf => h n f hn ((ha.live n hn).trans hf)

theorem Flushed.set (h : Flushed scratch s) {name : Bytes} {new : Option File}
    (hnew : ∀ f, new = some f → f.synced = true) : Flushed scratch (s.set name new) := by
  intro n f hn hf
  rw [lookup_live_set] at hf
  split at hf
  · exact hnew f hf
  · exact h n f hn hf

/-- **A write of one name**, whatever of it was done: another name shows what it did, and the name
itself shows what it did or the new value. -/
structure Writes (scratch name : Bytes) (new : Option File) (s s' : Store) : Prop where
  shows : ∀ n v, ¬ scratch <+: n → s'.MayShow n v → s.MayShow n v ∨ n = name ∧ v = new
  flushed : Flushed scratch s'

section Writes

variable {name : Bytes} {new : Option File}

theorem Flushed.writes (h : Flushed scratch s) (ha : Agrees scratch s s') :
    Writes scratch name new s s' where
  shows _ _ hn hv := .inl (hv.of_agrees ha hn)
  flushed := h.of_agrees ha

theorem Flushed.writes_set (h : Flushed scratch s) (hnew : ∀ f, new = some f → f.synced = true)
    (ha : Agrees scratch (s.set name new) s') : Writes scratch name new s s' where
  shows _ _ hn hv := (hv.of_agrees ha hn).of_set hnew
  flushed := (h.set hnew).of_agrees ha

theorem Flushed.writes_sync (h : Flushed scratch s) (hnew : ∀ f, new = some f → f.synced = true)
    (ha : Agrees scratch (s.set name new).sync s') : Writes scratch name new s s' where
  shows n v hn hv := by
    rw [(hv.of_agrees ha hn).of_sync fun f hf => h.set hnew n f hn hf]
    exact (mayShow_live _ n).of_set hnew
  flushed := Flushed.of_agrees (s := (s.set name new).sync) (h.set hnew) ha

theorem MayShow.of_set_sync (hname : ¬ scratch <+: name)
    (hnew : ∀ f, new = some f → f.synced = true) (ha : Agrees scratch (s.set name new).sync s')
    (h : s'.MayShow name v) : v = new := by
  have hlive : (s.set name new).live.lookup name = new := by rw [lookup_live_set, if_pos rfl]
  rw [(h.of_agrees ha hname).of_sync fun f hf => hnew f (hlive.symm.trans hf), hlive]

end Writes

end Store

end Foundation
