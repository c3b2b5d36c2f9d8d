import Mathlib.Data.List.Perm.Basic
import Mathlib.Data.List.Nodup
import Mathlib.Data.List.Range
import Mathlib.Data.List.Count

/-! # Gates

A gate lets units of work in until it refuses, and whoever waits for it waits until every unit it
let in was released. The units are numbered in the order in which they were let in; who holds a unit
is not the gate's business, so what a gate needs of its users is stated over the list of the units
that are held (**`Balanced`**): every unit is held once or was released once, and the gate counts
those that are held. -/

namespace Foundation

theorem cons_set_perm {α : Type} {l : List α} {i : Nat} {x y : α} (h : l[i]? = some y) :
    (y :: l.set i x).Perm (x :: l) := by
  induction l generalizing i with
  | nil => simp at h
  | cons z l ih =>
    cases i with
    | zero =>
      obtain rfl : z = y := by simpa using h
      exact List.Perm.swap x z l
    | succ i =>
      have hrest : (y :: l.set i x).Perm (x :: l) := ih (by simpa using h)
      exact ((List.Perm.swap z y _).trans (hrest.cons z)).trans (List.Perm.swap x z l)

/-- A gate. -/
structure Gate where
  closed : Bool
  running : Nat
  admitted : Nat
  released : List Nat

namespace Gate

def fresh : Gate := ⟨false, 0, 0, []⟩

def refuse (g : Gate) : Gate := { g with closed := true }

def enter (g : Gate) : Option (Nat × Gate) :=
  if g.closed then
    none else some (g.admitted, { g with running := g.running + 1, admitted := g.admitted + 1 })

def release (g : Gate) (u : Nat) : Gate :=
  { g with running := g.running - 1, released := u :: g.released }

/-- What becomes of a gate: once it refuses it goes on to, and lets nothing in. -/
structure Later (g g' : Gate) : Prop where
  closed : g.closed = true → g'.closed = true
  admitted : g.closed = true → g'.admitted = g.admitted
  running : g.closed = true → g'.running ≤ g.running

theorem Later.refl (g : Gate) : g.Later g := ⟨id, fun _ => rfl, fun _ => le_rfl⟩

theorem Later.trans {g g' g'' : Gate} (h : g.Later g') (h' : g'.Later g'') : g.Later g'' where
  closed hg := h'.closed (h.closed hg)
  admitted hg := (h'.admitted (h.closed hg)).trans (h.admitted hg)
  running hg := (h'.running (h.closed hg)).trans (h.running hg)

theorem later_refuse (g : Gate) : g.Later g.refuse := ⟨fun _ => rfl, fun _ => rfl, fun _ => le_rfl⟩

theorem later_release (g : Gate) (u : Nat) : g.Later (g.release u) :=
  ⟨id, fun _ => rfl, fun _ => Nat.sub_le _ _⟩

theorem later_enter {g g' : Gate} {u : Nat} (h : g.enter = some (u, g')) : g.Later g' := by
  obtain ⟨hopen, -⟩ := Option.ite_none_left_eq_some.mp h
  exact ⟨fun hclosed => absurd hclosed hopen, fun hclosed => absurd hclosed hopen,
    fun hclosed => absurd hclosed hopen⟩

/-- **Every unit is held once or was released once**, and the gate counts those that are held. -/
structure Balanced (g : Gate) (holders : List Nat) : Prop where
  units : (holders ++ g.released).Perm (List.range g.admitted)
  running : g.running = holders.length

variable {g g' : Gate} {holders holders' : List Nat} {u : Nat}

theorem balanced_fresh : fresh.Balanced [] := ⟨List.Perm.refl _, rfl⟩

theorem Balanced.perm (h : g.Balanced holders) (hperm : holders'.Perm holders) :
    g.Balanced holders' where
  units := (hperm.append_right _).trans h.units
  running := h.running.trans hperm.length_eq.symm

theorem Balanced.refuse (h : g.Balanced holders) : g.refuse.Balanced holders := ⟨h.units, h.running⟩

theorem Balanced.enter (h : g.Balanced holders) (henter : g.enter = some (u, g')) :
    g'.Balanced (u :: holders) := by
  obtain ⟨-, hg⟩ := Option.ite_none_left_eq_some.mp henter
  cases hg
  refine ⟨?_, by rw [List.length_cons, h.running]⟩
  show (g.admitted :: (holders ++ g.released)).Perm (List.range (g.admitted + 1))
  rw [List.range_succ]
  exact (h.units.cons _).trans (List.perm_append_singleton _ _).symm

theorem Balanced.release (h : g.Balanced (u :: holders)) : (g.release u).Balanced holders := by
  refine ⟨?_, ?_⟩
  · show (holders ++ u :: g.released).Perm (List.range g.admitted)
    exact List.perm_middle.trans h.units
  · show g.running - 1 = holders.length
    rw [h.running, List.length_cons, Nat.add_sub_cancel]

theorem Balanced.nodup_released (h : g.Balanced holders) : g.released.Nodup :=
  (h.units.nodup_iff.mpr List.nodup_range).of_append_right

theorem Balanced.held (h : g.Balanced holders) (hu : u < g.admitted) (hnot : u ∉ g.released) :
    holders.count u = 1 := by
  have hcount : (holders ++ g.released).count u = 1 := by
    rw [h.units.count_eq, List.count_range, if_pos hu]
  rwa [List.count_append, List.count_eq_zero_of_not_mem hnot, Nat.add_zero] at hcount

theorem Balanced.released_once (h : g.Balanced holders) (hnone : g.running = 0)
    (hu : u < g.admitted) : g.released.count u = 1 := by
  obtain rfl := List.eq_nil_of_length_eq_zero (h.running.symm.trans hnone)
  rw [← List.nil_append g.released, h.units.count_eq, List.count_range, if_pos hu]

end Gate

end Foundation
