import Mathlib.Data.List.Basic
import Mathlib.Data.List.Nodup
import Mathlib.Logic.Function.Basic
import Mathlib.Tactic.Common

/-! # Binary heaps whose elements know their place

An array-based binary heap over any elements (**`PosHeap P`**), with the place of each element kept
beside it, so that an element can be removed from the middle. An element is pushed at the end and
sifted up, or removed by swapping it with the last and sifting that one. Every operation keeps each
element where its place says (**`Placed`**). -/

namespace Foundation

/-- A heap: its elements in array order, and the place recorded for each. -/
structure PosHeap (P : Type) where
  items : List P
  pos : P → Nat

namespace PosHeap

variable {i j n : Nat}

variable {P : Type}

def empty : PosHeap P := ⟨[], fun _ => 0⟩

def pop (h : PosHeap P) : PosHeap P := { h with items := h.items.dropLast }

/-! ## Places -/

/-- Every element occurs once, where its place says. -/
structure Placed (h : PosHeap P) : Prop where
  nodup : h.items.Nodup
  pos_eq : ∀ i p, h.items[i]? = some p → h.pos p = i

/-- A heap rearranged below a place: the same elements, those from the place on where they were. -/
structure Rearranged (n : Nat) (h h' : PosHeap P) : Prop where
  perm : h'.items.Perm h.items
  above : ∀ k, n ≤ k → h'.items[k]? = h.items[k]?
  placed : Placed h → Placed h'

theorem Rearranged.refl (n : Nat) (h : PosHeap P) : Rearranged n h h :=
  ⟨.refl _, fun _ _ => rfl, id⟩

theorem Rearranged.trans {h h' h'' : PosHeap P} (a : Rearranged n h h') (b : Rearranged n h' h'') :
    Rearranged n h h'' :=
  ⟨b.perm.trans a.perm, fun k hk => (b.above k hk).trans (a.above k hk),
    fun hp => b.placed (a.placed hp)⟩

theorem placed_empty : Placed (empty : PosHeap P) := ⟨List.nodup_nil, by simp [empty]⟩

theorem placed_pop {h : PosHeap P} (hp : Placed h) : Placed h.pop := by
  refine ⟨hp.nodup.sublist (List.dropLast_sublist _), fun i p hi => hp.pos_eq i p ?_⟩
  simp only [pop, List.getElem?_dropLast] at hi
  split at hi
  · exact hi
  · cases hi

theorem pop_perm {h : PosHeap P} {p : P} (hlast : h.items[h.items.length - 1]? = some p) :
    (p :: h.pop.items).Perm h.items := by
  have hne : h.items ≠ [] := by
    rintro heq
    simp [heq] at hlast
  have hget : h.items.getLast hne = p := by
    rw [List.getLast_eq_getElem]
    exact (List.getElem?_eq_some_iff.mp hlast).2
  have happend := List.dropLast_append_getLast hne
  rw [hget] at happend
  calc (p :: h.items.dropLast).Perm (h.items.dropLast ++ [p]) :=
    (List.perm_append_singleton _ _).symm
    _ = h.items := happend

/-! ## Operations -/

variable [DecidableEq P]

/-- Swap two positions. -/
def swap (i j : Nat) (h : PosHeap P) : PosHeap P :=
  match h.items[i]?, h.items[j]? with
  | some a, some b =>
    { items := (h.items.set i b).set j a
      pos := Function.update (Function.update h.pos b i) a j }
  | _, _ => h

def before (less : P → P → Bool) (h : PosHeap P) (i j : Nat) : Bool :=
  match h.items[i]?, h.items[j]? with
  | some a, some b => less a b
  | _, _ => false

/-- `container/heap`'s `up`. -/
def up (less : P → P → Bool) : Nat → Nat → PosHeap P → PosHeap P
  | 0, _, h => h
  | fuel + 1, j, h =>
    let i := (j - 1) / 2
    if i = j ∨ h.before less j i = false then h
    else up less fuel i (h.swap i j)

/-- The child of a place to sift an element down to, among the first `n` places. -/
def child (less : P → P → Bool) (n i : Nat) (h : PosHeap P) : Nat :=
  let j := 2 * i + 1
  if j + 1 < n ∧ h.before less (j + 1) j = true then j + 1 else j

/-- Sift the element at a place down among the first `n` places, and where it ends. -/
def down (less : P → P → Bool) (n : Nat) : Nat → Nat → PosHeap P → PosHeap P × Nat
  | 0, i, h => (h, i)
  | fuel + 1, i, h =>
    if n ≤ 2 * i + 1 then (h, i)
    else
      let j := child less n i h
      if h.before less j i = false then (h, i)
      else down less n fuel j (h.swap i j)

def append (p : P) (h : PosHeap P) : PosHeap P :=
  { items := h.items ++ [p], pos := Function.update h.pos p h.items.length }

def push (less : P → P → Bool) (p : P) (h : PosHeap P) : PosHeap P :=
  up less h.items.length h.items.length (h.append p)

/-- Restore the order at a place after its element was replaced, among the first `n` places. -/
def fix (less : P → P → Bool) (n i : Nat) (h : PosHeap P) : PosHeap P :=
  let r := down less n n i h
  if i < r.2 then r.1 else up less n i r.1

def remove (less : P → P → Bool) (i : Nat) (h : PosHeap P) : PosHeap P :=
  let n := h.items.length - 1
  if n = i then h.pop else (fix less n i (h.swap i n)).pop

/-! ## What sifting keeps -/

theorem getElem?_swap {h : PosHeap P} {a b : P} (ha : h.items[i]? = some a)
    (hb : h.items[j]? = some b) (k : Nat) :
    (h.swap i j).items[k]? = if k = j then some a else if k = i then some b else h.items[k]? := by
  have hi := (List.getElem?_eq_some_iff.mp ha).1
  have hj := (List.getElem?_eq_some_iff.mp hb).1
  simp only [swap, ha, hb, List.getElem?_set, List.length_set]
  by_cases hkj : k = j
  · subst hkj
    simp [hj]
  · by_cases hki : k = i
    · subst hki
      simp [hi, hkj, Ne.symm hkj]
    · simp [hkj, hki, Ne.symm hkj, Ne.symm hki]

theorem rearranged_swap (hi : i < n) (hj : j < n) (h : PosHeap P) :
    Rearranged n h (h.swap i j) := by
  cases ha : h.items[i]? with
  | none =>
    have hswap : h.swap i j = h := by simp [swap, ha]
    rw [hswap]
    exact .refl n h
  | some a =>
    cases hb : h.items[j]? with
    | none =>
      have hswap : h.swap i j = h := by simp [swap, ha, hb]
      rw [hswap]
      exact .refl n h
    | some b =>
      have hget := getElem?_swap ha hb
      obtain ⟨hia, hia'⟩ := List.getElem?_eq_some_iff.mp ha
      obtain ⟨hjb, hjb'⟩ := List.getElem?_eq_some_iff.mp hb
      have hperm : (h.swap i j).items.Perm h.items := by
        simp only [swap, ha, hb]
        rw [← hia', ← hjb']
        exact List.set_set_perm hia hjb
      refine ⟨hperm, fun k hk => ?_, fun hp => ⟨hperm.nodup_iff.mpr hp.nodup, fun k p hk => ?_⟩⟩
      · rw [hget, if_neg (by omega), if_neg (by omega)]
      · -- an element is at one of the two swapped places, or where it was
        have hpos : (h.swap i j).pos = Function.update (Function.update h.pos b i) a j := by
          simp [swap, ha, hb]
        rw [hget] at hk
        rw [hpos]
        split at hk
        · next hkj =>
          cases hk
          rw [Function.update_self, hkj]
        · next hkj =>
          split at hk
          · next hki =>
            cases hk
            by_cases hab : a = b
            · have := hp.pos_eq i a ha
              have := hp.pos_eq j a (hab ▸ hb)
              omega
            · rw [Function.update_of_ne (Ne.symm hab), Function.update_self, hki]
          · next hki =>
            have hk' := hp.pos_eq k p hk
            have hpa : p ≠ a := fun heq => hki (by rw [← hk', heq, hp.pos_eq i a ha])
            have hpb : p ≠ b := fun heq => hkj (by rw [← hk', heq, hp.pos_eq j b hb])
            rw [Function.update_of_ne hpa, Function.update_of_ne hpb, hk']

theorem rearranged_up (less : P → P → Bool) (fuel : Nat) (hj : j < n) (h : PosHeap P) :
    Rearranged n h (up less fuel j h) := by
  induction fuel generalizing j h with
  | zero => exact .refl n h
  | succ fuel ih =>
    simp only [up]
    split
    · exact .refl n h
    · have hparent : (j - 1) / 2 < n := by omega
      exact (rearranged_swap hparent hj h).trans (ih hparent _)

omit [DecidableEq P] in
theorem child_lt {less : P → P → Bool} {h : PosHeap P} (hn : ¬ n ≤ 2 * i + 1) :
    child less n i h < n := by
  simp only [child]
  split <;> omega

theorem rearranged_down (less : P → P → Bool) (fuel : Nat) (hi : i < n) (h : PosHeap P) :
    Rearranged n h (down less n fuel i h).1 := by
  induction fuel generalizing i h with
  | zero => exact .refl n h
  | succ fuel ih =>
    simp only [down]
    split
    · exact .refl n h
    · next hn =>
      split
      · exact .refl n h
      · have hchild : child less n i h < n := child_lt hn
        exact (rearranged_swap hi hchild h).trans (ih hchild _)

theorem rearranged_fix (less : P → P → Bool) (hi : i < n) (h : PosHeap P) :
    Rearranged n h (fix less n i h) := by
  unfold fix
  simp only
  split
  · exact rearranged_down less n hi h
  · exact (rearranged_down less n hi h).trans (rearranged_up less n hi _)

/-! ## Pushing and removing -/

theorem placed_append {h : PosHeap P} {p : P} (hp : Placed h) (hnew : p ∉ h.items) :
    Placed (h.append p) := by
  have hnodup : (h.append p).items.Nodup := by
    simpa [append, List.nodup_append] using
      ⟨hp.nodup, fun a ha => ne_of_mem_of_not_mem ha hnew⟩
  refine ⟨hnodup, fun i q hq => ?_⟩
  simp only [append] at hq ⊢
  rw [List.getElem?_append] at hq
  split at hq
  · have hne : q ≠ p := ne_of_mem_of_not_mem (List.mem_of_getElem? hq) hnew
    rw [Function.update_of_ne hne]
    exact hp.pos_eq i q hq
  · next hlen =>
    obtain ⟨hi, hq⟩ := List.getElem?_eq_some_iff.mp hq
    simp only [List.length_singleton] at hi
    have hp' : q = p := by simpa using hq.symm
    rw [hp', Function.update_self]
    omega

theorem rearranged_push (less : P → P → Bool) (p : P) (h : PosHeap P) :
    Rearranged (h.items.length + 1) (h.append p) (h.push less p) :=
  rearranged_up less _ (Nat.lt_succ_self _) _

theorem push_perm (less : P → P → Bool) (p : P) (h : PosHeap P) :
    (h.push less p).items.Perm (p :: h.items) :=
  (rearranged_push less p h).perm.trans (List.perm_append_singleton p h.items)

theorem placed_push (less : P → P → Bool) {h : PosHeap P} {p : P} (hp : Placed h)
    (hnew : p ∉ h.items) : Placed (h.push less p) :=
  (rearranged_push less p h).placed (placed_append hp hnew)

/-- A removal drops the last element of a rearranged heap, and that is the one removed. -/
theorem remove_eq_pop (less : P → P → Bool) {h : PosHeap P} {p : P} (hi : h.items[i]? = some p) :
    ∃ h', h.remove less i = h'.pop ∧ h'.items.Perm h.items ∧ (Placed h → Placed h') ∧
      h'.items[h'.items.length - 1]? = some p := by
  have hlt := (List.getElem?_eq_some_iff.mp hi).1
  unfold remove
  simp only
  split
  · next hlast =>
    exact ⟨h, rfl, .refl _, id, hlast ▸ hi⟩
  · next hne =>
    have hlast : h.items.length - 1 < h.items.length := by omega
    obtain ⟨q, hq⟩ : ∃ q, h.items[h.items.length - 1]? = some q :=
      ⟨_, List.getElem?_eq_getElem hlast⟩
    have hswap := rearranged_swap hlt hlast h
    have hi' : i < h.items.length - 1 := by omega
    have hfix := rearranged_fix less hi' (h.swap i (h.items.length - 1))
    have hperm := hfix.perm.trans hswap.perm
    refine ⟨_, rfl, hperm, fun hp => hfix.placed (hswap.placed hp), ?_⟩
    rw [hperm.length_eq, hfix.above _ (Nat.le_refl _), getElem?_swap hi hq, if_pos rfl]

theorem remove_perm (less : P → P → Bool) {h : PosHeap P} {p : P} (hi : h.items[i]? = some p) :
    (p :: (h.remove less i).items).Perm h.items := by
  obtain ⟨h', heq, hperm, -, hlast⟩ := remove_eq_pop less hi
  rw [heq]
  exact (pop_perm hlast).trans hperm

theorem placed_remove (less : P → P → Bool) {h : PosHeap P} {p : P} (hi : h.items[i]? = some p)
    (hp : Placed h) : Placed (h.remove less i) := by
  obtain ⟨h', heq, -, hplaced, -⟩ := remove_eq_pop less hi
  rw [heq]
  exact placed_pop (hplaced hp)

end PosHeap

end Foundation
