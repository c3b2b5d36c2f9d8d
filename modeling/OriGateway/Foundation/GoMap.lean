import Mathlib.Data.Finmap
import Mathlib.Data.List.Sort
import Mathlib.Algebra.BigOperators.Group.Finset.Basic
import Mathlib.Data.Int.Basic
import Mathlib.Algebra.BigOperators.Ring.Finset
import Mathlib.Algebra.Order.BigOperators.Group.Finset
import Mathlib.Tactic.Linarith
import Mathlib.Tactic.Ring

/-! # Maps, counters and sorted keys

Finite maps as Go programs use them. A missing key of a counter reads as zero, `add` is `m[k] += n`,
and `release` takes one item back and deletes the key that holds none any more. **`Tallies`** says
that two counters hold, for each class of a finite set of items, the number of its items and the sum
of their weights, and no key for a class without items. -/

namespace Foundation

abbrev GoMap (K V : Type) := Finmap fun _ : K => V

variable {K V ι κ : Type} [DecidableEq K] [DecidableEq κ]

theorem keys_insert (m : GoMap K V) (k : K) (v : V) :
    (m.insert k v).keys = insert k m.keys := by
  ext x
  simp [Finmap.mem_keys, Finmap.mem_insert]

theorem lookup_eq_none_of_notMem {m : GoMap K V} {k : K} (h : k ∉ m.keys) : m.lookup k = none :=
  Finmap.lookup_eq_none.mpr fun hmem => h (Finmap.mem_keys.mpr hmem)

theorem lookup_insert_ite (m : GoMap K V) (k : K) (v : V) (a : K) :
    (m.insert k v).lookup a = if a = k then some v else m.lookup a := by
  split
  · next heq => rw [heq, Finmap.lookup_insert]
  · next hne => rw [Finmap.lookup_insert_of_ne _ hne]

theorem lookup_erase_ite (m : GoMap K V) (k : K) (a : K) :
    (m.erase k).lookup a = if a = k then none else m.lookup a := by
  split
  · next heq => rw [heq, Finmap.lookup_erase]
  · next hne => rw [Finmap.lookup_erase_ne hne]

/-- A fact of every entry stays one when an entry it is true of is inserted. -/
theorem forall_lookup_insert {m : GoMap K V} {P : K → V → Prop}
    (h : ∀ a b, m.lookup a = some b → P a b) {k : K} {v : V} (hk : P k v) :
    ∀ a b, (m.insert k v).lookup a = some b → P a b := by
  intro a b hab
  rw [lookup_insert_ite] at hab
  split at hab
  · next heq =>
    cases hab
    rwa [heq]
  · exact h a b hab

/-- An entry that an erase leaves was there. -/
theorem lookup_of_erase {m : GoMap K V} {k a : K} {b : V} (h : (m.erase k).lookup a = some b) :
    m.lookup a = some b := by
  rw [lookup_erase_ite] at h
  split at h
  · cases h
  · exact h

theorem erase_of_lookup_none {m : GoMap K V} {k : K} (h : m.lookup k = none) :
    m.erase k = m := by
  refine Finmap.ext_lookup fun a => ?_
  rw [lookup_erase_ite]
  split
  · next heq => rw [heq, h]
  · rfl

theorem insert_erase_of_lookup {m : GoMap K V} {k : K} {v : V} (h : m.lookup k = some v) :
    (m.erase k).insert k v = m := by
  refine Finmap.ext_lookup fun a => ?_
  rw [lookup_insert_ite, lookup_erase_ite]
  split
  · next heq => rw [heq, h]
  · rfl

theorem mem_keys_iff {m : GoMap K V} {k : K} : k ∈ m.keys ↔ ∃ v, m.lookup k = some v :=
  Finmap.mem_keys.trans Finmap.mem_iff

/-! ## Counters -/

def GoMap.count (m : GoMap κ Int) (k : κ) : Int := (m.lookup k).getD 0

def GoMap.add (m : GoMap κ Int) (k : κ) (n : Int) : GoMap κ Int := m.insert k (GoMap.count m k + n)

/-- Take one item of weight `n` back from a pair of counters: `counts[k]--`, `sums[k] -= n`, and
both keys are deleted once no item is left. -/
def GoMap.release (counts sums : GoMap κ Int) (k : κ) (n : Int) : GoMap κ Int × GoMap κ Int :=
  let counts' := GoMap.add counts k (-1)
  let sums' := GoMap.add sums k (-n)
  if GoMap.count counts' k ≤ 0 then (counts'.erase k, sums'.erase k) else (counts', sums')

theorem lookup_add (m : GoMap κ Int) (k : κ) (n : Int) :
    (GoMap.add m k n).lookup k = some (GoMap.count m k + n) := Finmap.lookup_insert _

theorem lookup_add_of_ne (m : GoMap κ Int) {k k' : κ} (n : Int) (h : k' ≠ k) :
    (GoMap.add m k n).lookup k' = m.lookup k' := Finmap.lookup_insert_of_ne _ h

@[simp] theorem count_add (m : GoMap κ Int) (k : κ) (n : Int) :
    GoMap.count (GoMap.add m k n) k = GoMap.count m k + n := by
  rw [GoMap.count, lookup_add, Option.getD_some]

theorem count_add_of_ne (m : GoMap κ Int) {k k' : κ} (n : Int) (h : k' ≠ k) :
    GoMap.count (GoMap.add m k n) k' = GoMap.count m k' := by
  rw [GoMap.count, lookup_add_of_ne m n h, GoMap.count]

theorem count_add_le {m : GoMap κ Int} {k k' : κ} {n bound : Int}
    (hother : GoMap.count m k' ≤ bound) (hown : k' = k → GoMap.count m k + n ≤ bound) :
    GoMap.count (GoMap.add m k n) k' ≤ bound := by
  by_cases hk : k' = k
  · rw [hk, count_add]
    exact hown hk
  · rw [count_add_of_ne _ _ hk]
    exact hother

theorem lookup_release_of_ne (counts sums : GoMap κ Int) {k k' : κ} (n : Int) (h : k' ≠ k) :
    (GoMap.release counts sums k n).1.lookup k' = counts.lookup k' ∧
      (GoMap.release counts sums k n).2.lookup k' = sums.lookup k' := by
  simp only [GoMap.release]
  split
  · simp only [Finmap.lookup_erase_ne h, lookup_add_of_ne _ _ h, and_self]
  · simp only [lookup_add_of_ne _ _ h, and_self]

theorem lookup_release (counts sums : GoMap κ Int) (k : κ) (n : Int) :
    (GoMap.release counts sums k n).1.lookup k
        = (if GoMap.count counts k + -1 ≤ 0 then none else some (GoMap.count counts k + -1)) ∧
      (GoMap.release counts sums k n).2.lookup k
        = (if GoMap.count counts k + -1 ≤ 0 then none else some (GoMap.count sums k + -n)) := by
  simp only [GoMap.release, count_add]
  split
  · simp only [Finmap.lookup_erase, and_self]
  · simp only [lookup_add, and_self]

/-! ## Tallies -/

def classOf (items : Finset ι) (cls : ι → κ) (k : κ) : Finset ι := items.filter (cls · = k)

theorem mem_classOf {items : Finset ι} {cls : ι → κ} {k : κ} {i : ι} :
    i ∈ classOf items cls k ↔ i ∈ items ∧ cls i = k := Finset.mem_filter

theorem classOf_congr {items : Finset ι} {cls cls' : ι → κ} (h : ∀ i ∈ items, cls i = cls' i)
    (k : κ) : classOf items cls k = classOf items cls' k :=
  Finset.filter_congr fun i hi => by rw [h i hi]

/-- **Shares add up**: when the items fall into given classes and each class weighs at most a share,
room left within one class's share is room left within all shares together. -/
theorem sum_add_le_of_shares {items : Finset ι} {cls : ι → κ} (wt : ι → Int) {classes : Finset κ}
    {share : Int} (room : Int) (hcls : ∀ i ∈ items, cls i ∈ classes)
    (hshare : ∀ k ∈ classes, ∑ i ∈ classOf items cls k, wt i ≤ share) {k : κ} (hk : k ∈ classes)
    (hroom : ∑ i ∈ classOf items cls k, wt i + room ≤ share) :
    ∑ i ∈ items, wt i + room ≤ classes.card * share := by
  have hall : ∑ i ∈ items, wt i = ∑ k ∈ classes, ∑ i ∈ classOf items cls k, wt i :=
    (Finset.sum_fiberwise_of_maps_to hcls wt).symm
  have hrest : ∑ j ∈ classes.erase k, ∑ i ∈ classOf items cls j, wt i
      ≤ (classes.erase k).card • share :=
    Finset.sum_le_card_nsmul _ _ _ fun j hj => hshare j (Finset.mem_of_mem_erase hj)
  have hcard : (classes.card : Int) = (classes.erase k).card + 1 := by
    have hpos : 0 < classes.card := Finset.card_pos.mpr ⟨k, hk⟩
    rw [Finset.card_erase_of_mem hk]
    omega
  rw [hall, ← Finset.add_sum_erase _ _ hk, hcard, add_mul, one_mul]
  rw [nsmul_eq_mul] at hrest
  linarith

variable [DecidableEq ι]

/-- **Two counters tally a set of items**: at each class that has items, their number and the sum of
their weights; at every other class nothing. -/
structure Tallies (items : Finset ι) (cls : ι → κ) (wt : ι → Int) (counts sums : GoMap κ Int) :
    Prop where
  counts : ∀ k, counts.lookup k =
    if classOf items cls k = ∅ then none else some ((classOf items cls k).card : Int)
  sums : ∀ k, sums.lookup k =
    if classOf items cls k = ∅ then none else some (∑ i ∈ classOf items cls k, wt i)

theorem classOf_insert_of_eq {items : Finset ι} (cls : ι → κ) (i : ι) :
    classOf (insert i items) cls (cls i) = insert i (classOf items cls (cls i)) := by
  simp [classOf, Finset.filter_insert]

theorem classOf_insert_of_ne {items : Finset ι} (cls : ι → κ) {i : ι} {k : κ} (h : k ≠ cls i) :
    classOf (insert i items) cls k = classOf items cls k := by
  simp [classOf, Finset.filter_insert, h.symm]

theorem classOf_erase (items : Finset ι) (cls : ι → κ) (i : ι) (k : κ) :
    classOf (items.erase i) cls k = (classOf items cls k).erase i := Finset.filter_erase _ _ _

namespace Tallies

variable {items : Finset ι} {cls cls' : ι → κ} {wt wt' : ι → Int} {counts sums : GoMap κ Int}

theorem empty (cls : ι → κ) (wt : ι → Int) : Tallies ∅ cls wt ∅ ∅ :=
  ⟨fun k => by simp [classOf], fun k => by simp [classOf]⟩

theorem congr (h : Tallies items cls wt counts sums) (hcls : ∀ i ∈ items, cls i = cls' i)
    (hwt : ∀ i ∈ items, wt i = wt' i) : Tallies items cls' wt' counts sums where
  counts k := by rw [h.counts k, classOf_congr hcls]
  sums k := by
    have hsum : ∑ i ∈ classOf items cls k, wt i = ∑ i ∈ classOf items cls' k, wt' i := by
      rw [classOf_congr hcls]
      exact Finset.sum_congr rfl fun i hi => hwt i (mem_classOf.mp hi).1
    rw [h.sums k, hsum, classOf_congr hcls]

theorem count_eq (h : Tallies items cls wt counts sums) (k : κ) :
    GoMap.count counts k = (classOf items cls k).card := by
  rw [GoMap.count, h.counts k]
  split
  · next hempty => simp [hempty]
  · rfl

theorem sum_eq (h : Tallies items cls wt counts sums) (k : κ) :
    GoMap.count sums k = ∑ i ∈ classOf items cls k, wt i := by
  rw [GoMap.count, h.sums k]
  split
  · next hempty => simp [hempty]
  · rfl

theorem insert (h : Tallies items cls wt counts sums) {i : ι} (hi : i ∉ items) :
    Tallies (insert i items) cls wt (GoMap.add counts (cls i) 1)
      (GoMap.add sums (cls i) (wt i)) := by
  have hnot : i ∉ classOf items cls (cls i) := fun hmem => hi (mem_classOf.mp hmem).1
  constructor
  · intro k
    by_cases hk : k = cls i
    · subst hk
      rw [lookup_add, h.count_eq, classOf_insert_of_eq, if_neg (Finset.insert_ne_empty _ _),
        Finset.card_insert_of_notMem hnot]
      push_cast
      rfl
    · rw [lookup_add_of_ne _ _ hk, h.counts k, classOf_insert_of_ne cls hk]
  · intro k
    by_cases hk : k = cls i
    · subst hk
      rw [lookup_add, h.sum_eq, classOf_insert_of_eq, if_neg (Finset.insert_ne_empty _ _),
        Finset.sum_insert hnot, add_comm]
    · rw [lookup_add_of_ne _ _ hk, h.sums k, classOf_insert_of_ne cls hk]

theorem erase (h : Tallies items cls wt counts sums) {i : ι} (hi : i ∈ items) :
    Tallies (items.erase i) cls wt (GoMap.release counts sums (cls i) (wt i)).1
      (GoMap.release counts sums (cls i) (wt i)).2 := by
  have hmem : i ∈ classOf items cls (cls i) := mem_classOf.mpr ⟨hi, rfl⟩
  have hcard : GoMap.count counts (cls i) + -1 = ((classOf items cls (cls i)).erase i).card := by
    rw [h.count_eq, Finset.card_erase_of_mem hmem, Nat.cast_sub (Finset.card_pos.mpr ⟨i, hmem⟩)]
    ring
  have hsum : GoMap.count sums (cls i) + -wt i
      = ∑ j ∈ (classOf items cls (cls i)).erase i, wt j := by
    rw [h.sum_eq, Finset.sum_erase_eq_sub hmem]
    ring
  have hother : ∀ k, k ≠ cls i → classOf (items.erase i) cls k = classOf items cls k := by
    intro k hk
    rw [classOf_erase, Finset.erase_eq_of_notMem fun hmem => hk (mem_classOf.mp hmem).2.symm]
  have hlast : (GoMap.count counts (cls i) + -1 ≤ 0) ↔ classOf (items.erase i) cls (cls i) = ∅ := by
    rw [hcard, classOf_erase, ← Finset.card_eq_zero]
    omega
  constructor
  · intro k
    by_cases hk : k = cls i
    · subst hk
      rw [(lookup_release _ _ _ _).1, hcard, ← classOf_erase]
      rw [hcard, ← classOf_erase] at hlast
      simp only [hlast]
    · rw [(lookup_release_of_ne _ _ _ hk).1, h.counts k, hother k hk]
  · intro k
    by_cases hk : k = cls i
    · subst hk
      rw [(lookup_release _ _ _ _).2, hsum, ← classOf_erase]
      simp only [hlast]
    · rw [(lookup_release_of_ne _ _ _ hk).2, h.sums k, hother k hk]

theorem count_mono {items' : Finset ι} {counts' sums' : GoMap κ Int}
    (h : Tallies items cls wt counts sums) (h' : Tallies items' cls' wt' counts' sums')
    (hsub : items' ⊆ items) (hcls : ∀ i ∈ items', cls' i = cls i) (k : κ) :
    GoMap.count counts' k ≤ GoMap.count counts k := by
  rw [h.count_eq, h'.count_eq, classOf_congr hcls]
  exact_mod_cast Finset.card_le_card (Finset.filter_subset_filter _ hsub)

theorem sum_mono {items' : Finset ι} {counts' sums' : GoMap κ Int}
    (h : Tallies items cls wt counts sums) (h' : Tallies items' cls' wt' counts' sums')
    (hsub : items' ⊆ items) (hcls : ∀ i ∈ items', cls' i = cls i)
    (hwt : ∀ i ∈ items', wt' i = wt i) (hnonneg : ∀ i ∈ items, 0 ≤ wt i) (k : κ) :
    GoMap.count sums' k ≤ GoMap.count sums k := by
  rw [h.sum_eq, h'.sum_eq, classOf_congr hcls,
    Finset.sum_congr rfl fun i hi => hwt i (mem_classOf.mp hi).1]
  refine Finset.sum_le_sum_of_subset_of_nonneg (Finset.filter_subset_filter _ hsub) ?_
  exact fun i hi _ => hnonneg i (mem_classOf.mp hi).1

end Tallies

/-! ## Sorted keys -/

section Sorted

variable {α : Type} (r : α → α → Prop) [DecidableRel r] [IsTrans α r] [Std.Antisymm r] [Std.Total r]

/-- The elements of a set in order. -/
def sortedKeys (s : Finset α) : List α :=
  Quot.liftOn s.val (fun l => l.insertionSort r) fun l l' h =>
    List.Perm.eq_of_pairwise' (List.pairwise_insertionSort r l) (List.pairwise_insertionSort r l')
      ((List.perm_insertionSort r l).trans (h.trans (List.perm_insertionSort r l').symm))

theorem sortedKeys_perm (s : Finset α) : (sortedKeys r s : Multiset α) = s.val := by
  obtain ⟨⟨l⟩, hnodup⟩ := s
  exact Quot.sound (List.perm_insertionSort r l)

@[simp] theorem mem_sortedKeys (s : Finset α) (a : α) : a ∈ sortedKeys r s ↔ a ∈ s := by
  rw [← Multiset.mem_coe, sortedKeys_perm, Finset.mem_val]

theorem sortedKeys_length (s : Finset α) : (sortedKeys r s).length = s.card := by
  rw [← Multiset.coe_card, sortedKeys_perm, Finset.card_def]

theorem sortedKeys_nodup (s : Finset α) : (sortedKeys r s).Nodup := by
  rw [← Multiset.coe_nodup, sortedKeys_perm]
  exact s.nodup

theorem sortedKeys_pairwise (s : Finset α) : (sortedKeys r s).Pairwise r := by
  obtain ⟨⟨l⟩, hnodup⟩ := s
  exact List.pairwise_insertionSort r l

end Sorted

end Foundation
