import Mathlib.Data.List.Dedup
import Mathlib.Data.List.Destutter
import Mathlib.Data.List.DropRight

/-! # The recent part of a stream

A stream is a list that grows at its end. `List.destutter (· ≠ ·)` leaves out what only repeats the
element before it, and `List.rtake n` is the window of the last `n` elements, which says when one
more element comes back within a distance (**`RepeatsWithin`**). **`recency`** is the elements of a
stream, the most recent first. -/

namespace Foundation

variable {α : Type} {n : Nat} {l : List α} {a : α}

/-! ## The last elements -/

theorem rtake_rtake_succ (l : List α) (n : Nat) : (l.rtake (n + 1)).rtake n = l.rtake n := by
  rw [List.rtake_eq_reverse_take_reverse, List.rtake_eq_reverse_take_reverse, List.reverse_reverse,
    List.take_take, Nat.min_eq_left (Nat.le_succ n), ← List.rtake_eq_reverse_take_reverse]

theorem rtake_concat_rtake (l : List α) (a : α) (n : Nat) :
    (l.rtake n ++ [a]).rtake n = (l ++ [a]).rtake n := by
  cases n with
  | zero => rw [List.rtake_zero, List.rtake_zero]
  | succ n => rw [List.rtake_concat_succ, List.rtake_concat_succ, rtake_rtake_succ]

theorem getLast?_rtake (l : List α) (hn : 0 < n) : (l.rtake n).getLast? = l.getLast? := by
  obtain ⟨n, rfl⟩ := Nat.exists_eq_succ_of_ne_zero hn.ne'
  rw [List.rtake_eq_reverse_take_reverse, List.getLast?_reverse, List.head?_take,
    if_neg (Nat.succ_ne_zero n), List.head?_reverse]

theorem mem_rtake_iff : a ∈ l.rtake n ↔ ∃ i < l.length, l.length - i ≤ n ∧ l[i]? = some a := by
  rw [List.rtake, List.mem_iff_getElem?]
  constructor
  · rintro ⟨k, hk⟩
    rw [List.getElem?_drop] at hk
    obtain ⟨hlt, -⟩ := List.getElem?_eq_some_iff.mp hk
    exact ⟨_, hlt, by omega, hk⟩
  · rintro ⟨i, hi, hnear, heq⟩
    refine ⟨i - (l.length - n), ?_⟩
    rw [List.getElem?_drop, Nat.add_sub_cancel' (by omega), heq]

theorem mem_dropLast_iff (hlast : l.getLast? ≠ some a) : a ∈ l.dropLast ↔ a ∈ l := by
  rcases List.eq_nil_or_concat l with rfl | ⟨front, b, rfl⟩
  · simp
  · have hne : a ≠ b := fun heq => hlast (by rw [heq, List.concat_eq_append, List.getLast?_concat])
    simp [hne]

/-! ## Without consecutive repeats -/

section Destutter

variable [DecidableEq α]

theorem destutter'_ne_concat (l : List α) (a b : α) :
    (l ++ [b]).destutter' (· ≠ ·) a =
      if (l.destutter' (· ≠ ·) a).getLast? = some b then l.destutter' (· ≠ ·) a
      else l.destutter' (· ≠ ·) a ++ [b] := by
  induction l generalizing a with
  | nil => by_cases hab : a = b <;> simp [hab]
  | cons c l ih =>
    rw [List.cons_append, List.destutter'_cons, List.destutter'_cons]
    by_cases hac : a = c
    · rw [if_neg (not_not.mpr hac), if_neg (not_not.mpr hac), ih]
    · obtain ⟨d, m, hdm⟩ := List.exists_cons_of_ne_nil (l.destutter'_ne_nil (· ≠ ·) (a := c))
      rw [if_pos hac, if_pos hac, ih, hdm, List.getLast?_cons_cons]
      split <;> rfl

/-- **One more element**: it is left out when it repeats the last one. -/
theorem destutter_ne_concat (l : List α) (a : α) :
    (l ++ [a]).destutter (· ≠ ·) =
      if (l.destutter (· ≠ ·)).getLast? = some a then l.destutter (· ≠ ·)
      else l.destutter (· ≠ ·) ++ [a] := by
  cases l with
  | nil => rfl
  | cons b l =>
    rw [List.cons_append, List.destutter_cons', List.destutter_cons']
    exact destutter'_ne_concat l b a

theorem getLast?_destutter_ne (l : List α) : (l.destutter (· ≠ ·)).getLast? = l.getLast? := by
  induction l using List.reverseRecOn with
  | nil => rfl
  | append_singleton l a ih =>
    rw [destutter_ne_concat, List.getLast?_concat]
    split
    next hlast => exact hlast
    next => rw [List.getLast?_concat]

end Destutter

/-! ## Elements that come back -/

def RepeatsWithin (n : Nat) (l : List α) : Prop :=
  ∃ i j, i < j ∧ j - i ≤ n ∧ j < l.length ∧ l[i]? = l[j]?

theorem not_repeatsWithin_nil : ¬RepeatsWithin n ([] : List α) := by
  rintro ⟨i, j, -, -, hj, -⟩
  exact Nat.not_lt_zero j hj

/-- **The window decides whether one more element comes back.** -/
theorem repeatsWithin_concat : RepeatsWithin n (l ++ [a]) ↔ RepeatsWithin n l ∨ a ∈ l.rtake n := by
  rw [mem_rtake_iff]
  constructor
  · rintro ⟨i, j, hij, hnear, hj, heq⟩
    rw [List.length_append, List.length_singleton] at hj
    rw [List.getElem?_append_left (by omega)] at heq
    rcases Nat.lt_succ_iff_lt_or_eq.mp hj with hlt | rfl
    · rw [List.getElem?_append_left hlt] at heq
      exact .inl ⟨i, j, hij, hnear, hlt, heq⟩
    · rw [List.getElem?_concat_length] at heq
      exact .inr ⟨i, hij, hnear, heq⟩
  · rintro (⟨i, j, hij, hnear, hj, heq⟩ | ⟨i, hi, hnear, heq⟩)
    · refine ⟨i, j, hij, hnear, ?_, ?_⟩
      · rw [List.length_append]
        omega
      · rw [List.getElem?_append_left (hij.trans hj), List.getElem?_append_left hj, heq]
    · refine ⟨i, l.length, hi, hnear, ?_, ?_⟩
      · rw [List.length_append, List.length_singleton]
        omega
      · rw [List.getElem?_append_left hi, List.getElem?_concat_length, heq]

/-! ## The most recent first -/

section Recency

variable [DecidableEq α]

def recency (l : List α) : List α := l.dedup.reverse

variable [BEq α] [LawfulBEq α]

theorem dedup_concat (l : List α) (a : α) : (l ++ [a]).dedup = l.dedup.erase a ++ [a] := by
  induction l with
  | nil => rfl
  | cons b l ih =>
    rw [List.cons_append]
    by_cases hmem : b ∈ l
    · rw [List.dedup_cons_of_mem (List.mem_append_left _ hmem), ih, List.dedup_cons_of_mem hmem]
    · by_cases hba : b = a
      · subst hba
        rw [List.dedup_cons_of_mem (by simp), ih, List.dedup_cons_of_notMem hmem,
          List.erase_cons_head, List.erase_of_not_mem (by simpa using hmem)]
      · rw [List.dedup_cons_of_notMem (by simp [hmem, hba]), ih, List.dedup_cons_of_notMem hmem,
          List.erase_cons_tail (by simpa using hba), List.cons_append]

theorem recency_concat (l : List α) (a : α) : recency (l ++ [a]) = a :: (recency l).erase a := by
  have hnodup := l.nodup_dedup
  rw [recency, recency, dedup_concat, List.reverse_append, List.reverse_singleton,
    List.singleton_append, hnodup.erase_eq_filter, (List.nodup_reverse.mpr hnodup).erase_eq_filter,
    List.filter_reverse]

/-- **The first elements without one of them.** -/
theorem take_erase (l : List α) (a : α) (n : Nat) :
    (l.erase a).take n = if a ∈ l.take (n + 1) then (l.take (n + 1)).erase a else l.take n := by
  induction l generalizing n with
  | nil => simp
  | cons b l ih =>
    rw [List.take_succ_cons]
    by_cases hba : b = a
    · subst hba
      rw [List.erase_cons_head, if_pos List.mem_cons_self, List.erase_cons_head]
    · rw [List.erase_cons_tail (by simpa using hba)]
      cases n with
      | zero => simp [Ne.symm hba]
      | succ n =>
        rw [List.take_succ_cons, ih, List.erase_cons_tail (by simpa using hba), List.take_succ_cons]
        by_cases hmem : a ∈ l.take (n + 1)
        · rw [if_pos hmem, if_pos (List.mem_cons_of_mem _ hmem)]
        · rw [if_neg hmem, if_neg (by simp [hmem, Ne.symm hba])]

end Recency

end Foundation
