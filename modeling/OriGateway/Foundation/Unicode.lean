import OriGateway.Foundation.Utf8

/-! # Trimming

A byte string without the characters of a class around it. -/

namespace Foundation

namespace Utf8

/-- The scalar values of a byte string with the bytes of each, and each ill-formed byte by itself.
The counter is the number of continuation bytes of the last value still to pass over. -/
def sequencesFrom : Nat → Bytes → List (Option Nat × Bytes)
  | _, [] => []
  | skip + 1, _ :: rest => sequencesFrom skip rest
  | 0, b :: rest =>
    match decodeRune b rest with
    | some (r, n) => (some r, b :: rest.take n) :: sequencesFrom n rest
    | none => (none, [b]) :: sequencesFrom 0 rest

/-- A byte string without the characters of a class that it starts and ends with. -/
def trim (isIn : Nat → Bool) (bs : Bytes) : Bytes :=
  let drops : Option Nat × Bytes → Bool := fun s => s.1.any isIn
  ((((sequencesFrom 0 bs).dropWhile drops).reverse.dropWhile drops).reverse).flatMap (·.2)

theorem sequencesFrom_ascii {bs : Bytes} (h : ∀ b ∈ bs, b.toNat < 0x80) :
    sequencesFrom 0 bs = bs.map fun b => (some b.toNat, [b]) := by
  induction bs with
  | nil => rfl
  | cons b bs ih =>
    have hb := h b List.mem_cons_self
    have hdecode : decodeRune b bs = some (b.toNat, 0) := by
      unfold decodeRune
      exact if_pos hb
    rw [sequencesFrom, hdecode]
    simp only [List.take_zero, List.map_cons]
    rw [ih fun c hc => h c (List.mem_cons_of_mem _ hc)]

theorem reverse_dropWhile_append {α : Type} {p : α → Bool} {xs ys : List α}
    (hxs : ∀ x ∈ xs, p x = false) (hys : ∀ y ∈ ys, p y = true) :
    ((xs ++ ys).reverse.dropWhile p).reverse = xs := by
  have hkeep : xs.reverse.dropWhile p = xs.reverse := by
    cases hr : xs.reverse with
    | nil => rfl
    | cons x rest =>
      have hx : x ∈ xs := List.mem_reverse.mp (hr ▸ List.mem_cons_self)
      rw [List.dropWhile_cons, hxs x hx]
      rfl
  rw [List.reverse_append, List.dropWhile_append_of_pos fun y hy => hys y (List.mem_reverse.mp hy),
    hkeep, List.reverse_reverse]

/-- **A seven-bit text with characters of the class after it is trimmed to itself.** -/
theorem trim_append {isIn : Nat → Bool} {bs after : Bytes}
    (hbs : ∀ b ∈ bs, b.toNat < 0x80 ∧ isIn b.toNat = false)
    (hafter : ∀ b ∈ after, b.toNat < 0x80 ∧ isIn b.toNat = true) :
    trim isIn (bs ++ after) = bs := by
  have hascii : ∀ b ∈ bs ++ after, b.toNat < 0x80 := by
    intro b hb
    rcases List.mem_append.mp hb with hb | hb
    · exact (hbs b hb).1
    · exact (hafter b hb).1
  unfold trim
  simp only [sequencesFrom_ascii hascii, List.map_append]
  generalize hxs : (bs.map fun b => (some b.toNat, [b])) = xs
  generalize hys : (after.map fun b => (some b.toNat, [b])) = ys
  have hdrops : ∀ x ∈ xs, Option.any isIn x.1 = false := by
    rw [← hxs]
    rintro x hx
    obtain ⟨b, hb, rfl⟩ := List.mem_map.mp hx
    exact (hbs b hb).2
  have hdropped : ∀ y ∈ ys, Option.any isIn y.1 = true := by
    rw [← hys]
    rintro y hy
    obtain ⟨b, hb, rfl⟩ := List.mem_map.mp hy
    exact (hafter b hb).2
  have hback : xs.flatMap (·.2) = bs := by
    rw [← hxs, List.flatMap_map]
    exact List.flatMap_singleton' bs
  -- nothing is dropped from the front, unless nothing is left
  cases xs with
  | nil =>
    rw [List.nil_append, List.dropWhile_eq_nil_iff.mpr hdropped]
    exact hback
  | cons x rest =>
    rw [List.cons_append, List.dropWhile_cons, hdrops x List.mem_cons_self]
    simp only [Bool.false_eq_true, if_false]
    rw [← List.cons_append, reverse_dropWhile_append hdrops hdropped]
    exact hback

end Utf8

/-- The white space of Unicode. -/
def isWhiteSpace (r : Nat) : Bool :=
  (decide (9 ≤ r) && decide (r ≤ 13)) || r == 0x20 || r == 0x85 || r == 0xA0 || r == 0x1680 ||
    (decide (0x2000 ≤ r) && decide (r ≤ 0x200A)) || r == 0x2028 || r == 0x2029 || r == 0x202F ||
    r == 0x205F || r == 0x3000

/-- A text without the white space around it. -/
def trimSpace (text : Bytes) : Bytes := Utf8.trim isWhiteSpace text

end Foundation
