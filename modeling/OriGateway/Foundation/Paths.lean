import OriGateway.Foundation.Bytes

/-! # Paths

Slash-separated paths as lists of names, and **`Path.clean`**, the shortest path that means the
same, found without looking at any file. **`Path.Apart`** says that neither path is the other or
inside it, compared name by name. -/

namespace Foundation

/-- `strings.Split` at slashes. -/
def splitSlash : Bytes → List Bytes
  | [] => [[]]
  | b :: rest =>
    if b = 47 then [] :: splitSlash rest
    else
      match splitSlash rest with
      | part :: parts => (b :: part) :: parts
      | [] => [[b]]

theorem splitSlash_ne_nil (text : Bytes) : splitSlash text ≠ [] := by
  fun_cases splitSlash text <;> simp

theorem splitSlash_of_noSlash {text : Bytes} (h : (47 : UInt8) ∉ text) :
    splitSlash text = [text] := by
  induction text with
  | nil => rfl
  | cons b rest ih =>
    rw [List.mem_cons, not_or] at h
    rw [splitSlash, if_neg (Ne.symm h.1), ih h.2]

theorem splitSlash_append (text rest : Bytes) :
    splitSlash (text ++ 47 :: rest) = splitSlash text ++ splitSlash rest := by
  induction text with
  | nil => rfl
  | cons b text ih =>
    rw [List.cons_append, splitSlash, splitSlash]
    by_cases hb : b = 47
    · rw [if_pos hb, if_pos hb, ih, List.cons_append]
    · rw [if_neg hb, if_neg hb, ih]
      cases hsplit : splitSlash text with
      | nil => exact absurd hsplit (splitSlash_ne_nil text)
      | cons part parts => rfl

theorem noSlash_of_mem_splitSlash {text part : Bytes} (h : part ∈ splitSlash text) :
    (47 : UInt8) ∉ part := by
  induction text generalizing part with
  | nil => rw [List.mem_singleton.mp h]; exact List.not_mem_nil
  | cons b rest ih =>
    rw [splitSlash] at h
    split_ifs at h with hb
    · rcases List.mem_cons.mp h with rfl | h
      · exact List.not_mem_nil
      · exact ih h
    · cases hsplit : splitSlash rest with
      | nil => exact absurd hsplit (splitSlash_ne_nil rest)
      | cons first parts =>
        rw [hsplit] at h ih
        rcases List.mem_cons.mp h with rfl | h
        · exact List.not_mem_cons_of_ne_of_not_mem (Ne.symm hb) (ih List.mem_cons_self)
        · exact ih (List.mem_cons_of_mem _ h)

namespace Path

def components (path : Bytes) : List Bytes := (splitSlash path).filter fun c => c != [] && c != [46]

/-- **A name of a path**: not empty, not a dot, with no slash in it. -/
def IsName (name : Bytes) : Prop := name ≠ [] ∧ name ≠ [46] ∧ (47 : UInt8) ∉ name

theorem components_append (path rest : Bytes) :
    components (path ++ 47 :: rest) = components path ++ components rest := by
  rw [components, splitSlash_append, List.filter_append, components, components]

theorem isName_of_mem_components {path name : Bytes} (h : name ∈ components path) :
    IsName name := by
  obtain ⟨hmem, hkept⟩ := List.mem_filter.mp h
  simp only [Bool.and_eq_true, bne_iff_ne] at hkept
  exact ⟨hkept.1, hkept.2, noSlash_of_mem_splitSlash hmem⟩

/-! ## Cleaning -/

/-- One name resolved against those before it, the last of them first: two dots take one back, at
the root nothing, and stand where there is none to take. -/
def resolveName (rooted : Bool) (before : List Bytes) (name : Bytes) : List Bytes :=
  if name = [46, 46] then
    match before with
    | [] => if rooted then [] else [name]
    | last :: rest => if last = [46, 46] then name :: before else rest
  else name :: before

def resolve (rooted : Bool) (names : List Bytes) : List Bytes :=
  (names.foldl (resolveName rooted) []).reverse

def fromRoot (names : List Bytes) : Bytes := if names = [] then [47] else names.flatMap (47 :: ·)

/-- **The shortest path equivalent to one.** -/
def clean (path : Bytes) : Bytes :=
  let rooted := path.head? == some 47
  let names := resolve rooted (components path)
  if rooted then fromRoot names
  else if names = [] then [46]
  else List.intercalate [47] names

theorem mem_resolve {rooted : Bool} {names : List Bytes} {name : Bytes}
    (h : name ∈ resolve rooted names) : name ∈ names := by
  suffices hfold : ∀ before, name ∈ names.foldl (resolveName rooted) before → name ∈ before ∨
    name ∈ names from
    (hfold [] (List.mem_reverse.mp h)).resolve_left List.not_mem_nil
  clear h
  induction names with
  | nil => exact fun before h => .inl h
  | cons c rest ih =>
    intro before h
    have hstep : ∀ n ∈ resolveName rooted before c, n ∈ before ∨ n = c := by
      intro n hn
      revert hn
      fun_cases resolveName rooted before c <;> simp +contextual [or_comm]
    rcases ih _ h with h | h
    · exact (hstep name h).imp_right fun heq => List.mem_cons.mpr (.inl heq)
    · exact .inr (List.mem_cons_of_mem _ h)

theorem splitSlash_flatMap {names : List Bytes} (h : ∀ name ∈ names, (47 : UInt8) ∉ name)
    (first : Bytes) (hfirst : (47 : UInt8) ∉ first) :
    splitSlash (first ++ names.flatMap (47 :: ·)) = first :: names := by
  induction names generalizing first with
  | nil => rw [List.flatMap_nil, List.append_nil]; exact splitSlash_of_noSlash hfirst
  | cons name rest ih =>
    rw [List.flatMap_cons, List.cons_append, splitSlash_append, splitSlash_of_noSlash hfirst,
      ih (fun n hn => h n (List.mem_cons_of_mem _ hn)) name (h name List.mem_cons_self)]
    rfl

theorem components_fromRoot {names : List Bytes} (h : ∀ name ∈ names, IsName name) :
    components (fromRoot names) = names := by
  rw [fromRoot]
  split_ifs with hnil
  · rw [hnil]
    rfl
  · have hsplit := splitSlash_flatMap (fun n hn => (h n hn).2.2) [] List.not_mem_nil
    rw [List.nil_append] at hsplit
    rw [components, hsplit, List.filter_cons_of_neg (by simp), List.filter_eq_self]
    intro name hname
    simpa using And.intro (h name hname).1 (h name hname).2.1

theorem fromRoot_components_clean {path : Bytes} (h : path.head? = some 47) :
    fromRoot (components (clean path)) = clean path := by
  have hclean : clean path = fromRoot (resolve true (components path)) := by
    rw [clean, h]
    rfl
  rw [hclean, components_fromRoot fun name hname => isName_of_mem_components (mem_resolve hname)]

theorem fromRoot_append (names : List Bytes) {rest : List Bytes} (hrest : rest ≠ []) :
    ∃ tail, fromRoot (names ++ rest) = names.flatMap (47 :: ·) ++ 47 :: tail := by
  obtain ⟨next, rest, rfl⟩ := List.exists_cons_of_ne_nil hrest
  refine ⟨next ++ rest.flatMap (47 :: ·), ?_⟩
  rw [fromRoot, if_neg (by simp), List.flatMap_append, List.flatMap_cons, List.cons_append]

/-! ## Places -/

/-- **Neither path is the other or inside it**, compared on whole names. -/
def Apart (path other : Bytes) : Prop :=
  ¬ components path <+: components other ∧ ¬ components other <+: components path

theorem Apart.symm {path other : Bytes} (h : Apart path other) : Apart other path := ⟨h.2, h.1⟩

theorem Apart.no_entry {path other : Bytes} (h : Apart path other) (name file : Bytes) :
    ¬ components path ++ [name] <+: components other ++ [file] := by
  intro hentry
  have hlength := hentry.length_le
  simp only [List.length_append, List.length_singleton, Nat.add_le_add_iff_right] at hlength
  exact h.1 (List.prefix_of_prefix_length_le ((List.prefix_append _ _).trans hentry)
    (List.prefix_append _ _) hlength)

end Path

end Foundation
