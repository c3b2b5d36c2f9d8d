import OriGateway.Foundation.Json
import Mathlib.Data.List.Infix

/-! # The sender of a webhook request

`senderOf` reads the sender of a provider's body, as the key of its limit. A body that names a
sender is to have a key. A form of more pairs than the toolchain's reader takes may have none
(`crowded_form_escapes`); `senderOf_empty` says exactly which bodies have the key they should. -/

namespace OriGateway

open Foundation

/-- A rune in lower case, as far as its lower case is ASCII. -/
def toLowerRune (r : Nat) : Nat :=
  if 65 ≤ r ∧ r ≤ 90 then r + 32 else if r = 0x130 then 105 else if r = 0x212A then 107 else r

def toLower (text : Bytes) : Bytes :=
  (Utf8.runes text).flatMap fun r => Utf8.encodeRune (toLowerRune (r.getD Utf8.replacement))

def isJSON (contentType : Bytes) : Bool :=
  decide (ascii "application/json" <:+: toLower contentType)

/-- The key of every sender the bridge cannot read. -/
def unreadSender : Bytes := ascii "unread"

section

variable (isDigit : Nat → Bool)

/-- Keep digits and plus signs; `isDigit` are the decimal digits. -/
def normalizeSender (value : Bytes) : Bytes :=
  (((Utf8.runes value).map fun r => r.getD Utf8.replacement).filter fun r =>
    isDigit r || r == 43).flatMap Utf8.encodeRune

def readSender (value : Bytes) (present : Bool) : Bytes :=
  if normalizeSender isDigit value ≠ [] then normalizeSender isDigit value
  else if present then unreadSender else []

/-! ## JSON -/

/-- The value a map read from an object holds under a name: that of the last member of the name. -/
def lastValue (members : List (Bytes × Json)) (name : Bytes) : Option Json :=
  (members.reverse.find? fun m => Json.unquote m.1 == name).map Prod.snd

/-- Read a sender field into what was read before, which a missing or null one leaves. -/
def readField (before : Bytes) : Option Json → Option Bytes
  | none => some before
  | some v => Json.readString before v

/-- The sender a JSON body names. -/
def jsonSender (body : Bytes) : Bytes :=
  match Json.parse body with
  | some (.obj members) =>
    let fromValue := lastValue members (ascii "from")
    let fromNumber := lastValue members (ascii "from_number")
    if fromValue.isNone ∧ fromNumber.isNone then
      if members.any fun m => decide (ascii "from" <+: Json.unquote m.1) then unreadSender else []
    else
      match readField [] fromValue with
      | none => unreadSender
      | some sender =>
        match if sender = [] then readField sender fromNumber else some sender with
        | none => unreadSender
        | some sender => readSender isDigit sender true
  | some .null => []
  | _ => if ascii "from" <:+: body ∨ ascii "\\u" <:+: body then unreadSender else []

/-! ## Forms -/

/-- Undo the escapes of a form; `none` is a bad one. -/
def queryUnescape : Bytes → Option Bytes
  | [] => some []
  | b :: rest =>
    if b = 37 then
      match rest with
      | p :: q :: rest =>
        match Json.hexValue p, Json.hexValue q with
        | some high, some low => (queryUnescape rest).map (UInt8.ofNat (16 * high + low) :: ·)
        | _, _ => none
      | _ => none
    else (queryUnescape rest).map ((if b = 43 then 32 else b) :: ·)

/-- The key and the value of a pair. -/
def cutPair (pair : Bytes) : Bytes × Bytes :=
  (pair.takeWhile (· ≠ 61), (pair.dropWhile (· ≠ 61)).tail)

def maxParams : Nat := 10000

/-- What the form reader makes of a pair: nothing of an empty one, and `none` is a pair it drops. -/
def parsePair (pair : Bytes) : Option (Option (Bytes × Bytes)) :=
  if 59 ∈ pair then none
  else if pair = [] then some none
  else
    match queryUnescape (cutPair pair).1, queryUnescape (cutPair pair).2 with
    | some key, some value => some (some (key, value))
    | _, _ => none

/-- The form reader: the pairs it keeps, and whether it reports an error. -/
def parseQuery (query : Bytes) : List (Bytes × Bytes) × Bool :=
  if maxParams < query.count 38 + 1 then ([], true)
  else
    let pairs := (query.splitOn 38).map parsePair
    (pairs.filterMap Option.join, pairs.any Option.isNone)

/-- A form has a pair that the reader drops and whose key could read as a sender field. -/
def namesSenderField (body : Bytes) : Bool :=
  (body.splitOn 38).any fun pair =>
    match queryUnescape (cutPair pair).1 with
    | none => true
    | some key => decide (59 ∈ (cutPair pair).1) ||
        (decide (ascii "from" <+: key) &&
          ((queryUnescape (cutPair pair).2).isNone || decide (59 ∈ (cutPair pair).2)))

/-- The sender a form body names. -/
def formSender (body : Bytes) : Bytes :=
  let (values, err) := parseQuery body
  if err && namesSenderField body then unreadSender
  else
    let has := fun name => values.any fun kv => kv.1 == name
    let get := fun name => ((values.find? fun kv => kv.1 == name).map Prod.snd).getD []
    let sender := if get (ascii "from") = [] then get (ascii "from_number") else get (ascii "from")
    readSender isDigit sender (has (ascii "from") || has (ascii "from_number"))

def senderOf (contentType body : Bytes) : Bytes :=
  if isJSON contentType then jsonSender isDigit body else formSender isDigit body

end

/-! ## Bodies that name no sender -/

/-- A body names no sender field. -/
def NamesNoSender (contentType body : Bytes) : Prop :=
  if isJSON contentType then
    match Json.parse body with
    | some (.obj members) => ∀ m ∈ members, ¬ ascii "from" <+: Json.unquote m.1
    | some .null => True
    | _ => ¬ ascii "from" <:+: body ∧ ¬ ascii "\\u" <:+: body
  else
    ∀ pair ∈ body.splitOn 38, ∀ key, queryUnescape (cutPair pair).1 = some key →
      key ≠ ascii "from" ∧ key ≠ ascii "from_number"

/-- A string of digits and plus signs. -/
def IsSender (isDigit : Nat → Bool) (sender : Bytes) : Prop :=
  ∃ runes : List Nat, (∀ r ∈ runes, isDigit r = true ∨ r = 43) ∧
  sender = runes.flatMap Utf8.encodeRune

variable {isDigit : Nat → Bool} {body : Bytes}

theorem unreadSender_ne_nil : unreadSender ≠ [] := by decide

theorem readSender_present (value : Bytes) : readSender isDigit value true ≠ [] := by
  unfold readSender
  split
  · next h => exact h
  · exact unreadSender_ne_nil

theorem isSender_readSender (value : Bytes) (present : Bool)
    (h : readSender isDigit value present ≠ []) :
    readSender isDigit value present = unreadSender ∨
    IsSender isDigit (readSender isDigit value present) := by
  unfold readSender at h ⊢
  split
  · refine .inr ⟨_, fun r hr => ?_, rfl⟩
    simpa using (List.mem_filter.mp hr).2
  · next hnone =>
    rw [if_neg hnone] at h
    split
    · exact .inl rfl
    · next habsent => exact absurd (if_neg habsent) h

/-- What a sender field reads as is no empty key. -/
theorem jsonSender_cases (isDigit : Nat → Bool) (body : Bytes) :
    jsonSender isDigit body = [] ∧ (match Json.parse body with
      | some (.obj members) => ∀ m ∈ members, ¬ ascii "from" <+: Json.unquote m.1
      | some .null => True
      | _ => ¬ ascii "from" <:+: body ∧ ¬ ascii "\\u" <:+: body) ∨
    jsonSender isDigit body = unreadSender ∨
    ∃ value, jsonSender isDigit body = readSender isDigit value true := by
  unfold jsonSender
  split
  · next members _ =>
    dsimp only
    split_ifs with habsent hprefix
    · exact .inr (.inl rfl)
    · refine .inl ⟨rfl, fun m hm hfrom => hprefix ?_⟩
      exact List.any_eq_true.mpr ⟨m, hm, decide_eq_true hfrom⟩
    · split
      · exact .inr (.inl rfl)
      · split
        · exact .inr (.inl rfl)
        · exact .inr (.inr ⟨_, rfl⟩)
  · exact .inl ⟨rfl, trivial⟩
  · next hobj hnull =>
    split_ifs with hnames
    · exact .inr (.inl rfl)
    · exact .inl ⟨rfl, fun h => hnames (.inl h), fun h => hnames (.inr h)⟩

theorem mem_cutPair {pair : Bytes} {b : UInt8} (hb : b ≠ 61) (h : b ∈ pair) :
    b ∈ (cutPair pair).1 ∨ b ∈ (cutPair pair).2 := by
  induction pair with
  | nil => cases h
  | cons c pair ih =>
    by_cases hc : c = 61
    · have hcut : cutPair (c :: pair) = ([], pair) := by simp [cutPair, hc]
      rw [hcut]
      exact .inr ((List.mem_cons.mp h).resolve_left fun hbc => hb (hbc.trans hc))
    · have hcut : cutPair (c :: pair) = (c :: (cutPair pair).1, (cutPair pair).2) := by
        simp [cutPair, hc]
      rw [hcut]
      obtain rfl | h := List.mem_cons.mp h
      · exact .inl List.mem_cons_self
      · exact (ih h).imp_left (List.mem_cons_of_mem _)

/-- **A pair the reader drops** whose key reads as a sender field is found. -/
theorem namesSenderField_of_dropped {pair key : Bytes} (hpair : pair ∈ body.splitOn 38)
    (hdropped : parsePair pair = none) (hkey : queryUnescape (cutPair pair).1 = some key)
    (hfrom : ascii "from" <+: key) : namesSenderField body = true := by
  refine List.any_eq_true.mpr ⟨pair, hpair, ?_⟩
  rw [hkey]
  unfold parsePair at hdropped
  split_ifs at hdropped with hsemicolon hempty
  · obtain h | h := mem_cutPair (by decide) hsemicolon
    · simp [h]
    · simp [h, hfrom]
  · rw [hkey] at hdropped
    cases hvalue : queryUnescape (cutPair pair).2 with
    | none => simp [hfrom]
    | some value => simp [hvalue] at hdropped

/-- **A form's key is empty** only if no pair has the key of a sender field, in a form the reader
takes. -/
theorem formSender_empty (hpairs : body.count 38 + 1 ≤ maxParams)
    (h : formSender isDigit body = []) :
    ∀ pair ∈ body.splitOn 38, ∀ key, queryUnescape (cutPair pair).1 = some key →
      key ≠ ascii "from" ∧ key ≠ ascii "from_number" := by
  intro pair hpair key hkey
  rw [← not_or]
  intro hname
  have hfrom : ascii "from" <+: key := by
    obtain rfl | rfl := hname <;> decide
  unfold formSender parseQuery at h
  rw [if_neg (Nat.not_lt.mpr hpairs)] at h
  dsimp only at h
  cases hparse : parsePair pair with
  | none =>
    have herr : ((body.splitOn 38).map parsePair).any Option.isNone = true :=
      List.any_eq_true.mpr ⟨none, List.mem_map.mpr ⟨pair, hpair, hparse⟩, rfl⟩
    rw [herr, namesSenderField_of_dropped hpair hparse hkey hfrom] at h
    exact unreadSender_ne_nil h
  | some kept =>
    obtain ⟨value, rfl⟩ : ∃ value, kept = some (key, value) := by
      unfold parsePair at hparse
      split_ifs at hparse with hsemicolon hempty
      · subst hempty
        cases hkey
        exact absurd hfrom (by decide)
      · rw [hkey] at hparse
        cases hvalue : queryUnescape (cutPair pair).2 with
        | none => simp [hvalue] at hparse
        | some value => exact ⟨value, by simpa [hvalue, eq_comm] using hparse⟩
    have hmem : (key, value) ∈ ((body.splitOn 38).map parsePair).filterMap Option.join :=
      List.mem_filterMap.mpr ⟨_, List.mem_map.mpr ⟨pair, hpair, hparse⟩, rfl⟩
    generalize ((body.splitOn 38).map parsePair).filterMap Option.join = values at h hmem
    have hpresent :
      (values.any (fun kv => kv.1 == ascii "from") || values.any fun kv =>
        kv.1 == ascii "from_number")
        = true := by
      rw [Bool.or_eq_true, List.any_eq_true, List.any_eq_true]
      exact hname.imp (fun hk => ⟨_, hmem, beq_iff_eq.mpr hk⟩) fun hk =>
        ⟨_, hmem, beq_iff_eq.mpr hk⟩
    rw [hpresent] at h
    split at h
    · exact unreadSender_ne_nil h
    · exact readSender_present _ h

theorem formSender_cases (isDigit : Nat → Bool) (body : Bytes) :
    formSender isDigit body = unreadSender ∨
    ∃ value present, formSender isDigit body = readSender isDigit value present := by
  unfold formSender
  dsimp only
  split
  · exact .inl rfl
  · exact .inr ⟨_, _, rfl⟩

/-- **A form of too many pairs** in which no pair is found that the reader drops for itself has no
key. -/
theorem formSender_crowded (isDigit : Nat → Bool) (hpairs : maxParams < body.count 38 + 1)
    (hnames : namesSenderField body = false) : formSender isDigit body = [] := by
  unfold formSender parseQuery
  rw [if_pos hpairs]
  dsimp only
  rw [hnames]
  rfl

theorem formSender_of_namesSenderField (isDigit : Nat → Bool)
    (hpairs : maxParams < body.count 38 + 1) (hnames : namesSenderField body = true) :
    formSender isDigit body = unreadSender := by
  unfold formSender parseQuery
  rw [if_pos hpairs]
  dsimp only
  rw [hnames]
  rfl

/-- **When the sender of a body is right**: empty only if the body names no sender field, and
otherwise digits and plus signs or the shared key. It is for JSON, for a form of no more pairs than
the reader takes, for one with a pair that is dropped for itself and could name the sender, and for
one that names none; and for no other. -/
theorem senderOf_empty (isDigit : Nat → Bool) (contentType body : Bytes) :
    ((senderOf isDigit contentType body = [] → NamesNoSender contentType body) ∧
      (senderOf isDigit contentType body ≠ [] → senderOf isDigit contentType body = unreadSender ∨
        IsSender isDigit (senderOf isDigit contentType body))) ↔
      isJSON contentType = true ∨ body.count 38 + 1 ≤ maxParams ∨ namesSenderField body = true ∨
        NamesNoSender contentType body := by
  unfold senderOf
  by_cases hjson : isJSON contentType = true
  · simp only [hjson, if_true, true_or, iff_true]
    unfold NamesNoSender
    rw [if_pos hjson]
    obtain ⟨hempty, hnames⟩ | hunread | ⟨value, hread⟩ := jsonSender_cases isDigit body
    · exact ⟨fun _ => hnames, fun h => absurd hempty h⟩
    · exact ⟨fun h => absurd (hunread.symm.trans h) unreadSender_ne_nil, fun _ => .inl hunread⟩
    · rw [hread]
      exact ⟨fun h => absurd h (readSender_present value), isSender_readSender value true⟩
  · have hkey : formSender isDigit body ≠ [] → formSender isDigit body = unreadSender ∨
        IsSender isDigit (formSender isDigit body) := by
      obtain hunread | ⟨value, present, hread⟩ := formSender_cases isDigit body
      · exact fun _ => .inl hunread
      · rw [hread]
        exact isSender_readSender value present
    simp only [hjson, Bool.false_eq_true, if_false, false_or, and_iff_left hkey]
    constructor
    · intro hnone
      rcases Nat.lt_or_ge maxParams (body.count 38 + 1) with hcrowded | hfew
      · cases hnames : namesSenderField body with
        | true => exact .inr (.inl rfl)
        | false => exact .inr (.inr (hnone (formSender_crowded isDigit hcrowded hnames)))
      · exact .inl hfew
    · rintro hcases hempty
      rcases Nat.lt_or_ge maxParams (body.count 38 + 1) with hcrowded | hfew
      · rcases hcases with hfew | hnames | hnone
        · omega
        · rw [formSender_of_namesSenderField isDigit hcrowded hnames] at hempty
          exact absurd hempty unreadSender_ne_nil
        · exact hnone
      · rw [NamesNoSender, if_neg hjson]
        exact formSender_empty hfew hempty

/-- The digits of ASCII. -/
def asciiDigit (r : Nat) : Bool := decide (48 ≤ r ∧ r ≤ 57)

example : senderOf asciiDigit [] (ascii "from=%2B1") = ascii "+1" := by decide +kernel

/-- A form that names a sender and has so many empty pairs after it. -/
def crowded (n : Nat) : Bytes := ascii "from=1" ++ List.replicate n 38

theorem splitOn_crowded (n : Nat) :
    (crowded (n + 1)).splitOn 38 = ascii "from=1" :: List.replicate (n + 1) [] := by
  have hsplit : ∀ n, (List.replicate n (38 : UInt8)).splitOn 38 = List.replicate (n + 1) [] := by
    intro n
    induction n with
    | zero => rfl
    | succ n ih =>
      rw [List.replicate_succ (a := (38 : UInt8)), List.replicate_succ (n := n + 1), ← ih]
      exact List.splitOn_append_cons_self_of_not_mem List.not_mem_nil _
  rw [crowded, List.replicate_succ, List.splitOn_append_cons_self_of_not_mem (by decide), hsplit]

theorem namesSenderField_crowded (n : Nat) : namesSenderField (crowded (n + 1)) = false := by
  rw [namesSenderField, splitOn_crowded, List.any_cons, List.any_replicate]
  have hfirst : (match queryUnescape (cutPair (ascii "from=1")).1 with
      | none => true
      | some key => decide (59 ∈ (cutPair (ascii "from=1")).1) || (decide (ascii "from" <+: key) &&
          ((queryUnescape (cutPair (ascii "from=1")).2).isNone || decide
            (59 ∈ (cutPair (ascii "from=1")).2)))) = false := by
    decide
  rw [hfirst]
  rfl

/-- **A form of too many pairs escapes**: its reader keeps none of them, and the one that names the
sender is not one the bridge looks for. -/
theorem crowded_form_escapes :
    senderOf asciiDigit [] (crowded 10000) = [] ∧ ¬ NamesNoSender [] (crowded 10000) := by
  have hform : isJSON [] = false := by decide
  have hcount : (crowded 10000).count 38 = 10000 := by
    rw [crowded, List.count_append, List.count_replicate_self]
    rfl
  constructor
  · rw [senderOf, hform, if_neg Bool.false_ne_true]
    exact formSender_crowded _ (by rw [hcount]; decide) (namesSenderField_crowded 9999)
  · intro hnames
    rw [NamesNoSender, hform, if_neg Bool.false_ne_true, splitOn_crowded 9999] at hnames
    exact (hnames _ List.mem_cons_self (ascii "from") (by decide)).1 rfl

end OriGateway
