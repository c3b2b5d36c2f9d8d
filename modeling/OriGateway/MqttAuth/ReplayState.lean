import OriGateway.Foundation.Bytes
import OriGateway.Foundation.GoMap
import OriGateway.Foundation.Heap
import OriGateway.Foundation.Int64

/-! # Freshness and replay state

A receiver's floor and the keys of the envelopes it accepted (**`ReplayState`**). A key is held
until its envelope is stale and its retention from receipt has passed, or until the receiver is full
and it is the oldest; when it is dropped the floor is raised past its signing time, in the same
step. All arithmetic is that of signed 64-bit integers. Both heaps hold exactly the held keys
(**`Tracks`**), and **`Drops`** is what any number of drops can do. -/

namespace OriGateway

open Foundation

/-! ## The state -/

/-- The key of an accepted envelope, with its signing and receipt times. -/
structure HeldKey where
  key : Bytes
  signedAt : Int
  receivedAt : Int
  dropAt : Int

/-- Why an envelope is refused, in the order of the checks. -/
inductive ReplayRefusal where
  /-- "mqtt auth stale_timestamp". -/
  | staleTimestamp
  /-- "mqtt auth future_timestamp". -/
  | futureTimestamp
  /-- "mqtt auth before_replay_floor". -/
  | beforeReplayFloor
  /-- "mqtt auth replay_detected". -/
  | replayDetected
  deriving DecidableEq

/-- The freshness and replay state of a receiver. A held key is named by the number it was allocated
under, and `cells` is what the name refers to. -/
structure ReplayState where
  skew : Int
  ttl : Int
  stores : Bool
  floor : Int
  storedFloor : Int
  storedSet : Bool
  keys : GoMap Bytes Nat
  cells : Nat → HeldKey
  next : Nat
  bySign : PosHeap Nat
  byDrop : PosHeap Nat
  maxKeys : Int

/-- A receiver that has accepted nothing, whose floor is its clock. -/
def newReplayState (skew ttl : Int) (stores : Bool) (maxKeys startClock : Int) : ReplayState where
  skew := skew
  ttl := ttl
  stores := stores
  floor := startClock
  storedFloor := 0
  storedSet := false
  keys := ∅
  cells := fun _ => ⟨[], 0, 0, 0⟩
  next := 0
  bySign := .empty
  byDrop := .empty
  maxKeys := maxKeys

namespace ReplayState

def signLess (s : ReplayState) (a b : Nat) : Bool :=
  decide ((s.cells a).signedAt < (s.cells b).signedAt)

/-- Whether the retention of one held key ends before that of another. -/
def dropLess (s : ReplayState) (a b : Nat) : Bool :=
  decide ((s.cells a).dropAt < (s.cells b).dropAt)

/-- The floor and the keys held, against a message. -/
def recheck (s : ReplayState) (key : Bytes) (signedAt : Int) : Option ReplayRefusal :=
  if signedAt < s.floor then some .beforeReplayFloor
  else if (s.keys.lookup key).isSome then some .replayDetected
  else none

/-- The window, the floor and the keys held. -/
def check (s : ReplayState) (key : Bytes) (signedAt t : Int) : Option ReplayRefusal :=
  if signedAt < int64 (t - s.skew) then some .staleTimestamp
  else if signedAt > int64 (t + s.skew) then some .futureTimestamp
  else s.recheck key signedAt

/-- The first time the retention of a key has ended: its envelope is stale, and the least retention
from receipt has passed where one is set. -/
def dropAt (s : ReplayState) (signedAt receivedAt : Int) : Int :=
  let stale := int64 (int64 (signedAt + s.skew) + 1)
  if s.ttl > 0 then max stale (int64 (receivedAt + s.ttl)) else stale

/-- Drop a key and raise the floor past it. -/
def drop (s : ReplayState) (id : Nat) : ReplayState :=
  let held := s.cells id
  let raised := int64 (held.signedAt + 1)
  { s with
    keys := s.keys.erase held.key
    bySign := s.bySign.remove s.signLess (s.bySign.pos id)
    byDrop := s.byDrop.remove s.dropLess (s.byDrop.pos id)
    floor := if raised > s.floor then raised else s.floor
    storedFloor := if !s.storedSet || raised > s.storedFloor then raised else s.storedFloor
    storedSet := true }

/-- Drop the key whose retention ends first while it has ended, at most as often as there are
keys. -/
def pruneFrom (t : Int) : Nat → ReplayState → ReplayState
  | 0, s => s
  | fuel + 1, s =>
    match s.byDrop.items with
    | [] => s
    | id :: _ => if (s.cells id).dropAt ≤ t then pruneFrom t fuel (s.drop id) else s

def prune (s : ReplayState) (t : Int) : ReplayState := pruneFrom t s.byDrop.items.length s

def evict (s : ReplayState) : ReplayState :=
  match s.bySign.items with
  | [] => s
  | id :: _ => s.drop id

def full (s : ReplayState) : Bool :=
  decide (s.maxKeys > 0 ∧ ((s.keys.keys.card : Nat) : Int) ≥ s.maxKeys)

/-- Hold a new key. -/
def hold (s : ReplayState) (key : Bytes) (signedAt receivedAt : Int) : ReplayState :=
  let held : HeldKey := ⟨key, signedAt, receivedAt, s.dropAt signedAt receivedAt⟩
  let id := s.next
  let s := { s with cells := Function.update s.cells id held, next := id + 1 }
  { s with
    keys := s.keys.insert key id
    bySign := s.bySign.push s.signLess id
    byDrop := s.byDrop.push s.dropLess id }

/-- Record the key of an accepted envelope; a full receiver first drops its oldest. -/
def record (s : ReplayState) (key : Bytes) (signedAt receivedAt : Int) : ReplayState :=
  let s := if s.full then s.evict else s
  s.hold key signedAt receivedAt

/-! ## The heaps hold the held keys -/

/-- **Both heaps hold exactly the held keys**, each where its place says. -/
structure Tracks (s : ReplayState) : Prop where
  sign_placed : s.bySign.Placed
  drop_placed : s.byDrop.Placed
  same : s.bySign.items.Perm s.byDrop.items
  lookup_iff : ∀ key id, s.keys.lookup key = some id ↔ id ∈ s.byDrop.items ∧ (s.cells id).key = key
  fresh : ∀ id ∈ s.byDrop.items, id < s.next

theorem tracks_newReplayState (skew ttl : Int) (stores : Bool) (maxKeys startClock : Int) :
    Tracks (newReplayState skew ttl stores maxKeys startClock) where
  sign_placed := PosHeap.placed_empty
  drop_placed := PosHeap.placed_empty
  same := .refl _
  lookup_iff := by simp [newReplayState, PosHeap.empty]
  fresh := by simp [newReplayState, PosHeap.empty]

theorem getElem?_pos {h : PosHeap Nat} (hp : h.Placed) {id : Nat} (hid : id ∈ h.items) :
    h.items[h.pos id]? = some id := by
  obtain ⟨i, hi, hget⟩ := List.mem_iff_getElem.mp hid
  have hsome : h.items[i]? = some id := List.getElem?_eq_some_iff.mpr ⟨hi, hget⟩
  rw [hp.pos_eq i id hsome]
  exact hsome

namespace Tracks

variable {s : ReplayState} {id : Nat}

theorem drop_perm (h : Tracks s) (hid : id ∈ s.byDrop.items) :
    (id :: (s.drop id).byDrop.items).Perm s.byDrop.items :=
  PosHeap.remove_perm _ (getElem?_pos h.drop_placed hid)

theorem drop (h : Tracks s) (hid : id ∈ s.byDrop.items) : Tracks (s.drop id) := by
  have hsign : id ∈ s.bySign.items := h.same.mem_iff.mpr hid
  have hdropPerm := h.drop_perm hid
  have hsignPerm : (id :: (s.drop id).bySign.items).Perm s.bySign.items :=
    PosHeap.remove_perm _ (getElem?_pos h.sign_placed hsign)
  have hnodup : id ∉ (s.drop id).byDrop.items :=
    (List.nodup_cons.mp (hdropPerm.nodup_iff.mpr h.drop_placed.nodup)).1
  have hmem : ∀ id', id' ∈ (s.drop id).byDrop.items ↔ id' ∈ s.byDrop.items ∧ id' ≠ id := by
    intro id'
    rw [← hdropPerm.mem_iff, List.mem_cons]
    constructor
    · intro hid'
      exact ⟨.inr hid', ne_of_mem_of_not_mem hid' hnodup⟩
    · rintro ⟨rfl | hid', hne⟩
      · exact absurd rfl hne
      · exact hid'
  constructor
  case sign_placed => exact PosHeap.placed_remove _ (getElem?_pos h.sign_placed hsign) h.sign_placed
  case drop_placed => exact PosHeap.placed_remove _ (getElem?_pos h.drop_placed hid) h.drop_placed
  case same =>
    refine List.Perm.cons_inv (a := id) ?_
    exact hsignPerm.trans (h.same.trans hdropPerm.symm)
  case lookup_iff =>
    intro key id'
    change (s.keys.erase (s.cells id).key).lookup key = some id' ↔ _
    rw [hmem, lookup_erase_ite]
    split
    · next hkey =>
      -- the key is gone, and no other held key has it
      have hlookup := (h.lookup_iff key id).mpr ⟨hid, hkey.symm⟩
      simp only [reduceCtorEq, false_iff]
      rintro ⟨⟨hid', hne⟩, hkey'⟩
      have := (h.lookup_iff key id').mpr ⟨hid', hkey'⟩
      rw [hlookup] at this
      exact hne (Option.some.inj this).symm
    · next hkey =>
      rw [h.lookup_iff key id']
      constructor
      · rintro ⟨hid', hkey'⟩
        exact ⟨⟨hid', fun heq => hkey (by rw [← hkey', heq])⟩, hkey'⟩
      · rintro ⟨⟨hid', -⟩, hkey'⟩
        exact ⟨hid', hkey'⟩
  case fresh =>
    intro id' hid'
    exact h.fresh id' ((hmem id').mp hid').1

theorem hold (h : Tracks s) {key : Bytes} (hkey : s.keys.lookup key = none)
    (signedAt receivedAt : Int) : Tracks (s.hold key signedAt receivedAt) := by
  have hnew : s.next ∉ s.byDrop.items := fun hmem => absurd (h.fresh _ hmem) (lt_irrefl _)
  have hnew' : s.next ∉ s.bySign.items := fun hmem => hnew (h.same.mem_iff.mp hmem)
  have hdropPerm : (s.hold key signedAt receivedAt).byDrop.items.Perm (s.next :: s.byDrop.items) :=
    PosHeap.push_perm _ _ _
  have hsignPerm : (s.hold key signedAt receivedAt).bySign.items.Perm (s.next :: s.bySign.items) :=
    PosHeap.push_perm _ _ _
  have hcell : ∀ id ∈ s.byDrop.items, (s.hold key signedAt receivedAt).cells id = s.cells id :=
    fun id hid => Function.update_of_ne (ne_of_mem_of_not_mem hid hnew) _ _
  have hcell' : ((s.hold key signedAt receivedAt).cells s.next).key = key := by
    simp [ReplayState.hold]
  constructor
  case sign_placed => exact PosHeap.placed_push _ h.sign_placed hnew'
  case drop_placed => exact PosHeap.placed_push _ h.drop_placed hnew
  case same => exact hsignPerm.trans ((h.same.cons _).trans hdropPerm.symm)
  case lookup_iff =>
    intro key' id
    change (s.keys.insert key s.next).lookup key' = some id ↔ _
    rw [hdropPerm.mem_iff, List.mem_cons, lookup_insert_ite]
    split
    · next heq =>
      subst heq
      constructor
      · intro hid
        cases hid
        exact ⟨.inl rfl, hcell'⟩
      · rintro ⟨rfl | hid, hkey'⟩
        · rfl
        · rw [hcell id hid] at hkey'
          rw [(h.lookup_iff key' id).mpr ⟨hid, hkey'⟩] at hkey
          cases hkey
    · next hne =>
      rw [h.lookup_iff key' id]
      constructor
      · rintro ⟨hid, hkey'⟩
        exact ⟨.inr hid, by rw [hcell id hid, hkey']⟩
      · rintro ⟨rfl | hid, hkey'⟩
        · exact absurd (hkey'.symm.trans hcell') hne
        · rw [hcell id hid] at hkey'
          exact ⟨hid, hkey'⟩
  case fresh =>
    intro id hid
    rw [hdropPerm.mem_iff, List.mem_cons] at hid
    rcases hid with rfl | hid
    · exact Nat.lt_succ_self _
    · exact Nat.lt_succ_of_lt (h.fresh id hid)

end Tracks

/-! ## What drops do -/

/-- **What any number of drops can do**, of held keys with a property: the floor only rises, to one
past the signing time of a dropped key, and a key is still held or the floor is past its signing
time. -/
structure Drops (may : Nat → Prop) (s s' : ReplayState) : Prop where
  bounds : s'.skew = s.skew ∧ s'.ttl = s.ttl ∧ s'.maxKeys = s.maxKeys
  names : s'.cells = s.cells ∧ s'.next = s.next
  floor_le : s.floor ≤ s'.floor
  floor_from : s'.floor = s.floor ∨ ∃ id ∈ s.byDrop.items, may id ∧
    s'.floor = int64 ((s.cells id).signedAt + 1)
  held : ∀ key id, s'.keys.lookup key = some id → s.keys.lookup key = some id
  kept : ∀ key id, s.keys.lookup key = some id →
    s'.keys.lookup key = some id ∨ int64 ((s.cells id).signedAt + 1) ≤ s'.floor
  tracks : Tracks s'

namespace Drops

variable {may : Nat → Prop} {s s' s'' : ReplayState}

theorem refl (h : Tracks s) : Drops may s s :=
  ⟨⟨rfl, rfl, rfl⟩, ⟨rfl, rfl⟩, le_rfl, .inl rfl, fun _ _ hk => hk, fun _ _ hk => .inl hk, h⟩

theorem trans (hs : Tracks s) (a : Drops may s s') (b : Drops may s' s'') : Drops may s s'' := by
  have hmem : ∀ id ∈ s'.byDrop.items, id ∈ s.byDrop.items := by
    intro id hid
    have hheld := (a.tracks.lookup_iff (s'.cells id).key id).mpr ⟨hid, rfl⟩
    exact ((hs.lookup_iff _ id).mp (a.held _ id hheld)).1
  constructor
  case bounds =>
    exact ⟨b.bounds.1.trans a.bounds.1, b.bounds.2.1.trans a.bounds.2.1,
      b.bounds.2.2.trans a.bounds.2.2⟩
  case names => exact ⟨b.names.1.trans a.names.1, b.names.2.trans a.names.2⟩
  case floor_le => exact a.floor_le.trans b.floor_le
  case floor_from =>
    rcases b.floor_from with hb | ⟨id, hid, hmay, hb⟩
    · rw [hb]
      exact a.floor_from
    · rw [a.names.1] at hb
      exact .inr ⟨id, hmem id hid, hmay, hb⟩
  case held => exact fun key id hk => a.held key id (b.held key id hk)
  case kept =>
    intro key id hk
    rcases a.kept key id hk with hk' | hfloor
    · rw [← a.names.1]
      exact b.kept key id hk'
    · exact .inr (hfloor.trans b.floor_le)
  case tracks => exact b.tracks

theorem drop (h : Tracks s) {id : Nat} (hid : id ∈ s.byDrop.items) (hmay : may id) :
    Drops may s (s.drop id) := by
  have hfloor : (s.drop id).floor = max s.floor (int64 ((s.cells id).signedAt + 1)) := by
    change (if _ then _ else _) = _
    split <;> omega
  constructor
  case bounds => exact ⟨rfl, rfl, rfl⟩
  case names => exact ⟨rfl, rfl⟩
  case floor_le =>
    rw [hfloor]
    exact le_max_left _ _
  case floor_from =>
    rw [hfloor]
    rcases max_choice s.floor (int64 ((s.cells id).signedAt + 1)) with hmax | hmax
    · exact .inl hmax
    · exact .inr ⟨id, hid, hmay, hmax⟩
  case held => exact fun key id' hk => lookup_of_erase hk
  case kept =>
    intro key id' hk
    change (s.keys.erase (s.cells id).key).lookup key = some id' ∨ _
    rw [lookup_erase_ite, hfloor]
    by_cases hkey : key = (s.cells id).key
    · -- the dropped key is the only one held under its key
      rw [(h.lookup_iff key id).mpr ⟨hid, hkey.symm⟩] at hk
      cases hk
      exact .inr (le_max_right _ _)
    · rw [if_neg hkey]
      exact .inl hk
  case tracks => exact h.drop hid

end Drops

/-- **Pruning drops keys whose retention has ended.** -/
theorem drops_prune {s : ReplayState} (h : Tracks s) (t : Int) :
    Drops (fun id => (s.cells id).dropAt ≤ t) s (s.prune t) := by
  suffices hall : ∀ fuel s', s'.cells = s.cells → Tracks s' →
      Drops (fun id => (s.cells id).dropAt ≤ t) s' (pruneFrom t fuel s') from
    hall _ s rfl h
  intro fuel
  induction fuel with
  | zero => exact fun s' _ hs' => .refl hs'
  | succ fuel ih =>
    intro s' hcells hs'
    simp only [pruneFrom]
    split
    · exact .refl hs'
    · next id rest hitems =>
      have hid : id ∈ s'.byDrop.items := by
        rw [hitems]
        exact List.mem_cons_self
      split
      · next hdue =>
        rw [hcells] at hdue
        have hone : Drops (fun id => (s.cells id).dropAt ≤ t) s' (s'.drop id) :=
          .drop hs' hid hdue
        exact hone.trans hs' (ih (s'.drop id) (hone.names.1.trans hcells) hone.tracks)
      · exact .refl hs'

theorem drops_evict {s : ReplayState} (h : Tracks s) : Drops (fun _ => True) s s.evict := by
  unfold evict
  split
  · exact .refl h
  · next id rest hitems =>
    have hsign : id ∈ s.bySign.items := by
      rw [hitems]
      exact List.mem_cons_self
    exact .drop h (h.same.mem_iff.mp hsign) trivial

end ReplayState

end OriGateway
