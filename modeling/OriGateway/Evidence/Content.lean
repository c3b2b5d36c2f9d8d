import OriGateway.Evidence.Queue
import OriGateway.Evidence.Load

/-! # What a queue directory holds

A directory seen through the names the loader tells apart: **`Stores d c`** says that directory `d`
holds exactly the content `c`, besides scratch files and those the loader passes over. Each file the
queue writes is told apart as what it was written as, and each class that stands for one file has
one name, so a change of one file is a change of one place of the content. -/

namespace OriGateway

open Foundation

/-! ## Names -/

theorem not_prefixes_both {p p' name : Bytes} (hp : p <+: name) (h : ¬ p <+: p')
    (h' : ¬ p' <+: p) : ¬ p' <+: name := fun hp' =>
  (List.prefix_or_prefix_of_prefix hp hp').elim h h'

theorem ne_of_prefix_not {p name other : Bytes} (hp : p <+: name) (h : ¬ p <+: other) :
    name ≠ other := fun heq => h (heq ▸ hp)

theorem classify_eq_temp {name : Bytes} : classify name = .temp ↔ queueTempPrefix <+: name := by
  constructor
  · intro h
    by_contra htemp
    unfold classify at h
    rw [if_neg htemp] at h
    split_ifs at h
  · intro htemp
    have hignored : ¬ (name = queueMarkerName ∨ signingClockFilePrefix <+: name ∨
        name = probeFileName) := by
      rintro (h | h | h)
      · exact ne_of_prefix_not htemp (by decide) h
      · exact not_prefixes_both htemp (by decide) (by decide) h
      · exact ne_of_prefix_not htemp (by decide) h
    rw [classify, if_neg hignored, if_neg (ne_of_prefix_not htemp (by decide)),
      if_neg (not_prefixes_both htemp (by decide) (by decide)),
      if_neg (not_prefixes_both htemp (by decide) (by decide)), if_pos htemp]

theorem classify_hold (id : Bytes) : classify (holdFilePrefix ++ id) = .hold id := by
  have hp : holdFilePrefix <+: holdFilePrefix ++ id := List.prefix_append _ _
  have hignored : ¬ (holdFilePrefix ++ id = queueMarkerName ∨
      signingClockFilePrefix <+: holdFilePrefix ++ id ∨ holdFilePrefix ++ id = probeFileName) := by
    rintro (h | h | h)
    · exact ne_of_prefix_not hp (by decide) h
    · exact not_prefixes_both hp (by decide) (by decide) h
    · exact ne_of_prefix_not hp (by decide) h
  rw [classify, if_neg hignored, if_neg (ne_of_prefix_not hp (by decide)), if_pos hp,
    List.drop_left]

theorem classify_backoff (id : Bytes) : classify (backoffFilePrefix ++ id) = .backoff id := by
  have hp : backoffFilePrefix <+: backoffFilePrefix ++ id := List.prefix_append _ _
  have hignored : ¬ (backoffFilePrefix ++ id = queueMarkerName ∨
      signingClockFilePrefix <+: backoffFilePrefix ++ id ∨
      backoffFilePrefix ++ id = probeFileName) := by
    rintro (h | h | h)
    · exact ne_of_prefix_not hp (by decide) h
    · exact not_prefixes_both hp (by decide) (by decide) h
    · exact ne_of_prefix_not hp (by decide) h
  rw [classify, if_neg hignored, if_neg (ne_of_prefix_not hp (by decide)),
    if_neg (not_prefixes_both hp (by decide) (by decide)), if_pos hp, List.drop_left]

theorem head_artifactID (kind : ArtifactType) (payload : Bytes) :
    ∃ b rest, artifactID kind payload = b :: rest ∧ b ≠ 46 := by
  have hlength := artifactID_length kind payload
  have hdigits := artifactID_isHexDigit kind payload
  cases hid : artifactID kind payload with
  | nil =>
    rw [hid] at hlength
    cases hlength
  | cons b rest =>
    refine ⟨b, rest, rfl, ?_⟩
    rintro rfl
    exact absurd (hdigits 46 (by rw [hid]; simp)) (by decide)

theorem classify_recordFile {id : Bytes} (hid : ∃ b rest, id = b :: rest ∧ b ≠ 46) :
    classify (recordFile id) = .record id := by
  obtain ⟨b, rest, rfl, hb⟩ := hid
  have hhead : (recordFile (b :: rest)).head? ≠ some 46 := by
    simpa [recordFile] using hb
  -- every other name starts with a dot
  have hne : ∀ other : Bytes, other.head? = some 46 → recordFile (b :: rest) ≠ other := by
    rintro other hother rfl
    exact hhead hother
  have hstart : ∀ p : Bytes, p.head? = some 46 → ¬ p <+: recordFile (b :: rest) := by
    rintro p hp ⟨t, ht⟩
    refine hhead ?_
    rw [← ht, List.head?_append, hp]
    rfl
  have hignored : ¬ (recordFile (b :: rest) = queueMarkerName ∨
      signingClockFilePrefix <+: recordFile (b :: rest) ∨
      recordFile (b :: rest) = probeFileName) := by
    rintro (h | h | h)
    · exact hne _ (by decide) h
    · exact hstart _ (by decide) h
    · exact hne _ (by decide) h
  have hsuffix : queueFileSuffix <:+ recordFile (b :: rest) := List.suffix_append _ _
  rw [classify, if_neg hignored, if_neg (hne _ (by decide)), if_neg (hstart _ (by decide)),
    if_neg (hstart _ (by decide)), if_neg (hstart _ (by decide)), if_pos hsuffix, recordFile,
    List.length_append, Nat.add_sub_cancel, List.take_left]

/-- The name of the file a class stands for, for the classes that stand for one file. -/
def NameClass.name : NameClass → Option Bytes
  | record id => some (recordFile id)
  | hold id => some (holdFilePrefix ++ id)
  | backoff id => some (backoffFilePrefix ++ id)
  | unconfigured => some unconfiguredFileName
  | ignored | temp | unexpected => none

/-- **A class that stands for one file has one name.** -/
theorem name_classify {name n : Bytes} (h : (classify name).name = some n) : name = n := by
  unfold classify at h
  split_ifs at h with h₁ h₂ h₃ h₄ h₅ h₆
  · cases h
  · exact h₂.trans (Option.some.inj h)
  · obtain ⟨id, rfl⟩ := h₃
    rw [List.drop_left] at h
    exact Option.some.inj h
  · obtain ⟨id, rfl⟩ := h₄
    rw [List.drop_left] at h
    exact Option.some.inj h
  · cases h
  · obtain ⟨id, rfl⟩ := h₆
    rw [show (id ++ queueFileSuffix).take ((id ++ queueFileSuffix).length - queueFileSuffix.length)
      = id by simp] at h
    exact Option.some.inj h
  · cases h

/-! ## Content -/

/-- What a queue directory holds. -/
@[ext] structure Content where
  records : GoMap Bytes QueueRecord
  holds : GoMap Bytes HoldRecord
  backoffs : GoMap Bytes BackoffRecord
  unconfigured : Option UnconfiguredRecord

/-- The file under a name. -/
def Content.file (c : Content) : NameClass → Option File
  | .record id => (c.records.lookup id).map fun r => replacement r.marshal
  | .hold id => (c.holds.lookup id).map fun r => replacement r.marshal
  | .backoff id => (c.backoffs.lookup id).map fun r => replacement r.marshal
  | .unconfigured => c.unconfigured.map fun r => replacement r.marshal
  | .ignored | .temp | .unexpected => none

def Content.forget (c : Content) : DurableQueue.Sidecar → Bytes → Content
  | .hold, id => { c with holds := c.holds.erase id }
  | .backoff, id => { c with backoffs := c.backoffs.erase id }

/-- **A directory that holds exactly a content**, besides scratch files and those the loader passes
over. -/
structure Stores (d : Directory) (c : Content) : Prop where
  marker : ensureQueueMarker d = .ok ()
  files : ∀ n, classify n ≠ .ignored → classify n ≠ .temp → d.lookup n = c.file (classify n)

namespace Stores

variable {d d' : Directory} {c c' : Content}

theorem ensureQueueMarker_congr (h : d'.lookup queueMarkerName = d.lookup queueMarkerName) :
    ensureQueueMarker d' = ensureQueueMarker d := by
  rw [ensureQueueMarker, ensureQueueMarker, h]

theorem of_agrees (h : Stores d c) (ha : Directory.Agrees queueTempPrefix d d') :
    Stores d' c where
  marker := by
    rw [ensureQueueMarker_congr (ha _ (by decide)).symm]
    exact h.marker
  files n hignored htemp := by
    rw [← ha n fun hp => htemp (classify_eq_temp.mpr hp)]
    exact h.files n hignored htemp

/-- **A change of one file** is a change of one place of the content. -/
theorem change (h : Stores d c) {k : NameClass} {name : Bytes} {v : Option File}
    (hk : classify name = k) (hname : k.name = some name)
    (hd : ∀ n, d'.lookup n = if n = name then v else d.lookup n)
    (hc : ∀ k', c'.file k' = if k' = k then v else c.file k') : Stores d' c' where
  marker := by
    have hne : queueMarkerName ≠ name := by
      rintro rfl
      rw [← hk] at hname
      exact absurd hname (by decide)
    exact (ensureQueueMarker_congr (by rw [hd, if_neg hne])).trans h.marker
  files n hignored htemp := by
    rw [hd, hc]
    by_cases hn : n = name
    · rw [if_pos hn, if_pos (by rw [hn, hk])]
    · have hother : classify n ≠ k := fun heq => hn (name_classify (heq ▸ hname))
      rw [if_neg hn, if_neg hother]
      exact h.files n hignored htemp

theorem insert_probe (h : Stores d c) (f : File) : Stores (d.insert probeFileName f) c where
  marker := by
    rw [ensureQueueMarker_congr (Finmap.lookup_insert_of_ne _ (by decide))]
    exact h.marker
  files n hignored htemp := by
    have hne : n ≠ probeFileName := by
      rintro rfl
      exact hignored (by decide)
    rw [Finmap.lookup_insert_of_ne _ hne]
    exact h.files n hignored htemp

theorem putRecord (h : Stores d c) {id : Bytes} (hid : ∃ b rest, id = b :: rest ∧ b ≠ 46)
    (r : QueueRecord) : Stores (d.insert (recordFile id) (replacement r.marshal))
      { c with records := c.records.insert id r } := by
  refine h.change (classify_recordFile hid) rfl (lookup_insert_ite d _ _) fun k => ?_
  cases k with
  | record id' =>
    simp only [Content.file, lookup_insert_ite, NameClass.record.injEq]
    split <;> rfl
  | _ => simp [Content.file]

theorem delRecord (h : Stores d c) {id : Bytes} (hid : ∃ b rest, id = b :: rest ∧ b ≠ 46) :
    Stores (d.erase (recordFile id)) { c with records := c.records.erase id } := by
  refine h.change (classify_recordFile hid) rfl (lookup_erase_ite d _) fun k => ?_
  cases k with
  | record id' =>
    simp only [Content.file, lookup_erase_ite, NameClass.record.injEq]
    split <;> rfl
  | _ => simp [Content.file]

theorem putHold (h : Stores d c) (id : Bytes) (r : HoldRecord) :
    Stores (d.insert (DurableQueue.Sidecar.hold.file id) (replacement r.marshal))
      { c with holds := c.holds.insert id r } := by
  refine h.change (classify_hold id) rfl (lookup_insert_ite d _ _) fun k => ?_
  cases k with
  | hold id' =>
    simp only [Content.file, lookup_insert_ite, NameClass.hold.injEq]
    split <;> rfl
  | _ => simp [Content.file]

theorem putBackoff (h : Stores d c) (id : Bytes) (r : BackoffRecord) :
    Stores (d.insert (DurableQueue.Sidecar.backoff.file id) (replacement r.marshal))
      { c with backoffs := c.backoffs.insert id r } := by
  refine h.change (classify_backoff id) rfl (lookup_insert_ite d _ _) fun k => ?_
  cases k with
  | backoff id' =>
    simp only [Content.file, lookup_insert_ite, NameClass.backoff.injEq]
    split <;> rfl
  | _ => simp [Content.file]

theorem delSidecar (h : Stores d c) (kind : DurableQueue.Sidecar) (id : Bytes) :
    Stores (d.erase (kind.file id)) (c.forget kind id) := by
  cases kind with
  | hold =>
    refine h.change (classify_hold id) rfl (lookup_erase_ite d _) fun k => ?_
    cases k with
    | hold id' =>
      simp only [Content.file, Content.forget, lookup_erase_ite, NameClass.hold.injEq]
      split <;> rfl
    | _ => simp [Content.file, Content.forget]
  | backoff =>
    refine h.change (classify_backoff id) rfl (lookup_erase_ite d _) fun k => ?_
    cases k with
    | backoff id' =>
      simp only [Content.file, Content.forget, lookup_erase_ite, NameClass.backoff.injEq]
      split <;> rfl
    | _ => simp [Content.file, Content.forget]

theorem putUnconfigured (h : Stores d c) (r : UnconfiguredRecord) :
    Stores (d.insert unconfiguredFileName (replacement r.marshal))
      { c with unconfigured := some r } := by
  refine h.change (k := .unconfigured) (by decide) rfl (lookup_insert_ite d _ _) fun k => ?_
  cases k <;> simp [Content.file]

theorem delUnconfigured (h : Stores d c) :
    Stores (d.erase unconfiguredFileName) { c with unconfigured := none } := by
  refine h.change (k := .unconfigured) (by decide) rfl (lookup_erase_ite d _) fun k => ?_
  cases k <;> simp [Content.file]

end Stores

end OriGateway
