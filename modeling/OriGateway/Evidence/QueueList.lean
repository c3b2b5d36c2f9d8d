import OriGateway.Evidence.Consistency

/-! # The queue as a list

To its callers a queue is the list of its artifacts, the oldest first (`DurableQueue.artifacts`): an
admission appends one, a retirement takes one out, and nothing else changes it (`Listed`). Every
operation does that, whichever of its file-system calls fail (`Effect.listed`). -/

namespace OriGateway

open Foundation

def QueuedArtifact.lane (a : QueuedArtifact) : LaneKey :=
  ⟨recordDevice a.payload, laneOfType a.type⟩

namespace DurableQueue

def artifacts (q : DurableQueue) : List QueuedArtifact :=
  q.order.map fun id => (q.entry id).artifact

def peek (q : DurableQueue) : Option QueuedArtifact :=
  q.order.head?.map fun id => (q.entry id).artifact

theorem peek_eq (q : DurableQueue) : q.peek = q.artifacts.head? := by
  rw [peek, artifacts, List.head?_map]

variable {q : DurableQueue}

theorem Consistent.map_id_artifacts (h : Consistent q) : q.artifacts.map (·.id) = q.order := by
  rw [artifacts, List.map_map]
  refine (List.map_congr_left ?_).trans (List.map_id _)
  intro id hid
  obtain ⟨r, hr⟩ := mem_keys_iff.mp (h.mem_order.mp hid)
  show (q.entry id).artifact.id = id
  rw [entry_of_lookup hr]
  exact (h.sound id r hr).2

theorem Consistent.nodup_artifacts (h : Consistent q) : (q.artifacts.map (·.id)).Nodup := by
  rw [h.map_id_artifacts]
  exact h.nodup

theorem Consistent.peekLane_eq (h : Consistent q) (key : LaneKey) :
    q.peekLane key = q.artifacts.find? fun a => a.lane == key := by
  rw [peekLane, artifacts, List.find?_map]
  refine congrArg (Option.map _) (List.find?_congr ?_)
  intro id hid
  rw [h.laneAt_eq (h.mem_order.mp hid)]
  rfl

theorem Consistent.admitted_order (h : Consistent q) {now : Int} {kind : ArtifactType}
    {payload : Bytes} (hadmits : q.Admits now kind payload) :
    (q.admitted now kind payload).order = q.order ++ [artifactID kind payload] := by
  have hnew : ∀ id ∈ q.order, id ≠ artifactID kind payload := by
    rintro id hid rfl
    exact Finmap.lookup_eq_none.mp hadmits.absent (Finmap.mem_keys.mp (h.mem_order.mp hid))
  have hentry : ∀ id ∈ q.order,
      ((q.entries.insert (artifactID kind payload) (q.newRecord now kind payload)).lookup id).getD
        .zero =
        q.entry id := fun id hid => by
    rw [Finmap.lookup_insert_of_ne _ (hnew id hid)]
    rfl
  have hlast : ((q.entries.insert (artifactID kind payload) (q.newRecord now kind payload)).lookup
      (artifactID kind payload)).getD .zero = q.newRecord now kind payload := by
    rw [Finmap.lookup_insert, Option.getD_some]
  -- the records were in order, and the new one has the next place
  have hsorted : (q.order ++ [artifactID kind payload]).Pairwise
      (OrderLE (q.entries.insert (artifactID kind payload) (q.newRecord now kind payload))) := by
    refine List.pairwise_append.mpr ⟨?_, List.pairwise_singleton _ _, ?_⟩
    · refine h.ascending.imp_of_mem ?_
      intro a b ha hb hab
      rw [OrderLE, hentry a ha, hentry b hb]
      exact .inl hab
    · intro a ha b hb
      obtain rfl := List.mem_singleton.mp hb
      rw [OrderLE, hentry a ha, hlast]
      exact .inl (h.seq_lt a (h.mem_order.mp ha))
  exact hsorted.insertionSort_eq

end DurableQueue

open DurableQueue

/-- **What an operation does to the list of artifacts.** -/
inductive Listed : QueueOp → List QueuedArtifact → Except QueueError Unit → List QueuedArtifact →
    Prop where
  | same {op l result} (hremove : ∀ id, op = .remove id → result ≠ .ok ()) : Listed op l result l
  | appended {op l} (now : Int) (kind : ArtifactType) (payload : Bytes)
      (hop : op = .enqueue now kind payload ∨ op = .stage now kind payload)
      (hnew : artifactID kind payload ∉ l.map (·.id)) :
      Listed op l (.ok ()) (l ++ [⟨artifactID kind payload, kind, payload, int64 now⟩])
  | retired {l} (a : QueuedArtifact) (ha : a ∈ l) :
      Listed (.remove a.id) l (.ok ()) (l.filter (·.id ≠ a.id))

theorem Listed.removed {l l' : List QueuedArtifact} {id : Bytes}
    (h : Listed (.remove id) l (.ok ()) l') : id ∉ l'.map (·.id) := by
  generalize hop : QueueOp.remove id = op at h
  generalize hresult : (Except.ok () : Except QueueError Unit) = result at h
  cases h with
  | same hremove => exact absurd hresult.symm (hremove id hop.symm)
  | appended now kind payload hop' => rcases hop' with rfl | rfl <;> cases hop
  | retired a ha =>
    cases hop
    simp

theorem Listed.failed {op : QueueOp} {l l' : List QueuedArtifact} {e : QueueError}
    (h : Listed op l (.error e) l') : l' = l := by
  cases h
  rfl

theorem Listed.head {op : QueueOp} {l l' : List QueuedArtifact} {result : Except QueueError Unit}
    {a : QueuedArtifact} (h : Listed op l result l') (hop : ∀ id, op ≠ .remove id)
    (ha : l.head? = some a) : l'.head? = some a := by
  cases h with
  | same => exact ha
  | appended => rw [List.head?_append, ha, Option.some_or]
  | retired b => exact absurd rfl (hop b.id)

theorem Listed.left {op : QueueOp} {l l' : List QueuedArtifact} {result : Except QueueError Unit}
    {a : QueuedArtifact} (h : Listed op l result l') (ha : a ∈ l) (hleft : a ∉ l') :
    op = .remove a.id ∧ result = .ok () := by
  cases h with
  | same => exact absurd ha hleft
  | appended => exact absurd (List.mem_append_left _ ha) hleft
  | retired b hb =>
    have hid : a.id = b.id := by
      by_contra hne
      exact hleft (List.mem_filter.mpr ⟨ha, by simpa using hne⟩)
    exact ⟨by rw [hid], rfl⟩

variable {op : QueueOp} {q q' : DurableQueue} {result : Except QueueError Unit}

theorem artifacts_admitted (h : Consistent q) {now : Int} {kind : ArtifactType} {payload : Bytes}
    (hadmits : q.Admits now kind payload) :
    (q.admitted now kind payload).artifacts =
      q.artifacts ++ [⟨artifactID kind payload, kind, payload, int64 now⟩] := by
  have hnew : ∀ id ∈ q.order, id ≠ artifactID kind payload := by
    rintro id hid rfl
    exact Finmap.lookup_eq_none.mp hadmits.absent (Finmap.mem_keys.mp (h.mem_order.mp hid))
  rw [artifacts, h.admitted_order hadmits, List.map_append, artifacts]
  congr 1
  · refine List.map_congr_left fun id hid => ?_
    show ((((q.entries.insert (artifactID kind payload) (q.newRecord now kind payload)).lookup
      id).getD
      .zero).artifact) = _
    rw [Finmap.lookup_insert_of_ne _ (hnew id hid)]
    rfl
  · show [(((q.entries.insert (artifactID kind payload) (q.newRecord now kind payload)).lookup
      (artifactID kind payload)).getD .zero).artifact] = _
    rw [Finmap.lookup_insert, Option.getD_some]
    rfl

theorem artifacts_removeEntry (h : Consistent q) (id : Bytes) :
    (q.removeEntry id).artifacts = q.artifacts.filter (·.id ≠ id) := by
  show (q.order.erase id).map (fun id' => ((q.removeEntry id).entry id').artifact) = _
  rw [h.nodup.erase_eq_filter, artifacts, List.filter_map]
  refine (List.map_congr_left ?_).trans (congrArg _ (List.filter_congr ?_))
  · intro id' hid'
    obtain ⟨-, hne⟩ := List.mem_filter.mp hid'
    rw [removeEntry_entry_of_ne (by simpa using hne)]
  · intro id' hid'
    obtain ⟨r, hr⟩ := mem_keys_iff.mp (h.mem_order.mp hid')
    have hid : (q.entry id').artifact.id = id' := by
      rw [entry_of_lookup hr]
      exact (h.sound id' r hr).2
    rw [Bool.eq_iff_iff]
    simp [hid]

theorem artifacts_sameButFaults (hs : SameButFaults q q') : q'.artifacts = q.artifacts := by
  rw [hs]
  rfl

theorem artifacts_unconfiguredChange (hc : UnconfiguredChange q q') :
    q'.artifacts = q.artifacts := by
  rw [hc.same]
  rfl

/-- **Every operation appends an artifact, retires one, or leaves the list as it is.** -/
theorem Effect.listed (h : Effect op q result q') (hq : Consistent q) :
    Listed op q.artifacts result q'.artifacts := by
  have hnew : ∀ {now kind payload}, q.Admits now kind payload →
      artifactID kind payload ∉ q.artifacts.map (·.id) := by
    intro now kind payload hadmits hmem
    rw [hq.map_id_artifacts, hq.mem_order] at hmem
    exact Finmap.lookup_eq_none.mp hadmits.absent (Finmap.mem_keys.mp hmem)
  induction h with
  | refused e => exact .same fun _ _ hok => by cases hok
  | found | foundStaged | held | backedOff | cleared | probed =>
    exact .same fun _ hop => by cases hop
  | @admitted now kind payload q hkind hadmits =>
    rw [artifacts_admitted hq hadmits]
    exact .appended now kind payload (.inl rfl) (hnew hadmits)
  | @staged now kind payload q hadmits =>
    rw [artifacts_admitted hq hadmits]
    exact .appended now kind payload (.inr rfl) (hnew hadmits)
  | unheld e => exact .same fun _ _ hok => by cases hok
  | bared e => exact .same fun _ _ hok => by cases hok
  | @retired id q r hlookup =>
    have hbare : Consistent (q.withoutSidecars id) := (hq.forget .hold id).forget .backoff id
    have hmem : r.artifact ∈ q.artifacts := by
      refine List.mem_map.mpr ⟨id, hq.mem_order.mpr (mem_keys_iff.mpr ⟨r, hlookup⟩), ?_⟩
      rw [entry_of_lookup hlookup]
    have hid : r.artifact.id = id := (hq.sound id r hlookup).2
    have hlisted := Listed.retired r.artifact hmem
    rw [hid] at hlisted
    rw [artifacts_removeEntry hbare]
    exact hlisted
  | noted r hc =>
    rw [artifacts_unconfiguredChange hc]
    exact .same fun _ hop => by cases hop
  | notedAdmitted hc =>
    rw [artifacts_unconfiguredChange hc]
    exact .same fun _ hop => by cases hop
  | faults _ hs ih =>
    rw [artifacts_sameButFaults hs]
    exact ih hq hnew

end OriGateway
