import OriGateway.Foundation.Recent
import OriGateway.Site.Registry

/-! # The evidence chain of a node

A chain head is an opaque hash, so two heads cannot be ordered. The registry remembers the last
heads of a device, and with them notices a chain that was reset and one that was rolled back. Here
the two are said over the heads that a device's chain moved through since it was registered
(**`chainHeads`**): one came back within the window, or the chain became empty
(**`Truncated`**). -/

namespace OriGateway

open Foundation

/-! ## What a device reported -/

/-- The heads among the reports of a device, the empty ones apart. A report is the evidence of a
heartbeat, or none. -/
def reportedHeads (reports : List (Option NodeEvidence)) : List Bytes :=
  (reports.filterMap fun report => report.map (·.chainHeadHash)).filter (· ≠ [])

/-- The heads that a device's chain moved through: those reported, without consecutive repeats. -/
def chainHeads (reports : List (Option NodeEvidence)) : List Bytes :=
  (reportedHeads reports).destutter (· ≠ ·)

/-- A head was reported, and later none. -/
def Truncated (reports : List (Option NodeEvidence)) : Prop :=
  ∃ i j : Nat, i < j ∧ (∃ e : NodeEvidence, reports[i]? = some (some e) ∧ e.chainHeadHash ≠ []) ∧
    ∃ e : NodeEvidence, reports[j]? = some (some e) ∧ e.chainHeadHash = []

section Reports

variable {reports : List (Option NodeEvidence)}

@[simp] theorem reportedHeads_concat_none (reports : List (Option NodeEvidence)) :
    reportedHeads (reports ++ [none]) = reportedHeads reports := by
  simp [reportedHeads]

theorem reportedHeads_concat_some (reports : List (Option NodeEvidence)) (e : NodeEvidence) :
    reportedHeads (reports ++ [some e]) =
      reportedHeads reports ++ if e.chainHeadHash = [] then [] else [e.chainHeadHash] := by
  by_cases hempty : e.chainHeadHash = [] <;> simp [reportedHeads, hempty]

theorem ne_nil_of_mem_reportedHeads {head : Bytes} (h : head ∈ reportedHeads reports) :
    head ≠ [] := by
  simpa using (List.mem_filter.mp h).2

theorem mem_reportedHeads {head : Bytes} :
    head ∈ reportedHeads reports ↔ head ≠ [] ∧ ∃ e, some e ∈ reports ∧ e.chainHeadHash = head := by
  rw [reportedHeads, List.mem_filter, List.mem_filterMap, decide_eq_true_iff, and_comm]
  refine and_congr_right fun _ => ⟨?_, ?_⟩
  · rintro ⟨report, hmem, hhead⟩
    obtain ⟨e, rfl, rfl⟩ := Option.map_eq_some_iff.mp hhead
    exact ⟨e, hmem, rfl⟩
  · rintro ⟨e, hmem, rfl⟩
    exact ⟨some e, hmem, rfl⟩

@[simp] theorem chainHeads_concat_none (reports : List (Option NodeEvidence)) :
    chainHeads (reports ++ [none]) = chainHeads reports := by
  rw [chainHeads, reportedHeads_concat_none, chainHeads]

@[simp] theorem getLast?_chainHeads (reports : List (Option NodeEvidence)) :
    (chainHeads reports).getLast? = (reportedHeads reports).getLast? :=
  getLast?_destutter_ne _

theorem chainHeads_concat_some (reports : List (Option NodeEvidence)) (e : NodeEvidence) :
    chainHeads (reports ++ [some e]) =
      if e.chainHeadHash = [] ∨ (chainHeads reports).getLast? = some e.chainHeadHash then
        chainHeads reports
      else chainHeads reports ++ [e.chainHeadHash] := by
  rw [chainHeads, reportedHeads_concat_some]
  by_cases hempty : e.chainHeadHash = []
  · rw [if_pos hempty, List.append_nil, if_pos (.inl hempty), chainHeads]
  · rw [if_neg hempty, destutter_ne_concat, ← chainHeads]
    simp only [hempty, false_or]

theorem truncated_concat {report : Option NodeEvidence} :
    Truncated (reports ++ [report]) ↔ Truncated reports ∨
      (∃ e, report = some e ∧ e.chainHeadHash = []) ∧ reportedHeads reports ≠ [] := by
  constructor
  · rintro ⟨i, j, hij, ⟨e, he, hhead⟩, e', he', hempty⟩
    obtain ⟨hj, -⟩ := List.getElem?_eq_some_iff.mp he'
    rw [List.length_append, List.length_singleton] at hj
    rw [List.getElem?_append_left (by omega)] at he
    rcases Nat.lt_succ_iff_lt_or_eq.mp hj with hlt | rfl
    · rw [List.getElem?_append_left hlt] at he'
      exact .inl ⟨i, j, hij, ⟨e, he, hhead⟩, e', he', hempty⟩
    · rw [List.getElem?_concat_length, Option.some_inj] at he'
      refine .inr ⟨⟨e', he', hempty⟩, List.ne_nil_of_mem (a := e.chainHeadHash) ?_⟩
      exact mem_reportedHeads.mpr ⟨hhead, e, List.mem_of_getElem? he, rfl⟩
  · rintro (⟨i, j, hij, ⟨e, he, hhead⟩, e', he', hempty⟩ | ⟨⟨e', rfl, hempty⟩, hheads⟩)
    · obtain ⟨hj, -⟩ := List.getElem?_eq_some_iff.mp he'
      refine ⟨i, j, hij, ⟨e, ?_, hhead⟩, e', ?_, hempty⟩
      · rw [List.getElem?_append_left (hij.trans hj), he]
      · rw [List.getElem?_append_left hj, he']
    · obtain ⟨head, hmem⟩ := List.exists_mem_of_ne_nil _ hheads
      obtain ⟨hne, e, he, rfl⟩ := mem_reportedHeads.mp hmem
      obtain ⟨i, hi⟩ := List.mem_iff_getElem?.mp he
      obtain ⟨hlt, -⟩ := List.getElem?_eq_some_iff.mp hi
      refine ⟨i, reports.length, hlt, ⟨e, ?_, hne⟩, e', List.getElem?_concat_length, hempty⟩
      rw [List.getElem?_append_left hlt, hi]

theorem repeatsWithin_chainHeads_concat {n : Nat} (h : RepeatsWithin n (chainHeads reports))
    (report : Option NodeEvidence) : RepeatsWithin n (chainHeads (reports ++ [report])) := by
  cases report with
  | none => rwa [chainHeads_concat_none]
  | some e =>
    rw [chainHeads_concat_some]
    split
    next => exact h
    next => exact repeatsWithin_concat.mpr (.inl h)

end Reports

/-! ## What the track knows -/

/-- A track knows the last heads of a device's chain, and whether the chain came back to a head or
became empty. -/
structure EvidenceTrack.Follows (reports : List (Option NodeEvidence)) (t : EvidenceTrack) :
    Prop where
  heads : t.recentHeads = (chainHeads reports).rtake evidenceHeadHistorySize
  regressed : t.headRegressed = true ↔ RepeatsWithin evidenceHeadHistorySize (chainHeads reports)
  truncated : t.truncationSuspected = true ↔ Truncated reports

namespace EvidenceTrack

variable {reports : List (Option NodeEvidence)} {t : EvidenceTrack}

theorem follows_empty (hnone : ∀ report ∈ reports, report = none) : empty.Follows reports := by
  have hheads : reportedHeads reports = [] := by
    refine List.eq_nil_iff_forall_not_mem.mpr fun head hmem => ?_
    obtain ⟨-, e, he, -⟩ := mem_reportedHeads.mp hmem
    cases hnone _ he
  have hchain : chainHeads reports = [] := by rw [chainHeads, hheads, List.destutter_nil]
  refine ⟨?_, ?_, ?_⟩
  · rw [hchain, List.rtake_nil, empty]
  · rw [hchain]
    exact iff_of_false Bool.false_ne_true not_repeatsWithin_nil
  · refine iff_of_false Bool.false_ne_true ?_
    rintro ⟨i, -, -, ⟨e, he, -⟩, -⟩
    cases hnone _ (List.mem_of_getElem? he)

theorem Follows.currentHead_eq (h : t.Follows reports) :
    t.currentHead = (reportedHeads reports).getLast?.getD [] := by
  rw [currentHead, h.heads, getLast?_rtake _ (by decide), getLast?_chainHeads]

theorem Follows.currentHead_eq_nil_iff (h : t.Follows reports) :
    t.currentHead = [] ↔ reportedHeads reports = [] := by
  rw [h.currentHead_eq]
  rcases hlast : (reportedHeads reports).getLast? with _ | head
  · simpa using hlast
  · have hmem := List.mem_of_getLast? hlast
    exact iff_of_false (ne_nil_of_mem_reportedHeads hmem) (List.ne_nil_of_mem hmem)

theorem Follows.eq_currentHead_iff (h : t.Follows reports) {head : Bytes} (hne : head ≠ []) :
    head = t.currentHead ↔ (chainHeads reports).getLast? = some head := by
  rw [h.currentHead_eq, getLast?_chainHeads]
  cases (reportedHeads reports).getLast? with
  | none => simp [hne]
  | some last => simp [eq_comm]

theorem Follows.missing (h : t.Follows reports) : t.Follows (reports ++ [none]) where
  heads := by rw [chainHeads_concat_none, h.heads]
  regressed := by rw [chainHeads_concat_none, h.regressed]
  truncated := by rw [truncated_concat, h.truncated]; simp

theorem Follows.observed_nil (h : t.Follows reports) {e : NodeEvidence}
    (hempty : e.chainHeadHash = []) : (t.observed e).Follows (reports ++ [some e]) := by
  have hchain : chainHeads (reports ++ [some e]) = chainHeads reports := by
    rw [chainHeads_concat_some, if_pos (.inl hempty)]
  have htruncated : Truncated (reports ++ [some e]) ↔ Truncated reports ∨ t.currentHead ≠ [] := by
    rw [truncated_concat, ne_eq, ne_eq, h.currentHead_eq_nil_iff]
    simp [hempty]
  rw [observed, if_pos hempty]
  split
  next hhead =>
    exact ⟨by rw [hchain, h.heads], by rw [hchain, h.regressed], by simp [htruncated, hhead]⟩
  next hhead =>
    refine ⟨by rw [hchain, h.heads], by rw [hchain, h.regressed], ?_⟩
    rw [htruncated, h.truncated, or_iff_left hhead]

/-- A head that the chain moves to is looked for among the last ones, and remembered. -/
theorem Follows.observed_cons (h : t.Follows reports) {e : NodeEvidence}
    (hne : e.chainHeadHash ≠ []) : (t.observed e).Follows (reports ++ [some e]) := by
  have htruncated : Truncated (reports ++ [some e]) ↔ Truncated reports := by
    rw [truncated_concat]
    simp [hne]
  rw [observed, if_neg hne]
  split
  next hmoved =>
    have hlast : (chainHeads reports).getLast? ≠ some e.chainHeadHash :=
      fun heq => hmoved ((h.eq_currentHead_iff hne).mpr heq)
    have hchain : chainHeads (reports ++ [some e]) = chainHeads reports ++ [e.chainHeadHash] := by
      rw [chainHeads_concat_some, if_neg (not_or.mpr ⟨hne, hlast⟩)]
    -- the newest head is not the one reported, so that it is seen before it or not at all
    have hsaw : t.sawHeadBeforeCurrent e.chainHeadHash = true ↔
        e.chainHeadHash ∈ (chainHeads reports).rtake evidenceHeadHistorySize := by
      rw [sawHeadBeforeCurrent, decide_eq_true_iff, h.heads, mem_dropLast_iff]
      rwa [getLast?_rtake _ (by decide)]
    have hheads : (t.recordHead e.chainHeadHash).recentHeads =
        (chainHeads (reports ++ [some e])).rtake evidenceHeadHistorySize := by
      rw [hchain, ← rtake_concat_rtake, ← h.heads]
      rfl
    have hregressed := hchain ▸ repeatsWithin_concat (n := evidenceHeadHistorySize)
      (l := chainHeads reports) (a := e.chainHeadHash)
    split
    next hseen =>
      exact ⟨hheads, iff_of_true rfl (hregressed.mpr (.inr (hsaw.mp hseen))),
        h.truncated.trans htruncated.symm⟩
    next hnew =>
      refine ⟨hheads, ?_, h.truncated.trans htruncated.symm⟩
      rw [hregressed, ← hsaw, or_iff_left hnew]
      exact h.regressed
  next hsame =>
    have hlast := (h.eq_currentHead_iff hne).mp (not_not.mp hsame)
    have hchain : chainHeads (reports ++ [some e]) = chainHeads reports := by
      rw [chainHeads_concat_some, if_pos (.inr hlast)]
    exact ⟨by rw [hchain, h.heads], by rw [hchain, h.regressed], h.truncated.trans htruncated.symm⟩

/-- **A heartbeat's evidence is followed.** -/
theorem Follows.observed (h : t.Follows reports) (e : NodeEvidence) :
    (t.observed e).Follows (reports ++ [some e]) := by
  by_cases hempty : e.chainHeadHash = []
  · exact h.observed_nil hempty
  · exact h.observed_cons hempty

end EvidenceTrack

/-! ## What a node shows -/

/-- What a call reports of a device: the evidence of a heartbeat of it, if it has some. -/
def RegistryCall.reportOf (device : Bytes) : RegistryCall → List (Option NodeEvidence)
  | .upsert heartbeat _ _ => if heartbeat.deviceID = device then [heartbeat.evidence] else []
  | .upsertPosture _ _ => []
  | .evict _ _ => []

namespace Registry

/-- One call, with what a device reported since it was registered. -/
def watchCall (device : Bytes) (w : Registry × List (Option NodeEvidence)) (call : RegistryCall) :
    Registry × List (Option NodeEvidence) :=
  let r := w.1.runCall call
  (r, if r.nodes.lookup device = none then [] else w.2 ++ call.reportOf device)

/-- What a device reported since it was registered, or registered again after its eviction. -/
def reportsSince (device : Bytes) (calls : List RegistryCall) : List (Option NodeEvidence) :=
  (calls.foldl (watchCall device) (newRegistry, [])).2

theorem foldl_watchCall_fst (device : Bytes) (calls : List RegistryCall) :
    (calls.foldl (watchCall device) (newRegistry, [])).1 = runCalls calls := by
  induction calls using List.reverseRecOn with
  | nil => rfl
  | append_singleton calls call ih =>
    rw [List.foldl_concat, runCalls_concat, ← ih]
    rfl

theorem reportsSince_concat (device : Bytes) (calls : List RegistryCall) (call : RegistryCall) :
    reportsSince device (calls ++ [call]) =
      if ((runCalls calls).runCall call).nodes.lookup device = none then []
      else reportsSince device calls ++ call.reportOf device := by
  rw [reportsSince, List.foldl_concat, ← foldl_watchCall_fst device calls]
  rfl

def flagsOf (e : NodeEvidence) : Bool × Bool := (e.truncationSuspected, e.headRegressed)

/-- What the registry keeps of a device's evidence: a track of it as soon as some was reported, and
the flags of the track on its node. -/
structure Follows (device : Bytes) (reports : List (Option NodeEvidence)) (r : Registry) :
    Prop where
  absent : r.nodes.lookup device = none → r.evidence.lookup device = none ∧ reports = []
  untracked : r.evidence.lookup device = none → ∀ report ∈ reports, report = none
  tracked : ∀ t, r.evidence.lookup device = some t → t.Follows reports
  shown : ∀ n, r.nodes.lookup device = some n →
    n.evidence.map flagsOf = (r.evidence.lookup device).map fun t =>
      (t.truncationSuspected, t.headRegressed)

variable {device : Bytes} {reports : List (Option NodeEvidence)} {r : Registry}

theorem follows_newRegistry : newRegistry.Follows device [] where
  absent := fun _ => ⟨Finmap.lookup_empty device, rfl⟩
  untracked := by simp
  tracked := by simp [newRegistry]
  shown := by simp [newRegistry]

theorem Follows.track (h : r.Follows device reports) :
    ((r.evidence.lookup device).getD .empty).Follows reports := by
  cases htrack : r.evidence.lookup device with
  | none => exact EvidenceTrack.follows_empty (h.untracked htrack)
  | some t => exact h.tracked t htrack

theorem Follows.upsert_self (h : r.Follows device reports) {heartbeat : NodeHeartbeat}
    (hdevice : heartbeat.deviceID = device) (wall mono : Int) :
    (r.upsert heartbeat wall mono).Follows device (reports ++ [heartbeat.evidence]) := by
  subst hdevice
  have hnode : (r.upsert heartbeat wall mono).nodes.lookup heartbeat.deviceID =
      some (r.stamped heartbeat wall mono) := by rw [lookup_upsert, if_pos rfl]
  have hevidence : (r.upsert heartbeat wall mono).evidence = (r.trackEvidence heartbeat).1 := rfl
  have hstamped : (r.stamped heartbeat wall mono).evidence = (r.trackEvidence heartbeat).2 := rfl
  cases hreported : heartbeat.evidence with
  | some e =>
    have htrack : (r.trackEvidence heartbeat).1.lookup heartbeat.deviceID =
        some (((r.evidence.lookup heartbeat.deviceID).getD .empty).observed e) := by
      simp only [trackEvidence, hreported]
      rw [Finmap.lookup_insert]
      rfl
    refine ⟨fun hnone => ?_, fun hnone => ?_, fun t ht => ?_, fun n hn => ?_⟩
    · rw [hnode] at hnone
      cases hnone
    · rw [hevidence, htrack] at hnone
      cases hnone
    · rw [hevidence, htrack] at ht
      cases ht
      exact h.track.observed e
    · rw [hnode] at hn
      cases hn
      rw [hevidence, htrack, hstamped]
      simp only [trackEvidence, hreported]
      rfl
  | none =>
    have hkeep : (r.trackEvidence heartbeat).1 = r.evidence := by
      simp only [trackEvidence, hreported]
      split <;> rfl
    refine ⟨fun hnone => ?_, fun hnone => ?_, fun t ht => ?_, fun n hn => ?_⟩
    · rw [hnode] at hnone
      cases hnone
    · rw [hevidence, hkeep] at hnone
      intro report hmem
      rcases List.mem_append.mp hmem with hmem | hmem
      · exact h.untracked hnone report hmem
      · exact List.mem_singleton.mp hmem
    · rw [hevidence, hkeep] at ht
      exact (h.tracked t ht).missing
    · rw [hnode] at hn
      cases hn
      rw [hevidence, hkeep, hstamped]
      simp only [trackEvidence, hreported]
      split
      next t ht => simp [ht, flagsOf, EvidenceTrack.observeMissing]
      next hnone => simp [hnone]

/-- What leaves a device's node with its evidence, and its track, keeps what the registry
follows. -/
theorem Follows.congr {r' : Registry} (h : r.Follows device reports)
    (hnodes : (r'.nodes.lookup device).map (·.evidence) = (r.nodes.lookup device).map (·.evidence))
    (hevidence : r'.evidence.lookup device = r.evidence.lookup device) :
    r'.Follows device reports where
  absent := by
    intro hnone
    rw [hnone, Option.map_none, eq_comm, Option.map_eq_none_iff] at hnodes
    rw [hevidence]
    exact h.absent hnodes
  untracked := by rw [hevidence]; exact h.untracked
  tracked := by rw [hevidence]; exact h.tracked
  shown := by
    intro n hn
    rw [hn, Option.map_some, eq_comm] at hnodes
    obtain ⟨m, hm, heq⟩ := Option.map_eq_some_iff.mp hnodes
    rw [hevidence, ← heq]
    exact h.shown m hm

theorem Follows.upsert_of_ne (h : r.Follows device reports) {heartbeat : NodeHeartbeat}
    (hne : heartbeat.deviceID ≠ device) (wall mono : Int) :
    (r.upsert heartbeat wall mono).Follows device reports := by
  refine h.congr ?_ ?_
  · rw [lookup_upsert, if_neg (Ne.symm hne)]
  · show (r.trackEvidence heartbeat).1.lookup device = _
    unfold trackEvidence
    split
    next => exact Finmap.lookup_insert_of_ne _ (Ne.symm hne)
    next => split <;> rfl

theorem Follows.upsertPosture (h : r.Follows device reports) (deviceID : Bytes)
    (posture : SiteNodePosture) : (r.upsertPosture deviceID posture).Follows device reports := by
  refine h.congr ?_ (by rw [upsertPosture_evidence])
  rw [lookup_upsertPosture]
  split
  · rw [Option.map_map]
    rfl
  · rfl

theorem Follows.evict (h : r.Follows device reports) (ttl now : Int) :
    let r' := (r.evictStaleRetainingCritical ttl now).registry
    r'.Follows device (if r'.nodes.lookup device = none then [] else reports) := by
  intro r'
  have hlookup : r'.nodes.lookup device =
      (r.nodes.lookup device).filter fun heartbeat => !evicts now ttl heartbeat :=
    lookup_evictStaleRetainingCritical r ttl now device
  have hevidence := lookup_evidence_evict r ttl now device
  cases hnode : r.nodes.lookup device with
  | none =>
    obtain ⟨htrack, hreports⟩ := h.absent hnode
    subst hreports
    rw [ite_self]
    refine h.congr ?_ ?_
    · rw [hlookup, hnode]
      rfl
    · rw [hevidence, hnode]
      rfl
  | some n =>
    rw [hnode] at hlookup hevidence
    cases hevicts : evicts now ttl n with
    | true =>
      have hgone : r'.nodes.lookup device = none := by simp [hlookup, hevicts, Option.filter]
      have hforgot : r'.evidence.lookup device = none := by
        rw [show r'.evidence.lookup device = _ from hevidence]
        simp [hevicts]
      rw [if_pos hgone]
      exact ⟨fun _ => ⟨hforgot, rfl⟩, by simp, by simp [hforgot], by simp [hgone]⟩
    | false =>
      have hkept : r'.nodes.lookup device = some n := by simp [hlookup, hevicts, Option.filter]
      rw [if_neg (by simp [hkept])]
      refine h.congr (by rw [hkept, hnode]) ?_
      rw [show r'.evidence.lookup device = _ from hevidence]
      simp [hevicts]

/-- **The registry follows what every device reported**, over every history of calls. -/
theorem follows_runCalls (device : Bytes) (calls : List RegistryCall) :
    (runCalls calls).Follows device (reportsSince device calls) := by
  induction calls using List.reverseRecOn with
  | nil => exact follows_newRegistry
  | append_singleton calls call ih =>
    rw [reportsSince_concat, runCalls_concat]
    cases call with
    | upsert heartbeat wall mono =>
      by_cases hdevice : heartbeat.deviceID = device
      · have hnode : ((runCalls calls).upsert heartbeat wall mono).nodes.lookup device ≠ none := by
          rw [lookup_upsert, if_pos hdevice.symm]
          exact Option.some_ne_none _
        rw [runCall, if_neg hnode, RegistryCall.reportOf, if_pos hdevice]
        exact ih.upsert_self hdevice wall mono
      · have hafter := ih.upsert_of_ne hdevice wall mono
        rw [runCall, RegistryCall.reportOf, if_neg hdevice, List.append_nil]
        split
        next hnone => rwa [← (hafter.absent hnone).2]
        next => exact hafter
    | upsertPosture deviceID posture =>
      have hafter := ih.upsertPosture deviceID posture
      rw [runCall, RegistryCall.reportOf, List.append_nil]
      split
      next hnone => rwa [← (hafter.absent hnone).2]
      next => exact hafter
    | evict ttl now =>
      rw [runCall, RegistryCall.reportOf, List.append_nil]
      exact ih.evict ttl now

/-- What came back, or became empty, since a device was registered stays so while it is. -/
theorem reports_kept {P : List (Option NodeEvidence) → Prop}
    (hkeep : ∀ reports report, P reports → P (reports ++ [report])) {calls more : List RegistryCall}
    (hregistered : ∀ before, before <+: more →
      (runCalls (calls ++ before)).nodes.lookup device ≠ none)
    (h : P (reportsSince device calls)) : P (reportsSince device (calls ++ more)) := by
  induction more using List.reverseRecOn with
  | nil => rwa [List.append_nil]
  | append_singleton more call ih =>
    have hlast := hregistered _ (List.prefix_refl _)
    have hfront := ih fun before hbefore =>
      hregistered before (hbefore.trans (List.prefix_append ..))
    rw [← List.append_assoc, runCalls_concat] at hlast
    rw [← List.append_assoc, reportsSince_concat, if_neg hlast]
    cases call with
    | upsert heartbeat wall mono =>
      rw [RegistryCall.reportOf]
      split
      next => exact hkeep _ _ hfront
      next => rwa [List.append_nil]
    | upsertPosture deviceID posture => rwa [RegistryCall.reportOf, List.append_nil]
    | evict ttl now => rwa [RegistryCall.reportOf, List.append_nil]

end Registry

def NodeHeartbeat.HeadRegressed (n : NodeHeartbeat) : Prop :=
  ∃ e, n.evidence = some e ∧ e.headRegressed = true

def NodeHeartbeat.TruncationSuspected (n : NodeHeartbeat) : Prop :=
  ∃ e, n.evidence = some e ∧ e.truncationSuspected = true

namespace Registry

variable {device : Bytes} {reports : List (Option NodeEvidence)} {r : Registry} {n : NodeHeartbeat}

theorem Follows.exists_track (h : r.Follows device reports)
    (hnode : r.nodes.lookup device = some n) :
    ∃ t : EvidenceTrack, t.Follows reports ∧ (n.HeadRegressed ↔ t.headRegressed = true) ∧
      (n.TruncationSuspected ↔ t.truncationSuspected = true) := by
  have hshown := h.shown n hnode
  cases htrack : r.evidence.lookup device with
  | none =>
    rw [htrack, Option.map_none, Option.map_eq_none_iff] at hshown
    refine ⟨.empty, EvidenceTrack.follows_empty (h.untracked htrack), ?_⟩
    simp [NodeHeartbeat.HeadRegressed, NodeHeartbeat.TruncationSuspected, hshown,
      EvidenceTrack.empty]
  | some t =>
    rw [htrack, Option.map_some] at hshown
    obtain ⟨e, he, hflags⟩ := Option.map_eq_some_iff.mp hshown
    obtain ⟨htruncated, hregressed⟩ := Prod.mk.injEq .. ▸ hflags
    refine ⟨t, h.tracked t htrack, ?_, ?_⟩
    · rw [← hregressed]
      simp [NodeHeartbeat.HeadRegressed, he]
    · rw [← htruncated]
      simp [NodeHeartbeat.TruncationSuspected, he]

theorem Follows.headRegressed_iff (h : r.Follows device reports)
    (hnode : r.nodes.lookup device = some n) :
    n.HeadRegressed ↔ RepeatsWithin evidenceHeadHistorySize (chainHeads reports) := by
  obtain ⟨t, ht, hregressed, -⟩ := h.exists_track hnode
  rw [hregressed, ht.regressed]

theorem Follows.truncationSuspected_iff (h : r.Follows device reports)
    (hnode : r.nodes.lookup device = some n) : n.TruncationSuspected ↔ Truncated reports := by
  obtain ⟨t, ht, -, htruncated⟩ := h.exists_track hnode
  rw [htruncated, ht.truncated]

/-- A heartbeat without evidence, of a device that has shown some, shows its last head. -/
theorem Follows.stamped_missing (h : r.Follows device reports) {heartbeat : NodeHeartbeat}
    (hdevice : heartbeat.deviceID = device) (hnone : heartbeat.evidence = none)
    (hseen : ∃ e, some e ∈ reports) (wall mono : Int) :
    ∃ e, (r.stamped heartbeat wall mono).evidence = some e ∧
      e.chainHeadHash = (reportedHeads reports).getLast?.getD [] ∧ e.available = false := by
  cases htrack : r.evidence.lookup device with
  | none =>
    obtain ⟨e, he⟩ := hseen
    cases h.untracked htrack _ he
  | some t =>
    refine ⟨t.observeMissing, ?_, (h.tracked t htrack).currentHead_eq, rfl⟩
    rw [← hdevice] at htrack
    show (r.trackEvidence heartbeat).2 = _
    simp only [trackEvidence, hnone]
    rw [htrack]

end Registry

/-- **What a node shows of its evidence chain.** After every history of calls, a node shows that its
chain was rolled back exactly when, among the heads that its device's chain moved through since it
was registered, one came back within sixteen, and that its chain was reset exactly when it was
reported empty after it had a head; both stay shown until the node is evicted; and a heartbeat
without evidence, of a device that reported some, shows the last head as not available and sets
neither. -/
theorem evidence_flags_follow_chain (calls : List RegistryCall) (device : Bytes) :
    let reports := Registry.reportsSince device calls
    (∀ n, (Registry.runCalls calls).nodes.lookup device = some n →
      (n.HeadRegressed ↔ RepeatsWithin 16 (chainHeads reports)) ∧
      (n.TruncationSuspected ↔ Truncated reports)) ∧
    (∀ n more n', (Registry.runCalls calls).nodes.lookup device = some n →
      (∀ before, before <+: more →
        (Registry.runCalls (calls ++ before)).nodes.lookup device ≠ none) →
      (Registry.runCalls (calls ++ more)).nodes.lookup device = some n' →
      (n.HeadRegressed → n'.HeadRegressed) ∧ (n.TruncationSuspected → n'.TruncationSuspected)) ∧
    ∀ heartbeat wall mono, heartbeat.deviceID = device → heartbeat.evidence = none →
      (∃ e, some e ∈ reports) →
      ∃ n e, (Registry.runCalls (calls ++ [.upsert heartbeat wall mono])).nodes.lookup device
        = some n ∧
        n.evidence = some e ∧ e.chainHeadHash = (reportedHeads reports).getLast?.getD [] ∧
        e.available = false ∧ (n.HeadRegressed ↔ RepeatsWithin 16 (chainHeads reports)) ∧
        (n.TruncationSuspected ↔ Truncated reports) := by
  have hfollows := Registry.follows_runCalls device
  refine ⟨fun n hn =>
    ⟨(hfollows calls).headRegressed_iff hn, (hfollows calls).truncationSuspected_iff hn⟩,
    fun n more n' hn hregistered hn' => ⟨fun hflag => ?_, fun hflag => ?_⟩, ?_⟩
  · rw [(hfollows calls).headRegressed_iff hn] at hflag
    rw [(hfollows _).headRegressed_iff hn']
    exact Registry.reports_kept (P := fun reports => RepeatsWithin 16 (chainHeads reports))
      (fun _ report h => repeatsWithin_chainHeads_concat h report) hregistered hflag
  · rw [(hfollows calls).truncationSuspected_iff hn] at hflag
    rw [(hfollows _).truncationSuspected_iff hn']
    exact Registry.reports_kept (fun _ _ h => truncated_concat.mpr (.inl h)) hregistered hflag
  · intro heartbeat wall mono hdevice hnone hseen
    have hnode : (Registry.runCalls (calls ++ [.upsert heartbeat wall mono])).nodes.lookup device =
        some ((Registry.runCalls calls).stamped heartbeat wall mono) := by
      rw [Registry.runCalls_concat, Registry.runCall, Registry.lookup_upsert, if_pos hdevice.symm]
    have hafter := (hfollows calls).upsert_self hdevice wall mono
    rw [hnone] at hafter
    rw [Registry.runCalls_concat, Registry.runCall] at hnode
    obtain ⟨e, he, hhead, havailable⟩ :=
      (hfollows calls).stamped_missing hdevice hnone hseen wall mono
    refine ⟨_, e, by rw [Registry.runCalls_concat]; exact hnode, he, hhead, havailable, ?_, ?_⟩
    · rw [hafter.headRegressed_iff hnode, chainHeads_concat_none]
      rfl
    · rw [hafter.truncationSuspected_iff hnode, truncated_concat]
      simp

def headHeartbeat (head : Bytes) : NodeHeartbeat where
  deviceID := ascii "dev"
  status := nodeStatusHealthy
  lastSeenMS := 0
  gatewaySeen := 0
  activeTriggers := none
  degradationReasons := none
  posture := none
  evidence := some ⟨head, 0, true, [], false, false⟩
  exportSeverity := []
  receivedMono := 0
  advancedMono := 0

def rolledBack : List RegistryCall :=
  [ascii "a", ascii "b", ascii "a"].map fun head => .upsert (headHeartbeat head) 0 0

/-- The rolled back chain is shown. -/
theorem evidence_flags_follow_chain_rolledBack :
    ∃ n, (Registry.runCalls rolledBack).nodes.lookup (ascii "dev") = some n ∧ n.HeadRegressed ∧
      RepeatsWithin 16 (chainHeads (Registry.reportsSince (ascii "dev") rolledBack)) := by
  obtain ⟨n, hn, hshown⟩ := Option.map_eq_some_iff.mp
    (by decide +kernel : ((Registry.runCalls rolledBack).nodes.lookup (ascii "dev")).map
      (fun n => n.evidence.map (·.headRegressed)) = some (some true))
  have hflag : n.HeadRegressed := Option.map_eq_some_iff.mp hshown
  exact ⟨n, hn, hflag, ((evidence_flags_follow_chain rolledBack (ascii "dev")).1 n hn).1.mp hflag⟩

end OriGateway
