import OriGateway.Config.Evidence
import OriGateway.Foundation.Paths

/-! # The directories of the gateway

The gateway keeps its own state in one directory and each evidence queue in another. A queue refuses
to open over an entry it did not write, so a directory must not hold another store.
`loadDirectories` is what the loader requires of the three. It compares the state with each queue by
`pathsOverlap`, which on clean absolute paths is a comparison of whole names (`pathsOverlap_clean`),
and the two queues only for being equal; so the three are apart exactly when the queues do not
overlap (`directories_apart`). -/

namespace OriGateway

open Foundation Foundation.Path

/-- A clean path is a directory or inside it. -/
def pathWithin (a dir : Bytes) : Bool :=
  if a = dir then true
  else (if [47].isSuffixOf dir then dir else dir ++ [47]).isPrefixOf a

/-- One clean path is the other or inside it. -/
def pathsOverlap (a b : Bytes) : Bool := pathWithin a b || pathWithin b a

/-- What the loader reads of a file for its directories. -/
structure FileDirectories where
  stateDirectory : Bytes
  authEnabled : Bool
  deviceIDs : List Bytes
  evidence : FileEvidenceConfig

/-- The directories and what uses them, as loaded. -/
structure DirectoriesConfig where
  stateDirectory : Bytes
  evidence : EvidenceConfig
  deriving DecidableEq

/-- Why the loader refuses a file for its directories. -/
inductive DirectoriesError where
  /-- "gateway.state_directory is required when gateway.auth.enabled is true". -/
  | stateRequired
  /-- "gateway.state_directory must be an absolute path". -/
  | stateRelative
  | evidence (e : EvidenceConfigError)
  /-- "gateway.state_directory must be separate from the evidence queue directories". -/
  | stateNotSeparate
  deriving DecidableEq

/-- The state directory is apart from each queue directory there is. -/
def validateStateDirectory (cfg : DirectoriesConfig) : Except DirectoriesError Unit :=
  if cfg.stateDirectory = [] ∨ cfg.evidence.enabled = false then .ok ()
  else if [cfg.evidence.queueDirectory, cfg.evidence.returnQueueDirectory].any fun queue =>
      queue != [] && pathsOverlap (clean cfg.stateDirectory) (clean queue) then
        .error .stateNotSeparate
  else .ok ()

/-- **Load the directories**: that of the state, then the evidence section, then the one against the
other. -/
def loadDirectories (file : FileDirectories) : Except DirectoriesError DirectoriesConfig :=
  let state := trimSpace file.stateDirectory
  if file.authEnabled = true ∧ state = [] then .error .stateRequired
  else if state ≠ [] ∧ isAbs state = false then .error .stateRelative
  else
    match loadEvidence file.evidence file.deviceIDs with
    | .error e => .error (.evidence e)
    | .ok evidence => (validateStateDirectory ⟨state, evidence⟩).map fun _ => ⟨state, evidence⟩

/-! ## The comparison -/

/-- Under a trailing slash lie the paths that go through the directory's names and on. -/
theorem components_prefix_of_slash {dir a : Bytes}
    (h : (if [47].isSuffixOf dir then dir else dir ++ [47]).isPrefixOf a) :
    components dir <+: components a := by
  obtain ⟨tail, rfl⟩ := List.isPrefixOf_iff_prefix.mp h
  split_ifs with hslash
  · obtain ⟨front, rfl⟩ := List.isSuffixOf_iff_suffix.mp hslash
    rw [components_append, List.append_assoc, List.singleton_append, components_append]
    exact ⟨components tail, by simp [components, splitSlash]⟩
  · rw [List.append_assoc, List.singleton_append, components_append]
    exact List.prefix_append _ _

/-- **On clean absolute paths the comparison is one of whole names.** -/
theorem pathWithin_clean {a dir : Bytes} (ha : isAbs a = true) (hdir : isAbs dir = true) :
    pathWithin (clean a) (clean dir) = true ↔ components (clean dir) <+: components (clean a) := by
  have ha := fromRoot_components_clean (beq_iff_eq.mp ha)
  have hdir := fromRoot_components_clean (beq_iff_eq.mp hdir)
  by_cases heq : clean a = clean dir
  · rw [pathWithin, if_pos heq, heq]
    exact ⟨fun _ => List.prefix_rfl, fun _ => rfl⟩
  rw [pathWithin, if_neg heq]
  refine ⟨components_prefix_of_slash, ?_⟩
  rintro ⟨rest, hrest⟩
  -- a path with more names goes on with a slash where the directory's ends
  have hne : rest ≠ [] := by
    rintro rfl
    rw [List.append_nil] at hrest
    exact heq (by rw [← ha, ← hrest, hdir])
  obtain ⟨tail, htail⟩ := fromRoot_append (components (clean dir)) hne
  rw [hrest, ha] at htail
  rw [htail, List.isPrefixOf_iff_prefix]
  by_cases hroot : components (clean dir) = []
  · rw [hroot] at hdir ⊢
    rw [← hdir]
    exact ⟨tail, rfl⟩
  · rw [fromRoot, if_neg hroot] at hdir
    rw [hdir]
    split_ifs
    · exact ⟨47 :: tail, rfl⟩
    · exact ⟨tail, by rw [List.append_assoc, List.singleton_append]⟩

theorem pathsOverlap_clean {a b : Bytes} (ha : isAbs a = true) (hb : isAbs b = true) :
    pathsOverlap (clean a) (clean b) = false ↔ Apart (clean a) (clean b) := by
  rw [pathsOverlap, Bool.or_eq_false_iff, ← Bool.not_eq_true, ← Bool.not_eq_true,
    pathWithin_clean ha hb, pathWithin_clean hb ha]
  exact and_comm

/-! ## What is loaded -/

theorem loadDirectories_inv {file : FileDirectories} {cfg : DirectoriesConfig}
    (h : loadDirectories file = .ok cfg) :
    (cfg.stateDirectory ≠ [] → isAbs cfg.stateDirectory = true) ∧
      loadEvidence file.evidence file.deviceIDs = .ok cfg.evidence ∧
      validateStateDirectory cfg = .ok () := by
  unfold loadDirectories at h
  dsimp only at h
  split_ifs at h with hrequired hrelative
  split at h
  · cases h
  · next evidence hevidence =>
    cases hstate : validateStateDirectory ⟨trimSpace file.stateDirectory, evidence⟩ with
    | error e =>
      rw [hstate] at h
      cases h
    | ok u =>
      rw [hstate] at h
      cases h
      exact ⟨by simpa using hrelative, hevidence, hstate⟩

theorem stateDirectory_apart {cfg : DirectoriesConfig} (h : validateStateDirectory cfg = .ok ())
    (hset : cfg.stateDirectory ≠ []) (henabled : cfg.evidence.enabled = true)
    (hstate : isAbs cfg.stateDirectory = true) {queue : Bytes} (habs : isAbs queue = true)
    (hqueue : queue = cfg.evidence.queueDirectory ∨ queue = cfg.evidence.returnQueueDirectory) :
    Apart (clean cfg.stateDirectory) (clean queue) := by
  rw [← pathsOverlap_clean hstate habs]
  have hne : queue ≠ [] := by
    rintro rfl
    exact nomatch habs
  unfold validateStateDirectory at h
  split_ifs at h with hskipped hoverlaps
  · rw [henabled] at hskipped
    exact absurd hskipped (by simp [hset])
  · simp only [List.any_cons, List.any_nil, Bool.or_false, Bool.or_eq_true, not_or,
      Bool.not_eq_true, Bool.and_eq_false_imp, bne_iff_ne] at hoverlaps
    rcases hqueue with rfl | rfl
    · exact hoverlaps.1 hne
    · exact hoverlaps.2 hne

/-- **Two directories of one configuration**: neither is the other or inside it, and no entry of the
first leads to a file of the second. -/
def SeparateStores (queue other : Bytes) : Prop :=
  Apart (clean queue) (clean other) ∧
    ∀ name file, ¬ components (clean queue) ++ [name] <+: components (clean other) ++ [file]

theorem separateStores {queue other : Bytes} (h : Apart (clean queue) (clean other)) :
    SeparateStores queue other := ⟨h, h.no_entry⟩

/-- **When the directories of an accepted configuration are apart**: exactly when neither queue's is
the other's or inside it. -/
theorem directories_apart {file : FileDirectories} {cfg : DirectoriesConfig}
    (h : loadDirectories file = .ok cfg) (henabled : cfg.evidence.enabled = true) :
    (SeparateStores cfg.evidence.queueDirectory cfg.evidence.returnQueueDirectory ∧
      SeparateStores cfg.evidence.returnQueueDirectory cfg.evidence.queueDirectory ∧
      (cfg.stateDirectory ≠ [] →
        SeparateStores cfg.evidence.queueDirectory cfg.stateDirectory ∧
          SeparateStores cfg.evidence.returnQueueDirectory cfg.stateDirectory)) ↔
      pathsOverlap (clean cfg.evidence.queueDirectory) (clean cfg.evidence.returnQueueDirectory)
        = false := by
  obtain ⟨hstate, hevidence, hvalid⟩ := loadDirectories_inv h
  obtain ⟨⟨hqueue, hreturn⟩, _, ⟨carriage, heq⟩, _⟩ := validateEvidence_inv hevidence henabled
  have hqueue : isAbs cfg.evidence.queueDirectory = true := by rw [heq]; exact hqueue
  have hreturn : isAbs cfg.evidence.returnQueueDirectory = true := by rw [heq]; exact hreturn
  rw [pathsOverlap_clean hqueue hreturn]
  refine ⟨fun hseparate => hseparate.1.1, fun hqueues =>
    ⟨separateStores hqueues, separateStores hqueues.symm, fun hset => ⟨?_, ?_⟩⟩⟩
  · exact separateStores
      (stateDirectory_apart hvalid hset henabled (hstate hset) hqueue (.inl rfl)).symm
  · exact separateStores
      (stateDirectory_apart hvalid hset henabled (hstate hset) hreturn (.inr rfl)).symm

/-- A file with the state under one directory and the queues where it is told. -/
def queuesAt (queue returns : Bytes) : FileDirectories where
  stateDirectory := ascii "/s"
  authEnabled := true
  deviceIDs := [ascii "d"]
  evidence := { plainEvidenceFile 5 with queueDirectory := queue, returnQueueDirectory := returns }

/-- Queues side by side are apart from each other and from the state. -/
theorem directories_apart_siblings :
    ∃ cfg, loadDirectories (queuesAt (ascii "/e/a") (ascii "/e/ab")) = .ok cfg ∧
      SeparateStores cfg.evidence.queueDirectory cfg.evidence.returnQueueDirectory ∧
      SeparateStores cfg.evidence.queueDirectory cfg.stateDirectory := by
  have hload : ∃ cfg, loadDirectories (queuesAt (ascii "/e/a") (ascii "/e/ab")) = .ok cfg ∧
      cfg.evidence.enabled = true ∧ cfg.stateDirectory ≠ [] ∧
      pathsOverlap (clean cfg.evidence.queueDirectory) (clean cfg.evidence.returnQueueDirectory)
        = false :=
    ⟨_, rfl, by decide, by decide, by decide⟩
  obtain ⟨cfg, hload, henabled, hset, hnested⟩ := hload
  have happart := (directories_apart hload henabled).mpr hnested
  exact ⟨cfg, hload, happart.1, (happart.2.2 hset).1⟩

/-- The loader accepts a return queue inside the outbound queue: the directory of the one is an
entry of the other. -/
theorem nested_queues_accepted :
    ∃ cfg, loadDirectories (queuesAt (ascii "/a") (ascii "/a/b")) = .ok cfg ∧
    cfg.evidence.enabled = true ∧
      components (clean cfg.evidence.returnQueueDirectory) =
        components (clean cfg.evidence.queueDirectory) ++ [ascii "b"] ∧
      ¬ Apart (clean cfg.evidence.queueDirectory) (clean cfg.evidence.returnQueueDirectory) := by
  refine ⟨_, rfl, by decide, by decide, ?_⟩
  exact fun happart => happart.1 (by decide)

end OriGateway
