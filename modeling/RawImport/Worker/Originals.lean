import Mathlib.Data.Set.Basic
import RawImport.Worker.Machine

/-!
# Originals

Every content that was ever in `watch_dir` should stay stored below
`watch_dir` or `archive_dir`.  A pass builds its three destinations from the
bare file name and `move_file` replaces what is there, so whether a content
survives depends on the history of names.  The history of a run is the set of
contents seen in `watch_dir` so far.
-/

namespace RawImport

namespace Worker

open PathText Transition

/-- A path below `watch_dir` or `archive_dir`. -/
def Guarded (cfg : Config) (path : Path) : Prop :=
  Inside cfg.watchDir path ∨ Inside cfg.archiveDir path

instance (cfg : Config) (path : Path) : Decidable (Guarded cfg path) :=
  inferInstanceAs (Decidable (_ ∨ _))

/-- The content is stored in full below one of the two directories. -/
def Stored (cfg : Config) (fs : Fs) (bytes : Bytes) : Prop :=
  ∃ path, Guarded cfg path ∧ fs.bytesAt path = some bytes

/-- The content is stored at another path than `target`. -/
def StoredElsewhere (cfg : Config) (fs : Fs) (target : Path)
    (bytes : Bytes) : Prop :=
  ∃ path, path ≠ target ∧ Guarded cfg path ∧ fs.bytesAt path = some bytes

/-- The contents of `watch_dir`. -/
def watched (cfg : Config) (fs : Fs) : Set Bytes :=
  fun bytes => ∃ path, Inside cfg.watchDir path ∧
    fs.bytesAt path = some bytes

namespace ProcessFile

/-- The file-system calls of the stage succeed. -/
def Event.Succeeds : Event → Prop
  | .fingerprint statted opened => statted = true ∧ opened = true
  | .hash opened => opened = true
  | .move outcome => outcome.Ok
  | _ => True

instance : (event : Event) → Decidable event.Succeeds
  | .fingerprint _ _ => inferInstanceAs (Decidable (_ ∧ _))
  | .hash _ => inferInstanceAs (Decidable (_ = _))
  | .move outcome => inferInstanceAs (Decidable outcome.Ok)
  | .go | .lookup _ | .exif _ | .allocate _ | .convert _ _ | .insert _ _
  | .thumbnail _ | .alert _ => instDecidableTrue

/-- The path a stage puts a file on, with the bytes it puts there. -/
def written (cfg : Config) (path : Path) (fs : Fs) :
    Stage → Event → Option (Path × Bytes)
  | .moveDuplicate, .move _ =>
      (fs.bytesAt path).map fun bytes => (duplicatePath cfg path, bytes)
  | .archive record, .move _ =>
      (fs.bytesAt path).map fun bytes =>
        (archivePath cfg record.folderSchema path, bytes)
  | .moveDead _ newRetry, .move _ =>
      (fs.bytesAt path).map fun bytes => (deadPath cfg path newRetry, bytes)
  | .convert job, .convert _ output =>
      output.map fun file => (job.dst, file.bytes)
  | .thumbnail record, .thumbnail output =>
      output.map fun file =>
        (thumbnailPath cfg record.folderSchema record.sequenceName,
          file.bytes)
  | _, _ => none

/-- What a stage whose calls succeed does to the files: nothing, a file
written by a tool, or a move below `archive_dir`. -/
inductive Effect (cfg : Config) (path : Path) (fs : Fs) :
    Option (Path × Bytes) → Fs → Prop where
  | idle : Effect cfg path fs none fs
  | tool (target : Path) (file : File) :
      Effect cfg path fs (some (target, file.bytes)) (fs.write target file)
  | move (target : Path) (file : File)
      (archived : Inside cfg.archiveDir target)
      (source : fs.bytesAt path = some file.bytes) :
      Effect cfg path fs (some (target, file.bytes))
        ((fs.remove path).write target file)

theorem inside_duplicatePath (cfg : Config) (path : Path) :
    Inside cfg.archiveDir (duplicatePath cfg path) := by
  unfold duplicatePath
  rw [String.append_assoc, String.append_assoc]
  exact inside_separated _ _

theorem inside_archivePath (cfg : Config) (folder : String) (path : Path) :
    Inside cfg.archiveDir (archivePath cfg folder path) := by
  unfold archivePath
  rw [String.append_assoc, String.append_assoc]
  exact inside_separated _ _

theorem inside_deadPath (cfg : Config) (path : Path) (newRetry : Int) :
    Inside cfg.archiveDir (deadPath cfg path newRetry) := by
  unfold deadPath
  rw [String.append_assoc, String.append_assoc]
  exact inside_separated _ _

section Effects

variable {platform : Platform} {cfg : Config} {path : Path}
  {shared after : Shared} {stage stage' : Stage} {event : Event}

theorem effect_produce (fs : Fs) (target : Path) (output : Option File) :
    Effect cfg path fs
      (output.map fun file => (target, file.bytes))
      (produce fs target output) := by
  cases output with
  | none => exact .idle
  | some file => exact .tool target file

theorem effect_move {fs next : Fs} {target : Path} {outcome : MoveOutcome}
    {moved : Bool} (archived : Inside cfg.archiveDir target)
    (ok : outcome.Ok)
    (call : moveFile fs path target outcome = some (next, moved)) :
    Effect cfg path fs
      ((fs.bytesAt path).map fun bytes => (target, bytes)) next := by
  obtain ⟨file, present, rfl, -⟩ := moveFile_ok ok call
  have source : fs.bytesAt path = some (outcome.arriving file).bytes := by
    simp [Fs.bytesAt, present]
  rw [source]
  exact .move target (outcome.arriving file) archived source

theorem Step.effect
    (step : Step platform cfg path shared stage event after stage')
    (succeeds : event.Succeeds) :
    Effect cfg path shared.fs (written cfg path shared.fs stage event)
      after.fs := by
  cases step with
  | moveDuplicate call =>
      exact effect_move (inside_duplicatePath cfg path) succeeds call
  | archive call =>
      exact effect_move (inside_archivePath cfg _ path) succeeds call
  | moveDead call =>
      exact effect_move (inside_deadPath cfg path _) succeeds call
  | converted => exact effect_produce _ _ _
  | conversionFailed => exact effect_produce _ _ _
  | thumbnail => exact effect_produce _ _ _
  | _ => exact .idle

end Effects

theorem Effect.of_none {cfg : Config} {path : Path} {fs next : Fs}
    (effect : Effect cfg path fs none next) : next = fs := by
  cases effect
  rfl

/-- After a write a content is stored if it came with the write or is stored
away from its target. -/
theorem Effect.stored {cfg : Config} {path target : Path} {fs next : Fs}
    {incoming old : Bytes}
    (effect : Effect cfg path fs (some (target, incoming)) next)
    (kept : (Guarded cfg target ∧ old = incoming) ∨
      StoredElsewhere cfg fs target old) : Stored cfg next old := by
  cases effect with
  | tool target file =>
      rcases kept with ⟨guarded, rfl⟩ | ⟨other, away, guarded, holds⟩
      · exact ⟨target, guarded, by simp [Fs.bytesAt]⟩
      · exact ⟨other, guarded, by
          rwa [Fs.bytesAt, Fs.write_other _ _ away]⟩
  | move target file archived source =>
      rcases kept with ⟨guarded, rfl⟩ | ⟨other, away, guarded, holds⟩
      · exact ⟨target, guarded, by simp [Fs.bytesAt]⟩
      · by_cases moved : other = path
        · subst moved
          rw [source] at holds
          cases holds
          exact ⟨target, .inr archived, by simp [Fs.bytesAt]⟩
        · exact ⟨other, guarded, by
            rwa [Fs.bytesAt, Fs.write_other _ _ away,
              Fs.remove_other _ moved]⟩

theorem Effect.of_stored {cfg : Config} {path target : Path} {fs next : Fs}
    {incoming old : Bytes}
    (effect : Effect cfg path fs (some (target, incoming)) next)
    (stored : Stored cfg next old) :
    old = incoming ∨ StoredElsewhere cfg fs target old := by
  obtain ⟨other, guarded, holds⟩ := stored
  cases effect with
  | tool target file =>
      by_cases same : other = target
      · subst same
        simp only [Fs.bytesAt, Fs.write_same, Option.map_some,
          Option.some.injEq] at holds
        exact .inl holds.symm
      · rw [Fs.bytesAt, Fs.write_other _ _ same] at holds
        exact .inr ⟨other, same, guarded, holds⟩
  | move target file archived source =>
      by_cases same : other = target
      · subst same
        simp only [Fs.bytesAt, Fs.write_same, Option.map_some,
          Option.some.injEq] at holds
        exact .inl holds.symm
      · rw [Fs.bytesAt, Fs.write_other _ _ same] at holds
        by_cases moved : other = path
        · subst moved
          simp at holds
        · rw [Fs.remove_other _ moved] at holds
          exact .inr ⟨other, same, guarded, holds⟩

/-- A path that exists after the stage existed before or was written. -/
theorem Effect.present {cfg : Config} {path other : Path} {fs next : Fs}
    {write : Option (Path × Bytes)} (effect : Effect cfg path fs write next)
    (present : next other ≠ none) :
    fs other ≠ none ∨ other ∈ write.toList.map Prod.fst := by
  cases effect with
  | idle => exact .inl present
  | tool target file =>
      by_cases same : other = target
      · exact .inr (by simp [same])
      · rw [Fs.write_other _ _ same] at present
        exact .inl present
  | move target file archived source =>
      by_cases same : other = target
      · exact .inr (by simp [same])
      · rw [Fs.write_other _ _ same] at present
        by_cases moved : other = path
        · subst moved
          simp at present
        · rw [Fs.remove_other _ moved] at present
          exact .inl present

end ProcessFile

/-- A run with the contents that were in `watch_dir` at some time. -/
structure History (n : Nat) where
  world : World n
  arrived : Set Bytes

section History

variable {n : Nat}

def History.initial (cfg : Config) (clock wall : Int) (fs : Fs) (db : Db) :
    History n :=
  { world := World.initial clock wall fs db, arrived := watched cfg fs }

def observe (platform : Platform) (cfg : Config) (history : History n)
    (action : Action n) : Option (History n) :=
  (step platform cfg history.world action).map fun world =>
    { world := world
      arrived := history.arrived ∪ watched cfg world.shared.fs }

/-- Every content that arrived is still stored. -/
def NoOriginalLost (cfg : Config) (history : History n) : Prop :=
  ∀ bytes ∈ history.arrived, Stored cfg history.world.shared.fs bytes

/-- Files arrive in `watch_dir` at free names, everything outside the two
directories may change, and the file-system calls of the passes succeed. -/
def Arrivals (cfg : Config) (history : History n) : Action n → Prop
  | .external path file =>
      (Inside cfg.watchDir path ∧ history.world.shared.fs path = none ∧
        file.isSome) ∨ ¬Guarded cfg path
  | .pass _ event => event.Succeeds
  | _ => True

instance (cfg : Config) (history : History n) (action : Action n) :
    Decidable (Arrivals cfg history action) := by
  cases action <;> unfold Arrivals <;> infer_instance

def writes (cfg : Config) (world : World n) : Action n →
    Option (Path × Bytes)
  | .pass thread event =>
      (world.threads thread).bind fun pass =>
        ProcessFile.written cfg pass.path world.shared.fs pass.stage event
  | _ => none

/-- A write below the two directories spares what arrived: its target is
free, or holds the same bytes, or its bytes are stored elsewhere. -/
def SparesOriginals (cfg : Config) (history : History n)
    (action : Action n) : Prop :=
  ∀ target incoming, writes cfg history.world action =
      some (target, incoming) →
    Guarded cfg target →
    ∀ old ∈ history.arrived,
      history.world.shared.fs.bytesAt target = some old →
        old = incoming ∨
          StoredElsewhere cfg history.world.shared.fs target old

variable {platform : Platform} {cfg : Config} {history after : History n}
  {action : Action n}

theorem observe_cases
    (taken : observe platform cfg history action = some after) :
    step platform cfg history.world action = some after.world ∧
      after.arrived =
        history.arrived ∪ watched cfg after.world.shared.fs := by
  obtain ⟨world, result, rfl⟩ := Option.map_eq_some_iff.mp taken
  exact ⟨result, rfl⟩

theorem stored_of_watched {fs : Fs} {bytes : Bytes}
    (member : bytes ∈ watched cfg fs) : Stored cfg fs bytes := by
  obtain ⟨path, inside, holds⟩ := member
  exact ⟨path, .inl inside, holds⟩

/-- What an action does to the files: a pass has the effect of its stage, and
the outside adds a file or stays away from the two directories. -/
theorem files_of_step {world next : World n}
    (taken : step platform cfg world action = some next)
    (allowed : ∀ thread event, action = .pass thread event →
      event.Succeeds) :
    (∃ path, ProcessFile.Effect cfg path world.shared.fs
      (writes cfg world action) next.shared.fs) ∨
    (∃ path file, action = .external path file ∧
      next.shared.fs = Function.update world.shared.fs path file) := by
  cases action with
  | advance ns =>
      cases taken
      exact .inl ⟨"", .idle⟩
  | setWall wall =>
      cases taken
      exact .inl ⟨"", .idle⟩
  | external path file =>
      cases taken
      exact .inr ⟨path, file, rfl, rfl⟩
  | beginScan =>
      rw [(beginScan_cases taken).1]
      exact .inl ⟨"", .idle⟩
  | endScan =>
      rw [(endScan_cases taken).1]
      exact .inl ⟨"", .idle⟩
  | cleanup =>
      rw [(cleanup_cases taken).1]
      exact .inl ⟨"", .idle⟩
  | scanFile name =>
      obtain ⟨now, file, -, -, -, ⟨-, rfl⟩ | ⟨-, rfl⟩⟩ :=
        scanFile_cases taken
      · exact .inl ⟨"", .idle⟩
      · exact .inl ⟨"", .idle⟩
  | pop thread =>
      obtain ⟨path, impl, -, -, rfl⟩ := pop_cases taken
      exact .inl ⟨"", .idle⟩
  | pass thread event =>
      obtain ⟨pass, shared, stage, busy, passStep, rfl⟩ := pass_cases taken
      refine .inl ⟨pass.path, ?_⟩
      simp only [writes, busy, Option.bind_some]
      exact passStep.effect (allowed thread event rfl)
  | finish thread =>
      obtain ⟨path, -, rfl⟩ := finish_cases taken
      exact .inl ⟨"", .idle⟩

theorem succeeds_of_arrivals (arrivals : Arrivals cfg history action) :
    ∀ thread event, action = .pass thread event → event.Succeeds := by
  rintro thread event rfl
  exact arrivals

theorem stored_step_iff (kept : NoOriginalLost cfg history)
    (arrivals : Arrivals cfg history action)
    (taken : observe platform cfg history action = some after) :
    (∀ bytes ∈ history.arrived,
      Stored cfg after.world.shared.fs bytes) ↔
      SparesOriginals cfg history action := by
  obtain ⟨result, -⟩ := observe_cases taken
  rcases files_of_step result (succeeds_of_arrivals arrivals) with
    ⟨path, effect⟩ | ⟨path, file, rfl, updated⟩
  · unfold SparesOriginals
    cases writing : writes cfg history.world action with
    | none =>
        rw [writing] at effect
        constructor
        · intro _ target incoming same
          cases same
        · intro _ bytes member
          rw [effect.of_none]
          exact kept bytes member
    | some write =>
        obtain ⟨target, incoming⟩ := write
        rw [writing] at effect
        constructor
        · rintro stored _ _ ⟨rfl, rfl⟩ - old member -
          exact effect.of_stored (stored old member)
        · intro spares bytes member
          obtain ⟨other, guarded, holds⟩ := kept bytes member
          apply effect.stored
          by_cases same : other = target
          · subst same
            rcases spares _ _ rfl guarded bytes member holds with
              equal | elsewhere
            · exact .inl ⟨guarded, equal⟩
            · exact .inr elsewhere
          · exact .inr ⟨other, same, guarded, holds⟩
  · constructor
    · intro _ target incoming none
      cases none
    · intro _ bytes member
      obtain ⟨other, guarded, holds⟩ := kept bytes member
      refine ⟨other, guarded, ?_⟩
      have away : other ≠ path := by
        rintro rfl
        rcases arrivals with ⟨-, free, -⟩ | outside
        · simp [Fs.bytesAt, free] at holds
        · exact outside guarded
      rwa [Fs.bytesAt, updated, Function.update_of_ne away]

/-- Over any number of threads, any arrivals and any mix of outcomes, with
every file-system call succeeding: each content that ever arrived is stored
in every state passed exactly when every write spares what arrived. -/
theorem noOriginalLost_run_iff (platform : Platform) (cfg : Config)
    (clock wall : Int) (fs : Fs) (db : Db) {actions : List (Action n)}
    (arrivals : Along (observe platform cfg) (Arrivals cfg)
      (History.initial cfg clock wall fs db) actions) :
    Visits (observe platform cfg) (NoOriginalLost cfg)
        (History.initial cfg clock wall fs db) actions ↔
      Along (observe platform cfg) (SparesOriginals cfg)
        (History.initial cfg clock wall fs db) actions := by
  refine visits_iff_along_of_assumed (NoOriginalLost cfg)
    (fun _ kept => kept) ?_ ?_ (fun bytes => stored_of_watched) arrivals
  · intro history action after kept allowed spares taken
    have stored := (stored_step_iff kept allowed taken).mpr spares
    intro bytes member
    rw [(observe_cases taken).2] at member
    rcases member with old | new
    · exact stored bytes old
    · exact stored_of_watched new
  · intro history action after kept allowed taken still
    refine (stored_step_iff kept allowed taken).mp fun bytes member => ?_
    apply still
    rw [(observe_cases taken).2]
    exact .inl member

/-- Where a write puts a file below the two directories, its folder has no
file of this name yet. -/
def FreeName (cfg : Config) (history : History n) (action : Action n) :
    Prop :=
  ∀ write ∈ writes cfg history.world action,
    Guarded cfg write.1 → history.world.shared.fs write.1 = none

instance (cfg : Config) (history : History n) (action : Action n) :
    Decidable (FreeName cfg history action) :=
  inferInstanceAs (Decidable (∀ write ∈ writes cfg history.world action, _))

theorem along_spares_of_free {start : History n} {actions : List (Action n)}
    (free : Along (observe platform cfg) (FreeName cfg) start actions) :
    Along (observe platform cfg) (SparesOriginals cfg) start actions := by
  refine along_of_preserved (fun _ => True) (fun _ _ _ _ _ _ => trivial) ?_
    trivial free
  intro history action _ _ names _ target incoming writing guarded old _ holds
  have absent := names _ writing guarded
  simp [Fs.bytesAt, absent] at holds

/-- A first file waits in `watch_dir`. -/
def firstPhotograph : History 1 :=
  .initial {} 0 (60 * nsPerSecond) (onePhotograph 1).shared.fs {}

/-- It is imported; another one takes its name and is imported too. -/
def secondPhotograph : List (Action 1) :=
  scanning "DSC_0001.NEF" ++
    importing 0 "2024-05-01" ⟨[7], 0⟩ true ++
    [.external "/watch/DSC_0001.NEF" (some ⟨[2], 0⟩),
      .advance 21000000000, .beginScan, .endScan, .cleanup,
      .advance 10000000000] ++
    scanning "DSC_0001.NEF" ++
    importing 0 "2024-05-02" ⟨[7], 0⟩ true

def otherPhotograph : List (Action 1) :=
  scanning "DSC_0001.NEF" ++
    importing 0 "2024-05-01" ⟨[7], 0⟩ true ++
    [.external "/watch/DSC_0002.NEF" (some ⟨[2], 0⟩),
      .advance 10000000000] ++
    scanning "DSC_0002.NEF" ++
    importing 0 "2024-05-02" ⟨[7], 0⟩ true

theorem noOriginalLost_otherPhotograph :
    Visits (observe photographs {}) (NoOriginalLost {}) firstPhotograph
      otherPhotograph :=
  (noOriginalLost_run_iff photographs {} 0 (60 * nsPerSecond) _ {}
    (by decide +kernel)).mpr (along_spares_of_free (by decide +kernel))

theorem arrived_run {start final : History n} {actions : List (Action n)}
    {bytes : Bytes} (member : bytes ∈ start.arrived)
    (result : run (observe platform cfg) start actions = some final) :
    bytes ∈ final.arrived := by
  induction actions generalizing start with
  | nil =>
      cases result
      exact member
  | cons action actions ih =>
      obtain ⟨next, taken, rest⟩ := run_cons_eq_some_iff.mp result
      refine ih ?_ rest
      rw [(observe_cases taken).2]
      exact .inl member

def writtenPaths (cfg : Config) (history : History n)
    (action : Action n) : List Path :=
  match action with
  | .external path _ => [path]
  | _ => (writes cfg history.world action).toList.map Prod.fst

theorem present_run {start final : History n} {actions : List (Action n)}
    {path : Path}
    (arrivals : Along (observe platform cfg) (Arrivals cfg) start actions)
    (result : run (observe platform cfg) start actions = some final)
    (present : final.world.shared.fs path ≠ none) :
    start.world.shared.fs path ≠ none ∨
      path ∈ outputs (observe platform cfg) (writtenPaths cfg) start
        actions := by
  induction actions generalizing start with
  | nil =>
      cases result
      exact .inl present
  | cons action actions ih =>
      obtain ⟨next, taken, rest⟩ := run_cons_eq_some_iff.mp result
      obtain ⟨allowed, later⟩ := arrivals next taken
      simp only [outputs, taken, List.mem_append]
      rcases ih later rest with before | written
      · rcases files_of_step (observe_cases taken).1
          (succeeds_of_arrivals allowed) with
          ⟨source, effect⟩ | ⟨target, file, rfl, updated⟩
        · rcases effect.present before with old | new
          · exact .inl old
          · right
            left
            cases action <;> first | exact new | simp [writes] at new
        · by_cases same : path = target
          · exact .inr (.inl (by simp [writtenPaths, same]))
          · rw [updated, Function.update_of_ne same] at before
            exact .inl before
      · exact .inr (.inr written)

/-- One name, two photographs of the same month: both are imported, and the
archive move of the second replaces the first. -/
theorem original_lost_of_reused_name :
    ∃ (actions : List (Action 1)) (history : History 1),
      Along (observe photographs {}) (Arrivals {}) firstPhotograph actions ∧
      run (observe photographs {}) firstPhotograph actions = some history ∧
      history.world.threads 0 = none ∧
      [1] ∈ history.arrived ∧
      ¬Stored {} history.world.shared.fs [1] := by
  have replaced : ∃ history,
      run (observe photographs {}) firstPhotograph secondPhotograph =
        some history ∧
      history.world.threads 0 = none ∧
      ∀ path ∈ "/watch/DSC_0001.NEF" :: outputs (observe photographs {})
          (writtenPaths {}) firstPhotograph secondPhotograph,
        history.world.shared.fs.bytesAt path ≠ some [1] :=
    exists_run_of_decide (by decide +kernel)
  obtain ⟨history, result, idle, gone⟩ := replaced
  have arrivals : Along (observe photographs {}) (Arrivals {})
      firstPhotograph secondPhotograph := by
    decide +kernel
  have initial : [1] ∈ firstPhotograph.arrived :=
    ⟨"/watch/DSC_0001.NEF", by decide, rfl⟩
  refine ⟨secondPhotograph, history, arrivals, result, idle,
    arrived_run initial result, ?_⟩
  rintro ⟨path, -, holds⟩
  have present : history.world.shared.fs path ≠ none := by
    intro absent
    simp [Fs.bytesAt, absent] at holds
  have known : path ∈ "/watch/DSC_0001.NEF" :: outputs
      (observe photographs {}) (writtenPaths {}) firstPhotograph
      secondPhotograph := by
    rcases present_run arrivals result present with old | written
    · by_cases same : path = "/watch/DSC_0001.NEF"
      · exact List.mem_cons.mpr (.inl same)
      · exact (old (if_neg same)).elim
    · exact List.mem_cons_of_mem _ written
  exact gone path known holds

end History

end Worker

end RawImport
