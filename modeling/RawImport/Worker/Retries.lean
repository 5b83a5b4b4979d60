import RawImport.Worker.Ownership

/-!
# No file is stuck

An in-flight marker is set by the pass that pops its path and removed on every
exit of that pass, so a marker always belongs to a running pass.  A `seen`
entry is not refreshed while its file stays in `watch_dir`, so after the TTL
the next scan queues the path again.
-/

namespace RawImport

namespace Worker

open PathText Transition

namespace ProcessFile

/-- The stages in which the release of the marker is still to come. -/
def Stage.Holds (stage : Stage) : Prop :=
  stage.Marked ∨ stage = .release

theorem Stage.marked_hashed (srcHash : String) : (hashed srcHash).Marked := by
  unfold hashed
  split
  · exact ⟨id, by simp⟩
  · exact ⟨id, by simp⟩

theorem Stage.Holds.running {stage : Stage} (holds : stage.Holds) :
    stage ≠ .done := by
  rcases holds with marked | rfl
  · exact marked.2
  · simp

section Frame

variable {platform : Platform} {cfg : Config} {path : Path}
  {shared after : Shared} {stage stage' : Stage} {event : Event}

theorem Step.inflight_subset
    (step : Step platform cfg path shared stage event after stage') :
    after.impl.inflight ⊆ shared.impl.inflight := by
  cases step with
  | deadLetter => exact Finset.erase_subset _ _
  | release => exact Finset.erase_subset _ _
  | countFailure =>
      rw [(countFailure_queue cfg shared.impl path).2.2]
  | _ => exact Finset.Subset.refl _

/-- A pass that has its release to come either keeps it to come or takes the
marker away. -/
theorem Step.holds
    (step : Step platform cfg path shared stage event after stage')
    (holds : stage.Holds) (member : path ∈ after.impl.inflight) :
    stage'.Holds := by
  have other : ∀ {stage : Stage}, stage.Holds → stage.Tail →
      stage ≠ .release → False := by
    intro stage holds tail different
    rcases holds with marked | same
    · exact marked.1 tail
    · exact different same
  cases step with
  | deadLetter => exact (Finset.notMem_erase _ _ member).elim
  | release => exact (Finset.notMem_erase _ _ member).elim
  | countFailure => exact (other holds trivial (by simp)).elim
  | moveDead => exact (other holds trivial (by simp)).elim
  | alert => exact (other holds trivial (by simp)).elim
  | moveDuplicate => exact .inr rfl
  | archive => exact .inr rfl
  | cacheHit => exact .inl (Stage.marked_hashed _)
  | hashOnly => exact .inl (Stage.marked_hashed _)
  | cacheStore => exact .inl (Stage.marked_hashed _)
  | insert =>
      split
      · exact .inl ⟨id, by simp⟩
      · exact .inl ⟨id, by simp⟩
  | _ => exact .inl ⟨id, by simp⟩

end Frame

end ProcessFile

section Inflight

variable {n : Nat}

/-- Every marker belongs to a pass that has its release to come. -/
def MarkersOwned (world : World n) : Prop :=
  ∀ path ∈ world.shared.impl.inflight, ∃ thread pass,
    world.threads thread = some pass ∧ pass.path = path ∧ pass.stage.Holds

/-- A path that no thread processes is not in flight. -/
def NotStuck (world : World n) : Prop :=
  ∀ path, (∀ thread, ¬Processes world path thread) →
    path ∉ world.shared.impl.inflight

theorem MarkersOwned.notStuck {world : World n}
    (owned : MarkersOwned world) : NotStuck world := by
  intro path idle member
  obtain ⟨thread, pass, busy, samePath, holds⟩ := owned path member
  exact idle thread ⟨pass, busy, samePath, holds.running⟩

/-- Steps that set no marker and leave every pass with its release to come
where it is. -/
theorem MarkersOwned.congr {world after : World n}
    (owned : MarkersOwned world)
    (inflight : after.shared.impl.inflight = world.shared.impl.inflight)
    (threads : ∀ thread pass, world.threads thread = some pass →
      pass.stage.Holds → after.threads thread = some pass) :
    MarkersOwned after := by
  intro path member
  rw [inflight] at member
  obtain ⟨thread, pass, busy, samePath, holds⟩ := owned path member
  exact ⟨thread, pass, threads thread pass busy holds, samePath, holds⟩

theorem markersOwned_step {platform : Platform} {cfg : Config}
    {world after : World n} {action : Action n} (owned : MarkersOwned world)
    (taken : step platform cfg world action = some after) :
    MarkersOwned after := by
  cases action with
  | advance ns =>
      cases taken
      exact owned.congr rfl fun _ _ busy _ => busy
  | setWall wall =>
      cases taken
      exact owned.congr rfl fun _ _ busy _ => busy
  | external path file =>
      cases taken
      exact owned.congr rfl fun _ _ busy _ => busy
  | beginScan =>
      obtain ⟨shared, threads⟩ := beginScan_cases taken
      exact owned.congr (by rw [shared]) fun _ _ busy _ => threads ▸ busy
  | endScan =>
      obtain ⟨shared, threads⟩ := endScan_cases taken
      exact owned.congr (by rw [shared]) fun _ _ busy _ => threads ▸ busy
  | cleanup =>
      obtain ⟨shared, threads⟩ := cleanup_cases taken
      exact owned.congr (by rw [shared]; rfl) fun _ _ busy _ =>
        threads ▸ busy
  | scanFile name =>
      obtain ⟨now, file, -, -, -, ⟨-, rfl⟩ | ⟨-, rfl⟩⟩ :=
        scanFile_cases taken
      · exact owned.congr (ProcessFile.scanEntry_frame _ _ now).1
          fun _ _ busy _ => busy
      · exact owned
  | pop thread =>
      obtain ⟨path, impl, idle, popped, rfl⟩ := pop_cases taken
      obtain ⟨-, inflight, -, -, -⟩ := Impl.popFile_cases popped
      intro other member
      simp only [World.setThread_shared, World.withShared_shared] at member
      rw [inflight, Finset.mem_insert] at member
      rcases member with rfl | before
      · refine ⟨thread, _, World.setThread_same _ _ _, rfl, .inl ?_⟩
        exact ⟨id, by simp⟩
      · obtain ⟨holder, pass, busy, samePath, holds⟩ := owned other before
        have different : holder ≠ thread := by
          intro same
          rw [same, idle] at busy
          cases busy
        exact ⟨holder, pass,
          (World.setThread_other _ _ different).trans busy, samePath, holds⟩
  | pass thread event =>
      obtain ⟨pass, shared, stage, busy, passStep, rfl⟩ := pass_cases taken
      intro path member
      obtain ⟨holder, held, holderBusy, samePath, holds⟩ :=
        owned path (passStep.inflight_subset member)
      by_cases same : holder = thread
      · subst same
        rw [busy] at holderBusy
        cases holderBusy
        subst samePath
        exact ⟨holder, _, World.setThread_same _ _ _, rfl,
          passStep.holds holds member⟩
      · exact ⟨holder, held,
          (World.setThread_other _ _ same).trans holderBusy, samePath,
          holds⟩
  | finish thread =>
      obtain ⟨path, ended, rfl⟩ := finish_cases taken
      refine owned.congr rfl ?_
      intro other pass busy holds
      have different : other ≠ thread := by
        intro same
        rw [same, ended] at busy
        cases busy
        exact holds.running rfl
      exact (World.setThread_other _ _ different).trans busy

theorem markersOwned_initial (clock wall : Int) (fs : Fs) (db : Db) :
    MarkersOwned (World.initial (n := n) clock wall fs db) := by
  intro path member
  exact (Finset.notMem_empty path member).elim

end Inflight

section Requeue

variable {n : Nat}

/-- A `seen` entry belongs to a file name that the scan accepts. -/
def SeenAccepted (cfg : Config) (world : World n) : Prop :=
  ∀ path, (world.shared.impl.seen path).isSome → ∃ name, Bare name ∧
    acceptedName name = true ∧ path = joinPath cfg.watchDir name

theorem scanEntry_seen {impl : Impl} {path other : Path} {now : Int}
    (seen : ((impl.scanEntry path now).seen other).isSome) :
    (impl.seen other).isSome ∨
      (other = path ∧ (impl.scanEntry path now).files =
        impl.files ++ [path]) := by
  rcases impl.scanEntry_cases path now with ⟨-, same⟩ | ⟨-, -, queued⟩
  · rw [same] at seen
    exact .inl seen
  · rw [queued] at seen ⊢
    by_cases same : other = path
    · exact .inr ⟨same, rfl⟩
    · simp only [Function.update_of_ne same] at seen
      exact .inl seen

theorem scanEntry_files (impl : Impl) {path other : Path} (now : Int)
    (queued : other ∈ impl.files) :
    other ∈ (impl.scanEntry path now).files := by
  rcases impl.scanEntry_cases path now with ⟨-, same⟩ | ⟨-, -, added⟩
  · rw [same]
    exact queued
  · rw [added]
    exact List.mem_append_left _ queued

theorem cleanup_seen {cfg : Config} {impl : Impl} {now : Int} {path : Path}
    (seen : ((impl.cleanupSeenTtl cfg now).seen path).isSome) :
    (impl.seen path).isSome := by
  unfold Impl.cleanupSeenTtl at seen
  cases before : impl.seen path with
  | none => simp [before] at seen
  | some stamp => rfl

theorem cleanupSeenTtl_expired {cfg : Config} {impl : Impl} {now stamp : Int}
    {path : Path} (seen : impl.seen path = some stamp)
    (expired : Impl.ttl cfg < now - stamp) :
    (impl.cleanupSeenTtl cfg now).seen path = none := by
  have old : decide (now - stamp ≤ Impl.ttl cfg) = false :=
    decide_eq_false (not_le.mpr expired)
  show (impl.seen path).filter _ = none
  rw [seen, Option.filter_some, old]
  rfl

/-- An action changes the queue and the `seen` map by a scan of an accepted
name, a cleanup or a pop. -/
theorem seen_cases {platform : Platform} {cfg : Config}
    {world after : World n} {action : Action n}
    (taken : step platform cfg world action = some after) :
    (∃ name now, action = .scanFile name ∧ Bare name ∧
      acceptedName name = true ∧
      after.shared.impl = world.shared.impl.scanEntry
        (joinPath cfg.watchDir name) now) ∨
    (after.shared.impl.files = world.shared.impl.files ∧
      ∀ path, (after.shared.impl.seen path).isSome →
        (world.shared.impl.seen path).isSome) ∨
    (∃ thread path, world.shared.impl.files =
        path :: after.shared.impl.files ∧
      after.shared.impl.seen = world.shared.impl.seen ∧
      Processes after path thread) := by
  cases action with
  | advance ns =>
      cases taken
      exact .inr (.inl ⟨rfl, fun _ => id⟩)
  | setWall wall =>
      cases taken
      exact .inr (.inl ⟨rfl, fun _ => id⟩)
  | external path file =>
      cases taken
      exact .inr (.inl ⟨rfl, fun _ => id⟩)
  | beginScan =>
      obtain ⟨shared, -⟩ := beginScan_cases taken
      rw [shared]
      exact .inr (.inl ⟨rfl, fun _ => id⟩)
  | endScan =>
      obtain ⟨shared, -⟩ := endScan_cases taken
      rw [shared]
      exact .inr (.inl ⟨rfl, fun _ => id⟩)
  | cleanup =>
      obtain ⟨shared, -⟩ := cleanup_cases taken
      rw [shared]
      exact .inr (.inl ⟨rfl, fun _ => cleanup_seen⟩)
  | scanFile name =>
      obtain ⟨now, file, -, -, bare, ⟨accepted, rfl⟩ | ⟨-, rfl⟩⟩ :=
        scanFile_cases taken
      · have named : acceptedName name = true :=
          (Bool.and_eq_true_iff.mp accepted).1
        exact .inl ⟨name, now, rfl, bare, named, rfl⟩
      · exact .inr (.inl ⟨rfl, fun _ => id⟩)
  | pop thread =>
      obtain ⟨path, impl, -, popped, rfl⟩ := pop_cases taken
      obtain ⟨files, -, seen, -, -⟩ := Impl.popFile_cases popped
      refine .inr (.inr ⟨thread, path, files, seen, ?_⟩)
      exact ⟨_, World.setThread_same _ _ _, rfl, by simp⟩
  | pass thread event =>
      obtain ⟨pass, shared, stage, -, passStep, rfl⟩ := pass_cases taken
      obtain ⟨files, seen⟩ := passStep.queue
      refine .inr (.inl ⟨files, ?_⟩)
      simp only [World.setThread_shared, World.withShared_shared]
      rw [seen]
      exact fun _ => id
  | finish thread =>
      obtain ⟨path, -, rfl⟩ := finish_cases taken
      exact .inr (.inl ⟨rfl, fun _ => id⟩)

theorem seenAccepted_step {platform : Platform} {cfg : Config}
    {world after : World n} {action : Action n}
    (accepted : SeenAccepted cfg world)
    (taken : step platform cfg world action = some after) :
    SeenAccepted cfg after := by
  intro path seen
  rcases seen_cases taken with ⟨name, now, -, bare, named, impl⟩ |
    ⟨-, before⟩ | ⟨-, -, -, same, -⟩
  · rw [impl] at seen
    rcases scanEntry_seen seen with old | ⟨rfl, -⟩
    · exact accepted path old
    · exact ⟨name, bare, named, rfl⟩
  · exact accepted path (before path seen)
  · rw [same] at seen
    exact accepted path seen

def SeenWaits (path : Path) (world : World n) : Prop :=
  (world.shared.impl.seen path).isSome → path ∈ world.shared.impl.files

/-- The regular file is in `watch_dir`, old enough, and no thread processes
its path. -/
def Waits (cfg : Config) (path : Path) (world : World n) : Prop :=
  (∃ file, world.shared.fs path = some file ∧
    cfg.debounceSec * nsPerSecond ≤ world.shared.wall - file.mtime) ∧
  ∀ thread, ¬Processes world path thread

instance (cfg : Config) (path : Path) (world : World n) :
    Decidable (Waits cfg path world) :=
  decidable_of_iff
    ((world.shared.fs path).any (fun file => decide
        (cfg.debounceSec * nsPerSecond ≤ world.shared.wall - file.mtime)) ∧
      ∀ thread, ¬Processes world path thread)
    (and_congr_left' (by simp [Option.any_eq_true]))

theorem queued_step {platform : Platform} {cfg : Config}
    {world after : World n} {action : Action n} {path : Path}
    (queued : path ∈ world.shared.impl.files)
    (idle : ∀ thread, ¬Processes after path thread)
    (taken : step platform cfg world action = some after) :
    path ∈ after.shared.impl.files := by
  rcases seen_cases taken with ⟨name, now, -, -, -, impl⟩ | ⟨files, -⟩ |
    ⟨thread, front, files, -, processes⟩
  · rw [impl]
    exact scanEntry_files _ now queued
  · rw [files]
    exact queued
  · rw [files] at queued
    rcases List.mem_cons.mp queued with rfl | behind
    · exact (idle thread processes).elim
    · exact behind

theorem seenWaits_step {platform : Platform} {cfg : Config}
    {world after : World n} {action : Action n} {path : Path}
    (waits : SeenWaits path world)
    (idle : ∀ thread, ¬Processes after path thread)
    (taken : step platform cfg world action = some after) :
    SeenWaits path after := by
  intro seen
  rcases seen_cases taken with ⟨name, now, -, -, -, impl⟩ | ⟨-, before⟩ |
    ⟨-, -, -, same, -⟩
  · rw [impl] at seen ⊢
    rcases scanEntry_seen seen with old | ⟨rfl, files⟩
    · exact scanEntry_files _ now (waits old)
    · rw [files]
      exact List.mem_append_right _ (List.mem_singleton.mpr rfl)
  · exact queued_step (waits (before path seen)) idle taken
  · rw [same] at seen
    exact queued_step (waits seen) idle taken

/-- `age < debounce_sec` fails for a file older than the debounce window. -/
theorem debounced {cfg : Config} {wall mtime : Int}
    (old : cfg.debounceSec * nsPerSecond ≤ wall - mtime) :
    cfg.debounceSec ≤ elapsedSeconds wall mtime := by
  unfold elapsedSeconds
  have floor : cfg.debounceSec ≤ (wall - mtime) / nsPerSecond :=
    Int.le_ediv_of_mul_le (by decide) old
  have truncated : (wall - mtime) / nsPerSecond ≤
      (wall - mtime).tdiv nsPerSecond := by
    rw [Int.tdiv_eq_ediv]
    split
    · omega
    · have positive : nsPerSecond.sign = 1 := rfl
      omega
  exact floor.trans truncated

/-- The scan of a waiting file finds its path in the queue or puts it
there. -/
theorem scanned_queued {platform : Platform} {cfg : Config}
    {world after : World n} {name : String}
    (owned : MarkersOwned world)
    (waits : SeenWaits (joinPath cfg.watchDir name) world)
    (named : acceptedName name = true)
    (waiting : Waits cfg (joinPath cfg.watchDir name) world)
    (taken : step platform cfg world (.scanFile name) = some after) :
    joinPath cfg.watchDir name ∈ after.shared.impl.files := by
  obtain ⟨⟨file, present, old⟩, idle⟩ := waiting
  obtain ⟨now, file', -, present', -, result⟩ := scanFile_cases taken
  rw [present] at present'
  cases present'
  have accepts : scanAccepts cfg world.shared.wall name file = true := by
    simp [scanAccepts, named, debounced old]
  rcases result with ⟨-, rfl⟩ | ⟨rejected, -⟩
  · have unmarked := owned.notStuck _ idle
    rcases Impl.scanEntry_cases world.shared.impl _ now with
      ⟨marked | seen, same⟩ | ⟨-, -, added⟩
    · exact (unmarked marked).elim
    · rw [World.withShared_shared, same]
      exact waits seen
    · rw [World.withShared_shared, added]
      exact List.mem_append_right _ (List.mem_singleton.mpr rfl)
  · rw [accepts] at rejected
    cases rejected

/-- A waiting file that is queued or scanned during a run is queued at its
end. -/
theorem queued_of_scan {platform : Platform} {cfg : Config} {name : String}
    (named : acceptedName name = true) {actions : List (Action n)}
    {world final : World n} (owned : MarkersOwned world)
    (waits : SeenWaits (joinPath cfg.watchDir name) world)
    (visits : Visits (step platform cfg)
      (Waits cfg (joinPath cfg.watchDir name)) world actions)
    (reached : run (step platform cfg) world actions = some final)
    (scanned : joinPath cfg.watchDir name ∈ world.shared.impl.files ∨
      .scanFile name ∈ actions) :
    joinPath cfg.watchDir name ∈ final.shared.impl.files := by
  induction actions generalizing world with
  | nil =>
      cases reached
      rcases scanned with queued | never
      · exact queued
      · cases never
  | cons action actions ih =>
      obtain ⟨after, taken, later⟩ := run_cons_eq_some_iff.mp reached
      have following := visits.2 after taken
      have idle := following.head.2
      apply ih (markersOwned_step owned taken)
        (seenWaits_step waits idle taken) following later
      rcases scanned with queued | member
      · exact .inl (queued_step queued idle taken)
      · rcases List.mem_cons.mp member with rfl | rest
        · left
          exact scanned_queued owned waits named visits.head taken
        · exact .inr rest

/-- Markers and retries over whole runs, for any number of converter threads,
any outcome of each pass and any interleaving.  A path that no thread
processes is not in flight.  A file whose `seen` entry is past the TTL is
queued after a cleanup and a scan that comes to it, whatever else happens
meanwhile, as long as the file waits in `watch_dir` and is not popped. -/
theorem no_file_stuck (platform : Platform) (cfg : Config)
    (clock wall : Int) (fs : Fs) (db : Db) (actions : List (Action n)) :
    Visits (step platform cfg) NotStuck
        (World.initial (n := n) clock wall fs db) actions ∧
      ∀ world name stamp scan final,
        run (step platform cfg) (World.initial (n := n) clock wall fs db)
          actions = some world →
        Bare name →
        world.shared.impl.seen (joinPath cfg.watchDir name) = some stamp →
        Impl.ttl cfg < world.shared.clock - stamp →
        run (step platform cfg) world (.cleanup :: scan) = some final →
        .scanFile name ∈ scan →
        Visits (step platform cfg) (Waits cfg (joinPath cfg.watchDir name))
          world (.cleanup :: scan) →
        joinPath cfg.watchDir name ∈ final.shared.impl.files := by
  have owned : Visits (step platform cfg) MarkersOwned
      (World.initial (n := n) clock wall fs db) actions :=
    visits_of_preserved MarkersOwned
      (fun _ _ _ owned taken => markersOwned_step owned taken)
      (markersOwned_initial clock wall fs db) actions
  constructor
  · exact owned.mono fun _ => MarkersOwned.notStuck
  · intro world name stamp scan final reached bare seen expired result
      scanned waiting
    have accepted : SeenAccepted cfg world :=
      (visits_of_preserved (SeenAccepted cfg)
        (fun _ _ _ accepted taken => seenAccepted_step accepted taken)
        (by intro path never; cases never) actions).final reached
    obtain ⟨known, knownBare, named, same⟩ :=
      accepted (joinPath cfg.watchDir name) (by rw [seen]; rfl)
    have sameName : name = known := by
      rw [← filename_joinPath cfg.watchDir bare, same,
        filename_joinPath cfg.watchDir knownBare]
    subst sameName
    obtain ⟨after, taken, later⟩ := run_cons_eq_some_iff.mp result
    have evicted : after.shared.impl.seen (joinPath cfg.watchDir name) =
        none := by
      obtain ⟨shared, -⟩ := cleanup_cases taken
      rw [shared]
      exact cleanupSeenTtl_expired seen expired
    apply queued_of_scan named
      (markersOwned_step (owned.final reached) taken) _
      (waiting.2 after taken) later (.inr scanned)
    intro still
    rw [evicted] at still
    cases still

/-- A pass that cannot read its file and leaves it for a retry; when the TTL
is over, the poll thread is about to clean up. -/
def unreadableOnce : List (Action 1) :=
  scanning "DSC_0001.NEF" ++
    [.pop 0, .pass 0 (.fingerprint true true), .pass 0 .go,
      .pass 0 (.hash false), .pass 0 .go, .pass 0 .go, .finish 0,
      .advance 30000000000, .beginScan, .endScan]

/-- The file of a failed pass is queued again. -/
theorem unreadable_file_queued :
    ∃ world final, ∃ scan : List (Action 1),
      run (step photographs {}) (onePhotograph 1) unreadableOnce =
        some world ∧
      run (step photographs {}) world (.cleanup :: scan) = some final ∧
      "/watch/DSC_0001.NEF" ∉ world.shared.impl.files ∧
      "/watch/DSC_0001.NEF" ∈ final.shared.impl.files := by
  have expired : ∃ world,
      run (step photographs {}) (onePhotograph 1) unreadableOnce =
        some world ∧
      "/watch/DSC_0001.NEF" ∉ world.shared.impl.files ∧
      world.shared.impl.seen "/watch/DSC_0001.NEF" = some 0 ∧
      Impl.ttl {} < world.shared.clock - 0 ∧
      Visits (step photographs {}) (Waits {} "/watch/DSC_0001.NEF") world
        (.cleanup :: .advance 10000000000 :: scanning "DSC_0001.NEF") ∧
      (run (step photographs {}) world (.cleanup :: .advance 10000000000 ::
        scanning "DSC_0001.NEF")).isSome = true :=
    exists_run_of_decide (by decide +kernel)
  obtain ⟨world, reached, unqueued, seen, old, waits, enabled⟩ := expired
  obtain ⟨final, result⟩ := Option.isSome_iff_exists.mp enabled
  refine ⟨world, final, .advance 10000000000 :: scanning "DSC_0001.NEF",
    reached, result, unqueued, ?_⟩
  exact (no_file_stuck photographs {} _ _ _ _ unreadableOnce).2 world
    "DSC_0001.NEF" 0 _ final reached (by decide) seen old result
    (by decide) waits

end Requeue

end Worker

end RawImport
