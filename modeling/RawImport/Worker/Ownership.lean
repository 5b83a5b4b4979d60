import Mathlib.Data.Finset.Card
import Mathlib.Data.Fintype.Basic
import RawImport.Worker.Machine

/-!
# Ownership of source paths

A path is protected from being queued again by its `seen` entry, which
expires, and by its in-flight marker, which `move_to_dead_letter` releases
before the pass ends.  Between the two lies a window.  This module shows that
the window is the only way to a second owner: a run keeps single ownership
exactly as long as no scan queues a path inside it.
-/

namespace RawImport

namespace Worker

open PathText Transition

namespace ProcessFile

/-- The stages behind the release of the in-flight marker. -/
def Stage.Tail : Stage → Prop
  | .countFailure _ => True
  | .moveDead _ _ => True
  | .alert _ _ => True
  | .release => True
  | _ => False

instance (stage : Stage) : Decidable stage.Tail := by
  cases stage <;> unfold Stage.Tail <;> infer_instance

/-- The stages in which the pass still relies on its marker. -/
def Stage.Marked (stage : Stage) : Prop :=
  ¬stage.Tail ∧ stage ≠ .done

section Frame

variable {platform : Platform} {cfg : Config} {path : Path}
  {shared after : Shared} {stage stage' : Stage} {event : Event}

theorem countFailure_queue (cfg : Config) (impl : Impl) (path : Path) :
    (impl.countFailure cfg path).1.files = impl.files ∧
      (impl.countFailure cfg path).1.seen = impl.seen ∧
      (impl.countFailure cfg path).1.inflight = impl.inflight := by
  unfold Impl.countFailure
  simp only
  split <;> exact ⟨rfl, rfl, rfl⟩

theorem scanEntry_frame (impl : Impl) (path : Path) (now : Int) :
    (impl.scanEntry path now).inflight = impl.inflight ∧
      (impl.scanEntry path now).failCounts = impl.failCounts := by
  rcases impl.scanEntry_cases path now with ⟨-, same⟩ | ⟨-, -, queued⟩
  · rw [same]
    exact ⟨rfl, rfl⟩
  · rw [queued]
    exact ⟨rfl, rfl⟩

theorem Step.queue
    (step : Step platform cfg path shared stage event after stage') :
    after.impl.files = shared.impl.files ∧
      after.impl.seen = shared.impl.seen := by
  cases step with
  | countFailure =>
      exact ⟨(countFailure_queue cfg shared.impl path).1,
        (countFailure_queue cfg shared.impl path).2.1⟩
  | _ => exact ⟨rfl, rfl⟩

theorem Failure.after_not_marked (failure : Failure) :
    ¬failure.after.Marked := by
  cases failure with
  | hash => exact fun marked => marked.2 rfl
  | sequence => exact fun marked => marked.2 rfl
  | conversion => exact fun marked => marked.1 trivial

/-- A pass that is still marked after a step was marked before it, and the
step left the markers alone. -/
theorem Step.marked
    (step : Step platform cfg path shared stage event after stage')
    (marked : stage'.Marked) :
    stage.Marked ∧ after.impl.inflight = shared.impl.inflight := by
  cases step with
  | moveDuplicate => exact (marked.1 trivial).elim
  | archive => exact (marked.1 trivial).elim
  | deadLetter => exact (marked.1 trivial).elim
  | countFailure =>
      split at marked
      · exact (marked.1 trivial).elim
      · exact (Failure.after_not_marked _ marked).elim
  | moveDead =>
      split at marked
      · exact (marked.1 trivial).elim
      · exact (Failure.after_not_marked _ marked).elim
  | alert => exact (Failure.after_not_marked _ marked).elim
  | release => exact (marked.2 rfl).elim
  | _ => exact ⟨⟨id, by simp⟩, rfl⟩

theorem Step.inflight_other {other : Path}
    (step : Step platform cfg path shared stage event after stage')
    (different : other ≠ path)
    (member : other ∈ shared.impl.inflight) :
    other ∈ after.impl.inflight := by
  cases step with
  | deadLetter => exact Finset.mem_erase.mpr ⟨different, member⟩
  | release => exact Finset.mem_erase.mpr ⟨different, member⟩
  | countFailure =>
      rw [(countFailure_queue cfg shared.impl path).2.2]
      exact member
  | _ => exact member

theorem Step.running
    (step : Step platform cfg path shared stage event after stage') :
    stage ≠ .done := by
  cases step <;> simp

end Frame

end ProcessFile

section Ownership

variable {n : Nat}

/-- The thread is inside `ProcessFile(path)`. -/
def Processes (world : World n) (path : Path) (thread : Fin n) : Prop :=
  ∃ pass, world.threads thread = some pass ∧ pass.path = path ∧
    pass.stage ≠ .done

instance (world : World n) (path : Path) (thread : Fin n) :
    Decidable (Processes world path thread) :=
  match present : world.threads thread with
  | none => .isFalse (by
      rintro ⟨pass, busy, -⟩
      rw [present] at busy
      cases busy)
  | some pass =>
      if running : pass.path = path ∧ pass.stage ≠ .done then
        .isTrue ⟨pass, present, running⟩
      else .isFalse (by
        rintro ⟨other, busy, same⟩
        rw [present] at busy
        cases busy
        exact running same)

/-- How often a path occurs among the queued entries and the running
passes. -/
def owners (world : World n) (path : Path) : Nat :=
  world.shared.impl.files.count path +
    (Finset.univ.filter (Processes world path)).card

def SingleOwner (world : World n) : Prop :=
  ∀ path, owners world path ≤ 1

/-- Single ownership, structure by structure. -/
structure Exclusive (world : World n) : Prop where
  queued : world.shared.impl.files.Nodup
  popped : ∀ path thread, Processes world path thread →
    path ∉ world.shared.impl.files
  alone : ∀ path first second, Processes world path first →
    Processes world path second → first = second

theorem singleOwner_iff_exclusive (world : World n) :
    SingleOwner world ↔ Exclusive world := by
  constructor
  · intro single
    refine ⟨?_, ?_, ?_⟩
    · rw [List.nodup_iff_count_le_one]
      intro path
      have bound := single path
      unfold owners at bound
      omega
    · intro path thread processes queued
      have bound := single path
      have running :
          0 < (Finset.univ.filter (Processes world path)).card :=
        Finset.card_pos.mpr ⟨thread, by simpa using processes⟩
      have entries : 0 < world.shared.impl.files.count path :=
        List.count_pos_iff.mpr queued
      unfold owners at bound
      omega
    · intro path first second firstRuns secondRuns
      have bound := single path
      have atMostOne :
          (Finset.univ.filter (Processes world path)).card ≤ 1 := by
        unfold owners at bound
        omega
      exact Finset.card_le_one.mp atMostOne first (by simpa using firstRuns)
        second (by simpa using secondRuns)
  · intro exclusive path
    have entries : world.shared.impl.files.count path ≤ 1 :=
      List.nodup_iff_count_le_one.mp exclusive.queued path
    have running : (Finset.univ.filter (Processes world path)).card ≤ 1 := by
      refine Finset.card_le_one.mpr ?_
      intro first firstMember second secondMember
      exact exclusive.alone path first second (by simpa using firstMember)
        (by simpa using secondMember)
    unfold owners
    rcases Finset.eq_empty_or_nonempty
      (Finset.univ.filter (Processes world path)) with empty | ⟨thread, member⟩
    · rw [empty, Finset.card_empty]
      omega
    · have processes : Processes world path thread := by
        simpa using member
      have absent : world.shared.impl.files.count path = 0 :=
        List.count_eq_zero.mpr (exclusive.popped path thread processes)
      omega

/-- A running pass that relies on its marker has it. -/
def MarkersHeld (world : World n) : Prop :=
  ∀ thread pass, world.threads thread = some pass → pass.stage.Marked →
    pass.path ∈ world.shared.impl.inflight

structure Owned (world : World n) : Prop where
  exclusive : Exclusive world
  markers : MarkersHeld world

/-- The scan step is about to push the path of `name`. -/
def Queues (cfg : Config) (world : World n) (name : String) : Prop :=
  ∃ now file, world.poll = .scan now ∧
    world.shared.fs (joinPath cfg.watchDir name) = some file ∧
    scanAccepts cfg world.shared.wall name file = true ∧
    joinPath cfg.watchDir name ∉ world.shared.impl.inflight ∧
    world.shared.impl.seen (joinPath cfg.watchDir name) = none

/-- A scan does not queue a path that still waits in `files` or whose pass
stands between its marker's release and its end. -/
def OutsideWindow (cfg : Config) (world : World n) : Action n → Prop
  | .scanFile name =>
      Queues cfg world name →
        joinPath cfg.watchDir name ∉ world.shared.impl.files ∧
          ∀ thread pass, world.threads thread = some pass →
            pass.path = joinPath cfg.watchDir name → ¬pass.stage.Tail
  | _ => True

theorem owned_initial (clock wall : Int) (fs : Fs) (db : Db) :
    Owned (World.initial (n := n) clock wall fs db) := by
  have idle : ∀ path thread,
      ¬Processes (World.initial (n := n) clock wall fs db) path thread := by
    rintro path thread ⟨pass, busy, -⟩
    cases busy
  refine ⟨⟨List.nodup_nil, ?_, ?_⟩, ?_⟩
  · intro path thread processes
    exact (idle path thread processes).elim
  · intro path first second processes
    exact (idle path first processes).elim
  · intro thread pass busy
    cases busy

/-- Steps that leave the queue, the markers and the threads alone. -/
theorem Owned.congr {world after : World n} (owned : Owned world)
    (files : after.shared.impl.files = world.shared.impl.files)
    (inflight : after.shared.impl.inflight = world.shared.impl.inflight)
    (threads : after.threads = world.threads) : Owned after := by
  have same : ∀ path thread,
      Processes after path thread ↔ Processes world path thread := by
    intro path thread
    unfold Processes
    rw [threads]
  refine ⟨⟨?_, ?_, ?_⟩, ?_⟩
  · rw [files]
    exact owned.exclusive.queued
  · intro path thread processes
    rw [files]
    exact owned.exclusive.popped path thread ((same path thread).mp processes)
  · intro path first second firstRuns secondRuns
    exact owned.exclusive.alone path first second
      ((same path first).mp firstRuns) ((same path second).mp secondRuns)
  · intro thread pass busy marked
    rw [inflight]
    rw [threads] at busy
    exact owned.markers thread pass busy marked

theorem Owned.scanEntry {cfg : Config} {world : World n} {name : String}
    (owned : Owned world) (now : Int)
    (outside : joinPath cfg.watchDir name ∉ world.shared.impl.inflight →
      world.shared.impl.seen (joinPath cfg.watchDir name) = none →
        joinPath cfg.watchDir name ∉ world.shared.impl.files ∧
          ∀ thread pass, world.threads thread = some pass →
            pass.path = joinPath cfg.watchDir name → ¬pass.stage.Tail) :
    Owned (world.withShared { world.shared with
      impl := world.shared.impl.scanEntry
        (joinPath cfg.watchDir name) now }) := by
  set path := joinPath cfg.watchDir name with pathEq
  rcases world.shared.impl.scanEntry_cases path now with
    ⟨-, same⟩ | ⟨unmarked, never, queued⟩
  · rw [same]
    exact owned.congr rfl rfl rfl
  · rw [queued]
    obtain ⟨notQueued, noTail⟩ := outside unmarked never
    have notRunning : ∀ thread, ¬Processes world path thread := by
      rintro thread ⟨pass, busy, samePath, running⟩
      have marked : pass.stage.Marked :=
        ⟨noTail thread pass busy samePath, running⟩
      apply unmarked
      rw [← samePath]
      exact owned.markers thread pass busy marked
    refine ⟨⟨?_, ?_, ?_⟩, ?_⟩
    · exact List.nodup_append.mpr ⟨owned.exclusive.queued,
        List.nodup_singleton path, by
          intro entry member other otherMember equal
          rw [List.mem_singleton] at otherMember
          subst otherMember
          subst equal
          exact notQueued member⟩
    · intro other thread processes queued
      rcases List.mem_append.mp queued with before | added
      · exact owned.exclusive.popped other thread processes before
      · rw [List.mem_singleton] at added
        subst added
        exact notRunning thread processes
    · exact owned.exclusive.alone
    · exact owned.markers

theorem Owned.pop {world : World n} {thread : Fin n} {path : Path}
    {impl : Impl} (owned : Owned world)
    (idle : world.threads thread = none)
    (popped : world.shared.impl.popFile = some (path, impl)) :
    Owned ((world.withShared { world.shared with
      impl := impl }).setThread thread (some ⟨path, .fingerprint⟩)) := by
  obtain ⟨queue, inflight, -, -, -⟩ := Impl.popFile_cases popped
  have distinct : path ∉ impl.files ∧ impl.files.Nodup := by
    have nodup := owned.exclusive.queued
    rw [queue] at nodup
    exact List.nodup_cons.mp nodup
  -- Every other running pass was running before, on a path behind the head.
  have before : ∀ other thread', thread' ≠ thread →
      Processes ((world.withShared { world.shared with
        impl := impl }).setThread thread (some ⟨path, .fingerprint⟩))
        other thread' → Processes world other thread' := by
    rintro other thread' different ⟨pass, busy, running⟩
    rw [World.setThread_other _ _ different] at busy
    exact ⟨pass, busy, running⟩
  have own : ∀ other,
      Processes ((world.withShared { world.shared with
        impl := impl }).setThread thread (some ⟨path, .fingerprint⟩))
        other thread → other = path := by
    rintro other ⟨pass, busy, samePath, -⟩
    rw [World.setThread_same] at busy
    cases busy
    exact samePath.symm
  have others : ∀ other thread', Processes world other thread' →
      other ≠ path ∧ other ∉ impl.files := by
    intro other thread' processes
    have absent := owned.exclusive.popped other thread' processes
    rw [queue, List.mem_cons, not_or] at absent
    exact absent
  refine ⟨⟨distinct.2, ?_, ?_⟩, ?_⟩
  · intro other thread' processes
    by_cases same : thread' = thread
    · subst same
      rw [own other processes]
      exact distinct.1
    · exact (others other thread' (before other thread' same processes)).2
  · intro other first second firstRuns secondRuns
    by_cases firstSame : first = thread
    · by_cases secondSame : second = thread
      · rw [firstSame, secondSame]
      · subst firstSame
        have behind := others other second
          (before other second secondSame secondRuns)
        exact (behind.1 (own other firstRuns)).elim
    · by_cases secondSame : second = thread
      · subst secondSame
        have behind := others other first
          (before other first firstSame firstRuns)
        exact (behind.1 (own other secondRuns)).elim
      · exact owned.exclusive.alone other first second
          (before other first firstSame firstRuns)
          (before other second secondSame secondRuns)
  · intro thread' pass busy marked
    by_cases same : thread' = thread
    · subst same
      rw [World.setThread_same] at busy
      cases busy
      simp only [World.setThread_shared, World.withShared_shared]
      rw [inflight]
      exact Finset.mem_insert_self _ _
    · rw [World.setThread_other _ _ same] at busy
      simp only [World.setThread_shared, World.withShared_shared]
      rw [inflight]
      exact Finset.mem_insert_of_mem
        (owned.markers thread' pass busy marked)

theorem Owned.pass {platform : Platform} {cfg : Config} {world : World n}
    {thread : Fin n} {pass : Pass} {shared : Shared}
    {stage : ProcessFile.Stage} {event : ProcessFile.Event}
    (owned : Owned world) (busy : world.threads thread = some pass)
    (step : ProcessFile.Step platform cfg pass.path world.shared pass.stage
      event shared stage) :
    Owned ((world.withShared shared).setThread thread
      (some ⟨pass.path, stage⟩)) := by
  obtain ⟨files, -⟩ := step.queue
  have running : Processes world pass.path thread :=
    ⟨pass, busy, rfl, step.running⟩
  have before : ∀ other thread',
      Processes ((world.withShared shared).setThread thread
        (some ⟨pass.path, stage⟩)) other thread' →
      Processes world other thread' := by
    rintro other thread' ⟨pass', busy', samePath, active⟩
    by_cases same : thread' = thread
    · subst same
      rw [World.setThread_same] at busy'
      cases busy'
      cases samePath
      exact running
    · rw [World.setThread_other _ _ same] at busy'
      exact ⟨pass', busy', samePath, active⟩
  refine ⟨⟨?_, ?_, ?_⟩, ?_⟩
  · simp only [World.setThread_shared, World.withShared_shared]
    rw [files]
    exact owned.exclusive.queued
  · intro other thread' processes
    simp only [World.setThread_shared, World.withShared_shared]
    rw [files]
    exact owned.exclusive.popped other thread'
      (before other thread' processes)
  · intro other first second firstRuns secondRuns
    exact owned.exclusive.alone other first second
      (before other first firstRuns) (before other second secondRuns)
  · intro thread' pass' busy' marked
    by_cases same : thread' = thread
    · subst same
      rw [World.setThread_same] at busy'
      cases busy'
      obtain ⟨wasMarked, inflight⟩ := step.marked marked
      simp only [World.setThread_shared, World.withShared_shared]
      rw [inflight]
      exact owned.markers thread' pass busy wasMarked
    · rw [World.setThread_other _ _ same] at busy'
      have otherRuns : Processes world pass'.path thread' :=
        ⟨pass', busy', rfl, marked.2⟩
      have different : pass'.path ≠ pass.path := by
        intro equal
        rw [equal] at otherRuns
        exact same (owned.exclusive.alone pass.path thread' thread otherRuns
          running)
      exact step.inflight_other different
        (owned.markers thread' pass' busy' marked)

theorem Owned.finish {world : World n} {thread : Fin n} (owned : Owned world) :
    Owned (world.setThread thread none) := by
  have before : ∀ thread' pass,
      (world.setThread thread none).threads thread' = some pass →
        world.threads thread' = some pass := by
    intro thread' pass busy
    by_cases same : thread' = thread
    · subst same
      rw [World.setThread_same] at busy
      cases busy
    · rwa [World.setThread_other _ _ same] at busy
  have running : ∀ path thread',
      Processes (world.setThread thread none) path thread' →
        Processes world path thread' := by
    rintro path thread' ⟨pass, busy, rest⟩
    exact ⟨pass, before thread' pass busy, rest⟩
  refine ⟨⟨owned.exclusive.queued, ?_, ?_⟩, ?_⟩
  · intro path thread' processes
    exact owned.exclusive.popped path thread' (running path thread' processes)
  · intro path first second firstRuns secondRuns
    exact owned.exclusive.alone path first second
      (running path first firstRuns) (running path second secondRuns)
  · intro thread' pass busy marked
    exact owned.markers thread' pass (before thread' pass busy) marked

theorem owned_step {platform : Platform} {cfg : Config}
    {world after : World n} {action : Action n} (owned : Owned world)
    (outside : OutsideWindow cfg world action)
    (taken : step platform cfg world action = some after) :
    Owned after := by
  cases action with
  | advance ns =>
      cases taken
      exact owned.congr rfl rfl rfl
  | setWall wall =>
      cases taken
      exact owned.congr rfl rfl rfl
  | external path file =>
      cases taken
      exact owned.congr rfl rfl rfl
  | beginScan =>
      obtain ⟨shared, threads⟩ := beginScan_cases taken
      exact owned.congr (by rw [shared]) (by rw [shared]) threads
  | endScan =>
      obtain ⟨shared, threads⟩ := endScan_cases taken
      exact owned.congr (by rw [shared]) (by rw [shared]) threads
  | cleanup =>
      obtain ⟨shared, threads⟩ := cleanup_cases taken
      exact owned.congr (by rw [shared]; rfl) (by rw [shared]; rfl) threads
  | scanFile name =>
      obtain ⟨now, file, polling, present, -, ⟨accepted, rfl⟩ | ⟨-, rfl⟩⟩ :=
        scanFile_cases taken
      · refine owned.scanEntry now ?_
        intro unmarked unseen
        exact outside ⟨now, file, polling, present, accepted, unmarked,
          unseen⟩
      · exact owned
  | pop thread =>
      obtain ⟨path, impl, idle, popped, rfl⟩ := pop_cases taken
      exact owned.pop idle popped
  | pass thread event =>
      obtain ⟨pass, shared, stage, busy, passStep, rfl⟩ := pass_cases taken
      exact owned.pass busy passStep
  | finish thread =>
      obtain ⟨path, -, rfl⟩ := finish_cases taken
      exact owned.finish

theorem outside_of_singleOwner {platform : Platform} {cfg : Config}
    {world after : World n} {action : Action n}
    (taken : step platform cfg world action = some after)
    (single : SingleOwner after) : OutsideWindow cfg world action := by
  cases action with
  | scanFile name =>
      rintro ⟨now, file, polling, present, accepted, unmarked, unseen⟩
      obtain ⟨now', file', polling', present', -, result⟩ :=
        scanFile_cases taken
      rw [polling] at polling'
      rw [present] at present'
      cases polling'
      cases present'
      rcases result with ⟨-, rfl⟩ | ⟨rejected, -⟩
      · have exclusive := (singleOwner_iff_exclusive _).mp single
        have queue : (world.shared.impl.scanEntry
            (joinPath cfg.watchDir name) now).files =
            world.shared.impl.files ++ [joinPath cfg.watchDir name] := by
          rw [Impl.scanEntry,
            (Impl.passesOver_eq_false_iff _ _).mpr ⟨unmarked, unseen⟩]
          rfl
        constructor
        · intro queued
          have nodup := exclusive.queued
          simp only [World.withShared_shared] at nodup
          rw [queue] at nodup
          exact (List.nodup_append.mp nodup).2.2 _ queued _
            (List.mem_singleton.mpr rfl) rfl
        · intro thread pass busy samePath tail
          have running : pass.stage ≠ .done := by
            intro ended
            rw [ended] at tail
            exact tail
          have absent := exclusive.popped (joinPath cfg.watchDir name) thread
            ⟨pass, busy, samePath, running⟩
          simp only [World.withShared_shared] at absent
          rw [queue] at absent
          exact absent (List.mem_append_right _ (List.mem_singleton.mpr rfl))
      · rw [accepted] at rejected
        cases rejected
  | _ => trivial

/-- Single ownership over whole runs, for any number of converter threads,
any directory contents, any clock and any interleaving: every state passed
has at most one owner per path exactly when no scan queues a path inside the
window. -/
theorem singleOwner_run_iff (platform : Platform) (cfg : Config)
    (clock wall : Int) (fs : Fs) (db : Db) (actions : List (Action n)) :
    Visits (step platform cfg) SingleOwner
        (World.initial (n := n) clock wall fs db) actions ↔
      Along (step platform cfg) (OutsideWindow cfg)
        (World.initial clock wall fs db) actions := by
  refine visits_iff_along Owned ?_ ?_ ?_
    (owned_initial clock wall fs db) actions
  · intro world owned
    exact (singleOwner_iff_exclusive world).mpr owned.exclusive
  · intro world action after owned outside taken
    exact owned_step owned outside taken
  · intro world action after _ taken single
    exact outside_of_singleOwner taken single

/-- The path waits for longer than the TTL, is queued again and popped
twice. -/
def waiting : List (Action 2) :=
  scanning "DSC_0001.NEF" ++ [.advance 21000000000] ++
    scanning "DSC_0001.NEF" ++ [.advance 10000000000] ++
    scanning "DSC_0001.NEF" ++ [.pop 0, .pop 1]

/-- One file and two threads: both process it at the same time. -/
theorem second_owner_of_waiting_path :
    ∃ world,
      run (step photographs {}) (onePhotograph 2) waiting = some world ∧
      Processes world "/watch/DSC_0001.NEF" 0 ∧
      Processes world "/watch/DSC_0001.NEF" 1 ∧
      ¬SingleOwner world := by
  have popped : ∃ world,
      run (step photographs {}) (onePhotograph 2) waiting = some world ∧
      Processes world "/watch/DSC_0001.NEF" 0 ∧
      Processes world "/watch/DSC_0001.NEF" 1 :=
    exists_run_of_decide (by decide +kernel)
  obtain ⟨world, result, first, second⟩ := popped
  refine ⟨world, result, first, second, ?_⟩
  intro single
  have exclusive := (singleOwner_iff_exclusive world).mp single
  have equal := exclusive.alone _ 0 1 first second
  cases equal

end Ownership

end Worker

end RawImport
