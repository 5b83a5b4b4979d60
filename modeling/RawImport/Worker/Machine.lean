import Mathlib.Data.Fintype.Basic
import RawImport.Lib.Run
import RawImport.Worker.ProcessFile

/-!
# The worker as a transition system

One poll thread, `n` converter threads and the outside world over one shared
state.  Every critical section and every stage of a pass is one action, so an
action list is an interleaving.  The directory may change at any time, and
the steady clock may advance by any amount between two actions.
-/

namespace RawImport

namespace Worker

open PathText

/-- A converter thread inside `ProcessFile(path)`. -/
structure Pass where
  path : Path
  stage : ProcessFile.Stage
  deriving DecidableEq, Repr

/-- Where the poll thread stands in `PollLoop`. -/
inductive Poll where
  | top (lastScan : Int)
  | scan (now : Int)
  | cleanup (lastScan : Int)
  deriving DecidableEq, Repr

structure World (n : Nat) where
  shared : Shared
  poll : Poll
  threads : Fin n → Option Pass

inductive Action (n : Nat) where
  | advance (ns : Nat)
  | setWall (wall : Int)
  | external (path : Path) (file : Option File)
  | beginScan
  | scanFile (name : String)
  | endScan
  | cleanup
  | pop (thread : Fin n)
  | pass (thread : Fin n) (event : ProcessFile.Event)
  | finish (thread : Fin n)
  deriving DecidableEq, Repr

namespace World

variable {n : Nat}

/-- `Start()` over any directories and database: nothing queued, seen or in
flight, every converter thread idle, the first scan due at once. -/
def initial (clock wall : Int) (fs : Fs) (db : Db) : World n :=
  { shared := { clock := clock, wall := wall, fs := fs, db := db }
    poll := .top (clock - 3600 * nsPerSecond)
    threads := fun _ => none }

def withShared (world : World n) (shared : Shared) : World n :=
  { world with shared := shared }

def setThread (world : World n) (thread : Fin n) (pass : Option Pass) :
    World n :=
  { world with threads := Function.update world.threads thread pass }

/-- What holds of the tables and the stage of every running pass. -/
def Passes (good : Db → ProcessFile.Stage → Prop) (world : World n) : Prop :=
  ∀ thread pass, world.threads thread = some pass →
    good world.shared.db pass.stage

theorem passes_initial (good : Db → ProcessFile.Stage → Prop)
    (clock wall : Int) (fs : Fs) (db : Db) :
    (initial (n := n) clock wall fs db).Passes good := by
  intro thread pass busy
  cases busy

@[simp] theorem setThread_shared (world : World n) (thread : Fin n)
    (pass : Option Pass) : (world.setThread thread pass).shared =
      world.shared :=
  rfl

@[simp] theorem setThread_same (world : World n) (thread : Fin n)
    (pass : Option Pass) :
    (world.setThread thread pass).threads thread = pass := by
  simp [setThread]

theorem setThread_other (world : World n) {thread other : Fin n}
    (pass : Option Pass) (different : other ≠ thread) :
    (world.setThread thread pass).threads other = world.threads other := by
  simp [setThread, different]

@[simp] theorem withShared_shared (world : World n) (shared : Shared) :
    (world.withShared shared).shared = shared :=
  rfl

@[simp] theorem withShared_threads (world : World n) (shared : Shared) :
    (world.withShared shared).threads = world.threads :=
  rfl

@[simp] theorem setThread_withShared_threads (world : World n)
    (shared : Shared) (thread : Fin n) (pass : Option Pass) :
    ((world.withShared shared).setThread thread pass).threads =
      (world.setThread thread pass).threads :=
  rfl

end World

/-- The filters of the scan up to its critical section: name and debounce. -/
def scanAccepts (cfg : Config) (wall : Int) (name : String)
    (file : File) : Bool :=
  acceptedName name && decide (cfg.debounceSec ≤
    elapsedSeconds wall file.mtime)

section Step

variable {n : Nat} (platform : Platform) (cfg : Config)

/-- One action of the poll thread, a converter thread or the outside. -/
def step (world : World n) : Action n → Option (World n)
  | .advance ns =>
      some (world.withShared { world.shared with
        clock := world.shared.clock + ns })
  | .setWall wall =>
      some (world.withShared { world.shared with wall := wall })
  | .external path file =>
      some (world.withShared { world.shared with
        fs := Function.update world.shared.fs path file })
  | .beginScan =>
      match world.poll with
      | .top lastScan =>
          if cfg.pollIntervalSec ≤
              elapsedSeconds world.shared.clock lastScan then
            some { world with poll := .scan world.shared.clock }
          else some { world with poll := .cleanup lastScan }
      | _ => none
  | .scanFile name =>
      match world.poll, world.shared.fs (joinPath cfg.watchDir name) with
      | .scan now, some file =>
          if Bare name then
            if scanAccepts cfg world.shared.wall name file then
              some (world.withShared { world.shared with
                impl := world.shared.impl.scanEntry
                  (joinPath cfg.watchDir name) now })
            else some world
          else none
      | _, _ => none
  | .endScan =>
      match world.poll with
      | .scan now => some { world with poll := .cleanup now }
      | _ => none
  | .cleanup =>
      match world.poll with
      | .cleanup lastScan =>
          some { world.withShared { world.shared with
              impl := world.shared.impl.cleanupSeenTtl cfg
                world.shared.clock } with
            poll := .top lastScan }
      | _ => none
  | .pop thread =>
      match world.threads thread, world.shared.impl.popFile with
      | none, some (path, impl) =>
          some ((world.withShared { world.shared with
            impl := impl }).setThread thread (some ⟨path, .fingerprint⟩))
      | _, _ => none
  | .pass thread event =>
      match world.threads thread with
      | some pass =>
          (ProcessFile.next platform cfg pass.path world.shared pass.stage
            event).map fun result =>
              (world.withShared result.1).setThread thread
                (some ⟨pass.path, result.2⟩)
      | none => none
  | .finish thread =>
      match world.threads thread with
      | some ⟨_, .done⟩ => some (world.setThread thread none)
      | _ => none

end Step

def scanning {n : Nat} (name : String) : List (Action n) :=
  [.beginScan, .scanFile name, .endScan, .cleanup]

/-- A pass on the front of the queue, up to its lookup. -/
def hashing {n : Nat} (thread : Fin n) : List (Action n) :=
  [.pop thread, .pass thread (.fingerprint true true), .pass thread .go,
    .pass thread (.hash true), .pass thread .go,
    .pass thread (.lookup true)]

/-- The rest of a pass whose lookup found nothing. -/
def converting {n : Nat} (thread : Fin n) (date : String) (output : File)
    (inserted : Bool) : List (Action n) :=
  [.pass thread (.exif { date := date, source := .exif }),
    .pass thread (.allocate {}),
    .pass thread (.convert true (some output)), .pass thread .go,
    .pass thread (.hash true),
    .pass thread (.insert inserted "2024-05-03 00:00:00"),
    .pass thread (.move .renamed), .pass thread .go, .finish thread]

def importing {n : Nat} (thread : Fin n) (date : String) (output : File)
    (inserted : Bool) : List (Action n) :=
  hashing thread ++ converting thread date output inserted

/-- The digests of two photographs and of what they convert to. -/
def photographs : Platform :=
  .ofTable [([1], '1'), ([2], '2'), ([7], '7')]

/-- A start with one photograph in `watch_dir`. -/
def onePhotograph (n : Nat) : World n :=
  .initial 0 (60 * nsPerSecond)
    (fun path =>
      if path = "/watch/DSC_0001.NEF" then some ⟨[1], 0⟩ else none) {}

section Inversion

variable {n : Nat} {platform : Platform} {cfg : Config}
  {world after : World n}

theorem scanFile_cases {name : String}
    (taken : step platform cfg world (.scanFile name) = some after) :
    ∃ now file, world.poll = .scan now ∧
      world.shared.fs (joinPath cfg.watchDir name) = some file ∧
      Bare name ∧
      ((scanAccepts cfg world.shared.wall name file = true ∧
        after = world.withShared { world.shared with
          impl := world.shared.impl.scanEntry
            (joinPath cfg.watchDir name) now }) ∨
      (scanAccepts cfg world.shared.wall name file = false ∧
        after = world)) := by
  simp only [step] at taken
  split at taken
  · rename_i now file polling present
    split at taken
    · rename_i bare
      split at taken
      · rename_i accepted
        cases taken
        exact ⟨now, file, polling, present, bare, .inl ⟨accepted, rfl⟩⟩
      · rename_i rejected
        cases taken
        exact ⟨now, file, polling, present, bare,
          .inr ⟨by simpa using rejected, rfl⟩⟩
    · cases taken
  · cases taken

theorem beginScan_cases
    (taken : step platform cfg world .beginScan = some after) :
    after.shared = world.shared ∧ after.threads = world.threads := by
  simp only [step] at taken
  split at taken
  · split at taken
    · cases taken
      exact ⟨rfl, rfl⟩
    · cases taken
      exact ⟨rfl, rfl⟩
  · cases taken

theorem endScan_cases
    (taken : step platform cfg world .endScan = some after) :
    after.shared = world.shared ∧ after.threads = world.threads := by
  simp only [step] at taken
  split at taken
  · cases taken
    exact ⟨rfl, rfl⟩
  · cases taken

theorem cleanup_cases
    (taken : step platform cfg world .cleanup = some after) :
    after.shared = { world.shared with
        impl := world.shared.impl.cleanupSeenTtl cfg world.shared.clock } ∧
      after.threads = world.threads := by
  simp only [step] at taken
  split at taken
  · cases taken
    exact ⟨rfl, rfl⟩
  · cases taken

theorem pop_cases {thread : Fin n}
    (taken : step platform cfg world (.pop thread) = some after) :
    ∃ path impl, world.threads thread = none ∧
      world.shared.impl.popFile = some (path, impl) ∧
      after = (world.withShared { world.shared with
        impl := impl }).setThread thread (some ⟨path, .fingerprint⟩) := by
  simp only [step] at taken
  split at taken
  · rename_i path impl idle popped
    cases taken
    exact ⟨path, impl, idle, popped, rfl⟩
  · cases taken

theorem pass_cases {thread : Fin n} {event : ProcessFile.Event}
    (taken : step platform cfg world (.pass thread event) = some after) :
    ∃ pass shared stage, world.threads thread = some pass ∧
      ProcessFile.Step platform cfg pass.path world.shared pass.stage event
        shared stage ∧
      after = (world.withShared shared).setThread thread
        (some ⟨pass.path, stage⟩) := by
  simp only [step] at taken
  split at taken
  · rename_i pass busy
    obtain ⟨⟨shared, stage⟩, result, equality⟩ :=
      Option.map_eq_some_iff.mp taken
    exact ⟨pass, shared, stage, busy, ProcessFile.step_of_next result,
      equality.symm⟩
  · cases taken

theorem finish_cases {thread : Fin n}
    (taken : step platform cfg world (.finish thread) = some after) :
    ∃ path, world.threads thread = some ⟨path, .done⟩ ∧
      after = world.setThread thread none := by
  simp only [step] at taken
  split at taken
  · rename_i path ended
    cases taken
    exact ⟨path, ended, rfl⟩
  · cases taken

/-- An action leaves the tables and the cache alone and starts fresh passes
at most, or it executes one stage of one pass. -/
theorem step_cases {action : Action n}
    (taken : step platform cfg world action = some after) :
    ((∀ thread event, action ≠ .pass thread event) ∧
      after.shared.db = world.shared.db ∧
      after.shared.impl.fpCache = world.shared.impl.fpCache ∧
      ∀ thread pass, after.threads thread = some pass →
        world.threads thread = some pass ∨ pass.stage = .fingerprint) ∨
    (∃ thread event pass shared stage, action = .pass thread event ∧
      world.threads thread = some pass ∧
      ProcessFile.Step platform cfg pass.path world.shared pass.stage event
        shared stage ∧
      after = (world.withShared shared).setThread thread
        (some ⟨pass.path, stage⟩)) := by
  cases action with
  | advance ns =>
      cases taken
      exact .inl ⟨nofun, rfl, rfl, fun _ _ busy => .inl busy⟩
  | setWall wall =>
      cases taken
      exact .inl ⟨nofun, rfl, rfl, fun _ _ busy => .inl busy⟩
  | external path file =>
      cases taken
      exact .inl ⟨nofun, rfl, rfl, fun _ _ busy => .inl busy⟩
  | beginScan =>
      obtain ⟨shared, threads⟩ := beginScan_cases taken
      exact .inl ⟨nofun, by rw [shared], by rw [shared],
        fun _ _ busy => .inl (threads ▸ busy)⟩
  | endScan =>
      obtain ⟨shared, threads⟩ := endScan_cases taken
      exact .inl ⟨nofun, by rw [shared], by rw [shared],
        fun _ _ busy => .inl (threads ▸ busy)⟩
  | cleanup =>
      obtain ⟨shared, threads⟩ := cleanup_cases taken
      exact .inl ⟨nofun, by rw [shared], by rw [shared]; rfl,
        fun _ _ busy => .inl (threads ▸ busy)⟩
  | scanFile name =>
      obtain ⟨now, file, -, -, -, ⟨-, rfl⟩ | ⟨-, rfl⟩⟩ :=
        scanFile_cases taken
      · exact .inl ⟨nofun, rfl, world.shared.impl.scanEntry_fpCache _ now,
          fun _ _ busy => .inl busy⟩
      · exact .inl ⟨nofun, rfl, rfl, fun _ _ busy => .inl busy⟩
  | pop thread =>
      obtain ⟨path, impl, -, popped, rfl⟩ := pop_cases taken
      refine .inl ⟨nofun, rfl, (Impl.popFile_cases popped).2.2.2.2,
        fun other pass busy => ?_⟩
      by_cases same : other = thread
      · subst same
        rw [World.setThread_same] at busy
        cases busy
        exact .inr rfl
      · rw [World.setThread_other _ _ same] at busy
        exact .inl busy
  | pass thread event =>
      obtain ⟨pass, shared, stage, busy, passStep, equality⟩ :=
        pass_cases taken
      exact .inr ⟨thread, event, pass, shared, stage, rfl, busy, passStep,
        equality⟩
  | finish thread =>
      obtain ⟨path, -, rfl⟩ := finish_cases taken
      refine .inl ⟨nofun, rfl, rfl, fun other pass busy => ?_⟩
      by_cases same : other = thread
      · subst same
        rw [World.setThread_same] at busy
        cases busy
      · rw [World.setThread_other _ _ same] at busy
        exact .inl busy

/-- A property of the tables and the stage of every running pass is kept when
the passes keep it and tolerate each other. -/
theorem World.Passes.step {good : Db → ProcessFile.Stage → Prop}
    {action : Action n} (holds : world.Passes good)
    (taken : Worker.step platform cfg world action = some after)
    (fresh : ∀ db, good db .fingerprint)
    (own : ∀ thread event pass shared stage,
      action = .pass thread event → world.threads thread = some pass →
      ProcessFile.Step platform cfg pass.path world.shared pass.stage event
        shared stage →
      good world.shared.db pass.stage → good shared.db stage)
    (others : ∀ thread event pass shared stage,
      action = .pass thread event → world.threads thread = some pass →
      ProcessFile.Step platform cfg pass.path world.shared pass.stage event
        shared stage →
      ∀ other otherPass, other ≠ thread →
        world.threads other = some otherPass →
        good world.shared.db otherPass.stage →
          good shared.db otherPass.stage) :
    after.Passes good := by
  rcases step_cases taken with ⟨-, sameDb, -, before⟩ |
    ⟨thread, event, pass, shared, stage, rfl, busy, passStep, rfl⟩
  · intro thread pass busy
    rw [sameDb]
    rcases before thread pass busy with old | new
    · exact holds thread pass old
    · rw [new]
      exact fresh _
  · intro other otherPass otherBusy
    by_cases same : other = thread
    · subst same
      rw [World.setThread_same] at otherBusy
      cases otherBusy
      exact own other event pass shared stage rfl busy passStep
        (holds other pass busy)
    · rw [World.setThread_other _ _ same, World.withShared_threads]
        at otherBusy
      exact others thread event pass shared stage rfl busy passStep other
        otherPass same otherBusy (holds other otherPass otherBusy)

end Inversion

end Worker

end RawImport
