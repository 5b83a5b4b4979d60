import RawImport.Worker.Ownership

/-!
# What the in-flight marker covers

The marker is meant to stand as long as a pass has file-system work left.  It
is released in `move_to_dead_letter` before the counter is read and at the end
of a pass, for whichever pass on the path comes there first.  This module
shows which of these releases come too early.
-/

namespace RawImport

namespace Worker

open PathText Transition

/-- One more counted failure of the path reaches the dead-letter limit. -/
def Impl.LastFailure (cfg : Config) (impl : Impl) (path : Path) : Prop :=
  cfg.deadLetterMaxRetries ≤ (impl.failCounts path).getD 0 + 1

instance (cfg : Config) (impl : Impl) (path : Path) :
    Decidable (impl.LastFailure cfg path) :=
  inferInstanceAs (Decidable (_ ≤ _))

namespace Impl

theorem countFailure_decides (cfg : Config) (impl : Impl) (path : Path) :
    (impl.countFailure cfg path).2.2 = true ↔ impl.LastFailure cfg path := by
  unfold countFailure LastFailure
  simp only
  split
  · rename_i reached
    exact ⟨fun _ => reached, fun _ => rfl⟩
  · rename_i below
    constructor
    · intro decided
      cases decided
    · intro reached
      exact (below reached).elim

theorem countFailure_below {cfg : Config} {impl : Impl} {path : Path}
    (below : ¬impl.LastFailure cfg path) :
    ((impl.countFailure cfg path).1.failCounts path).getD 0 =
      (impl.failCounts path).getD 0 + 1 := by
  unfold countFailure
  unfold LastFailure at below
  simp [below]

theorem countFailure_reached {cfg : Config} {impl : Impl} {path : Path}
    (reached : impl.LastFailure cfg path) :
    (impl.countFailure cfg path).1.failCounts path = none := by
  unfold countFailure
  unfold LastFailure at reached
  simp [reached]

theorem countFailure_other (cfg : Config) (impl : Impl)
    {path other : Path} (different : other ≠ path) :
    (impl.countFailure cfg path).1.failCounts other =
      impl.failCounts other := by
  unfold countFailure
  simp only
  split
  · simp [different]
  · simp [different]

theorem clearFailures_same (impl : Impl) (path : Path) :
    (impl.clearFailures path).failCounts path = none := by
  simp [clearFailures]

theorem clearFailures_other (impl : Impl) {path other : Path}
    (different : other ≠ path) :
    (impl.clearFailures path).failCounts other = impl.failCounts other := by
  simp [clearFailures, different]

end Impl

namespace ProcessFile

/-- The pass still has a file-system operation on its path to perform.  A
failed pass has one when its failure is the last. -/
def Stage.Pending (cfg : Config) (impl : Impl) (path : Path) : Stage → Prop
  | .deadLetter _ => impl.LastFailure cfg path
  | .countFailure _ => impl.LastFailure cfg path
  | .alert _ _ => False
  | .release => False
  | .done => False
  | _ => True

/-- The pass has failed and is not counted yet. -/
def Stage.Uncounted : Stage → Prop
  | .deadLetter _ => True
  | .countFailure _ => True
  | _ => False

theorem Stage.pending_congr {cfg : Config} {impl impl' : Impl} {path : Path}
    (same : impl'.failCounts path = impl.failCounts path) (stage : Stage) :
    stage.Pending cfg impl' path ↔ stage.Pending cfg impl path := by
  cases stage <;> simp [Stage.Pending, Impl.LastFailure, same]

theorem Failure.after_not_pending (cfg : Config) (impl : Impl) (path : Path)
    (failure : Failure) : ¬failure.after.Pending cfg impl path := by
  cases failure <;> exact id

section Frame

variable {platform : Platform} {cfg : Config} {path : Path}
  {shared after : Shared} {stage stage' : Stage} {event : Event}

theorem Step.failCounts_other {other : Path}
    (step : Step platform cfg path shared stage event after stage')
    (different : other ≠ path) :
    after.impl.failCounts other = shared.impl.failCounts other := by
  cases step with
  | clearDuplicate => exact shared.impl.clearFailures_other different
  | clearConverted => exact shared.impl.clearFailures_other different
  | countFailure => exact shared.impl.countFailure_other cfg different
  | _ => rfl

/-- A pass with work left had work left before, and its marker was not
touched, unless it released the marker before its last failure. -/
theorem Step.pending_before
    (step : Step platform cfg path shared stage event after stage')
    (pending : stage'.Pending cfg after.impl path) :
    (stage.Pending cfg shared.impl path ∧
      after.impl.inflight = shared.impl.inflight) ∨
    (∃ failure, stage = .deadLetter failure ∧
      shared.impl.LastFailure cfg path) := by
  cases step with
  | deadLetter =>
      right
      exact ⟨_, rfl, pending⟩
  | countFailure =>
      left
      by_cases reached : shared.impl.LastFailure cfg path
      · exact ⟨reached, (countFailure_queue cfg shared.impl path).2.2⟩
      · have undecided : (shared.impl.countFailure cfg path).2.2 ≠ true :=
          fun decided => reached
            ((shared.impl.countFailure_decides cfg path).mp decided)
        rw [if_neg undecided] at pending
        exact (Failure.after_not_pending cfg _ path _ pending).elim
  | alert => exact (Failure.after_not_pending cfg _ path _ pending).elim
  | release => exact pending.elim
  | _ => exact .inl ⟨trivial, rfl⟩

end Frame

end ProcessFile

section Coverage

variable {n : Nat}

/-- Every path with work left in some pass is in flight. -/
def Covered (cfg : Config) (world : World n) : Prop :=
  ∀ thread pass, world.threads thread = some pass →
    pass.stage.Pending cfg world.shared.impl pass.path →
      pass.path ∈ world.shared.impl.inflight

def NoneElsewhere (cfg : Config) (world : World n) (thread : Fin n)
    (path : Path) : Prop :=
  ∀ other pass, other ≠ thread → world.threads other = some pass →
    pass.path = path → ¬pass.stage.Pending cfg world.shared.impl path

/-- The counter section on a path without a marker is not about to make the
failure of another uncounted pass the last one. -/
def NotForOthers (cfg : Config) (world : World n) (thread : Fin n)
    (path : Path) : Prop :=
  path ∉ world.shared.impl.inflight →
    ¬world.shared.impl.LastFailure cfg path →
      cfg.deadLetterMaxRetries ≤
          (world.shared.impl.failCounts path).getD 0 + 2 →
        ∀ other pass, other ≠ thread → world.threads other = some pass →
          pass.path = path → ¬pass.stage.Uncounted

/-- The marker is not released while work is left: a pass enters
`move_to_dead_letter` with a failure that is not the last, no pass releases
the marker of another one, and no counted failure makes the failure of a pass
behind its release the last. -/
def ReleasesLate (cfg : Config) (world : World n) : Action n → Prop
  | .pass thread _ => ∀ pass, world.threads thread = some pass →
      match pass.stage with
      | .deadLetter _ =>
          ¬world.shared.impl.LastFailure cfg pass.path ∧
            NoneElsewhere cfg world thread pass.path
      | .countFailure _ => NotForOthers cfg world thread pass.path
      | .release => NoneElsewhere cfg world thread pass.path
      | _ => True
  | _ => True

/-- The marker covers the work, and no counter is negative. -/
structure CoverInvariant (cfg : Config) (world : World n) : Prop where
  covered : Covered cfg world
  counts : ∀ path, 0 ≤ (world.shared.impl.failCounts path).getD 0

theorem coverInvariant_initial (cfg : Config) (clock wall : Int) (fs : Fs)
    (db : Db) :
    CoverInvariant cfg (World.initial (n := n) clock wall fs db) := by
  refine ⟨?_, fun path => Int.le_refl 0⟩
  intro thread pass busy
  cases busy

/-- Steps that leave the counters alone, keep the markers and start no
pass. -/
theorem CoverInvariant.congr {cfg : Config} {world after : World n}
    (invariant : CoverInvariant cfg world)
    (inflight : ∀ path, path ∈ world.shared.impl.inflight →
      path ∈ after.shared.impl.inflight)
    (failCounts : after.shared.impl.failCounts =
      world.shared.impl.failCounts)
    (threads : ∀ thread pass, after.threads thread = some pass →
      world.threads thread = some pass ∨
        pass.path ∈ after.shared.impl.inflight) :
    CoverInvariant cfg after := by
  constructor
  · intro thread pass busy pending
    rcases threads thread pass busy with before | marked
    · rw [ProcessFile.Stage.pending_congr
        (congrFun failCounts pass.path)] at pending
      exact inflight pass.path
        (invariant.covered thread pass before pending)
    · exact marked
  · intro path
    rw [failCounts]
    exact invariant.counts path

theorem counts_step {platform : Platform} {cfg : Config} {path : Path}
    {shared after : Shared} {stage stage' : ProcessFile.Stage}
    {event : ProcessFile.Event}
    (step : ProcessFile.Step platform cfg path shared stage event after
      stage')
    (counts : ∀ other, 0 ≤ (shared.impl.failCounts other).getD 0)
    (other : Path) : 0 ≤ (after.impl.failCounts other).getD 0 := by
  by_cases same : other = path
  · subst same
    cases step with
    | clearDuplicate =>
        rw [shared.impl.clearFailures_same]
        exact Int.le_refl 0
    | clearConverted =>
        rw [shared.impl.clearFailures_same]
        exact Int.le_refl 0
    | countFailure =>
        by_cases reached : shared.impl.LastFailure cfg other
        · rw [Impl.countFailure_reached reached]
          exact Int.le_refl 0
        · rw [Impl.countFailure_below reached]
          have before := counts other
          omega
    | _ => exact counts other
  · rw [step.failCounts_other same]
    exact counts other

/-- What a step on a path does to another pass with work left on it. -/
theorem covered_other {platform : Platform} {cfg : Config}
    {world : World n} {thread other : Fin n} {pass otherPass : Pass}
    {shared : Shared} {stage : ProcessFile.Stage}
    {event : ProcessFile.Event} (invariant : CoverInvariant cfg world)
    (late : ReleasesLate cfg world (.pass thread event))
    (busy : world.threads thread = some pass)
    (step : ProcessFile.Step platform cfg pass.path world.shared pass.stage
      event shared stage)
    (different : other ≠ thread)
    (otherBusy : world.threads other = some otherPass)
    (samePath : otherPass.path = pass.path)
    (pending : otherPass.stage.Pending cfg shared.impl pass.path) :
    pass.path ∈ shared.impl.inflight := by
  have before :
      otherPass.stage.Pending cfg world.shared.impl pass.path →
        pass.path ∈ world.shared.impl.inflight := by
    intro work
    have marked := invariant.covered other otherPass otherBusy
    rw [samePath] at marked
    exact marked work
  have allowed := late pass busy
  have reset : shared.impl.failCounts pass.path = none →
      otherPass.stage.Pending cfg world.shared.impl pass.path := by
    intro none
    have count := invariant.counts pass.path
    cases atStage : otherPass.stage <;>
      simp only [atStage, ProcessFile.Stage.Pending, Impl.LastFailure,
        none, Option.getD_none] at pending ⊢ <;>
      omega
  generalize startedAt : pass.stage = start at step allowed
  cases step with
  | clearDuplicate =>
      exact before (reset (Impl.clearFailures_same _ _))
  | clearConverted =>
      exact before (reset (Impl.clearFailures_same _ _))
  | deadLetter =>
      exact (allowed.2 other otherPass different otherBusy samePath
        pending).elim
  | release =>
      exact (allowed other otherPass different otherBusy samePath
        pending).elim
  | countFailure =>
      rw [(ProcessFile.countFailure_queue cfg world.shared.impl
        pass.path).2.2]
      by_cases reached : world.shared.impl.LastFailure cfg pass.path
      · exact before (reset (Impl.countFailure_reached reached))
      · by_contra unmarked
        have counted := Impl.countFailure_below reached
        have silent := allowed unmarked reached
        have idle : ¬otherPass.stage.Pending cfg world.shared.impl
            pass.path := fun work => unmarked (before work)
        cases atStage : otherPass.stage <;>
          simp only [atStage, ProcessFile.Stage.Pending, Impl.LastFailure,
            not_true_eq_false] at pending idle reached
        · rw [counted] at pending
          refine silent (by omega) other otherPass different otherBusy
            samePath ?_
          rw [atStage]
          trivial
        · rw [counted] at pending
          refine silent (by omega) other otherPass different otherBusy
            samePath ?_
          rw [atStage]
          trivial
  | _ => exact before pending

theorem CoverInvariant.pass {platform : Platform} {cfg : Config}
    {world : World n} {thread : Fin n} {pass : Pass} {shared : Shared}
    {stage : ProcessFile.Stage} {event : ProcessFile.Event}
    (invariant : CoverInvariant cfg world)
    (late : ReleasesLate cfg world (.pass thread event))
    (busy : world.threads thread = some pass)
    (step : ProcessFile.Step platform cfg pass.path world.shared pass.stage
      event shared stage) :
    CoverInvariant cfg ((world.withShared shared).setThread thread
      (some ⟨pass.path, stage⟩)) := by
  refine ⟨?_, counts_step step invariant.counts⟩
  intro other otherPass otherBusy pending
  simp only [World.setThread_shared, World.withShared_shared]
    at pending ⊢
  by_cases same : other = thread
  · subst same
    rw [World.setThread_same] at otherBusy
    cases otherBusy
    rcases step.pending_before pending with ⟨before, inflight⟩ |
      ⟨failure, atStage, last⟩
    · rw [inflight]
      exact invariant.covered other pass busy before
    · have allowed := late pass busy
      rw [atStage] at allowed
      exact (allowed.1 last).elim
  · rw [World.setThread_other _ _ same] at otherBusy
    by_cases samePath : otherPass.path = pass.path
    · rw [samePath] at pending ⊢
      exact covered_other invariant late busy step same otherBusy samePath
        pending
    · rw [ProcessFile.Stage.pending_congr
        (step.failCounts_other samePath)] at pending
      exact step.inflight_other samePath
        (invariant.covered other otherPass otherBusy pending)

/-- While no marker is released early, every action keeps the cover. -/
theorem coverInvariant_step {platform : Platform} {cfg : Config}
    {world after : World n} {action : Action n}
    (invariant : CoverInvariant cfg world)
    (late : ReleasesLate cfg world action)
    (taken : step platform cfg world action = some after) :
    CoverInvariant cfg after := by
  cases action with
  | advance ns =>
      cases taken
      exact invariant.congr (fun _ => id) rfl fun _ _ => .inl
  | setWall wall =>
      cases taken
      exact invariant.congr (fun _ => id) rfl fun _ _ => .inl
  | external path file =>
      cases taken
      exact invariant.congr (fun _ => id) rfl fun _ _ => .inl
  | beginScan =>
      obtain ⟨shared, threads⟩ := beginScan_cases taken
      refine invariant.congr ?_ (by rw [shared]) ?_
      · rw [shared]
        exact fun _ => id
      · rw [threads]
        exact fun _ _ => .inl
  | endScan =>
      obtain ⟨shared, threads⟩ := endScan_cases taken
      refine invariant.congr ?_ (by rw [shared]) ?_
      · rw [shared]
        exact fun _ => id
      · rw [threads]
        exact fun _ _ => .inl
  | cleanup =>
      obtain ⟨shared, threads⟩ := cleanup_cases taken
      refine invariant.congr ?_ (by rw [shared]; rfl) ?_
      · rw [shared]
        exact fun _ => id
      · rw [threads]
        exact fun _ _ => .inl
  | scanFile name =>
      obtain ⟨now, file, -, -, -, ⟨-, rfl⟩ | ⟨-, rfl⟩⟩ :=
        scanFile_cases taken
      · obtain ⟨inflight, failCounts⟩ := ProcessFile.scanEntry_frame
          world.shared.impl (joinPath cfg.watchDir name) now
        refine invariant.congr ?_ failCounts fun _ _ => .inl
        intro path marked
        exact inflight ▸ marked
      · exact invariant
  | pop thread =>
      obtain ⟨path, impl, -, popped, rfl⟩ := pop_cases taken
      obtain ⟨-, inflight, -, failCounts, -⟩ := Impl.popFile_cases popped
      refine invariant.congr ?_ failCounts ?_
      · intro other marked
        simp only [World.setThread_shared, World.withShared_shared]
        rw [inflight]
        exact Finset.mem_insert_of_mem marked
      · intro other pass busy
        by_cases same : other = thread
        · subst same
          rw [World.setThread_same] at busy
          cases busy
          right
          simp only [World.setThread_shared, World.withShared_shared]
          rw [inflight]
          exact Finset.mem_insert_self _ _
        · rw [World.setThread_other _ _ same] at busy
          exact .inl busy
  | pass thread event =>
      obtain ⟨pass, shared, stage, busy, passStep, rfl⟩ := pass_cases taken
      exact invariant.pass late busy passStep
  | finish thread =>
      obtain ⟨path, -, rfl⟩ := finish_cases taken
      refine invariant.congr (fun _ => id) rfl ?_
      intro other pass busy
      by_cases same : other = thread
      · subst same
        rw [World.setThread_same] at busy
        cases busy
      · rw [World.setThread_other _ _ same] at busy
        exact .inl busy

theorem releasesLate_of_covered {platform : Platform} {cfg : Config}
    {world after : World n} {action : Action n}
    (taken : step platform cfg world action = some after)
    (covered : Covered cfg after) : ReleasesLate cfg world action := by
  cases action with
  | pass thread event =>
      intro pass busy
      obtain ⟨pass', shared, stage, busy', passStep, rfl⟩ :=
        pass_cases taken
      rw [busy] at busy'
      cases busy'
      have own : ∀ stage', stage = stage' →
          stage'.Pending cfg shared.impl pass.path →
            pass.path ∈ shared.impl.inflight := by
        intro stage' atStage pending
        subst atStage
        exact covered thread ⟨pass.path, stage⟩
          (World.setThread_same _ _ _) pending
      have elsewhere : ∀ other otherPass, other ≠ thread →
          world.threads other = some otherPass →
          otherPass.path = pass.path →
          otherPass.stage.Pending cfg shared.impl pass.path →
            pass.path ∈ shared.impl.inflight := by
        intro other otherPass different otherBusy samePath pending
        rw [← samePath] at pending ⊢
        exact covered other otherPass
          ((World.setThread_other _ _ different).trans otherBusy) pending
      generalize pass.stage = start at passStep
      cases passStep with
      | deadLetter =>
          have gone : pass.path ∉
              (world.shared.impl.releaseInflight pass.path).inflight :=
            Finset.notMem_erase _ _
          constructor
          · intro last
            exact gone (own _ rfl last)
          · intro other otherPass different otherBusy samePath pending
            exact gone (elsewhere other otherPass different otherBusy
              samePath pending)
      | release =>
          have gone : pass.path ∉
              (world.shared.impl.releaseInflight pass.path).inflight :=
            Finset.notMem_erase _ _
          intro other otherPass different otherBusy samePath pending
          exact gone (elsewhere other otherPass different otherBusy
            samePath pending)
      | countFailure =>
          intro unmarked below near other otherPass different otherBusy
            samePath uncounted
          rw [← (ProcessFile.countFailure_queue cfg world.shared.impl
            pass.path).2.2] at unmarked
          apply unmarked
          apply elsewhere other otherPass different otherBusy samePath
          have counted := Impl.countFailure_below below
          cases atStage : otherPass.stage <;>
            simp only [atStage, ProcessFile.Stage.Uncounted,
              ProcessFile.Stage.Pending, Impl.LastFailure]
              at uncounted ⊢ <;>
            omega
      | _ => trivial
  | _ => trivial

/-- The marker over whole runs, for any number of converter threads, any
directory contents, any clock and any interleaving: every state passed has
all paths with work left in flight exactly when no step releases a marker
early. -/
theorem covered_run_iff (platform : Platform) (cfg : Config)
    (clock wall : Int) (fs : Fs) (db : Db) (actions : List (Action n)) :
    Visits (step platform cfg) (Covered cfg)
        (World.initial (n := n) clock wall fs db) actions ↔
      Along (step platform cfg) (ReleasesLate cfg)
        (World.initial clock wall fs db) actions := by
  refine visits_iff_along (CoverInvariant cfg) ?_ ?_ ?_
    (coverInvariant_initial cfg clock wall fs db) actions
  · intro world invariant
    exact invariant.covered
  · intro world action after invariant late taken
    exact coverInvariant_step invariant late taken
  · intro world action after _ taken covered
    exact releasesLate_of_covered taken covered

/-- A pass that cannot read its file, up to the release of its marker. -/
def unreadable {n : Nat} (thread : Fin n) : List (Action n) :=
  [.pop thread, .pass thread (.fingerprint true true), .pass thread .go,
    .pass thread (.hash false), .pass thread .go]

/-- With one failure allowed, the dead-letter move of the failed pass is
still to come when its path is not in flight any more. -/
theorem dead_letter_not_covered :
    ∃ world,
      run (step photographs { deadLetterMaxRetries := 1 }) (onePhotograph 1)
        (scanning "DSC_0001.NEF" ++ unreadable 0) = some world ∧
      (∃ pass, world.threads 0 = some pass ∧
        pass.path = "/watch/DSC_0001.NEF" ∧
        pass.stage = .countFailure .hash ∧
        world.shared.impl.LastFailure { deadLetterMaxRetries := 1 }
          pass.path) ∧
      ¬Covered { deadLetterMaxRetries := 1 } world := by
  have released : ∃ world,
      run (step photographs { deadLetterMaxRetries := 1 }) (onePhotograph 1)
        (scanning "DSC_0001.NEF" ++ unreadable 0) = some world ∧
      world.threads 0 =
        some ⟨"/watch/DSC_0001.NEF", .countFailure .hash⟩ ∧
      world.shared.impl.LastFailure { deadLetterMaxRetries := 1 }
        "/watch/DSC_0001.NEF" ∧
      "/watch/DSC_0001.NEF" ∉ world.shared.impl.inflight :=
    exists_run_of_decide (by decide +kernel)
  obtain ⟨world, result, busy, last, unmarked⟩ := released
  refine ⟨world, result, ⟨_, busy, rfl, rfl, last⟩, ?_⟩
  intro covered
  exact unmarked (covered 0 _ busy last)

end Coverage

end Worker

end RawImport
