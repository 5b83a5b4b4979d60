import RawImport.Lib.History
import RawImport.Worker.Coverage
import RawImport.Worker.Pass

/-!
# The dead-letter counter and the history it counts

`fail_counts` is written in three critical sections: when a duplicate is
found, when a conversion succeeded, and in `move_to_dead_letter`.  The streak
of a path is counted from what the operations of the passes returned; every
verdict is entered once, and the counter is the streak after every step of
every run.
-/

namespace RawImport

namespace Worker

open PathText Transition

/-- How a pass on a path ended its attempt. -/
inductive Outcome where
  | failed | deadLettered | duplicate | converted
  deriving DecidableEq, Repr

section Streak

variable {n : Nat} (platform : Platform) (cfg : Config)

/-- The thread is about to move its file to the dead letters. -/
def movesDead (world : World n) (thread : Fin n) : Bool :=
  match world.threads thread with
  | some ⟨_, .moveDead _ _⟩ => true
  | _ => false

/-- The pass of the thread is on the path and at the counter of
`move_to_dead_letter`. -/
def Counts (world : World n) (path : Path) (thread : Fin n) : Prop :=
  ∃ failure, world.threads thread = some ⟨path, .countFailure failure⟩

def outcome (path : Path) (world : World n) (action : Action n) :
    Option Outcome :=
  match action with
  | .pass thread _ =>
      match world.threads thread with
      | some pass =>
          if pass.path = path then
            match pass.stage with
            | .clearDuplicate => some .duplicate
            | .clearConverted _ => some .converted
            | .countFailure _ =>
                if (step platform cfg world action).any
                    (movesDead · thread) then
                  some .deadLettered
                else some .failed
            | _ => none
          else none
      | none => none
  | _ => none

/-- The entries of failures since the start or the last other entry or
decision. -/
def streak (path : Path) : List (World n × Action n) → Nat
  | [] => 0
  | (world, action) :: past =>
      match outcome platform cfg path world action with
      | some .failed => streak path past + 1
      | some _ => 0
      | none => streak path past

/-- The verdict that a step of the thread brings, with the path of its
pass. -/
def told (thread : Fin n) (world : World n) (action : Action n) :
    Option (Path × ProcessFile.Verdict) :=
  match action with
  | .pass actor event =>
      if actor = thread then
        match world.threads thread with
        | some pass =>
            (ProcessFile.verdict platform pass.path world.shared pass.stage
              event).map fun verdict => (pass.path, verdict)
        | none => none
      else none
  | _ => none

/-- The verdicts of the passes of a thread, latest first. -/
def verdicts (thread : Fin n) (past : List (World n × Action n)) :
    List (Path × ProcessFile.Verdict) :=
  past.filterMap fun entry => told platform thread entry.1 entry.2

/-- The section of `fail_mtx` that a step of the thread is in, with the path
of its pass and what is entered there. -/
def entered (thread : Fin n) (world : World n) (action : Action n) :
    Option (Path × ProcessFile.Verdict) :=
  match action with
  | .pass actor _ =>
      if actor = thread then
        match world.threads thread with
        | some pass =>
            if pass.stage.counts then
              pass.stage.uncounted.map fun verdict => (pass.path, verdict)
            else none
        | none => none
      else none
  | _ => none

def entries (thread : Fin n) (past : List (World n × Action n)) :
    List (Path × ProcessFile.Verdict) :=
  past.filterMap fun entry => entered thread entry.1 entry.2

/-- The verdict of the running pass that is not entered yet. -/
def pendingVerdict (world : World n) (thread : Fin n) :
    Option (Path × ProcessFile.Verdict) :=
  match world.threads thread with
  | some pass =>
      pass.stage.uncounted.map fun verdict => (pass.path, verdict)
  | none => none

/-- What a pass in a section of `fail_mtx` came to, by the last verdict of
its thread. -/
def attempt (path : Path) (past : List (World n × Action n))
    (world : World n) (action : Action n) : Option Outcome :=
  match action with
  | .pass thread _ =>
      match world.threads thread with
      | some pass =>
          if pass.path = path ∧ pass.stage.counts = true then
            match (verdicts platform thread past).head? with
            | some (_, .failed) =>
                if (step platform cfg world action).any
                    (movesDead · thread) then
                  some .deadLettered
                else some .failed
            | some (_, .duplicate) => some .duplicate
            | some (_, .converted) => some .converted
            | none => none
          else none
      | none => none
  | _ => none

/-- The failed passes on the path since the start or the last successful
conversion, duplicate hit or dead-letter decision, by their verdicts. -/
def failures (path : Path) : List (World n × Action n) → Nat
  | [] => 0
  | (world, action) :: past =>
      match attempt platform cfg path past world action with
      | some .failed => failures path past + 1
      | some _ => 0
      | none => failures path past

end Streak

section Counter

variable {n : Nat} {platform : Platform} {cfg : Config}

/-- The number of failures that lead to the dead letters. -/
def limit (cfg : Config) : Int :=
  max cfg.deadLetterMaxRetries 1

/-- The counter section goes on to the move exactly on the last failure. -/
theorem movesDead_countFailure {world after : World n} {thread : Fin n}
    {path : Path} {event : ProcessFile.Event}
    (counts : Counts world path thread)
    (taken : step platform cfg world (.pass thread event) = some after) :
    (movesDead after thread = true ↔
      world.shared.impl.LastFailure cfg path) ∧
    after.shared.impl = (world.shared.impl.countFailure cfg path).1 := by
  obtain ⟨failure, busy⟩ := counts
  obtain ⟨pass, shared, stage, busy', passStep, rfl⟩ := pass_cases taken
  rw [busy] at busy'
  cases busy'
  generalize atStage : ProcessFile.Stage.countFailure failure = start
    at passStep
  cases passStep with
  | countFailure =>
      refine ⟨?_, rfl⟩
      rw [← world.shared.impl.countFailure_decides cfg path]
      cases decided : (world.shared.impl.countFailure cfg path).2.2 with
      | true => simp [movesDead]
      | false =>
          cases atStage
          cases failure <;>
            simp [movesDead, ProcessFile.Failure.after]
  | _ => cases atStage

/-- Only the stages of a pass write the counters. -/
theorem failCounts_elsewhere {world after : World n} {action : Action n}
    (outside : ∀ thread event, action ≠ .pass thread event)
    (taken : step platform cfg world action = some after) :
    after.shared.impl.failCounts = world.shared.impl.failCounts := by
  cases action with
  | pass thread event => exact (outside thread event rfl).elim
  | advance ns =>
      cases taken
      rfl
  | setWall wall =>
      cases taken
      rfl
  | external path file =>
      cases taken
      rfl
  | beginScan =>
      obtain ⟨shared, -⟩ := beginScan_cases taken
      rw [shared]
  | endScan =>
      obtain ⟨shared, -⟩ := endScan_cases taken
      rw [shared]
  | cleanup =>
      obtain ⟨shared, -⟩ := cleanup_cases taken
      rw [shared]
      rfl
  | scanFile name =>
      obtain ⟨now, file, -, -, -, ⟨-, rfl⟩ | ⟨-, rfl⟩⟩ :=
        scanFile_cases taken
      · exact (ProcessFile.scanEntry_frame _ _ now).2
      · rfl
  | pop thread =>
      obtain ⟨front, impl, -, popped, rfl⟩ := pop_cases taken
      obtain ⟨-, -, -, failCounts, -⟩ := Impl.popFile_cases popped
      exact failCounts
  | finish thread =>
      obtain ⟨ended, -, rfl⟩ := finish_cases taken
      rfl

theorem outcome_counter {world after : World n} {action : Action n}
    (path : Path)
    (taken : step platform cfg world action = some after) :
    (outcome platform cfg path world action = none ∧
      after.shared.impl.failCounts path =
        world.shared.impl.failCounts path) ∨
    ((outcome platform cfg path world action = some .duplicate ∨
        outcome platform cfg path world action = some .converted) ∧
      after.shared.impl.failCounts path = none) ∨
    (∃ thread event, action = .pass thread event ∧
      Counts world path thread ∧
      after.shared.impl = (world.shared.impl.countFailure cfg path).1 ∧
      outcome platform cfg path world action =
        if movesDead after thread then some .deadLettered
        else some .failed) := by
  cases action with
  | pass thread event =>
      obtain ⟨pass, shared, stage, busy, passStep, equality⟩ :=
        pass_cases taken
      by_cases same : pass.path = path
      · subst same
        generalize atStage : pass.stage = start at passStep
        cases passStep with
        | clearDuplicate =>
            right
            left
            constructor
            · left
              simp only [outcome, busy, atStage, if_true]
            · rw [equality]
              exact world.shared.impl.clearFailures_same pass.path
        | clearConverted =>
            right
            left
            constructor
            · right
              simp only [outcome, busy, atStage, if_true]
            · rw [equality]
              exact world.shared.impl.clearFailures_same pass.path
        | countFailure =>
            right
            right
            rename_i failure
            refine ⟨thread, _, rfl, ⟨failure, ?_⟩, ?_, ?_⟩
            · rw [busy, ← atStage]
            · rw [equality]
              rfl
            · simp only [outcome, busy, atStage, if_true, taken,
                Option.any_some]
        | _ =>
            left
            constructor
            · simp only [outcome, busy, atStage, if_true]
            · rw [equality]
              rfl
      · left
        constructor
        · simp only [outcome, busy, if_neg same]
        · rw [equality]
          exact passStep.failCounts_other (Ne.symm same)
  | _ =>
      refine .inl ⟨rfl, congrFun (failCounts_elsewhere ?_ taken) path⟩
      intro thread event same
      cases same

/-- The counters are the streaks, and below the limit. -/
def CountsStreak (platform : Platform) (cfg : Config)
    (state : Tracked (World n) (Action n)) : Prop :=
  ∀ path,
    (state.now.shared.impl.failCounts path).getD 0 =
        streak platform cfg path state.past ∧
      (streak platform cfg path state.past : Int) < limit cfg

theorem countsStreak_start (clock wall : Int) (fs : Fs) (db : Db) :
    CountsStreak platform cfg
      (.start (World.initial (n := n) clock wall fs db)) := by
  intro path
  refine ⟨rfl, ?_⟩
  show (0 : Int) < limit cfg
  unfold limit
  omega

/-- Below the limit, the next failure is the last exactly when it brings the
streak to the limit. -/
theorem lastFailure_iff {state : Tracked (World n) (Action n)}
    (counts : CountsStreak platform cfg state) (path : Path) :
    state.now.shared.impl.LastFailure cfg path ↔
      (streak platform cfg path state.past : Int) + 1 = limit cfg := by
  obtain ⟨count, below⟩ := counts path
  unfold Impl.LastFailure
  rw [count]
  unfold limit at below ⊢
  omega

theorem countsStreak_step {state after : Tracked (World n) (Action n)}
    {action : Action n} (counts : CountsStreak platform cfg state)
    (taken : track (step platform cfg) state action = some after) :
    CountsStreak platform cfg after := by
  obtain ⟨stepTaken, past⟩ := track_eq_some_iff.mp taken
  intro path
  obtain ⟨count, below⟩ := counts path
  have positive : 0 < limit cfg := by
    unfold limit
    omega
  rw [past]
  rcases outcome_counter path stepTaken with ⟨silent, same⟩ |
    ⟨cleared, none⟩ | ⟨thread, event, rfl, atCounter, impl, told⟩
  · simp only [streak, silent]
    rw [same]
    exact ⟨count, below⟩
  · rw [none]
    rcases cleared with told | told <;> simp only [streak, told] <;>
      exact ⟨rfl, positive⟩
  · obtain ⟨decides, -⟩ := movesDead_countFailure atCounter stepTaken
    by_cases last : state.now.shared.impl.LastFailure cfg path
    · rw [decides.mpr last, if_pos rfl] at told
      simp only [streak, told]
      rw [impl, Impl.countFailure_reached last]
      exact ⟨rfl, positive⟩
    · have undecided : movesDead after.now thread ≠ true :=
        fun moved => last (decides.mp moved)
      rw [if_neg undecided] at told
      simp only [streak, told]
      rw [impl, Impl.countFailure_below last, count]
      refine ⟨rfl, ?_⟩
      have different : (streak platform cfg path state.past : Int) + 1 ≠
          limit cfg := fun equal => last ((lastFailure_iff counts path).mpr
            equal)
      push_cast
      omega

/-- What a step does that is not part of a pass on the path: the counter
stays. -/
def KeepsCounter (platform : Platform) (cfg : Config)
    (state : Tracked (World n) (Action n)) (action : Action n) : Prop :=
  ∀ after, step platform cfg state.now action = some after →
    (∀ thread event, action ≠ .pass thread event) →
      after.shared.impl.failCounts = state.now.shared.impl.failCounts

/-- Every verdict of a thread was entered once and in its order, but for the
one of the running pass. -/
def Entered (platform : Platform)
    (state : Tracked (World n) (Action n)) : Prop :=
  ∀ thread, verdicts platform thread state.past =
    (pendingVerdict state.now thread).toList ++ entries thread state.past

theorem entered_start (clock wall : Int) (fs : Fs) (db : Db) :
    Entered platform (.start (World.initial (n := n) clock wall fs db)) :=
  fun _ => rfl

theorem told_of_ne (platform : Platform) {thread actor : Fin n}
    (other : actor ≠ thread) (world : World n) (event : ProcessFile.Event) :
    told platform thread world (.pass actor event) = none ∧
      entered thread world (.pass actor event) = none :=
  ⟨if_neg other, if_neg other⟩

/-- A step brings a verdict, which is pending then, or enters the pending
one. -/
theorem told_step {world after : World n} {action : Action n}
    (taken : step platform cfg world action = some after)
    (thread : Fin n) :
    (told platform thread world action).toList ++
        (pendingVerdict world thread).toList =
      (pendingVerdict after thread).toList ++
        (entered thread world action).toList := by
  have outside : told platform thread world action = none →
      entered thread world action = none →
      after.threads thread = world.threads thread →
      (told platform thread world action).toList ++
          (pendingVerdict world thread).toList =
        (pendingVerdict after thread).toList ++
          (entered thread world action).toList := by
    intro silent quiet same
    rw [silent, quiet, pendingVerdict, pendingVerdict, same,
      Option.toList_none, List.nil_append, List.append_nil]
  cases action with
  | advance ns =>
      cases taken
      exact outside rfl rfl rfl
  | setWall wall =>
      cases taken
      exact outside rfl rfl rfl
  | external path file =>
      cases taken
      exact outside rfl rfl rfl
  | beginScan =>
      obtain ⟨-, threads⟩ := beginScan_cases taken
      exact outside rfl rfl (by rw [threads])
  | endScan =>
      obtain ⟨-, threads⟩ := endScan_cases taken
      exact outside rfl rfl (by rw [threads])
  | cleanup =>
      obtain ⟨-, threads⟩ := cleanup_cases taken
      exact outside rfl rfl (by rw [threads])
  | scanFile name =>
      obtain ⟨now, file, -, -, -, ⟨-, rfl⟩ | ⟨-, rfl⟩⟩ :=
        scanFile_cases taken
      · exact outside rfl rfl rfl
      · exact outside rfl rfl rfl
  | pop actor =>
      obtain ⟨front, impl, idle, -, rfl⟩ := pop_cases taken
      by_cases same : thread = actor
      · subst same
        simp [told, entered, pendingVerdict, idle,
          ProcessFile.Stage.uncounted]
      · exact outside rfl rfl (World.setThread_other _ _ same)
  | finish actor =>
      obtain ⟨path, busy, rfl⟩ := finish_cases taken
      by_cases same : thread = actor
      · subst same
        simp [told, entered, pendingVerdict, busy,
          ProcessFile.Stage.uncounted]
      · exact outside rfl rfl (World.setThread_other _ _ same)
  | pass actor event =>
      obtain ⟨pass, shared, stage, busy, passStep, rfl⟩ := pass_cases taken
      by_cases same : thread = actor
      · subst same
        have moved := passStep.uncounted
        simp only [told, entered, pendingVerdict, busy, if_true,
          World.setThread_same]
        split at moved
        · rename_i counts
          rw [moved.1, moved.2, if_pos counts]
        · rename_i waits
          rw [moved, if_neg waits]
          cases told : ProcessFile.verdict platform pass.path world.shared
              pass.stage event with
          | none => simp
          | some verdict =>
              rw [ProcessFile.uncounted_of_verdict told]
              rfl
      · obtain ⟨silent, quiet⟩ :=
          told_of_ne platform (Ne.symm same) world event
        exact outside silent quiet (World.setThread_other _ _ same)

theorem entered_step {state after : Tracked (World n) (Action n)}
    {action : Action n} (entered' : Entered platform state)
    (taken : track (step platform cfg) state action = some after) :
    Entered platform after := by
  obtain ⟨stepTaken, past⟩ := track_eq_some_iff.mp taken
  intro thread
  have before := entered' thread
  have here := told_step stepTaken thread
  have split : ∀ {α β : Type} (f : α → Option β) (a : α) (l : List α),
      (a :: l).filterMap f = (f a).toList ++ l.filterMap f := by
    intro α β f a l
    rw [List.filterMap_cons]
    cases f a <;> rfl
  unfold verdicts entries at before ⊢
  rw [past, split, split, before, ← List.append_assoc, here,
    List.append_assoc]

/-- In a section of `fail_mtx` the last verdict is the one to be entered. -/
theorem attempt_eq {state : Tracked (World n) (Action n)}
    (entered' : Entered platform state) (path : Path) (action : Action n) :
    attempt platform cfg path state.past state.now action =
      outcome platform cfg path state.now action := by
  cases action with
  | pass thread event =>
      cases busy : state.now.threads thread with
      | none => simp only [attempt, outcome, busy]
      | some pass =>
          have told := entered' thread
          by_cases same : pass.path = path
          · cases stage : pass.stage <;>
              simp [attempt, outcome, same, stage, ProcessFile.Stage.counts,
                told, pendingVerdict, busy, ProcessFile.Stage.uncounted]
          · simp only [attempt, outcome, busy, same, false_and, if_false]
  | _ => rfl

/-- The counters are the streaks of failed passes, and below the limit. -/
def CountsFailures (platform : Platform) (cfg : Config)
    (state : Tracked (World n) (Action n)) : Prop :=
  ∀ path,
    (state.now.shared.impl.failCounts path).getD 0 =
        failures platform cfg path state.past ∧
      (failures platform cfg path state.past : Int) < limit cfg

/-- What the counter of a run rests on. -/
structure Counted (platform : Platform) (cfg : Config)
    (state : Tracked (World n) (Action n)) : Prop where
  counts : CountsStreak platform cfg state
  entered : Entered platform state
  failures : ∀ path, failures platform cfg path state.past =
    streak platform cfg path state.past

theorem counted_start (clock wall : Int) (fs : Fs) (db : Db) :
    Counted platform cfg
      (.start (World.initial (n := n) clock wall fs db)) where
  counts := countsStreak_start clock wall fs db
  entered := entered_start clock wall fs db
  failures _ := rfl

theorem counted_step {state after : Tracked (World n) (Action n)}
    {action : Action n} (counted : Counted platform cfg state)
    (taken : track (step platform cfg) state action = some after) :
    Counted platform cfg after where
  counts := countsStreak_step counted.counts taken
  entered := entered_step counted.entered taken
  failures path := by
    obtain ⟨-, past⟩ := track_eq_some_iff.mp taken
    have before := counted.failures path
    rw [past]
    simp only [Worker.failures, streak, attempt_eq counted.entered, before]

theorem Counted.countsFailures {state : Tracked (World n) (Action n)}
    (counted : Counted platform cfg state) :
    CountsFailures platform cfg state := by
  intro path
  rw [counted.failures path]
  exact counted.counts path

/-- A pass that enters its failure goes on to the dead letters exactly when
the failure brings the streak to the limit. -/
def DecidesAtLimit (platform : Platform) (cfg : Config)
    (state : Tracked (World n) (Action n)) (action : Action n) : Prop :=
  ∀ path thread event after, action = .pass thread event →
    step platform cfg state.now action = some after →
    entered thread state.now action = some (path, .failed) →
      (movesDead after thread = true ↔
        (failures platform cfg path state.past : Int) + 1 = limit cfg)

theorem counts_of_entered {world : World n} {thread : Fin n} {path : Path}
    {event : ProcessFile.Event}
    (failed : entered thread world (.pass thread event) =
      some (path, .failed)) : Counts world path thread := by
  unfold entered at failed
  cases busy : world.threads thread with
  | none => simp [busy] at failed
  | some pass =>
      obtain ⟨here, stage⟩ := pass
      cases stage <;>
        simp [busy, ProcessFile.Stage.counts,
          ProcessFile.Stage.uncounted] at failed
      subst failed
      exact ⟨_, busy⟩

/-- The counter over whole runs, for every limit, any number of converter
threads and any interleaving with scans and evictions: every verdict of a pass
is entered once, by its thread and for its path; after every step the counter
is the streak of failed passes, below the limit; a failure decides for the
dead letters exactly at the limit; and no step outside the passes changes
it. -/
theorem failCounts_streak (platform : Platform) (cfg : Config)
    (clock wall : Int) (fs : Fs) (db : Db) (actions : List (Action n)) :
    Visits (track (step platform cfg)) (fun state =>
          Entered platform state ∧ CountsFailures platform cfg state)
        (.start (World.initial (n := n) clock wall fs db)) actions ∧
      Along (track (step platform cfg)) (fun state action =>
          DecidesAtLimit platform cfg state action ∧
            KeepsCounter platform cfg state action)
        (.start (World.initial clock wall fs db)) actions := by
  have start : Counted platform cfg
      (.start (World.initial (n := n) clock wall fs db)) :=
    counted_start clock wall fs db
  constructor
  · exact (visits_of_preserved _
      (fun _ _ _ counted taken => counted_step counted taken) start
      actions).mono fun _ counted =>
        ⟨counted.entered, counted.countsFailures⟩
  · refine along_of_preserved (Counted platform cfg)
      (fun _ _ _ counted _ taken => counted_step counted taken) ?_ start
      (along_of_forall (fun _ _ => True.intro) _ actions)
    intro state action next counted _ taken
    constructor
    · intro path thread event after same stepTaken failed
      subst same
      rw [counted.failures path, ← lastFailure_iff counted.counts path]
      exact (movesDead_countFailure (counts_of_entered failed) stepTaken).1
    · intro after stepTaken outside
      funext path
      rcases outcome_counter path stepTaken with ⟨-, same⟩ |
        ⟨cleared, -⟩ | ⟨thread, event, rfl, -⟩
      · exact same
      · cases action with
        | pass thread event => exact (outside thread event rfl).elim
        | _ => rcases cleared with told | told <;> cases told
      · exact (outside thread event rfl).elim

end Counter

end Worker

end RawImport
