import RawImport.Worker.FailureCounts

/-!
# Failures and the files that follow

The counter of a path is meant to be forgotten when its file disappears from
`watch_dir`.  A scan only adds to the queue, and `cleanup_seen_ttl` evicts
from `seen`; neither touches `fail_counts`.  A file that appears under a path
therefore inherits what the last pass on the path left there.
-/

namespace RawImport

namespace Worker

open PathText Transition

section NewFiles

variable {n : Nat}

/-- Going back from the end of a scan, the path was absent up to the scan's
beginning. -/
def AbsentFromScan (path : Path) : List (World n × Action n) → Prop
  | [] => False
  | (world, action) :: past =>
      world.shared.fs path = none ∧
        (action = .beginScan ∨ AbsentFromScan path past)

/-- Going back from now, the path was absent up to a scan that did not find
it either. -/
def MissedByScan (path : Path) : List (World n × Action n) → Prop
  | [] => False
  | (world, action) :: past =>
      world.shared.fs path = none ∧
        ((action = .endScan ∧ AbsentFromScan path past) ∨
          MissedByScan path past)

instance decidableAbsentFromScan (path : Path) :
    (past : List (World n × Action n)) → Decidable (AbsentFromScan path past)
  | [] => .isFalse id
  | (_, _) :: past =>
      have := decidableAbsentFromScan path past
      inferInstanceAs (Decidable (_ ∧ _))

instance decidableMissedByScan (path : Path) :
    (past : List (World n × Action n)) → Decidable (MissedByScan path past)
  | [] => .isFalse id
  | (_, _) :: past =>
      have := decidableMissedByScan path past
      inferInstanceAs (Decidable (_ ∧ _))

variable (platform : Platform) (cfg : Config)

def lastOutcome (path : Path) : List (World n × Action n) → Option Outcome
  | [] => none
  | (world, action) :: past =>
      match outcome platform cfg path world action with
      | some told => some told
      | none => lastOutcome path past

/-- Every attempt on the path was an undecided failure. -/
def FailedOnly (path : Path) (past : List (World n × Action n)) : Prop :=
  ∀ entry ∈ past, outcome platform cfg path entry.1 entry.2 = none ∨
    outcome platform cfg path entry.1 entry.2 = some .failed

/-- From this world on, the first dead-letter decision about the path takes
the full number of failed passes. -/
def FullAttempts (path : Path) (world : World n) : Prop :=
  ∀ actions reached, run (track (step platform cfg)) (.start world)
      actions = some reached →
    FailedOnly platform cfg path reached.past →
    ∀ action after, step platform cfg reached.now action = some after →
      outcome platform cfg path reached.now action = some .deadLettered →
        (streak platform cfg path reached.past : Int) + 1 = limit cfg

/-- The step makes a file appear under the path. -/
def Appears (path : Path) (world after : World n) : Prop :=
  world.shared.fs path = none ∧ after.shared.fs path ≠ none

/-- A file that appears under a path that a scan has missed starts with no
failure and all its attempts. -/
def StartsAfresh (state : Tracked (World n) (Action n))
    (action : Action n) : Prop :=
  ∀ path after, step platform cfg state.now action = some after →
    Appears path state.now after → MissedByScan path state.past →
      (after.shared.impl.failCounts path).getD 0 = 0 ∧
        FullAttempts platform cfg path after

/-- A file appears under a path that a scan has missed only when the last
attempt on the path was no undecided failure. -/
def NoOpenFailure (state : Tracked (World n) (Action n))
    (action : Action n) : Prop :=
  ∀ path after, step platform cfg state.now action = some after →
    Appears path state.now after → MissedByScan path state.past →
      lastOutcome platform cfg path state.past ≠ some .failed

variable {platform cfg}

theorem streak_eq_zero_iff (path : Path)
    (past : List (World n × Action n)) :
    streak platform cfg path past = 0 ↔
      lastOutcome platform cfg path past ≠ some .failed := by
  induction past with
  | nil => simp [streak, lastOutcome]
  | cons entry past ih =>
      obtain ⟨world, action⟩ := entry
      cases told : outcome platform cfg path world action with
      | none =>
          simp only [streak, lastOutcome, told]
          exact ih
      | some attempt =>
          cases attempt <;> simp [streak, lastOutcome, told]

/-- A file appears by a copy, a conversion or from outside; no counter
changes with it. -/
theorem failCounts_of_appears {path : Path} {world after : World n}
    {action : Action n}
    (taken : step platform cfg world action = some after)
    (appears : Appears path world after) :
    after.shared.impl.failCounts path =
      world.shared.impl.failCounts path := by
  rcases outcome_counter path taken with ⟨-, same⟩ | ⟨cleared, -⟩ |
    ⟨thread, event, rfl, atCounter, -⟩
  · exact same
  · cases action with
    | pass thread event =>
        obtain ⟨pass, shared, stage, busy, passStep, rfl⟩ :=
          pass_cases taken
        exfalso
        generalize atStage : pass.stage = start at passStep
        cases passStep with
        | clearDuplicate => exact appears.2 appears.1
        | clearConverted => exact appears.2 appears.1
        | countFailure => exact appears.2 appears.1
        | _ => simp [outcome, busy, atStage] at cleared
    | _ => rcases cleared with told | told <;> cases told
  · obtain ⟨failure, busy⟩ := atCounter
    obtain ⟨pass, shared, stage, busy', passStep, rfl⟩ := pass_cases taken
    rw [busy] at busy'
    cases busy'
    generalize atStage : ProcessFile.Stage.countFailure failure = start
      at passStep
    cases passStep with
    | countFailure => exact (appears.2 appears.1).elim
    | _ => cases atStage

/-- While the path only fails, its counter is what it was plus the
streak. -/
def CountsOn (platform : Platform) (cfg : Config) (path : Path)
    (before : Int) (state : Tracked (World n) (Action n)) : Prop :=
  FailedOnly platform cfg path state.past →
    (state.now.shared.impl.failCounts path).getD 0 =
      before + streak platform cfg path state.past

theorem countsOn_step {path : Path} {before : Int}
    {state after : Tracked (World n) (Action n)} {action : Action n}
    (counts : CountsOn platform cfg path before state)
    (taken : track (step platform cfg) state action = some after) :
    CountsOn platform cfg path before after := by
  obtain ⟨stepTaken, past⟩ := track_eq_some_iff.mp taken
  intro failedOnly
  rw [past] at failedOnly ⊢
  have count := counts fun entry member =>
    failedOnly entry (List.mem_cons_of_mem _ member)
  have here := failedOnly _ List.mem_cons_self
  rcases outcome_counter path stepTaken with ⟨silent, same⟩ |
    ⟨told | told, -⟩ | ⟨thread, event, rfl, atCounter, impl, told⟩
  · simp only [streak, silent]
    rw [same]
    exact count
  · rw [told] at here
    rcases here with never | never <;> cases never
  · rw [told] at here
    rcases here with never | never <;> cases never
  · obtain ⟨decides, -⟩ := movesDead_countFailure atCounter stepTaken
    by_cases last : state.now.shared.impl.LastFailure cfg path
    · rw [decides.mpr last, if_pos rfl] at told
      rw [told] at here
      rcases here with never | never <;> cases never
    · have undecided : movesDead after.now thread ≠ true :=
        fun moved => last (decides.mp moved)
      rw [if_neg undecided] at told
      simp only [streak, told]
      rw [impl, Impl.countFailure_below last, count]
      push_cast
      omega

theorem lastFailure_of_deadLettered {path : Path} {world after : World n}
    {action : Action n}
    (taken : step platform cfg world action = some after)
    (told : outcome platform cfg path world action = some .deadLettered) :
    world.shared.impl.LastFailure cfg path := by
  rcases outcome_counter path taken with ⟨silent, -⟩ | ⟨other | other, -⟩ |
    ⟨thread, event, rfl, atCounter, -, decided⟩
  · rw [silent] at told
    cases told
  · rw [other] at told
    cases told
  · rw [other] at told
    cases told
  · rw [decided] at told
    apply (movesDead_countFailure atCounter taken).1.mp
    by_contra undecided
    rw [if_neg undecided] at told
    cases told

def BelowLimit (cfg : Config) (world : World n) : Prop :=
  ∀ path, (world.shared.impl.failCounts path).getD 0 < limit cfg

theorem belowLimit_step {world after : World n} {action : Action n}
    (below : BelowLimit cfg world)
    (taken : step platform cfg world action = some after) :
    BelowLimit cfg after := by
  intro path
  have before := below path
  rcases outcome_counter path taken with ⟨-, same⟩ | ⟨-, none⟩ |
    ⟨thread, event, -, -, impl, -⟩
  · rw [same]
    exact before
  · rw [none]
    unfold limit
    simp only [Option.getD_none]
    omega
  · rw [impl]
    by_cases last : world.shared.impl.LastFailure cfg path
    · rw [Impl.countFailure_reached last]
      unfold limit
      simp only [Option.getD_none]
      omega
    · rw [Impl.countFailure_below last]
      unfold Impl.LastFailure at last
      unfold limit
      omega

/-- Below the limit, a path without failures has all its attempts left. -/
theorem fullAttempts_of_zero {path : Path} {world : World n}
    (below : BelowLimit cfg world)
    (zero : (world.shared.impl.failCounts path).getD 0 = 0) :
    FullAttempts platform cfg path world := by
  intro actions reached result failedOnly action after taken told
  have count : CountsOn platform cfg path 0 reached :=
    (visits_of_preserved (CountsOn platform cfg path 0)
      (fun _ _ _ counts taken => countsOn_step counts taken)
      (by intro _; simpa [Tracked.start, streak] using zero)
      actions).final result
  have stillBelow : BelowLimit cfg reached.now :=
    (visits_of_preserved
      (fun state : Tracked (World n) (Action n) => BelowLimit cfg state.now)
      (fun _ _ _ below taken =>
        belowLimit_step below (track_eq_some_iff.mp taken).1)
      below actions).final result
  have last := lastFailure_of_deadLettered taken told
  have bound := stillBelow path
  unfold Impl.LastFailure at last
  rw [count failedOnly] at last bound
  unfold limit at bound ⊢
  omega

/-- A new file starts afresh exactly when no failure is open on its path. -/
theorem startsAfresh_iff {state : Tracked (World n) (Action n)}
    {action : Action n} (counts : CountsStreak platform cfg state) :
    StartsAfresh platform cfg state action ↔
      NoOpenFailure platform cfg state action := by
  have count : ∀ path after,
      step platform cfg state.now action = some after →
      Appears path state.now after →
      (after.shared.impl.failCounts path).getD 0 =
        streak platform cfg path state.past := by
    intro path after taken appears
    rw [failCounts_of_appears taken appears]
    exact (counts path).1
  constructor
  · intro afresh path after taken appears missed
    apply (streak_eq_zero_iff path state.past).mp
    have zero := (afresh path after taken appears missed).1
    rw [count path after taken appears] at zero
    exact Int.ofNat_eq_zero.mp zero
  · intro resolved path after taken appears missed
    have none := (streak_eq_zero_iff path state.past).mpr
      (resolved path after taken appears missed)
    have zero : (after.shared.impl.failCounts path).getD 0 = 0 := by
      rw [count path after taken appears, none]
      rfl
    refine ⟨zero, fullAttempts_of_zero ?_ zero⟩
    apply belowLimit_step _ taken
    intro other
    rw [(counts other).1]
    exact (counts other).2

/-- New files over whole runs, for any number of converter threads and any
history of files that vanish and come back: every file that appears under a
path missed by a scan starts without failures and with all its attempts
exactly when no such file finds the last attempt on its path an undecided
failure. -/
theorem startsAfresh_run_iff (platform : Platform) (cfg : Config)
    (clock wall : Int) (fs : Fs) (db : Db) (actions : List (Action n)) :
    Along (track (step platform cfg)) (StartsAfresh platform cfg)
        (.start (World.initial (n := n) clock wall fs db)) actions ↔
      Along (track (step platform cfg)) (NoOpenFailure platform cfg)
        (.start (World.initial clock wall fs db)) actions := by
  refine along_congr (CountsStreak platform cfg) ?_ ?_
    (countsStreak_start clock wall fs db)
    (along_of_forall (fun _ _ => True.intro) _ actions)
  · intro state action after counts _ taken
    exact countsStreak_step counts taken
  · intro state action after counts _ _
    exact startsAfresh_iff counts

/-- One failed pass, then the photograph is gone for a whole scan. -/
def vanished : List (Action 1) :=
  scanning "DSC_0001.NEF" ++
    [.pop 0, .pass 0 (.fingerprint true true), .pass 0 .go,
      .pass 0 (.hash false), .pass 0 .go, .pass 0 .go, .finish 0,
      .external "/watch/DSC_0001.NEF" none, .advance 10000000000,
      .beginScan, .endScan, .cleanup]

def nextPhotograph : Action 1 :=
  .external "/watch/DSC_0001.NEF" (some ⟨[2], 0⟩)

/-- The second photograph of a name starts with the failure of the first. -/
theorem new_file_inherits_failure :
    (∃ state after,
      run (track (step photographs {})) (.start (onePhotograph 1))
        vanished = some state ∧
      MissedByScan "/watch/DSC_0001.NEF" state.past ∧
      step photographs {} state.now nextPhotograph = some after ∧
      after.shared.impl.failCounts "/watch/DSC_0001.NEF" = some 1) ∧
    ¬Along (track (step photographs {})) (StartsAfresh photographs {})
      (.start (onePhotograph 1)) (vanished ++ [nextPhotograph]) := by
  have inherited : ∃ state,
      run (track (step photographs {})) (.start (onePhotograph 1))
        vanished = some state ∧
      MissedByScan "/watch/DSC_0001.NEF" state.past ∧
      state.now.shared.fs "/watch/DSC_0001.NEF" = none ∧
      state.now.shared.impl.failCounts "/watch/DSC_0001.NEF" = some 1 :=
    exists_run_of_decide (by decide +kernel)
  obtain ⟨state, reached, missed, absent, count⟩ := inherited
  refine ⟨⟨state, _, reached, missed, rfl, count⟩, ?_⟩
  intro along
  have afresh := along.last reached (track_of_step rfl)
    "/watch/DSC_0001.NEF" _ rfl ⟨absent, by simp⟩ missed
  have zero : (1 : Int) = 0 := by
    simpa [count] using afresh.1
  cases zero

end NewFiles

end Worker

end RawImport
