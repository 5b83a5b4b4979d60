import Mathlib.Tactic.Ring
import RawImport.Lib.Ledger
import RawImport.Metrics
import RawImport.Worker.Machine

/-!
# The books of the worker

`ProcessFile` tells `Metrics` about its stages, one locked call after another,
while other passes do the same and `/metrics` may be read at any moment.  The
counters are related by what every pass tells on its way.
-/

namespace RawImport

namespace Worker

namespace Books

open Transition

/-- What a pass tells `Metrics` between a stage and the next one. -/
def told (cfg : Config) (seconds : Rat) :
    ProcessFile.Stage → ProcessFile.Event → List Metrics.Call
  | .fingerprint, _ =>
      if cfg.fastFingerprint then []
      else [.observe .fastFingerprint seconds]
  | .cacheLookup _, _ => [.observe .fastFingerprint seconds]
  | .hash _, _ => [.observe .hash seconds]
  | .exif _, _ => [.observe .exif seconds]
  | .allocate _ _, _ => [.observe .db seconds]
  | .convert _, .convert true _ => [.observe .conversion seconds]
  | .convert _, _ =>
      [.observe .conversion seconds, .incConversionsCompleted "failed" 1]
  | .hashOutput _, _ => [.observe .hash seconds]
  | .insert _, _ => [.observe .db seconds]
  | .archive _, _ =>
      [.observe .archive seconds, .incConversionsCompleted "completed" 1]
  | _, _ => []

/-- The worker, `Metrics`, and what each thread is about to tell it. -/
structure Observed (n : Nat) where
  world : World n
  pending : Fin n → List Metrics.Call := fun _ => []
  metrics : Metrics.State := {}

inductive Action (n : Nat) where
  | work (action : Worker.Action n) (seconds : Rat)
  | tell (thread : Fin n)

variable {n : Nat}

def actor : Worker.Action n → Option (Fin n)
  | .pop thread => some thread
  | .pass thread _ => some thread
  | .finish thread => some thread
  | _ => none

def calls (cfg : Config) (seconds : Rat) (world : World n) :
    Worker.Action n → List Metrics.Call
  | .pop _ => [.incFilesDetected 1]
  | .pass thread event =>
      match world.threads thread with
      | some pass => told cfg seconds pass.stage event
      | none => []
  | _ => []

/-- A thread makes its calls before it goes on. -/
def step (platform : Platform) (cfg : Config) (observed : Observed n) :
    Action n → Option (Observed n)
  | .work action seconds =>
      match actor action with
      | some thread =>
          if observed.pending thread = [] then
            (Worker.step platform cfg observed.world action).map
              fun world =>
                { observed with
                  world := world
                  pending := Function.update observed.pending thread
                    (calls cfg seconds observed.world action) }
          else none
      | none =>
          (Worker.step platform cfg observed.world action).map
            fun world => { observed with world := world }
  | .tell thread =>
      match observed.pending thread with
      | call :: rest =>
          some { observed with
            metrics := Metrics.call observed.metrics call
            pending := Function.update observed.pending thread rest }
      | [] => none

namespace Observed

def initial (clock wall : Int) (fs : Fs) (db : Db) : Observed n :=
  { world := .initial clock wall fs db }

end Observed

/-! ## The way of a pass -/

/-- How far a pass has come with its calls. -/
inductive Phase where
  | detected
  | measured
  | hashed
  | reading
  | numbering
  | converting
  | converted
  | inserting
  | stored
  | leaving
  deriving DecidableEq, Repr

def phase : ProcessFile.Stage → Phase
  | .fingerprint => .detected
  | .cacheLookup _ => .detected
  | .hash _ => .measured
  | .cacheStore _ _ => .hashed
  | .lookup _ => .hashed
  | .exif _ => .reading
  | .allocate _ _ => .numbering
  | .convert _ => .converting
  | .clearConverted _ => .converted
  | .hashOutput _ => .converted
  | .insert _ => .inserting
  | .thumbnail _ => .stored
  | .archive _ => .stored
  | .deadLetter .hash => .hashed
  | _ => .leaving

/-- The legs of the way, with the calls on each. -/
inductive Leg (seconds : Rat) : Phase → List Metrics.Call → Phase → Prop
  | stay {phase : Phase} : Leg seconds phase [] phase
  | leave : Leg seconds .hashed [] .leaving
  | measure : Leg seconds .detected
      [.observe .fastFingerprint seconds] .measured
  | known : Leg seconds .detected
      [.observe .fastFingerprint seconds] .hashed
  | hash : Leg seconds .measured [.observe .hash seconds] .hashed
  | fresh : Leg seconds .hashed [] .reading
  | exif : Leg seconds .reading [.observe .exif seconds] .numbering
  | allocate : Leg seconds .numbering [.observe .db seconds] .converting
  | noSequence : Leg seconds .numbering [.observe .db seconds] .leaving
  | convert : Leg seconds .converting [.observe .conversion seconds]
      .converted
  | conversionFailed : Leg seconds .converting
      [.observe .conversion seconds, .incConversionsCompleted "failed" 1]
      .leaving
  | hashOutput : Leg seconds .converted [.observe .hash seconds] .inserting
  | insert : Leg seconds .inserting [.observe .db seconds] .stored
  | archive : Leg seconds .stored
      [.observe .archive seconds, .incConversionsCompleted "completed" 1]
      .leaving

theorem phase_hashed (srcHash : String) :
    phase (ProcessFile.hashed srcHash) = .hashed := by
  unfold ProcessFile.hashed
  split <;> rfl

theorem phase_after (failure : ProcessFile.Failure) :
    phase failure.after = .leaving := by
  cases failure <;> rfl

theorem leg_of_step {platform : Platform} {cfg : Config} {path : Path}
    {shared after : Shared} {stage stage' : ProcessFile.Stage}
    {event : ProcessFile.Event} (seconds : Rat)
    (step : ProcessFile.Step platform cfg path shared stage event after
      stage') :
    Leg seconds (phase stage) (told cfg seconds stage event)
      (phase stage') := by
  cases step with
  | fingerprint fast =>
      simp only [told, fast, if_true]
      exact .stay
  | noFingerprint slow =>
      simp only [told, slow, Bool.false_eq_true, if_false]
      exact .measure
  | cacheHit =>
      rw [phase_hashed]
      exact .known
  | cacheMiss => exact .measure
  | hashForCache => exact .hash
  | hashOnly =>
      rw [phase_hashed]
      exact .hash
  | cacheStore =>
      rw [phase_hashed]
      exact .stay
  | duplicate => exact .leave
  | fresh => exact .fresh
  | exif => exact .exif
  | noSequence => exact .noSequence
  | allocate => exact .allocate
  | converted => exact .convert
  | conversionFailed => exact .conversionFailed
  | hashOutput => exact .hashOutput
  | insert =>
      split
      · exact .insert
      · exact .insert
  | archive => exact .archive
  | @deadLetter failure =>
      cases failure with
      | hash => exact .leave
      | _ => exact .stay
  | countFailure =>
      split
      · exact .stay
      · rw [phase_after]
        exact .stay
  | moveDead =>
      split
      · exact .stay
      · rw [phase_after]
        exact .stay
  | alert =>
      rw [phase_after]
      exact .stay
  | _ => exact .stay

/-! ## Accounts -/

/-- A combination of the counters, and what it is worth to stand in a
phase. -/
structure Account where
  detected : Int := 0
  completed : Int := 0
  failed : Int := 0
  observed : Metrics.Stage → Int := fun _ => 0
  level : Phase → Int := fun _ => 0

namespace Account

/-- The combination in a state of `Metrics`. -/
def value (account : Account) (state : Metrics.State) : Int :=
  account.detected * state.filesDetectedTotal +
  account.completed * state.conversionsCompletedTotalCompleted +
  account.failed * state.conversionsCompletedTotalFailed +
  account.observed .conversion * state.dur.count +
  account.observed .fastFingerprint * state.fp.count +
  account.observed .hash * state.hash.count +
  account.observed .exif * state.exif.count +
  account.observed .db * state.db.count +
  account.observed .archive * state.arch.count

def delta (account : Account) : Metrics.Call → Int
  | .incFilesDetected n => account.detected * n
  | .incConversionsCompleted status n =>
      if status = "failed" then account.failed * n else account.completed * n
  | .observe stage _ => account.observed stage
  | .setQueueDepth _ => 0
  | .setDbSizeBytes _ => 0

theorem value_call (account : Account) (state : Metrics.State)
    (call : Metrics.Call) :
    account.value (Metrics.call state call) =
      account.value state + account.delta call := by
  cases call with
  | incFilesDetected n =>
      simp only [value, Metrics.call, Metrics.incFilesDetected, delta]
      ring
  | incConversionsCompleted status n =>
      simp only [value, Metrics.call, Metrics.incConversionsCompleted, delta]
      split
      · ring
      · ring
  | observe stage seconds =>
      cases stage <;>
        simp only [value, Metrics.call, Metrics.Stage.observe,
          Metrics.observeConversionDuration,
          Metrics.observeFastFingerprintDuration,
          Metrics.observeHashDuration, Metrics.observeExifDuration,
          Metrics.observeDbDuration, Metrics.observeArchiveDuration,
          Metrics.Series.observe, delta] <;>
        ring
  | setQueueDepth depth => simp [value, Metrics.call, delta]
  | setDbSizeBytes bytes => simp [value, Metrics.call, delta]

def levelOf (account : Account) : Option Pass → Int
  | some pass => account.level (phase pass.stage)
  | none => 0

/-- Every leg of the way is worth at least what it tells, and what is still
to tell never makes a pass worth more than the bound. -/
structure Sound (account : Account) (cap : Int) : Prop where
  idle : 0 ≤ cap
  leaving : account.level .leaving ≤ 0
  detected : account.detected ≤ account.level .detected
  enters : Ledger.Party.Fits account.delta cap
    ⟨account.level .detected, [.incFilesDetected 1]⟩
  legs : ∀ seconds before told after, Leg seconds before told after →
    account.level before + Ledger.worth account.delta told ≤
      account.level after
  fits : ∀ seconds before told after, Leg seconds before told after →
    Ledger.Party.Fits account.delta cap ⟨account.level after, told⟩

/-- Archive moves that are not yet counted as completed. -/
def archived : Account where
  completed := -1
  observed
    | .archive => 1
    | _ => 0

def converted : Account where
  completed := -1
  failed := -1
  observed
    | .conversion => 1
    | _ => 0
  level
    | .converted | .inserting | .stored => 1
    | _ => 0

def detecting : Account where
  detected := 1
  observed
    | .fastFingerprint => -1
    | _ => 0
  level
    | .detected => 1
    | _ => 0

/-- Dates read for more files than were measured. -/
def dated : Account where
  observed
    | .exif => 1
    | .fastFingerprint => -1
    | _ => 0
  level
    | .measured | .hashed | .reading => -1
    | _ => 0

def convertedDated : Account where
  observed
    | .conversion => 1
    | .exif => -1
    | _ => 0
  level
    | .numbering | .converting => -1
    | _ => 0

/-- Database calls beside the dates and the archive moves. -/
def stored : Account where
  observed
    | .db => 1
    | .exif => -1
    | .archive => -1
    | _ => 0
  level
    | .numbering => -1
    | .stored => 1
    | _ => 0

def neg (account : Account) : Account where
  detected := -account.detected
  completed := -account.completed
  failed := -account.failed
  observed stage := -account.observed stage
  level phase := -account.level phase

def legs : List (Phase × List Metrics.Call × Phase) :=
  [.detected, .measured, .hashed, .reading, .numbering, .converting,
      .converted, .inserting, .stored, .leaving].map
    (fun phase => (phase, [], phase)) ++
  [(.hashed, [], .leaving),
    (.detected, [.observe .fastFingerprint 0], .measured),
    (.detected, [.observe .fastFingerprint 0], .hashed),
    (.measured, [.observe .hash 0], .hashed),
    (.hashed, [], .reading),
    (.reading, [.observe .exif 0], .numbering),
    (.numbering, [.observe .db 0], .converting),
    (.numbering, [.observe .db 0], .leaving),
    (.converting, [.observe .conversion 0], .converted),
    (.converting,
      [.observe .conversion 0, .incConversionsCompleted "failed" 1],
      .leaving),
    (.converted, [.observe .hash 0], .inserting),
    (.inserting, [.observe .db 0], .stored),
    (.stored,
      [.observe .archive 0, .incConversionsCompleted "completed" 1],
      .leaving)]

def passes (account : Account) (cap : Int)
    (leg : Phase × List Metrics.Call × Phase) : Bool :=
  decide (account.level leg.1 + Ledger.worth account.delta leg.2.1 ≤
    account.level leg.2.2) &&
  Ledger.Party.within account.delta cap (account.level leg.2.2) leg.2.1

theorem passes_of_leg {account : Account} {cap : Int} {seconds : Rat}
    {before after : Phase} {told : List Metrics.Call}
    (all : ∀ leg ∈ legs, account.passes cap leg = true)
    (leg : Leg seconds before told after) :
    account.passes cap (before, told, after) = true := by
  cases leg with
  | stay =>
      apply all
      cases before <;> simp [legs]
  | leave => exact all (.hashed, [], .leaving) (by simp [legs])
  | measure =>
      exact all (.detected, [.observe .fastFingerprint 0], .measured)
        (by simp [legs])
  | known =>
      exact all (.detected, [.observe .fastFingerprint 0], .hashed)
        (by simp [legs])
  | hash =>
      exact all (.measured, [.observe .hash 0], .hashed) (by simp [legs])
  | fresh => exact all (.hashed, [], .reading) (by simp [legs])
  | exif =>
      exact all (.reading, [.observe .exif 0], .numbering) (by simp [legs])
  | allocate =>
      exact all (.numbering, [.observe .db 0], .converting) (by simp [legs])
  | noSequence =>
      exact all (.numbering, [.observe .db 0], .leaving) (by simp [legs])
  | convert =>
      exact all (.converting, [.observe .conversion 0], .converted)
        (by simp [legs])
  | conversionFailed =>
      exact all (.converting,
        [.observe .conversion 0, .incConversionsCompleted "failed" 1],
        .leaving) (by simp [legs])
  | hashOutput =>
      exact all (.converted, [.observe .hash 0], .inserting)
        (by simp [legs])
  | insert =>
      exact all (.inserting, [.observe .db 0], .stored) (by simp [legs])
  | archive =>
      exact all (.stored,
        [.observe .archive 0, .incConversionsCompleted "completed" 1],
        .leaving) (by simp [legs])

def Checks (account : Account) (cap : Int) : Prop :=
  0 ≤ cap ∧ account.level .leaving ≤ 0 ∧
    account.detected ≤ account.level .detected ∧
    Ledger.Party.within account.delta cap (account.level .detected)
      [.incFilesDetected 1] = true ∧
    ∀ leg ∈ legs, account.passes cap leg = true

instance (account : Account) (cap : Int) : Decidable (account.Checks cap) :=
  inferInstanceAs (Decidable (_ ∧ _ ∧ _ ∧ _ ∧ _))

theorem sound_of_checks {account : Account} {cap : Int}
    (checks : account.Checks cap) : account.Sound cap := by
  obtain ⟨idle, leaving, detected, enters, all⟩ := checks
  refine ⟨idle, leaving, detected, Ledger.Party.fits_iff_within.mpr enters,
    ?_, ?_⟩
  · intro seconds before told after leg
    have passes := passes_of_leg all leg
    exact of_decide_eq_true (Bool.and_eq_true_iff.mp passes).1
  · intro seconds before told after leg
    have passes := passes_of_leg all leg
    exact Ledger.Party.fits_iff_within.mpr
      (Bool.and_eq_true_iff.mp passes).2

end Account

/-! ## The books along a run -/

section Runs

open Ledger

variable {platform : Platform} {cfg : Config} {account : Account} {cap : Int}

def party (account : Account) (observed : Observed n) (thread : Fin n) :
    Party Metrics.Call :=
  ⟨account.levelOf (observed.world.threads thread),
    observed.pending thread⟩

def Kept (account : Account) (cap : Int) (observed : Observed n) : Prop :=
  Ledger.Books account.delta cap (account.value observed.metrics)
    (party account observed)

theorem kept_initial (account : Account) (bound : 0 ≤ cap)
    (clock wall : Int) (fs : Fs) (db : Db) :
    Kept account cap (Observed.initial (n := n) clock wall fs db) := by
  constructor
  · have zero : ∀ thread, (party account
        (Observed.initial (n := n) clock wall fs db) thread).balance
          account.delta = 0 :=
      fun _ => rfl
    rw [Finset.sum_eq_zero fun thread _ => zero thread]
    simp [Account.value, Observed.initial]
  · intro thread
    exact Party.fits_nil.mpr bound

theorem threads_of_no_actor {world after : World n}
    {action : Worker.Action n} (none : actor action = Option.none)
    (taken : Worker.step platform cfg world action = some after) :
    after.threads = world.threads := by
  cases action with
  | advance ns => cases taken; rfl
  | setWall wall => cases taken; rfl
  | external path file => cases taken; rfl
  | beginScan => exact (Worker.beginScan_cases taken).2
  | endScan => exact (Worker.endScan_cases taken).2
  | cleanup => exact (Worker.cleanup_cases taken).2
  | scanFile name =>
      obtain ⟨now, file, -, -, -, ⟨-, rfl⟩ | ⟨-, rfl⟩⟩ :=
        Worker.scanFile_cases taken
      · rfl
      · rfl
  | pop thread => cases none
  | pass thread event => cases none
  | finish thread => cases none

/-- A converter thread that has told everything acts: what it stands for
after the action is worth no less, and it fits. -/
theorem actor_sound {world after : World n} {action : Worker.Action n}
    {thread : Fin n} (sound : account.Sound cap) (seconds : Rat)
    (acts : actor action = some thread)
    (taken : Worker.step platform cfg world action = some after) :
    (∀ other, other ≠ thread →
      after.threads other = world.threads other) ∧
    account.levelOf (world.threads thread) +
        worth account.delta (calls cfg seconds world action) ≤
      account.levelOf (after.threads thread) ∧
    Party.Fits account.delta cap
      ⟨account.levelOf (after.threads thread),
        calls cfg seconds world action⟩ := by
  cases action with
  | pop acting =>
      cases acts
      obtain ⟨path, impl, idle, -, rfl⟩ := Worker.pop_cases taken
      refine ⟨fun other => World.setThread_other _ _, ?_, ?_⟩
      · rw [idle, World.setThread_same]
        simpa [Account.levelOf, calls, Account.delta, phase]
          using sound.detected
      · rw [World.setThread_same]
        exact sound.enters
  | pass acting event =>
      cases acts
      obtain ⟨pass, shared, stage, busy, passStep, rfl⟩ :=
        Worker.pass_cases taken
      have leg := leg_of_step seconds passStep
      refine ⟨fun other => World.setThread_other _ _, ?_, ?_⟩
      · simp only [calls, busy, World.setThread_same]
        exact sound.legs _ _ _ _ leg
      · simp only [calls, busy, World.setThread_same]
        exact sound.fits _ _ _ _ leg
  | finish acting =>
      cases acts
      obtain ⟨path, busy, rfl⟩ := Worker.finish_cases taken
      refine ⟨fun other => World.setThread_other _ _, ?_, ?_⟩
      · rw [busy, World.setThread_same]
        simpa [Account.levelOf, calls, phase] using sound.leaving
      · rw [World.setThread_same]
        exact Party.fits_nil.mpr sound.idle
  | _ => cases acts

theorem kept_step {observed after : Observed n} {action : Action n}
    (sound : account.Sound cap) (kept : Kept account cap observed)
    (taken : step platform cfg observed action = some after) :
    Kept account cap after := by
  cases action with
  | work action seconds =>
      simp only [step] at taken
      split at taken
      · rename_i thread acts
        split at taken
        · rename_i told
          obtain ⟨world, workTaken, rfl⟩ := Option.map_eq_some_iff.mp taken
          obtain ⟨others, grows, fits⟩ :=
            actor_sound sound seconds acts workTaken
          have moved := kept.move (i := thread) (by
            simp only [party, Party.balance, told, worth_nil,
              Int.sub_zero]
            exact Int.le_sub_right_of_add_le grows) fits
          have same : party account
              { observed with
                world := world
                pending := Function.update observed.pending thread
                  (calls cfg seconds observed.world action) } =
              Function.update (party account observed) thread
                ⟨account.levelOf (world.threads thread),
                  calls cfg seconds observed.world action⟩ := by
            funext other
            by_cases own : other = thread
            · subst own
              simp [party]
            · simp [party, own, others other own]
          unfold Kept
          rw [same]
          exact moved
        · cases taken
      · rename_i acts
        obtain ⟨world, workTaken, rfl⟩ := Option.map_eq_some_iff.mp taken
        have same : party account { observed with world := world } =
            party account observed := by
          funext other
          simp [party, threads_of_no_actor acts workTaken]
        unfold Kept
        rw [same]
        exact kept
  | tell thread =>
      simp only [step] at taken
      split at taken
      · rename_i call rest pending
        cases taken
        have posted := kept.post (i := thread) pending
        have same : party account
            { observed with
              metrics := Metrics.call observed.metrics call
              pending := Function.update observed.pending thread rest } =
            Function.update (party account observed) thread
              ⟨(party account observed thread).level, rest⟩ := by
          funext other
          by_cases own : other = thread
          · subst own
            simp [party]
          · simp [party, own]
        unfold Kept
        rw [same, Account.value_call]
        exact posted
      · cases taken

/-- A sound account is bounded in every state, and is not positive while no
thread is inside `ProcessFile`. -/
theorem value_le {observed : Observed n} (kept : Kept account cap observed) :
    account.value observed.metrics ≤ n * cap := by
  have bound := kept.total_le_card
  rwa [Fintype.card_fin] at bound

/-- No thread is inside `ProcessFile` or about to report. -/
def Observed.Idle (observed : Observed n) : Prop :=
  ∀ thread, observed.world.threads thread = none ∧
    observed.pending thread = []

theorem value_le_zero {observed : Observed n}
    (kept : Kept account cap observed) (idle : observed.Idle) :
    account.value observed.metrics ≤ 0 := by
  have zero : ∀ thread, (party account observed thread).balance
      account.delta = 0 := by
    intro thread
    obtain ⟨free, told⟩ := idle thread
    simp [party, Party.balance, Account.levelOf, free, told]
  have bound := kept.total_le
  rwa [Finset.sum_eq_zero fun thread _ => zero thread] at bound

/-- The counters of a reading: conversions completed against archive moves,
results against conversions, detected files against fingerprints, dates and
conversions, and database calls; the two gauges stay at zero. -/
structure Agree (slack : Int) (state : Metrics.State) : Prop where
  completed : state.arch.count - slack ≤
      state.conversionsCompletedTotalCompleted ∧
    state.conversionsCompletedTotalCompleted ≤ state.arch.count
  results : state.dur.count - slack ≤
      state.conversionsCompletedTotalCompleted +
        state.conversionsCompletedTotalFailed ∧
    state.conversionsCompletedTotalCompleted +
      state.conversionsCompletedTotalFailed ≤ state.dur.count
  detected : state.filesDetectedTotal - slack ≤ state.fp.count ∧
    state.fp.count ≤ state.filesDetectedTotal
  dated : state.exif.count ≤ state.fp.count
  converted : state.dur.count ≤ state.exif.count
  stored : state.exif.count + state.arch.count - slack ≤ state.db.count ∧
    state.db.count ≤ state.exif.count + state.arch.count + slack
  gauges : state.queueDepth = 0 ∧ state.dbSizeBytes = 0

/-- The accounts with their bounds for one thread. -/
def accounts : List (Account × Int) :=
  [(.archived, 1), (Account.archived.neg, 0), (.converted, 1),
    (Account.converted.neg, 0), (.detecting, 1), (Account.detecting.neg, 0),
    (.dated, 0), (.convertedDated, 0), (.stored, 1), (Account.stored.neg, 1)]

theorem accounts_sound : ∀ entry ∈ accounts, entry.1.Sound entry.2 := by
  have checks : ∀ entry ∈ accounts, entry.1.Checks entry.2 := by decide
  intro entry member
  exact Account.sound_of_checks (checks entry member)

theorem agree_of_values {slack : Int} {state : Metrics.State}
    (values : ∀ entry ∈ accounts,
      entry.1.value state ≤ slack * entry.2)
    (gauges : state.queueDepth = 0 ∧ state.dbSizeBytes = 0) :
    Agree slack state := by
  simp only [accounts, List.forall_mem_cons, Account.value, Account.neg,
    Account.archived, Account.converted, Account.detecting, Account.dated,
    Account.convertedDated, Account.stored] at values
  obtain ⟨archived, archivedNeg, converted, convertedNeg, detecting,
    detectingNeg, dated, convertedDated, stored, storedNeg, -⟩ := values
  constructor
  case gauges => exact gauges
  all_goals omega

def Counts : Metrics.Call → Prop
  | .setQueueDepth _ => False
  | .setDbSizeBytes _ => False
  | _ => True

theorem counts_told (cfg : Config) (seconds : Rat)
    (stage : ProcessFile.Stage) (event : ProcessFile.Event) :
    ∀ call ∈ told cfg seconds stage event, Counts call := by
  unfold told
  split
  case h_1 =>
    split
    · simp
    · simp [Counts]
  all_goals simp [Counts]

theorem counts_calls (cfg : Config) (seconds : Rat) (world : World n)
    (action : Worker.Action n) :
    ∀ call ∈ calls cfg seconds world action, Counts call := by
  unfold calls
  split
  · simp [Counts]
  · split
    · exact counts_told cfg seconds _ _
    · simp
  · simp

/-- No thread sets a gauge. -/
structure Unset (observed : Observed n) : Prop where
  pending : ∀ thread, ∀ call ∈ observed.pending thread, Counts call
  gauges : observed.metrics.queueDepth = 0 ∧
    observed.metrics.dbSizeBytes = 0

theorem call_gauges {state : Metrics.State} {call : Metrics.Call}
    (counts : Counts call) :
    (Metrics.call state call).queueDepth = state.queueDepth ∧
      (Metrics.call state call).dbSizeBytes = state.dbSizeBytes := by
  cases call with
  | setQueueDepth depth => exact counts.elim
  | setDbSizeBytes bytes => exact counts.elim
  | incFilesDetected n => exact ⟨rfl, rfl⟩
  | incConversionsCompleted status n =>
      simp only [Metrics.call, Metrics.incConversionsCompleted]
      split <;> exact ⟨rfl, rfl⟩
  | observe stage seconds => cases stage <;> exact ⟨rfl, rfl⟩

theorem counts_update {pending : Fin n → List Metrics.Call}
    (all : ∀ thread, ∀ call ∈ pending thread, Counts call) {thread : Fin n}
    {told : List Metrics.Call} (new : ∀ call ∈ told, Counts call) :
    ∀ other, ∀ call ∈ Function.update pending thread told other,
      Counts call := by
  intro other call member
  by_cases own : other = thread
  · subst own
    rw [Function.update_self] at member
    exact new call member
  · rw [Function.update_of_ne own] at member
    exact all other call member

theorem unset_step {observed after : Observed n} {action : Action n}
    (unset : Unset observed)
    (taken : step platform cfg observed action = some after) :
    Unset after := by
  cases action with
  | work action seconds =>
      simp only [step] at taken
      split at taken
      · rename_i thread acts
        split at taken
        · obtain ⟨world, -, rfl⟩ := Option.map_eq_some_iff.mp taken
          exact ⟨counts_update unset.pending
            (counts_calls cfg seconds observed.world action),
            unset.gauges⟩
        · cases taken
      · obtain ⟨world, -, rfl⟩ := Option.map_eq_some_iff.mp taken
        exact ⟨unset.pending, unset.gauges⟩
  | tell thread =>
      simp only [step] at taken
      split at taken
      · rename_i call rest pending
        cases taken
        have counts : Counts call :=
          unset.pending thread call (pending ▸ List.mem_cons_self)
        obtain ⟨depth, bytes⟩ := @call_gauges observed.metrics call counts
        refine ⟨counts_update unset.pending fun told member => ?_,
          depth.trans unset.gauges.1, bytes.trans unset.gauges.2⟩
        exact unset.pending thread told
          (pending ▸ List.mem_cons_of_mem _ member)
      · cases taken

/-- The counters of every reading of `/metrics`, between any two locked calls
of any interleaving: they agree up to one call for each converter thread, and
exactly while no thread is inside `ProcessFile`. -/
theorem books_run (platform : Platform) (cfg : Config) (clock wall : Int)
    (fs : Fs) (db : Db) (actions : List (Action n)) :
    Visits (step platform cfg)
      (fun observed => Agree n observed.metrics ∧
        (observed.Idle → Agree 0 observed.metrics))
      (Observed.initial (n := n) clock wall fs db) actions := by
  refine (visits_of_preserved
    (fun observed => (∀ entry ∈ accounts, Kept entry.1 entry.2 observed) ∧
      Unset observed) ?_ ?_ actions).mono ?_
  · rintro observed action after ⟨kept, unset⟩ taken
    refine ⟨fun entry member => ?_, unset_step unset taken⟩
    exact kept_step (accounts_sound entry member) (kept entry member) taken
  · refine ⟨fun entry member => ?_, fun thread call => ?_, rfl, rfl⟩
    · exact kept_initial entry.1 (accounts_sound entry member).idle clock
        wall fs db
    · simp [Observed.initial]
  · rintro observed ⟨kept, unset⟩
    refine ⟨agree_of_values (fun entry member => ?_) unset.gauges,
      fun idle => agree_of_values (fun entry member => ?_) unset.gauges⟩
    · exact value_le (kept entry member)
    · rw [Int.zero_mul]
      exact value_le_zero (kept entry member) idle

end Runs

end Books

end Worker

end RawImport
