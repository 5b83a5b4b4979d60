import Mathlib.Algebra.Order.BigOperators.Group.Finset
import RawImport.Library.WorkerPool

/-!
# `Stop`

Once `stop_` is set a thread finishes the round it is in and leaves its loop.
A pass has finitely many stages, so the threads that `Stop` joins end, and
they leave no pass, marker or reconversion half done.
-/

namespace RawImport

namespace Worker.ProcessFile

def Stage.rank : Stage → Nat
  | .fingerprint => 14
  | .cacheLookup _ => 13
  | .hash _ => 12
  | .cacheStore _ _ => 11
  | .lookup _ => 10
  | .exif _ => 9
  | .allocate _ _ => 8
  | .convert _ => 7
  | .clearConverted _ => 6
  | .hashOutput _ => 5
  | .insert _ => 4
  | .thumbnail _ => 3
  | .archive _ => 2
  | .clearDuplicate => 3
  | .moveDuplicate => 2
  | .deadLetter _ => 5
  | .countFailure _ => 4
  | .moveDead _ _ => 3
  | .alert _ _ => 2
  | .release => 1
  | .done => 0

theorem Stage.rank_hashed (srcHash : String) : (hashed srcHash).rank ≤ 10 := by
  unfold hashed
  split
  · exact Nat.le_add_right 5 5
  · exact Nat.le_refl 10

theorem Failure.rank_after (failure : Failure) : failure.after.rank ≤ 1 := by
  cases failure with
  | hash => exact Nat.zero_le 1
  | sequence => exact Nat.zero_le 1
  | conversion => exact Nat.le_refl 1

theorem Step.rank_lt {platform : Platform} {cfg : Config} {path : Path}
    {shared after : Shared} {stage stage' : Stage} {event : Event}
    (step : Step platform cfg path shared stage event after stage') :
    stage'.rank < stage.rank := by
  cases step with
  | cacheHit => exact Nat.lt_of_le_of_lt (Stage.rank_hashed _) (by simp [Stage.rank])
  | hashOnly => exact Nat.lt_of_le_of_lt (Stage.rank_hashed _) (by simp [Stage.rank])
  | cacheStore => exact Nat.lt_of_le_of_lt (Stage.rank_hashed _) (by simp [Stage.rank])
  | insert =>
      split
      · exact Nat.lt_succ_self 3
      · exact Nat.lt_of_lt_of_le (Nat.lt_succ_self 2) (Nat.le_succ 3)
  | countFailure =>
      split
      · exact Nat.lt_succ_self 3
      · exact Nat.lt_of_le_of_lt (Failure.rank_after _) (by simp [Stage.rank])
  | moveDead =>
      split
      · exact Nat.lt_succ_self 2
      · exact Nat.lt_of_le_of_lt (Failure.rank_after _) (by simp [Stage.rank])
  | alert => exact Nat.lt_of_le_of_lt (Failure.rank_after _) (by simp [Stage.rank])
  | _ => simp [Stage.rank]

theorem exists_next (platform : Platform) (cfg : Config) (path : Path)
    (shared : Shared) (stage : Stage) (running : stage ≠ .done) :
    ∃ event result, next platform cfg path shared stage event =
      some result := by
  cases stage with
  | done => exact (running rfl).elim
  | fingerprint =>
      refine ⟨.fingerprint true true, ?_⟩
      simp only [next]
      split <;> exact ⟨_, rfl⟩
  | cacheLookup fp =>
      refine ⟨.go, ?_⟩
      simp only [next]
      split <;> exact ⟨_, rfl⟩
  | hash fp =>
      refine ⟨.hash true, ?_⟩
      simp only [next]
      split <;> exact ⟨_, rfl⟩
  | lookup srcHash =>
      refine ⟨.lookup true, ?_⟩
      simp only [next]
      split <;> exact ⟨_, rfl⟩
  | allocate srcHash ex =>
      refine ⟨.allocate {}, ?_⟩
      simp only [next]
      split <;> exact ⟨_, rfl⟩
  | convert job => exact ⟨.convert true none, _, rfl⟩
  | insert record =>
      refine ⟨.insert true "", ?_⟩
      simp only [next]
      split <;> exact ⟨_, rfl⟩
  | countFailure failure =>
      refine ⟨.go, ?_⟩
      simp only [next]
      split <;> exact ⟨_, rfl⟩
  | exif srcHash => exact ⟨.exif {}, _, rfl⟩
  | hashOutput job => exact ⟨.hash true, _, rfl⟩
  | thumbnail record => exact ⟨.thumbnail none, _, rfl⟩
  | alert failure newRetry => exact ⟨.alert true, _, rfl⟩
  | moveDuplicate => exact ⟨.move (.failed none), _, rfl⟩
  | archive record => exact ⟨.move (.failed none), _, rfl⟩
  | moveDead failure newRetry => exact ⟨.move (.failed none), _, rfl⟩
  | _ => exact ⟨.go, _, rfl⟩

end Worker.ProcessFile

namespace Worker.ReconvertDrain

def Stage.rank : Stage → Nat
  | .lookup _ => 5
  | .convert _ _ => 4
  | .hash _ _ => 3
  | .updateHash _ _ _ => 2
  | .finish _ _ _ => 1
  | .wait => 0

theorem Step.rank_lt {platform : Platform} {shared after : Shared}
    {stage stage' : Stage} {event : Event}
    (step : Step platform shared stage event after stage') :
    stage'.rank < stage.rank := by
  cases step <;> simp [Stage.rank]

theorem exists_next (platform : Platform) (shared : Shared) (stage : Stage)
    (working : stage ≠ .wait) :
    ∃ event result, next platform shared stage event = some result := by
  cases stage with
  | wait => exact (working rfl).elim
  | lookup job =>
      refine ⟨.lookup true, ?_⟩
      simp only [next]
      split <;> exact ⟨_, rfl⟩
  | convert job rec => exact ⟨.convert false false none, _, rfl⟩
  | hash job rec => exact ⟨.hash true, _, rfl⟩
  | updateHash job rec h => exact ⟨.updateHash true, _, rfl⟩
  | finish job h status => exact ⟨.finish true "", _, rfl⟩

end Worker.ReconvertDrain

namespace WorkerPool

open PathText Transition

variable {n m : Nat} {platform : Worker.Platform} {cfg : Config}

/-! ## What is left to do after `Stop` -/

/-- The steps a converter thread has left once `stop_` is set. -/
def threadRank : Place × Option Worker.Pass → Nat
  | (.exited, _) => 0
  | (.connecting _, _) => 1
  | (.top, _) => 1
  | (.processing, some pass) => 2 + pass.stage.rank
  | (.processing, none) => 2
  | (.looking, _) => 17

/-- The steps the drain thread has left once `stop_` is set. -/
def drainRank : DrainPlace → Worker.ReconvertDrain.Stage → Nat
  | .exited, _ => 0
  | .top, _ => 1
  | .working, stage => 1 + stage.rank
  | .looking, _ => 7

/-- The steps the poll thread needs once `stop_` is set. -/
def pollRank : Bool → Worker.Poll → Nat
  | false, _ => 0
  | true, .top _ => 1
  | true, .cleanup _ => 2
  | true, .scan _ => 3

namespace Pool

def thread (pool : Pool n m) (thread : Fin n) :
    Place × Option Worker.Pass :=
  (pool.threads thread, pool.world.threads thread)

def converterRank (pool : Pool n m) : Nat :=
  ∑ thread, threadRank (pool.thread thread)

/-- The threads behind the check of `stop_` without a file. -/
def lookers (pool : Pool n m) : Nat :=
  ∑ thread, if pool.threads thread = .looking then 1 else 0

end Pool

theorem threadRank_le (thread : Place × Option Worker.Pass) :
    threadRank thread ≤ 17 := by
  obtain ⟨place, pass⟩ := thread
  cases place with
  | processing =>
      cases pass with
      | none => exact Nat.le_add_left 2 15
      | some pass =>
          have bound : pass.stage.rank ≤ 14 := by
            cases pass.stage <;> simp [Worker.ProcessFile.Stage.rank]
          simp only [threadRank]
          omega
  | _ => simp [threadRank]

theorem drainRank_le (place : DrainPlace)
    (stage : Worker.ReconvertDrain.Stage) : drainRank place stage ≤ 7 := by
  cases place with
  | working =>
      have bound : stage.rank ≤ 5 := by
        cases stage <;> simp [Worker.ReconvertDrain.Stage.rank]
      simp only [drainRank]
      omega
  | _ => simp [drainRank]

theorem converterRank_le (pool : Pool n m) :
    pool.converterRank ≤ 17 * n := by
  have each : ∀ thread ∈ (Finset.univ : Finset (Fin n)),
      threadRank (pool.thread thread) ≤ 17 :=
    fun thread _ => threadRank_le _
  have total := Finset.sum_le_card_nsmul _ _ _ each
  rw [Finset.card_univ, Fintype.card_fin, smul_eq_mul] at total
  exact total.trans_eq (Nat.mul_comm n 17)

theorem lookers_le (pool : Pool n m) : pool.lookers ≤ n := by
  have each : ∀ thread ∈ (Finset.univ : Finset (Fin n)),
      (if pool.threads thread = .looking then 1 else 0) ≤ 1 := by
    intro thread _
    split
    · exact Nat.le_refl 1
    · exact Nat.zero_le 1
  have total := Finset.sum_le_card_nsmul _ _ _ each
  rw [Finset.card_univ, Fintype.card_fin, smul_eq_mul, Nat.mul_one] at total
  exact total

theorem converterRank_update {pool next : Pool n m} {thread : Fin n}
    (others : ∀ other, other ≠ thread →
      next.thread other = pool.thread other) :
    next.converterRank + threadRank (pool.thread thread) =
      pool.converterRank + threadRank (next.thread thread) := by
  have update : next.thread =
      Function.update pool.thread thread (next.thread thread) := by
    funext other
    by_cases same : other = thread
    · subst same
      rw [Function.update_self]
    · rw [Function.update_of_ne same, others other same]
  unfold Pool.converterRank
  rw [update, Function.update_self]
  exact sum_update threadRank pool.thread thread (next.thread thread)

/-- How a converter thread goes on. -/
inductive Advance (stop : Bool) (files : List Path) :
    Place × Option Worker.Pass → Place × Option Worker.Pass → Prop
  | move {before place : Place} {pass : Option Worker.Pass}
      (moves : Moves stop files before place) :
      Advance stop files (before, pass) (place, pass)
  | pop {pass : Option Worker.Pass} {path : Path} :
      Advance stop files (.looking, pass)
        (.processing, some ⟨path, .fingerprint⟩)
  | pass {path : Path} {stage stage' : Worker.ProcessFile.Stage}
      (later : stage'.rank < stage.rank) :
      Advance stop files (.processing, some ⟨path, stage⟩)
        (.processing, some ⟨path, stage'⟩)
  | finish {path : Path} :
      Advance stop files (.processing, some ⟨path, .done⟩) (.top, none)

/-- Behind `Stop` every step of a thread is one step less to take. -/
theorem Advance.rank_lt {stop : Bool} {files : List Path}
    {before after : Place × Option Worker.Pass}
    (advance : Advance stop files before after) (stopping : stop = true) :
    threadRank after < threadRank before := by
  cases advance with
  | move moves =>
      cases moves with
      | connected running => rw [stopping] at running; cases running
      | retry running => rw [stopping] at running; cases running
      | round running => rw [stopping] at running; cases running
      | giveUp => simp [threadRank]
      | stopped => simp [threadRank]
      | timeout => simp [threadRank]
  | pop => exact Nat.lt_succ_self 16
  | pass later => exact Nat.add_lt_add_left later 2
  | finish => exact Nat.lt_succ_self 1

def looks (place : Place) : Nat :=
  if place = .looking then 1 else 0

theorem Advance.looks_le {stop : Bool} {files : List Path}
    {before after : Place × Option Worker.Pass}
    (advance : Advance stop files before after) (stopping : stop = true) :
    looks after.1 ≤ looks before.1 := by
  cases advance with
  | move moves =>
      cases moves with
      | round running => rw [stopping] at running; cases running
      | timeout => exact Nat.zero_le 1
      | _ => exact Nat.le_refl 0
  | pop => exact Nat.zero_le 1
  | _ => exact Nat.le_refl 0

theorem threads_of_elsewhere {service after : Service n m}
    {action : Service.Action n m} (outside : elsewhere action)
    (taken : Service.step platform cfg service action = some after) :
    after.world.threads = service.world.threads := by
  cases action with
  | worker workerAction =>
      obtain ⟨world, workerTaken, rfl⟩ := Option.map_eq_some_iff.mp taken
      cases workerAction with
      | advance ns => cases workerTaken; rfl
      | setWall wall => cases workerTaken; rfl
      | external path file => cases workerTaken; rfl
      | _ => cases outside
  | _ => exact (impl_of_not_worker taken (by rintro _ ⟨⟩)).2.1

/-- A step of a converter thread moves that thread, and any other step none
of them. -/
theorem step_thread {pool next : Pool n m} {action : Action n m}
    (taken : step platform cfg pool action = some next) :
    (action.party ≠ .converter ∧ next.thread = pool.thread) ∨
    (action.party = .converter ∧ ∃ thread,
      (∀ other, other ≠ thread → next.thread other = pool.thread other) ∧
      Advance pool.stop pool.files (pool.thread thread)
        (next.thread thread) ∧
      (action.pops = true → pool.threads thread = .looking ∧
        next.threads thread = .processing)) := by
  have result := step_of_taken taken
  cases result with
  | @move _ thread place party pops moves =>
      refine .inr ⟨party, thread, ?_, ?_, ?_⟩
      · intro other different
        exact Prod.ext (Function.update_of_ne different _ _) rfl
      · have moved : (pool.setPlace thread place).thread thread =
            (place, pool.world.threads thread) :=
          Prod.ext (Function.update_self _ _ _) rfl
        rw [moved]
        exact .move moves
      · intro popping
        rw [pops] at popping
        cases popping
  | @pop thread service looking popped =>
      obtain ⟨world, workerTaken, rfl⟩ := Option.map_eq_some_iff.mp popped
      obtain ⟨path, impl, -, -, rfl⟩ := Worker.pop_cases workerTaken
      refine .inr ⟨rfl, thread, ?_, ?_, ?_⟩
      · intro other different
        exact Prod.ext (Function.update_of_ne different _ _)
          (Worker.World.setThread_other _ _ different)
      · simp only [Pool.thread, Pool.setPlace, Pool.world,
          Function.update_self, Worker.World.setThread_same, looking]
        exact .pop
      · intro _
        exact ⟨looking, Function.update_self _ _ _⟩
  | @pass thread event service processing passed =>
      obtain ⟨world, workerTaken, rfl⟩ := Option.map_eq_some_iff.mp passed
      obtain ⟨pass, shared, stage, busy, passStep, rfl⟩ :=
        Worker.pass_cases workerTaken
      refine .inr ⟨rfl, thread, ?_, ?_, by rintro ⟨⟩⟩
      · intro other different
        exact Prod.ext rfl (Worker.World.setThread_other _ _ different)
      · have before : pool.thread thread = (.processing, some pass) :=
          Prod.ext processing busy
        rw [before]
        simp only [Pool.thread, Pool.world, Worker.World.setThread_same,
          processing]
        exact .pass passStep.rank_lt
  | @finish thread service processing ended =>
      obtain ⟨world, workerTaken, rfl⟩ := Option.map_eq_some_iff.mp ended
      obtain ⟨path, busy, rfl⟩ := Worker.finish_cases workerTaken
      refine .inr ⟨rfl, thread, ?_, ?_, by rintro ⟨⟩⟩
      · intro other different
        exact Prod.ext (Function.update_of_ne different _ _)
          (Worker.World.setThread_other _ _ different)
      · have before : pool.thread thread =
            (.processing, some ⟨path, .done⟩) :=
          Prod.ext processing busy
        rw [before]
        simp only [Pool.thread, Pool.setPlace, Pool.world,
          Function.update_self, Worker.World.setThread_same]
        exact .finish
  | stopPolling => exact .inl ⟨by rintro ⟨⟩, rfl⟩
  | scan scan party polling scans scanned =>
      refine .inl ⟨by rw [party]; rintro ⟨⟩, ?_⟩
      obtain ⟨world, workerTaken, rfl⟩ := Option.map_eq_some_iff.mp scanned
      have threads : world.threads = pool.world.threads := by
        cases scan with
        | beginScan => exact (Worker.beginScan_cases workerTaken).2
        | endScan => exact (Worker.endScan_cases workerTaken).2
        | cleanup => exact (Worker.cleanup_cases workerTaken).2
        | _ => exact scans.elim
      funext other
      exact Prod.ext rfl (congrFun threads other)
  | scanFile scanned =>
      refine .inl ⟨by rintro ⟨⟩, ?_⟩
      obtain ⟨world, workerTaken, rfl⟩ := Option.map_eq_some_iff.mp scanned
      obtain ⟨now, file, -, -, -, ⟨-, rfl⟩ | ⟨-, rfl⟩⟩ :=
        Worker.scanFile_cases workerTaken
      · rfl
      · rfl
  | drainMove party moves => exact .inl ⟨by rw [party]; rintro ⟨⟩, rfl⟩
  | takeReconvert looking queued =>
      obtain ⟨-, threads, -⟩ := impl_of_not_worker queued (by rintro _ ⟨⟩)
      refine .inl ⟨by rintro ⟨⟩, ?_⟩
      funext other
      exact Prod.ext rfl (congrFun threads other)
  | drain working drained =>
      obtain ⟨-, threads, -⟩ := impl_of_not_worker drained (by rintro _ ⟨⟩)
      refine .inl ⟨by rintro ⟨⟩, ?_⟩
      funext other
      exact Prod.ext rfl (congrFun threads other)
  | elsewhere outside moved =>
      refine .inl ⟨by rintro ⟨⟩, ?_⟩
      have threads := threads_of_elsewhere outside moved
      funext other
      exact Prod.ext rfl (congrFun threads other)
  | stop => exact .inl ⟨by rintro ⟨⟩, rfl⟩

theorem stop_step {pool next : Pool n m} {action : Action n m}
    (stopping : pool.stop = true)
    (taken : step platform cfg pool action = some next) :
    next.stop = true := by
  cases step_of_taken taken with
  | stop => rfl
  | _ => exact stopping

def Action.isOf (party : Party) (action : Action n m) : Bool :=
  action.party == party

theorem converterRank_step {pool next : Pool n m} {action : Action n m}
    (stopping : pool.stop = true)
    (taken : step platform cfg pool action = some next) :
    next.converterRank + (if action.isOf .converter then 1 else 0) ≤
      pool.converterRank := by
  rcases step_thread taken with ⟨party, same⟩ |
    ⟨party, thread, others, advance, -⟩
  · have rank : next.converterRank = pool.converterRank := by
      unfold Pool.converterRank
      rw [same]
    simp [Action.isOf, party, rank]
  · have lower := advance.rank_lt stopping
    have change := converterRank_update others
    simp only [Action.isOf, party, beq_self_eq_true, if_true]
    omega

theorem lookers_step {pool next : Pool n m} {action : Action n m}
    (stopping : pool.stop = true)
    (taken : step platform cfg pool action = some next) :
    next.lookers + (if action.pops then 1 else 0) ≤ pool.lookers := by
  rcases step_thread taken with ⟨party, same⟩ |
    ⟨party, thread, others, advance, popping⟩
  · have places : next.threads = pool.threads := by
      funext other
      exact congrArg Prod.fst (congrFun same other)
    have pops : action.pops = false := by
      cases action with
      | pop other => exact (party rfl).elim
      | _ => rfl
    simp [Pool.lookers, places, pops]
  · have fewer := advance.looks_le stopping
    have update : next.threads =
        Function.update pool.threads thread (next.threads thread) := by
      funext other
      by_cases same : other = thread
      · subst same
        rw [Function.update_self]
      · rw [Function.update_of_ne same]
        exact congrArg Prod.fst (others other same)
    have change : ∑ other, looks (next.threads other) +
        looks (pool.threads thread) =
        ∑ other, looks (pool.threads other) + looks (next.threads thread) := by
      rw [update, Function.update_self]
      exact sum_update looks pool.threads thread (next.threads thread)
    cases pops : action.pops with
    | false =>
        have bound : looks (next.threads thread) ≤
          looks (pool.threads thread) := fewer
        simp only [Pool.lookers, Bool.false_eq_true, if_false]
        change ∑ other, looks (next.threads other) + 0 ≤
          ∑ other, looks (pool.threads other)
        omega
    | true =>
        obtain ⟨looking, processing⟩ := popping pops
        rw [looking, processing] at change
        exact Nat.le_of_eq change

theorem drain_of_worker {service after : Service n m}
    {action : Worker.Action n}
    (taken : Service.step platform cfg service (.worker action) =
      some after) : after.drain = service.drain := by
  obtain ⟨world, -, rfl⟩ := Option.map_eq_some_iff.mp taken
  rfl

theorem DrainMoves.rank_lt {stop : Bool}
    {reconverts : List ReconversionJob} {before place : DrainPlace}
    (moves : DrainMoves stop reconverts before place)
    (stopping : stop = true) (stage : Worker.ReconvertDrain.Stage) :
    drainRank place stage < drainRank before stage := by
  cases moves with
  | stopped => exact Nat.lt_succ_self 0
  | round running =>
      rw [stopping] at running
      cases running
  | timeout => simp [drainRank]

theorem drainRank_step {pool next : Pool n m} {action : Action n m}
    (stopping : pool.stop = true)
    (taken : step platform cfg pool action = some next) :
    drainRank next.drainer next.service.drain +
        (if action.isOf .drainer then 1 else 0) ≤
      drainRank pool.drainer pool.service.drain := by
  have result := step_of_taken taken
  cases result with
  | move party => simp [Action.isOf, party, Pool.setPlace]
  | pop looking popped =>
      simp only [drain_of_worker popped]
      exact Nat.le_refl _
  | pass processing passed =>
      simp only [drain_of_worker passed]
      exact Nat.le_refl _
  | finish processing ended =>
      simp only [drain_of_worker ended]
      exact Nat.le_refl _
  | stopPolling => exact Nat.le_refl _
  | scan scan party polling scans scanned =>
      simp [Action.isOf, party, drain_of_worker scanned]
  | scanFile scanned =>
      simp only [drain_of_worker scanned]
      exact Nat.le_refl _
  | drainMove party moves =>
      simp only [Action.isOf, party, beq_self_eq_true, if_true]
      exact moves.rank_lt stopping _
  | takeReconvert looking queued =>
      obtain ⟨job, rest, -, -, rfl⟩ := Service.takeReconvert_cases queued
      rw [looking]
      exact Nat.le_refl 7
  | drain working drained =>
      obtain ⟨shared, stage, stageStep, rfl⟩ := Service.drain_result drained
      have later := stageStep.rank_lt
      rw [working]
      change drainRank (if stage = .wait then .top else .working) stage +
        1 ≤ 1 + pool.service.drain.rank
      split
      · simp only [drainRank]
        omega
      · simp only [drainRank]
        omega
  | elsewhere outside moved =>
      simp only [drain_of_elsewhere outside moved]
      exact Nat.le_refl _
  | stop => exact Nat.le_refl _

/-! ## The stop is bounded -/

/-- In every order of steps behind `Stop`, and whatever the queue holds, `n`
converter threads take at most `17 * n` steps and `n` files, and the drain
thread at most seven steps. -/
theorem stop_bounded (platform : Worker.Platform) (cfg : Config)
    {pool final : Pool n m} {actions : List (Action n m)}
    (stopping : pool.stop = true)
    (reached : run (step platform cfg) pool actions = some final) :
    actions.countP (Action.isOf .converter) ≤ 17 * n ∧
      actions.countP Action.pops ≤ n ∧
      actions.countP (Action.isOf .drainer) ≤ 7 := by
  have kept : ∀ (state : Pool n m) action next, state.stop = true →
      step platform cfg state action = some next → next.stop = true :=
    fun _ _ _ stopped taken => stop_step stopped taken
  have converters := countP_add_measure_le (fun pool : Pool n m =>
    pool.stop = true) Pool.converterRank (Action.isOf .converter) kept
    (fun _ _ _ stopped taken => converterRank_step stopped taken) stopping
    reached
  have pops := countP_add_measure_le (fun pool : Pool n m =>
    pool.stop = true) Pool.lookers Action.pops kept
    (fun _ _ _ stopped taken => lookers_step stopped taken) stopping reached
  have drains := countP_add_measure_le (fun pool : Pool n m =>
    pool.stop = true)
    (fun pool => drainRank pool.drainer pool.service.drain)
    (Action.isOf .drainer) kept
    (fun _ _ _ stopped taken => drainRank_step stopped taken) stopping
    reached
  have converterBound := converterRank_le pool
  have lookerBound := lookers_le pool
  have drainBound := drainRank_le pool.drainer pool.service.drain
  refine ⟨?_, ?_, ?_⟩
  · omega
  · omega
  · omega

/-- `Stop` while a file is queued and both threads are behind the check of
their loops. -/
def interrupting : List (Action 1 0) :=
  [.connect 0 true, .beginScan, .scanFile "DSC_0001.NEF", .endScan, .cleanup,
    .check 0, .drainCheck, .stop]

def finishing : List (Action 1 0) :=
  [.pop 0, .pass 0 (.fingerprint true true), .pass 0 .go,
    .pass 0 (.hash true), .pass 0 .go, .pass 0 (.lookup true),
    .pass 0 (.exif { date := "2024-05-01", source := .exif }),
    .pass 0 (.allocate {}), .pass 0 (.convert true (some ⟨[7], 0⟩)),
    .pass 0 .go, .pass 0 (.hash true),
    .pass 0 (.insert true "2024-05-03 00:00:00"), .drainWait,
    .pass 0 (.move .renamed), .pass 0 .go, .finish 0, .drainCheck, .check 0]

theorem stop_bounded_interrupted :
    ∃ pool final,
      run (step Worker.photographs {}) (Pool.initial 0
        (60 * Worker.nsPerSecond) (Worker.onePhotograph 1).shared.fs {})
        interrupting = some pool ∧
      run (step Worker.photographs {}) pool finishing = some final ∧
      finishing.countP (Action.isOf .converter) ≤ 17 * 1 ∧
      finishing.countP Action.pops ≤ 1 ∧
      finishing.countP (Action.isOf .drainer) ≤ 7 := by
  have started : ∃ pool,
      run (step Worker.photographs {}) (Pool.initial 0
        (60 * Worker.nsPerSecond) (Worker.onePhotograph 1).shared.fs {})
        interrupting = some pool ∧
      pool.stop = true ∧
      (run (step Worker.photographs {}) pool finishing).isSome = true :=
    exists_run_of_decide (by decide +kernel)
  obtain ⟨pool, start, stopping, reached⟩ := started
  obtain ⟨final, result⟩ := Option.isSome_iff_exists.mp reached
  exact ⟨pool, final, start, result,
    stop_bounded Worker.photographs {} stopping result⟩

/-! ## The stop is reached -/

theorem poll_of_elsewhere {service after : Service n m}
    {action : Service.Action n m} (outside : elsewhere action)
    (taken : Service.step platform cfg service action = some after) :
    after.world.poll = service.world.poll := by
  cases action with
  | worker workerAction =>
      obtain ⟨world, workerTaken, rfl⟩ := Option.map_eq_some_iff.mp taken
      cases workerAction with
      | advance ns => cases workerTaken; rfl
      | setWall wall => cases workerTaken; rfl
      | external path file => cases workerTaken; rfl
      | _ => cases outside
  | _ => exact (impl_of_not_worker taken nofun).2.2

theorem poll_step {pool next : Pool n m} {action : Action n m}
    (party : action.party ≠ .poller)
    (taken : step platform cfg pool action = some next) :
    next.polling = pool.polling ∧ next.world.poll = pool.world.poll := by
  have result := step_of_taken taken
  cases result with
  | pop looking popped =>
      obtain ⟨world, workerTaken, rfl⟩ := Option.map_eq_some_iff.mp popped
      obtain ⟨path, impl, -, -, rfl⟩ := Worker.pop_cases workerTaken
      exact ⟨rfl, rfl⟩
  | pass processing passed =>
      obtain ⟨world, workerTaken, rfl⟩ := Option.map_eq_some_iff.mp passed
      exact ⟨rfl, (pass_frame workerTaken).2.1⟩
  | finish processing ended =>
      obtain ⟨world, workerTaken, rfl⟩ := Option.map_eq_some_iff.mp ended
      obtain ⟨path, -, rfl⟩ := Worker.finish_cases workerTaken
      exact ⟨rfl, rfl⟩
  | stopPolling => exact (party rfl).elim
  | scan scan poller => exact (party poller).elim
  | scanFile => exact (party rfl).elim
  | takeReconvert looking queued =>
      exact ⟨rfl, (impl_of_not_worker queued nofun).2.2⟩
  | drain working drained =>
      exact ⟨rfl, (impl_of_not_worker drained nofun).2.2⟩
  | elsewhere outside moved => exact ⟨rfl, poll_of_elsewhere outside moved⟩
  | _ => exact ⟨rfl, rfl⟩

namespace Pool

/-- The steps all threads need once `stop_` is set. -/
def rank (pool : Pool n m) : Nat :=
  pool.converterRank + drainRank pool.drainer pool.service.drain +
    pollRank pool.polling pool.world.poll

end Pool

theorem converter_enabled (platform : Worker.Platform) (cfg : Config)
    {pool : Pool n m} {thread : Fin n} (counted : Counted pool)
    (working : pool.threads thread ≠ .exited) :
    ∃ action, action.party = .converter ∧
      (step platform cfg pool action).isSome := by
  cases place : pool.threads thread with
  | exited => exact (working place).elim
  | connecting attempt =>
      refine ⟨.connect thread false, rfl, ?_⟩
      simp only [step, place]
      split <;> rfl
  | top => exact ⟨.check thread, rfl, by simp only [step, place]; rfl⟩
  | looking =>
      cases queue : pool.files with
      | nil => exact ⟨.wait thread, rfl, by simp [step, place, queue]⟩
      | cons path rest =>
          have idle : pool.service.world.threads thread = none := by
            cases busy : pool.world.threads thread with
            | none => exact busy
            | some pass =>
                have processing := (counted.running thread).mp
                  (by rw [busy]; rfl)
                rw [place] at processing
                cases processing
          have queued : pool.service.world.shared.impl.files =
            path :: rest := queue
          refine ⟨.pop thread, rfl, ?_⟩
          simp [step, place, Service.step, Worker.step, idle,
            Worker.Impl.popFile, queued]
  | processing =>
      have busy := (counted.running thread).mpr place
      obtain ⟨pass, found⟩ := Option.isSome_iff_exists.mp busy
      have present : pool.service.world.threads thread = some pass := found
      obtain ⟨path, stage⟩ := pass
      by_cases ended : stage = .done
      · subst ended
        refine ⟨.finish thread, rfl, ?_⟩
        simp [step, place, Service.step, Worker.step, present]
      · obtain ⟨event, result, executes⟩ :=
          Worker.ProcessFile.exists_next platform cfg path
            pool.service.world.shared stage ended
        refine ⟨.pass thread event, rfl, ?_⟩
        simp [step, place, Service.step, Worker.step, present, executes]

theorem drain_enabled (platform : Worker.Platform) (cfg : Config)
    {pool : Pool n m} (counted : Counted pool)
    (working : pool.drainer ≠ .exited) :
    ∃ action, action.party = .drainer ∧
      (step platform cfg pool action).isSome := by
  cases place : pool.drainer with
  | exited => exact (working place).elim
  | top => exact ⟨.drainCheck, rfl, by simp only [step, place]; rfl⟩
  | looking =>
      cases queue : pool.service.reconverts with
      | nil => exact ⟨.drainWait, rfl, by simp [step, place, queue]⟩
      | cons job rest =>
          have waiting : pool.service.drain = .wait := by
            by_contra busy
            have drainer := counted.drained.mpr busy
            rw [place] at drainer
            cases drainer
          refine ⟨.takeReconvert, rfl, ?_⟩
          simp [step, place, Service.step, waiting, queue]
  | working =>
      have busy := counted.drained.mp place
      obtain ⟨event, result, executes⟩ :=
        Worker.ReconvertDrain.exists_next platform pool.service.shared
          pool.service.drain busy
      exact ⟨.drain event, rfl, by
        simp [step, place, Service.step, executes]⟩

theorem poll_enabled (platform : Worker.Platform) (cfg : Config)
    {pool : Pool n m} (stopping : pool.stop = true)
    (polling : pool.polling = true) :
    ∃ action next, action.party = .poller ∧
      step platform cfg pool action = some next ∧
      pollRank next.polling next.world.poll <
        pollRank pool.polling pool.world.poll := by
  rw [polling]
  cases place : pool.world.poll with
  | top lastScan =>
      refine ⟨.beginScan, { pool with polling := false }, rfl, ?_, ?_⟩
      · simp [step, polling, place, stopping]
      · exact Nat.lt_succ_self 0
  | scan now =>
      have scanning : pool.service.world.poll = .scan now := place
      refine ⟨.endScan, { pool with service := { pool.service with
        world := { pool.service.world with poll := .cleanup now } } },
        rfl, ?_, ?_⟩
      · simp [step, Service.step, Worker.step, scanning]
      · simp [pollRank, polling, Pool.world]
  | cleanup lastScan =>
      have cleaning : pool.service.world.poll = .cleanup lastScan := place
      have cleaned : (step platform cfg pool .cleanup).map (fun next =>
          pollRank next.polling next.world.poll) = some 1 := by
        simp [step, Service.step, Worker.step, cleaning, Pool.world,
          pollRank, polling]
      obtain ⟨next, taken, rank⟩ := Option.map_eq_some_iff.mp cleaned
      refine ⟨.cleanup, next, rfl, taken, ?_⟩
      rw [rank]
      exact Nat.lt_succ_self 1

/-- As long as a thread is left, one step of a thread brings `Stop` closer to
its end. -/
theorem stop_progress (platform : Worker.Platform) (cfg : Config)
    {pool : Pool n m} (counted : Counted pool) (stopping : pool.stop = true)
    (running : ¬pool.Joined) :
    ∃ action next, action.party ≠ .other ∧
      step platform cfg pool action = some next ∧ next.rank < pool.rank := by
  by_cases converters : ∀ thread, pool.threads thread = .exited
  · by_cases drained : pool.drainer = .exited
    · have polling : pool.polling = true := by
        cases polls : pool.polling with
        | true => rfl
        | false => exact (running ⟨converters, polls, drained⟩).elim
      obtain ⟨action, next, party, taken, lower⟩ :=
        poll_enabled platform cfg stopping polling
      have threads := converterRank_step stopping taken
      have drain := drainRank_step stopping taken
      refine ⟨action, next, by rw [party]; exact nofun, taken, ?_⟩
      unfold Pool.rank
      omega
    · obtain ⟨action, party, enabled⟩ :=
        drain_enabled platform cfg counted drained
      obtain ⟨next, taken⟩ := Option.isSome_iff_exists.mp enabled
      have threads := converterRank_step stopping taken
      have drain := drainRank_step stopping taken
      obtain ⟨polling, poll⟩ :=
        poll_step (by rw [party]; exact nofun) taken
      simp only [Action.isOf, party, beq_self_eq_true, if_true] at drain
      refine ⟨action, next, by rw [party]; exact nofun, taken, ?_⟩
      unfold Pool.rank
      rw [polling, poll]
      omega
  · obtain ⟨thread, working⟩ := not_forall.mp converters
    obtain ⟨action, party, enabled⟩ :=
      converter_enabled platform cfg counted working
    obtain ⟨next, taken⟩ := Option.isSome_iff_exists.mp enabled
    have threads := converterRank_step stopping taken
    have drain := drainRank_step stopping taken
    obtain ⟨polling, poll⟩ := poll_step (by rw [party]; exact nofun) taken
    simp only [Action.isOf, party, beq_self_eq_true, if_true] at threads
    refine ⟨action, next, by rw [party]; exact nofun, taken, ?_⟩
    unfold Pool.rank
    rw [polling, poll]
    omega

/-- What `Stop` leaves behind: no pass, no marker, no reconversion half
done. -/
structure Pool.Quiet (pool : Pool n m) : Prop where
  passes : ∀ thread, pool.world.threads thread = none
  markers : pool.world.shared.impl.inflight = ∅
  active : pool.activeWorkers = 0
  drain : pool.service.drain = .wait

theorem Counted.quiet {pool : Pool n m} (counted : Counted pool)
    (joined : pool.Joined) : pool.Quiet := by
  obtain ⟨threads, -, drainer⟩ := joined
  have passes : ∀ thread, pool.world.threads thread = none := by
    intro thread
    cases busy : pool.world.threads thread with
    | none => rfl
    | some pass =>
        have processing := (counted.running thread).mp (by rw [busy]; rfl)
        rw [threads thread] at processing
        cases processing
  refine ⟨passes, ?_, ?_, ?_⟩
  · apply Finset.eq_empty_of_forall_notMem
    intro path member
    obtain ⟨thread, pass, busy, -⟩ := counted.markers path member
    rw [passes thread] at busy
    cases busy
  · rw [counted.active]
    apply Finset.sum_eq_zero
    intro thread _
    rw [threads thread]
    rfl
  · by_contra busy
    have working := counted.drained.mpr busy
    rw [drainer] at working
    cases working

/-- From every state that a run reaches, once `Stop` was called the threads
can go on to their end without help, and wherever they all have ended the
worker is quiet. -/
theorem stop_joins (platform : Worker.Platform) (cfg : Config)
    (clock wall : Int) (fs : Fs) (db : Db) (actions : List (Action n m)) :
    Visits (step platform cfg)
      (fun pool => (pool.Joined → pool.Quiet) ∧
        (pool.stop = true → ∃ rest final,
          (∀ action ∈ rest, action.party ≠ .other) ∧
          run (step platform cfg) pool rest = some final ∧ final.Joined))
      (Pool.initial (n := n) (m := m) clock wall fs db) actions := by
  refine (visits_of_preserved Counted
    (fun pool action next counted taken => counted_step counted taken)
    (counted_initial clock wall fs db) actions).mono ?_
  intro pool counted
  refine ⟨counted.quiet, fun stopping => ?_⟩
  obtain ⟨rest, final, parties, reached, -, joined⟩ :=
    exists_run_of_descent
      (fun pool : Pool n m => Counted pool ∧ pool.stop = true)
      Pool.Joined Pool.rank
      (fun action : Action n m => action.party ≠ .other)
      (by
        rintro state ⟨holds, stopped⟩ running
        obtain ⟨action, next, party, taken, lower⟩ :=
          stop_progress platform cfg holds stopped running
        exact ⟨action, next, party, taken,
          ⟨counted_step holds taken, stop_step stopped taken⟩, lower⟩)
      ⟨counted, stopping⟩
  exact ⟨rest, final, parties, reached, joined⟩

end WorkerPool

end RawImport
