import Mathlib.Algebra.BigOperators.Ring.Finset
import RawImport.Lib.Measure
import RawImport.Library.Service
import RawImport.Worker.Retries

/-!
# The threads of the worker

`Start`, the loops of `PollLoop`, `WorkerThread` and `ReconvertDrain`, and
`Stop`.  A loop looks at `stop_` once a round, so a round that has begun runs
to its end.  The two gauges of `Worker::Impl` are counted beside the queue and
the threads they describe.
-/

namespace RawImport

namespace WorkerPool

open PathText Transition

/-- Where a converter thread stands in `WorkerThread`. -/
inductive Place where
  | connecting (attempt : Nat)
  | top
  | looking
  | processing
  | exited
  deriving DecidableEq, Repr

/-- Where the drain thread stands in its loop. -/
inductive DrainPlace where
  | top
  | looking
  | working
  | exited
  deriving DecidableEq, Repr

/-- The worker with its threads, `stop_`, `queue_depth` and
`active_workers`. -/
structure Pool (n m : Nat) where
  service : Service n m
  stop : Bool := false
  threads : Fin n → Place := fun _ => .connecting 0
  polling : Bool := true
  drainer : DrainPlace := .top
  queueDepth : Int := 0
  activeWorkers : Int := 0

inductive Action (n m : Nat) where
  | connect (thread : Fin n) (connected : Bool)
  | check (thread : Fin n)
  | wait (thread : Fin n)
  | pop (thread : Fin n)
  | pass (thread : Fin n) (event : Worker.ProcessFile.Event)
  | finish (thread : Fin n)
  | beginScan
  | scanFile (name : String)
  | endScan
  | cleanup
  | drainCheck
  | drainWait
  | takeReconvert
  | drain (event : Worker.ReconvertDrain.Event)
  | elsewhere (action : Service.Action n m)
  | stop

variable {n m : Nat}

/-- The threads of the worker, and the rest. -/
inductive Party where
  | converter
  | drainer
  | poller
  | other
  deriving DecidableEq, Repr

namespace Action

def party : Action n m → Party
  | .connect _ _ => .converter
  | .check _ => .converter
  | .wait _ => .converter
  | .pop _ => .converter
  | .pass _ _ => .converter
  | .finish _ => .converter
  | .drainCheck => .drainer
  | .drainWait => .drainer
  | .takeReconvert => .drainer
  | .drain _ => .drainer
  | .beginScan => .poller
  | .scanFile _ => .poller
  | .endScan => .poller
  | .cleanup => .poller
  | .elsewhere _ => .other
  | .stop => .other

def pops : Action n m → Bool
  | .pop _ => true
  | _ => false

end Action

/-- What happens outside the threads of the worker. -/
def elsewhere : Service.Action n m → Bool
  | .worker (.advance _) => true
  | .worker (.setWall _) => true
  | .worker (.external _ _) => true
  | .queueReconvert _ => true
  | .request _ _ => true
  | .preview _ _ => true
  | .respond _ => true
  | _ => false

namespace Pool

/-- `Start` over any files and tables. -/
def initial (clock wall : Int) (fs : Fs) (db : Db) : Pool n m :=
  { service := .initial clock wall fs db }

def world (pool : Pool n m) : Worker.World n :=
  pool.service.world

/-- `p_->files`. -/
def files (pool : Pool n m) : List Path :=
  pool.world.shared.impl.files

def setPlace (pool : Pool n m) (thread : Fin n) (place : Place) :
    Pool n m :=
  { pool with threads := Function.update pool.threads thread place }

/-- Every thread that `Stop` joins has left its loop. -/
def Joined (pool : Pool n m) : Prop :=
  (∀ thread, pool.threads thread = .exited) ∧ pool.polling = false ∧
    pool.drainer = .exited

end Pool

/-- A scan increments `queue_depth` where it pushes. -/
def pushed (cfg : Config) (pool : Pool n m) (name : String) : Int :=
  match pool.world.shared.fs (joinPath cfg.watchDir name) with
  | some file =>
      if Worker.scanAccepts cfg pool.world.shared.wall name file = true ∧
          pool.world.shared.impl.passesOver
            (joinPath cfg.watchDir name) = false then
        1
      else 0
  | none => 0

/-- One step of a thread of the worker, of `Stop`, or elsewhere. -/
def step (platform : Worker.Platform) (cfg : Config) (pool : Pool n m) :
    Action n m → Option (Pool n m)
  | .connect thread connected =>
      match pool.threads thread with
      | .connecting attempt =>
          if attempt < 5 ∧ pool.stop = false then
            some (pool.setPlace thread
              (if connected then .top else .connecting (attempt + 1)))
          else some (pool.setPlace thread .exited)
      | _ => none
  | .check thread =>
      match pool.threads thread with
      | .top =>
          some (pool.setPlace thread
            (if pool.stop then .exited else .looking))
      | _ => none
  | .wait thread =>
      match pool.threads thread, pool.files with
      | .looking, [] => some (pool.setPlace thread .top)
      | _, _ => none
  | .pop thread =>
      match pool.threads thread with
      | .looking =>
          (Service.step platform cfg pool.service
            (.worker (.pop thread))).map fun service =>
              { pool.setPlace thread .processing with
                service := service
                queueDepth := pool.queueDepth - 1
                activeWorkers := pool.activeWorkers + 1 }
      | _ => none
  | .pass thread event =>
      match pool.threads thread with
      | .processing =>
          (Service.step platform cfg pool.service
            (.worker (.pass thread event))).map fun service =>
              { pool with service := service }
      | _ => none
  | .finish thread =>
      match pool.threads thread with
      | .processing =>
          (Service.step platform cfg pool.service
            (.worker (.finish thread))).map fun service =>
              { pool.setPlace thread .top with
                service := service
                activeWorkers := pool.activeWorkers - 1 }
      | _ => none
  | .beginScan =>
      match pool.polling, pool.world.poll with
      | true, .top _ =>
          if pool.stop then some { pool with polling := false }
          else
            (Service.step platform cfg pool.service
              (.worker .beginScan)).map fun service =>
                { pool with service := service }
      | _, _ => none
  | .scanFile name =>
      (Service.step platform cfg pool.service
        (.worker (.scanFile name))).map fun service =>
          { pool with
            service := service
            queueDepth := pool.queueDepth + pushed cfg pool name }
  | .endScan =>
      (Service.step platform cfg pool.service (.worker .endScan)).map
        fun service => { pool with service := service }
  | .cleanup =>
      (Service.step platform cfg pool.service (.worker .cleanup)).map
        fun service => { pool with service := service }
  | .drainCheck =>
      match pool.drainer with
      | .top =>
          some { pool with
            drainer := if pool.stop then .exited else .looking }
      | _ => none
  | .drainWait =>
      match pool.drainer, pool.service.reconverts with
      | .looking, [] => some { pool with drainer := .top }
      | _, _ => none
  | .takeReconvert =>
      match pool.drainer with
      | .looking =>
          (Service.step platform cfg pool.service .takeReconvert).map
            fun service =>
              { pool with service := service, drainer := .working }
      | _ => none
  | .drain event =>
      match pool.drainer with
      | .working =>
          (Service.step platform cfg pool.service (.drain event)).map
            fun service =>
              { pool with
                service := service
                drainer :=
                  if service.drain = .wait then .top else .working }
      | _ => none
  | .elsewhere action =>
      if elsewhere action then
        (Service.step platform cfg pool.service action).map fun service =>
          { pool with service := service }
      else none
  | .stop => some { pool with stop := true }

/-! ## What a step can do -/

/-- A converter thread goes on in its loop without the lock held or with
nothing queued. -/
inductive Moves (stop : Bool) (files : List Path) : Place → Place → Prop
  | connected {attempt : Nat} (running : stop = false) :
      Moves stop files (.connecting attempt) .top
  | retry {attempt : Nat} (running : stop = false) :
      Moves stop files (.connecting attempt) (.connecting (attempt + 1))
  | giveUp {attempt : Nat} :
      Moves stop files (.connecting attempt) .exited
  | stopped (stopping : stop = true) : Moves stop files .top .exited
  | round (running : stop = false) : Moves stop files .top .looking
  | timeout (empty : files = []) : Moves stop files .looking .top

/-- The scan actions behind the check of `stop_`. -/
def Scans : Worker.Action n → Prop
  | .beginScan => True
  | .endScan => True
  | .cleanup => True
  | _ => False

/-- Where the drain thread goes without a stage. -/
inductive DrainMoves (stop : Bool) (reconverts : List ReconversionJob) :
    DrainPlace → DrainPlace → Prop
  | stopped (stopping : stop = true) : DrainMoves stop reconverts .top .exited
  | round (running : stop = false) : DrainMoves stop reconverts .top .looking
  | timeout (empty : reconverts = []) :
      DrainMoves stop reconverts .looking .top

section Inversion

variable (platform : Worker.Platform) (cfg : Config)

/-- Every transition of the threads. -/
inductive Step (pool : Pool n m) : Action n m → Pool n m → Prop where
  | move {action : Action n m} {thread : Fin n} {place : Place}
      (party : action.party = .converter) (pops : action.pops = false)
      (moves : Moves pool.stop pool.files (pool.threads thread) place) :
      Step pool action (pool.setPlace thread place)
  | pop {thread : Fin n} {service : Service n m}
      (looking : pool.threads thread = .looking)
      (taken : Service.step platform cfg pool.service
        (.worker (.pop thread)) = some service) :
      Step pool (.pop thread)
        { pool.setPlace thread .processing with
          service := service
          queueDepth := pool.queueDepth - 1
          activeWorkers := pool.activeWorkers + 1 }
  | pass {thread : Fin n} {event : Worker.ProcessFile.Event}
      {service : Service n m}
      (processing : pool.threads thread = .processing)
      (taken : Service.step platform cfg pool.service
        (.worker (.pass thread event)) = some service) :
      Step pool (.pass thread event) { pool with service := service }
  | finish {thread : Fin n} {service : Service n m}
      (processing : pool.threads thread = .processing)
      (taken : Service.step platform cfg pool.service
        (.worker (.finish thread)) = some service) :
      Step pool (.finish thread)
        { pool.setPlace thread .top with
          service := service
          activeWorkers := pool.activeWorkers - 1 }
  | stopPolling {lastScan : Int} (stopping : pool.stop = true)
      (top : pool.world.poll = .top lastScan) :
      Step pool .beginScan { pool with polling := false }
  | scan {action : Action n m} (scan : Worker.Action n)
      {service : Service n m} (party : action.party = .poller)
      (polling : pool.polling = true ∨ scan ≠ .beginScan)
      (scans : Scans scan)
      (taken : Service.step platform cfg pool.service (.worker scan) =
        some service) :
      Step pool action { pool with service := service }
  | scanFile {name : String} {service : Service n m}
      (taken : Service.step platform cfg pool.service
        (.worker (.scanFile name)) = some service) :
      Step pool (.scanFile name)
        { pool with
          service := service
          queueDepth := pool.queueDepth + pushed cfg pool name }
  | drainMove {action : Action n m} {place : DrainPlace}
      (party : action.party = .drainer)
      (moves : DrainMoves pool.stop pool.service.reconverts pool.drainer
        place) :
      Step pool action { pool with drainer := place }
  | takeReconvert {service : Service n m}
      (looking : pool.drainer = .looking)
      (taken : Service.step platform cfg pool.service .takeReconvert =
        some service) :
      Step pool .takeReconvert
        { pool with service := service, drainer := .working }
  | drain {event : Worker.ReconvertDrain.Event} {service : Service n m}
      (working : pool.drainer = .working)
      (taken : Service.step platform cfg pool.service (.drain event) =
        some service) :
      Step pool (.drain event)
        { pool with
          service := service
          drainer := if service.drain = .wait then .top else .working }
  | elsewhere {action : Service.Action n m} {service : Service n m}
      (outside : elsewhere action)
      (taken : Service.step platform cfg pool.service action =
        some service) :
      Step pool (.elsewhere action) { pool with service := service }
  | stop : Step pool .stop { pool with stop := true }

variable {platform cfg} {pool after : Pool n m}

theorem connect_cases {thread : Fin n} {connected : Bool}
    (taken : step platform cfg pool (.connect thread connected) =
      some after) :
    ∃ place, Moves pool.stop pool.files (pool.threads thread) place ∧
      after = pool.setPlace thread place := by
  simp only [step] at taken
  split at taken
  · rename_i attempt connecting
    rw [connecting]
    split at taken
    · rename_i more
      cases taken
      cases connected with
      | true => exact ⟨.top, .connected more.2, rfl⟩
      | false => exact ⟨_, .retry more.2, rfl⟩
    · cases taken
      exact ⟨.exited, .giveUp, rfl⟩
  · cases taken

theorem check_cases {thread : Fin n}
    (taken : step platform cfg pool (.check thread) = some after) :
    ∃ place, Moves pool.stop pool.files (pool.threads thread) place ∧
      after = pool.setPlace thread place := by
  simp only [step] at taken
  split at taken
  · rename_i top
    rw [top]
    cases taken
    cases stopping : pool.stop with
    | true => exact ⟨.exited, .stopped rfl, rfl⟩
    | false => exact ⟨.looking, .round rfl, rfl⟩
  · cases taken

theorem wait_cases {thread : Fin n}
    (taken : step platform cfg pool (.wait thread) = some after) :
    ∃ place, Moves pool.stop pool.files (pool.threads thread) place ∧
      after = pool.setPlace thread place := by
  simp only [step] at taken
  split at taken
  · rename_i looking empty
    rw [looking]
    cases taken
    exact ⟨.top, .timeout empty, rfl⟩
  · cases taken

theorem beginScan_cases
    (taken : step platform cfg pool .beginScan = some after) :
    Step platform cfg pool .beginScan after := by
  simp only [step] at taken
  split at taken
  · rename_i lastScan polling top
    split at taken
    · rename_i stopping
      cases taken
      exact .stopPolling stopping top
    · obtain ⟨service, scanned, rfl⟩ := Option.map_eq_some_iff.mp taken
      exact .scan .beginScan rfl (.inl polling) trivial scanned
  · cases taken

theorem drainCheck_cases
    (taken : step platform cfg pool .drainCheck = some after) :
    Step platform cfg pool .drainCheck after := by
  simp only [step] at taken
  split at taken
  · rename_i top
    cases taken
    apply Step.drainMove rfl
    rw [top]
    cases stopping : pool.stop with
    | true => exact .stopped rfl
    | false => exact .round rfl
  · cases taken

theorem step_of_taken {action : Action n m}
    (taken : step platform cfg pool action = some after) :
    Step platform cfg pool action after := by
  cases action with
  | connect thread connected =>
      obtain ⟨place, moves, rfl⟩ := connect_cases taken
      exact .move rfl rfl moves
  | check thread =>
      obtain ⟨place, moves, rfl⟩ := check_cases taken
      exact .move rfl rfl moves
  | wait thread =>
      obtain ⟨place, moves, rfl⟩ := wait_cases taken
      exact .move rfl rfl moves
  | pop thread =>
      simp only [step] at taken
      split at taken
      · rename_i looking
        obtain ⟨service, popped, rfl⟩ := Option.map_eq_some_iff.mp taken
        exact .pop looking popped
      · cases taken
  | pass thread event =>
      simp only [step] at taken
      split at taken
      · rename_i processing
        obtain ⟨service, passed, rfl⟩ := Option.map_eq_some_iff.mp taken
        exact .pass processing passed
      · cases taken
  | finish thread =>
      simp only [step] at taken
      split at taken
      · rename_i processing
        obtain ⟨service, ended, rfl⟩ := Option.map_eq_some_iff.mp taken
        exact .finish processing ended
      · cases taken
  | beginScan => exact beginScan_cases taken
  | scanFile name =>
      obtain ⟨service, scanned, rfl⟩ := Option.map_eq_some_iff.mp taken
      exact .scanFile scanned
  | endScan =>
      obtain ⟨service, ended, rfl⟩ := Option.map_eq_some_iff.mp taken
      exact .scan .endScan rfl (.inr nofun) trivial ended
  | cleanup =>
      obtain ⟨service, cleaned, rfl⟩ := Option.map_eq_some_iff.mp taken
      exact .scan .cleanup rfl (.inr nofun) trivial cleaned
  | drainCheck => exact drainCheck_cases taken
  | drainWait =>
      simp only [step] at taken
      split at taken
      · rename_i looking empty
        cases taken
        apply Step.drainMove rfl
        rw [looking]
        exact .timeout empty
      · cases taken
  | takeReconvert =>
      simp only [step] at taken
      split at taken
      · rename_i looking
        obtain ⟨service, queued, rfl⟩ := Option.map_eq_some_iff.mp taken
        exact .takeReconvert looking queued
      · cases taken
  | drain event =>
      simp only [step] at taken
      split at taken
      · rename_i working
        obtain ⟨service, drained, rfl⟩ := Option.map_eq_some_iff.mp taken
        exact .drain working drained
      · cases taken
  | elsewhere action =>
      simp only [step] at taken
      split at taken
      · rename_i outside
        obtain ⟨service, moved, rfl⟩ := Option.map_eq_some_iff.mp taken
        exact .elsewhere outside moved
      · cases taken
  | stop =>
      cases taken
      exact .stop

end Inversion

/-! ## The gauges -/

section Gauges

variable {platform : Worker.Platform} {cfg : Config}
  {service after : Service n m} {action : Service.Action n m}

theorem drainStep_impl {shared next : Worker.Shared}
    {stage stage' : Worker.ReconvertDrain.Stage}
    {event : Worker.ReconvertDrain.Event}
    (step : Worker.ReconvertDrain.Step platform shared stage event next
      stage') : next.impl = shared.impl := by
  cases step <;> rfl

theorem previewStep_impl {shared next : Worker.Shared}
    {stage stage' : Api.PreviewUpdated.Stage}
    {event : Api.PreviewUpdated.Event}
    (step : Api.PreviewUpdated.Step platform shared stage event next
      stage') : next.impl = shared.impl := by
  cases step <;> rfl

/-- What is not an action of the worker leaves its threads and
`Worker::Impl` alone. -/
theorem impl_of_not_worker
    (taken : Service.step platform cfg service action = some after)
    (other : ∀ workerAction, action ≠ .worker workerAction) :
    after.world.shared.impl = service.world.shared.impl ∧
      after.world.threads = service.world.threads ∧
      after.world.poll = service.world.poll := by
  cases action with
  | worker workerAction => exact (other workerAction rfl).elim
  | takeReconvert =>
      obtain ⟨job, rest, -, -, rfl⟩ := Service.takeReconvert_cases taken
      exact ⟨rfl, rfl, rfl⟩
  | drain event =>
      obtain ⟨next, stage, drained, rfl⟩ := Service.drain_result taken
      exact ⟨drainStep_impl drained, rfl, rfl⟩
  | request thread op =>
      rw [Service.request_cases taken]
      exact ⟨rfl, rfl, rfl⟩
  | preview thread event =>
      obtain ⟨stage, next, stage', -, handled, rfl⟩ :=
        Service.preview_result taken
      exact ⟨previewStep_impl handled, rfl, rfl⟩
  | respond thread =>
      rw [Service.respond_cases taken]
      exact ⟨rfl, rfl, rfl⟩
  | _ =>
      cases taken
      exact ⟨rfl, rfl, rfl⟩

/-- The gauges and markers beside what they describe. -/
structure Counted (pool : Pool n m) : Prop where
  depth : pool.queueDepth = pool.files.length
  active : pool.activeWorkers =
    ∑ thread, if pool.threads thread = .processing then 1 else 0
  running : ∀ thread, (pool.world.threads thread).isSome ↔
    pool.threads thread = .processing
  markers : Worker.MarkersOwned pool.world
  drained : pool.drainer = .working ↔ pool.service.drain ≠ .wait
  polled : pool.polling = false →
    ∃ lastScan, pool.world.poll = .top lastScan

theorem counted_initial (clock wall : Int) (fs : Fs) (db : Db) :
    Counted (Pool.initial (n := n) (m := m) clock wall fs db) := by
  constructor
  case depth => rfl
  case active => simp [Pool.initial]
  case running => simp [Pool.initial, Pool.world, Service.initial,
    Worker.World.initial]
  case markers => exact Worker.markersOwned_initial clock wall fs db
  case drained => simp [Pool.initial, Service.initial]
  case polled => exact nofun

/-- The weight of a thread in `active_workers`. -/
def counts (place : Place) : Int :=
  if place = .processing then 1 else 0

theorem sum_setPlace (pool : Pool n m) (thread : Fin n) (place : Place) :
    ∑ other, counts ((pool.setPlace thread place).threads other) +
        counts (pool.threads thread) =
      ∑ other, counts (pool.threads other) + counts place :=
  sum_update counts pool.threads thread place

theorem Moves.counts {stop : Bool} {files : List Path}
    {before place : Place} (moves : Moves stop files before place) :
    WorkerPool.counts before = 0 ∧ WorkerPool.counts place = 0 := by
  cases moves <;> exact ⟨rfl, rfl⟩

theorem DrainMoves.not_working {stop : Bool}
    {reconverts : List ReconversionJob} {before place : DrainPlace}
    (moves : DrainMoves stop reconverts before place) :
    before ≠ .working ∧ place ≠ .working := by
  cases moves <;> exact ⟨nofun, nofun⟩

theorem Counted.move {pool : Pool n m} {thread : Fin n} {place : Place}
    (counted : Counted pool)
    (moves : Moves pool.stop pool.files (pool.threads thread) place) :
    Counted (pool.setPlace thread place) := by
  obtain ⟨before, now⟩ := moves.counts
  have idle : ∀ {other : Place}, counts other = 0 →
      other ≠ .processing := by
    intro other none same
    rw [same] at none
    cases none
  refine ⟨counted.depth, ?_, ?_, counted.markers, counted.drained,
    counted.polled⟩
  · have change := sum_setPlace pool thread place
    rw [before, now] at change
    rw [add_zero, add_zero] at change
    exact counted.active.trans change.symm
  · intro other
    by_cases same : other = thread
    · subst same
      have free := counted.running other
      simp only [Pool.setPlace, Function.update_self]
      exact free.trans (iff_of_false (idle before) (idle now))
    · simp only [Pool.setPlace, Function.update_of_ne same]
      exact counted.running other

theorem Counted.framed {pool : Pool n m} {service : Service n m}
    (counted : Counted pool)
    (files : service.world.shared.impl.files = pool.files)
    (running : ∀ thread, (service.world.threads thread).isSome =
      (pool.world.threads thread).isSome)
    (markers : Worker.MarkersOwned service.world)
    (drain : service.drain = pool.service.drain)
    (poll : pool.polling = false → service.world.poll = pool.world.poll) :
    Counted { pool with service := service } := by
  refine ⟨?_, counted.active, ?_, markers, ?_, ?_⟩
  · rw [counted.depth, ← files]
    rfl
  · intro thread
    rw [← counted.running thread, ← running thread]
    rfl
  · rw [counted.drained, ← drain]
  · intro ended
    obtain ⟨lastScan, top⟩ := counted.polled ended
    exact ⟨lastScan, (poll ended).trans top⟩

theorem pass_frame {world next : Worker.World n} {thread : Fin n}
    {event : Worker.ProcessFile.Event}
    (taken : Worker.step platform cfg world (.pass thread event) =
      some next) :
    next.shared.impl.files = world.shared.impl.files ∧
      next.poll = world.poll ∧
      ∀ other, (next.threads other).isSome =
        (world.threads other).isSome := by
  obtain ⟨pass, shared, stage, busy, passStep, rfl⟩ :=
    Worker.pass_cases taken
  refine ⟨passStep.queue.1, rfl, ?_⟩
  intro other
  by_cases same : other = thread
  · subst same
    rw [Worker.World.setThread_same, busy]
    rfl
  · rw [Worker.World.setThread_other _ _ same]
    rfl

theorem length_files_scanFile {pool : Pool n m} {name : String}
    {world : Worker.World n}
    (taken : Worker.step platform cfg pool.world (.scanFile name) =
      some world) :
    (world.shared.impl.files.length : Int) =
      pool.files.length + pushed cfg pool name := by
  obtain ⟨now, file, -, present, -, ⟨accepted, rfl⟩ | ⟨rejected, rfl⟩⟩ :=
    Worker.scanFile_cases taken
  · simp only [Worker.World.withShared_shared, pushed, present, accepted,
      true_and, Pool.files]
    rcases pool.world.shared.impl.scanEntry_cases
      (joinPath cfg.watchDir name) now with ⟨known, same⟩ |
        ⟨unmarked, unseen, queued⟩
    · have passed := (pool.world.shared.impl.passesOver_iff _).mpr known
      rw [same, passed]
      simp
    · have fresh := (pool.world.shared.impl.passesOver_eq_false_iff _).mpr
        ⟨unmarked, unseen⟩
      rw [queued, if_pos fresh]
      simp
  · simp [pushed, present, rejected, Pool.files]

/-- The poll thread has nothing to do once it has left its loop. -/
theorem not_polling {pool : Pool n m} {scan : Worker.Action n}
    {service : Service n m} (counted : Counted pool)
    (ended : pool.polling = false) (scans : Scans scan)
    (different : scan ≠ .beginScan)
    (taken : Service.step platform cfg pool.service (.worker scan) =
      some service) : False := by
  obtain ⟨lastScan, top⟩ := counted.polled ended
  have standing : pool.service.world.poll = .top lastScan := top
  cases scan with
  | beginScan => exact different rfl
  | endScan => simp [Service.step, Worker.step, standing] at taken
  | cleanup => simp [Service.step, Worker.step, standing] at taken
  | _ => exact scans

theorem Counted.scan {pool : Pool n m} {scan : Worker.Action n}
    {service : Service n m} (counted : Counted pool)
    (polling : pool.polling = true ∨ scan ≠ .beginScan)
    (scans : Scans scan)
    (taken : Service.step platform cfg pool.service (.worker scan) =
      some service) : Counted { pool with service := service } := by
  have still : pool.polling = false → False := by
    intro ended
    rcases polling with polls | different
    · rw [ended] at polls
      cases polls
    · exact not_polling counted ended scans different taken
  obtain ⟨world, workerTaken, rfl⟩ := Option.map_eq_some_iff.mp taken
  have markers := Worker.markersOwned_step counted.markers workerTaken
  cases scan with
  | beginScan =>
      obtain ⟨shared, threads⟩ := Worker.beginScan_cases workerTaken
      exact counted.framed (by rw [shared]; rfl)
        (fun thread => by rw [threads]; rfl) markers rfl
        fun ended => (still ended).elim
  | endScan =>
      obtain ⟨shared, threads⟩ := Worker.endScan_cases workerTaken
      exact counted.framed (by rw [shared]; rfl)
        (fun thread => by rw [threads]; rfl) markers rfl
        fun ended => (still ended).elim
  | cleanup =>
      obtain ⟨shared, threads⟩ := Worker.cleanup_cases workerTaken
      exact counted.framed (by rw [shared]; rfl)
        (fun thread => by rw [threads]; rfl) markers rfl
        fun ended => (still ended).elim
  | _ => exact scans.elim

theorem Counted.pop {pool : Pool n m} {thread : Fin n}
    {service : Service n m} (counted : Counted pool)
    (looking : pool.threads thread = .looking)
    (taken : Service.step platform cfg pool.service
      (.worker (.pop thread)) = some service) :
    Counted { pool.setPlace thread .processing with
      service := service
      queueDepth := pool.queueDepth - 1
      activeWorkers := pool.activeWorkers + 1 } := by
  obtain ⟨world, workerTaken, rfl⟩ := Option.map_eq_some_iff.mp taken
  have markers := Worker.markersOwned_step counted.markers workerTaken
  obtain ⟨path, impl, -, popped, rfl⟩ := Worker.pop_cases workerTaken
  obtain ⟨queue, -⟩ := Worker.Impl.popFile_cases popped
  refine ⟨?_, ?_, ?_, markers, counted.drained, counted.polled⟩
  · have length : pool.files.length = impl.files.length + 1 :=
      congrArg List.length queue
    have depth := counted.depth
    rw [length] at depth
    simp only [depth]
    push_cast
    exact add_sub_cancel_right _ _
  · have change := sum_setPlace pool thread .processing
    rw [looking] at change
    have active : pool.activeWorkers = ∑ other, counts
      (pool.threads other) := counted.active
    calc pool.activeWorkers + 1
        = ∑ other, counts (pool.threads other) + counts .processing := by
          rw [active]
          rfl
      _ = ∑ other, counts ((pool.setPlace thread .processing).threads
            other) := by
          rw [← change]
          exact add_zero _
  · intro other
    by_cases same : other = thread
    · subst same
      simp [Pool.setPlace, Pool.world]
    · simp only [Pool.setPlace, Pool.world, Function.update_of_ne same,
        Worker.World.setThread_other _ _ same]
      exact counted.running other

theorem Counted.finish {pool : Pool n m} {thread : Fin n}
    {service : Service n m} (counted : Counted pool)
    (processing : pool.threads thread = .processing)
    (taken : Service.step platform cfg pool.service
      (.worker (.finish thread)) = some service) :
    Counted { pool.setPlace thread .top with
      service := service
      activeWorkers := pool.activeWorkers - 1 } := by
  obtain ⟨world, workerTaken, rfl⟩ := Option.map_eq_some_iff.mp taken
  have markers := Worker.markersOwned_step counted.markers workerTaken
  obtain ⟨path, -, rfl⟩ := Worker.finish_cases workerTaken
  refine ⟨counted.depth, ?_, ?_, markers, counted.drained,
    counted.polled⟩
  · have change := sum_setPlace pool thread .top
    rw [processing] at change
    have active : pool.activeWorkers = ∑ other, counts
      (pool.threads other) := counted.active
    calc pool.activeWorkers - 1
        = ∑ other, counts (pool.threads other) + counts .top - 1 := by
          rw [active]
          simp [counts]
      _ = ∑ other, counts ((pool.setPlace thread .top).threads other) := by
          rw [← change]
          exact add_sub_cancel_right _ _
  · intro other
    by_cases same : other = thread
    · subst same
      simp [Pool.setPlace, Pool.world]
    · simp only [Pool.setPlace, Pool.world, Function.update_of_ne same,
        Worker.World.setThread_other _ _ same]
      exact counted.running other

theorem Counted.other {pool : Pool n m} {action : Service.Action n m}
    {service : Service n m} (counted : Counted pool)
    (taken : Service.step platform cfg pool.service action = some service)
    (outside : ∀ workerAction, action ≠ .worker workerAction)
    (drain : service.drain = pool.service.drain) :
    Counted { pool with service := service } := by
  obtain ⟨impl, threads, poll⟩ := impl_of_not_worker taken outside
  refine counted.framed (by rw [impl]; rfl)
    (fun thread => by rw [threads]; rfl) ?_ drain fun _ => poll
  refine counted.markers.congr (by rw [impl]; rfl) ?_
  intro thread pass busy _
  exact threads ▸ busy

/-- An action outside the worker leaves the drain thread where it is. -/
theorem drain_of_elsewhere {pool : Pool n m}
    {action : Service.Action n m} {service : Service n m}
    (outside : elsewhere action)
    (taken : Service.step platform cfg pool.service action =
      some service) : service.drain = pool.service.drain := by
  cases action with
  | worker workerAction =>
      obtain ⟨world, -, rfl⟩ := Option.map_eq_some_iff.mp taken
      rfl
  | request thread op => rw [Service.request_cases taken]; rfl
  | preview thread event =>
      obtain ⟨stage, next, stage', -, -, rfl⟩ :=
        Service.preview_result taken
      rfl
  | respond thread => rw [Service.respond_cases taken]; rfl
  | queueReconvert job => cases taken; rfl
  | takeReconvert => cases outside
  | drain event => cases outside
  | reconcileFile cwd root entry => cases outside
  | reserve outcome => cases outside

theorem Counted.elsewhere {pool : Pool n m} {action : Service.Action n m}
    {service : Service n m} (counted : Counted pool)
    (outside : elsewhere action)
    (taken : Service.step platform cfg pool.service action =
      some service) : Counted { pool with service := service } := by
  have drain := drain_of_elsewhere outside taken
  cases action with
  | worker workerAction =>
      obtain ⟨world, workerTaken, rfl⟩ := Option.map_eq_some_iff.mp taken
      have markers := Worker.markersOwned_step counted.markers workerTaken
      cases workerAction with
      | advance ns =>
          cases workerTaken
          exact counted.framed rfl (fun _ => rfl) markers drain
            fun _ => rfl
      | setWall wall =>
          cases workerTaken
          exact counted.framed rfl (fun _ => rfl) markers drain
            fun _ => rfl
      | external path file =>
          cases workerTaken
          exact counted.framed rfl (fun _ => rfl) markers drain
            fun _ => rfl
      | _ => cases outside
  | _ => exact counted.other taken nofun drain

theorem counted_step {pool next : Pool n m} {action : Action n m}
    (counted : Counted pool)
    (taken : step platform cfg pool action = some next) :
    Counted next := by
  have result := step_of_taken taken
  cases result with
  | move party pops moves => exact counted.move moves
  | pop looking popped => exact counted.pop looking popped
  | pass processing passed =>
      obtain ⟨world, workerTaken, rfl⟩ := Option.map_eq_some_iff.mp passed
      obtain ⟨files, poll, running⟩ := pass_frame workerTaken
      exact counted.framed files running
        (Worker.markersOwned_step counted.markers workerTaken) rfl
        fun _ => poll
  | finish processing ended => exact counted.finish processing ended
  | stopPolling stopping top =>
      exact ⟨counted.depth, counted.active, counted.running,
        counted.markers, counted.drained, fun _ => ⟨_, top⟩⟩
  | scan scan party polling scans scanned =>
      exact counted.scan polling scans scanned
  | scanFile scanned =>
      obtain ⟨world, workerTaken, rfl⟩ := Option.map_eq_some_iff.mp scanned
      have markers := Worker.markersOwned_step counted.markers workerTaken
      have length := length_files_scanFile workerTaken
      obtain ⟨now, file, polling, -, -, ⟨-, rfl⟩ | ⟨-, rfl⟩⟩ :=
        Worker.scanFile_cases workerTaken
      · refine ⟨?_, counted.active, counted.running, markers,
          counted.drained, counted.polled⟩
        rw [counted.depth]
        exact length.symm
      · refine ⟨?_, counted.active, counted.running, markers,
          counted.drained, counted.polled⟩
        rw [counted.depth]
        exact length.symm
  | drainMove party moves =>
      refine ⟨counted.depth, counted.active, counted.running,
        counted.markers, ?_, counted.polled⟩
      obtain ⟨before, now⟩ := moves.not_working
      exact (iff_of_false now before).trans counted.drained
  | takeReconvert looking queued =>
      obtain ⟨job, rest, -, -, rfl⟩ := Service.takeReconvert_cases queued
      exact ⟨counted.depth, counted.active, counted.running,
        counted.markers, iff_of_true rfl nofun, counted.polled⟩
  | drain working drained =>
      obtain ⟨impl, threads, poll⟩ := impl_of_not_worker drained nofun
      refine ⟨?_, counted.active, ?_, ?_, ?_, ?_⟩
      · rw [counted.depth]
        unfold Pool.files Pool.world
        rw [impl]
      · intro thread
        rw [← counted.running thread]
        unfold Pool.world
        rw [threads]
      · refine counted.markers.congr (by unfold Pool.world; rw [impl]) ?_
        intro thread pass busy _
        exact threads ▸ busy
      · split
        · rename_i ended
          exact iff_of_false nofun fun busy => busy ended
        · rename_i busy
          exact iff_of_true rfl busy
      · intro ended
        obtain ⟨lastScan, top⟩ := counted.polled ended
        exact ⟨lastScan, poll.trans top⟩
  | elsewhere outside moved => exact counted.elsewhere outside moved
  | stop =>
      exact ⟨counted.depth, counted.active, counted.running,
        counted.markers, counted.drained, counted.polled⟩

/-- The gauges over whole runs of the threads: in every state passed
`queue_depth` is the length of the queue and `active_workers` the number of
threads inside `ProcessFile`. -/
theorem gauges_run (platform : Worker.Platform) (cfg : Config)
    (clock wall : Int) (fs : Fs) (db : Db) (actions : List (Action n m)) :
    Visits (step platform cfg)
      (fun pool => pool.queueDepth = pool.files.length ∧
        pool.activeWorkers = (Finset.univ.filter fun thread =>
          (pool.world.threads thread).isSome).card)
      (Pool.initial (n := n) (m := m) clock wall fs db) actions := by
  refine (visits_of_preserved Counted
    (fun pool action next counted taken => counted_step counted taken)
    (counted_initial clock wall fs db) actions).mono ?_
  intro pool counted
  refine ⟨counted.depth, ?_⟩
  rw [counted.active, Finset.sum_boole]
  congr 1
  congr 1
  ext thread
  simp [counted.running thread]

end Gauges

end WorkerPool

end RawImport
