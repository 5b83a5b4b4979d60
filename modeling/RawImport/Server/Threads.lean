import Mathlib.Data.Fintype.Basic
import Mathlib.Data.Fintype.Sum
import Mathlib.Tactic.DeriveFintype
import RawImport.Lib.Run

/-!
# Threads and their connections

`main` opens one `Store` and hands it to the API, the worker and the rotation
manager; only the converter threads open connections of their own.  An
operation on a connection spans several messages, and no lock keeps two
threads apart while they are exchanged.
-/

namespace RawImport

open Transition

namespace Server

/-- The threads that use the database. -/
inductive Thread (n : Nat) where
  | main
  | accept
  | reconvert
  | rotation
  | converter (index : Fin n)
  deriving DecidableEq, Fintype, Repr

inductive Connection (n : Nat) where
  | shared
  | own (index : Fin n)
  deriving DecidableEq, Repr

variable {n : Nat}

/-- `WorkerThread` opens its own connection; everyone else was given the
`Store` of `main`. -/
def Thread.connection : Thread n → Connection n
  | .converter index => .own index
  | _ => .shared

inductive StoreOperation where
  | open'
  | migrate
  | allocateSequence
  | insertImport
  | getImportBySequence
  | getImportById
  | getImportByHash
  | getImportBySourcePath
  | getImportByOutputPath
  | updateOutputHash
  | updateOrientation
  | recordPreviewEdit
  | insertReconversion
  | updateReconversion
  | acquireLock
  | releaseLock
  | insertAlert
  | getStats
  | listImports
  | close
  | ping
  deriving DecidableEq, Repr

/-- The operations in the code of each thread: `main` with
`ReconcileLibrary` and the drain, `handle`, `ReconvertDrain`, `Dispatch`, and
`ProcessFile`. -/
def Thread.calls : Thread n → List StoreOperation
  | .main =>
      [.open', .migrate, .getImportBySourcePath, .insertImport,
        .allocateSequence, .acquireLock, .updateOrientation, .releaseLock,
        .close]
  | .accept =>
      [.ping, .getStats, .listImports, .getImportByHash,
        .getImportBySourcePath, .getImportBySequence, .insertReconversion,
        .getImportByOutputPath, .updateOutputHash, .recordPreviewEdit]
  | .reconvert =>
      [.getImportById, .updateOutputHash, .updateReconversion]
  | .rotation => [.acquireLock, .updateOrientation, .releaseLock]
  | .converter _ =>
      [.getImportByHash, .allocateSequence, .insertImport, .insertAlert]

/-- How far `main` is: before the rotation manager, before `worker.Start`,
before `api.Run`, serving, and behind each of the three stops. -/
inductive Phase where
  | startup
  | managed
  | started
  | serving
  | apiStopped
  | workerStopped
  | draining
  | closed
  deriving DecidableEq, Repr

def Phase.next : Phase → Option Phase
  | .startup => some .managed
  | .managed => some .started
  | .started => some .serving
  | .serving => some .apiStopped
  | .apiStopped => some .workerStopped
  | .workerStopped => some .draining
  | .draining => some .closed
  | .closed => none

/-- The threads that may be inside an operation.  `main` itself works before
the others start and, in the drain of `rotation.Stop`, after they are
joined. -/
def Phase.runs : Phase → Thread n → Bool
  | .startup, .main => true
  | .managed, .rotation => true
  | .started, .rotation => true
  | .started, .reconvert => true
  | .started, .converter _ => true
  | .serving, .main => false
  | .serving, _ => true
  | .apiStopped, .rotation => true
  | .apiStopped, .reconvert => true
  | .apiStopped, .converter _ => true
  | .workerStopped, .rotation => true
  | .draining, .main => true
  | _, _ => false

end Server

/-- The process: the operation each thread is in, and the reconversion
queue. -/
structure Server (n : Nat) where
  phase : Server.Phase := .startup
  busy : Server.Thread n → Option Server.StoreOperation := fun _ => none
  reconverts : Nat := 0
  reconverting : Bool := false

namespace Server

variable {n : Nat}

inductive Action (n : Nat) where
  | proceed
  | queueReconvert
  | popReconvert
  | jobDone
  | start (thread : Thread n) (operation : StoreOperation)
  | finish (thread : Thread n)
  deriving DecidableEq, Repr

/-- `ReconvertDrain` works on a popped job only. -/
def Working (server : Server n) : Thread n → Prop
  | .reconvert => server.reconverting = true
  | _ => True

instance (server : Server n) (thread : Thread n) :
    Decidable (server.Working thread) := by
  unfold Working
  split <;> infer_instance

/-- A join waits for the operations of the joined threads. -/
def step (server : Server n) : Action n → Option (Server n)
  | .proceed =>
      match server.phase.next with
      | some phase =>
          if ∀ thread, server.busy thread ≠ none →
              phase.runs thread = true then
            some { server with phase := phase }
          else none
      | none => none
  | .queueReconvert =>
      some { server with reconverts := server.reconverts + 1 }
  | .popReconvert =>
      match server.reconverts with
      | 0 => none
      | count + 1 =>
          if server.phase.runs (.reconvert : Thread n) = true ∧
              server.reconverting = false then
            some { server with
              reconverts := count
              reconverting := true }
          else none
  | .jobDone =>
      if server.busy .reconvert = none then
        some { server with reconverting := false }
      else none
  | .start thread operation =>
      if server.busy thread = none ∧ server.phase.runs thread = true ∧
          server.Working thread ∧ operation ∈ thread.calls then
        some { server with
          busy := Function.update server.busy thread (some operation) }
      else none
  | .finish thread =>
      if server.busy thread ≠ none then
        some { server with
          busy := Function.update server.busy thread none }
      else none

/-- Every connection has at most one operation in progress. -/
def OneUser (server : Server n) : Prop :=
  ∀ first second, server.busy first ≠ none → server.busy second ≠ none →
    first.connection = second.connection → first = second

/-- The threads that share the `Store` of `main` while it waits for a
signal. -/
def Thread.shares : Thread n → Bool
  | .accept => true
  | .reconvert => true
  | .rotation => true
  | _ => false

/-- A sharing thread starts an operation only while no other one is in the
middle of one. -/
def Alone (server : Server n) : Action n → Prop
  | .start thread _ =>
      thread.shares = true → ∀ other, other.shares = true →
        other ≠ thread → server.busy other = none
  | _ => True

/-- Operations are in progress in running threads only. -/
structure Orderly (server : Server n) : Prop where
  running : ∀ thread, server.busy thread ≠ none →
    server.phase.runs thread = true
  oneUser : server.OneUser

theorem runs_main_alone {phase : Phase} {thread : Thread n}
    (main : phase.runs (.main : Thread n) = true)
    (runs : phase.runs thread = true) : thread = .main := by
  cases phase <;> simp only [Phase.runs, Bool.false_eq_true] at main <;>
    cases thread <;> simp [Phase.runs] at runs ⊢

/-- Two threads on one connection are the same, or both share the `Store` of
`main`. -/
theorem shares_of_same_connection {first second : Thread n}
    (same : first.connection = second.connection)
    (different : first ≠ second) :
    (first.shares = true ∨ first = .main) ∧
      (second.shares = true ∨ second = .main) := by
  cases first with
  | converter index =>
      cases second with
      | converter index' =>
          cases same
          exact (different rfl).elim
      | _ => cases same
  | _ =>
      cases second with
      | converter index' => cases same
      | _ => simp [Thread.shares]

variable {server after : Server n} {action : Action n}

theorem Orderly.start (orderly : server.Orderly) {thread : Thread n}
    {operation : StoreOperation}
    (runs : server.phase.runs thread = true)
    (alone : server.Alone (.start thread operation)) :
    Orderly
      { server with
        busy := Function.update server.busy thread (some operation) } := by
  have free : ∀ other, other ≠ thread →
      other.connection = thread.connection → server.busy other = none := by
    intro other different same
    by_contra busy
    have otherRuns := orderly.running other busy
    obtain ⟨otherKind, kind⟩ := shares_of_same_connection same different
    rcases kind with shares | rfl
    · rcases otherKind with otherShares | rfl
      · exact busy (alone shares other otherShares different)
      · exact different (runs_main_alone otherRuns runs).symm
    · exact different (runs_main_alone runs otherRuns)
  constructor
  · intro other busy
    by_cases same : other = thread
    · rw [same]
      exact runs
    · simp only [Function.update_of_ne same] at busy
      exact orderly.running other busy
  · intro first second busyFirst busySecond same
    by_cases isFirst : first = thread
    · by_cases isSecond : second = thread
      · rw [isFirst, isSecond]
      · simp only [Function.update_of_ne isSecond] at busySecond
        rw [isFirst] at same
        exact (busySecond (free second isSecond same.symm)).elim
    · simp only [Function.update_of_ne isFirst] at busyFirst
      by_cases isSecond : second = thread
      · rw [isSecond] at same
        exact (busyFirst (free first isFirst same)).elim
      · simp only [Function.update_of_ne isSecond] at busySecond
        exact orderly.oneUser first second busyFirst busySecond same

theorem Orderly.finish (orderly : server.Orderly) (thread : Thread n) :
    Orderly
      { server with busy := Function.update server.busy thread none } := by
  have before : ∀ other,
      Function.update server.busy thread none other ≠ none →
        server.busy other ≠ none := by
    intro other busy
    by_cases same : other = thread
    · rw [same, Function.update_self] at busy
      exact (busy rfl).elim
    · rwa [Function.update_of_ne same] at busy
  constructor
  · intro other busy
    exact orderly.running other (before other busy)
  · intro first second busyFirst busySecond same
    exact orderly.oneUser first second (before first busyFirst)
      (before second busySecond) same

theorem orderly_step (orderly : server.Orderly)
    (alone : server.Alone action)
    (stepped : step server action = some after) : after.Orderly := by
  cases action with
  | proceed =>
      simp only [step] at stepped
      split at stepped
      · split at stepped
        · rename_i phase _ joined
          cases stepped
          exact ⟨joined, orderly.oneUser⟩
        · cases stepped
      · cases stepped
  | queueReconvert =>
      cases stepped
      exact ⟨orderly.running, orderly.oneUser⟩
  | popReconvert =>
      simp only [step] at stepped
      split at stepped
      · cases stepped
      · split at stepped
        · cases stepped
          exact ⟨orderly.running, orderly.oneUser⟩
        · cases stepped
  | jobDone =>
      simp only [step] at stepped
      split at stepped
      · cases stepped
        exact ⟨orderly.running, orderly.oneUser⟩
      · cases stepped
  | start thread operation =>
      simp only [step] at stepped
      split at stepped
      · rename_i enabled
        cases stepped
        exact orderly.start enabled.2.1 alone
      · cases stepped
  | finish thread =>
      simp only [step] at stepped
      split at stepped
      · cases stepped
        exact orderly.finish thread
      · cases stepped

/-- An operation that starts beside another one makes a second user. -/
theorem alone_of_oneUser (stepped : step server action = some after)
    (oneUser : after.OneUser) : server.Alone action := by
  cases action with
  | start thread operation =>
      intro shares other otherShares different
      by_contra busy
      simp only [step] at stepped
      split at stepped
      · cases stepped
        apply different
        apply oneUser
        · simpa [Function.update_of_ne different] using busy
        · simp
        · cases other <;> cases thread <;>
            simp [Thread.shares, Thread.connection] at shares otherShares ⊢
      · cases stepped
  | _ => trivial

/-- From `main`'s first statement to its last, for any number of converter
threads and any interleaving: every connection has one user at a time exactly
when the API thread, `ReconvertDrain` and the rotation worker happen not to
overlap. -/
theorem oneUser_run_iff (actions : List (Action n)) :
    Visits step OneUser ({} : Server n) actions ↔
      Along step Alone ({} : Server n) actions := by
  apply visits_iff_along Orderly
  · intro server orderly
    exact orderly.oneUser
  · intro server action after orderly alone stepped
    exact orderly_step orderly alone stepped
  · intro server action after _ stepped oneUser
    exact alone_of_oneUser stepped oneUser
  · constructor
    · intro thread busy
      exact (busy rfl).elim
    · intro first second busy
      exact (busy rfl).elim

/-- A readiness probe arrives while the rotation worker takes its lock. -/
def probed : List (Action 1) :=
  [.start .main .open', .finish .main, .proceed, .proceed, .proceed,
    .start .rotation .acquireLock, .start .accept .ping]

theorem two_users_of_shared_connection :
    ∃ server,
      run step ({} : Server 1) probed = some server ∧
      server.busy .rotation = some .acquireLock ∧
      server.busy .accept = some .ping ∧
      ¬server.OneUser := by
  have reached : ∃ server,
      run step ({} : Server 1) probed = some server ∧
      server.busy .rotation = some .acquireLock ∧
      server.busy .accept = some .ping :=
    exists_run_of_decide (by decide +kernel)
  obtain ⟨server, result, locking, pinging⟩ := reached
  refine ⟨server, result, locking, pinging, ?_⟩
  intro oneUser
  have same := oneUser .rotation .accept (by simp [locking])
    (by simp [pinging]) rfl
  cases same

end Server

end RawImport
