import RawImport.Store.Locks

/-!
# Release of the processing lock

`ReleaseLock` deletes by import alone.  Each worker calls it once after each
`AcquireLock` that returned true; with both calls atomic it still deletes a
lock that another worker took over in the meantime.
-/

namespace RawImport

open Transition

/-- The lock table with what its workers believe, and the `ReleaseLock` calls
they still owe. -/
structure LockUse where
  book : Lease.Book Int String Int
  owed : WorkerId → Int → Nat

namespace LockUse

inductive Action where
  | advance (seconds : Nat)
  | acquire (worker : WorkerId) (importId ttlSec : Int)
      (call : ProcessingLocks.AcquireCall)
  | release (worker : WorkerId) (importId : Int) (executed : Bool)
  deriving DecidableEq, Repr

/-- The rows that stand in the table at the start are held by the workers
they name. -/
def initial (clock : Int) (locks : ProcessingLocks) : LockUse :=
  { book :=
      { now := clock
        row := locks
        held := fun owner importId =>
          ((locks importId).filter fun row =>
            decide (row.workerId = owner)).map Lease.Row.expiresAt }
    owed := fun worker importId =>
      match locks importId with
      | some row => if row.workerId = worker.val then 1 else 0
      | none => 0 }

def setOwed (state : LockUse) (worker : WorkerId) (importId : Int)
    (count : Nat) : LockUse :=
  { state with
    owed := Function.update state.owed worker
      (Function.update (state.owed worker) importId count) }

def step (state : LockUse) : Action → Option LockUse
  | .advance seconds =>
      some { state with
        book := state.book.advance (state.book.now + seconds) }
  | .acquire worker importId ttlSec call =>
      if (ProcessingLocks.acquireLock state.book.row state.book.now importId
          worker.val ttlSec call).2 then
        some
          { (state.setOwed worker importId
              (state.owed worker importId + 1)) with
            book := state.book.takeOver worker.val importId
              (state.book.now + ttlSec) }
      else some state
  | .release worker importId executed =>
      match state.owed worker importId with
      | 0 => none
      | count + 1 =>
          if (ProcessingLocks.releaseLock state.book.row importId
              executed).2 then
            some
              { (state.setOwed worker importId count) with
                book := state.book.release worker.val importId }
          else some (state.setOwed worker importId count)

variable {state next : LockUse} {action : Action}

/-- What a step does to the table and the beliefs. -/
inductive Books (state : LockUse) :
    Action → Lease.Book Int String Int → Prop where
  | advance (seconds : Nat) :
      Books state (.advance seconds)
        (state.book.advance (state.book.now + seconds))
  | acquire (worker : WorkerId) (importId ttlSec : Int)
      (call : ProcessingLocks.AcquireCall) :
      Books state (.acquire worker importId ttlSec call)
        (state.book.takeOver worker.val importId
          (state.book.now + ttlSec))
  | release (worker : WorkerId) (importId : Int) :
      Books state (.release worker importId true)
        (state.book.release worker.val importId)
  | refuse (worker : WorkerId) (importId ttlSec : Int)
      (call : ProcessingLocks.AcquireCall) :
      Books state (.acquire worker importId ttlSec call) state.book
  | fail (worker : WorkerId) (importId : Int) :
      Books state (.release worker importId false) state.book

/-- The table after an acquisition is the one `acquireLock` leaves. -/
theorem takeOver_row_eq_acquireLock {book : Lease.Book Int String Int}
    {worker : WorkerId} {importId ttlSec : Int}
    {call : ProcessingLocks.AcquireCall}
    (granted : (ProcessingLocks.acquireLock book.row book.now importId
      worker.val ttlSec call).2 = true) :
    (book.takeOver worker.val importId (book.now + ttlSec)).row =
      (ProcessingLocks.acquireLock book.row book.now importId worker.val
        ttlSec call).1 := by
  rcases ProcessingLocks.acquireLock_cases book.row book.now importId worker
    ttlSec call with ⟨-, -, written⟩ | refused
  · rw [written]
    rfl
  · rw [refused] at granted
    cases granted

theorem step_books (taken : step state action = some next) :
    Books state action next.book := by
  cases action with
  | advance seconds =>
      cases taken
      exact .advance seconds
  | acquire worker importId ttlSec call =>
      simp only [step] at taken
      split at taken
      · cases taken
        exact .acquire worker importId ttlSec call
      · cases taken
        exact .refuse worker importId ttlSec call
  | release worker importId executed =>
      simp only [step] at taken
      split at taken
      · cases taken
      · cases executed with
        | true =>
            cases taken
            exact .release worker importId
        | false =>
            cases taken
            exact .fail worker importId

/-- An unexpired row goes only by a `ReleaseLock` of its own worker. -/
def RemovedByHolder (state : LockUse) (action : Action) : Prop :=
  ∀ next, step state action = some next →
    ∀ importId, ∀ row ∈ state.book.row importId,
      state.book.now < row.expiresAt → next.book.row importId = none →
        ∃ worker executed, action = .release worker importId executed ∧
          worker.val = row.workerId

/-- A worker that calls `ReleaseLock` still has its own lock (its time has
not run out, it has not released it and nobody took it over), or nobody else
has one. -/
def InTime (state : LockUse) : Action → Prop
  | .release worker importId executed =>
      executed = true →
        state.book.Holds worker.val importId ∨
          ∀ other, ¬(other ≠ worker.val ∧ state.book.Holds other importId)
  | _ => True

/-- The table and the beliefs agree. -/
structure Agreed (state : LockUse) : Prop where
  recorded : state.book.Recorded
  claimed : state.book.Claimed

theorem agreed_initial (clock : Int) (locks : ProcessingLocks) :
    Agreed (initial clock locks) := by
  constructor
  · intro owner importId expiry belief live
    obtain ⟨row, found, rfl⟩ := Option.map_eq_some_iff.mp belief
    obtain ⟨present, named⟩ := Option.filter_eq_some_iff.mp found
    obtain rfl := of_decide_eq_true named
    exact present
  · intro owner importId expiry present live
    apply Option.map_eq_some_iff.mpr
    exact ⟨_, Option.filter_eq_some_iff.mpr ⟨present, decide_eq_true rfl⟩,
      rfl⟩

/-- A `ReleaseLock` in time finds no unexpired row of another worker. -/
theorem Agreed.not_foreign_iff (agreed : Agreed state) (worker : WorkerId)
    (importId : Int) :
    ¬state.book.Foreign worker.val importId ↔
      state.book.Holds worker.val importId ∨
        ∀ other, ¬(other ≠ worker.val ∧ state.book.Holds other importId) := by
  constructor
  · intro free
    right
    intro other both
    exact free (agreed.recorded.foreign_of_holder both.1 both.2)
  · intro inTime foreign
    cases inTime with
    | inl holds =>
        exact agreed.recorded.not_holds_of_foreign foreign holds
    | inr nobody =>
        obtain ⟨other, different, holds⟩ :=
          agreed.claimed.holder_of_foreign foreign
        exact nobody other ⟨different, holds⟩

theorem Books.agreed {book : Lease.Book Int String Int}
    (books : Books state action book) (agreed : Agreed state)
    (inTime : InTime state action) : book.Recorded ∧ book.Claimed := by
  cases books with
  | advance seconds =>
      constructor
      · apply agreed.recorded.advance
        omega
      · apply agreed.claimed.advance
        omega
  | acquire worker importId ttlSec call =>
      exact ⟨agreed.recorded.takeOver, agreed.claimed.takeOver⟩
  | release worker importId =>
      constructor
      · apply agreed.recorded.release
        exact (agreed.not_foreign_iff worker importId).mpr (inTime rfl)
      · exact agreed.claimed.release
  | _ => exact ⟨agreed.recorded, agreed.claimed⟩

theorem agreed_step (agreed : Agreed state) (inTime : InTime state action)
    (taken : step state action = some next) : Agreed next := by
  obtain ⟨recorded, claimed⟩ := (step_books taken).agreed agreed inTime
  exact ⟨recorded, claimed⟩

theorem Books.removed {book : Lease.Book Int String Int}
    (books : Books state action book) {importId : Int} {row : LockRow}
    (present : state.book.row importId = some row)
    (gone : book.row importId = none) :
    ∃ worker, action = .release worker importId true := by
  cases books with
  | acquire worker importId' ttlSec call =>
      by_cases same : importId = importId'
      · subst same
        rw [Lease.Book.takeOver_row_same] at gone
        cases gone
      · rw [Lease.Book.takeOver_row_other same, present] at gone
        cases gone
  | release worker importId' =>
      by_cases same : importId = importId'
      · subst same
        exact ⟨worker, rfl⟩
      · rw [Lease.Book.release_row_other same, present] at gone
        cases gone
  | _ =>
      have empty : state.book.row importId = none := gone
      rw [present] at empty
      cases empty

/-- In an agreed state, a step removes no row but its own exactly when its
`ReleaseLock` is in time. -/
theorem removedByHolder_iff_inTime (agreed : Agreed state)
    (taken : step state action = some next) :
    RemovedByHolder state action ↔ InTime state action := by
  constructor
  · intro removes
    cases action with
    | release worker importId executed =>
        rintro rfl
        apply (agreed.not_foreign_iff worker importId).mp
        intro foreign
        obtain ⟨row, present, live, different⟩ := foreign
        have gone : next.book.row importId = none := by
          have books := step_books taken
          generalize next.book = book at books
          cases books
          exact Lease.Book.release_row_same
        obtain ⟨worker', executed, action, named⟩ :=
          removes next taken importId row present live gone
        cases action
        exact different named.symm
    | _ => trivial
  · intro inTime next taken importId row present live gone
    obtain ⟨worker, rfl⟩ := (step_books taken).removed present gone
    have free := (agreed.not_foreign_iff worker importId).mpr (inTime rfl)
    refine ⟨worker, true, rfl, ?_⟩
    by_contra different
    exact free ⟨row, present, live, Ne.symm different⟩

/-- Over whole runs of any workers on any imports, with any delays: unexpired
rows go only by their own workers' `ReleaseLock` calls exactly when every
`ReleaseLock` call is in time. -/
theorem removedByHolder_run_iff (clock : Int) (locks : ProcessingLocks)
    (actions : List Action) :
    Along step RemovedByHolder (initial clock locks) actions ↔
      Along step InTime (initial clock locks) actions := by
  apply along_iff_along Agreed
  · intro state action next agreed inTime taken
    exact agreed_step agreed inTime taken
  · intro state action next agreed taken
    exact removedByHolder_iff_inTime agreed taken
  · exact agreed_initial clock locks

theorem first_named : "first" ≠ "" := by decide

theorem second_named : "second" ≠ "" := by decide

/-- The first worker outlives its TTL and the second takes over. -/
def outlived : List Action :=
  [.acquire ⟨"first", first_named⟩ 1 30 {}, .advance 31,
    .acquire ⟨"second", second_named⟩ 1 30 {}]

/-- The late release of the first worker deletes the lock the second one has
for another 30 seconds. -/
theorem late_release_removes_foreign_row :
    (∃ state,
      run step (initial 0 fun _ => none) outlived = some state ∧
      state.book.row 1 = some ⟨"second", 61⟩ ∧ state.book.now = 31 ∧
      ∃ next,
        step state (.release ⟨"first", by decide⟩ 1 true) = some next ∧
        next.book.row 1 = none ∧
        ¬RemovedByHolder state (.release ⟨"first", by decide⟩ 1 true)) := by
  have reached : ∃ state,
      run step (initial 0 fun _ => none) outlived = some state ∧
      state.book.row 1 = some ⟨"second", 61⟩ ∧ state.book.now = 31 ∧
      (step state (.release ⟨"first", by decide⟩ 1 true)).map
        (fun next => next.book.row 1) = some none :=
    exists_run_of_decide (by decide +kernel)
  obtain ⟨state, result, present, clock, removed⟩ := reached
  obtain ⟨next, taken, gone⟩ := Option.map_eq_some_iff.mp removed
  refine ⟨state, result, present, clock, next, taken, gone, ?_⟩
  intro removes
  have live : state.book.now < 61 := by omega
  obtain ⟨worker, executed, action, named⟩ :=
    removes next taken 1 ⟨"second", 61⟩ present live gone
  cases action
  simp at named

end LockUse

end RawImport
