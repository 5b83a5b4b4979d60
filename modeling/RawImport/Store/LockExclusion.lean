import RawImport.Store.Locks

/-!
# Exclusion of the processing lock

Between the SELECT and the upsert of one worker the upsert of another may
arrive, and a late `ReleaseLock` deletes whatever row stands there.  A run
without these two events keeps the lock exclusive; a run whose deletions are
clean keeps it exclusive only without the first.
-/

namespace RawImport

namespace Contention

open Transition

variable {state next : Contention} {action : Action}

/-- What a step does to the table and the beliefs. -/
inductive Books (state : Contention) :
    Action → Lease.Book Int String Int → Prop where
  | advance (seconds : Nat) :
      Books state (.advance seconds)
        (state.book.advance (state.book.now + seconds))
  | upsert {worker : WorkerId} {importId expires : Int}
      (cleared : state.calls worker =
        some { importId := importId, expires := expires, stage := .cleared })
      (fits : ProcessingLocks.Fits importId worker.val expires) :
      Books state (.upsert worker true)
        (state.book.grant worker.val importId expires)
  | release (worker : WorkerId) (importId : Int) :
      Books state (.release worker importId true)
        (state.book.release worker.val importId)
  | keep {action : Action} : Books state action state.book

@[simp] theorem setCall_book (state : Contention) (worker : WorkerId)
    (call : Option Call) : (state.setCall worker call).book = state.book :=
  rfl

theorem upsert_granted {locks : ProcessingLocks} {importId expires : Int}
    {workerId : String} {executed : Bool} :
    (locks.upsert importId workerId expires executed).2 = true ↔
      executed = true ∧
        ProcessingLocks.Fits importId workerId expires := by
  unfold ProcessingLocks.upsert
  split
  · rename_i taken
    simpa using taken
  · rename_i refused
    simpa using refused

theorem releaseLock_deleted {locks : ProcessingLocks} {importId : Int}
    {executed : Bool} :
    (locks.releaseLock importId executed).2 = true ↔ executed = true := by
  cases executed <;> simp [ProcessingLocks.releaseLock]

/-- The table after a granted upsert is the one the statement leaves. -/
theorem grant_row_eq_upsert {book : Lease.Book Int String Int}
    {importId expires : Int} {workerId : String} {executed : Bool}
    (granted : (ProcessingLocks.upsert book.row importId workerId expires
      executed).2 = true) :
    (book.grant workerId importId expires).row =
      (ProcessingLocks.upsert book.row importId workerId expires
        executed).1 := by
  have taken := upsert_granted.mp granted
  rw [ProcessingLocks.upsert, if_pos taken]
  rfl

theorem release_row_eq_releaseLock (book : Lease.Book Int String Int)
    (importId : Int) (workerId : String) :
    (book.release workerId importId).row =
      (ProcessingLocks.releaseLock book.row importId true).1 :=
  rfl

theorem step_books (taken : step state action = some next) :
    Books state action next.book := by
  cases action with
  | advance seconds =>
      cases taken
      exact .advance seconds
  | start worker importId ttlSec =>
      simp only [step] at taken
      split at taken
      · cases taken
        exact .keep
      · cases taken
  | select worker executed =>
      simp only [step] at taken
      split at taken
      · split at taken <;> cases taken <;> exact .keep
      · cases taken
  | check worker =>
      simp only [step] at taken
      split at taken
      · split at taken <;> cases taken <;> exact .keep
      · cases taken
  | upsert worker executed =>
      simp only [step] at taken
      split at taken
      · rename_i importId expires cleared
        split at taken
        · rename_i granted
          cases taken
          obtain ⟨rfl, fits⟩ := upsert_granted.mp granted
          exact .upsert cleared fits
        · cases taken
          exact .keep
      · cases taken
  | release worker importId executed =>
      simp only [step] at taken
      split at taken
      · split at taken
        · rename_i deleted
          cases taken
          obtain rfl := releaseLock_deleted.mp deleted
          exact .release worker importId
        · cases taken
          exact .keep
      · cases taken

/-- The statements of a call that nobody interrupts do what `acquireLock`
does at one instant. -/
theorem run_uninterrupted {worker : WorkerId} {importId ttlSec : Int}
    {call : ProcessingLocks.AcquireCall}
    (idle : state.calls worker = none)
    (granted : (ProcessingLocks.acquireLock state.book.row state.book.now
      importId worker.val ttlSec call).2 = true) :
    ∃ final,
      run step state
        [.start worker importId ttlSec, .select worker call.selected,
          .check worker, .upsert worker call.upserted] = some final ∧
      final.book = state.book.grant worker.val importId
        (state.book.now + ttlSec) ∧
      final.book.row = (ProcessingLocks.acquireLock state.book.row
        state.book.now importId worker.val ttlSec call).1 := by
  simp only [ProcessingLocks.acquireLock,
    ProcessingLocks.effectiveWorkerId_of_ne] at granted ⊢
  split at granted
  · cases granted
  rename_i selected
  split at granted
  · cases granted
  rename_i free
  rw [if_neg selected, if_neg free, ← grant_row_eq_upsert granted]
  have taken :
      (run step state
        [.start worker importId ttlSec, .select worker call.selected,
          .check worker, .upsert worker call.upserted]).map book =
        some (state.book.grant worker.val importId
          (state.book.now + ttlSec)) := by
    simp [run, step, setCall, idle, selected, free, granted]
  obtain ⟨final, result, books⟩ := Option.map_eq_some_iff.mp taken
  exact ⟨final, result, books, congrArg Lease.Book.row books⟩

/-- The statement of an upsert finds no unexpired row of another worker that
came in after the SELECT. -/
def Unraced (state : Contention) : Action → Prop
  | .upsert worker executed =>
      ∀ call ∈ state.calls worker, executed = true →
        ProcessingLocks.Fits call.importId worker.val call.expires →
        ¬state.book.Foreign worker.val call.importId
  | _ => True

/-- A `ReleaseLock` does not delete another worker's unexpired row. -/
def KeepsOthers (state : Contention) : Action → Prop
  | .release worker importId executed =>
      executed = true → ¬state.book.Foreign worker.val importId
  | _ => True

/-- An `AcquireLock` call does not outlast its own TTL. -/
def Timely (state : Contention) : Action → Prop
  | .upsert worker _ =>
      ∀ call ∈ state.calls worker, state.book.now < call.expires
  | _ => True

theorem Books.recorded {book : Lease.Book Int String Int}
    (books : Books state action book) (recorded : state.book.Recorded)
    (unraced : Unraced state action) (keeps : KeepsOthers state action) :
    book.Recorded := by
  cases books with
  | advance seconds =>
      apply recorded.advance
      omega
  | upsert cleared fits =>
      apply recorded.grant
      exact unraced _ cleared rfl fits
  | release worker importId =>
      apply recorded.release
      exact keeps rfl
  | keep => exact recorded

theorem Books.claimed {book : Lease.Book Int String Int}
    (books : Books state action book) (claimed : state.book.Claimed) :
    book.Claimed := by
  cases books with
  | advance seconds =>
      apply claimed.advance
      omega
  | upsert cleared fits => exact claimed.grant
  | release worker importId => exact claimed.release
  | keep => exact claimed

/-- An upsert over another worker's unexpired row makes a second holder. -/
theorem unraced_of_exclusive (claimed : state.book.Claimed)
    (timely : Timely state action)
    (taken : step state action = some next)
    (exclusive : next.book.Exclusive) : Unraced state action := by
  cases action with
  | upsert worker executed =>
      intro call present ran fits foreign
      simp only [step] at taken
      split at taken
      · rename_i importId expires cleared
        rw [cleared] at present
        cases present
        rw [if_pos (upsert_granted.mpr ⟨ran, fits⟩)] at taken
        cases taken
        have live : state.book.now < expires := timely _ cleared
        exact claimed.not_exclusive_of_grant foreign live exclusive
      · cases taken
  | _ => trivial

theorem recorded_initial (clock : Int) (locks : ProcessingLocks) :
    (initial clock locks).book.Recorded := by
  intro owner item expiry belief
  cases belief

theorem claimed_initial (clock : Int) :
    (initial clock fun _ => none).book.Claimed := by
  intro owner item expiry present
  cases present

/-- Runs in which no upsert comes too late and no deletion takes another
worker's row are exclusive throughout, whatever rows stood in the table.
From an empty table, runs whose deletions are clean and whose calls end within
their TTL are exclusive throughout only if no upsert comes too late. -/
theorem exclusive_run (clock : Int) (locks : ProcessingLocks)
    (actions : List Action) :
    (Along step (fun state action =>
        Unraced state action ∧ KeepsOthers state action)
        (initial clock locks) actions →
      Visits step (fun state => state.book.Exclusive)
        (initial clock locks) actions) ∧
    (Along step (fun state action =>
        KeepsOthers state action ∧ Timely state action)
        (initial clock fun _ => none) actions →
      (Visits step (fun state => state.book.Exclusive)
          (initial clock fun _ => none) actions ↔
        Along step Unraced (initial clock fun _ => none) actions)) := by
  constructor
  · intro clean
    have visits := visits_of_along (fun state => state.book.Recorded)
      (fun state action next recorded allowed taken =>
        (step_books taken).recorded recorded allowed.1 allowed.2)
      (recorded_initial clock locks) clean
    exact visits.mono fun state recorded => recorded.exclusive
  · intro promised
    refine visits_iff_along_of_assumed
      (fun state => state.book.Recorded ∧ state.book.Claimed)
      ?_ ?_ ?_ ⟨recorded_initial clock _, claimed_initial clock⟩ promised
    · intro state invariant
      exact invariant.1.exclusive
    · intro state action next invariant promise unraced taken
      exact ⟨(step_books taken).recorded invariant.1 unraced promise.1,
        (step_books taken).claimed invariant.2⟩
    · intro state action next invariant promise taken exclusive
      exact unraced_of_exclusive invariant.2 promise.2 taken exclusive

def bothRead : List Action :=
  [.start ⟨"first", by decide⟩ 1 30, .start ⟨"second", by decide⟩ 1 30,
    .select ⟨"first", by decide⟩ true, .select ⟨"second", by decide⟩ true,
    .check ⟨"first", by decide⟩, .check ⟨"second", by decide⟩,
    .upsert ⟨"first", by decide⟩ true, .upsert ⟨"second", by decide⟩ true]

theorem two_holders_after_both_read :
    ∃ state,
      run step (initial 0 fun _ => none) bothRead = some state ∧
      state.book.Holds "first" 1 ∧ state.book.Holds "second" 1 ∧
      ¬state.book.Exclusive := by
  have held : ∃ state,
      run step (initial 0 fun _ => none) bothRead = some state ∧
      state.book.Holds "first" 1 ∧ state.book.Holds "second" 1 :=
    exists_run_of_decide (by decide +kernel)
  obtain ⟨state, result, first, second⟩ := held
  refine ⟨state, result, first, second, ?_⟩
  intro exclusive
  have equal := exclusive 1 "first" "second" first second
  simp at equal

/-- One worker after the other: the first gives the lock back. -/
def takingTurns : List Action :=
  [.start ⟨"first", by decide⟩ 1 30, .select ⟨"first", by decide⟩ true,
    .check ⟨"first", by decide⟩, .upsert ⟨"first", by decide⟩ true,
    .release ⟨"first", by decide⟩ 1 true,
    .start ⟨"second", by decide⟩ 1 30, .select ⟨"second", by decide⟩ true,
    .check ⟨"second", by decide⟩, .upsert ⟨"second", by decide⟩ true]

instance (state : Contention) (action : Action) :
    Decidable (Unraced state action) := by
  unfold Unraced
  split <;> infer_instance

instance (state : Contention) (action : Action) :
    Decidable (KeepsOthers state action) := by
  unfold KeepsOthers
  split <;> infer_instance

theorem exclusive_takingTurns :
    Visits step (fun state => state.book.Exclusive)
      (initial 0 fun _ => none) takingTurns :=
  (exclusive_run 0 (fun _ => none) takingTurns).1 (by decide +kernel)

end Contention

end RawImport
