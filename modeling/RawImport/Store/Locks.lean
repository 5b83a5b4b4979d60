import RawImport.Lib.Lease
import RawImport.Lib.Run
import RawImport.Store.Tables

/-!
# Processing locks

`processing_locks` has one row per import.  `AcquireLock` reads the row,
decides in the client and writes its own row over whatever is there by then.
Here the two statements are separate steps of any number of workers.
-/

namespace RawImport

open Transition

/-- A row of `processing_locks`, which keeps its import as the key. -/
abbrev LockRow := Lease.Row String Int

abbrev ProcessingLocks := Int → Option LockRow

/-- The workers that pass an id of their own to `AcquireLock`. -/
abbrev WorkerId := { id : String // id ≠ "" }

namespace ProcessingLocks

/-- `effective_worker_id`. -/
def effectiveWorkerId (workerId token : String) : String :=
  if workerId = "" then token else workerId

theorem effectiveWorkerId_of_ne (worker : WorkerId) (token : String) :
    effectiveWorkerId worker.val token = worker.val :=
  if_neg worker.property

/-- The fetched row.  The result buffer takes 255 bytes; `fetch` reports a
truncated row as no row. -/
def select (locks : ProcessingLocks) (importId : Int) : Option LockRow :=
  (locks importId).filter fun row =>
    decide (row.workerId.utf8ByteSize ≤ 255)

/-- `held && cur_exp > now && cur_w != effective_worker_id`. -/
def busy (row : Option LockRow) (now : Int) (workerId : String) : Bool :=
  match row with
  | some row => decide (now < row.expiresAt) && row.workerId != workerId
  | none => false

/-- Strict mode takes the bound values: `import_id` and `expires_at` are
unsigned, `worker_id` is `VARCHAR(64)`. -/
def Fits (importId : Int) (workerId : String) (expires : Int) : Prop :=
  0 ≤ importId ∧ workerId.length ≤ 64 ∧ 0 ≤ expires

instance (importId : Int) (workerId : String) (expires : Int) :
    Decidable (Fits importId workerId expires) :=
  inferInstanceAs (Decidable (_ ∧ _ ∧ _))

/-- `INSERT … ON DUPLICATE KEY UPDATE`. -/
def upsert (locks : ProcessingLocks) (importId : Int) (workerId : String)
    (expires : Int) (executed : Bool) : ProcessingLocks × Bool :=
  if executed = true ∧ Fits importId workerId expires then
    (Function.update locks importId (some ⟨workerId, expires⟩), true)
  else (locks, false)

/-- `ReleaseLock`. -/
def releaseLock (locks : ProcessingLocks) (importId : Int)
    (executed : Bool) : ProcessingLocks × Bool :=
  if executed = true then (Function.update locks importId none, true)
  else (locks, false)

/-- How the statements of one `AcquireLock` call went, and the token it
draws for an empty id. -/
structure AcquireCall where
  selected : Bool := true
  upserted : Bool := true
  token : String := ""
  deriving DecidableEq, Repr

/-- `AcquireLock` at one instant. -/
def acquireLock (locks : ProcessingLocks) (now importId : Int)
    (workerId : String) (ttlSec : Int) (call : AcquireCall) :
    ProcessingLocks × Bool :=
  let expires := now + ttlSec
  let effective := effectiveWorkerId workerId call.token
  if call.selected = false then (locks, false)
  else if busy (locks.select importId) now effective then (locks, false)
  else locks.upsert importId effective expires call.upserted

section Specifications

variable {locks : ProcessingLocks} {importId now : Int} {workerId : String}

theorem busy_eq_true_iff {row : Option LockRow} :
    busy row now workerId = true ↔
      ∃ held ∈ row, now < held.expiresAt ∧ held.workerId ≠ workerId := by
  cases row with
  | none => simp [busy]
  | some row => simp [busy]

theorem acquireLock_cases (locks : ProcessingLocks) (now importId : Int)
    (worker : WorkerId) (ttlSec : Int) (call : AcquireCall) :
    (busy (locks.select importId) now worker.val = false ∧
      Fits importId worker.val (now + ttlSec) ∧
      locks.acquireLock now importId worker.val ttlSec call =
        (Function.update locks importId
          (some ⟨worker.val, now + ttlSec⟩), true)) ∨
    locks.acquireLock now importId worker.val ttlSec call =
      (locks, false) := by
  simp only [acquireLock, effectiveWorkerId_of_ne]
  split
  · exact .inr rfl
  split
  · exact .inr rfl
  · rename_i free
    unfold upsert
    split
    · rename_i taken
      exact .inl ⟨by simpa using free, taken.2, rfl⟩
    · exact .inr rfl

end Specifications

end ProcessingLocks

namespace Contention

/-- Where an `AcquireLock` call stands: before its SELECT, with the fetched
row, behind the check. -/
inductive Stage where
  | started
  | selected (row : Option LockRow)
  | cleared
  deriving DecidableEq, Repr

structure Call where
  importId : Int
  expires : Int
  stage : Stage := .started
  deriving DecidableEq, Repr

end Contention

/-- The lock table with what its workers believe, and their calls. -/
structure Contention where
  book : Lease.Book Int String Int
  calls : WorkerId → Option Contention.Call := fun _ => none

namespace Contention

inductive Action where
  | advance (seconds : Nat)
  | start (worker : WorkerId) (importId ttlSec : Int)
  | select (worker : WorkerId) (executed : Bool)
  | check (worker : WorkerId)
  | upsert (worker : WorkerId) (executed : Bool)
  | release (worker : WorkerId) (importId : Int) (executed : Bool)
  deriving DecidableEq, Repr

def initial (clock : Int) (locks : ProcessingLocks) : Contention :=
  { book := { now := clock, row := locks, held := fun _ _ => none } }

/-- The call of one worker moves on or returns. -/
def setCall (state : Contention) (worker : WorkerId)
    (call : Option Call) : Contention :=
  { state with calls := Function.update state.calls worker call }

def step (state : Contention) : Action → Option Contention
  | .advance seconds =>
      some { state with
        book := state.book.advance (state.book.now + seconds) }
  | .start worker importId ttlSec =>
      match state.calls worker with
      | none =>
          some (state.setCall worker
            (some
              { importId := importId
                expires := state.book.now + ttlSec }))
      | some _ => none
  | .select worker executed =>
      match state.calls worker with
      | some { importId, expires, stage := .started } =>
          if executed then
            some (state.setCall worker
              (some
                { importId := importId
                  expires := expires
                  stage := .selected
                    (ProcessingLocks.select state.book.row importId) }))
          else some (state.setCall worker none)
      | _ => none
  | .check worker =>
      match state.calls worker with
      | some { importId, expires, stage := .selected row } =>
          if ProcessingLocks.busy row state.book.now worker.val then
            some (state.setCall worker none)
          else
            some (state.setCall worker
              (some
                { importId := importId
                  expires := expires
                  stage := .cleared }))
      | _ => none
  | .upsert worker executed =>
      match state.calls worker with
      | some { importId, expires, stage := .cleared } =>
          if (ProcessingLocks.upsert state.book.row importId worker.val
              expires executed).2 then
            some
              { (state.setCall worker none) with
                book := state.book.grant worker.val importId expires }
          else some (state.setCall worker none)
      | _ => none
  | .release worker importId executed =>
      match state.calls worker with
      | none =>
          if (ProcessingLocks.releaseLock state.book.row importId
              executed).2 then
            some { state with
              book := state.book.release worker.val importId }
          else some state
      | some _ => none

end Contention

end RawImport
